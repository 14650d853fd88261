import DocSearch.Error

/-!
# Sources and chunks

A source supplies items one at a time, from a list or from a stream without end, and counts what
has been drawn. Chunks are pulled from it: a pull draws items until the chunk is full or the source
has none left, and an empty chunk ends the sequence.
-/

namespace DocSearch

inductive Supply (α : Type) where
  | list (items : List α)
  /-- Item number `next` and all that follow it. -/
  | stream (item : Nat → α) (next : Nat)

structure Source (α : Type) where
  supply : Supply α
  drawn : Nat := 0

namespace Source

variable {α : Type}

def ofList (items : List α) : Source α := { supply := .list items }

def ofStream (item : Nat → α) : Source α := { supply := .stream item 0 }

/-- Draw one item. -/
def next? (source : Source α) : Option (α × Source α) :=
  match source.supply with
  | .list [] => none
  | .list (a :: rest) => some (a, ⟨.list rest, source.drawn + 1⟩)
  | .stream item n => some (item n, ⟨.stream item (n + 1), source.drawn + 1⟩)

/-- Draw up to `size` items. -/
def pull (source : Source α) : (size : Nat) → List α × Source α
  | 0 => ([], source)
  | size + 1 =>
    match source.next? with
    | none => ([], source)
    | some (a, source) =>
      let (chunk, source) := source.pull size
      (a :: chunk, source)

/-- A number of pulls that is enough to use up a list; a stream is never used up. -/
def pullsToEnd : Source α → Option Nat
  | ⟨.list items, _⟩ => some (items.length + 1)
  | ⟨.stream _ _, _⟩ => none

end Source

/-- The largest number of items that can be asked for at once. -/
def chunkLimit : Int := 0x7fffffffffffffff

/-- Chunks have at least one item and no more than can be asked for at once. -/
def chunkSize (size : Int) : Except Error Nat :=
  if size < 1 then .error (.chunkSize size)
  else if chunkLimit < size then .error .chunkTooLarge
  else .ok size.toNat

/-- The chunks pulled so far, what ended the pulling, and the rest of the source. -/
structure Chunking (α : Type) where
  chunks : List (List α)
  failure : Option Error
  source : Source α

/-- Pull up to `pulls` chunks of `size` items. -/
def pullChunks {α : Type} (size : Nat) : (pulls : Nat) → Source α → List (List α) × Source α
  | 0, source => ([], source)
  | pulls + 1, source =>
    match source.pull size with
    | ([], source) => ([], source)
    | (chunk, source) =>
      let (chunks, source) := pullChunks size pulls source
      (chunk :: chunks, source)

/-- Split a source into chunks. The size is looked at when the first chunk is asked for. -/
def splitChunks {α : Type} (size : Int) (pulls : Nat) (source : Source α) : Chunking α :=
  if pulls = 0 then ⟨[], none, source⟩
  else
    match chunkSize size with
    | .error e => ⟨[], some e, source⟩
    | .ok size =>
      let (chunks, source) := pullChunks size pulls source
      ⟨chunks, none, source⟩

end DocSearch
