import DocSearch.Document.Write
import DocSearch.Source

/-!
# Writing in bulk

Documents to save and identifiers to delete come from two sources and are sent in chunks: first all
saves, then all deletions, one call for each chunk. The first failure ends everything. A source may
have no end, so a run is given a number of chunks that it may pull from such a source; a run that
is not finished by then has no result.
-/

namespace DocSearch

/-- A save inside a bulk call. The identifier is read off the wire form and written out. -/
def Index.saveAction (index : Index) (names : PointNames) (document : Value) :
    Except Error BulkAction := do
  let wire ← index.schema.toWire names document
  let id ← identifierText index.identifier.name wire
  return .save index.name id (.object wire)

/-- A reply to a bulk call is fine unless it reports errors. -/
def readBulk (index : Index) (phase : BulkPhase) (reply : Reply) : Except Error Unit := do
  let answer ← reply.answer
  if (← answer.member "errors").truthy then throw (.bulkFailed index.name phase)

/-- One call that saves a chunk of documents. -/
def Index.saveChunk (index : Index) (names : PointNames) (waits : Bool) (documents : List Value) :
    Except Error (Request Unit) := do
  let actions ← documents.mapM (index.saveAction names)
  return ⟨.bulk actions waits, readBulk index .indexing⟩

/-- One call that deletes a chunk of identifiers. -/
def Index.deleteChunk (index : Index) (waits : Bool) (ids : List Value) :
    Except Error (Request Unit) :=
  .ok ⟨.bulk (ids.map (.delete index.name)) waits, readBulk index .deleting⟩

variable {σ α : Type}

/-- One phase of a bulk run. There is no result while chunks may still be left. -/
structure PhaseRun (σ α : Type) where
  result : Option (Except Error Unit)
  calls : List Call
  state : σ
  source : Source α

/-- Send chunk after chunk until the source is used up, a chunk fails or no pulls are left. -/
def Service.sendChunks (service : Service σ) (plan : List α → Except Error (Request Unit))
    (size : Nat) : (pulls : Nat) → Source α → σ → PhaseRun σ α
  | 0, source, state => ⟨none, [], state, source⟩
  | pulls + 1, source, state =>
    match source.pull size with
    | ([], source) => ⟨some (.ok ()), [], state, source⟩
    | (chunk, source) =>
      match service.run state (plan chunk) with
      | ⟨.error e, calls, state⟩ => ⟨some (.error e), calls, state, source⟩
      | ⟨.ok (), calls, state⟩ =>
        let rest := service.sendChunks plan size pulls source state
        { rest with calls := calls ++ rest.calls }

structure BulkJob where
  saves : Source Value
  deletes : Source Value
  size : Int := 100
  options : WriteOptions := .null

/-- Whether a job is to be confirmed, and the size of its chunks. The options are looked at
first. -/
def BulkJob.settings (job : BulkJob) : Except Error (Bool × Nat) := do
  let waits ← job.options.confirms
  let size ← chunkSize job.size
  return (waits, size)

structure BulkRun (σ : Type) where
  result : Option (Except Error (Option Task))
  calls : List Call
  state : σ
  saves : Source Value
  deletes : Source Value

/-- Run a bulk job; `patience` is the number of chunks that may be pulled from a stream. -/
def Service.bulk (service : Service σ) (index : Index) (names : PointNames) (job : BulkJob)
    (patience : Nat) (state : σ) : BulkRun σ :=
  match job.settings with
  | .error e => ⟨some (.error e), [], state, job.saves, job.deletes⟩
  | .ok (waits, size) =>
    let first := service.sendChunks (index.saveChunk names waits) size
      (job.saves.pullsToEnd.getD patience) job.saves state
    match first.result with
    | none => ⟨none, first.calls, first.state, first.source, job.deletes⟩
    | some (.error e) => ⟨some (.error e), first.calls, first.state, first.source, job.deletes⟩
    | some (.ok ()) =>
      let second := service.sendChunks (index.deleteChunk waits) size
        (job.deletes.pullsToEnd.getD patience) job.deletes first.state
      ⟨second.result.map fun ended => ended.map fun _ => if waits then some ⟨.null⟩ else none,
        first.calls ++ second.calls, second.state, first.source, second.source⟩

end DocSearch
