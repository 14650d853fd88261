import DocSearch.Document.Bulk
import DocSearch.Schema.Indexes
import DocSearch.Search.Builder

/-!
# The engine

Operations on indexes by the key under which they are configured. The engine always uses the search
service's own names for the coordinates of a point.
-/

namespace DocSearch

structure Engine where
  indexes : Indexes

namespace Engine

def index (engine : Engine) (key : String) : Except Error Index := engine.indexes.get key

def save (engine : Engine) (key : String) (document : Value) (options : WriteOptions) :
    Except Error (Request (Option Task)) := do
  (← engine.index key).save .engine document options

def delete (engine : Engine) (key : String) (id : Value) (options : WriteOptions) :
    Except Error (Request (Option Task)) := do
  (← engine.index key).delete id options

/-- The document with an identifier. That there is none is an error that names the key. -/
def get (engine : Engine) (key : String) (id : Value) : Except Error (Request Value) := do
  let index ← engine.index key
  let search : Search := ⟨index, [.leaf (.identifier id)], [], 1, 0⟩
  let request ← search.request .engine
  return request.andThen fun result => do
    match ← result.first? with
    | some document => return document
    | none => throw (.documentNotFound id key)

def builder (engine : Engine) (key : String) : Except Error SearchBuilder := do
  return { index := ← engine.index key }

/-- Run a bulk job on the index under a key. -/
def bulk {σ : Type} (engine : Engine) (service : Service σ) (key : String) (job : BulkJob)
    (patience : Nat) (state : σ) : BulkRun σ :=
  match engine.index key with
  | .error e => ⟨some (.error e), [], state, job.saves, job.deletes⟩
  | .ok index => service.bulk index .engine job patience state

end Engine
end DocSearch
