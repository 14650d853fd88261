import DocSearch.Migration.Cluster
import DocSearch.Schema.Indexes
import DocSearch.Value.Access

/-!
# Migrations

Creating, dropping and inspecting the configured indexes of a cluster. An index is only created
where it is absent and only dropped where it is present. Several keys may name the same index.
-/

namespace DocSearch

/-- What is known about an index. Counts are kept as the service reports them. -/
structure IndexInfo where
  name : String
  present : Bool
  documents : Value := .int 0
  bytes : Value := .int 0
  deriving Repr

structure Migrator where
  indexes : Indexes

/-- Document count and size out of the statistics of an index; what is absent counts as zero. -/
def readStats (name : String) (answer : Value) : Except Error (Value × Value) := do
  let entry ← (← answer.member "indices").memberD name (.object [])
  let primaries ← entry.memberD "primaries" (.object [])
  let documents ← (← primaries.memberD "docs" (.object [])).memberD "count" (.int 0)
  let bytes ← (← primaries.memberD "store" (.object [])).memberD "size_in_bytes" (.int 0)
  return (documents, bytes)

namespace Migrator

def index (migrator : Migrator) (key : String) : Except Error Index := migrator.indexes.get key

def info (name : String) : Admin IndexInfo := do
  if ← Admin.exists? name then
    let answer ← Admin.stats name
    let (documents, bytes) ← Action.ofExcept (readStats name answer)
    return { name, present := true, documents, bytes }
  else return { name, present := false }

def status (migrator : Migrator) : Admin (List (String × IndexInfo)) :=
  Action.each (fun e => do return (e.1, ← info e.2.name)) migrator.indexes.entries

/-- Create an index that is absent. One that exists is left alone or is an error. -/
def create (migrator : Migrator) (key : String) (skipExisting : Bool) : Admin Bool := do
  let index ← Action.ofExcept (migrator.index key)
  if ← Admin.exists? index.name then
    if skipExisting then return true
    else Action.ofExcept (.error (.indexExists index.name))
  else
    let properties ← Action.ofExcept index.mappings
    Admin.create index.name properties
    return true

/-- Drop an index that is present. -/
def drop (migrator : Migrator) (key : String) : Admin Bool := do
  let index ← Action.ofExcept (migrator.index key)
  if ← Admin.exists? index.name then Admin.delete index.name
  return true

def createAll (migrator : Migrator) (skipExisting : Bool) : Admin (List (String × Bool)) :=
  Action.each (fun e => do return (e.1, ← migrator.create e.1 skipExisting))
    migrator.indexes.entries

def dropAll (migrator : Migrator) : Admin (List (String × Bool)) :=
  Action.each (fun e => do return (e.1, ← migrator.drop e.1)) migrator.indexes.entries

/-- Drop every index and create all of them again; none may be left by then. -/
def recreateAll (migrator : Migrator) : Admin (List (String × Bool)) := do
  let _ ← migrator.dropAll
  migrator.createAll false

end Migrator
end DocSearch
