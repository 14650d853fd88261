import DocSearch.Outcome
import DocSearch.Schema.Mapping

/-!
# Clusters

What a migration sees of the search service: which indexes exist, the statistics it reports, the
indexes that stay although they are deleted, and the calls that it turns down. Every call is
recorded, also one that is turned down.
-/

namespace DocSearch

inductive AdminMethod where
  | exists | stats | create | delete
  deriving DecidableEq, Repr

def AdminMethod.word : AdminMethod → String
  | .exists => "exists"
  | .stats => "stats"
  | .create => "create"
  | .delete => "delete"

inductive AdminCall where
  | exists (index : String)
  | stats (index : String)
  | create (index : String) (properties : List (String × Mapping))
  | delete (index : String)
  deriving Repr

namespace AdminCall

def method : AdminCall → AdminMethod
  | .exists _ => .exists
  | .stats _ => .stats
  | .create _ _ => .create
  | .delete _ => .delete

def target : AdminCall → String
  | .exists name => name
  | .stats name => name
  | .create name _ => name
  | .delete name => name

def arguments : AdminCall → Members
  | .create name properties => [("index", .text name), ("mappings", mappingBody properties)]
  | call => [("index", .text call.target)]

end AdminCall

structure Cluster where
  existing : List String := []
  stats : List (String × Value) := []
  sticky : List String := []
  faults : List ((AdminMethod × String) × Fault) := []

namespace Cluster

/-- The fault with which a call is turned down. -/
def fault? (cluster : Cluster) (call : AdminCall) : Option Fault :=
  cluster.faults.lookup (call.method, call.target)

def add (cluster : Cluster) (name : String) : Cluster :=
  if name ∈ cluster.existing then cluster
  else { cluster with existing := cluster.existing ++ [name] }

/-- Remove an index, unless it is one that stays. -/
def remove (cluster : Cluster) (name : String) : Cluster :=
  if name ∈ cluster.sticky then cluster
  else { cluster with existing := cluster.existing.filter (· ≠ name) }

/-- The statistics of one index, as the service reports them. An index whose statistics are null is
left out, like one that has none. -/
def report (cluster : Cluster) (name : String) : Value :=
  .single "indices" (match cluster.stats.lookup name with
    | none | some .null => .object []
    | some entry => .single name entry)

end Cluster

/-- A computation on a cluster. -/
abbrev Admin := Action AdminCall Cluster

namespace Admin

/-- Make one call: a fault ends the computation, otherwise the cluster answers and changes. -/
def call {α : Type} (call : AdminCall) (answer : Cluster → α) (change : Cluster → Cluster) :
    Admin α := fun cluster =>
  match cluster.fault? call with
  | some fault => ⟨.error (.fault fault), [call], cluster⟩
  | none => ⟨.ok (answer cluster), [call], change cluster⟩

def exists? (name : String) : Admin Bool :=
  call (.exists name) (fun cluster => decide (name ∈ cluster.existing)) id

def stats (name : String) : Admin Value := call (.stats name) (·.report name) id

def create (name : String) (properties : List (String × Mapping)) : Admin Unit :=
  call (.create name properties) (fun _ => ()) (·.add name)

def delete (name : String) : Admin Unit := call (.delete name) (fun _ => ()) (·.remove name)

end Admin
end DocSearch
