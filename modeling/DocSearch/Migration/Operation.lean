import DocSearch.Migration.Migrator

/-!
# Sequences of migrations

The operations of a migrator as data, so that sequences of them can be run and spoken about. A
failed operation does not end a sequence: the next one finds the cluster as the failed one left it.
-/

namespace DocSearch.Migrator

inductive Operation where
  | info (name : String)
  | status
  | create (key : String) (skipExisting : Bool)
  | drop (key : String)
  | createAll (skipExisting : Bool)
  | dropAll
  | recreateAll
  deriving DecidableEq, Repr

inductive Answer where
  | info (info : IndexInfo)
  | status (infos : List (String × IndexInfo))
  | done (result : Bool)
  | results (results : List (String × Bool))
  deriving Repr

def perform (migrator : Migrator) : Operation → Admin Answer
  | .info name => do return .info (← info name)
  | .status => do return .status (← migrator.status)
  | .create key skipExisting => do return .done (← migrator.create key skipExisting)
  | .drop key => do return .done (← migrator.drop key)
  | .createAll skipExisting => do return .results (← migrator.createAll skipExisting)
  | .dropAll => do return .results (← migrator.dropAll)
  | .recreateAll => do return .results (← migrator.recreateAll)

/-- The outcomes of operations that are carried out in order. -/
def run (migrator : Migrator) (cluster : Cluster) :
    List Operation → List (Outcome AdminCall Cluster Answer)
  | [] => []
  | operation :: rest =>
    let outcome := migrator.perform operation cluster
    outcome :: migrator.run outcome.state rest

end DocSearch.Migrator
