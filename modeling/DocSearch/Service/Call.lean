import DocSearch.Search.Body

/-!
# Calls to the search service

The five calls that documents need, with their arguments in written form. A write that waits asks
the service to answer only once the change can be searched.
-/

namespace DocSearch

/-- One write inside a bulk call. -/
inductive BulkAction where
  | save (index : String) (id : Option String) (document : Value)
  | delete (index : String) (id : Value)
  deriving Repr

inductive Call where
  | search (index : String) (body : SearchBody)
  | get (index : String) (id : Value)
  | save (index : String) (id : Option String) (document : Value) (waits : Bool)
  | delete (index : String) (id : Value) (waits : Bool)
  | bulk (actions : List BulkAction) (waits : Bool)
  deriving Repr

/-- The written form of an action: one entry, which for a save the document follows. -/
def BulkAction.toValues : BulkAction → List Value
  | .save index none document => [.single "index" (.object [("_index", .text index)]), document]
  | .save index (some id) document =>
    [.single "index" (.object [("_index", .text index), ("_id", .text id)]), document]
  | .delete index id => [.single "delete" (.object [("_index", .text index), ("_id", id)])]

/-- Waiting is asked for by name and declined by `false`. -/
def refresh (waits : Bool) : Value := if waits then .text "wait_for" else .bool false

namespace Call

def method : Call → String
  | .search _ _ => "search"
  | .get _ _ => "get"
  | .save _ _ _ _ => "index"
  | .delete _ _ _ => "delete"
  | .bulk _ _ => "bulk"

def arguments : Call → Members
  | .search index body => ("index", .text index) :: body.arguments
  | .get index id => [("index", .text index), ("id", id)]
  | .save index id document waits =>
    [("index", .text index), ("id", (id.map Value.text).getD .null), ("document", document),
      ("refresh", refresh waits)]
  | .delete index id waits =>
    [("index", .text index), ("id", id), ("refresh", refresh waits)]
  | .bulk actions waits =>
    [("operations", .list (actions.flatMap BulkAction.toValues)), ("refresh", refresh waits)]

end Call
end DocSearch
