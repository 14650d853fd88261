import DocSearch.Query

/-!
# The body of a search

What is sent along with the name of an index. Offset and size are only written when they are not
zero, since the search service has defaults of its own.
-/

namespace DocSearch

structure SearchBody where
  query : Query
  sort : List (String × String)
  offset : Option Nat
  size : Option Nat
  deriving Repr

def SearchBody.arguments (body : SearchBody) : Members :=
  [("query", body.query.toValue),
    ("sort", .list (body.sort.map fun e => .single e.1 (.text e.2)))] ++
  (match body.offset with
    | some n => [("from_", .int n)]
    | none => []) ++
  (match body.size with
    | some n => [("size", .int n)]
    | none => [])

/-- The body as one value. -/
def SearchBody.toValue (body : SearchBody) : Value := .object body.arguments

end DocSearch
