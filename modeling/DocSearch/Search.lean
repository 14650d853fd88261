import DocSearch.Query.Compile
import DocSearch.Search.Result

/-!
# Searches

A search names an index, filters that all have to hold, sort keys in order of priority, a limit and
an offset; zero stands for "no limit given" and "from the start". A search for a single identifier
is sent as a direct look-up, which finds nothing where the look-up is turned down as not found.

What is sent is written out for the log before it is sent, the identifier of a look-up and the whole
body of any other search. If it cannot be written, nothing is sent.
-/

namespace DocSearch

structure Search where
  index : Index
  filters : List Condition
  sorts : List (String × String)
  limit : Nat
  offset : Nat

namespace Search

/-- A search is refused for a negative limit first and for a negative offset next. A sort key that
is given twice keeps its place and takes the later direction. -/
def ofParts (index : Index) (filters : List Condition) (sorts : List (String × String))
    (limit offset : Int) : Except Error Search :=
  if limit < 0 then .error (.negativeLimit limit)
  else if offset < 0 then .error (.negativeOffset offset)
  else .ok ⟨index, filters, Keyed.ofList sorts, limit.toNat, offset.toNat⟩

/-- Without a constraint everything is asked for, so the query is never empty. -/
def body (search : Search) : Except Error SearchBody := do
  let query ← compile search.index search.filters .every
  return {
    query := if query.isEmpty then .matchAll else query
    sort := search.sorts
    offset := if search.offset = 0 then none else some search.offset
    size := if search.limit = 0 then none else some search.limit }

/-- The condition of a search that is sent as a direct look-up. -/
def lookup? (search : Search) : Option Condition :=
  match search.filters with
  | [c] =>
    if search.offset = 0 ∧ search.limit = 1 ∧ c.isOf .identifier then some c else none
  | _ => none

/-- Hits are read before the total. -/
def readHits (search : Search) (names : PointNames) (answer : Value) :
    Except Error SearchResult := do
  let hits ← (← answer.member "hits").member "hits"
  let total ← (← (← answer.member "hits").member "total").member "value"
  return ⟨search.index.schema, names, hits, total⟩

/-- The direct look-up of one identifier. -/
def lookupRequest (search : Search) (names : PointNames) (id : Value) : Request SearchResult where
  call := .get search.index.name id
  read
    | .ok answer => .ok ⟨search.index.schema, names, .list [answer], .int 1⟩
    | .error fault =>
      if fault.kind = .notFound then .ok (.empty search.index.schema names)
      else .error (.fault fault)

/-- The search as the service's own search. -/
def generalRequest (search : Search) (names : PointNames) :
    Except Error (Request SearchResult) := do
  let body ← search.body
  let _ ← body.toValue.plainText
  return {
    call := .search search.index.name body
    read := fun reply => do search.readHits names (← reply.answer) }

def request (search : Search) (names : PointNames) : Except Error (Request SearchResult) :=
  match search.lookup? with
  | some c =>
    match c.identifier? with
    | some id => do
      let _ ← id.plainText
      return search.lookupRequest names id
    | none => .error .missingPart
  | none => search.generalRequest names

end Search
end DocSearch
