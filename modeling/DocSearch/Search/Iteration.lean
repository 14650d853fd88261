import DocSearch.Search.Result

/-!
# Iterations over a result

A result can be gone through one document at a time, by any number of iterations side by side. An
iteration looks at the result when it is asked for its first document, converts one hit each time it
is asked, and is over when there are no hits left or one of them has failed.
-/

namespace DocSearch

/-- How far an iteration has come. -/
inductive Iteration where
  | fresh
  /-- The hits that have not been reached. -/
  | before (hits : List Value)
  | over

/-- What an iteration does when it is asked for a document: it gives one or fails, or gives nothing
because it is over. -/
structure Pull where
  given : Option (Except Error Value)
  conversions : Nat
  next : Iteration

/-- What happens to the iterations over one result, which go by numbers. -/
inductive Turn where
  | start (iteration : Nat)
  | ask (iteration : Nat)
  deriving DecidableEq

namespace SearchResult

/-- Convert the first of the hits that have not been reached. -/
def reach (result : SearchResult) : List Value → Pull
  | [] => ⟨none, 0, .over⟩
  | hit :: rest =>
    match hit.member "_source" with
    | .error e => ⟨some (.error e), 0, .over⟩
    | .ok source =>
      match result.schema.ofWire result.names source with
      | .error e => ⟨some (.error e), 1, .over⟩
      | .ok document => ⟨some (.ok (.object document)), 1, .before rest⟩

/-- Ask an iteration for a document. -/
def pull (result : SearchResult) : Iteration → Pull
  | .fresh =>
    match result.hits.items with
    | .error e => ⟨some (.error e), 0, .over⟩
    | .ok hits => result.reach hits
  | .before hits => result.reach hits
  | .over => ⟨none, 0, .over⟩

/-- Ask an iteration for a number of documents, one after the other. -/
def pulls (result : SearchResult) : Nat → Iteration → List Pull
  | 0, _ => []
  | n + 1, iteration => result.pull iteration :: result.pulls n (result.pull iteration).next

/-- Take turns between iterations. Every pull comes with the number of its iteration. -/
def takeTurns (result : SearchResult) (iterations : Nat → Iteration) :
    List Turn → List (Nat × Pull)
  | [] => []
  | .start i :: turns =>
    result.takeTurns (fun j => if j = i then .fresh else iterations j) turns
  | .ask i :: turns =>
    let pull := result.pull (iterations i)
    (i, pull) :: result.takeTurns (fun j => if j = i then pull.next else iterations j) turns

end SearchResult

/-- What pulls of one iteration come to. -/
def Pass.ofPulls (pulls : List Pull) : Pass where
  documents := pulls.filterMap fun pull => pull.given.bind Except.toOption
  failure := pulls.findSome? fun
    | ⟨some (.error e), _, _⟩ => some e
    | _ => none
  conversions := pulls.foldr (fun pull total => pull.conversions + total) 0

end DocSearch
