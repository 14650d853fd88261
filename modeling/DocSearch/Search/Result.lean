import DocSearch.Document.Wire
import DocSearch.Service.Request

/-!
# Search results

A result keeps the hits as they came and turns a hit into a document when it is reached. Every pass
starts again from the hits, makes no call, and ends early at the first hit that cannot be converted.
-/

namespace DocSearch

structure SearchResult where
  schema : Schema
  names : PointNames
  /-- What holds the hits; nothing is checked before the first document is asked for. -/
  hits : Value
  total : Value

/-- One pass over a result: the documents, what ended it early, and how many conversions were
started. -/
structure Pass where
  documents : List Value
  failure : Option Error
  conversions : Nat

namespace SearchResult

/-- A result without hits. -/
def empty (schema : Schema) (names : PointNames) : SearchResult :=
  ⟨schema, names, .list [], .int 0⟩

/-- Convert hits until one fails. A hit without a source fails before its conversion starts. -/
def convertHits (schema : Schema) (names : PointNames) : List Value → Pass
  | [] => ⟨[], none, 0⟩
  | hit :: rest =>
    match hit.member "_source" with
    | .error e => ⟨[], some e, 0⟩
    | .ok source =>
      match schema.ofWire names source with
      | .error e => ⟨[], some e, 1⟩
      | .ok document =>
        let others := convertHits schema names rest
        ⟨.object document :: others.documents, others.failure, others.conversions + 1⟩

/-- A fresh pass that takes up to `limit` documents, or all of them. Taking none looks at
nothing. -/
def take (result : SearchResult) (limit : Option Nat) : Pass :=
  if limit = some 0 then ⟨[], none, 0⟩
  else
    match result.hits.items with
    | .error e => ⟨[], some e, 0⟩
    | .ok hits =>
      convertHits result.schema result.names (match limit with
        | some n => hits.take n
        | none => hits)

/-- The first document, if there is one. -/
def first? (result : SearchResult) : Except Error (Option Value) :=
  let pass := result.take (some 1)
  match pass.failure with
  | some e => .error e
  | none => .ok pass.documents.head?

end SearchResult
end DocSearch
