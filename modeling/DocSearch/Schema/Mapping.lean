import DocSearch.Schema.Index

/-!
# Mappings

How the search service is told to keep the fields of an index. Text is kept analysed and, beside
that, exact and cut off at a fixed length. A field of the base kind has no mapping; the first such
field in order of declaration decides the error, wherever it stands.
-/

namespace DocSearch

inductive Mapping where
  | keyword | integer | float | boolean | date | geoPoint
  | text
  | object (properties : List (String × Mapping))
  deriving Repr

namespace Mapping

def ofKind? : LeafKind → Option Mapping
  | .base => none
  | .identifier => some .keyword
  | .text => some .text
  | .integer => some .integer
  | .float => some .float
  | .boolean => some .boolean
  | .dateTime => some .date
  | .geoPoint => some .geoPoint

/-- The length up to which the exact value of a text is kept. -/
def exactLength : Int := 256

mutual

def toValue : Mapping → Value
  | .keyword => .object [("type", .text "keyword")]
  | .integer => .object [("type", .text "integer")]
  | .float => .object [("type", .text "float")]
  | .boolean => .object [("type", .text "boolean")]
  | .date => .object [("type", .text "date")]
  | .geoPoint => .object [("type", .text "geo_point")]
  | .text => .object [("type", .text "text"), ("fields", .object [("raw",
      .object [("type", .text "keyword"), ("ignore_above", .int exactLength)])])]
  | .object properties =>
    .object [("type", .text "object"), ("properties", .object (toMembers properties))]

def toMembers : List (String × Mapping) → Members
  | [] => []
  | (key, m) :: rest => (key, m.toValue) :: toMembers rest

end

end Mapping

mutual

def Field.mapping : Field → Except Error Mapping
  | .leaf kind a =>
    match Mapping.ofKind? kind with
    | some m => .ok m
    | none => .error (.noMapping (a.className.getD kind.className))
  | .object _ fields => do return .object (← mappings fields)

def mappings : List (String × Field) → Except Error (List (String × Mapping))
  | [] => .ok []
  | (key, f) :: rest => do
    let m ← f.mapping
    let ms ← mappings rest
    return (key, m) :: ms

end

/-- The mappings of the top-level fields. -/
def Index.mappings (index : Index) : Except Error (List (String × Mapping)) :=
  DocSearch.mappings index.fields

/-- The written form of the mappings of an index. -/
def mappingBody (properties : List (String × Mapping)) : Value :=
  .object [("properties", .object (Mapping.toMembers properties))]

end DocSearch
