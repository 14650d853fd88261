import DocSearch.Error
import DocSearch.Schema.Field
import DocSearch.Text.Split

/-!
# Indexes

An index is a named schema with exactly one identifier among its top-level fields. A dotted path
leads from key to key through object fields; exact filters on a text field go to its unanalysed
sub-field.
-/

namespace DocSearch

/-- The identifier fields at the top level. -/
def identifiers (fields : List (String × Field)) : List Field :=
  (fields.map Prod.snd).filter Field.isIdentifier

structure Index where
  name : String
  schema : Schema
  oneIdentifier : (identifiers schema.fields).length = 1

namespace Index

/-- An index is refused unless its schema has one identifier field. -/
def ofSchema (name : String) (schema : Schema) : Except Error Index :=
  if h : (identifiers schema.fields).length = 1 then .ok ⟨name, schema, h⟩
  else .error (.identifierCount name (identifiers schema.fields).length)

def fields (index : Index) : List (String × Field) := index.schema.fields

/-- The identifier field. -/
def identifier (index : Index) : Field :=
  (identifiers index.fields).head fun h => by
    have := index.oneIdentifier
    simp only [fields] at h
    simp [h] at this

end Index

/-- Follow keys from field to field; only an object field leads on. -/
def fieldAt? (fields : List (String × Field)) : List String → Option Field
  | [] => none
  | [key] => fields.lookup key
  | key :: rest =>
    match fields.lookup key with
    | some (.object _ inner) => fieldAt? inner rest
    | _ => none

namespace Index

/-- The field at a dotted path. -/
def fieldAt (index : Index) (path : String) : Except Error Field :=
  match fieldAt? index.fields (Text.dotted path) with
  | some f => .ok f
  | none => .error (.fieldNotFound path index.name)

/-- The sub-field of a text field that holds the exact, unanalysed value. -/
def rawSuffix : String := ".raw"

/-- The name under which the search service keeps the exact value of a field. -/
def exactName (index : Index) (path : String) : Except Error String := do
  let f ← index.fieldAt path
  return if f.isText then path ++ rawSuffix else path

end Index
end DocSearch
