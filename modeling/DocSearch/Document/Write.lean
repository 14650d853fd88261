import DocSearch.Document.Wire
import DocSearch.Schema.Index
import DocSearch.Service.Request
import DocSearch.Value.Display

/-!
# Saving and deleting one document

The identifier of a saved document is the plain text of what it holds under the name of the
identifier field; without one the service assigns an identifier. A write that is to be confirmed
waits until the change can be searched and yields a task.
-/

namespace DocSearch

/-- Options of a write. Only `confirm` is looked at; null stands for no options. -/
abbrev WriteOptions := Value

/-- Whether a write is to be confirmed. Options that count as false ask for nothing, all others have
to be an object. -/
def WriteOptions.confirms (options : WriteOptions) : Except Error Bool :=
  if options.truthy then do return (← options.memberD "confirm" (.bool false)).truthy
  else .ok false

/-- A confirmed write with its result. -/
structure Task where
  result : Value
  deriving Repr

/-- The identifier that a set of members carries under a name, as plain text. Null counts as
none. -/
def identifierText (name : String) (members : Members) : Except Error (Option String) :=
  match members.lookup name with
  | none | some .null => .ok none
  | some v => v.plainText.map some

namespace Index

/-- Save a document. Its identifier is written out before it is converted. A confirmed save yields
the document with the identifier that was given or assigned. -/
def save (index : Index) (names : PointNames) (document : Value) (options : WriteOptions) :
    Except Error (Request (Option Task)) := do
  let waits ← options.confirms
  let members ← document.entries
  let id ← identifierText index.identifier.name members
  let wire ← index.schema.toWire names document
  return {
    call := .save index.name id (.object wire) waits
    read := fun reply => do
      let answer ← reply.answer
      if waits then
        let id ← answer.member "_id"
        return some ⟨.object (Keyed.put index.identifier.name id members)⟩
      else return none }

/-- That a deletion has come to something else, which is written out together with the
identifier. -/
def refuseDeletion {α : Type} (index : Index) (id result : Value) : Except Error α := do
  let _ ← result.plainText
  let _ ← id.plainText
  throw (.notDeleted id index.name result)

/-- What an answer says about a deletion. -/
def readDeleted (index : Index) (id : Value) (answer : Value) : Except Error Unit := do
  match ← answer.member "result" with
  | .text "deleted" => return ()
  | other => index.refuseDeletion id other

/-- Delete a document. Anything but a deletion is an error, also that there was nothing to
delete. -/
def delete (index : Index) (id : Value) (options : WriteOptions) :
    Except Error (Request (Option Task)) := do
  let waits ← options.confirms
  return {
    call := .delete index.name id waits
    read := fun
      | .ok answer => do
        index.readDeleted id answer
        return if waits then some ⟨.null⟩ else none
      | .error fault =>
        if fault.kind = .notFound then index.refuseDeletion id (.text "not_found")
        else .error (.fault fault) }

end Index
end DocSearch
