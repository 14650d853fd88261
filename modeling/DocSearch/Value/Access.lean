import DocSearch.Error
import DocSearch.Text.Split

/-!
# Reading inside a value

How a value answers when it is asked for a member, for its items or for its entries, and what
happens when it has the wrong shape for the question.
-/

namespace DocSearch.Value

/-- The member under a key that has to be there. -/
def member (key : String) : Value → Except Error Value
  | .object members =>
    match members.lookup key with
    | some v => .ok v
    | none => .error (.missingKey key)
  | _ => .error .wrongShape

/-- The member under a key that may be absent. A list holds the key if it is one of its items and a
text if it occurs in it; neither can then be asked for the member. -/
def member? (key : String) : Value → Except Error (Option Value)
  | .object members => .ok (members.lookup key)
  | .list items =>
    if items.any fun | .text s => s == key | _ => false then .error .wrongShape else .ok none
  | .text s =>
    if Text.occursIn key.toList s.toList then .error .wrongShape else .ok none
  | _ => .error .wrongShape

/-- The member of an object under a key, or a default where it is absent. -/
def memberD (value : Value) (key : String) (whenAbsent : Value) : Except Error Value :=
  match value with
  | .object members => .ok ((members.lookup key).getD whenAbsent)
  | _ => .error .notAnObject

/-- What a value yields when it is gone through: the items of a list, the characters of a text, the
keys of an object. -/
def items : Value → Except Error (List Value)
  | .list items => .ok items
  | .text s => .ok (s.toList.map fun c => .text (String.singleton c))
  | .object members => .ok (members.map fun e => .text e.1)
  | _ => .error .wrongShape

/-- Keys with values, which only an object has. -/
def entries : Value → Except Error Members
  | .object members => .ok members
  | _ => .error .notAnObject

end DocSearch.Value
