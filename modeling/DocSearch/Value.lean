/-!
# Document values

The JSON values that documents, conditions, options and answers are made of. Integers have any
size, decimals keep the digits they were written with, and the members of an object keep their
order.
-/

namespace DocSearch

/-- A decimal as written: sign, all its digits, and how many of them follow the point. -/
structure Decimal where
  negative : Bool
  digits : Nat
  places : Nat
  deriving DecidableEq, Repr

inductive Number where
  | integer (n : Int)
  | decimal (d : Decimal)
  deriving DecidableEq, Repr

inductive Value where
  | null
  | bool (b : Bool)
  | number (n : Number)
  | text (s : String)
  | list (items : List Value)
  | object (members : List (String × Value))
  deriving Repr

instance : Inhabited Value := ⟨.null⟩

/-- The members of an object, in order. -/
abbrev Members := List (String × Value)

def Number.isZero : Number → Bool
  | .integer n => n == 0
  | .decimal d => d.digits == 0

namespace Value

abbrev int (n : Int) : Value := .number (.integer n)

/-- An object with one member. -/
def single (key : String) (value : Value) : Value := .object [(key, value)]

/-- Null, false, zero and everything empty count as false; all else counts as true. -/
def truthy : Value → Bool
  | .null => false
  | .bool b => b
  | .number n => !n.isZero
  | .text s => !s.isEmpty
  | .list items => !items.isEmpty
  | .object members => !members.isEmpty

end Value

end DocSearch
