import DocSearch.Text.Quoted
import DocSearch.Text.WholeNumber
import DocSearch.Value

/-!
# Values as plain text

How a value reads when it is used as an identifier or shown to a person: text stands for itself,
whole numbers are decimal, other numbers take their shortest form, and nested text is quoted. A
whole number with more digits than may be written has no text, and neither has anything that holds
one.
-/

namespace DocSearch

namespace Decimal

/-- Drop zeros at the end of the digits behind the point. -/
def strip (digits : Nat) : (places : Nat) → Nat × Nat
  | 0 => (digits, 0)
  | places + 1 => if digits % 10 = 0 then strip (digits / 10) places else (digits, places + 1)

/-- The digits without the zeros at their end. -/
def dropZeros (digits : List Char) : List Char := (digits.reverse.dropWhile (· = '0')).reverse

/-- Positional from 0.0001 up to sixteen digits before the point, otherwise with an exponent of at
least two digits. -/
def magnitude (digits places : Nat) : List Char :=
  let (digits, places) := strip digits places
  let ds := (toString digits).toList
  let exponent : Int := (ds.length : Int) - places - 1
  if digits = 0 then ['0', '.', '0']
  else if -4 ≤ exponent ∧ exponent < 16 then
    let padded := List.replicate (places + 1 - ds.length) '0' ++ ds
    let whole := padded.take (padded.length - places)
    if places = 0 then whole ++ ['.', '0'] else whole ++ '.' :: padded.drop (padded.length - places)
  else
    let mantissa := match dropZeros ds with
      | [] => []
      | [d] => [d]
      | d :: rest => d :: '.' :: rest
    let e := (toString exponent.natAbs).toList
    mantissa ++ ['e', if exponent < 0 then '-' else '+'] ++
      List.replicate (2 - e.length) '0' ++ e

def display (d : Decimal) : String :=
  String.ofList ((if d.negative then ['-'] else []) ++ magnitude d.digits d.places)

end Decimal

def Number.display? : Number → Option String
  | .integer n =>
    if Text.digitLimit < (Nat.toDigits 10 n.natAbs).length then none else some (toString n)
  | .decimal d => some d.display

namespace Value

mutual

/-- A value inside another one, where text is quoted. -/
def displayNested? : Value → Option String
  | .null => some "None"
  | .bool b => some (if b then "True" else "False")
  | .number n => n.display?
  | .text s => some (String.ofList (Text.quoted s.toList))
  | .list items => do return "[" ++ ", ".intercalate (← displayItems? items) ++ "]"
  | .object members => do
    return "\x7b" ++ ", ".intercalate (← displayMembers? members) ++ "\x7d"

def displayItems? : List Value → Option (List String)
  | [] => some []
  | v :: rest => do return (← v.displayNested?) :: (← displayItems? rest)

def displayMembers? : Members → Option (List String)
  | [] => some []
  | (key, v) :: rest => do
    let text ← v.displayNested?
    let others ← displayMembers? rest
    return (String.ofList (Text.quoted key.toList) ++ ": " ++ text) :: others

end

/-- The plain text of a value. -/
def display? : Value → Option String
  | .text s => some s
  | v => v.displayNested?

end Value
end DocSearch
