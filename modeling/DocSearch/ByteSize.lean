import DocSearch.Rounding
import DocSearch.Text.DecimalNumber
import DocSearch.Value.Display

/-!
# Sizes and counts for people

Sizes are shown in the largest unit that leaves a quantity of at least one, up to terabytes, with
one decimal of the exact value; a tie goes to the even digit. Counts have their digits in groups of
three.
-/

namespace DocSearch.ByteSize

def smallUnits : List String := ["B", "KB", "MB", "GB"]

/-- One decimal of a fraction. -/
def oneDecimal (f : Rounding.Fraction) : String :=
  let tenths := Rounding.divEven (f.num * 10) f.den
  s!"{tenths / 10}.{tenths % 10}"

/-- Move up the units until the quantity is below 1024. -/
def inUnits (f : Rounding.Fraction) : List String → String
  | [] => oneDecimal f ++ " TB"
  | unit :: larger =>
    if f.num < 1024 * f.den then oneDecimal f ++ " " ++ unit
    else inUnits ⟨f.num, f.den * 1024⟩ larger

/-- The magnitude of a number in 53 binary digits, if it is below 2 ^ 1024. -/
def magnitude? : Number → Option Rounding.Fraction
  | .integer n =>
    let m := Rounding.wholeToBinary n.natAbs
    if m < Nat.pow 2 1024 then some ⟨m, 1⟩ else none
  | .decimal d => some (Rounding.fractionToBinary d.digits (Nat.pow 10 d.places))

def isNegative : Number → Bool
  | .integer n => n < 0
  | .decimal d => d.negative

/-- A negative size stays in bytes. -/
def quantity (negative : Bool) (f : Rounding.Fraction) : String :=
  if negative then "-" ++ oneDecimal f ++ " B" else inUnits f smallUnits

/-- A size in bytes. A whole number too large for the arithmetic has no text. -/
def format? (size : Number) : Option String := (magnitude? size).map (quantity (isNegative size))

/-- The value of a magnitude that was read: none where it is not finite or too large. -/
def value? : Text.Magnitude → Option Rounding.Fraction
  | .finite digits exponent =>
    let top := (toString digits).length + exponent
    if digits = 0 ∨ top < -400 then some ⟨0, 1⟩
    else if 400 < top then none
    else
      let f := Rounding.fractionToBinary (digits * Nat.pow 10 exponent.toNat)
        (Nat.pow 10 (-exponent).toNat)
      if f.num < Nat.pow 2 1024 * f.den then some f else none
  | .infinite => none
  | .undefined => none

/-- The size that a text states, if it states one. What is too large counts as infinite; infinity
and no number are shown in the last unit that was tried. -/
def ofText? (text : List Char) : Option String :=
  (Text.decimalNumber? text).map fun (negative, m) =>
    match value? m with
    | some f => quantity negative f
    | none =>
      if m = .undefined then "nan TB" else if negative then "-inf B" else "inf TB"

/-- Digits in groups of three, counted from the end. -/
def grouped : List Char → List Char
  | [] => []
  | c :: rest =>
    if rest.length % 3 = 0 ∧ rest ≠ [] then c :: ',' :: grouped rest else c :: grouped rest

/-- A whole number with its digits in groups, where it can be written. -/
def groupedInt? (n : Int) : Option String :=
  (Number.integer n.natAbs).display?.map fun digits =>
    (if n < 0 then "-" else "") ++ String.ofList (grouped digits.toList)

end DocSearch.ByteSize
