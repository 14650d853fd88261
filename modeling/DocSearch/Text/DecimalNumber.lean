import DocSearch.Text.Split
import DocSearch.Text.WholeNumber

/-!
# Reading decimal numbers

Digits with an optional point among or around them and an optional power of ten, or a word that
stands for infinity or for no number at all. Signs, blanks and underscores are read as in whole
numbers.
-/

namespace DocSearch.Text

inductive Magnitude where
  /-- The digits times a power of ten. -/
  | finite (digits : Nat) (exponent : Int)
  | infinite
  | undefined
  deriving DecidableEq, Repr

/-- A run of digits that may be left out. -/
def digitsOrNone (text : List Char) : Option (List Nat) :=
  if text = [] then some [] else digitsFrom false text

def exponent? : Option (List Char) → Option Int
  | none => some 0
  | some text => do
    let digits ← digitsFrom false (signed text).2
    let n : Int := ofDigits digits
    return if (signed text).1 then -n else n

/-- The magnitude of a number in lower case. Digits have to stand on one side of the point. -/
def magnitude? (text : List Char) : Option Magnitude :=
  if text = "inf".toList ∨ text = "infinity".toList then some .infinite
  else if text = "nan".toList then some .undefined
  else do
    let (mantissa, power) := cut 'e' text
    let (whole, fraction) := cut '.' mantissa
    let before ← digitsOrNone whole
    let behind ← digitsOrNone (fraction.getD [])
    if before = [] ∧ behind = [] then none
    else return .finite (ofDigits (before ++ behind)) ((← exponent? power) - behind.length)

/-- Sign and magnitude of a decimal number. -/
def decimalNumber? (text : List Char) : Option (Bool × Magnitude) :=
  let (negative, rest) := signed (trimBlanks text)
  (magnitude? (rest.map Char.toLower)).map fun m => (negative, m)

end DocSearch.Text
