import DocSearch.Text.CharClass

/-!
# Reading whole numbers

Decimal text with blanks around it, an optional sign and single underscores between digits. Digits
of every script count.
-/

namespace DocSearch.Text

/-- The digits of a number; `after` says whether a digit stands directly before. -/
def digitsFrom (after : Bool) : List Char → Option (List Nat)
  | [] => if after then some [] else none
  | '_' :: rest => if after then digitsFrom false rest else none
  | c :: rest => do
    let d ← digitValue? c
    let ds ← digitsFrom true rest
    return d :: ds

def ofDigits (digits : List Nat) : Nat := digits.foldl (fun n d => n * 10 + d) 0

def trimBlanks (text : List Char) : List Char :=
  ((text.dropWhile isBlank).reverse.dropWhile isBlank).reverse

/-- Whether there is a minus sign in front, and the text without its sign. -/
def signed : List Char → Bool × List Char
  | '-' :: rest => (true, rest)
  | '+' :: rest => (false, rest)
  | rest => (false, rest)

/-- The most digits that a number may be read from or written with. -/
def digitLimit : Nat := 4300

/-- Why a text cannot be read as a whole number. -/
inductive WholeNumberError where
  | malformed
  | tooManyDigits (count : Nat)
  deriving DecidableEq, Repr

/-- A character that a run of digits may hold. -/
def inDigitRun (c : Char) : Bool := c = '_' || (digitValue? c).isSome

/-- Read a whole number. The length of the first run of digits is judged before what stands behind
it is looked at. -/
def wholeNumber (text : List Char) : Except WholeNumberError Int :=
  let (negative, rest) := signed (text.dropWhile isBlank)
  match digitsFrom false (rest.takeWhile inDigitRun) with
  | none => .error .malformed
  | some digits =>
    let n : Int := ofDigits digits
    if digitLimit < digits.length then .error (.tooManyDigits digits.length)
    else if (rest.dropWhile inDigitRun).all isBlank then .ok (if negative then -n else n)
    else .error .malformed

end DocSearch.Text
