import DocSearch.Value

/-!
# Rounding

Quotients rounded to the nearest whole number, a tie going to the even neighbour, and numbers
rounded to 53 significant binary digits. All arithmetic is exact.
-/

namespace DocSearch.Rounding

/-- `num / den` rounded to the nearest whole number, a tie to the even one. -/
def divEven (num den : Nat) : Nat :=
  let q := num / den
  let r := num % den
  if 2 * r < den then q
  else if den < 2 * r then q + 1
  else if q % 2 = 0 then q else q + 1

/-- A whole number rounded to 53 binary digits. Below 2 ^ 53 nothing is lost. -/
def wholeToBinary (n : Nat) : Nat :=
  let spare := n.log2 + 1 - 53
  divEven n (Nat.pow 2 spare) * Nat.pow 2 spare

/-- A fraction, kept as numerator and denominator. -/
structure Fraction where
  num : Nat
  den : Nat
  deriving DecidableEq, Repr

/-- `num / den` rounded to 53 binary digits, of which none stands behind the 1074th place. -/
def fractionToBinary (num den : Nat) : Fraction :=
  if num = 0 then ⟨0, 1⟩
  else
    let up := min 1074 (den.log2 + 54 - num.log2)
    let down := num.log2 - (den.log2 + 54)
    let scaledNum := num * Nat.pow 2 up
    let scaledDen := den * Nat.pow 2 down
    let spare := (scaledNum / scaledDen).log2 + 1 - 53
    ⟨divEven scaledNum (scaledDen * Nat.pow 2 spare) * Nat.pow 2 spare * Nat.pow 2 down,
      Nat.pow 2 up⟩

end DocSearch.Rounding
