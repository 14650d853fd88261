/-!
# Reading UTF-8

Octets become characters one at a time. Where octets cannot go on to form a character, the longest
part that could have begun one is replaced by a single replacement character. Characters that are
no octets may stand among the octets and pass through.
-/

namespace DocSearch.Utf8

def replacement : Char := Char.ofNat 0xFFFD

/-- What is still expected: nothing, or `left` more octets of which the next lies in a range. -/
inductive State where
  | start
  | pending (code left low high : Nat)
  deriving DecidableEq, Repr

/-- The first octet of a character. -/
def first (b : Nat) : List Char × State :=
  if b < 0x80 then ([Char.ofNat b], .start)
  else if 0xC2 ≤ b ∧ b ≤ 0xDF then ([], .pending (b - 0xC0) 1 0x80 0xBF)
  else if b = 0xE0 then ([], .pending 0 2 0xA0 0xBF)
  else if b = 0xED then ([], .pending (b - 0xE0) 2 0x80 0x9F)
  else if 0xE1 ≤ b ∧ b ≤ 0xEF then ([], .pending (b - 0xE0) 2 0x80 0xBF)
  else if b = 0xF0 then ([], .pending 0 3 0x90 0xBF)
  else if 0xF1 ≤ b ∧ b ≤ 0xF3 then ([], .pending (b - 0xF0) 3 0x80 0xBF)
  else if b = 0xF4 then ([], .pending 4 3 0x80 0x8F)
  else ([replacement], .start)

/-- One octet. -/
def step : State → Nat → List Char × State
  | .start, b => first b
  | .pending code left low high, b =>
    if low ≤ b ∧ b ≤ high then
      let code := code * 64 + (b - 0x80)
      if left ≤ 1 then ([Char.ofNat code], .start) else ([], .pending code (left - 1) 0x80 0xBF)
    else (replacement :: (first b).1, (first b).2)

/-- What an unfinished character leaves. -/
def State.flush : State → List Char
  | .start => []
  | .pending _ _ _ _ => [replacement]

/-- An octet, or a character that stands for itself. -/
inductive Item where
  | octet (b : Nat)
  | char (c : Char)
  deriving DecidableEq, Repr

def decodeFrom : State → List Item → List Char
  | state, [] => state.flush
  | state, .octet b :: rest => (step state b).1 ++ decodeFrom (step state b).2 rest
  | state, .char c :: rest => state.flush ++ c :: decodeFrom .start rest

def decode (items : List Item) : List Char := decodeFrom .start items

end DocSearch.Utf8
