import DocSearch.Text.Printable

/-!
# Quoted text

Text between quotes, as error texts show it. Single quotes stand around it unless it holds a single
quote and no double quote. Backslashes, the quote in use and everything that cannot be printed are
escaped.
-/

namespace DocSearch.Text

def hexDigit (n : Nat) : Char :=
  if n < 10 then Char.ofNat ('0'.toNat + n) else Char.ofNat ('a'.toNat + (n - 10))

/-- The last `width` hexadecimal digits of a number. -/
def hexDigits (n : Nat) : (width : Nat) → List Char
  | 0 => []
  | width + 1 => hexDigits (n / 16) width ++ [hexDigit (n % 16)]

def escapeChar (quote c : Char) : List Char :=
  if c = quote ∨ c = '\\' then ['\\', c]
  else if c = '\n' then ['\\', 'n']
  else if c = '\r' then ['\\', 'r']
  else if c = '\t' then ['\\', 't']
  else if isPrintable c then [c]
  else if c.toNat < 0x100 then '\\' :: 'x' :: hexDigits c.toNat 2
  else if c.toNat < 0x10000 then '\\' :: 'u' :: hexDigits c.toNat 4
  else '\\' :: 'U' :: hexDigits c.toNat 8

def quoteFor (text : List Char) : Char :=
  if text.contains '\'' && !text.contains '"' then '"' else '\''

def quoted (text : List Char) : List Char :=
  let quote := quoteFor text
  quote :: text.flatMap (escapeChar quote) ++ [quote]

end DocSearch.Text
