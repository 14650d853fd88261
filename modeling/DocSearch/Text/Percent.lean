import DocSearch.Text.CharClass
import DocSearch.Text.Utf8

/-!
# Percent-encoding

A percent sign followed by two hexadecimal digits stands for an octet; octets are read as UTF-8
together with the ASCII characters around them. Everything else stands for itself, also a percent
sign that no two digits follow.
-/

namespace DocSearch.Percent

/-- A character as it counts for decoding. -/
def item (c : Char) : Utf8.Item := if c.toNat < 0x80 then .octet c.toNat else .char c

def items : List Char → List Utf8.Item
  | '%' :: a :: b :: rest =>
    match Text.hexValue? a, Text.hexValue? b with
    | some high, some low => .octet (high * 16 + low) :: items rest
    | _, _ => item '%' :: items (a :: b :: rest)
  | c :: rest => item c :: items rest
  | [] => []

def decode (text : List Char) : List Char := Utf8.decode (items text)

end DocSearch.Percent
