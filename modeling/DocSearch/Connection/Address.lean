import DocSearch.Text.CharClass
import DocSearch.Text.Split

/-!
# Internet addresses

Which texts are IPv4 and IPv6 addresses. An IPv6 address has eight groups of hexadecimal digits;
one run of groups may be left out and leaves two colons, the last two groups may be written as an
IPv4 address, and a zone may follow after a percent sign.
-/

namespace DocSearch.Address

open Text

/-- A decimal number up to 255 without leading zeros. -/
def isOctet (part : List Char) : Bool :=
  part ≠ [] && part.all (fun c => c.isDigit) && part.length ≤ 3 &&
    (part == ['0'] || part.head? != some '0') &&
    part.foldl (fun n c => n * 10 + (c.toNat - '0'.toNat)) 0 ≤ 255

def isIpv4 (text : List Char) : Bool :=
  let parts := splitOn '.' text
  parts.length == 4 && parts.all isOctet

/-- One to four hexadecimal digits. -/
def isGroup (part : List Char) : Bool :=
  part ≠ [] && part.length ≤ 4 && part.all fun c => (hexValue? c).isSome

/-- Replace an IPv4 address at the end by the two groups it stands for. -/
def expandTail (parts : List (List Char)) : Option (List (List Char)) :=
  match parts.getLast? with
  | some last =>
    if last.contains '.' then
      if isIpv4 last then some (parts.dropLast ++ [['0'], ['0']]) else none
    else some parts
  | none => none

/-- The groups before and after two neighbouring colons at position `skip` of the parts. An empty
part at either end is only allowed next to the colons. -/
def groupsAround (parts : List (List Char)) (skip : Nat) :
    Option (List (List Char) × List (List Char)) :=
  let before := parts.take skip
  let after := parts.drop (skip + 1)
  let before? := if before.head? = some [] then (if before.length = 1 then some [] else none)
    else some before
  let after? := if after.getLast? = some [] then (if after.length = 1 then some [] else none)
    else some after
  match before?, after? with
  | some before, some after => some (before, after)
  | _, _ => none

/-- Positions of empty parts, the ends left aside. -/
def innerEmpty (parts : List (List Char)) : List Nat :=
  (List.range parts.length).filter fun i =>
    0 < i && i + 1 < parts.length && parts[i]? == some []

def areGroups (parts : List (List Char)) : Bool :=
  match innerEmpty parts with
  | [] => parts.length == 8 && parts.all isGroup
  | [skip] =>
    match groupsAround parts skip with
    | some (before, after) =>
      before.length + after.length < 8 && before.all isGroup && after.all isGroup
    | none => false
  | _ => false

def isIpv6 (text : List Char) : Bool :=
  let (address, zone) := cut '%' text
  let zoneOk := match zone with
    | none => true
    | some z => z ≠ [] && !z.contains '%'
  let parts := splitOn ':' address
  zoneOk && 3 ≤ parts.length &&
    match expandTail parts with
    | some parts => parts.length ≤ 9 && areGroups parts
    | none => false

/-- An address of a later version: `v`, hexadecimal digits, a point and at least one character. -/
def isFuture : List Char → Bool
  | 'v' :: rest =>
    let (version, after) := cut '.' rest
    version ≠ [] && version.all (fun c => (hexValue? c).isSome) &&
      (match after with
        | some chars => chars ≠ [] && !chars.contains '\n'
        | none => false)
  | _ => false

end DocSearch.Address
