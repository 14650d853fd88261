import DocSearch.Connection.Address
import DocSearch.Connection.Error
import DocSearch.Text.Lowercase

/-!
# URLs

A URL is taken apart into its scheme and its authority, and the authority into user information,
host and port. Paths, queries and fragments are not looked at. Faults in the brackets of an address
are found first, look-alike characters next, and a bad port only when the port is asked for.
-/

namespace DocSearch

open Text

structure Url where
  scheme : List Char
  authority : List Char
  deriving DecidableEq, Repr

namespace Url

def isSchemeChar (c : Char) : Bool :=
  c.isAlpha || c.isDigit || c = '+' || c = '-' || c = '.'

/-- Control characters and blanks in front are dropped, tabs and line ends everywhere. -/
def clean (text : List Char) : List Char :=
  (text.dropWhile fun c => c.toNat ≤ 0x20).filter fun c => c ≠ '\t' && c ≠ '\n' && c ≠ '\r'

/-- A scheme begins with a letter; without one everything belongs to the rest. -/
def splitScheme (text : List Char) : List Char × List Char :=
  match cut ':' text with
  | (before, some rest) =>
    if (before.head?.map Char.isAlpha).getD false && before.all isSchemeChar then
      (before.map Char.toLower, rest)
    else ([], text)
  | (_, none) => ([], text)

def authorityOf : List Char → List Char
  | '/' :: '/' :: rest => rest.takeWhile fun c => c ≠ '/' && c ≠ '?' && c ≠ '#'
  | _ => []

/-- The part of an authority behind the user information. -/
def hostInfo (authority : List Char) : List Char := (cutLast '@' authority).2

/-- The text in brackets, if there are any, and what stands before and behind them. -/
structure Bracketed where
  before : List Char
  inside : List Char
  behind : List Char

def bracketed? (info : List Char) : Option Bracketed :=
  match cut '[' info with
  | (before, some rest) =>
    let (inside, behind) := cut ']' rest
    some ⟨before, inside, behind.getD []⟩
  | (_, none) => none

/-- Whether a text may stand in brackets as an address. -/
def checkAddress (address : List Char) : Except ConnectionError Unit :=
  if address.head? = some 'v' then
    if Address.isFuture address then .ok () else .error .futureAddress
  else if Address.isIpv6 address then .ok ()
  else if Address.isIpv4 address then .error .bracketedIpv4
  else .error (.address (String.ofList address))

/-- Brackets come in pairs and hold an address, with nothing but a port around them. -/
def checkBrackets (authority : List Char) : Except ConnectionError Unit :=
  let opens := authority.contains '['
  let closes := authority.contains ']'
  if opens != closes then .error .brackets
  else if !opens then .ok ()
  else
    let info := hostInfo authority
    match bracketed? info with
    | some b =>
      if b.before ≠ [] ∨ (b.behind ≠ [] ∧ b.behind.head? ≠ some ':') then .error .brackets
      else checkAddress b.inside
    | none => checkAddress (cut ':' info).1

/-- Characters whose compatibility form holds a delimiter of URLs. -/
def lookalikes : List Nat :=
  [0x2047, 0x2048, 0x2049, 0x2100, 0x2101, 0x2105, 0x2106, 0x2A74, 0xFE13, 0xFE16, 0xFE55, 0xFE56,
   0xFE5F, 0xFE6B, 0xFF03, 0xFF0F, 0xFF1A, 0xFF1F, 0xFF20]

def checkLookalikes (authority : List Char) : Except ConnectionError Unit :=
  if authority.any fun c => lookalikes.contains c.toNat then
    .error (.lookalike (String.ofList authority))
  else .ok ()

def parse (text : List Char) : Except ConnectionError Url := do
  let (scheme, rest) := splitScheme (clean text)
  let authority := authorityOf rest
  checkBrackets authority
  checkLookalikes authority
  return ⟨scheme, authority⟩

/-- Host and port as written. -/
def hostAndPort (url : Url) : List Char × List Char :=
  let info := hostInfo url.authority
  match bracketed? info with
  | some b => (b.inside, ((cut ':' b.behind).2).getD [])
  | none => ((cut ':' info).1, ((cut ':' info).2).getD [])

/-- The host in lower case; the zone of an address stays as it is. -/
def host (url : Url) : List Char :=
  match cut '%' url.hostAndPort.1 with
  | (name, some zone) => lower name ++ '%' :: zone
  | (name, none) => lower name

/-- The port, if one is written. -/
def port? (url : Url) : Except ConnectionError (Option Nat) :=
  let text := url.hostAndPort.2
  if text = [] then .ok none
  else if text.all Char.isDigit then
    if digitLimit < text.length then .error (.tooManyDigits text.length)
    else
      let n := ofDigits (text.map fun c => c.toNat - '0'.toNat)
      if n ≤ 65535 then .ok (some n) else .error .portRange
  else .error (.port (String.ofList text))

/-- User name and password as written. -/
def userInfo (url : Url) : Option (List Char) × Option (List Char) :=
  match (cutLast '@' url.authority).1 with
  | some info => (some (cut ':' info).1, (cut ':' info).2)
  | none => (none, none)

end Url
end DocSearch
