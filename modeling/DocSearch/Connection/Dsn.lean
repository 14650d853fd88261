import DocSearch.Connection.Client
import DocSearch.Connection.Url
import DocSearch.Text.Percent

/-!
# Data source names

A data source name gives host, port, user and password of the search service in one URL. Without a
host it stands for a client that the caller has.
-/

namespace DocSearch

structure Dsn where
  host : String
  port : Option Nat := none
  user : Option String := none
  password : Option String := none
  deriving DecidableEq, Repr

namespace Dsn

def scheme : List Char := "elasticsearch".toList

/-- The port of a host that names none. -/
def defaultPort : Nat := 9200

/-- A part of the user information, decoded; an empty part counts as absent. -/
def credential (part : Option (List Char)) : Option String :=
  match part with
  | none | some [] => none
  | some text => some (String.ofList (Percent.decode text))

def parse (text : String) : Except ConnectionError Dsn := do
  let url ← Url.parse text.toList
  if url.scheme ≠ scheme then throw (.scheme (String.ofList url.scheme))
  let port ← url.port?
  return {
    host := String.ofList url.host
    port
    user := credential url.userInfo.1
    password := credential url.userInfo.2 }

/-- The URL under which a host is reached. -/
def address (dsn : Dsn) : String := s!"http://{dsn.host}:{dsn.port.getD defaultPort}"

/-- User and password are sent if one of them is not empty; the other is then empty text. -/
def basicAuth (dsn : Dsn) : Option (String × String) :=
  let user := dsn.user.getD ""
  let password := dsn.password.getD ""
  if user ≠ "" ∨ password ≠ "" then some (user, password) else none

/-- A new client for the host, or the client at hand where no host is named. -/
def choose (dsn : Dsn) (given : GivenClient) : Except ConnectionError ClientChoice :=
  if dsn.host = "" then
    if given = .client then .ok .given else .error .noClient
  else .ok (.new {
    host := .text dsn.address
    basicAuth := dsn.basicAuth.map fun (user, password) => (.text user, .text password) })

end Dsn
end DocSearch
