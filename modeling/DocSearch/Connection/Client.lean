import DocSearch.Connection.Error
import DocSearch.Value

/-!
# Clients

What a client of the search service is made from. Nothing but the presence of its parts is checked,
so they may be any values.
-/

namespace DocSearch

structure ClientConfig where
  host : Value
  basicAuth : Option (Value × Value) := none
  verifyCerts : Option Value := none
  timeout : Option Value := none
  deriving Repr

def ClientConfig.arguments (config : ClientConfig) : Members :=
  [("hosts", .list [config.host])] ++
  (match config.basicAuth with
    | some (user, password) => [("basic_auth", .list [user, password])]
    | none => []) ++
  (match config.verifyCerts with
    | some v => [("verify_certs", v)]
    | none => []) ++
  (match config.timeout with
    | some v => [("request_timeout", v)]
    | none => [])

/-- The object that a caller hands over in place of a new client. -/
inductive GivenClient where
  | nothing
  | client
  | other
  deriving DecidableEq, Repr

/-- The client that is used in the end. -/
inductive ClientChoice where
  | given
  | new (config : ClientConfig)
  deriving Repr

end DocSearch
