import DocSearch.Connection.Client
import DocSearch.Value.Display

/-!
# Settings

The connection settings come from environment variables, unless they are given outright; a setting
that is given outright is not looked up and may be any value. Only a time-out that is looked up can
be malformed.
-/

namespace DocSearch

/-- Variables by name. -/
abbrev Environment := List (String × String)

structure Settings where
  url : Value
  username : Value
  password : Value
  verifyCerts : Value
  timeout : Value
  deriving Repr

/-- Settings that are given outright. -/
structure SettingOverrides where
  url : Option Value := none
  username : Option Value := none
  password : Option Value := none
  verifyCerts : Option Value := none
  timeout : Option Value := none

/-- The names under which settings are given outright. -/
def SettingOverrides.names : List String :=
  ["es_url", "es_username", "es_password", "verify_certs", "request_timeout_s"]

/-- The settings among named values. A name that belongs to no setting is refused. -/
def SettingOverrides.ofMembers (given : Members) : Except ConnectionError SettingOverrides :=
  match given.find? fun e => !names.contains e.1 with
  | some (name, _) => .error (.unknownSetting name)
  | none => .ok {
      url := given.lookup "es_url"
      username := given.lookup "es_username"
      password := given.lookup "es_password"
      verifyCerts := given.lookup "verify_certs"
      timeout := given.lookup "request_timeout_s" }

/-- A time-out in seconds. -/
def readTimeout (text : String) : Except ConnectionError Int :=
  match Text.wholeNumber text.toList with
  | .ok n => .ok n
  | .error .malformed => .error (.timeout text)
  | .error (.tooManyDigits count) => .error (.tooManyDigits count)

/-- The text of a variable, or null where it is not set. -/
def Environment.get (environment : Environment) (name : String) : Value :=
  match environment.lookup name with
  | some text => .text text
  | none => .null

namespace Settings

/-- Certificates are verified if the text is "true" in any case. -/
def verifies (text : String) : Bool := text.toList.map Char.toLower == "true".toList

def ofEnvironment (environment : Environment) (given : SettingOverrides) :
    Except ConnectionError Settings := do
  let timeout ← match given.timeout with
    | some v => pure v
    | none => do
      pure (.int (← readTimeout ((environment.lookup "ES_REQUEST_TIMEOUT_S").getD "30")))
  return {
    url := given.url.getD (.text ((environment.lookup "ES_URL").getD ""))
    username := given.username.getD (environment.get "ES_USERNAME")
    password := given.password.getD (environment.get "ES_PASSWORD")
    verifyCerts :=
      given.verifyCerts.getD
        (.bool (verifies ((environment.lookup "ES_VERIFY_CERTS").getD "true")))
    timeout }

/-- The client that the settings describe. A setting that counts as false counts as absent, and user
and password are only sent if both are there. -/
def client (settings : Settings) : Except ConnectionError ClientConfig :=
  if settings.url.truthy then
    .ok {
      host := settings.url
      basicAuth :=
        if settings.username.truthy && settings.password.truthy then
          some (settings.username, settings.password)
        else none
      verifyCerts := some settings.verifyCerts
      timeout := some settings.timeout }
  else .error .noUrl

end Settings
end DocSearch
