import DocSearch.Text.Quoted
import DocSearch.Text.WholeNumber

/-!
# Why a connection cannot be described

Causes found in a data source name, in the settings or in what a client is made from. All of them
have a text.
-/

namespace DocSearch

/-- The longest part of a quoted text that an error text shows. -/
def shownLength : Nat := 200

inductive ConnectionError where
  | scheme (scheme : String)
  | brackets
  | futureAddress
  | address (text : String)
  | bracketedIpv4
  /-- A host part with a character that looks like a delimiter once it is normalised. -/
  | lookalike (authority : String)
  | port (text : String)
  | portRange
  | tooManyDigits (count : Nat)
  | noClient
  | timeout (text : String)
  | noUrl
  /-- A value that was given for a setting that there is not. -/
  | unknownSetting (name : String)
  deriving DecidableEq, Repr

def ConnectionError.message : ConnectionError → String
  | .scheme s => s!"Unsupported DSN scheme \"{s}\", expected \"elasticsearch\"."
  | .brackets => "Invalid IPv6 URL"
  | .futureAddress => "IPvFuture address is invalid"
  | .address text =>
    String.ofList (Text.quoted text.toList) ++ " does not appear to be an IPv4 or IPv6 address"
  | .bracketedIpv4 => "An IPv4 address cannot be in brackets"
  | .lookalike authority =>
    "netloc '" ++ authority ++ "' contains invalid characters under NFKC normalization"
  | .port text =>
    "Port could not be cast to integer value as " ++ String.ofList (Text.quoted text.toList)
  | .portRange => "Port out of range 0-65535"
  | .tooManyDigits count =>
    s!"Exceeds the limit ({Text.digitLimit} digits) for integer string conversion: " ++
      s!"value has {count} digits; use sys.set_int_max_str_digits() to increase the limit"
  | .noClient => "Unknown Elasticsearch client."
  | .timeout text => "invalid literal for int() with base 10: " ++
      String.ofList ((Text.quoted text.toList).take shownLength)
  | .noUrl => "ES_URL 환경변수를 설정하세요."
  | .unknownSetting name => s!"There is no setting \"{name}\"."

end DocSearch
