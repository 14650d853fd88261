import DocSearch.ByteSize
import DocSearch.Command.Help
import DocSearch.Connection.Settings
import DocSearch.Migration.Catalog
import DocSearch.Migration.Migrator
import DocSearch.Service.Request

/-!
# Running a command

A run loads the schema, reads the settings, makes a client and pings the service before the command
itself starts. What fails up to the client is raised when it concerns schema or settings and
printed when it concerns the connection. Lines printed before something is raised stay printed.
-/

namespace DocSearch

/-- Everything a run depends on. `ping` is the reply to the one ping that is sent. -/
structure Surroundings where
  catalog : Catalog
  environment : Environment
  ping : Reply
  cluster : Cluster

inductive RunError where
  | catalog (error : CatalogError)
  | connection (error : ConnectionError)
  | document (error : Error)

def RunError.message : RunError → Option String
  | .catalog e => e.message
  | .connection e => some e.message
  | .document e => e.message

inductive Ending where
  /-- The exit code of a run that came to its end. -/
  | returned (code : Nat)
  /-- The exit code of a run that the arguments ended. -/
  | exited (code : Nat)
  | raised (error : RunError)

structure Report where
  lines : List String
  ending : Ending
  clients : List ClientConfig := []
  calls : List AdminCall := []
  cluster : Cluster

/-- The printed text. Every line ends with a line feed. -/
def Report.text (report : Report) : String := String.join (report.lines.map (· ++ "\n"))

/-- How a fault reads when it is printed. -/
def Fault.display (fault : Fault) : String :=
  let answered (name : String) (status : Nat) : String :=
    name ++ s!"({fault.status.getD status}, " ++
      String.ofList (Text.quoted fault.message.toList) ++ ")"
  match fault.kind with
  | .connection => "Connection error"
  | .timeout => "Connection timed out"
  | .notFound => answered "NotFoundError" 404
  | .conflict => answered "ConflictError" 409
  | .badRequest => answered "BadRequestError" 400
  | .unauthorized => answered "AuthenticationException" 401

namespace Command

/-- A count of documents. Anything but a number cannot be grouped. -/
def countText : Value → Except Error String
  | .number (.integer n) =>
    match ByteSize.groupedInt? n with
    | some text => .ok text
    | none => .error .tooManyDigits
  | .bool b => .ok (if b then "1" else "0")
  | .number (.decimal d) =>
    let text := d.display.toList
    let sign := text.takeWhile (· = '-')
    let whole := (text.dropWhile (· = '-')).takeWhile Char.isDigit
    let rest := (text.dropWhile (· = '-')).dropWhile Char.isDigit
    .ok (String.ofList (sign ++ ByteSize.grouped whole ++ rest))
  | .text _ => .error .notGroupable
  | _ => .error .wrongShape

def sizeText : Value → Except Error String
  | .number n =>
    match ByteSize.format? n with
    | some text => .ok text
    | none => .error .tooLarge
  | .bool b =>
    match ByteSize.format? (.integer (if b then 1 else 0)) with
    | some text => .ok text
    | none => .error .tooLarge
  | .text s =>
    match ByteSize.ofText? s.toList with
    | some text => .ok text
    | none => .error (.notANumber s)
  | _ => .error .wrongShape

def mark (good : Bool) : String := if good then "✅" else "❌"

/-- The lines for one index, and what went wrong behind them. -/
def infoLines (key : String) (info : IndexInfo) : List String × Option Error :=
  let title := "\n" ++ mark info.present ++ " " ++ key ++ ": " ++ info.name
  if info.present then
    match countText info.documents with
    | .error e => ([title], some e)
    | .ok documents =>
      let second := "   Documents: " ++ documents
      match sizeText info.bytes with
      | .error e => ([title, second], some e)
      | .ok size => ([title, second, "   Size: " ++ size], none)
  else ([title], none)

def statusLines : List (String × IndexInfo) → List String × Option Error
  | [] => ([""], none)
  | (key, info) :: rest =>
    match infoLines key info with
    | (lines, some e) => (lines, some e)
    | (lines, none) =>
      let (others, failure) := statusLines rest
      (lines ++ others, failure)

def resultLines (results : List (String × Bool)) : List String :=
  results.map (fun e => "   " ++ mark e.2 ++ " " ++ e.1) ++ ["\n✨ Done!"]

/-- Put the lines and the end of a command together. `finish` gives the lines that a result adds,
what goes wrong in printing them, and the exit code. -/
def conclude {α : Type} (before : List String) (cluster : Cluster) (action : Admin α)
    (finish : α → (List String × Option Error) × Nat) : Report :=
  let outcome := action cluster
  match outcome.result with
  | .error e =>
    { lines := before, ending := .raised (.document e), calls := outcome.calls,
      cluster := outcome.state }
  | .ok a =>
    let ((lines, failure), code) := finish a
    { lines := before ++ lines
      ending := match failure with
        | some e => .raised (.document e)
        | none => .returned code
      calls := outcome.calls
      cluster := outcome.state }

/-- A command that would destroy something and is not confirmed. -/
def refuse (cluster : Cluster) (consequence : String) : Report where
  lines := ["\n⚠️  --confirm 플래그를 추가해야 " ++ consequence,
    "   이 작업은 모든 데이터를 삭제합니다!"]
  ending := .returned 1
  cluster := cluster

/-- Carry out a command on a cluster. -/
def perform (migrator : Migrator) (cluster : Cluster) : Command → Report
  | .status =>
    conclude ["\n📊 Elasticsearch Index Status", String.ofList (List.replicate 50 '=')] cluster
      migrator.status fun infos => (statusLines infos, 0)
  | .create =>
    conclude ["\n🔧 Creating indices..."] cluster (migrator.createAll true) fun results =>
      ((resultLines results, none), if results.all Prod.snd then 0 else 1)
  | .drop false => refuse cluster "삭제됩니다."
  | .drop true =>
    conclude ["\n🗑️  Dropping indices..."] cluster migrator.dropAll fun results =>
      ((resultLines results, none), 0)
  | .recreate false => refuse cluster "재생성됩니다."
  | .recreate true =>
    conclude ["\n♻️  Recreating indices..."] cluster migrator.recreateAll fun results =>
      ((resultLines results, none), 0)

/-- A run that fails to connect, with what is said about it. -/
def noConnection (cluster : Cluster) (clients : List ClientConfig) (text : String) : Report where
  lines := ["\n❌ Elasticsearch 연결 오류: " ++ text]
  ending := .returned 1
  clients := clients
  cluster := cluster

/-- Run a command with the indexes and the settings that were found. Whether the service was reached
is said with the address that was given, and not before that can be written. -/
def runWith (surroundings : Surroundings) (refusal? : ClientConfig → Option String)
    (indexes : Indexes) (settings : Settings) (command : Command) : Report :=
  let cluster := surroundings.cluster
  match settings.client with
  | .error e => noConnection cluster [] e.message
  | .ok client =>
    match refusal? client, surroundings.ping, settings.url.display? with
    | some text, _, _ => noConnection cluster [] text
    | none, .error fault, _ => noConnection cluster [client] fault.display
    | none, .ok _, none => noConnection cluster [client] tooManyDigitsText
    | none, .ok answer, some url =>
      if answer.truthy then
        let report := perform ⟨indexes⟩ cluster command
        { report with
          lines := ("\n🔗 Connected to: " ++ url) :: report.lines
          clients := [client] }
      else
        { lines := ["\n❌ Elasticsearch 연결 실패: " ++ url], ending := .returned 1,
          clients := [client], cluster := cluster }

/-- Run the program with its arguments. `refusal?` gives the text with which the client library
turns a configuration down, where it does. -/
def run (surroundings : Surroundings) (arguments : List String)
    (refusal? : ClientConfig → Option String := fun _ => none) : Report :=
  let cluster := surroundings.cluster
  match Arguments.parse arguments with
  | .usageError => { lines := [], ending := .exited 2, cluster }
  | .help screen => { lines := screen.lines, ending := .exited 0, cluster }
  | .run _ none => { lines := HelpScreen.main.lines, ending := .returned 1, cluster }
  | .run none (some _) => { lines := [], ending := .raised (.catalog .noPath), cluster }
  | .run (some path) (some command) =>
    match surroundings.catalog.load path with
    | .error e => { lines := [], ending := .raised (.catalog e), cluster }
    | .ok indexes =>
      match Settings.ofEnvironment surroundings.environment {} with
      | .error e => { lines := [], ending := .raised (.connection e), cluster }
      | .ok settings => runWith surroundings refusal? indexes settings command

end Command
end DocSearch
