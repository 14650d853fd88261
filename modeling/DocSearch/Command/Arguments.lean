import DocSearch.Text.CharClass
import DocSearch.Text.Split

/-!
# Command-line arguments

The main options come first, then the name of a command, then the options of the command. A long
option may be shortened as long as it stays unambiguous and may carry its value behind an equals
sign. After a lone double dash nothing is an option. The first request for help that is reached ends
the reading; every other fault is a usage error.
-/

namespace DocSearch

inductive Command where
  | status
  | create
  | drop (confirmed : Bool)
  | recreate (confirmed : Bool)
  deriving DecidableEq, Repr

inductive HelpScreen where
  | main | status | create | drop | recreate
  deriving DecidableEq, Repr

/-- What the arguments ask for. A schema without a command asks for nothing. The schema has no text
where nothing but a double dash is attached to its option, since that is dropped. -/
inductive Invocation where
  | help (screen : HelpScreen)
  | usageError
  | run (schema : Option String) (command : Option Command)
  deriving DecidableEq, Repr

namespace Arguments

open Text

inductive Switch where
  | help | schema | confirm
  deriving DecidableEq, Repr

/-- Text that an argument carries behind the spelling of its option: of a long one, or of a short
one, where an equals sign between them does not count. -/
inductive Attached where
  | nothing
  | long (text : List Char)
  | short (text : List Char)
  deriving DecidableEq, Repr

inductive Class where
  | plain
  | option (switch : Switch) (attached : Attached)
  | unknown
  deriving DecidableEq, Repr

abbrev Spellings := List (List Char × Switch)

def mainSpellings : Spellings :=
  [("-h".toList, .help), ("--help".toList, .help), ("--schema".toList, .schema)]

def helpSpellings : Spellings := [("-h".toList, .help), ("--help".toList, .help)]

def confirmSpellings : Spellings := helpSpellings ++ [("--confirm".toList, .confirm)]

def isDigits (text : List Char) : Bool := text.all fun c => (digitValue? c).isSome

/-- A text without the line feed at its end. -/
def withoutLineEnd (text : List Char) : List Char :=
  if text.getLast? = some '\n' then text.dropLast else text

/-- A minus sign and a number, with or without a point; a line feed may follow. -/
def isNegativeNumber : List Char → Bool
  | '-' :: rest =>
    match cut '.' (withoutLineEnd rest) with
    | (whole, none) => whole ≠ [] && isDigits whole
    | (whole, some fraction) => isDigits whole && fraction ≠ [] && isDigits fraction
  | _ => false

/-- The options that an argument may stand for in short. -/
def candidates (spellings : Spellings) (argument : List Char) : List Class :=
  if argument.take 2 = ['-', '-'] then
    let (start, value) := cut '=' argument
    let attached := match value with
      | some text => Attached.long text
      | none => .nothing
    (spellings.filter fun s => start.isPrefixOf s.1).map fun s => .option s.2 attached
  else
    spellings.filterMap fun s =>
      if s.1 = argument.take 2 then some (.option s.2 (.short (argument.drop 2)))
      else if argument.isPrefixOf s.1 then some (.option s.2 .nothing)
      else none

/-- How an argument counts; an ambiguous one does not count at all. -/
def classify (spellings : Spellings) (argument : List Char) : Option Class :=
  match argument with
  | [] | ['-'] => some .plain
  | '-' :: _ =>
    match spellings.lookup argument with
    | some switch => some (.option switch .nothing)
    | none =>
      let (start, value) := cut '=' argument
      match value, spellings.lookup start with
      | some text, some switch =>
        some (.option switch (if start.take 2 = ['-', '-'] then .long text else .short text))
      | _, _ =>
        match candidates spellings argument with
        | [c] => some c
        | _ :: _ :: _ => none
        | [] =>
          if isNegativeNumber argument || argument.contains ' ' then some .plain
          else some .unknown
  | _ => some .plain

/-- An argument with its class. -/
abbrev Classified := List Char × Class

/-- All arguments with their classes. From a double dash on everything is plain. -/
def classifyAll (spellings : Spellings) : List (List Char) → Option (List Classified)
  | [] => some []
  | argument :: rest =>
    if argument = ['-', '-'] then some ((argument :: rest).map fun a => (a, .plain))
    else do
      let c ← classify spellings argument
      let others ← classifyAll spellings rest
      return (argument, c) :: others

/-- Whether an option that takes no value is used as one that asks for help. A short one may be
repeated in one argument. -/
def asksHelp : Attached → Bool
  | .nothing => true
  | .long _ => false
  | .short text => text ≠ [] && text.all (· = 'h')

/-- The options of a command: whether it is confirmed, and whether anything was left over. -/
structure Tail where
  confirmed : Bool := false
  leftOver : Bool := false

/-- The inner failure is a usage error, or help if it is asked for. -/
def readTail (screen : HelpScreen) : Tail → List Classified → Except Invocation Tail
  | tail, [] => .ok tail
  | _, (_, .option .help attached) :: _ =>
    .error (if asksHelp attached then .help screen else .usageError)
  | tail, (_, .option .confirm .nothing) :: rest =>
    readTail screen { tail with confirmed := true } rest
  | _, (_, .option .confirm _) :: _ => .error .usageError
  | tail, (_, .option .schema _) :: rest => readTail screen { tail with leftOver := true } rest
  | tail, (_, .plain) :: rest => readTail screen { tail with leftOver := true } rest
  | tail, (_, .unknown) :: rest => readTail screen { tail with leftOver := true } rest

/-- The name of a command with its spellings, its help and what it becomes when confirmed or not. -/
structure Entry where
  name : List Char
  spellings : Spellings
  screen : HelpScreen
  command : Bool → Command

def entries : List Entry :=
  [⟨"status".toList, helpSpellings, .status, fun _ => .status⟩,
    ⟨"create".toList, helpSpellings, .create, fun _ => .create⟩,
    ⟨"drop".toList, confirmSpellings, .drop, .drop⟩,
    ⟨"recreate".toList, confirmSpellings, .recreate, .recreate⟩]

/-- A command by its exact name, with what follows it. -/
def readCommand (name : List Char) (arguments : List (List Char)) :
    Except Invocation (Command × Bool) :=
  match entries.find? fun e => e.name = name with
  | none => .error .usageError
  | some entry =>
    match classifyAll entry.spellings arguments with
    | none => .error .usageError
    | some classified => do
      let tail ← readTail entry.screen {} classified
      return (entry.command tail.confirmed, tail.leftOver)

/-- The text of a schema that is attached to its option. -/
def attachedSchema (text : List Char) : Option String :=
  if text = ['-', '-'] then none else some (String.ofList text)

/-- Read the main options up to the command. -/
def readMain (schema : Option (Option String)) (leftOver : Bool) :
    List Classified → Except Invocation Invocation
  | [] =>
    match schema with
    | some s => if leftOver then .error .usageError else .ok (.run s none)
    | none => .error .usageError
  | (_, .option .help attached) :: _ =>
    .error (if asksHelp attached then .help .main else .usageError)
  | (_, .option .schema (.long text)) :: rest =>
    readMain (some (attachedSchema text)) leftOver rest
  | (_, .option .schema _) :: (value, .plain) :: rest =>
    if value = ['-', '-'] then .error .usageError
    else readMain (some (some (String.ofList value))) leftOver rest
  | (_, .option .schema _) :: _ => .error .usageError
  | (_, .option .confirm _) :: rest => readMain schema true rest
  | (_, .unknown) :: rest => readMain schema true rest
  | (name, .plain) :: rest => do
    let (command, more) ← readCommand name (rest.map Prod.fst)
    match schema with
    | some s => if leftOver || more then .error .usageError else return .run s (some command)
    | none => .error .usageError

def parse (arguments : List String) : Invocation :=
  match classifyAll mainSpellings (arguments.map String.toList) with
  | none => .usageError
  | some classified =>
    match readMain none false classified with
    | .ok invocation => invocation
    | .error invocation => invocation

end Arguments
end DocSearch
