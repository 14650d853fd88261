import DocSearch.Value.Display

/-!
# Why an operation on documents fails

One constructor per cause. The wording of every cause stands in `Error.message`; causes that only
say that a value has the wrong shape carry no text of their own.
-/

namespace DocSearch

/-- The ways in which the search service turns a call down. -/
inductive FaultKind where
  | notFound | conflict | badRequest | unauthorized | connection | timeout
  deriving DecidableEq, Repr

/-- A call that the search service did not answer. -/
structure Fault where
  kind : FaultKind
  message : String
  status : Option Nat := none
  deriving DecidableEq, Repr

/-- Which half of a bulk request was being sent. -/
inductive BulkPhase where
  | indexing | deleting
  deriving DecidableEq, Repr

def BulkPhase.word : BulkPhase → String
  | .indexing => "indexing"
  | .deleting => "deleting"

inductive Error where
  /-- A value of a shape that the operation cannot read. -/
  | wrongShape
  /-- A value that should have members and has none. -/
  | notAnObject
  | missingKey (key : String)
  | identifierCount (index : String) (count : Nat)
  | fieldNotFound (path index : String)
  | noMapping (className : String)
  | unsupportedCondition (className : String)
  /-- A condition that was not made with what one of its kinds asks for. -/
  | missingPart
  | negativeLimit (limit : Int)
  | negativeOffset (offset : Int)
  | sortDirection (direction : String)
  | chunkSize (size : Int)
  /-- A chunk with more items than can be asked for at once. -/
  | chunkTooLarge
  | indexNotConfigured (key : String)
  | documentNotFound (identifier : Value) (key : String)
  | notDeleted (identifier : Value) (index : String) (result : Value)
  | bulkFailed (index : String) (phase : BulkPhase)
  | indexExists (index : String)
  /-- A count that has no digits to group. -/
  | notGroupable
  | notANumber (text : String)
  /-- A whole number beyond the range of the arithmetic. -/
  | tooLarge
  /-- A whole number that is to be written and has too many digits. -/
  | tooManyDigits
  | fault (fault : Fault)

/-- What is said of a number that has too many digits to be written. -/
def tooManyDigitsText : String :=
  s!"Exceeds the limit ({Text.digitLimit} digits) for integer string conversion; " ++
    "use sys.set_int_max_str_digits() to increase the limit"

/-- A text that ends in a whole number. If the number cannot be written, it says that instead. -/
def textWith (before : String) (n : Int) : String :=
  match (Number.integer n).display? with
  | some digits => before ++ digits
  | none => tooManyDigitsText

/-- The text of a cause, where it has one. -/
def Error.message : Error → Option String
  | .wrongShape => none
  | .notAnObject => none
  | .missingKey key => some key
  | .identifierCount index count =>
    some s!"Index \"{index}\" must define exactly one identifier field, got {count}."
  | .fieldNotFound path index => some s!"Field \"{path}\" not found in index \"{index}\"."
  | .noMapping className => some s!"No mapping for field type {className}"
  | .missingPart => none
  | .unsupportedCondition className => some s!"{className} filter not implemented."
  | .negativeLimit limit => some (textWith "limit must be >= 0, got " limit)
  | .negativeOffset offset => some (textWith "offset must be >= 0, got " offset)
  | .sortDirection direction =>
    some s!"Sort direction must be \"asc\" or \"desc\", got \"{direction}\"."
  | .chunkSize size => some (textWith "bulk_size must be >= 1, got " size)
  | .chunkTooLarge =>
    some "Stop argument for islice() must be None or an integer: 0 <= x <= sys.maxsize."
  | .indexNotConfigured key => some s!"Index \"{key}\" is not configured."
  | .documentNotFound identifier key =>
    identifier.display?.map fun id =>
      s!"Document with identifier \"{id}\" not found in index \"{key}\"."
  | .notDeleted identifier index _ =>
    identifier.display?.map fun id =>
      s!"Unexpected error while delete document with identifier \"{id}\" " ++
        s!"from Index \"{index}\"."
  | .bulkFailed index phase =>
    some s!"Unexpected error while bulk {phase.word} documents for index \"{index}\"."
  | .indexExists index => some s!"인덱스 '{index}'이 이미 존재합니다."
  | .notGroupable => some "Cannot specify ',' with 's'."
  | .notANumber text => some ("could not convert string to float: " ++
      String.ofList (Text.quoted text.toList))
  | .tooLarge => none
  | .tooManyDigits => some tooManyDigitsText
  | .fault f => some f.message

/-- The plain text of a value, where it is needed to go on. -/
def Value.plainText (v : Value) : Except Error String :=
  match v.display? with
  | some written => .ok written
  | none => .error .tooManyDigits

end DocSearch
