/-!
# Cutting text at a separator

Everything works on lists of characters; the parts keep their characters and only separators
disappear.
-/

namespace DocSearch.Text

/-- The parts between the separators. Empty parts are kept, so there is always at least one. -/
def splitOn (sep : Char) : List Char → List (List Char)
  | [] => [[]]
  | c :: rest =>
    if c = sep then [] :: splitOn sep rest
    else match splitOn sep rest with
      | [] => [[c]]
      | part :: parts => (c :: part) :: parts

/-- The text before the first separator and, if there is one, the text after it. -/
def cut (sep : Char) : List Char → List Char × Option (List Char)
  | [] => ([], none)
  | c :: rest =>
    if c = sep then ([], some rest)
    else ((c :: (cut sep rest).1), (cut sep rest).2)

/-- The text before the last separator, if there is one, and the text after it. -/
def cutLast (sep : Char) : List Char → Option (List Char) × List Char
  | [] => (none, [])
  | c :: rest =>
    match cutLast sep rest with
    | (some before, after) => (some (c :: before), after)
    | (none, after) => if c = sep then (some [], after) else (none, c :: after)

/-- Whether `part` stands somewhere in the text. -/
def occursIn (part : List Char) : List Char → Bool
  | [] => part.isEmpty
  | c :: rest => part.isPrefixOf (c :: rest) || occursIn part rest

/-- The parts of a path between its dots. -/
def dotted (path : String) : List String := (splitOn '.' path.toList).map String.ofList

end DocSearch.Text
