import DocSearch.Command.Run

/-!
# The program

Runs a command on a cluster in memory that starts out empty and answers every ping. The catalogue
holds one module with one small collection of indexes; the settings come from the environment.
-/

namespace DocSearch

/-- Articles with an identifier, a title, tags and an author. -/
def articleSchema : Schema :=
  let leaf (kind : LeafKind) (name : String) : String × Field :=
    (name, .leaf kind (kind.attributes name))
  .ofList [leaf .identifier "id", leaf .text "title",
    ("tags", .leaf .text { LeafKind.text.attributes "tags" with multiple := true }),
    ("author", .object { name := "author" } [leaf .text "name", leaf .geoPoint "home"])]

def articles : Except Error Index := Index.ofSchema "articles" articleSchema

def catalog : Catalog :=
  match articles with
  | .ok index => ⟨[("sample", [("INDEXES", .ofList [("articles", index)])])]⟩
  | .error _ => ⟨[]⟩

/-- The variables that settings are read from. -/
def variableNames : List String :=
  ["ES_URL", "ES_USERNAME", "ES_PASSWORD", "ES_VERIFY_CERTS", "ES_REQUEST_TIMEOUT_S"]

def readEnvironment : IO Environment := do
  let found ← variableNames.mapM fun name => do
    return (← IO.getEnv name).toList.map fun text => (name, text)
  return found.flatten

/-- Run the program; the result is its exit code. -/
def program (arguments : List String) : IO UInt32 := do
  let environment ← readEnvironment
  let report := Command.run ⟨catalog, environment, .ok (.bool true), {}⟩ arguments
  IO.print report.text
  match report.ending with
  | .returned code => return code.toUInt32
  | .exited code => return code.toUInt32
  | .raised e =>
    IO.eprintln (e.message.getD "The schema or an answer does not have the expected shape.")
    return 1

end DocSearch

def main (arguments : List String) : IO UInt32 := DocSearch.program arguments
