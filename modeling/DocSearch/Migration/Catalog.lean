import DocSearch.Schema.Indexes
import DocSearch.Text.Quoted

/-!
# Catalogues of schemas

Named modules hold named collections of indexes. A schema path such as "module:attribute" leads to
one of them. Dotted module names need no module for their first parts, but a module that exists has
no modules below it unless they are listed themselves.
-/

namespace DocSearch

inductive CatalogError where
  /-- There is no text that could be a path. -/
  | noPath
  | malformedPath (path : String)
  | emptyModule
  | relativeModule
  | unknownModule (name : String)
  /-- The module to be found lies below one that holds no modules. -/
  | noPackage (name parent : String)
  | unknownEntry (name : String)
  deriving DecidableEq, Repr

/-- The text of a cause, where it has one. -/
def CatalogError.message : CatalogError → Option String
  | .noPath => none
  | .malformedPath path => some s!"Schema path must look like \"module:attribute\", got \"{path}\"."
  | .emptyModule => some "Empty module name"
  | .relativeModule => none
  | .unknownModule name => some ("No module named " ++ String.ofList (Text.quoted name.toList))
  | .noPackage name parent =>
    some ("No module named " ++ String.ofList (Text.quoted name.toList) ++ "; " ++
      String.ofList (Text.quoted parent.toList) ++ " is not a package")
  | .unknownEntry _ => none

structure Catalog where
  modules : List (String × List (String × Indexes))

namespace Catalog

def joinDotted (parts : List String) : String := ".".intercalate parts

/-- Why a module is unknown, judged from its dotted parts, the last part first: the first part of
the name that leads nowhere is named. -/
def missing (catalog : Catalog) : List String → CatalogError
  | [] => .emptyModule
  | [name] => .unknownModule name
  | last :: parents =>
    let parent := joinDotted parents.reverse
    if (catalog.modules.lookup parent).isSome then
      .noPackage (joinDotted (last :: parents).reverse) parent
    else catalog.missing parents

def module (catalog : Catalog) (name : String) : Except CatalogError (List (String × Indexes)) :=
  if name = "" then .error .emptyModule
  else if name.toList.head? = some '.' then .error .relativeModule
  else
    match catalog.modules.lookup name with
    | some entries => .ok entries
    | none => .error (catalog.missing (Text.dotted name).reverse)

/-- The indexes that a schema path leads to. The path is cut at its first colon. -/
def load (catalog : Catalog) (path : String) : Except CatalogError Indexes := do
  match Text.cut ':' path.toList with
  | (_, none) | (_, some []) => throw (.malformedPath path)
  | (name, some entry) =>
    let entries ← catalog.module (String.ofList name)
    match entries.lookup (String.ofList entry) with
    | some indexes => return indexes
    | none => throw (.unknownEntry (String.ofList entry))

end Catalog
end DocSearch
