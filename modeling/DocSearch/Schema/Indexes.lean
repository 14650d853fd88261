import DocSearch.Schema.Index

/-!
# Configured indexes

The indexes of an installation by key and in order of configuration. Keys are distinct; the names
of the indexes need not be.
-/

namespace DocSearch

structure Indexes where
  entries : List (String × Index)
  distinct : Keyed.Distinct entries

namespace Indexes

/-- The indexes that a list of configurations leaves. -/
def ofList (entries : List (String × Index)) : Indexes :=
  ⟨Keyed.ofList entries, Keyed.distinct_ofList _⟩

/-- The index configured under a key. -/
def get (indexes : Indexes) (key : String) : Except Error Index :=
  match indexes.entries.lookup key with
  | some index => .ok index
  | none => .error (.indexNotConfigured key)

end Indexes
end DocSearch
