import DocSearch.Search

/-!
# Building a search step by step

A builder collects filters and sort keys and keeps the last limit and offset. Nothing about limit
and offset is checked before the search is asked for.
-/

namespace DocSearch

structure SearchBuilder where
  index : Index
  filters : List Condition := []
  sorts : List (String × String) := []
  limit : Int := 0
  offset : Int := 0

namespace SearchBuilder

def addFilter (builder : SearchBuilder) (condition : Condition) : SearchBuilder :=
  { builder with filters := builder.filters ++ [condition] }

/-- A field that is already sorted by keeps its place and takes the new direction. -/
def addSort (builder : SearchBuilder) (field direction : String) : Except Error SearchBuilder :=
  if direction = "asc" ∨ direction = "desc" then
    .ok { builder with sorts := Keyed.put field direction builder.sorts }
  else .error (.sortDirection direction)

def setLimit (builder : SearchBuilder) (limit : Int) : SearchBuilder := { builder with limit }

def setOffset (builder : SearchBuilder) (offset : Int) : SearchBuilder := { builder with offset }

def toSearch (builder : SearchBuilder) : Except Error Search :=
  Search.ofParts builder.index builder.filters builder.sorts builder.limit builder.offset

end SearchBuilder
end DocSearch
