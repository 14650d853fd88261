import DocSearch.Schema.Index

/-!
# A small index

An index of places with every shape of field that the worked instances need: an identifier, a text,
a list of tags, a point, and an object with a text of its own.
-/

namespace DocSearch.Sample

def places : Index where
  name := "places"
  schema := .ofList [
    ("id", .leaf .identifier { name := "id" }),
    ("title", .leaf .text { name := "title" }),
    ("tags", .leaf .base { name := "tags", multiple := true }),
    ("location", .leaf .geoPoint { name := "location" }),
    ("owner", .object { name := "owner" } [("name", .leaf .text { name := "name" })])]
  oneIdentifier := rfl

end DocSearch.Sample
