import DocSearch.Schema.Field
import DocSearch.Value.Access

/-!
# Documents on the wire

Documents and their wire form differ in two ways: the wire form holds only declared fields, in
order of declaration, and it names the coordinates of a point as the search service wants them.
Object fields are converted inside, a multiple field item by item; null stays null everywhere.
Values of all other kinds pass through untouched.
-/

namespace DocSearch

/-- The wire names of the two coordinates, and further renamings that only count when reading. -/
structure PointNames where
  latitude : String := "latitude"
  longitude : String := "longitude"
  extra : List (String × String) := []
  deriving DecidableEq, Repr

namespace PointNames

/-- The names that the search service uses. -/
def engine : PointNames := { latitude := "lat", longitude := "lon" }

/-- Replace the usual names by those given; keys other than the coordinates are further
renamings. -/
def ofOverrides (overrides : List (String × String)) : PointNames :=
  let settled := Keyed.ofList overrides
  { latitude := (settled.lookup "latitude").getD "latitude"
    longitude := (settled.lookup "longitude").getD "longitude"
    extra := settled.filter fun e => e.1 != "latitude" && e.1 != "longitude" }

/-- Each key with its wire name. -/
def entries (names : PointNames) : List (String × String) :=
  ("latitude", names.latitude) :: ("longitude", names.longitude) :: names.extra

/-- Each wire name with the key it stands for; of two keys with one wire name the later counts. -/
def reading (names : PointNames) : List (String × String) :=
  Keyed.ofList (names.entries.map fun e => (e.2, e.1))

/-- A point in its wire form, which holds the two coordinates and nothing else. -/
def toWire (names : PointNames) (point : Value) : Except Error Value := do
  let latitude ← point.member "latitude"
  let longitude ← point.member "longitude"
  return .object (Keyed.ofList [(names.latitude, latitude), (names.longitude, longitude)])

/-- A point from its wire form. Unknown names stay as they are. -/
def ofWire (names : PointNames) (point : Value) : Except Error Value := do
  let entries ← point.entries
  return .object (Keyed.ofList
    (entries.map fun e => ((names.reading.lookup e.1).getD e.1, e.2)))

end PointNames

/-- Convert everything but null. -/
def keepNull (convert : Value → Except Error Value) : Value → Except Error Value
  | .null => .ok .null
  | v => convert v

/-- Convert the value of a field: one value, or each item if the field is multiple. -/
def convertSlot (multiple : Bool) (convert : Value → Except Error Value) :
    Value → Except Error Value :=
  keepNull fun v =>
    if multiple then do return .list (← (← v.items).mapM (keepNull convert)) else convert v

mutual

/-- Convert a single value of a field; `point` converts points. -/
def Field.convert (point : Value → Except Error Value) : Field → Value → Except Error Value
  | .leaf .geoPoint _, v => point v
  | .leaf _ _, v => .ok v
  | .object _ fields, v => do return .object (← convertFields point fields v)

/-- Convert the declared fields that are present, in order of declaration. -/
def convertFields (point : Value → Except Error Value) :
    List (String × Field) → Value → Except Error Members
  | [], _ => .ok []
  | (key, f) :: rest, data => do
    match ← data.member? key with
    | none => convertFields point rest data
    | some v =>
      let converted ← convertSlot f.multiple (f.convert point) v
      let others ← convertFields point rest data
      return (key, converted) :: others

end

namespace Schema

/-- A document in its wire form. -/
def toWire (schema : Schema) (names : PointNames) (document : Value) : Except Error Members :=
  convertFields names.toWire schema.fields document

/-- A document from its wire form. -/
def ofWire (schema : Schema) (names : PointNames) (wire : Value) : Except Error Members :=
  convertFields names.ofWire schema.fields wire

end Schema
end DocSearch
