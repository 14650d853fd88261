import DocSearch.Condition
import DocSearch.Keyed

/-!
# Queries

What the search service is asked for. An atom is one test on one engine field; a clause is an atom,
a required atom or the negation of one; groups join queries. `Query.toValue` is the written form.

Writing a distance atom on a field called `distance` loses the radius, because the centre is written
under the field's name and takes the place of the radius.
-/

namespace DocSearch

inductive Atom where
  | ids (id : Value)
  | queryString (query : Value)
  | term (field : String) (value : Value)
  | terms (field : String) (values : List Value)
  | range (field : String) (comparison : Comparison) (value : Value)
  | geoDistance (field : String) (latitude longitude distance : Value)
  | geoBoundingBox (field : String) (north east south west : Value)
  deriving Repr

inductive Clause where
  | test (atom : Atom)
  | required (atom : Atom)
  | excluded (atom : Atom)
  deriving Repr

inductive Junction where
  | every | any
  deriving DecidableEq, Repr

inductive Query where
  /-- No constraint; written as an object without members. -/
  | empty
  | matchAll
  | clause (clause : Clause)
  | group (junction : Junction) (members : List Query)
  deriving Repr

def Comparison.word : Comparison → String
  | .greater => "gt"
  | .greaterEqual => "gte"
  | .less => "lt"
  | .lessEqual => "lte"

def Junction.word : Junction → String
  | .every => "must"
  | .any => "should"

/-- A point as the search service writes it. -/
def Value.point (latitude longitude : Value) : Value :=
  .object [("lat", latitude), ("lon", longitude)]

def Atom.toValue : Atom → Value
  | .ids id => .single "ids" (.single "values" (.list [id]))
  | .queryString q => .single "query_string" (.single "query" q)
  | .term field value => .single "term" (.single field (.single "value" value))
  | .terms field values => .single "terms" (.single field (.list values))
  | .range field c value => .single "range" (.single field (.single c.word value))
  | .geoDistance field lat lon distance =>
    .single "geo_distance"
      (.object (Keyed.ofList [("distance", distance), (field, .point lat lon)]))
  | .geoBoundingBox field north east south west =>
    .single "geo_bounding_box" (.single field
      (.object [("top_left", .point north west), ("bottom_right", .point south east)]))

def Clause.toValue : Clause → Value
  | .test a => a.toValue
  | .required a => .single "bool" (.single "must" a.toValue)
  | .excluded a => .single "bool" (.single "must_not" a.toValue)

namespace Query

mutual

def toValue : Query → Value
  | .empty => .object []
  | .matchAll => .single "match_all" (.object [])
  | .clause c => c.toValue
  | .group j members => .single "bool" (.single j.word (.list (toValues members)))

def toValues : List Query → List Value
  | [] => []
  | q :: rest => q.toValue :: toValues rest

end

def isEmpty : Query → Bool
  | .empty => true
  | _ => false

/-- Join queries: none is no constraint, a single one stays as it is, more make a group. A single
query is never wrapped, since a group of one would be scored differently. -/
def join (j : Junction) : List Query → Query
  | [] => .empty
  | [q] => q
  | qs => .group j qs

end Query
end DocSearch
