import DocSearch.Keyed

/-!
# Fields

A field is a leaf of one of the built-in kinds or an object with fields of its own. A field may be
declared under a class of the caller's, which behaves as its kind and only changes the name that is
shown. The keys of an object's fields are distinct once it has been through `Field.settle`.
-/

namespace DocSearch

inductive LeafKind where
  | base | identifier | text | integer | float | boolean | dateTime | geoPoint
  deriving DecidableEq, Repr

def LeafKind.className : LeafKind → String
  | .base => "Field"
  | .identifier => "IdentifierField"
  | .text => "TextField"
  | .integer => "IntegerField"
  | .float => "FloatField"
  | .boolean => "BooleanField"
  | .dateTime => "DateTimeField"
  | .geoPoint => "GeoPointField"

/-- What every field carries. `className` is set for a class of the caller's. -/
structure Attributes where
  name : String
  multiple : Bool := false
  searchable : Bool := false
  filterable : Bool := false
  sortable : Bool := false
  className : Option String := none
  deriving DecidableEq, Repr

/-- The attributes of a new field: identifiers can be filtered and sorted, text can be searched. -/
def LeafKind.attributes (kind : LeafKind) (name : String) : Attributes :=
  match kind with
  | .identifier => { name, filterable := true, sortable := true }
  | .text => { name, searchable := true }
  | _ => { name }

inductive Field where
  | leaf (kind : LeafKind) (attributes : Attributes)
  | object (attributes : Attributes) (fields : List (String × Field))
  deriving Repr

namespace Field

def attributes : Field → Attributes
  | .leaf _ a => a
  | .object a _ => a

def name (f : Field) : String := f.attributes.name

def multiple (f : Field) : Bool := f.attributes.multiple

def className : Field → String
  | .leaf kind a => a.className.getD kind.className
  | .object a _ => a.className.getD "ObjectField"

def isIdentifier : Field → Bool
  | .leaf .identifier _ => true
  | _ => false

def isText : Field → Bool
  | .leaf .text _ => true
  | _ => false

end Field

mutual

/-- Repeated keys of object fields resolved at every depth: the last declaration of a key counts
and stands where the key was first declared. -/
def Field.settle : Field → Field
  | .leaf kind a => .leaf kind a
  | .object a fields => .object a (Keyed.ofList (settleAll fields))

def settleAll : List (String × Field) → List (String × Field)
  | [] => []
  | (key, f) :: rest => (key, f.settle) :: settleAll rest

end

mutual

/-- At every depth the keys of an object field are distinct. -/
def Field.Settled : Field → Prop
  | .leaf _ _ => True
  | .object _ fields => Keyed.Distinct fields ∧ AllSettled fields

def AllSettled : List (String × Field) → Prop
  | [] => True
  | (_, f) :: rest => f.Settled ∧ AllSettled rest

end

theorem allSettled_iff (fields : List (String × Field)) :
    AllSettled fields ↔ ∀ e ∈ fields, e.2.Settled := by
  induction fields with
  | nil => simp [AllSettled]
  | cons e rest ih => obtain ⟨k, f⟩ := e; simp [AllSettled, ih]

mutual

theorem Field.settled_settle : (f : Field) → f.settle.Settled
  | .leaf _ _ => by simp [Field.settle, Field.Settled]
  | .object _ fields => by
    simp only [Field.settle, Field.Settled]
    refine ⟨Keyed.distinct_ofList _, (allSettled_iff _).2 ?_⟩
    exact Keyed.forall_ofList (P := Field.Settled)
      ((allSettled_iff _).1 (allSettled_settleAll fields))

theorem allSettled_settleAll : (fields : List (String × Field)) → AllSettled (settleAll fields)
  | [] => by simp [settleAll, AllSettled]
  | (_, f) :: rest => by
    simp only [settleAll, AllSettled]
    exact ⟨f.settled_settle, allSettled_settleAll rest⟩

end

/-- The declared fields of an index or of a document, by key and in order of declaration. -/
structure Schema where
  fields : List (String × Field)
  distinct : Keyed.Distinct fields
  settled : AllSettled fields

/-- The schema that a list of declarations leaves. -/
def Schema.ofList (declarations : List (String × Field)) : Schema where
  fields := Keyed.ofList (settleAll declarations)
  distinct := Keyed.distinct_ofList _
  settled := (allSettled_iff _).2
    (Keyed.forall_ofList ((allSettled_iff _).1 (allSettled_settleAll declarations)))

end DocSearch
