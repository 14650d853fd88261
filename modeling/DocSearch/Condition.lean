import DocSearch.Value

/-!
# Conditions

A filter is a tree: leaves test one thing about a document, `all` and `any` join conditions. A
caller may wrap a condition in a class of their own, which changes nothing but the name that is
shown, and may put something that is no condition at all where one is expected. A class of several
kinds at once counts as the kind that comes first.
-/

namespace DocSearch

inductive Comparison where
  | greater | greaterEqual | less | lessEqual
  deriving DecidableEq, Repr

/-- The kinds of conditions. -/
inductive ConditionKind where
  | all | any | identifier | search | equal | notEqual
  | compare (comparison : Comparison)
  | isIn | notIn | near | within
  deriving DecidableEq, Repr

/-- The place of a kind in the order in which kinds are told apart; comparisons share one. -/
def ConditionKind.rank : ConditionKind → Nat
  | .all => 0
  | .any => 1
  | .identifier => 2
  | .search => 3
  | .equal => 4
  | .notEqual => 5
  | .compare _ => 6
  | .isIn => 7
  | .notIn => 8
  | .near => 9
  | .within => 10

/-- The kind as which a condition counts that was made as `kind` and is of further kinds: the first
in order, and of several comparisons the one named first. -/
def ConditionKind.deciding (kind : ConditionKind) (further : List ConditionKind) : ConditionKind :=
  further.foldl (fun first other => if other.rank < first.rank then other else first) kind

inductive Leaf where
  | identifier (id : Value)
  | search (query : Value)
  | equal (field : String) (value : Value)
  | notEqual (field : String) (value : Value)
  | compare (comparison : Comparison) (field : String) (value : Value)
  | isIn (field : String) (values : Value)
  | notIn (field : String) (values : Value)
  | near (field : String) (latitude longitude distance : Value)
  | within (field : String) (north east south west : Value)
  deriving Repr

inductive Condition where
  | leaf (leaf : Leaf)
  | all (conditions : List Condition)
  | any (conditions : List Condition)
  /-- A condition of a caller's class: what it was made as, and further kinds of the class. -/
  | named (className : String) (further : List ConditionKind) (condition : Condition)
  | unsupported (className : String)
  deriving Repr

namespace Comparison

def className : Comparison → String
  | .greater => "GreaterThanCondition"
  | .greaterEqual => "GreaterThanEqualCondition"
  | .less => "LessThanCondition"
  | .lessEqual => "LessThanEqualCondition"

end Comparison

def Leaf.className : Leaf → String
  | .identifier _ => "IdentifierCondition"
  | .search _ => "SearchCondition"
  | .equal _ _ => "EqualCondition"
  | .notEqual _ _ => "NotEqualCondition"
  | .compare c _ _ => c.className
  | .isIn _ _ => "InCondition"
  | .notIn _ _ => "NotInCondition"
  | .near _ _ _ _ => "GeoDistanceCondition"
  | .within _ _ _ _ _ => "GeoBoundingBoxCondition"

namespace Leaf

def kind : Leaf → ConditionKind
  | .identifier _ => .identifier
  | .search _ => .search
  | .equal _ _ => .equal
  | .notEqual _ _ => .notEqual
  | .compare c _ _ => .compare c
  | .isIn _ _ => .isIn
  | .notIn _ _ => .notIn
  | .near _ _ _ _ => .near
  | .within _ _ _ _ _ => .within

/-- The path of the field that a leaf tests. -/
def path? : Leaf → Option String
  | .identifier _ => none
  | .search _ => none
  | .equal field _ => some field
  | .notEqual field _ => some field
  | .compare _ field _ => some field
  | .isIn field _ => some field
  | .notIn field _ => some field
  | .near field _ _ _ => some field
  | .within field _ _ _ _ => some field

/-- Path and value of a leaf that compares with a single value. -/
def single? : Leaf → Option (String × Value)
  | .equal field value => some (field, value)
  | .notEqual field value => some (field, value)
  | .compare _ field value => some (field, value)
  | _ => none

/-- Path and values of a leaf that compares with several values. -/
def several? : Leaf → Option (String × Value)
  | .isIn field values => some (field, values)
  | .notIn field values => some (field, values)
  | _ => none

/-- A leaf made anew from the parts of another one. Without them the path of the other one is left,
since a path is looked up before its values are missed. -/
def remade (leaf : Leaf) (parts : Option (String × Value)) (make : String → Value → Leaf) :
    Except (Option String) Leaf :=
  match parts with
  | some (field, value) => .ok (make field value)
  | none => .error leaf.path?

/-- The leaf as which a leaf counts under a kind. One that lacks what the kind asks for is no such
leaf; what is left of it is the path that is looked up before the lack shows. -/
def readAs (leaf : Leaf) : ConditionKind → Except (Option String) Leaf
  | .equal => leaf.remade leaf.single? .equal
  | .notEqual => leaf.remade leaf.single? .notEqual
  | .compare c => leaf.remade leaf.single? (.compare c)
  | .isIn => leaf.remade leaf.several? .isIn
  | .notIn => leaf.remade leaf.several? .notIn
  | .within => if leaf.kind = .within then .ok leaf else .error leaf.path?
  | kind => if leaf.kind = kind then .ok leaf else .error none

/-- Under its own kind a leaf counts as itself. -/
theorem readAs_kind (leaf : Leaf) : leaf.readAs leaf.kind = .ok leaf := by
  cases leaf <;> rfl

end Leaf

namespace Condition

def className : Condition → String
  | .leaf l => l.className
  | .all _ => "AndCondition"
  | .any _ => "OrCondition"
  | .named c _ _ => c
  | .unsupported c => c

/-- Whether a condition belongs to a kind. -/
def isOf (kind : ConditionKind) : Condition → Bool
  | .leaf l => l.kind == kind
  | .all _ => kind == .all
  | .any _ => kind == .any
  | .named _ further c => c.isOf kind || further.contains kind
  | .unsupported _ => false

/-- Whether something is no condition of any kind, whatever classes it is wrapped in. -/
def isForeign : Condition → Bool
  | .named _ further c => further.isEmpty && c.isForeign
  | .unsupported _ => true
  | _ => false

/-- The identifier that a condition was made with. -/
def identifier? : Condition → Option Value
  | .leaf (.identifier id) => some id
  | .named _ _ c => c.identifier?
  | _ => none

theorem isOf_of_isForeign (kind : ConditionKind) : (c : Condition) → c.isForeign = true →
    c.isOf kind = false
  | .unsupported _, _ => rfl
  | .named _ further c, h => by
      obtain ⟨hfurther, hc⟩ := Bool.and_eq_true_iff.mp h
      rw [isOf, c.isOf_of_isForeign kind hc, List.isEmpty_iff.mp hfurther]
      rfl

theorem identifier?_of_isForeign : (c : Condition) → c.isForeign = true → c.identifier? = none
  | .unsupported _, _ => rfl
  | .named _ _ c, h => c.identifier?_of_isForeign (Bool.and_eq_true_iff.mp h).2

end Condition
end DocSearch
