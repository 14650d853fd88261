import DocSearch.Query
import DocSearch.Schema.Index
import DocSearch.Value.Access

/-!
# Conditions into queries

A condition becomes one query. Fields are addressed by the name of their exact value, conditions
without any leaf are left out, and the first condition that cannot be turned into a query decides
the error.
-/

namespace DocSearch

/-- A leaf looks up its field first and reads its values afterwards. -/
def Leaf.compile (index : Index) : Leaf → Except Error Clause
  | .identifier id => .ok (.test (.ids id))
  | .search query => .ok (.required (.queryString query))
  | .equal path value => do
    let field ← index.exactName path
    return .test (.term field value)
  | .notEqual path value => do
    let field ← index.exactName path
    return .excluded (.term field value)
  | .compare c path value => do
    let field ← index.exactName path
    return .test (.range field c value)
  | .isIn path values => do
    let field ← index.exactName path
    let items ← values.items
    return .test (.terms field items)
  | .notIn path values => do
    let field ← index.exactName path
    let items ← values.items
    return .excluded (.terms field items)
  | .near path latitude longitude distance => do
    let field ← index.exactName path
    return .test (.geoDistance field latitude longitude distance)
  | .within path north east south west => do
    let field ← index.exactName path
    return .test (.geoBoundingBox field north east south west)

/-- A leaf under one of the kinds of its condition. -/
def Leaf.compileAs (index : Index) (kind : ConditionKind) (leaf : Leaf) : Except Error Clause :=
  match leaf.readAs kind with
  | .ok leaf => leaf.compile index
  | .error none => .error .missingPart
  | .error (some path) => do
    let _ ← index.exactName path
    throw .missingPart

mutual

/-- A condition that is also of further kinds. What is no condition of any kind is refused under the
name of its own class, the outermost one. What is a condition of further kinds only has nothing that
they ask for. -/
def Condition.compileAs (index : Index) (further : List ConditionKind) :
    Condition → Except Error Query
  | .leaf l => do return .clause (← l.compileAs index (.deciding l.kind further))
  | .all conditions => do return .join .every (← compileEach index conditions)
  | .any conditions => do
    let junction := if .all ∈ further then .every else .any
    return .join junction (← compileEach index conditions)
  | .named className more c =>
    if further = [] ∧ more = [] ∧ c.isForeign then .error (.unsupportedCondition className)
    else c.compileAs index (more ++ further)
  | .unsupported className =>
    .error (if further = [] then .unsupportedCondition className else .missingPart)

/-- The queries of the conditions that say anything, in order. -/
def compileEach (index : Index) : List Condition → Except Error (List Query)
  | [] => .ok []
  | c :: rest => do
    let q ← c.compileAs index []
    let qs ← compileEach index rest
    return if q.isEmpty then qs else q :: qs

end

/-- The query of one condition. -/
def Condition.compile (index : Index) (condition : Condition) : Except Error Query :=
  condition.compileAs index []

/-- What is no condition of any kind is refused under the name of its class, unless it is to count as
a condition of further kinds. -/
theorem Condition.compileAs_of_isForeign (index : Index) : (c : Condition) →
    (further : List ConditionKind) → c.isForeign = true → c.compileAs index further =
      .error (if further = [] then .unsupportedCondition c.className else .missingPart)
  | .unsupported _, _, _ => rfl
  | .named className more c, further, h => by
      obtain ⟨hmore, hc⟩ := Bool.and_eq_true_iff.mp h
      rw [List.isEmpty_iff.mp hmore, compileAs]
      by_cases hfurther : further = []
      · rw [if_pos ⟨hfurther, rfl, hc⟩, if_pos hfurther]
        rfl
      · rw [if_neg (fun hboth => hfurther hboth.1), if_neg hfurther, List.nil_append,
          c.compileAs_of_isForeign index further hc, if_neg hfurther]

/-- A class of the caller's adds its kinds to a condition. -/
theorem Condition.compileAs_named (index : Index) (className : String)
    (more further : List ConditionKind) {c : Condition} (h : c.isForeign = false) :
    (Condition.named className more c).compileAs index further =
      c.compileAs index (more ++ further) := by
  rw [compileAs, if_neg]
  rintro ⟨-, -, hforeign⟩
  rw [h] at hforeign
  cases hforeign

/-- It does so to whatever can be compiled with them. -/
theorem Condition.compileAs_named_eq_ok {index : Index} {className : String}
    {more further : List ConditionKind} {c : Condition} {q : Query} :
    (Condition.named className more c).compileAs index further = .ok q ↔
      c.compileAs index (more ++ further) = .ok q := by
  rw [compileAs]
  split
  next h =>
    obtain ⟨rfl, rfl, hc⟩ := h
    rw [List.append_nil, c.compileAs_of_isForeign index [] hc]
    exact iff_of_false (by simp) (by simp)
  next => exact Iff.rfl

theorem Leaf.compileAs_kind (index : Index) (leaf : Leaf) :
    leaf.compileAs index leaf.kind = leaf.compile index := by
  rw [Leaf.compileAs, Leaf.readAs_kind]

/-- One query for a list of conditions. -/
def compile (index : Index) (conditions : List Condition) (junction : Junction) :
    Except Error Query := do
  return .join junction (← compileEach index conditions)

end DocSearch
