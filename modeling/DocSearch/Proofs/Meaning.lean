import DocSearch.Proofs.Fallible
import DocSearch.Proofs.Sample
import DocSearch.Query.Compile

/-!
# The meaning of a compiled query

Fix which atoms are true. Then a written query is true or false, and so is a tree of conditions,
and compiling keeps the truth. The one point to settle is a combinator without any leaf below it:
it constrains nothing, so it is passed over where it stands among others, and a search that holds
nothing else is true of everything.

A written query is read without looking at how it came about: only the objects under `bool` are
joints, and everything else that is not empty is an atom.
-/

namespace DocSearch

open Fallible

/-! ## Reading a written query -/

mutual

/-- Whether a written query is true, given which written atoms are. -/
def Value.asserts (V : Value → Bool) : Value → Bool
  | .object [] => true
  | .object [("match_all", _)] => true
  | .object [("bool", .object [("must", .list queries)])] => allAssert V queries
  | .object [("bool", .object [("must", query)])] => query.asserts V
  | .object [("bool", .object [("should", .list queries)])] => anyAsserts V queries
  | .object [("bool", .object [("must_not", query)])] => !query.asserts V
  | atom => V atom

def allAssert (V : Value → Bool) : List Value → Bool
  | [] => true
  | query :: rest => query.asserts V && allAssert V rest

def anyAsserts (V : Value → Bool) : List Value → Bool
  | [] => false
  | query :: rest => query.asserts V || anyAsserts V rest

end

theorem Atom.asserts_toValue (V : Value → Bool) (a : Atom) : a.toValue.asserts V = V a.toValue := by
  cases a <;> simp [Atom.toValue, Value.single, Value.asserts]

/-- Whether a clause is true, given which written atoms are. -/
def Clause.holds (V : Value → Bool) : Clause → Bool
  | .test a => V a.toValue
  | .required a => V a.toValue
  | .excluded a => !V a.toValue

theorem Clause.asserts_toValue (V : Value → Bool) (c : Clause) :
    c.toValue.asserts V = c.holds V := by
  cases c with
  | test a => exact a.asserts_toValue V
  | required a =>
      have h : (Value.single "bool" (.single "must" a.toValue)).asserts V = a.toValue.asserts V := by
        cases a <;> simp [Atom.toValue, Value.single, Value.asserts]
      exact h.trans (a.asserts_toValue V)
  | excluded a =>
      have h : (Value.single "bool" (.single "must_not" a.toValue)).asserts V =
          !a.toValue.asserts V := by
        cases a <;> simp [Atom.toValue, Value.single, Value.asserts]
      exact h.trans (congrArg not (a.asserts_toValue V))

namespace Query

theorem allAssert_toValues (V : Value → Bool) (qs : List Query) :
    allAssert V (toValues qs) = qs.all fun q => q.toValue.asserts V := by
  induction qs with
  | nil => rfl
  | cons q qs ih => simp only [toValues, allAssert, List.all_cons, ih]

theorem anyAsserts_toValues (V : Value → Bool) (qs : List Query) :
    anyAsserts V (toValues qs) = qs.any fun q => q.toValue.asserts V := by
  induction qs with
  | nil => rfl
  | cons q qs ih => simp only [toValues, anyAsserts, List.any_cons, ih]

/-- A conjunction of queries is true if all of them are, however many there are. -/
theorem asserts_join_every (V : Value → Bool) (qs : List Query) :
    (join .every qs).toValue.asserts V = qs.all fun q => q.toValue.asserts V := by
  match qs with
  | [] => simp [join, toValue, Value.asserts]
  | [q] => simp [join]
  | q₁ :: q₂ :: qs =>
      simp only [join, toValue, Junction.word, Value.single, Value.asserts]
      exact allAssert_toValues V _

/-- A disjunction of queries is true if one of them is, unless there is none: that is no
constraint. -/
theorem asserts_join_any (V : Value → Bool) {qs : List Query} (h : qs ≠ []) :
    (join .any qs).toValue.asserts V = qs.any fun q => q.toValue.asserts V := by
  match qs with
  | [] => exact absurd rfl h
  | [q] => simp [join]
  | q₁ :: q₂ :: qs =>
      simp only [join, toValue, Junction.word, Value.single, Value.asserts]
      exact anyAsserts_toValues V _

/-- Joining queries that all ask for something asks for something, unless there is none. -/
theorem isEmpty_join (j : Junction) {qs : List Query} (h : ∀ q ∈ qs, q.isEmpty = false) :
    (join j qs).isEmpty = qs.isEmpty := by
  match qs with
  | [] => rfl
  | [q] => exact h q List.mem_cons_self
  | q₁ :: q₂ :: qs => rfl

end Query

/-! ## The meaning of conditions -/

/-- The name under which an exact filter looks for a path: the raw sub-field of a text field, and
the path itself for all else. -/
def Index.filterName (index : Index) (path : String) : String :=
  match fieldAt? index.fields (Text.dotted path) with
  | some f => if f.isText then path ++ Index.rawSuffix else path
  | none => path

theorem Index.exactName_eq_ok {index : Index} {path field : String}
    (h : index.exactName path = .ok field) : field = index.filterName path := by
  unfold Index.exactName Index.fieldAt at h
  unfold Index.filterName
  cases hf : fieldAt? index.fields (Text.dotted path) with
  | none => simp [hf] at h
  | some f =>
      simp only [hf, ok_bind, pure_eq_ok, Except.ok.injEq] at h
      exact h.symm

/-- The values that a leaf compares with, none where there are none to go through. -/
def Value.itemsD (values : Value) : List Value :=
  match values.items with
  | .ok items => items
  | .error _ => []

theorem Value.items_eq_ok {values : Value} {items : List Value} (h : values.items = .ok items) :
    items = values.itemsD := by
  rw [Value.itemsD, h]

namespace Leaf

/-- The atom that a leaf is about. A leaf and its negation are about the same atom. -/
def atom (index : Index) : Leaf → Atom
  | .identifier id => .ids id
  | .search query => .queryString query
  | .equal path value => .term (index.filterName path) value
  | .notEqual path value => .term (index.filterName path) value
  | .compare c path value => .range (index.filterName path) c value
  | .isIn path values => .terms (index.filterName path) values.itemsD
  | .notIn path values => .terms (index.filterName path) values.itemsD
  | .near path latitude longitude distance =>
    .geoDistance (index.filterName path) latitude longitude distance
  | .within path north east south west =>
    .geoBoundingBox (index.filterName path) north east south west

/-- Whether a leaf asks for its atom to be false. -/
def negative : Leaf → Bool
  | .notEqual _ _ => true
  | .notIn _ _ => true
  | _ => false

/-- Whether a leaf is true, given which written atoms are. -/
def holds (index : Index) (V : Value → Bool) (leaf : Leaf) : Bool :=
  if leaf.negative then !V (leaf.atom index).toValue else V (leaf.atom index).toValue

/-- The clause of a leaf is true exactly when the leaf is. -/
theorem holds_compile {index : Index} (V : Value → Bool) {leaf : Leaf} {c : Clause}
    (h : leaf.compile index = .ok c) : c.holds V = leaf.holds index V := by
  cases leaf with
  | identifier _ | search _ =>
      have hinj := Except.ok.inj h
      subst hinj
      rfl
  | equal path _ | notEqual path _ | compare _ path _ | near path _ _ _ | within path _ _ _ _ =>
      obtain ⟨field, hf, hc⟩ := bind_eq_ok.mp h
      have hinj := Except.ok.inj hc
      subst hinj
      rw [Index.exactName_eq_ok hf]
      rfl
  | isIn path values | notIn path values =>
      obtain ⟨field, hf, hrest⟩ := bind_eq_ok.mp h
      obtain ⟨items, hi, hc⟩ := bind_eq_ok.mp hrest
      have hinj := Except.ok.inj hc
      subst hinj
      rw [Index.exactName_eq_ok hf, Value.items_eq_ok hi]
      rfl

/-- A leaf compiles under a kind only if it counts as some leaf of that kind. -/
theorem readAs_of_compileAs {index : Index} {kind : ConditionKind} {leaf : Leaf} {c : Clause}
    (h : leaf.compileAs index kind = .ok c) :
    ∃ read, leaf.readAs kind = .ok read ∧ read.compile index = .ok c := by
  unfold compileAs at h
  split at h
  next read hr => exact ⟨read, hr, h⟩
  next => cases h
  next path _ =>
    obtain ⟨_, -, hc⟩ := bind_eq_ok.mp h
    cases hc

end Leaf

namespace Condition

mutual

/-- Whether there is a leaf anywhere in the tree. -/
def hasLeaf : Condition → Bool
  | .leaf _ => true
  | .all conditions => anyHasLeaf conditions
  | .any conditions => anyHasLeaf conditions
  | .named _ _ c => c.hasLeaf
  | .unsupported _ => true

def anyHasLeaf : List Condition → Bool
  | [] => false
  | c :: rest => c.hasLeaf || anyHasLeaf rest

end

mutual

/-- Whether no combinator anywhere in the tree is empty. -/
def filled : Condition → Bool
  | .leaf _ => true
  | .all conditions => !conditions.isEmpty && allFilled conditions
  | .any conditions => !conditions.isEmpty && allFilled conditions
  | .named _ _ c => c.filled
  | .unsupported _ => true

def allFilled : List Condition → Bool
  | [] => true
  | c :: rest => c.filled && allFilled rest

end

section
variable (index : Index) (V : Value → Bool) (counts : Condition → Bool)

mutual

/-- Whether a condition that is also of further kinds is true, when of the children of a combinator
only those are looked at that `counts` picks. -/
def holdsAs (further : List ConditionKind) : Condition → Bool
  | .leaf l =>
    match l.readAs (.deciding l.kind further) with
    | .ok read => read.holds index V
    | .error _ => false
  | .all conditions => allHold conditions
  | .any conditions => if .all ∈ further then allHold conditions else anyHolds conditions
  | .named _ more c => c.holdsAs (more ++ further)
  | .unsupported _ => false

def allHold : List Condition → Bool
  | [] => true
  | c :: rest => (!counts c || c.holdsAs []) && allHold rest

def anyHolds : List Condition → Bool
  | [] => false
  | c :: rest => (counts c && c.holdsAs []) || anyHolds rest

end

/-- The conjunction or the disjunction of the conditions that `counts` picks. -/
def joined (junction : Junction) (conditions : List Condition) : Bool :=
  match junction with
  | .every => allHold index V counts conditions
  | .any => anyHolds index V counts conditions

end

/-- The meaning of a list of conditions: children without a leaf are passed over, and a list
without any leaf is no constraint. -/
def meaning (index : Index) (V : Value → Bool) (junction : Junction)
    (conditions : List Condition) : Bool :=
  !anyHasLeaf conditions || joined index V hasLeaf junction conditions

/-- The ordinary Boolean meaning of a list of conditions: every child counts. -/
def plainMeaning (index : Index) (V : Value → Bool) (junction : Junction)
    (conditions : List Condition) : Bool :=
  joined index V (fun _ => true) junction conditions

/-! ## Compiling keeps the meaning -/

/-- The queries of a list of conditions, of which none is empty, say what the conditions say. -/
structure Agrees (index : Index) (V : Value → Bool) (conditions : List Condition)
    (qs : List Query) : Prop where
  constrain : ∀ q ∈ qs, q.isEmpty = false
  isEmpty : qs.isEmpty = !anyHasLeaf conditions
  all : (qs.all fun q => q.toValue.asserts V) = allHold index V hasLeaf conditions
  any : (qs.any fun q => q.toValue.asserts V) = anyHolds index V hasLeaf conditions

namespace Agrees
variable {index : Index} {V : Value → Bool} {conditions : List Condition} {qs : List Query}

theorem isEmpty_join (h : Agrees index V conditions qs) (j : Junction) :
    (Query.join j qs).isEmpty = !anyHasLeaf conditions :=
  (Query.isEmpty_join j h.constrain).trans h.isEmpty

theorem ne_nil (h : Agrees index V conditions qs) (hl : anyHasLeaf conditions = true) :
    qs ≠ [] := by
  intro hn
  have he := h.isEmpty
  rw [hn, hl] at he
  cases he

theorem asserts_join (h : Agrees index V conditions qs) (j : Junction)
    (hl : anyHasLeaf conditions = true) :
    (Query.join j qs).toValue.asserts V = joined index V hasLeaf j conditions := by
  cases j with
  | every => rw [Query.asserts_join_every, h.all, joined]
  | any => rw [Query.asserts_join_any V (h.ne_nil hl), h.any, joined]

end Agrees

-- The induction is on the tree; a list of children carries what the join of its queries needs.
mutual

theorem compileAs_agrees (index : Index) (V : Value → Bool) : (c : Condition) →
    (further : List ConditionKind) → (q : Query) → c.compileAs index further = .ok q →
    q.isEmpty = !c.hasLeaf ∧
      (c.hasLeaf = true → q.toValue.asserts V = c.holdsAs index V hasLeaf further)
  | .leaf l, further, q, h => by
      obtain ⟨clause, hc, hq⟩ := bind_eq_ok.mp h
      have hinj := Except.ok.inj hq
      subst hinj
      obtain ⟨read, hr, hread⟩ := l.readAs_of_compileAs hc
      refine ⟨rfl, fun _ => ?_⟩
      simp only [holdsAs, hr]
      exact (clause.asserts_toValue V).trans (Leaf.holds_compile V hread)
  | .all conditions, further, q, h => by
      obtain ⟨qs, hqs, hq⟩ := bind_eq_ok.mp h
      have hinj := Except.ok.inj hq
      subst hinj
      have ih := compileEach_agrees index V conditions qs hqs
      exact ⟨ih.isEmpty_join .every, fun hl => ih.asserts_join .every hl⟩
  | .any conditions, further, q, h => by
      obtain ⟨qs, hqs, hq⟩ := bind_eq_ok.mp h
      have hinj := Except.ok.inj hq
      subst hinj
      have ih := compileEach_agrees index V conditions qs hqs
      refine ⟨ih.isEmpty_join _, fun hl => ?_⟩
      rw [ih.asserts_join _ hl, holdsAs]
      split <;> rfl
  | .named className more c, further, q, h =>
      compileAs_agrees index V c (more ++ further) q (compileAs_named_eq_ok.mp h)
  | .unsupported className, further, q, h => by cases h

theorem compileEach_agrees (index : Index) (V : Value → Bool) : (conditions : List Condition) →
    (qs : List Query) → compileEach index conditions = .ok qs → Agrees index V conditions qs
  | [], qs, h => by
      have hinj := Except.ok.inj h
      subst hinj
      exact ⟨by simp, rfl, rfl, rfl⟩
  | c :: rest, kept, h => by
      obtain ⟨q, hq, hrest⟩ := bind_eq_ok.mp h
      obtain ⟨qs, hqs, hkept⟩ := bind_eq_ok.mp hrest
      have hinj := Except.ok.inj hkept
      subst hinj
      obtain ⟨hempty, hmeans⟩ := compileAs_agrees index V c [] q hq
      have ih := compileEach_agrees index V rest qs hqs
      cases hl : c.hasLeaf with
      | false =>
          rw [hl, Bool.not_false] at hempty
          rw [if_pos hempty]
          refine ⟨ih.constrain, ?_, ?_, ?_⟩
          · rw [ih.isEmpty, anyHasLeaf, hl, Bool.false_or]
          · rw [ih.all, allHold, hl, Bool.not_false, Bool.true_or, Bool.true_and]
          · rw [ih.any, anyHolds, hl, Bool.false_and, Bool.false_or]
      | true =>
          rw [hl, Bool.not_true] at hempty
          rw [if_neg (by rw [hempty]; decide)]
          refine ⟨?_, ?_, ?_, ?_⟩
          · exact List.forall_mem_cons.mpr ⟨hempty, ih.constrain⟩
          · rw [anyHasLeaf, hl, Bool.true_or]
            rfl
          · rw [List.all_cons, ih.all, hmeans hl, allHold, hl, Bool.not_true, Bool.false_or]
          · rw [List.any_cons, ih.any, hmeans hl, anyHolds, hl, Bool.true_and]

end

/-! ## Trees without empty combinators -/

mutual

theorem hasLeaf_of_filled : (c : Condition) → c.filled = true → c.hasLeaf = true
  | .leaf _, _ => rfl
  | .all conditions, h => by
      obtain ⟨hne, hall⟩ := Bool.and_eq_true_iff.mp h
      exact anyHasLeaf_of_allFilled conditions hne hall
  | .any conditions, h => by
      obtain ⟨hne, hall⟩ := Bool.and_eq_true_iff.mp h
      exact anyHasLeaf_of_allFilled conditions hne hall
  | .named _ _ c, h => hasLeaf_of_filled c h
  | .unsupported _, _ => rfl

theorem anyHasLeaf_of_allFilled : (conditions : List Condition) →
    (!conditions.isEmpty) = true → allFilled conditions = true → anyHasLeaf conditions = true
  | [], hne, _ => by cases hne
  | c :: rest, _, h => by
      obtain ⟨hc, -⟩ := Bool.and_eq_true_iff.mp h
      rw [anyHasLeaf, hasLeaf_of_filled c hc, Bool.true_or]

end

-- Where no combinator is empty every child has a leaf, so it makes no odds which ones count.
mutual

theorem holdsAs_of_filled (index : Index) (V : Value → Bool) : (c : Condition) →
    (further : List ConditionKind) → c.filled = true →
    c.holdsAs index V hasLeaf further = c.holdsAs index V (fun _ => true) further
  | .leaf _, _, _ => rfl
  | .all conditions, _, h => by
      obtain ⟨-, hall⟩ := Bool.and_eq_true_iff.mp h
      exact (hold_of_allFilled index V conditions hall).1
  | .any conditions, further, h => by
      obtain ⟨-, hall⟩ := Bool.and_eq_true_iff.mp h
      obtain ⟨hevery, hsome⟩ := hold_of_allFilled index V conditions hall
      rw [holdsAs, holdsAs, hevery, hsome]
  | .named _ more c, further, h => holdsAs_of_filled index V c (more ++ further) h
  | .unsupported _, _, _ => rfl

theorem hold_of_allFilled (index : Index) (V : Value → Bool) : (conditions : List Condition) →
    allFilled conditions = true →
    allHold index V hasLeaf conditions = allHold index V (fun _ => true) conditions ∧
      anyHolds index V hasLeaf conditions = anyHolds index V (fun _ => true) conditions
  | [], _ => ⟨rfl, rfl⟩
  | c :: rest, h => by
      obtain ⟨hc, hrest⟩ := Bool.and_eq_true_iff.mp h
      obtain ⟨hevery, hsome⟩ := hold_of_allFilled index V rest hrest
      have hl := hasLeaf_of_filled c hc
      have hh := holdsAs_of_filled index V c [] hc
      constructor
      · rw [allHold, allHold, hl, hh, hevery]
      · rw [anyHolds, anyHolds, hl, hh, hsome]

end

/-- Without an empty combinator the meaning is the ordinary one; a list of alternatives must not be
empty either. -/
theorem meaning_eq_plainMeaning (index : Index) (V : Value → Bool) {junction : Junction}
    {conditions : List Condition} (hf : allFilled conditions = true)
    (hne : junction = .any → conditions ≠ []) :
    meaning index V junction conditions = plainMeaning index V junction conditions := by
  obtain ⟨hevery, hsome⟩ := hold_of_allFilled index V conditions hf
  have hjoined : joined index V hasLeaf junction conditions =
      plainMeaning index V junction conditions := by
    cases junction with
    | every => exact hevery
    | any => exact hsome
  rw [meaning, hjoined]
  cases conditions with
  | nil =>
      cases junction with
      | every => rfl
      | any => exact absurd rfl (hne rfl)
  | cons c rest =>
      have hl := anyHasLeaf_of_allFilled (c :: rest) rfl hf
      rw [hl, Bool.not_true, Bool.false_or]

end Condition

/-- A compiled query is true exactly when the conditions are, whatever the truth of the atoms; and
where no combinator is empty that is the ordinary Boolean meaning of the tree. -/
theorem compile_keeps_meaning {index : Index} {conditions : List Condition} {junction : Junction}
    {q : Query} (h : compile index conditions junction = .ok q) (V : Value → Bool) :
    q.toValue.asserts V = Condition.meaning index V junction conditions ∧
      (Condition.allFilled conditions = true → (junction = .any → conditions ≠ []) →
        q.toValue.asserts V = Condition.plainMeaning index V junction conditions) := by
  obtain ⟨qs, hqs, hq⟩ := bind_eq_ok.mp h
  have hinj := Except.ok.inj hq
  subst hinj
  have hagrees := Condition.compileEach_agrees index V conditions qs hqs
  have hmeaning : (Query.join junction qs).toValue.asserts V =
      Condition.meaning index V junction conditions := by
    rw [Condition.meaning]
    cases hl : Condition.anyHasLeaf conditions with
    | true =>
        rw [hagrees.asserts_join junction hl, Bool.not_true, Bool.false_or]
    | false =>
        have hnil : qs = [] := List.isEmpty_iff.mp (by rw [hagrees.isEmpty, hl]; rfl)
        rw [hnil, Bool.not_false, Bool.true_or]
        simp [Query.join, Query.toValue, Value.asserts]
  refine ⟨hmeaning, fun hf hne => ?_⟩
  rw [hmeaning, Condition.meaning_eq_plainMeaning index V hf hne]

namespace Sample

/-- Either untitled without an owner of a given name, or found by a text. -/
def untitledOrFound : List Condition :=
  [.all [.leaf (.equal "title" (.text "")), .leaf (.notIn "owner.name" (.list [.text "Kim"]))],
    .any [.leaf (.search (.text "lake"))]]

def untitledOrFoundQuery : Query :=
  .group .any [
    .group .every [
      .clause (.test (.term "title.raw" (.text ""))),
      .clause (.excluded (.terms "owner.name.raw" [.text "Kim"]))],
    .clause (.required (.queryString (.text "lake")))]

/-- Only tests for a single value are true. -/
def onlyTerms : Value → Bool
  | .object [("term", _)] => true
  | _ => false

theorem untitledOrFound_keeps_meaning :
    compile places untitledOrFound .any = .ok untitledOrFoundQuery ∧
      untitledOrFoundQuery.toValue.asserts onlyTerms =
        Condition.meaning places onlyTerms .any untitledOrFound ∧
      Condition.allFilled untitledOrFound = true ∧
      (Junction.any = .any → untitledOrFound ≠ []) ∧
      untitledOrFoundQuery.toValue.asserts onlyTerms =
        Condition.plainMeaning places onlyTerms .any untitledOrFound := by
  have hc : compile places untitledOrFound .any = .ok untitledOrFoundQuery := rfl
  have hne : untitledOrFound ≠ [] := List.cons_ne_nil _ _
  obtain ⟨hmeaning, hplain⟩ := compile_keeps_meaning hc onlyTerms
  exact ⟨hc, hmeaning, rfl, fun _ => hne, hplain rfl fun _ => hne⟩

/-- Alternatives of which none has a leaf are no constraint, although none of them is true. -/
example : compile places [.any [], .all [.any []]] .any = .ok .empty ∧
    Query.empty.toValue.asserts (fun _ => false) = true := ⟨rfl, rfl⟩

end Sample

end DocSearch
