import DocSearch.Proofs.Redundancy
import DocSearch.Proofs.Unambiguous

/-!
# Canonical queries

A written query is canonical if all of its groups are proper: a group joins at least two queries in
one way, none of them is empty, and they are canonical again. What is no group is a fragment.
Compiling gives the empty query or a canonical one, and the fragments of the query, from left to
right, are the clauses of the leaves of the conditions in the order in which the leaves stand.

A clause may itself be an object under `bool`, namely that of a required or an excluded atom. It is
told apart from a group by the list that every group holds.
-/

namespace DocSearch

open Fallible

/-! ## Groups and fragments -/

/-- Whether a written query is a group: under `bool` it holds a list, whatever else it holds. -/
def Value.isGroup : Value → Bool
  | .object members =>
    match members.lookup "bool" with
    | some (.object parts) => parts.any fun
        | (_, .list _) => true
        | _ => false
    | _ => false
  | _ => false

/-- A fragment, or a group of two canonical queries at least that are joined in one way. -/
inductive Value.Canonical : Value → Prop
  | fragment {v : Value} : v.isGroup = false → v ≠ .object [] → Canonical v
  | group {word : String} {members : List Value} : word = "must" ∨ word = "should" →
      2 ≤ members.length → (∀ m ∈ members, Canonical m) →
      Canonical (.object [("bool", .object [(word, .list members)])])

mutual

/-- The fragments of a written query from left to right. -/
def Value.fragments : Value → List Value
  | .object [] => []
  | .object [("bool", .object [(_, .list members)])] => fragmentsEach members
  | fragment => [fragment]

def fragmentsEach : List Value → List Value
  | [] => []
  | v :: rest => v.fragments ++ fragmentsEach rest

end

namespace Value

theorem fragments_of_not_group {v : Value} (hgroup : v.isGroup = false) (hempty : v ≠ .object []) :
    v.fragments = [v] := by
  unfold fragments
  split
  · exact absurd rfl hempty
  · cases hgroup
  · rfl

/-- A canonical query is not empty, and holds a fragment. -/
theorem Canonical.fragments_ne_nil {v : Value} (h : v.Canonical) : v.fragments ≠ [] := by
  induction h with
  | fragment hgroup hempty =>
      rw [fragments_of_not_group hgroup hempty]
      exact List.cons_ne_nil _ _
  | @group word members _ hlength _ ih =>
      rw [fragments]
      cases members with
      | nil => simp at hlength
      | cons first rest =>
          rw [fragmentsEach]
          exact List.append_ne_nil_of_left_ne_nil (ih first List.mem_cons_self) _

theorem Canonical.ne_empty {v : Value} (h : v.Canonical) : v ≠ .object [] := by
  rintro rfl
  exact h.fragments_ne_nil (by rw [fragments])

theorem Canonical.fragment_or_group {v : Value} (h : v.Canonical) :
    v.fragments = [v] ∨ ∃ parts, v = .single "bool" parts := by
  cases h with
  | fragment hgroup hempty => exact .inl (fragments_of_not_group hgroup hempty)
  | group _ _ _ => exact .inr ⟨_, rfl⟩

end Value

theorem Atom.isGroup_toValue (a : Atom) : a.toValue.isGroup = false := by
  obtain ⟨body, ha⟩ := a.exists_toValue_eq
  have hword : [(a.word, Value.object body)].lookup "bool" = none := by
    rw [Keyed.lookup_cons_eq, if_neg a.word_ne_bool.symm, List.lookup_nil]
  rw [ha, Value.single, Value.isGroup, hword]

namespace Clause

theorem isGroup_toValue (c : Clause) : c.toValue.isGroup = false := by
  cases c with
  | test a => exact a.isGroup_toValue
  | required a | excluded a =>
      obtain ⟨body, ha⟩ := a.exists_toValue_eq
      rw [toValue, ha]
      rfl

theorem toValue_ne_empty (c : Clause) : c.toValue ≠ .object [] := by
  cases c with
  | test a =>
      obtain ⟨body, ha⟩ := a.exists_toValue_eq
      rw [toValue, ha]
      simp [Value.single]
  | required _ | excluded _ => simp [toValue, Value.single]

theorem canonical_toValue (c : Clause) : c.toValue.Canonical :=
  .fragment c.isGroup_toValue c.toValue_ne_empty

theorem fragments_toValue (c : Clause) : c.toValue.fragments = [c.toValue] :=
  Value.fragments_of_not_group c.isGroup_toValue c.toValue_ne_empty

end Clause

namespace Query

theorem isEmpty_of_canonical {q : Query} (h : q.toValue.Canonical) : q.isEmpty = false := by
  cases q with
  | empty => exact absurd rfl h.ne_empty
  | matchAll | clause _ | group _ _ => rfl

theorem length_toValues (qs : List Query) : (toValues qs).length = qs.length := by
  induction qs with
  | nil => rfl
  | cons q rest ih => rw [toValues, List.length_cons, List.length_cons, ih]

theorem mem_toValues {qs : List Query} {v : Value} : v ∈ toValues qs ↔ ∃ q ∈ qs, q.toValue = v := by
  induction qs with
  | nil => simp [toValues]
  | cons q rest ih => simp [toValues, ih, eq_comm]

theorem fragmentsEach_toValues (qs : List Query) :
    fragmentsEach (toValues qs) = qs.flatMap fun q => q.toValue.fragments := by
  induction qs with
  | nil => rfl
  | cons q rest ih => rw [toValues, fragmentsEach, List.flatMap_cons, ih]

/-- Joining queries keeps their fragments, however many queries there are. -/
theorem fragments_join (j : Junction) (qs : List Query) :
    (join j qs).toValue.fragments = qs.flatMap fun q => q.toValue.fragments := by
  match qs with
  | [] => rw [join, toValue, Value.fragments, List.flatMap_nil]
  | [q] => rw [join, List.flatMap_singleton]
  | q₁ :: q₂ :: rest =>
      have hgroup : join j (q₁ :: q₂ :: rest) = .group j (q₁ :: q₂ :: rest) := rfl
      rw [hgroup, toValue, Value.single, Value.single, Value.fragments, fragmentsEach_toValues]

theorem canonical_join (j : Junction) {qs : List Query} (hne : qs ≠ [])
    (h : ∀ q ∈ qs, q.toValue.Canonical) : (join j qs).toValue.Canonical := by
  match qs with
  | [] => exact absurd rfl hne
  | [q] => exact h q List.mem_cons_self
  | q₁ :: q₂ :: rest =>
      have hword : j.word = "must" ∨ j.word = "should" := by
        cases j with
        | every => exact .inl rfl
        | any => exact .inr rfl
      have hlength : 2 ≤ (toValues (q₁ :: q₂ :: rest)).length := by
        rw [length_toValues, List.length_cons, List.length_cons]
        omega
      refine .group hword hlength fun m hm => ?_
      obtain ⟨q, hq, rfl⟩ := mem_toValues.mp hm
      exact h q hq

end Query

/-! ## Leaves in order -/

namespace Condition

mutual

/-- The leaves of a condition under classes of the caller's, depth first and from left to right.
Each of them keeps the classes that it was made under. -/
def leaves (classes : List (String × List ConditionKind)) : Condition → List Condition
  | .leaf l => [.under classes (.leaf l)]
  | .all conditions => leavesEach conditions
  | .any conditions => leavesEach conditions
  | .named className further c => c.leaves (classes ++ [(className, further)])
  | .unsupported className => [.under classes (.unsupported className)]

def leavesEach : List Condition → List Condition
  | [] => []
  | c :: rest => c.leaves [] ++ leavesEach rest

end

end Condition

/-! ## Compiling keeps the leaves -/

/-- The queries of some conditions: they are canonical, and their fragments are the clauses of the
leaves in order. -/
structure SpellOut (index : Index) (leaves : List Condition) (qs : List Query) : Prop where
  canonical : ∀ q ∈ qs, q.toValue.Canonical
  clauses : ∃ cs : List Clause,
    List.Forall₂ (fun leaf c => leaf.compile index = .ok (.clause c)) leaves cs ∧
    (qs.flatMap fun q => q.toValue.fragments) = cs.map Clause.toValue

namespace SpellOut

variable {index : Index} {leaves further : List Condition} {qs rs : List Query}

theorem nil (index : Index) : SpellOut index [] [] where
  canonical := by simp
  clauses := ⟨[], .nil, rfl⟩

theorem clause {leaf : Condition} {c : Clause} (h : leaf.compile index = .ok (.clause c)) :
    SpellOut index [leaf] [.clause c] where
  canonical q hq := by
    rw [List.mem_singleton.mp hq]
    exact c.canonical_toValue
  clauses := by
    refine ⟨[c], .cons h .nil, ?_⟩
    rw [List.flatMap_singleton, Query.toValue, c.fragments_toValue, List.map_singleton]

theorem append (h : SpellOut index leaves qs) (hfurther : SpellOut index further rs) :
    SpellOut index (leaves ++ further) (qs ++ rs) where
  canonical q hq := (List.mem_append.mp hq).elim (h.canonical q) (hfurther.canonical q)
  clauses := by
    obtain ⟨cs, hcs, hqs⟩ := h.clauses
    obtain ⟨ds, hds, hrs⟩ := hfurther.clauses
    refine ⟨cs ++ ds, List.rel_append hcs hds, ?_⟩
    rw [List.flatMap_append, hqs, hrs, List.map_append]

theorem eq_nil_iff (h : SpellOut index leaves qs) : qs = [] ↔ leaves = [] := by
  obtain ⟨cs, hcs, hqs⟩ := h.clauses
  constructor
  · rintro rfl
    have hnone : cs = [] := List.map_eq_nil_iff.mp hqs.symm
    rw [hnone] at hcs
    exact List.forall₂_nil_right_iff.mp hcs
  · rintro rfl
    have hnone : cs = [] := List.forall₂_nil_left_iff.mp hcs
    rw [hnone, List.map_nil, List.flatMap_eq_nil_iff] at hqs
    -- a canonical query would leave a fragment
    exact List.eq_nil_iff_forall_not_mem.mpr fun q hq =>
      (h.canonical q hq).fragments_ne_nil (hqs q hq)

/-- A join takes the place of the queries that it joins; where there are none it is left out. -/
theorem join (h : SpellOut index leaves qs) (j : Junction) :
    SpellOut index leaves (if (Query.join j qs).isEmpty then [] else [Query.join j qs]) := by
  by_cases hqs : qs = []
  · subst hqs
    exact h
  · have hjoined : (Query.join j qs).toValue.Canonical := Query.canonical_join j hqs h.canonical
    rw [Query.isEmpty_of_canonical hjoined, if_neg Bool.false_ne_true]
    refine ⟨fun q hq => ?_, ?_⟩
    · rw [List.mem_singleton.mp hq]
      exact hjoined
    · rw [List.flatMap_singleton, Query.fragments_join]
      exact h.clauses

end SpellOut

section
variable {index : Index}

/-- A combinator spells out what its children spell out. -/
theorem Combinator.spellOut_around (k : Combinator) {children : List Condition} {qs : List Query}
    (h : compileEach index [k.around children] = .ok qs) {leaves : List Condition}
    (hchildren : ∀ rs, compileEach index children = .ok rs → SpellOut index leaves rs) :
    SpellOut index leaves qs := by
  obtain ⟨j, hj⟩ := k.exists_compileAs_around index
  rw [compileEach_singleton, hj] at h
  obtain ⟨q, hq, hqs⟩ := bind_eq_ok.mp h
  obtain ⟨rs, hrs, hjoin⟩ := bind_eq_ok.mp hq
  obtain rfl := Except.ok.inj hjoin
  obtain rfl := Except.ok.inj hqs
  exact (hchildren rs hrs).join j

-- The induction is on the tree, with the classes around it as they have been met so far.
mutual

theorem Condition.spellOut : (c : Condition) → (classes : List (String × List ConditionKind)) →
    {qs : List Query} → compileEach index [c.under classes] = .ok qs →
    SpellOut index (c.leaves classes) qs
  | .leaf l, classes, qs, h => by
      rw [compileEach_singleton] at h
      obtain ⟨q, hq, hqs⟩ := bind_eq_ok.mp h
      obtain ⟨kinds, hkinds⟩ := Condition.exists_compileAs_under_eq_ok index classes []
      have hleaf : (Condition.leaf l).compileAs index kinds = .ok q := hkinds _ _ hq
      obtain ⟨c, -, hc⟩ := bind_eq_ok.mp hleaf
      obtain rfl := Except.ok.inj hc
      obtain rfl := Except.ok.inj hqs
      exact .clause hq
  | .all conditions, classes, qs, h =>
      Combinator.spellOut_around ⟨classes, .every⟩ h fun _ => spellOutEach conditions
  | .any conditions, classes, qs, h =>
      Combinator.spellOut_around ⟨classes, .any⟩ h fun _ => spellOutEach conditions
  | .named className further c, classes, qs, h => by
      rw [← Condition.under_append] at h
      exact c.spellOut (classes ++ [(className, further)]) h
  | .unsupported className, classes, qs, h => by
      rw [compileEach_singleton] at h
      obtain ⟨q, hq, -⟩ := bind_eq_ok.mp h
      obtain ⟨kinds, hkinds⟩ := Condition.exists_compileAs_under_eq_ok index classes []
      have hnone : (Condition.unsupported className).compileAs index kinds = .ok q :=
        hkinds _ _ hq
      cases hnone

theorem spellOutEach : (conditions : List Condition) → {qs : List Query} →
    compileEach index conditions = .ok qs →
    SpellOut index (Condition.leavesEach conditions) qs
  | [], qs, h => by
      obtain rfl := Except.ok.inj h
      exact .nil index
  | c :: rest, qs, h => by
      have hsplit : compileEach index ([c] ++ rest) = .ok qs := h
      rw [compileEach_append] at hsplit
      obtain ⟨rs, hrs, hrest⟩ := bind_eq_ok.mp hsplit
      obtain ⟨ss, hss, hall⟩ := bind_eq_ok.mp hrest
      obtain rfl := Except.ok.inj hall
      exact (c.spellOut [] hrs).append (spellOutEach rest hss)

end
end

/-! ## The compiled query -/

section
variable {index : Index} {conditions : List Condition} {junction : Junction} {q : Query}

/-- The query of a list of conditions joins what the conditions spell out. -/
theorem exists_spellOut (h : compile index conditions junction = .ok q) :
    ∃ qs, SpellOut index (Condition.leavesEach conditions) qs ∧ q = .join junction qs := by
  obtain ⟨qs, hqs, hq⟩ := bind_eq_ok.mp h
  exact ⟨qs, spellOutEach conditions hqs, (Except.ok.inj hq).symm⟩

theorem eq_empty_of_leafless (h : compile index conditions junction = .ok q)
    (hnone : Condition.leavesEach conditions = []) : q = .empty := by
  obtain ⟨qs, hspelled, rfl⟩ := exists_spellOut h
  rw [hspelled.eq_nil_iff.mpr hnone]
  rfl

theorem canonical_of_leaves (h : compile index conditions junction = .ok q)
    (hne : Condition.leavesEach conditions ≠ []) : q.toValue.Canonical := by
  obtain ⟨qs, hspelled, rfl⟩ := exists_spellOut h
  have hsome : qs ≠ [] := fun hnone => hne (hspelled.eq_nil_iff.mp hnone)
  exact Query.canonical_join junction hsome hspelled.canonical

end

/-- Of conditions that compile the query is empty exactly if there is no leaf among them, and is
canonical otherwise. Its fragments are the clauses of the leaves, each once and in order. -/
theorem compiled_query_is_canonical {index : Index} {conditions : List Condition}
    {junction : Junction} {q : Query} (h : compile index conditions junction = .ok q) :
    (q.toValue = .object [] ↔ Condition.leavesEach conditions = []) ∧
    (Condition.leavesEach conditions ≠ [] → q.toValue.Canonical) ∧
    ∃ clauses : List Clause,
      List.Forall₂ (fun leaf c => leaf.compile index = .ok (.clause c))
        (Condition.leavesEach conditions) clauses ∧
      q.toValue.fragments = clauses.map Clause.toValue ∧
      ∀ c ∈ clauses, c.toValue.isGroup = false := by
  have hcanonical := canonical_of_leaves h
  refine ⟨⟨fun hempty => ?_, fun hnone => ?_⟩, hcanonical, ?_⟩
  · by_contra hne
    exact (hcanonical hne).ne_empty hempty
  · rw [eq_empty_of_leafless h hnone, Query.toValue]
  · obtain ⟨qs, hspelled, rfl⟩ := exists_spellOut h
    obtain ⟨clauses, hclauses, hfragments⟩ := hspelled.clauses
    rw [Query.fragments_join]
    exact ⟨clauses, hclauses, hfragments, fun c _ => c.isGroup_toValue⟩

namespace Sample

/-- Conditions with leaves at three depths and a disjunction of nothing. One of the values looks
like a group. -/
def quayside : List Condition :=
  [.any [.any [], .named "Found" [] (.leaf (.search (.text "lake")))],
    .all [.leaf (.notEqual "title" (.single "bool" (.single "must" (.list [])))),
      .any [.leaf (.equal "id" (.text "7")), .all [],
        .leaf (.isIn "tags" (.list [.text "new"]))]]]

def quaysideQuery : Query :=
  .group .every [
    .clause (.required (.queryString (.text "lake"))),
    .group .every [
      .clause (.excluded (.term "title.raw" (.single "bool" (.single "must" (.list []))))),
      .group .any [
        .clause (.test (.term "id" (.text "7"))),
        .clause (.test (.terms "tags" [.text "new"]))]]]

theorem quayside_is_canonical :
    compile places quayside .every = .ok quaysideQuery ∧
      Condition.leavesEach quayside = [
        .named "Found" [] (.leaf (.search (.text "lake"))),
        .leaf (.notEqual "title" (.single "bool" (.single "must" (.list [])))),
        .leaf (.equal "id" (.text "7")),
        .leaf (.isIn "tags" (.list [.text "new"]))] ∧
      quaysideQuery.toValue.Canonical ∧
      ∃ clauses : List Clause,
        List.Forall₂ (fun leaf c => leaf.compile places = .ok (.clause c))
          (Condition.leavesEach quayside) clauses ∧
        quaysideQuery.toValue.fragments = clauses.map Clause.toValue := by
  have hquery : compile places quayside .every = .ok quaysideQuery := rfl
  have hleaves : Condition.leavesEach quayside ≠ [] := List.cons_ne_nil _ _
  obtain ⟨-, hcanonical, clauses, hclauses, hfragments, -⟩ := compiled_query_is_canonical hquery
  exact ⟨hquery, rfl, hcanonical hleaves, clauses, hclauses, hfragments⟩

end Sample

end DocSearch
