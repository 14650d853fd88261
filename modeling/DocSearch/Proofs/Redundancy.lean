import DocSearch.Proofs.Fallible
import DocSearch.Proofs.Meaning
import DocSearch.Proofs.Sample
import Mathlib.Logic.Relation

/-!
# Combinators that can be left out

A combinator around a single condition and a tree without any leaf make no odds: wherever they
stand, a list of conditions with them compiles like the list without them, to the same query or with
the same error. So a list compiles like its tidied form, in which neither is left. Tidying may
cascade, since a parent can be left with a single child; whatever is tidied first, the end is the
same.

Compiling looks at queries where tidying looks at trees. The two meet in what a list of conditions
contributes to the list that it stands in.
-/

namespace DocSearch

open Fallible Relation

/-! ## Combinators and places -/

/-- A condition under classes of the caller's, the outermost first. -/
def Condition.under : List (String × List ConditionKind) → Condition → Condition
  | [], c => c
  | (className, further) :: classes, c => .named className further (c.under classes)

/-- A combinator without its children: the classes of the caller's that it is made under, and the
way it joins. -/
structure Combinator where
  classes : List (String × List ConditionKind) := []
  junction : Junction

/-- The combinator around the given children. -/
def Combinator.around (k : Combinator) (children : List Condition) : Condition :=
  .under k.classes (match k.junction with
    | .every => .all children
    | .any => .any children)

/-- A place in a list of conditions: between two of them, or between two children of a combinator
among them, at any depth. -/
inductive Place where
  | here (before after : List Condition)
  | inside (before : List Condition) (combinator : Combinator) (place : Place)
    (after : List Condition)

namespace Place

/-- The list of conditions that has the given ones at a place. -/
def fill : Place → List Condition → List Condition
  | .here before after, cs => before ++ cs ++ after
  | .inside before k place after, cs => before ++ [k.around (place.fill cs)] ++ after

/-- A place in what stands at a place. -/
def comp : Place → Place → Place
  | .here before after, .here before' after' => .here (before ++ before') (after' ++ after)
  | .here before after, .inside before' k place after' =>
    .inside (before ++ before') k place (after' ++ after)
  | .inside before k place after, inner => .inside before k (place.comp inner) after

theorem fill_comp (outer inner : Place) (cs : List Condition) :
    (outer.comp inner).fill cs = outer.fill (inner.fill cs) := by
  induction outer with
  | here before after =>
      cases inner <;> simp [comp, fill]
  | inside before k place after ih =>
      rw [comp, fill, fill, ih]

end Place

namespace Condition

theorem under_append (classes : List (String × List ConditionKind)) (className : String)
    (further : List ConditionKind) (c : Condition) :
    c.under (classes ++ [(className, further)]) = (named className further c).under classes := by
  induction classes with
  | nil => rfl
  | cons e rest ih =>
      obtain ⟨outer, more⟩ := e
      rw [List.cons_append, under, under, ih]

theorem hasLeaf_under (classes : List (String × List ConditionKind)) (c : Condition) :
    (c.under classes).hasLeaf = c.hasLeaf := by
  induction classes with
  | nil => rfl
  | cons e rest ih =>
      obtain ⟨className, further⟩ := e
      rw [under, hasLeaf, ih]

theorem isForeign_under (classes : List (String × List ConditionKind)) {c : Condition}
    (h : c.isForeign = false) : (c.under classes).isForeign = false := by
  induction classes with
  | nil => exact h
  | cons e rest ih => rw [under, isForeign, ih, Bool.and_false]

/-- The classes that a condition is made under add kinds and nothing else. -/
theorem exists_compileAs_under (index : Index) (classes : List (String × List ConditionKind))
    (further : List ConditionKind) : ∃ kinds, ∀ c : Condition, c.isForeign = false →
    (c.under classes).compileAs index further = c.compileAs index kinds := by
  induction classes generalizing further with
  | nil => exact ⟨further, fun c _ => rfl⟩
  | cons e rest ih =>
      obtain ⟨className, more⟩ := e
      obtain ⟨kinds, hkinds⟩ := ih (more ++ further)
      refine ⟨kinds, fun c hc => ?_⟩
      rw [under, compileAs_named index className more further (isForeign_under rest hc),
        hkinds c hc]

/-- Nothing that cannot be compiled by itself can be compiled under classes. -/
theorem exists_compileAs_under_eq_ok (index : Index)
    (classes : List (String × List ConditionKind)) (further : List ConditionKind) :
    ∃ kinds, ∀ (c : Condition) (q : Query),
      (c.under classes).compileAs index further = .ok q → c.compileAs index kinds = .ok q := by
  induction classes generalizing further with
  | nil => exact ⟨further, fun c q h => h⟩
  | cons e rest ih =>
      obtain ⟨className, more⟩ := e
      obtain ⟨kinds, hkinds⟩ := ih (more ++ further)
      exact ⟨kinds, fun c q h => hkinds c q (compileAs_named_eq_ok.mp h)⟩

end Condition

namespace Combinator

theorem hasLeaf_around (k : Combinator) (children : List Condition) :
    (k.around children).hasLeaf = Condition.anyHasLeaf children := by
  rw [around, Condition.hasLeaf_under]
  cases k.junction <;> rfl

/-- A combinator joins the queries of its children in a way that does not depend on them. -/
theorem exists_compileAs_around (index : Index) (k : Combinator) : ∃ j, ∀ children,
    (k.around children).compileAs index [] =
      (do return .join j (← compileEach index children)) := by
  obtain ⟨kinds, hkinds⟩ := Condition.exists_compileAs_under index k.classes []
  cases hj : k.junction with
  | every =>
      refine ⟨.every, fun children => ?_⟩
      rw [around, hj, hkinds _ rfl, Condition.compileAs]
  | any =>
      refine ⟨if .all ∈ kinds then .every else .any, fun children => ?_⟩
      rw [around, hj, hkinds _ rfl, Condition.compileAs]

end Combinator

/-! ## What a list of conditions contributes -/

section
variable {index : Index}

theorem compileEach_append (xs ys : List Condition) :
    compileEach index (xs ++ ys) =
      (do return (← compileEach index xs) ++ (← compileEach index ys)) := by
  induction xs with
  | nil =>
      rw [List.nil_append, compileEach, ok_bind]
      cases compileEach index ys <;> rfl
  | cons c rest ih =>
      rw [List.cons_append, compileEach, compileEach, ih]
      cases c.compileAs index [] with
      | error e => rfl
      | ok q =>
          cases compileEach index rest with
          | error e => rfl
          | ok qs =>
              cases compileEach index ys with
              | error e => rfl
              | ok rs =>
                  simp only [ok_bind, pure_eq_ok]
                  split <;> rfl

/-- A condition contributes its query, unless that is empty. -/
theorem compileEach_singleton (c : Condition) :
    compileEach index [c] =
      (do
        let q ← c.compileAs index []
        return if q.isEmpty then [] else [q]) := by
  rw [compileEach, compileEach]
  cases c.compileAs index [] <;> rfl

/-- What a combinator contributes depends only on what its children contribute. -/
theorem compileEach_around_congr (k : Combinator) {xs ys : List Condition}
    (h : compileEach index xs = compileEach index ys) :
    compileEach index [k.around xs] = compileEach index [k.around ys] := by
  obtain ⟨j, hj⟩ := k.exists_compileAs_around index
  rw [compileEach_singleton, compileEach_singleton, hj, hj, h]

/-- What a list contributes depends only on what stands at a place in it contributes. -/
theorem Place.compileEach_fill_congr (place : Place) {xs ys : List Condition}
    (h : compileEach index xs = compileEach index ys) :
    compileEach index (place.fill xs) = compileEach index (place.fill ys) := by
  induction place with
  | here before after => simp only [fill, compileEach_append, h]
  | inside before k place after ih =>
      simp only [fill, compileEach_append, compileEach_around_congr k ih]

/-- A combinator over a single child contributes what the child does. -/
theorem compileEach_around_singleton (k : Combinator) (c : Condition) :
    compileEach index [k.around [c]] = compileEach index [c] := by
  obtain ⟨j, hj⟩ := k.exists_compileAs_around index
  rw [compileEach_singleton, hj, compileEach_singleton]
  cases c.compileAs index [] with
  | error e => rfl
  | ok q =>
      simp only [ok_bind, pure_eq_ok]
      cases hq : q.isEmpty with
      | true => rfl
      | false => simp [Query.join, hq]

-- The induction is on the tree: no child of a tree without a leaf has one.
mutual

theorem compileAs_of_leafless : (c : Condition) → (further : List ConditionKind) →
    c.hasLeaf = false → c.compileAs index further = .ok .empty
  | .all conditions, _, h => by
      rw [Condition.compileAs, compileEach_of_leafless conditions h]
      rfl
  | .any conditions, _, h => by
      rw [Condition.compileAs, compileEach_of_leafless conditions h]
      rfl
  | .named _ more c, further, h =>
      Condition.compileAs_named_eq_ok.mpr (compileAs_of_leafless c (more ++ further) h)
  | .leaf _, _, h => by cases h
  | .unsupported _, _, h => by cases h

theorem compileEach_of_leafless : (conditions : List Condition) →
    Condition.anyHasLeaf conditions = false → compileEach index conditions = .ok []
  | [], _ => rfl
  | c :: rest, h => by
      obtain ⟨hc, hrest⟩ := Bool.or_eq_false_iff.mp h
      rw [compileEach, compileAs_of_leafless c [] hc, compileEach_of_leafless rest hrest]
      rfl

end

/-- Lists that contribute the same compile alike. -/
theorem compile_congr {xs ys : List Condition}
    (h : compileEach index xs = compileEach index ys) (junction : Junction) :
    compile index xs junction = compile index ys junction := by
  rw [compile, compile, h]

end

/-! ## Tidying -/

/-- One thing tidied at some place: a tree without a leaf is left out, or a combinator with a single
child gives way to it. -/
inductive Tidies : List Condition → List Condition → Prop
  | drop (place : Place) {c : Condition} : c.hasLeaf = false →
      Tidies (place.fill [c]) (place.fill [])
  | unwrap (place : Place) (k : Combinator) (c : Condition) :
      Tidies (place.fill [k.around [c]]) (place.fill [c])

/-- What is left of a combinator over tidied children. -/
def Combinator.collapse (k : Combinator) : List Condition → List Condition
  | [] => []
  | [c] => [c]
  | children => [k.around children]

mutual

/-- What is left of a condition under classes of the caller's. -/
def Condition.tidy (classes : List (String × List ConditionKind)) : Condition → List Condition
  | .leaf l => [.under classes (.leaf l)]
  | .all conditions => Combinator.collapse ⟨classes, .every⟩ (tidyEach conditions)
  | .any conditions => Combinator.collapse ⟨classes, .any⟩ (tidyEach conditions)
  | .named className further c => c.tidy (classes ++ [(className, further)])
  | .unsupported className => [.under classes (.unsupported className)]

/-- The tidied form of a list of conditions. -/
def tidyEach : List Condition → List Condition
  | [] => []
  | c :: rest => c.tidy [] ++ tidyEach rest

end

mutual

/-- The number of nodes of a tree. -/
def Condition.weight : Condition → Nat
  | .leaf _ => 1
  | .all conditions => weightEach conditions + 1
  | .any conditions => weightEach conditions + 1
  | .named _ _ c => c.weight
  | .unsupported _ => 1

def weightEach : List Condition → Nat
  | [] => 0
  | c :: rest => c.weight + weightEach rest

end

/-! ### Tidying ends -/

theorem weightEach_append (xs ys : List Condition) :
    weightEach (xs ++ ys) = weightEach xs + weightEach ys := by
  induction xs with
  | nil => simp [weightEach]
  | cons c rest ih =>
      rw [List.cons_append, weightEach, weightEach, ih]
      omega

theorem Condition.weight_under (classes : List (String × List ConditionKind)) (c : Condition) :
    (c.under classes).weight = c.weight := by
  induction classes with
  | nil => rfl
  | cons e rest ih =>
      obtain ⟨className, further⟩ := e
      rw [under, weight, ih]

theorem Condition.weight_pos : (c : Condition) → 0 < c.weight
  | .leaf _ => Nat.one_pos
  | .all _ => Nat.succ_pos _
  | .any _ => Nat.succ_pos _
  | .named _ _ c => c.weight_pos
  | .unsupported _ => Nat.one_pos

theorem Combinator.weight_around (k : Combinator) (children : List Condition) :
    (k.around children).weight = weightEach children + 1 := by
  rw [around, Condition.weight_under]
  cases k.junction <;> rfl

theorem Place.weightEach_fill_lt (place : Place) {xs ys : List Condition}
    (h : weightEach xs < weightEach ys) :
    weightEach (place.fill xs) < weightEach (place.fill ys) := by
  induction place with
  | here before after =>
      simp only [fill, weightEach_append]
      omega
  | inside before k place after ih =>
      simp only [fill, weightEach_append, weightEach, k.weight_around]
      omega

theorem Tidies.weightEach_lt {xs ys : List Condition} (h : Tidies xs ys) :
    weightEach ys < weightEach xs := by
  cases h with
  | @drop place c _ =>
      apply place.weightEach_fill_lt
      have hpos := c.weight_pos
      simp only [weightEach]
      omega
  | unwrap place k c =>
      apply place.weightEach_fill_lt
      simp only [weightEach, k.weight_around]
      omega

theorem weightEach_le_of_tidies {xs ys : List Condition} (h : ReflTransGen Tidies xs ys) :
    weightEach ys ≤ weightEach xs := by
  induction h with
  | refl => exact Nat.le_refl _
  | tail _ hstep ih => exact Nat.le_trans (Nat.le_of_lt hstep.weightEach_lt) ih

/-! ### The order of tidying does not matter -/

theorem tidyEach_append (xs ys : List Condition) :
    tidyEach (xs ++ ys) = tidyEach xs ++ tidyEach ys := by
  induction xs with
  | nil => rfl
  | cons c rest ih => rw [List.cons_append, tidyEach, tidyEach, ih, List.append_assoc]

theorem tidyEach_singleton (c : Condition) : tidyEach [c] = c.tidy [] := by
  rw [tidyEach, tidyEach, List.append_nil]

theorem Condition.tidy_under (classes outer : List (String × List ConditionKind)) (c : Condition) :
    (c.under classes).tidy outer = c.tidy (outer ++ classes) := by
  induction classes generalizing outer with
  | nil => rw [under, List.append_nil]
  | cons e rest ih =>
      obtain ⟨className, further⟩ := e
      rw [under, tidy, ih, List.append_assoc, List.singleton_append]

theorem Combinator.tidyEach_around (k : Combinator) (children : List Condition) :
    tidyEach [k.around children] = k.collapse (tidyEach children) := by
  obtain ⟨classes, junction⟩ := k
  rw [tidyEach_singleton, around, Condition.tidy_under, List.nil_append]
  cases junction <;> rfl

theorem Place.tidyEach_fill_congr (place : Place) {xs ys : List Condition}
    (h : tidyEach xs = tidyEach ys) : tidyEach (place.fill xs) = tidyEach (place.fill ys) := by
  induction place with
  | here before after => simp only [fill, tidyEach_append, h]
  | inside before k place after ih => simp only [fill, tidyEach_append, k.tidyEach_around, ih]

mutual

theorem Condition.tidy_of_leafless : (c : Condition) →
    (classes : List (String × List ConditionKind)) → c.hasLeaf = false → c.tidy classes = []
  | .all conditions, _, h => by
      rw [Condition.tidy, tidyEach_of_leafless conditions h]
      rfl
  | .any conditions, _, h => by
      rw [Condition.tidy, tidyEach_of_leafless conditions h]
      rfl
  | .named _ _ c, _, h => c.tidy_of_leafless _ h
  | .leaf _, _, h => by cases h
  | .unsupported _, _, h => by cases h

theorem tidyEach_of_leafless : (conditions : List Condition) →
    Condition.anyHasLeaf conditions = false → tidyEach conditions = []
  | [], _ => rfl
  | c :: rest, h => by
      obtain ⟨hc, hrest⟩ := Bool.or_eq_false_iff.mp h
      rw [tidyEach, c.tidy_of_leafless [] hc, tidyEach_of_leafless rest hrest]
      rfl

end

/-- What is left of a combinator is at most one condition. -/
theorem Combinator.length_collapse_le (k : Combinator) (children : List Condition) :
    (k.collapse children).length ≤ 1 := by
  match children with
  | [] => exact Nat.zero_le 1
  | [_] => exact Nat.le_refl _
  | _ :: _ :: _ => exact Nat.le_refl _

theorem Combinator.collapse_eq_self (k : Combinator) {children : List Condition}
    (h : children.length ≤ 1) : k.collapse children = children := by
  match children with
  | [] => rfl
  | [_] => rfl
  | _ :: _ :: _ => simp at h

theorem Condition.length_tidy_le : (c : Condition) →
    (classes : List (String × List ConditionKind)) → (c.tidy classes).length ≤ 1
  | .leaf _, _ => Nat.le_refl _
  | .all _, _ => Combinator.length_collapse_le _ _
  | .any _, _ => Combinator.length_collapse_le _ _
  | .named _ _ c, _ => c.length_tidy_le _
  | .unsupported _, _ => Nat.le_refl _

theorem Tidies.tidyEach_eq {xs ys : List Condition} (h : Tidies xs ys) :
    tidyEach xs = tidyEach ys := by
  cases h with
  | @drop place c hleafless =>
      apply place.tidyEach_fill_congr
      rw [tidyEach_singleton, c.tidy_of_leafless [] hleafless, tidyEach]
  | unwrap place k c =>
      apply place.tidyEach_fill_congr
      rw [k.tidyEach_around]
      apply k.collapse_eq_self
      rw [tidyEach_singleton]
      exact c.length_tidy_le []

theorem tidyEach_eq_of_tidies {xs ys : List Condition} (h : ReflTransGen Tidies xs ys) :
    tidyEach xs = tidyEach ys := by
  induction h with
  | refl => rfl
  | tail _ hstep ih => exact ih.trans hstep.tidyEach_eq

/-! ### The tidied form is reached -/

theorem Place.tidies_fill (place : Place) {xs ys : List Condition}
    (h : ReflTransGen Tidies xs ys) : ReflTransGen Tidies (place.fill xs) (place.fill ys) := by
  induction h with
  | refl => exact .refl
  | tail _ hstep ih =>
      refine ih.tail ?_
      cases hstep with
      | drop inner hleafless =>
          rw [← place.fill_comp, ← place.fill_comp]
          exact .drop _ hleafless
      | unwrap inner k c =>
          rw [← place.fill_comp, ← place.fill_comp]
          exact .unwrap _ k c

theorem Combinator.tidies_collapse (k : Combinator) (children : List Condition) :
    ReflTransGen Tidies [k.around children] (k.collapse children) := by
  match children with
  | [] => exact .single (.drop (.here [] []) (k.hasLeaf_around []))
  | [c] => exact .single (.unwrap (.here [] []) k c)
  | _ :: _ :: _ => exact .refl

/-- A combinator over children that can be tidied collapses in the end. -/
theorem Combinator.tidies_around (k : Combinator) {children tidied : List Condition}
    (h : ReflTransGen Tidies children tidied) :
    ReflTransGen Tidies [k.around children] (k.collapse tidied) := by
  have hinside := (Place.inside [] k (.here [] []) []).tidies_fill h
  simp only [Place.fill, List.nil_append, List.append_nil] at hinside
  exact hinside.trans (k.tidies_collapse tidied)

mutual

theorem Condition.tidies_tidy : (c : Condition) →
    (classes : List (String × List ConditionKind)) →
    ReflTransGen Tidies [c.under classes] (c.tidy classes)
  | .leaf _, _ => .refl
  | .all conditions, classes =>
      Combinator.tidies_around ⟨classes, .every⟩ (tidies_tidyEach conditions)
  | .any conditions, classes =>
      Combinator.tidies_around ⟨classes, .any⟩ (tidies_tidyEach conditions)
  | .named className further c, classes => by
      rw [← Condition.under_append]
      exact c.tidies_tidy _
  | .unsupported _, _ => .refl

theorem tidies_tidyEach : (conditions : List Condition) →
    ReflTransGen Tidies conditions (tidyEach conditions)
  | [] => .refl
  | c :: rest => by
      have hfirst := (Place.here [] rest).tidies_fill (c.tidies_tidy [])
      have hrest := (Place.here (c.tidy []) []).tidies_fill (tidies_tidyEach rest)
      simp only [Place.fill, List.nil_append, List.append_nil] at hfirst hrest
      exact hfirst.trans hrest

end

/-- Nothing in the tidied form can be tidied. -/
theorem not_tidies_tidyEach (conditions other : List Condition) :
    ¬ Tidies (tidyEach conditions) other := by
  intro hstep
  have htidied : tidyEach other = tidyEach conditions := by
    rw [← hstep.tidyEach_eq, ← tidyEach_eq_of_tidies (tidies_tidyEach conditions)]
  have hlt := hstep.weightEach_lt
  have hle := weightEach_le_of_tidies (tidies_tidyEach other)
  rw [htidied] at hle
  omega

/-- Tidying in any order until nothing is left to tidy ends in the tidied form. -/
theorem eq_tidyEach_of_tidies {conditions other : List Condition}
    (h : ReflTransGen Tidies conditions other) (hend : ∀ next, ¬ Tidies other next) :
    other = tidyEach conditions := by
  rw [tidyEach_eq_of_tidies h]
  rcases (tidies_tidyEach other).cases_head with heq | ⟨next, hstep, -⟩
  · exact heq
  · exact absurd hstep (hend next)

/-! ## Tidying and compiling -/

theorem Tidies.compileEach_eq {index : Index} {xs ys : List Condition} (h : Tidies xs ys) :
    compileEach index xs = compileEach index ys := by
  cases h with
  | @drop place c hleafless =>
      apply place.compileEach_fill_congr
      rw [compileEach_singleton, compileAs_of_leafless c [] hleafless]
      rfl
  | unwrap place k c => exact place.compileEach_fill_congr (compileEach_around_singleton k c)

theorem compile_eq_of_tidies {index : Index} {xs ys : List Condition}
    (h : ReflTransGen Tidies xs ys) (junction : Junction) :
    compile index xs junction = compile index ys junction := by
  induction h with
  | refl => rfl
  | tail _ hstep ih => exact ih.trans (compile_congr hstep.compileEach_eq junction)

/-- At any place, a combinator around a single condition can be put there or left out, and so can a
tree without a leaf: the list compiles to the same query or with the same error. Doing so over and
over ends, whatever the order, in the tidied form, and that compiles like the list itself. -/
theorem redundancy_changes_nothing (index : Index) (junction : Junction) :
    (∀ (place : Place) (k : Combinator) (c : Condition),
      compile index (place.fill [k.around [c]]) junction =
        compile index (place.fill [c]) junction) ∧
    (∀ (place : Place) (c : Condition), c.hasLeaf = false →
      compile index (place.fill [c]) junction = compile index (place.fill []) junction) ∧
    ∀ conditions,
      compile index (tidyEach conditions) junction = compile index conditions junction ∧
      ReflTransGen Tidies conditions (tidyEach conditions) ∧
      (∀ next, ¬ Tidies (tidyEach conditions) next) ∧
      ∀ other, ReflTransGen Tidies conditions other → (∀ next, ¬ Tidies other next) →
        other = tidyEach conditions := by
  refine ⟨fun place k c => ?_, fun place c hleafless => ?_, fun conditions => ?_⟩
  · exact compile_eq_of_tidies (.single (.unwrap place k c)) junction
  · exact compile_eq_of_tidies (.single (.drop place hleafless)) junction
  · have hreached := tidies_tidyEach conditions
    refine ⟨(compile_eq_of_tidies hreached junction).symm, hreached,
      not_tidies_tidyEach conditions, ?_⟩
    intro other hother hend
    exact eq_tidyEach_of_tidies hother hend

namespace Sample

/-- The place after a text, among the alternatives of the second of two conditions. -/
def amongAlternatives : Place :=
  .inside [.leaf (.search (.text "lake"))] { junction := .any }
    (.here [.leaf (.equal "title" (.text "Quay"))] []) []

def untagged : Condition := .leaf (.isIn "tags" (.list []))

/-- A conjunction that is left with one child once its alternatives are found to be none. -/
def cascade : List Condition :=
  amongAlternatives.fill [.all [.any [.all []], .named "Only" [] (.any [untagged])]]

theorem cascade_compiles_tidied :
    (Condition.any [.all []]).hasLeaf = false ∧
      compile places (amongAlternatives.fill [.any [.all []]]) .every =
        compile places (amongAlternatives.fill []) .every ∧
      compile places (amongAlternatives.fill [.all [.leaf (.equal "depth" .null)]]) .any =
        compile places (amongAlternatives.fill [.leaf (.equal "depth" .null)]) .any ∧
      ReflTransGen Tidies cascade (amongAlternatives.fill [untagged]) ∧
      (∀ next, ¬ Tidies (amongAlternatives.fill [untagged]) next) ∧
      compile places (amongAlternatives.fill [untagged]) .every =
        compile places cascade .every ∧
      amongAlternatives.fill [untagged] = tidyEach cascade := by
  obtain ⟨-, hleafless, htidied⟩ := redundancy_changes_nothing places .every
  obtain ⟨hwrapped, -, -⟩ := redundancy_changes_nothing places .any
  obtain ⟨hcompiled, hreached, hend, hunique⟩ := htidied cascade
  exact ⟨rfl, hleafless amongAlternatives _ rfl,
    hwrapped amongAlternatives { junction := .every } _, hreached, hend, hcompiled,
    hunique _ hreached hend⟩

end Sample

end DocSearch
