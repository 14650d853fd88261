import DocSearch.Proofs.Conformance
import DocSearch.Proofs.ExactNames
import DocSearch.Proofs.Lookup
import DocSearch.Proofs.Sample

/-!
# A query stands for one condition

The written form of a query tells which condition it was made from: its combinators, the order of
their children, the kinds of its leaves, their paths and their values. That holds although values
are arbitrary and may look like queries themselves, since every value stands at a known depth under
a known key. The one thing that can be lost is the radius of a distance, where the centre is written
under the key of the radius.

It takes a condition that is tidy, in which every combinator has two children at least; then none of
them is without a leaf. Values are compared as they are, and also up to the order of the members of
objects; one argument serves both.
-/

namespace DocSearch

open Fallible

/-! ## Comparing values part by part -/

/-- A way to compare values that goes into lists item by item and into objects member by member. -/
structure Likeness (like : Value → Value → Prop) : Prop where
  list : ∀ {xs ys : List Value}, like (.list xs) (.list ys) ↔ List.Forall₂ like xs ys
  keys : ∀ {xs ys : Members}, like (.object xs) (.object ys) →
    (xs.map Prod.fst).Perm (ys.map Prod.fst)
  lookup : ∀ {xs ys : Members}, like (.object xs) (.object ys) → ∀ {key : String} {v w : Value},
    xs.lookup key = some v → ys.lookup key = some w → like v w
  object : ∀ {xs ys : Members},
    List.Forall₂ (fun x y => x.1 = y.1 ∧ like x.2 y.2) xs ys → like (.object xs) (.object ys)
  listObject : ∀ {xs : List Value} {ys : Members}, ¬ like (.list xs) (.object ys)
  objectList : ∀ {xs : Members} {ys : List Value}, ¬ like (.object xs) (.list ys)

theorem likeness_eq : Likeness Eq where
  list := by simp
  keys h := by rw [Value.object.inj h]
  lookup h := by
    intro key v w hv hw
    rw [Value.object.inj h] at hv
    exact Option.some.inj (hv.symm.trans hw)
  object h := by
    simp only [← Prod.ext_iff, List.forall₂_eq_eq_eq] at h
    rw [h]
  listObject h := by cases h
  objectList h := by cases h

theorem likeness_same : Likeness Value.Same where
  list := Value.Same.list_iff
  keys h := h.keys
  lookup h := h.lookup
  object h := by
    refine .object ?_ ?_
    · induction h with
      | nil => exact .nil
      | cons hxy _ ih =>
          rw [List.map_cons, List.map_cons, hxy.1]
          exact ih.cons _
    · induction h with
      | nil =>
          intro key v w hv
          cases hv
      | @cons x y xs ys hxy _ ih =>
          intro key v w hv hw
          rw [Keyed.lookup_cons_eq] at hv hw
          by_cases hkey : key = x.1
          · rw [if_pos hkey] at hv
            rw [if_pos (hkey.trans hxy.1)] at hw
            rw [← Option.some.inj hv, ← Option.some.inj hw]
            exact hxy.2
          · rw [if_neg hkey] at hv
            rw [if_neg fun h => hkey (h.trans hxy.1.symm)] at hw
            exact ih key v w hv hw
  listObject h := by cases h
  objectList h := by cases h

namespace Likeness
variable {like : Value → Value → Prop} (h : Likeness like)
include h

theorem single {key key' : String} {v v' : Value} :
    like (.single key v) (.single key' v') ↔ key = key' ∧ like v v' := by
  constructor
  · intro hsingle
    obtain rfl : key = key' := List.singleton_perm_singleton.mp (h.keys hsingle)
    exact ⟨rfl, h.lookup hsingle List.lookup_cons_self List.lookup_cons_self⟩
  · rintro ⟨rfl, hv⟩
    exact h.object (.cons ⟨rfl, hv⟩ .nil)

theorem pair {first second : String} (hne : first ≠ second) {v v' w w' : Value} :
    like (.object [(first, v), (second, w)]) (.object [(first, v'), (second, w')]) ↔
      like v v' ∧ like w w' := by
  have hsecond (u x : Value) : [(first, u), (second, x)].lookup second = some x := by
    rw [Keyed.lookup_cons_eq, if_neg hne.symm, List.lookup_cons_self]
  constructor
  · intro hpair
    exact ⟨h.lookup hpair List.lookup_cons_self List.lookup_cons_self,
      h.lookup hpair (hsecond _ _) (hsecond _ _)⟩
  · rintro ⟨hv, hw⟩
    exact h.object (.cons ⟨rfl, hv⟩ (.cons ⟨rfl, hw⟩ .nil))

theorem point {lat lat' lon lon' : Value} :
    like (.point lat lon) (.point lat' lon') ↔ like lat lat' ∧ like lon lon' :=
  h.pair (by decide)

/-- A radius and a centre, where the centre may take the place of the radius. -/
theorem radius {field field' : String} {p p' d d' : Value} :
    like (.object (Keyed.ofList [("distance", d), (field, p)]))
        (.object (Keyed.ofList [("distance", d'), (field', p')])) ↔
      field = field' ∧ like p p' ∧ (field = "distance" ∨ like d d') := by
  have hhidden (u x : Value) :
      Keyed.ofList [("distance", u), ("distance", x)] = [("distance", x)] := rfl
  by_cases hfield : field = "distance" <;> by_cases hfield' : field' = "distance"
  · subst hfield hfield'
    rw [hhidden, hhidden]
    exact h.single.trans ⟨fun hp => ⟨rfl, hp.2, .inl rfl⟩, fun hp => ⟨rfl, hp.2.1⟩⟩
  · subst hfield
    rw [hhidden, Keyed.ofList_pair (Ne.symm hfield')]
    refine iff_of_false (fun hlike => ?_) fun hlike => hfield' hlike.1.symm
    have hlength := (h.keys hlike).length_eq
    simp at hlength
  · subst hfield'
    rw [hhidden, Keyed.ofList_pair (Ne.symm hfield)]
    refine iff_of_false (fun hlike => ?_) fun hlike => hfield hlike.1
    have hlength := (h.keys hlike).length_eq
    simp at hlength
  · rw [Keyed.ofList_pair (Ne.symm hfield), Keyed.ofList_pair (Ne.symm hfield')]
    constructor
    · intro hlike
      have hperm : [field].Perm [field'] := (List.perm_cons "distance").mp (h.keys hlike)
      obtain rfl : field = field' := List.singleton_perm_singleton.mp hperm
      obtain ⟨hd, hp⟩ := (h.pair (Ne.symm hfield)).mp hlike
      exact ⟨rfl, hp, .inr hd⟩
    · rintro ⟨rfl, hp, hd⟩
      exact (h.pair (Ne.symm hfield)).mpr ⟨hd.resolve_left hfield, hp⟩

end Likeness

/-! ## Comparing queries -/

namespace Atom

/-- The key under which an atom is written. -/
def word : Atom → String
  | .ids _ => "ids"
  | .queryString _ => "query_string"
  | .term _ _ => "term"
  | .terms _ _ => "terms"
  | .range _ _ _ => "range"
  | .geoDistance _ _ _ _ => "geo_distance"
  | .geoBoundingBox _ _ _ _ _ => "geo_bounding_box"

theorem exists_toValue_eq (a : Atom) : ∃ body : Members,
    a.toValue = .single a.word (.object body) := by
  cases a <;> exact ⟨_, rfl⟩

theorem word_ne_bool (a : Atom) : a.word ≠ "bool" := by
  cases a <;> simp [word]

/-- The same test of the same field, against values that are alike; of a distance on a field called
`distance` the radius does not count. -/
def Alike (like : Value → Value → Prop) : Atom → Atom → Prop
  | .ids id, .ids id' => like id id'
  | .queryString q, .queryString q' => like q q'
  | .term f v, .term f' v' => f = f' ∧ like v v'
  | .terms f vs, .terms f' vs' => f = f' ∧ List.Forall₂ like vs vs'
  | .range f c v, .range f' c' v' => f = f' ∧ c = c' ∧ like v v'
  | .geoDistance f lat lon d, .geoDistance f' lat' lon' d' =>
    f = f' ∧ like lat lat' ∧ like lon lon' ∧ (f = "distance" ∨ like d d')
  | .geoBoundingBox f n e s w, .geoBoundingBox f' n' e' s' w' =>
    f = f' ∧ like n n' ∧ like w w' ∧ like s s' ∧ like e e'
  | _, _ => False

end Atom

theorem Comparison.word_injective {c c' : Comparison} : c.word = c'.word ↔ c = c' := by
  cases c <;> cases c' <;> decide

theorem Junction.word_injective {j j' : Junction} : j.word = j'.word ↔ j = j' := by
  cases j <;> cases j' <;> decide

namespace Clause

/-- The same use of atoms that are alike. -/
def Alike (like : Value → Value → Prop) : Clause → Clause → Prop
  | .test a, .test a' => a.Alike like a'
  | .required a, .required a' => a.Alike like a'
  | .excluded a, .excluded a' => a.Alike like a'
  | _, _ => False

end Clause

namespace Likeness
variable {like : Value → Value → Prop} (h : Likeness like)
include h

theorem not_like_atoms {a a' : Atom} (hword : a.word ≠ a'.word) : ¬ like a.toValue a'.toValue := by
  obtain ⟨body, ha⟩ := a.exists_toValue_eq
  obtain ⟨body', ha'⟩ := a'.exists_toValue_eq
  rw [ha, ha', h.single]
  exact fun hlike => hword hlike.1

theorem not_like_atom_bool (a : Atom) (v : Value) : ¬ like a.toValue (.single "bool" v) := by
  obtain ⟨body, ha⟩ := a.exists_toValue_eq
  rw [ha, h.single]
  exact fun hlike => a.word_ne_bool hlike.1

theorem not_like_bool_atom (a : Atom) (v : Value) : ¬ like (.single "bool" v) a.toValue := by
  obtain ⟨body, ha⟩ := a.exists_toValue_eq
  rw [ha, h.single]
  exact fun hlike => a.word_ne_bool hlike.1.symm

/-- Atoms under different keys are not alike either way, so only atoms of one kind are compared. -/
theorem atoms {a a' : Atom} : like a.toValue a'.toValue ↔ a.Alike like a' := by
  have hcorners : "top_left" ≠ "bottom_right" := by decide
  cases a with
  | ids id =>
      cases a' with
      | ids id' =>
          simp only [Atom.toValue, Atom.Alike, h.single, h.list, List.forall₂_cons, true_and,
            List.forall₂_nil_right_iff, and_true]
      | _ => exact iff_of_false (h.not_like_atoms (by simp [Atom.word])) not_false
  | queryString q =>
      cases a' with
      | queryString q' =>
          simp only [Atom.toValue, Atom.Alike, h.single, true_and]
      | _ => exact iff_of_false (h.not_like_atoms (by simp [Atom.word])) not_false
  | term f v =>
      cases a' with
      | term f' v' =>
          simp only [Atom.toValue, Atom.Alike, h.single, true_and]
      | _ => exact iff_of_false (h.not_like_atoms (by simp [Atom.word])) not_false
  | terms f vs =>
      cases a' with
      | terms f' vs' =>
          simp only [Atom.toValue, Atom.Alike, h.single, h.list, true_and]
      | _ => exact iff_of_false (h.not_like_atoms (by simp [Atom.word])) not_false
  | range f c v =>
      cases a' with
      | range f' c' v' =>
          simp only [Atom.toValue, Atom.Alike, h.single, Comparison.word_injective, true_and]
      | _ => exact iff_of_false (h.not_like_atoms (by simp [Atom.word])) not_false
  | geoDistance f lat lon d =>
      cases a' with
      | geoDistance f' lat' lon' d' =>
          simp only [Atom.toValue, Atom.Alike, h.single, h.radius, h.point, true_and, and_assoc]
      | _ => exact iff_of_false (h.not_like_atoms (by simp [Atom.word])) not_false
  | geoBoundingBox f n e s w =>
      cases a' with
      | geoBoundingBox f' n' e' s' w' =>
          simp only [Atom.toValue, Atom.Alike, h.single, h.pair hcorners, h.point, true_and,
            and_assoc]
      | _ => exact iff_of_false (h.not_like_atoms (by simp [Atom.word])) not_false

theorem clauses {c c' : Clause} : like c.toValue c'.toValue ↔ c.Alike like c' := by
  cases c with
  | test a =>
      cases c' with
      | test a' => exact h.atoms
      | required a' => exact iff_of_false (h.not_like_atom_bool a _) not_false
      | excluded a' => exact iff_of_false (h.not_like_atom_bool a _) not_false
  | required a =>
      cases c' with
      | test a' => exact iff_of_false (h.not_like_bool_atom a' _) not_false
      | required a' => simp only [Clause.toValue, h.single, h.atoms, true_and, Clause.Alike]
      | excluded a' => simp [Clause.toValue, h.single, Clause.Alike]
  | excluded a =>
      cases c' with
      | test a' => exact iff_of_false (h.not_like_bool_atom a' _) not_false
      | required a' => simp [Clause.toValue, h.single, Clause.Alike]
      | excluded a' => simp only [Clause.toValue, h.single, h.atoms, true_and, Clause.Alike]

/-- A group is told apart from a clause by the list that it holds. -/
theorem not_like_clause_group (c : Clause) (j : Junction) (members : List Query) :
    ¬ like (Query.clause c).toValue (Query.group j members).toValue := by
  rw [Query.toValue, Query.toValue]
  cases c with
  | test a => exact h.not_like_atom_bool a _
  | required a | excluded a =>
      obtain ⟨body, ha⟩ := a.exists_toValue_eq
      rw [Clause.toValue, h.single, h.single, ha]
      exact fun hlike => h.objectList hlike.2.2

theorem not_like_group_clause (c : Clause) (j : Junction) (members : List Query) :
    ¬ like (Query.group j members).toValue (Query.clause c).toValue := by
  rw [Query.toValue, Query.toValue]
  cases c with
  | test a => exact h.not_like_bool_atom a _
  | required a | excluded a =>
      obtain ⟨body, ha⟩ := a.exists_toValue_eq
      rw [Clause.toValue, h.single, h.single, ha]
      exact fun hlike => h.listObject hlike.2.2

omit h in
theorem toValues {qs qs' : List Query} :
    List.Forall₂ like (Query.toValues qs) (Query.toValues qs') ↔
      List.Forall₂ (fun q q' => like q.toValue q'.toValue) qs qs' := by
  induction qs generalizing qs' with
  | nil => cases qs' <;> simp [Query.toValues]
  | cons q qs ih =>
      cases qs' with
      | nil => simp [Query.toValues]
      | cons q' qs' => simp only [Query.toValues, List.forall₂_cons, ih]

theorem groups {j j' : Junction} {qs qs' : List Query} :
    like (Query.group j qs).toValue (Query.group j' qs').toValue ↔
      j = j' ∧ List.Forall₂ (fun q q' => like q.toValue q'.toValue) qs qs' := by
  simp only [Query.toValue, h.single, h.list, toValues, Junction.word_injective, true_and]

end Likeness

/-! ## Comparing conditions -/

/-- Whether the centre of a distance at a path is written under the key of the radius. -/
def Index.HidesRadius (index : Index) (path : String) : Prop :=
  path = "distance" ∧ ∃ f, index.fieldAt path = .ok f ∧ f.isText = false

/-- The same kind of leaf at the same path, with values that are alike; a radius that is hidden does
not count. -/
def Leaf.Alike (index : Index) (like : Value → Value → Prop) : Leaf → Leaf → Prop
  | .identifier i, .identifier i' => like i i'
  | .search q, .search q' => like q q'
  | .equal p v, .equal p' v' => p = p' ∧ like v v'
  | .notEqual p v, .notEqual p' v' => p = p' ∧ like v v'
  | .compare c p v, .compare c' p' v' => p = p' ∧ c = c' ∧ like v v'
  | .isIn p vs, .isIn p' vs' => p = p' ∧ like vs vs'
  | .notIn p vs, .notIn p' vs' => p = p' ∧ like vs vs'
  | .near p lat lon d, .near p' lat' lon' d' =>
    p = p' ∧ like lat lat' ∧ like lon lon' ∧ (index.HidesRadius p ∨ like d d')
  | .within p n e s w, .within p' n' e' s' w' =>
    p = p' ∧ like n n' ∧ like w w' ∧ like s s' ∧ like e e'
  | _, _ => False

/-- Whether several values, where a leaf compares with such, are given as a list. -/
def Leaf.listsValues : Leaf → Bool
  | .isIn _ (.list _) => true
  | .isIn _ _ => false
  | .notIn _ (.list _) => true
  | .notIn _ _ => false
  | _ => true

theorem Leaf.exists_list_of_several? {l : Leaf} {path : String} {values : Value}
    (hlists : l.listsValues = true) (h : l.several? = some (path, values)) :
    ∃ items, values = .list items := by
  cases l <;> cases h <;> cases values <;> first | exact ⟨_, rfl⟩ | cases hlists

namespace Condition

section
variable (index : Index) (like : Value → Value → Prop)

mutual

/-- The same tree: the same combinators over children that are alike one by one, and leaves that are
alike. -/
def Alike : Condition → Condition → Prop
  | .leaf l, .leaf l' => l.Alike index like l'
  | .all conditions, .all conditions' => AllAlike conditions conditions'
  | .any conditions, .any conditions' => AllAlike conditions conditions'
  | _, _ => False

def AllAlike : List Condition → List Condition → Prop
  | [], [] => True
  | c :: rest, c' :: rest' => c.Alike c' ∧ AllAlike rest rest'
  | _, _ => False

end
end

mutual

/-- Whether a tree has no class of the caller's in it, lists for values to compare with, and at
least two children below every combinator. -/
def proper : Condition → Bool
  | .leaf l => l.listsValues
  | .all conditions => decide (2 ≤ conditions.length) && allProper conditions
  | .any conditions => decide (2 ≤ conditions.length) && allProper conditions
  | .named _ _ _ => false
  | .unsupported _ => false

def allProper : List Condition → Bool
  | [] => true
  | c :: rest => c.proper && allProper rest

end

mutual

/-- Where every combinator has children there is a leaf below each. -/
theorem hasLeaf_of_proper : (c : Condition) → c.proper = true → c.hasLeaf = true
  | .leaf _, _ => rfl
  | .all conditions, h => by
      obtain ⟨hlength, hall⟩ := Bool.and_eq_true_iff.mp h
      exact anyHasLeaf_of_allProper conditions (of_decide_eq_true hlength) hall
  | .any conditions, h => by
      obtain ⟨hlength, hall⟩ := Bool.and_eq_true_iff.mp h
      exact anyHasLeaf_of_allProper conditions (of_decide_eq_true hlength) hall

theorem anyHasLeaf_of_allProper : (conditions : List Condition) → 2 ≤ conditions.length →
    allProper conditions = true → anyHasLeaf conditions = true
  | c :: rest, _, h => by
      obtain ⟨hc, -⟩ := Bool.and_eq_true_iff.mp h
      rw [anyHasLeaf, hasLeaf_of_proper c hc, Bool.true_or]

end

end Condition

section
variable {index : Index}

/-- Only the exact name of a path that hides its radius is `distance`. -/
theorem Index.exactName_eq_distance_iff {path name : String}
    (h : index.exactName path = .ok name) : name = "distance" ↔ index.HidesRadius path := by
  obtain ⟨f, hf, rfl⟩ := exactName_eq_ok_iff.mp h
  cases htext : f.isText with
  | false =>
      simp only [Bool.false_eq_true, if_false]
      exact ⟨fun hpath => ⟨hpath, f, hf, htext⟩, fun hhides => hhides.1⟩
  | true =>
      rw [if_pos rfl]
      refine iff_of_false (fun hname => ?_) fun hhides => ?_
      · have hlast := congrArg (fun name => name.toList.getLast?) hname
        have hraw : rawSuffix.toList.getLast? = some 'w' := by decide
        rw [String.toList_append, List.getLast?_append, hraw, Option.some_or] at hlast
        exact absurd hlast (by decide)
      · obtain ⟨-, g, hg, hplain⟩ := hhides
        rw [hf] at hg
        obtain rfl := Except.ok.inj hg
        rw [htext] at hplain
        cases hplain

/-- The clause that a leaf stands for. -/
def Leaf.clause (index : Index) (l : Leaf) : Clause :=
  match l with
  | .search _ => .required (l.atom index)
  | .notEqual _ _ => .excluded (l.atom index)
  | .notIn _ _ => .excluded (l.atom index)
  | _ => .test (l.atom index)

/-- A leaf that compiles has a path that leads to a field, and compiles to its clause. -/
theorem Leaf.eq_clause_of_compile {l : Leaf} {c : Clause} (h : l.compile index = .ok c) :
    c = l.clause index ∧ ∀ path, l.path? = some path →
      index.exactName path = .ok (index.filterName path) := by
  cases l with
  | identifier _ | search _ =>
      obtain rfl := Except.ok.inj h
      exact ⟨rfl, fun path hpath => by cases hpath⟩
  | equal path _ | notEqual path _ | compare _ path _ | near path _ _ _ | within path _ _ _ _ =>
      obtain ⟨name, hname, hc⟩ := bind_eq_ok.mp h
      obtain rfl := Except.ok.inj hc
      obtain rfl := Index.exactName_eq_ok hname
      refine ⟨rfl, fun path' hpath => ?_⟩
      obtain rfl := Option.some.inj hpath
      exact hname
  | isIn path values | notIn path values =>
      obtain ⟨name, hname, hrest⟩ := bind_eq_ok.mp h
      obtain ⟨items, hitems, hc⟩ := bind_eq_ok.mp hrest
      obtain rfl := Except.ok.inj hc
      obtain rfl := Index.exactName_eq_ok hname
      obtain rfl := Value.items_eq_ok hitems
      refine ⟨rfl, fun path' hpath => ?_⟩
      obtain rfl := Option.some.inj hpath
      exact hname

/-- The conditions below a combinator all keep their queries. -/
theorem forall₂_of_compileEach : (conditions : List Condition) → {qs : List Query} →
    Condition.allProper conditions = true → compileEach index conditions = .ok qs →
    List.Forall₂ (fun c q => c.compileAs index [] = .ok q) conditions qs
  | [], qs, _, h => by
      obtain rfl := Except.ok.inj h
      exact .nil
  | c :: rest, kept, hproper, h => by
      obtain ⟨hc, hrest⟩ := Bool.and_eq_true_iff.mp hproper
      obtain ⟨q, hq, htail⟩ := bind_eq_ok.mp h
      obtain ⟨qs, hqs, hkept⟩ := bind_eq_ok.mp htail
      obtain rfl := Except.ok.inj hkept
      have hfull : q.isEmpty = false := by
        rw [(Condition.compileAs_agrees index (fun _ => true) c [] q hq).1,
          Condition.hasLeaf_of_proper c hc, Bool.not_true]
      rw [hfull, if_neg Bool.false_ne_true]
      exact .cons hq (forall₂_of_compileEach rest hrest hqs)

/-- Two conditions or more make a group. -/
theorem exists_group_of_compileEach {conditions : List Condition} {j : Junction} {q : Query}
    (hproper : (decide (2 ≤ conditions.length) && Condition.allProper conditions) = true)
    (h : (do return Query.join j (← compileEach index conditions)) = Except.ok q) :
    ∃ qs, q = .group j qs ∧
      List.Forall₂ (fun c q => c.compileAs index [] = .ok q) conditions qs := by
  obtain ⟨hlength, hall⟩ := Bool.and_eq_true_iff.mp hproper
  obtain ⟨qs, hqs, hq⟩ := bind_eq_ok.mp h
  obtain rfl := Except.ok.inj hq
  have hkept := forall₂_of_compileEach conditions hall hqs
  rw [decide_eq_true_eq, hkept.length_eq] at hlength
  refine ⟨qs, ?_, hkept⟩
  match qs, hlength with
  | _ :: _ :: _, _ => rfl

end

/-! ## Queries that are alike -/

namespace Likeness
variable {like : Value → Value → Prop} (h : Likeness like) {index : Index}
include h

theorem leaves {l l' : Leaf} {c c' : Clause} (hc : l.compile index = .ok c)
    (hc' : l'.compile index = .ok c') (hlists : l.listsValues = true)
    (hlists' : l'.listsValues = true) :
    like c.toValue c'.toValue ↔ l.Alike index like l' := by
  obtain ⟨rfl, hname⟩ := Leaf.eq_clause_of_compile hc
  obtain ⟨rfl, hname'⟩ := Leaf.eq_clause_of_compile hc'
  have hpaths {p p' : String} (hp : l.path? = some p) (hp' : l'.path? = some p') :
      index.filterName p = index.filterName p' ↔ p = p' := by
    refine ⟨fun heq => ?_, fun heq => by rw [heq]⟩
    exact Index.exactName_injective (hname p hp) (heq ▸ hname' p' hp')
  rw [h.clauses]
  -- leaves of different kinds are alike on neither side
  cases l with
  | identifier _ | search _ => cases l' <;> exact Iff.rfl
  | equal p _ | notEqual p _ | compare _ p _ | within p _ _ _ _ =>
      cases l' <;> first | exact Iff.rfl | exact and_congr_left' (hpaths rfl rfl)
  | isIn p vs =>
      cases l' with
      | isIn p' vs' =>
          obtain ⟨items, rfl⟩ := Leaf.exists_list_of_several? hlists rfl
          obtain ⟨items', rfl⟩ := Leaf.exists_list_of_several? hlists' rfl
          exact and_congr (hpaths rfl rfl) h.list.symm
      | _ => exact Iff.rfl
  | notIn p vs =>
      cases l' with
      | notIn p' vs' =>
          obtain ⟨items, rfl⟩ := Leaf.exists_list_of_several? hlists rfl
          obtain ⟨items', rfl⟩ := Leaf.exists_list_of_several? hlists' rfl
          exact and_congr (hpaths rfl rfl) h.list.symm
      | _ => exact Iff.rfl
  | near p _ _ _ =>
      cases l' with
      | near p' _ _ _ =>
          have hhides := Index.exactName_eq_distance_iff (hname p rfl)
          refine and_congr (hpaths rfl rfl) (and_congr_right' (and_congr_right' ?_))
          exact or_congr_left hhides
      | _ => exact Iff.rfl

/-- The query of a leaf is never like that of a combinator. -/
theorem leaf_apart {l : Leaf} {j : Junction} {conditions : List Condition} {q q' : Query}
    (hproper : (decide (2 ≤ conditions.length) && Condition.allProper conditions) = true)
    (hq : (Condition.leaf l).compileAs index [] = .ok q)
    (hq' : (do return Query.join j (← compileEach index conditions)) = Except.ok q') :
    ¬ like q.toValue q'.toValue ∧ ¬ like q'.toValue q.toValue := by
  obtain ⟨c, -, hc⟩ := bind_eq_ok.mp hq
  obtain rfl := Except.ok.inj hc
  obtain ⟨qs, rfl, -⟩ := exists_group_of_compileEach hproper hq'
  exact ⟨h.not_like_clause_group c j qs, h.not_like_group_clause c j qs⟩

/-- The queries of two combinators are alike exactly if they join in the same way and those of
their children are alike one by one. -/
theorem joined {j j' : Junction} {conditions conditions' : List Condition} {q q' : Query}
    (hproper : (decide (2 ≤ conditions.length) && Condition.allProper conditions) = true)
    (hproper' : (decide (2 ≤ conditions'.length) && Condition.allProper conditions') = true)
    (hq : (do return Query.join j (← compileEach index conditions)) = Except.ok q)
    (hq' : (do return Query.join j' (← compileEach index conditions')) = Except.ok q') :
    ∃ qs qs', List.Forall₂ (fun c q => c.compileAs index [] = .ok q) conditions qs ∧
      List.Forall₂ (fun c q => c.compileAs index [] = .ok q) conditions' qs' ∧
      (like q.toValue q'.toValue ↔
        j = j' ∧ List.Forall₂ (fun q q' => like q.toValue q'.toValue) qs qs') := by
  obtain ⟨qs, rfl, hqs⟩ := exists_group_of_compileEach hproper hq
  obtain ⟨qs', rfl, hqs'⟩ := exists_group_of_compileEach hproper' hq'
  exact ⟨qs, qs', hqs, hqs', h.groups⟩

end Likeness

-- The induction is on the first tree, with the second one beside it.
mutual

theorem Likeness.conditions {like : Value → Value → Prop} (h : Likeness like) {index : Index} :
    (c c' : Condition) → c.proper = true → c'.proper = true → {q q' : Query} →
    c.compileAs index [] = .ok q → c'.compileAs index [] = .ok q' →
    (like q.toValue q'.toValue ↔ c.Alike index like c')
  | .leaf l, .leaf l', hc, hc', q, q', hq, hq' => by
      obtain ⟨clause, hclause, hq⟩ := bind_eq_ok.mp hq
      obtain ⟨clause', hclause', hq'⟩ := bind_eq_ok.mp hq'
      obtain rfl := Except.ok.inj hq
      obtain rfl := Except.ok.inj hq'
      exact h.leaves ((l.compileAs_kind index).symm.trans hclause)
        ((l'.compileAs_kind index).symm.trans hclause') hc hc'
  | .leaf _, .all _, _, hc', _, _, hq, hq' => iff_of_false (h.leaf_apart hc' hq hq').1 not_false
  | .leaf _, .any _, _, hc', _, _, hq, hq' => iff_of_false (h.leaf_apart hc' hq hq').1 not_false
  | .all _, .leaf _, hc, _, _, _, hq, hq' => iff_of_false (h.leaf_apart hc hq' hq).2 not_false
  | .any _, .leaf _, hc, _, _, _, hq, hq' => iff_of_false (h.leaf_apart hc hq' hq).2 not_false
  | .all children, .all children', hc, hc', _, _, hq, hq' => by
      obtain ⟨qs, qs', hqs, hqs', hlike⟩ := h.joined hc hc' hq hq'
      rw [hlike, eq_self, true_and, Condition.Alike]
      exact h.conditionLists children children' (Bool.and_eq_true_iff.mp hc).2
        (Bool.and_eq_true_iff.mp hc').2 hqs hqs'
  | .any children, .any children', hc, hc', _, _, hq, hq' => by
      obtain ⟨qs, qs', hqs, hqs', hlike⟩ := h.joined hc hc' hq hq'
      rw [hlike, eq_self, true_and, Condition.Alike]
      exact h.conditionLists children children' (Bool.and_eq_true_iff.mp hc).2
        (Bool.and_eq_true_iff.mp hc').2 hqs hqs'
  | .all _, .any _, hc, hc', _, _, hq, hq' => by
      obtain ⟨_, _, -, -, hlike⟩ := h.joined hc hc' hq hq'
      exact iff_of_false (fun hjoined => nomatch (hlike.mp hjoined).1) not_false
  | .any _, .all _, hc, hc', _, _, hq, hq' => by
      obtain ⟨_, _, -, -, hlike⟩ := h.joined hc hc' hq hq'
      exact iff_of_false (fun hjoined => nomatch (hlike.mp hjoined).1) not_false

theorem Likeness.conditionLists {like : Value → Value → Prop} (h : Likeness like)
    {index : Index} : (cs cs' : List Condition) → Condition.allProper cs = true →
    Condition.allProper cs' = true → {qs qs' : List Query} →
    List.Forall₂ (fun c q => c.compileAs index [] = .ok q) cs qs →
    List.Forall₂ (fun c q => c.compileAs index [] = .ok q) cs' qs' →
    (List.Forall₂ (fun q q' => like q.toValue q'.toValue) qs qs' ↔
      Condition.AllAlike index like cs cs')
  | [], [], _, _, _, _, .nil, .nil => iff_of_true .nil trivial
  | [], _ :: _, _, _, _, _, .nil, .cons _ _ => iff_of_false nofun not_false
  | _ :: _, [], _, _, _, _, .cons _ _, .nil => iff_of_false nofun not_false
  | c :: rest, c' :: rest', hc, hc', _, _, .cons hq hqs, .cons hq' hqs' => by
      obtain ⟨hfirst, hrest⟩ := Bool.and_eq_true_iff.mp hc
      obtain ⟨hfirst', hrest'⟩ := Bool.and_eq_true_iff.mp hc'
      rw [List.forall₂_cons, h.conditions c c' hfirst hfirst' hq hq',
        h.conditionLists rest rest' hrest hrest' hqs hqs', Condition.AllAlike]

end

/-! ## Where no radius is hidden -/

section
variable {index : Index}

theorem Leaf.alike_eq_iff (h : ¬ index.HidesRadius "distance") {l l' : Leaf} :
    l.Alike index Eq l' ↔ l = l' := by
  have hhides (p : String) : ¬ index.HidesRadius p := fun hp => h (hp.1 ▸ hp)
  cases l <;> cases l' <;> simp only [Leaf.Alike, hhides, false_or, reduceCtorEq,
    Leaf.identifier.injEq, Leaf.search.injEq, Leaf.equal.injEq, Leaf.notEqual.injEq,
    Leaf.compare.injEq, Leaf.isIn.injEq, Leaf.notIn.injEq, Leaf.near.injEq, Leaf.within.injEq]
  case compare => exact and_left_comm
  case within => tauto

mutual

/-- Trees that are alike are one tree unless the centre of a distance may take the place of the
radius. -/
theorem Condition.alike_eq_iff (h : ¬ index.HidesRadius "distance") : (c c' : Condition) →
    c.proper = true → c'.proper = true → (c.Alike index Eq c' ↔ c = c')
  | .leaf _, .leaf _, _, _ => by rw [Condition.Alike, Leaf.alike_eq_iff h, Condition.leaf.injEq]
  | .leaf _, .all _, _, _ => iff_of_false not_false nofun
  | .leaf _, .any _, _, _ => iff_of_false not_false nofun
  | .all _, .leaf _, _, _ => iff_of_false not_false nofun
  | .any _, .leaf _, _, _ => iff_of_false not_false nofun
  | .all _, .any _, _, _ => iff_of_false not_false nofun
  | .any _, .all _, _, _ => iff_of_false not_false nofun
  | .all children, .all children', hc, hc' => by
      rw [Condition.Alike, Condition.allAlike_eq_iff h children children'
        (Bool.and_eq_true_iff.mp hc).2 (Bool.and_eq_true_iff.mp hc').2, Condition.all.injEq]
  | .any children, .any children', hc, hc' => by
      rw [Condition.Alike, Condition.allAlike_eq_iff h children children'
        (Bool.and_eq_true_iff.mp hc).2 (Bool.and_eq_true_iff.mp hc').2, Condition.any.injEq]

theorem Condition.allAlike_eq_iff (h : ¬ index.HidesRadius "distance") : (cs cs' : List Condition) →
    allProper cs = true → allProper cs' = true → (AllAlike index Eq cs cs' ↔ cs = cs')
  | [], [], _, _ => iff_of_true trivial rfl
  | [], _ :: _, _, _ => iff_of_false not_false nofun
  | _ :: _, [], _, _ => iff_of_false not_false nofun
  | c :: rest, c' :: rest', hc, hc' => by
      obtain ⟨hfirst, hrest⟩ := Bool.and_eq_true_iff.mp hc
      obtain ⟨hfirst', hrest'⟩ := Bool.and_eq_true_iff.mp hc'
      rw [AllAlike, Condition.alike_eq_iff h c c' hfirst hfirst',
        Condition.allAlike_eq_iff h rest rest' hrest hrest', List.cons.injEq]

end
end

/-! ## The query of one condition -/

/-- A condition alone compiles to its own query. -/
theorem compileAs_of_compile_singleton {index : Index} {c : Condition} {junction : Junction}
    {q : Query} (hproper : c.proper = true) (h : compile index [c] junction = .ok q) :
    c.compileAs index [] = .ok q := by
  obtain ⟨qs, hqs, hq⟩ := bind_eq_ok.mp h
  have hall : Condition.allProper [c] = true := by
    rw [Condition.allProper, hproper]
    rfl
  cases forall₂_of_compileEach [c] hall hqs with
  | cons hc hrest =>
      cases hrest
      obtain rfl := Except.ok.inj hq
      exact hc

/-- Two proper conditions that compile have the same written query exactly if they are the same
tree, a hidden radius apart; where none is hidden, they are equal. Up to the order of the members of
objects the same holds. -/
theorem query_stands_for_one_condition {index : Index} {c c' : Condition} {j j' : Junction}
    {q q' : Query} (hc : c.proper = true) (hc' : c'.proper = true)
    (hq : compile index [c] j = .ok q) (hq' : compile index [c'] j' = .ok q') :
    (q.toValue = q'.toValue ↔ c.Alike index Eq c') ∧
      (q.toValue.Same q'.toValue ↔ c.Alike index Value.Same c') ∧
      (¬ index.HidesRadius "distance" → (q.toValue = q'.toValue ↔ c = c')) := by
  have hcompiled := compileAs_of_compile_singleton hc hq
  have hcompiled' := compileAs_of_compile_singleton hc' hq'
  have hequal := likeness_eq.conditions c c' hc hc' hcompiled hcompiled'
  refine ⟨hequal, likeness_same.conditions c c' hc hc' hcompiled hcompiled', fun hshown => ?_⟩
  rw [hequal, Condition.alike_eq_iff hshown c c' hc hc']

namespace Sample

/-- Harbours with a point that is called `distance`. -/
def harbours : Index where
  name := "harbours"
  schema := .ofList [
    ("id", .leaf .identifier { name := "id" }),
    ("distance", .leaf .geoPoint { name := "distance" })]
  oneIdentifier := rfl

/-- The harbours within a radius, but for one of them. -/
def around (radius : Int) : Condition :=
  .all [.leaf (.near "distance" (.int 57) (.int 11) (.int radius)),
    .leaf (.notIn "id" (.list [.text "h1"]))]

/-- Of two radii the query tells nothing where the point is called `distance`. Of two tests of a
title it tells which one was meant, also where a value is written like a query. -/
theorem harbours_hide_radius :
    ((∃ q q', compile harbours [around 5] .every = .ok q ∧
        compile harbours [around 7] .any = .ok q' ∧ q.toValue = q'.toValue) ∧
      around 5 ≠ around 7) ∧
    ∃ q q',
      compile places [.leaf (.equal "title" (.single "value" .null))] .every = .ok q ∧
      compile places [.leaf (.equal "title" .null)] .every = .ok q' ∧ q.toValue ≠ q'.toValue := by
  constructor
  · obtain ⟨q, hq⟩ : ∃ q, compile harbours [around 5] .every = .ok q := ⟨_, rfl⟩
    obtain ⟨q', hq'⟩ : ∃ q, compile harbours [around 7] .any = .ok q := ⟨_, rfl⟩
    have hradius : harbours.HidesRadius "distance" := ⟨rfl, _, rfl, rfl⟩
    have halike : (around 5).Alike harbours Eq (around 7) := by
      simp [around, Condition.Alike, Condition.AllAlike, Leaf.Alike, hradius]
    have hqueries := (query_stands_for_one_condition rfl rfl hq hq').1
    exact ⟨⟨q, q', hq, hq', hqueries.mpr halike⟩, by simp [around]⟩
  · obtain ⟨q, hq⟩ : ∃ q,
        compile places [.leaf (.equal "title" (.single "value" .null))] .every = .ok q := ⟨_, rfl⟩
    obtain ⟨q', hq'⟩ : ∃ q,
        compile places [.leaf (.equal "title" .null)] .every = .ok q := ⟨_, rfl⟩
    have hshown : ¬ places.HidesRadius "distance" := by
      rintro ⟨-, f, hf, -⟩
      cases hf
    have hqueries := (query_stands_for_one_condition rfl rfl hq hq').2.2 hshown
    exact ⟨q, q', hq, hq', by simp [hqueries, Value.single]⟩

end Sample

end DocSearch
