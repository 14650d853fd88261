import DocSearch.Proofs.ExactNames
import DocSearch.Proofs.Sample

/-!
# What dotted paths lead to

A path is cut at every dot, and its parts are followed as keys. Cutting and joining are inverse on
parts without dots, so a path leads to a field exactly if its parts are a chain of declared keys in
which each field but the last is an object with the next key. A key with a dot is no part of any
path: what is declared under it can be left out, at every depth, without a change to any answer.
-/

namespace DocSearch

open Fallible

/-! ## Parts -/

namespace Text

theorem splitOn_eq (sep : Char) (text : List Char) : splitOn sep text = List.splitOn sep text := by
  induction text with
  | nil => rfl
  | cons c rest ih =>
      rw [splitOn, ih, List.splitOn_cons_eq_if_modifyHead]
      by_cases hc : c = sep
      · rw [if_pos hc, if_pos (beq_iff_eq.mpr hc)]
      · rw [if_neg hc, if_neg (by simpa using hc)]
        cases hrest : List.splitOn sep rest with
        | nil => exact absurd hrest (List.splitOn_ne_nil sep rest)
        | cons part parts => rfl

theorem notMem_of_mem_splitOn {sep : Char} {text part : List Char} (h : part ∈ splitOn sep text) :
    sep ∉ part := by
  induction text generalizing part with
  | nil =>
      rw [List.mem_singleton.mp h]
      exact List.not_mem_nil
  | cons c rest ih =>
      rw [splitOn] at h
      split at h
      · rcases List.mem_cons.mp h with rfl | hpart
        · exact List.not_mem_nil
        · exact ih hpart
      next hc =>
        cases hrest : splitOn sep rest with
        | nil => exact absurd hrest (splitOn_ne_nil sep rest)
        | cons first parts =>
            rw [hrest] at h ih
            rcases List.mem_cons.mp h with rfl | hpart
            · rw [List.mem_cons, not_or]
              exact ⟨Ne.symm hc, ih List.mem_cons_self⟩
            · exact ih (List.mem_cons_of_mem _ hpart)

/-- The parts of a path between its dots: none of them has a dot, and joined by dots they are the
path. An empty part counts. -/
structure PartsOf (path : String) (parts : List String) : Prop where
  ne_nil : parts ≠ []
  undotted : ∀ part ∈ parts, '.' ∉ part.toList
  join : ".".intercalate parts = path

theorem toList_join (parts : List String) :
    (".".intercalate parts).toList = ['.'].intercalate (parts.map String.toList) :=
  String.toList_intercalate

theorem partsOf_dotted (path : String) : PartsOf path (dotted path) where
  ne_nil := dotted_ne_nil path
  undotted := by
    intro part hpart
    obtain ⟨chars, hchars, rfl⟩ := List.mem_map.mp hpart
    rw [String.toList_ofList]
    exact notMem_of_mem_splitOn hchars
  join := by
    rw [← String.toList_inj, toList_join, dotted, List.map_map]
    simp only [Function.comp_def, String.toList_ofList, List.map_id']
    rw [splitOn_eq, List.intercalate_splitOn]

/-- A path has no other parts. -/
theorem PartsOf.eq_dotted {path : String} {parts : List String} (h : PartsOf path parts) :
    parts = dotted path := by
  have hnone : ∀ part ∈ parts.map String.toList, '.' ∉ part := by
    simpa using h.undotted
  have hsome : parts.map String.toList ≠ [] := by
    simpa using h.ne_nil
  rw [dotted, ← h.join, toList_join, splitOn_eq, List.splitOn_intercalate '.' hnone hsome,
    List.map_map]
  simp only [Function.comp_def, String.ofList_toList, List.map_id']

end Text

open Text

/-! ## Chains of keys -/

/-- A chain of keys leads from declared fields to one below them: each key is declared, and each
field but the last is an object in which the next key is declared. -/
inductive Leads : List (String × Field) → List String → Field → Prop
  | here {fields : List (String × Field)} {key : String} {f : Field} :
      (key, f) ∈ fields → Leads fields [key] f
  | within {fields inner : List (String × Field)} {key : String} {a : Attributes}
      {keys : List String} {f : Field} :
      (key, .object a inner) ∈ fields → Leads inner keys f → Leads fields (key :: keys) f

namespace Leads
variable {fields : List (String × Field)} {keys : List String} {f : Field}

theorem ne_nil (h : Leads fields keys f) : keys ≠ [] := by
  cases h <;> exact List.cons_ne_nil _ _

theorem of_fieldAt? (h : fieldAt? fields keys = some f) : Leads fields keys f := by
  induction keys generalizing fields with
  | nil => cases h
  | cons key rest ih =>
      by_cases hrest : rest = []
      · subst hrest
        exact .here (Keyed.mem_of_lookup_eq_some h)
      · obtain ⟨a, inner, hobject, hon⟩ := (fieldAt?_cons_eq_some hrest).mp h
        exact .within (Keyed.mem_of_lookup_eq_some hobject) (ih hon)

/-- Where no key is declared twice, every declared field is found. -/
theorem fieldAt?_eq_some (h : Leads fields keys f) (hdistinct : Keyed.Distinct fields)
    (hsettled : AllSettled fields) : fieldAt? fields keys = some f := by
  induction h with
  | here hmem => exact (Keyed.lookup_eq_some_iff_mem hdistinct).mpr hmem
  | within hmem hon ih =>
      have hinner := (allSettled_iff _).mp hsettled _ hmem
      rw [Field.Settled] at hinner
      rw [fieldAt?_cons_eq_some hon.ne_nil]
      exact ⟨_, _, (Keyed.lookup_eq_some_iff_mem hdistinct).mpr hmem, ih hinner.1 hinner.2⟩

end Leads

namespace Index
variable {index : Index} {path : String}

theorem fieldAt_eq_ok_iff_leads {f : Field} :
    index.fieldAt path = .ok f ↔ Leads index.fields (dotted path) f := by
  rw [fieldAt_eq_ok]
  exact ⟨Leads.of_fieldAt?, fun h => h.fieldAt?_eq_some index.schema.distinct index.schema.settled⟩

/-- There is one way to fail. -/
theorem fieldAt_eq_error_iff {e : Error} :
    index.fieldAt path = .error e ↔
      e = .fieldNotFound path index.name ∧ ∀ f, ¬ Leads index.fields (dotted path) f := by
  simp only [← fieldAt_eq_ok_iff_leads]
  rw [fieldAt]
  cases fieldAt? index.fields (dotted path) with
  | none => simp [eq_comm]
  | some f => simp

end Index

/-! ## Keys with a dot -/

mutual

/-- A field without what is declared below it under a key with a dot. -/
def Field.undotted : Field → Field
  | .leaf kind a => .leaf kind a
  | .object a fields => .object a (undottedFields fields)

/-- Fields without those that are declared, here or below, under a key with a dot. -/
def undottedFields : List (String × Field) → List (String × Field)
  | [] => []
  | (key, f) :: rest =>
    if '.' ∈ key.toList then undottedFields rest else (key, f.undotted) :: undottedFields rest

end

theorem lookup_undottedFields {key : String} (hkey : '.' ∉ key.toList)
    (fields : List (String × Field)) :
    (undottedFields fields).lookup key = (fields.lookup key).map Field.undotted := by
  induction fields with
  | nil => rfl
  | cons e rest ih =>
      obtain ⟨k, f⟩ := e
      rw [undottedFields, Keyed.lookup_cons_eq]
      by_cases hk : key = k
      · subst hk
        rw [if_neg hkey, if_pos rfl, List.lookup_cons_self, Option.map_some]
      · rw [if_neg hk, ← ih]
        split
        · rfl
        · rw [Keyed.lookup_cons_eq, if_neg hk]

/-- What is declared under a key with a dot has no part in what keys without dots lead to. -/
theorem fieldAt?_undottedFields {keys : List String} (h : ∀ key ∈ keys, '.' ∉ key.toList)
    (fields : List (String × Field)) :
    fieldAt? (undottedFields fields) keys = (fieldAt? fields keys).map Field.undotted := by
  induction keys generalizing fields with
  | nil => rfl
  | cons key rest ih =>
      obtain ⟨hkey, hrest⟩ := List.forall_mem_cons.mp h
      have hlookup := lookup_undottedFields hkey fields
      cases rest with
      | nil => exact hlookup
      | cons next others =>
          rw [fieldAt?, fieldAt?, hlookup]
          cases fields.lookup key with
          | none => rfl
          | some f =>
              cases f with
              | leaf kind a => rfl
              | object a inner => exact ih hrest inner
          · exact List.cons_ne_nil _ _
          · exact List.cons_ne_nil _ _

/-- An answer depends on nothing that is declared under a key with a dot. -/
theorem Index.map_fieldAt (index : Index) (path : String) :
    (index.fieldAt path).map Field.undotted =
      match fieldAt? (undottedFields index.fields) (dotted path) with
      | some f => .ok f
      | none => .error (.fieldNotFound path index.name) := by
  rw [fieldAt?_undottedFields (partsOf_dotted path).undotted, fieldAt]
  cases fieldAt? index.fields (dotted path) <;> rfl

/-- A path is found exactly if its parts are a chain of declared keys, and then leads to the last
field of the chain; any other path is refused under its own name and that of the index. So each
chain of keys without dots has a path, which no other chain has. A chain with a dot in one of its
keys has none, and what is declared under such a key has no part in any answer. -/
theorem paths_are_chains_of_keys (index : Index) :
    (∀ path, ∃! parts, PartsOf path parts) ∧
    (∀ path parts f, PartsOf path parts →
      (index.fieldAt path = .ok f ↔ Leads index.fields parts f)) ∧
    (∀ path parts e, PartsOf path parts → (index.fieldAt path = .error e ↔
      e = .fieldNotFound path index.name ∧ ∀ f, ¬ Leads index.fields parts f)) ∧
    (∀ path, (Error.fieldNotFound path index.name).message =
      some s!"Field \"{path}\" not found in index \"{index.name}\".") ∧
    (∀ keys f, Leads index.fields keys f → (∀ key ∈ keys, '.' ∉ key.toList) →
      index.fieldAt (".".intercalate keys) = .ok f ∧
      ∀ others g, Leads index.fields others g → (∀ key ∈ others, '.' ∉ key.toList) →
        others ≠ keys → ".".intercalate others ≠ ".".intercalate keys) ∧
    (∀ keys f, Leads index.fields keys f → (∃ key ∈ keys, '.' ∈ key.toList) →
      ∀ path, ¬ PartsOf path keys) ∧
    ∀ index' : Index, index'.name = index.name →
      undottedFields index'.fields = undottedFields index.fields →
      ∀ path, (index'.fieldAt path).map Field.undotted = (index.fieldAt path).map Field.undotted := by
  have hparts {keys : List String} {f : Field} (h : Leads index.fields keys f)
      (hplain : ∀ key ∈ keys, '.' ∉ key.toList) : PartsOf (".".intercalate keys) keys :=
    ⟨h.ne_nil, hplain, rfl⟩
  refine ⟨fun path => ⟨_, partsOf_dotted path, fun _ => PartsOf.eq_dotted⟩, ?_, ?_, fun _ => rfl,
    ?_, ?_, ?_⟩
  · intro path parts f h
    rw [h.eq_dotted]
    exact Index.fieldAt_eq_ok_iff_leads
  · intro path parts e h
    rw [h.eq_dotted]
    exact Index.fieldAt_eq_error_iff
  · intro keys f hleads hplain
    have hkeys := (hparts hleads hplain).eq_dotted
    refine ⟨?_, fun others g hothers hplain' hne hsame => hne ?_⟩
    · rw [Index.fieldAt_eq_ok_iff_leads, ← hkeys]
      exact hleads
    · rw [(hparts hothers hplain').eq_dotted, hsame, ← hkeys]
  · rintro keys f - ⟨key, hkey, hdot⟩ path hpath
    exact hpath.undotted key hkey hdot
  · intro index' hname hfields path
    rw [index'.map_fieldAt, index.map_fieldAt, hname, hfields]

namespace Sample

/-- Boats by their owners, with a flag that is declared under the empty key, and with a further
field that is declared under a key with a dot. -/
def moored (further : LeafKind) : Schema := .ofList [
  ("id", .leaf .identifier { name := "id" }),
  ("owner", .object { name := "owner" } [
    ("name", .leaf .text { name := "name" }),
    ("", .leaf .boolean { name := "flag" })]),
  ("owner.name", .leaf further { name := "further" })]

def moorings : Index := ⟨"moorings", moored .integer, rfl⟩

/-- The same boats with a further field of another kind. -/
def datedMoorings : Index := ⟨"moorings", moored .dateTime, rfl⟩

theorem moorings_found :
    moorings.fieldAt "owner.name" = .ok (.leaf .text { name := "name" }) ∧
      moorings.fieldAt "owner." = .ok (.leaf .boolean { name := "flag" }) ∧
      "owner." ≠ "owner.name" ∧
      (∀ f, ¬ Leads moorings.fields ["owner", "name", "first"] f) ∧
      (∀ path, ¬ PartsOf path ["owner.name"]) ∧
      ∀ path, (datedMoorings.fieldAt path).map Field.undotted =
        (moorings.fieldAt path).map Field.undotted := by
  obtain ⟨-, -, hrefused, -, hfound, hdotted, hkept⟩ := paths_are_chains_of_keys moorings
  have howner : ("owner", .object { name := "owner" } [
      ("name", .leaf .text { name := "name" }),
      ("", .leaf .boolean { name := "flag" })]) ∈ moorings.fields := .tail _ (.head _)
  have hname : Leads moorings.fields ["owner", "name"] (.leaf .text { name := "name" }) :=
    .within howner (.here (.head _))
  have hflag : Leads moorings.fields ["owner", ""] (.leaf .boolean { name := "flag" }) :=
    .within howner (.here (.tail _ (.head _)))
  have hfurther : Leads moorings.fields ["owner.name"] (.leaf .integer { name := "further" }) :=
    .here (.tail _ (.tail _ (.head _)))
  have hparts : PartsOf "owner.name.first" ["owner", "name", "first"] :=
    ⟨by decide, by decide, by decide⟩
  obtain ⟨hnamePath, happart⟩ := hfound _ _ hname (by decide)
  refine ⟨hnamePath, (hfound _ _ hflag (by decide)).1,
    happart _ _ hflag (by decide) (by decide), ((hrefused _ _ _ hparts).mp rfl).2,
    hdotted _ _ hfurther ⟨_, .head _, by decide⟩, hkept datedMoorings rfl rfl⟩

end Sample

end DocSearch
