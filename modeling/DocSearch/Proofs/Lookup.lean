import DocSearch.Keyed

/-!
# Keyed lists read by key

What a look-up finds in a keyed list, and what it finds after a list of writes: the last write of
the key, or else what was there before.
-/

namespace DocSearch.Keyed

variable {α : Type}

theorem lookup_cons_eq (key : String) (value : α) (rest : List (String × α)) (k : String) :
    ((key, value) :: rest).lookup k = if k = key then some value else rest.lookup k := by
  by_cases hk : k = key
  · rw [if_pos hk, hk, List.lookup_cons_self]
  · rw [if_neg hk, List.lookup_cons, beq_eq_false_iff_ne.mpr hk]

theorem ofList_pair {first second : String} (h : first ≠ second) (x y : α) :
    ofList [(first, x), (second, y)] = [(first, x), (second, y)] :=
  ofList_eq_self (by simpa [Distinct] using h)

theorem lookup_eq_none_iff_notMem {entries : List (String × α)} {key : String} :
    entries.lookup key = none ↔ key ∉ entries.map Prod.fst := by
  rw [List.lookup_eq_none_iff, List.mem_map]
  constructor
  · rintro h ⟨e, he, rfl⟩
    simpa using h e he
  · intro h e he
    rw [bne_iff_ne]
    exact fun heq => h ⟨e, he, heq.symm⟩

theorem mem_keys_iff_exists_lookup {entries : List (String × α)} {key : String} :
    key ∈ entries.map Prod.fst ↔ ∃ value, entries.lookup key = some value := by
  rw [← Option.isSome_iff_exists, Option.isSome_iff_ne_none, Ne, lookup_eq_none_iff_notMem,
    Decidable.not_not]

/-- A key that two lists share, if either has it, is looked up in both or in neither. -/
theorem lookup_of_mem_keys_iff {entries others : List (String × α)} {key : String}
    (h : key ∈ entries.map Prod.fst ↔ key ∈ others.map Prod.fst) :
    (entries.lookup key = none ∧ others.lookup key = none) ∨
      ∃ x y, entries.lookup key = some x ∧ others.lookup key = some y := by
  by_cases hkey : key ∈ others.map Prod.fst
  · obtain ⟨x, hx⟩ := mem_keys_iff_exists_lookup.mp (h.mpr hkey)
    obtain ⟨y, hy⟩ := mem_keys_iff_exists_lookup.mp hkey
    exact .inr ⟨x, y, hx, hy⟩
  · exact .inl ⟨lookup_eq_none_iff_notMem.mpr (hkey ∘ h.mp), lookup_eq_none_iff_notMem.mpr hkey⟩

theorem mem_of_lookup_eq_some {entries : List (String × α)} {key : String} {value : α}
    (h : entries.lookup key = some value) : (key, value) ∈ entries := by
  obtain ⟨before, after, rfl, -⟩ := List.lookup_eq_some_iff.mp h
  exact List.mem_append_right _ List.mem_cons_self

/-- Where no key is written twice every entry can be looked up. -/
theorem lookup_eq_some_iff_mem {entries : List (String × α)} (hd : Distinct entries) {key : String}
    {value : α} : entries.lookup key = some value ↔ (key, value) ∈ entries := by
  refine ⟨mem_of_lookup_eq_some, fun h => ?_⟩
  induction entries with
  | nil => cases h
  | cons e rest ih =>
      obtain ⟨k, v⟩ := e
      rw [Distinct, List.map_cons, List.nodup_cons] at hd
      rcases List.mem_cons.mp h with heq | hrest
      · obtain ⟨rfl, rfl⟩ := Prod.mk.inj heq
        exact List.lookup_cons_self
      · have hne : key ≠ k := by
          rintro rfl
          exact hd.1 (List.mem_map.mpr ⟨(key, value), hrest, rfl⟩)
        rw [lookup_cons_eq, if_neg hne]
        exact ih hd.2 hrest

/-- A list without repeated keys is determined by its keys in order and by what is looked up. -/
theorem eq_of_lookup_eq {entries others : List (String × α)} (hd : Distinct entries)
    (hkeys : entries.map Prod.fst = others.map Prod.fst)
    (h : ∀ key ∈ entries.map Prod.fst, entries.lookup key = others.lookup key) :
    entries = others := by
  induction entries generalizing others with
  | nil => rw [List.map_eq_nil_iff.mp hkeys.symm]
  | cons e rest ih =>
      obtain ⟨k, v⟩ := e
      obtain ⟨⟨l, w⟩, others, rfl, rfl, hrest⟩ := List.map_eq_cons_iff.mp hkeys.symm
      rw [Distinct, List.map_cons, List.nodup_cons] at hd
      rw [List.map_cons, List.forall_mem_cons] at h
      have hfirst := h.1
      rw [List.lookup_cons_self, List.lookup_cons_self] at hfirst
      rw [Option.some.inj hfirst, ih hd.2 hrest.symm]
      intro key hkey
      have hne : key ≠ l := by
        rintro rfl
        exact hd.1 hkey
      have hlookup := h.2 key hkey
      rw [lookup_cons_eq, lookup_cons_eq, if_neg hne, if_neg hne] at hlookup
      exact hlookup

theorem lookup_put (key : String) (value : α) (entries : List (String × α)) (k : String) :
    (put key value entries).lookup k = if k = key then some value else entries.lookup k := by
  induction entries with
  | nil => rw [put, lookup_cons_eq]
  | cons e rest ih =>
      obtain ⟨l, w⟩ := e
      rw [put]
      by_cases hl : l = key
      · subst hl
        rw [if_pos rfl, lookup_cons_eq, lookup_cons_eq]
        by_cases hk : k = l
        · rw [if_pos hk, if_pos hk]
        · rw [if_neg hk, if_neg hk, if_neg hk]
      · rw [if_neg hl, lookup_cons_eq, lookup_cons_eq, ih]
        by_cases hk : k = l
        · rw [if_pos hk, if_pos hk, if_neg (fun h => hl (hk.symm.trans h))]
        · rw [if_neg hk, if_neg hk]

theorem mem_keys_putAll (kept entries : List (String × α)) (k : String) :
    k ∈ (putAll kept entries).map Prod.fst ↔
      k ∈ kept.map Prod.fst ∨ k ∈ entries.map Prod.fst := by
  induction entries generalizing kept with
  | nil => simp [putAll]
  | cons e rest ih =>
      rw [putAll, ih, mem_keys_put, List.map_cons, List.mem_cons, or_assoc]
      exact or_left_comm

theorem mem_keys_ofList (entries : List (String × α)) (k : String) :
    k ∈ (ofList entries).map Prod.fst ↔ k ∈ entries.map Prod.fst := by
  rw [ofList, mem_keys_putAll]
  simp

/-- Writes of other keys leave a look-up as it is. -/
theorem lookup_putAll_of_notMem {kept entries : List (String × α)} {key : String}
    (h : key ∉ entries.map Prod.fst) : (putAll kept entries).lookup key = kept.lookup key := by
  induction entries generalizing kept with
  | nil => rfl
  | cons e rest ih =>
      rw [List.map_cons, List.mem_cons, not_or] at h
      rw [putAll, ih h.2, lookup_put, if_neg h.1]

/-- A key that is written has one of the values written for it. -/
theorem lookup_putAll_of_mem {kept entries : List (String × α)} {key : String}
    (h : key ∈ entries.map Prod.fst) :
    ∃ value, (key, value) ∈ entries ∧ (putAll kept entries).lookup key = some value := by
  induction entries generalizing kept with
  | nil => cases h
  | cons e rest ih =>
      by_cases hrest : key ∈ rest.map Prod.fst
      · obtain ⟨value, hmem, hl⟩ := @ih (put e.1 e.2 kept) hrest
        exact ⟨value, List.mem_cons_of_mem _ hmem, hl⟩
      · rw [List.map_cons, List.mem_cons] at h
        have hkey := h.resolve_right hrest
        subst hkey
        refine ⟨e.2, List.mem_cons_self, ?_⟩
        rw [putAll, lookup_putAll_of_notMem hrest, lookup_put, if_pos rfl]

end DocSearch.Keyed
