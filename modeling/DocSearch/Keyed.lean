/-!
# Keyed lists

Lists of keys and values in the order in which the keys were first written. Writing a key that is
already there replaces its value in place, so a list built by writing alone has distinct keys.
Nothing here sorts.
-/

namespace DocSearch.Keyed

variable {α : Type}

/-- Write one key. A known key keeps its place and a new one goes to the end. -/
def put (key : String) (value : α) : List (String × α) → List (String × α)
  | [] => [(key, value)]
  | (k, v) :: rest => if k = key then (key, value) :: rest else (k, v) :: put key value rest

/-- Write the entries one after the other, starting from `kept`. -/
def putAll (kept : List (String × α)) : List (String × α) → List (String × α)
  | [] => kept
  | (k, v) :: rest => putAll (put k v kept) rest

/-- The keyed list that a list of writes leaves. -/
def ofList (entries : List (String × α)) : List (String × α) := putAll [] entries

/-- No key is written twice. -/
def Distinct (entries : List (String × α)) : Prop := (entries.map Prod.fst).Nodup

theorem mem_keys_put (key : String) (value : α) (entries : List (String × α)) (k : String) :
    k ∈ (put key value entries).map Prod.fst ↔ k = key ∨ k ∈ entries.map Prod.fst := by
  induction entries with
  | nil => simp [put]
  | cons e rest ih =>
    obtain ⟨l, w⟩ := e
    by_cases h : l = key
    · simp [put, h]
    · simp only [put, h, if_false, List.map_cons, List.mem_cons, ih]
      grind

theorem distinct_put (key : String) (value : α) {entries : List (String × α)}
    (h : Distinct entries) : Distinct (put key value entries) := by
  induction entries with
  | nil => simp [put, Distinct]
  | cons e rest ih =>
    obtain ⟨l, w⟩ := e
    simp only [Distinct, List.map_cons, List.nodup_cons] at h ih
    by_cases hl : l = key
    · simp only [put, hl, if_true, Distinct, List.map_cons, List.nodup_cons]
      exact hl ▸ h
    · rw [put, if_neg hl, Distinct, List.map_cons, List.nodup_cons, mem_keys_put]
      exact ⟨not_or.2 ⟨hl, h.1⟩, ih h.2⟩

theorem distinct_putAll {kept : List (String × α)} (h : Distinct kept)
    (entries : List (String × α)) : Distinct (putAll kept entries) := by
  induction entries generalizing kept with
  | nil => exact h
  | cons e rest ih => exact ih (distinct_put e.1 e.2 h)

theorem distinct_ofList (entries : List (String × α)) : Distinct (ofList entries) :=
  distinct_putAll (by simp [Distinct]) entries

theorem put_of_notMem {key : String} {entries : List (String × α)}
    (h : key ∉ entries.map Prod.fst) (value : α) :
    put key value entries = entries ++ [(key, value)] := by
  induction entries with
  | nil => rfl
  | cons e rest ih =>
    simp only [List.map_cons, List.mem_cons, not_or] at h
    simp [put, Ne.symm h.1, ih h.2]

theorem putAll_eq_append {kept entries : List (String × α)} (h : Distinct (kept ++ entries)) :
    putAll kept entries = kept ++ entries := by
  induction entries generalizing kept with
  | nil => simp [putAll]
  | cons e rest ih =>
    have hn : e.1 ∉ kept.map Prod.fst := by
      simp only [Distinct, List.map_append, List.nodup_append, List.map_cons] at h
      exact fun hk => h.2.2 _ hk _ (List.mem_cons_self ..) rfl
    rw [putAll, put_of_notMem hn, ih (by simpa using h)]
    simp

/-- Writing entries with distinct keys changes nothing. -/
theorem ofList_eq_self {entries : List (String × α)} (h : Distinct entries) :
    ofList entries = entries := by
  exact @putAll_eq_append _ [] entries (by simpa using h)

theorem forall_put {P : α → Prop} (key : String) {value : α} {entries : List (String × α)}
    (hv : P value) (h : ∀ e ∈ entries, P e.2) : ∀ e ∈ put key value entries, P e.2 := by
  induction entries with
  | nil => simpa [put] using hv
  | cons e rest ih =>
    obtain ⟨l, w⟩ := e
    rw [List.forall_mem_cons] at h
    by_cases hl : l = key
    · simp only [put, hl, if_true, List.forall_mem_cons]
      exact ⟨hv, h.2⟩
    · simp only [put, hl, if_false, List.forall_mem_cons]
      exact ⟨h.1, ih h.2⟩

theorem forall_putAll {P : α → Prop} {kept entries : List (String × α)}
    (hk : ∀ e ∈ kept, P e.2) (h : ∀ e ∈ entries, P e.2) : ∀ e ∈ putAll kept entries, P e.2 := by
  induction entries generalizing kept with
  | nil => exact hk
  | cons e rest ih =>
    exact ih (forall_put e.1 (h e (by simp)) hk) fun e' he => h e' (by simp [he])

theorem forall_ofList {P : α → Prop} {entries : List (String × α)}
    (h : ∀ e ∈ entries, P e.2) : ∀ e ∈ ofList entries, P e.2 :=
  forall_putAll (by simp) h

end DocSearch.Keyed
