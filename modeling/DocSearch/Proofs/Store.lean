import DocSearch.Proofs.BulkRun

/-!
# Stores

A store keeps for every place the last value written under each identifier. What an ideal store is
asked for in calls is the same thing as writes to such contents, and its answers say what is there.
A phase of a bulk job writes the entries of its chunks, so how the items are cut into chunks cannot
be seen from the contents.
-/

namespace DocSearch

open Fallible

/-! ## Contents -/

/-- One write: what stands from then on under an identifier, or that nothing does. -/
structure Entry where
  place : String
  id : String
  value : Option Value

/-- What is kept, by place and identifier. -/
def Contents := String → String → Option Value

/-- The contents after one more write. -/
def Contents.apply (contents : Contents) (entry : Entry) : Contents := fun place id =>
  if place = entry.place ∧ id = entry.id then entry.value else contents place id

/-- What the last entry of a log for an identifier has written; nothing if there is no such entry
or it was a deletion. -/
def latest (log : List Entry) (place id : String) : Option Value :=
  (log.reverse.find? fun e => e.place = place ∧ e.id = id).bind Entry.value

theorem latest_concat (log : List Entry) (entry : Entry) (place id : String) :
    latest (log ++ [entry]) place id =
      if place = entry.place ∧ id = entry.id then entry.value else latest log place id := by
  unfold latest
  rw [List.reverse_append, List.reverse_singleton, List.singleton_append, List.find?_cons]
  by_cases h : place = entry.place ∧ id = entry.id
  · simp [h]
  · have hne : ¬ (entry.place = place ∧ entry.id = id) := fun heq => h ⟨heq.1.symm, heq.2.symm⟩
    simp [h, hne]

/-- The action of a bulk call that writes an entry. -/
def Entry.action : Entry → BulkAction
  | ⟨place, id, some value⟩ => .save place (some id) value
  | ⟨place, id, none⟩ => .delete place (.text id)

variable {σ : Type}

/-- A service that keeps documents: it carries out writes in the order in which they come, reports
no errors for bulk calls, confirms the deletion of what is there, and gives back what it keeps.
Deletions and look-ups of what is not there are turned down as not found. -/
structure IdealStore (service : Service σ) (contents : σ → Contents) : Prop where
  save : ∀ s place id value waits,
    contents (service.reply (.save place (some id) value waits) s).2 =
      (contents s).apply ⟨place, id, some value⟩
  delete : ∀ s place id waits,
    contents (service.reply (.delete place (.text id) waits) s).2 =
      (contents s).apply ⟨place, id, none⟩
  bulk : ∀ s (entries : List Entry) waits,
    contents (service.reply (.bulk (entries.map Entry.action) waits) s).2 =
      entries.foldl Contents.apply (contents s)
  noErrors : ∀ s (entries : List Entry) waits, ∃ answer,
    (service.reply (.bulk (entries.map Entry.action) waits) s).1 = .ok answer ∧
      answer.member "errors" = .ok (.bool false)
  deleted : ∀ s place id waits, contents s place id ≠ none → ∃ answer,
    (service.reply (.delete place (.text id) waits) s).1 = .ok answer ∧
      answer.member "result" = .ok (.text "deleted")
  notDeleted : ∀ s place id waits, contents s place id = none → ∃ fault,
    (service.reply (.delete place (.text id) waits) s).1 = .error fault ∧ fault.kind = .notFound
  found : ∀ s place id value, contents s place id = some value → ∃ answer,
    (service.reply (.get place (.text id)) s).1 = .ok answer ∧
      answer.member "_source" = .ok value
  notFound : ∀ s place id, contents s place id = none → ∃ fault,
    (service.reply (.get place (.text id)) s).1 = .error fault ∧ fault.kind = .notFound

/-! ## Chunks of writes -/

theorem IdealStore.run_chunk {service : Service σ} {contents : σ → Contents}
    (hstore : IdealStore service contents) {index : Index} {phase : BulkPhase} {waits : Bool}
    {request : Except Error (Request Unit)} {entries : List Entry}
    (hrequest : request = .ok ⟨.bulk (entries.map Entry.action) waits, readBulk index phase⟩)
    (s : σ) :
    (service.run s request).result = .ok () ∧
      contents (service.run s request).state = entries.foldl Contents.apply (contents s) := by
  subst hrequest
  obtain ⟨answer, hanswer, hflag⟩ := hstore.noErrors s entries waits
  exact ⟨readBulk_eq_ok.mpr ⟨answer, _, hanswer, hflag, rfl⟩, hstore.bulk s entries waits⟩

/-- A phase whose items each write one entry writes all of them, in order and whatever the size of
its chunks. -/
theorem IdealStore.sendChunks {service : Service σ} {contents : σ → Contents}
    (hstore : IdealStore service contents) {plan : List Value → Except Error (Request Unit)}
    {writes : Value → Entry → Prop} {index : Index} {phase : BulkPhase} {waits : Bool}
    (hplan : ∀ chunk entries, List.Forall₂ writes chunk entries →
      plan chunk = .ok ⟨.bulk (entries.map Entry.action) waits, readBulk index phase⟩)
    {size pulls : Nat} (hsize : 0 < size) {items : List Value} {entries : List Entry}
    (hitems : List.Forall₂ writes items entries) (hpulls : items.length < pulls) (drawn : Nat)
    (s : σ) :
    ∃ calls s' rest, service.sendChunks plan size pulls ⟨.list items, drawn⟩ s =
        ⟨some (.ok ()), calls, s', rest⟩ ∧
      contents s' = entries.foldl Contents.apply (contents s) := by
  induction pulls generalizing items entries drawn s with
  | zero => omega
  | succ pulls ih =>
      by_cases hnil : items = []
      · subst hnil
        have hnone : entries = [] := List.forall₂_nil_left_iff.mp hitems
        subst hnone
        exact ⟨_, _, _, sendChunks_of_nil List.take_nil, rfl⟩
      · have hlength : 0 < items.length := List.length_pos_iff.mpr hnil
        have hfewer : (items.drop size).length < pulls := by
          rw [List.length_drop]
          omega
        have hne : (⟨.list items, drawn⟩ : Source Value).upcoming size ≠ [] := by
          have hsize' : size ≠ 0 := by omega
          simp [Source.upcoming, List.take_eq_nil_iff, hsize', hnil]
        -- the chunk writes the first entries, and the rest of the run writes those behind them
        have hchunk := hplan _ _ (List.forall₂_take size hitems)
        obtain ⟨hok, hstate⟩ := hstore.run_chunk hchunk s
        obtain ⟨calls, s', rest, hrest, hcontents⟩ :=
          ih (List.forall₂_drop size hitems) hfewer (drawn + min items.length size)
            (service.run s (plan (items.take size))).state
        have hall : service.sendChunks plan size (pulls + 1) ⟨.list items, drawn⟩ s =
            ⟨some (.ok ()), (service.run s (plan (items.take size))).calls ++ calls, s', rest⟩ := by
          rw [sendChunks_of_ok hne hok]
          simp only [Source.skip, Source.upcoming, hrest]
        refine ⟨_, s', rest, hall, ?_⟩
        rw [hcontents, hstate, ← List.foldl_append, List.take_append_drop]

end DocSearch
