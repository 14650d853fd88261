import DocSearch.Proofs.BulkRun

/-!
# Calls played back

A service is played the calls that were made, so that for each of them there is the state in which
it was made. A bulk job makes no calls but those for its chunks: what holds of every chunk, and of
calls put one behind the other, holds of a whole job, wherever the job ends.
-/

namespace DocSearch

open Fallible

variable {σ α : Type}

/-- The state in which calls leave a service. -/
def Service.after (service : Service σ) (state : σ) (calls : List Call) : σ :=
  calls.foldl (fun s call => (service.reply call s).2) state

theorem Service.after_append (service : Service σ) (state : σ) (calls further : List Call) :
    service.after state (calls ++ further) = service.after (service.after state calls) further :=
  List.foldl_append

/-- A request leaves the state in which its call leaves the service. -/
theorem Service.run_state (service : Service σ) (state : σ) (request : Except Error (Request α)) :
    (service.run state request).state =
      service.after state (service.run state request).calls := by
  cases request <;> rfl

/-! ## Bulk jobs, chunk by chunk -/

/-- A property of what happens between two states: of the calls and of the result, which may be
missing. It holds where nothing happens, and of what happens after something that ended well. -/
structure Chained (P : σ → List Call → σ → Option (Except Error Unit) → Prop) : Prop where
  idle : ∀ s, P s [] s none ∧ P s [] s (some (.ok ()))
  append : ∀ {s s' s'' calls further r}, P s calls s' (some (.ok ())) → P s' further s'' r →
    P s (calls ++ further) s'' r

section
variable {service : Service σ} {index : Index} {names : PointNames} {waits : Bool} {size : Nat}
variable {P : σ → List Call → σ → Option (Except Error Unit) → Prop}

theorem Chained.sendChunks (h : Chained P) {plan : List Value → Except Error (Request Unit)}
    (hchunk : ∀ s chunk, P s (service.run s (plan chunk)).calls (service.run s (plan chunk)).state
      (some (service.run s (plan chunk)).result))
    {pulls : Nat} {source rest : Source Value} {s s' : σ} {calls : List Call}
    {r : Option (Except Error Unit)}
    (hrun : service.sendChunks plan size pulls source s = ⟨r, calls, s', rest⟩) :
    P s calls s' r := by
  induction pulls generalizing source s calls with
  | zero =>
      cases hrun
      exact (h.idle _).1
  | succ pulls ih =>
      by_cases hnil : source.upcoming size = []
      · rw [sendChunks_of_nil hnil] at hrun
        cases hrun
        exact (h.idle _).2
      · have hfirst := hchunk s (source.upcoming size)
        cases hresult : (service.run s (plan (source.upcoming size))).result with
        | error e =>
            rw [sendChunks_of_error hnil hresult] at hrun
            cases hrun
            rw [← hresult]
            exact hfirst
        | ok _ =>
            rw [sendChunks_of_ok hnil hresult] at hrun
            cases hrun
            rw [hresult] at hfirst
            exact h.append hfirst (ih rfl)

/-- What holds of each chunk holds of a job that has settings. A task stands for a job that ended
well. -/
theorem Chained.bulk (h : Chained P)
    (hchunk : ∀ phase s chunk,
      P s (service.run s (index.chunkRequest names waits phase chunk)).calls
        (service.run s (index.chunkRequest names waits phase chunk)).state
        (some (service.run s (index.chunkRequest names waits phase chunk)).result))
    {job : BulkJob} (hsettings : job.settings = .ok (waits, size)) (patience : Nat) (state : σ) :
    let run := service.bulk index names job patience state
    ∃ ended, P state run.calls run.state ended ∧
      run.result =
        ended.map fun done => done.map fun _ => if waits then some ⟨.null⟩ else none := by
  intro run
  rcases hsaves : service.sendChunks (index.chunkRequest names waits .indexing) size
    (job.saves.pullsToEnd.getD patience) job.saves state with ⟨ended, calls, s, saves⟩
  have hfirst := h.sendChunks (hchunk .indexing) hsaves
  match ended with
  | none =>
      have hrun : run = _ := bulk_of_unfinished hsettings hsaves
      rw [hrun]
      exact ⟨none, hfirst, rfl⟩
  | some (.error e) =>
      have hrun : run = _ := bulk_of_saving hsettings hsaves
      rw [hrun]
      exact ⟨some (.error e), hfirst, rfl⟩
  | some (.ok ()) =>
      have hrun : run = _ := bulk_of_deleting hsettings hsaves
      rw [hrun]
      exact ⟨_, h.append hfirst (h.sendChunks (hchunk .deleting) rfl), rfl⟩

end

end DocSearch
