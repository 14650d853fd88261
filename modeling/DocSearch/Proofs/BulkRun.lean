import DocSearch.Document.Bulk
import DocSearch.Proofs.Chunks
import DocSearch.Proofs.PlainTexts
import DocSearch.Proofs.Sample

/-!
# Runs of a bulk job

How far a bulk job comes and what it leaves behind. A phase is followed chunk by chunk: the state of
the service, the calls made and the number of chunks sent are carried along, and each chunk adds one
call or ends the run. The service is arbitrary; its replies may depend on everything it was asked
before.
-/

namespace DocSearch

open Fallible

variable {σ : Type}

/-- The actions of the call for one chunk of a phase. -/
def Index.chunkActions (index : Index) (names : PointNames) (phase : BulkPhase)
    (chunk : List Value) : Except Error (List BulkAction) :=
  match phase with
  | .indexing => chunk.mapM (index.saveAction names)
  | .deleting => .ok (chunk.map (.delete index.name))

/-- The request for one chunk of a phase. -/
def Index.chunkRequest (index : Index) (names : PointNames) (waits : Bool) (phase : BulkPhase) :
    List Value → Except Error (Request Unit) :=
  match phase with
  | .indexing => index.saveChunk names waits
  | .deleting => index.deleteChunk waits

theorem Index.chunkRequest_eq (index : Index) (names : PointNames) (waits : Bool)
    (phase : BulkPhase) (chunk : List Value) :
    index.chunkRequest names waits phase chunk = (do
      let actions ← index.chunkActions names phase chunk
      return ⟨.bulk actions waits, readBulk index phase⟩) := by
  cases phase <;> rfl

/-- A document that can be put into a call: it can be converted, and the identifier in its wire form
can be written. -/
def Index.Sendable (index : Index) (names : PointNames) (document : Value) : Prop :=
  ∃ wire, index.schema.toWire names document = .ok wire ∧ WritableUnder index.identifier.name wire

theorem Index.saveAction_eq_error {index : Index} {names : PointNames} {document : Value}
    {e : Error} :
    index.saveAction names document = .error e ↔ index.schema.toWire names document = .error e ∨
      ∃ wire, index.schema.toWire names document = .ok wire ∧
        ¬ WritableUnder index.identifier.name wire ∧ e = .tooManyDigits := by
  simp [Index.saveAction, bind_eq_error, identifierText_eq_error]

theorem Index.exists_saveAction {index : Index} {names : PointNames} {document : Value} :
    (∃ action, index.saveAction names document = .ok action) ↔ index.Sendable names document := by
  simp only [Index.saveAction, bind_eq_ok, pure_eq_ok, Index.Sendable, ← exists_identifierText]
  constructor
  · intro hsaved
    rcases hsaved with ⟨_, wire, hwire, id, hid, _⟩
    exact ⟨wire, hwire, id, hid⟩
  · intro hsendable
    rcases hsendable with ⟨wire, hwire, id, hid⟩
    exact ⟨_, wire, hwire, id, hid, rfl⟩

theorem readBulk_eq_ok {index : Index} {phase : BulkPhase} {reply : Reply} :
    readBulk index phase reply = .ok () ↔ ∃ answer flag, reply = .ok answer ∧
      answer.member "errors" = .ok flag ∧ flag.truthy = false := by
  cases reply with
  | error fault => simp [readBulk, Reply.answer]
  | ok answer =>
      cases hm : answer.member "errors" with
      | error e => simp [readBulk, Reply.answer, hm]
      | ok flag => cases ht : flag.truthy <;> simp [readBulk, Reply.answer, hm, ht]

theorem readBulk_eq_error {index : Index} {phase : BulkPhase} {reply : Reply} {e : Error} :
    readBulk index phase reply = .error e ↔
      (∃ fault, reply = .error fault ∧ e = .fault fault) ∨
      (∃ answer, reply = .ok answer ∧ answer.member "errors" = .error e) ∨
      ∃ answer flag, reply = .ok answer ∧ answer.member "errors" = .ok flag ∧
        flag.truthy = true ∧ e = .bulkFailed index.name phase := by
  cases reply with
  | error fault => simp [readBulk, Reply.answer, eq_comm (a := e)]
  | ok answer =>
      cases hm : answer.member "errors" with
      | error e' => simp [readBulk, Reply.answer, hm]
      | ok flag => cases ht : flag.truthy <;> simp [readBulk, Reply.answer, hm, ht, eq_comm (a := e)]

section Phase
variable (service : Service σ) (index : Index) (names : PointNames) (waits : Bool)
variable (phase : BulkPhase)

/-- The chunks of a source before number `c` have been sent, with one call each and in order, and no
answer reported an error. The calls and the state of the service afterwards stand at the end. -/
inductive ChunksSent (size : Nat) (source : Source Value) (state : σ) :
    Nat → List Call → σ → Prop
  | start : ChunksSent size source state 0 [] state
  | next {c : Nat} {calls : List Call} {s : σ} {actions : List BulkAction} {answer flag : Value} :
      ChunksSent size source state c calls s →
      source.chunk size c ≠ [] →
      index.chunkActions names phase (source.chunk size c) = .ok actions →
      (service.reply (.bulk actions waits) s).1 = .ok answer →
      answer.member "errors" = .ok flag →
      flag.truthy = false →
      ChunksSent size source state (c + 1) (calls ++ [.bulk actions waits])
        (service.reply (.bulk actions waits) s).2

/-- The ways in which a chunk fails, each with the error and the calls made for the chunk: a
document that cannot be converted or whose identifier cannot be written, before anything is sent; a
call that is not answered; an answer that does not say whether there were errors; and one that says
there were. -/
inductive ChunkFails (state : σ) : List Value → Error → List Call → Prop
  | document {before after : List Value} {document : Value} {e : Error} :
      phase = .indexing →
      (∀ d ∈ before, index.Sendable names d) →
      index.schema.toWire names document = .error e →
      ChunkFails state (before ++ document :: after) e []
  | identifier {before after : List Value} {document : Value} {wire : Members} :
      phase = .indexing →
      (∀ d ∈ before, index.Sendable names d) →
      index.schema.toWire names document = .ok wire →
      ¬ WritableUnder index.identifier.name wire →
      ChunkFails state (before ++ document :: after) .tooManyDigits []
  | fault {chunk : List Value} {actions : List BulkAction} {fault : Fault} :
      index.chunkActions names phase chunk = .ok actions →
      (service.reply (.bulk actions waits) state).1 = .error fault →
      ChunkFails state chunk (.fault fault) [.bulk actions waits]
  | unreadable {chunk : List Value} {actions : List BulkAction} {answer : Value} {e : Error} :
      index.chunkActions names phase chunk = .ok actions →
      (service.reply (.bulk actions waits) state).1 = .ok answer →
      answer.member "errors" = .error e →
      ChunkFails state chunk e [.bulk actions waits]
  | reported {chunk : List Value} {actions : List BulkAction} {answer flag : Value} :
      index.chunkActions names phase chunk = .ok actions →
      (service.reply (.bulk actions waits) state).1 = .ok answer →
      answer.member "errors" = .ok flag →
      flag.truthy = true →
      ChunkFails state chunk (.bulkFailed index.name phase) [.bulk actions waits]

end Phase

section
variable {service : Service σ} {index : Index} {names : PointNames} {waits : Bool}
variable {phase : BulkPhase} {size : Nat} {source : Source Value} {state : σ}

theorem ChunksSent.chunk_ne_nil {c : Nat} {calls : List Call} {s : σ}
    (h : ChunksSent service index names waits phase size source state c calls s) :
    ∀ i < c, source.chunk size i ≠ [] := by
  induction h with
  | start =>
      intro i hi
      omega
  | @next c _ _ _ _ _ _ hne _ _ _ _ ih =>
      intro i hi
      rcases Nat.lt_succ_iff_lt_or_eq.mp hi with hlt | rfl
      · exact ih i hlt
      · exact hne

theorem run_chunk_of_actions_eq_ok {chunk : List Value} {actions : List BulkAction}
    (h : index.chunkActions names phase chunk = .ok actions) :
    service.run state (index.chunkRequest names waits phase chunk) =
      ⟨readBulk index phase (service.reply (.bulk actions waits) state).1, [.bulk actions waits],
        (service.reply (.bulk actions waits) state).2⟩ := by
  rw [Index.chunkRequest_eq, h]
  rfl

theorem run_chunk_of_actions_eq_error {chunk : List Value} {e : Error}
    (h : index.chunkActions names phase chunk = .error e) :
    service.run state (index.chunkRequest names waits phase chunk) = ⟨.error e, [], state⟩ := by
  rw [Index.chunkRequest_eq, h]
  rfl

theorem chunkActions_eq_error {chunk : List Value} {e : Error} :
    index.chunkActions names phase chunk = .error e ↔ phase = .indexing ∧
      ∃ before document after, chunk = before ++ document :: after ∧
        (∀ d ∈ before, index.Sendable names d) ∧
        index.saveAction names document = .error e := by
  cases phase with
  | indexing => simp only [Index.chunkActions, mapM_eq_error, Index.exists_saveAction, true_and]
  | deleting => simp [Index.chunkActions]

/-- A chunk fails where its operations cannot be put together, and nothing is sent then, or where
what is answered to them is an error. -/
theorem run_chunk_eq_error {chunk : List Value} {e : Error} {calls : List Call} :
    (service.run state (index.chunkRequest names waits phase chunk)).result = .error e ∧
        (service.run state (index.chunkRequest names waits phase chunk)).calls = calls ↔
      index.chunkActions names phase chunk = .error e ∧ calls = [] ∨
      ∃ actions, index.chunkActions names phase chunk = .ok actions ∧
        readBulk index phase (service.reply (.bulk actions waits) state).1 = .error e ∧
        calls = [.bulk actions waits] := by
  cases hactions : index.chunkActions names phase chunk with
  | error e' =>
      rw [run_chunk_of_actions_eq_error hactions]
      simp [eq_comm]
  | ok actions =>
      rw [run_chunk_of_actions_eq_ok hactions]
      simp [eq_comm]

/-- The listed ways to fail are all there are. -/
theorem chunkFails_iff {chunk : List Value} {e : Error} {calls : List Call} :
    ChunkFails service index names waits phase state chunk e calls ↔
      (service.run state (index.chunkRequest names waits phase chunk)).result = .error e ∧
        (service.run state (index.chunkRequest names waits phase chunk)).calls = calls := by
  rw [run_chunk_eq_error]
  constructor
  · intro h
    cases h with
    | @document before after document e hphase hbefore hdocument =>
        have haction := Index.saveAction_eq_error.mpr (.inl hdocument)
        exact .inl ⟨chunkActions_eq_error.mpr
          ⟨hphase, before, document, after, rfl, hbefore, haction⟩, rfl⟩
    | @identifier before after document wire hphase hbefore hwire hid =>
        have haction := Index.saveAction_eq_error.mpr (.inr ⟨wire, hwire, hid, rfl⟩)
        exact .inl ⟨chunkActions_eq_error.mpr
          ⟨hphase, before, document, after, rfl, hbefore, haction⟩, rfl⟩
    | @fault _ actions fault hactions hreply =>
        exact .inr ⟨actions, hactions, readBulk_eq_error.mpr (.inl ⟨fault, hreply, rfl⟩), rfl⟩
    | @unreadable _ actions answer e hactions hreply hflag =>
        exact .inr ⟨actions, hactions,
          readBulk_eq_error.mpr (.inr (.inl ⟨answer, hreply, hflag⟩)), rfl⟩
    | @reported _ actions answer flag hactions hreply hflag htruthy =>
        exact .inr ⟨actions, hactions,
          readBulk_eq_error.mpr (.inr (.inr ⟨answer, flag, hreply, hflag, htruthy, rfl⟩)), rfl⟩
  · rintro (⟨hactions, rfl⟩ | ⟨actions, hactions, hread, rfl⟩)
    · obtain ⟨hphase, _, _, _, rfl, hbefore, haction⟩ := chunkActions_eq_error.mp hactions
      rcases Index.saveAction_eq_error.mp haction with hdocument | ⟨wire, hwire, hid, rfl⟩
      · exact .document hphase hbefore hdocument
      · exact .identifier hphase hbefore hwire hid
    · rcases readBulk_eq_error.mp hread with
        ⟨fault, hreply, rfl⟩ | ⟨answer, hreply, hflag⟩ | ⟨answer, flag, hreply, hflag, ht, rfl⟩
      · exact .fault hactions hreply
      · exact .unreadable hactions hreply hflag
      · exact .reported hactions hreply hflag ht

/-- A chunk that does not fail has been answered without an error. -/
theorem ChunksSent.next_of_run {c : Nat} {calls : List Call} {s : σ}
    (h : ChunksSent service index names waits phase size source state c calls s)
    (hne : source.chunk size c ≠ [])
    (hok : (service.run s (index.chunkRequest names waits phase (source.chunk size c))).result =
      .ok ()) :
    ChunksSent service index names waits phase size source state (c + 1)
      (calls ++ (service.run s (index.chunkRequest names waits phase (source.chunk size c))).calls)
      (service.run s (index.chunkRequest names waits phase (source.chunk size c))).state := by
  cases hactions : index.chunkActions names phase (source.chunk size c) with
  | error e =>
      rw [run_chunk_of_actions_eq_error hactions] at hok
      cases hok
  | ok actions =>
      rw [run_chunk_of_actions_eq_ok hactions] at hok ⊢
      obtain ⟨answer, flag, hreply, hflag, htruthy⟩ := readBulk_eq_ok.mp hok
      exact .next h hne hactions hreply hflag htruthy

/-! ## One phase -/

section
variable {α : Type} {plan : List α → Except Error (Request Unit)} {items : Source α}

theorem sendChunks_of_nil {pulls : Nat} (h : items.upcoming size = []) :
    service.sendChunks plan size (pulls + 1) items state =
      ⟨some (.ok ()), [], state, items.skip size⟩ := by
  rw [Service.sendChunks, Source.pull_eq, h]

theorem sendChunks_of_error {pulls : Nat} {e : Error} (hne : items.upcoming size ≠ [])
    (h : (service.run state (plan (items.upcoming size))).result = .error e) :
    service.sendChunks plan size (pulls + 1) items state =
      ⟨some (.error e), (service.run state (plan (items.upcoming size))).calls,
        (service.run state (plan (items.upcoming size))).state, items.skip size⟩ := by
  rw [Service.sendChunks, Source.pull_eq]
  cases hu : items.upcoming size with
  | nil => exact absurd hu hne
  | cons a chunk =>
      rw [hu] at h
      dsimp only
      generalize service.run state (plan (a :: chunk)) = done at h
      obtain ⟨result, calls, s⟩ := done
      have hinj : result = .error e := h
      subst hinj
      rfl

theorem sendChunks_of_ok {pulls : Nat} (hne : items.upcoming size ≠ [])
    (h : (service.run state (plan (items.upcoming size))).result = .ok ()) :
    service.sendChunks plan size (pulls + 1) items state =
      let rest := service.sendChunks plan size pulls (items.skip size)
        (service.run state (plan (items.upcoming size))).state
      { rest with calls := (service.run state (plan (items.upcoming size))).calls ++ rest.calls } := by
  rw [Service.sendChunks, Source.pull_eq]
  cases hu : items.upcoming size with
  | nil => exact absurd hu hne
  | cons a chunk =>
      rw [hu] at h
      dsimp only
      generalize service.run state (plan (a :: chunk)) = done at h
      obtain ⟨result, calls, s⟩ := done
      have hinj : result = .ok () := h
      subst hinj
      rfl

end

/-- Behind chunks that were sent well a phase goes on as it would from there. -/
theorem ChunksSent.sendChunks {c : Nat} {calls : List Call} {s : σ}
    (h : ChunksSent service index names waits phase size source state c calls s) (pulls : Nat) :
    service.sendChunks (index.chunkRequest names waits phase) size (c + pulls) source state =
      let rest := service.sendChunks (index.chunkRequest names waits phase) size pulls
        (source.skip (c * size)) s
      { rest with calls := calls ++ rest.calls } := by
  induction h generalizing pulls with
  | start => simp only [Nat.zero_mul, Nat.zero_add, Source.skip_zero, List.nil_append]
  | @next c calls s actions answer flag _ hne hactions hreply hflag htruthy ih =>
      have hrun : service.run s (index.chunkRequest names waits phase (source.chunk size c)) =
          ⟨readBulk index phase (service.reply (.bulk actions waits) s).1, [.bulk actions waits],
            (service.reply (.bulk actions waits) s).2⟩ := run_chunk_of_actions_eq_ok hactions
      have hok : (service.run s
          (index.chunkRequest names waits phase (source.chunk size c))).result = .ok () := by
        rw [hrun]
        exact readBulk_eq_ok.mpr ⟨answer, flag, hreply, hflag, htruthy⟩
      rw [Nat.add_right_comm, Nat.add_assoc, ih (pulls + 1), sendChunks_of_ok hne hok]
      unfold Source.chunk at hrun
      simp only [hrun, Source.skip_chunk, List.append_assoc]

/-- A chunk that fails ends its phase. -/
theorem ChunksSent.sendChunks_of_fails {c pulls : Nat} {calls last : List Call} {s : σ} {e : Error}
    (h : ChunksSent service index names waits phase size source state c calls s)
    (hne : source.chunk size c ≠ [])
    (hf : ChunkFails service index names waits phase s (source.chunk size c) e last)
    (hpulls : c < pulls) :
    ∃ s', service.sendChunks (index.chunkRequest names waits phase) size pulls source state =
      ⟨some (.error e), calls ++ last, s', source.skip ((c + 1) * size)⟩ := by
  obtain ⟨pulls, rfl⟩ := Nat.exists_eq_add_of_lt hpulls
  obtain ⟨hresult, rfl⟩ := chunkFails_iff.mp hf
  refine ⟨(service.run s (index.chunkRequest names waits phase (source.chunk size c))).state, ?_⟩
  rw [Nat.add_assoc, h.sendChunks, sendChunks_of_error hne hresult]
  simp only [Source.skip_chunk]
  rfl

/-- A phase is over when a chunk would be empty. -/
theorem ChunksSent.sendChunks_of_nil {c pulls : Nat} {calls : List Call} {s : σ}
    (h : ChunksSent service index names waits phase size source state c calls s)
    (hnil : source.chunk size c = []) (hpulls : c < pulls) :
    service.sendChunks (index.chunkRequest names waits phase) size pulls source state =
      ⟨some (.ok ()), calls, s, source.skip ((c + 1) * size)⟩ := by
  obtain ⟨pulls, rfl⟩ := Nat.exists_eq_add_of_lt hpulls
  rw [Nat.add_assoc, h.sendChunks, DocSearch.sendChunks_of_nil hnil]
  simp only [Source.skip_chunk, List.append_nil]

/-- A phase that has a result has come to an empty chunk or to one that fails. -/
theorem ChunksSent.exists_end {c pulls : Nat} {calls : List Call} {s : σ} {r : Except Error Unit}
    (h : ChunksSent service index names waits phase size source state c calls s)
    (hr : (service.sendChunks (index.chunkRequest names waits phase) size pulls
      (source.skip (c * size)) s).result = some r) :
    ∃ n calls' s', ChunksSent service index names waits phase size source state n calls' s' ∧
      ((r = .ok () ∧ source.chunk size n = []) ∨
        ∃ e last, r = .error e ∧ source.chunk size n ≠ [] ∧
          ChunkFails service index names waits phase s' (source.chunk size n) e last) := by
  induction pulls generalizing c calls s with
  | zero => simp [Service.sendChunks] at hr
  | succ pulls ih =>
      by_cases hne : source.chunk size c = []
      · rw [DocSearch.sendChunks_of_nil hne] at hr
        exact ⟨c, calls, s, h, Or.inl ⟨(Option.some.inj hr).symm, hne⟩⟩
      · cases hrun : (service.run s
          (index.chunkRequest names waits phase (source.chunk size c))).result with
        | error e =>
            rw [sendChunks_of_error hne hrun] at hr
            exact ⟨c, calls, s, h, Or.inr ⟨e, _, (Option.some.inj hr).symm, hne,
              chunkFails_iff.mpr ⟨hrun, rfl⟩⟩⟩
        | ok u =>
            rw [sendChunks_of_ok hne hrun, Source.skip_chunk] at hr
            exact ih (h.next_of_run hne hrun) hr

end

/-! ## The whole job -/

/-- The source of a phase. -/
def BulkJob.source (job : BulkJob) : BulkPhase → Source Value
  | .indexing => job.saves
  | .deleting => job.deletes

section
variable (service : Service σ) (index : Index) (names : PointNames) (waits : Bool) (size : Nat)
variable (job : BulkJob) (state : σ)

/-- The first failure of a job: its phase, the number of the chunk within the phase, the error, and
the calls made until then. Deletions only begin when all saves have been sent. -/
inductive FailsFirst : BulkPhase → Nat → Error → List Call → Prop
  | saving {c : Nat} {calls last : List Call} {s : σ} {e : Error} :
      ChunksSent service index names waits .indexing size job.saves state c calls s →
      job.saves.chunk size c ≠ [] →
      ChunkFails service index names waits .indexing s (job.saves.chunk size c) e last →
      FailsFirst .indexing c e (calls ++ last)
  | deleting {n c : Nat} {saved calls last : List Call} {s s' : σ} {e : Error} :
      ChunksSent service index names waits .indexing size job.saves state n saved s →
      job.saves.chunk size n = [] →
      ChunksSent service index names waits .deleting size job.deletes s c calls s' →
      job.deletes.chunk size c ≠ [] →
      ChunkFails service index names waits .deleting s' (job.deletes.chunk size c) e last →
      FailsFirst .deleting c e (saved ++ (calls ++ last))

end

variable {service : Service σ} {index : Index} {names : PointNames} {waits : Bool} {size : Nat}
variable {job : BulkJob} {state : σ}

theorem BulkJob.settings_pos (h : job.settings = .ok (waits, size)) : 0 < size := by
  obtain ⟨_, -, hrest⟩ := bind_eq_ok.mp h
  obtain ⟨n, hn, hpair⟩ := bind_eq_ok.mp hrest
  obtain ⟨-, rfl⟩ := Prod.mk.inj (Except.ok.inj hpair)
  unfold chunkSize at hn
  split at hn
  next => cases hn
  next hpos =>
    split at hn
    next => cases hn
    next =>
      have hinj := Except.ok.inj hn
      subst hinj
      omega

/-- The run of the saves of a job, with settings that can be read. -/
theorem bulk_of_saving {patience : Nat} (h : job.settings = .ok (waits, size)) {e : Error}
    {calls : List Call} {s : σ} {saves : Source Value}
    (hsaves : service.sendChunks (index.chunkRequest names waits .indexing) size
      (job.saves.pullsToEnd.getD patience) job.saves state = ⟨some (.error e), calls, s, saves⟩) :
    service.bulk index names job patience state =
      ⟨some (.error e), calls, s, saves, job.deletes⟩ := by
  unfold Service.bulk
  rw [h]
  dsimp only [Index.chunkRequest] at hsaves ⊢
  rw [hsaves]

theorem bulk_of_deleting {patience : Nat} (h : job.settings = .ok (waits, size))
    {saved : List Call} {s : σ} {saves : Source Value}
    (hsaves : service.sendChunks (index.chunkRequest names waits .indexing) size
      (job.saves.pullsToEnd.getD patience) job.saves state = ⟨some (.ok ()), saved, s, saves⟩) :
    service.bulk index names job patience state =
      let second := service.sendChunks (index.chunkRequest names waits .deleting) size
        (job.deletes.pullsToEnd.getD patience) job.deletes s
      ⟨second.result.map fun ended => ended.map fun _ => if waits then some ⟨.null⟩ else none,
        saved ++ second.calls, second.state, saves, second.source⟩ := by
  unfold Service.bulk
  rw [h]
  dsimp only [Index.chunkRequest] at hsaves ⊢
  rw [hsaves]

theorem bulk_of_unfinished {patience : Nat} (h : job.settings = .ok (waits, size))
    {saved : List Call} {s : σ} {saves : Source Value}
    (hsaves : service.sendChunks (index.chunkRequest names waits .indexing) size
      (job.saves.pullsToEnd.getD patience) job.saves state = ⟨none, saved, s, saves⟩) :
    service.bulk index names job patience state = ⟨none, saved, s, saves, job.deletes⟩ := by
  unfold Service.bulk
  rw [h]
  dsimp only [Index.chunkRequest] at hsaves ⊢
  rw [hsaves]

/-- What has been drawn of the sources of a job by a run that stops at chunk `c` of a phase. -/
def BulkRun.DrawnUpTo (run : BulkRun σ) (job : BulkJob) (size : Nat) : BulkPhase → Nat → Prop
  | .indexing, c =>
    run.saves.drawn = job.saves.drawn + min job.saves.remaining ((c + 1) * size : Nat) ∧
      run.deletes = job.deletes
  | .deleting, c =>
    run.saves.drawn = job.saves.drawn + job.saves.remaining ∧
      run.deletes.drawn = job.deletes.drawn + min job.deletes.remaining ((c + 1) * size : Nat)

/-- A job ends at its first failure, provided that it has the patience to get there. -/
theorem FailsFirst.bulk {phase : BulkPhase} {c patience : Nat} {e : Error} {calls : List Call}
    (h : FailsFirst service index names waits size job state phase c e calls)
    (hsettings : job.settings = .ok (waits, size))
    (hpatience : (job.source phase).remaining = ⊤ → c < patience) :
    (service.bulk index names job patience state).result = some (.error e) ∧
      (service.bulk index names job patience state).calls = calls ∧
      (service.bulk index names job patience state).DrawnUpTo job size phase c := by
  have hsize : 0 < size := job.settings_pos hsettings
  cases h with
  | saving hsent hne hlast =>
      have hlt := job.saves.lt_pullsToEnd hsize hsent.chunk_ne_nil hpatience
      obtain ⟨s', hsaves⟩ := hsent.sendChunks_of_fails hne hlast hlt
      rw [bulk_of_saving hsettings hsaves]
      exact ⟨rfl, rfl, job.saves.drawn_skip _, rfl⟩
  | @deleting n _ _ _ _ _ _ _ hsaved hnil hsent hne hlast =>
      have hn : n < job.saves.pullsToEnd.getD patience :=
        job.saves.lt_pullsToEnd_of_chunk_eq_nil hsize hsaved.chunk_ne_nil hnil
      have hlt := job.deletes.lt_pullsToEnd hsize hsent.chunk_ne_nil hpatience
      obtain ⟨s'', hdeletes⟩ := hsent.sendChunks_of_fails hne hlast hlt
      rw [bulk_of_deleting hsettings (hsaved.sendChunks_of_nil hnil hn), hdeletes]
      exact ⟨rfl, rfl, job.saves.drawn_skip_of_chunk_eq_nil hsize hnil, job.deletes.drawn_skip _⟩

/-- A phase from its start that has a result has come to an empty chunk or to one that fails. -/
theorem exists_end_of_sendChunks {phase : BulkPhase} {pulls : Nat} {source : Source Value}
    {r : Except Error Unit} {calls : List Call} {s : σ} {rest : Source Value}
    (h : service.sendChunks (index.chunkRequest names waits phase) size pulls source state =
      ⟨some r, calls, s, rest⟩) :
    ∃ n calls' s', ChunksSent service index names waits phase size source state n calls' s' ∧
      ((r = .ok () ∧ source.chunk size n = []) ∨
        ∃ e last, r = .error e ∧ source.chunk size n ≠ [] ∧
          ChunkFails service index names waits phase s' (source.chunk size n) e last) := by
  have hstart : ChunksSent service index names waits phase size source state 0 [] state := .start
  have hr : (service.sendChunks (index.chunkRequest names waits phase) size pulls
      (source.skip (0 * size)) state).result = some r := by
    rw [Nat.zero_mul, Source.skip_zero, h]
  exact hstart.exists_end hr

/-- A job that ends in an error has a first failure. -/
theorem exists_failsFirst {patience : Nat} {e : Error} (hsettings : job.settings = .ok (waits, size))
    (he : (service.bulk index names job patience state).result = some (.error e)) :
    ∃ phase c calls, FailsFirst service index names waits size job state phase c e calls := by
  have hsize : 0 < size := job.settings_pos hsettings
  rcases hsaves : service.sendChunks (index.chunkRequest names waits .indexing) size
    (job.saves.pullsToEnd.getD patience) job.saves state with ⟨_ | r, saved, s, saves⟩
  · rw [bulk_of_unfinished hsettings hsaves] at he
    cases he
  · obtain ⟨n, saved', s', hsent, ⟨rfl, hnil⟩ | ⟨e', last, rfl, hne, hfails⟩⟩ :=
      exists_end_of_sendChunks hsaves
    · have hn : n < job.saves.pullsToEnd.getD patience :=
        job.saves.lt_pullsToEnd_of_chunk_eq_nil hsize hsent.chunk_ne_nil hnil
      rw [bulk_of_deleting hsettings (hsent.sendChunks_of_nil hnil hn)] at he
      rcases hdeletes : service.sendChunks (index.chunkRequest names waits .deleting) size
        (job.deletes.pullsToEnd.getD patience) job.deletes s' with ⟨_ | r, calls, s'', deletes⟩
      · rw [hdeletes] at he
        cases he
      · obtain ⟨m, calls', t, hsent', ⟨rfl, -⟩ | ⟨e', last, rfl, hne, hfails⟩⟩ :=
          exists_end_of_sendChunks hdeletes
        · rw [hdeletes] at he
          cases he
        · rw [hdeletes] at he
          have hinj : e' = e := Except.error.inj (Option.some.inj he)
          subst hinj
          exact ⟨.deleting, m, _, .deleting hsent hnil hsent' hne hfails⟩
    · rw [bulk_of_saving hsettings hsaves] at he
      have hinj := Except.error.inj (Option.some.inj he)
      subst hinj
      exact ⟨.indexing, n, _, .saving hsent hne hfails⟩

/-- A job ends at its first failure with the error of that failure. Every chunk before it has been
sent once and in order, and no chunk behind it; the call of the failing chunk itself is among the
calls unless a document of it could not be converted or its identifier could not be written. The saves have been drawn up to the end of the
failing chunk, or completely if a deletion failed, and the deletions not before that. Conversely a
job that ends in an error has such a first failure. Settings that cannot be used end it before
anything is drawn.

A run follows an endless source only as far as its patience goes; it does not matter otherwise. -/
theorem bulk_stops_at_first_failure (service : Service σ) (index : Index) (names : PointNames)
    (job : BulkJob) (patience : Nat) (state : σ) :
    let run := service.bulk index names job patience state
    match job.settings with
    | .error e => run = ⟨some (.error e), [], state, job.saves, job.deletes⟩
    | .ok (waits, size) =>
      (∀ phase c e calls, FailsFirst service index names waits size job state phase c e calls →
        ((job.source phase).remaining = ⊤ → c < patience) →
        run.result = some (.error e) ∧ run.calls = calls ∧ run.DrawnUpTo job size phase c) ∧
      ∀ e, run.result = some (.error e) →
        ∃ phase c calls, FailsFirst service index names waits size job state phase c e calls := by
  intro run
  cases hsettings : job.settings with
  | error e => simp only [run, Service.bulk, hsettings]
  | ok settings =>
      obtain ⟨waits, size⟩ := settings
      constructor
      · intro phase c e calls hfails hpatience
        exact hfails.bulk hsettings hpatience
      · intro e he
        exact exists_failsFirst hsettings he

namespace Sample

/-- Documents without end, to be sent in pairs, and one deletion. -/
def endless : BulkJob where
  saves := .ofStream fun n => .object [("id", .int n)]
  deletes := .ofList [.text "0"]
  size := 2

def answered (errors : Bool) : Reply := .ok (.object [("errors", .bool errors)])

def pairCall (first second : Int) : Call :=
  .bulk [.save "places" (some (toString first)) (.object [("id", .int first)]),
    .save "places" (some (toString second)) (.object [("id", .int second)])] false

/-- The second answer reports errors, so four documents have been drawn and no identifier. -/
theorem endless_stops_at_second_pair :
    FailsFirst (Service.scripted fun _ => answered false) places .engine false 2 endless
        [answered false, answered true] .indexing 1 (.bulkFailed "places" .indexing)
        [pairCall 0 1, pairCall 2 3] ∧
      ((endless.source .indexing).remaining = ⊤ → 1 < 2) ∧
      let run := (Service.scripted fun _ => answered false).bulk places .engine endless 2
        [answered false, answered true]
      run.result = some (.error (.bulkFailed "places" .indexing)) ∧
        run.calls = [pairCall 0 1, pairCall 2 3] ∧ run.DrawnUpTo endless 2 .indexing 1 := by
  have hfails : FailsFirst (Service.scripted fun _ => answered false) places .engine false 2 endless
      [answered false, answered true] .indexing 1 (.bulkFailed "places" .indexing)
      [pairCall 0 1, pairCall 2 3] := by
    have hfirst : ChunksSent (Service.scripted fun _ => answered false) places .engine false
        .indexing 2 endless.saves [answered false, answered true] 1 [pairCall 0 1]
        [answered true] :=
      .next .start (List.cons_ne_nil _ _) rfl rfl rfl rfl
    exact .saving hfirst (List.cons_ne_nil _ _) (.reported rfl rfl rfl rfl)
  have hstop := (bulk_stops_at_first_failure (Service.scripted fun _ => answered false) places
    .engine endless 2 [answered false, answered true]).1
  exact ⟨hfails, fun _ => by decide, hstop .indexing 1 _ _ hfails fun _ => by decide⟩

end Sample

end DocSearch
