import DocSearch.Proofs.BulkComplete
import DocSearch.Proofs.Replay

/-!
# Confirmed writes

A caller who asks for confirmation has every call of a write wait until the change can be searched,
each chunk of a bulk job included, and has a task to show for a write that ends well. A caller who
does not ask for it waits for nothing and has none. That is all that options decide: whatever else
they hold, writes make the same calls and end in the same way.

Options are none at all or an object. Anything else either counts as none or is refused.
-/

namespace DocSearch

open Fallible

variable {σ : Type}

/-- A write whose calls, as they are written, all wait or none of them does, and that has a task to
show for it exactly if they wait. A bulk job that is not over has no result. -/
structure Confirms (waits : Bool) (calls : List Call)
    (result : Option (Except Error (Option Task))) : Prop where
  calls : ∀ call ∈ calls, call.arguments.lookup "refresh" =
    some (if waits then .text "wait_for" else .bool false)
  task : ∀ task, result = some (.ok task) → task.isSome = waits

section
variable {service : Service σ} {index : Index} {names : PointNames} {options : WriteOptions}
variable {waits : Bool}

/-! ## Single writes -/

theorem Confirms.of_error (e : Error) : Confirms waits [] (some (.error e)) := by
  refine ⟨fun call hmem => absurd hmem List.not_mem_nil, fun task htask => ?_⟩
  cases htask

/-- A request confirms if its call does and if it reads a task, or none, out of every reply. -/
theorem Confirms.of_request {request : Request (Option Task)}
    (hcall : request.call.arguments.lookup "refresh" = some (refresh waits))
    (hread : ∀ reply task, request.read reply = .ok task → task.isSome = waits) (s : σ) :
    Confirms waits (service.run s (.ok request)).calls
      (some (service.run s (.ok request)).result) := by
  refine ⟨fun call hmem => ?_, fun task htask => ?_⟩
  · have hsame : call = request.call := List.mem_singleton.mp hmem
    rw [hsame]
    exact hcall
  · exact hread _ task (Option.some.inj htask)

theorem Index.save_confirms (h : options.confirms = .ok waits) (document : Value) (s : σ) :
    Confirms waits (service.run s (index.save names document options)).calls
      (some (service.run s (index.save names document options)).result) := by
  rw [Index.save, h, ok_bind]
  cases document.entries with
  | error e => exact .of_error e
  | ok members =>
      rw [ok_bind]
      cases identifierText index.identifier.name members with
      | error e => exact .of_error e
      | ok id =>
          cases index.schema.toWire names document with
          | error e => exact .of_error e
          | ok wire =>
              refine .of_request rfl (fun reply task htask => ?_) s
              obtain ⟨answer, -, hrest⟩ := bind_eq_ok.mp htask
              cases waits with
              | false =>
                  have hnone : none = task := Except.ok.inj hrest
                  rw [← hnone]
                  rfl
              | true =>
                  obtain ⟨id, -, hsome⟩ := bind_eq_ok.mp hrest
                  rw [← Except.ok.inj hsome]
                  rfl

theorem Index.delete_confirms (h : options.confirms = .ok waits) (id : Value) (s : σ) :
    Confirms waits (service.run s (index.delete id options)).calls
      (some (service.run s (index.delete id options)).result) := by
  rw [Index.delete, h, ok_bind]
  refine .of_request rfl (fun reply task htask => ?_) s
  cases reply with
  | ok answer =>
      obtain ⟨_, -, hrest⟩ := bind_eq_ok.mp htask
      have htask : (if waits then some ⟨.null⟩ else none) = task := Except.ok.inj hrest
      rw [← htask]
      cases waits <;> rfl
  | error fault =>
      simp only [Index.refuseDeletion_eq] at htask
      split at htask <;> cases htask

/-! ## Bulk jobs -/

/-- The calls of a job are bulk calls that all wait alike. -/
theorem chained_waits (waits : Bool) :
    Chained fun (_ : σ) calls _ _ => ∀ call ∈ calls, ∃ actions, call = .bulk actions waits where
  idle _ := ⟨fun _ hmem => absurd hmem List.not_mem_nil, fun _ hmem => absurd hmem List.not_mem_nil⟩
  append hfirst hrest call hmem := (List.mem_append.mp hmem).elim (hfirst call) (hrest call)

theorem bulk_confirms {job : BulkJob} (h : job.options.confirms = .ok waits) (patience : Nat)
    (s : σ) :
    Confirms waits (service.bulk index names job patience s).calls
      (service.bulk index names job patience s).result := by
  cases hsettings : job.settings with
  | error e =>
      have hrun : service.bulk index names job patience s =
          ⟨some (.error e), [], s, job.saves, job.deletes⟩ := by
        rw [Service.bulk, hsettings]
      rw [hrun]
      exact .of_error e
  | ok settings =>
      obtain ⟨waits', size⟩ := settings
      have hwaits : waits' = waits := by
        obtain ⟨_, hconfirms, hrest⟩ := bind_eq_ok.mp hsettings
        obtain ⟨_, -, hpair⟩ := bind_eq_ok.mp hrest
        have hfirst := congrArg Prod.fst (Except.ok.inj hpair)
        exact hfirst.symm.trans (Except.ok.inj (hconfirms.symm.trans h))
      subst hwaits
      have hchunk (phase : BulkPhase) (s : σ) (chunk : List Value) :
          ∀ call ∈ (service.run s (index.chunkRequest names waits' phase chunk)).calls,
            ∃ actions, call = .bulk actions waits' := by
        intro call hmem
        cases hactions : index.chunkActions names phase chunk with
        | error e =>
            rw [run_chunk_of_actions_eq_error hactions] at hmem
            exact absurd hmem List.not_mem_nil
        | ok actions =>
            rw [run_chunk_of_actions_eq_ok hactions] at hmem
            exact ⟨actions, List.mem_singleton.mp hmem⟩
      obtain ⟨ended, hcalls, hresult⟩ :=
        (chained_waits waits').bulk hchunk hsettings patience s
      refine ⟨fun call hmem => ?_, fun task htask => ?_⟩
      · obtain ⟨actions, rfl⟩ := hcalls call hmem
        rfl
      · rw [hresult] at htask
        obtain ⟨done, -, hdone⟩ := Option.map_eq_some_iff.mp htask
        cases done with
        | error e => cases hdone
        | ok _ =>
            have hsame : (if waits' then some ⟨.null⟩ else none) = task := Except.ok.inj hdone
            rw [← hsame]
            cases waits' <;> rfl

/-- Of its options a job only looks at whether they ask for confirmation. -/
theorem bulk_congr_options {options options' : WriteOptions}
    (h : options'.confirms = options.confirms) (saves deletes : Source Value) (size : Int)
    (patience : Nat) (s : σ) :
    service.bulk index names ⟨saves, deletes, size, options'⟩ patience s =
      service.bulk index names ⟨saves, deletes, size, options⟩ patience s := by
  unfold Service.bulk BulkJob.settings
  rw [h]

end

/-- Whether options ask for confirmation is threaded through every write. Each call of a save, of a
deletion and of a bulk job waits if they do and does not wait otherwise, and a write that ends well
yields a task if they do and none otherwise. Options that agree in this one thing make no difference
to a write: it makes the same calls, leaves the service in the same state and ends in the same
way. -/
theorem confirmation_is_all_that_counts (service : Service σ) (index : Index) (names : PointNames)
    (given : Option Members) :
    let waits := WriteOptions.asksConfirmation given
    let save := fun given document s =>
      service.run s (index.save names document (.ofMembers given))
    let delete := fun given id s => service.run s (index.delete id (.ofMembers given))
    let bulk := fun given saves deletes size patience s =>
      service.bulk index names ⟨saves, deletes, size, .ofMembers given⟩ patience s
    (∀ document s, Confirms waits (save given document s).calls
      (some (save given document s).result)) ∧
    (∀ id s, Confirms waits (delete given id s).calls (some (delete given id s).result)) ∧
    (∀ saves deletes size patience s,
      Confirms waits (bulk given saves deletes size patience s).calls
        (bulk given saves deletes size patience s).result) ∧
    ∀ given', WriteOptions.asksConfirmation given' = waits →
      save given' = save given ∧ delete given' = delete given ∧ bulk given' = bulk given := by
  intro waits save delete bulk
  have hconfirms (given : Option Members) := WriteOptions.confirms_ofMembers given
  refine ⟨fun document s => Index.save_confirms (hconfirms given) document s,
    fun id s => Index.delete_confirms (hconfirms given) id s,
    fun saves deletes size patience s => bulk_confirms (hconfirms given) patience s,
    fun given' hsame => ?_⟩
  have hagree : (WriteOptions.ofMembers given').confirms =
      (WriteOptions.ofMembers given).confirms := by
    rw [hconfirms, hconfirms, hsame]
  refine ⟨?_, ?_, ?_⟩
  · funext document s
    simp only [save, Index.save, hagree]
  · funext id s
    simp only [delete, Index.delete, hagree]
  · funext saves deletes size patience s
    exact bulk_congr_options hagree saves deletes size patience s

namespace Sample

/-- Options in which a text that reads "false" stands for yes, and others that say it plainly. -/
theorem threePlaces_all_wait :
    let given : Option Members := some [("confirm", .text "false"), ("refresh", .bool false)]
    let run := fun options => agreeable.bulk places .engine
      ⟨.ofList threePlaces, .ofList [.text "b"], 2, .ofMembers options⟩ 0 [answered false]
    WriteOptions.asksConfirmation given = true ∧
      WriteOptions.asksConfirmation (some [("confirm", .int 1)]) = true ∧
      (run given).calls.length = 3 ∧ Confirms true (run given).calls (run given).result ∧
      run (some [("confirm", .int 1)]) = run given := by
  intro given run
  obtain ⟨-, -, hbulk, hsame⟩ := confirmation_is_all_that_counts agreeable places .engine given
  obtain ⟨-, -, hbulkSame⟩ := hsame (some [("confirm", .int 1)]) rfl
  refine ⟨rfl, rfl, rfl, hbulk _ _ _ _ _, ?_⟩
  exact congrFun (congrFun (congrFun (congrFun (congrFun hbulkSame _) _) _) _) _

end Sample

end DocSearch
