import DocSearch.Proofs.Custody

/-!
# Going through the configured indexes

Creating all indexes and dropping all indexes go through the configured keys in the same way: for
each index it is asked whether it exists, and at most one call follows that changes something. What
such a sweep calls for is planned on the cluster as the keys before have left it, so that keys may
share a name. If a call is turned down, the sweep ends there with its fault: the keys before are
done, and nothing is done for this key or for those behind it.

Both sweeps converge. A second one finds nothing to do, and the order of the keys is no matter.
-/

namespace DocSearch

/-- What is called for at each index once it has been asked for, and what becomes of the cluster. -/
structure Sweep where
  change? : Cluster → Index → Option AdminCall
  final : Cluster → Index → Cluster

namespace Sweep

/-- Every index that is absent is created with its own mappings. -/
def creating : Sweep where
  change? cluster index :=
    if index.name ∈ cluster.existing then none
    else match index.mappings with
      | .ok properties => some (.create index.name properties)
      | .error _ => none
  final cluster index := cluster.add index.name

/-- Every index that is present is deleted. -/
def dropping : Sweep where
  change? cluster index :=
    if index.name ∈ cluster.existing then some (.delete index.name) else none
  final cluster index := cluster.remove index.name

@[simp] theorem final_creating (cluster : Cluster) (index : Index) :
    creating.final cluster index = cluster.add index.name := rfl

variable (sweep : Sweep)

/-- The calls for one index. -/
def calls (cluster : Cluster) (index : Index) : List AdminCall :=
  .exists index.name :: (sweep.change? cluster index).toList

/-- The calls for all indexes in order. -/
def plan (sweep : Sweep) (cluster : Cluster) : List (String × Index) → List AdminCall
  | [] => []
  | e :: rest => sweep.calls cluster e.2 ++ sweep.plan (sweep.final cluster e.2) rest

theorem calls_creating_of_mem {cluster : Cluster} {index : Index}
    (h : index.name ∈ cluster.existing) : creating.calls cluster index = [.exists index.name] := by
  simp [calls, creating, h]

theorem calls_creating_of_notMem {cluster : Cluster} {index : Index}
    (h : index.name ∉ cluster.existing) : creating.calls cluster index = index.creation := by
  cases hmappings : index.mappings <;> simp [calls, creating, Index.creation, h, hmappings]

theorem calls_dropping (cluster : Cluster) (index : Index) :
    dropping.calls cluster index = cluster.dropCalls [index.name] := by
  by_cases h : index.name ∈ cluster.existing <;>
    simp [calls, dropping, Cluster.dropCalls, h]

/-- What becomes of the cluster when all indexes have been gone through. -/
def after (cluster : Cluster) (entries : List (String × Index)) : Cluster :=
  entries.foldl (fun cluster e => sweep.final cluster e.2) cluster

theorem after_cons (cluster : Cluster) (e : String × Index) (rest : List (String × Index)) :
    sweep.after cluster (e :: rest) = sweep.after (sweep.final cluster e.2) rest := rfl

/-- A sweep that ended at an index because a call was turned down: the indexes before it are done,
the call is the last one that was made and its fault is the error. -/
structure EndsAt (cluster : Cluster) (done : List (String × Index)) (index : Index)
    (outcome : Outcome AdminCall Cluster (List (String × Bool))) : Prop where
  turnedDown : ∃ earlier call fault,
    outcome.calls = sweep.plan cluster done ++ (earlier ++ [call]) ∧
    earlier ++ [call] <+: sweep.calls (sweep.after cluster done) index ∧
    (∀ c ∈ sweep.plan cluster done ++ earlier, cluster.fault? c = none) ∧
    cluster.fault? call = some fault ∧ outcome.result = .error (.fault fault)
  state : outcome.state = sweep.after cluster done

variable {sweep} {cluster : Cluster} {entries : List (String × Index)}

theorem plan_append (done rest : List (String × Index)) :
    sweep.plan cluster (done ++ rest) =
      sweep.plan cluster done ++ sweep.plan (sweep.after cluster done) rest := by
  induction done generalizing cluster with
  | nil => rfl
  | cons e done ih => rw [List.cons_append, plan, plan, ih, after_cons, List.append_assoc]

/-- Every index is asked for. -/
theorem exists_mem_plan {name : String} (h : name ∈ indexNames entries) :
    .exists name ∈ sweep.plan cluster entries := by
  induction entries generalizing cluster with
  | nil => cases h
  | cons e rest ih =>
      rw [plan, List.mem_append]
      rcases List.mem_cons.mp h with rfl | hrest
      · exact .inl List.mem_cons_self
      · exact .inr (ih hrest)

/-- Where no index calls for a change nothing is changed. -/
theorem plan_of_idle
    (h : ∀ e ∈ entries, sweep.change? cluster e.2 = none ∧ sweep.final cluster e.2 = cluster) :
    sweep.plan cluster entries = (indexNames entries).map .exists ∧
      sweep.after cluster entries = cluster := by
  induction entries with
  | nil => exact ⟨rfl, rfl⟩
  | cons e rest ih =>
      rw [List.forall_mem_cons] at h
      obtain ⟨⟨hchange, hfinal⟩, hrest⟩ := h
      obtain ⟨hplan, hafter⟩ := ih hrest
      constructor
      · rw [plan, calls, hchange, hfinal, hplan]
        rfl
      · rw [after_cons, hfinal, hafter]

end Sweep

/-! ## One index -/

/-- A computation that asks for an index and then makes at most one change has changed nothing when
a call is turned down. -/
theorem Admin.KeepsTo.state_of_turnedDown {α : Type} {allowed : Cluster → AdminCall → Prop}
    {act : Admin α} {cluster : Cluster} {name : String} {change? : Option AdminCall}
    (h : act.KeepsTo allowed cluster)
    (hdown : (act cluster).TurnedDown cluster (.exists name :: change?.toList)) :
    (act cluster).state = cluster := by
  obtain ⟨earlier, call, fault, ⟨rest, hplan⟩, -, hcall, -, hcalls⟩ := hdown
  have hstate : (act cluster).state = cluster.replay (earlier ++ [call]) := by
    rw [← hcalls]
    exact Guarded.eq_replay h
  have hearlier : cluster.replay earlier = cluster := by
    cases earlier with
    | nil => rfl
    | cons first earlier =>
        obtain ⟨rfl, htail⟩ := List.cons.inj hplan
        have hlength : (earlier ++ [call] ++ rest).length = change?.toList.length :=
          congrArg List.length htail
        have hone : change?.toList.length ≤ 1 := by cases change? <;> simp
        have hnil : earlier = [] := by
          simp only [List.length_append, List.length_singleton] at hlength
          exact List.length_eq_zero_iff.mp (by omega)
        rw [hnil]
        exact cluster.after_exists name
  rw [hstate, Cluster.replay, List.foldl_append]
  change (cluster.replay earlier).after call = cluster
  rw [hearlier]
  exact Cluster.after_of_fault hcall

/-- From a cluster on, a computation goes as planned or leaves the cluster as it is. -/
structure Admin.Attempts {α : Type} (act : Admin α) (cluster : Cluster) (plan : List AdminCall)
    (a : α) (final : Cluster) : Prop where
  follows : act.Follows cluster plan (.ok a) final
  kept : (act cluster).TurnedDown cluster plan → (act cluster).state = cluster

theorem Cluster.add_of_mem {cluster : Cluster} {name : String} (h : name ∈ cluster.existing) :
    cluster.add name = cluster := by
  rw [Cluster.add, if_pos h]

namespace Migrator

variable {migrator : Migrator} {key : String} {index : Index}

theorem create_attempts (h : migrator.index key = .ok index)
    {properties : List (String × Mapping)} (hmapped : index.mappings = .ok properties)
    (cluster : Cluster) : (migrator.create key true).Attempts cluster
      (Sweep.creating.calls cluster index) true (cluster.add index.name) where
  follows := by
    by_cases hpresent : index.name ∈ cluster.existing
    · rw [Cluster.add_of_mem hpresent, Sweep.calls_creating_of_mem hpresent, create, h,
        Action.ofExcept_ok_bind]
      exact .exists?_of_mem hpresent (.pure true cluster)
    · rw [Sweep.calls_creating_of_notMem hpresent]
      exact create_follows h hpresent hmapped true
  kept := by
    have hkeeps : (migrator.create key true).KeepsTo (fun _ _ => True) cluster :=
      create_keepsTo (fun _ _ => trivial) (fun _ _ _ _ _ _ => trivial) key true cluster
    exact hkeeps.state_of_turnedDown

theorem drop_attempts (h : migrator.index key = .ok index) (cluster : Cluster) :
    (migrator.drop key).Attempts cluster (Sweep.dropping.calls cluster index) true
      (cluster.remove index.name) where
  follows := by
    rw [Sweep.calls_dropping]
    exact drop_follows h cluster
  kept := (migrator.drop_keepsTo key cluster).state_of_turnedDown

end Migrator

/-! ## All indexes -/

/-- An attempt for each index goes through all of them, or ends at the first one for which a call is
turned down. -/
theorem Sweep.each_cases {sweep : Sweep} {perform : String × Index → Admin Bool}
    {entries : List (String × Index)}
    (h : ∀ e ∈ entries, ∀ cluster, (perform e).Attempts cluster (sweep.calls cluster e.2) true
      (sweep.final cluster e.2)) (cluster : Cluster) :
    (∀ call ∈ sweep.plan cluster entries, cluster.fault? call = none) ∧
      Action.each (fun e => do return (e.1, ← perform e)) entries cluster =
        ⟨.ok (entries.map fun e => (e.1, true)), sweep.plan cluster entries,
          sweep.after cluster entries⟩ ∨
    ∃ done e rest, entries = done ++ e :: rest ∧ sweep.EndsAt cluster done e.2
      (Action.each (fun e => do return (e.1, ← perform e)) entries cluster) := by
  induction entries generalizing cluster with
  | nil => exact .inl ⟨by simp [Sweep.plan], rfl⟩
  | cons e rest ih =>
      rw [List.forall_mem_cons] at h
      obtain ⟨hfollows, hkept⟩ := h.1 cluster
      rw [Action.each_cons]
      rcases hfollows.outcome with hdown | ⟨hall, hact⟩
      · have hstate := hkept hdown
        obtain ⟨earlier, call, fault, hplan, hearlier, hcall, hresult, hcalls⟩ := hdown
        have hfirst := Action.map_of_result_error hresult (e.1, ·)
        refine .inr ⟨[], e, rest, rfl, ?_⟩
        rw [Action.bind_of_error hfirst]
        exact ⟨⟨earlier, call, fault, hcalls, hplan, hearlier, hcall, rfl⟩, hstate⟩
      · have hfirst := Action.map_of_ok hact (e.1, ·)
        rw [Action.bind_of_ok hfirst]
        have hboth {calls : List AdminCall}
            (h : ∀ c ∈ calls, (sweep.final cluster e.2).fault? c = none) :
            ∀ c ∈ sweep.calls cluster e.2 ++ calls, cluster.fault? c = none := fun c hc =>
          (List.mem_append.mp hc).elim (hall c) fun hc => (hfollows.faults c).symm.trans (h c hc)
        rcases ih h.2 (sweep.final cluster e.2) with
          ⟨hplan, hrest⟩ | ⟨done, e', rest', rfl, ⟨hturned, hstate⟩⟩
        · have hothers := Action.map_of_ok hrest ((e.1, true) :: ·)
          rw [hothers]
          exact .inl ⟨hboth hplan, rfl⟩
        · obtain ⟨earlier, call, fault, hcalls, hprefix, hearlier, hcall, hresult⟩ := hturned
          have hothers := Action.map_of_result_error hresult ((e.1, true) :: ·)
          rw [hothers]
          refine .inr ⟨e :: done, e', rest', rfl, ⟨earlier, call, fault, ?_, hprefix, ?_, ?_, rfl⟩,
            hstate⟩
          · rw [Sweep.plan, List.append_assoc, hcalls]
          · rw [Sweep.plan, List.append_assoc]
            exact hboth hearlier
          · exact (hfollows.faults call).symm.trans hcall

/-- No call that was made has been turned down. -/
def Outcome.Untroubled {α : Type} (outcome : Outcome AdminCall Cluster α) (cluster : Cluster) :
    Prop :=
  ∀ call ∈ outcome.calls, cluster.fault? call = none

namespace Sweep.EndsAt

variable {sweep : Sweep} {cluster : Cluster} {done : List (String × Index)} {e : String × Index}
variable {outcome : Outcome AdminCall Cluster (List (String × Bool))}

theorem not_untroubled {index : Index} (h : sweep.EndsAt cluster done index outcome) :
    ¬ outcome.Untroubled cluster := by
  obtain ⟨earlier, call, fault, hcalls, -, -, hcall, -⟩ := h.turnedDown
  intro hall
  have hnone := hall call (by simp [hcalls])
  rw [hcall] at hnone
  cases hnone

/-- The call that is turned down was planned. -/
theorem exists_mem_plan (h : sweep.EndsAt cluster done e.2 outcome)
    (rest : List (String × Index)) :
    ∃ call ∈ sweep.plan cluster (done ++ e :: rest), cluster.fault? call ≠ none := by
  obtain ⟨earlier, call, fault, -, hprefix, -, hcall, -⟩ := h.turnedDown
  have hmem : call ∈ sweep.calls (sweep.after cluster done) e.2 :=
    hprefix.subset (List.mem_append_right earlier List.mem_cons_self)
  refine ⟨call, ?_, by simp [hcall]⟩
  rw [plan_append, plan]
  exact List.mem_append_right _ (List.mem_append_left _ hmem)

end Sweep.EndsAt

section
variable {sweep : Sweep} {perform : String × Index → Admin Bool} {cluster : Cluster}
variable {entries : List (String × Index)}
variable (h : ∀ e ∈ entries, ∀ cluster, (perform e).Attempts cluster (sweep.calls cluster e.2) true
  (sweep.final cluster e.2))
include h

theorem Sweep.each_of_untroubled
    (huntroubled : Outcome.Untroubled
      (Action.each (fun e => do return (e.1, ← perform e)) entries cluster) cluster) :
    (∀ call ∈ sweep.plan cluster entries, cluster.fault? call = none) ∧
      Action.each (fun e => do return (e.1, ← perform e)) entries cluster =
        ⟨.ok (entries.map fun e => (e.1, true)), sweep.plan cluster entries,
          sweep.after cluster entries⟩ := by
  refine (Sweep.each_cases h cluster).resolve_right ?_
  rintro ⟨done, e, rest, -, hends⟩
  exact hends.not_untroubled huntroubled

theorem Sweep.each_endsAt
    (htroubled : ¬ Outcome.Untroubled
      (Action.each (fun e => do return (e.1, ← perform e)) entries cluster) cluster) :
    ∃ done e rest, entries = done ++ e :: rest ∧ sweep.EndsAt cluster done e.2
      (Action.each (fun e => do return (e.1, ← perform e)) entries cluster) := by
  refine (Sweep.each_cases h cluster).resolve_left ?_
  rintro ⟨hplan, hall⟩
  rw [hall] at htroubled
  exact htroubled hplan

/-- A sweep in which no index calls for a change asks for every index and does nothing else. -/
theorem Sweep.each_of_idle
    (hidle : ∀ e ∈ entries, sweep.change? cluster e.2 = none ∧ sweep.final cluster e.2 = cluster)
    (hasks : ∀ name ∈ indexNames entries, cluster.fault? (.exists name) = none) :
    Action.each (fun e => do return (e.1, ← perform e)) entries cluster =
      ⟨.ok (entries.map fun e => (e.1, true)), (indexNames entries).map .exists, cluster⟩ := by
  obtain ⟨hplan, hafter⟩ := Sweep.plan_of_idle hidle
  rcases Sweep.each_cases h cluster with ⟨-, heach⟩ | ⟨done, e, rest, hsplit, hends⟩
  · rw [heach, hplan, hafter]
  · obtain ⟨call, hcall, hfault⟩ := hends.exists_mem_plan rest
    rw [← hsplit, hplan] at hcall
    obtain ⟨name, hname, rfl⟩ := List.mem_map.mp hcall
    exact absurd (hasks name hname) hfault

end

/-! ## Creating all indexes -/

section
variable {cluster : Cluster} {entries : List (String × Index)}

theorem after_creating :
    Sweep.creating.after cluster entries = cluster.addAll (indexNames entries) := by
  rw [Cluster.addAll, indexNames, List.foldl_map]
  rfl

theorem after_dropping :
    Sweep.dropping.after cluster entries = cluster.removeAll (indexNames entries) := by
  rw [Cluster.removeAll, indexNames, List.foldl_map]
  rfl

theorem fault?_addAll (names : List String) (call : AdminCall) :
    (cluster.addAll names).fault? call = cluster.fault? call := by
  induction names generalizing cluster with
  | nil => rfl
  | cons name rest ih =>
      rw [Cluster.addAll, List.foldl_cons, ← Cluster.addAll, ih, Cluster.fault?_add]

theorem fault?_removeAll (names : List String) (call : AdminCall) :
    (cluster.removeAll names).fault? call = cluster.fault? call := by
  induction names generalizing cluster with
  | nil => rfl
  | cons name rest ih =>
      rw [Cluster.removeAll, List.foldl_cons, ← Cluster.removeAll, ih, Cluster.fault?_remove]

theorem slot_of_mem_creating_calls {index : Index} {call : AdminCall}
    (h : call ∈ Sweep.creating.calls cluster index) :
    call.method ≠ .delete ∧ call.target = index.name := by
  by_cases hpresent : index.name ∈ cluster.existing
  · rw [Sweep.calls_creating_of_mem hpresent, List.mem_singleton] at h
    subst h
    exact ⟨by simp [AdminCall.method], rfl⟩
  · rw [Sweep.calls_creating_of_notMem hpresent] at h
    exact Index.slot_of_mem_creation h

theorem slot_of_mem_creating_plan {call : AdminCall}
    (h : call ∈ Sweep.creating.plan cluster entries) :
    call.method ≠ .delete ∧ call.target ∈ indexNames entries := by
  induction entries generalizing cluster with
  | nil => cases h
  | cons e rest ih =>
      rw [Sweep.plan, List.mem_append] at h
      rcases h with hfirst | hrest
      · obtain ⟨hmethod, htarget⟩ := slot_of_mem_creating_calls hfirst
        exact ⟨hmethod, List.mem_cons.mpr (.inl htarget)⟩
      · obtain ⟨hmethod, htarget⟩ := ih hrest
        exact ⟨hmethod, List.mem_cons_of_mem _ htarget⟩

/-- Creations of an index among the calls for another one. -/
theorem filter_create_calls_of_ne {index : Index} {name : String} (h : index.name ≠ name) :
    (Sweep.creating.calls cluster index).filter (fun call => call.slot = (.create, name)) = [] := by
  rw [List.filter_eq_nil_iff]
  intro call hcall
  rw [decide_eq_true_eq, AdminCall.slot, (slot_of_mem_creating_calls hcall).2, Prod.mk.injEq]
  exact fun hslot => h hslot.2

/-- An index that is there is not created. -/
theorem filter_create_plan_of_mem {name : String} (h : name ∈ cluster.existing) :
    (Sweep.creating.plan cluster entries).filter (fun call => call.slot = (.create, name)) = [] := by
  induction entries generalizing cluster with
  | nil => rfl
  | cons e rest ih =>
      have hrest : name ∈ (cluster.add e.2.name).existing := (cluster.mem_add _).mpr (.inl h)
      rw [Sweep.plan, Sweep.final_creating, List.filter_append, ih hrest, List.append_nil]
      by_cases hname : e.2.name = name
      · rw [Sweep.calls_creating_of_mem (hname ▸ h)]
        simp [AdminCall.slot, AdminCall.method]
      · exact filter_create_calls_of_ne hname

/-- An index that is absent is created once, by the first key of its name. -/
theorem filter_create_plan_of_notMem {before after : List (String × Index)} {e : String × Index}
    {properties : List (String × Mapping)} (h : e.2.name ∉ cluster.existing)
    (hfirst : e.2.name ∉ indexNames before) (hmapped : e.2.mappings = .ok properties) :
    (Sweep.creating.plan cluster (before ++ e :: after)).filter
      (fun call => call.slot = (.create, e.2.name)) = [.create e.2.name properties] := by
  induction before generalizing cluster with
  | nil =>
      have hthere : e.2.name ∈ (cluster.add e.2.name).existing := (cluster.mem_add _).mpr (.inr rfl)
      rw [List.nil_append, Sweep.plan, Sweep.final_creating, List.filter_append,
        Sweep.calls_creating_of_notMem h, filter_create_plan_of_mem hthere, Index.creation, hmapped]
      simp [AdminCall.slot, AdminCall.method, AdminCall.target]
  | cons b before ih =>
      rw [indexNames, List.map_cons, List.mem_cons, not_or, ← indexNames] at hfirst
      have habsent : e.2.name ∉ (cluster.add b.2.name).existing := by
        rw [Cluster.mem_add]
        exact not_or.mpr ⟨h, hfirst.1⟩
      rw [List.cons_append, Sweep.plan, Sweep.final_creating, List.filter_append,
        ih habsent hfirst.2, filter_create_calls_of_ne (Ne.symm hfirst.1), List.nil_append]

end

/-! ## What a sweep leaves -/

namespace Migrator

variable (migrator : Migrator) (cluster : Cluster)

/-- What has been done when all indexes have been created. -/
structure Filled (outcome : Outcome AdminCall Cluster (List (String × Bool))) : Prop where
  results : outcome.result = .ok (migrator.indexes.entries.map fun e => (e.1, true))
  existing : ∀ name, name ∈ outcome.state.existing ↔
    name ∈ cluster.existing ∨ name ∈ indexNames migrator.indexes.entries
  calls : ∀ call ∈ outcome.calls,
    call.method ≠ .delete ∧ call.target ∈ indexNames migrator.indexes.entries
  /-- A name that was absent is created once, with the mappings of the first key that has it. -/
  createdOnce : ∀ before e after, migrator.indexes.entries = before ++ e :: after →
    e.2.name ∉ indexNames before → ∃ properties, e.2.mappings = .ok properties ∧
      outcome.calls.filter (fun call => call.slot = (.create, e.2.name)) =
        if e.2.name ∈ cluster.existing then [] else [.create e.2.name properties]
  again : let second := migrator.createAll true outcome.state
    second.result = outcome.result ∧ second.state = outcome.state ∧
      ∀ call ∈ second.calls, call.method = .exists

/-- What has been done when all indexes have been dropped. -/
structure Emptied (outcome : Outcome AdminCall Cluster (List (String × Bool))) : Prop where
  results : outcome.result = .ok (migrator.indexes.entries.map fun e => (e.1, true))
  existing : ∀ name, name ∈ outcome.state.existing ↔
    name ∈ cluster.existing ∧ (name ∈ indexNames migrator.indexes.entries → name ∈ cluster.sticky)
  again : (∀ name ∈ indexNames migrator.indexes.entries, name ∉ cluster.sticky) →
    let second := migrator.dropAll outcome.state
    second.result = outcome.result ∧ second.state = outcome.state ∧
      ∀ call ∈ second.calls, call.method = .exists

variable {migrator cluster}

section
variable (hmapped : ∀ e ∈ migrator.indexes.entries, ∃ properties, e.2.mappings = .ok properties)
include hmapped

theorem createEach_attempts : ∀ e ∈ migrator.indexes.entries, ∀ cluster,
    (migrator.create e.1 true).Attempts cluster (Sweep.creating.calls cluster e.2) true
      (Sweep.creating.final cluster e.2) := by
  intro e he cluster
  obtain ⟨properties, hproperties⟩ := hmapped e he
  exact create_attempts (index_of_mem he) hproperties cluster

/-- When all names are there, nothing is left to create. -/
theorem createAll_of_present
    (hpresent : ∀ name ∈ indexNames migrator.indexes.entries, name ∈ cluster.existing)
    (hasks : ∀ name ∈ indexNames migrator.indexes.entries,
      cluster.fault? (.exists name) = none) :
    migrator.createAll true cluster = ⟨.ok (migrator.indexes.entries.map fun e => (e.1, true)),
      (indexNames migrator.indexes.entries).map .exists, cluster⟩ := by
  refine Sweep.each_of_idle (createEach_attempts hmapped) (fun e he => ?_) hasks
  have hthere : e.2.name ∈ cluster.existing := hpresent _ (List.mem_map.mpr ⟨e, he, rfl⟩)
  exact ⟨by simp [Sweep.creating, hthere], Cluster.add_of_mem hthere⟩

theorem filled_of_untroubled (h : (migrator.createAll true cluster).Untroubled cluster) :
    migrator.Filled cluster (migrator.createAll true cluster) := by
  obtain ⟨hplan, hall⟩ := Sweep.each_of_untroubled (createEach_attempts hmapped) h
  have houtcome : migrator.createAll true cluster = _ := hall
  rw [houtcome, after_creating]
  refine ⟨rfl, fun name => Cluster.mem_addAll, fun call => slot_of_mem_creating_plan, ?_, ?_⟩
  · intro before e after hsplit hfirst
    have he : e ∈ migrator.indexes.entries := by simp [hsplit]
    obtain ⟨properties, hproperties⟩ := hmapped e he
    refine ⟨properties, hproperties, ?_⟩
    by_cases hpresent : e.2.name ∈ cluster.existing
    · rw [if_pos hpresent]
      exact filter_create_plan_of_mem hpresent
    · rw [if_neg hpresent, hsplit]
      exact filter_create_plan_of_notMem hpresent hfirst hproperties
  · have hpresent : ∀ name ∈ indexNames migrator.indexes.entries,
        name ∈ (cluster.addAll (indexNames migrator.indexes.entries)).existing :=
      fun name hname => Cluster.mem_addAll.mpr (.inr hname)
    have hsecond := createAll_of_present hmapped hpresent fun name hname =>
      (fault?_addAll _ _).trans (hplan _ (Sweep.exists_mem_plan hname))
    rw [hsecond]
    refine ⟨rfl, rfl, fun call hcall => ?_⟩
    obtain ⟨name, -, rfl⟩ := List.mem_map.mp hcall
    rfl

end

theorem dropEach_attempts (migrator : Migrator) : ∀ e ∈ migrator.indexes.entries, ∀ cluster,
    (migrator.drop e.1).Attempts cluster (Sweep.dropping.calls cluster e.2) true
      (Sweep.dropping.final cluster e.2) :=
  fun _ he cluster => drop_attempts (index_of_mem he) cluster

/-- When no name is there, nothing is left to drop. -/
theorem dropAll_of_absent
    (habsent : ∀ name ∈ indexNames migrator.indexes.entries, name ∉ cluster.existing)
    (hasks : ∀ name ∈ indexNames migrator.indexes.entries,
      cluster.fault? (.exists name) = none) :
    migrator.dropAll cluster = ⟨.ok (migrator.indexes.entries.map fun e => (e.1, true)),
      (indexNames migrator.indexes.entries).map .exists, cluster⟩ := by
  refine Sweep.each_of_idle migrator.dropEach_attempts (fun e he => ?_) hasks
  have hgone : e.2.name ∉ cluster.existing := habsent _ (List.mem_map.mpr ⟨e, he, rfl⟩)
  exact ⟨by simp [Sweep.dropping, hgone], Cluster.remove_of_notMem hgone⟩

theorem emptied_of_untroubled (h : (migrator.dropAll cluster).Untroubled cluster) :
    migrator.Emptied cluster (migrator.dropAll cluster) := by
  obtain ⟨hplan, hall⟩ := Sweep.each_of_untroubled migrator.dropEach_attempts h
  have houtcome : migrator.dropAll cluster = _ := hall
  rw [houtcome, after_dropping]
  refine ⟨rfl, fun name => Cluster.mem_removeAll, fun hfree => ?_⟩
  have habsent : ∀ name ∈ indexNames migrator.indexes.entries,
      name ∉ (cluster.removeAll (indexNames migrator.indexes.entries)).existing :=
    fun name hname hleft => hfree name hname ((Cluster.mem_removeAll.mp hleft).2 hname)
  have hsecond := dropAll_of_absent habsent fun name hname =>
    (fault?_removeAll _ _).trans (hplan _ (Sweep.exists_mem_plan hname))
  rw [hsecond]
  refine ⟨rfl, rfl, fun call hcall => ?_⟩
  obtain ⟨name, -, rfl⟩ := List.mem_map.mp hcall
  rfl

end Migrator

/-- Where all configured indexes have mappings, and whatever names they share: creating all of them
brings every name about that was absent, once and with the mappings of its first key, and dropping
all of them takes every name away that does not stay. Doing so again changes nothing, and another
order of the keys leaves the same names. If a call is turned down, the keys before are done and
nothing is called for behind it. -/
theorem sweeps_converge (migrator : Migrator)
    (hmapped : ∀ e ∈ migrator.indexes.entries, ∃ properties, e.2.mappings = .ok properties)
    (cluster : Cluster) :
    let created := migrator.createAll true cluster
    let dropped := migrator.dropAll cluster
    (created.Untroubled cluster → migrator.Filled cluster created) ∧
    (dropped.Untroubled cluster → migrator.Emptied cluster dropped) ∧
    (∀ other : Migrator, other.indexes.entries.Perm migrator.indexes.entries →
      (∀ call, cluster.fault? call = none) → ∀ name,
      (name ∈ (other.createAll true cluster).state.existing ↔ name ∈ created.state.existing) ∧
      (name ∈ (other.dropAll cluster).state.existing ↔ name ∈ dropped.state.existing)) ∧
    (¬ created.Untroubled cluster → ∃ done e rest, migrator.indexes.entries = done ++ e :: rest ∧
      Sweep.creating.EndsAt cluster done e.2 created) ∧
    (¬ dropped.Untroubled cluster → ∃ done e rest, migrator.indexes.entries = done ++ e :: rest ∧
      Sweep.dropping.EndsAt cluster done e.2 dropped) := by
  intro created dropped
  refine ⟨Migrator.filled_of_untroubled hmapped, Migrator.emptied_of_untroubled, ?_,
    Sweep.each_endsAt (Migrator.createEach_attempts hmapped),
    Sweep.each_endsAt migrator.dropEach_attempts⟩
  intro other hperm hcalm name
  have hmapped' : ∀ e ∈ other.indexes.entries, ∃ properties, e.2.mappings = .ok properties :=
    fun e he => hmapped e (hperm.mem_iff.mp he)
  have hnames : name ∈ indexNames other.indexes.entries ↔
      name ∈ indexNames migrator.indexes.entries := (hperm.map _).mem_iff
  have huntroubled {α : Type} (outcome : Outcome AdminCall Cluster α) :
      outcome.Untroubled cluster := fun call _ => hcalm call
  constructor
  · rw [(Migrator.filled_of_untroubled hmapped' (huntroubled _)).existing,
      (Migrator.filled_of_untroubled hmapped (huntroubled _)).existing, hnames]
  · rw [(Migrator.emptied_of_untroubled (huntroubled _)).existing,
      (Migrator.emptied_of_untroubled (huntroubled _)).existing, hnames]

namespace Sample

/-- Another index under the name of the piers. -/
def slips : Index where
  name := "piers"
  schema := .ofList [("id", .leaf .identifier { name := "id" })]
  oneIdentifier := rfl

def boats : Index where
  name := "boats"
  schema := .ofList [
    ("id", .leaf .identifier { name := "id" }),
    ("length", .leaf .float { name := "length" })]
  oneIdentifier := rfl

/-- Two keys that share a name, and one with a name of its own. -/
def basin : Migrator := ⟨.ofList [("p", piers), ("s", slips), ("b", boats)]⟩

/-- A cluster that does not let boats be created. -/
def crowded : Cluster :=
  { existing := ["logs"], faults := [((.create, "boats"), ⟨.badRequest, "crowded", some 400⟩)] }

theorem basin_mapped :
    ∀ e ∈ basin.indexes.entries, ∃ properties, e.2.mappings = .ok properties := by
  have hentries : basin.indexes.entries = [("p", piers), ("s", slips), ("b", boats)] := rfl
  rw [hentries]
  simp only [List.forall_mem_cons, List.not_mem_nil, false_implies, implies_true, and_true]
  exact ⟨⟨_, rfl⟩, ⟨_, rfl⟩, ⟨_, rfl⟩⟩

/-- In the yard the basin is created and dropped, and in a crowded cluster its creation ends at the
boats. -/
theorem basin_converges :
    (∀ e ∈ basin.indexes.entries, ∃ properties, e.2.mappings = .ok properties) ∧
      basin.Filled yard (basin.createAll true yard) ∧
      basin.Emptied yard (basin.dropAll yard) ∧
      ∃ done e rest, basin.indexes.entries = done ++ e :: rest ∧
        Sweep.creating.EndsAt crowded done e.2 (basin.createAll true crowded) := by
  have hcreation : .create "boats" [("id", .keyword), ("length", .float)] ∈
      (basin.createAll true crowded).calls := by
    have hcalls : (basin.createAll true crowded).calls =
        [.exists "piers", .create "piers" [("id", .keyword), ("title", .text)], .exists "piers",
          .exists "boats", .create "boats" [("id", .keyword), ("length", .float)]] := rfl
    simp [hcalls]
  obtain ⟨hfilled, hemptied, -⟩ := sweeps_converge basin basin_mapped yard
  obtain ⟨-, -, -, hends, -⟩ := sweeps_converge basin basin_mapped crowded
  refine ⟨basin_mapped, hfilled fun _ _ => rfl, hemptied fun _ _ => rfl, hends fun huntroubled => ?_⟩
  have hfault := huntroubled _ hcreation
  cases hfault

end Sample

end DocSearch
