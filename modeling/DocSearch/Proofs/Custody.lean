import DocSearch.Migration.Operation
import DocSearch.Proofs.Recreation

/-!
# What a migrator touches

Calls are played back on the cluster they were made on, so that for each of them there is the
cluster at the moment of the call. What a migrator may call for is stated for such moments: it
creates only what it manages and is absent, deletes only what it manages and is present, and asks
for statistics only of what is present. Every operation keeps to that, also one that fails, and so
does every sequence of operations. Indexes that are not configured are therefore never touched.
-/

namespace DocSearch

/-! ## Calls played back -/

namespace Cluster

/-- The cluster after a call. One that is turned down changes nothing. -/
def after (cluster : Cluster) (call : AdminCall) : Cluster :=
  match cluster.fault? call with
  | some _ => cluster
  | none =>
    match call with
    | .exists _ => cluster
    | .stats _ => cluster
    | .create name _ => cluster.add name
    | .delete name => cluster.remove name

def replay (cluster : Cluster) (calls : List AdminCall) : Cluster := calls.foldl after cluster

theorem after_of_fault {cluster : Cluster} {call : AdminCall} {fault : Fault}
    (h : cluster.fault? call = some fault) : cluster.after call = cluster := by
  unfold after
  rw [h]

theorem after_exists (cluster : Cluster) (name : String) :
    cluster.after (.exists name) = cluster := by
  unfold after
  split <;> rfl

theorem after_stats (cluster : Cluster) (name : String) :
    cluster.after (.stats name) = cluster := by
  unfold after
  split <;> rfl

end Cluster

/-- Calls each of which is allowed in the cluster as it is by then, from one cluster to another. -/
inductive Guarded (allowed : Cluster → AdminCall → Prop) :
    Cluster → List AdminCall → Cluster → Prop
  | nil (cluster : Cluster) : Guarded allowed cluster [] cluster
  | cons {cluster final : Cluster} {call : AdminCall} {calls : List AdminCall} :
      allowed cluster call → Guarded allowed (cluster.after call) calls final →
      Guarded allowed cluster (call :: calls) final

namespace Guarded

variable {allowed : Cluster → AdminCall → Prop} {cluster middle final : Cluster}
variable {calls further : List AdminCall}

theorem append (h : Guarded allowed cluster calls middle)
    (hfurther : Guarded allowed middle further final) :
    Guarded allowed cluster (calls ++ further) final := by
  induction h with
  | nil _ => exact hfurther
  | cons hcall _ ih => exact .cons hcall (ih hfurther)

theorem eq_replay (h : Guarded allowed cluster calls final) : final = cluster.replay calls := by
  induction h with
  | nil _ => rfl
  | cons _ _ ih => exact ih

/-- Each call is allowed at the moment at which it is made. -/
theorem allowed_at (h : Guarded allowed cluster calls final) {before rest : List AdminCall}
    {call : AdminCall} (hsplit : calls = before ++ call :: rest) :
    allowed (cluster.replay before) call := by
  induction h generalizing before with
  | nil _ => simp at hsplit
  | cons hcall _ ih =>
      cases before with
      | nil =>
          obtain ⟨rfl, -⟩ := List.cons.inj hsplit
          exact hcall
      | cons first before =>
          obtain ⟨rfl, hrest⟩ := List.cons.inj hsplit
          exact ih hrest

/-- What no allowed call changes is as it was. -/
theorem invariant {P : Cluster → Prop}
    (hstep : ∀ cluster call, allowed cluster call → P cluster → P (cluster.after call))
    (h : Guarded allowed cluster calls final) (hstart : P cluster) : P final := by
  induction h with
  | nil _ => exact hstart
  | cons hcall _ ih => exact ih (hstep _ _ hcall hstart)

end Guarded

/-! ## Computations that keep to what is allowed -/

variable {α β : Type}

/-- From a cluster on, a computation makes only allowed calls, and its calls account for what it
leaves. -/
def Admin.KeepsTo (allowed : Cluster → AdminCall → Prop) (act : Admin α) (cluster : Cluster) :
    Prop :=
  Guarded allowed cluster (act cluster).calls (act cluster).state

namespace Admin.KeepsTo

variable {allowed : Cluster → AdminCall → Prop} {cluster : Cluster} {name : String}

theorem ofExcept (result : Except Error α) (cluster : Cluster) :
    KeepsTo allowed (Action.ofExcept result) cluster :=
  .nil cluster

theorem pure (a : α) (cluster : Cluster) : KeepsTo allowed (pure a) cluster :=
  .nil cluster

theorem bind {act : Admin α} {next : α → Admin β} (h : KeepsTo allowed act cluster)
    (hnext : ∀ a, (act cluster).result = .ok a → KeepsTo allowed (next a) (act cluster).state) :
    KeepsTo allowed (act >>= next) cluster := by
  rw [KeepsTo]
  cases hresult : (act cluster).result with
  | error e =>
      rw [Action.bind_of_result_error hresult]
      exact h
  | ok a =>
      rw [Action.bind_of_result_ok hresult]
      exact h.append (hnext a hresult)

theorem ofExcept_bind {result : Except Error α} {next : α → Admin β}
    (h : ∀ a, result = .ok a → KeepsTo allowed (next a) cluster) :
    KeepsTo allowed (Action.ofExcept result >>= next) cluster :=
  bind (ofExcept result cluster) h

theorem map {act : Admin α} (h : KeepsTo allowed act cluster) (f : α → β) :
    KeepsTo allowed (do return f (← act)) cluster :=
  h.bind fun a _ => pure (f a) _

/-- A call that is answered goes on in the cluster that it leaves. -/
theorem call_bind {call : AdminCall} {answer : Cluster → α} {change : Cluster → Cluster}
    {next : α → Admin β} (hcall : allowed cluster call)
    (hafter : cluster.fault? call = none → cluster.after call = change cluster)
    (h : KeepsTo allowed (next (answer cluster)) (change cluster)) :
    KeepsTo allowed (Admin.call call answer change >>= next) cluster := by
  rw [KeepsTo]
  cases hfault : cluster.fault? call with
  | some fault =>
      have hact : Admin.call call answer change cluster = ⟨.error (.fault fault), [call], cluster⟩ := by
        rw [Admin.call, hfault]
      rw [Action.bind_of_error hact]
      refine .cons hcall ?_
      rw [Cluster.after_of_fault hfault]
      exact .nil cluster
  | none =>
      have hact : Admin.call call answer change cluster =
          ⟨.ok (answer cluster), [call], change cluster⟩ := by
        rw [Admin.call, hfault]
      rw [Action.bind_of_ok hact]
      refine .cons hcall ?_
      rw [hafter hfault]
      exact h

theorem exists?_ite {yes no : Admin β} (hcall : allowed cluster (.exists name))
    (hyes : name ∈ cluster.existing → KeepsTo allowed yes cluster)
    (hno : name ∉ cluster.existing → KeepsTo allowed no cluster) :
    KeepsTo allowed (do if ← Admin.exists? name then yes else no) cluster := by
  refine call_bind hcall (fun _ => cluster.after_exists name) ?_
  by_cases hname : name ∈ cluster.existing
  · rw [decide_eq_true hname, if_pos rfl]
    exact hyes hname
  · rw [decide_eq_false hname, if_neg Bool.false_ne_true]
    exact hno hname

theorem stats_bind {next : Value → Admin β} (hcall : allowed cluster (.stats name))
    (h : KeepsTo allowed (next (cluster.report name)) cluster) :
    KeepsTo allowed (Admin.stats name >>= next) cluster :=
  call_bind hcall (fun _ => cluster.after_stats name) h

theorem create_bind {properties : List (String × Mapping)} {next : Unit → Admin β}
    (hcall : allowed cluster (.create name properties))
    (h : KeepsTo allowed (next ()) (cluster.add name)) :
    KeepsTo allowed (Admin.create name properties >>= next) cluster :=
  call_bind hcall (fun hfault => by simp only [Cluster.after, hfault]) h

theorem delete_bind {next : Unit → Admin β} (hcall : allowed cluster (.delete name))
    (h : KeepsTo allowed (next ()) (cluster.remove name)) :
    KeepsTo allowed (Admin.delete name >>= next) cluster :=
  call_bind hcall (fun hfault => by simp only [Cluster.after, hfault]) h

theorem each {f : α → Admin β} {xs : List α}
    (h : ∀ x ∈ xs, ∀ cluster, KeepsTo allowed (f x) cluster) (cluster : Cluster) :
    KeepsTo allowed (Action.each f xs) cluster := by
  induction xs generalizing cluster with
  | nil => exact pure [] cluster
  | cons x xs ih =>
      rw [List.forall_mem_cons] at h
      rw [Action.each_cons]
      refine (h.1 cluster).bind fun b _ => ?_
      exact (ih h.2 _).map (b :: ·)

/-- Calls that change nothing leave a cluster as it is. -/
theorem state_of_idle {act : Admin α}
    (h : act.KeepsTo (fun cluster call => cluster.after call = cluster) cluster) :
    (act cluster).state = cluster := by
  refine Guarded.invariant (P := (· = cluster)) ?_ h rfl
  exact fun _ _ hidle hbefore => hidle.trans hbefore

end Admin.KeepsTo

/-! ## What a migrator may call for -/

/-- The calls that a migrator may make in a cluster. -/
inductive Migrator.Allows (migrator : Migrator) (cluster : Cluster) : AdminCall → Prop
  | exists (name : String) : Allows migrator cluster (.exists name)
  | stats {name : String} : name ∈ cluster.existing → Allows migrator cluster (.stats name)
  | create {e : String × Index} {properties : List (String × Mapping)} :
      e ∈ migrator.indexes.entries → e.2.name ∉ cluster.existing →
      e.2.mappings = .ok properties → Allows migrator cluster (.create e.2.name properties)
  | delete {e : String × Index} : e ∈ migrator.indexes.entries →
      e.2.name ∈ cluster.existing → Allows migrator cluster (.delete e.2.name)

namespace Migrator

/-- Whether there is an index that is not configured is not changed by an allowed call. -/
theorem Allows.after_existing {migrator : Migrator} {cluster : Cluster} {call : AdminCall}
    (h : migrator.Allows cluster call) {name : String}
    (hname : name ∉ indexNames migrator.indexes.entries) :
    name ∈ (cluster.after call).existing ↔ name ∈ cluster.existing := by
  have hother {e : String × Index} (he : e ∈ migrator.indexes.entries) : name ≠ e.2.name := by
    rintro rfl
    exact hname (List.mem_map.mpr ⟨e, he, rfl⟩)
  unfold Cluster.after
  split
  · exact Iff.rfl
  · cases h with
    | «exists» _ | stats _ => exact Iff.rfl
    | create he _ _ => simp [Cluster.mem_add, hother he]
    | delete he _ => simp [Cluster.mem_remove, hother he]

/-! ## Every operation keeps to it -/

variable {allowed : Cluster → AdminCall → Prop}

section
variable (hexists : ∀ cluster name, allowed cluster (.exists name))
  (hstats : ∀ cluster name, name ∈ cluster.existing → allowed cluster (.stats name))
include hexists hstats

theorem info_keepsTo (name : String) (cluster : Cluster) :
    (info name).KeepsTo allowed cluster := by
  rw [info]
  refine .exists?_ite (hexists cluster name) (fun hpresent => ?_) fun _ => .pure _ cluster
  refine .stats_bind (hstats cluster name hpresent) (.ofExcept_bind fun counts _ => ?_)
  exact .pure _ cluster

theorem status_keepsTo (migrator : Migrator) (cluster : Cluster) :
    migrator.status.KeepsTo allowed cluster :=
  .each (fun e _ cluster => (info_keepsTo hexists hstats e.2.name cluster).map (e.1, ·)) cluster

end

theorem mem_of_index {migrator : Migrator} {key : String} {index : Index}
    (h : migrator.index key = .ok index) : (key, index) ∈ migrator.indexes.entries := by
  rw [Migrator.index, Indexes.get] at h
  cases hlookup : migrator.indexes.entries.lookup key with
  | none =>
      rw [hlookup] at h
      cases h
  | some other =>
      rw [hlookup] at h
      obtain rfl := Except.ok.inj h
      exact Keyed.mem_of_lookup_eq_some hlookup

section
variable {migrator : Migrator}
variable (hexists : ∀ cluster name, allowed cluster (.exists name))
  (hcreate : ∀ cluster, ∀ e ∈ migrator.indexes.entries, ∀ properties,
    e.2.name ∉ cluster.existing → e.2.mappings = .ok properties →
    allowed cluster (.create e.2.name properties))
include hexists hcreate

theorem create_keepsTo (key : String) (skipExisting : Bool) (cluster : Cluster) :
    (migrator.create key skipExisting).KeepsTo allowed cluster := by
  rw [create]
  refine .ofExcept_bind fun index hindex =>
    .exists?_ite (hexists cluster index.name) (fun _ => ?_) fun habsent => ?_
  · cases skipExisting with
    | true => exact .pure true cluster
    | false => exact .ofExcept _ cluster
  · refine .ofExcept_bind fun properties hmapped => ?_
    have hcall : allowed cluster (.create index.name properties) :=
      hcreate cluster _ (mem_of_index hindex) properties habsent hmapped
    exact .create_bind hcall (.pure true _)

theorem createAll_keepsTo (skipExisting : Bool) (cluster : Cluster) :
    (migrator.createAll skipExisting).KeepsTo allowed cluster :=
  .each (fun e _ cluster =>
    (create_keepsTo hexists hcreate e.1 skipExisting cluster).map (e.1, ·)) cluster

end

section
variable (migrator : Migrator) (key : String) (cluster : Cluster)

theorem drop_keepsTo : (migrator.drop key).KeepsTo migrator.Allows cluster := by
  rw [drop]
  refine .ofExcept_bind fun index hindex =>
    .exists?_ite (.exists index.name) (fun hpresent => ?_) fun _ => .pure true cluster
  exact .delete_bind (.delete (mem_of_index hindex) hpresent) (.pure true _)

theorem dropAll_keepsTo : migrator.dropAll.KeepsTo migrator.Allows cluster :=
  .each (fun e _ cluster => (migrator.drop_keepsTo e.1 cluster).map (e.1, ·)) cluster

theorem perform_keepsTo (operation : Operation) :
    (migrator.perform operation).KeepsTo migrator.Allows cluster := by
  have hexists (cluster : Cluster) (name : String) : migrator.Allows cluster (.exists name) :=
    .exists name
  have hstats (cluster : Cluster) (name : String) (hpresent : name ∈ cluster.existing) :
      migrator.Allows cluster (.stats name) := .stats hpresent
  have hcreate (cluster : Cluster) (e : String × Index) (he : e ∈ migrator.indexes.entries)
      (properties : List (String × Mapping)) (habsent : e.2.name ∉ cluster.existing)
      (hmapped : e.2.mappings = .ok properties) :
      migrator.Allows cluster (.create e.2.name properties) := .create he habsent hmapped
  have hcreateAll (skipExisting : Bool) (cluster : Cluster) :
      (migrator.createAll skipExisting).KeepsTo migrator.Allows cluster :=
    createAll_keepsTo hexists hcreate skipExisting cluster
  cases operation with
  | info name => exact (info_keepsTo hexists hstats name cluster).map _
  | status => exact (migrator.status_keepsTo hexists hstats cluster).map _
  | create key skipExisting =>
      exact (create_keepsTo hexists hcreate key skipExisting cluster).map _
  | drop key => exact (migrator.drop_keepsTo key cluster).map _
  | createAll skipExisting => exact (hcreateAll skipExisting cluster).map _
  | dropAll => exact (migrator.dropAll_keepsTo cluster).map _
  | recreateAll =>
      exact ((migrator.dropAll_keepsTo cluster).bind fun _ _ => hcreateAll false _).map _

end

/-! ## Sequences of operations -/

/-- Up to the end of any operation of a sequence, all calls of this operation and of those before it
have been allowed. -/
theorem run_keepsTo {migrator : Migrator} {cluster : Cluster} {operations : List Operation}
    {earlier later : List (Outcome AdminCall Cluster Answer)}
    {outcome : Outcome AdminCall Cluster Answer}
    (h : migrator.run cluster operations = earlier ++ outcome :: later) :
    Guarded migrator.Allows cluster ((earlier ++ [outcome]).flatMap (·.calls)) outcome.state := by
  induction operations generalizing cluster earlier with
  | nil => simp [run] at h
  | cons operation rest ih =>
      rw [run] at h
      cases earlier with
      | nil =>
          obtain ⟨rfl, -⟩ := List.cons.inj h
          rw [List.nil_append, List.flatMap_singleton]
          exact migrator.perform_keepsTo cluster operation
      | cons first earlier =>
          obtain ⟨rfl, hrest⟩ := List.cons.inj h
          rw [List.cons_append, List.flatMap_cons]
          exact (migrator.perform_keepsTo cluster operation).append (ih hrest)

/-! ## Operations that only look -/

/-- Operations that inspect indexes, or that are about a key that is not configured. -/
def OnlyLooks (migrator : Migrator) : Operation → Prop
  | .info _ | .status => True
  | .create key _ | .drop key => key ∉ migrator.indexes.entries.map Prod.fst
  | .createAll _ | .dropAll | .recreateAll => False

theorem index_of_unknown {migrator : Migrator} {key : String}
    (h : key ∉ migrator.indexes.entries.map Prod.fst) :
    migrator.index key = .error (.indexNotConfigured key) := by
  rw [index, Indexes.get, Keyed.lookup_eq_none_iff_notMem.mpr h]

theorem state_of_onlyLooks {migrator : Migrator} {operation : Operation}
    (h : migrator.OnlyLooks operation) (cluster : Cluster) :
    (migrator.perform operation cluster).state = cluster := by
  have hexists := Cluster.after_exists
  have hstats (cluster : Cluster) (name : String) (_ : name ∈ cluster.existing) :
      cluster.after (.stats name) = cluster :=
    cluster.after_stats name
  cases operation with
  | info name => exact ((info_keepsTo hexists hstats name cluster).map _).state_of_idle
  | status => exact ((migrator.status_keepsTo hexists hstats cluster).map _).state_of_idle
  | create key skipExisting =>
      rw [perform, create, index_of_unknown h, Action.ofExcept_error_bind]
      rfl
  | drop key =>
      rw [perform, drop, index_of_unknown h, Action.ofExcept_error_bind]
      rfl
  | createAll _ | dropAll | recreateAll => exact h.elim

end Migrator

/-! ## What is touched -/

/-- Calls of a migrator that lead from one cluster to another: each was allowed when it was made,
and the indexes that are not configured are those that were there before. -/
structure Migrator.Custody (migrator : Migrator) (start : Cluster) (calls : List AdminCall)
    (final : Cluster) : Prop where
  replayed : final = start.replay calls
  allowed : ∀ before call rest, calls = before ++ call :: rest →
    migrator.Allows (start.replay before) call
  others : ∀ name, name ∉ indexNames migrator.indexes.entries →
    (name ∈ final.existing ↔ name ∈ start.existing)

theorem Guarded.custody {migrator : Migrator} {start final : Cluster} {calls : List AdminCall}
    (h : Guarded migrator.Allows start calls final) : migrator.Custody start calls final where
  replayed := h.eq_replay
  allowed _ _ _ hsplit := h.allowed_at hsplit
  others _ hname :=
    h.invariant (fun _ _ hcall hbefore => (hcall.after_existing hname).trans hbefore) Iff.rfl

/-- Whatever operations a migrator carries out on whatever cluster, and also if some of them fail:
it creates only configured indexes that are absent, with their own mappings, it deletes only
configured indexes that are present, and it asks for statistics only of indexes that are present.
Operations that inspect, and those about unknown keys, change nothing. -/
theorem only_managed_indexes_are_touched (migrator : Migrator) :
    (∀ cluster operations earlier outcome later,
      migrator.run cluster operations = earlier ++ outcome :: later →
      migrator.Custody cluster ((earlier ++ [outcome]).flatMap (·.calls)) outcome.state) ∧
    ∀ operation, migrator.OnlyLooks operation → ∀ cluster,
      (migrator.perform operation cluster).state = cluster :=
  ⟨fun _ _ _ _ _ h => (Migrator.run_keepsTo h).custody, fun _ => Migrator.state_of_onlyLooks⟩

namespace Sample

/-- A recreation of the shore that fails, and a further try to create the piers that it left. -/
theorem shore_in_custody :
    shore.Custody yard
        [.exists "piers", .exists "places", .delete "places", .exists "piers",
          .create "piers" [("id", .keyword), ("title", .text)], .exists "places",
          .exists "piers"]
        { existing := ["logs", "piers"] } ∧
      (shore.perform (.drop "quay") yard).state = yard :=
  ⟨(only_managed_indexes_are_touched shore).1 yard [.recreateAll, .create "p" false] [_] _ [] rfl,
    (only_managed_indexes_are_touched shore).2 (.drop "quay")
      (show "quay" ∉ ["p", "q"] by decide) yard⟩

end Sample

end DocSearch
