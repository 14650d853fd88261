import DocSearch.Proofs.Plan
import DocSearch.Proofs.Sample

/-!
# Dropping and creating everything anew

A recreation first drops every configured index and only then creates the first of them. It has a
schedule that the configuration and the cluster give, it never leaves that schedule, and it comes to
the end of it exactly if every index can be dropped and every index can be created. Where it stops
half-way the indexes that are dropped by then stay dropped.

Nothing is looked at before the dropping begins. So an index without mappings, or a second index of
the same name, is noticed only when everything is gone.
-/

namespace DocSearch

/-- The names of configured indexes in order. Several keys may have one name. -/
def indexNames (entries : List (String × Index)) : List String := entries.map fun e => e.2.name

/-- What a call is and which index it is about. -/
def AdminCall.slot (call : AdminCall) : AdminMethod × String := (call.method, call.target)

namespace Migrator

theorem index_of_mem {migrator : Migrator} {e : String × Index}
    (h : e ∈ migrator.indexes.entries) : migrator.index e.1 = .ok e.2 := by
  rw [index, Indexes.get, (Keyed.lookup_eq_some_iff_mem migrator.indexes.distinct).mpr h]

end Migrator

/-! ## Dropping -/

/-- The calls that drop indexes of these names one after the other: each is asked for, and deleted
if it is there by then. -/
def Cluster.dropCalls (cluster : Cluster) : List String → List AdminCall
  | [] => []
  | name :: rest =>
    if name ∈ cluster.existing then
      .exists name :: .delete name :: (cluster.remove name).dropCalls rest
    else .exists name :: cluster.dropCalls rest

namespace Cluster

variable {cluster : Cluster} {name : String} {names : List String}

theorem dropCalls_cons : cluster.dropCalls (name :: names) =
    cluster.dropCalls [name] ++ (cluster.remove name).dropCalls names := by
  by_cases h : name ∈ cluster.existing
  · simp only [dropCalls, if_pos h, List.cons_append, List.nil_append]
  · simp only [dropCalls, if_neg h, List.cons_append, List.nil_append, remove_of_notMem h]

theorem slot_of_mem_dropCalls {call : AdminCall} (h : call ∈ cluster.dropCalls names) :
    call.method ≠ .create ∧ call.target ∈ names := by
  induction names generalizing cluster with
  | nil => cases h
  | cons first rest ih =>
      rw [dropCalls_cons, List.mem_append] at h
      rcases h with hfirst | hrest
      · by_cases hpresent : first ∈ cluster.existing <;>
          simp only [dropCalls, hpresent, if_true, if_false, List.mem_cons, List.not_mem_nil,
            or_false] at hfirst
        · rcases hfirst with rfl | rfl <;> exact ⟨by simp [AdminCall.method], List.mem_cons_self⟩
        · subst hfirst
          exact ⟨by simp [AdminCall.method], List.mem_cons_self⟩
      · exact ⟨(ih hrest).1, List.mem_cons_of_mem _ (ih hrest).2⟩

/-- Of different names each one that is there is deleted once. -/
theorem filter_delete_dropCalls (hd : names.Nodup) :
    (cluster.dropCalls names).filter (fun call => call.slot = (.delete, name)) =
      if name ∈ names ∧ name ∈ cluster.existing then [.delete name] else [] := by
  induction names generalizing cluster with
  | nil => simp [dropCalls]
  | cons first rest ih =>
      rw [List.nodup_cons] at hd
      rw [dropCalls_cons, List.filter_append, ih hd.2]
      simp only [mem_remove]
      by_cases hfirst : name = first
      · subst hfirst
        by_cases hpresent : name ∈ cluster.existing <;>
          simp [dropCalls, hpresent, hd.1, AdminCall.slot, AdminCall.method, AdminCall.target]
      · have hother : first ≠ name := fun h => hfirst h.symm
        by_cases hpresent : first ∈ cluster.existing <;>
          simp [dropCalls, hpresent, hfirst, hother, AdminCall.slot, AdminCall.method,
            AdminCall.target]

end Cluster

namespace Migrator

variable {migrator : Migrator}

theorem drop_follows {key : String} {index : Index} (h : migrator.index key = .ok index)
    (cluster : Cluster) : (migrator.drop key).Follows cluster (cluster.dropCalls [index.name])
      (.ok true) (cluster.remove index.name) := by
  rw [drop, h, Action.ofExcept_ok_bind]
  by_cases hpresent : index.name ∈ cluster.existing
  · rw [Cluster.dropCalls, if_pos hpresent]
    exact .exists?_of_mem hpresent (.delete_bind (.pure true _))
  · rw [Cluster.dropCalls, if_neg hpresent, Cluster.remove_of_notMem hpresent]
    exact .exists?_of_notMem hpresent (.pure true cluster)

theorem dropEach_follows {entries : List (String × Index)}
    (h : ∀ e ∈ entries, migrator.index e.1 = .ok e.2) (cluster : Cluster) :
    Admin.Follows (Action.each (fun e => do return (e.1, ← migrator.drop e.1)) entries) cluster
      (cluster.dropCalls (indexNames entries)) (.ok (entries.map fun e => (e.1, true)))
      (cluster.removeAll (indexNames entries)) := by
  induction entries generalizing cluster with
  | nil => exact .each_nil _ cluster
  | cons e rest ih =>
      rw [List.forall_mem_cons] at h
      rw [indexNames, List.map_cons, ← indexNames, Cluster.dropCalls_cons]
      exact .each_cons e (drop_follows h.1 cluster) (ih h.2 _)

theorem dropAll_follows (migrator : Migrator) (cluster : Cluster) :
    migrator.dropAll.Follows cluster (cluster.dropCalls (indexNames migrator.indexes.entries))
      (.ok (migrator.indexes.entries.map fun e => (e.1, true)))
      (cluster.removeAll (indexNames migrator.indexes.entries)) :=
  dropEach_follows (fun _ => index_of_mem) cluster

end Migrator

/-! ## Creating -/

/-- The calls that create an index anew: it is asked for, and created unless it has no mappings to be
created with. -/
def Index.creation (index : Index) : List AdminCall :=
  .exists index.name :: match index.mappings with
    | .ok properties => [.create index.name properties]
    | .error _ => []

theorem Index.slot_of_mem_creation {index : Index} {call : AdminCall} (h : call ∈ index.creation) :
    call.method ≠ .delete ∧ call.target = index.name := by
  rw [creation, List.mem_cons] at h
  rcases h with rfl | hcreate
  · exact ⟨by simp [AdminCall.method], rfl⟩
  · cases hmappings : index.mappings with
    | error _ =>
        rw [hmappings] at hcreate
        cases hcreate
    | ok properties =>
        rw [hmappings, List.mem_singleton] at hcreate
        subst hcreate
        exact ⟨by simp [AdminCall.method], rfl⟩

/-- Of indexes with different names each one that has mappings is created once, with these. -/
theorem filter_create_creation {entries : List (String × Index)} (hd : (indexNames entries).Nodup)
    {e : String × Index} (he : e ∈ entries) {properties : List (String × Mapping)}
    (hmapped : e.2.mappings = .ok properties) :
    (entries.flatMap (·.2.creation)).filter (fun call => call.slot = (.create, e.2.name)) =
      [.create e.2.name properties] := by
  have hothers {others : List (String × Index)} (h : e.2.name ∉ indexNames others) :
      (others.flatMap (·.2.creation)).filter (fun call => call.slot = (.create, e.2.name)) = [] := by
    rw [List.filter_eq_nil_iff]
    intro call hcall
    obtain ⟨other, hother, hcall⟩ := List.mem_flatMap.mp hcall
    rw [decide_eq_true_eq, AdminCall.slot, (Index.slot_of_mem_creation hcall).2, Prod.mk.injEq]
    exact fun heq => h (List.mem_map.mpr ⟨other, hother, heq.2⟩)
  obtain ⟨before, after, rfl⟩ := List.append_of_mem he
  rw [indexNames, List.map_append, List.map_cons, List.nodup_append, List.nodup_cons] at hd
  obtain ⟨-, ⟨hafter, -⟩, hbefore⟩ := hd
  have hbefore : e.2.name ∉ indexNames before :=
    fun h => hbefore _ h _ List.mem_cons_self rfl
  rw [List.flatMap_append, List.flatMap_cons, List.filter_append, List.filter_append,
    hothers hbefore, hothers hafter, Index.creation, hmapped]
  simp [AdminCall.slot, AdminCall.method, AdminCall.target]

/-- Why an index cannot be created in a cluster although no call is turned down. -/
inductive Cluster.Refuses (cluster : Cluster) (index : Index) : Error → Prop
  | present : index.name ∈ cluster.existing → Refuses cluster index (.indexExists index.name)
  | unmapped {e : Error} : index.name ∉ cluster.existing → index.mappings = .error e →
      Refuses cluster index e

/-- Configured indexes that could all exist side by side. -/
structure Creatable (entries : List (String × Index)) : Prop where
  distinct : (indexNames entries).Nodup
  mapped : ∀ e ∈ entries, ∃ properties, e.2.mappings = .ok properties

/-- Indexes that can be created one after the other because none of them is there. -/
structure Cluster.Takes (cluster : Cluster) (entries : List (String × Index)) : Prop
    extends Creatable entries where
  absent : ∀ name ∈ indexNames entries, name ∉ cluster.existing

namespace Cluster

variable {cluster : Cluster} {index : Index}

theorem takes_nil (cluster : Cluster) : cluster.Takes [] where
  distinct := List.nodup_nil
  mapped := by simp
  absent := by simp [indexNames]

theorem takes_cons {e : String × Index} {rest : List (String × Index)}
    {properties : List (String × Mapping)} (habsent : e.2.name ∉ cluster.existing)
    (hmapped : e.2.mappings = .ok properties) (hrest : (cluster.add e.2.name).Takes rest) :
    cluster.Takes (e :: rest) where
  absent := by
    intro name hname
    rcases List.mem_cons.mp hname with rfl | hname
    · exact habsent
    · exact fun h => hrest.absent name hname ((cluster.mem_add _).mpr (.inl h))
  distinct := List.nodup_cons.mpr
    ⟨fun h => hrest.absent _ h ((cluster.mem_add _).mpr (.inr rfl)), hrest.distinct⟩
  mapped := List.forall_mem_cons.mpr ⟨⟨properties, hmapped⟩, hrest.mapped⟩

/-- An index that is taken after others is not refused. -/
theorem Takes.not_refuses {done rest : List (String × Index)} {e : String × Index} {error : Error}
    (h : cluster.Takes (done ++ e :: rest)) :
    ¬ (cluster.addAll (indexNames done)).Refuses e.2 error := by
  intro hrefuses
  have hmem : e ∈ done ++ e :: rest := by simp
  have hdistinct := h.distinct
  rw [indexNames, List.map_append, List.map_cons, List.nodup_append] at hdistinct
  cases hrefuses with
  | present hpresent =>
      rcases mem_addAll.mp hpresent with hbefore | hdone
      · exact h.absent e.2.name (List.mem_map.mpr ⟨e, hmem, rfl⟩) hbefore
      · exact hdistinct.2.2 _ hdone _ List.mem_cons_self rfl
  | unmapped _ herror =>
      obtain ⟨properties, hproperties⟩ := h.mapped e hmem
      rw [hproperties] at herror
      cases herror

end Cluster

namespace Migrator

variable {migrator : Migrator} {key : String} {index : Index}

/-- An index that is absent is created whether or not one that exists would be skipped. -/
theorem create_follows (h : migrator.index key = .ok index) {cluster : Cluster}
    (habsent : index.name ∉ cluster.existing) {properties : List (String × Mapping)}
    (hmapped : index.mappings = .ok properties) (skipExisting : Bool) :
    (migrator.create key skipExisting).Follows cluster index.creation (.ok true)
      (cluster.add index.name) := by
  rw [create, h, Action.ofExcept_ok_bind, Index.creation, hmapped]
  exact .exists?_of_notMem habsent (.create_bind (.pure true _))

theorem create_refused (h : migrator.index key = .ok index) {cluster : Cluster} {e : Error}
    (hrefused : cluster.Refuses index e) :
    (migrator.create key false).Follows cluster [.exists index.name] (.error e) cluster := by
  rw [create, h, Action.ofExcept_ok_bind]
  cases hrefused with
  | present hpresent => exact .exists?_of_mem hpresent (.ofExcept _ cluster)
  | unmapped habsent hmappings =>
      rw [hmappings]
      exact .exists?_of_notMem habsent (.ofExcept _ cluster)

/-- The indexes are created in order up to the first one that is refused. -/
theorem createEach_follows {entries : List (String × Index)}
    (h : ∀ e ∈ entries, migrator.index e.1 = .ok e.2) (cluster : Cluster) :
    cluster.Takes entries ∧
      Admin.Follows (Action.each (fun e => do return (e.1, ← migrator.create e.1 false)) entries)
        cluster (entries.flatMap (·.2.creation)) (.ok (entries.map fun e => (e.1, true)))
        (cluster.addAll (indexNames entries)) ∨
    ∃ done e rest error, entries = done ++ e :: rest ∧ cluster.Takes done ∧
      (cluster.addAll (indexNames done)).Refuses e.2 error ∧
      Admin.Follows (Action.each (fun e => do return (e.1, ← migrator.create e.1 false)) entries)
        cluster (done.flatMap (·.2.creation) ++ [.exists e.2.name]) (.error error)
        (cluster.addAll (indexNames done)) := by
  induction entries generalizing cluster with
  | nil => exact .inl ⟨cluster.takes_nil, .each_nil _ cluster⟩
  | cons e rest ih =>
      rw [List.forall_mem_cons] at h
      by_cases hpresent : e.2.name ∈ cluster.existing
      · have hrefuses := Cluster.Refuses.present hpresent
        exact .inr ⟨[], e, rest, _, rfl, cluster.takes_nil, hrefuses,
          .each_cons_error e (create_refused h.1 hrefuses)⟩
      cases hmapped : e.2.mappings with
      | error error =>
          have hrefuses := Cluster.Refuses.unmapped hpresent hmapped
          exact .inr ⟨[], e, rest, _, rfl, cluster.takes_nil, hrefuses,
            .each_cons_error e (create_refused h.1 hrefuses)⟩
      | ok properties =>
          have hfirst := create_follows h.1 hpresent hmapped false
          rcases ih h.2 (cluster.add e.2.name) with
            ⟨htakes, hrest⟩ | ⟨done, e', rest', error, rfl, htakes, hrefuses, hrest⟩
          · exact .inl ⟨Cluster.takes_cons hpresent hmapped htakes, .each_cons e hfirst hrest⟩
          · refine .inr ⟨e :: done, e', rest', error, rfl,
              Cluster.takes_cons hpresent hmapped htakes, hrefuses, ?_⟩
            rw [List.flatMap_cons, List.append_assoc]
            exact .each_cons e hfirst hrest

/-! ## Dropping everything and creating everything -/

variable (migrator : Migrator) (cluster : Cluster)

/-- What a recreation is to do: drop every configured index, and then create every one. -/
def schedule : List AdminCall :=
  cluster.dropCalls (indexNames migrator.indexes.entries) ++
    migrator.indexes.entries.flatMap (·.2.creation)

/-- The configured indexes can exist side by side, and those that are there can be deleted. -/
structure CanRecreate : Prop extends Creatable migrator.indexes.entries where
  removable : ∀ name ∈ indexNames migrator.indexes.entries, name ∈ cluster.existing →
    name ∉ cluster.sticky

variable {migrator cluster}

theorem takes_iff_canRecreate :
    (cluster.removeAll (indexNames migrator.indexes.entries)).Takes migrator.indexes.entries ↔
      migrator.CanRecreate cluster := by
  constructor
  · intro h
    refine ⟨h.toCreatable, fun name hname hpresent hsticky => ?_⟩
    exact h.absent name hname (Cluster.mem_removeAll.mpr ⟨hpresent, fun _ => hsticky⟩)
  · intro h
    refine ⟨h.toCreatable, fun name hname hleft => ?_⟩
    obtain ⟨hpresent, hsticky⟩ := Cluster.mem_removeAll.mp hleft
    exact h.removable name hname hpresent (hsticky hname)

/-- The calls of a recreation up to an index that is refused are the beginning of the schedule. -/
theorem refused_prefix_schedule {done rest : List (String × Index)} {e : String × Index}
    (h : migrator.indexes.entries = done ++ e :: rest) :
    cluster.dropCalls (indexNames migrator.indexes.entries) ++
      (done.flatMap (·.2.creation) ++ [.exists e.2.name]) <+: migrator.schedule cluster := by
  rw [schedule, List.prefix_append_right_inj, h, List.flatMap_append, List.flatMap_cons,
    List.prefix_append_right_inj, Index.creation, List.cons_append]
  exact List.prefix_append [_] _

variable (migrator cluster)

/-- A recreation goes through the schedule, or up to the first index that is refused when everything
has been dropped. -/
theorem recreateAll_follows :
    migrator.CanRecreate cluster ∧ migrator.recreateAll.Follows cluster (migrator.schedule cluster)
      (.ok (migrator.indexes.entries.map fun e => (e.1, true)))
      ((cluster.removeAll (indexNames migrator.indexes.entries)).addAll
        (indexNames migrator.indexes.entries)) ∨
    ∃ done e rest error, migrator.indexes.entries = done ++ e :: rest ∧
      (cluster.removeAll (indexNames migrator.indexes.entries)).Takes done ∧
      ((cluster.removeAll (indexNames migrator.indexes.entries)).addAll
        (indexNames done)).Refuses e.2 error ∧
      migrator.recreateAll.Follows cluster
        (cluster.dropCalls (indexNames migrator.indexes.entries) ++
          (done.flatMap (·.2.creation) ++ [.exists e.2.name]))
        (.error error)
        ((cluster.removeAll (indexNames migrator.indexes.entries)).addAll (indexNames done)) := by
  have hdropped := migrator.dropAll_follows cluster
  rcases createEach_follows (fun _ => index_of_mem)
      (cluster.removeAll (indexNames migrator.indexes.entries)) with
    ⟨htakes, hcreated⟩ | ⟨done, e, rest, error, hsplit, htakes, hrefuses, hcreated⟩
  · exact .inl ⟨takes_iff_canRecreate.mp htakes, hdropped.bind hcreated⟩
  · exact .inr ⟨done, e, rest, error, hsplit, htakes, hrefuses, hdropped.bind hcreated⟩

/-- What a recreation that succeeded has done. -/
structure Recreated (outcome : Outcome AdminCall Cluster (List (String × Bool))) : Prop where
  results : outcome.result = .ok (migrator.indexes.entries.map fun e => (e.1, true))
  calls : outcome.calls = migrator.schedule cluster
  deletedOnce : ∀ name ∈ indexNames migrator.indexes.entries,
    outcome.calls.filter (fun call => call.slot = (.delete, name)) =
      if name ∈ cluster.existing then [.delete name] else []
  createdOnce : ∀ e ∈ migrator.indexes.entries, ∃ properties, e.2.mappings = .ok properties ∧
    outcome.calls.filter (fun call => call.slot = (.create, e.2.name)) =
      [.create e.2.name properties] ∧
    e.2.name ∈ outcome.state.existing
  others : ∀ name ∉ indexNames migrator.indexes.entries,
    (name ∈ outcome.state.existing ↔ name ∈ cluster.existing) ∧
      ∀ call ∈ outcome.calls, call.target ≠ name

/-- Where and why a recreation failed: a call on the schedule was turned down, or everything was
dropped, the indexes before one of them were created, and this one was refused. -/
inductive StoppedShort (outcome : Outcome AdminCall Cluster (List (String × Bool))) : Error → Prop
  | turnedDown {earlier : List AdminCall} {call : AdminCall} {fault : Fault} :
      outcome.calls = earlier ++ [call] → (∀ c ∈ earlier, cluster.fault? c = none) →
      cluster.fault? call = some fault → StoppedShort outcome (.fault fault)
  | refused {done rest : List (String × Index)} {e : String × Index} {error : Error} :
      migrator.indexes.entries = done ++ e :: rest →
      outcome.calls = cluster.dropCalls (indexNames migrator.indexes.entries) ++
        (done.flatMap (·.2.creation) ++ [.exists e.2.name]) →
      (∀ c ∈ outcome.calls, cluster.fault? c = none) → outcome.state.Refuses e.2 error →
      StoppedShort outcome error

variable {migrator cluster}

theorem target_of_mem_schedule {call : AdminCall} (h : call ∈ migrator.schedule cluster) :
    call.target ∈ indexNames migrator.indexes.entries := by
  rw [schedule, List.mem_append, List.mem_flatMap] at h
  rcases h with hdrop | ⟨e, he, hcall⟩
  · exact (Cluster.slot_of_mem_dropCalls hdrop).2
  · exact List.mem_map.mpr ⟨e, he, (Index.slot_of_mem_creation hcall).2.symm⟩

theorem CanRecreate.recreated (h : migrator.CanRecreate cluster)
    {outcome : Outcome AdminCall Cluster (List (String × Bool))}
    (houtcome : outcome = ⟨.ok (migrator.indexes.entries.map fun e => (e.1, true)),
      migrator.schedule cluster, (cluster.removeAll (indexNames migrator.indexes.entries)).addAll
        (indexNames migrator.indexes.entries)⟩) : migrator.Recreated cluster outcome := by
  subst houtcome
  refine ⟨rfl, rfl, ?_, ?_, ?_⟩
  · intro name hname
    have hcreations : (migrator.indexes.entries.flatMap (·.2.creation)).filter
        (fun call => call.slot = (.delete, name)) = [] := by
      rw [List.filter_eq_nil_iff]
      intro call hcall hslot
      obtain ⟨e, -, hcall⟩ := List.mem_flatMap.mp hcall
      exact (Index.slot_of_mem_creation hcall).1 (Prod.mk.inj (of_decide_eq_true hslot)).1
    rw [schedule, List.filter_append, hcreations, List.append_nil,
      Cluster.filter_delete_dropCalls h.distinct]
    simp only [hname, true_and]
  · intro e he
    obtain ⟨properties, hmapped⟩ := h.mapped e he
    have hdrops : (cluster.dropCalls (indexNames migrator.indexes.entries)).filter
        (fun call => call.slot = (.create, e.2.name)) = [] := by
      rw [List.filter_eq_nil_iff]
      intro call hcall hslot
      exact (Cluster.slot_of_mem_dropCalls hcall).1 (Prod.mk.inj (of_decide_eq_true hslot)).1
    refine ⟨properties, hmapped, ?_, ?_⟩
    · rw [schedule, List.filter_append, hdrops, List.nil_append,
        filter_create_creation h.distinct he hmapped]
    · exact Cluster.mem_addAll.mpr (.inr (List.mem_map.mpr ⟨e, he, rfl⟩))
  · intro name hname
    refine ⟨?_, fun call hcall htarget => hname (htarget ▸ target_of_mem_schedule hcall)⟩
    rw [Cluster.mem_addAll, Cluster.mem_removeAll]
    simp [hname]

variable (migrator cluster)

theorem recreateAll_calls_prefix :
    (migrator.recreateAll cluster).calls <+: migrator.schedule cluster := by
  rcases migrator.recreateAll_follows cluster with
    ⟨-, h⟩ | ⟨done, e, rest, error, hsplit, -, -, h⟩
  · exact h.calls_prefix
  · exact h.calls_prefix.trans (refused_prefix_schedule hsplit)

theorem recreateAll_succeeds_iff :
    (∃ results, (migrator.recreateAll cluster).result = .ok results) ↔ migrator.CanRecreate cluster ∧
      ∀ call ∈ (migrator.recreateAll cluster).calls, cluster.fault? call = none := by
  constructor
  · rintro ⟨results, hresults⟩
    rcases migrator.recreateAll_follows cluster with
      ⟨hcan, h⟩ | ⟨done, e, rest, error, -, -, -, h⟩
    · obtain ⟨hall, hact⟩ := h.eq_of_ok hresults
      rw [hact]
      exact ⟨hcan, hall⟩
    · rw [(h.eq_of_ok hresults).2] at hresults
      cases hresults
  · rintro ⟨hcan, hcalls⟩
    rcases migrator.recreateAll_follows cluster with
      ⟨-, h⟩ | ⟨done, e, rest, error, hsplit, -, hrefuses, -⟩
    · rw [h.eq_of_calls hcalls]
      exact ⟨_, rfl⟩
    · have htakes := takes_iff_canRecreate.mpr hcan
      rw [hsplit] at htakes hrefuses
      exact absurd hrefuses htakes.not_refuses

variable {migrator cluster}

theorem recreated_of_ok {results : List (String × Bool)}
    (h : (migrator.recreateAll cluster).result = .ok results) :
    migrator.Recreated cluster (migrator.recreateAll cluster) := by
  obtain ⟨hcan, hcalls⟩ := (migrator.recreateAll_succeeds_iff cluster).mp ⟨results, h⟩
  rcases migrator.recreateAll_follows cluster with ⟨-, hfollows⟩ | ⟨_, _, _, _, -, -, -, hfollows⟩
  · exact hcan.recreated (hfollows.eq_of_calls hcalls)
  · rw [hfollows.eq_of_calls hcalls] at h
    cases h

theorem stoppedShort_of_turnedDown {plan : List AdminCall} {error : Error}
    (h : (migrator.recreateAll cluster).TurnedDown cluster plan)
    (herror : (migrator.recreateAll cluster).result = .error error) :
    migrator.StoppedShort cluster (migrator.recreateAll cluster) error := by
  obtain ⟨earlier, call, fault, -, hearlier, hcall, hresult, hcalls⟩ := h
  obtain rfl := Except.error.inj (hresult.symm.trans herror)
  exact .turnedDown hcalls hearlier hcall

theorem stoppedShort_of_error {error : Error}
    (h : (migrator.recreateAll cluster).result = .error error) :
    migrator.StoppedShort cluster (migrator.recreateAll cluster) error := by
  rcases migrator.recreateAll_follows cluster with
    ⟨-, hfollows⟩ | ⟨done, e, rest, error', hsplit, -, hrefuses, hfollows⟩
  · rcases hfollows.outcome with hdown | ⟨-, hact⟩
    · exact stoppedShort_of_turnedDown hdown h
    · rw [hact] at h
      cases h
  · rcases hfollows.outcome with hdown | ⟨hall, hact⟩
    · exact stoppedShort_of_turnedDown hdown h
    · rw [hact] at h ⊢
      obtain rfl := Except.error.inj h
      exact .refused hsplit rfl hall hrefuses

/-- Whatever is created, all that was to be dropped has been asked for and dropped before. -/
theorem drops_before_creates {earlier later : List AdminCall} {name : String}
    {properties : List (String × Mapping)}
    (h : (migrator.recreateAll cluster).calls = earlier ++ .create name properties :: later) :
    cluster.dropCalls (indexNames migrator.indexes.entries) <+: earlier := by
  have hprefix : earlier ++ [.create name properties] <+: migrator.schedule cluster := by
    refine List.IsPrefix.trans ?_ (migrator.recreateAll_calls_prefix cluster)
    rw [h]
    exact ⟨later, by simp⟩
  have hdrops := List.prefix_append (cluster.dropCalls (indexNames migrator.indexes.entries))
    (migrator.indexes.entries.flatMap (·.2.creation))
  rcases List.prefix_or_prefix_of_prefix hprefix hdrops with hinside | hbehind
  · have hcreate := hinside.subset (List.mem_append_right earlier List.mem_cons_self)
    exact absurd rfl (Cluster.slot_of_mem_dropCalls hcreate).1
  · rcases List.prefix_concat_iff.mp hbehind with heq | hearlier
    · have hcreate : .create name properties ∈
          cluster.dropCalls (indexNames migrator.indexes.entries) := by simp [heq]
      exact absurd rfl (Cluster.slot_of_mem_dropCalls hcreate).1
    · exact hearlier

end Migrator

/-- A recreation succeeds exactly if the configured indexes can exist side by side, those that are
there can be deleted, and no call that it makes is turned down. It then has deleted once what was
there and created every index once. Otherwise it stopped on its schedule, on which everything is
dropped before anything is created. -/
theorem recreation_succeeds_exactly_when_it_can (migrator : Migrator) (cluster : Cluster) :
    let outcome := migrator.recreateAll cluster
    ((∃ results, outcome.result = .ok results) ↔
      migrator.CanRecreate cluster ∧ ∀ call ∈ outcome.calls, cluster.fault? call = none) ∧
    (∀ results, outcome.result = .ok results → migrator.Recreated cluster outcome) ∧
    (∀ error, outcome.result = .error error →
      outcome.calls <+: migrator.schedule cluster ∧ migrator.StoppedShort cluster outcome error) ∧
    ∀ earlier name properties later,
      outcome.calls = earlier ++ .create name properties :: later →
      cluster.dropCalls (indexNames migrator.indexes.entries) <+: earlier := by
  refine ⟨migrator.recreateAll_succeeds_iff cluster, fun _ => Migrator.recreated_of_ok, ?_,
    fun _ _ _ _ => Migrator.drops_before_creates⟩
  intro error herror
  exact ⟨migrator.recreateAll_calls_prefix cluster, Migrator.stoppedShort_of_error herror⟩

namespace Sample

def piers : Index where
  name := "piers"
  schema := .ofList [
    ("id", .leaf .identifier { name := "id" }),
    ("title", .leaf .text { name := "title" })]
  oneIdentifier := rfl

def pier : Migrator := ⟨.ofList [("p", piers)]⟩

/-- Two indexes of which the second one has no mappings. -/
def shore : Migrator := ⟨.ofList [("p", piers), ("q", places)]⟩

/-- A cluster with an index that is configured and one that is not. -/
def yard : Cluster := { existing := ["places", "logs"] }

/-- A pier that is there is recreated, and the shore stops at the places. -/
theorem pier_recreated_shore_stopped :
    pier.Recreated { existing := ["piers"] } (pier.recreateAll { existing := ["piers"] }) ∧
      shore.StoppedShort yard (shore.recreateAll yard) (.noMapping "Field") :=
  ⟨(recreation_succeeds_exactly_when_it_can pier _).2.1 _ rfl,
    ((recreation_succeeds_exactly_when_it_can shore yard).2.2.1 _ rfl).2⟩

end Sample

/-! ## When nothing is turned down -/

/-- Why an index cannot exist beside those configured before it. -/
inductive Defect (earlier : List (String × Index)) (index : Index) : Error → Prop
  | sameName : index.name ∈ indexNames earlier →
      Defect earlier index (.indexExists index.name)
  | unmapped {e : Error} : index.name ∉ indexNames earlier → index.mappings = .error e →
      Defect earlier index e

/-- Where no configured index is left, those that are refused are defective. -/
theorem Cluster.Refuses.defect {cluster : Cluster} {done : List (String × Index)} {index : Index}
    {e : Error} (h : (cluster.addAll (indexNames done)).Refuses index e)
    (habsent : index.name ∉ cluster.existing) : Defect done index e := by
  cases h with
  | present hpresent => exact .sameName ((Cluster.mem_addAll.mp hpresent).resolve_left habsent)
  | unmapped hother hmappings =>
      exact .unmapped (fun hdone => hother (Cluster.mem_addAll.mpr (.inr hdone))) hmappings

/-- Where all names were dropped and some of them created anew, everything is as before exactly if
these are the ones that were there. -/
theorem Cluster.unchanged_iff {before after : Cluster} {names created : List String}
    (hafter : ∀ name, name ∈ after.existing ↔
      name ∈ before.existing ∧ name ∉ names ∨ name ∈ created)
    (hcreated : ∀ name ∈ created, name ∈ names) :
    (∀ name, name ∈ after.existing ↔ name ∈ before.existing) ↔
      ∀ name ∈ names, name ∈ before.existing ↔ name ∈ created := by
  constructor
  · intro hsame name hname
    rw [← hsame name, hafter]
    simp [hname]
  · intro hnames name
    rw [hafter]
    by_cases hname : name ∈ names
    · rw [hnames name hname]
      simp [hname]
    · have hnot : name ∉ created := fun h => hname (hcreated name h)
      simp [hname, hnot]

theorem Cluster.mem_removeAll_of_free {cluster : Cluster} (hfree : ∀ name, name ∉ cluster.sticky)
    {names : List String} {name : String} :
    name ∈ (cluster.removeAll names).existing ↔ name ∈ cluster.existing ∧ name ∉ names := by
  rw [mem_removeAll]
  exact and_congr_right fun _ => imp_congr_right fun _ => iff_false_intro (hfree name)

/-- A recreation that fails although nothing is turned down fails with the first index that is
defective, when everything has been dropped and the indexes before that one have been created. -/
theorem Migrator.stops_at_first_defect {migrator : Migrator} {cluster : Cluster} {error : Error}
    (hcalm : ∀ call, cluster.fault? call = none) (hfree : ∀ name, name ∉ cluster.sticky)
    (herror : (migrator.recreateAll cluster).result = .error error) :
    ∃ done e rest, migrator.indexes.entries = done ++ e :: rest ∧ Creatable done ∧
      Defect done e.2 error ∧ ∀ name, name ∈ (migrator.recreateAll cluster).state.existing ↔
        name ∈ cluster.existing ∧ name ∉ indexNames migrator.indexes.entries ∨
          name ∈ indexNames done := by
  rcases migrator.recreateAll_follows cluster with
    ⟨-, hfollows⟩ | ⟨done, e, rest, error', hsplit, htakes, hrefuses, hfollows⟩
  · rw [hfollows.eq_of_calm hcalm] at herror
    cases herror
  · rw [hfollows.eq_of_calm hcalm] at herror ⊢
    obtain rfl := Except.error.inj herror
    have he : e.2.name ∈ indexNames migrator.indexes.entries :=
      List.mem_map.mpr ⟨e, by simp [hsplit], rfl⟩
    refine ⟨done, e, rest, hsplit, htakes.toCreatable, ?_, fun name => ?_⟩
    · exact hrefuses.defect fun h => ((Cluster.mem_removeAll_of_free hfree).mp h).2 he
    · rw [Cluster.mem_addAll, Cluster.mem_removeAll_of_free hfree]

/-- Where no call is turned down and every index can be deleted, a recreation succeeds exactly if
the configured indexes can exist side by side. If they cannot, the first one that is defective is
met when every configured index has been deleted, and those before it have been created. -/
theorem calm_recreation_leaves (migrator : Migrator) {cluster : Cluster}
    (hcalm : ∀ call, cluster.fault? call = none) (hfree : ∀ name, name ∉ cluster.sticky) :
    let outcome := migrator.recreateAll cluster
    ((∃ results, outcome.result = .ok results) ↔ Creatable migrator.indexes.entries) ∧
    ∀ error, outcome.result = .error error → ∃ done e rest,
      migrator.indexes.entries = done ++ e :: rest ∧ Creatable done ∧ Defect done e.2 error ∧
      (∀ name, name ∈ outcome.state.existing ↔
        name ∈ cluster.existing ∧ name ∉ indexNames migrator.indexes.entries ∨
          name ∈ indexNames done) ∧
      ((∀ name, name ∈ outcome.state.existing ↔ name ∈ cluster.existing) ↔
        ∀ name ∈ indexNames migrator.indexes.entries,
          name ∈ cluster.existing ↔ name ∈ indexNames done) := by
  intro outcome
  constructor
  · rw [migrator.recreateAll_succeeds_iff cluster]
    constructor
    · exact fun h => h.1.toCreatable
    · exact fun h => ⟨⟨h, fun name _ _ => hfree name⟩, fun call _ => hcalm call⟩
  · intro error herror
    obtain ⟨done, e, rest, hsplit, hcreatable, hdefect, hstate⟩ :=
      Migrator.stops_at_first_defect hcalm hfree herror
    refine ⟨done, e, rest, hsplit, hcreatable, hdefect, hstate,
      Cluster.unchanged_iff hstate fun name h => ?_⟩
    rw [hsplit, indexNames, List.map_append]
    exact List.mem_append_left _ h

namespace Sample

/-- The recreation of the shore takes the places away and leaves piers. -/
theorem shore_is_left_without_places :
    (∀ call, yard.fault? call = none) ∧ (∀ name, name ∉ yard.sticky) ∧
      (shore.recreateAll yard).result = .error (.noMapping "Field") ∧
      ∃ done e rest, shore.indexes.entries = done ++ e :: rest ∧ Creatable done ∧
        Defect done e.2 (.noMapping "Field") ∧
        (∀ name, name ∈ (shore.recreateAll yard).state.existing ↔
          name ∈ yard.existing ∧ name ∉ indexNames shore.indexes.entries ∨
            name ∈ indexNames done) ∧
        ((∀ name, name ∈ (shore.recreateAll yard).state.existing ↔ name ∈ yard.existing) ↔
          ∀ name ∈ indexNames shore.indexes.entries,
            name ∈ yard.existing ↔ name ∈ indexNames done) := by
  have hcalm : ∀ call, yard.fault? call = none := fun _ => rfl
  have hfree : ∀ name, name ∉ yard.sticky := fun _ => List.not_mem_nil
  exact ⟨hcalm, hfree, rfl, (calm_recreation_leaves shore hcalm hfree).2 _ rfl⟩

/-- No call is turned down, no index is kept from being deleted, and still the recreation of the
shore neither succeeds nor leaves the indexes that are there as they were. -/
theorem shore_recreation_destroys :
    (∀ call, yard.fault? call = none) ∧ (∀ name, name ∉ yard.sticky) ∧
      ¬ ((∃ results, (shore.recreateAll yard).result = .ok results) ∨
        ∀ name, name ∈ (shore.recreateAll yard).state.existing ↔ name ∈ yard.existing) := by
  have hresult : (shore.recreateAll yard).result = .error (.noMapping "Field") := rfl
  have hstate : (shore.recreateAll yard).state.existing = ["logs", "piers"] := rfl
  refine ⟨fun _ => rfl, fun _ => List.not_mem_nil, ?_⟩
  rintro (⟨results, hresults⟩ | hsame)
  · rw [hresult] at hresults
    cases hresults
  · have hplaces := (hsame "places").mpr (by decide)
    rw [hstate] at hplaces
    exact absurd hplaces (by decide)

end Sample

end DocSearch
