import DocSearch.Migration.Migrator
import DocSearch.Proofs.Actions
import DocSearch.Proofs.Lookup

/-!
# Plans for a cluster

What single calls leave of a cluster, and computations that follow a plan. Unless one of its calls
is turned down, such a computation makes exactly the planned calls and ends as planned; otherwise it
ends with the first planned call that is turned down. No call changes which calls are turned down,
so plans are made on the cluster alone and can be put one after the other.
-/

namespace DocSearch

/-! ## What is there after a call -/

namespace Cluster

variable (cluster : Cluster) (name : String)

@[simp] theorem fault?_add (call : AdminCall) :
    (cluster.add name).fault? call = cluster.fault? call := by
  rw [add]
  split <;> rfl

@[simp] theorem fault?_remove (call : AdminCall) :
    (cluster.remove name).fault? call = cluster.fault? call := by
  rw [remove]
  split <;> rfl

@[simp] theorem sticky_remove : (cluster.remove name).sticky = cluster.sticky := by
  rw [remove]
  split <;> rfl

theorem mem_add {other : String} :
    other ∈ (cluster.add name).existing ↔ other ∈ cluster.existing ∨ other = name := by
  rw [add]
  split
  · exact ⟨.inl, fun h => h.elim id fun heq => heq ▸ ‹_›⟩
  · simp

theorem mem_remove {other : String} : other ∈ (cluster.remove name).existing ↔
    other ∈ cluster.existing ∧ (other = name → other ∈ cluster.sticky) := by
  rw [remove]
  split
  · exact ⟨fun h => ⟨h, fun heq => heq ▸ ‹_›⟩, And.left⟩
  · simp only [List.mem_filter, decide_eq_true_eq]
    refine and_congr_right fun _ => ⟨fun hne heq => absurd heq hne, ?_⟩
    rintro h rfl
    exact absurd (h rfl) ‹_›

theorem remove_of_notMem {cluster : Cluster} {name : String} (h : name ∉ cluster.existing) :
    cluster.remove name = cluster := by
  rw [remove]
  split
  · rfl
  · rw [List.filter_eq_self.mpr fun other hother => ?_]
    exact decide_eq_true fun heq => h (heq ▸ hother)

/-- Several indexes created one after the other. -/
def addAll (cluster : Cluster) (names : List String) : Cluster := names.foldl add cluster

/-- Several indexes deleted one after the other. -/
def removeAll (cluster : Cluster) (names : List String) : Cluster := names.foldl remove cluster

theorem mem_addAll {cluster : Cluster} {names : List String} {other : String} :
    other ∈ (cluster.addAll names).existing ↔ other ∈ cluster.existing ∨ other ∈ names := by
  induction names generalizing cluster with
  | nil => simp [addAll]
  | cons name rest ih =>
      rw [addAll, List.foldl_cons, ← addAll, ih, mem_add, List.mem_cons, or_assoc]

theorem mem_removeAll {cluster : Cluster} {names : List String} {other : String} :
    other ∈ (cluster.removeAll names).existing ↔
      other ∈ cluster.existing ∧ (other ∈ names → other ∈ cluster.sticky) := by
  induction names generalizing cluster with
  | nil => simp [removeAll]
  | cons name rest ih =>
      rw [removeAll, List.foldl_cons, ← removeAll, ih, mem_remove, sticky_remove, and_assoc,
        List.mem_cons, or_imp]

end Cluster

/-! ## Planned calls -/

variable {α β : Type}

/-- A computation that ended with a planned call that was turned down, and passed the fault on. -/
def Outcome.TurnedDown (outcome : Outcome AdminCall Cluster α) (cluster : Cluster)
    (plan : List AdminCall) : Prop :=
  ∃ earlier call fault, earlier ++ [call] <+: plan ∧ (∀ c ∈ earlier, cluster.fault? c = none) ∧
    cluster.fault? call = some fault ∧ outcome.result = .error (.fault fault) ∧
    outcome.calls = earlier ++ [call]

theorem Outcome.TurnedDown.bind {act : Admin α} {cluster : Cluster} {plan whole : List AdminCall}
    (h : (act cluster).TurnedDown cluster plan) (hwhole : plan <+: whole) (next : α → Admin β) :
    ((act >>= next) cluster).TurnedDown cluster whole := by
  obtain ⟨earlier, call, fault, hplan, hearlier, hcall, hresult, hcalls⟩ := h
  refine ⟨earlier, call, fault, hplan.trans hwhole, hearlier, hcall, ?_⟩
  rw [Action.bind_of_result_error hresult]
  exact ⟨rfl, hcalls⟩

/-- From a cluster on, a computation makes the planned calls and ends with a result and a cluster,
unless a call is turned down. -/
structure Admin.Follows (act : Admin α) (cluster : Cluster) (plan : List AdminCall)
    (result : Except Error α) (final : Cluster) : Prop where
  faults : ∀ call, final.fault? call = cluster.fault? call
  outcome : (act cluster).TurnedDown cluster plan ∨
    (∀ call ∈ plan, cluster.fault? call = none) ∧ act cluster = ⟨result, plan, final⟩

namespace Admin.Follows

variable {act : Admin α} {cluster middle final : Cluster} {plan further : List AdminCall}

theorem ofExcept (result : Except Error α) (cluster : Cluster) :
    Follows (Action.ofExcept result) cluster [] result cluster :=
  ⟨fun _ => rfl, .inr ⟨by simp, rfl⟩⟩

theorem pure (a : α) (cluster : Cluster) : Follows (pure a) cluster [] (.ok a) cluster :=
  ofExcept (.ok a) cluster

theorem call (call : AdminCall) (answer : Cluster → α) {change : Cluster → Cluster}
    {cluster : Cluster} (h : ∀ c, (change cluster).fault? c = cluster.fault? c) :
    Follows (Admin.call call answer change) cluster [call] (.ok (answer cluster))
      (change cluster) where
  faults := h
  outcome := by
    cases hcall : cluster.fault? call with
    | some fault =>
        refine .inl ⟨[], call, fault, List.prefix_rfl, by simp, hcall, ?_⟩
        rw [Admin.call, hcall]
        exact ⟨rfl, rfl⟩
    | none =>
        refine .inr ⟨by simpa using hcall, ?_⟩
        rw [Admin.call, hcall]

/-- A failure ends everything, whatever was to come. -/
theorem bind_error {e : Error} (h : act.Follows cluster plan (.error e) final)
    (next : α → Admin β) : (act >>= next).Follows cluster plan (.error e) final where
  faults := h.faults
  outcome := by
    rcases h.outcome with hdown | ⟨hall, hact⟩
    · exact .inl (hdown.bind List.prefix_rfl next)
    · exact .inr ⟨hall, Action.bind_of_error hact⟩

theorem bind {a : α} {next : α → Admin β} {result : Except Error β}
    (h : act.Follows cluster plan (.ok a) middle)
    (hnext : (next a).Follows middle further result final) :
    (act >>= next).Follows cluster (plan ++ further) result final where
  faults c := (hnext.faults c).trans (h.faults c)
  outcome := by
    rcases h.outcome with hdown | ⟨hall, hact⟩
    · exact .inl (hdown.bind (List.prefix_append _ _) next)
    · have hboth {calls : List AdminCall} (hcalls : ∀ c ∈ calls, middle.fault? c = none) :
          ∀ c ∈ plan ++ calls, cluster.fault? c = none := fun c hc =>
        (List.mem_append.mp hc).elim (hall c) fun hc => (h.faults c).symm.trans (hcalls c hc)
      rw [Action.bind_of_ok hact]
      rcases hnext.outcome with
        ⟨earlier, call, fault, hplan, hearlier, hcall, hresult, hcalls⟩ | ⟨hrest, hrun⟩
      · refine .inl ⟨plan ++ earlier, call, fault, ?_, hboth hearlier, ?_, hresult, ?_⟩
        · rw [List.append_assoc]
          exact (List.prefix_append_right_inj plan).mpr hplan
        · exact (h.faults call).symm.trans hcall
        · rw [hcalls, List.append_assoc]
      · exact .inr ⟨hboth hrest, by rw [hrun]⟩

/-! ### One call at a time -/

section
variable {next : α → Admin β} {result : Except Error β}

theorem call_bind {c : AdminCall} {answer : Cluster → α} {change : Cluster → Cluster}
    (hfaults : ∀ call, (change cluster).fault? call = cluster.fault? call)
    (h : (next (answer cluster)).Follows (change cluster) plan result final) :
    (Admin.call c answer change >>= next).Follows cluster (c :: plan) result final :=
  (call c answer hfaults).bind h

theorem exists?_of_mem {name : String} {yes no : Admin β} (hname : name ∈ cluster.existing)
    (h : yes.Follows cluster plan result final) :
    Follows (do if ← Admin.exists? name then yes else no) cluster (.exists name :: plan) result
      final := by
  refine call_bind (fun _ => rfl) ?_
  rw [decide_eq_true hname, if_pos rfl]
  exact h

theorem exists?_of_notMem {name : String} {yes no : Admin β} (hname : name ∉ cluster.existing)
    (h : no.Follows cluster plan result final) :
    Follows (do if ← Admin.exists? name then yes else no) cluster (.exists name :: plan) result
      final := by
  refine call_bind (fun _ => rfl) ?_
  rw [decide_eq_false hname, if_neg Bool.false_ne_true]
  exact h

theorem create_bind {name : String} {properties : List (String × Mapping)} {next : Unit → Admin β}
    (h : (next ()).Follows (cluster.add name) plan result final) :
    (Admin.create name properties >>= next).Follows cluster (.create name properties :: plan)
      result final :=
  call_bind (cluster.fault?_add name) h

theorem delete_bind {name : String} {next : Unit → Admin β}
    (h : (next ()).Follows (cluster.remove name) plan result final) :
    (Admin.delete name >>= next).Follows cluster (.delete name :: plan) result final :=
  call_bind (cluster.fault?_remove name) h

end

/-- What is only worked on further needs no call. -/
theorem map {result : Except Error α} (h : act.Follows cluster plan result final) (f : α → β) :
    Follows (do return f (← act)) cluster plan (result.map f) final := by
  cases result with
  | error e => exact h.bind_error _
  | ok a =>
      rw [← List.append_nil plan]
      exact h.bind (pure (f a) final)

/-! ### One key at a time -/

section
variable {γ : Type} {key : γ → String} {perform : γ → Admin α} {xs : List γ}

theorem each_nil (f : γ → Admin α) (cluster : Cluster) :
    Follows (Action.each f []) cluster [] (.ok []) cluster :=
  pure [] cluster

theorem each_cons (x : γ) {a : α} {results : Except Error (List (String × α))}
    (h : (perform x).Follows cluster plan (.ok a) middle)
    (hrest : Follows (Action.each (fun x => do return (key x, ← perform x)) xs) middle further
      results final) :
    Follows (Action.each (fun x => do return (key x, ← perform x)) (x :: xs)) cluster
      (plan ++ further) (results.map ((key x, a) :: ·)) final := by
  rw [Action.each_cons]
  exact (h.map (key x, ·)).bind (hrest.map ((key x, a) :: ·))

theorem each_cons_error (x : γ) {e : Error} (h : (perform x).Follows cluster plan (.error e) final) :
    Follows (Action.each (fun x => do return (key x, ← perform x)) (x :: xs)) cluster plan
      (.error e) final := by
  rw [Action.each_cons]
  exact (h.map (key x, ·)).bind_error _

end

/-! ### How it ends -/

/-- In a cluster that turns nothing down everything goes as planned. -/
theorem eq_of_calm {result : Except Error α} (h : act.Follows cluster plan result final)
    (hcalm : ∀ call, cluster.fault? call = none) : act cluster = ⟨result, plan, final⟩ := by
  rcases h.outcome with ⟨_, call, fault, -, -, hcall, -⟩ | ⟨-, hact⟩
  · rw [hcalm call] at hcall
    cases hcall
  · exact hact

theorem calls_prefix {result : Except Error α} (h : act.Follows cluster plan result final) :
    (act cluster).calls <+: plan := by
  rcases h.outcome with ⟨_, _, _, hplan, -, -, -, hcalls⟩ | ⟨-, hact⟩
  · rw [hcalls]
    exact hplan
  · have hcalls : (act cluster).calls = plan := by rw [hact]
    exact hcalls ▸ List.prefix_rfl

/-- Only a computation of which no call is turned down can end well. -/
theorem eq_of_ok {result : Except Error α} (h : act.Follows cluster plan result final) {a : α}
    (ha : (act cluster).result = .ok a) :
    (∀ call ∈ plan, cluster.fault? call = none) ∧ act cluster = ⟨result, plan, final⟩ := by
  rcases h.outcome with ⟨_, _, _, -, -, -, hresult, -⟩ | hact
  · rw [ha] at hresult
    cases hresult
  · exact hact

/-- A computation of which no call is turned down goes as planned. -/
theorem eq_of_calls {result : Except Error α} (h : act.Follows cluster plan result final)
    (hcalls : ∀ call ∈ (act cluster).calls, cluster.fault? call = none) :
    act cluster = ⟨result, plan, final⟩ := by
  rcases h.outcome with ⟨earlier, call, fault, -, -, hcall, -, hmade⟩ | ⟨-, hact⟩
  · rw [hcalls call (by rw [hmade]; simp)] at hcall
    cases hcall
  · exact hact

end Admin.Follows

end DocSearch
