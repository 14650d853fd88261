import DocSearch.Outcome
import Mathlib.Data.List.Forall2

/-!
# Actions one after the other

How two actions and a list of actions run: calls add up, the state is handed on, and the first
error ends everything.
-/

namespace DocSearch.Action

variable {κ σ α β : Type}

section
variable {act : Action κ σ α} {next : α → Action κ σ β} {calls : List κ} {s s' : σ}

theorem bind_of_ok {a : α} (h : act s = ⟨.ok a, calls, s'⟩) :
    (act >>= next) s = ⟨(next a s').result, calls ++ (next a s').calls, (next a s').state⟩ := by
  change Action.bind act next s = _
  rw [Action.bind, h]

theorem bind_of_error {e : Error} (h : act s = ⟨.error e, calls, s'⟩) :
    (act >>= next) s = ⟨.error e, calls, s'⟩ := by
  change Action.bind act next s = _
  rw [Action.bind, h]

theorem bind_of_result_ok {a : α} (h : (act s).result = .ok a) :
    (act >>= next) s = ⟨(next a (act s).state).result,
      (act s).calls ++ (next a (act s).state).calls, (next a (act s).state).state⟩ :=
  bind_of_ok (by rw [← h])

theorem bind_of_result_error {e : Error} (h : (act s).result = .error e) :
    (act >>= next) s = ⟨.error e, (act s).calls, (act s).state⟩ :=
  bind_of_error (by rw [← h])

/-! What is only worked on further. -/

theorem map_of_ok {a : α} (h : act s = ⟨.ok a, calls, s'⟩) (f : α → β) :
    (do return f (← act)) s = ⟨.ok (f a), calls, s'⟩ := by
  rw [bind_of_ok h]
  change (⟨.ok (f a), calls ++ [], s'⟩ : Outcome κ σ β) = _
  rw [List.append_nil]

theorem map_of_result_error {e : Error} (h : (act s).result = .error e) (f : α → β) :
    (do return f (← act)) s = ⟨.error e, (act s).calls, (act s).state⟩ :=
  bind_of_result_error h

end

theorem result_bind_eq_ok {act : Action κ σ α} {next : α → Action κ σ β} {s : σ} {b : β} :
    ((act >>= next) s).result = .ok b ↔
      ∃ a, (act s).result = .ok a ∧ (next a (act s).state).result = .ok b := by
  cases hact : (act s).result with
  | error e => simp [bind_of_result_error hact]
  | ok a => simp [bind_of_result_ok hact]

theorem pure_apply (a : α) (s : σ) : (pure a : Action κ σ α) s = ⟨.ok a, [], s⟩ := rfl

theorem ofExcept_ok_bind (a : α) (next : α → Action κ σ β) :
    ((ofExcept (.ok a) : Action κ σ α) >>= next) = next a := rfl

theorem ofExcept_error_bind (e : Error) (next : α → Action κ σ β) :
    ((ofExcept (.error e) : Action κ σ α) >>= next) = ofExcept (.error e) := rfl

theorem each_cons (f : α → Action κ σ β) (x : α) (xs : List α) :
    each f (x :: xs) = (do
      let b ← f x
      let others ← each f xs
      return b :: others) := rfl

/-- What holds of the result of every action holds of the results of all of them. -/
theorem forall_mem_of_each {f : α → Action κ σ β} {good : β → Prop}
    (h : ∀ x s b, (f x s).result = .ok b → good b) {xs : List α} {s : σ} {bs : List β}
    (hall : (each f xs s).result = .ok bs) : ∀ b ∈ bs, good b := by
  induction xs generalizing s bs with
  | nil =>
      obtain rfl := Except.ok.inj hall
      exact List.forall_mem_nil good
  | cons x xs ih =>
      obtain ⟨b, hfirst, hall⟩ := result_bind_eq_ok.mp hall
      obtain ⟨others, hothers, hall⟩ := result_bind_eq_ok.mp hall
      obtain rfl := Except.ok.inj hall
      exact List.forall_mem_cons.mpr ⟨h x s b hfirst, ih hothers⟩

/-- An action that ends well with one call, from `fine` states on. -/
def EndsWith (act : Action κ σ β) (fine : σ → Prop) (call : κ) : Prop :=
  ∀ s, fine s → ∃ b s', act s = ⟨.ok b, [call], s'⟩ ∧ fine s'

/-- Actions that each end well with one call make these calls in order. -/
theorem each_of_endsWith {f : α → Action κ σ β} {fine : σ → Prop} {xs : List α} {calls : List κ}
    (h : List.Forall₂ (fun x call => (f x).EndsWith fine call) xs calls) {start : σ}
    (hstart : fine start) : ∃ bs s', each f xs start = ⟨.ok bs, calls, s'⟩ ∧ fine s' := by
  induction h generalizing start with
  | nil => exact ⟨[], start, rfl, hstart⟩
  | @cons x call xs calls hfirst _ ih =>
      obtain ⟨b, s, hact, hs⟩ := hfirst start hstart
      obtain ⟨bs, s', hrest, hs'⟩ := ih hs
      refine ⟨b :: bs, s', ?_, hs'⟩
      rw [each_cons, bind_of_ok hact, bind_of_ok hrest, pure_apply, List.append_nil,
        List.singleton_append]

/-- Actions that all fail before they call anything call nothing. -/
theorem each_of_error {f : α → Action κ σ β} {e : Error} (h : ∀ x s, f x s = ⟨.error e, [], s⟩)
    (xs : List α) (s : σ) : ∃ result, each f xs s = ⟨result, [], s⟩ := by
  cases xs with
  | nil => exact ⟨.ok [], rfl⟩
  | cons x xs => exact ⟨.error e, by rw [each_cons, bind_of_error (h x s)]⟩

end DocSearch.Action
