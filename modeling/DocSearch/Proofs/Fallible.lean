import Mathlib.Data.List.Forall2

/-!
# Computations that may fail

When a chain of steps ends well and when it ends in an error, for two steps one after the other and
for the same step on every item of a list. A list of steps fails with the error of the first item
that fails; nothing is said about the items behind it.
-/

namespace DocSearch.Fallible

variable {ε α β : Type}

@[simp] theorem ok_bind (a : α) (f : α → Except ε β) : (Except.ok a >>= f) = f a := rfl

@[simp] theorem error_bind (e : ε) (f : α → Except ε β) :
    ((Except.error e : Except ε α) >>= f) = .error e := rfl

@[simp] theorem pure_eq_ok (a : α) : (pure a : Except ε α) = .ok a := rfl

@[simp] theorem throw_eq_error (e : ε) : (throw e : Except ε α) = .error e := rfl

theorem bind_eq_ok {x : Except ε α} {f : α → Except ε β} {b : β} :
    (x >>= f) = .ok b ↔ ∃ a, x = .ok a ∧ f a = .ok b := by
  cases x <;> simp

theorem bind_eq_error {x : Except ε α} {f : α → Except ε β} {e : ε} :
    (x >>= f) = .error e ↔ x = .error e ∨ ∃ a, x = .ok a ∧ f a = .error e := by
  cases x <;> simp

theorem mapM_eq_ok {f : α → Except ε β} {xs : List α} {ys : List β} :
    xs.mapM f = .ok ys ↔ List.Forall₂ (fun x y => f x = .ok y) xs ys := by
  induction xs generalizing ys with
  | nil =>
      rw [List.mapM_nil, pure_eq_ok, List.forall₂_nil_left_iff, Except.ok.injEq]
      exact eq_comm
  | cons x xs ih =>
      simp only [List.mapM_cons, bind_eq_ok, pure_eq_ok, ih, Except.ok.injEq,
        List.forall₂_cons_left_iff]
      constructor
      · intro hsteps
        rcases hsteps with ⟨y, hy, zs, hzs, rfl⟩
        exact ⟨y, zs, hy, hzs, rfl⟩
      · intro hlist
        rcases hlist with ⟨y, zs, hy, hzs, rfl⟩
        exact ⟨y, hy, zs, hzs, rfl⟩

theorem mapM_eq_error {f : α → Except ε β} {xs : List α} {e : ε} :
    xs.mapM f = .error e ↔ ∃ before x after, xs = before ++ x :: after ∧
      (∀ b ∈ before, ∃ y, f b = .ok y) ∧ f x = .error e := by
  induction xs with
  | nil => simp
  | cons x xs ih =>
      simp only [List.mapM_cons, bind_eq_error, pure_eq_ok, ih]
      constructor
      · intro hfails
        rcases hfails with hx | ⟨y, hy, ⟨before, z, after, rfl, hb, hz⟩ | ⟨ys, -, h⟩⟩
        · exact ⟨[], x, xs, rfl, by simp, hx⟩
        · refine ⟨x :: before, z, after, rfl, ?_, hz⟩
          intro b hbm
          rcases List.mem_cons.mp hbm with rfl | hbm
          · exact ⟨y, hy⟩
          · exact hb b hbm
        · cases h
      · intro hsplit
        rcases hsplit with ⟨before, z, after, h, hb, hz⟩
        cases before with
        | nil =>
            obtain ⟨rfl, rfl⟩ := List.cons.inj h
            exact Or.inl hz
        | cons b before =>
            obtain ⟨rfl, rfl⟩ := List.cons.inj h
            obtain ⟨y, hy⟩ := hb x List.mem_cons_self
            refine Or.inr ⟨y, hy, Or.inl ⟨before, z, after, rfl, ?_, hz⟩⟩
            exact fun c hc => hb c (List.mem_cons_of_mem _ hc)

/-- Where the step ends well on each item it does so on all of them. -/
theorem exists_mapM_eq_ok {f : α → Except ε β} {xs : List α} (h : ∀ x ∈ xs, ∃ y, f x = .ok y) :
    ∃ ys, xs.mapM f = .ok ys := by
  cases hall : xs.mapM f with
  | ok ys => exact ⟨ys, rfl⟩
  | error e =>
      obtain ⟨before, x, after, rfl, -, hx⟩ := mapM_eq_error.mp hall
      obtain ⟨y, hy⟩ := h x (by simp)
      rw [hx] at hy
      cases hy

/-! ## The error alone -/

/-- The error of a computation that failed. -/
def error? : Except ε α → Option ε
  | .ok _ => none
  | .error e => some e

theorem error?_eq_some_iff {x : Except ε α} {e : ε} : error? x = some e ↔ x = .error e := by
  cases x <;> simp [error?]

theorem error?_bind (x : Except ε α) (f : α → Except ε β) :
    error? (x >>= f) = (match x with
      | .ok a => error? (f a)
      | .error e => some e) := by
  cases x <;> rfl

/-- What is only worked on further fails as it failed before. -/
theorem error?_bind_pure (x : Except ε α) (f : α → β) :
    error? (do return f (← x)) = error? x := by
  cases x <;> rfl

end DocSearch.Fallible
