import DocSearch.Source
import Mathlib.Data.ENat.Lattice

/-!
# What a source still supplies

A pull is described without its recursion: it takes the items that come next and leaves the source
behind them. Chunk number `c` is what the pull after `c` pulls of the same size takes, whether or
not those pulls are ever made. Counts of what has been drawn are exact; a stream has infinitely many
items to come, so a minimum with their number is no bound on it.
-/

namespace DocSearch.Source

variable {α : Type}

/-- How many items are still to come. -/
def remaining (source : Source α) : ℕ∞ :=
  match source.supply with
  | .list items => items.length
  | .stream _ _ => ⊤

/-- The next `n` items, or all that are still to come. -/
def upcoming (source : Source α) (n : Nat) : List α :=
  match source.supply with
  | .list items => items.take n
  | .stream item next => (List.range n).map fun k => item (next + k)

/-- The source behind the next `n` items, or behind all that are still to come. -/
def skip (source : Source α) (n : Nat) : Source α :=
  match source.supply with
  | .list items => ⟨.list (items.drop n), source.drawn + min items.length n⟩
  | .stream item next => ⟨.stream item (next + n), source.drawn + n⟩

/-- Chunk number `c` of those that pulls of `size` items take. -/
def chunk (source : Source α) (size c : Nat) : List α := (source.skip (c * size)).upcoming size

theorem pull_eq (source : Source α) (n : Nat) :
    source.pull n = (source.upcoming n, source.skip n) := by
  induction n generalizing source with
  | zero =>
      obtain ⟨supply, drawn⟩ := source
      cases supply <;> simp [pull, upcoming, skip]
  | succ n ih =>
      obtain ⟨supply, drawn⟩ := source
      cases supply with
      | list items =>
          cases items with
          | nil => simp [pull, next?, upcoming, skip]
          | cons a rest =>
              simp only [pull, next?, ih, upcoming, skip, List.take_succ_cons, List.drop_succ_cons,
                List.length_cons, Prod.mk.injEq, true_and]
              congr 1
              omega
      | stream item next =>
          have hitems : (List.range n).map (fun k => item (next + 1 + k)) =
              ((List.range n).map Nat.succ).map fun k => item (next + k) := by
            rw [List.map_map]
            refine List.map_congr_left fun k _ => ?_
            exact congrArg item (by simp only [Nat.succ_eq_add_one]; omega)
          simp only [pull, next?, ih, upcoming, skip, List.range_succ_eq_map, List.map_cons,
            hitems, Nat.add_zero, Prod.mk.injEq, true_and]
          congr 1
          · congr 1
            omega
          · omega

@[simp] theorem skip_zero (source : Source α) : source.skip 0 = source := by
  obtain ⟨supply, drawn⟩ := source
  cases supply <;> simp [skip]

theorem skip_skip (source : Source α) (m n : Nat) :
    (source.skip m).skip n = source.skip (m + n) := by
  obtain ⟨supply, drawn⟩ := source
  cases supply with
  | list items =>
      simp only [skip, List.drop_drop, List.length_drop, Source.mk.injEq, true_and]
      omega
  | stream item next => simp only [skip, Nat.add_assoc]

theorem skip_chunk (source : Source α) (size c : Nat) :
    (source.skip (c * size)).skip size = source.skip ((c + 1) * size) := by
  rw [skip_skip, Nat.succ_mul]

theorem drawn_skip (source : Source α) (n : Nat) :
    ((source.skip n).drawn : ℕ∞) = source.drawn + min source.remaining n := by
  obtain ⟨supply, drawn⟩ := source
  cases supply with
  | list items =>
      simp only [skip, remaining]
      rw [Nat.cast_add, Nat.mono_cast.map_min]
  | stream item next => simp only [skip, remaining, Nat.cast_add, top_inf_eq]

theorem chunk_eq_nil_iff (source : Source α) {size : Nat} (hsize : 0 < size) (c : Nat) :
    source.chunk size c = [] ↔ source.remaining ≤ (c * size : Nat) := by
  obtain ⟨supply, drawn⟩ := source
  cases supply with
  | list items =>
      simp only [chunk, skip, upcoming, remaining, List.take_eq_nil_iff, List.drop_eq_nil_iff,
        Nat.cast_le]
      omega
  | stream item next =>
      simp only [chunk, skip, upcoming, remaining, List.map_eq_nil_iff, List.range_eq_nil,
        top_le_iff, ENat.natCast_ne_top, iff_false]
      omega

/-- Behind an empty chunk everything has been drawn. -/
theorem drawn_skip_of_chunk_eq_nil (source : Source α) {size : Nat} (hsize : 0 < size) {c : Nat}
    (h : source.chunk size c = []) :
    ((source.skip ((c + 1) * size)).drawn : ℕ∞) = source.drawn + source.remaining := by
  have hle : source.remaining ≤ (c * size : Nat) := (source.chunk_eq_nil_iff hsize c).mp h
  have hmono : ((c * size : Nat) : ℕ∞) ≤ ((c + 1) * size : Nat) :=
    Nat.cast_le.mpr (Nat.mul_le_mul_right size (Nat.le_succ c))
  rw [drawn_skip, min_eq_left (hle.trans hmono)]

/-- The pulls that a run is given reach every chunk of a list, and as many of a stream as it has
patience for. -/
theorem lt_pullsToEnd (source : Source α) {size : Nat} (hsize : 0 < size) {patience c : Nat}
    (hbefore : ∀ i < c, source.chunk size i ≠ [])
    (hpatience : source.remaining = ⊤ → c < patience) :
    c < source.pullsToEnd.getD patience := by
  obtain ⟨supply, drawn⟩ := source
  cases supply with
  | list items =>
      simp only [pullsToEnd, Option.getD_some]
      cases c with
      | zero => omega
      | succ c =>
          have hc := hbefore c (Nat.lt_succ_self c)
          rw [Ne, chunk_eq_nil_iff _ hsize, remaining, Nat.cast_le, not_le] at hc
          have hle : c ≤ c * size := Nat.le_mul_of_pos_right c hsize
          omega
  | stream item next => exact hpatience rfl

/-- A source that comes to an empty chunk has an end, so patience is no matter. -/
theorem lt_pullsToEnd_of_chunk_eq_nil (source : Source α) {size : Nat} (hsize : 0 < size)
    {patience c : Nat} (hbefore : ∀ i < c, source.chunk size i ≠ [])
    (hnil : source.chunk size c = []) : c < source.pullsToEnd.getD patience := by
  refine source.lt_pullsToEnd hsize hbefore fun htop => ?_
  have hle := (source.chunk_eq_nil_iff hsize c).mp hnil
  exact absurd htop (ne_top_of_le_ne_top (ENat.natCast_ne_top _) hle)

end DocSearch.Source
