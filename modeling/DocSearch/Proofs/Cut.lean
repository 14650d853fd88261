import DocSearch.Proofs.Chunks
import Mathlib.Algebra.Order.Floor.Div

/-!
# Lists cut into chunks

What it means that a list is cut into chunks of a size, and that the chunks which pulls take from a
list are such a cut. The number of chunks is the length of the list divided by the size, rounded up;
it is no part of the meaning but follows from it.
-/

namespace DocSearch

variable {α β : Type}

/-- The chunks make up the list in order. None of them is empty or too long, and only the last one
may be shorter than the others. -/
structure CutInto (size : Nat) (items : List α) (chunks : List (List α)) : Prop where
  flatten : chunks.flatten = items
  length_pos : ∀ chunk ∈ chunks, 0 < chunk.length
  length_le : ∀ chunk ∈ chunks, chunk.length ≤ size
  full : ∀ chunk ∈ chunks.dropLast, chunk.length = size

/-- There are as many chunks as are needed. -/
theorem CutInto.length_eq {size : Nat} (hsize : 0 < size) {items : List α}
    {chunks : List (List α)} (h : CutInto size items chunks) :
    chunks.length = items.length ⌈/⌉ size := by
  induction chunks generalizing items with
  | nil =>
      have hitems : items = [] := h.flatten.symm
      rw [hitems, List.length_nil, List.length_nil, zero_ceilDiv]
  | cons chunk rest ih =>
      have hlength : items.length = chunk.length + rest.flatten.length := by
        rw [← h.flatten, List.flatten_cons, List.length_append]
      have hpos : 0 < chunk.length := h.length_pos chunk List.mem_cons_self
      have hle : chunk.length ≤ size := h.length_le chunk List.mem_cons_self
      rw [List.length_cons, hlength, Nat.ceilDiv_eq_add_pred_div]
      cases rest with
      | nil =>
          have hone : chunk.length + 0 + size - 1 = (chunk.length - 1) + size := by omega
          have hless : (chunk.length - 1) / size = 0 := Nat.div_eq_of_lt (by omega)
          simp only [List.flatten_nil, List.length_nil]
          rw [hone, Nat.add_div_right _ hsize, hless]
      | cons next more =>
          have hfull : chunk.length = size := h.full chunk (by simp)
          have hrest : CutInto size (next :: more).flatten (next :: more) := by
            refine ⟨rfl, ?_, ?_, ?_⟩
            · exact fun c hc => h.length_pos c (List.mem_cons_of_mem _ hc)
            · exact fun c hc => h.length_le c (List.mem_cons_of_mem _ hc)
            · exact fun c hc => h.full c (List.mem_cons_of_mem _ hc)
          have hsum : chunk.length + (next :: more).flatten.length + size - 1 =
              ((next :: more).flatten.length + size - 1) + size := by omega
          rw [ih hrest, Nat.ceilDiv_eq_add_pred_div, hsum, Nat.add_div_right _ hsize]

/-! ## Sizes -/

theorem chunkSize_eq_ok {size : Nat} (hpos : 0 < size) (hlimit : (size : Int) ≤ chunkLimit) :
    chunkSize size = .ok size := by
  have hone : ¬ (size : Int) < 1 := by omega
  have hsize : ¬ chunkLimit < (size : Int) := not_lt.mpr hlimit
  rw [chunkSize, if_neg hone, if_neg hsize, Int.toNat_natCast]

theorem chunkSize_of_limit_lt {size : Int} (h : chunkLimit < size) :
    chunkSize size = .error .chunkTooLarge := by
  have hlarge : (0x7fffffffffffffff : Int) < size := h
  have hone : ¬ size < 1 := by omega
  rw [chunkSize, if_neg hone, if_pos h]

/-! ## The chunks of a list -/

/-- The chunks that pulls of `size` items take from a list. -/
def chunksOf (size : Nat) (items : List α) : List (List α) :=
  (List.range (items.length ⌈/⌉ size)).map ((Source.ofList items).chunk size)

theorem chunk_ofList (items : List α) (size c : Nat) :
    (Source.ofList items).chunk size c = (items.drop (c * size)).take size := rfl

theorem length_chunk_ofList (items : List α) (size c : Nat) :
    ((Source.ofList items).chunk size c).length = min size (items.length - c * size) := by
  rw [chunk_ofList, List.length_take, List.length_drop]

theorem lt_ceilDiv_iff {n size : Nat} (hsize : 0 < size) {c : Nat} :
    c < n ⌈/⌉ size ↔ c * size < n := by
  rw [← not_le, ceilDiv_le_iff_le_mul hsize, not_le, Nat.mul_comm]

theorem chunk_ofList_ne_nil_iff {size : Nat} (hsize : 0 < size) (items : List α) {c : Nat} :
    (Source.ofList items).chunk size c ≠ [] ↔ c < items.length ⌈/⌉ size := by
  rw [lt_ceilDiv_iff hsize, ← List.length_pos_iff, length_chunk_ofList]
  omega

/-- A chunk is full where there are enough items for it, and then does not reach beyond them. -/
theorem chunk_ofList_append {items : List α} {size c : Nat} (h : (c + 1) * size ≤ items.length)
    (rest : List α) :
    (Source.ofList (items ++ rest)).chunk size c = (Source.ofList items).chunk size c := by
  rw [Nat.succ_mul] at h
  rw [chunk_ofList, chunk_ofList, List.drop_append_of_le_length (by omega),
    List.take_append_of_le_length (by rw [List.length_drop]; omega)]

/-- The chunk that an item is in: what is left of the items before it, the item, and some of those
behind it. -/
theorem chunk_ofList_append_cons {size : Nat} (hsize : 0 < size) (before : List α) (item : α)
    (after : List α) :
    (Source.ofList (before ++ item :: after)).chunk size (before.length / size) =
      before.drop (before.length / size * size) ++
        item :: after.take (size - before.length % size - 1) := by
  have hle : before.length / size * size ≤ before.length := Nat.div_mul_le_self _ _
  have hrest : (before.drop (before.length / size * size)).length = before.length % size := by
    have hdiv := Nat.div_add_mod' before.length size
    rw [List.length_drop]
    omega
  have hless : before.length % size < size := Nat.mod_lt _ hsize
  rw [chunk_ofList, List.drop_append_of_le_length hle, List.take_append,
    List.take_of_length_le (by omega), hrest, List.take_cons (by omega)]

/-- The first chunks hold the first items. -/
theorem flatten_map_chunk (items : List α) (size c : Nat) :
    ((List.range c).map ((Source.ofList items).chunk size)).flatten = items.take (c * size) := by
  induction c with
  | zero => simp
  | succ c ih =>
      rw [List.range_succ, List.map_append, List.flatten_append, ih, List.map_singleton,
        List.flatten_singleton, chunk_ofList, Nat.succ_mul, List.take_add]

theorem cutInto_chunksOf {size : Nat} (hsize : 0 < size) (items : List α) :
    CutInto size items (chunksOf size items) := by
  have hcount : items.length ≤ (items.length ⌈/⌉ size) * size := by
    rw [Nat.mul_comm]
    exact (ceilDiv_le_iff_le_mul hsize).mp le_rfl
  refine ⟨?_, ?_, ?_, ?_⟩
  · rw [chunksOf, flatten_map_chunk, List.take_of_length_le hcount]
  · intro chunk hchunk
    obtain ⟨c, hc, rfl⟩ := List.mem_map.mp hchunk
    have hne := (chunk_ofList_ne_nil_iff hsize items).mpr (List.mem_range.mp hc)
    exact List.length_pos_iff.mpr hne
  · intro chunk hchunk
    obtain ⟨c, -, rfl⟩ := List.mem_map.mp hchunk
    rw [length_chunk_ofList]
    exact min_le_left _ _
  · intro chunk hchunk
    -- a chunk before the last one is followed by another, so enough items are left for it
    rw [chunksOf] at hchunk
    cases hlast : items.length ⌈/⌉ size with
    | zero =>
        rw [hlast] at hchunk
        cases hchunk
    | succ last =>
        rw [hlast, List.range_succ, List.map_append, List.map_singleton,
          List.dropLast_concat] at hchunk
        obtain ⟨c, hc, rfl⟩ := List.mem_map.mp hchunk
        have hbefore : c < last := List.mem_range.mp hc
        have hnext : (c + 1) * size < items.length := (lt_ceilDiv_iff hsize).mp (by omega)
        rw [Nat.succ_mul] at hnext
        rw [length_chunk_ofList]
        omega

/-- As many chunks as can be filled are a cut of what they hold. -/
theorem cutInto_full {size : Nat} (hsize : 0 < size) {items : List α} {c : Nat}
    (h : c * size ≤ items.length) :
    CutInto size (items.take (c * size))
      ((List.range c).map ((Source.ofList items).chunk size)) := by
  have hfull : ∀ chunk ∈ (List.range c).map ((Source.ofList items).chunk size),
      chunk.length = size := by
    intro chunk hchunk
    obtain ⟨i, hi, rfl⟩ := List.mem_map.mp hchunk
    have hle : (i + 1) * size ≤ c * size :=
      Nat.mul_le_mul_right size (List.mem_range.mp hi)
    rw [Nat.succ_mul] at hle
    rw [length_chunk_ofList]
    omega
  refine ⟨flatten_map_chunk items size c, ?_, ?_, ?_⟩
  · exact fun chunk hchunk => by rw [hfull chunk hchunk]; exact hsize
  · exact fun chunk hchunk => (hfull chunk hchunk).le
  · exact fun chunk hchunk => hfull chunk (List.mem_of_mem_dropLast hchunk)

theorem chunk_map (f : α → β) (size c : Nat) (items : List α) :
    (Source.ofList (items.map f)).chunk size c = ((Source.ofList items).chunk size c).map f := by
  simp only [chunk_ofList, List.map_take, List.map_drop]

theorem chunksOf_map (f : α → β) (size : Nat) (items : List α) :
    chunksOf size (items.map f) = (chunksOf size items).map (List.map f) := by
  simp only [chunksOf, List.length_map, List.map_map]
  exact List.map_congr_left fun c _ => chunk_map f size c items

end DocSearch
