import DocSearch.Proofs.Cut

/-!
# Splitting a source

What any number of pulls takes from a source, be it a list or a stream without end. The chunks are
the cut of the items that come next, as many of them as the pulls can hold, and nothing beyond
these items is drawn. A list is used up by as many pulls as it has chunks.

A size above the largest number of items that can be asked for at once is refused like one below
one, so nothing is split by it although it would be a size.
-/

namespace DocSearch

variable {α : Type}

namespace Source

/-! ## Items one after the other -/

theorem upcoming_add (source : Source α) (m n : Nat) :
    source.upcoming (m + n) = source.upcoming m ++ (source.skip m).upcoming n := by
  obtain ⟨supply, drawn⟩ := source
  cases supply with
  | list items => exact List.take_add
  | stream item next =>
      have hrest : ((List.range n).map (m + ·)).map (fun k => item (next + k)) =
          (List.range n).map fun k => item (next + m + k) := by
        rw [List.map_map]
        refine List.map_congr_left fun k _ => ?_
        exact congrArg item (Nat.add_assoc next m k).symm
      simp only [upcoming, skip, List.range_add, List.map_append, hrest]

theorem take_upcoming (source : Source α) (m n : Nat) :
    (source.upcoming (m + n)).take m = source.upcoming m := by
  obtain ⟨supply, drawn⟩ := source
  cases supply with
  | list items => simp [upcoming, List.take_take]
  | stream item next => simp [upcoming, ← List.map_take, List.take_range]

theorem drop_upcoming (source : Source α) (m n : Nat) :
    (source.upcoming (m + n)).drop m = (source.skip m).upcoming n := by
  have hsplit := List.take_append_drop m (source.upcoming (m + n))
  rw [take_upcoming] at hsplit
  exact List.append_cancel_left (hsplit.trans (source.upcoming_add m n))

theorem length_upcoming (source : Source α) (n : Nat) :
    ((source.upcoming n).length : ℕ∞) = min source.remaining n := by
  obtain ⟨supply, drawn⟩ := source
  cases supply with
  | list items =>
      have hmin : (items.take n).length = min items.length n := by
        rw [List.length_take, Nat.min_comm]
      simp only [upcoming, remaining, hmin]
      exact Nat.mono_cast.map_min
  | stream item next => simp [upcoming, remaining]

theorem remaining_skip (source : Source α) (n : Nat) :
    (source.skip n).remaining = source.remaining - n := by
  obtain ⟨supply, drawn⟩ := source
  cases supply with
  | list items => simp [skip, remaining]
  | stream item next => simp [skip, remaining]

theorem remaining_eq_zero_of_upcoming {source : Source α} {size : Nat} (hsize : 0 < size)
    (h : source.upcoming size = []) : source.remaining = 0 := by
  have hlength := source.length_upcoming size
  rw [h, List.length_nil, Nat.cast_zero, eq_comm, ← bot_eq_zero, min_eq_bot] at hlength
  exact hlength.resolve_right (by simpa using hsize.ne')

theorem upcoming_of_remaining_eq_zero {source : Source α} (h : source.remaining = 0) (n : Nat) :
    source.upcoming n = [] := by
  have hlength := source.length_upcoming n
  rw [h, zero_min, Nat.cast_eq_zero] at hlength
  exact List.length_eq_zero_iff.mp hlength

/-- Nothing is drawn from a source that is used up. -/
theorem skip_of_remaining_eq_zero {source : Source α} (h : source.remaining = 0) (n : Nat) :
    source.skip n = source := by
  obtain ⟨supply, drawn⟩ := source
  cases supply with
  | list items =>
      have hitems : items = [] := by simpa [remaining] using h
      simp [skip, hitems]
  | stream item next => simp [remaining] at h

/-- How many chunks of `size` items a number of pulls yields: one each, as long as there are
items. -/
def chunkCount (source : Source α) (size pulls : Nat) : Nat :=
  match source.supply with
  | .list items => min pulls (items.length ⌈/⌉ size)
  | .stream _ _ => pulls

end Source

/-! ## Chunks one after the other -/

theorem chunksOf_nil (size : Nat) : chunksOf size ([] : List α) = [] := by
  rw [chunksOf, List.length_nil, zero_ceilDiv, List.range_zero, List.map_nil]

/-- The first chunk is followed by the chunks of what is left. -/
theorem chunksOf_of_ne_nil {size : Nat} (hsize : 0 < size) {items : List α} (h : items ≠ []) :
    chunksOf size items = items.take size :: chunksOf size (items.drop size) := by
  have hcount : items.length ⌈/⌉ size = (items.drop size).length ⌈/⌉ size + 1 := by
    refine eq_of_forall_lt_iff fun c => ?_
    have hpos : 0 < items.length := List.length_pos_iff.mpr h
    rw [lt_ceilDiv_iff hsize, List.length_drop]
    cases c with
    | zero => omega
    | succ c =>
        rw [Nat.succ_lt_succ_iff, lt_ceilDiv_iff hsize, Nat.succ_mul]
        omega
  have hlater (c : Nat) : (Source.ofList items).chunk size (c + 1) =
      (Source.ofList (items.drop size)).chunk size c := by
    rw [chunk_ofList, chunk_ofList, List.drop_drop, Nat.succ_mul, Nat.add_comm]
  rw [chunksOf, hcount, List.range_succ_eq_map, List.map_cons, List.map_map, chunk_ofList,
    Nat.zero_mul, List.drop_zero]
  exact congrArg (_ :: ·) (List.map_congr_left fun c _ => hlater c)

/-- No more chunks of a size are needed for at most `pulls` of them than for all items. -/
theorem min_mul_ceilDiv {size : Nat} (hsize : 0 < size) (n pulls : Nat) :
    min n (pulls * size) ⌈/⌉ size = min pulls (n ⌈/⌉ size) := by
  refine eq_of_forall_lt_iff fun c => ?_
  rw [lt_ceilDiv_iff hsize, lt_min_iff, lt_min_iff, lt_ceilDiv_iff hsize,
    Nat.mul_lt_mul_right hsize, and_comm]

/-! ## Pulls one after the other -/

/-- Pulls cut the items that come next, and leave the source behind them. -/
theorem pullChunks_eq {size : Nat} (hsize : 0 < size) (pulls : Nat) (source : Source α) :
    pullChunks size pulls source =
      (chunksOf size (source.upcoming (pulls * size)), source.skip (pulls * size)) := by
  induction pulls generalizing source with
  | zero =>
      have hnone : source.upcoming 0 = [] := by
        have hlength := source.length_upcoming 0
        simpa using hlength
      rw [pullChunks, Nat.zero_mul, hnone, chunksOf_nil, Source.skip_zero]
  | succ pulls ih =>
      have hnext : (pulls + 1) * size = size + pulls * size := by
        rw [Nat.succ_mul, Nat.add_comm]
      rw [pullChunks, Source.pull_eq, hnext]
      cases hchunk : source.upcoming size with
      | nil =>
          have hnone := Source.remaining_eq_zero_of_upcoming hsize hchunk
          rw [Source.skip_of_remaining_eq_zero hnone, Source.skip_of_remaining_eq_zero hnone,
            Source.upcoming_of_remaining_eq_zero hnone, chunksOf_nil]
      | cons a rest =>
          have hitems : source.upcoming (size + pulls * size) ≠ [] := by
            rw [Source.upcoming_add, hchunk]
            exact List.cons_ne_nil _ _
          rw [chunksOf_of_ne_nil hsize hitems, Source.take_upcoming, Source.drop_upcoming, hchunk,
            ← Source.skip_skip]
          simp only [ih]

/-! ## Splitting -/

/-- What a number of pulls of `size` items each is to yield, and where it leaves the source. -/
structure SplitInto (source : Source α) (size pulls : Nat) (chunking : Chunking α) : Prop where
  failure : chunking.failure = none
  cut : CutInto size (source.upcoming (pulls * size)) chunking.chunks
  count : chunking.chunks.length = source.chunkCount size pulls
  /-- A chunk that is not full has used the source up. -/
  short : ∀ chunk ∈ chunking.chunks, chunk.length = size ∨ chunking.source.remaining = 0
  drawn : (chunking.source.drawn : ℕ∞) = source.drawn + min source.remaining (pulls * size : Nat)

section
variable {source : Source α} {size : Nat}

theorem length_chunksOf_upcoming (hsize : 0 < size) (pulls : Nat) :
    (chunksOf size (source.upcoming (pulls * size))).length = source.chunkCount size pulls := by
  rw [(cutInto_chunksOf hsize _).length_eq hsize]
  obtain ⟨supply, drawn⟩ := source
  cases supply with
  | list items =>
      rw [Source.upcoming, Source.chunkCount, List.length_take, Nat.min_comm]
      exact min_mul_ceilDiv hsize items.length pulls
  | stream item next =>
      rw [Source.upcoming, Source.chunkCount, List.length_map, List.length_range]
      refine eq_of_forall_lt_iff fun c => ?_
      rw [lt_ceilDiv_iff hsize, Nat.mul_lt_mul_right hsize]

/-- The items of a chunk that is not full were all that was left. -/
theorem full_or_remaining_eq_zero (hsize : 0 < size) {pulls : Nat} {chunk : List α}
    (h : chunk ∈ chunksOf size (source.upcoming (pulls * size))) :
    chunk.length = size ∨ (source.skip (pulls * size)).remaining = 0 := by
  obtain ⟨c, hc, rfl⟩ := List.mem_map.mp h
  have hbefore := (lt_ceilDiv_iff hsize).mp (List.mem_range.mp hc)
  have hlength := source.length_upcoming (pulls * size)
  rw [length_chunk_ofList, Source.remaining_skip]
  rcases le_or_gt source.remaining (pulls * size : Nat) with hleft | hmore
  · exact .inr (tsub_eq_zero_of_le hleft)
  · rw [min_eq_right hmore.le, Nat.cast_inj] at hlength
    rw [hlength] at hbefore ⊢
    have hnext : (c + 1) * size ≤ pulls * size :=
      Nat.mul_le_mul_right size (Nat.lt_of_mul_lt_mul_right hbefore)
    rw [Nat.succ_mul] at hnext
    omega

theorem splitChunks_eq (hsize : 0 < size) (hlimit : (size : Int) ≤ chunkLimit) (pulls : Nat) :
    splitChunks size pulls source =
      ⟨chunksOf size (source.upcoming (pulls * size)), none, source.skip (pulls * size)⟩ := by
  have hpulled := pullChunks_eq hsize pulls source
  cases pulls with
  | zero =>
      obtain ⟨hchunks, hsource⟩ := Prod.mk.inj hpulled
      rw [splitChunks, if_pos rfl, ← hchunks, ← hsource]
  | succ pulls =>
      rw [splitChunks, if_neg (Nat.succ_ne_zero pulls), chunkSize_eq_ok hsize hlimit]
      simp only [hpulled]

theorem splitInto_splitChunks (hsize : 0 < size) (hlimit : (size : Int) ≤ chunkLimit)
    (pulls : Nat) : SplitInto source size pulls (splitChunks size pulls source) := by
  rw [splitChunks_eq hsize hlimit]
  exact {
    failure := rfl
    cut := cutInto_chunksOf hsize _
    count := length_chunksOf_upcoming hsize pulls
    short := fun _ => full_or_remaining_eq_zero hsize
    drawn := source.drawn_skip (pulls * size) }

/-- A size that is refused is refused by the first pull, before anything is drawn. -/
theorem splitChunks_of_error {size : Int} {e : Error} (h : chunkSize size = .error e)
    (pulls : Nat) (source : Source α) :
    splitChunks size (pulls + 1) source = ⟨[], some e, source⟩ := by
  rw [splitChunks, if_neg (Nat.succ_ne_zero pulls), h]

end

/-- Before the first pull nothing is drawn. A size below one is refused by the first pull, and so is
one above what can be asked for at once. With every other size a number of pulls cuts the items that
come next into chunks and draws no more than these items; sources that supply the same items yield
the same chunks; and as many pulls as a list has chunks use it up, so that no later pull yields
anything. -/
theorem splitting_cuts_what_comes_next (source : Source α) :
    (∀ size, splitChunks size 0 source = ⟨[], none, source⟩) ∧
    (∀ size < 1, ∀ pulls,
      splitChunks size (pulls + 1) source = ⟨[], some (.chunkSize size), source⟩) ∧
    (∀ size > chunkLimit, ∀ pulls,
      splitChunks size (pulls + 1) source = ⟨[], some .chunkTooLarge, source⟩) ∧
    ∀ size : Nat, 0 < size → (size : Int) ≤ chunkLimit →
      (∀ pulls, SplitInto source size pulls (splitChunks size pulls source)) ∧
      (∀ (other : Source α) (pulls : Nat),
        source.upcoming (pulls * size) = other.upcoming (pulls * size) →
        (splitChunks size pulls source).chunks = (splitChunks size pulls other).chunks) ∧
      ∀ items, source.supply = .list items → ∀ pulls, items.length ⌈/⌉ size ≤ pulls →
        (splitChunks size pulls source).chunks.flatten = items ∧
        (splitChunks size pulls source).chunks.length = items.length ⌈/⌉ size := by
  refine ⟨fun size => rfl, fun size hsize pulls => ?_, fun size hsize pulls => ?_, ?_⟩
  · exact splitChunks_of_error (by rw [chunkSize, if_pos hsize]) pulls source
  · exact splitChunks_of_error (chunkSize_of_limit_lt hsize) pulls source
  · intro size hsize hlimit
    refine ⟨splitInto_splitChunks hsize hlimit, fun other pulls hsame => ?_, ?_⟩
    · rw [splitChunks_eq hsize hlimit, splitChunks_eq hsize hlimit, hsame]
    · intro items hitems pulls hpulls
      have hsplit : SplitInto source size pulls (splitChunks size pulls source) :=
        splitInto_splitChunks hsize hlimit pulls
      rw [hsplit.cut.flatten, hsplit.count, Source.upcoming, Source.chunkCount, hitems]
      refine ⟨List.take_of_length_le ?_, min_eq_right hpulls⟩
      rw [Nat.mul_comm]
      exact (ceilDiv_le_iff_le_mul hsize).mp hpulls

namespace Sample

/-- The numbers from zero on, without end. -/
def numbers : Source Nat := .ofStream id

/-- Three pulls of two draw six numbers of all there are, and three pulls use five letters up. -/
theorem numbers_split_in_pairs :
    let letters : Source Char := .ofList ['a', 'b', 'c', 'd', 'e']
    SplitInto numbers 2 3 ⟨[[0, 1], [2, 3], [4, 5]], none, ⟨.stream id 6, 6⟩⟩ ∧
      [['a', 'b'], ['c', 'd'], ['e']].flatten = ['a', 'b', 'c', 'd', 'e'] ∧
      splitChunks 0 1 letters = ⟨[], some (.chunkSize 0), letters⟩ := by
  intro letters
  obtain ⟨-, hsmall, -, hsplit⟩ := splitting_cuts_what_comes_next letters
  obtain ⟨-, -, hused⟩ := hsplit 2 (by decide) (by decide)
  refine ⟨?_, (hused _ rfl 3 (by decide)).1, hsmall 0 (by decide) 0⟩
  exact ((splitting_cuts_what_comes_next numbers).2.2.2 2 (by decide) (by decide)).1 3

/-- One letter and chunks of 2 ^ 63: one chunk is what a pull would yield, but it is refused. -/
theorem oversized_chunk_is_not_split :
    let letter : Source Char := .ofList ['a']
    (1 : Int) ≤ 2 ^ 63 ∧ letter.chunkCount (2 ^ 63) 1 = 1 ∧
      ¬ SplitInto letter (2 ^ 63) 1 (splitChunks (2 ^ 63) 1 letter) := by
  intro letter
  have hrefused : splitChunks (2 ^ 63) 1 letter = ⟨[], some .chunkTooLarge, letter⟩ :=
    splitChunks_of_error (chunkSize_of_limit_lt (by decide)) 0 letter
  refine ⟨by decide, by decide, fun h => ?_⟩
  rw [hrefused] at h
  cases h.failure

end Sample

end DocSearch
