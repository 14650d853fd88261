import DocSearch.Text.Lowercase
import Mathlib.Data.Nat.Init

/-!
# What lower case leaves

Text in lower case stays as it is when it is put in lower case again, since no run of the table
leads to a code point of another run. A character that no run leads to stands in the lower-case form
only where it stood before.
-/

namespace DocSearch.Text

/-! ## The table -/

/-- A run of the table: first and last code point, step, and distance to the lower-case form. -/
abbrev CaseRun := Nat × Nat × Nat × Int

namespace CaseRun

def distance (r : CaseRun) : Int := r.2.2.2

/-- Whether a run holds a code point. -/
def holds : CaseRun → Nat → Bool
  | (first, last, step, _), n => first ≤ n && n ≤ last && (n - first) % step == 0

/-- The code points that a run leads to: the lowest, the highest and the step. -/
def image : CaseRun → Nat × Nat × Nat
  | (first, last, step, distance) =>
    ((first + distance).toNat, (last + distance).toNat, step)

/-- Whether a run leads to characters only. -/
def isValid : CaseRun → Bool
  | (first, last, _, distance) =>
    decide (0 ≤ first + distance) && (decide (last + distance < 0xD800) ||
      decide (0xDFFF < first + distance) && decide (last + distance < 0x110000))

/-- Whether none of the code points that a run leads to is held by one of the runs: all of them lie
behind it, before it, or between its steps. -/
def apart : Nat × Nat × Nat → List CaseRun → Bool
  | (lowest, highest, step), runs => runs.all fun (first, last, step', _) =>
    last.blt lowest || highest.blt first ||
      ((lowest == highest || step == step') && (lowest - first) % step' != 0)

end CaseRun

/-- What the two characters become that are not looked up in the table, the capital I with a dot and
the capital sigma. -/
def specialForms : List Char := ['i', Char.ofNat 0x307, Char.ofNat 0x3C2, Char.ofNat 0x3C3]

/-- Whether nothing but a character itself goes to it. -/
def unreached (c : Char) : Bool :=
  !specialForms.contains c && lowercaseRuns.all fun r =>
    c.toNat.blt (CaseRun.image r).1 || (CaseRun.image r).2.1.blt c.toNat

theorem runs_valid : lowercaseRuns.all CaseRun.isValid = true := by
  decide +kernel

theorem images_apart :
    lowercaseRuns.all (fun r => CaseRun.apart (CaseRun.image r) lowercaseRuns) = true := by
  decide +kernel

namespace CaseRun

theorem holds_eq_false_of_apart {lowest highest step : Nat} {runs : List CaseRun}
    (h : apart (lowest, highest, step) runs = true) {r : CaseRun} (hr : r ∈ runs) {n : Nat}
    (hlowest : lowest ≤ n) (hhighest : n ≤ highest) (hstep : step ∣ n - lowest) :
    r.holds n = false := by
  obtain ⟨first, last, step', distance⟩ := r
  have hapart := List.all_eq_true.mp h _ hr
  rw [Bool.eq_false_iff]
  intro hholds
  simp only [holds, Bool.and_eq_true, decide_eq_true_eq, beq_iff_eq] at hholds
  obtain ⟨⟨hfirst, hlast⟩, hstep'⟩ := hholds
  simp only [Bool.or_eq_true, Nat.blt_eq, Bool.and_eq_true, beq_iff_eq, bne_iff_ne] at hapart
  rcases hapart with (hbehind | hbefore) | ⟨hsame, hbetween⟩
  · omega
  · omega
  · apply hbetween
    rcases hsame with hone | rfl
    · have hn : n = lowest := by omega
      rwa [hn] at hstep'
    · have hsub := Nat.dvd_sub (Nat.dvd_of_mod_eq_zero hstep') hstep
      by_cases hle : first ≤ lowest
      · have hdifference : n - first - (n - lowest) = lowest - first := by omega
        rw [hdifference] at hsub
        exact Nat.mod_eq_zero_of_dvd hsub
      · have hzero : lowest - first = 0 := by omega
        rw [hzero, Nat.zero_mod]

/-- What a run makes of a code point that it holds is the code point of a character, which no run
holds. -/
theorem image_of_holds {r : CaseRun} (hr : r ∈ lowercaseRuns) {n : Nat} (h : r.holds n = true) :
    (n + r.distance).toNat.isValidChar ∧ r.image.1 ≤ (n + r.distance).toNat ∧
      (n + r.distance).toNat ≤ r.image.2.1 ∧
      ∀ r' ∈ lowercaseRuns, CaseRun.holds r' (n + r.distance).toNat = false := by
  have hvalid := List.all_eq_true.mp runs_valid r hr
  have hapart := List.all_eq_true.mp images_apart r hr
  obtain ⟨first, last, step, distance⟩ := r
  simp only [holds, Bool.and_eq_true, decide_eq_true_eq, beq_iff_eq] at h
  obtain ⟨⟨hfirst, hlast⟩, hstep⟩ := h
  simp only [isValid, Bool.and_eq_true, Bool.or_eq_true, decide_eq_true_eq] at hvalid
  have hlowest : (first + distance).toNat ≤ (n + distance).toNat := by omega
  have hhighest : (n + distance).toNat ≤ (last + distance).toNat := by omega
  have hsteps : step ∣ (n + distance).toNat - (first + distance).toNat := by
    have hdifference : (n + distance).toNat - (first + distance).toNat = n - first := by omega
    rw [hdifference]
    exact Nat.dvd_of_mod_eq_zero hstep
  have hchar : (n + distance).toNat.isValidChar := by
    rw [Nat.isValidChar]
    omega
  refine ⟨hchar, hlowest, hhighest, fun r' hr' => ?_⟩
  exact holds_eq_false_of_apart hapart hr' hlowest hhighest hsteps

end CaseRun

/-! ## One character -/

/-- A character that is changed is held by a run, which leads to the lower-case form. -/
theorem lowerChar_cases (c : Char) :
    (lowerChar c = c ∧ ∀ r ∈ lowercaseRuns, CaseRun.holds r c.toNat = false) ∨
      ∃ r ∈ lowercaseRuns, CaseRun.holds r c.toNat = true ∧
        (lowerChar c).toNat = (c.toNat + CaseRun.distance r).toNat := by
  have hlower (found : Option CaseRun)
      (h : (lowercaseRuns.find? fun r => CaseRun.holds r c.toNat) = found) :
      lowerChar c = (found.map fun r => Char.ofNat (c.toNat + CaseRun.distance r).toNat).getD c := by
    simp only [CaseRun.holds] at h
    rw [lowerChar, h]
    cases found <;> rfl
  cases hfind : lowercaseRuns.find? fun r => CaseRun.holds r c.toNat with
  | none =>
      refine .inl ⟨hlower none hfind, fun r hr => ?_⟩
      simpa using List.find?_eq_none.mp hfind r hr
  | some r =>
      have hr := List.mem_of_find?_eq_some hfind
      have hholds := List.find?_some hfind
      have hchar := (CaseRun.image_of_holds hr hholds).1
      refine .inr ⟨r, hr, hholds, ?_⟩
      rw [hlower (some r) hfind, Option.map_some, Option.getD_some, Char.ofNat, dif_pos hchar]
      rfl

/-- A character that lower case leaves as it is, wherever it stands. -/
structure LowerStays (c : Char) : Prop where
  same : lowerChar c = c
  notDotted : c.toNat ≠ 0x130
  notSigma : c.toNat ≠ 0x3A3

theorem lowerChar_eq_self {c : Char} (h : ∀ r ∈ lowercaseRuns, CaseRun.holds r c.toNat = false) :
    lowerChar c = c := by
  rcases lowerChar_cases c with ⟨hsame, -⟩ | ⟨r, hr, hholds, -⟩
  · exact hsame
  · rw [h r hr] at hholds
    cases hholds

theorem lowerChar_lowerChar (c : Char) : lowerChar (lowerChar c) = lowerChar c := by
  rcases lowerChar_cases c with ⟨hsame, -⟩ | ⟨r, hr, hholds, hto⟩
  · rw [hsame, hsame]
  · apply lowerChar_eq_self
    rw [hto]
    exact (CaseRun.image_of_holds hr hholds).2.2.2

theorem eq_of_lowerChar_eq {c d : Char} (h : unreached d = true) (hc : lowerChar c = d) :
    c = d := by
  rcases lowerChar_cases c with ⟨hsame, -⟩ | ⟨r, hr, hholds, hto⟩
  · exact hsame.symm.trans hc
  · obtain ⟨-, hlowest, hhighest, -⟩ := CaseRun.image_of_holds hr hholds
    have hout := List.all_eq_true.mp (Bool.and_eq_true_iff.mp h).2 r hr
    rw [← hto, hc] at hlowest hhighest
    simp only [Bool.or_eq_true, Nat.blt_eq] at hout
    omega

theorem lowerStays_lowerChar {c : Char} (hdotted : c.toNat ≠ 0x130) (hsigma : c.toNat ≠ 0x3A3) :
    LowerStays (lowerChar c) := by
  have hback {n : Nat} (hn : unreached (Char.ofNat n) = true) (h : (lowerChar c).toNat = n) :
      c.toNat = n := by
    have hchar : lowerChar c = Char.ofNat n := by rw [← h, Char.ofNat_toNat]
    rw [← hchar] at hn
    rw [eq_of_lowerChar_eq hn rfl]
    exact h
  exact {
    same := lowerChar_lowerChar c
    notDotted := fun h => hdotted (hback (by decide +kernel) h)
    notSigma := fun h => hsigma (hback (by decide +kernel) h) }

/-! ## Text -/

/-- Where a character in lower case comes from. -/
theorem mem_lowerFrom {d : Char} {before text : List Char} (h : d ∈ lowerFrom before text) :
    d ∈ specialForms ∨
      ∃ c ∈ text, c.toNat ≠ 0x130 ∧ c.toNat ≠ 0x3A3 ∧ d = lowerChar c := by
  induction text generalizing before with
  | nil => cases h
  | cons c rest ih =>
      rw [lowerFrom] at h
      rcases List.mem_append.mp h with hhere | hrest
      · split at hhere
        next =>
          left
          rcases List.mem_cons.mp hhere with rfl | hmark
          · decide
          · rw [List.mem_singleton.mp hmark]
            decide
        next hdotted =>
          split at hhere
          next =>
            left
            rw [List.mem_singleton.mp hhere]
            split <;> decide
          next hsigma =>
            right
            exact ⟨c, List.mem_cons_self, hdotted, hsigma, List.mem_singleton.mp hhere⟩
      · rcases ih hrest with hspecial | ⟨c', hc', hrest⟩
        · exact .inl hspecial
        · exact .inr ⟨c', List.mem_cons_of_mem _ hc', hrest⟩

theorem lowerStays_of_mem_lower {d : Char} {text : List Char} (h : d ∈ lower text) :
    LowerStays d := by
  rcases mem_lowerFrom h with hspecial | ⟨c, -, hdotted, hsigma, rfl⟩
  · simp only [specialForms, List.mem_cons, List.not_mem_nil, or_false] at hspecial
    rcases hspecial with rfl | rfl | rfl | rfl <;> exact ⟨by decide +kernel, by decide, by decide⟩
  · exact lowerStays_lowerChar hdotted hsigma

theorem lowerFrom_eq_self {text : List Char} (h : ∀ c ∈ text, LowerStays c) (before : List Char) :
    lowerFrom before text = text := by
  induction text generalizing before with
  | nil => rfl
  | cons c rest ih =>
      obtain ⟨hc, hrest⟩ := List.forall_mem_cons.mp h
      rw [lowerFrom, if_neg hc.notDotted, if_neg hc.notSigma, hc.same, ih hrest]
      rfl

theorem lower_eq_self {text : List Char} (h : ∀ c ∈ text, LowerStays c) : lower text = text :=
  lowerFrom_eq_self h []

/-- Lower case brings in no character that nothing else goes to. -/
theorem mem_of_mem_lower {d : Char} {text : List Char} (hd : unreached d = true)
    (h : d ∈ lower text) : d ∈ text := by
  rcases mem_lowerFrom h with hspecial | ⟨c, hc, -, -, heq⟩
  · rw [unreached, List.contains_iff_mem.mpr hspecial] at hd
    cases hd
  · rwa [← eq_of_lowerChar_eq hd heq.symm]

/-- Nor does it take away one that stays. -/
theorem mem_lower_of_mem {c : Char} {text : List Char} (hc : LowerStays c) (h : c ∈ text) :
    c ∈ lower text := by
  suffices ∀ before, c ∈ lowerFrom before text from this []
  induction text with
  | nil => cases h
  | cons d rest ih =>
      intro before
      rw [lowerFrom, List.mem_append]
      rcases List.mem_cons.mp h with rfl | hrest
      · left
        rw [if_neg hc.notDotted, if_neg hc.notSigma, hc.same]
        exact List.mem_singleton_self c
      · exact .inr (ih hrest _)

end DocSearch.Text
