import DocSearch.ByteSize
import DocSearch.Proofs.Numerals
import Mathlib.Algebra.Order.Field.Basic
import Mathlib.Algebra.Order.Ring.Rat
import Mathlib.Data.Nat.Prime.Basic
import Mathlib.Tactic.Linarith
import Mathlib.Tactic.NormNum
import Mathlib.Tactic.Positivity
import Mathlib.Tactic.Ring

/-!
# What displayed sizes say

A size is shown as a number with one decimal and a unit. The unit is chosen first and the number
is rounded after that, so a number can be rounded up to the next unit without getting it. The size
that is meant, the tenths that are shown and the order of sizes are compared over the rational
numbers; what rounding does is said without the way in which it is done.
-/

namespace DocSearch

/-! ## Nearest whole numbers -/

namespace Rounding

/-- `n` is a whole number nearest to `q`, and the even one of two that are equally near. -/
structure IsNearest (q : ℚ) (n : ℕ) : Prop where
  le_half : |q - n| ≤ 1 / 2
  even_of_tie : |q - n| = 1 / 2 → n % 2 = 0

/-- Rounding keeps the order. -/
theorem IsNearest.mono {q r : ℚ} {m n : ℕ} (hm : IsNearest q m) (hn : IsNearest r n) (h : q ≤ r) :
    m ≤ n := by
  by_contra hlt
  obtain ⟨hqlow, hqhigh⟩ := abs_le.mp hm.le_half
  obtain ⟨hrlow, hrhigh⟩ := abs_le.mp hn.le_half
  have hstep : (n : ℚ) + 1 ≤ m := by exact_mod_cast Nat.lt_of_not_le hlt
  -- Both are equally near to one number, so both are even, and they are neighbours.
  have hneighbours : (m : ℚ) = n + 1 := by linarith
  have hqtie : |q - m| = 1 / 2 := by
    rw [abs_of_nonpos (by linarith)]
    linarith
  have hrtie : |r - n| = 1 / 2 := by
    rw [abs_of_nonneg (by linarith)]
    linarith
  have hmeven := hm.even_of_tie hqtie
  have hneven := hn.even_of_tie hrtie
  have hnat : m = n + 1 := by exact_mod_cast hneighbours
  omega

theorem isNearest_natCast (n : ℕ) : IsNearest n n where
  le_half := by norm_num
  even_of_tie := by norm_num

/-- Rounding up or down leaves at most half of the divisor, and half of it only where the result is
even. -/
theorem divEven_spec (num : ℕ) {den : ℕ} (hden : 0 < den) :
    2 * num ≤ 2 * (divEven num den * den) + den ∧ 2 * (divEven num den * den) ≤ 2 * num + den ∧
      (2 * num = 2 * (divEven num den * den) + den ∨ 2 * num + den = 2 * (divEven num den * den) →
        divEven num den % 2 = 0) := by
  have hdivision := Nat.div_add_mod' num den
  have hup : (num / den + 1) * den = num / den * den + den := Nat.succ_mul _ _
  have hrest := Nat.mod_lt num hden
  rw [divEven]
  split
  · omega
  · split
    · omega
    · split <;> omega

theorem isNearest_divEven (num : ℕ) {den : ℕ} (hden : 0 < den) :
    IsNearest ((num : ℚ) / den) (divEven num den) := by
  obtain ⟨hlow, hhigh, htie⟩ := divEven_spec num hden
  have hpos : (0 : ℚ) < den := by exact_mod_cast hden
  have hdistance : (num : ℚ) / den - divEven num den = (num - divEven num den * den) / den := by
    rw [sub_div, mul_div_cancel_right₀ _ hpos.ne']
  rw [← Nat.cast_le (α := ℚ)] at hlow hhigh
  push_cast at hlow hhigh
  constructor
  · rw [hdistance, abs_le, le_div_iff₀ hpos, div_le_iff₀ hpos]
    constructor <;> linarith
  · intro hhalf
    rw [hdistance, abs_eq (by norm_num), div_eq_iff hpos.ne', div_eq_iff hpos.ne'] at hhalf
    refine htie (hhalf.imp (fun h => ?_) fun h => ?_) <;>
      · rw [← Nat.cast_inj (R := ℚ)]
        push_cast
        linarith

theorem divEven_one (n : ℕ) : divEven n 1 = n := by
  simp [divEven, Nat.mod_one]

/-- Up to 2 ^ 53 a whole number has no more than 53 binary digits that matter. -/
theorem wholeToBinary_eq_self {n : ℕ} (h : n ≤ 2 ^ 53) : wholeToBinary n = n := by
  rcases h.eq_or_lt with rfl | hlt
  · decide +kernel
  · have hlog : n.log2 < 53 := by
      by_cases hzero : n = 0
      · rw [hzero]
        decide
      · exact (Nat.log2_lt hzero).mpr hlt
    have hspare : n.log2 + 1 - 53 = 0 := by omega
    rw [wholeToBinary, hspare]
    exact (Nat.mul_one _).trans (divEven_one n)

end Rounding

namespace ByteSize

open Rounding

/-! ## Readings -/

/-- All units in order; each is 1024 of the one before. -/
def units : List String := ["B", "KB", "MB", "GB", "TB"]

/-- What a displayed size says: a number of tenths, and their unit. -/
structure Reading where
  tenths : ℕ
  unit : Fin units.length
  deriving DecidableEq

namespace Reading

def text (r : Reading) : String :=
  toString (r.tenths / 10) ++ "." ++ toString (r.tenths % 10) ++ " " ++ units[r.unit]

/-- The bytes of one unit. -/
def scale (r : Reading) : ℕ := 1024 ^ (r.unit : ℕ)

theorem scale_pos (r : Reading) : 0 < r.scale := Nat.pow_pos (by decide)

/-- The bytes that are shown. -/
def quantity (r : Reading) : ℚ := r.tenths / 10 * r.scale

/-- Read a decimal number with one place, a blank and a unit. -/
def ofText? (text : String) : Option Reading :=
  match Text.cut ' ' text.toList with
  | (number, some unit) =>
    match Text.decimalNumber? number, units.finIdxOf? (String.ofList unit) with
    | some (false, .finite tenths (-1)), some unit => some ⟨tenths, unit⟩
    | _, _ => none
  | _ => none

theorem ofText?_text (r : Reading) : ofText? r.text = some r := by
  have hunits : ∀ i : Fin units.length, units.finIdxOf? units[i] = some i := by decide
  have hchars : r.text.toList = Nat.toDigits 10 (r.tenths / 10) ++
      '.' :: Nat.toDigits 10 (r.tenths % 10) ++ ' ' :: units[r.unit].toList := by
    rw [text, Nat.toString_eq_ofList_toDigits, Nat.toString_eq_ofList_toDigits]
    simp [String.toList_append]
  have hblank : ' ' ∉ Nat.toDigits 10 (r.tenths / 10) ++ '.' :: Nat.toDigits 10 (r.tenths % 10) :=
    fun hmem => absurd (Text.mem_decimalChars_of_tenths hmem) (by decide)
  rw [ofText?, hchars, Text.cut_append_cons hblank]
  simp only [Text.decimalNumber?_tenths, String.ofList_toList, hunits]

theorem text_injective {r s : Reading} (h : r.text = s.text) : r = s := by
  have hread := ofText?_text r
  rw [h, ofText?_text s] at hread
  exact (Option.some.inj hread).symm

end Reading

/-! ## The unit -/

/-- A reading of a size: its unit is the least of which the size has less than 1024, or the largest
if there is none, and its tenths are nearest to the size. -/
structure Reads (n : ℕ) (r : Reading) : Prop where
  reached : ∀ j < (r.unit : ℕ), 1024 ^ (j + 1) ≤ n
  below : (r.unit : ℕ) < 4 → n < 1024 ^ ((r.unit : ℕ) + 1)
  nearest : IsNearest (10 * n / r.scale) r.tenths

theorem inUnits_eq (num den : ℕ) (names : List String) :
    ∃ i : Fin (names ++ ["TB"]).length,
      (∀ j < (i : ℕ), den * 1024 ^ (j + 1) ≤ num) ∧
      ((i : ℕ) < names.length → num < den * 1024 ^ ((i : ℕ) + 1)) ∧
      inUnits ⟨num, den⟩ names =
        oneDecimal ⟨num, den * 1024 ^ (i : ℕ)⟩ ++ " " ++ (names ++ ["TB"])[i] := by
  induction names generalizing den with
  | nil =>
      refine ⟨⟨0, Nat.zero_lt_one⟩, fun j hj => absurd hj (Nat.not_lt_zero j),
        fun hlast => absurd hlast (Nat.not_lt_zero 0), ?_⟩
      rw [inUnits, pow_zero, mul_one, String.append_assoc]
      rfl
  | cons name larger ih =>
      rw [inUnits]
      by_cases hbelow : num < 1024 * den
      · refine ⟨⟨0, Nat.succ_pos _⟩, fun j hj => absurd hj (Nat.not_lt_zero j), fun _ => ?_, ?_⟩
        · rwa [zero_add, pow_one, mul_comm]
        · rw [if_pos hbelow, pow_zero, mul_one]
          rfl
      · have hnext (k : ℕ) : den * 1024 * 1024 ^ k = den * 1024 ^ (k + 1) := by
          rw [pow_succ', mul_assoc]
        obtain ⟨i, hreached, hlast, htext⟩ := ih (den * 1024)
        simp only [hnext] at hreached hlast htext
        refine ⟨⟨i + 1, Nat.succ_lt_succ i.isLt⟩, fun j hj => ?_, fun h => ?_, ?_⟩
        · cases j with
          | zero => rw [zero_add, pow_one]; omega
          | succ j => exact hreached j (Nat.lt_of_succ_lt_succ hj)
        · exact hlast (Nat.lt_of_succ_lt_succ h)
        · rw [if_neg hbelow, htext]
          rfl

theorem oneDecimal_eq (num : ℕ) {den : ℕ} (hden : 0 < den) :
    ∃ tenths, IsNearest ((num * 10 : ℕ) / den) tenths ∧
      oneDecimal ⟨num, den⟩ = toString (tenths / 10) ++ "." ++ toString (tenths % 10) :=
  ⟨_, isNearest_divEven _ hden, rfl⟩

theorem magnitude?_natCast {n : ℕ} (h : n ≤ 2 ^ 53) : magnitude? (.integer n) = some ⟨n, 1⟩ := by
  have hlarge (k : ℕ) (hk : 53 < k) : n < Nat.pow 2 k :=
    h.trans_lt (Nat.pow_lt_pow_right (by decide) hk)
  rw [magnitude?, Int.natAbs_natCast, wholeToBinary_eq_self h]
  split
  · rfl
  next hno => exact absurd (hlarge _ (by decide)) hno

/-- A size that the arithmetic holds exactly is shown as a reading of it. -/
theorem exists_reads {n : ℕ} (h : n ≤ 2 ^ 53) :
    ∃ r, Reads n r ∧ format? (.integer n) = some r.text := by
  obtain ⟨i, hreached, hbelow, htext⟩ := inUnits_eq n 1 smallUnits
  simp only [one_mul] at hreached hbelow htext
  have hscale : 0 < 1024 ^ (i : ℕ) := Nat.pow_pos (by decide)
  obtain ⟨tenths, hnearest, hdecimal⟩ := oneDecimal_eq n hscale
  refine ⟨⟨tenths, i⟩, ⟨hreached, hbelow, ?_⟩, ?_⟩
  · rwa [Nat.cast_mul, mul_comm] at hnearest
  · have hsign : isNegative (.integer n) = false := by simp [isNegative]
    rw [format?, magnitude?_natCast h, Option.map_some, hsign, quantity,
      if_neg Bool.false_ne_true, htext, hdecimal]
    rfl

/-! ## What a reading says -/

namespace Reads
variable {m n : ℕ} {r s : Reading}

/-- The tenths differ from the size by at most half a tenth of the unit. -/
theorem abs_sub_le (h : Reads n r) : |(r.tenths * r.scale - 10 * n : ℚ)| ≤ r.scale / 2 := by
  have hpos : (0 : ℚ) < r.scale := by exact_mod_cast r.scale_pos
  have hdistance : (r.tenths * r.scale - 10 * n : ℚ) =
      (r.tenths - 10 * n / r.scale) * r.scale := by
    rw [sub_mul, div_mul_cancel₀ _ hpos.ne']
  have hhalf := h.nearest.le_half
  rw [abs_sub_comm] at hhalf
  rw [hdistance, abs_mul, abs_of_pos hpos]
  linarith [mul_le_mul_of_nonneg_right hhalf hpos.le]

theorem abs_quantity_sub_le (h : Reads n r) : |r.quantity - n| ≤ 0.05 * r.scale := by
  have hdistance : r.quantity - n = (r.tenths * r.scale - 10 * n) / 10 := by
    rw [Reading.quantity]
    ring
  have hle := h.abs_sub_le
  rw [hdistance, abs_div, abs_of_pos (by norm_num : (0 : ℚ) < 10)]
  linarith

/-- Below the largest unit no more than 1024 are shown. -/
theorem tenths_le (h : Reads n r) (hunit : (r.unit : ℕ) < 4) :
    r.tenths ≤ 10240 := by
  have hpos : (0 : ℚ) < r.scale := by exact_mod_cast r.scale_pos
  have hbelow : (n : ℚ) < r.scale * 1024 := by exact_mod_cast h.below hunit
  refine h.nearest.mono (isNearest_natCast 10240) ?_
  rw [div_le_iff₀ hpos]
  push_cast
  linarith

/-- From the second unit on at least one is shown. -/
theorem le_tenths (h : Reads n r) (hunit : 0 < (r.unit : ℕ)) : 10 ≤ r.tenths := by
  have hpos : (0 : ℚ) < r.scale := by exact_mod_cast r.scale_pos
  have hreached := h.reached (r.unit - 1) (by omega)
  rw [Nat.sub_add_cancel hunit] at hreached
  have hscale : (r.scale : ℚ) ≤ n := by exact_mod_cast hreached
  refine (isNearest_natCast 10).mono h.nearest ?_
  rw [le_div_iff₀ hpos]
  push_cast
  linarith

theorem unit_le (hm : Reads m r) (hn : Reads n s) (h : m ≤ n) : (r.unit : ℕ) ≤ s.unit := by
  by_contra hlt
  have hreached := hm.reached s.unit (by omega)
  have hunits : units.length = 5 := rfl
  have hbelow := hn.below (by omega)
  omega

/-- A larger size is not shown as a smaller quantity, whatever the units. -/
theorem quantity_le (hm : Reads m r) (hn : Reads n s) (h : m ≤ n) : r.quantity ≤ s.quantity := by
  have hpos : (0 : ℚ) < r.scale := by exact_mod_cast r.scale_pos
  rcases (unit_le hm hn h).eq_or_lt with hsame | hlt
  · have hscale : s.scale = r.scale := by rw [Reading.scale, Reading.scale, hsame]
    have htenths : (r.tenths : ℚ) ≤ s.tenths := by
      have hle : (10 * m / r.scale : ℚ) ≤ 10 * n / r.scale := by gcongr
      exact_mod_cast hm.nearest.mono (hscale ▸ hn.nearest) hle
    rw [Reading.quantity, Reading.quantity, hscale]
    gcongr
  · have hunits : units.length = 5 := rfl
    have hfull : (r.tenths : ℚ) ≤ 10240 := by exact_mod_cast hm.tenths_le (by omega)
    have hone : (10 : ℚ) ≤ s.tenths := by exact_mod_cast hn.le_tenths (by omega)
    have hstep : r.scale * 1024 ≤ s.scale := Nat.pow_le_pow_right (show 0 < 1024 by decide) hlt
    calc r.quantity ≤ 1024 * r.scale := by
          rw [Reading.quantity]
          gcongr
          linarith
      _ ≤ s.scale := by
          rw [mul_comm]
          exact_mod_cast hstep
      _ ≤ s.quantity := by
          rw [Reading.quantity]
          exact le_mul_of_one_le_left (Nat.cast_nonneg _) (by linarith)

theorem unit_eq_iff (h : Reads n r) {i : ℕ} (hi : i < 4) :
    (r.unit : ℕ) = i ↔ (∀ j < i, 1024 ^ (j + 1) ≤ n) ∧ n < 1024 ^ (i + 1) := by
  constructor
  · rintro rfl
    exact ⟨h.reached, h.below hi⟩
  · rintro ⟨hreached, hbelow⟩
    by_contra hne
    rcases Nat.lt_or_gt_of_ne hne with hlt | hgt
    · have hmore := hreached r.unit hlt
      have hless := h.below (by omega)
      omega
    · have hmore := h.reached i hgt
      omega

/-- No size is half-way between 1023.9 and 1024 units. -/
theorem ten_twenty_four_iff (h : Reads n r) :
    10240 ≤ r.tenths ↔ 20479 * r.scale < 20 * n := by
  have hpos : (0 : ℚ) < r.scale := by exact_mod_cast r.scale_pos
  obtain ⟨hlow, hhigh⟩ := abs_le.mp h.abs_sub_le
  constructor
  · intro hfull
    have hfive : ¬ 5 ∣ 20479 * r.scale := by
      rw [Nat.prime_five.dvd_mul, not_or]
      exact ⟨by decide, fun hdvd => absurd (Nat.prime_five.dvd_of_dvd_pow hdvd) (by decide)⟩
    have hne : 20479 * r.scale ≠ 20 * n := fun heq => hfive (heq ▸ ⟨4 * n, by ring⟩)
    have hle : 20479 * r.scale ≤ 20 * n := by
      have hcast : (10240 : ℚ) ≤ r.tenths := by exact_mod_cast hfull
      have hprod := mul_le_mul_of_nonneg_right hcast hpos.le
      rw [← Nat.cast_le (α := ℚ)]
      push_cast
      linarith
    omega
  · intro hlt
    by_contra hless
    have hcast : (r.tenths : ℚ) ≤ 10239 := by exact_mod_cast Nat.le_of_lt_succ (not_le.mp hless)
    have hprod := mul_le_mul_of_nonneg_right hcast hpos.le
    rw [← Nat.cast_lt (α := ℚ)] at hlt
    push_cast at hlt
    linarith

/-- Under each unit but the largest, 1024 are shown just for the sizes right below the next. -/
theorem full_iff (h : Reads n r) (i : ℕ) :
    ((r.unit : ℕ) = i ∧ i < 4 ∧ 10240 ≤ r.tenths) ↔
      1 ≤ i ∧ i ≤ 3 ∧ 1023.95 * 1024 ^ i < (n : ℚ) ∧ n < 1024 ^ (i + 1) := by
  have hscaled : (1023.95 * 1024 ^ i < (n : ℚ)) ↔ 20479 * 1024 ^ i < 20 * n := by
    rw [← Nat.cast_lt (α := ℚ)]
    push_cast
    constructor <;> intro hlt <;> linarith
  rw [hscaled, h.ten_twenty_four_iff, Reading.scale]
  constructor
  · rintro ⟨rfl, hunit, hfull⟩
    have hbelow := h.below hunit
    refine ⟨?_, by omega, hfull, hbelow⟩
    by_contra hzero
    rw [Nat.lt_one_iff.mp (not_le.mp hzero)] at hfull hbelow
    omega
  · rintro ⟨hone, hthree, hfull, hbelow⟩
    have hunit : (r.unit : ℕ) = i := by
      refine (h.unit_eq_iff (by omega)).mpr ⟨fun j hj => ?_, hbelow⟩
      have hpower : 1024 ^ (j + 1) ≤ 1024 ^ i := Nat.pow_le_pow_right (by decide) hj
      omega
    rw [hunit]
    exact ⟨rfl, by omega, hfull⟩

end Reads

end ByteSize

open ByteSize

/-- A size up to 2 ^ 53 is shown in the least unit of which it has less than 1024, or in terabytes,
and as the nearest number of tenths, of two that are equally near the even one. What is shown can be
read again. It differs from the size by at most a twentieth of the unit, and it never falls while
the size grows, even where the unit changes. Below terabytes it reaches 1024 just for the sizes that
are short of the next unit by less than a twentieth. -/
theorem displayed_sizes_are_accurate :
    (∀ n ≤ 2 ^ 53, ∃ r, format? (.integer (n : ℕ)) = some r.text ∧ Reading.ofText? r.text = some r ∧
      Reads n r ∧ |r.quantity - n| ≤ 0.05 * r.scale ∧ ((r.unit : ℕ) < 4 → r.tenths ≤ 10240) ∧
      ∀ i, ((r.unit : ℕ) = i ∧ i < 4 ∧ 10240 ≤ r.tenths) ↔
        1 ≤ i ∧ i ≤ 3 ∧ 1023.95 * 1024 ^ i < (n : ℚ) ∧ n < 1024 ^ (i + 1)) ∧
    ∀ (m n : ℕ) (r s : Reading), m ≤ n → n ≤ 2 ^ 53 → format? (.integer m) = some r.text →
      format? (.integer n) = some s.text → r.quantity ≤ s.quantity := by
  constructor
  · intro n hn
    obtain ⟨r, hreads, htext⟩ := exists_reads hn
    exact ⟨r, htext, r.ofText?_text, hreads, hreads.abs_quantity_sub_le, hreads.tenths_le,
      hreads.full_iff⟩
  · intro m n r s hle hn hr hs
    have hread {k : ℕ} {t : Reading} (hk : k ≤ 2 ^ 53) (ht : format? (.integer k) = some t.text) :
        Reads k t := by
      obtain ⟨t', hreads, htext⟩ := exists_reads hk
      rw [Reading.text_injective (Option.some.inj (ht.symm.trans htext))]
      exact hreads
    exact (hread (hle.trans hn) hr).quantity_le (hread hn hs) hle

namespace Sample

def kilobytes : Reading := ⟨10240, ⟨1, by decide⟩⟩

def megabyte : Reading := ⟨10, ⟨2, by decide⟩⟩

theorem kilobytes_become_megabyte :
    format? (.integer 1048575) = some "1024.0 KB" ∧ Reads 1048575 kilobytes ∧
      format? (.integer 1048576) = some "1.0 MB" ∧ kilobytes.quantity ≤ megabyte.quantity := by
  have hless : format? (.integer 1048575) = some kilobytes.text := by decide +kernel
  have hmore : format? (.integer 1048576) = some megabyte.text := by decide +kernel
  obtain ⟨hshown, hmono⟩ := displayed_sizes_are_accurate
  obtain ⟨r, htext, -, hreads, -⟩ := hshown 1048575 (by decide)
  rw [← Reading.text_injective (Option.some.inj (hless.symm.trans htext))] at hreads
  exact ⟨by decide +kernel, hreads, by decide +kernel,
    hmono 1048575 1048576 _ _ (by decide) (by decide) hless hmore⟩

end Sample

end DocSearch
