import DocSearch.Proofs.Authority
import DocSearch.Text.DecimalNumber

/-!
# Numbers that are read again

The decimal digits of a number are read as that number, and a number with one decimal is read as its
tenths. Blanks, signs, underscores and the words for infinity never come in, since a text of digits
and a point has none of them.
-/

namespace DocSearch.Text

/-! ## Digits -/

/-- The digits in ASCII. -/
def asciiDigits : List Char := ['0', '1', '2', '3', '4', '5', '6', '7', '8', '9']

theorem mem_asciiDigits {c : Char} (h : c.isDigit = true) : c ∈ asciiDigits := by
  have hall : ∀ m < 58, 48 ≤ m → Char.ofNat m ∈ asciiDigits := by decide
  have hrange : 48 ≤ c.toNat ∧ c.toNat ≤ 57 := by
    simpa [Char.isDigit, UInt32.le_iff_toNat_le] using h
  have hc := hall c.toNat (by omega) hrange.1
  rwa [Char.ofNat_toNat] at hc

theorem mem_asciiDigits_of_mem_toDigits {n : Nat} {c : Char} (h : c ∈ Nat.toDigits 10 n) :
    c ∈ asciiDigits :=
  mem_asciiDigits (Nat.isDigit_of_mem_toDigits (by decide) (by decide) h)

theorem of_mem_asciiDigits {c : Char} (h : c ∈ asciiDigits) :
    c ≠ '_' ∧ digitValue? c = some (c.toNat - '0'.toNat) := by
  have hall : asciiDigits.all fun c =>
      c != '_' && digitValue? c == some (c.toNat - '0'.toNat) := by decide
  simpa using List.all_eq_true.mp hall c h

theorem digitsFrom_of_asciiDigits {text : List Char} (h : ∀ c ∈ text, c ∈ asciiDigits)
    (hne : text ≠ []) (after : Bool) :
    digitsFrom after text = some (text.map fun c => c.toNat - '0'.toNat) := by
  induction text generalizing after with
  | nil => exact absurd rfl hne
  | cons c rest ih =>
      obtain ⟨hc, hrest⟩ := List.forall_mem_cons.mp h
      obtain ⟨hplain, hvalue⟩ := of_mem_asciiDigits hc
      rw [digitsFrom, hvalue]
      · by_cases hend : rest = []
        · subst hend
          rfl
        · rw [ih hrest hend]
          rfl
      · exact hplain

theorem ofDigits_append_singleton (digits : List Nat) (d : Nat) :
    ofDigits (digits ++ [d]) = ofDigits digits * 10 + d := by
  rw [ofDigits, List.foldl_append]
  rfl

/-! ## One decimal -/

/-- The digits and the point. -/
def decimalChars : List Char := '.' :: asciiDigits

theorem of_mem_decimalChars {c : Char} (h : c ∈ decimalChars) :
    isBlank c = false ∧ (c ≠ '-' ∧ c ≠ '+') ∧ c.toLower = c := by
  have hall : decimalChars.all fun c =>
      !isBlank c && (c != '-' && c != '+') && c.toLower == c := by decide
  simpa [and_assoc] using List.all_eq_true.mp hall c h

theorem trimBlanks_eq_self {text : List Char} (h : ∀ c ∈ text, c ∈ decimalChars) :
    trimBlanks text = text := by
  have hdrop {chars : List Char} (hchars : ∀ c ∈ chars, c ∈ decimalChars) :
      chars.dropWhile isBlank = chars := by
    cases chars with
    | nil => rfl
    | cons c rest =>
        rw [List.dropWhile_cons_of_neg]
        simp [(of_mem_decimalChars (hchars c List.mem_cons_self)).1]
  rw [trimBlanks, hdrop h, hdrop (by simpa using h), List.reverse_reverse]

theorem signed_eq {text : List Char} (h : ∀ c ∈ text, c ∈ decimalChars) :
    signed text = (false, text) := by
  cases text with
  | nil => rfl
  | cons c rest =>
      obtain ⟨hminus, hplus⟩ := (of_mem_decimalChars (h c List.mem_cons_self)).2.1
      rw [signed]
      · exact fun _ heq => hminus (List.cons.inj heq).1
      · exact fun _ heq => hplus (List.cons.inj heq).1

theorem map_toLower_eq_self {text : List Char} (h : ∀ c ∈ text, c ∈ decimalChars) :
    text.map Char.toLower = text := by
  exact (List.map_congr_left fun c hc => (of_mem_decimalChars (h c hc)).2.2).trans (List.map_id _)

/-- Digits on both sides of a point. -/
theorem magnitude?_point {whole fraction : List Char} (hwhole : ∀ c ∈ whole, c ∈ asciiDigits)
    (hfraction : ∀ c ∈ fraction, c ∈ asciiDigits) (hne : whole ≠ []) (hne' : fraction ≠ []) :
    magnitude? (whole ++ '.' :: fraction) = some (.finite
      (ofDigits ((whole ++ fraction).map fun c => c.toNat - '0'.toNat)) (-fraction.length)) := by
  have hword {word : List Char} (h : '.' ∉ word) : whole ++ '.' :: fraction ≠ word := by
    rintro rfl
    exact h (List.mem_append_right _ List.mem_cons_self)
  have hpower : 'e' ∉ whole ++ '.' :: fraction := by
    intro he
    rcases List.mem_append.mp he with he | he
    · exact absurd (hwhole 'e' he) (by decide)
    · rcases List.mem_cons.mp he with he | he
      · exact absurd he (by decide)
      · exact absurd (hfraction 'e' he) (by decide)
  have hpoint : '.' ∉ whole := fun hdot => absurd (hwhole '.' hdot) (by decide)
  have hbefore := digitsFrom_of_asciiDigits hwhole hne false
  have hbehind := digitsFrom_of_asciiDigits hfraction hne' false
  rw [magnitude?, if_neg (not_or.mpr ⟨hword (by decide), hword (by decide)⟩),
    if_neg (hword (by decide)), cut_of_notMem hpower]
  dsimp only
  rw [cut_append_cons hpoint]
  simp only [digitsOrNone, if_neg hne, Option.getD_some, if_neg hne', hbefore, hbehind]
  simp [hne, exponent?]

theorem mem_decimalChars_of_tenths {tenths : Nat} {c : Char}
    (h : c ∈ Nat.toDigits 10 (tenths / 10) ++ '.' :: Nat.toDigits 10 (tenths % 10)) :
    c ∈ decimalChars := by
  rcases List.mem_append.mp h with hc | hc
  · exact List.mem_cons_of_mem _ (mem_asciiDigits_of_mem_toDigits hc)
  · exact List.mem_cons.mpr ((List.mem_cons.mp hc).imp_right mem_asciiDigits_of_mem_toDigits)

/-- A whole number, a point and one digit. -/
theorem decimalNumber?_tenths (tenths : Nat) :
    decimalNumber? (Nat.toDigits 10 (tenths / 10) ++ '.' :: Nat.toDigits 10 (tenths % 10)) =
      some (false, .finite tenths (-1)) := by
  have hchars : ∀ c ∈ Nat.toDigits 10 (tenths / 10) ++ '.' :: Nat.toDigits 10 (tenths % 10),
      c ∈ decimalChars := fun c => mem_decimalChars_of_tenths
  have hone : Nat.toDigits 10 (tenths % 10) = [(tenths % 10).digitChar] :=
    Nat.toDigits_of_lt_base (by omega)
  have hdigit : (tenths % 10).digitChar.toNat - '0'.toNat = tenths % 10 := by
    simpa [hone, ofDigits] using ofDigits_toDigits (tenths % 10)
  have hvalue : ofDigits ((Nat.toDigits 10 (tenths / 10) ++ Nat.toDigits 10 (tenths % 10)).map
      fun c => c.toNat - '0'.toNat) = tenths := by
    rw [hone, List.map_append, List.map_singleton, ofDigits_append_singleton, ofDigits_toDigits,
      hdigit]
    omega
  rw [decimalNumber?, trimBlanks_eq_self hchars, signed_eq hchars]
  dsimp only
  rw [map_toLower_eq_self hchars,
    magnitude?_point (fun c => mem_asciiDigits_of_mem_toDigits)
      (fun c => mem_asciiDigits_of_mem_toDigits) Nat.toDigits_ne_nil Nat.toDigits_ne_nil,
    hvalue, hone]
  rfl

end DocSearch.Text
