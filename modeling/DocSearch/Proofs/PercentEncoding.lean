import DocSearch.Text.Percent
import DocSearch.Text.Quoted

/-!
# Decoding what was encoded

A text is written percent-encoded: a character that may stand for itself does so or not, and any
other one is written as the octets of its UTF-8 form, each as a percent sign and two hexadecimal
digits of either case. Whichever way a text is written, decoding gives it back. Every text can be
written so.
-/

namespace DocSearch

/-! ## UTF-8 -/

namespace Utf8

/-- The first octet of two. -/
theorem first_of_two {b : Nat} (hlow : 0xC2 ≤ b) (hhigh : b ≤ 0xDF) :
    first b = ([], .pending (b - 0xC0) 1 0x80 0xBF) := by
  rw [first, if_neg (by omega), if_pos ⟨hlow, hhigh⟩]

/-- The first octet of three. Too small codes and surrogates are left out by the second one. -/
theorem first_of_three {b : Nat} (hlow : 0xE0 ≤ b) (hhigh : b ≤ 0xEF) :
    first b = ([], .pending (b - 0xE0) 2 (if b = 0xE0 then 0xA0 else 0x80)
      (if b = 0xED then 0x9F else 0xBF)) := by
  rw [first, if_neg (by omega), if_neg (by omega)]
  by_cases hzero : b = 0xE0
  · subst hzero
    rfl
  · by_cases hsurrogate : b = 0xED
    · subst hsurrogate
      rfl
    · rw [if_neg hzero, if_neg hsurrogate, if_pos (by omega), if_neg hzero, if_neg hsurrogate]

/-- The first octet of four. Too small and too large codes are left out by the second one. -/
theorem first_of_four {b : Nat} (hlow : 0xF0 ≤ b) (hhigh : b ≤ 0xF4) :
    first b = ([], .pending (b - 0xF0) 3 (if b = 0xF0 then 0x90 else 0x80)
      (if b = 0xF4 then 0x8F else 0xBF)) := by
  have hall : ∀ b ∈ [0xF0, 0xF1, 0xF2, 0xF3, 0xF4], first b =
      ([], .pending (b - 0xF0) 3 (if b = 0xF0 then 0x90 else 0x80)
        (if b = 0xF4 then 0x8F else 0xBF)) := by decide
  exact hall b (by simp; omega)

theorem decodeFrom_first {b : Nat} {next : State} (h : first b = ([], next)) (rest : List Item) :
    decodeFrom .start (.octet b :: rest) = decodeFrom next rest := by
  rw [decodeFrom, step, h]
  rfl

theorem decodeFrom_more {code left low high b : Nat} (hlow : low ≤ b) (hhigh : b ≤ high)
    (hleft : 1 < left) (rest : List Item) :
    decodeFrom (.pending code left low high) (.octet b :: rest) =
      decodeFrom (.pending (code * 64 + (b - 0x80)) (left - 1) 0x80 0xBF) rest := by
  rw [decodeFrom, step, if_pos ⟨hlow, hhigh⟩, if_neg (by omega)]
  rfl

theorem decodeFrom_last {code low high b : Nat} (hlow : low ≤ b) (hhigh : b ≤ high)
    (rest : List Item) :
    decodeFrom (.pending code 1 low high) (.octet b :: rest) =
      Char.ofNat (code * 64 + (b - 0x80)) :: decodeFrom .start rest := by
  rw [decodeFrom, step, if_pos ⟨hlow, hhigh⟩, if_pos (Nat.le_refl 1)]
  rfl

theorem decodeFrom_one {n : Nat} (h : n < 0x80) (rest : List Item) :
    decodeFrom .start (.octet n :: rest) = Char.ofNat n :: decodeFrom .start rest := by
  rw [decodeFrom, step, first, if_pos h]
  rfl

theorem decodeFrom_two {n : Nat} (hlow : 0x80 ≤ n) (hhigh : n < 0x800) (rest : List Item) :
    decodeFrom .start (.octet (n / 64 % 32 + 192) :: .octet (n % 64 + 128) :: rest) =
      Char.ofNat n :: decodeFrom .start rest := by
  have hfirst := first_of_two (b := n / 64 % 32 + 192) (by omega) (by omega)
  have hsum : (n / 64 % 32 + 192 - 0xC0) * 64 + (n % 64 + 128 - 0x80) = n := by omega
  rw [decodeFrom_first hfirst, decodeFrom_last (by omega) (by omega), hsum]

theorem decodeFrom_three {n : Nat} (hlow : 0x800 ≤ n) (hhigh : n < 0x10000)
    (hvalid : n < 0xD800 ∨ 0xDFFF < n) (rest : List Item) :
    decodeFrom .start (.octet (n / 4096 % 16 + 224) :: .octet (n / 64 % 64 + 128) ::
      .octet (n % 64 + 128) :: rest) = Char.ofNat n :: decodeFrom .start rest := by
  have hfirst := first_of_three (b := n / 4096 % 16 + 224) (by omega) (by omega)
  have hsum : ((n / 4096 % 16 + 224 - 0xE0) * 64 + (n / 64 % 64 + 128 - 0x80)) * 64 +
      (n % 64 + 128 - 0x80) = n := by omega
  rw [decodeFrom_first hfirst,
    decodeFrom_more (by split <;> omega) (by split <;> omega) (by decide),
    decodeFrom_last (by omega) (by omega), hsum]

theorem decodeFrom_four {n : Nat} (hlow : 0x10000 ≤ n) (hhigh : n < 0x110000) (rest : List Item) :
    decodeFrom .start (.octet (n / 262144 % 8 + 240) :: .octet (n / 4096 % 64 + 128) ::
      .octet (n / 64 % 64 + 128) :: .octet (n % 64 + 128) :: rest) =
      Char.ofNat n :: decodeFrom .start rest := by
  have hfirst := first_of_four (b := n / 262144 % 8 + 240) (by omega) (by omega)
  have hsum : (((n / 262144 % 8 + 240 - 0xF0) * 64 + (n / 4096 % 64 + 128 - 0x80)) * 64 +
      (n / 64 % 64 + 128 - 0x80)) * 64 + (n % 64 + 128 - 0x80) = n := by omega
  rw [decodeFrom_first hfirst,
    decodeFrom_more (by split <;> omega) (by split <;> omega) (by decide),
    decodeFrom_more (by omega) (by omega) (by decide),
    decodeFrom_last (by omega) (by omega), hsum]

/-- The octets of a character are read as that character, whatever follows. -/
theorem decodeFrom_encodeChar (c : Char) (rest : List Item) :
    decodeFrom .start ((String.utf8EncodeChar c).map (fun b => .octet b.toNat) ++ rest) =
      c :: decodeFrom .start rest := by
  have hoctet {n : Nat} (h : n < 256) : (UInt8.ofNat n).toNat = n := UInt8.toNat_ofNat_of_lt h
  have hvalid : c.val.toNat < 0xD800 ∨ 0xDFFF < c.val.toNat ∧ c.val.toNat < 0x110000 := c.valid
  have hchar : Char.ofNat c.val.toNat = c := Char.ofNat_toNat c
  generalize hcode : c.val.toNat = n at hvalid hchar
  rw [String.utf8EncodeChar, hcode]
  split
  · rw [List.map_singleton, List.singleton_append, hoctet (by omega), decodeFrom_one (by omega),
      hchar]
  · split
    · simp only [List.map_cons, List.map_nil, List.cons_append, List.nil_append]
      rw [hoctet (by omega), hoctet (by omega), decodeFrom_two (by omega) (by omega), hchar]
    · split
      · simp only [List.map_cons, List.map_nil, List.cons_append, List.nil_append]
        rw [hoctet (by omega), hoctet (by omega), hoctet (by omega),
          decodeFrom_three (by omega) (by omega) (by omega), hchar]
      · simp only [List.map_cons, List.map_nil, List.cons_append, List.nil_append]
        rw [hoctet (by omega), hoctet (by omega), hoctet (by omega), hoctet (by omega),
          decodeFrom_four (by omega) (by omega), hchar]

end Utf8

/-! ## Percent signs -/

namespace Percent

open Text

/-- The signs that may stand for themselves. -/
def plainSigns : List Char :=
  ['-', '.', '_', '~', '!', '$', '&', '\'', '(', ')', '*', '+', ',', ';', '=']

/-- Whether a character may stand for itself. -/
def isPlain (c : Char) : Bool := c.isAlphanum || plainSigns.contains c

/-- Each octet is written as a percent sign and two hexadecimal digits. -/
inductive OctetsWritten : List UInt8 → List Char → Prop
  | nil : OctetsWritten [] []
  | cons {octet : UInt8} {octets : List UInt8} {high low : Char} {written : List Char} :
      hexValue? high = some (octet.toNat / 16) → hexValue? low = some (octet.toNat % 16) →
      OctetsWritten octets written → OctetsWritten (octet :: octets) ('%' :: high :: low :: written)

/-- A text and a way to write it. -/
inductive Written : List Char → List Char → Prop
  | nil : Written [] []
  | plain {c : Char} {text written : List Char} :
      isPlain c = true → Written text written → Written (c :: text) (c :: written)
  | octets {c : Char} {text code written : List Char} :
      OctetsWritten (String.utf8EncodeChar c) code → Written text written →
      Written (c :: text) (code ++ written)

theorem toNat_lt_of_isAlphanum {c : Char} (h : c.isAlphanum = true) : c.toNat < 0x80 := by
  have hranges : ((decide (65 ≤ c.val ∧ c.val ≤ 90) || (97 ≤ c.val && c.val ≤ 122)) ||
      (48 ≤ c.val && c.val ≤ 57)) = true := h
  simp only [Bool.or_eq_true, Bool.and_eq_true, decide_eq_true_eq, UInt32.le_iff_toNat_le,
    UInt32.reduceToNat] at hranges
  have hcode : c.toNat = c.val.toNat := rfl
  omega

theorem toNat_lt_of_isPlain {c : Char} (h : isPlain c = true) : c.toNat < 0x80 := by
  rw [isPlain, Bool.or_eq_true] at h
  rcases h with hletter | hsign
  · exact toNat_lt_of_isAlphanum hletter
  · have hall : plainSigns.all fun c => c.toNat < 0x80 := by decide
    simpa using List.all_eq_true.mp hall c (List.contains_iff_mem.mp hsign)

theorem items_octets {octets : List UInt8} {code : List Char} (h : OctetsWritten octets code)
    (rest : List Char) :
    items (code ++ rest) = octets.map (fun b => .octet b.toNat) ++ items rest := by
  induction h with
  | nil => rfl
  | @cons octet octets high low written hhigh hlow _ ih =>
      have hsum : octet.toNat / 16 * 16 + octet.toNat % 16 = octet.toNat := Nat.div_add_mod' _ _
      rw [List.cons_append, List.cons_append, List.cons_append, items, hhigh, hlow]
      simp only [hsum, ih, List.map_cons, List.cons_append]

theorem items_plain {c : Char} (h : isPlain c = true) (rest : List Char) :
    items (c :: rest) = .octet c.toNat :: items rest := by
  have hpercent : c ≠ '%' := by
    rintro rfl
    cases h
  rw [items, item, if_pos (toNat_lt_of_isPlain h)]
  exact fun _ _ _ heq => absurd heq hpercent

theorem decode_of_written {text written : List Char} (h : Written text written) :
    decode written = text := by
  rw [decode, Utf8.decode]
  induction h with
  | nil => rfl
  | @plain c text written hplain _ ih =>
      rw [items_plain hplain, Utf8.decodeFrom_one (toNat_lt_of_isPlain hplain), Char.ofNat_toNat, ih]
  | octets hcode _ ih => rw [items_octets hcode, Utf8.decodeFrom_encodeChar, ih]

/-! ## Every text can be written -/

theorem exists_octetsWritten (octets : List UInt8) : ∃ code, OctetsWritten octets code := by
  have hdigit : ∀ n < 16, hexValue? (hexDigit n) = some n := by decide
  induction octets with
  | nil => exact ⟨[], .nil⟩
  | cons octet octets ih =>
      obtain ⟨code, hcode⟩ := ih
      have hoctet : octet.toNat < 256 := octet.toNat_lt
      exact ⟨_, .cons (hdigit _ (by omega)) (hdigit _ (by omega)) hcode⟩

theorem exists_written (text : List Char) : ∃ written, Written text written := by
  induction text with
  | nil => exact ⟨[], .nil⟩
  | cons c rest ih =>
      obtain ⟨code, hcode⟩ := exists_octetsWritten (String.utf8EncodeChar c)
      obtain ⟨written, hwritten⟩ := ih
      exact ⟨code ++ written, .octets hcode hwritten⟩

/-! ## What is written -/

/-- Whether a character can come in where a text is written. -/
def isWrittenChar (c : Char) : Bool := c = '%' || isPlain c

theorem isPlain_of_hexValue? {c : Char} {n : Nat} (h : hexValue? c = some n) :
    isPlain c = true := by
  have hsmall : c ≤ 'f' := by
    have hdigit : '9' ≤ 'f' := by decide
    have hupper : 'F' ≤ 'f' := by decide
    rw [hexValue?] at h
    split at h
    next hrange => exact Char.le_trans hrange.2 hdigit
    split at h
    next hrange => exact hrange.2
    split at h
    next hrange => exact Char.le_trans hrange.2 hupper
    cases h
  have hall : ∀ m < 103,
      (hexValue? (Char.ofNat m)).isSome = true → isPlain (Char.ofNat m) = true := by decide
  have hc := hall c.toNat (Nat.lt_succ_of_le (show c.toNat ≤ 'f'.toNat from hsmall))
  rw [Char.ofNat_toNat, h] at hc
  exact hc rfl

theorem isWrittenChar_of_mem_octets {octets : List UInt8} {code : List Char}
    (h : OctetsWritten octets code) : ∀ c ∈ code, isWrittenChar c = true := by
  induction h with
  | nil => exact fun c hc => absurd hc List.not_mem_nil
  | cons hhigh hlow _ ih =>
      simp only [List.forall_mem_cons, isWrittenChar, isPlain_of_hexValue? hhigh,
        isPlain_of_hexValue? hlow, Bool.or_true]
      exact ⟨rfl, trivial, trivial, ih⟩

/-- Nothing that parts a name from a password or ends either comes in. -/
theorem isWrittenChar_of_mem {text written : List Char} (h : Written text written) :
    ∀ c ∈ written, isWrittenChar c = true := by
  induction h with
  | nil => exact fun c hc => absurd hc List.not_mem_nil
  | plain hplain _ ih =>
      rw [List.forall_mem_cons, isWrittenChar, hplain, Bool.or_true]
      exact ⟨rfl, ih⟩
  | octets hcode _ ih =>
      rw [List.forall_mem_append]
      exact ⟨isWrittenChar_of_mem_octets hcode, ih⟩

theorem Written.eq_nil_iff {text written : List Char} (h : Written text written) :
    written = [] ↔ text = [] := by
  cases h with
  | nil => exact Iff.rfl
  | plain _ _ => exact iff_of_false (List.cons_ne_nil _ _) (List.cons_ne_nil _ _)
  | @octets c text code written hcode _ =>
      refine iff_of_false (fun hnil => ?_) (List.cons_ne_nil _ _)
      rw [(List.append_eq_nil_iff.mp hnil).1] at hcode
      have hnone := String.utf8EncodeChar_ne_nil (c := c)
      cases hoctets : String.utf8EncodeChar c with
      | nil => exact hnone hoctets
      | cons octet octets =>
          rw [hoctets] at hcode
          cases hcode

end Percent

end DocSearch
