import DocSearch.Connection.Url
import DocSearch.Proofs.Fallible
import DocSearch.Proofs.Lowercase
import Mathlib.Data.List.TakeWhile

/-!
# The authority of a URL

What cutting at a separator gives, which characters can stand in the host of a URL that was taken
apart, and how a URL is taken apart that was put together from a scheme and an authority.
-/

namespace DocSearch

open Fallible Text

/-! ## Cutting -/

namespace Text
variable {sep : Char}

theorem cut_of_notMem {text : List Char} (h : sep ∉ text) : cut sep text = (text, none) := by
  induction text with
  | nil => rfl
  | cons c rest ih =>
      rw [List.mem_cons, not_or] at h
      rw [cut, if_neg (Ne.symm h.1), ih h.2]

theorem cut_append_cons {before : List Char} (h : sep ∉ before) (after : List Char) :
    cut sep (before ++ sep :: after) = (before, some after) := by
  induction before with
  | nil => exact if_pos rfl
  | cons c rest ih =>
      rw [List.mem_cons, not_or] at h
      rw [List.cons_append, cut, if_neg (Ne.symm h.1), ih h.2]

/-- Either there is no separator or the text is cut at the first one. -/
theorem cut_cases (sep : Char) (text : List Char) :
    (sep ∉ text ∧ cut sep text = (text, none)) ∨ ∃ before after, sep ∉ before ∧
      text = before ++ sep :: after ∧ cut sep text = (before, some after) := by
  by_cases h : sep ∈ text
  · obtain ⟨before, after, rfl, hbefore⟩ := List.eq_append_cons_of_mem h
    exact .inr ⟨before, after, hbefore, rfl, cut_append_cons hbefore after⟩
  · exact .inl ⟨h, cut_of_notMem h⟩

/-- The text before the first separator. -/
theorem fst_cut (sep : Char) (text : List Char) : (cut sep text).1 = text.takeWhile (· ≠ sep) := by
  induction text with
  | nil => rfl
  | cons c rest ih =>
      rw [cut]
      by_cases hc : c = sep
      · rw [if_pos hc, List.takeWhile_cons_of_neg (by simpa using hc)]
      · rw [if_neg hc, List.takeWhile_cons_of_pos (by simpa using hc), ← ih]

theorem notMem_fst_cut (sep : Char) (text : List Char) : sep ∉ (cut sep text).1 := by
  rcases cut_cases sep text with ⟨h, hcut⟩ | ⟨before, after, h, -, hcut⟩
  · rwa [hcut]
  · rwa [hcut]

theorem mem_of_mem_fst_cut {text : List Char} {c : Char} (h : c ∈ (cut sep text).1) : c ∈ text := by
  rw [fst_cut] at h
  exact (List.takeWhile_subset _) h

theorem mem_of_mem_snd_cut {text after : List Char} (hcut : (cut sep text).2 = some after)
    {c : Char} (h : c ∈ after) : c ∈ text := by
  rcases cut_cases sep text with ⟨-, hnone⟩ | ⟨before, after', -, rfl, hsome⟩
  · rw [hnone] at hcut
    cases hcut
  · rw [hsome] at hcut
    obtain rfl := Option.some.inj hcut
    exact List.mem_append_right _ (List.mem_cons_of_mem _ h)

theorem cutLast_of_notMem {text : List Char} (h : sep ∉ text) :
    cutLast sep text = (none, text) := by
  induction text with
  | nil => rfl
  | cons c rest ih =>
      rw [List.mem_cons, not_or] at h
      rw [cutLast, ih h.2]
      exact if_neg (Ne.symm h.1)

/-- What stands behind the last separator is a part of the text without a separator. -/
theorem snd_cutLast (sep : Char) (text : List Char) :
    sep ∉ (cutLast sep text).2 ∧ ∀ c ∈ (cutLast sep text).2, c ∈ text := by
  induction text with
  | nil => exact ⟨List.not_mem_nil, fun c h => h⟩
  | cons d rest ih =>
      rw [cutLast]
      generalize cutLast sep rest = cutRest at ih ⊢
      obtain ⟨hsep, hsub⟩ := ih
      obtain ⟨_ | before, after⟩ := cutRest
      · dsimp only at hsep hsub ⊢
        split
        · exact ⟨hsep, fun c h => List.mem_cons_of_mem _ (hsub c h)⟩
        next hd =>
          refine ⟨?_, fun c h => ?_⟩
          · rw [List.mem_cons, not_or]
            exact ⟨Ne.symm hd, hsep⟩
          · rcases List.mem_cons.mp h with rfl | hrest
            · exact List.mem_cons_self
            · exact List.mem_cons_of_mem _ (hsub c hrest)
      · exact ⟨hsep, fun c h => List.mem_cons_of_mem _ (hsub c h)⟩

theorem ofDigits_toDigits (n : Nat) :
    ofDigits ((Nat.toDigits 10 n).map fun c => c.toNat - '0'.toNat) = n := by
  have hback := Nat.ofDigitChars_ten_toDigits (n := n)
  rw [Nat.ofDigitChars_eq_foldl] at hback
  rw [ofDigits, List.foldl_map]
  simpa only [Nat.mul_comm] using hback

end Text

/-! ## Characters of hosts -/

namespace Url

/-- The characters at which an authority ends or is cut, and those that are dropped. -/
def marks : List Char := ['/', '?', '#', '@', '\t', '\n', '\r']

/-- Whether a character can stand in a host. -/
def isHostChar (c : Char) : Bool := !marks.contains c && !lookalikes.contains c.toNat

theorem checkLookalikes_eq_ok {authority : List Char} :
    checkLookalikes authority = .ok () ↔ ∀ c ∈ authority, lookalikes.contains c.toNat = false := by
  rw [checkLookalikes]
  split
  next h =>
    refine iff_of_false (by simp) fun hall => ?_
    obtain ⟨c, hc, hlook⟩ := List.any_eq_true.mp h
    rw [hall c hc] at hlook
    cases hlook
  next h =>
    refine iff_of_true rfl fun c hc => ?_
    simpa using fun hlook => h (List.any_eq_true.mpr ⟨c, hc, hlook⟩)

theorem parse_eq_ok {text : List Char} {url : Url} :
    parse text = .ok url ↔ url.scheme = (splitScheme (clean text)).1 ∧
      url.authority = authorityOf (splitScheme (clean text)).2 ∧
      checkBrackets url.authority = .ok () ∧ checkLookalikes url.authority = .ok () := by
  obtain ⟨scheme, authority⟩ := url
  rw [parse]
  simp only [bind_eq_ok, pure_eq_ok, Except.ok.injEq, Url.mk.injEq]
  constructor
  · rintro ⟨⟨⟩, hbrackets, ⟨⟩, hlook, rfl, rfl⟩
    exact ⟨rfl, rfl, hbrackets, hlook⟩
  · rintro ⟨rfl, rfl, hbrackets, hlook⟩
    exact ⟨(), hbrackets, (), hlook, rfl, rfl⟩

theorem mem_of_mem_splitScheme {text : List Char} {c : Char} (h : c ∈ (splitScheme text).2) :
    c ∈ text := by
  rw [splitScheme] at h
  split at h
  next before rest hcut =>
    split at h
    · exact mem_of_mem_snd_cut (by rw [hcut]) h
    · exact h
  next => exact h

theorem of_mem_authorityOf {text : List Char} {c : Char} (h : c ∈ authorityOf text) :
    c ∈ text ∧ c ∉ ['/', '?', '#'] := by
  rw [authorityOf.eq_def] at h
  split at h
  next rest =>
    refine ⟨?_, by simpa [and_assoc] using List.mem_takeWhile_imp h⟩
    exact List.mem_cons_of_mem _ (List.mem_cons_of_mem _ (List.takeWhile_subset _ h))
  next => cases h

theorem of_mem_clean {text : List Char} {c : Char} (h : c ∈ clean text) :
    c ∈ text ∧ c ∉ ['\t', '\n', '\r'] := by
  rw [clean, List.mem_filter] at h
  exact ⟨(List.dropWhile_suffix _).subset h.1, by simpa [and_assoc] using h.2⟩

/-- An authority is a part of its URL that has no delimiter in it. -/
theorem of_mem_authority {text : List Char} {url : Url} (h : parse text = .ok url) {c : Char}
    (hc : c ∈ url.authority) : c ∈ text ∧ c ∉ ['/', '?', '#'] ∧ c ∉ ['\t', '\n', '\r'] := by
  rw [(parse_eq_ok.mp h).2.1] at hc
  obtain ⟨hrest, hdelimiters⟩ := of_mem_authorityOf hc
  obtain ⟨htext, hdropped⟩ := of_mem_clean (mem_of_mem_splitScheme hrest)
  exact ⟨htext, hdelimiters, hdropped⟩

/-- Behind the user information the authority of a URL has only characters of hosts. -/
theorem isHostChar_of_mem_hostInfo {text : List Char} {url : Url} (h : parse text = .ok url)
    {c : Char} (hc : c ∈ hostInfo url.authority) : isHostChar c = true := by
  obtain ⟨hat, hsub⟩ := snd_cutLast '@' url.authority
  have hplain := checkLookalikes_eq_ok.mp (parse_eq_ok.mp h).2.2.2 c (hsub c hc)
  obtain ⟨-, hdelimiters, hdropped⟩ := of_mem_authority h (hsub c hc)
  have hne : c ≠ '@' := by
    intro heq
    rw [heq] at hc
    exact hat hc
  rw [isHostChar, hplain]
  simp only [List.mem_cons, List.not_mem_nil, or_false, not_or] at hdelimiters hdropped
  simp [marks, hdelimiters, hdropped, hne]

/-- The host and the port stand behind the user information. -/
theorem mem_hostInfo_of_mem_host {url : Url} {c : Char} (h : c ∈ url.hostAndPort.1) :
    c ∈ hostInfo url.authority := by
  rw [hostAndPort] at h
  simp only [bracketed?] at h
  split at h
  next b hb =>
    split at hb
    next before rest hcut =>
      obtain rfl := Option.some.inj hb
      exact mem_of_mem_snd_cut (by rw [hcut]) (mem_of_mem_fst_cut h)
    next => cases hb
  next => exact mem_of_mem_fst_cut h

/-! ## Hosts in lower case -/

/-- A name in lower case, but for the zone behind a percent sign. -/
def lowerName (name : List Char) : List Char :=
  match cut '%' name with
  | (name, some zone) => lower name ++ '%' :: zone
  | (name, none) => lower name

theorem host_eq_lowerName (url : Url) : url.host = lowerName url.hostAndPort.1 := rfl

/-- Whether a name is in lower case already. -/
def NameStays (name : List Char) : Prop := ∀ c ∈ (cut '%' name).1, LowerStays c

theorem lowerName_eq_self {name : List Char} (h : NameStays name) : lowerName name = name := by
  rw [NameStays] at h
  rw [lowerName]
  rcases cut_cases '%' name with ⟨-, hcut⟩ | ⟨before, after, -, hname, hcut⟩
  · rw [hcut] at h ⊢
    exact lower_eq_self h
  · rw [hcut] at h ⊢
    rw [hname]
    exact congrArg (· ++ '%' :: after) (lower_eq_self h)

/-- None of the characters that text is cut at comes from another one. -/
theorem unreached_marks : (marks ++ ['%', ':', '[', ']']).all unreached = true := by
  decide +kernel

theorem unreached_lookalikes : (lookalikes.map Char.ofNat).all unreached = true := by
  decide +kernel

theorem unreached_of_mem {c : Char} (h : c ∈ marks ++ ['%', ':', '[', ']']) :
    unreached c = true :=
  List.all_eq_true.mp unreached_marks c h

theorem nameStays_lowerName (name : List Char) : NameStays (lowerName name) := by
  have hlower (text : List Char) : NameStays (lower text) := fun c hc =>
    lowerStays_of_mem_lower (mem_of_mem_fst_cut hc)
  rw [lowerName]
  rcases cut_cases '%' name with ⟨-, hcut⟩ | ⟨before, after, hpercent, -, hcut⟩
  · rw [hcut]
    exact hlower name
  · have habsent : '%' ∉ lower before := fun h => hpercent (mem_of_mem_lower (by decide +kernel) h)
    rw [hcut]
    simp only [NameStays, cut_append_cons habsent]
    exact fun c => lowerStays_of_mem_lower

theorem mem_of_mem_lowerName {name : List Char} {c : Char} (hc : unreached c = true)
    (h : c ∈ lowerName name) : c ∈ name := by
  rw [lowerName] at h
  rcases cut_cases '%' name with ⟨-, hcut⟩ | ⟨before, after, -, rfl, hcut⟩
  · rw [hcut] at h
    exact mem_of_mem_lower hc h
  · rw [hcut] at h
    rcases List.mem_append.mp h with hbefore | hafter
    · exact List.mem_append_left _ (mem_of_mem_lower hc hbefore)
    · exact List.mem_append_right _ hafter

theorem isHostChar_of_mem_host {text : List Char} {url : Url} (h : parse text = .ok url) {c : Char}
    (hc : c ∈ url.host) : isHostChar c = true := by
  by_contra hno
  have hunreached : unreached c = true := by
    simp only [isHostChar, Bool.and_eq_true, Bool.not_eq_true', not_and_or, Bool.not_eq_false,
      List.contains_iff_mem] at hno
    rcases hno with hmark | hlook
    · exact unreached_of_mem (List.mem_append_left _ hmark)
    · refine List.all_eq_true.mp unreached_lookalikes c (List.mem_map.mpr ⟨_, hlook, ?_⟩)
      exact Char.ofNat_toNat c
  have hmem := mem_hostInfo_of_mem_host (mem_of_mem_lowerName hunreached hc)
  exact hno (isHostChar_of_mem_hostInfo h hmem)

/-! ## URLs put together -/

theorem lt_of_isSchemeChar {c : Char} (h : isSchemeChar c = true) : 0x20 < c.toNat := by
  by_contra hle
  have hnone : ∀ n < 0x21, isSchemeChar (Char.ofNat n) = false := by decide
  have hc := hnone c.toNat (by omega)
  rw [Char.ofNat_toNat, h] at hc
  cases hc

theorem clean_eq_self {first : Char} {rest : List Char} (hfirst : 0x20 < first.toNat)
    (h : ∀ c ∈ first :: rest, c ∉ ['\t', '\n', '\r']) : clean (first :: rest) = first :: rest := by
  rw [clean, List.dropWhile_cons_of_neg (by simpa using hfirst), List.filter_eq_self]
  intro c hc
  simpa [and_assoc] using h c hc

/-- A scheme and an authority are found again where a URL is put together from them. -/
theorem parse_append_eq_ok {scheme authority : List Char}
    (hletter : (scheme.head?.map Char.isAlpha).getD false = true)
    (hscheme : scheme.all isSchemeChar = true) (hplain : ∀ c ∈ authority, c ∈ marks → c = '@')
    {url : Url} :
    parse (scheme ++ ':' :: '/' :: '/' :: authority) = .ok url ↔
      url = ⟨scheme.map Char.toLower, authority⟩ ∧ checkBrackets authority = .ok () ∧
        checkLookalikes authority = .ok () := by
  have hchars := List.all_eq_true.mp hscheme
  have hkept : ∀ c ∈ scheme ++ ':' :: '/' :: '/' :: authority, c ∉ ['\t', '\n', '\r'] := by
    intro c hc hdropped
    have hmark : c ∈ marks ∧ c.toNat ≤ 0x20 ∧ c ∉ [':', '/', '@'] := by
      simp only [List.mem_cons, List.not_mem_nil, or_false] at hdropped
      rcases hdropped with rfl | rfl | rfl <;> decide
    obtain ⟨hmark, hsmall, hother⟩ := hmark
    simp only [List.mem_append, List.mem_cons, List.not_mem_nil, or_false, not_or] at hc hother
    rcases hc with hinScheme | hcolon | hslash | hslash | hinAuthority
    · have hlarge := lt_of_isSchemeChar (hchars c hinScheme)
      omega
    · exact hother.1 hcolon
    · exact hother.2.1 hslash
    · exact hother.2.1 hslash
    · exact hother.2.2 (hplain c hinAuthority hmark)
  have hclean : clean (scheme ++ ':' :: '/' :: '/' :: authority) =
      scheme ++ ':' :: '/' :: '/' :: authority := by
    cases scheme with
    | nil => cases hletter
    | cons first rest =>
        exact clean_eq_self (lt_of_isSchemeChar (hchars first List.mem_cons_self)) hkept
  have hsplit : splitScheme (scheme ++ ':' :: '/' :: '/' :: authority) =
      (scheme.map Char.toLower, '/' :: '/' :: authority) := by
    have hcolon : ':' ∉ scheme := fun h => absurd (hchars ':' h) (by decide)
    rw [splitScheme, cut_append_cons hcolon]
    simp only [hletter, hscheme, Bool.and_self, if_true]
  have hauthority : authorityOf ('/' :: '/' :: authority) = authority := by
    rw [authorityOf, List.takeWhile_eq_self_iff]
    intro c hc
    suffices c ∉ ['/', '?', '#'] by simpa [and_assoc] using this
    intro hend
    have hmark : c ∈ marks ∧ c ≠ '@' := by
      simp only [List.mem_cons, List.not_mem_nil, or_false] at hend
      rcases hend with rfl | rfl | rfl <;> decide
    exact hmark.2 (hplain c hc hmark.1)
  obtain ⟨scheme', authority'⟩ := url
  rw [parse_eq_ok, hclean, hsplit, hauthority, Url.mk.injEq]
  dsimp only
  constructor
  · rintro ⟨hsame, rfl, hbrackets, hlook⟩
    exact ⟨⟨hsame, rfl⟩, hbrackets, hlook⟩
  · rintro ⟨⟨hsame, rfl⟩, hbrackets, hlook⟩
    exact ⟨hsame, rfl, hbrackets, hlook⟩

/-- The digits of a port are read as that port. -/
theorem port?_digits {url : Url} {n : Nat} (hn : n ≤ 65535)
    (h : url.hostAndPort.2 = Nat.toDigits 10 n) : url.port? = .ok (some n) := by
  have hdigits : (Nat.toDigits 10 n).all Char.isDigit = true :=
    List.all_eq_true.mpr fun c => Nat.isDigit_of_mem_toDigits (by decide) (by decide)
  have hlength : ¬ digitLimit < (Nat.toDigits 10 n).length := by
    have hfive : (Nat.toDigits 10 n).length ≤ 5 :=
      (Nat.length_toDigits_le_iff (by decide) (by decide)).mpr (by omega)
    rw [digitLimit]
    omega
  rw [port?, h, if_neg Nat.toDigits_ne_nil, if_pos hdigits, if_neg hlength, ofDigits_toDigits,
    if_pos hn]

theorem port_le {url : Url} {n : Nat} (h : url.port? = .ok (some n)) : n ≤ 65535 := by
  rw [port?] at h
  split at h
  · cases h
  · split at h
    · split at h
      · cases h
      · dsimp only at h
        split at h
        · cases h
          assumption
        · cases h
    · cases h

end Url

end DocSearch
