import DocSearch.Connection.Dsn
import DocSearch.Proofs.Authority
import DocSearch.Proofs.ExactNames

/-!
# Which hosts are reached

The host of a data source name is put into a new URL for the client. Taken apart in its turn, that
URL gives the host and the port back exactly if the host holds no colon and no bracket. An address
that was given in brackets loses them on the way, so no IPv6 address is reached.
-/

namespace DocSearch

open Fallible Text

namespace Url

/-! ## Brackets -/

/-- An opening bracket and a closing one are in an authority together or not at all. -/
theorem mem_iff_of_checkBrackets {authority : List Char} (h : checkBrackets authority = .ok ()) :
    '[' ∈ authority ↔ ']' ∈ authority := by
  have hsame : authority.contains '[' = authority.contains ']' := by
    by_contra hne
    rw [checkBrackets] at h
    rw [if_pos (by simpa using hne)] at h
    cases h
  rw [← List.contains_iff_mem, hsame, List.contains_iff_mem]

theorem checkBrackets_of_notMem {authority : List Char} (hopens : '[' ∉ authority)
    (hcloses : ']' ∉ authority) : checkBrackets authority = .ok () := by
  rw [checkBrackets]
  simp [hopens, hcloses]

/-- Where there are brackets they stand around the host, with nothing before them. -/
theorem exists_cons_of_checkBrackets {authority : List Char} (h : checkBrackets authority = .ok ())
    (hopens : '[' ∈ hostInfo authority) : ∃ rest, hostInfo authority = '[' :: rest := by
  obtain ⟨before, rest, hbefore, hinfo, hcut⟩ :=
    (cut_cases '[' (hostInfo authority)).resolve_left fun hno => hno.1 hopens
  have hauthority : '[' ∈ authority := (snd_cutLast '@' authority).2 _ hopens
  have hcloses := (mem_iff_of_checkBrackets h).mp hauthority
  rw [checkBrackets] at h
  simp only [List.contains_iff_mem.mpr hauthority, List.contains_iff_mem.mpr hcloses,
    bne_self_eq_false, Bool.false_eq_true, if_false, Bool.not_true, bracketed?, hcut] at h
  split at h
  · cases h
  next hclean =>
    rw [not_or, not_not] at hclean
    exact ⟨rest, by rw [hinfo, hclean.1]; rfl⟩

theorem hostInfo_of_notMem {authority : List Char} (h : '@' ∉ authority) :
    hostInfo authority = authority := by
  rw [hostInfo, cutLast_of_notMem h]

theorem hostAndPort_of_notMem {url : Url} (h : '[' ∉ hostInfo url.authority) :
    url.hostAndPort = ((cut ':' (hostInfo url.authority)).1,
      ((cut ':' (hostInfo url.authority)).2).getD []) := by
  rw [hostAndPort]
  simp only [bracketed?, cut_of_notMem h]

theorem hostAndPort_bracketed {url : Url} {rest : List Char}
    (h : hostInfo url.authority = '[' :: rest) : url.hostAndPort.1 = (cut ']' rest).1 := by
  have hcut : cut '[' ('[' :: rest) = ([], some rest) := if_pos rfl
  rw [hostAndPort, h]
  simp only [bracketed?, hcut]

/-! ## Parts of a name -/

/-- A part of a name that is in lower case is so too, unless it stands in the zone. -/
theorem NameStays.of_append {before name after : List Char}
    (h : NameStays (before ++ (name ++ after))) (hbefore : '%' ∉ before) : NameStays name := by
  rw [NameStays, fst_cut] at h ⊢
  have hall : ∀ c ∈ before, decide (c ≠ '%') = true := by
    intro c hc
    simpa using fun heq : c = '%' => hbefore (heq ▸ hc)
  rw [List.takeWhile_append_of_pos hall] at h
  intro c hc
  refine h c (List.mem_append_right _ ?_)
  rw [List.takeWhile_append]
  split
  · exact List.mem_append_left _ (List.takeWhile_subset _ hc)
  · exact hc

/-! ## Hosts that are written again -/

/-- The characters that part the host from what stands around it. -/
def delimiters : List Char := [':', '[', ']']

section
variable {host : List Char} {n : Nat}

/-- The authority that is made of a host and a port. -/
def authorityFor (host : List Char) (n : Nat) : List Char := host ++ ':' :: Nat.toDigits 10 n

theorem isHostChar_of_isDigit {c : Char} (h : c.isDigit = true) : isHostChar c = true := by
  have hdigits : ∀ m < 58, 48 ≤ m → isHostChar (Char.ofNat m) = true := by decide
  have hrange : 48 ≤ c.toNat ∧ c.toNat ≤ 57 := by
    simpa [Char.isDigit, UInt32.le_iff_toNat_le] using h
  have hc := hdigits c.toNat (by omega) hrange.1
  rwa [Char.ofNat_toNat] at hc

theorem isHostChar_of_mem_authorityFor (hhost : ∀ c ∈ host, isHostChar c = true) {c : Char}
    (hc : c ∈ authorityFor host n) : isHostChar c = true := by
  rcases List.mem_append.mp hc with hinHost | hrest
  · exact hhost c hinHost
  · rcases List.mem_cons.mp hrest with rfl | hdigit
    · decide
    · exact isHostChar_of_isDigit (Nat.isDigit_of_mem_toDigits (by decide) (by decide) hdigit)

theorem mem_authorityFor {c : Char} (hcolon : c ≠ ':') (hdigit : c.isDigit = false) :
    c ∈ authorityFor host n ↔ c ∈ host := by
  rw [authorityFor, List.mem_append, List.mem_cons]
  refine or_iff_left fun h => ?_
  rcases h with hc | hc
  · exact hcolon hc
  · rw [Nat.isDigit_of_mem_toDigits (by decide) (by decide) hc] at hdigit
    cases hdigit

theorem hostInfo_authorityFor (hat : '@' ∉ host) :
    hostInfo (authorityFor host n) = authorityFor host n := by
  refine hostInfo_of_notMem ?_
  rw [mem_authorityFor (by decide) (by decide)]
  exact hat

/-- A host without delimiters is read as it was written, and so is the port. -/
theorem read_of_noDelimiters (hdelimiters : ∀ c ∈ host, c ∉ delimiters) (hstays : NameStays host)
    (hat : '@' ∉ host) (hn : n ≤ 65535) (scheme : List Char) :
    checkBrackets (authorityFor host n) = .ok () ∧
      (Url.mk scheme (authorityFor host n)).host = host ∧
      (Url.mk scheme (authorityFor host n)).port? = .ok (some n) := by
  have habsent {c : Char} (hc : c ∈ delimiters) : c ∉ host := fun h => hdelimiters c h hc
  have hopens : '[' ∉ authorityFor host n := by
    rw [mem_authorityFor (by decide) (by decide)]
    exact habsent (by decide)
  have hcloses : ']' ∉ authorityFor host n := by
    rw [mem_authorityFor (by decide) (by decide)]
    exact habsent (by decide)
  have hinfo : hostInfo (authorityFor host n) = authorityFor host n := hostInfo_authorityFor hat
  have hparts : (Url.mk scheme (authorityFor host n)).hostAndPort = (host, Nat.toDigits 10 n) := by
    rw [hostAndPort_of_notMem (by rw [hinfo]; exact hopens), hinfo, authorityFor,
      cut_append_cons (habsent (by decide))]
    rfl
  refine ⟨checkBrackets_of_notMem hopens hcloses, ?_, port?_digits hn (by rw [hparts])⟩
  rw [host_eq_lowerName, hparts]
  exact lowerName_eq_self hstays

/-- Where only a part of a host is read, that part is in lower case as it stands, and so it is not
the host. -/
theorem host_ne_of_part {url : Url} (before name after : List Char)
    (hstays : NameStays (before ++ (name ++ after))) (hbefore : '%' ∉ before) (hafter : after ≠ [])
    (hname : url.hostAndPort.1 = name) : url.host ≠ before ++ (name ++ after) := by
  rw [host_eq_lowerName, hname, lowerName_eq_self (hstays.of_append hbefore)]
  intro heq
  have hlength := congrArg List.length heq
  have hpositive := List.length_pos_iff.mpr hafter
  rw [List.length_append, List.length_append] at hlength
  omega

/-- A host in brackets is read without them. -/
theorem host_ne_of_brackets (hopens : '[' ∈ host) (hcloses : ']' ∈ host) (hstays : NameStays host)
    (hat : '@' ∉ host) (scheme : List Char)
    (hbrackets : checkBrackets (authorityFor host n) = .ok ()) :
    (Url.mk scheme (authorityFor host n)).host ≠ host := by
  have hinfo : hostInfo (authorityFor host n) = authorityFor host n := hostInfo_authorityFor hat
  have hmem : '[' ∈ hostInfo (authorityFor host n) := by
    rw [hinfo, mem_authorityFor (by decide) (by decide)]
    exact hopens
  obtain ⟨rest, hrest⟩ := exists_cons_of_checkBrackets hbrackets hmem
  cases host with
  | nil => cases hopens
  | cons first others =>
      rw [hinfo, authorityFor, List.cons_append] at hrest
      obtain ⟨rfl, rfl⟩ := List.cons.inj hrest
      have hothers : ']' ∈ others := by simpa using hcloses
      obtain ⟨name, after, rfl, hnone⟩ := List.eq_append_cons_of_mem hothers
      refine host_ne_of_part ['['] name (']' :: after) hstays (by decide) (List.cons_ne_nil _ _) ?_
      rw [hostAndPort_bracketed (hinfo.trans hrest), List.append_assoc, List.cons_append,
        cut_append_cons hnone]

/-- Without brackets a host is read up to its first colon. -/
theorem host_ne_of_colon (hcolon : ':' ∈ host) (hopens : '[' ∉ host) (hstays : NameStays host)
    (hat : '@' ∉ host) (scheme : List Char) :
    (Url.mk scheme (authorityFor host n)).host ≠ host := by
  have hinfo : hostInfo (authorityFor host n) = authorityFor host n := hostInfo_authorityFor hat
  have habsent : '[' ∉ hostInfo (authorityFor host n) := by
    rw [hinfo, mem_authorityFor (by decide) (by decide)]
    exact hopens
  obtain ⟨name, after, rfl, hnone⟩ := List.eq_append_cons_of_mem hcolon
  refine host_ne_of_part [] name (':' :: after) hstays List.not_mem_nil (List.cons_ne_nil _ _) ?_
  rw [hostAndPort_of_notMem habsent, hinfo, authorityFor, List.append_assoc, List.cons_append,
    cut_append_cons hnone]

/-- A delimiter in a host is not read again. -/
theorem host_ne_of_delimiter {c : Char} (hc : c ∈ host) (hdelimiter : c ∈ delimiters)
    (hstays : NameStays host) (hat : '@' ∉ host) (scheme : List Char)
    (hbrackets : checkBrackets (authorityFor host n) = .ok ()) :
    (Url.mk scheme (authorityFor host n)).host ≠ host := by
  have hboth : '[' ∈ host ↔ ']' ∈ host := by
    have hiff := mem_iff_of_checkBrackets hbrackets
    rwa [mem_authorityFor (by decide) (by decide), mem_authorityFor (by decide) (by decide)] at hiff
  by_cases hopens : '[' ∈ host
  · exact host_ne_of_brackets hopens (hboth.mp hopens) hstays hat scheme hbrackets
  · simp only [delimiters, List.mem_cons, List.not_mem_nil, or_false] at hdelimiter
    rcases hdelimiter with rfl | rfl | rfl
    · exact host_ne_of_colon hc hopens hstays hat scheme
    · exact absurd hc hopens
    · exact absurd (hboth.mpr hc) hopens

/-- Host and port are read again from the URL that is written for them exactly if the host has no
delimiter. -/
theorem exists_read_iff (hhost : ∀ c ∈ host, isHostChar c = true) (hstays : NameStays host)
    (hn : n ≤ 65535) :
    (∃ url, parse ("http".toList ++ ':' :: '/' :: '/' :: authorityFor host n) = .ok url ∧
      url.scheme = "http".toList ∧ url.host = host ∧ url.port? = .ok (some n)) ↔
      ∀ c ∈ host, c ∉ delimiters := by
  have hchars : ∀ c ∈ authorityFor host n, isHostChar c = true := fun c =>
    isHostChar_of_mem_authorityFor hhost
  have hat : '@' ∉ host := fun hmem => absurd (hhost '@' hmem) (by decide)
  have hplain : ∀ c ∈ authorityFor host n, c ∈ marks → c = '@' := by
    intro c hc hmark
    have hno := hchars c hc
    rw [isHostChar, List.contains_iff_mem.mpr hmark] at hno
    cases hno
  have hlook : checkLookalikes (authorityFor host n) = .ok () := by
    rw [checkLookalikes_eq_ok]
    intro c hc
    have hno := hchars c hc
    rw [isHostChar, Bool.and_eq_true, Bool.not_eq_true'] at hno
    simpa using hno.2
  constructor
  · rintro ⟨url, hparse, -, hsame, -⟩ c hc hdelimiter
    obtain ⟨rfl, hbrackets, -⟩ := (parse_append_eq_ok rfl rfl hplain).mp hparse
    exact host_ne_of_delimiter hc hdelimiter hstays hat _ hbrackets hsame
  · intro hnone
    obtain ⟨hbrackets, hsame, hport⟩ :=
      read_of_noDelimiters hnone hstays hat hn ("http".toList.map Char.toLower)
    exact ⟨_, (parse_append_eq_ok rfl rfl hplain).mpr ⟨rfl, hbrackets, hlook⟩, rfl, hsame, hport⟩

end

/-! ## Hosts with and without brackets -/

/-- Without brackets the host ends before the first colon. -/
theorem noDelimiters_of_notMem {text : List Char} {url : Url} (h : parse text = .ok url)
    (hopens : '[' ∉ text) : ∀ c ∈ url.host, c ∉ delimiters := by
  have hinfo {c : Char} (hc : c ∈ hostInfo url.authority) : c ∈ url.authority :=
    (snd_cutLast '@' url.authority).2 c hc
  have habsent : '[' ∉ url.authority := fun hmem => hopens (of_mem_authority h hmem).1
  have hcloses : ']' ∉ url.authority := by
    rwa [← mem_iff_of_checkBrackets (parse_eq_ok.mp h).2.2.1]
  intro c hc hdelimiter
  have hmark : c ∈ marks ++ ['%', ':', '[', ']'] :=
    List.mem_append_right _ (List.mem_cons_of_mem _ hdelimiter)
  have hname := mem_of_mem_lowerName (unreached_of_mem hmark) hc
  rw [hostAndPort_of_notMem fun hmem => habsent (hinfo hmem)] at hname
  simp only [delimiters, List.mem_cons, List.not_mem_nil, or_false] at hdelimiter
  rcases hdelimiter with rfl | rfl | rfl
  · exact notMem_fst_cut _ _ hname
  · exact habsent (hinfo (mem_of_mem_fst_cut hname))
  · exact hcloses (hinfo (mem_of_mem_fst_cut hname))

theorem colon_mem_of_isIpv6 {name : List Char} (h : Address.isIpv6 name = true) :
    ':' ∈ (cut '%' name).1 := by
  by_contra hno
  rw [Address.isIpv6] at h
  simp only [splitOn_of_notMem hno, List.length_singleton, Bool.and_eq_true, decide_eq_true_eq] at h
  omega

theorem colon_mem_lowerName {name : List Char} (h : ':' ∈ (cut '%' name).1) :
    ':' ∈ lowerName name := by
  have hlower := mem_lower_of_mem ⟨by decide +kernel, by decide, by decide⟩ h
  rw [lowerName]
  rcases cut_cases '%' name with ⟨-, hcut⟩ | ⟨before, after, -, -, hcut⟩
  · rw [hcut] at hlower ⊢
    exact hlower
  · rw [hcut] at hlower ⊢
    exact List.mem_append_left _ hlower

end Url

/-! ## Data source names -/

namespace Dsn

/-- A data source name is a URL under its own scheme. -/
theorem parse_eq_ok {text : String} {dsn : Dsn} :
    parse text = .ok dsn ↔ ∃ url port, Url.parse text.toList = .ok url ∧ url.scheme = scheme ∧
      url.port? = .ok port ∧ dsn = ⟨String.ofList url.host, port, credential url.userInfo.1,
        credential url.userInfo.2⟩ := by
  rw [parse, bind_eq_ok]
  constructor
  · rintro ⟨url, hurl, h⟩
    split at h
    · cases h
    next hscheme =>
      obtain ⟨-, -, h⟩ := bind_eq_ok.mp h
      obtain ⟨port, hport, hdsn⟩ := bind_eq_ok.mp h
      exact ⟨url, port, hurl, not_not.mp hscheme, hport, (Except.ok.inj hdsn).symm⟩
  · rintro ⟨url, port, hurl, hscheme, hport, rfl⟩
    refine ⟨url, hurl, ?_⟩
    rw [if_neg (not_not.mpr hscheme), hport]
    rfl

theorem port_getD_le {text : String} {dsn : Dsn} (h : parse text = .ok dsn) :
    dsn.port.getD defaultPort ≤ 65535 := by
  obtain ⟨url, port, -, -, hport, rfl⟩ := parse_eq_ok.mp h
  cases port with
  | none => exact (by decide : defaultPort ≤ 65535)
  | some n => exact Url.port_le hport

theorem toList_address (dsn : Dsn) : dsn.address.toList = "http".toList ++ ':' :: '/' :: '/' ::
    Url.authorityFor dsn.host.toList (dsn.port.getD defaultPort) := by
  have haddress : dsn.address =
      "http://" ++ dsn.host ++ ":" ++ toString (dsn.port.getD defaultPort) := rfl
  rw [haddress, Nat.toString_eq_ofList_toDigits, Url.authorityFor]
  simp [String.toList_append]

/-- A client that takes the address apart finds the host and the port there, under the scheme of the
client. -/
def Reached (dsn : Dsn) : Prop :=
  ∃ url, Url.parse dsn.address.toList = .ok url ∧ url.scheme = "http".toList ∧
    String.ofList url.host = dsn.host ∧ url.port? = .ok (some (dsn.port.getD defaultPort))

theorem reached_iff {text : String} {dsn : Dsn} (h : parse text = .ok dsn) :
    dsn.Reached ↔ ∀ c ∈ dsn.host.toList, c ∉ Url.delimiters := by
  have hport := port_getD_le h
  obtain ⟨url, port, hurl, -, -, hdsn⟩ := parse_eq_ok.mp h
  have hhost : dsn.host.toList = url.host := by rw [hdsn, String.toList_ofList]
  have hchars : ∀ c ∈ dsn.host.toList, Url.isHostChar c = true := by
    rw [hhost]
    exact fun c => Url.isHostChar_of_mem_host hurl
  have hstays : Url.NameStays dsn.host.toList := by
    rw [hhost]
    exact Url.nameStays_lowerName _
  rw [← Url.exists_read_iff hchars hstays hport, Reached, toList_address]
  simp only [← String.toList_inj, String.toList_ofList]

end Dsn

/-- A client is made with one URL for the host. Taken apart by the same rules, that URL gives the
host and the port of the data source name exactly if the host holds neither a colon nor a bracket. A
name without brackets is of this kind; an IPv6 address never is, for its brackets are not written
again. -/
theorem plain_hosts_are_reached {text : String} {dsn : Dsn} (h : Dsn.parse text = .ok dsn)
    (hhost : dsn.host ≠ "") :
    (∀ given, ∃ config, dsn.choose given = .ok (.new config) ∧ config.host = .text dsn.address) ∧
    (dsn.Reached ↔ ∀ c ∈ dsn.host.toList, c ∉ Url.delimiters) ∧
    ('[' ∉ text.toList → dsn.Reached) ∧
    ∀ url, Url.parse text.toList = .ok url → Address.isIpv6 url.hostAndPort.1 = true →
      ¬ dsn.Reached := by
  obtain ⟨url, port, hurl, -, -, hdsn⟩ := Dsn.parse_eq_ok.mp h
  have hname : dsn.host.toList = url.host := by rw [hdsn, String.toList_ofList]
  refine ⟨fun given => ⟨_, by rw [Dsn.choose, if_neg hhost], rfl⟩, Dsn.reached_iff h, ?_, ?_⟩
  · intro hopens
    rw [Dsn.reached_iff h, hname]
    exact Url.noDelimiters_of_notMem hurl hopens
  · intro url' hurl' hipv6
    obtain rfl := Except.ok.inj (hurl.symm.trans hurl')
    rw [Dsn.reached_iff h, hname]
    have hcolon := Url.colon_mem_lowerName (Url.colon_mem_of_isIpv6 hipv6)
    exact fun hnone => hnone ':' hcolon (by decide)

namespace Sample

theorem pier_is_reached :
    (Dsn.parse "elasticsearch://Pier.Example" = .ok ⟨"pier.example", none, none, none⟩ ∧
      (Dsn.mk "pier.example" none none none).address = "http://pier.example:9200" ∧
      (Dsn.mk "pier.example" none none none).Reached) ∧
    Dsn.parse "elasticsearch://[::1]:9200" = .ok ⟨"::1", some 9200, none, none⟩ ∧
      (Dsn.mk "::1" (some 9200) none none).address = "http://::1:9200" ∧
      ¬ (Dsn.mk "::1" (some 9200) none none).Reached := by
  have hpier :
      Dsn.parse "elasticsearch://Pier.Example" = .ok ⟨"pier.example", none, none, none⟩ := by
    decide +kernel
  have hloopback : Dsn.parse "elasticsearch://[::1]:9200" = .ok ⟨"::1", some 9200, none, none⟩ := by
    decide +kernel
  obtain ⟨-, -, hplain, -⟩ := plain_hosts_are_reached hpier (by decide)
  obtain ⟨-, hiff, -⟩ := plain_hosts_are_reached hloopback (by decide)
  refine ⟨⟨hpier, by decide +kernel, hplain (by decide)⟩, hloopback, by decide +kernel, ?_⟩
  rw [hiff]
  intro hnone
  have hcolon : ':' ∈ (Dsn.mk "::1" (some 9200) none none).host.toList := by decide
  exact hnone ':' hcolon (by decide)

end Sample

end DocSearch
