import DocSearch.Proofs.Conformance

/-!
# Conversions there and back

Two conversions that undo each other on points undo each other on documents of any schema, and
where they do not on points, a document comes back changed as soon as it holds one. Both directions
and both outcomes are one induction over the schema: `good` stands for whether a point comes back as
it was.
-/

namespace DocSearch

open Fallible

variable {there back : Value → Except Error Value}

/-! ## What a conversion of members yields -/

section
variable {point : Value → Except Error Value} {fields : List (String × Field)}
variable {members out : Members}

theorem convertFields_of_absent {key : String} {f : Field} {rest : List (String × Field)}
    (h : members.lookup key = none) :
    convertFields point ((key, f) :: rest) (.object members) =
      convertFields point rest (.object members) := by
  rw [convertFields, Value.member?, h]
  rfl

theorem convertFields_of_present {key : String} {f : Field} {rest : List (String × Field)}
    {slot : Value} (h : members.lookup key = some slot) :
    convertFields point ((key, f) :: rest) (.object members) = (do
      let converted ← convertSlot f.multiple (f.convert point) slot
      let others ← convertFields point rest (.object members)
      return (key, converted) :: others) := by
  rw [convertFields, Value.member?, h]
  rfl

/-- Members are converted if every declared one that is there can be. -/
theorem exists_convertFields (h : ∀ e ∈ fields, ∀ slot, members.lookup e.1 = some slot →
      ∃ w, convertSlot e.2.multiple (e.2.convert point) slot = .ok w) :
    ∃ out, convertFields point fields (.object members) = .ok out := by
  induction fields with
  | nil => exact ⟨[], rfl⟩
  | cons e rest ih =>
      obtain ⟨key, f⟩ := e
      rw [List.forall_mem_cons] at h
      obtain ⟨others, hothers⟩ := ih h.2
      cases hl : members.lookup key with
      | none => exact ⟨others, (convertFields_of_absent hl).trans hothers⟩
      | some slot =>
          obtain ⟨w, hw⟩ := h.1 slot hl
          refine ⟨(key, w) :: others, ?_⟩
          rw [convertFields_of_present hl, hw, hothers]
          rfl

/-- The declared keys that are there stay, in order of declaration. -/
theorem keys_convertFields (h : convertFields point fields (.object members) = .ok out) :
    out.map Prod.fst = (fields.map Prod.fst).filter fun key => (members.lookup key).isSome := by
  induction fields generalizing out with
  | nil =>
      have hinj := Except.ok.inj h
      subst hinj
      rfl
  | cons e rest ih =>
      obtain ⟨key, f⟩ := e
      cases hl : members.lookup key with
      | none =>
          rw [convertFields_of_absent hl] at h
          rw [List.map_cons, List.filter_cons_of_neg (by simp [hl]), ih h]
      | some slot =>
          rw [convertFields_of_present hl] at h
          obtain ⟨w, -, hrest⟩ := bind_eq_ok.mp h
          obtain ⟨others, hothers, hout⟩ := bind_eq_ok.mp hrest
          have hinj := Except.ok.inj hout
          subst hinj
          rw [List.map_cons, List.map_cons, List.filter_cons_of_pos (by simp [hl]), ih hothers]

theorem mem_keys_convertFields (h : convertFields point fields (.object members) = .ok out)
    {key : String} :
    key ∈ out.map Prod.fst ↔ key ∈ fields.map Prod.fst ∧ key ∈ members.map Prod.fst := by
  rw [keys_convertFields h, List.mem_filter, Option.isSome_iff_exists]
  exact and_congr_right fun _ => Keyed.mem_keys_iff_exists_lookup.symm

theorem distinct_convertFields (h : convertFields point fields (.object members) = .ok out)
    (hd : Keyed.Distinct fields) : Keyed.Distinct out := by
  rw [Keyed.Distinct, keys_convertFields h]
  exact hd.sublist List.filter_sublist

/-- Every declared member that is there has been converted by its own field. -/
theorem lookup_convertFields (h : convertFields point fields (.object members) = .ok out)
    (hd : Keyed.Distinct fields) {key : String} {f : Field} (hf : (key, f) ∈ fields)
    {slot w : Value} (hslot : members.lookup key = some slot)
    (hw : convertSlot f.multiple (f.convert point) slot = .ok w) : out.lookup key = some w := by
  induction fields generalizing out with
  | nil => cases hf
  | cons e rest ih =>
      obtain ⟨k, g⟩ := e
      rw [Keyed.Distinct, List.map_cons, List.nodup_cons] at hd
      rcases List.mem_cons.mp hf with heq | hrest
      · obtain ⟨rfl, rfl⟩ := Prod.mk.inj heq
        rw [convertFields_of_present hslot, hw, ok_bind] at h
        obtain ⟨others, -, hout⟩ := bind_eq_ok.mp h
        rw [← Except.ok.inj hout, List.lookup_cons_self]
      · have hne : key ≠ k := by
          intro hkey
          subst hkey
          exact hd.1 (List.mem_map.mpr ⟨(key, f), hrest, rfl⟩)
        cases hl : members.lookup k with
        | none =>
            rw [convertFields_of_absent hl] at h
            exact ih h hd.2 hrest
        | some other =>
            rw [convertFields_of_present hl] at h
            obtain ⟨u, -, htail⟩ := bind_eq_ok.mp h
            obtain ⟨others, hothers, hout⟩ := bind_eq_ok.mp htail
            rw [← Except.ok.inj hout, Keyed.lookup_cons_eq, if_neg hne]
            exact ih hothers hd.2 hrest

end

/-! ## Slots there and back -/

/-- A conversion keeps proper values proper and another one brings each of them back; what comes
back is the same value exactly if it has nothing to it that is `lost`, unless all is `good`. -/
def Returns (there back : Value → Except Error Value) (good : Prop) (P lost : Value → Prop) :
    Prop :=
  ∀ v, v ≠ .null → P v → ∃ w v', there v = .ok w ∧ back w = .ok v' ∧ w ≠ .null ∧
    (v.Same v' ↔ (lost v → good))

section
variable {good : Prop} {P lost : Value → Prop}

theorem keepNull_of_ne_null {convert : Value → Except Error Value} {v : Value} (h : v ≠ .null) :
    keepNull convert v = convert v := by
  cases v <;> first | rfl | exact absurd rfl h

theorem Returns.item (h : Returns there back good P lost) {v : Value} (hv : v ≠ .null → P v) :
    ∃ w v', keepNull there v = .ok w ∧ keepNull back w = .ok v' ∧
      (v.Same v' ↔ (v ≠ .null ∧ lost v → good)) := by
  by_cases hn : v = .null
  · subst hn
    exact ⟨.null, .null, rfl, rfl, fun _ hl => absurd rfl hl.1, fun _ => .refl _⟩
  · obtain ⟨w, v', hw, hv', hwn, hsame⟩ := h v hn (hv hn)
    refine ⟨w, v', ?_, ?_, ?_⟩
    · rw [keepNull_of_ne_null hn, hw]
    · rw [keepNull_of_ne_null hwn, hv']
    · rw [hsame]
      exact ⟨fun hg hl => hg hl.2, fun hg hl => hg ⟨hn, hl⟩⟩

theorem Returns.items (h : Returns there back good P lost) {xs : List Value}
    (hxs : ∀ v ∈ xs, v ≠ .null → P v) :
    ∃ ys zs, xs.mapM (keepNull there) = .ok ys ∧ ys.mapM (keepNull back) = .ok zs ∧
      (List.Forall₂ Value.Same xs zs ↔ ((∃ v ∈ xs, v ≠ .null ∧ lost v) → good)) := by
  induction xs with
  | nil => exact ⟨[], [], rfl, rfl, by simp⟩
  | cons x xs ih =>
      rw [List.forall_mem_cons] at hxs
      obtain ⟨y, z, hy, hz, hsame⟩ := h.item hxs.1
      obtain ⟨ys, zs, hys, hzs, hsames⟩ := ih hxs.2
      refine ⟨y :: ys, z :: zs, ?_, ?_, ?_⟩
      · rw [List.mapM_cons, hy, hys]
        rfl
      · rw [List.mapM_cons, hz, hzs]
        rfl
      · rw [List.forall₂_cons, hsame, hsames, List.exists_mem_cons_iff, or_imp]

theorem Returns.slot (h : Returns there back good P lost) {multiple : Bool} {slot : Value}
    (hslot : SlotOf multiple P slot) :
    ∃ w slot', convertSlot multiple there slot = .ok w ∧ convertSlot multiple back w = .ok slot' ∧
      (slot.Same slot' ↔ ((∃ v, Within multiple v slot ∧ lost v) → good)) := by
  obtain ⟨hshape, hproper⟩ := hslot
  cases multiple with
  | false =>
      have hv : slot ≠ .null → P slot := fun hn => hproper slot ⟨hn, rfl⟩
      rw [exists_within_single]
      exact h.item hv
  | true =>
      rcases hshape rfl with rfl | ⟨xs, rfl⟩
      · refine ⟨.null, .null, rfl, rfl, fun _ hlost => ?_, fun _ => .refl _⟩
        rcases hlost with ⟨v, hwithin, -⟩
        exact absurd hwithin not_within_null
      · have hxs : ∀ v ∈ xs, v ≠ .null → P v := fun v hv hn => hproper v ⟨hn, xs, rfl, hv⟩
        obtain ⟨ys, zs, hys, hzs, hsame⟩ := h.items hxs
        refine ⟨.list ys, .list zs, ?_, ?_, ?_⟩
        · rw [convertSlot, keepNull_of_ne_null (by simp)]
          simp only [if_true, Value.items, ok_bind, hys, pure_eq_ok]
        · rw [convertSlot, keepNull_of_ne_null (by simp)]
          simp only [if_true, Value.items, ok_bind, hzs, pure_eq_ok]
        · rw [Value.Same.list_iff, exists_within_list]
          exact hsame

end

/-! ## Fields there and back -/

section
variable {there back : Value → Except Error Value} {good : Prop} {P : Value → Prop}

variable {fields : List (String × Field)}

/-- Every field returns its values. -/
def MembersReturn (there back : Value → Except Error Value) (good : Prop) (P : Value → Prop)
    (fields : List (String × Field)) : Prop :=
  ∀ e ∈ fields,
    Returns (e.2.convert there) (e.2.convert back) good (e.2.Conforms P) e.2.HoldsPoint

/-- Members that fit are converted and brought back, slot by slot. -/
theorem MembersReturn.slots (h : MembersReturn there back good P fields)
    (hd : Keyed.Distinct fields) {members : Members} (hfit : MembersConform P fields members) :
    ∃ out home, convertFields there fields (.object members) = .ok out ∧
      convertFields back fields (.object out) = .ok home ∧
      ∀ e ∈ fields, ∀ slot, members.lookup e.1 = some slot → ∃ slot', home.lookup e.1 = some slot' ∧
        (slot.Same slot' ↔ ((∃ v, Within e.2.multiple v slot ∧ e.2.HoldsPoint v) → good)) := by
  rw [membersConform_iff] at hfit
  have hslots := fun e he slot hslot => (h e he).slot (hfit e he slot hslot)
  obtain ⟨out, hout⟩ : ∃ out, convertFields there fields (.object members) = .ok out := by
    refine exists_convertFields fun e he slot hslot => ?_
    obtain ⟨w, -, hw, -⟩ := hslots e he slot hslot
    exact ⟨w, hw⟩
  -- a member of the wire form comes from a slot of the document, so it can be brought back
  have hback : ∀ e ∈ fields, ∀ w, out.lookup e.1 = some w →
      ∃ slot', convertSlot e.2.multiple (e.2.convert back) w = .ok slot' := by
    intro e he w hw
    have hkey : e.1 ∈ out.map Prod.fst := Keyed.mem_keys_iff_exists_lookup.mpr ⟨w, hw⟩
    obtain ⟨slot, hslot⟩ := Keyed.mem_keys_iff_exists_lookup.mp
      ((mem_keys_convertFields hout).mp hkey).2
    obtain ⟨u, slot', hu, hslot', -⟩ := hslots e he slot hslot
    have hlookup := lookup_convertFields hout hd he hslot hu
    have hsame := Option.some.inj (hlookup.symm.trans hw)
    subst hsame
    exact ⟨slot', hslot'⟩
  obtain ⟨home, hhome⟩ := exists_convertFields hback
  refine ⟨out, home, hout, hhome, ?_⟩
  intro e he slot hslot
  obtain ⟨u, slot', hu, hslot', hsame⟩ := hslots e he slot hslot
  have hlookup := lookup_convertFields hout hd he hslot hu
  exact ⟨slot', lookup_convertFields hhome hd he hlookup hslot', hsame⟩

/-- If every field returns its values, an object with these fields comes back, and it comes back as
it was exactly if it holds nothing that is lost. -/
theorem MembersReturn.objects (h : MembersReturn there back good P fields)
    (hd : Keyed.Distinct fields) {v : Value} (hv : ObjectOf fields (MembersConform P fields) v) :
    ∃ out home, convertFields there fields v = .ok out ∧
      convertFields back fields (.object out) = .ok home ∧
      (v.Same (.object home) ↔ (MembersHoldPoint fields v → good)) := by
  obtain ⟨members, rfl, hdistinct, hdeclared, hfit⟩ := hv
  obtain ⟨out, home, hout, hhome, hslots⟩ := h.slots hd hfit
  refine ⟨out, home, hout, hhome, ?_⟩
  have hkeys : (members.map Prod.fst).Perm (home.map Prod.fst) := by
    refine (List.perm_ext_iff_of_nodup hdistinct (distinct_convertFields hhome hd)).mpr ?_
    intro key
    rw [mem_keys_convertFields hhome, mem_keys_convertFields hout]
    exact ⟨fun hk => ⟨hdeclared key hk, hdeclared key hk, hk⟩, fun hk => hk.2.2⟩
  rw [membersHoldPoint_iff]
  constructor
  · rintro hsame ⟨e, he, slot, hslot, hheld⟩
    obtain ⟨slot', hslot', hiff⟩ := hslots e he slot hslot
    exact hiff.mp (hsame.lookup hslot hslot') hheld
  · intro hgood
    refine .object hkeys fun key slot slot' hslot hslot' => ?_
    obtain ⟨e, he, rfl⟩ := List.mem_map.mp
      (hdeclared key (Keyed.mem_keys_iff_exists_lookup.mpr ⟨slot, hslot⟩))
    obtain ⟨s, hs, hiff⟩ := hslots e he slot hslot
    have hinj := Option.some.inj (hs.symm.trans hslot')
    subst hinj
    exact hiff.mpr fun hheld => hgood ⟨e, he, slot, hslot, hheld⟩

mutual

/-- If points return, so do the values of every field. -/
theorem Field.returns (hpoint : Returns there back good P fun _ => True) :
    (f : Field) → f.Settled →
      Returns (f.convert there) (f.convert back) good (f.Conforms P) f.HoldsPoint
  | .leaf kind _, _ => by
      intro v hn hv
      cases kind with
      | geoPoint => exact hpoint v hn hv
      | base | identifier | text | integer | float | boolean | dateTime =>
          exact ⟨v, v, rfl, rfl, hn, fun _ hl => hl.elim, fun _ => .refl v⟩
  | .object _ fields, hs => by
      intro v _ hv
      obtain ⟨hd, hsettled⟩ := hs
      obtain ⟨out, home, hout, hhome, hsame⟩ :=
        MembersReturn.objects (membersReturn hpoint fields hsettled) hd hv
      refine ⟨.object out, .object home, ?_, ?_, by simp, hsame⟩
      · rw [Field.convert, hout]
        rfl
      · rw [Field.convert, hhome]
        rfl

theorem membersReturn (hpoint : Returns there back good P fun _ => True) :
    (fields : List (String × Field)) → AllSettled fields →
      MembersReturn there back good P fields
  | [], _ => by
      intro e he
      cases he
  | (_, f) :: rest, hs => by
      intro e he
      rcases List.mem_cons.mp he with rfl | hrest
      · exact Field.returns hpoint f hs.1
      · exact membersReturn hpoint rest hs.2 e hrest

end

/-- If points return, so do the documents of every schema. -/
theorem Schema.returns (schema : Schema) (hpoint : Returns there back good P fun _ => True)
    {document : Value} (hfit : schema.Conforms P document) :
    ∃ out home, convertFields there schema.fields document = .ok out ∧
      convertFields back schema.fields (.object out) = .ok home ∧
      (document.Same (.object home) ↔ (schema.HoldsPoint document → good)) :=
  MembersReturn.objects (membersReturn hpoint schema.fields schema.settled) schema.distinct hfit

end

end DocSearch
