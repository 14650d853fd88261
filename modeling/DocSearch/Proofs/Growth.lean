import DocSearch.Proofs.ExactNames
import DocSearch.Proofs.RoundTrip

/-!
# Growing a schema

A schema grows when fields are added to it, at the top or inside objects, and those that are there
keep their kinds and their flags. What was made for the schema before is good for the one after:
queries stay the same, documents have the same wire form and are read from it in the same way, and
the mappings of the one are found in those of the other.

Only what succeeds is kept. An error may go away, and the mappings of new fields may fail.
-/

namespace DocSearch

open Fallible

/-! ## Growth -/

/-- Attributes with the same flags. The name and the class may differ. -/
structure Attributes.SameFlags (a b : Attributes) : Prop where
  multiple : a.multiple = b.multiple
  searchable : a.searchable = b.searchable
  filterable : a.filterable = b.filterable
  sortable : a.sortable = b.sortable

mutual

/-- A field that keeps its kind and its flags, and in case of an object all its fields. -/
def Field.GrowsTo : Field → Field → Prop
  | .leaf kind a, g => ∃ b, g = .leaf kind b ∧ a.SameFlags b
  | .object a fields, g =>
    ∃ b others, g = .object b others ∧ a.SameFlags b ∧ FieldsGrow fields others

/-- Fields that are all there under their keys, in any order and among any others. -/
def FieldsGrow : List (String × Field) → List (String × Field) → Prop
  | [], _ => True
  | (key, f) :: rest, others =>
    (∃ g, others.lookup key = some g ∧ f.GrowsTo g) ∧ FieldsGrow rest others

end

structure Index.GrowsTo (A B : Index) : Prop where
  name : A.name = B.name
  fields : FieldsGrow A.fields B.fields

section
variable {fields others : List (String × Field)}

theorem fieldsGrow_iff : FieldsGrow fields others ↔
    ∀ e ∈ fields, ∃ g, others.lookup e.1 = some g ∧ e.2.GrowsTo g := by
  induction fields with
  | nil => simp [FieldsGrow]
  | cons e rest ih =>
      obtain ⟨key, f⟩ := e
      rw [FieldsGrow, ih, List.forall_mem_cons]

theorem FieldsGrow.lookup (h : FieldsGrow fields others) {key : String} {f : Field}
    (hf : fields.lookup key = some f) : ∃ g, others.lookup key = some g ∧ f.GrowsTo g :=
  fieldsGrow_iff.mp h (key, f) (Keyed.mem_of_lookup_eq_some hf)

end

namespace Field.GrowsTo

variable {f g : Field}

theorem isText (h : f.GrowsTo g) : f.isText = g.isText := by
  cases f with
  | leaf kind a =>
      obtain ⟨b, rfl, -⟩ := h
      cases kind <;> rfl
  | object a fields =>
      obtain ⟨b, others, rfl, -, -⟩ := h
      rfl

theorem multiple (h : f.GrowsTo g) : f.multiple = g.multiple := by
  cases f with
  | leaf kind a =>
      obtain ⟨b, rfl, hflags⟩ := h
      exact hflags.multiple
  | object a fields =>
      obtain ⟨b, others, rfl, hflags, -⟩ := h
      exact hflags.multiple

end Field.GrowsTo

/-! ## Queries -/

/-- A path leads to what its field has grown to. -/
theorem FieldsGrow.fieldAt? {fields others : List (String × Field)} (h : FieldsGrow fields others)
    {keys : List String} {f : Field} (hf : fieldAt? fields keys = some f) :
    ∃ g, DocSearch.fieldAt? others keys = some g ∧ f.GrowsTo g := by
  induction keys generalizing fields others with
  | nil => cases hf
  | cons key rest ih =>
      by_cases hrest : rest = []
      · subst hrest
        exact h.lookup hf
      · obtain ⟨a, inner, hobject, hon⟩ := (fieldAt?_cons_eq_some hrest).mp hf
        obtain ⟨_, hlookup, b, inner', rfl, -, hinner⟩ := h.lookup hobject
        obtain ⟨g, hg, hgrows⟩ := ih hinner hon
        exact ⟨g, (fieldAt?_cons_eq_some hrest).mpr ⟨b, inner', hlookup, hg⟩, hgrows⟩

section
variable {A B : Index}

theorem Index.GrowsTo.exactName (h : A.GrowsTo B) {path name : String}
    (hname : A.exactName path = .ok name) : B.exactName path = .ok name := by
  obtain ⟨f, hf, rfl⟩ := exactName_eq_ok_iff.mp hname
  obtain ⟨g, hg, hgrows⟩ := h.fields.fieldAt? (fieldAt_eq_ok.mp hf)
  rw [hgrows.isText]
  exact exactName_of_fieldAt (fieldAt_eq_ok.mpr hg)

theorem Leaf.compile_of_growsTo (h : A.GrowsTo B) {leaf : Leaf} {c : Clause}
    (hc : leaf.compile A = .ok c) : leaf.compile B = .ok c := by
  cases leaf with
  | identifier _ | search _ => exact hc
  | equal path _ | notEqual path _ | compare _ path _ | isIn path _ | notIn path _
  | near path _ _ _ | within path _ _ _ _ =>
      obtain ⟨name, hname, hrest⟩ := bind_eq_ok.mp hc
      exact bind_eq_ok.mpr ⟨name, h.exactName hname, hrest⟩

-- The induction is on the tree of conditions, as the compiler goes through it.
mutual

theorem compileAs_of_growsTo (h : A.GrowsTo B) : (c : Condition) →
    (further : List ConditionKind) → (q : Query) → c.compileAs A further = .ok q →
    c.compileAs B further = .ok q
  | .leaf l, further, q, hq => by
      obtain ⟨clause, hc, hq⟩ := bind_eq_ok.mp hq
      obtain ⟨read, hread, hcompile⟩ := l.readAs_of_compileAs hc
      refine bind_eq_ok.mpr ⟨clause, ?_, hq⟩
      rw [Leaf.compileAs, hread]
      exact Leaf.compile_of_growsTo h hcompile
  | .all conditions, further, q, hq => by
      obtain ⟨qs, hqs, hq⟩ := bind_eq_ok.mp hq
      exact bind_eq_ok.mpr ⟨qs, compileEach_of_growsTo h conditions qs hqs, hq⟩
  | .any conditions, further, q, hq => by
      obtain ⟨qs, hqs, hq⟩ := bind_eq_ok.mp hq
      exact bind_eq_ok.mpr ⟨qs, compileEach_of_growsTo h conditions qs hqs, hq⟩
  | .named _ more c, further, q, hq => by
      rw [Condition.compileAs_named_eq_ok] at hq ⊢
      exact compileAs_of_growsTo h c (more ++ further) q hq
  | .unsupported _, _, _, hq => by cases hq

theorem compileEach_of_growsTo (h : A.GrowsTo B) : (conditions : List Condition) →
    (qs : List Query) → compileEach A conditions = .ok qs → compileEach B conditions = .ok qs
  | [], _, hqs => hqs
  | c :: rest, kept, hkept => by
      obtain ⟨q, hq, hrest⟩ := bind_eq_ok.mp hkept
      obtain ⟨qs, hqs, hkept⟩ := bind_eq_ok.mp hrest
      refine bind_eq_ok.mpr ⟨q, compileAs_of_growsTo h c [] q hq, ?_⟩
      exact bind_eq_ok.mpr ⟨qs, compileEach_of_growsTo h rest qs hqs, hkept⟩

end

theorem compile_of_growsTo (h : A.GrowsTo B) {conditions : List Condition} {junction : Junction}
    {q : Query} (hq : compile A conditions junction = .ok q) :
    compile B conditions junction = .ok q := by
  obtain ⟨qs, hqs, hjoin⟩ := bind_eq_ok.mp hq
  exact bind_eq_ok.mpr ⟨qs, compileEach_of_growsTo h conditions qs hqs, hjoin⟩

end

/-! ## Two conversions of one value -/

/-- Two conversions of what `P` holds of succeed and yield the same, and `Q` holds of either
result. -/
def Alike (convert convert' : Value → Except Error Value) (P Q : Value → Prop) : Prop :=
  ∀ v, P v → ∃ w w', convert v = .ok w ∧ convert' v = .ok w' ∧ w.Same w' ∧ Q w ∧ Q w'

/-- A value other than null. -/
def Proper (P : Value → Prop) (v : Value) : Prop := v ≠ .null ∧ P v

section
variable {P : Value → Prop} {slot : Value}

theorem slotOf_single : SlotOf false P slot ↔ (slot ≠ .null → P slot) := by
  constructor
  · exact fun h hn => h.2 slot ⟨hn, rfl⟩
  · refine fun h => ⟨nofun, ?_⟩
    rintro v ⟨hn, rfl⟩
    exact h hn

theorem slotOf_multiple : SlotOf true P slot ↔
    slot = .null ∨ ∃ items, slot = .list items ∧ ∀ v ∈ items, v ≠ .null → P v := by
  constructor
  · rintro ⟨hshape, hproper⟩
    refine (hshape rfl).imp_right fun ⟨items, hitems⟩ => ⟨items, hitems, fun v hv hn => ?_⟩
    exact hproper v ⟨hn, items, hitems, hv⟩
  · rintro (rfl | ⟨items, rfl, hitems⟩)
    · exact ⟨fun _ => .inl rfl, fun v hv => absurd hv not_within_null⟩
    · refine ⟨fun _ => .inr ⟨items, rfl⟩, ?_⟩
      rintro v ⟨hn, others, hothers, hv⟩
      obtain rfl := Value.list.inj hothers
      exact hitems v hv hn

end

namespace Alike

variable {convert convert' : Value → Except Error Value} {P Q : Value → Prop}

theorem self (h : ∀ v, P v → ∃ w, convert v = .ok w ∧ Q w) : Alike convert convert P Q := by
  intro v hv
  obtain ⟨w, hw, hq⟩ := h v hv
  exact ⟨w, w, hw, hw, .refl w, hq, hq⟩

theorem keepNull (h : Alike convert convert' (Proper P) (Proper Q)) :
    Alike (keepNull convert) (keepNull convert') (fun v => v ≠ .null → P v)
      (fun v => v ≠ .null → Q v) := by
  intro v hv
  by_cases hn : v = .null
  · subst hn
    exact ⟨.null, .null, rfl, rfl, .refl _, fun h => absurd rfl h, fun h => absurd rfl h⟩
  · obtain ⟨w, w', hw, hw', hsame, hq, hq'⟩ := h v ⟨hn, hv hn⟩
    rw [keepNull_of_ne_null hn, keepNull_of_ne_null hn]
    exact ⟨w, w', hw, hw', hsame, fun _ => hq.2, fun _ => hq'.2⟩

theorem items (h : Alike convert convert' P Q) {xs : List Value} (hxs : ∀ v ∈ xs, P v) :
    ∃ ys zs, xs.mapM convert = .ok ys ∧ xs.mapM convert' = .ok zs ∧
      List.Forall₂ Value.Same ys zs ∧ (∀ v ∈ ys, Q v) ∧ ∀ v ∈ zs, Q v := by
  induction xs with
  | nil => exact ⟨[], [], rfl, rfl, .nil, by simp, by simp⟩
  | cons x xs ih =>
      rw [List.forall_mem_cons] at hxs
      obtain ⟨y, z, hy, hz, hsame, hqy, hqz⟩ := h x hxs.1
      obtain ⟨ys, zs, hys, hzs, hsames, hqys, hqzs⟩ := ih hxs.2
      refine ⟨y :: ys, z :: zs, ?_, ?_, .cons hsame hsames, List.forall_mem_cons.mpr ⟨hqy, hqys⟩,
        List.forall_mem_cons.mpr ⟨hqz, hqzs⟩⟩
      · rw [List.mapM_cons, hy, hys]
        rfl
      · rw [List.mapM_cons, hz, hzs]
        rfl

theorem slot (h : Alike convert convert' (Proper P) (Proper Q)) (multiple : Bool) :
    Alike (convertSlot multiple convert) (convertSlot multiple convert') (SlotOf multiple P)
      (SlotOf multiple Q) := by
  intro v hv
  cases multiple with
  | false =>
      obtain ⟨w, w', hw, hw', hsame, hq, hq'⟩ := h.keepNull v (slotOf_single.mp hv)
      exact ⟨w, w', hw, hw', hsame, slotOf_single.mpr hq, slotOf_single.mpr hq'⟩
  | true =>
      rcases slotOf_multiple.mp hv with rfl | ⟨xs, rfl, hxs⟩
      · have hnull : SlotOf true Q .null := slotOf_multiple.mpr (.inl rfl)
        exact ⟨.null, .null, rfl, rfl, .refl _, hnull, hnull⟩
      · obtain ⟨ys, zs, hys, hzs, hsame, hqys, hqzs⟩ := h.keepNull.items hxs
        refine ⟨.list ys, .list zs, ?_, ?_, .list hsame, slotOf_multiple.mpr (.inr ⟨ys, rfl, hqys⟩),
          slotOf_multiple.mpr (.inr ⟨zs, rfl, hqzs⟩)⟩
        · rw [convertSlot, keepNull_of_ne_null (by simp)]
          simp only [if_true, Value.items, ok_bind, hys, pure_eq_ok]
        · rw [convertSlot, keepNull_of_ne_null (by simp)]
          simp only [if_true, Value.items, ok_bind, hzs, pure_eq_ok]

end Alike

/-! ## Documents -/

section
variable {point : Value → Except Error Value} {P Q : Value → Prop}
variable {fields others : List (String × Field)}

/-- Every field has a counterpart under its key that converts what fits it in the same way. -/
def MembersAlike (point : Value → Except Error Value) (P Q : Value → Prop)
    (fields others : List (String × Field)) : Prop :=
  ∀ e ∈ fields, ∃ g, others.lookup e.1 = some g ∧
    Alike (convertSlot e.2.multiple (e.2.convert point)) (convertSlot g.multiple (g.convert point))
      (SlotOf e.2.multiple (e.2.Conforms P)) (SlotOf e.2.multiple (e.2.Conforms Q))

/-- What is converted from declared members fits if each of its slots does. -/
theorem objectOf_of_convertFields {members out : Members}
    (hout : convertFields point others (.object members) = .ok out) (hd : Keyed.Distinct others)
    (hdeclared : ∀ key ∈ members.map Prod.fst, key ∈ fields.map Prod.fst)
    (hslots : ∀ e ∈ fields, ∀ slot, members.lookup e.1 = some slot →
      ∃ w, out.lookup e.1 = some w ∧ SlotOf e.2.multiple (e.2.Conforms Q) w) :
    ObjectOf fields (MembersConform Q fields) (.object out) := by
  have hkeys {key : String} (hkey : key ∈ out.map Prod.fst) : key ∈ members.map Prod.fst :=
    ((mem_keys_convertFields hout).mp hkey).2
  refine ⟨out, rfl, distinct_convertFields hout hd, fun key hkey => hdeclared key (hkeys hkey),
    membersConform_iff.mpr fun e he w hw => ?_⟩
  obtain ⟨slot, hslot⟩ := Keyed.mem_keys_iff_exists_lookup.mp
    (hkeys (Keyed.mem_keys_iff_exists_lookup.mpr ⟨w, hw⟩))
  obtain ⟨w', hw', hfits⟩ := hslots e he slot hslot
  obtain rfl := Option.some.inj (hw.symm.trans hw')
  exact hfits

theorem MembersAlike.mem_keys (h : MembersAlike point P Q fields others) {key : String}
    (hkey : key ∈ fields.map Prod.fst) : key ∈ others.map Prod.fst := by
  obtain ⟨e, he, rfl⟩ := List.mem_map.mp hkey
  obtain ⟨g, hg, -⟩ := h e he
  exact Keyed.mem_keys_iff_exists_lookup.mpr ⟨g, hg⟩

/-- Counterparts convert the same members, slot by slot. -/
theorem MembersAlike.slots (h : MembersAlike point P Q fields others)
    (hd : Keyed.Distinct fields) (hd' : Keyed.Distinct others) {members : Members}
    (hdeclared : ∀ key ∈ members.map Prod.fst, key ∈ fields.map Prod.fst)
    (hfit : MembersConform P fields members) :
    ∃ out out', convertFields point fields (.object members) = .ok out ∧
      convertFields point others (.object members) = .ok out' ∧
      ∀ e ∈ fields, ∀ slot, members.lookup e.1 = some slot → ∃ w w',
        out.lookup e.1 = some w ∧ out'.lookup e.1 = some w' ∧ w.Same w' ∧
        SlotOf e.2.multiple (e.2.Conforms Q) w ∧ SlotOf e.2.multiple (e.2.Conforms Q) w' := by
  rw [membersConform_iff] at hfit
  obtain ⟨out, hout⟩ : ∃ out, convertFields point fields (.object members) = .ok out := by
    refine exists_convertFields fun e he slot hslot => ?_
    obtain ⟨g, -, halike⟩ := h e he
    obtain ⟨w, -, hw, -⟩ := halike slot (hfit e he slot hslot)
    exact ⟨w, hw⟩
  obtain ⟨out', hout'⟩ : ∃ out', convertFields point others (.object members) = .ok out' := by
    refine exists_convertFields fun e' he' slot hslot => ?_
    -- a further field has no slot, so this is the counterpart of a field that was there
    obtain ⟨e, he, hkey⟩ := List.mem_map.mp
      (hdeclared e'.1 (Keyed.mem_keys_iff_exists_lookup.mpr ⟨slot, hslot⟩))
    rw [← hkey] at hslot
    obtain ⟨g, hg, halike⟩ := h e he
    rw [hkey, (Keyed.lookup_eq_some_iff_mem hd').mpr he'] at hg
    obtain rfl := Option.some.inj hg
    obtain ⟨-, w', -, hw', -⟩ := halike slot (hfit e he slot hslot)
    exact ⟨w', hw'⟩
  refine ⟨out, out', hout, hout', fun e he slot hslot => ?_⟩
  obtain ⟨g, hg, halike⟩ := h e he
  obtain ⟨w, w', hw, hw', hsame, hfits⟩ := halike slot (hfit e he slot hslot)
  exact ⟨w, w', lookup_convertFields hout hd he hslot hw,
    lookup_convertFields hout' hd' (Keyed.mem_of_lookup_eq_some hg) hslot hw', hsame, hfits⟩

/-- Counterparts convert the same object into the same one, which fits again. -/
theorem MembersAlike.objects (h : MembersAlike point P Q fields others)
    (hd : Keyed.Distinct fields) (hd' : Keyed.Distinct others) {v : Value}
    (hv : ObjectOf fields (MembersConform P fields) v) :
    ∃ out out', convertFields point fields v = .ok out ∧ convertFields point others v = .ok out' ∧
      (Value.object out).Same (.object out') ∧
      ObjectOf fields (MembersConform Q fields) (.object out) ∧
      ObjectOf fields (MembersConform Q fields) (.object out') := by
  obtain ⟨members, rfl, -, hdeclared, hfit⟩ := hv
  obtain ⟨out, out', hout, hout', hslots⟩ := h.slots hd hd' hdeclared hfit
  refine ⟨out, out', hout, hout', .object ?_ ?_, objectOf_of_convertFields hout hd hdeclared ?_,
    objectOf_of_convertFields hout' hd' hdeclared ?_⟩
  · refine (List.perm_ext_iff_of_nodup (distinct_convertFields hout hd)
      (distinct_convertFields hout' hd')).mpr fun key => ?_
    rw [mem_keys_convertFields hout, mem_keys_convertFields hout']
    exact and_congr_left fun hkey =>
      iff_of_true (hdeclared key hkey) (h.mem_keys (hdeclared key hkey))
  · intro key w w' hw hw'
    have hkey := (mem_keys_convertFields hout).mp (Keyed.mem_keys_iff_exists_lookup.mpr ⟨w, hw⟩)
    obtain ⟨e, he, rfl⟩ := List.mem_map.mp hkey.1
    obtain ⟨slot, hslot⟩ := Keyed.mem_keys_iff_exists_lookup.mp hkey.2
    obtain ⟨u, u', hu, hu', hsame, -, -⟩ := hslots e he slot hslot
    obtain rfl := Option.some.inj (hu.symm.trans hw)
    obtain rfl := Option.some.inj (hu'.symm.trans hw')
    exact hsame
  · intro e he slot hslot
    obtain ⟨w, -, hw, -, -, hfits, -⟩ := hslots e he slot hslot
    exact ⟨w, hw, hfits⟩
  · intro e he slot hslot
    obtain ⟨-, w', -, hw', -, -, hfits'⟩ := hslots e he slot hslot
    exact ⟨w', hw', hfits'⟩

-- The induction is on the fields of the smaller schema.
mutual

/-- A field and what it has grown to convert the values that fit it in the same way. -/
theorem Field.alike (hpoint : Alike point point (Proper P) (Proper Q)) :
    (f g : Field) → f.GrowsTo g → f.Settled → g.Settled →
      Alike (f.convert point) (g.convert point) (Proper (f.Conforms P)) (Proper (f.Conforms Q))
  | .leaf kind _, g, hgrows, _, _ => by
      obtain ⟨b, rfl, -⟩ := hgrows
      cases kind with
      | geoPoint => exact hpoint
      | base | identifier | text | integer | float | boolean | dateTime =>
          exact .self fun v hv => ⟨v, rfl, hv.1, trivial⟩
  | .object _ fields, g, hgrows, hs, hs' => by
      obtain ⟨b, others, rfl, -, hfields⟩ := hgrows
      intro v hv
      obtain ⟨out, out', hout, hout', hsame, hfits, hfits'⟩ :=
        (membersAlike hpoint fields others hfields hs.2 hs'.2).objects hs.1 hs'.1 hv.2
      refine ⟨.object out, .object out', ?_, ?_, hsame, ⟨by simp, hfits⟩, ⟨by simp, hfits'⟩⟩
      · rw [Field.convert, hout]
        rfl
      · rw [Field.convert, hout']
        rfl

theorem membersAlike (hpoint : Alike point point (Proper P) (Proper Q)) :
    (fields others : List (String × Field)) → FieldsGrow fields others → AllSettled fields →
      AllSettled others → MembersAlike point P Q fields others
  | [], _, _, _, _ => by
      intro e he
      cases he
  | (key, f) :: rest, others, hgrow, hs, hs' => by
      intro e he
      rcases List.mem_cons.mp he with rfl | hrest
      · obtain ⟨g, hg, hgrows⟩ := hgrow.1
        have hsettled := (allSettled_iff others).mp hs' _ (Keyed.mem_of_lookup_eq_some hg)
        refine ⟨g, hg, ?_⟩
        rw [← hgrows.multiple]
        exact (Field.alike hpoint f g hgrows hs.1 hsettled).slot f.multiple
      · exact membersAlike hpoint rest others hgrow.2 hs.2 hs' e hrest

end

/-- Documents that fit an index are converted in the same way by one that it has grown to. -/
theorem Index.GrowsTo.documents {A B : Index} (h : A.GrowsTo B)
    (hpoint : Alike point point (Proper P) (Proper Q)) {document : Value}
    (hfit : A.schema.Conforms P document) :
    ∃ out out', convertFields point A.fields document = .ok out ∧
      convertFields point B.fields document = .ok out' ∧ (Value.object out).Same (.object out') ∧
      A.schema.Conforms Q (.object out) ∧ A.schema.Conforms Q (.object out') :=
  (membersAlike hpoint A.fields B.fields h.fields A.schema.settled B.schema.settled).objects
    A.schema.distinct B.schema.distinct hfit

end

namespace PointNames

theorem alike_toWire (names : PointNames) :
    Alike names.toWire names.toWire (Proper (PointWith "latitude" "longitude"))
      (Proper fun v => ∃ members, v = .object members) := by
  refine .self fun v hv => ?_
  obtain ⟨x, y, -, hwire⟩ := names.toWire_of_point hv.2
  exact ⟨_, hwire, by simp, _, rfl⟩

theorem alike_ofWire (names : PointNames) :
    Alike names.ofWire names.ofWire (Proper fun v => ∃ members, v = .object members)
      (Proper fun _ => True) := by
  refine .self fun v hv => ?_
  obtain ⟨members, rfl⟩ := hv.2
  exact ⟨_, rfl, by simp, trivial⟩

end PointNames

/-! ## Mappings -/

/-- Wherever the parts of a name lead in the first written mapping, they lead in the second one, and
there to a mapping of the same type. -/
def Value.MapsInto (mapping mapping' : Value) : Prop :=
  ∀ keys m, mapping.mappingAt? keys = some m → ∃ m', mapping'.mappingAt? keys = some m' ∧
    m'.member "type" = m.member "type"

/-- Properties that are all there under their keys, with whatever stands below them. -/
def PropertiesMapInto (properties properties' : List (String × Mapping)) : Prop :=
  ∀ key m, properties.lookup key = some m →
    ∃ m', properties'.lookup key = some m' ∧ m.toValue.MapsInto m'.toValue

theorem Value.MapsInto.refl (mapping : Value) : mapping.MapsInto mapping :=
  fun _ m hm => ⟨m, hm, rfl⟩

theorem PropertiesMapInto.mapsInto {properties properties' : List (String × Mapping)}
    (h : PropertiesMapInto properties properties') {mapping mapping' : Value}
    (htype : mapping'.member "type" = mapping.member "type")
    (hsub : mapping.submappings = Mapping.toMembers properties)
    (hsub' : mapping'.submappings = Mapping.toMembers properties') :
    mapping.MapsInto mapping' := by
  intro keys m hm
  cases keys with
  | nil =>
      obtain rfl := Option.some.inj hm
      exact ⟨mapping', rfl, htype⟩
  | cons key rest =>
      rw [Value.mappingAt?, hsub, Mapping.lookup_toMembers] at hm
      rw [Value.mappingAt?, hsub', Mapping.lookup_toMembers]
      cases hkey : properties.lookup key with
      | none =>
          rw [hkey] at hm
          cases hm
      | some inner =>
          rw [hkey] at hm
          obtain ⟨inner', hkey', hinto⟩ := h key inner hkey
          rw [hkey']
          exact hinto rest m hm

-- The induction is on the fields of the smaller schema.
mutual

theorem Field.mapping_of_growsTo : (f g : Field) → f.GrowsTo g → (m' : Mapping) →
    g.mapping = .ok m' → ∃ m, f.mapping = .ok m ∧ m.toValue.MapsInto m'.toValue
  | .leaf kind _, g, hgrows, m', hm' => by
      obtain ⟨b, rfl, -⟩ := hgrows
      refine ⟨m', ?_, .refl _⟩
      rw [Field.mapping] at hm' ⊢
      cases hkind : Mapping.ofKind? kind with
      | none =>
          rw [hkind] at hm'
          cases hm'
      | some m =>
          rw [hkind] at hm'
          exact hm'
  | .object _ fields, g, hgrows, m', hm' => by
      obtain ⟨b, others, rfl, -, hfields⟩ := hgrows
      obtain ⟨properties', hothers, rfl⟩ := Field.mapping_object_eq_ok.mp hm'
      obtain ⟨properties, hproperties, hinto⟩ :=
        mappings_of_fieldsGrow fields others hfields properties' hothers
      refine ⟨.object properties, Field.mapping_object_eq_ok.mpr ⟨_, hproperties, rfl⟩, ?_⟩
      refine hinto.mapsInto ?_ (Mapping.submappings_object _) (Mapping.submappings_object _)
      rw [Mapping.toValue, Mapping.toValue]
      rfl

theorem mappings_of_fieldsGrow : (fields others : List (String × Field)) →
    FieldsGrow fields others → (properties' : List (String × Mapping)) →
    mappings others = .ok properties' →
    ∃ properties, mappings fields = .ok properties ∧ PropertiesMapInto properties properties'
  | [], _, _, _, _ => ⟨[], rfl, fun _ _ hm => by cases hm⟩
  | (key, f) :: rest, others, hgrow, properties', hothers => by
      obtain ⟨⟨g, hg, hgrows⟩, hrest⟩ := hgrow
      obtain ⟨m', hm', hkey'⟩ := lookup_mappings hothers hg
      obtain ⟨m, hm, hinto⟩ := Field.mapping_of_growsTo f g hgrows m' hm'
      obtain ⟨properties, hproperties, hintoRest⟩ :=
        mappings_of_fieldsGrow rest others hrest properties' hothers
      refine ⟨(key, m) :: properties, ?_, fun k mk hk => ?_⟩
      · rw [mappings, hm, hproperties]
        rfl
      · rw [Keyed.lookup_cons_eq] at hk
        split at hk
        next heq =>
          obtain rfl := Option.some.inj hk
          exact ⟨m', heq ▸ hkey', hinto⟩
        next => exact hintoRest k mk hk

end

/-! ## What growth keeps -/

/-- An index may grow without harm to what was made for it. A condition that has a query keeps it. A
document that fits has the same wire form, and either writing of that is read as the same document.
And if the larger index has mappings, so has the smaller one, and they are found among those. -/
theorem growth_is_backward_compatible {A B : Index} (h : A.GrowsTo B) :
    (∀ conditions junction q, compile A conditions junction = .ok q →
      compile B conditions junction = .ok q) ∧
    (∀ (names : PointNames) (document : Value),
      A.schema.Conforms (PointWith "latitude" "longitude") document →
      ∃ wire wire', A.schema.toWire names document = .ok wire ∧
        B.schema.toWire names document = .ok wire' ∧ (Value.object wire).Same (.object wire') ∧
        ∀ written ∈ [wire, wire'], ∃ back back',
          A.schema.ofWire names (.object written) = .ok back ∧
          B.schema.ofWire names (.object written) = .ok back' ∧
          (Value.object back).Same (.object back')) ∧
    ∀ properties', B.mappings = .ok properties' → ∃ properties, A.mappings = .ok properties ∧
      (mappingBody properties).MapsInto (mappingBody properties') := by
  refine ⟨fun conditions junction q => compile_of_growsTo h, ?_, ?_⟩
  · intro names document hfit
    obtain ⟨wire, wire', hwire, hwire', hsame, hfits, hfits'⟩ :=
      h.documents names.alike_toWire hfit
    refine ⟨wire, wire', hwire, hwire', hsame, fun written hwritten => ?_⟩
    have hconforms : A.schema.Conforms (fun v => ∃ members, v = .object members)
        (.object written) := by
      rcases List.mem_pair.mp hwritten with rfl | rfl
      · exact hfits
      · exact hfits'
    obtain ⟨back, back', hback, hback', hsame', -, -⟩ :=
      h.documents names.alike_ofWire hconforms
    exact ⟨back, back', hback, hback', hsame'⟩
  · intro properties' hproperties'
    obtain ⟨properties, hproperties, hinto⟩ :=
      mappings_of_fieldsGrow A.fields B.fields h.fields properties' hproperties'
    exact ⟨properties, hproperties, hinto.mapsInto rfl rfl rfl⟩

namespace Sample

/-- The vessels with fields at the front, at the end and inside, and the old ones in another
order. -/
def fleet : Index where
  name := "vessels"
  schema := .ofList [
    ("built", .leaf .dateTime { name := "built" }),
    ("fields", .object { name := "fields" } [
      ("raw", .leaf .integer { name := "raw" }),
      ("properties", .leaf .text { name := "properties" }),
      ("mass", .leaf .float { name := "mass" })]),
    ("id", .leaf .identifier { name := "id" }),
    ("raw", .leaf .boolean { name := "raw" }),
    ("berth", .leaf .geoPoint { name := "berth" })]
  oneIdentifier := rfl

def fleetProperties : List (String × Mapping) :=
  [("built", .date), ("fields", .object [("raw", .integer), ("properties", .text), ("mass", .float)]),
    ("id", .keyword), ("raw", .boolean), ("berth", .geoPoint)]

theorem vessels_growsTo_fleet : vessels.GrowsTo fleet := by
  have hflags (a : Attributes) : a.SameFlags a := ⟨rfl, rfl, rfl, rfl⟩
  exact ⟨rfl, ⟨_, rfl, _, rfl, hflags _⟩, ⟨_, rfl, _, rfl, hflags _⟩,
    ⟨_, rfl, _, _, rfl, hflags _, ⟨_, rfl, _, rfl, hflags _⟩, ⟨_, rfl, _, rfl, hflags _⟩, trivial⟩,
    trivial⟩

/-- A vessel, the members of which stand in an order of their own. -/
def barge : Value := .object [
  ("fields", .object [("raw", .null), ("properties", .text "flat")]),
  ("id", .text "b1")]

theorem barge_conforms : vessels.schema.Conforms (PointWith "latitude" "longitude") barge := by
  refine ⟨_, rfl, by simp [Keyed.Distinct], by decide, ?_, ?_, ?_, trivial⟩
  · exact fun _ _ => slotOf_single.mpr fun _ => trivial
  · exact fun _ _ => slotOf_single.mpr fun _ => trivial
  · intro slot hslot
    obtain rfl := Option.some.inj hslot
    refine slotOf_single.mpr fun _ => ⟨_, rfl, by simp [Keyed.Distinct], by decide, ?_, ?_, trivial⟩
    · exact fun _ _ => slotOf_single.mpr fun _ => trivial
    · exact fun _ _ => slotOf_single.mpr fun _ => trivial

/-- What was made for the vessels is good for the fleet. -/
theorem vessels_are_kept_in_fleet :
    vessels.GrowsTo fleet ∧
      compile fleet [.leaf (.equal "fields.properties" (.text "flat"))] .every =
        .ok (.clause (.test (.term "fields.properties.raw" (.text "flat")))) ∧
      (∃ wire wire', vessels.schema.toWire .engine barge = .ok wire ∧
        fleet.schema.toWire .engine barge = .ok wire' ∧ (Value.object wire).Same (.object wire') ∧
        ∀ written ∈ [wire, wire'], ∃ back back',
          vessels.schema.ofWire .engine (.object written) = .ok back ∧
          fleet.schema.ofWire .engine (.object written) = .ok back' ∧
          (Value.object back).Same (.object back')) ∧
      ∃ properties, vessels.mappings = .ok properties ∧
        (mappingBody properties).MapsInto (mappingBody fleetProperties) := by
  obtain ⟨hqueries, hdocuments, hmappings⟩ := growth_is_backward_compatible vessels_growsTo_fleet
  exact ⟨vessels_growsTo_fleet, hqueries _ _ _ rfl, hdocuments .engine barge barge_conforms,
    hmappings fleetProperties rfl⟩

end Sample

end DocSearch
