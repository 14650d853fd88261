import DocSearch.Proofs.RoundTrip

/-!
# Only what is declared reaches the wire

A document may hold more than its schema declares: further keys in any object and further keys in
any point. None of that is in the wire form, at any depth, and none of it has an influence on the
wire form. What is there, and what comes back from it, is the same thing under two sets of names:
the declared keys that the document has, in order of declaration, and of each point its coordinates.

Two documents are compared beside a schema. How points are compared and how the keys of objects are
is a parameter, so one relation serves to compare documents with each other and with what is left of
them. One induction then covers the way to the wire and the way back: what corresponds to a document
is converted to what is left of that document.
-/

namespace DocSearch

open Fallible

/-! ## Documents with more than their schema declares -/

/-- An object that has both coordinates and may have anything else. -/
def HoldsCoordinates (v : Value) : Prop :=
  ∃ members x y, v = .object members ∧ members.lookup "latitude" = some x ∧
    members.lookup "longitude" = some y

mutual

/-- A proper value of a field of which the declared parts are well typed. -/
def Field.Typed : Field → Value → Prop
  | .leaf .geoPoint _, v => HoldsCoordinates v
  | .leaf _ _, _ => True
  | .object _ fields, v => ∃ members, v = .object members ∧ MembersTyped fields members

/-- Each declared member that is there is well typed; any of them may be absent. -/
def MembersTyped : List (String × Field) → Members → Prop
  | [], _ => True
  | (key, f) :: rest, members =>
    (∀ slot, members.lookup key = some slot → SlotOf f.multiple f.Typed slot) ∧
      MembersTyped rest members

end

/-- A document of which the declared parts are well typed. -/
def Schema.Typed (schema : Schema) (document : Value) : Prop :=
  ∃ members, document = .object members ∧ MembersTyped schema.fields members

/-! ## Two slots beside a field -/

/-- Null beside null, or two other values that are related. -/
def OrNull (R : Value → Value → Prop) (v w : Value) : Prop :=
  v = .null ∧ w = .null ∨ v ≠ .null ∧ w ≠ .null ∧ R v w

/-- Two lists with related items in the same places. -/
def OnItems (R : Value → Value → Prop) (v w : Value) : Prop :=
  ∃ xs ys, v = .list xs ∧ w = .list ys ∧ List.Forall₂ (OrNull R) xs ys

/-- What stands in the slot of a field here and there: null, lists if the field is multiple, and
related values otherwise. -/
def OnSlot (multiple : Bool) (R : Value → Value → Prop) : Value → Value → Prop :=
  OrNull (if multiple then OnItems R else R)

/-- Whatever is related to a value is converted, and what it becomes is related to that value. -/
def Carries (convert : Value → Except Error Value) (S R : Value → Value → Prop) : Prop :=
  ∀ v w, v ≠ .null → S v w → ∃ u, convert w = .ok u ∧ u ≠ .null ∧ R v u

section
variable {convert : Value → Except Error Value} {S R : Value → Value → Prop} {multiple : Bool}

theorem OrNull.refl {v : Value} (h : v ≠ .null → R v v) : OrNull R v v := by
  by_cases hn : v = .null
  · exact .inl ⟨hn, hn⟩
  · exact .inr ⟨hn, hn, h hn⟩

theorem OnSlot.refl {P : Value → Prop} {slot : Value} (hslot : SlotOf multiple P slot)
    (h : ∀ v, v ≠ .null → P v → R v v) : OnSlot multiple R slot slot := by
  obtain ⟨hshape, hproper⟩ := hslot
  cases multiple with
  | false => exact .refl fun hn => h slot hn (hproper slot ⟨hn, rfl⟩)
  | true =>
      rcases hshape rfl with rfl | ⟨items, rfl⟩
      · exact .inl ⟨rfl, rfl⟩
      · refine .inr ⟨by simp, by simp, items, items, rfl, rfl, ?_⟩
        refine List.forall₂_same.mpr fun v hv => .refl fun hn => ?_
        exact h v hn (hproper v ⟨hn, items, rfl, hv⟩)

theorem Carries.orNull (h : Carries convert S R) {v w : Value} (hvw : OrNull S v w) :
    ∃ u, keepNull convert w = .ok u ∧ OrNull R v u := by
  rcases hvw with ⟨rfl, rfl⟩ | ⟨hv, hw, hs⟩
  · exact ⟨.null, rfl, .inl ⟨rfl, rfl⟩⟩
  · obtain ⟨u, hu, hun, hr⟩ := h v w hv hs
    exact ⟨u, (keepNull_of_ne_null hw).trans hu, .inr ⟨hv, hun, hr⟩⟩

theorem Carries.forall₂ (h : Carries convert S R) {xs ys : List Value}
    (hxy : List.Forall₂ (OrNull S) xs ys) :
    ∃ zs, ys.mapM (keepNull convert) = .ok zs ∧ List.Forall₂ (OrNull R) xs zs := by
  induction hxy with
  | nil => exact ⟨[], rfl, .nil⟩
  | cons hfirst _ ih =>
      obtain ⟨z, hz, hr⟩ := h.orNull hfirst
      obtain ⟨zs, hzs, hrs⟩ := ih
      refine ⟨z :: zs, ?_, .cons hr hrs⟩
      rw [List.mapM_cons, hz, hzs]
      rfl

theorem Carries.slot (h : Carries convert S R) {slot slot' : Value}
    (hslot : OnSlot multiple S slot slot') :
    ∃ out, convertSlot multiple convert slot' = .ok out ∧ OnSlot multiple R slot out := by
  cases multiple with
  | false => exact h.orNull hslot
  | true =>
      refine Carries.orNull ?_ hslot
      rintro v w - ⟨xs, ys, rfl, rfl, hxy⟩
      obtain ⟨zs, hzs, hr⟩ := h.forall₂ hxy
      refine ⟨.list zs, ?_, by simp, xs, zs, rfl, rfl, hr⟩
      simp only [if_true, Value.items, ok_bind, hzs, pure_eq_ok]

end

/-! ## Two documents beside a schema -/

/-- A way to compare documents: how two points have to be related, and how the keys of two objects
beside the declared ones. Objects that are compared have the same declared keys in any case. -/
structure Correspondence where
  point : Value → Value → Prop
  level : (declared here there : List String) → Prop
  same : ∀ {declared here there}, level declared here there →
    ∀ key ∈ declared, key ∈ here ↔ key ∈ there

/-- Two objects with keys as the correspondence asks for and with members as asked for. -/
def Correspondence.Objects (C : Correspondence) (declared : List String)
    (members : Members → Members → Prop) (v w : Value) : Prop :=
  ∃ here there, v = .object here ∧ w = .object there ∧
    C.level declared (here.map Prod.fst) (there.map Prod.fst) ∧ members here there

section
variable (C : Correspondence)

mutual

/-- Two proper values of a field that correspond. Values of a field that is neither a point nor an
object have to be equal. -/
def Field.Relates : Field → Value → Value → Prop
  | .leaf .geoPoint _, v, w => C.point v w
  | .leaf _ _, v, w => v = w
  | .object _ fields, v, w =>
    C.Objects (fields.map Prod.fst) (fun here there => MembersRelate fields here there) v w

def MembersRelate : List (String × Field) → Members → Members → Prop
  | [], _, _ => True
  | (key, f) :: rest, here, there =>
    (∀ slot slot', here.lookup key = some slot → there.lookup key = some slot' →
      OnSlot f.multiple f.Relates slot slot') ∧ MembersRelate rest here there

end

/-- Two documents that correspond. -/
def Schema.Relates (schema : Schema) : Value → Value → Prop :=
  C.Objects (schema.fields.map Prod.fst) (MembersRelate C schema.fields)

end

theorem membersRelate_iff {C : Correspondence} {fields : List (String × Field)}
    {here there : Members} :
    MembersRelate C fields here there ↔ ∀ e ∈ fields, ∀ slot slot',
      here.lookup e.1 = some slot → there.lookup e.1 = some slot' →
        OnSlot e.2.multiple (e.2.Relates C) slot slot' := by
  induction fields with
  | nil => simp [MembersRelate]
  | cons e rest ih =>
      obtain ⟨key, f⟩ := e
      rw [MembersRelate, ih, List.forall_mem_cons]

namespace Correspondence

/-- The same coordinates, whatever else there is. -/
def SamePoint (v w : Value) : Prop :=
  ∃ here there x y, v = .object here ∧ w = .object there ∧
    (here.lookup "latitude" = some x ∧ here.lookup "longitude" = some y) ∧
    there.lookup "latitude" = some x ∧ there.lookup "longitude" = some y

/-- Documents agree if they are equal in all that is declared. What is not, and the order of keys,
may differ at every level, inside points too. -/
def agreement : Correspondence where
  point := SamePoint
  level declared here there := ∀ key ∈ declared, key ∈ here ↔ key ∈ there
  same h := h

/-- A point and what is written of it: its coordinates under the names given and nothing else. If
there is one name for both the longitude stands under it. -/
def Written (names : PointNames) (v w : Value) : Prop :=
  ∃ members x y, v = .object members ∧ members.lookup "latitude" = some x ∧
    members.lookup "longitude" = some y ∧ w = .object (if names.latitude = names.longitude then
      [(names.longitude, y)] else [(names.latitude, x), (names.longitude, y)])

/-- A document and what is left of it when all that is not declared is taken away: at every level
exactly the declared keys that are there, in order of declaration, and of points the coordinates. -/
def projection (names : PointNames) : Correspondence where
  point := Written names
  level declared here there := there = declared.filter fun key => key ∈ here
  same h key hkey := by simp [h, hkey]

end Correspondence

/-! ## Well typed documents agree with themselves -/

theorem Correspondence.Objects.refl {declared : List String} {fit : Members → Prop}
    {members : Members → Members → Prop} (h : ∀ here, fit here → members here here) {v : Value}
    (hv : ∃ here, v = .object here ∧ fit here) : agreement.Objects declared members v v := by
  obtain ⟨here, rfl, hfit⟩ := hv
  exact ⟨here, here, rfl, rfl, fun _ _ => Iff.rfl, h here hfit⟩

mutual

theorem Field.relates_self : (f : Field) → ∀ v, f.Typed v → f.Relates .agreement v v
  | .leaf kind _, v, hv => by
      cases kind with
      | geoPoint =>
          obtain ⟨members, x, y, rfl, hx, hy⟩ := hv
          exact ⟨members, members, x, y, rfl, rfl, ⟨hx, hy⟩, hx, hy⟩
      | base | identifier | text | integer | float | boolean | dateTime => rfl
  | .object _ fields, _, hv => .refl (membersRelate_self fields) hv

theorem membersRelate_self : (fields : List (String × Field)) → ∀ members,
    MembersTyped fields members → MembersRelate .agreement fields members members
  | [], _, _ => trivial
  | (_, f) :: rest, members, h => by
      refine ⟨fun slot slot' hslot hslot' => ?_, membersRelate_self rest members h.2⟩
      obtain rfl := Option.some.inj (hslot.symm.trans hslot')
      exact .refl (h.1 slot hslot) fun v _ => f.relates_self v

end

theorem Schema.relates_self {schema : Schema} {document : Value} (h : schema.Typed document) :
    schema.Relates .agreement document document :=
  .refl (membersRelate_self schema.fields) h

/-! ## What is left of a document -/

section
variable {C : Correspondence} {names : PointNames} {point : Value → Except Error Value}
variable {fields : List (String × Field)}

/-- Objects that correspond to a document are converted to what is left of the document, if all
their members are. -/
theorem Correspondence.Objects.carries (hd : Keyed.Distinct fields)
    (hcarries : ∀ e ∈ fields, Carries (e.2.convert point) (e.2.Relates C)
      (e.2.Relates (.projection names))) {v w : Value}
    (h : C.Objects (fields.map Prod.fst) (MembersRelate C fields) v w) :
    ∃ out, convertFields point fields w = .ok out ∧
      (Correspondence.projection names).Objects (fields.map Prod.fst)
        (MembersRelate (.projection names) fields) v (.object out) := by
  obtain ⟨here, there, rfl, rfl, hlevel, hmembers⟩ := h
  rw [membersRelate_iff] at hmembers
  have hslots : ∀ e ∈ fields, ∀ slot slot', here.lookup e.1 = some slot →
      there.lookup e.1 = some slot' →
      ∃ u, convertSlot e.2.multiple (e.2.convert point) slot' = .ok u ∧
        OnSlot e.2.multiple (e.2.Relates (.projection names)) slot u :=
    fun e he slot slot' hslot hslot' => (hcarries e he).slot (hmembers e he slot slot' hslot hslot')
  have hpresent (e) (he : e ∈ fields) :=
    Keyed.lookup_of_mem_keys_iff (C.same hlevel e.1 (List.mem_map.mpr ⟨e, he, rfl⟩))
  obtain ⟨out, hout⟩ : ∃ out, convertFields point fields (.object there) = .ok out := by
    refine exists_convertFields fun e he slot' hslot' => ?_
    rcases hpresent e he with ⟨-, hnone⟩ | ⟨slot, _, hslot, -⟩
    · rw [hnone] at hslot'
      cases hslot'
    · obtain ⟨u, hu, -⟩ := hslots e he slot slot' hslot hslot'
      exact ⟨u, hu⟩
  refine ⟨out, hout, here, out, rfl, rfl, ?_, ?_⟩
  · rw [keys_convertFields hout]
    refine List.filter_congr fun key hkey => ?_
    rw [Bool.eq_iff_iff, Option.isSome_iff_exists, decide_eq_true_iff,
      ← Keyed.mem_keys_iff_exists_lookup]
    exact (C.same hlevel key hkey).symm
  · rw [membersRelate_iff]
    intro e he slot u hslot hu
    rcases hpresent e he with ⟨hnone, -⟩ | ⟨_, slot', -, hslot'⟩
    · rw [hnone] at hslot
      cases hslot
    · obtain ⟨u', hu', hrelated⟩ := hslots e he slot slot' hslot hslot'
      obtain rfl := Option.some.inj ((lookup_convertFields hout hd he hslot' hu').symm.trans hu)
      exact hrelated

-- The induction is on the field. What is converted need not be the document itself, so the same step
-- leads from the document to its wire form and from there back.
mutual

theorem Field.carries (hpoint : Carries point C.point (Correspondence.Written names)) :
    (f : Field) → f.Settled →
      Carries (f.convert point) (f.Relates C) (f.Relates (.projection names))
  | .leaf kind _, _ => by
      intro v w hn h
      cases kind with
      | geoPoint => exact hpoint v w hn h
      | base | identifier | text | integer | float | boolean | dateTime =>
          obtain rfl : v = w := h
          exact ⟨v, rfl, hn, rfl⟩
  | .object _ fields, hs => by
      intro v w _ h
      obtain ⟨hd, hsettled⟩ := hs
      obtain ⟨out, hout, hleft⟩ :=
        Correspondence.Objects.carries hd (carriesEach hpoint fields hsettled) h
      refine ⟨.object out, ?_, by simp, hleft⟩
      rw [Field.convert, hout]
      rfl

theorem carriesEach (hpoint : Carries point C.point (Correspondence.Written names)) :
    (fields : List (String × Field)) → AllSettled fields → ∀ e ∈ fields,
      Carries (e.2.convert point) (e.2.Relates C) (e.2.Relates (.projection names))
  | [], _ => by
      intro e he
      cases he
  | (_, f) :: rest, hs => by
      intro e he
      rcases List.mem_cons.mp he with rfl | hrest
      · exact f.carries hpoint hs.1
      · exact carriesEach hpoint rest hs.2 e hrest

end

theorem Schema.carries (schema : Schema)
    (hpoint : Carries point C.point (Correspondence.Written names)) {v w : Value}
    (h : schema.Relates C v w) : ∃ out, convertFields point schema.fields w = .ok out ∧
      schema.Relates (.projection names) v (.object out) :=
  Correspondence.Objects.carries schema.distinct (carriesEach hpoint schema.fields schema.settled) h

end

/-! ## Only one thing is left of a document -/

section
variable {R : Value → Value → Prop}

theorem OrNull.rightUnique (h : Relator.RightUnique R) : Relator.RightUnique (OrNull R) := by
  rintro v w w' (⟨hv, hw⟩ | ⟨hv, -, hw⟩) (⟨hv', hw'⟩ | ⟨hv', -, hw'⟩)
  · exact hw.trans hw'.symm
  · exact absurd hv hv'
  · exact absurd hv' hv
  · exact h hw hw'

theorem OnSlot.rightUnique {multiple : Bool} (h : Relator.RightUnique R) :
    Relator.RightUnique (OnSlot multiple R) := by
  refine OrNull.rightUnique ?_
  cases multiple with
  | false => exact h
  | true =>
      rintro _ _ _ ⟨xs, ys, rfl, rfl, hys⟩ ⟨_, zs, hxs, rfl, hzs⟩
      obtain rfl := Value.list.inj hxs
      rw [(OrNull.rightUnique h).forall₂ hys hzs]

end

section
variable {names : PointNames} {fields : List (String × Field)}

theorem Correspondence.written_rightUnique : Relator.RightUnique (Written names) := by
  rintro _ _ _ ⟨members, x, y, rfl, hx, hy, rfl⟩ ⟨_, x', y', hmembers, hx', hy', rfl⟩
  obtain rfl := Value.object.inj hmembers
  obtain rfl := Option.some.inj (hx.symm.trans hx')
  obtain rfl := Option.some.inj (hy.symm.trans hy')
  rfl

theorem Correspondence.Objects.rightUnique (hd : Keyed.Distinct fields)
    (hunique : ∀ e ∈ fields, Relator.RightUnique (e.2.Relates (.projection names))) :
    Relator.RightUnique ((projection names).Objects (fields.map Prod.fst)
      (MembersRelate (.projection names) fields)) := by
  rintro _ _ _ ⟨here, there, rfl, rfl, hlevel, hmembers⟩ ⟨_, there', hhere, rfl, hlevel', hmembers'⟩
  obtain rfl := Value.object.inj hhere
  rw [membersRelate_iff] at hmembers hmembers'
  have hdistinct : Keyed.Distinct there := by
    rw [Keyed.Distinct, hlevel]
    exact hd.sublist List.filter_sublist
  refine congrArg Value.object ?_
  refine Keyed.eq_of_lookup_eq hdistinct (hlevel.trans hlevel'.symm) fun key hkey => ?_
  obtain ⟨w, hw⟩ := Keyed.mem_keys_iff_exists_lookup.mp hkey
  obtain ⟨w', hw'⟩ := Keyed.mem_keys_iff_exists_lookup.mp (hlevel'.symm ▸ hlevel ▸ hkey)
  obtain ⟨hdeclared, hpresent⟩ := List.mem_filter.mp (hlevel ▸ hkey)
  obtain ⟨e, he, rfl⟩ := List.mem_map.mp hdeclared
  obtain ⟨slot, hslot⟩ := Keyed.mem_keys_iff_exists_lookup.mp (of_decide_eq_true hpresent)
  have hslots := OnSlot.rightUnique (hunique e he) (hmembers e he slot w hslot hw)
    (hmembers' e he slot w' hslot hw')
  rw [hw, hw', hslots]

mutual

theorem Field.projection_rightUnique : (f : Field) → f.Settled →
    Relator.RightUnique (f.Relates (.projection names))
  | .leaf kind _, _ => by
      cases kind with
      | geoPoint => exact Correspondence.written_rightUnique
      | base | identifier | text | integer | float | boolean | dateTime =>
          exact fun _ _ _ hw hw' => hw.symm.trans hw'
  | .object _ fields, hs =>
      Correspondence.Objects.rightUnique hs.1 (projection_rightUniqueEach fields hs.2)

theorem projection_rightUniqueEach : (fields : List (String × Field)) → AllSettled fields →
    ∀ e ∈ fields, Relator.RightUnique (e.2.Relates (.projection names))
  | [], _ => by
      intro e he
      cases he
  | (_, f) :: rest, hs => by
      intro e he
      rcases List.mem_cons.mp he with rfl | hrest
      · exact f.projection_rightUnique hs.1
      · exact projection_rightUniqueEach rest hs.2 e hrest

end

/-- What is left of a document is determined by the document. -/
theorem Schema.projection_rightUnique (schema : Schema) (names : PointNames) :
    Relator.RightUnique (schema.Relates (.projection names)) :=
  Correspondence.Objects.rightUnique schema.distinct
    (projection_rightUniqueEach schema.fields schema.settled)

end

/-! ## Points to the wire and back -/

namespace PointNames
variable {names : PointNames}

/-- The coordinates under their own names. -/
def plain : PointNames := {}

theorem toWire_object (names : PointNames) {members : Members} {x y : Value}
    (hx : members.lookup "latitude" = some x) (hy : members.lookup "longitude" = some y) :
    names.toWire (.object members) =
      .ok (.object (Keyed.ofList [(names.latitude, x), (names.longitude, y)])) := by
  simp only [toWire, Value.member, hx, hy, ok_bind, pure_eq_ok]

theorem carries_toWire (names : PointNames) :
    Carries names.toWire Correspondence.SamePoint (Correspondence.Written names) := by
  rintro v w - ⟨here, there, x, y, rfl, rfl, ⟨hx, hy⟩, hx', hy'⟩
  exact ⟨_, names.toWire_object hx' hy', by simp, here, x, y, rfl, hx, hy, rfl⟩

theorem Good.carries_ofWire (h : names.Good) :
    Carries names.ofWire (Correspondence.Written names) (Correspondence.Written plain) := by
  rintro v w - ⟨members, x, y, rfl, hx, hy, rfl⟩
  refine ⟨.object [("latitude", x), ("longitude", y)], ?_, by simp, members, x, y, rfl, hx, hy, rfl⟩
  rw [if_neg h.differ, ofWire_pair, h.reading_latitude, h.reading_longitude]
  rfl

end PointNames

/-! ## Documents to the wire and back -/

theorem Schema.eq_iff_of_relates {schema : Schema} {names : PointNames} {document left : Value}
    (h : schema.Relates (.projection names) document left) (other : Value) :
    schema.Relates (.projection names) document other ↔ other = left := by
  constructor
  · exact fun hother => schema.projection_rightUnique names hother h
  · rintro rfl
    exact h

/-- Every well typed document has a wire form, which is the one thing that is left of it under the
names for the wire, and so has every document that agrees with it. With good names what comes back
is what is left of it under the usual names. -/
theorem only_declared_reaches_wire (names : PointNames) {schema : Schema} {document : Value}
    (h : schema.Typed document) : ∃ wire, schema.toWire names document = .ok wire ∧
      (∀ left, schema.Relates (.projection names) document left ↔ left = .object wire) ∧
      (∀ document', schema.Relates .agreement document document' →
        schema.toWire names document' = .ok wire) ∧
      (names.Good → ∃ back, schema.ofWire names (.object wire) = .ok back ∧
        ∀ left, schema.Relates (.projection .plain) document left ↔ left = .object back) := by
  obtain ⟨wire, hwire, hleft⟩ := schema.carries names.carries_toWire (Schema.relates_self h)
  have hunique := Schema.eq_iff_of_relates hleft
  refine ⟨wire, hwire, hunique, fun document' hagree => ?_, fun hgood => ?_⟩
  · obtain ⟨wire', hwire', hleft'⟩ := schema.carries names.carries_toWire hagree
    rw [← Value.object.inj ((hunique _).mp hleft')]
    exact hwire'
  · obtain ⟨back, hback, hplain⟩ := schema.carries hgood.carries_ofWire hleft
    exact ⟨back, hback, Schema.eq_iff_of_relates hplain⟩

namespace Sample

/-- A point with an altitude. -/
def summit : Value :=
  .object [("altitude", .int 3), ("longitude", .int 11), ("latitude", .int 57)]

/-- An owner with a telephone number. -/
def ida : Value := .object [("phone", .text "5550"), ("name", .text "Ida")]

/-- A place with more than is declared, at the top, in its owner and in its point. -/
def annotated : Value := .object [
  ("note", .text "private"),
  ("location", summit),
  ("owner", ida),
  ("tags", .list [.text "sea", .null]),
  ("id", .text "h1")]

/-- The same place without any of that, and in another order. -/
def bare : Value := .object [
  ("id", .text "h1"),
  ("tags", .list [.text "sea", .null]),
  ("owner", .object [("name", .text "Ida")]),
  ("location", .object [("latitude", .int 57), ("longitude", .int 11)])]

theorem annotated_typed : places.schema.Typed annotated := by
  have howner : MembersTyped [("name", .leaf .text { name := "name" })]
      [("phone", .text "5550"), ("name", .text "Ida")] :=
    ⟨fun _ _ => ⟨nofun, fun _ _ => trivial⟩, trivial⟩
  refine ⟨_, rfl, ?id, ?title, ?tags, ?location, ?owner, trivial⟩
  case id | title => exact fun _ _ => ⟨nofun, fun _ _ => trivial⟩
  case tags =>
      rintro _ ⟨⟩
      exact ⟨fun _ => .inr ⟨_, rfl⟩, fun _ _ => trivial⟩
  case location =>
      rintro _ ⟨⟩
      refine ⟨nofun, ?_⟩
      rintro _ ⟨-, rfl⟩
      exact ⟨_, _, _, rfl, rfl, rfl⟩
  case owner =>
      rintro _ ⟨⟩
      refine ⟨nofun, ?_⟩
      rintro _ ⟨-, rfl⟩
      exact ⟨_, rfl, howner⟩

theorem annotated_agrees : places.schema.Relates .agreement annotated bare := by
  have htop : ∀ key ∈ ["id", "title", "tags", "location", "owner"],
      key ∈ ["note", "location", "owner", "tags", "id"] ↔
        key ∈ ["id", "tags", "owner", "location"] := by decide
  have hinside : ∀ key ∈ ["name"], key ∈ ["phone", "name"] ↔ key ∈ ["name"] := by decide
  have howner : Field.Relates .agreement
      (.object { name := "owner" } [("name", .leaf .text { name := "name" })]) ida
      (.object [("name", .text "Ida")]) := by
    refine ⟨_, _, rfl, rfl, hinside, ?_, trivial⟩
    rintro _ _ ⟨⟩ ⟨⟩
    exact OrNull.refl fun _ => rfl
  refine ⟨_, _, rfl, rfl, htop, ?id, ?title, ?tags, ?location, ?owner, trivial⟩
  case id =>
      rintro _ _ ⟨⟩ ⟨⟩
      exact OrNull.refl fun _ => rfl
  case title =>
      rintro _ _ ⟨⟩
  case tags =>
      rintro _ _ ⟨⟩ ⟨⟩
      refine .inr ⟨by simp, by simp, _, _, rfl, rfl, ?_⟩
      exact .cons (.refl fun _ => rfl) (.cons (.refl fun _ => rfl) .nil)
  case location =>
      rintro _ _ ⟨⟩ ⟨⟩
      exact .inr ⟨by simp [summit], by simp, _, _, _, _, rfl, rfl, ⟨rfl, rfl⟩, rfl, rfl⟩
  case owner =>
      rintro _ _ ⟨⟩ ⟨⟩
      exact .inr ⟨by simp [ida], by simp, howner⟩

/-- The bare place as it is written. -/
def bareWire : Members := [
  ("id", .text "h1"),
  ("tags", .list [.text "sea", .null]),
  ("location", .object [("lat", .int 57), ("lon", .int 11)]),
  ("owner", .object [("name", .text "Ida")])]

/-- Of the place with notes nothing but the bare place is written, and that is what comes back. -/
theorem annotated_leaves_bare :
    places.schema.toWire .engine annotated = .ok bareWire ∧
      places.schema.toWire .engine bare = .ok bareWire ∧
      places.schema.Relates (.projection .engine) annotated (.object bareWire) ∧
      ∃ back, places.schema.ofWire .engine (.object bareWire) = .ok back ∧
        places.schema.Relates (.projection .plain) annotated (.object back) := by
  obtain ⟨wire, hwire, hleft, hagree, hback⟩ :=
    only_declared_reaches_wire .engine annotated_typed
  obtain rfl : bareWire = wire := Except.ok.inj hwire
  obtain ⟨back, hread, hplain⟩ := hback PointNames.good_engine
  exact ⟨hwire, hagree _ annotated_agrees, (hleft _).mpr rfl, back, hread, (hplain _).mpr rfl⟩

end Sample

end DocSearch
