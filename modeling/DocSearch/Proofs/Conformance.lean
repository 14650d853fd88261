import DocSearch.Document.Wire
import DocSearch.Proofs.Fallible
import DocSearch.Proofs.Lookup

/-!
# Documents that fit a schema

What it takes for a document to fit a schema, when two documents are the same, and where a document
holds a point. Fitting is stated for documents and for their wire forms at once: the only difference
is what a point looks like, which is a parameter.
-/

namespace DocSearch

/-! ## The same value up to the order of members -/

/-- Two values are the same if they differ only in the order of the members of objects, at any
depth. -/
inductive Value.Same : Value → Value → Prop
  | refl (v : Value) : Same v v
  | list {xs ys : List Value} : List.Forall₂ Same xs ys → Same (.list xs) (.list ys)
  | object {xs ys : Members} :
      (xs.map Prod.fst).Perm (ys.map Prod.fst) →
      (∀ key v w, xs.lookup key = some v → ys.lookup key = some w → Same v w) →
      Same (.object xs) (.object ys)

namespace Value.Same

theorem text_inj {s s' : String} (h : Same (.text s) (.text s')) : s = s' := by
  cases h
  rfl

theorem int_inj {n n' : Int} (h : Same (.int n) (.int n')) : n = n' := by
  cases h
  rfl

theorem list_iff {xs ys : List Value} :
    Same (.list xs) (.list ys) ↔ List.Forall₂ Same xs ys := by
  constructor
  · intro h
    cases h with
    | refl => exact List.forall₂_same.mpr fun v _ => .refl v
    | list h => exact h
  · exact .list

theorem keys {xs ys : Members} (h : Same (.object xs) (.object ys)) :
    (xs.map Prod.fst).Perm (ys.map Prod.fst) := by
  cases h with
  | refl => exact List.Perm.refl _
  | object hkeys _ => exact hkeys

theorem lookup {xs ys : Members} (h : Same (.object xs) (.object ys)) {key : String} {v w : Value}
    (hv : xs.lookup key = some v) (hw : ys.lookup key = some w) : Same v w := by
  cases h with
  | refl =>
      have hinj := Option.some.inj (hv.symm.trans hw)
      subst hinj
      exact .refl v
  | object _ hmembers => exact hmembers key v w hv hw

end Value.Same

/-! ## Slots -/

/-- The proper values of a slot: what stands there, or the items of the list that stands there if
the field is multiple. Null is never one of them. -/
def Within (multiple : Bool) (v slot : Value) : Prop :=
  v ≠ .null ∧ if multiple then ∃ items, slot = .list items ∧ v ∈ items else slot = v

theorem exists_within_single {Q : Value → Prop} {slot : Value} :
    (∃ v, Within false v slot ∧ Q v) ↔ slot ≠ .null ∧ Q slot := by
  constructor
  · intro hwithin
    rcases hwithin with ⟨v, ⟨hn, rfl⟩, hv⟩
    exact ⟨hn, hv⟩
  · intro hslot
    exact ⟨slot, ⟨hslot.1, rfl⟩, hslot.2⟩

theorem not_within_null {multiple : Bool} {v : Value} : ¬ Within multiple v .null := by
  intro hwithin
  cases multiple with
  | false => exact hwithin.1 hwithin.2.symm
  | true =>
      rcases hwithin with ⟨-, items, hitems, -⟩
      cases hitems

theorem exists_within_list {Q : Value → Prop} {items : List Value} :
    (∃ v, Within true v (.list items) ∧ Q v) ↔ ∃ v ∈ items, v ≠ .null ∧ Q v := by
  constructor
  · intro hwithin
    rcases hwithin with ⟨v, ⟨hn, others, hothers, hmem⟩, hv⟩
    have hinj := Value.list.inj hothers
    subst hinj
    exact ⟨v, hmem, hn, hv⟩
  · intro hitem
    rcases hitem with ⟨v, hmem, hn, hv⟩
    exact ⟨v, ⟨hn, items, rfl, hmem⟩, hv⟩

/-- What may stand in the slot of a field: null, a list if the field is multiple, and otherwise a
value of the right kind. -/
def SlotOf (multiple : Bool) (P : Value → Prop) (slot : Value) : Prop :=
  (multiple = true → slot = .null ∨ ∃ items, slot = .list items) ∧
    ∀ v, Within multiple v slot → P v

/-- An object with exactly the two members `first` and `second`. -/
def PointWith (first second : String) (v : Value) : Prop :=
  ∃ x y, v = .object [(first, x), (second, y)] ∨ v = .object [(second, y), (first, x)]

/-- An object that has no other keys than those of the fields and none twice, and whose members are
as asked for. -/
def ObjectOf (fields : List (String × Field)) (fit : Members → Prop) (v : Value) : Prop :=
  ∃ members, v = .object members ∧ Keyed.Distinct members ∧
    (∀ key ∈ members.map Prod.fst, key ∈ fields.map Prod.fst) ∧ fit members

/-! ## Conformance -/

section
variable (point : Value → Prop)

mutual

/-- A proper value of a field; `point` tells what a point looks like. Any value will do for a field
that is neither a point nor an object. -/
def Field.Conforms : Field → Value → Prop
  | .leaf .geoPoint _, v => point v
  | .leaf _ _, _ => True
  | .object _ fields, v => ObjectOf fields (fun members => MembersConform fields members) v

/-- Each declared member that is there fits its field; any of them may be absent. -/
def MembersConform : List (String × Field) → Members → Prop
  | [], _ => True
  | (key, f) :: rest, members =>
    (∀ slot, members.lookup key = some slot → SlotOf f.multiple f.Conforms slot) ∧
      MembersConform rest members

end

/-- A document that fits a schema. -/
def Schema.Conforms (schema : Schema) (document : Value) : Prop :=
  ObjectOf schema.fields (MembersConform point schema.fields) document

end

theorem membersConform_iff {point : Value → Prop} {fields : List (String × Field)}
    {members : Members} :
    MembersConform point fields members ↔ ∀ e ∈ fields, ∀ slot, members.lookup e.1 = some slot →
      SlotOf e.2.multiple (e.2.Conforms point) slot := by
  induction fields with
  | nil => simp [MembersConform]
  | cons e rest ih =>
      obtain ⟨key, f⟩ := e
      rw [MembersConform, ih, List.forall_mem_cons]

/-! ## Points inside a document -/

mutual

/-- Whether a proper value of a field is a point or holds one at any depth. -/
def Field.HoldsPoint : Field → Value → Prop
  | .leaf .geoPoint _, _ => True
  | .leaf _ _, _ => False
  | .object _ fields, v => MembersHoldPoint fields v

/-- Whether a member of an object holds a point. -/
def MembersHoldPoint : List (String × Field) → Value → Prop
  | [], _ => False
  | (key, f) :: rest, v =>
    (∃ members slot, v = .object members ∧ members.lookup key = some slot ∧
      ∃ w, Within f.multiple w slot ∧ f.HoldsPoint w) ∨ MembersHoldPoint rest v

end

/-- Whether a document holds a point at any depth. -/
def Schema.HoldsPoint (schema : Schema) (document : Value) : Prop :=
  MembersHoldPoint schema.fields document

theorem membersHoldPoint_iff {fields : List (String × Field)} {members : Members} :
    MembersHoldPoint fields (.object members) ↔ ∃ e ∈ fields, ∃ slot,
      members.lookup e.1 = some slot ∧ ∃ w, Within e.2.multiple w slot ∧ e.2.HoldsPoint w := by
  induction fields with
  | nil => simp [MembersHoldPoint]
  | cons e rest ih =>
      obtain ⟨key, f⟩ := e
      rw [MembersHoldPoint, ih, List.exists_mem_cons_iff]
      refine or_congr_left ?_
      constructor
      · intro hholds
        rcases hholds with ⟨_, slot, hm, hslot⟩
        have hinj := Value.object.inj hm
        subst hinj
        exact ⟨slot, hslot⟩
      · intro hslot
        rcases hslot with ⟨slot, hslot⟩
        exact ⟨members, slot, rfl, hslot⟩

end DocSearch
