import DocSearch.Engine
import DocSearch.Proofs.Fallible
import Mathlib.Algebra.Group.Nat.Defs

/-!
# What can be written out

A value has a plain text unless a whole number in it, at any depth, has more digits than may be
written. Nothing else stands in the way of a text. The identifier of a document and what is logged
of a request are such texts, so this is also when a save and a search get past them.
-/

namespace DocSearch

open Fallible

namespace Value

/-! ## Writable values -/

mutual

/-- Whether every whole number in a value, at any depth, has few enough digits to be written. -/
def Writable : Value → Prop
  | .number (.integer n) => n.natAbs < 10 ^ Text.digitLimit
  | .list items => EachWritable items
  | .object members => MembersWritable members
  | .null | .bool _ | .number (.decimal _) | .text _ => True

def EachWritable : List Value → Prop
  | [] => True
  | v :: rest => v.Writable ∧ EachWritable rest

def MembersWritable : Members → Prop
  | [] => True
  | e :: rest => e.2.Writable ∧ MembersWritable rest

end

theorem eachWritable_iff {items : List Value} :
    EachWritable items ↔ ∀ v ∈ items, v.Writable := by
  induction items with
  | nil => simp [EachWritable]
  | cons v rest ih => rw [EachWritable, ih, List.forall_mem_cons]

theorem membersWritable_iff {members : Members} :
    MembersWritable members ↔ ∀ e ∈ members, e.2.Writable := by
  induction members with
  | nil => simp [MembersWritable]
  | cons e rest ih => rw [MembersWritable, ih, List.forall_mem_cons]

@[simp] theorem writable_text (s : String) : (Value.text s).Writable := trivial

theorem writable_list {items : List Value} :
    (Value.list items).Writable ↔ ∀ v ∈ items, v.Writable := by
  rw [Writable, eachWritable_iff]

theorem writable_object {members : Members} :
    (Value.object members).Writable ↔ ∀ e ∈ members, e.2.Writable := by
  rw [Writable, membersWritable_iff]

@[simp] theorem writable_single {key : String} {v : Value} :
    (single key v).Writable ↔ v.Writable := by
  simp [single, writable_object]

/-! ## Texts of values -/

theorem isSome_display?_integer {n : Int} :
    (Number.integer n).display?.isSome ↔ n.natAbs < 10 ^ Text.digitLimit := by
  rw [Number.display?, ← Nat.length_toDigits_le_iff (by decide) (by decide)]
  split
  next hlong => simp [hlong]
  next hshort => simp [Nat.le_of_not_lt hshort]

mutual

theorem isSome_displayNested? : (v : Value) → (v.displayNested?.isSome ↔ v.Writable)
  | .null | .bool _ | .number (.decimal _) | .text _ => by simp [displayNested?, Number.display?, Writable]
  | .number (.integer n) => isSome_display?_integer
  | .list items => by
      rw [displayNested?, Writable, ← isSome_displayItems? items]
      cases displayItems? items <;> rfl
  | .object members => by
      rw [displayNested?, Writable, ← isSome_displayMembers? members]
      cases displayMembers? members <;> rfl

theorem isSome_displayItems? : (items : List Value) →
    ((displayItems? items).isSome ↔ EachWritable items)
  | [] => by simp [displayItems?, EachWritable]
  | v :: rest => by
      rw [displayItems?, EachWritable, ← isSome_displayNested? v, ← isSome_displayItems? rest]
      cases v.displayNested? <;> cases displayItems? rest <;> simp

theorem isSome_displayMembers? : (members : Members) →
    ((displayMembers? members).isSome ↔ MembersWritable members)
  | [] => by simp [displayMembers?, MembersWritable]
  | (_, v) :: rest => by
      rw [displayMembers?, MembersWritable, ← isSome_displayNested? v,
        ← isSome_displayMembers? rest]
      cases v.displayNested? <;> cases displayMembers? rest <;> simp

end

theorem isSome_display? (v : Value) : v.display?.isSome ↔ v.Writable := by
  cases v with
  | text s => simp [display?, Writable]
  | null | bool _ | number _ | list _ | object _ => exact isSome_displayNested? _

instance (v : Value) : Decidable v.Writable := decidable_of_iff _ v.isSome_display?

/-- A value that can be written has a plain text, and no other value has one. -/
theorem exists_plainText {v : Value} : (∃ written, v.plainText = .ok written) ↔ v.Writable := by
  rw [← isSome_display?, plainText]
  cases v.display? <;> simp

theorem plainText_eq_error {v : Value} {e : Error} :
    v.plainText = .error e ↔ ¬ v.Writable ∧ e = .tooManyDigits := by
  rw [← isSome_display?, plainText]
  cases v.display? <;> simp [eq_comm]

end Value

/-! ## Identifiers of documents -/

/-- Whether what members hold under a name can be written. What is not there needs no text. -/
def WritableUnder (name : String) (members : Members) : Prop :=
  ∀ v, members.lookup name = some v → v.Writable

/-- The text of what members hold under a name, if that is anything but null. -/
def writtenUnder? (name : String) (members : Members) : Option String :=
  match members.lookup name with
  | none => none
  | some .null => none
  | some v => v.display?

section
variable {name : String} {members : Members}

theorem writableUnder_iff {v : Value} (h : members.lookup name = some v) :
    WritableUnder name members ↔ v.Writable := by
  simp [WritableUnder, h]

instance (name : String) (members : Members) : Decidable (WritableUnder name members) :=
  match h : members.lookup name with
  | none => .isTrue fun v hv => by
      rw [h] at hv
      cases hv
  | some _ => decidable_of_iff _ (writableUnder_iff h).symm

/-- An identifier that can be written is written. -/
theorem identifierText_of_writable (h : WritableUnder name members) :
    identifierText name members = .ok (writtenUnder? name members) := by
  cases hv : members.lookup name with
  | none => simp [identifierText, writtenUnder?, hv]
  | some v =>
      obtain ⟨written, hwritten⟩ := Option.isSome_iff_exists.mp (v.isSome_display?.mpr (h v hv))
      cases v <;> simp [identifierText, writtenUnder?, hv, Value.plainText, hwritten, Except.map]

/-- One that cannot be written is an error. -/
theorem identifierText_of_not_writable (h : ¬ WritableUnder name members) :
    identifierText name members = .error .tooManyDigits := by
  cases hv : members.lookup name with
  | none => exact absurd (fun v hsome => by simp [hv] at hsome) h
  | some v =>
      rw [writableUnder_iff hv] at h
      have hnone : v.plainText = .error .tooManyDigits := Value.plainText_eq_error.mpr ⟨h, rfl⟩
      cases v <;> first | exact absurd trivial h | simp [identifierText, hv, hnone, Except.map]

theorem identifierText_eq_error {e : Error} :
    identifierText name members = .error e ↔
      ¬ WritableUnder name members ∧ e = .tooManyDigits := by
  by_cases h : WritableUnder name members
  · simp [identifierText_of_writable h, h]
  · simp [identifierText_of_not_writable h, h, eq_comm]

theorem exists_identifierText :
    (∃ id, identifierText name members = .ok id) ↔ WritableUnder name members := by
  by_cases h : WritableUnder name members
  · simp [identifierText_of_writable h, h]
  · simp [identifierText_of_not_writable h, h]

end

/-! ## Saves and deletions -/

/-- A document whose identifier cannot be written is not saved. -/
theorem Index.save_of_not_writable {index : Index} {names : PointNames} {members : Members}
    {options : WriteOptions} {waits : Bool} (hwaits : options.confirms = .ok waits)
    (hnot : ¬ WritableUnder index.identifier.name members) :
    index.save names (.object members) options = .error .tooManyDigits := by
  rw [save, hwaits, ok_bind, Value.entries, ok_bind, identifierText_of_not_writable hnot,
    error_bind]

theorem Engine.save_of_not_writable {engine : Engine} {key : String} {index : Index}
    {members : Members} {options : WriteOptions} {waits : Bool}
    (hindex : engine.index key = .ok index) (hwaits : options.confirms = .ok waits)
    (hnot : ¬ WritableUnder index.identifier.name members) :
    engine.save key (.object members) options = .error .tooManyDigits := by
  rw [save, hindex, ok_bind, Index.save_of_not_writable hwaits hnot]

/-- What is said of a deletion that came to something else, or that it cannot be said. -/
theorem Index.refuseDeletion_eq {α : Type} (index : Index) (id result : Value) :
    (index.refuseDeletion id result : Except Error α) = .error (
      if result.Writable ∧ id.Writable then .notDeleted id index.name result
      else .tooManyDigits) := by
  rw [refuseDeletion]
  by_cases hresult : result.Writable
  · obtain ⟨_, hwritten⟩ := Value.exists_plainText.mpr hresult
    by_cases hid : id.Writable
    · obtain ⟨_, hwritten'⟩ := Value.exists_plainText.mpr hid
      simp [hwritten, hwritten', hresult, hid]
    · simp [hwritten, Value.plainText_eq_error.mpr ⟨hid, rfl⟩, hid]
  · simp [Value.plainText_eq_error.mpr ⟨hresult, rfl⟩, hresult]

namespace Sample

/-- The least whole number that cannot be written. -/
def tooLong : Value := .int ((10 ^ Text.digitLimit : Nat) : Int)

theorem tooLong_not_writable : ¬ tooLong.Writable := Nat.lt_irrefl (10 ^ Text.digitLimit)

theorem tooLong_not_writableUnder {name : String} {members : Members}
    (h : members.lookup name = some tooLong) : ¬ WritableUnder name members :=
  mt (writableUnder_iff h).mp tooLong_not_writable

end Sample

end DocSearch
