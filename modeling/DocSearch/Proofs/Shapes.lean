import DocSearch.Proofs.ExactNames
import DocSearch.Proofs.Fallible
import DocSearch.Proofs.Sample
import DocSearch.Proofs.Unambiguous

/-!
# Mappings mirror schemas

The shape of a schema is its tree of keys and kinds. A schema has mappings unless a field of the
base kind stands somewhere in it, and the first one of these is the one that the error names. The
written mappings tell the shape and nothing else: neither the names of the fields nor their flags
come into them.

Mappings are compared as they are written, where the order of the keys counts, and also up to the
order of the keys at every level.
-/

namespace DocSearch

open Fallible

/-! ## Shapes -/

/-- A tree of keys and kinds. -/
inductive Shape where
  | leaf (kind : LeafKind)
  | object (fields : List (String × Shape))

mutual

/-- What is left of a field without its name, its flags and its class. -/
def Field.shape : Field → Shape
  | .leaf kind _ => .leaf kind
  | .object _ fields => .object (shapes fields)

def shapes : List (String × Field) → List (String × Shape)
  | [] => []
  | (key, f) :: rest => (key, f.shape) :: shapes rest

end

/-- Two shapes are the same if they differ only in the order of keys, at any depth. -/
inductive Shape.Same : Shape → Shape → Prop
  | leaf (kind : LeafKind) : Same (.leaf kind) (.leaf kind)
  | object {xs ys : List (String × Shape)} :
      (xs.map Prod.fst).Perm (ys.map Prod.fst) →
      (∀ key s t, xs.lookup key = some s → ys.lookup key = some t → Same s t) →
      Same (.object xs) (.object ys)

/-- The order of two keys does not matter. -/
theorem Shape.Same.swap {first second : String} (hne : first ≠ second) {s s' t t' : Shape}
    (hs : s.Same s') (ht : t.Same t') :
    (Shape.object [(first, s), (second, t)]).Same (.object [(second, t'), (first, s')]) := by
  refine .object (List.Perm.swap _ _ _) fun key u v hu hv => ?_
  rw [Keyed.lookup_cons_eq, Keyed.lookup_cons_eq] at hu hv
  by_cases hfirst : key = first
  · rw [if_pos hfirst] at hu
    rw [if_neg (hfirst ▸ hne), if_pos hfirst] at hv
    rw [← Option.some.inj hu, ← Option.some.inj hv]
    exact hs
  · rw [if_neg hfirst] at hu hv
    by_cases hsecond : key = second
    · rw [if_pos hsecond] at hu hv
      rw [← Option.some.inj hu, ← Option.some.inj hv]
      exact ht
    · rw [if_neg hsecond] at hu
      cases hu

theorem keys_shapes (fields : List (String × Field)) :
    (shapes fields).map Prod.fst = fields.map Prod.fst := by
  induction fields with
  | nil => rfl
  | cons e rest ih => rw [shapes, List.map_cons, List.map_cons, ih]

theorem lookup_shapes (fields : List (String × Field)) (key : String) :
    (shapes fields).lookup key = (fields.lookup key).map Field.shape := by
  induction fields with
  | nil => rfl
  | cons e rest ih =>
      rw [shapes, Keyed.lookup_cons_eq, Keyed.lookup_cons_eq, ih]
      split <;> rfl

/-! ## Fields of the base kind -/

namespace Field

/-- Whether a field is of no kind in particular. -/
def isBare : Field → Bool
  | .leaf .base _ => true
  | _ => false

mutual

/-- A field and those inside it, depth first and in order of declaration. -/
def declared : Field → List Field
  | .leaf kind a => [.leaf kind a]
  | .object a fields => .object a fields :: declaredEach fields

def declaredEach : List (String × Field) → List Field
  | [] => []
  | (_, f) :: rest => f.declared ++ declaredEach rest

end

end Field

/-- The error for the first field of the base kind. -/
def bareError? (declared : List Field) : Option Error :=
  (declared.find? Field.isBare).map fun f => .noMapping f.className

theorem bareError?_append (before after : List Field) :
    bareError? (before ++ after) = (bareError? before).or (bareError? after) := by
  rw [bareError?, bareError?, bareError?, List.find?_append]
  cases before.find? Field.isBare <;> rfl

-- The induction is on the schema, whose fields are gone through in the order in which they are
-- declared.
mutual

theorem Field.error?_mapping : (f : Field) → error? f.mapping = bareError? f.declared
  | .leaf kind a => by cases kind <;> rfl
  | .object a fields => by
      rw [Field.mapping, error?_bind_pure, error?_mappings fields]
      rfl

theorem error?_mappings : (fields : List (String × Field)) →
    error? (mappings fields) = bareError? (Field.declaredEach fields)
  | [] => rfl
  | (_, f) :: rest => by
      rw [mappings, Field.declaredEach, bareError?_append, ← f.error?_mapping,
        ← error?_mappings rest, error?_bind]
      cases f.mapping with
      | error e => rfl
      | ok m => exact error?_bind_pure _ _

end

/-- Something is made of fields unless one of them is of the base kind, and the first one that is
gives the error. -/
structure FailsAtFirstBare {α : Type} (declared : List Field) (result : Except Error α) :
    Prop where
  succeeds : (∃ a, result = .ok a) ↔ ∀ f ∈ declared, f.isBare = false
  fails : ∀ e, result = .error e ↔ ∃ before f after, declared = before ++ f :: after ∧
    (∀ earlier ∈ before, earlier.isBare = false) ∧ f.isBare = true ∧ e = .noMapping f.className

theorem failsAtFirstBare {α : Type} {declared : List Field} {result : Except Error α}
    (h : error? result = bareError? declared) : FailsAtFirstBare declared result where
  succeeds := by
    have hnone : (∃ a, result = .ok a) ↔ error? result = none := by
      cases result <;> simp [error?]
    rw [hnone, h, bareError?, Option.map_eq_none_iff, List.find?_eq_none]
    simp only [Bool.not_eq_true]
  fails e := by
    rw [← error?_eq_some_iff, h, bareError?, Option.map_eq_some_iff]
    simp only [List.find?_eq_some_iff_append, Bool.not_eq_true']
    constructor
    · rintro ⟨f, ⟨hbare, before, after, hsplit, hbefore⟩, rfl⟩
      exact ⟨before, f, after, hsplit, hbefore, hbare, rfl⟩
    · rintro ⟨before, f, after, hsplit, hbefore, hbare, rfl⟩
      exact ⟨f, ⟨hbare, before, after, hsplit, hbefore⟩, rfl⟩

/-! ## Reading the shape off a mapping -/

/-- The kind whose fields are kept under a type. -/
def LeafKind.ofTypeName? : String → Option LeafKind
  | "keyword" => some .identifier
  | "text" => some .text
  | "integer" => some .integer
  | "float" => some .float
  | "boolean" => some .boolean
  | "date" => some .dateTime
  | "geo_point" => some .geoPoint
  | _ => none

mutual

/-- The shape that a written mapping tells. -/
def Value.shape? : Value → Option Shape
  | .object [("type", .text "object"), ("properties", .object properties)] =>
    (shapesOf? properties).map .object
  | .object (("type", .text name) :: _) => (LeafKind.ofTypeName? name).map .leaf
  | _ => none

/-- The shapes that written properties tell, under their keys. -/
def shapesOf? : Members → Option (List (String × Shape))
  | [] => some []
  | (key, v) :: rest => do return (key, ← v.shape?) :: (← shapesOf? rest)

end

mutual

theorem Field.shape?_mapping : (f : Field) → {m : Mapping} → f.mapping = .ok m →
    m.toValue.shape? = some f.shape
  | .leaf kind a, m, h => by
      cases kind <;> rw [Field.mapping] at h <;> cases h <;> rfl
  | .object _ fields, m, h => by
      obtain ⟨properties, hproperties, rfl⟩ := Field.mapping_object_eq_ok.mp h
      rw [Mapping.toValue, Value.shape?, shapesOf?_mappings fields hproperties, Field.shape]
      rfl

theorem shapesOf?_mappings : (fields : List (String × Field)) →
    {properties : List (String × Mapping)} → mappings fields = .ok properties →
    shapesOf? (Mapping.toMembers properties) = some (shapes fields)
  | [], _, h => by
      obtain rfl := Except.ok.inj h
      rfl
  | (key, f) :: rest, _, h => by
      obtain ⟨m, ms, hm, hms, rfl⟩ := mappings_cons_eq_ok.mp h
      rw [Mapping.toMembers, shapesOf?, f.shape?_mapping hm, shapesOf?_mappings rest hms]
      rfl

end

/-- The properties of fields stand under the keys of the fields, in the same order. -/
theorem keys_mappings {fields : List (String × Field)} {properties : List (String × Mapping)}
    (h : mappings fields = .ok properties) :
    (Mapping.toMembers properties).map Prod.fst = fields.map Prod.fst := by
  induction fields generalizing properties with
  | nil =>
      obtain rfl := Except.ok.inj h
      rfl
  | cons e rest ih =>
      obtain ⟨m, ms, -, hms, rfl⟩ := mappings_cons_eq_ok.mp h
      rw [Mapping.toMembers, List.map_cons, List.map_cons, ih hms]

/-! ## The shape decides the mapping -/

mutual

theorem Field.mapping_of_shape_eq : (f g : Field) → f.shape = g.shape → {m : Mapping} →
    f.mapping = .ok m → g.mapping = .ok m
  | .leaf kind _, .leaf kind' _, h, m, hm => by
      obtain rfl : kind = kind' := Shape.leaf.inj h
      rw [Field.mapping] at hm ⊢
      cases hkind : Mapping.ofKind? kind with
      | none =>
          rw [hkind] at hm
          cases hm
      | some m' =>
          rw [hkind] at hm
          exact hm
  | .leaf _ _, .object _ _, h, _, _ => by cases h
  | .object _ _, .leaf _ _, h, _, _ => by cases h
  | .object _ fields, .object _ others, h, m, hm => by
      rw [Field.shape, Field.shape] at h
      obtain ⟨properties, hproperties, rfl⟩ := Field.mapping_object_eq_ok.mp hm
      have hothers := mappings_of_shapes_eq fields others (Shape.object.inj h) hproperties
      exact Field.mapping_object_eq_ok.mpr ⟨properties, hothers, rfl⟩

theorem mappings_of_shapes_eq : (fields others : List (String × Field)) →
    shapes fields = shapes others → {properties : List (String × Mapping)} →
    mappings fields = .ok properties → mappings others = .ok properties
  | [], [], _, _, hproperties => hproperties
  | [], _ :: _, h, _, _ => by cases h
  | _ :: _, [], h, _, _ => by cases h
  | (key, f) :: rest, (key', g) :: others, h, _, hproperties => by
      rw [shapes, shapes] at h
      obtain ⟨hfirst, hrest⟩ := List.cons.inj h
      obtain ⟨rfl, hshape⟩ := Prod.mk.inj hfirst
      obtain ⟨m, ms, hm, hms, rfl⟩ := mappings_cons_eq_ok.mp hproperties
      exact mappings_cons_eq_ok.mpr ⟨m, ms, f.mapping_of_shape_eq g hshape hm,
        mappings_of_shapes_eq rest others hrest hms, rfl⟩

end

/-! ## Mappings up to the order of keys -/

namespace Mapping

/-- The type under which a mapping is written. -/
def typeName : Mapping → String
  | .keyword => "keyword"
  | .integer => "integer"
  | .float => "float"
  | .boolean => "boolean"
  | .date => "date"
  | .geoPoint => "geo_point"
  | .text => "text"
  | .object _ => "object"

theorem lookup_type (m : Mapping) :
    ∃ members, m.toValue = .object members ∧ members.lookup "type" = some (.text m.typeName) := by
  cases m <;> exact ⟨_, by rw [toValue], rfl⟩

/-- Mappings that are the same are of the same type. -/
theorem typeName_eq_of_same {m m' : Mapping} (h : m.toValue.Same m'.toValue) :
    m.typeName = m'.typeName := by
  obtain ⟨members, hm, htype⟩ := m.lookup_type
  obtain ⟨members', hm', htype'⟩ := m'.lookup_type
  rw [hm, hm'] at h
  exact (h.lookup htype htype').text_inj

theorem same_object {properties properties' : List (String × Mapping)} :
    (Mapping.object properties).toValue.Same (Mapping.object properties').toValue ↔
      Value.Same (.object (toMembers properties)) (.object (toMembers properties')) := by
  rw [toValue, toValue, likeness_same.pair (by decide)]
  exact and_iff_right (.refl _)

end Mapping

/-- The type of the mapping of a leaf tells its kind. -/
theorem Field.ofTypeName?_leaf {kind : LeafKind} {a : Attributes} {m : Mapping}
    (h : (Field.leaf kind a).mapping = .ok m) : LeafKind.ofTypeName? m.typeName = some kind := by
  cases kind <;> rw [Field.mapping] at h <;> cases h <;> rfl

/-- The type of the mapping of an object is that of no leaf. -/
theorem Field.ofTypeName?_object {a : Attributes} {fields : List (String × Field)} {m : Mapping}
    (h : (Field.object a fields).mapping = .ok m) : LeafKind.ofTypeName? m.typeName = none := by
  obtain ⟨properties, -, rfl⟩ := Field.mapping_object_eq_ok.mp h
  rfl

/-- Under the key of a property there is a field that has it for its mapping. -/
theorem lookup_of_lookup_mappings {fields : List (String × Field)}
    {properties : List (String × Mapping)} (h : mappings fields = .ok properties) {key : String}
    {v : Value} (hv : (Mapping.toMembers properties).lookup key = some v) :
    ∃ f m, fields.lookup key = some f ∧ f.mapping = .ok m ∧ v = m.toValue := by
  have hkey : key ∈ fields.map Prod.fst := by
    rw [← keys_mappings h]
    exact Keyed.mem_keys_iff_exists_lookup.mpr ⟨v, hv⟩
  obtain ⟨f, hf⟩ := Keyed.mem_keys_iff_exists_lookup.mp hkey
  obtain ⟨m, hm, hproperty⟩ := lookup_mappings h hf
  rw [Mapping.lookup_toMembers, hproperty] at hv
  exact ⟨f, m, hf, hm, (Option.some.inj hv).symm⟩

/-- Properties are the same if the shapes are, where that is so field by field. -/
theorem same_mappings_iff {fields others : List (String × Field)}
    {properties properties' : List (String × Mapping)} (h : mappings fields = .ok properties)
    (h' : mappings others = .ok properties')
    (hfields : ∀ {key f}, fields.lookup key = some f → ∀ {g : Field} {m m'}, f.mapping = .ok m →
      g.mapping = .ok m' → (m.toValue.Same m'.toValue ↔ f.shape.Same g.shape)) :
    Value.Same (.object (Mapping.toMembers properties)) (.object (Mapping.toMembers properties')) ↔
      (Shape.object (shapes fields)).Same (.object (shapes others)) := by
  constructor
  · intro hsame
    refine .object ?_ ?_
    · rw [keys_shapes, keys_shapes, ← keys_mappings h, ← keys_mappings h']
      exact hsame.keys
    · intro key s t hs ht
      rw [lookup_shapes, Option.map_eq_some_iff] at hs ht
      obtain ⟨f, hf, rfl⟩ := hs
      obtain ⟨g, hg, rfl⟩ := ht
      obtain ⟨m, hm, hproperty⟩ := lookup_mappings h hf
      obtain ⟨m', hm', hproperty'⟩ := lookup_mappings h' hg
      have hv : (Mapping.toMembers properties).lookup key = some m.toValue := by
        rw [Mapping.lookup_toMembers, hproperty, Option.map_some]
      have hw : (Mapping.toMembers properties').lookup key = some m'.toValue := by
        rw [Mapping.lookup_toMembers, hproperty', Option.map_some]
      exact (hfields hf hm hm').mp (hsame.lookup hv hw)
  · intro hsame
    cases hsame with
    | object hkeys hlookup =>
        rw [keys_shapes, keys_shapes] at hkeys
        refine .object ?_ fun key v w hv hw => ?_
        · rw [keys_mappings h, keys_mappings h']
          exact hkeys
        · obtain ⟨f, m, hf, hm, rfl⟩ := lookup_of_lookup_mappings h hv
          obtain ⟨g, m', hg, hm', rfl⟩ := lookup_of_lookup_mappings h' hw
          refine (hfields hf hm hm').mpr (hlookup key _ _ ?_ ?_)
          · rw [lookup_shapes, hf, Option.map_some]
          · rw [lookup_shapes, hg, Option.map_some]

-- The induction is on the first field. A type tells the leaves apart from each other and from the
-- objects, so only objects are gone into.
mutual

theorem Field.same_mapping_iff : (f : Field) → {g : Field} → {m m' : Mapping} →
    f.mapping = .ok m → g.mapping = .ok m' → (m.toValue.Same m'.toValue ↔ f.shape.Same g.shape)
  | .leaf kind a, .leaf kind' b, m, m', hm, hm' => by
      have htype := Field.ofTypeName?_leaf hm
      have htype' := Field.ofTypeName?_leaf hm'
      constructor
      · intro hsame
        rw [Mapping.typeName_eq_of_same hsame, htype'] at htype
        rw [Field.shape, Field.shape, Option.some.inj htype]
        exact .leaf kind
      · intro hsame
        cases hsame with
        | leaf =>
            have hagain := Field.mapping_of_shape_eq (.leaf kind a) (.leaf kind b) rfl hm
            rw [Except.ok.inj (hagain.symm.trans hm')]
            exact .refl _
  | .leaf kind a, .object b others, m, m', hm, hm' => by
      have htype := Field.ofTypeName?_leaf hm
      have htype' := Field.ofTypeName?_object hm'
      refine iff_of_false (fun hsame => ?_) fun hsame => by cases hsame
      rw [Mapping.typeName_eq_of_same hsame, htype'] at htype
      cases htype
  | .object a fields, .leaf kind b, m, m', hm, hm' => by
      have htype := Field.ofTypeName?_object hm
      have htype' := Field.ofTypeName?_leaf hm'
      refine iff_of_false (fun hsame => ?_) fun hsame => by cases hsame
      rw [Mapping.typeName_eq_of_same hsame, htype'] at htype
      cases htype
  | .object _ fields, .object _ others, m, m', hm, hm' => by
      obtain ⟨properties, hproperties, rfl⟩ := Field.mapping_object_eq_ok.mp hm
      obtain ⟨properties', hproperties', rfl⟩ := Field.mapping_object_eq_ok.mp hm'
      rw [Mapping.same_object]
      exact same_mappings_iff hproperties hproperties' (same_mapping_of_lookup fields)

theorem same_mapping_of_lookup : (fields : List (String × Field)) → {key : String} → {f : Field} →
    fields.lookup key = some f → {g : Field} → {m m' : Mapping} → f.mapping = .ok m →
    g.mapping = .ok m' → (m.toValue.Same m'.toValue ↔ f.shape.Same g.shape)
  | (k, f) :: rest, key, f', hf, g, m, m', hm, hm' => by
      rw [Keyed.lookup_cons_eq] at hf
      split at hf
      · obtain rfl := Option.some.inj hf
        exact f.same_mapping_iff hm hm'
      · exact same_mapping_of_lookup rest hf hm hm'

end

/-! ## The mappings of an index -/

/-- The shape that the written mappings of an index tell. -/
def Value.bodyShape? : Value → Option Shape
  | .object [("properties", .object properties)] => (shapesOf? properties).map .object
  | _ => none

namespace Index

def shape (index : Index) : Shape := .object (shapes index.fields)

/-- At every level the written properties have the keys of the declared fields, in the order of
their declaration, and what is written tells the shape. -/
structure MirroredIn (index : Index) (body : Value) : Prop where
  keys : body.submappings.map Prod.fst = index.fields.map Prod.fst
  innerKeys : ∀ path a fields, fieldAt? index.fields path = some (.object a fields) →
    ∃ mapping, body.mappingAt? path = some mapping ∧
      mapping.submappings.map Prod.fst = fields.map Prod.fst
  shape : body.bodyShape? = some index.shape

theorem mirroredIn_mappingBody {index : Index} {properties : List (String × Mapping)}
    (h : index.mappings = .ok properties) : index.MirroredIn (mappingBody properties) where
  keys := keys_mappings h
  innerKeys path a fields hpath := by
    have hbody : (mappingBody properties).submappings = Mapping.toMembers properties := rfl
    obtain ⟨m, hm, hmapping⟩ := mappingAt?_of_fieldAt? h hbody hpath
    obtain ⟨inner, hinner, rfl⟩ := Field.mapping_object_eq_ok.mp hm
    refine ⟨_, hmapping, ?_⟩
    rw [Mapping.submappings_object]
    exact keys_mappings hinner
  shape := by
    rw [mappingBody, Value.bodyShape?, shapesOf?_mappings index.fields h]
    rfl

end Index

/-- Two things made of fields are written alike exactly if the shapes of the fields agree. -/
structure ToldApart (written written' : Value) (s s' : Shape) : Prop where
  equal : written = written' ↔ s = s'
  same : written.Same written' ↔ s.Same s'

theorem Field.toldApart {f g : Field} {m m' : Mapping} (hm : f.mapping = .ok m)
    (hm' : g.mapping = .ok m') : ToldApart m.toValue m'.toValue f.shape g.shape where
  equal := by
    constructor
    · intro hwritten
      have hshape := f.shape?_mapping hm
      rw [hwritten, g.shape?_mapping hm'] at hshape
      exact (Option.some.inj hshape).symm
    · intro hshape
      rw [f.mapping_of_shape_eq g hshape hm] at hm'
      rw [Except.ok.inj hm']
  same := f.same_mapping_iff hm hm'

theorem Index.toldApart {A B : Index} {properties properties' : List (String × Mapping)}
    (h : A.mappings = .ok properties) (h' : B.mappings = .ok properties') :
    ToldApart (mappingBody properties) (mappingBody properties') A.shape B.shape where
  equal := by
    constructor
    · intro hwritten
      have hshape := (Index.mirroredIn_mappingBody h).shape
      rw [hwritten, (Index.mirroredIn_mappingBody h').shape] at hshape
      exact (Option.some.inj hshape).symm
    · intro hshape
      have hagain := mappings_of_shapes_eq A.fields B.fields (Shape.object.inj hshape) h
      rw [Except.ok.inj (hagain.symm.trans h')]
  same := by
    rw [mappingBody, mappingBody, ← Value.single, ← Value.single, likeness_same.single,
      and_iff_right rfl]
    exact same_mappings_iff h h' (same_mapping_of_lookup A.fields)

/-- A field or an index has a mapping unless a field of the base kind stands somewhere in it, and
the first of these in order of declaration is the one whose class the error names. The written
mapping has the declared keys at every level and tells the kind of every field. So it is decided by
the tree of keys and kinds, and it decides that tree. -/
theorem mappings_mirror_schemas :
    (∀ f : Field, FailsAtFirstBare f.declared f.mapping ∧
      ∀ m, f.mapping = .ok m → m.toValue.shape? = some f.shape) ∧
    (∀ index : Index, FailsAtFirstBare (Field.declaredEach index.fields) index.mappings ∧
      ∀ properties, index.mappings = .ok properties →
        index.MirroredIn (mappingBody properties)) ∧
    (∀ (f g : Field) m m', f.mapping = .ok m → g.mapping = .ok m' →
      ToldApart m.toValue m'.toValue f.shape g.shape) ∧
    (∀ (A B : Index) properties properties', A.mappings = .ok properties →
      B.mappings = .ok properties' →
      ToldApart (mappingBody properties) (mappingBody properties') A.shape B.shape) ∧
    (∀ f g : Field, f.shape = g.shape → ∀ m, f.mapping = .ok m ↔ g.mapping = .ok m) ∧
    ∀ A B : Index, A.shape = B.shape → ∀ properties,
      A.mappings = .ok properties ↔ B.mappings = .ok properties := by
  refine ⟨fun f => ⟨failsAtFirstBare f.error?_mapping, fun m => f.shape?_mapping⟩,
    fun index => ⟨failsAtFirstBare (error?_mappings index.fields),
      fun properties => Index.mirroredIn_mappingBody⟩,
    fun f g m m' => Field.toldApart, fun A B properties properties' => Index.toldApart, ?_, ?_⟩
  · intro f g hshape m
    exact ⟨f.mapping_of_shape_eq g hshape, g.mapping_of_shape_eq f hshape.symm⟩
  · intro A B hshape properties
    have hfields := Shape.object.inj hshape
    exact ⟨mappings_of_shapes_eq A.fields B.fields hfields,
      mappings_of_shapes_eq B.fields A.fields hfields.symm⟩

namespace Sample

def locks : Index where
  name := "locks"
  schema := .ofList [
    ("id", .leaf .identifier { name := "id" }),
    ("gate", .object { name := "gate" } [
      ("name", .leaf .text { name := "name" }),
      ("place", .leaf .geoPoint { name := "place" })])]
  oneIdentifier := rfl

/-- The same keys and kinds in another order, under other names and with other flags. -/
def weirs : Index where
  name := "weirs"
  schema := .ofList [
    ("gate", .object { name := "g", multiple := true } [
      ("place", .leaf .geoPoint { name := "p", sortable := true }),
      ("name", .leaf .text { name := "n", filterable := true, className := some "Name" })]),
    ("id", .leaf .identifier { name := "key" })]
  oneIdentifier := rfl

/-- Fields of the base kind below others. -/
def sluice : Field :=
  .object { name := "sluice" } [
    ("inner", .object { name := "inner" } [
      ("width", .leaf .integer { name := "width" }),
      ("depth", .leaf .base { name := "depth", className := some "Depth" })]),
    ("tags", .leaf .base { name := "tags" })]

/-- The locks and the weirs have mappings that differ only in the order of keys. Of the two fields
of the sluice without a mapping the inner one comes first. -/
theorem locks_mirror_weirs :
    (∃ properties properties', locks.mappings = .ok properties ∧
      weirs.mappings = .ok properties' ∧
      (mappingBody properties).Same (mappingBody properties') ∧
      mappingBody properties ≠ mappingBody properties') ∧
    sluice.mapping = .error (.noMapping "Depth") ∧
    (Error.noMapping "Depth").message = some "No mapping for field type Depth" := by
  obtain ⟨hfields, -, -, htold, -⟩ := mappings_mirror_schemas
  have hgate : (Shape.object [("name", .leaf .text), ("place", .leaf .geoPoint)]).Same
      (.object [("place", .leaf .geoPoint), ("name", .leaf .text)]) :=
    .swap (by decide) (.leaf .text) (.leaf .geoPoint)
  have hsame : locks.shape.Same weirs.shape := .swap (by decide) (.leaf .identifier) hgate
  have hne : locks.shape ≠ weirs.shape := by
    intro heq
    have hkey : "id" = "gate" := (Prod.mk.inj (List.cons.inj (Shape.object.inj heq)).1).1
    exact absurd hkey (by decide)
  have hlocks : locks.mappings = .ok [("id", .keyword),
      ("gate", .object [("name", .text), ("place", .geoPoint)])] := rfl
  have hweirs : weirs.mappings = .ok [("gate", .object [("place", .geoPoint), ("name", .text)]),
      ("id", .keyword)] := rfl
  have hapart := htold locks weirs _ _ hlocks hweirs
  refine ⟨⟨_, _, hlocks, hweirs, hapart.same.mpr hsame, fun heq => hne (hapart.equal.mp heq)⟩, ?_,
    by decide⟩
  refine ((hfields sluice).1.fails (.noMapping "Depth")).mpr
    ⟨sluice.declared.take 3, .leaf .base { name := "depth", className := some "Depth" },
      sluice.declared.drop 4, rfl, ?_, rfl, rfl⟩
  intro earlier hearlier
  have hclean : (sluice.declared.take 3).all (fun f => !f.isBare) = true := rfl
  simpa using List.all_eq_true.mp hclean earlier hearlier

end Sample

end DocSearch
