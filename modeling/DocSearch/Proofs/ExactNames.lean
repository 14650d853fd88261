import DocSearch.Proofs.Fallible
import DocSearch.Proofs.Lookup
import DocSearch.Proofs.Meaning
import DocSearch.Schema.Mapping

/-!
# Where exact values live

A filter addresses a field by name, and an index is made from the mappings of its fields. The two
are written apart and have to meet: following the parts of the name through the mappings leads to
what keeps the exact value of the field, which is the keyword beside a text and the field itself
otherwise. No two paths share such a name, since a text leads nowhere and so no path goes on from
it to a field called `raw`.
-/

namespace DocSearch

open Fallible

/-! ## Dotted paths -/

namespace Text

theorem splitOn_ne_nil (sep : Char) (text : List Char) : splitOn sep text ≠ [] := by
  cases text with
  | nil => exact List.cons_ne_nil _ _
  | cons c rest =>
      rw [splitOn]
      split
      · exact List.cons_ne_nil _ _
      · split <;> exact List.cons_ne_nil _ _

/-- A separator keeps what stands before it apart from what follows. -/
theorem splitOn_append_cons (sep : Char) (before after : List Char) :
    splitOn sep (before ++ sep :: after) = splitOn sep before ++ splitOn sep after := by
  induction before with
  | nil => simp only [List.nil_append, splitOn, if_true, List.singleton_append]
  | cons c rest ih =>
      rw [List.cons_append, splitOn, splitOn, ih]
      by_cases hc : c = sep
      · rw [if_pos hc, if_pos hc, List.cons_append]
      · rw [if_neg hc, if_neg hc]
        cases hrest : splitOn sep rest with
        | nil => exact absurd hrest (splitOn_ne_nil sep rest)
        | cons part parts => rfl

theorem splitOn_of_notMem {sep : Char} {text : List Char} (h : sep ∉ text) :
    splitOn sep text = [text] := by
  induction text with
  | nil => rfl
  | cons c rest ih =>
      rw [List.mem_cons, not_or] at h
      rw [splitOn, if_neg (Ne.symm h.1), ih h.2]

theorem dotted_ne_nil (path : String) : dotted path ≠ [] := by
  rw [dotted, Ne, List.map_eq_nil_iff]
  exact splitOn_ne_nil _ _

/-- The name of the exact value of a text is one part longer than the path of the text. -/
theorem dotted_append_rawSuffix (path : String) :
    dotted (path ++ Index.rawSuffix) = dotted path ++ ["raw"] := by
  have hchars : (path ++ Index.rawSuffix).toList = path.toList ++ '.' :: ['r', 'a', 'w'] := by
    rw [String.toList_append]
    rfl
  rw [dotted, hchars, splitOn_append_cons, List.map_append]
  rfl

end Text

/-- More than one key leads on through an object field. -/
theorem fieldAt?_cons_eq_some {fields : List (String × Field)} {key : String} {rest : List String}
    {f : Field} (hrest : rest ≠ []) :
    fieldAt? fields (key :: rest) = some f ↔
      ∃ a inner, fields.lookup key = some (.object a inner) ∧ fieldAt? inner rest = some f := by
  rw [fieldAt?]
  · constructor
    · intro h
      split at h
      next a inner hobject => exact ⟨a, inner, hobject, h⟩
      next => cases h
    · rintro ⟨a, inner, hobject, h⟩
      rw [hobject]
      exact h
  · exact hrest

/-- What a path goes on from is an object field. -/
theorem object_of_fieldAt?_append {fields : List (String × Field)} {keys : List String}
    {key : String} {f : Field} (hkeys : keys ≠ []) (h : fieldAt? fields (keys ++ [key]) = some f) :
    ∃ a inner, fieldAt? fields keys = some (.object a inner) := by
  induction keys generalizing fields with
  | nil => exact absurd rfl hkeys
  | cons first rest ih =>
      obtain ⟨a, inner, hfirst, hon⟩ := (fieldAt?_cons_eq_some (by simp)).mp h
      by_cases hrest : rest = []
      · subst hrest
        exact ⟨a, inner, hfirst⟩
      · obtain ⟨a', inner', hlast⟩ := ih hrest hon
        exact ⟨a', inner', (fieldAt?_cons_eq_some hrest).mpr ⟨a, inner, hfirst, hlast⟩⟩

/-! ## Names -/

namespace Index
variable {index : Index} {path name : String}

theorem fieldAt_eq_ok {f : Field} :
    index.fieldAt path = .ok f ↔ fieldAt? index.fields (Text.dotted path) = some f := by
  unfold fieldAt
  cases fieldAt? index.fields (Text.dotted path) with
  | none => simp
  | some g => simp

theorem exactName_of_fieldAt {f : Field} (h : index.fieldAt path = .ok f) :
    index.exactName path = .ok (if f.isText then path ++ rawSuffix else path) := by
  rw [exactName, h, ok_bind, pure_eq_ok]

theorem exactName_eq_ok_iff :
    index.exactName path = .ok name ↔
      ∃ f, index.fieldAt path = .ok f ∧ name = if f.isText then path ++ rawSuffix else path := by
  rw [exactName, bind_eq_ok]
  simp only [pure_eq_ok, Except.ok.injEq, eq_comm]

/-- No path goes on from a text. -/
theorem fieldAt_append_rawSuffix {f g : Field} (hf : index.fieldAt path = .ok f)
    (htext : f.isText = true) : index.fieldAt (path ++ rawSuffix) ≠ .ok g := by
  intro hg
  rw [fieldAt_eq_ok, Text.dotted_append_rawSuffix] at hg
  obtain ⟨a, inner, hobject⟩ := object_of_fieldAt?_append (Text.dotted_ne_nil path) hg
  rw [fieldAt_eq_ok, hobject] at hf
  obtain rfl := Option.some.inj hf
  cases htext

/-- The exact values of different paths have different names. -/
theorem exactName_injective {path' : String} (h : index.exactName path = .ok name)
    (h' : index.exactName path' = .ok name) : path = path' := by
  obtain ⟨f, hf, hname⟩ := exactName_eq_ok_iff.mp h
  obtain ⟨g, hg, hname'⟩ := exactName_eq_ok_iff.mp h'
  rw [hname] at hname'
  cases hftext : f.isText <;> cases hgtext : g.isText <;>
    simp only [hftext, hgtext, Bool.false_eq_true, if_true, if_false] at hname'
  case false.false => exact hname'
  case false.true => exact absurd (hname' ▸ hf) (fieldAt_append_rawSuffix hg hgtext)
  case true.false => exact absurd (hname' ▸ hg) (fieldAt_append_rawSuffix hf hftext)
  case true.true => exact String.append_left_inj rawSuffix |>.mp hname'

end Index

/-! ## Following a name through the mappings -/

/-- What a written mapping leads on to: the properties of an object, or else the sub-fields of a
text. -/
def Value.submappings : Value → Members
  | .object members =>
    match members.lookup "properties", members.lookup "fields" with
    | some (.object properties), _ => properties
    | _, some (.object fields) => fields
    | _, _ => []
  | _ => []

/-- The mapping that the parts of a name lead to. -/
def Value.mappingAt? (mapping : Value) : List String → Option Value
  | [] => some mapping
  | key :: rest =>
    match mapping.submappings.lookup key with
    | some inner => inner.mappingAt? rest
    | none => none

theorem Value.mappingAt?_append {mapping inner : Value} {keys : List String}
    (h : mapping.mappingAt? keys = some inner) (further : List String) :
    mapping.mappingAt? (keys ++ further) = inner.mappingAt? further := by
  induction keys generalizing mapping with
  | nil =>
      obtain rfl := Option.some.inj h
      rfl
  | cons key rest ih =>
      rw [mappingAt?] at h
      rw [List.cons_append, mappingAt?]
      cases hkey : mapping.submappings.lookup key with
      | none =>
          rw [hkey] at h
          cases h
      | some next =>
          rw [hkey] at h
          exact ih h

/-- The mapping of the exact value that is kept beside a text. -/
def Mapping.exactText : Value :=
  .object [("type", .text "keyword"), ("ignore_above", .int exactLength)]

namespace Mapping

theorem lookup_toMembers (properties : List (String × Mapping)) (key : String) :
    (toMembers properties).lookup key = (properties.lookup key).map toValue := by
  induction properties with
  | nil => rfl
  | cons e rest ih =>
      obtain ⟨k, m⟩ := e
      rw [toMembers, Keyed.lookup_cons_eq, Keyed.lookup_cons_eq, ih]
      by_cases hk : key = k
      · rw [if_pos hk, if_pos hk, Option.map_some]
      · rw [if_neg hk, if_neg hk]

theorem submappings_object (properties : List (String × Mapping)) :
    (Mapping.object properties).toValue.submappings = toMembers properties := by
  rw [toValue]
  rfl

theorem submappings_text : Mapping.text.toValue.submappings = [("raw", exactText)] := by
  rw [toValue]
  rfl

/-- Only the mapping of a text is that of an analysed text. -/
theorem type_toValue {m : Mapping} (h : m.toValue.member "type" = .ok (.text "text")) :
    m = .text := by
  cases m with
  | text => rfl
  | keyword | integer | float | boolean | date | geoPoint | object _ =>
      rw [toValue] at h
      injection h with h
      injection h with h
      exact absurd h (by decide)

end Mapping

theorem Field.mapping_object_eq_ok {a : Attributes} {fields : List (String × Field)} {m : Mapping} :
    (Field.object a fields).mapping = .ok m ↔
      ∃ properties, mappings fields = .ok properties ∧ m = .object properties := by
  rw [Field.mapping, bind_eq_ok]
  simp only [pure_eq_ok, Except.ok.injEq, eq_comm]

theorem mappings_cons_eq_ok {key : String} {f : Field} {rest : List (String × Field)}
    {properties : List (String × Mapping)} :
    mappings ((key, f) :: rest) = .ok properties ↔
      ∃ m ms, f.mapping = .ok m ∧ mappings rest = .ok ms ∧ properties = (key, m) :: ms := by
  rw [mappings]
  simp only [bind_eq_ok, pure_eq_ok, Except.ok.injEq]
  constructor
  · rintro ⟨m, hm, ms, hms, rfl⟩
    exact ⟨m, ms, hm, hms, rfl⟩
  · rintro ⟨m, ms, hm, hms, rfl⟩
    exact ⟨m, hm, ms, hms, rfl⟩

/-- A field has the mapping of a text exactly if it is a text. -/
theorem Field.mapping_eq_text_iff {f : Field} {m : Mapping} (h : f.mapping = .ok m) :
    m = .text ↔ f.isText = true := by
  cases f with
  | leaf kind a =>
      cases kind <;> rw [Field.mapping] at h <;> cases h <;> simp [Field.isText]
  | object a fields =>
      obtain ⟨properties, -, rfl⟩ := Field.mapping_object_eq_ok.mp h
      simp [Field.isText]

theorem lookup_mappings {fields : List (String × Field)} {properties : List (String × Mapping)}
    (h : mappings fields = .ok properties) {key : String} {f : Field}
    (hf : fields.lookup key = some f) :
    ∃ m, f.mapping = .ok m ∧ properties.lookup key = some m := by
  induction fields generalizing properties with
  | nil => cases hf
  | cons e rest ih =>
      obtain ⟨k, g⟩ := e
      obtain ⟨m, ms, hm, hms, rfl⟩ := mappings_cons_eq_ok.mp h
      rw [Keyed.lookup_cons_eq] at hf ⊢
      by_cases hk : key = k
      · rw [if_pos hk] at hf ⊢
        obtain rfl := Option.some.inj hf
        exact ⟨m, hm, rfl⟩
      · rw [if_neg hk] at hf ⊢
        exact ih hms hf

/-- A path leads through the mappings to that of its field. -/
theorem mappingAt?_of_fieldAt? {fields : List (String × Field)}
    {properties : List (String × Mapping)} {mapping : Value}
    (h : mappings fields = .ok properties)
    (hmapping : mapping.submappings = Mapping.toMembers properties) {keys : List String} {f : Field}
    (hf : fieldAt? fields keys = some f) :
    ∃ m, f.mapping = .ok m ∧ mapping.mappingAt? keys = some m.toValue := by
  induction keys generalizing fields properties mapping with
  | nil => cases hf
  | cons key rest ih =>
      rw [Value.mappingAt?, hmapping, Mapping.lookup_toMembers]
      by_cases hrest : rest = []
      · subst hrest
        obtain ⟨m, hm, hkey⟩ := lookup_mappings h hf
        exact ⟨m, hm, by rw [hkey]; rfl⟩
      · obtain ⟨a, inner, hobject, hon⟩ := (fieldAt?_cons_eq_some hrest).mp hf
        obtain ⟨m, hm, hkey⟩ := lookup_mappings h hobject
        obtain ⟨innerProperties, hinner, rfl⟩ := Field.mapping_object_eq_ok.mp hm
        rw [hkey]
        exact ih hinner (Mapping.submappings_object innerProperties) hon

/-- The path of a field leads to its mapping, and the name of its exact value to the keyword beside
a text or to the mapping itself. -/
theorem Index.mappingAt?_exactName {index : Index} {properties : List (String × Mapping)}
    (h : index.mappings = .ok properties) {path : String} {f : Field}
    (hf : index.fieldAt path = .ok f) :
    ∃ name m, index.exactName path = .ok name ∧ f.mapping = .ok m ∧
      (mappingBody properties).mappingAt? (Text.dotted path) = some m.toValue ∧
      (f.isText = true → m.toValue.submappings = [("raw", Mapping.exactText)] ∧
        (mappingBody properties).mappingAt? (Text.dotted name) = some Mapping.exactText) ∧
      (f.isText = false →
        (mappingBody properties).mappingAt? (Text.dotted name) = some m.toValue) := by
  have hbody : (mappingBody properties).submappings = Mapping.toMembers properties := rfl
  obtain ⟨m, hm, hpath⟩ := mappingAt?_of_fieldAt? h hbody (fieldAt_eq_ok.mp hf)
  refine ⟨_, m, exactName_of_fieldAt hf, hm, hpath, fun htext => ?_, fun hplain => ?_⟩
  · obtain rfl := (Field.mapping_eq_text_iff hm).mpr htext
    refine ⟨Mapping.submappings_text, ?_⟩
    rw [if_pos htext, Text.dotted_append_rawSuffix, Value.mappingAt?_append hpath,
      Value.mappingAt?, Mapping.submappings_text]
    rfl
  · rw [hplain]
    exact hpath

/-! ## The names in a query -/

/-- The name of the field that an atom tests. -/
def Atom.fieldName? : Atom → Option String
  | .ids _ => none
  | .queryString _ => none
  | .term field _ => some field
  | .terms field _ => some field
  | .range field _ _ => some field
  | .geoDistance field _ _ _ => some field
  | .geoBoundingBox field _ _ _ _ => some field

def Clause.atom : Clause → Atom
  | .test a => a
  | .required a => a
  | .excluded a => a

namespace Query

mutual

/-- The names of all fields that a query tests, at any depth. -/
def fieldNames : Query → List String
  | .empty => []
  | .matchAll => []
  | .clause c => c.atom.fieldName?.toList
  | .group _ members => allFieldNames members

def allFieldNames : List Query → List String
  | [] => []
  | q :: rest => q.fieldNames ++ allFieldNames rest

end

theorem mem_fieldNames_join {j : Junction} {qs : List Query} {name : String}
    (h : name ∈ (join j qs).fieldNames) : name ∈ allFieldNames qs := by
  match qs, h with
  | [q], h => exact List.mem_append_left _ h
  | _ :: _ :: _, h => exact h

end Query

/-- A leaf tests the field under the name of its exact value, or none. -/
theorem Leaf.exactName_of_compile {index : Index} {leaf : Leaf} {c : Clause}
    (h : leaf.compile index = .ok c) {name : String} (hname : c.atom.fieldName? = some name) :
    ∃ path, index.exactName path = .ok name := by
  cases leaf with
  | identifier _ | search _ =>
      obtain rfl := Except.ok.inj h
      cases hname
  | equal path _ | notEqual path _ | compare _ path _ | near path _ _ _ | within path _ _ _ _ =>
      obtain ⟨field, hfield, hc⟩ := bind_eq_ok.mp h
      obtain rfl := Except.ok.inj hc
      obtain rfl := Option.some.inj hname
      exact ⟨path, hfield⟩
  | isIn path values | notIn path values =>
      obtain ⟨field, hfield, hrest⟩ := bind_eq_ok.mp h
      obtain ⟨items, -, hc⟩ := bind_eq_ok.mp hrest
      obtain rfl := Except.ok.inj hc
      obtain rfl := Option.some.inj hname
      exact ⟨path, hfield⟩

-- The induction is on the tree of conditions, as the compiler goes through it.
mutual

theorem exactName_of_compileAs {index : Index} : (c : Condition) → (further : List ConditionKind) →
    (q : Query) → c.compileAs index further = .ok q → ∀ name ∈ q.fieldNames,
    ∃ path, index.exactName path = .ok name
  | .leaf l, further, q, h, name, hname => by
      obtain ⟨clause, hc, hq⟩ := bind_eq_ok.mp h
      obtain rfl := Except.ok.inj hq
      obtain ⟨read, -, hread⟩ := l.readAs_of_compileAs hc
      exact Leaf.exactName_of_compile hread (Option.mem_toList.mp hname)
  | .all conditions, further, q, h, name, hname => by
      obtain ⟨qs, hqs, hq⟩ := bind_eq_ok.mp h
      obtain rfl := Except.ok.inj hq
      exact exactName_of_compileEach conditions qs hqs name (Query.mem_fieldNames_join hname)
  | .any conditions, further, q, h, name, hname => by
      obtain ⟨qs, hqs, hq⟩ := bind_eq_ok.mp h
      obtain rfl := Except.ok.inj hq
      exact exactName_of_compileEach conditions qs hqs name (Query.mem_fieldNames_join hname)
  | .named _ more c, further, q, h, name, hname =>
      exactName_of_compileAs c (more ++ further) q (Condition.compileAs_named_eq_ok.mp h) name hname
  | .unsupported _, _, _, h, _, _ => by cases h

theorem exactName_of_compileEach {index : Index} : (conditions : List Condition) →
    (qs : List Query) → compileEach index conditions = .ok qs → ∀ name ∈ Query.allFieldNames qs,
    ∃ path, index.exactName path = .ok name
  | [], qs, h, name, hname => by
      obtain rfl := Except.ok.inj h
      cases hname
  | c :: rest, kept, h, name, hname => by
      obtain ⟨q, hq, hrest⟩ := bind_eq_ok.mp h
      obtain ⟨qs, hqs, hkept⟩ := bind_eq_ok.mp hrest
      obtain rfl := Except.ok.inj hkept
      have hrest := exactName_of_compileEach rest qs hqs name
      split at hname
      · exact hrest hname
      · rcases List.mem_append.mp hname with hfirst | hothers
        · exact exactName_of_compileAs c [] q hq name hfirst
        · exact hrest hothers

end

/-! ## Filters and mappings agree -/

/-- The name of the exact value of a field leads through the mappings of its index to the keyword
beside a text and to the mapping of the field itself otherwise. So a compiled query tests no
analysed text and nothing that the mappings lack, and no two paths share a name. -/
theorem exact_names_reach_exact_values {index : Index} {properties : List (String × Mapping)}
    (h : index.mappings = .ok properties) :
    (∀ path f, index.fieldAt path = .ok f → ∃ name m,
      index.exactName path = .ok name ∧ f.mapping = .ok m ∧
      (mappingBody properties).mappingAt? (Text.dotted path) = some m.toValue ∧
      (f.isText = true → m.toValue.submappings = [("raw", Mapping.exactText)] ∧
        (mappingBody properties).mappingAt? (Text.dotted name) = some Mapping.exactText) ∧
      (f.isText = false →
        (mappingBody properties).mappingAt? (Text.dotted name) = some m.toValue)) ∧
    (∀ conditions junction q, compile index conditions junction = .ok q →
      ∀ name ∈ q.fieldNames, ∃ mapping,
        (mappingBody properties).mappingAt? (Text.dotted name) = some mapping ∧
        mapping.member "type" ≠ .ok (.text "text")) ∧
    (∀ path path' name, index.exactName path = .ok name → index.exactName path' = .ok name →
      path = path') := by
  refine ⟨fun path f => Index.mappingAt?_exactName h, ?_,
    fun path path' name => Index.exactName_injective⟩
  intro conditions junction q hq name hname
  obtain ⟨qs, hqs, hjoin⟩ := bind_eq_ok.mp hq
  obtain rfl := Except.ok.inj hjoin
  obtain ⟨path, hpath⟩ :=
    exactName_of_compileEach conditions qs hqs name (Query.mem_fieldNames_join hname)
  obtain ⟨f, hf, -⟩ := Index.exactName_eq_ok_iff.mp hpath
  obtain ⟨name', m, hname', hm, -, htext, hplain⟩ := Index.mappingAt?_exactName h hf
  rw [hpath] at hname'
  obtain rfl := Except.ok.inj hname'
  cases hkind : f.isText with
  | true => exact ⟨_, (htext hkind).2, by simp [Mapping.exactText, Value.member]⟩
  | false =>
      refine ⟨_, hplain hkind, fun htype => ?_⟩
      rw [(Field.mapping_eq_text_iff hm).mp (Mapping.type_toValue htype)] at hkind
      cases hkind

namespace Sample

/-- An index in which the words that mappings are made of are keys as well. -/
def vessels : Index where
  name := "vessels"
  schema := .ofList [
    ("id", .leaf .identifier { name := "id" }),
    ("raw", .leaf .boolean { name := "raw" }),
    ("fields", .object { name := "fields" } [
      ("properties", .leaf .text { name := "properties" }),
      ("raw", .leaf .integer { name := "raw" })])]
  oneIdentifier := rfl

def vesselsProperties : List (String × Mapping) :=
  [("id", .keyword), ("raw", .boolean),
    ("fields", .object [("properties", .text), ("raw", .integer)])]

theorem vessels_exact_names :
    vessels.mappings = .ok vesselsProperties ∧
      vessels.exactName "fields.properties" = .ok "fields.properties.raw" ∧
      (mappingBody vesselsProperties).mappingAt? (Text.dotted "fields.properties.raw") =
        some Mapping.exactText ∧
      vessels.exactName "fields.raw" = .ok "fields.raw" ∧
      (mappingBody vesselsProperties).mappingAt? (Text.dotted "fields.raw") =
        some Mapping.integer.toValue := by
  have hmappings : vessels.mappings = .ok vesselsProperties := rfl
  obtain ⟨hexact, -, -⟩ := exact_names_reach_exact_values hmappings
  have htext : vessels.exactName "fields.properties" = .ok "fields.properties.raw" := rfl
  have hnumber : vessels.exactName "fields.raw" = .ok "fields.raw" := rfl
  obtain ⟨name, m, hname, -, -, hraw, -⟩ := hexact "fields.properties" _ rfl
  obtain ⟨name', m', hname', hm', -, -, hplain⟩ := hexact "fields.raw" _ rfl
  rw [htext] at hname
  rw [hnumber] at hname'
  obtain rfl := Except.ok.inj hname
  obtain rfl := Except.ok.inj hname'
  obtain rfl := Except.ok.inj hm'
  exact ⟨hmappings, htext, (hraw rfl).2, hnumber, hplain rfl⟩

end Sample

end DocSearch
