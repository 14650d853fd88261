import DocSearch.Document.Bulk
import DocSearch.Proofs.DirectLookup
import DocSearch.Proofs.ExactNames

/-!
# Classes of the caller's

A caller may put a condition into a class of their own that is of no further kind, and declare a
field under a class of their own. With these classes taken away everywhere, conditions and schemas
are plain. Nothing but the plain form counts: it decides whether an index is accepted, what filters
are compiled to and how a search is sent, what documents become on the wire and what is read from
it, what is written and under which identifiers, and the mappings. The one place where the name of a
class can be seen is the error about a field that has no mapping.
-/

namespace DocSearch

open Fallible

/-! ## Plain fields -/

mutual

/-- A field without classes of the caller's, at every depth. -/
def Field.plain : Field → Field
  | .leaf kind a => .leaf kind { a with className := none }
  | .object a fields => .object { a with className := none } (plainFields fields)

def plainFields : List (String × Field) → List (String × Field)
  | [] => []
  | (key, f) :: rest => (key, f.plain) :: plainFields rest

end

namespace Field

@[simp] theorem name_plain (f : Field) : f.plain.name = f.name := by
  cases f <;> rfl

@[simp] theorem multiple_plain (f : Field) : f.plain.multiple = f.multiple := by
  cases f <;> rfl

@[simp] theorem isIdentifier_plain (f : Field) : f.plain.isIdentifier = f.isIdentifier := by
  cases f with
  | leaf kind a => cases kind <;> rfl
  | object a fields => rfl

@[simp] theorem isText_plain (f : Field) : f.plain.isText = f.isText := by
  cases f with
  | leaf kind a => cases kind <;> rfl
  | object a fields => rfl

end Field

theorem lookup_plainFields (fields : List (String × Field)) (key : String) :
    (plainFields fields).lookup key = (fields.lookup key).map Field.plain := by
  induction fields with
  | nil => rfl
  | cons e rest ih =>
      obtain ⟨k, f⟩ := e
      rw [plainFields, Keyed.lookup_cons_eq, Keyed.lookup_cons_eq, ih]
      split <;> rfl

/-- Paths lead to the same places. -/
theorem fieldAt?_plainFields (fields : List (String × Field)) (keys : List String) :
    fieldAt? (plainFields fields) keys = (fieldAt? fields keys).map Field.plain := by
  induction keys generalizing fields with
  | nil => rfl
  | cons key rest ih =>
      cases rest with
      | nil => exact lookup_plainFields fields key
      | cons next rest =>
          rw [fieldAt?, fieldAt?, lookup_plainFields]
          · cases fields.lookup key with
            | none => rfl
            | some f =>
                cases f with
                | leaf kind a => rfl
                | object a inner => exact ih inner
          · exact List.cons_ne_nil _ _
          · exact List.cons_ne_nil _ _

theorem identifiers_plainFields (fields : List (String × Field)) :
    identifiers (plainFields fields) = (identifiers fields).map Field.plain := by
  induction fields with
  | nil => rfl
  | cons e rest ih =>
      obtain ⟨key, f⟩ := e
      simp only [identifiers, plainFields, List.map_cons, List.filter_cons] at ih ⊢
      rw [f.isIdentifier_plain]
      split
      · rw [ih, List.map_cons]
      · exact ih

-- The induction is on the schema, as documents are converted.
mutual

theorem Field.convert_plain (point : Value → Except Error Value) : (f : Field) → (v : Value) →
    f.plain.convert point v = f.convert point v
  | .leaf kind a, v => by cases kind <;> rfl
  | .object a fields, v => by
      rw [Field.plain, Field.convert, Field.convert, convertFields_plain point fields v]

theorem convertFields_plain (point : Value → Except Error Value) :
    (fields : List (String × Field)) → (data : Value) →
    convertFields point (plainFields fields) data = convertFields point fields data
  | [], _ => rfl
  | (key, f) :: rest, data => by
      have hfirst : f.plain.convert point = f.convert point := funext (f.convert_plain point)
      rw [plainFields, convertFields, convertFields, hfirst, f.multiple_plain,
        convertFields_plain point rest data]

end

/-! ## Mappings -/

mutual

theorem Field.mapping_plain_eq_ok : (f : Field) → {m : Mapping} →
    (f.plain.mapping = .ok m ↔ f.mapping = .ok m)
  | .leaf kind a, m => by
      rw [Field.plain, Field.mapping, Field.mapping]
      cases Mapping.ofKind? kind <;> simp
  | .object a fields, m => by
      rw [Field.plain, Field.mapping, Field.mapping]
      simp only [bind_eq_ok, mappings_plain_eq_ok fields]

theorem mappings_plain_eq_ok : (fields : List (String × Field)) → {ms : List (String × Mapping)} →
    (mappings (plainFields fields) = .ok ms ↔ mappings fields = .ok ms)
  | [], _ => Iff.rfl
  | (key, f) :: rest, ms => by
      rw [plainFields, mappings, mappings]
      simp only [bind_eq_ok, f.mapping_plain_eq_ok, mappings_plain_eq_ok rest]

end

mutual

/-- Where the first field without a mapping stands, by keys from the outside in. -/
def Field.unmappedAt? : Field → Option (List String)
  | .leaf kind _ => if Mapping.ofKind? kind = none then some [] else none
  | .object _ fields => unmappedAt? fields

def unmappedAt? : List (String × Field) → Option (List String)
  | [] => none
  | (key, f) :: rest => (f.unmappedAt?.map (key :: ·)).or (unmappedAt? rest)

end

mutual

theorem Field.unmappedAt?_plain : (f : Field) → f.plain.unmappedAt? = f.unmappedAt?
  | .leaf _ _ => rfl
  | .object _ fields => unmappedAt?_plainFields fields

theorem unmappedAt?_plainFields : (fields : List (String × Field)) →
    unmappedAt? (plainFields fields) = unmappedAt? fields
  | [] => rfl
  | (key, f) :: rest => by
      rw [plainFields, unmappedAt?, unmappedAt?, f.unmappedAt?_plain, unmappedAt?_plainFields rest]

end

/-- A field behind others under different keys is found all the same. -/
theorem fieldAt?_cons_of_ne {key first : String} (h : first ≠ key) (f : Field)
    (fields : List (String × Field)) (rest : List String) :
    fieldAt? ((key, f) :: fields) (first :: rest) = fieldAt? fields (first :: rest) := by
  have hlookup : ((key, f) :: fields).lookup first = fields.lookup first := by
    rw [Keyed.lookup_cons_eq, if_neg h]
  cases rest with
  | nil => exact hlookup
  | cons next rest =>
      rw [fieldAt?, fieldAt?, hlookup]
      · exact List.cons_ne_nil _ _
      · exact List.cons_ne_nil _ _

theorem mem_keys_of_fieldAt? {fields : List (String × Field)} {key : String} {rest : List String}
    {f : Field} (h : fieldAt? fields (key :: rest) = some f) : key ∈ fields.map Prod.fst := by
  cases rest with
  | nil => exact Keyed.mem_keys_iff_exists_lookup.mpr ⟨f, h⟩
  | cons next rest =>
      obtain ⟨a, inner, hobject, -⟩ := (fieldAt?_cons_eq_some (List.cons_ne_nil _ _)).mp h
      exact Keyed.mem_keys_iff_exists_lookup.mpr ⟨_, hobject⟩

-- Keys have to be distinct for the path to lead to this field.
mutual

/-- A field has a mapping unless it or a field inside it has none; then it is the first of these
that the error names. -/
theorem Field.mapping_of_unmappedAt? : (f : Field) → f.Settled →
    (f.unmappedAt? = none → ∃ m, f.mapping = .ok m) ∧
    ∀ keys, f.unmappedAt? = some keys → ∃ g, f.mapping = .error (.noMapping g.className) ∧
      (keys = [] ∧ g = f ∨
        ∃ a inner, f = .object a inner ∧ keys ≠ [] ∧ fieldAt? inner keys = some g)
  | .leaf kind a, _ => by
      rw [Field.unmappedAt?, Field.mapping]
      cases hkind : Mapping.ofKind? kind with
      | some m => exact ⟨fun _ => ⟨m, rfl⟩, fun keys h => by simp at h⟩
      | none =>
          refine ⟨fun h => by simp at h, fun keys h => ⟨.leaf kind a, rfl, .inl ⟨?_, rfl⟩⟩⟩
          exact (Option.some.inj h).symm
  | .object a fields, h => by
      obtain ⟨hmapped, hunmapped⟩ := mappings_of_unmappedAt? fields h.1 h.2
      rw [Field.unmappedAt?, Field.mapping]
      constructor
      · intro hnone
        obtain ⟨ms, hms⟩ := hmapped hnone
        exact ⟨.object ms, by rw [hms]; rfl⟩
      · intro keys hkeys
        obtain ⟨hne, g, hg, herror⟩ := hunmapped keys hkeys
        exact ⟨g, by rw [herror]; rfl, .inr ⟨a, fields, rfl, hne, hg⟩⟩

theorem mappings_of_unmappedAt? : (fields : List (String × Field)) → Keyed.Distinct fields →
    AllSettled fields →
    (unmappedAt? fields = none → ∃ ms, mappings fields = .ok ms) ∧
    ∀ keys, unmappedAt? fields = some keys → keys ≠ [] ∧ ∃ g, fieldAt? fields keys = some g ∧
      mappings fields = .error (.noMapping g.className)
  | [], _, _ => ⟨fun _ => ⟨[], rfl⟩, fun keys h => by cases h⟩
  | (key, f) :: rest, hdistinct, hsettled => by
      rw [Keyed.Distinct, List.map_cons, List.nodup_cons] at hdistinct
      obtain ⟨hfirst, hfirstAt⟩ := f.mapping_of_unmappedAt? hsettled.1
      obtain ⟨hrest, hrestAt⟩ := mappings_of_unmappedAt? rest hdistinct.2 hsettled.2
      rw [unmappedAt?, mappings]
      cases hf : f.unmappedAt? with
      | some keys =>
          obtain ⟨g, herror, hplace⟩ := hfirstAt keys hf
          refine ⟨fun h => absurd h (by simp), fun keys' h => ?_⟩
          have hkeys : key :: keys = keys' := Option.some.inj h
          subst hkeys
          refine ⟨List.cons_ne_nil _ _, g, ?_, by rw [herror]; rfl⟩
          rcases hplace with ⟨rfl, rfl⟩ | ⟨a, inner, rfl, hne, hg⟩
          · exact List.lookup_cons_self
          · exact (fieldAt?_cons_eq_some hne).mpr ⟨a, inner, List.lookup_cons_self, hg⟩
      | none =>
          obtain ⟨m, hm⟩ := hfirst hf
          rw [hm, ok_bind]
          refine ⟨fun h => ?_, fun keys h => ?_⟩
          · obtain ⟨ms, hms⟩ := hrest h
            exact ⟨(key, m) :: ms, by rw [hms]; rfl⟩
          · obtain ⟨hne, g, hg, herror⟩ := hrestAt keys h
            refine ⟨hne, g, ?_, by rw [herror]; rfl⟩
            cases keys with
            | nil => exact absurd rfl hne
            | cons first keys =>
                have hother : first ≠ key := by
                  rintro rfl
                  exact hdistinct.1 (mem_keys_of_fieldAt? hg)
                rw [fieldAt?_cons_of_ne hother]
                exact hg

end

/-! ## Plain conditions -/

namespace Condition

mutual

/-- A condition without classes of the caller's that are of no further kind, at every depth. What is
no condition keeps the name of its own class. -/
def plain : Condition → Condition
  | .leaf l => .leaf l
  | .all conditions => .all (plainEach conditions)
  | .any conditions => .any (plainEach conditions)
  | .named className further c =>
    if further ≠ [] then .named className further c.plain
    else if c.isForeign then .unsupported className
    else c.plain
  | .unsupported className => .unsupported className

def plainEach : List Condition → List Condition
  | [] => []
  | c :: rest => c.plain :: plainEach rest

end

theorem isOf_plain (kind : ConditionKind) : (c : Condition) → c.plain.isOf kind = c.isOf kind
  | .leaf _ => rfl
  | .all _ => rfl
  | .any _ => rfl
  | .named className further c => by
      rw [plain, isOf]
      split
      next => rw [isOf, c.isOf_plain kind]
      next hnone =>
        rw [not_not.mp hnone, List.contains_nil, Bool.or_false]
        split
        next hforeign => rw [c.isOf_of_isForeign kind hforeign, isOf]
        next => exact c.isOf_plain kind
  | .unsupported _ => rfl

theorem identifier?_plain : (c : Condition) → c.plain.identifier? = c.identifier?
  | .leaf _ => rfl
  | .all _ => rfl
  | .any _ => rfl
  | .named className further c => by
      rw [plain, identifier?]
      split
      next => rw [identifier?, c.identifier?_plain]
      next =>
        split
        next hforeign => exact (c.identifier?_of_isForeign hforeign).symm
        next => exact c.identifier?_plain
  | .unsupported _ => rfl

mutual

theorem compileAs_plain (index : Index) : (c : Condition) → (further : List ConditionKind) →
    c.plain.compileAs index further = c.compileAs index further
  | .leaf _, _ => rfl
  | .all conditions, further => by
      rw [plain, compileAs, compileAs, compileEach_plainEach index conditions]
  | .any conditions, further => by
      rw [plain, compileAs, compileAs, compileEach_plainEach index conditions]
  | .named className more c, further => by
      rw [plain]
      split
      next hsome =>
        rw [compileAs, compileAs, if_neg (fun h => hsome h.2.1), if_neg (fun h => hsome h.2.1),
          c.compileAs_plain index (more ++ further)]
      next hnone =>
        rw [not_not.mp hnone]
        split
        next hforeign =>
          have hnamed : (named className [] c).isForeign = true := hforeign
          rw [(named className [] c).compileAs_of_isForeign index further hnamed, compileAs]
          rfl
        next hforeign =>
          rw [compileAs_named index className [] further (Bool.not_eq_true _ ▸ hforeign)]
          exact c.compileAs_plain index further
  | .unsupported _, _ => rfl

theorem compileEach_plainEach (index : Index) : (conditions : List Condition) →
    compileEach index (plainEach conditions) = compileEach index conditions
  | [] => rfl
  | c :: rest => by
      rw [plainEach, compileEach, compileEach, c.compileAs_plain index [],
        compileEach_plainEach index rest]

end

end Condition

theorem compile_plainEach (index : Index) (conditions : List Condition) (junction : Junction) :
    compile index (Condition.plainEach conditions) junction =
      compile index conditions junction := by
  rw [compile, compile, Condition.compileEach_plainEach]

namespace Search

/-- A search with the plain form of its filters. -/
def plain (search : Search) : Search :=
  { search with filters := Condition.plainEach search.filters }

theorem body_plain (search : Search) : search.plain.body = search.body := by
  simp only [body, plain, compile_plainEach]
  rfl

theorem lookup?_plain (search : Search) :
    search.plain.lookup? = search.lookup?.map Condition.plain := by
  obtain ⟨index, filters, sorts, limit, offset⟩ := search
  match filters with
  | [] => rfl
  | [c] =>
      simp only [plain, lookup?, Condition.plainEach, c.isOf_plain]
      split <;> rfl
  | first :: second :: rest => rfl

/-- A search is sent in the same way with the plain form of its filters. -/
theorem request_plain (search : Search) (names : PointNames) :
    search.plain.request names = search.request names := by
  rw [request, request, lookup?_plain]
  cases search.lookup? with
  | none =>
      simp only [Option.map_none, generalRequest, body_plain]
      rfl
  | some c =>
      simp only [Option.map_some, c.identifier?_plain]
      rfl

end Search

/-! ## Indexes with the same plain fields -/

/-- Indexes that differ in classes of the caller's at most. -/
structure Index.Twin (A B : Index) : Prop where
  name : A.name = B.name
  fields : plainFields A.fields = plainFields B.fields

namespace Index.Twin

variable {A B : Index}

theorem fieldAt? (h : A.Twin B) (keys : List String) :
    (DocSearch.fieldAt? A.fields keys).map Field.plain =
      (DocSearch.fieldAt? B.fields keys).map Field.plain := by
  rw [← fieldAt?_plainFields, h.fields, fieldAt?_plainFields]

theorem exactName (h : A.Twin B) : A.exactName = B.exactName := by
  funext path
  have hplain := h.fieldAt? (Text.dotted path)
  simp only [Index.exactName, fieldAt, h.name]
  cases hf : DocSearch.fieldAt? A.fields (Text.dotted path) with
  | none =>
      cases hg : DocSearch.fieldAt? B.fields (Text.dotted path) with
      | none => rfl
      | some g =>
          rw [hf, hg] at hplain
          cases hplain
  | some f =>
      cases hg : DocSearch.fieldAt? B.fields (Text.dotted path) with
      | none =>
          rw [hf, hg] at hplain
          cases hplain
      | some g =>
          rw [hf, hg] at hplain
          have hsame : f.plain = g.plain := Option.some.inj hplain
          have htext : f.isText = g.isText := by
            rw [← f.isText_plain, hsame, g.isText_plain]
          simp only [ok_bind, htext]

theorem leaf_compileAs (h : A.Twin B) (kind : ConditionKind) (leaf : Leaf) :
    leaf.compileAs A kind = leaf.compileAs B kind := by
  have hcompile (l : Leaf) : l.compile A = l.compile B := by
    cases l <;> simp only [Leaf.compile, h.exactName]
  simp only [Leaf.compileAs, hcompile, h.exactName]

mutual

theorem compileAs (h : A.Twin B) : (c : Condition) → (further : List ConditionKind) →
    c.compileAs A further = c.compileAs B further
  | .leaf _, further => by rw [Condition.compileAs, Condition.compileAs, h.leaf_compileAs]
  | .all conditions, further => by
      rw [Condition.compileAs, Condition.compileAs, h.compileEach conditions]
  | .any conditions, further => by
      rw [Condition.compileAs, Condition.compileAs, h.compileEach conditions]
  | .named _ more c, further => by
      rw [Condition.compileAs, Condition.compileAs, h.compileAs c (more ++ further)]
  | .unsupported _, _ => rfl

theorem compileEach (h : A.Twin B) : (conditions : List Condition) →
    DocSearch.compileEach A conditions = DocSearch.compileEach B conditions
  | [] => rfl
  | c :: rest => by
      rw [DocSearch.compileEach, DocSearch.compileEach, h.compileAs c [], h.compileEach rest]

end

theorem compile (h : A.Twin B) (conditions : List Condition) (junction : Junction) :
    DocSearch.compile A conditions junction = DocSearch.compile B conditions junction := by
  rw [DocSearch.compile, DocSearch.compile, h.compileEach]

theorem identifier_name (h : A.Twin B) : A.identifier.name = B.identifier.name := by
  have hplain :
      (identifiers A.fields).map Field.plain = (identifiers B.fields).map Field.plain := by
    rw [← identifiers_plainFields, h.fields, identifiers_plainFields]
  have hhead (index : Index) :
      ((identifiers index.fields).map Field.plain).head? = some index.identifier.plain := by
    rw [List.head?_map, List.head?_eq_some_head]
    rfl
  have hsame : A.identifier.plain = B.identifier.plain :=
    Option.some.inj ((hhead A).symm.trans ((congrArg List.head? hplain).trans (hhead B)))
  rw [← A.identifier.name_plain, hsame, B.identifier.name_plain]

theorem toWire (h : A.Twin B) : A.schema.toWire = B.schema.toWire := by
  funext names document
  have hsame := h.fields
  show convertFields names.toWire A.fields document = convertFields names.toWire B.fields document
  rw [← convertFields_plain, hsame, convertFields_plain]

theorem ofWire (h : A.Twin B) : A.schema.ofWire = B.schema.ofWire := by
  funext names wire
  show convertFields names.ofWire A.fields wire = convertFields names.ofWire B.fields wire
  rw [← convertFields_plain, h.fields, convertFields_plain]

theorem refuseDeletion (h : A.Twin B) {α : Type} :
    (A.refuseDeletion : Value → Value → Except Error α) = B.refuseDeletion := by
  funext id result
  simp only [Index.refuseDeletion, h.name]

theorem readDeleted (h : A.Twin B) : A.readDeleted = B.readDeleted := by
  funext id answer
  simp only [Index.readDeleted, h.refuseDeletion]

theorem save (h : A.Twin B) : A.save = B.save := by
  funext names document options
  simp only [Index.save, h.toWire, h.identifier_name, h.name]

theorem delete (h : A.Twin B) : A.delete = B.delete := by
  funext id options
  simp only [Index.delete, h.readDeleted, h.refuseDeletion, h.name]

theorem chunks (h : A.Twin B) (names : PointNames) (waits : Bool) :
    A.saveChunk names waits = B.saveChunk names waits ∧
      A.deleteChunk waits = B.deleteChunk waits := by
  have hread : readBulk A = readBulk B := by
    funext phase reply
    simp only [readBulk, h.name]
  have haction : A.saveAction names = B.saveAction names := by
    funext document
    simp only [Index.saveAction, h.toWire, h.identifier_name, h.name]
  constructor
  · funext documents
    simp only [Index.saveChunk, haction, hread]
  · funext ids
    simp only [Index.deleteChunk, hread, h.name]

theorem bulk {σ : Type} (h : A.Twin B) (service : Service σ) (names : PointNames) (job : BulkJob)
    (patience : Nat) (s : σ) :
    service.bulk A names job patience s = service.bulk B names job patience s := by
  unfold Service.bulk
  simp only [(h.chunks names _).1, (h.chunks names _).2]

/-- The mappings are the same, or neither has any because of the same field. -/
theorem mappings (h : A.Twin B) :
    (∀ ms, A.mappings = .ok ms ↔ B.mappings = .ok ms) ∧
      ∀ e, A.mappings = .error e → ∃ keys f g, DocSearch.fieldAt? A.fields keys = some f ∧
        DocSearch.fieldAt? B.fields keys = some g ∧ e = .noMapping f.className ∧
        B.mappings = .error (.noMapping g.className) := by
  constructor
  · intro ms
    rw [Index.mappings, Index.mappings, ← mappings_plain_eq_ok, h.fields, mappings_plain_eq_ok]
  · intro e he
    obtain ⟨hmapped, hunmapped⟩ :=
      mappings_of_unmappedAt? A.fields A.schema.distinct A.schema.settled
    have hplace : unmappedAt? A.fields = unmappedAt? B.fields := by
      rw [← unmappedAt?_plainFields, h.fields, unmappedAt?_plainFields]
    cases hkeys : unmappedAt? A.fields with
    | none =>
        obtain ⟨ms, hms⟩ := hmapped hkeys
        cases he.symm.trans hms
    | some keys =>
        obtain ⟨-, f, hf, hfails⟩ := hunmapped keys hkeys
        obtain ⟨-, g, hg, hfails'⟩ :=
          (mappings_of_unmappedAt? B.fields B.schema.distinct B.schema.settled).2 keys
            (hplace ▸ hkeys)
        exact ⟨keys, f, g, hf, hg, Except.error.inj (he.symm.trans hfails), hfails'⟩

/-- A search on the twin is the same request, but that its result is read by the twin's schema. -/
theorem request (h : A.Twin B) (names : PointNames) (filters : List Condition)
    (sorts : List (String × String)) (limit offset : Nat) :
    (⟨B, filters, sorts, limit, offset⟩ : Search).request names = (do
      let request ← (⟨A, filters, sorts, limit, offset⟩ : Search).request names
      return request.andThen fun found => .ok { found with schema := B.schema }) := by
  have hlookup : (⟨B, filters, sorts, limit, offset⟩ : Search).lookup? =
      (⟨A, filters, sorts, limit, offset⟩ : Search).lookup? := rfl
  have hbody : (⟨B, filters, sorts, limit, offset⟩ : Search).body =
      (⟨A, filters, sorts, limit, offset⟩ : Search).body := by
    simp only [Search.body, h.compile]
  rw [Search.request, Search.request, hlookup]
  cases (⟨A, filters, sorts, limit, offset⟩ : Search).lookup? with
  | some c =>
      dsimp only
      cases c.identifier? with
      | none => rfl
      | some id =>
          dsimp only
          cases id.plainText with
          | error e => rfl
          | ok written =>
              simp only [ok_bind, pure_eq_ok, Search.lookupRequest, Request.andThen, h.name]
              congr 2
              funext reply
              cases reply with
              | ok answer => rfl
              | error fault =>
                  by_cases hkind : fault.kind = .notFound
                  · simp only [if_pos hkind, ok_bind]
                    rfl
                  · simp only [if_neg hkind, error_bind]
  | none =>
      simp only [Search.generalRequest, hbody]
      cases (⟨A, filters, sorts, limit, offset⟩ : Search).body with
      | error e => rfl
      | ok body =>
          rw [ok_bind, ok_bind]
          cases body.toValue.plainText with
          | error e => rfl
          | ok written =>
              simp only [ok_bind, pure_eq_ok, Request.andThen, h.name]
              congr 2
              funext reply
              simp only [Search.readHits, bind_assoc, pure_bind]
              rfl

end Index.Twin

/-! ## Results -/

/-- A result is read by the schema of the index that was searched. -/
theorem Search.schema_of_read {search : Search} {names : PointNames}
    {request : Request SearchResult} (h : search.request names = .ok request)
    {reply : Reply} {found : SearchResult} (hfound : request.read reply = .ok found) :
    found.schema = search.index.schema := by
  rcases search.request_cases h with ⟨id, rfl⟩ | ⟨body, rfl⟩
  · cases reply with
    | ok answer => rw [← Except.ok.inj hfound]
    | error fault =>
        simp only [lookupRequest] at hfound
        split at hfound
        · rw [← Except.ok.inj hfound]
          rfl
        · cases hfound
  · obtain ⟨answer, -, hread⟩ := bind_eq_ok.mp hfound
    obtain ⟨outer, -, hread⟩ := bind_eq_ok.mp hread
    obtain ⟨hits, -, hread⟩ := bind_eq_ok.mp hread
    obtain ⟨outer', -, hread⟩ := bind_eq_ok.mp hread
    obtain ⟨total, -, hread⟩ := bind_eq_ok.mp hread
    obtain ⟨value, -, hread⟩ := bind_eq_ok.mp hread
    rw [← Except.ok.inj hread]

theorem Search.schema_of_run {σ : Type} {service : Service σ} {s : σ} {search : Search}
    {names : PointNames} {found : SearchResult}
    (h : (service.run s (search.request names)).result = .ok found) :
    found.schema = search.index.schema := by
  cases hrequest : search.request names with
  | error e =>
      rw [hrequest] at h
      cases h
  | ok request =>
      rw [hrequest] at h
      exact schema_of_read hrequest h

/-- Only how it reads the wire form matters of a schema to what a result gives out. -/
theorem SearchResult.take_of_ofWire {found : SearchResult} {schema : Schema}
    (h : found.schema.ofWire = schema.ofWire) :
    ({ found with schema } : SearchResult).take = found.take := by
  have hhits (hits : List Value) :
      convertHits schema found.names hits = convertHits found.schema found.names hits := by
    induction hits with
    | nil => rfl
    | cons hit rest ih => rw [convertHits, convertHits, h, ih]
  funext limit
  simp only [take, hhits]

/-- What can be seen of a result. -/
def SearchResult.view (found : SearchResult) : Value × (Option Nat → Pass) :=
  (found.total, found.take)

theorem Index.Twin.run_request {σ : Type} {A B : Index} (h : A.Twin B) (service : Service σ) (s : σ)
    (names : PointNames) (filters : List Condition) (sorts : List (String × String))
    (limit offset : Nat) :
    let run := service.run s ((⟨A, filters, sorts, limit, offset⟩ : Search).request names)
    let run' := service.run s ((⟨B, filters, sorts, limit, offset⟩ : Search).request names)
    run.calls = run'.calls ∧ run.state = run'.state ∧
      run.result.map SearchResult.view = run'.result.map SearchResult.view := by
  intro run run'
  have hrequest := h.request names filters sorts limit offset
  have hresult :
      run'.result = run.result >>= fun found => .ok { found with schema := B.schema } := by
    simp only [run', hrequest]
    exact service.result_run_andThen s _ _
  have hsame : run.calls = run'.calls ∧ run.state = run'.state := by
    simp only [run', hrequest]
    simp only [run]
    cases (⟨A, filters, sorts, limit, offset⟩ : Search).request names <;> exact ⟨rfl, rfl⟩
  refine ⟨hsame.1, hsame.2, ?_⟩
  rw [hresult]
  cases hfound : run.result with
  | error e => rfl
  | ok found =>
      have hschema : found.schema = A.schema := Search.schema_of_run hfound
      have htake : ({ found with schema := B.schema } : SearchResult).take = found.take :=
        SearchResult.take_of_ofWire (hschema ▸ h.ofWire)
      rw [ok_bind]
      simp only [Except.map, SearchResult.view, htake]

/-! ## Acceptance -/

theorem length_identifiers_of_plainFields {fields fields' : List (String × Field)}
    (h : plainFields fields = plainFields fields') :
    (identifiers fields).length = (identifiers fields').length := by
  rw [← List.length_map Field.plain, ← identifiers_plainFields, h, identifiers_plainFields,
    List.length_map]

theorem Index.ofSchema_eq_ok {name : String} {S : Schema} {A : Index}
    (h : ofSchema name S = .ok A) : A.name = name ∧ A.schema = S := by
  unfold ofSchema at h
  split at h
  · rw [← Except.ok.inj h]
    exact ⟨rfl, rfl⟩
  · cases h

theorem Index.error?_ofSchema (name : String) (S : Schema) :
    error? (ofSchema name S) = if (identifiers S.fields).length = 1 then none
      else some (.identifierCount name (identifiers S.fields).length) := by
  unfold ofSchema
  split <;> rfl

/-- Classes of the caller's that are of no further kind are seen through. Schemas with the same
plain fields are accepted or refused alike, and indexes made of them agree in all that they are used
for: with filters of the same plain form they compile to the same query or fail with the same error,
and search with the same arguments, by the same kind of call and to the same end; documents have the
same wire form and are read alike; writes are the same, with their identifiers; and the mappings are
the same, or fail for the same field with an error that only differs in the class it names. -/
theorem classes_are_transparent {S S' : Schema}
    (hfields : plainFields S.fields = plainFields S'.fields) (name : String) :
    error? (Index.ofSchema name S) = error? (Index.ofSchema name S') ∧
    ∀ A B, Index.ofSchema name S = .ok A → Index.ofSchema name S' = .ok B →
      (∀ filters filters', Condition.plainEach filters = Condition.plainEach filters' →
        (∀ junction, compile A filters junction = compile B filters' junction) ∧
        ∀ sorts limit offset,
          let search : Search := ⟨A, filters, sorts, limit, offset⟩
          let search' : Search := ⟨B, filters', sorts, limit, offset⟩
          search.body = search'.body ∧ search.lookup?.isSome = search'.lookup?.isSome ∧
          ∀ (σ : Type) (service : Service σ) (s : σ) (names : PointNames),
            let run := service.run s (search.request names)
            let run' := service.run s (search'.request names)
            run.calls = run'.calls ∧ run.state = run'.state ∧
              run.result.map SearchResult.view = run'.result.map SearchResult.view) ∧
      (A.schema.toWire = B.schema.toWire ∧ A.schema.ofWire = B.schema.ofWire) ∧
      (A.save = B.save ∧ A.delete = B.delete ∧
        ∀ (σ : Type) (service : Service σ) names job patience s,
          service.bulk A names job patience s = service.bulk B names job patience s) ∧
      (∀ ms, A.mappings = .ok ms ↔ B.mappings = .ok ms) ∧
      ∀ e, A.mappings = .error e → ∃ keys f g, fieldAt? A.fields keys = some f ∧
        fieldAt? B.fields keys = some g ∧ e = .noMapping f.className ∧
        B.mappings = .error (.noMapping g.className) := by
  constructor
  · rw [Index.error?_ofSchema, Index.error?_ofSchema, length_identifiers_of_plainFields hfields]
  · intro A B hA hB
    obtain ⟨hnameA, rfl⟩ := Index.ofSchema_eq_ok hA
    obtain ⟨hnameB, rfl⟩ := Index.ofSchema_eq_ok hB
    have htwin : A.Twin B := ⟨hnameA.trans hnameB.symm, hfields⟩
    refine ⟨fun filters filters' hplain => ?_, ⟨htwin.toWire, htwin.ofWire⟩,
      ⟨htwin.save, htwin.delete, fun σ => htwin.bulk⟩, htwin.mappings⟩
    have hcompile (junction : Junction) :
        compile A filters junction = compile B filters' junction := by
      rw [← compile_plainEach, hplain, compile_plainEach, htwin.compile]
    refine ⟨hcompile, fun sorts limit offset => ?_⟩
    intro search search'
    have hbody : search.body = search'.body := by
      simp only [search, search', Search.body, hcompile]
    have hsearch : search.plain = (⟨A, filters', sorts, limit, offset⟩ : Search).plain := by
      simp only [search, Search.plain, hplain]
    refine ⟨hbody, ?_, fun σ service s names => ?_⟩
    · have hlookup := congrArg Option.isSome (congrArg Search.lookup? hsearch)
      rw [Search.lookup?_plain, Search.lookup?_plain, Option.isSome_map, Option.isSome_map]
        at hlookup
      exact hlookup
    · intro run run'
      have hrequest : search.request names =
          (⟨A, filters', sorts, limit, offset⟩ : Search).request names := by
        rw [← Search.request_plain, hsearch, Search.request_plain]
      have hrun : run = service.run s (search.request names) := rfl
      rw [hrun, hrequest]
      exact htwin.run_request service s names filters' sorts limit offset

namespace Sample

/-- The fields of places, most of them under classes of the caller's. -/
def finePlaces : Schema := .ofList [
  ("id", .leaf .identifier { name := "id" }),
  ("title", .leaf .text { name := "title", className := some "TitleField" }),
  ("tags", .leaf .base { name := "tags", multiple := true, className := some "TagField" }),
  ("location", .leaf .geoPoint { name := "location", className := some "SpotField" }),
  ("owner", .object { name := "owner", className := some "OwnerField" }
    [("name", .leaf .text { name := "name", className := some "NameField" })])]

/-- Places of one title or of one owner, with a class of the caller's around the whole and one
inside. -/
def eitherPlace : Condition :=
  .named "Either" [] (.any [.named "Titled" [] (.leaf (.equal "title" (.text "Quay"))),
    .leaf (.equal "owner.name" (.text "Ada"))])

theorem finePlaces_are_places :
    plainFields places.schema.fields = plainFields finePlaces.fields ∧
      Condition.plainEach [eitherPlace.plain] = Condition.plainEach [eitherPlace] ∧
      ∃ fine, Index.ofSchema "places" places.schema = .ok places ∧
        Index.ofSchema "places" finePlaces = .ok fine ∧
        compile places [eitherPlace.plain] .every = compile fine [eitherPlace] .every ∧
        places.mappings = .error (.noMapping "Field") ∧
        fine.mappings = .error (.noMapping "TagField") := by
  have hfields : plainFields places.schema.fields = plainFields finePlaces.fields := rfl
  have hfilters : Condition.plainEach [eitherPlace.plain] = Condition.plainEach [eitherPlace] := rfl
  obtain ⟨-, htwins⟩ := classes_are_transparent hfields "places"
  obtain ⟨hsearches, -⟩ := htwins places ⟨"places", finePlaces, rfl⟩ rfl rfl
  exact ⟨hfields, hfilters, _, rfl, rfl, (hsearches _ _ hfilters).1 .every, rfl, rfl⟩

end Sample

end DocSearch
