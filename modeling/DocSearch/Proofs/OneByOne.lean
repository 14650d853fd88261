import DocSearch.Proofs.Actions
import DocSearch.Proofs.BulkComplete
import DocSearch.Proofs.LastWrite

/-!
# Writing in bulk and one by one

A bulk job writes the same as saving its documents and deleting its identifiers one after the other.
A single save reads the identifier off the document, a bulk job off the wire form, so the documents
have to keep on the wire what they hold under the name of the identifier: they do if a plain field
is declared under that name. A schema may declare its identifier under another key, and then the two
ways of writing part. They also part at an identifier that cannot be written, which costs a bulk job
the whole chunk and a single save only the one document.
-/

namespace DocSearch

open Fallible

variable {σ : Type}

/-- The writes that a call carries, in order. -/
def Call.writes : Call → List BulkAction
  | .search _ _ => []
  | .get _ _ => []
  | .save place id document _ => [.save place id document]
  | .delete place id _ => [.delete place id]
  | .bulk actions _ => actions

/-- Save each document and delete each identifier by a call of its own, until one fails. -/
def Index.writeEach (index : Index) (service : Service σ) (names : PointNames)
    (documents ids : List Value) (options : WriteOptions) : Action Call σ Unit := do
  let _ ← Action.each (fun document s => service.run s (index.save names document options))
    documents
  let _ ← Action.each (fun id s => service.run s (index.delete id options)) ids
  return ()

/-- A service that carries out every write, from `fine` states on: it reports no errors for bulk
calls, says which identifier a saved document has, and confirms deletions. -/
structure NeverFails (service : Service σ) (fine : σ → Prop) : Prop
    extends AcceptsBulk service fine where
  saves : ∀ s place id document waits, fine s → ∃ answer assigned,
    (service.reply (.save place id document waits) s).1 = .ok answer ∧
      answer.member "_id" = .ok assigned
  staysSaving : ∀ s place id document waits, fine s →
    fine (service.reply (.save place id document waits) s).2
  deletes : ∀ s place id waits, fine s → ∃ answer,
    (service.reply (.delete place id waits) s).1 = .ok answer ∧
      answer.member "result" = .ok (.text "deleted")
  staysDeleting : ∀ s place id waits, fine s →
    fine (service.reply (.delete place id waits) s).2

/-! ## Identifiers -/

/-- What a document holds under the name of the identifier is kept on the wire: it holds nothing
there, or a plain field is declared under that name, which is given a list if it is multiple. -/
def Index.KeepsIdentifier (index : Index) (document : Members) : Prop :=
  ∀ id, document.lookup index.identifier.name = some id → id ≠ .null →
    ∃ kind a, index.fields.lookup index.identifier.name = some (.leaf kind a) ∧
      kind ≠ .geoPoint ∧ (a.multiple = true → ∃ items, id = .list items)

/-- Under an index with its identifier under its own name, as a single value, all documents keep
their identifiers. -/
theorem Index.PlainIdentifier.keepsIdentifier {index : Index} (h : index.PlainIdentifier)
    (document : Members) : index.KeepsIdentifier document := by
  intro id _ _
  obtain ⟨hfield, hsingle⟩ := h
  obtain ⟨a, ha⟩ := index.exists_identifier_eq
  have hmultiple : a.multiple = false := by
    rw [ha] at hsingle
    exact hsingle
  refine ⟨.identifier, a, hfield.trans (congrArg some ha), by decide, fun hlist => ?_⟩
  rw [hmultiple] at hlist
  cases hlist

/-- A plain field passes values on as they are. -/
theorem convertSlot_leaf (point : Value → Except Error Value) {kind : LeafKind} {a : Attributes}
    (hkind : kind ≠ .geoPoint) {v : Value} (hv : a.multiple = true → ∃ items, v = .list items) :
    convertSlot a.multiple ((Field.leaf kind a).convert point) v = .ok v := by
  have hconvert : (Field.leaf kind a).convert point = .ok := by
    funext w
    cases kind <;> first | rfl | exact absurd rfl hkind
  have hkeep : keepNull (.ok : Value → Except Error Value) = .ok := by
    funext w
    cases w <;> rfl
  rw [hconvert, convertSlot]
  cases hmultiple : a.multiple with
  | false => exact congrFun hkeep v
  | true =>
      obtain ⟨items, rfl⟩ := hv hmultiple
      have hitems : items.mapM (keepNull .ok : Value → Except Error Value) = .ok items := by
        rw [hkeep, mapM_eq_ok]
        exact List.forall₂_same.mpr fun _ _ => rfl
      rw [keepNull_of_ne_null (by simp)]
      simp only [if_true, Value.items, ok_bind, hitems, pure_eq_ok]

/-- On the wire there is nothing that is not declared or not in the document. -/
theorem lookup_toWire_eq_none {schema : Schema} {names : PointNames} {document wire : Members}
    (hwire : schema.toWire names (.object document) = .ok wire) {key : String}
    (hkey : key ∉ schema.fields.map Prod.fst ∨ document.lookup key = none) :
    wire.lookup key = none := by
  rw [Keyed.lookup_eq_none_iff_notMem, mem_keys_convertFields hwire]
  rintro ⟨hdeclared, hpresent⟩
  rcases hkey with hundeclared | habsent
  · exact hundeclared hdeclared
  · exact Keyed.lookup_eq_none_iff_notMem.mp habsent hpresent

/-- Null stays null on the wire, where it is declared. -/
theorem lookup_toWire_of_null {schema : Schema} {names : PointNames} {document wire : Members}
    (hwire : schema.toWire names (.object document) = .ok wire) {key : String}
    (hnull : document.lookup key = some .null) :
    wire.lookup key = none ∨ wire.lookup key = some .null := by
  by_cases hdeclared : key ∈ schema.fields.map Prod.fst
  · obtain ⟨e, he, rfl⟩ := List.mem_map.mp hdeclared
    exact Or.inr (lookup_convertFields hwire schema.distinct he hnull rfl)
  · exact Or.inl (lookup_toWire_eq_none hwire (Or.inl hdeclared))

/-- The wire form of a document has the identifier that the document has, or none if it has none. -/
def Index.SameIdentifier (index : Index) (names : PointNames) (document : Members) : Prop :=
  ∀ wire, index.schema.toWire names (.object document) = .ok wire →
    identifierText index.identifier.name wire = identifierText index.identifier.name document

theorem Index.sameIdentifier_iff {index : Index} {names : PointNames} {document wire : Members}
    (hwire : index.schema.toWire names (.object document) = .ok wire) :
    index.SameIdentifier names document ↔
      identifierText index.identifier.name wire =
        identifierText index.identifier.name document := by
  refine ⟨fun h => h wire hwire, fun h wire' hwire' => ?_⟩
  rw [hwire] at hwire'
  obtain rfl := Except.ok.inj hwire'
  exact h

/-- Identifiers that are the same can both be written or neither can. -/
theorem writable_of_sameIdentifier {index : Index} {names : PointNames}
    {documents wires : List Members}
    (hwires : List.Forall₂ (fun d w => index.schema.toWire names (.object d) = .ok w)
      documents wires)
    (hids : ∀ document ∈ documents, WritableUnder index.identifier.name document)
    (hsame : ∀ document ∈ documents, index.SameIdentifier names document) :
    ∀ wire ∈ wires, WritableUnder index.identifier.name wire := by
  induction hwires with
  | nil => exact List.forall_mem_nil _
  | cons hwire _ ih =>
      rw [List.forall_mem_cons] at hids hsame ⊢
      refine ⟨?_, ih hids.2 hsame.2⟩
      rw [← exists_identifierText, (index.sameIdentifier_iff hwire).mp hsame.1]
      exact exists_identifierText.mpr hids.1

theorem Index.KeepsIdentifier.sameIdentifier {index : Index} {document : Members}
    (h : index.KeepsIdentifier document) (names : PointNames) :
    index.SameIdentifier names document := by
  intro wire hwire
  rw [identifierText, identifierText]
  cases hid : document.lookup index.identifier.name with
  | none => rw [lookup_toWire_eq_none hwire (Or.inr hid)]
  | some id =>
      by_cases hnull : id = .null
      · subst hnull
        rcases lookup_toWire_of_null hwire hid with hnone | hsome
        · rw [hnone]
        · rw [hsome]
      · obtain ⟨kind, a, hfield, hkind, hlist⟩ := h id hid hnull
        have hmem := (Keyed.lookup_eq_some_iff_mem index.schema.distinct).mp hfield
        have hkept := convertSlot_leaf names.toWire hkind hlist
        rw [lookup_convertFields hwire index.schema.distinct hmem hid hkept]

/-! ## One call after the other -/

section
variable {service : Service σ} {fine : σ → Prop} {index : Index} {names : PointNames}
variable {options : WriteOptions} {waits : Bool}

theorem NeverFails.save_endsWith (hservice : NeverFails service fine)
    (hwaits : options.confirms = .ok waits) {document wire : Members}
    (hwire : index.schema.toWire names (.object document) = .ok wire)
    (hid : WritableUnder index.identifier.name document) :
    Action.EndsWith (fun s => service.run s (index.save names (.object document) options)) fine
      (.save index.name (writtenUnder? index.identifier.name document) (.object wire) waits) := by
  intro s hs
  let id := writtenUnder? index.identifier.name document
  obtain ⟨answer, assigned, hanswer, hassigned⟩ :=
    hservice.saves s index.name id (.object wire) waits hs
  have hstays := hservice.staysSaving s index.name id (.object wire) waits hs
  let task : Task := ⟨.object (Keyed.put index.identifier.name assigned document)⟩
  refine ⟨if waits then some task else none, _, ?_, hstays⟩
  rw [Index.save, hwaits, ok_bind, Value.entries, ok_bind, identifierText_of_writable hid, ok_bind,
    hwire, ok_bind]
  simp only [Service.run, pure_eq_ok]
  rw [hanswer]
  cases waits with
  | false => rfl
  | true =>
      simp only [Reply.answer, ok_bind, hassigned]
      rfl

theorem NeverFails.delete_endsWith (hservice : NeverFails service fine)
    (hwaits : options.confirms = .ok waits) (id : Value) :
    Action.EndsWith (fun s => service.run s (index.delete id options)) fine
      (.delete index.name id waits) := by
  intro s hs
  obtain ⟨answer, hanswer, hdeleted⟩ := hservice.deletes s index.name id waits hs
  have hstays := hservice.staysDeleting s index.name id waits hs
  have hread : index.readDeleted id answer = .ok () := by
    rw [Index.readDeleted, hdeleted]
    rfl
  refine ⟨if waits then some ⟨.null⟩ else none, _, ?_, hstays⟩
  rw [Index.delete, hwaits, ok_bind]
  simp only [Service.run, pure_eq_ok]
  rw [hanswer]
  simp only [hread, ok_bind]

/-- The calls that save documents with given wire forms one by one. -/
def Index.saveCalls (index : Index) (waits : Bool) (documents wires : List Members) : List Call :=
  List.zipWith (fun document wire => .save index.name
    (writtenUnder? index.identifier.name document) (.object wire) waits) documents wires

/-- Writing one by one makes one call for each document and then one for each identifier. -/
theorem NeverFails.calls_writeEach (hservice : NeverFails service fine)
    (hwaits : options.confirms = .ok waits) {documents wires : List Members}
    (hwires : List.Forall₂ (fun d w => index.schema.toWire names (.object d) = .ok w)
      documents wires)
    (hids : ∀ document ∈ documents, WritableUnder index.identifier.name document)
    (ids : List Value) {start : σ} (hstart : fine start) :
    (index.writeEach service names (documents.map .object) ids options start).calls =
      index.saveCalls waits documents wires ++ ids.map fun id => .delete index.name id waits := by
  have hsaves : List.Forall₂ (fun document call => Action.EndsWith
      (fun s => service.run s (index.save names document options)) fine call)
      (documents.map .object) (index.saveCalls waits documents wires) := by
    induction hwires with
    | nil => exact .nil
    | cons hwire _ ih =>
        rw [List.forall_mem_cons] at hids
        exact .cons (hservice.save_endsWith hwaits hwire hids.1) (ih hids.2)
  have hdeletes : List.Forall₂ (fun id call => Action.EndsWith
      (fun s => service.run s (index.delete id options)) fine call)
      ids (ids.map fun id => .delete index.name id waits) := by
    rw [List.forall₂_map_right_iff]
    exact List.forall₂_same.mpr fun id _ => hservice.delete_endsWith hwaits id
  obtain ⟨saved, s, hsaved, hs⟩ := Action.each_of_endsWith hsaves hstart
  obtain ⟨deleted, s', hdeleted, -⟩ := Action.each_of_endsWith hdeletes hs
  rw [Index.writeEach, Action.bind_of_ok hsaved, Action.bind_of_ok hdeleted, Action.pure_apply,
    List.append_nil]

/-- With options that cannot be read nothing is written in either way. -/
theorem calls_of_unreadable (service : Service σ) (index : Index) (names : PointNames) {e : Error}
    (hoptions : options.confirms = .error e) (documents ids : List Value) (size : Int)
    (patience : Nat) (start : σ) :
    (service.bulk index names (.ofLists documents ids size options) patience start).calls = [] ∧
      (index.writeEach service names documents ids options start).calls = [] := by
  have hsettings : (BulkJob.ofLists documents ids size options).settings = .error e := by
    rw [BulkJob.settings, BulkJob.ofLists, hoptions, error_bind]
  have hsave (document : Value) (s : σ) :
      service.run s (index.save names document options) = ⟨.error e, [], s⟩ := by
    rw [Index.save, hoptions]
    rfl
  have hdelete (id : Value) (s : σ) :
      service.run s (index.delete id options) = ⟨.error e, [], s⟩ := by
    rw [Index.delete, hoptions]
    rfl
  constructor
  · rw [Service.bulk, hsettings]
  · obtain ⟨saved, hsaved⟩ := Action.each_of_error hsave documents start
    obtain ⟨deleted, hdeleted⟩ := Action.each_of_error hdelete ids start
    rw [Index.writeEach]
    cases saved with
    | error e => rw [Action.bind_of_error hsaved]
    | ok saved =>
        rw [Action.bind_of_ok hsaved]
        cases deleted with
        | error e => rw [Action.bind_of_error hdeleted, List.append_nil]
        | ok deleted =>
            rw [Action.bind_of_ok hdeleted, Action.pure_apply]
            rfl

theorem flatMap_writes_bulk (chunks : List (List BulkAction)) (waits : Bool) :
    (chunks.map fun chunk => Call.bulk chunk waits).flatMap Call.writes = chunks.flatten := by
  rw [List.flatMap_map, List.flatten_eq_flatMap]
  rfl

/-- A single save is made for each document. -/
theorem length_flatMap_writes_saveCalls {documents wires : List Members}
    (h : documents.length = wires.length) :
    ((index.saveCalls waits documents wires).flatMap Call.writes).length = documents.length := by
  induction documents generalizing wires with
  | nil => rfl
  | cons document documents ih =>
      cases wires with
      | nil => cases h
      | cons wire wires =>
          rw [Index.saveCalls, List.zipWith_cons_cons, List.flatMap_cons, Call.writes,
            List.singleton_append, List.length_cons, List.length_cons]
          exact congrArg (· + 1) (ih (Nat.succ.inj h))

/-- The writes of both ways are the same for as long as the identifiers are. -/
theorem flatMap_writes_saves_eq_iff {documents wires : List Members}
    (hwires : List.Forall₂ (fun d w => index.schema.toWire names (.object d) = .ok w)
      documents wires)
    (hids : ∀ document ∈ documents, WritableUnder index.identifier.name document)
    (hwritable : ∀ wire ∈ wires, WritableUnder index.identifier.name wire) :
    wires.map index.saveOf = (index.saveCalls waits documents wires).flatMap Call.writes ↔
      ∀ document ∈ documents, index.SameIdentifier names document := by
  induction hwires with
  | nil => simp [Index.saveCalls]
  | @cons document wire documents wires hwire _ ih =>
      rw [List.forall_mem_cons] at hids hwritable
      have hsame : index.SameIdentifier names document ↔
          writtenUnder? index.identifier.name wire =
            writtenUnder? index.identifier.name document := by
        rw [← Except.ok.injEq (ε := Error), ← identifierText_of_writable hids.1,
          ← identifierText_of_writable hwritable.1]
        exact index.sameIdentifier_iff hwire
      rw [List.forall_mem_cons, hsame, ← ih hids.2 hwritable.2, Index.saveCalls, Index.saveCalls,
        List.map_cons, List.zipWith_cons_cons, List.flatMap_cons, Call.writes,
        List.singleton_append, List.cons.injEq, Index.saveOf, BulkAction.save.injEq]
      simp only [true_and, and_true]

/-- Where an identifier cannot be written there is a first one. -/
theorem exists_first_not_writable {wires : List Members} {name : String}
    (h : ¬ ∀ wire ∈ wires, WritableUnder name wire) :
    ∃ before wire after, wires = before ++ wire :: after ∧
      (∀ w ∈ before, WritableUnder name w) ∧ ¬ WritableUnder name wire := by
  induction wires with
  | nil => exact absurd (List.forall_mem_nil _) h
  | cons wire wires ih =>
      by_cases hwire : WritableUnder name wire
      · obtain ⟨before, w, after, rfl, hbefore, hw⟩ :=
          ih fun hall => h (List.forall_mem_cons.mpr ⟨hwire, hall⟩)
        exact ⟨wire :: before, w, after, rfl, List.forall_mem_cons.mpr ⟨hwire, hbefore⟩, hw⟩
      · exact ⟨[], wire, wires, rfl, List.forall_mem_nil _, hwire⟩

/-- If a wire form has an identifier that cannot be written, a bulk job writes fewer documents than
there are. -/
theorem AcceptsBulk.length_writes_lt (hservice : AcceptsBulk service fine)
    (hwaits : options.confirms = .ok waits) {documents : List Value} {wires : List Members}
    (hwires : List.Forall₂ (fun d w => index.schema.toWire names d = .ok w) documents wires)
    (hnot : ¬ ∀ wire ∈ wires, WritableUnder index.identifier.name wire) (ids : List Value)
    {size : Nat} (hpos : 0 < size) (hlimit : (size : Int) ≤ chunkLimit) (patience : Nat) {start : σ}
    (hstart : fine start) :
    ((service.bulk index names (.ofLists documents ids size options) patience
      start).calls.flatMap Call.writes).length < documents.length := by
  obtain ⟨before, wire, after, rfl, hbefore, hwire⟩ := exists_first_not_writable hnot
  obtain ⟨-, hcalls⟩ := hservice.bulk_of_not_writable hwires hbefore hwire ids hpos hlimit hwaits
    patience hstart
  have hchunks := flatMap_writes_bulk ((List.range (before.length / size)).map
    ((Source.ofList (before.map index.saveOf)).chunk size)) waits
  rw [List.map_map] at hchunks
  rw [hcalls, hwires.length_eq]
  refine Nat.lt_of_le_of_lt (Nat.le_of_eq (congrArg List.length hchunks)) ?_
  rw [flatten_map_chunk, List.length_take, List.length_map, List.length_append, List.length_cons]
  omega

theorem NeverFails.writes_eq_iff (hservice : NeverFails service fine)
    (hwaits : options.confirms = .ok waits) {documents : List Members}
    (hdocuments : ∀ document ∈ documents,
      ∃ wire, index.schema.toWire names (.object document) = .ok wire)
    (hids : ∀ document ∈ documents, WritableUnder index.identifier.name document)
    (ids : List Value) {size : Nat} (hpos : 0 < size) (hlimit : (size : Int) ≤ chunkLimit)
    (patience : Nat) {start : σ} (hstart : fine start) :
    (service.bulk index names (.ofLists (documents.map .object) ids size options) patience
        start).calls.flatMap Call.writes =
      (index.writeEach service names (documents.map .object) ids options start).calls.flatMap
        Call.writes ↔
      ∀ document ∈ documents, index.SameIdentifier names document := by
  obtain ⟨wires, hwires⟩ := exists_mapM_eq_ok hdocuments
  rw [mapM_eq_ok] at hwires
  have hvalues : List.Forall₂ (fun d w => index.schema.toWire names d = .ok w)
      (documents.map .object) wires := List.forall₂_map_left_iff.mpr hwires
  have hdeletes : (ids.map fun id => Call.delete index.name id waits).flatMap Call.writes =
      ids.map (.delete index.name) := by
    rw [List.flatMap_map]
    exact List.flatMap_pure_eq_map _ ids
  have heach := hservice.calls_writeEach hwaits hwires hids ids hstart
  by_cases hwritable : ∀ wire ∈ wires, WritableUnder index.identifier.name wire
  · obtain ⟨-, hbulk⟩ := hservice.toAcceptsBulk.bulk (Index.mapM_saveAction hvalues hwritable) ids
      hpos hlimit hwaits patience hstart
    rw [hbulk, heach, List.flatMap_append, List.flatMap_append, flatMap_writes_bulk,
      flatMap_writes_bulk, (cutInto_chunksOf hpos _).flatten, (cutInto_chunksOf hpos _).flatten,
      hdeletes, List.append_cancel_right_eq]
    exact flatMap_writes_saves_eq_iff hwires hids hwritable
  · -- the bulk job writes too little, and the identifiers are not the same either
    refine iff_of_false (fun heq => ?_) fun hsame => ?_
    · have hless := hservice.toAcceptsBulk.length_writes_lt hwaits hvalues hwritable ids hpos hlimit
        patience hstart
      rw [heq, heach, List.flatMap_append, List.length_append,
        length_flatMap_writes_saveCalls hwires.length_eq, List.length_map] at hless
      omega
    · exact hwritable (writable_of_sameIdentifier hwires hids hsame)

/-- With the same options, a bulk job in front of a service that carries out every write writes the
same as saving its documents one after the other and then deleting its identifiers one after the
other, with the same identifier for each document, provided that the identifiers of the documents
can be written and are kept on the wire, and that the chunks are not larger than what can be asked
for at once. An identifier that is declared under its own name, as a single value, is always kept.
Wherever the options can be read both ways agree exactly if no conversion changes an identifier. -/
theorem bulk_writes_as_one_by_one (hservice : NeverFails service fine) {documents : List Members}
    (hdocuments : ∀ document ∈ documents,
      ∃ wire, index.schema.toWire names (.object document) = .ok wire)
    (hids : ∀ document ∈ documents, WritableUnder index.identifier.name document)
    (ids : List Value) (options : WriteOptions) {size : Nat} (hpos : 0 < size)
    (hlimit : (size : Int) ≤ chunkLimit) (patience : Nat) {start : σ} (hstart : fine start) :
    let bulk := (service.bulk index names (.ofLists (documents.map .object) ids size options)
      patience start).calls.flatMap Call.writes
    let oneByOne := (index.writeEach service names (documents.map .object) ids options
      start).calls.flatMap Call.writes
    ((∀ document ∈ documents, index.KeepsIdentifier document) → bulk = oneByOne) ∧
      (index.PlainIdentifier → bulk = oneByOne) ∧
      ∀ waits, options.confirms = .ok waits →
        (bulk = oneByOne ↔ ∀ document ∈ documents, index.SameIdentifier names document) := by
  intro bulk oneByOne
  have hiff (waits : Bool) (hwaits : options.confirms = .ok waits) :
      bulk = oneByOne ↔ ∀ document ∈ documents, index.SameIdentifier names document :=
    hservice.writes_eq_iff hwaits hdocuments hids ids hpos hlimit patience hstart
  have hkept (hkeeps : ∀ document ∈ documents, index.KeepsIdentifier document) :
      bulk = oneByOne := by
    cases hoptions : options.confirms with
    | error e =>
        obtain ⟨hbulk, heach⟩ := calls_of_unreadable service index names hoptions
          (documents.map .object) ids size patience start
        have hnone : bulk = [] := congrArg (List.flatMap Call.writes) hbulk
        have hnone' : oneByOne = [] := congrArg (List.flatMap Call.writes) heach
        rw [hnone, hnone']
    | ok waits =>
        exact (hiff waits hoptions).mpr fun document hdocument =>
          (hkeeps document hdocument).sameIdentifier names
  exact ⟨hkept, fun hplain => hkept fun document _ => hplain.keepsIdentifier document, hiff⟩

end

namespace Sample

/-- A service that keeps nothing and agrees to every write. -/
def nodding : Service Unit where
  reply call _ := (.ok (.object (match call with
    | .bulk _ _ => [("errors", .bool false)]
    | .delete _ _ _ => [("result", .text "deleted")]
    | _ => [("_id", .text "new")])), ())

theorem nodding_neverFails : NeverFails nodding fun _ => True where
  answers _ _ _ _ := ⟨.object [("errors", .bool false)], .bool false, rfl, rfl, rfl⟩
  stays _ _ _ _ := trivial
  saves _ _ _ _ _ _ := ⟨.object [("_id", .text "new")], .text "new", rfl, rfl⟩
  staysSaving _ _ _ _ _ _ := trivial
  deletes _ _ _ _ _ := ⟨.object [("result", .text "deleted")], rfl, rfl⟩
  staysDeleting _ _ _ _ _ := trivial

/-- Two places, of which one has no identifier. -/
def quays : List Members :=
  [[("id", .int 7), ("depth", .int 12)], [("title", .text "Quay")]]

theorem quays_written_either_way :
    NeverFails nodding (fun _ => True) ∧
      (∀ document ∈ quays, ∃ wire, places.schema.toWire .engine (.object document) = .ok wire) ∧
      (∀ document ∈ quays, WritableUnder places.identifier.name document) ∧
      0 < 1 ∧ (1 : Int) ≤ chunkLimit ∧ places.PlainIdentifier ∧
      (nodding.bulk places .engine (.ofLists (quays.map .object) [.text "b"] 1 .null) 0
          ()).calls.flatMap Call.writes =
        (places.writeEach nodding .engine (quays.map .object) [.text "b"] .null ()).calls.flatMap
          Call.writes := by
  have hwires : ∀ document ∈ quays,
      ∃ wire, places.schema.toWire .engine (.object document) = .ok wire := by
    intro document hdocument
    simp only [quays, List.mem_cons, List.not_mem_nil, or_false] at hdocument
    rcases hdocument with rfl | rfl
    · exact ⟨[("id", .int 7)], rfl⟩
    · exact ⟨[("title", .text "Quay")], rfl⟩
  have hids : ∀ document ∈ quays, WritableUnder places.identifier.name document := by decide
  have hplain : places.PlainIdentifier := ⟨rfl, rfl⟩
  obtain ⟨-, hsame, -⟩ := bulk_writes_as_one_by_one nodding_neverFails hwires hids [.text "b"] .null
    Nat.one_pos (by decide) 0 trivial
  exact ⟨nodding_neverFails, hwires, hids, by decide, by decide, hplain, hsame hplain⟩

/-- An index that declares its identifier under another key than its name. -/
def berths : Index where
  name := "berths"
  schema := .ofList [("number", .leaf .identifier { name := "id" })]
  oneIdentifier := rfl

/-- Two places, of which the second has a number that cannot be written. -/
def numberedPlaces : List Members := [[("id", .int 1)], [("id", tooLong)]]

theorem numberedPlaces_toWire : List.Forall₂
    (fun d w => places.schema.toWire .engine (.object d) = .ok w) numberedPlaces numberedPlaces :=
  .cons rfl (.cons rfl .nil)

theorem numberedPlaces_bulk :
    (nodding.bulk places .engine (.ofLists (numberedPlaces.map .object) [] 2 .null) 0 ()).calls =
      [] := by
  have hbefore : ∀ wire ∈ [[("id", Value.int 1)]], WritableUnder places.identifier.name wire := by
    decide
  have hsize : 0 < 2 := by decide
  exact (nodding_neverFails.toAcceptsBulk.bulk_of_not_writable
    (List.forall₂_map_left_iff.mpr numberedPlaces_toWire) hbefore
    (tooLong_not_writableUnder rfl) [] hsize (by decide) rfl 0 trivial).2

theorem numberedPlaces_oneByOne :
    (places.writeEach nodding .engine (numberedPlaces.map .object) [] .null ()).calls =
      [.save "places" (some "1") (.object [("id", .int 1)]) false] := by
  let save : Value → Action Call Unit (Option Task) := fun document s =>
    nodding.run s (places.save .engine document .null)
  have hfirst : save (.object [("id", .int 1)]) () =
      ⟨.ok none, [.save "places" (some "1") (.object [("id", .int 1)]) false], ()⟩ := rfl
  have hwaits : WriteOptions.confirms .null = .ok false := rfl
  have hrefused : places.save .engine (.object [("id", tooLong)]) .null = .error .tooManyDigits :=
    Index.save_of_not_writable hwaits (tooLong_not_writableUnder rfl)
  have hsecond : save (.object [("id", tooLong)]) () = ⟨.error .tooManyDigits, [], ()⟩ := by
    simp only [save, hrefused]
    rfl
  have hrest : Action.each save [.object [("id", tooLong)]] () =
      ⟨.error .tooManyDigits, [], ()⟩ := by
    rw [Action.each_cons, Action.bind_of_error hsecond]
  have hsaves : Action.each save (numberedPlaces.map .object) () =
      ⟨.error .tooManyDigits, [.save "places" (some "1") (.object [("id", .int 1)]) false],
        ()⟩ := by
    rw [numberedPlaces, List.map_cons, List.map_singleton, Action.each_cons,
      Action.bind_of_ok hfirst, Action.bind_of_error hrest, List.append_nil]
  rw [Index.writeEach, Action.bind_of_error hsaves]

/-- A document with an undeclared member under the name of the identifier: a single save goes to
that identifier, a bulk job leaves it to the service to assign one. Where the chunks are larger than
what can be asked for at once, a bulk job writes nothing, and neither does it where a document of
the only chunk has an identifier that cannot be written. -/
theorem berth_written_differently :
    let document : Members := [("number", .text "7"), ("id", .text "7")]
    let wire : Members := [("number", .text "7")]
    let bulk := fun size => (nodding.bulk berths .engine
      (.ofLists [.object document] [] size .null) 0 ()).calls.flatMap Call.writes
    let oneByOne := (berths.writeEach nodding .engine [.object document] [] .null ()).calls.flatMap
      Call.writes
    let numberedBulk := (nodding.bulk places .engine
      (.ofLists (numberedPlaces.map .object) [] 2 .null) 0 ()).calls.flatMap Call.writes
    let numberedOneByOne := (places.writeEach nodding .engine (numberedPlaces.map .object) []
      .null ()).calls.flatMap Call.writes
    NeverFails nodding (fun _ => True) ∧
      berths.schema.toWire .engine (.object document) = .ok wire ∧
      oneByOne = [.save "berths" (some "7") (.object wire)] ∧
      bulk 1 = [.save "berths" none (.object wire)] ∧ bulk 1 ≠ oneByOne ∧
      bulk (2 ^ 63) = [] ∧ bulk (2 ^ 63) ≠ oneByOne ∧
      places.PlainIdentifier ∧ numberedBulk = [] ∧
      numberedOneByOne = [.save "places" (some "1") (.object [("id", .int 1)])] ∧
      numberedBulk ≠ numberedOneByOne := by
  intro document wire bulk oneByOne numberedBulk numberedOneByOne
  have heach : oneByOne = [.save "berths" (some "7") (.object wire)] := rfl
  have hbulk : bulk 1 = [.save "berths" none (.object wire)] := rfl
  have hlarge : bulk (2 ^ 63) = [] := rfl
  have hnumberedBulk : numberedBulk = [] := congrArg (List.flatMap Call.writes) numberedPlaces_bulk
  have hnumberedEach : numberedOneByOne = [.save "places" (some "1") (.object [("id", .int 1)])] :=
    congrArg (List.flatMap Call.writes) numberedPlaces_oneByOne
  refine ⟨nodding_neverFails, rfl, heach, hbulk, ?_, hlarge, ?_, ⟨rfl, rfl⟩, hnumberedBulk,
    hnumberedEach, ?_⟩
  · rw [heach, hbulk]
    intro hsame
    injection hsame with hfirst
    injection hfirst with _ hid
    cases hid
  · rw [heach, hlarge]
    exact (List.cons_ne_nil _ _).symm
  · rw [hnumberedBulk, hnumberedEach]
    exact (List.cons_ne_nil _ _).symm

end Sample

end DocSearch
