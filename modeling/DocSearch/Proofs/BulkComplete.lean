import DocSearch.Proofs.BulkRun
import DocSearch.Proofs.Cut

/-!
# Bulk jobs that meet no error

A bulk job over lists, in front of a service that never reports an error, sends each document and
each identifier once and in order: first all saves and then all deletions, each cut into chunks of
the size asked for. Only the cuts depend on the size. A size that is larger than what can be asked
for at once is refused, however few items there are.
-/

namespace DocSearch

open Fallible

variable {σ : Type}

/-! ## Options -/

/-- The options that a caller may give: none at all, or an object. -/
def WriteOptions.ofMembers : Option Members → WriteOptions
  | none => .null
  | some members => .object members

/-- Whether options ask for confirmation. -/
def WriteOptions.asksConfirmation (given : Option Members) : Bool :=
  (given.bind fun members => members.lookup "confirm").any Value.truthy

theorem WriteOptions.confirms_ofMembers (given : Option Members) :
    (WriteOptions.ofMembers given).confirms = .ok (WriteOptions.asksConfirmation given) := by
  cases given with
  | none => rfl
  | some members =>
      cases members with
      | nil => rfl
      | cons e rest =>
          have hmember : (Value.object (e :: rest)).memberD "confirm" (.bool false) =
              .ok (((e :: rest).lookup "confirm").getD (.bool false)) := rfl
          have htruthy : (WriteOptions.ofMembers (some (e :: rest))).truthy = true := rfl
          rw [WriteOptions.confirms, if_pos htruthy, WriteOptions.ofMembers, hmember]
          simp only [ok_bind, pure_eq_ok, WriteOptions.asksConfirmation, Option.bind_some]
          cases (e :: rest).lookup "confirm" <;> rfl

/-! ## A phase -/

/-- A service that answers bulk calls and reports no errors, from `fine` states on. -/
structure AcceptsBulk (service : Service σ) (fine : σ → Prop) : Prop where
  answers : ∀ s actions waits, fine s → ∃ answer flag,
    (service.reply (.bulk actions waits) s).1 = .ok answer ∧
      answer.member "errors" = .ok flag ∧ flag.truthy = false
  stays : ∀ s actions waits, fine s → fine (service.reply (.bulk actions waits) s).2

section
variable {service : Service σ} {fine : σ → Prop} {index : Index} {names : PointNames} {waits : Bool}
variable {phase : BulkPhase} {items : List Value} {actions : List BulkAction}

theorem length_chunkActions (h : index.chunkActions names phase items = .ok actions) :
    actions.length = items.length := by
  cases phase with
  | indexing => exact (mapM_eq_ok.mp h).length_eq.symm
  | deleting =>
      have hactions := Except.ok.inj h
      rw [← hactions, List.length_map]

/-- The actions of a chunk are a chunk of the actions. -/
theorem chunkActions_chunk (h : index.chunkActions names phase items = .ok actions)
    (size c : Nat) :
    index.chunkActions names phase ((Source.ofList items).chunk size c) =
      .ok ((Source.ofList actions).chunk size c) := by
  rw [chunk_ofList, chunk_ofList]
  cases phase with
  | indexing =>
      have hall := mapM_eq_ok.mp h
      exact mapM_eq_ok.mpr (List.forall₂_take size (List.forall₂_drop (c * size) hall))
  | deleting =>
      have hactions := Except.ok.inj h
      rw [Index.chunkActions, ← hactions, List.map_take, List.map_drop]

/-- Chunks that can be sent are sent one after the other. -/
theorem AcceptsBulk.chunksSent (hservice : AcceptsBulk service fine) {size : Nat}
    {source : Source Value} {actions : Nat → List BulkAction} {c : Nat}
    (hchunks : ∀ i < c, source.chunk size i ≠ [] ∧
      index.chunkActions names phase (source.chunk size i) = .ok (actions i))
    (waits : Bool) {start : σ} (hstart : fine start) :
    ∃ s, ChunksSent service index names waits phase size source start c
        ((List.range c).map fun i => .bulk (actions i) waits) s ∧ fine s := by
  induction c with
  | zero => exact ⟨start, .start, hstart⟩
  | succ c ih =>
      obtain ⟨s, hsent, hs⟩ := ih fun i hi => hchunks i (Nat.lt_succ_of_lt hi)
      obtain ⟨hne, hchunk⟩ := hchunks c (Nat.lt_succ_self c)
      obtain ⟨answer, flag, hanswer, hflag, htruthy⟩ := hservice.answers s (actions c) waits hs
      have hnext := ChunksSent.next hsent hne hchunk hanswer hflag htruthy
      refine ⟨_, ?_, hservice.stays s (actions c) waits hs⟩
      rw [List.range_succ, List.map_append, List.map_singleton]
      exact hnext

/-- A phase over a list sends the actions of its items, cut into chunks. -/
theorem AcceptsBulk.sendChunks (hservice : AcceptsBulk service fine)
    (hactions : index.chunkActions names phase items = .ok actions) (waits : Bool) {size : Nat}
    (hsize : 0 < size) {start : σ} (hstart : fine start) (patience : Nat) :
    ∃ s rest, service.sendChunks (index.chunkRequest names waits phase) size
        ((Source.ofList items).pullsToEnd.getD patience) (.ofList items) start =
          ⟨some (.ok ()), (chunksOf size actions).map fun chunk => .bulk chunk waits, s, rest⟩ ∧
      fine s := by
  obtain ⟨s, hsent, hs⟩ := hservice.chunksSent (c := items.length ⌈/⌉ size)
    (fun i hi => ⟨(chunk_ofList_ne_nil_iff hsize items).mpr hi,
      chunkActions_chunk hactions size i⟩) waits hstart
  have hnil : (Source.ofList items).chunk size (items.length ⌈/⌉ size) = [] := by
    by_contra hne
    exact lt_irrefl _ ((chunk_ofList_ne_nil_iff hsize items).mp hne)
  have hpulls : items.length ⌈/⌉ size < (Source.ofList items).pullsToEnd.getD patience :=
    (Source.ofList items).lt_pullsToEnd_of_chunk_eq_nil hsize hsent.chunk_ne_nil hnil
  have hcalls : ((List.range (items.length ⌈/⌉ size)).map fun i =>
      Call.bulk ((Source.ofList actions).chunk size i) waits) =
        (chunksOf size actions).map fun chunk => .bulk chunk waits := by
    rw [chunksOf, length_chunkActions hactions, List.map_map]
    rfl
  rw [hcalls] at hsent
  exact ⟨s, _, hsent.sendChunks_of_nil hnil hpulls, hs⟩

end

/-! ## A job -/

/-- A job over lists of documents and of identifiers. -/
def BulkJob.ofLists (documents ids : List Value) (size : Int) (options : WriteOptions) :
    BulkJob where
  saves := .ofList documents
  deletes := .ofList ids
  size
  options

theorem BulkJob.settings_ofLists (documents ids : List Value) {size : Nat} {options : WriteOptions}
    {waits : Bool} (hpos : 0 < size) (hlimit : (size : Int) ≤ chunkLimit)
    (hwaits : options.confirms = .ok waits) :
    (BulkJob.ofLists documents ids size options).settings = .ok (waits, size) := by
  rw [BulkJob.settings, BulkJob.ofLists, hwaits, ok_bind, chunkSize_eq_ok hpos hlimit]
  rfl

section
variable {service : Service σ} {fine : σ → Prop} {index : Index} {names : PointNames}
variable {documents : List Value} {saves : List BulkAction}

/-- A job that meets no error sends all its saves and then all its deletions. -/
theorem AcceptsBulk.bulk (hservice : AcceptsBulk service fine)
    (hsaves : documents.mapM (index.saveAction names) = .ok saves) (ids : List Value) {size : Nat}
    (hpos : 0 < size) (hlimit : (size : Int) ≤ chunkLimit) {options : WriteOptions} {waits : Bool}
    (hwaits : options.confirms = .ok waits) (patience : Nat) {start : σ} (hstart : fine start) :
    let run := service.bulk index names (.ofLists documents ids size options) patience start
    run.result = some (.ok (if waits then some ⟨.null⟩ else none)) ∧
      run.calls = (chunksOf size saves).map (fun chunk => .bulk chunk waits) ++
        (chunksOf size (ids.map (.delete index.name))).map fun chunk => .bulk chunk waits := by
  intro run
  have hindexing : index.chunkActions names .indexing documents = .ok saves := hsaves
  have hdeleting : index.chunkActions names .deleting ids = .ok (ids.map (.delete index.name)) :=
    rfl
  obtain ⟨s, rest, hsaved, hs⟩ := hservice.sendChunks hindexing waits hpos hstart patience
  obtain ⟨s', rest', hdeleted, -⟩ := hservice.sendChunks hdeleting waits hpos hs patience
  have hsettings := BulkJob.settings_ofLists documents ids hpos hlimit hwaits
  have hrun := bulk_of_deleting hsettings hsaved
  have hsecond : service.sendChunks (index.chunkRequest names waits .deleting) size
      ((BulkJob.ofLists documents ids size options).deletes.pullsToEnd.getD patience)
      (BulkJob.ofLists documents ids size options).deletes s = _ := hdeleted
  rw [hsecond] at hrun
  have hsame : run = _ := hrun
  rw [hsame]
  exact ⟨rfl, rfl⟩

end

/-! ## What is written -/

/-- The two entries of a bulk call that save a document with a wire form: where it goes, and the
document. An identifier is only named if there is one under the name of the identifier field. -/
def Index.writtenSave (index : Index) (wire : Members) : List Value :=
  [.single "index" (.object (("_index", .text index.name) ::
      match writtenUnder? index.identifier.name wire with
      | none => []
      | some id => [("_id", .text id)])),
    .object wire]

/-- The entry of a bulk call that deletes a document. -/
def Index.writtenDelete (index : Index) (id : Value) : Value :=
  .single "delete" (.object [("_index", .text index.name), ("_id", id)])

/-- The entries of a bulk call. -/
def Call.operations : Call → List Value
  | .bulk actions _ => actions.flatMap BulkAction.toValues
  | _ => []

/-- A call as it is written: its method with its arguments. -/
def Call.written (call : Call) : String × Members := (call.method, call.arguments)

/-- A bulk call with given entries. -/
def writtenBulk (waits : Bool) (operations : List Value) : String × Members :=
  ("bulk", [("operations", .list operations), ("refresh", refresh waits)])

theorem flatMap_operations_bulk (chunks : List (List BulkAction)) (waits : Bool) :
    (chunks.map fun chunk => Call.bulk chunk waits).flatMap Call.operations =
      chunks.flatten.flatMap BulkAction.toValues := by
  induction chunks with
  | nil => rfl
  | cons chunk chunks ih =>
      rw [List.map_cons, List.flatMap_cons, ih, List.flatten_cons, List.flatMap_append]
      rfl

/-- The save of a document with a wire form. -/
def Index.saveOf (index : Index) (wire : Members) : BulkAction :=
  .save index.name (writtenUnder? index.identifier.name wire) (.object wire)

theorem Index.toValues_saveOf (index : Index) (wire : Members) :
    (index.saveOf wire).toValues = index.writtenSave wire := by
  rw [Index.saveOf, Index.writtenSave]
  cases writtenUnder? index.identifier.name wire <;> rfl

theorem Index.saveAction_eq {index : Index} {names : PointNames} {document : Value} {wire : Members}
    (h : index.schema.toWire names document = .ok wire)
    (hid : WritableUnder index.identifier.name wire) :
    index.saveAction names document = .ok (index.saveOf wire) := by
  rw [Index.saveAction, h, ok_bind, identifierText_of_writable hid]
  rfl

theorem Index.mapM_saveAction {index : Index} {names : PointNames} {documents : List Value}
    {wires : List Members}
    (h : List.Forall₂ (fun d w => index.schema.toWire names d = .ok w) documents wires)
    (hids : ∀ wire ∈ wires, WritableUnder index.identifier.name wire) :
    documents.mapM (index.saveAction names) = .ok (wires.map index.saveOf) := by
  rw [mapM_eq_ok, List.forall₂_map_right_iff]
  induction h with
  | nil => exact .nil
  | cons hwire _ ih =>
      rw [List.forall_mem_cons] at hids
      exact .cons (Index.saveAction_eq hwire hids.1) (ih hids.2)

theorem Index.flatMap_toValues_saves (index : Index) (wires : List Members) :
    (wires.map index.saveOf).flatMap BulkAction.toValues = wires.flatMap index.writtenSave := by
  rw [List.flatMap_map]
  simp only [Index.toValues_saveOf]

theorem Index.flatMap_toValues_deletes (index : Index) (ids : List Value) :
    (ids.map (BulkAction.delete index.name)).flatMap BulkAction.toValues =
      ids.map index.writtenDelete := by
  rw [List.flatMap_map]
  exact List.flatMap_pure_eq_map index.writtenDelete ids

/-- Lists that are related item by item are cut at the same place. -/
theorem exists_of_forall₂_append_cons {α β : Type} {R : α → β → Prop} {items : List α}
    {before : List β} {b : β} {after : List β} (h : List.Forall₂ R items (before ++ b :: after)) :
    ∃ first a rest, items = first ++ a :: rest ∧ List.Forall₂ R first before ∧ R a b := by
  have hfirst := List.forall₂_take_append items before (b :: after) h
  obtain ⟨a, rest, ha, -, hrest⟩ :=
    List.forall₂_cons_right_iff.mp (List.forall₂_drop_append items before (b :: after) h)
  refine ⟨_, a, rest, ?_, hfirst, ha⟩
  rw [← hrest, List.take_append_drop]

/-- Documents whose wire forms have identifiers that can be written can be sent. -/
theorem Index.sendable_of_forall₂ {index : Index} {names : PointNames} {documents : List Value}
    {wires : List Members}
    (h : List.Forall₂ (fun d w => index.schema.toWire names d = .ok w) documents wires)
    (hids : ∀ wire ∈ wires, WritableUnder index.identifier.name wire) :
    ∀ document ∈ documents, index.Sendable names document := by
  induction h with
  | nil => simp
  | cons hwire _ ih =>
      rw [List.forall_mem_cons] at hids ⊢
      exact ⟨⟨_, hwire, hids.1⟩, ih hids.2⟩

section
variable {service : Service σ} {fine : σ → Prop} {index : Index} {names : PointNames}
variable {documents : List Value} {wires : List Members} {size : Nat} {options : WriteOptions}
variable {waits : Bool}

/-- The calls of a job that meets no error, as they are written. -/
theorem AcceptsBulk.written_calls (hservice : AcceptsBulk service fine)
    (hwires : List.Forall₂ (fun d w => index.schema.toWire names d = .ok w) documents wires)
    (hids : ∀ wire ∈ wires, WritableUnder index.identifier.name wire)
    (ids : List Value) (hpos : 0 < size) (hlimit : (size : Int) ≤ chunkLimit)
    (hwaits : options.confirms = .ok waits) (patience : Nat) {start : σ} (hstart : fine start) :
    let run := service.bulk index names (.ofLists documents ids size options) patience start
    run.calls.map Call.written =
        (chunksOf size wires).map
            (fun chunk => writtenBulk waits (chunk.flatMap index.writtenSave)) ++
          (chunksOf size ids).map (fun chunk => writtenBulk waits (chunk.map index.writtenDelete)) ∧
      run.calls.flatMap Call.operations =
        wires.flatMap index.writtenSave ++ ids.map index.writtenDelete := by
  intro run
  have hsaves := Index.mapM_saveAction hwires hids
  obtain ⟨-, hcalls⟩ := hservice.bulk hsaves ids hpos hlimit hwaits patience hstart
  have hsame : run.calls = _ := hcalls
  rw [hsame]
  constructor
  · rw [chunksOf_map, chunksOf_map, List.map_append, List.map_map, List.map_map, List.map_map,
      List.map_map]
    congr 1
    · refine List.map_congr_left fun chunk _ => ?_
      simp only [Function.comp_apply, Call.written, writtenBulk, Call.method, Call.arguments,
        Index.flatMap_toValues_saves]
    · refine List.map_congr_left fun chunk _ => ?_
      simp only [Function.comp_apply, Call.written, writtenBulk, Call.method, Call.arguments,
        Index.flatMap_toValues_deletes]
  · rw [List.flatMap_append, flatMap_operations_bulk, flatMap_operations_bulk,
      (cutInto_chunksOf hpos _).flatten, (cutInto_chunksOf hpos _).flatten,
      index.flatMap_toValues_saves, index.flatMap_toValues_deletes]

/-- A job with a document whose identifier cannot be written, behind others whose identifiers can,
ends at the chunk with that document. Only the full chunks before it are sent. -/
theorem AcceptsBulk.bulk_of_not_writable (hservice : AcceptsBulk service fine)
    {before after : List Members} {wire : Members}
    (hwires : List.Forall₂ (fun d w => index.schema.toWire names d = .ok w) documents
      (before ++ wire :: after))
    (hbefore : ∀ w ∈ before, WritableUnder index.identifier.name w)
    (hwire : ¬ WritableUnder index.identifier.name wire)
    (ids : List Value) (hpos : 0 < size) (hlimit : (size : Int) ≤ chunkLimit)
    (hwaits : options.confirms = .ok waits) (patience : Nat) {start : σ} (hstart : fine start) :
    let run := service.bulk index names (.ofLists documents ids size options) patience start
    run.result = some (.error .tooManyDigits) ∧
      run.calls = (List.range (before.length / size)).map fun c =>
        .bulk ((Source.ofList (before.map index.saveOf)).chunk size c) waits := by
  intro run
  obtain ⟨first, document, rest, rfl, hfirst, hdocument⟩ := exists_of_forall₂_append_cons hwires
  have hactions : index.chunkActions names .indexing first = .ok (before.map index.saveOf) :=
    Index.mapM_saveAction hfirst hbefore
  rw [← hfirst.length_eq]
  have hsendable := Index.sendable_of_forall₂ hfirst hbefore
  -- the chunks before the one that fails are full of documents that can be sent
  have hfull : ∀ i < first.length / size,
      (Source.ofList (first ++ document :: rest)).chunk size i ≠ [] ∧
        index.chunkActions names .indexing ((Source.ofList (first ++ document :: rest)).chunk size i)
          = .ok ((Source.ofList (before.map index.saveOf)).chunk size i) := by
    intro i hi
    have hwithin : (i + 1) * size ≤ first.length :=
      (Nat.mul_le_mul_right size hi).trans (Nat.div_mul_le_self _ _)
    refine ⟨(chunk_ofList_ne_nil_iff hpos _).mpr ((lt_ceilDiv_iff hpos).mpr ?_), ?_⟩
    · rw [List.length_append, List.length_cons]
      rw [Nat.succ_mul] at hwithin
      omega
    · rw [chunk_ofList_append hwithin]
      exact chunkActions_chunk hactions size i
  obtain ⟨s, hsent, -⟩ := hservice.chunksSent hfull waits hstart
  have hlast := chunk_ofList_append_cons hpos first document rest
  have hne : (Source.ofList (first ++ document :: rest)).chunk size (first.length / size) ≠ [] := by
    rw [hlast]
    simp
  have hfails : ChunkFails service index names waits .indexing s
      ((Source.ofList (first ++ document :: rest)).chunk size (first.length / size))
      .tooManyDigits [] := by
    rw [hlast]
    exact .identifier rfl (fun d hd => hsendable d (List.mem_of_mem_drop hd)) hdocument hwire
  have hfirstFailure : FailsFirst service index names waits size
      (.ofLists (first ++ document :: rest) ids size options) start .indexing _ _ _ :=
    .saving hsent hne hfails
  have hpatience : (Source.ofList (first ++ document :: rest)).remaining = ⊤ →
      first.length / size < patience := fun h => absurd h (ENat.natCast_ne_top _)
  obtain ⟨hresult, hcalls, -⟩ := hfirstFailure.bulk
    (BulkJob.settings_ofLists _ ids hpos hlimit hwaits) hpatience
  exact ⟨hresult, hcalls.trans (List.append_nil _)⟩

/-- Chunks that are larger than what can be asked for at once are refused before anything is
drawn. -/
theorem bulk_of_oversized (ids : List Value) {size : Int} (hlimit : chunkLimit < size)
    (hwaits : options.confirms = .ok waits) (patience : Nat) (start : σ) :
    service.bulk index names (.ofLists documents ids size options) patience start =
      ⟨some (.error .chunkTooLarge), [], start, .ofList documents, .ofList ids⟩ := by
  have hsize := chunkSize_of_limit_lt hlimit
  have hsettings : (BulkJob.ofLists documents ids size options).settings =
      .error .chunkTooLarge := by
    rw [BulkJob.settings, BulkJob.ofLists, hwaits, ok_bind, hsize, error_bind]
  rw [Service.bulk, hsettings]
  rfl

end

/-- A job over lists of documents that can all be converted and of identifiers, in front of a
service that reports no errors, with chunks of one item or more. If the chunks are not larger than
what can be asked for at once and the identifiers of all documents can be written, the documents and
the identifiers are cut into as many chunks as are needed; the calls are one for each chunk of
documents and then one for each chunk of identifiers. All operations together do not depend on the
size of the chunks, and the job yields a task exactly if confirmation was asked for.

A document whose identifier cannot be written ends the job when its chunk comes up, so that only the
full chunks before it are sent. Larger chunks are refused and nothing is sent. -/
theorem bulk_sends_everything_once {index : Index} {names : PointNames} {documents : List Value}
    (hdocuments : ∀ document ∈ documents, ∃ wire, index.schema.toWire names document = .ok wire)
    (ids : List Value) (options : Option Members) {service : Service σ} {fine : σ → Prop}
    (hservice : AcceptsBulk service fine) {start : σ} (hstart : fine start) (patience : Nat) :
    let waits := WriteOptions.asksConfirmation options
    ∃ wires, List.Forall₂ (fun d w => index.schema.toWire names d = .ok w) documents wires ∧
      ∀ size : Nat, 0 < size →
        let job := BulkJob.ofLists documents ids size (.ofMembers options)
        let run := service.bulk index names job patience start
        if (size : Int) ≤ chunkLimit then
          ((∀ wire ∈ wires, WritableUnder index.identifier.name wire) →
            (∃ saved deleted, CutInto size wires saved ∧ CutInto size ids deleted ∧
              saved.length = documents.length ⌈/⌉ size ∧ deleted.length = ids.length ⌈/⌉ size ∧
              run.calls.map Call.written =
                saved.map (fun chunk => writtenBulk waits (chunk.flatMap index.writtenSave)) ++
                  deleted.map fun chunk => writtenBulk waits (chunk.map index.writtenDelete)) ∧
            run.calls.flatMap Call.operations =
              wires.flatMap index.writtenSave ++ ids.map index.writtenDelete ∧
            run.result = some (.ok (if waits then some ⟨.null⟩ else none))) ∧
          ∀ before wire after, wires = before ++ wire :: after →
            (∀ w ∈ before, WritableUnder index.identifier.name w) →
            ¬ WritableUnder index.identifier.name wire →
            (∃ saved, CutInto size (before.take (before.length / size * size)) saved ∧
              saved.length = before.length / size ∧
              run.calls.map Call.written =
                saved.map fun chunk => writtenBulk waits (chunk.flatMap index.writtenSave)) ∧
            run.result = some (.error .tooManyDigits)
        else run.calls = [] ∧ run.result = some (.error .chunkTooLarge) := by
  intro waits
  obtain ⟨wires, hwires⟩ := exists_mapM_eq_ok hdocuments
  rw [mapM_eq_ok] at hwires
  refine ⟨wires, hwires, fun size hpos => ?_⟩
  intro job run
  have hwaits : (WriteOptions.ofMembers options).confirms = .ok waits :=
    WriteOptions.confirms_ofMembers options
  by_cases hlimit : (size : Int) ≤ chunkLimit
  · rw [if_pos hlimit]
    constructor
    · intro hwritable
      have hsaved := cutInto_chunksOf hpos wires
      have hdeleted := cutInto_chunksOf hpos ids
      have hcount : (chunksOf size wires).length = documents.length ⌈/⌉ size := by
        rw [hsaved.length_eq hpos, hwires.length_eq]
      obtain ⟨hcalls, hoperations⟩ :=
        hservice.written_calls hwires hwritable ids hpos hlimit hwaits patience hstart
      obtain ⟨hresult, -⟩ := hservice.bulk (Index.mapM_saveAction hwires hwritable) ids hpos hlimit
        hwaits patience hstart
      exact ⟨⟨_, _, hsaved, hdeleted, hcount, hdeleted.length_eq hpos, hcalls⟩, hoperations,
        hresult⟩
    · intro before wire after hsplit hbefore hwire
      rw [hsplit] at hwires
      obtain ⟨hresult, hcalls⟩ := hservice.bulk_of_not_writable hwires hbefore hwire ids hpos
        hlimit hwaits patience hstart
      have hcut := cutInto_full hpos (Nat.div_mul_le_self before.length size)
      refine ⟨⟨_, hcut, by rw [List.length_map, List.length_range], ?_⟩, hresult⟩
      have hsame : run.calls = _ := hcalls
      rw [hsame, List.map_map, List.map_map]
      refine List.map_congr_left fun c _ => ?_
      simp only [Function.comp_apply, chunk_map, Call.written, writtenBulk, Call.method,
        Call.arguments, Index.flatMap_toValues_saves]
  · rw [if_neg hlimit]
    have hrun : run = _ := bulk_of_oversized ids (not_le.mp hlimit) hwaits patience start
    rw [hrun]
    exact ⟨rfl, rfl⟩

namespace Sample

/-- Three documents, of which one has no identifier. -/
def threePlaces : List Value :=
  [.object [("id", .text "a")], .object [("title", .text "Quay")], .object [("id", .int 7)]]

/-- A service that answers every call without an error, unless its script says something else. -/
def agreeable : Service (List Reply) := .scripted fun _ => answered false

theorem agreeable_acceptsBulk :
    AcceptsBulk agreeable fun script => ∀ reply ∈ script, reply = answered false where
  answers script actions waits h := by
    refine ⟨.object [("errors", .bool false)], .bool false, ?_, rfl, rfl⟩
    cases script with
    | nil => rfl
    | cons reply script => exact h reply List.mem_cons_self
  stays script actions waits h := by
    cases script with
    | nil => exact h
    | cons reply script => exact (List.forall_mem_cons.mp h).2

theorem threePlaces_toWire :
    ∀ document ∈ threePlaces, ∃ wire, places.schema.toWire .engine document = .ok wire := by
  intro document hdocument
  simp only [threePlaces, List.mem_cons, List.not_mem_nil, or_false] at hdocument
  rcases hdocument with rfl | rfl | rfl
  · exact ⟨[("id", .text "a")], rfl⟩
  · exact ⟨[("title", .text "Quay")], rfl⟩
  · exact ⟨[("id", .int 7)], rfl⟩

/-- In pairs, three documents take two calls and a single identifier one more. -/
theorem threePlaces_sent_in_pairs :
    (∀ document ∈ threePlaces, ∃ wire, places.schema.toWire .engine document = .ok wire) ∧
      AcceptsBulk agreeable (fun script => ∀ reply ∈ script, reply = answered false) ∧
      (∀ reply ∈ [answered false], reply = answered false) ∧
      ∃ wires, List.Forall₂ (fun d w => places.schema.toWire .engine d = .ok w) threePlaces wires ∧
        (∀ wire ∈ wires, WritableUnder places.identifier.name wire) ∧
        let run := agreeable.bulk places .engine
          (.ofLists threePlaces [.text "b"] 2 (.object [("confirm", .bool true)])) 0
          [answered false]
        (∃ saved deleted, CutInto 2 wires saved ∧ CutInto 2 [.text "b"] deleted ∧
          saved.length = 2 ∧ deleted.length = 1 ∧
          run.calls.map Call.written =
            saved.map (fun chunk => writtenBulk true (chunk.flatMap places.writtenSave)) ++
              deleted.map fun chunk => writtenBulk true (chunk.map places.writtenDelete)) ∧
        run.result = some (.ok (some ⟨.null⟩)) := by
  have hscript : ∀ reply ∈ [answered false], reply = answered false := by simp
  obtain ⟨wires, hwires, hrun⟩ := bulk_sends_everything_once threePlaces_toWire [.text "b"]
    (some [("confirm", .bool true)]) agreeable_acceptsBulk hscript 0
  have hknown : threePlaces.mapM (places.schema.toWire .engine) =
      .ok [[("id", .text "a")], [("title", .text "Quay")], [("id", .int 7)]] := rfl
  have hwritable : ∀ wire ∈ wires, WritableUnder places.identifier.name wire := by
    rw [← Except.ok.inj (hknown.symm.trans (mapM_eq_ok.mpr hwires))]
    decide
  obtain ⟨hcalls, -, hresult⟩ := (hrun 2 (by decide)).1 hwritable
  exact ⟨threePlaces_toWire, agreeable_acceptsBulk, hscript, wires, hwires, hwritable, hcalls,
    hresult⟩

/-- One document and chunks of 2 ^ 63: one call is what it would take, but none is made. Neither is
one made for a document that can be converted, but whose identifier cannot be written. -/
theorem oversized_chunk_is_not_sent :
    let document : Value := .object [("id", .text "a")]
    let run := agreeable.bulk places .engine (.ofLists [document] [] (2 ^ 63) .null) 0 []
    let numbered : Value := .object [("id", tooLong)]
    let numberedRun := agreeable.bulk places .engine (.ofLists [numbered] [] 1 .null) 0 []
    places.schema.toWire .engine document = .ok [("id", .text "a")] ∧
      AcceptsBulk agreeable (fun script => ∀ reply ∈ script, reply = answered false) ∧
      (1 : Int) ≤ 2 ^ 63 ∧ 1 ⌈/⌉ (2 ^ 63 : Nat) = 1 ∧
      run.calls = [] ∧ run.result = some (.error .chunkTooLarge) ∧
      places.schema.toWire .engine numbered = .ok [("id", tooLong)] ∧
      numberedRun.calls = [] ∧ numberedRun.result = some (.error .tooManyDigits) := by
  intro document run numbered numberedRun
  have hwaits : WriteOptions.confirms .null = .ok false := rfl
  have hrun : run = _ := bulk_of_oversized [] (by decide) hwaits 0 []
  have hnumbered : places.schema.toWire .engine numbered = .ok [("id", tooLong)] := rfl
  have hwires : List.Forall₂ (fun d w => places.schema.toWire .engine d = .ok w) [numbered]
      ([] ++ [("id", tooLong)] :: []) := .cons hnumbered .nil
  have hlimit : ((1 : Nat) : Int) ≤ chunkLimit := by decide
  obtain ⟨hresult, hcalls⟩ := agreeable_acceptsBulk.bulk_of_not_writable hwires
    (List.forall_mem_nil _) (tooLong_not_writableUnder rfl) [] Nat.one_pos hlimit hwaits 0
    (List.forall_mem_nil _)
  rw [hrun]
  exact ⟨rfl, agreeable_acceptsBulk, by decide, by decide, rfl, rfl, hnumbered, hcalls, hresult⟩

end Sample

end DocSearch
