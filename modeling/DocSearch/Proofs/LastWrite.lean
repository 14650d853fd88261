import DocSearch.Engine
import DocSearch.Proofs.Cut
import DocSearch.Proofs.RoundTrip
import DocSearch.Proofs.Store
import Mathlib.Data.List.Nodup

/-!
# The last write counts

An engine in front of an ideal store is followed through any run of writes. What the store keeps
for an index mirrors the log of the documents written: under each identifier stands a wire form that
reads as the document last saved, or nothing if that has been deleted or was never there.
-/

namespace DocSearch

open Fallible

/-! ## Documents with an identifier -/

namespace Index

/-- The identifier stands under its own name and is a single value. -/
def PlainIdentifier (index : Index) : Prop :=
  index.fields.lookup index.identifier.name = some index.identifier ∧
    index.identifier.multiple = false

/-- The text of the identifier that a document carries, which has to be a text or a whole number
that can be written. -/
def idText? (index : Index) : Value → Option String
  | .object members =>
    match members.lookup index.identifier.name with
    | some (.text s) => some s
    | some (.number (.integer n)) => (Number.integer n).display?
    | _ => none
  | _ => none

/-- A document that fits the schema and carries an identifier. -/
def Identified (index : Index) (document : Value) : Prop :=
  index.schema.Conforms (PointWith "latitude" "longitude") document ∧
    ∃ id, index.idText? document = some id

/-- The document that a wire form is read as. -/
def Reads (index : Index) (document wire : Value) : Prop :=
  ∃ back, index.schema.ofWire .engine wire = .ok back ∧ document.Same (.object back)

variable {index : Index} {names : PointNames} {members wire : Members}

theorem exists_identifier_eq (index : Index) : ∃ a, index.identifier = .leaf .identifier a := by
  have hmem : index.identifier ∈ identifiers index.fields := List.head_mem _
  have hkind := (List.mem_filter.mp hmem).2
  cases h : index.identifier with
  | leaf kind a =>
      rw [h] at hkind
      cases kind <;> first | exact ⟨a, rfl⟩ | cases hkind
  | object a fields =>
      rw [h] at hkind
      cases hkind

/-- What stands under the name of the identifier is the same in the wire form. -/
theorem lookup_identifier_toWire (hplain : index.PlainIdentifier)
    (hwire : index.schema.toWire names (.object members) = .ok wire) {v : Value}
    (hv : members.lookup index.identifier.name = some v) :
    wire.lookup index.identifier.name = some v := by
  have hfield := (Keyed.lookup_eq_some_iff_mem index.schema.distinct).mp hplain.1
  have hkept : convertSlot index.identifier.multiple
      (index.identifier.convert names.toWire) v = .ok v := by
    obtain ⟨a, ha⟩ := index.exists_identifier_eq
    rw [hplain.2, ha]
    cases v <;> rfl
  exact lookup_convertFields hwire index.schema.distinct hfield hv hkept

theorem identifierText_of_idText? {id : String}
    (h : index.idText? (.object members) = some id)
    (hlookup : wire.lookup index.identifier.name = members.lookup index.identifier.name) :
    identifierText index.identifier.name wire = .ok (some id) := by
  simp only [idText?] at h
  rw [identifierText, hlookup]
  split at h
  case h_1 s hs =>
    rw [hs, ← h]
    rfl
  case h_2 n hn =>
    have hwritten : (Value.int n).display? = some id := h
    simp only [hn, Value.plainText, hwritten]
    rfl
  case h_3 => cases h

/-- An identified document is sent in one way, with the same identifier whether it is read off the
document or off its wire form, and what is sent reads as the document. -/
theorem Identified.exists_wire (hplain : index.PlainIdentifier) {document : Value}
    (h : index.Identified document) :
    ∃ members wire id, document = .object members ∧ index.idText? document = some id ∧
      identifierText index.identifier.name members = .ok (some id) ∧
      index.schema.toWire .engine document = .ok wire ∧
      identifierText index.identifier.name wire = .ok (some id) ∧
      index.Reads document (.object wire) := by
  obtain ⟨hfit, id, hid⟩ := h
  obtain ⟨wire, back, hwire, hback, hsame⟩ :=
    index.schema.returns PointNames.extra_engine.returns_points hfit
  obtain ⟨members, rfl, -⟩ := hfit
  have hlookup : wire.lookup index.identifier.name = members.lookup index.identifier.name := by
    cases hv : members.lookup index.identifier.name with
    | none =>
        simp only [idText?, hv] at hid
        cases hid
    | some v => exact lookup_identifier_toWire hplain hwire hv
  refine ⟨members, wire, id, rfl, hid, identifierText_of_idText? hid rfl, hwire,
    identifierText_of_idText? hid hlookup, back, hback, ?_⟩
  exact hsame.mpr fun _ => PointNames.good_engine

end Index

/-! ## Engines and their writes -/

/-- The configured indexes have different names and plain identifiers. -/
structure Engine.Separate (engine : Engine) : Prop where
  names : (engine.indexes.entries.map fun e => e.2.name).Nodup
  identifiers : ∀ e ∈ engine.indexes.entries, e.2.PlainIdentifier

theorem Engine.index_eq_ok {engine : Engine} {key : String} {index : Index} :
    engine.index key = .ok index ↔ (key, index) ∈ engine.indexes.entries := by
  rw [← Keyed.lookup_eq_some_iff_mem engine.indexes.distinct, Engine.index, Indexes.get]
  cases engine.indexes.entries.lookup key <;> simp

namespace Engine.Separate

variable {engine : Engine} {key : String} {index : Index}

theorem plain (h : engine.Separate) (hindex : engine.index key = .ok index) :
    index.PlainIdentifier :=
  h.identifiers _ (Engine.index_eq_ok.mp hindex)

/-- A name tells under which key its index is configured. -/
theorem key_eq (h : engine.Separate) (hindex : engine.index key = .ok index) {key' : String}
    {index' : Index} (hindex' : engine.index key' = .ok index') (hname : index.name = index'.name) :
    key = key' := by
  have hentries := List.inj_on_of_nodup_map h.names (Engine.index_eq_ok.mp hindex)
    (Engine.index_eq_ok.mp hindex') hname
  exact congrArg Prod.fst hentries

end Engine.Separate

/-- A write through the engine, with everything that the caller hands over. -/
inductive Write where
  | save (key : String) (document : Value) (options : WriteOptions)
  | delete (key id : String) (options : WriteOptions)
  | bulk (key : String) (documents : List Value) (ids : List String) (size : Int)
      (options : WriteOptions)

namespace Write

/-- The job that a bulk write asks for. -/
def job (documents : List Value) (ids : List String) (size : Int) (options : WriteOptions) :
    BulkJob where
  saves := .ofList documents
  deletes := .ofList (ids.map .text)
  size
  options

variable {σ : Type}

/-- The state that a write leaves the service in. A bulk write draws from lists, so it needs no
patience. -/
def run (engine : Engine) (service : Service σ) (state : σ) : Write → σ
  | .save key document options => (service.run state (engine.save key document options)).state
  | .delete key id options => (service.run state (engine.delete key (.text id) options)).state
  | .bulk key documents ids size options =>
    (engine.bulk service key (job documents ids size options) 0 state).state

/-- The documents of a write fit the index they are for and carry an identifier. -/
def Fits (engine : Engine) : Write → Prop
  | .save key document _ => ∀ index, engine.index key = .ok index → index.Identified document
  | .delete _ _ _ => True
  | .bulk key documents _ _ _ =>
    ∀ index, engine.index key = .ok index → ∀ document ∈ documents, index.Identified document

/-- A saved document in the log of an index that is configured under a key. -/
def logged? (key : String) (index : Index) (document : Value) : Option Entry :=
  (index.idText? document).map fun id => ⟨key, id, some document⟩

/-- What a write adds to the log of an engine. A bulk write counts as all its saves and then all its
deletions; a write to an index that is not configured, or with options or a size that cannot be
used, counts as nothing. -/
def log (engine : Engine) (write : Write) : List Entry :=
  match write with
  | .save key document options =>
    match engine.index key, options.confirms with
    | .ok index, .ok _ => (logged? key index document).toList
    | _, _ => []
  | .delete key id options =>
    match engine.index key, options.confirms with
    | .ok _, .ok _ => [⟨key, id, none⟩]
    | _, _ => []
  | .bulk key documents ids size options =>
    match engine.index key, (job documents ids size options).settings with
    | .ok index, .ok _ =>
      documents.filterMap (logged? key index) ++ ids.map fun id => ⟨key, id, none⟩
    | _, _ => []

end Write

/-! ## What a write sends -/

/-- An entry of the log and what is sent for it: the same identifier in the index of that name, and
a wire form that reads as the document. -/
def Engine.Sends (engine : Engine) (logged sent : Entry) : Prop :=
  ∃ index, engine.index logged.place = .ok index ∧ sent.place = index.name ∧ sent.id = logged.id ∧
    Option.Rel index.Reads logged.value sent.value

section
variable {σ : Type} {service : Service σ} {contents : σ → Contents} {engine : Engine}
variable {key : String} {index : Index}

theorem Engine.Separate.save_sends (hengine : engine.Separate) (hstore : IdealStore service contents)
    (hindex : engine.index key = .ok index) {document : Value} (hfit : index.Identified document)
    {options : WriteOptions} {waits : Bool} (hwaits : options.confirms = .ok waits) (s : σ) :
    ∃ logged sent, Write.logged? key index document = some logged ∧
      engine.Sends logged sent ∧
      contents (service.run s (engine.save key document options)).state =
        (contents s).apply sent := by
  obtain ⟨members, wire, id, rfl, hid, hmembers, hwire, -, hreads⟩ :=
    hfit.exists_wire (hengine.plain hindex)
  refine ⟨⟨key, id, some (.object members)⟩, ⟨index.name, id, some (.object wire)⟩, ?_,
    ⟨index, hindex, rfl, rfl, .some hreads⟩, ?_⟩
  · rw [Write.logged?, hid]
    rfl
  · rw [Engine.save, hindex, ok_bind, Index.save, hwaits, ok_bind, Value.entries, ok_bind, hmembers,
      ok_bind, hwire, ok_bind]
    exact hstore.save s _ _ _ _

theorem delete_sends (hstore : IdealStore service contents) (hindex : engine.index key = .ok index)
    {options : WriteOptions} {waits : Bool} (hwaits : options.confirms = .ok waits) (id : String)
    (s : σ) :
    contents (service.run s (engine.delete key (.text id) options)).state =
      (contents s).apply ⟨index.name, id, none⟩ := by
  rw [Engine.delete, hindex, ok_bind, Index.delete, hwaits, ok_bind]
  exact hstore.delete s _ _ _

/-- How an item of a phase of a bulk job is sent. -/
def Index.SentAs (index : Index) (phase : BulkPhase) (item : Value) (sent : Entry) : Prop :=
  match phase with
  | .indexing => index.saveAction .engine item = .ok sent.action
  | .deleting => .delete index.name item = sent.action

theorem chunkRequest_of_sentAs {phase : BulkPhase} {waits : Bool} {chunk : List Value}
    {sent : List Entry} (h : List.Forall₂ (index.SentAs phase) chunk sent) :
    index.chunkRequest .engine waits phase chunk =
      .ok ⟨.bulk (sent.map Entry.action) waits, readBulk index phase⟩ := by
  have hactions : index.chunkActions .engine phase chunk = .ok (sent.map Entry.action) := by
    cases phase with
    | indexing => exact mapM_eq_ok.mpr (List.forall₂_map_right_iff.mpr h)
    | deleting =>
        refine congrArg Except.ok ?_
        induction h with
        | nil => rfl
        | cons hitem _ ih => rw [List.map_cons, List.map_cons, ih, hitem]
  rw [Index.chunkRequest_eq, hactions]
  rfl

theorem Engine.Separate.documents_send (hengine : engine.Separate)
    (hindex : engine.index key = .ok index) {documents : List Value}
    (hfit : ∀ document ∈ documents, index.Identified document) :
    ∃ sent, List.Forall₂ (index.SentAs .indexing) documents sent ∧
      List.Forall₂ engine.Sends (documents.filterMap (Write.logged? key index)) sent := by
  induction documents with
  | nil => exact ⟨[], .nil, .nil⟩
  | cons document documents ih =>
      rw [List.forall_mem_cons] at hfit
      obtain ⟨sent, hsent, hlog⟩ := ih hfit.2
      obtain ⟨members, wire, id, rfl, hid, -, hwire, hwireId, hreads⟩ :=
        hfit.1.exists_wire (hengine.plain hindex)
      have hlogged : Write.logged? key index (.object members) =
          some ⟨key, id, some (.object members)⟩ := by
        rw [Write.logged?, hid]
        rfl
      refine ⟨⟨index.name, id, some (.object wire)⟩ :: sent, .cons ?_ hsent, ?_⟩
      · rw [Index.SentAs, Index.saveAction, hwire, ok_bind, hwireId]
        rfl
      · rw [List.filterMap_cons_some hlogged]
        exact .cons ⟨index, hindex, rfl, rfl, .some hreads⟩ hlog

theorem ids_send (hindex : engine.index key = .ok index) (ids : List String) :
    ∃ sent, List.Forall₂ (index.SentAs .deleting) (ids.map .text) sent ∧
      List.Forall₂ engine.Sends (ids.map fun id => ⟨key, id, none⟩) sent := by
  induction ids with
  | nil => exact ⟨[], .nil, .nil⟩
  | cons id ids ih =>
      obtain ⟨sent, hsent, hlog⟩ := ih
      exact ⟨⟨index.name, id, none⟩ :: sent, .cons rfl hsent,
        .cons ⟨index, hindex, rfl, rfl, .none⟩ hlog⟩

/-- A bulk job over lists sends all its saves and then all its deletions. -/
theorem bulk_sends (hstore : IdealStore service contents) {documents ids : List Value} {size : Int}
    {options : WriteOptions} {waits : Bool} {n : Nat}
    (hsettings : BulkJob.settings ⟨.ofList documents, .ofList ids, size, options⟩ = .ok (waits, n))
    {saved deleted : List Entry}
    (hsaved : List.Forall₂ (index.SentAs .indexing) documents saved)
    (hdeleted : List.Forall₂ (index.SentAs .deleting) ids deleted) (s : σ) :
    contents (service.bulk index .engine ⟨.ofList documents, .ofList ids, size, options⟩ 0 s).state =
      (saved ++ deleted).foldl Contents.apply (contents s) := by
  have hn : 0 < n := BulkJob.settings_pos hsettings
  obtain ⟨calls, s', rest, hsaves, hs'⟩ := hstore.sendChunks
    (fun _ _ => chunkRequest_of_sentAs) hn hsaved (Nat.lt_succ_self _) 0 s
  obtain ⟨calls', s'', rest', hdeletes, hs''⟩ := hstore.sendChunks
    (fun _ _ => chunkRequest_of_sentAs) hn hdeleted (Nat.lt_succ_self _) 0 s'
  rw [bulk_of_deleting hsettings hsaves, List.foldl_append, ← hs', ← hs'']
  exact congrArg contents (congrArg PhaseRun.state hdeletes)

theorem Write.contents_save (hstore : IdealStore service contents) (hengine : engine.Separate)
    {document : Value} {options : WriteOptions}
    (hfits : (Write.save key document options).Fits engine) (s : σ) :
    ∃ sent, List.Forall₂ engine.Sends ((Write.save key document options).log engine) sent ∧
      contents ((Write.save key document options).run engine service s) =
        sent.foldl Contents.apply (contents s) := by
  cases hindex : engine.index key with
  | error e =>
      refine ⟨[], by simp [Write.log, hindex], ?_⟩
      rw [Write.run, Engine.save, hindex]
      rfl
  | ok index =>
      cases hwaits : options.confirms with
      | error e =>
          refine ⟨[], by simp [Write.log, hindex, hwaits], ?_⟩
          rw [Write.run, Engine.save, hindex, ok_bind, Index.save, hwaits]
          rfl
      | ok waits =>
          obtain ⟨logged, sent, hlogged, hsends, hstate⟩ :=
            hengine.save_sends hstore hindex (hfits index hindex) hwaits s
          refine ⟨[sent], ?_, hstate⟩
          simpa [Write.log, hindex, hwaits, hlogged] using hsends

theorem Write.contents_delete (hstore : IdealStore service contents) {id : String}
    {options : WriteOptions} (s : σ) :
    ∃ sent, List.Forall₂ engine.Sends ((Write.delete key id options).log engine) sent ∧
      contents ((Write.delete key id options).run engine service s) =
        sent.foldl Contents.apply (contents s) := by
  cases hindex : engine.index key with
  | error e =>
      refine ⟨[], by simp [Write.log, hindex], ?_⟩
      rw [Write.run, Engine.delete, hindex]
      rfl
  | ok index =>
      cases hwaits : options.confirms with
      | error e =>
          refine ⟨[], by simp [Write.log, hindex, hwaits], ?_⟩
          rw [Write.run, Engine.delete, hindex, ok_bind, Index.delete, hwaits]
          rfl
      | ok waits =>
          have hsends : engine.Sends ⟨key, id, none⟩ ⟨index.name, id, none⟩ :=
            ⟨index, hindex, rfl, rfl, .none⟩
          refine ⟨[⟨index.name, id, none⟩], ?_, delete_sends hstore hindex hwaits id s⟩
          simpa [Write.log, hindex, hwaits] using hsends

theorem Write.contents_bulk (hstore : IdealStore service contents) (hengine : engine.Separate)
    {documents : List Value} {ids : List String} {size : Int} {options : WriteOptions}
    (hfits : (Write.bulk key documents ids size options).Fits engine) (s : σ) :
    ∃ sent, List.Forall₂ engine.Sends
        ((Write.bulk key documents ids size options).log engine) sent ∧
      contents ((Write.bulk key documents ids size options).run engine service s) =
        sent.foldl Contents.apply (contents s) := by
  cases hindex : engine.index key with
  | error e =>
      refine ⟨[], by simp [Write.log, hindex], ?_⟩
      rw [Write.run, Engine.bulk, hindex]
      rfl
  | ok index =>
      have hrun : (Write.bulk key documents ids size options).run engine service s =
          (service.bulk index .engine (job documents ids size options) 0 s).state := by
        rw [Write.run, Engine.bulk, hindex]
      cases hsettings : (job documents ids size options).settings with
      | error e =>
          refine ⟨[], by simp [Write.log, hindex, hsettings], ?_⟩
          rw [hrun, Service.bulk, hsettings]
          rfl
      | ok settings =>
          obtain ⟨saved, hsaved, hsavedLog⟩ := hengine.documents_send hindex (hfits index hindex)
          obtain ⟨deleted, hdeleted, hdeletedLog⟩ := ids_send hindex ids
          refine ⟨saved ++ deleted, ?_, ?_⟩
          · have hlog := List.rel_append hsavedLog hdeletedLog
            simpa [Write.log, hindex, hsettings] using hlog
          · rw [hrun]
            exact bulk_sends hstore hsettings hsaved hdeleted s

/-- A write changes what is kept by what is sent for its entries in the log, and by nothing else. -/
theorem Write.contents_run (hstore : IdealStore service contents) (hengine : engine.Separate)
    {write : Write} (hfits : write.Fits engine) (s : σ) :
    ∃ sent, List.Forall₂ engine.Sends (write.log engine) sent ∧
      contents (write.run engine service s) = sent.foldl Contents.apply (contents s) := by
  cases write with
  | save key document options => exact contents_save hstore hengine hfits s
  | delete key id options => exact contents_delete hstore s
  | bulk key documents ids size options => exact contents_bulk hstore hengine hfits s

end

/-! ## The store mirrors the log -/

/-- Under each identifier of a configured index stands a wire form that reads as the document that
the log has last. -/
def Engine.Mirrors (engine : Engine) (log : List Entry) (contents : Contents) : Prop :=
  ∀ key index, engine.index key = .ok index → ∀ id,
    Option.Rel index.Reads (latest log key id) (contents index.name id)

section
variable {engine : Engine} {log : List Entry} {kept : Contents}

theorem Engine.Mirrors.concat (h : engine.Mirrors log kept) (hengine : engine.Separate)
    {logged sent : Entry} (hsends : engine.Sends logged sent) :
    engine.Mirrors (log ++ [logged]) (kept.apply sent) := by
  intro key index hindex id
  obtain ⟨index', hindex', hplace, hid, hvalue⟩ := hsends
  rw [latest_concat, Contents.apply, hplace, hid]
  by_cases hhere : key = logged.place ∧ id = logged.id
  · obtain ⟨rfl, rfl⟩ := hhere
    have hsame : index' = index := Except.ok.inj (hindex'.symm.trans hindex)
    subst hsame
    simpa using hvalue
  · have helse : ¬ (index.name = index'.name ∧ id = logged.id) := by
      intro heq
      exact hhere ⟨hengine.key_eq hindex hindex' heq.1, heq.2⟩
    rw [if_neg hhere, if_neg helse]
    exact h key index hindex id

theorem Engine.Mirrors.append (h : engine.Mirrors log kept) (hengine : engine.Separate)
    {added sent : List Entry} (hsends : List.Forall₂ engine.Sends added sent) :
    engine.Mirrors (log ++ added) (sent.foldl Contents.apply kept) := by
  induction hsends generalizing log kept with
  | nil => simpa using h
  | cons hfirst _ ih =>
      have hrest := ih (h.concat hengine hfirst)
      rw [List.append_assoc, List.singleton_append] at hrest
      exact hrest

variable {σ : Type} {service : Service σ} {contents : σ → Contents}

/-- Any run of writes keeps the store a mirror of what has been written. -/
theorem Engine.Mirrors.run {s : σ} (h : engine.Mirrors log (contents s))
    (hstore : IdealStore service contents) (hengine : engine.Separate) {writes : List Write}
    (hfits : ∀ write ∈ writes, write.Fits engine) :
    engine.Mirrors (log ++ writes.flatMap (Write.log engine))
      (contents (writes.foldl (Write.run engine service) s)) := by
  induction writes generalizing log s with
  | nil => simpa using h
  | cons write writes ih =>
      rw [List.forall_mem_cons] at hfits
      obtain ⟨sent, hsends, hcontents⟩ := Write.contents_run hstore hengine hfits.1 s
      have hnext := h.append hengine hsends
      rw [← hcontents] at hnext
      have hrest := ih hnext hfits.2
      rw [List.append_assoc] at hrest
      exact hrest

end

/-! ## Reading back -/

section
variable {σ : Type} {service : Service σ} {contents : σ → Contents} {engine : Engine}
variable {key id : String} {index : Index} {s : σ}

theorem run_get_of_found (hstore : IdealStore service contents)
    (hindex : engine.index key = .ok index) {document wire : Value}
    (hkept : contents s index.name id = some wire) (hreads : index.Reads document wire) :
    ∃ found, (service.run s (engine.get key (.text id))).result = .ok found ∧
      document.Same found := by
  obtain ⟨answer, hanswer, hsource⟩ := hstore.found s index.name id wire hkept
  obtain ⟨back, hback, hsame⟩ := hreads
  refine ⟨.object back, ?_, hsame⟩
  have hfirst : SearchResult.first? ⟨index.schema, .engine, .list [answer], .int 1⟩ =
      .ok (some (.object back)) := by
    simp [SearchResult.first?, SearchResult.take, Value.items, SearchResult.convertHits, hsource,
      hback]
  rw [Engine.get, hindex]
  change (Search.lookupRequest ⟨index, _, _, _, _⟩ .engine (.text id)).read
    (service.reply (.get index.name (.text id)) s).1 >>= _ = _
  rw [hanswer]
  change (SearchResult.first? _ >>= _) = _
  rw [hfirst]
  rfl

theorem run_get_of_absent (hstore : IdealStore service contents)
    (hindex : engine.index key = .ok index) (hkept : contents s index.name id = none) :
    (service.run s (engine.get key (.text id))).result =
      .error (.documentNotFound (.text id) key) := by
  obtain ⟨fault, hfault, hkind⟩ := hstore.notFound s index.name id hkept
  rw [Engine.get, hindex]
  change (Search.lookupRequest ⟨index, _, _, _, _⟩ .engine (.text id)).read
    (service.reply (.get index.name (.text id)) s).1 >>= _ = _
  rw [hfault]
  simp only [Search.lookupRequest, hkind, if_true]
  rfl

theorem run_delete_of_found (hstore : IdealStore service contents)
    (hindex : engine.index key = .ok index) (hkept : contents s index.name id ≠ none)
    {options : WriteOptions} {waits : Bool} (hwaits : options.confirms = .ok waits) :
    (service.run s (engine.delete key (.text id) options)).result =
      .ok (if waits then some ⟨.null⟩ else none) := by
  obtain ⟨answer, hanswer, hdeleted⟩ := hstore.deleted s index.name id waits hkept
  rw [Engine.delete, hindex, ok_bind, Index.delete, hwaits, ok_bind]
  simp [Service.run, hanswer, Index.readDeleted, hdeleted]

/-- There is nothing to delete where nothing is kept, and the deletion changes nothing. -/
theorem run_delete_of_absent (hstore : IdealStore service contents)
    (hindex : engine.index key = .ok index) (hkept : contents s index.name id = none)
    {options : WriteOptions} {waits : Bool} (hwaits : options.confirms = .ok waits) :
    let deletion := service.run s (engine.delete key (.text id) options)
    deletion.result = .error (.notDeleted (.text id) index.name (.text "not_found")) ∧
      contents deletion.state = contents s := by
  intro deletion
  constructor
  · obtain ⟨fault, hfault, hkind⟩ := hstore.notDeleted s index.name id waits hkept
    unfold deletion
    rw [Engine.delete, hindex, ok_bind, Index.delete, hwaits, ok_bind]
    simp [Service.run, hfault, hkind, Index.refuseDeletion_eq]
  · unfold deletion
    rw [delete_sends hstore hindex hwaits]
    funext place other
    unfold Contents.apply
    by_cases hhere : place = index.name ∧ other = id
    · rw [if_pos hhere, hhere.1, hhere.2, hkept]
    · rw [if_neg hhere]

end

/-- Whatever was written through an engine in front of an ideal store that held nothing, the
document last saved under an identifier is what is found there, unless it has been deleted since.
Otherwise nothing is found, and there is nothing to delete.

What is refused counts as nothing: a bulk write with chunks that are larger than what can be asked
for at once, and a document whose identifier cannot be written. -/
theorem last_write_counts {σ : Type} {service : Service σ} {contents : σ → Contents}
    (hstore : IdealStore service contents) {engine : Engine} (hengine : engine.Separate)
    {start : σ} (hempty : ∀ e ∈ engine.indexes.entries, ∀ id, contents start e.2.name id = none)
    {writes : List Write} (hfits : ∀ write ∈ writes, write.Fits engine) {key : String}
    {index : Index} (hindex : engine.index key = .ok index) (id : String) :
    let state := writes.foldl (Write.run engine service) start
    let get := service.run state (engine.get key (.text id))
    let delete := fun options => service.run state (engine.delete key (.text id) options)
    (match latest (writes.flatMap (Write.log engine)) key id with
    | some document =>
      (∃ found, get.result = .ok found ∧ document.Same found) ∧
      ∀ options waits, options.confirms = .ok waits →
        (delete options).result = .ok (if waits then some ⟨.null⟩ else none)
    | none =>
      get.result = .error (.documentNotFound (.text id) key) ∧
      ∀ options waits, options.confirms = .ok waits →
        (delete options).result =
            .error (.notDeleted (.text id) index.name (.text "not_found")) ∧
          contents (delete options).state = contents state) ∧
    (∀ documents ids size options waits, options.confirms = .ok waits → chunkLimit < size →
      (Write.bulk key documents ids size options).log engine = [] ∧
      engine.bulk service key (Write.job documents ids size options) 0 state =
        ⟨some (.error .chunkTooLarge), [], state, .ofList documents, .ofList (ids.map .text)⟩) ∧
    ∀ members options waits, options.confirms = .ok waits →
      ¬ WritableUnder index.identifier.name members →
      service.run state (engine.save key (.object members) options) =
        ⟨.error .tooManyDigits, [], state⟩ := by
  intro state get delete
  refine ⟨?_, fun documents ids size options waits hwaits hsize => ?_,
    fun members options waits hwaits hnot => ?_⟩
  · have hstart : engine.Mirrors [] (contents start) := by
      intro key index hindex id
      rw [hempty _ (Engine.index_eq_ok.mp hindex) id]
      exact .none
    have hmirrors := (hstart.run hstore hengine hfits) key index hindex id
    rw [List.nil_append] at hmirrors
    revert hmirrors
    generalize hlast : latest (writes.flatMap (Write.log engine)) key id = last
    generalize hkept : contents (writes.foldl (Write.run engine service) start) index.name id = wire
    intro hmirrors
    cases hmirrors with
    | some hreads =>
        refine ⟨run_get_of_found hstore hindex hkept hreads, fun options waits hwaits => ?_⟩
        exact run_delete_of_found hstore hindex (by simp [state, hkept]) hwaits
    | none =>
        refine ⟨run_get_of_absent hstore hindex hkept, fun options waits hwaits => ?_⟩
        exact run_delete_of_absent hstore hindex hkept hwaits
  · have hsettings : (Write.job documents ids size options).settings = .error .chunkTooLarge := by
      rw [BulkJob.settings, Write.job, hwaits, ok_bind, chunkSize_of_limit_lt hsize, error_bind]
    simp only [Write.log, hindex, hsettings, Engine.bulk, Service.bulk, true_and]
    rfl
  · rw [Engine.save_of_not_writable hindex hwaits hnot]
    rfl

namespace Sample

def carryOut (kept : Contents) : BulkAction → Contents
  | .save place (some id) value => kept.apply ⟨place, id, some value⟩
  | .delete place (.text id) => kept.apply ⟨place, id, none⟩
  | _ => kept

def missing : Fault := { kind := .notFound, message := "not found", status := some 404 }

/-- A service that is its own contents. Searches and ids that are no text are turned down. -/
def keeper : Service Contents where
  reply
    | .save place (some id) value _, kept =>
      (.ok (.object [("_id", .text id)]), kept.apply ⟨place, id, some value⟩)
    | .delete place (.text id) _, kept =>
      (match kept place id with
        | some _ => .ok (.object [("_id", .text id), ("result", .text "deleted")])
        | none => .error missing,
        kept.apply ⟨place, id, none⟩)
    | .bulk actions _, kept =>
      (.ok (.object [("errors", .bool false)]), actions.foldl carryOut kept)
    | .get place (.text id), kept =>
      (match kept place id with
        | some value => .ok (.object [("_id", .text id), ("_source", value)])
        | none => .error missing,
        kept)
    | _, kept => (.error { kind := .badRequest, message := "bad request", status := some 400 }, kept)

theorem keeper_ideal : IdealStore keeper fun kept => kept where
  save _ _ _ _ _ := rfl
  delete _ _ _ _ := rfl
  bulk kept entries waits := by
    have haction (kept : Contents) (entry : Entry) :
        carryOut kept entry.action = kept.apply entry := by
      obtain ⟨place, id, _ | value⟩ := entry <;> rfl
    simp only [keeper, List.foldl_map, haction]
  noErrors _ _ _ := ⟨_, rfl, rfl⟩
  deleted kept place id waits h := by
    obtain ⟨value, hvalue⟩ := Option.ne_none_iff_exists'.mp h
    refine ⟨.object [("_id", .text id), ("result", .text "deleted")], ?_, rfl⟩
    simp only [keeper, hvalue]
  notDeleted kept place id waits h := by
    simp [keeper, h, missing]
  found kept place id value h := by
    refine ⟨.object [("_id", .text id), ("_source", value)], ?_, rfl⟩
    simp only [keeper, h]
  notFound kept place id h := by
    simp [keeper, h, missing]

def guide : Engine := ⟨.ofList [("places", places)]⟩

theorem guide_separate : guide.Separate := by
  refine ⟨List.nodup_singleton _, fun e he => ?_⟩
  rw [List.mem_singleton.mp he]
  exact ⟨rfl, rfl⟩

theorem harbour_identified : places.Identified harbour := ⟨harbour_conforms, "h1", rfl⟩

/-- The harbour is saved and deleted in one bulk write. -/
def comeAndGo : List Write := [.bulk "places" [harbour] ["h1"] 1 .null]

def comeAgain : List Write := comeAndGo ++ [.save "places" harbour .null]

/-- The harbour is gone after the bulk write, and there again once it has been saved anew. -/
theorem harbour_comes_back :
    (keeper.run (comeAndGo.foldl (Write.run guide keeper) fun _ _ => none)
        (guide.get "places" (.text "h1"))).result =
      .error (.documentNotFound (.text "h1") "places") ∧
    ∃ found, (keeper.run (comeAgain.foldl (Write.run guide keeper) fun _ _ => none)
        (guide.get "places" (.text "h1"))).result = .ok found ∧ harbour.Same found := by
  have hplaces : guide.index "places" = .ok places := rfl
  have hharbour : ∀ index, guide.index "places" = .ok index → index.Identified harbour := by
    intro index hindex
    have hsame : places = index := Except.ok.inj hindex
    subst hsame
    exact harbour_identified
  have hfirst : ∀ write ∈ comeAndGo, write.Fits guide := by
    intro write hwrite
    rw [List.mem_singleton.mp hwrite]
    intro index hindex document hdocument
    rw [List.mem_singleton.mp hdocument]
    exact hharbour index hindex
  have hboth : ∀ write ∈ comeAgain, write.Fits guide := by
    intro write hwrite
    rcases List.mem_append.mp hwrite with hold | hnew
    · exact hfirst write hold
    · rw [List.mem_singleton.mp hnew]
      exact hharbour
  have hempty : ∀ e ∈ guide.indexes.entries, ∀ id : String,
      (fun _ _ => none : Contents) e.2.name id = none := fun _ _ _ => rfl
  exact ⟨(last_write_counts keeper_ideal guide_separate hempty hfirst hplaces "h1").1.1,
    (last_write_counts keeper_ideal guide_separate hempty hboth hplaces "h1").1.1⟩

/-- A document whose identifier is a number that cannot be written. -/
def numbered : Value := .object [("id", tooLong)]

theorem numbered_conforms :
    places.schema.Conforms (PointWith "latitude" "longitude") numbered := by
  refine ⟨_, rfl, by simp [Keyed.Distinct], by decide, ?_⟩
  change MembersConform _ [_, _, _, _, _] _
  simp [MembersConform, SlotOf, Within, Field.Conforms, Field.multiple, Field.attributes,
    Field.settle, Keyed.lookup_cons_eq]

/-- The harbour is saved in a bulk write with chunks of 2 ^ 63 and is not there afterwards, and the
document with the number cannot be saved at all. -/
theorem refused_writes_do_not_count :
    let empty : Contents := fun _ _ => none
    let bulk := guide.bulk keeper "places" (Write.job [harbour] [] (2 ^ 63) .null) 0 empty
    IdealStore keeper (fun kept => kept) ∧ guide.Separate ∧
      places.schema.Conforms (PointWith "latitude" "longitude") harbour ∧
      places.idText? harbour = some "h1" ∧
      bulk.result = some (.error .chunkTooLarge) ∧ bulk.calls = [] ∧
      (keeper.run bulk.state (guide.get "places" (.text "h1"))).result =
        .error (.documentNotFound (.text "h1") "places") ∧
      places.schema.Conforms (PointWith "latitude" "longitude") numbered ∧
      (keeper.run empty (guide.save "places" numbered .null)).result = .error .tooManyDigits ∧
      (keeper.run empty (guide.save "places" numbered .null)).calls = [] := by
  intro empty bulk
  have hplaces : guide.index "places" = .ok places := rfl
  have hwaits : WriteOptions.confirms .null = .ok false := rfl
  have hrefused : guide.save "places" numbered .null = .error .tooManyDigits :=
    Engine.save_of_not_writable hplaces hwaits (tooLong_not_writableUnder rfl)
  refine ⟨keeper_ideal, guide_separate, harbour_conforms, rfl, rfl, rfl, rfl, numbered_conforms,
    ?_, ?_⟩
  · rw [hrefused]
    rfl
  · rw [hrefused]
    rfl

end Sample

end DocSearch
