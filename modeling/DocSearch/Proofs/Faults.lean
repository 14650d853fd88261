import DocSearch.Proofs.BulkComplete
import DocSearch.Proofs.DirectLookup
import DocSearch.Proofs.Lookup
import DocSearch.Proofs.Replay

/-!
# Faults of the service

Saving, deleting, getting and searching make one call or none. None is made for a reason that can
be told beforehand, and then the operation fails for that reason. A call that is turned down ends
the operation, and all of a bulk job, with the very fault that came back. There are three
exceptions, all about what is not found: a search that is a look-up finds nothing, a document that
is asked for is missing, and a single deletion has not deleted anything.

The reasons are told in the order in which they are found. Filters that make no query only count
against a search that is sent as one: a search that is a look-up needs no query, so for filters of
several kinds at once neither follows from the other. Whole numbers that cannot be written count
where something is written before the call: the identifier of a document that is saved or looked up,
and the body of a search.
-/

namespace DocSearch

open Fallible

variable {σ α : Type}

namespace Engine

/-- The operations of an engine that need the service once, by what they yield. -/
inductive Operation : Type → Type where
  | save (key : String) (document : Value) (options : WriteOptions) : Operation (Option Task)
  | delete (key : String) (id : Value) (options : WriteOptions) : Operation (Option Task)
  | get (key : String) (id : Value) : Operation Value
  | send (search : Search) : Operation SearchResult
  /-- Ask a builder for its search and send it. -/
  | build (builder : SearchBuilder) : Operation SearchResult

namespace Operation

def request (engine : Engine) : Operation α → Except Error (Request α)
  | .save key document options => engine.save key document options
  | .delete key id options => engine.delete key id options
  | .get key id => engine.get key id
  | .send search => search.request .engine
  | .build builder => do (← builder.toSearch).request .engine

/-- The key of the index that an operation asks the engine for. -/
def key? : Operation α → Option String
  | .save key _ _ => some key
  | .delete key _ _ => some key
  | .get key _ => some key
  | .send _ => none
  | .build _ => none

/-- What an operation makes of a call for something that is not there. -/
def onNotFound : Operation α → Call → Fault → Except Error α
  | .delete _ id _, .delete place _ _, _ =>
    .error (if id.Writable then .notDeleted id place (.text "not_found") else .tooManyDigits)
  | .get key id, .get _ _, _ => .error (.documentNotFound id key)
  | .send search, .get _ _, _ => .ok (.empty search.index.schema .engine)
  | .build builder, .get _ _, _ => .ok (.empty builder.index.schema .engine)
  | _, _, fault => .error (.fault fault)

/-- What an operation makes of a call that is turned down. -/
def onFault (op : Operation α) (call : Call) (fault : Fault) : Except Error α :=
  if fault.kind = .notFound then op.onNotFound call fault else .error (.fault fault)

end Operation
end Engine

/-! ## Reasons to send nothing -/

/-- Why a search is not sent: it is no look-up and its filters make no query, or one that cannot be
written; or it is a look-up for a filter that was made without an identifier, or for an identifier
that cannot be written. -/
inductive Search.Unsendable (search : Search) : Error → Prop
  | filters {e : Error} (hlookup : search.lookup? = none)
      (hcompile : compile search.index search.filters .every = .error e) : search.Unsendable e
  | body {body : SearchBody} (hlookup : search.lookup? = none) (hbody : search.body = .ok body)
      (hnot : ¬ body.toValue.Writable) : search.Unsendable .tooManyDigits
  | nameless {c : Condition} (hlookup : search.lookup? = some c) (hid : c.identifier? = none) :
      search.Unsendable .missingPart
  | identifier {c : Condition} {id : Value} (hlookup : search.lookup? = some c)
      (hid : c.identifier? = some id) (hnot : ¬ id.Writable) : search.Unsendable .tooManyDigits

/-- Why an operation is refused before anything is sent. -/
inductive Engine.Operation.Refused (engine : Engine) : {α : Type} → Operation α → Error → Prop
  | unconfigured {α : Type} {op : Operation α} {key : String} (hkey : op.key? = some key)
      (hnone : key ∉ engine.indexes.entries.map Prod.fst) :
      Refused engine op (.indexNotConfigured key)
  | saveOptions {key : String} {index : Index} {document : Value} {options : WriteOptions}
      {e : Error} (hindex : engine.index key = .ok index) (hoptions : options.confirms = .error e) :
      Refused engine (.save key document options) e
  | deleteOptions {key : String} {index : Index} {id : Value} {options : WriteOptions} {e : Error}
      (hindex : engine.index key = .ok index) (hoptions : options.confirms = .error e) :
      Refused engine (.delete key id options) e
  | notAnObject {key : String} {index : Index} {document : Value} {options : WriteOptions}
      {waits : Bool} {e : Error} (hindex : engine.index key = .ok index)
      (hoptions : options.confirms = .ok waits) (hdocument : document.entries = .error e) :
      Refused engine (.save key document options) e
  | identifier {key : String} {index : Index} {members : Members} {options : WriteOptions}
      {waits : Bool} (hindex : engine.index key = .ok index)
      (hoptions : options.confirms = .ok waits)
      (hnot : ¬ WritableUnder index.identifier.name members) :
      Refused engine (.save key (.object members) options) .tooManyDigits
  | inconvertible {key : String} {index : Index} {members : Members} {options : WriteOptions}
      {waits : Bool} {e : Error} (hindex : engine.index key = .ok index)
      (hoptions : options.confirms = .ok waits)
      (hid : WritableUnder index.identifier.name members)
      (hwire : index.schema.toWire .engine (.object members) = .error e) :
      Refused engine (.save key (.object members) options) e
  | lookup {key : String} {index : Index} {id : Value} (hindex : engine.index key = .ok index)
      (hnot : ¬ id.Writable) : Refused engine (.get key id) .tooManyDigits
  | unsendable {search : Search} {e : Error} (h : search.Unsendable e) :
      Refused engine (.send search) e
  | limit {builder : SearchBuilder} (hlimit : builder.limit < 0) :
      Refused engine (.build builder) (.negativeLimit builder.limit)
  | offset {builder : SearchBuilder} (hlimit : 0 ≤ builder.limit) (hoffset : builder.offset < 0) :
      Refused engine (.build builder) (.negativeOffset builder.offset)
  | built {builder : SearchBuilder} {search : Search} {e : Error}
      (hsearch : builder.toSearch = .ok search) (h : search.Unsendable e) :
      Refused engine (.build builder) e

theorem Value.entries_eq_ok {v : Value} {members : Members} :
    v.entries = .ok members ↔ v = .object members := by
  cases v <;> simp [Value.entries]

theorem Engine.index_eq_error {engine : Engine} {key : String} {e : Error} :
    engine.index key = .error e ↔
      key ∉ engine.indexes.entries.map Prod.fst ∧ e = .indexNotConfigured key := by
  rw [← Keyed.lookup_eq_none_iff_notMem, Engine.index, Indexes.get]
  cases engine.indexes.entries.lookup key <;> simp [eq_comm]

theorem Index.save_eq_error {index : Index} {names : PointNames} {document : Value}
    {options : WriteOptions} {e : Error} :
    index.save names document options = .error e ↔ options.confirms = .error e ∨
      ∃ waits, options.confirms = .ok waits ∧ (document.entries = .error e ∨
        ∃ members, document = .object members ∧
          (¬ WritableUnder index.identifier.name members ∧ e = .tooManyDigits ∨
            WritableUnder index.identifier.name members ∧
              index.schema.toWire names document = .error e)) := by
  simp only [Index.save, bind_eq_error, pure_eq_ok, Value.entries_eq_ok, identifierText_eq_error,
    reduceCtorEq, and_false, exists_false, or_false, exists_and_right, exists_identifierText]

theorem Index.delete_eq_error {index : Index} {id : Value} {options : WriteOptions} {e : Error} :
    index.delete id options = .error e ↔ options.confirms = .error e := by
  simp only [Index.delete, bind_eq_error, pure_eq_ok, reduceCtorEq, and_false, exists_false,
    or_false]

namespace Search

variable {search : Search} {names : PointNames} {e : Error}

theorem body_eq_error_iff :
    search.body = .error e ↔ compile search.index search.filters .every = .error e := by
  simp only [body, bind_eq_error, pure_eq_ok, reduceCtorEq, and_false, exists_false, or_false]

theorem generalRequest_eq_error_iff :
    search.generalRequest names = .error e ↔
      compile search.index search.filters .every = .error e ∨
        ∃ body, search.body = .ok body ∧ ¬ body.toValue.Writable ∧ e = .tooManyDigits := by
  simp only [generalRequest, bind_eq_error, body_eq_error_iff, Value.plainText_eq_error, pure_eq_ok,
    reduceCtorEq, and_false, exists_false, or_false]

theorem request_eq_error_iff : search.request names = .error e ↔ search.Unsendable e := by
  rw [request]
  constructor
  · intro hrequest
    cases hlookup : search.lookup? with
    | none =>
        rw [hlookup] at hrequest
        rcases generalRequest_eq_error_iff.mp hrequest with hcompile | ⟨body, hbody, hnot, rfl⟩
        · exact .filters hlookup hcompile
        · exact .body hlookup hbody hnot
    | some c =>
        cases hid : c.identifier? with
        | none =>
            simp only [hlookup, hid, Except.error.injEq] at hrequest
            rw [← hrequest]
            exact .nameless hlookup hid
        | some id =>
            simp only [hlookup, hid, bind_eq_error, Value.plainText_eq_error, pure_eq_ok,
              reduceCtorEq, and_false, exists_false, or_false] at hrequest
            obtain ⟨hnot, rfl⟩ := hrequest
            exact .identifier hlookup hid hnot
  · intro hunsendable
    cases hunsendable with
    | filters hlookup hcompile =>
        rw [hlookup]
        exact generalRequest_eq_error_iff.mpr (.inl hcompile)
    | body hlookup hbody hnot =>
        rw [hlookup]
        exact generalRequest_eq_error_iff.mpr (.inr ⟨_, hbody, hnot, rfl⟩)
    | nameless hlookup hid => simp only [hlookup, hid]
    | identifier hlookup hid hnot =>
        simp only [hlookup, hid, Value.plainText_eq_error.mpr ⟨hnot, rfl⟩, error_bind]

end Search

theorem SearchBuilder.toSearch_eq_error {builder : SearchBuilder} {e : Error} :
    builder.toSearch = .error e ↔
      (builder.limit < 0 ∧ e = .negativeLimit builder.limit) ∨
        (0 ≤ builder.limit ∧ builder.offset < 0 ∧ e = .negativeOffset builder.offset) := by
  unfold SearchBuilder.toSearch Search.ofParts
  by_cases hlimit : builder.limit < 0
  · have hnot : ¬ 0 ≤ builder.limit := by omega
    simp [hlimit, hnot, eq_comm]
  · have hle : 0 ≤ builder.limit := by omega
    by_cases hoffset : builder.offset < 0
    · simp [hlimit, hle, hoffset, eq_comm]
    · simp [hlimit, hoffset]

namespace Engine.Operation

variable {engine : Engine} {e : Error}

theorem refused_of_request_eq_error {op : Operation α} (h : op.request engine = .error e) :
    op.Refused engine e := by
  cases op with
  | save key document options =>
      rcases bind_eq_error.mp h with hindex | ⟨index, hindex, hsave⟩
      · obtain ⟨hnone, rfl⟩ := index_eq_error.mp hindex
        exact .unconfigured rfl hnone
      · rcases Index.save_eq_error.mp hsave with hoptions | ⟨waits, hoptions, hdocument | hmembers⟩
        · exact .saveOptions hindex hoptions
        · exact .notAnObject hindex hoptions hdocument
        · obtain ⟨members, rfl, ⟨hnot, rfl⟩ | ⟨hid, hwire⟩⟩ := hmembers
          · exact .identifier hindex hoptions hnot
          · exact .inconvertible hindex hoptions hid hwire
  | delete key id options =>
      rcases bind_eq_error.mp h with hindex | ⟨index, hindex, hdelete⟩
      · obtain ⟨hnone, rfl⟩ := index_eq_error.mp hindex
        exact .unconfigured rfl hnone
      · exact .deleteOptions hindex (Index.delete_eq_error.mp hdelete)
  | get key id =>
      rw [request, get_eq] at h
      rcases bind_eq_error.mp h with hindex | ⟨index, hindex, hlookup⟩
      · obtain ⟨hnone, rfl⟩ := index_eq_error.mp hindex
        exact .unconfigured rfl hnone
      · rw [Search.request_forIdentifier] at hlookup
        split at hlookup
        next => cases hlookup
        next hnot =>
          obtain rfl := Except.error.inj hlookup
          exact .lookup hindex hnot
  | send search => exact .unsendable (Search.request_eq_error_iff.mp h)
  | build builder =>
      rcases bind_eq_error.mp h with hsearch | ⟨search, hsearch, hsend⟩
      · rcases SearchBuilder.toSearch_eq_error.mp hsearch with
          ⟨hlimit, rfl⟩ | ⟨hlimit, hoffset, rfl⟩
        · exact .limit hlimit
        · exact .offset hlimit hoffset
      · exact .built hsearch (Search.request_eq_error_iff.mp hsend)

theorem Refused.request_eq_error {op : Operation α} (h : op.Refused engine e) :
    op.request engine = .error e := by
  cases h with
  | @unconfigured _ op key hkey hnone =>
      have hindex : engine.index key = .error (.indexNotConfigured key) :=
        index_eq_error.mpr ⟨hnone, rfl⟩
      cases op with
      | save key' document options =>
          obtain rfl := Option.some.inj hkey
          rw [request, Engine.save, hindex, error_bind]
      | delete key' id options =>
          obtain rfl := Option.some.inj hkey
          rw [request, Engine.delete, hindex, error_bind]
      | get key' id =>
          obtain rfl := Option.some.inj hkey
          rw [request, Engine.get, hindex, error_bind]
      | send search => cases hkey
      | build builder => cases hkey
  | saveOptions hindex hoptions =>
      rw [request, Engine.save, hindex, ok_bind]
      exact Index.save_eq_error.mpr (.inl hoptions)
  | deleteOptions hindex hoptions =>
      rw [request, Engine.delete, hindex, ok_bind]
      exact Index.delete_eq_error.mpr hoptions
  | notAnObject hindex hoptions hdocument =>
      rw [request, Engine.save, hindex, ok_bind]
      exact Index.save_eq_error.mpr (.inr ⟨_, hoptions, .inl hdocument⟩)
  | identifier hindex hoptions hnot =>
      rw [request, Engine.save, hindex, ok_bind]
      exact Index.save_eq_error.mpr (.inr ⟨_, hoptions, .inr ⟨_, rfl, .inl ⟨hnot, rfl⟩⟩⟩)
  | inconvertible hindex hoptions hid hwire =>
      rw [request, Engine.save, hindex, ok_bind]
      exact Index.save_eq_error.mpr (.inr ⟨_, hoptions, .inr ⟨_, rfl, .inr ⟨hid, hwire⟩⟩⟩)
  | lookup hindex hnot =>
      rw [request, get_eq, hindex, ok_bind, Search.request_forIdentifier, if_neg hnot, error_bind]
  | unsendable h => exact Search.request_eq_error_iff.mpr h
  | limit hlimit =>
      have hsearch := SearchBuilder.toSearch_eq_error.mpr (.inl ⟨hlimit, rfl⟩)
      rw [request, hsearch, error_bind]
  | offset hlimit hoffset =>
      have hsearch := SearchBuilder.toSearch_eq_error.mpr (.inr ⟨hlimit, hoffset, rfl⟩)
      rw [request, hsearch, error_bind]
  | built hsearch h =>
      rw [request, hsearch, ok_bind]
      exact Search.request_eq_error_iff.mpr h

/-! ## Calls that are turned down -/

theorem onFault_save (key : String) (document : Value) (options : WriteOptions) (call : Call)
    (fault : Fault) : (save key document options).onFault call fault = .error (.fault fault) := by
  exact ite_self _

end Engine.Operation

/-- A search passes a fault on, unless it is a look-up that found nothing. -/
theorem Search.read_fault {search : Search} {request : Request SearchResult}
    (h : search.request .engine = .ok request) (fault : Fault) :
    request.read (.error fault) =
      (Engine.Operation.send search).onFault request.call fault := by
  rcases search.request_cases h with ⟨id, rfl⟩ | ⟨body, rfl⟩
  · rfl
  · exact (ite_self _).symm

theorem SearchBuilder.toSearch_index {builder : SearchBuilder} {search : Search}
    (h : builder.toSearch = .ok search) : search.index = builder.index := by
  unfold SearchBuilder.toSearch Search.ofParts at h
  split at h
  · cases h
  · split at h
    · cases h
    · rw [← Except.ok.inj h]

/-- Every operation reads a fault in its own way. -/
theorem Engine.Operation.read_fault {engine : Engine} {op : Engine.Operation α}
    {request : Request α} (h : op.request engine = .ok request) (fault : Fault) :
    request.read (.error fault) = op.onFault request.call fault := by
  cases op with
  | save key document options =>
      obtain ⟨index, -, hsave⟩ := bind_eq_ok.mp h
      obtain ⟨waits, -, hrest⟩ := bind_eq_ok.mp hsave
      obtain ⟨members, -, hrest⟩ := bind_eq_ok.mp hrest
      obtain ⟨id, -, hrest⟩ := bind_eq_ok.mp hrest
      obtain ⟨wire, -, hrequest⟩ := bind_eq_ok.mp hrest
      rw [onFault_save, ← Except.ok.inj hrequest]
      rfl
  | delete key id options =>
      obtain ⟨index, -, hdelete⟩ := bind_eq_ok.mp h
      obtain ⟨waits, -, hrequest⟩ := bind_eq_ok.mp hdelete
      rw [← Except.ok.inj hrequest]
      simp only [onFault, onNotFound, Index.refuseDeletion_eq, Value.writable_text, true_and]
  | get key id =>
      rw [Operation.request, Engine.get_eq] at h
      obtain ⟨index, -, hget⟩ := bind_eq_ok.mp h
      rw [Search.request_forIdentifier] at hget
      split at hget
      case isFalse => cases hget
      rw [← Except.ok.inj hget]
      show ((Search.forIdentifier index id).lookupRequest .engine id).read (.error fault) >>= _ = _
      simp only [Search.lookupRequest, onFault]
      by_cases hkind : fault.kind = .notFound
      · rw [if_pos hkind, if_pos hkind]
        rfl
      · rw [if_neg hkind, if_neg hkind]
        rfl
  | send search => exact Search.read_fault h fault
  | build builder =>
      obtain ⟨search, hsearch, hsend⟩ := bind_eq_ok.mp h
      rw [Search.read_fault hsend, onFault, onFault]
      have hindex := SearchBuilder.toSearch_index hsearch
      cases request.call <;> simp only [onNotFound, hindex]

/-! ## Bulk jobs -/

/-- A call that is turned down is the last of these calls, and its fault is the result. -/
def EndsAtFault (service : Service σ) (s : σ) (calls : List Call)
    (result : Option (Except Error α)) : Prop :=
  ∀ before call after fault, calls = before ++ call :: after →
    (service.reply call (service.after s before)).1 = .error fault →
    after = [] ∧ result = some (.error (.fault fault))

theorem endsAtFault_nil (service : Service σ) (s : σ) (result : Option (Except Error α)) :
    EndsAtFault service s [] result := by
  intro before call after fault hcalls
  simp at hcalls

theorem chained_endsAtFault (service : Service σ) :
    Chained fun s calls s' result =>
      s' = service.after s calls ∧ EndsAtFault service s calls result where
  idle s := ⟨⟨rfl, endsAtFault_nil service s _⟩, ⟨rfl, endsAtFault_nil service s _⟩⟩
  append := by
    intro s s' s'' calls further result hfirst hrest
    refine ⟨?_, fun before call after fault hcalls hreply => ?_⟩
    · rw [service.after_append, ← hfirst.1]
      exact hrest.1
    -- What ended well turned no call down, so the call is one of the further ones.
    · rcases List.append_eq_append_iff.mp hcalls with ⟨more, rfl, hmore⟩ | ⟨more, hmore, hafter⟩
      · rw [service.after_append, ← hfirst.1] at hreply
        exact hrest.2 more call after fault hmore hreply
      · cases more with
        | nil =>
            rw [List.append_nil] at hmore
            subst hmore
            rw [← hfirst.1] at hreply
            exact hrest.2 [] call after fault hafter.symm hreply
        | cons call' more =>
            obtain ⟨rfl, rfl⟩ := List.cons.inj hafter
            obtain ⟨-, hended⟩ := hfirst.2 before call more fault hmore hreply
            cases hended

/-- A chunk is one call or none. -/
theorem chunk_endsAtFault (service : Service σ) (index : Index) (names : PointNames) (waits : Bool)
    (phase : BulkPhase) (chunk : List Value) (s : σ) :
    let run := service.run s (index.chunkRequest names waits phase chunk)
    EndsAtFault service s run.calls (some run.result) := by
  intro run before call after fault hcalls hreply
  cases hactions : index.chunkActions names phase chunk with
  | error e =>
      have hrun : run = _ := run_chunk_of_actions_eq_error hactions
      rw [hrun] at hcalls
      simp at hcalls
  | ok actions =>
      have hrun : run = _ := run_chunk_of_actions_eq_ok hactions
      rw [hrun] at hcalls ⊢
      cases before with
      | nil =>
          obtain ⟨rfl, rfl⟩ := List.cons.inj hcalls
          have hturned : (service.reply (.bulk actions waits) s).1 = .error fault := hreply
          refine ⟨rfl, ?_⟩
          rw [hturned]
          rfl
      | cons first before => simp at hcalls

theorem bulk_endsAtFault (service : Service σ) (engine : Engine) (key : String) (job : BulkJob)
    (patience : Nat) (s : σ) :
    EndsAtFault service s (engine.bulk service key job patience s).calls
      (engine.bulk service key job patience s).result := by
  unfold Engine.bulk
  cases engine.index key with
  | error e => exact endsAtFault_nil service s _
  | ok index =>
      dsimp only
      cases hsettings : job.settings with
      | error e =>
          rw [Service.bulk, hsettings]
          exact endsAtFault_nil service s _
      | ok settings =>
          obtain ⟨waits, size⟩ := settings
          have hchunk (phase : BulkPhase) (s : σ) (chunk : List Value) :
              let run := service.run s (index.chunkRequest .engine waits phase chunk)
              run.state = service.after s run.calls ∧
                EndsAtFault service s run.calls (some run.result) :=
            ⟨service.run_state s _, chunk_endsAtFault service index .engine waits phase chunk s⟩
          obtain ⟨ended, ⟨-, hfault⟩, hresult⟩ :=
            (chained_endsAtFault service).bulk hchunk hsettings patience s
          intro before call after fault hcalls hreply
          obtain ⟨hlast, hended⟩ := hfault before call after fault hcalls hreply
          refine ⟨hlast, ?_⟩
          rw [hresult, hended]
          rfl

/-! ## Filters of one kind -/

/-- A condition of a class that is of no further kinds. -/
def Condition.Unmixed : Condition → Prop
  | .named _ further c => further = [] ∧ c.Unmixed
  | _ => True

/-- If it is looked up it was made for an identifier, and is nothing else. -/
theorem Condition.Unmixed.exists_searchesFor : {c : Condition} → c.Unmixed →
    c.isOf .identifier = true → ∃ id, c.SearchesFor id
  | .leaf l, _, hkind => by
      cases l with
      | identifier id => exact ⟨id, rfl, rfl, rfl⟩
      | _ => cases hkind
  | .named className further c, h, hkind => by
      obtain ⟨rfl, hc⟩ := h
      simp only [isOf, List.contains_nil, Bool.or_false] at hkind
      obtain ⟨id, hmade, hall, hany⟩ := hc.exists_searchesFor hkind
      exact ⟨id, hmade, by simpa [isOf] using hall, by simpa [isOf] using hany⟩
  | .all _, _, hkind => by cases hkind
  | .any _, _, hkind => by cases hkind
  | .unsupported _, _, hkind => by cases hkind

/-- Among filters of one kind each it is the query alone that keeps a search from being sent: there
is none, or it cannot be written. -/
theorem Search.unsendable_iff {search : Search} (h : ∀ c ∈ search.filters, c.Unmixed) {e : Error} :
    search.Unsendable e ↔ compile search.index search.filters .every = .error e ∨
      ∃ body, search.body = .ok body ∧ ¬ body.toValue.Writable ∧ e = .tooManyDigits := by
  have hrequest : search.request .engine = .error e ↔ search.Unsendable e := request_eq_error_iff
  have hgeneral : search.generalRequest .engine = .error e ↔ _ := generalRequest_eq_error_iff
  rw [← hrequest, ← hgeneral]
  cases hlookup : search.lookup? with
  | none => rw [request, hlookup]
  | some c =>
      obtain ⟨hfilters, hoffset, hlimit, hkind⟩ := lookup?_eq_some.mp hlookup
      have hpure : c.Unmixed := h c (by rw [hfilters]; exact List.mem_cons_self)
      obtain ⟨id, hid⟩ := hpure.exists_searchesFor hkind
      have hbody := body_of_searchesFor hfilters hid hoffset hlimit
      -- a look-up and the search itself are refused for the same identifiers
      rw [request_of_identifier .engine hfilters hid.made hoffset hlimit,
        generalRequest_of_body hbody]
      simp only [SearchBody.writable_toValue_ids]
      split <;> simp

/-! ## Deletions -/

theorem Index.readDeleted_eq_ok {index : Index} {id answer : Value} :
    index.readDeleted id answer = .ok () ↔ answer.member "result" = .ok (.text "deleted") := by
  rw [readDeleted]
  cases answer.member "result" with
  | error e => simp
  | ok other =>
      rw [ok_bind]
      split
      next => simp
      next hother => simpa [refuseDeletion_eq] using hother

theorem Index.readDeleted_of_other {index : Index} {id answer other : Value}
    (h : answer.member "result" = .ok other) (hother : other ≠ .text "deleted") :
    index.readDeleted id answer = .error (
      if other.Writable ∧ id.Writable then .notDeleted id index.name other
      else .tooManyDigits) := by
  rw [readDeleted, h, ok_bind]
  split
  next => exact absurd rfl hother
  next => exact index.refuseDeletion_eq id other

section
variable {service : Service σ} {engine : Engine} {key : String} {id : Value}
variable {options : WriteOptions} {s : σ}

/-- How a deletion that is sent reads its reply. -/
theorem Engine.read_delete {request : Request (Option Task)}
    (h : engine.delete key id options = .ok request) :
    ∃ (index : Index) (waits : Bool), engine.index key = .ok index ∧
      (∀ fault, ∃ e, request.read (.error fault) = .error e) ∧
      ∀ answer, request.read (.ok answer) =
        (index.readDeleted id answer).map fun _ => if waits then some ⟨.null⟩ else none := by
  obtain ⟨index, hindex, hdelete⟩ := bind_eq_ok.mp h
  obtain ⟨waits, -, hrequest⟩ := bind_eq_ok.mp hdelete
  rw [← Except.ok.inj hrequest]
  refine ⟨index, waits, hindex, fun fault => ?_, fun answer => ?_⟩
  · by_cases hkind : fault.kind = .notFound
    · exact ⟨_, (if_pos hkind).trans (index.refuseDeletion_eq id _)⟩
    · exact ⟨_, if_neg hkind⟩
  · dsimp only
    cases index.readDeleted id answer <;> rfl

/-- A deletion succeeds if and only if the service says that it has deleted. -/
theorem Engine.delete_succeeds_iff :
    (∃ task, (service.run s (engine.delete key id options)).result = .ok task) ↔
      ∃ call answer, (service.run s (engine.delete key id options)).calls = [call] ∧
        (service.reply call s).1 = .ok answer ∧
        answer.member "result" = .ok (.text "deleted") := by
  cases hdelete : engine.delete key id options with
  | error e => simp [Service.run]
  | ok request =>
      obtain ⟨index, waits, -, hfault, hanswer⟩ := Engine.read_delete hdelete
      have hresult : (service.run s (.ok request)).result =
          request.read (service.reply request.call s).1 := rfl
      have hcalls : (service.run s (.ok request)).calls = [request.call] := rfl
      rw [hresult, hcalls]
      constructor
      · intro hends
        obtain ⟨task, htask⟩ := hends
        cases hreply : (service.reply request.call s).1 with
        | error fault =>
            obtain ⟨e, he⟩ := hfault fault
            rw [hreply, he] at htask
            cases htask
        | ok answer =>
            rw [hreply, hanswer] at htask
            cases hread : index.readDeleted id answer with
            | error e =>
                rw [hread] at htask
                cases htask
            | ok _ => exact ⟨request.call, answer, rfl, hreply, Index.readDeleted_eq_ok.mp hread⟩
      · intro hdeleted
        obtain ⟨call, answer, hcall, hreply, hmember⟩ := hdeleted
        obtain rfl := List.singleton_inj.mp hcall
        have hread : index.readDeleted id answer = .ok () := Index.readDeleted_eq_ok.mpr hmember
        rw [hreply, hanswer, hread]
        exact ⟨_, rfl⟩

/-- Anything else that the service says is an error that says so. -/
theorem Engine.delete_of_other {index : Index} (hindex : engine.index key = .ok index) {call : Call}
    {answer other : Value} (hcall : (service.run s (engine.delete key id options)).calls = [call])
    (hreply : (service.reply call s).1 = .ok answer) (hmember : answer.member "result" = .ok other)
    (hother : other ≠ .text "deleted") :
    (service.run s (engine.delete key id options)).result = .error (
      if other.Writable ∧ id.Writable then .notDeleted id index.name other
      else .tooManyDigits) := by
  cases hdelete : engine.delete key id options with
  | error e =>
      rw [hdelete] at hcall
      cases hcall
  | ok request =>
      obtain ⟨index', waits, hindex', -, hanswer⟩ := Engine.read_delete hdelete
      obtain rfl := Except.ok.inj (hindex.symm.trans hindex')
      rw [hdelete] at hcall
      obtain rfl := List.singleton_inj.mp hcall
      have hresult : (service.run s (.ok request)).result =
          request.read (service.reply request.call s).1 := rfl
      rw [hresult, hreply, hanswer, Index.readDeleted_of_other hmember hother]
      rfl

end

/-- Operations make one call at most, and bulk jobs end with the first call that is turned down.
No call is made exactly when there is a reason to refuse the operation, which is then its error; for
a search whose filters are of one kind each, the reason is that they make no query or that the body
with their query cannot be written. A call that is turned down ends the operation with the fault
itself, but for what is not found: then a look-up finds nothing, a document is missing and a deletion
fails for it. -/
theorem faults_surface (service : Service σ) (engine : Engine) (s : σ) :
    (∀ (α : Type) (op : Engine.Operation α),
      let run := service.run s (op.request engine)
      run.calls.length ≤ 1 ∧ run.state = service.after s run.calls ∧
        (run.calls = [] ↔ ∃ e, op.Refused engine e) ∧
        (∀ e, op.Refused engine e → run.result = .error e) ∧
        ∀ call fault, run.calls = [call] → (service.reply call s).1 = .error fault →
          run.result = op.onFault call fault) ∧
    (∀ (search : Search), (∀ c ∈ search.filters, c.Unmixed) → ∀ e,
      (Engine.Operation.send search).Refused engine e ↔
        compile search.index search.filters .every = .error e ∨
          ∃ body, search.body = .ok body ∧ ¬ body.toValue.Writable ∧ e = .tooManyDigits) ∧
    (∀ key job patience,
      let run := engine.bulk service key job patience s
      EndsAtFault service s run.calls run.result) ∧
    ∀ key id options,
      let run := service.run s (engine.delete key id options)
      ((∃ task, run.result = .ok task) ↔ ∃ call answer, run.calls = [call] ∧
        (service.reply call s).1 = .ok answer ∧
        answer.member "result" = .ok (.text "deleted")) ∧
      ∀ index call answer other, engine.index key = .ok index → run.calls = [call] →
        (service.reply call s).1 = .ok answer → answer.member "result" = .ok other →
        other ≠ .text "deleted" → run.result = .error (
          if other.Writable ∧ id.Writable then .notDeleted id index.name other
          else .tooManyDigits) := by
  refine ⟨fun α op => ?_, fun search hfilters e => ?_, ?_, fun key id options => ⟨?_, ?_⟩⟩
  · cases hrequest : op.request engine with
    | error e =>
        have hrefused := Engine.Operation.refused_of_request_eq_error hrequest
        refine ⟨Nat.zero_le _, rfl, ⟨fun _ => ⟨e, hrefused⟩, fun _ => rfl⟩, fun e' he' => ?_, ?_⟩
        · have hsame := hrequest.symm.trans he'.request_eq_error
          rw [Except.error.inj hsame]
          rfl
        · intro call fault hcalls
          cases hcalls
    | ok request =>
        have hnot (e : Error) : ¬ op.Refused engine e := by
          intro hrefused
          cases hrequest.symm.trans hrefused.request_eq_error
        refine ⟨le_rfl, rfl, ⟨fun hnil => ?_, fun hrefused => ?_⟩,
          fun e he => absurd he (hnot e), ?_⟩
        · cases hnil
        · exact absurd hrefused.choose_spec (hnot _)
        · intro call fault hcalls hreply
          obtain rfl := List.singleton_inj.mp hcalls
          rw [← Engine.Operation.read_fault hrequest fault, ← hreply]
          rfl
  · rw [← Search.unsendable_iff hfilters]
    exact ⟨fun hrefused => Search.request_eq_error_iff.mp hrefused.request_eq_error, .unsendable⟩
  · intro key job patience
    exact bulk_endsAtFault service engine key job patience s
  · exact Engine.delete_succeeds_iff
  · intro index call answer other hindex hcall hreply hmember hother
    exact Engine.delete_of_other hindex hcall hreply hmember hother

namespace Sample

/-- The one fault that an engine takes for an answer. -/
def gone : Fault := { kind := .notFound, message := "gone", status := some 404 }

/-- The same fault, read in four ways; in a bulk job it ends the job at the second chunk. -/
theorem gone_is_read_in_four_ways :
    let engine : Engine := ⟨.ofList [("places", places)]⟩
    let run := fun {α : Type} (op : Engine.Operation α) =>
      (agreeable.run [.error gone] (op.request engine)).result
    let job : BulkJob := ⟨.ofList threePlaces, .ofList [.text "b"], 2, .null⟩
    run (.save "places" (.object [("id", .text "a")]) .null) = .error (.fault gone) ∧
      run (.delete "places" (.text "a") .null) =
        .error (.notDeleted (.text "a") "places" (.text "not_found")) ∧
      run (.get "places" (.text "a")) = .error (.documentNotFound (.text "a") "places") ∧
      run (.send ⟨places, [], [], 0, 0⟩) = .error (.fault gone) ∧
      run (.save "piers" .null .null) = .error (.indexNotConfigured "piers") ∧
      (engine.bulk agreeable "places" job 0 [answered false, .error gone]).result =
        some (.error (.fault gone)) := by
  intro engine run job
  obtain ⟨hops, -⟩ := faults_surface agreeable engine [.error gone]
  obtain ⟨-, -, hbulk, -⟩ := faults_surface agreeable engine [answered false, .error gone]
  have hfault {α : Type} (op : Engine.Operation α) := (hops α op).2.2.2.2
  have hsave := hfault (.save "places" (.object [("id", .text "a")]) .null) _ gone rfl rfl
  have hdelete := hfault (.delete "places" (.text "a") .null) _ gone rfl rfl
  have hget := hfault (.get "places" (.text "a")) _ gone rfl rfl
  have hsearch := hfault (.send ⟨places, [], [], 0, 0⟩) _ gone rfl rfl
  have hunknown := (hops _ (.save "piers" .null .null)).2.2.2.1 _ (.unconfigured rfl (by decide))
  have hsecond := hbulk "places" job 0 [_] _ [] gone rfl rfl
  exact ⟨hsave, hdelete, hget, hsearch, hunknown, hsecond.2⟩

/-- Of two kinds as well: made for no identifier, it joins no conditions at all. -/
def blend : Condition := .named "Blend" [.identifier] (.all [])

/-- A filter that compares with a number that cannot be written. -/
def overlong : Search := ⟨places, [.leaf (.equal "title" tooLong)], [], 0, 0⟩

theorem overlong_unsendable : overlong.Unsendable .tooManyDigits := by
  let body : SearchBody := ⟨.clause (.test (.term "title.raw" tooLong)), [], none, none⟩
  have hbody : overlong.body = .ok body := rfl
  have hnot : ¬ body.toValue.Writable := by
    simp [body, SearchBody.toValue, SearchBody.arguments, Query.toValue, Clause.toValue,
      Atom.toValue, Value.writable_object, tooLong_not_writable]
  exact .body rfl hbody hnot

/-- Filters that make no query do not keep a look-up from being sent, and filters that make one do
not see to it that a search is sent. Nor is a document that can be converted always sent. -/
theorem query_decides_not_alone :
    let engine : Engine := ⟨.ofList [("places", places)]⟩
    let looked : Search := ⟨places, [mix], [], 1, 0⟩
    let blended : Search := ⟨places, [blend], [], 1, 0⟩
    let numbered : Value := .object [("id", tooLong)]
    compile places [mix] .every = .error .missingPart ∧
      (agreeable.run [] (looked.request .engine)).calls = [.get "places" (.text "q1")] ∧
      compile places [blend] .every = .ok .empty ∧
      (agreeable.run [] (blended.request .engine)).calls = [] ∧
      (agreeable.run [] (blended.request .engine)).result = .error .missingPart ∧
      compile places overlong.filters .every =
        .ok (.clause (.test (.term "title.raw" tooLong))) ∧
      agreeable.run [] (overlong.request .engine) = ⟨.error .tooManyDigits, [], []⟩ ∧
      places.schema.toWire .engine numbered = .ok [("id", tooLong)] ∧
      agreeable.run [] (engine.save "places" numbered .null) = ⟨.error .tooManyDigits, [], []⟩ ∧
      ¬ ∀ search : Search, (agreeable.run [] (search.request .engine)).calls = [] ↔
        ∃ e, compile search.index search.filters .every = .error e := by
  intro engine looked blended numbered
  have hoverlong : overlong.request .engine = .error .tooManyDigits :=
    Search.request_eq_error_iff.mpr overlong_unsendable
  have hwaits : WriteOptions.confirms .null = .ok false := rfl
  have hplaces : engine.index "places" = .ok places := rfl
  have hsave : engine.save "places" numbered .null = .error .tooManyDigits :=
    Engine.save_of_not_writable hplaces hwaits (tooLong_not_writableUnder rfl)
  refine ⟨rfl, rfl, rfl, rfl, rfl, rfl, ?_, rfl, ?_, fun hiff => ?_⟩
  · rw [hoverlong]
    rfl
  · rw [hsave]
    rfl
  · obtain ⟨e, he⟩ := (hiff ⟨places, [blend], [], 1, 0⟩).mp rfl
    cases he

end Sample

end DocSearch
