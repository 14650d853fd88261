import DocSearch.Engine
import DocSearch.Proofs.PlainTexts
import DocSearch.Proofs.Sample

/-!
# Looking up and searching for an identifier

A search for a single identifier is sent as a direct look-up. In front of a service that finds
sources by their identifiers either way, that cannot be told from sending the search itself: totals
and passes are the same, so the engine gives the same document or fails in the same way. For an
identifier that cannot be written nothing is sent either way.

Whether a search is sent like this depends on what its filter was made as and not on the further
kinds of its class. A filter that was made for an identifier and is a combinator as well is looked
up too, although the search itself would be refused.
-/

namespace DocSearch

open Fallible

variable {σ : Type}

/-- What a hit carries. -/
def Value.HasSource (hit source : Value) : Prop := hit.member "_source" = .ok source

/-- A service that keeps sources by place and identifier and gives them out alike when asked for an
identifier and on the first page of a search for it. -/
structure FindsEitherWay (service : Service σ) (stored : σ → String → Value → Option Value) :
    Prop where
  found : ∀ s place id source, stored s place id = some source → ∃ answer : Value,
    (service.reply (.get place id) s).1 = .ok answer ∧ answer.HasSource source
  notFound : ∀ s place id, stored s place id = none → ∃ fault,
    (service.reply (.get place id) s).1 = .error fault ∧ fault.kind = .notFound
  searched : ∀ s place (body : SearchBody) id,
    body.query.toValue = .single "ids" (.single "values" (.list [id])) →
    body.offset = none → body.size ≠ some 0 → ∃ answer outer total hits,
      (service.reply (.search place body) s).1 = .ok answer ∧ answer.member "hits" = .ok outer ∧
      outer.member "hits" = .ok (.list hits) ∧ outer.member "total" = .ok total ∧
      total.member "value" = .ok (.int (stored s place id).toList.length) ∧
      List.Forall₂ Value.HasSource hits (stored s place id).toList

/-! ## Results that hold the same sources -/

namespace SearchResult

/-- The result with the given hits and no others. -/
def ofHits (schema : Schema) (names : PointNames) (hits : List Value) : SearchResult :=
  ⟨schema, names, .list hits, .int hits.length⟩

section
variable {schema : Schema} {names : PointNames} {hits hits' sources : List Value}

/-- Only the sources of the hits matter to a pass. -/
theorem convertHits_congr (h : List.Forall₂ Value.HasSource hits sources)
    (h' : List.Forall₂ Value.HasSource hits' sources) :
    convertHits schema names hits = convertHits schema names hits' := by
  induction h generalizing hits' with
  | nil =>
      cases h'
      rfl
  | @cons hit source hits sources hfirst _ ih =>
      cases h' with
      | @cons hit' _ hits' _ hfirst' hrest' =>
          have hsame : hit.member "_source" = hit'.member "_source" := hfirst.trans hfirst'.symm
          rw [convertHits, convertHits, hsame, ih hrest']

theorem take_ofHits_congr (h : List.Forall₂ Value.HasSource hits sources)
    (h' : List.Forall₂ Value.HasSource hits' sources) (limit : Option Nat) :
    (ofHits schema names hits).take limit = (ofHits schema names hits').take limit := by
  unfold take ofHits
  cases limit with
  | none => simp only [Value.items, convertHits_congr h h']
  | some n =>
      have htaken := List.forall₂_take n h
      have htaken' := List.forall₂_take n h'
      simp only [Value.items, convertHits_congr htaken htaken']

theorem total_ofHits_congr (h : List.Forall₂ Value.HasSource hits sources)
    (h' : List.Forall₂ Value.HasSource hits' sources) :
    (ofHits schema names hits).total = (ofHits schema names hits').total := by
  rw [ofHits, ofHits, h.length_eq, h'.length_eq]

end

/-- The first document of a result, or that there is none with an identifier. -/
def document (result : SearchResult) (key : String) (id : Value) : Except Error Value := do
  match ← result.first? with
  | some document => return document
  | none => throw (.documentNotFound id key)

/-- The document that stands for what is stored under an identifier. -/
def documentOf (schema : Schema) (names : PointNames) (key : String) (id : Value) :
    Option Value → Except Error Value
  | none => .error (.documentNotFound id key)
  | some source => (schema.ofWire names source).map .object

theorem document_ofHits {schema : Schema} {names : PointNames} {hits : List Value}
    {stored : Option Value} (h : List.Forall₂ Value.HasSource hits stored.toList) (key : String)
    (id : Value) :
    (ofHits schema names hits).document key id = documentOf schema names key id stored := by
  cases stored with
  | none =>
      cases h
      rfl
  | some source =>
      cases h with
      | @cons hit _ _ _ hfirst hrest =>
          cases hrest
          have hsource : hit.member "_source" = .ok source := hfirst
          have hpass : (ofHits schema names [hit]).take (some 1) = convertHits schema names [hit] :=
            rfl
          rw [document, first?, hpass, convertHits, hsource, documentOf]
          dsimp only
          cases schema.ofWire names source with
          | error e => rfl
          | ok members => rfl

end SearchResult

/-! ## Filters for an identifier -/

/-- A condition that was made for an identifier, of a class that is no combinator as well. -/
structure Condition.SearchesFor (c : Condition) (id : Value) : Prop where
  made : c.identifier? = some id
  notAll : c.isOf .all = false
  notAny : c.isOf .any = false

theorem Condition.isOf_identifier : (c : Condition) → {id : Value} → c.identifier? = some id →
    c.isOf .identifier = true
  | .leaf (.identifier _), _, _ => rfl
  | .named _ _ c, _, h => by rw [isOf, c.isOf_identifier h, Bool.true_or]

/-- Among kinds without a combinator that of an identifier comes first. -/
theorem ConditionKind.deciding_identifier {further : List ConditionKind} (hall : .all ∉ further)
    (hany : .any ∉ further) : ConditionKind.identifier.deciding further = .identifier := by
  induction further with
  | nil => rfl
  | cons kind rest ih =>
      rw [List.mem_cons, not_or] at hall hany
      have hrank : ¬ kind.rank < ConditionKind.identifier.rank := by
        cases kind <;> simp_all [rank]
      rw [deciding, List.foldl_cons, if_neg hrank]
      exact ih hall.2 hany.2

theorem Condition.compileAs_identifier (index : Index) : (c : Condition) → {id : Value} →
    (further : List ConditionKind) → c.SearchesFor id → .all ∉ further → .any ∉ further →
    c.compileAs index further = .ok (.clause (.test (.ids id)))
  | .leaf (.identifier id), id', further, h, hall, hany => by
      obtain rfl := Option.some.inj h.made
      rw [compileAs, Leaf.kind, ConditionKind.deciding_identifier hall hany]
      rfl
  | .named className more c, id, further, h, hall, hany => by
      have hnotAll := h.notAll
      have hnotAny := h.notAny
      rw [isOf, Bool.or_eq_false_iff, List.contains_eq_mem, decide_eq_false_iff_not]
        at hnotAll hnotAny
      rw [compileAs_named_eq_ok]
      refine c.compileAs_identifier index (more ++ further) ⟨h.made, hnotAll.1, hnotAny.1⟩ ?_ ?_
      · rw [List.mem_append, not_or]
        exact ⟨hnotAll.2, hall⟩
      · rw [List.mem_append, not_or]
        exact ⟨hnotAny.2, hany⟩

/-- The body of a search for an identifier can be written if and only if the identifier can. -/
theorem SearchBody.writable_toValue_ids {id : Value} {sorts : List (String × String)} :
    (SearchBody.toValue ⟨.clause (.test (.ids id)), sorts, none, some 1⟩).Writable ↔
      id.Writable := by
  have hsize : (Value.int 1).Writable := by decide
  have hsort : (Value.list (sorts.map fun e => .single e.1 (.text e.2))).Writable := by
    rw [Value.writable_list, List.forall_mem_map]
    exact fun e _ => Value.writable_single.mpr trivial
  have hid : (Value.list [id]).Writable ↔ id.Writable := by
    rw [Value.writable_list, List.forall_mem_singleton]
  simp [toValue, arguments, Query.toValue, Clause.toValue, Atom.toValue, Value.writable_object,
    hsort, hsize, hid]

namespace Search
variable {search : Search} {names : PointNames} {c : Condition} {id : Value}

theorem body_of_searchesFor (hfilters : search.filters = [c]) (hc : c.SearchesFor id)
    (hoffset : search.offset = 0) (hlimit : search.limit = 1) :
    search.body = .ok ⟨.clause (.test (.ids id)), search.sorts, none, some 1⟩ := by
  have hcompiled : c.compileAs search.index [] = .ok (.clause (.test (.ids id))) :=
    c.compileAs_identifier search.index [] hc List.not_mem_nil List.not_mem_nil
  rw [body, hfilters, compile, compileEach, hcompiled, hoffset, hlimit]
  rfl

theorem lookup?_eq_some :
    search.lookup? = some c ↔
      search.filters = [c] ∧ search.offset = 0 ∧ search.limit = 1 ∧ c.isOf .identifier = true := by
  unfold lookup?
  constructor
  · intro h
    split at h
    next c' hfilters =>
      split at h
      next hguard =>
        obtain rfl := Option.some.inj h
        exact ⟨hfilters, hguard⟩
      next => cases h
    next => cases h
  · rintro ⟨hfilters, hguard⟩
    simp only [hfilters, if_pos hguard]

/-- One filter that was made for an identifier is looked up if one hit from the start is asked for,
provided that the identifier can be written. -/
theorem request_of_identifier (names : PointNames) (hfilters : search.filters = [c])
    (hid : c.identifier? = some id) (hoffset : search.offset = 0) (hlimit : search.limit = 1) :
    search.request names =
      if id.Writable then .ok (search.lookupRequest names id) else .error .tooManyDigits := by
  have hlookup : search.lookup? = some c :=
    lookup?_eq_some.mpr ⟨hfilters, hoffset, hlimit, c.isOf_identifier hid⟩
  rw [request, hlookup]
  simp only [hid]
  by_cases hwritable : id.Writable
  · obtain ⟨written, hwritten⟩ := Value.exists_plainText.mpr hwritable
    rw [if_pos hwritable, hwritten]
    rfl
  · rw [if_neg hwritable, Value.plainText_eq_error.mpr ⟨hwritable, rfl⟩]
    rfl

/-- A search is sent as it is if its body can be written. -/
theorem generalRequest_of_body {body : SearchBody} (hbody : search.body = .ok body) :
    search.generalRequest names =
      if body.toValue.Writable then
        .ok ⟨.search search.index.name body, fun reply => do
          search.readHits names (← reply.answer)⟩
      else .error .tooManyDigits := by
  rw [generalRequest, hbody, ok_bind]
  by_cases hwritable : body.toValue.Writable
  · obtain ⟨written, hwritten⟩ := Value.exists_plainText.mpr hwritable
    rw [if_pos hwritable, hwritten]
    rfl
  · rw [if_neg hwritable, Value.plainText_eq_error.mpr ⟨hwritable, rfl⟩]
    rfl

/-- What is sent for a search is a look-up or the search itself. -/
theorem request_cases {request : Request SearchResult} (h : search.request names = .ok request) :
    (∃ id, request = search.lookupRequest names id) ∨
      ∃ body, request = ⟨.search search.index.name body, fun reply => do
        search.readHits names (← reply.answer)⟩ := by
  rw [Search.request] at h
  cases hlookup : search.lookup? with
  | none =>
      rw [hlookup] at h
      obtain ⟨body, -, hlogged⟩ := bind_eq_ok.mp h
      obtain ⟨-, -, hrequest⟩ := bind_eq_ok.mp hlogged
      exact .inr ⟨body, (Except.ok.inj hrequest).symm⟩
  | some c =>
      cases hid : c.identifier? with
      | none =>
          simp only [hlookup, hid] at h
          cases h
      | some id =>
          simp only [hlookup, hid] at h
          obtain ⟨-, -, hrequest⟩ := bind_eq_ok.mp h
          exact .inl ⟨id, (Except.ok.inj hrequest).symm⟩

/-- Nothing else is looked up. -/
theorem get_mem_calls_iff {service : Service σ} {s : σ} :
    (∃ place id, .get place id ∈ (service.run s (search.request names)).calls) ↔
      ∃ c id, search.filters = [c] ∧ c.identifier? = some id ∧ search.offset = 0 ∧
        search.limit = 1 ∧ id.Writable := by
  constructor
  · rintro ⟨place, id, hcall⟩
    cases hlookup : search.lookup? with
    | none =>
        rw [request, hlookup] at hcall
        cases hbody : search.body with
        | error e =>
            simp only [generalRequest, hbody] at hcall
            cases hcall
        | ok body =>
            simp only [generalRequest_of_body hbody] at hcall
            split at hcall
            next => rcases List.mem_singleton.mp hcall with ⟨⟩
            next => cases hcall
    | some c =>
        obtain ⟨hfilters, hoffset, hlimit, -⟩ := lookup?_eq_some.mp hlookup
        cases hid : c.identifier? with
        | none =>
            simp only [request, hlookup, hid] at hcall
            cases hcall
        | some id =>
            rw [request_of_identifier names hfilters hid hoffset hlimit] at hcall
            split at hcall
            next hwritable => exact ⟨c, id, hfilters, hid, hoffset, hlimit, hwritable⟩
            next => cases hcall
  · rintro ⟨c, id, hfilters, hid, hoffset, hlimit, hwritable⟩
    rw [request_of_identifier names hfilters hid hoffset hlimit, if_pos hwritable]
    exact ⟨search.index.name, id, List.mem_singleton.mpr rfl⟩

end Search

/-! ## Two ways to the same source -/

/-- What a request goes on with is read off its own result. -/
theorem Service.result_run_andThen {α β : Type} (service : Service σ) (s : σ)
    (request : Except Error (Request α)) (next : α → Except Error β) :
    (service.run s (do return (← request).andThen next)).result =
      (service.run s request).result >>= next := by
  cases request with
  | error e => rfl
  | ok request => rfl

/-- The search for the document with an identifier. -/
def Search.forIdentifier (index : Index) (id : Value) : Search :=
  ⟨index, [.leaf (.identifier id)], [], 1, 0⟩

theorem Search.request_forIdentifier (index : Index) (names : PointNames) (id : Value) :
    (forIdentifier index id).request names =
      if id.Writable then .ok ((forIdentifier index id).lookupRequest names id)
      else .error .tooManyDigits :=
  request_of_identifier names rfl rfl rfl rfl

/-- The engine searches for the document with an identifier and reads the first one. -/
theorem Engine.get_eq (engine : Engine) (key : String) (id : Value) :
    engine.get key id = (do
      let request ← (Search.forIdentifier (← engine.index key) id).request .engine
      return request.andThen fun result => result.document key id) := rfl

/-- What `Engine.get` would do if the search were sent as it is. -/
def Engine.getBySearch (engine : Engine) (key : String) (id : Value) :
    Except Error (Request Value) := do
  let request ← (Search.forIdentifier (← engine.index key) id).generalRequest .engine
  return request.andThen fun result => result.document key id

section
variable {service : Service σ} {stored : σ → String → Value → Option Value}
variable {search : Search} {c : Condition} {id : Value}

theorem FindsEitherWay.run_lookupRequest (hservice : FindsEitherWay service stored)
    (search : Search) (names : PointNames) (id : Value) (s : σ) :
    ∃ hits, List.Forall₂ Value.HasSource hits (stored s search.index.name id).toList ∧
      (service.run s (.ok (search.lookupRequest names id))).result =
        .ok (.ofHits search.index.schema names hits) := by
  cases hstored : stored s search.index.name id with
  | none =>
      obtain ⟨fault, hreply, hkind⟩ := hservice.notFound s search.index.name id hstored
      refine ⟨[], .nil, ?_⟩
      simp only [Service.run, Search.lookupRequest, hreply, hkind, if_true]
      rfl
  | some source =>
      obtain ⟨answer, hreply, hsource⟩ := hservice.found s search.index.name id source hstored
      refine ⟨[answer], .cons hsource .nil, ?_⟩
      simp only [Service.run, Search.lookupRequest, hreply]
      rfl

theorem FindsEitherWay.run_generalRequest (hservice : FindsEitherWay service stored)
    (names : PointNames) (hfilters : search.filters = [c]) (hc : c.SearchesFor id)
    (hoffset : search.offset = 0) (hlimit : search.limit = 1) (hwritable : id.Writable) (s : σ) :
    ∃ body hits, search.body = .ok body ∧
      (service.run s (search.generalRequest names)).calls = [.search search.index.name body] ∧
      List.Forall₂ Value.HasSource hits (stored s search.index.name id).toList ∧
      (service.run s (search.generalRequest names)).result =
        .ok (.ofHits search.index.schema names hits) := by
  have hbody := Search.body_of_searchesFor hfilters hc hoffset hlimit
  let body : SearchBody := ⟨.clause (.test (.ids id)), search.sorts, none, some 1⟩
  obtain ⟨answer, outer, total, hits, hreply, houter, hhits, htotal, hvalue, hsources⟩ :=
    hservice.searched s search.index.name body id rfl rfl (by simp [body])
  rw [Search.generalRequest_of_body hbody,
    if_pos (SearchBody.writable_toValue_ids.mpr hwritable)]
  refine ⟨body, hits, hbody, rfl, hsources, ?_⟩
  simp only [Service.run]
  rw [hreply]
  simp only [Reply.answer, Search.readHits, ok_bind, houter, hhits, htotal, hvalue, pure_eq_ok]
  rw [SearchResult.ofHits, hsources.length_eq]

/-- An identifier that cannot be written is neither looked up nor searched for. -/
theorem Search.requests_of_not_writable (names : PointNames) (hfilters : search.filters = [c])
    (hc : c.SearchesFor id) (hoffset : search.offset = 0) (hlimit : search.limit = 1)
    (hnot : ¬ id.Writable) :
    search.request names = .error .tooManyDigits ∧
      search.generalRequest names = .error .tooManyDigits := by
  have hbody := body_of_searchesFor hfilters hc hoffset hlimit
  rw [request_of_identifier names hfilters hc.made hoffset hlimit, if_neg hnot,
    generalRequest_of_body hbody, if_neg (mt SearchBody.writable_toValue_ids.mp hnot)]
  exact ⟨rfl, rfl⟩

/-- An engine that looks up gives the document that stands for what is stored. -/
theorem FindsEitherWay.run_get (hservice : FindsEitherWay service stored) {engine : Engine}
    {key : String} {index : Index} (hindex : engine.index key = .ok index) (id : Value) (s : σ) :
    (service.run s (engine.get key id)).result =
      if id.Writable then
        SearchResult.documentOf index.schema .engine key id (stored s index.name id)
      else .error .tooManyDigits := by
  rw [Engine.get_eq, hindex, ok_bind, service.result_run_andThen, Search.request_forIdentifier]
  by_cases hwritable : id.Writable
  · obtain ⟨hits, hsources, hfound⟩ :=
      hservice.run_lookupRequest (.forIdentifier index id) .engine id s
    rw [if_pos hwritable, if_pos hwritable, hfound, ok_bind]
    exact SearchResult.document_ofHits hsources key id
  · rw [if_neg hwritable, if_neg hwritable]
    rfl

/-- So does one that searches. -/
theorem FindsEitherWay.run_getBySearch (hservice : FindsEitherWay service stored) {engine : Engine}
    {key : String} {index : Index} (hindex : engine.index key = .ok index) (id : Value) (s : σ) :
    (service.run s (engine.getBySearch key id)).result =
      if id.Writable then
        SearchResult.documentOf index.schema .engine key id (stored s index.name id)
      else .error .tooManyDigits := by
  have hfilters : (Search.forIdentifier index id).filters = [.leaf (.identifier id)] := rfl
  rw [Engine.getBySearch, hindex, ok_bind, service.result_run_andThen]
  by_cases hwritable : id.Writable
  · obtain ⟨body, hits, -, -, hsources, hfound⟩ :=
      hservice.run_generalRequest .engine hfilters ⟨rfl, rfl, rfl⟩ rfl rfl hwritable s
    rw [if_pos hwritable, hfound, ok_bind]
    exact SearchResult.document_ofHits hsources key id
  · obtain ⟨-, hrefused⟩ :=
      Search.requests_of_not_writable .engine hfilters ⟨rfl, rfl, rfl⟩ rfl rfl hwritable
    rw [if_neg hwritable, hrefused]
    rfl

/-- Searching for an identifier and looking it up agree: where the search service finds sources
either way, a search with one filter that was made for an identifier, for one hit from the start,
has the same total and the same passes whether it is looked up or sent, and the engine gives the
same document or fails in the same way. No other searches are looked up. An identifier that cannot
be written, as no text is, is an error before anything is sent in either way. -/
theorem lookup_agrees_with_search (hservice : FindsEitherWay service stored) :
    (∀ (search : Search) (names : PointNames) (c : Condition) (id : Value) (s : σ),
      search.filters = [c] → c.SearchesFor id → search.offset = 0 → search.limit = 1 →
      let lookup := service.run s (search.request names)
      let general := service.run s (search.generalRequest names)
      (id.Writable → ∃ body found foundBySearch, search.body = .ok body ∧
        lookup.calls = [.get search.index.name id] ∧ lookup.result = .ok found ∧
        general.calls = [.search search.index.name body] ∧ general.result = .ok foundBySearch ∧
        found.total = foundBySearch.total ∧
        ∀ limit, found.take limit = foundBySearch.take limit) ∧
      (¬ id.Writable → lookup = ⟨.error .tooManyDigits, [], s⟩ ∧
        general = ⟨.error .tooManyDigits, [], s⟩)) ∧
    (∀ (engine : Engine) (key : String) (id : Value) (s : σ),
      (service.run s (engine.get key id)).result =
        (service.run s (engine.getBySearch key id)).result ∧
      ∀ index, engine.index key = .ok index → (service.run s (engine.get key id)).result =
        if id.Writable then
          SearchResult.documentOf index.schema .engine key id (stored s index.name id)
        else .error .tooManyDigits) ∧
    (∀ (search : Search) (names : PointNames) (s : σ),
      (∃ place id, .get place id ∈ (service.run s (search.request names)).calls) ↔
        ∃ c id, search.filters = [c] ∧ c.identifier? = some id ∧ search.offset = 0 ∧
          search.limit = 1 ∧ id.Writable) := by
  refine ⟨?_, ?_, fun search names s => Search.get_mem_calls_iff⟩
  · intro search names c id s hfilters hc hoffset hlimit
    constructor
    · intro hwritable
      have hrequest := Search.request_of_identifier names hfilters hc.made hoffset hlimit
      obtain ⟨hits, hsources, hfound⟩ := hservice.run_lookupRequest search names id s
      obtain ⟨body, hits', hbody, hcalls, hsources', hfound'⟩ :=
        hservice.run_generalRequest names hfilters hc hoffset hlimit hwritable s
      rw [hrequest, if_pos hwritable]
      exact ⟨body, _, _, hbody, rfl, hfound, hcalls, hfound',
        SearchResult.total_ofHits_congr hsources hsources',
        SearchResult.take_ofHits_congr hsources hsources'⟩
    · intro hnot
      obtain ⟨hlookup, hgeneral⟩ :=
        search.requests_of_not_writable names hfilters hc hoffset hlimit hnot
      rw [hlookup, hgeneral]
      exact ⟨rfl, rfl⟩
  · intro engine key id s
    cases hindex : engine.index key with
    | error e =>
        rw [Engine.get, Engine.getBySearch, hindex]
        exact ⟨rfl, fun index h => by cases h⟩
    | ok index =>
        have hget := hservice.run_get hindex id s
        refine ⟨hget.trans (hservice.run_getBySearch hindex id s).symm, fun index' h => ?_⟩
        obtain rfl := Except.ok.inj h
        exact hget

end

namespace Sample

/-- What is kept, by place and identifier. -/
abbrev Shelf := String → Value → Option Value

/-- The answer to a search that has these sources as its hits. -/
def hitsAnswer (sources : List Value) : Value :=
  .single "hits" (.object [("total", .single "value" (.int sources.length)),
    ("hits", .list (sources.map (.single "_source")))])

/-- A service that gives out what is on its shelf and only understands searches for one
identifier. -/
def finder : Service Shelf where
  reply
    | .get place id, shelf =>
      (match shelf place id with
        | some source => .ok (.object [("_id", id), ("_source", source)])
        | none => .error { kind := .notFound, message := "not found", status := some 404 },
        shelf)
    | .search place body, shelf =>
      (match body.query.toValue with
        | .object [("ids", .object [("values", .list [id])])] =>
          .ok (hitsAnswer (shelf place id).toList)
        | _ => .ok (hitsAnswer []),
        shelf)
    | _, shelf =>
      (.error { kind := .badRequest, message := "read only", status := some 400 }, shelf)

theorem finder_findsEitherWay : FindsEitherWay finder fun shelf => shelf where
  found shelf place id source h := by
    refine ⟨.object [("_id", id), ("_source", source)], ?_, rfl⟩
    simp only [finder, h]
  notFound shelf place id h := by
    refine ⟨{ kind := .notFound, message := "not found", status := some 404 }, ?_, rfl⟩
    simp only [finder, h]
  searched shelf place body id hquery _ _ := by
    refine ⟨hitsAnswer (shelf place id).toList, _, _, _, ?_, rfl, rfl, rfl, rfl, ?_⟩
    · simp only [finder, hquery, Value.single]
    · rw [List.forall₂_map_left_iff]
      exact List.forall₂_same.mpr fun _ _ => rfl

/-- One place stands on the shelf. -/
def oneQuay : Shelf
  | "places", .text "q1" => some (.object [("id", .text "q1"), ("title", .text "Quay")])
  | _, _ => none

theorem quay_found_either_way :
    let quay := Condition.leaf (.identifier (.text "q1"))
    let search : Search := ⟨places, [quay], [("title", "asc")], 1, 0⟩
    FindsEitherWay finder (fun shelf => shelf) ∧ search.filters = [quay] ∧
      quay.SearchesFor (.text "q1") ∧ search.offset = 0 ∧ search.limit = 1 ∧
      (Value.text "q1").Writable ∧ ∃ found foundBySearch,
        (finder.run oneQuay (search.request .engine)).result = .ok found ∧
        (finder.run oneQuay (search.generalRequest .engine)).result = .ok foundBySearch ∧
        found.total = foundBySearch.total ∧
        (∀ limit, found.take limit = foundBySearch.take limit) ∧
        (finder.run oneQuay (Engine.get ⟨.ofList [("places", places)]⟩ "places"
          (.text "q2"))).result = .error (.documentNotFound (.text "q2") "places") := by
  intro quay search
  have hquay : quay.SearchesFor (.text "q1") := ⟨rfl, rfl, rfl⟩
  obtain ⟨hagree, hengine, -⟩ := lookup_agrees_with_search finder_findsEitherWay
  obtain ⟨-, found, foundBySearch, -, -, hfound, -, hfoundBySearch, htotal, htake⟩ :=
    (hagree search .engine quay (.text "q1") oneQuay rfl hquay rfl rfl).1 trivial
  obtain ⟨-, hmissing⟩ := hengine ⟨.ofList [("places", places)]⟩ "places" (.text "q2") oneQuay
  have hnone := hmissing places rfl
  exact ⟨finder_findsEitherWay, rfl, hquay, rfl, rfl, trivial, found, foundBySearch, hfound,
    hfoundBySearch, htotal, htake, hnone⟩

/-- A filter of a class that is a conjunction as well as made for an identifier. -/
def mix : Condition := .named "Mix" [.all] (.leaf (.identifier (.text "q1")))

/-- Such a filter is looked up, while the search itself is refused before anything is sent. -/
theorem mix_is_looked_up :
    let search : Search := ⟨places, [mix], [], 1, 0⟩
    mix.isOf .all = true ∧
      (finder.run oneQuay (search.request .engine)).calls = [.get "places" (.text "q1")] ∧
      (finder.run oneQuay (search.generalRequest .engine)).calls = [] ∧
      (finder.run oneQuay (search.generalRequest .engine)).result = .error .missingPart ∧
      ¬ ∀ (search : Search) (c : Condition), search.filters = [c] →
        (∃ place id, .get place id ∈ (finder.run oneQuay (search.request .engine)).calls) →
        c.isOf .all = false := by
  refine ⟨rfl, rfl, rfl, rfl, fun hnone => ?_⟩
  have hget : Call.get "places" (.text "q1") ∈
      (finder.run oneQuay (Search.request ⟨places, [mix], [], 1, 0⟩ .engine)).calls :=
    List.mem_singleton.mpr rfl
  have hplain := hnone ⟨places, [mix], [], 1, 0⟩ mix rfl ⟨_, _, hget⟩
  cases hplain

end Sample

end DocSearch
