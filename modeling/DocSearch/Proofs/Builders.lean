import DocSearch.Proofs.BulkComplete
import DocSearch.Proofs.Fallible
import DocSearch.Proofs.Lookup
import DocSearch.Session
import Mathlib.Data.List.Induction

/-!
# What builders are asked for

Of the calls on a builder, each kind is counted by itself: all conditions in order, all sort keys
that were accepted, and the last limit and offset. The search that a builder stands for depends on
nothing else, whatever other builders are asked for in between and whatever else is done with the
engine. A search that has been asked for, and a result, stay as they are from then on.
-/

namespace DocSearch

open Fallible

/-! ## Keyed lists by the order of writing -/

namespace Keyed

variable {α : Type}

theorem putAll_append (kept entries further : List (String × α)) :
    putAll kept (entries ++ further) = putAll (putAll kept entries) further := by
  induction entries generalizing kept with
  | nil => rfl
  | cons e rest ih => exact ih (put e.1 e.2 kept)

theorem ofList_append_singleton (entries : List (String × α)) (key : String) (value : α) :
    ofList (entries ++ [(key, value)]) = put key value (ofList entries) :=
  putAll_append [] entries [(key, value)]

theorem keys_put_of_mem {key : String} {entries : List (String × α)}
    (h : key ∈ entries.map Prod.fst) (value : α) :
    (put key value entries).map Prod.fst = entries.map Prod.fst := by
  induction entries with
  | nil => cases h
  | cons e rest ih =>
      by_cases hfirst : e.1 = key
      · simp only [put, hfirst, if_true, List.map_cons]
      · have hrest : key ∈ rest.map Prod.fst := by
          rw [List.map_cons, List.mem_cons] at h
          exact h.resolve_left (Ne.symm hfirst)
        simp only [put, hfirst, if_false, List.map_cons, ih hrest]

/-- Keys stand in the order in which they were first written. -/
theorem keys_ofList (entries : List (String × α)) :
    (ofList entries).map Prod.fst = (entries.map Prod.fst).eraseDups := by
  induction entries using List.reverseRecOn with
  | nil => rfl
  | append_singleton entries e ih =>
      obtain ⟨key, value⟩ := e
      have hwritten := mem_keys_ofList entries key
      rw [ofList_append_singleton, List.map_append, List.eraseDups_append, ← ih]
      by_cases hkey : key ∈ (ofList entries).map Prod.fst
      · have hnothing : [key].removeAll (entries.map Prod.fst) = [] := by
          rw [List.removeAll, List.filter_eq_nil_iff]
          simpa using List.mem_map.mp (hwritten.mp hkey)
        rw [keys_put_of_mem hkey, List.map_singleton, hnothing]
        exact (List.append_nil _).symm
      · have hnew : [key].removeAll (entries.map Prod.fst) = [key] := by
          rw [List.removeAll, List.filter_eq_self]
          simpa using fun value hmem => hkey (hwritten.mpr (List.mem_map_of_mem hmem))
        rw [put_of_notMem hkey, List.map_append, List.map_singleton, hnew]
        rfl

/-- The last write of a key counts. -/
theorem lookup_ofList (entries : List (String × α)) (key : String) :
    (ofList entries).lookup key = entries.reverse.lookup key := by
  induction entries using List.reverseRecOn with
  | nil => rfl
  | append_singleton entries e ih =>
      obtain ⟨k, value⟩ := e
      rw [ofList_append_singleton, lookup_put, ih, List.reverse_append, List.reverse_singleton,
        List.singleton_append, lookup_cons_eq]

end Keyed

/-! ## What one builder is asked for -/

namespace BuilderChange

@[simp] def filter? : BuilderChange → Option Condition
  | .filter condition => some condition
  | _ => none

/-- A sort key counts if it names one of the two directions. -/
@[simp] def sort? : BuilderChange → Option (String × String)
  | .sort field direction =>
    if direction = "asc" ∨ direction = "desc" then some (field, direction) else none
  | _ => none

@[simp] def limit? : BuilderChange → Option Int
  | .limit n => some n
  | _ => none

@[simp] def offset? : BuilderChange → Option Int
  | .offset n => some n
  | _ => none

end BuilderChange

/-- What a builder was asked for, kind by kind and in order. -/
structure Wishes where
  filters : List Condition
  sorts : List (String × String)
  limits : List Int
  offsets : List Int

namespace Wishes

def of (changes : List BuilderChange) : Wishes where
  filters := changes.filterMap BuilderChange.filter?
  sorts := changes.filterMap BuilderChange.sort?
  limits := changes.filterMap BuilderChange.limit?
  offsets := changes.filterMap BuilderChange.offset?

def limit (wishes : Wishes) : Int := wishes.limits.getLast?.getD 0

def offset (wishes : Wishes) : Int := wishes.offsets.getLast?.getD 0

/-- The search on an index that was wished for: each sort field stands where it was first named and
has the direction that was named last. -/
structure Describes (wishes : Wishes) (index : Index) (search : Search) : Prop where
  index : search.index = index
  filters : search.filters = wishes.filters
  fields : search.sorts.map Prod.fst = (wishes.sorts.map Prod.fst).eraseDups
  directions : ∀ field, search.sorts.lookup field = wishes.sorts.reverse.lookup field
  limit : (search.limit : Int) = wishes.limit
  offset : (search.offset : Int) = wishes.offset

/-- How it ends to ask for the search: a negative limit is found first, then a negative offset. -/
inductive Yields (wishes : Wishes) (index : Index) : Except Error Search → Prop
  | negativeLimit (hlimit : wishes.limit < 0) :
      wishes.Yields index (.error (.negativeLimit wishes.limit))
  | negativeOffset (hlimit : 0 ≤ wishes.limit) (hoffset : wishes.offset < 0) :
      wishes.Yields index (.error (.negativeOffset wishes.offset))
  | search {search : Search} (hlimit : 0 ≤ wishes.limit) (hoffset : 0 ≤ wishes.offset)
      (h : wishes.Describes index search) : wishes.Yields index (.ok search)

variable {wishes : Wishes} {index : Index}

theorem Describes.unique {search search' : Search} (h : wishes.Describes index search)
    (h' : wishes.Describes index search') : search = search' := by
  have hdistinct : Keyed.Distinct search.sorts := by
    rw [Keyed.Distinct, h.fields, ← Keyed.keys_ofList]
    exact Keyed.distinct_ofList _
  have hsorts : search.sorts = search'.sorts :=
    Keyed.eq_of_lookup_eq hdistinct (h.fields.trans h'.fields.symm) fun field _ =>
      (h.directions field).trans (h'.directions field).symm
  have hlimit : search.limit = search'.limit := Int.ofNat.inj (h.limit.trans h'.limit.symm)
  have hoffset : search.offset = search'.offset := Int.ofNat.inj (h.offset.trans h'.offset.symm)
  have hindex : search.index = search'.index := h.index.trans h'.index.symm
  have hfilters : search.filters = search'.filters := h.filters.trans h'.filters.symm
  cases search
  cases search'
  simp_all

theorem Yields.unique {found found' : Except Error Search} (h : wishes.Yields index found)
    (h' : wishes.Yields index found') : found = found' := by
  cases h with
  | negativeLimit hlimit =>
      cases h' with
      | negativeLimit _ => rfl
      | negativeOffset hlimit' _ | search hlimit' _ _ => omega
  | negativeOffset hlimit hoffset =>
      cases h' with
      | negativeLimit hlimit' => omega
      | negativeOffset _ _ => rfl
      | search _ hoffset' _ => omega
  | search hlimit hoffset hsearch =>
      cases h' with
      | negativeLimit hlimit' => omega
      | negativeOffset _ hoffset' => omega
      | search _ _ hsearch' => rw [hsearch.unique hsearch']

/-- A builder with these wishes. -/
def builder (wishes : Wishes) (index : Index) : SearchBuilder :=
  ⟨index, wishes.filters, Keyed.ofList wishes.sorts, wishes.limit, wishes.offset⟩

theorem yields_toSearch (wishes : Wishes) (index : Index) :
    wishes.Yields index (wishes.builder index).toSearch := by
  show wishes.Yields index (Search.ofParts index wishes.filters (Keyed.ofList wishes.sorts)
    wishes.limit wishes.offset)
  rw [Search.ofParts]
  by_cases hlimit : wishes.limit < 0
  · rw [if_pos hlimit]
    exact .negativeLimit hlimit
  · by_cases hoffset : wishes.offset < 0
    · rw [if_neg hlimit, if_pos hoffset]
      exact .negativeOffset (Int.not_lt.mp hlimit) hoffset
    · rw [if_neg hlimit, if_neg hoffset]
      have hsettled : Keyed.ofList (Keyed.ofList wishes.sorts) = Keyed.ofList wishes.sorts :=
        Keyed.ofList_eq_self (Keyed.distinct_ofList _)
      refine .search (Int.not_lt.mp hlimit) (Int.not_lt.mp hoffset) ⟨rfl, rfl, ?_, ?_, ?_, ?_⟩
      · rw [hsettled]
        exact Keyed.keys_ofList _
      · rw [hsettled]
        exact Keyed.lookup_ofList _
      · exact Int.toNat_of_nonneg (Int.not_lt.mp hlimit)
      · exact Int.toNat_of_nonneg (Int.not_lt.mp hoffset)

theorem existsUnique_yields (wishes : Wishes) (index : Index) :
    ∃! found, wishes.Yields index found :=
  ⟨_, wishes.yields_toSearch index, fun _ h => h.unique (wishes.yields_toSearch index)⟩

theorem of_append_singleton (changes : List BuilderChange) (change : BuilderChange) :
    of (changes ++ [change]) =
      ⟨(of changes).filters ++ change.filter?.toList, (of changes).sorts ++ change.sort?.toList,
        (of changes).limits ++ change.limit?.toList,
        (of changes).offsets ++ change.offset?.toList⟩ := by
  have hone {α : Type} (f : BuilderChange → Option α) :
      (changes ++ [change]).filterMap f = changes.filterMap f ++ (f change).toList := by
    rw [List.filterMap_append]
    cases hf : f change <;> simp [hf]
  simp only [of, hone]

/-- A builder takes one more change: it comes to what is asked for with this change, or it stays as
it is because the change is refused and asks for nothing. -/
theorem change_builder (changes : List BuilderChange) (index : Index) (change : BuilderChange) :
    ((of changes).builder index).change change =
        .ok ((of (changes ++ [change])).builder index) ∨
      ((∃ e, ((of changes).builder index).change change = .error e) ∧
        of (changes ++ [change]) = of changes) := by
  rw [of_append_singleton]
  cases change with
  | filter condition =>
      refine .inl (congrArg Except.ok ?_)
      simp [builder, limit, offset, SearchBuilder.addFilter]
  | sort field direction =>
      by_cases hdirection : direction = "asc" ∨ direction = "desc"
      · refine .inl ?_
        rw [SearchBuilder.change, SearchBuilder.addSort, if_pos hdirection]
        simp [builder, limit, offset, Keyed.ofList_append_singleton, hdirection]
      · refine .inr ⟨⟨.sortDirection direction, ?_⟩, ?_⟩
        · rw [SearchBuilder.change, SearchBuilder.addSort, if_neg hdirection]
        · simp [hdirection]
  | limit n =>
      refine .inl (congrArg Except.ok ?_)
      simp [builder, limit, offset, SearchBuilder.setLimit]
  | offset n =>
      refine .inl (congrArg Except.ok ?_)
      simp [builder, limit, offset, SearchBuilder.setOffset]

end Wishes

/-! ## Sessions, step by step -/

namespace Session

variable {σ α : Type}

/-- The session that steps leave. -/
def after (engine : Engine) (service : Service σ) (patience : Nat) (session : Session) :
    List (σ × Step) → Session
  | [] => session
  | (state, s) :: rest =>
    (session.step engine service patience state s).session.after engine service patience rest

section
variable {engine : Engine} {service : Service σ} {patience : Nat} {session : Session}

theorem after_append (before rest : List (σ × Step)) :
    session.after engine service patience (before ++ rest) =
      (session.after engine service patience before).after engine service patience rest := by
  induction before generalizing session with
  | nil => rfl
  | cons first before ih => exact ih

/-- Each step of a run starts from what the steps before it leave. -/
theorem getElem?_run (before : List (σ × Step)) (state : σ) (s : Step) (rest : List (σ × Step)) :
    (session.run engine service patience (before ++ (state, s) :: rest))[before.length]? =
      some ((session.after engine service patience before).step engine service patience state
        s) := by
  induction before generalizing session with
  | nil => rfl
  | cons first before ih =>
      rw [List.cons_append, run, List.length_cons, List.getElem?_cons_succ, ih, after]

/-! ## What a step leaves as it is -/

/-- What holds of a session before a step on its own entries, and of what the step keeps, holds
after it. -/
theorem offline_keeps {P : Session → Prop} {result : Except Error (Answer × Session)} {state : σ}
    (hbefore : P session) (hkept : ∀ answer next, result = .ok (answer, next) → P next) :
    P (session.offline state result).session := by
  rcases result with e | ⟨answer, next⟩
  · exact hbefore
  · exact hkept answer next rfl

theorem online_keeps {P : Session → Prop} {outcome : Outcome Call σ α}
    {keep : α → Answer × Session} (hbefore : P session) (hkept : ∀ a, P (keep a).2) :
    P (session.online outcome keep).session := by
  rw [online]
  split
  · exact hkept _
  · exact hbefore

end

/-- The name of the builder that a step makes or changes. -/
def Step.builderName? : Step → Option String
  | .newBuilder _ name => some name
  | .change name _ => some name
  | _ => none

/-- The name under which a step keeps a search. -/
def Step.searchName? : Step → Option String
  | .buildSearch _ name => some name
  | .newSearch _ name _ _ _ _ => some name
  | _ => none

/-- The name under which a step keeps a result. -/
def Step.resultName? : Step → Option String
  | .runSearch _ name => some name
  | .runBuilder _ name => some name
  | .emptyResult name => some name
  | _ => none

/-- What a step can make of a session: it keeps nothing, or one thing under its own name. -/
inductive Keeps (session : Session) (s : Step) : Session → Prop
  | nothing : Keeps session s session
  | builder {name : String} (hname : s.builderName? = some name) (builder : SearchBuilder) :
      Keeps session s (session.keepBuilder name builder)
  | search {name : String} (hname : s.searchName? = some name) (search : Search) :
      Keeps session s (session.keepSearch name search).2
  | result {name : String} (hname : s.resultName? = some name) (found : SearchResult) :
      Keeps session s (session.keepResult name found).2

section
variable {engine : Engine} {service : Service σ} {patience : Nat} {session : Session} {state : σ}
variable {name : String}

theorem keeps_step (s : Step) :
    session.Keeps s (session.step engine service patience state s).session := by
  cases s with
  | save _ _ _ | delete _ _ _ | get _ _ =>
      exact online_keeps (P := Keeps session _) .nothing fun _ => .nothing
  | bulk _ _ => exact .nothing
  | newBuilder key name =>
      refine offline_keeps (P := Keeps session _) .nothing fun answer next hresult => ?_
      obtain ⟨builder, -, hnext⟩ := bind_eq_ok.mp hresult
      obtain ⟨-, rfl⟩ := Prod.mk.inj (Except.ok.inj hnext)
      exact .builder rfl builder
  | change name change =>
      refine offline_keeps (P := Keeps session _) .nothing fun answer next hresult => ?_
      obtain ⟨builder, -, hrest⟩ := bind_eq_ok.mp hresult
      obtain ⟨changed, -, hnext⟩ := bind_eq_ok.mp hrest
      obtain ⟨-, rfl⟩ := Prod.mk.inj (Except.ok.inj hnext)
      exact .builder rfl changed
  | buildSearch builder name =>
      refine offline_keeps (P := Keeps session _) .nothing fun answer next hresult => ?_
      obtain ⟨known, -, hrest⟩ := bind_eq_ok.mp hresult
      obtain ⟨search, -, hnext⟩ := bind_eq_ok.mp hrest
      obtain ⟨-, rfl⟩ := Prod.mk.inj (Except.ok.inj hnext)
      exact .search rfl search
  | newSearch key name filters sorts limit offset =>
      refine offline_keeps (P := Keeps session _) .nothing fun answer next hresult => ?_
      obtain ⟨index, -, hrest⟩ := bind_eq_ok.mp hresult
      obtain ⟨search, -, hnext⟩ := bind_eq_ok.mp hrest
      obtain ⟨-, rfl⟩ := Prod.mk.inj (Except.ok.inj hnext)
      exact .search rfl search
  | showSearch _ | iterate _ _ =>
      refine offline_keeps (P := Keeps session _) .nothing fun answer next hresult => ?_
      obtain ⟨known, -, hnext⟩ := bind_eq_ok.mp hresult
      obtain ⟨-, rfl⟩ := Prod.mk.inj (Except.ok.inj hnext)
      exact .nothing
  | runSearch _ name | runBuilder _ name =>
      exact online_keeps (P := Keeps session _) .nothing fun found => .result rfl found
  | emptyResult name => exact .result rfl _

/-- What stands under other names stays as it is. -/
theorem Keeps.others {s : Step} {next : Session} (h : session.Keeps s next) (name : String) :
    (s.builderName? ≠ some name → next.builders.lookup name = session.builders.lookup name) ∧
      (s.searchName? ≠ some name → next.searches.lookup name = session.searches.lookup name) ∧
      (s.resultName? ≠ some name → next.results.lookup name = session.results.lookup name) := by
  cases h with
  | nothing => exact ⟨fun _ => rfl, fun _ => rfl, fun _ => rfl⟩
  | @builder own hown builder =>
      refine ⟨fun hother => ?_, fun _ => rfl, fun _ => rfl⟩
      have hne : name ≠ own := fun heq => hother (heq ▸ hown)
      rw [keepBuilder, Keyed.lookup_put, if_neg hne]
  | @search own hown search =>
      refine ⟨fun _ => rfl, fun hother => ?_, fun _ => rfl⟩
      have hne : name ≠ own := fun heq => hother (heq ▸ hown)
      rw [keepSearch, Keyed.lookup_put, if_neg hne]
  | @result own hown found =>
      refine ⟨fun _ => rfl, fun _ => rfl, fun hother => ?_⟩
      have hne : name ≠ own := fun heq => hother (heq ▸ hown)
      rw [keepResult, Keyed.lookup_put, if_neg hne]

/-- What every step keeps holds after all of them. -/
theorem after_keeps {P : Session → Prop} {steps : List (σ × Step)} (hbefore : P session)
    (hstep : ∀ e ∈ steps, ∀ now, P now →
      P (now.step engine service patience e.1 e.2).session) :
    P (session.after engine service patience steps) := by
  induction steps generalizing session with
  | nil => exact hbefore
  | cons first rest ih =>
      rw [List.forall_mem_cons] at hstep
      exact ih (hstep.1 session hbefore) hstep.2

/-- A search that is kept stays until another one is kept under its name. -/
theorem lookup_search_after {later : List (σ × Step)}
    (h : ∀ e ∈ later, e.2.searchName? ≠ some name) :
    (session.after engine service patience later).searches.lookup name =
      session.searches.lookup name :=
  after_keeps (P := fun now => now.searches.lookup name = session.searches.lookup name) rfl
    fun e he _ hnow => (((keeps_step e.2).others name).2.1 (h e he)).trans hnow

/-- A result that is kept stays until another one is kept under its name. -/
theorem lookup_result_after {later : List (σ × Step)}
    (h : ∀ e ∈ later, e.2.resultName? ≠ some name) :
    (session.after engine service patience later).results.lookup name =
      session.results.lookup name :=
  after_keeps (P := fun now => now.results.lookup name = session.results.lookup name) rfl
    fun e he _ hnow => (((keeps_step e.2).others name).2.2 (h e he)).trans hnow

/-! ## The builders of a session -/

/-- At the end of these steps the builder under a name is one that was made on an index and has been
asked for these changes since. -/
inductive Asked (engine : Engine) (name : String) :
    List (σ × Step) → Index → List BuilderChange → Prop
  | made {history : List (σ × Step)} {state : σ} {key : String} {index : Index}
      (hindex : engine.index key = .ok index) :
      Asked engine name (history ++ [(state, .newBuilder key name)]) index []
  | refused {history : List (σ × Step)} {state : σ} {key : String} {e : Error} {index : Index}
      {changes : List BuilderChange} (hindex : engine.index key = .error e)
      (h : Asked engine name history index changes) :
      Asked engine name (history ++ [(state, .newBuilder key name)]) index changes
  | asked {history : List (σ × Step)} {state : σ} {change : BuilderChange} {index : Index}
      {changes : List BuilderChange} (h : Asked engine name history index changes) :
      Asked engine name (history ++ [(state, .change name change)]) index (changes ++ [change])
  | other {history : List (σ × Step)} {state : σ} {s : Step} {index : Index}
      {changes : List BuilderChange} (hother : s.builderName? ≠ some name)
      (h : Asked engine name history index changes) :
      Asked engine name (history ++ [(state, s)]) index changes

theorem after_append_singleton (history : List (σ × Step)) (state : σ) (s : Step) :
    session.after engine service patience (history ++ [(state, s)]) =
      ((session.after engine service patience history).step engine service patience state
        s).session :=
  after_append history [(state, s)]

theorem step_newBuilder {key : String} {index : Index} (h : engine.index key = .ok index) :
    (session.step engine service patience state (.newBuilder key name)).session =
      session.keepBuilder name { index } := by
  have hbuilder : engine.builder key = .ok { index } := by
    rw [Engine.builder, h]
    rfl
  rw [step, hbuilder]
  rfl

theorem step_newBuilder_of_error {key : String} {e : Error} (h : engine.index key = .error e) :
    (session.step engine service patience state (.newBuilder key name)).session = session := by
  have hbuilder : engine.builder key = .error e := by
    rw [Engine.builder, h]
    rfl
  rw [step, hbuilder]
  rfl

theorem step_change {builder changed : SearchBuilder} {change : BuilderChange}
    (hknown : session.builders.lookup name = some builder)
    (hchange : builder.change change = .ok changed) :
    (session.step engine service patience state (.change name change)).session =
      session.keepBuilder name changed := by
  have hfound : known name session.builders = .ok builder := by rw [known, hknown]
  rw [step, hfound, ok_bind, hchange]
  rfl

/-- A change that is refused changes nothing. -/
theorem step_change_of_error {builder : SearchBuilder} {change : BuilderChange} {e : Error}
    (hknown : session.builders.lookup name = some builder)
    (hchange : builder.change change = .error e) :
    session.step engine service patience state (.change name change) =
      ⟨some (.error e), [], state, session, none⟩ := by
  have hfound : known name session.builders = .ok builder := by rw [known, hknown]
  rw [step, hfound, ok_bind, hchange]
  rfl

theorem step_change_of_unknown {change : BuilderChange}
    (hunknown : session.builders.lookup name = none) :
    (session.step engine service patience state (.change name change)).session = session := by
  have hmissing : known name session.builders = .error (.missingKey name) := by
    rw [known, hunknown]
  rw [step, hmissing]
  rfl

/-- The builder under a name is what its own changes make of a new one. -/
theorem Asked.lookup_after {history : List (σ × Step)} {index : Index}
    {changes : List BuilderChange} (h : Asked engine name history index changes) :
    (session.after engine service patience history).builders.lookup name =
      some ((Wishes.of changes).builder index) := by
  induction h with
  | made hindex =>
      rw [after_append_singleton, step_newBuilder hindex, keepBuilder, Keyed.lookup_put, if_pos rfl]
      rfl
  | refused hindex _ ih => rw [after_append_singleton, step_newBuilder_of_error hindex, ih]
  | @asked _ _ change index changes _ ih =>
      rw [after_append_singleton]
      rcases Wishes.change_builder changes index change with hchange | ⟨⟨e, hchange⟩, hsame⟩
      · rw [step_change ih hchange, keepBuilder, Keyed.lookup_put, if_pos rfl]
      · rw [step_change_of_error ih hchange, hsame]
        exact ih
  | other hother _ ih =>
      rw [after_append_singleton, ((keeps_step _).others name).1 hother, ih]

/-- A session that starts with nothing knows no other builders. -/
theorem exists_asked {history : List (σ × Step)} {builder : SearchBuilder}
    (h : (after engine service patience {} history).builders.lookup name = some builder) :
    ∃ index changes, Asked engine name history index changes := by
  induction history using List.reverseRecOn generalizing builder with
  | nil => cases h
  | append_singleton history e ih =>
      obtain ⟨state, s⟩ := e
      rw [after_append_singleton] at h
      by_cases hother : s.builderName? = some name
      · cases s with
        | newBuilder key own =>
            obtain rfl := Option.some.inj hother
            cases hindex : engine.index key with
            | ok index => exact ⟨index, [], .made hindex⟩
            | error e =>
                rw [step_newBuilder_of_error hindex] at h
                obtain ⟨index, changes, hasked⟩ := ih h
                exact ⟨index, changes, .refused hindex hasked⟩
        | change own change =>
            obtain rfl := Option.some.inj hother
            cases hbefore : (after engine service patience {} history).builders.lookup own with
            | none =>
                rw [step_change_of_unknown hbefore, hbefore] at h
                cases h
            | some before =>
                obtain ⟨index, changes, hasked⟩ := ih hbefore
                exact ⟨index, changes ++ [change], .asked hasked⟩
        | _ => cases hother
      · rw [((keeps_step s).others name).1 hother] at h
        obtain ⟨index, changes, hasked⟩ := ih h
        exact ⟨index, changes, .other hother hasked⟩

/-! ## Asking for the search -/

/-- A session that asks a builder for its search keeps it, if there is one. -/
theorem offline_keepSearch (found : Except Error Search) (kept : String) :
    let done := session.offline state (found.map (session.keepSearch kept))
    (done.result = some (found.map .search) ∧ done.calls = [] ∧ done.state = state) ∧
      ∀ search, found = .ok search → done.session.searches.lookup kept = some search := by
  cases found with
  | error e => exact ⟨⟨rfl, rfl, rfl⟩, fun search h => by cases h⟩
  | ok search =>
      refine ⟨⟨rfl, rfl, rfl⟩, fun other h => ?_⟩
      rw [← Except.ok.inj h]
      exact (Keyed.lookup_put kept search session.searches kept).trans (if_pos rfl)

theorem online_keepResult (outcome : Outcome Call σ SearchResult) (kept : String) :
    let done := session.online outcome (session.keepResult kept)
    (done.result = some (outcome.result.map fun found => .total found.total) ∧
        done.calls = outcome.calls ∧ done.state = outcome.state) ∧
      ∀ found, outcome.result = .ok found → done.session.results.lookup kept = some found := by
  obtain ⟨result, calls, state⟩ := outcome
  cases result with
  | error e => exact ⟨⟨rfl, rfl, rfl⟩, fun found h => by cases h⟩
  | ok found =>
      refine ⟨⟨rfl, rfl, rfl⟩, fun other h => ?_⟩
      rw [← Except.ok.inj h]
      exact (Keyed.lookup_put kept found session.results kept).trans (if_pos rfl)

section
variable {history : List (σ × Step)} {index : Index} {changes : List BuilderChange}
variable {found : Except Error Search}

theorem Asked.step_buildSearch (h : Asked engine name history index changes)
    (hfound : (Wishes.of changes).Yields index found) (kept : String) :
    let now := session.after engine service patience history
    now.step engine service patience state (.buildSearch name kept) =
      now.offline state (found.map (now.keepSearch kept)) := by
  intro now
  have hlookup : now.builders.lookup name = some ((Wishes.of changes).builder index) :=
    h.lookup_after
  have hknown : known name now.builders = .ok ((Wishes.of changes).builder index) := by
    rw [known, hlookup]
  rw [hfound.unique ((Wishes.of changes).yields_toSearch index), step, hknown, ok_bind]
  cases ((Wishes.of changes).builder index).toSearch <;> rfl

theorem Asked.result_buildSearch (h : Asked engine name history index changes)
    (hfound : (Wishes.of changes).Yields index found) (kept : String) :
    ((session.after engine service patience history).step engine service patience state
      (.buildSearch name kept)).result = some (found.map .search) :=
  (congrArg StepRun.result (h.step_buildSearch hfound kept)).trans
    (offline_keepSearch found kept).1.1

theorem Asked.step_runBuilder (h : Asked engine name history index changes)
    (hfound : (Wishes.of changes).Yields index found) (kept : String) :
    let now := session.after engine service patience history
    now.step engine service patience state (.runBuilder name kept) =
      now.online (service.run state do (← found).request .engine) (now.keepResult kept) := by
  intro now
  have hlookup : now.builders.lookup name = some ((Wishes.of changes).builder index) :=
    h.lookup_after
  have hknown : known name now.builders = .ok ((Wishes.of changes).builder index) := by
    rw [known, hlookup]
  rw [hfound.unique ((Wishes.of changes).yields_toSearch index), step, hknown, ok_bind]

end

end

end Session

open Session

/-- A builder stands for what it was asked for, and for nothing else. At whatever point of a run its
search is asked for, that yields the one thing that its wishes yield on its index, without a call;
and its result is that of sending this search. Two builders with the same wishes, kind by kind,
yield the same, however their changes were interleaved with each other and with other steps. A sort
key without a direction is refused and leaves everything as it was. Searches and results stay as
they are kept, until others take their names. -/
theorem builders_stand_for_their_wishes {σ : Type} (engine : Engine) (service : Service σ)
    (patience : Nat) (session : Session) :
    let step := Session.step engine service patience
    let after := Session.after engine service patience
    (∀ before state s rest,
      (session.run engine service patience (before ++ (state, s) :: rest))[before.length]? =
        some (step (after session before) state s)) ∧
    (∀ (wishes : Wishes) (index : Index), ∃! found, wishes.Yields index found) ∧
    (∀ name history index changes found, Asked engine name history index changes →
      (Wishes.of changes).Yields index found → ∀ state kept,
      let built := step (after session history) state (.buildSearch name kept)
      let sent := step (after session history) state (.runBuilder name kept)
      let outcome := service.run state do (← found).request .engine
      (built.result = some (found.map .search) ∧ built.calls = [] ∧ built.state = state) ∧
      (sent.result = some (outcome.result.map fun result => .total result.total) ∧
        sent.calls = outcome.calls ∧ sent.state = outcome.state) ∧
      (∀ search later, found = .ok search → (∀ e ∈ later, e.2.searchName? ≠ some kept) →
        (after built.session later).searches.lookup kept = some search) ∧
      ∀ result later, outcome.result = .ok result → (∀ e ∈ later, e.2.resultName? ≠ some kept) →
        (after sent.session later).results.lookup kept = some result) ∧
    (∀ name history changes name' history' changes' index,
      Asked engine name history index changes → Asked engine name' history' index changes' →
      Wishes.of changes = Wishes.of changes' →
      ∀ state kept, (step (after session history) state (.buildSearch name kept)).result =
        (step (after session history') state (.buildSearch name' kept)).result) ∧
    (∀ name builder field direction state, session.builders.lookup name = some builder →
      direction ≠ "asc" → direction ≠ "desc" →
      step session state (.change name (.sort field direction)) =
        ⟨some (.error (.sortDirection direction)), [], state, session, none⟩) ∧
    ∀ name history builder, (after {} history).builders.lookup name = some builder →
      ∃ index changes, Asked engine name history index changes := by
  intro step after
  refine ⟨getElem?_run, Wishes.existsUnique_yields, ?_, ?_, ?_, fun _ _ _ => exists_asked⟩
  · intro name history index changes found hasked hfound state kept built sent outcome
    have hbuilt : built = _ := hasked.step_buildSearch hfound kept
    have hsent : sent = _ := hasked.step_runBuilder hfound kept
    obtain ⟨hsearch, hkeptSearch⟩ := offline_keepSearch found kept
    obtain ⟨hresult, hkeptResult⟩ := online_keepResult outcome kept
    rw [hbuilt, hsent]
    refine ⟨hsearch, hresult, fun search later hok hlater => ?_, fun result later hok hlater => ?_⟩
    · exact (lookup_search_after hlater).trans (hkeptSearch search hok)
    · exact (lookup_result_after hlater).trans (hkeptResult result hok)
  · intro name history changes name' history' changes' index hasked hasked' hwishes state kept
    obtain ⟨found, hfound, -⟩ := (Wishes.of changes).existsUnique_yields index
    have hfound' : (Wishes.of changes').Yields index found := hwishes ▸ hfound
    exact (hasked.result_buildSearch hfound kept).trans
      (hasked'.result_buildSearch hfound' kept).symm
  · intro name builder field direction state hknown hasc hdesc
    have hnone : ¬ (direction = "asc" ∨ direction = "desc") := by simp [hasc, hdesc]
    refine step_change_of_error hknown ?_
    rw [SearchBuilder.change, SearchBuilder.addSort, if_neg hnone]

namespace Sample

/-- Steps on two builders in turn, until one of them has a limit below zero. -/
def turns : List (List Reply × Session.Step) :=
  [] ++ [([], .newBuilder "places" "near")] ++ [([], .newBuilder "places" "far")] ++
    [([], .change "near" (.sort "title" "asc"))] ++ [([], .change "far" (.limit 3))] ++
    [([], .change "near" (.sort "id" "desc"))] ++ [([], .change "near" (.limit (-1)))]

/-- Further steps that mend it, with a direction that there is not among them. -/
def moreTurns : List (List Reply × Session.Step) :=
  turns ++ [([], .change "near" (.sort "title" "desc"))] ++
    [([], .change "near" (.sort "id" "sideways"))] ++ [([], .change "near" (.limit 5))]

theorem turns_are_mended :
    let engine : Engine := ⟨.ofList [("places", places)]⟩
    let changes : List BuilderChange :=
      [] ++ [.sort "title" "asc"] ++ [.sort "id" "desc"] ++ [.limit (-1)]
    let moreChanges := changes ++ [.sort "title" "desc"] ++ [.sort "id" "sideways"] ++ [.limit 5]
    let search : Search := ⟨places, [], [("title", "desc"), ("id", "desc")], 5, 0⟩
    let build := fun history => ((Session.after engine agreeable 0 {} history).step engine
      agreeable 0 [] (.buildSearch "near" "found")).result
    Session.Asked engine "near" turns places changes ∧
      Session.Asked engine "near" moreTurns places moreChanges ∧
      (Wishes.of changes).Yields places (.error (.negativeLimit (-1))) ∧
      (Wishes.of moreChanges).Yields places (.ok search) ∧
      build turns = some (.error (.negativeLimit (-1))) ∧
      build moreTurns = some (.ok (.search search)) := by
  intro engine changes moreChanges search build
  have hasked : Session.Asked engine "near" turns places changes :=
    .asked (.asked (.other (by decide) (.asked (.other (by decide) (.made rfl)))))
  have hmore : Session.Asked engine "near" moreTurns places moreChanges :=
    .asked (.asked (.asked hasked))
  have hnegative : (Wishes.of changes).Yields places (.error (.negativeLimit (-1))) :=
    (Wishes.of changes).yields_toSearch places
  have hfound : (Wishes.of moreChanges).Yields places (.ok search) :=
    (Wishes.of moreChanges).yields_toSearch places
  obtain ⟨-, -, hbuilds, -⟩ := builders_stand_for_their_wishes engine agreeable 0 {}
  obtain ⟨⟨hrefused, -⟩, -⟩ := hbuilds "near" turns places changes _ hasked hnegative [] "found"
  obtain ⟨⟨hbuilt, -⟩, -⟩ := hbuilds "near" moreTurns places moreChanges _ hmore hfound [] "found"
  exact ⟨hasked, hmore, hnegative, hfound, hrefused, hbuilt⟩

end Sample

end DocSearch
