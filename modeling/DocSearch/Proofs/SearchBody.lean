import DocSearch.Proofs.Canonical
import DocSearch.Search

/-!
# What the body of a search tells

The body of a search always holds a query. It asks for everything exactly where no filter holds a
leaf, and is the conjunction of the filters otherwise. Limit and offset are left out where they are
zero, and the sort keys stand in their order, so the body tells all of them, and also what the
filters were compiled to. It does not tell the index, nor the filters themselves.

Bodies are compared as they are, and also up to the order of the members of objects.
-/

namespace DocSearch

open Fallible

/-! ## Members alike -/

/-- Objects that are alike hold members that are alike under the same keys. -/
theorem Likeness.lookup_rel {like : Value → Value → Prop} (h : Likeness like) {xs ys : Members}
    (hlike : like (.object xs) (.object ys)) (key : String) :
    Option.Rel like (xs.lookup key) (ys.lookup key) := by
  have hkeys : key ∈ xs.map Prod.fst ↔ key ∈ ys.map Prod.fst := (h.keys hlike).mem_iff
  cases hx : xs.lookup key with
  | none =>
      have habsent : ys.lookup key = none := by
        rw [Keyed.lookup_eq_none_iff_notMem, ← hkeys]
        exact Keyed.lookup_eq_none_iff_notMem.mp hx
      rw [habsent]
      exact .none
  | some v =>
      have hpresent : key ∈ ys.map Prod.fst := by
        rw [← hkeys]
        exact Keyed.mem_keys_iff_exists_lookup.mpr ⟨v, hx⟩
      obtain ⟨w, hy⟩ := Keyed.mem_keys_iff_exists_lookup.mp hpresent
      rw [hy]
      exact .some (h.lookup hlike hx hy)

/-! ## The members of a body -/

/-- What the members that are sent along with a search ask for. -/
structure Asks (members : Members) (query : Value) (sorts : List (String × String))
    (limit offset : Int) : Prop where
  query : members.lookup "query" = some query
  sort : members.lookup "sort" = some (.list (sorts.map fun e => .single e.1 (.text e.2)))
  offset : members.lookup "from_" = if offset = 0 then none else some (.int offset)
  size : members.lookup "size" = if limit = 0 then none else some (.int limit)
  others : ∀ key ∉ ["query", "sort", "from_", "size"], members.lookup key = none

/-- Sort keys in a row tell the sort keys. -/
theorem sorts_eq_of_same {sorts sorts' : List (String × String)}
    (h : List.Forall₂ Value.Same (sorts.map fun e => .single e.1 (.text e.2))
      (sorts'.map fun e => .single e.1 (.text e.2))) : sorts = sorts' := by
  rw [List.forall₂_map_left_iff, List.forall₂_map_right_iff] at h
  rw [← List.forall₂_eq_eq_eq]
  refine h.imp fun e e' hsame => ?_
  obtain ⟨hfield, hdirection⟩ := likeness_same.single.mp hsame
  exact Prod.ext hfield hdirection.text_inj

/-- A number that is left out where it is zero is told all the same. -/
theorem eq_of_written_rel {n n' : Int}
    (h : Option.Rel Value.Same (if n = 0 then none else some (.int n))
      (if n' = 0 then none else some (.int n'))) : n = n' := by
  by_cases hzero : n = 0 <;> by_cases hzero' : n' = 0
  · rw [hzero, hzero']
  · rw [if_pos hzero, if_neg hzero'] at h
    cases h
  · rw [if_neg hzero, if_pos hzero'] at h
    cases h
  · rw [if_neg hzero, if_neg hzero'] at h
    cases h with
    | some hsame => exact hsame.int_inj

/-- Members that are the same ask for the same. -/
theorem Asks.of_same {members members' : Members} {query query' : Value}
    {sorts sorts' : List (String × String)} {limit limit' offset offset' : Int}
    (h : Asks members query sorts limit offset) (h' : Asks members' query' sorts' limit' offset')
    (hsame : (Value.object members).Same (.object members')) :
    query.Same query' ∧ sorts = sorts' ∧ limit = limit' ∧ offset = offset' := by
  have hmember (key : String) := likeness_same.lookup_rel hsame key
  have hquery := hmember "query"
  have hsort := hmember "sort"
  have hsize := hmember "size"
  have hoffset := hmember "from_"
  rw [h.query, h'.query] at hquery
  rw [h.sort, h'.sort] at hsort
  rw [h.size, h'.size] at hsize
  rw [h.offset, h'.offset] at hoffset
  refine ⟨?_, ?_, eq_of_written_rel hsize, eq_of_written_rel hoffset⟩
  · cases hquery with
    | some hsame => exact hsame
  · cases hsort with
    | some hsame => exact sorts_eq_of_same (Value.Same.list_iff.mp hsame)

namespace SearchBody

theorem lookup_arguments (body : SearchBody) (key : String) :
    body.arguments.lookup key =
      if key = "query" then some body.query.toValue
      else if key = "sort" then some (.list (body.sort.map fun e => .single e.1 (.text e.2)))
      else if key = "from_" then body.offset.map fun n : Nat => Value.int n
      else if key = "size" then body.size.map fun n : Nat => Value.int n
      else none := by
  rw [arguments]
  by_cases hfrom : key = "from_" <;> cases body.offset <;> cases body.size <;>
    simp [Keyed.lookup_cons_eq, hfrom]

end SearchBody

/-! ## The query of a body -/

/-- The query that is asked for in place of a compiled one. -/
def Query.asked (q : Query) : Query := if q.isEmpty then .matchAll else q

/-- A clause is an object under one key, which is not that of the query for everything. -/
theorem Clause.exists_toValue_eq_single (c : Clause) :
    ∃ word body, c.toValue = .single word body ∧ word ≠ "match_all" := by
  cases c with
  | test a =>
      obtain ⟨body, ha⟩ := a.exists_toValue_eq
      have hword : a.word ≠ "match_all" := by cases a <;> simp [Atom.word]
      exact ⟨a.word, _, ha, hword⟩
  | required _ | excluded _ => exact ⟨"bool", _, rfl, by decide⟩

section
variable {index : Index} {conditions : List Condition} {junction : Junction} {q : Query}

theorem asked_of_leafless (h : compile index conditions junction = .ok q)
    (hnone : Condition.leavesEach conditions = []) : q.asked = .matchAll := by
  rw [eq_empty_of_leafless h hnone]
  rfl

theorem asked_of_leaves (h : compile index conditions junction = .ok q)
    (hne : Condition.leavesEach conditions ≠ []) : q.asked = q := by
  rw [Query.asked, Query.isEmpty_of_canonical (canonical_of_leaves h hne)]
  rfl

/-- No clause and no group is written like the query for everything. -/
theorem exists_single_of_leaves (h : compile index conditions junction = .ok q)
    (hne : Condition.leavesEach conditions ≠ []) :
    ∃ word body, q.toValue = .single word body ∧ word ≠ "match_all" := by
  rcases (canonical_of_leaves h hne).fragment_or_group with hfragment | ⟨parts, hparts⟩
  · obtain ⟨qs, hspelled, rfl⟩ := exists_spellOut h
    obtain ⟨clauses, -, hclauses⟩ := hspelled.clauses
    rw [← Query.fragments_join junction, hfragment] at hclauses
    obtain ⟨c, -, hc⟩ : ∃ c ∈ clauses, c.toValue = (Query.join junction qs).toValue :=
      List.mem_map.mp (hclauses ▸ List.mem_singleton_self _)
    rw [← hc]
    exact c.exists_toValue_eq_single
  · exact ⟨"bool", parts, hparts, by decide⟩

end

/-! ## What is told -/

section
variable {index index' : Index} {conditions conditions' : List Condition}
variable {junction junction' : Junction} {q q' : Query}

/-- What is asked for tells what the conditions were compiled to. -/
theorem Likeness.of_asked {like : Value → Value → Prop} (h : Likeness like)
    (hempty : like (.object []) (.object [])) (hq : compile index conditions junction = .ok q)
    (hq' : compile index' conditions' junction' = .ok q')
    (hlike : like q.asked.toValue q'.asked.toValue) : like q.toValue q'.toValue := by
  by_cases hnone : Condition.leavesEach conditions = [] <;>
    by_cases hnone' : Condition.leavesEach conditions' = []
  · rw [eq_empty_of_leafless hq hnone, eq_empty_of_leafless hq' hnone']
    exact hempty
  · obtain ⟨word, body, hvalue, hword⟩ := exists_single_of_leaves hq' hnone'
    rw [asked_of_leafless hq hnone, asked_of_leaves hq' hnone', hvalue, Query.toValue] at hlike
    exact absurd (h.single.mp hlike).1.symm hword
  · obtain ⟨word, body, hvalue, hword⟩ := exists_single_of_leaves hq hnone
    rw [asked_of_leaves hq hnone, asked_of_leafless hq' hnone', hvalue, Query.toValue] at hlike
    exact absurd (h.single.mp hlike).1 hword
  · rwa [asked_of_leaves hq hnone, asked_of_leaves hq' hnone'] at hlike

/-- The query for everything is asked for exactly where there is no leaf. -/
theorem asked_eq_matchAll_iff (h : compile index conditions junction = .ok q) :
    q.asked.toValue = .single "match_all" (.object []) ↔ Condition.leavesEach conditions = [] := by
  constructor
  · intro hasked
    by_contra hne
    obtain ⟨word, body, hvalue, hword⟩ := exists_single_of_leaves h hne
    rw [asked_of_leaves h hne, hvalue, likeness_eq.single] at hasked
    exact hword hasked.1
  · intro hnone
    rw [asked_of_leafless h hnone, Query.toValue]

theorem asked_ne_empty (h : compile index conditions junction = .ok q) :
    q.asked.toValue ≠ .object [] := by
  by_cases hnone : Condition.leavesEach conditions = []
  · rw [asked_of_leafless h hnone, Query.toValue, Value.single]
    simp
  · rw [asked_of_leaves h hnone]
    exact (canonical_of_leaves h hnone).ne_empty

end

namespace Search

variable {index : Index} {filters : List Condition} {sorts : List (String × String)}
variable {limit offset : Int} {search : Search} {body : SearchBody} {q : Query}

/-- A search is accepted exactly if neither number is negative, and keeps what it was given. -/
theorem ofParts_eq_ok_iff : ofParts index filters sorts limit offset = .ok search ↔
    0 ≤ limit ∧ 0 ≤ offset ∧
      search = ⟨index, filters, Keyed.ofList sorts, limit.toNat, offset.toNat⟩ := by
  rw [ofParts]
  split
  · exact iff_of_false nofun (by omega)
  · split
    · exact iff_of_false nofun (by omega)
    · rw [Except.ok.injEq, eq_comm]
      have hlimit : 0 ≤ limit := by omega
      have hoffset : 0 ≤ offset := by omega
      simp only [hlimit, hoffset, true_and]

theorem body_of_compile (search : Search)
    (h : compile search.index search.filters .every = .ok q) :
    search.body = .ok {
      query := q.asked
      sort := search.sorts
      offset := if search.offset = 0 then none else some search.offset
      size := if search.limit = 0 then none else some search.limit } := by
  rw [Search.body, h]
  rfl

/-- A number that is not negative is written as it was given, and left out where it is zero. -/
theorem written_toNat {n : Int} (h : 0 ≤ n) :
    (if n.toNat = 0 then none else some n.toNat).map (fun m : Nat => Value.int m) =
      if n = 0 then none else some (.int n) := by
  by_cases hzero : n = 0
  · have hnat : n.toNat = 0 := by omega
    rw [if_pos hnat, if_pos hzero, Option.map_none]
  · have hnat : n.toNat ≠ 0 := by omega
    rw [if_neg hnat, if_neg hzero, Option.map_some, Int.toNat_of_nonneg h]

/-- An accepted search whose filters compile has a body, which asks for what was given. -/
theorem exists_body (haccepted : ofParts index filters sorts limit offset = .ok search)
    (hq : compile index filters .every = .ok q) : ∃ body, search.body = .ok body ∧
      body.query = q.asked ∧
      Asks body.arguments q.asked.toValue (Keyed.ofList sorts) limit offset := by
  obtain ⟨hlimit, hoffset, rfl⟩ := ofParts_eq_ok_iff.mp haccepted
  have hbody := body_of_compile ⟨index, filters, Keyed.ofList sorts, limit.toNat, offset.toNat⟩ hq
  have hfrom : "from_" ≠ "query" ∧ "from_" ≠ "sort" := by decide
  have hsize : "size" ≠ "query" ∧ "size" ≠ "sort" ∧ "size" ≠ "from_" := by decide
  refine ⟨_, hbody, rfl, ?_, ?_, ?_, ?_, fun key hkey => ?_⟩
  · rw [SearchBody.lookup_arguments, if_pos rfl]
  · rw [SearchBody.lookup_arguments, if_neg (by decide), if_pos rfl]
  · rw [SearchBody.lookup_arguments, if_neg hfrom.1, if_neg hfrom.2, if_pos rfl,
      written_toNat hoffset]
  · rw [SearchBody.lookup_arguments, if_neg hsize.1, if_neg hsize.2.1, if_neg hsize.2.2,
      if_pos rfl, written_toNat hlimit]
  · simp only [List.mem_cons, List.not_mem_nil, or_false, not_or] at hkey
    obtain ⟨hquery, hsort, hother⟩ := hkey
    rw [SearchBody.lookup_arguments, if_neg hquery, if_neg hsort, if_neg hother.1,
      if_neg hother.2]

theorem asks_of_body (haccepted : ofParts index filters sorts limit offset = .ok search)
    (hbody : search.body = .ok body) : ∃ q, compile index filters .every = .ok q ∧
      Asks body.arguments q.asked.toValue (Keyed.ofList sorts) limit offset := by
  obtain ⟨-, -, hsearch⟩ := ofParts_eq_ok_iff.mp haccepted
  obtain ⟨q, hq, -⟩ := bind_eq_ok.mp hbody
  rw [hsearch] at hq
  obtain ⟨other, hother, -, hasks⟩ := exists_body haccepted hq
  obtain rfl := Except.ok.inj (hbody.symm.trans hother)
  exact ⟨q, hq, hasks⟩

end Search

/-- An accepted search whose filters compile has a body. It asks for everything exactly if no filter
holds a leaf, and for the conjunction of the filters otherwise, with all sort keys in order and with
each number that is not zero. Bodies that are the same, be it but for the order of members, come
from searches with the same sort keys, the same numbers and filters that compile to the same. -/
theorem body_tells_the_search {index : Index} {filters : List Condition}
    (sorts : List (String × String)) {limit offset : Int} (hlimit : 0 ≤ limit)
    (hoffset : 0 ≤ offset) {q : Query} (hq : compile index filters .every = .ok q) :
    ∃ search body, Search.ofParts index filters sorts limit offset = .ok search ∧
      search.body = .ok body ∧
      body.query.toValue ≠ .object [] ∧
      (body.query.toValue = .single "match_all" (.object []) ↔
        Condition.leavesEach filters = []) ∧
      (Condition.leavesEach filters ≠ [] → body.query = q) ∧
      Asks body.arguments body.query.toValue (Keyed.ofList sorts) limit offset ∧
      ∀ index' filters' sorts' limit' offset' search' body',
        Search.ofParts index' filters' sorts' limit' offset' = .ok search' →
        search'.body = .ok body' →
        (Value.object body.arguments).Same (.object body'.arguments) →
        Keyed.ofList sorts = Keyed.ofList sorts' ∧ limit = limit' ∧ offset = offset' ∧
          ∃ q', compile index' filters' .every = .ok q' ∧ q.toValue.Same q'.toValue ∧
            (body.arguments = body'.arguments → q.toValue = q'.toValue) := by
  obtain ⟨search, haccepted⟩ : ∃ search,
      Search.ofParts index filters sorts limit offset = .ok search :=
    ⟨_, Search.ofParts_eq_ok_iff.mpr ⟨hlimit, hoffset, rfl⟩⟩
  obtain ⟨body, hbody, hquery, hasks⟩ := Search.exists_body haccepted hq
  refine ⟨search, body, haccepted, hbody, ?_, ?_, ?_, ?_, ?_⟩
  · rw [hquery]
    exact asked_ne_empty hq
  · rw [hquery]
    exact asked_eq_matchAll_iff hq
  · rw [hquery]
    exact asked_of_leaves hq
  · rw [hquery]
    exact hasks
  · intro index' filters' sorts' limit' offset' search' body' haccepted' hbody' hsame
    obtain ⟨q', hq', hasks'⟩ := Search.asks_of_body haccepted' hbody'
    obtain ⟨hqueries, hsorts, hlimits, hoffsets⟩ := hasks.of_same hasks' hsame
    refine ⟨hsorts, hlimits, hoffsets, q', hq', ?_, fun hequal => ?_⟩
    · exact likeness_same.of_asked (.refl _) hq hq' hqueries
    · have hasked : q.asked.toValue = q'.asked.toValue := by
        have hlookup := hasks.query
        rw [hequal, hasks'.query] at hlookup
        exact (Option.some.inj hlookup).symm
      exact likeness_eq.of_asked rfl hq hq' hasked

namespace Sample

/-- Sort keys of which one is given twice. -/
def byTitle : List (String × String) := [("title", "asc"), ("id", "desc"), ("title", "desc")]

/-- Filters without a leaf ask for everything, and filters with leaves for what they compile to. -/
theorem quayside_body_tells :
    ((0 : Int) ≤ 10 ∧ (0 : Int) ≤ 0 ∧
      compile places quayside .every = .ok quaysideQuery ∧
      ∃ search body, Search.ofParts places quayside byTitle 10 0 = .ok search ∧
        search.body = .ok body ∧ body.query = quaysideQuery ∧
        Asks body.arguments quaysideQuery.toValue [("title", "desc"), ("id", "desc")] 10 0) ∧
    ∃ search body, Search.ofParts places [.any [], .all [.any []]] [] 0 25 = .ok search ∧
      search.body = .ok body ∧ body.query.toValue = .single "match_all" (.object []) := by
  have hlimit : (0 : Int) ≤ 10 := by decide
  have hoffset : (0 : Int) ≤ 0 := by decide
  have hquery : compile places quayside .every = .ok quaysideQuery := rfl
  refine ⟨⟨hlimit, hoffset, hquery, ?_⟩, ?_⟩
  · obtain ⟨search, body, haccepted, hbody, -, -, hasked, hasks, -⟩ :=
      body_tells_the_search byTitle hlimit hoffset hquery
    have hbodyQuery : body.query = quaysideQuery := hasked (List.cons_ne_nil _ _)
    rw [hbodyQuery] at hasks
    exact ⟨search, body, haccepted, hbody, hbodyQuery, hasks⟩
  · have hempty : compile places [.any [], .all [.any []]] .every = .ok .empty := rfl
    obtain ⟨search, body, haccepted, hbody, -, hall, -⟩ :=
      body_tells_the_search [] hoffset (by decide : (0 : Int) ≤ 25) hempty
    exact ⟨search, body, haccepted, hbody, hall.mpr rfl⟩

end Sample

end DocSearch
