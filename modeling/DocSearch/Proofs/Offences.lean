import DocSearch.Proofs.DirectLookup
import DocSearch.Proofs.ExactNames
import DocSearch.Proofs.Fallible
import DocSearch.Proofs.Sample

/-!
# Why a filter is refused

A list of conditions is refused because of one of its nodes: something that is no condition, a leaf
whose path leads to no field, or a leaf that compares with several values and was given something
that holds none. Nothing hides such a node, neither the combinators above it nor what stands beside
it, and of several the first counts. A search with such filters ends before anything is sent.

Classes of the caller's are looked through, but what is no condition at all is refused under the name
of its own class. Left aside are classes of several kinds at once, for which a leaf can also lack
what one of the kinds asks for.
-/

namespace DocSearch

open Fallible

/-! ## Nodes that offend -/

/-- Whether a value can be gone through. -/
def Value.holdsItems : Value → Bool
  | .list _ => true
  | .text _ => true
  | .object _ => true
  | .null => false
  | .bool _ => false
  | .number _ => false

/-- A node that cannot be compiled, and the error that it causes. -/
inductive Offence (index : Index) : Condition → Error → Prop
  | unsupported (className : String) :
      Offence index (.unsupported className) (.unsupportedCondition className)
  | unknownField {l : Leaf} {path : String} : l.path? = some path →
      fieldAt? index.fields (Text.dotted path) = none →
      Offence index (.leaf l) (.fieldNotFound path index.name)
  | noValues {l : Leaf} {path : String} {values : Value} {f : Field} :
      l.several? = some (path, values) → fieldAt? index.fields (Text.dotted path) = some f →
      values.holdsItems = false → Offence index (.leaf l) .wrongShape

namespace Condition

mutual

/-- The nodes of a tree, depth first and from left to right. A condition of a caller's class is one
node, and so is something of a caller's class that is no condition. -/
def nodes : Condition → List Condition
  | .leaf l => [.leaf l]
  | .all conditions => .all conditions :: nodesEach conditions
  | .any conditions => .any conditions :: nodesEach conditions
  | .named className further c =>
    if (named className further c).isForeign then [.unsupported className] else c.nodes
  | .unsupported className => [.unsupported className]

def nodesEach : List Condition → List Condition
  | [] => []
  | c :: rest => c.nodes ++ nodesEach rest

end

mutual

/-- Whether no class of the caller's in a tree is of several kinds. -/
def ofOneKind : Condition → Bool
  | .leaf _ => true
  | .all conditions => allOfOneKind conditions
  | .any conditions => allOfOneKind conditions
  | .named _ further c => further.isEmpty && c.ofOneKind
  | .unsupported _ => true

def allOfOneKind : List Condition → Bool
  | [] => true
  | c :: rest => c.ofOneKind && allOfOneKind rest

end

end Condition

/-- The error of the first node that offends. -/
def FirstOffence (index : Index) (nodes : List Condition) (e : Error) : Prop :=
  ∃ before node after, nodes = before ++ node :: after ∧
    (∀ earlier ∈ before, ∀ e', ¬ Offence index earlier e') ∧ Offence index node e

/-! ## Looking for offences -/

/-- The error of a leaf. Its path is looked up first. -/
def Leaf.offence? (index : Index) (l : Leaf) : Option Error :=
  match l.path? with
  | none => none
  | some path =>
    match fieldAt? index.fields (Text.dotted path) with
    | none => some (.fieldNotFound path index.name)
    | some _ =>
      match l.several? with
      | none => none
      | some (_, values) => if values.holdsItems then none else some .wrongShape

/-- The error of a node by itself. -/
def Condition.offence? (index : Index) : Condition → Option Error
  | .leaf l => l.offence? index
  | .unsupported className => some (.unsupportedCondition className)
  | _ => none

/-- A leaf that compares with several values has the path that it compares at. -/
theorem Leaf.path?_of_several? {l : Leaf} {path : String} {values : Value}
    (h : l.several? = some (path, values)) : l.path? = some path := by
  cases l <;> cases h <;> rfl

theorem Condition.offence?_eq_some_iff {index : Index} {node : Condition} {e : Error} :
    node.offence? index = some e ↔ Offence index node e := by
  constructor
  · intro h
    cases node with
    | leaf l =>
        rw [offence?, Leaf.offence?] at h
        cases hpath : l.path? with
        | none =>
            rw [hpath] at h
            cases h
        | some path =>
            rw [hpath] at h
            cases hfield : fieldAt? index.fields (Text.dotted path) with
            | none =>
                simp only [hfield] at h
                obtain rfl := Option.some.inj h
                exact .unknownField hpath hfield
            | some f =>
                cases hseveral : l.several? with
                | none => simp [hfield, hseveral] at h
                | some entry =>
                    obtain ⟨path', values⟩ := entry
                    obtain rfl : path' = path :=
                      Option.some.inj ((Leaf.path?_of_several? hseveral).symm.trans hpath)
                    simp only [hfield, hseveral] at h
                    cases hitems : values.holdsItems with
                    | true => simp [hitems] at h
                    | false =>
                        simp only [hitems] at h
                        obtain rfl := Option.some.inj h
                        exact .noValues hseveral hfield hitems
    | unsupported className =>
        obtain rfl := Option.some.inj h
        exact .unsupported className
    | all _ | any _ | named _ _ _ => cases h
  · intro h
    cases h with
    | unsupported className => rfl
    | unknownField hpath hfield => simp only [offence?, Leaf.offence?, hpath, hfield]
    | noValues hseveral hfield hitems =>
        simp [offence?, Leaf.offence?, Leaf.path?_of_several? hseveral, hfield, hseveral, hitems]

theorem Condition.offence?_eq_none_iff {index : Index} {node : Condition} :
    node.offence? index = none ↔ ∀ e, ¬ Offence index node e := by
  rw [Option.eq_none_iff_forall_ne_some]
  simp only [Ne, Condition.offence?_eq_some_iff]

theorem firstOffence_iff {index : Index} {nodes : List Condition} {e : Error} :
    FirstOffence index nodes e ↔ nodes.findSome? (Condition.offence? index) = some e := by
  rw [List.findSome?_eq_some_iff, FirstOffence]
  simp only [Condition.offence?_eq_some_iff, Condition.offence?_eq_none_iff]
  grind

/-! ## Compiling finds the first offence -/

section
variable {index : Index}

theorem Value.error?_items (values : Value) :
    error? values.items = if values.holdsItems then none else some .wrongShape := by
  cases values <;> rfl

theorem Index.error?_exactName (index : Index) (path : String) :
    error? (index.exactName path) =
      match fieldAt? index.fields (Text.dotted path) with
      | none => some (.fieldNotFound path index.name)
      | some _ => none := by
  rw [exactName, error?_bind_pure, fieldAt]
  cases fieldAt? index.fields (Text.dotted path) <;> rfl

theorem Leaf.error?_compile (l : Leaf) : error? (l.compile index) = l.offence? index := by
  cases l with
  | identifier _ | search _ => rfl
  | equal path _ | notEqual path _ | compare _ path _ | near path _ _ _ | within path _ _ _ _ =>
      rw [compile, error?_bind_pure, Index.error?_exactName, offence?]
      simp only [path?, several?]
  | isIn path values | notIn path values =>
      rw [compile, error?_bind, offence?]
      simp only [path?, several?]
      have hname := index.error?_exactName path
      cases hfield : fieldAt? index.fields (Text.dotted path) with
      | none =>
          rw [hfield] at hname
          rw [error?_eq_some_iff.mp hname]
      | some f =>
          rw [Index.exactName_of_fieldAt (Index.fieldAt_eq_ok.mpr hfield)]
          dsimp only
          rw [error?_bind_pure, Value.error?_items]

-- The induction is on the tree; what is left out of a list is never an error.
mutual

theorem Condition.error?_compileAs : (c : Condition) → c.ofOneKind = true →
    error? (c.compileAs index []) = c.nodes.findSome? (Condition.offence? index)
  | .leaf l, _ => by
      rw [Condition.compileAs, error?_bind_pure, ConditionKind.deciding, List.foldl_nil,
        Leaf.compileAs_kind, Leaf.error?_compile]
      exact (List.findSome?_singleton).symm
  | .all conditions, h => by
      rw [Condition.compileAs, error?_bind_pure]
      exact error?_compileEach conditions h
  | .any conditions, h => by
      rw [Condition.compileAs]
      exact (error?_bind_pure _ _).trans (error?_compileEach conditions h)
  | .named className further c, h => by
      obtain ⟨hfurther, hc⟩ := Bool.and_eq_true_iff.mp h
      rw [List.isEmpty_iff.mp hfurther, Condition.nodes]
      split
      next hforeign =>
        rw [Condition.compileAs_of_isForeign index _ [] hforeign]
        rfl
      next hforeign =>
        have hplain : c.isForeign = false := by simpa [Condition.isForeign] using hforeign
        rw [Condition.compileAs_named index className [] [] hplain]
        exact c.error?_compileAs hc
  | .unsupported _, _ => rfl

theorem error?_compileEach : (conditions : List Condition) →
    Condition.allOfOneKind conditions = true →
    error? (compileEach index conditions) =
      (Condition.nodesEach conditions).findSome? (Condition.offence? index)
  | [], _ => rfl
  | c :: rest, h => by
      obtain ⟨hc, hrest⟩ := Bool.and_eq_true_iff.mp h
      rw [compileEach, Condition.nodesEach, List.findSome?_append, ← c.error?_compileAs hc,
        ← error?_compileEach rest hrest, error?_bind]
      cases c.compileAs index [] with
      | error e => rfl
      | ok q => exact error?_bind_pure _ _

end

/-- Joining the queries of a list never fails. -/
theorem error?_compile (index : Index) {conditions : List Condition}
    (h : Condition.allOfOneKind conditions = true) (junction : Junction) :
    error? (compile index conditions junction) =
      (Condition.nodesEach conditions).findSome? (Condition.offence? index) := by
  rw [compile, error?_bind_pure, error?_compileEach conditions h]

end

/-! ## Searching with such filters -/

/-- A condition that is made for an identifier is one node, which cannot offend. -/
theorem Condition.nodes_of_isOf_identifier : (c : Condition) → c.ofOneKind = true →
    c.isOf .identifier = true → ∃ id, c.nodes = [.leaf (.identifier id)]
  | .leaf (.identifier id), _, _ => ⟨id, rfl⟩
  | .named className further c, h, hid => by
      have hforeign : (named className further c).isForeign ≠ true := by
        intro hforeign
        rw [isOf_of_isForeign .identifier _ hforeign] at hid
        cases hid
      obtain ⟨hfurther, hc⟩ := Bool.and_eq_true_iff.mp h
      rw [isOf, List.isEmpty_iff.mp hfurther, List.contains_nil, Bool.or_false] at hid
      rw [nodes, if_neg hforeign]
      exact c.nodes_of_isOf_identifier hc hid

/-- A search with filters that are refused is no request at all. -/
theorem Search.request_eq_error {search : Search} (names : PointNames) {e : Error}
    (hkinds : Condition.allOfOneKind search.filters = true)
    (h : compile search.index search.filters .every = .error e) :
    search.request names = .error e := by
  have hlookup : search.lookup? = none := by
    cases hsome : search.lookup? with
    | none => rfl
    | some c =>
        obtain ⟨hfilters, -, -, hid⟩ := lookup?_eq_some.mp hsome
        rw [hfilters] at hkinds h
        obtain ⟨id, hnodes⟩ := c.nodes_of_isOf_identifier (Bool.and_eq_true_iff.mp hkinds).1 hid
        have hnone := error?_compile search.index hkinds .every
        rw [h, Condition.nodesEach, hnodes] at hnone
        cases hnone
  rw [request, hlookup]
  simp only [generalRequest, body, h, error_bind]

/-- Conditions are refused exactly if one of their nodes offends, and then with the error of the
first one that does, whatever the rest of the trees is. A search with these filters sends
nothing. -/
theorem first_offence_decides (index : Index) {conditions : List Condition}
    (h : Condition.allOfOneKind conditions = true) :
    (∀ junction, (∃ e, compile index conditions junction = .error e) ↔
      ∃ node ∈ Condition.nodesEach conditions, ∃ e, Offence index node e) ∧
    (∀ junction e, compile index conditions junction = .error e ↔
      FirstOffence index (Condition.nodesEach conditions) e) ∧
    ∀ {σ : Type} (service : Service σ) (s : σ) (names : PointNames) (e : Error)
      (sorts : List (String × String)) (limit offset : Nat),
      FirstOffence index (Condition.nodesEach conditions) e →
      service.run s (Search.request ⟨index, conditions, sorts, limit, offset⟩ names) =
        ⟨.error e, [], s⟩ := by
  have hdecides (junction : Junction) (e : Error) :
      compile index conditions junction = .error e ↔
        FirstOffence index (Condition.nodesEach conditions) e := by
    rw [firstOffence_iff, ← error?_compile index h junction, error?_eq_some_iff]
  refine ⟨fun junction => ?_, hdecides, ?_⟩
  · simp only [← error?_eq_some_iff, error?_compile index h, ← Option.isSome_iff_exists,
      List.findSome?_isSome_iff, ← Condition.offence?_eq_some_iff]
  · intro σ service s names e sorts limit offset hfirst
    have hrefused := (hdecides .every e).mpr hfirst
    rw [Search.request_eq_error names h hrefused]
    rfl

namespace Sample

/-- Filters with two nodes that offend. The first one has neither a field nor values, and stands
beside a conjunction of nothing. -/
def refused : List Condition :=
  [.leaf (.search (.text "lake")),
    .any [.all [], .named "Deep" [] (.leaf (.notIn "owner.depth" .null))],
    .unsupported "Regex"]

theorem refused_for_unknown_field :
    Condition.allOfOneKind refused = true ∧
      FirstOffence places (Condition.nodesEach refused) (.fieldNotFound "owner.depth" "places") ∧
      (Error.fieldNotFound "owner.depth" "places").message =
        some "Field \"owner.depth\" not found in index \"places\"." ∧
      compile places refused .any = .error (.fieldNotFound "owner.depth" "places") ∧
      finder.run oneQuay (Search.request ⟨places, refused, [], 1, 0⟩ .engine) =
        ⟨.error (.fieldNotFound "owner.depth" "places"), [], oneQuay⟩ := by
  have hkinds : Condition.allOfOneKind refused = true := rfl
  have hfirst : FirstOffence places (Condition.nodesEach refused)
      (.fieldNotFound "owner.depth" "places") := firstOffence_iff.mpr rfl
  obtain ⟨-, hdecides, hsends⟩ := first_offence_decides places hkinds
  exact ⟨hkinds, hfirst, by decide, (hdecides .any _).mpr hfirst,
    hsends finder oneQuay .engine _ [] 1 0 hfirst⟩

/-- Values that cannot be gone through count only where the path leads to a field. -/
example : compile places [.leaf (.isIn "tags" (.int 3)), .unsupported "Regex"] .every =
    .error .wrongShape := rfl

end Sample

end DocSearch
