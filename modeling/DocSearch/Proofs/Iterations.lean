import DocSearch.Search.Iteration
import DocSearch.Session
import DocSearch.Proofs.Fallible
import DocSearch.Proofs.Sample

/-!
# Iterations do not depend on one another

An iteration gives out the documents of the hits in their order, up to the first hit that is no
document, and then the error of that hit. It converts what it reaches and nothing else, and what was
done with the result before, or is done with it in between, does not matter.

That a hit is read twice to the same end rests on the hits being kept as they came. Hits that are
changed from outside while they are gone through are not covered.
-/

namespace DocSearch

open Fallible

/-! ## Hits as documents -/

/-- The conversion of such a hit is started. -/
def Value.isReadable (hit : Value) : Bool := (hit.member "_source").isOk

namespace SearchResult

/-- A hit as a document. -/
def convert (result : SearchResult) (hit : Value) : Except Error Value := do
  let source ← hit.member "_source"
  return .object (← result.schema.ofWire result.names source)

/-- What a pass gives out that is to go through some hits. -/
inductive Gives (result : SearchResult) (wanted : List Value) : Pass → Prop where
  | all {documents : List Value}
      (converted : List.Forall₂ (fun hit d => result.convert hit = .ok d) wanted documents) :
      Gives result wanted ⟨documents, none, wanted.countP Value.isReadable⟩
  | upTo {before after documents : List Value} {hit : Value} {e : Error}
      (split : wanted = before ++ hit :: after)
      (converted : List.Forall₂ (fun hit d => result.convert hit = .ok d) before documents)
      (failed : result.convert hit = .error e) :
      Gives result wanted ⟨documents, some e, (before ++ [hit]).countP Value.isReadable⟩

/-- Convert hits by what the result says about them. -/
def converted (result : SearchResult) (hits : List Value) : Pass :=
  convertHits result.schema result.names hits

variable {result : SearchResult} {hit document : Value} {hits rest : List Value} {e : Error}

theorem convert_eq_ok (h : result.convert hit = .ok document) : ∃ source members,
    hit.member "_source" = .ok source ∧ result.schema.ofWire result.names source = .ok members ∧
      document = .object members := by
  obtain ⟨source, hsource, h⟩ := bind_eq_ok.mp h
  obtain ⟨members, hmembers, h⟩ := bind_eq_ok.mp h
  exact ⟨source, members, hsource, hmembers, (Except.ok.inj h).symm⟩

theorem convert_eq_error (h : result.convert hit = .error e) : hit.member "_source" = .error e ∨
    ∃ source, hit.member "_source" = .ok source ∧
      result.schema.ofWire result.names source = .error e := by
  rcases bind_eq_error.mp h with hsource | ⟨source, hsource, h⟩
  · exact .inl hsource
  · rcases bind_eq_error.mp h with hmembers | ⟨members, -, h⟩
    · exact .inr ⟨source, hsource, hmembers⟩
    · cases h

theorem isReadable_of_convert (h : result.convert hit = .ok document) : hit.isReadable = true := by
  obtain ⟨source, -, hsource, -⟩ := convert_eq_ok h
  rw [Value.isReadable, hsource]
  rfl

theorem reach_of_ok (h : result.convert hit = .ok document) :
    result.reach (hit :: rest) = ⟨some (.ok document), 1, .before rest⟩ := by
  obtain ⟨source, members, hsource, hmembers, rfl⟩ := convert_eq_ok h
  rw [reach, hsource]
  simp only [hmembers]

theorem reach_of_error (h : result.convert hit = .error e) :
    result.reach (hit :: rest) =
      ⟨some (.error e), [hit].countP Value.isReadable, .over⟩ := by
  rw [reach, List.countP_singleton, Value.isReadable]
  rcases convert_eq_error h with hsource | ⟨source, hsource, hmembers⟩
  · rw [hsource]
    rfl
  · rw [hsource]
    simp only [hmembers]
    rfl

/-- A pass does with its first hit what a pull does, and goes on where it is not over. -/
theorem converted_cons (result : SearchResult) (hit : Value) (rest : List Value) :
    result.converted (hit :: rest) = match result.reach (hit :: rest) with
      | ⟨some (.ok document), n, _⟩ => ⟨document :: (result.converted rest).documents,
          (result.converted rest).failure, (result.converted rest).conversions + n⟩
      | ⟨some (.error e), n, _⟩ => ⟨[], some e, n⟩
      | ⟨none, n, _⟩ => ⟨[], none, n⟩ := by
  rw [converted, convertHits, reach]
  cases hit.member "_source" with
  | error e => rfl
  | ok source =>
      dsimp only
      cases result.schema.ofWire result.names source with
      | error e => rfl
      | ok members => rfl

theorem converted_of_ok (h : result.convert hit = .ok document) :
    result.converted (hit :: rest) = ⟨document :: (result.converted rest).documents,
      (result.converted rest).failure, (result.converted rest).conversions + 1⟩ := by
  rw [converted_cons, reach_of_ok h]

theorem converted_of_error (h : result.convert hit = .error e) :
    result.converted (hit :: rest) = ⟨[], some e, [hit].countP Value.isReadable⟩ := by
  rw [converted_cons, reach_of_error h]

theorem gives_converted (result : SearchResult) (hits : List Value) :
    result.Gives hits (result.converted hits) := by
  induction hits with
  | nil => exact .all .nil
  | cons hit rest ih =>
      cases hconvert : result.convert hit with
      | error e =>
          rw [converted_of_error hconvert]
          exact .upTo (List.nil_append _).symm .nil hconvert
      | ok document =>
          have hreadable : hit.isReadable = true := isReadable_of_convert hconvert
          rw [converted_of_ok hconvert]
          generalize result.converted rest = pass at ih
          cases ih with
          | all hrest =>
              have hall := Gives.all (.cons hconvert hrest)
              rw [List.countP_cons_of_pos hreadable] at hall
              exact hall
          | @upTo before after documents bad e hsplit hbefore hbad =>
              have hupTo : result.Gives (hit :: rest) _ :=
                .upTo (congrArg (hit :: ·) hsplit) (.cons hconvert hbefore) hbad
              rw [List.cons_append, List.countP_cons_of_pos hreadable] at hupTo
              exact hupTo

theorem Gives.eq_converted {pass : Pass} (h : result.Gives hits pass) :
    pass = result.converted hits := by
  cases h with
  | all hall =>
      induction hall with
      | nil => rfl
      | @cons hit document rest documents hfirst _ ih =>
          rw [converted_of_ok hfirst, ← ih,
            List.countP_cons_of_pos (isReadable_of_convert hfirst)]
  | upTo hsplit hbefore hbad =>
      subst hsplit
      induction hbefore with
      | nil => rw [List.nil_append, List.nil_append, converted_of_error hbad]
      | @cons hit document before documents hfirst _ ih =>
          rw [List.cons_append, List.cons_append, converted_of_ok hfirst, ← ih,
            List.countP_cons_of_pos (isReadable_of_convert hfirst)]

/-- The hits that a pass is to go through. -/
def wanted (hits : List Value) : Option Nat → List Value
  | none => hits
  | some n => hits.take n

theorem take_eq_converted (h : result.hits.items = .ok hits) (limit : Option Nat) :
    result.take limit = result.converted (wanted hits limit) := by
  unfold take
  split
  next hnone =>
    rw [hnone]
    rfl
  next =>
    rw [h]
    cases limit <;> rfl

/-- There is one thing that a pass can give out. -/
theorem take_eq_iff (h : result.hits.items = .ok hits) (limit : Option Nat) (pass : Pass) :
    result.take limit = pass ↔ result.Gives (wanted hits limit) pass := by
  rw [take_eq_converted h]
  constructor
  · rintro rfl
    exact gives_converted result _
  · intro hgives
    exact hgives.eq_converted.symm

/-! ## One pull after the other -/

theorem ofPulls_cons_ok (document : Value) (next : Iteration) (pulls : List Pull) :
    Pass.ofPulls (⟨some (.ok document), 1, next⟩ :: pulls) =
      ⟨document :: (Pass.ofPulls pulls).documents, (Pass.ofPulls pulls).failure,
        (Pass.ofPulls pulls).conversions + 1⟩ := by
  rw [Nat.add_comm]
  rfl

theorem ofPulls_cons_error (e : Error) (n : Nat) (next : Iteration) (pulls : List Pull) :
    Pass.ofPulls (⟨some (.error e), n, next⟩ :: pulls) =
      ⟨(Pass.ofPulls pulls).documents, some e, n + (Pass.ofPulls pulls).conversions⟩ := rfl

theorem ofPulls_cons_none (n : Nat) (next : Iteration) (pulls : List Pull) :
    Pass.ofPulls (⟨none, n, next⟩ :: pulls) =
      ⟨(Pass.ofPulls pulls).documents, (Pass.ofPulls pulls).failure,
        n + (Pass.ofPulls pulls).conversions⟩ := rfl

theorem ofPulls_pulls_over (result : SearchResult) (n : Nat) :
    Pass.ofPulls (result.pulls n .over) = ⟨[], none, 0⟩ := by
  induction n with
  | zero => rfl
  | succ n ih =>
      rw [pulls, pull, ofPulls_cons_none, ih, Nat.zero_add]

/-- A number of pulls is a pass through as many hits. -/
theorem ofPulls_pulls_before (result : SearchResult) (n : Nat) (hits : List Value) :
    Pass.ofPulls (result.pulls n (.before hits)) = result.converted (hits.take n) := by
  induction n generalizing hits with
  | zero => rfl
  | succ n ih =>
      rw [pulls, pull]
      cases hits with
      | nil =>
          rw [reach, ofPulls_cons_none, ofPulls_pulls_over, List.take_nil]
          rfl
      | cons hit rest =>
          rw [List.take_succ_cons]
          cases hconvert : result.convert hit with
          | ok document =>
              rw [reach_of_ok hconvert, converted_of_ok hconvert, ofPulls_cons_ok, ih]
          | error e =>
              rw [reach_of_error hconvert, converted_of_error hconvert, ofPulls_cons_error,
                ofPulls_pulls_over]
              rfl

theorem pulls_fresh (h : result.hits.items = .ok hits) (n : Nat) :
    result.pulls n .fresh = result.pulls n (.before hits) := by
  cases n with
  | zero => rfl
  | succ n => rw [pulls, pulls, pull, pull, h]

theorem ofPulls_pulls_fresh (h : result.hits.items = .ok hits) (n : Nat) :
    Pass.ofPulls (result.pulls n .fresh) = result.take (some n) := by
  rw [pulls_fresh h, ofPulls_pulls_before, take_eq_converted h]
  rfl

/-! ## Iterations side by side -/

/-- What was given to one iteration. -/
def pullsOf (iteration : Nat) (record : List (Nat × Pull)) : List Pull :=
  (record.filter fun entry => entry.1 = iteration).map Prod.snd

theorem pullsOf_cons_self (i : Nat) (pull : Pull) (record : List (Nat × Pull)) :
    pullsOf i ((i, pull) :: record) = pull :: pullsOf i record := by
  simp [pullsOf]

theorem pullsOf_cons_of_ne {i j : Nat} (h : j ≠ i) (pull : Pull) (record : List (Nat × Pull)) :
    pullsOf i ((j, pull) :: record) = pullsOf i record := by
  simp [pullsOf, h]

/-- An iteration that is not started again goes on from where it is, whatever the others do. -/
theorem pullsOf_takeTurns (result : SearchResult) (iterations : Nat → Iteration) (i : Nat)
    {turns : List Turn} (h : Turn.start i ∉ turns) :
    pullsOf i (result.takeTurns iterations turns) =
      result.pulls (turns.count (.ask i)) (iterations i) := by
  -- on the turns; the state of every iteration is left open, since each turn changes one of them
  induction turns generalizing iterations with
  | nil => rfl
  | cons turn turns ih =>
      have hturns : Turn.start i ∉ turns := fun hmem => h (List.mem_cons_of_mem _ hmem)
      cases turn with
      | start j =>
          have hother : i ≠ j := by
            rintro rfl
            exact h List.mem_cons_self
          rw [takeTurns, ih _ hturns, if_neg hother, List.count_cons_of_ne]
          exact Turn.noConfusion
      | ask j =>
          rw [takeTurns]
          by_cases hsame : j = i
          · subst hsame
            rw [pullsOf_cons_self, ih _ hturns, if_pos rfl, List.count_cons_self, pulls]
          · have hask : Turn.ask j ≠ Turn.ask i := fun h => hsame (Turn.ask.inj h)
            rw [pullsOf_cons_of_ne hsame, ih _ hturns, if_neg (Ne.symm hsame),
              List.count_cons_of_ne hask]

/-- An iteration that is started gives what a fresh one gives, whatever was given before. -/
theorem pullsOf_start (result : SearchResult) (iterations : Nat → Iteration) (i : Nat)
    {turns : List Turn} (h : Turn.start i ∉ turns) :
    pullsOf i (result.takeTurns iterations (.start i :: turns)) =
      result.pulls (turns.count (.ask i)) .fresh := by
  rw [takeTurns, pullsOf_takeTurns result _ i h, if_pos rfl]

end SearchResult

/-! ## Iterations in a session -/

/-- Going through a result makes no call and leaves everything as it is. -/
theorem Session.run_iterate {σ : Type} (engine : Engine) (service : Service σ) (patience : Nat)
    {session : Session} {name : String} {result : SearchResult}
    (h : session.results.lookup name = some result) (passes : List (σ × Option Nat)) :
    session.run engine service patience (passes.map fun p => (p.1, .iterate name p.2)) =
      passes.map fun p => ⟨some (.ok (.pass (result.take p.2))), [], p.1, session, none⟩ := by
  induction passes with
  | nil => rfl
  | cons p passes ih =>
      have hstep : session.step engine service patience p.1 (.iterate name p.2) =
          ⟨some (.ok (.pass (result.take p.2))), [], p.1, session, none⟩ := by
        rw [step, known, h]
        rfl
      rw [List.map_cons, List.map_cons, run, hstep, ih]

/-- Every iteration over a result starts afresh, whatever was done with the result before. A pass
gives out the documents of the hits it is to go through, or those before the first hit that is no
document and then the error of that hit; it converts the hits it reaches that have a source, and no
others. As many pulls of a fresh iteration come to the same, more pulls than there are hits come to
a full pass, and iterations side by side do not see each other. Nothing is sent, and nothing is
changed. -/
theorem iterations_start_afresh {result : SearchResult} {hits : List Value}
    (h : result.hits.items = .ok hits) :
    (∀ limit pass, result.take limit = pass ↔
      result.Gives (SearchResult.wanted hits limit) pass) ∧
    (∀ n, Pass.ofPulls (result.pulls n .fresh) = result.take (some n)) ∧
    (∀ n, hits.length < n → Pass.ofPulls (result.pulls n .fresh) = result.take none) ∧
    (∀ iterations i turns, Turn.start i ∉ turns →
      SearchResult.pullsOf i (result.takeTurns iterations (.start i :: turns)) =
        result.pulls (turns.count (.ask i)) .fresh) ∧
    ∀ (σ : Type) (engine : Engine) (service : Service σ) patience (session : Session) name,
      session.results.lookup name = some result → ∀ passes : List (σ × Option Nat),
        session.run engine service patience (passes.map fun p => (p.1, .iterate name p.2)) =
          passes.map fun p => ⟨some (.ok (.pass (result.take p.2))), [], p.1, session, none⟩ := by
  refine ⟨SearchResult.take_eq_iff h, SearchResult.ofPulls_pulls_fresh h, fun n hn => ?_,
    fun iterations i turns => result.pullsOf_start iterations i, ?_⟩
  · have hall : hits.take n = hits := List.take_of_length_le (Nat.le_of_lt hn)
    rw [SearchResult.ofPulls_pulls_fresh h, SearchResult.take_eq_converted h,
      SearchResult.take_eq_converted h, SearchResult.wanted, SearchResult.wanted, hall]
  · intro σ engine service patience session name hkept passes
    exact Session.run_iterate engine service patience hkept passes

namespace Sample

def quayHit : Value := .single "_source" (.single "title" (.text "Quay"))

/-- A hit with a text where a point should be. -/
def astrayHit : Value := .single "_source" (.single "location" (.text "here"))

def pierHit : Value := .single "_source" (.single "title" (.text "Pier"))

def landings : SearchResult where
  schema := places.schema
  names := .engine
  hits := .list [quayHit, astrayHit, pierHit]
  total := .int 3

/-- A full pass over them ends at the second, and so does an iteration that is started over while
another one is under way. -/
theorem landings_start_afresh :
    (landings.hits.items = .ok [quayHit, astrayHit, pierHit] ∧
      ∃ pass, landings.take none = pass ∧ landings.Gives [quayHit, astrayHit, pierHit] pass ∧
        pass.documents.length = 1 ∧ pass.failure = some .notAnObject ∧ pass.conversions = 2) ∧
    (Turn.start 0 ∉ [.ask 0, .start 1, .ask 1, .ask 0, .ask 1] ∧
      SearchResult.pullsOf 0 (landings.takeTurns (fun _ => .over)
        [.start 0, .ask 0, .start 1, .ask 1, .ask 0, .ask 1]) = landings.pulls 2 .fresh) := by
  have hhits : landings.hits.items = .ok [quayHit, astrayHit, pierHit] := rfl
  have hturns : Turn.start 0 ∉ [.ask 0, .start 1, .ask 1, .ask 0, .ask 1] := by decide
  obtain ⟨hpasses, -, -, hturn, -⟩ := iterations_start_afresh hhits
  refine ⟨⟨hhits, _, rfl, (hpasses none _).mp rfl, rfl, rfl, rfl⟩, hturns, ?_⟩
  exact hturn (fun _ => .over) 0 _ hturns

end Sample

end DocSearch
