import DocSearch.Engine

/-!
# Sessions

A session is a run of steps on one engine. Builders, searches and results are kept under names that
the caller chooses. A step that fails keeps nothing new, so an older entry of the name stays, and
the steps after it go on as if it had not been there.
-/

namespace DocSearch

/-- What one step does to a builder. -/
inductive BuilderChange where
  | filter (condition : Condition)
  | sort (field direction : String)
  | limit (n : Int)
  | offset (n : Int)

def SearchBuilder.change (builder : SearchBuilder) : BuilderChange → Except Error SearchBuilder
  | .filter condition => .ok (builder.addFilter condition)
  | .sort field direction => builder.addSort field direction
  | .limit n => .ok (builder.setLimit n)
  | .offset n => .ok (builder.setOffset n)

/-- The entries of a session by name. -/
structure Session where
  builders : List (String × SearchBuilder) := []
  searches : List (String × Search) := []
  results : List (String × SearchResult) := []

namespace Session

variable {σ α : Type}

/-- `name` is the name under which a step keeps what it makes. -/
inductive Step where
  | save (index : String) (document : Value) (options : WriteOptions)
  | delete (index : String) (id : Value) (options : WriteOptions)
  | bulk (index : String) (job : BulkJob)
  | get (index : String) (id : Value)
  | newBuilder (index name : String)
  | change (builder : String) (change : BuilderChange)
  | buildSearch (builder name : String)
  | newSearch (index name : String) (filters : List Condition) (sorts : List (String × String))
      (limit offset : Int)
  | showSearch (search : String)
  | runSearch (search name : String)
  | runBuilder (builder name : String)
  | emptyResult (name : String)
  | iterate (result : String) (limit : Option Nat)

inductive Answer where
  | nothing
  | task (task : Option Task)
  | document (document : Value)
  /-- The search that a changed builder now stands for. -/
  | changed (search : Except Error Search)
  | search (search : Search)
  | total (total : Value)
  | pass (pass : Pass)

/-- What a step leaves. There is no result where a bulk job has run out of patience; `drawn` counts
what a bulk job has drawn from its two sources. -/
structure StepRun (σ : Type) where
  result : Option (Except Error Answer)
  calls : List Call
  state : σ
  session : Session
  drawn : Option (Nat × Nat) := none

def keepBuilder (session : Session) (name : String) (builder : SearchBuilder) : Session :=
  { session with builders := Keyed.put name builder session.builders }

def keepSearch (session : Session) (name : String) (search : Search) : Answer × Session :=
  (.search search, { session with searches := Keyed.put name search session.searches })

def keepResult (session : Session) (name : String) (found : SearchResult) : Answer × Session :=
  (.total found.total, { session with results := Keyed.put name found session.results })

/-- The entry kept under a name. -/
def known (name : String) (kept : List (String × α)) : Except Error α :=
  match kept.lookup name with
  | some a => .ok a
  | none => .error (.missingKey name)

/-- A step on its own entries, which makes no call. -/
def offline (session : Session) (state : σ) (result : Except Error (Answer × Session)) :
    StepRun σ :=
  match result with
  | .ok (answer, session) => ⟨some (.ok answer), [], state, session, none⟩
  | .error e => ⟨some (.error e), [], state, session, none⟩

/-- A step that is a single request. -/
def online (session : Session) (outcome : Outcome Call σ α) (keep : α → Answer × Session) :
    StepRun σ :=
  match outcome.result with
  | .ok a => ⟨some (.ok (keep a).1), outcome.calls, outcome.state, (keep a).2, none⟩
  | .error e => ⟨some (.error e), outcome.calls, outcome.state, session, none⟩

/-- Carry out one step; `patience` is the number of chunks that a bulk job may pull from a
stream. -/
def step (engine : Engine) (service : Service σ) (patience : Nat) (session : Session)
    (state : σ) : Step → StepRun σ
  | .save index document options =>
    session.online (service.run state (engine.save index document options))
      fun task => (.task task, session)
  | .delete index id options =>
    session.online (service.run state (engine.delete index id options))
      fun task => (.task task, session)
  | .bulk index job =>
    let run := engine.bulk service index job patience state
    ⟨run.result.map fun ended => ended.map .task, run.calls, run.state, session,
      some (run.saves.drawn, run.deletes.drawn)⟩
  | .get index id =>
    session.online (service.run state (engine.get index id))
      fun document => (.document document, session)
  | .newBuilder index name =>
    session.offline state do return (.nothing, session.keepBuilder name (← engine.builder index))
  | .change builder change =>
    session.offline state do
      let changed ← (← known builder session.builders).change change
      return (.changed changed.toSearch, session.keepBuilder builder changed)
  | .buildSearch builder name =>
    session.offline state do
      return session.keepSearch name (← (← known builder session.builders).toSearch)
  | .newSearch index name filters sorts limit offset =>
    session.offline state do
      let search ← Search.ofParts (← engine.index index) filters sorts limit offset
      return session.keepSearch name search
  | .showSearch search =>
    session.offline state do return (.search (← known search session.searches), session)
  | .runSearch search name =>
    session.online
      (service.run state do (← known search session.searches).request .engine)
      (session.keepResult name)
  | .runBuilder builder name =>
    session.online
      (service.run state do (← (← known builder session.builders).toSearch).request .engine)
      (session.keepResult name)
  | .emptyResult name =>
    session.offline state (.ok (session.keepResult name (.empty (.ofList []) .engine)))
  | .iterate result limit =>
    session.offline state do
      return (.pass ((← known result session.results).take limit), session)

/-- Carry out steps in order. Every step comes with the state in which it finds the service. -/
def run (engine : Engine) (service : Service σ) (patience : Nat) (session : Session) :
    List (σ × Step) → List (StepRun σ)
  | [] => []
  | (state, s) :: rest =>
    let done := session.step engine service patience state s
    done :: done.session.run engine service patience rest

end Session
end DocSearch
