import DocSearch.Command.Run
import DocSearch.Proofs.Custody
import DocSearch.Proofs.Fallible

/-!
# Nothing is destroyed without consent

A run passes a number of gates, one behind the other, before its command starts: there is a command,
the schema loads, the settings are read, a client is made, the ping is answered, and a command that
destroys is confirmed. A run that is held up at a gate makes no call and changes nothing. Behind the
gates the command is an operation of a migrator. Only a confirmed command deletes, and the exit code
is 0 exactly where the operation came to its end and its answer could be printed.

Arguments are taken as they were read; help and usage errors end a run before the first gate.
-/

namespace DocSearch

open Fallible

/-! ## Commands as operations -/

/-- The operation that a command stands for, unless it destroys and is not confirmed. -/
def Command.operation? : Command → Option Migrator.Operation
  | .status => some .status
  | .create => some (.createAll true)
  | .drop true => some .dropAll
  | .recreate true => some .recreateAll
  | .drop false | .recreate false => none

/-- Why what is known about an index cannot be printed. -/
def IndexInfo.printError? (info : IndexInfo) : Option Error :=
  if info.present then
    (error? (Command.countText info.documents)).or (error? (Command.sizeText info.bytes))
  else none

/-- Why an answer cannot be printed. -/
def Migrator.Answer.printError? : Answer → Option Error
  | .status infos => infos.findSome? fun e => e.2.printError?
  | .info _ | .done _ | .results _ => none

/-- How a run ends when its command has ended. -/
def Ending.ofResult : Except Error Migrator.Answer → Ending
  | .error e => .raised (.document e)
  | .ok answer =>
    match answer.printError? with
    | some e => .raised (.document e)
    | none => .returned 0

/-- A creation that ends well says so. -/
theorem Migrator.eq_true_of_create {migrator : Migrator} {key : String} {skipExisting : Bool}
    {cluster : Cluster} {result : Bool}
    (h : (migrator.create key skipExisting cluster).result = .ok result) : result = true := by
  obtain ⟨index, -, h⟩ := Action.result_bind_eq_ok.mp h
  obtain ⟨present, -, h⟩ := Action.result_bind_eq_ok.mp h
  cases present with
  | true =>
      cases skipExisting with
      | true => exact (Except.ok.inj h).symm
      | false => cases h
  | false =>
      obtain ⟨properties, -, h⟩ := Action.result_bind_eq_ok.mp h
      obtain ⟨-, -, h⟩ := Action.result_bind_eq_ok.mp h
      exact (Except.ok.inj h).symm

namespace Command

theorem failure_infoLines (key : String) (info : IndexInfo) :
    (infoLines key info).2 = info.printError? := by
  rw [infoLines, IndexInfo.printError?]
  split
  · cases countText info.documents with
    | error e => rfl
    | ok documents =>
        cases sizeText info.bytes with
        | error e => rfl
        | ok size => rfl
  · rfl

theorem failure_statusLines (infos : List (String × IndexInfo)) :
    (statusLines infos).2 = (Migrator.Answer.status infos).printError? := by
  induction infos with
  | nil => rfl
  | cons e rest ih =>
      obtain ⟨key, info⟩ := e
      have hfirst : (infoLines key info).2 = info.printError? := failure_infoLines key info
      rw [statusLines]
      rw [Migrator.Answer.printError?] at ih ⊢
      rw [List.findSome?_cons, ← hfirst]
      obtain ⟨lines, failure⟩ := infoLines key info
      cases failure with
      | some e => rfl
      | none => exact ih

/-- A command that prints what an operation answers ends like the operation. -/
theorem conclude_eq {α : Type} (finish : α → (List String × Option Error) × Nat)
    (answer : α → Migrator.Answer) {action : Admin α} {cluster : Cluster}
    (hprint : ∀ a, (finish a).1.2 = (answer a).printError?)
    (hcode : ∀ a, (action cluster).result = .ok a → (finish a).2 = 0) (before : List String) :
    let outcome := (do return answer (← action) : Admin Migrator.Answer) cluster
    ∃ lines, conclude before cluster action finish =
      ⟨lines, .ofResult outcome.result, [], outcome.calls, outcome.state⟩ := by
  intro outcome
  cases hresult : (action cluster).result with
  | error e =>
      have houtcome : outcome = ⟨.error e, (action cluster).calls, (action cluster).state⟩ :=
        Action.bind_of_result_error hresult
      rw [houtcome, conclude, hresult]
      exact ⟨before, rfl⟩
  | ok a =>
      have houtcome : outcome =
          ⟨.ok (answer a), (action cluster).calls ++ [], (action cluster).state⟩ :=
        Action.bind_of_result_ok hresult
      rw [houtcome, conclude, hresult, Ending.ofResult, ← hprint a, List.append_nil]
      dsimp only
      have hzero : (finish a).2 = 0 := hcode a hresult
      generalize finish a = finished at hzero ⊢
      obtain ⟨⟨lines, failure⟩, code⟩ := finished
      obtain rfl : code = 0 := hzero
      exact ⟨before ++ lines, rfl⟩

/-- Creating indexes never ends with a result of false. -/
theorem all_of_createAll {migrator : Migrator} {skipExisting : Bool} {cluster : Cluster}
    {results : List (String × Bool)}
    (h : (migrator.createAll skipExisting cluster).result = .ok results) :
    results.all Prod.snd = true := by
  rw [List.all_eq_true]
  refine Action.forall_mem_of_each (fun e cluster result hresult => ?_) h
  obtain ⟨created, hcreated, hresult⟩ := Action.result_bind_eq_ok.mp hresult
  obtain rfl := Except.ok.inj hresult
  exact Migrator.eq_true_of_create hcreated

/-- Behind the gates a command ends as the operation that it stands for. -/
theorem perform_eq {command : Command} {operation : Migrator.Operation}
    (h : command.operation? = some operation) (migrator : Migrator) (cluster : Cluster) :
    let outcome := migrator.perform operation cluster
    ∃ lines, perform migrator cluster command =
      ⟨lines, .ofResult outcome.result, [], outcome.calls, outcome.state⟩ := by
  cases command with
  | status =>
      obtain rfl := Option.some.inj h
      exact conclude_eq (fun infos => (statusLines infos, 0)) .status failure_statusLines
        (fun _ _ => rfl) _
  | create =>
      obtain rfl := Option.some.inj h
      refine conclude_eq
        (fun results => ((resultLines results, none), if results.all Prod.snd then 0 else 1))
        .results (fun _ => rfl) (fun results hresults => ?_) _
      exact if_pos (all_of_createAll hresults)
  | drop confirmed =>
      cases confirmed with
      | false => cases h
      | true =>
          obtain rfl := Option.some.inj h
          exact conclude_eq (fun results => ((resultLines results, none), 0)) .results
            (fun _ => rfl) (fun _ _ => rfl) _
  | recreate confirmed =>
      cases confirmed with
      | false => cases h
      | true =>
          obtain rfl := Option.some.inj h
          exact conclude_eq (fun results => ((resultLines results, none), 0)) .results
            (fun _ => rfl) (fun _ _ => rfl) _

end Command

/-! ## The gates of a run -/

section
variable (surroundings : Surroundings) (refusal? : ClientConfig → Option String)

/-- The gates in front of every command have been passed. -/
structure Admitted (schema : Option String) (indexes : Indexes) (client : ClientConfig) : Prop where
  loaded : ∃ path, schema = some path ∧ surroundings.catalog.load path = .ok indexes
  settled : ∃ settings, Settings.ofEnvironment surroundings.environment {} = .ok settings ∧
    settings.client = .ok client
  made : refusal? client = none
  answered : ∃ answer, surroundings.ping = .ok answer ∧ answer.truthy = true

/-- Why a run has no connection to the service, with the clients that have been made by then. -/
inductive Unconnected (settings : Settings) : List ClientConfig → Prop where
  | unconfigured {e : ConnectionError} : settings.client = .error e → Unconnected settings []
  | refused {client : ClientConfig} {text : String} : settings.client = .ok client →
      refusal? client = some text → Unconnected settings []
  | pingFailed {client : ClientConfig} {fault : Fault} : settings.client = .ok client →
      refusal? client = none → surroundings.ping = .error fault → Unconnected settings [client]
  | unanswered {client : ClientConfig} {answer : Value} : settings.client = .ok client →
      refusal? client = none → surroundings.ping = .ok answer → answer.truthy = false →
      Unconnected settings [client]

/-- How a run is held up at a gate, with the clients that have been made by then. -/
inductive HeldUp : Option String → Option Command → Ending → List ClientConfig → Prop where
  | noCommand (schema : Option String) : HeldUp schema none (.returned 1) []
  | noSchema (command : Command) : HeldUp none (some command) (.raised (.catalog .noPath)) []
  | unloadable {path : String} {command : Command} {e : CatalogError} :
      surroundings.catalog.load path = .error e →
      HeldUp (some path) (some command) (.raised (.catalog e)) []
  | unsettled {path : String} {command : Command} {indexes : Indexes} {e : ConnectionError} :
      surroundings.catalog.load path = .ok indexes →
      Settings.ofEnvironment surroundings.environment {} = .error e →
      HeldUp (some path) (some command) (.raised (.connection e)) []
  | unconnected {path : String} {command : Command} {indexes : Indexes} {settings : Settings}
      {clients : List ClientConfig} : surroundings.catalog.load path = .ok indexes →
      Settings.ofEnvironment surroundings.environment {} = .ok settings →
      Unconnected surroundings refusal? settings clients →
      HeldUp (some path) (some command) (.returned 1) clients
  | unconfirmed {schema : Option String} {command : Command} {indexes : Indexes}
      {client : ClientConfig} : Admitted surroundings refusal? schema indexes client →
      command.operation? = none → HeldUp schema (some command) (.returned 1) [client]

/-- The gates have been passed, and the command stands for an operation. -/
structure Starts (schema : Option String) (command : Option Command) (indexes : Indexes)
    (client : ClientConfig) (operation : Migrator.Operation) : Prop where
  admitted : Admitted surroundings refusal? schema indexes client
  stands : command.bind Command.operation? = some operation

end

namespace Command

variable {surroundings : Surroundings} {refusal? : ClientConfig → Option String}
variable {arguments : List String} {schema : Option String} {command : Option Command}

theorem run_of_settings {path : String} {command : Command} {indexes : Indexes}
    {settings : Settings}
    (h : Arguments.parse arguments = .run (some path) (some command))
    (hload : surroundings.catalog.load path = .ok indexes)
    (hsettings : Settings.ofEnvironment surroundings.environment {} = .ok settings) :
    run surroundings arguments refusal? =
      runWith surroundings refusal? indexes settings command := by
  simp only [run, h, hload, hsettings]

theorem runWith_of_unconnected {settings : Settings} {clients : List ClientConfig}
    (h : Unconnected surroundings refusal? settings clients) (indexes : Indexes)
    (command : Command) : ∃ lines, runWith surroundings refusal? indexes settings command =
      ⟨lines, .returned 1, clients, [], surroundings.cluster⟩ := by
  cases h with
  | unconfigured hclient =>
      simp only [runWith, hclient]
      exact ⟨_, rfl⟩
  | refused hclient htext =>
      simp only [runWith, hclient, htext]
      exact ⟨_, rfl⟩
  | pingFailed hclient hmade hping =>
      simp only [runWith, hclient, hmade, hping]
      exact ⟨_, rfl⟩
  | unanswered hclient hmade hping hfalse =>
      cases hurl : settings.url.display? with
      | none =>
          simp only [runWith, hclient, hmade, hping, hurl]
          exact ⟨_, rfl⟩
      | some url =>
          simp only [runWith, hclient, hmade, hping, hurl, hfalse]
          exact ⟨_, rfl⟩

/-- The address that is set in the environment is a text, so it can be written. -/
theorem exists_display?_url {environment : Environment} {settings : Settings}
    (h : Settings.ofEnvironment environment {} = .ok settings) :
    ∃ url, settings.url.display? = some url := by
  obtain ⟨timeout, -, hsettings⟩ := bind_eq_ok.mp h
  rw [← Except.ok.inj hsettings]
  exact ⟨_, rfl⟩

/-- Behind the gates a run is its command. -/
theorem run_of_admitted {command : Command} {indexes : Indexes} {client : ClientConfig}
    (h : Arguments.parse arguments = .run schema (some command))
    (hadmitted : Admitted surroundings refusal? schema indexes client) :
    let report := perform ⟨indexes⟩ surroundings.cluster command
    ∃ lines, run surroundings arguments refusal? =
      ⟨lines, report.ending, [client], report.calls, report.cluster⟩ := by
  obtain ⟨path, rfl, hload⟩ := hadmitted.loaded
  obtain ⟨settings, hsettings, hclient⟩ := hadmitted.settled
  obtain ⟨answer, hping, htruthy⟩ := hadmitted.answered
  obtain ⟨url, hurl⟩ := exists_display?_url hsettings
  rw [run_of_settings h hload hsettings]
  simp only [runWith, hclient, hadmitted.made, hping, hurl, htruthy]
  exact ⟨_, rfl⟩

/-- A command that stands for no operation is turned away. -/
theorem perform_of_none {command : Command} (h : command.operation? = none) (migrator : Migrator)
    (cluster : Cluster) : ∃ lines, perform migrator cluster command =
      ⟨lines, .returned 1, [], [], cluster⟩ := by
  cases command with
  | status | create => cases h
  | drop confirmed | recreate confirmed =>
      cases confirmed with
      | true => cases h
      | false => exact ⟨_, rfl⟩

/-- A run that is held up makes no call and changes nothing. -/
theorem run_of_heldUp (h : Arguments.parse arguments = .run schema command) {ending : Ending}
    {clients : List ClientConfig}
    (hheld : HeldUp surroundings refusal? schema command ending clients) :
    ∃ lines, run surroundings arguments refusal? =
      ⟨lines, ending, clients, [], surroundings.cluster⟩ := by
  cases hheld with
  | noCommand _ | noSchema _ =>
      simp only [run, h]
      exact ⟨_, rfl⟩
  | unloadable hload =>
      simp only [run, h, hload]
      exact ⟨_, rfl⟩
  | unsettled hload hsettings =>
      simp only [run, h, hload, hsettings]
      exact ⟨_, rfl⟩
  | unconnected hload hsettings hunconnected =>
      rw [run_of_settings h hload hsettings]
      exact runWith_of_unconnected hunconnected _ _
  | unconfirmed hadmitted hnone =>
      obtain ⟨lines, hrun⟩ := run_of_admitted h hadmitted
      obtain ⟨_, hperform⟩ := perform_of_none hnone _ surroundings.cluster
      rw [hperform] at hrun
      exact ⟨lines, hrun⟩

theorem run_of_starts (h : Arguments.parse arguments = .run schema command) {indexes : Indexes}
    {client : ClientConfig} {operation : Migrator.Operation}
    (hstarts : Starts surroundings refusal? schema command indexes client operation) :
    let outcome := Migrator.perform ⟨indexes⟩ operation surroundings.cluster
    ∃ lines, run surroundings arguments refusal? =
      ⟨lines, .ofResult outcome.result, [client], outcome.calls, outcome.state⟩ := by
  obtain ⟨c, rfl, hoperation⟩ := Option.bind_eq_some_iff.mp hstarts.stands
  obtain ⟨lines, hrun⟩ := run_of_admitted h hstarts.admitted
  obtain ⟨_, hperform⟩ := perform_eq hoperation ⟨indexes⟩ surroundings.cluster
  rw [hperform] at hrun
  exact ⟨lines, hrun⟩

theorem unconnected_or_admitted {path : String} {indexes : Indexes} {settings : Settings}
    (hload : surroundings.catalog.load path = .ok indexes)
    (hsettings : Settings.ofEnvironment surroundings.environment {} = .ok settings)
    (refusal? : ClientConfig → Option String) :
    (∃ clients, Unconnected surroundings refusal? settings clients) ∨
      ∃ client, Admitted surroundings refusal? (some path) indexes client := by
  cases hclient : settings.client with
  | error e => exact .inl ⟨[], .unconfigured hclient⟩
  | ok client =>
      cases hmade : refusal? client with
      | some text => exact .inl ⟨[], .refused hclient hmade⟩
      | none =>
          cases hping : surroundings.ping with
          | error fault => exact .inl ⟨[client], .pingFailed hclient hmade hping⟩
          | ok answer =>
              cases htruthy : answer.truthy with
              | false => exact .inl ⟨[client], .unanswered hclient hmade hping htruthy⟩
              | true =>
                  exact .inr ⟨client, ⟨path, rfl, hload⟩, ⟨settings, hsettings, hclient⟩, hmade,
                    answer, hping, htruthy⟩

/-- A run is held up or starts its command. -/
theorem heldUp_or_starts (surroundings : Surroundings) (refusal? : ClientConfig → Option String)
    (schema : Option String) (command : Option Command) :
    (∃ ending clients, HeldUp surroundings refusal? schema command ending clients) ∨
      ∃ indexes client operation,
        Starts surroundings refusal? schema command indexes client operation := by
  match schema, command with
  | schema, none => exact .inl ⟨_, _, .noCommand schema⟩
  | none, some command => exact .inl ⟨_, _, .noSchema command⟩
  | some path, some command =>
      cases hload : surroundings.catalog.load path with
      | error e => exact .inl ⟨_, _, .unloadable hload⟩
      | ok indexes =>
          cases hsettings : Settings.ofEnvironment surroundings.environment {} with
          | error e => exact .inl ⟨_, _, .unsettled hload hsettings⟩
          | ok settings =>
              rcases unconnected_or_admitted hload hsettings refusal? with
                ⟨clients, hunconnected⟩ | ⟨client, hadmitted⟩
              · exact .inl ⟨_, clients, .unconnected hload hsettings hunconnected⟩
              · cases hoperation : command.operation? with
                | none => exact .inl ⟨_, _, .unconfirmed hadmitted hoperation⟩
                | some operation => exact .inr ⟨indexes, client, operation, hadmitted, hoperation⟩

/-- A run comes to its end at a gate or in its command. -/
theorem run_cases (surroundings : Surroundings) (refusal? : ClientConfig → Option String)
    (h : Arguments.parse arguments = .run schema command) :
    (∃ ending clients lines, HeldUp surroundings refusal? schema command ending clients ∧
      run surroundings arguments refusal? =
        ⟨lines, ending, clients, [], surroundings.cluster⟩) ∨
    ∃ indexes client operation lines,
      Starts surroundings refusal? schema command indexes client operation ∧
      let outcome := Migrator.perform ⟨indexes⟩ operation surroundings.cluster
      run surroundings arguments refusal? =
        ⟨lines, .ofResult outcome.result, [client], outcome.calls, outcome.state⟩ := by
  rcases heldUp_or_starts surroundings refusal? schema command with
    ⟨ending, clients, hheld⟩ | ⟨indexes, client, operation, hstarts⟩
  · obtain ⟨lines, hrun⟩ := run_of_heldUp h hheld
    exact .inl ⟨ending, clients, lines, hheld, hrun⟩
  · obtain ⟨lines, hrun⟩ := run_of_starts h hstarts
    exact .inr ⟨indexes, client, operation, lines, hstarts, hrun⟩

end Command

/-! ## Operations that destroy nothing -/

/-- Calls that look, and those that create an index that is configured and absent. -/
inductive Migrator.Adds (migrator : Migrator) (cluster : Cluster) : AdminCall → Prop where
  | exists (name : String) : Adds migrator cluster (.exists name)
  | stats (name : String) : Adds migrator cluster (.stats name)
  | create {name : String} {properties : List (String × Mapping)} :
      name ∈ indexNames migrator.indexes.entries → name ∉ cluster.existing →
      Adds migrator cluster (.create name properties)

/-- The cluster with some further indexes out of `names`, each of which was absent. -/
def Cluster.GrowsWithin (start : Cluster) (names : List String) (final : Cluster) : Prop :=
  ∃ created : List String, created.Nodup ∧
    (∀ name ∈ created, name ∈ names ∧ name ∉ start.existing) ∧
    final = { start with existing := start.existing ++ created }

namespace Migrator

variable {migrator : Migrator} {start cluster : Cluster}

theorem Adds.growsWithin {call : AdminCall} (h : migrator.Adds cluster call)
    (hstart : start.GrowsWithin (indexNames migrator.indexes.entries) cluster) :
    start.GrowsWithin (indexNames migrator.indexes.entries) (cluster.after call) := by
  unfold Cluster.after
  split
  · exact hstart
  · cases h with
    | «exists» _ | stats _ => exact hstart
    | @create name _ hname habsent =>
        obtain ⟨created, hnodup, hcreated, rfl⟩ := hstart
        rw [List.mem_append, not_or] at habsent
        refine ⟨created ++ [name], ?_, ?_, ?_⟩
        · have hother : ∀ other ∈ created, other ≠ name :=
            fun _ hmem => ne_of_mem_of_not_mem hmem habsent.2
          simpa [List.nodup_append, hnodup] using hother
        · intro other hother
          rcases List.mem_append.mp hother with hbefore | hnew
          · exact hcreated other hbefore
          · rw [List.mem_singleton.mp hnew]
            exact ⟨hname, habsent.1⟩
        · have hnot : name ∉ start.existing ++ created := by
            rw [List.mem_append, not_or]
            exact habsent
          simp only [Cluster.add, if_neg hnot, List.append_assoc]

theorem perform_status_adds (migrator : Migrator) (cluster : Cluster) :
    (migrator.perform .status).KeepsTo migrator.Adds cluster :=
  (migrator.status_keepsTo (fun _ => .exists) (fun _ name _ => .stats name) cluster).map _

theorem perform_createAll_adds (migrator : Migrator) (skipExisting : Bool) (cluster : Cluster) :
    (migrator.perform (.createAll skipExisting)).KeepsTo migrator.Adds cluster := by
  have hcreate (cluster : Cluster) (e : String × Index) (he : e ∈ migrator.indexes.entries)
      (properties : List (String × Mapping)) (habsent : e.2.name ∉ cluster.existing)
      (_ : e.2.mappings = .ok properties) :
      migrator.Adds cluster (.create e.2.name properties) :=
    .create (List.mem_map_of_mem he) habsent
  exact (createAll_keepsTo (fun _ => .exists) hcreate skipExisting cluster).map _

/-- Where everything adds, nothing is deleted. -/
theorem not_delete_of_adds {calls : List AdminCall} {final : Cluster}
    (h : Guarded migrator.Adds cluster calls final) (name : String) : .delete name ∉ calls := by
  intro hdelete
  obtain ⟨before, rest, hsplit⟩ := List.append_of_mem hdelete
  cases h.allowed_at hsplit

theorem growsWithin_of_adds {calls : List AdminCall} {final : Cluster}
    (h : Guarded migrator.Adds cluster calls final) :
    cluster.GrowsWithin (indexNames migrator.indexes.entries) final := by
  refine h.invariant (fun _ _ hcall hgrown => hcall.growsWithin hgrown) ?_
  exact ⟨[], List.nodup_nil, fun _ h => absurd h List.not_mem_nil, by rw [List.append_nil]⟩

end Migrator

/-! ## Consent -/

section
variable (surroundings : Surroundings) (refusal? : ClientConfig → Option String)
variable (schema : Option String) (command : Option Command)

/-- The command destroys, is confirmed, and has got through to the service. -/
def Consent : Prop :=
  (command = some (.drop true) ∨ command = some (.recreate true)) ∧
    ∃ indexes client, Admitted surroundings refusal? schema indexes client

/-- The command has come to its end, and what it has to say can be printed. -/
def Finishes : Prop :=
  ∃ indexes client operation answer,
    Starts surroundings refusal? schema command indexes client operation ∧
    (Migrator.perform ⟨indexes⟩ operation surroundings.cluster).result = .ok answer ∧
    answer.printError? = none

end

variable {surroundings : Surroundings} {refusal? : ClientConfig → Option String}
variable {arguments : List String} {schema : Option String} {command : Option Command}

theorem HeldUp.ending_cases {ending : Ending} {clients : List ClientConfig}
    (h : HeldUp surroundings refusal? schema command ending clients) :
    ending = .returned 1 ∨ ∃ e, ending = .raised e := by
  cases h with
  | noCommand _ | unconnected _ _ _ | unconfirmed _ _ => exact .inl rfl
  | noSchema _ | unloadable _ | unsettled _ _ => exact .inr ⟨_, rfl⟩

theorem Ending.ofResult_cases (result : Except Error Migrator.Answer) :
    (∃ answer, result = .ok answer ∧ answer.printError? = none ∧ ofResult result = .returned 0) ∨
      ∃ e, ofResult result = .raised (.document e) := by
  cases result with
  | error e => exact .inr ⟨e, rfl⟩
  | ok answer =>
      rw [ofResult]
      cases hprint : answer.printError? with
      | some e => exact .inr ⟨e, rfl⟩
      | none => exact .inl ⟨answer, rfl, hprint, rfl⟩

/-- What is started without consent is a look at the indexes or a creation. -/
theorem Starts.cases {indexes : Indexes} {client : ClientConfig} {operation : Migrator.Operation}
    (h : Starts surroundings refusal? schema command indexes client operation) :
    Consent surroundings refusal? schema command ∨
      command = some .status ∧ operation = .status ∨
      command = some .create ∧ operation = .createAll true := by
  have hadmitted := h.admitted
  obtain ⟨c, rfl, hoperation⟩ := Option.bind_eq_some_iff.mp h.stands
  cases c with
  | status => exact .inr (.inl ⟨rfl, (Option.some.inj hoperation).symm⟩)
  | create => exact .inr (.inr ⟨rfl, (Option.some.inj hoperation).symm⟩)
  | drop confirmed =>
      cases confirmed with
      | false => cases hoperation
      | true => exact .inl ⟨.inl rfl, indexes, client, hadmitted⟩
  | recreate confirmed =>
      cases confirmed with
      | false => cases hoperation
      | true => exact .inl ⟨.inr rfl, indexes, client, hadmitted⟩

namespace Command

theorem consent_of_delete (h : Arguments.parse arguments = .run schema command) {name : String}
    (hdelete : .delete name ∈ (run surroundings arguments refusal?).calls) :
    Consent surroundings refusal? schema command := by
  rcases run_cases surroundings refusal? h with
    ⟨ending, clients, lines, -, hrun⟩ | ⟨indexes, client, operation, lines, hstarts, hrun⟩
  · rw [hrun] at hdelete
    cases hdelete
  · rw [hrun] at hdelete
    rcases hstarts.cases with hconsent | ⟨-, rfl⟩ | ⟨-, rfl⟩
    · exact hconsent
    · have hadds := Migrator.perform_status_adds ⟨indexes⟩ surroundings.cluster
      exact absurd hdelete (Migrator.not_delete_of_adds hadds name)
    · have hadds := Migrator.perform_createAll_adds ⟨indexes⟩ true surroundings.cluster
      exact absurd hdelete (Migrator.not_delete_of_adds hadds name)

theorem cluster_without_consent (h : Arguments.parse arguments = .run schema command)
    (hconsent : ¬ Consent surroundings refusal? schema command) :
    (run surroundings arguments refusal?).cluster = surroundings.cluster ∨
      command = some .create ∧ ∃ indexes client,
        Admitted surroundings refusal? schema indexes client ∧
        surroundings.cluster.GrowsWithin (indexNames indexes.entries)
          (run surroundings arguments refusal?).cluster := by
  rcases run_cases surroundings refusal? h with
    ⟨ending, clients, lines, -, hrun⟩ | ⟨indexes, client, operation, lines, hstarts, hrun⟩
  · rw [hrun]
    exact .inl rfl
  · rw [hrun]
    rcases hstarts.cases with hgiven | ⟨-, rfl⟩ | ⟨hcreate, rfl⟩
    · exact absurd hgiven hconsent
    · have hlooks : Migrator.OnlyLooks ⟨indexes⟩ .status := trivial
      exact .inl (Migrator.state_of_onlyLooks hlooks surroundings.cluster)
    · have hadds := Migrator.perform_createAll_adds ⟨indexes⟩ true surroundings.cluster
      exact .inr ⟨hcreate, indexes, client, hstarts.admitted, Migrator.growsWithin_of_adds hadds⟩

theorem returned_zero_iff (h : Arguments.parse arguments = .run schema command) :
    (run surroundings arguments refusal?).ending = .returned 0 ↔
      Finishes surroundings refusal? schema command := by
  constructor
  · intro hzero
    rcases run_cases surroundings refusal? h with
      ⟨ending, clients, lines, hheld, hrun⟩ | ⟨indexes, client, operation, lines, hstarts, hrun⟩
    · rw [hrun] at hzero
      rcases hheld.ending_cases with rfl | ⟨e, rfl⟩
      · cases hzero
      · cases hzero
    · rw [hrun] at hzero
      rcases Ending.ofResult_cases
        (Migrator.perform ⟨indexes⟩ operation surroundings.cluster).result with
        ⟨answer, hanswer, hprint, -⟩ | ⟨e, hraised⟩
      · exact ⟨indexes, client, operation, answer, hstarts, hanswer, hprint⟩
      · cases hzero.symm.trans hraised
  · rintro ⟨indexes, client, operation, answer, hstarts, hanswer, hprint⟩
    obtain ⟨lines, hrun⟩ := run_of_starts h hstarts
    rw [hrun, hanswer, Ending.ofResult, hprint]

end Command

/-- Nothing is destroyed without consent. A run that is held up at a gate ends as the gate says,
without a call, and everything stays as it is; any other run is the operation that its command
stands for, on the cluster that it found. So a delete is only called for by a confirmed command
that destroys, behind all gates, and without that the cluster is as before, or a creation has added
configured indexes that were absent. The exit code is 0 exactly if the operation comes to its end and
its answer can be printed; what goes wrong in it is raised behind the calls made so far. -/
theorem destroys_only_with_consent (surroundings : Surroundings)
    (refusal? : ClientConfig → Option String) {arguments : List String} {schema : Option String}
    {command : Option Command} (h : Arguments.parse arguments = .run schema command) :
    let report := Command.run surroundings arguments refusal?
    ((∃ ending clients, HeldUp surroundings refusal? schema command ending clients) ∨
      ∃ indexes client operation,
        Starts surroundings refusal? schema command indexes client operation) ∧
    (∀ ending clients, HeldUp surroundings refusal? schema command ending clients →
      report.ending = ending ∧ report.clients = clients ∧ report.calls = [] ∧
        report.cluster = surroundings.cluster) ∧
    (∀ indexes client operation,
      Starts surroundings refusal? schema command indexes client operation →
        let outcome := Migrator.perform ⟨indexes⟩ operation surroundings.cluster
        report.ending = .ofResult outcome.result ∧ report.clients = [client] ∧
          report.calls = outcome.calls ∧ report.cluster = outcome.state) ∧
    (∀ name, .delete name ∈ report.calls → Consent surroundings refusal? schema command) ∧
    (¬ Consent surroundings refusal? schema command → report.cluster = surroundings.cluster ∨
      command = some .create ∧ ∃ indexes client,
        Admitted surroundings refusal? schema indexes client ∧
        surroundings.cluster.GrowsWithin (indexNames indexes.entries) report.cluster) ∧
    (report.ending = .returned 0 ↔ Finishes surroundings refusal? schema command) := by
  intro report
  refine ⟨Command.heldUp_or_starts surroundings refusal? schema command, ?_, ?_,
    fun _ => Command.consent_of_delete h, Command.cluster_without_consent h,
    Command.returned_zero_iff h⟩
  · intro ending clients hheld
    obtain ⟨lines, hrun⟩ := Command.run_of_heldUp h hheld
    have hreport : report = ⟨lines, ending, clients, [], surroundings.cluster⟩ := hrun
    rw [hreport]
    exact ⟨rfl, rfl, rfl, rfl⟩
  · intro indexes client operation hstarts outcome
    obtain ⟨lines, hrun⟩ := Command.run_of_starts h hstarts
    have hreport : report =
        ⟨lines, .ofResult outcome.result, [client], outcome.calls, outcome.state⟩ := hrun
    rw [hreport]
    exact ⟨rfl, rfl, rfl, rfl⟩

namespace Sample

/-- A waterfront with the indexes of the shore, and a service that answers. -/
def waterfront : Surroundings where
  catalog := ⟨[("harbour", [("INDEXES", shore.indexes)])]⟩
  environment := [("ES_URL", "http://es:9200")]
  ping := .ok (.bool true)
  cluster := yard

/-- Without the flag the waterfront stays as it is; with it the places are deleted. -/
theorem waterfront_asks_for_consent :
    (Arguments.parse ["--schema", "harbour:INDEXES", "drop"] =
        .run (some "harbour:INDEXES") (some (.drop false)) ∧
      ¬ Consent waterfront (fun _ => none) (some "harbour:INDEXES") (some (.drop false)) ∧
      (Command.run waterfront ["--schema", "harbour:INDEXES", "drop"]).cluster = yard) ∧
    Arguments.parse ["--schema", "harbour:INDEXES", "drop", "--confirm"] =
        .run (some "harbour:INDEXES") (some (.drop true)) ∧
      let report := Command.run waterfront ["--schema", "harbour:INDEXES", "drop", "--confirm"]
      Consent waterfront (fun _ => none) (some "harbour:INDEXES") (some (.drop true)) ∧
        report.calls = [.exists "piers", .exists "places", .delete "places"] ∧
        report.ending = .returned 0 := by
  have hdrop : Arguments.parse ["--schema", "harbour:INDEXES", "drop"] =
      .run (some "harbour:INDEXES") (some (.drop false)) := by decide
  have hconfirmed : Arguments.parse ["--schema", "harbour:INDEXES", "drop", "--confirm"] =
      .run (some "harbour:INDEXES") (some (.drop true)) := by decide
  have hconsent :
      ¬ Consent waterfront (fun _ => none) (some "harbour:INDEXES") (some (.drop false)) := by
    rintro ⟨h | h, -⟩ <;> cases h
  refine ⟨⟨hdrop, hconsent, ?_⟩, hconfirmed, ?_⟩
  · obtain ⟨-, -, -, -, hcluster, -⟩ :=
      destroys_only_with_consent waterfront (fun _ => none) hdrop
    rcases hcluster hconsent with hsame | ⟨hcreate, -⟩
    · exact hsame
    · cases hcreate
  · have hadmitted : Admitted waterfront (fun _ => none) (some "harbour:INDEXES") shore.indexes
        { host := .text "http://es:9200", verifyCerts := some (.bool true),
          timeout := some (.int 30) } :=
      ⟨⟨_, rfl, rfl⟩, ⟨_, rfl, rfl⟩, rfl, _, rfl, rfl⟩
    obtain ⟨-, -, hstarted, hdelete, -, hzero⟩ :=
      destroys_only_with_consent waterfront (fun _ => none) hconfirmed
    obtain ⟨-, -, hcalls, -⟩ := hstarted _ _ .dropAll ⟨hadmitted, rfl⟩
    refine ⟨hdelete "places" ?_, hcalls, hzero.mpr ⟨_, _, _, _, ⟨hadmitted, rfl⟩, rfl, rfl⟩⟩
    rw [hcalls]
    exact .tail _ (.tail _ (.head _))

end Sample

end DocSearch
