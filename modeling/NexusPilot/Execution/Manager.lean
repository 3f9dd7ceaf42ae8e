import NexusPilot.Execution.Artifact
import NexusPilot.Execution.Lifecycle

/-!
# Managed executions

`ConnectionRuntimeManager` as far as managed SQL executions go: the commands `start_sql_execution`,
`cancel_sql_execution`, `release_sql_execution`, `close_tab_runtime` and `disconnect_profile`, the task
that a start spawns to run the statement and the control task that a cancellation spawns.

They share the coordinator and the artifact store, whose operations are atomic. Between two of these
operations anything may happen, so a call or task is a program counter with its local variables: a
`Phase` for a start and its task, which act for the execution whose id the start draws, and a `Call` for
the others. An `Event` is one operation of one of them, or the beginning of a call.

The driver and the file system answer what they like, through the events. What is taken from the
driver's code is that a `Raw` outcome carries the id of the artifact that its writer finished, and that
its writer is finished or dropped when it answers. `Uuid::new_v4` does not draw an id twice: an event
that would is void. The checks that `start` and `cancel` make before their first operation refuse the
call without an effect, which is no event.
-/

namespace Execution

open Drivers Machine

/-! ### A start and its task -/

/-- The artifact that an outcome names. -/
def SqlExecutionOutcome.artifactId? : SqlExecutionOutcome → Option String
  | .raw _ _ _ _ _ artifactId => some artifactId
  | _ => none

/-- The `RawArtifactWriter` inside the driver. -/
inductive Writer
  | absent
  | opened (artifactId : String)
  | finished (artifactId : String)

/-- The writer that the driver is handed. -/
def Writer.ofArtifact : Option String → Writer
  | some artifactId => .opened artifactId
  | none => .absent

/-- Where a start, and after `spawn` its task, stands: the operation that it makes next. -/
inductive Phase
  /-- `raw_artifacts.release_tab`, for a request with or without a raw result. -/
  | releaseTab (raw : Bool)
  /-- `raw_artifacts.start`. -/
  | create
  /-- `discard_tab`, before the start returns an error. -/
  | discard
  /-- `runtime.spawn`. -/
  | spawn (artifactId : Option String)
  /-- `transition` to `Running`. -/
  | transition (artifactId : Option String)
  /-- The drop of a writer, when the task returns without having called the driver. -/
  | drop (artifactId : String)
  /-- `execute_managed_sql`. -/
  | run (writer : Writer)
  /-- `complete_success`. -/
  | completeSuccess (outcome : SqlExecutionOutcome)
  /-- `release_execution`, before the task returns. -/
  | releaseExecution
  /-- `release_execution`, after the driver was cancelled. -/
  | canceled (error : IpcError)
  /-- `snapshot`, after the driver was cancelled. -/
  | readSnapshot (error : IpcError)
  /-- `release_execution`, after the driver failed. -/
  | failed (state : SqlExecutionState) (error : IpcError)
  /-- `complete_failure`. -/
  | completeFailure (state : SqlExecutionState) (error : IpcError)

/-- What the environment puts into the next operation of a task. -/
inductive TaskInput
  | proceed (now : ℕ) (stuck : String → Bool)
  | create (directory : Bool) (attempts : List (String × RawArtifactStore.Opened))
  | summary (summary : SqlExecutionSummary) (progressAvailable : Bool)
  | warning (message : String)
  | write (chunk : List UInt8) (written stuck : Bool)
  | finish (mode : RawArtifactPreviewMode) (flushed : Bool)
  | abort (stuck : Bool)
  | answer (result : IpcResult SqlExecutionOutcome)
  | unavailable (now : ℕ)

/-- The ids that an operation draws. -/
def TaskInput.ids : TaskInput → List String
  | .create _ attempts => attempts.map (·.1)
  | _ => []

/-- What the calls and tasks share. -/
structure Shared where
  coordinator : SqlExecutionCoordinator := {}
  artifacts : RawArtifactStore := {}

/-- A task that returns drops the writer that it still has. -/
def dropped : Option String → Option Phase
  | some artifactId => some (.drop artifactId)
  | none => none

/-- What the task does with the driver's answer. -/
def answered (writer : Writer) : IpcResult SqlExecutionOutcome → Phase
  | .ok outcome =>
    -- the id in a `Raw` outcome is the one in the descriptor that `finish` returned
    match outcome.artifactId?, writer with
    | none, _ => .completeSuccess outcome
    | some artifactId, .finished finishedId =>
      if artifactId = finishedId then .completeSuccess outcome else .run writer
    | some _, _ => .run writer
  | .error error =>
    if error.code = .operationCanceled then .canceled error
    else .failed (if error.code = .operationTimeout then .timedOut else .failed) error

/-- One operation of `execute_managed_sql`. -/
def driverStep (s : Shared) (owner : RawArtifactOwner) (writer : Writer) :
    TaskInput → Shared × Option Phase
  | .summary summary progressAvailable =>
    ({ s with
      coordinator :=
        (s.coordinator.updateSummary owner.tabId owner.executionId summary progressAvailable).2 },
      some (.run writer))
  | .warning message =>
    ({ s with
      coordinator := (s.coordinator.appendWarning owner.tabId owner.executionId message).2 },
      some (.run writer))
  | .write chunk written stuck =>
    match writer with
    | .opened artifactId =>
      ({ s with artifacts := (s.artifacts.writeChunk artifactId chunk written stuck).2 },
        some (.run writer))
    | _ => (s, some (.run writer))
  | .finish mode flushed =>
    match writer with
    | .opened artifactId =>
      match s.artifacts.finish artifactId mode flushed with
      | (.ok descriptor, artifacts) =>
        ({ s with artifacts := artifacts }, some (.run (.finished descriptor.artifactId)))
      | (.error _, artifacts) => ({ s with artifacts := artifacts }, some (.run .absent))
    | _ => (s, some (.run writer))
  | .abort stuck =>
    match writer with
    | .opened artifactId =>
      ({ s with artifacts := (s.artifacts.abortArtifact artifactId stuck).2 }, some (.run .absent))
    | _ => (s, some (.run writer))
  | .answer result =>
    match writer with
    | .opened _ => (s, some (.run writer))
    | _ => (s, some (answered writer result))
  | .unavailable now =>
    -- `as_managed_sql_executor` is asked before the driver has the writer
    match writer with
    | .finished _ => (s, some (.run writer))
    | .absent => (fail now, none)
    | .opened artifactId => (fail now, some (.drop artifactId))
  | _ => (s, some (.run writer))
where
  /-- The task fails because the driver has no executor any more. -/
  fail (now : ℕ) : Shared :=
    { s with
      coordinator := (s.coordinator.completeFailure owner.tabId owner.executionId .failed
        (.ofError (.notFound "Managed SQL executor became unavailable")) now).2 }

/-- The next operation of a start or of its task. -/
def taskStep (s : Shared) (owner : RawArtifactOwner) : Phase → TaskInput → Shared × Option Phase
  | .releaseTab raw, .proceed _ stuck =>
    match s.artifacts.releaseTab owner.tabId stuck with
    | (.error _, artifacts) => ({ s with artifacts := artifacts }, some .discard)
    | (.ok _, artifacts) =>
      ({ s with artifacts := artifacts }, some (if raw then .create else .spawn none))
  | .create, .create directory attempts =>
    match s.artifacts.start owner directory attempts with
    | (.error _, artifacts) => ({ s with artifacts := artifacts }, some .discard)
    | (.ok artifactId, artifacts) =>
      ({ s with artifacts := artifacts }, some (.spawn (some artifactId)))
  | .discard, .proceed _ _ =>
    ({ s with coordinator := (s.coordinator.discardTab owner.tabId).2 }, none)
  | .spawn artifactId, .proceed _ _ => (s, some (.transition artifactId))
  | .transition artifactId, .proceed now _ =>
    match s.coordinator.transition owner.tabId owner.executionId .running now with
    | (.error _, coordinator) => ({ s with coordinator := coordinator }, dropped artifactId)
    | (.ok _, coordinator) =>
      ({ s with coordinator := coordinator },
        some (.run (.ofArtifact artifactId)))
  | .drop artifactId, .proceed _ stuck =>
    ({ s with artifacts := (s.artifacts.abortArtifact artifactId (stuck artifactId)).2 }, none)
  | .run writer, input => driverStep s owner writer input
  | .completeSuccess outcome, .proceed now _ =>
    match s.coordinator.completeSuccess owner.tabId owner.executionId outcome now with
    | (.error _, coordinator) => ({ s with coordinator := coordinator }, some .releaseExecution)
    | (.ok _, coordinator) =>
      ({ s with coordinator := coordinator },
        if outcome.artifactId?.isSome then none else some .releaseExecution)
  | .releaseExecution, .proceed _ stuck =>
    ({ s with artifacts := (s.artifacts.releaseExecution owner stuck).2 }, none)
  | .canceled error, .proceed _ stuck =>
    ({ s with artifacts := (s.artifacts.releaseExecution owner stuck).2 }, some (.readSnapshot error))
  | .readSnapshot error, .proceed _ _ =>
    match s.coordinator.snapshot owner.tabId owner.executionId with
    | .ok snapshot =>
      -- a canceling execution is left to the control task
      (s, if snapshot.state = .canceling then none else some (.completeFailure .failed error))
    | .error _ => (s, none)
  | .failed state error, .proceed _ stuck =>
    ({ s with artifacts := (s.artifacts.releaseExecution owner stuck).2 },
      some (.completeFailure state error))
  | .completeFailure state error, .proceed now _ =>
    ({ s with
      coordinator := (s.coordinator.completeFailure owner.tabId owner.executionId state
        (.ofError error) now).2 }, none)
  | phase, _ => (s, some phase)

/-! ### The other calls -/

/-- Where a call or a control task stands: the operation that it makes next. -/
inductive Call
  /-- `begin_cancel`, after the look-up of `cancel_sql_execution`. -/
  | beginCancel (owner : RawArtifactOwner)
  /-- The control task: `cancel_managed_sql` and the operation that reports its answer. -/
  | control (owner : RawArtifactOwner)
  /-- `release_execution`, after the look-up of `release_sql_execution`. -/
  | releaseArtifact (owner : RawArtifactOwner)
  /-- `release_for_profile`. -/
  | releaseEntry (owner : RawArtifactOwner)
  /-- `release_tab`, after the `discard_tab` of `close_tab_runtime`. -/
  | closeTab (tabId : String)
  /-- `release_profile`, after the `discard_profile` of `disconnect_profile`. -/
  | disconnect (profileId : String)

/-- What the environment puts into the next operation of a call. -/
inductive CallInput
  | proceed (stuck : String → Bool)
  | confirmed (message : String) (now : ℕ)
  | unconfirmed (failure : SqlExecutionFailure) (now : ℕ)

/-- The next operation of a call or a control task. -/
def callStep (s : Shared) : Call → CallInput → Shared × Option Call
  | .beginCancel owner, .proceed _ =>
    match s.coordinator.beginCancel owner.tabId owner.executionId with
    | (.error _, coordinator) => ({ s with coordinator := coordinator }, none)
    | (.ok _, coordinator) => ({ s with coordinator := coordinator }, some (.control owner))
  | .control owner, .confirmed message now =>
    ({ s with
      coordinator :=
        (s.coordinator.completeCancel owner.tabId owner.executionId message now).2 }, none)
  | .control owner, .unconfirmed failure now =>
    -- `AlreadyFinished`, `Failed`, an error and a missing executor all end here
    ({ s with
      coordinator := (s.coordinator.completeFailure owner.tabId owner.executionId .cancelFailed
        failure now).2 }, none)
  | .releaseArtifact owner, .proceed stuck =>
    match s.artifacts.releaseExecution owner stuck with
    | (.error _, artifacts) => ({ s with artifacts := artifacts }, none)
    | (.ok _, artifacts) => ({ s with artifacts := artifacts }, some (.releaseEntry owner))
  | .releaseEntry owner, .proceed _ =>
    ({ s with
      coordinator := (s.coordinator.releaseForProfile owner.profileId owner.tabId
        owner.executionId).2 }, none)
  | .closeTab tabId, .proceed stuck =>
    ({ s with artifacts := (s.artifacts.releaseTab tabId stuck).2 }, none)
  | .disconnect profileId, .proceed stuck =>
    ({ s with artifacts := (s.artifacts.releaseProfile profileId stuck).2 }, none)
  | call, _ => (s, some call)

/-! ### The manager -/

/-- A start or its task. -/
structure Task where
  owner : RawArtifactOwner
  phase : Phase

/-- The manager, with the calls and tasks in progress. -/
structure Manager where
  shared : Shared := {}
  /-- By the execution id that the start drew. -/
  tasks : Table String Task := ∅
  calls : Table ℕ Call := ∅
  /-- How many calls there were. -/
  called : ℕ := 0
  /-- The ids drawn so far, with the execution they were drawn for. -/
  drawn : Table String RawArtifactOwner := ∅

/-- One operation, or the beginning of a call. -/
inductive Event
  | start (owner : RawArtifactOwner) (queryId : String) (statementClass : SqlStatementClass)
      (startedAt : ℕ) (raw : Bool)
  | cancel (owner : RawArtifactOwner)
  | release (owner : RawArtifactOwner)
  | closeTab (tabId : String)
  | disconnect (profileId : String)
  | task (executionId : String) (input : TaskInput)
  | call (n : ℕ) (input : CallInput)

namespace Manager

/-- The task of an execution, afterwards. -/
def setTask (tasks : Table String Task) (owner : RawArtifactOwner) (phase : Option Phase) :
    Table String Task :=
  match phase with
  | some phase => tasks.insert owner.executionId ⟨owner, phase⟩
  | none => tasks.erase owner.executionId

/-- A call, afterwards. -/
def setCall (calls : Table ℕ Call) (n : ℕ) (call : Option Call) : Table ℕ Call :=
  match call with
  | some call => calls.insert n call
  | none => calls.erase n

/-- A call that goes on after its first operation. -/
def begin (m : Manager) (call : Call) : Manager :=
  { m with calls := m.calls.insert m.called call, called := m.called + 1 }

/-- One event. -/
def step (event : Event) (m : Manager) : Manager :=
  match event with
  | .start owner queryId statementClass startedAt raw =>
    if (m.drawn.lookup owner.executionId).isSome then m
    else
      let m := { m with drawn := m.drawn.insert owner.executionId owner }
      match m.shared.coordinator.registerWithSink
          ⟨owner.profileId, owner.tabId, owner.executionId, queryId, statementClass, startedAt⟩ with
      | (.error _, _) => m
      | (.ok _, coordinator) =>
        { m with
          shared := { m.shared with coordinator := coordinator }
          tasks := setTask m.tasks owner (some (.releaseTab raw)) }
  | .cancel owner =>
    match m.shared.coordinator.snapshotForProfile owner.profileId owner.tabId owner.executionId with
    | .error _ => m
    | .ok snapshot =>
      if snapshot.state = .canceling then m else m.begin (.beginCancel owner)
  | .release owner =>
    match m.shared.coordinator.snapshotForProfile owner.profileId owner.tabId owner.executionId with
    | .error _ => m
    | .ok snapshot =>
      if isTerminal snapshot.state then m.begin (.releaseArtifact owner) else m
  | .closeTab tabId =>
    { m with
      shared := { m.shared with coordinator := (m.shared.coordinator.discardTab tabId).2 }
      }.begin (.closeTab tabId)
  | .disconnect profileId =>
    { m with
      shared := { m.shared with coordinator := (m.shared.coordinator.discardProfile profileId).2 }
      }.begin (.disconnect profileId)
  | .task executionId input =>
    match m.tasks.lookup executionId with
    | none => m
    | some task =>
      if input.ids.any fun id ↦ (m.drawn.lookup id).isSome then m
      else
        let (shared, phase) := taskStep m.shared task.owner task.phase input
        { m with
          shared := shared
          tasks := setTask m.tasks task.owner phase
          drawn := input.ids.foldl (fun drawn id ↦ drawn.insert id task.owner) m.drawn }
  | .call n input =>
    match m.calls.lookup n with
    | none => m
    | some call =>
      let (shared, call) := callStep m.shared call input
      { m with shared := shared, calls := setCall m.calls n call }

end Manager

/-- The manager after a list of events. -/
def Manager.reach (events : List Event) : Manager :=
  Machine.run Manager.step {} events

end Execution
