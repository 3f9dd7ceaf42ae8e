import NexusPilot.Drivers.ChangeSet
import NexusPilot.Machine.Table
import NexusPilot.Text.Std

/-!
# The coordinator of managed SQL executions

`SqlExecutionCoordinator`: one entry for each tab, holding the snapshot of the tab's current execution,
the cancellation signal handed to the task that runs it, and the event sink that its snapshots are
published to.

Each operation takes the lock of the map once and is one step here: a function from the coordinator to
its answer and the coordinator afterwards. The state comes back with an error too, because the code
changes the snapshot in place before it computes the next revision.

Three things are the environment's. Clock readings are arguments. A sink may refuse an event, which the
code only logs, so `published` records what was handed to the sinks. The order in which a hash map is
visited is an argument of the one operation that it shows in, `cancelProfile`.

The operations fail when the lock is poisoned, that is when one of them panicked while holding it. None
of them can, so this branch is left out.
-/

namespace Execution

open Drivers Machine

/-! ### Snapshots -/

/-- `SqlExecutionState`. -/
inductive SqlExecutionState
  | queued
  | starting
  | running
  | canceling
  | succeeded
  | failed
  | timedOut
  | canceled
  | cancelFailed
  deriving DecidableEq

/-- The name that `{:?}` writes. -/
def SqlExecutionState.debug : SqlExecutionState → String
  | .queued => "Queued"
  | .starting => "Starting"
  | .running => "Running"
  | .canceling => "Canceling"
  | .succeeded => "Succeeded"
  | .failed => "Failed"
  | .timedOut => "TimedOut"
  | .canceled => "Canceled"
  | .cancelFailed => "CancelFailed"

/-- `SqlStatementClass`. -/
inductive SqlStatementClass
  | read
  | ddl
  | insert
  | delete
  | mutation
  | system
  | command
  | unknown
  deriving DecidableEq

/-- `SqlSummarySource`. -/
inductive SqlSummarySource
  | livePoll
  | responseHeader
  | clientObserved
  | merged
  deriving DecidableEq

/-- `SqlSummaryCompleteness`. -/
inductive SqlSummaryCompleteness
  | partialSummary
  | final
  | unknown
  deriving DecidableEq

/-- `SqlExecutionSummary`. -/
structure SqlExecutionSummary where
  readRows : Option ℕ := none
  readBytes : Option ℕ := none
  writtenRows : Option ℕ := none
  writtenBytes : Option ℕ := none
  totalRowsToRead : Option ℕ := none
  resultRows : Option ℕ := none
  resultBytes : Option ℕ := none
  elapsedNs : Option ℕ := none
  memoryUsage : Option ℕ := none
  source : SqlSummarySource := .clientObserved
  completeness : SqlSummaryCompleteness := .unknown
  deriving DecidableEq

/-- `SqlExecutionFailure`, which carries the fields of the `IpcError` it is made from. -/
structure SqlExecutionFailure where
  code : ErrorCode
  message : String
  details : Option String
  deriving DecidableEq

/-- `From<IpcError>`. -/
def SqlExecutionFailure.ofError (error : IpcError) : SqlExecutionFailure where
  code := error.code
  message := error.message
  details := error.details

/-- `QueryResult`, of which the coordinator reads nothing; its columns and flags are left out. -/
structure QueryResult where
  rows : List (List JsonValue)
  affectedRows : Option ℕ

/-- `SqlExecutionOutcome`. -/
inductive SqlExecutionOutcome
  | rows (result : QueryResult)
  | command (statementClass : SqlStatementClass) (completionMessage : String)
      (summary : Option SqlExecutionSummary) (mutationSubmitted : Bool)
  | raw (format : Option String) (mediaType : String) (byteLength : ℕ) (preview : String)
      (previewTruncated : Bool) (artifactId : String)

/-- `SqlExecutionSnapshot`. -/
structure SqlExecutionSnapshot where
  executionId : String
  queryId : String
  tabId : String
  state : SqlExecutionState
  revision : ℕ
  statementClass : SqlStatementClass
  startedAt : ℕ
  finishedAt : Option ℕ
  progressAvailable : Bool
  summary : Option SqlExecutionSummary
  outcome : Option SqlExecutionOutcome
  failure : Option SqlExecutionFailure
  cancelMessage : Option String
  observationWarnings : List String

/-- `is_terminal`. -/
def isTerminal : SqlExecutionState → Bool
  | .succeeded | .failed | .timedOut | .canceled | .cancelFailed => true
  | _ => false

/-- `is_valid_transition`. -/
def isValidTransition : SqlExecutionState → SqlExecutionState → Bool
  | .queued, .starting
  | .queued, .canceling
  | .starting, .running
  | .starting, .canceling
  | .starting, .failed
  | .starting, .timedOut
  | .starting, .canceled
  | .starting, .cancelFailed
  | .running, .canceling
  | .running, .succeeded
  | .running, .failed
  | .running, .timedOut
  | .running, .canceled
  | .running, .cancelFailed
  | .canceling, .succeeded
  | .canceling, .failed
  | .canceling, .timedOut
  | .canceling, .canceled
  | .canceling, .cancelFailed => true
  | _, _ => false

/-- `MAX_OBSERVATION_WARNINGS`. -/
def maxObservationWarnings : ℕ := 4

/-- `MAX_OBSERVATION_WARNING_CHARS`. -/
def maxObservationWarningChars : ℕ := 256

/-- `normalize_warning`. -/
def normalizeWarning (message : String) : String :=
  let trimmed := Text.trim message.toList
  if trimmed.isEmpty then "SQL execution observation degraded"
  else String.ofList (trimmed.take maxObservationWarningChars)

/-- The largest `u64`. -/
def u64Max : ℕ := 2 ^ 64 - 1

/-- `u64::checked_add`. -/
def checkedAdd (a b : ℕ) : Option ℕ :=
  if a + b ≤ u64Max then some (a + b) else none

/-! ### The closures of the updates -/

namespace SqlExecutionSnapshot

/-- The closure of `transition`. -/
def transition (state : SqlExecutionState) (now : ℕ) (snapshot : SqlExecutionSnapshot) :
    IpcResult SqlExecutionSnapshot :=
  if isValidTransition snapshot.state state then
    .ok { snapshot with
      state := state
      finishedAt := if isTerminal state then some now else snapshot.finishedAt }
  else
    .error (.conflict ("SQL execution cannot transition from " ++ snapshot.state.debug ++ " to " ++
      state.debug))

/-- The closure of `update_summary`. -/
def updateSummary (summary : SqlExecutionSummary) (progressAvailable : Bool)
    (snapshot : SqlExecutionSnapshot) : IpcResult SqlExecutionSnapshot :=
  if isTerminal snapshot.state then
    .error (.conflict "A terminal SQL execution cannot accept progress updates")
  else .ok { snapshot with summary := some summary, progressAvailable := progressAvailable }

/-- The closure of `complete_success`. -/
def completeSuccess (outcome : SqlExecutionOutcome) (now : ℕ) (snapshot : SqlExecutionSnapshot) :
    IpcResult SqlExecutionSnapshot :=
  if isValidTransition snapshot.state .succeeded then
    .ok { snapshot with
      state := .succeeded
      finishedAt := some now
      outcome := some outcome
      failure := none }
  else
    .error (.conflict "SQL execution cannot complete successfully from its current state")

/-- The closure of `complete_failure`. -/
def completeFailure (state : SqlExecutionState) (failure : SqlExecutionFailure) (now : ℕ)
    (snapshot : SqlExecutionSnapshot) : IpcResult SqlExecutionSnapshot :=
  if isValidTransition snapshot.state state then
    .ok { snapshot with
      state := state
      finishedAt := some now
      failure := some failure
      outcome := none }
  else .error (.conflict "SQL execution cannot fail from its current state")

/-- The closure of `complete_cancel`. -/
def completeCancel (message : String) (now : ℕ) (snapshot : SqlExecutionSnapshot) :
    IpcResult SqlExecutionSnapshot :=
  if isValidTransition snapshot.state .canceled then
    .ok { snapshot with
      state := .canceled
      finishedAt := some now
      cancelMessage := some message }
  else
    .error (.conflict "SQL execution cannot confirm cancellation from its current state")

end SqlExecutionSnapshot

/-! ### The map of entries -/

/-- `ActiveSqlExecution`. A registration creates the watch channel of its cancellation signal and is
given its event sink; `handle` is the number of the registration and names them both. -/
structure ActiveSqlExecution where
  profileId : String
  snapshot : SqlExecutionSnapshot
  handle : ℕ

/-- An event handed to the sink of a registration. `repeated` marks those that `begin_cancel` publishes
for an entry that is already canceling. -/
structure Publication where
  handle : ℕ
  snapshot : SqlExecutionSnapshot
  repeated : Bool

/-- `SqlExecutionCoordinator`, with the watch channels and the events of its registrations. -/
structure SqlExecutionCoordinator where
  /-- By tab. -/
  entries : Table String ActiveSqlExecution := ∅
  /-- How many registrations there were. -/
  registrations : ℕ := 0
  /-- The value in the watch channel of each registration. -/
  signals : ℕ → Bool := fun _ ↦ false
  /-- Oldest first. -/
  published : List Publication := []

/-- `SqlExecutionStartInput`. -/
structure SqlExecutionStartInput where
  profileId : String
  tabId : String
  executionId : String
  queryId : String
  statementClass : SqlStatementClass
  startedAt : ℕ

/-- The snapshot that `register_with_sink` stores. -/
def SqlExecutionStartInput.snapshot (input : SqlExecutionStartInput) : SqlExecutionSnapshot where
  executionId := input.executionId
  queryId := input.queryId
  tabId := input.tabId
  state := .starting
  revision := 1
  statementClass := input.statementClass
  startedAt := input.startedAt
  finishedAt := none
  progressAvailable := false
  summary := none
  outcome := none
  failure := none
  cancelMessage := none
  observationWarnings := []

/-- `coordinator_lock_error`. -/
def coordinatorLockError (context : String) : IpcError :=
  .internal (context ++ ": SQL execution coordinator lock poisoned")
    "A previous operation panicked while holding the coordinator lock"

/-- `execution_not_found`. -/
def executionNotFound (tabId executionId : String) : IpcError :=
  .notFound ("SQL execution '" ++ executionId ++ "' is not registered for tab '" ++ tabId ++ "'")

namespace SqlExecutionCoordinator

/-- `HashMap::insert`. -/
def put (c : SqlExecutionCoordinator) (tabId : String) (entry : ActiveSqlExecution) :
    SqlExecutionCoordinator :=
  { c with entries := c.entries.insert tabId entry }

/-- `watch::Sender::send_replace(true)`. -/
def signal (c : SqlExecutionCoordinator) (handle : ℕ) : SqlExecutionCoordinator :=
  { c with signals := Function.update c.signals handle true }

/-- `publish_snapshot`. -/
def publishSnapshot (c : SqlExecutionCoordinator) (handle : ℕ) (snapshot : SqlExecutionSnapshot)
    (repeated : Bool) : SqlExecutionCoordinator :=
  { c with published := c.published ++ [⟨handle, snapshot, repeated⟩] }

/-- `entry_mut`, and the look-up of `snapshot` and `release`. -/
def entryMut (c : SqlExecutionCoordinator) (tabId executionId : String) :
    IpcResult ActiveSqlExecution :=
  match c.entries.lookup tabId with
  | some entry =>
    if entry.snapshot.executionId = executionId then .ok entry
    else .error (executionNotFound tabId executionId)
  | none => .error (executionNotFound tabId executionId)

/-- The end of every accepted change: the edited snapshot already stands in the map when its revision
is computed, so a revision past 64 bits answers with an error over a changed entry. -/
def incrementRevision (c : SqlExecutionCoordinator) (tabId : String) (entry : ActiveSqlExecution)
    (edited : SqlExecutionSnapshot) : IpcResult SqlExecutionSnapshot × SqlExecutionCoordinator :=
  match checkedAdd edited.revision 1 with
  | none =>
    (.error (coordinatorLockError "increment_sql_execution_revision"),
      c.put tabId { entry with snapshot := edited })
  | some revision =>
    let snapshot := { edited with revision := revision }
    (.ok snapshot, c.put tabId { entry with snapshot := snapshot })

/-- `update_snapshot`. The closures that the operations pass refuse before they write. -/
def updateSnapshot (c : SqlExecutionCoordinator) (tabId executionId : String)
    (update : SqlExecutionSnapshot → IpcResult SqlExecutionSnapshot) :
    IpcResult SqlExecutionSnapshot × SqlExecutionCoordinator :=
  match c.entryMut tabId executionId with
  | .error e => (.error e, c)
  | .ok entry =>
    match update entry.snapshot with
    | .error e => (.error e, c)
    | .ok edited =>
      match c.incrementRevision tabId entry edited with
      | (.error e, c) => (.error e, c)
      | (.ok snapshot, c) => (.ok snapshot, c.publishSnapshot entry.handle snapshot false)

/-! ### The operations -/

/-- `register_with_sink`. -/
def registerWithSink (c : SqlExecutionCoordinator) (input : SqlExecutionStartInput) :
    IpcResult SqlExecutionSnapshot × SqlExecutionCoordinator :=
  let active := (c.entries.lookup input.tabId).any fun entry ↦ !isTerminal entry.snapshot.state
  if active then
    (.error (.conflict ("Tab '" ++ input.tabId ++ "' already has an active SQL execution")), c)
  else
    let handle := c.registrations
    -- `watch::channel(false)`
    let c := { c with registrations := handle + 1, signals := Function.update c.signals handle false }
    let c := c.put input.tabId ⟨input.profileId, input.snapshot, handle⟩
    (.ok input.snapshot, c.publishSnapshot handle input.snapshot false)

/-- `snapshot`. -/
def snapshot (c : SqlExecutionCoordinator) (tabId executionId : String) :
    IpcResult SqlExecutionSnapshot :=
  (c.entryMut tabId executionId).map (·.snapshot)

/-- `snapshot_for_profile`. -/
def snapshotForProfile (c : SqlExecutionCoordinator) (profileId tabId executionId : String) :
    IpcResult SqlExecutionSnapshot :=
  match c.entries.lookup tabId with
  | some entry =>
    if entry.profileId = profileId ∧ entry.snapshot.executionId = executionId then
      .ok entry.snapshot
    else .error (executionNotFound tabId executionId)
  | none => .error (executionNotFound tabId executionId)

/-- `transition`. -/
def transition (c : SqlExecutionCoordinator) (tabId executionId : String) (state : SqlExecutionState)
    (now : ℕ) : IpcResult SqlExecutionSnapshot × SqlExecutionCoordinator :=
  c.updateSnapshot tabId executionId (·.transition state now)

/-- `update_summary`. -/
def updateSummary (c : SqlExecutionCoordinator) (tabId executionId : String)
    (summary : SqlExecutionSummary) (progressAvailable : Bool) :
    IpcResult SqlExecutionSnapshot × SqlExecutionCoordinator :=
  c.updateSnapshot tabId executionId (·.updateSummary summary progressAvailable)

/-- `append_warning`. -/
def appendWarning (c : SqlExecutionCoordinator) (tabId executionId message : String) :
    IpcResult SqlExecutionSnapshot × SqlExecutionCoordinator :=
  let message := normalizeWarning message
  match c.entryMut tabId executionId with
  | .error e => (.error e, c)
  | .ok entry =>
    let warnings := entry.snapshot.observationWarnings
    if isTerminal entry.snapshot.state then
      (.error (.conflict "A terminal SQL execution cannot accept observation warnings"), c)
    else if !warnings.contains message && warnings.length < maxObservationWarnings then
      let edited := { entry.snapshot with observationWarnings := warnings ++ [message] }
      match c.incrementRevision tabId entry edited with
      | (.error e, c) => (.error e, c)
      | (.ok snapshot, c) => (.ok snapshot, c.publishSnapshot entry.handle snapshot false)
    else (.ok entry.snapshot, c)

/-- `complete_success`. -/
def completeSuccess (c : SqlExecutionCoordinator) (tabId executionId : String)
    (outcome : SqlExecutionOutcome) (now : ℕ) :
    IpcResult SqlExecutionSnapshot × SqlExecutionCoordinator :=
  c.updateSnapshot tabId executionId (·.completeSuccess outcome now)

/-- `complete_failure`. -/
def completeFailure (c : SqlExecutionCoordinator) (tabId executionId : String)
    (state : SqlExecutionState) (failure : SqlExecutionFailure) (now : ℕ) :
    IpcResult SqlExecutionSnapshot × SqlExecutionCoordinator :=
  if state = .failed ∨ state = .timedOut ∨ state = .cancelFailed then
    c.updateSnapshot tabId executionId (·.completeFailure state failure now)
  else
    (.error (.invalid "Failure completion requires failed, timedOut, or cancelFailed state"), c)

/-- `begin_cancel`. The signal is sent after the lock is released, and not at all when the revision does
not fit. -/
def beginCancel (c : SqlExecutionCoordinator) (tabId executionId : String) :
    IpcResult SqlExecutionSnapshot × SqlExecutionCoordinator :=
  match c.entryMut tabId executionId with
  | .error e => (.error e, c)
  | .ok entry =>
    if entry.snapshot.state = .canceling then
      (.ok entry.snapshot,
        (c.signal entry.handle).publishSnapshot entry.handle entry.snapshot true)
    else if isValidTransition entry.snapshot.state .canceling then
      match c.incrementRevision tabId entry { entry.snapshot with state := .canceling } with
      | (.error e, c) => (.error e, c)
      | (.ok snapshot, c) =>
        (.ok snapshot, (c.signal entry.handle).publishSnapshot entry.handle snapshot false)
    else (.error (.conflict "SQL execution cannot be canceled from its current state"), c)

/-- `complete_cancel`. -/
def completeCancel (c : SqlExecutionCoordinator) (tabId executionId message : String) (now : ℕ) :
    IpcResult SqlExecutionSnapshot × SqlExecutionCoordinator :=
  c.updateSnapshot tabId executionId (·.completeCancel message now)

/-- `release`. -/
def release (c : SqlExecutionCoordinator) (tabId executionId : String) :
    IpcResult Unit × SqlExecutionCoordinator :=
  match c.entryMut tabId executionId with
  | .error e => (.error e, c)
  | .ok entry =>
    if isTerminal entry.snapshot.state then
      (.ok (), { c with entries := c.entries.erase tabId })
    else (.error (.conflict "An active SQL execution cannot be released"), c)

/-- `release_for_profile`. -/
def releaseForProfile (c : SqlExecutionCoordinator) (profileId tabId executionId : String) :
    IpcResult Unit × SqlExecutionCoordinator :=
  match c.snapshotForProfile profileId tabId executionId with
  | .error e => (.error e, c)
  | .ok _ => c.release tabId executionId

/-- `discard_tab`. -/
def discardTab (c : SqlExecutionCoordinator) (tabId : String) :
    IpcResult Bool × SqlExecutionCoordinator :=
  match c.entries.lookup tabId with
  | some entry => (.ok true, { c with entries := c.entries.erase tabId }.signal entry.handle)
  | none => (.ok false, c)

/-- The removals that `discard_profile` and `discard_all` make, tab by tab. -/
def discardTabs (c : SqlExecutionCoordinator) (tabIds : List String) : SqlExecutionCoordinator :=
  tabIds.foldl (fun c tabId ↦ (c.discardTab tabId).2) c

/-- `discard_profile`. -/
def discardProfile (c : SqlExecutionCoordinator) (profileId : String) :
    IpcResult ℕ × SqlExecutionCoordinator :=
  let tabIds := c.entries.keys.filter fun tabId ↦
    (c.entries.lookup tabId).any (·.profileId == profileId)
  (.ok tabIds.length, c.discardTabs tabIds)

/-- `discard_all`. -/
def discardAll (c : SqlExecutionCoordinator) : IpcResult ℕ × SqlExecutionCoordinator :=
  (.ok c.entries.keys.length, c.discardTabs c.entries.keys)

/-- `cancel_tab`. -/
def cancelTab (c : SqlExecutionCoordinator) (tabId : String) :
    IpcResult Bool × SqlExecutionCoordinator :=
  match c.entries.lookup tabId with
  | none => (.ok false, c)
  | some entry =>
    if isTerminal entry.snapshot.state then (.ok false, c)
    else
      match c.beginCancel tabId entry.snapshot.executionId with
      | (.error e, c) => (.error e, c)
      | (.ok _, c) => (.ok true, c)

/-- The loop of `cancel_profile`, which stops at the first error. -/
def cancelEach (c : SqlExecutionCoordinator) :
    List (String × String) → IpcResult Unit × SqlExecutionCoordinator
  | [] => (.ok (), c)
  | (tabId, executionId) :: executions =>
    match c.beginCancel tabId executionId with
    | (.error e, c) => (.error e, c)
    | (.ok _, c) => c.cancelEach executions

/-- The executions that `cancel_profile` collects when it visits the tabs in the order `tabIds`. -/
def activeExecutions (c : SqlExecutionCoordinator) (profileId : String) (tabIds : List String) :
    List (String × String) :=
  tabIds.filterMap fun tabId ↦
    match c.entries.lookup tabId with
    | some entry =>
      if entry.profileId = profileId ∧ !isTerminal entry.snapshot.state then
        some (tabId, entry.snapshot.executionId)
      else none
    | none => none

/-- `cancel_profile`, the hash map being visited in the order `tabIds`. -/
def cancelProfile (c : SqlExecutionCoordinator) (profileId : String) (tabIds : List String) :
    IpcResult ℕ × SqlExecutionCoordinator :=
  let executions := c.activeExecutions profileId tabIds
  match c.cancelEach executions with
  | (.error e, c) => (.error e, c)
  | (.ok _, c) => (.ok executions.length, c)

end SqlExecutionCoordinator

/-- An operation with what its caller and the environment put into it. -/
inductive Operation
  | register (input : SqlExecutionStartInput)
  | transition (tabId executionId : String) (state : SqlExecutionState) (now : ℕ)
  | updateSummary (tabId executionId : String) (summary : SqlExecutionSummary)
      (progressAvailable : Bool)
  | appendWarning (tabId executionId message : String)
  | completeSuccess (tabId executionId : String) (outcome : SqlExecutionOutcome) (now : ℕ)
  | completeFailure (tabId executionId : String) (state : SqlExecutionState)
      (failure : SqlExecutionFailure) (now : ℕ)
  | beginCancel (tabId executionId : String)
  | completeCancel (tabId executionId message : String) (now : ℕ)
  | release (tabId executionId : String)
  | discardTab (tabId : String)
  | discardProfile (profileId : String)
  | discardAll
  | cancelTab (tabId : String)
  | cancelProfile (profileId : String) (tabIds : List String)

/-- Whether the operation answered, and the coordinator after it. -/
def Operation.apply (c : SqlExecutionCoordinator) :
    Operation → IpcResult Unit × SqlExecutionCoordinator
  | .register input => (c.registerWithSink input).map (·.map fun _ ↦ ()) id
  | .transition tabId executionId state now =>
    (c.transition tabId executionId state now).map (·.map fun _ ↦ ()) id
  | .updateSummary tabId executionId summary progressAvailable =>
    (c.updateSummary tabId executionId summary progressAvailable).map (·.map fun _ ↦ ()) id
  | .appendWarning tabId executionId message =>
    (c.appendWarning tabId executionId message).map (·.map fun _ ↦ ()) id
  | .completeSuccess tabId executionId outcome now =>
    (c.completeSuccess tabId executionId outcome now).map (·.map fun _ ↦ ()) id
  | .completeFailure tabId executionId state failure now =>
    (c.completeFailure tabId executionId state failure now).map (·.map fun _ ↦ ()) id
  | .beginCancel tabId executionId =>
    (c.beginCancel tabId executionId).map (·.map fun _ ↦ ()) id
  | .completeCancel tabId executionId message now =>
    (c.completeCancel tabId executionId message now).map (·.map fun _ ↦ ()) id
  | .release tabId executionId => c.release tabId executionId
  | .discardTab tabId => (c.discardTab tabId).map (·.map fun _ ↦ ()) id
  | .discardProfile profileId => (c.discardProfile profileId).map (·.map fun _ ↦ ()) id
  | .discardAll => c.discardAll.map (·.map fun _ ↦ ()) id
  | .cancelTab tabId => (c.cancelTab tabId).map (·.map fun _ ↦ ()) id
  | .cancelProfile profileId tabIds =>
    (c.cancelProfile profileId tabIds).map (·.map fun _ ↦ ()) id

end Execution
