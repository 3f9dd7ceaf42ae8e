import Mathlib.Algebra.Ring.Nat
import NexusPilot.Machine.Run
import NexusPilot.Machine.Table

/-!
# The cloud sync scheduler

`CloudSyncScheduler` debounces the triggers of a synchronisation, runs at most one at a time under an
asynchronous lock, and publishes what it does as a projection for the desktop. Everything that must stop
the runs under way (a pause, a revoked device, a shutdown, another account) moves a **generation**: a
run remembers the generation it was started under and compares it with the current one before it writes.

The model is the scheduler as its asynchronous tasks see it. Between two `await`s a task is not
interrupted, so a task is the position it waits at, and an event is a call of the desktop, a change of the
signed-in identity, or the step of one task from its `await` to the next: the end of its sleep, the lock,
the answer of the executor, the answer of the counts. Clock readings, answers and the order of the tasks
are part of the events. Times are in seconds, where the source stores their text.
-/

namespace Cloud

open Machine

/-- The failures that the cloud reports. -/
inductive CloudErrorCode
  | unauthenticated | reauthenticationRequired | authTemporarilyUnavailable | insufficientScope
  | temporarilyUnavailable | protocolError | accountNotInitialized | connectionSyncNotEntitled
  | connectionSyncRestricted | accountUnavailable | syncDeviceLimitExceeded
  | syncDeviceAlreadyConfigured | syncNotInitialized | deviceAuthorizationConflict
  | deviceAuthorizationInvalid | deviceAuthorizationPendingLimitExceeded
  | deviceAuthorizationNotFound | deviceAuthorizationNotPending | syncAlreadyInitialized
  | syncInitializationMismatch | syncDeviceNotAuthorized | syncSetupInvalid | syncSetupExpired
  | secureStorageUnavailable | recoveryKeyExportFailed | recoveryKeyInvalid | connectionSyncConflict
  | connectionSyncQuotaExceeded | connectionSyncAssetTooLarge
  deriving DecidableEq

/-- A reported failure, as far as the scheduler reads it. -/
structure CloudPublicError where
  code : CloudErrorCode
  retryable : Bool
  deriving DecidableEq

/-- `CloudPublicError::from_code`. -/
def CloudPublicError.fromCode (code : CloudErrorCode) : CloudPublicError where
  code := code
  retryable :=
    match code with
    | .authTemporarilyUnavailable | .temporarilyUnavailable | .secureStorageUnavailable
    | .recoveryKeyExportFailed => true
    | _ => false

inductive CloudSyncRuntimePhase
  | disabled | idle | syncing | paused | offline | readOnly | quotaExceeded | conflicted
  | deviceRevoked | recoveryRequired | unavailable
  deriving DecidableEq

inductive CloudSyncTrigger
  | startup | authentication | foreground | localChange | retry | manual | resume
  deriving DecidableEq

inductive CloudSyncAccess
  | disabled | recoveryRequired | paused | readOnly | readWrite | quotaExceeded
  deriving DecidableEq

structure CloudSyncRunResult where
  uploaded : Nat
  deleted : Nat
  pulled : Nat
  conflicted : Nat
  ignored : Nat
  cursor : Nat
  deriving DecidableEq

/-- What the executor reports of a completed synchronisation. -/
structure CloudSyncExecution where
  result : CloudSyncRunResult
  accountId : String
  access : CloudSyncAccess
  deriving DecidableEq

/-- What the desktop shows of the scheduler. -/
structure CloudSyncRuntimeProjection where
  phase : CloudSyncRuntimePhase := .disabled
  trigger : Option CloudSyncTrigger := none
  lastStartedAt : Option Nat := none
  lastCompletedAt : Option Nat := none
  lastSucceededAt : Option Nat := none
  nextRetryAt : Option Nat := none
  retryAttempt : Nat := 0
  pendingOperations : Nat := 0
  conflicts : Nat := 0
  lastResult : Option CloudSyncRunResult := none
  lastErrorCode : Option CloudErrorCode := none
  deriving DecidableEq

structure SchedulerDelays where
  localChangeMs : Nat := 750
  foregroundMs : Nat := 50
  retrySeconds : List Nat := [5, 15, 60, 300]
  deriving DecidableEq

/-- `retry_delay_seconds_with`: the delay of an attempt, the last one for all later attempts. -/
def retryDelaySecondsWith (delays : List Nat) (attempt : Nat) : Nat :=
  delays[attempt - 1]?.getD (delays.getLast?.getD 300)

/-- `phase_for_error`. -/
def phaseForError : CloudErrorCode → CloudSyncRuntimePhase
  | .connectionSyncQuotaExceeded => .quotaExceeded
  | .connectionSyncConflict => .conflicted
  | .syncDeviceNotAuthorized => .deviceRevoked
  | .syncNotInitialized | .connectionSyncNotEntitled => .disabled
  | .connectionSyncRestricted => .readOnly
  | .secureStorageUnavailable | .recoveryKeyInvalid => .recoveryRequired
  | .temporarilyUnavailable | .authTemporarilyUnavailable => .offline
  | _ => .unavailable

/-- The phase after a completed synchronisation. -/
def phaseForExecution (execution : CloudSyncExecution) (conflicts : Nat) : CloudSyncRuntimePhase :=
  if conflicts > 0 ∨ execution.result.conflicted > 0 then .conflicted
  else
    match execution.access with
    | .disabled => .disabled
    | .recoveryRequired => .recoveryRequired
    | .paused => .paused
    | .readOnly => .readOnly
    | .readWrite => .idle
    | .quotaExceeded => .quotaExceeded

namespace Scheduler

/-! ### Tasks -/

/-- The `await` a task stands at. -/
inductive Position
  /-- The sleep of a scheduled run. -/
  | sleeping (delayMs : Nat)
  /-- `run_lock.lock().await`. -/
  | locking
  /-- `executor.run(guard).await`, under the identity it was started with. -/
  | running (identity : String)
  /-- `executor.counts(account_id).await`. -/
  | counting (execution : CloudSyncExecution)
  /-- A scheduled run that found itself out of date when it woke up. -/
  | dropped
  /-- `execute` returned. -/
  | returned (result : Except CloudPublicError CloudSyncRunResult)
  deriving DecidableEq

/-- A run: the arguments of `execute` and where it stands. -/
structure Task where
  trigger : CloudSyncTrigger
  generation : Nat
  version : Option Nat
  manual : Bool
  position : Position
  deriving DecidableEq

/-- Who holds the run lock. -/
inductive Holder
  | task (id : Nat)
  /-- A command of the desktop, after `suspend`. -/
  | command
  deriving DecidableEq

end Scheduler

open Scheduler

/-- The scheduler, its tasks and what the executor says of the signed-in identity. -/
structure CloudSyncScheduler where
  identityBinding : Option String := none
  generation : Nat := 0
  scheduleVersion : Nat := 0
  retryAttempt : Nat := 0
  inBackground : Bool := false
  runLock : Option Holder := none
  delays : SchedulerDelays := {}
  runtime : CloudSyncRuntimeProjection := {}
  tasks : Table Nat Task := ∅
  /-- The identifier of the next task to be spawned. -/
  nextTask : Nat := 0
  /-- `executor.identity_binding()`. -/
  executorIdentity : Option String := none

namespace CloudSyncScheduler

/-! ### Operations -/

/-- An update of the projection. -/
def updateProjection (s : CloudSyncScheduler)
    (update : CloudSyncRuntimeProjection → CloudSyncRuntimeProjection) : CloudSyncScheduler :=
  { s with runtime := update s.runtime }

/-- A new task, at the given position. -/
def spawn (s : CloudSyncScheduler) (task : Task) : CloudSyncScheduler :=
  { s with tasks := s.tasks.insert s.nextTask task, nextTask := s.nextTask + 1 }

/-- `cancel_scheduled_runs`; the counter wraps at `2 ^ 64`. -/
def cancelScheduledRuns (s : CloudSyncScheduler) : CloudSyncScheduler :=
  { s with scheduleVersion := (s.scheduleVersion + 1) % 2 ^ 64 }

/-- `generation.fetch_add(1)`. -/
def moveGeneration (s : CloudSyncScheduler) : CloudSyncScheduler :=
  { s with generation := (s.generation + 1) % 2 ^ 64 }

/-- `schedule`: a task that runs after a delay, unless it is out of date by then. -/
def schedule (s : CloudSyncScheduler) (trigger : CloudSyncTrigger) (delayMs : Nat) :
    CloudSyncScheduler :=
  if s.executorIdentity.isNone then s
  else
    let version := (s.scheduleVersion + 1) % 2 ^ 64
    ({ s with scheduleVersion := version } : CloudSyncScheduler).spawn
      { trigger, generation := s.generation, version := some version, manual := false
        position := .sleeping delayMs }

/-- The identity that an authentication event brings. -/
def sessionIdentity (s : CloudSyncScheduler) (authenticated : Bool) : Option String :=
  if authenticated then s.executorIdentity else none

/-- `handle_auth_session_event`, when the identity has changed. -/
def rebind (s : CloudSyncScheduler) (current : Option String) : CloudSyncScheduler :=
  let moved := { s with identityBinding := current }.cancelScheduledRuns.moveGeneration
  { moved with retryAttempt := 0 }.updateProjection fun _ ↦
    { phase := if current.isSome then .idle else .disabled }

/-- `handle_auth_session_event`. -/
def handleAuthSessionEvent (s : CloudSyncScheduler) (authenticated : Bool) : CloudSyncScheduler :=
  let current := s.sessionIdentity authenticated
  let bound := if s.identityBinding = current then s else s.rebind current
  if current.isSome then bound.schedule .authentication 0 else bound

/-- `start`. -/
def start (s : CloudSyncScheduler) : CloudSyncScheduler :=
  let handled := s.handleAuthSessionEvent true
  if handled.executorIdentity.isSome then handled.schedule .startup 0 else handled

/-- `on_window_focus_changed`. -/
def onWindowFocusChanged (s : CloudSyncScheduler) (focused : Bool) : CloudSyncScheduler :=
  if focused = false then { s with inBackground := true }
  else if s.inBackground then
    { s with inBackground := false }.schedule .foreground s.delays.foregroundMs
  else s

/-- `on_local_change`. -/
def onLocalChange (s : CloudSyncScheduler) : CloudSyncScheduler :=
  s.schedule .localChange s.delays.localChangeMs

/-- `set_paused`. -/
def setPaused (s : CloudSyncScheduler) (paused : Bool) : CloudSyncScheduler :=
  if paused then
    s.cancelScheduledRuns.moveGeneration.updateProjection fun projection ↦
      { projection with phase := .paused, trigger := none, nextRetryAt := none }
  else s.schedule .resume 0

/-- `mark_device_revoked`. -/
def markDeviceRevoked (s : CloudSyncScheduler) : CloudSyncScheduler :=
  s.cancelScheduledRuns.moveGeneration.updateProjection fun projection ↦
    { projection with phase := .deviceRevoked, nextRetryAt := none }

/-- `shutdown`. -/
def shutdown (s : CloudSyncScheduler) : CloudSyncScheduler :=
  s.cancelScheduledRuns.moveGeneration.updateProjection fun projection ↦
    { projection with phase := .disabled, trigger := none, nextRetryAt := none }

/-- `run_now`, up to the lock. -/
def runNow (s : CloudSyncScheduler) : CloudSyncScheduler :=
  s.cancelScheduledRuns.spawn
    { trigger := .manual, generation := s.generation, version := none, manual := true
      position := .locking }

/-! ### The steps of `execute` -/

/-- A task moves on to another `await`. -/
def moveTo (s : CloudSyncScheduler) (id : Nat) (task : Task) (position : Position) :
    CloudSyncScheduler :=
  { s with tasks := s.tasks.insert id { task with position } }

/-- `execute` returns and drops the lock. -/
def finish (s : CloudSyncScheduler) (id : Nat) (task : Task)
    (result : Except CloudPublicError CloudSyncRunResult) : CloudSyncScheduler :=
  { s.moveTo id task (.returned result) with runLock := none }

/-- The error of a run that is out of date. -/
def unauthenticated : Except CloudPublicError CloudSyncRunResult :=
  .error (.fromCode .unauthenticated)

/-- The sleep of a scheduled run is over. -/
def wake (s : CloudSyncScheduler) (id : Nat) (task : Task) : CloudSyncScheduler :=
  if task.version ≠ some s.scheduleVersion ∨ s.generation ≠ task.generation then
    s.moveTo id task .dropped
  else s.moveTo id task .locking

/-- `execute`, from the lock to `executor.run`. -/
def executeLocked (s : CloudSyncScheduler) (id : Nat) (task : Task) (now : Nat) :
    CloudSyncScheduler :=
  if s.generation ≠ task.generation ∨
      (task.version.any fun value ↦ s.scheduleVersion != value) = true then
    s.finish id task unauthenticated
  else
    match s.identityBinding with
    | none =>
      (s.updateProjection fun projection ↦ { projection with phase := .disabled }).finish id task
        unauthenticated
    | some identity =>
      ({ s with runLock := some (.task id) }.updateProjection fun projection ↦
        { projection with
          phase := .syncing, trigger := some task.trigger, lastStartedAt := some now
          nextRetryAt := none, lastErrorCode := none }).moveTo id task (.running identity)

/-- `execute`, when `executor.run` failed. -/
def executeFailed (s : CloudSyncScheduler) (id : Nat) (task : Task) (error : CloudPublicError)
    (now : Nat) : CloudSyncScheduler :=
  let attempt := (s.retryAttempt + 1) % 2 ^ 32
  let seconds := retryDelaySecondsWith s.delays.retrySeconds attempt
  let failed := { s with retryAttempt := attempt }.updateProjection fun projection ↦
    { projection with
      phase := phaseForError error.code, trigger := some task.trigger, lastCompletedAt := some now
      nextRetryAt := if error.retryable then some (now + seconds) else none
      retryAttempt := attempt, lastErrorCode := some error.code }
  let scheduled := if error.retryable then failed.schedule .retry (seconds * 1000) else failed
  scheduled.finish id task <|
    if task.manual then .error error
    else .ok {
      uploaded := 0, deleted := 0, pulled := 0, conflicted := 0, ignored := 0
      cursor := (scheduled.runtime.lastResult.map (·.cursor)).getD 0 }

/-- `execute`, from the answer of `executor.run` to the counts or to the end. -/
def executeRan (s : CloudSyncScheduler) (id : Nat) (task : Task) (identity : String)
    (outcome : Except CloudPublicError CloudSyncExecution) (now : Nat) : CloudSyncScheduler :=
  if s.generation ≠ task.generation ∨ s.executorIdentity ≠ some identity then
    s.finish id task unauthenticated
  else
    match outcome with
    | .ok execution => s.moveTo id task (.counting execution)
    | .error error => s.executeFailed id task error now

/-- `execute`, after the counts. The generation is not read again here. -/
def executeCounted (s : CloudSyncScheduler) (id : Nat) (task : Task)
    (execution : CloudSyncExecution) (pendingOperations conflicts now : Nat) : CloudSyncScheduler :=
  let completed := { s with retryAttempt := 0 }.updateProjection fun projection ↦
    { projection with
      phase := phaseForExecution execution conflicts, trigger := some task.trigger
      lastCompletedAt := some now, lastSucceededAt := some now, retryAttempt := 0
      pendingOperations, conflicts, lastResult := some execution.result, lastErrorCode := none }
  completed.finish id task <|
    if task.manual then
      match execution.access with
      | .disabled => .error (.fromCode .syncNotInitialized)
      | .recoveryRequired => .error (.fromCode .syncDeviceNotAuthorized)
      | _ => .ok execution.result
    else .ok execution.result

/-! ### Events -/

/-- What can happen between two `await`s. -/
inductive Event
  | start
  | authSession (authenticated : Bool)
  | windowFocusChanged (focused : Bool)
  | localChange
  | setPaused (paused : Bool)
  | markDeviceRevoked
  | shutdown
  | runNow
  /-- `suspend` obtains the lock; its pause is a `setPaused` of its own. -/
  | commandLocks
  | commandUnlocks
  /-- The authentication of the desktop changes. -/
  | identity (current : Option String)
  /-- The steps of a task. -/
  | wake (id : Nat)
  | locked (id : Nat) (now : Nat)
  | ran (id : Nat) (outcome : Except CloudPublicError CloudSyncExecution) (now : Nat)
  | counted (id : Nat) (pendingOperations conflicts now : Nat)

/-- The task that an event is a step of. -/
def Event.task? : Event → Option Nat
  | .wake id | .locked id _ | .ran id _ _ | .counted id _ _ _ => some id
  | _ => none

/-- The step of a task; an event that does not fit its position does nothing. -/
def stepTask (e : Event) (s : CloudSyncScheduler) (id : Nat) (task : Task) : CloudSyncScheduler :=
  match e, task.position with
  | .wake _, .sleeping _ => s.wake id task
  | .locked _ now, .locking => if s.runLock.isSome then s else s.executeLocked id task now
  | .ran _ outcome now, .running identity => s.executeRan id task identity outcome now
  | .counted _ pendingOperations conflicts now, .counting execution =>
    s.executeCounted id task execution pendingOperations conflicts now
  | _, _ => s

/-- One event. -/
def step (e : Event) (s : CloudSyncScheduler) : CloudSyncScheduler :=
  match e with
  | .start => s.start
  | .authSession authenticated => s.handleAuthSessionEvent authenticated
  | .windowFocusChanged focused => s.onWindowFocusChanged focused
  | .localChange => s.onLocalChange
  | .setPaused paused => s.setPaused paused
  | .markDeviceRevoked => s.markDeviceRevoked
  | .shutdown => s.shutdown
  | .runNow => s.runNow
  | .commandLocks => if s.runLock.isSome then s else { s with runLock := some .command }
  | .commandUnlocks => if s.runLock = some .command then { s with runLock := none } else s
  | .identity current => { s with executorIdentity := current }
  | .wake id | .locked id _ | .ran id _ _ | .counted id _ _ _ =>
    match s.tasks.lookup id with
    | some task => stepTask e s id task
    | none => s

end CloudSyncScheduler

end Cloud
