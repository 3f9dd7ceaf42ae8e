import NexusPilot.Cloud.Scheduler

/-!
# Runs that the generation has passed

`Quiet` says of one event what the generation is for: a task whose generation is not the current one
leaves the projection, the retry counter and the other tasks alone. `KeepsPhase` is what the desktop
sees of it: a scheduler that was paused, revoked, shut down or signed out shows that until somebody
triggers it again.

Every `await` of `execute` but one is followed by a comparison of the generations. The exception is the one
for the counts, and it is all that is missing: `Careful` asks that the generation does not move while a
task waits for its counts (and that the counter does not wrap), and then both hold along every run.
The invariant is that a task is never ahead of the generation, and that a task that waits for its
counts is not behind it.
-/

namespace Cloud

open Machine

namespace CloudSyncScheduler

open Scheduler

variable {s s' s'' : CloudSyncScheduler} {e : Event} {id : Nat} {task : Task}

/-! ### What is asked of a run -/

/-- A step of a task that writes nothing but its own position and the lock. -/
structure Unwritten (s s' : CloudSyncScheduler) (id : Nat) : Prop where
  runtime : s'.runtime = s.runtime
  retryAttempt : s'.retryAttempt = s.retryAttempt
  scheduleVersion : s'.scheduleVersion = s.scheduleVersion
  /-- No other task moves, and none is spawned. -/
  tasks : ∀ other, other ≠ id → s'.tasks.lookup other = s.tasks.lookup other

/-- **A task that the generation has passed writes nothing.** -/
def Quiet (s : CloudSyncScheduler) (e : Event) : Prop :=
  ∀ id task, e.task? = some id → s.tasks.lookup id = some task → task.generation ≠ s.generation →
    Unwritten s (step e s) id

/-- The event stops the scheduler: a pause, a revoked device, a shutdown or a sign-out. -/
def Stops (s : CloudSyncScheduler) : Event → Prop
  | .setPaused paused => paused = true
  | .markDeviceRevoked | .shutdown => True
  | .authSession authenticated =>
    s.sessionIdentity authenticated = none ∧ s.identityBinding ≠ none
  | _ => False

/-- The event is neither a trigger nor a command of the desktop. -/
def Event.passive : Event → Bool
  | .wake _ | .locked .. | .ran .. | .counted .. | .identity _ | .commandLocks | .commandUnlocks
  | .windowFocusChanged false => true
  | _ => false

/-- **A stopped scheduler shows that it is stopped**, until it is triggered again. -/
def KeepsPhase (s : CloudSyncScheduler) (events : List Event) : Prop :=
  ∀ before e after rest, events = before ++ e :: (after ++ rest) → Stops (run step s before) e →
    (∀ e' ∈ after, e'.passive = true) →
    (run step s (before ++ e :: after)).runtime.phase = (step e (run step s before)).runtime.phase

/-- The event moves the generation. -/
def Moves (s : CloudSyncScheduler) : Event → Prop
  | .setPaused paused => paused = true
  | .markDeviceRevoked | .shutdown => True
  | .authSession authenticated => s.identityBinding ≠ s.sessionIdentity authenticated
  | .start => s.identityBinding ≠ s.sessionIdentity true
  | _ => False

/-- **The condition.** The generation does not move while a task waits for its counts, and it does not
wrap. -/
def Careful (s : CloudSyncScheduler) (e : Event) : Prop :=
  Moves s e →
    (∀ id task, s.tasks.lookup id = some task → ∀ execution, task.position ≠ .counting execution) ∧
      s.generation + 1 < 2 ^ 64

/-! ### What an operation does to the tasks -/

/-- A task that the invariant allows. -/
def Fits (s : CloudSyncScheduler) (task : Task) : Prop :=
  task.generation ≤ s.generation ∧
    ∀ execution, task.position = .counting execution → task.generation = s.generation

/-- **The invariant.** No task is ahead of the generation, and one that counts is not behind. -/
def Sound (s : CloudSyncScheduler) : Prop :=
  ∀ id task, s.tasks.lookup id = some task → Fits s task

/-- The operation keeps the generation, and the tasks it writes are allowed. -/
structure Grows (s s' : CloudSyncScheduler) : Prop where
  generation : s'.generation = s.generation
  tasks : ∀ id task, s'.tasks.lookup id = some task → s.tasks.lookup id = some task ∨ Fits s task

namespace Grows

theorem of_eq (hg : s'.generation = s.generation) (ht : s'.tasks = s.tasks) : Grows s s' :=
  ⟨hg, fun _ _ h ↦ .inl (ht ▸ h)⟩

theorem refl (s : CloudSyncScheduler) : Grows s s :=
  of_eq rfl rfl

theorem trans (h : Grows s s') (h' : Grows s' s'') : Grows s s'' := by
  refine ⟨h'.generation.trans h.generation, fun id task hlookup ↦ ?_⟩
  rcases h'.tasks id task hlookup with hold | hfits
  · exact h.tasks id task hold
  · rw [Fits, h.generation] at hfits
    exact .inr hfits

theorem of_insert (hfits : Fits s task) (hg : s'.generation = s.generation)
    (ht : s'.tasks = s.tasks.insert id task) : Grows s s' := by
  refine ⟨hg, fun other task' hlookup ↦ ?_⟩
  rw [ht, Table.lookup_insert] at hlookup
  split at hlookup
  · obtain rfl := Option.some.inj hlookup
    exact .inr hfits
  · exact .inl hlookup

theorem sound (h : Grows s s') (hs : Sound s) : Sound s' := by
  intro id task hlookup
  have hfits : Fits s task := (h.tasks id task hlookup).elim (hs id task) fun hfits ↦ hfits
  rwa [Fits, h.generation]

end Grows

theorem grows_schedule (s : CloudSyncScheduler) (trigger : CloudSyncTrigger) (delayMs : Nat) :
    Grows s (s.schedule trigger delayMs) := by
  rw [schedule]
  split
  · exact .refl s
  · refine .of_insert ⟨le_refl _, ?_⟩ rfl rfl
    intro _ h
    cases h

theorem grows_runNow (s : CloudSyncScheduler) : Grows s s.runNow := by
  refine .of_insert ⟨le_refl _, ?_⟩ rfl rfl
  intro _ h
  cases h

/-- A task that moves on, under the generation it has, stays allowed if it does not go to the
counts. -/
theorem fits_position {position : Position} (h : Fits s task)
    (hp : ∀ execution, position = .counting execution → task.generation = s.generation) :
    Fits s { task with position } :=
  ⟨h.1, hp⟩

theorem grows_moveTo {position : Position} (h : Fits s task)
    (hp : ∀ execution, position = .counting execution → task.generation = s.generation) :
    Grows s (s.moveTo id task position) :=
  .of_insert (fits_position h hp) rfl rfl

theorem grows_finish {result : Except CloudPublicError CloudSyncRunResult} (h : Fits s task) :
    Grows s (s.finish id task result) := by
  have hfits : Fits s { task with position := .returned result } := by
    refine fits_position h ?_
    intro _ hp
    cases hp
  exact .of_insert hfits rfl rfl

theorem grows_updateProjection (s : CloudSyncScheduler)
    (update : CloudSyncRuntimeProjection → CloudSyncRuntimeProjection) :
    Grows s (s.updateProjection update) :=
  .of_eq rfl rfl

/-! ### The steps of a task -/

theorem grows_wake (h : Fits s task) : Grows s (s.wake id task) := by
  rw [wake]
  split
  all_goals
    refine grows_moveTo h ?_
    intro _ hp
    cases hp

theorem grows_executeLocked (h : Fits s task) (now : Nat) :
    Grows s (s.executeLocked id task now) := by
  rw [executeLocked]
  split
  · exact grows_finish h
  · split
    · exact (grows_updateProjection s _).trans (grows_finish h)
    · next identity _ =>
      have hfits : Fits s { task with position := .running identity } := by
        refine fits_position h ?_
        intro _ hp
        cases hp
      exact .of_insert hfits rfl rfl

theorem grows_executeFailed (h : Fits s task) (error : CloudPublicError) (now : Nat) :
    Grows s (s.executeFailed id task error now) := by
  unfold executeFailed
  extract_lets attempt seconds failed scheduled
  have hfailed : Grows s failed := .of_eq rfl rfl
  have hscheduled : Grows s scheduled := by
    refine hfailed.trans ?_
    unfold scheduled
    split
    · exact grows_schedule failed _ _
    · exact .refl failed
  refine hscheduled.trans (grows_finish ?_)
  rwa [Fits, hscheduled.generation]

theorem grows_executeRan (h : Fits s task) (identity : String)
    (outcome : Except CloudPublicError CloudSyncExecution) (now : Nat) :
    Grows s (s.executeRan id task identity outcome now) := by
  unfold executeRan
  split
  · exact grows_finish h
  · next hcurrent =>
    -- the comparison is what lets the task go on to the counts
    have hg : task.generation = s.generation := by
      simp only [ne_eq, not_or, not_not] at hcurrent
      exact hcurrent.1.symm
    split
    · exact grows_moveTo h fun _ _ ↦ hg
    · exact grows_executeFailed h _ now

theorem grows_executeCounted (h : Fits s task) (execution : CloudSyncExecution)
    (pendingOperations conflicts now : Nat) :
    Grows s (s.executeCounted id task execution pendingOperations conflicts now) := by
  unfold executeCounted
  extract_lets completed
  have hcompleted : Grows s completed := .of_eq rfl rfl
  exact hcompleted.trans (grows_finish h)

theorem grows_stepTask (e : Event) (h : Fits s task) : Grows s (stepTask e s id task) := by
  unfold stepTask
  split
  · exact grows_wake h
  · split
    · exact .refl s
    · exact grows_executeLocked h _
  · exact grows_executeRan h _ _ _
  · exact grows_executeCounted h _ _ _ _
  · exact .refl s

/-- **The step of a task that the generation has passed.** It moves itself and may drop the lock. -/
theorem stepTask_of_ne (e : Event) (id : Nat) (h : Fits s task) (hne : task.generation ≠ s.generation) :
    stepTask e s id task = s ∨
      ∃ position lock, stepTask e s id task = { s.moveTo id task position with runLock := lock } := by
  unfold stepTask
  split
  · rw [wake]
    split
    · exact .inr ⟨_, s.runLock, rfl⟩
    · exact .inr ⟨_, s.runLock, rfl⟩
  · split
    · exact .inl rfl
    · rw [executeLocked, if_pos (.inl hne.symm)]
      exact .inr ⟨_, none, rfl⟩
  · unfold executeRan
    rw [if_pos (.inl hne.symm)]
    exact .inr ⟨_, none, rfl⟩
  · next hposition => exact absurd (h.2 _ hposition) hne
  · exact .inl rfl

/-! ### One event -/

/-- An event that does not move the generation. -/
theorem grows_step (hs : Sound s) (hm : ¬ Moves s e) : Grows s (step e s) := by
  have hauth {authenticated : Bool} (h : s.identityBinding = s.sessionIdentity authenticated) :
      Grows s (s.handleAuthSessionEvent authenticated) := by
    unfold handleAuthSessionEvent
    extract_lets current bound
    have hbound : bound = s := if_pos h
    rw [hbound]
    split
    · exact grows_schedule s _ _
    · exact .refl s
  cases e with
  | start =>
    rw [Moves, not_not] at hm
    rw [step]
    unfold start
    extract_lets handled
    split
    · exact (hauth hm).trans (grows_schedule _ _ _)
    · exact hauth hm
  | authSession authenticated =>
    rw [Moves, not_not] at hm
    exact hauth hm
  | windowFocusChanged focused =>
    rw [step, onWindowFocusChanged]
    split
    · exact .of_eq rfl rfl
    · split
      · have hforeground : Grows s { s with inBackground := false } := .of_eq rfl rfl
        exact hforeground.trans (grows_schedule _ _ _)
      · exact .refl s
  | localChange => exact grows_schedule s _ _
  | setPaused paused =>
    rw [Moves] at hm
    rw [step, setPaused, if_neg hm]
    exact grows_schedule s _ _
  | markDeviceRevoked => exact absurd trivial hm
  | shutdown => exact absurd trivial hm
  | runNow => exact grows_runNow s
  | commandLocks =>
    rw [step]
    split
    · exact .refl s
    · exact .of_eq rfl rfl
  | commandUnlocks =>
    rw [step]
    split
    · exact .of_eq rfl rfl
    · exact .refl s
  | identity current => exact .of_eq rfl rfl
  | wake id | locked id now | ran id outcome now | counted id pendingOperations conflicts now =>
    rw [step]
    split
    · next hlookup => exact grows_stepTask _ (hs id _ hlookup)
    · exact .refl s

/-- An event that moves the generation keeps the tasks, before it may schedule one. -/
theorem exists_moved (hm : Moves s e) :
    ∃ moved : CloudSyncScheduler, moved.generation = (s.generation + 1) % 2 ^ 64 ∧
      moved.tasks = s.tasks ∧ Grows moved (step e s) := by
  have hauth {authenticated : Bool} (h : s.identityBinding ≠ s.sessionIdentity authenticated) :
      ∃ moved : CloudSyncScheduler, moved.generation = (s.generation + 1) % 2 ^ 64 ∧
        moved.tasks = s.tasks ∧ Grows moved (s.handleAuthSessionEvent authenticated) := by
    unfold handleAuthSessionEvent
    extract_lets current bound
    have hbound : bound = s.rebind current := if_neg h
    rw [hbound]
    refine ⟨s.rebind current, rfl, rfl, ?_⟩
    split
    · exact grows_schedule _ _ _
    · exact .refl _
  cases e with
  | start =>
    obtain ⟨moved, hg, ht, hgrows⟩ := hauth hm
    refine ⟨moved, hg, ht, ?_⟩
    rw [step]
    unfold start
    extract_lets handled
    split
    · exact hgrows.trans (grows_schedule _ _ _)
    · exact hgrows
  | authSession authenticated => exact hauth hm
  | setPaused paused =>
    rw [Moves] at hm
    obtain rfl := hm
    exact ⟨s.setPaused true, rfl, rfl, .refl _⟩
  | markDeviceRevoked => exact ⟨s.markDeviceRevoked, rfl, rfl, .refl _⟩
  | shutdown => exact ⟨s.shutdown, rfl, rfl, .refl _⟩
  | windowFocusChanged | localChange | runNow | commandLocks | commandUnlocks | identity | wake
  | locked | ran | counted => exact hm.elim

theorem sound_step (hs : Sound s) (hc : Careful s e) : Sound (step e s) := by
  by_cases hm : Moves s e
  · obtain ⟨hcounting, hwrap⟩ := hc hm
    obtain ⟨moved, hg, ht, hgrows⟩ := exists_moved hm
    refine hgrows.sound fun id task hlookup ↦ ?_
    rw [ht] at hlookup
    refine ⟨?_, fun execution h ↦ absurd h (hcounting id task hlookup execution)⟩
    rw [hg, Nat.mod_eq_of_lt hwrap]
    exact Nat.le_succ_of_le (hs id task hlookup).1
  · exact (grows_step hs hm).sound hs

/-- The step of a task is found by the identifier. -/
theorem step_of_task (htask : e.task? = some id) (hlookup : s.tasks.lookup id = some task) :
    step e s = stepTask e s id task := by
  cases e <;> simp only [Event.task?, Option.some.injEq, reduceCtorEq] at htask
  all_goals
    subst htask
    rw [step, hlookup]

theorem quiet_of_sound (hs : Sound s) : Quiet s e := by
  intro id task htask hlookup hne
  rw [step_of_task htask hlookup]
  rcases stepTask_of_ne e id (hs id task hlookup) hne with h | ⟨position, lock, h⟩
  · rw [h]
    exact ⟨rfl, rfl, rfl, fun _ _ ↦ rfl⟩
  · rw [h]
    refine ⟨rfl, rfl, rfl, fun other hother ↦ ?_⟩
    show (s.tasks.insert id _).lookup other = _
    rw [Table.lookup_insert, if_neg hother]

/-! ### A stopped scheduler -/

/-- The generation has passed every task. -/
def Stopped (s : CloudSyncScheduler) : Prop :=
  ∀ id task, s.tasks.lookup id = some task → task.generation < s.generation

theorem moves_of_stops (h : Stops s e) : Moves s e := by
  cases e with
  | authSession authenticated =>
    rw [Moves, h.1]
    exact h.2
  | start => exact h.elim
  | _ => exact h

/-- Stopping schedules nothing. -/
theorem stopped_step (hs : Sound s) (hc : Careful s e) (h : Stops s e) : Stopped (step e s) := by
  have hwrap := (hc (moves_of_stops h)).2
  have hmoved {moved : CloudSyncScheduler} (hg : moved.generation = (s.generation + 1) % 2 ^ 64)
      (ht : moved.tasks = s.tasks) : Stopped moved := by
    intro id task hlookup
    rw [ht] at hlookup
    rw [hg, Nat.mod_eq_of_lt hwrap]
    exact Nat.lt_succ_of_le (hs id task hlookup).1
  cases e with
  | setPaused paused =>
    rw [Stops] at h
    obtain rfl := h
    exact hmoved rfl rfl
  | markDeviceRevoked => exact hmoved rfl rfl
  | shutdown => exact hmoved rfl rfl
  | authSession authenticated =>
    obtain ⟨hnone, hbound⟩ := h
    have hne : s.identityBinding ≠ s.sessionIdentity authenticated := by rwa [hnone]
    have heq : step (.authSession authenticated) s = s.rebind none := by
      simp [step, handleAuthSessionEvent, hnone, hbound]
    rw [heq]
    exact hmoved rfl rfl
  | _ => exact h.elim

/-- Nothing but a trigger or a command changes what a stopped scheduler shows. -/
theorem stopped_passive (hs : Sound s) (h : Stopped s) (hp : e.passive = true) :
    Stopped (step e s) ∧ (step e s).runtime = s.runtime := by
  have htask (id : Nat) (hid : e.task? = some id) (hnone : s.tasks.lookup id = none → step e s = s) :
      Stopped (step e s) ∧ (step e s).runtime = s.runtime := by
    cases hlookup : s.tasks.lookup id with
    | none =>
      rw [hnone hlookup]
      exact ⟨h, rfl⟩
    | some task =>
      rw [step_of_task hid hlookup]
      rcases stepTask_of_ne e id (hs id task hlookup) (Nat.ne_of_lt (h id task hlookup)) with
        heq | ⟨position, lock, heq⟩
      · rw [heq]
        exact ⟨h, rfl⟩
      · rw [heq]
        refine ⟨fun other task' hlookup' ↦ ?_, rfl⟩
        change (s.tasks.insert id { task with position }).lookup other = some task' at hlookup'
        rw [Table.lookup_insert] at hlookup'
        split at hlookup'
        · obtain rfl := Option.some.inj hlookup'
          exact h id task hlookup
        · exact h other task' hlookup'
  cases e with
  | wake id => exact htask id rfl fun hnone ↦ by rw [step, hnone]
  | locked id now => exact htask id rfl fun hnone ↦ by rw [step, hnone]
  | ran id outcome now => exact htask id rfl fun hnone ↦ by rw [step, hnone]
  | counted id pendingOperations conflicts now =>
    exact htask id rfl fun hnone ↦ by rw [step, hnone]
  | identity current => exact ⟨h, rfl⟩
  | commandLocks | commandUnlocks =>
    rw [step]
    split
    · exact ⟨h, rfl⟩
    · exact ⟨h, rfl⟩
  | windowFocusChanged focused =>
    cases focused with
    | false => exact ⟨h, rfl⟩
    | true => cases hp
  | _ => cases hp

theorem not_moves_of_passive (hp : e.passive = true) : ¬ Moves s e := by
  intro hm
  cases e with
  | wake | locked | ran | counted | identity | commandLocks | commandUnlocks
  | windowFocusChanged => exact hm
  | _ => cases hp

/-- A stopped scheduler shows the same after any number of such events. -/
theorem runtime_run_passive {after : List Event} (hs : Sound s) (h : Stopped s)
    (hp : ∀ e ∈ after, e.passive = true) : (run step s after).runtime = s.runtime := by
  induction after generalizing s with
  | nil => rfl
  | cons e after ih =>
    have he : e.passive = true := hp e (List.mem_cons_self ..)
    obtain ⟨hstopped, hruntime⟩ := stopped_passive hs h he
    have hsound : Sound (step e s) := (grows_step hs (not_moves_of_passive he)).sound hs
    rw [run_cons, ih hsound hstopped fun e' he' ↦ hp e' (List.mem_cons_of_mem e he'), hruntime]

/-! ### Every run -/

/-- The scheduler when the desktop starts. -/
def initial (delays : SchedulerDelays) (executorIdentity : Option String) : CloudSyncScheduler :=
  { delays, executorIdentity }

theorem sound_initial (delays : SchedulerDelays) (executorIdentity : Option String) :
    Sound (initial delays executorIdentity) :=
  fun _ _ h ↦ (nomatch h)

/-- **Runs that the generation has passed write nothing**, and a stopped scheduler stays so, in every
run in which the generation does not move while a task waits for its counts. -/
theorem quiet_and_keepsPhase_of_careful (delays : SchedulerDelays) (executorIdentity : Option String)
    (events : List Event) (h : Along step Careful (initial delays executorIdentity) events) :
    Along step Quiet (initial delays executorIdentity) events ∧
      KeepsPhase (initial delays executorIdentity) events := by
  have hreach (before : List Event) (h : Along step Careful (initial delays executorIdentity) before) :
      Sound (run step (initial delays executorIdentity) before) :=
    run_invariant (fun _ _ hs hc ↦ sound_step hs hc) (sound_initial delays executorIdentity) h
  refine ⟨along_of_forall fun before e after heq ↦ ?_, fun before e after rest heq hstops hpassive ↦ ?_⟩
  · subst heq
    exact quiet_of_sound (hreach before (along_append.1 h).1)
  · subst heq
    have hbefore := hreach before (along_append.1 h).1
    have hcareful := h.at_event
    rw [run_append, run_cons]
    exact congrArg _ <| runtime_run_passive (sound_step hbefore hcareful)
      (stopped_step hbefore hcareful hstops) hpassive

/-- A signed-in desktop that synchronises once, up to the counts. -/
def countingRun : List Event :=
  [.identity (some "identity-a"), .authSession true, .wake 0, .locked 0 10,
    .ran 0 (.ok ⟨⟨1, 0, 1, 0, 0, 1⟩, "account-a", .readWrite⟩) 12]

/-- The desktop pauses when the run is over, and a change arrives late. -/
theorem quiet_and_keepsPhase_pausedRun :
    Along step Quiet (initial {} none) (countingRun ++ [.counted 0 0 0 13, .setPaused true, .wake 0]) ∧
      KeepsPhase (initial {} none) (countingRun ++ [.counted 0 0 0 13, .setPaused true, .wake 0]) := by
  refine quiet_and_keepsPhase_of_careful {} none _ ?_
  refine ⟨False.elim, fun _ ↦ ⟨fun _ _ h ↦ (nomatch h), by decide⟩, False.elim, False.elim, False.elim,
    False.elim, fun _ ↦ ⟨fun id task hlookup execution hcounting ↦ ?_, by decide⟩, False.elim,
    trivial⟩
  have htasks : ∀ entry ∈ (run step (initial {} none) (countingRun ++ [.counted 0 0 0 13])).tasks.entries,
      entry.2.position = .returned (.ok ⟨1, 0, 1, 0, 0, 1⟩) := by
    decide
  have hreturned := htasks ⟨id, task⟩ (AList.mem_lookup_iff.1 hlookup)
  rw [hcounting] at hreturned
  cases hreturned

/-- **The counts are the gap.** A pause while a run waits for its counts is overwritten by it: the
scheduler shows `idle`, and the retry counter is reset, by a run that the generation has passed. -/
theorem not_quiet_and_not_keepsPhase_overtakenRun :
    ¬ Along step Quiet (initial {} none) (countingRun ++ [.setPaused true, .counted 0 0 0 13]) ∧
      ¬ KeepsPhase (initial {} none) (countingRun ++ [.setPaused true, .counted 0 0 0 13]) := by
  have hphase : (run step (initial {} none) (countingRun ++ [.setPaused true])).runtime.phase
      = .paused := by
    decide
  have hwritten : (run step (initial {} none)
      (countingRun ++ [.setPaused true, .counted 0 0 0 13])).runtime.phase = .idle := by
    decide
  refine ⟨fun h ↦ ?_, fun h ↦ ?_⟩
  · have htask : ((run step (initial {} none)
        (countingRun ++ [.setPaused true])).tasks.lookup 0).map (·.generation) = some 1 := by
      decide
    obtain ⟨task, hlookup, hgeneration⟩ := Option.map_eq_some_iff.1 htask
    rw [List.append_cons] at h
    have hquiet : Quiet (run step (initial {} none) (countingRun ++ [.setPaused true]))
        (.counted 0 0 0 13) := h.at_event
    have hkept := (hquiet 0 task rfl hlookup (by rw [hgeneration]; decide)).runtime
    have hidle : CloudSyncRuntimePhase.idle = .paused :=
      hwritten.symm.trans ((congrArg _ hkept).trans hphase)
    cases hidle
  · have hkept := h countingRun (.setPaused true) [.counted 0 0 0 13] [] rfl rfl (by decide)
    have hidle : CloudSyncRuntimePhase.idle = .paused := hwritten.symm.trans (hkept.trans hphase)
    cases hidle

end CloudSyncScheduler

end Cloud
