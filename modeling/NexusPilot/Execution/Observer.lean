import NexusPilot.Execution.Coordinator
import NexusPilot.Machine.Run

/-!
# How the editor follows a managed execution

`executeManagedSqlLifecycle`: snapshots of an execution arrive over a channel and as answers to
reconciliation calls, and those that are news are shown. The name of the execution is known only when the
handle arrives; until then a snapshot of any execution is news, and what was shown by then stays shown.
The messages and answers may arrive in any order, so that the states of the procedure between two of its
awaits are the phases of a machine. `observes_iff` says exactly when only snapshots of the execution that
the handle names are shown.
-/

namespace Execution

open Machine

/-- `reduceSqlExecutionSnapshot`. -/
def reduceSqlExecutionSnapshot (current : Option SqlExecutionSnapshot) (incoming : SqlExecutionSnapshot) :
    Option SqlExecutionSnapshot :=
  match current with
  | none => some incoming
  | some snapshot =>
    if snapshot.executionId ≠ incoming.executionId then some snapshot
    else if isTerminal snapshot.state then some snapshot
    else if incoming.revision ≤ snapshot.revision then some snapshot
    else some incoming

/-- The reduction gives the incoming object, and not the current one. -/
def isNews (current : Option SqlExecutionSnapshot) (incoming : SqlExecutionSnapshot) : Bool :=
  match current with
  | none => true
  | some snapshot =>
    snapshot.executionId == incoming.executionId && !isTerminal snapshot.state &&
      decide (snapshot.revision < incoming.revision)

theorem reduceSqlExecutionSnapshot_eq (current : Option SqlExecutionSnapshot)
    (incoming : SqlExecutionSnapshot) :
    reduceSqlExecutionSnapshot current incoming = if isNews current incoming then some incoming else current := by
  cases current with
  | none => rfl
  | some snapshot =>
    rw [reduceSqlExecutionSnapshot, isNews]
    by_cases hid : snapshot.executionId = incoming.executionId
    · by_cases hterminal : isTerminal snapshot.state = true
      · simp [hid, hterminal]
      · by_cases hrevision : incoming.revision ≤ snapshot.revision
        · simp [hid, hterminal, hrevision, Nat.not_lt.2 hrevision]
        · simp [hid, hterminal, hrevision, Nat.lt_of_not_le hrevision]
    · simp [hid]

/-- Where `executeManagedSqlLifecycle` stands. -/
inductive ObserverPhase
  /-- It awaits the handle. -/
  | starting
  /-- It awaits the answer to a reconciliation call. -/
  | reconciling
  /-- The answer has been taken, and the loop goes on. -/
  | reconciled
  /-- It awaits the end of the execution or the time of the next reconciliation. -/
  | waiting
  /-- The wait is over. -/
  | woken
  | returned (snapshot : SqlExecutionSnapshot)
  | thrown

/-- The variables of `executeManagedSqlLifecycle`, with the snapshots given to `onSnapshot` so far. -/
structure Observer where
  current : Option SqlExecutionSnapshot
  expectedExecutionId : Option String
  /-- The value that `terminalSignal` is resolved with. -/
  terminalSignal : Option SqlExecutionSnapshot
  phase : ObserverPhase
  shown : List SqlExecutionSnapshot
  reconciliationErrors : ℕ

/-- What reaches the procedure. -/
inductive ObserverEvent
  /-- A message on the channel. -/
  | channel (snapshot : SqlExecutionSnapshot)
  /-- `startManaged` gives the handle of an execution. -/
  | handle (executionId : String)
  | startFailed
  /-- `getManagedSnapshot` answers. -/
  | answer (snapshot : SqlExecutionSnapshot)
  | answerFailed
  /-- The wait ends: the time has come, or the terminal signal is there. -/
  | wake (timer : Bool)
  /-- The procedure goes on after an await. -/
  | resume

namespace Observer

/-- The state before anything has arrived. -/
def start : Observer where
  current := none
  expectedExecutionId := none
  terminalSignal := none
  phase := .starting
  shown := []
  reconciliationErrors := 0

/-- `resolveTerminal`: a promise is resolved once. -/
def resolveTerminal (o : Observer) (snapshot : SqlExecutionSnapshot) : Observer :=
  { o with terminalSignal := o.terminalSignal.or (some snapshot) }

/-- `applySnapshot`. -/
def applySnapshot (o : Observer) (incoming : SqlExecutionSnapshot) : Observer :=
  if o.expectedExecutionId.any (· ≠ incoming.executionId) then o
  -- `next === current` compares the objects
  else if isNews o.current incoming then
    let o := { o with current := reduceSqlExecutionSnapshot o.current incoming, shown := o.shown ++ [incoming] }
    if o.expectedExecutionId.isSome ∧ isTerminal incoming.state then o.resolveTerminal incoming else o
  else o

/-- What follows the handle, up to the next await. -/
def receiveHandle (o : Observer) (executionId : String) : Observer :=
  let current := o.current.filter (·.executionId = executionId)
  let o := { o with expectedExecutionId := some executionId, current := current, phase := .reconciling }
  match current with
  | some snapshot => if isTerminal snapshot.state then o.resolveTerminal snapshot else o
  | none => o

/-- The snapshot that ends the loop, if it is there. -/
def terminal? (o : Observer) : Option SqlExecutionSnapshot :=
  o.current.filter (isTerminal ·.state)

/-- The procedure goes on with the next phase, or returns. -/
def goOn (o : Observer) (phase : ObserverPhase) : Observer :=
  match o.terminal? with
  | some snapshot => { o with phase := .returned snapshot }
  | none => { o with phase := phase }

/-- An event; nothing where the procedure does not await it. -/
def step (event : ObserverEvent) (o : Observer) : Observer :=
  match event with
  | .channel snapshot => o.applySnapshot snapshot
  | .handle executionId =>
    match o.phase with
    | .starting => o.receiveHandle executionId
    | _ => o
  | .startFailed =>
    match o.phase with
    | .starting => { o with phase := .thrown }
    | _ => o
  | .answer snapshot =>
    match o.phase with
    | .reconciling => { o.applySnapshot snapshot with phase := .reconciled }
    | _ => o
  | .answerFailed =>
    match o.phase with
    | .reconciling => { o with phase := .reconciled, reconciliationErrors := o.reconciliationErrors + 1 }
    | _ => o
  | .wake timer =>
    match o.phase with
    | .waiting => if timer ∨ o.terminalSignal.isSome then { o with phase := .woken } else o
    | _ => o
  | .resume =>
    match o.phase with
    | .reconciled => o.goOn .waiting
    | .woken => o.goOn .reconciling
    | _ => o

/-! ### What one event does -/

variable {o : Observer} {event : ObserverEvent} {events : List ObserverEvent} {incoming : SqlExecutionSnapshot}
  {id : String}

/-- The effect of `applySnapshot`: nothing, or the snapshot is the current one and is shown. -/
theorem applySnapshot_cases (o : Observer) (incoming : SqlExecutionSnapshot) :
    o.applySnapshot incoming = o ∨
      (∀ name, o.expectedExecutionId = some name → incoming.executionId = name) ∧
        isNews o.current incoming = true ∧ ∃ terminalSignal, o.applySnapshot incoming =
          { o with current := some incoming, shown := o.shown ++ [incoming],
                   terminalSignal := terminalSignal } := by
  rw [applySnapshot]
  by_cases hforeign : o.expectedExecutionId.any (· ≠ incoming.executionId) = true
  · rw [if_pos hforeign]
    exact .inl rfl
  rw [if_neg hforeign]
  by_cases hnews : isNews o.current incoming = true
  · refine .inr ⟨fun name hname ↦ ?_, hnews, ?_⟩
    · rw [hname, Option.any_some, decide_eq_true_eq, not_not] at hforeign
      exact hforeign.symm
    · rw [if_pos hnews, reduceSqlExecutionSnapshot_eq, if_pos hnews]
      dsimp only
      split_ifs
      · exact ⟨_, rfl⟩
      · exact ⟨_, rfl⟩
  · rw [if_neg hnews]
    exact .inl rfl

@[simp]
theorem phase_applySnapshot (o : Observer) (incoming : SqlExecutionSnapshot) :
    (o.applySnapshot incoming).phase = o.phase := by
  obtain h | ⟨-, -, _, h⟩ := applySnapshot_cases o incoming
  · rw [h]
  · rw [h]

@[simp]
theorem expectedExecutionId_applySnapshot (o : Observer) (incoming : SqlExecutionSnapshot) :
    (o.applySnapshot incoming).expectedExecutionId = o.expectedExecutionId := by
  obtain h | ⟨-, -, _, h⟩ := applySnapshot_cases o incoming
  · rw [h]
  · rw [h]

/-- The effect of the handle: a current snapshot of another execution is dropped. -/
theorem receiveHandle_eq (o : Observer) (executionId : String) :
    ∃ terminalSignal, o.receiveHandle executionId =
      { o with expectedExecutionId := some executionId, phase := .reconciling, terminalSignal := terminalSignal,
               current := o.current.filter (·.executionId = executionId) } := by
  rw [receiveHandle]
  split
  · split_ifs
    · exact ⟨_, rfl⟩
    · exact ⟨_, rfl⟩
  · exact ⟨_, rfl⟩

/-- **What an event can do**: take a snapshot, take the handle, or move the procedure on. -/
inductive Effect (o : Observer) : ObserverEvent → Observer → Prop
  | none (event : ObserverEvent) : Effect o event o
  | taken (event : ObserverEvent) (snapshot : SqlExecutionSnapshot) (phase : ObserverPhase)
      (terminalSignal : Option SqlExecutionSnapshot) :
      event = .channel snapshot ∧ phase = o.phase ∨
        event = .answer snapshot ∧ o.phase = .reconciling ∧ phase = .reconciled →
      (∀ name, o.expectedExecutionId = some name → snapshot.executionId = name) →
      isNews o.current snapshot = true →
      Effect o event
        { o with current := some snapshot, shown := o.shown ++ [snapshot], terminalSignal := terminalSignal,
                 phase := phase }
  | handle (executionId : String) (terminalSignal : Option SqlExecutionSnapshot) : o.phase = .starting →
      Effect o (.handle executionId)
        { o with expectedExecutionId := some executionId, phase := .reconciling,
                 terminalSignal := terminalSignal,
                 current := o.current.filter (·.executionId = executionId) }
  | startFailed : o.phase = .starting → Effect o .startFailed { o with phase := .thrown }
  | moved (event : ObserverEvent) (phase : ObserverPhase) (errors : ℕ) :
      o.phase ≠ .starting ∧ o.phase ≠ .thrown → phase ≠ .starting ∧ phase ≠ .thrown →
      (∀ snapshot, phase = .returned snapshot → o.current = some snapshot ∧ isTerminal snapshot.state = true) →
      Effect o event { o with phase := phase, reconciliationErrors := errors }

theorem effect_goOn (event : ObserverEvent) {phase : ObserverPhase}
    (hawaited : o.phase ≠ .starting ∧ o.phase ≠ .thrown) (hphase : phase ≠ .starting ∧ phase ≠ .thrown)
    (hreturned : ∀ snapshot, phase ≠ .returned snapshot) :
    Effect o event (o.goOn phase) := by
  rw [goOn]
  split
  · next snapshot hterminal =>
    refine .moved event (.returned snapshot) o.reconciliationErrors hawaited ⟨by nofun, by nofun⟩ ?_
    rintro _ ⟨⟩
    exact Option.filter_eq_some_iff.1 hterminal
  · exact .moved event phase o.reconciliationErrors hawaited hphase fun snapshot heq ↦ absurd heq (hreturned snapshot)

theorem step_effect (event : ObserverEvent) (o : Observer) : Effect o event (step event o) := by
  cases event with
  | channel snapshot =>
    rw [step]
    obtain h | ⟨hown, hnews, signal, h⟩ := applySnapshot_cases o snapshot
    · rw [h]
      exact .none _
    · rw [h]
      exact .taken _ snapshot o.phase signal (.inl ⟨rfl, rfl⟩) hown hnews
  | handle executionId =>
    rw [step]
    split
    · next hphase =>
      obtain ⟨signal, h⟩ := receiveHandle_eq o executionId
      rw [h]
      exact .handle executionId signal hphase
    · exact .none _
  | startFailed =>
    rw [step]
    split
    · next hphase => exact .startFailed hphase
    · exact .none _
  | answer snapshot =>
    rw [step]
    split
    · next hphase =>
      obtain h | ⟨hown, hnews, signal, h⟩ := applySnapshot_cases o snapshot
      · rw [h]
        exact .moved (.answer snapshot) .reconciled o.reconciliationErrors (by rw [hphase]; exact ⟨by nofun, by nofun⟩)
          ⟨by nofun, by nofun⟩ fun _ heq ↦ ObserverPhase.noConfusion heq
      · rw [h]
        exact .taken (.answer snapshot) snapshot .reconciled signal (.inr ⟨rfl, hphase, rfl⟩) hown hnews
    · exact .none _
  | answerFailed =>
    rw [step]
    split
    · next hphase =>
      exact .moved .answerFailed .reconciled (o.reconciliationErrors + 1) (by rw [hphase]; exact ⟨by nofun, by nofun⟩)
        ⟨by nofun, by nofun⟩ fun _ heq ↦ ObserverPhase.noConfusion heq
    · exact .none _
  | wake timer =>
    rw [step]
    split
    · next hphase =>
      split_ifs
      · exact .moved (.wake timer) .woken o.reconciliationErrors (by rw [hphase]; exact ⟨by nofun, by nofun⟩)
          ⟨by nofun, by nofun⟩ fun _ heq ↦ ObserverPhase.noConfusion heq
      · exact .none _
    · exact .none _
  | resume =>
    rw [step]
    split
    · next hphase =>
      exact effect_goOn _ (by rw [hphase]; exact ⟨by nofun, by nofun⟩)
        ⟨by nofun, by nofun⟩ fun _ heq ↦ ObserverPhase.noConfusion heq
    · next hphase =>
      exact effect_goOn _ (by rw [hphase]; exact ⟨by nofun, by nofun⟩)
        ⟨by nofun, by nofun⟩ fun _ heq ↦ ObserverPhase.noConfusion heq
    · exact .none _

/-! ### What is shown -/

/-- Snapshots with rising revisions, none behind a terminal one. -/
def Rising (snapshots : List SqlExecutionSnapshot) : Prop :=
  snapshots.Pairwise fun earlier later ↦ earlier.revision < later.revision ∧ isTerminal earlier.state = false

variable {current : Option SqlExecutionSnapshot}

/-- A snapshot that is news for the last one goes on rising. -/
theorem Rising.append {snapshots : List SqlExecutionSnapshot} (h : Rising snapshots)
    (hlast : snapshots.getLast? = current) (hnews : isNews current incoming = true) :
    Rising (snapshots ++ [incoming]) := by
  obtain rfl | ⟨before, last, rfl⟩ := snapshots.eq_nil_or_concat'
  · exact List.pairwise_singleton _ _
  · have hcurrent : current = some last := by simpa using hlast.symm
    rw [hcurrent, isNews, Bool.and_eq_true, Bool.and_eq_true, decide_eq_true_eq, Bool.not_eq_true'] at hnews
    obtain ⟨⟨-, hterminal⟩, hrevision⟩ := hnews
    refine List.pairwise_append.2 ⟨h, List.pairwise_singleton _ _, ?_⟩
    rintro s hs t ht
    rw [List.mem_singleton.1 ht]
    obtain hbefore | hs := List.mem_append.1 hs
    · obtain ⟨hlt, hopen⟩ := (List.pairwise_append.1 h).2.2 s hbefore last (by simp)
      exact ⟨hlt.trans hrevision, hopen⟩
    · rw [List.mem_singleton.1 hs]
      exact ⟨hrevision, hterminal⟩

/-- The snapshots of one execution. -/
def ownSnapshots (id : String) (snapshots : List SqlExecutionSnapshot) : List SqlExecutionSnapshot :=
  snapshots.filter (·.executionId = id)

/-- **Before the handle**: what is shown is of the execution of the current snapshot. -/
structure Unnamed (o : Observer) : Prop where
  expected : o.expectedExecutionId = none
  phase : o.phase = .starting ∨ o.phase = .thrown
  rising : Rising o.shown
  last : o.shown.getLast? = o.current
  one : ∀ s ∈ o.shown, ∀ t ∈ o.shown, s.executionId = t.executionId

/-- **After the handle** of an execution. -/
structure Named (id : String) (o : Observer) : Prop where
  expected : o.expectedExecutionId = some id
  started : o.phase ≠ .starting ∧ o.phase ≠ .thrown
  rising : Rising (ownSnapshots id o.shown)
  last : (ownSnapshots id o.shown).getLast? = o.current
  returned : ∀ s, o.phase = .returned s → o.current = some s ∧ isTerminal s.state = true

theorem unnamed_start : Unnamed start :=
  ⟨rfl, .inl rfl, List.Pairwise.nil, rfl, by simp [start]⟩

/-- The execution that a current snapshot is of. -/
theorem executionId_of_isNews (hnews : isNews current incoming = true) {s : SqlExecutionSnapshot}
    (hs : current = some s) : s.executionId = incoming.executionId := by
  rw [hs, isNews, Bool.and_eq_true, Bool.and_eq_true, beq_iff_eq] at hnews
  exact hnews.1.1

/-- The step lemma before the handle: it stays away, or it comes. -/
theorem Unnamed.step (h : Unnamed o) (event : ObserverEvent) :
    Unnamed (step event o) ∧ (∃ added, (Observer.step event o).shown = o.shown ++ added) ∨
      ∃ id, event = .handle id ∧ o.phase = .starting ∧ Named id (Observer.step event o) ∧
        (Observer.step event o).shown = o.shown := by
  have heffect := step_effect event o
  generalize Observer.step event o = o' at heffect
  cases heffect with
  | none => exact .inl ⟨h, [], by simp⟩
  | taken _ snapshot phase signal hkind hown hnews =>
    have hlast : ∀ s ∈ o.shown, s.executionId = snapshot.executionId := by
      intro s hs
      obtain ⟨last, hsome⟩ := Option.ne_none_iff_exists'.1 (mt List.getLast?_eq_none_iff.1 (List.ne_nil_of_mem hs))
      rw [h.one s hs last (List.mem_of_getLast? hsome)]
      exact executionId_of_isNews hnews (h.last.symm.trans hsome)
    have hphase : phase = .starting ∨ phase = .thrown := by
      obtain ⟨-, rfl⟩ | ⟨-, hreconciling, -⟩ := hkind
      · exact h.phase
      · obtain hphase | hphase := h.phase
        · rw [hphase] at hreconciling
          cases hreconciling
        · rw [hphase] at hreconciling
          cases hreconciling
    refine .inl ⟨⟨h.expected, hphase, h.rising.append h.last hnews, by simp, ?_⟩, [snapshot], rfl⟩
    intro s hs t ht
    have hsame : ∀ u ∈ o.shown ++ [snapshot], u.executionId = snapshot.executionId := by
      intro u hu
      obtain hu | hu := List.mem_append.1 hu
      · exact hlast u hu
      · rw [List.mem_singleton.1 hu]
    rw [hsame s hs, hsame t ht]
  | handle executionId signal hphase =>
    refine .inr ⟨executionId, rfl, hphase, ⟨rfl, ⟨by nofun, by nofun⟩, h.rising.filter _, ?_, ?_⟩, rfl⟩
    · -- what was shown is of one execution: of this one, or of another
      obtain hnil | ⟨before, last, hshown⟩ := o.shown.eq_nil_or_concat'
      · have hlast := h.last
        rw [hnil] at hlast
        simp [ownSnapshots, hnil, ← hlast]
      · have hlast : o.current = some last := by
          rw [← h.last, hshown]
          simp
        show (ownSnapshots executionId o.shown).getLast? = o.current.filter _
        rw [hlast, Option.filter_some]
        by_cases hid : last.executionId = executionId
        · have hall : ownSnapshots executionId o.shown = o.shown := by
            refine List.filter_eq_self.2 fun s hs ↦ ?_
            rw [h.one s hs last (by simp [hshown])]
            simpa using hid
          rw [hall, h.last, hlast, if_pos (by simpa using hid)]
        · have hnone : ownSnapshots executionId o.shown = [] := by
            refine List.filter_eq_nil_iff.2 fun s hs ↦ ?_
            rw [h.one s hs last (by simp [hshown])]
            simpa using hid
          rw [hnone, if_neg (by simpa using hid)]
          rfl
    · exact fun s heq ↦ ObserverPhase.noConfusion heq
  | startFailed hphase =>
    exact .inl ⟨⟨h.expected, .inr rfl, h.rising, h.last, h.one⟩, [], by simp⟩
  | moved _ phase errors hawaited hnext hreturned =>
    obtain hphase | hphase := h.phase
    · exact absurd hphase hawaited.1
    · exact absurd hphase hawaited.2

theorem Named.step (h : Named id o) (event : ObserverEvent) :
    Named id (Observer.step event o) ∧ ∃ added, (Observer.step event o).shown = o.shown ++ added ∧
      ∀ s ∈ added, s.executionId = id := by
  have heffect := step_effect event o
  generalize Observer.step event o = o' at heffect
  cases heffect with
  | none => exact ⟨h, [], by simp⟩
  | taken _ snapshot phase signal hkind hown hnews =>
    have hid := hown id h.expected
    have hphase : phase ≠ .starting ∧ phase ≠ .thrown := by
      obtain ⟨-, rfl⟩ | ⟨-, -, rfl⟩ := hkind
      · exact h.started
      · exact ⟨by nofun, by nofun⟩
    have happend : ownSnapshots id (o.shown ++ [snapshot]) = ownSnapshots id o.shown ++ [snapshot] := by
      simp [ownSnapshots, hid]
    have hopen : ∀ s, o.current = some s → isTerminal s.state = false := by
      intro s hs
      rw [hs, isNews, Bool.and_eq_true, Bool.and_eq_true, Bool.not_eq_true'] at hnews
      exact hnews.1.2
    refine ⟨⟨h.expected, hphase, ?_, ?_, fun s hs ↦ ?_⟩, [snapshot], rfl, by simpa using hid⟩
    · rw [happend]
      exact h.rising.append h.last hnews
    · rw [happend]
      simp
    · -- a procedure that has returned takes nothing more
      obtain ⟨-, rfl⟩ | ⟨-, -, rfl⟩ := hkind
      · obtain ⟨hcurrent, hterminal⟩ := h.returned s hs
        rw [hopen s hcurrent] at hterminal
        cases hterminal
      · cases hs
  | handle executionId signal hphase => exact absurd hphase h.started.1
  | startFailed hphase => exact absurd hphase h.started.1
  | moved _ phase errors hawaited hnext hreturned =>
    exact ⟨⟨h.expected, hnext, h.rising, h.last, hreturned⟩, [], by simp⟩

/-! ### Runs -/

/-- The messages that arrive before the handle. -/
def early : List ObserverEvent → List SqlExecutionSnapshot
  | .channel snapshot :: events => snapshot :: early events
  | .handle _ :: _ => []
  | .startFailed :: _ => []
  | _ :: events => early events
  | [] => []

/-- The snapshots that arrive. -/
def delivered (events : List ObserverEvent) : List SqlExecutionSnapshot :=
  events.flatMap fun
    | .channel snapshot => [snapshot]
    | .answer snapshot => [snapshot]
    | _ => []

theorem run_named (h : Named id o) (events : List ObserverEvent) :
    Named id (run step o events) ∧ ∃ added, (run step o events).shown = o.shown ++ added ∧
      ∀ s ∈ added, s.executionId = id := by
  induction events generalizing o with
  | nil => exact ⟨h, [], by simp⟩
  | cons event events ih =>
    obtain ⟨hnext, first, hfirst, hfirstown⟩ := h.step event
    obtain ⟨hlast, rest, hrest, hrestown⟩ := ih hnext
    refine ⟨hlast, first ++ rest, by rw [run_cons, hrest, hfirst, List.append_assoc], fun s hs ↦ ?_⟩
    exact (List.mem_append.1 hs).elim (hfirstown s) (hrestown s)

theorem run_thrown (hphase : o.phase = .thrown) (events : List ObserverEvent) :
    (run step o events).expectedExecutionId = o.expectedExecutionId := by
  induction events generalizing o with
  | nil => rfl
  | cons event events ih =>
    have hstep : (step event o).phase = .thrown ∧ (step event o).expectedExecutionId = o.expectedExecutionId := by
      cases event <;> simp [step, hphase]
    rw [run_cons, ih hstep.1, hstep.2]

/-- The first snapshot that is shown is the first that arrives. -/
theorem head?_shown_applySnapshot (h : Unnamed o) (incoming : SqlExecutionSnapshot) :
    (o.applySnapshot incoming).shown.head? = o.shown.head?.or (some incoming) := by
  obtain hnone | ⟨current, hcurrent⟩ := Option.eq_none_or_eq_some o.current
  · have hshown : o.shown = [] := List.getLast?_eq_none_iff.1 (h.last.trans hnone)
    rw [applySnapshot, h.expected]
    simp [hnone, hshown, isNews]
  · have hne : o.shown ≠ [] := by
      rintro hnil
      have hlast := h.last
      rw [hnil, hcurrent] at hlast
      cases hlast
    obtain ⟨first, rest, hshown⟩ := List.exists_cons_of_ne_nil hne
    obtain heq | ⟨-, -, _, heq⟩ := applySnapshot_cases o incoming
    · simp [heq, hshown]
    · simp [heq, hshown]

/-- **The handle divides a run**: what is shown before it is of the execution of the first message, and what is
shown after it is of the execution that it names. -/
theorem run_unnamed (h : Unnamed o) (hphase : o.phase = .starting)
    (hid : (run step o events).expectedExecutionId = some id) :
    Named id (run step o events) ∧ ∃ seen added, (run step o events).shown = seen ++ added ∧
      (∀ s ∈ added, s.executionId = id) ∧ (∀ s ∈ seen, ∀ t ∈ seen, s.executionId = t.executionId) ∧
        seen.head? = o.shown.head?.or (early events).head? := by
  induction events generalizing o with
  | nil =>
    rw [run_nil, h.expected] at hid
    cases hid
  | cons event events ih =>
    rw [run_cons] at hid ⊢
    cases event with
    | channel snapshot =>
      have hnext : Unnamed (o.applySnapshot snapshot) := by
        obtain ⟨hnext, -⟩ | ⟨_, heq, -⟩ := h.step (.channel snapshot)
        · exact hnext
        · cases heq
      obtain ⟨hnamed, seen, added, hshown, hadded, hseen, hhead⟩ :=
        ih hnext ((phase_applySnapshot o snapshot).trans hphase) hid
      refine ⟨hnamed, seen, added, hshown, hadded, hseen, ?_⟩
      rw [hhead, head?_shown_applySnapshot h, early, List.head?_cons, Option.or_assoc, Option.some_or]
    | handle executionId =>
      obtain ⟨hnext, -⟩ | ⟨_, heq, -, hnext, hsame⟩ := h.step (.handle executionId)
      · have hnone := hnext.expected
        obtain ⟨_, hreceive⟩ := receiveHandle_eq o executionId
        simp [step, hphase, hreceive] at hnone
      · cases heq
        obtain ⟨hnamed, added, hshown, hadded⟩ := run_named hnext events
        obtain rfl : executionId = id := Option.some.inj (hnamed.expected.symm.trans hid)
        exact ⟨hnamed, o.shown, added, by rw [hshown, hsame], hadded, h.one, by simp [early]⟩
    | startFailed =>
      have hthrown : (step .startFailed o).phase = .thrown := by simp [step, hphase]
      have hsame : (step .startFailed o).expectedExecutionId = o.expectedExecutionId := by simp [step, hphase]
      rw [run_thrown hthrown, hsame, h.expected] at hid
      cases hid
    | answer snapshot =>
      have hsame : step (.answer snapshot) o = o := by simp [step, hphase]
      rw [hsame] at hid ⊢
      exact ih h hphase hid
    | answerFailed =>
      have hsame : step .answerFailed o = o := by simp [step, hphase]
      rw [hsame] at hid ⊢
      exact ih h hphase hid
    | wake timer =>
      have hsame : step (.wake timer) o = o := by simp [step, hphase]
      rw [hsame] at hid ⊢
      exact ih h hphase hid
    | resume =>
      have hsame : step .resume o = o := by simp [step, hphase]
      rw [hsame] at hid ⊢
      exact ih h hphase hid

/-- What is shown, and what is current, has arrived. -/
theorem run_delivered (events : List ObserverEvent) :
    ∀ s, s ∈ (run step start events).shown ∨ (run step start events).current = some s → s ∈ delivered events := by
  have hstep : ∀ (o : Observer) (event : ObserverEvent), (∀ e ∈ delivered [event], e ∈ delivered events) →
      (∀ s, s ∈ o.shown ∨ o.current = some s → s ∈ delivered events) →
      ∀ s, s ∈ (step event o).shown ∨ (step event o).current = some s → s ∈ delivered events := by
    intro o event harrived hold
    have heffect := step_effect event o
    generalize step event o = o' at heffect
    cases heffect with
    | none => exact hold
    | taken _ snapshot phase signal hkind hown hnews =>
      have hmem : snapshot ∈ delivered events := by
        refine harrived snapshot ?_
        obtain ⟨rfl, -⟩ | ⟨rfl, -⟩ := hkind
        · simp [delivered]
        · simp [delivered]
      rintro s (hs | hs)
      · obtain hs | hs := List.mem_append.1 hs
        · exact hold s (.inl hs)
        · rw [List.mem_singleton.1 hs]
          exact hmem
      · cases hs
        exact hmem
    | handle executionId signal hphase =>
      rintro s (hs | hs)
      · exact hold s (.inl hs)
      · exact hold s (.inr (Option.filter_eq_some_iff.1 hs).1)
    | startFailed hphase => exact hold
    | moved _ phase errors hawaited hnext hreturned => exact hold
  refine run_invariant (p := fun _ event ↦ ∀ e ∈ delivered [event], e ∈ delivered events)
    (fun o event hold harrived ↦ hstep o event harrived hold) (by simp [start]) ?_
  refine along_of_forall fun before event after heq s hs ↦ ?_
  rw [heq, delivered, List.flatMap_append, List.flatMap_cons]
  rw [delivered, List.flatMap_singleton] at hs
  exact List.mem_append_right _ (List.mem_append_left _ hs)

end Observer

/-! ### The execution that the handle names -/

/-- The snapshots of an execution form a chain that ends in its terminal one. -/
def Chained (snapshots : List SqlExecutionSnapshot) : Prop :=
  ∀ s ∈ snapshots, ∀ t ∈ snapshots, s.executionId = t.executionId →
    (s.revision = t.revision → s = t) ∧ (isTerminal s.state = true → t.revision ≤ s.revision)

/-- **Only one execution is observed**: what is returned is its terminal snapshot, and what is shown is of it, with
rising revisions and nothing behind the terminal one. -/
structure Observes (id : String) (arrived : List SqlExecutionSnapshot) (o : Observer) : Prop where
  returned : ∀ s, o.phase = .returned s → s ∈ arrived ∧ s.executionId = id ∧ isTerminal s.state = true ∧
    ∀ t ∈ arrived, t.executionId = id → isTerminal t.state = true → t = s
  own : ∀ s ∈ o.shown, s.executionId = id
  increasing : o.shown.Pairwise fun earlier later ↦ earlier.revision < later.revision
  last : o.shown.Pairwise fun earlier _ ↦ isTerminal earlier.state = false

variable {events : List ObserverEvent} {id : String}

/-- **When only the execution of the handle is observed**: in every run in which a handle arrives, exactly when the
first message before it, if there is one, is of the execution that it names. -/
theorem observes_iff (hchain : Chained (Observer.delivered events))
    (hid : (run Observer.step Observer.start events).expectedExecutionId = some id) :
    Observes id (Observer.delivered events) (run Observer.step Observer.start events) ↔
      ∀ s, (Observer.early events).head? = some s → s.executionId = id := by
  obtain ⟨hnamed, seen, added, hshown, hadded, hseen, hhead⟩ := Observer.run_unnamed Observer.unnamed_start rfl hid
  have harrived := Observer.run_delivered events
  generalize run Observer.step Observer.start events = o at *
  have hfirst : seen.head? = (Observer.early events).head? := hhead
  constructor
  · intro h s hs
    refine h.own s ?_
    rw [hshown]
    exact List.mem_append_left _ (List.mem_of_head? (hfirst.trans hs))
  · intro h
    have hown : ∀ s ∈ o.shown, s.executionId = id := by
      intro s hs
      rw [hshown] at hs
      obtain hs | hs := List.mem_append.1 hs
      · obtain ⟨first, rest, heq⟩ := List.exists_cons_of_ne_nil (List.ne_nil_of_mem hs)
        have hfirst' : seen.head? = some first := by rw [heq, List.head?_cons]
        rw [hseen s hs first (List.mem_of_head? hfirst')]
        exact h first (hfirst.symm.trans hfirst')
      · exact hadded s hs
    have hall : Observer.ownSnapshots id o.shown = o.shown :=
      List.filter_eq_self.2 fun s hs ↦ by simpa using hown s hs
    have hrising := hnamed.rising
    have hlast := hnamed.last
    rw [hall] at hrising hlast
    refine ⟨fun s hs ↦ ?_, hown, hrising.imp And.left, hrising.imp And.right⟩
    obtain ⟨hcurrent, hterminal⟩ := hnamed.returned s hs
    have hmem : s ∈ o.shown := List.mem_of_getLast? (hlast.trans hcurrent)
    have hin := harrived s (.inl hmem)
    refine ⟨hin, hown s hmem, hterminal, fun t ht htid htterminal ↦ ?_⟩
    have hsame : t.executionId = s.executionId := htid.trans (hown s hmem).symm
    have hle := (hchain t ht s hin hsame).2 htterminal
    have hge := (hchain s hin t ht hsame.symm).2 hterminal
    exact (hchain t ht s hin hsame).1 (Nat.le_antisymm hge hle)

namespace Sample

/-- A snapshot of an execution. -/
def managedSnapshot (executionId : String) (state : SqlExecutionState) (revision : ℕ) : SqlExecutionSnapshot where
  executionId := executionId
  queryId := "query-1"
  tabId := "runtime-tab"
  state := state
  revision := revision
  statementClass := .read
  startedAt := 1
  finishedAt := none
  progressAvailable := false
  summary := none
  outcome := none
  failure := none
  cancelMessage := none
  observationWarnings := []

/-- A message before the handle, and the end of the execution as the answer to the first reconciliation. -/
def earlyRun (executionId : String) : List ObserverEvent :=
  [.channel (managedSnapshot executionId .running 2), .handle "execution-1",
    .answer (managedSnapshot "execution-1" .succeeded 3), .resume]

theorem chained_delivered (executionId : String) : Chained (Observer.delivered (earlyRun executionId)) := by
  intro s hs t ht hid
  have hmem : ∀ u ∈ Observer.delivered (earlyRun executionId),
      u = managedSnapshot executionId .running 2 ∨ u = managedSnapshot "execution-1" .succeeded 3 := by
    intro u hu
    simpa [Observer.delivered, earlyRun] using hu
  obtain rfl | rfl := hmem s hs
  · obtain rfl | rfl := hmem t ht
    · exact ⟨fun _ ↦ rfl, fun _ ↦ le_refl _⟩
    · exact ⟨fun heq ↦ absurd heq (by simp [managedSnapshot]),
        fun hterminal ↦ absurd hterminal (by simp [managedSnapshot, isTerminal])⟩
  · obtain rfl | rfl := hmem t ht
    · exact ⟨fun heq ↦ absurd heq (by simp [managedSnapshot]), fun _ ↦ by simp [managedSnapshot]⟩
    · exact ⟨fun _ ↦ rfl, fun _ ↦ le_refl _⟩

/-- A message of the execution itself, before its handle, does no harm. -/
theorem observes_own_early :
    Observes "execution-1" (Observer.delivered (earlyRun "execution-1"))
      (run Observer.step Observer.start (earlyRun "execution-1")) := by
  refine (observes_iff (chained_delivered "execution-1") rfl).2 ?_
  rintro s hs
  cases hs
  rfl

/-- A message of another execution before the handle is shown, although the handle names this one. -/
theorem foreign_early_shown :
    (run Observer.step Observer.start (earlyRun "execution-0")).expectedExecutionId = some "execution-1" ∧
      Chained (Observer.delivered (earlyRun "execution-0")) ∧
      ¬ Observes "execution-1" (Observer.delivered (earlyRun "execution-0"))
        (run Observer.step Observer.start (earlyRun "execution-0")) := by
  refine ⟨rfl, chained_delivered "execution-0", fun h ↦ ?_⟩
  have hshown : managedSnapshot "execution-0" .running 2 ∈
      (run Observer.step Observer.start (earlyRun "execution-0")).shown := List.mem_cons_self
  exact absurd (h.own _ hshown) (by decide)

end Sample

end Execution
