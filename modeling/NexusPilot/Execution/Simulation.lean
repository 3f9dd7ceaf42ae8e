import NexusPilot.Execution.View

/-!
# The operations of tasks and calls

`TaskStep` and `CallStep` say what one operation of a task or of a call can do, in the terms of `View`:
which entry it gives to the execution it acts for, which artifacts it sets, and where the task or the
call goes on. The operations are read once, in `taskStep_cases` and `callStep_cases`, and everything else is
derived from these relations: what an operation means for its own execution is one of the `Local.Step`s, and
it is not seen by the others, unless it is keyed by a tab or a profile.
-/

namespace Execution

open Drivers Machine SqlExecutionCoordinator

/-! ### Effects on the coordinator and on the store -/

/-- An operation for the execution `p`, after which it sees the entry `value`. -/
structure Acts (p : RawArtifactOwner) (value : Option (SqlExecutionState × Option String))
    (c c' : SqlExecutionCoordinator) : Prop where
  changes : Changes c c'
  untouched : Untouched p.executionId c c'
  entryOf_eq : entryOf c' p = value

variable {o : RawArtifactOwner} {id : String} {value : RawArtifactOwner → Option Bool}
  {a a' : RawArtifactStore}

/-- The other executions do not see it. -/
theorem entryOf_of_untouched {x : String} {c c' : SqlExecutionCoordinator} (hchanges : Changes c c')
    (huntouched : Untouched x c c') (hne : o.executionId ≠ x) :
    entryOf c' o = entryOf c o := by
  cases hbefore : c.entries.lookup o.tabId with
  | none =>
    have hafter : c'.entries.lookup o.tabId = none := by
      by_contra hsome
      obtain ⟨entry', hentry'⟩ := Option.ne_none_iff_exists'.1 hsome
      obtain ⟨entry, hentry, -⟩ := hchanges.exists_lookup hentry'
      rw [hbefore] at hentry
      cases hentry
    exact entryOf_congr (hafter.trans hbefore.symm)
  | some entry =>
    rcases eq_or_ne entry.snapshot.executionId x with heq | hother
    · -- the tab is that of the execution acted for, before and after
      have hnone : entryOf c o = none := by
        rw [entryOf, registered_eq_none_of_lookup hbefore (heq.trans_ne hne.symm)]
        rfl
      rw [hnone]
      by_contra hsome
      obtain ⟨e, he⟩ := Option.ne_none_iff_exists'.1 hsome
      obtain ⟨entry', hentry', hid, -⟩ := exists_of_entryOf ⟨rfl, rfl⟩ he
      obtain ⟨found, hfound, -, hsame⟩ := hchanges.exists_lookup hentry'
      obtain rfl := Option.some.inj (hbefore.symm.trans hfound)
      exact hne ((hid.symm.trans hsame.symm).trans heq)
    · exact entryOf_congr ((huntouched _ _ hbefore hother).trans hbefore.symm)

section Acts

variable {p : RawArtifactOwner} {c : SqlExecutionCoordinator}

/-- An operation that nobody sees. -/
theorem Acts.refl : Acts p (entryOf c p) c c :=
  ⟨.refl, fun _ _ hlookup _ ↦ hlookup, rfl⟩

section

variable (hbelow : RevisionsBelow c)
include hbelow

theorem acts_transition (state : SqlExecutionState) (now : ℕ) :
    Acts p ((entryOf c p).map fun e ↦ if isValidTransition e.1 state then (state, e.2) else e) c
      (c.transition p.tabId p.executionId state now).2 where
  changes := (updates_transition state now).changes
  untouched := untouched_updateSnapshot _
  entryOf_eq := (entryOf_transition hbelow state now p).trans (if_pos ⟨rfl, rfl⟩)

theorem acts_updateSummary (summary : SqlExecutionSummary) (progressAvailable : Bool) :
    Acts p (entryOf c p) c (c.updateSummary p.tabId p.executionId summary progressAvailable).2 where
  changes := (updates_updateSummary summary progressAvailable).changes
  untouched := untouched_updateSnapshot _
  entryOf_eq := entryOf_updateSummary hbelow summary progressAvailable p

theorem acts_appendWarning (message : String) :
    Acts p (entryOf c p) c (c.appendWarning p.tabId p.executionId message).2 where
  changes := (updates_appendWarning message).changes
  untouched := untouched_appendWarning message
  entryOf_eq := entryOf_appendWarning hbelow message p

theorem acts_completeSuccess (outcome : SqlExecutionOutcome) (now : ℕ) :
    Acts p ((entryOf c p).map fun e ↦
        if isValidTransition e.1 .succeeded then (.succeeded, outcome.artifactId?) else e) c
      (c.completeSuccess p.tabId p.executionId outcome now).2 where
  changes := (updates_completeSuccess outcome now).changes
  untouched := untouched_updateSnapshot _
  entryOf_eq := (entryOf_completeSuccess hbelow outcome now p).trans (if_pos ⟨rfl, rfl⟩)

theorem acts_completeFailure {state : SqlExecutionState}
    (hstate : state = .failed ∨ state = .timedOut ∨ state = .cancelFailed) (failure : SqlExecutionFailure)
    (now : ℕ) :
    Acts p ((entryOf c p).map fun e ↦ if isValidTransition e.1 state then (state, none) else e) c
      (c.completeFailure p.tabId p.executionId state failure now).2 where
  changes := (updates_completeFailure state failure now).changes
  untouched := untouched_completeFailure state failure now
  entryOf_eq := (entryOf_completeFailure hbelow hstate failure now p).trans (if_pos ⟨rfl, rfl⟩)

theorem acts_completeCancel (message : String) (now : ℕ) :
    Acts p ((entryOf c p).map fun e ↦
        if isValidTransition e.1 .canceled then (.canceled, e.2) else e) c
      (c.completeCancel p.tabId p.executionId message now).2 where
  changes := (updates_completeCancel message now).changes
  untouched := untouched_updateSnapshot _
  entryOf_eq := (entryOf_completeCancel hbelow message now p).trans (if_pos ⟨rfl, rfl⟩)

theorem acts_beginCancel :
    Acts p ((entryOf c p).map fun e ↦
        if isValidTransition e.1 .canceling then (.canceling, e.2) else e) c
      (c.beginCancel p.tabId p.executionId).2 where
  changes := (cancels_beginCancel c p.tabId p.executionId).changes
  untouched := untouched_beginCancel
  entryOf_eq := (entryOf_beginCancel hbelow p.tabId p.executionId p).trans (if_pos ⟨rfl, rfl⟩)

/-- `transition` answers for an entry that it may move. -/
theorem fst_transition (state : SqlExecutionState) (now : ℕ) :
    (∃ s, (c.transition p.tabId p.executionId state now).1 = .ok s) ↔
      ∃ e, entryOf c p = some e ∧ isValidTransition e.1 state := by
  refine (fst_updateSnapshot hbelow fun _ _ ↦ .of_transition).trans ⟨?_, ?_⟩
  · rintro ⟨s, edited, hs, hedited⟩
    obtain ⟨hvalid, -⟩ := ite_ok_else_error_eq_ok_iff.1 hedited
    exact ⟨entryView s, by rw [entryOf, hs]; rfl, hvalid⟩
  · rintro ⟨e, he, hvalid⟩
    obtain ⟨s, hs, rfl⟩ := Option.map_eq_some_iff.1 he
    exact ⟨s, _, hs, if_pos hvalid⟩

/-- `complete_success` answers for an entry that it may move. -/
theorem fst_completeSuccess (outcome : SqlExecutionOutcome) (now : ℕ) :
    (∃ s, (c.completeSuccess p.tabId p.executionId outcome now).1 = .ok s) ↔
      ∃ e, entryOf c p = some e ∧ isValidTransition e.1 .succeeded := by
  refine (fst_updateSnapshot hbelow fun _ _ ↦ .of_completeSuccess).trans ⟨?_, ?_⟩
  · rintro ⟨s, edited, hs, hedited⟩
    obtain ⟨hvalid, -⟩ := ite_ok_else_error_eq_ok_iff.1 hedited
    exact ⟨entryView s, by rw [entryOf, hs]; rfl, hvalid⟩
  · rintro ⟨e, he, hvalid⟩
    obtain ⟨s, hs, rfl⟩ := Option.map_eq_some_iff.1 he
    exact ⟨s, _, hs, if_pos hvalid⟩

end

end Acts

/-- An operation on the artifact of one id: each execution sees `value` of it afterwards. -/
def Sets (id : String) (value : RawArtifactOwner → Option Bool) (a a' : RawArtifactStore) : Prop :=
  ∀ o other, artifactOf a' o other = if other = id then value o else artifactOf a o other

theorem Sets.update {id : String} {value : RawArtifactOwner → Option Bool} {a a' : RawArtifactStore}
    (h : Sets id value a a') (o : RawArtifactOwner) :
    artifactOf a' o = Function.update (artifactOf a o) id (value o) := by
  funext other
  rw [h, Function.update_apply]

/-- It is not seen by an execution that has no artifact of this id, before and after. -/
theorem Sets.eq_of_none (h : Sets id value a a') (hvalue : value o = none) (hnone : artifactOf a o id = none) :
    artifactOf a' o = artifactOf a o := by
  rw [h.update, hvalue, ← hnone, Function.update_eq_self]

/-- Every artifact afterwards was there, or is the one that was set. -/
theorem Sets.exists_of_eq_some (h : Sets id value a a') {other : String} {b : Bool}
    (hb : artifactOf a' o other = some b) :
    (∃ b', artifactOf a o other = some b') ∨ other = id ∧ value o = some b := by
  rw [h] at hb
  split_ifs at hb with heq
  · exact .inr ⟨heq, hb⟩
  · exact .inl ⟨b, hb⟩

/-! ### The operations of a task -/

/-- The artifact that a task has in hand. -/
def Phase.holds : Phase → Option String
  | .spawn id | .transition id => id
  | .drop id | .run (.opened id) | .run (.finished id) => some id
  | .completeSuccess outcome => outcome.artifactId?
  | _ => none

/-- A task that reports a failure reports one that `complete_failure` takes. -/
def Phase.Fails : Phase → Prop
  | .failed state _ | .completeFailure state _ => state = .failed ∨ state = .timedOut
  | _ => True

/-- What an operation of the task of `p` can do, at a phase and with the ids that it draws. -/
inductive TaskStep (s : Shared) (p : RawArtifactOwner) :
    Phase → List String → Shared → Option Phase → Prop
  | idle (phase : Phase) (ids : List String) : TaskStep s p phase ids s (some phase)
  -- the start
  | released (raw : Bool) (stuck : String → Bool) (next : Phase)
      (hnext : next = .discard ∨ next = .create ∨ next = .spawn none) :
    TaskStep s p (.releaseTab raw) []
      { s with artifacts := (s.artifacts.releaseTab p.tabId stuck).2 } (some next)
  | created {ids : List String} {id : String} {a : RawArtifactStore} (hid : id ∈ ids)
      (hset : Sets id (fun o ↦ if p = o then some false else none) s.artifacts a) :
    TaskStep s p .create ids { s with artifacts := a } (some (.spawn (some id)))
  | notCreated (ids : List String) : TaskStep s p .create ids s (some .discard)
  | discarded :
    TaskStep s p .discard [] { s with coordinator := (s.coordinator.discardTab p.tabId).2 } none
  | spawned (id : Option String) : TaskStep s p (.spawn id) [] s (some (.transition id))
  -- the task, up to the driver
  | entered {id a : Option String} {c : SqlExecutionCoordinator}
      (hentry : entryOf s.coordinator p = some (.starting, a))
      (hacts : Acts p (some (.running, a)) s.coordinator c) :
    TaskStep s p (.transition id) [] { s with coordinator := c } (some (.run (.ofArtifact id)))
  | notEntered {id : Option String} {c : SqlExecutionCoordinator}
      (hentry : ∀ a, entryOf s.coordinator p ≠ some (.starting, a))
      (hacts : Acts p (entryOf s.coordinator p) s.coordinator c) :
    TaskStep s p (.transition id) [] { s with coordinator := c } (dropped id)
  | dropped {id : String} {a : RawArtifactStore} (hset : Sets id (fun _ ↦ none) s.artifacts a) :
    TaskStep s p (.drop id) [] { s with artifacts := a } none
  -- the driver
  | observed {w : Writer} {c : SqlExecutionCoordinator}
      (hacts : Acts p (entryOf s.coordinator p) s.coordinator c) :
    TaskStep s p (.run w) [] { s with coordinator := c } (some (.run w))
  | written {w : Writer} {a : RawArtifactStore}
      (hsame : ∀ o other, artifactOf a o other = artifactOf s.artifacts o other) :
    TaskStep s p (.run w) [] { s with artifacts := a } (some (.run w))
  | lost {id : String} {w : Writer} {a : RawArtifactStore} (hw : w = .opened id ∨ w = .absent)
      (hset : Sets id (fun _ ↦ none) s.artifacts a) :
    TaskStep s p (.run (.opened id)) [] { s with artifacts := a } (some (.run w))
  | finished {id : String} {record : RawArtifactRecord} {a : RawArtifactStore}
      (hrecord : s.artifacts.entries.lookup id = some record)
      (hset : Sets id (fun o ↦ if record.owner = o then some true else none) s.artifacts a) :
    TaskStep s p (.run (.opened id)) [] { s with artifacts := a } (some (.run (.finished id)))
  | answered {w : Writer} (hw : ∀ id, w ≠ .opened id) (outcome : SqlExecutionOutcome)
      (hid : ∀ id, outcome.artifactId? = some id → w = .finished id) :
    TaskStep s p (.run w) [] s (some (.completeSuccess outcome))
  | failed {w : Writer} (hw : ∀ id, w ≠ .opened id) {next : Phase}
      (hnext : (∃ e, next = .canceled e) ∨
        ∃ state e, next = .failed state e ∧ (state = .failed ∨ state = .timedOut)) :
    TaskStep s p (.run w) [] s (some next)
  -- the task, after the driver
  | succeeded {outcome : SqlExecutionOutcome} {state : SqlExecutionState} {a : Option String}
      {c : SqlExecutionCoordinator} (hentry : entryOf s.coordinator p = some (state, a))
      (hstate : isValidTransition state .succeeded)
      (hacts : Acts p (some (.succeeded, outcome.artifactId?)) s.coordinator c) :
    TaskStep s p (.completeSuccess outcome) [] { s with coordinator := c }
      (if outcome.artifactId?.isSome then none else some .releaseExecution)
  | notSucceeded {outcome : SqlExecutionOutcome} {c : SqlExecutionCoordinator}
      (hentry : ∀ state a, entryOf s.coordinator p = some (state, a) →
        isValidTransition state .succeeded = false)
      (hacts : Acts p (entryOf s.coordinator p) s.coordinator c) :
    TaskStep s p (.completeSuccess outcome) [] { s with coordinator := c } (some .releaseExecution)
  | cleared {phase : Phase} (stuck : String → Bool) {next : Option Phase}
      (hnext : phase = .releaseExecution ∧ next = none ∨
        (∃ e, phase = .canceled e ∧ next = some (.readSnapshot e)) ∨
        ∃ state e, phase = .failed state e ∧ next = some (.completeFailure state e)) :
    TaskStep s p phase [] { s with artifacts := (s.artifacts.releaseExecution p stuck).2 } next
  | leftToControl {e : IpcError}
      (hentry : ∀ state a, entryOf s.coordinator p = some (state, a) → state = .canceling) :
    TaskStep s p (.readSnapshot e) [] s none
  | reports (e : IpcError) :
    TaskStep s p (.readSnapshot e) [] s (some (.completeFailure .failed e))
  | reported (phase : Phase) {state : SqlExecutionState} {c : SqlExecutionCoordinator}
      (hphase : phase.running = true ∧ ∀ id, phase.clears id → phase.holds = some id)
      (hstate : state = .failed ∨ state = .timedOut)
      (hacts : Acts p ((entryOf s.coordinator p).map fun e ↦
        if isValidTransition e.1 state then (state, none) else e) s.coordinator c) :
    TaskStep s p phase [] { s with coordinator := c } (dropped phase.holds)

section Cases

variable {s : Shared} {p : RawArtifactOwner}

/-- The driver reports its answer. -/
theorem taskStep_answered {w : Writer} (hw : ∀ id, w ≠ .opened id)
    (result : IpcResult SqlExecutionOutcome) :
    TaskStep s p (.run w) [] s (some (answered w result)) := by
  cases result with
  | error e =>
    rw [answered]
    split_ifs
    · exact .failed hw (.inl ⟨e, rfl⟩)
    · exact .failed hw (.inr ⟨_, e, rfl, .inr rfl⟩)
    · exact .failed hw (.inr ⟨_, e, rfl, .inl rfl⟩)
  | ok outcome =>
    cases hid : outcome.artifactId? with
    | none =>
      have heq : answered w (.ok outcome) = .completeSuccess outcome := by simp only [answered, hid]
      rw [heq]
      refine .answered hw outcome fun id h ↦ ?_
      rw [hid] at h
      cases h
    | some id =>
      cases w with
      | absent =>
        have heq : answered .absent (.ok outcome) = .run .absent := by simp only [answered, hid]
        rw [heq]
        exact .idle _ _
      | opened artifactId => exact absurd rfl (hw artifactId)
      | finished finishedId =>
        rcases eq_or_ne id finishedId with rfl | hne
        · have heq : answered (.finished id) (.ok outcome) = .completeSuccess outcome := by
            simp only [answered, hid, if_true]
          rw [heq]
          refine .answered hw outcome fun id' h ↦ ?_
          rw [hid] at h
          rw [Option.some.inj h]
        · have heq : answered (.finished finishedId) (.ok outcome) = .run (.finished finishedId) := by
            simp only [answered, hid, if_neg hne]
          rw [heq]
          exact .idle _ _

/-- One operation of the driver. -/
theorem driverStep_cases (hbelow : RevisionsBelow s.coordinator) (w : Writer) (input : TaskInput) :
    TaskStep s p (.run w) input.ids (driverStep s p w input).1 (driverStep s p w input).2 := by
  cases input with
  | proceed | create => exact .idle _ _
  | summary summary progressAvailable =>
    exact .observed (acts_updateSummary hbelow summary progressAvailable)
  | warning message => exact .observed (acts_appendWarning hbelow message)
  | write chunk written stuck =>
    cases w with
    | absent | finished => exact .idle _ _
    | opened id =>
      rcases RawArtifactStore.artifactOf_writeChunk s.artifacts id chunk written stuck with h | h
      · exact .written h
      · exact .lost (.inl rfl) h
  | finish mode flushed =>
    cases w with
    | absent | finished => exact .idle _ _
    | opened id =>
      have hcases := RawArtifactStore.artifactOf_finish s.artifacts id mode flushed
      dsimp only [driverStep]
      generalize s.artifacts.finish id mode flushed = r at hcases
      obtain ⟨answer, a⟩ := r
      rcases hcases with ⟨descriptor, record, rfl, rfl, hrecord, hset⟩ | ⟨⟨e, rfl⟩, hset⟩
      · exact .finished hrecord hset
      · exact .lost (.inr rfl) hset
  | abort stuck =>
    cases w with
    | absent | finished => exact .idle _ _
    | opened id =>
      exact .lost (.inr rfl) (RawArtifactStore.artifactOf_abortArtifact s.artifacts id stuck)
  | answer result =>
    cases w with
    | opened => exact .idle _ _
    | absent => exact taskStep_answered (w := .absent) (fun _ h ↦ (nomatch h)) result
    | finished id => exact taskStep_answered (w := .finished id) (fun _ h ↦ (nomatch h)) result
  | unavailable now =>
    have hacts := acts_completeFailure (p := p) hbelow (.inl rfl)
      (.ofError (.notFound "Managed SQL executor became unavailable")) now
    cases w with
    | finished => exact .idle _ _
    | absent => exact .reported (.run .absent) ⟨rfl, fun _ h ↦ h.elim⟩ (.inl rfl) hacts
    | opened id =>
      exact .reported (.run (.opened id)) ⟨rfl, fun _ h ↦ congrArg some h⟩ (.inl rfl) hacts

/-- **Everything that an operation of a task can do.** -/
theorem taskStep_cases (hbelow : RevisionsBelow s.coordinator) {phase : Phase} (hfails : phase.Fails)
    (input : TaskInput) :
    TaskStep s p phase input.ids (taskStep s p phase input).1 (taskStep s p phase input).2 := by
  cases phase with
  | releaseTab raw =>
    cases input with
    | proceed now stuck =>
      have hreleased := TaskStep.released (s := s) (p := p) raw stuck
      dsimp only [taskStep]
      generalize s.artifacts.releaseTab p.tabId stuck = r at hreleased
      obtain ⟨answer, a⟩ := r
      cases answer with
      | error e => exact hreleased _ (.inl rfl)
      | ok _ =>
        cases raw with
        | true => exact hreleased _ (.inr (.inl rfl))
        | false => exact hreleased _ (.inr (.inr rfl))
    | _ => exact .idle _ _
  | create =>
    cases input with
    | create directory attempts =>
      have hcases := RawArtifactStore.start_cases s.artifacts p directory attempts
      dsimp only [taskStep]
      generalize s.artifacts.start p directory attempts = r at hcases
      obtain ⟨answer, a⟩ := r
      rcases hcases with ⟨id, hmem, rfl, hset⟩ | ⟨⟨e, rfl⟩, rfl⟩
      · exact .created hmem hset
      · exact .notCreated _
    | _ => exact .idle _ _
  | discard =>
    cases input with
    | proceed => exact .discarded
    | _ => exact .idle _ _
  | spawn id =>
    cases input with
    | proceed => exact .spawned id
    | _ => exact .idle _ _
  | transition id =>
    cases input with
    | proceed now =>
      have hacts := acts_transition (p := p) hbelow .running now
      have hanswers := fst_transition (p := p) hbelow .running now
      dsimp only [taskStep]
      generalize s.coordinator.transition p.tabId p.executionId .running now = r at hacts hanswers
      obtain ⟨answer, c⟩ := r
      cases answer with
      | ok snapshot =>
        obtain ⟨⟨state, a⟩, he, hvalid⟩ := hanswers.1 ⟨snapshot, rfl⟩
        obtain rfl : state = .starting := by cases state <;> first | rfl | cases hvalid
        rw [he] at hacts
        exact .entered he hacts
      | error e =>
        have hentry (e) (he : entryOf s.coordinator p = some e) :
            isValidTransition e.1 .running = false := by
          refine Bool.eq_false_iff.2 fun hvalid ↦ ?_
          obtain ⟨_, h⟩ := hanswers.2 ⟨e, he, hvalid⟩
          cases h
        refine .notEntered (fun a ha ↦ (nomatch hentry _ ha)) ?_
        refine ⟨hacts.changes, hacts.untouched, hacts.entryOf_eq.trans ?_⟩
        cases he : entryOf s.coordinator p with
        | none => rfl
        | some e => rw [Option.map_some, hentry e he]; rfl
    | _ => exact .idle _ _
  | drop id =>
    cases input with
    | proceed now stuck =>
      exact .dropped (RawArtifactStore.artifactOf_abortArtifact s.artifacts id (stuck id))
    | _ => exact .idle _ _
  | run w => exact driverStep_cases hbelow w input
  | completeSuccess outcome =>
    cases input with
    | proceed now =>
      have hacts := acts_completeSuccess (p := p) hbelow outcome now
      have hanswers := fst_completeSuccess (p := p) hbelow outcome now
      dsimp only [taskStep]
      generalize s.coordinator.completeSuccess p.tabId p.executionId outcome now = r at hacts hanswers
      obtain ⟨answer, c⟩ := r
      cases answer with
      | ok snapshot =>
        obtain ⟨⟨state, a⟩, he, hvalid⟩ := hanswers.1 ⟨snapshot, rfl⟩
        rw [he, Option.map_some, if_pos hvalid] at hacts
        exact .succeeded he hvalid hacts
      | error e =>
        have hentry (e) (he : entryOf s.coordinator p = some e) :
            isValidTransition e.1 .succeeded = false := by
          refine Bool.eq_false_iff.2 fun hvalid ↦ ?_
          obtain ⟨_, h⟩ := hanswers.2 ⟨e, he, hvalid⟩
          cases h
        refine .notSucceeded (fun state a ha ↦ hentry _ ha) ?_
        refine ⟨hacts.changes, hacts.untouched, hacts.entryOf_eq.trans ?_⟩
        cases he : entryOf s.coordinator p with
        | none => rfl
        | some e => rw [Option.map_some, hentry e he]; rfl
    | _ => exact .idle _ _
  | releaseExecution =>
    cases input with
    | proceed now stuck => exact .cleared stuck (.inl ⟨rfl, rfl⟩)
    | _ => exact .idle _ _
  | canceled e =>
    cases input with
    | proceed now stuck => exact .cleared stuck (.inr (.inl ⟨e, rfl, rfl⟩))
    | _ => exact .idle _ _
  | failed state e =>
    cases input with
    | proceed now stuck => exact .cleared stuck (.inr (.inr ⟨state, e, rfl, rfl⟩))
    | _ => exact .idle _ _
  | readSnapshot e =>
    cases input with
    | proceed now stuck =>
      dsimp only [taskStep]
      cases hsnapshot : s.coordinator.snapshot p.tabId p.executionId with
      | error error =>
        refine .leftToControl fun state a ha ↦ ?_
        obtain ⟨entry, hlookup, hid, -⟩ := exists_of_entryOf ⟨rfl, rfl⟩ ha
        rw [snapshot, entryMut_eq_ok_iff.2 ⟨hlookup, hid⟩] at hsnapshot
        cases hsnapshot
      | ok found =>
        dsimp only
        split_ifs with hstate
        · refine .leftToControl fun state a ha ↦ ?_
          obtain ⟨entry, hlookup, hid, he⟩ := exists_of_entryOf ⟨rfl, rfl⟩ ha
          rw [snapshot, entryMut_eq_ok_iff.2 ⟨hlookup, hid⟩] at hsnapshot
          cases hsnapshot
          exact (congrArg Prod.fst he).symm.trans hstate
        · exact .reports e
    | _ => exact .idle _ _
  | completeFailure state e =>
    cases input with
    | proceed now =>
      refine .reported (.completeFailure state e) ⟨rfl, fun _ h ↦ h.elim⟩ hfails ?_
      exact acts_completeFailure hbelow (hfails.imp_right .inl) (.ofError e) now
    | _ => exact .idle _ _

end Cases

/-- What an execution sees, in front of what it knows about the calls. -/
def Shared.seen (s : Shared) (o : RawArtifactOwner) (phase : Option Phase) (v : Local) : Local :=
  { v with entry := entryOf s.coordinator o, phase := phase, artifact := artifactOf s.artifacts o }

namespace TaskStep

variable {s s' : Shared} {p : RawArtifactOwner} {phase : Phase} {ids : List String}
  {next : Option Phase} {v : Local}

/-- An entry that `complete_failure` and `complete_cancel` leave as it is has ended. -/
theorem map_isValidTransition_eq {v : Local} (h : v.Sound) {state : SqlExecutionState}
    (hstate : state = .failed ∨ state = .timedOut ∨ state = .canceled ∨ state = .cancelFailed)
    {f : SqlExecutionState × Option String → SqlExecutionState × Option String}
    (hf : ∀ e, v.entry = some e → isTerminal e.1 = false → f e = (state, none)) :
    (v.entry.map fun e ↦ if isValidTransition e.1 state then f e else e) =
      v.entry.map (Local.endIn state) := by
  cases he : v.entry with
  | none => rfl
  | some e =>
    refine congrArg some ?_
    show (if isValidTransition e.1 state then f e else e) = _
    rw [Local.endIn]
    cases hterminal : isTerminal e.1 with
    | true =>
      have hnot : isValidTransition e.1 state = false := by
        refine Bool.eq_false_iff.2 fun hvalid ↦ ?_
        rw [isTerminal_eq_false_of_isValidTransition hvalid] at hterminal
        cases hterminal
      rw [hnot]
      rfl
    | false =>
      have hvalid : isValidTransition e.1 state = true := by
        have hqueued := h.queued e.2
        rw [he] at hqueued
        obtain ⟨st, a⟩ := e
        cases st with
        | queued => exact absurd rfl hqueued
        | starting | running | canceling => rcases hstate with rfl | rfl | rfl | rfl <;> rfl
        | _ => cases hterminal
      rw [hvalid]
      exact hf e he hterminal

section

variable (h : TaskStep s p phase ids s' next)
include h

/-- **An operation of its own task keeps the invariant of an execution.** -/
theorem sound
    (hown : ∀ id record, phase.holds = some id → s.artifacts.entries.lookup id = some record → record.owner = p)
    (hs : (s.seen p (some phase) v).Sound) : (s'.seen p next v).Sound := by
  cases h with
  | idle => exact hs
  | released raw stuck next hnext =>
    have hnone : artifactOf (s.artifacts.releaseTab p.tabId stuck).2 p = fun _ ↦ none := by
      funext id
      exact (RawArtifactStore.artifactOf_releaseTab s.artifacts p.tabId stuck p id).trans (if_pos rfl)
    rw [Shared.seen, hnone]
    exact (Local.Step.released rfl next hnext).sound hs
  | created hid hset =>
    rw [Shared.seen, hset.update, if_pos rfl]
    exact (Local.Step.created rfl _).sound hs
  | notCreated => exact (Local.Step.notCreated rfl).sound hs
  | discarded =>
    rw [Shared.seen, entryOf_eq_none_of_lookup ((lookup_discardTab _ _ _).trans (if_pos rfl))]
    exact (Local.Step.discarded rfl).sound hs
  | spawned => exact (Local.Step.spawned rfl).sound hs
  | entered hentry hacts =>
    rw [Shared.seen, hacts.entryOf_eq]
    exact (Local.Step.entered rfl hentry).sound hs
  | notEntered hentry hacts =>
    rw [Shared.seen, hacts.entryOf_eq]
    exact (Local.Step.notEntered rfl hentry).sound hs
  | dropped hset =>
    rw [Shared.seen, hset.update]
    exact (Local.Step.dropped rfl).sound hs
  | observed hacts =>
    rw [Shared.seen, hacts.entryOf_eq]
    exact hs
  | written hsame =>
    rw [Shared.seen, show artifactOf _ p = artifactOf s.artifacts p from funext (hsame p)]
    exact hs
  | lost hw hset =>
    rw [Shared.seen, hset.update]
    exact (Local.Step.lost rfl _ hw).sound hs
  | @finished id record a hrecord hset =>
    obtain rfl := hown id record rfl hrecord
    rw [Shared.seen, hset.update, if_pos rfl]
    refine (Local.Step.finished (b := record.completed) rfl ?_).sound hs
    exact (RawArtifactStore.artifactOf_of_lookup hrecord record.owner).trans (if_pos rfl)
  | answered hw outcome hid => exact (Local.Step.answered rfl hw outcome hid).sound hs
  | failed hw hnext =>
    refine (Local.Step.failed rfl hw _ ?_).sound hs
    exact hnext.imp_right fun ⟨state, e, heq, _⟩ ↦ ⟨state, e, heq⟩
  | succeeded hentry hstate hacts =>
    rw [Shared.seen, hacts.entryOf_eq]
    refine (Local.Step.succeeded rfl hentry ?_).sound hs
    exact isTerminal_eq_false_of_isValidTransition hstate
  | @notSucceeded outcome c hentry hacts =>
    rw [Shared.seen, hacts.entryOf_eq]
    refine (Local.Step.notSucceeded rfl fun state a ha ↦ ?_).sound hs
    have hnot := hentry state a ha
    cases state with
    | queued => exact absurd ha (hs.queued a)
    | starting =>
      obtain ⟨q, hq, hbefore⟩ := hs.starting a ha
      obtain rfl := Option.some.inj hq
      cases hbefore
    | running | canceling => cases hnot
    | _ => rfl
  | @cleared phase stuck next hnext =>
    have hnone : artifactOf (s.artifacts.releaseExecution p stuck).2 p = fun _ ↦ none := by
      funext id
      exact (RawArtifactStore.artifactOf_releaseExecution s.artifacts p stuck p id).trans (if_pos rfl)
    rw [Shared.seen, hnone]
    rcases hnext with ⟨rfl, rfl⟩ | ⟨e, rfl, rfl⟩ | ⟨state, e, rfl, rfl⟩
    · exact (Local.Step.cleared rfl).sound hs
    · exact (Local.Step.canceled rfl).sound hs
    · exact (Local.Step.removed rfl).sound hs
  | leftToControl hentry => exact (Local.Step.leftToControl rfl hentry).sound hs
  | reports e => exact (Local.Step.reports rfl _).sound hs
  | @reported _ state c hphase hstate hacts =>
    have hmap := map_isValidTransition_eq (f := fun _ ↦ (state, none)) hs
      (hstate.imp_right .inl) fun _ _ _ ↦ rfl
    have hterminal : isTerminal state = true := by rcases hstate with rfl | rfl <;> rfl
    rw [Shared.seen, hacts.entryOf_eq.trans hmap]
    exact (Local.Step.reported rfl hphase.1 state hterminal _ hphase.2).sound hs

theorem changes : Changes s.coordinator s'.coordinator := by
  cases h with
  | discarded => exact changes_discardTab _ _
  | entered _ hacts | notEntered _ hacts | observed hacts | succeeded _ _ hacts | notSucceeded _ hacts
  | reported _ _ _ hacts => exact hacts.changes
  | _ => exact .refl

/-- The entries of the other executions stay, unless the operation is `discard_tab`. -/
theorem untouched (hphase : phase ≠ .discard) :
    Untouched p.executionId s.coordinator s'.coordinator := by
  cases h with
  | discarded => exact absurd rfl hphase
  | entered _ hacts | notEntered _ hacts | observed hacts | succeeded _ _ hacts | notSucceeded _ hacts
  | reported _ _ _ hacts => exact hacts.untouched
  | _ => exact fun _ _ hlookup _ ↦ hlookup

theorem discard_cases (hphase : phase = .discard) :
    s' = s ∨ s' = { s with coordinator := (s.coordinator.discardTab p.tabId).2 } := by
  subst hphase
  cases h with
  | idle => exact .inl rfl
  | discarded => exact .inr rfl
  | cleared _ hnext => rcases hnext with ⟨h, -⟩ | ⟨_, h, -⟩ | ⟨_, _, h, -⟩ <;> cases h
  | reported _ hp => cases hp.1

theorem releaseTab_cases {raw : Bool} (hphase : phase = .releaseTab raw) :
    s' = s ∧ next = some phase ∨
      ∃ stuck, s' = { s with artifacts := (s.artifacts.releaseTab p.tabId stuck).2 } := by
  subst hphase
  cases h with
  | idle => exact .inl ⟨rfl, rfl⟩
  | released _ stuck => exact .inr ⟨stuck, rfl⟩
  | cleared _ hnext => rcases hnext with ⟨h, -⟩ | ⟨_, h, -⟩ | ⟨_, _, h, -⟩ <;> cases h
  | reported _ hp => cases hp.1

end

variable {o : RawArtifactOwner}

/-- The artifacts of the other executions stay, unless the operation is `release_tab`. -/
theorem artifactOf_of_ne (h : TaskStep s p phase ids s' next) (hphase : ∀ raw, phase ≠ .releaseTab raw)
    (hown : ∀ id record, phase.holds = some id → s.artifacts.entries.lookup id = some record →
      record.owner = p) (hfresh : ∀ id ∈ ids, s.artifacts.entries.lookup id = none) (ho : o ≠ p) :
    artifactOf s'.artifacts o = artifactOf s.artifacts o := by
  -- the artifact in hand is not theirs
  have hheld {id : String} (hid : phase.holds = some id) : artifactOf s.artifacts o id = none := by
    by_contra hsome
    obtain ⟨b, hb⟩ := Option.ne_none_iff_exists'.1 hsome
    obtain ⟨record, hrecord, rfl, -⟩ := RawArtifactStore.artifactOf_eq_some_iff.1 hb
    exact ho (hown id record hid hrecord)
  cases h with
  | released raw => exact absurd rfl (hphase raw)
  | created hid hset =>
    refine hset.eq_of_none (if_neg ho.symm) ?_
    exact RawArtifactStore.artifactOf_of_lookup_eq_none (hfresh _ hid) o
  | dropped hset => exact hset.eq_of_none rfl (hheld rfl)
  | written hsame => exact funext (hsame o)
  | lost hw hset => exact hset.eq_of_none rfl (hheld rfl)
  | finished hrecord hset =>
    refine hset.eq_of_none (if_neg ?_) (hheld rfl)
    rw [hown _ _ rfl hrecord]
    exact ho.symm
  | cleared stuck =>
    funext id
    exact (RawArtifactStore.artifactOf_releaseExecution s.artifacts p stuck o id).trans (if_neg ho)
  | _ => rfl

/-- Every artifact afterwards was there, or is the one that the task has created. -/
theorem artifact_known (h : TaskStep s p phase ids s' next) {id : String} {b : Bool}
    (hb : artifactOf s'.artifacts o id = some b) :
    (∃ b', artifactOf s.artifacts o id = some b') ∨ o = p ∧ id ∈ ids := by
  cases h with
  | released raw stuck =>
    have hreleased := RawArtifactStore.artifactOf_releaseTab s.artifacts p.tabId stuck o id
    exact .inl ⟨b, (Option.ite_none_left_eq_some.1 (hreleased.symm.trans hb)).2⟩
  | cleared stuck =>
    have hreleased := RawArtifactStore.artifactOf_releaseExecution s.artifacts p stuck o id
    exact .inl ⟨b, (Option.ite_none_left_eq_some.1 (hreleased.symm.trans hb)).2⟩
  | created hid hset =>
    rcases hset.exists_of_eq_some hb with hbefore | ⟨rfl, hvalue⟩
    · exact .inl hbefore
    · split_ifs at hvalue with heq
      exact .inr ⟨heq.symm, hid⟩
  | dropped hset | lost _ hset =>
    rcases hset.exists_of_eq_some hb with hbefore | ⟨-, hvalue⟩
    · exact .inl hbefore
    · cases hvalue
  | finished hrecord hset =>
    rcases hset.exists_of_eq_some hb with hbefore | ⟨rfl, hvalue⟩
    · exact .inl hbefore
    · split_ifs at hvalue with heq
      exact .inl ⟨_, (RawArtifactStore.artifactOf_of_lookup hrecord o).trans (if_pos heq)⟩
  | written hsame => exact .inl ⟨b, (hsame o id).symm.trans hb⟩
  | _ => exact .inl ⟨b, hb⟩

/-- The artifact that a task has in hand was in its hand, or it has created it. -/
theorem holds (h : TaskStep s p phase ids s' next) {q : Phase} {id : String} (hq : next = some q)
    (hid : q.holds = some id) : phase.holds = some id ∨ id ∈ ids := by
  have hdropped {held : Option String} (hq : Execution.dropped held = some q) : held = some id := by
    cases held with
    | none => cases hq
    | some other =>
      obtain rfl := Option.some.inj hq
      exact hid
  cases h with
  | notEntered => exact .inl (hdropped hq)
  | reported => exact .inl (hdropped hq)
  | created hmem =>
    obtain rfl := Option.some.inj hq
    exact .inr (Option.some.inj hid ▸ hmem)
  | released _ _ _ hnext =>
    obtain rfl := Option.some.inj hq
    rcases hnext with rfl | rfl | rfl <;> cases hid
  | @entered held =>
    obtain rfl := Option.some.inj hq
    cases held with
    | none => cases hid
    | some other => exact .inl hid
  | lost hw =>
    obtain rfl := Option.some.inj hq
    rcases hw with rfl | rfl
    · exact .inl hid
    · cases hid
  | answered _ outcome hfinished =>
    obtain rfl := Option.some.inj hq
    rw [hfinished id hid]
    exact .inl rfl
  | failed _ hnext =>
    obtain rfl := Option.some.inj hq
    rcases hnext with ⟨e, rfl⟩ | ⟨state, e, rfl, -⟩ <;> cases hid
  | succeeded =>
    split_ifs at hq
    obtain rfl := Option.some.inj hq
    cases hid
  | cleared _ hnext =>
    rcases hnext with ⟨-, rfl⟩ | ⟨e, -, rfl⟩ | ⟨state, e, -, rfl⟩ <;> cases hq <;> cases hid
  | idle | spawned | observed | written | finished =>
    obtain rfl := Option.some.inj hq
    exact .inl hid
  | notCreated | notSucceeded | reports =>
    obtain rfl := Option.some.inj hq
    cases hid
  | discarded | dropped | leftToControl => cases hq

theorem fails (h : TaskStep s p phase ids s' next) (hfails : phase.Fails) {q : Phase}
    (hq : next = some q) : q.Fails := by
  have hdropped {held : Option String} (hq : Execution.dropped held = some q) : q.Fails := by
    cases held with
    | none => cases hq
    | some other =>
      obtain rfl := Option.some.inj hq
      trivial
  cases h with
  | idle =>
    obtain rfl := Option.some.inj hq
    exact hfails
  | notEntered => exact hdropped hq
  | reported => exact hdropped hq
  | released _ _ _ hnext =>
    obtain rfl := Option.some.inj hq
    rcases hnext with rfl | rfl | rfl <;> trivial
  | failed _ hnext =>
    obtain rfl := Option.some.inj hq
    rcases hnext with ⟨e, rfl⟩ | ⟨state, e, rfl, hstate⟩
    · trivial
    · exact hstate
  | succeeded =>
    split_ifs at hq
    obtain rfl := Option.some.inj hq
    trivial
  | cleared _ hnext =>
    rcases hnext with ⟨-, rfl⟩ | ⟨e, -, rfl⟩ | ⟨state, e, rfl, rfl⟩
    · cases hq
    · cases hq
      trivial
    · cases hq
      exact hfails
  | reports =>
    obtain rfl := Option.some.inj hq
    exact .inl rfl
  | created | notCreated | spawned | entered | observed | written | lost | finished | answered
  | notSucceeded =>
    obtain rfl := Option.some.inj hq
    trivial
  | discarded | dropped | leftToControl => cases hq

end TaskStep

/-! ### The operations of a call -/

/-- The execution that a call acts for. -/
def Call.owner? : Call → Option RawArtifactOwner
  | .beginCancel o | .control o | .releaseArtifact o | .releaseEntry o => some o
  | .closeTab _ | .disconnect _ => none

/-- An operation for the execution `p` that the others do not see. -/
structure OwnEffect (p : RawArtifactOwner) (s s' : Shared) : Prop where
  changes : Changes s.coordinator s'.coordinator
  untouched : Untouched p.executionId s.coordinator s'.coordinator
  artifactOf_of_ne : ∀ o ≠ p, artifactOf s'.artifacts o = artifactOf s.artifacts o

section Calls

variable {s : Shared} {p : RawArtifactOwner}

theorem OwnEffect.refl : OwnEffect p s s :=
  ⟨.refl, fun _ _ hlookup _ ↦ hlookup, fun _ _ ↦ rfl⟩

theorem Acts.ownEffect {value : Option (SqlExecutionState × Option String)}
    {c : SqlExecutionCoordinator} (h : Acts p value s.coordinator c) :
    OwnEffect p s { s with coordinator := c } :=
  ⟨h.changes, h.untouched, fun _ _ ↦ rfl⟩

theorem ownEffect_releaseExecution (stuck : String → Bool) :
    OwnEffect p s { s with artifacts := (s.artifacts.releaseExecution p stuck).2 } := by
  refine ⟨.refl, fun _ _ hlookup _ ↦ hlookup, fun o ho ↦ funext fun id ↦ ?_⟩
  exact (RawArtifactStore.artifactOf_releaseExecution s.artifacts p stuck o id).trans (if_neg ho)

/-- What an operation of a call for `p` can do, with the input of the environment. -/
inductive CallStep (s : Shared) (p : RawArtifactOwner) :
    Call → CallInput → Shared → Option Call → Prop
  | idle {call : Call} (hcall : call.owner? = some p) (input : CallInput) :
    CallStep s p call input s (some call)
  | refused {c : SqlExecutionCoordinator} (input : CallInput)
      (hacts : Acts p (entryOf s.coordinator p) s.coordinator c) :
    CallStep s p (.beginCancel p) input { s with coordinator := c } none
  | beginCancel {c : SqlExecutionCoordinator} {state : SqlExecutionState} {a : Option String}
      (input : CallInput) (hentry : entryOf s.coordinator p = some (state, a))
      (hstate : isTerminal state = false) (hacts : Acts p (some (.canceling, a)) s.coordinator c) :
    CallStep s p (.beginCancel p) input { s with coordinator := c } (some (.control p))
  | completed {c : SqlExecutionCoordinator} {state : SqlExecutionState} (input : CallInput) (b : Bool)
      (hstate : state = .canceled ∨ state = .cancelFailed)
      (hacts : Acts p ((entryOf s.coordinator p).map fun e ↦
        if isValidTransition e.1 state then (state, if b then e.2 else none) else e)
        s.coordinator c) :
    CallStep s p (.control p) input { s with coordinator := c } none
  | released (stuck : String → Bool) :
    CallStep s p (.releaseArtifact p) (.proceed stuck)
      { s with artifacts := (s.artifacts.releaseExecution p stuck).2 } (some (.releaseEntry p))
  | notReleased (stuck : String → Bool)
      (hstuck : ∃ id b, artifactOf s.artifacts p id = some b ∧ stuck id = true) :
    CallStep s p (.releaseArtifact p) (.proceed stuck)
      { s with artifacts := (s.artifacts.releaseExecution p stuck).2 } none
  | entryReleased (input : CallInput) :
    CallStep s p (.releaseEntry p) input { s with
      coordinator := (s.coordinator.releaseForProfile p.profileId p.tabId p.executionId).2 } none

/-- `release_execution` fails on a file that cannot be removed. -/
theorem exists_stuck_of_releaseExecution {stuck : String → Bool} {e : IpcError}
    (h : (s.artifacts.releaseExecution p stuck).1 = .error e) :
    ∃ id b, artifactOf s.artifacts p id = some b ∧ stuck id = true := by
  rw [RawArtifactStore.releaseExecution, RawArtifactStore.releaseMatching] at h
  dsimp only at h
  split_ifs at h with hfailed
  obtain ⟨⟨id, record⟩, hmem, hmatch⟩ := List.any_eq_true.1 hfailed
  obtain ⟨howner, hstuck⟩ := Bool.and_eq_true_iff.1 hmatch
  refine ⟨id, record.completed, RawArtifactStore.artifactOf_eq_some_iff.2 ⟨record, ?_, ?_, rfl⟩, hstuck⟩
  · exact AList.mem_lookup_iff.2 hmem
  · exact beq_iff_eq.1 howner

/-- **Everything that an operation of a call for an execution can do.** -/
theorem callStep_cases (hbelow : RevisionsBelow s.coordinator) {call : Call}
    (hcall : call.owner? = some p) (input : CallInput) :
    CallStep s p call input (callStep s call input).1 (callStep s call input).2 := by
  cases call with
  | closeTab | disconnect => cases hcall
  | beginCancel o =>
    obtain rfl := Option.some.inj hcall
    cases input with
    | confirmed | unconfirmed => exact .idle rfl _
    | proceed stuck =>
      have hacts := acts_beginCancel (p := o) hbelow
      have hok := @entryOf_of_beginCancel_ok _ hbelow o
      have hcancels := cancels_beginCancel s.coordinator o.tabId o.executionId
      dsimp only [callStep]
      generalize s.coordinator.beginCancel o.tabId o.executionId = r at hacts hok hcancels
      obtain ⟨answer, c⟩ := r
      cases answer with
      | error e =>
        cases hcancels with
        | refused => exact .refused _ .refl
        | overflowed _ hlookup _ _ hmax => exact absurd (hbelow _ _ hlookup) (Nat.not_lt.2 hmax)
      | ok snapshot =>
        obtain ⟨a, ha⟩ := hok rfl
        rw [hacts.entryOf_eq] at ha
        obtain ⟨⟨state, a'⟩, he, hmoved⟩ := Option.map_eq_some_iff.1 ha
        have hactive : isTerminal state = false ∧ a' = a := by
          dsimp only at hmoved
          split_ifs at hmoved with hvalid
          · exact ⟨isTerminal_eq_false_of_isValidTransition hvalid, (Prod.mk.inj hmoved).2⟩
          · obtain ⟨rfl, rfl⟩ := Prod.mk.inj hmoved
            exact ⟨rfl, rfl⟩
        obtain rfl := hactive.2
        exact .beginCancel _ he hactive.1 ⟨hacts.changes, hacts.untouched, hacts.entryOf_eq.trans ha⟩
  | control o =>
    obtain rfl := Option.some.inj hcall
    cases input with
    | proceed => exact .idle rfl _
    | confirmed message now =>
      exact .completed _ true (.inl rfl) (acts_completeCancel hbelow message now)
    | unconfirmed failure now =>
      exact .completed _ false (.inr rfl) (acts_completeFailure hbelow (.inr (.inr rfl)) failure now)
  | releaseArtifact o =>
    obtain rfl := Option.some.inj hcall
    cases input with
    | confirmed | unconfirmed => exact .idle rfl _
    | proceed stuck =>
      have hreleased := CallStep.released (s := s) (p := o) stuck
      have hnotReleased {e} (he : (s.artifacts.releaseExecution o stuck).1 = .error e) :=
        CallStep.notReleased (s := s) (p := o) stuck (exists_stuck_of_releaseExecution he)
      dsimp only [callStep]
      generalize s.artifacts.releaseExecution o stuck = r at hreleased hnotReleased
      obtain ⟨answer, a⟩ := r
      cases answer with
      | error e => exact hnotReleased rfl
      | ok _ => exact hreleased
  | releaseEntry o =>
    obtain rfl := Option.some.inj hcall
    cases input with
    | confirmed | unconfirmed => exact .idle rfl _
    | proceed stuck => exact .entryReleased _

namespace CallStep

variable {s' : Shared} {call : Call} {input : CallInput} {next : Option Call}

theorem ownEffect (h : CallStep s p call input s' next) : OwnEffect p s s' := by
  cases h with
  | idle => exact .refl
  | refused _ hacts | beginCancel _ _ _ hacts | completed _ _ _ hacts => exact hacts.ownEffect
  | released stuck | notReleased stuck _ => exact ownEffect_releaseExecution stuck
  | entryReleased =>
    refine ⟨?_, untouched_releaseForProfile p, fun _ _ ↦ rfl⟩
    rcases releaseForProfile_cases s.coordinator p with ⟨_, -, -, -, -, heq⟩ | ⟨heq, -⟩
    · rw [heq]
      exact .single (.removed _)
    · rw [heq]

theorem artifact_known (h : CallStep s p call input s' next) {o : RawArtifactOwner} {id : String}
    {b : Bool} (hb : artifactOf s'.artifacts o id = some b) :
    ∃ b', artifactOf s.artifacts o id = some b' := by
  cases h with
  | released stuck | notReleased stuck =>
    have hreleased := RawArtifactStore.artifactOf_releaseExecution s.artifacts p stuck o id
    exact ⟨b, (Option.ite_none_left_eq_some.1 (hreleased.symm.trans hb)).2⟩
  | idle | refused | beginCancel | completed | entryReleased => exact ⟨b, hb⟩

theorem owner?_eq (h : CallStep s p call input s' next) : call.owner? = some p := by
  cases h with
  | idle hcall => exact hcall
  | _ => rfl

/-- The call goes on for the same execution. -/
theorem owner_eq (h : CallStep s p call input s' next) {q : Call} (hq : next = some q) :
    q.owner? = some p := by
  cases h with
  | idle hcall =>
    obtain rfl := Option.some.inj hq
    exact hcall
  | beginCancel | released =>
    obtain rfl := Option.some.inj hq
    rfl
  | refused | completed | notReleased | entryReleased => cases hq

end CallStep

end Calls

end Execution
