import NexusPilot.Execution.Coordinator
import NexusPilot.Machine.Run
import Mathlib.Logic.Relation

/-!
# The life of a managed execution

What one operation of the coordinator can do is said once. An accepted change of a snapshot is an
`Edit`: the seven edits of the code, each with the guard that the code checks. A `Change` is an edit that is
stored and published, an edit whose revision did not fit, a signal, a repeated publication or a removal;
and every operation but `register` is a sequence of changes (`apply_changes`). The invariants of the
coordinator are then facts about one change.
-/

namespace Execution

open Drivers Machine

namespace SqlExecutionCoordinator

/-! ### Reading the parts of the state -/

@[simp]
theorem lookup_put (c : SqlExecutionCoordinator) (tabId : String) (entry : ActiveSqlExecution)
    (other : String) :
    (c.put tabId entry).entries.lookup other =
      if other = tabId then some entry else c.entries.lookup other :=
  Table.lookup_insert c.entries tabId other entry

@[simp]
theorem signals_put (c : SqlExecutionCoordinator) (tabId : String) (entry : ActiveSqlExecution) :
    (c.put tabId entry).signals = c.signals :=
  rfl

/-- An entry that the operations find stands under its tab and has the execution asked for. -/
theorem entryMut_eq_ok_iff {c : SqlExecutionCoordinator} {tabId executionId : String}
    {entry : ActiveSqlExecution} :
    c.entryMut tabId executionId = .ok entry ↔
      c.entries.lookup tabId = some entry ∧ entry.snapshot.executionId = executionId := by
  rw [entryMut]
  cases c.entries.lookup tabId with
  | none => exact ⟨fun h ↦ (nomatch h), fun h ↦ (nomatch h.1)⟩
  | some found =>
    show (if found.snapshot.executionId = executionId then _ else _) = _ ↔ _
    split_ifs with hid
    · exact ⟨fun h ↦ by cases h; exact ⟨rfl, hid⟩, fun h ↦ by cases h.1; rfl⟩
    · exact ⟨fun h ↦ (nomatch h), fun h ↦ by cases h.1; exact absurd h.2 hid⟩

end SqlExecutionCoordinator

/-! ### Edits of a snapshot -/

/-- What the operations make of the snapshot of an entry, before its revision is raised. -/
inductive Edit (s : SqlExecutionSnapshot) : SqlExecutionSnapshot → Prop
  | transition (state : SqlExecutionState) (now : ℕ) (h : isValidTransition s.state state) :
    Edit s { s with
      state := state
      finishedAt := if isTerminal state then some now else s.finishedAt }
  | summary (summary : SqlExecutionSummary) (progressAvailable : Bool)
      (h : isTerminal s.state = false) :
    Edit s { s with summary := some summary, progressAvailable := progressAvailable }
  | warning (message : String) (h : isTerminal s.state = false) :
    Edit s { s with observationWarnings := s.observationWarnings ++ [message] }
  | success (outcome : SqlExecutionOutcome) (now : ℕ) (h : isValidTransition s.state .succeeded) :
    Edit s { s with
      state := .succeeded, finishedAt := some now, outcome := some outcome, failure := none }
  | failure (state : SqlExecutionState) (failure : SqlExecutionFailure) (now : ℕ)
      (hstate : state = .failed ∨ state = .timedOut ∨ state = .cancelFailed)
      (h : isValidTransition s.state state) :
    Edit s { s with
      state := state, finishedAt := some now, failure := some failure, outcome := none }
  | beginCancel (h : isValidTransition s.state .canceling) : Edit s { s with state := .canceling }
  | completeCancel (message : String) (now : ℕ) (h : isValidTransition s.state .canceled) :
    Edit s { s with state := .canceled, finishedAt := some now, cancelMessage := some message }

/-- Only active states have a transition. -/
theorem isTerminal_eq_false_of_isValidTransition {a b : SqlExecutionState}
    (h : isValidTransition a b) : isTerminal a = false := by
  revert h
  cases a <;> cases b <;> decide

/-- The payloads of a snapshot agree with its state. -/
structure Coherent (s : SqlExecutionSnapshot) : Prop where
  finishedAt_iff : s.finishedAt.isSome ↔ isTerminal s.state
  outcome_only : s.outcome.isSome → s.state = .succeeded
  failure_only : s.failure.isSome → s.state = .failed ∨ s.state = .timedOut ∨ s.state = .cancelFailed
  cancelMessage_only : s.cancelMessage.isSome → s.state = .canceled

namespace Edit

variable {s t : SqlExecutionSnapshot}

/-- Terminal snapshots are not edited. -/
theorem isTerminal_eq_false (h : Edit s t) : isTerminal s.state = false := by
  cases h with
  | summary _ _ h | warning _ h => exact h
  | transition _ _ h | success _ _ h | failure _ _ _ _ h | beginCancel h | completeCancel _ _ h =>
    exact isTerminal_eq_false_of_isValidTransition h

theorem revision_eq (h : Edit s t) : t.revision = s.revision := by
  cases h <;> rfl

theorem executionId_eq (h : Edit s t) : t.executionId = s.executionId := by
  cases h <;> rfl

variable {state : SqlExecutionState} {now : ℕ}

theorem of_transition (h : s.transition state now = .ok t) :
    Edit s t := by
  obtain ⟨hvalid, h⟩ := ite_ok_else_error_eq_ok_iff.1 h
  exact h ▸ .transition state now hvalid

theorem of_updateSummary {summary : SqlExecutionSummary} {progressAvailable : Bool}
    (h : s.updateSummary summary progressAvailable = .ok t) : Edit s t := by
  obtain ⟨hactive, h⟩ := ite_error_eq_ok_iff.1 h
  rw [← Except.ok.inj h]
  exact .summary summary progressAvailable (Bool.eq_false_iff.2 hactive)

theorem of_completeSuccess {outcome : SqlExecutionOutcome} (h : s.completeSuccess outcome now = .ok t) :
    Edit s t := by
  obtain ⟨hvalid, h⟩ := ite_ok_else_error_eq_ok_iff.1 h
  exact h ▸ .success outcome now hvalid

theorem of_completeFailure {failure : SqlExecutionFailure}
    (hstate : state = .failed ∨ state = .timedOut ∨ state = .cancelFailed)
    (h : s.completeFailure state failure now = .ok t) : Edit s t := by
  obtain ⟨hvalid, h⟩ := ite_ok_else_error_eq_ok_iff.1 h
  exact h ▸ .failure state failure now hstate hvalid

theorem of_completeCancel {message : String} (h : s.completeCancel message now = .ok t) :
    Edit s t := by
  obtain ⟨hvalid, h⟩ := ite_ok_else_error_eq_ok_iff.1 h
  exact h ▸ .completeCancel message now hvalid

end Edit

variable {s : SqlExecutionSnapshot} {c : SqlExecutionCoordinator}

/-- An active snapshot that is coherent has no payload yet. -/
theorem Coherent.of_active (hs : Coherent s) (h : isTerminal s.state = false) :
    s.finishedAt = none ∧ s.outcome = none ∧ s.failure = none ∧ s.cancelMessage = none := by
  have hnone {α : Type} {o : Option α} {p : Prop} (ho : o.isSome → p)
      (hp : p → isTerminal s.state = true) : o = none := by
    rw [← Option.not_isSome_iff_eq_none]
    exact fun hsome ↦ by simp [hp (ho hsome)] at h
  refine ⟨hnone hs.finishedAt_iff.1 id, hnone hs.outcome_only ?_, hnone hs.failure_only ?_,
    hnone hs.cancelMessage_only ?_⟩
  · exact fun h ↦ by rw [h]; rfl
  · rintro (h | h | h) <;> rw [h] <;> rfl
  · exact fun h ↦ by rw [h]; rfl

/-- **An edit keeps the payloads in agreement with the state.** -/
theorem Edit.coherent {t : SqlExecutionSnapshot} (h : Edit s t) (hs : Coherent s) : Coherent t := by
  obtain ⟨hfinished, houtcome, hfailure, hcancel⟩ := hs.of_active h.isTerminal_eq_false
  cases h with
  | transition state now h =>
    refine ⟨?_, by simp [houtcome], by simp [hfailure], by simp [hcancel]⟩
    show (if isTerminal state then some now else s.finishedAt).isSome ↔ _
    cases isTerminal state <;> simp [hfinished]
  | summary _ _ h => exact ⟨by simp [hfinished, h], by simp [houtcome], by simp [hfailure],
      by simp [hcancel]⟩
  | warning _ h => exact ⟨by simp [hfinished, h], by simp [houtcome], by simp [hfailure],
      by simp [hcancel]⟩
  | success => exact ⟨by simp [isTerminal], by simp, by simp, by simp [hcancel]⟩
  | failure state _ _ hstate =>
    refine ⟨?_, by simp, fun _ ↦ hstate, by simp [hcancel]⟩
    rcases hstate with rfl | rfl | rfl <;> simp [isTerminal]
  | beginCancel => exact ⟨by simp [hfinished, isTerminal], by simp [houtcome], by simp [hfailure],
      by simp [hcancel]⟩
  | completeCancel => exact ⟨by simp [isTerminal], by simp [houtcome], by simp [hfailure], by simp⟩

/-! ### What an operation can do -/

/-- The snapshot with the next revision. -/
def SqlExecutionSnapshot.next (s : SqlExecutionSnapshot) : SqlExecutionSnapshot :=
  { s with revision := s.revision + 1 }

namespace SqlExecutionCoordinator

/-- The coordinator after an accepted change of the entry of a tab. -/
def accept (c : SqlExecutionCoordinator) (tabId : String) (entry : ActiveSqlExecution)
    (edited : SqlExecutionSnapshot) : SqlExecutionCoordinator :=
  (c.put tabId { entry with snapshot := edited.next }).publishSnapshot entry.handle edited.next false

/-- The coordinator after a registration. -/
def registered (c : SqlExecutionCoordinator) (input : SqlExecutionStartInput) :
    SqlExecutionCoordinator :=
  { c with
    registrations := c.registrations + 1
    signals := Function.update c.signals c.registrations false
    entries := c.entries.insert input.tabId ⟨input.profileId, input.snapshot, c.registrations⟩
    published := c.published ++ [⟨c.registrations, input.snapshot, false⟩] }

end SqlExecutionCoordinator

open SqlExecutionCoordinator

/-- One change of the coordinator, other than a registration. -/
inductive Change (c : SqlExecutionCoordinator) : SqlExecutionCoordinator → Prop
  | accepted {tabId : String} {entry : ActiveSqlExecution} {edited : SqlExecutionSnapshot}
      (hentry : c.entries.lookup tabId = some entry) (hedit : Edit entry.snapshot edited)
      (hfits : entry.snapshot.revision < u64Max) :
    Change c (c.accept tabId entry edited)
  | overflowed {tabId : String} {entry : ActiveSqlExecution} {edited : SqlExecutionSnapshot}
      (hentry : c.entries.lookup tabId = some entry) (hedit : Edit entry.snapshot edited)
      (hmax : u64Max ≤ entry.snapshot.revision) :
    Change c (c.put tabId { entry with snapshot := edited })
  | signalled (handle : ℕ) : Change c (c.signal handle)
  | repeated {tabId : String} {entry : ActiveSqlExecution}
      (hentry : c.entries.lookup tabId = some entry)
      (hstate : entry.snapshot.state = .canceling) :
    Change c (c.publishSnapshot entry.handle entry.snapshot true)
  | removed (tabId : String) : Change c { c with entries := c.entries.erase tabId }

/-- A sequence of changes. -/
abbrev Changes := Relation.ReflTransGen Change

/-- An answer, with what it says about the change it comes with: nothing happened, an edit was accepted,
or it was stored with a revision that did not fit and the answer is an error. -/
inductive Updates {α : Type} (c : SqlExecutionCoordinator) :
    IpcResult α × SqlExecutionCoordinator → Prop
  | unchanged (r : IpcResult α) : Updates c (r, c)
  | accepted (a : α) {tabId : String} {entry : ActiveSqlExecution} {edited : SqlExecutionSnapshot}
      (hentry : c.entries.lookup tabId = some entry) (hedit : Edit entry.snapshot edited)
      (hfits : entry.snapshot.revision < u64Max) :
    Updates c (.ok a, c.accept tabId entry edited)
  | overflowed (e : IpcError) {tabId : String} {entry : ActiveSqlExecution}
      {edited : SqlExecutionSnapshot} (hentry : c.entries.lookup tabId = some entry)
      (hedit : Edit entry.snapshot edited) (hmax : u64Max ≤ entry.snapshot.revision) :
    Updates c (.error e, c.put tabId { entry with snapshot := edited })

theorem Updates.map {α β : Type} {c : SqlExecutionCoordinator}
    {r : IpcResult α × SqlExecutionCoordinator} (h : Updates c r) (f : α → β) :
    Updates c (r.map (·.map f) id) := by
  cases h with
  | unchanged r => exact .unchanged _
  | accepted a hentry hedit hfits => exact .accepted (f a) hentry hedit hfits
  | overflowed e hentry hedit hmax => exact .overflowed e hentry hedit hmax

theorem Updates.changes {α : Type} {r : IpcResult α × SqlExecutionCoordinator} (h : Updates c r) :
    Changes c r.2 := by
  cases h with
  | unchanged => exact .refl
  | accepted _ hentry hedit hfits => exact .single (.accepted hentry hedit hfits)
  | overflowed _ hentry hedit hmax => exact .single (.overflowed hentry hedit hmax)

namespace SqlExecutionCoordinator

variable {c : SqlExecutionCoordinator} {tabId executionId : String}

/-- The revision is raised, or does not fit in 64 bits. -/
theorem incrementRevision_eq (c : SqlExecutionCoordinator) (tabId : String)
    (entry : ActiveSqlExecution) (edited : SqlExecutionSnapshot) :
    c.incrementRevision tabId entry edited =
      if edited.revision < u64Max then
        (.ok edited.next, c.put tabId { entry with snapshot := edited.next })
      else
        (.error (coordinatorLockError "increment_sql_execution_revision"),
          c.put tabId { entry with snapshot := edited }) := by
  rw [incrementRevision, checkedAdd]
  rcases Nat.lt_or_ge edited.revision u64Max with hlt | hge
  · rw [if_pos (show edited.revision + 1 ≤ u64Max from hlt), if_pos hlt]
    rfl
  · rw [if_neg (show ¬ edited.revision + 1 ≤ u64Max from Nat.not_le.2 (Nat.lt_succ_of_le hge)),
      if_neg (Nat.not_lt.2 hge)]

variable {entry : ActiveSqlExecution} {edited : SqlExecutionSnapshot}
  {update : SqlExecutionSnapshot → IpcResult SqlExecutionSnapshot} {α : Type}
  {r : IpcResult α × SqlExecutionCoordinator}

/-- What follows an edit in `update_snapshot` and in `append_warning`. -/
theorem updates_of_edit (hentry : c.entries.lookup tabId = some entry) (hedit : Edit entry.snapshot edited) :
    Updates c
      (match c.incrementRevision tabId entry edited with
      | (.error e, c) => ((.error e : IpcResult SqlExecutionSnapshot), c)
      | (.ok snapshot, c) => (.ok snapshot, c.publishSnapshot entry.handle snapshot false)) := by
  rw [incrementRevision_eq, hedit.revision_eq]
  rcases Nat.lt_or_ge entry.snapshot.revision u64Max with hlt | hge
  · rw [if_pos hlt]
    exact .accepted _ hentry hedit hlt
  · rw [if_neg (Nat.not_lt.2 hge)]
    exact .overflowed _ hentry hedit hge

/-- `update_snapshot` where it accepts the edit. -/
theorem updateSnapshot_of_edit (hentry : c.entries.lookup tabId = some entry)
    (hid : entry.snapshot.executionId = executionId) (hedit : update entry.snapshot = .ok edited)
    (hfits : edited.revision < u64Max) :
    c.updateSnapshot tabId executionId update = (.ok edited.next, c.accept tabId entry edited) := by
  simp only [updateSnapshot, entryMut_eq_ok_iff.2 ⟨hentry, hid⟩, hedit, incrementRevision_eq,
    if_pos hfits]
  rfl

/-- `update_snapshot` with a closure that makes edits. -/
theorem updates_updateSnapshot (hupdate : ∀ s edited, update s = .ok edited → Edit s edited) :
    Updates c (c.updateSnapshot tabId executionId update) := by
  rw [updateSnapshot]
  cases hentry : c.entryMut tabId executionId with
  | error e => exact .unchanged _
  | ok entry =>
    dsimp only
    cases hedited : update entry.snapshot with
    | error e => exact .unchanged _
    | ok edited =>
      exact updates_of_edit (entryMut_eq_ok_iff.1 hentry).1 (hupdate _ _ hedited)

theorem updates_transition (state : SqlExecutionState) (now : ℕ) :
    Updates c (c.transition tabId executionId state now) :=
  updates_updateSnapshot fun _ _ ↦ .of_transition

theorem updates_updateSummary (summary : SqlExecutionSummary) (progressAvailable : Bool) :
    Updates c (c.updateSummary tabId executionId summary progressAvailable) :=
  updates_updateSnapshot fun _ _ ↦ .of_updateSummary

theorem updates_appendWarning (message : String) :
    Updates c (c.appendWarning tabId executionId message) := by
  rw [appendWarning]
  cases hentry : c.entryMut tabId executionId with
  | error e => exact .unchanged _
  | ok entry =>
    show Updates c (if _ then _ else if _ then _ else _)
    split_ifs with hterminal hnew
    · exact .unchanged _
    · exact updates_of_edit (entryMut_eq_ok_iff.1 hentry).1
        (.warning _ (Bool.eq_false_iff.2 hterminal))
    · exact .unchanged _

theorem updates_completeSuccess (outcome : SqlExecutionOutcome) (now : ℕ) :
    Updates c (c.completeSuccess tabId executionId outcome now) :=
  updates_updateSnapshot fun _ _ ↦ .of_completeSuccess

theorem updates_completeFailure (state : SqlExecutionState) (failure : SqlExecutionFailure)
    (now : ℕ) : Updates c (c.completeFailure tabId executionId state failure now) := by
  rw [completeFailure]
  split_ifs with hstate
  · exact updates_updateSnapshot fun _ _ ↦ .of_completeFailure hstate
  · exact .unchanged _

theorem updates_completeCancel (message : String) (now : ℕ) :
    Updates c (c.completeCancel tabId executionId message now) :=
  updates_updateSnapshot fun _ _ ↦ .of_completeCancel

/-! ### Cancellation -/

/-- What `begin_cancel` does, and with which answer. -/
inductive Cancels {α : Type} (c : SqlExecutionCoordinator) (tabId executionId : String) :
    IpcResult α × SqlExecutionCoordinator → Prop
  | refused (e : IpcError)
      (h : ∀ entry, c.entries.lookup tabId = some entry →
        entry.snapshot.executionId = executionId →
        entry.snapshot.state ≠ .canceling ∧
          isValidTransition entry.snapshot.state .canceling = false) :
    Cancels c tabId executionId (.error e, c)
  | accepted (a : α) {entry : ActiveSqlExecution} (hentry : c.entries.lookup tabId = some entry)
      (hid : entry.snapshot.executionId = executionId)
      (hvalid : isValidTransition entry.snapshot.state .canceling)
      (hfits : entry.snapshot.revision < u64Max) :
    Cancels c tabId executionId
      (.ok a, (c.accept tabId entry { entry.snapshot with state := .canceling }).signal entry.handle)
  | overflowed (e : IpcError) {entry : ActiveSqlExecution}
      (hentry : c.entries.lookup tabId = some entry)
      (hid : entry.snapshot.executionId = executionId)
      (hvalid : isValidTransition entry.snapshot.state .canceling)
      (hmax : u64Max ≤ entry.snapshot.revision) :
    Cancels c tabId executionId
      (.error e, c.put tabId { entry with snapshot := { entry.snapshot with state := .canceling } })
  | repeated (a : α) {entry : ActiveSqlExecution} (hentry : c.entries.lookup tabId = some entry)
      (hid : entry.snapshot.executionId = executionId)
      (hstate : entry.snapshot.state = .canceling) :
    Cancels c tabId executionId
      (.ok a, (c.publishSnapshot entry.handle entry.snapshot true).signal entry.handle)

theorem cancels_beginCancel (c : SqlExecutionCoordinator) (tabId executionId : String) :
    Cancels c tabId executionId (c.beginCancel tabId executionId) := by
  rw [beginCancel]
  cases hentry : c.entryMut tabId executionId with
  | error e =>
    refine .refused e fun entry hlookup hid ↦ ?_
    rw [entryMut_eq_ok_iff.2 ⟨hlookup, hid⟩] at hentry
    cases hentry
  | ok entry =>
    obtain ⟨hlookup, hid⟩ := entryMut_eq_ok_iff.1 hentry
    show Cancels c tabId executionId (if _ then _ else if _ then _ else _)
    split_ifs with hstate hvalid
    · exact .repeated _ hlookup hid hstate
    · rw [incrementRevision_eq]
      rcases Nat.lt_or_ge entry.snapshot.revision u64Max with hlt | hge
      · rw [if_pos (show entry.snapshot.revision < u64Max from hlt)]
        exact .accepted _ hlookup hid hvalid hlt
      · rw [if_neg (show ¬ entry.snapshot.revision < u64Max from Nat.not_lt.2 hge)]
        exact .overflowed _ hlookup hid hvalid hge
    · refine .refused _ fun other hother _ ↦ ?_
      rw [hlookup] at hother
      obtain rfl := Option.some.inj hother
      exact ⟨hstate, Bool.eq_false_iff.2 hvalid⟩

theorem Cancels.changes (h : Cancels c tabId executionId r) : Changes c r.2 := by
  cases h with
  | refused => exact .refl
  | accepted _ hentry _ hvalid hfits =>
    exact .tail (.single (.accepted hentry (.beginCancel hvalid) hfits)) (.signalled _)
  | overflowed _ hentry _ hvalid hmax =>
    exact .single (.overflowed hentry (.beginCancel hvalid) hmax)
  | repeated _ hentry _ hstate =>
    exact .tail (.single (.repeated hentry hstate)) (.signalled _)

/-- The entry of the tab, if it is the execution asked for and can be cancelled, has room for another
revision. -/
def RevisionFits (c : SqlExecutionCoordinator) (tabId executionId : String) : Prop :=
  ∀ entry, c.entries.lookup tabId = some entry → entry.snapshot.executionId = executionId →
    isValidTransition entry.snapshot.state .canceling → entry.snapshot.revision < u64Max

/-- Every entry is as it was, or was moved to `Canceling` with its signal raised. -/
structure Canceling (c c' : SqlExecutionCoordinator) : Prop where
  lookup : ∀ tabId, c'.entries.lookup tabId = c.entries.lookup tabId ∨
    ∃ entry, c.entries.lookup tabId = some entry ∧
      isValidTransition entry.snapshot.state .canceling ∧
      c'.entries.lookup tabId = some { entry with
        snapshot := SqlExecutionSnapshot.next { entry.snapshot with state := .canceling } } ∧
      c'.signals entry.handle = true
  signals : ∀ handle, c.signals handle = true → c'.signals handle = true

theorem Canceling.refl (c : SqlExecutionCoordinator) : Canceling c c :=
  ⟨fun _ ↦ .inl rfl, fun _ ↦ id⟩

theorem Canceling.trans {c₁ c₂ c₃ : SqlExecutionCoordinator} (h : Canceling c₁ c₂)
    (h' : Canceling c₂ c₃) : Canceling c₁ c₃ := by
  refine ⟨fun tabId ↦ ?_, fun handle ↦ h'.signals handle ∘ h.signals handle⟩
  rcases h.lookup tabId with hsame | ⟨entry, hentry, hvalid, hafter, hsignal⟩
  · rw [← hsame]
    exact h'.lookup tabId
  · -- an entry that is canceling already is not moved again
    rcases h'.lookup tabId with hsame | ⟨entry', hentry', hvalid', -⟩
    · exact .inr ⟨entry, hentry, hvalid, hsame.trans hafter, h'.signals _ hsignal⟩
    · rw [hafter] at hentry'
      obtain rfl := Option.some.inj hentry'
      exact absurd hvalid' (by decide : ¬ isValidTransition .canceling .canceling = true)

/-- Room for the revisions stays. -/
theorem Canceling.revisionFits {c c' : SqlExecutionCoordinator} (h : Canceling c c')
    (hfits : RevisionFits c tabId executionId) : RevisionFits c' tabId executionId := by
  intro entry hentry hid hvalid
  rcases h.lookup tabId with hsame | ⟨before, -, -, hafter, -⟩
  · exact hfits entry (hsame ▸ hentry) hid hvalid
  · rw [hafter] at hentry
    obtain rfl := Option.some.inj hentry
    exact absurd hvalid (by decide : ¬ isValidTransition .canceling .canceling = true)

/-- **A cancellation that has room for the revision raises the signal.** -/
theorem Cancels.canceling (h : Cancels c tabId executionId r) (hfits : RevisionFits c tabId executionId) :
    Canceling c r.2 := by
  have hsignals (signals : ℕ → Bool) (handle other : ℕ) (hother : signals other = true) :
      Function.update signals handle true other = true := by
    rcases eq_or_ne other handle with rfl | hne
    · exact Function.update_self ..
    · rwa [Function.update_of_ne hne]
  cases h with
  | refused => exact .refl c
  | overflowed _ hentry hid hvalid hmax =>
    exact absurd (hfits _ hentry hid hvalid) (Nat.not_lt.2 hmax)
  | repeated _ hentry =>
    exact ⟨fun _ ↦ .inl rfl, fun other hother ↦ hsignals _ _ _ hother⟩
  | @accepted _ entry hentry hid hvalid =>
    refine ⟨fun other ↦ ?_, fun other hother ↦ hsignals _ _ _ hother⟩
    rcases eq_or_ne other tabId with rfl | hne
    · refine .inr ⟨entry, hentry, hvalid, ?_, Function.update_self ..⟩
      exact (lookup_put c other _ other).trans (if_pos rfl)
    · exact .inl ((lookup_put c tabId _ other).trans (if_neg hne))

/-- The loop of `cancel_profile`. -/
theorem canceling_cancelEach (executions : List (String × String)) (c : SqlExecutionCoordinator)
    (hfits : ∀ x ∈ executions, RevisionFits c x.1 x.2) :
    Canceling c (c.cancelEach executions).2 := by
  induction executions generalizing c with
  | nil => exact .refl c
  | cons x executions ih =>
    have hhead := (cancels_beginCancel c x.1 x.2).canceling (hfits x List.mem_cons_self)
    rw [cancelEach]
    revert hhead
    rcases c.beginCancel x.1 x.2 with ⟨_ | _, c'⟩ <;> intro hhead
    · exact hhead
    · exact hhead.trans (ih c' fun y hy ↦ hhead.revisionFits (hfits y (List.mem_cons_of_mem x hy)))

theorem changes_cancelEach (executions : List (String × String)) (c : SqlExecutionCoordinator) :
    Changes c (c.cancelEach executions).2 := by
  induction executions generalizing c with
  | nil => exact .refl
  | cons x executions ih =>
    have hhead := (cancels_beginCancel c x.1 x.2).changes
    rw [cancelEach]
    revert hhead
    rcases c.beginCancel x.1 x.2 with ⟨_ | _, c'⟩ <;> intro hhead
    · exact hhead
    · exact hhead.trans (ih c')

theorem Cancels.map {α β : Type} {r : IpcResult α × SqlExecutionCoordinator}
    (h : Cancels c tabId executionId r) (f : α → β) :
    Cancels c tabId executionId (r.map (·.map f) id) := by
  cases h with
  | refused e h => exact .refused e h
  | accepted a hentry hid hvalid hfits => exact .accepted (f a) hentry hid hvalid hfits
  | overflowed e hentry hid hvalid hmax => exact .overflowed e hentry hid hvalid hmax
  | repeated a hentry hid hstate => exact .repeated (f a) hentry hid hstate

/-- `cancel_tab` does nothing, or is `begin_cancel` for the execution that it finds. -/
theorem cancelTab_cases (c : SqlExecutionCoordinator) (tabId : String) :
    c.cancelTab tabId = (.ok false, c) ∨
      ∃ entry, c.entries.lookup tabId = some entry ∧ isTerminal entry.snapshot.state = false ∧
        Cancels c tabId entry.snapshot.executionId (c.cancelTab tabId) := by
  cases hentry : c.entries.lookup tabId with
  | none => exact .inl (by simp only [cancelTab, hentry])
  | some entry =>
    cases hterminal : isTerminal entry.snapshot.state with
    | true => exact .inl (by simp only [cancelTab, hentry, hterminal, if_true])
    | false =>
      have heq : c.cancelTab tabId =
          (c.beginCancel tabId entry.snapshot.executionId).map (·.map fun _ ↦ true) id := by
        simp only [cancelTab, hentry, hterminal, Bool.false_eq_true, if_false]
        rcases c.beginCancel tabId entry.snapshot.executionId with ⟨_ | _, c'⟩ <;> rfl
      exact .inr ⟨entry, rfl, hterminal, heq ▸ (cancels_beginCancel c tabId _).map fun _ ↦ true⟩

theorem snd_cancelProfile (c : SqlExecutionCoordinator) (profileId : String)
    (tabIds : List String) :
    (c.cancelProfile profileId tabIds).2 =
      (c.cancelEach (c.activeExecutions profileId tabIds)).2 := by
  rw [cancelProfile]
  rcases c.cancelEach (c.activeExecutions profileId tabIds) with ⟨_ | _, c'⟩ <;> rfl

/-- What `cancel_profile` collects are the active executions of the profile on the tabs it visits. -/
theorem mem_activeExecutions {c : SqlExecutionCoordinator} {profileId : String}
    {tabIds : List String} {x : String × String} (hx : x ∈ c.activeExecutions profileId tabIds) :
    ∃ entry, x.1 ∈ tabIds ∧ c.entries.lookup x.1 = some entry ∧ entry.profileId = profileId ∧
      isTerminal entry.snapshot.state = false ∧ entry.snapshot.executionId = x.2 := by
  obtain ⟨tabId, htab, h⟩ := List.mem_filterMap.1 hx
  cases hentry : c.entries.lookup tabId with
  | none => simp [hentry] at h
  | some entry =>
    simp only [hentry] at h
    split_ifs at h with hactive
    obtain rfl := Option.some.inj h
    refine ⟨entry, htab, hentry, hactive.1, ?_, rfl⟩
    simpa using hactive.2

/-! ### Removals -/

theorem changes_release (c : SqlExecutionCoordinator) (tabId executionId : String) :
    Changes c (c.release tabId executionId).2 := by
  rw [release]
  cases c.entryMut tabId executionId with
  | error e => exact .refl
  | ok entry =>
    show Changes c (Prod.snd (if _ then _ else _))
    split_ifs
    · exact .single (.removed tabId)
    · exact .refl

theorem changes_discardTab (c : SqlExecutionCoordinator) (tabId : String) :
    Changes c (c.discardTab tabId).2 := by
  rw [discardTab]
  cases c.entries.lookup tabId with
  | none => exact .refl
  | some entry => exact .tail (.single (.removed tabId)) (.signalled _)

theorem changes_discardTabs (tabIds : List String) (c : SqlExecutionCoordinator) :
    Changes c (c.discardTabs tabIds) := by
  induction tabIds generalizing c with
  | nil => exact .refl
  | cons tabId tabIds ih => exact (changes_discardTab c tabId).trans (ih _)

end SqlExecutionCoordinator

/-! ### All operations -/

/-- A registration answers with an error when the tab has an active execution. -/
theorem registerWithSink_eq (c : SqlExecutionCoordinator) (input : SqlExecutionStartInput) :
    c.registerWithSink input =
      if (c.entries.lookup input.tabId).any fun entry ↦ !isTerminal entry.snapshot.state then
        (.error (.conflict ("Tab '" ++ input.tabId ++ "' already has an active SQL execution")), c)
      else (.ok input.snapshot, c.registered input) :=
  rfl

/-- **Every operation but a registration is a sequence of changes.** -/
theorem apply_changes (c : SqlExecutionCoordinator) {op : Operation}
    (hop : ∀ input, op ≠ .register input) : Changes c (op.apply c).2 := by
  cases op with
  | register input => exact absurd rfl (hop input)
  | transition tabId executionId state now => exact (updates_transition state now).changes
  | updateSummary tabId executionId summary progress =>
    exact (updates_updateSummary summary progress).changes
  | appendWarning tabId executionId message => exact (updates_appendWarning message).changes
  | completeSuccess tabId executionId outcome now =>
    exact (updates_completeSuccess outcome now).changes
  | completeFailure tabId executionId state failure now =>
    exact (updates_completeFailure state failure now).changes
  | beginCancel tabId executionId => exact (cancels_beginCancel c tabId executionId).changes
  | completeCancel tabId executionId message now =>
    exact (updates_completeCancel message now).changes
  | release tabId executionId => exact changes_release c tabId executionId
  | discardTab tabId => exact changes_discardTab c tabId
  | discardProfile profileId => exact changes_discardTabs _ c
  | discardAll => exact changes_discardTabs _ c
  | cancelTab tabId =>
    rcases cancelTab_cases c tabId with h | ⟨entry, -, -, h⟩
    · show Changes c (c.cancelTab tabId).2
      rw [h]
    · exact h.changes
  | cancelProfile profileId tabIds =>
    show Changes c (c.cancelProfile profileId tabIds).2
    rw [snd_cancelProfile]
    exact changes_cancelEach _ c

/-! ### Invariants -/

/-- What holds of every coordinator that operations lead to. -/
structure Inv (c : SqlExecutionCoordinator) : Prop where
  coherent : ∀ tabId entry, c.entries.lookup tabId = some entry → Coherent entry.snapshot
  handle_lt : ∀ tabId entry, c.entries.lookup tabId = some entry → entry.handle < c.registrations
  handle_inj : ∀ tabId tabId' entry entry', c.entries.lookup tabId = some entry →
    c.entries.lookup tabId' = some entry' → entry.handle = entry'.handle → tabId = tabId'
  published_lt : ∀ event ∈ c.published, event.handle < c.registrations
  published_le : ∀ event ∈ c.published, ∀ tabId entry, c.entries.lookup tabId = some entry →
    entry.handle = event.handle → event.snapshot.revision ≤ entry.snapshot.revision
  ordered : c.published.Pairwise fun a b ↦ a.handle = b.handle →
    a.snapshot.revision < b.snapshot.revision ∨
      b.repeated = true ∧ a.snapshot.revision = b.snapshot.revision

theorem inv_empty : Inv {} where
  coherent := by simp
  handle_lt := by simp
  handle_inj := by simp
  published_lt := by simp
  published_le := by simp
  ordered := .nil

/-- Replacing the entry of a tab by one with the same handle, a coherent snapshot and a revision that is
no smaller keeps the invariant. -/
theorem Inv.put {c : SqlExecutionCoordinator} (h : Inv c) {tabId : String}
    {entry entry' : ActiveSqlExecution} (hentry : c.entries.lookup tabId = some entry)
    (hhandle : entry'.handle = entry.handle) (hcoherent : Coherent entry'.snapshot)
    (hle : entry.snapshot.revision ≤ entry'.snapshot.revision) : Inv (c.put tabId entry') := by
  have hcases {other : String} {found : ActiveSqlExecution}
      (hfound : (c.put tabId entry').entries.lookup other = some found) :
      ∃ before, c.entries.lookup other = some before ∧ found.handle = before.handle ∧
        Coherent found.snapshot ∧ before.snapshot.revision ≤ found.snapshot.revision := by
    rw [lookup_put] at hfound
    split_ifs at hfound with heq
    · subst heq
      obtain rfl := Option.some.inj hfound
      exact ⟨entry, hentry, hhandle, hcoherent, hle⟩
    · exact ⟨found, hfound, rfl, h.coherent _ _ hfound, le_rfl⟩
  refine ⟨?_, ?_, ?_, h.published_lt, ?_, h.ordered⟩
  · intro other found hfound
    obtain ⟨-, -, -, hc, -⟩ := hcases hfound
    exact hc
  · intro other found hfound
    obtain ⟨before, hbefore, hh, -, -⟩ := hcases hfound
    exact hh ▸ h.handle_lt _ _ hbefore
  · intro other other' found found' hfound hfound' heq
    obtain ⟨before, hbefore, hh, -, -⟩ := hcases hfound
    obtain ⟨before', hbefore', hh', -, -⟩ := hcases hfound'
    exact h.handle_inj _ _ _ _ hbefore hbefore' (by rw [← hh, ← hh', heq])
  · intro event hevent other found hfound heq
    obtain ⟨before, hbefore, hh, -, hle⟩ := hcases hfound
    exact (h.published_le event hevent _ _ hbefore (hh ▸ heq)).trans hle

/-- Publishing the stored snapshot of an entry keeps the invariant, if its revision is new or the
publication is marked as repeated. -/
theorem Inv.publishSnapshot {c : SqlExecutionCoordinator} (h : Inv c) {tabId : String}
    {entry : ActiveSqlExecution} (hentry : c.entries.lookup tabId = some entry) {repeated : Bool}
    (hnew : ∀ event ∈ c.published, event.handle = entry.handle →
      event.snapshot.revision < entry.snapshot.revision ∨
        repeated = true ∧ event.snapshot.revision = entry.snapshot.revision) :
    Inv (c.publishSnapshot entry.handle entry.snapshot repeated) := by
  refine ⟨h.coherent, h.handle_lt, h.handle_inj, ?_, ?_, ?_⟩
  · intro event hevent
    rcases List.mem_append.1 hevent with hevent | hevent
    · exact h.published_lt event hevent
    · obtain rfl := List.mem_singleton.1 hevent
      exact h.handle_lt _ _ hentry
  · intro event hevent other found hfound heq
    rcases List.mem_append.1 hevent with hevent | hevent
    · exact h.published_le event hevent _ _ hfound heq
    · obtain rfl := List.mem_singleton.1 hevent
      obtain rfl := h.handle_inj _ _ _ _ hfound hentry heq
      obtain rfl := Option.some.inj (hfound.symm.trans hentry)
      exact le_rfl
  · refine List.pairwise_append.2 ⟨h.ordered, List.pairwise_singleton _ _, ?_⟩
    intro event hevent event' hevent' heq
    obtain rfl := List.mem_singleton.1 hevent'
    exact hnew event hevent heq

/-- **One change keeps the invariant.** -/
theorem Change.inv {c' : SqlExecutionCoordinator} (hchange : Change c c') (h : Inv c) : Inv c' := by
  cases hchange with
  | @accepted tabId entry edited hentry hedit hfits =>
    have hput : Inv (c.put tabId { entry with snapshot := edited.next }) := by
      refine h.put hentry rfl ?_ ?_
      · have := hedit.coherent (h.coherent _ _ hentry)
        exact ⟨this.1, this.2, this.3, this.4⟩
      · show entry.snapshot.revision ≤ edited.revision + 1
        rw [hedit.revision_eq]
        exact Nat.le_succ _
    have hlookup : (c.put tabId { entry with snapshot := edited.next }).entries.lookup tabId =
        some { entry with snapshot := edited.next } := by simp
    refine hput.publishSnapshot hlookup fun event hevent heq ↦ .inl ?_
    show event.snapshot.revision < edited.revision + 1
    rw [hedit.revision_eq]
    exact Nat.lt_succ_of_le (h.published_le event hevent _ _ hentry heq.symm)
  | overflowed hentry hedit hmax =>
    exact h.put hentry rfl (hedit.coherent (h.coherent _ _ hentry)) hedit.revision_eq.ge
  | signalled handle =>
    exact ⟨h.coherent, h.handle_lt, h.handle_inj, h.published_lt, h.published_le, h.ordered⟩
  | repeated hentry hstate =>
    refine h.publishSnapshot hentry fun event hevent heq ↦ ?_
    rcases (h.published_le event hevent _ _ hentry heq.symm).lt_or_eq with hlt | heq
    · exact .inl hlt
    · exact .inr ⟨rfl, heq⟩
  | removed tabId =>
    have hcases {other : String} {found : ActiveSqlExecution}
        (hfound : (c.entries.erase tabId).lookup other = some found) :
        c.entries.lookup other = some found := by
      rw [Table.lookup_erase] at hfound
      split_ifs at hfound
      exact hfound
    exact ⟨fun _ _ hf ↦ h.coherent _ _ (hcases hf), fun _ _ hf ↦ h.handle_lt _ _ (hcases hf),
      fun _ _ _ _ hf hf' ↦ h.handle_inj _ _ _ _ (hcases hf) (hcases hf'), h.published_lt,
      fun event hevent _ _ hf ↦ h.published_le event hevent _ _ (hcases hf), h.ordered⟩

theorem Changes.inv {c c' : SqlExecutionCoordinator} (h : Changes c c') (hc : Inv c) : Inv c' := by
  induction h with
  | refl => exact hc
  | tail _ hlast ih => exact hlast.inv ih

/-- **A registration keeps the invariant**: its handle is new. -/
theorem Inv.registered {c : SqlExecutionCoordinator} (h : Inv c) (input : SqlExecutionStartInput) :
    Inv (c.registered input) := by
  have hcases {other : String} {found : ActiveSqlExecution}
      (hfound : (c.registered input).entries.lookup other = some found) :
      (other = input.tabId ∧ found = ⟨input.profileId, input.snapshot, c.registrations⟩) ∨
        c.entries.lookup other = some found := by
    rw [SqlExecutionCoordinator.registered, Table.lookup_insert] at hfound
    split_ifs at hfound with heq
    · exact .inl ⟨heq, (Option.some.inj hfound).symm⟩
    · exact .inr hfound
  refine ⟨?_, ?_, ?_, ?_, ?_, ?_⟩
  · intro other found hfound
    rcases hcases hfound with ⟨-, rfl⟩ | hfound
    · exact ⟨by simp [SqlExecutionStartInput.snapshot, isTerminal], by
        simp [SqlExecutionStartInput.snapshot], by simp [SqlExecutionStartInput.snapshot], by
        simp [SqlExecutionStartInput.snapshot]⟩
    · exact h.coherent _ _ hfound
  · intro other found hfound
    rcases hcases hfound with ⟨-, rfl⟩ | hfound
    · exact Nat.lt_succ_self _
    · exact Nat.lt_succ_of_lt (h.handle_lt _ _ hfound)
  · intro other other' found found' hfound hfound' heq
    rcases hcases hfound with ⟨rfl, rfl⟩ | hfound <;>
      rcases hcases hfound' with ⟨rfl, rfl⟩ | hfound'
    · rfl
    · exact absurd heq.symm (h.handle_lt _ _ hfound').ne
    · exact absurd heq (h.handle_lt _ _ hfound).ne
    · exact h.handle_inj _ _ _ _ hfound hfound' heq
  · intro event hevent
    rcases List.mem_append.1 hevent with hevent | hevent
    · exact Nat.lt_succ_of_lt (h.published_lt event hevent)
    · obtain rfl := List.mem_singleton.1 hevent
      exact Nat.lt_succ_self _
  · intro event hevent other found hfound heq
    rcases List.mem_append.1 hevent with hevent | hevent
    · rcases hcases hfound with ⟨-, rfl⟩ | hfound
      · exact absurd heq.symm (h.published_lt event hevent).ne
      · exact h.published_le event hevent _ _ hfound heq
    · obtain rfl := List.mem_singleton.1 hevent
      rcases hcases hfound with ⟨-, rfl⟩ | hfound
      · exact le_rfl
      · exact absurd heq (h.handle_lt _ _ hfound).ne
  · refine List.pairwise_append.2 ⟨h.ordered, List.pairwise_singleton _ _, ?_⟩
    intro event hevent event' hevent' heq
    obtain rfl := List.mem_singleton.1 hevent'
    exact absurd heq (h.published_lt event hevent).ne

/-- **One operation keeps the invariant.** -/
theorem Inv.apply {c : SqlExecutionCoordinator} (h : Inv c) (op : Operation) :
    Inv (op.apply c).2 := by
  rcases em (∃ input, op = .register input) with ⟨input, rfl⟩ | hop
  · show Inv (c.registerWithSink input).2
    rw [registerWithSink_eq]
    split_ifs
    · exact h
    · exact h.registered input
  · exact (apply_changes c fun input heq ↦ hop ⟨input, heq⟩).inv h

end Execution
