import NexusPilot.Execution.Lifecycle

/-!
# Safety of the coordinator over runs

A run is a list of operations, taken from the empty coordinator. Two properties of all runs are
stated here. `Safe` is what callers rely on: an active execution is not replaced, the payloads of a
snapshot agree with its state, a terminal snapshot stays as it is, and an execution that was cancelled
has its signal raised. `Revisioned` is what a client that orders events by revision relies on.

Both rest on the revision fitting in 64 bits, the first in one place only. `begin_cancel` stores
`Canceling` before it computes the revision and raises the signal after it, so at the largest revision it
leaves a canceling execution that was never told.
-/

namespace Execution

open Drivers Machine SqlExecutionCoordinator

/-- The coordinator after a list of operations. -/
def reach (ops : List Operation) : SqlExecutionCoordinator :=
  run (fun op c ↦ (op.apply c).2) {} ops

theorem reach_append (before after : List Operation) :
    reach (before ++ after) = run (fun op c ↦ (op.apply c).2) (reach before) after :=
  run_append _ _ _ _

theorem inv_reach (ops : List Operation) : Inv (reach ops) :=
  run_invariant_of_forall (fun _ op h ↦ h.apply op) inv_empty ops

/-! ### Terminal entries -/

variable {c' : SqlExecutionCoordinator} {tabId executionId : String} {entry : ActiveSqlExecution}
  {op : Operation}

theorem Change.lookup_eq_none {c : SqlExecutionCoordinator} (h : Change c c')
    (hnone : c.entries.lookup tabId = none) : c'.entries.lookup tabId = none := by
  have hne {other : String} {entry : ActiveSqlExecution}
      (hentry : c.entries.lookup other = some entry) : tabId ≠ other := by
    rintro rfl
    rw [hnone] at hentry
    cases hentry
  cases h with
  | accepted hentry | overflowed hentry => exact (lookup_put _ _ _ _).trans ((if_neg (hne hentry)).trans hnone)
  | signalled => exact hnone
  | repeated => exact hnone
  | removed other =>
    show (c.entries.erase other).lookup tabId = none
    rw [Table.lookup_erase, hnone, ite_self]

/-- A terminal entry is kept as it is, or removed. -/
theorem Change.lookup_terminal {c : SqlExecutionCoordinator} (h : Change c c')
    (hentry : c.entries.lookup tabId = some entry) (hterminal : isTerminal entry.snapshot.state) :
    c'.entries.lookup tabId = some entry ∨ c'.entries.lookup tabId = none := by
  have hne {other : String} {found : ActiveSqlExecution} {edited : SqlExecutionSnapshot}
      (hfound : c.entries.lookup other = some found) (hedit : Edit found.snapshot edited) :
      tabId ≠ other := by
    rintro rfl
    obtain rfl := Option.some.inj (hentry.symm.trans hfound)
    rw [hedit.isTerminal_eq_false] at hterminal
    cases hterminal
  cases h with
  | accepted hfound hedit | overflowed hfound hedit =>
    exact .inl ((lookup_put _ _ _ _).trans ((if_neg (hne hfound hedit)).trans hentry))
  | signalled => exact .inl hentry
  | repeated => exact .inl hentry
  | removed other =>
    show (c.entries.erase other).lookup tabId = _ ∨ (c.entries.erase other).lookup tabId = _
    rw [Table.lookup_erase, hentry]
    split_ifs
    · exact .inr rfl
    · exact .inl rfl

theorem Changes.lookup_terminal {c c' : SqlExecutionCoordinator} (h : Changes c c') {tabId : String}
    {entry : ActiveSqlExecution} (hentry : c.entries.lookup tabId = some entry)
    (hterminal : isTerminal entry.snapshot.state) :
    c'.entries.lookup tabId = some entry ∨ c'.entries.lookup tabId = none := by
  induction h with
  | refl => exact .inl hentry
  | tail _ hlast ih =>
    rcases ih with hkept | hgone
    · exact hlast.lookup_terminal hkept hterminal
    · exact .inr (hlast.lookup_eq_none hgone)

/-! ### Signals -/

/-- The signal of a registration was raised. -/
def Raised (handle : ℕ) (c : SqlExecutionCoordinator) : Prop :=
  handle < c.registrations ∧ c.signals handle = true

theorem Change.raised {c : SqlExecutionCoordinator} (h : Change c c') {handle : ℕ} (hraised : Raised handle c) :
    Raised handle c' := by
  cases h with
  | signalled other =>
    refine ⟨hraised.1, ?_⟩
    show Function.update c.signals other true handle = true
    rcases eq_or_ne handle other with rfl | hne
    · exact Function.update_self ..
    · rw [Function.update_of_ne hne]
      exact hraised.2
  | accepted | overflowed | repeated | removed => exact hraised

theorem Changes.raised {c c' : SqlExecutionCoordinator} (h : Changes c c') {handle : ℕ}
    (hraised : Raised handle c) : Raised handle c' := by
  induction h with
  | refl => exact hraised
  | tail _ hlast ih => exact hlast.raised ih

/-- **A raised signal stays raised**: the channel of a registration is new. -/
theorem Raised.apply {handle : ℕ} {c : SqlExecutionCoordinator} (h : Raised handle c)
    (op : Operation) : Raised handle (op.apply c).2 := by
  rcases em (∃ input, op = .register input) with ⟨input, rfl⟩ | hop
  · show Raised handle (c.registerWithSink input).2
    rw [registerWithSink_eq]
    split_ifs
    · exact h
    · refine ⟨Nat.lt_succ_of_lt h.1, ?_⟩
      show Function.update c.signals c.registrations false handle = true
      rw [Function.update_of_ne h.1.ne]
      exact h.2
  · exact (apply_changes c fun input heq ↦ hop ⟨input, heq⟩).raised h

/-! ### Safe runs -/

/-- `begin_cancel`, `cancel_tab` and `cancel_profile`. -/
def Operation.isCancel : Operation → Bool
  | .beginCancel .. | .cancelTab .. | .cancelProfile .. => true
  | _ => false

/-- The entries that a cancellation is for. -/
def Operation.Targets : Operation → String → ActiveSqlExecution → Prop
  | .beginCancel target executionId, tabId, entry =>
    tabId = target ∧ entry.snapshot.executionId = executionId
  | .cancelTab target, tabId, _ => tabId = target
  | .cancelProfile profileId tabIds, tabId, entry => tabId ∈ tabIds ∧ entry.profileId = profileId
  | _, _, _ => False

/-- What a run may rely on, at the state that it leads to and at each of its operations. -/
structure Safe (ops : List Operation) : Prop where
  /-- The payloads of every snapshot agree with its state. -/
  coherent : ∀ tabId entry, (reach ops).entries.lookup tabId = some entry → Coherent entry.snapshot
  /-- `register` does not replace an active entry. -/
  keeps_active : ∀ before input after, ops = before ++ Operation.register input :: after →
    ∀ entry, (reach before).entries.lookup input.tabId = some entry →
      isTerminal entry.snapshot.state = false →
      (reach (before ++ [.register input])).entries.lookup input.tabId = some entry
  /-- A terminal entry stays as it is until it is removed or replaced by a registration. -/
  keeps_terminal : ∀ before op after, ops = before ++ op :: after →
    ∀ tabId entry, (reach before).entries.lookup tabId = some entry →
      isTerminal entry.snapshot.state →
      (reach (before ++ [op])).entries.lookup tabId = some entry ∨
        (reach (before ++ [op])).entries.lookup tabId = none ∨
        ∃ input, op = .register input ∧ input.tabId = tabId
  /-- An entry that a cancellation moved to `Canceling` has its signal raised from then on. -/
  signals : ∀ before op after, ops = before ++ op :: after → op.isCancel →
    ∀ tabId entry entry', (reach before).entries.lookup tabId = some entry →
      entry.snapshot.state ≠ .canceling →
      (reach (before ++ [op])).entries.lookup tabId = some entry' →
      entry'.snapshot.state = .canceling → (reach ops).signals entry'.handle = true

/-- The entries that the operation is to cancel have room for another revision. -/
def CancelFits (c : SqlExecutionCoordinator) (op : Operation) : Prop :=
  ∀ tabId entry, c.entries.lookup tabId = some entry → op.Targets tabId entry →
    isValidTransition entry.snapshot.state .canceling → entry.snapshot.revision < u64Max

/-- A cancellation that has room for the revisions raises the signal of every entry that it moves. -/
theorem canceling_apply {c : SqlExecutionCoordinator} (hop : op.isCancel) (hfits : CancelFits c op) :
    Canceling c (op.apply c).2 := by
  cases op with
  | beginCancel tabId executionId =>
    exact (cancels_beginCancel c tabId executionId).canceling fun entry hentry hid ↦
      hfits tabId entry hentry ⟨rfl, hid⟩
  | cancelTab tabId =>
    rcases cancelTab_cases c tabId with h | ⟨_, _, -, h⟩
    · show Canceling c (c.cancelTab tabId).2
      rw [h]
      exact .refl c
    · exact h.canceling fun entry hentry _ ↦ hfits tabId entry hentry rfl
  | cancelProfile profileId tabIds =>
    show Canceling c (c.cancelProfile profileId tabIds).2
    rw [snd_cancelProfile]
    refine canceling_cancelEach _ c fun x hx entry hentry hid ↦ ?_
    obtain ⟨found, htab, hfound, hprofile, -, -⟩ := mem_activeExecutions hx
    obtain rfl := Option.some.inj (hentry.symm.trans hfound)
    exact hfits x.1 entry hentry ⟨htab, hprofile⟩
  | _ => cases hop

theorem reach_snoc (before : List Operation) (op : Operation) :
    reach (before ++ [op]) = (op.apply (reach before)).2 :=
  reach_append before [op]

/-- An execution that is registered and cancelled. -/
def canceledRun : List Operation :=
  [.register ⟨"profile", "tab", "execution", "query", .read, 1⟩, .beginCancel "tab" "execution"]

/-- A progress report for the execution of `overflowRun`. -/
def progress : Operation :=
  .updateSummary "tab" "execution" {} true

/-- An execution with `n` progress reports, and then cancelled. -/
def progressRun (n : ℕ) : List Operation :=
  .register ⟨"profile", "tab", "execution", "query", .read, 1⟩ ::
    List.replicate n progress ++ [.beginCancel "tab" "execution"]

/-- An execution whose revision is raised to the largest one by progress reports, and then cancelled. -/
def overflowRun : List Operation :=
  progressRun (u64Max - 1)

/-- Progress reports raise the revision and change nothing else that a cancellation reads. -/
theorem lookup_run_progress (n : ℕ) {c : SqlExecutionCoordinator}
    (hentry : c.entries.lookup "tab" = some entry) (hid : entry.snapshot.executionId = "execution")
    (hstate : entry.snapshot.state = .starting) (hfits : entry.snapshot.revision + n ≤ u64Max) :
    ∃ entry', (run (fun op c ↦ (Operation.apply c op).2) c (List.replicate n progress)).entries.lookup
        "tab" = some entry' ∧ entry'.snapshot.executionId = "execution" ∧
      entry'.snapshot.state = .starting ∧ entry'.snapshot.revision = entry.snapshot.revision + n ∧
      entry'.handle = entry.handle ∧
      (run (fun op c ↦ (Operation.apply c op).2) c (List.replicate n progress)).signals =
        c.signals := by
  induction n generalizing c entry with
  | zero => exact ⟨entry, hentry, hid, hstate, rfl, rfl, rfl⟩
  | succ n ih =>
    let edited : SqlExecutionSnapshot :=
      { entry.snapshot with summary := some {}, progressAvailable := true }
    have hstep : (progress.apply c).2 = c.accept "tab" entry edited := by
      show (c.updateSummary "tab" "execution" {} true).2 = _
      rw [updateSummary]
      refine congrArg Prod.snd (updateSnapshot_of_edit hentry hid ?_ ?_)
      · exact if_neg (by rw [hstate]; decide)
      · show entry.snapshot.revision < u64Max
        omega
    have hnext : (c.accept "tab" entry edited).entries.lookup "tab" =
        some { entry with snapshot := edited.next } :=
      (lookup_put c "tab" _ "tab").trans (if_pos rfl)
    rw [List.replicate_succ, run_cons, hstep]
    obtain ⟨entry', h, hid', hstate', hrevision, hhandle, hsignals⟩ :=
      ih hnext hid hstate (show entry.snapshot.revision + 1 + n ≤ u64Max by omega)
    refine ⟨entry', h, hid', hstate', ?_, hhandle, hsignals⟩
    rw [hrevision]
    show entry.snapshot.revision + 1 + n = _
    omega

theorem not_safe_progressRun {n : ℕ} (hn : 1 + n = u64Max) : ¬ Safe (progressRun n) := by
  intro h
  let input : SqlExecutionStartInput := ⟨"profile", "tab", "execution", "query", .read, 1⟩
  let before := Operation.register input :: List.replicate n progress
  obtain ⟨entry, hentry, hid, hstate, hrevision, hhandle, hsignals⟩ :=
    lookup_run_progress (c := (Operation.apply {} (.register input)).2) n rfl rfl rfl hn.le
  have hbefore : (reach before).entries.lookup "tab" = some entry := hentry
  have hmax : ¬ entry.snapshot.revision < u64Max :=
    Nat.not_lt.2 (hn.symm.le.trans hrevision.ge)
  let stopped := { entry with snapshot := { entry.snapshot with state := .canceling } }
  have hstep : reach (progressRun n) = (reach before).put "tab" stopped := by
    refine (reach_snoc before (.beginCancel "tab" "execution")).trans ?_
    show (beginCancel _ "tab" "execution").2 = _
    rw [beginCancel, entryMut_eq_ok_iff.2 ⟨hbefore, hid⟩]
    simp only [incrementRevision_eq, if_neg hmax]
    rw [if_neg (by rw [hstate]; decide), if_pos (by rw [hstate]; rfl)]
  have hstopped : (reach (progressRun n)).entries.lookup "tab" = some stopped := by
    rw [hstep, lookup_put, if_pos rfl]
  have hraised : (reach (progressRun n)).signals entry.handle = true :=
    h.signals before (.beginCancel "tab" "execution") [] rfl rfl "tab" entry stopped hbefore
      (by rw [hstate]; decide) hstopped rfl
  have hquiet : (reach before).signals entry.handle = false := by
    refine (congrFun hsignals entry.handle).trans ?_
    rw [hhandle]
    rfl
  rw [hstep, signals_put, hquiet] at hraised
  cases hraised

/-- Every stored snapshot has room for another revision. -/
def RevisionsBelow (c : SqlExecutionCoordinator) : Prop :=
  ∀ tabId entry, c.entries.lookup tabId = some entry → entry.snapshot.revision < u64Max

/-- What one operation does to the revisions. Entries with one handle are one execution. -/
structure RevisionedStep (c : SqlExecutionCoordinator) (op : Operation) : Prop where
  /-- A snapshot that changes has the next revision. -/
  next : ∀ tabId entry entry', c.entries.lookup tabId = some entry →
    (op.apply c).2.entries.lookup tabId = some entry' → entry'.handle = entry.handle →
    entry'.snapshot = entry.snapshot ∨ entry'.snapshot.revision = entry.snapshot.revision + 1
  /-- An error leaves every stored entry as it is. -/
  error : ∀ e, (op.apply c).1 = .error e →
    ∀ tabId, (op.apply c).2.entries.lookup tabId = c.entries.lookup tabId

/-- What a client that orders the events of an execution by revision relies on. -/
structure Revisioned (ops : List Operation) : Prop where
  /-- The events of one execution have increasing revisions, but for the repeats of `begin_cancel`. -/
  ordered : (reach ops).published.Pairwise fun a b ↦ a.handle = b.handle →
    a.snapshot.revision < b.snapshot.revision ∨
      b.repeated = true ∧ a.snapshot.revision = b.snapshot.revision
  steps : ∀ before op after, ops = before ++ op :: after → RevisionedStep (reach before) op

variable {c : SqlExecutionCoordinator}

/-- Operations of which every entry survives as it is, or not at all. -/
theorem revisionedStep_of_subset (h : ∀ tabId entry, (op.apply c).2.entries.lookup tabId = some entry →
      c.entries.lookup tabId = some entry) (herror : ∀ e, (op.apply c).1 = .error e → (op.apply c).2 = c) :
    RevisionedStep c op where
  next := by
    intro tabId entry entry' hentry hentry' _
    obtain rfl := Option.some.inj (hentry.symm.trans (h _ _ hentry'))
    exact .inl rfl
  error := fun e he tabId ↦ by rw [herror e he]

/-- The operations that make at most one edit. -/
theorem revisionedStep_of_updates (hbelow : RevisionsBelow c) (h : Updates c (op.apply c)) :
    RevisionedStep c op := by
  generalize hr : op.apply c = r at h
  refine ⟨fun tabId entry entry' hentry hentry' _ ↦ ?_, fun e he tabId ↦ ?_⟩
  · rw [hr] at hentry'
    cases h with
    | unchanged =>
      obtain rfl := Option.some.inj (hentry.symm.trans hentry')
      exact .inl rfl
    | @accepted _ other found edited hfound hedit =>
      have hlookup := (lookup_put c other { found with snapshot := edited.next } tabId).symm.trans
        hentry'
      split_ifs at hlookup with heq
      · subst heq
        obtain rfl := Option.some.inj hlookup
        obtain rfl := Option.some.inj (hentry.symm.trans hfound)
        exact .inr (congrArg (· + 1) hedit.revision_eq)
      · obtain rfl := Option.some.inj (hentry.symm.trans hlookup)
        exact .inl rfl
    | overflowed _ hfound _ hmax => exact absurd (hbelow _ _ hfound) (Nat.not_lt.2 hmax)
  · rw [hr] at he ⊢
    cases h with
    | unchanged => rfl
    | accepted => cases he
    | overflowed _ hfound _ hmax => exact absurd (hbelow _ _ hfound) (Nat.not_lt.2 hmax)

theorem RevisionsBelow.cancelFits (h : RevisionsBelow c) (op : Operation) : CancelFits c op :=
  fun tabId entry hentry _ _ ↦ h tabId entry hentry

/-- The cancellations. -/
theorem revisionedStep_of_isCancel (hbelow : RevisionsBelow c) (hop : op.isCancel)
    (herror : ∀ e, (op.apply c).1 = .error e → (op.apply c).2 = c) : RevisionedStep c op where
  next := by
    intro tabId entry entry' hentry hentry' _
    rcases (canceling_apply hop (hbelow.cancelFits op)).lookup tabId with hsame | ⟨found, hfound, -, hafter, -⟩
    · obtain rfl := Option.some.inj (hentry.symm.trans (hsame.symm.trans hentry'))
      exact .inl rfl
    · obtain rfl := Option.some.inj (hentry.symm.trans hfound)
      obtain rfl := Option.some.inj (hafter.symm.trans hentry')
      exact .inr rfl
  error := fun e he tabId ↦ by rw [herror e he]

/-- An error of `begin_cancel` leaves the coordinator as it is. -/
theorem SqlExecutionCoordinator.Cancels.eq_of_error {α : Type} {r : IpcResult α × SqlExecutionCoordinator}
    (h : Cancels c tabId executionId r) (hbelow : RevisionsBelow c) {e : IpcError} (he : r.1 = .error e) :
    r.2 = c := by
  cases h with
  | refused => rfl
  | accepted => cases he
  | overflowed _ hentry _ _ hmax => exact absurd (hbelow _ _ hentry) (Nat.not_lt.2 hmax)
  | repeated => cases he

/-- The entry of the tab is the execution asked for, and is canceling or can be cancelled. -/
def Cancelable (c : SqlExecutionCoordinator) (tabId executionId : String) : Prop :=
  ∃ entry, c.entries.lookup tabId = some entry ∧ entry.snapshot.executionId = executionId ∧
    (entry.snapshot.state = .canceling ∨ isValidTransition entry.snapshot.state .canceling)

theorem Cancelable.of_canceling {c : SqlExecutionCoordinator} (hc : Canceling c c')
    (h : Cancelable c tabId executionId) :
    Cancelable c' tabId executionId := by
  obtain ⟨entry, hentry, hid, hstate⟩ := h
  rcases hc.lookup tabId with hsame | ⟨found, hfound, -, hafter, -⟩
  · exact ⟨entry, hsame.trans hentry, hid, hstate⟩
  · obtain rfl := Option.some.inj (hentry.symm.trans hfound)
    exact ⟨_, hafter, hid, .inl rfl⟩

/-- The loop of `cancel_profile` does not fail on executions that can be cancelled. -/
theorem fst_cancelEach (executions : List (String × String)) (c : SqlExecutionCoordinator)
    (hfits : ∀ x ∈ executions, RevisionFits c x.1 x.2)
    (h : ∀ x ∈ executions, Cancelable c x.1 x.2) : (c.cancelEach executions).1 = .ok () := by
  induction executions generalizing c with
  | nil => rfl
  | cons x executions ih =>
    have hhead := cancels_beginCancel c x.1 x.2
    have hcanceling := hhead.canceling (hfits x List.mem_cons_self)
    obtain ⟨entry, hentry, hid, hstate⟩ := h x List.mem_cons_self
    have hok : ∀ e, (c.beginCancel x.1 x.2).1 ≠ .error e := by
      intro e he
      generalize c.beginCancel x.1 x.2 = r at hhead he
      cases hhead with
      | refused _ hrefused =>
        obtain ⟨hne, hinvalid⟩ := hrefused entry hentry hid
        rcases hstate with hstate | hvalid
        · exact hne hstate
        · rw [hinvalid] at hvalid
          cases hvalid
      | accepted => cases he
      | overflowed _ hfound hid' hvalid hmax =>
        exact absurd (hfits x List.mem_cons_self _ hfound hid' hvalid) (Nat.not_lt.2 hmax)
      | repeated => cases he
    rw [cancelEach]
    revert hcanceling hok
    rcases c.beginCancel x.1 x.2 with ⟨e | _, c'⟩ <;> intro hcanceling hok
    · exact absurd rfl (hok e)
    · exact ih c' (fun y hy ↦ hcanceling.revisionFits (hfits y (List.mem_cons_of_mem x hy)))
        fun y hy ↦ (h y (List.mem_cons_of_mem x hy)).of_canceling hcanceling

/-- An active execution is canceling or can be cancelled. -/
theorem canceling_or_isValidTransition {state : SqlExecutionState} (h : isTerminal state = false) :
    state = .canceling ∨ isValidTransition state .canceling := by
  revert h
  cases state <;> decide

/-- `cancel_profile` does not fail. -/
theorem fst_cancelProfile (hbelow : RevisionsBelow c) (profileId : String) (tabIds : List String) :
    ∃ n, (c.cancelProfile profileId tabIds).1 = .ok n := by
  have hok : (c.cancelEach (c.activeExecutions profileId tabIds)).1 = .ok () := by
    refine fst_cancelEach _ c (fun x _ entry hentry _ _ ↦ hbelow _ entry hentry) fun x hx ↦ ?_
    obtain ⟨entry, -, hentry, -, hactive, hid⟩ := mem_activeExecutions hx
    exact ⟨entry, hentry, hid, canceling_or_isValidTransition hactive⟩
  rw [cancelProfile]
  revert hok
  rcases c.cancelEach (c.activeExecutions profileId tabIds) with ⟨_ | _, c'⟩ <;> intro hok
  · cases hok
  · exact ⟨_, rfl⟩

theorem lookup_of_discardTab {other : String} (h : (c.discardTab tabId).2.entries.lookup other = some entry) :
    c.entries.lookup other = some entry := by
  rw [discardTab] at h
  cases hfound : c.entries.lookup tabId with
  | none =>
    rw [hfound] at h
    exact h
  | some found =>
    rw [hfound] at h
    have herase := (Table.lookup_erase c.entries tabId other).symm.trans h
    split_ifs at herase
    exact herase

theorem lookup_of_discardTabs (tabIds : List String) {c : SqlExecutionCoordinator}
    (h : (c.discardTabs tabIds).entries.lookup tabId = some entry) :
    c.entries.lookup tabId = some entry := by
  induction tabIds generalizing c with
  | nil => exact h
  | cons other tabIds ih => exact lookup_of_discardTab (ih h)

/-- `release` removes an entry or answers with an error. -/
theorem release_cases (c : SqlExecutionCoordinator) (tabId executionId : String) :
    (∃ e, c.release tabId executionId = (.error e, c)) ∨
      c.release tabId executionId = (.ok (), { c with entries := c.entries.erase tabId }) := by
  cases hentry : c.entryMut tabId executionId with
  | error e => exact .inl ⟨e, by simp only [release, hentry]⟩
  | ok entry =>
    cases hterminal : isTerminal entry.snapshot.state with
    | true => exact .inr (by simp only [release, hentry, hterminal, if_true])
    | false =>
      refine .inl ⟨.conflict "An active SQL execution cannot be released", ?_⟩
      simp only [release, hentry, hterminal, Bool.false_eq_true, if_false]

/-- **One operation, with room for the revisions.** -/
theorem revisionedStep (hinv : Inv c) (hbelow : RevisionsBelow c) (op : Operation) :
    RevisionedStep c op := by
  cases op with
  | register input =>
    have happly : Operation.apply c (.register input) = (c.registerWithSink input).map
        (·.map fun _ ↦ ()) id := rfl
    rw [registerWithSink_eq] at happly
    split_ifs at happly with hactive
    · exact revisionedStep_of_subset (by rw [happly]; exact fun _ _ h ↦ h) (by simp [happly])
    · refine ⟨fun tabId entry entry' hentry hentry' hhandle ↦ ?_, fun e he ↦ ?_⟩
      · rw [happly] at hentry'
        have hlookup := (Table.lookup_insert c.entries _ _ _).symm.trans hentry'
        split_ifs at hlookup with heq
        · -- the handle of a registration is new, so this is another execution
          obtain rfl := Option.some.inj hlookup
          exact absurd hhandle.symm (hinv.handle_lt _ _ hentry).ne
        · obtain rfl := Option.some.inj (hentry.symm.trans hlookup)
          exact .inl rfl
      · rw [happly] at he
        cases he
  | transition tabId executionId state now =>
    exact revisionedStep_of_updates hbelow ((updates_transition state now).map _)
  | updateSummary tabId executionId summary progress =>
    exact revisionedStep_of_updates hbelow ((updates_updateSummary summary progress).map _)
  | appendWarning tabId executionId message =>
    exact revisionedStep_of_updates hbelow ((updates_appendWarning message).map _)
  | completeSuccess tabId executionId outcome now =>
    exact revisionedStep_of_updates hbelow ((updates_completeSuccess outcome now).map _)
  | completeFailure tabId executionId state failure now =>
    exact revisionedStep_of_updates hbelow ((updates_completeFailure state failure now).map _)
  | completeCancel tabId executionId message now =>
    exact revisionedStep_of_updates hbelow ((updates_completeCancel message now).map _)
  | beginCancel tabId executionId =>
    refine revisionedStep_of_isCancel hbelow rfl fun e he ↦ ?_
    exact ((cancels_beginCancel c tabId executionId).map fun _ ↦ ()).eq_of_error hbelow he
  | cancelTab tabId =>
    refine revisionedStep_of_isCancel hbelow rfl fun e he ↦ ?_
    rcases cancelTab_cases c tabId with h | ⟨_, -, -, h⟩
    · exact congrArg Prod.snd h
    · exact (h.map fun _ ↦ ()).eq_of_error hbelow he
  | cancelProfile profileId tabIds =>
    refine revisionedStep_of_isCancel hbelow rfl fun e he ↦ ?_
    obtain ⟨n, hn⟩ := fst_cancelProfile hbelow profileId tabIds
    have hmap : Except.map (fun _ ↦ ()) (c.cancelProfile profileId tabIds).1 = .error e := he
    rw [hn] at hmap
    cases hmap
  | release tabId executionId =>
    rcases release_cases c tabId executionId with ⟨e, h⟩ | h
    · exact revisionedStep_of_subset (fun _ _ hentry ↦ by rwa [Operation.apply, h] at hentry)
        fun _ _ ↦ congrArg Prod.snd h
    · refine revisionedStep_of_subset (fun other entry hentry ↦ ?_) fun e he ↦ ?_
      · rw [Operation.apply, h] at hentry
        have herase := (Table.lookup_erase c.entries tabId other).symm.trans hentry
        split_ifs at herase
        exact herase
      · rw [Operation.apply, h] at he
        cases he
  | discardTab tabId =>
    refine revisionedStep_of_subset (fun _ _ ↦ lookup_of_discardTab) fun e he ↦ ?_
    have hmap : Except.map (fun _ ↦ ()) (c.discardTab tabId).1 = .error e := he
    rw [discardTab] at hmap
    split at hmap <;> cases hmap
  | discardProfile profileId =>
    exact revisionedStep_of_subset (fun _ _ ↦ lookup_of_discardTabs _) fun e he ↦ by cases he
  | discardAll =>
    exact revisionedStep_of_subset (fun _ _ ↦ lookup_of_discardTabs _) fun e he ↦ by cases he

/-- **Runs whose revisions stay below the largest are ordered by revision.** -/
theorem revisioned_of_revisionsBelow (ops : List Operation)
    (h : Along (fun op c ↦ (Operation.apply c op).2) (fun c _ ↦ RevisionsBelow c) {} ops) :
    Revisioned ops where
  ordered := (inv_reach ops).ordered
  steps := by
    rintro before op after rfl
    exact revisionedStep (inv_reach before) h.at_event op

theorem revisioned_canceledRun : Revisioned canceledRun := by
  refine revisioned_of_revisionsBelow canceledRun ⟨fun _ _ h ↦ (nomatch h), ?_, trivial⟩
  intro tabId entry hentry
  have hlookup := (Table.lookup_insert _ _ _ _).symm.trans hentry
  split_ifs at hlookup with heq
  · obtain rfl := Option.some.inj hlookup
    show 1 < u64Max
    decide
  · cases hlookup

end Execution
