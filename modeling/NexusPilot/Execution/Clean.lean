import NexusPilot.Execution.Simulation

/-!
# Managed executions finish cleanly

Every event of the manager is a `Local.Step` for each execution: an operation of its own task or of a call
for it is one of the steps named there, an operation for another execution is not seen, and what is done to
its tab or its profile is `taken` or `cleaned`. With it the invariant of one execution becomes the
invariant `Inv` of the manager, and when no call or task is left it says what `Clean` says.

This needs `Careful`, the conditions under which four operations do no harm. `release_tab` and
`release_profile` remove the artifacts of every execution of a tab or a profile, also of one that was
registered after the caller had given up its own entry; `discard_tab` at the end of a failed start removes the
entry that is there, also of another execution; `release_sql_execution` has removed the artifact from the
store when the removal of its file fails, and then leaves the entry; and no revision may have reached the
largest number.
-/

namespace Execution

open Drivers Machine SqlExecutionCoordinator

/-! ### What is claimed -/

namespace Manager

/-- No call or task is in progress. -/
def Quiescent (m : Manager) : Prop :=
  (∀ x, m.tasks.lookup x = none) ∧ ∀ n, m.calls.lookup n = none

/-- Everything is finished, and the store has the artifacts that the entries report and no others. -/
structure Clean (m : Manager) : Prop where
  terminal : ∀ tabId entry, m.shared.coordinator.entries.lookup tabId = some entry →
    isTerminal entry.snapshot.state = true
  reported : ∀ id record, m.shared.artifacts.entries.lookup id = some record →
    ∃ entry, m.shared.coordinator.entries.lookup record.owner.tabId = some entry ∧
      entry.profileId = record.owner.profileId ∧
      entry.snapshot.executionId = record.owner.executionId ∧
      entry.snapshot.state = .succeeded ∧
      entry.snapshot.outcome.bind SqlExecutionOutcome.artifactId? = some id
  stored : ∀ tabId entry id, m.shared.coordinator.entries.lookup tabId = some entry →
    entry.snapshot.outcome.bind SqlExecutionOutcome.artifactId? = some id →
    ∃ record, m.shared.artifacts.entries.lookup id = some record ∧ record.completed = true ∧
      record.owner = ⟨entry.profileId, tabId, entry.snapshot.executionId⟩

/-- The execution that an event acts for. -/
def actsFor (m : Manager) : Event → Option String
  | .start owner .. | .cancel owner | .release owner => some owner.executionId
  | .closeTab _ | .disconnect _ => none
  | .task executionId _ => some executionId
  | .call n _ => ((m.calls.lookup n).bind Call.owner?).map (·.executionId)

/-- An event leaves the entries of other executions alone, except that a tab or a profile that is closed
loses its entries and that a start replaces a finished entry of its tab. -/
def Isolated (m : Manager) (event : Event) : Prop :=
  ∀ tabId entry, m.shared.coordinator.entries.lookup tabId = some entry →
    (step event m).shared.coordinator.entries.lookup tabId = some entry ∨
    m.actsFor event = some entry.snapshot.executionId ∨
    event = .closeTab tabId ∨ event = .disconnect entry.profileId ∨
    ∃ owner queryId statementClass startedAt raw,
      event = .start owner queryId statementClass startedAt raw ∧ owner.tabId = tabId ∧
      isTerminal entry.snapshot.state = true

end Manager

/-- In every state of the run in which nothing is in progress everything is clean, and every event
leaves the entries of other executions alone. -/
structure FinishesCleanly (events : List Event) : Prop where
  clean : ∀ before after, events = before ++ after → (Manager.reach before).Quiescent →
    (Manager.reach before).Clean
  isolated : ∀ before event after, events = before ++ event :: after →
    (Manager.reach before).Isolated event

/-! ### The condition -/

namespace Manager

/-- No artifact of the owners in question is finished while its result is reported or may still be. -/
def Spares (m : Manager) (owners : RawArtifactOwner → Prop) : Prop :=
  ∀ o id state a, owners o → artifactOf m.shared.artifacts o id = some true →
    entryOf m.shared.coordinator o = some (state, a) → isTerminal state = true ∧ a ≠ some id

/-- The operations that could do harm meet nothing they would do it to. -/
structure Careful (m : Manager) (event : Event) : Prop where
  below : RevisionsBelow m.shared.coordinator
  /-- A start that releases its tab. -/
  releaseTab : ∀ x input task raw, event = .task x input → m.tasks.lookup x = some task →
    task.phase = .releaseTab raw → m.Spares fun o ↦ o.tabId = task.owner.tabId
  /-- A failed start that discards its tab. -/
  discard : ∀ x input task entry, event = .task x input → m.tasks.lookup x = some task →
    task.phase = .discard →
    m.shared.coordinator.entries.lookup task.owner.tabId = some entry →
    entry.snapshot.executionId = task.owner.executionId
  closeTab : ∀ n input tabId, event = .call n input → m.calls.lookup n = some (.closeTab tabId) →
    m.Spares fun o ↦ o.tabId = tabId
  disconnect : ∀ n input profileId, event = .call n input →
    m.calls.lookup n = some (.disconnect profileId) → m.Spares fun o ↦ o.profileId = profileId
  /-- A release whose file cannot be removed. -/
  stuck : ∀ n stuck o id b, event = .call n (.proceed stuck) →
    m.calls.lookup n = some (.releaseArtifact o) → artifactOf m.shared.artifacts o id = some b →
    stuck id = true → ∀ state named, entryOf m.shared.coordinator o ≠ some (state, some named)

/-! ### The invariant -/

/-- A call or a control task stands there. -/
def Pending (m : Manager) (call : Call) : Prop :=
  ∃ n, m.calls.lookup n = some call

/-- Somebody else will remove the artifacts of the tab or of the profile. -/
def Clearing (m : Manager) (o : RawArtifactOwner) : Prop :=
  m.Pending (.closeTab o.tabId) ∨ m.Pending (.disconnect o.profileId) ∨
    ∃ x task raw, x ≠ o.executionId ∧ m.tasks.lookup x = some task ∧
      task.phase = .releaseTab raw ∧ task.owner.tabId = o.tabId

/-- What an execution sees of the manager. -/
def view (m : Manager) (o : RawArtifactOwner) : Local where
  entry := entryOf m.shared.coordinator o
  phase := (m.tasks.lookup o.executionId).map (·.phase)
  artifact := artifactOf m.shared.artifacts o
  control := m.Pending (.control o)
  releasing := m.Pending (.releaseArtifact o)
  removing := m.Pending (.releaseEntry o)
  cleanup := m.Clearing o

/-- Everything is of executions that were started, under the id that was drawn for it. -/
structure Known (m : Manager) : Prop where
  entry : ∀ tabId e, m.shared.coordinator.entries.lookup tabId = some e →
    m.drawn.lookup e.snapshot.executionId = some ⟨e.profileId, tabId, e.snapshot.executionId⟩
  owner : ∀ x task, m.tasks.lookup x = some task →
    task.owner.executionId = x ∧ m.drawn.lookup x = some task.owner
  fails : ∀ x task, m.tasks.lookup x = some task → task.phase.Fails
  holds : ∀ x task id, m.tasks.lookup x = some task → task.phase.holds = some id →
    m.drawn.lookup id = some task.owner
  artifact : ∀ o id b, artifactOf m.shared.artifacts o id = some b →
    m.drawn.lookup id = some o ∧ m.drawn.lookup o.executionId = some o
  call : ∀ n call o, m.calls.lookup n = some call → call.owner? = some o →
    m.drawn.lookup o.executionId = some o
  unused : ∀ n, m.called ≤ n → m.calls.lookup n = none

/-- The invariant of the manager. -/
structure Inv (m : Manager) : Prop where
  known : m.Known
  sound : ∀ o, m.drawn.lookup o.executionId = some o → (m.view o).Sound

/-! ### The events -/

/-- What an event can do. -/
inductive Step (m : Manager) : Event → Manager → Prop
  | idle (event : Event) : Step m event m
  | refused {owner : RawArtifactOwner} {queryId : String} {statementClass : SqlStatementClass}
      {startedAt : ℕ} {raw : Bool} (hfresh : m.drawn.lookup owner.executionId = none) :
    Step m (.start owner queryId statementClass startedAt raw)
      { m with drawn := m.drawn.insert owner.executionId owner }
  | started {owner : RawArtifactOwner} {queryId : String} {statementClass : SqlStatementClass}
      {startedAt : ℕ} (raw : Bool) (hfresh : m.drawn.lookup owner.executionId = none)
      (hterminal : ∀ entry, m.shared.coordinator.entries.lookup owner.tabId = some entry →
        isTerminal entry.snapshot.state = true) :
    Step m (.start owner queryId statementClass startedAt raw)
      { m with
        drawn := m.drawn.insert owner.executionId owner
        shared := { m.shared with
          coordinator := m.shared.coordinator.registered
            ⟨owner.profileId, owner.tabId, owner.executionId, queryId, statementClass, startedAt⟩ }
        tasks := m.tasks.insert owner.executionId ⟨owner, .releaseTab raw⟩ }
  | canceling {owner : RawArtifactOwner} {entry : ActiveSqlExecution}
      (hentry : m.shared.coordinator.entries.lookup owner.tabId = some entry)
      (hmatch : entry.profileId = owner.profileId ∧
        entry.snapshot.executionId = owner.executionId) :
    Step m (.cancel owner) (m.begin (.beginCancel owner))
  | releasing {owner : RawArtifactOwner} {entry : ActiveSqlExecution}
      (hentry : m.shared.coordinator.entries.lookup owner.tabId = some entry)
      (hmatch : entry.profileId = owner.profileId ∧ entry.snapshot.executionId = owner.executionId)
      (hterminal : isTerminal entry.snapshot.state = true) :
    Step m (.release owner) (m.begin (.releaseArtifact owner))
  | closed (tabId : String) :
    Step m (.closeTab tabId)
      ({ m with shared := { m.shared with
        coordinator := (m.shared.coordinator.discardTab tabId).2 } }.begin (.closeTab tabId))
  | disconnected (profileId : String) :
    Step m (.disconnect profileId)
      ({ m with shared := { m.shared with
        coordinator := (m.shared.coordinator.discardProfile profileId).2 } }.begin
          (.disconnect profileId))
  | task {x : String} {input : TaskInput} {task : Task} (hlookup : m.tasks.lookup x = some task)
      (hfresh : ∀ id ∈ input.ids, m.drawn.lookup id = none) {s : Shared} {next : Option Phase}
      (hstep : TaskStep m.shared task.owner task.phase input.ids s next) :
    Step m (.task x input)
      { m with
        shared := s
        tasks := setTask m.tasks task.owner next
        drawn := input.ids.foldl (fun drawn id ↦ drawn.insert id task.owner) m.drawn }
  | call {n : ℕ} {input : CallInput} {call : Call} {p : RawArtifactOwner}
      (hlookup : m.calls.lookup n = some call) {s : Shared} {next : Option Call}
      (hstep : CallStep m.shared p call input s next) :
    Step m (.call n input) { m with shared := s, calls := setCall m.calls n next }
  | waiting {n : ℕ} {call : Call} (input : CallInput) (hlookup : m.calls.lookup n = some call) :
    Step m (.call n input) { m with calls := m.calls.insert n call }
  | tabCleared {n : ℕ} {tabId : String} (hlookup : m.calls.lookup n = some (.closeTab tabId))
      (stuck : String → Bool) :
    Step m (.call n (.proceed stuck))
      { m with
        shared := { m.shared with artifacts := (m.shared.artifacts.releaseTab tabId stuck).2 }
        calls := m.calls.erase n }
  | profileCleared {n : ℕ} {profileId : String}
      (hlookup : m.calls.lookup n = some (.disconnect profileId)) (stuck : String → Bool) :
    Step m (.call n (.proceed stuck))
      { m with
        shared := { m.shared with artifacts := (m.shared.artifacts.releaseProfile profileId stuck).2 }
        calls := m.calls.erase n }

variable {m m' : Manager} {event : Event}

variable {o : RawArtifactOwner}

/-- `snapshot_for_profile` answers for the entry of an execution. -/
theorem exists_of_snapshotForProfile {c : SqlExecutionCoordinator} {snapshot : SqlExecutionSnapshot}
    (h : c.snapshotForProfile o.profileId o.tabId o.executionId = .ok snapshot) :
    ∃ entry, c.entries.lookup o.tabId = some entry ∧
      (entry.profileId = o.profileId ∧ entry.snapshot.executionId = o.executionId) ∧
      entry.snapshot = snapshot := by
  rw [snapshotForProfile] at h
  cases hlookup : c.entries.lookup o.tabId with
  | none =>
    rw [hlookup] at h
    cases h
  | some entry =>
    rw [hlookup] at h
    obtain ⟨hmatch, heq⟩ := ite_ok_else_error_eq_ok_iff.1 h
    exact ⟨entry, rfl, hmatch, heq⟩

/-- **Everything that an event can do.** -/
theorem step_cases (hknown : m.Known) (hbelow : RevisionsBelow m.shared.coordinator) (event : Event) :
    Step m event (step event m) := by
  cases event with
  | start owner queryId statementClass startedAt raw =>
    cases hdrawn : m.drawn.lookup owner.executionId with
    | some o =>
      simp only [step, hdrawn, Option.isSome_some, if_true]
      exact .idle _
    | none =>
      simp only [step, hdrawn, Option.isSome_none, Bool.false_eq_true, if_false, registerWithSink_eq]
      split_ifs with hactive
      · exact .refused hdrawn
      · refine .started raw hdrawn fun entry hentry ↦ ?_
        rw [hentry, Option.any_some] at hactive
        simpa using hactive
  | cancel owner =>
    dsimp only [step]
    cases hsnapshot : m.shared.coordinator.snapshotForProfile owner.profileId owner.tabId
      owner.executionId with
    | error e => exact .idle _
    | ok snapshot =>
      obtain ⟨entry, hentry, hmatch, -⟩ := exists_of_snapshotForProfile hsnapshot
      dsimp only
      split_ifs
      · exact .idle _
      · exact .canceling hentry hmatch
  | release owner =>
    dsimp only [step]
    cases hsnapshot : m.shared.coordinator.snapshotForProfile owner.profileId owner.tabId
      owner.executionId with
    | error e => exact .idle _
    | ok snapshot =>
      obtain ⟨entry, hentry, hmatch, rfl⟩ := exists_of_snapshotForProfile hsnapshot
      dsimp only
      split_ifs with hterminal
      · exact .releasing hentry hmatch hterminal
      · exact .idle _
  | closeTab tabId => exact .closed tabId
  | disconnect profileId => exact .disconnected profileId
  | task x input =>
    dsimp only [step]
    cases hlookup : m.tasks.lookup x with
    | none => exact .idle _
    | some task =>
      dsimp only
      split_ifs with hdrawn
      · exact .idle _
      · refine .task hlookup (fun id hid ↦ ?_) (taskStep_cases hbelow (hknown.fails x task hlookup) input)
        by_contra hsome
        exact hdrawn (List.any_eq_true.2 ⟨id, hid, Option.isSome_iff_ne_none.2 hsome⟩)
  | call n input =>
    dsimp only [step]
    cases hlookup : m.calls.lookup n with
    | none => exact .idle _
    | some call =>
      cases howner : call.owner? with
      | some p => exact .call hlookup (callStep_cases hbelow howner input)
      | none =>
        cases call with
        | closeTab tabId =>
          cases input with
          | proceed stuck => exact .tabCleared hlookup stuck
          | confirmed | unconfirmed => exact .waiting _ hlookup
        | disconnect profileId =>
          cases input with
          | proceed stuck => exact .profileCleared hlookup stuck
          | confirmed | unconfirmed => exact .waiting _ hlookup
        | _ => cases howner

/-! ### Isolation -/

/-- The entry of another execution is left alone by an event that acts for one. -/
theorem isolated_of_untouched {x : String} (hacts : m.actsFor event = some x)
    (h : Untouched x m.shared.coordinator (step event m).shared.coordinator) : m.Isolated event := by
  intro tabId entry hentry
  rcases eq_or_ne entry.snapshot.executionId x with heq | hne
  · exact .inr (.inl (hacts.trans (congrArg some heq.symm)))
  · exact .inl (h tabId entry hentry hne)

/-- **Under the condition, events leave the entries of other executions alone.** -/
theorem isolated_of_careful (hknown : m.Known) (hcareful : m.Careful event) : m.Isolated event := by
  have hstep := step_cases hknown hcareful.below event
  intro tabId entry hentry
  have hacted {x : String} (hacts : m.actsFor event = some x)
      (h : Untouched x m.shared.coordinator (step event m).shared.coordinator) :=
    isolated_of_untouched hacts h tabId entry hentry
  generalize step event m = m' at hstep hacted ⊢
  cases hstep with
  | idle | refused | canceling | releasing | waiting | tabCleared | profileCleared =>
    exact .inl hentry
  | @started owner _ _ _ raw hfresh hterminal =>
    rcases eq_or_ne tabId owner.tabId with rfl | hne
    · exact .inr (.inr (.inr (.inr ⟨owner, _, _, _, raw, rfl, rfl, hterminal entry hentry⟩)))
    · exact .inl ((Table.lookup_insert _ _ _ _).trans ((if_neg hne).trans hentry))
  | closed other =>
    rcases eq_or_ne tabId other with rfl | hne
    · exact .inr (.inr (.inl rfl))
    · exact .inl ((lookup_discardTab _ _ _).trans ((if_neg hne).trans hentry))
  | disconnected profileId =>
    rcases eq_or_ne entry.profileId profileId with rfl | hne
    · exact .inr (.inr (.inr (.inl rfl)))
    · refine .inl ((lookup_discardProfile _ _ _).trans ?_)
      rw [hentry]
      exact Option.filter_some_pos (by simp [hne])
  | @task x input task hlookup hfresh s next hstep =>
    obtain ⟨rfl, -⟩ := hknown.owner x task hlookup
    rcases eq_or_ne task.phase .discard with hdiscard | hphase
    · rcases eq_or_ne tabId task.owner.tabId with rfl | hne
      · have hown := hcareful.discard _ _ task entry rfl hlookup hdiscard hentry
        exact .inr (.inl (congrArg some hown.symm))
      · rcases hstep.discard_cases hdiscard with rfl | rfl
        · exact .inl hentry
        · exact .inl ((lookup_discardTab _ _ _).trans ((if_neg hne).trans hentry))
    · exact hacted rfl (hstep.untouched hphase)
  | @call n input call p hlookup s next hstep =>
    refine hacted ?_ hstep.ownEffect.untouched
    show ((m.calls.lookup n).bind Call.owner?).map _ = _
    rw [hlookup, Option.bind_some, hstep.owner?_eq]
    rfl

/-! ### What is known stays known -/

theorem lookup_setTask (tasks : Table String Task) (o : RawArtifactOwner) (phase : Option Phase)
    (x : String) :
    (setTask tasks o phase).lookup x =
      if x = o.executionId then phase.map (Task.mk o) else tasks.lookup x := by
  cases phase with
  | none => exact Table.lookup_erase tasks o.executionId x
  | some phase => exact Table.lookup_insert tasks o.executionId x ⟨o, phase⟩

theorem lookup_setCall (calls : Table ℕ Call) (n : ℕ) (call : Option Call) (k : ℕ) :
    (setCall calls n call).lookup k = if k = n then call else calls.lookup k := by
  cases call with
  | none => exact Table.lookup_erase calls n k
  | some call => exact Table.lookup_insert calls n k call

theorem lookup_draw (ids : List String) (drawn : Table String RawArtifactOwner) (o : RawArtifactOwner)
    (x : String) :
    (ids.foldl (fun drawn id ↦ drawn.insert id o) drawn).lookup x =
      if x ∈ ids then some o else drawn.lookup x := by
  induction ids generalizing drawn with
  | nil => rfl
  | cons id ids ih =>
    refine (ih (drawn.insert id o)).trans ?_
    rw [Table.lookup_insert]
    rcases eq_or_ne x id with rfl | hne
    · simp
    · simp [hne]

namespace Known

theorem draw (h : m.Known) {drawn : Table String RawArtifactOwner}
    (hdrawn : ∀ x o, m.drawn.lookup x = some o → drawn.lookup x = some o) :
    ({ m with drawn := drawn } : Manager).Known where
  entry := fun tabId e he ↦ hdrawn _ _ (h.entry tabId e he)
  owner := fun x task hlookup ↦ (h.owner x task hlookup).imp_right (hdrawn _ _)
  fails := h.fails
  holds := fun x task id hlookup hid ↦ hdrawn _ _ (h.holds x task id hlookup hid)
  artifact := fun o id b hb ↦ (h.artifact o id b hb).imp (hdrawn _ _) (hdrawn _ _)
  call := fun n call o hlookup howner ↦ hdrawn _ _ (h.call n call o hlookup howner)
  unused := h.unused

theorem setShared (h : m.Known) (s : Shared) (hchanges : Changes m.shared.coordinator s.coordinator)
    (hartifact : ∀ o id b, artifactOf s.artifacts o id = some b →
      (∃ b', artifactOf m.shared.artifacts o id = some b') ∨
        m.drawn.lookup id = some o ∧ m.drawn.lookup o.executionId = some o) :
    ({ m with shared := s } : Manager).Known where
  entry := by
    intro tabId e he
    obtain ⟨before, hbefore, hprofile, hid⟩ := hchanges.exists_lookup he
    have hdrawn := h.entry tabId before hbefore
    rwa [hprofile, hid] at hdrawn
  owner := h.owner
  fails := h.fails
  holds := h.holds
  artifact := by
    intro o id b hb
    rcases hartifact o id b hb with ⟨b', hb'⟩ | hdrawn
    · exact h.artifact o id b' hb'
    · exact hdrawn
  call := h.call
  unused := h.unused

theorem setTask (h : m.Known) {o : RawArtifactOwner} (hdrawn : m.drawn.lookup o.executionId = some o)
    (next : Option Phase) (hfails : ∀ q, next = some q → q.Fails)
    (hholds : ∀ q id, next = some q → q.holds = some id → m.drawn.lookup id = some o) :
    ({ m with tasks := Manager.setTask m.tasks o next } : Manager).Known := by
  have hcases {x : String} {task : Task} (hlookup : (Manager.setTask m.tasks o next).lookup x = some task) :
      x = o.executionId ∧ task.owner = o ∧ next = some task.phase ∨ m.tasks.lookup x = some task := by
    rw [lookup_setTask] at hlookup
    split_ifs at hlookup with heq
    · obtain ⟨phase, hphase, rfl⟩ := Option.map_eq_some_iff.1 hlookup
      exact .inl ⟨heq, rfl, hphase⟩
    · exact .inr hlookup
  refine ⟨h.entry, fun x task hlookup ↦ ?_, fun x task hlookup ↦ ?_, fun x task id hlookup hid ↦ ?_,
    h.artifact, h.call, h.unused⟩
  · rcases hcases hlookup with ⟨rfl, rfl, -⟩ | hbefore
    · exact ⟨rfl, hdrawn⟩
    · exact h.owner x task hbefore
  · rcases hcases hlookup with ⟨-, -, hnext⟩ | hbefore
    · exact hfails _ hnext
    · exact h.fails x task hbefore
  · rcases hcases hlookup with ⟨-, rfl, hnext⟩ | hbefore
    · exact hholds _ id hnext hid
    · exact h.holds x task id hbefore hid

theorem setCall (h : m.Known) {n : ℕ} {call : Call} (hlookup : m.calls.lookup n = some call)
    (next : Option Call)
    (hnext : ∀ q o, next = some q → q.owner? = some o → m.drawn.lookup o.executionId = some o) :
    ({ m with calls := Manager.setCall m.calls n next } : Manager).Known := by
  refine ⟨h.entry, h.owner, h.fails, h.holds, h.artifact, fun k q o hq howner ↦ ?_, fun k hk ↦ ?_⟩
  · rw [lookup_setCall] at hq
    split_ifs at hq
    · exact hnext q o hq howner
    · exact h.call k q o hq howner
  · refine (lookup_setCall _ _ _ _).trans ((if_neg ?_).trans (h.unused k hk))
    rintro rfl
    rw [h.unused k hk] at hlookup
    cases hlookup

theorem begin (h : m.Known) (call : Call)
    (hcall : ∀ o, call.owner? = some o → m.drawn.lookup o.executionId = some o) :
    (m.begin call).Known := by
  refine ⟨h.entry, h.owner, h.fails, h.holds, h.artifact, fun k q o hq howner ↦ ?_, fun k hk ↦ ?_⟩
  · replace hq := (Table.lookup_insert m.calls m.called k call).symm.trans hq
    split_ifs at hq
    · obtain rfl := Option.some.inj hq
      exact hcall o howner
    · exact h.call k q o hq howner
  · refine (Table.lookup_insert m.calls m.called k call).trans ((if_neg ?_).trans ?_)
    · exact fun heq ↦ Nat.not_succ_le_self _ (heq ▸ hk)
    · exact h.unused k (Nat.le_of_succ_le hk)

variable {o : RawArtifactOwner} {id : String}

/-- The execution of an entry that a call has looked up. -/
theorem drawn_of_match (h : m.Known) {entry : ActiveSqlExecution}
    (hentry : m.shared.coordinator.entries.lookup o.tabId = some entry)
    (hmatch : entry.profileId = o.profileId ∧ entry.snapshot.executionId = o.executionId) :
    m.drawn.lookup o.executionId = some o := by
  have hdrawn := h.entry _ _ hentry
  rwa [hmatch.1, hmatch.2] at hdrawn

/-- A record in the store is the artifact of its owner. -/
theorem owner_eq (h : m.Known) {record : RawArtifactRecord}
    (hrecord : m.shared.artifacts.entries.lookup id = some record) (hdrawn : m.drawn.lookup id = some o) :
    record.owner = o := by
  have hartifact := (RawArtifactStore.artifactOf_of_lookup hrecord record.owner).trans (if_pos rfl)
  exact Option.some.inj ((h.artifact _ _ _ hartifact).1.symm.trans hdrawn)

/-- An id that is not drawn names no artifact. -/
theorem lookup_eq_none (h : m.Known) (hfresh : m.drawn.lookup id = none) :
    m.shared.artifacts.entries.lookup id = none := by
  by_contra hsome
  obtain ⟨record, hrecord⟩ := Option.ne_none_iff_exists'.1 hsome
  have hartifact := (RawArtifactStore.artifactOf_of_lookup hrecord record.owner).trans (if_pos rfl)
  rw [(h.artifact _ _ _ hartifact).1] at hfresh
  cases hfresh

/-- **Events keep what is known.** -/
theorem step (h : m.Known) (hstep : Step m event m') : m'.Known := by
  have hextends {x : String} {owner : RawArtifactOwner} (hfresh : m.drawn.lookup x = none) (y o)
      (hy : m.drawn.lookup y = some o) : (m.drawn.insert x owner).lookup y = some o := by
    refine (Table.lookup_insert _ _ _ _).trans ((if_neg ?_).trans hy)
    rintro rfl
    rw [hfresh] at hy
    cases hy
  cases hstep with
  | idle => exact h
  | refused hfresh => exact h.draw (hextends hfresh)
  | @started owner _ _ _ raw hfresh hterminal =>
    have hself : (m.drawn.insert owner.executionId owner).lookup owner.executionId = some owner :=
      AList.lookup_insert _
    have htask := (h.draw (hextends hfresh)).setTask hself (some (.releaseTab raw))
      (fun q hq ↦ Option.some.inj hq ▸ trivial) (fun q id hq hid ↦ by cases hq; cases hid)
    refine ⟨fun tabId e he ↦ ?_, htask.owner, htask.fails, htask.holds, htask.artifact, htask.call,
      htask.unused⟩
    replace he := (Table.lookup_insert m.shared.coordinator.entries owner.tabId tabId _).symm.trans he
    split_ifs at he with htab
    · obtain rfl := Option.some.inj he
      rw [htab]
      exact hself
    · exact htask.entry tabId e he
  | canceling hentry hmatch | releasing hentry hmatch =>
    refine h.begin _ fun o ho ↦ ?_
    obtain rfl := Option.some.inj ho
    exact h.drawn_of_match hentry hmatch
  | closed tabId =>
    exact (h.setShared ⟨_, m.shared.artifacts⟩ (changes_discardTab _ tabId) fun o id b hb ↦
      .inl ⟨b, hb⟩).begin (.closeTab tabId) fun o ho ↦ (nomatch ho)
  | disconnected profileId =>
    exact (h.setShared ⟨_, m.shared.artifacts⟩ (changes_discardTabs _ _) fun o id b hb ↦
      .inl ⟨b, hb⟩).begin (.disconnect profileId) fun o ho ↦ (nomatch ho)
  | @task x input task hlookup hfresh s next hstep =>
    obtain ⟨rfl, hdrawn⟩ := h.owner x task hlookup
    have hkeeps (y o) (hy : m.drawn.lookup y = some o) :
        (input.ids.foldl (fun drawn id ↦ drawn.insert id task.owner) m.drawn).lookup y = some o := by
      refine (lookup_draw _ _ _ _).trans ((if_neg fun hmem ↦ ?_).trans hy)
      rw [hfresh y hmem] at hy
      cases hy
    have hnew {id : String} (hid : id ∈ input.ids) :
        (input.ids.foldl (fun drawn id ↦ drawn.insert id task.owner) m.drawn).lookup id =
          some task.owner :=
      (lookup_draw _ _ _ _).trans (if_pos hid)
    refine ((h.draw hkeeps).setShared s hstep.changes fun o id b hb ↦ ?_).setTask (hkeeps _ _ hdrawn)
      next (fun q hq ↦ hstep.fails (h.fails _ _ hlookup) hq) fun q id hq hid ↦ ?_
    · rcases hstep.artifact_known hb with hbefore | ⟨rfl, hid⟩
      · exact .inl hbefore
      · exact .inr ⟨hnew hid, hkeeps _ _ hdrawn⟩
    · rcases hstep.holds hq hid with hheld | hmem
      · exact hkeeps _ _ (h.holds _ _ _ hlookup hheld)
      · exact hnew hmem
  | @call n input call p hlookup s next hstep =>
    have hdrawn := h.call n call p hlookup hstep.owner?_eq
    refine (h.setShared s hstep.ownEffect.changes fun o id b hb ↦ ?_).setCall hlookup next
      fun q o hq ho ↦ ?_
    · exact .inl (hstep.artifact_known hb)
    · obtain rfl := Option.some.inj ((hstep.owner_eq hq).symm.trans ho)
      exact hdrawn
  | waiting input hlookup =>
    exact h.setCall hlookup (some _) fun q o hq ho ↦ h.call _ q o (Option.some.inj hq ▸ hlookup) ho
  | @tabCleared n tabId hlookup stuck =>
    refine (h.setShared ⟨m.shared.coordinator, (m.shared.artifacts.releaseTab tabId stuck).2⟩ .refl
      fun o id b hb ↦ .inl ⟨b, ?_⟩).setCall hlookup none fun q o hq ↦ (nomatch hq)
    have hreleased := RawArtifactStore.artifactOf_releaseTab m.shared.artifacts tabId stuck o id
    exact (Option.ite_none_left_eq_some.1 (hreleased.symm.trans hb)).2
  | @profileCleared n profileId hlookup stuck =>
    refine (h.setShared ⟨m.shared.coordinator, (m.shared.artifacts.releaseProfile profileId stuck).2⟩ .refl
      fun o id b hb ↦ .inl ⟨b, ?_⟩).setCall hlookup none fun q o hq ↦ (nomatch hq)
    have hreleased := RawArtifactStore.artifactOf_releaseProfile m.shared.artifacts profileId stuck o id
    exact (Option.ite_none_left_eq_some.1 (hreleased.symm.trans hb)).2

end Known

/-! ### The invariant is kept -/

section Pending

variable {n : ℕ} {call c : Call} {next : Option Call}

theorem pending_setCall_iff (hcalls : m'.calls = setCall m.calls n next) :
    m'.Pending c ↔ next = some c ∨ ∃ k, k ≠ n ∧ m.calls.lookup k = some c := by
  constructor
  · rintro ⟨k, hk⟩
    rw [hcalls, lookup_setCall] at hk
    split_ifs at hk with heq
    · exact .inl hk
    · exact .inr ⟨k, heq, hk⟩
  · rintro (hnext | ⟨k, hne, hk⟩)
    · exact ⟨n, by rw [hcalls, lookup_setCall, if_pos rfl, hnext]⟩
    · exact ⟨k, by rw [hcalls, lookup_setCall, if_neg hne, hk]⟩

/-- A call that another one has become. -/
theorem Pending.of_setCall (h : m'.Pending c) (hcalls : m'.calls = setCall m.calls n next)
    (hne : next ≠ some c) : m.Pending c := by
  obtain ⟨k, -, hk⟩ := ((pending_setCall_iff hcalls).1 h).resolve_left hne
  exact ⟨k, hk⟩

/-- A call that is not the one that moves stays. -/
theorem Pending.setCall (h : m.Pending c) (hlookup : m.calls.lookup n = some call)
    (hcalls : m'.calls = setCall m.calls n next) (hne : call ≠ c) : m'.Pending c := by
  obtain ⟨k, hk⟩ := h
  refine (pending_setCall_iff hcalls).2 (.inr ⟨k, ?_, hk⟩)
  rintro rfl
  exact hne (Option.some.inj (hlookup.symm.trans hk))

/-- A call that waits. -/
theorem pending_setCall_self (hlookup : m.calls.lookup n = some call)
    (hcalls : m'.calls = setCall m.calls n (some call)) : m'.Pending c ↔ m.Pending c := by
  have hsame (k : ℕ) : m'.calls.lookup k = m.calls.lookup k := by
    rw [hcalls, lookup_setCall]
    split_ifs with heq
    · rw [heq, hlookup]
    · rfl
  simp only [Pending, hsame]

theorem pending_begin_iff (hknown : m.Known) : (m.begin call).Pending c ↔ call = c ∨ m.Pending c := by
  have hlookup (k : ℕ) : (m.begin call).calls.lookup k =
      if k = m.called then some call else m.calls.lookup k :=
    Table.lookup_insert m.calls m.called k call
  constructor
  · rintro ⟨k, hk⟩
    rw [hlookup] at hk
    split_ifs at hk
    · exact .inl (Option.some.inj hk)
    · exact .inr ⟨k, hk⟩
  · rintro (rfl | ⟨k, hk⟩)
    · exact ⟨m.called, (hlookup _).trans (if_pos rfl)⟩
    · refine ⟨k, (hlookup _).trans ((if_neg ?_).trans hk)⟩
      rintro rfl
      rw [hknown.unused _ le_rfl] at hk
      cases hk

end Pending

/-- Calls and tasks that stay keep clearing. -/
theorem Clearing.mono (h : m.Clearing o)
    (hcalls : ∀ c : Call, c = .closeTab o.tabId ∨ c = .disconnect o.profileId → m.Pending c →
      m'.Pending c) (htasks : ∀ x task raw, x ≠ o.executionId → m.tasks.lookup x = some task →
      task.phase = .releaseTab raw → task.owner.tabId = o.tabId → m'.tasks.lookup x = some task) :
    m'.Clearing o := by
  rcases h with h | h | ⟨x, task, raw, hx, hlookup, hphase, htab⟩
  · exact .inl (hcalls _ (.inl rfl) h)
  · exact .inr (.inl (hcalls _ (.inr rfl) h))
  · exact .inr (.inr ⟨x, task, raw, hx, htasks x task raw hx hlookup hphase htab, hphase, htab⟩)

/-- What an execution sees, when it is sound and the manager shows it or something weaker. -/
theorem sound_view {v : Local} (hs : v.Sound) (hentry : entryOf m'.shared.coordinator o = v.entry)
    (hphase : (m'.tasks.lookup o.executionId).map (·.phase) = v.phase)
    (hartifact : artifactOf m'.shared.artifacts o = v.artifact)
    (hcontrol : v.control → m'.Pending (.control o))
    (hreleasing : m'.Pending (.releaseArtifact o) → v.releasing)
    (hremoving : m'.Pending (.releaseEntry o) ↔ v.removing) (hcleanup : v.cleanup → m'.Clearing o) :
    (m'.view o).Sound :=
  (Local.Step.weakened hentry hphase hartifact hcontrol hreleasing hremoving hcleanup).sound hs

/-- Nobody acts yet for an execution whose id is not drawn. -/
theorem Known.view_fresh (h : m.Known) (hfresh : m.drawn.lookup o.executionId = none) :
    entryOf m.shared.coordinator o = none ∧ m.tasks.lookup o.executionId = none ∧
      (∀ id, artifactOf m.shared.artifacts o id = none) ∧
      ∀ c : Call, c.owner? = some o → ¬ m.Pending c := by
  refine ⟨?_, ?_, fun id ↦ ?_, fun c hc ↦ ?_⟩
  · by_contra hsome
    obtain ⟨e, he⟩ := Option.ne_none_iff_exists'.1 hsome
    obtain ⟨entry, hentry, hid, -⟩ := exists_of_entryOf ⟨rfl, rfl⟩ he
    have hdrawn := h.entry _ _ hentry
    rw [hid, hfresh] at hdrawn
    cases hdrawn
  · by_contra hsome
    obtain ⟨task, htask⟩ := Option.ne_none_iff_exists'.1 hsome
    rw [(h.owner _ task htask).2] at hfresh
    cases hfresh
  · by_contra hsome
    obtain ⟨b, hb⟩ := Option.ne_none_iff_exists'.1 hsome
    rw [(h.artifact o id b hb).2] at hfresh
    cases hfresh
  · rintro ⟨n, hn⟩
    rw [h.call n c o hn hc] at hfresh
    cases hfresh

namespace Inv

variable {o : RawArtifactOwner} {s : Shared} {call : Call} {n : ℕ}

/-- An execution whose entry, task, artifacts and calls are what they were. -/
theorem sound_of_same (h : m.Inv) (ho : m.drawn.lookup o.executionId = some o)
    (hentry : entryOf m'.shared.coordinator o = entryOf m.shared.coordinator o)
    (htask : m'.tasks.lookup o.executionId = m.tasks.lookup o.executionId)
    (hartifact : artifactOf m'.shared.artifacts o = artifactOf m.shared.artifacts o)
    (hcalls : ∀ c : Call, c.owner? = some o → (m'.Pending c ↔ m.Pending c))
    (hclearing : m.Clearing o → m'.Clearing o) : (m'.view o).Sound :=
  sound_view (h.sound o ho) hentry (congrArg _ htask) hartifact (hcalls _ rfl).2 (hcalls _ rfl).1
    (hcalls _ rfl) hclearing

/-- A start. -/
theorem sound_started (h : m.Inv) {owner : RawArtifactOwner} {queryId : String}
    {statementClass : SqlStatementClass} {startedAt : ℕ} {raw : Bool}
    (hfresh : m.drawn.lookup owner.executionId = none) (hshared : m'.shared = { m.shared with
      coordinator := m.shared.coordinator.registered
        ⟨owner.profileId, owner.tabId, owner.executionId, queryId, statementClass, startedAt⟩ })
    (htasks : m'.tasks = m.tasks.insert owner.executionId ⟨owner, .releaseTab raw⟩)
    (hcalls : m'.calls = m.calls)
    (ho : o = owner ∨ o.executionId ≠ owner.executionId ∧ m.drawn.lookup o.executionId = some o) :
    (m'.view o).Sound := by
  have hlookup (x : String) : m'.tasks.lookup x =
      if x = owner.executionId then some ⟨owner, .releaseTab raw⟩ else m.tasks.lookup x := by
    rw [htasks]
    exact Table.lookup_insert m.tasks owner.executionId x _
  have hentries (tabId : String) : m'.shared.coordinator.entries.lookup tabId =
      if tabId = owner.tabId then some ⟨owner.profileId, SqlExecutionStartInput.snapshot
        ⟨owner.profileId, owner.tabId, owner.executionId, queryId, statementClass, startedAt⟩,
        m.shared.coordinator.registrations⟩
      else m.shared.coordinator.entries.lookup tabId := by
    rw [hshared]
    exact Table.lookup_insert m.shared.coordinator.entries owner.tabId tabId _
  have hartifacts : m'.shared.artifacts = m.shared.artifacts := by rw [hshared]
  have hpending (c : Call) : m'.Pending c ↔ m.Pending c := by rw [Pending, Pending, hcalls]
  have hclearing {o : RawArtifactOwner} (hne : o.executionId ≠ owner.executionId)
      (hc : m.Clearing o) : m'.Clearing o := by
    refine hc.mono (fun c _ ↦ (hpending c).2) fun x task raw' _ htask _ _ ↦ ?_
    rw [hlookup, if_neg, htask]
    rintro rfl
    rw [(h.known.view_fresh hfresh).2.1] at htask
    cases htask
  rcases ho with rfl | ⟨hne, hdrawn⟩
  · -- nothing but the entry and the task of the new execution
    obtain ⟨-, -, hartifact, hcall⟩ := h.known.view_fresh hfresh
    have hentry : entryOf m'.shared.coordinator o = some (.starting, none) :=
      entryOf_of_lookup ((hentries o.tabId).trans (if_pos rfl)) rfl ⟨rfl, rfl⟩
    have hphase : (m'.view o).phase = some (.releaseTab raw) :=
      congrArg (Option.map Task.phase) ((hlookup o.executionId).trans (if_pos rfl))
    have hnone (id : String) : (m'.view o).artifact id = none := by
      show artifactOf m'.shared.artifacts o id = none
      rw [hartifacts, hartifact]
    have hnot (c : Call) (hc : c.owner? = some o) : ¬ m'.Pending c := fun hp ↦
      hcall c hc ((hpending c).1 hp)
    have hview {state : SqlExecutionState} {a : Option String}
        (he : (m'.view o).entry = some (state, a)) : state = .starting ∧ a = none :=
      Prod.mk.inj (Option.some.inj (he.symm.trans hentry))
    refine ⟨fun a he ↦ (nomatch (hview he).1), fun a _ ↦ ⟨_, hphase, rfl⟩,
      fun a he ↦ (nomatch (hview he).1), fun a he ↦ (nomatch (hview he).1),
      fun _ _ he ↦ (nomatch (hview he).2), fun _ _ he ↦ (nomatch (hview he).2),
      fun id b hb ↦ (nomatch (hnone id).symm.trans hb),
      fun hr ↦ (hr.elim (hnot _ rfl) (hnot _ rfl)).elim, fun p id hp hdel ↦ ?_⟩
    obtain rfl := Option.some.inj (hphase.symm.trans hp)
    exact hdel.elim
  · have htask : m'.tasks.lookup o.executionId = m.tasks.lookup o.executionId :=
      (hlookup _).trans (if_neg hne)
    rcases eq_or_ne o.tabId owner.tabId with htab | htab
    · -- its entry is replaced, and the new start will release the tab
      have hentry : entryOf m'.shared.coordinator o = none := by
        rw [entryOf, registered_eq_none_of_lookup ((hentries o.tabId).trans (if_pos htab)) hne.symm]
        rfl
      refine sound_view (Local.Step.taken.sound (h.sound o hdrawn)) hentry (congrArg _ htask)
        (by rw [hartifacts]; rfl) (hpending _).2 (hpending _).1 (hpending _) fun _ ↦ ?_
      exact .inr (.inr ⟨owner.executionId, _, raw, hne.symm, (hlookup _).trans (if_pos rfl), rfl,
        htab.symm⟩)
    · exact h.sound_of_same hdrawn (entryOf_congr ((hentries o.tabId).trans (if_neg htab))) htask
        (by rw [hartifacts]) (fun c _ ↦ hpending c) (hclearing hne)

/-- A call begins. What it takes from an execution is `v`. -/
theorem sound_begin (h : m.Inv) {v : Local} (hs : v.Sound) (hentry : entryOf s.coordinator o = v.entry)
    (hphase : (m.view o).phase = v.phase) (hartifact : artifactOf s.artifacts o = v.artifact)
    (hcontrol : v.control → m.Pending (.control o))
    (hreleasing : call = .releaseArtifact o ∨ m.Pending (.releaseArtifact o) → v.releasing)
    (hremoving : v.removing = m.Pending (.releaseEntry o)) (hcall : call ≠ .releaseEntry o)
    (hcleanup : v.cleanup → call = .closeTab o.tabId ∨ call = .disconnect o.profileId ∨
      m.Clearing o) :
    (({ m with shared := s }.begin call).view o).Sound := by
  have hknown : ({ m with shared := m.shared } : Manager).Known := h.known
  have hpending (c : Call) : ({ m with shared := s }.begin call).Pending c ↔ call = c ∨ m.Pending c :=
    pending_begin_iff (m := m) hknown
  refine sound_view hs hentry hphase hartifact (fun hc ↦ (hpending _).2 (.inr (hcontrol hc)))
    (fun hr ↦ hreleasing ((hpending _).1 hr)) ?_ fun hc ↦ ?_
  · rw [hpending, hremoving]
    exact or_iff_right hcall
  · rcases hcleanup hc with rfl | rfl | hclearing
    · exact .inl ((hpending _).2 (.inl rfl))
    · exact .inr (.inl ((hpending _).2 (.inl rfl)))
    · exact hclearing.mono (fun c _ hc ↦ (hpending c).2 (.inr hc)) fun _ _ _ _ htask _ _ ↦ htask

/-- An operation of a task. -/
theorem sound_task (h : m.Inv) (hcareful : m.Careful event) {x : String} {input : TaskInput}
    (hevent : event = .task x input) {task : Task} (hlookup : m.tasks.lookup x = some task)
    (hfresh : ∀ id ∈ input.ids, m.drawn.lookup id = none) {next : Option Phase}
    (hstep : TaskStep m.shared task.owner task.phase input.ids s next) (hshared : m'.shared = s)
    (htasks : m'.tasks = setTask m.tasks task.owner next) (hcalls : m'.calls = m.calls)
    (ho : m.drawn.lookup o.executionId = some o) : (m'.view o).Sound := by
  obtain ⟨rfl, hdrawn⟩ := h.known.owner x task hlookup
  have hpending (c : Call) : m'.Pending c ↔ m.Pending c := by rw [Pending, Pending, hcalls]
  have hfind (y : String) : m'.tasks.lookup y =
      if y = task.owner.executionId then next.map (Task.mk task.owner) else m.tasks.lookup y := by
    rw [htasks]
    exact lookup_setTask _ _ _ _
  have hown (id record) (hid : task.phase.holds = some id)
      (hrecord : m.shared.artifacts.entries.lookup id = some record) : record.owner = task.owner :=
    h.known.owner_eq hrecord (h.known.holds _ _ _ hlookup hid)
  subst hshared
  rcases eq_or_ne o task.owner with rfl | hne
  · -- its own task
    have hview : m.view task.owner = m.shared.seen task.owner (some task.phase) (m.view task.owner) := by
      rw [Shared.seen, ← (show (m.view task.owner).phase = some task.phase from
        congrArg (Option.map Task.phase) hlookup)]
      rfl
    have hs := h.sound task.owner ho
    rw [hview] at hs
    refine sound_view (hstep.sound hown hs) rfl ?_ rfl (hpending _).2 (hpending _).1 (hpending _)
      fun hc ↦ ?_
    · rw [hfind, if_pos rfl, Option.map_map]
      exact Option.map_id'
    · refine Clearing.mono hc (fun c _ ↦ (hpending c).2) fun y _ _ hy hy' _ _ ↦ ?_
      rw [hfind, if_neg hy, hy']
  · -- another task
    have hexec : o.executionId ≠ task.owner.executionId := by
      intro heq
      rw [heq, hdrawn] at ho
      exact hne (Option.some.inj ho).symm
    have htask : m'.tasks.lookup o.executionId = m.tasks.lookup o.executionId :=
      (hfind _).trans (if_neg hexec)
    -- a clearing that is lost is that of the task itself
    have hclearing (hkept : ∀ raw, task.phase = .releaseTab raw → task.owner.tabId = o.tabId →
        next = some task.phase) (hc : m.Clearing o) : m'.Clearing o := by
      refine hc.mono (fun c _ ↦ (hpending c).2) fun y t raw hy ht hphase htab ↦ ?_
      rw [hfind]
      split_ifs with heq
      · subst heq
        obtain rfl := Option.some.inj (hlookup.symm.trans ht)
        rw [hkept raw hphase htab]
        rfl
      · exact ht
    by_cases hrelease : ∃ raw, task.phase = .releaseTab raw
    · obtain ⟨raw, hphase⟩ := hrelease
      rcases hstep.releaseTab_cases hphase with ⟨hsame, hnext⟩ | ⟨stuck, hreleased⟩
      · exact h.sound_of_same ho (by rw [hsame]) htask (by rw [hsame]) (fun c _ ↦ hpending c)
          (hclearing fun _ _ _ ↦ hnext)
      · have hartifact (id : String) : artifactOf m'.shared.artifacts o id =
            if o.tabId = task.owner.tabId then none else artifactOf m.shared.artifacts o id := by
          rw [hreleased]
          exact RawArtifactStore.artifactOf_releaseTab _ _ stuck _ _
        rcases eq_or_ne o.tabId task.owner.tabId with htab | htab
        · have hspares := hcareful.releaseTab _ _ task raw hevent hlookup hphase
          have hclean := Local.Step.cleaned (v := m.view o)
            (fun id state a hid he ↦ hspares o id state a htab hid he) (m'.Clearing o)
          refine sound_view (hclean.sound (h.sound o ho)) (by rw [hreleased]; rfl) (congrArg _ htask)
            (funext fun id ↦ (hartifact id).trans (if_pos htab)) (hpending _).2 (hpending _).1
            (hpending _) id
        · refine h.sound_of_same ho (by rw [hreleased]) htask
            (funext fun id ↦ (hartifact id).trans (if_neg htab)) (fun c _ ↦ hpending c) ?_
          exact hclearing fun _ _ heq ↦ absurd heq.symm htab
    · have hnot (raw : Bool) : task.phase ≠ .releaseTab raw := fun heq ↦ hrelease ⟨raw, heq⟩
      have hartifact : artifactOf m'.shared.artifacts o = artifactOf m.shared.artifacts o :=
        hstep.artifactOf_of_ne hnot hown (fun id hid ↦ h.known.lookup_eq_none (hfresh id hid)) hne
      refine h.sound_of_same ho ?_ htask hartifact (fun c _ ↦ hpending c)
        (hclearing fun raw heq ↦ absurd heq (hnot raw))
      rcases eq_or_ne task.phase .discard with hdiscard | hdiscard
      · rcases hstep.discard_cases hdiscard with hsame | hdiscarded
        · rw [hsame]
        · have hentries (tabId : String) := lookup_discardTab m.shared.coordinator task.owner.tabId tabId
          rw [hdiscarded]
          rcases eq_or_ne o.tabId task.owner.tabId with htab | htab
          · -- the entry of the tab is that of the failed start
            rw [entryOf_eq_none_of_lookup ((hentries o.tabId).trans (if_pos htab))]
            cases hentry : m.shared.coordinator.entries.lookup o.tabId with
            | none => exact (entryOf_eq_none_of_lookup hentry).symm
            | some entry =>
              have hid := hcareful.discard _ _ task entry hevent hlookup hdiscard (htab ▸ hentry)
              rw [entryOf, registered_eq_none_of_lookup hentry (hid.trans_ne hexec.symm)]
              rfl
          · exact entryOf_congr ((hentries o.tabId).trans (if_neg htab))
      · exact entryOf_of_untouched hstep.changes (hstep.untouched hdiscard) hexec

/-- An operation of a call for an execution. -/
theorem sound_call (h : m.Inv) (hcareful : m.Careful event) {input : CallInput}
    (hevent : event = .call n input) {p : RawArtifactOwner} (hlookup : m.calls.lookup n = some call)
    {next : Option Call} (hstep : CallStep m.shared p call input s next) (hshared : m'.shared = s)
    (htasks : m'.tasks = m.tasks) (hcalls : m'.calls = setCall m.calls n next)
    (ho : m.drawn.lookup o.executionId = some o) : (m'.view o).Sound := by
  have howner := hstep.owner?_eq
  have hdrawn := h.known.call n call p hlookup howner
  have hpending : m.Pending call := ⟨n, hlookup⟩
  have htask (x : String) : m'.tasks.lookup x = m.tasks.lookup x := by rw [htasks]
  -- calls of others stay
  have hother (c : Call) (hc : call ≠ c) (hnext : next ≠ some c) : m'.Pending c ↔ m.Pending c :=
    ⟨fun hp ↦ hp.of_setCall hcalls hnext, fun hp ↦ hp.setCall hlookup hcalls hc⟩
  have hclearing (hc : m.Clearing o) : m'.Clearing o := by
    refine hc.mono (fun c hc' hp ↦ hp.setCall hlookup hcalls ?_) fun x _ _ _ hx _ _ ↦ (htask x).trans hx
    rintro rfl
    rcases hc' with rfl | rfl <;> cases howner
  subst hshared
  rcases eq_or_ne o p with rfl | hne
  · have hs := h.sound o ho
    have hphase : (m'.tasks.lookup o.executionId).map (·.phase) = (m.view o).phase :=
      congrArg _ (htask _)
    have hcontrol := hother (.control o)
    have hreleasing := hother (.releaseArtifact o)
    have hremoving := hother (.releaseEntry o)
    generalize hs' : m'.shared = s at hstep
    cases hstep with
    | idle =>
      have hsame (c : Call) : m'.Pending c ↔ m.Pending c := pending_setCall_self hlookup hcalls
      exact sound_view hs (by rw [hs']; rfl) hphase (by rw [hs']; rfl) (hsame _).2 (hsame _).1
        (hsame _) hclearing
    | refused _ hacts =>
      exact sound_view hs (by rw [hs', hacts.entryOf_eq]; rfl) hphase (by rw [hs']; rfl)
        (hcontrol nofun nofun).2 (hreleasing nofun nofun).1 (hremoving nofun nofun) hclearing
    | beginCancel _ hentry hstate hacts =>
      refine sound_view ((Local.Step.beginCancel hentry hstate).sound hs)
        (by rw [hs', hacts.entryOf_eq]) hphase (by rw [hs']; rfl) (fun _ ↦ ?_)
        (hreleasing nofun nofun).1 (hremoving nofun nofun) hclearing
      exact (pending_setCall_iff hcalls).2 (.inl rfl)
    | @completed c state _ b hstate hacts =>
      have hmap := TaskStep.map_isValidTransition_eq (f := fun e ↦ (state, if b then e.2 else none)) hs
        (.inr (.inr hstate)) fun e he hactive ↦ by
          rw [hs.eq_none_of_active (a := e.2) he hactive, ite_self]
      have hterminal : isTerminal state = true := by rcases hstate with rfl | rfl <;> rfl
      refine sound_view ((Local.Step.completed state hterminal (m'.Pending (.control o))).sound hs)
        ?_ hphase (by rw [hs']; rfl) id (hreleasing nofun nofun).1 (hremoving nofun nofun) hclearing
      rw [hs', hacts.entryOf_eq]
      exact hmap
    | released stuck =>
      refine sound_view ((Local.Step.artifactsReleased hpending).sound hs) (by rw [hs']; rfl) hphase
        ?_ (hcontrol nofun nofun).2 (fun hp ↦ hp.of_setCall hcalls nofun) ?_ hclearing
      · rw [hs']
        funext id
        exact (RawArtifactStore.artifactOf_releaseExecution m.shared.artifacts o stuck o id).trans
          (if_pos rfl)
      · exact iff_of_true ((pending_setCall_iff hcalls).2 (.inl rfl)) trivial
    | notReleased stuck hstuck =>
      obtain ⟨id, b, hid, hstuck⟩ := hstuck
      have hentry := hcareful.stuck n stuck o id b hevent hlookup hid hstuck
      refine sound_view ((Local.Step.notReleased hpending hentry).sound hs) (by rw [hs']; rfl)
        hphase ?_ (hcontrol nofun nofun).2 (fun hp ↦ hp.of_setCall hcalls nofun)
        (hremoving nofun nofun) hclearing
      rw [hs']
      funext id
      exact (RawArtifactStore.artifactOf_releaseExecution m.shared.artifacts o stuck o id).trans
        (if_pos rfl)
    | entryReleased =>
      refine sound_view ((Local.Step.entryReleased hpending (m'.Pending (.releaseEntry o))).sound hs)
        ?_ hphase (by rw [hs']; rfl) (hcontrol nofun nofun).2 (hreleasing nofun nofun).1 Iff.rfl
        hclearing
      rw [hs']
      rcases releaseForProfile_cases m.shared.coordinator o with ⟨_, -, -, -, -, heq⟩ | ⟨heq, hactive⟩
      · rw [heq]
        exact entryOf_eq_none_of_lookup (AList.lookup_erase _ _)
      · -- an entry that is still there is finished, and would have been removed
        rw [heq]
        by_contra hsome
        obtain ⟨⟨state, a⟩, he⟩ := Option.ne_none_iff_exists'.1 hsome
        have hterminal := hs.terminal (.inr hpending) state a he
        obtain ⟨entry, hentry, hid, hview⟩ := exists_of_entryOf ⟨rfl, rfl⟩ he
        have hprofile : entry.profileId = o.profileId := by
          have hentryDrawn := h.known.entry _ _ hentry
          rw [hid, ho] at hentryDrawn
          exact (congrArg RawArtifactOwner.profileId (Option.some.inj hentryDrawn)).symm
        have hstate : entry.snapshot.state = state := congrArg Prod.fst hview
        have hnot := hactive entry hentry hprofile hid
        rw [hstate, hterminal] at hnot
        cases hnot
  · have hexec : o.executionId ≠ p.executionId := by
      intro heq
      rw [heq, hdrawn] at ho
      exact hne (Option.some.inj ho).symm
    have heffect := hstep.ownEffect
    refine h.sound_of_same ho (entryOf_of_untouched heffect.changes heffect.untouched hexec) (htask _)
      (heffect.artifactOf_of_ne o hne) (fun c hc ↦ hother c ?_ fun hnext ↦ ?_) hclearing
    · rintro rfl
      exact hne (Option.some.inj (hc.symm.trans howner))
    · exact hne (Option.some.inj (hc.symm.trans (hstep.owner_eq hnext)))

/-- A clean-up of a tab or a profile. -/
theorem sound_cleared (h : m.Inv) (hlookup : m.calls.lookup n = some call) (howner : call.owner? = none)
    {owners : RawArtifactOwner → Prop} (hspares : m.Spares owners)
    (hcoordinator : m'.shared.coordinator = m.shared.coordinator)
    (hremoved : ∀ o, owners o → artifactOf m'.shared.artifacts o = fun _ ↦ none)
    (hkept : ∀ o, ¬ owners o → artifactOf m'.shared.artifacts o = artifactOf m.shared.artifacts o)
    (htasks : m'.tasks = m.tasks) (hcalls : m'.calls = setCall m.calls n none)
    (hclears : ∀ o, call = .closeTab o.tabId ∨ call = .disconnect o.profileId → owners o)
    (ho : m.drawn.lookup o.executionId = some o) : (m'.view o).Sound := by
  have hpending (c : Call) (hc : call ≠ c) : m'.Pending c ↔ m.Pending c :=
    ⟨fun hp ↦ hp.of_setCall hcalls nofun, fun hp ↦ hp.setCall hlookup hcalls hc⟩
  have howned (c : Call) (hc : c.owner? = some o) : call ≠ c := by
    rintro rfl
    rw [hc] at howner
    cases howner
  by_cases hmine : owners o
  · have hclean := Local.Step.cleaned (v := m.view o)
      (fun id state a hid he ↦ hspares o id state a hmine hid he) (m'.Clearing o)
    exact sound_view (hclean.sound (h.sound o ho)) (by rw [hcoordinator]; rfl) (by rw [htasks]; rfl)
      (hremoved o hmine) (hpending _ (howned _ rfl)).2 (hpending _ (howned _ rfl)).1
      (hpending _ (howned _ rfl)) id
  · refine h.sound_of_same ho (by rw [hcoordinator]) (by rw [htasks]) (hkept o hmine)
      (fun c hc ↦ hpending c (howned c hc)) fun hc ↦ ?_
    refine hc.mono (fun c hc' ↦ (hpending c ?_).2) fun x _ _ _ hx _ _ ↦ by rw [htasks, hx]
    rintro rfl
    exact hmine (hclears o hc')

/-- **Under the condition, every event keeps the invariant.** -/
theorem step (h : m.Inv) (hcareful : m.Careful event) : (Manager.step event m).Inv := by
  have hstep := step_cases h.known hcareful.below event
  refine ⟨h.known.step hstep, fun o ho ↦ ?_⟩
  generalize Manager.step event m = m' at hstep ho ⊢
  cases hstep with
  | idle => exact h.sound o ho
  | @refused owner _ _ _ _ hfresh =>
    replace ho := (Table.lookup_insert m.drawn owner.executionId o.executionId owner).symm.trans ho
    split_ifs at ho with heq
    · obtain rfl := Option.some.inj ho
      obtain ⟨hentry, -, hartifact, -⟩ := h.known.view_fresh hfresh
      exact Local.sound_of_entry_eq_none hentry fun id b hb ↦ (nomatch (hartifact id).symm.trans hb)
    · exact h.sound o ho
  | @started owner _ _ _ raw hfresh hterminal =>
    replace ho := (Table.lookup_insert m.drawn owner.executionId o.executionId owner).symm.trans ho
    apply h.sound_started hfresh
    · rfl
    · rfl
    · rfl
    · split_ifs at ho with heq
      · exact .inl (Option.some.inj ho).symm
      · exact .inr ⟨heq, ho⟩
  | canceling =>
    exact h.sound_begin (s := m.shared) (h.sound o ho) rfl rfl rfl id
      (fun hr ↦ hr.resolve_left nofun) rfl nofun fun hc ↦ .inr (.inr hc)
  | @releasing owner entry hentry hmatch hterminal =>
    rcases eq_or_ne o owner with rfl | hne
    · refine h.sound_begin (s := m.shared) ((Local.Step.releasing fun state a he ↦ ?_).sound
        (h.sound o ho)) rfl rfl rfl id (fun _ ↦ trivial) rfl nofun fun hc ↦ .inr (.inr hc)
      have hview := (entryOf_of_lookup hentry hmatch.2 (o := o) ⟨rfl, rfl⟩).symm.trans he
      have hstate : entry.snapshot.state = state := congrArg Prod.fst (Option.some.inj hview)
      rwa [hstate] at hterminal
    · refine h.sound_begin (s := m.shared) (h.sound o ho) rfl rfl rfl id (fun hr ↦ hr.resolve_left ?_)
        rfl nofun fun hc ↦ .inr (.inr hc)
      exact fun heq ↦ hne (Call.releaseArtifact.inj heq).symm
  | closed tabId =>
    rcases eq_or_ne o.tabId tabId with htab | htab
    · refine h.sound_begin (Local.Step.taken.sound (h.sound o ho)) ?_ rfl rfl id
        (fun hr ↦ hr.resolve_left nofun) rfl nofun fun _ ↦ .inl (congrArg _ htab.symm)
      exact entryOf_eq_none_of_lookup ((lookup_discardTab _ _ _).trans (if_pos htab))
    · refine h.sound_begin (h.sound o ho) ?_ rfl rfl id (fun hr ↦ hr.resolve_left nofun) rfl nofun
        fun hc ↦ .inr (.inr hc)
      exact entryOf_congr ((lookup_discardTab _ _ _).trans (if_neg htab))
  | disconnected profileId =>
    -- the entry of an execution is registered under its profile
    have hprofile (entry) (hentry : m.shared.coordinator.entries.lookup o.tabId = some entry)
        (hid : entry.snapshot.executionId = o.executionId) : entry.profileId = o.profileId := by
      have hdrawn := h.known.entry _ _ hentry
      rw [hid, show m.drawn.lookup o.executionId = some o from ho] at hdrawn
      exact (congrArg RawArtifactOwner.profileId (Option.some.inj hdrawn)).symm
    have hentries := lookup_discardProfile m.shared.coordinator profileId o.tabId
    rcases eq_or_ne o.profileId profileId with heq | hne
    · refine h.sound_begin (Local.Step.taken.sound (h.sound o ho)) ?_ rfl rfl id
        (fun hr ↦ hr.resolve_left nofun) rfl nofun fun _ ↦ .inr (.inl (congrArg _ heq.symm))
      by_contra hsome
      obtain ⟨e, he⟩ := Option.ne_none_iff_exists'.1 hsome
      obtain ⟨entry, hentry, hid, -⟩ := exists_of_entryOf ⟨rfl, rfl⟩ he
      obtain ⟨hentry, hother⟩ := Option.filter_eq_some_iff.1 (hentries.symm.trans hentry)
      rw [hprofile entry hentry hid, heq] at hother
      simp at hother
    · refine h.sound_begin (h.sound o ho) ?_ rfl rfl id (fun hr ↦ hr.resolve_left nofun) rfl nofun
        fun hc ↦ .inr (.inr hc)
      cases hentry : m.shared.coordinator.entries.lookup o.tabId with
      | none =>
        rw [hentry] at hentries
        exact entryOf_congr (hentries.trans hentry.symm)
      | some entry =>
        rw [hentry] at hentries
        rcases eq_or_ne entry.snapshot.executionId o.executionId with hid | hid
        · rw [Option.filter_some_pos (by simp [hprofile entry hentry hid, hne])] at hentries
          exact entryOf_congr (hentries.trans hentry.symm)
        · -- the tab belongs to another execution
          have hbefore : entryOf m.shared.coordinator o = none := by
            rw [entryOf, registered_eq_none_of_lookup hentry hid]
            rfl
          refine Eq.trans ?_ hbefore.symm
          cases hprofile' : entry.profileId != profileId with
          | false =>
            rw [Option.filter_some_neg (by simp [hprofile'])] at hentries
            exact entryOf_eq_none_of_lookup hentries
          | true =>
            rw [Option.filter_some_pos (by simp [hprofile'])] at hentries
            rw [entryOf, registered_eq_none_of_lookup hentries hid]
            rfl
  | @task x input task hlookup hfresh s next hstep =>
    have hdrawn : m.drawn.lookup o.executionId = some o := by
      replace ho := (lookup_draw _ _ _ _).symm.trans ho
      split_ifs at ho with hmem
      · obtain rfl := Option.some.inj ho
        obtain ⟨rfl, hdrawn⟩ := h.known.owner x task hlookup
        exact hdrawn
      · exact ho
    refine h.sound_task hcareful rfl hlookup hfresh hstep ?_ ?_ ?_ hdrawn <;> rfl
  | call hlookup hstep => refine h.sound_call hcareful rfl hlookup hstep ?_ ?_ ?_ ho <;> rfl
  | waiting input hlookup =>
    refine h.sound_of_same ho rfl rfl rfl (fun c _ ↦ pending_setCall_self hlookup rfl) fun hc ↦ ?_
    exact hc.mono (fun c _ ↦ (pending_setCall_self hlookup rfl).2) fun _ _ _ _ hx _ _ ↦ hx
  | @tabCleared n tabId hlookup stuck =>
    have hartifact (o : RawArtifactOwner) (id : String) :=
      RawArtifactStore.artifactOf_releaseTab m.shared.artifacts tabId stuck o id
    refine h.sound_cleared hlookup rfl (hcareful.closeTab n _ tabId rfl hlookup) ?_ ?_ ?_ ?_ ?_ ?_ ho
    · rfl
    · exact fun o hmine ↦ funext fun id ↦ (hartifact o id).trans (if_pos hmine)
    · exact fun o hmine ↦ funext fun id ↦ (hartifact o id).trans (if_neg hmine)
    · rfl
    · rfl
    rintro o (heq | heq)
    · exact (Call.closeTab.inj heq).symm
    · cases heq
  | @profileCleared n profileId hlookup stuck =>
    have hartifact (o : RawArtifactOwner) (id : String) :=
      RawArtifactStore.artifactOf_releaseProfile m.shared.artifacts profileId stuck o id
    refine h.sound_cleared hlookup rfl (hcareful.disconnect n _ profileId rfl hlookup) ?_ ?_ ?_ ?_ ?_ ?_ ho
    · rfl
    · exact fun o hmine ↦ funext fun id ↦ (hartifact o id).trans (if_pos hmine)
    · exact fun o hmine ↦ funext fun id ↦ (hartifact o id).trans (if_neg hmine)
    · rfl
    · rfl
    rintro o (heq | heq)
    · cases heq
    · exact (Call.disconnect.inj heq).symm

end Inv

/-- **What is left when nothing is in progress.** -/
theorem Inv.clean (h : m.Inv) (hquiet : m.Quiescent) : m.Clean := by
  have hpending (c : Call) : ¬ m.Pending c := by
    rintro ⟨n, hn⟩
    rw [hquiet.2 n] at hn
    cases hn
  have hphase (o : RawArtifactOwner) : (m.view o).phase = none :=
    congrArg (Option.map Task.phase) (hquiet.1 o.executionId)
  have hclearing (o : RawArtifactOwner) : ¬ m.Clearing o := by
    rintro (hp | hp | ⟨x, task, -, -, htask, -⟩)
    · exact hpending _ hp
    · exact hpending _ hp
    · rw [hquiet.1 x] at htask
      cases htask
  have hseen {tabId : String} {entry : ActiveSqlExecution}
      (hentry : m.shared.coordinator.entries.lookup tabId = some entry) :
      (m.view ⟨entry.profileId, tabId, entry.snapshot.executionId⟩).entry =
        some (entryView entry.snapshot) :=
    entryOf_of_lookup hentry rfl ⟨rfl, rfl⟩
  refine ⟨fun tabId entry hentry ↦ ?_, fun id record hrecord ↦ ?_, fun tabId entry id hentry hid ↦ ?_⟩
  · have hs := h.sound ⟨entry.profileId, tabId, entry.snapshot.executionId⟩
      (h.known.entry tabId entry hentry)
    have he := hseen hentry
    rw [entryView] at he
    cases hstate : entry.snapshot.state with
    | queued =>
      rw [hstate] at he
      exact absurd he (hs.queued _)
    | starting =>
      rw [hstate] at he
      obtain ⟨p, hp, -⟩ := hs.starting _ he
      cases (hphase _).symm.trans hp
    | running =>
      rw [hstate] at he
      obtain ⟨p, hp, -⟩ := hs.running _ he
      cases (hphase _).symm.trans hp
    | canceling =>
      rw [hstate] at he
      exact absurd (hs.canceling _ he) (hpending _)
    | succeeded | failed | timedOut | canceled | cancelFailed => rfl
  · have hartifact := (RawArtifactStore.artifactOf_of_lookup hrecord record.owner).trans (if_pos rfl)
    have hdrawn := (h.known.artifact _ _ _ hartifact).2
    have hs := h.sound _ hdrawn
    rcases hs.cause id _ hartifact with ⟨state, he, -⟩ | ⟨p, hp, -⟩ | hc
    · obtain ⟨rfl, -⟩ := hs.named state id he
      obtain ⟨entry, hentry, hexec, hview⟩ := exists_of_entryOf ⟨rfl, rfl⟩ he
      have hentryDrawn := h.known.entry _ _ hentry
      rw [hexec, hdrawn] at hentryDrawn
      refine ⟨entry, hentry, ?_, hexec, congrArg Prod.fst hview, congrArg Prod.snd hview⟩
      exact (congrArg RawArtifactOwner.profileId (Option.some.inj hentryDrawn)).symm
    · cases (hphase _).symm.trans hp
    · exact absurd hc (hclearing _)
  · have hs := h.sound ⟨entry.profileId, tabId, entry.snapshot.executionId⟩
      (h.known.entry tabId entry hentry)
    have he := hseen hentry
    rw [entryView, hid] at he
    rcases hs.kept _ id he with hartifact | hremoving
    · obtain ⟨record, hrecord, howner, hcompleted⟩ :=
        RawArtifactStore.artifactOf_eq_some_iff.1 hartifact
      exact ⟨record, hrecord, hcompleted, howner⟩
    · exact absurd hremoving (hpending _)

theorem inv_empty : ({} : Manager).Inv where
  known := ⟨fun _ _ h ↦ (nomatch h), fun _ _ h ↦ (nomatch h), fun _ _ h ↦ (nomatch h),
    fun _ _ _ h ↦ (nomatch h), fun _ _ _ h ↦ (nomatch h), fun _ _ _ h ↦ (nomatch h), fun _ _ ↦ rfl⟩
  sound := fun _ h ↦ (nomatch h)

end Manager

/-- **Managed executions finish cleanly**, in every run whose events meet the condition. -/
theorem finishesCleanly_of_careful (events : List Event)
    (h : Along Manager.step Manager.Careful {} events) : FinishesCleanly events := by
  have hinv {before after : List Event} (heq : events = before ++ after) :
      (Manager.reach before).Inv := by
    rw [heq] at h
    exact run_invariant (fun m event hm hcareful ↦ Manager.Inv.step hm hcareful) Manager.inv_empty
      (along_append.1 h).1
  refine ⟨fun before after heq hquiet ↦ (hinv heq).clean hquiet, fun before event after heq ↦ ?_⟩
  refine Manager.isolated_of_careful (hinv heq).known ?_
  rw [heq] at h
  exact h.at_event

/-- An empty store and no start that fails. -/
theorem Manager.careful_of_empty {m : Manager} (event : Event)
    (hbelow : ∀ e ∈ m.shared.coordinator.entries.entries, e.2.snapshot.revision < u64Max)
    (hartifacts : m.shared.artifacts.entries = ∅)
    (htasks : ∀ t ∈ m.tasks.entries, t.2.phase ≠ .discard) : m.Careful event := by
  have hnone {o : RawArtifactOwner} {id : String} {b : Bool} :
      artifactOf m.shared.artifacts o id ≠ some b := by
    rw [artifactOf, hartifacts]
    rintro ⟨⟩
  refine ⟨fun tabId entry hentry ↦ hbelow _ (AList.mem_lookup_iff.1 hentry), ?_, ?_, ?_, ?_, ?_⟩
  · exact fun _ _ _ _ _ _ _ _ _ _ _ _ hid ↦ absurd hid hnone
  · exact fun x _ task _ _ htask hphase ↦
      absurd hphase (htasks ⟨x, task⟩ (AList.mem_lookup_iff.1 htask))
  · exact fun _ _ _ _ _ _ _ _ _ _ hid ↦ absurd hid hnone
  · exact fun _ _ _ _ _ _ _ _ _ _ hid ↦ absurd hid hnone
  · exact fun _ _ _ _ _ _ _ hid ↦ absurd hid hnone

/-- An execution that is started and answers. -/
def answeredRun : List Event :=
  let proceed : Event := .task "e" (.proceed 0 fun _ ↦ false)
  [.start ⟨"p", "t", "e"⟩ "q" .command 0 false, proceed, proceed, proceed,
    .task "e" (.answer (.ok (.command .command "done" none false))), proceed, proceed]

theorem finishesCleanly_answeredRun :
    FinishesCleanly answeredRun ∧ (Manager.reach answeredRun).Quiescent := by
  refine ⟨finishesCleanly_of_careful answeredRun ?_, fun _ ↦ rfl, fun _ ↦ rfl⟩
  refine ⟨Manager.careful_of_empty _ (fun _ h ↦ (nomatch h)) rfl fun _ h ↦ (nomatch h), ?_, ?_, ?_, ?_,
    ?_, ?_, trivial⟩
  all_goals
    refine Manager.careful_of_empty _ (by decide) rfl fun t ht ↦ ?_
    cases ht with
    | head => exact nofun
    | tail _ ht => cases ht

/-! ### A release that leaves a result without its artifact -/

/-- A raw result is reported and released, and its file cannot be removed. -/
def stuckRun : List Event :=
  let owner : RawArtifactOwner := ⟨"p", "t", "e"⟩
  let proceed : Event := .task "e" (.proceed 0 fun _ ↦ false)
  [.start owner "q" .read 0 true, proceed, .task "e" (.create true [("a", .created)]), proceed, proceed,
    .task "e" (.finish .text true),
    .task "e" (.answer (.ok (.raw none "text/plain" 0 "" false "a"))), proceed,
    .release owner, .call 0 (.proceed fun _ ↦ true)]

theorem not_finishesCleanly_stuckRun : ¬ FinishesCleanly stuckRun := by
  intro h
  have hclean := h.clean stuckRun [] (List.append_nil _).symm ⟨fun _ ↦ rfl, fun _ ↦ rfl⟩
  obtain ⟨record, hrecord, -⟩ := hclean.stored "t" _ "a" rfl rfl
  cases hrecord

end Execution
