import Mathlib.Data.Finset.Card
import NexusPilot.Tools.Immutable

/-!
# The limit of the calls of a run

A new call of a run is admitted while the stored calls of the run and its reservations stay below the limit.
A call that is admitted keeps its reservation until it returns, and from its first write on it is stored as
well, so a call that executes is counted twice, and so is a call whose identifier is started twice: a new
call may be refused although there is room.

What does hold in every run: the counter of a run is the number of its calls under way that hold a
reservation (`Counted`), so it is zero when nothing is under way; and no more calls reach `tool.execute` than
the limit allows (`Bounded`), since whatever may still execute is stored or reserved when the next call is
admitted. `CarefulLimit` asks that nothing is counted twice where the limit is reached, and then a refusal is
always right. An identifier belongs to one run throughout (`runOf`).
-/

namespace Tools

open Machine

namespace Core

variable {cfg : Config} {s s' : Core} {e : Event} {id runId : String} {key : Nat} {call : Call}
  {runOf : String → String}

/-! ### What is asked of a run -/

/-- A call under way that holds a reservation of the run. -/
def holds (runId : String) (call : Call) : Bool :=
  call.reserved && call.position.live && call.invocation.runId = runId

/-- The identifiers of the stored calls of a run. -/
def storedIds (s : Core) (runId : String) : Finset String :=
  ((s.toolCalls.entries.filter fun entry ↦ entry.2.runId = runId).map (·.1)).toFinset

/-- The identifiers of the calls that hold a reservation of a run. -/
def reservedIds (s : Core) (runId : String) : Finset String :=
  ((s.calls.entries.filter fun entry ↦ holds runId entry.2).map (·.2.toolCallId)).toFinset

/-- The identifiers of the calls of a run that reached `tool.execute`. -/
def executedIds (s : Core) (runId : String) : Finset String :=
  (s.log.filterMap fun
    | .executed id run _ _ _ _ => if run = runId then some id else none
    | _ => none).toFinset

/-- **A refusal is right**: as many other calls of the run as the limit allows are stored or reserved. -/
def RefusesRightly (cfg : Config) (s : Core) (e : Event) : Prop :=
  ∀ id runId, (step cfg e s).log = s.log ++ [.refused id runId] →
    cfg.maxToolCallsPerRun ≤ ((s.storedIds runId ∪ s.reservedIds runId).erase id).card

/-- **The condition.** Where the limit is reached, nothing is counted twice: the calls that hold a
reservation have distinct identifiers, are not stored, and are others than the new one. -/
def CarefulLimit (cfg : Config) (s : Core) : Event → Prop
  | .start _ _ invocation id _ _ =>
    s.toolCalls.lookup id = none → limitReached cfg s invocation.runId = true →
      ((s.calls.entries.filter fun entry ↦ holds invocation.runId entry.2).map
          (·.2.toolCallId)).Nodup ∧
        Disjoint (s.storedIds invocation.runId) (s.reservedIds invocation.runId) ∧
        id ∉ s.reservedIds invocation.runId
  | _ => True

/-- The identifier of every call belongs to its run. -/
def Owned (runOf : String → String) : Event → Prop
  | .start _ _ invocation id _ _ => invocation.runId = runOf id
  | _ => True

/-! ### What is stored -/

/-- A row that may be stored under the identifier. -/
structure FiledRow (runOf : String → String) (id : String) (row : ToolCall) : Prop where
  runId : row.runId = runOf id
  error : row.state = .error → ∃ failure, row.result = some (.error failure)

/-- A call that may be under way: it holds a reservation, or its row is stored. -/
structure FiledCall (runOf : String → String) (rows : Table String ToolCall) (call : Call) : Prop where
  runId : call.invocation.runId = runOf call.toolCallId
  reserved : call.reserved = !call.existing
  stored : call.existing = true → (rows.lookup call.toolCallId).isSome = true

/-- An execution is one of the run of its identifier, and its row is stored. -/
def FiledObservation (runOf : String → String) (rows : Table String ToolCall) : Observation → Prop
  | .executed id runId _ _ _ _ => runId = runOf id ∧ (rows.lookup id).isSome = true
  | _ => True

/-- Rows and calls belong to the run of their identifier, whatever is under way without a reservation is
stored, and so is whatever was executed or has a Permission. -/
structure Filed (runOf : String → String) (s : Core) : Prop where
  rows : ∀ id row, s.toolCalls.lookup id = some row → FiledRow runOf id row
  calls : ∀ key call, s.calls.lookup key = some call → call.position.live = true →
    FiledCall runOf s.toolCalls call
  permissions : ∀ id, (s.permissions.lookup id).isSome = true → (s.toolCalls.lookup id).isSome = true
  log : ∀ o ∈ s.log, FiledObservation runOf s.toolCalls o

/-- The rows after a step. -/
def FiledRows (runOf : String → String) (rows rows' : Table String ToolCall) : Prop :=
  rows' = rows ∨ ∃ id row, FiledRow runOf id row ∧ rows' = rows.insert id row

theorem FiledRows.isSome {rows rows' : Table String ToolCall} (h : FiledRows runOf rows rows')
    (hrow : (rows.lookup id).isSome = true) : (rows'.lookup id).isSome = true := by
  rcases h with rfl | ⟨other, row, -, rfl⟩
  · exact hrow
  · exact Table.isSome_lookup_insert (.inr hrow)

variable {row row' : ToolCall} {state : ToolState} {rows : Table String ToolCall}
  {calls : Table Nat Call} {call' found : Call} {other : String} {permission : Permission}

/-- A row that a call stores belongs to the run of its identifier. -/
theorem Filed.stores (h : Filed runOf s) (hrow : Stores s.toolCalls call state row)
    (hrun : call.invocation.runId = runOf call.toolCallId) :
    row.runId = runOf call.toolCallId := by
  rw [hrow.runId]
  obtain hnone | ⟨old, hold⟩ := Option.eq_none_or_eq_some (s.toolCalls.lookup call.toolCallId)
  · rw [hnone]
    exact hrun
  · rw [hold]
    exact (h.rows _ old hold).runId

theorem Filed.failedRows (h : Filed runOf s) (hrows : FailedRows s.toolCalls call rows)
    (hrun : call.invocation.runId = runOf call.toolCallId) :
    FiledRows runOf s.toolCalls rows := by
  rcases hrows with rfl | ⟨row, hrow, hresult, rfl⟩
  · exact .inl rfl
  · exact .inr ⟨_, row, ⟨h.stores hrow hrun, fun _ ↦ hresult⟩, rfl⟩

theorem Filed.storesRow (h : Filed runOf s) (hrow : Stores s.toolCalls call state row)
    (hrun : call.invocation.runId = runOf call.toolCallId) (hstate : state ≠ .error) :
    FiledRows runOf s.toolCalls (s.toolCalls.insert call.toolCallId row) :=
  .inr ⟨_, row, ⟨h.stores hrow hrun, fun herror ↦ absurd (hrow.state.symm.trans herror) hstate⟩, rfl⟩

/-- The calls after a step. -/
def FiledCalls (runOf : String → String) (rows : Table String ToolCall) (calls calls' : Table Nat Call) :
    Prop :=
  calls' = calls ∨ ∃ key call, (call.position.live = true → FiledCall runOf rows call) ∧
    calls' = calls.insert key call

/-- A call returns. -/
theorem filedCalls_returned {answer : Answer} :
    FiledCalls runOf rows calls (calls.insert key { call with position := .returned answer }) :=
  .inr ⟨key, { call with position := .returned answer }, fun hlive ↦ (nomatch hlive), rfl⟩

/-- A call goes on. -/
theorem FiledCall.goesOn {rows' : Table String ToolCall} (h : FiledCall runOf rows call)
    (hrows : FiledRows runOf rows rows') (hsame : Same call call') :
    FiledCall runOf rows' call' where
  runId := by
    rw [hsame.invocation, hsame.toolCallId]
    exact h.runId
  reserved := by
    rw [hsame.reserved, hsame.existing]
    exact h.reserved
  stored hexisting := by
    rw [hsame.toolCallId]
    exact hrows.isSome (h.stored (hsame.existing ▸ hexisting))

/-- A step that writes allowed rows and calls. -/
theorem Filed.update (h : Filed runOf s) (hrows : FiledRows runOf s.toolCalls s'.toolCalls)
    (hcalls : FiledCalls runOf s'.toolCalls s.calls s'.calls)
    (hpermissions : ∀ id, (s'.permissions.lookup id).isSome = true →
      (s.permissions.lookup id).isSome = true ∨ (s'.toolCalls.lookup id).isSome = true)
    (hlog : ∀ o ∈ s'.log, o ∈ s.log ∨ FiledObservation runOf s'.toolCalls o) : Filed runOf s' where
  rows id row hrow := by
    rcases hrows with heq | ⟨other, row', hrow', heq⟩
    · exact h.rows id row (heq ▸ hrow)
    · rw [heq, Table.lookup_insert] at hrow
      split at hrow
      · next hid =>
        obtain rfl := Option.some.inj hrow
        exact hid ▸ hrow'
      · exact h.rows id row hrow
  calls key call hcall hlive := by
    have hold (hcall : s.calls.lookup key = some call) : FiledCall runOf s'.toolCalls call :=
      (h.calls key call hcall hlive).goesOn hrows (.refl call)
    rcases hcalls with heq | ⟨other, call', hcall', heq⟩
    · exact hold (heq ▸ hcall)
    · rw [heq, Table.lookup_insert] at hcall
      split at hcall
      · obtain rfl := Option.some.inj hcall
        exact hcall' hlive
      · exact hold hcall
  permissions id hpermission := by
    rcases hpermissions id hpermission with hold | hnew
    · exact hrows.isSome (h.permissions id hold)
    · exact hnew
  log o ho := by
    rcases hlog o ho with hold | hnew
    · have hfiled := h.log o hold
      cases o with
      | executed => exact ⟨hfiled.1, hrows.isSome hfiled.2⟩
      | _ => trivial
    · exact hnew

theorem filed_step (h : Filed runOf s) (ho : Owned runOf e) : Filed runOf (step cfg e s) := by
  have hstep := step_cases cfg e s
  revert hstep
  generalize step cfg e s = s'
  intro hstep
  have hlog {log : List Observation} {o : Observation} (hnew : FiledObservation runOf s'.toolCalls o) :
      ∀ o' ∈ log ++ [o], o' ∈ log ∨ FiledObservation runOf s'.toolCalls o' := by
    intro o' ho'
    rw [List.mem_append, List.mem_singleton] at ho'
    rcases ho' with hold | rfl
    · exact .inl hold
    · exact .inr hnew
  cases hstep with
  | idle => exact h
  | refused _ hcall _ _ hrows =>
    refine h.update (h.failedRows hrows ?_) filedCalls_returned (fun _ ↦ .inl) (hlog trivial)
    rw [hcall.invocation_eq, hcall.toolCallId_eq]
    exact ho
  | notStarted _ hid hinvocation _ hrows =>
    refine h.update (h.failedRows hrows ?_) filedCalls_returned (fun _ ↦ .inl) fun _ ↦ .inl
    rw [hinvocation, hid]
    exact ho
  | begins _ hcall _ _ hreserved hexisting =>
    refine h.update (.inl rfl) (.inr ⟨_, _, fun _ ↦ ⟨?_, ?_, ?_⟩, rfl⟩) (fun _ ↦ .inl) fun _ ↦ .inl
    · rw [hcall.invocation_eq, hcall.toolCallId_eq]
      exact ho
    · rw [hreserved, hexisting]
      rfl
    · intro htrue
      cases hexisting.symm.trans htrue
  | continues _ hcall hrow _ _ _ hreserved hexisting =>
    refine h.update (.inl rfl) (.inr ⟨_, _, fun _ ↦ ⟨?_, ?_, ?_⟩, rfl⟩) (fun _ ↦ .inl) fun _ ↦ .inl
    · rw [hcall.invocation_eq, hcall.toolCallId_eq]
      exact ho
    · rw [hreserved, hexisting]
      rfl
    · intro _
      show (s.toolCalls.lookup _).isSome = true
      rw [hcall.toolCallId_eq, hrow]
      rfl
  | replays | answers => exact h.update (.inl rfl) filedCalls_returned (fun _ ↦ .inl) fun _ ↦ .inl
  | waits hcall _ hwaiting hsame =>
    exact h.update (.inl rfl) (.inr ⟨_, _, fun _ ↦
      (h.calls _ _ hcall (live_of_waiting hwaiting)).goesOn (.inl rfl) hsame, rfl⟩) (fun _ ↦ .inl)
      fun _ ↦ .inl
  | prepares hcall _ hposition =>
    refine h.update (.inl rfl) (.inr ⟨_, _, fun _ ↦ ?_, rfl⟩) (fun _ ↦ .inl) fun _ ↦ .inl
    exact (h.calls _ _ hcall (by rw [hposition]; rfl)).goesOn (.inl rfl) (.moves _ _)
  | fails _ hcall hlive _ hrows =>
    exact h.update (h.failedRows hrows (h.calls _ _ hcall hlive).runId) filedCalls_returned (fun _ ↦ .inl)
      fun _ ↦ .inl
  | @requests _ _ call _ _ _ _ _ _ _ _ _ hcall _ hposition _ hrow =>
    have hrun := (h.calls _ _ hcall (by rw [hposition]; rfl)).runId
    refine h.update (h.storesRow hrow hrun (by decide)) filedCalls_returned (fun id hid ↦ ?_)
      (hlog trivial)
    change ((s.permissions.insert call.toolCallId _).lookup id).isSome = true at hid
    rcases eq_or_ne id call.toolCallId with rfl | hne
    · exact .inr (Table.isSome_lookup_insert (.inl rfl))
    · rw [Table.lookup_insert, if_neg hne] at hid
      exact .inl hid
  | executes hcall _ _ hposition hsame _ _ _ hrow =>
    have hfiled := h.calls _ _ hcall (by rw [hposition]; rfl)
    have hrows := h.storesRow hrow hfiled.runId (by decide)
    exact h.update hrows (.inr ⟨_, _, fun _ ↦ hfiled.goesOn hrows hsame, rfl⟩) (fun _ ↦ .inl)
      (hlog ⟨hfiled.runId, Table.isSome_lookup_insert (.inl rfl)⟩)
  | unavailable hcall _ hwaiting hsame _ _ hrow =>
    have hfiled := h.calls _ _ hcall (live_of_waiting hwaiting)
    have hrows := h.storesRow hrow hfiled.runId (by decide)
    exact h.update hrows (.inr ⟨_, _, fun _ ↦ hfiled.goesOn hrows hsame, rfl⟩) (fun _ ↦ .inl) fun _ ↦ .inl
  | settles hcall hposition =>
    refine h.update (.inl rfl) (.inr ⟨_, _, fun _ ↦ ?_, rfl⟩) (fun _ ↦ .inl) fun _ ↦ .inl
    exact (h.calls _ _ hcall (by rw [hposition]; rfl)).goesOn (.inl rfl) (.moves _ _)
  | completes hcall hposition hrow =>
    have hrun := (h.calls _ _ hcall (by rw [hposition]; rfl)).runId
    exact h.update (h.storesRow hrow hrun (by decide)) filedCalls_returned (fun _ ↦ .inl) fun _ ↦ .inl
  | proceeds => exact h.update (.inl rfl) (.inl rfl) (fun _ ↦ .inl) (hlog trivial)
  | background => exact h.update (.inl rfl) (.inl rfl) (fun _ ↦ .inl) fun _ ↦ .inl
  | @approves toolCallId _ _ permission hpermission =>
    refine h.update (.inl rfl) (.inl rfl) (fun id hid ↦ ?_) fun _ ↦ .inl
    change ((s.permissions.insert toolCallId _).lookup id).isSome = true at hid
    rcases eq_or_ne id toolCallId with rfl | hne
    · exact .inl (by rw [hpermission]; rfl)
    · rw [Table.lookup_insert, if_neg hne] at hid
      exact .inl hid
  | @denies toolCallId _ _ permission row _ hpermission hrow _ _ hrunId hresult =>
    refine h.update (.inr ⟨toolCallId, _, ⟨?_, fun _ ↦ hresult⟩, rfl⟩) (.inl rfl) (fun id hid ↦ ?_) fun _ ↦ .inl
    · rw [hrunId]
      exact (h.rows _ row hrow).runId
    · change ((s.permissions.insert toolCallId _).lookup id).isSome = true at hid
      rcases eq_or_ne id toolCallId with rfl | hne
      · exact .inl (by rw [hpermission]; rfl)
      · rw [Table.lookup_insert, if_neg hne] at hid
        exact .inl hid

theorem filed_empty (runOf : String → String) : Filed runOf {} where
  rows _ _ h := nomatch h
  calls _ _ h := nomatch h
  permissions _ h := nomatch h
  log _ h := nomatch h

/-! ### Permissions that are asked for once -/

/-- A call that waits for a Permission has one, and so has every dispatch that continues it. -/
structure Asked (s : Core) : Prop where
  rows : ∀ id row, s.toolCalls.lookup id = some row → row.state = .waitingForPermission →
    (s.permissions.lookup id).isSome = true
  calls : ∀ key call, s.calls.lookup key = some call → call.position.live = true →
    call.kind = .dispatch → call.existing = true → (s.permissions.lookup call.toolCallId).isSome = true

theorem Asked.update (h : Asked s)
    (hpermissions : ∀ id, (s.permissions.lookup id).isSome = true →
      (s'.permissions.lookup id).isSome = true)
    (hrows : ∀ id row, s'.toolCalls.lookup id = some row → row.state = .waitingForPermission →
      s.toolCalls.lookup id = some row ∨ (s'.permissions.lookup id).isSome = true)
    (hcalls : ∀ key call, s'.calls.lookup key = some call → call.position.live = true →
      call.kind = .dispatch → call.existing = true →
      (∃ old, s.calls.lookup key = some old ∧ old.position.live = true ∧ Same old call) ∨
        (s.permissions.lookup call.toolCallId).isSome = true) : Asked s' where
  rows id row hrow hstate := by
    rcases hrows id row hrow hstate with hold | hnew
    · exact hpermissions id (h.rows id row hold hstate)
    · exact hnew
  calls key call hcall hlive hkind hexisting := by
    refine hpermissions _ ?_
    rcases hcalls key call hcall hlive hkind hexisting with ⟨old, hold, holive, hsame⟩ | hnew
    · rw [hsame.toolCallId]
      exact h.calls key old hold holive (hsame.kind ▸ hkind) (hsame.existing ▸ hexisting)
    · exact hnew

/-- A row that does not wait for a Permission. -/
theorem waiting_of_insert (hstate' : row'.state ≠ .waitingForPermission)
    (h : (rows.insert other row').lookup id = some row) (hstate : row.state = .waitingForPermission) :
    rows.lookup id = some row := by
  rw [Table.lookup_insert] at h
  split at h
  · rw [Option.some.inj h] at hstate'
    exact absurd hstate hstate'
  · exact h

theorem waiting_of_failedRows (hrows : FailedRows s.toolCalls call rows) (h : rows.lookup id = some row)
    (hstate : row.state = .waitingForPermission) : s.toolCalls.lookup id = some row := by
  rcases hrows with rfl | ⟨row', hrow', -, rfl⟩
  · exact h
  · exact waiting_of_insert (by rw [hrow'.state]; decide) h hstate

/-- A call that goes on, or returns, is the one that there was. -/
theorem same_of_insert {other : Nat} (hcall : calls.lookup key = some call)
    (hlive : call.position.live = true) (hsame : call'.position.live = true → Same call call')
    (h : (calls.insert key call').lookup other = some found) (hflive : found.position.live = true) :
    ∃ old, calls.lookup other = some old ∧ old.position.live = true ∧ Same old found := by
  rw [Table.lookup_insert] at h
  split at h
  · next heq =>
    obtain rfl := Option.some.inj h
    exact ⟨call, heq ▸ hcall, hlive, hsame hflive⟩
  · exact ⟨found, h, hflive, .refl found⟩

/-- A call that is under way, when another one ended at once. -/
theorem same_of_ended {other : Nat} (hdone : call'.position.live = false)
    (h : (calls.insert key call').lookup other = some found) (hflive : found.position.live = true) :
    ∃ old, calls.lookup other = some old ∧ old.position.live = true ∧ Same old found := by
  rw [Table.lookup_insert] at h
  split at h
  · rw [← Option.some.inj h, hdone] at hflive
    cases hflive
  · exact ⟨found, h, hflive, .refl found⟩

theorem asked_step (h : Asked s) : Asked (step cfg e s) := by
  have hstep := step_cases cfg e s
  revert hstep
  generalize step cfg e s = s'
  intro hstep
  have hkept {id : String} {row : ToolCall} {p : Prop} (hrow : s.toolCalls.lookup id = some row) :
      row.state = .waitingForPermission → s.toolCalls.lookup id = some row ∨ p :=
    fun _ ↦ .inl hrow
  have hinsert {id other : String} {permission : Permission}
      (hold : (s.permissions.lookup id).isSome = true) :
      ((s.permissions.insert other permission).lookup id).isSome = true := by
    rw [Table.lookup_insert]
    split
    · rfl
    · exact hold
  cases hstep with
  | idle => exact h
  | refused _ _ _ _ hrows | notStarted _ _ _ _ hrows | fails _ _ _ _ hrows =>
    exact h.update (fun _ hold ↦ hold) (fun _ _ hrow hstate ↦ .inl (waiting_of_failedRows hrows hrow hstate))
      fun _ _ hcall hlive _ _ ↦ .inl (same_of_ended rfl hcall hlive)
  | @begins key _ _ _ _ _ call _ _ _ _ _ _ _ hexisting =>
    refine h.update (fun _ hold ↦ hold) (fun _ _ hrow ↦ hkept hrow) fun other found hcall hlive _ hfound ↦ .inl ?_
    change (s.calls.insert key call).lookup other = some found at hcall
    rw [Table.lookup_insert] at hcall
    split at hcall
    · rw [← Option.some.inj hcall, hexisting] at hfound
      cases hfound
    · exact ⟨found, hcall, hlive, .refl found⟩
  | @continues key _ _ _ _ _ call _ _ row _ hbrought hrow _ hdispatch =>
    refine h.update (fun _ hold ↦ hold) (fun _ _ hrow ↦ hkept hrow) fun other found hcall hlive hkind _ ↦ ?_
    change (s.calls.insert key call).lookup other = some found at hcall
    rw [Table.lookup_insert] at hcall
    split at hcall
    · obtain rfl := Option.some.inj hcall
      rw [hbrought.toolCallId_eq]
      exact .inr (h.rows _ row hrow (hdispatch (hbrought.kind_eq ▸ hkind)))
    · exact .inl ⟨found, hcall, hlive, .refl found⟩
  | replays | answers =>
    exact h.update (fun _ hold ↦ hold) (fun _ _ hrow ↦ hkept hrow)
      fun _ _ hcall hlive _ _ ↦ .inl (same_of_ended rfl hcall hlive)
  | waits hcall _ hwaiting hsame =>
    exact h.update (fun _ hold ↦ hold) (fun _ _ hrow ↦ hkept hrow) fun _ _ hfound hlive _ _ ↦
      .inl (same_of_insert hcall (live_of_waiting hwaiting) (fun _ ↦ hsame) hfound hlive)
  | prepares hcall _ hposition =>
    refine h.update (fun _ hold ↦ hold) (fun _ _ hrow ↦ hkept hrow) fun _ _ hfound hlive _ _ ↦ .inl ?_
    exact same_of_insert hcall (by rw [hposition]; rfl) (fun _ ↦ .moves _ _) hfound hlive
  | @requests _ _ call =>
    refine h.update (fun _ ↦ hinsert) (fun id row hrow hstate ↦ ?_)
      fun _ _ hcall hlive _ _ ↦ .inl (same_of_ended rfl hcall hlive)
    change (s.toolCalls.insert call.toolCallId _).lookup id = some row at hrow
    show _ ∨ ((s.permissions.insert call.toolCallId _).lookup id).isSome = true
    rw [Table.lookup_insert] at hrow ⊢
    split at hrow
    · next heq =>
      rw [if_pos heq]
      exact .inr rfl
    · exact .inl hrow
  | executes hcall _ _ hposition hsame _ _ _ hrow =>
    exact h.update (fun _ hold ↦ hold)
      (fun _ _ hfound hstate ↦ .inl (waiting_of_insert (by rw [hrow.state]; decide) hfound hstate))
      fun _ _ hfound hlive _ _ ↦
        .inl (same_of_insert hcall (by rw [hposition]; rfl) (fun _ ↦ hsame) hfound hlive)
  | unavailable hcall _ hwaiting hsame _ _ hrow =>
    exact h.update (fun _ hold ↦ hold)
      (fun _ _ hfound hstate ↦ .inl (waiting_of_insert (by rw [hrow.state]; decide) hfound hstate))
      fun _ _ hfound hlive _ _ ↦
        .inl (same_of_insert hcall (live_of_waiting hwaiting) (fun _ ↦ hsame) hfound hlive)
  | settles hcall hposition =>
    refine h.update (fun _ hold ↦ hold) (fun _ _ hrow ↦ hkept hrow) fun _ _ hfound hlive _ _ ↦ .inl ?_
    exact same_of_insert hcall (by rw [hposition]; rfl) (fun _ ↦ .moves _ _) hfound hlive
  | completes _ _ hrow =>
    exact h.update (fun _ hold ↦ hold)
      (fun _ _ hfound hstate ↦ .inl (waiting_of_insert (by rw [hrow.state]; decide) hfound hstate))
      fun _ _ hcall hlive _ _ ↦ .inl (same_of_ended rfl hcall hlive)
  | proceeds | background =>
    exact h.update (fun _ hold ↦ hold) (fun _ _ hrow ↦ hkept hrow)
      fun _ found hcall hlive _ _ ↦ .inl ⟨found, hcall, hlive, .refl found⟩
  | approves =>
    exact h.update (fun _ ↦ hinsert) (fun _ _ hrow ↦ hkept hrow)
      fun _ found hcall hlive _ _ ↦ .inl ⟨found, hcall, hlive, .refl found⟩
  | denies _ _ _ hrow' =>
    exact h.update (fun _ ↦ hinsert)
      (fun _ _ hfound hstate ↦ .inl (waiting_of_insert (by rw [hrow']; decide) hfound hstate))
      fun _ found hcall hlive _ _ ↦ .inl ⟨found, hcall, hlive, .refl found⟩

theorem asked_empty : Asked {} where
  rows _ _ h := nomatch h
  calls _ _ h := nomatch h

/-! ### The counter -/

/-- **The counter of a run** is the number of its calls that hold a reservation. -/
def Counted (s : Core) : Prop :=
  ∀ runId, s.inFlight runId = s.calls.count (holds runId)

theorem holds_of_live (hlive : call.position.live = true) :
    holds runId call = (call.reserved && decide (call.invocation.runId = runId)) := by
  rw [holds, hlive, Bool.and_true]

theorem holds_of_not_live (hlive : call.position.live = false) : holds runId call = false := by
  rw [holds, hlive, Bool.and_false, Bool.false_and]

/-- A call that goes on keeps its reservation. -/
theorem count_goesOn (hcall : s.calls.lookup key = some call) (hlive : call.position.live = true)
    (hsame : Same call call') (hlive' : call'.position.live = true) :
    Table.count (s.calls.insert key call') (holds runId) = s.calls.count (holds runId) := by
  have hcount : Table.count (s.calls.insert key call') (holds runId) + (if holds runId call then 1 else 0) =
      s.calls.count (holds runId) + if holds runId call' then 1 else 0 :=
    Table.count_insert_of_eq_some hcall
  have hholds : holds runId call' = holds runId call := by
    rw [holds_of_live hlive', holds_of_live hlive, hsame.reserved, hsame.invocation]
  rw [hholds] at hcount
  omega

/-- A call that returns does not hold a reservation any more. -/
theorem count_returns (hcall : s.calls.lookup key = some call) (hlive : call.position.live = true)
    (hdone : call'.position.live = false) :
    Table.count (s.calls.insert key call') (holds runId) =
      s.calls.count (holds runId) -
        if call.reserved = true ∧ call.invocation.runId = runId then 1 else 0 := by
  have hcount : Table.count (s.calls.insert key call') (holds runId) + (if holds runId call then 1 else 0) =
      s.calls.count (holds runId) + if holds runId call' then 1 else 0 :=
    Table.count_insert_of_eq_some hcall
  rw [holds_of_not_live hdone, holds_of_live hlive] at hcount
  simp only [Bool.and_eq_true, decide_eq_true_eq, Bool.false_eq_true, if_false] at hcount
  omega

/-- A call that ends at once does not hold a reservation. -/
theorem count_ended (hkey : s.calls.lookup key = none) (hdone : call'.position.live = false) :
    Table.count (s.calls.insert key call') (holds runId) = s.calls.count (holds runId) := by
  rw [Table.count_insert_of_eq_none hkey, holds_of_not_live hdone]
  rfl

theorem counted_step (h : Counted s) (hasked : Asked s) (hfiled : Filed runOf s) :
    Counted (step cfg e s) := by
  have hstep := step_cases cfg e s
  revert hstep
  generalize step cfg e s = s'
  intro hstep runId
  have hrun := h runId
  have hreleased {key : Nat} {call call' : Call} (hcall : s.calls.lookup key = some call)
      (hlive : call.position.live = true) (hdone : call'.position.live = false) :
      ((s.released call).lookup runId).getD 0 = Table.count (s.calls.insert key call') (holds runId) := by
    rw [count_returns hcall hlive hdone, inFlight_released, hrun]
  cases hstep with
  | idle | proceeds | background | approves | denies => exact hrun
  | refused hkey | replays hkey => exact hrun.trans (count_ended hkey rfl).symm
  | notStarted hkey _ _ hcounters =>
    exact (hcounters runId).trans (hrun.trans (count_ended hkey rfl).symm)
  | @begins key _ invocation _ _ _ call _ _ hkey hbrought _ _ hreserved _ hwaiting =>
    show (s.reserveToolCall invocation.runId).inFlight runId = Table.count (s.calls.insert key call) (holds runId)
    rw [Table.count_insert_of_eq_none hkey, holds_of_live (live_of_waiting hwaiting), hreserved,
      hbrought.invocation_eq, ← hrun]
    simp only [reserveToolCall, inFlight, Table.lookup_insert, Bool.true_and, decide_eq_true_eq,
      @eq_comm _ runId]
    split
    · next heq =>
      rw [heq]
      rfl
    · rfl
  | @continues key _ _ _ _ _ call _ _ _ hkey _ _ _ _ _ hreserved =>
    show s.inFlight runId = Table.count (s.calls.insert key call) (holds runId)
    rw [Table.count_insert_of_eq_none hkey, holds, hreserved]
    exact hrun
  | waits hcall _ hwaiting hsame hwaiting' =>
    exact hrun.trans (count_goesOn hcall (live_of_waiting hwaiting) hsame (live_of_waiting hwaiting')).symm
  | prepares hcall _ hposition =>
    exact hrun.trans
      (count_goesOn hcall (by rw [hposition]; rfl) (.moves _ _) rfl).symm
  | fails _ hcall hlive => exact hreleased hcall hlive rfl
  | answers hcall hlive => exact hreleased hcall hlive rfl
  | @requests _ key call _ _ _ _ _ _ _ _ _ hcall _ hposition hpermission _ _ _ _ _ _ hcounters =>
    have hlive : call.position.live = true := by
      rw [hposition]
      rfl
    rcases hcounters with rfl | ⟨rfl, hkind⟩
    · exact hreleased hcall hlive rfl
    · -- a dispatch that asks is a new call, so there is a reservation to give back
      have hexisting : call.existing = false := by
        rw [← Bool.not_eq_true]
        intro hexisting
        have hsome := hasked.calls key call hcall hlive hkind hexisting
        rw [hpermission] at hsome
        cases hsome
      have hreserved : call.reserved = true := by
        rw [(hfiled.calls key call hcall hlive).reserved, hexisting]
        rfl
      have heq : (s.releaseToolCall call.invocation.runId).inFlightByRun = s.released call := by
        rw [released, releaseReserved, if_pos hreserved]
      rw [heq]
      exact hreleased hcall hlive rfl
  | executes hcall _ _ hposition hsame hposition' =>
    exact hrun.trans
      (count_goesOn hcall (by rw [hposition]; rfl) hsame (by rw [hposition']; rfl)).symm
  | unavailable hcall _ hwaiting hsame hlive =>
    exact hrun.trans (count_goesOn hcall (live_of_waiting hwaiting) hsame hlive).symm
  | settles hcall hposition =>
    exact hrun.trans
      (count_goesOn hcall (by rw [hposition]; rfl) (.moves _ _) rfl).symm
  | completes hcall hposition => exact hreleased hcall (by rw [hposition]; rfl) rfl

theorem counted_empty : Counted {} :=
  fun _ ↦ rfl

/-! ### The limit -/

/-- What may still be executed of an identifier, or was: it has a Permission, a call under way, or a row that
does not say that it failed. -/
structure Alive (s : Core) (id : String) : Prop where
  alive : (∃ o ∈ s.log, o.executes id = true) ∨ (s.permissions.lookup id).isSome = true ∨
    (∃ key, LiveAt s.calls id key) ∨ ∃ row, s.toolCalls.lookup id = some row ∧ row.state ≠ .error

/-- **The limit holds.** What may be executed of a run is among as many identifiers as the limit allows. -/
def Bounded (cfg : Config) (runOf : String → String) (s : Core) : Prop :=
  ∀ runId, ∃ ids : Finset String, ids.card ≤ cfg.maxToolCallsPerRun ∧
    ∀ id, runOf id = runId → s.Alive id → id ∈ ids

theorem alive_of_call (hcall : s.calls.lookup key = some call) (hlive : call.position.live = true) :
    s.Alive call.toolCallId :=
  ⟨.inr (.inr (.inl ⟨key, call, hcall, rfl, hlive⟩))⟩

theorem alive_of_permission (h : s.permissions.lookup id = some permission) :
    s.Alive id :=
  ⟨.inr (.inl (by rw [h]; rfl))⟩

theorem alive_of_row (h : s.toolCalls.lookup id = some row) (hstate : row.state ≠ .error) :
    s.Alive id :=
  ⟨.inr (.inr (.inr ⟨row, h, hstate⟩))⟩

/-- What is alive after a step, part by part. -/
theorem alive_of_step (hlog : ∀ o ∈ s'.log, o.executes id = true → o ∈ s.log ∨ s.Alive id)
    (hpermissions : (s'.permissions.lookup id).isSome = true →
      (s.permissions.lookup id).isSome = true ∨ s.Alive id)
    (hcalls : ∀ key, LiveAt s'.calls id key → LiveAt s.calls id key ∨ s.Alive id)
    (hrows : ∀ row, s'.toolCalls.lookup id = some row → row.state ≠ .error →
      s.toolCalls.lookup id = some row ∨ s.Alive id) (h : s'.Alive id) : s.Alive id := by
  rcases h.alive with ⟨o, ho, hexecutes⟩ | hpermission | ⟨key, hlive⟩ | ⟨row, hrow, hstate⟩
  · rcases hlog o ho hexecutes with hold | halive
    · exact ⟨.inl ⟨o, hold, hexecutes⟩⟩
    · exact halive
  · rcases hpermissions hpermission with hold | halive
    · exact ⟨.inr (.inl hold)⟩
    · exact halive
  · rcases hcalls key hlive with hold | halive
    · exact ⟨.inr (.inr (.inl ⟨key, hold⟩))⟩
    · exact halive
  · rcases hrows row hrow hstate with hold | halive
    · exact alive_of_row hold hstate
    · exact halive

theorem alive_of_failedRows (hrows : FailedRows s.toolCalls call rows) (h : rows.lookup id = some row)
    (hstate : row.state ≠ .error) :
    s.toolCalls.lookup id = some row := by
  rcases hrows with rfl | ⟨row', hrow', -, rfl⟩
  · exact h
  · rw [Table.lookup_insert] at h
    split at h
    · rw [← Option.some.inj h] at hstate
      exact absurd hrow'.state hstate
    · exact h

/-- A row that is written for something alive. -/
theorem alive_of_insertRow (halive : s.Alive other) (h : (s.toolCalls.insert other row').lookup id = some row) :
    s.toolCalls.lookup id = some row ∨ s.Alive id := by
  rw [Table.lookup_insert] at h
  split at h
  · next heq => exact .inr (heq ▸ halive)
  · exact .inl h

/-- A Permission that is written for something alive. -/
theorem alive_of_insertPermission (halive : s.Alive other)
    (h : ((s.permissions.insert other permission).lookup id).isSome = true) :
    (s.permissions.lookup id).isSome = true ∨ s.Alive id := by
  rw [Table.lookup_insert] at h
  split at h
  · next heq => exact .inr (heq ▸ halive)
  · exact .inl h

/-- A call that is written for something alive. -/
theorem alive_of_insertCall {other : Nat} (halive : s.Alive call.toolCallId)
    (hid : call'.toolCallId = call.toolCallId) (h : LiveAt (s.calls.insert key call') id other) :
    LiveAt s.calls id other ∨ s.Alive id := by
  rw [LiveAt, callAt_insert, hid] at h
  split at h
  · exact .inr (h.1 ▸ halive)
  · exact .inl h

/-- An observation that is no execution. -/
theorem mem_of_append {log : List Observation} {o o' : Observation} (hnot : o'.executes id = false)
    (h : o ∈ log ++ [o']) (hexecutes : o.executes id = true) : o ∈ log := by
  rw [List.mem_append, List.mem_singleton] at h
  refine h.resolve_right fun heq ↦ ?_
  rw [heq, hnot] at hexecutes
  cases hexecutes

/-- **Only a call that the limit admits becomes alive.** -/
theorem alive_or_begins (hfiled : Filed runOf s) (ho : Owned runOf e) :
    (∀ id, (step cfg e s).Alive id → s.Alive id) ∨
      ∃ new, limitReached cfg s (runOf new) = false ∧
        ∀ id, (step cfg e s).Alive id → id = new ∨ s.Alive id := by
  have hstep := step_cases cfg e s
  revert hstep
  generalize step cfg e s = s'
  intro hstep
  cases hstep with
  | idle => exact .inl fun _ h ↦ h
  | refused _ _ _ _ hrows =>
    exact .inl fun id ↦ alive_of_step (fun o ho' hex ↦ .inl (mem_of_append rfl ho' hex)) .inl
      (fun _ hlive ↦ .inl (callAt_of_insert rfl hlive))
      fun _ hrow hstate ↦ .inl (alive_of_failedRows hrows hrow hstate)
  | notStarted _ _ _ _ hrows | fails _ _ _ _ hrows =>
    exact .inl fun id ↦ alive_of_step (fun _ ho' _ ↦ .inl ho') .inl
      (fun _ hlive ↦ .inl (callAt_of_insert rfl hlive))
      fun _ hrow hstate ↦ .inl (alive_of_failedRows hrows hrow hstate)
  | @begins key _ _ toolCallId _ _ call _ _ _ hbrought _ hlimit =>
    refine .inr ⟨toolCallId, by rwa [← show _ = runOf toolCallId from ho], fun id h ↦ ?_⟩
    rcases eq_or_ne id toolCallId with heq | hne
    · exact .inl heq
    · refine .inr (alive_of_step ?_ ?_ ?_ ?_ h)
      · exact fun _ ho' _ ↦ .inl ho'
      · exact .inl
      · intro other hlive
        refine .inl ?_
        change LiveAt (s.calls.insert key call) id other at hlive
        rw [LiveAt, callAt_insert, hbrought.toolCallId_eq] at hlive
        split at hlive
        · exact absurd hlive.1.symm hne
        · exact hlive
      · exact fun _ hrow _ ↦ .inl hrow
  | @continues _ kind _ toolCallId _ _ _ _ _ row _ hbrought hrow _ hdispatch hauthorize =>
    have hstate : row.state ≠ .error := by
      intro herror
      cases kind with
      | dispatch => cases (hdispatch rfl).symm.trans herror
      | authorize =>
        obtain ⟨failure, hfailure⟩ := (hfiled.rows toolCallId row hrow).error herror
        exact hauthorize rfl herror failure hfailure
    have halive := alive_of_row hrow hstate
    rw [← hbrought.toolCallId_eq] at halive
    exact .inl fun id ↦ alive_of_step (fun _ ho' _ ↦ .inl ho') .inl
      (fun _ hlive ↦ alive_of_insertCall halive (Same.moves _ _).toolCallId hlive) fun _ hrow _ ↦ .inl hrow
  | replays | answers =>
    exact .inl fun id ↦ alive_of_step (fun _ ho' _ ↦ .inl ho') .inl
      (fun _ hlive ↦ .inl (callAt_of_insert rfl hlive)) fun _ hrow _ ↦ .inl hrow
  | waits hcall _ hwaiting hsame =>
    have halive := alive_of_call hcall (live_of_waiting hwaiting)
    exact .inl fun id ↦ alive_of_step (fun _ ho' _ ↦ .inl ho') .inl
      (fun _ hlive ↦ alive_of_insertCall halive hsame.toolCallId hlive) fun _ hrow _ ↦ .inl hrow
  | prepares hcall _ hposition =>
    have halive := alive_of_call hcall (by rw [hposition]; rfl)
    exact .inl fun id ↦ alive_of_step (fun _ ho' _ ↦ .inl ho') .inl
      (fun _ hlive ↦ alive_of_insertCall halive (Same.moves _ _).toolCallId hlive) fun _ hrow _ ↦ .inl hrow
  | requests _ hcall _ hposition =>
    have halive := alive_of_call hcall (by rw [hposition]; rfl)
    exact .inl fun id ↦ alive_of_step (fun o ho' hex ↦ .inl (mem_of_append rfl ho' hex))
      (fun hpermission ↦ alive_of_insertPermission halive hpermission)
      (fun _ hlive ↦ .inl (callAt_of_insert rfl hlive)) fun _ hrow _ ↦ alive_of_insertRow halive hrow
  | executes hcall _ _ hposition hsame =>
    have halive := alive_of_call hcall (by rw [hposition]; rfl)
    refine .inl fun id ↦ alive_of_step (fun o ho' hex ↦ ?_) .inl
      (fun _ hlive ↦ alive_of_insertCall halive hsame.toolCallId hlive)
      fun _ hrow _ ↦ alive_of_insertRow halive hrow
    rw [List.mem_append, List.mem_singleton] at ho'
    refine ho'.imp_right fun heq ↦ ?_
    rw [heq] at hex
    exact of_decide_eq_true hex ▸ halive
  | unavailable hcall _ hwaiting hsame =>
    have halive := alive_of_call hcall (live_of_waiting hwaiting)
    exact .inl fun id ↦ alive_of_step (fun _ ho' _ ↦ .inl ho') .inl
      (fun _ hlive ↦ alive_of_insertCall halive hsame.toolCallId hlive)
      fun _ hrow _ ↦ alive_of_insertRow halive hrow
  | settles hcall hposition =>
    have halive := alive_of_call hcall (by rw [hposition]; rfl)
    exact .inl fun id ↦ alive_of_step (fun _ ho' _ ↦ .inl ho') .inl
      (fun _ hlive ↦ alive_of_insertCall halive (Same.moves _ _).toolCallId hlive) fun _ hrow _ ↦ .inl hrow
  | completes hcall hposition =>
    have halive := alive_of_call hcall (by rw [hposition]; rfl)
    exact .inl fun id ↦ alive_of_step (fun _ ho' _ ↦ .inl ho') .inl
      (fun _ hlive ↦ .inl (callAt_of_insert rfl hlive)) fun _ hrow _ ↦ alive_of_insertRow halive hrow
  | proceeds =>
    exact .inl fun id ↦ alive_of_step (fun o ho' hex ↦ .inl (mem_of_append rfl ho' hex)) .inl
      (fun _ hlive ↦ .inl hlive) fun _ hrow _ ↦ .inl hrow
  | background =>
    exact .inl fun id ↦ alive_of_step (fun _ ho' _ ↦ .inl ho') .inl (fun _ hlive ↦ .inl hlive)
      fun _ hrow _ ↦ .inl hrow
  | approves hpermission =>
    have halive := alive_of_permission hpermission
    exact .inl fun id ↦ alive_of_step (fun _ ho' _ ↦ .inl ho')
      (fun hpermission' ↦ alive_of_insertPermission halive hpermission') (fun _ hlive ↦ .inl hlive)
      fun _ hrow _ ↦ .inl hrow
  | denies hpermission =>
    have halive := alive_of_permission hpermission
    exact .inl fun id ↦ alive_of_step (fun _ ho' _ ↦ .inl ho')
      (fun hpermission' ↦ alive_of_insertPermission halive hpermission') (fun _ hlive ↦ .inl hlive)
      fun _ hrow _ ↦ alive_of_insertRow halive hrow

theorem mem_storedIds (h : s.toolCalls.lookup id = some row) :
    id ∈ s.storedIds row.runId := by
  rw [storedIds, List.mem_toFinset, List.mem_map]
  exact ⟨⟨id, row⟩, List.mem_filter.2 ⟨AList.mem_lookup_iff.1 h, decide_eq_true rfl⟩, rfl⟩

theorem mem_reservedIds (hcall : s.calls.lookup key = some call) (hholds : holds runId call = true) :
    call.toolCallId ∈ s.reservedIds runId := by
  rw [reservedIds, List.mem_toFinset, List.mem_map]
  exact ⟨⟨key, call⟩, List.mem_filter.2 ⟨AList.mem_lookup_iff.1 hcall, hholds⟩, rfl⟩

/-- **What is alive is counted.** -/
theorem mem_of_alive (h : Filed runOf s) (halive : s.Alive id) :
    id ∈ s.storedIds (runOf id) ∪ s.reservedIds (runOf id) := by
  rw [Finset.mem_union]
  have hstored (hsome : (s.toolCalls.lookup id).isSome = true) : id ∈ s.storedIds (runOf id) := by
    obtain ⟨row, hrow⟩ := Option.isSome_iff_exists.1 hsome
    exact (h.rows id row hrow).runId ▸ mem_storedIds hrow
  rcases halive.alive with ⟨o, ho, hexecutes⟩ | hpermission | ⟨key, call, hcall, rfl, hlive⟩ | ⟨row, hrow, -⟩
  · have hfiled := h.log o ho
    cases o with
    | executed => exact .inl (hstored (of_decide_eq_true hexecutes ▸ hfiled.2))
    | _ => cases hexecutes
  · exact .inl (hstored (h.permissions id hpermission))
  · have hfiled := h.calls key call hcall hlive
    rcases eq_or_ne call.existing true with hexisting | hnew
    · exact .inl (hstored (hfiled.stored hexisting))
    · refine .inr (mem_reservedIds hcall ?_)
      rw [holds_of_live hlive, hfiled.reserved, Bool.eq_false_of_not_eq_true hnew, hfiled.runId]
      simp
  · exact .inl (hstored (by rw [hrow]; rfl))

theorem length_stored (s : Core) (runId : String) :
    ((s.toolCalls.entries.filter fun entry ↦ entry.2.runId = runId).map (·.1)).length =
      s.countToolCallsByRun runId := by
  rw [List.length_map, ← List.countP_eq_length_filter]
  rfl

theorem length_reserved (s : Core) (runId : String) :
    ((s.calls.entries.filter fun entry ↦ holds runId entry.2).map (·.2.toolCallId)).length =
      s.calls.count (holds runId) := by
  rw [List.length_map, ← List.countP_eq_length_filter]
  rfl

theorem bounded_step (h : Bounded cfg runOf s) (hfiled : Filed runOf s) (hcounted : Counted s)
    (ho : Owned runOf e) : Bounded cfg runOf (step cfg e s) := by
  intro runId
  obtain ⟨ids, hcard, hids⟩ := h runId
  rcases alive_or_begins hfiled ho with hkept | ⟨new, hlimit, hkept⟩
  · exact ⟨ids, hcard, fun id hid halive ↦ hids id hid (hkept id halive)⟩
  · rcases eq_or_ne (runOf new) runId with rfl | hne
    · refine ⟨insert new (s.storedIds (runOf new) ∪ s.reservedIds (runOf new)), ?_, ?_⟩
      · have hstored : (s.storedIds (runOf new)).card ≤ s.countToolCallsByRun (runOf new) :=
          (List.toFinset_card_le _).trans_eq (length_stored s _)
        have hreserved : (s.reservedIds (runOf new)).card ≤ s.inFlight (runOf new) :=
          (List.toFinset_card_le _).trans_eq ((length_reserved s _).trans (hcounted _).symm)
        have hroom : s.countToolCallsByRun (runOf new) + s.inFlight (runOf new) <
            cfg.maxToolCallsPerRun := by
          rw [limitReached, decide_eq_false_iff_not] at hlimit
          omega
        have hunion := Finset.card_union_le (s.storedIds (runOf new)) (s.reservedIds (runOf new))
        have hinsert := Finset.card_insert_le new (s.storedIds (runOf new) ∪ s.reservedIds (runOf new))
        omega
      · intro id hid halive
        rw [Finset.mem_insert]
        exact (hkept id halive).imp_right fun hold ↦ hid ▸ mem_of_alive hfiled hold
    · refine ⟨ids, hcard, fun id hid halive ↦ hids id hid ((hkept id halive).resolve_left ?_)⟩
      rintro rfl
      exact hne hid

theorem bounded_empty (cfg : Config) (runOf : String → String) : Bounded cfg runOf {} := by
  refine fun _ ↦ ⟨∅, Nat.zero_le _, fun id _ halive ↦ ?_⟩
  rcases halive.alive with ⟨_, h, -⟩ | h | ⟨_, _, h, -⟩ | ⟨_, h, -⟩
  all_goals cases h

/-! ### Every run -/

/-- What holds of every state. -/
structure Limited (cfg : Config) (runOf : String → String) (s : Core) : Prop where
  filed : Filed runOf s
  asked : Asked s
  counted : Counted s
  bounded : Bounded cfg runOf s

theorem limited_step (h : Limited cfg runOf s) (ho : Owned runOf e) : Limited cfg runOf (step cfg e s) where
  filed := filed_step h.filed ho
  asked := asked_step h.asked
  counted := counted_step h.counted h.asked h.filed
  bounded := bounded_step h.bounded h.filed h.counted ho

theorem limited_empty (cfg : Config) (runOf : String → String) : Limited cfg runOf {} where
  filed := filed_empty runOf
  asked := asked_empty
  counted := counted_empty
  bounded := bounded_empty cfg runOf

theorem limited_run (cfg : Config) {events : List Event} (ho : ∀ e ∈ events, Owned runOf e) :
    Limited cfg runOf (run (step cfg) {} events) := by
  refine run_invariant (p := fun _ e ↦ Owned runOf e) (fun _ _ ↦ limited_step) (limited_empty cfg runOf) ?_
  refine along_of_forall fun before e after heq ↦ ho e ?_
  rw [heq]
  exact List.mem_append_right before (List.mem_cons_self ..)

/-- Where nothing is counted twice, what is counted is stored or reserved. -/
theorem card_of_disjoint
    (hnodup : ((s.calls.entries.filter fun entry ↦ holds runId entry.2).map (·.2.toolCallId)).Nodup)
    (hdisjoint : Disjoint (s.storedIds runId) (s.reservedIds runId)) :
    (s.storedIds runId ∪ s.reservedIds runId).card =
      s.countToolCallsByRun runId + s.calls.count (holds runId) := by
  have hkeys : ((s.toolCalls.entries.filter fun entry ↦ entry.2.runId = runId).map (·.1)).Nodup := by
    have hsublist : ((s.toolCalls.entries.filter fun entry ↦ entry.2.runId = runId).map (·.1)).Sublist
        s.toolCalls.entries.keys := List.Sublist.map _ List.filter_sublist
    exact List.Nodup.sublist hsublist s.toolCalls.nodupKeys
  rw [Finset.card_union_of_disjoint hdisjoint, storedIds, reservedIds, List.toFinset_card_of_nodup hkeys,
    List.toFinset_card_of_nodup hnodup, length_stored, length_reserved]

/-- Only a start event refuses a call, when the limit is reached and nothing is stored for the call. -/
theorem refused_of_log (hlog : (step cfg e s).log = s.log ++ [.refused id runId]) :
    ∃ key kind invocation aborted now, e = .start key kind invocation id aborted now ∧
      invocation.runId = runId ∧ s.toolCalls.lookup id = none ∧ limitReached cfg s runId = true := by
  have hstep := step_cases cfg e s
  revert hstep hlog
  generalize step cfg e s = s'
  intro hlog hstep
  have hsame (heq : s'.log = s.log) : False := by
    rw [heq] at hlog
    exact absurd (congrArg List.length hlog) (by simp)
  have hlast {o : Observation} (heq : s'.log = s.log ++ [o]) : o = .refused id runId := by
    rw [heq] at hlog
    exact List.singleton_inj.1 (List.append_cancel_left hlog)
  cases hstep with
  | @refused key kind invocation _ aborted now _ _ _ _ _ _ _ hrow hlimit =>
    obtain ⟨rfl, rfl⟩ := Observation.refused.inj (hlast rfl)
    exact ⟨key, kind, invocation, aborted, now, rfl, rfl, hrow, hlimit⟩
  | requests => cases hlast rfl
  | executes => cases hlast rfl
  | proceeds => cases hlast rfl
  | _ => exact (hsame rfl).elim

/-- **A refusal is right** where nothing is counted twice. -/
theorem refusesRightly_of_careful (h : Counted s) (hc : CarefulLimit cfg s e) : RefusesRightly cfg s e := by
  intro id runId hlog
  obtain ⟨key, kind, invocation, aborted, now, rfl, rfl, hrow, hlimit⟩ := refused_of_log hlog
  obtain ⟨hnodup, hdisjoint, hnew⟩ := hc hrow hlimit
  have hstored : id ∉ s.storedIds invocation.runId := by
    rw [storedIds, List.mem_toFinset, List.mem_map]
    rintro ⟨⟨id', row⟩, hmem, rfl⟩
    rw [AList.mem_lookup_iff.2 (List.mem_filter.1 hmem).1] at hrow
    cases hrow
  have hid : id ∉ s.storedIds invocation.runId ∪ s.reservedIds invocation.runId := by
    rw [Finset.mem_union, not_or]
    exact ⟨hstored, hnew⟩
  rw [Finset.erase_eq_of_notMem hid, card_of_disjoint hnodup hdisjoint, ← h]
  exact of_decide_eq_true hlimit

/-- The executed calls of a run are among those that the limit allows. -/
theorem card_executedIds_le (h : Limited cfg runOf s) (runId : String) :
    (s.executedIds runId).card ≤ cfg.maxToolCallsPerRun := by
  obtain ⟨ids, hcard, hids⟩ := h.bounded runId
  refine (Finset.card_le_card fun id hid ↦ ?_).trans hcard
  rw [executedIds, List.mem_toFinset, List.mem_filterMap] at hid
  obtain ⟨o, ho, hid⟩ := hid
  cases o with
  | executed id' run =>
    rw [Option.ite_none_right_eq_some] at hid
    obtain ⟨rfl, hid⟩ := hid
    obtain rfl := Option.some.inj hid
    have hfiled := h.filed.log _ ho
    exact hids _ hfiled.1.symm ⟨.inl ⟨_, ho, decide_eq_true rfl⟩⟩
  | _ => cases hid

/-- The counter of a run is zero when none of its calls is under way. -/
theorem inFlight_eq_zero (h : Counted s)
    (hidle : ∀ key call, s.calls.lookup key = some call → call.invocation.runId = runId →
      call.position.live = false) : s.inFlight runId = 0 := by
  rw [h runId, Table.count, List.countP_eq_zero]
  rintro ⟨key, call⟩ hmem hholds
  simp only [holds, Bool.and_eq_true, decide_eq_true_eq] at hholds
  have hdone := hidle key call (AList.mem_lookup_iff.2 hmem) hholds.2
  rw [hholds.1.2] at hdone
  cases hdone

/-- **The limit of the calls of a run**: in every run, no more calls reach `tool.execute` than the limit
allows, and the counter of a run of which nothing is under way is zero; and where nothing is counted twice,
a call is refused only when as many others are stored or reserved as the limit allows. -/
theorem limit_of_careful (cfg : Config) (events : List Event) (runOf : String → String)
    (howned : ∀ e ∈ events, Owned runOf e) (h : Along (step cfg) (CarefulLimit cfg) {} events) :
    Along (step cfg) (RefusesRightly cfg) {} events ∧
      (∀ runId, ((run (step cfg) {} events).executedIds runId).card ≤ cfg.maxToolCallsPerRun) ∧
      ∀ runId, (∀ key call, (run (step cfg) {} events).calls.lookup key = some call →
        call.invocation.runId = runId → call.position.live = false) →
        (run (step cfg) {} events).inFlight runId = 0 := by
  have hlimited := limited_run cfg howned
  refine ⟨along_of_forall fun before e after heq ↦ ?_, fun runId ↦ card_executedIds_le hlimited runId,
    fun runId ↦ inFlight_eq_zero hlimited.counted⟩
  subst heq
  have hbefore : Limited cfg runOf (run (step cfg) {} before) :=
    limited_run cfg fun e' he' ↦ howned e' (List.mem_append_left _ he')
  exact refusesRightly_of_careful hbefore.counted h.at_event

/-- A call is completed, and another one is refused. -/
theorem limit_completedRun :
    Along (step (.single echo 1)) (RefusesRightly (.single echo 1)) {}
        (repeatedRun ++ [.start 1 .dispatch (invocationOf echo []) "second" false 4]) ∧
      (∀ runId, ((run (step (.single echo 1)) {}
        (repeatedRun ++ [.start 1 .dispatch (invocationOf echo []) "second" false 4])).executedIds
          runId).card ≤ 1) ∧
      ∀ runId, (∀ key call, (run (step (.single echo 1)) {}
        (repeatedRun ++ [.start 1 .dispatch (invocationOf echo []) "second" false 4])).calls.lookup key =
          some call → call.invocation.runId = runId → call.position.live = false) →
        (run (step (.single echo 1)) {}
          (repeatedRun ++ [.start 1 .dispatch (invocationOf echo []) "second" false 4])).inFlight runId = 0 := by
  refine limit_of_careful (.single echo 1) _ (fun _ ↦ "run") ?_ ?_
  · intro e he
    simp only [repeatedRun, List.cons_append, List.nil_append, List.mem_cons, List.not_mem_nil, or_false] at he
    rcases he with rfl | rfl | rfl | rfl | rfl
    all_goals first | rfl | trivial
  · have hfirst : limitReached (.single echo 1) {} (invocationOf echo []).runId = false := by
      decide
    have hreserved : ((run (step (.single echo 1)) {} repeatedRun).calls.entries.filter
        fun entry ↦ holds "run" entry.2).map (·.2.toolCallId) = [] := by
      decide
    have hnone : (run (step (.single echo 1)) {} repeatedRun).reservedIds "run" = ∅ := by
      rw [reservedIds, hreserved]
      rfl
    refine ⟨fun _ hlimit ↦ ?_, trivial, trivial, trivial, fun _ _ ↦ ⟨?_, ?_, ?_⟩, trivial⟩
    · cases hfirst.symm.trans hlimit
    · exact hreserved ▸ List.nodup_nil
    · exact hnone ▸ Finset.disjoint_empty_right _
    · exact hnone ▸ Finset.notMem_empty _

/-- A call that executes, when another one starts. -/
def executingRun : List Event :=
  [.start 0 .dispatch (invocationOf echo []) "first" false 1, .resume 0 "" true 2]

/-- **A call is refused although there is room.** The call that executes is stored and reserved, so it
counts for two. -/
theorem not_refusesRightly_executingRun :
    ¬ Along (step (.single echo 2)) (RefusesRightly (.single echo 2)) {}
      (executingRun ++ [.start 1 .dispatch (invocationOf echo []) "second" false 3]) := by
  intro h
  have hrefused : (step (.single echo 2) (.start 1 .dispatch (invocationOf echo []) "second" false 3)
      (run (step (.single echo 2)) {} executingRun)).log =
        (run (step (.single echo 2)) {} executingRun).log ++ [.refused "second" "run"] := by
    rfl
  have hright := h.at_event "second" "run" hrefused
  have hcard : ¬ (Config.single echo 2).maxToolCallsPerRun ≤
      (((run (step (.single echo 2)) {} executingRun).storedIds "run" ∪
        (run (step (.single echo 2)) {} executingRun).reservedIds "run").erase "second").card := by
    decide
  exact hcard hright

end Core

end Tools
