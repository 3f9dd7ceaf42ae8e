import NexusPilot.Tools.Steps

/-!
# A tool call runs at most once

The stored state of a call says whether it was executed, and `dispatch` reads it when it starts. It writes
`running` only after two `await`s, for the risk and for the description of a Permission, so two calls of
one identifier that wait at the same time both find that nothing has happened and both execute.

`CarefulOnce` excludes that: no call of an identifier starts while another call of it waits. It also asks
that nobody asks for the authorization of a call that has begun to execute, which would put it back to
waiting, and that a dispatch of a finished call is one that the stored call accepts. Then `tool.execute` is
reached at most once for each identifier, and a finished call gives its stored result.
-/

namespace Tools

open Machine

/-- The observation is an execution of the call. -/
def Observation.executes (toolCallId : String) : Observation → Bool
  | .executed id .. => id = toolCallId
  | _ => false

/-- The call has begun to execute, or failed. -/
def ToolCall.Begun (row : ToolCall) : Prop :=
  row.state = .running ∨ row.state = .completed ∨
    row.state = .error ∧ ∃ failure, row.result = some (.error failure)

namespace Core

variable {cfg : Config} {s s' : Core} {e : Event} {id : String} {key : Nat} {call : Call}

/-! ### What is asked of a run -/

/-- The number of times that the tool of a call was executed. -/
def executionCount (s : Core) (id : String) : Nat :=
  s.log.countP (·.executes id)

/-- **A finished call gives its stored result.** -/
def ReturnsStored (cfg : Config) (s : Core) (e : Event) : Prop :=
  ∀ key invocation id aborted now row, e = .start key .dispatch invocation id aborted now →
    s.calls.lookup key = none → s.toolCalls.lookup id = some row → row.finished = true →
    ∃ call result, (step cfg e s).calls.lookup key = some call ∧ row.result = some result ∧
      call.position = .returned (.result result)

/-- The stored call accepts the invocation: its tool is active, its input valid and its identity
the same. -/
def Accepts (cfg : Config) (row : ToolCall) (invocation : Invocation) : Prop :=
  ∃ tool input, resolveActiveTool cfg invocation = .ok tool ∧
    parseObjectInput tool invocation.input = some input ∧
    matchesExisting row invocation tool.id input = true

/-- A call of the identifier waits for its risk or for the description of its Permission. -/
abbrev WaitsAt (calls : Table Nat Call) (id : String) (key : Nat) : Prop :=
  CallAt Position.waiting calls id key

/-- **The condition.** No call of an identifier starts while another one waits, none is authorized that
has begun to execute, and a finished one is dispatched as it was. -/
def CarefulOnce (cfg : Config) (s : Core) : Event → Prop
  | .start _ kind invocation id _ _ =>
    (∀ key, ¬ WaitsAt s.calls id key) ∧
      ∀ row, s.toolCalls.lookup id = some row →
        (kind = .authorize → row.state ≠ .running ∧ row.state ≠ .completed) ∧
        (kind = .dispatch → row.finished = true → Accepts cfg row invocation)
  | _ => True

/-! ### The invariant -/

/-- **The invariant.** A call that was executed says so in the store, and no call of it waits; never do
two of one identifier wait. -/
structure Once (id : String) (s : Core) : Prop where
  count : s.executionCount id ≤ 1
  begun : 0 < s.executionCount id → ∃ row, s.toolCalls.lookup id = some row ∧ row.Begun
  quiet : 0 < s.executionCount id → ∀ key, ¬ WaitsAt s.calls id key
  unique : ∀ key key', WaitsAt s.calls id key → WaitsAt s.calls id key' → key = key'

/-- A step after which no more calls wait, and a row that has begun stays so. -/
theorem Once.mono (h : Once id s) (hcount : s'.executionCount id = s.executionCount id)
    (hrow : ∀ row, s.toolCalls.lookup id = some row → row.Begun →
      ∃ row', s'.toolCalls.lookup id = some row' ∧ row'.Begun)
    (hcalls : ∀ key, WaitsAt s'.calls id key → WaitsAt s.calls id key) : Once id s' where
  count := hcount ▸ h.count
  begun hpos := by
    rw [hcount] at hpos
    obtain ⟨row, hlookup, hbegun⟩ := h.begun hpos
    exact hrow row hlookup hbegun
  quiet hpos key hwaits := by
    rw [hcount] at hpos
    exact h.quiet hpos key (hcalls key hwaits)
  unique key key' hwaits hwaits' := h.unique key key' (hcalls key hwaits) (hcalls key' hwaits')

/-- A call that starts to wait, where nothing of its identifier waits or was executed. -/
theorem Once.start (h : Once id s) (hcount : s'.executionCount id = s.executionCount id)
    (hrows : s'.toolCalls = s.toolCalls) (hcalls : s'.calls = s.calls.insert key call)
    (hfree : call.toolCallId = id → ∀ key, ¬ WaitsAt s.calls id key)
    (hidle : call.toolCallId = id → s.executionCount id = 0) : Once id s' := by
  have hwaits {other : Nat} (hwaits : WaitsAt s'.calls id other) :
      (other = key ∧ call.toolCallId = id) ∨ WaitsAt s.calls id other := by
    rw [hcalls, WaitsAt, callAt_insert] at hwaits
    split at hwaits
    · next heq => exact .inl ⟨heq, hwaits.1⟩
    · exact .inr hwaits
  refine ⟨hcount ▸ h.count, fun hpos ↦ ?_, fun hpos other hother ↦ ?_, fun other other' ho ho' ↦ ?_⟩
  · rw [hrows]
    exact h.begun (hcount ▸ hpos)
  · rw [hcount] at hpos
    rcases hwaits hother with ⟨-, hid⟩ | hold
    · rw [hidle hid] at hpos
      exact absurd hpos (lt_irrefl 0)
    · exact h.quiet hpos other hold
  · rcases hwaits ho with ⟨rfl, hid⟩ | hold
    · rcases hwaits ho' with ⟨rfl, -⟩ | hold'
      · rfl
      · exact absurd hold' (hfree hid other')
    · rcases hwaits ho' with ⟨rfl, hid⟩ | hold'
      · exact absurd hold (hfree hid other)
      · exact h.unique other other' hold hold'

/-- Nothing was executed of a call that waits. -/
theorem Once.count_of_waitsAt (h : Once id s) (hwaits : WaitsAt s.calls id key) :
    s.executionCount id = 0 := by
  by_contra hne
  exact h.quiet (Nat.pos_of_ne_zero hne) key hwaits

/-- Nothing was executed of a call whose row does not say so. -/
theorem Once.count_of_not_begun (h : Once id s)
    (hrow : ∀ row, s.toolCalls.lookup id = some row → ¬ row.Begun) : s.executionCount id = 0 := by
  by_contra hne
  obtain ⟨row, hlookup, hbegun⟩ := h.begun (Nat.pos_of_ne_zero hne)
  exact hrow row hlookup hbegun

/-- A step after which nothing was executed yet. -/
theorem Once.of_count_eq_zero (h : Once id s) (hcount : s'.executionCount id = 0)
    (hcalls : ∀ key, WaitsAt s'.calls id key → WaitsAt s.calls id key) : Once id s' where
  count := hcount ▸ Nat.zero_le 1
  begun hpos := absurd hpos (by rw [hcount]; exact lt_irrefl 0)
  quiet hpos := absurd hpos (by rw [hcount]; exact lt_irrefl 0)
  unique key key' hwaits hwaits' := h.unique key key' (hcalls key hwaits) (hcalls key' hwaits')

/-- A new row that has begun. -/
theorem begun_insert {rows : Table String ToolCall} {other : String} {row' : ToolCall}
    (hbegun : row'.Begun) (row : ToolCall) (hlookup : rows.lookup id = some row) (h : row.Begun) :
    ∃ found, (rows.insert other row').lookup id = some found ∧ found.Begun := by
  rw [Table.lookup_insert]
  split
  · exact ⟨row', rfl, hbegun⟩
  · exact ⟨row, hlookup, h⟩

theorem begun_failedRows {before rows : Table String ToolCall} (hrows : FailedRows before call rows)
    (row : ToolCall) (hlookup : before.lookup id = some row) (h : row.Begun) :
    ∃ found, rows.lookup id = some found ∧ found.Begun := by
  rcases hrows with rfl | ⟨row', hrow', hresult, rfl⟩
  · exact ⟨row, hlookup, h⟩
  · exact begun_insert (.inr (.inr ⟨hrow'.state, hresult⟩)) row hlookup h

theorem executionCount_append {log : List Observation} {o : Observation} (h : o.executes id = false) :
    (log ++ [o]).countP (·.executes id) = log.countP (·.executes id) := by
  simp [List.countP_append, h]

theorem once_step (h : Once id s) (hc : CarefulOnce cfg s e) : Once id (step cfg e s) := by
  have hstep := step_cases cfg e s
  revert hstep hc
  generalize step cfg e s = s'
  intro hc hstep
  have hkept : ∀ row, s.toolCalls.lookup id = some row → row.Begun →
      ∃ row', s.toolCalls.lookup id = some row' ∧ row'.Begun :=
    fun row hlookup hbegun ↦ ⟨row, hlookup, hbegun⟩
  cases hstep with
  | idle => exact h
  | refused _ hcall _ _ hrows _ =>
    exact h.mono (executionCount_append rfl) (begun_failedRows hrows)
      fun _ ↦ callAt_of_insert rfl
  | notStarted _ _ _ _ hrows _ | fails _ _ _ _ hrows _ =>
    exact h.mono rfl (begun_failedRows hrows) fun _ ↦ callAt_of_insert rfl
  | begins _ hcall hrow =>
    refine h.start rfl rfl rfl (fun hid ↦ ?_) fun hid ↦ h.count_of_not_begun fun row hlookup ↦ ?_
    · rw [hcall.toolCallId_eq] at hid
      exact hid ▸ hc.1
    · rw [← hid, hcall.toolCallId_eq, hrow] at hlookup
      cases hlookup
  | @continues _ kind _ _ _ _ _ _ _ found _ hcall hrow _ hdispatch hauthorize =>
    refine h.start rfl rfl rfl (fun hid ↦ ?_)
      fun hid ↦ h.count_of_not_begun fun row hlookup hbegun ↦ ?_
    · rw [hcall.toolCallId_eq] at hid
      exact hid ▸ hc.1
    · rw [← hid, hcall.toolCallId_eq, hrow] at hlookup
      obtain rfl := Option.some.inj hlookup
      cases kind with
      | dispatch =>
        have hstate := hdispatch rfl
        rcases hbegun with hb | hb | ⟨hb, -⟩
        all_goals cases hstate.symm.trans hb
      | authorize =>
        have hstate := (hc.2 found hrow).1 rfl
        rcases hbegun with hb | hb | ⟨hb, failure, hresult⟩
        · exact hstate.1 hb
        · exact hstate.2 hb
        · exact hauthorize rfl hb failure hresult
  | replays | answers | settles => exact h.mono rfl hkept fun _ ↦ callAt_of_insert rfl
  | waits hcall _ hwaiting hsame hwaiting' _ _ _ =>
    exact h.mono rfl hkept fun _ ↦ callAt_of_insert_same hcall hsame.toolCallId hwaiting
  | prepares hcall _ hposition _ _ =>
    exact h.mono rfl hkept fun _ ↦ callAt_of_insert_same hcall rfl (by rw [hposition]; rfl)
  | @requests _ _ call _ _ _ _ _ _ _ _ _ hcall _ hposition =>
    rcases eq_or_ne call.toolCallId id with rfl | hne
    · have hzero := h.count_of_waitsAt ⟨call, hcall, rfl, by rw [hposition]; rfl⟩
      refine h.of_count_eq_zero ?_ fun _ ↦ callAt_of_insert rfl
      exact (executionCount_append rfl).trans hzero
    · refine h.mono (executionCount_append rfl) (fun row hlookup hbegun ↦ ⟨row, ?_, hbegun⟩)
        fun _ ↦ callAt_of_insert rfl
      show (s.toolCalls.insert _ _).lookup id = some row
      rw [Table.lookup_insert, if_neg hne.symm, hlookup]
  | @executes _ key call call' _ _ row hcall _ _ hposition hsame hposition' _ _ hrow =>
    have hwaits : WaitsAt s.calls call.toolCallId key := ⟨call, hcall, rfl, by rw [hposition]; rfl⟩
    have hdone : call'.position.waiting = false := by
      rw [hposition']
      rfl
    rcases eq_or_ne call.toolCallId id with rfl | hne
    · -- the call that waited is the only one, and it does not wait any more
      have hnone (other : Nat) : ¬ WaitsAt (s.calls.insert key call') call.toolCallId other := by
        intro hother
        have hkey := h.unique other key (callAt_of_insert hdone hother) hwaits
        rw [WaitsAt, callAt_insert, if_pos hkey, hdone] at hother
        cases hother.2
      refine ⟨?_, fun _ ↦ ⟨row, ?_, .inl hrow.state⟩, fun _ ↦ hnone, fun other _ ho _ ↦ ?_⟩
      · have hzero := h.count_of_waitsAt hwaits
        show (s.log ++ [_]).countP _ ≤ 1
        rw [executionCount] at hzero
        rw [List.countP_append, hzero]
        simp [Observation.executes]
      · show (s.toolCalls.insert _ _).lookup _ = some row
        rw [Table.lookup_insert, if_pos rfl]
      · exact absurd ho (hnone other)
    · refine h.mono (executionCount_append (decide_eq_false hne))
        (fun row hlookup hbegun ↦ ⟨row, ?_, hbegun⟩) fun _ ↦ callAt_of_insert hdone
      show (s.toolCalls.insert _ _).lookup id = some row
      rw [Table.lookup_insert, if_neg hne.symm, hlookup]
  | unavailable _ _ _ _ _ hwaiting' hrow =>
    exact h.mono rfl (begun_insert (.inl hrow.state)) fun _ ↦ callAt_of_insert hwaiting'
  | completes _ _ hrow _ =>
    exact h.mono rfl (begun_insert (.inr (.inl hrow.state))) fun _ ↦ callAt_of_insert rfl
  | proceeds => exact h.mono (executionCount_append rfl) hkept fun _ hwaits ↦ hwaits
  | background | approves => exact h.mono rfl hkept fun _ hwaits ↦ hwaits
  | denies _ _ _ hrow' _ hresult =>
    exact h.mono rfl (begun_insert (.inr (.inr ⟨hrow', hresult⟩))) fun _ hwaits ↦ hwaits

theorem once_empty (id : String) : Once id {} where
  count := Nat.zero_le 1
  begun h := absurd h (lt_irrefl 0)
  quiet _ _ := fun ⟨_, h, _⟩ ↦ nomatch h
  unique _ _ := fun ⟨_, h, _⟩ ↦ nomatch h

/-! ### The stored result -/

theorem returnsStored_of_careful (hc : CarefulOnce cfg s e) : ReturnsStored cfg s e := by
  rintro key invocation id aborted now row rfl hkey hrow hfinished
  obtain ⟨tool, input, htool, hinput, hmatches⟩ := (hc.2 row hrow).2 rfl hfinished
  obtain ⟨result, hresult⟩ : ∃ result, row.result = some result := by
    rw [ToolCall.finished, Bool.and_eq_true] at hfinished
    exact Option.isSome_iff_exists.1 hfinished.2
  have hstep : ∃ call, step cfg (.start key .dispatch invocation id aborted now) s =
      s.returns key call (.result result) := by
    simp only [step, hkey, start, htool, hinput, hrow, startExisting, hmatches, hfinished, hresult]
    exact ⟨_, rfl⟩
  obtain ⟨call, hcall⟩ := hstep
  refine ⟨{ call with position := .returned (.result result) }, result, ?_, hresult, rfl⟩
  rw [hcall]
  show (s.calls.insert key _).lookup key = _
  rw [Table.lookup_insert, if_pos rfl]

/-! ### Every run -/

/-- **A tool call runs at most once**, and a finished one gives its stored result, in every run in which
no two calls of one identifier wait at the same time. -/
theorem executionCount_le_one_of_careful (cfg : Config) (events : List Event)
    (h : Along (step cfg) (CarefulOnce cfg) {} events) :
    (∀ id, (run (step cfg) {} events).executionCount id ≤ 1) ∧
      Along (step cfg) (ReturnsStored cfg) {} events := by
  refine ⟨fun id ↦ ?_, along_of_forall fun before e after heq ↦ ?_⟩
  · exact (run_invariant (fun _ _ hs hc ↦ once_step hs hc) (once_empty id) h).count
  · subst heq
    exact returnsStored_of_careful h.at_event

/-- A tool that reads nothing and may always run. -/
def echo : Tool where
  id := "test.echo"
  title := "Echo"
  inputSchema := some
  outputSchema := some
  executionTarget := .runtime
  risk := .static .low true .none

/-- A call of the only tool of a run, with an input. -/
def invocationOf (tool : Tool) (input : JsonObject) : Invocation where
  conversationId := "conv"
  runId := "run"
  messageId := "msg"
  providerName := tool.id
  input := .obj input
  snapshot := {
    snapshotId := "snap", runId := "run"
    executionCeiling := ⟨.critical, [.none, .businessWrite], true⟩
    activeTools := [⟨tool.id, tool.id⟩] }

/-- A call that is executed, and dispatched again when it is completed. -/
def repeatedRun : List Event :=
  [.start 0 .dispatch (invocationOf echo []) "call" false 1, .resume 0 "" true 2,
    .toolReturned 0 false (.ok ⟨"done", .null, none⟩), .resume 0 "" true 3]

theorem executionCount_le_one_repeatedRun :
    (∀ id, (run (step (.single echo 32)) {}
      (repeatedRun ++ [.start 1 .dispatch (invocationOf echo []) "call" false 4])).executionCount id ≤ 1) ∧
      Along (step (.single echo 32)) (ReturnsStored (.single echo 32)) {}
        (repeatedRun ++ [.start 1 .dispatch (invocationOf echo []) "call" false 4]) := by
  refine executionCount_le_one_of_careful _ _ ?_
  have hcalls : ∀ entry ∈ (run (step (.single echo 32)) {} repeatedRun).calls.entries,
      entry.2.position.waiting = false := by
    decide
  have hmatches : ((run (step (.single echo 32)) {} repeatedRun).toolCalls.lookup "call").all
      (matchesExisting · (invocationOf echo []) echo.id []) = true := by
    decide
  refine ⟨⟨fun _ ⟨_, h, _⟩ ↦ (nomatch h), fun _ h ↦ (nomatch h)⟩, trivial, trivial, trivial, ⟨?_, ?_⟩, trivial⟩
  · rintro key ⟨call, hcall, -, hwaiting⟩
    rw [hcalls ⟨key, call⟩ (AList.mem_lookup_iff.1 hcall)] at hwaiting
    cases hwaiting
  · intro row hrow
    refine ⟨fun h ↦ (nomatch h), fun _ _ ↦ ⟨echo, [], rfl, rfl, ?_⟩⟩
    rw [Option.all_eq_true] at hmatches
    exact hmatches row hrow

/-- **Two dispatches that wait at the same time both execute.** -/
theorem not_executionCount_le_one_overlappingRun :
    ¬ ∀ id, (run (step (.single echo 32)) {}
      [.start 0 .dispatch (invocationOf echo []) "call" false 1,
        .start 1 .dispatch (invocationOf echo []) "call" false 2, .resume 0 "" true 3,
        .resume 1 "" true 4]).executionCount id ≤ 1 := by
  intro h
  have htwo : (run (step (.single echo 32)) {}
      [.start 0 .dispatch (invocationOf echo []) "call" false 1,
        .start 1 .dispatch (invocationOf echo []) "call" false 2, .resume 0 "" true 3,
        .resume 1 "" true 4]).executionCount "call" = 2 := by
    decide
  have hone := h "call"
  rw [htwo] at hone
  exact absurd hone (by decide)

end Core

end Tools
