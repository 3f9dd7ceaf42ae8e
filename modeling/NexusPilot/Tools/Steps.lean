import NexusPilot.Tools.Core

/-!
# What an event does to the tool core

`Step cfg s e s'` lists everything that an event can do, with the state after it as an update of the state
before: a call starts, waits, fails, returns, asks, executes or completes, the user decides, a tool calls
`proceed`, or nothing that others can see happens. `step_cases` says that the list is complete. The
invariants of the later modules are proved by going through it, and nothing there unfolds the code.

Two facts are kept as small as the proofs need them: of the registry of plans, that a step other than
the answer of `prepare` invents no plan (`KeepsPlans`), and of a row that is written, its state, its run and
its result (`Stores`).
-/

namespace Tools

open Machine

namespace Core

variable {cfg : Config} {s s' : Core} {key : Nat} {call : Call} {tool : Tool}

/-! ### Primitives -/

/-- Every plan was there before, for the same input. -/
def KeepsPlans (plans plans' : PreparedRegistry) : Prop :=
  ∀ id record', plans'.lookup id = some record' → ∃ record, plans.lookup id = some record ∧
    record.input = record'.input ∧ record.invocation = record'.invocation

theorem KeepsPlans.refl (plans : PreparedRegistry) : KeepsPlans plans plans :=
  fun _ record h ↦ ⟨record, h, rfl, rfl⟩

theorem keepsPlans_erase (plans : PreparedRegistry) (id : String) :
    KeepsPlans plans (plans.erase id) := by
  intro other record h
  rw [Table.lookup_erase] at h
  split at h
  · cases h
  · exact ⟨record, h, rfl, rfl⟩

theorem keepsPlans_afterRequire (plans : PreparedRegistry) (id : String) (now : Nat) :
    KeepsPlans plans (PreparedRegistry.afterRequire plans id now) := by
  unfold PreparedRegistry.afterRequire
  split
  · split
    · exact keepsPlans_erase plans id
    · exact .refl plans
  · exact .refl plans

theorem keepsPlans_markConsumed (plans : PreparedRegistry) (id : String) :
    KeepsPlans plans (PreparedRegistry.markConsumed plans id) := by
  unfold PreparedRegistry.markConsumed
  split
  · next record hrecord =>
    intro other record' h
    rw [Table.lookup_insert] at h
    split at h
    · next heq =>
      obtain rfl := Option.some.inj h
      exact ⟨record, heq ▸ hrecord, rfl, rfl⟩
    · exact ⟨record', h, rfl, rfl⟩
  · exact .refl plans

theorem KeepsPlans.trans {plans plans' plans'' : PreparedRegistry} (h : KeepsPlans plans plans')
    (h' : KeepsPlans plans' plans'') : KeepsPlans plans plans'' := by
  intro id record'' hrecord''
  obtain ⟨record', hrecord', hinput', hinvocation'⟩ := h' id record'' hrecord''
  obtain ⟨record, hrecord, hinput, hinvocation⟩ := h id record' hrecord'
  exact ⟨record, hrecord, hinput.trans hinput', hinvocation.trans hinvocation'⟩

theorem keepsPlans_filter (plans : PreparedRegistry) (p : PreparedInvocationRecord → Bool) :
    KeepsPlans plans (plans.filter p) := by
  intro id record h
  rw [Table.lookup_filter, Option.filter_eq_some_iff] at h
  exact ⟨record, h.1, rfl, rfl⟩

/-- The counter of the run after a call gives its reservation back. -/
def released (s : Core) (call : Call) : Table String Nat :=
  (s.releaseReserved call).inFlightByRun

theorem releaseReserved_eq (s : Core) (call : Call) :
    s.releaseReserved call = { s with inFlightByRun := s.released call } := by
  unfold released releaseReserved
  split
  · rfl
  · rfl

theorem released_congr (h : s'.inFlightByRun = s.inFlightByRun) : s'.released call = s.released call := by
  unfold released releaseReserved
  split
  · have hcount : s'.inFlight call.invocation.runId = s.inFlight call.invocation.runId := by
      simp only [inFlight, h]
    simp only [releaseToolCall]
    rw [hcount, h]
  · exact h

/-- The row that a call writes for itself. -/
structure Stores (rows : Table String ToolCall) (call : Call) (state : ToolState) (row : ToolCall) :
    Prop where
  state : row.state = state
  runId : row.runId = ((rows.lookup call.toolCallId).map (·.runId)).getD call.invocation.runId

theorem storedRow_runId (s : Core) (toolCall : ToolCall) :
    (s.storedRow toolCall).runId =
      ((s.toolCalls.lookup toolCall.id).map (·.runId)).getD toolCall.runId := by
  unfold storedRow
  cases s.toolCalls.lookup toolCall.id with
  | none => rfl
  | some row => rfl

theorem storedRow_state (s : Core) (toolCall : ToolCall) :
    (s.storedRow toolCall).state = toolCall.state ∧ (s.storedRow toolCall).result = toolCall.result := by
  unfold storedRow
  cases s.toolCalls.lookup toolCall.id with
  | none => exact ⟨rfl, rfl⟩
  | some row => exact ⟨rfl, rfl⟩

theorem exists_persist_eq (s : Core) (call : Call) (toolId : String) (state : ToolState)
    (completed : Option Nat) (result : Option RuntimeToolResult) (permissionId : Option String) :
    ∃ row, Stores s.toolCalls call state row ∧ row.result = result ∧
      s.persist call toolId state completed result permissionId =
        { s with toolCalls := s.toolCalls.insert call.toolCallId row } := by
  refine ⟨_, ⟨?_, ?_⟩, ?_, rfl⟩
  · exact (storedRow_state s _).1
  · exact storedRow_runId s _
  · exact (storedRow_state s _).2

/-- The rows after a call has failed: it may have written one for itself. -/
def FailedRows (before : Table String ToolCall) (call : Call) (rows : Table String ToolCall) : Prop :=
  rows = before ∨ ∃ row, Stores before call .error row ∧ (∃ failure, row.result = some (.error failure)) ∧
    rows = before.insert call.toolCallId row

/-- **A call that fails.** -/
theorem exists_fail_eq (cfg : Config) (s : Core) (key : Nat) (call : Call) (thrown : Thrown)
    (now : Nat) :
    ∃ rows plans answer, FailedRows s.toolCalls call rows ∧ KeepsPlans s.prepared plans ∧
      s.fail cfg key call thrown now =
        { s with
          toolCalls := rows, prepared := plans, inFlightByRun := s.released call
          calls := s.calls.insert key { call with position := .returned answer } } := by
  unfold fail
  split
  · unfold failDispatch
    extract_lets failure stored
    rw [releaseReserved_eq]
    obtain htool | ⟨tool, htool⟩ := Option.eq_none_or_eq_some call.tool
    · have hstored : stored = s := by simp only [stored, htool]
      rw [hstored]
      exact ⟨_, _, _, .inl rfl, .refl _, rfl⟩
    · obtain ⟨row, hrow, hresult, heq⟩ := exists_persist_eq s call tool.id .error (some now)
        (some (.error failure)) call.permissionId
      have hstored : stored = { s with toolCalls := s.toolCalls.insert call.toolCallId row } := by
        simp only [stored, htool, heq]
      have hreleased : stored.released call = s.released call := released_congr (by rw [hstored])
      rw [hreleased, hstored]
      exact ⟨_, _, _, .inr ⟨row, hrow, ⟨_, hresult⟩, rfl⟩, .refl _, rfl⟩
  · unfold failAuthorize
    extract_lets failure toolId stored
    rw [releaseReserved_eq]
    obtain htool | ⟨toolId', htool⟩ := Option.eq_none_or_eq_some toolId
    · have hstored : stored = s := by simp only [stored, htool]
      rw [hstored]
      exact ⟨_, _, _, .inl rfl, .refl _, rfl⟩
    · obtain ⟨row, hrow, hresult, heq⟩ := exists_persist_eq s call toolId' .error (some now)
        (some (.error failure)) none
      have hstored : stored =
          { s with
            toolCalls := s.toolCalls.insert call.toolCallId row
            prepared := s.prepared.erase call.toolCallId } := by
        simp only [stored, htool, heq]
      have hreleased : stored.released call = s.released call := released_congr (by rw [hstored])
      rw [hreleased, hstored]
      exact ⟨_, _, _, .inr ⟨row, hrow, ⟨_, hresult⟩, rfl⟩, keepsPlans_erase _ _, rfl⟩

/-! ### The list of steps -/

/-- The parts of a call that stay while it runs. -/
structure Same (call call' : Call) : Prop where
  kind : call'.kind = call.kind
  invocation : call'.invocation = call.invocation
  toolCallId : call'.toolCallId = call.toolCallId
  tool : call'.tool = call.tool
  normalizedInput : call'.normalizedInput = call.normalizedInput
  existing : call'.existing = call.existing
  reserved : call'.reserved = call.reserved

theorem Same.refl (call : Call) : Same call call :=
  ⟨rfl, rfl, rfl, rfl, rfl, rfl, rfl⟩

theorem Same.moves (call : Call) (position : Position) : Same call { call with position } :=
  ⟨rfl, rfl, rfl, rfl, rfl, rfl, rfl⟩

/-- The call that a start event brings, for the tool and the input that it resolves to. -/
structure Brought (cfg : Config) (kind : CallKind) (invocation : Invocation) (toolCallId : String)
    (call : Call) (tool : Tool) : Prop where
  kind_eq : call.kind = kind
  invocation_eq : call.invocation = invocation
  toolCallId_eq : call.toolCallId = toolCallId
  resolve_eq : resolveActiveTool cfg invocation = .ok tool
  tool_eq : call.tool = some tool
  parse_eq : parseObjectInput tool invocation.input = some call.normalizedInput

/-- The risk is the declared one, or the one of the plan that was made for the input. -/
def Resolves (cfg : Config) (s : Core) (call : Call) (tool : Tool) (risk : ResolvedToolRisk) : Prop :=
  match tool.risk with
  | .static level reversible sideEffect => risk = ⟨level, reversible, [sideEffect]⟩
  | .dynamic .. =>
    tool.prepare.isSome = true ∧ ∃ record, s.prepared.lookup call.toolCallId = some record ∧
      sameJson cfg.localeCompare record.input call.normalizedInput = true ∧ record.invocation.risk = risk

end Core

/-- The risk that a waiting call has resolved. -/
def Position.risk? : Position → Option ResolvedToolRisk
  | .resolved (.ok risk) | .describing risk | .described risk _ => some risk
  | _ => none

namespace Core

/-- A tool at work keeps what it works on. -/
def KeepsExecutions (executions executions' : Table Nat Execution) : Prop :=
  ∀ key execution', executions'.lookup key = some execution' →
    ∃ execution, executions.lookup key = some execution ∧ execution.tool = execution'.tool ∧
      execution.identity = execution'.identity ∧ execution.input = execution'.input ∧
      execution.permission = execution'.permission

/-- The call that an event resumes. -/
def Event.resumes : Event → Option Nat
  | .resume key _ _ _ => some key
  | _ => none

/-- **Everything that an event can do.** -/
inductive Step (cfg : Config) (s : Core) : Event → Core → Prop
  | idle (e : Event) : Step cfg s e s
  -- the start of a call
  | refused {key : Nat} {kind : CallKind} {invocation : Invocation} {toolCallId : String}
      {aborted : Bool} {now : Nat} {call : Call} {tool : Tool} {rows : Table String ToolCall}
      {plans : PreparedRegistry} {answer : Answer} (hkey : s.calls.lookup key = none)
      (hcall : Brought cfg kind invocation toolCallId call tool)
      (hrow : s.toolCalls.lookup toolCallId = none)
      (hlimit : limitReached cfg s invocation.runId = true)
      (hrows : FailedRows s.toolCalls call rows) (hplans : KeepsPlans s.prepared plans) :
    Step cfg s (.start key kind invocation toolCallId aborted now) { s with
      toolCalls := rows, prepared := plans
      calls := s.calls.insert key { call with position := .returned answer }
      log := s.log ++ [.refused toolCallId invocation.runId] }
  | notStarted {key : Nat} {kind : CallKind} {invocation : Invocation} {toolCallId : String}
      {aborted : Bool} {now : Nat} {call : Call} {rows : Table String ToolCall}
      {plans : PreparedRegistry} {counters : Table String Nat} {answer : Answer}
      (hkey : s.calls.lookup key = none) (hid : call.toolCallId = toolCallId)
      (hinvocation : call.invocation = invocation)
      (hcounters : ∀ runId, (counters.lookup runId).getD 0 = s.inFlight runId)
      (hrows : FailedRows s.toolCalls call rows) (hplans : KeepsPlans s.prepared plans) :
    Step cfg s (.start key kind invocation toolCallId aborted now) { s with
      toolCalls := rows, prepared := plans, inFlightByRun := counters
      calls := s.calls.insert key { call with position := .returned answer } }
  | begins {key : Nat} {kind : CallKind} {invocation : Invocation} {toolCallId : String}
      {aborted : Bool} {now : Nat} {call : Call} {tool : Tool} {plans : PreparedRegistry}
      (hkey : s.calls.lookup key = none) (hcall : Brought cfg kind invocation toolCallId call tool)
      (hrow : s.toolCalls.lookup toolCallId = none)
      (hlimit : limitReached cfg s invocation.runId = false)
      (hreserved : call.reserved = true) (hexisting : call.existing = false)
      (hwaiting : call.position.waiting = true) (hplans : KeepsPlans s.prepared plans)
      (hrisk : ∀ risk, call.position.risk? = some risk → Resolves cfg s call tool risk)
      (hdynamic : call.position = .resolving → ∀ level reversible sideEffect,
        tool.risk ≠ .static level reversible sideEffect) :
    Step cfg s (.start key kind invocation toolCallId aborted now) { s with
      prepared := plans, calls := s.calls.insert key call
      inFlightByRun := (s.reserveToolCall invocation.runId).inFlightByRun }
  | continues {key : Nat} {kind : CallKind} {invocation : Invocation} {toolCallId : String}
      {aborted : Bool} {now : Nat} {call : Call} {tool : Tool} {plans : PreparedRegistry}
      {row : ToolCall} (hkey : s.calls.lookup key = none)
      (hcall : Brought cfg kind invocation toolCallId call tool)
      (hrow : s.toolCalls.lookup toolCallId = some row)
      (hmatches : matchesExisting row invocation tool.id call.normalizedInput = true)
      (hdispatch : kind = .dispatch → row.state = .waitingForPermission)
      (hauthorize : kind = .authorize → row.state = .error → ∀ error, row.result ≠ some (.error error))
      (hreserved : call.reserved = false) (hexisting : call.existing = true)
      (hwaiting : call.position.waiting = true) (hplans : KeepsPlans s.prepared plans)
      (hrisk : ∀ risk, call.position.risk? = some risk → Resolves cfg s call tool risk)
      (hresolving : call.position = .resolving → tool.prepare = none)
      (hdynamic : call.position = .resolving → ∀ level reversible sideEffect,
        tool.risk ≠ .static level reversible sideEffect) :
    Step cfg s (.start key kind invocation toolCallId aborted now) { s with
      prepared := plans, calls := s.calls.insert key call }
  | replays {key : Nat} {kind : CallKind} {invocation : Invocation} {toolCallId : String}
      {aborted : Bool} {now : Nat} {call : Call} {answer : Answer} (hkey : s.calls.lookup key = none)
      (hid : call.toolCallId = toolCallId) :
    Step cfg s (.start key kind invocation toolCallId aborted now) { s with
      calls := s.calls.insert key { call with position := .returned answer } }
  -- a call that waits
  | waits {e : Event} {key : Nat} {call call' : Call} {tool : Tool} {plans : PreparedRegistry}
      (hcall : s.calls.lookup key = some call) (htool : call.tool = some tool)
      (hwaiting : call.position.waiting = true) (hsame : Same call call')
      (hwaiting' : call'.position.waiting = true) (hplans : KeepsPlans s.prepared plans)
      (hresolving : call'.position ≠ .resolving)
      (hrisk : ∀ risk, call'.position.risk? = some risk → call.position.risk? = some risk ∨
        (tool.prepare = none ∧ call.position = .resolving ∧ e = .riskAnswered key (.ok risk))) :
    Step cfg s e { s with prepared := plans, calls := s.calls.insert key call' }
  | prepares {e : Event} {key : Nat} {call : Call} {tool : Tool} {plan : PreparedToolInvocation}
      (hcall : s.calls.lookup key = some call) (htool : call.tool = some tool)
      (hposition : call.position = .resolving) (hprepare : tool.prepare.isSome = true)
      (hplan : s.prepared.lookup call.toolCallId = none) :
    Step cfg s e { s with
      prepared := s.prepared.insert call.toolCallId
        { identity := call.identity tool, input := call.normalizedInput, invocation := plan }
      calls := s.calls.insert key { call with position := .resolved (.ok plan.risk) } }
  | fails {e : Event} {key : Nat} {call call' : Call} {rows : Table String ToolCall}
      {plans : PreparedRegistry} {answer : Answer} (he : e.resumes = some key)
      (hcall : s.calls.lookup key = some call) (hlive : call.position.live = true)
      (hsame : Same call call') (hrows : FailedRows s.toolCalls call rows) (hplans : KeepsPlans s.prepared plans) :
    Step cfg s e { s with
      toolCalls := rows, prepared := plans, inFlightByRun := s.released call
      calls := s.calls.insert key { call' with position := .returned answer } }
  | answers {e : Event} {key : Nat} {call call' : Call} {answer : Answer}
      (hcall : s.calls.lookup key = some call) (hlive : call.position.live = true)
      (hsame : Same call call') :
    Step cfg s e { s with
      inFlightByRun := s.released call
      calls := s.calls.insert key { call' with position := .returned answer } }
  | requests {e : Event} {key : Nat} {call call' : Call} {tool : Tool} {risk : ResolvedToolRisk}
      {description : Except Thrown PermissionDescription} {row : ToolCall} {permission : Permission}
      {counters : Table String Nat} {answer : Answer} (he : e.resumes = some key)
      (hcall : s.calls.lookup key = some call)
      (htool : call.tool = some tool) (hposition : call.position = .described risk description)
      (hpermission : s.permissions.lookup call.toolCallId = none)
      (hrow : Stores s.toolCalls call .waitingForPermission row) (hid : permission.toolCallId = call.toolCallId)
      (hrisk : permission.risk = risk) (htoolId : permission.toolId = tool.id)
      (hstatus : permission.status = .pending) (hid' : call'.toolCallId = call.toolCallId)
      (hcounters : counters = s.released call ∨ counters = (s.releaseToolCall
        call.invocation.runId).inFlightByRun ∧ call.kind = .dispatch) :
    Step cfg s e { s with
      toolCalls := s.toolCalls.insert call.toolCallId row
      permissions := s.permissions.insert call.toolCallId permission
      inFlightByRun := counters
      calls := s.calls.insert key { call' with position := .returned answer }
      log := s.log ++ [.requested permission call.normalizedInput
        ((s.prepared.lookup call.toolCallId).map (·.invocation))] }
  -- the execution
  | executes {e : Event} {key : Nat} {call call' : Call} {tool : Tool} {risk : ResolvedToolRisk}
      {row : ToolCall} (hcall : s.calls.lookup key = some call) (htool : call.tool = some tool)
      (hkind : call.kind = .dispatch) (hposition : call.position = .resolved (.ok risk))
      (hsame : Same call call') (hposition' : call'.position = .executing)
      (hpermission : call'.permission = s.permissions.lookup call.toolCallId)
      (hbinds : ∀ permission, s.permissions.lookup call.toolCallId = some permission →
        permission.toolId = tool.id)
      (hrow : Stores s.toolCalls call .running row) :
    Step cfg s e { s with
      toolCalls := s.toolCalls.insert call.toolCallId row
      calls := s.calls.insert key call'
      executions := s.executions.insert key
        { tool, identity := call.identity tool, input := call.normalizedInput
          permission := call'.permission }
      log := s.log ++ [.executed call.toolCallId call.invocation.runId tool call.normalizedInput risk
        call'.permission] }
  | unavailable {e : Event} {key : Nat} {call call' : Call} {row : ToolCall}
      (hcall : s.calls.lookup key = some call) (hkind : call.kind = .dispatch)
      (hwaiting : call.position.waiting = true) (hsame : Same call call')
      (hlive : call'.position.live = true) (hwaiting' : call'.position.waiting = false)
      (hrow : Stores s.toolCalls call .running row) :
    Step cfg s e { s with
      toolCalls := s.toolCalls.insert call.toolCallId row, calls := s.calls.insert key call' }
  | settles {e : Event} {key : Nat} {call : Call} {output : Except Thrown ToolExecutionOutput}
      (hcall : s.calls.lookup key = some call) (hposition : call.position = .executing) :
    Step cfg s e { s with calls := s.calls.insert key { call with position := .executed output } }
  | completes {e : Event} {key : Nat} {call : Call} {output : Except Thrown ToolExecutionOutput}
      {row : ToolCall} {answer : Answer} (hcall : s.calls.lookup key = some call)
      (hposition : call.position = .executed output) (hrow : Stores s.toolCalls call .completed row)
      (hresult : row.result.isSome = true) :
    Step cfg s e { s with
      toolCalls := s.toolCalls.insert call.toolCallId row, inFlightByRun := s.released call
      calls := s.calls.insert key { call with position := .returned answer } }
  -- the tool and the user
  | proceeds {e : Event} {key : Nat} {execution : Execution} {plans : PreparedRegistry}
      {executions : Table Nat Execution} {input : BackendInput}
      (hexecution : s.executions.lookup key = some execution)
      (hplans : KeepsPlans s.prepared plans) (hexecutions : KeepsExecutions s.executions executions)
      (hinput : (execution.tool.prepare = none ∧ input = .input execution.input) ∨
        execution.tool.prepare.isSome = true ∧
          ∃ record, s.prepared.lookup execution.identity.toolCallId = some record ∧
            input = .plan record.invocation.planId) :
    Step cfg s e { s with
      prepared := plans, executions
      log := s.log ++ [.backendExecuted execution.identity.toolCallId execution.tool input
        execution.permission] }
  | background {e : Event} {plans : PreparedRegistry} {executions : Table Nat Execution}
      (hplans : KeepsPlans s.prepared plans) (hexecutions : KeepsExecutions s.executions executions) :
    Step cfg s e { s with prepared := plans, executions }
  | approves {toolCallId : String} {reason : Option String} {now : Nat} {permission : Permission}
      (hpermission : s.permissions.lookup toolCallId = some permission) :
    Step cfg s (.respond toolCallId true reason now) { s with
      permissions := s.permissions.insert toolCallId
        { permission with status := .approved, decisionReason := reason } }
  | denies {toolCallId : String} {reason : Option String} {now : Nat} {permission : Permission}
      {row row' : ToolCall} (hpermission : s.permissions.lookup toolCallId = some permission)
      (hrow : s.toolCalls.lookup toolCallId = some row) (hstate : row.state = .waitingForPermission)
      (hrow' : row'.state = .error) (hrunId : row'.runId = row.runId)
      (hresult : ∃ failure, row'.result = some (.error failure)) :
    Step cfg s (.respond toolCallId false reason now) { s with
      toolCalls := s.toolCalls.insert toolCallId row'
      permissions := s.permissions.insert toolCallId
        { permission with status := .denied, decisionReason := reason } }

variable {cfg : Config} {s s' : Core} {key : Nat} {call : Call} {tool : Tool}

/-! ### The start of a call -/

variable {now : Nat} {required : Except PreparedRegistry.PlanError PreparedToolInvocation}
  {risk : ResolvedToolRisk} {kind : CallKind} {invocation : Invocation}
  {toolCallId permissionId : String} {aborted accepted : Bool} {thrown : Thrown} {e : Event}
  {output : Except Thrown ToolExecutionOutput} {execution : Execution}

theorem exists_require_ok {compare : String → String → Ordering} {plans : PreparedRegistry}
    {identity : BackendToolExecutionIdentity} {input : JsonObject} {plan : PreparedToolInvocation}
    (h : PreparedRegistry.require compare plans identity input now = .ok plan) :
    ∃ record, plans.lookup identity.toolCallId = some record ∧
      sameJson compare record.input input = true ∧ record.invocation = plan := by
  unfold PreparedRegistry.require at h
  split at h
  · cases h
  · next record hrecord =>
    split_ifs at h with hconsumed hexpired hmismatch
    · obtain rfl := Except.ok.inj h
      simp only [ne_eq, not_or, not_not, Bool.not_eq_false] at hmismatch
      exact ⟨record, hrecord, hmismatch.2, rfl⟩

theorem waiting_planPosition (cfg : Config) (call : Call)
    (required : Except PreparedRegistry.PlanError PreparedToolInvocation) :
    (planPosition cfg call required).waiting = true := by
  unfold planPosition
  split
  · rfl
  · split
    · split
      · rfl
      · rfl
    · rfl

theorem exists_of_risk_planPosition (h : (planPosition cfg call required).risk? = some risk) :
    ∃ plan, required = .ok plan ∧ plan.risk = risk := by
  unfold planPosition at h
  split at h
  · exact ⟨_, rfl, Option.some.inj h⟩
  · split at h
    · split at h
      · cases h
      · cases h
    · cases h

theorem existing_of_planPosition (h : planPosition cfg call required = .resolving) : call.existing = false := by
  unfold planPosition at h
  split at h
  · cases h
  · split at h
    · next hmissing => exact hmissing.2
    · cases h

theorem waiting_riskPosition (cfg : Config) (s : Core) (call : Call) (tool : Tool) (now : Nat) :
    (riskPosition cfg s call tool now).waiting = true := by
  unfold riskPosition
  split
  · rfl
  · split
    · exact waiting_planPosition _ _ _
    · split
      · rfl
      · rfl

/-- What is known of a risk that is there at once. -/
theorem resolves_riskPosition (h : (riskPosition cfg s call tool now).risk? = some risk) :
    Resolves cfg s call tool risk := by
  unfold riskPosition at h
  unfold Resolves
  generalize tool.risk = declared at h ⊢
  cases declared with
  | static level reversible sideEffect => exact (Option.some.inj h).symm
  | dynamic =>
    dsimp only at h ⊢
    split at h
    · next hprepare =>
      obtain ⟨plan, hplan, rfl⟩ := exists_of_risk_planPosition h
      obtain ⟨record, hrecord, hinput, rfl⟩ := exists_require_ok hplan
      exact ⟨hprepare, record, hrecord, hinput, rfl⟩
    · split at h
      · cases h
      · cases h

/-- A declared risk is there at once. -/
theorem dynamic_of_riskPosition (h : riskPosition cfg s call tool now = .resolving) (level : ToolRiskLevel)
    (reversible : Bool) (sideEffect : ToolSideEffect) :
    tool.risk ≠ .static level reversible sideEffect := by
  intro hstatic
  simp only [riskPosition, hstatic] at h
  cases h

/-- A plan is prepared only for a new call. -/
theorem prepare_eq_none_of_riskPosition (h : riskPosition cfg s call tool now = .resolving)
    (hexisting : call.existing = true) :
    tool.prepare = none := by
  unfold riskPosition at h
  split at h
  · cases h
  · split at h
    · rw [existing_of_planPosition h] at hexisting
      cases hexisting
    · next hprepare => rwa [Option.not_isSome_iff_eq_none] at hprepare

/-- `#resolveRisk` up to its `await`. -/
theorem exists_resolveRisk_eq (cfg : Config) (s : Core) (key : Nat) (call : Call) (tool : Tool)
    (now : Nat) :
    ∃ plans, KeepsPlans s.prepared plans ∧ s.resolveRisk cfg key call tool now =
      { s with
        prepared := plans
        calls := s.calls.insert key { call with position := riskPosition cfg s call tool now } } := by
  refine ⟨_, ?_, rfl⟩
  split
  · exact .refl _
  · split
    · exact keepsPlans_afterRequire _ _ _
    · exact .refl _

/-- The counters after a call has given its reservation back. -/
theorem inFlight_released (s : Core) (call : Call) (other : String) :
    ((s.released call).lookup other).getD 0 =
      s.inFlight other - if call.reserved = true ∧ call.invocation.runId = other then 1 else 0 := by
  unfold released releaseReserved
  split
  · next hreserved =>
    simp only [releaseToolCall, hreserved, true_and]
    rcases eq_or_ne call.invocation.runId other with rfl | hne
    · rw [if_pos rfl]
      split
      · next hle =>
        rw [Table.lookup_erase, if_pos rfl]
        show 0 = _
        omega
      · rw [Table.lookup_insert, if_pos rfl]
        rfl
    · rw [if_neg hne]
      split
      · rw [Table.lookup_erase, if_neg hne.symm]
        rfl
      · rw [Table.lookup_insert, if_neg hne.symm]
        rfl
  · next hreserved =>
    rw [if_neg fun h ↦ hreserved h.1]
    rfl

/-- A reservation that is given back at once. -/
theorem inFlight_released_reserve (s : Core) (call : Call) (runId : String)
    (h : call.invocation.runId = runId) (hreserved : call.reserved = true) (other : String) :
    (((s.reserveToolCall runId).released call).lookup other).getD 0 = s.inFlight other := by
  rw [inFlight_released]
  simp only [hreserved, h, true_and, reserveToolCall, inFlight, Table.lookup_insert]
  rcases eq_or_ne runId other with rfl | hne
  · rw [if_pos rfl, if_pos rfl]
    rfl
  · rw [if_neg hne, if_neg hne.symm]
    rfl

section

variable (hkey : s.calls.lookup key = none)
include hkey

/-- A call that fails before it is reserved. -/
theorem step_fail_start (hid : call.toolCallId = toolCallId) (hinvocation : call.invocation = invocation)
    (hreserved : call.reserved = false) :
    Step cfg s (.start key kind invocation toolCallId aborted now) (s.fail cfg key call thrown now) := by
  obtain ⟨rows, plans, answer, hrows, hplans, heq⟩ := exists_fail_eq cfg s key call thrown now
  have hreleased : s.released call = s.inFlightByRun := by
    simp only [released, releaseReserved, hreserved]
    rfl
  rw [heq]
  exact .notStarted hkey hid hinvocation (fun _ ↦ by rw [hreleased]; rfl) hrows hplans

theorem step_startNew (hcall : Brought cfg kind invocation toolCallId call tool)
    (hrow : s.toolCalls.lookup toolCallId = none) (hreserved : call.reserved = false)
    (hexisting : call.existing = false) :
    Step cfg s (.start key kind invocation toolCallId aborted now)
      (s.startNew cfg key call tool aborted now) := by
  obtain rfl := hcall.toolCallId_eq
  obtain rfl := hcall.invocation_eq
  unfold startNew
  extract_lets runId reserved
  split
  · next hlimit =>
    obtain ⟨rows, plans, answer, hrows, hplans, heq⟩ := exists_fail_eq cfg
      { s with log := s.log ++ [Observation.refused call.toolCallId runId] } key call
      (error "TOOL_CALL_LIMIT_EXCEEDED" "Run tool-call limit has been reached.") now
    have hreleased : ({ s with log := s.log ++ [Observation.refused call.toolCallId runId] } :
        Core).released call = s.inFlightByRun := by
      simp only [released, releaseReserved, hreserved]
      rfl
    rw [heq, hreleased]
    exact .refused hkey hcall hrow hlimit hrows hplans
  · next hlimit =>
    rw [Bool.not_eq_true] at hlimit
    split
    · obtain ⟨rows, plans, answer, hrows, hplans, heq⟩ := exists_fail_eq cfg
        (s.reserveToolCall runId) key reserved
        (error "TOOL_EXECUTION_ABORTED" "Tool execution was aborted.") now
      rw [heq]
      exact .notStarted hkey rfl rfl
        (inFlight_released_reserve s reserved runId rfl rfl) hrows hplans
    · obtain ⟨plans, hplans, heq⟩ := exists_resolveRisk_eq cfg (s.reserveToolCall runId) key reserved
        tool now
      rw [heq]
      exact .begins hkey ⟨hcall.kind_eq, rfl, rfl, hcall.resolve_eq, hcall.tool_eq, hcall.parse_eq⟩ hrow
        hlimit rfl hexisting (waiting_riskPosition _ _ _ _ _) hplans
        (fun _ h ↦ resolves_riskPosition h) dynamic_of_riskPosition

theorem step_startExisting {row : ToolCall} (hcall : Brought cfg kind invocation toolCallId call tool)
    (hrow : s.toolCalls.lookup toolCallId = some row) (hreserved : call.reserved = false) :
    Step cfg s (.start key kind invocation toolCallId aborted now)
      (s.startExisting cfg key call tool row aborted now) := by
  obtain rfl := hcall.toolCallId_eq
  obtain rfl := hcall.invocation_eq
  unfold startExisting
  split
  · exact step_fail_start hkey rfl rfl hreserved
  · next hmatches =>
    rw [Bool.not_eq_false] at hmatches
    extract_lets found
    have hwaits (hdispatch : kind = .dispatch → row.state = .waitingForPermission)
        (hauthorize : kind = .authorize → row.state = .error →
          ∀ error, row.result ≠ some (.error error)) :
        Step cfg s (.start key kind call.invocation call.toolCallId aborted now)
          (s.resolveRisk cfg key found tool now) := by
      obtain ⟨plans, hplans, heq⟩ := exists_resolveRisk_eq cfg s key found tool now
      rw [heq]
      exact .continues hkey ⟨hcall.kind_eq, rfl, rfl, hcall.resolve_eq, hcall.tool_eq, hcall.parse_eq⟩
        hrow hmatches hdispatch hauthorize hreserved rfl (waiting_riskPosition _ _ _ _ _) hplans
        (fun _ h ↦ resolves_riskPosition h) (fun h ↦ prepare_eq_none_of_riskPosition h rfl)
        dynamic_of_riskPosition
    split
    · next hkind =>
      have hkind' : kind = .dispatch := hcall.kind_eq.symm.trans hkind
      split
      · exact .replays hkey rfl
      · split
        · exact step_fail_start hkey rfl rfl hreserved
        · next hstate =>
          rw [not_not] at hstate
          split
          · exact step_fail_start hkey rfl rfl hreserved
          · refine hwaits (fun _ ↦ hstate) fun h ↦ ?_
            rw [hkind'] at h
            cases h
    · next hkind =>
      have hkind' : kind = .authorize := hcall.kind_eq.symm.trans hkind
      split
      · exact .replays hkey rfl
      · next hne =>
        refine hwaits (fun h ↦ ?_) fun _ hstate failure hresult ↦ ?_
        · rw [hkind'] at h
          cases h
        · exact hne failure hstate hresult

theorem step_start :
    Step cfg s (.start key kind invocation toolCallId aborted now)
      (s.start cfg key kind invocation toolCallId aborted now) := by
  unfold start
  extract_lets call
  split
  · exact step_fail_start hkey rfl rfl rfl
  · next tool htool =>
    extract_lets resolved
    split
    · exact step_fail_start hkey rfl rfl rfl
    · next input hinput =>
      extract_lets parsed
      split
      · next hrow => exact step_startNew hkey ⟨rfl, rfl, rfl, htool, rfl, hinput⟩ hrow rfl rfl
      · next row hrow => exact step_startExisting hkey ⟨rfl, rfl, rfl, htool, rfl, hinput⟩ hrow rfl

end

/-! ### A call that waits -/

/-- A live call that fails. -/
theorem step_fail {call' : Call} (he : e.resumes = some key) (hcall : s.calls.lookup key = some call)
    (hlive : call.position.live = true) (hsame : Same call call') :
    Step cfg s e (s.fail cfg key call' thrown now) := by
  obtain ⟨rows, plans, answer, hrows, hplans, heq⟩ := exists_fail_eq cfg s key call' thrown now
  have hreleased : s.released call' = s.released call := by
    simp only [released, releaseReserved, hsame.reserved, hsame.invocation]
  have hrows' : FailedRows s.toolCalls call rows := by
    rcases hrows with rfl | ⟨row, hrow, hresult, rfl⟩
    · exact .inl rfl
    · refine .inr ⟨row, ⟨hrow.state, ?_⟩, hresult, by rw [hsame.toolCallId]⟩
      rw [hrow.runId, hsame.toolCallId, hsame.invocation]
  rw [heq, hreleased]
  exact .fails he hcall hlive hsame hrows' hplans

theorem live_of_waiting {position : Position} (h : position.waiting = true) : position.live = true := by
  cases position with
  | returned => cases h
  | _ => rfl

section

variable (hcall : s.calls.lookup key = some call) (htool : call.tool = some tool)
include hcall htool

theorem step_prepareAnswered {answer : Except Thrown PreparedToolInvocation}
    (hposition : call.position = .resolving) (hprepare : tool.prepare.isSome = true) :
    Step cfg s e (s.prepareAnswered key call tool answer) := by
  have hfailed (thrown : Thrown) :
      Step cfg s e (s.moveTo key call (.resolved (.error thrown))) := by
    refine .waits hcall htool (by rw [hposition]; rfl) ⟨rfl, rfl, rfl, rfl, rfl, rfl, rfl⟩ rfl
      (.refl s.prepared) ?_ ?_
    · intro h
      cases h
    · intro risk h
      cases h
  unfold prepareAnswered
  split
  · exact hfailed _
  · exact hfailed _
  · split
    · exact hfailed _
    · split
      · exact hfailed _
      · next hplan =>
        rw [Option.not_isSome_iff_eq_none] at hplan
        exact .prepares hcall htool hposition hprepare hplan

theorem step_riskAnswered {answer : Except Thrown ResolvedToolRisk} (hposition : call.position = .resolving)
    (hprepare : tool.prepare = none) :
    Step cfg s (.riskAnswered key answer) (s.riskAnswered key call tool answer) := by
  unfold riskAnswered
  refine .waits hcall htool (by rw [hposition]; rfl) ⟨rfl, rfl, rfl, rfl, rfl, rfl, rfl⟩ rfl
    (.refl s.prepared) ?_ ?_
  · intro h
    cases h
  · intro risk h
    refine .inr ⟨hprepare, hposition, ?_⟩
    dsimp only at h
    cases answer with
    | error thrown => cases h
    | ok risk' =>
      dsimp only at h
      split at h
      · rw [Option.some.inj h]
      · cases h

theorem step_describePermission {call' : Call} (hposition : call.position = .resolved (.ok risk))
    (hsame : Same call call') : Step cfg s e (s.describePermission cfg key call' tool risk now) := by
  have hwaits {plans : PreparedRegistry} {position : Position}
      (hplans : KeepsPlans s.prepared plans) (hwaiting : position.waiting = true)
      (hresolving : position ≠ .resolving) (hrisk : position.risk? = some risk) :
      Step cfg s e ({ s with prepared := plans }.moveTo key call' position) := by
    refine .waits hcall htool (by rw [hposition]; rfl)
      ⟨hsame.kind, hsame.invocation, hsame.toolCallId, hsame.tool, hsame.normalizedInput,
        hsame.existing, hsame.reserved⟩ hwaiting hplans hresolving ?_
    intro risk' h
    rw [hposition]
    exact .inl (hrisk.symm.trans h)
  unfold describePermission
  split
  · exact hwaits (keepsPlans_afterRequire _ _ _) rfl (fun h ↦ nomatch h) rfl
  · split
    · exact hwaits (.refl _) rfl (fun h ↦ nomatch h) rfl
    · exact hwaits (.refl _) rfl (fun h ↦ nomatch h) rfl

theorem step_execute {call' : Call} (hkind : call.kind = .dispatch)
    (hposition : call.position = .resolved (.ok risk)) (hsame : Same call call')
    (hpermission : call'.permission = s.permissions.lookup call.toolCallId)
    (hbinds : ∀ permission, s.permissions.lookup call.toolCallId = some permission →
      permission.toolId = tool.id) : Step cfg s e (s.execute cfg key call' tool risk now) := by
  unfold execute
  extract_lets begun stored
  obtain ⟨row, hrow, -, heq⟩ := exists_persist_eq s begun tool.id .running none none begun.permissionId
  have hstored : stored = { s with toolCalls := s.toolCalls.insert call.toolCallId row } := by
    rw [← hsame.toolCallId]
    exact heq
  have hrow' : Stores s.toolCalls call .running row := by
    refine ⟨hrow.state, hrow.runId.trans ?_⟩
    show ((s.toolCalls.lookup call'.toolCallId).map _).getD call'.invocation.runId = _
    rw [hsame.toolCallId, hsame.invocation]
  rw [hstored]
  split
  · exact .unavailable hcall hkind (by rw [hposition]; rfl)
      ⟨hsame.kind, hsame.invocation, hsame.toolCallId, hsame.tool, hsame.normalizedInput,
        hsame.existing, hsame.reserved⟩ rfl rfl hrow'
  · have hidentity : begun.identity tool = call.identity tool := by
      simp only [Call.identity, begun, hsame.invocation, hsame.toolCallId]
    have hid : begun.toolCallId = call.toolCallId := hsame.toolCallId
    have hrun : begun.invocation.runId = call.invocation.runId := by
      simp only [begun, hsame.invocation]
    have hinput : begun.normalizedInput = call.normalizedInput := hsame.normalizedInput
    rw [hidentity, hid, hrun, hinput]
    exact .executes hcall htool hkind hposition
      ⟨hsame.kind, hsame.invocation, hsame.toolCallId, hsame.tool, hsame.normalizedInput,
        hsame.existing, hsame.reserved⟩ rfl hpermission hbinds hrow'

end

/-- A live call that returns without writing. -/
theorem step_returns {call' : Call} {answer : Answer} (hcall : s.calls.lookup key = some call)
    (hlive : call.position.live = true) (hsame : Same call call') :
    Step cfg s e ((s.releaseReserved call').returns key call' answer) := by
  have hreleased : s.released call' = s.released call := by
    simp only [released, releaseReserved, hsame.reserved, hsame.invocation]
  rw [releaseReserved_eq, hreleased]
  exact .answers hcall hlive hsame

theorem fail_of_dispatch (h : call.kind = .dispatch) :
    s.failDispatch key call thrown now = s.fail cfg key call thrown now := by
  simp only [fail, h]

theorem fail_of_authorize (h : call.kind = .authorize) :
    s.failAuthorize cfg key call thrown now = s.fail cfg key call thrown now := by
  simp only [fail, h]

theorem toolId_of_bindsPermission {permission : Permission}
    (h : bindsPermission permission call tool = true) : permission.toolId = tool.id := by
  simp only [bindsPermission, decide_eq_true_eq] at h
  exact h.2.2.2.2

section

variable (he : e.resumes = some key) (hcall : s.calls.lookup key = some call) (htool : call.tool = some tool)
include he hcall htool

theorem step_dispatchResolved (hkind : call.kind = .dispatch) (hposition : call.position = .resolved (.ok risk)) :
    Step cfg s e (s.dispatchResolved cfg key call tool risk now) := by
  have hlive : call.position.live = true := by
    rw [hposition]
    rfl
  have hfail {call' : Call} {thrown : Thrown} (hsame : Same call call') :
      Step cfg s e (s.failDispatch key call' thrown now) := by
    rw [fail_of_dispatch (hsame.kind.trans hkind)]
    exact step_fail he hcall hlive hsame
  unfold dispatchResolved
  extract_lets authorized found
  have hauthorized : Same call authorized := ⟨rfl, rfl, rfl, rfl, rfl, rfl, rfl⟩
  have hfound : Same call found := ⟨rfl, rfl, rfl, rfl, rfl, rfl, rfl⟩
  split
  · exact hfail hauthorized
  · split
    · next permission hpermission =>
      extract_lets presented
      have hpresented : Same call presented := ⟨rfl, rfl, rfl, rfl, rfl, rfl, rfl⟩
      split
      · exact hfail hfound
      · next hbinds =>
        rw [Bool.not_eq_false] at hbinds
        split
        · exact step_returns hcall hlive hpresented
        · refine step_execute hcall htool hkind hposition hpresented rfl ?_
          intro permission' hpermission'
          obtain rfl := Option.some.inj (hpermission.symm.trans hpermission')
          exact toolId_of_bindsPermission hbinds
        · exact hfail hpresented
    · next hpermission =>
      split
      · exact step_describePermission hcall htool hposition hfound
      · exact hfail hfound
      · refine step_execute hcall htool hkind hposition hfound rfl ?_
        intro permission hpermission'
        cases hpermission.symm.trans hpermission'

theorem step_authorizeResolved (hkind : call.kind = .authorize)
    (hposition : call.position = .resolved (.ok risk)) :
    Step cfg s e (s.authorizeResolved cfg key call tool risk now) := by
  have hlive : call.position.live = true := by
    rw [hposition]
    rfl
  have hfail {call' : Call} {thrown : Thrown} (hsame : Same call call') :
      Step cfg s e (s.failAuthorize cfg key call' thrown now) := by
    rw [fail_of_authorize (hsame.kind.trans hkind)]
    exact step_fail he hcall hlive hsame
  unfold authorizeResolved
  extract_lets authorized answers
  have hauthorized : Same call authorized := ⟨rfl, rfl, rfl, rfl, rfl, rfl, rfl⟩
  have hanswers (authorization : RuntimeToolAuthorization) : Step cfg s e (answers authorization) :=
    step_returns hcall hlive hauthorized
  split
  · exact hfail hauthorized
  · split
    · split
      · exact hfail hauthorized
      · split
        · exact hanswers _
        · exact hanswers _
    · split
      · exact hanswers _
      · exact hanswers _
      · exact step_describePermission hcall htool hposition hauthorized

theorem step_resumeResolved {risk : Except Thrown ResolvedToolRisk} (hposition : call.position = .resolved risk) :
    Step cfg s e (s.resumeResolved cfg key call tool risk now) := by
  unfold resumeResolved
  split
  · exact step_fail he hcall (by rw [hposition]; rfl) (.refl call)
  · next hkind => exact step_dispatchResolved he hcall htool hkind hposition
  · next hkind => exact step_authorizeResolved he hcall htool hkind hposition

/-! ### The request and the execution -/

theorem step_resumeDescribed {description : Except Thrown PermissionDescription}
    (hposition : call.position = .described risk description) :
    Step cfg s e
      (s.resumeDescribed cfg key call tool risk description permissionId accepted now) := by
  have hlive : call.position.live = true := by
    rw [hposition]
    rfl
  unfold resumeDescribed
  split
  · exact step_fail he hcall hlive (.refl call)
  · next described =>
    extract_lets createdAt
    split
    · exact step_fail he hcall hlive (.refl call)
    · next requested permission hrequest =>
      unfold requestPermission at hrequest
      rw [Option.ite_none_left_eq_some] at hrequest
      obtain ⟨hfree, hrequest⟩ := hrequest
      obtain ⟨rfl, rfl⟩ := Prod.mk.inj (Option.some.inj hrequest)
      rw [not_or, Option.not_isSome_iff_eq_none] at hfree
      have hrow : Stores s.toolCalls call .waitingForPermission
          (s.storedRow (s.waitingToolCall call tool risk described permissionId createdAt)) :=
        ⟨(storedRow_state s _).1, storedRow_runId s _⟩
      split
      · next hkind =>
        exact .requests he hcall htool hposition hfree.2 hrow rfl rfl rfl rfl rfl (.inr ⟨rfl, hkind⟩)
      · rw [releaseReserved_eq]
        exact .requests he hcall htool hposition hfree.2 hrow rfl rfl rfl rfl rfl
          (.inl (released_congr rfl))

end

theorem step_resumeExecuted (he : e.resumes = some key) (hcall : s.calls.lookup key = some call)
    (hkind : call.kind = .dispatch) (hposition : call.position = .executed output) :
    Step cfg s e (s.resumeExecuted cfg key call tool output now) := by
  have hfail {thrown : Thrown} : Step cfg s e (s.failDispatch key call thrown now) := by
    rw [fail_of_dispatch hkind]
    exact step_fail he hcall (by rw [hposition]; rfl) (.refl call)
  unfold resumeExecuted
  split
  · exact hfail
  · split
    · exact hfail
    · extract_lets result stored
      obtain ⟨row, hrow, hresult, heq⟩ := exists_persist_eq s call tool.id .completed (some now)
        (some result) call.permissionId
      have hstored : stored = { s with toolCalls := s.toolCalls.insert call.toolCallId row } := heq
      have hreleased : stored.released call = s.released call := released_congr (by rw [hstored])
      rw [releaseReserved_eq, hreleased, hstored]
      exact .completes hcall hposition hrow (by rw [hresult]; rfl)

theorem keepsExecutions_insert {executions : Table Nat Execution} {execution' : Execution}
    (h : executions.lookup key = some execution) (htool : execution.tool = execution'.tool)
    (hidentity : execution.identity = execution'.identity) (hinput : execution.input = execution'.input)
    (hpermission : execution.permission = execution'.permission) :
    KeepsExecutions executions (executions.insert key execution') := by
  intro other found hfound
  rw [Table.lookup_insert] at hfound
  split at hfound
  · next heq =>
    obtain rfl := Option.some.inj hfound
    exact ⟨execution, heq ▸ h, htool, hidentity, hinput, hpermission⟩
  · exact ⟨found, hfound, rfl, rfl, rfl, rfl⟩

theorem KeepsExecutions.refl (executions : Table Nat Execution) :
    KeepsExecutions executions executions :=
  fun _ execution h ↦ ⟨execution, h, rfl, rfl, rfl, rfl⟩

theorem step_proceed (hexecution : s.executions.lookup key = some execution) :
    Step cfg s e (s.proceed cfg key execution now) := by
  have hproceeded : KeepsExecutions s.executions
      (s.executions.insert key { execution with proceeded := true }) :=
    keepsExecutions_insert hexecution rfl rfl rfl rfl
  unfold proceed
  split
  · exact .background (.refl _) (keepsExecutions_insert hexecution rfl rfl rfl rfl)
  · dsimp only
    split
    · next hprepare =>
      split
      · exact .background (keepsPlans_afterRequire _ _ _) hproceeded
      · next plan hplan =>
        obtain ⟨record, hrecord, -, rfl⟩ := exists_require_ok hplan
        exact .proceeds hexecution
          ((keepsPlans_afterRequire _ _ _).trans (keepsPlans_markConsumed _ _)) hproceeded
          (.inr ⟨hprepare, record, hrecord, rfl⟩)
    · next hprepare =>
      rw [Option.not_isSome_iff_eq_none] at hprepare
      exact .proceeds hexecution (.refl _) hproceeded (.inl ⟨hprepare, rfl⟩)

theorem step_proceedAnswered (hexecution : s.executions.lookup key = some execution) :
    Step cfg s e (s.proceedAnswered key execution output) := by
  unfold proceedAnswered
  split
  · exact .idle e
  · split
    · exact .idle e
    · exact .background (.refl _) (keepsExecutions_insert hexecution rfl rfl rfl rfl)

theorem step_respond (cfg : Config) (s : Core) (toolCallId : String) (approved : Bool)
    (reason : Option String) (now : Nat) :
    Step cfg s (.respond toolCallId approved reason now) (s.respond toolCallId approved reason now) := by
  unfold respond
  split
  · exact .idle _
  · next permission hpermission =>
    split
    · exact .idle _
    · split
      · next happroved =>
        subst happroved
        exact .approves hpermission
      · next happroved =>
        rw [Bool.not_eq_true] at happroved
        subst happroved
        split
        · exact .idle _
        · next row hrow =>
          split
          · exact .idle _
          · next hstate =>
            rw [not_not] at hstate
            extract_lets denied
            refine .denies hpermission hrow hstate (storedRow_state _ _).1 ?_ ?_
            · rw [storedRow_runId]
              show ((s.toolCalls.lookup toolCallId).map _).getD row.runId = row.runId
              rw [hrow]
              rfl
            · exact ⟨denied, (storedRow_state _ _).2⟩

/-! ### Every event -/

theorem step_resume (he : e.resumes = some key) (hcall : s.calls.lookup key = some call) :
    Step cfg s e (s.resume cfg key call permissionId accepted now) := by
  unfold resume
  split
  · next htool hposition => exact step_resumeResolved he hcall htool hposition
  · next htool hposition => exact step_resumeDescribed he hcall htool hposition
  · next hkind _ hposition => exact step_resumeExecuted he hcall hkind hposition
  · exact .idle e

theorem step_answer (e : Event) (hcall : s.calls.lookup key = some call)
    (hkey : ∀ other answer, e = .riskAnswered other answer → other = key) :
    Step cfg s e (s.answer cfg key call e) := by
  unfold answer
  split
  · next htool hposition =>
    split
    · next hprepare => exact step_prepareAnswered hcall htool hposition hprepare
    · exact .idle _
  · next htool hposition =>
    obtain rfl := hkey _ _ rfl
    split
    · exact .idle _
    · next hprepare =>
      rw [Option.not_isSome_iff_eq_none] at hprepare
      exact step_riskAnswered hcall htool hposition hprepare
  · next htool hposition =>
    refine .waits hcall htool (by rw [hposition]; rfl) ⟨rfl, rfl, rfl, rfl, rfl, rfl, rfl⟩ rfl
      (.refl s.prepared) ?_ ?_
    · intro h
      cases h
    · intro risk h
      rw [hposition]
      exact .inl h
  · next hposition => exact .settles hcall hposition
  · next hposition => exact .settles hcall hposition
  · exact .idle _

/-- **The list of steps is complete.** -/
theorem step_cases (cfg : Config) (e : Event) (s : Core) : Step cfg s e (step cfg e s) := by
  unfold step
  split
  · split
    · exact .idle _
    · next hkey =>
      rw [Option.not_isSome_iff_eq_none] at hkey
      exact step_start hkey
  · split
    · next hcall => exact step_resume rfl hcall
    · exact .idle _
  iterate 5
    · split
      · next hcall =>
        refine step_answer _ hcall fun other answer h ↦ ?_
        cases h
        try rfl
      · exact .idle _
  · split
    · next hexecution =>
      split
      · exact step_proceed hexecution
      · exact .idle _
    · exact .idle _
  · split
    · next hexecution =>
      split
      · exact step_proceedAnswered hexecution
      · exact .idle _
    · exact .idle _
  · exact step_respond cfg s _ _ _ _
  · exact .background (keepsPlans_filter _ _) (.refl _)

/-! ### The calls of an identifier -/

/-- A call of the identifier stands at a position of a kind. -/
def CallAt (p : Position → Bool) (calls : Table Nat Call) (id : String) (key : Nat) : Prop :=
  ∃ call, calls.lookup key = some call ∧ call.toolCallId = id ∧ p call.position = true

variable {p : Position → Bool} {calls : Table Nat Call} {id : String} {other : Nat} {call' : Call}

theorem callAt_insert :
    CallAt p (calls.insert key call) id other ↔
      if other = key then call.toolCallId = id ∧ p call.position = true else CallAt p calls id other := by
  unfold CallAt
  rw [Table.lookup_insert]
  split
  · simp
  · rfl

/-- A call that is not of the kind after the step. -/
theorem callAt_of_insert (h : p call.position = false) (hat : CallAt p (calls.insert key call) id other) :
    CallAt p calls id other := by
  rw [callAt_insert] at hat
  split at hat
  · rw [h] at hat
    cases hat.2
  · exact hat

/-- A call that is of the kind after the step as before it. -/
theorem callAt_of_insert_same (hcall : calls.lookup key = some call)
    (hid : call'.toolCallId = call.toolCallId) (hp : p call.position = true)
    (hat : CallAt p (calls.insert key call') id other) : CallAt p calls id other := by
  rw [callAt_insert] at hat
  split at hat
  · next heq =>
    subst heq
    exact ⟨call, hcall, hid.symm.trans hat.1, hp⟩
  · exact hat

end Core

end Tools
