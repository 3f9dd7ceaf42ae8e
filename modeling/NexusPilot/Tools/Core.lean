import NexusPilot.Machine.Run
import NexusPilot.Tools.Contracts

/-!
# The tool core

`RuntimeToolCore` runs the tools of an agent: `authorize` says whether a call may run, and asks the user
if the policy wants it; `dispatch` runs it, at once or when it was approved. Both read the stored ToolCall,
resolve the risk, look for a Permission and record what happened in the store.

JavaScript runs a call without interruption from one `await` to the next, so a call is the position it
waits at with its local variables, and an event is a new call, the answer of a tool or of the backend,
or the continuation of a call whose promise is settled. An `await` of an `async` method is two
positions, for the promise inside and for the continuation outside: other calls may run between
the two. A tool keeps running when its call gave up on it, and may call `proceed` late.

`log` records what leaves the core: the executions, the permissions it asks for, and the calls that the
limit of the run refuses.
-/

namespace Tools

open Machine

/-- The parts of a core that do not change. -/
structure Config where
  /-- `registry.getCanonicalId`. -/
  getCanonicalId : String → Option String
  /-- `registry.getTool`; the registry files a tool under its own identifier. -/
  getTool : String → Option Tool
  id_of_getTool : ∀ {toolId : String} {tool : Tool}, getTool toolId = some tool → tool.id = toolId
  evaluatePolicy : Tool → ResolvedToolRisk → RunToolSnapshot → RuntimePolicyDecision :=
    fun _ risk snapshot ↦ defaultPolicy risk snapshot
  maxToolCallsPerRun : Nat := 32
  defaultTimeoutMs : Nat := 30000
  defaultMaxResultBytes : Nat := 64 * 1024
  /-- A backend executor is there. -/
  backendExecutor : Bool := true
  /-- The backend executor can prepare plans. -/
  backendPrepares : Bool := true
  localeCompare : String → String → Ordering := compare
  /-- `Buffer.byteLength(JSON.stringify(output))`. -/
  byteLength : ToolExecutionOutput → Nat

/-- A registry with one tool, which the provider knows by its identifier. -/
def Config.single (tool : Tool) (maxToolCallsPerRun : Nat) : Config where
  getCanonicalId name := if name = tool.id then some tool.id else none
  getTool id := if id = tool.id then some tool else none
  id_of_getTool {toolId found} h := by
    rw [Option.ite_none_right_eq_some] at h
    rw [← Option.some.inj h.2, h.1]
  maxToolCallsPerRun := maxToolCallsPerRun
  byteLength _ := 0

/-- The arguments of a call. -/
structure Invocation where
  conversationId : String
  runId : String
  messageId : String
  partId : Option String := none
  providerName : String
  input : Json
  snapshot : RunToolSnapshot
  deriving DecidableEq

/-- What `authorize` returns. -/
inductive RuntimeToolAuthorization
  | allow (risk : ResolvedToolRisk)
  | ask (risk : ResolvedToolRisk) (permission : Permission)
  | deny (risk : ResolvedToolRisk) (reason : String)
  | error (error : RuntimeToolError)
  deriving DecidableEq

/-- What a call returns. -/
inductive Answer
  | result (result : RuntimeToolResult)
  | authorization (authorization : RuntimeToolAuthorization)
  deriving DecidableEq

/-- The `await` that a call stands at. -/
inductive Position
  /-- In `#resolveRisk`, at `executor.prepare` or at `tool.resolveRisk`. -/
  | resolving
  /-- `await this.#resolveRisk(..)`, settled. -/
  | resolved (risk : Except Thrown ResolvedToolRisk)
  /-- In `#describePermission`, at `tool.describePermission`. -/
  | describing (risk : ResolvedToolRisk)
  /-- `await this.#describePermission(..)`, settled. -/
  | described (risk : ResolvedToolRisk) (description : Except Thrown PermissionDescription)
  /-- In `#execute`, at the race of the tool with its timeout. -/
  | executing
  /-- `await this.#execute(..)`, settled. -/
  | executed (output : Except Thrown ToolExecutionOutput)
  | returned (answer : Answer)
  deriving DecidableEq

namespace Position

/-- The call has not returned. -/
def live : Position → Bool
  | .returned _ => false
  | _ => true

/-- The call has neither returned nor begun to execute. -/
def waiting : Position → Bool
  | .resolving | .resolved _ | .describing _ | .described .. => true
  | _ => false

end Position

inductive CallKind
  | dispatch | authorize
  deriving DecidableEq

/-- A call of the core, with its local variables. -/
structure Call where
  kind : CallKind
  invocation : Invocation
  toolCallId : String
  /-- The tool, once it is resolved. -/
  tool : Option Tool := none
  normalizedInput : JsonObject := []
  /-- `existingToolCall !== null`. -/
  existing : Bool := false
  reserved : Bool := false
  permission : Option Permission := none
  authorization : Option ToolCallAuthorizationSnapshot := none
  created : Nat
  started : Option Nat := none
  position : Position

namespace Call

/-- `permission?.id`. -/
def permissionId (call : Call) : Option String :=
  call.permission.map (·.id)

/-- `executionIdentity`. -/
def identity (call : Call) (tool : Tool) : BackendToolExecutionIdentity where
  conversationId := call.invocation.conversationId
  runId := call.invocation.runId
  messageId := call.invocation.messageId
  toolCallId := call.toolCallId
  toolId := tool.id

end Call

/-- A tool at work, for as long as it may call `proceed`. -/
structure Execution where
  tool : Tool
  identity : BackendToolExecutionIdentity
  input : JsonObject
  permission : Option Permission
  proceeded : Bool := false
  proceedCalledMoreThanOnce : Bool := false
  /-- The answer of the backend, validated. -/
  proceededOutput : Option ToolExecutionOutput := none

/-- What the backend is asked to run. -/
inductive BackendInput
  | plan (planId : String)
  | input (input : JsonObject)
  deriving DecidableEq

/-- What leaves the core. -/
inductive Observation
  /-- `tool.execute`. -/
  | executed (toolCallId : String) (runId : String) (tool : Tool) (input : JsonObject)
      (risk : ResolvedToolRisk) (permission : Option Permission)
  /-- `executor.execute`. -/
  | backendExecuted (toolCallId : String) (tool : Tool) (input : BackendInput)
      (permission : Option Permission)
  /-- A Permission is requested, for an input and, for a prepared tool, a plan. -/
  | requested (permission : Permission) (input : JsonObject) (plan : Option PreparedToolInvocation)
  /-- The limit of the run refuses a new call. -/
  | refused (toolCallId : String) (runId : String)

/-- The core, its store, its registry of plans and its calls. -/
structure Core where
  toolCalls : Table String ToolCall := ∅
  /-- Permissions by the call they are for, which is unique in the store. -/
  permissions : Table String Permission := ∅
  inFlightByRun : Table String Nat := ∅
  prepared : PreparedRegistry := ∅
  calls : Table Nat Call := ∅
  executions : Table Nat Execution := ∅
  log : List Observation := []

namespace Core

/-! ### The store -/

/-- The row that `saveToolCall` leaves: a stored call keeps its identity and its first
authorization. -/
def storedRow (s : Core) (toolCall : ToolCall) : ToolCall :=
  match s.toolCalls.lookup toolCall.id with
  | none => toolCall
  | some row =>
    { toolCall with
      conversationId := row.conversationId
      runId := row.runId
      messageId := row.messageId
      toolName := row.toolName
      authorization := row.authorization.or toolCall.authorization }

/-- `saveToolCall`. -/
def saveToolCall (s : Core) (toolCall : ToolCall) : Core :=
  { s with toolCalls := s.toolCalls.insert toolCall.id (s.storedRow toolCall) }

/-- `listToolCallsByRun(runId).length`. -/
def countToolCallsByRun (s : Core) (runId : String) : Nat :=
  s.toolCalls.count fun row ↦ row.runId = runId

/-- `#persist`. -/
def persist (s : Core) (call : Call) (toolId : String) (state : ToolState)
    (completed : Option Nat) (result : Option RuntimeToolResult) (permissionId : Option String) :
    Core :=
  let existing := s.toolCalls.lookup call.toolCallId
  s.saveToolCall {
    id := call.toolCallId
    conversationId := call.invocation.conversationId
    runId := call.invocation.runId
    messageId := call.invocation.messageId
    partId := call.invocation.partId
    toolName := toolId
    input := redactEntries call.normalizedInput
    state
    authorization := (existing.bind (·.authorization)).or call.authorization
    permissionId
    result
    error := result.bind fun
      | .error error => some error
      | .ok _ => none
    time := { created := call.created, started := call.started, completed }
    metadata := {
      snapshotId := call.invocation.snapshot.snapshotId
      preparedPlan := existing.bind (·.metadata.preparedPlan) } }

/-! ### The limit of a run -/

def inFlight (s : Core) (runId : String) : Nat :=
  (s.inFlightByRun.lookup runId).getD 0

/-- `#reserveToolCall`, where the limit is not reached. -/
def reserveToolCall (s : Core) (runId : String) : Core :=
  { s with inFlightByRun := s.inFlightByRun.insert runId (s.inFlight runId + 1) }

/-- The test of `#reserveToolCall`. -/
def limitReached (cfg : Config) (s : Core) (runId : String) : Bool :=
  s.countToolCallsByRun runId + s.inFlight runId ≥ cfg.maxToolCallsPerRun

/-- `#releaseToolCall`. -/
def releaseToolCall (s : Core) (runId : String) : Core :=
  { s with
    inFlightByRun :=
      if s.inFlight runId ≤ 1 then s.inFlightByRun.erase runId
      else s.inFlightByRun.insert runId (s.inFlight runId - 1) }

/-- `if (reserved) this.#releaseToolCall(..)`. -/
def releaseReserved (s : Core) (call : Call) : Core :=
  if call.reserved then s.releaseToolCall call.invocation.runId else s

/-! ### The end of a call -/

/-- A call goes on to a position. -/
def moveTo (s : Core) (key : Nat) (call : Call) (position : Position) : Core :=
  { s with calls := s.calls.insert key { call with position } }

/-- A call returns. -/
def returns (s : Core) (key : Nat) (call : Call) (answer : Answer) : Core :=
  s.moveTo key call (.returned answer)

/-- The `catch` of `dispatch`, and its `finally`. -/
def failDispatch (s : Core) (key : Nat) (call : Call) (thrown : Thrown) (now : Nat) : Core :=
  let error := normalizeError thrown
  let stored :=
    match call.tool with
    | some tool =>
      s.persist call tool.id .error (some now) (some (.error error)) call.permissionId
    | none => s
  (stored.releaseReserved call).returns key call (.result (.error error))

/-- The `catch` of `authorize`, and its `finally`. -/
def failAuthorize (cfg : Config) (s : Core) (key : Nat) (call : Call) (thrown : Thrown) (now : Nat) :
    Core :=
  let error := normalizeError thrown
  let toolId := (call.tool.map (·.id)).or (cfg.getCanonicalId call.invocation.providerName)
  let stored :=
    match toolId with
    | some toolId =>
      let persisted := s.persist call toolId .error (some now) (some (.error error)) none
      { persisted with prepared := persisted.prepared.erase call.toolCallId }
    | none => s
  (stored.releaseReserved call).returns key call (.authorization (.error error))

/-- The `catch` of a call. -/
def fail (cfg : Config) (s : Core) (key : Nat) (call : Call) (thrown : Thrown) (now : Nat) : Core :=
  match call.kind with
  | .dispatch => s.failDispatch key call thrown now
  | .authorize => s.failAuthorize cfg key call thrown now

/-! ### From the start of a call to its risk -/

/-- An error of the core. -/
def error (code message : String) (retryable : Bool := false)
    (outcome : ToolExecutionOutcome := .notStarted) : Thrown :=
  .tool ⟨code, message, retryable, outcome, none⟩

/-- `#resolveActiveTool`. -/
def resolveActiveTool (cfg : Config) (invocation : Invocation) : Except Thrown Tool :=
  if invocation.snapshot.runId ≠ invocation.runId ∨ invocation.snapshot.frozen = false then
    .error (error "TOOL_SNAPSHOT_INVALID" "Tool snapshot does not belong to this run or is mutable.")
  else
    match invocation.snapshot.activeTools.find? (·.providerName = invocation.providerName) with
    | none => .error (error "TOOL_NOT_ACTIVE" "Provider tool is not active in this run.")
    | some active =>
      if cfg.getCanonicalId invocation.providerName ≠ some active.canonicalId then
        .error (error "TOOL_IDENTITY_INVALID"
          "Provider tool identity does not match the Runtime registry.")
      else
        match cfg.getTool active.canonicalId with
        | some tool => .ok tool
        | none => .error .other

/-- `parseObjectInput`. -/
def parseObjectInput (tool : Tool) (input : Json) : Option JsonObject :=
  match tool.inputSchema input with
  | some (.obj entries) => some entries
  | _ => none

/-- `assertExistingToolCall`. The input of the call is an argument that it does not use. -/
def matchesExisting (toolCall : ToolCall) (invocation : Invocation) (toolId : String)
    (_input : JsonObject) : Bool :=
  toolCall.conversationId = invocation.conversationId ∧ toolCall.runId = invocation.runId ∧
    toolCall.messageId = invocation.messageId ∧ toolCall.toolName = toolId ∧
    toolCall.metadata.snapshotId = invocation.snapshot.snapshotId ∧
    (invocation.partId = none ∨ toolCall.partId = invocation.partId)

/-- Where `#resolveRisk` gets to with a plan, or without one: it is prepared only for a new call. -/
def planPosition (cfg : Config) (call : Call) :
    Except PreparedRegistry.PlanError PreparedToolInvocation → Position
  | .ok plan => .resolved (.ok plan.risk)
  | .error planError =>
    if planError = .notFound ∧ call.existing = false then
      if cfg.backendExecutor ∧ cfg.backendPrepares then .resolving
      else
        .resolved <| .error <|
          error "BACKEND_PREPARE_UNAVAILABLE" "Backend prepare executor is not available." true
    else .resolved (.error (.tool planError.toError))

/-- Where `#resolveRisk` gets to before it waits: a declared risk and the risk of a plan are there at
once. -/
def riskPosition (cfg : Config) (s : Core) (call : Call) (tool : Tool) (now : Nat) : Position :=
  match tool.risk with
  | .static level reversible sideEffect => .resolved (.ok ⟨level, reversible, [sideEffect]⟩)
  | .dynamic .. =>
    if tool.prepare.isSome then
      planPosition cfg call <|
        PreparedRegistry.require cfg.localeCompare s.prepared (call.identity tool)
          call.normalizedInput now
    else if tool.resolvesRisk then .resolving
    else
      .resolved <| .error <|
        error "TOOL_RISK_RESOLUTION_FAILED" "Tool risk could not be resolved."

/-- `#resolveRisk`, up to its own `await`. Only a tool with a declared risk does not look for a plan. -/
def resolveRisk (cfg : Config) (s : Core) (key : Nat) (call : Call) (tool : Tool) (now : Nat) : Core :=
  { s with
    prepared :=
      match tool.risk with
      | .static .. => s.prepared
      | .dynamic .. =>
        if tool.prepare.isSome then PreparedRegistry.afterRequire s.prepared call.toolCallId now
        else s.prepared }.moveTo key call (riskPosition cfg s call tool now)

/-- A new call for which there is no stored call, and the limit of the run. -/
def startNew (cfg : Config) (s : Core) (key : Nat) (call : Call) (tool : Tool) (aborted : Bool)
    (now : Nat) : Core :=
  let runId := call.invocation.runId
  if limitReached cfg s runId then
    { s with log := s.log ++ [Observation.refused call.toolCallId runId] }.fail cfg key call
      (error "TOOL_CALL_LIMIT_EXCEEDED" "Run tool-call limit has been reached.") now
  else
    let reserved := { call with reserved := true }
    if aborted ∧ call.kind = .dispatch then
      (s.reserveToolCall runId).fail cfg key reserved
        (error "TOOL_EXECUTION_ABORTED" "Tool execution was aborted.") now
    else (s.reserveToolCall runId).resolveRisk cfg key reserved tool now

/-- A call for which there is a stored call. -/
def startExisting (cfg : Config) (s : Core) (key : Nat) (call : Call) (tool : Tool)
    (toolCall : ToolCall) (aborted : Bool) (now : Nat) : Core :=
  if matchesExisting toolCall call.invocation tool.id call.normalizedInput = false then
    s.fail cfg key call
      (error "TOOL_IDENTITY_INVALID" "Existing ToolCall does not match this Runtime invocation.") now
  else
    let call := { call with existing := true, created := toolCall.time.created }
    match call.kind with
    | .dispatch =>
      match toolCall.finished, toolCall.result with
      | true, some result => s.returns key call (.result result)
      | _, _ =>
        if toolCall.state ≠ .waitingForPermission then
          s.fail cfg key call
            (error "TOOL_CALL_NOT_EXECUTABLE"
              "Existing ToolCall is not available for permission continuation." false .unknown) now
        else if aborted then
          s.fail cfg key call
            (error "TOOL_EXECUTION_ABORTED" "Tool execution was aborted.") now
        else s.resolveRisk cfg key call tool now
    | .authorize =>
      match toolCall.state, toolCall.result with
      | .error, some (.error error) => s.returns key call (.authorization (.error error))
      | _, _ => s.resolveRisk cfg key call tool now

/-- `dispatch` and `authorize`, up to the first `await`. -/
def start (cfg : Config) (s : Core) (key : Nat) (kind : CallKind) (invocation : Invocation)
    (toolCallId : String) (aborted : Bool) (now : Nat) : Core :=
  let call : Call := { kind, invocation, toolCallId, created := now, position := .resolving }
  match resolveActiveTool cfg invocation with
  | .error thrown => s.fail cfg key call thrown now
  | .ok tool =>
    let call := { call with tool := some tool }
    match parseObjectInput tool invocation.input with
    | none =>
      s.fail cfg key call
        (error "TOOL_INPUT_INVALID" "Tool input does not match its input schema.") now
    | some input =>
      let call := { call with normalizedInput := input }
      match s.toolCalls.lookup toolCallId with
      | none => s.startNew cfg key call tool aborted now
      | some toolCall => s.startExisting cfg key call tool toolCall aborted now

/-! ### The answers about the risk -/

/-- `assertResolvedRiskBaseline`. -/
def withinBaseline (tool : Tool) (risk : ResolvedToolRisk) : Bool :=
  tool.risk.level.rank ≤ risk.level.rank ∧ risk.sideEffects.Nodup ∧
    tool.risk.sideEffect ∈ risk.sideEffects

def riskInvalid : Thrown :=
  error "TOOL_RISK_INVALID" "Resolved tool risk is lower than its registered baseline."

/-- `executor.prepare` is answered: `none` where it throws something that is not a tool error. -/
def prepareAnswered (s : Core) (key : Nat) (call : Call) (tool : Tool)
    (answer : Except Thrown PreparedToolInvocation) : Core :=
  match answer with
  | .error (.tool error) => s.moveTo key call (.resolved (.error (.tool error)))
  | .error .other =>
    s.moveTo key call <| .resolved <| .error <|
      error "TOOL_PREPARE_FAILED" "Tool invocation could not be prepared."
  | .ok plan =>
    if withinBaseline tool plan.risk = false then
      s.moveTo key call (.resolved (.error riskInvalid))
    else if (s.prepared.lookup call.toolCallId).isSome then
      -- `remember` throws an error that is not a tool error
      s.moveTo key call (.resolved (.error .other))
    else
      { s with
        prepared := s.prepared.insert call.toolCallId
          { identity := call.identity tool, input := call.normalizedInput, invocation := plan }
      }.moveTo key call (.resolved (.ok plan.risk))

/-- `tool.resolveRisk` is answered. -/
def riskAnswered (s : Core) (key : Nat) (call : Call) (tool : Tool)
    (answer : Except Thrown ResolvedToolRisk) : Core :=
  s.moveTo key call <| .resolved <|
    match answer with
    | .error _ => .error (error "TOOL_RISK_RESOLUTION_FAILED" "Tool risk could not be resolved.")
    | .ok risk => if withinBaseline tool risk then .ok risk else .error riskInvalid

/-! ### From the risk to the execution -/

/-- `assertWithinSnapshotCeiling`. -/
def withinCeiling (risk : ResolvedToolRisk) (snapshot : RunToolSnapshot) : Bool :=
  risk.level.rank ≤ snapshot.executionCeiling.maxRiskLevel.rank ∧
    (∀ effect ∈ risk.sideEffects, effect ∈ snapshot.executionCeiling.allowedSideEffects) ∧
    (snapshot.executionCeiling.allowIrreversible ∨ risk.reversible)

/-- `assertPermissionBinding`. -/
def bindsPermission (permission : Permission) (call : Call) (tool : Tool) : Bool :=
  permission.conversationId = call.invocation.conversationId ∧
    permission.runId = call.invocation.runId ∧ permission.messageId = call.invocation.messageId ∧
    permission.toolCallId = call.toolCallId ∧ permission.toolId = tool.id

def permissionRequiredResult : RuntimeToolResult :=
  .error ⟨"TOOL_PERMISSION_REQUIRED", "This tool call requires user permission.", false, .notStarted,
    none⟩

/-- `#execute`, up to the race. -/
def execute (cfg : Config) (s : Core) (key : Nat) (call : Call) (tool : Tool)
    (risk : ResolvedToolRisk) (now : Nat) : Core :=
  let call := { call with started := some now }
  let s := s.persist call tool.id .running none none call.permissionId
  if tool.executionTarget = .backend ∧ cfg.backendExecutor = false then
    s.moveTo key call <| .executed <| .error <|
      error "BACKEND_EXECUTOR_UNAVAILABLE" "Backend tool executor is not available." true
  else
    { s with
      executions := s.executions.insert key
        { tool, identity := call.identity tool, input := call.normalizedInput
          permission := call.permission }
      log := s.log ++ [Observation.executed call.toolCallId call.invocation.runId tool call.normalizedInput risk
        call.permission] }.moveTo key call .executing

/-- `#describePermission`, after the tool has described the call. -/
def describe (cfg : Config) (tool : Tool) (described : PermissionDescription) :
    Except Thrown PermissionDescription :=
  let given := described.presentation.getD {}
  let presentation : PermissionPresentation :=
    { given with
      timeoutMs := some (given.timeoutMs.getD (tool.timeoutMs.getD cfg.defaultTimeoutMs))
      maxResultBytes := given.maxResultBytes.or tool.maxResultBytes }
  let copies (text : Option String) (sql : String) : Bool :=
    text.any fun text ↦ decide (sql.toList <:+: text.toList)
  match given.sql with
  | some sql =>
    if sql.text ≠ "" ∧
        (copies described.inputSummary sql.text ∨ copies described.confirmationPrompt sql.text) then
      .error (error "TOOL_PERMISSION_DESCRIPTION_INVALID"
        "Raw SQL must not be copied into Permission summaries or confirmation prompts.")
    else .ok { described with presentation := some presentation }
  | none => .ok { described with presentation := some presentation }

/-- `#describePermission`, up to its own `await`. -/
def describePermission (cfg : Config) (s : Core) (key : Nat) (call : Call) (tool : Tool)
    (risk : ResolvedToolRisk) (now : Nat) : Core :=
  if tool.prepare.isSome then
    let required :=
      PreparedRegistry.require cfg.localeCompare s.prepared (call.identity tool) call.normalizedInput
        now
    { s with prepared := PreparedRegistry.afterRequire s.prepared call.toolCallId now }.moveTo key call <|
      .described risk <|
        match required with
        | .ok plan => describe cfg tool plan.permission
        | .error planError => .error (.tool planError.toError)
  else if tool.describesPermission then s.moveTo key call (.describing risk)
  else s.moveTo key call (.described risk (describe cfg tool {}))

/-- `dispatch`, from the risk to the description, the execution or the end. -/
def dispatchResolved (cfg : Config) (s : Core) (key : Nat) (call : Call) (tool : Tool)
    (risk : ResolvedToolRisk) (now : Nat) : Core :=
  let call := { call with authorization := some (createAuthorizationSnapshot risk none) }
  if withinCeiling risk call.invocation.snapshot = false then
    s.failDispatch key call
      (error "TOOL_EXECUTION_CEILING_EXCEEDED" "Tool risk exceeds this run's execution ceiling.") now
  else
    let call := { call with permission := s.permissions.lookup call.toolCallId }
    match s.permissions.lookup call.toolCallId with
    | some permission =>
      if bindsPermission permission call tool = false then
        s.failDispatch key call
          (error "TOOL_PERMISSION_BINDING_INVALID"
            "Tool Permission does not match this Runtime invocation.") now
      else
        let call :=
          { call with
            authorization := some (createAuthorizationSnapshot risk permission.presentation) }
        match permission.status with
        | .pending =>
          (s.releaseReserved call).returns key call (.result permissionRequiredResult)
        | .approved => s.execute cfg key call tool risk now
        | _ =>
          s.failDispatch key call
            (error "TOOL_PERMISSION_DENIED"
              (permission.decisionReason.getD "This tool call was not approved.")) now
    | none =>
      match cfg.evaluatePolicy tool risk call.invocation.snapshot with
      | .ask => s.describePermission cfg key call tool risk now
      | .deny =>
        s.failDispatch key call
          (error "TOOL_PERMISSION_DENIED" "This tool call is denied by Runtime policy.") now
      | .allow => s.execute cfg key call tool risk now

/-- `authorize`, from the risk to the description or the end. -/
def authorizeResolved (cfg : Config) (s : Core) (key : Nat) (call : Call) (tool : Tool)
    (risk : ResolvedToolRisk) (now : Nat) : Core :=
  let call := { call with authorization := some (createAuthorizationSnapshot risk none) }
  let returns (authorization : RuntimeToolAuthorization) : Core :=
    (s.releaseReserved call).returns key call (.authorization authorization)
  if withinCeiling risk call.invocation.snapshot = false then
    s.failAuthorize cfg key call
      (error "TOOL_EXECUTION_CEILING_EXCEEDED" "Tool risk exceeds this run's execution ceiling.") now
  else
    match s.permissions.lookup call.toolCallId with
    | some permission =>
      if bindsPermission permission call tool = false then
        s.failAuthorize cfg key call
          (error "TOOL_PERMISSION_BINDING_INVALID"
            "Tool Permission does not match this Runtime invocation.") now
      else if permission.status = .denied ∨ permission.status = .cancelled then
        returns (.deny risk (permission.decisionReason.getD "Tool call was not approved."))
      else returns (.ask risk permission)
    | none =>
      match cfg.evaluatePolicy tool risk call.invocation.snapshot with
      | .allow => returns (.allow risk)
      | .deny => returns (.deny risk "This tool call is denied by Runtime policy.")
      | .ask => s.describePermission cfg key call tool risk now

/-- The continuation of a call after its risk. -/
def resumeResolved (cfg : Config) (s : Core) (key : Nat) (call : Call) (tool : Tool)
    (risk : Except Thrown ResolvedToolRisk) (now : Nat) : Core :=
  match risk, call.kind with
  | .error thrown, _ => s.fail cfg key call thrown now
  | .ok risk, .dispatch => s.dispatchResolved cfg key call tool risk now
  | .ok risk, .authorize => s.authorizeResolved cfg key call tool risk now

/-! ### The request for a permission -/

/-- The Permission that a call asks for. -/
def newPermission (call : Call) (tool : Tool) (risk : ResolvedToolRisk)
    (description : PermissionDescription) (permissionId : String) (createdAt : Nat) : Permission where
  id := permissionId
  conversationId := call.invocation.conversationId
  runId := call.invocation.runId
  messageId := call.invocation.messageId
  toolCallId := call.toolCallId
  status := .pending
  toolId := tool.id
  title := tool.title
  inputSummary := description.inputSummary.filter (· ≠ "")
  risk := risk
  confirmation :=
    if risk.level = .critical then
      .strong (description.confirmationPrompt.getD s!"确认执行 {tool.title}（{tool.id}）")
    else .standard
  presentation := description.presentation
  createdAt := createdAt

/-- The call that waits for its Permission. -/
def waitingToolCall (s : Core) (call : Call) (tool : Tool) (risk : ResolvedToolRisk)
    (description : PermissionDescription) (permissionId : String) (createdAt : Nat) : ToolCall where
  id := call.toolCallId
  conversationId := call.invocation.conversationId
  runId := call.invocation.runId
  messageId := call.invocation.messageId
  partId := call.invocation.partId
  toolName := tool.id
  input := redactEntries call.normalizedInput
  state := .waitingForPermission
  authorization := some (createAuthorizationSnapshot risk description.presentation)
  permissionId := some permissionId
  time := { created := createdAt }
  metadata := {
    snapshotId := call.invocation.snapshot.snapshotId
    preparedPlan := tool.prepare.bind fun operation ↦
      (s.prepared.lookup call.toolCallId).map fun record ↦ ⟨operation, record.invocation.expiresAt⟩ }

/-- `#requestPermission` with `commitToolPermissionRequest`: the call and its Permission are stored
together, unless the call has a Permission already or the run does not take one (`accepted`). -/
def requestPermission (s : Core) (call : Call) (tool : Tool) (risk : ResolvedToolRisk)
    (description : PermissionDescription) (permissionId : String) (createdAt : Nat)
    (accepted : Bool) : Option (Core × Permission) :=
  if accepted = false ∨ (s.permissions.lookup call.toolCallId).isSome then none
  else
    let permission := newPermission call tool risk description permissionId createdAt
    let saved :=
      s.saveToolCall (s.waitingToolCall call tool risk description permissionId createdAt)
    some ({ saved with
      permissions := saved.permissions.insert call.toolCallId permission
      log := saved.log ++ [Observation.requested permission call.normalizedInput
        ((s.prepared.lookup call.toolCallId).map (·.invocation))] }, permission)

/-- The continuation of a call after the description of the Permission. -/
def resumeDescribed (cfg : Config) (s : Core) (key : Nat) (call : Call) (tool : Tool)
    (risk : ResolvedToolRisk) (description : Except Thrown PermissionDescription)
    (permissionId : String) (accepted : Bool) (now : Nat) : Core :=
  match description with
  | .error thrown => s.fail cfg key call thrown now
  | .ok description =>
    let createdAt :=
      match call.kind with
      | .dispatch => call.created
      | .authorize => now
    match s.requestPermission call tool risk description permissionId createdAt accepted with
    | none => s.fail cfg key call .other now
    | some (s, permission) =>
      match call.kind with
      | .dispatch =>
        -- here the reservation is released without looking whether there is one
        (s.releaseToolCall call.invocation.runId).returns key { call with reserved := false }
          (.result permissionRequiredResult)
      | .authorize => (s.releaseReserved call).returns key call (.authorization (.ask risk permission))

/-! ### The execution -/

/-- `validateAndFreezeOutput`; the envelope is excluded by the types. -/
def validateOutput (tool : Tool) (output : ToolExecutionOutput) : Except Thrown ToolExecutionOutput :=
  match tool.outputSchema output.data with
  | some data => .ok { output with data }
  | none =>
    .error (error "TOOL_OUTPUT_INVALID" "Tool returned data that does not match its output schema."
      false .unknown)

/-- `proceed`: what the backend is asked to run, and the plan that is used up. -/
def proceed (cfg : Config) (s : Core) (key : Nat) (execution : Execution) (now : Nat) : Core :=
  if execution.proceeded then
    { s with
      executions := s.executions.insert key { execution with proceedCalledMoreThanOnce := true } }
  else
    let s := { s with executions := s.executions.insert key { execution with proceeded := true } }
    let toolCallId := execution.identity.toolCallId
    if execution.tool.prepare.isSome then
      let required :=
        PreparedRegistry.require cfg.localeCompare s.prepared execution.identity execution.input now
      let s := { s with prepared := PreparedRegistry.afterRequire s.prepared toolCallId now }
      match required with
      | .error _ => s
      | .ok plan =>
        { s with
          prepared := PreparedRegistry.markConsumed s.prepared toolCallId
          log := s.log ++ [Observation.backendExecuted toolCallId execution.tool (.plan plan.planId)
            execution.permission] }
    else
      { s with
        log := s.log ++ [Observation.backendExecuted toolCallId execution.tool (.input execution.input)
          execution.permission] }

/-- The answer of the backend reaches the tool. -/
def proceedAnswered (s : Core) (key : Nat) (execution : Execution)
    (output : Except Thrown ToolExecutionOutput) : Core :=
  match output with
  | .error _ => s
  | .ok output =>
    match validateOutput execution.tool output with
    | .error _ => s
    | .ok output =>
      { s with
        executions := s.executions.insert key { execution with proceededOutput := some output } }

/-- The tool returns: `replaced` says that it is not the output of `proceed` that it returns. -/
def toolReturned (tool : Tool) (execution : Option Execution) (replaced : Bool)
    (output : Except Thrown ToolExecutionOutput) : Except Thrown ToolExecutionOutput :=
  match output with
  | .error thrown => .error thrown
  | .ok output =>
    match tool.executionTarget, execution with
    | .backend, some execution =>
      if execution.proceedCalledMoreThanOnce then
        .error (error "BACKEND_PROCEED_ALREADY_CALLED"
          "Backend Tool proceed() can only be called once." false .unknown)
      else if execution.proceeded = false then
        .error (error "BACKEND_PROCEED_NOT_CALLED" "Backend Tool execute() must call proceed().")
      else
        match replaced, execution.proceededOutput with
        | false, some proceeded => .ok proceeded
        | _, _ =>
          .error (error "BACKEND_EXECUTION_RESULT_REPLACED"
            "Backend Tool execute() must return the result from proceed()." false .unknown)
    | _, _ => validateOutput tool output

/-- The race is lost to a timeout or to the signal of the caller. -/
def abortError (timeout : Bool) : Thrown :=
  if timeout then error "TOOL_EXECUTION_TIMEOUT" "Tool execution timed out." true .unknown
  else error "TOOL_EXECUTION_ABORTED" "Tool execution was aborted." false .unknown

/-- The output as it is stored. -/
def safeOutput (output : ToolExecutionOutput) : ToolExecutionOutput :=
  { output with data := redactSecrets output.data }

/-- The continuation of `dispatch` after the execution. -/
def resumeExecuted (cfg : Config) (s : Core) (key : Nat) (call : Call) (tool : Tool)
    (output : Except Thrown ToolExecutionOutput) (now : Nat) : Core :=
  match output with
  | .error thrown => s.failDispatch key call thrown now
  | .ok output =>
    if cfg.byteLength (safeOutput output) > tool.maxResultBytes.getD cfg.defaultMaxResultBytes then
      s.failDispatch key call
        (error "TOOL_RESULT_TOO_LARGE" "Tool result exceeds the configured size limit." false .unknown)
        now
    else
      let result := RuntimeToolResult.ok (safeOutput output)
      let stored :=
        s.persist call tool.id .completed (some now) (some result) call.permissionId
      (stored.releaseReserved call).returns key call (.result result)

/-! ### The decision of the user -/

/-- `commitPermissionContinuation` for one pending Permission: a denied call is stored as failed. -/
def respond (s : Core) (toolCallId : String) (approved : Bool) (reason : Option String) (now : Nat) :
    Core :=
  match s.permissions.lookup toolCallId with
  | none => s
  | some permission =>
    if permission.status ≠ .pending then s
    else if approved then
      { s with
        permissions := s.permissions.insert toolCallId
          { permission with status := .approved, decisionReason := reason } }
    else
      match s.toolCalls.lookup toolCallId with
      | none => s
      | some toolCall =>
        if toolCall.state ≠ .waitingForPermission then s
        else
          let denied : RuntimeToolError :=
            ⟨"TOOL_PERMISSION_DENIED", reason.getD "User denied this tool call.", false, .notStarted,
              none⟩
          { s with
            permissions := s.permissions.insert toolCallId
              { permission with status := .denied, decisionReason := reason } }.saveToolCall
            { toolCall with
              id := toolCallId, state := .error, result := some (.error denied), error := some denied
              time := { toolCall.time with completed := some now } }

/-! ### Events -/

/-- What can happen between two `await`s. -/
inductive Event
  /-- A call; its key is new. -/
  | start (key : Nat) (kind : CallKind) (invocation : Invocation) (toolCallId : String)
      (aborted : Bool) (now : Nat)
  /-- The answers that `#resolveRisk` and `#describePermission` wait for. -/
  | prepareAnswered (key : Nat) (answer : Except Thrown PreparedToolInvocation)
  | riskAnswered (key : Nat) (answer : Except Thrown ResolvedToolRisk)
  | descriptionAnswered (key : Nat) (answer : Except Thrown PermissionDescription)
  /-- The continuation of a call whose promise is settled. -/
  | resume (key : Nat) (permissionId : String) (accepted : Bool) (now : Nat)
  /-- A tool at work. -/
  | proceed (key : Nat) (now : Nat)
  | proceedAnswered (key : Nat) (output : Except Thrown ToolExecutionOutput)
  | toolReturned (key : Nat) (replaced : Bool) (output : Except Thrown ToolExecutionOutput)
  | aborted (key : Nat) (timeout : Bool)
  /-- The user decides. -/
  | respond (toolCallId : String) (approved : Bool) (reason : Option String) (now : Nat)
  /-- The plans of a run are dropped when it ends. -/
  | clearRun (runId : String)

/-- A call whose promise is settled goes on. -/
def resume (cfg : Config) (s : Core) (key : Nat) (call : Call) (permissionId : String)
    (accepted : Bool) (now : Nat) : Core :=
  match call.kind, call.tool, call.position with
  | _, some tool, .resolved risk => s.resumeResolved cfg key call tool risk now
  | _, some tool, .described risk description =>
    s.resumeDescribed cfg key call tool risk description permissionId accepted now
  | .dispatch, some tool, .executed output => s.resumeExecuted cfg key call tool output now
  | _, _, _ => s

/-- The answer that a call waits for. -/
def answer (cfg : Config) (s : Core) (key : Nat) (call : Call) (e : Event) : Core :=
  match e, call.tool, call.position with
  | .prepareAnswered _ answer, some tool, .resolving =>
    if tool.prepare.isSome then s.prepareAnswered key call tool answer else s
  | .riskAnswered _ answer, some tool, .resolving =>
    if tool.prepare.isSome then s else s.riskAnswered key call tool answer
  | .descriptionAnswered _ answer, some tool, .describing risk =>
    s.moveTo key call (.described risk (answer.bind (describe cfg tool)))
  | .toolReturned _ replaced output, some tool, .executing =>
    s.moveTo key call (.executed (toolReturned tool (s.executions.lookup key) replaced output))
  | .aborted _ timeout, _, .executing => s.moveTo key call (.executed (.error (abortError timeout)))
  | _, _, _ => s

/-- One event. An event that does not fit the state does nothing. -/
def step (cfg : Config) (e : Event) (s : Core) : Core :=
  match e with
  | .start key kind invocation toolCallId aborted now =>
    if (s.calls.lookup key).isSome then s
    else s.start cfg key kind invocation toolCallId aborted now
  | .resume key permissionId accepted now =>
    match s.calls.lookup key with
    | some call => s.resume cfg key call permissionId accepted now
    | none => s
  | .prepareAnswered key _ | .riskAnswered key _ | .descriptionAnswered key _ | .toolReturned key _ _
  | .aborted key _ =>
    match s.calls.lookup key with
    | some call => s.answer cfg key call e
    | none => s
  | .proceed key now =>
    match s.executions.lookup key with
    | some execution =>
      if execution.tool.executionTarget = .backend then s.proceed cfg key execution now else s
    | none => s
  | .proceedAnswered key output =>
    match s.executions.lookup key with
    | some execution => if execution.proceeded then s.proceedAnswered key execution output else s
    | none => s
  | .respond toolCallId approved reason now => s.respond toolCallId approved reason now
  | .clearRun runId => { s with prepared := s.prepared.filter fun record ↦ record.identity.runId ≠ runId }

end Core

end Tools
