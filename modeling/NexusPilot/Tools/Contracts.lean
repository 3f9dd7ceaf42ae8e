import Mathlib.Data.List.Infix
import NexusPilot.Machine.Table
import NexusPilot.Text.Json

/-!
# Tools, calls and permissions

The records of the tool runtime: what a registered tool declares, the snapshot of the tools of a run, the
stored ToolCall and Permission, and the registry of prepared plans. What TypeScript checks at run time
because a value may not have its declared type (a risk level that does not exist, a side effect that is
not a string of the list) is excluded by the types here.

A plain object is the list of its entries. Tools, schemas, the policy and the comparison of keys are
arguments; nothing depends on what they compute.
-/

namespace Tools

open Machine

/-! ### Risks -/

inductive ToolRiskLevel
  | low | medium | high | critical
  deriving DecidableEq

/-- `RISK_RANK`. -/
def ToolRiskLevel.rank : ToolRiskLevel → Nat
  | .low => 0
  | .medium => 1
  | .high => 2
  | .critical => 3

inductive ToolSideEffect
  | none | externalNetwork | runtimeState | workbenchState | businessRead | businessWrite | destructive
  deriving DecidableEq

structure ResolvedToolRisk where
  level : ToolRiskLevel
  reversible : Bool
  sideEffects : List ToolSideEffect
  deriving DecidableEq

/-- The declared risk of a tool: fixed, or a lower bound of what is resolved for each call. -/
inductive ToolRiskDefinition
  | static (level : ToolRiskLevel) (reversible : Bool) (sideEffect : ToolSideEffect)
  /-- No value for `reversible` is `"conditional"`. -/
  | dynamic (level : ToolRiskLevel) (reversible : Option Bool) (sideEffect : ToolSideEffect)
  deriving DecidableEq

namespace ToolRiskDefinition

def level : ToolRiskDefinition → ToolRiskLevel
  | .static level _ _ | .dynamic level _ _ => level

def sideEffect : ToolRiskDefinition → ToolSideEffect
  | .static _ _ sideEffect | .dynamic _ _ sideEffect => sideEffect

end ToolRiskDefinition

/-! ### Results -/

inductive ToolExecutionOutcome
  | notStarted | noEffect | unknown
  deriving DecidableEq

/-- An error of a tool; its code is open, since tools throw codes of their own. -/
structure RuntimeToolError where
  code : String
  message : String
  retryable : Bool
  outcome : ToolExecutionOutcome
  details : Option Json := none
  deriving DecidableEq

structure ToolExecutionOutput where
  summary : String
  data : Json
  warnings : Option (List String) := none
  deriving DecidableEq

inductive RuntimeToolResult
  | ok (output : ToolExecutionOutput)
  | error (error : RuntimeToolError)
  deriving DecidableEq

/-- What a JavaScript `throw` carries: a typed error, or anything else. -/
inductive Thrown
  | tool (error : RuntimeToolError)
  | other
  deriving DecidableEq

/-! ### Redaction -/

/-- The key names of a secret (`SENSITIVE_KEY`, which ignores case). -/
def sensitiveKey (key : String) : Bool :=
  ["password", "passwd", "secret", "token", "authorization", "apikey", "api_key", "api-key"].any
    fun word ↦ decide (word.toList <:+: key.toList.map Char.toLower)

mutual

/-- `redactSecrets`. -/
def redactSecrets : Json → Json
  | .arr items => .arr (redactItems items)
  | .obj entries => .obj (redactEntries entries)
  | value => value

def redactItems : List Json → List Json
  | [] => []
  | item :: items => redactSecrets item :: redactItems items

/-- `redactSecrets` of the entries of an object. -/
def redactEntries : List (String × Json) → List (String × Json)
  | [] => []
  | (key, value) :: entries =>
    (key, if sensitiveKey key then .str "[REDACTED]" else redactSecrets value) ::
      redactEntries entries

end

/-- A plain object. -/
abbrev JsonObject := List (String × Json)

/-- `normalizeError`. -/
def normalizeError : Thrown → RuntimeToolError
  | .tool error =>
    -- only details that are an object are kept
    { error with
      details :=
        match error.details with
        | some (.obj entries) => some (.obj (redactEntries entries))
        | _ => none }
  | .other => ⟨"TOOL_EXECUTION_FAILED", "Tool execution failed.", false, .unknown, none⟩

/-! ### Tools and snapshots -/

inductive ToolExecutionTarget
  | runtime | backend
  deriving DecidableEq

/-- A registered tool. -/
structure Tool where
  id : String
  title : String
  /-- `inputSchema.safeParse`. -/
  inputSchema : Json → Option Json
  /-- `outputSchema.safeParse`. -/
  outputSchema : Json → Option Json
  executionTarget : ToolExecutionTarget
  risk : ToolRiskDefinition
  /-- The operation that prepares a plan. -/
  prepare : Option String := none
  /-- Whether the tool has a `resolveRisk`. -/
  resolvesRisk : Bool := false
  /-- Whether the tool has a `describePermission`. -/
  describesPermission : Bool := false
  timeoutMs : Option Nat := none
  maxResultBytes : Option Nat := none
  /-- `validateToolDefinition`: a tool with a declared risk prepares nothing. -/
  prepare_of_static : ∀ level reversible sideEffect, risk = .static level reversible sideEffect →
    prepare = none := by intros; rfl

structure RunToolExecutionCeiling where
  maxRiskLevel : ToolRiskLevel
  allowedSideEffects : List ToolSideEffect
  allowIrreversible : Bool
  deriving DecidableEq

structure ActiveRunTool where
  canonicalId : String
  providerName : String
  deriving DecidableEq

/-- The limit of the risks that are approved without asking; no value is `"none"`. -/
abbrev AutoApproveMaxRisk := Option ToolRiskLevel

structure RunToolSnapshot where
  snapshotId : String
  runId : String
  /-- `isDeeplyFrozenSnapshot`. -/
  frozen : Bool := true
  executionCeiling : RunToolExecutionCeiling
  /-- `approvalPolicy?.autoApproveMaxRisk`. -/
  autoApproveMaxRisk : Option AutoApproveMaxRisk := none
  activeTools : List ActiveRunTool
  deriving DecidableEq

inductive RuntimePolicyDecision
  | allow | ask | deny
  deriving DecidableEq

/-- `defaultPolicy`. -/
def defaultPolicy (risk : ResolvedToolRisk) (snapshot : RunToolSnapshot) : RuntimePolicyDecision :=
  if risk.level = .high ∨ risk.level = .critical then .ask
  else
    match snapshot.autoApproveMaxRisk.getD (some .low) with
    | none => .ask
    | some .medium => .allow
    | some _ => if risk.level = .low then .allow else .ask

/-! ### Permissions -/

structure PermissionSqlPresentation where
  text : String
  identifiedTargets : Option (List String) := none
  deriving DecidableEq

structure PermissionKeyValuePresentation where
  key : String
  newKey : Option String := none
  deriving DecidableEq

structure PermissionPresentation where
  target : Option Json := none
  sql : Option PermissionSqlPresentation := none
  keyValue : Option PermissionKeyValuePresentation := none
  timeoutMs : Option Nat := none
  maxResultBytes : Option Nat := none
  deriving DecidableEq

/-- What a tool says of a call to the user who is asked about it. -/
structure PermissionDescription where
  inputSummary : Option String := none
  confirmationPrompt : Option String := none
  presentation : Option PermissionPresentation := none
  deriving DecidableEq

inductive PermissionStatus
  | pending | approved | denied | cancelled
  deriving DecidableEq

/-- The confirmation that is asked for: a click, or a text to be typed. -/
inductive PermissionConfirmation
  | standard
  | strong (prompt : String)
  deriving DecidableEq

structure Permission where
  id : String
  conversationId : String
  runId : String
  messageId : String
  toolCallId : String
  status : PermissionStatus
  toolId : String
  title : String
  inputSummary : Option String
  risk : ResolvedToolRisk
  confirmation : PermissionConfirmation
  presentation : Option PermissionPresentation
  decisionReason : Option String := none
  createdAt : Nat
  deriving DecidableEq

/-! ### Calls -/

/-- The part of a presentation that is kept with a call. -/
structure AuthorizationPresentation where
  target : Option Json
  identifiedTargets : Option (List String)
  keyValue : Option PermissionKeyValuePresentation
  deriving DecidableEq

structure ToolCallAuthorizationSnapshot where
  risk : ResolvedToolRisk
  presentation : Option AuthorizationPresentation
  deriving DecidableEq

/-- `createAuthorizationSnapshot`; a presentation with nothing to keep is left out. -/
def createAuthorizationSnapshot (risk : ResolvedToolRisk)
    (presentation : Option PermissionPresentation) : ToolCallAuthorizationSnapshot where
  risk := risk
  presentation := presentation.bind fun p ↦
    let stable : AuthorizationPresentation :=
      ⟨p.target, p.sql.bind (·.identifiedTargets),
        p.keyValue.map fun keyValue ↦ { keyValue with newKey := keyValue.newKey.filter (· ≠ "") }⟩
    if stable = ⟨none, none, none⟩ then none else some stable

inductive ToolState
  | pending | validating | waitingForPermission | running | completed | error | interrupted
  deriving DecidableEq

structure ToolCallTime where
  created : Nat
  started : Option Nat := none
  completed : Option Nat := none
  deriving DecidableEq

structure PreparedPlanLinkMetadata where
  prepareOperation : String
  expiresAt : Nat
  deriving DecidableEq

structure ToolCallMetadata where
  snapshotId : String
  preparedPlan : Option PreparedPlanLinkMetadata := none
  deriving DecidableEq

/-- A stored call of a tool. -/
structure ToolCall where
  id : String
  conversationId : String
  runId : String
  messageId : String
  partId : Option String
  toolName : String
  input : JsonObject
  state : ToolState
  authorization : Option ToolCallAuthorizationSnapshot := none
  permissionId : Option String := none
  result : Option RuntimeToolResult := none
  error : Option RuntimeToolError := none
  time : ToolCallTime
  metadata : ToolCallMetadata
  deriving DecidableEq

/-- The call is completed or failed, and has a result. -/
def ToolCall.finished (call : ToolCall) : Bool :=
  (call.state = .completed ∨ call.state = .error) && call.result.isSome

/-! ### Prepared plans -/

structure BackendToolExecutionIdentity where
  conversationId : String
  runId : String
  messageId : String
  toolCallId : String
  toolId : String
  deriving DecidableEq

/-- A plan that the backend has prepared for one call. -/
structure PreparedToolInvocation where
  planId : String
  expiresAt : Nat
  risk : ResolvedToolRisk
  permission : PermissionDescription
  deriving DecidableEq

structure PreparedInvocationRecord where
  identity : BackendToolExecutionIdentity
  input : JsonObject
  invocation : PreparedToolInvocation
  consumed : Bool := false
  deriving DecidableEq

/-- `PreparedToolInvocationRegistry`. -/
abbrev PreparedRegistry := Table String PreparedInvocationRecord

/-- Equality up to the order of entries, `sameJson`. -/
def sameJson (localeCompare : String → String → Ordering) (left right : JsonObject) : Bool :=
  (Json.obj left).canonicalize localeCompare = (Json.obj right).canonicalize localeCompare

namespace PreparedRegistry

inductive PlanError
  | notFound | expired | alreadyConsumed | mismatch
  deriving DecidableEq

/-- `normalizePreparedPlanError`. -/
def PlanError.toError : PlanError → RuntimeToolError
  | .notFound => ⟨"PLAN_NOT_FOUND", "Prepared plan was not found.", false, .notStarted, none⟩
  | .expired => ⟨"PLAN_EXPIRED", "Prepared plan has expired.", false, .notStarted, none⟩
  | .alreadyConsumed =>
    ⟨"PLAN_ALREADY_CONSUMED", "Prepared plan was already consumed.", false, .notStarted, none⟩
  | .mismatch =>
    ⟨"PLAN_MISMATCH", "Prepared plan does not match this ToolCall or input.", false, .notStarted, none⟩

/-- `require`: the plan of a call, if it is there, unused, in time and made for this input. -/
def require (localeCompare : String → String → Ordering) (plans : PreparedRegistry)
    (identity : BackendToolExecutionIdentity) (input : JsonObject) (now : Nat) :
    Except PlanError PreparedToolInvocation :=
  match plans.lookup identity.toolCallId with
  | none => .error .notFound
  | some record =>
    if record.consumed then .error .alreadyConsumed
    else if record.invocation.expiresAt ≤ now then .error .expired
    else if record.identity ≠ identity ∨ sameJson localeCompare record.input input = false then
      .error .mismatch
    else .ok record.invocation

/-- What `require` leaves: an expired plan is removed. -/
def afterRequire (plans : PreparedRegistry) (toolCallId : String) (now : Nat) : PreparedRegistry :=
  match plans.lookup toolCallId with
  | some record =>
    if record.consumed = false ∧ record.invocation.expiresAt ≤ now then plans.erase toolCallId
    else plans
  | none => plans

/-- `markConsumed`. -/
def markConsumed (plans : PreparedRegistry) (toolCallId : String) : PreparedRegistry :=
  match plans.lookup toolCallId with
  | some record => plans.insert toolCallId { record with consumed := true }
  | none => plans

end PreparedRegistry

end Tools
