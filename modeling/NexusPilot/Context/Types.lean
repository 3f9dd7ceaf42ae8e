import NexusPilot.Tools.Contracts

/-!
# Conversations and their checkpoints

The records of a conversation that the planner of its context reads: runs, messages with their parts, the
calls of tools and their Permissions, and the checkpoints, each of which holds a summary of the history up to
a cursor. A cursor stands after a finished run, or after a finished step of the run that is under way.

Tables are by primary key. A part has what the summary and the checks read of it; how many tokens a message
takes, how texts are cleaned of secrets and how a payload is hashed are arguments (`Config`).
-/

namespace Context

open Machine Tools

/-! ### Runs and messages -/

inductive RunStatus
  | queued | running | waitingForTool | waitingForPermission | completed | failed | interrupted
  deriving DecidableEq

/-- `TERMINAL_RUN_STATUSES`. -/
def RunStatus.terminal : RunStatus → Bool
  | .completed | .failed | .interrupted => true
  | _ => false

structure RunOutput where
  messageId : String
  partIds : List String
  deriving DecidableEq

structure Run where
  id : String
  conversationId : String
  parentRunId : Option String
  parentMessageId : Option String
  assistantMessageId : Option String
  status : RunStatus
  /-- `input.messageIds`. -/
  inputMessageIds : List String
  output : Option RunOutput
  deriving DecidableEq

inductive AssistantStatus
  | running | complete | incomplete | requiresAction | error
  deriving DecidableEq

/-- `TERMINAL_ASSISTANT_STATUSES`. -/
def AssistantStatus.terminal : AssistantStatus → Bool
  | .complete | .incomplete | .error => true
  | _ => false

/-- What the parts of each type hold. -/
inductive PartBody
  | text (text : String) (ignored : Bool)
  | reasoning (text : String) (redacted : Bool)
  | file (filename mediaType : String) (byteLength : Nat)
  | source (url : String)
  | tool (toolCallId toolName : String) (status : ToolState) (errorCode : Option String)
  | stepStart (stepIndex : Nat)
  | stepFinish (stepIndex : Nat)
  /-- Retries, compactions, diffs and errors. -/
  | other (type : String)
  deriving DecidableEq

structure Part where
  id : String
  conversationId : String
  messageId : String
  body : PartBody
  deriving DecidableEq

inductive Role
  /-- The active tab and its content, as texts. -/
  | user (activeTabContext activeTabContent : Option String)
  | assistant (runId parentId : String) (status : AssistantStatus)
  | system
  deriving DecidableEq

structure Message where
  id : String
  conversationId : String
  role : Role
  parts : List Part
  deriving DecidableEq

/-- The step that a part finishes. -/
def Part.finishes? (part : Part) : Option Nat :=
  match part.body with
  | .stepFinish stepIndex => some stepIndex
  | _ => none

/-! ### Tool calls and permissions -/

/-- `TERMINAL_TOOL_STATUSES`. -/
def terminalTool : ToolState → Bool
  | .completed | .error | .interrupted => true
  | _ => false

structure ToolCallRow where
  id : String
  conversationId : String
  runId : String
  messageId : String
  partId : Option String
  toolName : String
  state : ToolState
  permissionId : Option String
  deriving DecidableEq

structure PermissionRow where
  id : String
  conversationId : String
  runId : String
  messageId : String
  toolCallId : String
  status : PermissionStatus
  toolId : String
  deriving DecidableEq

/-! ### Checkpoints -/

/-- `ContextCoverageCursor`. -/
inductive CoverageCursor
  | run (throughRunId : String)
  | sealedStep (runId : String) (throughRequestIndex : Nat) (throughPartId : String)
  deriving DecidableEq

/-- `contextCoverageRunId`. -/
def CoverageCursor.runId : CoverageCursor → String
  | .run throughRunId => throughRunId
  | .sealedStep runId _ _ => runId

inductive Trigger
  | autoPreTurn | autoMidTurn | manual | providerOverflow | modelSwitch
  deriving DecidableEq

/-- The run and its two messages, as they are hashed. -/
structure LineageEntry where
  runId : String
  userMessageId : String
  assistantMessageId : String
  deriving DecidableEq

/-- What `computeContextLineageHash` and `computeContextCoverageHash` hash. -/
inductive Payload
  | lineage (entries : List LineageEntry)
  | sealedStep (entries : List LineageEntry) (entry : LineageEntry) (throughRequestIndex : Nat)
      (throughPartId : String) (parts : List Part)
  deriving DecidableEq

def contextCheckpointFormatVersion : String := "1"
def contextCheckpointCompatibilityVersion : Nat := 1
def runtimeSafetyStateVersion : String := "1"
def providerNeutralContextKind : String := "provider-neutral-text"

/-- A checkpoint; the commit refuses one whose cursor stands in another run than it names. -/
structure Checkpoint (D : Type) where
  id : String
  conversationId : String
  coverageThroughRunId : String
  coverageCursor : Option CoverageCursor
  runId_of_cursor : ∀ cursor, coverageCursor = some cursor → cursor.runId = coverageThroughRunId
  lineageHash : D
  parentCheckpointId : Option String
  trigger : Trigger
  formatVersion : String := contextCheckpointFormatVersion
  compatibilityKind : String := providerNeutralContextKind
  compatibilityVersion : Nat := contextCheckpointCompatibilityVersion
  safetyStateVersion : String := runtimeSafetyStateVersion
  /-- `budget.contextWindow`. -/
  contextWindow : Option Nat
  summary : String
  created : Nat

namespace Checkpoint

variable {D : Type}

/-- `resolveContextCoverageCursor`. -/
def cursor (checkpoint : Checkpoint D) : CoverageCursor :=
  checkpoint.coverageCursor.getD (.run checkpoint.coverageThroughRunId)

theorem runId_cursor (checkpoint : Checkpoint D) :
    checkpoint.cursor.runId = checkpoint.coverageThroughRunId := by
  unfold cursor
  obtain hnone | ⟨cursor, hsome⟩ := Option.eq_none_or_eq_some checkpoint.coverageCursor
  · rw [hnone]
    rfl
  · rw [hsome]
    exact checkpoint.runId_of_cursor cursor hsome

/-- The versions that the code can read. -/
def supported (checkpoint : Checkpoint D) : Bool :=
  checkpoint.formatVersion = contextCheckpointFormatVersion ∧
    checkpoint.compatibilityKind = providerNeutralContextKind ∧
    checkpoint.compatibilityVersion = contextCheckpointCompatibilityVersion ∧
    checkpoint.safetyStateVersion = runtimeSafetyStateVersion

end Checkpoint

/-! ### Snapshots -/

/-- `ContextPlannerSnapshot`. -/
structure Snapshot (D : Type) where
  conversationId : String
  activeHeadRunId : Option String := none
  runs : Table String Run := ∅
  messages : Table String Message := ∅
  toolCalls : Table String ToolCallRow := ∅
  permissions : Table String PermissionRow := ∅
  checkpoints : Table String (Checkpoint D) := ∅

/-- The parts of the service that do not change. -/
structure Config (D : Type) where
  /-- `sha256` of the canonical text of a payload. -/
  digest : Payload → D
  /-- `sanitizeContextSummaryText`. -/
  sanitize : String → String
  /-- `safeSourceUrl`. -/
  safeSourceUrl : String → Option String
  /-- `JSON.stringify` of a string. -/
  stringify : String → String
  localeCompare : String → String → Ordering := compare
  /-- `estimateMessagesTokens`. -/
  estimateMessagesTokens : List Message → Nat
  /-- `estimateTextTokens`. -/
  estimateTextTokens : String → Nat

namespace Snapshot

variable {D : Type} (s : Snapshot D)

/-- The user message of a run. -/
def user? (run : Run) : Option Message :=
  run.parentMessageId.bind fun id ↦ (s.messages.lookup id).filter fun message ↦
    match message.role with
    | .user .. => true
    | _ => false

/-- The assistant message of a run, with what its role says. -/
def assistant? (run : Run) : Option (Message × String × String × AssistantStatus) :=
  run.assistantMessageId.bind fun id ↦ (s.messages.lookup id).bind fun message ↦
    match message.role with
    | .assistant runId parentId status => some (message, runId, parentId, status)
    | _ => none

/-- `resolveSnapshotLineage`: the runs from the first one to a head, by their parents. The walk stops at a
run that is missing, of another conversation, or visited before. -/
def lineageFrom : Nat → String → List String → List Run → Option (List Run)
  | 0, _, _, _ => none
  | fuel + 1, current, visited, runs =>
    if current ∈ visited then none
    else
      match s.runs.lookup current with
      | none => none
      | some run =>
        if run.conversationId ≠ s.conversationId then none
        else
          match run.parentRunId with
          | none => some (run :: runs)
          | some parent => lineageFrom fuel parent (current :: visited) (run :: runs)

/-- The lineage of a head; no lineage is longer than the table of runs. -/
def lineage (headRunId : String) : Option (List Run) :=
  s.lineageFrom (s.runs.entries.length + 1) headRunId [] []

end Snapshot

end Context
