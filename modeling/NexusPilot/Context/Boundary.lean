import NexusPilot.Context.Types

/-!
# Where history may be cut

A summary may replace the history up to a cursor only when nothing before it can change any more: the runs are
terminal, their messages belong to them, every tool part has its terminal call and no Permission is pending.
Inside the run that is under way the same is asked of the steps up to a finished one. `sourceState` then takes
the runs between the parent checkpoint and the cursor as the source of the next summary.
-/

namespace Context

open Machine Tools

variable {D : Type}

/-! ### The source of a summary -/

/-- `safeShortText`. -/
def safeShortText (cfg : Config D) (value : String) : String :=
  String.ofList ((cfg.sanitize value).toList.take 128)

/-- `safeBasename`. -/
def safeBasename (cfg : Config D) (filename : String) : String :=
  let pieces := (filename.toList.splitOnP fun c ↦ c = '/' ∨ c = '\\').filter (· ≠ [])
  safeShortText cfg ((pieces.getLast?.map String.ofList).getD "attachment")

/-- The texts of the terminal states of a tool. -/
def toolStatusText : ToolState → String
  | .completed => "completed"
  | .error => "error"
  | .interrupted => "interrupted"
  | .pending => "pending"
  | .validating => "validating"
  | .waitingForPermission => "waiting_for_permission"
  | .running => "running"

/-- `summarizePart`. -/
def summarizePart (cfg : Config D) (part : Part) : Option String :=
  match part.body with
  | .text text ignored => if ignored then none else some (cfg.sanitize text)
  | .reasoning text redacted =>
    if redacted then some "[Redacted reasoning]"
    else if text ≠ "" then some ("[Reasoning]\n" ++ cfg.sanitize text)
    else none
  | .file filename mediaType byteLength =>
    some ("[Attachment metadata: filename=" ++ cfg.stringify (safeBasename cfg filename) ++ "; mediaType=" ++
      cfg.stringify (safeShortText cfg mediaType) ++ "; byteLength=" ++ toString byteLength ++ "]")
  | .tool _ toolName status _ =>
    if terminalTool status then
      some ("[Tool attempt: name=" ++ cfg.stringify (safeShortText cfg toolName) ++ "; status=" ++
        cfg.stringify (toolStatusText status) ++ "]")
    else none
  | .source url => (cfg.safeSourceUrl url).map fun url ↦ "[Source URL: " ++ url ++ "]"
  | _ => none

structure CanonicalPart where
  partId : String
  body : PartBody
  content : String
  deriving DecidableEq

/-- A part as it stands in the source of a summary; a part without content is left out. -/
def canonicalizePart (cfg : Config D) (part : Part) : Option CanonicalPart :=
  match summarizePart cfg part with
  | some content => if content = "" then none else some ⟨part.id, part.body, content⟩
  | none => none

/-- The parts of `canonicalizeMessage`. -/
def canonicalizeParts (cfg : Config D) (parts : List Part) : List CanonicalPart :=
  parts.filterMap (canonicalizePart cfg)

structure CanonicalMessage where
  messageId : String
  parts : List CanonicalPart
  activeTabContext : Option String := none
  activeTabContent : Option String := none
  deriving DecidableEq

/-- `canonicalizeMessage`. -/
def canonicalizeMessage (cfg : Config D) (message : Message) : CanonicalMessage where
  messageId := message.id
  parts := canonicalizeParts cfg message.parts
  activeTabContext :=
    match message.role with
    | .user context _ => context.map cfg.sanitize
    | _ => none
  activeTabContent :=
    match message.role with
    | .user _ content => content
    | _ => none

/-- A run with its two messages. -/
structure CanonicalPair where
  runId : String
  user : CanonicalMessage
  assistant : CanonicalMessage
  deriving DecidableEq

/-- One pair of `canonicalizeContextSummarySource`, for the parts of the assistant that are taken. -/
def canonicalizePair (cfg : Config D) (s : Snapshot D) (run : Run) (taken : List Part → List Part) :
    Option CanonicalPair :=
  match s.user? run, s.assistant? run with
  | some user, some (assistant, runId, parentId, _) =>
    if run.conversationId = s.conversationId ∧ user.conversationId = s.conversationId ∧
        assistant.conversationId = s.conversationId ∧ runId = run.id ∧ parentId = user.id ∧
        user.id ∈ run.inputMessageIds then
      some ⟨run.id, canonicalizeMessage cfg user,
        canonicalizeMessage cfg { assistant with parts := taken assistant.parts }⟩
    else none
  | _, _ => none

/-- `canonicalizeContextSummarySource`. The last run may be taken in part. -/
def canonicalizeSource (cfg : Config D) (s : Snapshot D) (runs : List Run)
    (last : Option (Run × (List Part → List Part))) : Option (List CanonicalPair) := do
  let pairs ← runs.mapM fun run ↦ canonicalizePair cfg s run id
  match last with
  | none => some pairs
  | some (run, taken) =>
    let pair ← canonicalizePair cfg s run taken
    some (pairs ++ [pair])

/-! ### Covered runs -/

/-- `isProviderValidationErrorWithoutToolCall`. -/
def validationError (status : ToolState) (errorCode : Option String) : Bool :=
  status = .error ∧ errorCode = some "VALIDATION_ERROR"

/-- A tool part and its call: nothing where the two do not fit, else the call, if there is one. -/
def matchToolPart (s : Snapshot D) (find : String → Option ToolCallRow) (run : Run) (assistant : Message)
    (part : Part) : Option (Option String) :=
  match part.body with
  | .tool toolCallId toolName status errorCode =>
    if terminalTool status = false then none
    else
      match find toolCallId with
      | none => if validationError status errorCode then some none else none
      | some toolCall =>
        if toolCall.conversationId = s.conversationId ∧ toolCall.runId = run.id ∧
            toolCall.messageId = assistant.id ∧ toolCall.partId = some part.id ∧
            toolCall.toolName = toolName ∧ toolCall.state = status then
          some (some toolCall.id)
        else none
  | _ => some none

/-- The calls that the tool parts have, if each part fits its call. -/
def matchedToolCalls (s : Snapshot D) (find : String → Option ToolCallRow) (run : Run) (assistant : Message)
    (parts : List Part) : Option (List String) :=
  (parts.mapM (matchToolPart s find run assistant)).map fun found ↦ found.filterMap id

/-- `terminalRunOutputMatchesAssistant`. -/
def outputMatches (run : Run) (assistant : Message) : Bool :=
  match run.output with
  | none => run.status = .failed
  | some output => output.messageId = assistant.id ∧ output.partIds = assistant.parts.map (·.id)

def ownParts (s : Snapshot D) (message : Message) (parts : List Part) : Bool :=
  parts.all fun part ↦ part.conversationId = s.conversationId ∧ part.messageId = message.id

/-- The part is in the output of the run, if there is one. -/
def inOutput (run : Run) (part : Part) : Bool :=
  match run.output with
  | none => true
  | some output => part.id ∈ output.partIds

/-- The call of a tool in the conversation. -/
def ownToolCall (s : Snapshot D) (toolCallId : String) : Option ToolCallRow :=
  (s.toolCalls.lookup toolCallId).filter fun toolCall ↦ toolCall.conversationId = s.conversationId

/-- The checks of one run in `analyzeContextCoverageBoundary`. -/
def coveredRunSafe (s : Snapshot D) (run : Run) : Bool :=
  run.status.terminal &&
    match s.user? run, s.assistant? run with
    | some user, some (assistant, runId, parentId, status) =>
      decide (user.conversationId = s.conversationId ∧ user.id ∈ run.inputMessageIds ∧
        assistant.conversationId = s.conversationId ∧ runId = run.id ∧ parentId = user.id ∧
        status.terminal = true ∧ outputMatches run assistant = true ∧
        ownParts s user user.parts = true ∧ ownParts s assistant assistant.parts = true) &&
      (assistant.parts.all fun part ↦
        match part.body with
        | .tool .. => inOutput run part
        | _ => true) &&
      match matchedToolCalls s (ownToolCall s) run assistant assistant.parts with
      | none => false
      | some matched =>
        (s.toolCalls.entries.all fun entry ↦
          decide (entry.2.conversationId = s.conversationId ∧ entry.2.runId = run.id →
            entry.2.id ∈ matched ∧ terminalTool entry.2.state = true)) &&
        s.permissions.entries.all fun entry ↦
          if entry.2.conversationId = s.conversationId ∧ entry.2.runId = run.id then
            match ownToolCall s entry.2.toolCallId with
            | none => false
            | some toolCall =>
              entry.2.status ≠ .pending ∧ toolCall.runId = run.id ∧ entry.2.messageId = toolCall.messageId ∧
                entry.2.toolId = toolCall.toolName ∧ toolCall.permissionId = some entry.2.id
          else true
    | _, _ => false

/-- `isContextCoverageBoundarySafe`. -/
def boundarySafe (s : Snapshot D) (lineage : List Run) (coverageIndex : Nat) : Bool :=
  decide (coverageIndex < lineage.length) && (lineage.take (coverageIndex + 1)).all (coveredRunSafe s)

/-! ### Finished steps of the run under way -/

/-- The steps of a prefix are opened and closed in turn, none later than the cursor. -/
def stepsClosed (through : Nat) : Option Nat → List Part → Bool
  | openStep, [] => openStep.isNone
  | openStep, part :: parts =>
    match part.body with
    | .stepStart stepIndex =>
      openStep.isNone && decide (stepIndex ≤ through) && stepsClosed through (some stepIndex) parts
    | .stepFinish stepIndex => decide (openStep = some stepIndex) && stepsClosed through none parts
    | _ => stepsClosed through openStep parts

/-- `isCurrentRunSealedStepSafe`. -/
def sealedStepSafe (s : Snapshot D) (run : Run) (throughRequestIndex : Nat) (throughPartId : String) :
    Bool :=
  decide (run.conversationId = s.conversationId) &&
    match s.user? run, s.assistant? run with
    | some user, some (assistant, runId, parentId, _) =>
      decide (user.conversationId = s.conversationId ∧ user.id ∈ run.inputMessageIds ∧
        assistant.conversationId = s.conversationId ∧ runId = run.id ∧ parentId = user.id) &&
      match assistant.parts.findIdx? (·.id = throughPartId) with
      | none => false
      | some boundaryIndex =>
        let boundary := assistant.parts[boundaryIndex]?
        let covered := assistant.parts.take (boundaryIndex + 1)
        decide (boundary.bind Part.finishes? = some throughRequestIndex) &&
        ownParts s assistant covered && covered.all (inOutput run) &&
        stepsClosed throughRequestIndex none covered &&
        match matchedToolCalls s s.toolCalls.lookup run assistant covered with
        | none => false
        | some matched =>
          (s.toolCalls.entries.all fun entry ↦
            decide (entry.2.runId = run.id ∧ (∃ part ∈ covered, entry.2.partId = some part.id) →
              entry.2.id ∈ matched)) &&
          s.permissions.entries.all fun entry ↦
            match s.toolCalls.lookup entry.2.toolCallId with
            | some toolCall =>
              decide (entry.2.runId = run.id ∧ toolCall.id ∈ matched →
                entry.2.status ≠ .pending ∧ entry.2.messageId = toolCall.messageId ∧
                  entry.2.toolId = toolCall.toolName ∧ toolCall.permissionId = some entry.2.id)
            | none => true
    | _, _ => false

/-- `isContextCoverageCursorSafe`. -/
def cursorSafe (s : Snapshot D) (lineage : List Run) (cursor : CoverageCursor) : Bool :=
  match lineage.findIdx? (·.id = cursor.runId) with
  | none => false
  | some coverageIndex =>
    match cursor with
    | .run _ => boundarySafe s lineage coverageIndex
    | .sealedStep _ throughRequestIndex throughPartId =>
      decide (coverageIndex + 1 = lineage.length) &&
        (decide (coverageIndex = 0) || boundarySafe s lineage (coverageIndex - 1)) &&
        match lineage[coverageIndex]? with
        | some run => sealedStepSafe s run throughRequestIndex throughPartId
        | none => false

/-- The finished steps of an assistant before a request, latest first. -/
def sealedStepCandidates (parts : List Part) (beforeRequestIndex : Nat) : List (Nat × String) :=
  (parts.filterMap fun part ↦
    part.finishes?.bind fun stepIndex ↦
      if stepIndex < beforeRequestIndex then some (stepIndex, part.id) else none).mergeSort
    fun left right ↦ decide (right.1 ≤ left.1)

/-- `findLatestSafeSealedStepCursor`. -/
def findLatestSafeSealedStepCursor (s : Snapshot D) (lineage : List Run) (beforeRequestIndex : Nat) :
    Option CoverageCursor :=
  lineage.getLast?.bind fun run ↦ (s.assistant? run).bind fun assistant ↦
    ((sealedStepCandidates assistant.1.parts beforeRequestIndex).map fun candidate ↦
      CoverageCursor.sealedStep run.id candidate.1 candidate.2).find? (cursorSafe s lineage)

/-! ### The source state -/

/-- The parts of the run of a finished step that a summary takes: those up to the step, after the step of
the parent where that is one of the same run. -/
def takenParts (parent : Option CoverageCursor) (runId : String) (throughPartId : String)
    (parts : List Part) : List Part :=
  let after :=
    match parent with
    | some (.sealedStep parentRunId _ parentPartId) =>
      if parentRunId = runId then
        match parts.findIdx? (·.id = parentPartId) with
        | some index => index + 1
        | none => 0
      else 0
    | _ => 0
  match parts.findIdx? (·.id = throughPartId) with
  | some index => (parts.take (index + 1)).drop after
  | none => []

/-- The parent stands before the cursor, as `computeContextCoverageSourceState` sees it: in an earlier
run, or at an earlier step where both are steps of one run. -/
def parentBefore (parentIndex : Option Nat) (parent : Option CoverageCursor) (coverageIndex : Nat)
    (cursor : CoverageCursor) : Bool :=
  match parentIndex with
  | none => true
  | some parentIndex =>
    decide (parentIndex < coverageIndex) ||
      (decide (parentIndex = coverageIndex) &&
        match parent, cursor with
        | some (.sealedStep _ parentStep _), .sealedStep _ step _ => decide (parentStep < step)
        | _, _ => false)

/-- `computeContextCoverageSourceState`: the source of the summary, if it is safe. The hash that the commit
compares is left out: here a checkpoint is committed on the snapshot it was made from. -/
def sourceState (cfg : Config D) (s : Snapshot D) (lineage : List Run) (coverageIndex : Nat)
    (cursor : CoverageCursor) (parent : Option (Checkpoint D)) : Option (List CanonicalPair) :=
  let safe :=
    match cursor with
    | .run _ => boundarySafe s lineage coverageIndex
    | .sealedStep .. => cursorSafe s lineage cursor
  let parentIndex := parent.bind fun parent ↦ lineage.findIdx? (·.id = parent.coverageThroughRunId)
  let parentCursor := parent.map Checkpoint.cursor
  if safe && parentBefore parentIndex parentCursor coverageIndex cursor then
    let start :=
      match parentIndex with
      | some index => index + 1
      | none => 0
    match cursor with
    | .run _ => canonicalizeSource cfg s ((lineage.take (coverageIndex + 1)).drop start) none
    | .sealedStep runId _ throughPartId =>
      match lineage[coverageIndex]? with
      | some run =>
        canonicalizeSource cfg s ((lineage.take coverageIndex).drop start)
          (some (run, takenParts parentCursor runId throughPartId))
      | none => none
  else none

end Context
