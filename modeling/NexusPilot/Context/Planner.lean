import Mathlib.Algebra.Order.Floor.Ring
import Mathlib.Data.Rat.Floor
import NexusPilot.Context.Boundary
import NexusPilot.Machine.Lists

/-!
# The plan of a request

`planContextWindow` decides what a model request sees of its conversation: all of it while that fits, else a
checkpoint with the runs after it. Where there is no such checkpoint it asks for a new one, through the latest
finished step of the run under way or the last run that may be covered. `compactionSource` is what the
compaction service makes of that: it picks the parent checkpoint and takes what comes after it as the source.

Throwing is `none`. Ratios are exact numbers, so that a threshold is a floor.
-/

namespace Context

open Machine Tools

variable {D : Type} [DecidableEq D]

/-! ### Hashes and positions -/

def lineageEntry (run : Run) : Option LineageEntry := do
  let userMessageId ← run.parentMessageId
  let assistantMessageId ← run.assistantMessageId
  some ⟨run.id, userMessageId, assistantMessageId⟩

/-- `computeContextCoverageHash`; for a run it is `computeContextLineageHash`. -/
def coverageHash (cfg : Config D) (s : Snapshot D) (lineage : List Run) (cursor : CoverageCursor) :
    Option D := do
  let index ← lineage.findIdx? (·.id = cursor.runId)
  match cursor with
  | .run _ =>
    let entries ← (lineage.take (index + 1)).mapM lineageEntry
    some (cfg.digest (.lineage entries))
  | .sealedStep _ throughRequestIndex throughPartId =>
    let run ← lineage[index]?
    let entry ← lineageEntry run
    let assistant ← s.assistant? run
    let partIndex ← assistant.1.parts.findIdx? (·.id = throughPartId)
    if (assistant.1.parts[partIndex]?).bind Part.finishes? = some throughRequestIndex then
      let entries ← (lineage.take index).mapM lineageEntry
      some (cfg.digest
        (.sealedStep entries entry throughRequestIndex throughPartId (assistant.1.parts.take (partIndex + 1))))
    else none

def maxSafeInteger : Nat := 9007199254740991

/-- `cursorPosition`. -/
def cursorPosition (lineage : List Run) (cursor : CoverageCursor) : Option (Nat × Nat) :=
  (lineage.findIdx? (·.id = cursor.runId)).map fun index ↦
    (index,
      match cursor with
      | .run _ => maxSafeInteger
      | .sealedStep _ throughRequestIndex _ => throughRequestIndex)

/-- `compareCursorPositions(left, right) < 0`. -/
def positionBefore (left right : Nat × Nat) : Bool :=
  left.1 < right.1 ∨ (left.1 = right.1 ∧ left.2 < right.2)

/-- The loop of `isContextCheckpointParentChainUsable`. -/
def chainUsable (cfg : Config D) (s : Snapshot D) (lineage : List Run) (conversationId : String) :
    Nat → Checkpoint D → List String → Bool
  | 0, _, _ => false
  | fuel + 1, child, visited =>
    match child.parentCheckpointId with
    | none => true
    | some parentId =>
      match s.checkpoints.lookup parentId with
      | none => false
      | some parent =>
        if parent.id ∈ visited then false
        else if parent.conversationId ≠ conversationId ∨ parent.supported = false then false
        else
          match cursorPosition lineage child.cursor, cursorPosition lineage parent.cursor with
          | some childPosition, some parentPosition =>
            positionBefore parentPosition childPosition &&
              (match parent.cursor with
              | .run _ => decide (coverageHash cfg s lineage parent.cursor = some parent.lineageHash)
              | .sealedStep .. => true) &&
              chainUsable cfg s lineage conversationId fuel parent (parent.id :: visited)
          | _, _ => false

/-- `isContextCheckpointParentChainUsable`; the chain of parents is no longer than the table. -/
def parentChainUsable (cfg : Config D) (s : Snapshot D) (lineage : List Run) (checkpoint : Checkpoint D) :
    Bool :=
  chainUsable cfg s lineage checkpoint.conversationId (s.checkpoints.entries.length + 2) checkpoint
    [checkpoint.id]

/-! ### The planner -/

/-- What a request asks of the planner. -/
structure Request where
  runId : String
  requestIndex : Nat
  contextWindow : Option Nat
  trigger : Trigger
  minRawRuns : Nat
  softTriggerRatio : Rat
  targetRatio : Rat
  /-- The output reserve, the margin, the system prompt and the schemas of the tools. -/
  fixedTokens : Nat
  safetyStateTokens : Nat
  /-- `retainedModelInput?.estimatedTokens`. -/
  retainedTokens : Nat := 0
  /-- `retainedModelInput?.fromRequestIndex`. -/
  retainedFromRequestIndex : Option Nat := none
  excludeAssistantMessageId : Option String := none
  providerOverflowCheckpointId : Option String := none

structure PlannerInput (D : Type) extends Request where
  snapshot : Snapshot D

inductive Plan
  | contextWindowUnavailable
  | rawWithinBudget
  | rawCompactionBlocked
  | checkpointSelected (checkpointId : String)
  | compactionRequired (cursor : CoverageCursor)
  deriving DecidableEq

/-- `assertPlannerInput`, as far as types do not exclude it. -/
def validInput (input : PlannerInput D) : Bool :=
  input.snapshot.activeHeadRunId = some input.runId ∧ input.requestIndex ≤ maxSafeInteger ∧
    (input.providerOverflowCheckpointId.isSome → input.trigger = .providerOverflow) ∧
    0 < input.softTriggerRatio ∧ input.softTriggerRatio ≤ 1 ∧ 0 < input.targetRatio ∧
    input.targetRatio < input.softTriggerRatio ∧ 1 ≤ input.minRawRuns

/-- The two messages of a run in `resolveActiveLineage`. -/
def messagesOfRun (s : Snapshot D) (run : Run) : Option (Message × Message) :=
  match s.user? run, s.assistant? run with
  | some user, some (assistant, runId, parentId, _) =>
    if user.conversationId = s.conversationId ∧ assistant.conversationId = s.conversationId ∧
        runId = run.id ∧ parentId = user.id then
      some (user, assistant)
    else none
  | _, _ => none

/-- `messagesForRuns`. -/
def messagesForRuns (input : PlannerInput D) (runs : List Run) : Option (List Message) := do
  let pairs ← runs.mapM (messagesOfRun input.snapshot)
  some (pairs.flatMap fun pair ↦
    if some pair.2.id = input.excludeAssistantMessageId then [pair.1] else [pair.1, pair.2])

/-- `findSafeCoverageIndices`: the indices up to the last one that may be covered, while all are safe. -/
def safeCoverageIndices (input : PlannerInput D) (lineage : List Run) : List Nat :=
  let bound := min (lineage.length - input.minRawRuns) (lineage.length - 1)
  (List.range bound).takeWhile (boundarySafe input.snapshot lineage)

/-- The thresholds of `createBudget`. -/
def hardInputBudget (input : PlannerInput D) (window : Nat) : Int :=
  (window : Int) - input.fixedTokens

def softTriggerTokens (input : PlannerInput D) (window : Nat) : Int :=
  ⌊(window : Rat) * input.softTriggerRatio - input.fixedTokens⌋

def targetTokens (input : PlannerInput D) (window : Nat) : Int :=
  ⌊(window : Rat) * input.targetRatio - input.fixedTokens⌋

structure Candidate (D : Type) where
  checkpoint : Checkpoint D
  coverageIndex : Nat
  coverageStepIndex : Nat
  contentTokens : Nat

/-- `evaluateCheckpointCandidate`: a candidate, or nothing where the checkpoint is rejected. -/
def evaluateCheckpointCandidate (cfg : Config D) (input : PlannerInput D) (lineage : List Run)
    (window : Nat) (checkpoint : Checkpoint D) : Option (Option (Candidate D)) :=
  let s := input.snapshot
  if checkpoint.conversationId ≠ s.conversationId ∨ checkpoint.supported = false then some none
  else
    match lineage.findIdx? (·.id = checkpoint.cursor.runId) with
    | none => some none
    | some coverageIndex =>
      let rawRuns :=
        match checkpoint.cursor with
        | .run _ => lineage.drop (coverageIndex + 1)
        | .sealedStep .. => (lineage.drop coverageIndex).take 1
      let covered : Bool :=
        match checkpoint.cursor with
        | .run _ =>
          input.minRawRuns ≤ rawRuns.length ∧ coverageIndex ∈ safeCoverageIndices input lineage
        | .sealedStep _ throughRequestIndex _ =>
          throughRequestIndex < input.requestIndex ∧ cursorSafe s lineage checkpoint.cursor = true
      if covered = false then some none
      else do
        let hash ← coverageHash cfg s lineage checkpoint.cursor
        if hash ≠ checkpoint.lineageHash ∨ parentChainUsable cfg s lineage checkpoint = false then
          some none
        else
          let rawMessages ← messagesForRuns input rawRuns
          let retained : Bool :=
            match checkpoint.cursor with
            | .run _ => true
            | .sealedStep _ throughRequestIndex _ =>
              throughRequestIndex < input.retainedFromRequestIndex.getD 0
          let contentTokens := cfg.estimateMessagesTokens rawMessages +
            (if retained then input.retainedTokens else 0) +
            (4 + 2 + cfg.estimateTextTokens checkpoint.summary) + input.safetyStateTokens
          if (contentTokens : Int) ≤ targetTokens input window then
            some (some ⟨checkpoint, coverageIndex,
              match checkpoint.cursor with
              | .run _ => maxSafeInteger
              | .sealedStep _ throughRequestIndex _ => throughRequestIndex, contentTokens⟩)
          else some none

/-- The order of the candidates. -/
def candidateBefore (cfg : Config D) (left right : Candidate D) : Bool :=
  if left.coverageIndex ≠ right.coverageIndex then right.coverageIndex < left.coverageIndex
  else if left.coverageStepIndex ≠ right.coverageStepIndex then
    right.coverageStepIndex < left.coverageStepIndex
  else if left.contentTokens ≠ right.contentTokens then left.contentTokens < right.contentTokens
  else if left.checkpoint.created ≠ right.checkpoint.created then
    right.checkpoint.created < left.checkpoint.created
  else cfg.localeCompare left.checkpoint.id right.checkpoint.id = .lt

/-- The checkpoint that is taken, if one is. -/
def selectCandidate (cfg : Config D) (input : PlannerInput D) (lineage : List Run) (window : Nat) :
    Option (Option (Candidate D)) := do
  let considered :=
    if input.trigger = .providerOverflow ∧ input.providerOverflowCheckpointId = none then []
    else
      (input.snapshot.checkpoints.entries.map (·.2)).filter fun checkpoint ↦
        input.providerOverflowCheckpointId = none ∨ some checkpoint.id = input.providerOverflowCheckpointId
  let evaluated ← considered.mapM (evaluateCheckpointCandidate cfg input lineage window)
  some (first (candidateBefore cfg) (evaluated.filterMap id))

/-- A checkpoint of the run under way, at an earlier step. -/
def hasCurrentRunSealedCheckpoint (input : PlannerInput D) : Bool :=
  decide (input.trigger = .autoMidTurn) && input.snapshot.checkpoints.entries.any fun entry ↦
    match entry.2.cursor with
    | .sealedStep runId throughRequestIndex _ =>
      runId = input.runId ∧ throughRequestIndex < input.requestIndex
    | .run _ => false

/-- A checkpoint that the user asked for, on a window as large as this one. -/
def hasManualCheckpoint (input : PlannerInput D) (lineage : List Run) (window : Nat) : Bool :=
  input.snapshot.checkpoints.entries.any fun entry ↦
    entry.2.trigger = .manual ∧ window ≤ entry.2.contextWindow.getD 0 ∧
      entry.2.coverageThroughRunId ∈ lineage.map (·.id)

/-- The cursor of a new checkpoint. -/
def eligibleCoverageCursor (input : PlannerInput D) (lineage : List Run) : Option CoverageCursor :=
  let sealedStep :=
    if input.trigger = .autoMidTurn ∨ input.trigger = .providerOverflow then
      findLatestSafeSealedStepCursor input.snapshot lineage input.requestIndex
    else none
  sealedStep.or <| (safeCoverageIndices input lineage).getLast?.bind fun index ↦
    (lineage[index]?).map fun run ↦ .run run.id

/-- `planContextWindow`, where a checkpoint or a new one is needed or may be. -/
def planOverBudget (cfg : Config D) (input : PlannerInput D) (lineage : List Run) (window : Nat)
    (rawWithinBudget : Bool) : Option Plan := do
  let selected ← selectCandidate cfg input lineage window
  match selected with
  | some candidate =>
    if input.trigger ≠ .manual ∨
        some candidate.coverageIndex = (safeCoverageIndices input lineage).getLast? then
      some (.checkpointSelected candidate.checkpoint.id)
    else planWithoutCandidate
  | none => planWithoutCandidate
where
  planWithoutCandidate : Option Plan :=
    if input.trigger ≠ .manual ∧ input.trigger ≠ .providerOverflow ∧
        hasCurrentRunSealedCheckpoint input = false ∧ rawWithinBudget then
      some .rawWithinBudget
    else
      match eligibleCoverageCursor input lineage with
      | none => some .rawCompactionBlocked
      | some cursor => some (.compactionRequired cursor)

/-- `planContextWindow`. -/
def planContextWindow (cfg : Config D) (input : PlannerInput D) : Option Plan := do
  let s := input.snapshot
  if validInput input = false then none
  else
    let lineage ← s.lineage input.runId
    let fullMessages ← messagesForRuns input lineage
    let content := cfg.estimateMessagesTokens fullMessages + input.retainedTokens + input.safetyStateTokens
    match input.contextWindow.filter (0 < ·) with
    | none => some .contextWindowUnavailable
    | some window =>
      let rawWithinBudget : Bool :=
        (content : Int) ≤ hardInputBudget input window ∧ (content : Int) < softTriggerTokens input window
      if input.trigger ≠ .providerOverflow ∧ input.trigger ≠ .manual ∧
          hasManualCheckpoint input lineage window = false ∧
          hasCurrentRunSealedCheckpoint input = false ∧ rawWithinBudget then
        some .rawWithinBudget
      else planOverBudget cfg input lineage window rawWithinBudget

/-! ### The compaction -/

/-- The order of the parents. -/
def parentFirst (cfg : Config D) (left right : (Nat × Nat) × Checkpoint D) : Bool :=
  if left.1 ≠ right.1 then positionBefore right.1 left.1
  else if left.2.created ≠ right.2.created then right.2.created < left.2.created
  else cfg.localeCompare left.2.id right.2.id = .lt

/-- The filter of `selectParentCheckpoint`: a checkpoint before the cursor that still fits the history. -/
def parentCandidate (cfg : Config D) (s : Snapshot D) (lineage : List Run) (cursor : CoverageCursor)
    (checkpoint : Checkpoint D) : Option (Option ((Nat × Nat) × Checkpoint D)) :=
  if checkpoint.conversationId ≠ s.conversationId ∨ checkpoint.supported = false then some none
  else
    match cursorPosition lineage checkpoint.cursor, cursorPosition lineage cursor with
    | some position, some target =>
      if positionBefore position target then do
        let hash ← coverageHash cfg s lineage checkpoint.cursor
        some (if hash = checkpoint.lineageHash then some (position, checkpoint) else none)
      else some none
    | _, _ => some none

/-- `selectParentCheckpoint`. -/
def selectParentCheckpoint (cfg : Config D) (s : Snapshot D) (lineage : List Run)
    (cursor : CoverageCursor) : Option (Option (Checkpoint D)) := do
  let found ← (s.checkpoints.entries.map (·.2)).mapM (parentCandidate cfg s lineage cursor)
  some ((first (parentFirst cfg) (found.filterMap id)).map (·.2))

/-- The parent and the source of a new checkpoint. -/
structure Source (D : Type) where
  parent : Option (Checkpoint D)
  pairs : List CanonicalPair

/-- `compact`, from its plan to the source of the summary: nothing where it throws, and no source where the
boundary is unsafe. -/
def compactionSource (cfg : Config D) (s : Snapshot D) (headRunId : String) (cursor : CoverageCursor) :
    Option (Option (Source D)) := do
  let lineage ← s.lineage headRunId
  let coverageIndex ← lineage.findIdx? (·.id = cursor.runId)
  let inPlace : Bool :=
    match cursor with
    | .run _ => coverageIndex + 1 < lineage.length
    | .sealedStep .. => coverageIndex + 1 = lineage.length
  if inPlace = false then none
  else
    let parent ← selectParentCheckpoint cfg s lineage cursor
    some ((sourceState cfg s lineage coverageIndex cursor parent).map (⟨parent, ·⟩))

end Context
