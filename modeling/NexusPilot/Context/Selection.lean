import Mathlib.Data.Prod.Lex
import NexusPilot.Context.Progress

/-!
# The checkpoint of a plan

What `planContextWindow` says when it takes a checkpoint: the runs that stay raw and the tokens of each part. The
checkpoint and its parents stand one before the other on the lineage, the covered runs and the raw ones are the
lineage, the parts fit the target, and nothing that could have been taken covers more (**`checkpointPlan_spec`**).

The hashes of the parents are looked at where a parent ends with a run, not where it ends with a finished step:
`not_hashesMatch` is a plan over a parent whose hash is wrong.
-/

namespace Context

open Machine Tools

variable {D : Type} [DecidableEq D]

/-! ### Plans with a checkpoint -/

/-- `rawRuns` of a candidate. -/
def rawRuns (lineage : List Run) (coverageIndex : ℕ) : CoverageCursor → List Run
  | .run _ => lineage.drop (coverageIndex + 1)
  | .sealedStep .. => (lineage.drop coverageIndex).take 1

/-- `retainedTokensAreAfterCursor`. -/
def retainedTokensAreAfterCursor (input : PlannerInput D) : CoverageCursor → Bool
  | .run _ => true
  | .sealedStep _ throughRequestIndex _ => throughRequestIndex < input.retainedFromRequestIndex.getD 0

/-- `rawTokens` of a candidate. -/
def rawTokens (cfg : Config D) (input : PlannerInput D) (cursor : CoverageCursor) (rawMessages : List Message) : ℕ :=
  cfg.estimateMessagesTokens rawMessages +
    if retainedTokensAreAfterCursor input cursor then input.retainedTokens else 0

/-- `checkpointTokens` of a candidate. -/
def checkpointTokens (cfg : Config D) (checkpoint : Checkpoint D) : ℕ :=
  4 + 2 + cfg.estimateTextTokens checkpoint.summary

/-- `ContextPlan` with the reason `checkpoint_selected`: the fields that depend on the checkpoint, and the target. -/
structure CheckpointPlan (D : Type) where
  checkpoint : Checkpoint D
  lineageRunIds : List String
  rawRunIds : List String
  rawHistoryTokens : ℕ
  checkpointTokens : ℕ
  safetyStateTokens : ℕ
  targetTokens : ℤ

/-- What `createPlan` makes of the candidate that is taken. -/
def checkpointPlan (cfg : Config D) (input : PlannerInput D) : Option (CheckpointPlan D) := do
  let lineage ← input.snapshot.lineage input.runId
  let window ← input.contextWindow.filter (0 < ·)
  let selected ← selectCandidate cfg input lineage window
  let candidate ← selected
  let raw := rawRuns lineage candidate.coverageIndex candidate.checkpoint.cursor
  let rawMessages ← messagesForRuns input raw
  some
    { checkpoint := candidate.checkpoint
      lineageRunIds := lineage.map (·.id)
      rawRunIds := raw.map (·.id)
      rawHistoryTokens := rawTokens cfg input candidate.checkpoint.cursor rawMessages
      checkpointTokens := checkpointTokens cfg candidate.checkpoint
      safetyStateTokens := input.safetyStateTokens
      targetTokens := targetTokens input window }

/-! ### What a plan has to say -/

/-- The parents of a checkpoint, up to one without a parent, each before the one that it is a parent of. The hash of a
parent that ends with a run is the one of the lineage. -/
inductive ParentChain (cfg : Config D) (s : Snapshot D) (lineage : List Run) :
    Checkpoint D → List (Checkpoint D) → Prop
  | root {checkpoint : Checkpoint D} (hroot : checkpoint.parentCheckpointId = none) :
      ParentChain cfg s lineage checkpoint []
  | parent {checkpoint parent : Checkpoint D} {parents : List (Checkpoint D)} {parentId : String}
      {position parentPosition : ℕ × ℕ} (hid : checkpoint.parentCheckpointId = some parentId)
      (hparent : s.checkpoints.lookup parentId = some parent)
      (hposition : cursorPosition lineage checkpoint.cursor = some position)
      (hparentPosition : cursorPosition lineage parent.cursor = some parentPosition)
      (hbefore : positionBefore parentPosition position = true)
      (hhash : ∀ throughRunId, parent.cursor = .run throughRunId →
        coverageHash cfg s lineage parent.cursor = some parent.lineageHash)
      (hrest : ParentChain cfg s lineage parent parents) :
      ParentChain cfg s lineage checkpoint (parent :: parents)

/-- The runs that a plan covers and leaves raw. -/
def Splits (input : PlannerInput D) (plan : CheckpointPlan D) : Prop :=
  match plan.checkpoint.cursor with
  | .run throughRunId =>
    ∃ covered, covered ++ plan.rawRunIds = plan.lineageRunIds ∧ covered.getLast? = some throughRunId ∧
      input.minRawRuns ≤ plan.rawRunIds.length
  | .sealedStep runId throughRequestIndex _ =>
    plan.lineageRunIds.getLast? = some runId ∧ plan.rawRunIds = [runId] ∧ throughRequestIndex < input.requestIndex

/-- The checkpoints that the trigger admits. -/
def consideredCheckpoints (input : PlannerInput D) : List (Checkpoint D) :=
  if input.trigger = .providerOverflow ∧ input.providerOverflowCheckpointId = none then []
  else
    (input.snapshot.checkpoints.entries.map (·.2)).filter fun checkpoint ↦
      input.providerOverflowCheckpointId = none ∨ some checkpoint.id = input.providerOverflowCheckpointId

/-- The checkpoint is admitted by the trigger and not rejected. -/
def Admissible (cfg : Config D) (input : PlannerInput D) (lineage : List Run) (window : ℕ)
    (checkpoint : Checkpoint D) : Prop :=
  checkpoint ∈ consideredCheckpoints input ∧
    ∃ candidate, evaluateCheckpointCandidate cfg input lineage window checkpoint = some (some candidate)

/-- What a plan with a checkpoint has to say. -/
structure SoundPlan (cfg : Config D) (input : PlannerInput D) (lineage : List Run) (window : ℕ)
    (plan : CheckpointPlan D) : Prop where
  /-- The lineage is the one of the head. -/
  ofHead : input.snapshot.lineage input.runId = some lineage
  lineageRunIds : plan.lineageRunIds = lineage.map (·.id)
  /-- The checkpoint is of this lineage, and so are its parents, one before the other. -/
  hash : coverageHash cfg input.snapshot lineage plan.checkpoint.cursor = some plan.checkpoint.lineageHash
  chain : ∃ parents, ParentChain cfg input.snapshot lineage plan.checkpoint parents
  splits : Splits input plan
  fits : ((plan.rawHistoryTokens + plan.checkpointTokens + plan.safetyStateTokens : ℕ) : ℤ) ≤ plan.targetTokens
  admissible : Admissible cfg input lineage window plan.checkpoint
  /-- No other admissible checkpoint covers more. -/
  most : ∀ other, Admissible cfg input lineage window other →
    ∀ position otherPosition, cursorPosition lineage plan.checkpoint.cursor = some position →
      cursorPosition lineage other.cursor = some otherPosition → positionBefore position otherPosition = false

/-! ### One candidate -/

/-- What has been checked of a candidate. -/
structure Evaluated (cfg : Config D) (input : PlannerInput D) (lineage : List Run) (window : ℕ)
    (checkpoint : Checkpoint D) (candidate : Candidate D) : Prop where
  same : candidate.checkpoint = checkpoint
  index : lineage.findIdx? (·.id = checkpoint.cursor.runId) = some candidate.coverageIndex
  position : cursorPosition lineage checkpoint.cursor = some (candidate.coverageIndex, candidate.coverageStepIndex)
  covered : match checkpoint.cursor with
    | .run _ => input.minRawRuns ≤ (rawRuns lineage candidate.coverageIndex checkpoint.cursor).length
    | .sealedStep _ throughRequestIndex _ =>
      throughRequestIndex < input.requestIndex ∧ candidate.coverageIndex + 1 = lineage.length
  hash : coverageHash cfg input.snapshot lineage checkpoint.cursor = some checkpoint.lineageHash
  chain : parentChainUsable cfg input.snapshot lineage checkpoint = true
  fits : ∃ rawMessages,
    messagesForRuns input (rawRuns lineage candidate.coverageIndex checkpoint.cursor) = some rawMessages ∧
      ((rawTokens cfg input checkpoint.cursor rawMessages + checkpointTokens cfg checkpoint +
        input.safetyStateTokens : ℕ) : ℤ) ≤ targetTokens input window

/-- The checks of a candidate's cursor. -/
def cursorCovers (input : PlannerInput D) (lineage : List Run) (coverageIndex : ℕ) (cursor : CoverageCursor) : Bool :=
  match cursor with
  | .run _ =>
    input.minRawRuns ≤ (rawRuns lineage coverageIndex cursor).length ∧ coverageIndex ∈ safeCoverageIndices input lineage
  | .sealedStep _ throughRequestIndex _ =>
    throughRequestIndex < input.requestIndex ∧ cursorSafe input.snapshot lineage cursor = true

/-- The step of a candidate. -/
def coverageStep : CoverageCursor → ℕ
  | .run _ => maxSafeInteger
  | .sealedStep _ throughRequestIndex _ => throughRequestIndex

/-- The tokens of a candidate. -/
def contentTokens (cfg : Config D) (input : PlannerInput D) (checkpoint : Checkpoint D) (rawMessages : List Message) :
    ℕ :=
  rawTokens cfg input checkpoint.cursor rawMessages + checkpointTokens cfg checkpoint + input.safetyStateTokens

/-- The evaluation, with what a candidate has under names. -/
theorem evaluateCheckpointCandidate_eq (cfg : Config D) (input : PlannerInput D) (lineage : List Run) (window : ℕ)
    (checkpoint : Checkpoint D) :
    evaluateCheckpointCandidate cfg input lineage window checkpoint =
      if checkpoint.conversationId ≠ input.snapshot.conversationId ∨ checkpoint.supported = false then some none
      else
        match lineage.findIdx? (·.id = checkpoint.cursor.runId) with
        | none => some none
        | some coverageIndex =>
          if cursorCovers input lineage coverageIndex checkpoint.cursor = false then some none
          else (coverageHash cfg input.snapshot lineage checkpoint.cursor).bind fun hash ↦
            if hash ≠ checkpoint.lineageHash ∨ parentChainUsable cfg input.snapshot lineage checkpoint = false then
              some none
            else (messagesForRuns input (rawRuns lineage coverageIndex checkpoint.cursor)).bind fun rawMessages ↦
              if (contentTokens cfg input checkpoint rawMessages : ℤ) ≤ targetTokens input window then
                some (some ⟨checkpoint, coverageIndex, coverageStep checkpoint.cursor,
                  contentTokens cfg input checkpoint rawMessages⟩)
              else some none := by
  unfold evaluateCheckpointCandidate contentTokens
  generalize checkpoint.cursor = cursor
  cases cursor with
  | run _ => rfl
  | sealedStep _ _ _ => rfl

variable {s : Snapshot D} {lineage : List Run} {coverageIndex window : ℕ} {cfg : Config D}
  {input : PlannerInput D} {checkpoint : Checkpoint D} {candidate : Candidate D}

omit [DecidableEq D] in
/-- A finished step may be covered in the last run only. -/
theorem last_of_cursorSafe {runId throughPartId : String} {throughRequestIndex : ℕ}
    (hindex : lineage.findIdx? (·.id = runId) = some coverageIndex)
    (h : cursorSafe s lineage (.sealedStep runId throughRequestIndex throughPartId) = true) :
    coverageIndex + 1 = lineage.length := by
  unfold cursorSafe at h
  rw [show (CoverageCursor.sealedStep runId throughRequestIndex throughPartId).runId = runId from rfl, hindex] at h
  dsimp only at h
  rw [Bool.and_eq_true, Bool.and_eq_true] at h
  exact of_decide_eq_true h.1.1

theorem evaluated_of_evaluateCheckpointCandidate
    (h : evaluateCheckpointCandidate cfg input lineage window checkpoint = some (some candidate)) :
    Evaluated cfg input lineage window checkpoint candidate := by
  rw [evaluateCheckpointCandidate_eq] at h
  split at h
  · cases h
  cases hindex : lineage.findIdx? (·.id = checkpoint.cursor.runId) with
  | none =>
    rw [hindex] at h
    cases h
  | some coverageIndex =>
    rw [hindex] at h
    dsimp only at h
    split at h
    · cases h
    next hcovers =>
    obtain ⟨hash, hhash, h⟩ := Option.bind_eq_some_iff.1 h
    split at h
    · cases h
    next hchecked =>
    rw [not_or, not_not, Bool.not_eq_false] at hchecked
    obtain ⟨rawMessages, hmessages, h⟩ := Option.bind_eq_some_iff.1 h
    split at h
    · next hfits =>
      cases h
      refine ⟨rfl, hindex, ?_, ?_, hchecked.1 ▸ hhash, hchecked.2, rawMessages, hmessages, hfits⟩
      · unfold cursorPosition
        rw [hindex]
        rfl
      · rw [Bool.not_eq_false] at hcovers
        generalize checkpoint.cursor = cursor at hindex hcovers ⊢
        cases cursor with
        | run throughRunId => exact (of_decide_eq_true hcovers).1
        | sealedStep runId throughRequestIndex throughPartId =>
          obtain ⟨hstep, hsafe⟩ := of_decide_eq_true hcovers
          exact ⟨hstep, last_of_cursorSafe hindex hsafe⟩
    · cases h

/-! ### The chain of parents -/

/-- The walk along the parents has met each of them before its child. -/
theorem exists_parentChain {conversationId : String} {fuel : ℕ} {visited : List String}
    (h : chainUsable cfg s lineage conversationId fuel checkpoint visited = true) :
    ∃ parents, ParentChain cfg s lineage checkpoint parents := by
  induction fuel generalizing checkpoint visited with
  | zero => cases h
  | succ fuel ih =>
    unfold chainUsable at h
    cases hid : checkpoint.parentCheckpointId with
    | none => exact ⟨[], .root hid⟩
    | some parentId =>
      rw [hid] at h
      dsimp only at h
      cases hparent : s.checkpoints.lookup parentId with
      | none =>
        rw [hparent] at h
        cases h
      | some parent =>
        rw [hparent] at h
        dsimp only at h
        split at h
        · cases h
        split at h
        · cases h
        split at h
        · next position parentPosition hposition hparentPosition =>
          rw [Bool.and_eq_true, Bool.and_eq_true] at h
          obtain ⟨⟨hbefore, hhash⟩, hrest⟩ := h
          obtain ⟨parents, hparents⟩ := ih hrest
          refine ⟨parent :: parents, .parent hid hparent hposition hparentPosition hbefore (fun runId hcursor ↦ ?_)
            hparents⟩
          rw [hcursor] at hhash ⊢
          exact of_decide_eq_true hhash
        · cases h

/-! ### The candidate that is taken -/

/-- What a candidate covers. -/
def coverageKey (candidate : Candidate D) : ℕ ×ₗ ℕ :=
  toLex (candidate.coverageIndex, candidate.coverageStepIndex)

omit [DecidableEq D] in
theorem candidateBefore_of_lt (left right : Candidate D) (h : coverageKey right < coverageKey left) :
    candidateBefore cfg left right = true := by
  unfold candidateBefore
  rw [coverageKey, coverageKey, Prod.Lex.toLex_lt_toLex] at h
  obtain hlt | ⟨heq, hlt⟩ := h
  · rw [if_pos (Nat.ne_of_gt hlt)]
    exact decide_eq_true hlt
  · rw [if_neg (not_not.2 heq.symm), if_pos (Nat.ne_of_gt hlt)]
    exact decide_eq_true hlt

omit [DecidableEq D] in
theorem le_of_candidateBefore (left right : Candidate D) (h : candidateBefore cfg left right = true) :
    coverageKey right ≤ coverageKey left := by
  unfold candidateBefore at h
  rw [coverageKey, coverageKey, Prod.Lex.toLex_le_toLex]
  split at h
  · exact Or.inl (of_decide_eq_true h)
  · next hindex =>
    have hindex' := (not_not.1 hindex).symm
    split at h
    · exact Or.inr ⟨hindex', (of_decide_eq_true h).le⟩
    · next hstep => exact Or.inr ⟨hindex', (not_not.1 hstep).ge⟩

/-- **The candidate that is taken** is admissible, and no admissible checkpoint covers more. -/
theorem selectCandidate_spec (h : selectCandidate cfg input lineage window = some (some candidate)) :
    candidate.checkpoint ∈ consideredCheckpoints input ∧
      evaluateCheckpointCandidate cfg input lineage window candidate.checkpoint = some (some candidate) ∧
      ∀ checkpoint ∈ consideredCheckpoints input, ∀ other,
        evaluateCheckpointCandidate cfg input lineage window checkpoint = some (some other) →
          coverageKey other ≤ coverageKey candidate := by
  obtain ⟨evaluated, hevaluated, h⟩ := Option.bind_eq_some_iff.1 h
  have hfirst := Option.some.inj h
  have hmem := mem_of_first hfirst
  obtain ⟨found, hfound, hid⟩ := List.mem_filterMap.1 hmem
  obtain rfl : found = some candidate := hid
  obtain ⟨checkpoint, hconsidered, heval⟩ := exists_of_mem_mapM hevaluated hfound
  obtain rfl := (evaluated_of_evaluateCheckpointCandidate heval).same
  refine ⟨hconsidered, heval, fun other hother result hresult ↦ ?_⟩
  obtain ⟨result', hresult', heval'⟩ := exists_of_mapM hevaluated hother
  obtain rfl := Option.some.inj (heval'.symm.trans hresult)
  exact le_of_first candidateBefore_of_lt le_of_candidateBefore hfirst result
    (List.mem_filterMap.2 ⟨some result, hresult', rfl⟩)

/-! ### The plan -/

/-- A checkpoint is selected from the candidates. -/
theorem selected_of_planContextWindow {checkpointId : String}
    (h : planContextWindow cfg input = some (.checkpointSelected checkpointId)) :
    ∃ lineage window candidate, input.snapshot.lineage input.runId = some lineage ∧
      input.contextWindow.filter (0 < ·) = some window ∧
      selectCandidate cfg input lineage window = some (some candidate) ∧ candidate.checkpoint.id = checkpointId := by
  unfold planContextWindow at h
  extract_lets s at h
  split at h
  · cases h
  obtain ⟨lineage, hlineage, h⟩ := Option.bind_eq_some_iff.1 h
  obtain ⟨fullMessages, -, h⟩ := Option.bind_eq_some_iff.1 h
  split at h
  · cases h
  next window hwindow =>
  extract_lets content rawWithinBudget at h
  split at h
  · cases h
  unfold planOverBudget at h
  obtain ⟨selected, hselected, h⟩ := Option.bind_eq_some_iff.1 h
  -- without a candidate no checkpoint is selected
  have hnot : ∀ rawWithinBudget, planOverBudget.planWithoutCandidate input lineage rawWithinBudget ≠
      some (.checkpointSelected checkpointId) := by
    intro rawWithinBudget h
    unfold planOverBudget.planWithoutCandidate at h
    split at h
    · cases h
    · split at h <;> cases h
  split at h
  · next candidate =>
    split at h
    · cases h
      exact ⟨lineage, window, candidate, hlineage, hwindow, hselected, rfl⟩
    · exact absurd h (hnot _)
  · exact absurd h (hnot _)

omit [DecidableEq D] in
/-- The covered runs and the raw ones. -/
theorem splits_of_evaluated {plan : CheckpointPlan D} (hids : plan.lineageRunIds = lineage.map (·.id))
    (hraw : plan.rawRunIds = (rawRuns lineage coverageIndex plan.checkpoint.cursor).map (·.id))
    (hindex : lineage.findIdx? (·.id = plan.checkpoint.cursor.runId) = some coverageIndex)
    (hcovered : match plan.checkpoint.cursor with
      | .run _ => input.minRawRuns ≤ (rawRuns lineage coverageIndex plan.checkpoint.cursor).length
      | .sealedStep _ throughRequestIndex _ =>
        throughRequestIndex < input.requestIndex ∧ coverageIndex + 1 = lineage.length) :
    Splits input plan := by
  unfold Splits
  generalize plan.checkpoint.cursor = cursor at hraw hindex hcovered ⊢
  obtain ⟨run, hrun, hid⟩ := exists_of_findIdx? hindex
  obtain ⟨hlt, hget⟩ := List.getElem?_eq_some_iff.1 hrun
  cases cursor with
  | run throughRunId =>
    refine ⟨(lineage.take (coverageIndex + 1)).map (·.id), ?_, ?_, ?_⟩
    · rw [hraw, hids]
      show _ ++ (lineage.drop (coverageIndex + 1)).map (·.id) = _
      rw [← List.map_append, List.take_append_drop]
    · rw [List.take_succ, hrun, Option.toList_some, List.map_append, List.map_singleton, List.getLast?_concat, hid]
      rfl
    · rw [hraw, List.length_map]
      exact hcovered
  | sealedStep runId throughRequestIndex throughPartId =>
    have hlast : lineage.drop coverageIndex = [run] := by
      rw [List.drop_eq_getElem_cons hlt, hget, hcovered.2, List.drop_length]
    refine ⟨?_, ?_, hcovered.1⟩
    · rw [hids, ← List.take_append_drop coverageIndex lineage, hlast, List.map_append, List.map_singleton,
        List.getLast?_concat, hid]
      rfl
    · rw [hraw]
      show ((lineage.drop coverageIndex).take 1).map (·.id) = _
      rw [hlast]
      exact congrArg (fun id ↦ [id]) hid

/-- **A plan with a checkpoint is sound.** -/
theorem checkpointPlan_spec {cfg : Config D} {input : PlannerInput D} {checkpointId : String}
    (h : planContextWindow cfg input = some (.checkpointSelected checkpointId)) :
    ∃ plan lineage window, checkpointPlan cfg input = some plan ∧ plan.checkpoint.id = checkpointId ∧
      input.contextWindow = some window ∧ SoundPlan cfg input lineage window plan := by
  obtain ⟨lineage, window, candidate, hlineage, hwindow, hselected, hid⟩ := selected_of_planContextWindow h
  obtain ⟨hconsidered, hevaluated, hmost⟩ := selectCandidate_spec hselected
  have heval := evaluated_of_evaluateCheckpointCandidate hevaluated
  obtain ⟨rawMessages, hmessages, hfits⟩ := heval.fits
  obtain ⟨parents, hparents⟩ := exists_parentChain heval.chain
  let raw := rawRuns lineage candidate.coverageIndex candidate.checkpoint.cursor
  let plan : CheckpointPlan D :=
    { checkpoint := candidate.checkpoint
      lineageRunIds := lineage.map (·.id)
      rawRunIds := raw.map (·.id)
      rawHistoryTokens := rawTokens cfg input candidate.checkpoint.cursor rawMessages
      checkpointTokens := checkpointTokens cfg candidate.checkpoint
      safetyStateTokens := input.safetyStateTokens
      targetTokens := targetTokens input window }
  refine ⟨plan, lineage, window, ?_, hid, (Option.filter_eq_some_iff.1 hwindow).1, ?_⟩
  · unfold checkpointPlan
    rw [hlineage, hwindow]
    show (selectCandidate cfg input lineage window).bind _ = _
    rw [hselected]
    show (messagesForRuns input _).bind _ = _
    rw [hmessages]
    rfl
  · refine ⟨hlineage, rfl, heval.hash, ⟨parents, hparents⟩, splits_of_evaluated rfl rfl heval.index heval.covered, hfits,
      ⟨hconsidered, candidate, hevaluated⟩, ?_⟩
    rintro other ⟨hother, result, hresult⟩ position otherPosition hposition hotherPosition
    -- the positions are what the candidates are ordered by
    have hresult' := evaluated_of_evaluateCheckpointCandidate hresult
    obtain rfl := Option.some.inj (heval.position.symm.trans hposition)
    obtain rfl := Option.some.inj (hresult'.position.symm.trans hotherPosition)
    rw [Bool.eq_false_iff, ne_eq, positionBefore_iff]
    exact (hmost other hother result hresult).not_gt

namespace Sample

/-- A checkpoint after a finished step of the first run. -/
def stepCheckpoint (id : String) (k : ℕ) (lineageHash : Payload) (parentCheckpointId : Option String) :
    Checkpoint Payload where
  id
  conversationId := "conversation"
  coverageThroughRunId := "run1"
  coverageCursor := some (.sealedStep "run1" k ("assistant1-finish" ++ toString k))
  runId_of_cursor := by
    rintro cursor ⟨⟩
    rfl
  lineageHash
  parentCheckpointId
  trigger := .autoMidTurn
  contextWindow := some 200
  summary := "summary"
  created := k

/-- The run under way, after two steps. -/
def underWay : Snapshot Payload :=
  (State.reached config "conversation"
    [start "run1" none "user1" "assistant1",
      .saveMessage "assistant1" (stepParts "assistant1" 0 ++ stepParts "assistant1" 1) .running]).snapshot

/-- The hash through the second step. -/
def secondHash : Payload :=
  .sealedStep [] ⟨"run1", "user1", "assistant1"⟩ 1 "assistant1-finish1"
    (stepParts "assistant1" 0 ++ stepParts "assistant1" 1)

/-- The second checkpoint is of this lineage, and its parent has the hash of nothing. -/
def staleParent : PlannerInput Payload :=
  { request "run1" 2 .autoMidTurn with
    contextWindow := some 200
    fixedTokens := 10
    snapshot :=
      { underWay with
        checkpoints :=
          (AList.insert "checkpoint1" (stepCheckpoint "checkpoint1" 0 (.lineage []) none) ∅).insert "checkpoint2"
            (stepCheckpoint "checkpoint2" 1 secondHash (some "checkpoint1")) } }

end Sample

open Sample in
theorem checkpointPlan_staleParent :
    ∃ plan lineage window, checkpointPlan config staleParent = some plan ∧ plan.checkpoint.id = "checkpoint2" ∧
      staleParent.contextWindow = some window ∧ SoundPlan config staleParent lineage window plan :=
  checkpointPlan_spec (by decide +kernel)

open Sample in
/-- The hash of a parent that ends with a finished step is not looked at. -/
theorem not_hashesMatch :
    planContextWindow config staleParent = some (.checkpointSelected "checkpoint2") ∧
      ∃ lineage checkpoint parent, staleParent.snapshot.lineage "run1" = some lineage ∧
        staleParent.snapshot.checkpoints.lookup "checkpoint2" = some checkpoint ∧
        checkpoint.parentCheckpointId = some "checkpoint1" ∧
        staleParent.snapshot.checkpoints.lookup "checkpoint1" = some parent ∧
        coverageHash config staleParent.snapshot lineage parent.cursor ≠ some parent.lineageHash := by
  refine ⟨by decide +kernel, _, stepCheckpoint "checkpoint2" 1 secondHash (some "checkpoint1"),
    stepCheckpoint "checkpoint1" 0 (.lineage []) none, rfl, rfl, rfl, rfl, ?_⟩
  decide +kernel

end Context
