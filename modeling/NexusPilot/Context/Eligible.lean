import Mathlib.Data.List.TakeWhile
import NexusPilot.Context.Lineage

/-!
# Eligible cursors

What the planner has checked by the time it asks for a checkpoint (`exists_of_planContextWindow`): the lineage,
the messages of each of its runs, and a cursor that is eligible, after a covered run or after a finished step of
the last one (`Eligible`). From such a cursor the source of a summary is never missing, so that the only thing
that can make it unsafe is the parent (`sourceState_eq_some_iff`).
-/

namespace Context

open Machine Tools

variable {D : Type} {s : Snapshot D} {run : Run} {user assistant : Message}

/-! ### What the checks of a run say -/

/-- A run and its two messages fit each other. -/
structure OwnMessages (s : Snapshot D) (run : Run) (user assistant : Message) : Prop where
  huser : s.user? run = some user
  hassistant : ∃ status, s.assistant? run = some (assistant, run.id, user.id, status)
  userConversation : user.conversationId = s.conversationId
  assistantConversation : assistant.conversationId = s.conversationId
  input : user.id ∈ run.inputMessageIds

theorem exists_of_coveredRunSafe (h : coveredRunSafe s run = true) :
    run.status.terminal = true ∧ ∃ user assistant, OwnMessages s run user assistant := by
  unfold coveredRunSafe at h
  rw [Bool.and_eq_true] at h
  refine ⟨h.1, ?_⟩
  replace h := h.2
  split at h
  · next user assistant runId parentId status huser hassistant =>
    rw [Bool.and_eq_true, Bool.and_eq_true, decide_eq_true_iff] at h
    obtain ⟨⟨⟨hconversation, hinput, hconversation', rfl, rfl, -⟩, -⟩, -⟩ := h
    exact ⟨user, assistant, huser, ⟨status, hassistant⟩, hconversation, hconversation', hinput⟩
  · cases h

/-- The prefix of the parts up to a finished step, as its check reads it. -/
structure SealedParts (parts : List Part) (k : Nat) (partId : String) (index : Nat) : Prop where
  found : parts.findIdx? (·.id = partId) = some index
  finishes : (parts[index]?).bind Part.finishes? = some k
  closed : stepsClosed k none (parts.take (index + 1)) = true

variable {k : Nat} {partId : String} {input : PlannerInput D} {runs : List Run} {cfg : Config D}

theorem exists_of_sealedStepSafe (h : sealedStepSafe s run k partId = true) :
    ∃ user assistant index, OwnMessages s run user assistant ∧ SealedParts assistant.parts k partId index := by
  unfold sealedStepSafe at h
  rw [Bool.and_eq_true] at h
  replace h := h.2
  split at h
  · next user assistant runId parentId status huser hassistant =>
    rw [Bool.and_eq_true, decide_eq_true_iff] at h
    obtain ⟨⟨hconversation, hinput, hconversation', rfl, rfl⟩, h⟩ := h
    split at h
    · cases h
    · next index hindex =>
      simp only [Bool.and_eq_true, decide_eq_true_iff] at h
      obtain ⟨⟨⟨⟨hfinishes, -⟩, -⟩, hclosed⟩, -⟩ := h
      exact ⟨user, assistant, index, ⟨huser, ⟨status, hassistant⟩, hconversation, hconversation', hinput⟩,
        hindex, hfinishes, hclosed⟩
  · cases h

theorem SealedParts.stepAt {parts : List Part} {k index : Nat} {partId : String}
    (h : SealedParts parts k partId index) : State.stepAt parts partId = some k := by
  unfold State.stepAt
  rw [h.found]
  exact h.finishes

/-- The pair of a run whose messages fit it. -/
theorem OwnMessages.canonicalizePair (cfg : Config D) (h : OwnMessages s run user assistant)
    (hconversation : run.conversationId = s.conversationId) (taken : List Part → List Part) :
    canonicalizePair cfg s run taken = some ⟨run.id, canonicalizeMessage cfg user,
      canonicalizeMessage cfg { assistant with parts := taken assistant.parts }⟩ := by
  obtain ⟨status, hassistant⟩ := h.hassistant
  unfold Context.canonicalizePair
  rw [h.huser, hassistant]
  exact if_pos ⟨hconversation, h.userConversation, h.assistantConversation, rfl, rfl, h.input⟩

theorem mem_boundary {lineage : List Run} {index : Nat} (h : boundarySafe s lineage index = true) :
    index < lineage.length ∧ ∀ run ∈ lineage.take (index + 1), coveredRunSafe s run = true := by
  unfold boundarySafe at h
  rw [Bool.and_eq_true, decide_eq_true_iff, List.all_eq_true] at h
  exact h

/-! ### The cursor of a plan -/

/-- A cursor after a covered run, or after a finished step of the last run. -/
inductive Eligible (s : Snapshot D) (lineage : List Run) (requestIndex : Nat) : CoverageCursor → Prop
  | run {index : Nat} {run : Run} (hrun : lineage[index]? = some run) (hlt : index + 1 < lineage.length)
      (hsafe : boundarySafe s lineage index = true) : Eligible s lineage requestIndex (.run run.id)
  | sealedStep {index k : Nat} {partId : String} {run : Run} (hrun : lineage[index]? = some run)
      (hlast : index + 1 = lineage.length) (hk : k < requestIndex)
      (hbefore : ∀ run ∈ lineage.take index, coveredRunSafe s run = true)
      (hsealed : sealedStepSafe s run k partId = true)
      (hsafe : cursorSafe s lineage (.sealedStep run.id k partId) = true) :
    Eligible s lineage requestIndex (.sealedStep run.id k partId)

/-- What is known of a run's cursor that is safe. -/
theorem exists_of_cursorSafe {lineage : List Run} {runId : String}
    (h : cursorSafe s lineage (.sealedStep runId k partId) = true) :
    ∃ index run, lineage[index]? = some run ∧ run.id = runId ∧ index + 1 = lineage.length ∧
      (∀ run ∈ lineage.take index, coveredRunSafe s run = true) ∧ sealedStepSafe s run k partId = true := by
  unfold cursorSafe at h
  split at h
  · cases h
  · next index hindex =>
    simp only [Bool.and_eq_true, Bool.or_eq_true, decide_eq_true_iff] at h
    obtain ⟨⟨hlast, hbefore⟩, h⟩ := h
    split at h
    · next run hrun =>
      obtain ⟨found, hfound, hid⟩ := exists_of_findIdx? hindex
      obtain rfl := Option.some.inj (hrun.symm.trans hfound)
      refine ⟨index, run, hrun, hid, hlast, ?_, h⟩
      rcases hbefore with rfl | hbefore
      · intro found hmem
        cases hmem
      · cases index with
        | zero =>
          intro found hmem
          cases hmem
        | succ before => exact (mem_boundary hbefore).2
    · cases h

theorem lt_of_mem_sealedStepCandidates {parts : List Part} {requestIndex : Nat} {candidate : Nat × String}
    (h : candidate ∈ sealedStepCandidates parts requestIndex) : candidate.1 < requestIndex := by
  unfold sealedStepCandidates at h
  rw [List.mem_mergeSort, List.mem_filterMap] at h
  obtain ⟨part, -, hpart⟩ := h
  obtain ⟨k, -, hk⟩ := Option.bind_eq_some_iff.1 hpart
  split at hk
  · next hlt =>
    rw [← Option.some.inj hk]
    exact hlt
  · cases hk

theorem eligible_of_findLatest {lineage : List Run} {requestIndex : Nat} {cursor : CoverageCursor}
    (h : findLatestSafeSealedStepCursor s lineage requestIndex = some cursor) :
    Eligible s lineage requestIndex cursor := by
  unfold findLatestSafeSealedStepCursor at h
  obtain ⟨last, -, h⟩ := Option.bind_eq_some_iff.1 h
  obtain ⟨assistant, -, h⟩ := Option.bind_eq_some_iff.1 h
  have hsafe := List.find?_some h
  obtain ⟨candidate, hcandidate, rfl⟩ := List.mem_map.1 (List.mem_of_find?_eq_some h)
  obtain ⟨index, run, hrun, hid, hlast, hbefore, hsealed⟩ := exists_of_cursorSafe hsafe
  rw [← hid] at hsafe ⊢
  exact .sealedStep hrun hlast (lt_of_mem_sealedStepCandidates hcandidate) hbefore hsealed hsafe

theorem eligible_of_eligibleCoverageCursor {lineage : List Run} {cursor : CoverageCursor}
    (h : eligibleCoverageCursor input lineage = some cursor) :
    Eligible input.snapshot lineage input.requestIndex cursor := by
  unfold eligibleCoverageCursor at h
  rw [Option.or_eq_some_iff] at h
  rcases h with h | ⟨-, h⟩
  · split at h
    · exact eligible_of_findLatest h
    · cases h
  · obtain ⟨index, hindex, h⟩ := Option.bind_eq_some_iff.1 h
    obtain ⟨run, hrun, rfl⟩ := Option.map_eq_some_iff.1 h
    have hmem := List.mem_of_getLast? hindex
    unfold safeCoverageIndices at hmem
    have hrange := List.mem_range.1 ((List.takeWhile_prefix _).mem hmem)
    exact .run hrun (by omega) (List.mem_takeWhile_imp hmem)

theorem isSome_of_messagesForRuns {messages : List Message} (h : messagesForRuns input runs = some messages) :
    ∀ run ∈ runs, (messagesOfRun input.snapshot run).isSome = true := by
  unfold messagesForRuns at h
  obtain ⟨pairs, hpairs, -⟩ := Option.bind_eq_some_iff.1 h
  intro run hrun
  obtain ⟨pair, -, hpair⟩ := exists_of_mapM hpairs hrun
  rw [hpair]
  rfl

theorem eligible_of_planOverBudget [DecidableEq D] {lineage : List Run} {window : Nat}
    {rawWithinBudget : Bool} {cursor : CoverageCursor}
    (h : planOverBudget cfg input lineage window rawWithinBudget = some (.compactionRequired cursor)) :
    eligibleCoverageCursor input lineage = some cursor := by
  have hplan (h : planOverBudget.planWithoutCandidate input lineage rawWithinBudget =
      some (.compactionRequired cursor)) : eligibleCoverageCursor input lineage = some cursor := by
    unfold planOverBudget.planWithoutCandidate at h
    split at h
    · cases h
    · split at h
      · cases h
      · next found hfound =>
        cases h
        exact hfound
  unfold planOverBudget at h
  obtain ⟨selected, -, h⟩ := Option.bind_eq_some_iff.1 h
  split at h
  · split at h
    · cases h
    · exact hplan h
  · exact hplan h

theorem exists_of_planContextWindow [DecidableEq D] {cursor : CoverageCursor}
    (h : planContextWindow cfg input = some (.compactionRequired cursor)) :
    ∃ lineage, input.snapshot.lineage input.runId = some lineage ∧ input.requestIndex ≤ maxSafeInteger ∧
      (∀ run ∈ lineage, (messagesOfRun input.snapshot run).isSome = true) ∧
      eligibleCoverageCursor input lineage = some cursor := by
  unfold planContextWindow at h
  extract_lets s at h
  split at h
  · cases h
  · next hvalid =>
    simp only [Option.bind_eq_bind, Option.bind_eq_some_iff] at h
    obtain ⟨lineage, hlineage, messages, hmessages, h⟩ := h
    have hrequest : input.requestIndex ≤ maxSafeInteger := by
      rw [Bool.not_eq_false] at hvalid
      exact (of_decide_eq_true hvalid).2.1
    refine ⟨lineage, hlineage, hrequest, isSome_of_messagesForRuns hmessages, ?_⟩
    split at h
    · cases h
    · split at h
      · cases h
      · exact eligible_of_planOverBudget h

/-! ### The source of an eligible cursor -/

/-- A run that a source can take. -/
def Takable (s : Snapshot D) (run : Run) : Prop :=
  run.conversationId = s.conversationId ∧ ∃ user assistant, OwnMessages s run user assistant

theorem Takable.isSome_canonicalizePair (cfg : Config D) (h : Takable s run) (taken : List Part → List Part) :
    (canonicalizePair cfg s run taken).isSome = true := by
  obtain ⟨hconversation, user, assistant, hown⟩ := h
  rw [hown.canonicalizePair cfg hconversation taken]
  rfl

theorem exists_canonicalizeSource (cfg : Config D) {last : Option (Run × (List Part → List Part))}
    (hruns : ∀ run ∈ runs, Takable s run) (hlast : ∀ run taken, last = some (run, taken) → Takable s run) :
    ∃ pairs, canonicalizeSource cfg s runs last = some pairs := by
  obtain ⟨pairs, hpairs⟩ :=
    exists_mapM_eq_some fun run hrun ↦ (hruns run hrun).isSome_canonicalizePair cfg id
  unfold canonicalizeSource
  rw [hpairs]
  cases last with
  | none => exact ⟨pairs, rfl⟩
  | some last =>
    obtain ⟨pair, hpair⟩ := Option.isSome_iff_exists.1
      ((hlast last.1 last.2 rfl).isSome_canonicalizePair cfg last.2)
    refine ⟨pairs ++ [pair], ?_⟩
    show (canonicalizePair cfg s last.1 last.2).bind _ = _
    rw [hpair]
    rfl

variable {lineage : List Run} {index requestIndex : Nat} {cursor : CoverageCursor}

theorem IsLineage.takable (h : IsLineage s lineage) (hrun : run ∈ lineage)
    (hsafe : coveredRunSafe s run = true) : Takable s run :=
  ⟨h.conversationId run hrun, (exists_of_coveredRunSafe hsafe).2⟩

/-- **Only the parent can make the source of an eligible cursor unsafe.** -/
theorem exists_sourceState_iff (cfg : Config D) (h : IsLineage s lineage) (he : Eligible s lineage requestIndex cursor)
    (hindex : lineage.findIdx? (·.id = cursor.runId) = some index) (parent : Option (Checkpoint D)) :
    (∃ pairs, sourceState cfg s lineage index cursor parent = some pairs) ↔
      parentBefore (parent.bind fun parent ↦ lineage.findIdx? (·.id = parent.coverageThroughRunId))
        (parent.map Checkpoint.cursor) index cursor = true := by
  unfold sourceState
  extract_lets safe parentIndex parentCursor
  cases he with
  | @run found run hrun hlt hsafe =>
    obtain rfl := Option.some.inj (hindex.symm.trans (h.findIdx?_eq hrun))
    have hsafe' : safe = true := hsafe
    simp only [hsafe', Bool.true_and, Option.ite_none_right_eq_some, exists_and_left]
    refine and_iff_left_of_imp fun _ ↦ exists_canonicalizeSource cfg (fun run hrun ↦ ?_) nofun
    have hmem := List.mem_of_mem_drop hrun
    exact h.takable (List.mem_of_mem_take hmem) ((mem_boundary hsafe).2 run hmem)
  | @sealedStep found k partId run hrun hlast hk hbefore hsealed hsafe =>
    obtain rfl := Option.some.inj (hindex.symm.trans (h.findIdx?_eq hrun))
    have hsafe' : safe = true := hsafe
    simp only [hsafe', Bool.true_and, Option.ite_none_right_eq_some, exists_and_left, hrun]
    refine and_iff_left_of_imp fun _ ↦
      exists_canonicalizeSource cfg (fun run hrun ↦ ?_) fun found taken hfound ↦ ?_
    · have hmem := List.mem_of_mem_drop hrun
      exact h.takable (List.mem_of_mem_take hmem) (hbefore run hmem)
    · obtain ⟨rfl, -⟩ := Prod.mk.inj (Option.some.inj hfound)
      obtain ⟨user, assistant, -, hown, -⟩ := exists_of_sealedStepSafe hsealed
      exact ⟨h.conversationId run (List.mem_of_getElem? hrun), user, assistant, hown⟩

end Context
