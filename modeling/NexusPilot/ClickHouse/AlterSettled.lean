import NexusPilot.ClickHouse.AlterExecute
import NexusPilot.ClickHouse.AlterOrder

/-!
# What an executed ALTER leaves to be known

A client decides from the result whether to send a destructive change again, so the result has to say how far the
statements went. The loop is described once (`StatementsRan`): acknowledged statements, and at most one behind them
that was not. Everything else is read off that description.

The counts are `u32`. They are right for every plan that has fewer than 2³² statements, and for each longer one a
backend makes them wrong (`settles_iff`).
-/

namespace ClickHouse

open Drivers

variable {cfg : ChangeConfig} {σ : Type} {backend : ChangeBackend σ}

/-! ### The log -/

/-- The attempt of an event. -/
def BackendEvent.attempt? : BackendEvent → Option Attempt
  | .attempted attempt => some attempt
  | .described _ => none

/-- The statements that were tried. -/
def AlterSession.attempts (s : AlterSession σ) : List Attempt :=
  s.log.filterMap BackendEvent.attempt?

/-- An outcome that leaves open whether the statement ran, or says that it failed. -/
def StatementOutcome.isOpen : StatementOutcome → Bool
  | .failed _ | .ambiguous => true
  | _ => false

/-- The number of statements that were acknowledged. -/
def acknowledgedCount (attempts : List Attempt) : ℕ :=
  attempts.countP fun attempt ↦ attempt.outcome = .acknowledged

/-- The number of statements that failed or are ambiguous. -/
def openCount (attempts : List Attempt) : ℕ :=
  attempts.countP fun attempt ↦ attempt.outcome.isOpen

@[simp]
theorem acknowledgedCount_cons (attempt : Attempt) (attempts : List Attempt) :
    acknowledgedCount (attempt :: attempts) =
      acknowledgedCount attempts + if attempt.outcome = .acknowledged then 1 else 0 := by
  simp [acknowledgedCount, List.countP_cons]

@[simp]
theorem openCount_cons (attempt : Attempt) (attempts : List Attempt) :
    openCount (attempt :: attempts) = openCount attempts + if attempt.outcome.isOpen then 1 else 0 := by
  simp [openCount, List.countP_cons]

theorem acknowledgedCount_add_openCount_le (attempts : List Attempt) :
    acknowledgedCount attempts + openCount attempts ≤ attempts.length := by
  induction attempts with
  | nil => exact le_rfl
  | cons attempt attempts ih =>
    rw [acknowledgedCount_cons, openCount_cons, List.length_cons]
    cases attempt.outcome <;> simp [StatementOutcome.isOpen] <;> omega

/-! ### The loop -/

/-- What the loop makes of a statement that is not acknowledged. -/
def AlterProgress.stop (progress : AlterProgress) (index : ℕ) (queryId : String) :
    StatementOutcome → IpcResult AlterProgress
  | .acknowledged => .ok progress
  | .ambiguous => .ok { progress with queryIds := progress.queryIds ++ [queryId], ambiguous := true }
  | .failed error =>
    .ok { progress with
      queryIds := progress.queryIds ++ [queryId]
      failedStatementIndex := some (asU32 index)
      terminalError := some error }
  | .canceledBeforeSend error =>
    if progress.appliedCount = 0 then .error error else .ok { progress with ambiguous := true }

/-- What the loop makes of a statement that is acknowledged. -/
def AlterProgress.acknowledge (progress : AlterProgress) (queryId : String) : AlterProgress :=
  { progress with
    queryIds := progress.queryIds ++ [queryId], appliedCount := asU32 (progress.appliedCount + 1) }

/-- **The runs of the loop**: acknowledged statements, and at most one behind them that is not. -/
inductive StatementsRan (cfg : ChangeConfig) :
    List String → ℕ → AlterProgress → List Attempt → IpcResult AlterProgress → Prop
  | done (index : ℕ) (progress : AlterProgress) : StatementsRan cfg [] index progress [] (.ok progress)
  | acknowledged {statement : String} {statements : List String} {index : ℕ} {progress : AlterProgress}
      {attempts : List Attempt} {result : IpcResult AlterProgress} (queryId : String)
      (h : StatementsRan cfg statements (index + 1) (progress.acknowledge queryId) attempts result) :
      StatementsRan cfg (statement :: statements) index progress
        (⟨changeCommand cfg statement queryId, .acknowledged, true⟩ :: attempts) result
  | stopped {statement : String} {statements : List String} {index : ℕ} {progress : AlterProgress}
      {outcome : StatementOutcome} {sent : Bool} (queryId : String) (h : outcome ≠ .acknowledged) :
      StatementsRan cfg (statement :: statements) index progress
        [⟨changeCommand cfg statement queryId, outcome, sent⟩] (progress.stop index queryId outcome)

theorem exists_executeStatementOnce (backend : ChangeBackend σ) (operation : String) (command : ChangeCommandRequest) (s : AlterSession σ) :
    ∃ outcome sent world, executeStatementOnce backend operation command s =
        (outcome, ⟨world, s.log ++ [.attempted ⟨command, outcome, sent⟩]⟩) ∧
      (outcome = .acknowledged → sent = true) := by
  rw [executeStatementOnce]
  cases rejectShutdownBeforeSend backend operation s with
  | error error => exact ⟨_, _, _, rfl, fun h ↦ (nomatch h)⟩
  | ok =>
    refine ⟨_, _, _, rfl, fun h ↦ ?_⟩
    cases hanswer : (backend.execute command s.world).1 with
    | done => rfl
    | elapsed => rfl
    | failed error => rfl
    | shutdown sent =>
      rw [hanswer] at h
      cases h

/-- The loop, as one of its runs. -/
theorem exists_statementsRan (cfg : ChangeConfig) (backend : ChangeBackend σ) (statements : List String) (index : ℕ)
    (progress : AlterProgress) (s : AlterSession σ) :
    ∃ attempts result world, executeStatements cfg backend statements index progress s =
        (result, ⟨world, s.log ++ attempts.map .attempted⟩) ∧
      StatementsRan cfg statements index progress attempts result := by
  induction statements generalizing index progress s with
  | nil => exact ⟨[], _, s.world, by rw [List.map_nil, List.append_nil]; rfl, .done index progress⟩
  | cons statement statements ih =>
    set queryId := (backend.queryId s.world).1 with hqueryId
    obtain ⟨outcome, sent, world, honce, hsent⟩ := exists_executeStatementOnce backend "alter table"
      (changeCommand cfg statement queryId) { s with world := (backend.queryId s.world).2 }
    have hrest : executeStatements cfg backend (statement :: statements) index progress s =
        if outcome = .acknowledged then
          executeStatements cfg backend statements (index + 1) (progress.acknowledge queryId)
            ⟨world, s.log ++ [.attempted ⟨changeCommand cfg statement queryId, outcome, sent⟩]⟩
        else (progress.stop index queryId outcome,
          ⟨world, s.log ++ [.attempted ⟨changeCommand cfg statement queryId, outcome, sent⟩]⟩) := by
      rw [executeStatements]
      dsimp only
      rw [← hqueryId, honce]
      cases outcome with
      | acknowledged => rfl
      | ambiguous => rfl
      | failed error => rfl
      | canceledBeforeSend error =>
        dsimp only [AlterProgress.stop]
        split <;> rfl
    rw [hrest]
    by_cases hack : outcome = .acknowledged
    · rw [if_pos hack]
      obtain ⟨attempts, result, world', hrun, hran⟩ := ih (index + 1) (progress.acknowledge queryId)
        ⟨world, s.log ++ [.attempted ⟨changeCommand cfg statement queryId, outcome, sent⟩]⟩
      refine ⟨⟨changeCommand cfg statement queryId, .acknowledged, true⟩ :: attempts, result, world', ?_,
        .acknowledged queryId hran⟩
      rw [hrun, hack, hsent hack, List.append_assoc]
      rfl
    · rw [if_neg hack]
      exact ⟨[⟨changeCommand cfg statement queryId, outcome, sent⟩], _, world, rfl, .stopped queryId hack⟩

section Runs

variable {statements : List String} {index : ℕ} {progress progress' : AlterProgress} {attempts : List Attempt}
  {result : IpcResult AlterProgress}

section

variable (h : StatementsRan cfg statements index progress attempts result)
include h

/-- The statements are tried in their order. -/
theorem StatementsRan.inOrder : attempts.map (·.command.statement) <+: statements := by
  induction h with
  | done => exact List.prefix_rfl
  | acknowledged queryId _ ih => exact List.cons_prefix_cons.2 ⟨rfl, ih⟩
  | stopped queryId => exact List.cons_prefix_cons.2 ⟨rfl, List.nil_prefix⟩

/-- What is not acknowledged is the last statement that is tried. -/
theorem StatementsRan.stops {before after : List Attempt} {attempt : Attempt}
    (hattempts : attempts = before ++ attempt :: after) (hopen : attempt.outcome ≠ .acknowledged) : after = [] := by
  induction h generalizing before with
  | done => cases before <;> cases hattempts
  | acknowledged queryId _ ih =>
    cases before with
    | nil =>
      cases hattempts
      exact absurd rfl hopen
    | cons first before => exact ih (List.cons.inj hattempts).2
  | stopped queryId =>
    cases before with
    | nil => exact ((List.cons.inj hattempts).2).symm
    | cons first before =>
      have hnil := (List.cons.inj hattempts).2
      cases before <;> cases hnil

/-- Only the last statement may not have been sent. -/
theorem StatementsRan.sent : attempts.filter (·.sent) <+: attempts := by
  induction h with
  | done => exact List.prefix_rfl
  | acknowledged queryId _ ih =>
    rw [List.filter_cons_of_pos rfl]
    exact List.cons_prefix_cons.2 ⟨rfl, ih⟩
  | @stopped _ _ _ _ _ sent queryId =>
    cases sent with
    | true => exact List.prefix_rfl
    | false => exact List.nil_prefix

end

variable {n : ℕ}

theorem asU32_add_one {k : ℕ} (h : k = asU32 n) : asU32 (k + 1) = asU32 (n + 1) := by
  rw [h, asU32, asU32, asU32, Nat.mod_add_mod]

section

variable (h : StatementsRan cfg statements index progress attempts result)
include h

/-- The counters of a loop that ends. -/
theorem StatementsRan.counted (hresult : result = .ok progress') (hn : progress.appliedCount = asU32 n) :
    progress'.appliedCount = asU32 (n + acknowledgedCount attempts) ∧
      progress'.queryIds.length = progress.queryIds.length + (acknowledgedCount attempts + openCount attempts) := by
  induction h generalizing n with
  | done =>
    cases hresult
    exact ⟨hn, rfl⟩
  | @acknowledged _ _ _ progress attempts _ queryId _ ih =>
    obtain ⟨happlied, hlength⟩ := ih hresult (n := n + 1) (asU32_add_one hn)
    have hone : (progress.acknowledge queryId).queryIds.length = progress.queryIds.length + 1 := by
      rw [AlterProgress.acknowledge, List.length_append]
      rfl
    rw [hone] at hlength
    rw [acknowledgedCount_cons, openCount_cons, if_pos rfl,
      if_neg (show ¬ StatementOutcome.acknowledged.isOpen = true from Bool.false_ne_true)]
    exact ⟨by rw [happlied, Nat.add_assoc, Nat.add_comm 1], by omega⟩
  | @stopped _ _ _ progress outcome _ queryId hopen =>
    cases outcome with
    | acknowledged => exact absurd rfl hopen
    | ambiguous =>
      cases hresult
      exact ⟨hn, by rw [List.length_append]; rfl⟩
    | failed error =>
      cases hresult
      exact ⟨hn, by rw [List.length_append]; rfl⟩
    | canceledBeforeSend error =>
      rw [AlterProgress.stop] at hresult
      split_ifs at hresult
      cases hresult
      exact ⟨hn, rfl⟩

theorem StatementsRan.length_le :
    acknowledgedCount attempts + openCount attempts ≤ statements.length := by
  have hlength := h.inOrder.length_le
  rw [List.length_map] at hlength
  exact (acknowledgedCount_add_openCount_le attempts).trans hlength

/-- A failure that is reported is the only statement of the loop that is not acknowledged. -/
theorem StatementsRan.not_ambiguous (hresult : result = .ok progress') (hstart : progress.terminalError = none)
    (hend : progress'.terminalError.isSome = true) :
    ∀ attempt ∈ attempts, attempt.outcome ≠ .ambiguous := by
  induction h with
  | done =>
    cases hresult
    rw [hstart] at hend
    cases hend
  | acknowledged queryId _ ih =>
    intro attempt hattempt
    obtain rfl | hattempt := List.mem_cons.1 hattempt
    · exact fun hcontra ↦ (nomatch hcontra)
    · exact ih hresult hstart attempt hattempt
  | @stopped _ _ _ progress outcome _ queryId hopen =>
    intro attempt hattempt hcontra
    rw [List.mem_singleton] at hattempt
    subst hattempt
    cases hcontra
    cases hresult
    rw [show progress.terminalError = none from hstart] at hend
    cases hend

/-- A loop that fails was canceled before its first statement was sent. -/
theorem StatementsRan.canceled {error : IpcError} (hresult : result = .error error)
    (hn : progress.appliedCount = asU32 n) (hbound : n + statements.length < 2 ^ 32) :
    n = 0 ∧ ∀ attempt ∈ attempts, attempt.outcome ≠ .acknowledged ∧ attempt.outcome ≠ .ambiguous := by
  induction h generalizing n with
  | done => cases hresult
  | acknowledged queryId _ ih =>
    rw [List.length_cons] at hbound
    obtain ⟨hzero, -⟩ := ih hresult (n := n + 1) (asU32_add_one hn) (by omega)
    exact absurd hzero (Nat.succ_ne_zero n)
  | @stopped _ _ _ progress outcome _ queryId hopen =>
    cases outcome with
    | acknowledged => exact absurd rfl hopen
    | ambiguous => cases hresult
    | failed error => cases hresult
    | canceledBeforeSend error =>
      rw [AlterProgress.stop] at hresult
      split_ifs at hresult with hzero
      refine ⟨?_, ?_⟩
      · rw [hn, asU32, Nat.mod_eq_of_lt (by omega)] at hzero
        exact hzero
      · intro attempt hattempt
        rw [List.mem_singleton] at hattempt
        subst hattempt
        exact ⟨fun hcontra ↦ (nomatch hcontra), fun hcontra ↦ (nomatch hcontra)⟩

end

end Runs

/-! ### The result -/

/-- The statements that are planned for a request. -/
def plannedStatements (cfg : ChangeConfig) (request : ExecuteChangeRequest) : List String :=
  match request.target with
  | .other => []
  | .tableAlter baseline desired columnRenames =>
    match planAlterTable cfg.alphanumeric ⟨baseline.toTableSchema, desired, columnRenames⟩ with
    | .ok plan => plan.statements
    | .error _ => []

/-- **A settled ALTER**: what was sent, and what the result says of it. -/
structure Settles (cfg : ChangeConfig) (request : ExecuteChangeRequest) (log : List BackendEvent)
    (answer : IpcResult TableAlterResult) : Prop where
  /-- The statements that are sent are the first ones of the plan, in its order and each once. -/
  inOrder : ((log.filterMap BackendEvent.attempt?).filter (·.sent)).map (·.command.statement) <+:
    plannedStatements cfg request
  /-- Nothing follows a statement that is not acknowledged. -/
  stops : ∀ before attempt after, log.filterMap BackendEvent.attempt? = before ++ attempt :: after →
    attempt.outcome ≠ .acknowledged → after = []
  /-- An error says that no statement was acknowledged and that none is ambiguous. -/
  refused : ∀ error, answer = .error error → ∀ attempt ∈ log.filterMap BackendEvent.attempt?,
    attempt.outcome ≠ .acknowledged ∧ attempt.outcome ≠ .ambiguous
  /-- An applied ALTER is one whose table was described last, as the target. -/
  applied : ∀ result, answer = .ok result → result.status = .applied →
    ∃ baseline desired columnRenames schema, request.target = .tableAlter baseline desired columnRenames ∧
      log.getLast? = some (.described (.ok schema)) ∧
      tableSchemaMatchesTarget cfg.alphanumeric desired schema.toTableSchema = true
  /-- Otherwise the counts are those of the statements. -/
  counted : ∀ result, answer = .ok result → result.status ≠ .applied →
    result.progress.appliedCount = acknowledgedCount (log.filterMap BackendEvent.attempt?) ∧
      result.progress.appliedCount + openCount (log.filterMap BackendEvent.attempt?) +
        result.progress.remainingCount = (plannedStatements cfg request).length

section Results

variable {request : ExecuteChangeRequest} {baseline : RecordedTable} {desired : CreateTableTarget}
  {statements : List String}

@[simp]
theorem attempts_map_attempted (attempts : List Attempt) :
    (attempts.map BackendEvent.attempted).filterMap BackendEvent.attempt? = attempts := by
  rw [List.filterMap_map]
  exact List.filterMap_some

theorem attempts_log (answer : IpcResult RecordedTable) (attempts : List Attempt) (tail : List BackendEvent) :
    ([] ++ [BackendEvent.described answer] ++ attempts.map BackendEvent.attempted ++ tail).filterMap
        BackendEvent.attempt? =
      attempts ++ tail.filterMap BackendEvent.attempt? := by
  rw [List.filterMap_append, List.filterMap_append, attempts_map_attempted]
  rfl

theorem checkAlterRequest_eq_ok (h : checkAlterRequest cfg request = .ok (baseline, desired, statements)) :
    plannedStatements cfg request = statements ∧
      ∃ columnRenames, request.target = .tableAlter baseline desired columnRenames := by
  rw [checkAlterRequest] at h
  rw [plannedStatements]
  cases htarget : request.target with
  | other =>
    rw [htarget] at h
    cases h
  | tableAlter baseline' desired' columnRenames =>
    rw [htarget] at h
    obtain ⟨plan, hplan, h⟩ := bind_eq_ok_iff.1 h
    obtain ⟨_, -, h⟩ := bind_eq_ok_iff.1 h
    obtain ⟨_, -, h⟩ := bind_eq_ok_iff.1 h
    obtain ⟨_, -, h⟩ := bind_eq_ok_iff.1 h
    cases h
    dsimp only
    rw [hplan]
    exact ⟨rfl, columnRenames, rfl⟩

variable {log : List BackendEvent} {remote : IpcResult RecordedTable}

/-- A call that tries no statement and fails. -/
theorem settles_of_untried {error : IpcError} (hlog : log.filterMap BackendEvent.attempt? = []) :
    Settles cfg request log (.error error) where
  inOrder := by rw [hlog]; exact List.nil_prefix
  stops before attempt after h := by
    rw [hlog] at h
    cases before <;> cases h
  refused _ _ attempt h := by
    rw [hlog] at h
    cases h
  applied _ h := (nomatch h)
  counted _ h := (nomatch h)

theorem exists_validateRemoteBaseline (cfg : ChangeConfig) (backend : ChangeBackend σ) (container : Schema.ContainerRef) (expected : RecordedTable)
    (s : AlterSession σ) :
    ∃ answer result world, validateRemoteBaseline cfg backend container expected s =
      (result, ⟨world, s.log ++ [.described answer]⟩) := by
  rw [validateRemoteBaseline, describeTable]
  dsimp only
  split
  · exact ⟨_, _, _, rfl⟩
  · split
    · exact ⟨_, _, _, rfl⟩
    · exact ⟨_, _, _, rfl⟩

/-- The error that the loop's end turns into. -/
def AlterProgress.refusal (progress : AlterProgress) : Option IpcError :=
  if progress.appliedCount = 0 then progress.terminalError else none

theorem exists_finishAlter (cfg : ChangeConfig) (backend : ChangeBackend σ) (desired : CreateTableTarget)
    (statements : List String) (progress : AlterProgress) (s : AlterSession σ) :
    ∃ remote world, finishAlter cfg backend desired statements progress s =
      (match progress.refusal with
        | some error => .error error
        | none => .ok (alterResult cfg desired statements progress remote),
        ⟨world, s.log ++ [.described remote]⟩) := by
  refine ⟨(backend.describe (alteredContainer desired) s.world).1,
    (backend.describe (alteredContainer desired) s.world).2, ?_⟩
  rw [finishAlter, describeTable, AlterProgress.refusal]
  dsimp only
  cases progress.terminalError with
  | none => rw [ite_self]
  | some error =>
    by_cases hzero : progress.appliedCount = 0
    · simp only [if_pos hzero]
    · simp only [if_neg hzero]

/-- A call that tried some statements, as the loop tries them. -/
theorem StatementsRan.settles {attempts : List Attempt} {result : IpcResult AlterProgress}
    (h : StatementsRan cfg statements 0 {} attempts result)
    (hplanned : plannedStatements cfg request = statements)
    (hlog : log.filterMap BackendEvent.attempt? = attempts) {answer : IpcResult TableAlterResult}
    (hrefused : ∀ error, answer = .error error → ∀ attempt ∈ attempts,
      attempt.outcome ≠ .acknowledged ∧ attempt.outcome ≠ .ambiguous)
    (happlied : ∀ result, answer = .ok result → result.status = .applied →
      ∃ baseline desired columnRenames schema, request.target = .tableAlter baseline desired columnRenames ∧
        log.getLast? = some (.described (.ok schema)) ∧
        tableSchemaMatchesTarget cfg.alphanumeric desired schema.toTableSchema = true)
    (hcounted : ∀ result, answer = .ok result → result.status ≠ .applied →
      result.progress.appliedCount = acknowledgedCount attempts ∧
        result.progress.appliedCount + openCount attempts + result.progress.remainingCount = statements.length) :
    Settles cfg request log answer where
  inOrder := by
    rw [hlog, hplanned]
    exact (h.sent.map _).trans h.inOrder
  stops before attempt after hattempts hopen := by
    rw [hlog] at hattempts
    exact h.stops hattempts hopen
  refused := by rwa [hlog]
  applied := happlied
  counted := by rwa [hlog, hplanned]

theorem alterResult_status {progress : AlterProgress}
    (h : (alterResult cfg desired statements progress remote).status = .applied) :
    ∃ schema, remote = .ok schema ∧ tableSchemaMatchesTarget cfg.alphanumeric desired schema.toTableSchema = true := by
  rw [alterResult] at h
  cases remote with
  | error error => cases h
  | ok schema =>
    rw [concludeAlter] at h
    dsimp only at h
    split_ifs at h with hmatches
    exact ⟨schema, rfl, hmatches⟩

theorem alterResult_progress {progress : AlterProgress}
    (h : (alterResult cfg desired statements progress remote).status ≠ .applied) :
    (alterResult cfg desired statements progress remote).progress = progress.report (asU32 statements.length) := by
  rw [alterResult] at h ⊢
  cases remote with
  | error error => rfl
  | ok schema =>
    rw [concludeAlter] at h ⊢
    dsimp only at h ⊢
    split_ifs at h ⊢ with hmatches happlied
    · exact absurd rfl h
    · rfl
    · rfl

/-- **Fewer than 2³² statements** are settled, whatever the backend does. -/
theorem settles_of_lt (hbound : (plannedStatements cfg request).length < 2 ^ 32) (backend : ChangeBackend σ)
    (world : σ) :
    Settles cfg request (executeTableAlter cfg backend request ⟨world, []⟩).2.log
      (executeTableAlter cfg backend request ⟨world, []⟩).1 := by
  rw [executeTableAlter]
  cases hcheck : checkAlterRequest cfg request with
  | error error => exact settles_of_untried rfl
  | ok checked =>
    obtain ⟨baseline, desired, statements⟩ := checked
    obtain ⟨hplanned, columnRenames, htarget⟩ := checkAlterRequest_eq_ok hcheck
    obtain ⟨answer, result, world₁, hbaseline⟩ := exists_validateRemoteBaseline cfg backend
      (alteredContainer desired) baseline ⟨world, []⟩
    dsimp only
    rw [hbaseline]
    cases result with
    | error error => exact settles_of_untried rfl
    | ok =>
      dsimp only
      cases rejectShutdownBeforeSend backend "alter table" ⟨world₁, [] ++ [.described answer]⟩ with
      | error error => exact settles_of_untried rfl
      | ok =>
        obtain ⟨attempts, result, world₂, hrun, hran⟩ := exists_statementsRan cfg backend statements 0 {} ⟨world₁, [] ++ [.described answer]⟩
        rw [hplanned] at hbound
        dsimp only
        rw [hrun]
        cases result with
        | error error =>
          have hlog := attempts_log answer attempts []
          rw [List.append_nil, List.filterMap_nil, List.append_nil] at hlog
          exact hran.settles hplanned hlog (fun _ _ ↦ (hran.canceled rfl (n := 0) rfl (by omega)).2)
            (fun _ h ↦ (nomatch h)) fun _ h ↦ (nomatch h)
        | ok progress =>
          obtain ⟨remote, world₃, hfinish⟩ := exists_finishAlter cfg backend desired statements progress
             ⟨world₂, [] ++ [.described answer] ++ attempts.map .attempted⟩
          have hlog := attempts_log answer attempts [.described remote]
          rw [show [BackendEvent.described remote].filterMap BackendEvent.attempt? = [] from rfl,
            List.append_nil] at hlog
          obtain ⟨happlied, hlength⟩ := hran.counted rfl (n := 0) rfl
          have hle := hran.length_le
          rw [Nat.zero_add, asU32, Nat.mod_eq_of_lt (by omega)] at happlied
          dsimp only
          rw [hfinish]
          cases hrefusal : progress.refusal with
          | some error =>
            rw [AlterProgress.refusal] at hrefusal
            split_ifs at hrefusal with hzero
            have hnone := List.countP_eq_zero.1 (happlied.symm.trans hzero)
            have hambiguous := hran.not_ambiguous rfl rfl (by rw [hrefusal]; rfl)
            exact hran.settles hplanned hlog
              (fun _ _ attempt hattempt ↦ ⟨by simpa using hnone attempt hattempt, hambiguous attempt hattempt⟩)
              (fun _ h ↦ (nomatch h)) fun _ h ↦ (nomatch h)
          | none =>
            refine hran.settles hplanned hlog (fun _ h ↦ (nomatch h)) ?_ ?_
            · rintro _ ⟨⟩ hstatus
              obtain ⟨schema, rfl, hmatches⟩ := alterResult_status hstatus
              exact ⟨baseline, desired, columnRenames, schema, htarget, List.getLast?_concat, hmatches⟩
            · rintro _ ⟨⟩ hstatus
              rw [alterResult_progress hstatus, AlterProgress.report]
              dsimp only
              rw [hlength, asU32, asU32, Nat.mod_eq_of_lt hbound, Nat.mod_eq_of_lt (by simp; omega)]
              exact ⟨happlied, by simp; omega⟩

/-- A backend that acknowledges one statement and refuses the next; the table is described before, and not after. -/
def stallingBackend (baseline : RecordedTable) : ChangeBackend Bool where
  describe _ executed := (if executed then .error (.internal "" "") else .ok baseline, executed)
  execute _ executed := (if executed then .failed .invalidParams else .done, true)
  shutdown _ := false
  queryId executed := ("", executed)

/-- **From 2³² statements on** the counts are not always those of the statements. -/
theorem not_settles_stalling (hcheck : checkAlterRequest cfg request = .ok (baseline, desired, statements))
    (hlength : 2 ^ 32 ≤ statements.length) :
    ¬ Settles cfg request (executeTableAlter cfg (stallingBackend baseline) request ⟨false, []⟩).2.log
      (executeTableAlter cfg (stallingBackend baseline) request ⟨false, []⟩).1 := by
  obtain ⟨first, statements, rfl⟩ := List.exists_cons_of_length_pos (show 0 < statements.length by omega)
  obtain ⟨second, statements, rfl⟩ := List.exists_cons_of_length_pos (show 0 < statements.length by
    rw [List.length_cons] at hlength
    omega)
  obtain ⟨hplanned, -⟩ := checkAlterRequest_eq_ok hcheck
  have hbaseline : tableBaselinesEqual cfg baseline baseline = true := decide_eq_true rfl
  have hremote : validateRemoteBaseline cfg (stallingBackend baseline) (alteredContainer desired) baseline
      ⟨false, []⟩ = (.ok (), ⟨false, [.described (.ok baseline)]⟩) := by
    show (if !tableBaselinesEqual cfg baseline baseline then _ else _) = _
    rw [hbaseline]
    rfl
  have hrun : ∃ result log, executeTableAlter cfg (stallingBackend baseline) request ⟨false, []⟩ =
        (.ok result, ⟨true, log⟩) ∧ result.status = .outcomeUnknown ∧ result.progress.appliedCount = 1 ∧
      result.progress.remainingCount = asU32 (statements.length + 2) - 2 ∧
      openCount (log.filterMap BackendEvent.attempt?) = 1 := by
    rw [executeTableAlter, hcheck]
    dsimp only
    rw [hremote]
    exact ⟨_, _, rfl, rfl, rfl, rfl, rfl⟩
  obtain ⟨result, log, hrun, hstatus, happlied, hremaining, hopen⟩ := hrun
  intro h
  rw [hrun] at h
  have hcounted := (h.counted result rfl (by rw [hstatus]; exact fun hcontra ↦ (nomatch hcontra))).2
  have hmod : asU32 (statements.length + 2) < 2 ^ 32 := Nat.mod_lt _ (Nat.two_pow_pos 32)
  rw [hplanned, happlied, hremaining, hopen, List.length_cons, List.length_cons] at hcounted
  rw [List.length_cons, List.length_cons] at hlength
  omega

end Results

namespace Sample

/-- A column that is to be dropped; the names of two such columns differ. -/
def droppedColumn (i : ℕ) : ColumnSchema :=
  column (String.ofList (List.replicate (i + 1) 'b')) (i + 2)

/-- All columns but the first are to be dropped. -/
def dropping (n : ℕ) : AlterTableTarget :=
  ⟨Sample.table (column "a" 1 :: (List.range n).map droppedColumn), tableTarget [columnTarget "a"], []⟩

theorem references_tuple (identifier : String) (h : identifier ≠ "tuple") :
    expressionReferencesIdentifier "tuple()" identifier = false := by
  have hlist : ¬ "tuple".toList = identifier.toList := fun heq ↦ h (String.toList_injective heq).symm
  have hrefs : referencesFrom identifier.toList 0 "tuple()".toList = ("tuple".toList == identifier.toList || false) := by
    rfl
  rw [expressionReferencesIdentifier, hrefs, beq_eq_false_iff_ne.2 hlist, Bool.or_false, Bool.and_false]

section Dropping

variable (n : ℕ)

theorem name_droppedColumn_ne {i : ℕ} {name : String} (h : name.toList.head? ≠ some 'b') :
    (droppedColumn i).name ≠ name := by
  intro heq
  refine h ?_
  rw [← heq]
  simp [droppedColumn, column, List.replicate_succ]

theorem baselineByName_dropping : (dropping n).baselineByName "a" = some (column "a" 1) := by
  have hnone : ((List.range n).map droppedColumn).reverse.find? (fun item ↦ item.name == "a") = none :=
    List.find?_eq_none.2 fun item hitem ↦ by
      obtain ⟨i, -, rfl⟩ := List.mem_map.1 (List.mem_reverse.1 hitem)
      simpa using name_droppedColumn_ne (by decide)
  show ((column "a" 1 :: (List.range n).map droppedColumn).reverse.find? fun item ↦ item.name == "a") = _
  rw [List.reverse_cons, List.find?_append, hnone]
  rfl

theorem sourceForTarget_dropping : (dropping n).sourceForTarget "a" = some "a" := by
  rw [AlterTableTarget.sourceForTarget, baselineByName_dropping]
  rfl

theorem matchedSources_dropping : (dropping n).matchedSources = ["a"] := by
  show [columnTarget "a"].filterMap (fun column ↦ (dropping n).sourceForTarget column.name) = _
  rw [List.filterMap_cons, show (columnTarget "a").name = "a" from rfl, sourceForTarget_dropping]
  rfl

theorem filter_dropping (p : ColumnSchema → Bool) (hfirst : p (column "a" 1) = false)
    (h : ∀ i, p (droppedColumn i) = true) :
    (dropping n).baseline.columns.filter p = (List.range n).map droppedColumn := by
  show (column "a" 1 :: (List.range n).map droppedColumn).filter p = _
  rw [List.filter_cons_of_neg (by rw [hfirst]; exact Bool.false_ne_true), List.filter_eq_self]
  intro item hitem
  obtain ⟨i, -, rfl⟩ := List.mem_map.1 hitem
  exact h i

theorem length_dropOperations : (dropOperations (dropping n)).length = n := by
  rw [dropOperations, List.length_map, (perm_sortByKey _ _).length_eq, matchedSources_dropping,
    filter_dropping n _ rfl fun i ↦ by simpa using name_droppedColumn_ne (by decide), List.length_map,
    List.length_range]

theorem validateColumnDependencies_dropping : validateColumnDependencies (dropping n) = .ok () := by
  refine forM_eq_ok_iff.2 fun item hitem ↦ if_neg fun h ↦ ?_
  have hreference := h.2
  obtain rfl | hitem := List.mem_cons.1 hitem
  · obtain h | h := h.1
    · cases h
    · exact absurd List.mem_cons_self h.2
  · obtain ⟨i, -, rfl⟩ := List.mem_map.1 hitem
    have hfalse : immutableSemanticsReference (dropping n) (droppedColumn i).name = false := by
      show (false || expressionReferencesIdentifier "tuple()" (droppedColumn i).name || false || false) = false
      rw [references_tuple _ (name_droppedColumn_ne (by decide))]
      rfl
    rw [hfalse] at hreference
    cases hreference

theorem validateAlterTarget_dropping (hn : 0 < n) :
    validateAlterTarget Char.isAlphanum (dropping n) = .ok () := by
  have heditable : ((dropping n).baseline.columns.any fun column ↦ column.editability ≠ .editable) = false := by
    refine List.any_eq_false.2 fun item hitem ↦ ?_
    obtain rfl | hitem := List.mem_cons.1 hitem
    · decide
    · obtain ⟨i, -, rfl⟩ := List.mem_map.1 hitem
      exact of_decide_eq_true rfl
  have hbaseline : validateEditableTableBaseline (dropping n).baseline = .ok () := by
    show (if Schema.ContainerKind.table ≠ .table ∨ Text.trim "analytics".toList = [] ∨
        Text.trim "events".toList = [] then _ else if SchemaEditability.editable ≠ .editable then _ else
          if ((dropping n).baseline.columns.any fun column ↦ column.editability ≠ .editable) = true then _
          else _) = _
    rw [if_neg (by decide), if_neg (by decide), heditable]
    rfl
  have hcreate : validateCreateTableTarget (dropping n).desired = .ok () :=
    show validateCreateTableTarget (tableTarget [columnTarget "a"]) = .ok () by decide
  have hkeys : validateEngineAndImmutableKeysUnchanged Char.isAlphanum (dropping n) = .ok () := by
    show validateEngineAndImmutableKeysUnchanged Char.isAlphanum (dropping 0) = .ok ()
    decide
  have hmatches : tableSchemaMatchesTarget Char.isAlphanum (dropping n).desired (dropping n).baseline = false := by
    have hlength : ((dropping n).baseline.columns.length == (dropping n).desired.columns.length) = false := by
      show ((column "a" 1 :: (List.range n).map droppedColumn).length == 1) = false
      simpa using hn.ne'
    simp only [tableSchemaMatchesTarget, hlength, Bool.and_false, Bool.false_and]
  refine bind_eq_ok_iff.2 ⟨(), hbaseline, bind_eq_ok_iff.2 ⟨(), hcreate, bind_eq_ok_iff.2 ⟨(), rfl,
    bind_eq_ok_iff.2 ⟨(), hkeys, bind_eq_ok_iff.2 ⟨(), rfl, bind_eq_ok_iff.2 ⟨(), rfl,
      bind_eq_ok_iff.2 ⟨(), rfl, bind_eq_ok_iff.2 ⟨(), validateColumnDependencies_dropping n,
        bind_eq_ok_iff.2 ⟨(), rfl, ?_⟩⟩⟩⟩⟩⟩⟩⟩⟩
  rw [hmatches]
  rfl

/-- The plan drops the columns one by one. -/
theorem exists_plan_dropping (hn : 0 < n) :
    ∃ plan, planAlterTable Char.isAlphanum (dropping n) = .ok plan ∧ plan.statements.length = n ∧
      plan.requiredConfirmation = .confirm := by
  have hadds : addColumns (dropping n) (dropping n).desired.columns.zipIdx (dropping n).matchedOrder =
      .ok ((dropping n).matchedOrder, []) := by
    show addColumns (dropping n) [(columnTarget "a", 0)] _ = _
    rw [addColumns, show (columnTarget "a").name = "a" from rfl, sourceForTarget_dropping]
    rfl
  have horder : (dropping n).matchedOrder = ["a"] := by
    have hnone : ((List.range n).map droppedColumn).filter (fun column ↦ column.name ∈ ["a"]) = [] :=
      List.filter_eq_nil_iff.2 fun item hitem ↦ by
        obtain ⟨i, -, rfl⟩ := List.mem_map.1 hitem
        simpa using name_droppedColumn_ne (by decide)
    rw [AlterTableTarget.matchedOrder, matchedSources_dropping]
    show (column "a" 1 :: ((List.range n).map droppedColumn).filter fun column ↦ column.name ∈ ["a"]).map _ = _
    rw [hnone]
    rfl
  have hmodifies : modifyColumns Char.isAlphanum (dropping n) (dropping n).desired.columns.zipIdx ["a"] =
      .ok ([], []) := by
    show modifyColumns Char.isAlphanum (dropping n) [(columnTarget "a", 0)] ["a"] = _
    rw [modifyColumns, show (columnTarget "a").name = "a" from rfl, sourceForTarget_dropping]
    dsimp only
    rw [baselineByName_dropping]
    rfl
  have htable : tableOperations Char.isAlphanum (dropping n) = [] := by
    show tableOperations Char.isAlphanum (dropping 0) = []
    decide
  have hdrops : dropOperations (dropping n) ≠ [] := fun h ↦ by
    have hlength := length_dropOperations n
    rw [h] at hlength
    exact hn.ne hlength
  have hdiff : diffAlterTable Char.isAlphanum (dropping n) = .ok (dropOperations (dropping n)) := by
    refine bind_eq_ok_iff.2 ⟨(), validateAlterTarget_dropping n hn, bind_eq_ok_iff.2 ⟨[], rfl,
      bind_eq_ok_iff.2 ⟨_, hadds, ?_⟩⟩⟩
    dsimp only
    rw [horder]
    refine bind_eq_ok_iff.2 ⟨_, hmodifies, ?_⟩
    dsimp only
    rw [htable, List.append_nil, List.append_nil, List.append_nil, List.append_nil, List.nil_append]
    exact if_neg hdrops
  obtain ⟨operation, hoperation⟩ := List.exists_mem_of_ne_nil _ hdrops
  have hdestructive : ((dropOperations (dropping n)).map operationSummary).any (·.destructive) = true := by
    refine List.any_eq_true.2 ⟨_, List.mem_map_of_mem hoperation, ?_⟩
    obtain ⟨_, -, rfl⟩ := List.mem_map.1 hoperation
    rfl
  refine ⟨_, bind_eq_ok_iff.2 ⟨_, hdiff, rfl⟩, ?_, if_pos hdestructive⟩
  rw [List.length_map, length_dropOperations]

end Dropping

/-- A text stands for its hash. -/
def changeConfig : ChangeConfig where
  alphanumeric := Char.isAlphanum
  sha256 := id
  revisionHash table := table.canonicalCreateQuery
  timeoutSeconds := 30

/-- The baseline as it is recorded. -/
def recorded (n : ℕ) : RecordedTable :=
  { (dropping n).baseline with
    uuid := none, rawExpression := "MergeTree", canonicalCreateQuery := "CREATE TABLE analytics.events" }

/-- The confirmed request to drop all columns but the first. -/
def dropRequest (n : ℕ) : ExecuteChangeRequest where
  target := .tableAlter (recorded n) (dropping n).desired []
  baseline := .table (recorded n)
  expectedPlanHash := planHash changeConfig alterTableHashDomain
    ((planAlterTable Char.isAlphanum (dropping n)).toOption.elim [] (·.statements))
  confirmation := some ⟨true, none, none⟩

theorem checkAlterRequest_dropRequest (n : ℕ) (hn : 0 < n) :
    ∃ statements, statements.length = n ∧
      checkAlterRequest changeConfig (dropRequest n) = .ok (recorded n, (dropping n).desired, statements) := by
  obtain ⟨plan, hplan, hlength, hconfirm⟩ := exists_plan_dropping n hn
  have hhash : (dropRequest n).expectedPlanHash = planHash changeConfig alterTableHashDomain plan.statements := by
    rw [dropRequest, hplan]
    rfl
  have hbaseline : validateRequestTableBaseline changeConfig (.table (recorded n)) (recorded n) = .ok () := by
    rw [validateRequestTableBaseline, show tableBaselinesEqual changeConfig (recorded n) (recorded n) = true from
      decide_eq_true rfl]
    rfl
  refine ⟨plan.statements, hlength, bind_eq_ok_iff.2 ⟨plan, hplan, bind_eq_ok_iff.2 ⟨(), ?_,
    bind_eq_ok_iff.2 ⟨(), hbaseline, bind_eq_ok_iff.2 ⟨(), ?_, rfl⟩⟩⟩⟩⟩
  · rw [hhash]
    exact if_neg (not_not_intro rfl)
  · rw [hconfirm]
    rfl

theorem not_settles_of_le (n : ℕ) (hn : 2 ^ 32 ≤ n) : ¬ ∀ (σ : Type) (backend : ChangeBackend σ) (world : σ),
    Settles changeConfig (dropRequest n) (executeTableAlter changeConfig backend (dropRequest n) ⟨world, []⟩).2.log
      (executeTableAlter changeConfig backend (dropRequest n) ⟨world, []⟩).1 := by
  obtain ⟨statements, hlength, hcheck⟩ := checkAlterRequest_dropRequest n ((Nat.two_pow_pos 32).trans_le hn)
  exact fun h ↦ not_settles_stalling hcheck (hlength ▸ hn) (h Bool (stallingBackend (recorded n)) false)

end Sample

end ClickHouse
