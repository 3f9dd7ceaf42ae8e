import NexusPilot.ClickHouse.AlterRender
import NexusPilot.ClickHouse.Error

/-!
# Executing an ALTER

`execute_table_alter_with` plans the alteration anew, compares the plan and the baseline with what the user has
confirmed, and then sends one statement after the other until one is not acknowledged. At the end it describes the
table again: a description that matches the target overrides the counts.

What the server, the clock and the shutdown signal do is decided by a state of the backend, of any type. An `AlterSession`
also keeps a log of what was asked of the backend, which the code does not have. Counters are `u32`, and wrap.
-/

namespace ClickHouse

open Drivers
open Schema (ContainerRef)

/-! ### Baselines -/

/-- `ClickHouseTableSchema`, with the fields that only its revision hash reads. -/
structure RecordedTable extends TableSchema where
  uuid : Option String
  rawExpression : String
  canonicalCreateQuery : String
  deriving DecidableEq

/-- `CanonicalColumn`. -/
structure CanonicalColumn where
  name : String
  typeName : String
  position : ℕ
  defaultKind : ColumnDefaultKind
  defaultExpression : Option String
  codecExpression : Option String
  ttlExpression : Option String
  comment : Option String
  deriving DecidableEq

/-- `CanonicalSkippingIndex`. -/
structure CanonicalSkippingIndex where
  name : String
  expression : String
  indexType : String
  typeArguments : List String
  granularity : Option ℕ
  deriving DecidableEq

/-- `CanonicalTableSchema`. A setting is its name, its value and whether it is explicit; a projection its name and its
query. -/
structure CanonicalTableSchema where
  identity : TableIdentity
  uuid : Option String
  engine : EngineSchema
  rawExpression : String
  columns : List CanonicalColumn
  keys : KeySchema
  tableTtl : Option String
  comment : Option String
  settings : List SettingSchema
  projections : List (String × String)
  skippingIndexes : List CanonicalSkippingIndex
  canonicalCreateQuery : String
  deriving DecidableEq

/-- `CanonicalColumn::from`. -/
def canonicalColumn (column : ColumnSchema) : CanonicalColumn :=
  ⟨column.name, column.typeName, column.position, column.defaultKind, column.defaultExpression,
    column.codecExpression, column.ttlExpression, column.comment⟩

/-- `CanonicalSkippingIndex::from`. -/
def canonicalSkippingIndex (index : SkippingIndexSchema) : CanonicalSkippingIndex :=
  ⟨index.name, index.expression, index.indexType, index.typeArguments, index.granularity⟩

/-- The order of `settings`. -/
def settingOrder (left right : SettingSchema) : Ordering :=
  (compare left.name right.name).then ((compare left.value right.value).then
    (compare left.explicit.toNat right.explicit.toNat))

/-- The order of `projections`. -/
def projectionOrder (left right : ProjectionSchema) : Ordering :=
  (compare left.name right.name).then (compare left.query right.query)

/-- The order of `skipping_indexes`. -/
def skippingIndexOrder (left right : SkippingIndexSchema) : Ordering :=
  (compare left.name right.name).then <| (compare left.expression right.expression).then <|
    (compare left.indexType right.indexType).then <|
      (compare left.typeArguments right.typeArguments).then (compare left.granularity right.granularity)

/-- `canonical_projection`. -/
def canonicalProjection (table : RecordedTable) : CanonicalTableSchema where
  identity := table.identity
  uuid := table.uuid
  engine := table.engine
  rawExpression := table.rawExpression
  columns := table.columns.map canonicalColumn
  keys := table.keys
  tableTtl := table.tableTtl
  comment := table.comment
  settings := (table.settings.filter (·.explicit)).insertionSort fun left right ↦ (settingOrder left right).isLE
  projections := (table.projections.insertionSort fun left right ↦ (projectionOrder left right).isLE).map
    fun projection ↦ (projection.name, projection.query)
  skippingIndexes := (table.skippingIndexes.insertionSort fun left right ↦
    (skippingIndexOrder left right).isLE).map canonicalSkippingIndex
  canonicalCreateQuery := table.canonicalCreateQuery

/-! ### The request -/

/-- `NativeSchemaConfirmationInput`. -/
structure ConfirmationInput where
  accepted : Bool
  objectName : Option String
  clusterName : Option String
  deriving DecidableEq

/-- `NativeSchemaChangeTarget`: an ALTER of a table, or another change. -/
inductive ChangeTarget
  | tableAlter (baseline : RecordedTable) (desired : CreateTableTarget) (columnRenames : List ColumnRenameIntent)
  | other
  deriving DecidableEq

/-- `NativeSchemaChangeBaseline`. -/
inductive ChangeBaseline
  | table (schema : RecordedTable)
  | other
  deriving DecidableEq

/-- `NativeSchemaExecuteChangeRequest`. -/
structure ExecuteChangeRequest where
  target : ChangeTarget
  baseline : ChangeBaseline
  expectedPlanHash : String
  confirmation : Option ConfirmationInput
  deriving DecidableEq

/-- What is taken from elsewhere. -/
structure ChangeConfig where
  alphanumeric : Char → Bool
  /-- The hexadecimal SHA-256 hash of a text. -/
  sha256 : String → String
  /-- `revision_hash`: the hash of the JSON text. -/
  revisionHash : CanonicalTableSchema → String
  /-- The whole seconds of the time limit. -/
  timeoutSeconds : ℕ

variable (cfg : ChangeConfig)

/-- `plan_hash`: each part ends with a zero byte. -/
def planHash (domain : String) (statements : List String) : String :=
  cfg.sha256 (String.join ((domain :: statements).map (· ++ "\x00")))

/-- `ALTER_TABLE_HASH_DOMAIN`. -/
def alterTableHashDomain : String :=
  "nexpilot/native-schema/clickhouse/alter-table/v1"

/-- `table_baselines_equal`. -/
def tableBaselinesEqual (expected current : RecordedTable) : Bool :=
  cfg.revisionHash (canonicalProjection expected) = cfg.revisionHash (canonicalProjection current)

/-- `validate_plan_hash`. -/
def validatePlanHash (actual expected : String) : IpcResult Unit :=
  if actual ≠ expected then
    .error (.invalid "ClickHouse schema change preview is stale; preview again before applying")
  else .ok ()

/-- `validate_request_table_baseline`. -/
def validateRequestTableBaseline (baseline : ChangeBaseline) (targetBaseline : RecordedTable) : IpcResult Unit :=
  match baseline with
  | .other => .error (.invalid "ClickHouse table schema change requires a table baseline")
  | .table requestBaseline =>
    if !tableBaselinesEqual cfg requestBaseline targetBaseline then
      .error (.conflict "ClickHouse schema change baseline no longer matches its target")
    else .ok ()

/-- `validate_native_schema_confirmation`, for what an ALTER may require. -/
def validateConfirmation (required : RequiredConfirmation) (confirmation : Option ConfirmationInput) :
    IpcResult Unit :=
  match required with
  | .none =>
    if confirmation.isNone then .ok ()
    else .error (.invalid "ClickHouse schema change does not accept confirmation for this plan")
  | .confirm =>
    if confirmation.any (·.accepted) then .ok ()
    else .error (.invalid "ClickHouse schema change requires the exact preview confirmation")

/-- The checks of `execute_table_alter_with` that ask nothing of the server, with what they go on with. -/
def checkAlterRequest (request : ExecuteChangeRequest) :
    IpcResult (RecordedTable × CreateTableTarget × List String) :=
  match request.target with
  | .other => .error (.invalid "ClickHouse table ALTER executor requires a table alter target")
  | .tableAlter baseline desired columnRenames => do
    let plan ← planAlterTable cfg.alphanumeric ⟨baseline.toTableSchema, desired, columnRenames⟩
    validatePlanHash (planHash cfg alterTableHashDomain plan.statements) request.expectedPlanHash
    validateRequestTableBaseline cfg request.baseline baseline
    validateConfirmation plan.requiredConfirmation request.confirmation
    pure (baseline, desired, plan.statements)

/-! ### The backend -/

/-- `ChangeCommandRequest`. -/
structure ChangeCommandRequest where
  statement : String
  queryId : String
  settings : List (String × String)
  deriving DecidableEq

/-- `ChangeCommandRequest::new`, with the identifier that it draws. -/
def changeCommand (statement queryId : String) : ChangeCommandRequest :=
  ⟨statement, queryId, [("wait_end_of_query", "1"), ("max_execution_time", toString (max cfg.timeoutSeconds 1))]⟩

/-- What comes of a statement that is executed under a time limit, raced by the shutdown signal. The signal is looked
at first, so it can come before the statement is sent. -/
inductive StatementAnswer
  | done
  | failed (error : ClickHouseError)
  | elapsed
  | shutdown (sent : Bool)
  deriving DecidableEq

/-- `StatementOutcome`. -/
inductive StatementOutcome
  | acknowledged
  | ambiguous
  | failed (error : IpcError)
  | canceledBeforeSend (error : IpcError)
  deriving DecidableEq

/-- `ChangeBackend`, with the shutdown signal and the source of query identifiers. -/
structure ChangeBackend (σ : Type) where
  describe : ContainerRef → σ → IpcResult RecordedTable × σ
  execute : ChangeCommandRequest → σ → StatementAnswer × σ
  shutdown : σ → Bool
  queryId : σ → String × σ

/-- One statement that was tried. -/
structure Attempt where
  command : ChangeCommandRequest
  outcome : StatementOutcome
  sent : Bool
  deriving DecidableEq

/-- What was asked of the backend. -/
inductive BackendEvent
  | described (answer : IpcResult RecordedTable)
  | attempted (attempt : Attempt)

/-- The backend's state and the log. -/
structure AlterSession (σ : Type) where
  world : σ
  log : List BackendEvent

section Execution

variable {σ : Type} (backend : ChangeBackend σ)

/-- A description, which the log keeps. -/
def describeTable (container : ContainerRef) (s : AlterSession σ) : IpcResult RecordedTable × AlterSession σ :=
  let (answer, world) := backend.describe container s.world
  (answer, ⟨world, s.log ++ [.described answer]⟩)

/-- `reject_shutdown_before_send`. -/
def rejectShutdownBeforeSend (operation : String) (s : AlterSession σ) : IpcResult Unit :=
  if backend.shutdown s.world then
    .error ⟨.operationCanceled, "ClickHouse schema change canceled before execution",
      some ("operation=" ++ operation ++ "; category=shutdown_before_send")⟩
  else .ok ()

/-- The outcome that an answer stands for, and whether the statement was sent. -/
def StatementAnswer.outcome (operation : String) : StatementAnswer → StatementOutcome × Bool
  | .done => (.acknowledged, true)
  | .elapsed => (.ambiguous, true)
  | .shutdown sent => (.ambiguous, sent)
  | .failed error =>
    (if isAmbiguousTransport error then .ambiguous else .failed (classifySchemaChangeError operation error), true)

/-- `execute_statement_once`. -/
def executeStatementOnce (operation : String) (command : ChangeCommandRequest) (s : AlterSession σ) :
    StatementOutcome × AlterSession σ :=
  match rejectShutdownBeforeSend backend operation s with
  | .error error =>
    (.canceledBeforeSend error, ⟨s.world, s.log ++ [.attempted ⟨command, .canceledBeforeSend error, false⟩]⟩)
  | .ok () =>
    let (answer, world) := backend.execute command s.world
    let (outcome, sent) := answer.outcome operation
    (outcome, ⟨world, s.log ++ [.attempted ⟨command, outcome, sent⟩]⟩)

/-- `as u32`. -/
def asU32 (n : ℕ) : ℕ :=
  n % 2 ^ 32

/-- The variables of the loop. -/
structure AlterProgress where
  appliedCount : ℕ := 0
  failedStatementIndex : Option ℕ := none
  queryIds : List String := []
  terminalError : Option IpcError := none
  ambiguous : Bool := false
  deriving DecidableEq

/-- The loop over the statements, from one with the given index on. -/
def executeStatements : List String → ℕ → AlterProgress → AlterSession σ → IpcResult AlterProgress × AlterSession σ
  | [], _, progress, s => (.ok progress, s)
  | statement :: statements, index, progress, s =>
    let (queryId, world) := backend.queryId s.world
    match executeStatementOnce backend "alter table" (changeCommand cfg statement queryId) { s with world } with
    | (.acknowledged, s) =>
      executeStatements statements (index + 1)
        { progress with
          queryIds := progress.queryIds ++ [queryId], appliedCount := asU32 (progress.appliedCount + 1) } s
    | (.ambiguous, s) =>
      (.ok { progress with queryIds := progress.queryIds ++ [queryId], ambiguous := true }, s)
    | (.failed error, s) =>
      (.ok { progress with
        queryIds := progress.queryIds ++ [queryId]
        failedStatementIndex := some (asU32 index)
        terminalError := some error }, s)
    | (.canceledBeforeSend error, s) =>
      if progress.appliedCount = 0 then (.error error, s) else (.ok { progress with ambiguous := true }, s)

/-! ### The result -/

/-- `NativeSchemaExecutionStatus`, as far as an ALTER ends in one. -/
inductive ExecutionStatus
  | applied
  | partiallyApplied
  | outcomeUnknown
  deriving DecidableEq

/-- `NativeSchemaStatementProgress`. -/
structure StatementProgress where
  appliedCount : ℕ
  failedStatementIndex : Option ℕ
  remainingCount : ℕ
  queryIds : List String
  deriving DecidableEq

/-- `ClickHouseTableAlterResult`. -/
structure TableAlterResult where
  status : ExecutionStatus
  progress : StatementProgress
  container : ContainerRef
  tableName : String
  schema : Option RecordedTable
  deriving DecidableEq

/-- The progress that is reported for the variables of the loop. -/
def AlterProgress.report (progress : AlterProgress) (statementCount : ℕ) : StatementProgress where
  appliedCount := progress.appliedCount
  failedStatementIndex := progress.failedStatementIndex
  remainingCount := statementCount - asU32 progress.queryIds.length
  queryIds := progress.queryIds

/-- The status, the progress and the table for what the table is described as at the end. -/
def concludeAlter (desired : CreateTableTarget) (progress : AlterProgress) (statementCount : ℕ)
    (remote : IpcResult RecordedTable) : ExecutionStatus × StatementProgress × Option RecordedTable :=
  let report := progress.report statementCount
  match remote with
  | .ok schema =>
    if tableSchemaMatchesTarget cfg.alphanumeric desired schema.toTableSchema then
      (.applied, { report with appliedCount := statementCount, failedStatementIndex := none, remainingCount := 0 },
        some schema)
    else if progress.appliedCount > 0 then (.partiallyApplied, report, some schema)
    else (.outcomeUnknown, report, some schema)
  | .error _ => (.outcomeUnknown, report, none)

/-- `ContainerRef::table`, for the table that is altered. -/
def alteredContainer (desired : CreateTableTarget) : ContainerRef :=
  ⟨.table, some desired.database, none, some desired.name, none⟩

/-- The result for what the table is described as at the end. -/
def alterResult (desired : CreateTableTarget) (statements : List String) (progress : AlterProgress)
    (remote : IpcResult RecordedTable) : TableAlterResult :=
  let (status, report, schema) := concludeAlter cfg desired progress (asU32 statements.length) remote
  ⟨status, report, alteredContainer desired, desired.name, schema⟩

/-- What follows the loop. -/
def finishAlter (desired : CreateTableTarget) (statements : List String) (progress : AlterProgress)
    (s : AlterSession σ) : IpcResult TableAlterResult × AlterSession σ :=
  let (remote, s) := describeTable backend (alteredContainer desired) s
  match progress.terminalError with
  | some error =>
    if progress.appliedCount = 0 then (.error error, s)
    else (.ok (alterResult cfg desired statements progress remote), s)
  | none => (.ok (alterResult cfg desired statements progress remote), s)

/-- `validate_remote_baseline`. -/
def validateRemoteBaseline (container : ContainerRef) (expected : RecordedTable) (s : AlterSession σ) :
    IpcResult Unit × AlterSession σ :=
  let (answer, s) := describeTable backend container s
  match answer with
  | .error error => (.error error, s)
  | .ok current =>
    if !tableBaselinesEqual cfg expected current then
      (.error (.conflict "ClickHouse table changed after preview; refresh before applying"), s)
    else (.ok (), s)

/-- `execute_table_alter_with`. -/
def executeTableAlter (request : ExecuteChangeRequest) (s : AlterSession σ) : IpcResult TableAlterResult × AlterSession σ :=
  match checkAlterRequest cfg request with
  | .error error => (.error error, s)
  | .ok (baseline, desired, statements) =>
    match validateRemoteBaseline cfg backend (alteredContainer desired) baseline s with
    | (.error error, s) => (.error error, s)
    | (.ok (), s) =>
      match rejectShutdownBeforeSend backend "alter table" s with
      | .error error => (.error error, s)
      | .ok () =>
        match executeStatements cfg backend statements 0 {} s with
        | (.error error, s) => (.error error, s)
        | (.ok progress, s) => finishAlter cfg backend desired statements progress s

end Execution

end ClickHouse
