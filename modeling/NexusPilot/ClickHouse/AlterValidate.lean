import NexusPilot.ClickHouse.CreateValidate

/-!
# Which alterations are planned

`table_schema_matches_target`, the comparison of a table with a target, and `validate_alter_target`, the
checks before the plan of an alteration is made.
-/

namespace ClickHouse

open Drivers Text
open Schema (ContainerKind)

variable (alphanumeric : Char → Bool)

/-! ### A table and a target -/

/-- The text of a codec, in `codec_matches` and `render_column_definition`. -/
def renderCodec (codec : CodecTarget) : String :=
  if codec.arguments = [] then codec.name
  else codec.name ++ "(" ++ ", ".intercalate codec.arguments ++ ")"

/-- The text of the codecs of a column. -/
def renderCodecs (codecs : List CodecTarget) : String :=
  "CODEC(" ++ ", ".intercalate (codecs.map renderCodec) ++ ")"

/-- `codec_matches`. -/
def codecMatches (actual : Option String) (expected : List CodecTarget) : Bool :=
  optionalNormalizedExpressionEqual alphanumeric actual
    (if expected = [] then none else some (renderCodecs expected))

/-- A column of `table_schema_matches_target`, at its index. -/
def columnMatches (index : ℕ) (actual : ColumnSchema) (expected : CreateColumnTarget) : Bool :=
  actual.position == index + 1 && actual.name == expected.name &&
    normalizedExpressionEqual alphanumeric actual.typeName expected.typeName &&
    actual.defaultKind == expected.defaultKind &&
    optionalNormalizedExpressionEqual alphanumeric actual.defaultExpression expected.defaultExpression &&
    optionalTtlExpressionEqual alphanumeric actual.ttlExpression expected.ttlExpression false &&
    actual.comment == expected.comment && actual.editability == .editable &&
    codecMatches alphanumeric actual.codecExpression expected.codecs

/-- `is_canonical_merge_tree_default_setting`. -/
def isCanonicalMergeTreeDefaultSetting (name value : String) : Bool :=
  name == "index_granularity" && value == "8192"

/-- `explicit_settings_match`. -/
def explicitSettingsMatch (target : CreateTableTarget) (schema : TableSchema) : Bool :=
  target.settings.all (fun setting ↦
    schema.settings.any fun other ↦ other.name == setting.name && other.value == setting.value) &&
  (schema.settings.filter (·.explicit)).all fun setting ↦
    target.settings.any (fun other ↦ other.name == setting.name && other.value == setting.value) ||
      isCanonicalMergeTreeDefaultSetting setting.name setting.value

/-- `table_schema_matches_target`. -/
def tableSchemaMatchesTarget (target : CreateTableTarget) (schema : TableSchema) : Bool :=
  schema.identity.database == target.database && schema.identity.name == target.name &&
    schema.identity.objectKind == .table && schema.editability == .editable &&
    schema.projections.isEmpty && schema.skippingIndexes.isEmpty &&
    schema.engine.family == target.engine.family &&
    expressionSlicesEqual alphanumeric schema.engine.arguments target.engine.arguments &&
    schema.columns.length == target.columns.length &&
    ((schema.columns.zip target.columns).zipIdx.all fun pair ↦
      columnMatches alphanumeric pair.2 pair.1.1 pair.1.2) &&
    optionalNormalizedExpressionEqual alphanumeric schema.keys.partitionBy target.keys.partitionBy &&
    optionalNormalizedExpressionEqual alphanumeric schema.keys.primaryKey target.keys.primaryKey &&
    normalizedExpressionEqual alphanumeric schema.keys.orderBy target.keys.orderBy &&
    optionalNormalizedExpressionEqual alphanumeric schema.keys.sampleBy target.keys.sampleBy &&
    optionalTtlExpressionEqual alphanumeric schema.tableTtl target.tableTtl true &&
    schema.comment == target.comment && explicitSettingsMatch target schema

/-! ### Maps -/

/-- The value that a map collected from a list has for a name: the last one of that name. -/
def lastNamed {α : Type} (key : α → String) (items : List α) (name : String) : Option α :=
  items.reverse.find? fun item ↦ key item == name

/-- The map from names to values of the explicit settings of a table. -/
def explicitSetting (schema : TableSchema) (name : String) : Option String :=
  (lastNamed (·.name) (schema.settings.filter (·.explicit)) name).map (·.value)

/-- The map from names to values of the settings of a target. -/
def desiredSetting (target : CreateTableTarget) (name : String) : Option String :=
  (lastNamed (·.name) target.settings name).map (·.value)

/-! ### The checks -/

/-- `validate_editable_table_baseline`. -/
def validateEditableTableBaseline (schema : TableSchema) : IpcResult Unit :=
  if schema.identity.objectKind ≠ .table ∨ trim schema.identity.database.toList = [] ∨
      trim schema.identity.name.toList = [] then
    .error (.invalid "ClickHouse schema change requires a valid table baseline identity")
  else if schema.editability ≠ .editable then
    .error (.invalid "ClickHouse schema change requires an editable table baseline")
  else if schema.columns.any fun column ↦ column.editability ≠ .editable then
    .error (.invalid "ClickHouse schema change requires every baseline column to be editable")
  else .ok ()

/-- `validate_identity_unchanged`. -/
def validateIdentityUnchanged (target : AlterTableTarget) : IpcResult Unit :=
  if target.baseline.identity.database ≠ target.desired.database ∨
      target.baseline.identity.name ≠ target.desired.name then
    .error (.invalid "当前设计器不能修改 ClickHouse 表所属的数据库或表名")
  else .ok ()

/-- `validate_engine_and_immutable_keys_unchanged`. -/
def validateEngineAndImmutableKeysUnchanged (target : AlterTableTarget) : IpcResult Unit :=
  let baseline := target.baseline
  let desired := target.desired
  if baseline.engine.family ≠ desired.engine.family ∨
      !expressionSlicesEqual alphanumeric baseline.engine.arguments desired.engine.arguments then
    .error (.invalid "当前设计器不能修改 ClickHouse 表引擎或引擎参数")
  else if !normalizedExpressionEqual alphanumeric baseline.keys.orderBy desired.keys.orderBy ∨
      !optionalNormalizedExpressionEqual alphanumeric baseline.keys.partitionBy desired.keys.partitionBy ∨
      !optionalNormalizedExpressionEqual alphanumeric baseline.keys.primaryKey desired.keys.primaryKey then
    .error (.invalid
      "当前设计器只能修改 SAMPLE BY；ORDER BY、PARTITION BY 和 PRIMARY KEY 保持只读")
  else .ok ()

/-- `validate_no_table_object_dependencies`. -/
def validateNoTableObjectDependencies (schema : TableSchema) : IpcResult Unit :=
  if schema.projections ≠ [] ∨ schema.skippingIndexes ≠ [] then
    .error (.invalid ("ClickHouse table-field changes remain blocked while Projection or data-skipping " ++
      "Index dependencies exist; manage those objects in their dedicated sections first"))
  else .ok ()

/-- `validate_setting_changes`. The source visits the names in the order of a hash set; which of several
read-only settings the error names is left to it. -/
def validateSettingChanges (target : AlterTableTarget) : IpcResult Unit :=
  let names := (target.baseline.settings.filter (·.explicit)).map (·.name) ++
    target.desired.settings.map (·.name)
  names.forM fun name ↦
    if explicitSetting target.baseline name ≠ desiredSetting target.desired name ∧
        name ≠ "ttl_only_drop_parts" then
      .error (.invalid s!"ClickHouse 表设置 {name} 当前为只读，不能通过设计器修改")
    else .ok ()

/-- The names of the columns of a table. -/
def TableSchema.columnNames (schema : TableSchema) : List String :=
  schema.columns.map (·.name)

/-- The names of the columns of a target. -/
def CreateTableTarget.columnNames (target : CreateTableTarget) : List String :=
  target.columns.map (·.name)

/-- The first loop of `validate_explicit_renames`, from the sources and targets seen on. -/
def validateRenameIntents (target : AlterTableTarget) (sources targets : List String) :
    List ColumnRenameIntent → IpcResult Unit
  | [] => .ok ()
  | rename :: renames => do
    validateIdentifier rename.from_ "columnRenames.from"
    validateIdentifier rename.to_ "columnRenames.to"
    if rename.from_ = rename.to_ ∨ rename.from_ ∉ target.baseline.columnNames ∨
        rename.to_ ∉ target.desired.columnNames ∨ rename.from_ ∈ sources ∨ rename.to_ ∈ targets then
      throw (.invalid ("ClickHouse column rename intents require unique existing sources and unique " ++
        "desired targets"))
    validateRenameIntents target (rename.from_ :: sources) (rename.to_ :: targets) renames

/-- The names that the renames take away. -/
def AlterTableTarget.renameSources (target : AlterTableTarget) : List String :=
  target.columnRenames.map (·.from_)

/-- `validate_explicit_renames`. -/
def validateExplicitRenames (target : AlterTableTarget) : IpcResult Unit := do
  validateRenameIntents target [] [] target.columnRenames
  target.columnRenames.forM fun rename ↦
    if rename.to_ ∈ target.renameSources then
      .error (.invalid "不能一次执行链式或循环列重命名，请拆分为多次修改")
    else if rename.to_ ∈ target.baseline.columnNames then
      .error (.invalid
        s!"ClickHouse column rename target {rename.to_} collides with a retained baseline column")
    else .ok ()

/-- `immutable_semantics_reference`. -/
def immutableSemanticsReference (target : AlterTableTarget) (identifier : String) : Bool :=
  target.baseline.engine.arguments.any (expressionReferencesIdentifier · identifier) ||
    expressionReferencesIdentifier target.baseline.keys.orderBy identifier ||
    target.baseline.keys.partitionBy.any (expressionReferencesIdentifier · identifier) ||
    target.baseline.keys.primaryKey.any (expressionReferencesIdentifier · identifier)

/-- `validate_column_dependencies`. -/
def validateColumnDependencies (target : AlterTableTarget) : IpcResult Unit :=
  target.baseline.columns.forM fun column ↦
    let renamed := column.name ∈ target.renameSources
    let dropped := ¬ renamed ∧ column.name ∉ target.desired.columnNames
    if (renamed ∨ dropped) ∧ immutableSemanticsReference target column.name then
      .error (.invalid
        s!"ClickHouse column {column.name} is referenced by immutable engine or key semantics")
    else .ok ()

/-- `validate_sample_by_change`. -/
def validateSampleByChange (target : AlterTableTarget) : IpcResult Unit :=
  if optionalNormalizedExpressionEqual alphanumeric target.baseline.keys.sampleBy
      target.desired.keys.sampleBy then .ok ()
  else match target.desired.keys.sampleBy with
    | none => .ok ()
    | some sampleBy =>
      let effectivePrimary := target.desired.keys.primaryKey.getD target.desired.keys.orderBy
      let referenced := target.desired.columns.filter fun column ↦
        expressionReferencesIdentifier sampleBy column.name
      if referenced = [] ∨
          referenced.any fun column ↦ !expressionReferencesIdentifier effectivePrimary column.name then
        .error (.invalid ("ClickHouse SAMPLE BY must reference desired columns contained in the " ++
          "effective primary key"))
      else .ok ()

/-- `validate_alter_target`. -/
def validateAlterTarget (target : AlterTableTarget) : IpcResult Unit := do
  validateEditableTableBaseline target.baseline
  validateCreateTableTarget target.desired
  validateIdentityUnchanged target
  validateEngineAndImmutableKeysUnchanged alphanumeric target
  validateNoTableObjectDependencies target.baseline
  validateSettingChanges target
  validateExplicitRenames target
  validateColumnDependencies target
  validateSampleByChange alphanumeric target
  if target.columnRenames = [] ∧ tableSchemaMatchesTarget alphanumeric target.desired target.baseline then
    throw (.invalid "ClickHouse table alter target does not contain any schema change")

end ClickHouse
