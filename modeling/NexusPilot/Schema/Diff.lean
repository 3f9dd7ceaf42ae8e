import Mathlib.Data.List.Perm.Basic
import NexusPilot.Schema.Normalize

/-!
# The difference of two table schemas

`diff_table_schema_for_update_with_column_renames`: what has to change to turn the baseline of a table
into its target, where a list of renames says which baseline columns live on under other names.

A hash map that the source builds is the list of its entries in the order of their insertion. The maps
of constraints are also iterated, in the order of the hash map, which is not specified: it is a parameter
of the model, any permutation for either map.
-/

namespace Schema

open Drivers

/-! ### Changes -/

structure TableUpdateDiffOptions where
  allowColumnComments : Bool
  deriving DecidableEq

structure CommentChange where
  comment : Option String
  deriving DecidableEq

structure ColumnCommentChange where
  columnName : String
  comment : Option String
  deriving DecidableEq

structure ColumnDefaultChange where
  columnName : String
  defaultValue : Option String
  deriving DecidableEq

structure ColumnNullabilityChange where
  columnName : String
  nullable : Bool
  deriving DecidableEq

structure ColumnRenameChange where
  oldName : String
  newName : String
  deriving DecidableEq

structure ColumnTypeChange where
  columnName : String
  typeName : String
  deriving DecidableEq

structure ColumnGeneratedChange where
  columnName : String
  oldGenerated : Option TableGeneratedColumn
  newGenerated : Option TableGeneratedColumn
  deriving DecidableEq

structure ColumnIdentityChange where
  columnName : String
  oldIdentity : Option TableIdentityOptions
  newIdentity : Option TableIdentityOptions
  deriving DecidableEq

structure ColumnCharsetChange where
  columnName : String
  charset : Option String
  collation : Option String
  deriving DecidableEq

structure PrimaryKeyChange where
  oldConstraintName : Option String
  oldColumns : List String
  newColumns : List String
  deriving DecidableEq

structure TableSchemaUpdateDiff where
  tableCommentChange : Option CommentChange := none
  tableEngineChange : Option String := none
  tableCharsetChange : Option String := none
  tableCollationChange : Option String := none
  tablePartitionChange : Option TablePartitionOptions := none
  primaryKeyChange : Option PrimaryKeyChange := none
  renamedColumns : List ColumnRenameChange := []
  addedColumns : List TableColumnSchema := []
  droppedColumns : List TableColumnSchema := []
  addedIndexes : List TableIndexSchema := []
  droppedIndexes : List TableIndexSchema := []
  addedConstraints : List TableConstraintSchema := []
  droppedConstraints : List TableConstraintSchema := []
  addedOrModifiedConstraints : List TableConstraintSchema := []
  columnTypeChanges : List ColumnTypeChange := []
  columnCommentChanges : List ColumnCommentChange := []
  columnDefaultChanges : List ColumnDefaultChange := []
  columnNullabilityChanges : List ColumnNullabilityChange := []
  generatedColumnChanges : List ColumnGeneratedChange := []
  identityChanges : List ColumnIdentityChange := []
  columnCharsetChanges : List ColumnCharsetChange := []
  deriving DecidableEq

/-- `TableSchemaUpdateDiff::is_empty`. -/
def TableSchemaUpdateDiff.isEmpty (diff : TableSchemaUpdateDiff) : Bool :=
  diff.tableCommentChange.isNone && diff.tableEngineChange.isNone && diff.tableCharsetChange.isNone &&
    diff.tableCollationChange.isNone && diff.tablePartitionChange.isNone &&
    diff.primaryKeyChange.isNone && diff.renamedColumns.isEmpty && diff.addedColumns.isEmpty &&
    diff.droppedColumns.isEmpty && diff.addedIndexes.isEmpty && diff.droppedIndexes.isEmpty &&
    diff.addedConstraints.isEmpty && diff.droppedConstraints.isEmpty &&
    diff.addedOrModifiedConstraints.isEmpty && diff.columnTypeChanges.isEmpty &&
    diff.columnCommentChanges.isEmpty && diff.columnDefaultChanges.isEmpty &&
    diff.columnNullabilityChanges.isEmpty && diff.generatedColumnChanges.isEmpty &&
    diff.identityChanges.isEmpty && diff.columnCharsetChanges.isEmpty

/-- `TableSchemaUpdateDiff::is_destructive`. -/
def TableSchemaUpdateDiff.isDestructive (diff : TableSchemaUpdateDiff) : Bool :=
  !diff.droppedColumns.isEmpty || !diff.columnTypeChanges.isEmpty ||
    !diff.droppedConstraints.isEmpty || !diff.generatedColumnChanges.isEmpty ||
    diff.identityChanges.any (·.oldIdentity.isSome) || diff.primaryKeyChange.isSome

/-! ### Maps by name -/

/-- One more entry of a map: the item, prepared, under a key that must be new. -/
def insertKeyed {β γ : Type} (prepare : β → IpcResult γ) (key complaint : γ → String)
    (map : List (String × γ)) (item : β) : IpcResult (List (String × γ)) := do
  let value ← prepare item
  if (map.lookup (key value)).isSome then .error (.invalid (complaint value))
  else .ok (map ++ [(key value, value)])

/-- A list as a map, its items prepared and their keys distinct. -/
def keyed {β γ : Type} (prepare : β → IpcResult γ) (key complaint : γ → String) (items : List β) :
    IpcResult (List (String × γ)) :=
  items.foldlM (insertKeyed prepare key complaint) []

/-- An item whose name is not blank. -/
def named {β : Type} (name : β → String) (label : String) (item : β) : IpcResult β := do
  let _ ← normalizedNonEmptyIdentifier (name item) label
  .ok item

/-- `schema_columns_by_name`. -/
def schemaColumnsByName : List TableColumnSchema → IpcResult (List (String × TableColumnSchema)) :=
  keyed (named (·.name) "列名") (·.name) fun column ↦ "列 '" ++ column.name ++ "' 重复"

/-- `schema_indexes_by_name`. -/
def schemaIndexesByName : List TableIndexSchema → IpcResult (List (String × TableIndexSchema)) :=
  keyed (named (·.name) "索引名") (·.name) fun index ↦ "索引 '" ++ index.name ++ "' 重复"

/-- `schema_non_primary_constraints_by_name`. -/
def schemaNonPrimaryConstraintsByName (constraints : List TableConstraintSchema) :
    IpcResult (List (String × TableConstraintSchema)) :=
  keyed normalizedNonPrimaryConstraint (toAsciiLowercase ·.name)
    (fun constraint ↦ "约束 '" ++ constraint.name ++ "' 重复")
    (constraints.filter (·.kind ≠ .primaryKey))

/-! ### Checks -/

/-- `unsupported_table_update`. -/
def unsupportedTableUpdate {β : Type} (message : String) : IpcResult β :=
  .error (.invalid message)

/-- `ensure_same_table_identity`. -/
def ensureSameTableIdentity (baseline target : TableSchema) : IpcResult Unit :=
  if (trim baseline.basics.databaseName, trim baseline.basics.schemaName,
        trim baseline.basics.tableName) =
      (trim target.basics.databaseName, trim target.basics.schemaName, trim target.basics.tableName) then
    .ok ()
  else unsupportedTableUpdate "暂不支持通过表设计器重命名或移动表"

/-- Every column that is referred to must exist. -/
def validateReferences (names : List String) (complaint : String → String) (columns : List String) :
    IpcResult Unit :=
  columns.forM fun column ↦
    if column ∈ names then .ok () else .error (.invalid (complaint column))

/-- `validate_target_column_references`. -/
def validateTargetColumnReferences (columns : List TableColumnSchema) (indexes : List TableIndexSchema)
    (constraints : List TableConstraintSchema) : IpcResult Unit := do
  let names := columns.map (·.name)
  indexes.forM fun index ↦
    validateReferences names
      (fun column ↦ "索引 '" ++ index.name ++ "' 引用了不存在的列 '" ++ column ++ "'") index.columns
  constraints.forM fun constraint ↦
    validateReferences names
      (fun column ↦ "约束 '" ++ constraint.name ++ "' 引用了不存在的列 '" ++ column ++ "'")
      constraint.columns

/-- One rename of the list: the map by old name so far, and the new names seen. A rename of a name to
itself is passed over. -/
def validateColumnRename (baselineColumns targetColumns : List (String × TableColumnSchema))
    (seen : List (String × String) × List String) (rename : TableColumnRename) :
    IpcResult (List (String × String) × List String) := do
  let oldName ← normalizedNonEmptyIdentifier rename.oldName "原列名"
  let newName ← normalizedNonEmptyIdentifier rename.newName "新列名"
  if oldName = newName then .ok seen
  else if (baselineColumns.lookup oldName).isNone then
    .error (.invalid ("原列 '" ++ oldName ++ "' 不存在，无法重命名"))
  else if (targetColumns.lookup newName).isNone then
    .error (.invalid ("目标列 '" ++ newName ++ "' 不存在，无法重命名"))
  else if (seen.1.lookup oldName).isSome then
    .error (.invalid ("列 '" ++ oldName ++ "' 的重命名规则重复"))
  else if newName ∈ seen.2 then
    .error (.invalid ("目标列 '" ++ newName ++ "' 的重命名规则重复"))
  else .ok (seen.1 ++ [(oldName, newName)], seen.2 ++ [newName])

/-- `validate_column_renames`. -/
def validateColumnRenames (columnRenames : List TableColumnRename)
    (baselineColumns targetColumns : List (String × TableColumnSchema)) :
    IpcResult (List (String × String)) := do
  let seen ← columnRenames.foldlM (validateColumnRename baselineColumns targetColumns) ([], [])
  .ok seen.1

structure PrimaryKeyDefinition where
  name : Option String
  columns : List String
  deriving DecidableEq

/-- `primary_key_definition`. -/
def primaryKeyDefinition (schema : TableSchema) : IpcResult PrimaryKeyDefinition :=
  let columnsFromFlags := (schema.columns.filter (·.isPrimaryKey)).map (·.name)
  match schema.constraints.filter (·.kind = .primaryKey) with
  | _ :: _ :: _ => .error (.invalid "只能定义一个主键约束")
  | [constraint] => do
    let columns ← constraint.columns.mapM (normalizedNonEmptyIdentifier · "主键列")
    if columnsFromFlags ≠ [] ∧ columnsFromFlags ≠ columns then
      .error (.invalid "列定义中的主键与约束区主键不一致")
    else .ok ⟨normalizedOptionalText (some constraint.name), columns⟩
  | [] => .ok ⟨none, columnsFromFlags⟩

/-- `ensure_supported_column_update`. -/
def ensureSupportedColumnUpdate (baseline target : TableColumnSchema) : IpcResult Unit :=
  if normalizedSqlType baseline.typeName ≠ normalizedSqlType target.typeName ∧
      (baseline.isIdentity ∨ target.isIdentity) then
    unsupportedTableUpdate ("暂不支持修改自增列 '" ++ baseline.name ++ "' 的数据类型")
  else if baseline.nullable ≠ target.nullable ∧ baseline.isPrimaryKey then
    unsupportedTableUpdate ("暂不支持修改主键列 '" ++ baseline.name ++ "' 的可空属性")
  else if baseline.nullable ≠ target.nullable ∧ baseline.isIdentity then
    unsupportedTableUpdate ("暂不支持修改自增列 '" ++ baseline.name ++ "' 的可空属性")
  else if baseline.isIdentity ∧
      normalizedOptionalText baseline.defaultValue ≠ normalizedOptionalText target.defaultValue then
    unsupportedTableUpdate ("暂不支持修改自增列 '" ++ baseline.name ++ "' 的默认值")
  else if baseline.isPrimaryKey ≠ target.isPrimaryKey ∧ target.isPrimaryKey ∧ target.nullable then
    .error (.invalid ("主键列 '" ++ target.name ++ "' 必须为 NOT NULL"))
  else if baseline.isUnique ≠ target.isUnique then
    unsupportedTableUpdate
      ("暂不支持直接修改列 '" ++ baseline.name ++ "' 的唯一属性；请在索引区管理唯一索引")
  else .ok ()

/-- `validate_added_column_for_update`. -/
def validateAddedColumnForUpdate (column : TableColumnSchema) : IpcResult Unit := do
  let _ ← normalizedNonEmptyIdentifier column.name "列名"
  if column.isPrimaryKey then unsupportedTableUpdate ("暂不支持新增主键列 '" ++ column.name ++ "'")
  else if column.isUnique then unsupportedTableUpdate ("暂不支持直接新增唯一列 '" ++ column.name ++ "'")
  else if !column.nullable ∧ !column.isIdentity ∧ normalizedOptionalText column.defaultValue = none then
    .error (.invalid ("新增 NOT NULL 列 '" ++ column.name ++ "' 需要默认值"))
  else .ok ()

/-- `index_changed`. -/
def indexChanged (baseline target : TableIndexSchema) : Bool :=
  baseline.columns != target.columns || baseline.isUnique != target.isUnique ||
    normalizedOptionalText baseline.method != normalizedOptionalText target.method ||
    normalizedOptionalText baseline.comment != normalizedOptionalText target.comment

/-! ### Columns -/

/-- What one baseline column adds to the difference. -/
structure ColumnDelta where
  droppedColumn : Option TableColumnSchema := none
  typeChange : Option ColumnTypeChange := none
  commentChange : Option ColumnCommentChange := none
  defaultChange : Option ColumnDefaultChange := none
  nullabilityChange : Option ColumnNullabilityChange := none
  generatedChange : Option ColumnGeneratedChange := none
  identityChange : Option ColumnIdentityChange := none
  charsetChange : Option ColumnCharsetChange := none
  deriving DecidableEq

/-- The change, if the two values differ. -/
def changeIf {β γ : Type} [DecidableEq β] (old new : β) (change : γ) : Option γ :=
  if old ≠ new then some change else none

/-- A baseline column that lives on as a target column. -/
def diffColumnPair (options : TableUpdateDiffOptions) (column target : TableColumnSchema) :
    IpcResult ColumnDelta := do
  ensureSupportedColumnUpdate column target
  let oldGenerated ← normalizedGeneratedColumn column.generated
  let newGenerated ← normalizedGeneratedColumn target.generated
  if normalizedOptionalText column.comment ≠ normalizedOptionalText target.comment ∧
      !options.allowColumnComments then
    unsupportedTableUpdate ("暂不支持修改列 '" ++ column.name ++ "' 的备注")
  else .ok {
    typeChange := changeIf (normalizedSqlType column.typeName) (normalizedSqlType target.typeName)
      ⟨target.name, trim target.typeName⟩
    defaultChange := changeIf (normalizedOptionalText column.defaultValue)
      (normalizedOptionalText target.defaultValue)
      ⟨target.name, normalizedOptionalText target.defaultValue⟩
    nullabilityChange := changeIf column.nullable target.nullable ⟨target.name, target.nullable⟩
    generatedChange := changeIf oldGenerated newGenerated ⟨target.name, oldGenerated, newGenerated⟩
    identityChange := changeIf (normalizedColumnIdentity column) (normalizedColumnIdentity target)
      ⟨target.name, normalizedColumnIdentity column, normalizedColumnIdentity target⟩
    charsetChange := changeIf
      (normalizedOptionalText column.charset, normalizedOptionalText column.collation)
      (normalizedOptionalText target.charset, normalizedOptionalText target.collation)
      ⟨target.name, normalizedOptionalText target.charset, normalizedOptionalText target.collation⟩
    commentChange := changeIf (normalizedOptionalText column.comment)
      (normalizedOptionalText target.comment) ⟨target.name, normalizedOptionalText target.comment⟩ }

/-- One baseline column: found among the target's under its own name or the one that it is renamed to,
or dropped. -/
def diffColumn (options : TableUpdateDiffOptions) (renameMap : List (String × String))
    (targetColumns : List (String × TableColumnSchema)) (column : TableColumnSchema) :
    IpcResult ColumnDelta :=
  match targetColumns.lookup ((renameMap.lookup column.name).getD column.name) with
  | none => .ok { droppedColumn := some column }
  | some target => diffColumnPair options column target

/-- Whether a target column is neither a baseline column nor the target of a rename. -/
def isAdded (renameMap : List (String × String)) (baselineColumns : List (String × TableColumnSchema))
    (column : TableColumnSchema) : Bool :=
  (baselineColumns.lookup column.name).isNone && !renameMap.any (·.2 = column.name)

/-! ### Constraints and indexes -/

/-- The order in which a map of constraints is iterated. -/
structure IterationOrder where
  arrange : List (String × TableConstraintSchema) → List (String × TableConstraintSchema)
  perm : ∀ entries, (arrange entries).Perm entries

/-- The orders of the two maps that are iterated. -/
structure MapOrders where
  baseline : IterationOrder
  target : IterationOrder

/-- The constraints that are dropped, because they are gone or have changed. -/
def droppedConstraintsOf (orders : MapOrders)
    (baselineConstraints targetConstraints : List (String × TableConstraintSchema)) :
    List TableConstraintSchema :=
  ((orders.baseline.arrange baselineConstraints).filter fun entry ↦
    targetConstraints.lookup entry.1 ≠ some entry.2).map Prod.snd

/-- The constraints that are added, because they have changed or are new. -/
def addedConstraintsOf (orders : MapOrders)
    (baselineConstraints targetConstraints : List (String × TableConstraintSchema)) :
    List TableConstraintSchema :=
  ((orders.baseline.arrange baselineConstraints).filterMap fun entry ↦
      (targetConstraints.lookup entry.1).filter (entry.2 ≠ ·)) ++
    ((orders.target.arrange targetConstraints).filter fun entry ↦
      (baselineConstraints.lookup entry.1).isNone).map Prod.snd

/-- The indexes that are dropped, because they are gone or have changed. -/
def droppedIndexesOf (baseline : List TableIndexSchema)
    (targetIndexes : List (String × TableIndexSchema)) : List TableIndexSchema :=
  baseline.filter fun index ↦ (targetIndexes.lookup index.name).all (indexChanged index)

/-- The indexes that are added, because they have changed or are new. -/
def addedIndexesOf (baseline target : List TableIndexSchema)
    (baselineIndexes targetIndexes : List (String × TableIndexSchema)) : List TableIndexSchema :=
  (baseline.filterMap fun index ↦ (targetIndexes.lookup index.name).filter (indexChanged index)) ++
    target.filter fun index ↦ (baselineIndexes.lookup index.name).isNone

/-! ### The difference -/

/-- The new value, if it differs from the old one. -/
def changedTo (old new : Option String) : Option String :=
  if normalizedOptionalText old ≠ normalizedOptionalText new then normalizedOptionalText new else none

/-- `diff_table_schema_for_update_with_column_renames`. -/
def diffTableSchemaForUpdateWithColumnRenames (orders : MapOrders) (baseline target : TableSchema)
    (options : TableUpdateDiffOptions) (columnRenames : List TableColumnRename) :
    IpcResult TableSchemaUpdateDiff := do
  ensureSameTableIdentity baseline target
  let baselineColumns ← schemaColumnsByName baseline.columns
  let targetColumns ← schemaColumnsByName target.columns
  validateTargetColumnReferences target.columns target.indexes target.constraints
  let renameMap ← validateColumnRenames columnRenames baselineColumns targetColumns
  if normalizedPartitionOptions baseline.basics.partition ≠
      normalizedPartitionOptions target.basics.partition then
    unsupportedTableUpdate "暂不支持修改已有表分区；请通过手写 DDL 管理分区迁移"
  else do
    let baselinePrimaryKey ← primaryKeyDefinition baseline
    let targetPrimaryKey ← primaryKeyDefinition target
    let baselineConstraints ← schemaNonPrimaryConstraintsByName baseline.constraints
    let targetConstraints ← schemaNonPrimaryConstraintsByName target.constraints
    let deltas ← baseline.columns.mapM (diffColumn options renameMap targetColumns)
    let addedColumns := target.columns.filter (isAdded renameMap baselineColumns)
    addedColumns.forM validateAddedColumnForUpdate
    let baselineIndexes ← schemaIndexesByName baseline.indexes
    let targetIndexes ← schemaIndexesByName target.indexes
    .ok {
      tableCommentChange := changeIf (normalizedOptionalText baseline.basics.comment)
        (normalizedOptionalText target.basics.comment)
        ⟨normalizedOptionalText target.basics.comment⟩
      tableEngineChange := changedTo baseline.basics.engine target.basics.engine
      tableCharsetChange := changedTo baseline.basics.charset target.basics.charset
      tableCollationChange := changedTo baseline.basics.collation target.basics.collation
      primaryKeyChange := changeIf baselinePrimaryKey.columns targetPrimaryKey.columns
        ⟨baselinePrimaryKey.name, baselinePrimaryKey.columns, targetPrimaryKey.columns⟩
      renamedColumns := columnRenames.map fun rename ↦ ⟨trim rename.oldName, trim rename.newName⟩
      addedColumns := addedColumns
      droppedColumns := deltas.filterMap (·.droppedColumn)
      addedIndexes := addedIndexesOf baseline.indexes target.indexes baselineIndexes targetIndexes
      droppedIndexes := droppedIndexesOf baseline.indexes targetIndexes
      addedConstraints := addedConstraintsOf orders baselineConstraints targetConstraints
      droppedConstraints := droppedConstraintsOf orders baselineConstraints targetConstraints
      addedOrModifiedConstraints := addedConstraintsOf orders baselineConstraints targetConstraints
      columnTypeChanges := deltas.filterMap (·.typeChange)
      columnCommentChanges := deltas.filterMap (·.commentChange)
      columnDefaultChanges := deltas.filterMap (·.defaultChange)
      columnNullabilityChanges := deltas.filterMap (·.nullabilityChange)
      generatedColumnChanges := deltas.filterMap (·.generatedChange)
      identityChanges := deltas.filterMap (·.identityChange)
      columnCharsetChanges := deltas.filterMap (·.charsetChange) }

end Schema
