import NexusPilot.Schema.Ddl

/-!
# Updates of a MySQL table

`update_table_sql`: the statements that turn the baseline of a table into its target, in the order in which
they are run. Each statement is kept as what it does, with its text beside it (`Statement.pieces`) and its
effect on the names of the columns (`Statement.steps`).
-/

namespace Mysql

open Drivers Schema

/-! ### Definitions -/

/-- The comment of a column, as a clause. -/
def commentClause (comment : Option String) : IpcResult String :=
  match normalizedOptionalText comment with
  | none => .ok ""
  | some comment => do
    let literal ← renderSqlLiteral (.string comment)
    .ok (" COMMENT " ++ literal)

/-- `mysql_column_definition`. -/
def mysqlColumnDefinition (column : TableColumnSchema) : IpcResult String := do
  let typeName ← normalizedSqlFragment column.typeName "列类型"
  let charset ← normalizedOptionalFragment column.charset "列字符集"
  let collation ← normalizedOptionalFragment column.collation "列排序规则"
  let definition := quoteMysqlIdentifier column.name ++ " " ++ typeName ++
    clause " CHARACTER SET " charset ++ clause " COLLATE " collation
  match column.generated with
  | some generated =>
    if normalizedOptionalText column.defaultValue ≠ none then
      .error (.invalid "生成列不能同时设置默认值")
    else do
      let expression ← normalizedSqlFragment generated.expression "生成列表达式"
      let comment ← commentClause column.comment
      .ok (definition ++ " GENERATED ALWAYS AS (" ++ expression ++ ")" ++
        (match generated.storage with
          | .virtual => " VIRTUAL"
          | .stored => " STORED") ++ comment)
  | none => do
    let isIdentity := column.isIdentity || column.identity.isSome
    let defaultValue ← normalizedOptionalFragment column.defaultValue "默认值"
    let comment ← commentClause column.comment
    .ok (definition ++
      (if column.isPrimaryKey || isIdentity || !column.nullable then " NOT NULL" else " NULL") ++
      clause " DEFAULT " defaultValue ++ (if isIdentity then " AUTO_INCREMENT" else "") ++ comment)

/-- `mysql_table_constraint_definition`. -/
def mysqlTableConstraintDefinition (constraint : TableConstraintSchema) : IpcResult String := do
  let name ← normalizedNonEmptyIdentifier constraint.name "约束名"
  match constraint.kind with
  | .foreignKey =>
    foreignKeyDefinition quoteMysqlIdentifier (·.databaseName) name constraint
  | .check => do
    let expression ← normalizedSqlFragment (constraint.expression.getD "") "CHECK 表达式"
    .ok ("CONSTRAINT " ++ quoteMysqlIdentifier name ++ " CHECK (" ++ expression ++ ")" ++
      (match constraint.enforced with
        | none => ""
        | some true => " ENFORCED"
        | some false => " NOT ENFORCED"))
  | .primaryKey | .unique =>
    .error (.invalid "该约束类型不应通过 MySQL advanced renderer 渲染")

/-- `MYSQL_UNSAFE_ON_UPDATE_TYPE_MARKER`. -/
def unsafeOnUpdateTypeMarker : String :=
  "/* nexus_pilot:mysql_unsafe_on_update */"

/-- `MYSQL_UNSAFE_DEFAULT_TYPE_MARKER`. -/
def unsafeDefaultTypeMarker : String :=
  "/* nexus_pilot:mysql_unsafe_default */"

/-- `mysql_unsupported_table_design_modify_reason`. -/
def mysqlUnsupportedTableDesignModifyReason (column : TableColumnSchema) : Option String :=
  if contains column.typeName unsafeOnUpdateTypeMarker then
    some ("暂不支持修改包含 ON UPDATE 且无显式默认值的 MySQL 列 '" ++ column.name ++ "'")
  else if contains column.typeName unsafeDefaultTypeMarker then
    some ("暂不支持修改包含无法安全回放默认值元数据的 MySQL 列 '" ++ column.name ++ "'")
  else none

/-! ### Statements -/

/-- A statement of a table update. -/
inductive Statement
  | tableComment (literal : String)
  | tableEngine (engine : String)
  | tableCharset (charset collation : Option String)
  | addColumn (name definition : String)
  | changeColumn (old name definition : String)
  | modifyColumn (name definition : String)
  | renameColumn (old new : String)
  | dropPrimaryKey
  | addPrimaryKey (columns : List String)
  | dropConstraint (kind : TableConstraintKind) (name : String)
  | addConstraint (definition : String)
  | dropIndex (name : String)
  | dropColumn (name : String)
  | createIndex (isUnique : Bool) (name : String) (columns : List String)
  deriving DecidableEq

/-- What `mysql_drop_constraint_statement` renders for a constraint of a kind. -/
def dropConstraintPieces (table name : String) : TableConstraintKind → List Piece
  | .foreignKey =>
    [.keyword "ALTER TABLE ", .carried table, .keyword " DROP FOREIGN KEY ",
      .carried (quoteMysqlIdentifier name)]
  | .check =>
    [.keyword "ALTER TABLE ", .carried table, .keyword " DROP CHECK ",
      .carried (quoteMysqlIdentifier name)]
  | .unique =>
    [.keyword "ALTER TABLE ", .carried table, .keyword " DROP INDEX ",
      .carried (quoteMysqlIdentifier name)]
  | .primaryKey => [.keyword "ALTER TABLE ", .carried table, .keyword " DROP PRIMARY KEY"]

/-- The pieces of a statement on a table, given by its quoted name. -/
def Statement.pieces (table : String) : Statement → List Piece
  | .tableComment literal =>
    [.keyword "ALTER TABLE ", .carried table, .keyword " COMMENT = ", .carried literal]
  | .tableEngine engine =>
    [.keyword "ALTER TABLE ", .carried table, .keyword " ENGINE=", .carried engine]
  | .tableCharset charset collation =>
    [.keyword "ALTER TABLE ", .carried table,
      .carried (clause " DEFAULT CHARACTER SET " charset ++ clause " COLLATE " collation)]
  | .addColumn _ definition =>
    [.keyword "ALTER TABLE ", .carried table, .keyword " ADD COLUMN ", .carried definition]
  | .changeColumn old _ definition =>
    [.keyword "ALTER TABLE ", .carried table, .keyword " CHANGE COLUMN ",
      .carried (quoteMysqlIdentifier old), .keyword " ", .carried definition]
  | .modifyColumn _ definition =>
    [.keyword "ALTER TABLE ", .carried table, .keyword " MODIFY COLUMN ", .carried definition]
  | .renameColumn old new =>
    [.keyword "ALTER TABLE ", .carried table, .keyword " RENAME COLUMN ",
      .carried (quoteMysqlIdentifier old), .keyword " TO ", .carried (quoteMysqlIdentifier new)]
  | .dropPrimaryKey => [.keyword "ALTER TABLE ", .carried table, .keyword " DROP PRIMARY KEY"]
  | .addPrimaryKey columns =>
    [.keyword "ALTER TABLE ", .carried table, .keyword " ADD PRIMARY KEY (",
      .carried (quoteColumnList columns quoteMysqlIdentifier), .keyword ")"]
  | .dropConstraint kind name => dropConstraintPieces table name kind
  | .addConstraint definition =>
    [.keyword "ALTER TABLE ", .carried table, .keyword " ADD ", .carried definition]
  | .dropIndex name =>
    [.keyword "DROP INDEX ", .carried (quoteMysqlIdentifier name), .keyword " ON ", .carried table]
  | .dropColumn name =>
    [.keyword "ALTER TABLE ", .carried table, .keyword " DROP COLUMN ",
      .carried (quoteMysqlIdentifier name)]
  | .createIndex isUnique name columns =>
    [.keyword (if isUnique then "CREATE UNIQUE INDEX " else "CREATE INDEX "),
      .carried (quoteMysqlIdentifier name), .keyword " ON ", .carried table, .keyword " (",
      .carried (quoteColumnList columns quoteMysqlIdentifier), .keyword ")"]

/-- What a statement does to the names of the columns. -/
def Statement.steps : Statement → List (Names.Step String)
  | .addColumn name _ => [.add name]
  | .changeColumn old name _ => [.move old name]
  | .modifyColumn name _ => [.move name name]
  | .renameColumn old new => [.move old new]
  | .dropColumn name => [.drop name]
  | _ => []

/-! ### The update -/

/-- `ensure_schema_matches_mysql_table_parts`. -/
def ensureSchemaMatchesMysqlTableParts (schema : TableSchema) (database table : String) :
    IpcResult Unit :=
  if trim schema.basics.databaseName = database ∧ trim schema.basics.tableName = table then .ok ()
  else .error (.invalid "表结构草稿与当前表不匹配，请刷新后重试")

/-- `update_table_parts`. -/
def updateTableParts (input : UpdateTableInput) (defaultDatabase : Option String) :
    IpcResult (String × String) :=
  if input.container.kind ≠ .table then .error (.notFound "Selected container is not a table")
  else do
    let database := ((input.container.database.filter (trim · ≠ "")).or defaultDatabase).getD
      input.target.basics.databaseName
    let table := (input.container.table.or input.container.objectName).getD
      input.target.basics.tableName
    let database ← normalizedNonEmptyIdentifier database "数据库名称"
    let table ← normalizedNonEmptyIdentifier table "表名"
    ensureSchemaMatchesMysqlTableParts input.baseline database table
    ensureSchemaMatchesMysqlTableParts input.target database table
    .ok (database, table)

/-- The change of the table's comment. -/
def commentStatements : Option CommentChange → IpcResult (List Statement)
  | none => .ok []
  | some change => do
    let literal ← renderSqlLiteral (.string (change.comment.getD ""))
    .ok [.tableComment literal]

/-- The change of the table's engine. -/
def engineStatements : Option String → IpcResult (List Statement)
  | none => .ok []
  | some engine => do
    let engine ← normalizedSqlFragment engine "表引擎"
    .ok [.tableEngine engine]

/-- A fragment, if there is one. -/
def fragmentOf (label : String) : Option String → IpcResult (Option String)
  | none => .ok none
  | some value => do
    let value ← normalizedSqlFragment value label
    .ok (some value)

/-- The change of the table's character set and collation. -/
def charsetStatements (charset collation : Option String) : IpcResult (List Statement) :=
  if charset = none ∧ collation = none then .ok []
  else do
    let charset ← fragmentOf "字符集" charset
    let collation ← fragmentOf "排序规则" collation
    .ok [.tableCharset charset collation]

/-- One added column. -/
def addColumnStatement (column : TableColumnSchema) : IpcResult Statement := do
  let definition ← mysqlColumnDefinition column
  .ok (.addColumn column.name definition)

/-- The names of the columns whose definition changes. -/
def changedColumnNames (diff : TableSchemaUpdateDiff) : List String :=
  diff.columnDefaultChanges.map (·.columnName) ++ diff.columnNullabilityChanges.map (·.columnName) ++
    diff.columnCommentChanges.map (·.columnName) ++ diff.generatedColumnChanges.map (·.columnName) ++
    diff.identityChanges.map (·.columnName) ++ diff.columnCharsetChanges.map (·.columnName) ++
    diff.columnTypeChanges.map (·.columnName)

/-- The old name of a column that is renamed, by its new name: of several renames to one name the last
one counts. -/
def renameByNewName (diff : TableSchemaUpdateDiff) (name : String) : Option String :=
  (diff.renamedColumns.reverse.find? (·.newName = name)).map (·.oldName)

/-- One target column whose definition changes. -/
def changeStatement (diff : TableSchemaUpdateDiff) (column : TableColumnSchema) : IpcResult Statement :=
  match mysqlUnsupportedTableDesignModifyReason column with
  | some reason => .error (.invalid reason)
  | none => do
    let definition ← mysqlColumnDefinition column
    match renameByNewName diff column.name with
    | some old => .ok (.changeColumn old column.name definition)
    | none =>
      if column.name ∈ diff.columnTypeChanges.map (·.columnName) then
        .ok (.changeColumn column.name column.name definition)
      else .ok (.modifyColumn column.name definition)

/-- The target columns whose definition changes, in the order of the table. Their names are distinct, so
that none of them is taken out of the set of changed names twice. -/
def changedColumns (diff : TableSchemaUpdateDiff) (target : TableSchema) : List TableColumnSchema :=
  target.columns.filter (·.name ∈ changedColumnNames diff)

/-- Whether a rename is part of the change of a definition. -/
def handledRename (diff : TableSchemaUpdateDiff) (target : TableSchema) (rename : ColumnRenameChange) :
    Bool :=
  (changedColumns diff target).any fun column ↦
    column.name = rename.newName && (renameByNewName diff column.name).isSome

/-- The statements for the columns that stay: changes of their definitions, then the other renames. -/
def columnStatements (diff : TableSchemaUpdateDiff) (target : TableSchema) :
    IpcResult (List Statement) := do
  let changes ← (changedColumns diff target).mapM (changeStatement diff)
  match (changedColumnNames diff).filter (· ∉ target.columns.map (·.name)) with
  | name :: _ => .error (.invalid ("列 '" ++ name ++ "' 不存在"))
  | [] =>
    .ok (changes ++ (diff.renamedColumns.filter (!handledRename diff target ·)).map fun rename ↦
      .renameColumn rename.oldName rename.newName)

/-- The statements for the primary key. -/
def primaryKeyStatements : Option PrimaryKeyChange → List Statement
  | none => []
  | some change =>
    (if change.oldColumns = [] then [] else [.dropPrimaryKey]) ++
      if change.newColumns = [] then [] else [.addPrimaryKey change.newColumns]

/-- `mysql_drop_constraint_statement`. -/
def mysqlDropConstraintStatement (constraint : TableConstraintSchema) : IpcResult Statement := do
  let name ← normalizedNonEmptyIdentifier constraint.name "约束名"
  .ok (.dropConstraint constraint.kind name)

/-- One added constraint. -/
def addConstraintStatement (constraint : TableConstraintSchema) : IpcResult Statement := do
  let definition ← mysqlTableConstraintDefinition constraint
  .ok (.addConstraint definition)

/-- One dropped index. -/
def dropIndexStatement (index : TableIndexSchema) : IpcResult Statement := do
  let name ← normalizedNonEmptyIdentifier index.name "索引名"
  .ok (.dropIndex name)

/-- One dropped column. -/
def dropColumnStatement (column : TableColumnSchema) : IpcResult Statement := do
  let name ← normalizedNonEmptyIdentifier column.name "列名"
  .ok (.dropColumn name)

/-- One added index. -/
def createIndexStatement (columnNames : List String) (index : TableIndexSchema) : IpcResult Statement :=
  if normalizedOptionalText index.method ≠ none then .error (.invalid "暂不支持 MySQL 索引方法")
  else do
    let name ← normalizedNonEmptyIdentifier index.name "索引名"
    let columns ← validateColumnRefs index.columns columnNames "索引列"
    .ok (.createIndex index.isUnique name columns)

/-- The statements of a difference, in the order in which they are run. -/
def diffStatements (diff : TableSchemaUpdateDiff) (target : TableSchema) : IpcResult (List Statement) := do
  let comment ← commentStatements diff.tableCommentChange
  let engine ← engineStatements diff.tableEngineChange
  let charset ← charsetStatements diff.tableCharsetChange diff.tableCollationChange
  let added ← diff.addedColumns.mapM addColumnStatement
  let columns ← columnStatements diff target
  let droppedConstraints ← diff.droppedConstraints.mapM mysqlDropConstraintStatement
  let addedConstraints ← diff.addedConstraints.mapM addConstraintStatement
  let droppedIndexes ← diff.droppedIndexes.mapM dropIndexStatement
  let dropped ← diff.droppedColumns.mapM dropColumnStatement
  let addedIndexes ← diff.addedIndexes.mapM (createIndexStatement (target.columns.map (·.name)))
  .ok (comment ++ engine ++ charset ++ added ++ columns ++ primaryKeyStatements diff.primaryKeyChange ++
    droppedConstraints ++ addedConstraints ++ droppedIndexes ++ dropped ++ addedIndexes)

/-! ### The statements in closed form -/

/-- The definition of a column that has one. -/
def definitionOf (column : TableColumnSchema) : String :=
  textOr (mysqlColumnDefinition column)

/-- The definition of a constraint that has one. -/
def constraintDefinitionOf (constraint : TableConstraintSchema) : String :=
  textOr (mysqlTableConstraintDefinition constraint)

/-- The statement for a column whose definition changes. -/
def changeStatementOf (diff : TableSchemaUpdateDiff) (column : TableColumnSchema) : Statement :=
  match renameByNewName diff column.name with
  | some old => .changeColumn old column.name (definitionOf column)
  | none =>
    if column.name ∈ diff.columnTypeChanges.map (·.columnName) then
      .changeColumn column.name column.name (definitionOf column)
    else .modifyColumn column.name (definitionOf column)

/-- The statements of a difference, without the checks. -/
def statementsOf (diff : TableSchemaUpdateDiff) (target : TableSchema) : List Statement :=
  diff.tableCommentChange.toList.map
      (fun change ↦ Statement.tableComment (quotedText '\'' (change.comment.getD ""))) ++
    diff.tableEngineChange.toList.map (fun engine ↦ Statement.tableEngine (trim engine)) ++
    (if diff.tableCharsetChange = none ∧ diff.tableCollationChange = none then []
      else [Statement.tableCharset (diff.tableCharsetChange.map trim) (diff.tableCollationChange.map trim)]) ++
    diff.addedColumns.map (fun column ↦ Statement.addColumn column.name (definitionOf column)) ++
    ((changedColumns diff target).map (changeStatementOf diff) ++
      (diff.renamedColumns.filter (!handledRename diff target ·)).map
        fun rename ↦ Statement.renameColumn rename.oldName rename.newName) ++
    primaryKeyStatements diff.primaryKeyChange ++
    diff.droppedConstraints.map (fun constraint ↦ Statement.dropConstraint constraint.kind (trim constraint.name)) ++
    diff.addedConstraints.map (fun constraint ↦ Statement.addConstraint (constraintDefinitionOf constraint)) ++
    diff.droppedIndexes.map (fun index ↦ Statement.dropIndex (trim index.name)) ++
    diff.droppedColumns.map (fun column ↦ Statement.dropColumn (trim column.name)) ++
    diff.addedIndexes.map fun index ↦
      Statement.createIndex index.isUnique (trim index.name) (index.columns.map trim)

/-- What a difference that has statements satisfies. -/
structure Rendered (diff : TableSchemaUpdateDiff) (target : TableSchema) : Prop where
  added : ∀ column ∈ diff.addedColumns, ∃ text, mysqlColumnDefinition column = .ok text
  changed : ∀ column ∈ changedColumns diff target, ∃ text, mysqlColumnDefinition column = .ok text
  constraints : ∀ constraint ∈ diff.addedConstraints,
    ∃ text, mysqlTableConstraintDefinition constraint = .ok text
  known : ∀ name ∈ changedColumnNames diff, name ∈ target.columns.map (·.name)

section ClosedForm

variable {diff : TableSchemaUpdateDiff} {target : TableSchema} {statements : List Statement}

theorem eq_of_commentStatements {change : Option CommentChange}
    (h : commentStatements change = .ok statements) :
    statements = change.toList.map
      fun change ↦ .tableComment (quotedText '\'' (change.comment.getD "")) := by
  cases change with
  | none =>
    cases h
    rfl
  | some change =>
    obtain ⟨_, hliteral, h⟩ := exists_of_bind_eq_ok h
    obtain ⟨-, hliteral⟩ := ite_error_eq_ok_iff.1 hliteral
    cases hliteral
    cases h
    rfl

theorem eq_of_engineStatements {change : Option String} (h : engineStatements change = .ok statements) :
    statements = change.toList.map fun engine ↦ .tableEngine (trim engine) := by
  cases change with
  | none =>
    cases h
    rfl
  | some engine =>
    obtain ⟨_, hfragment, h⟩ := exists_of_bind_eq_ok h
    obtain ⟨-, rfl⟩ := normalizedSqlFragment_eq_ok_iff.1 hfragment
    cases h
    rfl

theorem eq_of_fragmentOf {label : String} {value r : Option String} (h : fragmentOf label value = .ok r) :
    r = value.map trim := by
  cases value with
  | none =>
    cases h
    rfl
  | some value =>
    obtain ⟨_, hfragment, h⟩ := exists_of_bind_eq_ok h
    obtain ⟨-, rfl⟩ := normalizedSqlFragment_eq_ok_iff.1 hfragment
    cases h
    rfl

theorem eq_of_charsetStatements {charset collation : Option String}
    (h : charsetStatements charset collation = .ok statements) :
    statements = if charset = none ∧ collation = none then []
      else [.tableCharset (charset.map trim) (collation.map trim)] := by
  rw [charsetStatements] at h
  split_ifs at h ⊢ with hnone
  · cases h
    rfl
  · obtain ⟨_, hcharset, h⟩ := exists_of_bind_eq_ok h
    obtain ⟨_, hcollation, h⟩ := exists_of_bind_eq_ok h
    obtain rfl := eq_of_fragmentOf hcharset
    obtain rfl := eq_of_fragmentOf hcollation
    cases h
    rfl

/-- The change of a column is rendered when its definition is. -/
theorem of_changeStatement {column : TableColumnSchema} {statement : Statement}
    (h : changeStatement diff column = .ok statement) :
    (∃ text, mysqlColumnDefinition column = .ok text) ∧ statement = changeStatementOf diff column := by
  rw [changeStatement] at h
  split at h
  · cases h
  · obtain ⟨text, htext, h⟩ := exists_of_bind_eq_ok h
    have hdefinition : definitionOf column = text := by rw [definitionOf, htext]; rfl
    refine ⟨⟨text, htext⟩, ?_⟩
    rw [changeStatementOf, hdefinition]
    split at h
    · cases h
      rfl
    · split_ifs at h ⊢
      · cases h
        rfl
      · cases h
        rfl

/-- **The statements of a difference** are those of the closed form. -/
theorem of_diffStatements (h : diffStatements diff target = .ok statements) :
    Rendered diff target ∧ statements = statementsOf diff target := by
  obtain ⟨_, hcomment, h⟩ := exists_of_bind_eq_ok h
  obtain ⟨_, hengine, h⟩ := exists_of_bind_eq_ok h
  obtain ⟨_, hcharset, h⟩ := exists_of_bind_eq_ok h
  obtain ⟨_, hadded, h⟩ := exists_of_bind_eq_ok h
  obtain ⟨_, hcolumns, h⟩ := exists_of_bind_eq_ok h
  obtain ⟨_, hdroppedConstraints, h⟩ := exists_of_bind_eq_ok h
  obtain ⟨_, haddedConstraints, h⟩ := exists_of_bind_eq_ok h
  obtain ⟨_, hdroppedIndexes, h⟩ := exists_of_bind_eq_ok h
  obtain ⟨_, hdropped, h⟩ := exists_of_bind_eq_ok h
  obtain ⟨_, haddedIndexes, h⟩ := exists_of_bind_eq_ok h
  obtain ⟨_, hchanges, hcolumns⟩ := exists_of_bind_eq_ok hcolumns
  have hadd : ∀ column statement, addColumnStatement column = .ok statement →
      (∃ text, mysqlColumnDefinition column = .ok text) ∧
        statement = .addColumn column.name (definitionOf column) := by
    intro column statement h
    obtain ⟨text, htext, h⟩ := exists_of_bind_eq_ok h
    cases h
    exact ⟨⟨text, htext⟩, by rw [definitionOf, htext]; rfl⟩
  have haddConstraint : ∀ constraint statement, addConstraintStatement constraint = .ok statement →
      (∃ text, mysqlTableConstraintDefinition constraint = .ok text) ∧
        statement = .addConstraint (constraintDefinitionOf constraint) := by
    intro constraint statement h
    obtain ⟨text, htext, h⟩ := exists_of_bind_eq_ok h
    cases h
    exact ⟨⟨text, htext⟩, by rw [constraintDefinitionOf, htext]; rfl⟩
  have hdropConstraint : ∀ constraint statement, mysqlDropConstraintStatement constraint = .ok statement →
      statement = .dropConstraint constraint.kind (trim constraint.name) :=
    fun _ _ h ↦ eq_of_identifier_bind h
  have hdropIndex : ∀ index statement, dropIndexStatement index = .ok statement →
      statement = .dropIndex (trim index.name) :=
    fun _ _ h ↦ eq_of_identifier_bind h
  have hdropColumn : ∀ column statement, dropColumnStatement column = .ok statement →
      statement = .dropColumn (trim column.name) :=
    fun _ _ h ↦ eq_of_identifier_bind h
  have hcreate : ∀ index statement,
      createIndexStatement (target.columns.map (·.name)) index = .ok statement →
        statement = .createIndex index.isUnique (trim index.name) (index.columns.map trim) := by
    intro index statement h
    obtain ⟨-, h⟩ := ite_error_eq_ok_iff.1 h
    obtain ⟨_, hname, h⟩ := exists_of_bind_eq_ok h
    obtain ⟨_, hrefs, h⟩ := exists_of_bind_eq_ok h
    obtain ⟨-, rfl⟩ := normalizedNonEmptyIdentifier_eq_ok_iff.1 hname
    obtain rfl := eq_of_validateColumnRefs hrefs
    cases h
    rfl
  obtain ⟨haddedOk, rfl⟩ := (mapM_eq_ok_iff_of_eq fun _ _ h ↦ (hadd _ _ h).2).1 hadded
  obtain ⟨hchangesOk, rfl⟩ := (mapM_eq_ok_iff_of_eq fun _ _ h ↦ (of_changeStatement h).2).1 hchanges
  obtain ⟨-, rfl⟩ := (mapM_eq_ok_iff_of_eq hdropConstraint).1 hdroppedConstraints
  obtain ⟨hconstraintsOk, rfl⟩ :=
    (mapM_eq_ok_iff_of_eq fun _ _ h ↦ (haddConstraint _ _ h).2).1 haddedConstraints
  obtain ⟨-, rfl⟩ := (mapM_eq_ok_iff_of_eq hdropIndex).1 hdroppedIndexes
  obtain ⟨-, rfl⟩ := (mapM_eq_ok_iff_of_eq hdropColumn).1 hdropped
  obtain ⟨-, rfl⟩ := (mapM_eq_ok_iff_of_eq hcreate).1 haddedIndexes
  obtain rfl := eq_of_commentStatements hcomment
  obtain rfl := eq_of_engineStatements hengine
  obtain rfl := eq_of_charsetStatements hcharset
  split at hcolumns
  · cases hcolumns
  · rename_i hknown
    cases hcolumns
    cases h
    refine ⟨⟨fun column hcolumn ↦ ?_, fun column hcolumn ↦ ?_, fun constraint hconstraint ↦ ?_, ?_⟩, rfl⟩
    · obtain ⟨_, hstatement⟩ := haddedOk column hcolumn
      exact (hadd _ _ hstatement).1
    · obtain ⟨_, hstatement⟩ := hchangesOk column hcolumn
      exact (of_changeStatement hstatement).1
    · obtain ⟨_, hstatement⟩ := hconstraintsOk constraint hconstraint
      exact (haddConstraint _ _ hstatement).1
    · intro name hname
      by_contra hnot
      exact List.filter_eq_nil_iff.1 hknown name hname (by simpa using hnot)

end ClosedForm

/-! ### The texts of an update -/

/-- The statements of an update, with the database and the table. -/
def updateTableStatements (orders : MapOrders) (input : UpdateTableInput)
    (defaultDatabase : Option String) : IpcResult (String × String × List Statement) := do
  let (database, table) ← updateTableParts input defaultDatabase
  let diff ← diffTableSchemaForUpdateWithColumnRenames orders input.baseline input.target ⟨true⟩
    input.columnRenames
  if diff.isEmpty then .error (.invalid "没有可执行的表结构变更")
  else do
    let statements ← diffStatements diff input.target
    .ok (database, table, statements)

/-- The quoted name of a table. -/
def qualifiedTable (database table : String) : String :=
  quoteMysqlIdentifier database ++ "." ++ quoteMysqlIdentifier table

/-- `update_table_sql`. -/
def updateTableSql (orders : MapOrders) (input : UpdateTableInput) (defaultDatabase : Option String) :
    IpcResult (String × String × List String) := do
  let (database, table, statements) ← updateTableStatements orders input defaultDatabase
  .ok (database, table,
    statements.map fun statement ↦ renderPieces (statement.pieces (qualifiedTable database table)))

/-- `table_update_statements_are_destructive`. -/
def tableUpdateStatementsAreDestructive (statements : List String) : Bool :=
  statements.any fun statement ↦
    contains statement " DROP COLUMN " || contains statement " CHANGE COLUMN " ||
      contains statement " DROP PRIMARY KEY" || contains statement " ADD PRIMARY KEY "

/-- `ensure_destructive_table_update_confirmed`. -/
def ensureDestructiveTableUpdateConfirmed (input : UpdateTableInput) (statements : List String) :
    IpcResult Unit :=
  if tableUpdateStatementsAreDestructive statements ∧ !input.confirmDestructive then
    .error (.invalid "破坏性表结构变更需要确认后才能执行")
  else .ok ()

end Mysql
