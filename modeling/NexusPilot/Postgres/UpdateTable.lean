import NexusPilot.Schema.Ddl

/-!
# Updates of a PostgreSQL table

`update_table_statements`: the statements that turn the baseline of a table into its target, in the order in
which they are run. Definitions name a column as the request does, the other statements name it trimmed.
-/

namespace Postgres

open Drivers Schema

/-! ### Definitions -/

/-- `postgres_identity_generation`. -/
def postgresIdentityGeneration : TableIdentityGeneration → String
  | .always => "GENERATED ALWAYS"
  | .byDefault => "GENERATED BY DEFAULT"

/-- `postgres_identity_generation_keyword`. -/
def postgresIdentityGenerationKeyword : TableIdentityGeneration → String
  | .always => "ALWAYS"
  | .byDefault => "BY DEFAULT"

/-- How the values of a column come about: generated, an identity, or a default. -/
def valueClause (column : TableColumnSchema) : IpcResult String :=
  match column.generated with
  | some generated =>
    if generated.storage ≠ .stored then .error (.invalid "PostgreSQL 生成列只支持 STORED")
    else if normalizedOptionalText column.defaultValue ≠ none ∨ column.isIdentity ∨
        column.identity ≠ none then
      .error (.invalid "生成列不能同时设置默认值或 identity")
    else do
      let expression ← normalizedSqlFragment generated.expression "生成列表达式"
      .ok (" GENERATED ALWAYS AS (" ++ expression ++ ") STORED")
  | none =>
    if column.isIdentity ∨ column.identity ≠ none then
      if normalizedOptionalText column.defaultValue ≠ none then
        .error (.invalid "自增列不能同时设置默认值")
      else
        match (column.identity.map (·.generation)).getD .byDefault with
        | .always => .ok " GENERATED ALWAYS AS IDENTITY"
        | .byDefault => .ok " GENERATED BY DEFAULT AS IDENTITY"
    else do
      let defaultValue ← normalizedOptionalFragment column.defaultValue "默认值"
      .ok (clause " DEFAULT " defaultValue)

/-- `postgres_column_definition`. -/
def postgresColumnDefinition (column : TableColumnSchema) : IpcResult String := do
  let typeName ← normalizedSqlFragment column.typeName "列类型"
  let collation ← normalizedOptionalFragment column.collation "列排序规则"
  let value ← valueClause column
  .ok (quotePgIdentifier column.name ++ " " ++ typeName ++ clause " COLLATE " collation ++ value ++
    if column.isPrimaryKey || column.isIdentity || !column.nullable then " NOT NULL" else "")

/-- `postgres_table_constraint_definition`. -/
def postgresTableConstraintDefinition (constraint : TableConstraintSchema) : IpcResult String := do
  let name ← normalizedNonEmptyIdentifier constraint.name "约束名"
  match constraint.kind with
  | .foreignKey => foreignKeyDefinition quotePgIdentifier (·.schemaName) name constraint
  | .check => do
    let expression ← normalizedSqlFragment (constraint.expression.getD "") "CHECK 表达式"
    .ok ("CONSTRAINT " ++ quotePgIdentifier name ++ " CHECK (" ++ expression ++ ")")
  | .primaryKey | .unique =>
    .error (.invalid "该约束类型不应通过 PostgreSQL advanced renderer 渲染")

/-! ### Statements -/

/-- A statement of a table update. -/
inductive Statement
  | commentOnTable (literal : String)
  | addColumn (name definition : String)
  | commentOnColumn (name literal : String)
  | renameColumn (old new : String)
  | alterType (name typeName : String)
  | setDefault (name value : String)
  | dropDefault (name : String)
  | alterNullability (name : String) (nullable : Bool)
  | addIdentity (name : String) (generation : TableIdentityGeneration)
  | dropIdentity (name : String)
  | setGenerated (name : String) (generation : TableIdentityGeneration)
  | dropConstraint (name : String)
  | addPrimaryKey (columns : List String)
  | addConstraint (definition : String)
  | dropIndex (name : String)
  | dropColumn (name : String)
  | createIndex (isUnique : Bool) (name method : String) (columns : List String)
  deriving DecidableEq

/-- The pieces of a statement that alters a column. -/
def alterColumnPieces (table name : String) (action : List Piece) : List Piece :=
  [.keyword "ALTER TABLE ", .carried table, .keyword " ALTER COLUMN ",
    .carried (quotePgIdentifier name)] ++ action

/-- The pieces of a statement on a table, given by the name of its schema and its quoted name. -/
def Statement.pieces (schema table : String) : Statement → List Piece
  | .commentOnTable literal =>
    [.keyword "COMMENT ON TABLE ", .carried table, .keyword " IS ", .carried literal]
  | .addColumn _ definition =>
    [.keyword "ALTER TABLE ", .carried table, .keyword " ADD COLUMN ", .carried definition]
  | .commentOnColumn name literal =>
    [.keyword "COMMENT ON COLUMN ", .carried table, .keyword ".", .carried (quotePgIdentifier name),
      .keyword " IS ", .carried literal]
  | .renameColumn old new =>
    [.keyword "ALTER TABLE ", .carried table, .keyword " RENAME COLUMN ",
      .carried (quotePgIdentifier old), .keyword " TO ", .carried (quotePgIdentifier new)]
  | .alterType name typeName =>
    alterColumnPieces table name [.keyword " TYPE ", .carried typeName]
  | .setDefault name value =>
    alterColumnPieces table name [.carried (" SET DEFAULT " ++ value)]
  | .dropDefault name => alterColumnPieces table name [.keyword " DROP DEFAULT"]
  | .alterNullability name nullable =>
    alterColumnPieces table name [.keyword (if nullable then " DROP NOT NULL" else " SET NOT NULL")]
  | .addIdentity name generation =>
    alterColumnPieces table name
      [.keyword (" ADD " ++ postgresIdentityGeneration generation ++ " AS IDENTITY")]
  | .dropIdentity name => alterColumnPieces table name [.keyword " DROP IDENTITY"]
  | .setGenerated name generation =>
    alterColumnPieces table name
      [.keyword (" SET GENERATED " ++ postgresIdentityGenerationKeyword generation)]
  | .dropConstraint name =>
    [.keyword "ALTER TABLE ", .carried table, .keyword " DROP CONSTRAINT ",
      .carried (quotePgIdentifier name)]
  | .addPrimaryKey columns =>
    [.keyword "ALTER TABLE ", .carried table, .keyword " ADD PRIMARY KEY (",
      .carried (quoteColumnList columns quotePgIdentifier), .keyword ")"]
  | .addConstraint definition =>
    [.keyword "ALTER TABLE ", .carried table, .keyword " ADD ", .carried definition]
  | .dropIndex name =>
    [.keyword "DROP INDEX ", .carried (quotePgIdentifier schema), .keyword ".",
      .carried (quotePgIdentifier name)]
  | .dropColumn name =>
    [.keyword "ALTER TABLE ", .carried table, .keyword " DROP COLUMN ",
      .carried (quotePgIdentifier name)]
  | .createIndex isUnique name method columns =>
    [.keyword (if isUnique then "CREATE UNIQUE INDEX " else "CREATE INDEX "),
      .carried (quotePgIdentifier name), .keyword " ON ", .carried table,
      .carried (" USING " ++ method ++ " "), .keyword "(",
      .carried (quoteColumnList columns quotePgIdentifier), .keyword ")"]

/-- What a statement does to the names of the columns: one that alters a column or comments on it needs its
name. -/
def Statement.steps : Statement → List (Names.Step String)
  | .addColumn name _ => [.add name]
  | .renameColumn old new => [.move old new]
  | .commentOnColumn name _ | .alterType name _ | .setDefault name _ | .dropDefault name
  | .alterNullability name _ | .addIdentity name _ | .dropIdentity name | .setGenerated name _ =>
    [.move name name]
  | .dropColumn name => [.drop name]
  | _ => []

/-! ### The update -/

/-- `is_user_schema_name`. -/
def isUserSchemaName (schema : String) : Bool :=
  let schema := toAsciiLowercase (trim schema)
  schema != "information_schema" && schema != "pg_catalog" &&
    !"pg_toast".toList.isPrefixOf schema.toList && !"pg_temp".toList.isPrefixOf schema.toList

/-- `ensure_user_schema_name`. -/
def ensureUserSchemaName (schema : String) : IpcResult Unit :=
  if isUserSchemaName schema then .ok ()
  else .error (.invalid "不能在 PostgreSQL 系统或临时 Schema 中创建表")

/-- `ensure_schema_matches_postgres_table_parts`. -/
def ensureSchemaMatchesPostgresTableParts (schema : TableSchema)
    (database schemaName table : String) : IpcResult Unit :=
  if trim schema.basics.databaseName = database ∧ trim schema.basics.schemaName = schemaName ∧
      trim schema.basics.tableName = table then
    .ok ()
  else .error (.invalid "表结构草稿与当前表不匹配，请刷新后重试")

/-- `update_table_parts`. -/
def updateTableParts (input : UpdateTableInput) (defaultDatabase defaultSchema : String) :
    IpcResult (String × String × String) :=
  if input.container.kind ≠ .table then .error (.notFound "Selected container is not a table")
  else do
    let database := (input.container.database.filter (trim · ≠ "")).getD defaultDatabase
    let schema := (input.container.schema.filter (trim · ≠ "")).getD defaultSchema
    let table := (input.container.table.or input.container.objectName).getD
      input.target.basics.tableName
    let database ← normalizedNonEmptyIdentifier database "数据库名称"
    let schema ← normalizedNonEmptyIdentifier schema "Schema"
    ensureUserSchemaName schema
    let table ← normalizedNonEmptyIdentifier table "表名"
    ensureSchemaMatchesPostgresTableParts input.baseline database schema table
    ensureSchemaMatchesPostgresTableParts input.target database schema table
    .ok (database, schema, table)

/-- A comment as a literal, `NULL` where there is none. -/
def commentLiteral : Option String → IpcResult String
  | some comment => renderSqlLiteral (.string comment)
  | none => .ok "NULL"

/-- The statement about the table itself. -/
def tableStatements (diff : TableSchemaUpdateDiff) : IpcResult (List Statement) :=
  match diff.tableCommentChange with
  | none => .ok []
  | some change => do
    let literal ← commentLiteral change.comment
    .ok [.commentOnTable literal]

/-- One added column, and its comment. -/
def addColumnStatements (column : TableColumnSchema) : IpcResult (List Statement) := do
  let definition ← postgresColumnDefinition column
  match normalizedOptionalText column.comment with
  | none => .ok [.addColumn column.name definition]
  | some comment => do
    let literal ← renderSqlLiteral (.string comment)
    .ok [.addColumn column.name definition, .commentOnColumn column.name literal]

/-- One change of a type. -/
def typeStatement (change : ColumnTypeChange) : IpcResult Statement := do
  let columnName ← normalizedNonEmptyIdentifier change.columnName "列名"
  let typeName ← normalizedSqlFragment change.typeName "列类型"
  .ok (.alterType columnName typeName)

/-- One change of a default. -/
def defaultStatement (change : ColumnDefaultChange) : IpcResult Statement := do
  let columnName ← normalizedNonEmptyIdentifier change.columnName "列名"
  let defaultValue ← normalizedOptionalFragment change.defaultValue "默认值"
  match defaultValue with
  | some value => .ok (.setDefault columnName value)
  | none => .ok (.dropDefault columnName)

/-- One change of nullability. -/
def nullabilityStatement (change : ColumnNullabilityChange) : IpcResult Statement := do
  let columnName ← normalizedNonEmptyIdentifier change.columnName "列名"
  .ok (.alterNullability columnName change.nullable)

/-- One change of a column's comment. -/
def commentStatement (change : ColumnCommentChange) : IpcResult Statement := do
  let literal ← commentLiteral change.comment
  .ok (.commentOnColumn change.columnName literal)

/-- `postgres_identity_change_statements`. -/
def postgresIdentityChangeStatements (change : ColumnIdentityChange) : IpcResult (List Statement) := do
  let columnName ← normalizedNonEmptyIdentifier change.columnName "列名"
  match change.oldIdentity, change.newIdentity with
  | none, some identity => .ok [.addIdentity columnName identity.generation]
  | some _, none => .ok [.dropIdentity columnName]
  | some oldIdentity, some newIdentity =>
    if oldIdentity.generation ≠ newIdentity.generation then
      .ok [.setGenerated columnName newIdentity.generation]
    else .error (.invalid ("暂不支持修改 identity 序列参数 '" ++ change.columnName ++ "'"))
  | none, none => .ok []

/-- The primary key that is dropped, by the name of its constraint. -/
def dropPrimaryKeyStatements (change : PrimaryKeyChange) : IpcResult (List Statement) :=
  if change.oldColumns = [] then .ok []
  else
    match normalizedOptionalText change.oldConstraintName with
    | none => .error (.invalid "无法确定当前 PostgreSQL 主键约束名，请刷新表结构后重试")
    | some name => .ok [.dropConstraint name]

/-- The statements for the primary key. -/
def primaryKeyStatements : Option PrimaryKeyChange → IpcResult (List Statement)
  | none => .ok []
  | some change => do
    let dropped ← dropPrimaryKeyStatements change
    .ok (dropped ++ if change.newColumns = [] then [] else [.addPrimaryKey change.newColumns])

/-- `postgres_drop_constraint_statement`. -/
def postgresDropConstraintStatement (constraint : TableConstraintSchema) : IpcResult Statement := do
  let name ← normalizedNonEmptyIdentifier constraint.name "约束名"
  .ok (.dropConstraint name)

/-- One added constraint. -/
def addConstraintStatement (constraint : TableConstraintSchema) : IpcResult Statement := do
  let definition ← postgresTableConstraintDefinition constraint
  .ok (.addConstraint definition)

/-- One dropped index. -/
def dropIndexStatement (index : TableIndexSchema) : IpcResult Statement := do
  let name ← normalizedNonEmptyIdentifier index.name "索引名"
  .ok (.dropIndex name)

/-- One dropped column. -/
def dropColumnStatement (column : TableColumnSchema) : IpcResult Statement := do
  let name ← normalizedNonEmptyIdentifier column.name "列名"
  .ok (.dropColumn name)

/-- One added index. -/
def createIndexStatement (columnNames : List String) (index : TableIndexSchema) :
    IpcResult Statement := do
  let name ← normalizedNonEmptyIdentifier index.name "索引名"
  let columns ← validateColumnRefs index.columns columnNames "索引列"
  let method ← normalizedOptionalFragment index.method "索引方法"
  .ok (.createIndex index.isUnique name (method.getD "btree") columns)

/-- A difference that changes a generated column is refused. -/
def ensureNoGeneratedChange (diff : TableSchemaUpdateDiff) : IpcResult Unit :=
  match diff.generatedColumnChanges with
  | change :: _ => .error (.invalid ("暂不支持修改已有 PostgreSQL 生成列 '" ++ change.columnName ++ "'"))
  | [] => .ok ()

/-- The statements of a difference, in the order in which they are run. -/
def diffStatements (diff : TableSchemaUpdateDiff) (target : TableSchema) : IpcResult (List Statement) := do
  let table ← tableStatements diff
  let added ← diff.addedColumns.mapM addColumnStatements
  let types ← diff.columnTypeChanges.mapM typeStatement
  let defaults ← diff.columnDefaultChanges.mapM defaultStatement
  let nullabilities ← diff.columnNullabilityChanges.mapM nullabilityStatement
  let comments ← diff.columnCommentChanges.mapM commentStatement
  ensureNoGeneratedChange diff
  let identities ← diff.identityChanges.mapM postgresIdentityChangeStatements
  let primaryKey ← primaryKeyStatements diff.primaryKeyChange
  let droppedConstraints ← diff.droppedConstraints.mapM postgresDropConstraintStatement
  let addedConstraints ← diff.addedConstraints.mapM addConstraintStatement
  let droppedIndexes ← diff.droppedIndexes.mapM dropIndexStatement
  let dropped ← diff.droppedColumns.mapM dropColumnStatement
  let addedIndexes ← diff.addedIndexes.mapM (createIndexStatement (target.columns.map (·.name)))
  .ok (table ++ added.flatten ++
    diff.renamedColumns.map (fun rename ↦ .renameColumn rename.oldName rename.newName) ++ types ++
    defaults ++ nullabilities ++ comments ++ identities.flatten ++ primaryKey ++ droppedConstraints ++
    addedConstraints ++ droppedIndexes ++ dropped ++ addedIndexes)

/-! ### The statements in closed form -/

/-- The definition of a column that has one. -/
def definitionOf (column : TableColumnSchema) : String :=
  textOr (postgresColumnDefinition column)

/-- The definition of a constraint that has one. -/
def constraintDefinitionOf (constraint : TableConstraintSchema) : String :=
  textOr (postgresTableConstraintDefinition constraint)

/-- A comment as a literal. -/
def literalOf : Option String → String
  | some comment => quotedText '\'' comment
  | none => "NULL"

/-- The statements for an added column. -/
def addColumnStatementsOf (column : TableColumnSchema) : List Statement :=
  .addColumn column.name (definitionOf column) :: (normalizedOptionalText column.comment).toList.map
    fun comment ↦ .commentOnColumn column.name (quotedText '\'' comment)

/-- The statement for a changed default. -/
def defaultStatementOf (change : ColumnDefaultChange) : Statement :=
  match normalizedOptionalText change.defaultValue with
  | some value => .setDefault (trim change.columnName) value
  | none => .dropDefault (trim change.columnName)

/-- The statements for a changed identity. -/
def identityStatementsOf (change : ColumnIdentityChange) : List Statement :=
  match change.oldIdentity, change.newIdentity with
  | none, some identity => [.addIdentity (trim change.columnName) identity.generation]
  | some _, none => [.dropIdentity (trim change.columnName)]
  | some _, some newIdentity => [.setGenerated (trim change.columnName) newIdentity.generation]
  | none, none => []

/-- The statements for a changed primary key. -/
def primaryKeyStatementsOf (change : PrimaryKeyChange) : List Statement :=
  (if change.oldColumns = [] then []
    else (normalizedOptionalText change.oldConstraintName).toList.map .dropConstraint) ++
    if change.newColumns = [] then [] else [.addPrimaryKey change.newColumns]

/-- The statements of a difference, without the checks. -/
def statementsOf (diff : TableSchemaUpdateDiff) : List Statement :=
  diff.tableCommentChange.toList.map (fun change ↦ Statement.commentOnTable (literalOf change.comment)) ++
    diff.addedColumns.flatMap addColumnStatementsOf ++
    diff.renamedColumns.map (fun rename ↦ Statement.renameColumn rename.oldName rename.newName) ++
    diff.columnTypeChanges.map
      (fun change ↦ Statement.alterType (trim change.columnName) (trim change.typeName)) ++
    diff.columnDefaultChanges.map defaultStatementOf ++
    diff.columnNullabilityChanges.map
      (fun change ↦ Statement.alterNullability (trim change.columnName) change.nullable) ++
    diff.columnCommentChanges.map
      (fun change ↦ Statement.commentOnColumn change.columnName (literalOf change.comment)) ++
    diff.identityChanges.flatMap identityStatementsOf ++
    diff.primaryKeyChange.toList.flatMap primaryKeyStatementsOf ++
    diff.droppedConstraints.map (fun constraint ↦ Statement.dropConstraint (trim constraint.name)) ++
    diff.addedConstraints.map (fun constraint ↦ Statement.addConstraint (constraintDefinitionOf constraint)) ++
    diff.droppedIndexes.map (fun index ↦ Statement.dropIndex (trim index.name)) ++
    diff.droppedColumns.map (fun column ↦ Statement.dropColumn (trim column.name)) ++
    diff.addedIndexes.map fun index ↦ Statement.createIndex index.isUnique (trim index.name)
      ((normalizedOptionalText index.method).getD "btree") (index.columns.map trim)

/-- What a difference that has statements satisfies. -/
structure Rendered (diff : TableSchemaUpdateDiff) : Prop where
  added : ∀ column ∈ diff.addedColumns, ∃ text, postgresColumnDefinition column = .ok text
  constraints : ∀ constraint ∈ diff.addedConstraints,
    ∃ text, postgresTableConstraintDefinition constraint = .ok text
  noGenerated : diff.generatedColumnChanges = []
  keyNamed : ∀ change, diff.primaryKeyChange = some change → change.oldColumns ≠ [] →
    (normalizedOptionalText change.oldConstraintName).isSome

section ClosedForm

variable {diff : TableSchemaUpdateDiff} {target : TableSchema} {statements : List Statement}

theorem eq_of_renderSqlLiteral {text literal : String} (h : renderSqlLiteral (.string text) = .ok literal) :
    literal = quotedText '\'' text := by
  obtain ⟨-, h⟩ := ite_error_eq_ok_iff.1 h
  cases h
  rfl

theorem eq_of_commentLiteral {comment : Option String} {literal : String}
    (h : commentLiteral comment = .ok literal) : literal = literalOf comment := by
  cases comment with
  | none =>
    cases h
    rfl
  | some comment => exact eq_of_renderSqlLiteral h

theorem eq_of_tableStatements (h : tableStatements diff = .ok statements) :
    statements = diff.tableCommentChange.toList.map
      fun change ↦ .commentOnTable (literalOf change.comment) := by
  rw [tableStatements] at h
  split at h
  · rename_i hnone
    rw [hnone]
    cases h
    rfl
  · rename_i change hsome
    rw [hsome]
    obtain ⟨_, hliteral, h⟩ := exists_of_bind_eq_ok h
    obtain rfl := eq_of_commentLiteral hliteral
    cases h
    rfl

theorem of_addColumnStatements {column : TableColumnSchema}
    (h : addColumnStatements column = .ok statements) :
    (∃ text, postgresColumnDefinition column = .ok text) ∧ statements = addColumnStatementsOf column := by
  obtain ⟨text, htext, h⟩ := exists_of_bind_eq_ok h
  have hdefinition : definitionOf column = text := by rw [definitionOf, htext]; rfl
  refine ⟨⟨text, htext⟩, ?_⟩
  rw [addColumnStatementsOf, hdefinition]
  cases hcomment : normalizedOptionalText column.comment with
  | none =>
    rw [hcomment] at h
    cases h
    rfl
  | some comment =>
    rw [hcomment] at h
    obtain ⟨_, hliteral, h⟩ := exists_of_bind_eq_ok h
    obtain rfl := eq_of_renderSqlLiteral hliteral
    cases h
    rfl

theorem eq_of_typeStatement {change : ColumnTypeChange} {statement : Statement}
    (h : typeStatement change = .ok statement) :
    statement = .alterType (trim change.columnName) (trim change.typeName) := by
  obtain ⟨_, hname, h⟩ := exists_of_bind_eq_ok h
  obtain ⟨_, hfragment, h⟩ := exists_of_bind_eq_ok h
  obtain ⟨-, rfl⟩ := normalizedNonEmptyIdentifier_eq_ok_iff.1 hname
  obtain ⟨-, rfl⟩ := normalizedSqlFragment_eq_ok_iff.1 hfragment
  cases h
  rfl

theorem eq_of_defaultStatement {change : ColumnDefaultChange} {statement : Statement}
    (h : defaultStatement change = .ok statement) : statement = defaultStatementOf change := by
  obtain ⟨_, hname, h⟩ := exists_of_bind_eq_ok h
  obtain ⟨_, hfragment, h⟩ := exists_of_bind_eq_ok h
  obtain ⟨-, rfl⟩ := normalizedNonEmptyIdentifier_eq_ok_iff.1 hname
  obtain ⟨-, rfl⟩ := normalizedOptionalFragment_eq_ok_iff.1 hfragment
  rw [defaultStatementOf]
  split at h
  · cases h
    rfl
  · cases h
    rfl

theorem eq_of_nullabilityStatement {change : ColumnNullabilityChange} {statement : Statement}
    (h : nullabilityStatement change = .ok statement) :
    statement = .alterNullability (trim change.columnName) change.nullable := by
  obtain ⟨_, hname, h⟩ := exists_of_bind_eq_ok h
  obtain ⟨-, rfl⟩ := normalizedNonEmptyIdentifier_eq_ok_iff.1 hname
  cases h
  rfl

theorem eq_of_commentStatement {change : ColumnCommentChange} {statement : Statement}
    (h : commentStatement change = .ok statement) :
    statement = .commentOnColumn change.columnName (literalOf change.comment) := by
  obtain ⟨_, hliteral, h⟩ := exists_of_bind_eq_ok h
  obtain rfl := eq_of_commentLiteral hliteral
  cases h
  rfl

theorem eq_of_postgresIdentityChangeStatements {change : ColumnIdentityChange}
    (h : postgresIdentityChangeStatements change = .ok statements) :
    statements = identityStatementsOf change := by
  obtain ⟨_, hname, h⟩ := exists_of_bind_eq_ok h
  obtain ⟨-, rfl⟩ := normalizedNonEmptyIdentifier_eq_ok_iff.1 hname
  rw [identityStatementsOf]
  split at h
  · cases h
    rfl
  · cases h
    rfl
  · split_ifs at h
    cases h
    rfl
  · cases h
    rfl

theorem of_primaryKeyStatements {change : Option PrimaryKeyChange}
    (h : primaryKeyStatements change = .ok statements) :
    (∀ key, change = some key → key.oldColumns ≠ [] →
      (normalizedOptionalText key.oldConstraintName).isSome) ∧
        statements = change.toList.flatMap primaryKeyStatementsOf := by
  cases change with
  | none =>
    cases h
    exact ⟨fun _ hkey ↦ (nomatch hkey), rfl⟩
  | some key =>
    obtain ⟨dropped, hdropped, h⟩ := exists_of_bind_eq_ok h
    cases h
    rw [dropPrimaryKeyStatements] at hdropped
    simp only [Option.toList_some, List.flatMap_singleton, primaryKeyStatementsOf]
    split_ifs at hdropped with hcolumns
    · cases hdropped
      exact ⟨fun _ hkey hne ↦ by cases hkey; exact absurd hcolumns hne, by rw [if_pos hcolumns]⟩
    · rw [if_neg hcolumns]
      split at hdropped
      · cases hdropped
      · rename_i name hname
        cases hdropped
        exact ⟨fun _ hkey _ ↦ by cases hkey; rw [hname]; rfl, by rw [hname]; rfl⟩

/-- **The statements of a difference** are those of the closed form. -/
theorem of_diffStatements (h : diffStatements diff target = .ok statements) :
    Rendered diff ∧ statements = statementsOf diff := by
  obtain ⟨_, htable, h⟩ := exists_of_bind_eq_ok h
  obtain ⟨_, hadded, h⟩ := exists_of_bind_eq_ok h
  obtain ⟨_, htypes, h⟩ := exists_of_bind_eq_ok h
  obtain ⟨_, hdefaults, h⟩ := exists_of_bind_eq_ok h
  obtain ⟨_, hnullabilities, h⟩ := exists_of_bind_eq_ok h
  obtain ⟨_, hcomments, h⟩ := exists_of_bind_eq_ok h
  obtain ⟨_, hgenerated, h⟩ := exists_of_bind_eq_ok h
  obtain ⟨_, hidentities, h⟩ := exists_of_bind_eq_ok h
  obtain ⟨_, hkey, h⟩ := exists_of_bind_eq_ok h
  obtain ⟨_, hdroppedConstraints, h⟩ := exists_of_bind_eq_ok h
  obtain ⟨_, haddedConstraints, h⟩ := exists_of_bind_eq_ok h
  obtain ⟨_, hdroppedIndexes, h⟩ := exists_of_bind_eq_ok h
  obtain ⟨_, hdropped, h⟩ := exists_of_bind_eq_ok h
  obtain ⟨_, haddedIndexes, h⟩ := exists_of_bind_eq_ok h
  have haddConstraint : ∀ constraint statement, addConstraintStatement constraint = .ok statement →
      (∃ text, postgresTableConstraintDefinition constraint = .ok text) ∧
        statement = .addConstraint (constraintDefinitionOf constraint) := by
    intro constraint statement h
    obtain ⟨text, htext, h⟩ := exists_of_bind_eq_ok h
    cases h
    exact ⟨⟨text, htext⟩, by rw [constraintDefinitionOf, htext]; rfl⟩
  have hdropConstraint : ∀ constraint statement,
      postgresDropConstraintStatement constraint = .ok statement →
        statement = .dropConstraint (trim constraint.name) :=
    fun _ _ h ↦ eq_of_identifier_bind h
  have hdropIndex : ∀ index statement, dropIndexStatement index = .ok statement →
      statement = .dropIndex (trim index.name) :=
    fun _ _ h ↦ eq_of_identifier_bind h
  have hdropColumn : ∀ column statement, dropColumnStatement column = .ok statement →
      statement = .dropColumn (trim column.name) :=
    fun _ _ h ↦ eq_of_identifier_bind h
  have hcreate : ∀ index statement,
      createIndexStatement (target.columns.map (·.name)) index = .ok statement →
        statement = .createIndex index.isUnique (trim index.name)
          ((normalizedOptionalText index.method).getD "btree") (index.columns.map trim) := by
    intro index statement h
    obtain ⟨_, hname, h⟩ := exists_of_bind_eq_ok h
    obtain ⟨_, hrefs, h⟩ := exists_of_bind_eq_ok h
    obtain ⟨_, hmethod, h⟩ := exists_of_bind_eq_ok h
    obtain ⟨-, rfl⟩ := normalizedNonEmptyIdentifier_eq_ok_iff.1 hname
    obtain rfl := eq_of_validateColumnRefs hrefs
    obtain ⟨-, rfl⟩ := normalizedOptionalFragment_eq_ok_iff.1 hmethod
    cases h
    rfl
  obtain rfl := eq_of_tableStatements htable
  obtain ⟨haddedOk, rfl⟩ := (mapM_eq_ok_iff_of_eq fun _ _ h ↦ (of_addColumnStatements h).2).1 hadded
  obtain ⟨-, rfl⟩ := (mapM_eq_ok_iff_of_eq fun _ _ h ↦ eq_of_typeStatement h).1 htypes
  obtain ⟨-, rfl⟩ := (mapM_eq_ok_iff_of_eq fun _ _ h ↦ eq_of_defaultStatement h).1 hdefaults
  obtain ⟨-, rfl⟩ := (mapM_eq_ok_iff_of_eq fun _ _ h ↦ eq_of_nullabilityStatement h).1 hnullabilities
  obtain ⟨-, rfl⟩ := (mapM_eq_ok_iff_of_eq fun _ _ h ↦ eq_of_commentStatement h).1 hcomments
  obtain ⟨-, rfl⟩ :=
    (mapM_eq_ok_iff_of_eq fun _ _ h ↦ eq_of_postgresIdentityChangeStatements h).1 hidentities
  obtain ⟨hkeyNamed, rfl⟩ := of_primaryKeyStatements hkey
  obtain ⟨-, rfl⟩ := (mapM_eq_ok_iff_of_eq hdropConstraint).1 hdroppedConstraints
  obtain ⟨hconstraintsOk, rfl⟩ :=
    (mapM_eq_ok_iff_of_eq fun _ _ h ↦ (haddConstraint _ _ h).2).1 haddedConstraints
  obtain ⟨-, rfl⟩ := (mapM_eq_ok_iff_of_eq hdropIndex).1 hdroppedIndexes
  obtain ⟨-, rfl⟩ := (mapM_eq_ok_iff_of_eq hdropColumn).1 hdropped
  obtain ⟨-, rfl⟩ := (mapM_eq_ok_iff_of_eq hcreate).1 haddedIndexes
  have hnone : diff.generatedColumnChanges = [] := by
    rw [ensureNoGeneratedChange] at hgenerated
    split at hgenerated
    · cases hgenerated
    · assumption
  cases h
  refine ⟨⟨fun column hcolumn ↦ ?_, fun constraint hconstraint ↦ ?_, hnone, hkeyNamed⟩, ?_⟩
  · obtain ⟨_, hstatement⟩ := haddedOk column hcolumn
    exact (of_addColumnStatements hstatement).1
  · obtain ⟨_, hstatement⟩ := hconstraintsOk constraint hconstraint
    exact (haddConstraint _ _ hstatement).1
  · simp only [statementsOf, List.flatMap_def]

end ClosedForm

/-! ### The texts of an update -/

/-- The statements of an update, with the database, the schema and the table. -/
def updateStatements (orders : MapOrders) (input : UpdateTableInput)
    (defaultDatabase defaultSchema : String) :
    IpcResult (String × String × String × List Statement) := do
  let (database, schema, table) ← updateTableParts input defaultDatabase defaultSchema
  let diff ← diffTableSchemaForUpdateWithColumnRenames orders input.baseline input.target ⟨true⟩
    input.columnRenames
  if diff.isEmpty then .error (.invalid "没有可执行的表结构变更")
  else do
    let statements ← diffStatements diff input.target
    .ok (database, schema, table, statements)

/-- The quoted name of a table. -/
def qualifiedTable (schema table : String) : String :=
  quotePgIdentifier schema ++ "." ++ quotePgIdentifier table

/-- `update_table_statements`. -/
def updateTableStatements (orders : MapOrders) (input : UpdateTableInput)
    (defaultDatabase defaultSchema : String) : IpcResult (String × String × String × List String) := do
  let (database, schema, table, statements) ← updateStatements orders input defaultDatabase defaultSchema
  .ok (database, schema, table, statements.map fun statement ↦
    renderPieces (statement.pieces schema (qualifiedTable schema table)))

/-- `table_update_statements_are_destructive`. -/
def tableUpdateStatementsAreDestructive (statements : List String) : Bool :=
  statements.any fun statement ↦
    contains statement " DROP COLUMN " || contains statement " TYPE " ||
      contains statement " DROP CONSTRAINT " || contains statement " ADD PRIMARY KEY "

/-- `ensure_destructive_table_update_confirmed`. -/
def ensureDestructiveTableUpdateConfirmed (input : UpdateTableInput) (statements : List String) :
    IpcResult Unit :=
  if tableUpdateStatementsAreDestructive statements ∧ !input.confirmDestructive then
    .error (.invalid "破坏性表结构变更需要确认后才能执行")
  else .ok ()

end Postgres
