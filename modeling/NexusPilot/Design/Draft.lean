import NexusPilot.Design.ColumnType
import NexusPilot.Schema.Types

/-!
# Drafts of the table designer

The draft that the designer edits, made from the described schema of a table (`tableSchemaToDraft`) and turned
into the schema that is sent back (`tableSchemaDraftToTableSchema`). Every field of a draft is a text or a flag:
what is missing in the schema is the empty text, and a list of columns is one text with commas.

Rows of a draft are told apart by identifiers, which are made at random and numbered here in the order in which
they are made.
-/

namespace Design

open Schema Text

/-! ### Drafts -/

/-- `TableDesignBasicsDraft`. -/
structure TableDesignBasicsDraft where
  tableName : String
  databaseName : String
  schemaName : String
  engine : String
  charset : String
  collation : String
  comment : String
  partitionExpression : String
  partitionRawClause : String
  partitionReadonlyDescription : String
  deriving DecidableEq

/-- `TableColumnDraft`. -/
structure TableColumnDraft where
  id : ℕ
  originalName : Option String
  name : String
  typeName : String
  typeDraft : ColumnTypeDraft
  nullable : Bool
  defaultValue : String
  isPrimaryKey : Bool
  isUnique : Bool
  isIdentity : Bool
  identityGeneration : TableIdentityGeneration
  identityStart : String
  identityIncrement : String
  identityMinValue : String
  identityMaxValue : String
  identityCache : String
  identityCycle : Bool
  generatedExpression : String
  generatedStorage : TableGeneratedColumnStorage
  charset : String
  collation : String
  comment : String
  deriving DecidableEq

/-- `TableIndexDraft`. -/
structure TableIndexDraft where
  id : ℕ
  name : String
  columns : String
  isUnique : Bool
  method : String
  comment : String
  deriving DecidableEq

/-- `TableConstraintDraft`. -/
structure TableConstraintDraft where
  id : ℕ
  name : String
  kind : TableConstraintKind
  columns : String
  reference : String
  expression : String
  referenceSchema : String
  referenceTable : String
  referenceColumns : String
  onUpdate : Option TableReferentialAction
  onDelete : Option TableReferentialAction
  enforced : Bool
  comment : String
  deriving DecidableEq

/-- `TableSchemaDraft`. -/
structure TableSchemaDraft where
  basics : TableDesignBasicsDraft
  columns : List TableColumnDraft
  indexes : List TableIndexDraft
  constraints : List TableConstraintDraft
  deriving DecidableEq

/-! ### From a schema -/

/-- The generation that a profile sets on new columns. -/
def IdentityGeneration.toSchema : IdentityGeneration → TableIdentityGeneration
  | .always => .always
  | .byDefault => .byDefault

/-- A column of `tableSchemaToDraft`. -/
def columnToDraft (profile : TableDesignDriverProfile) (id : ℕ) (column : TableColumnSchema) : TableColumnDraft :=
  let typeDraft := parseColumnType column.typeName profile
  { id
    originalName := some column.name
    name := column.name
    typeName := formatColumnType typeDraft profile
    typeDraft
    nullable := column.nullable
    defaultValue := column.defaultValue.getD ""
    isPrimaryKey := column.isPrimaryKey
    isUnique := column.isUnique
    isIdentity := column.isIdentity
    identityGeneration := (column.identity.map (·.generation)).getD profile.identityGeneration.toSchema
    identityStart := (column.identity.bind (·.start)).getD ""
    identityIncrement := (column.identity.bind (·.increment)).getD ""
    identityMinValue := (column.identity.bind (·.minValue)).getD ""
    identityMaxValue := (column.identity.bind (·.maxValue)).getD ""
    identityCache := (column.identity.bind (·.cache)).getD ""
    identityCycle := (column.identity.map (·.cycle)).getD false
    generatedExpression := (column.generated.map (·.expression)).getD ""
    generatedStorage := (column.generated.map (·.storage)).getD .stored
    charset := column.charset.getD ""
    collation := column.collation.getD ""
    comment := column.comment.getD "" }

/-- An index of `tableSchemaToDraft`. -/
def indexToDraft (id : ℕ) (index : TableIndexSchema) : TableIndexDraft where
  id := id
  name := index.name
  columns := joinNames index.columns
  isUnique := index.isUnique
  method := index.method.getD ""
  comment := index.comment.getD ""

/-- A constraint of `tableSchemaToDraft`. -/
def constraintToDraft (id : ℕ) (constraint : TableConstraintSchema) : TableConstraintDraft where
  id := id
  name := constraint.name
  kind := constraint.kind
  columns := joinNames constraint.columns
  reference := constraint.reference.getD ""
  expression := constraint.expression.getD ""
  referenceSchema :=
    (((constraint.foreignKey.bind (·.schemaName)).or (constraint.foreignKey.bind (·.databaseName)))).getD ""
  referenceTable := (constraint.foreignKey.map (·.tableName)).getD ""
  referenceColumns := (constraint.foreignKey.map fun key ↦ joinNames key.columns).getD ""
  onUpdate := constraint.foreignKey.bind (·.onUpdate)
  onDelete := constraint.foreignKey.bind (·.onDelete)
  enforced := constraint.enforced.getD true
  comment := constraint.comment.getD ""

/-- Rows with the identifiers that are made for them, from a first one on. -/
def numbered {α β : Type} (make : ℕ → α → β) (first : ℕ) (rows : List α) : List β :=
  (rows.zipIdx first).map fun (row, id) ↦ make id row

/-- `tableSchemaToDraft`. -/
def tableSchemaToDraft (schema : TableSchema) (driver : DesignDriver) : TableSchemaDraft where
  basics := {
    tableName := schema.basics.tableName
    databaseName := schema.basics.databaseName
    schemaName := schema.basics.schemaName
    engine := schema.basics.engine.getD ""
    charset := schema.basics.charset.getD ""
    collation := schema.basics.collation.getD ""
    comment := schema.basics.comment.getD ""
    partitionExpression := (schema.basics.partition.bind (·.expression)).getD ""
    partitionRawClause := (schema.basics.partition.bind (·.rawClause)).getD ""
    partitionReadonlyDescription := (schema.basics.partition.bind (·.readonlyDescription)).getD "" }
  columns := numbered (columnToDraft (tableDesignProfileForDriver driver)) 0 schema.columns
  indexes := numbered indexToDraft schema.columns.length schema.indexes
  constraints := numbered constraintToDraft (schema.columns.length + schema.indexes.length) schema.constraints

/-! ### To a schema -/

/-- `nullableText`. -/
def nullableText (value : String) : Option String :=
  if scriptTrim value = "" then none else some (scriptTrim value)

/-- `splitColumnList`. -/
def splitColumnList (value : String) : List String :=
  splitNames value

/-- `joinColumnList`. -/
def joinColumnList (columns : List String) : String :=
  joinNames columns

/-- `TableDesignResolvedContext`, with the fields that a schema is made with. -/
structure TableDesignResolvedContext where
  tableName : String
  databaseName : String
  schemaName : String
  driver : DesignDriver
  deriving DecidableEq

/-- The partition of `tableSchemaDraftToTableSchema`. -/
def partitionOf (basics : TableDesignBasicsDraft) : Option TablePartitionOptions :=
  let expression := nullableText basics.partitionExpression
  let rawClause := nullableText basics.partitionRawClause
  let readonlyDescription := nullableText basics.partitionReadonlyDescription
  if expression.isSome ∨ rawClause.isSome ∨ readonlyDescription.isSome then
    some ⟨expression, rawClause, readonlyDescription⟩
  else none

/-- A text that the schema of an Oracle table does not have. -/
def unlessOracle (driver : DesignDriver) (value : String) : Option String :=
  if driver = .oracle then none else nullableText value

/-- A column of `tableSchemaDraftToTableSchema`. -/
def columnToSchema (driver : DesignDriver) (column : TableColumnDraft) : TableColumnSchema where
  name := scriptTrim column.name
  typeName := scriptTrim column.typeName
  nullable := column.nullable
  defaultValue := nullableText column.defaultValue
  isPrimaryKey := column.isPrimaryKey
  isUnique := column.isUnique
  isIdentity := column.isIdentity
  identity :=
    if column.isIdentity then
      some {
        generation := column.identityGeneration
        start := nullableText column.identityStart
        increment := nullableText column.identityIncrement
        minValue := nullableText column.identityMinValue
        maxValue := nullableText column.identityMaxValue
        cache := nullableText column.identityCache
        cycle := column.identityCycle }
    else none
  generated :=
    (nullableText column.generatedExpression).map fun _ ↦
      ⟨scriptTrim column.generatedExpression, if driver = .oracle then .virtual else column.generatedStorage⟩
  charset := unlessOracle driver column.charset
  collation := unlessOracle driver column.collation
  comment := nullableText column.comment

/-- An index of `tableSchemaDraftToTableSchema`. -/
def indexToSchema (driver : DesignDriver) (index : TableIndexDraft) : TableIndexSchema where
  name := scriptTrim index.name
  columns := splitColumnList index.columns
  isUnique := index.isUnique
  method := unlessOracle driver index.method
  comment := unlessOracle driver index.comment

/-- The foreign key of a constraint. -/
def foreignKeyOf (driver : DesignDriver) (constraint : TableConstraintDraft) : Option TableForeignKeyReference :=
  if constraint.kind = .foreignKey then
    (nullableText constraint.referenceTable).map fun tableName ↦ {
      databaseName := if driver = .mysql then nullableText constraint.referenceSchema else none
      schemaName :=
        if driver = .postgres ∨ driver = .oracle then nullableText constraint.referenceSchema else none
      tableName
      columns := splitColumnList constraint.referenceColumns
      onUpdate := constraint.onUpdate
      onDelete := constraint.onDelete }
  else none

/-- A constraint of `tableSchemaDraftToTableSchema`. -/
def constraintToSchema (driver : DesignDriver) (constraint : TableConstraintDraft) : TableConstraintSchema where
  name := scriptTrim constraint.name
  kind := constraint.kind
  columns := splitColumnList constraint.columns
  reference := nullableText constraint.reference
  expression := nullableText constraint.expression
  comment := nullableText constraint.comment
  foreignKey := foreignKeyOf driver constraint
  enforced :=
    if constraint.kind = .check ∨ constraint.kind = .foreignKey then some constraint.enforced else none

/-- `tableSchemaDraftToTableSchema`. -/
def tableSchemaDraftToTableSchema (draft : TableSchemaDraft) (context : TableDesignResolvedContext) :
    TableSchema where
  basics := {
    tableName := context.tableName
    databaseName := context.databaseName
    schemaName := context.schemaName
    engine := unlessOracle context.driver draft.basics.engine
    charset := unlessOracle context.driver draft.basics.charset
    collation := unlessOracle context.driver draft.basics.collation
    comment := nullableText draft.basics.comment
    partition := partitionOf draft.basics }
  columns := draft.columns.map (columnToSchema context.driver)
  indexes := draft.indexes.map (indexToSchema context.driver)
  constraints := draft.constraints.map (constraintToSchema context.driver)

end Design
