import NexusPilot.Drivers.Error

/-!
# Table schemas

The description of a table that the table designer edits: its basics, columns, indexes and constraints,
and the request to update a table from a baseline to a target. Of the `ContainerRef` that a request
names its table by, the fields that a table is found by are kept.
-/

namespace Schema

inductive TableIdentityGeneration
  | always
  | byDefault
  deriving DecidableEq

structure TableIdentityOptions where
  generation : TableIdentityGeneration
  start : Option String
  increment : Option String
  minValue : Option String
  maxValue : Option String
  cache : Option String
  cycle : Bool
  deriving DecidableEq

inductive TableGeneratedColumnStorage
  | virtual
  | stored
  deriving DecidableEq

structure TableGeneratedColumn where
  expression : String
  storage : TableGeneratedColumnStorage
  deriving DecidableEq

inductive TableReferentialAction
  | noAction
  | restrict
  | cascade
  | setNull
  | setDefault
  deriving DecidableEq

structure TableForeignKeyReference where
  databaseName : Option String
  schemaName : Option String
  tableName : String
  columns : List String
  onUpdate : Option TableReferentialAction
  onDelete : Option TableReferentialAction
  deriving DecidableEq

structure TablePartitionOptions where
  expression : Option String
  rawClause : Option String
  readonlyDescription : Option String
  deriving DecidableEq

structure TableSchemaBasics where
  tableName : String
  databaseName : String
  schemaName : String
  engine : Option String := none
  charset : Option String := none
  collation : Option String := none
  comment : Option String := none
  partition : Option TablePartitionOptions := none
  deriving DecidableEq

structure TableColumnSchema where
  name : String
  typeName : String
  nullable : Bool := true
  defaultValue : Option String := none
  isPrimaryKey : Bool := false
  isUnique : Bool := false
  isIdentity : Bool := false
  comment : Option String := none
  identity : Option TableIdentityOptions := none
  generated : Option TableGeneratedColumn := none
  charset : Option String := none
  collation : Option String := none
  deriving DecidableEq

structure TableIndexSchema where
  name : String
  columns : List String
  isUnique : Bool
  method : Option String
  comment : Option String
  deriving DecidableEq

inductive TableConstraintKind
  | primaryKey
  | unique
  | foreignKey
  | check
  deriving DecidableEq

structure TableConstraintSchema where
  name : String
  kind : TableConstraintKind
  columns : List String
  reference : Option String := none
  expression : Option String := none
  comment : Option String := none
  foreignKey : Option TableForeignKeyReference := none
  enforced : Option Bool := none
  deriving DecidableEq

structure TableSchema where
  basics : TableSchemaBasics
  columns : List TableColumnSchema
  indexes : List TableIndexSchema
  constraints : List TableConstraintSchema
  deriving DecidableEq

structure TableColumnRename where
  oldName : String
  newName : String
  deriving DecidableEq

inductive ContainerKind
  | assetGroup
  | database
  | schema
  | table
  | view
  | materializedView
  | function
  | procedure
  | trigger
  | index
  | dictionary
  | projection
  | sequence
  | extension
  | event
  | column
  | collection
  | document
  | field
  | nodeLabel
  | relationshipType
  | vectorCollection
  | partition
  | searchIndex
  | dataStream
  | mappingField
  | redisDatabase
  | redisKeyPrefix
  | redisKey
  deriving DecidableEq

structure ContainerRef where
  kind : ContainerKind
  database : Option String
  schema : Option String
  table : Option String
  objectName : Option String
  deriving DecidableEq

structure UpdateTableInput where
  container : ContainerRef
  baseline : TableSchema
  target : TableSchema
  columnRenames : List TableColumnRename
  confirmDestructive : Bool
  deriving DecidableEq

end Schema
