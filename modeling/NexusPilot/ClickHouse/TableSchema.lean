import NexusPilot.Schema.Types

/-!
# ClickHouse tables and the targets of the designer

The description of a ClickHouse table, as `describe` reads it from the server, the table that the
designer wants, and the request to alter the one into the other. The UUID of a table, the raw text of
its engine and the recorded statement of a baseline are read by no modelled function and are left out.
-/

namespace ClickHouse

open Schema (ContainerKind)

/-- `ClickHouseColumnDefaultKind`. -/
inductive ColumnDefaultKind
  | none
  | default
  | materialized
  | alias
  | ephemeral
  deriving DecidableEq

/-- `ClickHouseSchemaEditabilityMode`. -/
inductive SchemaEditabilityMode
  | editable
  | restricted
  | readonly
  deriving DecidableEq

/-- `ClickHouseSchemaBlocker`. -/
structure SchemaBlocker where
  code : String
  path : String
  message : String
  deriving DecidableEq

/-- `ClickHouseSchemaEditability`. -/
structure SchemaEditability where
  mode : SchemaEditabilityMode
  blockers : List SchemaBlocker
  deriving DecidableEq

/-- `ClickHouseSchemaEditability::editable`. -/
def SchemaEditability.editable : SchemaEditability :=
  ⟨.editable, []⟩

/-- `ClickHouseTableIdentity`. -/
structure TableIdentity where
  database : String
  name : String
  objectKind : ContainerKind
  deriving DecidableEq

/-- `ClickHouseEngineSchema`. -/
structure EngineSchema where
  family : String
  arguments : List String
  deriving DecidableEq

/-- `ClickHouseColumnSchema`. -/
structure ColumnSchema where
  name : String
  typeName : String
  position : ℕ
  defaultKind : ColumnDefaultKind
  defaultExpression : Option String
  codecExpression : Option String
  ttlExpression : Option String
  comment : Option String
  editability : SchemaEditability
  deriving DecidableEq

/-- `ClickHouseKeySchema`. -/
structure KeySchema where
  orderBy : String
  partitionBy : Option String
  primaryKey : Option String
  sampleBy : Option String
  deriving DecidableEq

/-- `ClickHouseSettingSchema`. -/
structure SettingSchema where
  name : String
  value : String
  explicit : Bool
  deriving DecidableEq

/-- `ClickHouseProjectionSchema`. -/
structure ProjectionSchema where
  name : String
  query : String
  editability : SchemaEditability
  deriving DecidableEq

/-- `ClickHouseSkippingIndexSchema`. -/
structure SkippingIndexSchema where
  name : String
  expression : String
  indexType : String
  typeArguments : List String
  granularity : Option ℕ
  editability : SchemaEditability
  deriving DecidableEq

/-- `ClickHouseTableSchema`. -/
structure TableSchema where
  identity : TableIdentity
  engine : EngineSchema
  columns : List ColumnSchema
  keys : KeySchema
  tableTtl : Option String
  comment : Option String
  settings : List SettingSchema
  projections : List ProjectionSchema
  skippingIndexes : List SkippingIndexSchema
  editability : SchemaEditability
  deriving DecidableEq

/-! ### Targets -/

/-- `ClickHouseCodecTarget`. -/
structure CodecTarget where
  name : String
  arguments : List String
  deriving DecidableEq

/-- `ClickHouseCreateColumnTarget`. -/
structure CreateColumnTarget where
  name : String
  typeName : String
  defaultKind : ColumnDefaultKind
  defaultExpression : Option String
  codecs : List CodecTarget
  ttlExpression : Option String
  comment : Option String
  deriving DecidableEq

/-- `ClickHouseCreateEngineTarget`. -/
structure CreateEngineTarget where
  family : String
  arguments : List String
  deriving DecidableEq

/-- `ClickHouseCreateSettingTarget`. -/
structure CreateSettingTarget where
  name : String
  value : String
  deriving DecidableEq

/-- `ClickHouseCreateTableTarget`. -/
structure CreateTableTarget where
  database : String
  name : String
  columns : List CreateColumnTarget
  engine : CreateEngineTarget
  keys : KeySchema
  tableTtl : Option String
  comment : Option String
  settings : List CreateSettingTarget
  deriving DecidableEq

/-- `ClickHouseColumnRenameIntent`. -/
structure ColumnRenameIntent where
  from_ : String
  to_ : String
  deriving DecidableEq

/-- `ClickHouseAlterTableTarget`. -/
structure AlterTableTarget where
  baseline : TableSchema
  desired : CreateTableTarget
  columnRenames : List ColumnRenameIntent
  deriving DecidableEq

end ClickHouse
