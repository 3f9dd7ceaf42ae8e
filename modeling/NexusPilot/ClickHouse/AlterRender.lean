import NexusPilot.ClickHouse.AlterDiff

/-!
# The statements of an alteration

`plan_alter_table`: each operation of the difference is rendered as one statement with a summary, and the
plan is destructive when one of its summaries is. The hash of the plan and the revision of its target are
digests of what is here and are left out.
-/

namespace ClickHouse

open Drivers Text

/-! ### Names and texts -/

/-- `str::replace` of one character. -/
def replaceChar (c : Char) (by_ s : List Char) : List Char :=
  s.flatMap fun d ↦ if d = c then by_ else [d]

/-- `quote_identifier`. -/
def quoteIdentifier (identifier : String) : String :=
  String.ofList
    ('\x60' :: replaceChar '\x60' ['\\', '\x60'] (replaceChar '\\' ['\\', '\\'] identifier.toList) ++ ['\x60'])

/-- `quote_string_literal`. -/
def quoteStringLiteral (value : String) : String :=
  String.ofList
    ('\'' :: replaceChar '\'' ['\\', '\''] (replaceChar '\\' ['\\', '\\'] value.toList) ++ ['\''])

/-! ### Columns -/

/-- The clauses that `render_column_definition` spells out. -/
structure ColumnClauses where
  typeName : String
  default : Option (ColumnDefaultKind × String)
  comment : Option String
  codec : Option String
  ttl : Option String
  deriving DecidableEq

/-- The clauses of a column: the default if there is one, the comment, codecs and TTL if they are set. -/
def columnClauses (column : CreateColumnTarget) : ColumnClauses where
  typeName := column.typeName
  default :=
    if column.defaultKind = .none then none
    else some (column.defaultKind, column.defaultExpression.getD "")
  comment := column.comment
  codec := if column.codecs = [] then none else some (renderCodecs column.codecs)
  ttl := column.ttlExpression

/-- The keyword of a default. -/
def ColumnDefaultKind.keyword : ColumnDefaultKind → String
  | .none => ""
  | .default => "DEFAULT"
  | .materialized => "MATERIALIZED"
  | .alias => "ALIAS"
  | .ephemeral => "EPHEMERAL"

/-- A clause that is written if it is there. -/
def optionalClause {α : Type} (clause : Option α) (render : α → String) : String :=
  match clause with
  | some value => render value
  | none => ""

/-- The texts after the name of a column. -/
def ColumnClauses.render (clauses : ColumnClauses) : String :=
  clauses.typeName ++
    optionalClause clauses.default (fun default ↦ " " ++ default.1.keyword ++ " " ++ default.2) ++
    optionalClause clauses.comment (fun comment ↦ " COMMENT " ++ quoteStringLiteral comment) ++
    optionalClause clauses.codec (fun codec ↦ " " ++ codec) ++
    optionalClause clauses.ttl (fun ttl ↦ " TTL " ++ ttl)

/-- `render_column_definition`. -/
def renderColumnDefinition (column : CreateColumnTarget) : String :=
  quoteIdentifier column.name ++ " " ++ (columnClauses column).render

/-- `render_column_position`. -/
def renderColumnPosition : ColumnPosition → String
  | .first => "FIRST"
  | .after column => "AFTER " ++ quoteIdentifier column

/-! ### Operations -/

/-- `NativeSchemaOperationSummary`. -/
structure OperationSummary where
  code : String
  objectName : String
  destructive : Bool
  longRunning : Bool
  deriving DecidableEq

/-- The clause of an operation, in `render_operation`. -/
def renderClause : AlterOperation → String
  | .renameColumn from_ to_ _ =>
    "RENAME COLUMN " ++ quoteIdentifier from_ ++ " TO " ++ quoteIdentifier to_
  | .addColumn column position =>
    "ADD COLUMN " ++ renderColumnDefinition column ++ " " ++ renderColumnPosition position
  | .modifyColumn column position .. =>
    "MODIFY COLUMN " ++ renderColumnDefinition column ++ " " ++ renderColumnPosition position
  | .commentColumn name comment _ =>
    "COMMENT COLUMN " ++ quoteIdentifier name ++ " " ++ quoteStringLiteral comment
  | .modifySampleBy expression => "MODIFY SAMPLE BY " ++ expression
  | .removeSampleBy => "REMOVE SAMPLE BY"
  | .modifyTableTtl expression => "MODIFY TTL " ++ expression
  | .removeTableTtl => "REMOVE TTL"
  | .modifySetting name value => "MODIFY SETTING " ++ name ++ " = " ++ value
  | .resetSetting name => "RESET SETTING " ++ name
  | .modifyTableComment comment => "MODIFY COMMENT " ++ quoteStringLiteral comment
  | .dropColumn name _ => "DROP COLUMN " ++ quoteIdentifier name

/-- The summary of an operation, in `render_operation`. -/
def operationSummary : AlterOperation → OperationSummary
  | .renameColumn _ to_ _ => ⟨"rename_column", to_, false, false⟩
  | .addColumn column _ => ⟨"add_column", column.name, false, false⟩
  | .modifyColumn column _ _ definitionChanged positionChanged typeChanged codecChanged ttlChanged =>
    ⟨if positionChanged && !definitionChanged then "reorder_column" else "modify_column", column.name,
      definitionChanged, typeChanged || codecChanged || ttlChanged⟩
  | .commentColumn name _ _ => ⟨"comment_column", name, false, false⟩
  | .modifySampleBy _ => ⟨"modify_sample_by", "sample_by", false, false⟩
  | .removeSampleBy => ⟨"remove_sample_by", "sample_by", false, false⟩
  | .modifyTableTtl _ => ⟨"modify_table_ttl", "ttl", true, true⟩
  | .removeTableTtl => ⟨"remove_table_ttl", "ttl", true, true⟩
  | .modifySetting name _ => ⟨"modify_setting", name, false, false⟩
  | .resetSetting name => ⟨"reset_setting", name, false, false⟩
  | .modifyTableComment _ => ⟨"modify_table_comment", "comment", false, false⟩
  | .dropColumn name _ => ⟨"drop_column", name, true, false⟩

/-- `qualified_table_name`. -/
def qualifiedTableName (database table : String) : String :=
  quoteIdentifier database ++ "." ++ quoteIdentifier table

/-- The statement of an operation, in `render_operation`. -/
def renderStatement (table : String) (operation : AlterOperation) : String :=
  "ALTER TABLE " ++ table ++ " " ++ renderClause operation

/-! ### The plan -/

/-- `NativeSchemaRequiredConfirmation`, as far as an alteration asks for one. -/
inductive RequiredConfirmation
  | none
  | confirm
  deriving DecidableEq

/-- `NativeSchemaChangePlan`. -/
structure AlterChangePlan where
  statements : List String
  operations : List OperationSummary
  destructive : Bool
  longRunning : Bool
  requiredConfirmation : RequiredConfirmation
  deriving DecidableEq

/-- `plan_alter_table`. -/
def planAlterTable (alphanumeric : Char → Bool) (target : AlterTableTarget) : IpcResult AlterChangePlan := do
  let operations ← diffAlterTable alphanumeric target
  let table := qualifiedTableName target.desired.database target.desired.name
  let summaries := operations.map operationSummary
  let destructive := summaries.any (·.destructive)
  pure
    { statements := operations.map (renderStatement table)
      operations := summaries
      destructive := destructive
      longRunning := summaries.any (·.longRunning)
      requiredConfirmation := if destructive then .confirm else .none }

end ClickHouse
