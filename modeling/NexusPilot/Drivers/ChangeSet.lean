import Mathlib.Algebra.Ring.Nat
import Mathlib.Data.List.Sort
import NexusPilot.Drivers.Error

/-!
# Change sets of a table

The statements that `build_table_change_set_preview` renders for the edits of a table: rows to insert,
rows to update and rows to delete, each found by its primary key. The drivers pass their own quoting
of identifiers and their own statement for a row without values; the values themselves are rendered by
one function for all of them, `render_sql_literal`.

A hash map that the source builds from a list is the list, looked up from its end, since a later entry
replaces an earlier one.
-/

namespace Drivers

/-! ### Values -/

/-- A finite floating-point number, by the decimal notation that it is displayed in: the digits of the
fraction follow a point and are left out when there are none. -/
structure Decimal where
  negative : Bool
  whole : ℕ
  fraction : List (Fin 10)
  deriving DecidableEq

/-- `serde_json::Number`, where `negInt n` is the integer `-n`. A float that is not finite has no
decimal notation. -/
inductive JsonNumber
  | posInt (n : ℕ)
  | negInt (n : ℕ)
  | float (display : Option Decimal)
  deriving DecidableEq

/-- `serde_json::Value`, without the contents of arrays and objects. -/
inductive JsonValue
  | null
  | bool (value : Bool)
  | number (number : JsonNumber)
  | string (value : String)
  | array
  | object
  deriving DecidableEq

/-- The decimal digits of a number. -/
def digits (n : ℕ) : List Char :=
  Nat.toDigits 10 n

/-- The digits of a finite float, without its sign. -/
def Decimal.unsigned (d : Decimal) : List Char :=
  digits d.whole ++
    if d.fraction = [] then [] else '.' :: d.fraction.map fun digit ↦ Nat.digitChar digit.val

/-- `to_string` of a finite float. -/
def Decimal.display (d : Decimal) : List Char :=
  if d.negative then '-' :: d.unsigned else d.unsigned

/-- A text with every occurrence of a character doubled. -/
def doubled (q : Char) (s : List Char) : List Char :=
  s.flatMap fun c ↦ if c = q then [q, q] else [c]

/-- A text between two quotes, the quotes inside doubled. -/
def quotedText (q : Char) (s : String) : String :=
  String.ofList (q :: (doubled q s.toList ++ [q]))

/-- `quote_pg_identifier`. -/
def quotePgIdentifier (identifier : String) : String :=
  quotedText '"' identifier

/-- `quote_mysql_identifier`. -/
def quoteMysqlIdentifier (identifier : String) : String :=
  quotedText '`' identifier

/-- `render_sql_literal`. -/
def renderSqlLiteral : JsonValue → IpcResult String
  | .null => .ok "NULL"
  | .bool value => .ok (if value then "TRUE" else "FALSE")
  | .number (.posInt n) => .ok (String.ofList (digits n))
  | .number (.negInt n) => .ok (String.ofList ('-' :: digits n))
  | .number (.float (some d)) => .ok (String.ofList d.display)
  | .number (.float none) =>
    .error (.internal "不支持写入该数值" "Only finite JSON numbers can be written to table cells")
  | .string value =>
    if '\x00' ∈ value.toList then
      .error (.internal "不支持写入包含 NUL 字符的字符串" "SQL string literals cannot contain NUL bytes")
    else .ok (quotedText '\'' value)
  | .array | .object =>
    .error (.internal "不支持写入对象或数组"
      "Table mutation values must be null, string, number, or boolean")

/-! ### Requests -/

/-- `ColumnMeta`, with the fields that a change set is checked against. -/
structure ColumnMeta where
  name : String
  isPrimaryKey : Bool
  primaryKeyOrdinal : Option ℤ
  isWritable : Bool
  deriving DecidableEq

structure TableRowKeyPart where
  column : String
  value : JsonValue
  deriving DecidableEq

/-- `TableRowKey`. -/
abbrev TableRowKey := List TableRowKeyPart

/-- `TableRowLocator`. -/
inductive TableRowLocator
  | primaryKey (parts : TableRowKey)
  | rowSnapshot (parts : TableRowKey) (expectedMatches : ℕ)
  deriving DecidableEq

/-- `TableRowLocator::primary_key_parts`. -/
def TableRowLocator.primaryKeyParts : TableRowLocator → Option TableRowKey
  | .primaryKey parts => some parts
  | .rowSnapshot _ _ => none

structure TableCellChange where
  column : String
  value : JsonValue
  deriving DecidableEq

structure TableChangeSetUpdate where
  locator : TableRowLocator
  changes : List TableCellChange
  deriving DecidableEq

structure TableChangeSetInsert where
  values : List TableCellChange
  deriving DecidableEq

structure TableChangeSetRequest where
  inserts : List TableChangeSetInsert
  updates : List TableChangeSetUpdate
  deletes : List TableRowLocator
  deriving DecidableEq

structure TableChangeSetSummary where
  inserts : ℕ
  updates : ℕ
  deletes : ℕ
  deriving DecidableEq

structure TableChangeSetPreview where
  statements : List String
  summary : TableChangeSetSummary
  deriving DecidableEq

/-! ### Checking -/

/-- `ordered_primary_key_columns`. -/
def orderedPrimaryKeyColumns (columns : List ColumnMeta) : List String :=
  let primaryKeyColumns := columns.filterMap fun column ↦
    column.primaryKeyOrdinal.map fun ordinal ↦ (ordinal, column.name)
  (primaryKeyColumns.insertionSort fun a b ↦ a.1 ≤ b.1).map (·.2)

/-- `validate_primary_key`. -/
def validatePrimaryKey (columns : List ColumnMeta) (primaryKey : TableRowKey) :
    IpcResult (List TableRowKeyPart) :=
  let primaryKeyColumns := orderedPrimaryKeyColumns columns
  let provided := primaryKey.map (·.column)
  if primaryKeyColumns = [] then
    .error (.internal "该表没有主键，暂不支持修改或删除数据"
      "Table mutation requires a complete primary key")
  else if ¬ provided.Nodup then
    .error (.internal "主键参数重复，无法执行数据变更" "Duplicate primary key columns were provided")
  else if ¬ (primaryKeyColumns ⊆ provided ∧ provided ⊆ primaryKeyColumns) then
    .error (.internal "主键参数不完整，无法执行数据变更"
      "Provided primary key columns must exactly match the table primary key")
  else primaryKeyColumns.mapM fun column ↦
    match primaryKey.reverse.find? (·.column = column) with
    | none =>
      .error (.internal "主键参数不完整，无法执行数据变更" "Primary key column is missing")
    | some part => .ok ⟨column, part.value⟩

/-- The loop of `validate_cell_changes` and `validate_insert_values`, with the columns seen so far,
the error for a column given twice and the check of a column that was found. -/
def validateValues (columns : List ColumnMeta) (duplicate : IpcError)
    (check : TableCellChange → ColumnMeta → IpcResult Unit) (seen : List String) :
    List TableCellChange → IpcResult (List TableCellChange)
  | [] => .ok []
  | change :: rest => do
    if change.column ∈ seen then
      throw duplicate
    let column ← match columns.reverse.find? (·.name = change.column) with
      | none => throw (.notFound ("Column '" ++ change.column ++ "' was not found"))
      | some column => pure column
    check change column
    let _ ← renderSqlLiteral change.value
    let rest ← validateValues columns duplicate check (change.column :: seen) rest
    return change :: rest

/-- The check that a column can be written. -/
def checkWritable (change : TableCellChange) (column : ColumnMeta) : IpcResult Unit :=
  if column.isWritable then .ok ()
  else .error (.internal ("列 '" ++ change.column ++ "' 不可直接写入")
    "Column metadata marks this column as read-only")

/-- `validate_cell_changes`. -/
def validateCellChanges (columns : List ColumnMeta) (changes : List TableCellChange) :
    IpcResult (List TableCellChange) :=
  if changes = [] then
    .error (.internal "没有需要更新的单元格" "update_table_row requires at least one change")
  else validateValues columns
    (.internal "更新参数包含重复列" "Duplicate changed columns were provided")
    (fun change column ↦
      if column.isPrimaryKey then
        .error (.internal "暂不支持修改主键列"
          "Primary key columns are not editable in table cell mutation")
      else checkWritable change column) [] changes

/-- `validate_insert_values`. -/
def validateInsertValues (columns : List ColumnMeta) (values : List TableCellChange) :
    IpcResult (List TableCellChange) :=
  validateValues columns
    (.internal "新增参数包含重复列" "Duplicate insert columns were provided") checkWritable [] values

/-! ### Statements -/

/-- `mysql_empty_insert_statement`. -/
def mysqlEmptyInsertStatement (table : String) : String :=
  "INSERT INTO " ++ table ++ " () VALUES ()"

/-- `postgres_empty_insert_statement`. -/
def postgresEmptyInsertStatement (table : String) : String :=
  "INSERT INTO " ++ table ++ " DEFAULT VALUES"

section Statements

variable (table : String) (quoteIdentifier : String → String)

/-- `build_insert_row_statement`. -/
def buildInsertRowStatement (values : List TableCellChange) (emptyInsertSql : String → String) :
    IpcResult String := do
  if values = [] then
    return emptyInsertSql table
  let columns := ", ".intercalate (values.map fun value ↦ quoteIdentifier value.column)
  let literals ← values.mapM fun value ↦ renderSqlLiteral value.value
  return "INSERT INTO " ++ table ++ " (" ++ columns ++ ") VALUES (" ++ ", ".intercalate literals ++ ")"

/-- `column = literal`. -/
def assignment (column : String) (value : JsonValue) : IpcResult String := do
  let literal ← renderSqlLiteral value
  return quoteIdentifier column ++ " = " ++ literal

/-- `build_update_row_statement`. -/
def buildUpdateRowStatement (primaryKey : List TableRowKeyPart) (changes : List TableCellChange) :
    IpcResult String := do
  let assignments ← changes.mapM fun change ↦ assignment quoteIdentifier change.column change.value
  let conditions ← primaryKey.mapM fun part ↦ assignment quoteIdentifier part.column part.value
  return "UPDATE " ++ table ++ " SET " ++ ", ".intercalate assignments ++ " WHERE " ++
    " AND ".intercalate conditions

/-- The condition of `build_delete_rows_statement` for one row. -/
def rowCondition (primaryKey : List TableRowKeyPart) : IpcResult String := do
  let conditions ← primaryKey.mapM fun part ↦ assignment quoteIdentifier part.column part.value
  return "(" ++ " AND ".intercalate conditions ++ ")"

/-- `build_delete_rows_statement`. -/
def buildDeleteRowsStatement (primaryKeys : List (List TableRowKeyPart)) : IpcResult String := do
  if primaryKeys = [] then
    throw (.internal "没有需要删除的行" "delete_table_rows requires at least one primary key")
  let rows ← primaryKeys.mapM (rowCondition quoteIdentifier)
  return "DELETE FROM " ++ table ++ " WHERE " ++ " OR ".intercalate rows

/-- The key of a locator, checked. -/
def validateLocator (columns : List ColumnMeta) (locator : TableRowLocator) :
    IpcResult (List TableRowKeyPart) :=
  match locator.primaryKeyParts with
  | none => .error (.invalid "当前数据源需要使用主键定位行，请刷新数据后重新编辑")
  | some primaryKey => validatePrimaryKey columns primaryKey

/-- The body of the loop over the inserts. -/
def insertStatement (columns : List ColumnMeta) (emptyInsertSql : String → String)
    (insert : TableChangeSetInsert) : IpcResult String := do
  let values ← validateInsertValues columns insert.values
  buildInsertRowStatement table quoteIdentifier values emptyInsertSql

/-- The body of the loop over the updates. -/
def updateStatement (columns : List ColumnMeta) (update : TableChangeSetUpdate) :
    IpcResult String := do
  let primaryKey ← validateLocator columns update.locator
  let changes ← validateCellChanges columns update.changes
  buildUpdateRowStatement table quoteIdentifier primaryKey changes

/-- All deletes are one statement. -/
def deleteStatements (columns : List ColumnMeta) (deletes : List TableRowLocator) :
    IpcResult (List String) :=
  if deletes = [] then .ok []
  else do
    let primaryKeys ← deletes.mapM (validateLocator columns)
    let statement ← buildDeleteRowsStatement table quoteIdentifier primaryKeys
    return [statement]

/-- `build_table_change_set_preview`. -/
def buildTableChangeSetPreview (columns : List ColumnMeta) (emptyInsertSql : String → String)
    (changeSet : TableChangeSetRequest) : IpcResult TableChangeSetPreview :=
  if changeSet.inserts = [] ∧ changeSet.updates = [] ∧ changeSet.deletes = [] then
    .error (.internal "没有需要提交的表格变更"
      "table change set must contain at least one insert, update, or delete")
  else do
    let inserts ← changeSet.inserts.mapM
      (insertStatement table quoteIdentifier columns emptyInsertSql)
    let updates ← changeSet.updates.mapM (updateStatement table quoteIdentifier columns)
    let deletes ← deleteStatements table quoteIdentifier columns changeSet.deletes
    return {
      statements := inserts ++ updates ++ deletes
      summary := {
        inserts := changeSet.inserts.length % 2 ^ 32
        updates := changeSet.updates.length % 2 ^ 32
        deletes := changeSet.deletes.length % 2 ^ 32 } }

end Statements

end Drivers
