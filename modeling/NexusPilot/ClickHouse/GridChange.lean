import NexusPilot.ClickHouse.AlterRender
import NexusPilot.Drivers.ChangeSet

/-!
# Change sets of a ClickHouse grid

`prepare_change_set`: the inserts, updates and deletes that the grid sends, checked and rendered. A row
has no key here. It is found by its snapshot, a condition on the values that the grid showed, and the
preparation also renders the condition that the row will satisfy once it is updated.

A condition and a list of assignments are kept as data, with the text that the source builds of them next
to it; the statements of the preview are these texts.
-/

namespace ClickHouse

open Drivers Schema Text

/-! ### Scalar types -/

/-- `unwrap_type`. -/
def unwrapType (typeName wrapper : List Char) : Option (List Char) :=
  let opening := wrapper ++ ['(']
  if opening <+: typeName then
    let inner := typeName.drop opening.length
    if inner.getLast? = some ')' then some inner.dropLast else none
  else none

/-- The inner type of a `Nullable` or of a `LowCardinality`. -/
def unwrapAny (typeName : List Char) : Option (List Char) :=
  (unwrapType typeName "Nullable".toList).or (unwrapType typeName "LowCardinality".toList)

/-- The loop of `scalar_base_type` and of `is_supported_scalar_type`. A type is shorter than the one that
it was unwrapped from, so that its length is enough fuel. -/
def baseType : ℕ → List Char → List Char
  | 0, normalized => normalized
  | fuel + 1, normalized =>
    match unwrapAny normalized with
    | none => normalized
    | some inner => baseType fuel (trim inner)

/-- `scalar_base_type`. -/
def scalarBaseType (typeName : String) : List Char :=
  baseType typeName.toList.length (trim typeName.toList)

/-- The types that take no arguments. -/
def plainTypes : List String :=
  ["Int8", "Int16", "Int32", "Int64", "Int128", "Int256", "UInt8", "UInt16", "UInt32", "UInt64", "UInt128",
    "UInt256", "Float32", "Float64", "Bool", "String", "Date", "Date32", "DateTime", "UUID", "IPv4", "IPv6"]

/-- The types that do, with their opening bracket. -/
def openTypes : List String :=
  ["FixedString(", "Decimal(", "Decimal32(", "Decimal64(", "Decimal128(", "Decimal256(", "DateTime(",
    "DateTime64(", "Enum8(", "Enum16("]

/-- `is_supported_scalar_type`. -/
def isSupportedScalarType (typeName : String) : Bool :=
  let normalized := scalarBaseType typeName
  plainTypes.any (·.toList = normalized) ||
    openTypes.any fun opening ↦ opening.toList <+: normalized ∧ normalized.getLast? = some ')'

/-- `type_allows_null`. -/
def typeAllowsNull : ℕ → List Char → Bool
  | 0, _ => false
  | fuel + 1, typeName =>
    let normalized := trim typeName
    (unwrapType normalized "Nullable".toList).isSome ||
      match unwrapType normalized "LowCardinality".toList with
      | none => false
      | some inner => typeAllowsNull fuel inner

/-- The kinds of columns whose values the database makes itself. -/
def ColumnDefaultKind.isGenerated : ColumnDefaultKind → Bool
  | .materialized | .alias | .ephemeral => true
  | .none | .default => false

/-- `is_writable_column`. -/
def isWritableColumn (column : ColumnSchema) : Bool :=
  isSupportedScalarType column.typeName && !column.defaultKind.isGenerated

/-! ### Values -/

/-- `IpcError::feature_unavailable`. -/
def unavailable (message : String) : IpcError :=
  ⟨.featureUnavailable, message, none⟩

/-- The text that `serde_json` writes of a finite float: with a fraction in any case, and with an exponent
when the point is more than sixteen digits to the right of the first digit or five to its left. -/
def floatText (d : Decimal) : List Char :=
  let fraction := d.fraction.map fun digit ↦ Nat.digitChar digit.val
  let all := digits d.whole ++ fraction
  let significant := ((all.dropWhile (· = '0')).reverse.dropWhile (· = '0')).reverse
  let point : ℤ := (digits d.whole).length - (all.takeWhile (· = '0')).length
  let unsigned : List Char :=
    if significant = [] then "0.0".toList
    else if 0 < point ∧ point ≤ 16 then
      let whole := significant.take point.toNat
      let rest := significant.drop point.toNat
      whole ++ List.replicate (point.toNat - whole.length) '0' ++ '.' :: (if rest = [] then ['0'] else rest)
    else if -5 < point ∧ point ≤ 0 then
      '0' :: '.' :: (List.replicate (-point).toNat '0' ++ significant)
    else
      let rest := significant.drop 1
      significant.take 1 ++ (if rest = [] then [] else '.' :: rest) ++ 'e' :: (toString (point - 1)).toList
  if d.negative then '-' :: unsigned else unsigned

/-- `Number::to_string`. -/
def numberText : JsonNumber → List Char
  | .posInt n => digits n
  | .negInt n => '-' :: digits n
  | .float (some d) => floatText d
  | .float none => "null".toList

/-- The texts of the floats that are no numbers. -/
def nonFinite : List String :=
  ["nan", "+nan", "-nan", "inf", "+inf", "-inf", "infinity", "+infinity", "-infinity"]

/-- `quote_string`. -/
def quoteString (value : List Char) : List Char :=
  replaceChar '\'' ['\\', '\''] (replaceChar '\\' ['\\', '\\'] value)

/-- The text of a scalar value. -/
def scalarText : JsonValue → Option (List Char)
  | .string value => some value.toList
  | .number number => some (numberText number)
  | .bool value => some (if value then ['1'] else ['0'])
  | .null | .array | .object => none

/-- `render_typed_value`. -/
def renderTypedValue (column : ColumnSchema) (value : JsonValue) : IpcResult String :=
  if isSupportedScalarType column.typeName = false then
    .error (unavailable
      ("列 '" ++ column.name ++ "' 的类型 " ++ column.typeName ++ " 暂不支持 DataTable 写入"))
  else if value = .null then
    if typeAllowsNull (column.typeName.toList.length + 1) column.typeName.toList then .ok "NULL"
    else .error (.invalid ("列 '" ++ column.name ++ "' 不允许 NULL"))
  else
    match scalarText value with
    | none => .error (.invalid ("列 '" ++ column.name ++ "' 需要标量值，数组或对象暂不支持写入"))
    | some text =>
      if scalarBaseType column.typeName ∈ ["Float32".toList, "Float64".toList] ∧
          (trim text).map Char.toLower ∈ nonFinite.map String.toList then
        .error (unavailable ("列 '" ++ column.name ++ "' 的非有限浮点值暂不能用于安全写入或定位"))
      else .ok ("CAST('" ++ String.ofList (quoteString text) ++ "' AS " ++ column.typeName ++ ")")

/-! ### Conditions and assignments -/

/-- A condition of a snapshot on one column. -/
inductive Condition
  | isNull (column : String)
  | equals (column literal : String)
  deriving DecidableEq

def Condition.text : Condition → String
  | .isNull column => "isNull(" ++ quoteIdentifier column ++ ")"
  | .equals column literal => quoteIdentifier column ++ " = " ++ literal

/-- The condition of a `WHERE` clause. -/
abbrev Predicate := List Condition

def Predicate.text (p : Predicate) : String :=
  " AND ".intercalate (p.map Condition.text)

/-- A column with the literal that it is set to. -/
structure Assignment where
  column : String
  literal : String
  deriving DecidableEq

def Assignment.text (a : Assignment) : String :=
  quoteIdentifier a.column ++ " = " ++ a.literal

/-- The columns of a table by their names. -/
def columnNamed (columns : List ColumnSchema) (name : String) : Option ColumnSchema :=
  columns.reverse.find? (·.name = name)

/-- The column of an assignment or of a condition, or an error. -/
def requireColumn (columns : List ColumnSchema) (name message : String) : IpcResult ColumnSchema :=
  match columnNamed columns name with
  | none => .error (.conflict message)
  | some column => .ok column

section Columns

variable (columns : List ColumnSchema)

/-- The loop of `validate_changes`, with the columns seen so far. -/
def validateEach (seen : List String) : List TableCellChange → IpcResult Unit
  | [] => .ok ()
  | change :: rest => do
    if change.column ∈ seen then
      throw (.invalid ("列 '" ++ change.column ++ "' 在同一行中重复出现"))
    let column ← requireColumn columns change.column
      ("列 '" ++ change.column ++ "' 已不存在，请刷新表格后重新编辑")
    if isWritableColumn column = false then
      throw (unavailable ("列 '" ++ change.column ++ "' 由数据库生成或类型暂不支持写入，请移除该修改"))
    let _ ← renderTypedValue column change.value
    validateEach (change.column :: seen) rest

/-- `validate_changes`. -/
def validateChanges (changes : List TableCellChange) : IpcResult Unit :=
  if changes = [] then .error (.invalid "没有可保存的单元格变更")
  else validateEach columns [] changes

/-- The assignment of a checked change. -/
def assignmentOf (change : TableCellChange) : IpcResult Assignment := do
  let column ← requireColumn columns change.column
    ("列 '" ++ change.column ++ "' 已不存在，请刷新表格后重新编辑")
  let literal ← renderTypedValue column change.value
  return ⟨change.column, literal⟩

/-- The condition on one part of a snapshot. -/
def conditionOf (part : TableRowKeyPart) : IpcResult Condition := do
  let column ← requireColumn columns part.column
    ("列 '" ++ part.column ++ "' 已变化，请刷新表格后重新编辑")
  if isSupportedScalarType column.typeName = false then
    throw (unavailable ("列 '" ++ part.column ++ "' 的类型暂不能用于安全定位，请使用 SQL 编辑器处理"))
  if part.value = .null then
    return .isNull part.column
  let literal ← renderTypedValue column part.value
  return .equals part.column literal

/-- The loop of `render_snapshot_predicate`, with the columns seen so far. -/
def conditionsOf (seen : List String) : List TableRowKeyPart → IpcResult Predicate
  | [] => .ok []
  | part :: rest => do
    if part.column ∈ seen then
      throw (.invalid "原始行快照包含重复列")
    let condition ← conditionOf columns part
    let conditions ← conditionsOf (part.column :: seen) rest
    return condition :: conditions

/-- `render_snapshot_predicate`. -/
def renderSnapshotPredicate (parts : List TableRowKeyPart) : IpcResult Predicate := do
  let predicates ← conditionsOf columns [] parts
  if predicates = [] then
    throw (.invalid "没有可用于安全定位该行的列；当前仅支持浏览数据")
  return predicates

end Columns

/-- `snapshot_locator`. -/
def snapshotLocator : TableRowLocator → IpcResult (List TableRowKeyPart × ℕ)
  | .primaryKey _ => .error (.invalid "当前 ClickHouse 数据表需要使用原始行快照定位，请刷新后重试")
  | .rowSnapshot parts expectedMatches =>
    if expectedMatches ≠ 1 ∨ parts = [] then
      .error (.invalid "原始行快照必须且只能定位一行；请刷新后重试")
    else .ok (parts, expectedMatches)

/-- `apply_changes_to_snapshot`. -/
def applyChangesToSnapshot (parts : List TableRowKeyPart) (changes : List TableCellChange) :
    List TableRowKeyPart :=
  parts.map fun part ↦
    match changes.reverse.find? (·.column = part.column) with
    | none => part
    | some change => ⟨part.column, change.value⟩

/-! ### Preparation -/

/-- `PreparedUpdate`. -/
structure PreparedUpdate where
  assignments : List Assignment
  originalPredicate : Predicate
  updatedPredicate : Predicate
  expectedMatches : ℕ
  deriving DecidableEq

/-- `PreparedDelete`. -/
structure PreparedDelete where
  predicate : Predicate
  expectedMatches : ℕ
  deriving DecidableEq

/-- `PreparedChangeSet`, where an insert is the assignments of its row. -/
structure PreparedChangeSet where
  preview : TableChangeSetPreview
  inserts : List (List Assignment)
  updates : List PreparedUpdate
  deletes : List PreparedDelete
  deriving DecidableEq

/-- The statement of an insert. -/
def insertText (table : String) (values : List Assignment) : String :=
  "INSERT INTO " ++ table ++ " (" ++ ", ".intercalate (values.map fun value ↦ quoteIdentifier value.column) ++
    ") VALUES (" ++ ", ".intercalate (values.map (·.literal)) ++ ")"

/-- The statement of an update. -/
def PreparedUpdate.text (table : String) (update : PreparedUpdate) : String :=
  "ALTER TABLE " ++ table ++ " UPDATE " ++ ", ".intercalate (update.assignments.map Assignment.text) ++
    " WHERE " ++ update.originalPredicate.text

/-- The statement of a delete. -/
def PreparedDelete.text (table : String) (delete : PreparedDelete) : String :=
  "ALTER TABLE " ++ table ++ " DELETE WHERE " ++ delete.predicate.text

def MAX_CHANGE_ROWS : ℕ := 100

def MAX_CHANGE_CELLS : ℕ := 2000

/-- `validate_change_set_limits`. Two locators are the same when their texts are, that is, when they are
equal as data. -/
def validateChangeSetLimits (changeSet : TableChangeSetRequest) : IpcResult Unit :=
  let rowCount := changeSet.inserts.length + changeSet.updates.length + changeSet.deletes.length
  let cellCount := (changeSet.inserts.map (·.values.length)).sum +
    (changeSet.updates.map (·.changes.length)).sum
  if rowCount = 0 then .error (.invalid "没有需要保存的数据变更")
  else if rowCount > MAX_CHANGE_ROWS then .error (.invalid "一次最多保存 100 行，请分批提交")
  else if cellCount > MAX_CHANGE_CELLS then .error (.invalid "一次最多保存 2000 个单元格，请分批提交")
  else if ¬ (changeSet.updates.map (·.locator) ++ changeSet.deletes).Nodup then
    .error (.invalid "同一原始行不能在一次保存中重复修改或删除")
  else .ok ()

/-- `SUPPORTED_WRITE_ENGINES`. -/
def supportedWriteEngines : List String := ["MergeTree", "ReplacingMergeTree"]

/-- `writable_schema`, where `described` is what `describe_table` answers. -/
def writableSchema (container : ContainerRef) (described : IpcResult TableSchema) : IpcResult TableSchema :=
  if container.kind ≠ .table then
    .error (.invalid "当前对象是只读的；ClickHouse DataTable 只能修改普通数据表")
  else do
    let schema ← described
    if schema.engine.family ∉ supportedWriteEngines then
      throw (unavailable ("当前表使用 " ++ schema.engine.family ++
        " 引擎，DataTable 暂不能安全写入；请在确认语义后使用 SQL 编辑器"))
    return schema

/-- A name that is given and not blank. -/
def requireName (name : Option String) (message : String) : IpcResult String :=
  match name with
  | none => .error (.invalid message)
  | some value => if trim value.toList = [] then .error (.invalid message) else .ok value

/-- `qualified_table`. -/
def qualifiedTable (container : ContainerRef) : IpcResult String := do
  let database ← requireName container.database "ClickHouse 数据库名称不能为空"
  let table ← requireName container.table "ClickHouse 表名不能为空"
  return quoteIdentifier database ++ "." ++ quoteIdentifier table

/-- `render_insert`. -/
def renderInsert (columns : List ColumnSchema) (insert : TableChangeSetInsert) :
    IpcResult (List Assignment) := do
  validateChanges columns insert.values
  if insert.values = [] then
    throw (.invalid "新增行至少需要填写一个可写列；带默认值的其他列可以留空")
  insert.values.mapM (assignmentOf columns)

/-- The body of the loop over the updates. -/
def prepareUpdate (columns : List ColumnSchema) (update : TableChangeSetUpdate) : IpcResult PreparedUpdate := do
  let (parts, expectedMatches) ← snapshotLocator update.locator
  let originalPredicate ← renderSnapshotPredicate columns parts
  validateChanges columns update.changes
  if ∃ change ∈ update.changes, ∀ part ∈ parts, part.column ≠ change.column then
    .error (.invalid "原始行快照缺少被修改列，请刷新表格后重新编辑")
  else do
    let updatedPredicate ← renderSnapshotPredicate columns (applyChangesToSnapshot parts update.changes)
    let assignments ← update.changes.mapM (assignmentOf columns)
    return ⟨assignments, originalPredicate, updatedPredicate, expectedMatches⟩

/-- The body of the loop over the deletes. -/
def prepareDelete (columns : List ColumnSchema) (locator : TableRowLocator) : IpcResult PreparedDelete := do
  let (parts, expectedMatches) ← snapshotLocator locator
  let predicate ← renderSnapshotPredicate columns parts
  return ⟨predicate, expectedMatches⟩

/-- `prepare_change_set`. -/
def prepareChangeSet (container : ContainerRef) (described : IpcResult TableSchema)
    (changeSet : TableChangeSetRequest) : IpcResult PreparedChangeSet := do
  validateChangeSetLimits changeSet
  let schema ← writableSchema container described
  let table ← qualifiedTable container
  let inserts ← changeSet.inserts.mapM (renderInsert schema.columns)
  let updates ← changeSet.updates.mapM (prepareUpdate schema.columns)
  let deletes ← changeSet.deletes.mapM (prepareDelete schema.columns)
  return {
    preview := {
      statements := inserts.map (insertText table) ++ updates.map (PreparedUpdate.text table) ++
        deletes.map (PreparedDelete.text table)
      summary := ⟨inserts.length % 2 ^ 32, updates.length % 2 ^ 32, deletes.length % 2 ^ 32⟩ }
    inserts, updates, deletes }

/-! ### What a prepared change set holds -/

/-- A snapshot is expected to match one row. -/
theorem snapshotLocator_eq_ok {locator : TableRowLocator} {parts : List TableRowKeyPart} {expected : ℕ}
    (h : snapshotLocator locator = .ok (parts, expected)) : expected = 1 ∧ parts ≠ [] := by
  cases locator with
  | primaryKey => cases h
  | rowSnapshot parts' expected' =>
    obtain ⟨hcheck, hparts⟩ := ite_error_eq_ok_iff.1 h
    cases hparts
    push Not at hcheck
    exact hcheck

theorem expectedMatches_prepareUpdate {columns : List ColumnSchema} {request : TableChangeSetUpdate}
    {update : PreparedUpdate} (h : prepareUpdate columns request = .ok update) : update.expectedMatches = 1 := by
  obtain ⟨⟨parts, expected⟩, hlocator, h⟩ := bind_eq_ok_iff.1 h
  obtain ⟨original, -, h⟩ := bind_eq_ok_iff.1 h
  obtain ⟨-, -, h⟩ := bind_eq_ok_iff.1 h
  obtain ⟨-, h⟩ := ite_error_eq_ok_iff.1 h
  obtain ⟨updated, -, h⟩ := bind_eq_ok_iff.1 h
  obtain ⟨assignments, -, h⟩ := bind_eq_ok_iff.1 h
  cases h
  exact (snapshotLocator_eq_ok hlocator).1

theorem expectedMatches_prepareDelete {columns : List ColumnSchema} {locator : TableRowLocator}
    {delete : PreparedDelete} (h : prepareDelete columns locator = .ok delete) : delete.expectedMatches = 1 := by
  obtain ⟨⟨parts, expected⟩, hlocator, h⟩ := bind_eq_ok_iff.1 h
  obtain ⟨predicate, -, h⟩ := bind_eq_ok_iff.1 h
  cases h
  exact (snapshotLocator_eq_ok hlocator).1

/-- Every snapshot of a prepared change set is expected to match one row. -/
structure PreparedChangeSet.SingleRow (prepared : PreparedChangeSet) : Prop where
  updates : ∀ update ∈ prepared.updates, update.expectedMatches = 1
  deletes : ∀ delete ∈ prepared.deletes, delete.expectedMatches = 1

/-- A prepared change set has one entry for each change, and each snapshot is for one row. -/
theorem prepareChangeSet_eq_ok {container : ContainerRef} {described : IpcResult TableSchema}
    {changeSet : TableChangeSetRequest} {prepared : PreparedChangeSet}
    (h : prepareChangeSet container described changeSet = .ok prepared) :
    prepared.SingleRow ∧ prepared.inserts.length = changeSet.inserts.length ∧
      prepared.updates.length = changeSet.updates.length ∧
      prepared.deletes.length = changeSet.deletes.length := by
  obtain ⟨-, -, h⟩ := bind_eq_ok_iff.1 h
  obtain ⟨schema, -, h⟩ := bind_eq_ok_iff.1 h
  obtain ⟨table, -, h⟩ := bind_eq_ok_iff.1 h
  obtain ⟨inserts, hinserts, h⟩ := bind_eq_ok_iff.1 h
  obtain ⟨updates, hupdates, h⟩ := bind_eq_ok_iff.1 h
  obtain ⟨deletes, hdeletes, h⟩ := bind_eq_ok_iff.1 h
  cases h
  rw [mapM_eq_ok_iff] at hinserts hupdates hdeletes
  refine ⟨⟨fun update hmem ↦ ?_, fun delete hmem ↦ ?_⟩, hinserts.length_eq.symm, hupdates.length_eq.symm,
    hdeletes.length_eq.symm⟩
  · obtain ⟨request, -, hrequest⟩ := exists_left_of_forall₂ hupdates hmem
    exact expectedMatches_prepareUpdate hrequest
  · obtain ⟨locator, -, hlocator⟩ := exists_left_of_forall₂ hdeletes hmem
    exact expectedMatches_prepareDelete hlocator

end ClickHouse
