import NexusPilot.ClickHouse.Expression
import NexusPilot.ClickHouse.TableSchema
import NexusPilot.ClickHouse.TypeName

/-!
# What a target table must be

`validate_create_table_target`, which both the creation and the alteration of a table start with.
-/

namespace ClickHouse

open Drivers Text

/-- `char::is_control`: the Unicode category `Cc`. -/
def isControl (c : Char) : Bool :=
  c.toNat ≤ 0x1F || (0x7F ≤ c.toNat && c.toNat ≤ 0x9F)

/-- `validate_identifier`. -/
def validateIdentifier (value path : String) : IpcResult Unit :=
  if value = "" then .error (.invalid s!"ClickHouse {path} requires a non-empty identifier")
  else if value.toList.any isControl then
    .error (.invalid s!"ClickHouse {path} must not contain control characters")
  else .ok ()

/-- `validate_optional_expression`. -/
def validateOptionalExpression (expression : Option String) (path : String) : IpcResult Unit :=
  match expression with
  | some expression => validateSingleExpression expression path
  | none => .ok ()

/-- `validate_optional_comment`. -/
def validateOptionalComment (comment : Option String) (path : String) : IpcResult Unit :=
  if comment.any fun value ↦ trim value.toList = [] then
    .error (.invalid s!"ClickHouse {path} must be absent instead of empty")
  else .ok ()

/-- A list validated element by element, each under the path with its index. -/
def forEach {α : Type} (validate : α → String → IpcResult Unit) (path : String) (items : List α) :
    IpcResult Unit :=
  items.zipIdx.forM fun item ↦ validate item.1 s!"{path}.{item.2}"

/-- `validate_engine`. -/
def validateEngine (family : String) (arguments : List String) : IpcResult Unit := do
  let validArity :=
    if family = "MergeTree" ∨ family = "AggregatingMergeTree" then arguments.isEmpty
    else if family = "ReplacingMergeTree" ∨ family = "SummingMergeTree" then arguments.length ≤ 1
    else if family = "CollapsingMergeTree" then arguments.length == 1
    else if family = "VersionedCollapsingMergeTree" then arguments.length == 2
    else false
  if !validArity then
    throw (.invalid s!"ClickHouse engine {family} is unsupported or has invalid argument arity")
  forEach validateSingleExpression "engine.arguments" arguments

/-- `validate_codec`. -/
def validateCodec (codec : CodecTarget) (path : String) : IpcResult Unit := do
  if codec.name ∉ ["LZ4", "ZSTD", "Delta", "DoubleDelta", "Gorilla", "T64", "FPC"] then
    throw (.invalid s!"ClickHouse {path}.name contains an unsupported codec")
  forEach validateSingleExpression s!"{path}.arguments" codec.arguments

/-- `str::parse::<u64>`. -/
def parseU64 (value : String) : Option ℕ :=
  let digits := if value.toList.head? = some '+' then value.toList.tail else value.toList
  if digits ≠ [] ∧ digits.all Char.isDigit ∧ decimalOf digits ≤ usizeMax then some (decimalOf digits)
  else none

/-- `parse_u64_setting`. -/
def parseU64Setting (value path : String) : IpcResult ℕ :=
  match parseU64 value with
  | some n => .ok n
  | none => .error (.invalid s!"ClickHouse {path}.value must be an unsigned 64-bit integer")

/-- The value of a setting, in `validate_settings`. -/
def validateSetting (setting : CreateSettingTarget) (path : String) : IpcResult Unit :=
  if setting.name = "index_granularity" then do
    let value ← parseU64Setting setting.value path
    if value = 0 then throw (.invalid s!"ClickHouse {path}.value must be a positive u64")
  else if setting.name = "index_granularity_bytes" then do
    let _ ← parseU64Setting setting.value path
  else if setting.name = "allow_nullable_key" ∨ setting.name = "ttl_only_drop_parts" then
    if setting.value = "0" ∨ setting.value = "1" then .ok ()
    else .error (.invalid s!"ClickHouse {path}.value must be 0 or 1")
  else .error (.invalid s!"ClickHouse {path}.name contains an unsupported setting")

/-- `validate_settings`, from the index `index` and the names `seen` on. -/
def validateSettings (index : ℕ) (seen : List String) : List CreateSettingTarget → IpcResult Unit
  | [] => .ok ()
  | setting :: settings => do
    if setting.name ∈ seen then
      throw (.invalid s!"ClickHouse settings.{index}.name duplicates setting {setting.name}")
    validateSetting setting s!"settings.{index}"
    validateSettings (index + 1) (setting.name :: seen) settings

/-- The default of a column, in `validate_create_table_target`. -/
def validateDefault (column : CreateColumnTarget) (path : String) : IpcResult Unit :=
  match column.defaultKind, column.defaultExpression with
  | .none, none => .ok ()
  | .none, some _ =>
    .error (.invalid s!"ClickHouse {path}.defaultExpression must be absent when defaultKind is none")
  | _, some expression => validateSingleExpression expression s!"{path}.defaultExpression"
  | _, none =>
    .error (.invalid s!"ClickHouse {path}.defaultExpression is required for the selected defaultKind")

/-- The type of a column, in `validate_create_table_target`. -/
def validateType (column : CreateColumnTarget) (path : String) : IpcResult Unit :=
  match parseType column.typeName with
  | .error error => .error (.invalid s!"ClickHouse {path}.typeName is invalid: {error}")
  | .ok type =>
    if type.isUnknown then
      .error (.invalid s!"ClickHouse {path}.typeName is not supported for safe schema creation")
    else .ok ()

/-- A column of `validate_create_table_target`, apart from its name. -/
def validateColumn (column : CreateColumnTarget) (path : String) : IpcResult Unit := do
  validateType column path
  validateDefault column path
  forEach validateCodec s!"{path}.codecs" column.codecs
  validateOptionalExpression column.ttlExpression s!"{path}.ttlExpression"
  validateOptionalComment column.comment s!"{path}.comment"

/-- The columns of `validate_create_table_target`, from the index `index` and the names `seen` on. -/
def validateColumns (index : ℕ) (seen : List String) : List CreateColumnTarget → IpcResult Unit
  | [] => .ok ()
  | column :: columns => do
    validateIdentifier column.name s!"columns.{index}.name"
    if column.name ∈ seen then
      throw (.invalid s!"ClickHouse columns.{index}.name duplicates column identifier {column.name}")
    validateColumn column s!"columns.{index}"
    validateColumns (index + 1) (column.name :: seen) columns

/-- `validate_create_table_target`. -/
def validateCreateTableTarget (target : CreateTableTarget) : IpcResult Unit := do
  validateIdentifier target.database "table.database"
  validateIdentifier target.name "table.name"
  if target.columns = [] then throw (.invalid "ClickHouse table requires at least one column")
  validateColumns 0 [] target.columns
  validateEngine target.engine.family target.engine.arguments
  validateSingleExpression target.keys.orderBy "keys.orderBy"
  validateOptionalExpression target.keys.partitionBy "keys.partitionBy"
  validateOptionalExpression target.keys.primaryKey "keys.primaryKey"
  validateOptionalExpression target.keys.sampleBy "keys.sampleBy"
  validateOptionalExpression target.tableTtl "tableTtl"
  validateOptionalComment target.comment "comment"
  validateSettings 0 [] target.settings

/-- An accepted column: everything but its name. -/
structure ColumnAccepted (column : CreateColumnTarget) : Prop where
  htype : ∃ type, parseType column.typeName = .ok type ∧ type.isUnknown = false
  hdefault : column.defaultKind = .none ↔ column.defaultExpression = none
  hcomment : ∀ comment, column.comment = some comment → trim comment.toList ≠ []

theorem columnAccepted {column : CreateColumnTarget} {path : String}
    (h : validateColumn column path = .ok ()) : ColumnAccepted column := by
  obtain ⟨_, htype, h⟩ := bind_eq_ok_iff.1 h
  obtain ⟨_, hdefault, h⟩ := bind_eq_ok_iff.1 h
  obtain ⟨_, -, h⟩ := bind_eq_ok_iff.1 h
  obtain ⟨_, -, hcomment⟩ := bind_eq_ok_iff.1 h
  constructor
  · rw [validateType] at htype
    split at htype
    · cases htype
    · rename_i type htype'
      obtain ⟨hknown, -⟩ := ite_error_eq_ok_iff.1 htype
      exact ⟨type, htype', by simpa using hknown⟩
  · refine ⟨fun hkind ↦ ?_, fun hexpression ↦ ?_⟩
    · cases hexpression : column.defaultExpression with
      | none => rfl
      | some _ => simp [validateDefault, hkind, hexpression] at hdefault
    · cases hkind : column.defaultKind with
      | none => rfl
      | _ => simp [validateDefault, hkind, hexpression] at hdefault
  · intro comment hsome
    rw [validateOptionalComment, hsome] at hcomment
    simpa using (ite_error_eq_ok_iff.1 hcomment).1

theorem validateColumns_eq_ok {index : ℕ} {seen : List String} {columns : List CreateColumnTarget}
    (h : validateColumns index seen columns = .ok ()) :
    (columns.map (·.name)).Nodup ∧ (∀ name ∈ seen, name ∉ columns.map (·.name)) ∧
      ∀ column ∈ columns, ColumnAccepted column := by
  induction columns generalizing index seen with
  | nil => simp
  | cons column columns ih =>
    obtain ⟨_, -, h⟩ := bind_eq_ok_iff.1 h
    obtain ⟨hseen, h⟩ := ite_error_eq_ok_iff.1 h
    obtain ⟨_, hcolumn, h⟩ := bind_eq_ok_iff.1 h
    obtain ⟨hnodup, hfresh, hall⟩ := ih h
    obtain ⟨hname, hfresh⟩ := List.forall_mem_cons.1 hfresh
    refine ⟨List.nodup_cons.2 ⟨hname, hnodup⟩, fun name hmem ↦ ?_,
      List.forall_mem_cons.2 ⟨columnAccepted hcolumn, hall⟩⟩
    rw [List.map_cons, List.mem_cons, not_or]
    exact ⟨ne_of_mem_of_not_mem hmem hseen, hfresh name hmem⟩

/-- The checks of an accepted target, as far as they are used. -/
theorem checks_of_validateCreateTableTarget {target : CreateTableTarget}
    (h : validateCreateTableTarget target = .ok ()) :
    target.columns ≠ [] ∧ validateColumns 0 [] target.columns = .ok () ∧
      validateOptionalComment target.comment "comment" = .ok () ∧
      validateSettings 0 [] target.settings = .ok () := by
  obtain ⟨_, -, h⟩ := bind_eq_ok_iff.1 h
  obtain ⟨_, -, h⟩ := bind_eq_ok_iff.1 h
  obtain ⟨hcolumns, h⟩ := ite_error_eq_ok_iff.1 h
  obtain ⟨_, hvalid, h⟩ := bind_eq_ok_iff.1 h
  obtain ⟨_, -, h⟩ := bind_eq_ok_iff.1 h
  obtain ⟨_, -, h⟩ := bind_eq_ok_iff.1 h
  obtain ⟨_, -, h⟩ := bind_eq_ok_iff.1 h
  obtain ⟨_, -, h⟩ := bind_eq_ok_iff.1 h
  obtain ⟨_, -, h⟩ := bind_eq_ok_iff.1 h
  obtain ⟨_, -, h⟩ := bind_eq_ok_iff.1 h
  obtain ⟨_, hcomment, h⟩ := bind_eq_ok_iff.1 h
  exact ⟨hcolumns, hvalid, hcomment, h⟩

/-- What an accepted target has: columns with distinct names, each of them accepted. -/
theorem validateCreateTableTarget_eq_ok {target : CreateTableTarget}
    (h : validateCreateTableTarget target = .ok ()) :
    target.columns ≠ [] ∧ (target.columns.map (·.name)).Nodup ∧
      (∀ column ∈ target.columns, ColumnAccepted column) ∧
      ∀ comment, target.comment = some comment → trim comment.toList ≠ [] := by
  obtain ⟨hcolumns, hvalid, hcomment, -⟩ := checks_of_validateCreateTableTarget h
  obtain ⟨hnodup, -, hall⟩ := validateColumns_eq_ok hvalid
  refine ⟨hcolumns, hnodup, hall, fun comment hsome ↦ ?_⟩
  rw [validateOptionalComment, hsome] at hcomment
  simpa using (ite_error_eq_ok_iff.1 hcomment).1

theorem validateSettings_eq_ok {index : ℕ} {seen : List String} {settings : List CreateSettingTarget}
    (h : validateSettings index seen settings = .ok ()) :
    (settings.map (·.name)).Nodup ∧ ∀ name ∈ seen, name ∉ settings.map (·.name) := by
  induction settings generalizing index seen with
  | nil => simp
  | cons setting settings ih =>
    obtain ⟨hseen, h⟩ := ite_error_eq_ok_iff.1 h
    obtain ⟨_, -, h⟩ := bind_eq_ok_iff.1 h
    obtain ⟨hnodup, hfresh⟩ := ih h
    obtain ⟨hname, hfresh⟩ := List.forall_mem_cons.1 hfresh
    refine ⟨List.nodup_cons.2 ⟨hname, hnodup⟩, fun name hmem ↦ ?_⟩
    rw [List.map_cons, List.mem_cons, not_or]
    exact ⟨ne_of_mem_of_not_mem hmem hseen, hfresh name hmem⟩

/-- The settings of an accepted target have distinct names. -/
theorem settings_nodup_of_ok {target : CreateTableTarget} (h : validateCreateTableTarget target = .ok ()) :
    (target.settings.map (·.name)).Nodup :=
  (validateSettings_eq_ok (checks_of_validateCreateTableTarget h).2.2.2).1

end ClickHouse
