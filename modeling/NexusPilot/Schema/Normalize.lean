import NexusPilot.Text.Std
import NexusPilot.Schema.Types

/-!
# Normalised schema texts

The normalisers through which a schema's texts go before they are compared or rendered: identifiers are
trimmed and must not be blank, optional texts are trimmed and dropped when blank, and fragments of SQL
must in addition not hold a statement separator or a comment.
-/

namespace Schema

open Drivers

/-! ### Texts -/

/-- `str::trim`. -/
def trim (s : String) : String :=
  String.ofList (Text.trim s.toList)

/-- `str::to_ascii_lowercase`. -/
def toAsciiLowercase (s : String) : String :=
  String.ofList (s.toList.map Char.toLower)

/-- `str::contains`, for a text. -/
def contains (s pattern : String) : Bool :=
  Scan.occursIn pattern.toList s.toList

/-- `normalized_non_empty_identifier`. -/
def normalizedNonEmptyIdentifier (identifier label : String) : IpcResult String :=
  if trim identifier = "" then
    .error (.querySyntax ("请填写" ++ label) (label ++ " identifier must not be empty"))
  else .ok (trim identifier)

/-- `normalized_optional_text`. -/
def normalizedOptionalText (value : Option String) : Option String :=
  (value.map trim).filter (· ≠ "")

/-- The fragments that could end a statement or hide a part of it. -/
def unsafeFragment (value : String) : Bool :=
  value.toList.contains '\x00' || value.toList.contains ';' || contains value "--" ||
    contains value "/*" || contains value "*/"

/-- `normalized_sql_fragment`. -/
def normalizedSqlFragment (value label : String) : IpcResult String :=
  if trim value = "" then .error (.invalid ("请填写" ++ label))
  else if unsafeFragment (trim value) then .error (.invalid (label ++ "不能包含多语句或注释片段"))
  else .ok (trim value)

/-- `normalized_optional_fragment`. -/
def normalizedOptionalFragment (value : Option String) (label : String) : IpcResult (Option String) :=
  match (value.map trim).filter (· ≠ "") with
  | none => .ok none
  | some value => do
    let fragment ← normalizedSqlFragment value label
    .ok (some fragment)

/-- `normalized_sql_type`. -/
def normalizedSqlType (value : String) : String :=
  toAsciiLowercase (trim value)

@[simp]
theorem trim_trim (s : String) : trim (trim s) = trim s := by
  simp [trim]

variable {label r : String}

theorem normalizedNonEmptyIdentifier_eq_ok_iff {identifier : String} :
    normalizedNonEmptyIdentifier identifier label = .ok r ↔ trim identifier ≠ "" ∧ r = trim identifier := by
  rw [normalizedNonEmptyIdentifier]
  split_ifs with h
  · simp [h]
  · simp [h, eq_comm]

/-- What is made of a checked name is made of the trimmed one. -/
theorem eq_of_identifier_bind {α : Type} {identifier : String} {f : String → α} {b : α}
    (h : (normalizedNonEmptyIdentifier identifier label >>= fun name ↦ .ok (f name)) = .ok b) :
    b = f (trim identifier) := by
  obtain ⟨_, hname, h⟩ := exists_of_bind_eq_ok h
  obtain ⟨-, rfl⟩ := normalizedNonEmptyIdentifier_eq_ok_iff.1 hname
  cases h
  rfl

/-- A fragment that may stand in a statement. -/
def SafeFragment (value : String) : Prop :=
  trim value ≠ "" ∧ unsafeFragment (trim value) = false
  deriving Decidable

theorem normalizedSqlFragment_eq_ok_iff {value : String} :
    normalizedSqlFragment value label = .ok r ↔ SafeFragment value ∧ r = trim value := by
  rw [normalizedSqlFragment, SafeFragment]
  split_ifs with h h'
  · simp [h]
  · simp [h']
  · simp [h, h', eq_comm]

/-- A text that is kept by normalisation is trimmed and not blank. -/
theorem trim_of_normalizedOptionalText {value : Option String} (h : normalizedOptionalText value = some r) :
    trim r = r ∧ r ≠ "" := by
  rw [normalizedOptionalText, Option.filter_eq_some_iff] at h
  obtain ⟨hr, hne⟩ := h
  obtain ⟨text, -, rfl⟩ := Option.map_eq_some_iff.1 hr
  exact ⟨trim_trim text, by simpa using hne⟩

theorem normalizedOptionalFragment_eq_ok_iff {value r : Option String} :
    normalizedOptionalFragment value label = .ok r ↔
      (∀ fragment, normalizedOptionalText value = some fragment → unsafeFragment fragment = false) ∧
        r = normalizedOptionalText value := by
  change (match normalizedOptionalText value with | none => _ | some value => _) = _ ↔ _
  cases hvalue : normalizedOptionalText value with
  | none => exact ⟨fun h ↦ by cases h; exact ⟨by simp, rfl⟩, fun ⟨_, h⟩ ↦ by rw [h]⟩
  | some fragment =>
    obtain ⟨htrim, hne⟩ := trim_of_normalizedOptionalText hvalue
    simp only [bind_eq_ok_iff, normalizedSqlFragment_eq_ok_iff, SafeFragment, htrim]
    constructor
    · rintro ⟨_, ⟨⟨-, hsafe⟩, rfl⟩, h⟩
      cases h
      exact ⟨by rintro _ ⟨⟩; exact hsafe, rfl⟩
    · rintro ⟨hsafe, rfl⟩
      exact ⟨fragment, ⟨⟨hne, hsafe fragment rfl⟩, rfl⟩, rfl⟩

/-! ### Parts of a schema -/

/-- `normalized_foreign_key_reference`. -/
def normalizedForeignKeyReference :
    Option TableForeignKeyReference → IpcResult (Option TableForeignKeyReference)
  | none => .ok none
  | some reference => do
    let tableName ← normalizedNonEmptyIdentifier reference.tableName "引用表"
    let columns ← reference.columns.mapM (normalizedNonEmptyIdentifier · "引用列")
    if columns = [] then .error (.invalid "外键约束需要至少一个引用列")
    else .ok (some {
      databaseName := normalizedOptionalText reference.databaseName
      schemaName := normalizedOptionalText reference.schemaName
      tableName := tableName
      columns := columns
      onUpdate := reference.onUpdate
      onDelete := reference.onDelete })

/-- A reference with its texts trimmed. -/
def plainForeignKey (reference : TableForeignKeyReference) : TableForeignKeyReference where
  databaseName := normalizedOptionalText reference.databaseName
  schemaName := normalizedOptionalText reference.schemaName
  tableName := trim reference.tableName
  columns := reference.columns.map trim
  onUpdate := reference.onUpdate
  onDelete := reference.onDelete

theorem mapM_normalizedNonEmptyIdentifier {names r : List String} :
    names.mapM (normalizedNonEmptyIdentifier · label) = .ok r ↔
      (∀ name ∈ names, trim name ≠ "") ∧ r = names.map trim := by
  rw [mapM_eq_ok_iff_of_eq fun a b h ↦ (normalizedNonEmptyIdentifier_eq_ok_iff.1 h).2]
  simp [normalizedNonEmptyIdentifier_eq_ok_iff]

/-- A reference to columns of a table, by names that are not blank. -/
def NamedReference (reference : TableForeignKeyReference) : Prop :=
  trim reference.tableName ≠ "" ∧ (∀ column ∈ reference.columns, trim column ≠ "") ∧
    reference.columns ≠ []

theorem normalizedForeignKeyReference_eq_ok_iff {reference r : Option TableForeignKeyReference} :
    normalizedForeignKeyReference reference = .ok r ↔
      (∀ target, reference = some target → NamedReference target) ∧ r = reference.map plainForeignKey := by
  cases reference with
  | none => exact ⟨fun h ↦ by cases h; exact ⟨by simp, rfl⟩, fun ⟨_, h⟩ ↦ by rw [h]; rfl⟩
  | some reference =>
    simp only [normalizedForeignKeyReference, bind_eq_ok_iff, normalizedNonEmptyIdentifier_eq_ok_iff,
      mapM_normalizedNonEmptyIdentifier, ite_error_eq_ok_iff]
    constructor
    · rintro ⟨_, ⟨htable, rfl⟩, _, ⟨hcolumns, rfl⟩, hne, h⟩
      cases h
      refine ⟨?_, rfl⟩
      rintro _ ⟨⟩
      exact ⟨htable, hcolumns, by simpa using hne⟩
    · rintro ⟨hnamed, rfl⟩
      obtain ⟨htable, hcolumns, hne⟩ := hnamed reference rfl
      exact ⟨_, ⟨htable, rfl⟩, _, ⟨hcolumns, rfl⟩, by simpa using hne, rfl⟩

/-- What each kind of constraint needs, in its normalised form. -/
def constraintComplaint (constraint : TableConstraintSchema) : Option String :=
  match constraint.kind with
  | .foreignKey =>
    match constraint.foreignKey with
    | none => some ("外键约束 '" ++ constraint.name ++ "' 需要引用表和引用列")
    | some foreignKey =>
      if constraint.columns = [] then some ("外键约束 '" ++ constraint.name ++ "' 需要本地列")
      else if foreignKey.columns.length ≠ constraint.columns.length then
        some ("外键约束 '" ++ constraint.name ++ "' 的本地列与引用列数量必须一致")
      else none
  | .check =>
    if constraint.expression = none then some ("CHECK 约束 '" ++ constraint.name ++ "' 需要表达式")
    else none
  | .unique =>
    if constraint.columns = [] then some ("唯一约束 '" ++ constraint.name ++ "' 需要至少一个列")
    else none
  | .primaryKey => none

/-- `normalized_non_primary_constraint`. -/
def normalizedNonPrimaryConstraint (constraint : TableConstraintSchema) :
    IpcResult TableConstraintSchema := do
  let name ← normalizedNonEmptyIdentifier constraint.name "约束名"
  let columns ← constraint.columns.mapM (normalizedNonEmptyIdentifier · "约束列")
  let expression ← normalizedOptionalFragment constraint.expression "约束表达式"
  let foreignKey ← normalizedForeignKeyReference constraint.foreignKey
  let normalized : TableConstraintSchema := {
    name := name
    kind := constraint.kind
    columns := columns
    reference := normalizedOptionalText constraint.reference
    expression := expression
    comment := normalizedOptionalText constraint.comment
    foreignKey := foreignKey
    enforced := constraint.enforced }
  match constraintComplaint normalized with
  | some message => .error (.invalid message)
  | none => .ok normalized

/-- A constraint with its texts trimmed. -/
def plainConstraint (constraint : TableConstraintSchema) : TableConstraintSchema where
  name := trim constraint.name
  kind := constraint.kind
  columns := constraint.columns.map trim
  reference := normalizedOptionalText constraint.reference
  expression := normalizedOptionalText constraint.expression
  comment := normalizedOptionalText constraint.comment
  foreignKey := constraint.foreignKey.map plainForeignKey
  enforced := constraint.enforced

/-- The constraints that are normalised: those with names that are not blank, a safe expression and what
their kind needs. -/
theorem normalizedNonPrimaryConstraint_eq_ok_iff {constraint r : TableConstraintSchema} :
    normalizedNonPrimaryConstraint constraint = .ok r ↔
      trim constraint.name ≠ "" ∧ (∀ column ∈ constraint.columns, trim column ≠ "") ∧
        (∀ fragment, normalizedOptionalText constraint.expression = some fragment →
          unsafeFragment fragment = false) ∧
        (∀ target, constraint.foreignKey = some target → NamedReference target) ∧
        constraintComplaint (plainConstraint constraint) = none ∧ r = plainConstraint constraint := by
  simp only [normalizedNonPrimaryConstraint, bind_eq_ok_iff, normalizedNonEmptyIdentifier_eq_ok_iff,
    mapM_normalizedNonEmptyIdentifier, normalizedOptionalFragment_eq_ok_iff,
    normalizedForeignKeyReference_eq_ok_iff]
  constructor
  · rintro ⟨_, ⟨hname, rfl⟩, _, ⟨hcolumns, rfl⟩, _, ⟨hexpression, rfl⟩, _, ⟨hforeignKey, rfl⟩, h⟩
    change (match constraintComplaint (plainConstraint constraint) with | some _ => _ | none => _) = _ at h
    cases hcomplaint : constraintComplaint (plainConstraint constraint) with
    | some message =>
      rw [hcomplaint] at h
      cases h
    | none =>
      rw [hcomplaint] at h
      cases h
      exact ⟨hname, hcolumns, hexpression, hforeignKey, rfl, rfl⟩
  · rintro ⟨hname, hcolumns, hexpression, hforeignKey, hcomplaint, rfl⟩
    refine ⟨_, ⟨hname, rfl⟩, _, ⟨hcolumns, rfl⟩, _, ⟨hexpression, rfl⟩, _, ⟨hforeignKey, rfl⟩, ?_⟩
    change (match constraintComplaint (plainConstraint constraint) with | some _ => _ | none => _) = _
    rw [hcomplaint]
    rfl

/-- `normalized_generated_column`. -/
def normalizedGeneratedColumn :
    Option TableGeneratedColumn → IpcResult (Option TableGeneratedColumn)
  | none => .ok none
  | some generated => do
    let expression ← normalizedSqlFragment generated.expression "生成列表达式"
    .ok (some ⟨expression, generated.storage⟩)

/-- The generation of a column, its expression trimmed. -/
def plainGenerated (generated : Option TableGeneratedColumn) : Option TableGeneratedColumn :=
  generated.map fun column ↦ ⟨trim column.expression, column.storage⟩

theorem normalizedGeneratedColumn_eq_ok_iff {generated r : Option TableGeneratedColumn} :
    normalizedGeneratedColumn generated = .ok r ↔
      (∀ column, generated = some column → SafeFragment column.expression) ∧
        r = plainGenerated generated := by
  cases generated with
  | none => exact ⟨fun h ↦ by cases h; exact ⟨by simp, rfl⟩, fun ⟨_, h⟩ ↦ by rw [h]; rfl⟩
  | some column =>
    simp only [normalizedGeneratedColumn, bind_eq_ok_iff, normalizedSqlFragment_eq_ok_iff]
    constructor
    · rintro ⟨_, ⟨hsafe, rfl⟩, h⟩
      cases h
      exact ⟨by rintro _ ⟨⟩; exact hsafe, rfl⟩
    · rintro ⟨hsafe, rfl⟩
      exact ⟨_, ⟨hsafe column rfl, rfl⟩, rfl⟩

/-- `normalized_column_identity`. -/
def normalizedColumnIdentity (column : TableColumnSchema) : Option TableIdentityOptions :=
  column.identity.or
    (if column.isIdentity then some ⟨.byDefault, none, none, none, none, none, false⟩ else none)

/-- `normalized_partition_options`. -/
def normalizedPartitionOptions (partition : Option TablePartitionOptions) :
    Option TablePartitionOptions :=
  partition.bind fun partition ↦
    let expression := normalizedOptionalText partition.expression
    let rawClause := normalizedOptionalText partition.rawClause
    let readonlyDescription := normalizedOptionalText partition.readonlyDescription
    if expression = none ∧ rawClause = none ∧ readonlyDescription = none then none
    else some ⟨expression, rawClause, readonlyDescription⟩

end Schema
