import NexusPilot.Design.Draft
import Mathlib.Data.List.Sort

/-!
# Editing the columns of a draft

The actions on the columns of a draft: editing a cell or several properties of a column, deleting, moving and
adding columns. Lists of columns are texts, so that a rename replaces a name in every list, and the primary key
is kept twice, as a flag of the columns and as a constraint.
-/

namespace Design

open Schema Text

/-- A draft that is being edited, with the number of the next identifier. -/
structure Editing where
  draft : TableSchemaDraft
  nextId : ℕ
  deriving DecidableEq

/-! ### Lists of columns -/

/-- `replaceColumnNameInColumnList`. -/
def replaceColumnNameInColumnList (value oldName newName : String) : String :=
  let normalizedOldName := scriptTrim oldName
  let normalizedNewName := scriptTrim newName
  if normalizedOldName = "" ∨ normalizedNewName = "" ∨ normalizedOldName = normalizedNewName then value
  else
    let columns := splitColumnList value
    if normalizedOldName ∉ columns then value
    else joinColumnList (columns.map fun column ↦ if column = normalizedOldName then normalizedNewName else column)

/-- The names that the primary key is made of. -/
def primaryKeyColumns (columns : List TableColumnDraft) : List String :=
  ((columns.filter (·.isPrimaryKey)).map fun column ↦ scriptTrim column.name).filter (· ≠ "")

/-- The constraints with the first primary key rewritten, or dropped if there are no columns for it, and without
any other. -/
def rewritePrimaryKey (names : List String) : List TableConstraintDraft → List TableConstraintDraft
  | [] => []
  | constraint :: rest =>
    if constraint.kind ≠ .primaryKey then constraint :: rewritePrimaryKey names rest
    else
      (if names = [] then [] else [{ constraint with columns := joinColumnList names }]) ++
        rest.filter (·.kind ≠ .primaryKey)

/-- The primary key that is added when there is none. -/
def newPrimaryKey (id : ℕ) (names : List String) : TableConstraintDraft where
  id := id
  name := ""
  kind := .primaryKey
  columns := joinColumnList names
  reference := ""
  expression := ""
  referenceSchema := ""
  referenceTable := ""
  referenceColumns := ""
  onUpdate := none
  onDelete := none
  enforced := true
  comment := ""

/-- `syncPrimaryKeyConstraintFromColumns`, with the identifier of a primary key that is added. -/
def syncPrimaryKeyConstraintFromColumns (id : ℕ) (constraints : List TableConstraintDraft)
    (columns : List TableColumnDraft) : List TableConstraintDraft :=
  let names := primaryKeyColumns columns
  let nextConstraints := rewritePrimaryKey names constraints
  if (∀ constraint ∈ constraints, constraint.kind ≠ .primaryKey) ∧ names ≠ [] then
    nextConstraints ++ [newPrimaryKey id names]
  else nextConstraints

/-! ### Columns -/

/-- `normalizeColumnDraftType`. -/
def normalizeColumnDraftType (column : TableColumnDraft) (profile : TableDesignDriverProfile) :
    TableColumnDraft :=
  { column with typeName := formatColumnType column.typeDraft profile }

section Normalize

variable (column : TableColumnDraft) (profile : TableDesignDriverProfile)

@[simp]
theorem normalizeColumnDraftType_id : (normalizeColumnDraftType column profile).id = column.id := by
  rw [normalizeColumnDraftType]

@[simp]
theorem normalizeColumnDraftType_name : (normalizeColumnDraftType column profile).name = column.name := by
  rw [normalizeColumnDraftType]

@[simp]
theorem normalizeColumnDraftType_isPrimaryKey :
    (normalizeColumnDraftType column profile).isPrimaryKey = column.isPrimaryKey := by
  rw [normalizeColumnDraftType]

end Normalize

/-- What `String` and `Boolean` make of the value of a cell. -/
structure CellValue where
  text : String
  truthy : Bool
  deriving DecidableEq

/-- The cell of a column that is edited. -/
def updateCell (profile : TableDesignDriverProfile) (columnId : String) (value : CellValue)
    (column : TableColumnDraft) : TableColumnDraft :=
  if columnId = "name" then { column with name := value.text }
  else if columnId = "typeName" then
    normalizeColumnDraftType
      { column with typeName := value.text, typeDraft := parseColumnType value.text profile } profile
  else if columnId = "nullable" then { column with nullable := value.truthy }
  else if columnId = "defaultValue" then { column with defaultValue := value.text }
  else if columnId = "isPrimaryKey" then
    { column with isPrimaryKey := value.truthy, nullable := if value.truthy then false else column.nullable }
  else if columnId = "isUnique" then { column with isUnique := value.truthy }
  else if columnId = "isIdentity" then { column with isIdentity := value.truthy }
  else if columnId = "comment" then { column with comment := value.text }
  else column

/-- `Partial<TableColumnDraft>`. What identifies a column is not edited. -/
structure ColumnPatch where
  name : Option String := none
  typeName : Option String := none
  typeDraft : Option ColumnTypeDraft := none
  nullable : Option Bool := none
  defaultValue : Option String := none
  isPrimaryKey : Option Bool := none
  isUnique : Option Bool := none
  isIdentity : Option Bool := none
  identityGeneration : Option TableIdentityGeneration := none
  identityStart : Option String := none
  identityIncrement : Option String := none
  identityMinValue : Option String := none
  identityMaxValue : Option String := none
  identityCache : Option String := none
  identityCycle : Option Bool := none
  generatedExpression : Option String := none
  generatedStorage : Option TableGeneratedColumnStorage := none
  charset : Option String := none
  collation : Option String := none
  comment : Option String := none
  deriving DecidableEq

/-- `{ ...column, ...patch }`. -/
def ColumnPatch.apply (patch : ColumnPatch) (column : TableColumnDraft) : TableColumnDraft where
  id := column.id
  originalName := column.originalName
  name := patch.name.getD column.name
  typeName := patch.typeName.getD column.typeName
  typeDraft := patch.typeDraft.getD column.typeDraft
  nullable := patch.nullable.getD column.nullable
  defaultValue := patch.defaultValue.getD column.defaultValue
  isPrimaryKey := patch.isPrimaryKey.getD column.isPrimaryKey
  isUnique := patch.isUnique.getD column.isUnique
  isIdentity := patch.isIdentity.getD column.isIdentity
  identityGeneration := patch.identityGeneration.getD column.identityGeneration
  identityStart := patch.identityStart.getD column.identityStart
  identityIncrement := patch.identityIncrement.getD column.identityIncrement
  identityMinValue := patch.identityMinValue.getD column.identityMinValue
  identityMaxValue := patch.identityMaxValue.getD column.identityMaxValue
  identityCache := patch.identityCache.getD column.identityCache
  identityCycle := patch.identityCycle.getD column.identityCycle
  generatedExpression := patch.generatedExpression.getD column.generatedExpression
  generatedStorage := patch.generatedStorage.getD column.generatedStorage
  charset := patch.charset.getD column.charset
  collation := patch.collation.getD column.collation
  comment := patch.comment.getD column.comment

/-- `createColumnDraft`. -/
def createColumnDraft (id : ℕ) (profile : TableDesignDriverProfile) : TableColumnDraft where
  id := id
  originalName := none
  name := ""
  typeName := formatColumnType profile.defaultColumnType profile
  typeDraft := profile.defaultColumnType
  nullable := true
  defaultValue := ""
  isPrimaryKey := false
  isUnique := false
  isIdentity := false
  identityGeneration := profile.identityGeneration.toSchema
  identityStart := ""
  identityIncrement := ""
  identityMinValue := ""
  identityMaxValue := ""
  identityCache := ""
  identityCycle := false
  generatedExpression := ""
  generatedStorage := .stored
  charset := ""
  collation := ""
  comment := ""

/-! ### Actions -/

/-- What `updateColumnDraft` and `patchColumnDraft` share: a change of one column, its new name if it is renamed,
and whether the primary key is synchronised. -/
def editColumn (rowIndex : ℕ) (change : TableColumnDraft → TableColumnDraft) (rename : Option String) (sync : Bool)
    (editing : Editing) : Editing :=
  let draft := editing.draft
  let previousName := (draft.columns[rowIndex]?.map (·.name)).getD ""
  let columns := draft.columns.modify rowIndex change
  let renamed (value : String) : String :=
    match rename with
    | none => value
    | some nextName => replaceColumnNameInColumnList value previousName nextName
  let renamedIndexes := draft.indexes.map fun index ↦ { index with columns := renamed index.columns }
  let renamedConstraints := draft.constraints.map fun constraint ↦
    { constraint with columns := renamed constraint.columns }
  let constraints :=
    if sync then syncPrimaryKeyConstraintFromColumns editing.nextId renamedConstraints columns
    else renamedConstraints
  { draft := { draft with columns, indexes := renamedIndexes, constraints }
    nextId := editing.nextId + 1 }

section Actions

variable (profile : TableDesignDriverProfile)

/-- `updateColumnDraft`. -/
def updateColumnDraft (rowIndex : ℕ) (columnId : String) (value : CellValue) (editing : Editing) : Editing :=
  editColumn rowIndex (updateCell profile columnId value) (if columnId = "name" then some value.text else none)
    (columnId = "isPrimaryKey") editing

/-- `patchColumnDraft`. -/
def patchColumnDraft (rowIndex : ℕ) (patch : ColumnPatch) (editing : Editing) : Editing :=
  editColumn rowIndex (fun column ↦ normalizeColumnDraftType (patch.apply column) profile) patch.name
    patch.isPrimaryKey.isSome editing

/-- A draft with other columns. -/
def Editing.withColumns (editing : Editing) (columns : List TableColumnDraft) : Editing where
  draft := { editing.draft with columns }
  nextId := editing.nextId + 1

/-- `handleDeleteColumns`. -/
def handleDeleteColumns (selectedRowIndexes : List ℕ) (editing : Editing) : Editing :=
  if selectedRowIndexes = [] then editing
  else editing.withColumns
    ((editing.draft.columns.zipIdx.filter fun entry ↦ entry.2 ∉ selectedRowIndexes).map (·.1))

/-- The directions of a move. -/
inductive MoveDirection
  | up
  | down
  deriving DecidableEq

/-- One row of `moveDraftRows`, taken out and put in again at the next place, if there is one. -/
def moveRow {α : Type} (direction : MoveDirection) (rows : List α) (index : ℕ) : List α :=
  match direction with
  | .up => if index = 0 then rows else (rows.eraseIdx index).insertIdx (index - 1) <$> rows[index]? |>.getD rows
  | .down =>
    if index + 1 ≥ rows.length then rows
    else (rows.eraseIdx index).insertIdx (index + 1) <$> rows[index]? |>.getD rows

/-- `moveDraftRows`, of selected rows that are there. -/
def moveDraftRows {α : Type} (rows : List α) (selectedRowIndexes : List ℕ) (direction : MoveDirection) : List α :=
  let ordered := selectedRowIndexes.insertionSort (· ≤ ·)
  let indexes := match direction with
    | .up => ordered
    | .down => ordered.reverse
  indexes.foldl (moveRow direction) rows

/-- `handleMoveColumns`. -/
def handleMoveColumns (selectedRowIndexes : List ℕ) (direction : MoveDirection) (editing : Editing) : Editing :=
  editing.withColumns (moveDraftRows editing.draft.columns selectedRowIndexes direction)

/-- `handleAddColumn`. -/
def handleAddColumn (editing : Editing) : Editing :=
  editing.withColumns (editing.draft.columns ++ [createColumnDraft editing.nextId profile])

/-- An action on the columns. -/
inductive ColumnAction
  | updateColumnDraft (rowIndex : ℕ) (columnId : String) (value : CellValue)
  | patchColumnDraft (rowIndex : ℕ) (patch : ColumnPatch)
  | handleDeleteColumns (selectedRowIndexes : List ℕ)
  | handleMoveColumns (selectedRowIndexes : List ℕ) (direction : MoveDirection)
  | handleAddColumn
  deriving DecidableEq

/-- The effect of an action. -/
def ColumnAction.run : ColumnAction → Editing → Editing
  | .updateColumnDraft rowIndex columnId value => Design.updateColumnDraft profile rowIndex columnId value
  | .patchColumnDraft rowIndex patch => Design.patchColumnDraft profile rowIndex patch
  | .handleDeleteColumns selectedRowIndexes => Design.handleDeleteColumns selectedRowIndexes
  | .handleMoveColumns selectedRowIndexes direction => Design.handleMoveColumns selectedRowIndexes direction
  | .handleAddColumn => Design.handleAddColumn profile

end Actions

end Design
