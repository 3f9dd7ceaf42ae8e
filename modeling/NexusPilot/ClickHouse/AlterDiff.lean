import Mathlib.Data.List.Sort
import NexusPilot.ClickHouse.AlterValidate

/-!
# The difference of a table and its target

`diff_alter_table`: the operations that alter a table into its target, in the order in which they run.
The renames come first, then the new columns, then the columns that change or move, then the comments,
the properties of the table, and the dropped columns last.
-/

namespace ClickHouse

open Drivers Text

/-- `ColumnPosition`. -/
inductive ColumnPosition
  | first
  | after (column : String)
  deriving DecidableEq

/-- `ClickHouseAlterOperation`. -/
inductive AlterOperation
  | renameColumn (from_ to_ : String) (baselinePosition : ℕ)
  | addColumn (column : CreateColumnTarget) (position : ColumnPosition)
  | modifyColumn (column : CreateColumnTarget) (position : ColumnPosition) (sourceName : String)
      (definitionChanged positionChanged typeChanged codecChanged ttlChanged : Bool)
  | commentColumn (name comment : String) (desiredPosition : ℕ)
  | modifySampleBy (expression : String)
  | removeSampleBy
  | modifyTableTtl (expression : String)
  | removeTableTtl
  | modifySetting (name value : String)
  | resetSetting (name : String)
  | modifyTableComment (comment : String)
  | dropColumn (name : String) (baselinePosition : ℕ)
  deriving DecidableEq

variable (alphanumeric : Char → Bool)

/-! ### Which column becomes which -/

section Names

variable (target : AlterTableTarget)

/-- The map `baseline_by_name`. -/
def AlterTableTarget.baselineByName (name : String) : Option ColumnSchema :=
  lastNamed (·.name) target.baseline.columns name

/-- The map `rename_by_source`. -/
def AlterTableTarget.renameBySource (name : String) : Option String :=
  (lastNamed (·.from_) target.columnRenames name).map (·.to_)

/-- The map `source_by_target`. -/
def AlterTableTarget.sourceByTarget (name : String) : Option String :=
  (lastNamed (·.to_) target.columnRenames name).map (·.from_)

/-- `source_for_target`. -/
def AlterTableTarget.sourceForTarget (name : String) : Option String :=
  (target.sourceByTarget name).or
    (if (target.baselineByName name).isSome ∧ (target.renameBySource name).isNone then some name else none)

/-- `matched_sources`. -/
def AlterTableTarget.matchedSources : List String :=
  target.desired.columns.filterMap fun column ↦ target.sourceForTarget column.name

/-- The name that a column has after the renames. -/
def AlterTableTarget.renamed (name : String) : String :=
  (target.renameBySource name).getD name

/-- `simulated_order`, at the start. -/
def AlterTableTarget.matchedOrder : List String :=
  (target.baseline.columns.filter fun column ↦ column.name ∈ target.matchedSources).map fun column ↦
    target.renamed column.name

end Names

/-! ### Places -/

/-- `desired_position`. -/
def desiredPosition (columns : List CreateColumnTarget) (index : ℕ) : ColumnPosition :=
  if index = 0 then .first else .after ((columns[index - 1]?.map (·.name)).getD "")

/-- `insert_at_position`. -/
def insertAtPosition (order : List String) (name : String) (position : ColumnPosition) :
    IpcResult (List String) :=
  match position with
  | .first => .ok (order.insertIdx 0 name)
  | .after previous =>
    match order.idxOf? previous with
    | some index => .ok (order.insertIdx (index + 1) name)
    | none => .error (.internal "ClickHouse ALTER diff could not place a column"
        s!"column={name}; after={previous}; category=diff_order_invariant")

/-! ### Columns -/

/-- `ColumnDefinitionChanges`. -/
structure ColumnDefinitionChanges where
  definitionChanged : Bool
  nonCommentChanged : Bool
  commentChanged : Bool
  typeChanged : Bool
  codecChanged : Bool
  ttlChanged : Bool
  deriving DecidableEq

/-- `compare_column_definition`. -/
def compareColumnDefinition (baseline : ColumnSchema) (desired : CreateColumnTarget) :
    ColumnDefinitionChanges :=
  let typeChanged := !normalizedExpressionEqual alphanumeric baseline.typeName desired.typeName
  let defaultChanged := baseline.defaultKind != desired.defaultKind ||
    !optionalNormalizedExpressionEqual alphanumeric baseline.defaultExpression desired.defaultExpression
  let codecChanged := !codecMatches alphanumeric baseline.codecExpression desired.codecs
  let ttlChanged :=
    !optionalNormalizedExpressionEqual alphanumeric baseline.ttlExpression desired.ttlExpression
  let commentChanged := baseline.comment != desired.comment
  let nonCommentChanged := typeChanged || defaultChanged || codecChanged || ttlChanged
  { definitionChanged := nonCommentChanged || commentChanged
    nonCommentChanged := nonCommentChanged
    commentChanged := commentChanged
    typeChanged := typeChanged
    codecChanged := codecChanged
    ttlChanged := ttlChanged }

/-- The loop over the columns that are added: the order and the operations. -/
def addColumns (target : AlterTableTarget) :
    List (CreateColumnTarget × ℕ) → List String → IpcResult (List String × List AlterOperation)
  | [], order => .ok (order, [])
  | (column, index) :: rest, order =>
    if (target.sourceForTarget column.name).isSome then addColumns target rest order
    else do
      let position := desiredPosition target.desired.columns index
      let order ← insertAtPosition order column.name position
      let (order, operations) ← addColumns target rest order
      pure (order, .addColumn column position :: operations)

/-- The operations on a column that is kept: in `modify_operations` and in `comment_operations`. -/
def columnOperations (target : AlterTableTarget) (desired : CreateColumnTarget) (index : ℕ)
    (sourceName : String) (baseline : ColumnSchema) (positionChanged : Bool) :
    List AlterOperation × List AlterOperation :=
  let changes := compareColumnDefinition alphanumeric baseline desired
  if changes.commentChanged && !changes.nonCommentChanged && !positionChanged then
    ([], [.commentColumn desired.name (desired.comment.getD "") (index + 1)])
  else if changes.definitionChanged || positionChanged then
    ([.modifyColumn desired (desiredPosition target.desired.columns index) sourceName
      changes.definitionChanged positionChanged changes.typeChanged changes.codecChanged
      changes.ttlChanged], [])
  else ([], [])

/-- The loop over the columns that are kept: `modify_operations` and `comment_operations`. -/
def modifyColumns (target : AlterTableTarget) :
    List (CreateColumnTarget × ℕ) → List String → IpcResult (List AlterOperation × List AlterOperation)
  | [], _ => .ok ([], [])
  | (desired, index) :: rest, order =>
    match target.sourceForTarget desired.name with
    | none => modifyColumns target rest order
    | some sourceName =>
      match target.baselineByName sourceName with
      | none => .error (.internal "validated baseline column" "")
      | some baseline =>
        match order.idxOf? desired.name with
        | none => .error (.internal "ClickHouse ALTER diff lost a matched column"
            s!"column={desired.name}; category=diff_order_invariant")
        | some currentIndex => do
          let positionChanged := currentIndex != index
          let order :=
            if positionChanged then (order.eraseIdx currentIndex).insertIdx index desired.name else order
          let operations :=
            columnOperations alphanumeric target desired index sourceName baseline positionChanged
          let (modifies, comments) ← modifyColumns target rest order
          pure (operations.1 ++ modifies, operations.2 ++ comments)

/-! ### Sorting -/

/-- Sorting by a number, stable. -/
def sortByKey {α : Type} (key : α → ℕ) (items : List α) : List α :=
  items.insertionSort fun a b ↦ key a ≤ key b

/-- The order of the keys of a `BTreeMap`. -/
def nameBefore (a b : String) : Bool :=
  !b.toList.lex a.toList fun c d ↦ decide (c.toNat < d.toNat)

/-- The distinct names, in the order of a `BTreeMap`. -/
def sortedNames (names : List String) : List String :=
  names.dedup.insertionSort fun a b ↦ nameBefore a b = true

/-! ### The difference -/

/-- A rename with the position of the column in the baseline. -/
def renameWithPosition (target : AlterTableTarget) (rename : ColumnRenameIntent) :
    IpcResult (ColumnRenameIntent × ℕ) :=
  match target.baselineByName rename.from_ with
  | some column => .ok (rename, column.position)
  | none => .error (.internal "validated rename source" "")

/-- `rename_operations`. -/
def renameOperations (target : AlterTableTarget) : IpcResult (List AlterOperation) := do
  let renames ← target.columnRenames.mapM (renameWithPosition target)
  pure ((sortByKey (·.2) renames).map fun rename ↦
    .renameColumn rename.1.from_ rename.1.to_ rename.2)

/-- The operations on the properties of the table. -/
def tableOperations (target : AlterTableTarget) : List AlterOperation :=
  let baseline := target.baseline
  let desired := target.desired
  let sampleBy : List AlterOperation :=
    if optionalNormalizedExpressionEqual alphanumeric baseline.keys.sampleBy desired.keys.sampleBy then []
    else match desired.keys.sampleBy with
      | some expression => [.modifySampleBy expression]
      | none => [.removeSampleBy]
  let ttl : List AlterOperation :=
    if optionalNormalizedExpressionEqual alphanumeric baseline.tableTtl desired.tableTtl then []
    else match desired.tableTtl with
      | some expression => [.modifyTableTtl expression]
      | none => [.removeTableTtl]
  let resets := (sortedNames ((baseline.settings.filter (·.explicit)).map (·.name))).filter fun name ↦
    (desiredSetting desired name).isNone
  let changes := (sortedNames (desired.settings.map (·.name))).filterMap fun name ↦
    (desiredSetting desired name).bind fun value ↦
      if explicitSetting baseline name = some value then none else some (AlterOperation.modifySetting name value)
  let comment : List AlterOperation :=
    if baseline.comment ≠ desired.comment then [.modifyTableComment (desired.comment.getD "")] else []
  sampleBy ++ ttl ++ resets.map AlterOperation.resetSetting ++ changes ++ comment

/-- `drop_operations`. -/
def dropOperations (target : AlterTableTarget) : List AlterOperation :=
  (sortByKey (·.position) (target.baseline.columns.filter fun column ↦
    column.name ∉ target.matchedSources)).map fun column ↦ .dropColumn column.name column.position

/-- `diff_alter_table`. -/
def diffAlterTable (target : AlterTableTarget) : IpcResult (List AlterOperation) := do
  validateAlterTarget alphanumeric target
  let renames ← renameOperations target
  let (order, adds) ← addColumns target target.desired.columns.zipIdx target.matchedOrder
  let (modifies, comments) ← modifyColumns alphanumeric target target.desired.columns.zipIdx order
  let operations :=
    renames ++ adds ++ modifies ++ comments ++ tableOperations alphanumeric target ++ dropOperations target
  if operations = [] then
    throw (.invalid "ClickHouse table alter target does not contain any schema change")
  pure operations

end ClickHouse
