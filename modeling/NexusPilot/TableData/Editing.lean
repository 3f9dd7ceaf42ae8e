import NexusPilot.TableData.Rows

/-!
# Edits of a page

The change set of the grid and the operations that the user makes on it: cell edits, new rows, marks for
deletion. An operation is a callback that React made for an earlier rendering, so that it may look at an
earlier change set (`captured`) before it updates the current one.

`Session` keeps, next to the change sets, what the user has done: the values entered, cell by cell, and the
rows marked for deletion. `SendsEdits` says that a request is exactly that.
-/

namespace TableData

open Js

/-! ### Change sets -/

/-- `PendingTableRowInsert`. -/
structure DraftInsert where
  draftId : String
  values : Object Value

/-- `PendingTableRowUpdate`. -/
structure RowUpdate where
  locator : TableRowLocator
  changes : Object Value

/-- `TableDataChangeSet`. -/
structure ChangeSet where
  inserts : Object DraftInsert
  updates : Object RowUpdate
  deletes : Object TableRowLocator

/-- `EMPTY_TABLE_DATA_CHANGE_SET`. -/
def ChangeSet.empty : ChangeSet :=
  ⟨.empty, .empty, .empty⟩

/-- `withoutEmptyDraftInserts`. -/
def withoutEmptyDraftInserts (changeSet : ChangeSet) : ChangeSet :=
  { changeSet with inserts := changeSet.inserts.filterValues fun insert ↦ insert.values.keys ≠ [] }

/-- An update of a `TableChangeSetRequest`. -/
structure UpdateRequest where
  locator : TableRowLocator
  changes : List (String × Value)
  deriving DecidableEq

/-- `TableChangeSetRequest`. -/
structure ChangeSetRequest where
  inserts : List (List (String × Value))
  updates : List UpdateRequest
  deletes : List TableRowLocator
  deriving DecidableEq

/-- `changeSetToRequest`. -/
def changeSetToRequest (changeSet : ChangeSet) : ChangeSetRequest where
  inserts := changeSet.inserts.entries.map fun insert ↦ insert.2.values.entries
  updates := ((changeSet.updates.entries.filter fun update ↦ !changeSet.deletes.has update.1).map fun update ↦
    ⟨update.2.locator, update.2.changes.entries⟩).filter fun update ↦ update.changes ≠ []
  deletes := changeSet.deletes.entries.map Prod.snd

/-! ### Operations -/

namespace Page

variable (p : Page)

/-- `getDraftInsertByRowIndex`, in the change set of a rendering. -/
def getDraftInsertByRowIndex (captured : ChangeSet) (rowIndex : ℕ) : Option DraftInsert :=
  if rowIndex < p.data.rows.length then none
  else captured.inserts.entries[rowIndex - p.data.rows.length]?.map Prod.snd

/-- `data.columns.find((item) => item.name === columnId)`. -/
def findColumn (columnId : String) : Option ColumnMeta :=
  p.data.columns.find? (·.name = columnId)

/-- The update of a value of a draft row. -/
def changeDraft (draft : DraftInsert) (columnId : String) (nextValue : Value) (current : ChangeSet) : ChangeSet :=
  match current.inserts.get? draft.draftId with
  | none => current
  | some existing =>
    { current with
      inserts := current.inserts.define draft.draftId
        { existing with values := existing.values.define columnId nextValue } }

/-- The changes of a loaded row so far: `existing?.changes ?? {}`. -/
def changesOf (rowId : String) (current : ChangeSet) : Object Value :=
  match current.updates.get? rowId with
  | none => .empty
  | some existing => existing.changes

/-- `nextChanges`: the changes of a loaded row after a cell edit. -/
def nextChanges (rowId columnId : String) (originalValue nextValue : Value) (current : ChangeSet) : Object Value :=
  if originalValue = nextValue then (changesOf rowId current).delete columnId
  else (changesOf rowId current).assign columnId nextValue

/-- The update of a value of a loaded row. -/
def changeRow (locator : TableRowLocator) (rowId columnId : String) (originalValue nextValue : Value)
    (current : ChangeSet) : ChangeSet :=
  let changes := nextChanges rowId columnId originalValue nextValue current
  { current with
    updates := if changes.keys = [] then current.updates.delete rowId
      else current.updates.assign rowId ⟨locator, changes⟩ }

/-- `addCellChange`. -/
def addCellChange (captured : ChangeSet) (rowIndex : ℕ) (columnId : String) (nextValue : Value)
    (current : ChangeSet) : ChangeSet :=
  match p.getDraftInsertByRowIndex captured rowIndex with
  | some draft =>
    if p.canInsertRows = false ∨ p.findColumn columnId = none then current
    else changeDraft draft columnId nextValue current
  | none =>
    match p.locatorAt rowIndex, p.editableRowIdByIndex rowIndex with
    | some locator, some rowId =>
      if captured.deletes.has rowId ∨ p.findColumn columnId = none then current
      else changeRow locator rowId columnId (p.loaded rowIndex columnId) nextValue current
    | _, _ => current

/-- The body of the loop of `markRowsForDelete`. -/
def markRow (current : ChangeSet) (locator : TableRowLocator) : ChangeSet :=
  let rowId := p.rowLocatorToId locator
  { current with updates := current.updates.delete rowId, deletes := current.deletes.assign rowId locator }

/-- `markRowsForDelete`. -/
def markRowsForDelete (locators : List TableRowLocator) (current : ChangeSet) : ChangeSet :=
  locators.foldl p.markRow current

/-- `handleAddDraftRow`, where `createDraftId` made `draftId`. -/
def handleAddDraftRow (isTableBusy : Bool) (draftId : String) (current : ChangeSet) : ChangeSet :=
  if p.canInsertRows = false ∨ isTableBusy then current
  else { current with inserts := (withoutEmptyDraftInserts current).inserts.define draftId ⟨draftId, .empty⟩ }

end Page

/-! ### Sessions -/

/-- What a value is entered into. -/
inductive Target
  | row (rowIndex : ℕ)
  | draft (draftId : String)
  deriving DecidableEq

/-- A value that the user entered. -/
structure Entry where
  target : Target
  column : String
  value : Value
  deriving DecidableEq

/-- The change sets of a page, the current one and the earlier ones, the latest first, with what the user has
done: the values entered, the latest first, the rows marked for deletion, and the ids given to draft rows. -/
structure Session where
  current : ChangeSet
  earlier : List ChangeSet
  entered : List Entry
  marked : List ℕ
  draftIds : List String

/-- The session of a page that was just loaded. -/
def Session.start : Session :=
  ⟨.empty, [], [], [], []⟩

/-- A session after an update of the change set. -/
def Session.next (s : Session) (changeSet : ChangeSet) : Session :=
  { s with current := changeSet, earlier := s.current :: s.earlier }

/-- What the user does. A cell edit looks at the change set of `age` operations ago. -/
inductive Action
  | addCellChange (age rowIndex : ℕ) (columnId : String) (nextValue : Value)
  | handleAddDraftRow (isTableBusy : Bool) (draftId : String)
  | markRowsForDelete (rowIndexes : List ℕ)
  | withoutEmptyDraftInserts
  deriving DecidableEq

/-- The change set that a rendering captured. -/
def Session.captured (s : Session) (age : ℕ) : ChangeSet :=
  (s.current :: s.earlier)[age]?.getD .empty

namespace Page

variable (p : Page)

/-- What a cell edit enters a value into: a draft row that is still there, or a loaded row that can be
located, and a column of the table. -/
def target (s : Session) (age rowIndex : ℕ) (columnId : String) : Option Target :=
  if p.findColumn columnId = none then none
  else
    match p.getDraftInsertByRowIndex (s.captured age) rowIndex with
    | some draft =>
      if p.canInsertRows ∧ s.current.inserts.has draft.draftId then some (.draft draft.draftId) else none
    | none => if (p.locatorAt rowIndex).isSome then some (.row rowIndex) else none

/-- One operation of the user. -/
def step (action : Action) (s : Session) : Session :=
  match action with
  | .addCellChange age rowIndex columnId nextValue =>
    { s.next (p.addCellChange (s.captured age) rowIndex columnId nextValue s.current) with
      entered := ((p.target s age rowIndex columnId).map (⟨·, columnId, nextValue⟩)).toList ++ s.entered }
  | .handleAddDraftRow isTableBusy draftId =>
    { s.next (p.handleAddDraftRow isTableBusy draftId s.current) with draftIds := draftId :: s.draftIds }
  | .markRowsForDelete rowIndexes =>
    { s.next (p.markRowsForDelete (p.rowLocatorsForIndexes rowIndexes) s.current) with
      marked := rowIndexes.filter (fun rowIndex ↦ (p.rowKeyByIndex rowIndex).isSome) ++ s.marked }
  | .withoutEmptyDraftInserts => s.next (TableData.withoutEmptyDraftInserts s.current)

end Page

/-! ### What a request has to say -/

/-- The last value that was entered into a cell. -/
def lastEntered (entered : List Entry) (target : Target) (column : String) : Option Value :=
  (entered.find? fun entry ↦ entry.target = target ∧ entry.column = column).map (·.value)

/-- The insert of a draft row: each column into which a value was entered, once, with the last value. -/
structure IsInsertOf (s : Session) (draftId : String) (values : List (String × Value)) : Prop where
  once : (values.map Prod.fst).Nodup
  cells : ∀ column value, (column, value) ∈ values ↔ lastEntered s.entered (.draft draftId) column = some value

namespace Page

variable (p : Page)

/-- A cell of a loaded row whose last entered value differs from the loaded one. -/
def Edited (s : Session) (rowIndex : ℕ) (column : String) (value : Value) : Prop :=
  lastEntered s.entered (.row rowIndex) column = some value ∧ value ≠ p.loaded rowIndex column

/-- The update of a row: its locator, and each of its edited cells once. -/
structure IsUpdateOf (s : Session) (rowIndex : ℕ) (update : UpdateRequest) : Prop where
  locator : p.locatorAt rowIndex = some update.locator
  once : (update.changes.map Prod.fst).Nodup
  cells : ∀ column value, (column, value) ∈ update.changes ↔ p.Edited s rowIndex column value

/-- A request with exactly the edits of a session: an update for each row that has an edited cell and is not
marked for deletion, a delete for each row that is, and an insert for each draft row, among which is every
draft row that has a value. -/
structure SendsEdits (s : Session) (request : ChangeSetRequest) : Prop where
  updates : ∃ rows : List ℕ, rows.Nodup ∧
    (∀ i, i ∈ rows ↔ (p.locatorAt i).isSome ∧ i ∉ s.marked ∧ ∃ column value, p.Edited s i column value) ∧
    List.Forall₂ (p.IsUpdateOf s) rows request.updates
  deletes : ∃ rows : List ℕ, rows.Nodup ∧ (∀ i, i ∈ rows ↔ i ∈ s.marked) ∧
    List.Forall₂ (fun i locator ↦ p.locatorAt i = some locator) rows request.deletes
  inserts : ∃ drafts : List String, drafts.Nodup ∧ (∀ draftId, draftId ∈ drafts ↔ s.current.inserts.has draftId) ∧
    (∀ draftId column value, lastEntered s.entered (.draft draftId) column = some value → draftId ∈ drafts) ∧
    List.Forall₂ (IsInsertOf s) drafts request.inserts

/-- A new draft row gets an id that no draft row has had, and a value that differs from the loaded one is not
entered into a loaded row under a column with the name `__proto__`. -/
def Regular (s : Session) : Action → Prop
  | .addCellChange age rowIndex columnId nextValue =>
    p.target s age rowIndex columnId = some (.row rowIndex) → columnId = "__proto__" →
      nextValue = p.loaded rowIndex columnId
  | .handleAddDraftRow _ draftId => draftId ∉ s.draftIds
  | .markRowsForDelete _ => True
  | .withoutEmptyDraftInserts => True

end Page

end TableData
