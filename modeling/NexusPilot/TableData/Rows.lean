import NexusPilot.Js.Object
import NexusPilot.Js.Value

/-!
# Rows of a loaded page

A page of a table as the grid has loaded it, and how the grid names its rows: a row is located by its primary
key or by a snapshot of its values, and the text of its locator is its id, unless two rows of the page have
the same. Such rows get an id by their place, and they cannot be deleted.

**`editableRowId_injective`** says that no two rows of a page share an id.
-/

namespace TableData

open Js

/-! ### Pages -/

/-- `ColumnDataCategory`. -/
inductive ColumnDataCategory
  | string
  | number
  | boolean
  | date
  | time
  | datetime
  | json
  | structured
  | enum
  | binary
  | uuid
  | unknown
  deriving DecidableEq

/-- `ColumnMeta`, with the fields that the grid reads. -/
structure ColumnMeta where
  name : String
  nullable : Bool
  dataCategory : ColumnDataCategory
  deriving DecidableEq

/-- `TableRowLocatorStrategy`. -/
inductive TableRowLocatorStrategy
  | primaryKey
  | rowSnapshot
  deriving DecidableEq

/-- `QueryResult`, with the fields that the grid reads. -/
structure QueryResult where
  columns : List ColumnMeta
  rows : List (List Value)
  primaryKeyColumns : List String
  rowLocatorStrategy : Option TableRowLocatorStrategy
  deriving DecidableEq

/-- `TableRowKey`: columns with their values. -/
abbrev TableRowKey := List (String × Value)

inductive TableRowLocator
  | primaryKey (parts : TableRowKey)
  | rowSnapshot (parts : TableRowKey) (expectedMatches : ℕ)
  deriving DecidableEq

/-- `locator.kind`. -/
def TableRowLocator.kind : TableRowLocator → String
  | primaryKey _ => "primaryKey"
  | rowSnapshot _ _ => "rowSnapshot"

def TableRowLocator.parts : TableRowLocator → TableRowKey
  | primaryKey parts => parts
  | rowSnapshot parts _ => parts

/-- A loaded page: the result, the number of the page, what the user may do, and `JSON.stringify` of the
parts of a locator. -/
structure Page where
  data : QueryResult
  page : ℕ
  canMutate : Bool
  canInsertRows : Bool
  stringify : TableRowKey → List Char

/-! ### Locators and ids -/

/-- `rowKeyHasCompleteValues`. -/
def rowKeyHasCompleteValues (primaryKey : TableRowKey) : Bool :=
  primaryKey ≠ [] && primaryKey.all fun part ↦ !part.2.isNullish

namespace Page

variable (p : Page)

/-- `rowLocatorToId`. -/
def rowLocatorToId (locator : TableRowLocator) : String :=
  String.ofList ("[\"".toList ++ locator.kind.toList ++ "\",".toList ++ p.stringify locator.parts ++ "]".toList)

/-- `fallbackRowUpdateId`. -/
def fallbackRowUpdateId (rowIndex : ℕ) : String :=
  String.ofList ("row-index:".toList ++ Nat.toDigits 10 p.page ++ ":".toList ++ Nat.toDigits 10 rowIndex)

/-- `columnIndexByName`: a later column of the name replaces an earlier one. -/
def columnIndexByName (name : String) : Option ℕ :=
  (p.data.columns.mapIdx fun index column ↦ (column.name, index)).reverse.lookup name

/-- `rowData[columnIndex]`. -/
def cell (rowData : List Value) (columnIndex : ℕ) : Value :=
  rowData[columnIndex]?.getD .undefined

/-- A part of a locator. -/
def locatorPart (rowData : List Value) (columnName : String) : Option (String × Value) :=
  (p.columnIndexByName columnName).map fun columnIndex ↦ (columnName, cell rowData columnIndex)

/-- `buildRowLocator`. -/
def buildRowLocator (rowData : List Value) : Option TableRowLocator :=
  if p.canMutate = false then none
  else
    match p.data.rowLocatorStrategy with
    | none => none
    | some .primaryKey => do
      let primaryKey ← p.data.primaryKeyColumns.mapM (p.locatorPart rowData)
      if rowKeyHasCompleteValues primaryKey then some (.primaryKey primaryKey) else none
    | some .rowSnapshot => do
      let columns := p.data.columns.filter (·.dataCategory ∉ [.binary, .structured, .unknown])
      let snapshotParts ← columns.mapM fun column ↦ p.locatorPart rowData column.name
      if snapshotParts ≠ [] then some (.rowSnapshot snapshotParts 1) else none

/-- The locator of a row. -/
def locatorAt (rowIndex : ℕ) : Option TableRowLocator :=
  p.data.rows[rowIndex]?.bind p.buildRowLocator

/-- The ids of the rows that have a locator. -/
def rowIds : List String :=
  (p.data.rows.filterMap p.buildRowLocator).map p.rowLocatorToId

/-- `rowKeyByIndex`: the id of a row whose locator no other row shares. -/
def rowKeyByIndex (rowIndex : ℕ) : Option String :=
  (p.locatorAt rowIndex).bind fun locator ↦
    if p.rowIds.count (p.rowLocatorToId locator) = 1 then some (p.rowLocatorToId locator) else none

/-- `editableRowIdByIndex`. -/
def editableRowIdByIndex (rowIndex : ℕ) : Option String :=
  if rowIndex < p.data.rows.length then
    some ((p.rowKeyByIndex rowIndex).getD (p.fallbackRowUpdateId rowIndex))
  else none

/-- `rowLocatorsForIndexes`. -/
def rowLocatorsForIndexes (rowIndexes : List ℕ) : List TableRowLocator :=
  (rowIndexes.filter fun rowIndex ↦ (p.rowKeyByIndex rowIndex).isSome).filterMap p.locatorAt

/-- The value that was loaded for a cell. -/
def loaded (rowIndex : ℕ) (columnId : String) : Value :=
  match p.columnIndexByName columnId with
  | none => .undefined
  | some columnIndex => cell (p.data.rows[rowIndex]?.getD []) columnIndex

/-! ### Ids -/

variable {p}

variable {i j : ℕ}

/-- The id of a row that has one of its own is the text of its locator. -/
theorem rowKeyByIndex_eq_some_iff {id : String} :
    p.rowKeyByIndex i = some id ↔
      ∃ locator, p.locatorAt i = some locator ∧ p.rowIds.count id = 1 ∧ p.rowLocatorToId locator = id := by
  rw [rowKeyByIndex, Option.bind_eq_some_iff]
  refine exists_congr fun locator ↦ and_congr_right fun _ ↦ ?_
  split_ifs with hcount
  · rw [Option.some.injEq]
    exact ⟨fun h ↦ ⟨h ▸ hcount, h⟩, fun h ↦ h.2⟩
  · exact ⟨fun h ↦ (nomatch h), fun h ↦ absurd (h.2 ▸ h.1) hcount⟩

/-- A text that occurs once in a list is of one element. -/
theorem eq_of_count_filterMap {α β : Type} [DecidableEq β] {f : α → Option β} {l : List α} {b : β}
    (hcount : (l.filterMap f).count b = 1) (hi : l[i]?.bind f = some b) (hj : l[j]?.bind f = some b) :
    i = j := by
  induction l generalizing i j with
  | nil => simp at hi
  | cons a l ih =>
    -- an element of the tail with the same value makes two of them
    have hnone : f a = some b → ∀ k : ℕ, l[k]?.bind f ≠ some b := by
      intro ha k hk
      obtain ⟨a', ha', hb⟩ := Option.bind_eq_some_iff.1 hk
      have hmem : b ∈ l.filterMap f := List.mem_filterMap.2 ⟨a', List.mem_of_getElem? ha', hb⟩
      rw [List.filterMap_cons_some ha, List.count_cons_self] at hcount
      have hpos := List.count_pos_iff.2 hmem
      omega
    cases i with
    | zero =>
      cases j with
      | zero => rfl
      | succ j => exact absurd hj (hnone hi j)
    | succ i =>
      cases j with
      | zero => exact absurd hi (hnone hj i)
      | succ j =>
        refine congrArg Nat.succ (ih ?_ hi hj)
        cases ha : f a with
        | none => rwa [List.filterMap_cons_none ha] at hcount
        | some b' =>
          rw [List.filterMap_cons_some ha] at hcount
          by_cases hb : b' = b
          · exact absurd hi (hnone (hb ▸ ha) i)
          · rwa [List.count_cons_of_ne hb] at hcount

/-- No two rows share an id that is the text of a locator. -/
theorem rowKeyByIndex_injective {id : String} (hi : p.rowKeyByIndex i = some id)
    (hj : p.rowKeyByIndex j = some id) : i = j := by
  obtain ⟨locator, hlocator, hcount, hid⟩ := rowKeyByIndex_eq_some_iff.1 hi
  obtain ⟨locator', hlocator', -, hid'⟩ := rowKeyByIndex_eq_some_iff.1 hj
  rw [rowIds, List.map_filterMap] at hcount
  refine eq_of_count_filterMap hcount ?_ ?_
  · obtain ⟨row, hrow, hbuild⟩ := Option.bind_eq_some_iff.1 hlocator
    rw [hrow, Option.bind_some, hbuild, Option.map_some, hid]
  · obtain ⟨row, hrow, hbuild⟩ := Option.bind_eq_some_iff.1 hlocator'
    rw [hrow, Option.bind_some, hbuild, Option.map_some, hid']

theorem rowLocatorToId_ne_fallback (locator : TableRowLocator) (i : ℕ) :
    p.rowLocatorToId locator ≠ p.fallbackRowUpdateId i := by
  intro h
  have hlist := String.ofList_injective h
  simp at hlist

theorem fallbackRowUpdateId_injective (h : p.fallbackRowUpdateId i = p.fallbackRowUpdateId j) :
    i = j := by
  have hlist := List.append_cancel_left (String.ofList_injective h)
  rw [← Nat.ofDigitChars_ten_toDigits (n := i), hlist, Nat.ofDigitChars_ten_toDigits]

/-- **No two rows of a page share an id.** -/
theorem editableRowId_injective {id : String} (hi : p.editableRowIdByIndex i = some id)
    (hj : p.editableRowIdByIndex j = some id) : i = j := by
  rw [editableRowIdByIndex] at hi hj
  split_ifs at hi hj
  have hids := (Option.some.inj hi).trans (Option.some.inj hj).symm
  cases hkey : p.rowKeyByIndex i with
  | none =>
    cases hkey' : p.rowKeyByIndex j with
    | none =>
      rw [hkey, hkey'] at hids
      exact fallbackRowUpdateId_injective hids
    | some id' =>
      obtain ⟨locator, -, -, hid⟩ := rowKeyByIndex_eq_some_iff.1 hkey'
      rw [hkey, hkey', Option.getD_none, Option.getD_some, ← hid] at hids
      exact absurd hids.symm (rowLocatorToId_ne_fallback locator i)
  | some id' =>
    cases hkey' : p.rowKeyByIndex j with
    | none =>
      obtain ⟨locator, -, -, hid⟩ := rowKeyByIndex_eq_some_iff.1 hkey
      rw [hkey, hkey', Option.getD_none, Option.getD_some, ← hid] at hids
      exact absurd hids (rowLocatorToId_ne_fallback locator j)
    | some id'' =>
      rw [hkey, hkey', Option.getD_some, Option.getD_some] at hids
      exact rowKeyByIndex_injective hkey (hids ▸ hkey')

/-- The id of a row with an own id. -/
theorem editableRowId_of_rowKey {id : String} (h : p.rowKeyByIndex i = some id) :
    p.editableRowIdByIndex i = some id := by
  obtain ⟨locator, hlocator, -, -⟩ := rowKeyByIndex_eq_some_iff.1 h
  obtain ⟨row, hrow, -⟩ := Option.bind_eq_some_iff.1 hlocator
  rw [editableRowIdByIndex, if_pos (List.getElem?_eq_some_iff.1 hrow).1, h, Option.getD_some]

end Page

end TableData
