import NexusPilot.Design.Actions
import NexusPilot.Machine.Run

/-!
# The columns that the lists of a draft name

A list of columns is a text, and which columns it stands for is not written anywhere. `Tracked` adds it: with each
index and constraint the identifiers of the columns that its list is about. An action changes these as it should
(`relabel`): what is deleted disappears, and a primary key that is synchronised is about the flagged columns.

`Names` says that the texts of a draft agree with it. An action keeps this as long as it is `Careful`: a column
that a list is about is not deleted and not renamed to a blank name or one with a comma, and a name that is
replaced is not that of another column that a list is about.
-/

namespace Design

open Schema Text Machine

/-! ### Labels -/

/-- A draft with the columns that its lists are about, by the identifiers of the indexes and constraints. -/
structure Tracked where
  editing : Editing
  labels : ℕ → List ℕ

namespace TableSchemaDraft

variable (draft : TableSchemaDraft)

/-- The identifiers of the columns. -/
def columnIds : List ℕ :=
  draft.columns.map (·.id)

/-- The flagged columns, in their order. -/
def flagged : List ℕ :=
  (draft.columns.filter (·.isPrimaryKey)).map (·.id)

/-- The lists of columns, with the identifiers of their indexes and constraints. -/
def lists : List (ℕ × String) :=
  draft.indexes.map (fun index ↦ (index.id, index.columns)) ++
    draft.constraints.map fun constraint ↦ (constraint.id, constraint.columns)

/-- The primary keys. -/
def primaryKeys : List TableConstraintDraft :=
  draft.constraints.filter (·.kind = .primaryKey)

/-- The current name of a column. -/
def nameOf (id : ℕ) : Option String :=
  (draft.columns.find? (·.id = id)).map fun column ↦ scriptTrim column.name

end TableSchemaDraft

/-- A list names the columns that it is about, position by position. -/
def Named (draft : TableSchemaDraft) (text : String) (labels : List ℕ) : Prop :=
  (splitColumnList text).map some = labels.map draft.nameOf

/-- The columns that the lists ought to be about after an action: those that are left, and in a primary key
that was synchronised the flagged ones. -/
def relabel (sync : Bool) (draft : TableSchemaDraft) (labels : ℕ → List ℕ) (id : ℕ) : List ℕ :=
  if sync ∧ id ∈ draft.primaryKeys.map (·.id) then draft.flagged
  else (labels id).filter (· ∈ draft.columnIds)

/-- Whether an action synchronises the primary key. -/
def ColumnAction.syncs : ColumnAction → Bool
  | .updateColumnDraft _ columnId _ => columnId = "isPrimaryKey"
  | .patchColumnDraft _ patch => patch.isPrimaryKey.isSome
  | .handleDeleteColumns _ | .handleMoveColumns _ _ | .handleAddColumn => false

/-- The new name of a column that an action renames. -/
def ColumnAction.rename : ColumnAction → Option (ℕ × String)
  | .updateColumnDraft rowIndex columnId value => if columnId = "name" then some (rowIndex, value.text) else none
  | .patchColumnDraft rowIndex patch => patch.name.map (rowIndex, ·)
  | .handleDeleteColumns _ | .handleMoveColumns _ _ | .handleAddColumn => none

/-- An action on a draft with its labels. -/
def Tracked.step (profile : TableDesignDriverProfile) (action : ColumnAction) (t : Tracked) : Tracked :=
  let editing := action.run profile t.editing
  ⟨editing, relabel action.syncs editing.draft t.labels⟩

/-! ### What is kept -/

/-- **The lists name their columns**, and the primary key is about the flagged ones. -/
structure Names (t : Tracked) : Prop where
  lists : ∀ list ∈ t.editing.draft.lists, Named t.editing.draft list.2 (t.labels list.1)
  key : ∀ constraint ∈ t.editing.draft.primaryKeys, ∀ id,
    id ∈ t.labels constraint.id ↔ id ∈ t.editing.draft.flagged
  oneKey : t.editing.draft.primaryKeys.length ≤ 1
  hasKey : t.editing.draft.flagged ≠ [] → t.editing.draft.primaryKeys ≠ []

/-- The columns that stay flagged keep their order in the primary key. -/
def KeyOrderKept (t t' : Tracked) : Prop :=
  ∀ constraint ∈ t.editing.draft.primaryKeys, ∀ constraint' ∈ t'.editing.draft.primaryKeys,
    (t'.labels constraint'.id).filter (· ∈ t.labels constraint.id) =
      (t.labels constraint.id).filter (· ∈ t'.editing.draft.flagged)

/-- **Column references survive an action.** -/
def ReferencesSurvive (profile : TableDesignDriverProfile) (t : Tracked) (action : ColumnAction) : Prop :=
  Names (t.step profile action) ∧ KeyOrderKept t (t.step profile action)

/-! ### Careful actions -/

/-- A column that some list is about. -/
def Referenced (t : Tracked) (id : ℕ) : Prop :=
  ∃ list ∈ t.editing.draft.lists, id ∈ t.labels list.1

/-- A rename that no list notices: the name stays, or a column that is referenced gets a name that a list can
hold, and no other column that is referenced has the name that is replaced. -/
def RenameCareful (t : Tracked) (rowIndex : ℕ) (nextName : String) : Prop :=
  ∀ column, t.editing.draft.columns[rowIndex]? = some column → scriptTrim column.name ≠ scriptTrim nextName →
    (Referenced t column.id → IsListable nextName) ∧
      (scriptTrim nextName ≠ "" → ∀ id, Referenced t id → id ≠ column.id →
        t.editing.draft.nameOf id ≠ some (scriptTrim column.name))

/-- A synchronisation that keeps the order: the flagged columns have names that a list can hold, and those that
were in the primary key have the same order in the table. -/
def SyncCareful (t : Tracked) (draft : TableSchemaDraft) : Prop :=
  (∀ column ∈ draft.columns, column.isPrimaryKey → IsListable column.name) ∧
    ∀ constraint ∈ t.editing.draft.primaryKeys,
      draft.flagged.filter (· ∈ t.labels constraint.id) =
        (t.labels constraint.id).filter (· ∈ draft.flagged)

/-- **A careful action**: it renames carefully, deletes no column that is referenced, and synchronises carefully. -/
structure Careful (profile : TableDesignDriverProfile) (t : Tracked) (action : ColumnAction) : Prop where
  rename : ∀ rowIndex nextName, action.rename = some (rowIndex, nextName) → RenameCareful t rowIndex nextName
  delete : ∀ selected, action = .handleDeleteColumns selected → ∀ rowIndex ∈ selected, ∀ column,
    t.editing.draft.columns[rowIndex]? = some column → ¬ Referenced t column.id
  sync : action.syncs → SyncCareful t (action.run profile t.editing).draft

/-! ### Identifiers -/

/-- Every identifier is used once, and the next one is new. -/
structure Numbered (editing : Editing) : Prop where
  columns : editing.draft.columnIds.Nodup
  lists : (editing.draft.lists.map (·.1)).Nodup
  freshColumn : ∀ id ∈ editing.draft.columnIds, id < editing.nextId
  freshList : ∀ list ∈ editing.draft.lists, list.1 < editing.nextId

section Names

variable {draft draft' : TableSchemaDraft} {id : ℕ} {name : String}

theorem nameOf_of_mem (h : draft.columnIds.Nodup) {column : TableColumnDraft} (hmem : column ∈ draft.columns) :
    draft.nameOf column.id = some (scriptTrim column.name) := by
  obtain ⟨found, hfound⟩ := Option.isSome_iff_exists.1
    (List.find?_isSome (p := fun other ↦ decide (other.id = column.id)) |>.2 ⟨column, hmem, decide_eq_true rfl⟩)
  have hid : found.id = column.id := by simpa using List.find?_some hfound
  have heq : found = column := List.inj_on_of_nodup_map h (List.mem_of_find?_eq_some hfound) hmem hid
  rw [TableSchemaDraft.nameOf, hfound, heq]
  rfl

theorem exists_mem_of_nameOf (h : draft.nameOf id = some name) :
    ∃ column ∈ draft.columns, column.id = id ∧ scriptTrim column.name = name := by
  obtain ⟨column, hfind, hname⟩ := Option.map_eq_some_iff.1 h
  exact ⟨column, List.mem_of_find?_eq_some hfind, by simpa using List.find?_some hfind, hname⟩

theorem mem_columnIds_of_nameOf (h : draft.nameOf id = some name) : id ∈ draft.columnIds := by
  obtain ⟨column, hmem, rfl, -⟩ := exists_mem_of_nameOf h
  exact List.mem_map_of_mem hmem

/-- A column that stays in a draft keeps its name. -/
theorem nameOf_of_kept (h' : draft'.columnIds.Nodup) (hname : draft.nameOf id = some name)
    (hkept : ∀ column ∈ draft.columns, column.id = id → column ∈ draft'.columns) : draft'.nameOf id = some name := by
  obtain ⟨column, hmem, rfl, rfl⟩ := exists_mem_of_nameOf hname
  exact nameOf_of_mem h' (hkept column hmem rfl)

variable {text : String} {labels : List ℕ}

/-- A column that a list is about has a name, which is in the list. -/
theorem Named.nameOf (h : Named draft text labels) (hmem : id ∈ labels) :
    ∃ name ∈ splitColumnList text, draft.nameOf id = some name := by
  have hname : draft.nameOf id ∈ (splitColumnList text).map some := h ▸ List.mem_map_of_mem hmem
  obtain ⟨name, hin, hname⟩ := List.mem_map.1 hname
  exact ⟨name, hin, hname.symm⟩

/-- And every name in the list is that of a column that the list is about. -/
theorem Named.exists_label (h : Named draft text labels) (hmem : name ∈ splitColumnList text) :
    ∃ id ∈ labels, draft.nameOf id = some name := by
  have hname : some name ∈ labels.map draft.nameOf := h ▸ List.mem_map_of_mem hmem
  exact List.mem_map.1 hname

theorem Named.congr (h : Named draft text labels) (hsame : ∀ id ∈ labels, draft'.nameOf id = draft.nameOf id) :
    Named draft' text labels :=
  Eq.trans h (List.map_congr_left fun id hmem ↦ (hsame id hmem).symm)

/-- The columns of a named list are there. -/
theorem Named.filter_columnIds (h : Named draft text labels) : labels.filter (· ∈ draft.columnIds) = labels := by
  refine List.filter_eq_self.2 fun id hmem ↦ decide_eq_true ?_
  obtain ⟨name, -, hname⟩ := h.nameOf hmem
  exact mem_columnIds_of_nameOf hname

end Names

/-! ### The primary key -/

variable {draft : TableSchemaDraft} {constraint : TableConstraintDraft}

theorem mem_primaryKeys_iff :
    constraint ∈ draft.primaryKeys ↔ constraint ∈ draft.constraints ∧ constraint.kind = .primaryKey := by
  rw [TableSchemaDraft.primaryKeys, List.mem_filter, decide_eq_true_iff]

theorem mem_flagged_iff {id : ℕ} :
    id ∈ draft.flagged ↔ ∃ column ∈ draft.columns, column.isPrimaryKey ∧ column.id = id := by
  simp only [TableSchemaDraft.flagged, List.mem_map, List.mem_filter, and_assoc]

theorem list_of_constraint (h : constraint ∈ draft.constraints) :
    (constraint.id, constraint.columns) ∈ draft.lists :=
  List.mem_append_right _ (List.mem_map_of_mem h)

section Step

variable {t : Tracked}

/-- A draft with one primary key has no other. -/
theorem Names.eq_of_primaryKeys (h : Names t) {a b : TableConstraintDraft}
    (ha : a ∈ t.editing.draft.primaryKeys) (hb : b ∈ t.editing.draft.primaryKeys) : a = b := by
  have hone := h.oneKey
  obtain ⟨only, honly⟩ := List.length_eq_one_iff.1
    (le_antisymm hone (List.length_pos_of_mem ha))
  rw [honly, List.mem_singleton] at ha hb
  exact ha.trans hb.symm

variable {id : ℕ} {draft : TableSchemaDraft} {text oldName newName : String}
  {columns : List TableColumnDraft} {t' : Tracked} {column : TableColumnDraft} {α : Type}

/-- Every flagged column is in the primary key. -/
theorem Names.referenced_of_flagged (h : Names t) (hflagged : id ∈ t.editing.draft.flagged) :
    Referenced t id := by
  obtain ⟨constraint, hmem⟩ := List.exists_mem_of_ne_nil _ (h.hasKey (List.ne_nil_of_mem hflagged))
  exact ⟨_, list_of_constraint (mem_primaryKeys_iff.1 hmem).1, (h.key constraint hmem id).2 hflagged⟩

/-- The labels of a list that was not a primary key that is synchronised. -/
theorem relabel_of_named {labels : ℕ → List ℕ} {sync : Bool}
    (hkey : ¬ (sync ∧ id ∈ draft.primaryKeys.map (·.id))) (h : Named draft text (labels id)) :
    relabel sync draft labels id = labels id := by
  rw [relabel, if_neg hkey, h.filter_columnIds]

/-! ### Other columns -/

/-- **Columns that leave, come or move**: if every column that is referenced stays, and no new column is flagged,
the references survive. -/
theorem referencesSurvive_withColumns (h : Names t) (hnodup : (columns.map (·.id)).Nodup)
    (hkept : ∀ column ∈ t.editing.draft.columns, Referenced t column.id → column ∈ columns)
    (hnew : ∀ column ∈ columns, column.isPrimaryKey → column ∈ t.editing.draft.columns)
    (ht' : t' = ⟨t.editing.withColumns columns, relabel false (t.editing.withColumns columns).draft t.labels⟩) :
    Names t' ∧ KeyOrderKept t t' := by
  subst ht'
  have hnamed (list) (hlist : list ∈ t.editing.draft.lists) :
      Named (t.editing.withColumns columns).draft list.2 (t.labels list.1) := by
    refine (h.lists list hlist).congr fun id hmem ↦ ?_
    obtain ⟨name, -, hname⟩ := (h.lists list hlist).nameOf hmem
    rw [hname]
    refine nameOf_of_kept hnodup hname fun column hcolumn hid ↦ ?_
    exact hkept column hcolumn ⟨list, hlist, hid ▸ hmem⟩
  have hlabels (list) (hlist : list ∈ t.editing.draft.lists) :
      relabel false (t.editing.withColumns columns).draft t.labels list.1 = t.labels list.1 :=
    relabel_of_named (fun hsync ↦ Bool.false_ne_true hsync.1) (hnamed list hlist)
  have hflagged (id : ℕ) : id ∈ (t.editing.withColumns columns).draft.flagged ↔ id ∈ t.editing.draft.flagged := by
    constructor
    · intro hmem
      obtain ⟨column, hcolumn, hflag, rfl⟩ := mem_flagged_iff.1 hmem
      exact mem_flagged_iff.2 ⟨column, hnew column hcolumn hflag, hflag, rfl⟩
    · intro hmem
      have hreferenced := h.referenced_of_flagged hmem
      obtain ⟨column, hcolumn, hflag, rfl⟩ := mem_flagged_iff.1 hmem
      exact mem_flagged_iff.2 ⟨column, hkept column hcolumn hreferenced, hflag, rfl⟩
  refine ⟨⟨fun list hlist ↦ ?_, fun constraint hmem id ↦ ?_, h.oneKey, fun hne ↦ ?_⟩, ?_⟩
  · show Named _ _ (relabel false _ t.labels list.1)
    rw [hlabels list hlist]
    exact hnamed list hlist
  · show id ∈ relabel false _ t.labels constraint.id ↔ _
    rw [hlabels _ (list_of_constraint (mem_primaryKeys_iff.1 hmem).1), hflagged]
    exact h.key constraint hmem id
  · obtain ⟨id, hmem⟩ := List.exists_mem_of_ne_nil _ hne
    exact h.hasKey (List.ne_nil_of_mem ((hflagged id).1 hmem))
  · intro constraint hmem constraint' hmem'
    cases h.eq_of_primaryKeys hmem hmem'
    show (relabel false _ t.labels constraint.id).filter _ = _
    rw [hlabels _ (list_of_constraint (mem_primaryKeys_iff.1 hmem).1)]
    have hall (id : ℕ) (hid : id ∈ t.labels constraint.id) :
        id ∈ (t.editing.withColumns columns).draft.flagged :=
      (hflagged id).2 ((h.key constraint hmem id).1 hid)
    rw [List.filter_eq_self.2 fun id hid ↦ decide_eq_true hid,
      List.filter_eq_self.2 fun id hid ↦ decide_eq_true (hall id hid)]

/-! ### A change of one column -/

/-- What a change does to a column: it keeps the identifier, renames it or not, and flags it only if the primary
key is synchronised. -/
structure EditSpec (change : TableColumnDraft → TableColumnDraft) (rename : Option String) (sync : Bool) : Prop where
  id : ∀ column, (change column).id = column.id
  name : ∀ column, (change column).name = rename.getD column.name
  flag : sync = false → ∀ column, (change column).isPrimaryKey = column.isPrimaryKey

theorem editSpec_updateCell (profile : TableDesignDriverProfile) (columnId : String) (value : CellValue) :
    EditSpec (updateCell profile columnId value) (if columnId = "name" then some value.text else none)
      (columnId = "isPrimaryKey") := by
  refine ⟨fun column ↦ ?_, fun column ↦ ?_, fun hsync column ↦ ?_⟩
  · simp only [updateCell, apply_ite TableColumnDraft.id, normalizeColumnDraftType_id, ite_self]
  · simp only [updateCell, apply_ite TableColumnDraft.name, normalizeColumnDraftType_name, ite_self]
    split
    · rfl
    · rfl
  · have hkey : columnId ≠ "isPrimaryKey" := of_decide_eq_false hsync
    simp only [updateCell, if_neg hkey, apply_ite TableColumnDraft.isPrimaryKey,
      normalizeColumnDraftType_isPrimaryKey, ite_self]

theorem editSpec_patch (profile : TableDesignDriverProfile) (patch : ColumnPatch) :
    EditSpec (fun column ↦ normalizeColumnDraftType (patch.apply column) profile) patch.name
      patch.isPrimaryKey.isSome := by
  refine ⟨fun column ↦ normalizeColumnDraftType_id _ _, fun column ↦ normalizeColumnDraftType_name _ _,
    fun hsync column ↦ ?_⟩
  rw [Option.isSome_eq_false_iff, Option.isNone_iff_eq_none] at hsync
  rw [normalizeColumnDraftType_isPrimaryKey, ColumnPatch.apply, hsync]
  rfl

section Modify

variable {change : TableColumnDraft → TableColumnDraft} {rename : Option String} {sync : Bool}
  {columns : List TableColumnDraft} {rowIndex : ℕ}

variable {column : TableColumnDraft}

theorem mem_modify_iff :
    column ∈ columns.modify rowIndex change ↔
      ∃ index old, columns[index]? = some old ∧ column = if rowIndex = index then change old else old := by
  simp only [List.mem_iff_getElem?, List.getElem?_modify, Option.map_eq_map, Option.map_eq_some_iff]
  constructor
  · rintro ⟨index, old, hget, rfl⟩
    exact ⟨index, old, hget, by split <;> rfl⟩
  · rintro ⟨index, old, hget, rfl⟩
    exact ⟨index, old, hget, by split <;> rfl⟩

/-- A property of columns that the change keeps. -/
theorem map_modify {α : Type} {f : TableColumnDraft → α} (hf : ∀ column, f (change column) = f column) :
    (columns.modify rowIndex change).map f = columns.map f := by
  refine List.ext_getElem? fun index ↦ ?_
  rw [List.getElem?_map, List.getElem?_map, List.getElem?_modify]
  cases columns[index]? with
  | none => rfl
  | some column =>
    show some (f (if rowIndex = index then change column else column)) = some (f column)
    split
    · rw [hf]
    · rfl

variable {draft draft' : TableSchemaDraft}

theorem columnIds_modify (spec : EditSpec change rename sync)
    (hcolumns : draft'.columns = draft.columns.modify rowIndex change) : draft'.columnIds = draft.columnIds := by
  rw [TableSchemaDraft.columnIds, hcolumns, map_modify spec.id]
  rfl

/-- Only the changed column has another name. -/
theorem nameOf_modify (spec : EditSpec change rename sync) (hnodup : draft.columnIds.Nodup)
    (hcolumns : draft'.columns = draft.columns.modify rowIndex change)
    (hget : draft.columns[rowIndex]? = some column) (id : ℕ) :
    draft'.nameOf id =
      if id = column.id then some (scriptTrim (rename.getD column.name)) else draft.nameOf id := by
  have hids := columnIds_modify spec hcolumns
  split
  · rename_i hid
    have hmem : change column ∈ draft'.columns := by
      rw [hcolumns]
      exact mem_modify_iff.2 ⟨rowIndex, column, hget, (if_pos rfl).symm⟩
    have hname := nameOf_of_mem (hids ▸ hnodup) hmem
    rwa [spec.id, spec.name, ← hid] at hname
  · rename_i hid
    obtain hnone | ⟨name, hname⟩ := Option.eq_none_or_eq_some (draft.nameOf id)
    · rw [hnone, ← Option.not_isSome_iff_eq_none]
      intro hsome
      obtain ⟨name, hname⟩ := Option.isSome_iff_exists.1 hsome
      obtain ⟨other, hmem, rfl⟩ := List.mem_map.1 (hids ▸ mem_columnIds_of_nameOf hname)
      rw [nameOf_of_mem hnodup hmem] at hnone
      cases hnone
    · rw [hname]
      refine nameOf_of_kept (hids ▸ hnodup) hname fun other hmem hother ↦ ?_
      obtain ⟨index, hindex⟩ := List.mem_iff_getElem?.1 hmem
      rw [hcolumns]
      refine mem_modify_iff.2 ⟨index, other, hindex, (if_neg fun heq ↦ hid ?_).symm⟩
      rw [heq, hindex] at hget
      rw [← hother, Option.some.inj hget]

/-- If the primary key is not synchronised, the same columns are flagged. -/
theorem flagged_modify (spec : EditSpec change rename sync) (hsync : sync = false)
    (hcolumns : draft'.columns = draft.columns.modify rowIndex change) : draft'.flagged = draft.flagged := by
  have hpairs (columns : List TableColumnDraft) :
      ((columns.filter (·.isPrimaryKey)).map (·.id)) =
        (((columns.map fun column ↦ (column.id, column.isPrimaryKey)).filter (·.2)).map (·.1)) := by
    rw [List.filter_map, List.map_map]
    rfl
  rw [TableSchemaDraft.flagged, TableSchemaDraft.flagged, hpairs, hpairs, hcolumns, map_modify]
  intro column
  rw [spec.id, spec.flag hsync]

end Modify

/-! ### Renames -/

/-- The names of a list in which a name was replaced. -/
theorem splitColumnList_replace (hold : scriptTrim oldName ≠ "")
    (hne : scriptTrim oldName ≠ scriptTrim newName) (hnew : IsListable newName) :
    splitColumnList (replaceColumnNameInColumnList text oldName newName) =
      (splitColumnList text).map fun column ↦
        if column = scriptTrim oldName then scriptTrim newName else column := by
  rw [replaceColumnNameInColumnList, if_neg (by simp only [not_or]; exact ⟨hold, hnew.1, hne⟩)]
  dsimp only
  split
  · rename_i hnot
    refine ((List.map_congr_left fun column hmem ↦ ?_).trans (List.map_id _)).symm
    exact if_neg (show column ≠ scriptTrim oldName from fun heq ↦ hnot (heq ▸ hmem))
  · have hlistable : ∀ name ∈ (splitColumnList text).map fun column ↦
        if column = scriptTrim oldName then scriptTrim newName else column, IsListable name ∧ scriptTrim name = name := by
      intro name hmem
      obtain ⟨column, hcolumn, rfl⟩ := List.mem_map.1 hmem
      split
      · refine ⟨⟨by rw [scriptTrim_scriptTrim]; exact hnew.1, fun hcomma ↦ hnew.2 ?_⟩, scriptTrim_scriptTrim _⟩
        rw [scriptTrim, String.toList_ofList] at hcomma
        exact mem_of_mem_trimChars hcomma
      · exact (isListable_of_mem_splitNames hcolumn).symm
    rw [joinColumnList, splitColumnList, splitNames_joinNames_of_listable fun name hmem ↦ (hlistable name hmem).1]
    exact (List.map_congr_left fun name hmem ↦ (hlistable name hmem).2).trans (List.map_id _)

/-- A name that is not replaced by anything. -/
theorem replaceColumnNameInColumnList_eq_self
    (h : scriptTrim oldName ∉ splitColumnList text ∨ scriptTrim newName = "" ∨
      scriptTrim oldName = scriptTrim newName) :
    replaceColumnNameInColumnList text oldName newName = text := by
  rw [replaceColumnNameInColumnList]
  split
  · rfl
  · rename_i hchecks
    simp only [not_or] at hchecks
    obtain h | h | h := h
    · exact if_pos h
    · exact absurd h hchecks.2.1
    · exact absurd h hchecks.2.2

/-- **A list keeps naming its columns when one of them is renamed.** -/
theorem Named.replace {draft' : TableSchemaDraft} {labels : List ℕ} (h : Named draft text labels)
    {nextName : String} (hcolumn : draft.nameOf column.id = some (scriptTrim column.name))
    (hname : ∀ id, draft'.nameOf id =
      if id = column.id then some (scriptTrim nextName) else draft.nameOf id)
    (hlistable : scriptTrim column.name ≠ scriptTrim nextName → column.id ∈ labels → IsListable nextName)
    (hothers : scriptTrim column.name ≠ scriptTrim nextName → scriptTrim nextName ≠ "" →
      ∀ id ∈ labels, id ≠ column.id → draft.nameOf id ≠ some (scriptTrim column.name)) :
    Named draft' (replaceColumnNameInColumnList text column.name nextName) labels := by
  have hsame (hunchanged : scriptTrim column.name = scriptTrim nextName ∨ column.id ∉ labels) :
      Named draft' text labels := by
    refine h.congr fun id hmem ↦ ?_
    rw [hname]
    split
    · rename_i hid
      obtain heq | hnot := hunchanged
      · rw [hid, hcolumn, heq]
      · exact absurd (hid ▸ hmem) hnot
    · rfl
  by_cases hne : scriptTrim column.name = scriptTrim nextName
  · rw [replaceColumnNameInColumnList_eq_self (.inr (.inr hne))]
    exact hsame (.inl hne)
  by_cases hmem : column.id ∈ labels
  · have hnew := hlistable hne hmem
    obtain ⟨name, hin, hname'⟩ := h.nameOf hmem
    have hold : scriptTrim column.name ≠ "" := by
      cases Option.some.inj (hcolumn.symm.trans hname')
      obtain ⟨htrim, hblank, -⟩ := isListable_of_mem_splitNames hin
      rwa [htrim] at hblank
    rw [Named, splitColumnList_replace hold hne hnew, List.map_map]
    -- the replacement acts on the names as the rename does on the columns
    have hmap := congrArg (List.map (Option.map fun column' ↦
      if column' = scriptTrim column.name then scriptTrim nextName else column')) h
    rw [List.map_map, List.map_map] at hmap
    refine hmap.trans (List.map_congr_left fun id hid ↦ ?_)
    obtain ⟨name, -, hidname⟩ := h.nameOf hid
    rw [Function.comp_apply, hname, hidname, Option.map_some]
    by_cases hcase : id = column.id
    · rw [hcase, hcolumn] at hidname
      rw [if_pos hcase, if_pos (Option.some.inj hidname).symm]
    · have hother := hothers hne hnew.1 id hid hcase
      rw [hidname] at hother
      rw [if_neg hcase, if_neg fun heq ↦ hother (congrArg some heq)]
  · have hunchanged : scriptTrim column.name ∉ splitColumnList text ∨ scriptTrim nextName = "" := by
      rw [or_iff_not_imp_right]
      intro hblank hin
      obtain ⟨id, hid, hidname⟩ := h.exists_label hin
      exact hothers hne hblank id hid (fun heq ↦ hmem (heq ▸ hid)) hidname
    rw [replaceColumnNameInColumnList_eq_self (hunchanged.imp_right .inl)]
    exact hsame (.inr hmem)

/-! ### Synchronising the primary key -/

section Sync

variable {names : List String} {constraints : List TableConstraintDraft} {constraint : TableConstraintDraft}

/-- What the rewritten constraints are: the others, and a primary key of the given names. -/
theorem mem_rewritePrimaryKey (h : constraint ∈ rewritePrimaryKey names constraints) :
    constraint ∈ constraints ∧ constraint.kind ≠ .primaryKey ∨
      constraint.kind = .primaryKey ∧ constraint.columns = joinColumnList names := by
  induction constraints with
  | nil => cases h
  | cons first rest ih =>
    rw [rewritePrimaryKey] at h
    split at h
    · rename_i hkind
      obtain rfl | h := List.mem_cons.1 h
      · exact .inl ⟨List.mem_cons_self, hkind⟩
      · exact (ih h).imp_left fun hmem ↦ ⟨List.mem_cons_of_mem _ hmem.1, hmem.2⟩
    · rename_i hkind
      rw [ne_eq, not_not] at hkind
      obtain h | h := List.mem_append.1 h
      · split at h
        · cases h
        · rw [List.mem_singleton] at h
          subst h
          exact .inr ⟨hkind, rfl⟩
      · obtain ⟨hmem, hother⟩ := List.mem_filter.1 h
        exact .inl ⟨List.mem_cons_of_mem _ hmem, of_decide_eq_true hother⟩

/-- No identifier is new. -/
theorem map_id_rewritePrimaryKey : ((rewritePrimaryKey names constraints).map (·.id)).Sublist (constraints.map (·.id)) := by
  induction constraints with
  | nil => exact List.nil_sublist _
  | cons first rest ih =>
    rw [rewritePrimaryKey]
    split
    · exact ih.cons_cons first.id
    · rw [List.map_append, List.map_cons]
      have hrest : ((rest.filter (·.kind ≠ .primaryKey)).map (·.id)).Sublist (rest.map (·.id)) :=
        List.filter_sublist.map _
      split
      · exact hrest.cons first.id
      · exact hrest.cons_cons first.id

/-- What is left has at most one primary key: one if there is one to be rewritten. -/
theorem filter_rewritePrimaryKey :
    ((rewritePrimaryKey names constraints).filter (·.kind = .primaryKey)).length =
      if names = [] ∨ ∀ constraint ∈ constraints, constraint.kind ≠ .primaryKey then 0 else 1 := by
  induction constraints with
  | nil => simp [rewritePrimaryKey]
  | cons first rest ih =>
    rw [rewritePrimaryKey]
    split
    · rename_i hkind
      rw [List.filter_cons_of_neg (by simpa using hkind), ih]
      simp [hkind]
    · rename_i hkind
      rw [ne_eq, not_not] at hkind
      have hothers : (rest.filter (·.kind ≠ .primaryKey)).filter (·.kind = .primaryKey) = [] := by
        refine List.filter_eq_nil_iff.2 fun other hmem ↦ ?_
        simpa using (List.mem_filter.1 hmem).2
      rw [List.filter_append, hothers, List.append_nil]
      by_cases hnames : names = []
      · simp [hnames]
      · simp [hnames, hkind]

variable {id : ℕ} {columns : List TableColumnDraft}

/-- What the synchronised constraints are. -/
theorem mem_syncPrimaryKey (h : constraint ∈ syncPrimaryKeyConstraintFromColumns id constraints columns) :
    constraint ∈ constraints ∧ constraint.kind ≠ .primaryKey ∨
      constraint.kind = .primaryKey ∧ constraint.columns = joinColumnList (primaryKeyColumns columns) := by
  rw [syncPrimaryKeyConstraintFromColumns] at h
  split at h
  · obtain h | h := List.mem_append.1 h
    · exact mem_rewritePrimaryKey h
    · rw [List.mem_singleton] at h
      subst h
      exact .inr ⟨rfl, rfl⟩
  · exact mem_rewritePrimaryKey h

/-- There is one primary key if there are columns for it, and none otherwise. -/
theorem filter_syncPrimaryKey :
    ((syncPrimaryKeyConstraintFromColumns id constraints columns).filter (·.kind = .primaryKey)).length =
      if primaryKeyColumns columns = [] then 0 else 1 := by
  rw [syncPrimaryKeyConstraintFromColumns]
  by_cases hnames : primaryKeyColumns columns = []
  · rw [if_neg fun h ↦ h.2 hnames, filter_rewritePrimaryKey, if_pos (.inl hnames), if_pos hnames]
  · by_cases hnone : ∀ constraint ∈ constraints, constraint.kind ≠ .primaryKey
    · rw [if_pos ⟨hnone, hnames⟩, List.filter_append, List.length_append, filter_rewritePrimaryKey,
        if_pos (.inr hnone), if_neg hnames]
      rfl
    · rw [if_neg fun h ↦ hnone h.1, filter_rewritePrimaryKey, if_neg (by simp only [not_or]; exact ⟨hnames, hnone⟩),
        if_neg hnames]

end Sync

/-! ### Edits -/

section Edit

variable {rowIndex : ℕ} {change : TableColumnDraft → TableColumnDraft} {rename : Option String} {sync : Bool}

/-- The list that an edit makes of a list. -/
def renamedList (editing : Editing) (rowIndex : ℕ) (rename : Option String) (value : String) : String :=
  match rename with
  | none => value
  | some nextName =>
    replaceColumnNameInColumnList value ((editing.draft.columns[rowIndex]?.map (·.name)).getD "") nextName

/-- The constraints before the primary key is synchronised. -/
def renamedConstraints (editing : Editing) (rowIndex : ℕ) (rename : Option String) : List TableConstraintDraft :=
  editing.draft.constraints.map fun constraint ↦
    { constraint with columns := renamedList editing rowIndex rename constraint.columns }

theorem indexes_editColumn (editing : Editing) :
    (editColumn rowIndex change rename sync editing).draft.indexes = editing.draft.indexes.map fun index ↦
      { index with columns := renamedList editing rowIndex rename index.columns } :=
  rfl

theorem constraints_editColumn (editing : Editing) :
    (editColumn rowIndex change rename sync editing).draft.constraints =
      if sync then
        syncPrimaryKeyConstraintFromColumns editing.nextId (renamedConstraints editing rowIndex rename)
          (editing.draft.columns.modify rowIndex change)
      else renamedConstraints editing rowIndex rename :=
  rfl

variable {editing : Editing} {constraint : TableConstraintDraft} {draft : TableSchemaDraft}
  {list : ℕ × String} {columns : List TableColumnDraft} {t' : Tracked}

/-- A renamed constraint is a constraint with its list. -/
theorem exists_of_mem_renamedConstraints (h : constraint ∈ renamedConstraints editing rowIndex rename) :
    ∃ old ∈ editing.draft.constraints, constraint.id = old.id ∧ constraint.kind = old.kind ∧
      constraint.columns = renamedList editing rowIndex rename old.columns := by
  obtain ⟨old, hmem, rfl⟩ := List.mem_map.1 h
  exact ⟨old, hmem, rfl, rfl, rfl⟩

/-- The lists of a draft are those of its indexes and of its constraints. -/
theorem mem_lists_iff :
    list ∈ draft.lists ↔ (∃ index ∈ draft.indexes, (index.id, index.columns) = list) ∨
      ∃ constraint ∈ draft.constraints, (constraint.id, constraint.columns) = list := by
  rw [TableSchemaDraft.lists, List.mem_append, List.mem_map, List.mem_map]

theorem map_fst_lists (draft : TableSchemaDraft) :
    draft.lists.map (·.1) = draft.indexes.map (·.id) ++ draft.constraints.map (·.id) := by
  rw [TableSchemaDraft.lists, List.map_append, List.map_map, List.map_map]
  rfl

/-- The identifiers of synchronised constraints are those of before, and perhaps a new one. -/
theorem map_id_syncPrimaryKey {id : ℕ} {constraints : List TableConstraintDraft} :
    ((syncPrimaryKeyConstraintFromColumns id constraints columns).map (·.id)).Sublist
      (constraints.map (·.id) ++ [id]) := by
  rw [syncPrimaryKeyConstraintFromColumns]
  split
  · rw [List.map_append]
    exact map_id_rewritePrimaryKey.append (List.Sublist.refl _)
  · exact map_id_rewritePrimaryKey.trans (List.sublist_append_left _ _)

/-- **An edit keeps the identifiers apart.** -/
theorem numbered_editColumn (h : Numbered editing) (spec : EditSpec change rename sync) :
    Numbered (editColumn rowIndex change rename sync editing) := by
  have hcolumns : (editColumn rowIndex change rename sync editing).draft.columnIds = editing.draft.columnIds :=
    columnIds_modify spec rfl
  have hsub : ((editColumn rowIndex change rename sync editing).draft.lists.map (·.1)).Sublist
      (editing.draft.lists.map (·.1) ++ [editing.nextId]) := by
    rw [map_fst_lists, map_fst_lists, indexes_editColumn, constraints_editColumn, List.map_map, List.append_assoc]
    have hrenamed : (renamedConstraints editing rowIndex rename).map (·.id) = editing.draft.constraints.map (·.id) := by
      rw [renamedConstraints, List.map_map]
      rfl
    refine (List.Sublist.refl _).append ?_
    split
    · exact hrenamed ▸ map_id_syncPrimaryKey
    · exact hrenamed ▸ List.sublist_append_left _ _
  have hfresh : editing.nextId ∉ editing.draft.lists.map (·.1) := by
    intro hmem
    obtain ⟨list, hlist, heq⟩ := List.mem_map.1 hmem
    exact absurd (h.freshList list hlist) (heq ▸ lt_irrefl _)
  refine ⟨hcolumns ▸ h.columns, hsub.nodup ?_, fun id hmem ↦ ?_, fun list hmem ↦ ?_⟩
  · exact List.nodup_append.2 ⟨h.lists, List.nodup_singleton _, fun id hid other hother heq ↦
      hfresh (List.mem_singleton.1 hother ▸ heq ▸ hid)⟩
  · exact (h.freshColumn id (hcolumns ▸ hmem)).trans (Nat.lt_succ_self _)
  · obtain hold | hnew := List.mem_append.1 (hsub.subset (List.mem_map_of_mem hmem))
    · obtain ⟨old, hlist, heq⟩ := List.mem_map.1 hold
      exact heq ▸ (h.freshList old hlist).trans (Nat.lt_succ_self _)
    · rw [List.mem_singleton.1 hnew]
      exact Nat.lt_succ_self _

/-- **Every list keeps naming its columns under an edit**, before the primary key is synchronised. -/
theorem named_renamedList (h : Names t) (hnumbered : Numbered t.editing) (spec : EditSpec change rename sync)
    (hrename : ∀ nextName, rename = some nextName → RenameCareful t rowIndex nextName)
    (hlist : list ∈ t.editing.draft.lists) :
    Named (editColumn rowIndex change rename sync t.editing).draft (renamedList t.editing rowIndex rename list.2)
      (t.labels list.1) := by
  have hcolumns : (editColumn rowIndex change rename sync t.editing).draft.columns =
      t.editing.draft.columns.modify rowIndex change := rfl
  obtain hnone | ⟨column, hget⟩ := Option.eq_none_or_eq_some t.editing.draft.columns[rowIndex]?
  · have hlist' : renamedList t.editing rowIndex rename list.2 = list.2 := by
      cases rename with
      | none => rfl
      | some nextName =>
        rw [renamedList, hnone]
        show replaceColumnNameInColumnList list.2 "" nextName = list.2
        rw [replaceColumnNameInColumnList, if_pos (.inl rfl)]
    rw [hlist']
    refine (h.lists list hlist).congr fun id _ ↦ ?_
    have hsame : t.editing.draft.columns.modify rowIndex change = t.editing.draft.columns :=
      List.modify_eq_self (List.getElem?_eq_none_iff.1 hnone)
    rw [TableSchemaDraft.nameOf, hcolumns, hsame]
    rfl
  · have hname := nameOf_modify spec hnumbered.columns hcolumns hget
    have hcolumn := nameOf_of_mem hnumbered.columns (List.mem_of_getElem? hget)
    cases rename with
    | none =>
      refine (h.lists list hlist).congr fun id _ ↦ ?_
      rw [hname]
      split
      · rename_i hid
        rw [hid, hcolumn]
        rfl
      · rfl
    | some nextName =>
      rw [renamedList, hget]
      have hcareful := hrename nextName rfl column hget
      refine (h.lists list hlist).replace hcolumn hname (fun hne hmem ↦ ?_) fun hne hblank id hmem hid ↦ ?_
      · exact (hcareful hne).1 ⟨list, hlist, hmem⟩
      · exact (hcareful hne).2 hblank id ⟨list, hlist, hmem⟩ hid

/-- Two lists with one identifier are the same list. -/
theorem Numbered.eq_of_lists (h : Numbered editing) {a b : ℕ × String} (ha : a ∈ editing.draft.lists)
    (hb : b ∈ editing.draft.lists) (heq : a.1 = b.1) : a = b :=
  List.inj_on_of_nodup_map h.lists ha hb heq

/-- No index has the identifier of a primary key. -/
theorem Numbered.index_ne_primaryKey (h : Numbered editing) {index : TableIndexDraft}
    (hmem : index ∈ editing.draft.indexes) : index.id ∉ editing.draft.primaryKeys.map (·.id) := by
  intro hkey
  obtain ⟨constraint, hconstraint, hid⟩ := List.mem_map.1 hkey
  have hnodup := h.lists
  rw [map_fst_lists] at hnodup
  exact (List.nodup_append.1 hnodup).2.2 _ (List.mem_map_of_mem hmem) _
    (List.mem_map_of_mem (mem_primaryKeys_iff.1 hconstraint).1) hid.symm

/-- Nor has another constraint. -/
theorem Numbered.constraint_ne_primaryKey (h : Numbered editing)
    (hmem : constraint ∈ editing.draft.constraints) (hkind : constraint.kind ≠ .primaryKey) :
    constraint.id ∉ editing.draft.primaryKeys.map (·.id) := by
  intro hkey
  obtain ⟨key, hkey, hid⟩ := List.mem_map.1 hkey
  obtain ⟨hkeymem, hkeykind⟩ := mem_primaryKeys_iff.1 hkey
  have hnodup := h.lists
  rw [map_fst_lists] at hnodup
  have heq : key = constraint :=
    List.inj_on_of_nodup_map (List.nodup_append.1 hnodup).2.1 hkeymem hmem hid
  exact hkind (heq ▸ hkeykind)

/-- The names of a primary key that is synchronised are those of the flagged columns. -/
theorem primaryKeyColumns_eq (h : ∀ column ∈ columns, column.isPrimaryKey → IsListable column.name) :
    primaryKeyColumns columns = (columns.filter (·.isPrimaryKey)).map fun column ↦ scriptTrim column.name := by
  refine List.filter_eq_self.2 fun name hmem ↦ decide_eq_true ?_
  obtain ⟨column, hcolumn, rfl⟩ := List.mem_map.1 hmem
  obtain ⟨hin, hflag⟩ := List.mem_filter.1 hcolumn
  exact (h column hin hflag).1

/-- The list of a primary key that is synchronised names the flagged columns. -/
theorem named_primaryKeyColumns (hnodup : draft.columnIds.Nodup)
    (h : ∀ column ∈ draft.columns, column.isPrimaryKey → IsListable column.name) :
    Named draft (joinColumnList (primaryKeyColumns draft.columns)) draft.flagged := by
  have htrimmed : ∀ name ∈ primaryKeyColumns draft.columns, IsListable name ∧ scriptTrim name = name := by
    intro name hmem
    rw [primaryKeyColumns_eq h] at hmem
    obtain ⟨column, hcolumn, rfl⟩ := List.mem_map.1 hmem
    obtain ⟨hin, hflag⟩ := List.mem_filter.1 hcolumn
    have hlistable := h column hin hflag
    refine ⟨⟨by rw [scriptTrim_scriptTrim]; exact hlistable.1, fun hcomma ↦ hlistable.2 ?_⟩, scriptTrim_scriptTrim _⟩
    rw [scriptTrim, String.toList_ofList] at hcomma
    exact mem_of_mem_trimChars hcomma
  have hsplit : splitColumnList (joinColumnList (primaryKeyColumns draft.columns)) =
      primaryKeyColumns draft.columns :=
    (splitNames_joinNames_of_listable fun name hmem ↦ (htrimmed name hmem).1).trans
      ((List.map_congr_left fun name hmem ↦ (htrimmed name hmem).2).trans (List.map_id _))
  rw [Named, hsplit, primaryKeyColumns_eq h, TableSchemaDraft.flagged, List.map_map, List.map_map]
  refine List.map_congr_left fun column hmem ↦ ?_
  exact (nameOf_of_mem hnodup (List.mem_of_mem_filter hmem)).symm

/-- **Edits without the primary key**: the references survive. -/
theorem referencesSurvive_rename (h : Names t) (hnumbered : Numbered t.editing)
    (spec : EditSpec change rename false)
    (hrename : ∀ nextName, rename = some nextName → RenameCareful t rowIndex nextName)
    (ht' : t' = ⟨editColumn rowIndex change rename false t.editing,
      relabel false (editColumn rowIndex change rename false t.editing).draft t.labels⟩) :
    Names t' ∧ KeyOrderKept t t' := by
  subst ht'
  have hnamed (list) (hlist : list ∈ t.editing.draft.lists) :
      Named (editColumn rowIndex change rename false t.editing).draft (renamedList t.editing rowIndex rename list.2)
        (t.labels list.1) :=
    named_renamedList h hnumbered spec hrename hlist
  have hlabels (list) (hlist : list ∈ t.editing.draft.lists) :
      relabel false (editColumn rowIndex change rename false t.editing).draft t.labels list.1 = t.labels list.1 :=
    relabel_of_named (fun hsync ↦ Bool.false_ne_true hsync.1) (hnamed list hlist)
  have hflagged : (editColumn rowIndex change rename false t.editing).draft.flagged = t.editing.draft.flagged :=
    flagged_modify spec rfl rfl
  have hkeys (constraint) (hmem : constraint ∈ (editColumn rowIndex change rename false t.editing).draft.primaryKeys) :
      ∃ old ∈ t.editing.draft.primaryKeys, constraint.id = old.id := by
    obtain ⟨hin, hkind⟩ := mem_primaryKeys_iff.1 hmem
    obtain ⟨old, hold, hid, hkind', -⟩ := exists_of_mem_renamedConstraints hin
    exact ⟨old, mem_primaryKeys_iff.2 ⟨hold, hkind' ▸ hkind⟩, hid⟩
  have hlength : (editColumn rowIndex change rename false t.editing).draft.primaryKeys.length =
      t.editing.draft.primaryKeys.length := by
    rw [TableSchemaDraft.primaryKeys, constraints_editColumn, if_neg Bool.false_ne_true, renamedConstraints,
      List.filter_map, List.length_map]
    rfl
  refine ⟨⟨fun list hlist ↦ ?_, fun constraint hmem id ↦ ?_, hlength ▸ h.oneKey, fun hne hnil ↦ ?_⟩, ?_⟩
  · have hcases : ∃ old ∈ t.editing.draft.lists,
        list = (old.1, renamedList t.editing rowIndex rename old.2) := by
      obtain ⟨index, hindex, rfl⟩ | ⟨constraint, hconstraint, rfl⟩ := mem_lists_iff.1 hlist
      · rw [indexes_editColumn] at hindex
        obtain ⟨old, hold, rfl⟩ := List.mem_map.1 hindex
        exact ⟨(old.id, old.columns), mem_lists_iff.2 (.inl ⟨old, hold, rfl⟩), rfl⟩
      · obtain ⟨old, hold, hid, -, hcolumns⟩ := exists_of_mem_renamedConstraints hconstraint
        exact ⟨(old.id, old.columns), list_of_constraint hold, by rw [hid, hcolumns]⟩
    obtain ⟨old, hold, rfl⟩ := hcases
    show Named _ _ (relabel false _ t.labels old.1)
    rw [hlabels old hold]
    exact hnamed old hold
  · obtain ⟨old, hold, hid⟩ := hkeys constraint hmem
    show id ∈ relabel false _ t.labels constraint.id ↔ _
    rw [hid, hlabels _ (list_of_constraint (mem_primaryKeys_iff.1 hold).1), hflagged]
    exact h.key old hold id
  · rw [hflagged] at hne
    have hlen := List.length_pos_iff.2 (h.hasKey hne)
    rw [← hlength, hnil] at hlen
    exact absurd hlen (lt_irrefl 0)
  · intro constraint hmem constraint' hmem'
    obtain ⟨old, hold, hid⟩ := hkeys constraint' hmem'
    cases h.eq_of_primaryKeys hold hmem
    show (relabel false _ t.labels constraint'.id).filter _ = _
    rw [hid, hlabels _ (list_of_constraint (mem_primaryKeys_iff.1 hmem).1),
      List.filter_eq_self.2 fun id hid ↦ decide_eq_true hid, List.filter_eq_self.2 fun id hid ↦ decide_eq_true ?_]
    exact hflagged ▸ (h.key constraint hmem id).1 hid

/-- **Edits with the primary key**: it is about the flagged columns. -/
theorem referencesSurvive_sync (h : Names t) (hnumbered : Numbered t.editing)
    (spec : EditSpec change rename true)
    (hrename : ∀ nextName, rename = some nextName → RenameCareful t rowIndex nextName)
    (hsync : SyncCareful t (editColumn rowIndex change rename true t.editing).draft)
    (ht' : t' = ⟨editColumn rowIndex change rename true t.editing,
      relabel true (editColumn rowIndex change rename true t.editing).draft t.labels⟩) :
    Names t' ∧ KeyOrderKept t t' := by
  subst ht'
  have hnumbered' : Numbered (editColumn rowIndex change rename true t.editing) := numbered_editColumn hnumbered spec
  have hnamed (list) (hlist : list ∈ t.editing.draft.lists) :
      Named (editColumn rowIndex change rename true t.editing).draft (renamedList t.editing rowIndex rename list.2)
        (t.labels list.1) :=
    named_renamedList h hnumbered spec hrename hlist
  have hconstraints : (editColumn rowIndex change rename true t.editing).draft.constraints =
      syncPrimaryKeyConstraintFromColumns t.editing.nextId (renamedConstraints t.editing rowIndex rename)
        (editColumn rowIndex change rename true t.editing).draft.columns := rfl
  have hkeylabels (constraint)
      (hmem : constraint ∈ (editColumn rowIndex change rename true t.editing).draft.primaryKeys) :
      relabel true (editColumn rowIndex change rename true t.editing).draft t.labels constraint.id =
        (editColumn rowIndex change rename true t.editing).draft.flagged :=
    if_pos ⟨rfl, List.mem_map_of_mem hmem⟩
  have hlength : (editColumn rowIndex change rename true t.editing).draft.primaryKeys.length =
      if primaryKeyColumns (editColumn rowIndex change rename true t.editing).draft.columns = [] then 0 else 1 := by
    rw [TableSchemaDraft.primaryKeys, hconstraints, filter_syncPrimaryKey]
  have hother {list : ℕ × String} {old : ℕ × String} (hold : old ∈ t.editing.draft.lists)
      (hlist : list = (old.1, renamedList t.editing rowIndex rename old.2))
      (hkey : list.1 ∉ (editColumn rowIndex change rename true t.editing).draft.primaryKeys.map (·.id)) :
      Named (editColumn rowIndex change rename true t.editing).draft list.2
        (relabel true (editColumn rowIndex change rename true t.editing).draft t.labels list.1) := by
    subst hlist
    rw [relabel_of_named (fun hboth ↦ hkey hboth.2) (hnamed old hold)]
    exact hnamed old hold
  refine ⟨⟨fun list hlist ↦ ?_, fun constraint hmem id ↦ ?_, ?_, fun hne hnil ↦ ?_⟩, ?_⟩
  · obtain ⟨index, hindex, rfl⟩ | ⟨constraint, hconstraint, rfl⟩ := mem_lists_iff.1 hlist
    · have hkey := hnumbered'.index_ne_primaryKey hindex
      rw [indexes_editColumn] at hindex
      obtain ⟨old, hold, rfl⟩ := List.mem_map.1 hindex
      exact hother (mem_lists_iff.2 (.inl ⟨old, hold, rfl⟩)) rfl hkey
    · obtain ⟨hmem, hkind⟩ | ⟨hkind, hcolumns⟩ := mem_syncPrimaryKey (hconstraints ▸ hconstraint)
      · obtain ⟨old, hold, hid, -, hcolumns⟩ := exists_of_mem_renamedConstraints hmem
        refine hother (list_of_constraint hold) (by rw [hid, hcolumns]) ?_
        exact hnumbered'.constraint_ne_primaryKey hconstraint hkind
      · show Named _ constraint.columns (relabel true _ t.labels constraint.id)
        rw [hkeylabels constraint (mem_primaryKeys_iff.2 ⟨hconstraint, hkind⟩), hcolumns]
        exact named_primaryKeyColumns hnumbered'.columns hsync.1
  · show id ∈ relabel true _ t.labels constraint.id ↔ _
    rw [hkeylabels constraint hmem]
  · rw [hlength]
    split
    · exact Nat.zero_le 1
    · exact le_rfl
  · obtain ⟨id, hid⟩ := List.exists_mem_of_ne_nil _ hne
    obtain ⟨column, hcolumn, hflag, -⟩ := mem_flagged_iff.1 hid
    have hnames : primaryKeyColumns (editColumn rowIndex change rename true t.editing).draft.columns ≠ [] := by
      rw [primaryKeyColumns_eq hsync.1]
      exact List.ne_nil_of_mem (List.mem_map_of_mem (List.mem_filter.2 ⟨hcolumn, hflag⟩))
    rw [if_neg hnames, hnil] at hlength
    cases hlength
  · intro constraint hmem constraint' hmem'
    show (relabel true _ t.labels constraint'.id).filter _ = _
    rw [hkeylabels constraint' hmem']
    exact hsync.2 constraint hmem

/-- **A careful edit keeps the references.** -/
theorem referencesSurvive_editColumn (h : Names t) (hnumbered : Numbered t.editing)
    (spec : EditSpec change rename sync)
    (hrename : ∀ nextName, rename = some nextName → RenameCareful t rowIndex nextName)
    (hsync : sync = true → SyncCareful t (editColumn rowIndex change rename sync t.editing).draft)
    (ht' : t' = ⟨editColumn rowIndex change rename sync t.editing,
      relabel sync (editColumn rowIndex change rename sync t.editing).draft t.labels⟩) :
    Names t' ∧ KeyOrderKept t t' := by
  cases sync with
  | false => exact referencesSurvive_rename h hnumbered spec hrename ht'
  | true => exact referencesSurvive_sync h hnumbered spec hrename (hsync rfl) ht'

end Edit

/-! ### One action -/

/-- Columns that leave, come or move keep the identifiers apart. -/
theorem numbered_withColumns {editing : Editing} (h : Numbered editing) (hnodup : (columns.map (·.id)).Nodup)
    (hfresh : ∀ column ∈ columns, column.id < editing.nextId + 1) : Numbered (editing.withColumns columns) := by
  refine ⟨hnodup, h.lists, fun id hmem ↦ ?_, fun list hmem ↦ (h.freshList list hmem).trans (Nat.lt_succ_self _)⟩
  obtain ⟨column, hcolumn, rfl⟩ := List.mem_map.1 hmem
  exact hfresh column hcolumn

/-- The columns that are left after a deletion. -/
theorem mem_deleteColumns_iff {selected : List ℕ} :
    column ∈ (columns.zipIdx.filter fun entry ↦ entry.2 ∉ selected).map (·.1) ↔
      ∃ index, index ∉ selected ∧ columns[index]? = some column := by
  simp only [List.mem_map, List.mem_filter, Prod.exists, List.mem_zipIdx_iff_getElem?, decide_eq_true_eq]
  constructor
  · rintro ⟨column', index, ⟨hget, hnot⟩, rfl⟩
    exact ⟨index, hnot, hget⟩
  · rintro ⟨index, hnot, hget⟩
    exact ⟨column, index, ⟨hget, hnot⟩, rfl⟩

theorem sublist_deleteColumns (columns : List TableColumnDraft) (selected : List ℕ) :
    ((columns.zipIdx.filter fun entry ↦ entry.2 ∉ selected).map (·.1)).Sublist columns := by
  have hsub := (List.filter_sublist (l := columns.zipIdx) (p := fun entry ↦ entry.2 ∉ selected)).map (·.1)
  rwa [List.zipIdx_map_fst] at hsub

/-- One row is moved, none is lost. -/
theorem perm_moveRow (direction : MoveDirection) (rows : List α) (index : ℕ) :
    (moveRow direction rows index).Perm rows := by
  have hmove (target : ℕ) (htarget : target < rows.length) :
      ((rows.eraseIdx index).insertIdx target <$> rows[index]? |>.getD rows).Perm rows := by
    obtain hnone | ⟨row, hrow⟩ := Option.eq_none_or_eq_some rows[index]?
    · rw [hnone]
      exact List.Perm.refl _
    · rw [hrow]
      obtain ⟨hindex, rfl⟩ := List.getElem?_eq_some_iff.1 hrow
      have herase : (rows[index] :: rows.eraseIdx index).Perm rows := by
        rw [List.eraseIdx_eq_take_drop_succ]
        refine List.perm_middle.symm.trans ?_
        rw [← List.drop_eq_getElem_cons hindex, List.take_append_drop]
      refine (List.perm_insertIdx _ _ ?_).trans herase
      rw [List.length_eraseIdx_of_lt hindex]
      omega
  cases direction with
  | up =>
    rw [moveRow]
    split
    · exact List.Perm.refl _
    · by_cases hindex : index < rows.length
      · exact hmove (index - 1) (by omega)
      · rw [List.getElem?_eq_none (by omega)]
        exact List.Perm.refl _
  | down =>
    rw [moveRow]
    split
    · exact List.Perm.refl _
    · exact hmove (index + 1) (by omega)

theorem perm_moveDraftRows (rows : List α) (selected : List ℕ) (direction : MoveDirection) :
    (moveDraftRows rows selected direction).Perm rows := by
  have hfold (indexes : List ℕ) (rows : List α) : (indexes.foldl (moveRow direction) rows).Perm rows := by
    induction indexes generalizing rows with
    | nil => exact List.Perm.refl _
    | cons index indexes ih => exact (ih _).trans (perm_moveRow direction rows index)
  exact hfold _ rows

/-- **Every action keeps the identifiers apart.** -/
theorem numbered_step (profile : TableDesignDriverProfile) (action : ColumnAction) (h : Numbered t.editing) :
    Numbered (t.step profile action).editing := by
  have hfresh (column) (hmem : column ∈ t.editing.draft.columns) : column.id < t.editing.nextId + 1 :=
    (h.freshColumn _ (List.mem_map_of_mem hmem)).trans (Nat.lt_succ_self _)
  cases action with
  | updateColumnDraft rowIndex columnId value => exact numbered_editColumn h (editSpec_updateCell profile columnId value)
  | patchColumnDraft rowIndex patch => exact numbered_editColumn h (editSpec_patch profile patch)
  | handleDeleteColumns selected =>
    show Numbered (handleDeleteColumns selected t.editing)
    rw [handleDeleteColumns]
    split
    · exact h
    · have hsub := sublist_deleteColumns t.editing.draft.columns selected
      exact numbered_withColumns h ((hsub.map TableColumnDraft.id).nodup h.columns) fun column hmem ↦
        hfresh column (hsub.subset hmem)
  | handleMoveColumns selected direction =>
    have hperm := perm_moveDraftRows t.editing.draft.columns selected direction
    exact numbered_withColumns h ((hperm.map TableColumnDraft.id).nodup_iff.2 h.columns) fun column hmem ↦
      hfresh column (hperm.subset hmem)
  | handleAddColumn =>
    refine numbered_withColumns h ?_ fun column hmem ↦ ?_
    · rw [List.map_append, List.nodup_append]
      refine ⟨h.columns, List.nodup_singleton _, fun id hid other hother heq ↦ ?_⟩
      have hlt := h.freshColumn id hid
      rw [heq, List.mem_singleton.1 hother] at hlt
      exact lt_irrefl _ hlt
    · obtain hmem | hmem := List.mem_append.1 hmem
      · exact hfresh column hmem
      · rw [List.mem_singleton.1 hmem]
        exact Nat.lt_succ_self _

/-- An action that changes neither the draft nor the columns of its lists. -/
theorem referencesSurvive_refl (h : Names t) (ht' : t' = ⟨t.editing, relabel false t.editing.draft t.labels⟩) :
    Names t' ∧ KeyOrderKept t t' := by
  subst ht'
  have hlabels (list) (hlist : list ∈ t.editing.draft.lists) :
      relabel false t.editing.draft t.labels list.1 = t.labels list.1 :=
    relabel_of_named (fun hsync ↦ Bool.false_ne_true hsync.1) (h.lists list hlist)
  have hkey (constraint) (hmem : constraint ∈ t.editing.draft.primaryKeys) :=
    hlabels _ (list_of_constraint (mem_primaryKeys_iff.1 hmem).1)
  refine ⟨⟨fun list hlist ↦ ?_, fun constraint hmem id ↦ ?_, h.oneKey, h.hasKey⟩, ?_⟩
  · show Named _ _ (relabel false _ t.labels list.1)
    rw [hlabels list hlist]
    exact h.lists list hlist
  · show id ∈ relabel false _ t.labels constraint.id ↔ _
    rw [hkey constraint hmem]
    exact h.key constraint hmem id
  · intro constraint hmem constraint' hmem'
    cases h.eq_of_primaryKeys hmem hmem'
    show (relabel false _ t.labels constraint.id).filter _ = _
    rw [hkey constraint hmem, List.filter_eq_self.2 fun id hid ↦ decide_eq_true hid,
      List.filter_eq_self.2 fun id hid ↦ decide_eq_true ((h.key constraint hmem id).1 hid)]

/-- **A careful action keeps the references.** -/
theorem referencesSurvive_step (profile : TableDesignDriverProfile) {action : ColumnAction} (h : Names t)
    (hnumbered : Numbered t.editing) (hcareful : Careful profile t action) :
    ReferencesSurvive profile t action := by
  cases action with
  | updateColumnDraft rowIndex columnId value =>
    refine referencesSurvive_editColumn h hnumbered (editSpec_updateCell profile columnId value)
      (fun nextName heq ↦ hcareful.rename rowIndex nextName ?_) hcareful.sync rfl
    split at heq
    · rename_i hname
      cases heq
      exact if_pos hname
    · cases heq
  | patchColumnDraft rowIndex patch =>
    refine referencesSurvive_editColumn h hnumbered (editSpec_patch profile patch)
      (fun nextName heq ↦ hcareful.rename rowIndex nextName ?_) hcareful.sync rfl
    show patch.name.map (rowIndex, ·) = some (rowIndex, nextName)
    rw [heq]
    rfl
  | handleDeleteColumns selected =>
    by_cases hselected : selected = []
    · subst hselected
      exact referencesSurvive_refl h rfl
    · have hsub := sublist_deleteColumns t.editing.draft.columns selected
      refine referencesSurvive_withColumns h ((hsub.map TableColumnDraft.id).nodup hnumbered.columns)
        (fun column hmem hreferenced ↦ ?_) (fun column hmem _ ↦ hsub.subset hmem) ?_
      · obtain ⟨index, hget⟩ := List.mem_iff_getElem?.1 hmem
        refine mem_deleteColumns_iff.2 ⟨index, fun hin ↦ ?_, hget⟩
        exact hcareful.delete selected rfl index hin column hget hreferenced
      · rw [Tracked.step, ColumnAction.run, handleDeleteColumns, if_neg hselected]
        rfl
  | handleMoveColumns selected direction =>
    have hperm := perm_moveDraftRows t.editing.draft.columns selected direction
    exact referencesSurvive_withColumns h ((hperm.map TableColumnDraft.id).nodup_iff.2 hnumbered.columns)
      (fun column hmem _ ↦ hperm.mem_iff.2 hmem) (fun column hmem _ ↦ hperm.subset hmem) rfl
  | handleAddColumn =>
    refine referencesSurvive_withColumns h (numbered_step profile .handleAddColumn hnumbered).columns
      (fun column hmem _ ↦ List.mem_append_left _ hmem) (fun column hmem hflag ↦ ?_) rfl
    obtain hmem | hmem := List.mem_append.1 hmem
    · exact hmem
    · rw [List.mem_singleton.1 hmem] at hflag
      cases hflag

end Step

/-! ### The draft of a described table -/

/-- **A described table**: its columns have different names that a list can hold, its lists are about its columns,
and the primary key is about the columns that are flagged. -/
structure Described (schema : TableSchema) : Prop where
  names : (schema.columns.map fun column ↦ scriptTrim column.name).Nodup
  listable : ∀ column ∈ schema.columns, IsListable column.name
  indexes : ∀ index ∈ schema.indexes, ∀ name ∈ index.columns, ',' ∉ name.toList ∧
    ∃ column ∈ schema.columns, scriptTrim column.name = scriptTrim name
  constraints : ∀ constraint ∈ schema.constraints, ∀ name ∈ constraint.columns, ',' ∉ name.toList ∧
    ∃ column ∈ schema.columns, scriptTrim column.name = scriptTrim name
  key : ∀ constraint ∈ schema.constraints, constraint.kind = .primaryKey → ∀ column ∈ schema.columns,
    column.isPrimaryKey ↔ scriptTrim column.name ∈ constraint.columns.map scriptTrim
  oneKey : (schema.constraints.filter (·.kind = .primaryKey)).length ≤ 1
  hasKey : (∃ column ∈ schema.columns, column.isPrimaryKey) → ∃ constraint ∈ schema.constraints,
    constraint.kind = .primaryKey

/-- The column of a name. -/
def TableSchemaDraft.columnNamed (draft : TableSchemaDraft) (name : String) : Option ℕ :=
  (draft.columns.find? fun column ↦ scriptTrim column.name = name).map (·.id)

/-- The columns that a list is about when the draft is made. -/
def TableSchemaDraft.labels (draft : TableSchemaDraft) (id : ℕ) : List ℕ :=
  match draft.lists.find? (·.1 = id) with
  | none => []
  | some list => (splitColumnList list.2).filterMap draft.columnNamed

/-- The designer when a table is opened. -/
def Tracked.start (schema : TableSchema) (driver : DesignDriver) : Tracked where
  editing := {
    draft := tableSchemaToDraft schema driver
    nextId := schema.columns.length + schema.indexes.length + schema.constraints.length }
  labels := (tableSchemaToDraft schema driver).labels

section Start

variable {schema : TableSchema} {driver : DesignDriver}

variable {α β : Type} {make : ℕ → α → β} {rows : List α} {list : ℕ × String}

theorem map_id_numbered {f : β → ℕ} (hf : ∀ id row, f (make id row) = id) (first : ℕ) (rows : List α) :
    (numbered make first rows).map f = List.range' first rows.length := by
  rw [numbered, List.map_map, ← List.zipIdx_map_snd]
  exact List.map_congr_left fun entry _ ↦ hf entry.2 entry.1

/-- The rows of a draft are made of the rows of the schema. -/
theorem exists_of_mem_numbered {first : ℕ} {b : β} (h : b ∈ numbered make first rows) :
    ∃ row ∈ rows, ∃ id, b = make id row := by
  obtain ⟨⟨row, id⟩, hmem, rfl⟩ := List.mem_map.1 h
  exact ⟨row, List.fst_mem_of_mem_zipIdx hmem, id, rfl⟩

theorem exists_mem_numbered (make : ℕ → α → β) (first : ℕ) {row : α} (h : row ∈ rows) :
    ∃ id, make id row ∈ numbered make first rows := by
  obtain ⟨index, hget⟩ := List.mem_iff_getElem?.1 h
  refine ⟨first + index, List.mem_map.2 ⟨(row, first + index), ?_, rfl⟩⟩
  exact List.mem_zipIdx_iff_le_and_getElem?_sub.2 ⟨Nat.le_add_right _ _, by rwa [Nat.add_sub_cancel_left]⟩

theorem columnIds_tableSchemaToDraft : (tableSchemaToDraft schema driver).columnIds = List.range' 0 schema.columns.length :=
  map_id_numbered (fun _ _ ↦ rfl) _ _

theorem map_fst_lists_tableSchemaToDraft : (tableSchemaToDraft schema driver).lists.map (·.1) =
    List.range' schema.columns.length (schema.indexes.length + schema.constraints.length) := by
  have hindexes : (tableSchemaToDraft schema driver).indexes.map (·.id) =
      List.range' schema.columns.length schema.indexes.length :=
    map_id_numbered (fun _ _ ↦ rfl) _ _
  have hconstraints : (tableSchemaToDraft schema driver).constraints.map (·.id) =
      List.range' (schema.columns.length + schema.indexes.length) schema.constraints.length :=
    map_id_numbered (fun _ _ ↦ rfl) _ _
  rw [map_fst_lists, hindexes, hconstraints, List.range'_append_1]

theorem numbered_start : Numbered (Tracked.start schema driver).editing := by
  refine ⟨?_, ?_, fun id hmem ↦ ?_, fun list hmem ↦ ?_⟩
  · show (tableSchemaToDraft schema driver).columnIds.Nodup
    rw [columnIds_tableSchemaToDraft]
    exact List.nodup_range'
  · show ((tableSchemaToDraft schema driver).lists.map _).Nodup
    rw [map_fst_lists_tableSchemaToDraft]
    exact List.nodup_range'
  · rw [show (Tracked.start schema driver).editing.draft.columnIds = _ from columnIds_tableSchemaToDraft,
      List.mem_range'_1] at hmem
    show id < schema.columns.length + schema.indexes.length + schema.constraints.length
    omega
  · have hid : list.1 ∈ (tableSchemaToDraft schema driver).lists.map (·.1) := List.mem_map_of_mem hmem
    rw [map_fst_lists_tableSchemaToDraft, List.mem_range'_1] at hid
    show list.1 < schema.columns.length + schema.indexes.length + schema.constraints.length
    omega

/-- The columns of a draft are named as in the schema. -/
theorem exists_column_of_schema (driver : DesignDriver) {column : TableColumnSchema} (h : column ∈ schema.columns) :
    ∃ draft ∈ (tableSchemaToDraft schema driver).columns, draft.name = column.name ∧
      draft.isPrimaryKey = column.isPrimaryKey := by
  obtain ⟨id, hmem⟩ := exists_mem_numbered (columnToDraft (tableDesignProfileForDriver driver)) 0 h
  exact ⟨_, hmem, rfl, rfl⟩

theorem exists_schema_of_column {column : TableColumnDraft}
    (h : column ∈ (tableSchemaToDraft schema driver).columns) :
    ∃ described ∈ schema.columns, column.name = described.name ∧
      column.isPrimaryKey = described.isPrimaryKey := by
  obtain ⟨described, hmem, id, rfl⟩ := exists_of_mem_numbered h
  exact ⟨described, hmem, rfl, rfl⟩

/-- A name of a column is found. -/
theorem columnNamed_eq_some (hnodup : (tableSchemaToDraft schema driver).columnIds.Nodup) {name : String}
    (h : ∃ column ∈ schema.columns, scriptTrim column.name = name) :
    ∃ column ∈ (tableSchemaToDraft schema driver).columns, scriptTrim column.name = name ∧
      (tableSchemaToDraft schema driver).columnNamed name = some column.id ∧
      (tableSchemaToDraft schema driver).nameOf column.id = some name := by
  obtain ⟨described, hdescribed, rfl⟩ := h
  obtain ⟨drafted, hdrafted, hname, -⟩ := exists_column_of_schema driver hdescribed
  obtain ⟨found, hfound⟩ := Option.isSome_iff_exists.1
    (List.find?_isSome (p := fun column ↦ decide (scriptTrim column.name = scriptTrim described.name)) |>.2
      ⟨drafted, hdrafted, decide_eq_true (by rw [hname])⟩)
  have hmem := List.mem_of_find?_eq_some hfound
  have heq : scriptTrim found.name = scriptTrim described.name := by simpa using List.find?_some hfound
  refine ⟨found, hmem, heq, ?_, heq ▸ nameOf_of_mem hnodup hmem⟩
  rw [TableSchemaDraft.columnNamed, hfound]
  rfl

/-- The names of a list that was made from columns. -/
theorem splitColumnList_joinNames {names : List String} (h : ∀ name ∈ names, ',' ∉ name.toList) (name : String) :
    name ∈ splitColumnList (joinNames names) ↔ name ≠ "" ∧ name ∈ names.map scriptTrim := by
  rw [splitColumnList, splitNames_joinNames h, List.mem_filter, decide_eq_true_iff, and_comm]

/-- The list of an index or a constraint, with the columns that it was made from. -/
theorem exists_names_of_list (hdescribed : Described schema)
    (h : list ∈ (tableSchemaToDraft schema driver).lists) :
    ∃ names, list.2 = joinNames names ∧ ∀ name ∈ names, ',' ∉ name.toList ∧
      ∃ column ∈ schema.columns, scriptTrim column.name = scriptTrim name := by
  obtain ⟨index, hmem, rfl⟩ | ⟨constraint, hmem, rfl⟩ := mem_lists_iff.1 h
  · obtain ⟨described, hrow, id, rfl⟩ := exists_of_mem_numbered hmem
    exact ⟨described.columns, rfl, hdescribed.indexes described hrow⟩
  · obtain ⟨described, hrow, id, rfl⟩ := exists_of_mem_numbered hmem
    exact ⟨described.columns, rfl, hdescribed.constraints described hrow⟩

theorem map_some_eq_of_filterMap {g : α → Option β} {f : β → Option α} {l : List α}
    (h : ∀ a ∈ l, ∃ b, g a = some b ∧ f b = some a) : l.map some = (l.filterMap g).map f := by
  induction l with
  | nil => rfl
  | cons a l ih =>
    obtain ⟨b, hb, ha⟩ := h a List.mem_cons_self
    rw [List.filterMap_cons_some hb, List.map_cons, List.map_cons, ha,
      ih fun a' hmem ↦ h a' (List.mem_cons_of_mem _ hmem)]

/-- The labels of a list are the columns of its names. -/
theorem labels_eq (hnumbered : Numbered (Tracked.start schema driver).editing)
    (h : list ∈ (tableSchemaToDraft schema driver).lists) :
    (tableSchemaToDraft schema driver).labels list.1 =
      (splitColumnList list.2).filterMap (tableSchemaToDraft schema driver).columnNamed := by
  obtain ⟨found, hfound⟩ := Option.isSome_iff_exists.1
    (List.find?_isSome (p := fun other ↦ decide (other.1 = list.1)) |>.2 ⟨list, h, decide_eq_true rfl⟩)
  have hid : found.1 = list.1 := by simpa using List.find?_some hfound
  have heq : found = list := hnumbered.eq_of_lists (List.mem_of_find?_eq_some hfound) h hid
  rw [TableSchemaDraft.labels, hfound, heq]

/-- **The draft of a described table names its columns.** -/
theorem names_start (hdescribed : Described schema) : Names (Tracked.start schema driver) := by
  have hnumbered : Numbered (Tracked.start schema driver).editing := numbered_start
  have hfound {list : ℕ × String} (hlist : list ∈ (tableSchemaToDraft schema driver).lists) {name : String}
      (hname : name ∈ splitColumnList list.2) :
      ∃ column ∈ (tableSchemaToDraft schema driver).columns, scriptTrim column.name = name ∧
        (tableSchemaToDraft schema driver).columnNamed name = some column.id ∧
        (tableSchemaToDraft schema driver).nameOf column.id = some name := by
    refine columnNamed_eq_some hnumbered.columns ?_
    obtain ⟨names, htext, hnames⟩ := exists_names_of_list hdescribed hlist
    rw [htext, splitColumnList_joinNames fun name hmem ↦ (hnames name hmem).1] at hname
    obtain ⟨name', hmem, rfl⟩ := List.mem_map.1 hname.2
    exact (hnames name' hmem).2
  refine ⟨fun list hlist ↦ ?_, fun constraint hmem id ↦ ?_, ?_, fun hne ↦ ?_⟩
  · show (splitColumnList list.2).map some = ((tableSchemaToDraft schema driver).labels list.1).map _
    rw [labels_eq hnumbered hlist]
    refine map_some_eq_of_filterMap fun name hname ↦ ?_
    obtain ⟨column, -, -, hnamed, hnameOf⟩ := hfound hlist hname
    exact ⟨column.id, hnamed, hnameOf⟩
  · obtain ⟨hconstraint, hkind⟩ := mem_primaryKeys_iff.1 hmem
    have hlist := list_of_constraint hconstraint
    show id ∈ (tableSchemaToDraft schema driver).labels constraint.id ↔ _
    rw [labels_eq hnumbered hlist, List.mem_filterMap]
    obtain ⟨described, hdescribedmem, constraintId, rfl⟩ := exists_of_mem_numbered hconstraint
    have hnames := hdescribed.constraints described hdescribedmem
    have hkey := hdescribed.key described hdescribedmem hkind
    constructor
    · rintro ⟨name, hname, hid⟩
      obtain ⟨column, hcolumn, hname', hnamed, -⟩ := hfound hlist hname
      cases Option.some.inj (hid.symm.trans hnamed)
      obtain ⟨schemaColumn, hschemaColumn, heqname, heqflag⟩ := exists_schema_of_column hcolumn
      refine mem_flagged_iff.2 ⟨column, hcolumn, ?_, rfl⟩
      rw [heqflag]
      refine (hkey schemaColumn hschemaColumn).2 ?_
      rw [← heqname, hname']
      exact ((splitColumnList_joinNames (fun name hmem ↦ (hnames name hmem).1) name).1 hname).2
    · intro hflagged
      obtain ⟨column, hcolumn, hflag, rfl⟩ := mem_flagged_iff.1 hflagged
      obtain ⟨schemaColumn, hschemaColumn, heqname, heqflag⟩ := exists_schema_of_column hcolumn
      have hin := (hkey schemaColumn hschemaColumn).1 (heqflag ▸ hflag)
      have hname : scriptTrim column.name ∈ splitColumnList (joinNames described.columns) := by
        rw [splitColumnList_joinNames fun name hmem ↦ (hnames name hmem).1, heqname]
        exact ⟨(hdescribed.listable schemaColumn hschemaColumn).1, hin⟩
      obtain ⟨found, hfoundmem, hfoundname, hnamed, -⟩ := hfound hlist hname
      refine ⟨scriptTrim column.name, hname, ?_⟩
      -- the names of the columns differ, so that the column which is found is this one
      have hnodup : ((tableSchemaToDraft schema driver).columns.map fun column ↦ scriptTrim column.name).Nodup := by
        have hsame : (tableSchemaToDraft schema driver).columns.map (fun column ↦ scriptTrim column.name) =
            schema.columns.map fun column ↦ scriptTrim column.name := by
          show (List.map _ _).map _ = _
          rw [List.map_map]
          have hzip := List.zipIdx_map_fst 0 schema.columns
          conv_rhs => rw [← hzip, List.map_map]
          rfl
        exact hsame ▸ hdescribed.names
      rw [hnamed, List.inj_on_of_nodup_map hnodup hfoundmem hcolumn hfoundname]
  · have hlength : (tableSchemaToDraft schema driver).primaryKeys.length =
        (schema.constraints.filter (·.kind = .primaryKey)).length := by
      show ((List.map _ _).filter _).length = _
      rw [List.filter_map, List.length_map]
      have hzip := List.zipIdx_map_fst (schema.columns.length + schema.indexes.length) schema.constraints
      conv_rhs => rw [← hzip, List.filter_map, List.length_map]
      rfl
    exact hlength ▸ hdescribed.oneKey
  · obtain ⟨id, hid⟩ := List.exists_mem_of_ne_nil _ hne
    obtain ⟨column, hcolumn, hflag, -⟩ := mem_flagged_iff.1 hid
    obtain ⟨described, hmem, -, heqflag⟩ := exists_schema_of_column hcolumn
    obtain ⟨constraint, hconstraint, hkind⟩ := hdescribed.hasKey ⟨described, hmem, heqflag ▸ hflag⟩
    obtain ⟨constraintId, hdraft⟩ := exists_mem_numbered constraintToDraft
      (schema.columns.length + schema.indexes.length) hconstraint
    exact List.ne_nil_of_mem (mem_primaryKeys_iff.2 ⟨hdraft, hkind⟩)

end Start

/-! ### Runs -/

/-- The invariant of a run. -/
def Sound (t : Tracked) : Prop :=
  Names t ∧ Numbered t.editing

/-- **Column references survive every run of careful actions** on the draft of a described table. -/
theorem referencesSurvive_run (driver : DesignDriver) {schema : TableSchema} (hdescribed : Described schema)
    {actions : List ColumnAction}
    (hcareful : Along (Tracked.step (tableDesignProfileForDriver driver)) (Careful (tableDesignProfileForDriver driver))
      (Tracked.start schema driver) actions) :
    Names (Tracked.start schema driver) ∧
      Along (Tracked.step (tableDesignProfileForDriver driver))
        (ReferencesSurvive (tableDesignProfileForDriver driver)) (Tracked.start schema driver) actions := by
  refine ⟨names_start hdescribed, along_of_forall fun before action after hactions ↦ ?_⟩
  rw [hactions] at hcareful
  obtain ⟨hbefore, hstep, -⟩ := along_append.1 hcareful
  have hkept : Sound (run _ _ before) := run_invariant
    (fun t action h hcareful ↦ ⟨(referencesSurvive_step _ h.1 h.2 hcareful).1, numbered_step _ action h.2⟩)
    ⟨names_start hdescribed, numbered_start⟩ hbefore
  exact referencesSurvive_step _ hkept.1 hkept.2 hstep

/-! ### A name in passing -/

namespace ReferenceSample

/-- A table of two columns, with an index on both. -/
def schema : TableSchema where
  basics := { tableName := "t", databaseName := "db", schemaName := "" }
  columns := [{ name := "a", typeName := "int" }, { name := "b", typeName := "int" }]
  indexes := [⟨"i", ["a", "b"], false, none, none⟩]
  constraints := []

theorem described : Described schema :=
  ⟨by decide +kernel, by decide +kernel, by decide +kernel, by decide +kernel, by decide +kernel, by decide +kernel,
    by decide +kernel⟩

/-- The cell of the name of the first column. -/
def renameFirst (name : String) : ColumnAction :=
  .updateColumnDraft 0 "name" ⟨name, true⟩

end ReferenceSample

/-- A column that has the name of another for a while takes its place in a list. -/
theorem not_referencesSurvive_passing :
    Described ReferenceSample.schema ∧
      ¬ Along (Tracked.step (tableDesignProfileForDriver .mysql))
        (ReferencesSurvive (tableDesignProfileForDriver .mysql)) (Tracked.start ReferenceSample.schema .mysql)
        [ReferenceSample.renameFirst "b", ReferenceSample.renameFirst "c"] := by
  refine ⟨ReferenceSample.described, ?_⟩
  rintro ⟨-, ⟨hnames, -⟩, -⟩
  have hlost := hnames.lists (2, "c, c") (by decide +kernel)
  exact absurd hlost (show ¬ (_ = _) by decide +kernel)

/-- A rename to a new name. -/
theorem referencesSurvive_renamed :
    Names (Tracked.start ReferenceSample.schema .mysql) ∧
      Along (Tracked.step (tableDesignProfileForDriver .mysql))
        (ReferencesSurvive (tableDesignProfileForDriver .mysql)) (Tracked.start ReferenceSample.schema .mysql)
        [ReferenceSample.renameFirst "c"] := by
  refine referencesSurvive_run .mysql ReferenceSample.described ⟨⟨?_, ?_, ?_⟩, trivial⟩
  · intro rowIndex nextName hrename column hget _
    have heq : (0, "c") = (rowIndex, nextName) := Option.some.inj hrename
    cases heq
    refine ⟨fun _ ↦ by decide +kernel, fun _ id _ hid hname ↦ hid ?_⟩
    obtain ⟨other, hmem, rfl, hother⟩ := exists_mem_of_nameOf hname
    have hall : ∀ other ∈ (Tracked.start ReferenceSample.schema .mysql).editing.draft.columns,
        ∀ column ∈ (Tracked.start ReferenceSample.schema .mysql).editing.draft.columns,
        scriptTrim other.name = scriptTrim column.name → other.id = column.id := by
      decide +kernel
    exact hall other hmem column (List.mem_of_getElem? hget) hother
  · intro selected hdelete
    cases hdelete
  · intro hsync
    exact absurd hsync (by decide)

end Design
