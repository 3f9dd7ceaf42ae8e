import NexusPilot.Machine.Run
import NexusPilot.TableData.Editing

/-!
# A change set sends what the user has done

The invariant of a session comes in two halves that no operation mixes: the loaded rows with their updates and
deletes (`RowsKept`), and the draft rows with their values (`DraftsKept`). Each operation changes one of them
and leaves the other as it was.

**`sendsEdits_run`**: in a run whose every draft row gets a new id and in which no changed value is entered
into a loaded row under the name `__proto__`, the request of every change set is exactly the user's edits.
-/

namespace TableData

open Js Machine

/-! ### The last value of a cell -/

theorem lastEntered_cons (e : Entry) (entered : List Entry) (target : Target) (column : String) :
    lastEntered (e :: entered) target column =
      if e.target = target ∧ e.column = column then some e.value else lastEntered entered target column := by
  rw [lastEntered, List.find?_cons]
  split_ifs with h
  · rw [decide_eq_true h]
    rfl
  · rw [decide_eq_false h]
    rfl

/-- The value that a cell edit enters. -/
theorem lastEntered_target (reached : Option Target) (columnId : String) (nextValue : Value) (entered : List Entry)
    (target : Target) (column : String) :
    lastEntered ((reached.map (⟨·, columnId, nextValue⟩)).toList ++ entered) target column =
      if reached = some target ∧ columnId = column then some nextValue else lastEntered entered target column := by
  cases reached with
  | none => rw [if_neg fun h ↦ (nomatch h.1)]; rfl
  | some t =>
    show lastEntered (⟨t, columnId, nextValue⟩ :: entered) target column = _
    rw [lastEntered_cons]
    exact if_congr (and_congr_left' Option.some_inj.symm) rfl rfl

/-! ### The invariant -/

namespace Page

variable (p : Page)

/-- The updates and the deletes of the loaded rows. A row that is not marked has its edited cells in the
update under its id, and a row that is marked has its locator among the deletes. -/
structure RowsKept (s : Session) : Prop where
  cells : ∀ i id, (p.locatorAt i).isSome → p.editableRowIdByIndex i = some id → i ∉ s.marked → ∀ column value,
    (∃ update, s.current.updates.get? id = some update ∧ update.changes.get? column = some value) ↔
      p.Edited s i column value
  updates : ∀ id update, s.current.updates.get? id = some update → update.changes.keys ≠ [] ∧
    ∃ i, p.locatorAt i = some update.locator ∧ p.editableRowIdByIndex i = some id
  deletes : ∀ id locator, s.current.deletes.get? id = some locator ↔
    ∃ i ∈ s.marked, p.rowKeyByIndex i = some id ∧ p.locatorAt i = some locator
  marked : ∀ i ∈ s.marked, (p.rowKeyByIndex i).isSome
  captured : ∀ changeSet ∈ s.earlier, ∀ id, changeSet.deletes.has id → s.current.deletes.has id

end Page

/-- The draft rows with the values that were entered into them. -/
structure DraftsKept (s : Session) : Prop where
  values : ∀ id draft, s.current.inserts.get? id = some draft → draft.draftId = id ∧
    ∀ column, draft.values.get? column = lastEntered s.entered (.draft id) column
  entered : ∀ id column value, lastEntered s.entered (.draft id) column = some value → s.current.inserts.has id
  used : ∀ id, s.current.inserts.has id → id ∈ s.draftIds

variable {p : Page} {s s' : Session}

/-- What leaves the loaded rows alone. -/
theorem Page.RowsKept.of_same (h : p.RowsKept s) (hupdates : s'.current.updates = s.current.updates)
    (hdeletes : s'.current.deletes = s.current.deletes) (hmarked : s'.marked = s.marked)
    (hearlier : s'.earlier = s.current :: s.earlier)
    (hentered : ∀ i, i ∉ s.marked → ∀ column,
      lastEntered s'.entered (.row i) column = lastEntered s.entered (.row i) column) :
    p.RowsKept s' where
  cells i id hrow hid hnot column value := by
    rw [hmarked] at hnot
    rw [hupdates, h.cells i id hrow hid hnot, Page.Edited, Page.Edited, hentered i hnot]
  updates id update hget := h.updates id update (hupdates ▸ hget)
  deletes id locator := by rw [hdeletes, hmarked, h.deletes]
  marked i hi := h.marked i (hmarked ▸ hi)
  captured changeSet hmem id hhas := by
    rw [hdeletes]
    obtain rfl | hmem := List.mem_cons.1 (hearlier ▸ hmem)
    · exact hhas
    · exact h.captured changeSet hmem id hhas

/-- What leaves the draft rows alone. -/
theorem DraftsKept.of_same (h : DraftsKept s) (hinserts : s'.current.inserts = s.current.inserts)
    (hdraftIds : ∀ id ∈ s.draftIds, id ∈ s'.draftIds)
    (hentered : ∀ id column, lastEntered s'.entered (.draft id) column = lastEntered s.entered (.draft id) column) :
    DraftsKept s' where
  values id draft hget := by
    obtain ⟨hid, hvalues⟩ := h.values id draft (hinserts ▸ hget)
    exact ⟨hid, fun column ↦ by rw [hvalues, hentered]⟩
  entered id column value hlast := by
    rw [hinserts]
    exact h.entered id column value (hentered id column ▸ hlast)
  used id hhas := hdraftIds id (h.used id (hinserts ▸ hhas))

/-! ### Rows and their ids -/

namespace Page

/-- No id is the name of the prototype: it begins with a bracket, or with the word `row-index`. -/
theorem rowId_ne_proto {i : ℕ} {id : String} (h : p.editableRowIdByIndex i = some id) : id ≠ "__proto__" := by
  have hlocator : ∀ locator, (p.rowLocatorToId locator).toList.head? = some '[' := by
    intro locator
    show (String.ofList _).toList.head? = some '['
    rw [String.toList_ofList]
    simp
  have hfallback : (p.fallbackRowUpdateId i).toList.head? = some 'r' := by
    show (String.ofList _).toList.head? = some 'r'
    rw [String.toList_ofList]
    simp
  rintro rfl
  rw [editableRowIdByIndex] at h
  split_ifs at h
  have hid := Option.some.inj h
  cases hkey : p.rowKeyByIndex i with
  | none =>
    rw [hkey, Option.getD_none] at hid
    rw [hid] at hfallback
    exact absurd hfallback (by decide)
  | some id =>
    obtain ⟨locator, -, -, hof⟩ := rowKeyByIndex_eq_some_iff.1 hkey
    rw [hkey, Option.getD_some] at hid
    have hhead := hlocator locator
    rw [hof, hid] at hhead
    exact absurd hhead (by decide)

/-- A row whose id is among the deletes is marked. -/
theorem RowsKept.mem_marked (h : p.RowsKept s) {i : ℕ} {id : String} (hid : p.editableRowIdByIndex i = some id)
    (hdeleted : s.current.deletes.has id) : i ∈ s.marked := by
  obtain ⟨locator, hlocator⟩ := Object.has_iff.1 hdeleted
  obtain ⟨j, hj, hkey, -⟩ := (h.deletes id locator).1 hlocator
  exact editableRowId_injective hid (editableRowId_of_rowKey hkey) ▸ hj

theorem RowsKept.captured_has (h : p.RowsKept s) {age : ℕ} {id : String} (hhas : (s.captured age).deletes.has id) :
    s.current.deletes.has id := by
  rw [Session.captured] at hhas
  cases hget : (s.current :: s.earlier)[age]? with
  | none =>
    rw [hget] at hhas
    cases hhas
  | some changeSet =>
    rw [hget, Option.getD_some] at hhas
    obtain rfl | hmem := List.mem_cons.1 (List.mem_of_getElem? hget)
    · exact hhas
    · exact h.captured changeSet hmem id hhas

/-! ### Cell edits of loaded rows -/

section ChangeRow

variable {locator : TableRowLocator} {rowId columnId : String} {originalValue nextValue : Value} {current : ChangeSet}

theorem get?_changesOf {column : String} {value : Value} :
    (changesOf rowId current).get? column = some value ↔
      ∃ update, current.updates.get? rowId = some update ∧ update.changes.get? column = some value := by
  rw [changesOf]
  cases current.updates.get? rowId with
  | none => simp
  | some update => simp

theorem get?_nextChanges (hproto : columnId = "__proto__" → nextValue = originalValue) {column : String}
    {value : Value} :
    (nextChanges rowId columnId originalValue nextValue current).get? column = some value ↔
      if columnId = column then nextValue = value ∧ value ≠ originalValue
      else ∃ update, current.updates.get? rowId = some update ∧ update.changes.get? column = some value := by
  rw [← get?_changesOf, nextChanges]
  split_ifs with heq hcolumn hcolumn
  · rw [Object.get?_delete, if_pos hcolumn.symm]
    exact ⟨fun h ↦ (nomatch h), fun h ↦ absurd (heq.trans h.1).symm h.2⟩
  · rw [Object.get?_delete, if_neg fun h ↦ hcolumn h.symm]
  · have hname : columnId ≠ "__proto__" := fun h ↦ heq (hproto h).symm
    rw [Object.get?_assign, if_pos ⟨hcolumn.symm, hname⟩, Option.some.injEq]
    refine ⟨fun h ↦ ⟨h, ?_⟩, fun h ↦ h.1⟩
    rintro rfl
    exact heq h.symm
  · rw [Object.get?_assign, if_neg fun h ↦ hcolumn h.1.symm]

/-- The update of a row after a cell edit, if it has one. -/
theorem get?_changeRow (hid : rowId ≠ "__proto__") {update : RowUpdate} :
    (changeRow locator rowId columnId originalValue nextValue current).updates.get? rowId = some update ↔
      update = ⟨locator, nextChanges rowId columnId originalValue nextValue current⟩ ∧ update.changes.keys ≠ [] := by
  rw [changeRow]
  generalize nextChanges rowId columnId originalValue nextValue current = changes
  dsimp only
  split_ifs with hkeys
  · rw [Object.get?_delete, if_pos rfl]
    refine ⟨fun h ↦ (nomatch h), ?_⟩
    rintro ⟨rfl, hne⟩
    exact absurd hkeys hne
  · rw [Object.get?_assign, if_pos ⟨rfl, hid⟩, Option.some.injEq]
    refine ⟨?_, fun h ↦ h.1.symm⟩
    rintro rfl
    exact ⟨rfl, hkeys⟩

/-- The updates of the other rows are left alone. -/
theorem get?_changeRow_of_ne {id : String} (hne : id ≠ rowId) :
    (changeRow locator rowId columnId originalValue nextValue current).updates.get? id = current.updates.get? id := by
  rw [changeRow]
  dsimp only
  split_ifs
  · rw [Object.get?_delete, if_neg hne]
  · rw [Object.get?_assign, if_neg fun h ↦ hne h.1]

end ChangeRow

/-- A row that can be located has an id. -/
theorem exists_rowId {i : ℕ} {locator : TableRowLocator} (h : p.locatorAt i = some locator) :
    ∃ id, p.editableRowIdByIndex i = some id := by
  obtain ⟨row, hrow, -⟩ := Option.bind_eq_some_iff.1 h
  exact ⟨_, if_pos (List.getElem?_eq_some_iff.1 hrow).1⟩

/-- A cell edit of a loaded row that is not marked. -/
theorem RowsKept.changeRow (h : p.RowsKept s) {rowIndex : ℕ} {locator : TableRowLocator} {rowId columnId : String}
    {nextValue : Value} (hlocator : p.locatorAt rowIndex = some locator)
    (hid : p.editableRowIdByIndex rowIndex = some rowId)
    (hproto : columnId = "__proto__" → nextValue = p.loaded rowIndex columnId) :
    p.RowsKept { s.next (Page.changeRow locator rowId columnId (p.loaded rowIndex columnId) nextValue s.current) with
      entered := ⟨.row rowIndex, columnId, nextValue⟩ :: s.entered } where
  cells i id hrow hidi hnot column value := by
    have hne := rowId_ne_proto hid
    show (∃ update, (Page.changeRow locator rowId columnId (p.loaded rowIndex columnId) nextValue
      s.current).updates.get? id = some update ∧ _) ↔ lastEntered (_ :: s.entered) _ _ = _ ∧ _
    rw [lastEntered_cons]
    by_cases hi : i = rowIndex
    · subst hi
      obtain rfl : id = rowId := Option.some.inj (hidi.symm.trans hid)
      have hchanges : (nextChanges id columnId (p.loaded i columnId) nextValue s.current).get? column = some value ↔ _ :=
        get?_nextChanges hproto
      rw [h.cells i id hrow hid hnot, Edited] at hchanges
      simp only [get?_changeRow hne]
      refine Iff.trans ⟨?_, fun hget ↦ ⟨_, ⟨rfl, fun hkeys ↦ ?_⟩, hget⟩⟩ (hchanges.trans ?_)
      · rintro ⟨update, ⟨rfl, -⟩, hget⟩
        exact hget
      · rw [Object.keys_eq_nil_iff.1 hkeys column] at hget
        cases hget
      · by_cases hcolumn : columnId = column
        · subst hcolumn
          rw [if_pos rfl, if_pos ⟨trivial, rfl⟩, Option.some.injEq]
        · rw [if_neg hcolumn, if_neg fun heq ↦ hcolumn heq.2]
    · have hidne : id ≠ rowId := fun heq ↦ hi (editableRowId_injective hidi (heq ▸ hid))
      rw [get?_changeRow_of_ne hidne, if_neg fun heq ↦ hi (Target.row.inj heq.1).symm]
      exact h.cells i id hrow hidi hnot column value
  updates id update hget := by
    by_cases hidne : id = rowId
    · subst hidne
      obtain ⟨rfl, hkeys⟩ := (get?_changeRow (rowId_ne_proto hid)).1 hget
      exact ⟨hkeys, rowIndex, hlocator, hid⟩
    · exact h.updates id update ((get?_changeRow_of_ne hidne).symm.trans hget)
  deletes := h.deletes
  marked := h.marked
  captured changeSet hmem id hhas := by
    obtain rfl | hmem := List.mem_cons.1 hmem
    · exact hhas
    · exact h.captured changeSet hmem id hhas

/-- **A cell edit keeps the loaded rows.** -/
theorem RowsKept.addCellChange (h : p.RowsKept s) {age rowIndex : ℕ} {columnId : String} {nextValue : Value}
    (hregular : p.Regular s (.addCellChange age rowIndex columnId nextValue)) :
    p.RowsKept (p.step (.addCellChange age rowIndex columnId nextValue) s) := by
  have hreached : ∀ target, p.target s age rowIndex columnId = target → ∀ i column,
      lastEntered (p.step (.addCellChange age rowIndex columnId nextValue) s).entered (.row i) column =
        if target = some (.row i) ∧ columnId = column then some nextValue
        else lastEntered s.entered (.row i) column := by
    rintro _ rfl i column
    exact lastEntered_target _ _ _ _ _ _
  cases hdraft : p.getDraftInsertByRowIndex (s.captured age) rowIndex with
  | some draft =>
    have hnever : ∀ i, p.target s age rowIndex columnId ≠ some (.row i) := by
      intro i
      rw [target, hdraft]
      dsimp only
      split_ifs <;> simp
    have hsame : ∀ current : ChangeSet, (changeDraft draft columnId nextValue current).updates = current.updates ∧
        (changeDraft draft columnId nextValue current).deletes = current.deletes := by
      intro current
      rw [changeDraft]
      split <;> exact ⟨rfl, rfl⟩
    have hcurrent : (p.addCellChange (s.captured age) rowIndex columnId nextValue s.current).updates =
        s.current.updates ∧ (p.addCellChange (s.captured age) rowIndex columnId nextValue s.current).deletes =
        s.current.deletes := by
      rw [Page.addCellChange, hdraft]
      dsimp only
      split_ifs
      · exact ⟨rfl, rfl⟩
      · exact hsame _
    refine h.of_same hcurrent.1 hcurrent.2 rfl rfl fun i _ column ↦ ?_
    rw [hreached _ rfl, if_neg fun heq ↦ hnever i heq.1]
  | none =>
    have htarget : p.target s age rowIndex columnId =
        if p.findColumn columnId = none then none
        else if (p.locatorAt rowIndex).isSome then some (.row rowIndex) else none := by
      rw [target, hdraft]
    -- what is not reached, and what is marked already, changes no unmarked row
    have hunchanged (hcurrent : p.addCellChange (s.captured age) rowIndex columnId nextValue s.current = s.current)
        (hmarked : p.target s age rowIndex columnId = some (.row rowIndex) → rowIndex ∈ s.marked) :
        p.RowsKept (p.step (.addCellChange age rowIndex columnId nextValue) s) := by
      refine h.of_same (congrArg ChangeSet.updates hcurrent) (congrArg ChangeSet.deletes hcurrent) rfl rfl
        fun i hi column ↦ ?_
      rw [hreached _ rfl, if_neg]
      rintro ⟨hrow, -⟩
      have hsame : i = rowIndex := by
        rw [htarget] at hrow
        split_ifs at hrow
        exact (Target.row.inj (Option.some.inj hrow)).symm
      exact hi (hsame ▸ hmarked (hsame ▸ hrow))
    by_cases hcolumn : p.findColumn columnId = none
    · refine hunchanged ?_ fun heq ↦ ?_
      · rw [Page.addCellChange, hdraft]
        dsimp only
        split
        · rw [if_pos (.inr hcolumn)]
        · rfl
      · rw [htarget, if_pos hcolumn] at heq
        cases heq
    cases hlocator : p.locatorAt rowIndex with
    | none =>
      refine hunchanged ?_ fun heq ↦ ?_
      · rw [Page.addCellChange, hdraft, hlocator]
      · rw [htarget, if_neg hcolumn, hlocator] at heq
        cases heq
    | some locator =>
      obtain ⟨rowId, hid⟩ := exists_rowId hlocator
      have hrow : p.target s age rowIndex columnId = some (.row rowIndex) := by
        rw [htarget, if_neg hcolumn, hlocator]
        rfl
      by_cases hdeleted : (s.captured age).deletes.has rowId = true
      · refine hunchanged ?_ fun _ ↦ h.mem_marked hid (h.captured_has hdeleted)
        rw [Page.addCellChange, hdraft, hlocator, hid]
        exact if_pos (.inl hdeleted)
      · have hstep : p.step (.addCellChange age rowIndex columnId nextValue) s =
            { s.next (Page.changeRow locator rowId columnId (p.loaded rowIndex columnId) nextValue s.current) with
              entered := ⟨.row rowIndex, columnId, nextValue⟩ :: s.entered } := by
          have hcurrent : p.addCellChange (s.captured age) rowIndex columnId nextValue s.current =
              Page.changeRow locator rowId columnId (p.loaded rowIndex columnId) nextValue s.current := by
            rw [Page.addCellChange, hdraft, hlocator, hid]
            exact if_neg (not_or.2 ⟨hdeleted, hcolumn⟩)
          rw [step, hcurrent, hrow]
          rfl
        rw [hstep]
        exact h.changeRow hlocator hid (hregular hrow)

/-! ### Marks for deletion -/

/-- The mark of a row. -/
theorem RowsKept.markRow (h : p.RowsKept s) {i : ℕ} {id : String} {locator : TableRowLocator} {marked : List ℕ}
    (hkey : p.rowKeyByIndex i = some id) (hlocator : p.locatorAt i = some locator)
    (hmarked : ∀ j, j ∈ marked ↔ j = i ∨ j ∈ s.marked) :
    p.RowsKept { s with current := p.markRow s.current locator, marked := marked } := by
  have hid : p.rowLocatorToId locator = id := by
    obtain ⟨locator', hlocator', -, hid⟩ := rowKeyByIndex_eq_some_iff.1 hkey
    rw [← hid, Option.some.inj (hlocator.symm.trans hlocator')]
  have hrowId := editableRowId_of_rowKey hkey
  have hupdates : ∀ other, (p.markRow s.current locator).updates.get? other =
      if other = id then none else s.current.updates.get? other := by
    intro other
    rw [Page.markRow, hid, Object.get?_delete]
  have hdeletes : ∀ other, (p.markRow s.current locator).deletes.get? other =
      if other = id then some locator else s.current.deletes.get? other := by
    intro other
    rw [Page.markRow, hid, Object.get?_assign]
    exact if_congr (and_iff_left (rowId_ne_proto hrowId)) rfl rfl
  refine ⟨fun j other hrow hidj hnot column value ↦ ?_, fun other update hget ↦ ?_, fun other found ↦ ?_,
    fun j hj ↦ ?_, fun changeSet hmem other hhas ↦ ?_⟩
  · have hnot' := not_or.1 (mt (hmarked j).2 hnot)
    have hne : other ≠ id := fun heq ↦ hnot'.1 (editableRowId_injective hidj (heq ▸ hrowId))
    rw [hupdates, if_neg hne]
    exact h.cells j other hrow hidj hnot'.2 column value
  · rw [hupdates] at hget
    split_ifs at hget
    exact h.updates other update hget
  · rw [hdeletes]
    split_ifs with hother
    · subst hother
      constructor
      · intro hsome
        exact ⟨i, (hmarked i).2 (.inl rfl), hkey, hlocator.trans hsome⟩
      · rintro ⟨j, -, hkeyj, hlocatorj⟩
        rwa [rowKeyByIndex_injective hkeyj hkey, hlocator] at hlocatorj
    · rw [h.deletes]
      refine exists_congr fun j ↦ ⟨fun hj ↦ ⟨(hmarked j).2 (.inr hj.1), hj.2⟩, fun hj ↦ ⟨?_, hj.2⟩⟩
      refine ((hmarked j).1 hj.1).resolve_left ?_
      rintro rfl
      exact hother (Option.some.inj (hj.2.1.symm.trans hkey))
  · obtain rfl | hj := (hmarked j).1 hj
    · rw [hkey]
      rfl
    · exact h.marked j hj
  · have hbefore := h.captured changeSet hmem other hhas
    rw [Object.has, hdeletes]
    split_ifs
    · rfl
    · exact hbefore

/-- The marks of a list of rows that have ids of their own. -/
theorem RowsKept.markRows {rows : List ℕ} (hrows : ∀ i ∈ rows, (p.rowKeyByIndex i).isSome) {marked : List ℕ} :
    ∀ {s : Session}, p.RowsKept s → (∀ j, j ∈ marked ↔ j ∈ rows ∨ j ∈ s.marked) →
      p.RowsKept { s with current := p.markRowsForDelete (rows.filterMap p.locatorAt) s.current, marked := marked } := by
  induction rows with
  | nil =>
    intro s h hmarked
    have hsame : ∀ j, j ∈ marked ↔ j ∈ s.marked := fun j ↦ (hmarked j).trans (or_iff_right (List.not_mem_nil))
    refine ⟨fun i id hrow hid hnot ↦ h.cells i id hrow hid (mt (hsame i).2 hnot), h.updates, fun id locator ↦ ?_,
      fun i hi ↦ h.marked i ((hsame i).1 hi), h.captured⟩
    exact (h.deletes id locator).trans (exists_congr fun i ↦ and_congr_left' (hsame i).symm)
  | cons i rows ih =>
    intro s h hmarked
    obtain ⟨id, hkey⟩ := Option.isSome_iff_exists.1 (hrows i List.mem_cons_self)
    obtain ⟨locator, hlocator, -, -⟩ := rowKeyByIndex_eq_some_iff.1 hkey
    have hfirst : p.RowsKept { s with current := p.markRow s.current locator, marked := i :: s.marked } :=
      h.markRow hkey hlocator fun j ↦ List.mem_cons
    have hrest := ih (fun j hj ↦ hrows j (List.mem_cons_of_mem _ hj)) hfirst fun j ↦ by
      rw [hmarked, List.mem_cons, List.mem_cons]
      exact or_assoc.trans or_left_comm
    rw [List.filterMap_cons_some hlocator]
    exact hrest

/-- What leaves the change set and the loaded rows alone. -/
theorem RowsKept.later (h : p.RowsKept s) : p.RowsKept { s with earlier := s.current :: s.earlier } :=
  h.of_same rfl rfl rfl rfl fun _ _ _ ↦ rfl

/-- **Marks for deletion keep the loaded rows.** -/
theorem RowsKept.markRowsForDelete (h : p.RowsKept s) (rowIndexes : List ℕ) :
    p.RowsKept (p.step (.markRowsForDelete rowIndexes) s) :=
  RowsKept.markRows (fun _ hi ↦ (List.mem_filter.1 hi).2) h.later fun _ ↦ List.mem_append

end Page

/-! ### Draft rows -/

/-- The draft rows without the empty ones. A draft row into which a value was entered is not empty. -/
theorem DraftsKept.filter (h : DraftsKept s) {changeSet : ChangeSet}
    (hinserts : changeSet.inserts = (withoutEmptyDraftInserts s.current).inserts) : DraftsKept (s.next changeSet) := by
  have hget : ∀ id, changeSet.inserts.get? id =
      (s.current.inserts.get? id).filter fun insert ↦ insert.values.keys ≠ [] := by
    intro id
    rw [hinserts, withoutEmptyDraftInserts, Object.get?_filterValues]
  have hsub : ∀ id draft, changeSet.inserts.get? id = some draft → s.current.inserts.get? id = some draft := by
    intro id draft hdraft
    rw [hget] at hdraft
    exact (Option.filter_eq_some_iff.1 hdraft).1
  refine ⟨fun id draft hdraft ↦ h.values id draft (hsub id draft hdraft), fun id column value hlast ↦ ?_,
    fun id hhas ↦ ?_⟩
  · obtain ⟨draft, hdraft⟩ := Object.has_iff.1 (h.entered id column value hlast)
    have hvalue := (h.values id draft hdraft).2 column
    refine Object.has_iff.2 ⟨draft, ?_⟩
    rw [show (s.next changeSet).current = changeSet from rfl, hget, Option.filter_eq_some_iff]
    refine ⟨hdraft, decide_eq_true fun hkeys ↦ ?_⟩
    rw [Object.keys_eq_nil_iff.1 hkeys] at hvalue
    cases hvalue.trans hlast
  · obtain ⟨draft, hdraft⟩ := Object.has_iff.1 hhas
    exact h.used id (Object.has_iff.2 ⟨draft, hsub id draft hdraft⟩)

/-- A new draft row. -/
theorem DraftsKept.handleAddDraftRow (h : DraftsKept s) {isTableBusy : Bool} {draftId : String}
    (hfresh : draftId ∉ s.draftIds) : DraftsKept (p.step (.handleAddDraftRow isTableBusy draftId) s) := by
  have hnone : ∀ column, lastEntered s.entered (.draft draftId) column = none := by
    intro column
    refine Option.eq_none_iff_forall_ne_some.2 fun value hlast ↦ ?_
    exact hfresh (h.used draftId (h.entered draftId column value hlast))
  by_cases hbusy : p.canInsertRows = false ∨ isTableBusy = true
  · refine h.of_same ?_ (fun id hid ↦ List.mem_cons_of_mem _ hid) fun _ _ ↦ rfl
    show (p.handleAddDraftRow isTableBusy draftId s.current).inserts = _
    rw [Page.handleAddDraftRow, if_pos hbusy]
  have hinserts : (p.step (.handleAddDraftRow isTableBusy draftId) s).current.inserts =
      (withoutEmptyDraftInserts s.current).inserts.define draftId ⟨draftId, .empty⟩ := by
    show (p.handleAddDraftRow isTableBusy draftId s.current).inserts = _
    rw [Page.handleAddDraftRow, if_neg hbusy]
  have hkept : DraftsKept (s.next (withoutEmptyDraftInserts s.current)) := h.filter rfl
  refine ⟨fun id draft hdraft ↦ ?_, fun id column value hlast ↦ ?_, fun id hhas ↦ ?_⟩
  · rw [hinserts, Object.get?_define] at hdraft
    split_ifs at hdraft with hid
    · cases hdraft
      exact ⟨hid.symm, fun column ↦ by rw [hid]; exact (hnone column).symm⟩
    · exact hkept.values id draft hdraft
  · obtain ⟨draft, hdraft⟩ := Object.has_iff.1 (hkept.entered id column value hlast)
    rw [hinserts, Object.has, Object.get?_define]
    split_ifs
    · rfl
    · exact Object.has_iff.2 ⟨draft, hdraft⟩
  · rw [hinserts, Object.has, Object.get?_define] at hhas
    split_ifs at hhas with hid
    · exact hid ▸ List.mem_cons_self
    · exact List.mem_cons_of_mem _ (hkept.used id hhas)

/-- A value that is entered into a draft row. -/
theorem DraftsKept.changeDraft (h : DraftsKept s) {draft existing : DraftInsert} {columnId : String}
    {nextValue : Value} (hexisting : s.current.inserts.get? draft.draftId = some existing) :
    DraftsKept { s.next (Page.changeDraft draft columnId nextValue s.current) with
      entered := ⟨.draft draft.draftId, columnId, nextValue⟩ :: s.entered } := by
  have hget : ∀ id, (Page.changeDraft draft columnId nextValue s.current).inserts.get? id =
      if id = draft.draftId then some { existing with values := existing.values.define columnId nextValue }
      else s.current.inserts.get? id := by
    intro id
    rw [Page.changeDraft, hexisting]
    exact Object.get?_define _ _ _ _
  obtain ⟨hid, hvalues⟩ := h.values draft.draftId existing hexisting
  refine ⟨fun id found hfound ↦ ?_, fun id column value hlast ↦ ?_, fun id hhas ↦ ?_⟩
  · have hfound' := (hget id).symm.trans hfound
    split_ifs at hfound' with hsame
    · cases hfound'
      refine ⟨hid.trans hsame.symm, fun column ↦ ?_⟩
      show (existing.values.define columnId nextValue).get? column = lastEntered (_ :: s.entered) _ _
      rw [Object.get?_define, lastEntered_cons, hvalues, hsame]
      exact if_congr (by rw [and_iff_right rfl]; exact eq_comm) rfl rfl
    · obtain ⟨hfoundId, hfoundValues⟩ := h.values id found hfound'
      refine ⟨hfoundId, fun column ↦ ?_⟩
      show _ = lastEntered (_ :: s.entered) _ _
      rw [lastEntered_cons, if_neg fun heq ↦ hsame (Target.draft.inj heq.1).symm]
      exact hfoundValues column
  · show ((Page.changeDraft draft columnId nextValue s.current).inserts.get? id).isSome = true
    rw [hget]
    split_ifs with hsame
    · rfl
    · refine h.entered id column value ?_
      have hlast' : lastEntered (⟨.draft draft.draftId, columnId, nextValue⟩ :: s.entered) (.draft id) column =
        some value := hlast
      rwa [lastEntered_cons, if_neg fun heq ↦ hsame (Target.draft.inj heq.1).symm] at hlast'
  · have hhas' : ((Page.changeDraft draft columnId nextValue s.current).inserts.get? id).isSome = true := hhas
    rw [hget] at hhas'
    split_ifs at hhas' with hsame
    · exact h.used id (hsame ▸ Object.has_iff.2 ⟨existing, hexisting⟩)
    · exact h.used id hhas'

/-- **A cell edit keeps the draft rows.** -/
theorem DraftsKept.addCellChange (h : DraftsKept s) {age rowIndex : ℕ} {columnId : String} {nextValue : Value} :
    DraftsKept (p.step (.addCellChange age rowIndex columnId nextValue) s) := by
  -- an edit that reaches no draft row
  have hunchanged (hinserts : (p.addCellChange (s.captured age) rowIndex columnId nextValue s.current).inserts =
        s.current.inserts) (hnever : ∀ id, p.target s age rowIndex columnId ≠ some (.draft id)) :
      DraftsKept (p.step (.addCellChange age rowIndex columnId nextValue) s) := by
    refine h.of_same hinserts (fun _ hid ↦ hid) fun id column ↦ ?_
    refine (lastEntered_target _ _ _ _ _ _).trans (if_neg fun heq ↦ hnever id heq.1)
  cases hdraft : p.getDraftInsertByRowIndex (s.captured age) rowIndex with
  | none =>
    refine hunchanged ?_ fun id ↦ ?_
    · rw [Page.addCellChange, hdraft]
      dsimp only
      split
      · split_ifs <;> rfl
      · rfl
    · rw [Page.target, hdraft]
      dsimp only
      split_ifs <;> simp
  | some draft =>
    by_cases hrefused : p.canInsertRows = false ∨ p.findColumn columnId = none
    · refine hunchanged ?_ fun id ↦ ?_
      · rw [Page.addCellChange, hdraft]
        exact congrArg ChangeSet.inserts (if_pos hrefused)
      · rw [Page.target, hdraft]
        dsimp only
        split_ifs with hcolumn hinsert
        · simp
        · rw [hinsert.1] at hrefused
          simp [hcolumn] at hrefused
        · simp
    have hcurrent : p.addCellChange (s.captured age) rowIndex columnId nextValue s.current =
        Page.changeDraft draft columnId nextValue s.current := by
      rw [Page.addCellChange, hdraft]
      exact if_neg hrefused
    obtain ⟨hcanInsert, hcolumn⟩ := not_or.1 hrefused
    cases hexisting : s.current.inserts.get? draft.draftId with
    | none =>
      refine hunchanged ?_ fun id ↦ ?_
      · rw [hcurrent, Page.changeDraft, hexisting]
      · have hhas : s.current.inserts.has draft.draftId = false := by rw [Object.has, hexisting]; rfl
        rw [Page.target, if_neg hcolumn, hdraft]
        simp [hhas]
    | some existing =>
      have htarget : p.target s age rowIndex columnId = some (.draft draft.draftId) := by
        rw [Page.target, if_neg hcolumn, hdraft]
        exact if_pos ⟨by simpa using hcanInsert, Object.has_iff.2 ⟨existing, hexisting⟩⟩
      have hstep : p.step (.addCellChange age rowIndex columnId nextValue) s =
          { s.next (Page.changeDraft draft columnId nextValue s.current) with
            entered := ⟨.draft draft.draftId, columnId, nextValue⟩ :: s.entered } := by
        rw [Page.step, hcurrent, htarget]
        rfl
      rw [hstep]
      exact h.changeDraft hexisting

/-! ### The request -/

namespace Page

/-- A marked row has its id among the deletes. -/
theorem RowsKept.has_of_marked (h : p.RowsKept s) {i : ℕ} {id : String} (hi : i ∈ s.marked)
    (hid : p.editableRowIdByIndex i = some id) : s.current.deletes.has id = true := by
  obtain ⟨key, hkey⟩ := Option.isSome_iff_exists.1 (h.marked i hi)
  obtain ⟨locator, hlocator, -, -⟩ := rowKeyByIndex_eq_some_iff.1 hkey
  obtain rfl : key = id := Option.some.inj ((editableRowId_of_rowKey hkey).symm.trans hid)
  exact Object.has_iff.2 ⟨locator, (h.deletes key locator).2 ⟨i, hi, hkey, hlocator⟩⟩

/-- Two entries of an object under one name are the same. -/
theorem entry_unique {α : Type} {object : Object α} {e e' : String × α} (he : e ∈ object.entries)
    (he' : e' ∈ object.entries) (hname : e.1 = e'.1) : e = e' := by
  have hvalue : some e.2 = some e'.2 :=
    (Object.mem_entries_iff.1 he).symm.trans ((congrArg _ hname).trans (Object.mem_entries_iff.1 he'))
  exact Prod.ext hname (Option.some.inj hvalue)

/-- The updates of the request. -/
theorem RowsKept.updatesSent (h : p.RowsKept s) :
    ∃ rows : List ℕ, rows.Nodup ∧
      (∀ i, i ∈ rows ↔ (p.locatorAt i).isSome ∧ i ∉ s.marked ∧ ∃ column value, p.Edited s i column value) ∧
      List.Forall₂ (p.IsUpdateOf s) rows (changeSetToRequest s.current).updates := by
  generalize hkept : (s.current.updates.entries.filter fun update ↦ !s.current.deletes.has update.1) = kept
  have hmem : ∀ e, e ∈ kept ↔ s.current.updates.get? e.1 = some e.2 ∧ s.current.deletes.has e.1 = false := by
    intro e
    rw [← hkept, List.mem_filter, Bool.not_eq_true', ← Object.mem_entries_iff]
  -- the row of each update
  have hrow : ∀ e ∈ kept, ∃ i, p.locatorAt i = some e.2.locator ∧ p.editableRowIdByIndex i = some e.1 :=
    fun e he ↦ (h.updates e.1 e.2 ((hmem e).1 he).1).2
  choose! row hrow using hrow
  have hunmarked : ∀ e ∈ kept, row e ∉ s.marked := by
    intro e he hmarked
    have hhas := h.has_of_marked hmarked (hrow e he).2
    rw [((hmem e).1 he).2] at hhas
    cases hhas
  have hcells : ∀ e ∈ kept, ∀ column value,
      e.2.changes.get? column = some value ↔ p.Edited s (row e) column value := by
    intro e he column value
    rw [← h.cells (row e) e.1 (by rw [(hrow e he).1]; rfl) (hrow e he).2 (hunmarked e he), ((hmem e).1 he).1]
    simp
  have hrequest : (changeSetToRequest s.current).updates =
      kept.map fun update ↦ ⟨update.2.locator, update.2.changes.entries⟩ := by
    rw [changeSetToRequest, hkept]
    refine List.filter_eq_self.2 fun update hupdate ↦ ?_
    obtain ⟨e, he, rfl⟩ := List.mem_map.1 hupdate
    have hkeys := (h.updates e.1 e.2 ((hmem e).1 he).1).1
    exact decide_eq_true fun hnil ↦ hkeys (congrArg (List.map Prod.fst) hnil)
  refine ⟨kept.map row, ?_, fun i ↦ ?_, ?_⟩
  · have hnodup : kept.Nodup := by
      rw [← hkept]
      exact (List.Nodup.of_map _ s.current.updates.nodup).filter _
    refine hnodup.map_on fun e he e' he' hsame ↦ ?_
    have hname : e.1 = e'.1 := Option.some.inj ((hrow e he).2.symm.trans (hsame ▸ (hrow e' he').2))
    exact entry_unique (Object.mem_entries_iff.2 ((hmem e).1 he).1) (Object.mem_entries_iff.2 ((hmem e').1 he').1) hname
  · rw [List.mem_map]
    constructor
    · rintro ⟨e, he, rfl⟩
      obtain ⟨column, hcolumn⟩ := List.exists_mem_of_ne_nil _ (h.updates e.1 e.2 ((hmem e).1 he).1).1
      obtain ⟨value, hvalue⟩ := Object.mem_keys_iff.1 hcolumn
      exact ⟨by rw [(hrow e he).1]; rfl, hunmarked e he, column, value, (hcells e he column value).1 hvalue⟩
    · rintro ⟨hlocator, hnot, column, value, hedited⟩
      obtain ⟨locator, hlocator'⟩ := Option.isSome_iff_exists.1 hlocator
      obtain ⟨id, hid⟩ := exists_rowId hlocator'
      obtain ⟨update, hupdate, -⟩ := (h.cells i id hlocator hid hnot column value).2 hedited
      have hhas : s.current.deletes.has id = false :=
        Bool.eq_false_iff.2 fun hdeleted ↦ hnot (h.mem_marked hid hdeleted)
      have he : (id, update) ∈ kept := (hmem _).2 ⟨hupdate, hhas⟩
      exact ⟨_, he, editableRowId_injective (hrow _ he).2 hid⟩
  · rw [hrequest, List.forall₂_map_left_iff, List.forall₂_map_right_iff, List.forall₂_same]
    intro e he
    exact ⟨(hrow e he).1, e.2.changes.nodup, fun column value ↦ Object.mem_entries_iff.trans (hcells e he column value)⟩

/-- The deletes of the request. -/
theorem RowsKept.deletesSent (h : p.RowsKept s) :
    ∃ rows : List ℕ, rows.Nodup ∧ (∀ i, i ∈ rows ↔ i ∈ s.marked) ∧
      List.Forall₂ (fun i locator ↦ p.locatorAt i = some locator) rows (changeSetToRequest s.current).deletes := by
  have hrow : ∀ e ∈ s.current.deletes.entries,
      ∃ i, i ∈ s.marked ∧ p.rowKeyByIndex i = some e.1 ∧ p.locatorAt i = some e.2 :=
    fun e he ↦ (h.deletes e.1 e.2).1 (Object.mem_entries_iff.1 he)
  choose! row hrow using hrow
  refine ⟨s.current.deletes.entries.map row, ?_, fun i ↦ ?_, ?_⟩
  · refine (List.Nodup.of_map _ s.current.deletes.nodup).map_on fun e he e' he' hsame ↦ ?_
    have hname : e.1 = e'.1 := Option.some.inj ((hrow e he).2.1.symm.trans (hsame ▸ (hrow e' he').2.1))
    exact entry_unique he he' hname
  · rw [List.mem_map]
    constructor
    · rintro ⟨e, he, rfl⟩
      exact (hrow e he).1
    · intro hi
      obtain ⟨id, hkey⟩ := Option.isSome_iff_exists.1 (h.marked i hi)
      obtain ⟨locator, hlocator, -, -⟩ := rowKeyByIndex_eq_some_iff.1 hkey
      have he := Object.mem_entries_iff.2 ((h.deletes id locator).2 ⟨i, hi, hkey, hlocator⟩)
      exact ⟨_, he, rowKeyByIndex_injective (hrow _ he).2.1 hkey⟩
  · rw [changeSetToRequest, List.forall₂_map_left_iff, List.forall₂_map_right_iff, List.forall₂_same]
    exact fun e he ↦ (hrow e he).2.2

end Page

/-- The inserts of the request. -/
theorem DraftsKept.insertsSent (h : DraftsKept s) :
    ∃ drafts : List String, drafts.Nodup ∧ (∀ draftId, draftId ∈ drafts ↔ s.current.inserts.has draftId) ∧
      (∀ draftId column value, lastEntered s.entered (.draft draftId) column = some value → draftId ∈ drafts) ∧
      List.Forall₂ (IsInsertOf s) drafts (changeSetToRequest s.current).inserts := by
  have hmem : ∀ draftId, draftId ∈ s.current.inserts.entries.map Prod.fst ↔ s.current.inserts.has draftId :=
    fun draftId ↦ Object.mem_keys_iff.trans Object.has_iff.symm
  refine ⟨_, s.current.inserts.nodup, hmem, fun id column value hlast ↦ (hmem id).2 (h.entered id column value hlast), ?_⟩
  rw [changeSetToRequest, List.forall₂_map_left_iff, List.forall₂_map_right_iff, List.forall₂_same]
  intro e he
  refine ⟨e.2.values.nodup, fun column value ↦ ?_⟩
  rw [Object.mem_entries_iff, (h.values e.1 e.2 (Object.mem_entries_iff.1 he)).2]

/-- **The request of a run is the user's edits**: in a run whose every draft row gets a new id, and in which
no changed value is entered into a loaded row under the name `__proto__`, the request of the change set has
one update for each loaded row with an edited cell that is not marked for deletion, one delete for each that
is, and one insert for each draft row. -/
theorem sendsEdits_run (p : Page) (actions : List Action)
    (hregular : Along p.step p.Regular Session.start actions) :
    p.SendsEdits (run p.step Session.start actions)
      (changeSetToRequest (run p.step Session.start actions).current) := by
  have hkept : p.RowsKept (run p.step Session.start actions) ∧ DraftsKept (run p.step Session.start actions) := by
    have hstart : p.RowsKept Session.start ∧ DraftsKept Session.start := by
      refine ⟨⟨fun i id _ _ _ column value ↦ ?_, fun id update h ↦ (nomatch h), fun id locator ↦ ?_,
        fun i h ↦ (nomatch h), fun _ h ↦ (nomatch h)⟩, ⟨fun id draft h ↦ (nomatch h), fun id column value h ↦ (nomatch h),
        fun id h ↦ (nomatch h)⟩⟩
      · exact ⟨fun ⟨_, h, _⟩ ↦ (nomatch h), fun h ↦ (nomatch h.1)⟩
      · exact ⟨fun h ↦ (nomatch h), fun ⟨_, h, _⟩ ↦ (nomatch h)⟩
    have hstep : ∀ s action, p.RowsKept s ∧ DraftsKept s → p.Regular s action →
        p.RowsKept (p.step action s) ∧ DraftsKept (p.step action s) := by
      rintro s action ⟨hrows, hdrafts⟩ hstep
      cases action with
      | addCellChange age rowIndex columnId nextValue => exact ⟨hrows.addCellChange hstep, hdrafts.addCellChange⟩
      | handleAddDraftRow isTableBusy draftId =>
        refine ⟨hrows.of_same ?_ ?_ rfl rfl fun _ _ _ ↦ rfl, hdrafts.handleAddDraftRow hstep⟩
        · show (p.handleAddDraftRow isTableBusy draftId s.current).updates = _
          rw [Page.handleAddDraftRow]
          split_ifs <;> rfl
        · show (p.handleAddDraftRow isTableBusy draftId s.current).deletes = _
          rw [Page.handleAddDraftRow]
          split_ifs <;> rfl
      | markRowsForDelete rowIndexes =>
        refine ⟨hrows.markRowsForDelete rowIndexes, hdrafts.of_same ?_ (fun _ hid ↦ hid) fun _ _ ↦ rfl⟩
        show (p.markRowsForDelete (p.rowLocatorsForIndexes rowIndexes) s.current).inserts = _
        rw [Page.markRowsForDelete]
        generalize p.rowLocatorsForIndexes rowIndexes = locators
        generalize s.current = current
        induction locators generalizing current with
        | nil => rfl
        | cons locator locators ih => exact ih (p.markRow current locator)
      | withoutEmptyDraftInserts =>
        exact ⟨hrows.of_same rfl rfl rfl rfl fun _ _ _ ↦ rfl, hdrafts.filter rfl⟩
    exact run_invariant hstep hstart hregular
  exact ⟨hkept.1.updatesSent, hkept.1.deletesSent, hkept.2.insertsSent⟩

/-! ### Runs of a small page -/

namespace EditSample

def one : Value :=
  .number (.whole false ⟨1, by decide +kernel, by decide +kernel⟩)

/-- A table with a column of the name `__proto__`, and its only row. -/
def page : Page where
  data := {
    columns := [⟨"id", false, .number⟩, ⟨"name", true, .string⟩, ⟨"__proto__", true, .string⟩]
    rows := [[one, .string "a", .string "b"]]
    primaryKeyColumns := ["id"]
    rowLocatorStrategy := some .primaryKey }
  page := 1
  canMutate := true
  canInsertRows := true
  stringify parts := parts.flatMap fun part ↦ part.1.toList

/-- A new name, a new row with a name, and the old name again. -/
def edits : List Action :=
  [.addCellChange 0 0 "name" (.string "c"), .handleAddDraftRow false "draft",
    .addCellChange 0 1 "name" (.string "d"), .addCellChange 1 0 "name" (.string "a")]

end EditSample

/-- A value that is entered under the name `__proto__` is not sent. -/
theorem not_sendsEdits_proto :
    ¬ EditSample.page.SendsEdits
      (run EditSample.page.step Session.start [.addCellChange 0 0 "__proto__" (.string "c")])
      (changeSetToRequest
        (run EditSample.page.step Session.start [.addCellChange 0 0 "__proto__" (.string "c")]).current) := by
  intro h
  obtain ⟨rows, -, hrows, hrequest⟩ := h.updates
  have hedited : 0 ∈ rows :=
    (hrows 0).2 ⟨by decide +kernel, by decide +kernel, "__proto__", .string "c", by decide +kernel, by decide +kernel⟩
  have hnone : (changeSetToRequest
      (run EditSample.page.step Session.start [.addCellChange 0 0 "__proto__" (.string "c")]).current).updates = [] := by
    decide +kernel
  rw [hnone, List.forall₂_nil_right_iff] at hrequest
  rw [hrequest] at hedited
  cases hedited

/-- A cell that has its old value again is not sent, and the new row is. -/
theorem sendsEdits_edits :
    EditSample.page.SendsEdits (run EditSample.page.step Session.start EditSample.edits)
        (changeSetToRequest (run EditSample.page.step Session.start EditSample.edits).current) ∧
      changeSetToRequest (run EditSample.page.step Session.start EditSample.edits).current =
        ⟨[[("name", .string "d")]], [], []⟩ := by
  refine ⟨sendsEdits_run EditSample.page EditSample.edits ⟨?_, ?_, ?_, ?_, trivial⟩, by decide +kernel⟩
  · exact fun _ h ↦ absurd h (by decide)
  · exact List.not_mem_nil
  · exact fun _ h ↦ absurd h (by decide)
  · exact fun _ h ↦ absurd h (by decide)

end TableData
