import NexusPilot.ClickHouse.AlterOrder
import NexusPilot.ClickHouse.AlterRender

/-!
# The definitions of the columns after an alteration

The statements of a plan run on the table of the baseline. A MODIFY sets the type of a column and replaces
its default by the one that is spelled out, or by none; a comment, a codec and a TTL it sets only where
they are spelled out, and leaves the old ones where they are not. COMMENT COLUMN sets the comment.

The plan spells out what the target has, so that it cannot take a codec or a TTL away, nor the comment of
a column that it modifies for another reason. `reachesTarget_iff` says exactly when the table ends as
`table_schema_matches_target` wants it.
-/

namespace ClickHouse

open Drivers Text Machine

/-! ### The server -/

/-- The column that ADD makes of the clauses of its statement. -/
def addedColumn (name : String) (clauses : ColumnClauses) : ColumnSchema where
  name := name
  typeName := clauses.typeName
  position := 0
  defaultKind := (clauses.default.map (·.1)).getD .none
  defaultExpression := clauses.default.map (·.2)
  codecExpression := clauses.codec
  ttlExpression := clauses.ttl
  comment := clauses.comment
  editability := .editable

/-- The column that MODIFY makes of a column. -/
def modifiedColumn (clauses : ColumnClauses) (column : ColumnSchema) : ColumnSchema :=
  { column with
    typeName := clauses.typeName
    defaultKind := (clauses.default.map (·.1)).getD .none
    defaultExpression := clauses.default.map (·.2)
    codecExpression := clauses.codec.or column.codecExpression
    ttlExpression := clauses.ttl.or column.ttlExpression
    comment := clauses.comment.or column.comment }

/-- A comment as it is described: the empty one is none. -/
def describedComment (comment : String) : Option String :=
  if comment = "" then none else some comment

/-- The column with a name. -/
def TableSchema.column? (table : TableSchema) (name : String) : Option ColumnSchema :=
  table.columns.find? (·.name == name)

/-- A change of the column with a name. -/
def changeColumn (name : String) (change : ColumnSchema → ColumnSchema) (columns : List ColumnSchema) :
    List ColumnSchema :=
  columns.map fun column ↦ if column.name = name then change column else column

/-- The columns after a statement; nothing where it names a column that is not there. -/
def columnsStep (columns : List ColumnSchema) : AlterOperation → Option (List ColumnSchema)
  | .renameColumn from_ to_ _ =>
    if from_ ∈ columns.map (·.name) then some (changeColumn from_ ({ · with name := to_ }) columns) else none
  | .addColumn column position =>
    insertBehind (·.name) position.neighbour (addedColumn column.name (columnClauses column)) columns
  | .modifyColumn column position .. =>
    (columns.find? (·.name == column.name)).bind fun old ↦
      insertBehind (·.name) position.neighbour (modifiedColumn (columnClauses column) old)
        (columns.eraseP (·.name == column.name))
  | .commentColumn name comment _ =>
    if name ∈ columns.map (·.name) then
      some (changeColumn name ({ · with comment := describedComment comment }) columns)
    else none
  | .dropColumn name _ =>
    if name ∈ columns.map (·.name) then some (columns.eraseP (·.name == name)) else none
  | _ => some columns

/-- The other properties of the table after a statement. -/
def propertiesStep (table : TableSchema) : AlterOperation → TableSchema
  | .modifySampleBy expression => { table with keys := { table.keys with sampleBy := some expression } }
  | .removeSampleBy => { table with keys := { table.keys with sampleBy := none } }
  | .modifyTableTtl expression => { table with tableTtl := some expression }
  | .removeTableTtl => { table with tableTtl := none }
  | .modifySetting name value =>
    { table with settings := table.settings.filter (·.name ≠ name) ++ [⟨name, value, true⟩] }
  | .resetSetting name => { table with settings := table.settings.filter (·.name ≠ name) }
  | .modifyTableComment comment => { table with comment := describedComment comment }
  | _ => table

/-- A statement on the server. -/
def tableStep (table : TableSchema) (operation : AlterOperation) : Option TableSchema :=
  (columnsStep table.columns operation).map fun columns ↦
    { propertiesStep table operation with columns := columns }

/-- A run of statements on tables, whose columns have distinct names. -/
inductive TableRun : TableSchema → List AlterOperation → TableSchema → Prop
  | done {table : TableSchema} : table.columnNames.Nodup → TableRun table [] table
  | step {table next final : TableSchema} {operation : AlterOperation} {operations : List AlterOperation} :
      table.columnNames.Nodup → tableStep table operation = some next → TableRun next operations final →
        TableRun table (operation :: operations) final

/-- The table as it is described: the columns are numbered. -/
def described (table : TableSchema) : TableSchema :=
  { table with columns := table.columns.zipIdx.map fun entry ↦ { entry.1 with position := entry.2 + 1 } }

variable {alphanumeric : Char → Bool} {target : AlterTableTarget} {table next final : TableSchema}
  {operations rest : List AlterOperation}

/-! ### Names -/

theorem changeColumn_names {name : String} {change : ColumnSchema → ColumnSchema}
    (h : ∀ column, (change column).name = column.name) (columns : List ColumnSchema) :
    (changeColumn name change columns).map (·.name) = columns.map (·.name) := by
  rw [changeColumn, List.map_map]
  refine List.map_congr_left fun column _ ↦ ?_
  simp only [Function.comp_apply]
  split_ifs
  · exact h column
  · rfl

theorem eraseP_names (name : String) (columns : List ColumnSchema) :
    (columns.eraseP (·.name == name)).map (·.name) = (columns.map (·.name)).erase name := by
  induction columns with
  | nil => rfl
  | cons column columns ih =>
    rw [List.eraseP_cons, List.map_cons, List.erase_cons]
    by_cases h : column.name = name
    · simp [h]
    · have hne : (column.name == name) = false := by simpa using h
      simp [hne, ih]

theorem find?_name_isSome_iff {name : String} {columns : List ColumnSchema} :
    (columns.find? (·.name == name)).isSome ↔ name ∈ columns.map (·.name) := by
  simp

/-- **The names of the columns** after a statement are those that the order of the names gives. -/
theorem columnsStep_names (columns : List ColumnSchema) (operation : AlterOperation) :
    (columnsStep columns operation).map (List.map (·.name)) =
      orderStep (columns.map (·.name)) operation := by
  cases operation with
  | renameColumn from_ to_ position =>
    rw [columnsStep, orderStep]
    split_ifs
    · rw [Option.map_some, changeColumn, List.map_map, List.map_map]
      refine congrArg some (List.map_congr_left fun column _ ↦ ?_)
      simp only [Function.comp_apply]
      split_ifs <;> rfl
    · rfl
  | addColumn column position => exact insertBehind_map _ _ _
  | modifyColumn column position =>
    rw [columnsStep, orderStep, moveBehind]
    obtain hnone | ⟨old, hold⟩ :=
      Option.eq_none_or_eq_some (columns.find? fun other ↦ other.name == column.name)
    · have hnot : column.name ∉ columns.map (·.name) := by
        rw [← find?_name_isSome_iff, hnone]
        simp
      rw [hnone, if_neg hnot]
      rfl
    · have hin : column.name ∈ columns.map (·.name) := by
        rw [← find?_name_isSome_iff, hold]
        rfl
      have hfound : old.name = column.name := by simpa using List.find?_some hold
      have hname : (modifiedColumn (columnClauses column) old).name = column.name := hfound
      rw [hold, if_pos hin, Option.bind_some, insertBehind_map, eraseP_names, hname]
  | commentColumn name comment position =>
    rw [columnsStep, orderStep]
    split_ifs
    · exact congrArg some
        (@changeColumn_names name ({ · with comment := describedComment comment }) (fun _ ↦ rfl) columns)
    · rfl
  | dropColumn name position =>
    rw [columnsStep, orderStep]
    split_ifs
    · exact congrArg some (eraseP_names name columns)
    · rfl
  | _ => rfl

theorem TableRun.orderRun (h : TableRun table operations final) :
    OrderRun table.columnNames operations final.columnNames := by
  induction h with
  | done hnodup => exact .done hnodup
  | @step table next final operation operations hnodup hstep _ ih =>
    refine .step hnodup ?_ ih
    obtain ⟨columns, hcolumns, rfl⟩ := Option.map_eq_some_iff.1 hstep
    rw [TableSchema.columnNames, ← columnsStep_names, hcolumns]
    rfl

/-- A run of the names is one of the table. -/
theorem exists_tableRun {names finalNames : List String} (h : OrderRun names operations finalNames)
    (hnames : table.columnNames = names) :
    ∃ final, TableRun table operations final ∧ final.columnNames = finalNames := by
  induction h generalizing table with
  | done hnodup =>
    subst hnames
    exact ⟨table, .done hnodup, rfl⟩
  | step hnodup hstep _ ih =>
    subst hnames
    rw [TableSchema.columnNames, ← columnsStep_names] at hstep
    obtain ⟨columns, hcolumns, rfl⟩ := Option.map_eq_some_iff.1 hstep
    obtain ⟨final, hrun, hfinal⟩ := @ih { propertiesStep table _ with columns := columns } rfl
    exact ⟨final, .step hnodup (by rw [tableStep, hcolumns]; rfl) hrun, hfinal⟩

/-! ### What a statement does to one column -/

/-- What a statement other than RENAME does to the column with a name. -/
def columnEffect (name : String) (operation : AlterOperation) (column : Option ColumnSchema) :
    Option ColumnSchema :=
  match operation with
  | .addColumn added _ => if added.name = name then some (addedColumn name (columnClauses added)) else column
  | .modifyColumn desired .. =>
    if desired.name = name then column.map (modifiedColumn (columnClauses desired)) else column
  | .commentColumn commented comment _ =>
    if commented = name then column.map ({ · with comment := describedComment comment }) else column
  | .dropColumn dropped _ => if dropped = name then none else column
  | _ => column

/-- An operation that renames nothing. -/
def AlterOperation.isRename : AlterOperation → Bool
  | .renameColumn .. => true
  | _ => false

theorem find?_insertBehind {position : Option String} {column : ColumnSchema}
    {columns columns' : List ColumnSchema} {name : String} (hnew : column.name ∉ columns.map (·.name))
    (h : insertBehind (·.name) position column columns = some columns') :
    columns'.find? (·.name == name) =
      if column.name = name then some column else columns.find? (·.name == name) := by
  have hnone : columns.find? (·.name == column.name) = none := by
    rw [List.find?_eq_none]
    intro other hother heq
    exact hnew (List.mem_map.2 ⟨other, hother, by simpa using heq⟩)
  have hsplit : ∃ before after, columns = before ++ after ∧ columns' = before ++ column :: after := by
    cases position with
    | none =>
      cases h
      exact ⟨[], columns, rfl, rfl⟩
    | some k =>
      obtain ⟨before, y, after, rfl, -, -, rfl⟩ := behind_eq_some_iff.1 h
      exact ⟨before ++ [y], after, by simp, by simp⟩
  obtain ⟨before, after, rfl, rfl⟩ := hsplit
  rw [List.find?_append, List.find?_append, List.find?_cons]
  by_cases hname : column.name = name
  · subst hname
    rw [List.find?_append, Option.or_eq_none_iff] at hnone
    simp [hnone.1]
  · have hne : (column.name == name) = false := by simpa using hname
    rw [hne, if_neg hname]

theorem find?_eraseP {name other : String} {columns : List ColumnSchema}
    (hnodup : (columns.map (·.name)).Nodup) :
    (columns.eraseP (·.name == other)).find? (·.name == name) =
      if other = name then none else columns.find? (·.name == name) := by
  induction columns with
  | nil => simp
  | cons column columns ih =>
    obtain ⟨hcolumn, hnodup⟩ := List.nodup_cons.1 hnodup
    by_cases hother : column.name = other
    · have heq : (column.name == other) = true := by simpa using hother
      rw [List.eraseP_cons, heq, cond_true, List.find?_cons]
      by_cases hname : other = name
      · rw [if_pos hname, List.find?_eq_none]
        intro found hfound heq'
        have hfound' : found.name = name := by simpa using heq'
        exact hcolumn (List.mem_map.2 ⟨found, hfound, hfound'.trans (hname.symm.trans hother.symm)⟩)
      · rw [if_neg hname]
        have hne : (column.name == name) = false := by simpa [hother] using hname
        rw [hne]
    · have hne : (column.name == other) = false := by simpa using hother
      rw [List.eraseP_cons, hne, cond_false, List.find?_cons, List.find?_cons, ih hnodup]
      by_cases hname : column.name = name
      · have hname' : other ≠ name := fun heq ↦ hother (hname.trans heq.symm)
        simp [hname, hname']
      · have hne' : (column.name == name) = false := by simpa using hname
        simp [hne']

theorem find?_changeColumn {name other : String} {change : ColumnSchema → ColumnSchema}
    {columns : List ColumnSchema} (h : ∀ column, (change column).name = column.name) :
    (changeColumn other change columns).find? (·.name == name) =
      if other = name then (columns.find? (·.name == name)).map change
      else columns.find? (·.name == name) := by
  induction columns with
  | nil => simp [changeColumn]
  | cons column columns ih =>
    rw [changeColumn, List.map_cons, List.find?_cons, List.find?_cons]
    rw [changeColumn] at ih
    by_cases hother : column.name = other
    · rw [if_pos hother, h column]
      by_cases hname : column.name = name
      · have hname' : other = name := hother.symm.trans hname
        simp [hname, hname']
      · have hne : (column.name == name) = false := by simpa using hname
        rw [hne, ih]
    · rw [if_neg hother]
      by_cases hname : column.name = name
      · have hname' : other ≠ name := fun heq ↦ hother (hname.trans heq.symm)
        simp [hname, hname']
      · have hne : (column.name == name) = false := by simpa using hname
        rw [hne, ih]

/-- A statement that renames nothing does to a column what `columnEffect` says. -/
theorem column?_tableStep {operation : AlterOperation} (hrename : operation.isRename = false)
    (hnodup : table.columnNames.Nodup) (hnext : next.columnNames.Nodup)
    (hstep : tableStep table operation = some next) (name : String) :
    next.column? name = columnEffect name operation (table.column? name) := by
  obtain ⟨columns, hcolumns, rfl⟩ := Option.map_eq_some_iff.1 hstep
  show columns.find? (·.name == name) = columnEffect name operation (table.columns.find? (·.name == name))
  cases operation with
  | renameColumn from_ to_ position => cases hrename
  | addColumn column position =>
    have horder := columnsStep_names table.columns (.addColumn column position)
    rw [hcolumns] at horder
    have hperm := insertBehind_perm horder.symm
    have hnew := (List.nodup_cons.1 (hperm.nodup_iff.1 hnext)).1
    have hfind := @find?_insertBehind _ (addedColumn column.name (columnClauses column)) _ _ name hnew hcolumns
    have hname : (addedColumn column.name (columnClauses column)).name = column.name := rfl
    rw [hfind, columnEffect, hname]
    split_ifs with heq
    · rw [heq]
    · rfl
  | modifyColumn desired position =>
    obtain ⟨old, hold, hinsert⟩ := Option.bind_eq_some_iff.1 hcolumns
    have hfound : old.name = desired.name := by simpa using List.find?_some hold
    have hname : (modifiedColumn (columnClauses desired) old).name = desired.name := hfound
    have hnew : (modifiedColumn (columnClauses desired) old).name ∉
        (table.columns.eraseP (·.name == desired.name)).map (·.name) := by
      rw [eraseP_names, hname]
      exact hnodup.not_mem_erase
    rw [find?_insertBehind hnew hinsert, columnEffect, hname, find?_eraseP hnodup]
    split_ifs with heq
    · rw [← heq, hold]
      rfl
    · rfl
  | commentColumn commented comment position =>
    rw [columnsStep] at hcolumns
    split_ifs at hcolumns
    cases hcolumns
    exact find?_changeColumn fun _ ↦ rfl
  | dropColumn dropped position =>
    rw [columnsStep] at hcolumns
    split_ifs at hcolumns
    cases hcolumns
    exact find?_eraseP hnodup
  | _ =>
    cases hcolumns
    rfl

/-- **What a run does to a column**: the effects of its statements in turn. -/
theorem TableRun.column? (h : TableRun table operations final)
    (hrename : ∀ operation ∈ operations, operation.isRename = false) (name : String) :
    final.column? name =
      operations.foldl (fun column operation ↦ columnEffect name operation column) (table.column? name) := by
  induction h with
  | done => rfl
  | step hnodup hstep hrest ih =>
    obtain ⟨hfirst, hrename⟩ := List.forall_mem_cons.1 hrename
    rw [ih hrename, List.foldl_cons, column?_tableStep hfirst hnodup hrest.orderRun.nodup hstep]

/-! ### Renames -/

/-- A run of renames gives each column another name and does nothing else. -/
theorem TableRun.renames (h : TableRun table operations final)
    (hrename : ∀ operation ∈ operations, operation.isRename = true) :
    ∃ renamed : String → String, final =
      { table with columns := table.columns.map fun column ↦ { column with name := renamed column.name } } := by
  induction h with
  | @done table =>
    refine ⟨id, ?_⟩
    have hid : (fun column : ColumnSchema ↦ { column with name := id column.name }) = id := rfl
    rw [hid, List.map_id]
  | @step table next final operation operations hnodup hstep _ ih =>
    obtain ⟨hfirst, hrename⟩ := List.forall_mem_cons.1 hrename
    obtain ⟨renamed, rfl⟩ := ih hrename
    cases operation with
    | renameColumn from_ to_ position =>
      obtain ⟨columns, hcolumns, rfl⟩ := Option.map_eq_some_iff.1 hstep
      rw [columnsStep] at hcolumns
      split_ifs at hcolumns
      cases hcolumns
      refine ⟨fun name ↦ renamed (if name = from_ then to_ else name), ?_⟩
      show ({ table with columns := _ } : TableSchema) = _
      congr 1
      rw [changeColumn, List.map_map]
      refine List.map_congr_left fun column _ ↦ ?_
      simp only [Function.comp_apply]
      split_ifs <;> rfl
    | _ => cases hfirst

/-- The columns after the renames of the plan. -/
theorem tableRun_renames (hrun : TableRun target.baseline (renamePlan target) next)
    (hnames : next.columnNames = target.renamedNames) :
    next = { target.baseline with columns := target.baseline.columns.map fun column ↦
      { column with name := target.renamed column.name } } := by
  have hall : ∀ operation ∈ renamePlan target, operation.isRename = true := by
    intro operation hmem
    obtain ⟨_, -, rfl⟩ := List.mem_map.1 hmem
    rfl
  obtain ⟨renamed, rfl⟩ := hrun.renames hall
  have heq : target.baseline.columnNames.map renamed = target.baseline.columnNames.map target.renamed := by
    rw [← AlterTableTarget.renamedNames, ← hnames]
    simp [TableSchema.columnNames]
  congr 1
  refine List.map_congr_left fun column hcolumn ↦ ?_
  rw [List.map_inj_left.1 heq column.name (List.mem_map_of_mem hcolumn)]

/-- The column that a column of the target is made of, under its new name. -/
def AlterTableTarget.source? (target : AlterTableTarget) (name : String) : Option ColumnSchema :=
  (target.sourceForTarget name).bind target.baselineByName

theorem column?_renamed (h : RenamesAccepted target) (hnodup : target.baseline.columnNames.Nodup)
    (name : String) :
    (target.baseline.columns.map fun column ↦
      { column with name := target.renamed column.name }).find? (·.name == name) =
        (target.source? name).map ({ · with name := name }) := by
  obtain hnone | ⟨source, hsource⟩ := Option.eq_none_or_eq_some (target.sourceForTarget name)
  · rw [AlterTableTarget.source?, hnone, Option.bind_none, Option.map_none, List.find?_eq_none]
    intro column hcolumn heq
    obtain ⟨old, hold, rfl⟩ := List.mem_map.1 hcolumn
    have hrenamed : target.renamed old.name = name := by simpa using heq
    rw [(sourceForTarget_eq_some_iff h).2 ⟨List.mem_map_of_mem hold, hrenamed⟩] at hnone
    cases hnone
  · obtain ⟨hmem, hrenamed⟩ := (sourceForTarget_eq_some_iff h).1 hsource
    obtain ⟨column, hcolumn, rfl⟩ := List.mem_map.1 hmem
    have hbaseline : target.baselineByName column.name = some column := lastNamed_of_mem hnodup hcolumn
    rw [AlterTableTarget.source?, hsource, Option.bind_some, hbaseline, Option.map_some]
    have hnodup' : ((target.baseline.columns.map fun column ↦
        ({ column with name := target.renamed column.name } : ColumnSchema)).map (·.name)).Nodup := by
      have hnames := renamedNames_nodup h hnodup
      rw [AlterTableTarget.renamedNames, TableSchema.columnNames, List.map_map] at hnames
      rw [List.map_map]
      exact hnames
    have hin := List.mem_map_of_mem (f := fun column : ColumnSchema ↦
      ({ column with name := target.renamed column.name } : ColumnSchema)) hcolumn
    have hfind := find?_of_mem hnodup' hin
    subst hrenamed
    exact hfind

end ClickHouse
