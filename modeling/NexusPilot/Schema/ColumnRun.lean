import NexusPilot.Mysql.UpdateTable
import NexusPilot.Postgres.UpdateTable
import NexusPilot.Schema.Accounting

/-!
# Running the statements of a table update

The statements of an update run one by one on the table's columns: columns are added first, then moved and
altered, then dropped. Both drivers are instances of one schedule, with their own list of moves, and
`columnsReached_iff` says exactly when the run finds every name that it needs, takes no name that is taken,
and ends with the target's columns, each original one under the name that the renames give it.
-/

namespace Schema

open Drivers Names

theorem flatMap_none {β γ : Type} (l : List β) : (l.flatMap fun _ ↦ ([] : List γ)) = [] :=
  List.flatMap_eq_nil_iff.2 fun _ _ ↦ rfl

theorem flatMap_ite_singleton {β γ : Type} (p : β → Prop) [DecidablePred p] (f : β → γ) (l : List β) :
    (l.flatMap fun item ↦ if p item then [f item] else []) = (l.filter p).map f := by
  induction l with
  | nil => rfl
  | cons item l ih =>
    by_cases h : p item
    · simp [h, ih]
    · simp [h, ih]

/-- What the order of a driver's moves, and the names of the request, must satisfy. -/
structure ColumnsReachable (baseline target : TableSchema) (columnRenames : List TableColumnRename)
    (moves : List (String × String)) : Prop where
  made : ∀ m ∈ effective (movesOf columnRenames), m ∈ moves
  inOrder : InOrder
    (baseline.columnNames ++ (addedColumnsOf baseline target columnRenames).map (·.name)) moves
  refilled : ∀ o ∈ oldsOf (movesOf columnRenames), o ∈ target.columnNames →
    o ∈ newsOf (movesOf columnRenames)
  trimmed : ∀ x ∈ baseline.columnNames, rename (movesOf columnRenames) x ∉ target.columnNames →
    trim x = x

variable {baseline target : TableSchema} {options : TableUpdateDiffOptions}
  {columnRenames : List TableColumnRename}

/-- The schedule of an accepted request reaches the target exactly when it is reachable by its moves. -/
theorem Accepted.reaches_iff (orders : MapOrders)
    (h : Accepted baseline target options columnRenames)
    {moves : List (String × String)} (hsub : ∀ m ∈ effective moves, m ∈ movesOf columnRenames)
    (hnodup : (effective moves).Nodup) {steps : List (Step String)}
    (hsteps : run steps (.of baseline.columnNames) =
      run (((diffOf orders baseline target columnRenames).addedColumns.map (·.name)).map .add ++
        moves.map (fun m ↦ .move m.1 m.2) ++
        ((diffOf orders baseline target columnRenames).droppedColumns.map (·.name)).map fun x ↦
          .drop (trim x)) (.of baseline.columnNames)) :
    Reaches steps baseline.columnNames target.columnNames (rename (movesOf columnRenames)) ↔
      ColumnsReachable baseline target columnRenames moves := by
  have hadded : (addedColumnsOf baseline target columnRenames).map (·.name) =
      h.renames.renaming.added baseline.columnNames target.columnNames := by
    have hnames : (diffOf orders baseline target columnRenames).addedColumns.map (·.name) = _ :=
      addedColumns_names h.renames
    exact hnames
  have hsub' : ∀ m ∈ effective moves, m ∈ h.renames.renaming.moves := fun m hm ↦
    mem_effective.2 ⟨hsub m hm, (mem_effective.1 hm).2⟩
  have hiff : Reaches (schedule h.renames.renaming baseline.columnNames target.columnNames moves trim)
      baseline.columnNames target.columnNames h.renames.renaming.apply ↔ _ :=
    reaches_schedule_iff h.renames.olds_mem h.renames.news_mem hsub' hnodup trim_trim
      h.baselineColumns.2 h.targetColumns.2
  rw [addedColumns_names h.renames, droppedColumns_names h.renames] at hsteps
  rw [Reaches, hsteps]
  rw [h.renames.apply_renaming] at hiff
  refine hiff.trans ⟨fun ⟨hmade, horder, hrefills, hclean⟩ ↦ ?_, fun hreach ↦ ?_⟩
  · refine ⟨fun m hm ↦ (mem_effective.1 (hmade m hm)).1, hadded ▸ horder, hrefills, fun x hx hdrop ↦ ?_⟩
    refine hclean x (Renaming.mem_dropped.2 ⟨hx, ?_⟩)
    rwa [h.renames.apply_renaming]
  · refine ⟨fun m hm ↦ mem_effective.2 ⟨hreach.made m hm, (mem_effective.1 hm).2⟩,
      hadded ▸ hreach.inOrder, hreach.refilled, fun x hx ↦ ?_⟩
    obtain ⟨hbefore, hdrop⟩ := Renaming.mem_dropped.1 hx
    rw [h.renames.apply_renaming] at hdrop
    exact hreach.trimmed x hbefore hdrop

end Schema

/-! ### MySQL -/

namespace Mysql

open Drivers Schema Names

/-- The moves that the MySQL statements make: first those of the columns whose definition changes, in the
order of the target, then the other renames, in the order of the request. -/
def columnMoves (diff : TableSchemaUpdateDiff) (target : TableSchema) : List (String × String) :=
  (changedColumns diff target).map
      (fun column ↦ ((renameByNewName diff column.name).getD column.name, column.name)) ++
    (diff.renamedColumns.filter (!handledRename diff target ·)).map fun rename ↦
      (rename.oldName, rename.newName)

variable {orders : MapOrders} {baseline target : TableSchema} {options : TableUpdateDiffOptions}
  {columnRenames : List TableColumnRename} {diff : TableSchemaUpdateDiff} {statements : List Statement}

theorem steps_primaryKeyStatements (change : Option PrimaryKeyChange) :
    (primaryKeyStatements change).flatMap Statement.steps = [] := by
  cases change with
  | none => rfl
  | some change =>
    rw [primaryKeyStatements]
    split_ifs <;> rfl

theorem steps_changeStatementOf (column : TableColumnSchema) :
    (changeStatementOf diff column).steps =
      [.move ((renameByNewName diff column.name).getD column.name) column.name] := by
  rw [changeStatementOf]
  cases renameByNewName diff column.name with
  | some old => rfl
  | none =>
    dsimp only
    split_ifs <;> rfl

/-- The steps of the statements are a schedule. -/
theorem steps_diffStatements (h : diffStatements diff target = .ok statements) :
    statements.flatMap Statement.steps =
      (diff.addedColumns.map (·.name)).map .add ++
        (columnMoves diff target).map (fun m ↦ .move m.1 m.2) ++
        (diff.droppedColumns.map (·.name)).map fun x ↦ .drop (trim x) := by
  obtain ⟨-, rfl⟩ := of_diffStatements h
  have hcharset : (if diff.tableCharsetChange = none ∧ diff.tableCollationChange = none then []
      else [Statement.tableCharset (diff.tableCharsetChange.map trim)
        (diff.tableCollationChange.map trim)]).flatMap Statement.steps = [] := by
    split_ifs <;> rfl
  simp only [statementsOf, columnMoves, List.flatMap_append, List.flatMap_map, hcharset,
    steps_primaryKeyStatements, steps_changeStatementOf]
  simp only [Statement.steps, flatMap_none, ← List.map_eq_flatMap]
  simp [Function.comp_def]

theorem mem_of_renameByNewName {name old : String} (h : renameByNewName diff name = some old) :
    (⟨old, name⟩ : ColumnRenameChange) ∈ diff.renamedColumns := by
  obtain ⟨rename, hfind, rfl⟩ := Option.map_eq_some_iff.1 h
  obtain rfl : rename.newName = name := by simpa using List.find?_some hfind
  exact List.mem_reverse.1 (List.mem_of_find?_eq_some hfind)

/-- Every move that changes a name is one of the renames. -/
theorem mem_of_mem_effective_columnMoves {m : String × String}
    (h : m ∈ effective (columnMoves diff target)) :
    m ∈ diff.renamedColumns.map fun rename ↦ (rename.oldName, rename.newName) := by
  obtain ⟨hm, hne⟩ := mem_effective.1 h
  obtain hm | hm := List.mem_append.1 hm
  · obtain ⟨column, -, rfl⟩ := List.mem_map.1 hm
    cases hrename : renameByNewName diff column.name with
    | none => simp [hrename] at hne
    | some old => exact List.mem_map.2 ⟨⟨old, column.name⟩, mem_of_renameByNewName hrename, rfl⟩
  · obtain ⟨rename, hrename, rfl⟩ := List.mem_map.1 hm
    exact List.mem_map_of_mem (List.mem_filter.1 hrename).1

/-- No move is made twice: a rename that is part of the change of a definition is not made again. -/
theorem nodup_effective_columnMoves (hnames : target.columnNames.Nodup)
    (hnews : (newsOf (diff.renamedColumns.map fun rename ↦ (rename.oldName, rename.newName))).Nodup) :
    (effective (columnMoves diff target)).Nodup := by
  refine List.Nodup.of_map Prod.snd ?_
  rw [columnMoves, effective_append, List.map_append, List.nodup_append']
  refine ⟨?_, ?_, fun n hchange hrename ↦ ?_⟩
  · refine (hnames.sublist ?_)
    refine (List.filter_sublist.map _).trans ?_
    rw [List.map_map]
    exact (List.filter_sublist (l := target.columns)).map (·.name)
  · refine hnews.sublist ?_
    exact ((List.filter_sublist.map _).filter _).map _
  · obtain ⟨m, hm, rfl⟩ := List.mem_map.1 hchange
    obtain ⟨hm, hne⟩ := mem_effective.1 hm
    obtain ⟨column, hcolumn, rfl⟩ := List.mem_map.1 hm
    obtain ⟨m', hm', hsame⟩ := List.mem_map.1 hrename
    obtain ⟨rename, hfilter, rfl⟩ := List.mem_map.1 (mem_effective.1 hm').1
    obtain ⟨-, hhandled⟩ := List.mem_filter.1 hfilter
    have hsome : (renameByNewName diff column.name).isSome := by
      cases hrename : renameByNewName diff column.name with
      | none => simp [hrename] at hne
      | some old => rfl
    have htrue : handledRename diff target rename = true :=
      List.any_eq_true.2 ⟨column, hcolumn, by simpa [hsome] using hsame.symm⟩
    simp [htrue] at hhandled

/-- **The MySQL statements reach the target exactly when it is reachable by their moves.** -/
theorem reaches_iff {input : UpdateTableInput} {defaultDatabase : Option String}
    {database table : String}
    (h : updateTableStatements orders input defaultDatabase = .ok (database, table, statements)) :
    Reaches (statements.flatMap Statement.steps) input.baseline.columnNames input.target.columnNames
        (rename (movesOf input.columnRenames)) ↔
      ColumnsReachable input.baseline input.target input.columnRenames
        (columnMoves (diffOf orders input.baseline input.target input.columnRenames) input.target) := by
  obtain ⟨_, -, h⟩ := exists_of_bind_eq_ok h
  obtain ⟨diff, hdiff, h⟩ := exists_of_bind_eq_ok h
  obtain ⟨-, h⟩ := ite_error_eq_ok_iff.1 h
  obtain ⟨_, hstatements, h⟩ := exists_of_bind_eq_ok h
  cases h
  obtain ⟨haccepted, rfl⟩ := diff_eq_ok_iff.1 hdiff
  have hmoves : (diffOf orders input.baseline input.target input.columnRenames).renamedColumns.map
      (fun rename ↦ (rename.oldName, rename.newName)) = movesOf input.columnRenames := by
    simp [diffOf, movesOf]
  refine haccepted.reaches_iff orders (fun m hm ↦ ?_) ?_
    (congrArg (run · _) (steps_diffStatements hstatements))
  · rw [← hmoves]
    exact mem_of_mem_effective_columnMoves hm
  · refine nodup_effective_columnMoves haccepted.targetColumns.2 ?_
    rw [hmoves]
    exact haccepted.renames.news_nodup

end Mysql

/-! ### PostgreSQL -/

namespace Postgres

open Drivers Schema Names

/-- The columns that are named by a statement that leaves them under their name. -/
def namedColumns (diff : TableSchemaUpdateDiff) : List String :=
  diff.columnTypeChanges.map (trim ·.columnName) ++ diff.columnDefaultChanges.map (trim ·.columnName) ++
    diff.columnNullabilityChanges.map (trim ·.columnName) ++
    diff.columnCommentChanges.map (·.columnName) ++
    (diff.identityChanges.filter fun change ↦
      change.oldIdentity ≠ none ∨ change.newIdentity ≠ none).map (trim ·.columnName)

/-- The moves that the PostgreSQL statements make: the renames in the order of the request, then every
statement that only names a column. -/
def columnMoves (diff : TableSchemaUpdateDiff) : List (String × String) :=
  diff.renamedColumns.map (fun rename ↦ (rename.oldName, rename.newName)) ++
    (namedColumns diff).map fun name ↦ (name, name)

variable {orders : MapOrders} {diff : TableSchemaUpdateDiff} {target : TableSchema}
  {statements : List Statement}

theorem steps_addColumnStatementsOf (column : TableColumnSchema) :
    (addColumnStatementsOf column).flatMap Statement.steps = .add column.name ::
      if (normalizedOptionalText column.comment).isSome then [.move column.name column.name] else [] := by
  rw [addColumnStatementsOf]
  cases normalizedOptionalText column.comment with
  | none => rfl
  | some comment => rfl

theorem steps_defaultStatementOf (change : ColumnDefaultChange) :
    (defaultStatementOf change).steps = [.move (trim change.columnName) (trim change.columnName)] := by
  rw [defaultStatementOf]
  cases normalizedOptionalText change.defaultValue with
  | none => rfl
  | some value => rfl

theorem steps_identityStatementsOf (change : ColumnIdentityChange) :
    (identityStatementsOf change).flatMap Statement.steps =
      if change.oldIdentity ≠ none ∨ change.newIdentity ≠ none then
        [.move (trim change.columnName) (trim change.columnName)]
      else [] := by
  rw [identityStatementsOf]
  cases change.oldIdentity with
  | none =>
    cases change.newIdentity with
    | none => rfl
    | some identity => rfl
  | some oldIdentity =>
    cases change.newIdentity with
    | none => rfl
    | some newIdentity => rfl

theorem steps_primaryKeyStatementsOf (change : PrimaryKeyChange) :
    (primaryKeyStatementsOf change).flatMap Statement.steps = [] := by
  refine List.flatMap_eq_nil_iff.2 fun statement hstatement ↦ ?_
  obtain hdropped | hadded := List.mem_append.1 hstatement
  · split_ifs at hdropped
    · cases hdropped
    · obtain ⟨_, -, rfl⟩ := List.mem_map.1 hdropped
      rfl
  · split_ifs at hadded
    · cases hadded
    · obtain rfl := List.mem_singleton.1 hadded
      rfl

/-- The steps of the statements: additions, each with the use of its name, the moves, and the drops. -/
theorem steps_diffStatements (h : diffStatements diff target = .ok statements) :
    statements.flatMap Statement.steps =
      (diff.addedColumns.flatMap fun column ↦ .add column.name ::
        if (normalizedOptionalText column.comment).isSome then [.move column.name column.name] else []) ++
        (columnMoves diff).map (fun m ↦ .move m.1 m.2) ++
        (diff.droppedColumns.map (·.name)).map fun x ↦ .drop (trim x) := by
  simp only [(of_diffStatements h).2, statementsOf, List.flatMap_append, List.flatMap_map, List.flatMap_assoc,
    steps_addColumnStatementsOf, steps_defaultStatementOf, steps_identityStatementsOf,
    steps_primaryKeyStatementsOf]
  simp only [Statement.steps, flatMap_none, ← List.map_eq_flatMap, flatMap_ite_singleton]
  simp [columnMoves, namedColumns, Function.comp_def]

theorem effective_columnMoves : effective (columnMoves diff) =
    effective (diff.renamedColumns.map fun rename ↦ (rename.oldName, rename.newName)) := by
  have hnone : effective ((namedColumns diff).map fun name ↦ (name, name)) = [] :=
    List.filter_eq_nil_iff.2 (by simp)
  rw [columnMoves, effective_append, hnone, List.append_nil]

/-- **The PostgreSQL statements reach the target exactly when it is reachable by their moves.** -/
theorem reaches_iff {input : UpdateTableInput} {defaultDatabase defaultSchema database schema table : String}
    (h : updateStatements orders input defaultDatabase defaultSchema =
      .ok (database, schema, table, statements)) :
    Reaches (statements.flatMap Statement.steps) input.baseline.columnNames input.target.columnNames
        (rename (movesOf input.columnRenames)) ↔
      ColumnsReachable input.baseline input.target input.columnRenames
        (columnMoves (diffOf orders input.baseline input.target input.columnRenames)) := by
  obtain ⟨_, -, h⟩ := exists_of_bind_eq_ok h
  obtain ⟨diff, hdiff, h⟩ := exists_of_bind_eq_ok h
  obtain ⟨-, h⟩ := ite_error_eq_ok_iff.1 h
  obtain ⟨_, hstatements, h⟩ := exists_of_bind_eq_ok h
  cases h
  obtain ⟨haccepted, rfl⟩ := diff_eq_ok_iff.1 hdiff
  have hmoves : (diffOf orders input.baseline input.target input.columnRenames).renamedColumns.map
      (fun rename ↦ (rename.oldName, rename.newName)) = movesOf input.columnRenames := by
    simp [diffOf, movesOf]
  refine haccepted.reaches_iff orders (fun m hm ↦ ?_) ?_ ?_
  · rw [effective_columnMoves, hmoves] at hm
    exact (mem_effective.1 hm).1
  · rw [effective_columnMoves, hmoves]
    exact haccepted.renames.olds_nodup.of_map
  · rw [steps_diffStatements hstatements, List.append_assoc, List.append_assoc, run_append, run_append,
      run_add_used]

end Postgres

namespace Schema

open Drivers Names

/-- **An update reaches the target's columns exactly when**, with its driver's moves, every rename that
changes a name is made, each move finds its names in turn, every old name that is still a target column is
given again, and the columns that are dropped have trimmed names. -/
theorem columnsReached_iff {orders : MapOrders} {input : UpdateTableInput} :
    (∀ defaultDatabase database table statements,
      Mysql.updateTableStatements orders input defaultDatabase = .ok (database, table, statements) →
        (Reaches (statements.flatMap Mysql.Statement.steps) input.baseline.columnNames
            input.target.columnNames (rename (movesOf input.columnRenames)) ↔
          ColumnsReachable input.baseline input.target input.columnRenames (Mysql.columnMoves
            (diffOf orders input.baseline input.target input.columnRenames) input.target))) ∧
    ∀ defaultDatabase defaultSchema database schema table statements,
      Postgres.updateStatements orders input defaultDatabase defaultSchema =
          .ok (database, schema, table, statements) →
        (Reaches (statements.flatMap Postgres.Statement.steps) input.baseline.columnNames
            input.target.columnNames (rename (movesOf input.columnRenames)) ↔
          ColumnsReachable input.baseline input.target input.columnRenames (Postgres.columnMoves
            (diffOf orders input.baseline input.target input.columnRenames))) :=
  ⟨fun _ _ _ _ ↦ Mysql.reaches_iff, fun _ _ _ _ _ _ ↦ Postgres.reaches_iff⟩

/-- A request to update a table. -/
def updateInput (baseline target : List String) (columnRenames : List TableColumnRename) :
    UpdateTableInput where
  container := ⟨.table, some "d", some "s", some "t", none⟩
  baseline := plainTable baseline
  target := plainTable target
  columnRenames := columnRenames
  confirmDestructive := false

/-- A chain of renames that starts at its free end, with a column dropped and one added. -/
def chainInput : UpdateTableInput :=
  updateInput ["a", "b", "x"] ["b", "c", "y"] [⟨"b", "c"⟩, ⟨"a", "b"⟩]

/-- The chain is run by both drivers. -/
theorem columnsReached_chain :
    (∃ statements, Mysql.updateTableStatements .insertion chainInput none = .ok ("d", "t", statements) ∧
      Reaches (statements.flatMap Mysql.Statement.steps) chainInput.baseline.columnNames
        chainInput.target.columnNames (rename (movesOf chainInput.columnRenames))) ∧
    ∃ statements, Postgres.updateStatements .insertion chainInput "d" "s" =
        .ok ("d", "s", "t", statements) ∧
      Reaches (statements.flatMap Postgres.Statement.steps) chainInput.baseline.columnNames
        chainInput.target.columnNames (rename (movesOf chainInput.columnRenames)) := by
  have hmysql : Mysql.updateTableStatements .insertion chainInput none = .ok ("d", "t",
      [.addColumn "y" "`y` int NULL", .renameColumn "b" "c", .renameColumn "a" "b",
        .dropColumn "x"]) := by
    decide
  have hpostgres : Postgres.updateStatements .insertion chainInput "d" "s" = .ok ("d", "s", "t",
      [.addColumn "y" "\"y\" int", .renameColumn "b" "c", .renameColumn "a" "b", .dropColumn "x"]) := by
    decide
  refine ⟨⟨_, hmysql, (columnsReached_iff.1 _ _ _ _ hmysql).2 ?_⟩,
    ⟨_, hpostgres, (columnsReached_iff.2 _ _ _ _ _ _ hpostgres).2 ?_⟩⟩
  · exact ⟨by decide, by decide, by decide, by decide⟩
  · exact ⟨by decide, by decide, by decide, by decide⟩

/-- Two columns that change names. -/
def swapInput : UpdateTableInput :=
  updateInput ["a", "b"] ["a", "b"] [⟨"a", "b"⟩, ⟨"b", "a"⟩]

/-- A swap is neither refused nor run: the first rename takes a name that is still there. -/
theorem not_columnsReached_swap :
    (∃ statements, Mysql.updateTableStatements .insertion swapInput none = .ok ("d", "t", statements) ∧
      ¬ Reaches (statements.flatMap Mysql.Statement.steps) swapInput.baseline.columnNames
        swapInput.target.columnNames (rename (movesOf swapInput.columnRenames))) ∧
    ∃ statements, Postgres.updateStatements .insertion swapInput "d" "s" =
        .ok ("d", "s", "t", statements) ∧
      ¬ Reaches (statements.flatMap Postgres.Statement.steps) swapInput.baseline.columnNames
        swapInput.target.columnNames (rename (movesOf swapInput.columnRenames)) := by
  have hrun : (run [.move "a" "b", .move "b" "a"] (.of swapInput.baseline.columnNames)).isNone := by
    decide
  refine ⟨⟨[.renameColumn "a" "b", .renameColumn "b" "a"], by decide, ?_⟩,
    ⟨[.renameColumn "a" "b", .renameColumn "b" "a"], by decide, ?_⟩⟩
  · rintro ⟨t, hsome, -⟩
    change run [.move "a" "b", .move "b" "a"] _ = some t at hsome
    rw [hsome] at hrun
    cases hrun
  · rintro ⟨t, hsome, -⟩
    change run [.move "a" "b", .move "b" "a"] _ = some t at hsome
    rw [hsome] at hrun
    cases hrun

end Schema
