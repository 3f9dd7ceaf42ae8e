import NexusPilot.Schema.DiffSpec

/-!
# The difference accounts for the columns

A difference lists the baseline columns that are dropped, the renames, and the target columns that are
added. Read together they should turn the baseline's column names into the target's. They do exactly when
the renames that change a name **vacate** every baseline name that they take and **refill** every old name
that is still a target column; `validate_column_renames` asks for neither.
-/

namespace Schema

open Drivers Names

variable {orders : MapOrders} {baseline target : TableSchema} {options : TableUpdateDiffOptions}
  {columnRenames : List TableColumnRename} {diff : TableSchemaUpdateDiff}

/-- Removing the dropped columns from the baseline's names, renaming the others simultaneously and adding
the added columns gives the target's names, and no two of the others get one name. -/
def TableSchemaUpdateDiff.AccountsForColumns (diff : TableSchemaUpdateDiff)
    (baseline target : TableSchema) : Prop :=
  Accounts baseline.columnNames target.columnNames (diff.droppedColumns.map (·.name))
    (diff.addedColumns.map (·.name))
    (rename (diff.renamedColumns.map fun change ↦ (change.oldName, change.newName)))

theorem partner_eq_none_iff {column : TableColumnSchema} :
    partner target columnRenames column = none ↔
      rename (movesOf columnRenames) column.name ∉ target.columnNames := by
  rw [partner, List.find?_eq_none, TableSchema.columnNames, List.mem_map]
  constructor
  · rintro h ⟨found, hfound, hname⟩
    exact h found hfound (beq_iff_eq.2 hname.symm)
  · intro h found hfound hname
    exact h ⟨found, hfound, (beq_iff_eq.1 hname).symm⟩

theorem droppedColumn_deltaOf {column : TableColumnSchema} :
    (deltaOf target columnRenames column).droppedColumn =
      if partner target columnRenames column = none then some column else none := by
  rw [deltaOf]
  cases partner target columnRenames column with
  | none => rfl
  | some found => rfl

/-- The dropped columns are the baseline columns without a partner. -/
theorem droppedColumns_diffOf :
    (diffOf orders baseline target columnRenames).droppedColumns =
      baseline.columns.filter fun column ↦ partner target columnRenames column = none := by
  show (baseline.columns.map (deltaOf target columnRenames)).filterMap (·.droppedColumn) = _
  rw [List.filterMap_map, ← List.filterMap_eq_filter]
  refine List.filterMap_congr fun column _ ↦ ?_
  simp [droppedColumn_deltaOf, Option.guard]

theorem filter_columnNames (schema : TableSchema) (keep : String → Bool) :
    schema.columnNames.filter keep = (schema.columns.filter fun column ↦ keep column.name).map (·.name) :=
  List.filter_map ..

/-- The names of the dropped columns, for accepted renames. -/
theorem droppedColumns_names
    (h : RenamesAccepted (movesOf columnRenames) baseline.columnNames target.columnNames) :
    (diffOf orders baseline target columnRenames).droppedColumns.map (·.name) =
      h.renaming.dropped baseline.columnNames target.columnNames := by
  rw [droppedColumns_diffOf, Renaming.dropped, h.apply_renaming, filter_columnNames]
  refine congrArg _ (List.filter_congr fun column _ ↦ ?_)
  simp [partner_eq_none_iff]

/-- The names of the added columns, for accepted renames. -/
theorem addedColumns_names
    (h : RenamesAccepted (movesOf columnRenames) baseline.columnNames target.columnNames) :
    (diffOf orders baseline target columnRenames).addedColumns.map (·.name) =
      h.renaming.added baseline.columnNames target.columnNames := by
  rw [Renaming.added, filter_columnNames]
  rfl

/-- **A difference accounts for the columns exactly when** every baseline name that a rename takes is
itself renamed away, and every name that is renamed away and still a target name is taken by a rename. -/
theorem accountsForColumns_iff
    (h : diffTableSchemaForUpdateWithColumnRenames orders baseline target options columnRenames =
      .ok diff) :
    diff.AccountsForColumns baseline target ↔
      (∀ n ∈ newsOf (movesOf columnRenames), n ∈ baseline.columnNames →
          n ∈ oldsOf (movesOf columnRenames)) ∧
        ∀ o ∈ oldsOf (movesOf columnRenames), o ∈ target.columnNames →
          o ∈ newsOf (movesOf columnRenames) := by
  obtain ⟨haccepted, rfl⟩ := diff_eq_ok_iff.1 h
  have hrenames := haccepted.renames
  have hmoves : (diffOf orders baseline target columnRenames).renamedColumns.map
      (fun change ↦ (change.oldName, change.newName)) = movesOf columnRenames := by
    simp [diffOf, movesOf]
  rw [TableSchemaUpdateDiff.AccountsForColumns, droppedColumns_names hrenames,
    addedColumns_names hrenames, hmoves, ← hrenames.apply_renaming]
  exact hrenames.renaming.accounts_iff hrenames.olds_mem hrenames.news_mem

/-- The maps iterated in the order of insertion. -/
def MapOrders.insertion : MapOrders :=
  ⟨⟨id, fun _ ↦ .rfl⟩, ⟨id, fun _ ↦ .rfl⟩⟩

/-- A table with integer columns of the given names. -/
def plainTable (names : List String) : TableSchema where
  basics := { tableName := "t", databaseName := "d", schemaName := "s" }
  columns := names.map fun name ↦ { name := name, typeName := "int" }
  indexes := []
  constraints := []

/-- A swap of two columns is accounted for. -/
theorem accountsForColumns_swap : ∃ diff, diffTableSchemaForUpdateWithColumnRenames .insertion
    (plainTable ["a", "b"]) (plainTable ["a", "b"]) ⟨true⟩ [⟨"a", "b"⟩, ⟨"b", "a"⟩] = .ok diff ∧
      diff.AccountsForColumns (plainTable ["a", "b"]) (plainTable ["a", "b"]) := by
  have h : diffTableSchemaForUpdateWithColumnRenames .insertion (plainTable ["a", "b"])
      (plainTable ["a", "b"]) ⟨true⟩ [⟨"a", "b"⟩, ⟨"b", "a"⟩] =
        .ok { renamedColumns := [⟨"a", "b"⟩, ⟨"b", "a"⟩] } := by
    decide
  exact ⟨_, h, (accountsForColumns_iff h).2 (by decide)⟩

/-- Renaming `a` to `b`, where `b` is a column and stays one, merges the two columns; where `a` stays a
target column as well, the target's `a` comes from nowhere. -/
theorem not_accountsForColumns :
    (∃ diff, diffTableSchemaForUpdateWithColumnRenames .insertion (plainTable ["a", "b"])
      (plainTable ["b"]) ⟨true⟩ [⟨"a", "b"⟩] = .ok diff ∧
        ¬ diff.AccountsForColumns (plainTable ["a", "b"]) (plainTable ["b"])) ∧
    ∃ diff, diffTableSchemaForUpdateWithColumnRenames .insertion (plainTable ["a"])
      (plainTable ["a", "b"]) ⟨true⟩ [⟨"a", "b"⟩] = .ok diff ∧
        ¬ diff.AccountsForColumns (plainTable ["a"]) (plainTable ["a", "b"]) := by
  refine ⟨⟨{ renamedColumns := [⟨"a", "b"⟩] }, by decide, fun h ↦ ?_⟩,
    ⟨{ renamedColumns := [⟨"a", "b"⟩] }, by decide, fun h ↦ ?_⟩⟩
  · exact absurd (h.2 "a" (by decide) "b" (by decide) (by decide) (by decide) (by decide))
      (by decide)
  · obtain ⟨x, hx, -, hrename⟩ | hadded := (h.1 "a").1 (by decide)
    · obtain rfl : x = "a" := by simpa [plainTable, TableSchema.columnNames] using hx
      exact absurd hrename (by decide)
    · simp at hadded

end Schema
