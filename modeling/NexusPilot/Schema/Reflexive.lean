import NexusPilot.Schema.Accounting

/-!
# The difference of a schema from itself

A table that is opened in the designer and saved as it is should need no change. `diffOf_self` says that
the comparison itself finds none. The checks before it do not let every schema through, though: for a
well-formed schema, `diff_self_iff` lists what they ask for beyond that. The first item is what describing
a table does not give: a primary key whose columns are in another order than in the table.
-/

namespace Schema

open Drivers Names

variable {orders : MapOrders} {schema : TableSchema} {options : TableUpdateDiffOptions}

/-! ### Well-formed schemas -/

/-- A constraint with what its kind needs: a reference has a table and columns, one for each column of the
constraint, a check has an expression, a unique constraint has columns. -/
def ValidConstraint (constraint : TableConstraintSchema) : Prop :=
  (∀ target, constraint.foreignKey = some target → NamedReference target) ∧
    constraintComplaint (plainConstraint constraint) = none

/-- The constraints of a schema that are no primary key. -/
def TableSchema.nonPrimaryConstraints (schema : TableSchema) : List TableConstraintSchema :=
  schema.constraints.filter (·.kind ≠ .primaryKey)

/-- The names of the columns that are marked as the primary key, in the order of the table. -/
def TableSchema.flaggedColumns (schema : TableSchema) : List String :=
  (schema.columns.filter (·.isPrimaryKey)).map (·.name)

/-- A schema of the shape that describing a table returns. -/
structure WellFormed (schema : TableSchema) : Prop where
  columns : Named schema.columnNames
  indexes : Named (schema.indexes.map (·.name))
  constraints : Named (schema.nonPrimaryConstraints.map (·.name))
  valid : ∀ constraint ∈ schema.nonPrimaryConstraints, ValidConstraint constraint
  onePrimaryKey : (schema.constraints.filter (·.kind = .primaryKey)).length ≤ 1
  indexReferences : ∀ index ∈ schema.indexes, ∀ column ∈ index.columns, column ∈ schema.columnNames
  constraintReferences : ∀ constraint ∈ schema.constraints, ∀ column ∈ constraint.columns,
    column ∈ schema.columnNames
  flags : ∀ constraint ∈ schema.constraints, constraint.kind = .primaryKey →
    ∀ column ∈ schema.columns, column.isPrimaryKey ↔ column.name ∈ constraint.columns

/-! ### The comparison finds nothing -/

@[simp]
theorem changeIf_self {β γ : Type} [DecidableEq β] (value : β) (change : γ) :
    changeIf value value change = none := by
  simp [changeIf]

@[simp]
theorem changedTo_self (value : Option String) : changedTo value value = none := by
  simp [changedTo]

@[simp]
theorem pairDelta_self (column : TableColumnSchema) : pairDelta column column = {} := by
  simp [pairDelta]

@[simp]
theorem indexChanged_self (index : TableIndexSchema) : indexChanged index index = false := by
  simp [indexChanged]

/-- Without renames a column lives on as itself. -/
theorem partner_self (hnodup : schema.columnNames.Nodup) {column : TableColumnSchema}
    (h : column ∈ schema.columns) : partner schema [] column = some column := by
  have hkeys : ((schema.columns.map fun column ↦ (column.name, column)).map Prod.fst).Nodup := by
    simpa [TableSchema.columnNames, Function.comp_def] using hnodup
  have hlookup : (schema.columns.map fun column ↦ (column.name, column)).lookup column.name =
      some column := lookup_eq_some_of_mem hkeys (List.mem_map.2 ⟨column, h, rfl⟩)
  rwa [lookup_map_pair TableColumnSchema.name] at hlookup

theorem deltas_self (hnodup : schema.columnNames.Nodup) :
    schema.columns.map (deltaOf schema []) = schema.columns.map fun _ ↦ {} := by
  refine List.map_congr_left fun column hcolumn ↦ ?_
  rw [deltaOf, partner_self hnodup hcolumn]
  exact pairDelta_self column

theorem addedColumnsOf_self : addedColumnsOf schema schema [] = [] := by
  refine List.filter_eq_nil_iff.2 fun column hcolumn ↦ ?_
  have hmem : column.name ∈ schema.columnNames := List.mem_map_of_mem hcolumn
  simp [hmem]

theorem droppedConstraintsOf_self {entries : List (String × TableConstraintSchema)}
    (hnodup : (entries.map Prod.fst).Nodup) : droppedConstraintsOf orders entries entries = [] := by
  rw [droppedConstraintsOf, List.map_eq_nil_iff]
  refine List.filter_eq_nil_iff.2 fun entry hentry ↦ ?_
  have hmem : entry ∈ entries := (orders.baseline.perm entries).mem_iff.1 hentry
  simp [lookup_eq_some_of_mem hnodup (k := entry.1) (v := entry.2) hmem]

theorem addedConstraintsOf_self {entries : List (String × TableConstraintSchema)}
    (hnodup : (entries.map Prod.fst).Nodup) : addedConstraintsOf orders entries entries = [] := by
  have hlookup : ∀ entry ∈ entries, entries.lookup entry.1 = some entry.2 := fun entry hentry ↦
    lookup_eq_some_of_mem hnodup hentry
  rw [addedConstraintsOf, List.append_eq_nil_iff, List.map_eq_nil_iff]
  refine ⟨List.filterMap_eq_nil_iff.2 fun entry hentry ↦ ?_, List.filter_eq_nil_iff.2 fun entry hentry ↦ ?_⟩
  · rw [hlookup entry ((orders.baseline.perm entries).mem_iff.1 hentry)]
    simp
  · rw [hlookup entry ((orders.target.perm entries).mem_iff.1 hentry)]
    simp

theorem lookup_indexEntries (hnodup : (schema.indexes.map (·.name)).Nodup) {index : TableIndexSchema}
    (h : index ∈ schema.indexes) : (indexEntries schema).lookup index.name = some index := by
  refine lookup_eq_some_of_mem ?_ (List.mem_map.2 ⟨index, h, rfl⟩)
  simpa [indexEntries, Function.comp_def] using hnodup

theorem droppedIndexesOf_self (hnodup : (schema.indexes.map (·.name)).Nodup) :
    droppedIndexesOf schema.indexes (indexEntries schema) = [] := by
  refine List.filter_eq_nil_iff.2 fun index hindex ↦ ?_
  simp [lookup_indexEntries hnodup hindex]

theorem addedIndexesOf_self (hnodup : (schema.indexes.map (·.name)).Nodup) :
    addedIndexesOf schema.indexes schema.indexes (indexEntries schema) (indexEntries schema) = [] := by
  rw [addedIndexesOf, List.append_eq_nil_iff]
  refine ⟨List.filterMap_eq_nil_iff.2 fun index hindex ↦ ?_, List.filter_eq_nil_iff.2 fun index hindex ↦ ?_⟩
  · simp [lookup_indexEntries hnodup hindex]
  · simp [lookup_indexEntries hnodup hindex]

/-- A schema with distinct names does not differ from itself. -/
theorem diffOf_self (hcolumns : schema.columnNames.Nodup)
    (hindexes : (schema.indexes.map (·.name)).Nodup)
    (hconstraints : ((constraintEntries schema).map Prod.fst).Nodup) :
    diffOf orders schema schema [] = {} := by
  simp [diffOf, deltas_self hcolumns, addedColumnsOf_self, droppedConstraintsOf_self hconstraints,
    addedConstraintsOf_self hconstraints, droppedIndexesOf_self hindexes, addedIndexesOf_self hindexes]

/-! ### What the checks ask for -/

theorem ensureSupportedColumnUpdate_self (column : TableColumnSchema) :
    ensureSupportedColumnUpdate column column = .ok () := by
  simp [ensureSupportedColumnUpdate]

/-- A column is compared with itself when its generation is a safe fragment. -/
theorem diffColumnPair_self_iff {column : TableColumnSchema} :
    (∃ delta, diffColumnPair options column column = .ok delta) ↔
      ∀ generated, column.generated = some generated → SafeFragment generated.expression := by
  simp only [diffColumnPair, bind_eq_ok_iff, ensureSupportedColumnUpdate_self,
    normalizedGeneratedColumn_eq_ok_iff]
  constructor
  · rintro ⟨_, _, -, _, ⟨hsafe, -⟩, -⟩
    exact hsafe
  · intro hsafe
    exact ⟨_, (), trivial, _, ⟨hsafe, rfl⟩, _, ⟨hsafe, rfl⟩, if_neg fun h ↦ h.1 rfl⟩

theorem validateReferences_eq_ok_iff {names columns : List String} {complaint : String → String} :
    validateReferences names complaint columns = .ok () ↔ ∀ column ∈ columns, column ∈ names := by
  rw [validateReferences, forM_eq_ok_iff]
  refine forall₂_congr fun column _ ↦ ?_
  by_cases h : column ∈ names
  · simp [h]
  · simp [h]

theorem WellFormed.references (h : WellFormed schema) :
    validateTargetColumnReferences schema.columns schema.indexes schema.constraints = .ok () := by
  refine bind_eq_ok_iff.2 ⟨(), forM_eq_ok_iff.2 fun index hindex ↦ ?_,
    forM_eq_ok_iff.2 fun constraint hconstraint ↦ ?_⟩
  · exact validateReferences_eq_ok_iff.2 (h.indexReferences index hindex)
  · exact validateReferences_eq_ok_iff.2 (h.constraintReferences constraint hconstraint)

/-- The primary key of a well-formed schema is accepted when its constraint lists the columns in the
order of the table, under names without surrounding white space. -/
theorem WellFormed.primaryKey_iff (h : WellFormed schema) :
    (∃ key, primaryKeyDefinition schema = .ok key) ↔
      ∀ constraint ∈ schema.constraints, constraint.kind = .primaryKey →
        constraint.columns.map trim = schema.flaggedColumns := by
  have hmem : ∀ constraint, constraint ∈ schema.constraints.filter (·.kind = .primaryKey) ↔
      constraint ∈ schema.constraints ∧ constraint.kind = .primaryKey := fun constraint ↦ by simp
  have hone := h.onePrimaryKey
  rw [primaryKeyDefinition]
  obtain ⟨keys, hfilter⟩ : ∃ keys, schema.constraints.filter (·.kind = .primaryKey) = keys := ⟨_, rfl⟩
  rcases keys with _ | ⟨constraint, _ | ⟨_, _⟩⟩
  · refine ⟨fun _ constraint hconstraint hkind ↦ ?_, fun _ ↦ ⟨_, by rw [hfilter]⟩⟩
    have := (hmem constraint).2 ⟨hconstraint, hkind⟩
    rw [hfilter] at this
    cases this
  · have hall : (∀ other ∈ schema.constraints, other.kind = .primaryKey →
        other.columns.map trim = schema.flaggedColumns) ↔
          constraint.columns.map trim = schema.flaggedColumns := by
      constructor
      · intro hall
        obtain ⟨hin, hkind⟩ := (hmem constraint).1 (by rw [hfilter]; exact List.mem_singleton_self _)
        exact hall constraint hin hkind
      · intro hkey other hother hkind
        have := (hmem other).2 ⟨hother, hkind⟩
        rw [hfilter, List.mem_singleton] at this
        rwa [this]
    obtain ⟨hin, hkind⟩ := (hmem constraint).1 (by rw [hfilter]; exact List.mem_singleton_self _)
    have hnamed : ∀ column ∈ constraint.columns, trim column ≠ "" := fun column hcolumn ↦
      h.columns.1 column (h.constraintReferences constraint hin column hcolumn)
    rw [hall, hfilter]
    simp only [bind_eq_ok_iff, mapM_normalizedNonEmptyIdentifier, ite_error_eq_ok_iff]
    constructor
    · rintro ⟨_, _, ⟨-, rfl⟩, hkey, -⟩
      by_cases hflags : schema.flaggedColumns = []
      · -- no column is marked, so the constraint has none
        rw [hflags, List.map_eq_nil_iff]
        refine List.eq_nil_iff_forall_not_mem.2 fun name hname ↦ ?_
        obtain ⟨column, hcolumn, rfl⟩ := List.mem_map.1 (h.constraintReferences constraint hin name hname)
        have hflag := (h.flags constraint hin hkind column hcolumn).2 hname
        have hmarked : column.name ∈ schema.flaggedColumns :=
          List.mem_map_of_mem (List.mem_filter.2 ⟨hcolumn, hflag⟩)
        rw [hflags] at hmarked
        cases hmarked
      · by_contra hne
        exact hkey ⟨hflags, fun heq ↦ hne heq.symm⟩
    · intro hkey
      exact ⟨_, _, ⟨hnamed, rfl⟩, fun hbad ↦ hbad.2 hkey.symm, rfl⟩
  · rw [hfilter] at hone
    simp at hone

/-- The other constraints of a well-formed schema are accepted when their names are distinct as lower-case
names and their expressions are safe. -/
theorem WellFormed.constraints_iff (h : WellFormed schema) :
    ConstraintsAccepted schema ↔
      (schema.nonPrimaryConstraints.map fun constraint ↦
          toAsciiLowercase (trim constraint.name)).Nodup ∧
        ∀ constraint ∈ schema.nonPrimaryConstraints, ∀ fragment,
          normalizedOptionalText constraint.expression = some fragment →
            unsafeFragment fragment = false := by
  rw [ConstraintsAccepted, and_comm]
  refine and_congr_right fun _ ↦ forall₂_congr fun constraint hconstraint ↦ ?_
  have hin : constraint ∈ schema.constraints := (List.mem_filter.1 hconstraint).1
  simp only [normalizedNonPrimaryConstraint_eq_ok_iff]
  constructor
  · rintro ⟨_, -, -, hsafe, -⟩
    exact hsafe
  · intro hsafe
    refine ⟨_, h.constraints.1 _ (List.mem_map_of_mem hconstraint), fun column hcolumn ↦ ?_, hsafe,
      (h.valid constraint hconstraint).1, (h.valid constraint hconstraint).2, rfl⟩
    exact h.columns.1 column (h.constraintReferences constraint hin column hcolumn)

/-- **A well-formed schema does not differ from itself exactly when** its primary key constraint lists the
columns in the order of the table, its other constraints have names that differ as trimmed lower-case
names, and the expressions of its constraints and generated columns hold no separator and no comment. -/
theorem diff_self_iff (h : WellFormed schema) :
    (∃ diff, diffTableSchemaForUpdateWithColumnRenames orders schema schema options [] = .ok diff ∧
        diff.isEmpty = true) ↔
      (∀ constraint ∈ schema.constraints, constraint.kind = .primaryKey →
          constraint.columns.map trim = schema.flaggedColumns) ∧
        (schema.nonPrimaryConstraints.map fun constraint ↦
          toAsciiLowercase (trim constraint.name)).Nodup ∧
        (∀ constraint ∈ schema.nonPrimaryConstraints, ∀ fragment,
          normalizedOptionalText constraint.expression = some fragment →
            unsafeFragment fragment = false) ∧
        ∀ column ∈ schema.columns, ∀ generated, column.generated = some generated →
          SafeFragment generated.expression := by
  simp only [diff_eq_ok_iff]
  constructor
  · rintro ⟨_, ⟨haccepted, -⟩, -⟩
    obtain ⟨hnames, hsafe⟩ := h.constraints_iff.1 haccepted.baselineConstraints
    refine ⟨h.primaryKey_iff.1 haccepted.baselineKey, hnames, hsafe, fun column hcolumn ↦ ?_⟩
    exact diffColumnPair_self_iff.1
      (haccepted.columns column hcolumn column (partner_self h.columns.2 hcolumn))
  · rintro ⟨hkey, hnames, hsafe, hgenerated⟩
    have hconstraints := h.constraints_iff.2 ⟨hnames, hsafe⟩
    have hkeys : ((constraintEntries schema).map Prod.fst).Nodup := by
      simpa [constraintEntries, Function.comp_def] using hconstraints.2
    refine ⟨_, ⟨?_, rfl⟩, by rw [diffOf_self h.columns.2 h.indexes.2 hkeys]; rfl⟩
    exact {
      same := if_pos rfl
      baselineColumns := h.columns
      targetColumns := h.columns
      references := h.references
      renames := ⟨by simp [movesOf], by simp [movesOf, oldsOf, effective],
        by simp [movesOf, newsOf, effective], List.nodup_nil, List.nodup_nil⟩
      partition := rfl
      baselineKey := h.primaryKey_iff.2 hkey
      targetKey := h.primaryKey_iff.2 hkey
      baselineConstraints := hconstraints
      targetConstraints := hconstraints
      columns := fun column hcolumn found hfound ↦ by
        rw [partner_self h.columns.2 hcolumn] at hfound
        cases hfound
        exact diffColumnPair_self_iff.2 (hgenerated column hcolumn)
      added := by simp [addedColumnsOf_self]
      baselineIndexes := h.indexes
      targetIndexes := h.indexes }

/-- A table with two key columns and a check, and the key columns in the given order in the constraint. -/
def keyedTable (key : List String) : TableSchema where
  basics := { tableName := "t", databaseName := "d", schemaName := "s" }
  columns := ["a", "b"].map fun name ↦
    { name := name, typeName := "int", nullable := false, isPrimaryKey := true }
  indexes := []
  constraints := [{ name := "PRIMARY", kind := .primaryKey, columns := key },
    { name := "positive", kind := .check, columns := [], expression := some "a > 0" }]

theorem wellFormed_keyedTable {key : List String} (hkey : ∀ name, name ∈ key ↔ name ∈ ["a", "b"]) :
    WellFormed (keyedTable key) where
  columns := by
    show Named ["a", "b"]
    decide
  indexes := by
    show Named []
    decide
  constraints := by
    show Named ["positive"]
    decide
  valid constraint hconstraint := by
    obtain rfl : constraint =
        { name := "positive", kind := .check, columns := [], expression := some "a > 0" } := by
      simpa [keyedTable, TableSchema.nonPrimaryConstraints] using hconstraint
    exact ⟨by simp, by decide⟩
  onePrimaryKey := le_rfl
  indexReferences _ h := nomatch h
  constraintReferences constraint hconstraint column hcolumn := by
    simp only [keyedTable, List.mem_cons, List.not_mem_nil, or_false] at hconstraint
    obtain rfl | rfl := hconstraint
    · exact (hkey column).1 hcolumn
    · cases hcolumn
  flags constraint hconstraint hkind column hcolumn := by
    simp only [keyedTable, List.mem_cons, List.not_mem_nil, or_false] at hconstraint
    obtain rfl | rfl := hconstraint
    · obtain ⟨name, hname, rfl⟩ := List.mem_map.1 hcolumn
      simpa using (hkey name).2 hname
    · cases hkind

/-- A key in the order of the table. -/
theorem diff_self_keyedTable : ∃ diff, diffTableSchemaForUpdateWithColumnRenames .insertion
    (keyedTable ["a", "b"]) (keyedTable ["a", "b"]) ⟨true⟩ [] = .ok diff ∧ diff.isEmpty = true := by
  refine (diff_self_iff (wellFormed_keyedTable fun _ ↦ Iff.rfl)).2 ⟨?_, by decide, ?_, ?_⟩
  · intro constraint hconstraint hkind
    simp only [keyedTable, List.mem_cons, List.not_mem_nil, or_false] at hconstraint
    obtain rfl | rfl := hconstraint
    · decide
    · cases hkind
  · intro constraint hconstraint fragment hfragment
    obtain rfl : constraint =
        { name := "positive", kind := .check, columns := [], expression := some "a > 0" } := by
      simpa [keyedTable, TableSchema.nonPrimaryConstraints] using hconstraint
    obtain rfl : "a > 0" = fragment := Option.some.inj (hfragment ▸ by decide)
    decide
  · intro column hcolumn generated hgenerated
    obtain ⟨name, -, rfl⟩ := List.mem_map.1 hcolumn
    cases hgenerated

/-- A key in another order than that of the table is refused, although nothing changes. -/
theorem not_diff_self_keyedTable : WellFormed (keyedTable ["b", "a"]) ∧
    ¬ ∃ diff, diffTableSchemaForUpdateWithColumnRenames .insertion (keyedTable ["b", "a"])
      (keyedTable ["b", "a"]) ⟨true⟩ [] = .ok diff ∧ diff.isEmpty = true := by
  have herror : diffTableSchemaForUpdateWithColumnRenames .insertion (keyedTable ["b", "a"])
      (keyedTable ["b", "a"]) ⟨true⟩ [] = .error (.invalid "列定义中的主键与约束区主键不一致") := by
    decide
  refine ⟨wellFormed_keyedTable fun name ↦ ?_, ?_⟩
  · simp [or_comm]
  · rintro ⟨diff, hok, -⟩
    rw [herror] at hok
    cases hok

end Schema
