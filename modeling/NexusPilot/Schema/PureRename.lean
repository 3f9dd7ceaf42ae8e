import NexusPilot.Schema.Reflexive

/-!
# Pure renames

A target that is the baseline with some columns renamed, everywhere they are named. Columns are
compared through the renames, while primary keys, indexes and constraints are compared by the names of
both sides: so the difference is the renames and nothing else exactly when no renamed column takes part
in any of those.
-/

namespace Schema

open Drivers Names

variable {schema : TableSchema} {renames : List TableColumnRename} {orders : MapOrders}
  {options : TableUpdateDiffOptions}

/-! ### Rewriting a schema -/

/-- The renames as moves of names. -/
def rawMoves (renames : List TableColumnRename) : List (String × String) :=
  renames.map fun r ↦ (r.oldName, r.newName)

/-- The name that the renames give to a name. -/
def rewrite (renames : List TableColumnRename) : String → String :=
  rename (rawMoves renames)

/-- The names that the renames change. -/
def changedNames (renames : List TableColumnRename) : List String :=
  oldsOf (rawMoves renames)

/-- A constraint with its columns rewritten, and the columns of the references that `own` says are
references to the table itself. -/
def rewriteConstraint (renames : List TableColumnRename) (own : TableForeignKeyReference → Bool)
    (constraint : TableConstraintSchema) : TableConstraintSchema :=
  { constraint with
    columns := constraint.columns.map (rewrite renames)
    foreignKey := constraint.foreignKey.map fun reference ↦
      if own reference then { reference with columns := reference.columns.map (rewrite renames) }
      else reference }

def rewriteIndex (renames : List TableColumnRename) (index : TableIndexSchema) : TableIndexSchema :=
  { index with columns := index.columns.map (rewrite renames) }

def rewriteColumn (renames : List TableColumnRename) (column : TableColumnSchema) :
    TableColumnSchema :=
  { column with name := rewrite renames column.name }

/-- A schema with its column names and every list of them rewritten. -/
def TableSchema.rewritten (schema : TableSchema) (renames : List TableColumnRename)
    (own : TableForeignKeyReference → Bool) : TableSchema where
  basics := schema.basics
  columns := schema.columns.map (rewriteColumn renames)
  indexes := schema.indexes.map (rewriteIndex renames)
  constraints := schema.constraints.map (rewriteConstraint renames own)

/-- Renames of distinct names to distinct names that the schema does not have. -/
structure FreshRenames (schema : TableSchema) (renames : List TableColumnRename) : Prop where
  olds_nodup : (renames.map (·.oldName)).Nodup
  news_nodup : (renames.map (·.newName)).Nodup
  news_fresh : ∀ r ∈ renames, r.newName ∉ schema.columnNames

/-- No name that is changed is in the primary key, an index, a constraint or a reference that is
rewritten with it. -/
structure Untouched (schema : TableSchema) (renames : List TableColumnRename)
    (own : TableForeignKeyReference → Bool) : Prop where
  flags : ∀ name ∈ changedNames renames, name ∉ schema.flaggedColumns
  indexes : ∀ name ∈ changedNames renames, ∀ index ∈ schema.indexes, name ∉ index.columns
  constraints : ∀ name ∈ changedNames renames, ∀ constraint ∈ schema.constraints,
    name ∉ constraint.columns
  references : ∀ name ∈ changedNames renames, ∀ constraint ∈ schema.nonPrimaryConstraints,
    ∀ reference, constraint.foreignKey = some reference → own reference = true →
      name ∉ reference.columns

section Rewrite

variable (h : FreshRenames schema renames)

include h

/-- The renaming that fresh renames make. -/
def FreshRenames.renaming : Renaming String where
  moves := effective (rawMoves renames)
  ne _ hm := (mem_effective.1 hm).2
  olds_nodup := by
    refine List.Nodup.sublist (List.filter_sublist.map Prod.fst) ?_
    simpa [rawMoves, Function.comp_def] using h.olds_nodup
  news_nodup := by
    refine List.Nodup.sublist (List.filter_sublist.map Prod.snd) ?_
    simpa [rawMoves, Function.comp_def] using h.news_nodup

theorem FreshRenames.apply_renaming : h.renaming.apply = rewrite renames := by
  funext x
  have heff : effective (effective (rawMoves renames)) = effective (rawMoves renames) :=
    h.renaming.effective_moves
  rw [Renaming.apply, rewrite, rename, rename]
  exact congrArg (fun l : List (String × String) ↦ (l.lookup x).getD x) heff

theorem FreshRenames.rewrite_of_mem {m : String × String} (hm : m ∈ effective (rawMoves renames)) :
    rewrite renames m.1 = m.2 := by
  rw [← h.apply_renaming]
  exact Renaming.apply_of_mem hm

variable {x : String}

theorem FreshRenames.rewrite_of_not_mem (hx : x ∉ changedNames renames) :
    rewrite renames x = x := by
  rw [← h.apply_renaming]
  exact Renaming.apply_of_not_mem hx

theorem FreshRenames.rewrite_iff : rewrite renames x = x ↔ x ∉ changedNames renames := by
  refine ⟨fun hsame hx ↦ ?_, h.rewrite_of_not_mem⟩
  obtain ⟨m, hm, rfl⟩ := List.mem_map.1 hx
  rw [h.rewrite_of_mem hm] at hsame
  exact (mem_effective.1 hm).2 hsame.symm

/-- A name is kept by the rewriting, or gets a name that is not in the schema. -/
theorem FreshRenames.rewrite_cases (x : String) :
    rewrite renames x = x ∨ rewrite renames x ∉ schema.columnNames := by
  by_cases hx : x ∈ changedNames renames
  · obtain ⟨m, hm, rfl⟩ := List.mem_map.1 hx
    obtain ⟨r, hr, rfl⟩ := List.mem_map.1 (mem_effective.1 hm).1
    rw [h.rewrite_of_mem hm]
    exact .inr (h.news_fresh r hr)
  · exact .inl (h.rewrite_of_not_mem hx)

/-- Rewriting keeps the columns of the schema apart. -/
theorem FreshRenames.rewrite_injOn {y : String} (hx : x ∈ schema.columnNames) (hy : y ∈ schema.columnNames)
    (hsame : rewrite renames x = rewrite renames y) : x = y := by
  by_cases hox : x ∈ changedNames renames
  · obtain ⟨m, hm, rfl⟩ := List.mem_map.1 hox
    by_cases hoy : y ∈ changedNames renames
    · obtain ⟨m', hm', rfl⟩ := List.mem_map.1 hoy
      rw [h.rewrite_of_mem hm, h.rewrite_of_mem hm'] at hsame
      rw [List.inj_on_of_nodup_map h.renaming.news_nodup hm hm' hsame]
    · obtain hstays | hfresh := h.rewrite_cases m.1
      · exact absurd hox (h.rewrite_iff.1 hstays)
      · rw [hsame, h.rewrite_of_not_mem hoy] at hfresh
        exact absurd hy hfresh
  · obtain hstays | hfresh := h.rewrite_cases y
    · rwa [h.rewrite_of_not_mem hox, hstays] at hsame
    · rw [← hsame, h.rewrite_of_not_mem hox] at hfresh
      exact absurd hx hfresh

/-- A list of names stands for itself after a rewriting exactly when none of them is changed. -/
theorem FreshRenames.map_rewrite_iff {columns : List String} :
    columns.map (rewrite renames) = columns ↔ ∀ name ∈ changedNames renames, name ∉ columns := by
  calc columns.map (rewrite renames) = columns
      ↔ columns.map (rewrite renames) = columns.map id := by rw [List.map_id]
    _ ↔ ∀ x ∈ columns, rewrite renames x = x := List.map_inj_left
    _ ↔ ∀ x ∈ columns, x ∉ changedNames renames := forall₂_congr fun _ _ ↦ h.rewrite_iff
    _ ↔ ∀ name ∈ changedNames renames, name ∉ columns :=
      ⟨fun hall name hname hmem ↦ hall name hmem hname, fun hall x hx hname ↦ hall x hname hx⟩

/-- The same for lists that are compared trimmed. -/
theorem FreshRenames.map_trim_rewrite_iff
    (htrim : ∀ r ∈ renames, trim r.oldName = r.oldName ∧ trim r.newName = r.newName)
    {columns : List String} :
    (columns.map (rewrite renames)).map trim = columns.map trim ↔
      ∀ name ∈ changedNames renames, name ∉ columns := by
  have hone : ∀ x, trim (rewrite renames x) = trim x ↔ x ∉ changedNames renames := by
    refine fun x ↦ ⟨fun hsame hx ↦ ?_, fun hx ↦ by rw [h.rewrite_of_not_mem hx]⟩
    obtain ⟨m, hm, rfl⟩ := List.mem_map.1 hx
    obtain ⟨r, hr, rfl⟩ := List.mem_map.1 (mem_effective.1 hm).1
    rw [h.rewrite_of_mem hm, (htrim r hr).1, (htrim r hr).2] at hsame
    exact (mem_effective.1 hm).2 hsame.symm
  rw [List.map_map, List.map_inj_left]
  calc (∀ x ∈ columns, trim (rewrite renames x) = trim x)
      ↔ ∀ x ∈ columns, x ∉ changedNames renames := forall₂_congr fun x _ ↦ hone x
    _ ↔ ∀ name ∈ changedNames renames, name ∉ columns :=
      ⟨fun hall name hname hmem ↦ hall name hmem hname, fun hall x hx hname ↦ hall x hname hx⟩

end Rewrite

/-! ### The rewritten schema -/

variable {own : TableForeignKeyReference → Bool}

theorem columnNames_rewritten :
    (schema.rewritten renames own).columnNames = schema.columnNames.map (rewrite renames) := by
  simp [TableSchema.rewritten, TableSchema.columnNames, rewriteColumn, Function.comp_def]

theorem nonPrimaryConstraints_rewritten : (schema.rewritten renames own).nonPrimaryConstraints =
    schema.nonPrimaryConstraints.map (rewriteConstraint renames own) := by
  rw [TableSchema.nonPrimaryConstraints, TableSchema.rewritten, List.filter_map]
  rfl

theorem primaryKeys_rewritten :
    (schema.rewritten renames own).constraints.filter (·.kind = .primaryKey) =
      (schema.constraints.filter (·.kind = .primaryKey)).map (rewriteConstraint renames own) := by
  rw [TableSchema.rewritten, List.filter_map]
  rfl

theorem flaggedColumns_rewritten :
    (schema.rewritten renames own).flaggedColumns = schema.flaggedColumns.map (rewrite renames) := by
  simp [TableSchema.rewritten, TableSchema.flaggedColumns, List.filter_map, Function.comp_def,
    rewriteColumn]

theorem indexNames_rewritten :
    (schema.rewritten renames own).indexes.map (·.name) = schema.indexes.map (·.name) := by
  simp [TableSchema.rewritten, rewriteIndex, Function.comp_def]

/-! ### What the comparison sees -/

variable {constraint : TableConstraintSchema}

/-- A primary key constraint is accepted when it is the only one, names its columns and agrees with the
marks of the columns, if there are any. -/
theorem primaryKeyDefinition_of_singleton
    (hone : schema.constraints.filter (·.kind = .primaryKey) = [constraint]) :
    (∃ key, primaryKeyDefinition schema = .ok key) ↔
      (∀ column ∈ constraint.columns, trim column ≠ "") ∧
        (schema.flaggedColumns ≠ [] → schema.flaggedColumns = constraint.columns.map trim) := by
  rw [primaryKeyDefinition, hone]
  simp only [bind_eq_ok_iff, mapM_normalizedNonEmptyIdentifier, ite_error_eq_ok_iff]
  constructor
  · rintro ⟨_, _, ⟨hnamed, rfl⟩, hagree, -⟩
    exact ⟨hnamed, fun hflags ↦ not_not.1 fun hne ↦ hagree ⟨hflags, hne⟩⟩
  · rintro ⟨hnamed, hagree⟩
    exact ⟨_, _, ⟨hnamed, rfl⟩, fun hbad ↦ hbad.2 (hagree hbad.1), rfl⟩

section Compared

variable (h : FreshRenames schema renames)
  (htrim : ∀ r ∈ renames, trim r.oldName = r.oldName ∧ trim r.newName = r.newName)

include h htrim

/-- The primary key is accepted and stays what it is exactly when no renamed column is in it. -/
theorem FreshRenames.primaryKey_iff (hkey : ∃ key, primaryKeyDefinition schema = .ok key) :
    ((∃ key, primaryKeyDefinition (schema.rewritten renames own) = .ok key) ∧
        (primaryKeyOf (schema.rewritten renames own)).columns = (primaryKeyOf schema).columns) ↔
      ∀ name ∈ changedNames renames, name ∉ schema.flaggedColumns ∧
        ∀ constraint ∈ schema.constraints.filter (·.kind = .primaryKey),
          name ∉ constraint.columns := by
  have hkeys : (schema.rewritten renames own).constraints.filter (·.kind = .primaryKey) = _ :=
    primaryKeys_rewritten
  have hflags : (schema.rewritten renames own).flaggedColumns = _ := flaggedColumns_rewritten
  match hfilter : schema.constraints.filter (·.kind = .primaryKey) with
  | [] =>
    rw [hfilter, List.map_nil] at hkeys
    have hcolumns : (primaryKeyOf schema).columns = schema.flaggedColumns := by
      rw [primaryKeyOf, hfilter]
      rfl
    have hcolumns' : (primaryKeyOf (schema.rewritten renames own)).columns =
        schema.flaggedColumns.map (rewrite renames) := by
      rw [primaryKeyOf, hkeys, ← hflags]
      rfl
    have hok : ∃ key, primaryKeyDefinition (schema.rewritten renames own) = .ok key :=
      ⟨_, by rw [primaryKeyDefinition, hkeys]⟩
    rw [hfilter, hcolumns, hcolumns', h.map_rewrite_iff]
    exact ⟨fun hall name hname ↦ ⟨hall.2 name hname, by simp⟩,
      fun hall ↦ ⟨hok, fun name hname ↦ (hall name hname).1⟩⟩
  | [constraint] =>
    rw [hfilter, List.map_singleton] at hkeys
    have hcolumns : (primaryKeyOf schema).columns = constraint.columns.map trim := by
      rw [primaryKeyOf, hfilter]
    have hcolumns' : (primaryKeyOf (schema.rewritten renames own)).columns =
        (constraint.columns.map (rewrite renames)).map trim := by
      rw [primaryKeyOf, hkeys]
      rfl
    obtain ⟨hnamed, hagree⟩ := (primaryKeyDefinition_of_singleton hfilter).1 hkey
    rw [hfilter, primaryKeyDefinition_of_singleton hkeys, hcolumns, hcolumns', hflags,
      h.map_trim_rewrite_iff htrim]
    have hsame : (∀ name ∈ changedNames renames, name ∉ constraint.columns) →
        constraint.columns.map (rewrite renames) = constraint.columns := h.map_rewrite_iff.2
    constructor
    · rintro ⟨⟨-, hagree'⟩, huntouched⟩ name hname
      refine ⟨?_, by simpa using huntouched name hname⟩
      by_cases hflags : schema.flaggedColumns = []
      · simp [hflags]
      · -- both sides are the columns of the constraint
        have hstays : schema.flaggedColumns.map (rewrite renames) = schema.flaggedColumns := by
          have := hagree' (by simpa using hflags)
          rw [this, hagree hflags]
          exact (h.map_trim_rewrite_iff htrim).2 huntouched
        exact h.map_rewrite_iff.1 hstays name hname
    · intro hall
      have huntouched : ∀ name ∈ changedNames renames, name ∉ constraint.columns := fun name hname ↦
        (hall name hname).2 constraint (List.mem_singleton_self _)
      have hflags : schema.flaggedColumns.map (rewrite renames) = schema.flaggedColumns :=
        h.map_rewrite_iff.2 fun name hname ↦ (hall name hname).1
      refine ⟨?_, huntouched⟩
      show (∀ column ∈ constraint.columns.map (rewrite renames), trim column ≠ "") ∧
        (_ → _ = (constraint.columns.map (rewrite renames)).map trim)
      rw [hsame huntouched, hflags]
      exact ⟨hnamed, hagree⟩
  | _ :: _ :: _ =>
    obtain ⟨key, hkey⟩ := hkey
    rw [primaryKeyDefinition, hfilter] at hkey
    cases hkey

/-- A constraint is compared as equal exactly when no renamed column is in it or in a reference that is
rewritten with it. -/
theorem FreshRenames.plainConstraint_iff {constraint : TableConstraintSchema} :
    plainConstraint (rewriteConstraint renames own constraint) = plainConstraint constraint ↔
      ∀ name ∈ changedNames renames, name ∉ constraint.columns ∧ ∀ reference,
        constraint.foreignKey = some reference → own reference = true → name ∉ reference.columns := by
  have hreference : (rewriteConstraint renames own constraint).foreignKey.map plainForeignKey =
      constraint.foreignKey.map plainForeignKey ↔ ∀ name ∈ changedNames renames, ∀ reference,
        constraint.foreignKey = some reference → own reference = true → name ∉ reference.columns := by
    cases hkey : constraint.foreignKey with
    | none => simp [rewriteConstraint, hkey]
    | some reference =>
      cases hown : own reference with
      | false => simp [rewriteConstraint, hkey, hown]
      | true => simp [rewriteConstraint, hkey, hown, plainForeignKey, ← h.map_trim_rewrite_iff htrim]
  have hcolumns : (rewriteConstraint renames own constraint).columns.map trim =
      constraint.columns.map trim ↔ ∀ name ∈ changedNames renames, name ∉ constraint.columns :=
    h.map_trim_rewrite_iff htrim
  have hsplit :
      plainConstraint (rewriteConstraint renames own constraint) = plainConstraint constraint ↔
      (rewriteConstraint renames own constraint).columns.map trim = constraint.columns.map trim ∧
        (rewriteConstraint renames own constraint).foreignKey.map plainForeignKey =
          constraint.foreignKey.map plainForeignKey := by
    simp [plainConstraint, rewriteConstraint]
  rw [hsplit, hcolumns, hreference]
  exact ⟨fun ⟨hl, hr⟩ r hmem ↦ ⟨hl r hmem, hr r hmem⟩, fun hall ↦
    ⟨fun r hmem ↦ (hall r hmem).1, fun r hmem ↦ (hall r hmem).2⟩⟩

omit h in
/-- The moves of the renames are the renames. -/
theorem movesOf_eq_rawMoves : movesOf renames = rawMoves renames := by
  refine List.map_congr_left fun r hr ↦ ?_
  rw [(htrim r hr).1, (htrim r hr).2]

/-- A column lives on as the rewritten column. -/
theorem FreshRenames.partner_rewritten (hnodup : schema.columnNames.Nodup) {column : TableColumnSchema}
    (hcolumn : column ∈ schema.columns) :
    partner (schema.rewritten renames own) renames column = some (rewriteColumn renames column) := by
  have hkeys : (((schema.rewritten renames own).columns.map fun column ↦
      (column.name, column)).map Prod.fst).Nodup := by
    have hinj : (schema.rewritten renames own).columnNames.Nodup := by
      rw [columnNames_rewritten]
      exact List.Nodup.map_on (fun x hx y hy ↦ h.rewrite_injOn hx hy) hnodup
    simpa [TableSchema.columnNames, Function.comp_def] using hinj
  have hlookup : ((schema.rewritten renames own).columns.map fun column ↦ (column.name, column)).lookup
      (rewrite renames column.name) = some (rewriteColumn renames column) :=
    lookup_eq_some_of_mem hkeys
      (List.mem_map.2 ⟨_, List.mem_map_of_mem (f := rewriteColumn renames) hcolumn, rfl⟩)
  rw [lookup_map_pair TableColumnSchema.name] at hlookup
  rwa [partner, movesOf_eq_rawMoves htrim]

end Compared

theorem pairDelta_rewriteColumn (column : TableColumnSchema) :
    pairDelta column (rewriteColumn renames column) = {} := by
  have hidentity : normalizedColumnIdentity (rewriteColumn renames column) =
      normalizedColumnIdentity column := rfl
  simp only [pairDelta, hidentity]
  simp [rewriteColumn]

theorem ensureSupportedColumnUpdate_rewriteColumn (column : TableColumnSchema) :
    ensureSupportedColumnUpdate column (rewriteColumn renames column) = .ok () := by
  simp [ensureSupportedColumnUpdate, rewriteColumn]

/-- The constraints are compared as equal one by one. -/
theorem droppedConstraintsOf_rewritten (hnodup : ((constraintEntries schema).map Prod.fst).Nodup)
    (hnone : droppedConstraintsOf orders (constraintEntries schema)
      (constraintEntries (schema.rewritten renames own)) = [])
    (hconstraint : constraint ∈ schema.nonPrimaryConstraints) :
    plainConstraint (rewriteConstraint renames own constraint) = plainConstraint constraint := by
  have hentries : constraintEntries (schema.rewritten renames own) =
      schema.nonPrimaryConstraints.map fun constraint ↦
        (toAsciiLowercase (trim constraint.name),
          plainConstraint (rewriteConstraint renames own constraint)) := by
    rw [constraintEntries]
    exact (congrArg _ nonPrimaryConstraints_rewritten).trans (List.map_map ..)
  have hkeys : ((constraintEntries (schema.rewritten renames own)).map Prod.fst).Nodup := by
    rw [hentries]
    simpa [constraintEntries, TableSchema.nonPrimaryConstraints, Function.comp_def] using hnodup
  have hlookup : (constraintEntries (schema.rewritten renames own)).lookup
      (toAsciiLowercase (trim constraint.name)) =
        some (plainConstraint (rewriteConstraint renames own constraint)) := by
    refine lookup_eq_some_of_mem hkeys ?_
    rw [hentries]
    exact List.mem_map_of_mem hconstraint
  have hentry : (toAsciiLowercase (trim constraint.name), plainConstraint constraint) ∈
      orders.baseline.arrange (constraintEntries schema) :=
    (orders.baseline.perm _).mem_iff.2 (List.mem_map_of_mem hconstraint)
  rw [droppedConstraintsOf, List.map_eq_nil_iff, List.filter_eq_nil_iff] at hnone
  have hsame := hnone _ hentry
  rw [hlookup] at hsame
  simpa using hsame

theorem droppedIndexesOf_rewritten (hnodup : (schema.indexes.map (·.name)).Nodup)
    (hnone : droppedIndexesOf schema.indexes (indexEntries (schema.rewritten renames own)) = [])
    {index : TableIndexSchema} (hindex : index ∈ schema.indexes) :
    index.columns.map (rewrite renames) = index.columns := by
  have hnodup' : ((schema.rewritten renames own).indexes.map (·.name)).Nodup := by
    rwa [indexNames_rewritten]
  have hlookup : (indexEntries (schema.rewritten renames own)).lookup index.name =
      some (rewriteIndex renames index) :=
    lookup_indexEntries hnodup' (List.mem_map_of_mem (f := rewriteIndex renames) hindex)
  have hsame := List.filter_eq_nil_iff.1 hnone index hindex
  rw [hlookup] at hsame
  have hchanged : indexChanged index (rewriteIndex renames index) = false := by simpa using hsame
  have hcolumns : index.columns = index.columns.map (rewrite renames) := by
    simpa [indexChanged, rewriteIndex] using hchanged
  exact hcolumns.symm

/-! ### The rewritten schema as a target -/

section Target

variable (h : FreshRenames schema renames)
  (htrim : ∀ r ∈ renames, trim r.oldName = r.oldName ∧ trim r.newName = r.newName)

include h htrim

theorem FreshRenames.addedColumnsOf_rewritten :
    addedColumnsOf schema (schema.rewritten renames own) renames = [] := by
  refine List.filter_eq_nil_iff.2 fun found hfound ↦ ?_
  obtain ⟨column, hcolumn, rfl⟩ := List.mem_map.1 hfound
  have hmem : column.name ∈ schema.columnNames := List.mem_map_of_mem hcolumn
  rw [movesOf_eq_rawMoves htrim]
  show ¬ decide (rewrite renames column.name ∉ schema.columnNames ∧
    rewrite renames column.name ∉ newsOf (rawMoves renames)) = true
  by_cases hchanged : column.name ∈ changedNames renames
  · obtain ⟨m, hm, hname⟩ := List.mem_map.1 hchanged
    have hnew : rewrite renames column.name ∈ newsOf (rawMoves renames) := by
      rw [← hname, h.rewrite_of_mem hm]
      exact List.mem_map_of_mem hm
    simp [hnew]
  · rw [h.rewrite_of_not_mem hchanged]
    simp [hmem]

theorem FreshRenames.deltas_rewritten (hnodup : schema.columnNames.Nodup) :
    schema.columns.map (deltaOf (schema.rewritten renames own) renames) =
      schema.columns.map fun _ ↦ {} := by
  refine List.map_congr_left fun column hcolumn ↦ ?_
  rw [deltaOf, h.partner_rewritten htrim hnodup hcolumn]
  exact pairDelta_rewriteColumn column

end Target

section Stays

variable (h : FreshRenames schema renames) (huntouched : Untouched schema renames own)

include h huntouched

theorem FreshRenames.indexes_rewritten : (schema.rewritten renames own).indexes = schema.indexes := by
  refine (List.map_congr_left fun index hindex ↦ ?_).trans (List.map_id _)
  have hcolumns : index.columns.map (rewrite renames) = index.columns :=
    h.map_rewrite_iff.2 fun name hname ↦ huntouched.indexes name hname index hindex
  rw [rewriteIndex, hcolumns]
  rfl

theorem FreshRenames.rewriteConstraint_columns {constraint : TableConstraintSchema}
    (hconstraint : constraint ∈ schema.constraints) :
    (rewriteConstraint renames own constraint).columns = constraint.columns :=
  h.map_rewrite_iff.2 fun name hname ↦ huntouched.constraints name hname constraint hconstraint

theorem FreshRenames.nonPrimaryConstraints_eq :
    (schema.rewritten renames own).nonPrimaryConstraints = schema.nonPrimaryConstraints := by
  rw [nonPrimaryConstraints_rewritten]
  refine (List.map_congr_left fun constraint hconstraint ↦ ?_).trans (List.map_id _)
  have hin : constraint ∈ schema.constraints := (List.mem_filter.1 hconstraint).1
  have hcolumns := h.rewriteConstraint_columns huntouched hin
  have hreference : (rewriteConstraint renames own constraint).foreignKey = constraint.foreignKey := by
    cases hkey : constraint.foreignKey with
    | none => simp [rewriteConstraint, hkey]
    | some reference =>
      cases hown : own reference with
      | false => simp [rewriteConstraint, hkey, hown]
      | true =>
        have hstays : reference.columns.map (rewrite renames) = reference.columns :=
          h.map_rewrite_iff.2 fun name hname ↦
            huntouched.references name hname constraint hconstraint reference hkey hown
        simp [rewriteConstraint, hkey, hown, hstays]
  exact congrArg₂ (fun columns foreignKey ↦
    { constraint with columns := columns, foreignKey := foreignKey }) hcolumns hreference

/-- The columns that the rewritten schema refers to are its columns. -/
theorem FreshRenames.references_rewritten
    (hreferences : validateTargetColumnReferences schema.columns schema.indexes schema.constraints =
      .ok ()) :
    validateTargetColumnReferences (schema.rewritten renames own).columns
      (schema.rewritten renames own).indexes (schema.rewritten renames own).constraints = .ok () := by
  obtain ⟨_, hindexes, hconstraints⟩ := bind_eq_ok_iff.1 hreferences
  have hstays : ∀ columns : List String, (∀ name ∈ changedNames renames, name ∉ columns) →
      (∀ column ∈ columns, column ∈ schema.columnNames) →
        ∀ column ∈ columns, column ∈ (schema.rewritten renames own).columnNames := by
    intro columns hnone hin column hcolumn
    rw [columnNames_rewritten, ← h.rewrite_of_not_mem fun hname ↦ hnone column hname hcolumn]
    exact List.mem_map_of_mem (hin column hcolumn)
  rw [h.indexes_rewritten huntouched]
  refine bind_eq_ok_iff.2 ⟨(), forM_eq_ok_iff.2 fun index hindex ↦ ?_,
    forM_eq_ok_iff.2 fun constraint hconstraint ↦ ?_⟩
  · refine validateReferences_eq_ok_iff.2 ?_
    exact hstays _ (fun name hname ↦ huntouched.indexes name hname index hindex) <|
      validateReferences_eq_ok_iff.1 (forM_eq_ok_iff.1 hindexes index hindex)
  · obtain ⟨constraint, hin, rfl⟩ := List.mem_map.1 hconstraint
    refine validateReferences_eq_ok_iff.2 ?_
    rw [h.rewriteConstraint_columns huntouched hin]
    exact hstays _ (fun name hname ↦ huntouched.constraints name hname constraint hin) <|
      validateReferences_eq_ok_iff.1 (forM_eq_ok_iff.1 hconstraints constraint hin)

end Stays

section Pure

variable (h : FreshRenames schema renames)
  (htrim : ∀ r ∈ renames, trim r.oldName = r.oldName ∧ trim r.newName = r.newName)
  (huntouched : Untouched schema renames own)

include h htrim huntouched

theorem FreshRenames.primaryKey_rewritten (hkey : ∃ key, primaryKeyDefinition schema = .ok key) :
    (∃ key, primaryKeyDefinition (schema.rewritten renames own) = .ok key) ∧
      (primaryKeyOf (schema.rewritten renames own)).columns = (primaryKeyOf schema).columns :=
  (h.primaryKey_iff htrim hkey).2 fun name hname ↦ ⟨huntouched.flags name hname,
    fun constraint hconstraint ↦
      huntouched.constraints name hname constraint (List.mem_filter.1 hconstraint).1⟩

/-- A rewriting that touches nothing but columns is accepted where the schema itself is. -/
theorem FreshRenames.accepted_rewritten (hnamed : ∀ r ∈ renames, r.newName ≠ "")
    (hknown : ∀ name ∈ changedNames renames, name ∈ schema.columnNames)
    (hself : Accepted schema schema options []) :
    Accepted schema (schema.rewritten renames own) options renames where
  same := if_pos rfl
  baselineColumns := hself.baselineColumns
  targetColumns := by
    rw [columnNames_rewritten]
    refine ⟨fun name hname ↦ ?_, List.Nodup.map_on (fun x hx y hy ↦ h.rewrite_injOn hx hy)
      hself.baselineColumns.2⟩
    obtain ⟨x, hx, rfl⟩ := List.mem_map.1 hname
    by_cases hchanged : x ∈ changedNames renames
    · obtain ⟨m, hm, rfl⟩ := List.mem_map.1 hchanged
      obtain ⟨r, hr, rfl⟩ := List.mem_map.1 (mem_effective.1 hm).1
      rw [h.rewrite_of_mem hm, (htrim r hr).2]
      exact hnamed r hr
    · rw [h.rewrite_of_not_mem hchanged]
      exact hself.baselineColumns.1 x hx
  references := h.references_rewritten huntouched hself.references
  renames := {
    named := by
      intro m hm
      obtain ⟨r, hr, rfl⟩ := List.mem_map.1 hm
      rw [(htrim r hr).1, (htrim r hr).2]
      refine ⟨fun hblank ↦ ?_, hnamed r hr⟩
      have hne : r.oldName ≠ r.newName := fun hsame ↦ hnamed r hr (hsame ▸ hblank)
      have hchanged : r.oldName ∈ changedNames renames :=
        List.mem_map_of_mem (mem_effective.2 ⟨List.mem_map_of_mem hr, hne⟩)
      have hnonblank := hself.baselineColumns.1 _ (hknown _ hchanged)
      rw [(htrim r hr).1] at hnonblank
      exact hnonblank hblank
    olds_mem := by
      rw [movesOf_eq_rawMoves htrim]
      exact hknown
    news_mem := by
      rw [movesOf_eq_rawMoves htrim, columnNames_rewritten]
      intro name hname
      obtain ⟨m, hm, rfl⟩ := List.mem_map.1 hname
      exact List.mem_map.2 ⟨m.1, hknown _ (List.mem_map_of_mem hm), h.rewrite_of_mem hm⟩
    olds_nodup := by
      rw [movesOf_eq_rawMoves htrim]
      exact h.renaming.olds_nodup
    news_nodup := by
      rw [movesOf_eq_rawMoves htrim]
      exact h.renaming.news_nodup }
  partition := rfl
  baselineKey := hself.baselineKey
  targetKey := (h.primaryKey_rewritten htrim huntouched hself.baselineKey).1
  baselineConstraints := hself.baselineConstraints
  targetConstraints := by
    have heq := h.nonPrimaryConstraints_eq huntouched
    rw [TableSchema.nonPrimaryConstraints, TableSchema.nonPrimaryConstraints] at heq
    rw [ConstraintsAccepted, heq]
    exact hself.baselineConstraints
  columns := by
    intro column hcolumn found hfound
    rw [h.partner_rewritten htrim hself.baselineColumns.2 hcolumn] at hfound
    cases hfound
    have hsafe := diffColumnPair_self_iff.1
      (hself.columns column hcolumn column (partner_self hself.baselineColumns.2 hcolumn))
    simp only [diffColumnPair, bind_eq_ok_iff, ensureSupportedColumnUpdate_rewriteColumn,
      normalizedGeneratedColumn_eq_ok_iff]
    exact ⟨_, (), trivial, _, ⟨hsafe, rfl⟩, _, ⟨hsafe, rfl⟩, if_neg fun hne ↦ hne.1 rfl⟩
  added := by simp [h.addedColumnsOf_rewritten htrim]
  baselineIndexes := hself.baselineIndexes
  targetIndexes := by
    rw [indexNames_rewritten]
    exact hself.baselineIndexes

/-- A rewriting that touches nothing but columns changes nothing but names. -/
theorem FreshRenames.diffOf_rewritten (hself : Accepted schema schema options []) :
    diffOf orders schema (schema.rewritten renames own) renames =
      { renamedColumns := renames.map fun r ↦ ⟨r.oldName, r.newName⟩ } := by
  have hkeys : ((constraintEntries schema).map Prod.fst).Nodup := by
    simpa [constraintEntries, Function.comp_def] using hself.baselineConstraints.2
  have hentries : constraintEntries (schema.rewritten renames own) = constraintEntries schema :=
    congrArg (List.map _) (h.nonPrimaryConstraints_eq huntouched)
  have hindexes := h.indexes_rewritten huntouched
  have hindexEntries : indexEntries (schema.rewritten renames own) = indexEntries schema :=
    congrArg (List.map _) hindexes
  have hrenamed : (renames.map fun r ↦ (⟨trim r.oldName, trim r.newName⟩ : ColumnRenameChange)) =
      renames.map fun r ↦ ⟨r.oldName, r.newName⟩ := by
    refine List.map_congr_left fun r hr ↦ ?_
    rw [(htrim r hr).1, (htrim r hr).2]
  have hbasics : (schema.rewritten renames own).basics = schema.basics := rfl
  simp [diffOf, h.deltas_rewritten htrim hself.baselineColumns.2, h.addedColumnsOf_rewritten htrim,
    hentries, hindexes, hindexEntries, hrenamed, hbasics, droppedConstraintsOf_self hkeys,
    addedConstraintsOf_self hkeys, droppedIndexesOf_self hself.baselineIndexes.2,
    addedIndexesOf_self hself.baselineIndexes.2,
    (h.primaryKey_rewritten htrim huntouched hself.baselineKey).2]

end Pure

/-- **A pure rename is only a rename exactly when** no renamed column is in the primary key, an index,
a constraint or a reference that is rewritten with it, the names that are changed are columns, and the
renames have trimmed names that are not blank. -/
theorem diff_rewritten_iff (h : FreshRenames schema renames)
    (hself : ∃ diff, diffTableSchemaForUpdateWithColumnRenames orders schema schema options [] =
      .ok diff ∧ diff.isEmpty = true) :
    (∃ diff, diffTableSchemaForUpdateWithColumnRenames orders schema (schema.rewritten renames own)
        options renames = .ok diff ∧
      diff = { renamedColumns := renames.map fun r ↦ ⟨r.oldName, r.newName⟩ } ∧
        diff.isDestructive = false) ↔
      (∀ r ∈ renames, trim r.oldName = r.oldName ∧ trim r.newName = r.newName ∧ r.newName ≠ "") ∧
        (∀ name ∈ changedNames renames, name ∈ schema.columnNames) ∧ Untouched schema renames own := by
  obtain ⟨_, hok, -⟩ := hself
  have hself := (diff_eq_ok_iff.1 hok).1
  simp only [diff_eq_ok_iff]
  constructor
  · rintro ⟨_, ⟨haccepted, rfl⟩, hdiff, -⟩
    have hrenamed := congrArg TableSchemaUpdateDiff.renamedColumns hdiff
    have htrim : ∀ r ∈ renames, trim r.oldName = r.oldName ∧ trim r.newName = r.newName := by
      intro r hr
      have := List.map_inj_left.1 hrenamed r hr
      simpa using this
    have hindexes := congrArg TableSchemaUpdateDiff.droppedIndexes hdiff
    have hconstraints := congrArg TableSchemaUpdateDiff.droppedConstraints hdiff
    have hprimaryKey := congrArg TableSchemaUpdateDiff.primaryKeyChange hdiff
    have hkeys : ((constraintEntries schema).map Prod.fst).Nodup := by
      simpa [constraintEntries, Function.comp_def] using hself.baselineConstraints.2
    have hkey := (h.primaryKey_iff htrim hself.baselineKey).1
      ⟨haccepted.targetKey, by simpa [diffOf, changeIf, eq_comm] using hprimaryKey⟩
    have hother : ∀ constraint ∈ schema.nonPrimaryConstraints, ∀ name ∈ changedNames renames,
        name ∉ constraint.columns ∧ ∀ reference, constraint.foreignKey = some reference →
          own reference = true → name ∉ reference.columns := fun constraint hconstraint ↦
      (h.plainConstraint_iff htrim).1 (droppedConstraintsOf_rewritten hkeys hconstraints hconstraint)
    refine ⟨fun r hr ↦ ⟨(htrim r hr).1, (htrim r hr).2, ?_⟩, ?_, ?_⟩
    · have := (haccepted.renames.named _ (List.mem_map_of_mem hr)).2
      rwa [(htrim r hr).2] at this
    · have := haccepted.renames.olds_mem
      rwa [movesOf_eq_rawMoves htrim] at this
    · exact {
        flags := fun name hname ↦ (hkey name hname).1
        indexes := fun name hname index hindex ↦ h.map_rewrite_iff.1
          (droppedIndexesOf_rewritten hself.baselineIndexes.2 hindexes hindex) name hname
        constraints := fun name hname constraint hin ↦ by
          by_cases hkind : constraint.kind = .primaryKey
          · exact (hkey name hname).2 constraint (List.mem_filter.2 ⟨hin, by simpa using hkind⟩)
          · exact (hother constraint (List.mem_filter.2 ⟨hin, by simpa using hkind⟩) name hname).1
        references := fun name hname constraint hin ↦ (hother constraint hin name hname).2 }
  · rintro ⟨hnames, hknown, huntouched⟩
    have htrim : ∀ r ∈ renames, trim r.oldName = r.oldName ∧ trim r.newName = r.newName := fun r hr ↦
      ⟨(hnames r hr).1, (hnames r hr).2.1⟩
    have hdiff : diffOf orders schema (schema.rewritten renames own) renames = _ :=
      h.diffOf_rewritten htrim huntouched hself
    have haccepted := h.accepted_rewritten htrim huntouched (fun r hr ↦ (hnames r hr).2.2) hknown hself
    refine ⟨_, ⟨haccepted, rfl⟩, hdiff, ?_⟩
    rw [hdiff]
    rfl

/-- A column that is in no key, index or constraint. -/
theorem diff_rewritten_plainTable : ∃ diff, diffTableSchemaForUpdateWithColumnRenames .insertion
    (plainTable ["a", "b"]) ((plainTable ["a", "b"]).rewritten [⟨"a", "c"⟩] fun _ ↦ true) ⟨true⟩
      [⟨"a", "c"⟩] = .ok diff ∧ diff = { renamedColumns := [⟨"a", "c"⟩] } ∧
        diff.isDestructive = false := by
  have hfresh : FreshRenames (plainTable ["a", "b"]) [⟨"a", "c"⟩] :=
    ⟨by decide, by decide, by decide⟩
  refine (diff_rewritten_iff hfresh ⟨{}, by decide, rfl⟩).2 ⟨by decide, by decide, ?_⟩
  exact ⟨by decide, by decide, by decide, fun _ _ _ hconstraint ↦ nomatch hconstraint⟩

/-- A column of the primary key: the key is dropped and built again. -/
theorem not_diff_rewritten_keyedTable :
    FreshRenames (keyedTable ["a", "b"]) [⟨"a", "c"⟩] ∧
    (∃ diff, diffTableSchemaForUpdateWithColumnRenames .insertion (keyedTable ["a", "b"])
      (keyedTable ["a", "b"]) ⟨true⟩ [] = .ok diff ∧ diff.isEmpty = true) ∧
    ∃ diff, diffTableSchemaForUpdateWithColumnRenames .insertion (keyedTable ["a", "b"])
        ((keyedTable ["a", "b"]).rewritten [⟨"a", "c"⟩] fun _ ↦ true) ⟨true⟩ [⟨"a", "c"⟩] = .ok diff ∧
      diff.primaryKeyChange = some ⟨some "PRIMARY", ["a", "b"], ["c", "b"]⟩ ∧
      ¬ (diff = { renamedColumns := [⟨"a", "c"⟩] } ∧ diff.isDestructive = false) := by
  refine ⟨⟨by decide, by decide, by decide⟩, ⟨{}, by decide, rfl⟩, ?_⟩
  refine ⟨{ renamedColumns := [⟨"a", "c"⟩]
            primaryKeyChange := some ⟨some "PRIMARY", ["a", "b"], ["c", "b"]⟩ },
    by decide, rfl, ?_⟩
  rintro ⟨-, hsafe⟩
  cases hsafe

end Schema
