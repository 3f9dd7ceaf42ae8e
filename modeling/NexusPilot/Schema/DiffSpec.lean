import NexusPilot.Names.Rename
import NexusPilot.Schema.Diff

/-!
# What the difference of two schemas is

The difference in closed form. `diffTableSchemaForUpdateWithColumnRenames` looks names up in maps that it
builds on the way and may fail at every step; `diff_eq_ok_iff` separates the two: it succeeds exactly on
the requests that are `Accepted`, and then returns `diffOf`, where each baseline column is compared with
its `partner`, the target column that has the name the renames give it.
-/

namespace Schema

open Drivers Names

/-! ### Maps -/

section Maps

variable {β γ : Type} {prepare : β → IpcResult γ} {key complaint : γ → String} {plain : β → γ}

theorem lookup_isSome_iff {map : List (String × γ)} {k : String} :
    (map.lookup k).isSome ↔ k ∈ map.map Prod.fst := by
  rw [List.lookup_isSome_iff, List.mem_map]
  exact ⟨fun ⟨entry, hentry, h⟩ ↦ ⟨entry, hentry, (beq_iff_eq.1 h).symm⟩,
    fun ⟨entry, hentry, h⟩ ↦ ⟨entry, hentry, beq_iff_eq.2 h.symm⟩⟩

variable {map map' : List (String × γ)} {items : List β}

/-- One entry: the item must be accepted, and its key new. -/
theorem insertKeyed_eq_ok_iff (hplain : ∀ item value, prepare item = .ok value → value = plain item)
    {item : β} :
    insertKeyed prepare key complaint map item = .ok map' ↔
      (∃ value, prepare item = .ok value) ∧ key (plain item) ∉ map.map Prod.fst ∧
        map' = map ++ [(key (plain item), plain item)] := by
  rw [insertKeyed, bind_eq_ok_iff]
  constructor
  · rintro ⟨value, hvalue, h⟩
    obtain rfl := hplain item value hvalue
    split_ifs at h with hseen
    cases h
    exact ⟨⟨_, hvalue⟩, fun hmem ↦ hseen (lookup_isSome_iff.2 hmem), rfl⟩
  · rintro ⟨⟨value, hvalue⟩, hnew, rfl⟩
    obtain rfl := hplain item value hvalue
    exact ⟨_, hvalue, by rw [if_neg (mt lookup_isSome_iff.1 hnew)]⟩

theorem foldlM_insertKeyed (hplain : ∀ item value, prepare item = .ok value → value = plain item) :
    items.foldlM (insertKeyed prepare key complaint) map = .ok map' ↔
      (∀ item ∈ items, ∃ value, prepare item = .ok value) ∧
        (items.map fun item ↦ key (plain item)).Nodup ∧
        (∀ item ∈ items, key (plain item) ∉ map.map Prod.fst) ∧
        map' = map ++ items.map fun item ↦ (key (plain item), plain item) := by
  induction items generalizing map with
  | nil =>
    simp only [List.foldlM_nil, List.map_nil, List.append_nil, List.nodup_nil, List.not_mem_nil,
      false_implies, implies_true, true_and]
    exact ⟨fun h ↦ by cases h; rfl, fun h ↦ by rw [h]; rfl⟩
  | cons item items ih =>
    simp only [List.foldlM_cons, bind_eq_ok_iff, insertKeyed_eq_ok_iff hplain, ih, List.map_cons,
      List.nodup_cons, List.forall_mem_cons]
    constructor
    · rintro ⟨_, ⟨haccept, hnew, rfl⟩, hall, hnodup, hfresh, rfl⟩
      simp only [List.map_append, List.map_cons, List.map_nil, List.mem_append, List.mem_singleton,
        not_or] at hfresh
      refine ⟨⟨haccept, hall⟩, ⟨fun hmem ↦ ?_, hnodup⟩, ⟨hnew, fun item' h ↦ (hfresh item' h).1⟩, by simp⟩
      obtain ⟨item', hitem', heq⟩ := List.mem_map.1 hmem
      exact (hfresh item' hitem').2 heq
    · rintro ⟨⟨haccept, hall⟩, ⟨hfirst, hnodup⟩, ⟨hnew, hfresh⟩, rfl⟩
      refine ⟨_, ⟨haccept, hnew, rfl⟩, hall, hnodup, fun item' hitem' hmem ↦ ?_, by simp⟩
      simp only [List.map_append, List.map_cons, List.map_nil, List.mem_append, List.mem_singleton] at hmem
      obtain hmem | heq := hmem
      · exact hfresh item' hitem' hmem
      · exact hfirst (List.mem_map.2 ⟨item', hitem', heq⟩)

/-- A map is built exactly from items that are accepted and have distinct keys. -/
theorem keyed_eq_ok_iff (plain : β → γ) (hplain : ∀ item value, prepare item = .ok value → value = plain item) :
    keyed prepare key complaint items = .ok map ↔
      (∀ item ∈ items, ∃ value, prepare item = .ok value) ∧
        (items.map fun item ↦ key (plain item)).Nodup ∧
        map = items.map fun item ↦ (key (plain item), plain item) := by
  rw [keyed, foldlM_insertKeyed hplain]
  simp

end Maps

/-- Distinct names that are not blank. -/
def Named (names : List String) : Prop :=
  (∀ name ∈ names, trim name ≠ "") ∧ names.Nodup
  deriving Decidable

variable {β : Type} {schema target : TableSchema} {options : TableUpdateDiffOptions}
  {column : TableColumnSchema} {delta : ColumnDelta} {columnRenames : List TableColumnRename}

theorem keyed_named_eq_ok_iff {name : β → String} {label : String} {complaint : β → String} {items : List β}
    {map : List (String × β)} :
    keyed (named name label) name complaint items = .ok map ↔
      Named (items.map name) ∧ map = items.map fun item ↦ (name item, item) := by
  have haccept : ∀ item value, named name label item = .ok value ↔ trim (name item) ≠ "" ∧ value = item := by
    intro item value
    rw [named, bind_eq_ok_iff]
    constructor
    · rintro ⟨_, hname, h⟩
      cases h
      exact ⟨(normalizedNonEmptyIdentifier_eq_ok_iff.1 hname).1, rfl⟩
    · rintro ⟨hname, rfl⟩
      exact ⟨_, normalizedNonEmptyIdentifier_eq_ok_iff.2 ⟨hname, rfl⟩, rfl⟩
  rw [keyed_eq_ok_iff id fun item value h ↦ ((haccept item value).1 h).2, Named]
  simp [haccept, and_assoc]

theorem lookup_map_pair (name : β → String) (items : List β) (k : String) :
    (items.map fun item ↦ (name item, item)).lookup k = items.find? (k == name ·) := by
  induction items with
  | nil => rfl
  | cons item items ih =>
    rw [List.map_cons, List.lookup_cons, List.find?_cons, ih]

/-! ### Renames -/

/-- The names of a table's columns. -/
def TableSchema.columnNames (schema : TableSchema) : List String :=
  schema.columns.map (·.name)

/-- The renames of a request as moves of names. -/
def movesOf (columnRenames : List TableColumnRename) : List (String × String) :=
  columnRenames.map fun rename ↦ (trim rename.oldName, trim rename.newName)

/-- What `validate_column_renames` asks of the moves: names that are not blank, and, of those that change
a name, distinct old names of the baseline and distinct new names of the target. -/
structure RenamesAccepted (moves : List (String × String)) (before after : List String) : Prop where
  named : ∀ m ∈ moves, m.1 ≠ "" ∧ m.2 ≠ ""
  olds_mem : ∀ o ∈ oldsOf moves, o ∈ before
  news_mem : ∀ n ∈ newsOf moves, n ∈ after
  olds_nodup : (oldsOf moves).Nodup
  news_nodup : (newsOf moves).Nodup

/-- The renaming that accepted moves make. -/
def RenamesAccepted.renaming {moves : List (String × String)} {before after : List String}
    (h : RenamesAccepted moves before after) : Renaming String where
  moves := effective moves
  ne _ hm := (mem_effective.1 hm).2
  olds_nodup := h.olds_nodup
  news_nodup := h.news_nodup

theorem RenamesAccepted.apply_renaming {moves : List (String × String)} {before after : List String}
    (h : RenamesAccepted moves before after) : h.renaming.apply = rename moves := by
  funext x
  have heff : effective (effective moves) = effective moves := h.renaming.effective_moves
  rw [Renaming.apply, rename, rename]
  exact congrArg (fun l : List (String × String) ↦ (l.lookup x).getD x) heff

section Renames

variable {baseline target : List TableColumnSchema}

variable {done : List (String × String)} {seen : List (String × String) × List String}

/-- One rename that is accepted after the moves `done`. -/
theorem validateColumnRename_eq_ok_iff {rename : TableColumnRename} :
    validateColumnRename (baseline.map fun column ↦ (column.name, column))
        (target.map fun column ↦ (column.name, column)) (done, done.map Prod.snd) rename = .ok seen ↔
      (trim rename.oldName ≠ "" ∧ trim rename.newName ≠ "") ∧
        if trim rename.oldName = trim rename.newName then seen = (done, done.map Prod.snd)
        else trim rename.oldName ∈ baseline.map (·.name) ∧ trim rename.newName ∈ target.map (·.name) ∧
          trim rename.oldName ∉ done.map Prod.fst ∧ trim rename.newName ∉ done.map Prod.snd ∧
          seen = (done ++ [(trim rename.oldName, trim rename.newName)],
            (done ++ [(trim rename.oldName, trim rename.newName)]).map Prod.snd) := by
  have hlookup : ∀ (columns : List TableColumnSchema) (k : String),
      ((columns.map fun column ↦ (column.name, column)).lookup k).isNone = true ↔
        k ∉ columns.map (·.name) := by
    intro columns k
    rw [← not_iff_not, not_not, Bool.not_eq_true, Option.isNone_eq_false_iff, lookup_isSome_iff,
      List.map_map]
    rfl
  simp only [validateColumnRename, bind_eq_ok_iff, normalizedNonEmptyIdentifier_eq_ok_iff]
  by_cases hsame : trim rename.oldName = trim rename.newName
  · rw [if_pos hsame]
    constructor
    · rintro ⟨_, ⟨hold, rfl⟩, _, ⟨hnew, rfl⟩, h⟩
      rw [if_pos hsame] at h
      cases h
      exact ⟨⟨hold, hnew⟩, rfl⟩
    · rintro ⟨⟨hold, hnew⟩, rfl⟩
      exact ⟨_, ⟨hold, rfl⟩, _, ⟨hnew, rfl⟩, if_pos hsame⟩
  · rw [if_neg hsame]
    constructor
    · rintro ⟨_, ⟨hold, rfl⟩, _, ⟨hnew, rfl⟩, h⟩
      simp only [if_neg hsame, ite_error_eq_ok_iff, hlookup, lookup_isSome_iff, not_not] at h
      obtain ⟨hbaseline, htarget, hdone, hseen, h⟩ := h
      cases h
      exact ⟨⟨hold, hnew⟩, hbaseline, htarget, hdone, hseen, by simp⟩
    · rintro ⟨⟨hold, hnew⟩, hbaseline, htarget, hdone, hseen, rfl⟩
      refine ⟨_, ⟨hold, rfl⟩, _, ⟨hnew, rfl⟩, ?_⟩
      simp only [if_neg hsame, ite_error_eq_ok_iff, hlookup, lookup_isSome_iff, not_not]
      exact ⟨hbaseline, htarget, hdone, hseen, by simp⟩

theorem foldlM_validateColumnRename {renames : List TableColumnRename} (holds : (done.map Prod.fst).Nodup)
    (hnews : (done.map Prod.snd).Nodup) :
    renames.foldlM (validateColumnRename (baseline.map fun column ↦ (column.name, column))
        (target.map fun column ↦ (column.name, column))) (done, done.map Prod.snd) = .ok seen ↔
      (∀ m ∈ movesOf renames, m.1 ≠ "" ∧ m.2 ≠ "") ∧
        (∀ o ∈ oldsOf (movesOf renames), o ∈ baseline.map (·.name)) ∧
        (∀ n ∈ newsOf (movesOf renames), n ∈ target.map (·.name)) ∧
        (done.map Prod.fst ++ oldsOf (movesOf renames)).Nodup ∧
        (done.map Prod.snd ++ newsOf (movesOf renames)).Nodup ∧
        seen = (done ++ effective (movesOf renames),
          (done ++ effective (movesOf renames)).map Prod.snd) := by
  induction renames generalizing done with
  | nil =>
    simp only [List.foldlM_nil, movesOf, oldsOf, newsOf, effective, List.map_nil, List.filter_nil,
      List.append_nil, List.not_mem_nil, false_implies, implies_true, true_and, holds, hnews]
    exact ⟨fun h ↦ by cases h; rfl, fun h ↦ by rw [h]; rfl⟩
  | cons rename renames ih =>
    have hnamed : (∀ m ∈ movesOf (rename :: renames), m.1 ≠ "" ∧ m.2 ≠ "") ↔
        (trim rename.oldName ≠ "" ∧ trim rename.newName ≠ "") ∧
          ∀ m ∈ movesOf renames, m.1 ≠ "" ∧ m.2 ≠ "" :=
      List.forall_mem_cons
    simp only [List.foldlM_cons, bind_eq_ok_iff, validateColumnRename_eq_ok_iff, hnamed]
    simp only [oldsOf, newsOf] at ih ⊢
    by_cases hsame : trim rename.oldName = trim rename.newName
    · have heff : effective (movesOf (rename :: renames)) = effective (movesOf renames) :=
        effective_cons_of_eq hsame _
      simp only [if_pos hsame, heff]
      constructor
      · rintro ⟨_, ⟨hfirst, rfl⟩, h⟩
        obtain ⟨hall, hrest⟩ := (ih holds hnews).1 h
        exact ⟨⟨hfirst, hall⟩, hrest⟩
      · rintro ⟨⟨hfirst, hall⟩, hrest⟩
        exact ⟨_, ⟨hfirst, rfl⟩, (ih holds hnews).2 ⟨hall, hrest⟩⟩
    · have heff : effective (movesOf (rename :: renames)) =
          (trim rename.oldName, trim rename.newName) :: effective (movesOf renames) :=
        effective_cons_of_ne hsame _
      have hassoc : ∀ f : String × String → String, done.map f ++
          f (trim rename.oldName, trim rename.newName) :: (effective (movesOf renames)).map f =
            (done ++ [(trim rename.oldName, trim rename.newName)]).map f ++
              (effective (movesOf renames)).map f := by
        simp
      have hconcat : ∀ f : String × String → String, (done.map f).Nodup →
          f (trim rename.oldName, trim rename.newName) ∉ done.map f →
            ((done ++ [(trim rename.oldName, trim rename.newName)]).map f).Nodup := by
        intro f hf hnew
        rw [List.map_append, List.map_singleton, ← List.concat_eq_append]
        exact hf.concat hnew
      simp only [if_neg hsame, heff, List.forall_mem_cons, List.map_cons, hassoc Prod.fst,
        hassoc Prod.snd]
      constructor
      · rintro ⟨_, ⟨hfirst, hbaseline, htarget, hdone, hseen, rfl⟩, h⟩
        obtain ⟨hall, hbaselines, htargets, hnodup, hnodup', rfl⟩ :=
          (ih (hconcat _ holds hdone) (hconcat _ hnews hseen)).1 h
        exact ⟨⟨hfirst, hall⟩, ⟨hbaseline, hbaselines⟩, ⟨htarget, htargets⟩, hnodup, hnodup', by simp⟩
      · rintro ⟨⟨hfirst, hall⟩, ⟨hbaseline, hbaselines⟩, ⟨htarget, htargets⟩, hnodup, hnodup', rfl⟩
        have hfresh : ∀ f : String × String → String,
            ((done ++ [(trim rename.oldName, trim rename.newName)]).map f ++
              (effective (movesOf renames)).map f).Nodup →
              f (trim rename.oldName, trim rename.newName) ∉ done.map f := by
          intro f hf hmem
          rw [← hassoc f] at hf
          exact List.disjoint_of_nodup_append hf hmem List.mem_cons_self
        exact ⟨_, ⟨hfirst, hbaseline, htarget, hfresh _ hnodup, hfresh _ hnodup', rfl⟩,
          (ih hnodup.of_append_left hnodup'.of_append_left).2
            ⟨hall, hbaselines, htargets, hnodup, hnodup', by simp⟩⟩

/-- The renames that are accepted, and the map that they make. -/
theorem validateColumnRenames_eq_ok_iff {columnRenames : List TableColumnRename}
    {map : List (String × String)} :
    validateColumnRenames columnRenames (baseline.map fun column ↦ (column.name, column))
        (target.map fun column ↦ (column.name, column)) = .ok map ↔
      RenamesAccepted (movesOf columnRenames) (baseline.map (·.name)) (target.map (·.name)) ∧
        map = effective (movesOf columnRenames) := by
  rw [validateColumnRenames, bind_eq_ok_iff]
  constructor
  · rintro ⟨seen, hseen, h⟩
    obtain ⟨hnamed, holds, hnews, hnodup, hnodup', rfl⟩ :=
      (foldlM_validateColumnRename (by simp) (by simp)).1 hseen
    cases h
    exact ⟨⟨hnamed, holds, hnews, hnodup, hnodup'⟩, rfl⟩
  · rintro ⟨h, rfl⟩
    exact ⟨_, (foldlM_validateColumnRename (by simp) (by simp)).2 ⟨h.named, h.olds_mem, h.news_mem, h.olds_nodup,
      h.news_nodup, rfl⟩, rfl⟩

end Renames

/-! ### The closed form -/

/-- The target column that a baseline column lives on as. -/
def partner (target : TableSchema) (columnRenames : List TableColumnRename)
    (column : TableColumnSchema) : Option TableColumnSchema :=
  target.columns.find? (rename (movesOf columnRenames) column.name == ·.name)

/-- What a baseline column that lives on as a target column adds to the difference. -/
def pairDelta (column target : TableColumnSchema) : ColumnDelta where
  typeChange := changeIf (normalizedSqlType column.typeName) (normalizedSqlType target.typeName)
    ⟨target.name, trim target.typeName⟩
  defaultChange := changeIf (normalizedOptionalText column.defaultValue)
    (normalizedOptionalText target.defaultValue)
    ⟨target.name, normalizedOptionalText target.defaultValue⟩
  nullabilityChange := changeIf column.nullable target.nullable ⟨target.name, target.nullable⟩
  generatedChange := changeIf (plainGenerated column.generated) (plainGenerated target.generated)
    ⟨target.name, plainGenerated column.generated, plainGenerated target.generated⟩
  identityChange := changeIf (normalizedColumnIdentity column) (normalizedColumnIdentity target)
    ⟨target.name, normalizedColumnIdentity column, normalizedColumnIdentity target⟩
  charsetChange := changeIf
    (normalizedOptionalText column.charset, normalizedOptionalText column.collation)
    (normalizedOptionalText target.charset, normalizedOptionalText target.collation)
    ⟨target.name, normalizedOptionalText target.charset, normalizedOptionalText target.collation⟩
  commentChange := changeIf (normalizedOptionalText column.comment)
    (normalizedOptionalText target.comment) ⟨target.name, normalizedOptionalText target.comment⟩

/-- What a baseline column adds to the difference. -/
def deltaOf (target : TableSchema) (columnRenames : List TableColumnRename)
    (column : TableColumnSchema) : ColumnDelta :=
  match partner target columnRenames column with
  | none => { droppedColumn := some column }
  | some found => pairDelta column found

/-- The target columns that are neither baseline columns nor targets of a rename. -/
def addedColumnsOf (baseline target : TableSchema) (columnRenames : List TableColumnRename) :
    List TableColumnSchema :=
  target.columns.filter fun column ↦
    column.name ∉ baseline.columnNames ∧ column.name ∉ newsOf (movesOf columnRenames)

/-- The constraints that are no primary keys, by lower-case name. -/
def constraintEntries (schema : TableSchema) : List (String × TableConstraintSchema) :=
  (schema.constraints.filter (·.kind ≠ .primaryKey)).map fun constraint ↦
    (toAsciiLowercase (trim constraint.name), plainConstraint constraint)

/-- The indexes by name. -/
def indexEntries (schema : TableSchema) : List (String × TableIndexSchema) :=
  schema.indexes.map fun index ↦ (index.name, index)

/-- The primary key: that of the constraint, or else of the flags. -/
def primaryKeyOf (schema : TableSchema) : PrimaryKeyDefinition :=
  match schema.constraints.filter (·.kind = .primaryKey) with
  | constraint :: _ =>
    ⟨normalizedOptionalText (some constraint.name), constraint.columns.map trim⟩
  | [] => ⟨none, (schema.columns.filter (·.isPrimaryKey)).map (·.name)⟩

/-- The difference, without the checks. -/
def diffOf (orders : MapOrders) (baseline target : TableSchema)
    (columnRenames : List TableColumnRename) : TableSchemaUpdateDiff :=
  let deltas := baseline.columns.map (deltaOf target columnRenames)
  let constraints := (constraintEntries baseline, constraintEntries target)
  { tableCommentChange := changeIf (normalizedOptionalText baseline.basics.comment)
      (normalizedOptionalText target.basics.comment) ⟨normalizedOptionalText target.basics.comment⟩
    tableEngineChange := changedTo baseline.basics.engine target.basics.engine
    tableCharsetChange := changedTo baseline.basics.charset target.basics.charset
    tableCollationChange := changedTo baseline.basics.collation target.basics.collation
    primaryKeyChange := changeIf (primaryKeyOf baseline).columns (primaryKeyOf target).columns
      ⟨(primaryKeyOf baseline).name, (primaryKeyOf baseline).columns, (primaryKeyOf target).columns⟩
    renamedColumns := columnRenames.map fun rename ↦ ⟨trim rename.oldName, trim rename.newName⟩
    addedColumns := addedColumnsOf baseline target columnRenames
    droppedColumns := deltas.filterMap (·.droppedColumn)
    addedIndexes := addedIndexesOf baseline.indexes target.indexes (indexEntries baseline)
      (indexEntries target)
    droppedIndexes := droppedIndexesOf baseline.indexes (indexEntries target)
    addedConstraints := addedConstraintsOf orders constraints.1 constraints.2
    droppedConstraints := droppedConstraintsOf orders constraints.1 constraints.2
    addedOrModifiedConstraints := addedConstraintsOf orders constraints.1 constraints.2
    columnTypeChanges := deltas.filterMap (·.typeChange)
    columnCommentChanges := deltas.filterMap (·.commentChange)
    columnDefaultChanges := deltas.filterMap (·.defaultChange)
    columnNullabilityChanges := deltas.filterMap (·.nullabilityChange)
    generatedColumnChanges := deltas.filterMap (·.generatedChange)
    identityChanges := deltas.filterMap (·.identityChange)
    columnCharsetChanges := deltas.filterMap (·.charsetChange) }

/-- The constraints that are no primary keys, all of them valid and distinct by lower-case name. -/
def ConstraintsAccepted (schema : TableSchema) : Prop :=
  (∀ constraint ∈ schema.constraints.filter (·.kind ≠ .primaryKey),
      ∃ normalized, normalizedNonPrimaryConstraint constraint = .ok normalized) ∧
    ((schema.constraints.filter (·.kind ≠ .primaryKey)).map fun constraint ↦
      toAsciiLowercase (trim constraint.name)).Nodup

/-- The requests for which there is a difference. -/
structure Accepted (baseline target : TableSchema) (options : TableUpdateDiffOptions)
    (columnRenames : List TableColumnRename) : Prop where
  same : ensureSameTableIdentity baseline target = .ok ()
  baselineColumns : Named baseline.columnNames
  targetColumns : Named target.columnNames
  references : validateTargetColumnReferences target.columns target.indexes target.constraints = .ok ()
  renames : RenamesAccepted (movesOf columnRenames) baseline.columnNames target.columnNames
  partition : normalizedPartitionOptions baseline.basics.partition =
    normalizedPartitionOptions target.basics.partition
  baselineKey : ∃ key, primaryKeyDefinition baseline = .ok key
  targetKey : ∃ key, primaryKeyDefinition target = .ok key
  baselineConstraints : ConstraintsAccepted baseline
  targetConstraints : ConstraintsAccepted target
  columns : ∀ column ∈ baseline.columns, ∀ found, partner target columnRenames column = some found →
    ∃ delta, diffColumnPair options column found = .ok delta
  added : ∀ column ∈ addedColumnsOf baseline target columnRenames,
    validateAddedColumnForUpdate column = .ok ()
  baselineIndexes : Named (baseline.indexes.map (·.name))
  targetIndexes : Named (target.indexes.map (·.name))

theorem eq_of_primaryKeyDefinition {key : PrimaryKeyDefinition} (h : primaryKeyDefinition schema = .ok key) :
    key = primaryKeyOf schema := by
  rw [primaryKeyDefinition] at h
  rw [primaryKeyOf]
  split at h
  · cases h
  · rename_i constraint hfilter
    rw [hfilter]
    obtain ⟨columns, hcolumns, h⟩ := exists_of_bind_eq_ok h
    obtain ⟨-, rfl⟩ := mapM_normalizedNonEmptyIdentifier.1 hcolumns
    split_ifs at h
    cases h
    rfl
  · rename_i hfilter
    rw [hfilter]
    cases h
    rfl

theorem eq_of_diffColumnPair {target : TableColumnSchema}
    (h : diffColumnPair options column target = .ok delta) :
    delta = pairDelta column target := by
  obtain ⟨_, -, h⟩ := exists_of_bind_eq_ok h
  obtain ⟨oldGenerated, hold, h⟩ := exists_of_bind_eq_ok h
  obtain ⟨newGenerated, hnew, h⟩ := exists_of_bind_eq_ok h
  obtain ⟨-, rfl⟩ := normalizedGeneratedColumn_eq_ok_iff.1 hold
  obtain ⟨-, rfl⟩ := normalizedGeneratedColumn_eq_ok_iff.1 hnew
  split_ifs at h
  · cases h
  · cases h
    rfl

theorem schemaNonPrimaryConstraintsByName_eq_ok_iff {map : List (String × TableConstraintSchema)} :
    schemaNonPrimaryConstraintsByName schema.constraints = .ok map ↔
      ConstraintsAccepted schema ∧ map = constraintEntries schema := by
  rw [schemaNonPrimaryConstraintsByName,
    keyed_eq_ok_iff plainConstraint fun _ _ h ↦
      (normalizedNonPrimaryConstraint_eq_ok_iff.1 h).2.2.2.2.2, ← and_assoc]
  rfl

/-- The lookups of the source find the partner of a column. -/
theorem diffColumn_eq (options : TableUpdateDiffOptions) (target : TableSchema)
    (columnRenames : List TableColumnRename) (column : TableColumnSchema) :
    diffColumn options (effective (movesOf columnRenames))
        (target.columns.map fun found ↦ (found.name, found)) column =
      match partner target columnRenames column with
      | none => .ok { droppedColumn := some column }
      | some found => diffColumnPair options column found := by
  rw [diffColumn, lookup_map_pair TableColumnSchema.name]
  rfl

theorem eq_of_diffColumn (h : diffColumn options (effective (movesOf columnRenames))
      (target.columns.map fun found ↦ (found.name, found)) column = .ok delta) :
    delta = deltaOf target columnRenames column := by
  rw [diffColumn_eq] at h
  rw [deltaOf]
  cases hpartner : partner target columnRenames column with
  | none =>
    rw [hpartner] at h
    cases h
    rfl
  | some found =>
    rw [hpartner] at h
    exact eq_of_diffColumnPair h

theorem filter_isAdded (baseline target : TableSchema) (columnRenames : List TableColumnRename) :
    target.columns.filter (isAdded (effective (movesOf columnRenames))
        (baseline.columns.map fun column ↦ (column.name, column))) =
      addedColumnsOf baseline target columnRenames := by
  refine List.filter_congr fun column _ ↦ ?_
  have hbaseline : ((baseline.columns.map fun column ↦ (column.name, column)).lookup column.name).isSome ↔
      column.name ∈ baseline.columnNames := by
    rw [lookup_isSome_iff, List.map_map]
    rfl
  rw [Bool.eq_iff_iff]
  simp only [isAdded, Bool.and_eq_true, Bool.not_eq_true', decide_eq_true_eq, ← hbaseline, newsOf,
    List.mem_map]
  simp only [List.any_eq_false, decide_eq_true_eq, Option.isNone_iff_eq_none, Option.isSome_iff_ne_none,
    ne_eq, not_not, Prod.forall, Prod.exists, exists_eq_right, not_exists]
  exact and_congr_right fun _ ↦ ⟨fun h o hm ↦ h o _ hm rfl, fun h o n hm hn ↦ h o (hn ▸ hm)⟩

/-- **The difference of two schemas**: it exists exactly for the accepted requests. -/
theorem diff_eq_ok_iff {orders : MapOrders} {baseline : TableSchema} {diff : TableSchemaUpdateDiff} :
    diffTableSchemaForUpdateWithColumnRenames orders baseline target options columnRenames = .ok diff ↔
      Accepted baseline target options columnRenames ∧
        diff = diffOf orders baseline target columnRenames := by
  constructor
  · intro h
    obtain ⟨_, hsame, h⟩ := exists_of_bind_eq_ok h
    obtain ⟨_, hbaseline, h⟩ := exists_of_bind_eq_ok h
    obtain ⟨_, htarget, h⟩ := exists_of_bind_eq_ok h
    obtain ⟨_, hreferences, h⟩ := exists_of_bind_eq_ok h
    obtain ⟨_, hrenames, h⟩ := exists_of_bind_eq_ok h
    obtain ⟨hbaseline', rfl⟩ := keyed_named_eq_ok_iff.1 hbaseline
    obtain ⟨htarget', rfl⟩ := keyed_named_eq_ok_iff.1 htarget
    obtain ⟨hrenames', rfl⟩ := validateColumnRenames_eq_ok_iff.1 hrenames
    split_ifs at h with hpartition
    · cases h
    obtain ⟨_, hbaselineKey, h⟩ := exists_of_bind_eq_ok h
    obtain ⟨_, htargetKey, h⟩ := exists_of_bind_eq_ok h
    obtain ⟨_, hbaselineConstraints, h⟩ := exists_of_bind_eq_ok h
    obtain ⟨_, htargetConstraints, h⟩ := exists_of_bind_eq_ok h
    obtain ⟨_, hdeltas, h⟩ := exists_of_bind_eq_ok h
    obtain ⟨_, hadded, h⟩ := exists_of_bind_eq_ok h
    obtain ⟨_, hbaselineIndexes, h⟩ := exists_of_bind_eq_ok h
    obtain ⟨_, htargetIndexes, h⟩ := exists_of_bind_eq_ok h
    obtain rfl := eq_of_primaryKeyDefinition hbaselineKey
    obtain rfl := eq_of_primaryKeyDefinition htargetKey
    obtain ⟨hbaselineConstraints', rfl⟩ :=
      schemaNonPrimaryConstraintsByName_eq_ok_iff.1 hbaselineConstraints
    obtain ⟨htargetConstraints', rfl⟩ := schemaNonPrimaryConstraintsByName_eq_ok_iff.1 htargetConstraints
    obtain ⟨hcolumns, rfl⟩ := (mapM_eq_ok_iff_of_eq fun _ _ h ↦ eq_of_diffColumn h).1 hdeltas
    obtain ⟨hbaselineIndexes', rfl⟩ := keyed_named_eq_ok_iff.1 hbaselineIndexes
    obtain ⟨htargetIndexes', rfl⟩ := keyed_named_eq_ok_iff.1 htargetIndexes
    rw [filter_isAdded] at hadded h
    cases h
    refine ⟨⟨hsame, hbaseline', htarget', hreferences, hrenames', not_not.1 hpartition,
      ⟨_, hbaselineKey⟩, ⟨_, htargetKey⟩, hbaselineConstraints', htargetConstraints',
      fun column hcolumn found hfound ↦ ?_, forM_eq_ok_iff.1 hadded, hbaselineIndexes',
      htargetIndexes'⟩, rfl⟩
    obtain ⟨delta, hdelta⟩ := hcolumns column hcolumn
    rw [diffColumn_eq, hfound] at hdelta
    exact ⟨delta, hdelta⟩
  · rintro ⟨h, rfl⟩
    obtain ⟨_, hbaselineKey⟩ := h.baselineKey
    obtain ⟨_, htargetKey⟩ := h.targetKey
    obtain rfl := eq_of_primaryKeyDefinition hbaselineKey
    obtain rfl := eq_of_primaryKeyDefinition htargetKey
    have hcolumns : ∀ column ∈ baseline.columns, ∃ delta, diffColumn options
        (effective (movesOf columnRenames)) (target.columns.map fun found ↦ (found.name, found))
          column = .ok delta := by
      intro column hcolumn
      rw [diffColumn_eq]
      cases hpartner : partner target columnRenames column with
      | none => exact ⟨_, rfl⟩
      | some found => exact h.columns column hcolumn found hpartner
    refine bind_eq_ok_iff.2 ⟨_, h.same, bind_eq_ok_iff.2 ⟨_, keyed_named_eq_ok_iff.2
      ⟨h.baselineColumns, rfl⟩, bind_eq_ok_iff.2 ⟨_, keyed_named_eq_ok_iff.2 ⟨h.targetColumns, rfl⟩,
      bind_eq_ok_iff.2 ⟨_, h.references, bind_eq_ok_iff.2
        ⟨_, validateColumnRenames_eq_ok_iff.2 ⟨h.renames, rfl⟩, ?_⟩⟩⟩⟩⟩
    rw [if_neg (not_not.2 h.partition), filter_isAdded]
    exact bind_eq_ok_iff.2 ⟨_, hbaselineKey, bind_eq_ok_iff.2 ⟨_, htargetKey, bind_eq_ok_iff.2
      ⟨_, schemaNonPrimaryConstraintsByName_eq_ok_iff.2 ⟨h.baselineConstraints, rfl⟩, bind_eq_ok_iff.2
      ⟨_, schemaNonPrimaryConstraintsByName_eq_ok_iff.2 ⟨h.targetConstraints, rfl⟩, bind_eq_ok_iff.2
      ⟨_, (mapM_eq_ok_iff_of_eq fun _ _ h ↦ eq_of_diffColumn h).2 ⟨hcolumns, rfl⟩, bind_eq_ok_iff.2
      ⟨(), forM_eq_ok_iff.2 h.added, bind_eq_ok_iff.2
      ⟨_, keyed_named_eq_ok_iff.2 ⟨h.baselineIndexes, rfl⟩, bind_eq_ok_iff.2
      ⟨_, keyed_named_eq_ok_iff.2 ⟨h.targetIndexes, rfl⟩, rfl⟩⟩⟩⟩⟩⟩⟩⟩

end Schema
