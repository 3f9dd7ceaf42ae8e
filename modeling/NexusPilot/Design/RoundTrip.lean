import NexusPilot.Design.TypeText
import NexusPilot.Design.Actions

/-!
# Opening a table in the designer

The schema that a driver describes, turned into a draft and sent back. A draft has texts where the schema has
optional values and lists, so that the way there and back is exact on texts that are trimmed and not empty, and on
lists of names without commas (`splitNames_joinNames`). What is lost are the parts of a type that the catalog has no
room for, names with a comma in a list of columns, and the state of the keys of an Oracle table, which the designer
does not send.
-/

namespace Design

open Schema Text

/-! ### What a driver describes -/

/-- A text that is described: without white space around it, and not empty. -/
def DescribedText (value : String) : Prop :=
  scriptTrim value = value ∧ value ≠ ""

instance (value : String) : Decidable (DescribedText value) :=
  inferInstanceAs (Decidable (_ ∧ _))

/-- A described identity: every driver leaves out the options that it does not know. -/
structure DescribedIdentity (identity : TableIdentityOptions) : Prop where
  start : ∀ text ∈ identity.start, DescribedText text
  increment : ∀ text ∈ identity.increment, DescribedText text
  minValue : ∀ text ∈ identity.minValue, DescribedText text
  maxValue : ∀ text ∈ identity.maxValue, DescribedText text
  cache : ∀ text ∈ identity.cache, DescribedText text

/-- A described column. The columns that Oracle generates are virtual. -/
structure DescribedColumn (driver : DesignDriver) (column : TableColumnSchema) : Prop where
  name : DescribedText column.name
  defaultValue : ∀ text ∈ column.defaultValue, DescribedText text
  identity : column.identity.isSome = column.isIdentity
  options : ∀ identity ∈ column.identity, DescribedIdentity identity
  generated : ∀ generated ∈ column.generated, DescribedText generated.expression ∧
    (driver = .oracle → generated.storage = .virtual)
  charset : ∀ text ∈ column.charset, DescribedText text
  collation : ∀ text ∈ column.collation, DescribedText text
  comment : ∀ text ∈ column.comment, DescribedText text

/-- A described index. -/
structure DescribedIndex (index : TableIndexSchema) : Prop where
  name : DescribedText index.name
  columns : ∀ name ∈ index.columns, DescribedText name
  method : ∀ text ∈ index.method, DescribedText text
  comment : ∀ text ∈ index.comment, DescribedText text

/-- A described reference. MySQL qualifies a table by its database, the others by its schema. -/
structure DescribedReference (driver : DesignDriver) (key : TableForeignKeyReference) : Prop where
  databaseName : ∀ text ∈ key.databaseName, driver = .mysql ∧ DescribedText text
  schemaName : ∀ text ∈ key.schemaName, driver ≠ .mysql ∧ DescribedText text
  tableName : DescribedText key.tableName
  columns : ∀ name ∈ key.columns, DescribedText name

/-- A described constraint. Oracle describes for every constraint whether it is enforced, the others for checks and
foreign keys only. -/
structure DescribedConstraint (driver : DesignDriver) (constraint : TableConstraintSchema) : Prop where
  name : DescribedText constraint.name
  columns : ∀ name ∈ constraint.columns, DescribedText name
  reference : constraint.reference = none
  expression : ∀ text ∈ constraint.expression, DescribedText text
  comment : ∀ text ∈ constraint.comment, DescribedText text
  foreignKey : ∀ key ∈ constraint.foreignKey, constraint.kind = .foreignKey ∧ DescribedReference driver key
  enforced : constraint.enforced.isSome ↔
    driver = .oracle ∨ constraint.kind = .check ∨ constraint.kind = .foreignKey

/-- **A schema as the driver of the designer describes it.** Only Oracle describes a partition, as a text to read. -/
structure DescribedBy (driver : DesignDriver) (schema : TableSchema) : Prop where
  known : driver ≠ .other
  engine : ∀ text ∈ schema.basics.engine, DescribedText text
  charset : ∀ text ∈ schema.basics.charset, DescribedText text
  collation : ∀ text ∈ schema.basics.collation, DescribedText text
  comment : ∀ text ∈ schema.basics.comment, DescribedText text
  partition : ∀ partition ∈ schema.basics.partition, partition.expression = none ∧ partition.rawClause = none ∧
    ∃ text, partition.readonlyDescription = some text ∧ DescribedText text
  columns : ∀ column ∈ schema.columns, DescribedColumn driver column
  indexes : ∀ index ∈ schema.indexes, DescribedIndex index
  constraints : ∀ constraint ∈ schema.constraints, DescribedConstraint driver constraint

/-! ### Comparing schemas -/

/-- A value that is not compared for Oracle. -/
def unlessIgnored {α : Type} (driver : DesignDriver) (value : Option α) : Option α :=
  if driver = .oracle then none else value

/-- What is compared of a column. -/
def comparableColumn (driver : DesignDriver) (column : TableColumnSchema) :
    TableColumnSchema × ((List Char × List String × Bool) ⊕ String) :=
  ({ column with
      typeName := ""
      charset := unlessIgnored driver column.charset
      collation := unlessIgnored driver column.collation },
    comparableType column.typeName)

/-- What is compared of an index. -/
def comparableIndex (driver : DesignDriver) (index : TableIndexSchema) : TableIndexSchema :=
  { index with method := unlessIgnored driver index.method, comment := unlessIgnored driver index.comment }

/-- What is compared of the basics of a table. -/
def comparableBasics (driver : DesignDriver) (basics : TableSchemaBasics) : TableSchemaBasics :=
  { basics with
    engine := unlessIgnored driver basics.engine
    charset := unlessIgnored driver basics.charset
    collation := unlessIgnored driver basics.collation }

/-- Two schemas that are equal but for what is not compared. -/
structure SameSchema (driver : DesignDriver) (schema schema' : TableSchema) : Prop where
  basics : comparableBasics driver schema.basics = comparableBasics driver schema'.basics
  columns : schema.columns.map (comparableColumn driver) = schema'.columns.map (comparableColumn driver)
  indexes : schema.indexes.map (comparableIndex driver) = schema'.indexes.map (comparableIndex driver)
  constraints : schema.constraints = schema'.constraints

/-- The context of the table that a schema describes. -/
def contextOf (driver : DesignDriver) (schema : TableSchema) : TableDesignResolvedContext where
  tableName := schema.basics.tableName
  databaseName := schema.basics.databaseName
  schemaName := schema.basics.schemaName
  driver := driver

/-- What the designer keeps of a schema: its types, its lists of columns, and its constraints. -/
structure SchemaKept (driver : DesignDriver) (schema : TableSchema) : Prop where
  types : ∀ column ∈ schema.columns, TypeKept (tableDesignProfileForDriver driver) column.typeName
  indexes : ∀ index ∈ schema.indexes, ∀ name ∈ index.columns, ',' ∉ name.toList
  constraints : ∀ constraint ∈ schema.constraints, ∀ name ∈ constraint.columns, ',' ∉ name.toList
  references : ∀ constraint ∈ schema.constraints, ∀ key ∈ constraint.foreignKey, ∀ name ∈ key.columns,
    ',' ∉ name.toList
  keys : driver = .oracle → ∀ constraint ∈ schema.constraints,
    constraint.kind = .check ∨ constraint.kind = .foreignKey

/-! ### Texts and lists -/

theorem nullableText_of_described {value : String} (h : DescribedText value) : nullableText value = some value := by
  rw [nullableText, h.1, if_neg h.2]

variable {value : Option String} {driver : DesignDriver} {α β : Type} {schema : TableSchema}
  {patch : ColumnPatch}

/-- An optional text is read back. -/
theorem nullableText_getD (h : ∀ text ∈ value, DescribedText text) :
    nullableText (value.getD "") = value := by
  cases value with
  | none => rfl
  | some text => exact nullableText_of_described (h text rfl)

theorem unlessOracle_getD (h : ∀ text ∈ value, DescribedText text) :
    unlessOracle driver (value.getD "") = unlessIgnored driver value := by
  rw [unlessOracle, unlessIgnored, nullableText_getD h]

@[simp]
theorem unlessIgnored_unlessIgnored (driver : DesignDriver) (value : Option α) :
    unlessIgnored driver (unlessIgnored driver value) = unlessIgnored driver value := by
  rw [unlessIgnored, unlessIgnored]
  split <;> rfl

/-- A list of names is read back if and only if there is no comma in a name. -/
theorem splitColumnList_joinNames_iff {names : List String} (h : ∀ name ∈ names, DescribedText name) :
    splitColumnList (joinNames names) = names ↔ ∀ name ∈ names, ',' ∉ name.toList := by
  constructor
  · intro heq name hmem
    rw [← heq] at hmem
    exact (isListable_of_mem_splitNames hmem).2.2
  · intro hcomma
    have hlistable : ∀ name ∈ names, IsListable name := fun name hmem ↦
      ⟨(h name hmem).1.symm ▸ (h name hmem).2, hcomma name hmem⟩
    rw [splitColumnList, splitNames_joinNames_of_listable hlistable]
    exact (List.map_congr_left fun name hmem ↦ (h name hmem).1).trans (List.map_id names)

/-- The identifiers of rows do not matter for what is made of them. -/
theorem map_numbered {γ : Type} (make : ℕ → α → β) (f : β → γ) {g : α → γ}
    (h : ∀ id row, f (make id row) = g row) (first : ℕ) (rows : List α) :
    (numbered make first rows).map f = rows.map g := by
  rw [numbered, List.map_map]
  have hpair : (f ∘ fun entry : α × ℕ ↦ make entry.2 entry.1) = g ∘ Prod.fst := funext fun entry ↦ h entry.2 entry.1
  calc (rows.zipIdx first).map (f ∘ fun entry : α × ℕ ↦ make entry.2 entry.1)
      = (rows.zipIdx first).map (g ∘ Prod.fst) := by rw [hpair]
    _ = ((rows.zipIdx first).map Prod.fst).map g := (List.map_map).symm
    _ = rows.map g := by rw [List.zipIdx_map_fst]

/-! ### Rows -/

section Rows

variable {driver : DesignDriver}

variable {column : TableColumnSchema} {constraint : TableConstraintSchema}

section

variable (h : DescribedColumn driver column) (profile : TableDesignDriverProfile) (id : ℕ)
include h profile id

/-- The identity of a column is read back. -/
theorem identity_columnToDraft :
    (columnToSchema driver (columnToDraft profile id column)).identity = column.identity := by
  obtain hnone | ⟨identity, hsome⟩ := Option.eq_none_or_eq_some column.identity
  · have hflag : column.isIdentity = false := by rw [← h.identity, hnone]; rfl
    simp only [columnToSchema, columnToDraft, hnone, hflag, if_false, Bool.false_eq_true]
  · have hflag : column.isIdentity = true := by rw [← h.identity, hsome]; rfl
    have hoptions := h.options identity hsome
    simp only [columnToSchema, columnToDraft, hsome, hflag, if_true, Option.map_some, Option.bind_some,
      Option.getD_some, nullableText_getD hoptions.start, nullableText_getD hoptions.increment,
      nullableText_getD hoptions.minValue, nullableText_getD hoptions.maxValue, nullableText_getD hoptions.cache]

/-- What a column is generated by is read back. -/
theorem generated_columnToDraft :
    (columnToSchema driver (columnToDraft profile id column)).generated = column.generated := by
  obtain hnone | ⟨generated, hsome⟩ := Option.eq_none_or_eq_some column.generated
  · simp only [columnToSchema, columnToDraft, hnone]
    rfl
  · obtain ⟨hexpression, hstorage⟩ := h.generated generated hsome
    simp only [columnToSchema, columnToDraft, hsome, Option.map_some, Option.getD_some,
      nullableText_of_described hexpression, hexpression.1]
    by_cases horacle : driver = .oracle
    · rw [if_pos horacle, ← hstorage horacle]
    · rw [if_neg horacle]

/-- A column is read back with the type that the designer writes. -/
theorem columnToSchema_columnToDraft :
    columnToSchema driver (columnToDraft profile id column) =
      { column with
        typeName := scriptTrim (formatColumnType (parseColumnType column.typeName profile) profile)
        charset := unlessIgnored driver column.charset
        collation := unlessIgnored driver column.collation } := by
  have hidentity := identity_columnToDraft h profile id
  have hgenerated := generated_columnToDraft h profile id
  simp only [columnToSchema, columnToDraft] at hidentity hgenerated
  simp only [columnToSchema, columnToDraft]
  rw [hidentity, hgenerated, h.name.1, nullableText_getD h.defaultValue, nullableText_getD h.comment,
    unlessOracle_getD h.charset, unlessOracle_getD h.collation]

end

/-- A column is read back if and only if its type is kept. -/
theorem comparableColumn_iff (h : DescribedColumn driver column) (id : ℕ) :
    comparableColumn driver
          (columnToSchema driver (columnToDraft (tableDesignProfileForDriver driver) id column)) =
        comparableColumn driver column ↔
      TypeKept (tableDesignProfileForDriver driver) column.typeName := by
  rw [← comparableType_parseColumnType_iff (wellFormed_of_mem_typeCatalog driver), columnToSchema_columnToDraft h,
    comparableColumn, comparableColumn, Prod.mk.injEq, comparableType_scriptTrim]
  simp only [unlessIgnored_unlessIgnored, true_and]

/-- An index is read back if and only if there is no comma in a name of its columns. -/
theorem comparableIndex_iff {index : TableIndexSchema} (h : DescribedIndex index) (id : ℕ) :
    comparableIndex driver (indexToSchema driver (indexToDraft id index)) = comparableIndex driver index ↔
      ∀ name ∈ index.columns, ',' ∉ name.toList := by
  have hrow : comparableIndex driver (indexToSchema driver (indexToDraft id index)) =
      { comparableIndex driver index with columns := splitColumnList (joinNames index.columns) } := by
    simp only [comparableIndex, indexToSchema, indexToDraft, h.name.1, unlessOracle_getD h.method,
      unlessOracle_getD h.comment, unlessIgnored_unlessIgnored]
  rw [hrow, ← splitColumnList_joinNames_iff h.columns]
  constructor
  · exact congrArg TableIndexSchema.columns
  · intro hcolumns
    rw [hcolumns]
    rfl

/-- The table that a described reference names is read back, with its qualifier. -/
theorem foreignKeyOf_constraintToDraft (hdriver : driver ≠ .other) (h : DescribedConstraint driver constraint)
    (id : ℕ) :
    foreignKeyOf driver (constraintToDraft id constraint) =
      constraint.foreignKey.map fun key ↦ { key with columns := splitColumnList (joinNames key.columns) } := by
  obtain hnone | ⟨key, hsome⟩ := Option.eq_none_or_eq_some constraint.foreignKey
  · have htable : (constraintToDraft id constraint).referenceTable = "" := by
      simp only [constraintToDraft, hnone, Option.map_none, Option.getD_none]
    have hempty : nullableText "" = none := rfl
    rw [foreignKeyOf, htable, hempty, hnone]
    split <;> rfl
  · obtain ⟨hkind, hkey⟩ := h.foreignKey key hsome
    have hdatabase : (if driver = .mysql then nullableText ((key.schemaName.or key.databaseName).getD "") else none) =
        key.databaseName := by
      by_cases hmysql : driver = .mysql
      · have hschema : key.schemaName = none :=
          Option.eq_none_iff_forall_not_mem.2 fun text htext ↦ (hkey.schemaName text htext).1 hmysql
        rw [if_pos hmysql, hschema, Option.none_or, nullableText_getD fun text htext ↦ (hkey.databaseName text htext).2]
      · rw [if_neg hmysql]
        exact (Option.eq_none_iff_forall_not_mem.2 fun text htext ↦ hmysql (hkey.databaseName text htext).1).symm
    have hschema : (if driver = .postgres ∨ driver = .oracle then
        nullableText ((key.schemaName.or key.databaseName).getD "") else none) = key.schemaName := by
      by_cases hmysql : driver = .mysql
      · rw [if_neg (by rw [hmysql]; decide)]
        exact (Option.eq_none_iff_forall_not_mem.2 fun text htext ↦ (hkey.schemaName text htext).1 hmysql).symm
      · have hother : driver = .postgres ∨ driver = .oracle := by
          cases driver with
          | mysql => exact absurd rfl hmysql
          | postgres => exact Or.inl rfl
          | oracle => exact Or.inr rfl
          | other => exact absurd rfl hdriver
        have hnone : key.databaseName = none :=
          Option.eq_none_iff_forall_not_mem.2 fun text htext ↦ hmysql (hkey.databaseName text htext).1
        rw [if_pos hother, hnone, Option.or_none, nullableText_getD fun text htext ↦ (hkey.schemaName text htext).2]
    simp only [foreignKeyOf, constraintToDraft, hkind, hsome, if_true, Option.map_some, Option.bind_some,
      Option.getD_some, nullableText_of_described hkey.tableName, hdatabase, hschema]

/-- Whether a constraint is enforced is read back but for the keys of Oracle. -/
theorem enforced_constraintToDraft_iff (h : DescribedConstraint driver constraint) (id : ℕ) :
    (constraintToSchema driver (constraintToDraft id constraint)).enforced = constraint.enforced ↔
      (driver = .oracle → constraint.kind = .check ∨ constraint.kind = .foreignKey) := by
  have hrow : (constraintToSchema driver (constraintToDraft id constraint)).enforced =
      if constraint.kind = .check ∨ constraint.kind = .foreignKey then some (constraint.enforced.getD true)
      else none := rfl
  rw [hrow]
  by_cases hkind : constraint.kind = .check ∨ constraint.kind = .foreignKey
  · rw [if_pos hkind]
    obtain ⟨enforced, hsome⟩ := Option.isSome_iff_exists.1 (h.enforced.2 (Or.inr hkind))
    rw [hsome]
    exact iff_of_true rfl fun _ ↦ hkind
  · rw [if_neg hkind]
    constructor
    · intro hnone horacle
      have hsome := h.enforced.2 (Or.inl horacle)
      rw [← hnone] at hsome
      exact (nomatch hsome)
    · intro horacle
      obtain hnone | ⟨enforced, hsome⟩ := Option.eq_none_or_eq_some constraint.enforced
      · exact hnone.symm
      · obtain hdriver | hkind' := h.enforced.1 (by rw [hsome]; rfl)
        · exact absurd (horacle hdriver) hkind
        · exact absurd hkind' hkind

/-- **A constraint is read back if and only if** there is no comma in a name of its columns, and it is not a key of
Oracle. -/
theorem constraintToSchema_iff (hdriver : driver ≠ .other) (h : DescribedConstraint driver constraint)
    (id : ℕ) :
    constraintToSchema driver (constraintToDraft id constraint) = constraint ↔
      (∀ name ∈ constraint.columns, ',' ∉ name.toList) ∧
      (∀ key ∈ constraint.foreignKey, ∀ name ∈ key.columns, ',' ∉ name.toList) ∧
      (driver = .oracle → constraint.kind = .check ∨ constraint.kind = .foreignKey) := by
  have hempty : nullableText "" = none := rfl
  have hforeign := foreignKeyOf_constraintToDraft hdriver h id
  have hrow : constraintToSchema driver (constraintToDraft id constraint) =
      { constraint with
        columns := splitColumnList (joinNames constraint.columns)
        foreignKey :=
          constraint.foreignKey.map fun key ↦ { key with columns := splitColumnList (joinNames key.columns) }
        enforced := (constraintToSchema driver (constraintToDraft id constraint)).enforced } := by
    simp only [constraintToSchema, hforeign]
    simp only [constraintToDraft, h.name.1, h.reference, Option.getD_none, hempty, nullableText_getD h.expression,
      nullableText_getD h.comment]
  have hreference : (constraint.foreignKey.map fun key ↦
      { key with columns := splitColumnList (joinNames key.columns) }) = constraint.foreignKey ↔
      ∀ key ∈ constraint.foreignKey, ∀ name ∈ key.columns, ',' ∉ name.toList := by
    obtain hnone | ⟨key, hsome⟩ := Option.eq_none_or_eq_some constraint.foreignKey
    · rw [hnone]
      exact iff_of_true rfl fun key hkey ↦ (nomatch hkey)
    · have hkey := splitColumnList_joinNames_iff (h.foreignKey key hsome).2.columns
      have hmem : (∀ other ∈ some key, ∀ name ∈ other.columns, ',' ∉ name.toList) ↔
          ∀ name ∈ key.columns, ',' ∉ name.toList := by
        simp only [Option.mem_some_iff, forall_eq']
      rw [hsome, Option.map_some, Option.some_inj, hmem, ← hkey]
      constructor
      · exact congrArg TableForeignKeyReference.columns
      · intro hcolumns
        rw [hcolumns]
  rw [← splitColumnList_joinNames_iff h.columns, ← enforced_constraintToDraft_iff h id, ← hreference]
  constructor
  · intro heq
    rw [hrow] at heq
    exact ⟨congrArg (·.columns) heq, congrArg (·.foreignKey) heq, congrArg (·.enforced) heq⟩
  · rintro ⟨hcolumns, hkey, henforced⟩
    rw [hrow, hcolumns, hkey, henforced]

end Rows

/-! ### The schema -/

/-- The schema that is sent for a table that has been opened. -/
def sentSchema (driver : DesignDriver) (schema : TableSchema) : TableSchema :=
  tableSchemaDraftToTableSchema (tableSchemaToDraft schema driver) (contextOf driver schema)

theorem comparableBasics_sentSchema (h : DescribedBy driver schema) :
    comparableBasics driver (sentSchema driver schema).basics = comparableBasics driver schema.basics := by
  have hpartition : partitionOf (tableSchemaToDraft schema driver).basics = schema.basics.partition := by
    have hempty : nullableText "" = none := rfl
    obtain hnone | ⟨partition, hsome⟩ := Option.eq_none_or_eq_some schema.basics.partition
    · simp [partitionOf, tableSchemaToDraft, hnone, hempty]
    · obtain ⟨hexpression, hraw, text, htext, hdescribed⟩ := h.partition partition hsome
      obtain ⟨expression, rawClause, readonlyDescription⟩ := partition
      obtain rfl : expression = none := hexpression
      obtain rfl : rawClause = none := hraw
      obtain rfl : readonlyDescription = some text := htext
      simp [partitionOf, tableSchemaToDraft, hsome, hempty, nullableText_of_described hdescribed]
  have hbasics : (sentSchema driver schema).basics = comparableBasics driver schema.basics := by
    simp only [sentSchema, tableSchemaDraftToTableSchema, contextOf, hpartition]
    simp only [tableSchemaToDraft, comparableBasics, unlessOracle_getD h.engine, unlessOracle_getD h.charset,
      unlessOracle_getD h.collation, nullableText_getD h.comment]
  rw [hbasics]
  simp only [comparableBasics, unlessIgnored_unlessIgnored]

/-- **The schema that is sent is the one that is described if and only if the designer keeps it.** -/
theorem sameSchema_sentSchema_iff (h : DescribedBy driver schema) :
    SameSchema driver (sentSchema driver schema) schema ↔ SchemaKept driver schema := by
  have hcolumns : (sentSchema driver schema).columns.map (comparableColumn driver) = schema.columns.map fun column ↦
      comparableColumn driver (columnToSchema driver (columnToDraft (tableDesignProfileForDriver driver) 0 column)) := by
    rw [sentSchema, tableSchemaDraftToTableSchema, List.map_map]
    exact map_numbered (columnToDraft (tableDesignProfileForDriver driver)) _ (fun id column ↦ rfl) _ _
  have hindexes : (sentSchema driver schema).indexes.map (comparableIndex driver) = schema.indexes.map fun index ↦
      comparableIndex driver (indexToSchema driver (indexToDraft 0 index)) := by
    rw [sentSchema, tableSchemaDraftToTableSchema, List.map_map]
    exact map_numbered indexToDraft _ (fun id index ↦ rfl) _ _
  have hconstraints : (sentSchema driver schema).constraints = schema.constraints.map fun constraint ↦
      constraintToSchema driver (constraintToDraft 0 constraint) :=
    map_numbered constraintToDraft (constraintToSchema driver) (fun id constraint ↦ rfl) _ _
  have hcolumn : (sentSchema driver schema).columns.map (comparableColumn driver) =
      schema.columns.map (comparableColumn driver) ↔
      ∀ column ∈ schema.columns, TypeKept (tableDesignProfileForDriver driver) column.typeName := by
    rw [hcolumns, List.map_inj_left]
    exact forall₂_congr fun column hmem ↦ comparableColumn_iff (h.columns column hmem) 0
  have hindex : (sentSchema driver schema).indexes.map (comparableIndex driver) =
      schema.indexes.map (comparableIndex driver) ↔
      ∀ index ∈ schema.indexes, ∀ name ∈ index.columns, ',' ∉ name.toList := by
    rw [hindexes, List.map_inj_left]
    exact forall₂_congr fun index hmem ↦ comparableIndex_iff (h.indexes index hmem) 0
  have hconstraint : (sentSchema driver schema).constraints = schema.constraints ↔
      ∀ constraint ∈ schema.constraints, (∀ name ∈ constraint.columns, ',' ∉ name.toList) ∧
        (∀ key ∈ constraint.foreignKey, ∀ name ∈ key.columns, ',' ∉ name.toList) ∧
        (driver = .oracle → constraint.kind = .check ∨ constraint.kind = .foreignKey) := by
    have hid : schema.constraints = schema.constraints.map id := (List.map_id _).symm
    rw [hconstraints]
    conv_lhs => rw [hid]
    rw [List.map_map, List.map_inj_left]
    exact forall₂_congr fun constraint hmem ↦ constraintToSchema_iff h.known (h.constraints constraint hmem) 0
  constructor
  · intro hsame
    have hall := hconstraint.1 hsame.constraints
    refine ⟨?_, hindex.1 hsame.indexes, fun constraint hmem ↦ (hall constraint hmem).1,
      fun constraint hmem ↦ (hall constraint hmem).2.1, fun horacle constraint hmem ↦ (hall constraint hmem).2.2 horacle⟩
    rw [← hcolumn]
    exact hsame.columns
  · rintro ⟨htypes, hindexes, hkept, hreferences, hkeys⟩
    exact ⟨comparableBasics_sentSchema h, hcolumn.2 htypes, hindex.2 hindexes,
      hconstraint.2 fun constraint hmem ↦ ⟨hkept constraint hmem, hreferences constraint hmem,
        fun horacle ↦ hkeys horacle constraint hmem⟩⟩

/-! ### Changing one attribute -/

/-- The attributes of a column that are changed on their own. A change of the name or of the primary key is one of
the lists of columns too. -/
inductive ColumnAttribute
  | type
  | nullable
  | defaultValue
  | isUnique
  | identity
  | generated
  | charset
  | collation
  | comment
  deriving DecidableEq

/-- A patch of one attribute. -/
def ColumnPatch.Only (patch : ColumnPatch) : ColumnAttribute → Prop
  | .type => patch = { typeName := patch.typeName, typeDraft := patch.typeDraft }
  | .nullable => patch = { nullable := patch.nullable }
  | .defaultValue => patch = { defaultValue := patch.defaultValue }
  | .isUnique => patch = { isUnique := patch.isUnique }
  | .identity => patch = {
      isIdentity := patch.isIdentity, identityGeneration := patch.identityGeneration,
      identityStart := patch.identityStart, identityIncrement := patch.identityIncrement,
      identityMinValue := patch.identityMinValue, identityMaxValue := patch.identityMaxValue,
      identityCache := patch.identityCache, identityCycle := patch.identityCycle }
  | .generated => patch = {
      generatedExpression := patch.generatedExpression, generatedStorage := patch.generatedStorage }
  | .charset => patch = { charset := patch.charset }
  | .collation => patch = { collation := patch.collation }
  | .comment => patch = { comment := patch.comment }

/-- A column with an attribute of a described one. -/
def withAttribute (field : ColumnAttribute) (described column : TableColumnSchema) : TableColumnSchema :=
  match field with
  | .type => { column with typeName := described.typeName }
  | .nullable => { column with nullable := described.nullable }
  | .defaultValue => { column with defaultValue := described.defaultValue }
  | .isUnique => { column with isUnique := described.isUnique }
  | .identity => { column with isIdentity := described.isIdentity, identity := described.identity }
  | .generated => { column with generated := described.generated }
  | .charset => { column with charset := described.charset }
  | .collation => { column with collation := described.collation }
  | .comment => { column with comment := described.comment }

/-- A schema with an attribute of one column as it is described. -/
def restoreAttribute (field : ColumnAttribute) (rowIndex : ℕ) (described schema : TableSchema) : TableSchema :=
  { schema with
    columns := schema.columns.modify rowIndex fun column ↦
      (described.columns[rowIndex]?.map (withAttribute field · column)).getD column }

/-- The schema that is sent after a column of an opened table has been changed. -/
def patchedSchema (driver : DesignDriver) (schema : TableSchema) (rowIndex : ℕ) (patch : ColumnPatch) (nextId : ℕ) :
    TableSchema :=
  tableSchemaDraftToTableSchema
    (patchColumnDraft (tableDesignProfileForDriver driver) rowIndex patch
      ⟨tableSchemaToDraft schema driver, nextId⟩).draft
    (contextOf driver schema)

/-- **Opening a table loses nothing**: what is sent is what is described, and after one attribute of a column has
been changed, all else is. -/
structure LosesNothing (driver : DesignDriver) (schema : TableSchema) : Prop where
  sent : SameSchema driver (sentSchema driver schema) schema
  patched : ∀ rowIndex field patch nextId, ColumnPatch.Only patch field →
    SameSchema driver
      (restoreAttribute field rowIndex schema (patchedSchema driver schema rowIndex patch nextId)) schema

variable {field : ColumnAttribute}

/-- A patch of one attribute does not change the others. -/
theorem withAttribute_patch {profile : TableDesignDriverProfile} (honly : patch.Only field)
    (described : TableColumnSchema) {column : TableColumnDraft}
    (htype : column.typeName = formatColumnType column.typeDraft profile) :
    withAttribute field described
        (columnToSchema driver (normalizeColumnDraftType (patch.apply column) profile)) =
      withAttribute field described (columnToSchema driver column) := by
  cases field with
  | type =>
    rw [honly]
    simp only [withAttribute, columnToSchema, normalizeColumnDraftType, ColumnPatch.apply, Option.getD_none]
    rfl
  | _ =>
    rw [honly]
    simp only [withAttribute, columnToSchema, normalizeColumnDraftType, ColumnPatch.apply, Option.getD_none, ← htype]

/-- An attribute that is described is compared as described. -/
theorem comparableColumn_withAttribute (field : ColumnAttribute) {described column : TableColumnSchema}
    (h : comparableColumn driver column = comparableColumn driver described) :
    comparableColumn driver (withAttribute field described column) = comparableColumn driver described := by
  obtain ⟨hcolumn, htype⟩ := Prod.mk.inj h
  simp only [TableColumnSchema.mk.injEq] at hcolumn
  cases field <;> simp [comparableColumn, withAttribute, hcolumn, htype]

theorem typeName_columnToDraft (profile : TableDesignDriverProfile) (id : ℕ) (column : TableColumnSchema) :
    (columnToDraft profile id column).typeName =
      formatColumnType (columnToDraft profile id column).typeDraft profile := by
  rw [columnToDraft]

/-- A row of a list that is modified, and then converted and modified once more. -/
theorem getElem?_modify_map_modify (f : α → α) (g : α → β) (k : β → β) (i j : ℕ) (rows : List α) :
    (((rows.modify i f).map g).modify i k)[j]? = rows[j]?.map fun row ↦ if i = j then k (g (f row)) else g row := by
  rw [List.getElem?_modify, List.getElem?_map, List.getElem?_modify]
  cases rows[j]? with
  | none => rfl
  | some row =>
    by_cases hij : i = j
    · simp [hij]
    · simp [hij]

/-- The columns of the draft of an opened table. -/
theorem getElem?_columns_tableSchemaToDraft (driver : DesignDriver) (schema : TableSchema) (j : ℕ) :
    (tableSchemaToDraft schema driver).columns[j]? =
      schema.columns[j]?.map (columnToDraft (tableDesignProfileForDriver driver) j) := by
  show (numbered (columnToDraft (tableDesignProfileForDriver driver)) 0 schema.columns)[j]? = _
  rw [numbered, List.getElem?_map, List.getElem?_zipIdx]
  cases schema.columns[j]? with
  | none => rfl
  | some column =>
    show some (columnToDraft _ (0 + j) column) = _
    rw [Nat.zero_add]
    rfl

/-- A column that is neither renamed nor a part of the primary key is changed alone. -/
theorem editColumn_none (rowIndex : ℕ) (change : TableColumnDraft → TableColumnDraft) (editing : Editing) :
    (editColumn rowIndex change none false editing).draft =
      { editing.draft with columns := editing.draft.columns.modify rowIndex change } := by
  have hindexes : (editing.draft.indexes.map fun index ↦ { index with columns := index.columns }) =
      editing.draft.indexes := List.map_id _
  have hconstraints : (editing.draft.constraints.map fun constraint ↦
      { constraint with columns := constraint.columns }) = editing.draft.constraints := List.map_id _
  simp only [editColumn, hindexes, hconstraints, Bool.false_eq_true, if_false]

/-- After one attribute of a column has been changed, all else is as described. -/
theorem sameSchema_patchedSchema (hsame : SameSchema driver (sentSchema driver schema) schema) (rowIndex : ℕ)
    (nextId : ℕ) (honly : patch.Only field) :
    SameSchema driver (restoreAttribute field rowIndex schema (patchedSchema driver schema rowIndex patch nextId))
      schema := by
  have hname : patch.name = none ∧ patch.isPrimaryKey = none := by
    cases field <;> rw [honly] <;> exact ⟨rfl, rfl⟩
  have hdraft : (patchColumnDraft (tableDesignProfileForDriver driver) rowIndex patch
      ⟨tableSchemaToDraft schema driver, nextId⟩).draft =
      { tableSchemaToDraft schema driver with
        columns := (tableSchemaToDraft schema driver).columns.modify rowIndex fun column ↦
          normalizeColumnDraftType (patch.apply column) (tableDesignProfileForDriver driver) } := by
    rw [patchColumnDraft, hname.1, hname.2]
    exact editColumn_none _ _ _
  have hrow : ∀ j column, schema.columns[j]? = some column →
      comparableColumn driver
          (columnToSchema driver (columnToDraft (tableDesignProfileForDriver driver) j column)) =
        comparableColumn driver column := by
    intro j column hcolumn
    have hj := congrArg (·[j]?) hsame.columns
    simp only [sentSchema, tableSchemaDraftToTableSchema, List.getElem?_map, getElem?_columns_tableSchemaToDraft,
      hcolumn, Option.map_some, Option.some_inj] at hj
    exact hj
  rw [patchedSchema, hdraft]
  refine ⟨hsame.basics, ?_, hsame.indexes, hsame.constraints⟩
  refine List.ext_getElem? fun j ↦ ?_
  rw [List.getElem?_map, List.getElem?_map, restoreAttribute, tableSchemaDraftToTableSchema]
  show Option.map _ ((List.modify (List.map _ (List.modify _ rowIndex _)) rowIndex _)[j]?) = _
  rw [getElem?_modify_map_modify, getElem?_columns_tableSchemaToDraft]
  obtain hnone | ⟨column, hcolumn⟩ := Option.eq_none_or_eq_some schema.columns[j]?
  · rw [hnone]
    rfl
  rw [hcolumn, Option.map_some, Option.map_some, Option.map_some, Option.map_some, Option.some_inj]
  by_cases hj : rowIndex = j
  · rw [if_pos hj, hj, hcolumn, Option.map_some, Option.getD_some]
    show comparableColumn driver (withAttribute field column _) = _
    rw [withAttribute_patch honly column (typeName_columnToDraft _ j column)]
    exact comparableColumn_withAttribute field (hrow j column hcolumn)
  · rw [if_neg hj]
    exact hrow j column hcolumn

/-- **Opening a table loses nothing if and only if** the catalog of the designer has room for the types of its
columns, no name in a list of columns has a comma, and it has no keys if it is a table of Oracle. -/
theorem losesNothing_iff {driver : DesignDriver} {schema : TableSchema} (h : DescribedBy driver schema) :
    LosesNothing driver schema ↔ SchemaKept driver schema := by
  rw [← sameSchema_sentSchema_iff h]
  exact ⟨LosesNothing.sent, fun hsame ↦
    ⟨hsame, fun rowIndex field patch nextId honly ↦ sameSchema_patchedSchema hsame rowIndex nextId honly⟩⟩

/-! ### A table with an enumeration -/

namespace EnumSample

/-- A described column of a type. -/
def column (name typeName : String) : TableColumnSchema :=
  { name, typeName }

/-- A described table of MySQL with an enumeration. -/
def orders : TableSchema where
  basics := { tableName := "orders", databaseName := "shop", schemaName := "" }
  columns := [column "state" "enum('open','done')"]
  indexes := []
  constraints := []

/-- A described table of MySQL that is kept. -/
def items : TableSchema where
  basics := { tableName := "items", databaseName := "shop", schemaName := "" }
  columns := [column "price" "decimal(12,2) unsigned", column "label" "varchar(40)"]
  indexes := [⟨"by_label", ["label", "price"], false, some "BTREE", none⟩]
  constraints := []

theorem described_column {name typeName : String} (h : DescribedText name) :
    DescribedColumn .mysql (column name typeName) where
  name := h
  defaultValue := fun _ h ↦ (nomatch h)
  identity := rfl
  options := fun _ h ↦ (nomatch h)
  generated := fun _ h ↦ (nomatch h)
  charset := fun _ h ↦ (nomatch h)
  collation := fun _ h ↦ (nomatch h)
  comment := fun _ h ↦ (nomatch h)

theorem describedBy_orders : DescribedBy .mysql orders where
  known := DesignDriver.noConfusion
  engine := fun _ h ↦ (nomatch h)
  charset := fun _ h ↦ (nomatch h)
  collation := fun _ h ↦ (nomatch h)
  comment := fun _ h ↦ (nomatch h)
  partition := fun _ h ↦ (nomatch h)
  columns := by
    intro column hmem
    rw [List.mem_singleton.1 hmem]
    exact described_column (by decide)
  indexes := fun _ h ↦ (nomatch h)
  constraints := fun _ h ↦ (nomatch h)

theorem describedBy_items : DescribedBy .mysql items where
  known := DesignDriver.noConfusion
  engine := fun _ h ↦ (nomatch h)
  charset := fun _ h ↦ (nomatch h)
  collation := fun _ h ↦ (nomatch h)
  comment := fun _ h ↦ (nomatch h)
  partition := fun _ h ↦ (nomatch h)
  columns := by
    intro column hmem
    obtain rfl | hmem := List.mem_cons.1 hmem
    · exact described_column (by decide)
    · rw [List.mem_singleton.1 hmem]
      exact described_column (by decide)
  indexes := by
    intro index hmem
    rw [List.mem_singleton.1 hmem]
    refine ⟨by decide, by decide, fun text h ↦ ?_, fun text h ↦ (nomatch h)⟩
    obtain rfl : "BTREE" = text := Option.some.inj h
    decide
  constraints := fun _ h ↦ (nomatch h)

end EnumSample

/-- The values of an enumeration are lost when a table is opened. -/
theorem not_losesNothing_orders :
    DescribedBy .mysql EnumSample.orders ∧
      (sentSchema .mysql EnumSample.orders).columns.map (·.typeName) = ["enum"] ∧
      ¬LosesNothing .mysql EnumSample.orders := by
  have htypes : (sentSchema .mysql EnumSample.orders).columns.map (·.typeName) = ["enum"] := by decide
  refine ⟨EnumSample.describedBy_orders, htypes, fun hall ↦ ?_⟩
  have hcolumns := hall.sent.columns
  revert hcolumns
  decide

/-- A table with a price and a label is kept. -/
theorem losesNothing_items : DescribedBy .mysql EnumSample.items ∧ LosesNothing .mysql EnumSample.items := by
  refine ⟨EnumSample.describedBy_items, (losesNothing_iff EnumSample.describedBy_items).2 ?_⟩
  refine ⟨by decide, by decide, by decide, fun _ hmem ↦ (nomatch hmem), fun h ↦ (nomatch h)⟩

end Design
