import NexusPilot.Postgres.UpdateTable
import NexusPilot.Schema.Marker

/-!
# Destructive updates of a PostgreSQL table

The markers of the PostgreSQL driver in its statements: as for MySQL, `spells_statement_iff` says where a
marker comes from, and `destructive_iff` reads it off the difference. Here a dropped constraint is marked,
and a change of a column's definition is not, unless it changes the type.
-/

namespace Postgres

open Drivers Schema

/-- The markers of a destructive statement. -/
def markers : List String :=
  [" DROP COLUMN ", " TYPE ", " DROP CONSTRAINT ", " ADD PRIMARY KEY "]

theorem validMarkers : ValidMarkers markers := by
  simp [ValidMarkers, markers, outsideMarker]

theorem tableUpdateStatementsAreDestructive_eq (statements : List String) :
    tableUpdateStatementsAreDestructive statements = statements.any (spells markers) := by
  refine congrArg statements.any (funext fun statement ↦ ?_)
  simp [spells, markers, Bool.or_assoc]

/-! ### One statement -/

/-- Whether a statement is one of those that the markers stand for. -/
def Statement.marked : Statement → Bool
  | .alterType .. | .dropConstraint _ | .addPrimaryKey _ | .dropColumn _ => true
  | _ => false

/-- The texts of a statement are delimited: definitions begin with a quote, and so do literals, except that
there may be none. -/
def Statement.Shaped : Statement → Prop
  | .commentOnTable literal | .commentOnColumn _ literal => opens literal = true ∨ literal = "NULL"
  | .addColumn _ definition => opens definition = true
  | .addConstraint definition => ConstraintShaped definition
  | _ => True

theorem unmarked_keywords : ∀ text ∈ ["ALTER TABLE ", "COMMENT ON TABLE ", " IS ", " ADD COLUMN ",
    "COMMENT ON COLUMN ", ".", " RENAME COLUMN ", " TO ", " ALTER COLUMN ", " DROP DEFAULT",
    " DROP NOT NULL", " SET NOT NULL", " DROP IDENTITY", " ADD ", "DROP INDEX ", "CREATE UNIQUE INDEX ",
    "CREATE INDEX ", " ON ", "(", ")", " ADD GENERATED ALWAYS AS IDENTITY",
    " ADD GENERATED BY DEFAULT AS IDENTITY", " SET GENERATED ALWAYS", " SET GENERATED BY DEFAULT"],
    spells markers text = false := by
  decide

theorem marked_keywords : ∀ text ∈ [" TYPE ", " DROP CONSTRAINT ", " ADD PRIMARY KEY (",
    " DROP COLUMN "], spells markers text = true := by
  decide

theorem addIdentity_keyword (generation : TableIdentityGeneration) :
    spells markers (" ADD " ++ postgresIdentityGeneration generation ++ " AS IDENTITY") = false := by
  cases generation
  · exact unmarked_keywords " ADD GENERATED ALWAYS AS IDENTITY" (by simp)
  · exact unmarked_keywords " ADD GENERATED BY DEFAULT AS IDENTITY" (by simp)

theorem setGenerated_keyword (generation : TableIdentityGeneration) :
    spells markers (" SET GENERATED " ++ postgresIdentityGenerationKeyword generation) = false := by
  cases generation
  · exact unmarked_keywords " SET GENERATED ALWAYS" (by simp)
  · exact unmarked_keywords " SET GENERATED BY DEFAULT" (by simp)

theorem keywordSpells_pieces (schema table : String) (statement : Statement) :
    keywordSpells markers (statement.pieces schema table) = statement.marked := by
  have hplain := unmarked_keywords
  have hmarked := marked_keywords
  simp only [List.forall_mem_cons, List.not_mem_nil, false_implies, implies_true, and_true] at hplain hmarked
  cases statement with
  | addIdentity name generation =>
    simp [keywordSpells, Statement.pieces, alterColumnPieces, Statement.marked, hplain, addIdentity_keyword]
  | setGenerated name generation =>
    simp [keywordSpells, Statement.pieces, alterColumnPieces, Statement.marked, hplain, setGenerated_keyword]
  | alterNullability name nullable =>
    cases nullable <;>
      simp [keywordSpells, Statement.pieces, alterColumnPieces, Statement.marked, hplain]
  | createIndex isUnique name method columns =>
    cases isUnique <;> simp [keywordSpells, Statement.pieces, Statement.marked, hplain]
  | _ => simp [keywordSpells, Statement.pieces, alterColumnPieces, Statement.marked, hplain, hmarked]

theorem outsideMarker_quote : outsideMarker '"' = true := by
  decide

@[simp]
theorem opens_quotePgIdentifier (name : String) : opens (quotePgIdentifier name) = true :=
  opens_quotedText outsideMarker_quote

@[simp]
theorem closes_quotePgIdentifier (name : String) : closes (quotePgIdentifier name) = true :=
  closes_quotedText outsideMarker_quote

@[simp]
theorem opens_qualifiedTable (schema table : String) : opens (qualifiedTable schema table) = true := by
  rw [qualifiedTable, String.append_assoc]
  exact opens_append (opens_quotePgIdentifier schema)

@[simp]
theorem closes_qualifiedTable (schema table : String) : closes (qualifiedTable schema table) = true :=
  closes_append (closes_quotePgIdentifier table)

/-- The statements whose pieces show a border everywhere. -/
def Statement.bordered : Statement → Bool
  | .addConstraint _ | .alterType .. => false
  | .commentOnTable literal | .commentOnColumn _ literal => opens literal
  | _ => true

theorem bordered_pieces {schema table : String} {statement : Statement} (hshaped : statement.Shaped)
    (hborders : statement.bordered = true) :
    Bordered (statement.pieces schema (qualifiedTable schema table)) := by
  have hparen : closes " ADD PRIMARY KEY (" = true ∧ opens ")" = true ∧ closes "(" = true ∧
      opens "(" = true ∧ opens "." = true ∧ closes "." = true := by
    decide
  cases statement with
  | addConstraint definition => cases hborders
  | alterType name typeName => cases hborders
  | commentOnTable literal =>
    have hopens : opens literal = true := hborders
    simp [Bordered, Statement.pieces, Piece.text, hopens]
  | commentOnColumn name literal =>
    have hopens : opens literal = true := hborders
    simp [Bordered, Statement.pieces, Piece.text, hopens]
  | addColumn name definition =>
    have hopens : opens definition = true := hshaped
    simp [Bordered, Statement.pieces, Piece.text, hopens]
  | _ => simp [Bordered, Statement.pieces, alterColumnPieces, Piece.text, hparen]

/-- A comment that is removed: the keyword before `NULL` is joined with it. -/
theorem exists_of_spells_isNull {pieces : List Piece} (hborders : Bordered (pieces ++ [Piece.keyword " IS NULL"]))
    (h : spells markers (renderPieces (pieces ++ [Piece.keyword " IS ", Piece.carried "NULL"])) = true) :
    ∃ p ∈ pieces ++ [Piece.keyword " IS ", Piece.carried "NULL"], spells markers p.text = true := by
  have hjoin : " IS " ++ "NULL" = " IS NULL" := by decide
  have hsame : renderPieces (pieces ++ [Piece.keyword " IS ", Piece.carried "NULL"]) =
      renderPieces (pieces ++ [Piece.keyword " IS NULL"]) := by
    simp [renderPieces, Piece.text, hjoin]
  rw [hsame] at h
  obtain ⟨p, hp, hspells⟩ := exists_of_spells validMarkers hborders h
  obtain hp | hp := List.mem_append.1 hp
  · exact ⟨p, List.mem_append_left _ hp, hspells⟩
  · obtain rfl := List.mem_singleton.1 hp
    have hplain : spells markers " IS NULL" = false := by decide
    rw [Piece.text, hplain] at hspells
    cases hspells

/-- **A statement holds a marker** when it is one that the markers stand for, or when a text that it carries
holds one. -/
theorem spells_statement_iff {schema table : String} {statement : Statement}
    (hshaped : statement.Shaped) :
    spells markers (renderPieces (statement.pieces schema (qualifiedTable schema table))) = true ↔
      statement.marked = true ∨
        ∃ text ∈ carriedOf (statement.pieces schema (qualifiedTable schema table)),
          spells markers text = true := by
  rw [← keywordSpells_pieces schema (qualifiedTable schema table) statement, ← exists_spells_iff]
  refine ⟨fun h ↦ ?_, fun ⟨_, hp, hspells⟩ ↦ spells_of_mem hp hspells⟩
  by_cases hborders : statement.bordered = true
  · exact exists_of_spells validMarkers (bordered_pieces hshaped hborders) h
  · cases statement with
    | addConstraint definition =>
      exact exists_of_spells_addConstraint validMarkers (by decide) (opens_qualifiedTable ..)
        (closes_qualifiedTable ..) hshaped h
    | alterType name typeName =>
      have hmarked : spells markers " TYPE " = true := marked_keywords _ (by simp)
      exact ⟨.keyword " TYPE ", by simp [Statement.pieces, alterColumnPieces], hmarked⟩
    | commentOnTable literal =>
      obtain rfl : literal = "NULL" := Or.resolve_left hshaped hborders
      have hpieces : (Statement.commentOnTable "NULL").pieces schema (qualifiedTable schema table) =
          [Piece.keyword "COMMENT ON TABLE ", Piece.carried (qualifiedTable schema table)] ++
            [Piece.keyword " IS ", Piece.carried "NULL"] := rfl
      rw [hpieces] at h ⊢
      exact exists_of_spells_isNull (by simp [Bordered, Piece.text]) h
    | commentOnColumn name literal =>
      obtain rfl : literal = "NULL" := Or.resolve_left hshaped hborders
      have hpieces : (Statement.commentOnColumn name "NULL").pieces schema (qualifiedTable schema table) =
          [Piece.keyword "COMMENT ON COLUMN ", Piece.carried (qualifiedTable schema table), Piece.keyword ".",
            Piece.carried (quotePgIdentifier name)] ++ [Piece.keyword " IS ", Piece.carried "NULL"] := rfl
      rw [hpieces] at h ⊢
      exact exists_of_spells_isNull (by simp [Bordered, Piece.text]) h
    | _ => exact absurd rfl hborders

/-! ### The statements of a difference -/

theorem opens_postgresColumnDefinition {column : TableColumnSchema} {text : String}
    (h : postgresColumnDefinition column = .ok text) : opens text = true := by
  obtain ⟨_, -, h⟩ := exists_of_bind_eq_ok h
  obtain ⟨_, -, h⟩ := exists_of_bind_eq_ok h
  obtain ⟨_, -, h⟩ := exists_of_bind_eq_ok h
  rw [← Except.ok.inj h]
  simp only [String.append_assoc]
  exact opens_append (opens_quotePgIdentifier column.name)

theorem constraintShaped_postgresTableConstraintDefinition {constraint : TableConstraintSchema}
    {text : String} (h : postgresTableConstraintDefinition constraint = .ok text) :
    ConstraintShaped text := by
  obtain ⟨name, -, h⟩ := exists_of_bind_eq_ok h
  split at h
  · exact constraintShaped_foreignKeyDefinition opens_quotePgIdentifier h
  · obtain ⟨_, -, h⟩ := exists_of_bind_eq_ok h
    rw [← Except.ok.inj h]
    simp only [String.append_assoc]
    exact ⟨_, rfl, opens_append (opens_quotePgIdentifier name)⟩
  · cases h
  · cases h

variable {diff : TableSchemaUpdateDiff}

theorem opens_literalOf (comment : Option String) :
    opens (literalOf comment) = true ∨ literalOf comment = "NULL" := by
  cases comment with
  | none => exact .inr rfl
  | some comment => exact .inl (opens_quotedText (by decide))

/-- The statements of a difference have delimited texts. -/
theorem Rendered.shaped (h : Rendered diff) : ∀ statement ∈ statementsOf diff, statement.Shaped := by
  have hadded : ∀ column ∈ diff.addedColumns, ∀ statement ∈ addColumnStatementsOf column,
      statement.Shaped := by
    intro column hcolumn statement hstatement
    obtain rfl | hstatement := List.mem_cons.1 hstatement
    · obtain ⟨text, htext⟩ := h.added column hcolumn
      show opens (definitionOf column) = true
      rw [definitionOf, htext]
      exact opens_postgresColumnDefinition htext
    · obtain ⟨comment, -, rfl⟩ := List.mem_map.1 hstatement
      exact opens_literalOf (some comment)
  have hconstraints : ∀ constraint ∈ diff.addedConstraints,
      ConstraintShaped (constraintDefinitionOf constraint) := by
    intro constraint hconstraint
    obtain ⟨text, htext⟩ := h.constraints constraint hconstraint
    rw [constraintDefinitionOf, htext]
    exact constraintShaped_postgresTableConstraintDefinition htext
  have hdefault : ∀ change : ColumnDefaultChange, (defaultStatementOf change).Shaped := by
    intro change
    rw [defaultStatementOf]
    split <;> trivial
  have hidentity : ∀ change : ColumnIdentityChange, ∀ statement ∈ identityStatementsOf change,
      statement.Shaped := by
    intro change
    rw [identityStatementsOf]
    split <;> simp [Statement.Shaped]
  have hkey : ∀ change : PrimaryKeyChange, ∀ statement ∈ primaryKeyStatementsOf change,
      statement.Shaped := by
    intro change statement hstatement
    obtain hdropped | hadded := List.mem_append.1 hstatement
    · split_ifs at hdropped
      · cases hdropped
      · obtain ⟨name, -, rfl⟩ := List.mem_map.1 hdropped
        trivial
    · split_ifs at hadded
      · cases hadded
      · obtain rfl := List.mem_singleton.1 hadded
        trivial
  have hflat : ∀ {β : Type} (l : List β) (f : β → List Statement),
      (∀ item ∈ l, ∀ statement ∈ f item, statement.Shaped) →
        ∀ statement ∈ l.flatMap f, statement.Shaped := by
    intro β l f hall statement hstatement
    obtain ⟨item, hitem, hin⟩ := List.mem_flatMap.1 hstatement
    exact hall item hitem statement hin
  simp only [statementsOf, List.forall_mem_append, List.forall_mem_map]
  exact ⟨⟨⟨⟨⟨⟨⟨⟨⟨⟨⟨⟨⟨fun change _ ↦ opens_literalOf change.comment, hflat _ _ hadded⟩, fun _ _ ↦ trivial⟩,
    fun _ _ ↦ trivial⟩, fun change _ ↦ hdefault change⟩, fun _ _ ↦ trivial⟩,
    fun change _ ↦ opens_literalOf change.comment⟩, hflat _ _ fun change _ ↦ hidentity change⟩,
    hflat _ _ fun change _ ↦ hkey change⟩, fun _ _ ↦ trivial⟩, hconstraints⟩, fun _ _ ↦ trivial⟩,
    fun _ _ ↦ trivial⟩, fun _ _ ↦ trivial⟩

/-- The texts that the statements for an added column carry. -/
def addedTexts (table : String) (column : TableColumnSchema) : List String :=
  table :: definitionOf column :: (normalizedOptionalText column.comment).toList.flatMap
    fun comment ↦ [table, quotePgIdentifier column.name, quotedText '\'' comment]

/-- The texts that the statement for a changed default carries. -/
def defaultTexts (table : String) (change : ColumnDefaultChange) : List String :=
  table :: quotePgIdentifier (trim change.columnName) ::
    (normalizedOptionalText change.defaultValue).toList.map (" SET DEFAULT " ++ ·)

/-- The texts of the request that the statements of a difference carry, where the statements are not of a
kind that is destructive anyway. -/
def carriedTexts (schema table : String) (diff : TableSchemaUpdateDiff) : List String :=
  diff.tableCommentChange.toList.flatMap (fun change ↦ [table, literalOf change.comment]) ++
    diff.addedColumns.flatMap (addedTexts table) ++
    diff.renamedColumns.flatMap
      (fun rename ↦ [table, quotePgIdentifier rename.oldName, quotePgIdentifier rename.newName]) ++
    diff.columnDefaultChanges.flatMap (defaultTexts table) ++
    diff.columnNullabilityChanges.flatMap
      (fun change ↦ [table, quotePgIdentifier (trim change.columnName)]) ++
    diff.columnCommentChanges.flatMap
      (fun change ↦ [table, quotePgIdentifier change.columnName, literalOf change.comment]) ++
    (diff.identityChanges.filter fun change ↦
      change.oldIdentity ≠ none ∨ change.newIdentity ≠ none).flatMap
      (fun change ↦ [table, quotePgIdentifier (trim change.columnName)]) ++
    diff.addedConstraints.flatMap (fun constraint ↦ [table, constraintDefinitionOf constraint]) ++
    diff.droppedIndexes.flatMap
      (fun index ↦ [quotePgIdentifier schema, quotePgIdentifier (trim index.name)]) ++
    diff.addedIndexes.flatMap fun index ↦ [quotePgIdentifier (trim index.name), table,
      " USING " ++ (normalizedOptionalText index.method).getD "btree" ++ " ",
      quoteColumnList (index.columns.map trim) quotePgIdentifier]

/-- What makes a statement look destructive. -/
def Statement.Spells (schema table : String) (statement : Statement) : Prop :=
  statement.marked = true ∨
    ∃ text ∈ carriedOf (statement.pieces schema table), spells markers text = true

section Parts

variable (schema table : String)

theorem spells_addColumnStatementsOf_iff (column : TableColumnSchema) :
    (∃ statement ∈ addColumnStatementsOf column, statement.Spells schema table) ↔
      ∃ text ∈ addedTexts table column, spells markers text = true := by
  rw [addColumnStatementsOf, addedTexts]
  cases normalizedOptionalText column.comment with
  | none => simp [Statement.Spells, Statement.marked, Statement.pieces, carriedOf]
  | some comment =>
    simp [Statement.Spells, Statement.marked, Statement.pieces, carriedOf, or_assoc]

theorem spells_defaultStatementOf_iff (change : ColumnDefaultChange) :
    (defaultStatementOf change).Spells schema table ↔
      ∃ text ∈ defaultTexts table change, spells markers text = true := by
  rw [defaultStatementOf, defaultTexts]
  cases normalizedOptionalText change.defaultValue with
  | none => simp [Statement.Spells, Statement.marked, Statement.pieces, alterColumnPieces, carriedOf]
  | some value => simp [Statement.Spells, Statement.marked, Statement.pieces, alterColumnPieces, carriedOf]

theorem spells_identityStatementsOf_iff (change : ColumnIdentityChange) :
    (∃ statement ∈ identityStatementsOf change, statement.Spells schema table) ↔
      (change.oldIdentity ≠ none ∨ change.newIdentity ≠ none) ∧
        ∃ text ∈ [table, quotePgIdentifier (trim change.columnName)], spells markers text = true := by
  rw [identityStatementsOf]
  cases change.oldIdentity <;> cases change.newIdentity <;>
    simp [Statement.Spells, Statement.marked, Statement.pieces, alterColumnPieces, carriedOf]

theorem spells_primaryKeyStatementsOf {change : PrimaryKeyChange}
    (hne : change.oldColumns ≠ change.newColumns)
    (hnamed : change.oldColumns ≠ [] → (normalizedOptionalText change.oldConstraintName).isSome) :
    ∃ statement ∈ primaryKeyStatementsOf change, statement.Spells schema table := by
  by_cases hold : change.oldColumns = []
  · have hnew : change.newColumns ≠ [] := fun hnew ↦ hne (hold.trans hnew.symm)
    exact ⟨.addPrimaryKey change.newColumns, by simp [primaryKeyStatementsOf, hnew], .inl rfl⟩
  · obtain ⟨name, hname⟩ := Option.isSome_iff_exists.1 (hnamed hold)
    exact ⟨.dropConstraint name, by simp [primaryKeyStatementsOf, hold, hname], .inl rfl⟩

end Parts

/-- The parts of a list of statements, with those of the marked statements moved to the front. -/
theorem marked_parts_first (comment added renames types defaults nullabilities comments identities key
    constraints addedConstraints indexes dropped created : Prop) :
    ((((((((((((((comment ∨ added) ∨ renames) ∨ types) ∨ defaults) ∨ nullabilities) ∨ comments) ∨
      identities) ∨ key) ∨ constraints) ∨ addedConstraints) ∨ indexes) ∨ dropped) ∨ created) ↔
    dropped ∨ types ∨ constraints ∨ key ∨ (((((((((comment ∨ added) ∨ renames) ∨ defaults) ∨
      nullabilities) ∨ comments) ∨ identities) ∨ addedConstraints) ∨ indexes) ∨ created)) := by
  tauto

/-- The statements of a difference look destructive by what they do, or by a text that they carry. -/
theorem spells_statementsOf_iff (schema table : String) (hrendered : Rendered diff)
    (hkey : ∀ change, diff.primaryKeyChange = some change → change.oldColumns ≠ change.newColumns) :
    (∃ statement ∈ statementsOf diff, statement.Spells schema table) ↔
      diff.droppedColumns ≠ [] ∨ diff.columnTypeChanges ≠ [] ∨ diff.droppedConstraints ≠ [] ∨
        diff.primaryKeyChange ≠ none ∨
        ∃ text ∈ carriedTexts schema table diff, spells markers text = true := by
  have hmarked : ∀ {β : Type} (l : List β) (f : β → Statement), (∀ item, (f item).marked = true) →
      ((∃ item ∈ l, (f item).Spells schema table) ↔ l ≠ []) := by
    intro β l f hf
    refine ⟨fun ⟨_, hitem, _⟩ ↦ List.ne_nil_of_mem hitem, fun hne ↦ ?_⟩
    obtain ⟨item, hitem⟩ := List.exists_mem_of_ne_nil l hne
    exact ⟨item, hitem, .inl (hf item)⟩
  have hprimaryKey : (∃ change ∈ diff.primaryKeyChange.toList,
      ∃ statement ∈ primaryKeyStatementsOf change, statement.Spells schema table) ↔
        diff.primaryKeyChange ≠ none := by
    cases hchange : diff.primaryKeyChange with
    | none => simp
    | some change =>
      refine ⟨fun _ ↦ by simp, fun _ ↦ ⟨change, by simp, ?_⟩⟩
      exact spells_primaryKeyStatementsOf schema table (hkey change hchange)
        (hrendered.keyNamed change hchange)
  have hidentities : (∃ change ∈ diff.identityChanges, ∃ statement ∈ identityStatementsOf change,
      statement.Spells schema table) ↔
        ∃ change ∈ diff.identityChanges.filter
          fun change ↦ change.oldIdentity ≠ none ∨ change.newIdentity ≠ none,
            ∃ text ∈ [table, quotePgIdentifier (trim change.columnName)], spells markers text = true := by
    simp only [spells_identityStatementsOf_iff, List.mem_filter, decide_eq_true_eq, and_assoc]
  simp only [statementsOf, carriedTexts, exists_mem_append, exists_mem_map, exists_mem_flatMap,
    hidentities, hprimaryKey, spells_addColumnStatementsOf_iff, spells_defaultStatementOf_iff,
    hmarked _ (fun change : ColumnTypeChange ↦ .alterType (trim change.columnName) (trim change.typeName))
      fun _ ↦ rfl,
    hmarked _ (fun constraint : TableConstraintSchema ↦ .dropConstraint (trim constraint.name))
      fun _ ↦ rfl,
    hmarked _ (fun column : TableColumnSchema ↦ .dropColumn (trim column.name)) fun _ ↦ rfl]
  simp only [Statement.Spells, Statement.marked, Statement.pieces, alterColumnPieces, carriedOf,
    List.cons_append, List.nil_append, List.filterMap_cons,
    List.filterMap_nil, List.exists_mem_cons_iff, List.not_mem_nil, false_and, exists_false, or_false,
    Bool.false_eq_true, false_or]
  exact marked_parts_first ..

/-- **The statements of a PostgreSQL update look destructive** exactly when the difference drops a column or
a constraint or changes a type or the primary key, or when a text that they carry holds a marker; and the
difference changes no generated column. -/
theorem destructive_iff {orders : MapOrders} {input : UpdateTableInput}
    {defaultDatabase defaultSchema database schema table : String} {texts : List String}
    (h : updateTableStatements orders input defaultDatabase defaultSchema =
      .ok (database, schema, table, texts)) :
    (diffOf orders input.baseline input.target input.columnRenames).generatedColumnChanges = [] ∧
    (tableUpdateStatementsAreDestructive texts = true ↔
      (diffOf orders input.baseline input.target input.columnRenames).droppedColumns ≠ [] ∨
      (diffOf orders input.baseline input.target input.columnRenames).columnTypeChanges ≠ [] ∨
      (diffOf orders input.baseline input.target input.columnRenames).droppedConstraints ≠ [] ∨
      (diffOf orders input.baseline input.target input.columnRenames).primaryKeyChange ≠ none ∨
      ∃ text ∈ carriedTexts schema (qualifiedTable schema table)
          (diffOf orders input.baseline input.target input.columnRenames),
        spells markers text = true) := by
  obtain ⟨⟨_, _, _, statements⟩, hstatements, h⟩ := exists_of_bind_eq_ok h
  cases h
  obtain ⟨_, -, h⟩ := exists_of_bind_eq_ok hstatements
  obtain ⟨diff, hdiff, h⟩ := exists_of_bind_eq_ok h
  obtain ⟨-, h⟩ := ite_error_eq_ok_iff.1 h
  obtain ⟨_, hok, h⟩ := exists_of_bind_eq_ok h
  cases h
  obtain ⟨-, rfl⟩ := diff_eq_ok_iff.1 hdiff
  obtain ⟨hrendered, hall⟩ := of_diffStatements hok
  refine ⟨hrendered.noGenerated, ?_⟩
  rw [hall, tableUpdateStatementsAreDestructive_eq, List.any_map, List.any_eq_true]
  refine Iff.trans ?_ (spells_statementsOf_iff _ _ hrendered primaryKeyChange_diffOf)
  exact exists_congr fun statement ↦ and_congr_right fun hstatement ↦
    spells_statement_iff (hrendered.shaped statement hstatement)

end Postgres
