import NexusPilot.Mysql.UpdateTable
import NexusPilot.Schema.Marker

/-!
# Destructive updates of a MySQL table

`table_update_statements_are_destructive` looks for markers in the texts of the statements.
`spells_statement_iff` says where it finds one: in a statement that drops or changes a column or touches the
primary key, or in a text that the request put into a statement. `destructive_iff` reads the same off the
difference.
-/

namespace Mysql

open Drivers Schema

/-- The markers of a destructive statement. -/
def markers : List String :=
  [" DROP COLUMN ", " CHANGE COLUMN ", " DROP PRIMARY KEY", " ADD PRIMARY KEY "]

theorem validMarkers : ValidMarkers markers := by
  simp [ValidMarkers, markers, outsideMarker]

theorem tableUpdateStatementsAreDestructive_eq (statements : List String) :
    tableUpdateStatementsAreDestructive statements = statements.any (spells markers) := by
  refine congrArg statements.any (funext fun statement ↦ ?_)
  simp [spells, markers, Bool.or_assoc]

/-! ### One statement -/

/-- Whether a statement is one of those that the markers stand for. -/
def Statement.marked : Statement → Bool
  | .changeColumn .. | .dropPrimaryKey | .addPrimaryKey _ | .dropColumn _ => true
  | .dropConstraint kind _ => kind = .primaryKey
  | _ => false

/-- The texts of a statement are delimited: literals and definitions begin with a quote. -/
def Statement.Shaped : Statement → Prop
  | .tableComment literal => opens literal = true
  | .addColumn _ definition | .changeColumn _ _ definition | .modifyColumn _ definition =>
    opens definition = true
  | .addConstraint definition => ConstraintShaped definition
  | _ => True

theorem unmarked_keywords : ∀ text ∈ ["ALTER TABLE ", " COMMENT = ", " ENGINE=", " ADD COLUMN ", " ",
    " MODIFY COLUMN ", " RENAME COLUMN ", " TO ", " DROP FOREIGN KEY ", " DROP CHECK ", " DROP INDEX ",
    " ADD ", "DROP INDEX ", " ON ", "CREATE UNIQUE INDEX ", "CREATE INDEX ", " (", ")"],
    spells markers text = false := by
  decide

theorem marked_keywords : ∀ text ∈ [" CHANGE COLUMN ", " DROP PRIMARY KEY", " ADD PRIMARY KEY (",
    " DROP COLUMN "], spells markers text = true := by
  decide

theorem keywordSpells_pieces (table : String) (statement : Statement) :
    keywordSpells markers (statement.pieces table) = statement.marked := by
  have hplain := unmarked_keywords
  have hmarked := marked_keywords
  simp only [List.forall_mem_cons, List.not_mem_nil, false_implies, implies_true, and_true] at hplain hmarked
  cases statement with
  | dropConstraint kind name =>
    cases kind <;>
      simp [keywordSpells, Statement.pieces, dropConstraintPieces, Statement.marked, hplain, hmarked]
  | createIndex isUnique name columns =>
    cases isUnique <;> simp [keywordSpells, Statement.pieces, Statement.marked, hplain]
  | _ => simp [keywordSpells, Statement.pieces, Statement.marked, hplain, hmarked]

theorem outsideMarker_backtick : outsideMarker '`' = true := by
  decide

@[simp]
theorem opens_quoteMysqlIdentifier (name : String) : opens (quoteMysqlIdentifier name) = true :=
  opens_quotedText outsideMarker_backtick

@[simp]
theorem closes_quoteMysqlIdentifier (name : String) : closes (quoteMysqlIdentifier name) = true :=
  closes_quotedText outsideMarker_backtick

@[simp]
theorem opens_qualifiedTable (database table : String) : opens (qualifiedTable database table) = true := by
  rw [qualifiedTable, String.append_assoc]
  exact opens_append (opens_quoteMysqlIdentifier database)

@[simp]
theorem closes_qualifiedTable (database table : String) : closes (qualifiedTable database table) = true :=
  closes_append (closes_quoteMysqlIdentifier table)

variable {database table text : String} {statement : Statement}

/-- The pieces of a statement show a border, except where the definition of a constraint begins. -/
theorem bordered_pieces (hshaped : statement.Shaped)
    (hconstraint : ∀ definition, statement ≠ .addConstraint definition) :
    Bordered (statement.pieces (qualifiedTable database table)) := by
  have hparen : closes " ADD PRIMARY KEY (" = true ∧ closes " ENGINE=" = true ∧ opens ")" = true ∧
      closes " (" = true := by
    decide
  cases statement with
  | addConstraint definition => exact absurd rfl (hconstraint definition)
  | dropConstraint kind name =>
    cases kind <;>
      simp [Bordered, Statement.pieces, dropConstraintPieces, Piece.text]
  | tableComment literal =>
    have hopens : opens literal = true := hshaped
    simp [Bordered, Statement.pieces, Piece.text, hopens]
  | addColumn name definition | modifyColumn name definition =>
    have hopens : opens definition = true := hshaped
    simp [Bordered, Statement.pieces, Piece.text, hopens]
  | changeColumn old name definition =>
    have hopens : opens definition = true := hshaped
    simp [Bordered, Statement.pieces, Piece.text, hopens]
  | _ => simp [Bordered, Statement.pieces, Piece.text, hparen]

/-- **A statement holds a marker** when it is one that the markers stand for, or when a text that it carries
holds one. -/
theorem spells_statement_iff (hshaped : statement.Shaped) :
    spells markers (renderPieces (statement.pieces (qualifiedTable database table))) = true ↔
      statement.marked = true ∨
        ∃ text ∈ carriedOf (statement.pieces (qualifiedTable database table)),
          spells markers text = true := by
  rw [← keywordSpells_pieces (qualifiedTable database table) statement]
  by_cases hconstraint : ∀ definition, statement ≠ .addConstraint definition
  · exact spells_renderPieces_iff validMarkers (bordered_pieces hshaped hconstraint)
  · obtain ⟨definition, rfl⟩ : ∃ definition, statement = .addConstraint definition := by
      simpa using hconstraint
    rw [← exists_spells_iff]
    refine ⟨?_, fun ⟨_, hp, hspells⟩ ↦ spells_of_mem hp hspells⟩
    exact exists_of_spells_addConstraint validMarkers (by decide) (opens_qualifiedTable ..)
      (closes_qualifiedTable ..) hshaped

/-! ### The statements of a difference -/

theorem opens_mysqlColumnDefinition {column : TableColumnSchema} (h : mysqlColumnDefinition column = .ok text) :
    opens text = true := by
  have hname := opens_quoteMysqlIdentifier column.name
  obtain ⟨_, -, h⟩ := exists_of_bind_eq_ok h
  obtain ⟨_, -, h⟩ := exists_of_bind_eq_ok h
  obtain ⟨_, -, h⟩ := exists_of_bind_eq_ok h
  dsimp only at h
  split at h
  · obtain ⟨-, h⟩ := ite_error_eq_ok_iff.1 h
    obtain ⟨_, -, h⟩ := exists_of_bind_eq_ok h
    obtain ⟨_, -, h⟩ := exists_of_bind_eq_ok h
    rw [← Except.ok.inj h]
    simp only [String.append_assoc]
    exact opens_append hname
  · obtain ⟨_, -, h⟩ := exists_of_bind_eq_ok h
    obtain ⟨_, -, h⟩ := exists_of_bind_eq_ok h
    rw [← Except.ok.inj h]
    simp only [String.append_assoc]
    exact opens_append hname

theorem constraintShaped_mysqlTableConstraintDefinition {constraint : TableConstraintSchema}
    (h : mysqlTableConstraintDefinition constraint = .ok text) : ConstraintShaped text := by
  obtain ⟨name, -, h⟩ := exists_of_bind_eq_ok h
  split at h
  · exact constraintShaped_foreignKeyDefinition opens_quoteMysqlIdentifier h
  · obtain ⟨_, -, h⟩ := exists_of_bind_eq_ok h
    rw [← Except.ok.inj h]
    simp only [String.append_assoc]
    exact ⟨_, rfl, opens_append (opens_quoteMysqlIdentifier name)⟩
  · cases h
  · cases h

variable {diff : TableSchemaUpdateDiff} {target : TableSchema}

/-- The statements of a difference have delimited texts. -/
theorem Rendered.shaped (h : Rendered diff target) :
    ∀ statement ∈ statementsOf diff target, statement.Shaped := by
  have hdefinition : ∀ column, (∃ text, mysqlColumnDefinition column = .ok text) →
      opens (definitionOf column) = true := by
    rintro column ⟨text, htext⟩
    rw [definitionOf, htext]
    exact opens_mysqlColumnDefinition htext
  have hconstraint : ∀ constraint, (∃ text, mysqlTableConstraintDefinition constraint = .ok text) →
      ConstraintShaped (constraintDefinitionOf constraint) := by
    rintro constraint ⟨text, htext⟩
    rw [constraintDefinitionOf, htext]
    exact constraintShaped_mysqlTableConstraintDefinition htext
  have hchange : ∀ column ∈ changedColumns diff target, (changeStatementOf diff column).Shaped := by
    intro column hcolumn
    have hopens := hdefinition column (h.changed column hcolumn)
    rw [changeStatementOf]
    split
    · exact hopens
    · split_ifs
      · exact hopens
      · exact hopens
  have hkey : ∀ statement ∈ primaryKeyStatements diff.primaryKeyChange, statement.Shaped := by
    cases diff.primaryKeyChange with
    | none => exact fun _ hstatement ↦ by cases hstatement
    | some change =>
      rw [primaryKeyStatements]
      split_ifs <;> simp [Statement.Shaped]
  have hcharset : ∀ statement ∈ (if diff.tableCharsetChange = none ∧ diff.tableCollationChange = none
      then [] else [Statement.tableCharset (diff.tableCharsetChange.map trim)
        (diff.tableCollationChange.map trim)]), statement.Shaped := by
    split_ifs <;> simp [Statement.Shaped]
  have hquote : outsideMarker '\'' = true := by decide
  simp only [statementsOf, List.forall_mem_append, List.forall_mem_map]
  exact ⟨⟨⟨⟨⟨⟨⟨⟨⟨⟨fun _ _ ↦ opens_quotedText hquote, fun _ _ ↦ trivial⟩, hcharset⟩,
    fun column hcolumn ↦ hdefinition column (h.added column hcolumn)⟩, hchange, fun _ _ ↦ trivial⟩, hkey⟩,
    fun _ _ ↦ trivial⟩,
    fun constraint hin ↦ hconstraint constraint (h.constraints constraint hin)⟩, fun _ _ ↦ trivial⟩,
    fun _ _ ↦ trivial⟩, fun _ _ ↦ trivial⟩

/-- The texts of the request that the statements of a difference carry, where the statements are not of a
kind that is destructive anyway. -/
def carriedTexts (table : String) (diff : TableSchemaUpdateDiff) (target : TableSchema) : List String :=
  diff.tableCommentChange.toList.flatMap
      (fun change ↦ [table, quotedText '\'' (change.comment.getD "")]) ++
    diff.tableEngineChange.toList.flatMap (fun engine ↦ [table, trim engine]) ++
    (if diff.tableCharsetChange = none ∧ diff.tableCollationChange = none then []
      else [table, clause " DEFAULT CHARACTER SET " (diff.tableCharsetChange.map trim) ++
        clause " COLLATE " (diff.tableCollationChange.map trim)]) ++
    diff.addedColumns.flatMap (fun column ↦ [table, definitionOf column]) ++
    (changedColumns diff target).flatMap (fun column ↦ [table, definitionOf column]) ++
    (diff.renamedColumns.filter (!handledRename diff target ·)).flatMap
      (fun rename ↦ [table, quoteMysqlIdentifier rename.oldName, quoteMysqlIdentifier rename.newName]) ++
    diff.droppedConstraints.flatMap
      (fun constraint ↦ [table, quoteMysqlIdentifier (trim constraint.name)]) ++
    diff.addedConstraints.flatMap (fun constraint ↦ [table, constraintDefinitionOf constraint]) ++
    diff.droppedIndexes.flatMap (fun index ↦ [quoteMysqlIdentifier (trim index.name), table]) ++
    diff.addedIndexes.flatMap fun index ↦ [quoteMysqlIdentifier (trim index.name), table,
      quoteColumnList (index.columns.map trim) quoteMysqlIdentifier]

/-- What makes a statement look destructive. -/
def Statement.Spells (table : String) (statement : Statement) : Prop :=
  statement.marked = true ∨ ∃ text ∈ carriedOf (statement.pieces table), spells markers text = true

/-- The change of a column looks destructive when it is a change of its type or part of a rename, or by a
text that it carries. -/
theorem spells_changeStatementOf_iff (table : String) (hknown : ∀ name ∈ changedColumnNames diff,
    name ∈ target.columns.map (·.name)) :
    (∃ column ∈ changedColumns diff target, (changeStatementOf diff column).Spells table) ↔
      diff.columnTypeChanges ≠ [] ∨
        (∃ column ∈ changedColumns diff target, (renameByNewName diff column.name).isSome) ∨
        ∃ column ∈ changedColumns diff target,
          spells markers table = true ∨ spells markers (definitionOf column) = true := by
  constructor
  · rintro ⟨column, hcolumn, hspells⟩
    rw [changeStatementOf] at hspells
    split at hspells
    · rename_i old hold
      exact .inr (.inl ⟨column, hcolumn, by rw [hold]; rfl⟩)
    · split_ifs at hspells with htype
      · obtain ⟨change, hchange, -⟩ := List.mem_map.1 htype
        exact .inl (List.ne_nil_of_mem hchange)
      · refine .inr (.inr ⟨column, hcolumn, ?_⟩)
        simpa [Statement.Spells, Statement.marked, Statement.pieces, carriedOf] using hspells
  · rintro (htypes | ⟨column, hcolumn, hrename⟩ | ⟨column, hcolumn, hspells⟩)
    · obtain ⟨change, hchange⟩ := List.exists_mem_of_ne_nil _ htypes
      have hname : change.columnName ∈ diff.columnTypeChanges.map (·.columnName) :=
        List.mem_map_of_mem hchange
      have hchanged : change.columnName ∈ changedColumnNames diff := List.mem_append_right _ hname
      obtain ⟨column, hcolumn, hsame⟩ := List.mem_map.1 (hknown _ hchanged)
      rw [← hsame] at hname hchanged
      refine ⟨column, List.mem_filter.2 ⟨hcolumn, by simpa using hchanged⟩, .inl ?_⟩
      rw [changeStatementOf]
      split
      · rfl
      · rw [if_pos hname]
        rfl
    · obtain ⟨old, hold⟩ := Option.isSome_iff_exists.1 hrename
      refine ⟨column, hcolumn, .inl ?_⟩
      rw [changeStatementOf, hold]
      rfl
    · refine ⟨column, hcolumn, .inr ?_⟩
      have hmem : ∀ text, text = table ∨ text = definitionOf column →
          text ∈ carriedOf ((changeStatementOf diff column).pieces table) := by
        intro text htext
        rw [changeStatementOf]
        split
        · simpa [Statement.pieces, carriedOf] using htext.imp_right .inr
        · split_ifs
          · simpa [Statement.pieces, carriedOf] using htext.imp_right .inr
          · simpa [Statement.pieces, carriedOf] using htext
      obtain hspells | hspells := hspells
      · exact ⟨table, hmem _ (.inl rfl), hspells⟩
      · exact ⟨definitionOf column, hmem _ (.inr rfl), hspells⟩

theorem spells_primaryKeyStatements_iff (table : String)
    (hkey : ∀ change, diff.primaryKeyChange = some change → change.oldColumns ≠ change.newColumns) :
    (∃ statement ∈ primaryKeyStatements diff.primaryKeyChange, statement.Spells table) ↔
      diff.primaryKeyChange ≠ none := by
  cases hchange : diff.primaryKeyChange with
  | none => simp [primaryKeyStatements]
  | some change =>
    refine ⟨fun _ ↦ by simp, fun _ ↦ ?_⟩
    by_cases hold : change.oldColumns = []
    · have hnew : change.newColumns ≠ [] := fun hnew ↦ hkey change hchange (hold.trans hnew.symm)
      exact ⟨.addPrimaryKey change.newColumns, by simp [primaryKeyStatements, hnew], .inl rfl⟩
    · exact ⟨.dropPrimaryKey, by simp [primaryKeyStatements, hold], .inl rfl⟩

/-- The parts of a list of statements, with those of the marked statements moved to the front. -/
theorem marked_parts_first (comment engine charset added types renamed changed renames key constraints
    addedConstraints indexes dropped created : Prop) :
    (((((((((((comment ∨ engine) ∨ charset) ∨ added) ∨ (types ∨ renamed ∨ changed) ∨ renames) ∨ key) ∨
      constraints) ∨ addedConstraints) ∨ indexes) ∨ dropped) ∨ created) ↔
    dropped ∨ types ∨ key ∨ renamed ∨ (((((((((comment ∨ engine) ∨ charset) ∨ added) ∨ changed) ∨
      renames) ∨ constraints) ∨ addedConstraints) ∨ indexes) ∨ created)) := by
  tauto

/-- The statements of a difference look destructive by what they do, or by a text that they carry. -/
theorem spells_statementsOf_iff (table : String) (hrendered : Rendered diff target)
    (hkey : ∀ change, diff.primaryKeyChange = some change → change.oldColumns ≠ change.newColumns)
    (hkinds : ∀ constraint ∈ diff.droppedConstraints, constraint.kind ≠ .primaryKey) :
    (∃ statement ∈ statementsOf diff target, statement.Spells table) ↔
      diff.droppedColumns ≠ [] ∨ diff.columnTypeChanges ≠ [] ∨ diff.primaryKeyChange ≠ none ∨
        (∃ column ∈ changedColumns diff target, (renameByNewName diff column.name).isSome) ∨
        ∃ text ∈ carriedTexts table diff target, spells markers text = true := by
  have hcharset : (∃ statement ∈ (if diff.tableCharsetChange = none ∧ diff.tableCollationChange = none
      then [] else [Statement.tableCharset (diff.tableCharsetChange.map trim)
        (diff.tableCollationChange.map trim)]), statement.Spells table) ↔
      ∃ text ∈ (if diff.tableCharsetChange = none ∧ diff.tableCollationChange = none then []
        else [table, clause " DEFAULT CHARACTER SET " (diff.tableCharsetChange.map trim) ++
          clause " COLLATE " (diff.tableCollationChange.map trim)]), spells markers text = true := by
    split_ifs
    · simp
    · simp [Statement.Spells, Statement.marked, Statement.pieces, carriedOf]
  have hdropped : (∃ column ∈ diff.droppedColumns,
      (Statement.dropColumn (trim column.name)).Spells table) ↔ diff.droppedColumns ≠ [] :=
    ⟨fun ⟨column, hcolumn, _⟩ ↦ List.ne_nil_of_mem hcolumn, fun hne ↦
      (List.exists_mem_of_ne_nil _ hne).imp fun column hcolumn ↦ ⟨hcolumn, .inl rfl⟩⟩
  have hconstraints : (∃ constraint ∈ diff.droppedConstraints,
      (Statement.dropConstraint constraint.kind (trim constraint.name)).Spells table) ↔
      ∃ constraint ∈ diff.droppedConstraints, spells markers table = true ∨
        spells markers (quoteMysqlIdentifier (trim constraint.name)) = true := by
    refine exists_congr fun constraint ↦ and_congr_right fun hconstraint ↦ ?_
    have hkind := hkinds constraint hconstraint
    cases hcase : constraint.kind with
    | primaryKey => exact absurd hcase hkind
    | _ => simp [Statement.Spells, Statement.marked, Statement.pieces, dropConstraintPieces, carriedOf]
  simp only [statementsOf, carriedTexts, exists_mem_append, exists_mem_map, exists_mem_flatMap, hcharset, hdropped, hconstraints,
    spells_changeStatementOf_iff table hrendered.known, spells_primaryKeyStatements_iff table hkey]
  simp only [Statement.Spells, Statement.marked, Statement.pieces, carriedOf, List.filterMap_cons,
    List.filterMap_nil, List.exists_mem_cons_iff, List.not_mem_nil, false_and, exists_false, or_false,
    Bool.false_eq_true, false_or]
  exact marked_parts_first ..

/-- **The statements of a MySQL update look destructive** exactly when the difference drops a column,
changes a type or the primary key, changes the definition of a renamed column, or when a text that they carry
holds a marker. -/
theorem destructive_iff {orders : MapOrders} {input : UpdateTableInput} {defaultDatabase : Option String}
    {texts : List String} (h : updateTableSql orders input defaultDatabase = .ok (database, table, texts)) :
    tableUpdateStatementsAreDestructive texts = true ↔
      (diffOf orders input.baseline input.target input.columnRenames).droppedColumns ≠ [] ∨
      (diffOf orders input.baseline input.target input.columnRenames).columnTypeChanges ≠ [] ∨
      (diffOf orders input.baseline input.target input.columnRenames).primaryKeyChange ≠ none ∨
      (∃ column ∈ changedColumns (diffOf orders input.baseline input.target input.columnRenames) input.target,
        (renameByNewName (diffOf orders input.baseline input.target input.columnRenames)
          column.name).isSome) ∨
      ∃ text ∈ carriedTexts (qualifiedTable database table)
          (diffOf orders input.baseline input.target input.columnRenames) input.target,
        spells markers text = true := by
  obtain ⟨⟨_, _, statements⟩, hstatements, h⟩ := exists_of_bind_eq_ok h
  cases h
  obtain ⟨_, -, h⟩ := exists_of_bind_eq_ok hstatements
  obtain ⟨diff, hdiff, h⟩ := exists_of_bind_eq_ok h
  obtain ⟨-, h⟩ := ite_error_eq_ok_iff.1 h
  obtain ⟨_, hok, h⟩ := exists_of_bind_eq_ok h
  cases h
  obtain ⟨-, rfl⟩ := diff_eq_ok_iff.1 hdiff
  obtain ⟨hrendered, hall⟩ := of_diffStatements hok
  rw [hall, tableUpdateStatementsAreDestructive_eq, List.any_map, List.any_eq_true]
  refine Iff.trans ?_ (spells_statementsOf_iff _ hrendered primaryKeyChange_diffOf
    kind_of_mem_droppedConstraints_diffOf)
  exact exists_congr fun statement ↦ and_congr_right fun hstatement ↦
    spells_statement_iff (hrendered.shaped statement hstatement)

end Mysql
