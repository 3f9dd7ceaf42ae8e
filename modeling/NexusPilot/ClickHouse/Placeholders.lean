import NexusPilot.ClickHouse.Browse

/-!
# Placeholders in the queries of a ClickHouse grid

Every query is a template for the client library, in which a question mark stands for a binding and two of
them for one of the text, inside quotes or not. The queries of the write path have no bindings, but the
values that they write are part of the text.

**`placeholders_iff`** says that a query is sent as it is meant exactly when none of the names, types and
values in it has a question mark.
-/

namespace ClickHouse

open Drivers Markers Schema Text

/-! ### The queries of the write path -/

/-- The query of `count_predicate`. -/
def countText (table : String) (predicate : Predicate) : String :=
  "SELECT count() AS count FROM " ++ table ++ " WHERE " ++ predicate.text

/-- The texts that `commit_table_change_set` may send for an update. -/
def PreparedUpdate.queries (table : String) (update : PreparedUpdate) : List String :=
  [countText table update.originalPredicate, update.text table, countText table update.updatedPredicate]

/-- The texts that `commit_table_change_set` may send for a delete. -/
def PreparedDelete.queries (table : String) (delete : PreparedDelete) : List String :=
  [countText table delete.predicate, delete.text table]

/-- The texts that a preview or a commit of a change set may send. -/
def PreparedChangeSet.queries (table : String) (prepared : PreparedChangeSet) : List String :=
  prepared.inserts.map (insertText table) ++ prepared.updates.flatMap (·.queries table) ++
    prepared.deletes.flatMap (·.queries table)

/-- The texts of a cell that are written into a query: the name of its column and, unless the cell is empty,
the type of the column and the text of the value. -/
def cellTexts (columns : List ColumnSchema) (name : String) (value : JsonValue) : List (List Char) :=
  name.toList :: if value = .null then []
    else ((columnNamed columns name).map (·.typeName.toList)).toList ++ (scalarText value).toList

/-- The texts of the cells of a row. -/
def changeTexts (columns : List ColumnSchema) (changes : List TableCellChange) : List (List Char) :=
  changes.flatMap fun change ↦ cellTexts columns change.column change.value

/-- The texts of the snapshot that a row is found by. -/
def locatorTexts (columns : List ColumnSchema) : TableRowLocator → List (List Char)
  | .primaryKey _ => []
  | .rowSnapshot parts _ => parts.flatMap fun part ↦ cellTexts columns part.column part.value

/-- The names, types and values of a change set that are written into its queries. -/
def writtenTexts (container : ContainerRef) (columns : List ColumnSchema) (changeSet : TableChangeSetRequest) :
    List (List Char) :=
  container.database.toList.map String.toList ++ container.table.toList.map String.toList ++
    changeSet.inserts.flatMap (fun insert ↦ changeTexts columns insert.values) ++
    changeSet.updates.flatMap (fun update ↦
      locatorTexts columns update.locator ++ changeTexts columns update.changes) ++
    changeSet.deletes.flatMap (locatorTexts columns)

/-! ### Question marks in the queries of the write path -/

theorem mem_quoteString {s : List Char} : '?' ∈ quoteString s ↔ '?' ∈ s := by
  rw [quoteString, mem_replaceChar (by decide) (by decide), mem_replaceChar (by decide) (by decide)]


variable {literal : String} {α β : Type} {l : List α}

/-- The question marks of a literal are those of the type and of the value. -/
theorem asks_renderTypedValue {column : ColumnSchema} {value : JsonValue}
    (h : renderTypedValue column value = .ok literal) :
    Asks literal ↔ value ≠ .null ∧ (Asks column.typeName ∨ ∃ text ∈ scalarText value, '?' ∈ text) := by
  obtain ⟨-, h⟩ := ite_error_eq_ok_iff.1 h
  by_cases hnull : value = .null
  · rw [if_pos hnull] at h
    split at h
    · cases h
      exact iff_of_false (by decide) fun h ↦ h.1 hnull
    · cases h
  · rw [if_neg hnull] at h
    cases htext : scalarText value with
    | none => rw [htext] at h; cases h
    | some text =>
      rw [htext] at h
      obtain ⟨-, h⟩ := ite_error_eq_ok_iff.1 h
      cases h
      have hopening : ¬ Asks "CAST('" := by decide
      have has : ¬ Asks "' AS " := by decide
      have hclosing : ¬ Asks ")" := by decide
      simp only [asks_append, asks_ofList, mem_quoteString, hopening, has, hclosing, false_or, or_false, ne_eq,
        hnull, not_false_eq_true, true_and, Option.mem_some_iff, exists_eq_left']
      exact or_comm

/-- A column is found by its name. -/
theorem requireColumn_eq_ok {columns : List ColumnSchema} {name message : String} {column : ColumnSchema}
    (h : requireColumn columns name message = .ok column) : columnNamed columns name = some column := by
  rw [requireColumn] at h
  split at h
  · cases h
  · rename_i found hfound
    cases h
    exact hfound

/-- A cell whose texts have a question mark. -/
def CellAsks (columns : List ColumnSchema) (name : String) (value : JsonValue) : Prop :=
  ∃ text ∈ cellTexts columns name value, '?' ∈ text

/-- The question marks of a cell are those of the name of its column and of its literal. -/
theorem cellAsks_iff {columns : List ColumnSchema} {column : ColumnSchema} {name : String} {value : JsonValue}
    (hcolumn : columnNamed columns name = some column)
    (hliteral : renderTypedValue column value = .ok literal) :
    CellAsks columns name value ↔ Asks name ∨ Asks literal := by
  rw [asks_renderTypedValue hliteral, CellAsks, cellTexts, hcolumn]
  by_cases hnull : value = .null
  · simp [hnull, Asks]
  · simp [hnull, Asks, or_and_right, exists_or]

theorem asks_conditionOf {columns : List ColumnSchema} {part : TableRowKeyPart} {condition : Condition}
    (h : conditionOf columns part = .ok condition) :
    Asks condition.text ↔ CellAsks columns part.column part.value := by
  have hopening : ¬ Asks "isNull(" := by decide
  have hclosing : ¬ Asks ")" := by decide
  have hequals : ¬ Asks " = " := by decide
  obtain ⟨column, hcolumn, h⟩ := bind_eq_ok_iff.1 h
  have hnamed := requireColumn_eq_ok hcolumn
  dsimp only at h
  by_cases hsupported : isSupportedScalarType column.typeName = false
  · rw [if_pos hsupported] at h
    cases h
  rw [if_neg hsupported] at h
  by_cases hnull : part.value = .null
  · rw [if_pos hnull] at h
    cases h
    rw [Condition.text, asks_append, asks_append, asks_quoteIdentifier, or_iff_right hopening, or_iff_left hclosing,
      CellAsks, cellTexts, if_pos hnull]
    simp [Asks]
  · rw [if_neg hnull] at h
    obtain ⟨literal, hliteral, h⟩ := bind_eq_ok_iff.1 h
    cases h
    rw [Condition.text, asks_append, asks_append, asks_quoteIdentifier, or_iff_left hequals,
      cellAsks_iff hnamed hliteral]

/-- The question marks of a condition on a row are those of the cells of its snapshot. -/
theorem asks_conditionsOf {columns : List ColumnSchema} {seen : List String} {parts : List TableRowKeyPart}
    {predicate : Predicate} (h : conditionsOf columns seen parts = .ok predicate) :
    Asks predicate.text ↔ ∃ part ∈ parts, CellAsks columns part.column part.value := by
  have hand : ¬ Asks " AND " := by decide
  rw [Predicate.text, asks_intercalate hand]
  simp only [List.mem_map, exists_exists_and_eq_and]
  induction parts generalizing seen predicate with
  | nil => cases h; simp
  | cons part parts ih =>
    rw [conditionsOf] at h
    by_cases hseen : part.column ∈ seen
    · rw [if_pos hseen] at h
      cases h
    rw [if_neg hseen] at h
    obtain ⟨condition, hcondition, h⟩ := bind_eq_ok_iff.1 h
    obtain ⟨conditions, hconditions, h⟩ := bind_eq_ok_iff.1 h
    cases h
    simp only [List.mem_cons, exists_eq_or_imp, asks_conditionOf hcondition, ih hconditions]

theorem asks_renderSnapshotPredicate {columns : List ColumnSchema} {parts : List TableRowKeyPart}
    {predicate : Predicate} (h : renderSnapshotPredicate columns parts = .ok predicate) :
    Asks predicate.text ↔ ∃ part ∈ parts, CellAsks columns part.column part.value := by
  obtain ⟨found, hfound, h⟩ := bind_eq_ok_iff.1 h
  by_cases hempty : found = []
  · rw [if_pos hempty] at h
    cases h
  · rw [if_neg hempty] at h
    cases h
    exact asks_conditionsOf hfound

/-- The question marks of an assignment are those of its cell. -/
theorem asks_assignmentOf {columns : List ColumnSchema} {change : TableCellChange} {assignment : Assignment}
    (h : assignmentOf columns change = .ok assignment) :
    Asks assignment.column ∨ Asks assignment.literal ↔ CellAsks columns change.column change.value := by
  obtain ⟨column, hcolumn, h⟩ := bind_eq_ok_iff.1 h
  obtain ⟨literal, hliteral, h⟩ := bind_eq_ok_iff.1 h
  cases h
  exact (cellAsks_iff (requireColumn_eq_ok hcolumn) hliteral).symm

/-- The question marks of the assignments of a row are those of its cells. -/
theorem asks_assignments {columns : List ColumnSchema} {changes : List TableCellChange}
    {assignments : List Assignment} (h : changes.mapM (assignmentOf columns) = .ok assignments) :
    (∃ a ∈ assignments, Asks a.column ∨ Asks a.literal) ↔
      ∃ change ∈ changes, CellAsks columns change.column change.value := by
  have hall := mapM_eq_ok_iff.1 h
  constructor
  · rintro ⟨a, ha, hasks⟩
    obtain ⟨change, hchange, hof⟩ := exists_left_of_forall₂ hall ha
    exact ⟨change, hchange, (asks_assignmentOf hof).1 hasks⟩
  · rintro ⟨change, hchange, hasks⟩
    obtain ⟨a, ha, hof⟩ := exists_right_of_forall₂ hall hchange
    exact ⟨a, ha, (asks_assignmentOf hof).2 hasks⟩

theorem asks_insertText {table : String} {values : List Assignment} :
    Asks (insertText table values) ↔ Asks table ∨ ∃ a ∈ values, Asks a.column ∨ Asks a.literal := by
  have hinsert : ¬ Asks "INSERT INTO " := by decide
  have hopening : ¬ Asks " (" := by decide
  have hvalues : ¬ Asks ") VALUES (" := by decide
  have hclosing : ¬ Asks ")" := by decide
  have hcomma : ¬ Asks ", " := by decide
  have hnames : (∃ item ∈ values.map fun value ↦ quoteIdentifier value.column, Asks item) ↔
      ∃ a ∈ values, Asks a.column := by
    simp only [List.mem_map, exists_exists_and_eq_and, asks_quoteIdentifier]
  have hliterals : (∃ item ∈ values.map (·.literal), Asks item) ↔ ∃ a ∈ values, Asks a.literal := by
    simp only [List.mem_map, exists_exists_and_eq_and]
  show Asks ("INSERT INTO " ++ table ++ " (" ++
    ", ".intercalate (values.map fun value ↦ quoteIdentifier value.column) ++ ") VALUES (" ++
      ", ".intercalate (values.map (·.literal)) ++ ")") ↔ _
  rw [asks_append, or_iff_left hclosing, asks_append, asks_intercalate hcomma, asks_append,
    or_iff_left hvalues, asks_append, asks_intercalate hcomma, asks_append, or_iff_left hopening, asks_append,
    or_iff_right hinsert, hnames, hliterals, or_assoc]
  simp only [and_or_left, exists_or]

theorem asks_countText {table : String} {predicate : Predicate} :
    Asks (countText table predicate) ↔ Asks table ∨ Asks predicate.text := by
  have hselect : ¬ Asks "SELECT count() AS count FROM " := by simp [Asks]
  have hwhere : ¬ Asks " WHERE " := by decide
  show Asks ("SELECT count() AS count FROM " ++ table ++ " WHERE " ++ predicate.text) ↔ _
  rw [asks_append, asks_append, asks_append, or_iff_right hselect, or_iff_left hwhere]

theorem asks_deleteText {table : String} {delete : PreparedDelete} :
    Asks (delete.text table) ↔ Asks table ∨ Asks delete.predicate.text := by
  have halter : ¬ Asks "ALTER TABLE " := by decide
  have hwhere : ¬ Asks " DELETE WHERE " := by decide
  show Asks ("ALTER TABLE " ++ table ++ " DELETE WHERE " ++ delete.predicate.text) ↔ _
  rw [asks_append, asks_append, or_iff_left hwhere, asks_append, or_iff_right halter]

theorem asks_updateText {table : String} {update : PreparedUpdate} :
    Asks (update.text table) ↔ Asks table ∨ (∃ a ∈ update.assignments, Asks a.column ∨ Asks a.literal) ∨
      Asks update.originalPredicate.text := by
  have halter : ¬ Asks "ALTER TABLE " := by decide
  have hupdate : ¬ Asks " UPDATE " := by decide
  have hwhere : ¬ Asks " WHERE " := by decide
  have hcomma : ¬ Asks ", " := by decide
  have hequals : ¬ Asks " = " := by decide
  have hassignment : ∀ a : Assignment, Asks a.text ↔ Asks a.column ∨ Asks a.literal := by
    intro a
    rw [Assignment.text, asks_append, asks_append, asks_quoteIdentifier, or_iff_left hequals]
  have hassignments : (∃ item ∈ update.assignments.map Assignment.text, Asks item) ↔
      ∃ a ∈ update.assignments, Asks a.column ∨ Asks a.literal := by
    simp only [List.mem_map, exists_exists_and_eq_and, hassignment]
  show Asks ("ALTER TABLE " ++ table ++ " UPDATE " ++
    ", ".intercalate (update.assignments.map Assignment.text) ++ " WHERE " ++ update.originalPredicate.text) ↔ _
  rw [asks_append, asks_append, or_iff_left hwhere, asks_append,
    asks_intercalate hcomma, asks_append, or_iff_left hupdate, asks_append, or_iff_right halter, hassignments,
    or_assoc]

/-! ### Question marks in a change set -/

section Exists

variable {α β : Type} {P : β → Prop}

theorem exists_mem_append {l m : List β} : (∃ b ∈ l ++ m, P b) ↔ (∃ b ∈ l, P b) ∨ ∃ b ∈ m, P b := by
  simp only [List.mem_append, or_and_right, exists_or]

variable {l : List α}

theorem exists_mem_map {f : α → β} : (∃ b ∈ l.map f, P b) ↔ ∃ a ∈ l, P (f a) := by
  simp only [List.mem_map, exists_exists_and_eq_and]

theorem exists_mem_flatMap {f : α → List β} :
    (∃ b ∈ l.flatMap f, P b) ↔ ∃ a ∈ l, ∃ b ∈ f a, P b := by
  simp only [List.mem_flatMap]
  exact ⟨fun ⟨b, ⟨a, ha, hmem⟩, h⟩ ↦ ⟨a, ha, b, hmem, h⟩, fun ⟨a, ha, b, hmem, h⟩ ↦ ⟨b, ⟨a, ha, hmem⟩, h⟩⟩

end Exists

/-- A list of texts of which one has a question mark. -/
def AnyAsks (texts : List (List Char)) : Prop :=
  ∃ text ∈ texts, '?' ∈ text

theorem anyAsks_append {texts more : List (List Char)} : AnyAsks (texts ++ more) ↔ AnyAsks texts ∨ AnyAsks more :=
  exists_mem_append

theorem anyAsks_flatMap {f : α → List (List Char)} :
    AnyAsks (l.flatMap f) ↔ ∃ a ∈ l, AnyAsks (f a) :=
  exists_mem_flatMap

theorem anyAsks_toList {name : Option String} : AnyAsks (name.toList.map String.toList) ↔ ∃ s ∈ name, Asks s := by
  cases name <;> simp [AnyAsks, Asks]

/-- Two lists whose elements agree one by one. -/
theorem exists_mem_iff_of_forall₂ {R : α → β → Prop} {P : α → Prop} {Q : β → Prop}
    (hR : ∀ a b, R a b → (Q b ↔ P a)) {r : List β} (h : List.Forall₂ R l r) :
    (∃ b ∈ r, Q b) ↔ ∃ a ∈ l, P a := by
  constructor
  · rintro ⟨b, hb, hQ⟩
    obtain ⟨a, ha, hab⟩ := exists_left_of_forall₂ h hb
    exact ⟨a, ha, (hR a b hab).1 hQ⟩
  · rintro ⟨a, ha, hP⟩
    obtain ⟨b, hb, hab⟩ := exists_right_of_forall₂ h ha
    exact ⟨b, hb, (hR a b hab).2 hP⟩

section Prepared

variable {columns : List ColumnSchema} {table : String}

theorem asks_insert {insert : TableChangeSetInsert} {values : List Assignment}
    (h : renderInsert columns insert = .ok values) :
    Asks (insertText table values) ↔ Asks table ∨ AnyAsks (changeTexts columns insert.values) := by
  obtain ⟨-, -, h⟩ := bind_eq_ok_iff.1 h
  by_cases hempty : insert.values = []
  · rw [if_pos hempty] at h
    cases h
  · rw [if_neg hempty] at h
    rw [asks_insertText, asks_assignments h, changeTexts, anyAsks_flatMap]
    rfl

/-- The cells of a snapshot once the changes are in it are cells of the snapshot and cells of the changes. -/
theorem cellAsks_of_applyChanges {parts : List TableRowKeyPart} {changes : List TableCellChange}
    {part : TableRowKeyPart} (hpart : part ∈ applyChangesToSnapshot parts changes)
    (hasks : CellAsks columns part.column part.value) :
    (∃ part ∈ parts, CellAsks columns part.column part.value) ∨
      ∃ change ∈ changes, CellAsks columns change.column change.value := by
  obtain ⟨original, horiginal, rfl⟩ := List.mem_map.1 hpart
  split at hasks
  · exact .inl ⟨original, horiginal, hasks⟩
  · rename_i change hchange
    have hmem := List.mem_reverse.1 (List.mem_of_find?_eq_some hchange)
    have hcolumn : change.column = original.column := by simpa using List.find?_some hchange
    exact .inr ⟨change, hmem, by rw [hcolumn]; exact hasks⟩

/-- The question marks of the queries of an update. -/
theorem exists_updateQueries {update : PreparedUpdate} :
    (∃ sql ∈ update.queries table, Asks sql) ↔ Asks table ∨ Asks update.originalPredicate.text ∨
      (∃ a ∈ update.assignments, Asks a.column ∨ Asks a.literal) ∨ Asks update.updatedPredicate.text := by
  constructor
  · rintro ⟨sql, hsql, hasks⟩
    obtain rfl | hsql := List.mem_cons.1 hsql
    · exact (asks_countText.1 hasks).imp_right .inl
    obtain rfl | hsql := List.mem_cons.1 hsql
    · obtain h | h | h := asks_updateText.1 hasks
      · exact .inl h
      · exact .inr (.inr (.inl h))
      · exact .inr (.inl h)
    · obtain rfl := List.mem_singleton.1 hsql
      exact (asks_countText.1 hasks).imp_right fun h ↦ .inr (.inr h)
  · rintro (h | h | h | h)
    · exact ⟨_, List.mem_cons_self, asks_countText.2 (.inl h)⟩
    · exact ⟨_, List.mem_cons_self, asks_countText.2 (.inr h)⟩
    · exact ⟨_, List.mem_cons_of_mem _ List.mem_cons_self, asks_updateText.2 (.inr (.inl h))⟩
    · exact ⟨_, List.mem_cons_of_mem _ (List.mem_cons_of_mem _ List.mem_cons_self), asks_countText.2 (.inr h)⟩

/-- The question marks of the queries of a delete. -/
theorem exists_deleteQueries {delete : PreparedDelete} :
    (∃ sql ∈ delete.queries table, Asks sql) ↔ Asks table ∨ Asks delete.predicate.text := by
  constructor
  · rintro ⟨sql, hsql, hasks⟩
    obtain rfl | hsql := List.mem_cons.1 hsql
    · exact asks_countText.1 hasks
    · obtain rfl := List.mem_singleton.1 hsql
      exact asks_deleteText.1 hasks
  · exact fun h ↦ ⟨_, List.mem_cons_self, asks_countText.2 h⟩

variable {locator : TableRowLocator}

theorem anyAsks_locatorTexts {parts : List TableRowKeyPart} {expected : ℕ} {predicate : Predicate}
    (hlocator : snapshotLocator locator = .ok (parts, expected))
    (hpredicate : renderSnapshotPredicate columns parts = .ok predicate) :
    AnyAsks (locatorTexts columns locator) ↔ Asks predicate.text := by
  cases locator with
  | primaryKey => cases hlocator
  | rowSnapshot parts' expected' =>
    obtain ⟨-, hparts⟩ := ite_error_eq_ok_iff.1 hlocator
    cases hparts
    rw [asks_renderSnapshotPredicate hpredicate, locatorTexts, anyAsks_flatMap]
    rfl

theorem asks_update {request : TableChangeSetUpdate} {update : PreparedUpdate}
    (h : prepareUpdate columns request = .ok update) :
    (∃ sql ∈ update.queries table, Asks sql) ↔
      Asks table ∨ AnyAsks (locatorTexts columns request.locator ++ changeTexts columns request.changes) := by
  obtain ⟨⟨parts, expected⟩, hlocator, h⟩ := bind_eq_ok_iff.1 h
  obtain ⟨original, horiginal, h⟩ := bind_eq_ok_iff.1 h
  obtain ⟨-, -, h⟩ := bind_eq_ok_iff.1 h
  obtain ⟨-, h⟩ := ite_error_eq_ok_iff.1 h
  obtain ⟨updated, hupdated, h⟩ := bind_eq_ok_iff.1 h
  obtain ⟨assignments, hassignments, h⟩ := bind_eq_ok_iff.1 h
  cases h
  have hparts := anyAsks_locatorTexts hlocator horiginal
  have hchanges : AnyAsks (changeTexts columns request.changes) ↔
      ∃ a ∈ assignments, Asks a.column ∨ Asks a.literal := by
    rw [asks_assignments hassignments, changeTexts, anyAsks_flatMap]
    rfl
  have hafter : Asks updated.text → Asks original.text ∨ ∃ a ∈ assignments, Asks a.column ∨ Asks a.literal := by
    intro hasks
    obtain ⟨part, hpart, hcell⟩ := (asks_renderSnapshotPredicate hupdated).1 hasks
    rw [asks_renderSnapshotPredicate horiginal, asks_assignments hassignments]
    exact cellAsks_of_applyChanges hpart hcell
  rw [exists_updateQueries, anyAsks_append, hparts, hchanges]
  refine or_congr_right ⟨?_, fun h ↦ h.imp_right .inl⟩
  rintro (h | h | h)
  · exact .inl h
  · exact .inr h
  · exact hafter h

theorem asks_delete {delete : PreparedDelete} (h : prepareDelete columns locator = .ok delete) :
    (∃ sql ∈ delete.queries table, Asks sql) ↔ Asks table ∨ AnyAsks (locatorTexts columns locator) := by
  obtain ⟨⟨parts, expected⟩, hlocator, h⟩ := bind_eq_ok_iff.1 h
  obtain ⟨predicate, hpredicate, h⟩ := bind_eq_ok_iff.1 h
  cases h
  rw [exists_deleteQueries, anyAsks_locatorTexts hlocator hpredicate]

end Prepared

theorem writableSchema_eq_ok {container : ContainerRef} {schema schema' : TableSchema}
    (h : writableSchema container (.ok schema) = .ok schema') : schema' = schema := by
  obtain ⟨-, h⟩ := ite_error_eq_ok_iff.1 h
  obtain ⟨described, hdescribed, h⟩ := bind_eq_ok_iff.1 h
  obtain rfl := Except.ok.inj hdescribed
  by_cases hfamily : schema.engine.family ∉ supportedWriteEngines
  · rw [if_pos hfamily] at h
    cases h
  · rw [if_neg hfamily] at h
    exact (Except.ok.inj h).symm

/-- The question marks of the name of a table are those of its database and of itself. -/
theorem asks_qualifiedTable {container : ContainerRef} {table : String}
    (h : qualifiedTable container = .ok table) :
    Asks table ↔ AnyAsks (container.database.toList.map String.toList) ∨
      AnyAsks (container.table.toList.map String.toList) := by
  obtain ⟨database, hdatabase, h⟩ := bind_eq_ok_iff.1 h
  obtain ⟨name, hname, h⟩ := bind_eq_ok_iff.1 h
  cases h
  have hpoint : ¬ Asks "." := by decide
  rw [asks_append, asks_append, asks_quoteIdentifier, asks_quoteIdentifier, or_iff_left hpoint, anyAsks_toList,
    anyAsks_toList, requireName_eq_ok hdatabase, requireName_eq_ok hname]
  simp

theorem nonempty_of_limits {changeSet : TableChangeSetRequest} (h : validateChangeSetLimits changeSet = .ok ()) :
    changeSet.inserts ≠ [] ∨ changeSet.updates ≠ [] ∨ changeSet.deletes ≠ [] := by
  obtain ⟨hcount, -⟩ := ite_error_eq_ok_iff.1 h
  by_contra hnone
  push Not at hnone
  obtain ⟨hinserts, hupdates, hdeletes⟩ := hnone
  exact hcount (by rw [hinserts, hupdates, hdeletes]; rfl)

/-- **The question marks of the write path** are those of the names, types and values of the change set. -/
theorem asks_queries {container : ContainerRef} {schema : TableSchema} {changeSet : TableChangeSetRequest}
    {table : String} {prepared : PreparedChangeSet} (htable : qualifiedTable container = .ok table)
    (h : prepareChangeSet container (.ok schema) changeSet = .ok prepared) :
    (∃ sql ∈ prepared.queries table, Asks sql) ↔ AnyAsks (writtenTexts container schema.columns changeSet) := by
  obtain ⟨⟨⟩, hlimits, h⟩ := bind_eq_ok_iff.1 h
  obtain ⟨schema', hschema, h⟩ := bind_eq_ok_iff.1 h
  obtain ⟨table', -, h⟩ := bind_eq_ok_iff.1 h
  obtain ⟨inserts, hinserts, h⟩ := bind_eq_ok_iff.1 h
  obtain ⟨updates, hupdates, h⟩ := bind_eq_ok_iff.1 h
  obtain ⟨deletes, hdeletes, h⟩ := bind_eq_ok_iff.1 h
  cases h
  obtain rfl : schema' = schema := writableSchema_eq_ok hschema
  rw [mapM_eq_ok_iff] at hinserts hupdates hdeletes
  have hins : (∃ values ∈ inserts, Asks (insertText table values)) ↔ ∃ insert ∈ changeSet.inserts, _ :=
    exists_mem_iff_of_forall₂ (fun _ _ h ↦ asks_insert h) hinserts
  have hups : (∃ update ∈ updates, ∃ sql ∈ update.queries table, Asks sql) ↔
      ∃ update ∈ changeSet.updates, _ :=
    exists_mem_iff_of_forall₂ (fun _ _ h ↦ asks_update h) hupdates
  have hdels : (∃ delete ∈ deletes, ∃ sql ∈ delete.queries table, Asks sql) ↔ ∃ locator ∈ changeSet.deletes, _ :=
    exists_mem_iff_of_forall₂ (fun _ _ h ↦ asks_delete h) hdeletes
  have hqueries : (∃ sql ∈ inserts.map (insertText table) ++ updates.flatMap (·.queries table) ++
      deletes.flatMap (·.queries table), Asks sql) ↔
      ((∃ values ∈ inserts, Asks (insertText table values)) ∨
        ∃ update ∈ updates, ∃ sql ∈ update.queries table, Asks sql) ∨
        ∃ delete ∈ deletes, ∃ sql ∈ delete.queries table, Asks sql := by
    rw [exists_mem_append, exists_mem_append, exists_mem_map, exists_mem_flatMap, exists_mem_flatMap]
  rw [writtenTexts, anyAsks_append, anyAsks_append, anyAsks_append, anyAsks_append, ← asks_qualifiedTable htable,
    anyAsks_flatMap, anyAsks_flatMap, anyAsks_flatMap]
  refine hqueries.trans ?_
  rw [hins, hups, hdels]
  constructor
  · rintro ((⟨insert, hmem, h | h⟩ | ⟨update, hmem, h | h⟩) | ⟨delete, hmem, h | h⟩)
    · exact .inl (.inl (.inl h))
    · exact .inl (.inl (.inr ⟨insert, hmem, h⟩))
    · exact .inl (.inl (.inl h))
    · exact .inl (.inr ⟨update, hmem, h⟩)
    · exact .inl (.inl (.inl h))
    · exact .inr ⟨delete, hmem, h⟩
  · rintro (((h | ⟨insert, hmem, h⟩) | ⟨update, hmem, h⟩) | ⟨delete, hmem, h⟩)
    · -- the table is in a query for any of the changes
      obtain hne | hne | hne := nonempty_of_limits hlimits
      · obtain ⟨insert, hmem⟩ := List.exists_mem_of_ne_nil _ hne
        exact .inl (.inl ⟨insert, hmem, .inl h⟩)
      · obtain ⟨update, hmem⟩ := List.exists_mem_of_ne_nil _ hne
        exact .inl (.inr ⟨update, hmem, .inl h⟩)
      · obtain ⟨delete, hmem⟩ := List.exists_mem_of_ne_nil _ hne
        exact .inr ⟨delete, hmem, .inl h⟩
    · exact .inl (.inl ⟨insert, hmem, .inr h⟩)
    · exact .inl (.inr ⟨update, hmem, .inr h⟩)
    · exact .inr ⟨delete, hmem, .inr h⟩

/-! ### Queries that are sent as they are meant -/

/-- A query is sent as it is meant: there is a binding for each placeholder that the client library finds, and
with the bindings in the placeholders, in order, the text is the one that was meant. -/
def SentAs {β : Type} (found : List Char → List Slot) (sql : String) (bindings : List β)
    (meant : List (Char ⊕ β)) : Prop :=
  operands (found sql.toList) = bindings.length ∧ fill (found sql.toList) bindings = some meant

theorem sentAs_iff {found : List Char → List Slot} {sql : String} {bindings : List β}
    {meant : List (Char ⊕ β)} :
    SentAs found sql bindings meant ↔ fill (found sql.toList) bindings = some meant :=
  ⟨fun h ↦ h.2, fun h ↦ ⟨operands_of_fill h, h⟩⟩

/-- **The queries of a grid are sent as they are meant** exactly when no name, type or value that is written
into their text has a question mark: the query of a page with the operand of each filter in the place of
that filter, and the queries of the write path with nothing in them replaced. -/
theorem placeholders_iff {found : List Char → List Slot} (hfound : ReadsMarkers '?' found) :
    (∀ container page pageSize query sql bindings,
      buildBrowseSql container page pageSize query = .ok (sql, bindings) →
        (SentAs found sql bindings (browsePieces container page pageSize query) ↔
          ∀ name ∈ browsedNames container query, '?' ∉ name.toList)) ∧
    ∀ container schema changeSet table prepared, qualifiedTable container = .ok table →
      prepareChangeSet container (.ok schema) changeSet = .ok prepared →
        ((∀ sql ∈ prepared.queries table, SentAs found sql ([] : List TableBrowseBindValue) (plain sql.toList)) ↔
          ∀ text ∈ writtenTexts container schema.columns changeSet, '?' ∉ text) := by
  constructor
  · intro container page pageSize query sql bindings h
    obtain ⟨hsql, hbindings, hdatabase, htable⟩ := buildBrowseSql_eq_ok h
    rw [sentAs_iff, hsql, hbindings, fill_eq_some_iff hfound (apart_browsePieces _ _ _ _),
      inl_mem_browsePieces hdatabase htable, not_exists]
    exact forall_congr' fun name ↦ not_and
  · intro container schema changeSet table prepared htable h
    have hsent : ∀ sql : String, SentAs found sql ([] : List TableBrowseBindValue) (plain sql.toList) ↔ ¬ Asks sql :=
      fun sql ↦ sentAs_iff.trans (fill_plain_iff hfound)
    have hnone := not_congr (asks_queries htable h)
    simp only [AnyAsks, not_exists, not_and] at hnone
    exact (forall₂_congr fun sql _ ↦ hsent sql).trans hnone

namespace PlaceholderSample

def browsed (table : String) : BrowseContainer :=
  ⟨⟨.table, some "analytics", none, some table, none⟩, none, none, none, none, none⟩

/-- The rows of a table whose name is known and whose number is more than three. -/
def query : TableBrowseQuery where
  filters := [⟨"name", .isNotNull, none⟩, ⟨"id", .gt, some (.number (.posInt 3))⟩]
  sort := []

def schema : TableSchema where
  identity := ⟨"analytics", "events", .table⟩
  engine := ⟨"MergeTree", []⟩
  columns := [⟨"note", "String", 1, .none, none, none, none, none, .editable⟩]
  keys := ⟨"note", none, none, none⟩
  tableTtl := none
  comment := none
  settings := []
  projections := []
  skippingIndexes := []
  editability := .editable

/-- A new row with a note. -/
def changeSet (note : String) : TableChangeSetRequest where
  inserts := [⟨[⟨"note", .string note⟩]⟩]
  updates := []
  deletes := []

def prepared (note : String) : PreparedChangeSet :=
  match prepareChangeSet (browsed "events").toContainerRef (.ok schema) (changeSet note) with
  | .ok prepared => prepared
  | .error _ => ⟨⟨[], 0, 0, 0⟩, [], [], []⟩

end PlaceholderSample

open PlaceholderSample

/-- A table whose name ends in a question mark cannot be browsed, and a note that asks cannot be saved: the
client library finds a placeholder that has no binding. -/
theorem not_sentAs_question :
    buildBrowseSql (browsed "why?") 1 1 ⟨[], []⟩ =
        .ok ("SELECT * FROM `analytics`.`why?` LIMIT 2 OFFSET 0", []) ∧
      ¬ SentAs (readMarkers '?') "SELECT * FROM `analytics`.`why?` LIMIT 2 OFFSET 0" []
        (browsePieces (browsed "why?") 1 1 ⟨[], []⟩) ∧
      prepareChangeSet (browsed "events").toContainerRef (.ok schema) (changeSet "why?") = .ok (prepared "why?") ∧
      ¬ ∀ sql ∈ (prepared "why?").queries "`analytics`.`events`",
        SentAs (readMarkers '?') sql ([] : List TableBrowseBindValue) (plain sql.toList) := by
  refine ⟨by decide +kernel, fun h ↦ absurd h.1 (by decide +kernel), by decide +kernel, fun h ↦ ?_⟩
  have hfirst := h "INSERT INTO `analytics`.`events` (`note`) VALUES (CAST('why?' AS String))" (by decide +kernel)
  exact absurd hfirst.1 (by decide +kernel)

/-- A page with a filter that has no value before one that has one, and a note that does not ask. -/
theorem sentAs_plain :
    SentAs (readMarkers '?')
        "SELECT * FROM `analytics`.`events` WHERE `name` IS NOT NULL AND `id` > ? LIMIT 51 OFFSET 50"
        [.integer 3] (browsePieces (browsed "events") 2 50 query) ∧
      ∀ sql ∈ (prepared "yes").queries "`analytics`.`events`",
        SentAs (readMarkers '?') sql ([] : List TableBrowseBindValue) (plain sql.toList) := by
  have hall := placeholders_iff (readsMarkers '?')
  exact ⟨(hall.1 (browsed "events") 2 50 query _ _ (by decide +kernel)).2 (by decide +kernel),
    (hall.2 (browsed "events").toContainerRef schema (changeSet "yes") _ (prepared "yes") (by decide +kernel)
      (by decide +kernel)).2 (by decide +kernel)⟩

end ClickHouse
