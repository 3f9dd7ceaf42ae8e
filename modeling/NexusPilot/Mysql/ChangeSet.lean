import Mathlib.Data.List.Forall2
import NexusPilot.Mysql.Lex

/-!
# Change sets of a MySQL table

The MySQL driver renders a change set with backticks around its identifiers and runs the statements as
they are. A statement is put together from the lexemes of a template that depends on the number of
columns and keys only; this module reads it back with the lexical rules of MySQL.

The literals are rendered by a function that doubles quotes and leaves backslashes alone, which MySQL
takes for escapes: the statements have the tokens of their templates exactly when every string in the
change set is safe (`statements_iff`).
-/

namespace Mysql

open Scan Drivers

/-- `MysqlDriver::table_identifier`. -/
def tableIdentifier (database table : String) : String :=
  quoteMysqlIdentifier database ++ "." ++ quoteMysqlIdentifier table

/-- `MysqlDriver::preview_table_change_set`, once the container is known to be a table and its columns
are loaded. -/
def previewTableChangeSet (columns : List ColumnMeta) (database table : String)
    (changeSet : TableChangeSetRequest) : IpcResult TableChangeSetPreview :=
  buildTableChangeSetPreview (tableIdentifier database table) quoteMysqlIdentifier columns
    mysqlEmptyInsertStatement changeSet

/-! ### Templates -/

def keyword (word : String) : Lexeme :=
  .word word.toList

def comma : List Lexeme :=
  [.symbol ',', .space]

/-- A keyword between two spaces. -/
def spaced (word : String) : List Lexeme :=
  [.space, keyword word, .space]

def tableLexemes (database table : String) : List Lexeme :=
  [.name database.toList, .symbol '.', .name table.toList]

/-- What a value is meant to be read as. -/
def valueLexemes : JsonValue → List Lexeme
  | .null => [keyword "NULL"]
  | .bool value => [keyword (if value then "TRUE" else "FALSE")]
  | .number (.posInt n) => [.number false (digits n)]
  | .number (.negInt n) => [.number true (digits n)]
  | .number (.float (some d)) => [.number d.negative d.unsigned]
  | .string value => [.literal value.toList]
  | .number (.float none) | .array | .object => []

def assignmentLexemes (column : String) (value : JsonValue) : List Lexeme :=
  [.name column.toList, .space, .symbol '=', .space] ++ valueLexemes value

def insertTemplate (database table : String) (values : List TableCellChange) : List Lexeme :=
  [keyword "INSERT", .space, keyword "INTO", .space] ++ tableLexemes database table ++
    [.space, .symbol '('] ++ comma.intercalate (values.map fun value ↦ [.name value.column.toList]) ++
    [.symbol ')', .space, keyword "VALUES", .space, .symbol '('] ++
    comma.intercalate (values.map fun value ↦ valueLexemes value.value) ++ [.symbol ')']

def keyLexemes (primaryKey : List TableRowKeyPart) : List Lexeme :=
  (spaced "AND").intercalate (primaryKey.map fun part ↦ assignmentLexemes part.column part.value)

def updateTemplate (database table : String) (primaryKey : List TableRowKeyPart)
    (changes : List TableCellChange) : List Lexeme :=
  [keyword "UPDATE", .space] ++ tableLexemes database table ++ spaced "SET" ++
    comma.intercalate (changes.map fun change ↦ assignmentLexemes change.column change.value) ++
    spaced "WHERE" ++ keyLexemes primaryKey

def deleteTemplate (database table : String) (primaryKeys : List (List TableRowKeyPart)) :
    List Lexeme :=
  [keyword "DELETE", .space, keyword "FROM", .space] ++ tableLexemes database table ++
    spaced "WHERE" ++
    (spaced "OR").intercalate
      (primaryKeys.map fun key ↦ [.symbol '('] ++ keyLexemes key ++ [.symbol ')'])

/-- The key of a row in the order of the table's primary key. -/
def keyOf (columns : List ColumnMeta) (locator : TableRowLocator) : List TableRowKeyPart :=
  match validateLocator columns locator with
  | .ok primaryKey => primaryKey
  | .error _ => []

/-- The templates of the statements of a change set. -/
def templates (columns : List ColumnMeta) (database table : String)
    (changeSet : TableChangeSetRequest) : List (List Lexeme) :=
  changeSet.inserts.map (fun insert ↦ insertTemplate database table insert.values) ++
    changeSet.updates.map (fun update ↦
      updateTemplate database table (keyOf columns update.locator) update.changes) ++
    if changeSet.deletes = [] then []
    else [deleteTemplate database table (changeSet.deletes.map (keyOf columns))]

/-! ### The texts of the templates -/

theorem toList_quotedText (q : Char) (s : String) :
    (quotedText q s).toList = q :: (doubled q s.toList ++ [q]) := by
  simp [quotedText]

variable {value : JsonValue} {text database table word : String} {α : Type} {l : List α}
  {r : List String} {values checked : List TableCellChange} {primaryKey : List TableRowKeyPart}
  {next : Option Char} {ls : List Lexeme} {columns : List ColumnMeta}

theorem toList_renderSqlLiteral (h : renderSqlLiteral value = .ok text) :
    text.toList = lexicon.textOf (valueLexemes value) := by
  match value with
  | .null | .bool true | .bool false =>
    cases h
    rfl
  | .number (.posInt n) | .number (.negInt n) =>
    cases h
    simp [valueLexemes, Lexicon.textOf, lexicon, Lexeme.text]
  | .number (.float (some d)) =>
    cases h
    simp [valueLexemes, Lexicon.textOf, lexicon, Lexeme.text, Decimal.display]
  | .string value =>
    rw [renderSqlLiteral] at h
    split_ifs at h
    cases h
    simp [valueLexemes, Lexicon.textOf, lexicon, Lexeme.text, toList_quotedText]
  | .number (.float none) | .array | .object => cases h

/-- Rendering a list renders its elements. -/
theorem map_toList_of_mapM {f : α → IpcResult String} {text : α → List Char}
    (hf : ∀ a s, f a = .ok s → s.toList = text a) (h : l.mapM f = .ok r) :
    r.map String.toList = l.map text := by
  have hall := mapM_eq_ok_iff.1 h
  clear h
  induction hall with
  | nil => rfl
  | cons hab _ ih => rw [List.map_cons, List.map_cons, hf _ _ hab, ih]

/-- The text of lexemes with separators. -/
theorem toList_intercalate {α : Type} {f : α → List Lexeme} {l : List α} {r : List String}
    (h : r.map String.toList = l.map fun a ↦ lexicon.textOf (f a)) (separator : String)
    (sep : List Lexeme) (hsep : separator.toList = lexicon.textOf sep) :
    (separator.intercalate r).toList = lexicon.textOf (sep.intercalate (l.map f)) := by
  rw [String.toList_intercalate, h, hsep, Lexicon.textOf_intercalate, List.map_map]
  rfl

theorem toList_assignment {column : String} (h : assignment quoteMysqlIdentifier column value = .ok text) :
    text.toList = lexicon.textOf (assignmentLexemes column value) := by
  rw [assignment] at h
  rcases hl : renderSqlLiteral value with e | literal <;> rw [hl] at h <;> cases h
  rw [assignmentLexemes, Lexicon.textOf_append, ← toList_renderSqlLiteral hl]
  simp [Lexicon.textOf, lexicon, Lexeme.text, quoteMysqlIdentifier, toList_quotedText]

theorem toList_tableIdentifier (database table : String) :
    (tableIdentifier database table).toList = lexicon.textOf (tableLexemes database table) := by
  simp [tableIdentifier, tableLexemes, Lexicon.textOf, lexicon, Lexeme.text, quoteMysqlIdentifier,
    toList_quotedText]

theorem toList_insert
    (h : buildInsertRowStatement (tableIdentifier database table) quoteMysqlIdentifier values
      mysqlEmptyInsertStatement = .ok text) :
    text.toList = lexicon.textOf (insertTemplate database table values) := by
  rw [buildInsertRowStatement] at h
  by_cases hvalues : values = []
  · rw [if_pos hvalues] at h
    cases h
    subst hvalues
    rw [mysqlEmptyInsertStatement, String.toList_append, String.toList_append, toList_tableIdentifier]
    simp [insertTemplate, Lexicon.textOf, lexicon, Lexeme.text, keyword]
  · rw [if_neg hvalues] at h
    rcases hl : values.mapM fun value ↦ renderSqlLiteral value.value with e | literals <;>
      simp only [hl] at h <;> cases h
    have hcolumns : (", ".intercalate (values.map fun value ↦ quoteMysqlIdentifier value.column)).toList =
        lexicon.textOf (comma.intercalate (values.map fun value ↦ [.name value.column.toList])) := by
      refine toList_intercalate ?_ ", " comma rfl
      simp [Lexicon.textOf, lexicon, Lexeme.text, quoteMysqlIdentifier, toList_quotedText]
    have hliterals := toList_intercalate
      (map_toList_of_mapM (fun _ _ ↦ toList_renderSqlLiteral) hl) ", " comma rfl
    simp only [String.toList_append, insertTemplate, Lexicon.textOf_append, toList_tableIdentifier,
      hcolumns, hliterals]
    rfl

theorem toList_assignments {column : α → String} {value : α → JsonValue}
    (h : (l.mapM fun a ↦ assignment quoteMysqlIdentifier (column a) (value a)) = .ok r) :
    r.map String.toList = l.map fun a ↦ lexicon.textOf (assignmentLexemes (column a) (value a)) :=
  map_toList_of_mapM (fun _ _ ↦ toList_assignment) h

theorem toList_update {changes : List TableCellChange}
    (h : buildUpdateRowStatement (tableIdentifier database table) quoteMysqlIdentifier primaryKey
      changes = .ok text) :
    text.toList = lexicon.textOf (updateTemplate database table primaryKey changes) := by
  rw [buildUpdateRowStatement] at h
  rcases hc : changes.mapM fun change ↦ assignment quoteMysqlIdentifier change.column change.value with
    e | assignments <;> rw [hc] at h
  · cases h
  rcases hk : primaryKey.mapM fun part ↦ assignment quoteMysqlIdentifier part.column part.value with
    e | conditions <;> rw [hk] at h <;> cases h
  have hassignments := toList_intercalate (toList_assignments hc) ", " comma rfl
  have hconditions := toList_intercalate (toList_assignments hk) " AND " (spaced "AND") rfl
  simp only [String.toList_append, updateTemplate, keyLexemes, Lexicon.textOf_append,
    toList_tableIdentifier, hassignments, hconditions]
  rfl

theorem toList_rowCondition (h : rowCondition quoteMysqlIdentifier primaryKey = .ok text) :
    text.toList =
      lexicon.textOf ([.symbol '('] ++ keyLexemes primaryKey ++ [.symbol ')']) := by
  rw [rowCondition] at h
  rcases hk : primaryKey.mapM fun part ↦ assignment quoteMysqlIdentifier part.column part.value with
    e | conditions <;> rw [hk] at h <;> cases h
  have hconditions := toList_intercalate (toList_assignments hk) " AND " (spaced "AND") rfl
  simp only [String.toList_append, keyLexemes, Lexicon.textOf_append, hconditions]
  rfl

theorem toList_delete {primaryKeys : List (List TableRowKeyPart)}
    (h : buildDeleteRowsStatement (tableIdentifier database table) quoteMysqlIdentifier primaryKeys =
      .ok text) :
    text.toList = lexicon.textOf (deleteTemplate database table primaryKeys) := by
  rw [buildDeleteRowsStatement] at h
  by_cases hkeys : primaryKeys = []
  · rw [if_pos hkeys] at h
    cases h
  rw [if_neg hkeys] at h
  rcases hr : primaryKeys.mapM (rowCondition quoteMysqlIdentifier) with e | rows <;>
    simp only [hr] at h <;> cases h
  have hrows := toList_intercalate (map_toList_of_mapM (fun _ _ ↦ toList_rowCondition) hr)
    " OR " (spaced "OR") rfl
  simp only [String.toList_append, deleteTemplate, Lexicon.textOf_append, toList_tableIdentifier, hrows]
  rfl

/-! ### The templates are well separated -/

/-- What stands behind a value: the end of the statement, a comma, a bracket or a space. -/
def Delimits (next : Option Char) : Prop :=
  next = none ∨ next = some ',' ∨ next = some ')' ∨ next = some ' '

theorem digits_fit (hnext : Delimits next) (negative : Bool) (n : ℕ) (fraction : List Char)
    (hfraction : fraction.all fun c ↦ isNameChar c || c == '.') :
    (Lexeme.number negative (digits n ++ fraction)).fits next := by
  have hdigits : ∀ c ∈ digits n, c.isDigit := fun c hc ↦
    Nat.isDigit_of_mem_toDigits (by decide) (by decide) hc
  refine ⟨?_, ?_, ?_⟩
  · rcases hd : digits n with _ | ⟨c, rest⟩
    · exact absurd hd Nat.toDigits_ne_nil
    · exact hdigits c (by rw [hd]; simp)
  · rw [List.all_append, Bool.and_eq_true]
    refine ⟨?_, hfraction⟩
    rw [List.all_eq_true]
    intro c hc
    simp [isNameChar_of_isDigit (hdigits c hc)]
  · obtain rfl | rfl | rfl | rfl := hnext <;> decide

theorem separated_value (hnext : Delimits next) (value : JsonValue) :
    lexicon.Separated next (valueLexemes value) := by
  have hsingle : ∀ l : Lexeme, l.fits next → lexicon.Separated next [l] := fun l hl ↦ ⟨hl, trivial⟩
  match value with
  | .null | .bool true | .bool false =>
    refine hsingle _ ?_
    obtain rfl | rfl | rfl | rfl := hnext <;> decide
  | .number (.posInt n) | .number (.negInt n) =>
    refine hsingle _ ?_
    have hfit := fun negative ↦ digits_fit hnext negative n [] rfl
    simp only [List.append_nil] at hfit
    exact hfit _
  | .number (.float (some d)) =>
    refine hsingle _ (digits_fit hnext d.negative d.whole _ ?_)
    split_ifs
    · rfl
    · rw [List.all_cons, List.all_map, Bool.and_eq_true, List.all_eq_true]
      have hdigit : ∀ digit : Fin 10, isNameChar (Nat.digitChar digit.val) := by decide
      exact ⟨rfl, fun digit _ ↦ by simp [hdigit digit]⟩
  | .string value =>
    refine hsingle _ (?_ : next ≠ some '\'')
    obtain rfl | rfl | rfl | rfl := hnext <;> decide
  | .number (.float none) | .array | .object => trivial

theorem separated_symbol {c : Char} (hc : c ∈ [',', '(', ')', '=', '.']) (hls : lexicon.Separated next ls) :
    lexicon.Separated next (.symbol c :: ls) :=
  ⟨hc, hls⟩

theorem separated_space (hls : lexicon.Separated next ls) :
    lexicon.Separated next (.space :: ls) :=
  ⟨trivial, hls⟩

/-- Every keyword stands before a space. -/
theorem separated_keyword (hword : (keyword word).fits (some ' ')) (hls : lexicon.Separated next ls) :
    lexicon.Separated next (keyword word :: .space :: ls) :=
  ⟨hword, trivial, hls⟩

theorem separated_comma (next : Option Char) : lexicon.Separated next comma :=
  separated_symbol (by decide) (separated_space trivial)

theorem separated_spaced (hword : (keyword word).fits (some ' ')) (next : Option Char) :
    lexicon.Separated next (spaced word) :=
  separated_space (separated_keyword hword trivial)

theorem separated_assignment (hnext : Delimits next) (column : String) (value : JsonValue) :
    lexicon.Separated next (assignmentLexemes column value) := by
  rw [assignmentLexemes, Lexicon.separated_append]
  refine ⟨⟨?_, trivial, ?_, trivial, trivial⟩, separated_value hnext value⟩
  · show some ' ' ≠ some '`'
    decide
  · show '=' ∈ _
    decide

theorem separated_table (database table : String) :
    lexicon.Separated (some ' ') (tableLexemes database table) := by
  refine ⟨?_, ?_, ?_, trivial⟩
  · show some '.' ≠ some '`'
    decide
  · show '.' ∈ _
    decide
  · show some ' ' ≠ some '`'
    decide

theorem separated_key (hnext : Delimits next) (primaryKey : List TableRowKeyPart) :
    lexicon.Separated next (keyLexemes primaryKey) := by
  refine lexicon.separated_intercalate rfl (separated_spaced (by decide)) ?_
  intro item hitem
  obtain ⟨part, -, rfl⟩ := List.mem_map.1 hitem
  exact ⟨separated_assignment (.inr (.inr (.inr rfl))) _ _, separated_assignment hnext _ _⟩

theorem separated_insertTemplate (database table : String) (values : List TableCellChange) :
    lexicon.Separated none (insertTemplate database table values) := by
  have hcolumns : lexicon.Separated (some ')')
      (comma.intercalate (values.map fun value ↦ [.name value.column.toList])) := by
    refine lexicon.separated_intercalate rfl separated_comma ?_
    intro item hitem
    obtain ⟨value, -, rfl⟩ := List.mem_map.1 hitem
    refine ⟨⟨(?_ : some ',' ≠ some '`'), trivial⟩, ⟨(?_ : some ')' ≠ some '`'), trivial⟩⟩ <;> decide
  have hliterals : lexicon.Separated (some ')')
      (comma.intercalate (values.map fun value ↦ valueLexemes value.value)) := by
    refine lexicon.separated_intercalate rfl separated_comma ?_
    intro item hitem
    obtain ⟨value, -, rfl⟩ := List.mem_map.1 hitem
    exact ⟨separated_value (.inr (.inl rfl)) _, separated_value (.inr (.inr (.inl rfl))) _⟩
  simp only [insertTemplate, Lexicon.separated_append]
  refine ⟨⟨⟨⟨⟨⟨?_, ?_⟩, ?_⟩, hcolumns⟩, ?_⟩, hliterals⟩, ?_⟩
  · exact separated_keyword (by decide) (separated_keyword (by decide) trivial)
  · exact separated_table database table
  · exact separated_space (separated_symbol (by decide) trivial)
  · exact separated_symbol (by decide) (separated_space
      (separated_keyword (by decide) (separated_symbol (by decide) trivial)))
  · exact separated_symbol (by decide) trivial

theorem separated_updateTemplate (database table : String) (primaryKey : List TableRowKeyPart)
    (changes : List TableCellChange) :
    lexicon.Separated none (updateTemplate database table primaryKey changes) := by
  have hchanges : lexicon.Separated (some ' ') (comma.intercalate
      (changes.map fun change ↦ assignmentLexemes change.column change.value)) := by
    refine lexicon.separated_intercalate rfl separated_comma ?_
    intro item hitem
    obtain ⟨change, -, rfl⟩ := List.mem_map.1 hitem
    exact ⟨separated_assignment (.inr (.inl rfl)) _ _,
      separated_assignment (.inr (.inr (.inr rfl))) _ _⟩
  simp only [updateTemplate, Lexicon.separated_append]
  refine ⟨⟨⟨⟨⟨?_, ?_⟩, ?_⟩, hchanges⟩, ?_⟩, separated_key (.inl rfl) primaryKey⟩
  · exact separated_keyword (by decide) trivial
  · exact separated_table database table
  · exact separated_spaced (by decide) _
  · exact separated_spaced (by decide) _

theorem separated_deleteTemplate (database table : String)
    (primaryKeys : List (List TableRowKeyPart)) :
    lexicon.Separated none (deleteTemplate database table primaryKeys) := by
  have hrow : ∀ next key, lexicon.Separated next
      ([Lexeme.symbol '('] ++ keyLexemes key ++ [.symbol ')']) := by
    intro next key
    simp only [Lexicon.separated_append]
    refine ⟨⟨?_, separated_key (.inr (.inr (.inl rfl))) key⟩, ?_⟩
    · exact separated_symbol (by decide) trivial
    · exact separated_symbol (by decide) trivial
  simp only [deleteTemplate, Lexicon.separated_append]
  refine ⟨⟨⟨?_, ?_⟩, ?_⟩, ?_⟩
  · exact separated_keyword (by decide) (separated_keyword (by decide) trivial)
  · exact separated_table database table
  · exact separated_spaced (by decide) _
  · refine lexicon.separated_intercalate rfl (separated_spaced (by decide)) ?_
    intro item hitem
    obtain ⟨key, -, rfl⟩ := List.mem_map.1 hitem
    exact ⟨hrow _ _, hrow _ _⟩

/-! ### Which templates are read as intended -/

/-- The backslashes of a string value are safe. -/
def safeValue : JsonValue → Bool
  | .string value => backslashSafe value.toList
  | _ => true

theorem good_valueLexemes (value : JsonValue) :
    (∀ l ∈ valueLexemes value, lexicon.good l) ↔ safeValue value := by
  match value with
  | .string value =>
    show (∀ l ∈ [Lexeme.literal value.toList], l.good) ↔ _
    rw [List.forall_mem_singleton]
    rfl
  | .null | .bool true | .bool false | .number (.posInt n) | .number (.negInt n)
  | .number (.float (some d)) =>
    refine ⟨fun _ ↦ rfl, fun _ l hl ↦ ?_⟩
    obtain rfl := List.mem_singleton.1 hl
    trivial
  | .number (.float none) | .array | .object => exact ⟨fun _ ↦ rfl, fun _ l hl ↦ (by cases hl)⟩

/-- Lexemes without a literal among them. -/
theorem good_of_plain (ls : List Lexeme) (h : ∀ value, Lexeme.literal value ∉ ls) :
    ∀ l ∈ ls, lexicon.good l := by
  intro l hl
  cases l with
  | literal value => exact absurd hl (h value)
  | space | symbol c | word text | number negative text | name value => trivial

theorem good_assignmentLexemes (column : String) (value : JsonValue) :
    (∀ l ∈ assignmentLexemes column value, lexicon.good l) ↔ safeValue value := by
  rw [assignmentLexemes, List.forall_mem_append, good_valueLexemes]
  exact and_iff_right (good_of_plain _ (by simp))

theorem good_keyLexemes (primaryKey : List TableRowKeyPart) :
    (∀ l ∈ keyLexemes primaryKey, lexicon.good l) ↔ ∀ part ∈ primaryKey, safeValue part.value := by
  rw [keyLexemes, Lexicon.forall_mem_intercalate (good_of_plain _ (by simp [spaced, keyword])),
    List.forall_mem_map]
  simp only [good_assignmentLexemes]

theorem good_tableLexemes (database table : String) :
    ∀ l ∈ tableLexemes database table, lexicon.good l :=
  good_of_plain _ (by simp [tableLexemes])

theorem good_insertTemplate (database table : String) (values : List TableCellChange) :
    (∀ l ∈ insertTemplate database table values, lexicon.good l) ↔
      ∀ value ∈ values, safeValue value.value := by
  have hcomma := good_of_plain comma (by simp [comma])
  simp only [insertTemplate, List.forall_mem_append, Lexicon.forall_mem_intercalate hcomma,
    List.forall_mem_map, good_valueLexemes]
  refine ⟨fun h ↦ h.1.2, fun h ↦ ⟨⟨⟨⟨⟨⟨?_, good_tableLexemes _ _⟩, ?_⟩, ?_⟩, ?_⟩, h⟩, ?_⟩⟩
  · exact good_of_plain _ (by simp [keyword])
  · exact good_of_plain _ (by simp)
  · exact fun value _ ↦ good_of_plain _ (by simp)
  · exact good_of_plain _ (by simp [keyword])
  · exact good_of_plain _ (by simp)

theorem good_updateTemplate (database table : String) (primaryKey : List TableRowKeyPart)
    (changes : List TableCellChange) :
    (∀ l ∈ updateTemplate database table primaryKey changes, lexicon.good l) ↔
      (∀ part ∈ primaryKey, safeValue part.value) ∧ ∀ change ∈ changes, safeValue change.value := by
  have hcomma := good_of_plain comma (by simp [comma])
  simp only [updateTemplate, List.forall_mem_append, Lexicon.forall_mem_intercalate hcomma,
    List.forall_mem_map, good_assignmentLexemes, good_keyLexemes]
  refine ⟨fun h ↦ ⟨h.2, h.1.1.2⟩, fun h ↦ ⟨⟨⟨⟨⟨?_, good_tableLexemes _ _⟩, ?_⟩, h.2⟩, ?_⟩, h.1⟩⟩
  · exact good_of_plain _ (by simp [keyword])
  · exact good_of_plain _ (by simp [spaced, keyword])
  · exact good_of_plain _ (by simp [spaced, keyword])

theorem good_deleteTemplate (database table : String) (primaryKeys : List (List TableRowKeyPart)) :
    (∀ l ∈ deleteTemplate database table primaryKeys, lexicon.good l) ↔
      ∀ key ∈ primaryKeys, ∀ part ∈ key, safeValue part.value := by
  have hor := good_of_plain (spaced "OR") (by simp [spaced, keyword])
  simp only [deleteTemplate, List.forall_mem_append, Lexicon.forall_mem_intercalate hor,
    List.forall_mem_map, good_keyLexemes]
  refine ⟨fun h key hkey ↦ (h.2 key hkey).1.2, fun h ↦ ⟨⟨⟨?_, good_tableLexemes _ _⟩, ?_⟩, ?_⟩⟩
  · exact good_of_plain _ (by simp [keyword])
  · exact good_of_plain _ (by simp [spaced, keyword])
  · exact fun key hkey ↦ ⟨⟨good_of_plain _ (by simp), h key hkey⟩, good_of_plain _ (by simp)⟩

/-! ### Checking keeps the values -/

theorem eq_of_validateValues {duplicate : IpcError} {check : TableCellChange → ColumnMeta → IpcResult Unit} :
    ∀ {seen : List String}, validateValues columns duplicate check seen values = .ok checked →
      checked = values := by
  induction values generalizing checked with
  | nil =>
    intro seen h
    cases h
    rfl
  | cons value values ih =>
    intro seen h
    rw [validateValues] at h
    by_cases hseen : value.column ∈ seen
    · rw [if_pos hseen] at h
      cases h
    rw [if_neg hseen] at h
    rcases hcolumn : columns.reverse.find? (·.name = value.column) with _ | column
    · simp only [hcolumn] at h
      cases h
    simp only [hcolumn] at h
    obtain ⟨_, _, h⟩ := exists_of_bind_eq_ok h
    obtain ⟨_, _, h⟩ := exists_of_bind_eq_ok h
    obtain ⟨_, _, h⟩ := exists_of_bind_eq_ok h
    obtain ⟨rest, hrest, h⟩ := exists_of_bind_eq_ok h
    cases h
    rw [ih hrest]

theorem eq_of_validateInsertValues (h : validateInsertValues columns values = .ok checked) : checked = values :=
  eq_of_validateValues h

theorem eq_of_validateCellChanges (h : validateCellChanges columns values = .ok checked) :
    checked = values := by
  rw [validateCellChanges] at h
  split_ifs at h
  exact eq_of_validateValues h

/-- A checked key has the parts of the request, in another order. -/
theorem mem_of_validatePrimaryKey {primaryKey : TableRowKey} {checked : List TableRowKeyPart}
    (h : validatePrimaryKey columns primaryKey = .ok checked) (part : TableRowKeyPart) :
    part ∈ checked ↔ part ∈ primaryKey := by
  simp only [validatePrimaryKey] at h
  split_ifs at h with hnone hnodup hsame
  obtain ⟨hsub, hsup⟩ := hsame
  -- what the lookup of a column finds
  have hfound : ∀ {column : String} {part' found : TableRowKeyPart},
      primaryKey.reverse.find? (·.column = column) = some part' → TableRowKeyPart.mk column part'.value = found →
        found ∈ primaryKey ∧ found.column = column := by
    rintro column part' _ hf rfl
    have hcolumn : part'.column = column := by simpa using List.find?_some hf
    subst hcolumn
    exact ⟨List.mem_reverse.1 (List.mem_of_find?_eq_some hf), rfl⟩
  have hall := mapM_eq_ok_iff.1 h
  constructor
  · intro hpart
    obtain ⟨column, -, hc⟩ := exists_left_of_forall₂ hall hpart
    split at hc
    · cases hc
    · next hf => exact (hfound hf (Except.ok.inj hc)).1
  · intro hpart
    have hcolumn : part.column ∈ orderedPrimaryKeyColumns columns :=
      hsup (List.mem_map_of_mem hpart)
    obtain ⟨found, hmem, hc⟩ := exists_right_of_forall₂ hall hcolumn
    split at hc
    · cases hc
    · next hf =>
      obtain ⟨hin, hsame⟩ := hfound hf (Except.ok.inj hc)
      obtain rfl : found = part := List.inj_on_of_nodup_map hnodup hin hpart hsame
      exact hmem

/-! ### The statements of a change set -/

/-- The values of a change set: cells, and parts of keys. -/
def changeSetValues (changeSet : TableChangeSetRequest) : List JsonValue :=
  let keyValues := fun locator : TableRowLocator ↦
    (locator.primaryKeyParts.getD []).map (·.value)
  changeSet.inserts.flatMap (fun insert ↦ insert.values.map (·.value)) ++
    changeSet.updates.flatMap (fun update ↦
      keyValues update.locator ++ update.changes.map (·.value)) ++
    changeSet.deletes.flatMap keyValues

/-- A statement is the text of a template. -/
def Renders (statement : String) (template : List Lexeme) : Prop :=
  statement.toList = lexicon.textOf template ∧ lexicon.Separated none template

/-- **Reading the statements back.** -/
theorem tokens_iff_of_renders {statements : List String} {templates : List (List Lexeme)}
    (h : List.Forall₂ Renders statements templates) :
    statements.map tokens = templates.map (fun template ↦ .ok (lexicon.tokensOf template)) ↔
      ∀ template ∈ templates, ∀ l ∈ template, lexicon.good l := by
  induction h with
  | nil => simp
  | @cons statement template _ _ hrender _ ih =>
    have hread : tokens statement = .ok (lexicon.tokensOf template) ↔
        ∀ l ∈ template, lexicon.good l := by
      rw [tokens, hrender.1]
      exact lexicon.scan_textOf_iff hrender.2
    rw [List.map_cons, List.map_cons, List.cons.injEq, hread, ih, List.forall_mem_cons (a := template)]

theorem keyOf_of_validateLocator {locator : TableRowLocator}
    (h : validateLocator columns locator = .ok primaryKey) :
    keyOf columns locator = primaryKey ∧
      ∀ part, part ∈ primaryKey ↔ part ∈ locator.primaryKeyParts.getD [] := by
  refine ⟨by rw [keyOf, h], fun part ↦ ?_⟩
  rw [validateLocator] at h
  rcases hparts : locator.primaryKeyParts with _ | parts <;> rw [hparts] at h
  · cases h
  · exact mem_of_validatePrimaryKey h part

theorem map_keyOf {locators : List TableRowLocator} {keys : List (List TableRowKeyPart)}
    (h : List.Forall₂ (fun locator key ↦ validateLocator columns locator = .ok key) locators keys) :
    locators.map (keyOf columns) = keys := by
  induction h with
  | nil => rfl
  | cons hkey _ ih => rw [List.map_cons, (keyOf_of_validateLocator hkey).1, ih]

section Preview

variable {columns : List ColumnMeta} {database table : String} {changeSet : TableChangeSetRequest}
  {preview : TableChangeSetPreview}

variable {statement : String}

theorem renders_insert {insert : TableChangeSetInsert}
    (h : insertStatement (tableIdentifier database table) quoteMysqlIdentifier columns
      mysqlEmptyInsertStatement insert = .ok statement) :
    Renders statement (insertTemplate database table insert.values) := by
  obtain ⟨values, hvalues, h⟩ := exists_of_bind_eq_ok h
  obtain rfl := eq_of_validateInsertValues hvalues
  exact ⟨toList_insert h, separated_insertTemplate database table _⟩

theorem renders_update {update : TableChangeSetUpdate}
    (h : updateStatement (tableIdentifier database table) quoteMysqlIdentifier columns update =
      .ok statement) :
    (∃ key, validateLocator columns update.locator = .ok key) ∧
      Renders statement
        (updateTemplate database table (keyOf columns update.locator) update.changes) := by
  obtain ⟨key, hkey, h⟩ := exists_of_bind_eq_ok h
  obtain ⟨changes, hchanges, h⟩ := exists_of_bind_eq_ok h
  obtain rfl := eq_of_validateCellChanges hchanges
  rw [(keyOf_of_validateLocator hkey).1]
  exact ⟨⟨key, hkey⟩, toList_update h, separated_updateTemplate database table _ _⟩

theorem renders_deletes {deletes : List TableRowLocator} {statements : List String}
    (h : deleteStatements (tableIdentifier database table) quoteMysqlIdentifier columns deletes =
      .ok statements) :
    (∀ locator ∈ deletes, ∃ key, validateLocator columns locator = .ok key) ∧
      List.Forall₂ Renders statements
        (if deletes = [] then [] else [deleteTemplate database table (deletes.map (keyOf columns))]) := by
  rw [deleteStatements] at h
  by_cases hnone : deletes = []
  · rw [if_pos hnone] at h ⊢
    cases h
    subst hnone
    exact ⟨fun _ h ↦ (by cases h), .nil⟩
  · rw [if_neg hnone] at h ⊢
    obtain ⟨keys, hkeys, h⟩ := exists_of_bind_eq_ok h
    obtain ⟨statement, hstatement, h⟩ := exists_of_bind_eq_ok h
    cases h
    have hall := mapM_eq_ok_iff.1 hkeys
    have hmap := map_keyOf hall
    refine ⟨fun locator hl ↦ ?_, .cons ⟨?_, separated_deleteTemplate database table _⟩ .nil⟩
    · obtain ⟨key, -, hkey⟩ := exists_right_of_forall₂ hall hl
      exact ⟨key, hkey⟩
    · rw [hmap]
      exact toList_delete hstatement

/-- **The statements of a preview** are the texts of the templates. -/
theorem renders_of_preview (h : previewTableChangeSet columns database table changeSet = .ok preview) :
    List.Forall₂ Renders preview.statements (templates columns database table changeSet) ∧
      (∀ update ∈ changeSet.updates, ∃ key, validateLocator columns update.locator = .ok key) ∧
      ∀ locator ∈ changeSet.deletes, ∃ key, validateLocator columns locator = .ok key := by
  rw [previewTableChangeSet, buildTableChangeSetPreview] at h
  split_ifs at h
  obtain ⟨inserts, hinserts, h⟩ := exists_of_bind_eq_ok h
  obtain ⟨updates, hupdates, h⟩ := exists_of_bind_eq_ok h
  obtain ⟨deletes, hdeletes, h⟩ := exists_of_bind_eq_ok h
  cases h
  have hi := mapM_eq_ok_iff.1 hinserts
  have hu := mapM_eq_ok_iff.1 hupdates
  obtain ⟨hvalid, hd⟩ := renders_deletes hdeletes
  refine ⟨List.rel_append (List.rel_append ?_ ?_) hd, ?_, hvalid⟩
  · rw [List.forall₂_map_right_iff]
    exact hi.flip.imp fun _ _ h ↦ renders_insert h
  · rw [List.forall₂_map_right_iff]
    exact hu.flip.imp fun _ _ h ↦ (renders_update h).2
  · intro update hupdate
    obtain ⟨statement, -, h⟩ := exists_right_of_forall₂ hu hupdate
    exact (renders_update h).1

/-- The literals of the templates are the strings of the change set. -/
theorem good_templates_iff
    (hupdates : ∀ update ∈ changeSet.updates, ∃ key, validateLocator columns update.locator = .ok key)
    (hdeletes : ∀ locator ∈ changeSet.deletes, ∃ key, validateLocator columns locator = .ok key) :
    (∀ template ∈ templates columns database table changeSet, ∀ l ∈ template, lexicon.good l) ↔
      ∀ value ∈ changeSetValues changeSet, safeValue value := by
  have hkey : ∀ locator, (∃ key, validateLocator columns locator = .ok key) →
      ((∀ part ∈ keyOf columns locator, safeValue part.value) ↔
        ∀ part ∈ locator.primaryKeyParts.getD [], safeValue part.value) := by
    rintro locator ⟨key, hkey⟩
    obtain ⟨hkeyOf, hmem⟩ := keyOf_of_validateLocator hkey
    rw [hkeyOf]
    simp only [hmem]
  have hdeleted : (∀ template ∈ if changeSet.deletes = [] then []
        else [deleteTemplate database table (changeSet.deletes.map (keyOf columns))],
        ∀ l ∈ template, lexicon.good l) ↔
      ∀ locator ∈ changeSet.deletes, ∀ part ∈ keyOf columns locator, safeValue part.value := by
    split_ifs with hnone
    · simp [hnone]
    · rw [List.forall_mem_singleton, good_deleteTemplate, List.forall_mem_map]
  simp only [templates, changeSetValues, List.forall_mem_append, List.forall_mem_map,
    good_insertTemplate, good_updateTemplate, hdeleted, List.forall_mem_flatMap]
  refine and_congr (and_congr Iff.rfl ?_) ?_
  · exact forall₂_congr fun update hupdate ↦
      and_congr (hkey _ (hupdates update hupdate)) Iff.rfl
  · exact forall₂_congr fun locator hlocator ↦ hkey _ (hdeletes locator hlocator)

/-- **Statements have the tokens of their templates exactly when every string is safe.** -/
theorem statements_iff (h : previewTableChangeSet columns database table changeSet = .ok preview) :
    preview.statements.map tokens =
        (templates columns database table changeSet).map
          (fun template ↦ .ok (lexicon.tokensOf template)) ↔
      ∀ value ∈ changeSetValues changeSet, safeValue value := by
  obtain ⟨hrenders, hupdates, hdeletes⟩ := renders_of_preview h
  rw [tokens_iff_of_renders hrenders, good_templates_iff hupdates hdeletes]

/-- **When MySQL reads what was rendered.** A string without NUL is rendered as one literal with its
value exactly when its backslashes are safe, and the statements of a change set have the tokens of their
templates exactly when the backslashes of all its strings are. -/
theorem literal_and_statements_iff {value : String} (hnul : '\x00' ∉ value.toList)
    (h : previewTableChangeSet columns database table changeSet = .ok preview) :
    ((∃ literal, renderSqlLiteral (.string value) = .ok literal ∧
        tokens literal = .ok [.string value.toList]) ↔ backslashSafe value.toList) ∧
      (preview.statements.map tokens =
          (templates columns database table changeSet).map
            (fun template ↦ .ok (lexicon.tokensOf template)) ↔
        ∀ value ∈ changeSetValues changeSet, safeValue value) := by
  have hrender : renderSqlLiteral (.string value) = .ok (quotedText '\'' value) := by
    rw [renderSqlLiteral, if_neg hnul]
  have hread : tokens (quotedText '\'' value) = .ok [.string value.toList] ↔
      ∀ l ∈ [Lexeme.literal value.toList], lexicon.good l := by
    rw [tokens, toList_renderSqlLiteral hrender]
    exact lexicon.scan_textOf_iff (separated_value (.inl rfl) (.string value))
  rw [List.forall_mem_singleton] at hread
  refine ⟨⟨?_, fun hsafe ↦ ⟨_, hrender, hread.2 hsafe⟩⟩, statements_iff h⟩
  rintro ⟨literal, hliteral, htokens⟩
  rw [hrender] at hliteral
  cases hliteral
  exact hread.1 htokens

end Preview

/-- An insert of one row with two cells. -/
def twoCells (first second : String) : TableChangeSetRequest where
  inserts := [⟨[⟨"a", .string first⟩, ⟨"b", .string second⟩]⟩]
  updates := []
  deletes := []

def twoColumns : List ColumnMeta :=
  [⟨"a", false, none, true⟩, ⟨"b", false, none, true⟩]

/-- Quotes, and a backslash before a percent sign. -/
theorem literal_and_statements_of_quotes :
    (∃ literal, renderSqlLiteral (.string "it's") = .ok literal ∧
        tokens literal = .ok [.string "it's".toList]) ∧
      ["INSERT INTO `db`.`t` (`a`, `b`) VALUES ('it''s', '50\\%')"].map tokens =
        (templates twoColumns "db" "t" (twoCells "it's" "50\\%")).map
          (fun template ↦ .ok (lexicon.tokensOf template)) := by
  have hpreview : previewTableChangeSet twoColumns "db" "t" (twoCells "it's" "50\\%") =
      .ok ⟨["INSERT INTO `db`.`t` (`a`, `b`) VALUES ('it''s', '50\\%')"], ⟨1, 0, 0⟩⟩ := by
    decide
  have hnul : '\x00' ∉ "it's".toList := by decide
  obtain ⟨hliteral, hstatements⟩ := literal_and_statements_iff hnul hpreview
  exact ⟨hliteral.2 (by decide), hstatements.2 (by decide)⟩

/-- The literal of a backslash is not closed, and with it a second cell writes into the statement: the
word `SELECT` below is a token of its own. -/
theorem backslash_misread :
    renderSqlLiteral (.string "\\") = .ok "'\\'" ∧ tokens "'\\'" = .error () ∧
      previewTableChangeSet twoColumns "db" "t" (twoCells "\\" ", (SELECT 1)) -- ") =
        .ok ⟨["INSERT INTO `db`.`t` (`a`, `b`) VALUES ('\\', ', (SELECT 1)) -- ')"], ⟨1, 0, 0⟩⟩ ∧
      (∃ found, tokens "INSERT INTO `db`.`t` (`a`, `b`) VALUES ('\\', ', (SELECT 1)) -- ')" = .ok found ∧
        .word "SELECT".toList ∈ found ∧
        found ≠ lexicon.tokensOf
          (insertTemplate "db" "t" [⟨"a", .string "\\"⟩, ⟨"b", .string ", (SELECT 1)) -- "⟩])) := by
  refine ⟨by decide, by decide, by decide, ?_⟩
  refine ⟨[.word "INSERT".toList, .word "INTO".toList, .name "db".toList, .symbol '.',
    .name "t".toList, .symbol '(', .name "a".toList, .symbol ',', .name "b".toList, .symbol ')',
    .word "VALUES".toList, .symbol '(', .string "', ".toList, .symbol ',', .symbol '(',
    .word "SELECT".toList, .number "1".toList, .symbol ')', .symbol ')'], ?_, ?_, ?_⟩
  · decide
  · decide
  · decide

end Mysql
