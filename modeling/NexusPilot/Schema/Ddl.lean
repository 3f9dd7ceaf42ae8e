import NexusPilot.Drivers.ChangeSet
import NexusPilot.Names.Run
import NexusPilot.Schema.Diff

/-!
# Parts of schema statements

What the MySQL and the PostgreSQL driver share when they render the statements of a table update: lists of
columns, clauses that are left out when they have no value, and the pieces that a statement consists of,
of which some are keywords of the statement and others **carry** a text of the request.
-/

namespace Schema

open Drivers

/-- `quote_column_list`. -/
def quoteColumnList (columns : List String) (quoteIdentifier : String → String) : String :=
  ", ".intercalate (columns.map quoteIdentifier)

/-- One column of a list of references: it must exist and not be repeated. -/
def validateColumnRef (columnNames : List String) (label : String) (seen : List String)
    (column : String) : IpcResult (List String) := do
  let column ← normalizedNonEmptyIdentifier column label
  if column ∉ columnNames then .error (.invalid (label ++ " '" ++ column ++ "' 不存在"))
  else if column ∈ seen then .error (.invalid (label ++ " '" ++ column ++ "' 重复"))
  else .ok (seen ++ [column])

/-- `validate_column_refs`. -/
def validateColumnRefs (columns columnNames : List String) (label : String) : IpcResult (List String) :=
  if columns = [] then .error (.invalid ("请至少填写一个" ++ label))
  else columns.foldlM (validateColumnRef columnNames label) []

theorem foldlM_validateColumnRef {columnNames : List String} {label : String} {columns : List String}
    {seen r : List String} (h : columns.foldlM (validateColumnRef columnNames label) seen = .ok r) :
    r = seen ++ columns.map trim := by
  induction columns generalizing seen with
  | nil =>
    cases h
    simp
  | cons column columns ih =>
    rw [List.foldlM_cons] at h
    obtain ⟨seen', hstep, h⟩ := exists_of_bind_eq_ok h
    obtain ⟨name, hname, hstep⟩ := exists_of_bind_eq_ok hstep
    obtain ⟨-, rfl⟩ := normalizedNonEmptyIdentifier_eq_ok_iff.1 hname
    simp only [ite_error_eq_ok_iff] at hstep
    obtain ⟨-, -, hstep⟩ := hstep
    cases hstep
    rw [ih h]
    simp

/-- The columns that are referred to are the trimmed names of the list. -/
theorem eq_of_validateColumnRefs {columns columnNames r : List String} {label : String}
    (h : validateColumnRefs columns columnNames label = .ok r) : r = columns.map trim :=
  foldlM_validateColumnRef (ite_error_eq_ok_iff.1 h).2

/-- A clause, left out when it has no value. -/
def clause (keyword : String) : Option String → String
  | none => ""
  | some value => keyword ++ value

/-- `mysql_referential_action` and `postgres_referential_action`. -/
def referentialAction : TableReferentialAction → String
  | .noAction => "NO ACTION"
  | .restrict => "RESTRICT"
  | .cascade => "CASCADE"
  | .setNull => "SET NULL"
  | .setDefault => "SET DEFAULT"

/-- A table that is referred to, with the database or schema that it is in. -/
def referencedTableName (quoteIdentifier : String → String) (container : Option String)
    (table : String) : IpcResult String := do
  let table ← normalizedNonEmptyIdentifier table "引用表"
  match normalizedOptionalText container with
  | some container => .ok (quoteIdentifier container ++ "." ++ quoteIdentifier table)
  | none => .ok (quoteIdentifier table)

/-- The definition of a foreign key, where `container` is what the driver qualifies a table by. -/
def foreignKeyDefinition (quoteIdentifier : String → String)
    (container : TableForeignKeyReference → Option String) (name : String)
    (constraint : TableConstraintSchema) : IpcResult String :=
  match constraint.foreignKey with
  | none => .error (.invalid ("外键约束 '" ++ name ++ "' 需要引用表和引用列"))
  | some foreignKey => do
    let referencedTable ← referencedTableName quoteIdentifier (container foreignKey) foreignKey.tableName
    .ok ("CONSTRAINT " ++ quoteIdentifier name ++ " FOREIGN KEY (" ++
      quoteColumnList constraint.columns quoteIdentifier ++ ") REFERENCES " ++ referencedTable ++ " (" ++
      quoteColumnList foreignKey.columns quoteIdentifier ++ ")" ++
      clause " ON UPDATE " (foreignKey.onUpdate.map referentialAction) ++
      clause " ON DELETE " (foreignKey.onDelete.map referentialAction))

/-- A result, or the empty text where there is none. -/
def textOr (result : IpcResult String) : String :=
  match result with
  | .ok text => text
  | .error _ => ""

/-! ### Pieces -/

/-- A piece of a statement: a keyword, or a text of the request. -/
inductive Piece
  | keyword (text : String)
  | carried (text : String)
  deriving DecidableEq

def Piece.text : Piece → String
  | .keyword text => text
  | .carried text => text

/-- The text of a statement. -/
def renderPieces (pieces : List Piece) : String :=
  String.join (pieces.map Piece.text)

end Schema
