import NexusPilot.Mysql.Destructive
import NexusPilot.Postgres.Destructive
import NexusPilot.Schema.ColumnRun

/-!
# Confirming destructive updates

A driver asks for confirmation when the texts of the statements hold a marker, while
`TableSchemaUpdateDiff::is_destructive` looks at the difference, and the drivers assert that the two agree.
`confirmationAgrees_iff` says exactly when they do.
-/

namespace Schema

open Drivers

/-- The judgement of the statements is that of the difference, and confirmation is demanded exactly when the
difference is destructive. -/
structure ConfirmationAgrees (diff : TableSchemaUpdateDiff) (destructive : Bool)
    (ensure : Bool → IpcResult Unit) : Prop where
  judgement : destructive = diff.isDestructive
  demand : ∀ confirmed, ensure confirmed = .ok () ↔ (diff.isDestructive = true → confirmed = true)

variable {diff : TableSchemaUpdateDiff}

theorem confirmationAgrees_iff_judgement {destructive : Bool} {ensure : Bool → IpcResult Unit}
    (hensure : ∀ confirmed, ensure confirmed = .ok () ↔ (destructive = true → confirmed = true)) :
    ConfirmationAgrees diff destructive ensure ↔ destructive = diff.isDestructive := by
  refine ⟨fun h ↦ h.judgement, fun h ↦ ⟨h, fun confirmed ↦ ?_⟩⟩
  rw [← h]
  exact hensure confirmed

theorem isDestructive_iff : diff.isDestructive = true ↔
    diff.droppedColumns ≠ [] ∨ diff.columnTypeChanges ≠ [] ∨ diff.primaryKeyChange ≠ none ∨
      diff.droppedConstraints ≠ [] ∨ diff.generatedColumnChanges ≠ [] ∨
      diff.identityChanges.any (·.oldIdentity.isSome) = true := by
  have hkey : diff.primaryKeyChange.isSome = true ↔ diff.primaryKeyChange ≠ none :=
    Option.isSome_iff_ne_none
  have hempty : ∀ {β : Type} (l : List β), (!l.isEmpty) = true ↔ l ≠ [] := by
    intro β l
    cases l <;> simp
  rw [TableSchemaUpdateDiff.isDestructive]
  simp only [Bool.or_eq_true, hkey, hempty]
  generalize diff.identityChanges.any (·.oldIdentity.isSome) = identity
  tauto

end Schema

namespace Mysql

open Drivers Schema

/-- The markers tell what the difference is: it is destructive by what is marked, or it is destructive
otherwise exactly when the definition of a renamed column changes or a text that a statement carries holds
a marker. -/
def MarkersTell (table : String) (diff : TableSchemaUpdateDiff) (target : TableSchema) : Prop :=
  diff.droppedColumns ≠ [] ∨ diff.columnTypeChanges ≠ [] ∨ diff.primaryKeyChange ≠ none ∨
    ((diff.droppedConstraints ≠ [] ∨ diff.generatedColumnChanges ≠ [] ∨
        diff.identityChanges.any (·.oldIdentity.isSome) = true) ↔
      (∃ column ∈ changedColumns diff target, (renameByNewName diff column.name).isSome) ∨
        ∃ text ∈ carriedTexts table diff target, spells markers text = true)

theorem ensureDestructiveTableUpdateConfirmed_eq_ok_iff {input : UpdateTableInput} {texts : List String} :
    ensureDestructiveTableUpdateConfirmed input texts = .ok () ↔
      (tableUpdateStatementsAreDestructive texts = true → input.confirmDestructive = true) := by
  rw [ensureDestructiveTableUpdateConfirmed]
  cases tableUpdateStatementsAreDestructive texts <;> cases input.confirmDestructive <;> simp

end Mysql

namespace Postgres

open Drivers Schema

/-- The markers tell what the difference is: it is destructive by what is marked, or it changes an identity
that was there exactly when a text that a statement carries holds a marker. -/
def MarkersTell (schema table : String) (diff : TableSchemaUpdateDiff) : Prop :=
  diff.droppedColumns ≠ [] ∨ diff.columnTypeChanges ≠ [] ∨ diff.primaryKeyChange ≠ none ∨
    diff.droppedConstraints ≠ [] ∨
    (diff.identityChanges.any (·.oldIdentity.isSome) = true ↔
      ∃ text ∈ carriedTexts schema table diff, spells markers text = true)

theorem ensureDestructiveTableUpdateConfirmed_eq_ok_iff {input : UpdateTableInput} {texts : List String} :
    ensureDestructiveTableUpdateConfirmed input texts = .ok () ↔
      (tableUpdateStatementsAreDestructive texts = true → input.confirmDestructive = true) := by
  rw [ensureDestructiveTableUpdateConfirmed]
  cases tableUpdateStatementsAreDestructive texts <;> cases input.confirmDestructive <;> simp

end Postgres

namespace Schema

open Drivers

variable {a b c p q : Prop}

theorem or_iff_or_of_parts :
    ((a ∨ b ∨ c ∨ q) ↔ (a ∨ b ∨ c ∨ p)) ↔ a ∨ b ∨ c ∨ (p ↔ q) := by
  tauto

theorem or_iff_or_of_parts' {k : Prop} :
    ((a ∨ b ∨ k ∨ c ∨ q) ↔ (a ∨ b ∨ c ∨ k ∨ p)) ↔ a ∨ b ∨ c ∨ k ∨ (p ↔ q) := by
  tauto

/-- **Confirmation is demanded exactly for destructive differences when the markers tell them**: for every
request that has statements, with either driver. -/
theorem confirmationAgrees_iff {orders : MapOrders} {input : UpdateTableInput} :
    (∀ defaultDatabase database table texts,
      Mysql.updateTableSql orders input defaultDatabase = .ok (database, table, texts) →
        (ConfirmationAgrees (diffOf orders input.baseline input.target input.columnRenames)
            (Mysql.tableUpdateStatementsAreDestructive texts)
            (fun confirmed ↦ Mysql.ensureDestructiveTableUpdateConfirmed
              { input with confirmDestructive := confirmed } texts) ↔
          Mysql.MarkersTell (Mysql.qualifiedTable database table)
            (diffOf orders input.baseline input.target input.columnRenames) input.target)) ∧
    ∀ defaultDatabase defaultSchema database schema table texts,
      Postgres.updateTableStatements orders input defaultDatabase defaultSchema =
          .ok (database, schema, table, texts) →
        (ConfirmationAgrees (diffOf orders input.baseline input.target input.columnRenames)
            (Postgres.tableUpdateStatementsAreDestructive texts)
            (fun confirmed ↦ Postgres.ensureDestructiveTableUpdateConfirmed
              { input with confirmDestructive := confirmed } texts) ↔
          Postgres.MarkersTell schema (Postgres.qualifiedTable schema table)
            (diffOf orders input.baseline input.target input.columnRenames)) := by
  constructor
  · intro defaultDatabase database table texts h
    rw [confirmationAgrees_iff_judgement fun _ ↦ Mysql.ensureDestructiveTableUpdateConfirmed_eq_ok_iff,
      Bool.eq_iff_iff, Mysql.destructive_iff h, isDestructive_iff]
    exact or_iff_or_of_parts
  · intro defaultDatabase defaultSchema database schema table texts h
    obtain ⟨hgenerated, hdestructive⟩ := Postgres.destructive_iff h
    rw [confirmationAgrees_iff_judgement fun _ ↦ Postgres.ensureDestructiveTableUpdateConfirmed_eq_ok_iff,
      Bool.eq_iff_iff, hdestructive, isDestructive_iff, hgenerated]
    simp only [ne_eq, not_true_eq_false, false_or]
    exact or_iff_or_of_parts'

/-- A column that is an identity, or none. -/
def identityColumn (identity : Option TableIdentityOptions) : TableColumnSchema where
  name := "a"
  typeName := "int"
  nullable := false
  isIdentity := identity.isSome
  identity := identity

/-- A table with one such column and some checks. -/
def identityTable (identity : Option TableIdentityOptions) (checks : List String) : TableSchema where
  basics := { tableName := "t", databaseName := "d", schemaName := "s" }
  columns := [identityColumn identity]
  indexes := []
  constraints := checks.map fun name ↦
    { name := name, kind := .check, columns := [], expression := some "a > 0" }

/-- A request to turn one such table into another. -/
def identityInput (baseline target : TableSchema) : UpdateTableInput where
  container := ⟨.table, some "d", some "s", some "t", none⟩
  baseline := baseline
  target := target
  columnRenames := []
  confirmDestructive := false

/-- A column that is dropped is recognised by both drivers. -/
theorem confirmationAgrees_chain :
    (∃ texts, Mysql.updateTableSql .insertion chainInput none = .ok ("d", "t", texts) ∧
      ConfirmationAgrees (diffOf .insertion chainInput.baseline chainInput.target chainInput.columnRenames)
        (Mysql.tableUpdateStatementsAreDestructive texts)
        (fun confirmed ↦ Mysql.ensureDestructiveTableUpdateConfirmed
          { chainInput with confirmDestructive := confirmed } texts)) ∧
    ∃ texts, Postgres.updateTableStatements .insertion chainInput "d" "s" = .ok ("d", "s", "t", texts) ∧
      ConfirmationAgrees (diffOf .insertion chainInput.baseline chainInput.target chainInput.columnRenames)
        (Postgres.tableUpdateStatementsAreDestructive texts)
        (fun confirmed ↦ Postgres.ensureDestructiveTableUpdateConfirmed
          { chainInput with confirmDestructive := confirmed } texts) := by
  have hmysql : Mysql.updateTableSql .insertion chainInput none = .ok ("d", "t",
      ["ALTER TABLE `d`.`t` ADD COLUMN `y` int NULL", "ALTER TABLE `d`.`t` RENAME COLUMN `b` TO `c`",
        "ALTER TABLE `d`.`t` RENAME COLUMN `a` TO `b`", "ALTER TABLE `d`.`t` DROP COLUMN `x`"]) := by
    decide
  have hpostgres : Postgres.updateTableStatements .insertion chainInput "d" "s" = .ok ("d", "s", "t",
      ["ALTER TABLE \"s\".\"t\" ADD COLUMN \"y\" int",
        "ALTER TABLE \"s\".\"t\" RENAME COLUMN \"b\" TO \"c\"",
        "ALTER TABLE \"s\".\"t\" RENAME COLUMN \"a\" TO \"b\"",
        "ALTER TABLE \"s\".\"t\" DROP COLUMN \"x\""]) := by
    decide
  have hdropped : (diffOf .insertion chainInput.baseline chainInput.target
      chainInput.columnRenames).droppedColumns ≠ [] := by
    decide
  exact ⟨⟨_, hmysql, (confirmationAgrees_iff.1 _ _ _ _ hmysql).2 (.inl hdropped)⟩,
    ⟨_, hpostgres, (confirmationAgrees_iff.2 _ _ _ _ _ _ hpostgres).2 (.inl hdropped)⟩⟩

/-- MySQL drops a check, and PostgreSQL an identity, without asking. -/
theorem not_confirmationAgrees :
    (∃ texts, Mysql.updateTableSql .insertion
        (identityInput (identityTable none ["positive"]) (identityTable none [])) none =
          .ok ("d", "t", texts) ∧
      (diffOf .insertion (identityTable none ["positive"]) (identityTable none []) []).isDestructive = true ∧
      Mysql.tableUpdateStatementsAreDestructive texts = false ∧
      Mysql.ensureDestructiveTableUpdateConfirmed
        (identityInput (identityTable none ["positive"]) (identityTable none [])) texts = .ok ()) ∧
    ∃ texts, Postgres.updateTableStatements .insertion (identityInput
        (identityTable (some ⟨.always, none, none, none, none, none, false⟩) []) (identityTable none []))
          "d" "s" = .ok ("d", "s", "t", texts) ∧
      (diffOf .insertion (identityTable (some ⟨.always, none, none, none, none, none, false⟩) [])
        (identityTable none []) []).isDestructive = true ∧
      Postgres.tableUpdateStatementsAreDestructive texts = false ∧
      Postgres.ensureDestructiveTableUpdateConfirmed (identityInput
        (identityTable (some ⟨.always, none, none, none, none, none, false⟩) []) (identityTable none []))
          texts = .ok () := by
  refine ⟨⟨["ALTER TABLE `d`.`t` DROP CHECK `positive`"], ?_⟩,
    ⟨["ALTER TABLE \"s\".\"t\" ALTER COLUMN \"a\" DROP IDENTITY"], ?_⟩⟩
  · exact ⟨by decide, by decide, by decide, by decide⟩
  · exact ⟨by decide, by decide, by decide, by decide⟩

end Schema
