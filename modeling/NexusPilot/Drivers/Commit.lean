import NexusPilot.Mysql.ChangeSet
import NexusPilot.Schema.Normalize

/-!
# Committing a change set

`commit_table_change_set` of the MySQL and the SQLite driver. The statements of the preview run one after
another: on the connection of the transaction session of the tab, if there is one, and else on the pool,
where every statement commits on its own. The loop stops at the first statement that fails, and at an
update that reports more than one row.

The database is not part of the model. It is a parameter, with the one property of it that matters here: a
statement that fails outside of a transaction has no effect. `failsCleanly_iff` says for which change sets
an error then means that nothing has happened, whatever the database answers.
-/

namespace Drivers

open Schema

/-- A database: what a statement answers, the number of affected rows, and what it makes of the data. -/
structure Database (σ : Type) where
  execute : String → σ → IpcResult ℕ × σ
  failed : ∀ sql s e, (execute sql s).1 = .error e → (execute sql s).2 = s

/-- A transaction session: the database that it is bound to, and the data as its connection sees them. -/
structure TransactionSession (σ : Type) where
  database : String
  working : σ

/-- The data that are committed, and the session of the tab. -/
structure Runtime (σ : Type) where
  committed : σ
  session : Option (TransactionSession σ)

inductive TableChangeOutcome
  | applied
  | submitted
  | outcomeUnknown
  | conflict
  deriving DecidableEq

structure TableChangeSetCommitResult where
  affectedRows : ℕ
  preview : TableChangeSetPreview
  outcome : TableChangeOutcome
  deriving DecidableEq

/-- The errors in which the two drivers differ. -/
structure CommitErrors where
  otherDatabase : String → String → IpcError
  severalRows : IpcError

variable {σ ρ : Type}

/-- One statement, on the session's connection or on the pool. -/
def executeOn (db : Database σ) (errors : CommitErrors) (database sql : String) (runtime : Runtime σ) :
    IpcResult ℕ × Runtime σ :=
  match runtime.session with
  | some session =>
    if session.database = database then
      let (result, working) := db.execute sql session.working
      (result, { runtime with session := some { session with working := working } })
    else (.error (errors.otherDatabase session.database database), runtime)
  | none =>
    let (result, committed) := db.execute sql runtime.committed
    (result, { runtime with committed := committed })

/-- The loop over the statements, from the one at `index` on. -/
def runStatements (execute : String → ρ → IpcResult ℕ × ρ) (summary : TableChangeSetSummary)
    (severalRows : IpcError) (index affectedRows : ℕ) : List String → ρ → IpcResult ℕ × ρ
  | [], s => (.ok affectedRows, s)
  | sql :: rest, s =>
    match execute sql s with
    | (.error e, s) => (.error e, s)
    | (.ok rows, s) =>
      if summary.inserts ≤ index ∧ index < summary.inserts + summary.updates ∧ rows > 1 then
        (.error severalRows, s)
      else runStatements execute summary severalRows (index + 1) ((affectedRows + rows) % 2 ^ 64) rest s

/-- The part of `commit_table_change_set` that the drivers share: the preview, the database, and then the
statements. -/
def commitPreview (db : Database σ) (errors : CommitErrors) (preview : IpcResult TableChangeSetPreview)
    (database : IpcResult String) (runtime : Runtime σ) :
    IpcResult TableChangeSetCommitResult × Runtime σ :=
  match preview with
  | .error e => (.error e, runtime)
  | .ok preview =>
    match database with
    | .error e => (.error e, runtime)
    | .ok database =>
      match runStatements (executeOn db errors database) preview.summary errors.severalRows 0 0
          preview.statements runtime with
      | (.error e, runtime) => (.error e, runtime)
      | (.ok affectedRows, runtime) => (.ok ⟨affectedRows, preview, .applied⟩, runtime)

/-- `ensure_real_table_for_mutation`. -/
def ensureRealTableForMutation (kind : ContainerKind) : IpcResult Unit :=
  if kind = .table then .ok ()
  else .error (.notFound "只有真实表支持修改或删除数据，视图和其他对象不可写")

end Drivers

namespace Mysql

open Drivers Schema

/-- `MysqlDriver::table_parts`. -/
def tableParts (defaultDatabase : Option String) (container : ContainerRef) : IpcResult (String × String) :=
  if container.kind ≠ .table ∧ container.kind ≠ .view then
    .error (.notFound "Selected container is not a table or view")
  else
    match container.database.or defaultDatabase, container.table with
    | none, _ => .error (.notFound "Database name is missing")
    | some _, none => .error (.notFound "Table name is missing")
    | some database, some table => .ok (database, table)

/-- `MysqlDriver::preview_table_change_set`, where `loadColumns` reads the columns of a table. -/
def previewOf (defaultDatabase : Option String) (container : ContainerRef)
    (loadColumns : String → String → IpcResult (List ColumnMeta)) (changeSet : TableChangeSetRequest) :
    IpcResult TableChangeSetPreview := do
  ensureRealTableForMutation container.kind
  let (database, table) ← tableParts defaultDatabase container
  let columns ← loadColumns database table
  previewTableChangeSet columns database table changeSet

def commitErrors : CommitErrors where
  otherDatabase expected actual := .internal "当前事务已绑定到其他数据库"
    ("transaction database is '" ++ expected ++ "', requested database is '" ++ actual ++ "'")
  severalRows := .internal "更新影响了多行，已拒绝该结果"
    "table change set update must affect at most one row"

/-- `MysqlDriver::commit_table_change_set`. -/
def commitTableChangeSet {σ : Type} (db : Database σ) (defaultDatabase : Option String)
    (container : ContainerRef) (loadColumns : String → String → IpcResult (List ColumnMeta))
    (changeSet : TableChangeSetRequest) (runtime : Runtime σ) :
    IpcResult TableChangeSetCommitResult × Runtime σ :=
  commitPreview db commitErrors (previewOf defaultDatabase container loadColumns changeSet)
    (Prod.fst <$> tableParts defaultDatabase container) runtime

end Mysql

namespace Sqlite

open Drivers Schema

/-- A column, and whether its values are binary. -/
structure SqliteColumn where
  toMeta : ColumnMeta
  isBinary : Bool
  deriving DecidableEq

/-- `sqlite_has_mutation_safe_primary_key`. -/
def sqliteHasMutationSafePrimaryKey (columns : List SqliteColumn) : Bool :=
  let primaryKeyColumns := orderedPrimaryKeyColumns (columns.map (·.toMeta))
  !primaryKeyColumns.isEmpty && primaryKeyColumns.all fun primaryKey ↦
    columns.any fun column ↦ column.toMeta.name = primaryKey && !column.isBinary

/-- `ensure_sqlite_table_has_mutation_safe_primary_key`. -/
def ensureSqliteTableHasMutationSafePrimaryKey (columns : List SqliteColumn) : IpcResult Unit :=
  if orderedPrimaryKeyColumns (columns.map (·.toMeta)) = [] then
    .error (.internal "该 SQLite 表没有显式主键，无法安全定位要修改或删除的行；当前仅支持浏览数据"
      "SQLite DataTable mutation requires an explicit primary key")
  else if !sqliteHasMutationSafePrimaryKey columns then
    .error (.internal "该 SQLite 表使用二进制主键，当前无法安全定位要修改或删除的行；当前仅支持浏览数据"
      "SQLite DataTable mutation does not support binary primary keys")
  else .ok ()

/-- `sqlite_quote_identifier`. -/
def sqliteQuoteIdentifier (identifier : String) : String :=
  quotedText '"' identifier

/-- `sqlite_empty_insert_statement`. -/
def sqliteEmptyInsertStatement (table : String) : String :=
  "INSERT INTO " ++ table ++ " DEFAULT VALUES"

/-- `SqliteDriver::table_name_from_container`. -/
def tableNameFromContainer (container : ContainerRef) : IpcResult String :=
  match ((container.table.or container.objectName).map trim).filter (· ≠ "") with
  | some name => .ok name
  | none => .error (.notFound "SQLite table name is missing")

/-- `SqliteDriver::container_database`. -/
def containerDatabase (databaseName : String) (container : ContainerRef) : String :=
  ((container.database.map trim).filter (· ≠ "")).getD databaseName

/-- `SqliteDriver::preview_table_change_set`, where `loadColumns` reads the columns of a table. -/
def previewOf (isReadOnly : Bool) (container : ContainerRef)
    (loadColumns : String → IpcResult (List SqliteColumn)) (changeSet : TableChangeSetRequest) :
    IpcResult TableChangeSetPreview :=
  if isReadOnly then
    .error (.invalid "SQLite connection is read-only; reopen it with read-only mode disabled")
  else do
    ensureRealTableForMutation container.kind
    let name ← tableNameFromContainer container
    let columns ← loadColumns name
    ensureSqliteTableHasMutationSafePrimaryKey columns
    buildTableChangeSetPreview (sqliteQuoteIdentifier name) sqliteQuoteIdentifier
      (columns.map (·.toMeta)) sqliteEmptyInsertStatement changeSet

def commitErrors : CommitErrors where
  otherDatabase expected actual := .internal "当前事务已绑定到其他 SQLite 文件"
    ("SQLite transaction database is '" ++ expected ++ "', requested database is '" ++ actual ++ "'")
  severalRows := .internal "更新影响了多行，已拒绝该结果"
    "SQLite table change set update must affect at most one row"

/-- `SqliteDriver::commit_table_change_set`. -/
def commitTableChangeSet {σ : Type} (db : Database σ) (isReadOnly : Bool) (databaseName : String)
    (container : ContainerRef) (loadColumns : String → IpcResult (List SqliteColumn))
    (changeSet : TableChangeSetRequest) (runtime : Runtime σ) :
    IpcResult TableChangeSetCommitResult × Runtime σ :=
  commitPreview db commitErrors (previewOf isReadOnly container loadColumns changeSet)
    (.ok (containerDatabase databaseName container)) runtime

end Sqlite

namespace Drivers

open Schema

/-! ### Runs in a session -/

section Session

variable {σ : Type} (db : Database σ) (errors : CommitErrors)

end Session

/-! ### Runs without a session -/

/-- A change set that is one statement and no update: one insert, or deletes alone. -/
def TableChangeSetRequest.OneWrite (changeSet : TableChangeSetRequest) : Prop :=
  changeSet.updates = [] ∧
    (changeSet.inserts.length = 1 ∧ changeSet.deletes = [] ∨
      changeSet.inserts = [] ∧ changeSet.deletes ≠ [])

/-- Without a session, an error means that nothing has happened to the data, whatever the database answers. -/
def FailsCleanly
    (commit : ∀ σ : Type, Database σ → Runtime σ → IpcResult TableChangeSetCommitResult × Runtime σ) :
    Prop :=
  ∀ (σ : Type) (db : Database σ) (s : σ) (e : IpcError),
    (commit σ db ⟨s, none⟩).1 = .error e → (commit σ db ⟨s, none⟩).2.committed = s

section Pool

variable {table : String} {quoteIdentifier : String → String} {columns : List ColumnMeta}
  {emptyInsertSql : String → String} {changeSet : TableChangeSetRequest} {preview : TableChangeSetPreview}

theorem length_of_mapM {α β : Type} {f : α → IpcResult β} {l : List α} {r : List β}
    (h : l.mapM f = .ok r) : r.length = l.length :=
  (mapM_eq_ok_iff.1 h).length_eq.symm

/-- A preview has a statement for each insert and each update, and one for all deletes. -/
theorem of_buildTableChangeSetPreview
    (h : buildTableChangeSetPreview table quoteIdentifier columns emptyInsertSql changeSet = .ok preview) :
    preview.statements.length = changeSet.inserts.length + changeSet.updates.length +
        (if changeSet.deletes = [] then 0 else 1) ∧
      0 < preview.statements.length ∧
      preview.summary.inserts = changeSet.inserts.length % 2 ^ 32 ∧
      preview.summary.updates = changeSet.updates.length % 2 ^ 32 := by
  obtain ⟨hsome, h⟩ := ite_error_eq_ok_iff.1 h
  obtain ⟨inserts, hinserts, h⟩ := exists_of_bind_eq_ok h
  obtain ⟨updates, hupdates, h⟩ := exists_of_bind_eq_ok h
  obtain ⟨deletes, hdeletes, h⟩ := exists_of_bind_eq_ok h
  cases h
  have hlength : deletes.length = if changeSet.deletes = [] then 0 else 1 := by
    rw [deleteStatements] at hdeletes
    split_ifs at hdeletes ⊢
    · cases hdeletes
      rfl
    · obtain ⟨_, -, hdeletes⟩ := exists_of_bind_eq_ok hdeletes
      obtain ⟨_, -, hdeletes⟩ := exists_of_bind_eq_ok hdeletes
      cases hdeletes
      rfl
  have htotal : (inserts ++ updates ++ deletes).length = changeSet.inserts.length +
      changeSet.updates.length + (if changeSet.deletes = [] then 0 else 1) := by
    rw [List.length_append, List.length_append, length_of_mapM hinserts, length_of_mapM hupdates,
      hlength]
  refine ⟨htotal, ?_, rfl, rfl⟩
  show 0 < (inserts ++ updates ++ deletes).length
  rw [htotal]
  by_contra hzero
  refine hsome ⟨List.eq_nil_of_length_eq_zero (by omega), List.eq_nil_of_length_eq_zero (by omega), ?_⟩
  by_contra hne
  rw [if_neg hne] at hzero
  omega

/-- A connection that is lost after the first statement. -/
def lostConnection (e : IpcError) : Database Bool where
  execute _ done := if done then (.error e, done) else (.ok 1, true)
  failed sql done e' h := by
    cases done with
    | false => cases h
    | true => rfl

/-- A database in which a statement affects two rows. -/
def twoRows : Database Bool where
  execute _ _ := (.ok 2, true)
  failed _ _ _ h := nomatch h

/-- A lost connection leaves the first of several statements behind. -/
theorem commitPreview_lostConnection (errors : CommitErrors) (database : String)
    (h : 2 ≤ preview.statements.length) :
    commitPreview (lostConnection errors.severalRows) errors (.ok preview) (.ok database) ⟨false, none⟩ =
      (.error errors.severalRows, ⟨true, none⟩) := by
  match hstatements : preview.statements with
  | [] | [_] =>
    rw [hstatements] at h
    simp at h
  | first :: second :: rest =>
    simp [commitPreview, hstatements, runStatements, executeOn, lostConnection]

/-- An update of two rows is reported as refused, and stays. -/
theorem commitPreview_twoRows (errors : CommitErrors) (database : String)
    (h : preview.statements.length = 1) (hinserts : preview.summary.inserts = 0)
    (hupdates : preview.summary.updates = 1) :
    commitPreview twoRows errors (.ok preview) (.ok database) ⟨false, none⟩ =
      (.error errors.severalRows, ⟨true, none⟩) := by
  obtain ⟨sql, hsql⟩ := List.length_eq_one_iff.1 h
  simp [commitPreview, hsql, runStatements, executeOn, twoRows, hinserts, hupdates]

/-- A single statement that is no update fails only when the database refuses it. -/
theorem commitPreview_single {σ : Type} {db : Database σ} {errors : CommitErrors} {database : String}
    {s : σ} {e : IpcError} (h : preview.statements.length = 1) (hupdates : preview.summary.updates = 0)
    (herror : (commitPreview db errors (.ok preview) (.ok database) ⟨s, none⟩).1 = .error e) :
    (commitPreview db errors (.ok preview) (.ok database) ⟨s, none⟩).2.committed = s := by
  obtain ⟨sql, hsql⟩ := List.length_eq_one_iff.1 h
  cases hexecute : (db.execute sql s).1 with
  | error e' =>
    have hkept := db.failed sql s e' hexecute
    simp [commitPreview, hsql, runStatements, executeOn, hexecute, hkept]
  | ok rows =>
    have hwindow : ¬ (preview.summary.inserts = 0 ∧ 0 < preview.summary.inserts ∧ 1 < rows) := by omega
    simp [commitPreview, hsql, runStatements, executeOn, hexecute, hupdates, hwindow] at herror

/-- **An error means that nothing has happened exactly for the change sets that are refused before the
first statement and for those that are one statement and no update.** -/
theorem commitPreview_failsCleanly_iff (errors : CommitErrors) {result : IpcResult TableChangeSetPreview}
    {database : IpcResult String}
    (hresult : ∀ preview, result = .ok preview → (∃ name, database = .ok name) ∧
      ∃ table quoteIdentifier columns emptyInsertSql,
        buildTableChangeSetPreview table quoteIdentifier columns emptyInsertSql changeSet =
          .ok preview) :
    FailsCleanly (fun _ db ↦ commitPreview db errors result database) ↔
      (∃ e, result = .error e) ∨ changeSet.OneWrite := by
  cases result with
  | error e => exact ⟨fun _ ↦ .inl ⟨e, rfl⟩, fun _ _ _ _ _ _ ↦ rfl⟩
  | ok preview =>
    obtain ⟨⟨name, rfl⟩, _, _, _, _, hpreview⟩ := hresult preview rfl
    obtain ⟨hlength, hpos, hinserts, hupdates⟩ := of_buildTableChangeSetPreview hpreview
    constructor
    · intro h
      refine .inr ?_
      have hone : preview.statements.length = 1 := by
        by_contra hne
        have hrun := commitPreview_lostConnection errors name (by omega : 2 ≤ preview.statements.length)
        have hclean := h Bool (lostConnection errors.severalRows) false errors.severalRows
          (congrArg Prod.fst hrun)
        exact absurd ((congrArg (·.2.committed) hrun).symm.trans hclean) (by simp)
      have hnone : changeSet.updates = [] := by
        by_contra hne
        have hsome : 0 < changeSet.updates.length := List.length_pos_of_ne_nil hne
        have hinserts' : preview.summary.inserts = 0 := by
          rw [hinserts]
          omega
        have hupdates' : preview.summary.updates = 1 := by
          rw [hupdates]
          omega
        have hrun := commitPreview_twoRows errors name hone hinserts' hupdates'
        have hclean := h Bool twoRows false errors.severalRows (congrArg Prod.fst hrun)
        exact absurd ((congrArg (·.2.committed) hrun).symm.trans hclean) (by simp)
      refine ⟨hnone, ?_⟩
      rw [hnone, List.length_nil, hone] at hlength
      by_cases hdeletes : changeSet.deletes = []
      · rw [if_pos hdeletes] at hlength
        exact .inl ⟨by omega, hdeletes⟩
      · rw [if_neg hdeletes] at hlength
        exact .inr ⟨List.eq_nil_of_length_eq_zero (by omega), hdeletes⟩
    · rintro (⟨e, he⟩ | ⟨hnone, hkind⟩)
      · cases he
      · have hone : preview.statements.length = 1 := by
          rw [hlength, hnone]
          obtain ⟨hinsert, hdeletes⟩ | ⟨hinsert, hdeletes⟩ := hkind
          · rw [hinsert, if_pos hdeletes]
            rfl
          · rw [hinsert, if_neg hdeletes]
            rfl
        have hzero : preview.summary.updates = 0 := by
          rw [hupdates, hnone]
          rfl
        exact fun σ db s e herror ↦ commitPreview_single hone hzero herror

end Pool

variable {preview : TableChangeSetPreview}

/-- What the preview of either driver is built by. -/
theorem of_mysql_previewOf {defaultDatabase : Option String} {container : ContainerRef}
    {loadColumns : String → String → IpcResult (List ColumnMeta)} {changeSet : TableChangeSetRequest}
    (h : Mysql.previewOf defaultDatabase container loadColumns changeSet = .ok preview) :
    (∃ name, Prod.fst <$> Mysql.tableParts defaultDatabase container = .ok name) ∧
      ∃ table quoteIdentifier columns emptyInsertSql,
        buildTableChangeSetPreview table quoteIdentifier columns emptyInsertSql changeSet =
          .ok preview := by
  obtain ⟨_, -, h⟩ := exists_of_bind_eq_ok h
  obtain ⟨⟨database, table⟩, hparts, h⟩ := exists_of_bind_eq_ok h
  obtain ⟨columns, -, h⟩ := exists_of_bind_eq_ok h
  exact ⟨⟨database, by rw [hparts]; rfl⟩, _, _, _, _, h⟩

theorem of_sqlite_previewOf {isReadOnly : Bool} {container : ContainerRef}
    {loadColumns : String → IpcResult (List Sqlite.SqliteColumn)} {changeSet : TableChangeSetRequest}
    (h : Sqlite.previewOf isReadOnly container loadColumns changeSet = .ok preview) :
    ∃ table quoteIdentifier columns emptyInsertSql,
      buildTableChangeSetPreview table quoteIdentifier columns emptyInsertSql changeSet =
        .ok preview := by
  obtain ⟨-, h⟩ := ite_error_eq_ok_iff.1 h
  obtain ⟨_, -, h⟩ := exists_of_bind_eq_ok h
  obtain ⟨_, -, h⟩ := exists_of_bind_eq_ok h
  obtain ⟨_, -, h⟩ := exists_of_bind_eq_ok h
  obtain ⟨_, -, h⟩ := exists_of_bind_eq_ok h
  exact ⟨_, _, _, _, h⟩

/-- A table whose rows are the inserts that made them: the same row cannot be inserted twice. -/
def insertedRows : Database (List String) where
  execute sql rows :=
    if sql ∈ rows then (.error (.internal "UNIQUE constraint failed" "duplicate key"), rows)
    else (.ok 1, rows ++ [sql])
  failed sql rows e h := by
    split_ifs at h ⊢
    rfl

/-- Two rows to insert, of which the second is already there. -/
def insertTwo : TableChangeSetRequest where
  inserts := [⟨[⟨"id", .number (.posInt 4)⟩]⟩, ⟨[⟨"id", .number (.posInt 1)⟩]⟩]
  updates := []
  deletes := []

def usersTable : ContainerRef :=
  ⟨.table, some "d", none, some "users", none⟩

def idColumn : ColumnMeta :=
  ⟨"id", true, some 1, true⟩

end Drivers
