import NexusPilot.ClickHouse.Classify

/-!
# Analyzing the effects of a statement

`analyze_sql_for_driver` of the assistant's backend bridge: the text is framed, and the words of the
framing decide the class of the statement and the risk that is shown to the user before it runs. The
analyses of MySQL, PostgreSQL and Oracle look through a leading `WITH` for the keyword of the main
statement (`mainStatementKeyword`); ClickHouse is classified by its own scanner.

Each `match keyword` of the source is a chain of tests in the same order, a pattern of alternatives
being membership in a list.
-/

namespace Sql

inductive SqlAnalysisStatus
  | analyzed
  | uncertain
  deriving DecidableEq

inductive SqlToolStatementClass
  | read
  | insert
  | update
  | mutation
  | delete
  | ddl
  | command
  | unknown
  deriving DecidableEq

/-- The risk levels of an analysis. -/
inductive RiskLevel
  | medium
  | high
  | critical
  deriving DecidableEq

/-- The side effects of an analysis. -/
inductive SideEffect
  | businessRead
  | businessWrite
  | destructive
  deriving DecidableEq

structure SqlAnalysis where
  status : SqlAnalysisStatus
  statementClass : SqlToolStatementClass
  riskLevel : RiskLevel
  reversible : Bool
  sideEffects : List SideEffect
  reasons : List String
  deriving DecidableEq

/-! ### The kinds of analyses -/

/-- An analyzed read, which the source writes out in each analysis. -/
def boundedRead (reason : String) : SqlAnalysis :=
  ⟨.analyzed, .read, .medium, true, [.businessRead], [reason]⟩

/-- An analyzed write, which the source writes out in each analysis. -/
def businessWrite (statementClass : SqlToolStatementClass) (reason : String) : SqlAnalysis :=
  ⟨.analyzed, statementClass, .high, false, [.businessRead, .businessWrite], [reason]⟩

/-- `destructive`. -/
def destructive (statementClass : SqlToolStatementClass) (reason : String) : SqlAnalysis :=
  ⟨.analyzed, statementClass, .critical, false, [.businessRead, .businessWrite, .destructive],
    [reason]⟩

/-- `uncertain_critical`. -/
def uncertainCritical (statementClass : SqlToolStatementClass) (reason : String) : SqlAnalysis :=
  ⟨.uncertain, statementClass, .critical, false, [.businessRead, .businessWrite, .destructive],
    [reason]⟩

/-- `classify_uncertain`. -/
def classifyUncertain (keyword : String) : SqlToolStatementClass :=
  if keyword ∈ ["SELECT", "SHOW", "DESCRIBE", "DESC", "EXPLAIN", "WITH"] then .read
  else if keyword ∈ ["INSERT", "MERGE", "REPLACE"] then .insert
  else if keyword = "UPDATE" then .update
  else if keyword = "DELETE" then .delete
  else if keyword ∈ ["CREATE", "ALTER", "DROP", "TRUNCATE", "RENAME"] then .ddl
  else if keyword ∈ ["CALL", "EXEC", "EXECUTE", "BEGIN", "COMMIT", "ROLLBACK"] then .command
  else .unknown

/-- The words that `main_statement_keyword` looks for. -/
def isMainVerb (word : String) : Bool :=
  word ∈ ["SELECT", "INSERT", "REPLACE", "UPDATE", "DELETE", "MERGE"]

/-- `main_statement_keyword`. -/
def mainStatementKeyword (words : List String) : String :=
  let first := words.head?.getD ""
  if first ≠ "WITH" then first else ((words.drop 1).find? isMainVerb).getD "WITH"

/-! ### The analyses -/

/-- `contains`, on the words outside parentheses. -/
def StatementFraming.contains (f : StatementFraming) (candidate : String) : Bool :=
  f.words.contains candidate

/-- `contains_any`, on all words. -/
def StatementFraming.containsAny (f : StatementFraming) (candidate : String) : Bool :=
  f.allWords.contains candidate

/-- `analyze_sqlite`. -/
def analyzeSqlite (f : StatementFraming) : Except String SqlAnalysis :=
  let keyword := f.words.head?.getD ""
  if keyword = "SELECT" ∧ f.containsAny "LOAD_EXTENSION" then
    .ok (uncertainCritical .read
      "SQLite extension loading can have effects outside a normal read query.")
  else if keyword ∈ ["SELECT", "VALUES", "EXPLAIN"] then
    .ok (boundedRead "SQLite classified the statement as read-only SQL.")
  else if keyword ∈ ["INSERT", "REPLACE"] then
    .ok (businessWrite .insert "The SQLite statement inserts or replaces business data.")
  else if keyword = "UPDATE" ∧ f.contains "WHERE" then
    .ok (businessWrite .update "The SQLite UPDATE contains a top-level WHERE clause.")
  else if keyword = "UPDATE" then
    .ok (destructive .update "The SQLite UPDATE has no top-level WHERE clause.")
  else if keyword = "DELETE" then
    .ok (destructive .delete "SQLite DELETE statements require destructive confirmation.")
  else if keyword ∈ ["CREATE", "ALTER", "DROP", "VACUUM", "REINDEX", "ANALYZE"] then
    .ok (destructive .ddl "The SQLite statement can make irreversible schema or database changes.")
  else if keyword ∈ ["PRAGMA", "ATTACH", "DETACH"] then
    .ok (destructive .command "The SQLite command can change connection or database state.")
  else if keyword ∈ ["BEGIN", "COMMIT", "END", "ROLLBACK", "SAVEPOINT", "RELEASE"] then
    .error "Cross-call SQLite transaction commands are not supported"
  else
    .ok (uncertainCritical (classifyUncertain keyword)
      "SQLite statement framing is valid, but its effects cannot be analyzed precisely.")

/-- `analyze_mysql`. -/
def analyzeMysql (f : StatementFraming) : Except String SqlAnalysis :=
  let keyword := mainStatementKeyword f.words
  if keyword = "SELECT" ∧ f.contains "INTO" ∧ (f.contains "OUTFILE" ∨ f.contains "DUMPFILE") then
    .ok (destructive .command
      "MySQL SELECT INTO OUTFILE/DUMPFILE writes outside the normal result channel.")
  else if keyword = "SELECT" ∧
      (f.containsAny "FOR" ∧ (f.containsAny "UPDATE" ∨ f.containsAny "SHARE") ∨
        f.containsAny "LOCK" ∧ f.containsAny "SHARE") then
    .ok (destructive .read
      "The MySQL SELECT requests row locks and is not a side-effect-free read.")
  else if keyword = "SELECT" ∧
      ["GET_LOCK", "RELEASE_LOCK", "SLEEP", "BENCHMARK", "LOAD_FILE"].any f.containsAny then
    .ok (destructive .read
      "The MySQL SELECT invokes a server function with locking, resource, or file effects.")
  else if keyword ∈ ["SELECT", "SHOW", "DESCRIBE", "DESC", "EXPLAIN"] then
    .ok (boundedRead "MySQL classified the statement as read-only SQL.")
  else if keyword ∈ ["INSERT", "REPLACE"] then
    .ok (businessWrite .insert "The MySQL statement inserts or replaces business data.")
  else if keyword = "UPDATE" ∧ f.contains "WHERE" then
    .ok (businessWrite .update "The MySQL UPDATE contains a top-level WHERE clause.")
  else if keyword = "UPDATE" then
    .ok (destructive .update "The MySQL UPDATE has no top-level WHERE clause.")
  else if keyword = "DELETE" then
    .ok (destructive .delete "MySQL DELETE statements require destructive confirmation.")
  else if keyword ∈ ["CREATE", "ALTER", "DROP", "TRUNCATE", "RENAME"] then
    .ok (destructive .ddl "The MySQL DDL statement can make irreversible schema or data changes.")
  else if keyword = "LOAD" then
    .ok (destructive .insert "MySQL LOAD can import data from a server or client file source.")
  else if keyword ∈ ["GRANT", "REVOKE", "SET", "USE", "CALL", "DO", "KILL", "RESET", "FLUSH",
      "PURGE", "ANALYZE", "OPTIMIZE", "REPAIR"] then
    .ok (destructive .command
      "The MySQL command can change session, server, authorization, or stored state.")
  else if keyword ∈ ["BEGIN", "START", "COMMIT", "ROLLBACK", "SAVEPOINT", "RELEASE", "LOCK",
      "UNLOCK", "XA"] then
    .error "Cross-call MySQL transaction and lock commands are not supported"
  else
    .ok (uncertainCritical (classifyUncertain keyword)
      "MySQL statement framing is valid, but its effects cannot be analyzed precisely.")

/-- `has_data_modifying_cte`. -/
def hasDataModifyingCte (f : StatementFraming) : Bool :=
  f.words.head? == some "WITH" && ["INSERT", "UPDATE", "DELETE", "MERGE"].any f.containsAny

/-- `analyze_postgres`. -/
def analyzePostgres (f : StatementFraming) : Except String SqlAnalysis :=
  let keyword := mainStatementKeyword f.words
  if keyword = "EXPLAIN" ∧ f.containsAny "ANALYZE" then
    .ok (uncertainCritical .unknown
      "PostgreSQL EXPLAIN ANALYZE can execute the explained statement, and its effects cannot be proven read-only from lexical framing.")
  else if keyword = "SELECT" ∧ hasDataModifyingCte f then
    .ok (uncertainCritical .mutation
      "The PostgreSQL SELECT contains a data-modifying CTE whose business effects require conservative confirmation.")
  else if keyword = "SELECT" ∧ f.containsAny "FOR" ∧
      (f.containsAny "UPDATE" ∨ f.containsAny "SHARE" ∨ f.containsAny "KEY" ∨
        f.containsAny "NO") then
    .ok (destructive .read
      "The PostgreSQL SELECT requests row locks and is not a side-effect-free read.")
  else if keyword = "SELECT" ∧
      ["PG_SLEEP", "PG_ADVISORY_LOCK", "PG_TRY_ADVISORY_LOCK", "PG_READ_FILE",
        "PG_READ_BINARY_FILE", "LO_IMPORT", "LO_EXPORT"].any f.containsAny then
    .ok (destructive .read
      "The PostgreSQL SELECT invokes a server function with locking, resource, or file effects.")
  else if keyword ∈ ["SELECT", "VALUES", "TABLE", "SHOW", "EXPLAIN"] then
    .ok (boundedRead "PostgreSQL classified the statement as read-only SQL.")
  else if keyword = "INSERT" then
    .ok (businessWrite .insert "The PostgreSQL statement inserts business data.")
  else if keyword = "UPDATE" ∧ f.contains "WHERE" then
    .ok (businessWrite .update "The PostgreSQL UPDATE contains a top-level WHERE clause.")
  else if keyword = "UPDATE" then
    .ok (destructive .update "The PostgreSQL UPDATE has no top-level WHERE clause.")
  else if keyword = "DELETE" then
    .ok (destructive .delete "PostgreSQL DELETE statements require destructive confirmation.")
  else if keyword = "MERGE" then
    .ok (destructive .command "PostgreSQL MERGE can combine insert, update, and delete effects.")
  else if keyword ∈ ["CREATE", "ALTER", "DROP", "TRUNCATE", "REINDEX", "REFRESH", "CLUSTER",
      "VACUUM"] then
    .ok (destructive .ddl
      "The PostgreSQL statement can make irreversible schema or database changes.")
  else if keyword = "COPY" then
    .ok (destructive .command
      "PostgreSQL COPY can transfer table data or invoke server-side file/program I/O.")
  else if keyword ∈ ["GRANT", "REVOKE", "SET", "RESET", "DISCARD", "LISTEN", "NOTIFY", "UNLISTEN",
      "CALL", "DO", "SECURITY", "COMMENT", "ANALYZE"] then
    .ok (destructive .command
      "The PostgreSQL command can change session, server, authorization, or stored state.")
  else if keyword ∈ ["BEGIN", "START", "COMMIT", "END", "ROLLBACK", "SAVEPOINT", "RELEASE",
      "PREPARE", "EXECUTE", "DEALLOCATE"] then
    .error "Cross-call PostgreSQL transaction and prepared-statement commands are not supported"
  else
    .ok (uncertainCritical (classifyUncertain keyword)
      "PostgreSQL statement framing is valid, but its effects cannot be analyzed precisely.")

/-- `analyze_oracle`. -/
def analyzeOracle (f : StatementFraming) : Except String SqlAnalysis :=
  let keyword := mainStatementKeyword f.words
  if f.hasOracleDatabaseLink then
    .ok (destructive (classifyUncertain keyword)
      "The Oracle statement references a database link outside the approved local target.")
  else if keyword = "SELECT" ∧ f.containsAny "FOR" ∧ f.containsAny "UPDATE" then
    .ok (destructive .read
      "The Oracle SELECT requests row locks and is not a side-effect-free read.")
  else if keyword = "SELECT" ∧
      ["DBMS_LOCK", "DBMS_PIPE", "UTL_FILE", "UTL_HTTP", "HTTPURITYPE",
        "DBMS_SCHEDULER"].any f.containsAny then
    .ok (destructive .read
      "The Oracle SELECT invokes a package or function with locking, network, file, or scheduling effects.")
  else if keyword = "SELECT" then
    .ok (boundedRead "Oracle classified the statement as read-only SQL.")
  else if keyword = "INSERT" then
    .ok (businessWrite .insert "The Oracle statement inserts business data.")
  else if keyword = "UPDATE" ∧ f.contains "WHERE" then
    .ok (businessWrite .update "The Oracle UPDATE contains a top-level WHERE clause.")
  else if keyword = "UPDATE" then
    .ok (destructive .update "The Oracle UPDATE has no top-level WHERE clause.")
  else if keyword = "DELETE" then
    .ok (destructive .delete "Oracle DELETE statements require destructive confirmation.")
  else if keyword = "MERGE" then
    .ok (destructive .command "Oracle MERGE can combine insert, update, and delete effects.")
  else if keyword ∈ ["CREATE", "ALTER", "DROP", "TRUNCATE", "RENAME", "FLASHBACK", "PURGE",
      "ANALYZE"] then
    .ok (destructive .ddl "The Oracle statement can make irreversible schema or database changes.")
  else if keyword ∈ ["GRANT", "REVOKE", "AUDIT", "NOAUDIT", "CALL", "EXPLAIN"] then
    .ok (destructive .command
      "The Oracle command can change authorization, stored state, or session-visible state.")
  else if keyword ∈ ["BEGIN", "DECLARE"] then
    .error "Oracle PL/SQL blocks are not supported by the single-statement executor"
  else if keyword ∈ ["COMMIT", "ROLLBACK", "SAVEPOINT", "SET", "LOCK", "EXEC", "EXECUTE"] then
    .error "Cross-call Oracle transaction, lock, and session commands are not supported"
  else if keyword ∈ ["PROMPT", "SPOOL", "REM", "HOST", "WHENEVER", "DEFINE", "ACCEPT", "VARIABLE",
      "PRINT", "COLUMN", "TTITLE", "BTITLE"] then
    .error "SQL*Plus client commands are not supported"
  else
    .ok (uncertainCritical (classifyUncertain keyword)
      "Oracle statement framing is valid, but its effects cannot be analyzed precisely.")

/-- `analyze_clickhouse`. -/
def analyzeClickhouse (f : StatementFraming) (statementClass : ClickHouse.SqlStatementClass) :
    Except String SqlAnalysis :=
  if f.contains "FORMAT" ∨ f.contains "INTO" ∧ f.contains "OUTFILE" then
    .error "ClickHouse FORMAT and INTO OUTFILE are not supported in bounded Grid mode"
  else match statementClass with
    | .read =>
      .ok (boundedRead "The existing ClickHouse classifier identified a bounded read statement.")
    | .insert => .ok (businessWrite .insert "The ClickHouse statement inserts business data.")
    | .delete =>
      .ok (destructive .delete
        "ClickHouse DELETE can remove business data and may complete asynchronously.")
    | .mutation =>
      .ok (destructive .mutation
        "ClickHouse ALTER UPDATE/DELETE submits a server-side mutation whose completion may be asynchronous.")
    | .ddl =>
      .ok (destructive .ddl
        "The ClickHouse DDL statement can make irreversible schema or data changes.")
    | .system | .command =>
      .ok (destructive .command
        "The ClickHouse command can change server, session, or background execution state.")
    | .unknown =>
      .ok (uncertainCritical .unknown
        "ClickHouse statement framing is valid, but the existing classifier cannot determine its effects precisely.")

/-- `analyze_sql_for_driver`. -/
def analyzeSqlForDriver (driver sql : String) : Except String SqlAnalysis :=
  match driver with
  | "sqlite" => (frameSingleStatement sql .sqlite).bind analyzeSqlite
  | "mysql" => (frameSingleStatement sql .mysql).bind analyzeMysql
  | "postgres" => (frameSingleStatement sql .postgres).bind analyzePostgres
  | "oracle" => (frameSingleStatement sql .oracle).bind analyzeOracle
  | "clickhouse" =>
    (frameSingleStatement sql .clickHouse).bind fun f ↦
      analyzeClickhouse f (ClickHouse.classifyFramedStatement sql)
  | _ => .error "SQL execution for this driver has not passed its safety enablement gate"

end Sql
