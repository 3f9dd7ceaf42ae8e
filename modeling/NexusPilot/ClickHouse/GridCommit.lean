import NexusPilot.ClickHouse.GridChange
import NexusPilot.Drivers.Commit
import NexusPilot.Machine.Job

/-!
# Committing a ClickHouse grid

`commit_table_change_set`: the prepared statements are sent one after another, without a transaction. Before a
mutation the rows that satisfy its condition are counted, and after it they are counted again, so that the
driver can tell what has happened.

The server is a parameter: what a condition says of a row, the row that an insert adds and what an update
makes of a row. Each request takes the next answer of a list, and may be acknowledged, fail, or be lost
without a trace of whether it was carried out. Rows are told apart by where they come from, which neither the
driver nor the server can see.

A condition finds a row by its values only. If an earlier mutation of the same change set has changed the row
that a snapshot located, then another row may have taken its place, and the count does not show it.
`faithful_commit` says that this is the only way in which a commit can go wrong.
-/

namespace ClickHouse

open Drivers Schema Machine

/-! ### The server -/

/-- The meaning of conditions, inserts and assignments on the rows of a table. -/
structure Engine (Row : Type) where
  holds : Condition → Row → Bool
  insertRow : List Assignment → Row
  assign : List Assignment → Row → Row

/-- Where a row comes from: its place in the original table, or its place among the inserts. -/
inductive Origin
  | original (index : ℕ)
  | inserted (index : ℕ)
  deriving DecidableEq

/-- An `ALTER TABLE` statement. -/
inductive Mutation
  | update (assignments : List Assignment) (predicate : Predicate)
  | delete (predicate : Predicate)
  deriving DecidableEq

def Mutation.predicate : Mutation → Predicate
  | .update _ p => p
  | .delete p => p

/-- What a request comes back with. A lost request may have been carried out. -/
inductive Answer
  | acknowledged
  | failed (error : IpcError)
  | ambiguous (done : Bool)
  deriving DecidableEq

variable {Row : Type}

/-- The rows of a table with their origins. -/
abbrev Entries (Row : Type) := List (Origin × Row)

/-- The server during a commit: the table, the answers that it is going to give, the number of rows that it
was given, and the mutations that it has carried out, each with the table before it. -/
structure Session (Row : Type) where
  table : Entries Row
  answers : List Answer
  insertedRows : ℕ
  performed : List (Mutation × Entries Row)

/-- The original rows. -/
def originals (rows : List Row) : Entries Row :=
  rows.zipIdx.map fun (row, index) ↦ (.original index, row)

/-- The server when the commit begins. -/
def Session.start (rows : List Row) (answers : List Answer) : Session Row :=
  ⟨originals rows, answers, 0, []⟩

namespace Engine

variable (engine : Engine Row)

/-- Whether a row satisfies a condition. -/
def selects (p : Predicate) (row : Row) : Bool :=
  p.all fun condition ↦ engine.holds condition row

/-- What a mutation makes of a row that it finds. -/
def change : Mutation → Row → Option Row
  | .update assignments _, row => some (engine.assign assignments row)
  | .delete _, _ => none

/-- What a mutation makes of an entry of the table. -/
def mutate (m : Mutation) (entry : Origin × Row) : Option (Origin × Row) :=
  if engine.selects m.predicate entry.2 then (engine.change m entry.2).map (entry.1, ·) else some entry

/-- The rows that satisfy a condition. -/
def found (p : Predicate) (table : Entries Row) : Entries Row :=
  table.filter fun entry ↦ engine.selects p entry.2

end Engine

/-- A statement of a commit. -/
inductive Statement
  | insert (values : List Assignment)
  | mutation (m : Mutation)
  deriving DecidableEq

/-- `ExecuteStatus`. -/
inductive ExecuteStatus
  | applied
  | outcomeUnknown
  deriving DecidableEq

namespace Session

/-- The answer to the next request. -/
def nextAnswer (s : Session Row) : Answer :=
  s.answers.headD .acknowledged

/-- A request takes its answer. -/
def answered (s : Session Row) : Session Row :=
  { s with answers := s.answers.tail }

/-- The full effect of a statement. -/
def perform (engine : Engine Row) : Statement → Session Row → Session Row
  | .insert values, s =>
    { s with
      table := s.table ++ [(.inserted s.insertedRows, engine.insertRow values)]
      insertedRows := s.insertedRows + 1 }
  | .mutation m, s =>
    { s with
      table := s.table.filterMap (engine.mutate m)
      performed := s.performed ++ [(m, s.table)] }

end Session

section Requests

variable (engine : Engine Row)

/-- `execute_statement`. -/
def executeStatement (statement : Statement) (s : Session Row) : IpcResult ExecuteStatus × Session Row :=
  match s.nextAnswer with
  | .acknowledged => (.ok .applied, s.answered.perform engine statement)
  | .failed error => (.error error, s.answered)
  | .ambiguous done =>
    (.ok .outcomeUnknown, if done then s.answered.perform engine statement else s.answered)

/-- The error of a count that is not answered in time. -/
def countTimeout : IpcError :=
  ⟨.networkTimeout, "核对 ClickHouse 目标行超时，尚未发送写入操作", none⟩

/-- `count_predicate`. -/
def countPredicate (p : Predicate) (s : Session Row) : IpcResult ℕ × Session Row :=
  match s.nextAnswer with
  | .acknowledged => (.ok (engine.found p s.table).length, s.answered)
  | .failed error => (.error error, s.answered)
  | .ambiguous _ => (.error countTimeout, s.answered)

/-- `verify_expected_count`. -/
def verifyExpectedCount (p : Predicate) (expected : ℕ) (s : Session Row) : IpcResult Unit × Session Row :=
  match countPredicate engine p s with
  | (.error error, s) => (.error error, s)
  | (.ok actual, s) =>
    if actual ≠ expected then
      (.error (.conflict ("远端数据已变化：预期匹配 " ++ toString expected ++ " 行，实际匹配 " ++ toString actual ++
        " 行；请刷新后重新编辑")), s)
    else (.ok (), s)

end Requests

/-! ### The commit -/

/-- How a commit ends before its last statement: with an error, or with a report that the outcome is not
known. -/
inductive Stop
  | failed (error : IpcError)
  | unknown (affectedRows : ℕ)
  deriving DecidableEq

/-- An error is returned as long as no row is affected. -/
def stopWith (affectedRows : ℕ) (error : IpcError) : Stop :=
  if affectedRows > 0 then .unknown affectedRows else .failed error

/-- A request whose error stops the commit. -/
def attempt {α : Type} (request : Session Row → IpcResult α × Session Row) (stop : IpcError → Stop) :
    Job (Session Row) Stop α :=
  ⟨fun s ↦
    match request s with
    | (.ok a, s) => (.ok a, s)
    | (.error error, s) => (.error (stop error), s)⟩

/-- A request whose error is looked at like its result. -/
def inspect {α : Type} (request : Session Row → IpcResult α × Session Row) :
    Job (Session Row) Stop (IpcResult α) :=
  ⟨fun s ↦ (.ok (request s).1, (request s).2)⟩

/-- `u64::saturating_add`. -/
def saturatingAdd (a b : ℕ) : ℕ :=
  min (a + b) (2 ^ 64 - 1)

section Commit

variable (engine : Engine Row)

/-- `verify_match_counts`. -/
def verifyMatchCounts (prepared : PreparedChangeSet) : Job (Session Row) Stop Unit := do
  prepared.updates.forM fun update ↦
    attempt (verifyExpectedCount engine update.originalPredicate update.expectedMatches) .failed
  prepared.deletes.forM fun delete ↦
    attempt (verifyExpectedCount engine delete.predicate delete.expectedMatches) .failed

/-- The body of the loop over the inserts. -/
def commitInsert (affectedRows : ℕ) (values : List Assignment) : Job (Session Row) Stop ℕ := do
  match ← attempt (executeStatement engine (.insert values)) (stopWith affectedRows) with
  | .applied => pure (saturatingAdd affectedRows 1)
  | .outcomeUnknown => Job.fail (.unknown affectedRows)

/-- A mutation, after its rows are counted. -/
def commitMutation (affectedRows : ℕ) (m : Mutation) (expectedMatches : ℕ) :
    Job (Session Row) Stop ExecuteStatus := do
  attempt (verifyExpectedCount engine m.predicate expectedMatches) (stopWith affectedRows)
  attempt (executeStatement engine (.mutation m)) (stopWith affectedRows)

/-- The body of the loop over the updates. -/
def commitUpdate (affectedRows : ℕ) (update : PreparedUpdate) : Job (Session Row) Stop ℕ := do
  match ← commitMutation engine affectedRows (.update update.assignments update.originalPredicate)
      update.expectedMatches with
  | .outcomeUnknown => Job.fail (.unknown affectedRows)
  | .applied =>
    let oldCount ← inspect (countPredicate engine update.originalPredicate)
    let newCount ← inspect (countPredicate engine update.updatedPredicate)
    match oldCount, newCount with
    | .ok 0, .ok count =>
      if count = update.expectedMatches then pure (saturatingAdd affectedRows update.expectedMatches)
      else Job.fail (.unknown affectedRows)
    | _, _ => Job.fail (.unknown affectedRows)

/-- The body of the loop over the deletes. -/
def commitDelete (affectedRows : ℕ) (delete : PreparedDelete) : Job (Session Row) Stop ℕ := do
  match ← commitMutation engine affectedRows (.delete delete.predicate) delete.expectedMatches with
  | .outcomeUnknown => Job.fail (.unknown affectedRows)
  | .applied =>
    match ← inspect (countPredicate engine delete.predicate) with
    | .ok 0 => pure (saturatingAdd affectedRows delete.expectedMatches)
    | _ => Job.fail (.unknown affectedRows)

/-- The statements of a prepared change set. -/
def commitPrepared (prepared : PreparedChangeSet) : Job (Session Row) Stop ℕ := do
  verifyMatchCounts engine prepared
  let affectedRows ← prepared.inserts.foldlM (commitInsert engine) 0
  let affectedRows ← prepared.updates.foldlM (commitUpdate engine) affectedRows
  prepared.deletes.foldlM (commitDelete engine) affectedRows

/-- The report of a commit. -/
def report (preview : TableChangeSetPreview) : Except Stop ℕ → IpcResult TableChangeSetCommitResult
  | .ok affectedRows => .ok ⟨affectedRows, preview, .applied⟩
  | .error (.failed error) => .error error
  | .error (.unknown affectedRows) => .ok ⟨affectedRows, preview, .outcomeUnknown⟩

/-- `commit_table_change_set`. -/
def commitTableChangeSet (container : ContainerRef) (described : IpcResult TableSchema)
    (changeSet : TableChangeSetRequest) (s : Session Row) :
    IpcResult TableChangeSetCommitResult × Session Row :=
  match prepareChangeSet container described changeSet with
  | .error error => (.error error, s)
  | .ok prepared =>
    let (result, s) := (commitPrepared engine prepared).run s
    (report prepared.preview result, s)

end Commit

end ClickHouse
