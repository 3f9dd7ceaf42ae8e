import NexusPilot.ClickHouse.GridCommit

/-!
# What a grid commit does to the table

The statements of a prepared change set are one list of tasks, and `Outcome` is the table as it should be after
some of them: each original row with the changes of the mutations whose snapshots located it, and the inserted
rows as they were inserted. As long as every mutation that is carried out still finds the row that its snapshot
located, a commit goes from one of these tables to the next (`Progress`), and each of its reports says where it
has stopped.
-/

namespace ClickHouse

open Drivers Schema Machine

variable {Row : Type}

/-! ### Tasks -/

/-- One change of a change set. -/
inductive Task
  | insert (values : List Assignment)
  | update (update : PreparedUpdate)
  | delete (delete : PreparedDelete)
  deriving DecidableEq

namespace Task

/-- The row of an insert. -/
def inserted : Task → Option (List Assignment)
  | .insert values => some values
  | .update .. | .delete .. => none

/-- The mutation of an update or a delete. -/
def mutation : Task → Option Mutation
  | .insert _ => none
  | .update prepared => some (.update prepared.assignments prepared.originalPredicate)
  | .delete prepared => some (.delete prepared.predicate)

end Task

/-- The tasks in the order of the commit. -/
def PreparedChangeSet.tasks (prepared : PreparedChangeSet) : List Task :=
  prepared.inserts.map .insert ++ prepared.updates.map .update ++ prepared.deletes.map .delete

/-- The updates and deletes. -/
def mutationsOf (tasks : List Task) : List Mutation :=
  tasks.filterMap Task.mutation

/-- The rows to insert. -/
def insertsOf (tasks : List Task) : List (List Assignment) :=
  tasks.filterMap Task.inserted

namespace Engine

variable (engine : Engine Row)

/-! ### The table as it should be -/

/-- What the mutations whose snapshots located a row make of it. -/
def settle (done : List Mutation) (row : Row) : Option Row :=
  done.foldlM (fun current m ↦ if engine.selects m.predicate row then engine.change m current else some current) row

/-- The inserted rows. -/
def insertedRows (inserts : List (List Assignment)) : Entries Row :=
  inserts.zipIdx.map fun (values, index) ↦ (.inserted index, engine.insertRow values)

/-- The table after some tasks: every located row is replaced or removed, and every insert is added. -/
def outcome (rows : List Row) (done : List Task) : Entries Row :=
  ((originals rows).filterMap fun entry ↦ (engine.settle (mutationsOf done) entry.2).map (entry.1, ·)) ++
    engine.insertedRows (insertsOf done)

/-- The origins of the rows that the snapshots of a change set locate. -/
def located (rows : List Row) (tasks : List Task) : List Origin :=
  ((originals rows).filter fun entry ↦
    (mutationsOf tasks).any fun m ↦ engine.selects m.predicate entry.2).map (·.1)

/-- A table with none but the located rows changed or removed, and with some of the inserts. -/
def OthersKept (rows : List Row) (tasks : List Task) (table : Entries Row) : Prop :=
  ∃ count, table.filter (·.1 ∉ engine.located rows tasks) =
    (originals rows).filter (·.1 ∉ engine.located rows tasks) ++
      (engine.insertedRows (insertsOf tasks)).take count

/-- **A faithful commit**: it changes no row but the ones that its snapshots locate, returns an error only if
it has changed nothing, and reports success only if all is done. -/
structure Faithful (rows : List Row) (tasks : List Task) (result : IpcResult TableChangeSetCommitResult)
    (table : Entries Row) : Prop where
  others : engine.OthersKept rows tasks table
  failed : ∀ error, result = .error error → table = originals rows
  applied : ∀ success, result = .ok success → success.outcome = .applied →
    table = engine.outcome rows tasks ∧ success.affectedRows = tasks.length

/-- **A mutation finds its row**: the row that satisfied its condition at the start is still there and still
satisfies it. -/
def FindsItsRow (rows : List Row) (m : Mutation) (before : Entries Row) : Prop :=
  ∃ entry ∈ originals rows, engine.selects m.predicate entry.2 ∧
    ∃ current, (entry.1, current) ∈ before ∧ engine.selects m.predicate current

/-! ### Rows and their origins -/

variable {rows : List Row} {origin : Origin} {row current : Row} {inserts : List (List Assignment)}
  {done : List Task}

theorem mem_originals_iff :
    (origin, row) ∈ originals rows ↔ ∃ index, origin = .original index ∧ rows[index]? = some row := by
  simp only [originals, List.mem_map, Prod.exists, List.mem_zipIdx_iff_getElem?, Prod.mk.injEq]
  constructor
  · rintro ⟨row', index, hget, horigin, rfl⟩
    exact ⟨index, horigin.symm, hget⟩
  · rintro ⟨index, rfl, hget⟩
    exact ⟨row, index, hget, rfl, rfl⟩

/-- An original row is told by its origin. -/
theorem eq_of_mem_originals {a b : Row} (ha : (origin, a) ∈ originals rows)
    (hb : (origin, b) ∈ originals rows) : a = b := by
  obtain ⟨index, rfl, hget⟩ := mem_originals_iff.1 ha
  obtain ⟨index', hindex, hget'⟩ := mem_originals_iff.1 hb
  cases hindex
  exact Option.some.inj (hget.symm.trans hget')

theorem origin_of_mem_insertedRows {entry : Origin × Row} (h : entry ∈ engine.insertedRows inserts) :
    ∃ index, entry.1 = .inserted index := by
  obtain ⟨⟨values, index⟩, -, rfl⟩ := List.mem_map.1 h
  exact ⟨index, rfl⟩

/-- A row that is original was not inserted. -/
theorem not_mem_insertedRows {row' : Row} (h : (origin, row) ∈ originals rows) :
    (origin, row') ∉ engine.insertedRows inserts := by
  intro hinserted
  obtain ⟨index, rfl, -⟩ := mem_originals_iff.1 h
  obtain ⟨index', hindex⟩ := engine.origin_of_mem_insertedRows hinserted
  cases hindex

variable {engine}

/-- A condition that one row satisfies tells this row. -/
theorem eq_of_found {p : Predicate} {table : Entries Row} (hone : (engine.found p table).length = 1)
    {a b : Origin × Row} (ha : a ∈ table) (hselects : engine.selects p a.2) (hb : b ∈ table)
    (hselects' : engine.selects p b.2) : a = b := by
  obtain ⟨only, honly⟩ := List.length_eq_one_iff.1 hone
  have hmem (c : Origin × Row) (hc : c ∈ table) (hselects : engine.selects p c.2) : c = only :=
    List.mem_singleton.1 (honly ▸ List.mem_filter.2 ⟨hc, hselects⟩)
  exact (hmem a ha hselects).trans (hmem b hb hselects').symm

/-! ### One more task -/

theorem settle_append (done : List Mutation) (m : Mutation) (row : Row) :
    engine.settle (done ++ [m]) row = (engine.settle done row).bind fun current ↦
      if engine.selects m.predicate row then engine.change m current else some current := by
  rw [settle, List.foldlM_append]
  refine congrArg ((engine.settle done row).bind ·) (funext fun current ↦ ?_)
  exact bind_pure _

/-- A row that no snapshot located stays as it is. -/
theorem settle_eq_some {done : List Mutation} (h : ∀ m ∈ done, engine.selects m.predicate row = false) :
    engine.settle done row = some row := by
  induction done using List.reverseRecOn with
  | nil => rfl
  | append_singleton done m ih =>
    rw [settle_append, ih fun m' hm' ↦ h m' (List.mem_append_left _ hm'), Option.bind_some,
      h m (List.mem_append_right _ List.mem_cons_self), if_neg Bool.false_ne_true]

theorem outcome_nil (rows : List Row) : engine.outcome rows [] = originals rows := by
  show (originals rows).filterMap some ++ [] = originals rows
  rw [List.filterMap_some, List.append_nil]

/-- An insert adds its row. -/
theorem outcome_insert (rows : List Row) (done : List Task) (values : List Assignment) :
    engine.outcome rows (done ++ [.insert values]) =
      engine.outcome rows done ++ [(.inserted (insertsOf done).length, engine.insertRow values)] := by
  have hmutations : mutationsOf (done ++ [.insert values]) = mutationsOf done := by
    exact List.filterMap_append.trans (List.append_nil _)
  have hinserts : insertsOf (done ++ [.insert values]) = insertsOf done ++ [values] :=
    List.filterMap_append
  rw [outcome, outcome, hmutations, hinserts, List.append_assoc]
  simp [insertedRows, List.zipIdx_append]

/-- What is left of an original row is in the table. -/
theorem mem_outcome_of_settle (hmem : (origin, row) ∈ originals rows)
    (hsettle : engine.settle (mutationsOf done) row = some current) :
    (origin, current) ∈ engine.outcome rows done :=
  List.mem_append_left _ (List.mem_filterMap.2 ⟨(origin, row), hmem, by rw [hsettle]; rfl⟩)

/-- And nothing else of it is. -/
theorem settle_of_mem_outcome (hmem : (origin, row) ∈ originals rows)
    (h : (origin, current) ∈ engine.outcome rows done) :
    engine.settle (mutationsOf done) row = some current := by
  obtain h | h := List.mem_append.1 h
  · obtain ⟨⟨origin', row'⟩, hmem', hsettle⟩ := List.mem_filterMap.1 h
    obtain ⟨current', hsettle, hpair⟩ := Option.map_eq_some_iff.1 hsettle
    cases hpair
    rw [eq_of_mem_originals hmem hmem', hsettle]
  · exact absurd h (engine.not_mem_insertedRows hmem)

section Mutations

variable {rows : List Row} {done : List Task} {m : Mutation}

/-- **A mutation that finds its row changes this row**: of the rows of the table, it is the one that the
snapshot located. -/
theorem selects_iff_of_findsItsRow (hstart : (engine.found m.predicate (originals rows)).length = 1)
    (hnow : (engine.found m.predicate (engine.outcome rows done)).length = 1)
    (hfinds : engine.FindsItsRow rows m (engine.outcome rows done)) {origin : Origin} {row current : Row}
    (hmem : (origin, row) ∈ originals rows) (hsettle : engine.settle (mutationsOf done) row = some current) :
    engine.selects m.predicate current = engine.selects m.predicate row := by
  obtain ⟨⟨origin', row'⟩, hmem', hselects', current', hin, hcurrent⟩ := hfinds
  rw [Bool.eq_iff_iff]
  constructor
  · intro hselects
    have heq := eq_of_found hnow (mem_outcome_of_settle hmem hsettle) hselects hin hcurrent
    cases heq
    rwa [eq_of_mem_originals hmem hmem']
  · intro hselects
    have heq := eq_of_found hstart hmem hselects hmem' hselects'
    cases heq
    have hsame := hsettle.symm.trans (settle_of_mem_outcome hmem hin)
    rwa [Option.some.inj hsame]

/-- It changes no inserted row. -/
theorem not_selects_inserted (hnow : (engine.found m.predicate (engine.outcome rows done)).length = 1)
    (hfinds : engine.FindsItsRow rows m (engine.outcome rows done)) {entry : Origin × Row}
    (hmem : entry ∈ engine.insertedRows (insertsOf done)) : engine.selects m.predicate entry.2 = false := by
  obtain ⟨⟨origin, row⟩, hmem', -, current, hin, hcurrent⟩ := hfinds
  refine Bool.eq_false_iff.2 fun hselects ↦ ?_
  have heq := eq_of_found hnow (List.mem_append_right _ hmem) hselects hin hcurrent
  rw [heq] at hmem
  exact engine.not_mem_insertedRows hmem' hmem

/-- A mutation that finds its row takes the table to the next outcome. -/
theorem filterMap_mutate_outcome {task : Task} (htask : task.mutation = some m)
    (hstart : (engine.found m.predicate (originals rows)).length = 1)
    (hnow : (engine.found m.predicate (engine.outcome rows done)).length = 1)
    (hfinds : engine.FindsItsRow rows m (engine.outcome rows done)) :
    (engine.outcome rows done).filterMap (engine.mutate m) = engine.outcome rows (done ++ [task]) := by
  have hmutations : mutationsOf (done ++ [task]) = mutationsOf done ++ [m] := by
    rw [mutationsOf, List.filterMap_append, List.filterMap_cons_some htask]
    rfl
  have hinserts : insertsOf (done ++ [task]) = insertsOf done := by
    have hnone : task.inserted = none := by
      cases task with
      | insert => cases htask
      | update => rfl
      | delete => rfl
    rw [insertsOf, List.filterMap_append, List.filterMap_cons_none hnone]
    exact List.append_nil _
  rw [outcome, outcome, hmutations, hinserts, List.filterMap_append, List.filterMap_filterMap]
  refine congrArg₂ (· ++ ·) (List.filterMap_congr ?_) ?_
  · rintro ⟨origin, row⟩ hmem
    rw [settle_append]
    obtain hsettle | ⟨current, hsettle⟩ := Option.eq_none_or_eq_some (engine.settle (mutationsOf done) row)
    · rw [hsettle]
      rfl
    · have hselects := selects_iff_of_findsItsRow hstart hnow hfinds hmem hsettle
      rw [hsettle]
      simp only [Option.map_some, Option.bind_some, mutate, hselects]
      split
      · rfl
      · rfl
  · refine (List.filterMap_congr fun entry hmem ↦ ?_).trans List.filterMap_some
    rw [mutate, not_selects_inserted hnow hfinds hmem, if_neg Bool.false_ne_true]

end Mutations

/-! ### Unlocated rows -/

/-- In the table after some of the tasks, no row but the located ones is changed. -/
theorem othersKept_outcome {rest : List Task} :
    engine.OthersKept rows (done ++ rest) (engine.outcome rows done) := by
  refine ⟨(insertsOf done).length, ?_⟩
  have hinserts : insertsOf (done ++ rest) = insertsOf done ++ insertsOf rest := List.filterMap_append
  rw [outcome, List.filter_append]
  congr 1
  · rw [← List.filterMap_eq_filter, List.filterMap_filterMap]
    refine List.filterMap_congr ?_
    rintro ⟨origin, row⟩ hmem
    by_cases hlocated : origin ∈ engine.located rows (done ++ rest)
    · cases engine.settle (mutationsOf done) row with
      | none => simp [Option.guard, hlocated]
      | some current => simp [Option.guard, hlocated]
    · have hsettle : engine.settle (mutationsOf done) row = some row := by
        refine settle_eq_some fun m hm ↦ Bool.eq_false_iff.2 fun hselects ↦ hlocated ?_
        have hm' : m ∈ mutationsOf (done ++ rest) := by
          rw [mutationsOf, List.filterMap_append]
          exact List.mem_append_left _ hm
        exact List.mem_map.2 ⟨(origin, row), List.mem_filter.2 ⟨hmem, List.any_eq_true.2 ⟨m, hm', hselects⟩⟩, rfl⟩
      rw [hsettle]
      rfl
  · have htake : (engine.insertedRows (insertsOf (done ++ rest))).take (insertsOf done).length =
        engine.insertedRows (insertsOf done) := by
      rw [hinserts, insertedRows, insertedRows, List.zipIdx_append, List.map_append]
      exact List.take_left' (by rw [List.length_map, List.length_zipIdx])
    rw [htake, List.filter_eq_self]
    intro entry hmem
    refine decide_eq_true fun hlocated ↦ ?_
    obtain ⟨original, hfiltered, horigin⟩ := List.mem_map.1 hlocated
    obtain ⟨index, hindex⟩ := engine.origin_of_mem_insertedRows hmem
    obtain ⟨index', hindex', -⟩ := mem_originals_iff.1 (List.mem_of_mem_filter hfiltered)
    cases (hindex'.symm.trans horigin).trans hindex

end Engine

/-! ### Requests -/

section Run

variable (engine : Engine Row) (rows : List Row)

/-- Every mutation that was carried out has found its row. -/
def AllFound (s : Session Row) : Prop :=
  ∀ step ∈ s.performed, engine.FindsItsRow rows step.1 step.2

/-- **The table is the outcome of some tasks**, if the mutations among them have found their rows. -/
structure Progress (done : List Task) (s : Session Row) : Prop where
  count : s.insertedRows = (insertsOf done).length
  table : AllFound engine rows s → s.table = engine.outcome rows done

/-- The statement of a task. -/
def Task.statement : Task → Statement
  | .insert values => .insert values
  | .update prepared => .mutation (.update prepared.assignments prepared.originalPredicate)
  | .delete prepared => .mutation (.delete prepared.predicate)

variable {task : Task} {α : Type} {prepared : PreparedChangeSet}

theorem Task.statement_of_mutation {m : Mutation} (h : task.mutation = some m) :
    task.statement = .mutation m := by
  cases task with
  | insert => cases h
  | update | delete => exact congrArg Statement.mutation (Option.some.inj h)

/-- The same data on the server, whatever it is going to answer. -/
def SameData (s s' : Session Row) : Prop :=
  ∃ answers, s' = { s with answers := answers }

variable {engine rows} {done : List Task} {s s' : Session Row}

theorem Progress.of_sameData (h : Progress engine rows done s) (hsame : SameData s s') :
    Progress engine rows done s' := by
  obtain ⟨answers, rfl⟩ := hsame
  exact ⟨h.count, h.table⟩

theorem sameData_answered (s : Session Row) : SameData s s.answered :=
  ⟨s.answers.tail, rfl⟩

theorem SameData.trans {s'' : Session Row} (h : SameData s s') (h' : SameData s' s'') : SameData s s'' := by
  obtain ⟨answers, rfl⟩ := h
  obtain ⟨answers', rfl⟩ := h'
  exact ⟨answers', rfl⟩

/-- **One more task is carried out.** -/
theorem Progress.perform {task : Task} (h : Progress engine rows done s)
    (hcounts : ∀ m, task.mutation = some m →
      (engine.found m.predicate (originals rows)).length = 1 ∧ (engine.found m.predicate s.table).length = 1) :
    Progress engine rows (done ++ [task]) (s.perform engine task.statement) := by
  obtain hnone | ⟨m, hm⟩ := Option.eq_none_or_eq_some task.mutation
  · obtain ⟨values, rfl⟩ : ∃ values, task = .insert values := by
      cases task with
      | insert values => exact ⟨values, rfl⟩
      | update => cases hnone
      | delete => cases hnone
    refine ⟨?_, fun hfound ↦ ?_⟩
    · show s.insertedRows + 1 = _
      rw [h.count, insertsOf, insertsOf, List.filterMap_append, List.length_append]
      rfl
    · show s.table ++ [_] = _
      rw [engine.outcome_insert, h.table hfound, h.count]
  · rw [Task.statement_of_mutation hm]
    obtain ⟨hstart, hnow⟩ := hcounts m hm
    refine ⟨?_, fun hfound ↦ ?_⟩
    · show s.insertedRows = _
      have hnone : task.inserted = none := by
        cases task with
        | insert => cases hm
        | update => rfl
        | delete => rfl
      rw [h.count, insertsOf, insertsOf, List.filterMap_append, List.filterMap_cons_none hnone, List.filterMap_nil,
        List.append_nil]
    · have htable := h.table fun step hstep ↦ hfound step (List.mem_append_left _ hstep)
      have hfinds : engine.FindsItsRow rows m s.table :=
        hfound (m, s.table) (List.mem_append_right _ List.mem_cons_self)
      show s.table.filterMap (engine.mutate m) = _
      rw [htable] at hnow hfinds ⊢
      exact Engine.filterMap_mutate_outcome hm hstart hnow hfinds

/-- A count changes nothing. -/
theorem sameData_countPredicate (engine : Engine Row) (p : Predicate) (s : Session Row) :
    SameData s (countPredicate engine p s).2 := by
  rw [countPredicate]
  split
  · exact sameData_answered s
  · exact sameData_answered s
  · exact sameData_answered s

theorem sameData_verifyExpectedCount (engine : Engine Row) (p : Predicate) (expected : ℕ) (s : Session Row) :
    SameData s (verifyExpectedCount engine p expected s).2 := by
  have hsame := sameData_countPredicate engine p s
  rw [verifyExpectedCount]
  rcases hcount : countPredicate engine p s with ⟨error | actual, s'⟩
  · rw [hcount] at hsame
    exact hsame
  · rw [hcount] at hsame
    simp only
    split
    · exact hsame
    · exact hsame

/-- A count that is verified is the number of rows. -/
theorem length_found_of_verified {p : Predicate} {expected : ℕ}
    (h : verifyExpectedCount engine p expected s = (.ok (), s')) : (engine.found p s.table).length = expected := by
  rw [verifyExpectedCount, countPredicate] at h
  cases hanswer : s.nextAnswer with
  | acknowledged =>
    rw [hanswer] at h
    simp only at h
    split at h
    · cases h
    · rename_i hne
      exact not_not.1 hne
  | failed error =>
    rw [hanswer] at h
    cases h
  | ambiguous lost =>
    rw [hanswer] at h
    cases h

/-- What a statement may come back with: an error without effect, its effect, or either without notice. -/
theorem executeStatement_cases (engine : Engine Row) (statement : Statement) (s : Session Row) :
    (∃ error, executeStatement engine statement s = (.error error, s.answered)) ∨
      executeStatement engine statement s = (.ok .applied, s.answered.perform engine statement) ∨
      executeStatement engine statement s = (.ok .outcomeUnknown, s.answered) ∨
      executeStatement engine statement s = (.ok .outcomeUnknown, s.answered.perform engine statement) := by
  rw [executeStatement]
  cases s.nextAnswer with
  | acknowledged => exact .inr (.inl rfl)
  | failed error => exact .inl ⟨error, rfl⟩
  | ambiguous happened =>
    cases happened with
    | false => exact .inr (.inr (.inl rfl))
    | true => exact .inr (.inr (.inr rfl))

theorem run_attempt (request : Session Row → IpcResult α × Session Row) (stop : IpcError → Stop)
    (s : Session Row) :
    (attempt request stop).run s =
      match request s with
      | (.ok a, s) => (.ok a, s)
      | (.error error, s) => (.error (stop error), s) := rfl

@[simp]
theorem run_inspect (request : Session Row → IpcResult α × Session Row) (s : Session Row) :
    (inspect request).run s = (.ok (request s).1, (request s).2) := rfl

/-! ### One task -/

/-- **How a task ends**, after the tasks `done`: it is carried out and counted, it stops the commit with an error
while nothing is done, or it stops the commit with an unknown outcome, before or after its effect. -/
inductive Ended (engine : Engine Row) (rows : List Row) (done : List Task) (task : Task) (affectedRows : ℕ) :
    Except Stop ℕ → Session Row → Prop
  | finished {s : Session Row} (h : Progress engine rows (done ++ [task]) s) :
    Ended engine rows done task affectedRows (.ok (saturatingAdd affectedRows 1)) s
  | failed {s : Session Row} (error : IpcError) (hnone : affectedRows = 0) (h : Progress engine rows done s) :
    Ended engine rows done task affectedRows (.error (.failed error)) s
  | lost {s : Session Row} (h : Progress engine rows done s ∨ Progress engine rows (done ++ [task]) s) :
    Ended engine rows done task affectedRows (.error (.unknown affectedRows)) s

section Tasks

variable {task : Task} {affectedRows : ℕ}

theorem Ended.of_stopWith (error : IpcError) (h : Progress engine rows done s) :
    Ended engine rows done task affectedRows (.error (stopWith affectedRows error)) s := by
  rw [stopWith]
  split
  · exact .lost (.inl h)
  · exact .failed error (by omega) h

/-- An insert. -/
theorem ended_commitInsert (values : List Assignment) (h : Progress engine rows done s) :
    Ended engine rows done (.insert values) affectedRows ((commitInsert engine affectedRows values).run s).1
      ((commitInsert engine affectedRows values).run s).2 := by
  have hbefore := h.of_sameData (sameData_answered s)
  have hafter : Progress engine rows (done ++ [.insert values]) (s.answered.perform engine (.insert values)) :=
    hbefore.perform fun m hm ↦ (nomatch hm)
  rw [commitInsert, Job.run_bind, run_attempt]
  obtain ⟨error, hrun⟩ | hrun | hrun | hrun := executeStatement_cases engine (.insert values) s
  · rw [hrun]
    exact .of_stopWith error hbefore
  · rw [hrun]
    exact .finished hafter
  · rw [hrun]
    exact .lost (.inl hbefore)
  · rw [hrun]
    exact .lost (.inr hafter)

/-- A mutation is sent only when one row satisfies its condition. -/
theorem commitMutation_cases (task : Task) (affectedRows : ℕ) {m : Mutation} (hm : task.mutation = some m)
    (hstart : (engine.found m.predicate (originals rows)).length = 1) (h : Progress engine rows done s) :
    (∃ error s', (commitMutation engine affectedRows m 1).run s = (.error (stopWith affectedRows error), s') ∧
        Progress engine rows done s') ∨
      (∃ s', (commitMutation engine affectedRows m 1).run s = (.ok .applied, s') ∧
        Progress engine rows (done ++ [task]) s') ∨
      ∃ s', (commitMutation engine affectedRows m 1).run s = (.ok .outcomeUnknown, s') ∧
        (Progress engine rows done s' ∨ Progress engine rows (done ++ [task]) s') := by
  rw [commitMutation, Job.run_bind, run_attempt]
  have hsame := sameData_verifyExpectedCount engine m.predicate 1 s
  rcases hverify : verifyExpectedCount engine m.predicate 1 s with ⟨error | verified, s₁⟩
  · rw [hverify] at hsame
    exact .inl ⟨error, s₁, rfl, h.of_sameData hsame⟩
  · rw [hverify] at hsame
    have hnow := length_found_of_verified hverify
    have hbefore := h.of_sameData (hsame.trans (sameData_answered s₁))
    have htable : s₁.answered.table = s.table := by
      obtain ⟨answers, rfl⟩ := hsame
      rfl
    have hafter : Progress engine rows (done ++ [task]) (s₁.answered.perform engine (.mutation m)) := by
      rw [← Task.statement_of_mutation hm]
      refine hbefore.perform fun m' hm' ↦ ?_
      cases Option.some.inj (hm.symm.trans hm')
      exact ⟨hstart, htable ▸ hnow⟩
    simp only [run_attempt]
    obtain ⟨error, hrun⟩ | hrun | hrun | hrun := executeStatement_cases engine (.mutation m) s₁
    · rw [hrun]
      exact .inl ⟨error, _, rfl, hbefore⟩
    · rw [hrun]
      exact .inr (.inl ⟨_, rfl, hafter⟩)
    · rw [hrun]
      exact .inr (.inr ⟨_, rfl, .inl hbefore⟩)
    · rw [hrun]
      exact .inr (.inr ⟨_, rfl, .inr hafter⟩)

/-- An update. -/
theorem ended_commitUpdate (update : PreparedUpdate) (hexpected : update.expectedMatches = 1)
    (hstart : (engine.found update.originalPredicate (originals rows)).length = 1)
    (h : Progress engine rows done s) :
    Ended engine rows done (.update update) affectedRows ((commitUpdate engine affectedRows update).run s).1
      ((commitUpdate engine affectedRows update).run s).2 := by
  rw [commitUpdate, Job.run_bind, hexpected]
  obtain ⟨error, s', hrun, hprogress⟩ | ⟨s', hrun, hprogress⟩ | ⟨s', hrun, hprogress⟩ :=
    commitMutation_cases (.update update) affectedRows rfl hstart h
  · rw [hrun]
    exact .of_stopWith error hprogress
  · have hsame := (sameData_countPredicate engine update.originalPredicate s').trans
      (sameData_countPredicate engine update.updatedPredicate _)
    have hcounted := hprogress.of_sameData hsame
    rw [hrun]
    simp only [Job.run_bind, run_inspect]
    split
    · split
      · exact .finished hcounted
      · exact .lost (.inr hcounted)
    · exact .lost (.inr hcounted)
  · rw [hrun]
    exact .lost hprogress

/-- A delete. -/
theorem ended_commitDelete (delete : PreparedDelete) (hexpected : delete.expectedMatches = 1)
    (hstart : (engine.found delete.predicate (originals rows)).length = 1) (h : Progress engine rows done s) :
    Ended engine rows done (.delete delete) affectedRows ((commitDelete engine affectedRows delete).run s).1
      ((commitDelete engine affectedRows delete).run s).2 := by
  rw [commitDelete, Job.run_bind, hexpected]
  obtain ⟨error, s', hrun, hprogress⟩ | ⟨s', hrun, hprogress⟩ | ⟨s', hrun, hprogress⟩ :=
    commitMutation_cases (.delete delete) affectedRows rfl hstart h
  · rw [hrun]
    exact .of_stopWith error hprogress
  · have hcounted := hprogress.of_sameData (sameData_countPredicate engine delete.predicate s')
    rw [hrun]
    simp only [Job.run_bind, run_inspect]
    split
    · exact .finished hcounted
    · exact .lost (.inr hcounted)
  · rw [hrun]
    exact .lost hprogress

end Tasks

/-! ### All tasks -/

/-- One round of the three loops. -/
def commitTask (engine : Engine Row) (affectedRows : ℕ) : Task → Job (Session Row) Stop ℕ
  | .insert values => commitInsert engine affectedRows values
  | .update prepared => commitUpdate engine affectedRows prepared
  | .delete prepared => commitDelete engine affectedRows prepared

/-- Whether the snapshot of a task is for one row and located one. -/
def Located (engine : Engine Row) (rows : List Row) : Task → Prop
  | .insert _ => True
  | .update prepared =>
    prepared.expectedMatches = 1 ∧ (engine.found prepared.originalPredicate (originals rows)).length = 1
  | .delete prepared =>
    prepared.expectedMatches = 1 ∧ (engine.found prepared.predicate (originals rows)).length = 1

/-- Every task ends in one of the three ways. -/
theorem ended_commitTask (affectedRows : ℕ) (hlocated : Located engine rows task)
    (h : Progress engine rows done s) :
    Ended engine rows done task affectedRows ((commitTask engine affectedRows task).run s).1
      ((commitTask engine affectedRows task).run s).2 := by
  cases task with
  | insert values => exact ended_commitInsert values h
  | update prepared => exact ended_commitUpdate prepared hlocated.1 hlocated.2 h
  | delete prepared => exact ended_commitDelete prepared hlocated.1 hlocated.2 h

/-- **How the tasks end**: some first tasks are carried out, none if there is an error, and all of them if there
is a count. -/
structure AllEnded (engine : Engine Row) (rows : List Row) (tasks : List Task) (result : Except Stop ℕ)
    (s : Session Row) : Prop where
  progress : ∃ done, done <+: tasks ∧ Progress engine rows done s
  failed : ∀ error, result = .error (.failed error) → Progress engine rows [] s
  finished : ∀ affectedRows, result = .ok affectedRows →
    Progress engine rows tasks s ∧ affectedRows = tasks.length

/-- **The run of the tasks**, by induction on the tasks that are left. -/
theorem allEnded_foldlM {tasks : List Task} (hlocated : ∀ task ∈ tasks, Located engine rows task)
    (hbound : done.length + tasks.length < 2 ^ 64) (h : Progress engine rows done s) :
    AllEnded engine rows (done ++ tasks) ((tasks.foldlM (commitTask engine) done.length).run s).1
      ((tasks.foldlM (commitTask engine) done.length).run s).2 := by
  induction tasks generalizing done s with
  | nil =>
    rw [List.append_nil]
    exact ⟨⟨done, List.prefix_rfl, h⟩, fun _ heq ↦ (nomatch heq), fun n heq ↦ ⟨h, (Except.ok.inj heq).symm⟩⟩
  | cons task tasks ih =>
    rw [List.foldlM_cons, Job.run_bind]
    have hended := ended_commitTask done.length (hlocated task List.mem_cons_self) h
    have hnext : done ++ [task] <+: done ++ task :: tasks :=
      ⟨tasks, List.append_assoc done [task] tasks⟩
    rcases hrun : (commitTask engine done.length task).run s with ⟨result, s'⟩
    rw [hrun] at hended
    cases hended with
    | finished hprogress =>
      have hcount : saturatingAdd done.length 1 = (done ++ [task]).length := by
        rw [List.length_cons] at hbound
        rw [saturatingAdd, List.length_append, List.length_singleton]
        omega
      have hih := ih (fun task' hmem ↦ hlocated task' (List.mem_cons_of_mem _ hmem))
        (by rw [List.length_cons] at hbound; rw [List.length_append, List.length_singleton]; omega) hprogress
      simp only [hcount]
      rwa [List.append_assoc] at hih
    | failed error hnone hprogress =>
      rw [List.length_eq_zero_iff] at hnone
      subst hnone
      exact ⟨⟨[], List.nil_prefix, hprogress⟩, fun _ _ ↦ hprogress, fun _ heq ↦ (nomatch heq)⟩
    | lost hprogress =>
      refine ⟨?_, fun _ heq ↦ ?_, fun _ heq ↦ (nomatch heq)⟩
      · rcases hprogress with hprogress | hprogress
        · exact ⟨done, List.prefix_append _ _, hprogress⟩
        · exact ⟨_, hnext, hprogress⟩
      · cases heq

/-- The three loops are one. -/
theorem commitPrepared_eq (engine : Engine Row) (prepared : PreparedChangeSet) :
    commitPrepared engine prepared =
      verifyMatchCounts engine prepared >>= fun _ ↦ prepared.tasks.foldlM (commitTask engine) 0 := by
  simp only [PreparedChangeSet.tasks, List.foldlM_append, List.foldlM_map, bind_assoc]
  rfl

/-! ### The first counts -/

/-- Verifying the counts of several conditions: an error of one of them, or all of them are right. -/
theorem run_forM_verify (engine : Engine Row) (predicate : α → Predicate) (expected : α → ℕ) (items : List α)
    (s : Session Row) :
    ∃ s', SameData s s' ∧
      ((∃ error, (items.forM fun item ↦
          attempt (verifyExpectedCount engine (predicate item) (expected item)) .failed).run s =
            (.error (.failed error), s')) ∨
        (items.forM fun item ↦
          attempt (verifyExpectedCount engine (predicate item) (expected item)) .failed).run s = (.ok (), s') ∧
          ∀ item ∈ items, (engine.found (predicate item) s.table).length = expected item) := by
  induction items generalizing s with
  | nil => exact ⟨s, ⟨s.answers, rfl⟩, .inr ⟨rfl, fun _ hmem ↦ (nomatch hmem)⟩⟩
  | cons item items ih =>
    have hcons (f : α → Job (Session Row) Stop Unit) : (item :: items).forM f = f item >>= fun _ ↦ items.forM f :=
      rfl
    simp only [hcons, Job.run_bind, run_attempt]
    have hsame := sameData_verifyExpectedCount engine (predicate item) (expected item) s
    rcases hverify : verifyExpectedCount engine (predicate item) (expected item) s with ⟨error | verified, s₁⟩
    · rw [hverify] at hsame
      exact ⟨s₁, hsame, .inl ⟨error, rfl⟩⟩
    · rw [hverify] at hsame
      obtain ⟨s', hsame', ⟨error, hrun⟩ | ⟨hrun, hall⟩⟩ := ih s₁
      · exact ⟨s', hsame.trans hsame', .inl ⟨error, hrun⟩⟩
      · refine ⟨s', hsame.trans hsame', .inr ⟨hrun, ?_⟩⟩
        have htable : s₁.table = s.table := by
          obtain ⟨answers, rfl⟩ := hsame
          rfl
        intro item' hmem
        obtain rfl | hmem := List.mem_cons.1 hmem
        · exact length_found_of_verified hverify
        · rw [← htable]
          exact hall item' hmem

/-- **The counts of the beginning**: an error, or each snapshot locates one row. -/
theorem run_verifyMatchCounts (engine : Engine Row) (hsingle : prepared.SingleRow)
    (hstart : s.table = originals rows) :
    ∃ s', SameData s s' ∧
      ((∃ error, (verifyMatchCounts engine prepared).run s = (.error (.failed error), s')) ∨
        (verifyMatchCounts engine prepared).run s = (.ok (), s') ∧
          ∀ task ∈ prepared.tasks, Located engine rows task) := by
  rw [verifyMatchCounts, Job.run_bind]
  obtain ⟨s₁, hsame, ⟨error, hrun⟩ | ⟨hrun, hupdates⟩⟩ :=
    run_forM_verify engine PreparedUpdate.originalPredicate PreparedUpdate.expectedMatches
      prepared.updates s
  · rw [hrun]
    exact ⟨s₁, hsame, .inl ⟨error, rfl⟩⟩
  · rw [hrun]
    obtain ⟨s', hsame', ⟨error, hrun'⟩ | ⟨hrun', hdeletes⟩⟩ :=
      run_forM_verify engine PreparedDelete.predicate PreparedDelete.expectedMatches
        prepared.deletes s₁
    · exact ⟨s', hsame.trans hsame', .inl ⟨error, hrun'⟩⟩
    · have htable : s₁.table = originals rows := by
        obtain ⟨answers, rfl⟩ := hsame
        exact hstart
      refine ⟨s', hsame.trans hsame', .inr ⟨hrun', fun task hmem ↦ ?_⟩⟩
      rw [PreparedChangeSet.tasks, List.mem_append, List.mem_append, List.mem_map, List.mem_map, List.mem_map] at hmem
      obtain (⟨values, -, rfl⟩ | ⟨update, hupdate, rfl⟩) | ⟨delete, hdelete, rfl⟩ := hmem
      · trivial
      · have hone := hsingle.updates update hupdate
        exact ⟨hone, hstart ▸ (hupdates update hupdate).trans hone⟩
      · have hone := hsingle.deletes delete hdelete
        exact ⟨hone, htable ▸ (hdeletes delete hdelete).trans hone⟩

/-! ### Faithful commits -/

theorem progress_start (engine : Engine Row) (rows : List Row) (answers : List Answer) :
    Progress engine rows [] (Session.start rows answers) :=
  ⟨rfl, fun _ ↦ (engine.outcome_nil rows).symm⟩

/-- The number of tasks is that of the changes, which is at most a hundred. -/
theorem length_tasks {container : ContainerRef} {described : IpcResult TableSchema}
    {changeSet : TableChangeSetRequest} (h : prepareChangeSet container described changeSet = .ok prepared) :
    prepared.tasks.length =
        changeSet.inserts.length + changeSet.updates.length + changeSet.deletes.length ∧
      prepared.tasks.length ≤ MAX_CHANGE_ROWS := by
  obtain ⟨-, hinserts, hupdates, hdeletes⟩ := prepareChangeSet_eq_ok h
  have hlength : prepared.tasks.length =
      changeSet.inserts.length + changeSet.updates.length + changeSet.deletes.length := by
    rw [PreparedChangeSet.tasks, List.length_append, List.length_append, List.length_map, List.length_map,
      List.length_map, hinserts, hupdates, hdeletes]
  refine ⟨hlength, hlength ▸ ?_⟩
  obtain ⟨_, hlimits, -⟩ := bind_eq_ok_iff.1 h
  unfold validateChangeSetLimits at hlimits
  have hrows := (ite_error_eq_ok_iff.1 (ite_error_eq_ok_iff.1 hlimits).2).1
  exact Nat.not_lt.1 hrows

/-- **A grid commit is faithful as long as its mutations find their rows.** -/
theorem faithful_commit (engine : Engine Row) (rows : List Row) (container : ContainerRef)
    (described : IpcResult TableSchema) (changeSet : TableChangeSetRequest) (answers : List Answer)
    {prepared : PreparedChangeSet} (hprepared : prepareChangeSet container described changeSet = .ok prepared)
    (hfound : AllFound engine rows
      (commitTableChangeSet engine container described changeSet (Session.start rows answers)).2) :
    engine.Faithful rows prepared.tasks
        (commitTableChangeSet engine container described changeSet (Session.start rows answers)).1
        (commitTableChangeSet engine container described changeSet (Session.start rows answers)).2.table ∧
      prepared.tasks.length =
        changeSet.inserts.length + changeSet.updates.length + changeSet.deletes.length := by
  obtain ⟨hlength, hbound⟩ := length_tasks hprepared
  refine ⟨?_, hlength⟩
  simp only [commitTableChangeSet, hprepared, commitPrepared_eq, Job.run_bind] at hfound ⊢
  have hprogress := progress_start engine rows answers
  obtain ⟨s, hsame, ⟨error, hrun⟩ | ⟨hrun, hlocated⟩⟩ :=
    run_verifyMatchCounts engine (prepareChangeSet_eq_ok hprepared).1
      (show (Session.start rows answers).table = originals rows from rfl)
  · rw [hrun] at hfound ⊢
    have htable := (hprogress.of_sameData hsame).table hfound
    refine ⟨?_, fun _ _ ↦ ?_, fun _ heq ↦ (nomatch heq)⟩
    · rw [htable]
      show engine.OthersKept rows ([] ++ prepared.tasks) _
      exact Engine.othersKept_outcome
    · exact htable.trans (engine.outcome_nil rows)
  · rw [hrun] at hfound ⊢
    have hended := allEnded_foldlM hlocated (by rw [MAX_CHANGE_ROWS] at hbound; rw [List.length_nil]; omega)
      (hprogress.of_sameData hsame)
    rw [List.nil_append] at hended
    simp only [List.length_nil] at hended
    refine ⟨?_, fun error herror ↦ ?_, fun success hsuccess happlied ↦ ?_⟩
    · obtain ⟨done, ⟨rest, hrest⟩, hdone⟩ := hended.progress
      rw [hdone.table hfound, ← hrest]
      exact Engine.othersKept_outcome
    · rw [report.eq_def] at herror
      split at herror
      · cases herror
      · rename_i hresult
        exact ((hended.failed _ hresult).table hfound).trans (engine.outcome_nil rows)
      · cases herror
    · rw [report.eq_def] at hsuccess
      split at hsuccess
      · rename_i affectedRows hresult
        cases hsuccess
        obtain ⟨hall, hcount⟩ := hended.finished _ hresult
        exact ⟨hall.table hfound, hcount⟩
      · cases hsuccess
      · cases hsuccess
        cases happlied

end Run

/-! ### A row that takes the place of another -/

namespace GridSample

/-- A server whose rows are literals by their columns. -/
def engine : Engine (List (String × String)) where
  holds
    | .isNull column, row => row.lookup column = some "NULL"
    | .equals column literal, row => row.lookup column = some literal
  insertRow values := values.map fun value ↦ (value.column, value.literal)
  assign assignments row := row.map fun (column, literal) ↦
    (column, ((assignments.find? (·.column = column)).map (·.literal)).getD literal)

def column (name typeName : String) : ColumnSchema :=
  ⟨name, typeName, 1, .none, none, none, none, none, .editable⟩

/-- A table of an `id` and a `name`. -/
def described : TableSchema where
  identity := ⟨"db", "t", .table⟩
  engine := ⟨"MergeTree", []⟩
  columns := [column "id" "Int32", column "name" "String"]
  keys := ⟨"id", none, none, none⟩
  tableTtl := none
  comment := none
  settings := []
  projections := []
  skippingIndexes := []
  editability := .editable

def container : ContainerRef :=
  ⟨.table, some "db", none, some "t", none⟩

def row (id name : String) : List (String × String) :=
  [("id", "CAST('" ++ id ++ "' AS Int32)"), ("name", "CAST('" ++ name ++ "' AS String)")]

/-- A new row, and the row 1 gets the number 5. -/
def once : TableChangeSetRequest where
  inserts := [⟨[⟨"id", .number (.posInt 1)⟩, ⟨"name", .string "b"⟩]⟩]
  updates := [⟨.rowSnapshot [⟨"id", .number (.posInt 1)⟩, ⟨"name", .string "a"⟩] 1,
    [⟨"id", .number (.posInt 5)⟩]⟩]
  deletes := []

/-- The same, and the row that was the row 1 gets the number 7 by another snapshot of it. -/
def twice : TableChangeSetRequest :=
  { once with
    updates := once.updates ++ [⟨.rowSnapshot [⟨"id", .number (.posInt 1)⟩] 1, [⟨"id", .number (.posInt 7)⟩]⟩] }

/-- What is prepared of a change set. -/
def prepared (changeSet : TableChangeSetRequest) : PreparedChangeSet :=
  match prepareChangeSet container (.ok described) changeSet with
  | .ok prepared => prepared
  | .error _ => ⟨⟨[], 0, 0, 0⟩, [], [], []⟩

/-- The commit on a table with one row, every request of which is acknowledged. -/
def committed (changeSet : TableChangeSetRequest) :
    IpcResult TableChangeSetCommitResult × Session (List (String × String)) :=
  commitTableChangeSet engine container (.ok described) changeSet (Session.start [row "1" "a"] [])

end GridSample

/-- The second snapshot finds the new row in the place of the one that it located. -/
theorem not_faithful_twice :
    prepareChangeSet GridSample.container (.ok GridSample.described) GridSample.twice = .ok (GridSample.prepared GridSample.twice) ∧
      ¬ GridSample.engine.Faithful [GridSample.row "1" "a"] (GridSample.prepared GridSample.twice).tasks
        (GridSample.committed GridSample.twice).1 (GridSample.committed GridSample.twice).2.table := by
  refine ⟨by decide +kernel, fun h ↦ ?_⟩
  obtain ⟨count, hothers⟩ := h.others
  have hchanged : (Origin.inserted 0, GridSample.row "7" "b") ∈ (GridSample.committed GridSample.twice).2.table.filter
      (·.1 ∉ GridSample.engine.located [GridSample.row "1" "a"] (GridSample.prepared GridSample.twice).tasks) := by
    decide +kernel
  rw [hothers, List.mem_append] at hchanged
  obtain hmem | hmem := hchanged
  · exact absurd (List.mem_of_mem_filter hmem) (by decide +kernel)
  · exact absurd (List.mem_of_mem_take hmem) (by decide +kernel)

/-- The new row and the first update. -/
theorem faithful_once :
    GridSample.engine.Faithful [GridSample.row "1" "a"] (GridSample.prepared GridSample.once).tasks
        (GridSample.committed GridSample.once).1 (GridSample.committed GridSample.once).2.table ∧
      (GridSample.prepared GridSample.once).tasks.length = 2 := by
  refine faithful_commit GridSample.engine [GridSample.row "1" "a"] GridSample.container (.ok GridSample.described) GridSample.once []
    (by decide +kernel) ?_
  intro step hstep
  have hperformed : step ∈ (GridSample.committed GridSample.once).2.performed := hstep
  have hbefore : ∀ step ∈ (GridSample.committed GridSample.once).2.performed,
      GridSample.engine.selects step.1.predicate (GridSample.row "1" "a") = true ∧
        (Origin.original 0, GridSample.row "1" "a") ∈ step.2 := by
    decide +kernel
  obtain ⟨hselects, hmem⟩ := hbefore step hperformed
  exact ⟨(.original 0, GridSample.row "1" "a"), by decide, hselects, _, hmem, hselects⟩

end ClickHouse
