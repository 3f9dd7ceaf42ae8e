import Mathlib.Data.List.Dedup
import NexusPilot.ClickHouse.AlterDefinitions

/-!
# When an alteration reaches its target

The columns and the properties of the table after the whole plan. `column?_plan` gives each column of the
target in closed form, and `reachesTarget_iff` says exactly when `table_schema_matches_target` accepts the
table that the plan ends in: no MODIFY was to take away a comment, a codec or a TTL.
-/

namespace ClickHouse

open Drivers Text Machine

variable {alphanumeric : Char → Bool} {target : AlterTableTarget} {table next final : TableSchema}
  {operations rest : List AlterOperation}

/-! ### The operations on one column -/

/-- The column that an operation is about; a rename is about none of the columns of the plan that follows. -/
def AlterOperation.column? : AlterOperation → Option String
  | .addColumn column _ => some column.name
  | .modifyColumn column .. => some column.name
  | .commentColumn name .. => some name
  | .dropColumn name _ => some name
  | _ => none

variable {operation : AlterOperation}

theorem columnEffect_of_ne {name : String} (h : operation.column? ≠ some name) (column : Option ColumnSchema) :
    columnEffect name operation column = column := by
  cases operation with
  | addColumn added position => exact if_neg fun heq ↦ h (congrArg some heq)
  | modifyColumn desired position => exact if_neg fun heq ↦ h (congrArg some heq)
  | commentColumn commented comment position => exact if_neg fun heq ↦ h (congrArg some heq)
  | dropColumn dropped position => exact if_neg fun heq ↦ h (congrArg some heq)
  | _ => rfl

/-- Only the operations on a column change it. -/
theorem foldl_columnEffect (name : String) (operations : List AlterOperation) (column : Option ColumnSchema) :
    operations.foldl (fun column operation ↦ columnEffect name operation column) column =
      (operations.filter fun operation ↦ operation.column? = some name).foldl
        (fun column operation ↦ columnEffect name operation column) column := by
  induction operations generalizing column with
  | nil => rfl
  | cons operation operations ih =>
    rw [List.foldl_cons]
    by_cases h : operation.column? = some name
    · rw [List.filter_cons_of_pos (by simpa using h), List.foldl_cons, ih]
    · rw [List.filter_cons_of_neg (by simpa using h), columnEffect_of_ne h, ih]

/-- Operations that are listed column by column: those on one column are the ones listed for it. -/
theorem filter_flatMap_zipIdx {f : CreateColumnTarget × ℕ → List AlterOperation}
    (hf : ∀ entry, ∀ operation ∈ f entry, operation.column? = some entry.1.name)
    {before after : List CreateColumnTarget} {column : CreateColumnTarget}
    (hnodup : ((before ++ column :: after).map (·.name)).Nodup) :
    (((before ++ column :: after).zipIdx.flatMap f).filter fun operation ↦
      operation.column? = some column.name) = f (column, before.length) := by
  rw [List.map_append, List.map_cons] at hnodup
  have hother := (List.nodup_cons.1 (List.perm_middle.nodup_iff.1 hnodup)).1
  have hnone : ∀ (columns : List CreateColumnTarget) (index : ℕ), column.name ∉ columns.map (·.name) →
      ((columns.zipIdx index).flatMap f).filter (fun operation ↦ operation.column? = some column.name) = [] := by
    intro columns index hnot
    refine List.filter_eq_nil_iff.2 fun operation hmem hcolumn ↦ ?_
    obtain ⟨entry, hentry, hop⟩ := List.mem_flatMap.1 hmem
    have heq : entry.1.name = column.name := by
      have hsame := hf entry operation hop
      rw [of_decide_eq_true hcolumn] at hsame
      exact (Option.some.inj hsame).symm
    exact hnot (List.mem_map.2 ⟨entry.1, List.fst_mem_of_mem_zipIdx hentry, heq⟩)
  have hself : (f (column, before.length)).filter (fun operation ↦ operation.column? = some column.name) =
      f (column, before.length) :=
    List.filter_eq_self.2 fun operation hop ↦ decide_eq_true (hf _ operation hop)
  rw [List.zipIdx_append, List.zipIdx_cons, List.flatMap_append, List.flatMap_cons, List.filter_append,
    List.filter_append, hnone _ _ fun hmem ↦ hother (List.mem_append_left _ hmem),
    hnone _ _ fun hmem ↦ hother (List.mem_append_right _ hmem), List.nil_append, List.append_nil,
    Nat.zero_add, hself]

theorem column?_addOperation (entry : CreateColumnTarget × ℕ) :
    ∀ operation ∈ (addOperation target entry).toList, operation.column? = some entry.1.name := by
  intro operation hmem
  rw [addOperation] at hmem
  split_ifs at hmem
  · rw [List.mem_singleton.1 hmem]
    rfl
  · cases hmem

/-- What the plan does to a kept column: a MODIFY, a COMMENT or nothing. -/
theorem column?_keptOperations (entry : CreateColumnTarget × ℕ) :
    (∀ operation ∈ (keptOperations alphanumeric target entry).1,
      operation.column? = some entry.1.name ∧ operation.isRename = false) ∧
      ∀ operation ∈ (keptOperations alphanumeric target entry).2,
        operation.column? = some entry.1.name ∧ operation.isRename = false := by
  rw [keptOperations]
  split
  · simp
  · split
    · simp
    · simp only [columnOperations]
      split_ifs <;> simp [AlterOperation.column?, AlterOperation.isRename]

theorem column?_tableOperations (hmem : operation ∈ tableOperations alphanumeric target) :
    operation.column? = none ∧ operation.isRename = false := by
  simp only [tableOperations, List.mem_append, List.mem_map, List.mem_filterMap, Option.bind_eq_some_iff]
    at hmem
  obtain (((hmem | hmem) | ⟨_, -, rfl⟩) | ⟨_, -, _, -, hmem⟩) | hmem := hmem
  · split at hmem
    · cases hmem
    · split at hmem <;> rw [List.mem_singleton.1 hmem] <;> exact ⟨rfl, rfl⟩
  · split at hmem
    · cases hmem
    · split at hmem <;> rw [List.mem_singleton.1 hmem] <;> exact ⟨rfl, rfl⟩
  · exact ⟨rfl, rfl⟩
  · split_ifs at hmem
    cases hmem
    exact ⟨rfl, rfl⟩
  · split_ifs at hmem
    · rw [List.mem_singleton.1 hmem]
      exact ⟨rfl, rfl⟩
    · cases hmem

/-- The part of the plan after the renames. -/
def restPlan (alphanumeric : Char → Bool) (target : AlterTableTarget) : List AlterOperation :=
  target.desired.columns.zipIdx.filterMap (addOperation target) ++
    (target.desired.columns.zipIdx.flatMap fun entry ↦ (keptOperations alphanumeric target entry).1) ++
    (target.desired.columns.zipIdx.flatMap fun entry ↦ (keptOperations alphanumeric target entry).2) ++
    tableOperations alphanumeric target ++ dropOperations target

theorem alterPlan_eq : alterPlan alphanumeric target = renamePlan target ++ restPlan alphanumeric target := by
  simp [alterPlan, restPlan]

theorem isRename_restPlan : ∀ operation ∈ restPlan alphanumeric target, operation.isRename = false := by
  intro operation hmem
  simp only [restPlan, List.mem_append, List.mem_filterMap, List.mem_flatMap] at hmem
  obtain (((⟨entry, -, hop⟩ | ⟨entry, -, hop⟩) | ⟨entry, -, hop⟩) | hop) | hop := hmem
  · rw [addOperation] at hop
    split_ifs at hop
    cases hop
    rfl
  · exact ((column?_keptOperations entry).1 operation hop).2
  · exact ((column?_keptOperations entry).2 operation hop).2
  · exact (column?_tableOperations hop).2
  · obtain ⟨_, -, rfl⟩ := List.mem_map.1 hop
    rfl

/-- **The operations of the plan on a column of the target.** -/
theorem filter_restPlan (h : RenamesAccepted target) (hdesired : target.desired.columnNames.Nodup)
    {before after : List CreateColumnTarget} {column : CreateColumnTarget}
    (hsplit : target.desired.columns = before ++ column :: after) :
    ((restPlan alphanumeric target).filter fun operation ↦ operation.column? = some column.name) =
      (addOperation target (column, before.length)).toList ++
        (keptOperations alphanumeric target (column, before.length)).1 ++
        (keptOperations alphanumeric target (column, before.length)).2 := by
  have hnodup : ((before ++ column :: after).map (·.name)).Nodup := by
    rw [← hsplit]
    exact hdesired
  have htable : ((tableOperations alphanumeric target).filter fun operation ↦
      operation.column? = some column.name) = [] := by
    refine List.filter_eq_nil_iff.2 fun operation hmem hcolumn ↦ ?_
    rw [decide_eq_true_eq, (column?_tableOperations hmem).1] at hcolumn
    cases hcolumn
  have hdrop : ((dropOperations target).filter fun operation ↦
      operation.column? = some column.name) = [] := by
    refine List.filter_eq_nil_iff.2 fun operation hmem hcolumn ↦ ?_
    obtain ⟨dropped, hdropped, rfl⟩ := List.mem_map.1 hmem
    have heq : dropped.name = column.name := Option.some.inj (of_decide_eq_true hcolumn)
    have hmem := List.mem_map_of_mem (f := (·.name)) ((perm_sortByKey _ _).mem_iff.1 hdropped)
    refine ((mem_dropped_iff h).1 hmem).2 (heq ▸ ?_)
    rw [CreateTableTarget.columnNames, hsplit]
    simp
  rw [restPlan, List.filter_append, List.filter_append, List.filter_append, List.filter_append, htable, hdrop,
    List.append_nil, List.append_nil, List.filterMap_eq_flatMap_toList, hsplit,
    filter_flatMap_zipIdx column?_addOperation hnodup,
    filter_flatMap_zipIdx (fun entry operation hop ↦ ((column?_keptOperations entry).1 operation hop).1) hnodup,
    filter_flatMap_zipIdx (fun entry operation hop ↦ ((column?_keptOperations entry).2 operation hop).1) hnodup]

/-! ### The columns after the plan -/

/-- The column that the plan makes of a column of the target. -/
def AlterTableTarget.finalColumn (alphanumeric : Char → Bool) (target : AlterTableTarget)
    (column : CreateColumnTarget) : ColumnSchema :=
  match target.source? column.name with
  | none => addedColumn column.name (columnClauses column)
  | some baseline =>
    if target.moved alphanumeric column.name then
      modifiedColumn (columnClauses column) { baseline with name := column.name }
    else { baseline with name := column.name, comment := column.comment }

theorem describedComment_getD {comment : Option String}
    (h : ∀ text, comment = some text → trim text.toList ≠ []) :
    describedComment (comment.getD "") = comment := by
  cases comment with
  | none => rfl
  | some text =>
    refine if_neg fun heq ↦ h text rfl ?_
    have hempty : text = "" := heq
    rw [hempty]
    rfl

/-- A run of the plan is one of the renames and one of the rest. -/
theorem TableRun.of_append (h : TableRun table (operations ++ rest) final) :
    ∃ next, TableRun table operations next ∧ TableRun next rest final := by
  induction operations generalizing table with
  | nil =>
    have hnodup : table.columnNames.Nodup := by
      cases h with
      | done hnodup => exact hnodup
      | step hnodup => exact hnodup
    exact ⟨table, .done hnodup, h⟩
  | cons operation operations ih =>
    cases h with
    | step hnodup hstep hrest =>
      obtain ⟨next, hfirst, hlast⟩ := ih hrest
      exact ⟨next, .step hnodup hstep hfirst, hlast⟩

/-- **Each column of the target, after the plan.** -/
theorem column?_plan (h : AlterAccepted alphanumeric target) (hnodup : target.baseline.columnNames.Nodup)
    (hrun : TableRun target.baseline (renamePlan target) next)
    (hrest : TableRun next (restPlan alphanumeric target) final)
    (hnames : next.columnNames = target.renamedNames) {column : CreateColumnTarget}
    (hcolumn : column ∈ target.desired.columns) :
    final.column? column.name = some (target.finalColumn alphanumeric column) := by
  have hrenames := h.hrenames
  obtain ⟨-, hdesired, haccepted, -⟩ := validateCreateTableTarget_eq_ok h.hcreate
  obtain ⟨before, after, hsplit⟩ := List.append_of_mem hcolumn
  have hfind : target.desired.columns.find? (·.name == column.name) = some column :=
    find?_of_mem hdesired hcolumn
  have hstart : next.column? column.name =
      (target.source? column.name).map ({ · with name := column.name }) := by
    rw [tableRun_renames hrun hnames]
    exact column?_renamed hrenames hnodup column.name
  rw [hrest.column? isRename_restPlan, foldl_columnEffect, filter_restPlan hrenames hdesired hsplit, hstart,
    AlterTableTarget.finalColumn, AlterTableTarget.source?, addOperation]
  have hiff := @sourceForTarget_isSome_iff target hrenames column.name
  obtain hnone | ⟨source, hsource⟩ := Option.eq_none_or_eq_some (target.sourceForTarget column.name)
  · -- a new column
    have hnew : target.isNew column.name = true := by
      rw [hnone] at hiff
      simpa using hiff
    rw [if_pos hnew]
    simp only [hnone, Option.bind_none, Option.map_none, keptOperations, Option.toList_some, List.append_nil,
      List.foldl_cons, List.foldl_nil]
    exact if_pos rfl
  · -- a column that is kept
    obtain ⟨hmem, -⟩ := (sourceForTarget_eq_some_iff hrenames).1 hsource
    obtain ⟨baseline, hbaseline⟩ := Option.isSome_iff_exists.1 (baselineByName_isSome_iff.2 hmem)
    have hold : target.isNew column.name = false := hiff.1 (by rw [hsource]; rfl)
    have hmoved : target.moved alphanumeric column.name =
        ((compareColumnDefinition alphanumeric baseline column).nonCommentChanged ||
          !decide (target.InPlace column.name)) := by
      simp [AlterTableTarget.moved, AlterTableTarget.untouched, hfind, hsource, hbaseline, hold]
    have hcomment : (compareColumnDefinition alphanumeric baseline column).commentChanged =
        (baseline.comment != column.comment) := rfl
    have hdefinition : (compareColumnDefinition alphanumeric baseline column).definitionChanged =
        ((compareColumnDefinition alphanumeric baseline column).nonCommentChanged ||
          (compareColumnDefinition alphanumeric baseline column).commentChanged) := rfl
    rw [if_neg (by simp [hold])]
    simp only [hsource, Option.bind_some, hbaseline, Option.map_some, keptOperations, Option.toList_none,
      List.nil_append, columnOperations, hmoved]
    generalize compareColumnDefinition alphanumeric baseline column = changes at hcomment hdefinition ⊢
    generalize decide (target.InPlace column.name) = inPlace
    by_cases hmove : (changes.nonCommentChanged || !inPlace) = true
    · -- MODIFY spells out the definition
      have hnot : ¬ ((changes.commentChanged && !changes.nonCommentChanged && !!inPlace) = true) := by
        revert hmove
        cases changes.nonCommentChanged <;> cases inPlace <;> simp
      have hchanged : (changes.definitionChanged || !inPlace) = true := by
        rw [hdefinition]
        revert hmove
        cases changes.nonCommentChanged <;> cases inPlace <;> simp
      rw [if_neg hnot, if_pos hchanged, if_pos hmove]
      exact if_pos rfl
    · obtain ⟨hnon, hplace⟩ : changes.nonCommentChanged = false ∧ inPlace = true := by
        revert hmove
        cases changes.nonCommentChanged <;> cases inPlace <;> simp
      rw [if_neg hmove]
      by_cases hsame : baseline.comment = column.comment
      · have hunchanged : changes.commentChanged = false := by simp [hcomment, hsame]
        simp [hnon, hplace, hdefinition, hunchanged, ← hsame]
      · have hchanged : changes.commentChanged = true := by simp [hcomment, hsame]
        have hdescribed : describedComment (column.comment.getD "") = column.comment :=
          describedComment_getD (haccepted column hcolumn).hcomment
        simp [hnon, hplace, hchanged, columnEffect, hdescribed]

/-! ### Definitions -/

/-- A column has the definition that the target gives it: `table_schema_matches_target` but for the name and
the position. -/
def definitionMatches (alphanumeric : Char → Bool) (actual : ColumnSchema) (expected : CreateColumnTarget) :
    Bool :=
  normalizedExpressionEqual alphanumeric actual.typeName expected.typeName &&
    actual.defaultKind == expected.defaultKind &&
    optionalNormalizedExpressionEqual alphanumeric actual.defaultExpression expected.defaultExpression &&
    optionalTtlExpressionEqual alphanumeric actual.ttlExpression expected.ttlExpression false &&
    actual.comment == expected.comment && actual.editability == .editable &&
    codecMatches alphanumeric actual.codecExpression expected.codecs

theorem columnMatches_eq (index : ℕ) (actual : ColumnSchema) (expected : CreateColumnTarget) :
    columnMatches alphanumeric index actual expected =
      (actual.position == index + 1 && actual.name == expected.name &&
        definitionMatches alphanumeric actual expected) := by
  simp only [columnMatches, definitionMatches, Bool.and_assoc]

/-- **Nothing that a MODIFY was to take away**: a kept column whose MODIFY leaves out a comment, a codec or a
TTL had none before. -/
def AlterTableTarget.NothingRemoved (alphanumeric : Char → Bool) (target : AlterTableTarget) : Prop :=
  ∀ column ∈ target.desired.columns, target.moved alphanumeric column.name = true →
    ∀ baseline, target.source? column.name = some baseline →
      (column.comment = none → baseline.comment = none) ∧
        (column.codecs = [] → baseline.codecExpression = none) ∧
        (column.ttlExpression = none → baseline.ttlExpression = none)

theorem default_columnClauses {column : CreateColumnTarget} (h : ColumnAccepted column) :
    ((columnClauses column).default.map (·.1)).getD .none = column.defaultKind ∧
      (columnClauses column).default.map (·.2) = column.defaultExpression := by
  rw [columnClauses]
  by_cases hkind : column.defaultKind = .none
  · rw [if_pos hkind, h.hdefault.1 hkind]
    exact ⟨hkind.symm, rfl⟩
  · obtain hnone | ⟨expression, hexpression⟩ := Option.eq_none_or_eq_some column.defaultExpression
    · exact absurd (h.hdefault.2 hnone) hkind
    · rw [if_neg hkind, hexpression]
      exact ⟨rfl, rfl⟩

theorem codecMatches_or {codecs : List CodecTarget} {old : Option String} :
    codecMatches alphanumeric ((if codecs = [] then none else some (renderCodecs codecs)).or old) codecs = true ↔
      (codecs = [] → old = none) := by
  rw [codecMatches]
  by_cases h : codecs = []
  · rw [if_pos h, Option.none_or, optionalNormalizedExpressionEqual_none_right]
    exact ⟨fun hold _ ↦ hold, fun hold ↦ hold h⟩
  · rw [if_neg h, Option.some_or]
    exact ⟨fun _ hnil ↦ absurd hnil h, fun _ ↦ optionalNormalizedExpressionEqual_refl _⟩

theorem optionalTtlExpressionEqual_refl (ttl : Option String) (implicit : Bool) :
    optionalTtlExpressionEqual alphanumeric ttl ttl implicit = true :=
  optionalTtlExpressionEqual_of_normalized implicit (optionalNormalizedExpressionEqual_refl ttl)

theorem optionalTtlExpressionEqual_or {ttl old : Option String} :
    optionalTtlExpressionEqual alphanumeric (ttl.or old) ttl false = true ↔ (ttl = none → old = none) := by
  cases ttl with
  | none =>
    cases old with
    | none => exact ⟨fun _ _ ↦ rfl, fun _ ↦ rfl⟩
    | some old => exact ⟨fun h ↦ (nomatch h), fun h ↦ (nomatch h rfl)⟩
  | some ttl => exact ⟨fun _ h ↦ (nomatch h), fun _ ↦ optionalTtlExpressionEqual_refl _ _⟩

theorem comment_or {comment old : Option String} :
    comment.or old = comment ↔ (comment = none → old = none) := by
  cases comment with
  | none => exact ⟨fun h _ ↦ h, fun h ↦ h rfl⟩
  | some comment => exact ⟨fun _ h ↦ (nomatch h), fun _ ↦ rfl⟩

theorem definitionMatches_added {column : CreateColumnTarget} (h : ColumnAccepted column) :
    definitionMatches alphanumeric (addedColumn column.name (columnClauses column)) column = true := by
  obtain ⟨hkind, hexpression⟩ := default_columnClauses h
  have hcodec : codecMatches alphanumeric (columnClauses column).codec column.codecs = true :=
    optionalNormalizedExpressionEqual_refl _
  have httl : optionalTtlExpressionEqual alphanumeric (columnClauses column).ttl column.ttlExpression false =
    true := optionalTtlExpressionEqual_refl _ _
  simp only [definitionMatches, addedColumn, hkind, hexpression, hcodec, httl]
  simp [columnClauses]

/-- A MODIFY gives a column its definition exactly when it has nothing to take away. -/
theorem definitionMatches_modified {column : CreateColumnTarget} (h : ColumnAccepted column)
    {baseline : ColumnSchema} (heditable : baseline.editability = .editable) :
    definitionMatches alphanumeric (modifiedColumn (columnClauses column) baseline) column = true ↔
      (column.comment = none → baseline.comment = none) ∧
        (column.codecs = [] → baseline.codecExpression = none) ∧
        (column.ttlExpression = none → baseline.ttlExpression = none) := by
  obtain ⟨hkind, hexpression⟩ := default_columnClauses h
  have hcodec := @codecMatches_or alphanumeric column.codecs baseline.codecExpression
  have httl := @optionalTtlExpressionEqual_or alphanumeric column.ttlExpression baseline.ttlExpression
  have hcomment := @comment_or column.comment baseline.comment
  simp only [definitionMatches, modifiedColumn, hkind, hexpression, heditable, Bool.and_eq_true, beq_iff_eq]
  simp only [columnClauses, normalizedExpressionEqual_refl, optionalNormalizedExpressionEqual_refl, true_and,
    and_true, hcodec, httl, hcomment]
  tauto

/-- A column that is left alone has its definition, but for the comment. -/
theorem definitionMatches_untouched {column : CreateColumnTarget} {baseline : ColumnSchema}
    (heditable : baseline.editability = .editable)
    (h : (compareColumnDefinition alphanumeric baseline column).nonCommentChanged = false) :
    definitionMatches alphanumeric { baseline with name := column.name, comment := column.comment } column =
      true := by
  simp only [compareColumnDefinition, Bool.or_eq_false_iff, Bool.not_eq_false', bne_eq_false_iff_eq] at h
  obtain ⟨⟨⟨htype, hkind, hexpression⟩, hcodec⟩, httl⟩ := h
  have httl' := optionalTtlExpressionEqual_of_normalized false httl
  simp [definitionMatches, htype, hkind, hexpression, hcodec, httl', heditable]

/-- **The definitions of the columns of the plan** are those of the target exactly when nothing was to be taken
away. -/
theorem finalColumn_matches_iff (h : AlterAccepted alphanumeric target) :
    (∀ column ∈ target.desired.columns,
      definitionMatches alphanumeric (target.finalColumn alphanumeric column) column = true) ↔
        target.NothingRemoved alphanumeric := by
  obtain ⟨-, hdesired, haccepted, -⟩ := validateCreateTableTarget_eq_ok h.hcreate
  refine forall₂_congr fun column hcolumn ↦ ?_
  have hfind : target.desired.columns.find? (·.name == column.name) = some column :=
    find?_of_mem hdesired hcolumn
  rw [AlterTableTarget.finalColumn]
  obtain hnone | ⟨baseline, hbaseline⟩ := Option.eq_none_or_eq_some (target.source? column.name)
  · simp only [hnone, definitionMatches_added (haccepted column hcolumn)]
    simp
  · have heditable : baseline.editability = .editable := by
      obtain ⟨source, -, hsource⟩ := Option.bind_eq_some_iff.1 hbaseline
      obtain ⟨hmem, -⟩ := mem_of_lastNamed hsource
      obtain ⟨-, hall⟩ := ite_error_eq_ok_iff.1 h.hbaseline
      obtain ⟨-, hall⟩ := ite_error_eq_ok_iff.1 hall
      have hcolumns := (ite_error_eq_ok_iff.1 hall).1
      simp only [List.any_eq_true, not_exists, not_and, decide_eq_true_eq, not_not] at hcolumns
      exact hcolumns baseline hmem
    simp only [hbaseline, Option.some.injEq, forall_eq']
    by_cases hmoved : target.moved alphanumeric column.name = true
    · rw [if_pos hmoved, @definitionMatches_modified alphanumeric column (haccepted column hcolumn)
        { baseline with name := column.name } heditable]
      exact ⟨fun hkept _ ↦ hkept, fun hkept ↦ hkept hmoved⟩
    · have hsource : (target.sourceForTarget column.name).bind target.baselineByName = some baseline := hbaseline
      have hold : target.isNew column.name = false := by
        obtain ⟨source, hfrom, -⟩ := Option.bind_eq_some_iff.1 hbaseline
        exact (sourceForTarget_isSome_iff h.hrenames).1 (by rw [hfrom]; rfl)
      have hunchanged : (compareColumnDefinition alphanumeric baseline column).nonCommentChanged = false := by
        simp only [AlterTableTarget.moved, AlterTableTarget.untouched, hfind, hsource, hold] at hmoved
        revert hmoved
        cases (compareColumnDefinition alphanumeric baseline column).nonCommentChanged <;> simp
      rw [if_neg hmoved, definitionMatches_untouched heditable hunchanged]
      simp [hmoved]

/-- Where the columns end in the order of the target, they are those that the plan makes. -/
theorem columns_plan (h : AlterAccepted alphanumeric target) (hnodup : target.baseline.columnNames.Nodup)
    (hrun : TableRun target.baseline (renamePlan target) next)
    (hrest : TableRun next (restPlan alphanumeric target) final)
    (hnames : next.columnNames = target.renamedNames)
    (hfinal : final.columnNames = target.desired.columnNames) :
    final.columns = target.desired.columns.map (target.finalColumn alphanumeric) := by
  refine List.map_injective_iff.2 (Option.some_injective _) ?_
  have hdesired : target.desired.columnNames.Nodup := (validateCreateTableTarget_eq_ok h.hcreate).2.1
  calc final.columns.map some
      = final.columnNames.map final.column? := by
        rw [TableSchema.columnNames, List.map_map]
        refine List.map_congr_left fun column hcolumn ↦ ?_
        have hnodup' : final.columnNames.Nodup := hfinal ▸ hdesired
        exact (find?_of_mem hnodup' hcolumn).symm
    _ = target.desired.columnNames.map final.column? := by rw [hfinal]
    _ = (target.desired.columns.map (target.finalColumn alphanumeric)).map some := by
        rw [CreateTableTarget.columnNames, List.map_map, List.map_map]
        exact List.map_congr_left fun column hcolumn ↦ column?_plan h hnodup hrun hrest hnames hcolumn

/-! ### The properties of the table -/

theorem propertiesStep_of_column (h : operation.isRename = true ∨ operation.column?.isSome = true)
    (table : TableSchema) :
    propertiesStep table operation = table := by
  cases operation with
  | renameColumn => rfl
  | addColumn => rfl
  | modifyColumn => rfl
  | commentColumn => rfl
  | dropColumn => rfl
  | _ => simp [AlterOperation.isRename, AlterOperation.column?] at h

theorem foldl_propertiesStep_of_column {operations : List AlterOperation}
    (h : ∀ operation ∈ operations, operation.isRename = true ∨ operation.column?.isSome = true)
    (table : TableSchema) : operations.foldl propertiesStep table = table := by
  induction operations with
  | nil => rfl
  | cons operation operations ih =>
    obtain ⟨hfirst, hrest⟩ := List.forall_mem_cons.1 h
    rw [List.foldl_cons, propertiesStep_of_column hfirst, ih hrest]

/-- **The properties of the table after a run**, whatever its columns are. -/
theorem TableRun.properties (h : TableRun table operations final) (columns : List ColumnSchema) :
    { final with columns := columns } = operations.foldl propertiesStep { table with columns := columns } := by
  induction h with
  | done => rfl
  | @step table next final operation operations hnodup hstep _ ih =>
    obtain ⟨columns', -, rfl⟩ := Option.map_eq_some_iff.1 hstep
    rw [ih, List.foldl_cons]
    cases operation <;> rfl

/-- The explicit settings that the plan resets. -/
def AlterTableTarget.resetNames (target : AlterTableTarget) : List String :=
  (sortedNames ((target.baseline.settings.filter (·.explicit)).map (·.name))).filter fun name ↦
    (desiredSetting target.desired name).isNone

/-- The settings that the plan sets. -/
def AlterTableTarget.changedSettings (target : AlterTableTarget) : List CreateSettingTarget :=
  (sortedNames (target.desired.settings.map (·.name))).filterMap fun name ↦
    (desiredSetting target.desired name).bind fun value ↦
      if explicitSetting target.baseline name = some value then none else some ⟨name, value⟩

/-- The settings of the table after the plan. -/
def AlterTableTarget.finalSettings (target : AlterTableTarget) : List SettingSchema :=
  (target.baseline.settings.filter fun setting ↦
    setting.name ∉ target.resetNames ∧ setting.name ∉ target.changedSettings.map (·.name)) ++
      target.changedSettings.map fun setting ↦ ⟨setting.name, setting.value, true⟩

theorem mem_sortedNames {name : String} {names : List String} : name ∈ sortedNames names ↔ name ∈ names := by
  rw [sortedNames, (List.perm_insertionSort _ _).mem_iff, List.mem_dedup]

theorem sortedNames_nodup (names : List String) : (sortedNames names).Nodup :=
  (List.perm_insertionSort _ _).nodup_iff.2 (List.nodup_dedup names)

theorem mem_resetNames_iff {name : String} : name ∈ target.resetNames ↔
    (explicitSetting target.baseline name).isSome ∧ desiredSetting target.desired name = none := by
  rw [AlterTableTarget.resetNames, List.mem_filter, mem_sortedNames, explicitSetting, Option.isSome_map,
    lastNamed_isSome_iff, Option.isNone_iff_eq_none]

theorem mem_changedSettings_iff {setting : CreateSettingTarget} : setting ∈ target.changedSettings ↔
    desiredSetting target.desired setting.name = some setting.value ∧
      explicitSetting target.baseline setting.name ≠ some setting.value := by
  rw [AlterTableTarget.changedSettings, List.mem_filterMap]
  constructor
  · rintro ⟨name, -, hsetting⟩
    obtain ⟨value, hvalue, hsome⟩ := Option.bind_eq_some_iff.1 hsetting
    split_ifs at hsome with hsame
    cases hsome
    exact ⟨hvalue, hsame⟩
  · rintro ⟨hvalue, hne⟩
    refine ⟨setting.name, ?_, ?_⟩
    · rw [mem_sortedNames, ← lastNamed_isSome_iff, ← Option.isSome_map (f := (·.value))]
      exact Option.isSome_iff_exists.2 ⟨_, hvalue⟩
    · rw [hvalue, Option.bind_some, if_neg hne]

theorem changedSettings_nodup : (target.changedSettings.map (·.name)).Nodup := by
  have hsub : (target.changedSettings.map (·.name)).Sublist
      (sortedNames (target.desired.settings.map (·.name))) := by
    rw [AlterTableTarget.changedSettings]
    generalize sortedNames (target.desired.settings.map (·.name)) = names
    induction names with
    | nil => exact List.Sublist.slnil
    | cons name names ih =>
      rw [List.filterMap_cons]
      split
      · exact ih.cons _
      · next setting hsetting =>
        obtain ⟨value, -, hsome⟩ := Option.bind_eq_some_iff.1 hsetting
        split_ifs at hsome
        cases hsome
        exact ih.cons_cons _
  exact (sortedNames_nodup _).sublist hsub

theorem foldl_resetSetting (names : List String) (table : TableSchema) :
    (names.map .resetSetting).foldl propertiesStep table =
      { table with settings := table.settings.filter fun setting ↦ setting.name ∉ names } := by
  induction names generalizing table with
  | nil => simp
  | cons name names ih =>
    rw [List.map_cons, List.foldl_cons, ih]
    show ({ table with settings := (table.settings.filter (·.name ≠ name)).filter _ } : TableSchema) = _
    congr 1
    rw [List.filter_filter]
    refine List.filter_congr fun setting _ ↦ ?_
    simp [Bool.and_comm]

theorem foldl_modifySetting {settings : List CreateSettingTarget} (hnodup : (settings.map (·.name)).Nodup)
    (table : TableSchema) :
    (settings.map fun setting ↦ .modifySetting setting.name setting.value).foldl propertiesStep table =
      { table with settings :=
          (table.settings.filter fun setting ↦ setting.name ∉ settings.map (·.name)) ++
            settings.map fun setting ↦ ⟨setting.name, setting.value, true⟩ } := by
  induction settings generalizing table with
  | nil => simp
  | cons first settings ih =>
    obtain ⟨hfirst, hnodup⟩ := List.nodup_cons.1 hnodup
    rw [List.map_cons, List.foldl_cons, ih hnodup]
    have hstep : (propertiesStep table (.modifySetting first.name first.value)).settings =
        table.settings.filter (·.name ≠ first.name) ++ [⟨first.name, first.value, true⟩] := rfl
    show ({ table with settings := _ } : TableSchema) = _
    congr 1
    have hnew : ([⟨first.name, first.value, true⟩] : List SettingSchema).filter
        (fun setting ↦ setting.name ∉ settings.map (·.name)) = [⟨first.name, first.value, true⟩] := by
      simpa using hfirst
    rw [hstep, List.filter_append, hnew, List.filter_filter, List.append_assoc]
    congr 1
    refine List.filter_congr fun setting _ ↦ ?_
    simp [Bool.and_comm]

/-- The table that the plan ends in, but for its columns. -/
def AlterTableTarget.finalTable (alphanumeric : Char → Bool) (target : AlterTableTarget) : TableSchema :=
  { target.baseline with
    keys := { target.baseline.keys with
      sampleBy :=
        if optionalNormalizedExpressionEqual alphanumeric target.baseline.keys.sampleBy
            target.desired.keys.sampleBy then target.baseline.keys.sampleBy
        else target.desired.keys.sampleBy }
    tableTtl :=
      if optionalNormalizedExpressionEqual alphanumeric target.baseline.tableTtl target.desired.tableTtl then
        target.baseline.tableTtl
      else target.desired.tableTtl
    settings := target.finalSettings
    comment := target.desired.comment }

/-- The operation on the sampling key, if there is one. -/
def sampleByOperations (alphanumeric : Char → Bool) (target : AlterTableTarget) : List AlterOperation :=
  if optionalNormalizedExpressionEqual alphanumeric target.baseline.keys.sampleBy target.desired.keys.sampleBy
  then [] else match target.desired.keys.sampleBy with
    | some expression => [.modifySampleBy expression]
    | none => [.removeSampleBy]

/-- The operation on the TTL of the table, if there is one. -/
def tableTtlOperations (alphanumeric : Char → Bool) (target : AlterTableTarget) : List AlterOperation :=
  if optionalNormalizedExpressionEqual alphanumeric target.baseline.tableTtl target.desired.tableTtl
  then [] else match target.desired.tableTtl with
    | some expression => [.modifyTableTtl expression]
    | none => [.removeTableTtl]

/-- The operation on the comment of the table, if there is one. -/
def tableCommentOperations (target : AlterTableTarget) : List AlterOperation :=
  if target.baseline.comment ≠ target.desired.comment then
    [.modifyTableComment (target.desired.comment.getD "")]
  else []

theorem tableOperations_eq : tableOperations alphanumeric target =
    sampleByOperations alphanumeric target ++ tableTtlOperations alphanumeric target ++
      target.resetNames.map .resetSetting ++
      target.changedSettings.map (fun setting ↦ .modifySetting setting.name setting.value) ++
      tableCommentOperations target := by
  have hchanges : ((sortedNames (target.desired.settings.map (·.name))).filterMap fun name ↦
      (desiredSetting target.desired name).bind fun value ↦
        if explicitSetting target.baseline name = some value then none
        else some (AlterOperation.modifySetting name value)) =
      target.changedSettings.map fun setting ↦ .modifySetting setting.name setting.value := by
    rw [AlterTableTarget.changedSettings, List.map_filterMap]
    refine List.filterMap_congr fun name _ ↦ ?_
    cases desiredSetting target.desired name with
    | none => rfl
    | some value =>
      simp only [Option.bind_some]
      split_ifs <;> rfl
  rw [← hchanges]
  rfl

/-- The table after the operations on its properties. -/
theorem foldl_tableOperations (h : AlterAccepted alphanumeric target) (columns : List ColumnSchema) :
    (tableOperations alphanumeric target).foldl propertiesStep { target.baseline with columns := columns } =
      { target.finalTable alphanumeric with columns := columns } := by
  obtain ⟨-, -, -, hcomment⟩ := validateCreateTableTarget_eq_ok h.hcreate
  have hsample : ∀ table : TableSchema, table.keys = target.baseline.keys →
      (sampleByOperations alphanumeric target).foldl propertiesStep table =
        { table with keys := (target.finalTable alphanumeric).keys } := by
    intro table hkeys
    rw [sampleByOperations]
    simp only [AlterTableTarget.finalTable, ← hkeys]
    by_cases hsame : optionalNormalizedExpressionEqual alphanumeric table.keys.sampleBy
        target.desired.keys.sampleBy = true
    · rw [if_pos hsame, if_pos hsame]
      rfl
    · rw [if_neg hsame, if_neg hsame]
      cases target.desired.keys.sampleBy <;> rfl
  have httl : ∀ table : TableSchema, table.tableTtl = target.baseline.tableTtl →
      (tableTtlOperations alphanumeric target).foldl propertiesStep table =
        { table with tableTtl := (target.finalTable alphanumeric).tableTtl } := by
    intro table hsame
    rw [tableTtlOperations]
    simp only [AlterTableTarget.finalTable, ← hsame]
    by_cases hequal : optionalNormalizedExpressionEqual alphanumeric table.tableTtl target.desired.tableTtl = true
    · rw [if_pos hequal, if_pos hequal]
      rfl
    · rw [if_neg hequal, if_neg hequal]
      cases target.desired.tableTtl <;> rfl
  have hlast : ∀ table : TableSchema, table.comment = target.baseline.comment →
      (tableCommentOperations target).foldl propertiesStep table =
        { table with comment := target.desired.comment } := by
    intro table hsame
    rw [tableCommentOperations]
    split_ifs with hchanged
    · show ({ table with comment := describedComment _ } : TableSchema) = _
      rw [describedComment_getD hcomment]
    · rw [not_not] at hchanged
      rw [← hchanged, ← hsame]
      rfl
  have hsettings : ∀ settings : List SettingSchema,
      ((settings.filter fun setting ↦ setting.name ∉ target.resetNames).filter fun setting ↦
        setting.name ∉ target.changedSettings.map (·.name)) =
        settings.filter fun setting ↦
          setting.name ∉ target.resetNames ∧ setting.name ∉ target.changedSettings.map (·.name) := by
    intro settings
    rw [List.filter_filter]
    refine List.filter_congr fun setting _ ↦ ?_
    simp [Bool.and_comm]
  rw [tableOperations_eq, List.foldl_append, List.foldl_append, List.foldl_append, List.foldl_append,
    hsample { target.baseline with columns := columns } rfl,
    httl { target.baseline with columns := columns, keys := (target.finalTable alphanumeric).keys } rfl,
    foldl_resetSetting, foldl_modifySetting changedSettings_nodup, hsettings]
  exact hlast _ rfl

/-- **The properties of the table after the plan.** -/
theorem properties_plan (h : AlterAccepted alphanumeric target)
    (hrun : TableRun target.baseline (alterPlan alphanumeric target) final) :
    final = { target.finalTable alphanumeric with columns := final.columns } := by
  have hcolumn : ∀ operation ∈ renamePlan target ++
      target.desired.columns.zipIdx.filterMap (addOperation target) ++
      (target.desired.columns.zipIdx.flatMap fun entry ↦ (keptOperations alphanumeric target entry).1) ++
      (target.desired.columns.zipIdx.flatMap fun entry ↦ (keptOperations alphanumeric target entry).2),
      operation.isRename = true ∨ operation.column?.isSome = true := by
    intro operation hmem
    simp only [List.mem_append, List.mem_filterMap, List.mem_flatMap] at hmem
    obtain ((hop | ⟨entry, -, hop⟩) | ⟨entry, -, hop⟩) | ⟨entry, -, hop⟩ := hmem
    · obtain ⟨_, -, rfl⟩ := List.mem_map.1 hop
      exact .inl rfl
    · exact .inr (by rw [column?_addOperation entry operation (by simpa using hop)]; rfl)
    · exact .inr (by rw [((column?_keptOperations entry).1 operation hop).1]; rfl)
    · exact .inr (by rw [((column?_keptOperations entry).2 operation hop).1]; rfl)
  have hdrop : ∀ operation ∈ dropOperations target, operation.isRename = true ∨ operation.column?.isSome = true := by
    intro operation hmem
    obtain ⟨_, -, rfl⟩ := List.mem_map.1 hmem
    exact .inr rfl
  have hproperties := hrun.properties final.columns
  rw [alterPlan, List.foldl_append, List.foldl_append, foldl_propertiesStep_of_column hcolumn,
    foldl_propertiesStep_of_column hdrop, foldl_tableOperations h] at hproperties
  exact hproperties

/-! ### When the target is reached -/

/-- **The settings that keep their value have it once**: an explicit setting whose value the plan leaves has
that value in every entry of its name, or is the default that the comparison leaves out. -/
def AlterTableTarget.SettingsAgree (target : AlterTableTarget) : Prop :=
  ∀ setting ∈ target.baseline.settings, setting.explicit = true →
    ∀ value, explicitSetting target.baseline setting.name = some value →
      desiredSetting target.desired setting.name = some value →
        setting.value = value ∨ isCanonicalMergeTreeDefaultSetting setting.name setting.value = true

theorem desiredSetting_eq_some_iff (hnodup : (target.desired.settings.map (·.name)).Nodup) {name value : String} :
    desiredSetting target.desired name = some value ↔ ⟨name, value⟩ ∈ target.desired.settings := by
  rw [desiredSetting, Option.map_eq_some_iff]
  constructor
  · rintro ⟨setting, hlast, rfl⟩
    obtain ⟨hmem, rfl⟩ := mem_of_lastNamed hlast
    exact hmem
  · intro hmem
    exact ⟨⟨name, value⟩, @lastNamed_of_mem _ (fun s : CreateSettingTarget ↦ s.name) _ ⟨name, value⟩ hnodup hmem,
      rfl⟩

theorem explicitSettingsMatch_iff (h : AlterAccepted alphanumeric target) {schema : TableSchema}
    (hsettings : schema.settings = target.finalSettings) :
    explicitSettingsMatch target.desired schema = true ↔ target.SettingsAgree := by
  have hnodup := settings_nodup_of_ok h.hcreate
  have hdesired := @desiredSetting_eq_some_iff target hnodup
  -- every setting of the target is there, kept or changed
  have hfirst : ∀ setting ∈ target.desired.settings,
      ∃ other ∈ target.finalSettings, other.name = setting.name ∧ other.value = setting.value := by
    intro setting hmem
    have hwanted := hdesired.2 hmem
    by_cases hsame : explicitSetting target.baseline setting.name = some setting.value
    · obtain ⟨other, hlast, hvalue⟩ := Option.map_eq_some_iff.1 hsame
      obtain ⟨hother, hname⟩ := mem_of_lastNamed hlast
      refine ⟨other, List.mem_append_left _ (List.mem_filter.2 ⟨List.mem_of_mem_filter hother, ?_⟩), hname, hvalue⟩
      rw [decide_eq_true_eq, hname, mem_resetNames_iff]
      refine ⟨fun hreset ↦ ?_, fun hchanged ↦ ?_⟩
      · rw [hwanted] at hreset
        exact absurd hreset.2 (by simp)
      · obtain ⟨changed, hchanged, hchangedname⟩ := List.mem_map.1 hchanged
        obtain ⟨hvalue', hne⟩ := mem_changedSettings_iff.1 hchanged
        rw [hchangedname, hwanted] at hvalue'
        rw [hchangedname, ← hvalue'] at hne
        exact hne hsame
    · refine ⟨⟨setting.name, setting.value, true⟩, List.mem_append_right _ (List.mem_map.2 ⟨setting, ?_, rfl⟩),
        rfl, rfl⟩
      exact mem_changedSettings_iff.2 ⟨hwanted, hsame⟩
  rw [explicitSettingsMatch, hsettings, Bool.and_eq_true]
  constructor
  · rintro ⟨-, hall⟩ setting hmem hexplicit value hbaseline hvalue
    have hkept : setting ∈ target.finalSettings.filter (·.explicit) := by
      refine List.mem_filter.2 ⟨List.mem_append_left _ (List.mem_filter.2 ⟨hmem, ?_⟩), hexplicit⟩
      rw [decide_eq_true_eq, mem_resetNames_iff]
      refine ⟨fun hreset ↦ ?_, fun hchanged ↦ ?_⟩
      · rw [hvalue] at hreset
        exact absurd hreset.2 (by simp)
      · obtain ⟨changed, hchanged, hchangedname⟩ := List.mem_map.1 hchanged
        obtain ⟨hvalue', hne⟩ := mem_changedSettings_iff.1 hchanged
        rw [hchangedname, hvalue] at hvalue'
        rw [hchangedname, ← hvalue'] at hne
        exact hne hbaseline
    have hsetting := List.all_eq_true.1 hall setting hkept
    rw [Bool.or_eq_true, List.any_eq_true] at hsetting
    refine hsetting.imp_left fun hother ↦ ?_
    obtain ⟨other, hother, heq⟩ := hother
    simp only [Bool.and_eq_true, beq_iff_eq] at heq
    have hwanted := hdesired.2 hother
    rw [heq.1, hvalue] at hwanted
    rw [← heq.2, Option.some.inj hwanted]
  · intro hagree
    refine ⟨List.all_eq_true.2 fun setting hmem ↦ ?_, List.all_eq_true.2 fun setting hmem ↦ ?_⟩
    · obtain ⟨other, hother, hname, hvalue⟩ := hfirst setting hmem
      exact List.any_eq_true.2 ⟨other, hother, by simp [hname, hvalue]⟩
    · obtain ⟨hmem, hexplicit⟩ := List.mem_filter.1 hmem
      rw [Bool.or_eq_true, List.any_eq_true]
      obtain hmem | hmem := List.mem_append.1 hmem
      · obtain ⟨hmem, hkept⟩ := List.mem_filter.1 hmem
        rw [decide_eq_true_eq, mem_resetNames_iff] at hkept
        obtain ⟨hreset, hchanged⟩ := hkept
        have hsome : (explicitSetting target.baseline setting.name).isSome = true := by
          rw [explicitSetting, Option.isSome_map, lastNamed_isSome_iff]
          exact List.mem_map_of_mem (List.mem_filter.2 ⟨hmem, hexplicit⟩)
        obtain ⟨value, hvalue⟩ := Option.ne_none_iff_exists'.1 fun hnone ↦ hreset ⟨hsome, hnone⟩
        have hbaseline : explicitSetting target.baseline setting.name = some value := by
          by_contra hne
          exact hchanged (List.mem_map.2
            ⟨⟨setting.name, value⟩, mem_changedSettings_iff.2 ⟨hvalue, hne⟩, rfl⟩)
        refine (hagree setting hmem hexplicit value hbaseline hvalue).imp_left fun heq ↦ ?_
        exact ⟨⟨setting.name, value⟩, hdesired.1 hvalue, by simp [heq]⟩
      · obtain ⟨changed, hchanged, rfl⟩ := List.mem_map.1 hmem
        exact .inl ⟨changed, hdesired.1 (mem_changedSettings_iff.1 hchanged).1, by simp⟩

/-- The comparison of the columns, as they are described, with those of a target. -/
theorem columnMatches_zip_iff (columns : List ColumnSchema) (expected : List CreateColumnTarget) (index : ℕ) :
    (columns.length = expected.length ∧
      ((((columns.zipIdx index).map fun entry ↦
        ({ entry.1 with position := entry.2 + 1 } : ColumnSchema)).zip expected).zipIdx index).all
          (fun pair ↦ columnMatches alphanumeric pair.2 pair.1.1 pair.1.2) = true) ↔
      List.Forall₂ (fun column wanted ↦
        column.name = wanted.name ∧ definitionMatches alphanumeric column wanted = true) columns expected := by
  induction columns generalizing expected index with
  | nil =>
    cases expected with
    | nil => simp
    | cons wanted expected => simp
  | cons column columns ih =>
    cases expected with
    | nil => simp
    | cons wanted expected =>
      rw [List.forall₂_cons, ← ih expected (index + 1), List.zipIdx_cons, List.map_cons, List.zip_cons_cons,
        List.zipIdx_cons, List.all_cons, columnMatches_eq, List.length_cons, List.length_cons]
      have hdefinition : definitionMatches alphanumeric ({ column with position := index + 1 } : ColumnSchema)
          wanted = definitionMatches alphanumeric column wanted := rfl
      simp only [hdefinition, Bool.and_eq_true, beq_iff_eq, Nat.add_right_cancel_iff, true_and]
      tauto

/-- What the checks on the baseline and the difference of the unchangeable parts have established. -/
theorem finalTable_fixed (h : AlterAccepted alphanumeric target) :
    target.baseline.identity.objectKind = .table ∧ target.baseline.editability = .editable ∧
      target.baseline.identity.database = target.desired.database ∧
      target.baseline.identity.name = target.desired.name ∧ target.baseline.projections = [] ∧
      target.baseline.skippingIndexes = [] ∧ target.baseline.engine.family = target.desired.engine.family ∧
      expressionSlicesEqual alphanumeric target.baseline.engine.arguments target.desired.engine.arguments = true ∧
      normalizedExpressionEqual alphanumeric target.baseline.keys.orderBy target.desired.keys.orderBy = true ∧
      optionalNormalizedExpressionEqual alphanumeric target.baseline.keys.partitionBy
        target.desired.keys.partitionBy = true ∧
      optionalNormalizedExpressionEqual alphanumeric target.baseline.keys.primaryKey
        target.desired.keys.primaryKey = true := by
  obtain ⟨hidentity, hrest⟩ := ite_error_eq_ok_iff.1 h.hbaseline
  have heditable := (ite_error_eq_ok_iff.1 hrest).1
  have hsame := (ite_error_eq_ok_iff.1 h.hidentity).1
  obtain ⟨hengine, hrest⟩ := ite_error_eq_ok_iff.1 h.hkeys
  have hkeys := (ite_error_eq_ok_iff.1 hrest).1
  have hobjects := (ite_error_eq_ok_iff.1 h.hobjects).1
  simp only [not_or, not_not, Bool.not_eq_true', Bool.not_eq_false] at *
  exact ⟨hidentity.1, heditable, hsame.1, hsame.2, hobjects.1, hobjects.2, hengine.1, hengine.2, hkeys.1,
    hkeys.2.1, hkeys.2.2⟩

/-- The comparison of the table that the plan ends in comes down to its columns and its settings. -/
theorem tableSchemaMatchesTarget_iff (h : AlterAccepted alphanumeric target)
    (hfinal : final = { target.finalTable alphanumeric with columns := final.columns }) :
    tableSchemaMatchesTarget alphanumeric target.desired (described final) = true ↔
      List.Forall₂ (fun column wanted ↦
        column.name = wanted.name ∧ definitionMatches alphanumeric column wanted = true)
        final.columns target.desired.columns ∧ target.SettingsAgree := by
  obtain ⟨hkind, heditable, hdatabase, hname, hprojections, hindexes, hfamily, harguments, horder, hpartition,
    hprimary⟩ := finalTable_fixed h
  have hcolumns := @columnMatches_zip_iff alphanumeric final.columns target.desired.columns 0
  have hsettings := explicitSettingsMatch_iff h (show (described final).settings = target.finalSettings by
    rw [hfinal]
    rfl)
  have hsample : optionalNormalizedExpressionEqual alphanumeric (target.finalTable alphanumeric).keys.sampleBy
      target.desired.keys.sampleBy = true := by
    simp only [AlterTableTarget.finalTable]
    split_ifs with hsame
    · exact hsame
    · exact optionalNormalizedExpressionEqual_refl _
  have httl : optionalTtlExpressionEqual alphanumeric (target.finalTable alphanumeric).tableTtl
      target.desired.tableTtl true = true := by
    refine optionalTtlExpressionEqual_of_normalized true ?_
    simp only [AlterTableTarget.finalTable]
    split_ifs with hsame
    · exact hsame
    · exact optionalNormalizedExpressionEqual_refl _
  have hidentity : (described final).identity = target.baseline.identity := by rw [hfinal]; rfl
  have hedit : (described final).editability = target.baseline.editability := by rw [hfinal]; rfl
  have hprojection : (described final).projections = target.baseline.projections := by rw [hfinal]; rfl
  have hindex : (described final).skippingIndexes = target.baseline.skippingIndexes := by rw [hfinal]; rfl
  have hengine : (described final).engine = target.baseline.engine := by rw [hfinal]; rfl
  have hkeys : (described final).keys = (target.finalTable alphanumeric).keys := by rw [hfinal]; rfl
  have htablettl : (described final).tableTtl = (target.finalTable alphanumeric).tableTtl := by rw [hfinal]; rfl
  have hcomment : (described final).comment = target.desired.comment := by rw [hfinal]; rfl
  have horders : (target.finalTable alphanumeric).keys.orderBy = target.baseline.keys.orderBy := rfl
  have hpartitions : (target.finalTable alphanumeric).keys.partitionBy = target.baseline.keys.partitionBy := rfl
  have hprimaries : (target.finalTable alphanumeric).keys.primaryKey = target.baseline.keys.primaryKey := rfl
  have hlength : (described final).columns.length = final.columns.length := by simp [described]
  rw [← hcolumns, ← hsettings]
  simp only [tableSchemaMatchesTarget, hidentity, hedit, hprojection, hindex, hengine, hkeys, htablettl, hcomment,
    hdatabase, hname, hkind, heditable, hprojections, hindexes, hfamily, harguments, horders, horder, hpartitions,
    hpartition, hprimaries, hprimary, hsample, httl, hlength, Bool.and_eq_true, beq_iff_eq, List.isEmpty_nil,
    true_and, and_true]
  rfl

theorem TableRun.foldlM (h : TableRun table operations final) : operations.foldlM tableStep table = some final := by
  induction h with
  | done => rfl
  | step _ hstep _ ih =>
    rw [List.foldlM_cons, hstep]
    exact ih

namespace Sample

/-- A column with a TTL that is to lose it. -/
def expiring : AlterTableTarget :=
  ⟨Sample.table [column "d" 1, { column "a" 2 with ttlExpression := some "d + 1" }],
    tableTarget [columnTarget "d", columnTarget "a"], []⟩

/-- A column that is to get a TTL, and a new column. -/
def extended : AlterTableTarget :=
  ⟨Sample.table [column "d" 1, column "a" 2],
    tableTarget [columnTarget "d", { columnTarget "a" with ttlExpression := some "d + 1" }, columnTarget "x"], []⟩

end Sample

end ClickHouse
