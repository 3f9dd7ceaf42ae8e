import Mathlib.Data.List.Pairwise
import NexusPilot.ClickHouse.AlterSpec

/-!
# The order of the columns after an alteration

The operations of `diff_alter_table` run on the list of column names of the baseline, as the server runs
them: RENAME keeps the place, ADD and MODIFY with FIRST or AFTER put the column there, DROP removes it.
The plan always runs, but it does not always end in the order of the target: a kept column that is moved
leaves the new columns behind, which were put behind it before, and a column that the simulation finds at
its index is not moved although the simulation no longer is the order of the server.
`reachesOrder_iff` says exactly when the order of the target is reached.
-/

namespace ClickHouse

open Drivers Text Machine

/-! ### The server -/

/-- An operation on the list of column names; nothing where it names a column that is not there. -/
def orderStep (names : List String) : AlterOperation → Option (List String)
  | .renameColumn from_ to_ _ =>
    if from_ ∈ names then some (names.map fun name ↦ if name = from_ then to_ else name) else none
  | .addColumn column position => insertBehind id position.neighbour column.name names
  | .modifyColumn column position .. => moveBehind position.neighbour column.name names
  | .commentColumn name .. => if name ∈ names then some names else none
  | .dropColumn name _ => if name ∈ names then some (names.erase name) else none
  | _ => some names

/-- A run of operations in which every column that is named is there, and in which at no point two
columns have one name. -/
inductive OrderRun : List String → List AlterOperation → List String → Prop
  | done {names : List String} : names.Nodup → OrderRun names [] names
  | step {names next final : List String} {operation : AlterOperation} {operations : List AlterOperation} :
      names.Nodup → orderStep names operation = some next → OrderRun next operations final →
        OrderRun names (operation :: operations) final

variable {alphanumeric : Char → Bool} {target : AlterTableTarget} {names next final : List String}
  {operations rest : List AlterOperation}

theorem OrderRun.nodup (h : OrderRun names operations final) : names.Nodup := by
  cases h with
  | done h => exact h
  | step h => exact h

theorem OrderRun.nodup_final (h : OrderRun names operations final) : final.Nodup := by
  induction h with
  | done h => exact h
  | step _ _ _ ih => exact ih

theorem OrderRun.append (h : OrderRun names operations next) (h' : OrderRun next rest final) :
    OrderRun names (operations ++ rest) final := by
  induction h with
  | done => exact h'
  | step hnodup hstep _ ih => exact .step hnodup hstep (ih h')

/-- A run has one end. -/
theorem OrderRun.unique {final' : List String} (h : OrderRun names operations final)
    (h' : OrderRun names operations final') : final = final' := by
  induction h with
  | done =>
    cases h'
    rfl
  | step _ hstep _ ih =>
    cases h' with
    | step _ hstep' hrest' =>
      rw [hstep] at hstep'
      cases hstep'
      exact ih hrest'

/-! ### Operations that leave the order as it is -/

/-- An operation that names only columns that are there, and moves none. -/
theorem orderRun_of_forall (hnodup : names.Nodup)
    (h : ∀ operation ∈ operations, orderStep names operation = some names) :
    OrderRun names operations names := by
  induction operations with
  | nil => exact .done hnodup
  | cons operation operations ih =>
    obtain ⟨hfirst, hrest⟩ := List.forall_mem_cons.1 h
    exact .step hnodup hfirst (ih hrest)

theorem orderRun_tableOperations (hnodup : names.Nodup) :
    OrderRun names (tableOperations alphanumeric target) names := by
  refine orderRun_of_forall hnodup fun operation hmem ↦ ?_
  simp only [tableOperations, List.mem_append, List.mem_map, List.mem_filterMap, Option.bind_eq_some_iff]
    at hmem
  obtain (((hmem | hmem) | ⟨_, -, rfl⟩) | ⟨_, -, _, -, hmem⟩) | hmem := hmem
  · split_ifs at hmem
    · cases hmem
    · split at hmem
      · rw [List.mem_singleton.1 hmem]
        rfl
      · rw [List.mem_singleton.1 hmem]
        rfl
  · split_ifs at hmem
    · cases hmem
    · split at hmem
      · rw [List.mem_singleton.1 hmem]
        rfl
      · rw [List.mem_singleton.1 hmem]
        rfl
  · rfl
  · split_ifs at hmem
    cases hmem
    rfl
  · split_ifs at hmem
    · rw [List.mem_singleton.1 hmem]
      rfl
    · cases hmem

/-! ### Renames -/

/-- Renames whose sources and targets are distinct, whose sources are there and whose targets are not. -/
theorem orderRun_renames {renames : List (ColumnRenameIntent × ℕ)} {renamed : String → String}
    (hnodup : names.Nodup) (hsources : (renames.map fun r ↦ r.1.from_).Nodup)
    (htargets : (renames.map fun r ↦ r.1.to_).Nodup) (hexisting : ∀ r ∈ renames, r.1.from_ ∈ names)
    (hfresh : ∀ r ∈ renames, r.1.to_ ∉ names)
    (hrenamed : ∀ r ∈ renames, renamed r.1.from_ = r.1.to_)
    (hkept : ∀ name ∈ names, name ∉ renames.map (fun r ↦ r.1.from_) → renamed name = name) :
    OrderRun names (renames.map fun r ↦ .renameColumn r.1.from_ r.1.to_ r.2) (names.map renamed) := by
  induction renames generalizing names renamed with
  | nil =>
    have hsame : names.map renamed = names := by
      conv_rhs => rw [← List.map_id names]
      exact List.map_congr_left fun name hname ↦ hkept name hname (by simp)
    rw [hsame]
    exact .done hnodup
  | cons rename renames ih =>
    obtain ⟨hsource, hsources⟩ := List.nodup_cons.1 hsources
    obtain ⟨htarget, htargets⟩ := List.nodup_cons.1 htargets
    obtain ⟨hfrom, hexisting⟩ := List.forall_mem_cons.1 hexisting
    obtain ⟨hto, hfresh⟩ := List.forall_mem_cons.1 hfresh
    obtain ⟨hfirst, hrenamed⟩ := List.forall_mem_cons.1 hrenamed
    -- the rest of the renames, after this one
    have hmapped : names.map renamed = (names.map fun name ↦
        if name = rename.1.from_ then rename.1.to_ else name).map fun name ↦
          if name = rename.1.to_ then rename.1.to_ else renamed name := by
      rw [List.map_map]
      refine List.map_congr_left fun name hname ↦ ?_
      simp only [Function.comp_apply]
      by_cases heq : name = rename.1.from_
      · rw [if_pos heq, if_pos rfl, heq, hfirst]
      · rw [if_neg heq, if_neg (ne_of_mem_of_not_mem hname hto)]
    have hmem : ∀ name, name ∈ names → name ≠ rename.1.from_ →
        name ∈ names.map fun name ↦ if name = rename.1.from_ then rename.1.to_ else name :=
      fun name hname hne ↦ List.mem_map.2 ⟨name, hname, if_neg hne⟩
    refine .step hnodup (by rw [orderStep, if_pos hfrom]) ?_
    rw [hmapped]
    refine ih ?_ hsources htargets (fun r hr ↦ ?_) (fun r hr ↦ ?_) (fun r hr ↦ ?_) fun name hname hnot ↦ ?_
    · refine List.Nodup.map_on (fun a ha b hb heq ↦ ?_) hnodup
      split_ifs at heq with hafrom hbfrom hbfrom
      · rw [hafrom, hbfrom]
      · exact absurd (heq ▸ hb) hto
      · exact absurd (heq ▸ ha) hto
      · exact heq
    · exact hmem _ (hexisting r hr) fun heq ↦ hsource (List.mem_map.2 ⟨r, hr, heq⟩)
    · intro hin
      obtain ⟨name, hname, heq⟩ := List.mem_map.1 hin
      split_ifs at heq with hfrom'
      · exact htarget (List.mem_map.2 ⟨r, hr, heq.symm⟩)
      · exact hfresh r hr (heq ▸ hname)
    · rw [if_neg fun heq : r.1.from_ = rename.1.to_ ↦ hto (heq ▸ hexisting r hr), hrenamed r hr]
    · obtain ⟨old, hold, rfl⟩ := List.mem_map.1 hname
      by_cases heq : old = rename.1.from_
      · rw [if_pos heq, if_pos rfl]
      · rw [if_neg heq] at hnot ⊢
        rw [if_neg (ne_of_mem_of_not_mem hold hto)]
        exact hkept old hold (by simpa [heq] using hnot)

/-! ### New columns -/

/-- The names that are no columns of the target. -/
def outside (desired names : List String) : List String :=
  names.filter fun name ↦ name ∉ desired

/-- The names that are columns of the target. -/
def within (desired names : List String) : List String :=
  names.filter fun name ↦ name ∈ desired

/-- The operations that add columns, on the server: among the columns of the target they are the
insertions of the plan, and the other columns stay. -/
theorem orderRun_adds {before rest : List CreateColumnTarget}
    (hsplit : target.desired.columns = before ++ rest) (hdesired : target.desired.columnNames.Nodup)
    (hnodup : names.Nodup) {order : List String}
    (hinsert : insertNew target.isNew (before.map (·.name)).getLast? (rest.map (·.name))
      (within target.desired.columnNames names) = some order)
    (hprev : ∀ name ∈ (before.map (·.name)).getLast?, name ∈ names)
    (hmem : ∀ name ∈ rest.map (·.name), name ∈ names ↔ target.isNew name = false) :
    ∃ final, OrderRun names ((rest.zipIdx before.length).filterMap (addOperation target)) final ∧
      within target.desired.columnNames final = order ∧
      (outside target.desired.columnNames final).Perm (outside target.desired.columnNames names) := by
  induction rest generalizing before names with
  | nil =>
    cases hinsert
    exact ⟨names, .done hnodup, rfl, List.Perm.refl _⟩
  | cons column rest ih =>
    obtain ⟨hnext, hlast, hlength⟩ := passed hsplit
    have hnames : target.desired.columnNames = before.map (·.name) ++ column.name :: rest.map (·.name) := by
      rw [CreateTableTarget.columnNames, hsplit, List.map_append, List.map_cons]
    have hin : column.name ∈ target.desired.columnNames := by simp [hnames]
    have hnot : ∀ name ∈ rest.map (·.name), name ≠ column.name := by
      rw [hnames] at hdesired
      have hcons := (List.nodup_append.1 hdesired).2.1
      exact fun name hname heq ↦ (List.nodup_cons.1 hcons).1 (heq ▸ hname)
    obtain ⟨hcolumn, hmem⟩ := List.forall_mem_cons.1 hmem
    rw [List.map_cons, insertNew] at hinsert
    rw [List.zipIdx_cons, List.filterMap_cons, addOperation]
    by_cases hnew : target.isNew column.name = true
    · rw [if_pos hnew] at hinsert
      rw [if_pos hnew]
      obtain ⟨next, hstep⟩ := insertBehind_isSome (x := column.name) hprev
      have hperm := insertBehind_perm hstep
      have hnextnodup : next.Nodup := by
        refine hperm.nodup_iff.2 (List.nodup_cons.2 ⟨fun hmem ↦ ?_, hnodup⟩)
        simp [hcolumn.1 hmem] at hnew
      have hprevin : ∀ name ∈ (before.map (·.name)).getLast?, decide (name ∈ target.desired.columnNames) := by
        intro name hname
        have := List.mem_of_getLast? hname
        simp [hnames, this]
      have hseen := insertBehind_filter (q := fun name ↦ decide (name ∈ target.desired.columnNames)) hstep
        (by simpa using hin) hprevin
      obtain ⟨order₁, hinsert₁, hinsert₂⟩ := Option.bind_eq_some_iff.1 hinsert
      rw [within, hseen] at hinsert₁
      cases hinsert₁
      rw [← hlast] at hinsert₂
      have hprev' : ∀ name ∈ ((before ++ [column]).map (·.name)).getLast?, name ∈ next := by
        rw [hlast]
        rintro _ ⟨⟩
        exact hperm.mem_iff.2 (by simp)
      obtain ⟨final, hrun, hwithin, houtside⟩ := ih hnext hnextnodup hinsert₂ hprev' fun name hname ↦ by
        rw [hperm.mem_iff, List.mem_cons, ← hmem name hname]
        exact or_iff_right (hnot name hname)
      rw [hlength] at hrun
      refine ⟨final, .step hnodup ?_ hrun, hwithin, houtside.trans ?_⟩
      · rw [orderStep, hsplit, desiredPosition_neighbour, hstep]
      · have hfilter := (hperm.filter fun name ↦ decide (name ∉ target.desired.columnNames))
        rwa [List.filter_cons_of_neg (by simpa using hin)] at hfilter
    · rw [if_neg hnew] at hinsert ⊢
      rw [← hlast] at hinsert
      have hprev' : ∀ name ∈ ((before ++ [column]).map (·.name)).getLast?, name ∈ names := by
        rw [hlast]
        rintro _ ⟨⟩
        exact hcolumn.2 (by simpa using hnew)
      obtain ⟨final, hrun, hwithin, houtside⟩ := ih hnext hnodup hinsert hprev' hmem
      rw [hlength] at hrun
      exact ⟨final, hrun, hwithin, houtside⟩

/-! ### Moved columns -/

/-- **A column that the plan leaves alone**, but for its comment: a kept column whose definition does not
change and that the plan finds in place. -/
def AlterTableTarget.untouched (alphanumeric : Char → Bool) (target : AlterTableTarget) (name : String) :
    Bool :=
  match target.desired.columns.find? (·.name == name), (target.sourceForTarget name).bind
      target.baselineByName with
  | some column, some baseline =>
    !(compareColumnDefinition alphanumeric baseline column).nonCommentChanged && target.InPlace name
  | _, _ => false

/-- A kept column that MODIFY puts to its place. -/
def AlterTableTarget.moved (alphanumeric : Char → Bool) (target : AlterTableTarget) (name : String) :
    Bool :=
  !target.isNew name && !target.untouched alphanumeric name

/-- The MODIFY of a column, or nothing. -/
theorem columnOperations_fst {desired : CreateColumnTarget} {index : ℕ} {sourceName : String}
    {baseline : ColumnSchema} {positionChanged : Bool} :
    (columnOperations alphanumeric target desired index sourceName baseline positionChanged).1 =
      if (compareColumnDefinition alphanumeric baseline desired).nonCommentChanged || positionChanged then
        [.modifyColumn desired (desiredPosition target.desired.columns index) sourceName
          (compareColumnDefinition alphanumeric baseline desired).definitionChanged positionChanged
          (compareColumnDefinition alphanumeric baseline desired).typeChanged
          (compareColumnDefinition alphanumeric baseline desired).codecChanged
          (compareColumnDefinition alphanumeric baseline desired).ttlChanged]
      else [] := by
  have hdefinition : (compareColumnDefinition alphanumeric baseline desired).definitionChanged =
      ((compareColumnDefinition alphanumeric baseline desired).nonCommentChanged ||
        (compareColumnDefinition alphanumeric baseline desired).commentChanged) := rfl
  rw [columnOperations]
  generalize compareColumnDefinition alphanumeric baseline desired = changes at hdefinition ⊢
  cases hnon : changes.nonCommentChanged <;> cases hcomment : changes.commentChanged <;>
    cases positionChanged <;> simp [hdefinition, hnon, hcomment]

/-- The MODIFY of a column of the target: it is moved behind the column before it, or not named. -/
theorem keptOperations_fst (h : RenamesAccepted target) (hdesired : target.desired.columnNames.Nodup)
    {column : CreateColumnTarget} (hcolumn : column ∈ target.desired.columns) {index : ℕ} :
    ∃ sourceName definitionChanged positionChanged typeChanged codecChanged ttlChanged,
      (keptOperations alphanumeric target (column, index)).1 =
        if target.moved alphanumeric column.name then
          [.modifyColumn column (desiredPosition target.desired.columns index) sourceName definitionChanged
            positionChanged typeChanged codecChanged ttlChanged]
        else [] := by
  have hiff := @sourceForTarget_isSome_iff target h column.name
  obtain hnone | ⟨source, hsource⟩ := Option.eq_none_or_eq_some (target.sourceForTarget column.name)
  · refine ⟨"", false, false, false, false, false, ?_⟩
    have hnew : target.isNew column.name = true := by
      rw [hnone] at hiff
      simpa using hiff
    simp [keptOperations, hnone, AlterTableTarget.moved, hnew]
  · obtain ⟨hmem, -⟩ := (sourceForTarget_eq_some_iff h).1 hsource
    obtain ⟨baseline, hbaseline⟩ := Option.isSome_iff_exists.1 (baselineByName_isSome_iff.2 hmem)
    have hold : target.isNew column.name = false := hiff.1 (by rw [hsource]; rfl)
    have hfind : target.desired.columns.find? (·.name == column.name) = some column :=
      find?_of_mem hdesired hcolumn
    have hmoved : target.moved alphanumeric column.name =
        ((compareColumnDefinition alphanumeric baseline column).nonCommentChanged ||
          !decide (target.InPlace column.name)) := by
      simp [AlterTableTarget.moved, AlterTableTarget.untouched, hfind, hsource,
        hbaseline, hold]
    refine ⟨source, (compareColumnDefinition alphanumeric baseline column).definitionChanged,
      !decide (target.InPlace column.name), (compareColumnDefinition alphanumeric baseline column).typeChanged,
      (compareColumnDefinition alphanumeric baseline column).codecChanged,
      (compareColumnDefinition alphanumeric baseline column).ttlChanged, ?_⟩
    simp only [keptOperations, hsource, hbaseline]
    rw [columnOperations_fst, hmoved]

/-- The operations that modify columns, on the server: among the columns of the target they are the moves
of the plan, and the other columns stay. -/
theorem orderRun_moves (h : RenamesAccepted target) {before rest : List CreateColumnTarget}
    (hsplit : target.desired.columns = before ++ rest) (hdesired : target.desired.columnNames.Nodup)
    (hnodup : names.Nodup) {order : List String}
    (hmoves : moveEach (target.moved alphanumeric) (before.map (·.name)).getLast? (rest.map (·.name))
      (within target.desired.columnNames names) = some order)
    (hmem : ∀ name ∈ target.desired.columnNames, name ∈ names) :
    ∃ final, OrderRun names ((rest.zipIdx before.length).flatMap fun entry ↦
        (keptOperations alphanumeric target entry).1) final ∧
      within target.desired.columnNames final = order ∧
      outside target.desired.columnNames final = outside target.desired.columnNames names := by
  induction rest generalizing before names with
  | nil =>
    cases hmoves
    exact ⟨names, .done hnodup, rfl, rfl⟩
  | cons column rest ih =>
    obtain ⟨hnext, hlast, hlength⟩ := passed hsplit
    have hnames : target.desired.columnNames = before.map (·.name) ++ column.name :: rest.map (·.name) := by
      rw [CreateTableTarget.columnNames, hsplit, List.map_append, List.map_cons]
    have hin : column.name ∈ target.desired.columnNames := by simp [hnames]
    obtain ⟨sourceName, definitionChanged, positionChanged, typeChanged, codecChanged, ttlChanged, hfst⟩ :=
      @keptOperations_fst alphanumeric target h hdesired column (by simp [hsplit]) before.length
    rw [List.map_cons, moveEach] at hmoves
    rw [List.zipIdx_cons, List.flatMap_cons, hfst]
    by_cases hmoved : target.moved alphanumeric column.name = true
    · have hprev : ∀ name ∈ (before.map (·.name)).getLast?, name ∈ target.desired.columnNames ∧
          name ≠ column.name := by
        intro name hname
        have hbefore := List.mem_of_getLast? hname
        refine ⟨by simp [hnames, hbefore], fun heq ↦ ?_⟩
        rw [hnames] at hdesired
        exact (List.nodup_append.1 hdesired).2.2 name hbefore column.name (by simp) heq
      rw [if_pos hmoved] at hmoves ⊢
      obtain ⟨next, hstep⟩ := moveBehind_isSome (hmem _ hin) fun name hname ↦
        ⟨hmem _ (hprev name hname).1, (hprev name hname).2⟩
      have hperm := moveBehind_perm hstep
      have hseen := moveBehind_filter (q := fun name ↦ decide (name ∈ target.desired.columnNames)) hnodup
        hstep (by simpa using hin) fun name hname ↦ by simpa using (hprev name hname).1
      obtain ⟨order₁, hmoves₁, hmoves₂⟩ := Option.bind_eq_some_iff.1 hmoves
      rw [within, hseen] at hmoves₁
      cases hmoves₁
      rw [← hlast] at hmoves₂
      obtain ⟨final, hrun, hwithin, houtside⟩ := ih hnext (hperm.nodup_iff.2 hnodup) hmoves₂
        fun name hname ↦ hperm.mem_iff.2 (hmem name hname)
      rw [hlength] at hrun
      refine ⟨final, .step hnodup ?_ hrun, hwithin, houtside.trans ?_⟩
      · rw [orderStep, hsplit, desiredPosition_neighbour, hstep]
      · exact filter_moveBehind hstep (by simpa using hin)
    · rw [if_neg hmoved] at hmoves ⊢
      rw [← hlast] at hmoves
      obtain ⟨final, hrun, hwithin, houtside⟩ := ih hnext hnodup hmoves hmem
      rw [hlength] at hrun
      exact ⟨final, hrun, hwithin, houtside⟩

/-- The comments name columns of the target only. -/
theorem orderStep_comments (hmem : ∀ name ∈ target.desired.columnNames, name ∈ names)
    {operation : AlterOperation} (hop : operation ∈ target.desired.columns.zipIdx.flatMap fun entry ↦
      (keptOperations alphanumeric target entry).2) :
    orderStep names operation = some names := by
  obtain ⟨⟨column, index⟩, hentry, hop⟩ := List.mem_flatMap.1 hop
  have hcolumn : column.name ∈ names := hmem _ (List.mem_map_of_mem (List.fst_mem_of_mem_zipIdx hentry))
  simp only [keptOperations] at hop
  split at hop
  · cases hop
  · split at hop
    · cases hop
    · simp only [columnOperations] at hop
      split_ifs at hop
      · obtain rfl := List.mem_singleton.1 hop
        exact if_pos hcolumn
      · cases hop
      · cases hop

/-! ### Dropped columns -/

theorem orderRun_drops {columns : List ColumnSchema} (hnodup : names.Nodup)
    (hcolumns : (columns.map (·.name)).Nodup) (hmem : ∀ column ∈ columns, column.name ∈ names) :
    OrderRun names (columns.map fun column ↦ .dropColumn column.name column.position)
      (names.filter fun name ↦ name ∉ columns.map (·.name)) := by
  induction columns generalizing names with
  | nil =>
    rw [List.filter_eq_self.2 (by simp)]
    exact .done hnodup
  | cons column columns ih =>
    obtain ⟨hcolumn, hcolumns⟩ := List.nodup_cons.1 hcolumns
    obtain ⟨hfirst, hmem⟩ := List.forall_mem_cons.1 hmem
    refine .step hnodup (if_pos hfirst) ?_
    have hrest := ih (hnodup.erase column.name) hcolumns fun other hother ↦
      (List.mem_erase_of_ne fun heq : other.name = column.name ↦
        hcolumn (List.mem_map.2 ⟨other, hother, heq⟩)).2 (hmem other hother)
    have hfilter : (names.erase column.name).filter (fun name ↦ name ∉ columns.map (·.name)) =
        names.filter fun name ↦ name ∉ (column :: columns).map (·.name) := by
      rw [hnodup.erase_eq_filter, List.filter_filter]
      refine List.filter_congr fun name _ ↦ ?_
      by_cases heq : name = column.name
      · simp [heq]
      · simp [heq]
    rwa [hfilter] at hrest

theorem perm_sortByKey {α : Type} (key : α → ℕ) (items : List α) : (sortByKey key items).Perm items :=
  List.perm_insertionSort _ items

/-- The dropped columns are those that the target has under no name. -/
theorem mem_dropped_iff (h : RenamesAccepted target) {name : String} :
    name ∈ (target.baseline.columns.filter fun column ↦ column.name ∉ target.matchedSources).map (·.name) ↔
      name ∈ target.renamedNames ∧ name ∉ target.desired.columnNames := by
  have hkept : ∀ {source : String}, target.renamed source ∉ target.desired.columnNames →
      target.renamed source = source := by
    intro source hnot
    obtain hnone | ⟨to_, hto⟩ := Option.eq_none_or_eq_some (target.renameBySource source)
    · rw [AlterTableTarget.renamed, hnone, Option.getD_none]
    · rw [AlterTableTarget.renamed, hto, Option.getD_some] at hnot
      exact absurd (h.hdesired _ ((renameBySource_eq_some_iff h).1 hto)) hnot
  simp only [List.mem_map, List.mem_filter, decide_eq_true_eq, AlterTableTarget.renamedNames]
  constructor
  · rintro ⟨column, ⟨hcolumn, hmatched⟩, rfl⟩
    have hmem : column.name ∈ target.baseline.columnNames := List.mem_map_of_mem hcolumn
    rw [mem_matchedSources_iff h hmem] at hmatched
    have hsame := hkept hmatched
    rw [hsame] at hmatched
    exact ⟨⟨column.name, hmem, hsame⟩, hmatched⟩
  · rintro ⟨⟨source, hsource, rfl⟩, hnot⟩
    obtain ⟨column, hcolumn, rfl⟩ := List.mem_map.1 hsource
    rw [hkept hnot]
    exact ⟨column, ⟨hcolumn, mt (mem_matchedSources_iff h hsource).1 hnot⟩, rfl⟩

/-! ### The whole plan -/

/-- The renames of the plan run, and give the columns their new names. -/
theorem orderRun_renamePlan (hrenames : RenamesAccepted target) (hnodup : target.baseline.columnNames.Nodup) :
    OrderRun target.baseline.columnNames (renamePlan target) target.renamedNames := by
  have hperm := perm_sortByKey (·.2) (target.columnRenames.map fun rename ↦
    (rename, ((target.baselineByName rename.from_).map (·.position)).getD 0))
  have hfst : ∀ r ∈ sortByKey (·.2) (target.columnRenames.map fun rename ↦
      (rename, ((target.baselineByName rename.from_).map (·.position)).getD 0)),
      r.1 ∈ target.columnRenames := by
    intro r hr
    obtain ⟨rename, hrename, rfl⟩ := List.mem_map.1 (hperm.mem_iff.1 hr)
    exact hrename
  refine orderRun_renames hnodup ?_ ?_ (fun r hr ↦ hrenames.hexisting _ (hfst r hr))
    (fun r hr ↦ hrenames.hfresh _ (hfst r hr)) (fun r hr ↦ ?_) fun name _ hnot ↦ ?_
  · refine (hperm.map _).nodup_iff.2 ?_
    rw [List.map_map]
    exact hrenames.hsources
  · refine (hperm.map _).nodup_iff.2 ?_
    rw [List.map_map]
    exact hrenames.htargets
  · rw [AlterTableTarget.renamed, (renameBySource_eq_some_iff hrenames).2 (hfst r hr), Option.getD_some]
  · rw [(hperm.map _).mem_iff, List.map_map] at hnot
    rw [AlterTableTarget.renamed, renameBySource_eq_none_iff.2 hnot, Option.getD_none]

/-- **The plan always runs** on a baseline with distinct column names, and ends in the order that the
moves of the plan give the listing. -/
theorem orderRun_plan (h : AlterAccepted alphanumeric target) (hnodup : target.baseline.columnNames.Nodup) :
    ∃ final, OrderRun target.baseline.columnNames (alterPlan alphanumeric target) final ∧
      moveEach (target.moved alphanumeric) none target.desired.columnNames target.listing = some final := by
  have hrenames := h.hrenames
  have hdesired : target.desired.columnNames.Nodup := (validateCreateTableTarget_eq_ok h.hcreate).2.1
  have hrenamed := renamedNames_nodup hrenames hnodup
  -- the renames
  have hrun₁ := orderRun_renamePlan hrenames hnodup
  -- the new columns
  have hinsert := insertNew_listing hrenames hnodup hdesired
  rw [matchedOrder_eq hrenames] at hinsert
  obtain ⟨names₂, hrun₂, hwithin₂, houtside₂⟩ := @orderRun_adds target target.renamedNames []
    target.desired.columns rfl hdesired hrenamed _ hinsert (by simp) fun name _ ↦ by
      simp [AlterTableTarget.isNew]
  -- the moves
  have hmem₂ : ∀ name ∈ target.desired.columnNames, name ∈ names₂ := by
    intro name hname
    rw [← (listing_perm hrenames hnodup hdesired).mem_iff, ← hwithin₂] at hname
    exact List.mem_of_mem_filter hname
  obtain ⟨final, hmoves, hfinalperm, -⟩ : ∃ final,
      moveEach (target.moved alphanumeric) none target.desired.columnNames target.listing = some final ∧
        final.Perm target.listing ∧ (final.filter fun name ↦ !target.moved alphanumeric name) =
          target.listing.filter fun name ↦ !target.moved alphanumeric name :=
    moveEach_isSome hdesired ((listing_perm hrenames hnodup hdesired).nodup_iff.2 hdesired)
      (fun name hname ↦ (listing_perm hrenames hnodup hdesired).mem_iff.2 hname) (by simp)
  obtain ⟨names₃, hrun₃, hwithin₃, houtside₃⟩ := @orderRun_moves alphanumeric target names₂ hrenames []
    target.desired.columns rfl hdesired hrun₂.nodup_final final (by rw [hwithin₂]; exact hmoves) hmem₂
  -- the comments and the properties of the table
  have hmem₃ : ∀ name ∈ target.desired.columnNames, name ∈ names₃ := by
    intro name hname
    rw [← (hfinalperm.trans (listing_perm hrenames hnodup hdesired)).mem_iff, ← hwithin₃] at hname
    exact List.mem_of_mem_filter hname
  have hrun₄ := orderRun_of_forall hrun₃.nodup_final fun operation hop ↦
    @orderStep_comments alphanumeric target names₃ hmem₃ operation hop
  have hrun₅ := @orderRun_tableOperations alphanumeric target names₃ hrun₃.nodup_final
  -- the dropped columns
  have hperm := perm_sortByKey (·.position)
    (target.baseline.columns.filter fun column ↦ column.name ∉ target.matchedSources)
  have houtside : (outside target.desired.columnNames names₃).Perm
      (outside target.desired.columnNames target.renamedNames) := houtside₃ ▸ houtside₂
  have hdropped : ∀ name, name ∈ (sortByKey (·.position) (target.baseline.columns.filter fun column ↦
      column.name ∉ target.matchedSources)).map (·.name) ↔
        name ∈ names₃ ∧ name ∉ target.desired.columnNames := by
    intro name
    have hin := houtside.mem_iff (a := name)
    simp only [outside, List.mem_filter, decide_eq_true_eq] at hin
    rw [(hperm.map _).mem_iff, mem_dropped_iff hrenames, hin]
  have hrun₆ := orderRun_drops hrun₃.nodup_final
    ((hperm.map (·.name)).nodup_iff.2 (List.Nodup.sublist (List.Sublist.map (fun column : ColumnSchema ↦ column.name) List.filter_sublist)
      hnodup)) fun column hcolumn ↦
      ((hdropped column.name).1 (List.mem_map_of_mem hcolumn)).1
  have hlast : (names₃.filter fun name ↦ name ∉ (sortByKey (·.position) (target.baseline.columns.filter
      fun column ↦ column.name ∉ target.matchedSources)).map (·.name)) = final := by
    rw [← hwithin₃]
    refine List.filter_congr fun name hname ↦ decide_eq_decide.2 ?_
    rw [hdropped name]
    tauto
  rw [hlast] at hrun₆
  exact ⟨final, ((((hrun₁.append hrun₂).append hrun₃).append hrun₄).append hrun₅).append hrun₆, hmoves⟩

/-! ### When the order is reached -/

/-- A kept column that keeps its place: the plan leaves it alone, or new columns are put behind it. -/
def AlterTableTarget.fixed (alphanumeric : Char → Bool) (target : AlterTableTarget) (name : String) : Bool :=
  target.untouched alphanumeric name ||
    !(newBehind target.isNew target.desired.columnNames name).isEmpty

/-- **The columns that keep their place are in the order of the target** already. -/
def AlterTableTarget.FixedInOrder (alphanumeric : Char → Bool) (target : AlterTableTarget) : Prop :=
  target.matchedOrder.filter (target.fixed alphanumeric) = target.keptNames.filter (target.fixed alphanumeric)
  deriving Decidable

theorem listing_filter_iff (h : RenamesAccepted target) (hnodup : target.baseline.columnNames.Nodup)
    (hdesired : target.desired.columnNames.Nodup) :
    ((target.listing.filter fun name ↦ !target.moved alphanumeric name) =
      target.desired.columnNames.filter fun name ↦ !target.moved alphanumeric name) ↔
        target.FixedInOrder alphanumeric := by
  have hread := @eq_newBehind _ _ target.isNew _ hdesired
  have hperm := matchedOrder_perm h hnodup hdesired
  have hold : ∀ name ∈ target.keptNames, target.isNew name = false :=
    fun name hname ↦ by simpa using (List.mem_filter.1 hname).2
  have hnewmoved : ∀ name, target.isNew name = true → target.moved alphanumeric name = false :=
    fun name hname ↦ by simp [AlterTableTarget.moved, hname]
  -- the part of each block that is not moved
  have hblock : ∀ name, (name :: newBehind target.isNew target.desired.columnNames name).filter
      (fun name ↦ !target.moved alphanumeric name) =
        (if target.moved alphanumeric name then [] else [name]) ++
          newBehind target.isNew target.desired.columnNames name := by
    intro name
    have hnew : (newBehind target.isNew target.desired.columnNames name).filter
        (fun name ↦ !target.moved alphanumeric name) =
          newBehind target.isNew target.desired.columnNames name := by
      refine List.filter_eq_self.2 fun other hother ↦ ?_
      simp [hnewmoved other (new_of_mem_newBehind hother)]
    rw [List.filter_cons, hnew]
    by_cases hmoved : target.moved alphanumeric name = true
    · simp [hmoved]
    · simp [hmoved]
  have hdisjoint : ∀ x ∈ target.matchedOrder, ∀ y ∈ target.matchedOrder, ∀ z,
      z ∈ (x :: newBehind target.isNew target.desired.columnNames x).filter
        (fun name ↦ !target.moved alphanumeric name) →
      z ∈ (y :: newBehind target.isNew target.desired.columnNames y).filter
        (fun name ↦ !target.moved alphanumeric name) → x = y := by
    intro x hx y hy z hzx hzy
    by_contra hne
    have hn := hdesired
    rw [hread] at hn
    have hpair := (List.nodup_flatMap.1 (List.nodup_append.1 hn).2.1).2
    have : Std.Symm (Function.onFun List.Disjoint fun name ↦
        name :: newBehind target.isNew target.desired.columnNames name) :=
      ⟨fun _ _ h _ ha hb ↦ h hb ha⟩
    exact hpair.forall (hperm.mem_iff.1 hx) (hperm.mem_iff.1 hy) hne (List.mem_of_mem_filter hzx)
      (List.mem_of_mem_filter hzy)
  have hfixed : ∀ names : List String, (∀ name ∈ names, name ∈ target.keptNames) →
      (names.filter fun name ↦ !((name :: newBehind target.isNew target.desired.columnNames name).filter
        (fun name ↦ !target.moved alphanumeric name)).isEmpty) = names.filter (target.fixed alphanumeric) := by
    intro names hnames
    refine List.filter_congr fun name hname ↦ ?_
    rw [hblock, AlterTableTarget.fixed, AlterTableTarget.moved, hold name (hnames name hname)]
    cases target.untouched alphanumeric name <;> simp
  have hsplit : target.desired.columnNames = target.desired.columnNames.takeWhile target.isNew ++
      target.keptNames.flatMap fun name ↦
        name :: newBehind target.isNew target.desired.columnNames name := hread
  have hright : (target.desired.columnNames.filter fun name ↦ !target.moved alphanumeric name) =
      ((target.desired.columnNames.takeWhile target.isNew ++ target.keptNames.flatMap fun name ↦
        name :: newBehind target.isNew target.desired.columnNames name).filter fun name ↦
          !target.moved alphanumeric name) := congrArg _ hsplit
  rw [hright, AlterTableTarget.listing, List.filter_append, List.filter_append, List.append_cancel_left_eq,
    List.filter_flatMap, List.filter_flatMap, flatMap_eq_iff hperm hdisjoint,
    hfixed _ fun name hname ↦ hperm.mem_iff.1 hname, hfixed _ fun _ hname ↦ hname]
  rfl

/-- **When an alteration reaches the order of its target.** Every step of the plan names columns that are
there, no two columns ever have one name, and the columns end in the order of the target: this is so
exactly when the columns of the baseline have distinct names and those that keep their place are in the
order of the target. -/
theorem reachesOrder_iff (h : diffAlterTable alphanumeric target = .ok operations) :
    OrderRun target.baseline.columnNames operations target.desired.columnNames ↔
      target.baseline.columnNames.Nodup ∧ target.FixedInOrder alphanumeric := by
  constructor
  · intro hrun
    have hnodup := hrun.nodup
    obtain ⟨haccepted, rfl⟩ := eq_alterPlan h hnodup
    have hdesired : target.desired.columnNames.Nodup := (validateCreateTableTarget_eq_ok haccepted.hcreate).2.1
    obtain ⟨final, hrun', hmoves⟩ := orderRun_plan haccepted hnodup
    obtain rfl := hrun.unique hrun'
    refine ⟨hnodup, (listing_filter_iff haccepted.hrenames hnodup hdesired).1 ?_⟩
    exact (moveEach_eq_iff hdesired (listing_perm haccepted.hrenames hnodup hdesired)).1 hmoves
  · rintro ⟨hnodup, hfixed⟩
    obtain ⟨haccepted, rfl⟩ := eq_alterPlan h hnodup
    have hdesired : target.desired.columnNames.Nodup := (validateCreateTableTarget_eq_ok haccepted.hcreate).2.1
    obtain ⟨final, hrun, hmoves⟩ := orderRun_plan haccepted hnodup
    have hreach := (moveEach_eq_iff hdesired (listing_perm haccepted.hrenames hnodup hdesired)).2
      ((listing_filter_iff haccepted.hrenames hnodup hdesired).2 hfixed)
    rw [hreach] at hmoves
    cases hmoves
    exact hrun

theorem OrderRun.foldlM (h : OrderRun names operations final) : operations.foldlM orderStep names = some final := by
  induction h with
  | done => rfl
  | step _ hstep _ ih => rw [List.foldlM_cons, hstep]; exact ih

namespace Sample

/-- A column of the sample table. -/
def column (name : String) (position : ℕ) : ColumnSchema :=
  ⟨name, "UInt64", position, .none, none, none, none, none, .editable⟩

/-- The same column in a target. -/
def columnTarget (name : String) : CreateColumnTarget :=
  ⟨name, "UInt64", .none, none, [], none, none⟩

/-- A table with the given columns. -/
def table (columns : List ColumnSchema) : TableSchema :=
  { identity := ⟨"analytics", "events", .table⟩, engine := ⟨"MergeTree", []⟩, columns := columns,
    keys := ⟨"tuple()", none, none, none⟩, tableTtl := none, comment := none, settings := [],
    projections := [], skippingIndexes := [], editability := .editable }

/-- The same table as a target. -/
def tableTarget (columns : List CreateColumnTarget) : CreateTableTarget :=
  { database := "analytics", name := "events", columns := columns, engine := ⟨"MergeTree", []⟩,
    keys := ⟨"tuple()", none, none, none⟩, tableTtl := none, comment := none, settings := [] }

/-- `a`, `b` is to become `b`, `x`, `a`, `y`, where `x` and `y` are new. -/
def swapped : AlterTableTarget :=
  ⟨table [column "a" 1, column "b" 2],
    tableTarget [columnTarget "b", columnTarget "x", columnTarget "a", columnTarget "y"], []⟩

/-- `a`, `b` is to become `b`, `x`, `a`, where `x` is new. -/
def rearranged : AlterTableTarget :=
  ⟨table [column "a" 1, column "b" 2],
    tableTarget [columnTarget "b", columnTarget "x", columnTarget "a"], []⟩

theorem exists_plan (h : (diffAlterTable Char.isAlphanum target).toOption.isSome = true) :
    ∃ operations, diffAlterTable Char.isAlphanum target = .ok operations := by
  cases hdiff : diffAlterTable Char.isAlphanum target with
  | error e => simp [hdiff, Except.toOption] at h
  | ok operations => exact ⟨operations, rfl⟩

/-- Moving both columns around one new column reaches the order of the target. -/
theorem rearranged_reaches_order : ∃ operations, diffAlterTable Char.isAlphanum rearranged = .ok operations ∧
    OrderRun ["a", "b"] operations ["b", "x", "a"] := by
  obtain ⟨operations, h⟩ := exists_plan (show (diffAlterTable Char.isAlphanum rearranged).toOption.isSome by decide)
  exact ⟨operations, h, (reachesOrder_iff h).2 (by decide)⟩

/-- With a second new column behind `a` the plan ends in `b`, `y`, `x`, `a`. -/
theorem swapped_misses_order : ∃ operations, diffAlterTable Char.isAlphanum swapped = .ok operations ∧
    operations.foldlM orderStep ["a", "b"] = some ["b", "y", "x", "a"] ∧
      ¬ OrderRun ["a", "b"] operations ["b", "x", "a", "y"] := by
  obtain ⟨operations, h⟩ := exists_plan (show (diffAlterTable Char.isAlphanum swapped).toOption.isSome by decide)
  have hrun : ((diffAlterTable Char.isAlphanum swapped).toOption.bind fun operations ↦
      operations.foldlM orderStep ["a", "b"]) = some ["b", "y", "x", "a"] := by decide
  rw [h] at hrun
  have hend : operations.foldlM orderStep ["a", "b"] = some ["b", "y", "x", "a"] := hrun
  refine ⟨operations, h, hend, fun horder ↦ ?_⟩
  have hother := horder.foldlM
  rw [hend] at hother
  exact absurd hother (by decide)

end Sample

end ClickHouse
