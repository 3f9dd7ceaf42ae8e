import NexusPilot.ClickHouse.AlterDiff
import NexusPilot.Machine.Reorder

/-!
# What the difference of a ClickHouse table and its target is

The operations of `diff_alter_table` in closed form. On a baseline whose columns have distinct names the
loops neither fail nor depend on their course: the order in which the new columns are placed is
`Machine.insertNew`, and a kept column is found at its index exactly when `Machine.FoundAt` says so.
-/

namespace ClickHouse

open Drivers Text Machine

/-! ### Accepted targets -/

/-- What the checks on the renames have established. -/
structure RenamesAccepted (target : AlterTableTarget) : Prop where
  hsources : target.renameSources.Nodup
  htargets : (target.columnRenames.map (·.to_)).Nodup
  hexisting : ∀ rename ∈ target.columnRenames, rename.from_ ∈ target.baseline.columnNames
  hdesired : ∀ rename ∈ target.columnRenames, rename.to_ ∈ target.desired.columnNames
  hchain : ∀ rename ∈ target.columnRenames, rename.to_ ∉ target.renameSources
  hfresh : ∀ rename ∈ target.columnRenames, rename.to_ ∉ target.baseline.columnNames

theorem validateRenameIntents_eq_ok {target : AlterTableTarget} {sources targets : List String}
    {renames : List ColumnRenameIntent}
    (h : validateRenameIntents target sources targets renames = .ok ()) :
    (renames.map (·.from_)).Nodup ∧ (renames.map (·.to_)).Nodup ∧
      (∀ name ∈ sources, name ∉ renames.map (·.from_)) ∧ (∀ name ∈ targets, name ∉ renames.map (·.to_)) ∧
      ∀ rename ∈ renames, rename.from_ ∈ target.baseline.columnNames ∧
        rename.to_ ∈ target.desired.columnNames := by
  induction renames generalizing sources targets with
  | nil => simp
  | cons rename renames ih =>
    obtain ⟨_, -, h⟩ := bind_eq_ok_iff.1 h
    obtain ⟨_, -, h⟩ := bind_eq_ok_iff.1 h
    obtain ⟨hok, h⟩ := ite_error_eq_ok_iff.1 h
    simp only [not_or, not_not] at hok
    obtain ⟨-, hfrom, hto, hsource, htarget⟩ := hok
    obtain ⟨hfroms, htos, hsources, htargets, hall⟩ := ih h
    obtain ⟨hfromnew, hsources⟩ := List.forall_mem_cons.1 hsources
    obtain ⟨htonew, htargets⟩ := List.forall_mem_cons.1 htargets
    refine ⟨List.nodup_cons.2 ⟨hfromnew, hfroms⟩, List.nodup_cons.2 ⟨htonew, htos⟩, fun name hmem ↦ ?_,
      fun name hmem ↦ ?_, List.forall_mem_cons.2 ⟨⟨hfrom, hto⟩, hall⟩⟩
    · rw [List.map_cons, List.mem_cons, not_or]
      exact ⟨ne_of_mem_of_not_mem hmem hsource, hsources name hmem⟩
    · rw [List.map_cons, List.mem_cons, not_or]
      exact ⟨ne_of_mem_of_not_mem hmem htarget, htargets name hmem⟩

theorem validateExplicitRenames_eq_ok {target : AlterTableTarget}
    (h : validateExplicitRenames target = .ok ()) : RenamesAccepted target := by
  obtain ⟨_, hintents, h⟩ := bind_eq_ok_iff.1 h
  obtain ⟨hsources, htargets, -, -, hall⟩ := validateRenameIntents_eq_ok hintents
  have hlast : ∀ rename ∈ target.columnRenames, rename.to_ ∉ target.renameSources ∧
      rename.to_ ∉ target.baseline.columnNames := by
    intro rename hrename
    obtain ⟨hchain, hrest⟩ := ite_error_eq_ok_iff.1 (forM_eq_ok_iff.1 h rename hrename)
    exact ⟨hchain, (ite_error_eq_ok_iff.1 hrest).1⟩
  exact ⟨hsources, htargets, fun r hr ↦ (hall r hr).1, fun r hr ↦ (hall r hr).2,
    fun r hr ↦ (hlast r hr).1, fun r hr ↦ (hlast r hr).2⟩

variable {alphanumeric : Char → Bool} {target : AlterTableTarget}

/-- The checks of `validate_alter_target` that the plan relies on. -/
structure AlterAccepted (alphanumeric : Char → Bool) (target : AlterTableTarget) : Prop where
  hbaseline : validateEditableTableBaseline target.baseline = .ok ()
  hcreate : validateCreateTableTarget target.desired = .ok ()
  hidentity : validateIdentityUnchanged target = .ok ()
  hkeys : validateEngineAndImmutableKeysUnchanged alphanumeric target = .ok ()
  hobjects : validateNoTableObjectDependencies target.baseline = .ok ()
  hsettings : validateSettingChanges target = .ok ()
  hrenames : RenamesAccepted target

theorem validateAlterTarget_eq_ok (h : validateAlterTarget alphanumeric target = .ok ()) :
    AlterAccepted alphanumeric target := by
  obtain ⟨_, hbaseline, h⟩ := bind_eq_ok_iff.1 h
  obtain ⟨_, hcreate, h⟩ := bind_eq_ok_iff.1 h
  obtain ⟨_, hidentity, h⟩ := bind_eq_ok_iff.1 h
  obtain ⟨_, hkeys, h⟩ := bind_eq_ok_iff.1 h
  obtain ⟨_, hobjects, h⟩ := bind_eq_ok_iff.1 h
  obtain ⟨_, hsettings, h⟩ := bind_eq_ok_iff.1 h
  obtain ⟨_, hrenames, -⟩ := bind_eq_ok_iff.1 h
  exact ⟨hbaseline, hcreate, hidentity, hkeys, hobjects, hsettings,
    validateExplicitRenames_eq_ok hrenames⟩

/-! ### Maps -/

section LastNamed

variable {α : Type} {key : α → String} {items : List α} {name : String} {item : α}

theorem mem_of_lastNamed (h : lastNamed key items name = some item) : item ∈ items ∧ key item = name := by
  have hfound := List.find?_some h
  have hmem := List.mem_of_find?_eq_some h
  exact ⟨List.mem_reverse.1 hmem, by simpa using hfound⟩

theorem lastNamed_eq_none_iff : lastNamed key items name = none ↔ name ∉ items.map key := by
  rw [lastNamed, List.find?_eq_none]
  simp

/-- Among items of distinct names the map has each of them. -/
theorem lastNamed_of_mem (hnodup : (items.map key).Nodup) (hmem : item ∈ items) :
    lastNamed key items (key item) = some item := by
  obtain hnone | ⟨other, hother⟩ := Option.eq_none_or_eq_some (lastNamed key items (key item))
  · exact absurd (List.mem_map_of_mem hmem) (lastNamed_eq_none_iff.1 hnone)
  · obtain ⟨hmem', hkey⟩ := mem_of_lastNamed hother
    rw [hother, List.inj_on_of_nodup_map hnodup hmem' hmem hkey]

/-- Among items of distinct names a search by name finds each of them. -/
theorem find?_of_mem (hnodup : (items.map key).Nodup) (hmem : item ∈ items) :
    items.find? (fun other ↦ key other == key item) = some item := by
  obtain hnone | ⟨other, hother⟩ :=
    Option.eq_none_or_eq_some (items.find? fun other ↦ key other == key item)
  · simpa using List.find?_eq_none.1 hnone item hmem
  · have hname : key other = key item := by simpa using List.find?_some hother
    rw [hother, List.inj_on_of_nodup_map hnodup (List.mem_of_find?_eq_some hother) hmem hname]

theorem lastNamed_isSome_iff : (lastNamed key items name).isSome ↔ name ∈ items.map key := by
  rw [Option.isSome_iff_ne_none, ne_eq, lastNamed_eq_none_iff, not_not]

end LastNamed

/-! ### Which column becomes which -/

/-- The names of the baseline columns once the renames are done. -/
def AlterTableTarget.renamedNames (target : AlterTableTarget) : List String :=
  target.baseline.columnNames.map target.renamed

/-- A name of the target that no baseline column has after the renames. -/
def AlterTableTarget.isNew (target : AlterTableTarget) (name : String) : Bool :=
  name ∉ target.renamedNames

section Accepted

variable (h : RenamesAccepted target) (hnodup : target.baseline.columnNames.Nodup)

include h in
theorem renameBySource_eq_some_iff {name to_ : String} :
    target.renameBySource name = some to_ ↔ ⟨name, to_⟩ ∈ target.columnRenames := by
  rw [AlterTableTarget.renameBySource, Option.map_eq_some_iff]
  constructor
  · rintro ⟨rename, hlast, rfl⟩
    obtain ⟨hmem, rfl⟩ := mem_of_lastNamed hlast
    exact hmem
  · intro hmem
    exact ⟨⟨name, to_⟩, @lastNamed_of_mem _ (fun r : ColumnRenameIntent ↦ r.from_) _ ⟨name, to_⟩ h.hsources hmem, rfl⟩

include h in
theorem sourceByTarget_eq_some_iff {name from_ : String} :
    target.sourceByTarget name = some from_ ↔ ⟨from_, name⟩ ∈ target.columnRenames := by
  rw [AlterTableTarget.sourceByTarget, Option.map_eq_some_iff]
  constructor
  · rintro ⟨rename, hlast, rfl⟩
    obtain ⟨hmem, rfl⟩ := mem_of_lastNamed hlast
    exact hmem
  · intro hmem
    exact ⟨⟨from_, name⟩, @lastNamed_of_mem _ (fun r : ColumnRenameIntent ↦ r.to_) _ ⟨from_, name⟩ h.htargets hmem, rfl⟩

theorem renameBySource_eq_none_iff {name : String} :
    target.renameBySource name = none ↔ name ∉ target.renameSources := by
  rw [AlterTableTarget.renameBySource, Option.map_eq_none_iff, lastNamed_eq_none_iff]
  rfl

theorem baselineByName_isSome_iff {name : String} :
    (target.baselineByName name).isSome ↔ name ∈ target.baseline.columnNames :=
  lastNamed_isSome_iff

include h in
/-- **Where a column of the target comes from**: the baseline column that the renames give its name. -/
theorem sourceForTarget_eq_some_iff {name source : String} :
    target.sourceForTarget name = some source ↔
      source ∈ target.baseline.columnNames ∧ target.renamed source = name := by
  rw [AlterTableTarget.sourceForTarget]
  obtain hnone | ⟨from_, hsome⟩ := Option.eq_none_or_eq_some (target.sourceByTarget name)
  · rw [hnone, Option.none_or]
    constructor
    · intro heq
      split_ifs at heq with hkept
      cases heq
      rw [baselineByName_isSome_iff, Option.isNone_iff_eq_none] at hkept
      exact ⟨hkept.1, by rw [AlterTableTarget.renamed, hkept.2, Option.getD_none]⟩
    · rintro ⟨hmem, hrenamed⟩
      obtain hkept | ⟨to_, hto⟩ := Option.eq_none_or_eq_some (target.renameBySource source)
      · rw [AlterTableTarget.renamed, hkept, Option.getD_none] at hrenamed
        subst hrenamed
        rw [if_pos ⟨baselineByName_isSome_iff.2 hmem, by rw [hkept]; rfl⟩]
      · rw [AlterTableTarget.renamed, hto, Option.getD_some] at hrenamed
        subst hrenamed
        rw [(sourceByTarget_eq_some_iff h).2 ((renameBySource_eq_some_iff h).1 hto)] at hnone
        cases hnone
  · rw [hsome, Option.some_or]
    have hrename := (sourceByTarget_eq_some_iff h).1 hsome
    constructor
    · rintro ⟨⟩
      refine ⟨h.hexisting _ hrename, ?_⟩
      rw [AlterTableTarget.renamed, (renameBySource_eq_some_iff h).2 hrename, Option.getD_some]
    · rintro ⟨hmem, hrenamed⟩
      obtain hkept | ⟨to_, hto⟩ := Option.eq_none_or_eq_some (target.renameBySource source)
      · rw [AlterTableTarget.renamed, hkept, Option.getD_none] at hrenamed
        exact absurd (hrenamed ▸ hmem) (h.hfresh _ hrename)
      · rw [AlterTableTarget.renamed, hto, Option.getD_some] at hrenamed
        subst hrenamed
        have hother := (sourceByTarget_eq_some_iff h).2 ((renameBySource_eq_some_iff h).1 hto)
        rw [hsome] at hother
        exact hother

include h in
theorem sourceForTarget_isSome_iff {name : String} :
    (target.sourceForTarget name).isSome = true ↔ target.isNew name = false := by
  rw [Option.isSome_iff_exists]
  simp only [sourceForTarget_eq_some_iff h, AlterTableTarget.isNew, AlterTableTarget.renamedNames,
    List.mem_map, decide_eq_false_iff_not, not_not]

include h in
/-- Distinct columns keep distinct names. -/
theorem renamed_injective {a b : String} (ha : a ∈ target.baseline.columnNames)
    (hb : b ∈ target.baseline.columnNames) (heq : target.renamed a = target.renamed b) : a = b := by
  have hsource := (sourceForTarget_eq_some_iff h).2 ⟨ha, rfl⟩
  rw [heq, (sourceForTarget_eq_some_iff h).2 ⟨hb, rfl⟩] at hsource
  exact (Option.some.inj hsource).symm

include h hnodup in
theorem renamedNames_nodup : target.renamedNames.Nodup :=
  List.Nodup.map_on (fun _ ha _ hb heq ↦ renamed_injective h ha hb heq) hnodup

include h in
theorem mem_matchedSources_iff {name : String} (hmem : name ∈ target.baseline.columnNames) :
    name ∈ target.matchedSources ↔ target.renamed name ∈ target.desired.columnNames := by
  rw [AlterTableTarget.matchedSources, List.mem_filterMap, CreateTableTarget.columnNames, List.mem_map]
  constructor
  · rintro ⟨column, hcolumn, hsource⟩
    exact ⟨column, hcolumn, ((sourceForTarget_eq_some_iff h).1 hsource).2.symm⟩
  · rintro ⟨column, hcolumn, hname⟩
    exact ⟨column, hcolumn, (sourceForTarget_eq_some_iff h).2 ⟨hmem, hname.symm⟩⟩

include h in
/-- The order that the simulation starts from: the renamed columns that the target has. -/
theorem matchedOrder_eq :
    target.matchedOrder = target.renamedNames.filter fun name ↦ name ∈ target.desired.columnNames := by
  rw [AlterTableTarget.matchedOrder, AlterTableTarget.renamedNames, TableSchema.columnNames, List.map_map,
    List.filter_map]
  refine congrArg _ (List.filter_congr fun column hcolumn ↦ ?_)
  exact decide_eq_decide.2 (mem_matchedSources_iff h (List.mem_map_of_mem hcolumn))

end Accepted

/-! ### Places -/

/-- The column that a position is behind. -/
def ColumnPosition.neighbour : ColumnPosition → Option String
  | first => none
  | after column => some column

theorem idxOf?_append {x : String} {before after : List String} (hx : x ∉ before) :
    (before ++ x :: after).idxOf? x = some before.length := by
  induction before with
  | nil => simp [List.idxOf?_cons]
  | cons y before ih =>
    rw [List.mem_cons, not_or] at hx
    rw [List.cons_append, List.idxOf?_cons, ih hx.2]
    simp [Ne.symm hx.1]

theorem insertAtPosition_eq {order order' : List String} {name : String} {position : ColumnPosition}
    (hinsert : insertBehind id position.neighbour name order = some order') :
    insertAtPosition order name position = .ok order' := by
  cases position with
  | first =>
    cases hinsert
    rfl
  | after previous =>
    obtain ⟨hnone, -⟩ | ⟨y, before, after, hy, rfl, hbefore, rfl⟩ := insertBehind_eq_some_iff.1 hinsert
    · cases hnone
    · cases hy
      rw [insertAtPosition, idxOf?_append hbefore]
      have hlength : before.length + 1 ≤ (before ++ previous :: after).length := by simp
      refine congrArg Except.ok ?_
      rw [insertIdx_eq name hlength]
      simp [List.take_append, List.drop_append, List.take_of_length_le (Nat.le_succ before.length),
        List.drop_of_length_le (Nat.le_succ before.length)]

theorem desiredPosition_neighbour {before rest : List CreateColumnTarget} :
    (desiredPosition (before ++ rest) before.length).neighbour = (before.map (·.name)).getLast? := by
  obtain rfl | ⟨before, column, rfl⟩ := before.eq_nil_or_concat'
  · rfl
  · simp [desiredPosition, ColumnPosition.neighbour]

/-! ### The columns that are added -/

/-- The operation for a column that is added. -/
def addOperation (target : AlterTableTarget) (entry : CreateColumnTarget × ℕ) : Option AlterOperation :=
  if target.isNew entry.1.name then
    some (.addColumn entry.1 (desiredPosition target.desired.columns entry.2))
  else none

/-- The columns in front, when one more is passed. -/
theorem passed {before rest : List CreateColumnTarget} {column : CreateColumnTarget}
    (hsplit : target.desired.columns = before ++ column :: rest) :
    target.desired.columns = (before ++ [column]) ++ rest ∧
      ((before ++ [column]).map (·.name)).getLast? = some column.name ∧
      (before ++ [column]).length = before.length + 1 := by
  simp [hsplit]

theorem addColumns_eq (h : RenamesAccepted target) {before rest : List CreateColumnTarget}
    (hsplit : target.desired.columns = before ++ rest) {order order' : List String}
    (hinsert : insertNew target.isNew (before.map (·.name)).getLast? (rest.map (·.name)) order =
      some order') :
    addColumns target (rest.zipIdx before.length) order =
      .ok (order', (rest.zipIdx before.length).filterMap (addOperation target)) := by
  induction rest generalizing before order with
  | nil =>
    cases hinsert
    rfl
  | cons column rest ih =>
    obtain ⟨hnext, hlast, hlength⟩ := passed hsplit
    rw [List.map_cons, insertNew] at hinsert
    have hsource : (target.sourceForTarget column.name).isSome = true ↔ target.isNew column.name = false :=
      sourceForTarget_isSome_iff h
    rw [List.zipIdx_cons, addColumns, List.filterMap_cons, addOperation]
    by_cases hnew : target.isNew column.name = true
    · rw [if_pos hnew] at hinsert
      obtain ⟨order₁, hinsert₁, hinsert₂⟩ := Option.bind_eq_some_iff.1 hinsert
      have hplace : insertAtPosition order column.name
          (desiredPosition target.desired.columns before.length) = .ok order₁ := by
        refine insertAtPosition_eq ?_
        rw [hsplit, desiredPosition_neighbour]
        exact hinsert₁
      have hrest := ih hnext (hlast ▸ hinsert₂)
      rw [hlength] at hrest
      rw [if_neg (by simp [hsource, hnew]), if_pos hnew]
      show (insertAtPosition _ _ _ >>= _) = _
      rw [hplace]
      show (addColumns _ _ _ >>= _) = _
      rw [hrest]
      rfl
    · rw [if_neg hnew] at hinsert
      have hrest := ih hnext (hlast ▸ hinsert)
      rw [hlength] at hrest
      rw [if_pos (hsource.2 (by simpa using hnew)), if_neg hnew]
      exact hrest

/-! ### The columns that are kept -/

/-- The kept columns, in the order of the target. -/
def AlterTableTarget.keptNames (target : AlterTableTarget) : List String :=
  kept target.isNew target.desired.columnNames

/-- **A column that the plan finds in place**: the columns that come before it now and after it in the
target, with the new columns behind each of them, are as many as the new columns behind the columns that
come after it now and before it in the target. -/
def AlterTableTarget.InPlace (target : AlterTableTarget) (name : String) : Prop :=
  FoundAt target.isNew target.desired.columnNames target.matchedOrder name
  deriving Decidable

/-- The operations for a column that is kept. -/
def keptOperations (alphanumeric : Char → Bool) (target : AlterTableTarget)
    (entry : CreateColumnTarget × ℕ) : List AlterOperation × List AlterOperation :=
  match target.sourceForTarget entry.1.name with
  | none => ([], [])
  | some sourceName =>
    match target.baselineByName sourceName with
    | none => ([], [])
    | some baseline => columnOperations alphanumeric target entry.1 entry.2 sourceName baseline
        (!decide (target.InPlace entry.1.name))

/-- The order after the new columns are placed. -/
def AlterTableTarget.listing (target : AlterTableTarget) : List String :=
  target.desired.columnNames.takeWhile target.isNew ++
    target.matchedOrder.flatMap fun name ↦
      name :: newBehind target.isNew target.desired.columnNames name

section Kept

variable (h : RenamesAccepted target) (hnodup : target.baseline.columnNames.Nodup)
  (hdesired : target.desired.columnNames.Nodup)

include h hnodup hdesired

theorem matchedOrder_perm : target.matchedOrder.Perm target.keptNames := by
  rw [matchedOrder_eq h]
  refine (List.perm_ext_iff_of_nodup ((renamedNames_nodup h hnodup).filter _) (hdesired.filter _)).2 ?_
  intro name
  simp only [List.mem_filter, AlterTableTarget.isNew, decide_eq_true_eq, decide_not, Bool.not_not]
  exact and_comm

theorem listing_perm : target.listing.Perm target.desired.columnNames := by
  have hread := @eq_newBehind _ _ target.isNew _ hdesired
  rw [AlterTableTarget.listing]
  conv_rhs => rw [hread]
  exact List.Perm.append_left _ ((matchedOrder_perm h hnodup hdesired).flatMap_right _)

/-- The new columns can be placed, and give the listing. -/
theorem insertNew_listing :
    insertNew target.isNew none target.desired.columnNames target.matchedOrder = some target.listing := by
  refine insertNew_eq hdesired ?_ fun name hname ↦ ?_
  · rw [matchedOrder_eq h]
    exact (renamedNames_nodup h hnodup).filter _
  · rw [(matchedOrder_perm h hnodup hdesired).mem_iff, AlterTableTarget.keptNames, kept, List.mem_filter]
    simp [hname]

/-- Whether the plan finds a kept column at its index does not depend on the columns settled before. -/
theorem found_iff {before rest : List CreateColumnTarget} {column : CreateColumnTarget}
    (hsplit : target.desired.columns = before ++ column :: rest) (hold : target.isNew column.name = false)
    {first last : List String} (hperm : (first ++ column.name :: last).Perm target.listing)
    (hsettled : Settled (kept target.isNew (before.map (·.name))) before.length
      (first ++ column.name :: last))
    (hseen : ((first ++ column.name :: last).filter fun name ↦
        name ∉ kept target.isNew (before.map (·.name))) =
      target.listing.filter fun name ↦ name ∉ kept target.isNew (before.map (·.name))) :
    first.length = before.length ↔ target.InPlace column.name := by
  have hnames : target.desired.columnNames = before.map (·.name) ++ column.name :: rest.map (·.name) := by
    rw [CreateTableTarget.columnNames, hsplit, List.map_append, List.map_cons]
  have hn := hdesired
  rw [hnames] at hn
  have hbefore : column.name ∉ kept target.isNew (before.map (·.name)) := fun hmem ↦
    (List.nodup_middle.1 hn).notMem (List.mem_append_left _ (List.mem_of_mem_filter hmem))
  have hordern := (hperm.trans (listing_perm h hnodup hdesired)).nodup_iff.2 hdesired
  have hlistingn := (listing_perm h hnodup hdesired).nodup_iff.2 hdesired
  have hmem : column.name ∈ target.listing := hperm.mem_iff.1 (by simp)
  obtain ⟨first', last', hlisting, hfirst'⟩ := List.eq_append_cons_of_mem hmem
  have hcount : (first.filter fun name ↦ name ∉ kept target.isNew (before.map (·.name))) =
      first'.filter fun name ↦ name ∉ kept target.isNew (before.map (·.name)) := by
    have hfirst : column.name ∉ first := fun hmem ↦ (List.nodup_middle.1 hordern).notMem (by simp [hmem])
    rw [hlisting, List.filter_append, List.filter_append, List.filter_cons_of_pos (by simpa using hbefore),
      List.filter_cons_of_pos (by simpa using hbefore)] at hseen
    have hcut := congrArg (List.takeWhile (· ≠ column.name)) hseen
    rwa [takeWhile_ne_append fun hmem ↦ hfirst (List.mem_of_mem_filter hmem),
      takeWhile_ne_append fun hmem ↦ hfirst' (List.mem_of_mem_filter hmem)] at hcut
  have hinit : (before.map (·.name)).Nodup := (List.nodup_append.1 hn).1
  have hclosed := foundAt_iff hdesired (matchedOrder_perm h hnodup hdesired) hold hnames hlisting
  rw [List.length_map] at hclosed
  rw [hsettled.length_eq_iff hordern (hinit.filter _) hbefore, hcount]
  exact hclosed

omit h hnodup hdesired in
/-- Taking a name out and putting it in at an index is settling it, also where it stands there already. -/
theorem settle_of_append {first last : List String} {name : String} {index : ℕ} (hname : name ∉ first) :
    (if first.length != index then ((first ++ name :: last).eraseIdx first.length).insertIdx index name
      else first ++ name :: last) = settle index name (first ++ name :: last) := by
  have herase : (first ++ name :: last).eraseIdx first.length = first ++ last := by
    rw [List.eraseIdx_append_of_length_le (le_refl _)]
    simp
  have herase' : (first ++ name :: last).erase name = first ++ last := by
    rw [List.erase_append_right _ hname, List.erase_cons_head]
  rw [settle, herase', herase]
  by_cases heq : first.length = index
  · subst heq
    rw [if_neg (by simp), insertIdx_eq name (by simp)]
    simp
  · rw [if_pos (by simpa using heq)]

/-- **The loop over the kept columns**: what it does to a column depends on the target only. -/
theorem modifyColumns_eq {before rest : List CreateColumnTarget}
    (hsplit : target.desired.columns = before ++ rest) {order : List String}
    (hperm : order.Perm target.listing)
    (hsettled : Settled (kept target.isNew (before.map (·.name))) before.length order)
    (hseen : (order.filter fun name ↦ name ∉ kept target.isNew (before.map (·.name))) =
      target.listing.filter fun name ↦ name ∉ kept target.isNew (before.map (·.name))) :
    modifyColumns alphanumeric target (rest.zipIdx before.length) order =
      .ok ((rest.zipIdx before.length).flatMap fun entry ↦ (keptOperations alphanumeric target entry).1,
        (rest.zipIdx before.length).flatMap fun entry ↦ (keptOperations alphanumeric target entry).2) := by
  induction rest generalizing before order with
  | nil => rfl
  | cons column rest ih =>
    have hnext : target.desired.columns = (before ++ [column]) ++ rest := by simp [hsplit]
    have hlength : (before ++ [column]).length = before.length + 1 := by simp
    rw [List.zipIdx_cons, modifyColumns, List.flatMap_cons, List.flatMap_cons, keptOperations]
    obtain hnone | ⟨source, hsource⟩ := Option.eq_none_or_eq_some (target.sourceForTarget column.name)
    · have hnew : target.isNew column.name = true := by
        have hiff := @sourceForTarget_isSome_iff target h column.name
        rw [hnone] at hiff
        simpa using hiff
      have hkept : kept target.isNew ((before ++ [column]).map (·.name)) =
          kept target.isNew (before.map (·.name)) := by
        simp [kept, List.filter_append, hnew]
      have hrest := ih hnext hperm (by rw [hkept, hlength]; exact hsettled.succ) (by rw [hkept]; exact hseen)
      rw [hlength] at hrest
      rw [hnone]
      exact hrest
    · have hold : target.isNew column.name = false :=
        (sourceForTarget_isSome_iff h).1 (by rw [hsource]; rfl)
      obtain ⟨hmem, -⟩ := (sourceForTarget_eq_some_iff h).1 hsource
      obtain ⟨baseline, hbaseline⟩ := Option.isSome_iff_exists.1 (baselineByName_isSome_iff.2 hmem)
      have hordern := (hperm.trans (listing_perm h hnodup hdesired)).nodup_iff.2 hdesired
      have hmem' : column.name ∈ order := by
        rw [(hperm.trans (listing_perm h hnodup hdesired)).mem_iff, CreateTableTarget.columnNames, hsplit]
        simp
      obtain ⟨first, last, rfl, hfirst⟩ := List.eq_append_cons_of_mem hmem'
      have hfound := found_iff h hnodup hdesired hsplit hold hperm hsettled hseen
      have hchanged : (first.length != before.length) = !decide (target.InPlace column.name) := by
        rw [Bool.eq_iff_iff]
        simp [hfound]
      have hindex : before.length < (first ++ column.name :: last).length := by
        rw [(hperm.trans (listing_perm h hnodup hdesired)).length_eq, CreateTableTarget.columnNames, hsplit]
        simp
      have hkept : kept target.isNew ((before ++ [column]).map (·.name)) =
          kept target.isNew (before.map (·.name)) ++ [column.name] := by
        simp [kept, List.filter_append, hold]
      have hsettled' : Settled (kept target.isNew ((before ++ [column]).map (·.name)))
          (before ++ [column]).length (settle before.length column.name (first ++ column.name :: last)) := by
        obtain ⟨front, back, heq, hfront, hdone⟩ := hsettled.settle hordern hmem' hindex
        refine ⟨front, back, heq, by rw [hlength]; exact hfront, fun name hname ↦ hdone name ?_⟩
        rw [hkept] at hname
        simpa [or_comm] using hname
      have hseen' : ((settle before.length column.name (first ++ column.name :: last)).filter fun name ↦
            name ∉ kept target.isNew ((before ++ [column]).map (·.name))) =
          target.listing.filter fun name ↦ name ∉ kept target.isNew ((before ++ [column]).map (·.name)) := by
        rw [hkept, filter_settle hmem' hindex (by simp)]
        have hsplitseen : ∀ l : List String,
            (l.filter fun name ↦ name ∉ kept target.isNew (before.map (·.name)) ++ [column.name]) =
              (l.filter fun name ↦ name ∉ kept target.isNew (before.map (·.name))).filter
                (· ≠ column.name) := by
          intro l
          rw [List.filter_filter]
          refine List.filter_congr fun name _ ↦ ?_
          simp [and_comm]
        rw [hsplitseen, hseen, ← hsplitseen]
      have hrest := ih hnext ((settle_perm hmem' hindex).trans hperm) hsettled' hseen'
      rw [hlength] at hrest
      simp only [hsource, hbaseline, idxOf?_append hfirst]
      rw [settle_of_append hfirst, hrest, hchanged]
      rfl

end Kept

/-! ### The difference -/

/-- `rename_operations`, on renames that are accepted. -/
def renamePlan (target : AlterTableTarget) : List AlterOperation :=
  (sortByKey (·.2) (target.columnRenames.map fun rename ↦
    (rename, ((target.baselineByName rename.from_).map (·.position)).getD 0))).map fun rename ↦
      .renameColumn rename.1.from_ rename.1.to_ rename.2

theorem renameOperations_eq (h : RenamesAccepted target) :
    renameOperations target = .ok (renamePlan target) := by
  have hmap : target.columnRenames.mapM (renameWithPosition target) =
      .ok (target.columnRenames.map fun rename ↦
        (rename, ((target.baselineByName rename.from_).map (·.position)).getD 0)) := by
    refine mapM_eq_ok_iff.2 (List.forall₂_map_right_iff.2 (List.forall₂_same.2 fun rename hrename ↦ ?_))
    obtain ⟨column, hcolumn⟩ :=
      Option.isSome_iff_exists.1 (baselineByName_isSome_iff.2 (h.hexisting rename hrename))
    rw [renameWithPosition, hcolumn]
    rfl
  rw [renameOperations, hmap]
  rfl

/-- The operations of `diff_alter_table` in closed form. -/
def alterPlan (alphanumeric : Char → Bool) (target : AlterTableTarget) : List AlterOperation :=
  renamePlan target ++ target.desired.columns.zipIdx.filterMap (addOperation target) ++
    (target.desired.columns.zipIdx.flatMap fun entry ↦ (keptOperations alphanumeric target entry).1) ++
    (target.desired.columns.zipIdx.flatMap fun entry ↦ (keptOperations alphanumeric target entry).2) ++
    tableOperations alphanumeric target ++ dropOperations target

/-- **The difference**, on a baseline with distinct column names: it fails only in the checks, and its
operations are those of the plan. -/
theorem eq_alterPlan {operations : List AlterOperation}
    (h : diffAlterTable alphanumeric target = .ok operations)
    (hnodup : target.baseline.columnNames.Nodup) :
    AlterAccepted alphanumeric target ∧ operations = alterPlan alphanumeric target := by
  obtain ⟨_, hvalid, h⟩ := bind_eq_ok_iff.1 h
  have haccepted := validateAlterTarget_eq_ok hvalid
  have hdesired := (validateCreateTableTarget_eq_ok haccepted.hcreate).2.1
  have hrenames := haccepted.hrenames
  have hadd := @addColumns_eq target hrenames [] target.desired.columns rfl _ _
    (insertNew_listing hrenames hnodup hdesired)
  have hmodify := @modifyColumns_eq alphanumeric target hrenames hnodup hdesired [] target.desired.columns
    rfl _ (List.Perm.refl _) ⟨[], _, rfl, le_refl _, by simp [kept]⟩ rfl
  refine ⟨haccepted, ?_⟩
  obtain ⟨renames, hrenamed, h⟩ := bind_eq_ok_iff.1 h
  rw [renameOperations_eq hrenames] at hrenamed
  cases hrenamed
  obtain ⟨added, hadded, h⟩ := bind_eq_ok_iff.1 h
  rw [List.length_nil] at hadd hmodify
  rw [hadd] at hadded
  cases hadded
  obtain ⟨kept, hkept, h⟩ := bind_eq_ok_iff.1 h
  rw [hmodify] at hkept
  cases hkept
  obtain ⟨-, h⟩ := ite_error_eq_ok_iff.1 h
  cases h
  rfl

end ClickHouse
