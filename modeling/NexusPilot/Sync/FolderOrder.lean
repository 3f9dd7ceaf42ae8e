import NexusPilot.Machine.Forest
import NexusPilot.Sync.Staging

/-!
# The order of the staged folders

A batch puts each folder behind its parent. The loop walks along a list that grows while it is walked: the folders
without a staged parent are in it at first, and the children of each are put at its end. A cycle is noticed by the
number of folders that the list has in the end.

**`stagedOrder_folders`** says that the loop ends for every batch, that the batch is refused just if there is a cycle,
and what the order is otherwise. What carries it is `follows_appendDependents`.
-/

namespace Sync

open Machine

variable {B : Type}

/-! ### The loop -/

/-- The state of the loop: the list, the place that it has come to, and the children that are not in the list yet. -/
structure FolderScan where
  ordered : List String
  index : ℕ
  children : Table String (List String)

/-- The body of the loop, while `index < ordered.len()`. -/
def FolderScan.round (s : FolderScan) : Option FolderScan :=
  s.ordered[s.index]?.map fun id ↦
    match s.children.lookup id with
    | some dependents => ⟨s.ordered ++ dependents, s.index + 1, s.children.erase id⟩
    | none => ⟨s.ordered, s.index + 1, s.children⟩

/-- The loop ends with a list. -/
inductive FolderScan.Ends : FolderScan → List String → Prop
  | done {s : FolderScan} (h : s.round = none) : Ends s s.ordered
  | round {s s' : FolderScan} {ordered : List String} (h : s.round = some s') (hends : Ends s' ordered) :
      Ends s ordered

/-- The active folders of a batch, in the order in which they are read. -/
def stagedFolders (staging : Table String (StagedRow B)) : List (StagedRow B) :=
  (stagedRows staging).filter StagedRow.isActiveFolder

/-- The state in which the loop begins. -/
def FolderScan.start (staging : Table String (StagedRow B)) : FolderScan :=
  let folders := stagedFolders staging
  let grouped := groupFolders (folders.map (·.assetId)) folders ∅
  ⟨grouped.1, 0, grouped.2⟩

theorem length_grouped (children : Table String (List String)) (parent : String) :
    (grouped children).length =
      ((children.lookup parent).getD []).length + (grouped (children.erase parent)).length :=
  (grouped_perm children parent).length_eq.trans List.length_append

variable {fuel : ℕ} {queue ids : List String} {children : Table String (List String)}
  {parent id : String} {folders : List (StagedRow B)}

/-- **The loop ends**: a round takes one of the folders that are in the list or grouped. -/
theorem ends_appendDependents (queue : List String) (children : Table String (List String))
    (hfuel : queue.length + (grouped children).length ≤ fuel) (before : List String) :
    (⟨before ++ queue, before.length, children⟩ : FolderScan).Ends
      (before ++ appendDependents fuel queue children) := by
  induction fuel generalizing queue children before with
  | zero =>
    obtain rfl : queue = [] := List.eq_nil_of_length_eq_zero (by omega)
    refine FolderScan.Ends.done ?_
    rw [FolderScan.round, List.append_nil, List.getElem?_eq_none (Nat.le_refl _), Option.map_none]
  | succ fuel ih =>
    cases queue with
    | nil =>
      refine FolderScan.Ends.done ?_
      rw [FolderScan.round, List.append_nil, List.getElem?_eq_none (Nat.le_refl _), Option.map_none]
    | cons id queue =>
      have hid : (before ++ id :: queue)[before.length]? = some id := by
        rw [List.getElem?_append_right (Nat.le_refl _), Nat.sub_self, List.getElem?_cons_zero]
      have hsnoc : before ++ [id] ++ queue = before ++ id :: queue := List.append_assoc _ _ _
      have hlength := length_grouped children id
      rw [List.length_cons] at hfuel
      rw [appendDependents]
      obtain hnone | ⟨dependents, hsome⟩ := Option.eq_none_or_eq_some (children.lookup id)
      · have hends := ih queue children (by omega) (before ++ [id])
        rw [hsnoc, List.append_assoc, List.length_append] at hends
        rw [hnone]
        refine FolderScan.Ends.round ?_ hends
        rw [FolderScan.round, hid, Option.map_some, hnone]
        rfl
      · rw [hsome, Option.getD_some] at hlength
        have hends := ih (queue ++ dependents) (children.erase id) (by rw [List.length_append]; omega) (before ++ [id])
        rw [← List.append_assoc, hsnoc, List.append_assoc _ [id], List.length_append] at hends
        rw [hsome]
        refine FolderScan.Ends.round ?_ hends
        rw [FolderScan.round, hid, Option.map_some, hsome]
        rfl

/-! ### The list -/

/-- With enough rounds, what is in the list at first stays in it. -/
theorem subset_appendDependents (hfuel : queue.length + (grouped children).length ≤ fuel) :
    queue ⊆ appendDependents fuel queue children := by
  induction fuel generalizing queue children with
  | zero => exact fun _ h ↦ h
  | succ fuel ih =>
    cases queue with
    | nil => exact List.nil_subset _
    | cons id queue =>
      have hlength := length_grouped children id
      rw [List.length_cons] at hfuel
      rw [appendDependents]
      obtain hnone | ⟨dependents, hsome⟩ := Option.eq_none_or_eq_some (children.lookup id)
      · rw [hnone]
        exact List.cons_subset_cons id (ih (by omega))
      · rw [hsome, Option.getD_some] at hlength
        rw [hsome]
        have hrest := @ih (queue ++ dependents) (children.erase id) (by rw [List.length_append]; omega)
        exact List.cons_subset_cons id fun _ h ↦ hrest (List.mem_append_left _ h)

/-- A folder is grouped under a parent. -/
def GroupedUnder (children : Table String (List String)) (parent folder : String) : Prop :=
  folder ∈ (children.lookup parent).getD []

theorem GroupedUnder.mem_grouped {folder : String} (h : GroupedUnder children parent folder) :
    folder ∈ grouped children :=
  (grouped_perm children parent).mem_iff.2 (List.mem_append_left _ h)

/-- **The children of each folder of the list are behind it.** -/
theorem follows_appendDependents (hfuel : queue.length + (grouped children).length ≤ fuel)
    (hnodup : (queue ++ grouped children).Nodup) :
    Follows (GroupedUnder children) (appendDependents fuel queue children) := by
  induction fuel generalizing queue children with
  | zero =>
    obtain rfl : queue = [] := List.eq_nil_of_length_eq_zero (by omega)
    exact fun _ _ _ h ↦ by cases h
  | succ fuel ih =>
    cases queue with
    | nil => exact fun _ _ _ h ↦ by cases h
    | cons id queue =>
      have hlength := length_grouped children id
      have hperm := grouped_perm children id
      obtain ⟨hid, hrest⟩ := List.nodup_cons.1 hnodup
      rw [List.length_cons] at hfuel
      rw [appendDependents]
      intro p c hedge hp
      have hne : id ≠ c := by
        rintro rfl
        exact hid (List.mem_append_right _ hedge.mem_grouped)
      -- what holds behind the head holds in the list
      have hbehind : ∀ tail : List String, p ≠ id → (c ∈ tail ∧ tail.idxOf p < tail.idxOf c) →
          c ∈ id :: tail ∧ (id :: tail).idxOf p < (id :: tail).idxOf c := by
        rintro tail hpid ⟨hmem, hlt⟩
        rw [List.idxOf_cons_ne tail hne, List.idxOf_cons_ne tail (Ne.symm hpid)]
        exact ⟨List.mem_cons_of_mem _ hmem, Nat.succ_lt_succ hlt⟩
      obtain hnone | ⟨dependents, hsome⟩ := Option.eq_none_or_eq_some (children.lookup id)
      · rw [hnone] at hp ⊢
        have hpid : p ≠ id := by
          rintro rfl
          rw [GroupedUnder, hnone] at hedge
          cases hedge
        have hptail := (List.mem_cons.1 hp).resolve_left hpid
        exact hbehind _ hpid (ih (by omega) hrest p c hedge hptail)
      · rw [hsome, Option.getD_some] at hlength hperm
        rw [hsome] at hp ⊢
        have hfuel' : (queue ++ dependents).length + (grouped (children.erase id)).length ≤ fuel := by
          rw [List.length_append]
          omega
        rcases eq_or_ne p id with rfl | hpid
        · have hmem : c ∈ dependents := by
            rwa [GroupedUnder, hsome] at hedge
          have hctail := subset_appendDependents hfuel' (List.mem_append_right queue hmem)
          rw [List.idxOf_cons_self, List.idxOf_cons_ne _ hne]
          exact ⟨List.mem_cons_of_mem _ hctail, Nat.succ_pos _⟩
        · have hptail := (List.mem_cons.1 hp).resolve_left hpid
          have hnodup' : (queue ++ dependents ++ grouped (children.erase id)).Nodup := by
            rw [List.append_assoc]
            exact ((hperm.append_left queue).nodup_iff).1 hrest
          have hedge' : GroupedUnder (children.erase id) p c := by
            rwa [GroupedUnder, AList.lookup_erase_ne hpid]
          exact hbehind _ hpid (ih hfuel' hnodup' p c hedge' hptail)

/-! ### Grouping -/

/-- Each folder with a parent among the identifiers is grouped under it. -/
theorem groupedUnder_groupFolders :
    GroupedUnder (groupFolders ids folders children).2 parent id ↔
      GroupedUnder children parent id ∨
        ∃ folder ∈ folders, folder.assetId = id ∧ folder.parentId.filter (· ∈ ids) = some parent := by
  induction folders generalizing children with
  | nil =>
    refine ⟨Or.inl, fun h ↦ h.resolve_right ?_⟩
    rintro ⟨_, hmem, -⟩
    cases hmem
  | cons folder folders ih =>
    have hcons : (∃ folder' ∈ folder :: folders, folder'.assetId = id ∧
        folder'.parentId.filter (· ∈ ids) = some parent) ↔
        (folder.assetId = id ∧ folder.parentId.filter (· ∈ ids) = some parent) ∨
          ∃ folder' ∈ folders, folder'.assetId = id ∧ folder'.parentId.filter (· ∈ ids) = some parent :=
      List.exists_mem_cons_iff _ _ _
    rw [groupFolders, hcons, ← or_assoc]
    obtain hnone | ⟨found, hsome⟩ := Option.eq_none_or_eq_some (folder.parentId.filter (· ∈ ids))
    · rw [hnone]
      refine ih.trans (or_congr_left (or_iff_left ?_).symm)
      exact fun h ↦ by cases h.2
    · rw [hsome]
      refine ih.trans (or_congr_left ?_)
      rw [GroupedUnder, Table.lookup_insert, GroupedUnder]
      split_ifs with heq
      · rw [Option.getD_some, List.mem_append, List.mem_singleton, heq]
        exact or_congr_right ⟨fun h ↦ ⟨h.symm, rfl⟩, fun h ↦ h.1.symm⟩
      · refine (or_iff_left ?_).symm
        exact fun h ↦ heq (Option.some.inj h.2).symm

/-- The others are in the list at first. -/
theorem mem_groupFolders :
    id ∈ (groupFolders ids folders children).1 ↔
      ∃ folder ∈ folders, folder.assetId = id ∧ folder.parentId.filter (· ∈ ids) = none := by
  induction folders generalizing children with
  | nil =>
    refine iff_of_false List.not_mem_nil ?_
    rintro ⟨_, hmem, -⟩
    cases hmem
  | cons folder folders ih =>
    have hcons : (∃ folder' ∈ folder :: folders, folder'.assetId = id ∧
        folder'.parentId.filter (· ∈ ids) = none) ↔
        (folder.assetId = id ∧ folder.parentId.filter (· ∈ ids) = none) ∨
          ∃ folder' ∈ folders, folder'.assetId = id ∧ folder'.parentId.filter (· ∈ ids) = none :=
      List.exists_mem_cons_iff _ _ _
    rw [groupFolders, hcons]
    obtain hnone | ⟨found, hsome⟩ := Option.eq_none_or_eq_some (folder.parentId.filter (· ∈ ids))
    · rw [hnone]
      refine List.mem_cons.trans (or_congr ?_ ih)
      exact ⟨fun h ↦ ⟨h.symm, rfl⟩, fun h ↦ h.1.symm⟩
    · rw [hsome]
      refine ih.trans (or_iff_right ?_).symm
      exact fun h ↦ by cases h.2

/-! ### The order of a batch -/

/-- The asset is a staged active folder. -/
def IsStagedFolder (staging : Table String (StagedRow B)) (id : String) : Prop :=
  ∃ row, staging.lookup id = some row ∧ row.isActiveFolder = true

/-- A staged active folder points to another one as its parent. -/
def ParentOf (staging : Table String (StagedRow B)) (parent folder : String) : Prop :=
  IsStagedFolder staging parent ∧
    ∃ row, staging.lookup folder = some row ∧ row.isActiveFolder = true ∧ row.parentId = some parent

/-- The parent pointers among the staged active folders contain a cycle. -/
def HasParentCycle (staging : Table String (StagedRow B)) : Prop :=
  ∃ id, Relation.TransGen (ParentOf staging) id id

/-- A list has each staged active folder once, behind its parent if that is staged too. -/
structure OrdersFolders (staging : Table String (StagedRow B)) (ordered : List String) : Prop where
  once : ordered.Nodup
  folders : ∀ id, id ∈ ordered ↔ IsStagedFolder staging id
  parents : ∀ parent folder, ParentOf staging parent folder → ordered.idxOf parent < ordered.idxOf folder

/-- The message of the check. -/
def cycleError : SyncError :=
  .validation "Cloud sync folders contain a parent cycle"

/-- The list that the loop ends with. -/
def scannedFolders (staging : Table String (StagedRow B)) : List String :=
  appendDependents ((stagedFolders staging).map (·.assetId)).length (FolderScan.start staging).ordered
    (FolderScan.start staging).children

theorem start_perm (staging : Table String (StagedRow B)) :
    ((FolderScan.start staging).ordered ++ grouped (FolderScan.start staging).children).Perm
      ((stagedFolders staging).map (·.assetId)) := by
  have hperm := groupFolders_perm ((stagedFolders staging).map (·.assetId)) (stagedFolders staging) ∅
  rwa [show grouped (∅ : Table String (List String)) = [] from rfl, List.append_nil] at hperm

theorem start_length (staging : Table String (StagedRow B)) :
    (FolderScan.start staging).ordered.length + (grouped (FolderScan.start staging).children).length ≤
      ((stagedFolders staging).map (·.assetId)).length := by
  rw [← List.length_append]
  exact (start_perm staging).length_eq.le

/-- The loop ends for every batch. -/
theorem ends_scannedFolders (staging : Table String (StagedRow B)) :
    (FolderScan.start staging).Ends (scannedFolders staging) :=
  ends_appendDependents _ _ (start_length staging) []

/-- What a batch has behind the folders. -/
def otherAssets (staging : Table String (StagedRow B)) : List String :=
  (((stagedRows staging).filter (!·.isActiveFolder)).insertionSort fun left right ↦ left.rank ≤ right.rank).map
    (·.assetId)

/-- The check by the number of folders. -/
theorem stagedOrder_eq (staging : Table String (StagedRow B)) :
    stagedOrder staging =
      if (scannedFolders staging).length ≠ ((stagedFolders staging).map (·.assetId)).length then .error cycleError
      else .ok (scannedFolders staging ++ otherAssets staging) :=
  rfl

section Keyed

variable {staging : Table String (StagedRow B)}
  (hkeys : ∀ assetId row, staging.lookup assetId = some row → row.assetId = assetId)

include hkeys

variable {id : String}

theorem mem_stagedFolders :
    id ∈ (stagedFolders staging).map (·.assetId) ↔ IsStagedFolder staging id := by
  rw [stagedFolders, List.mem_map]
  constructor
  · rintro ⟨row, hrow, rfl⟩
    obtain ⟨hmem, hactive⟩ := List.mem_filter.1 hrow
    obtain ⟨found, hfound⟩ := mem_stagedRows.1 hmem
    rw [← hkeys found row hfound] at hfound
    exact ⟨row, hfound, hactive⟩
  · rintro ⟨row, hrow, hactive⟩
    exact ⟨row, List.mem_filter.2 ⟨mem_stagedRows.2 ⟨id, hrow⟩, hactive⟩, hkeys _ _ hrow⟩

theorem nodup_stagedFolders : ((stagedFolders staging).map (·.assetId)).Nodup := by
  have hrows : ((stagedRows staging).map (·.assetId)).Nodup :=
    (stagedRows_perm_keys hkeys).nodup_iff.2 staging.nodupKeys
  exact hrows.sublist (List.filter_sublist.map _)

theorem groupedUnder_start {parent : String} :
    GroupedUnder (FolderScan.start staging).children parent id ↔ ParentOf staging parent id := by
  refine groupedUnder_groupFolders.trans ((or_iff_right fun h ↦ (nomatch h)).trans ?_)
  constructor
  · rintro ⟨folder, hfolder, rfl, hparent⟩
    obtain ⟨hparent, hstaged⟩ := Option.filter_eq_some_iff.1 hparent
    obtain ⟨hmem, hactive⟩ := List.mem_filter.1 hfolder
    obtain ⟨found, hfound⟩ := mem_stagedRows.1 hmem
    rw [← hkeys found folder hfound] at hfound
    exact ⟨(mem_stagedFolders hkeys).1 (of_decide_eq_true hstaged), folder, hfound, hactive, hparent⟩
  · rintro ⟨hstaged, row, hrow, hactive, hparent⟩
    refine ⟨row, List.mem_filter.2 ⟨mem_stagedRows.2 ⟨id, hrow⟩, hactive⟩, hkeys _ _ hrow, ?_⟩
    exact Option.filter_eq_some_iff.2 ⟨hparent, decide_eq_true ((mem_stagedFolders hkeys).2 hstaged)⟩

/-- **The list is an order along the parent pointers.** -/
theorem follows_scannedFolders : Follows (ParentOf staging) (scannedFolders staging) := by
  intro parent folder hedge
  have hnodup := (start_perm staging).nodup_iff.2 (nodup_stagedFolders hkeys)
  exact follows_appendDependents (start_length staging) hnodup parent folder ((groupedUnder_start hkeys).2 hedge)

/-- Every folder is in the list at first or has a parent that is staged. -/
theorem start_or_parent (h : id ∈ (stagedFolders staging).map (·.assetId)) :
    id ∈ scannedFolders staging ∨ ∃ parent ∈ (stagedFolders staging).map (·.assetId), ParentOf staging parent id := by
  obtain ⟨row, hrow, hactive⟩ := (mem_stagedFolders hkeys).1 h
  have hfolder : row ∈ stagedFolders staging :=
    List.mem_filter.2 ⟨mem_stagedRows.2 ⟨id, hrow⟩, hactive⟩
  obtain hnone | ⟨parent, hsome⟩ :=
    Option.eq_none_or_eq_some (row.parentId.filter (· ∈ (stagedFolders staging).map (·.assetId)))
  · have hstart : id ∈ (FolderScan.start staging).ordered :=
      mem_groupFolders.2 ⟨row, hfolder, hkeys _ _ hrow, hnone⟩
    exact Or.inl (subset_appendDependents (start_length staging) hstart)
  · obtain ⟨hparent, hstaged⟩ := Option.filter_eq_some_iff.1 hsome
    have hmem := of_decide_eq_true hstaged
    exact Or.inr ⟨parent, hmem, (mem_stagedFolders hkeys).1 hmem, row, hrow, hactive, hparent⟩

/-- The list is short of a folder just if there is a cycle. -/
theorem length_scannedFolders :
    (scannedFolders staging).length = ((stagedFolders staging).map (·.assetId)).length ↔
      ¬ HasParentCycle staging := by
  have hfollows := follows_scannedFolders hkeys
  have hsubperm : (scannedFolders staging).Subperm ((stagedFolders staging).map (·.assetId)) :=
    (appendDependents_subperm _ _ _).trans (start_perm staging).subperm
  constructor
  · rintro hlength ⟨id, hcycle⟩
    have hperm := hsubperm.perm_of_length_le hlength.ge
    refine acyclic_of_follows hfollows (fun parent folder hedge ↦ ?_) id hcycle
    exact hperm.mem_iff.2 ((mem_stagedFolders hkeys).2 hedge.1)
  · intro hacyclic
    have hsubset := subset_of_acyclic hfollows (fun id h ↦ start_or_parent hkeys h) fun id hcycle ↦
      hacyclic ⟨id, hcycle⟩
    exact hsubperm.length_le.antisymm (List.subperm_of_subset (nodup_stagedFolders hkeys) hsubset).length_le

/-- **The order of the staged folders.** The loop ends with a list; the batch is refused just if the parent pointers
contain a cycle; and otherwise the list has each folder once, behind its parent, and is what the batch begins with. -/
theorem stagedOrder_folders :
    ∃ ordered, (FolderScan.start staging).Ends ordered ∧
      (stagedOrder staging = .error cycleError ↔ HasParentCycle staging) ∧
      (¬ HasParentCycle staging → OrdersFolders staging ordered ∧ ∃ other, stagedOrder staging = .ok (ordered ++ other) ∧
        ∀ id ∈ other, ¬ IsStagedFolder staging id) := by
  have hlength := length_scannedFolders hkeys
  refine ⟨scannedFolders staging, ends_scannedFolders staging, ?_, fun hacyclic ↦ ⟨?_, otherAssets staging, ?_, ?_⟩⟩
  · rw [stagedOrder_eq]
    split_ifs with hshort
    · exact iff_of_true rfl (not_not.1 fun hacyclic ↦ hshort (hlength.2 hacyclic))
    · exact iff_of_false (nofun) (hlength.1 (not_not.1 hshort))
  · have hperm : (scannedFolders staging).Perm ((stagedFolders staging).map (·.assetId)) :=
      ((appendDependents_subperm _ _ _).trans (start_perm staging).subperm).perm_of_length_le (hlength.2 hacyclic).ge
    have hmem : ∀ id, id ∈ scannedFolders staging ↔ IsStagedFolder staging id := fun id ↦
      hperm.mem_iff.trans (mem_stagedFolders hkeys)
    refine ⟨hperm.nodup_iff.2 (nodup_stagedFolders hkeys), hmem, fun parent folder hedge ↦ ?_⟩
    exact (follows_scannedFolders hkeys parent folder hedge ((hmem parent).2 hedge.1)).2
  · rw [stagedOrder_eq, if_neg (not_not.2 (hlength.2 hacyclic))]
  · rintro id hid ⟨row, hrow, hactive⟩
    obtain ⟨row', hrow', rfl⟩ := List.mem_map.1 hid
    obtain ⟨hmem, hother⟩ := List.mem_filter.1 ((List.perm_insertionSort _ _).mem_iff.1 hrow')
    obtain ⟨found, hfound⟩ := mem_stagedRows.1 hmem
    rw [← hkeys found row' hfound] at hfound
    obtain rfl := Option.some.inj (hfound.symm.trans hrow)
    rw [hactive] at hother
    exact (nomatch hother)

end Keyed

/-- A staged active folder. -/
def activeFolder (id : String) (parentId : Option String) : StagedRow Unit where
  assetId := id
  revision := 1
  assetType := .connectionFolder
  tombstone := false
  parentId := parentId
  change := ⟨"1", ⟨id, "connection_folder", "1", none, 1, 1, none, 0, false, "1", "device", none⟩⟩

/-- A folder in another one, staged together. -/
def innerAndOuter : Table String (StagedRow Unit) :=
  AList.insert "inner" (activeFolder "inner" (some "outer")) (AList.insert "outer" (activeFolder "outer" none) ∅)

theorem stagedOrder_innerAndOuter :
    ∃ ordered, (FolderScan.start innerAndOuter).Ends ordered ∧
      (stagedOrder innerAndOuter = .error cycleError ↔ HasParentCycle innerAndOuter) ∧
      (¬ HasParentCycle innerAndOuter → OrdersFolders innerAndOuter ordered ∧
        ∃ other, stagedOrder innerAndOuter = .ok (ordered ++ other) ∧
          ∀ id ∈ other, ¬ IsStagedFolder innerAndOuter id) := by
  refine stagedOrder_folders fun assetId row h ↦ ?_
  rw [innerAndOuter, Table.lookup_insert, Table.lookup_insert] at h
  split_ifs at h with hinner houter
  · rw [hinner, ← Option.some.inj h]
    rfl
  · rw [houter, ← Option.some.inj h]
    rfl
  · exact (nomatch h)

end Sync
