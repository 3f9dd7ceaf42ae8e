import Mathlib.Logic.Relation
import NexusPilot.Sync.Pull
import NexusPilot.Sync.RoundTrip

/-!
# Deleting a tree of folders

A folder that is deleted on another device arrives as tombstones: one for the folder and one for each asset below it.
A batch sorts them by kind and then by identifier, not by depth, and a folder that still has something in it is not
deleted but kept as a conflict. So the tree goes away exactly where the identifier of each folder below another one
comes before that one's (`treeDeleted_iff`).
-/

namespace Sync

open Machine
open Drivers (bind_eq_ok_iff)

variable {B : Type}

/-! ### What a tombstone touches -/

/-- Nothing is changed but what belongs to some assets. -/
structure Touches (assetIds : List String) (db db' : Db B) : Prop where
  folders : ∀ other ∉ assetIds, db'.folders.lookup other = db.folders.lookup other
  connections : ∀ other ∉ assetIds, db'.connections.lookup other = db.connections.lookup other
  assets : ∀ other ∉ assetIds, db'.assets.lookup other = db.assets.lookup other
  staging : db'.staging = db.staging

theorem Touches.refl (assetIds : List String) (db : Db B) : Touches assetIds db db :=
  ⟨fun _ _ ↦ rfl, fun _ _ ↦ rfl, fun _ _ ↦ rfl, rfl⟩

variable {db db' : Db B} {cfg : Config B} {staging : Table String (StagedRow B)}

/-- Some assets, and then some others. -/
theorem Touches.append {first last : List String} {db₁ : Db B} (h : Touches first db db₁)
    (h' : Touches last db₁ db') : Touches (first ++ last) db db' := by
  have hsplit : ∀ {other}, other ∉ first ++ last → other ∉ first ∧ other ∉ last := fun hother ↦
    ⟨fun hmem ↦ hother (List.mem_append_left _ hmem), fun hmem ↦ hother (List.mem_append_right _ hmem)⟩
  refine ⟨fun other hother ↦ ?_, fun other hother ↦ ?_, fun other hother ↦ ?_, h'.staging.trans h.staging⟩
  · exact (h'.folders other (hsplit hother).2).trans (h.folders other (hsplit hother).1)
  · exact (h'.connections other (hsplit hother).2).trans (h.connections other (hsplit hother).1)
  · exact (h'.assets other (hsplit hother).2).trans (h.assets other (hsplit hother).1)

/-- The rows of a table are its entries. -/
theorem any_entries_iff {Row : Type} (table : Table String Row) (p : Row → Prop) [DecidablePred p] :
    (table.entries.any fun entry ↦ p entry.2) = true ↔ ∃ child row, table.lookup child = some row ∧ p row := by
  rw [List.any_eq_true]
  constructor
  · rintro ⟨⟨child, row⟩, hmem, hp⟩
    exact ⟨child, row, AList.mem_lookup_iff.2 hmem, of_decide_eq_true hp⟩
  · rintro ⟨child, row, hrow, hp⟩
    exact ⟨⟨child, row⟩, AList.mem_lookup_iff.1 hrow, decide_eq_true hp⟩

theorem hasChildFolders_iff {id : String} :
    hasChildFolders db id = true ↔ ∃ child row, db.folders.lookup child = some row ∧ row.parentId = some id :=
  any_entries_iff db.folders (·.parentId = some id)

theorem hasChildConnections_iff {id : String} :
    hasChildConnections db id = true ↔
      ∃ child row, db.connections.lookup child = some row ∧ row.folderId = some id :=
  any_entries_iff db.connections (·.folderId = some id)

/-- What `apply_remote_projection` makes of a tombstone. -/
def tombstoned (db : Db B) (change : Change B) : Db B :=
  upsertMetadata
    (match change.assetType with
      | .connection => { db with connections := db.connections.erase change.id }
      | .connectionFolder => { db with folders := db.folders.erase change.id })
    change .remoteDeleted none

theorem touches_tombstoned (db : Db B) (change : Change B) : Touches [change.id] db (tombstoned db change) := by
  cases htype : change.assetType with
  | connection =>
    refine ⟨fun _ _ ↦ ?_, fun other hne ↦ ?_, fun other hne ↦ ?_, ?_⟩ <;> rw [tombstoned, htype]
    · rfl
    · exact AList.lookup_erase_ne (List.ne_of_not_mem_cons hne)
    · exact AList.lookup_insert_ne (List.ne_of_not_mem_cons hne)
    · rfl
  | connectionFolder =>
    refine ⟨fun other hne ↦ ?_, fun _ _ ↦ ?_, fun other hne ↦ ?_, ?_⟩ <;> rw [tombstoned, htype]
    · exact AList.lookup_erase_ne (List.ne_of_not_mem_cons hne)
    · rfl
    · exact AList.lookup_insert_ne (List.ne_of_not_mem_cons hne)
    · rfl

/-- What a tombstone leaves was there before. -/
theorem tombstoned_le (db : Db B) (change : Change B) :
    (∀ {id row}, (tombstoned db change).folders.lookup id = some row → db.folders.lookup id = some row) ∧
      ∀ {id row}, (tombstoned db change).connections.lookup id = some row → db.connections.lookup id = some row := by
  rw [tombstoned]
  cases change.assetType with
  | connection =>
    refine ⟨fun h ↦ h, fun {id row} h ↦ ?_⟩
    replace h : AList.lookup id (AList.erase change.id db.connections) = some row := h
    rw [Table.lookup_erase] at h
    split_ifs at h
    exact h
  | connectionFolder =>
    refine ⟨fun {id row} h ↦ ?_, fun h ↦ h⟩
    replace h : AList.lookup id (AList.erase change.id db.folders) = some row := h
    rw [Table.lookup_erase] at h
    split_ifs at h
    exact h

theorem applyRemoteProjection_tombstone {change : Change B} (htombstone : change.tombstone = true)
    (h : applyRemoteProjection cfg db change = .ok db') :
    db' = tombstoned db change ∧ (change.assetType = .connectionFolder →
      (db.folders.lookup change.id).isSome = true → folderHasChildren db change.id = false) := by
  rw [applyRemoteProjection, if_pos htombstone] at h
  obtain ⟨deleted, hdeleted, h⟩ := bind_eq_ok_iff.1 h
  cases h
  rw [tombstoned]
  cases htype : change.assetType with
  | connection =>
    rw [htype] at hdeleted
    cases hdeleted
    exact ⟨rfl, fun hcontra ↦ (nomatch hcontra)⟩
  | connectionFolder =>
    rw [htype, deleteLocal] at hdeleted
    split_ifs at hdeleted with hchildren
    cases hdeleted
    refine ⟨rfl, fun _ hsome ↦ ?_⟩
    rw [← Bool.not_eq_true]
    exact fun htrue ↦ hchildren ⟨hsome, htrue⟩

theorem persistConflict_frame {supply : Supply B} {change : Change B} {operation : Option (OperationRow B)}
    (h : persistConflict cfg supply db change operation = .ok db') :
    db'.folders = db.folders ∧ db'.connections = db.connections ∧ db'.staging = db.staging ∧
      ∀ other ≠ change.id, db'.assets.lookup other = db.assets.lookup other := by
  obtain ⟨candidate, -, h⟩ := bind_eq_ok_iff.1 h
  obtain ⟨_, -, h⟩ := bind_eq_ok_iff.1 h
  obtain ⟨inserted, hinserted, h⟩ := bind_eq_ok_iff.1 h
  have hframe : inserted.folders = db.folders ∧ inserted.connections = db.connections ∧
      inserted.staging = db.staging ∧ inserted.assets = db.assets := by
    rw [insertConflict] at hinserted
    split at hinserted
    · cases hinserted
      exact ⟨rfl, rfl, rfl, rfl⟩
    · split_ifs at hinserted
      cases hinserted
      exact ⟨rfl, rfl, rfl, rfl⟩
  have hassets : ∀ other ≠ change.id,
      (markConflicted inserted change candidate).assets.lookup other = db.assets.lookup other := fun other hne ↦ by
    rw [← hframe.2.2.2]
    exact AList.lookup_insert_ne hne
  cases hid : candidate.operationId with
  | none =>
    rw [hid] at h
    cases h
    exact ⟨hframe.1, hframe.2.1, hframe.2.2.1, hassets⟩
  | some operationId =>
    rw [hid] at h
    cases h
    rw [setOperationStatus]
    split
    · exact ⟨hframe.1, hframe.2.1, hframe.2.2.1, hassets⟩
    · exact ⟨hframe.1, hframe.2.1, hframe.2.2.1, hassets⟩

/-- **What becomes of a tombstone**: either the asset is deleted, and if it is a folder there is nothing in it, or the
folders and the connections stay as they are. -/
theorem applyChange_tombstone [DecidableEq B] {supply : Supply B} {change : Change B} {outcome : Outcome}
    (htombstone : change.tombstone = true) (h : applyChange cfg supply db change = .ok (outcome, db')) :
    Touches [change.id] db db' ∧
      (change.assetType = .connectionFolder → folderHasChildren db change.id = true →
        db'.folders.lookup change.id = db.folders.lookup change.id) := by
  have happlied : ∀ {db'' : Db B}, applyRemoteProjection cfg db change = .ok db'' →
      Touches [change.id] db db'' ∧ (change.assetType = .connectionFolder → folderHasChildren db change.id = true →
        db''.folders.lookup change.id = db.folders.lookup change.id) := fun hremote ↦ by
    obtain ⟨rfl, hempty⟩ := applyRemoteProjection_tombstone htombstone hremote
    refine ⟨touches_tombstoned db change, fun htype hchildren ↦ ?_⟩
    have hnone : db.folders.lookup change.id = none := by
      rcases Option.eq_none_or_eq_some (db.folders.lookup change.id) with hnone | ⟨row, hrow⟩
      · exact hnone
      · rw [hempty htype (by rw [hrow]; rfl)] at hchildren
        cases hchildren
    rw [hnone, tombstoned, htype]
    exact AList.lookup_erase _ _
  have hkept : ∀ {operation : Option (OperationRow B)} {db'' : Db B},
      persistConflict cfg supply db change operation = .ok db'' →
      Touches [change.id] db db'' ∧ (change.assetType = .connectionFolder → folderHasChildren db change.id = true →
        db''.folders.lookup change.id = db.folders.lookup change.id) := fun hconflict ↦ by
    obtain ⟨hfolders, hconnections, hstaging, hassets⟩ := persistConflict_frame hconflict
    exact ⟨⟨fun _ _ ↦ by rw [hfolders], fun _ _ ↦ by rw [hconnections],
      fun other hne ↦ hassets other (List.ne_of_not_mem_cons hne), hstaging⟩,
      fun _ _ ↦ by rw [hfolders]⟩
  have hunmatched : ∀ operation, applyUnmatched cfg supply db change operation = .ok (outcome, db') →
      Touches [change.id] db db' ∧ (change.assetType = .connectionFolder → folderHasChildren db change.id = true →
        db'.folders.lookup change.id = db.folders.lookup change.id) := fun operation hrest ↦ by
    obtain ⟨factChanged, -, hrest⟩ := bind_eq_ok_iff.1 hrest
    split_ifs at hrest
    · obtain ⟨_, hconflict, hrest⟩ := bind_eq_ok_iff.1 hrest
      cases hrest
      exact hkept hconflict
    · obtain ⟨_, hremote, hrest⟩ := bind_eq_ok_iff.1 hrest
      cases hrest
      exact happlied hremote
  rw [applyChange] at h
  split_ifs at h
  · cases h
    exact ⟨Touches.refl _ _, fun _ _ ↦ rfl⟩
  · cases hoperation : loadPendingOperation db change.id with
    | none =>
      rw [hoperation] at h
      exact hunmatched none h
    | some operation =>
      rw [hoperation] at h
      dsimp only at h
      split_ifs at h
      · obtain ⟨db'', hremote, h⟩ := bind_eq_ok_iff.1 h
        cases h
        obtain ⟨htouches, hfolders⟩ := happlied hremote
        rw [setOperationStatus]
        split
        · exact ⟨htouches, hfolders⟩
        · exact ⟨⟨htouches.folders, htouches.connections, htouches.assets, htouches.staging⟩, hfolders⟩
      · cases h
        exact ⟨Touches.refl _ _, fun _ _ ↦ rfl⟩
      · exact hunmatched _ h

/-! ### The order of a batch of tombstones -/

/-- The identifiers of the staged rows of one kind, in their order. -/
def stagedIds (staging : Table String (StagedRow B)) (assetType : AssetType) : List String :=
  ((stagedRows staging).filter fun row ↦ row.assetType = assetType).map (·.assetId)

theorem mem_stagedRows {row : StagedRow B} :
    row ∈ stagedRows staging ↔ ∃ assetId, staging.lookup assetId = some row := by
  rw [stagedRows, (List.perm_insertionSort _ _).mem_iff, List.mem_map]
  constructor
  · rintro ⟨⟨assetId, row⟩, hmem, rfl⟩
    exact ⟨assetId, AList.mem_lookup_iff.2 hmem⟩
  · rintro ⟨assetId, hrow⟩
    exact ⟨⟨assetId, row⟩, AList.mem_lookup_iff.1 hrow, rfl⟩

/-- Connections come before folders. -/
theorem stagedOrder_of_tombstones (h : ∀ row ∈ stagedRows staging, row.tombstone = true) :
    stagedOrder staging = .ok (stagedIds staging .connection ++ stagedIds staging .connectionFolder) := by
  have hfolders : (stagedRows staging).filter StagedRow.isActiveFolder = [] :=
    List.filter_eq_nil_iff.2 fun row hrow ↦ by rw [StagedRow.isActiveFolder, h row hrow]; simp
  have hother : (stagedRows staging).filter (!·.isActiveFolder) = stagedRows staging :=
    List.filter_eq_self.2 fun row hrow ↦ by rw [StagedRow.isActiveFolder, h row hrow]; simp
  have hrank : ∀ row ∈ stagedRows staging, row.rank = if row.assetType = .connectionFolder then 3 else 2 :=
    fun row hrow ↦ by
      rw [StagedRow.rank, h row hrow]
      split_ifs with htype <;> simp [htype]
  have hsort : (stagedRows staging).insertionSort (fun left right ↦ left.rank ≤ right.rank) =
      (stagedRows staging).filter (fun row ↦ row.assetType = .connection) ++
        (stagedRows staging).filter (fun row ↦ row.assetType = .connectionFolder) := by
    rw [insertionSort_of_two_keys (show 2 < 3 by omega) fun row hrow ↦ by
      rw [hrank row hrow]
      split_ifs
      · exact .inr rfl
      · exact .inl rfl]
    congr 1
    · refine List.filter_congr fun row hrow ↦ ?_
      rw [hrank row hrow]
      cases row.assetType <;> rfl
    · refine List.filter_congr fun row hrow ↦ ?_
      rw [hrank row hrow]
      cases row.assetType <;> rfl
  rw [stagedOrder]
  dsimp only
  rw [hfolders, hother, hsort, List.map_append]
  rfl

/-- The rows of one kind are sorted by their identifiers. -/
theorem stagedIds_sorted (staging : Table String (StagedRow B)) (assetType : AssetType) :
    (stagedIds staging assetType).Pairwise (· ≤ ·) := by
  have hsorted : (stagedRows staging).Pairwise fun left right ↦ left.assetId ≤ right.assetId :=
    List.pairwise_insertionSort (fun left right : StagedRow B ↦ left.assetId ≤ right.assetId) _
  exact List.pairwise_map.2 (hsorted.filter _)

section Keyed

variable {staging : Table String (StagedRow B)}
  (hkeys : ∀ assetId row, staging.lookup assetId = some row → row.assetId = assetId)

include hkeys

theorem mem_stagedIds {assetType : AssetType} {assetId : String} :
    assetId ∈ stagedIds staging assetType ↔
      ∃ row, staging.lookup assetId = some row ∧ row.assetType = assetType := by
  rw [stagedIds, List.mem_map]
  constructor
  · rintro ⟨row, hrow, rfl⟩
    obtain ⟨hmem, htype⟩ := List.mem_filter.1 hrow
    obtain ⟨found, hfound⟩ := mem_stagedRows.1 hmem
    rw [← hkeys found row hfound] at hfound
    exact ⟨row, hfound, of_decide_eq_true htype⟩
  · rintro ⟨row, hrow, htype⟩
    exact ⟨row, List.mem_filter.2 ⟨mem_stagedRows.2 ⟨assetId, hrow⟩, decide_eq_true htype⟩, hkeys _ _ hrow⟩

/-- Every staged asset has its row. -/
theorem stagedRows_perm_keys : ((stagedRows staging).map (·.assetId)).Perm staging.keys := by
  refine ((List.perm_insertionSort _ _).map _).trans ?_
  rw [List.map_map]
  refine List.Perm.of_eq (List.map_congr_left fun entry hentry ↦ ?_)
  exact hkeys entry.1 entry.2 (AList.mem_lookup_iff.2 hentry)

/-- Every staged asset has its one turn. -/
theorem stagedOrder_perm_keys :
    (stagedIds staging .connection ++ stagedIds staging .connectionFolder).Perm staging.keys := by
  refine List.Perm.trans ?_ (stagedRows_perm_keys hkeys)
  rw [stagedIds, stagedIds, ← List.map_append]
  refine List.Perm.map _ ?_
  have hnot : (fun row : StagedRow B ↦ decide (row.assetType = .connectionFolder)) =
      fun row ↦ !decide (row.assetType = .connection) := by
    funext row
    cases row.assetType <;> rfl
  rw [hnot]
  exact List.filter_append_perm _ _

theorem stagedOrder_nodup : (stagedIds staging .connection ++ stagedIds staging .connectionFolder).Nodup :=
  (stagedOrder_perm_keys hkeys).nodup_iff.2 staging.nodupKeys

end Keyed

/-! ### Runs over a batch -/

section Runs

variable [DecidableEq B] {cfg : Config B} {guard : Nat → Bool} {supply : Supply B} {db db' : Db B} {turn : Nat}
  {outcomes : List (Change B × Outcome)}

variable {assetIds after : List String}

theorem applyOrdered_cons {assetId : String}
    (h : applyOrdered cfg guard supply turn (assetId :: assetIds) db = .ok (outcomes, db')) :
    guard turn = true ∧ ∃ change outcome db₁ rest, stagedChange cfg db.staging assetId = .ok change ∧
      applyChange cfg supply db change = .ok (outcome, db₁) ∧
      applyOrdered cfg guard supply (turn + 1) assetIds db₁ = .ok (rest, db') := by
  obtain ⟨_, hguard, h⟩ := bind_eq_ok_iff.1 h
  obtain ⟨change, hchange, h⟩ := bind_eq_ok_iff.1 h
  obtain ⟨⟨outcome, db₁⟩, happlied, h⟩ := bind_eq_ok_iff.1 h
  obtain ⟨⟨rest, db₂⟩, hrest, h⟩ := bind_eq_ok_iff.1 h
  cases h
  refine ⟨?_, change, outcome, db₁, rest, hchange, happlied, hrest⟩
  rw [askGuard] at hguard
  by_contra hfalse
  rw [if_neg hfalse] at hguard
  cases hguard

theorem applyOrdered_append {before : List String}
    (h : applyOrdered cfg guard supply turn (before ++ after) db = .ok (outcomes, db')) :
    ∃ first db₁ rest, applyOrdered cfg guard supply turn before db = .ok (first, db₁) ∧
      applyOrdered cfg guard supply (turn + before.length) after db₁ = .ok (rest, db') := by
  induction before generalizing turn db outcomes with
  | nil => exact ⟨[], db, outcomes, rfl, h⟩
  | cons assetId before ih =>
    obtain ⟨hguard, change, outcome, db₁, rest, hchange, happlied, hrest⟩ := applyOrdered_cons h
    obtain ⟨first, db₂, rest', hfirst, hrest'⟩ := ih hrest
    refine ⟨(change, outcome) :: first, db₂, rest', ?_, ?_⟩
    · rw [applyOrdered, askGuard, if_pos hguard, hchange]
      refine bind_eq_ok_iff.2 ⟨(), rfl, bind_eq_ok_iff.2 ⟨change, rfl, bind_eq_ok_iff.2 ⟨_, happlied, ?_⟩⟩⟩
      exact bind_eq_ok_iff.2 ⟨_, hfirst, rfl⟩
    · rw [List.length_cons, Nat.add_comm before.length 1, ← Nat.add_assoc]
      exact hrest'

/-- The guard was asked before each asset. -/
theorem guard_of_applyOrdered (h : applyOrdered cfg guard supply turn assetIds db = .ok (outcomes, db'))
    {k : Nat} (hk : k < assetIds.length) :
    guard (turn + k) = true := by
  induction assetIds generalizing turn db outcomes k with
  | nil => exact absurd hk (Nat.not_lt_zero k)
  | cons assetId assetIds ih =>
    obtain ⟨hguard, _, _, _, _, -, -, hrest⟩ := applyOrdered_cons h
    cases k with
    | zero => exact hguard
    | succ k =>
      rw [Nat.add_comm k 1, ← Nat.add_assoc]
      exact ih hrest (Nat.lt_of_succ_lt_succ hk)

/-- The tombstones of some assets, as they are staged. -/
def AllTombstones (cfg : Config B) (staging : Table String (StagedRow B)) (assetIds : List String) : Prop :=
  ∀ assetId ∈ assetIds, ∀ change, stagedChange cfg staging assetId = .ok change →
    change.id = assetId ∧ change.tombstone = true

/-- Tombstones change nothing but their own assets. -/
theorem touches_of_applyOrdered (htombstones : AllTombstones cfg db.staging assetIds)
    (h : applyOrdered cfg guard supply turn assetIds db = .ok (outcomes, db')) : Touches assetIds db db' := by
  induction assetIds generalizing turn db outcomes with
  | nil =>
    cases h
    exact Touches.refl _ _
  | cons assetId assetIds ih =>
    obtain ⟨-, change, outcome, db₁, rest, hchange, happlied, hrest⟩ := applyOrdered_cons h
    obtain ⟨hid, htombstone⟩ := htombstones assetId List.mem_cons_self change hchange
    have hone : Touches [assetId] db db₁ := hid ▸ (applyChange_tombstone htombstone happlied).1
    refine hone.append (ih (fun other hother change' hchange' ↦ ?_) hrest)
    rw [hone.staging] at hchange'
    exact htombstones other (List.mem_cons_of_mem _ hother) change' hchange'

/-- **A folder that still has something in it** when its turn comes is not deleted, nor later. -/
theorem folder_kept {before : List String} {folder : String}
    (htombstones : AllTombstones cfg db.staging (before ++ folder :: after))
    (hnodup : (before ++ folder :: after).Nodup)
    (hfolder : ∀ change, stagedChange cfg db.staging folder = .ok change → change.assetType = .connectionFolder)
    (hchildren : ∀ db₁, Touches before db db₁ → folderHasChildren db₁ folder = true)
    (h : applyOrdered cfg guard supply turn (before ++ folder :: after) db = .ok (outcomes, db')) :
    db'.folders.lookup folder = db.folders.lookup folder := by
  obtain ⟨first, db₁, rest, hbefore, hafter⟩ := applyOrdered_append h
  obtain ⟨-, hnodup', hdisjoint⟩ := List.nodup_append.1 hnodup
  have htouches := touches_of_applyOrdered
    (fun assetId hmem ↦ htombstones assetId (List.mem_append_left _ hmem)) hbefore
  obtain ⟨-, change, outcome, db₂, rest', hchange, happlied, hrest⟩ := applyOrdered_cons hafter
  rw [htouches.staging] at hchange
  obtain ⟨hid, htombstone⟩ := htombstones folder (List.mem_append_right _ List.mem_cons_self) change hchange
  obtain ⟨hone, hkept⟩ := applyChange_tombstone htombstone happlied
  rw [hid] at hone hkept
  have hafter' : Touches after db₂ db' := touches_of_applyOrdered (fun assetId hmem change' hchange' ↦
    htombstones assetId (List.mem_append_right _ (List.mem_cons_of_mem _ hmem)) change' (by
      rwa [hone.staging, htouches.staging] at hchange')) hrest
  rw [hafter'.folders folder (List.nodup_cons.1 hnodup').1,
    hkept (hfolder change hchange) (hchildren db₁ htouches),
    htouches.folders folder fun hmem ↦ hdisjoint folder hmem folder List.mem_cons_self rfl]

end Runs

/-! ### Trees of folders -/

/-- A folder, and those below it. -/
inductive FolderBelow (db : Db B) (root : String) : String → Prop
  | root (h : (db.folders.lookup root).isSome = true) : FolderBelow db root root
  | child {parent id : String} {row : FolderRow} (h : FolderBelow db root parent)
      (hrow : db.folders.lookup id = some row) (hparent : row.parentId = some parent) : FolderBelow db root id

/-- The folders and the connections of a tree. -/
def Below (db : Db B) (root : String) : AssetType → String → Prop
  | .connectionFolder, id => FolderBelow db root id
  | .connection, id => ∃ row parent, db.connections.lookup id = some row ∧ row.folderId = some parent ∧
      FolderBelow db root parent

theorem FolderBelow.isSome {db : Db B} {root id : String} (h : FolderBelow db root id) :
    (db.folders.lookup id).isSome = true := by
  cases h with
  | root h => exact h
  | child _ hrow => rw [hrow]; rfl

/-- An asset without local changes: it is synced with the hash of what is there, and no operation is open. -/
structure Unchanged [DecidableEq B] (cfg : Config B) (db : Db B) (assetType : AssetType) (assetId : String) : Prop where
  synced : ∃ row bytes hash, db.assets.lookup assetId = some row ∧ row.syncStatus = .synced ∧
    row.localPayloadHash = some hash ∧ loadLocalProjection cfg db assetType assetId = .ok (bytes, hash)
  noOperation : loadPendingOperation db assetId = none

/-- **A batch that deletes a tree**: tombstones of the folder and of everything below it, and nothing local has changed
there. -/
structure StagesTree [DecidableEq B] (cfg : Config B) (db : Db B) (root : String) : Prop where
  /-- A row is the tombstone that it is staged for. -/
  staged : ∀ assetId row, db.staging.lookup assetId = some row → row.assetId = assetId ∧ row.tombstone = true ∧
    ∃ change, stagedChange cfg db.staging assetId = .ok change ∧ change.id = assetId ∧ change.tombstone = true ∧
      change.assetType = row.assetType
  /-- The rows of the batch are those of the tree. -/
  tree : ∀ assetType assetId, (∃ row, db.staging.lookup assetId = some row ∧ row.assetType = assetType) ↔
    Below db root assetType assetId
  unchanged : ∀ assetType assetId, Below db root assetType assetId → Unchanged cfg db assetType assetId

/-- The call that the batch is staged for. -/
structure Current (cfg : Config B) (requestedCursor nextCursor : Nat) (db : Db B) : Prop where
  account : cfg.accountId = cfg.keyAccountId
  cursor : db.cursor = requestedCursor
  batch : db.batch = some ⟨requestedCursor, nextCursor⟩
  requested : requestedCursor < 2 ^ 63
  next : nextCursor < 2 ^ 63

/-- The tree is gone, and no conflict is recorded. -/
def TreeDeleted [DecidableEq B] (cfg : Config B) (guard : Nat → Bool) (supply : Supply B)
    (requestedCursor nextCursor : Nat) (db : Db B) (root : String) : Prop :=
  ∃ summary db', applyStagedPull cfg guard supply requestedCursor nextCursor db = .ok (summary, db') ∧
    (∀ id, Below db root .connectionFolder id → db'.folders.lookup id = none) ∧
    (∀ id, Below db root .connection id → db'.connections.lookup id = none) ∧
    db'.conflicts = db.conflicts ∧ summary.conflicted = 0

/-- Each folder of the tree comes before the one that it is in. -/
def ChildrenFirst (db : Db B) (root : String) : Prop :=
  ∀ parent child row, FolderBelow db root parent → db.folders.lookup child = some row →
    row.parentId = some parent → child < parent

/-- The tombstones are newer than what is known of the assets. -/
def AllNewer [DecidableEq B] (cfg : Config B) (db : Db B) : Prop :=
  ∀ assetId change row known, stagedChange cfg db.staging assetId = .ok change →
    db.assets.lookup assetId = some row → row.remoteRevision = some known → known < change.revision

/-- The database after the first assets of the batch were deleted. -/
structure Cleared (root : String) (db db' : Db B) (gone : List String) : Prop where
  touches : Touches gone db db'
  operations : db'.operations = db.operations
  conflicts : db'.conflicts = db.conflicts
  folders : ∀ id ∈ gone, FolderBelow db root id → db'.folders.lookup id = none
  connections : ∀ id ∈ gone, Below db root .connection id → db'.connections.lookup id = none
  /-- What is there was there before. -/
  folders_le : ∀ id row, db'.folders.lookup id = some row → db.folders.lookup id = some row
  connections_le : ∀ id row, db'.connections.lookup id = some row → db.connections.lookup id = some row

theorem cleared_nil (root : String) (db : Db B) : Cleared root db db [] :=
  ⟨Touches.refl _ _, rfl, rfl, fun _ hmem ↦ (nomatch hmem), fun _ hmem ↦ (nomatch hmem), fun _ _ hrow ↦ hrow,
    fun _ _ hrow ↦ hrow⟩

section Trees

variable [DecidableEq B] {cfg : Config B} {guard : Nat → Bool} {supply : Supply B} {db db' : Db B} {root : String}
  {requestedCursor nextCursor turn : Nat} {outcomes : List (Change B × Outcome)}

/-- The order of the tree's batch. -/
def treeOrder (db : Db B) : List String :=
  stagedIds db.staging .connection ++ stagedIds db.staging .connectionFolder

namespace StagesTree

variable (h : StagesTree cfg db root)

include h

theorem keyed (assetId : String) (row : StagedRow B) (hrow : db.staging.lookup assetId = some row) :
    row.assetId = assetId :=
  (h.staged assetId row hrow).1

variable {assetId : String} {db₁ : Db B} {gone rest : List String}

theorem mem_iff {assetType : AssetType} :
    assetId ∈ stagedIds db.staging assetType ↔ Below db root assetType assetId :=
  (mem_stagedIds h.keyed).trans (h.tree assetType assetId)

theorem stagedOrder_eq : stagedOrder db.staging = .ok (treeOrder db) := by
  refine stagedOrder_of_tombstones fun row hrow ↦ ?_
  obtain ⟨assetId, hrow⟩ := mem_stagedRows.1 hrow
  exact (h.staged assetId row hrow).2.1

theorem nodup : (treeOrder db).Nodup :=
  stagedOrder_nodup h.keyed

theorem exists_change {assetType : AssetType} (hbelow : Below db root assetType assetId) :
    ∃ change, stagedChange cfg db.staging assetId = .ok change ∧ change.id = assetId ∧ change.tombstone = true ∧
      change.assetType = assetType := by
  obtain ⟨row, hrow, rfl⟩ := (h.tree assetType assetId).2 hbelow
  exact (h.staged assetId row hrow).2.2

/-- An asset of the tree is of one kind. -/
theorem assetType_unique {assetType assetType' : AssetType} (hbelow : Below db root assetType assetId)
    (hbelow' : Below db root assetType' assetId) : assetType = assetType' := by
  obtain ⟨row, hrow, rfl⟩ := (h.tree assetType assetId).2 hbelow
  obtain ⟨row', hrow', rfl⟩ := (h.tree assetType' assetId).2 hbelow'
  cases hrow.symm.trans hrow'
  rfl

theorem exists_below (hmem : assetId ∈ treeOrder db) :
    ∃ assetType, Below db root assetType assetId := by
  rcases List.mem_append.1 hmem with hmem | hmem
  · exact ⟨_, h.mem_iff.1 hmem⟩
  · exact ⟨_, h.mem_iff.1 hmem⟩

theorem allTombstones : AllTombstones cfg db.staging (treeOrder db) := by
  intro assetId hmem change hchange
  obtain ⟨assetType, hbelow⟩ := h.exists_below hmem
  obtain ⟨found, hfound, hid, htombstone, -⟩ := h.exists_change hbelow
  cases hchange.symm.trans hfound
  exact ⟨hid, htombstone⟩

theorem isFolder {folder : String} (hbelow : FolderBelow db root folder) (change : Change B)
    (hchange : stagedChange cfg db.staging folder = .ok change) : change.assetType = .connectionFolder := by
  obtain ⟨found, hfound, -, -, htype⟩ := h.exists_change (show Below db root .connectionFolder folder from hbelow)
  cases hchange.symm.trans hfound
  exact htype

/-- **A folder that comes before one below it** is not deleted. -/
theorem folder_kept_of_not_lt {parent child : String} {row : FolderRow} (hparent : FolderBelow db root parent)
    (hrow : db.folders.lookup child = some row) (hin : row.parentId = some parent) (hlt : ¬ child < parent)
    (hrun : applyOrdered cfg guard supply turn (treeOrder db) db = .ok (outcomes, db')) :
    db'.folders.lookup parent = db.folders.lookup parent := by
  have hchild : child ∈ stagedIds db.staging .connectionFolder := h.mem_iff.2 (.child hparent hrow hin)
  obtain ⟨before, after, hsplit⟩ := List.append_of_mem
    (show parent ∈ stagedIds db.staging .connectionFolder from h.mem_iff.2 hparent)
  have hnotbefore : child ∉ stagedIds db.staging .connection ++ before := by
    intro hmem
    rcases List.mem_append.1 hmem with hmem | hmem
    · exact (List.nodup_append.1 h.nodup).2.2 child hmem child hchild rfl
    · have hsorted := stagedIds_sorted db.staging .connectionFolder
      rw [hsplit] at hsorted
      have hle := (List.pairwise_append.1 hsorted).2.2 child hmem parent List.mem_cons_self
      have heq : child = parent := (lt_or_eq_of_le hle).resolve_left hlt
      have hnodup := (List.nodup_append.1 h.nodup).2.1
      rw [hsplit] at hnodup
      exact (List.nodup_append.1 hnodup).2.2 child hmem parent List.mem_cons_self heq
  have horder : treeOrder db = (stagedIds db.staging .connection ++ before) ++ parent :: after := by
    rw [treeOrder, hsplit, List.append_assoc]
  rw [horder] at hrun
  refine folder_kept (horder ▸ h.allTombstones) (horder ▸ h.nodup) (h.isFolder hparent) (fun db₁ htouches ↦ ?_) hrun
  rw [folderHasChildren, hasChildFolders_iff.2 ⟨child, row, ?_, hin⟩, Bool.or_true]
  rw [htouches.folders child hnotbefore, hrow]

/-- An asset that is not newer stays. -/
theorem kept_of_known {assetType : AssetType} (hbelow : Below db root assetType assetId) {change : Change B}
    (hchange : stagedChange cfg db.staging assetId = .ok change) {row : AssetRow B}
    (hrow : db.assets.lookup assetId = some row) {known : Nat} (hknown : row.remoteRevision = some known)
    (hle : change.revision ≤ known)
    (hrun : applyOrdered cfg guard supply turn (treeOrder db) db = .ok (outcomes, db')) :
    db'.folders.lookup assetId = db.folders.lookup assetId ∧
      db'.connections.lookup assetId = db.connections.lookup assetId := by
  have hmem : assetId ∈ treeOrder db := by
    cases assetType with
    | connection => exact List.mem_append_left _ (h.mem_iff.2 hbelow)
    | connectionFolder => exact List.mem_append_right _ (h.mem_iff.2 hbelow)
  obtain ⟨before, after, hsplit⟩ := List.append_of_mem hmem
  have hnodup := h.nodup
  have htombstones := h.allTombstones
  rw [hsplit] at hrun hnodup htombstones
  obtain ⟨first, db₁, rest, hbefore, hafter⟩ := applyOrdered_append hrun
  obtain ⟨-, hnodup', hdisjoint⟩ := List.nodup_append.1 hnodup
  have hnotbefore : assetId ∉ before := fun hin ↦ hdisjoint assetId hin assetId List.mem_cons_self rfl
  have htouches := touches_of_applyOrdered
    (fun other hother ↦ htombstones other (List.mem_append_left _ hother)) hbefore
  obtain ⟨-, change', outcome, db₂, rest', hchange', happlied, hrest⟩ := applyOrdered_cons hafter
  rw [htouches.staging, hchange] at hchange'
  cases hchange'
  obtain ⟨hid, -⟩ := htombstones assetId (List.mem_append_right _ List.mem_cons_self) change hchange
  have hignored : applyChange cfg supply db₁ change = .ok (.ignored, db₁) := by
    rw [applyChange, if_pos]
    rw [hid, htouches.assets assetId hnotbefore, hrow]
    simpa [hknown] using hle
  cases happlied.symm.trans hignored
  have hafter' : Touches after db₁ db' := touches_of_applyOrdered (fun other hother change' hchange' ↦
    htombstones other (List.mem_append_right _ (List.mem_cons_of_mem _ hother)) change' (by
      rwa [htouches.staging] at hchange')) hrest
  have hnotafter := (List.nodup_cons.1 hnodup').1
  exact ⟨(hafter'.folders assetId hnotafter).trans (htouches.folders assetId hnotbefore),
    (hafter'.connections assetId hnotafter).trans (htouches.connections assetId hnotbefore)⟩

/-! ### A tree in order -/

/-- One more asset is deleted. -/
theorem exists_applyChange (hcleared : Cleared root db db₁ gone) {assetType : AssetType}
    (hbelow : Below db root assetType assetId) (hnot : assetId ∉ gone)
    (hempty : assetType = .connectionFolder → folderHasChildren db₁ assetId = false)
    (hnewer : AllNewer cfg db) {change : Change B}
    (hchange : stagedChange cfg db.staging assetId = .ok change) :
    ∃ db₂, applyChange cfg supply db₁ change = .ok (.deleted, db₂) ∧ Cleared root db db₂ (gone ++ [assetId]) := by
  obtain ⟨found, hfound, hid, htombstone, htype⟩ := h.exists_change hbelow
  cases hchange.symm.trans hfound
  obtain ⟨⟨row, bytes, hash, hrow, hstatus, hhash, hloaded⟩, hoperation⟩ := h.unchanged assetType assetId hbelow
  have hrow₁ : db₁.assets.lookup change.id = some row := by rw [hid, hcleared.touches.assets assetId hnot, hrow]
  have hoperation₁ : loadPendingOperation db₁ change.id = none := by
    rw [hid, loadPendingOperation, hcleared.operations]
    exact hoperation
  have hloaded₁ : loadLocalProjection cfg db₁ change.assetType change.id = .ok (bytes, hash) := by
    rw [← hloaded, htype, hid]
    cases assetType with
    | connection => rw [loadLocalProjection, loadLocalProjection, hcleared.touches.connections assetId hnot]
    | connectionFolder => rw [loadLocalProjection, loadLocalProjection, hcleared.touches.folders assetId hnot]
  have hfact : localFactChanged cfg db₁ (some row) change = .ok false := by
    rw [localFactChanged, if_neg (not_not_intro hstatus), hhash]
    dsimp only
    rw [hloaded₁]
    simp
  have hchildren : (change.tombstone && decide (change.assetType = .connectionFolder) &&
      folderHasChildren db₁ change.id) = false := by
    rw [htype, hid]
    cases assetType with
    | connection => simp
    | connectionFolder => rw [hempty rfl, Bool.and_false]
  have hstands : standsAgainst db₁ (some row) none false change = false := by
    rw [standsAgainst, hchildren, Option.map_some, Option.any_some, hstatus]
    rfl
  have hremote : applyRemoteProjection cfg db₁ change = .ok (tombstoned db₁ change) := by
    rw [applyRemoteProjection, if_pos htombstone, tombstoned, htype]
    cases assetType with
    | connection => rfl
    | connectionFolder =>
      rw [deleteLocal, if_neg]
      · rfl
      · rw [hid, hempty rfl]
        exact fun hcontra ↦ Bool.false_ne_true hcontra.2
  refine ⟨tombstoned db₁ change, ?_, ?_⟩
  · rw [applyChange, hrow₁, Option.bind_some, if_neg, hoperation₁]
    · dsimp only
      rw [applyUnmatched, hrow₁]
      refine bind_eq_ok_iff.2 ⟨false, hfact, ?_⟩
      rw [if_neg (by rw [hstands]; exact Bool.false_ne_true)]
      refine bind_eq_ok_iff.2 ⟨_, hremote, ?_⟩
      rw [appliedOutcome, if_pos htombstone]
    · rw [Option.any_eq_true]
      rintro ⟨known, hknown, hle⟩
      exact absurd (of_decide_eq_true hle) (not_le.2 (hnewer assetId change row known hchange hrow hknown))
  · have hone : Touches [assetId] db₁ (tombstoned db₁ change) := hid ▸ touches_tombstoned db₁ change
    refine ⟨hcleared.touches.append hone, ?_, ?_, fun id hmem hfolder ↦ ?_, fun id hmem hconnection ↦ ?_,
      fun id row hrow ↦ hcleared.folders_le id row ((tombstoned_le db₁ change).1 hrow),
      fun id row hrow ↦ hcleared.connections_le id row ((tombstoned_le db₁ change).2 hrow)⟩
    · rw [← hcleared.operations, tombstoned]
      cases change.assetType <;> rfl
    · rw [← hcleared.conflicts, tombstoned]
      cases change.assetType <;> rfl
    · rcases List.mem_append.1 hmem with hmem | hmem
      · rw [hone.folders id fun heq ↦ hnot (List.mem_singleton.1 heq ▸ hmem)]
        exact hcleared.folders id hmem hfolder
      · obtain rfl := List.mem_singleton.1 hmem
        rw [tombstoned, htype, h.assetType_unique hbelow (show Below db root .connectionFolder id from hfolder), hid]
        exact AList.lookup_erase _ _
    · rcases List.mem_append.1 hmem with hmem | hmem
      · rw [hone.connections id fun heq ↦ hnot (List.mem_singleton.1 heq ▸ hmem)]
        exact hcleared.connections id hmem hconnection
      · obtain rfl := List.mem_singleton.1 hmem
        rw [tombstoned, htype, h.assetType_unique hbelow hconnection, hid]
        exact AList.lookup_erase _ _

/-- Where the turn of a folder is, all connections had theirs. -/
theorem exists_split {folder : String} (hfolder : FolderBelow db root folder)
    (hsplit : treeOrder db = gone ++ folder :: rest) :
    ∃ before, gone = stagedIds db.staging .connection ++ before ∧
      stagedIds db.staging .connectionFolder = before ++ folder :: rest := by
  have hnot : folder ∉ stagedIds db.staging .connection := fun hmem ↦
    (List.nodup_append.1 h.nodup).2.2 folder hmem folder
      (show folder ∈ stagedIds db.staging .connectionFolder from h.mem_iff.2 hfolder) rfl
  rcases List.append_eq_append_iff.1 hsplit with ⟨before, hgone, hrest⟩ | ⟨tail, hconnections, hrest⟩
  · exact ⟨before, hgone, hrest⟩
  · cases tail with
    | nil => exact ⟨[], by rw [List.append_nil, hconnections, List.append_nil], hrest.symm⟩
    | cons first tail =>
      obtain ⟨rfl, -⟩ := List.cons.inj hrest
      exact absurd (hconnections ▸ List.mem_append_right _ List.mem_cons_self) hnot

/-- Below a folder whose turn it is nothing is left. -/
theorem folderHasChildren_eq_false (hcleared : Cleared root db db₁ gone) (horder : ChildrenFirst db root)
    {folder : String} (hfolder : FolderBelow db root folder) (hsplit : treeOrder db = gone ++ folder :: rest) :
    folderHasChildren db₁ folder = false := by
  obtain ⟨before, hgone, hfolders⟩ := h.exists_split hfolder hsplit
  have hconnectionsGone : hasChildConnections db₁ folder = false := by
    rw [← Bool.not_eq_true, hasChildConnections_iff]
    rintro ⟨child, row, hrow, hin⟩
    have hbelow : Below db root .connection child :=
      ⟨row, folder, hcleared.connections_le child row hrow, hin, hfolder⟩
    have hmem : child ∈ gone := hgone ▸ List.mem_append_left _ (h.mem_iff.2 hbelow)
    rw [hcleared.connections child hmem hbelow] at hrow
    cases hrow
  have hfoldersGone : hasChildFolders db₁ folder = false := by
    rw [← Bool.not_eq_true, hasChildFolders_iff]
    rintro ⟨child, row, hrow, hin⟩
    have hrow₀ := hcleared.folders_le child row hrow
    have hbelow : FolderBelow db root child := .child hfolder hrow₀ hin
    have hmem : child ∈ before ++ folder :: rest := by
      rw [← hfolders]
      exact h.mem_iff.2 hbelow
    have hsorted := stagedIds_sorted db.staging .connectionFolder
    rw [hfolders] at hsorted
    have hlt := horder folder child row hfolder hrow₀ hin
    rcases List.mem_append.1 hmem with hmem | hmem
    · rw [hcleared.folders child (hgone ▸ List.mem_append_right _ hmem) hbelow] at hrow
      cases hrow
    · rcases List.mem_cons.1 hmem with rfl | hmem
      · exact lt_irrefl _ hlt
      · exact absurd hlt (not_lt.2 ((List.pairwise_cons.1 (List.pairwise_append.1 hsorted).2.1).1 child hmem))
  rw [folderHasChildren, hconnectionsGone, hfoldersGone]
  rfl

/-- The rest of a batch in order deletes the rest of the tree. -/
theorem exists_applyOrdered (horder : ChildrenFirst db root) (hnewer : AllNewer cfg db)
    (hcleared : Cleared root db db₁ gone) (hsplit : treeOrder db = gone ++ rest)
    (hguard : ∀ k < rest.length, guard (turn + k) = true) :
    ∃ outcomes db₂, applyOrdered cfg guard supply turn rest db₁ = .ok (outcomes, db₂) ∧
      (∀ outcome ∈ outcomes, outcome.2 = .deleted) ∧ Cleared root db db₂ (treeOrder db) := by
  induction rest generalizing gone db₁ turn with
  | nil =>
    rw [List.append_nil] at hsplit
    exact ⟨[], db₁, rfl, fun _ hmem ↦ (nomatch hmem), hsplit ▸ hcleared⟩
  | cons assetId rest ih =>
    have hmem : assetId ∈ treeOrder db := hsplit ▸ List.mem_append_right _ List.mem_cons_self
    obtain ⟨assetType, hbelow⟩ := h.exists_below hmem
    obtain ⟨change, hchange, -⟩ := h.exists_change hbelow
    have hnodup := h.nodup
    rw [hsplit] at hnodup
    have hnot : assetId ∉ gone := fun hin ↦
      (List.nodup_append.1 hnodup).2.2 assetId hin assetId List.mem_cons_self rfl
    have hempty : assetType = .connectionFolder → folderHasChildren db₁ assetId = false := by
      rintro rfl
      exact h.folderHasChildren_eq_false hcleared horder hbelow hsplit
    obtain ⟨db₂, happlied, hcleared₂⟩ := h.exists_applyChange hcleared hbelow hnot hempty hnewer hchange
    have hguard' : ∀ k < rest.length, guard (turn + 1 + k) = true := fun k hk ↦ by
      rw [Nat.add_assoc, Nat.add_comm 1]
      exact hguard (k + 1) (Nat.succ_lt_succ hk)
    obtain ⟨outcomes, db₃, hrun, hdeleted, hcleared₃⟩ :=
      ih hcleared₂ (by rw [hsplit, List.append_assoc]; rfl) hguard'
    refine ⟨(change, .deleted) :: outcomes, db₃, ?_, fun outcome hmem ↦ ?_, hcleared₃⟩
    · rw [applyOrdered, askGuard, if_pos (show guard turn = true from hguard 0 (Nat.succ_pos _)), hcleared.touches.staging, hchange]
      exact bind_eq_ok_iff.2 ⟨(), rfl, bind_eq_ok_iff.2 ⟨change, rfl, bind_eq_ok_iff.2 ⟨_, happlied,
        bind_eq_ok_iff.2 ⟨_, hrun, rfl⟩⟩⟩⟩
    · rcases List.mem_cons.1 hmem with rfl | hmem
      · rfl
      · exact hdeleted outcome hmem

end StagesTree

/-! ### When a tree goes away -/

/-- The transaction, for the call that the batch is staged for. -/
theorem applyBatch_eq_ok_iff (hcurrent : Current cfg requestedCursor nextCursor db) {ordered : List String}
    (hordered : stagedOrder db.staging = .ok ordered) :
    applyBatch cfg guard supply requestedCursor nextCursor db = .ok (outcomes, db') ↔
      guard ordered.length = true ∧ ∃ db₁, applyOrdered cfg guard supply 0 ordered db = .ok (outcomes, db₁) ∧
        db' = { db₁ with cursor := nextCursor, staging := ∅, batch := none } := by
  have hnext : ∀ field, toI64 nextCursor field = .ok nextCursor := fun field ↦ if_pos hcurrent.next
  have hrequested : toI64 requestedCursor "requested cursor" = .ok requestedCursor := if_pos hcurrent.requested
  have hask : askGuard guard ordered.length = .ok () ↔ guard ordered.length = true := by
    rw [askGuard]
    split_ifs with hguard <;> simp [hguard]
  have hbody : applyBatch cfg guard supply requestedCursor nextCursor db =
      (applyOrdered cfg guard supply 0 ordered db >>= fun applied ↦ askGuard guard ordered.length >>= fun _ ↦
        .ok (applied.1, { applied.2 with cursor := nextCursor, staging := ∅, batch := none })) := by
    rw [applyBatch, if_neg (not_not_intro hcurrent.account), if_neg (not_not_intro hcurrent.cursor), hcurrent.batch]
    dsimp only
    rw [hrequested, hnext, hnext, hordered]
    show (if (⟨requestedCursor, nextCursor⟩ : Batch) ≠ ⟨requestedCursor, nextCursor⟩ then _ else _) = _
    rw [if_neg (not_not_intro rfl)]
    rfl
  rw [hbody, bind_eq_ok_iff]
  constructor
  · rintro ⟨⟨outcomes', db₁⟩, hrun, h⟩
    obtain ⟨_, hguard, h⟩ := bind_eq_ok_iff.1 h
    cases h
    exact ⟨hask.1 hguard, db₁, hrun, rfl⟩
  · rintro ⟨hguard, db₁, hrun, rfl⟩
    exact ⟨(outcomes, db₁), hrun, bind_eq_ok_iff.2 ⟨(), hask.2 hguard, rfl⟩⟩

theorem applyStagedPull_eq_ok_iff {summary : ApplySummary} :
    applyStagedPull cfg guard supply requestedCursor nextCursor db = .ok (summary, db') ↔
      ∃ outcomes, applyBatch cfg guard supply requestedCursor nextCursor db = .ok (outcomes, db') ∧
        summary = summarize nextCursor outcomes := by
  rw [applyStagedPull]
  cases applyBatch cfg guard supply requestedCursor nextCursor db with
  | error error => exact ⟨fun h ↦ (nomatch h), fun ⟨_, h, _⟩ ↦ (nomatch h)⟩
  | ok applied =>
    constructor
    · intro h
      cases h
      exact ⟨applied.1, rfl, rfl⟩
    · rintro ⟨outcomes, h, rfl⟩
      cases h
      rfl

omit [DecidableEq B] in
theorem conflicted_summarize (nextCursor : Nat) (outcomes : List (Change B × Outcome))
    (h : ∀ outcome ∈ outcomes, outcome.2 = .deleted) : (summarize nextCursor outcomes).conflicted = 0 := by
  have hkeep : ∀ (summary : ApplySummary), (outcomes.foldl (fun summary outcome ↦ summary.count outcome.2)
      summary).conflicted = summary.conflicted := by
    induction outcomes with
    | nil => exact fun _ ↦ rfl
    | cons outcome outcomes ih =>
      intro summary
      rw [List.foldl_cons, ih fun other hmem ↦ h other (List.mem_cons_of_mem _ hmem),
        h outcome List.mem_cons_self, ApplySummary.count]
  exact hkeep _

/-- A tree that goes away has its folders in order. -/
theorem childrenFirst_of_treeDeleted (htree : StagesTree cfg db root)
    (hcurrent : Current cfg requestedCursor nextCursor db)
    (h : TreeDeleted cfg guard supply requestedCursor nextCursor db root) : ChildrenFirst db root := by
  obtain ⟨summary, db', happlied, hfolders, -⟩ := h
  obtain ⟨outcomes, hbatch, -⟩ := applyStagedPull_eq_ok_iff.1 happlied
  obtain ⟨-, db₁, hrun, rfl⟩ := (applyBatch_eq_ok_iff hcurrent htree.stagedOrder_eq).1 hbatch
  intro parent child row hparent hrow hin
  by_contra hlt
  have hsome := hparent.isSome
  rw [← htree.folder_kept_of_not_lt hparent hrow hin hlt hrun, hfolders parent hparent] at hsome
  cases hsome

/-- **When a tree of folders goes away**: the batch deletes all of it and records no conflict exactly where the run
is not canceled, the tombstones are newer than what is known of their assets, and the identifier of each folder comes
before that of the folder it is in. -/
theorem treeDeleted_iff (htree : StagesTree cfg db root) (hcurrent : Current cfg requestedCursor nextCursor db) :
    TreeDeleted cfg guard supply requestedCursor nextCursor db root ↔
      (∀ turn ≤ db.staging.keys.length, guard turn = true) ∧ AllNewer cfg db ∧ ChildrenFirst db root := by
  have hlength : (treeOrder db).length = db.staging.keys.length := (stagedOrder_perm_keys htree.keyed).length_eq
  constructor
  · intro h
    have horder := childrenFirst_of_treeDeleted htree hcurrent h
    obtain ⟨summary, db', happlied, hfolders, hconnections, -, -⟩ := h
    obtain ⟨outcomes, hbatch, -⟩ := applyStagedPull_eq_ok_iff.1 happlied
    obtain ⟨hguard, db₁, hrun, rfl⟩ := (applyBatch_eq_ok_iff hcurrent htree.stagedOrder_eq).1 hbatch
    refine ⟨fun turn hturn ↦ ?_, fun assetId change row known hchange hrow hknown ↦ ?_, horder⟩
    · rcases Nat.lt_or_eq_of_le hturn with hlt | rfl
      · have hasked := guard_of_applyOrdered hrun (hlength ▸ hlt)
        rwa [Nat.zero_add] at hasked
      · rwa [hlength] at hguard
    · by_contra hle
      have hstaged : (db.staging.lookup assetId).isSome = true := by
        rcases Option.eq_none_or_eq_some (db.staging.lookup assetId) with hnone | ⟨staged, hstaged⟩
        · rw [stagedChange, hnone] at hchange
          cases hchange
        · rw [hstaged]
          rfl
      obtain ⟨staged, hstaged⟩ := Option.isSome_iff_exists.1 hstaged
      have hbelow := (htree.tree staged.assetType assetId).1 ⟨staged, hstaged, rfl⟩
      have hkept := htree.kept_of_known hbelow hchange hrow hknown (not_lt.1 hle) hrun
      cases htype : staged.assetType with
      | connection =>
        rw [htype] at hbelow
        have hgone := hconnections assetId hbelow
        obtain ⟨found, parent, hfound, -⟩ := hbelow
        rw [hkept.2, hfound] at hgone
        cases hgone
      | connectionFolder =>
        rw [htype] at hbelow
        have hsome := FolderBelow.isSome hbelow
        rw [← hkept.1, hfolders assetId hbelow] at hsome
        cases hsome
  · rintro ⟨hguard, hnewer, horder⟩
    have hguard' : ∀ k < (treeOrder db).length, guard (0 + k) = true := fun k hk ↦ by
      rw [Nat.zero_add]
      exact hguard k (hlength ▸ hk.le)
    obtain ⟨outcomes, db₁, hrun, hdeleted, hcleared⟩ :=
      htree.exists_applyOrdered horder hnewer (cleared_nil root db) (List.nil_append _).symm hguard'
    refine ⟨summarize nextCursor outcomes, { db₁ with cursor := nextCursor, staging := ∅, batch := none },
      applyStagedPull_eq_ok_iff.2 ⟨outcomes, (applyBatch_eq_ok_iff hcurrent htree.stagedOrder_eq).2
        ⟨hguard _ hlength.le, db₁, hrun, rfl⟩, rfl⟩, fun id hbelow ↦ ?_, fun id hbelow ↦ ?_, hcleared.conflicts,
      conflicted_summarize _ _ hdeleted⟩
    · exact hcleared.folders id (List.mem_append_right _ (htree.mem_iff.2 hbelow)) hbelow
    · exact hcleared.connections id (List.mem_append_left _ (htree.mem_iff.2 hbelow)) hbelow

end Trees

namespace Sample

/-- A folder. -/
def folder (id : String) (parentId : Option String) : FolderRow :=
  ⟨id, "Folder", parentId, none⟩

/-- What is known of an asset that is synced at its first revision. -/
def syncedAsset (assetType : AssetType) (id : String) (hash : Bytes) : AssetRow Bytes where
  assetType
  localEntityId := id
  remoteRevision := some 1
  baseRevision := some 1
  syncStatus := .synced
  pendingOperationId := none
  tombstone := false
  conflictOf := none
  localPayloadHash := some hash

/-- The tombstone of an asset, as the server sends it. -/
def tombstone (assetType : AssetType) (id : String) : RemoteChange Bytes where
  changeCursor := "2"
  asset :=
    { id
      assetType := assetType.asStr
      revision := "2"
      parentRevision := some "1"
      schemaVersion := 1
      keyGeneration := 1
      encryption := none
      encryptedBytes := 0
      tombstone := true
      changeCursor := "2"
      updatedByDeviceId := "0198f5dc-0000-7000-8000-000000000002"
      deletedAt := some "2026-01-01T00:00:00Z" }

/-- The tombstone, once it is validated. -/
def tombstoneChange (assetType : AssetType) (id : String) : Change Bytes where
  changeCursor := 2
  raw := tombstone assetType id
  id
  assetType
  revision := 2
  schemaVersion := 1
  keyGeneration := 1
  encryption := none
  tombstone := true
  projection := none
  payloadHash := none

/-- The row that is staged for it. -/
def stagedTombstone (assetType : AssetType) (id : String) : StagedRow Bytes :=
  ⟨id, 2, assetType, true, none, tombstone assetType id⟩

/-- A folder in another one, both synced, and the batch that deletes both. -/
def nested (parent child : String) : Db Bytes where
  folders := (AList.insert child (folder child (some parent)) ∅).insert parent (folder parent none)
  assets := (AList.insert child (syncedAsset .connectionFolder child (folderHash config (folder child (some parent))))
    ∅).insert parent (syncedAsset .connectionFolder parent (folderHash config (folder parent none)))
  cursor := 1
  batch := some ⟨1, 2⟩
  staging := (AList.insert child (stagedTombstone .connectionFolder child) ∅).insert parent
    (stagedTombstone .connectionFolder parent)

section Nested

variable {parent child : String}

theorem lookup_folders (id : String) : (nested parent child).folders.lookup id =
    if id = parent then some (folder parent none) else if id = child then some (folder child (some parent))
    else none := by
  rw [nested, Table.lookup_insert, Table.lookup_insert]
  rfl

theorem lookup_assets (id : String) : (nested parent child).assets.lookup id =
    if id = parent then some (syncedAsset .connectionFolder parent (folderHash config (folder parent none)))
    else if id = child then some (syncedAsset .connectionFolder child
      (folderHash config (folder child (some parent)))) else none := by
  rw [nested, Table.lookup_insert, Table.lookup_insert]
  rfl

theorem lookup_staging (id : String) : (nested parent child).staging.lookup id =
    if id = parent then some (stagedTombstone .connectionFolder parent)
    else if id = child then some (stagedTombstone .connectionFolder child) else none := by
  rw [nested, Table.lookup_insert, Table.lookup_insert]
  rfl

theorem folderBelow_nested_iff {id : String} :
    FolderBelow (nested parent child) parent id ↔ id = parent ∨ id = child := by
  have hparent : FolderBelow (nested parent child) parent parent :=
    .root (by rw [lookup_folders, if_pos rfl]; rfl)
  constructor
  · intro h
    cases h with
    | root => exact .inl rfl
    | @child _ _ row _ hrow _ =>
      rw [lookup_folders] at hrow
      split_ifs at hrow with hid hid'
      · exact .inl hid
      · exact .inr hid'
  · rintro (rfl | rfl)
    · exact hparent
    · by_cases hid : id = parent
      · exact hid ▸ hparent
      · exact .child hparent (by rw [lookup_folders, if_neg hid, if_pos rfl]) rfl

theorem stagedChange_nested {id : String} (hid : id.length = 36) (hmem : id = parent ∨ id = child) :
    stagedChange config (nested parent child).staging id = .ok (tombstoneChange .connectionFolder id) := by
  have hstaged : (nested parent child).staging.lookup id = some (stagedTombstone .connectionFolder id) := by
    rw [lookup_staging]
    by_cases heq : id = parent
    · rw [if_pos heq, heq]
    · rw [if_neg heq, if_pos (hmem.resolve_left heq), hmem.resolve_left heq]
  have huuid : config.isUuid id = true := decide_eq_true hid
  have hvalid : validateAndDecryptChange config (tombstone .connectionFolder id) =
      .ok (tombstoneChange .connectionFolder id) := by
    refine bind_eq_ok_iff.2 ⟨2, show parseCursor "2" = .ok 2 by decide, ?_⟩
    show (if config.isUuid id = false then _ else _) = _
    rw [huuid, if_neg (by decide), if_neg (show
      ¬ config.isUuid (tombstone .connectionFolder id).asset.updatedByDeviceId = false from
        (by decide : ¬ config.isUuid "0198f5dc-0000-7000-8000-000000000002" = false))]
    refine bind_eq_ok_iff.2 ⟨.connectionFolder, show assetTypeName "connection_folder" = _ by decide, ?_⟩
    refine bind_eq_ok_iff.2 ⟨2, show parseRevision "2" = .ok 2 by decide, ?_⟩
    exact bind_eq_ok_iff.2 ⟨(), show validateParentRevision 2 (some "1") = _ by decide, rfl⟩
  rw [stagedChange, hstaged]
  dsimp only [stagedTombstone]
  rw [hvalid]

theorem stagesTree_nested (hparent : parent.length = 36) (hchild : child.length = 36) :
    StagesTree config (nested parent child) parent := by
  refine ⟨fun id row hrow ↦ ?_, fun assetType id ↦ ?_, fun assetType id hbelow ↦ ?_⟩
  · have hmem : id = parent ∨ id = child := by
      rw [lookup_staging] at hrow
      split_ifs at hrow with hid hid'
      · exact .inl hid
      · exact .inr hid'
    have hlength : id.length = 36 := by
      rcases hmem with rfl | rfl
      · exact hparent
      · exact hchild
    have hchange := stagedChange_nested hlength hmem
    rw [lookup_staging] at hrow
    split_ifs at hrow with heq heq'
    · cases hrow
      exact ⟨heq.symm, rfl, _, hchange, rfl, rfl, rfl⟩
    · cases hrow
      exact ⟨heq'.symm, rfl, _, hchange, rfl, rfl, rfl⟩
  · cases assetType with
    | connection =>
      refine ⟨fun ⟨row, hrow, htype⟩ ↦ ?_, fun ⟨row, _, hrow, _⟩ ↦ (nomatch hrow)⟩
      rw [lookup_staging] at hrow
      split_ifs at hrow <;> cases hrow <;> cases htype
    | connectionFolder =>
      show _ ↔ FolderBelow _ _ _
      rw [folderBelow_nested_iff]
      constructor
      · rintro ⟨row, hrow, -⟩
        rw [lookup_staging] at hrow
        split_ifs at hrow with hid hid'
        · exact .inl hid
        · exact .inr hid'
      · intro hmem
        by_cases hid : id = parent
        · exact ⟨_, by rw [lookup_staging, if_pos hid], rfl⟩
        · exact ⟨_, by rw [lookup_staging, if_neg hid, if_pos (hmem.resolve_left hid)], rfl⟩
  · cases assetType with
    | connection =>
      obtain ⟨row, _, hrow, _⟩ := hbelow
      cases hrow
    | connectionFolder =>
      refine ⟨?_, rfl⟩
      have hmem := folderBelow_nested_iff.1 hbelow
      by_cases hid : id = parent
      · refine ⟨_, folderBytes config (folder parent none), _, by rw [lookup_assets, if_pos hid], rfl, rfl, ?_⟩
        rw [loadLocalProjection, lookup_folders, if_pos hid]
      · refine ⟨_, folderBytes config (folder child (some parent)), _,
          by rw [lookup_assets, if_neg hid, if_pos (hmem.resolve_left hid)], rfl, rfl, ?_⟩
        rw [loadLocalProjection, lookup_folders, if_neg hid, if_pos (hmem.resolve_left hid)]

theorem current_nested : Current config 1 2 (nested parent child) :=
  ⟨rfl, rfl, rfl, by omega, by omega⟩

theorem allNewer_nested (hparent : parent.length = 36) (hchild : child.length = 36) :
    AllNewer config (nested parent child) := by
  intro id change row known hchange hrow hknown
  rw [lookup_assets] at hrow
  have hone : known = 1 ∧ (id = parent ∨ id = child) := by
    split_ifs at hrow with hid hid'
    · cases hrow
      cases hknown
      exact ⟨rfl, .inl hid⟩
    · cases hrow
      cases hknown
      exact ⟨rfl, .inr hid'⟩
  have hlength : id.length = 36 := by
    rcases hone.2 with rfl | rfl
    · exact hparent
    · exact hchild
  cases hchange.symm.trans (stagedChange_nested hlength hone.2)
  rw [hone.1]
  exact Nat.one_lt_two

theorem childrenFirst_nested_iff (hne : child ≠ parent) :
    ChildrenFirst (nested parent child) parent ↔ child < parent := by
  have hchild : (nested parent child).folders.lookup child = some (folder child (some parent)) := by
    rw [lookup_folders, if_neg hne, if_pos rfl]
  constructor
  · intro h
    exact h parent child _ (folderBelow_nested_iff.2 (.inl rfl)) hchild rfl
  · intro hlt above below row _ hrow hin
    rw [lookup_folders] at hrow
    split_ifs at hrow with hid hid'
    · cases hrow
      cases hin
    · cases hrow
      cases hin
      rwa [hid']

end Nested

def lowId : String := "0198f5dc-0000-7000-8000-000000000003"

def highId : String := "0198f5dc-0000-7000-8000-000000000004"

/-- What a transaction draws. -/
def supply : Supply Bytes :=
  ⟨id, fun _ ↦ .nonce 0⟩

/-- A folder in one with a higher identifier: both go away. -/
theorem nested_low_deleted : TreeDeleted config (fun _ ↦ true) supply 1 2 (nested highId lowId) highId :=
  (treeDeleted_iff (stagesTree_nested (by decide) (by decide)) current_nested).2
    ⟨fun _ _ ↦ rfl, allNewer_nested (by decide) (by decide), (childrenFirst_nested_iff (by decide)).2 (by decide)⟩

/-- A folder in one with a lower identifier: the outer folder is kept as a conflict. -/
theorem nested_high_kept : ¬ TreeDeleted config (fun _ ↦ true) supply 1 2 (nested lowId highId) lowId := fun h ↦
  absurd ((childrenFirst_nested_iff (by decide)).1 (childrenFirst_of_treeDeleted
    (stagesTree_nested (by decide) (by decide)) current_nested h)) (by decide)

end Sample

end Sync
