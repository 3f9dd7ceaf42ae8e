import NexusPilot.Machine.Run
import NexusPilot.Sync.Tombstones

/-!
# A batch over the life of a pull

A batch is begun, gets page after page, perhaps over several runs of the program, and is applied at last. Every step is
a transaction, and each may fail at any point. `pull_run` says what holds all along: the cursor only moves when a batch
is applied, from the first to the last cursor of the pages that the batch has got since it was begun, and with it every
asset of these pages is handled once, by a change of its highest revision.

What carries it is `PullInv`: the pages follow each other without a gap, and the staged rows are what they leave.
-/

namespace Sync

open Machine
open Drivers (bind_eq_ok_iff ite_error_eq_ok_iff exists_left_of_forall₂)

variable {B : Type}

/-! ### What is read of a change -/

theorem orError_eq_ok_iff {ε α : Type} {error : ε} {value : Option α} {a : α} :
    orError error value = .ok a ↔ value = some a := by
  obtain h | ⟨b, h⟩ := Option.eq_none_or_eq_some value
  · rw [h]
    exact ⟨fun h ↦ (nomatch h), fun h ↦ (nomatch h)⟩
  · rw [h]
    exact ⟨fun h ↦ congrArg some (Except.ok.inj h), fun h ↦ congrArg Except.ok (Option.some.inj h)⟩

variable {n nextCursor localCursor requestedCursor : Nat} {cfg : Config B} {item : Change B}
  {response : ListResponse B} {pages : List (Page B)} {staging : Table String (StagedRow B)}
  {db db' : Db B} {outcomes : List (Change B × Outcome)}

theorem parseU64_lt {text : String} (h : parseU64 text = some n) : n < 2 ^ 64 := by
  rw [parseU64] at h
  dsimp only at h
  split_ifs at h with hdigits hlt
  exact Option.some.inj h ▸ hlt

/-- A number is read back from its text. -/
theorem parseU64_toString (hn : n < 2 ^ 64) : parseU64 (toString n) = some n := by
  have hlist : (toString n).toList = Nat.toDigits 10 n := Nat.toList_repr
  have hdigits : ∀ c ∈ Nat.toDigits 10 n, c.isDigit := fun c hc ↦
    Nat.isDigit_of_mem_toDigits (by decide) (by decide) hc
  have hvalue : (Nat.toDigits 10 n).foldl (fun value c ↦ value * 10 + (c.toNat - '0'.toNat)) 0 = n := by
    have h := Nat.ofDigitChars_ten_toDigits (n := n)
    rw [Nat.ofDigitChars_eq_foldl] at h
    simpa only [Nat.mul_comm] using h
  obtain ⟨c, digits, hcons⟩ := List.exists_cons_of_ne_nil (Nat.toDigits_ne_nil (n := n) (b := 10))
  have hplus : c ≠ '+' := by
    rintro rfl
    exact absurd (hdigits '+' (hcons ▸ List.mem_cons_self)) (by decide)
  rw [parseU64, hlist]
  dsimp only
  split
  · next digits' heq =>
    rw [hcons] at heq
    exact absurd (List.cons.inj heq).1 hplus
  · rw [if_pos ⟨Nat.toDigits_ne_nil, List.all_eq_true.2 hdigits⟩, hvalue, if_pos hn]

/-- What is read of a change, whatever else is checked. -/
theorem validateAndDecryptChange_eq_ok {change : RemoteChange B}
    (h : validateAndDecryptChange cfg change = .ok item) :
    item.raw = change ∧ item.id = change.asset.id ∧ parseRevision change.asset.revision = .ok item.revision ∧
      parseCursor change.changeCursor = .ok item.changeCursor := by
  obtain ⟨changeCursor, hcursor, h⟩ := bind_eq_ok_iff.1 h
  obtain ⟨-, h⟩ := ite_error_eq_ok_iff.1 h
  obtain ⟨-, h⟩ := ite_error_eq_ok_iff.1 h
  obtain ⟨assetType, -, h⟩ := bind_eq_ok_iff.1 h
  obtain ⟨revision, hrevision, h⟩ := bind_eq_ok_iff.1 h
  obtain ⟨_, -, h⟩ := bind_eq_ok_iff.1 h
  obtain ⟨-, h⟩ := ite_error_eq_ok_iff.1 h
  obtain ⟨-, h⟩ := ite_error_eq_ok_iff.1 h
  split at h
  · obtain ⟨-, h⟩ := ite_error_eq_ok_iff.1 h
    cases h
    exact ⟨rfl, rfl, hrevision, hcursor⟩
  · obtain ⟨encryption, -, h⟩ := bind_eq_ok_iff.1 h
    obtain ⟨_, -, h⟩ := bind_eq_ok_iff.1 h
    obtain ⟨plaintext, -, h⟩ := bind_eq_ok_iff.1 h
    obtain ⟨projection, -, h⟩ := bind_eq_ok_iff.1 h
    cases h
    exact ⟨rfl, rfl, hrevision, hcursor⟩

/-- A change that some page has brought. -/
def Change.Validated (item : Change B) : Prop :=
  ∃ (cfg : Config B) (change : RemoteChange B), validateAndDecryptChange cfg change = .ok item

/-- The row that is staged for an item, read again, is the item's change. -/
theorem stagedRow_read {change : Change B} (hitem : item.Validated)
    (h : validateAndDecryptChange cfg (stagedRow item).change = .ok change) :
    change.id = item.id ∧ change.revision = item.revision ∧ change.changeCursor = item.changeCursor ∧
      change.raw.asset = item.raw.asset := by
  obtain ⟨cfg', remote, hremote⟩ := hitem
  obtain ⟨hraw, hid, hrevision, hcursor⟩ := validateAndDecryptChange_eq_ok hremote
  obtain ⟨hraw', hid', hrevision', hcursor'⟩ := validateAndDecryptChange_eq_ok h
  have hasset : (stagedRow item).change.asset = remote.asset := by
    rw [stagedRow, hraw]
  have hlt : item.changeCursor < 2 ^ 64 := parseU64_lt (orError_eq_ok_iff.1 hcursor)
  have hread : parseCursor (stagedRow item).change.changeCursor = .ok item.changeCursor :=
    orError_eq_ok_iff.2 (parseU64_toString hlt)
  refine ⟨?_, ?_, ?_, ?_⟩
  · rw [hid', hasset, hid]
  · rw [hasset, hrevision] at hrevision'
    exact (Except.ok.inj hrevision').symm
  · rw [hread] at hcursor'
    exact (Except.ok.inj hcursor').symm
  · rw [hraw']
    rfl

/-! ### What a page brings -/

/-- A page starts where the local cursor stands, and its items lie behind it, up to the next cursor. -/
structure Page.Follows (cursor : Nat) (page : Page B) : Prop where
  requested : page.requestedCursor = cursor
  le : cursor ≤ page.nextCursor
  items : ∀ item ∈ page.items, cursor < item.changeCursor ∧ item.changeCursor ≤ page.nextCursor ∧ item.Validated

theorem validateItems_eq_ok {changes : List (RemoteChange B)} {previous : Nat}
    {result : Nat × List (Change B)} (h : validateItems cfg nextCursor previous changes = .ok result) :
    ∀ item ∈ result.2, previous < item.changeCursor ∧ item.changeCursor ≤ nextCursor ∧ item.Validated := by
  induction changes generalizing previous result with
  | nil =>
    cases h
    exact fun item hitem ↦ absurd hitem List.not_mem_nil
  | cons change changes ih =>
    obtain ⟨changeCursor, hcursor, h⟩ := bind_eq_ok_iff.1 h
    obtain ⟨hrange, h⟩ := ite_error_eq_ok_iff.1 h
    obtain ⟨assetCursor, -, h⟩ := bind_eq_ok_iff.1 h
    obtain ⟨-, h⟩ := ite_error_eq_ok_iff.1 h
    obtain ⟨validated, hvalidated, h⟩ := bind_eq_ok_iff.1 h
    obtain ⟨rest, hrest, h⟩ := bind_eq_ok_iff.1 h
    cases h
    have hsame : validated.changeCursor = changeCursor := by
      have h := (validateAndDecryptChange_eq_ok hvalidated).2.2.2
      rw [hcursor] at h
      exact (Except.ok.inj h).symm
    intro item hitem
    obtain rfl | hitem := List.mem_cons.1 hitem
    · refine ⟨?_, ?_, cfg, change, hvalidated⟩
      · omega
      · omega
    · obtain ⟨hlt, hle, hvalid⟩ := ih hrest item hitem
      exact ⟨by omega, hle, hvalid⟩

theorem validateAndDecryptPage_eq_ok {page : Page B}
    (h : validateAndDecryptPage cfg localCursor response = .ok page) : page.Follows localCursor := by
  obtain ⟨requestedCursor, -, h⟩ := bind_eq_ok_iff.1 h
  obtain ⟨nextCursor, -, h⟩ := bind_eq_ok_iff.1 h
  obtain ⟨hcursor, h⟩ := ite_error_eq_ok_iff.1 h
  obtain ⟨-, h⟩ := ite_error_eq_ok_iff.1 h
  obtain ⟨items, hitems, h⟩ := bind_eq_ok_iff.1 h
  obtain ⟨-, h⟩ := ite_error_eq_ok_iff.1 h
  obtain ⟨-, h⟩ := ite_error_eq_ok_iff.1 h
  cases h
  have hrequested : requestedCursor = localCursor := by omega
  refine ⟨hrequested, ?_, ?_⟩
  · show localCursor ≤ nextCursor
    omega
  · exact hrequested ▸ validateItems_eq_ok hitems

/-- Pages without a gap from one cursor to another. -/
def Chain : Nat → List (Page B) → Nat → Prop
  | cursor, [], next => cursor = next
  | cursor, page :: pages, next => page.Follows cursor ∧ Chain page.nextCursor pages next

theorem Chain.le {cursor next : Nat} (h : Chain cursor pages next) : cursor ≤ next := by
  induction pages generalizing cursor with
  | nil => exact Nat.le_of_eq h
  | cons page pages ih => exact h.1.le.trans (ih h.2)

theorem Chain.append {cursor next : Nat} {page : Page B} (h : Chain cursor pages next)
    (hpage : page.Follows next) : Chain cursor (pages ++ [page]) page.nextCursor := by
  induction pages generalizing cursor with
  | nil => exact ⟨show page.Follows cursor from (show cursor = next from h) ▸ hpage, rfl⟩
  | cons first pages ih => exact ⟨h.1, ih h.2⟩

/-- The last page ends where the pages lead to. -/
theorem Chain.last {pages : List (Page B)} {cursor next : Nat} (h : Chain cursor pages next) :
    (pages.getLast?.map (·.nextCursor)).getD cursor = next := by
  induction pages generalizing cursor with
  | nil => exact h
  | cons page pages ih =>
    have hlast := ih h.2
    rw [List.getLast?_cons]
    obtain hnone | ⟨last, hsome⟩ := Option.eq_none_or_eq_some pages.getLast?
    · rw [hnone] at hlast ⊢
      exact hlast
    · rw [hsome] at hlast ⊢
      exact hlast

/-- Pages that move the cursor end where they move it to. -/
theorem Chain.exists_last {cursor next : Nat} (h : Chain cursor pages next) (hne : cursor ≠ next) :
    ∃ page, pages.getLast? = some page ∧ page.nextCursor = next := by
  have hlast := h.last
  obtain hnone | ⟨page, hsome⟩ := Option.eq_none_or_eq_some pages.getLast?
  · rw [hnone] at hlast
    exact absurd hlast hne
  · rw [hsome] at hlast
    exact ⟨page, hsome, hlast⟩

/-! ### What is staged -/

/-- What the items leave staged: each asset once, with an item of its highest revision. -/
structure Staged (items : List (Change B)) (staging : Table String (StagedRow B)) : Prop where
  ids : ∀ id, (staging.lookup id).isSome = true ↔ ∃ item ∈ items, item.id = id
  newest : ∀ id row, staging.lookup id = some row → ∃ item ∈ items, item.id = id ∧ row = stagedRow item ∧
    ∀ other ∈ items, other.id = id → other.revision ≤ item.revision

theorem staged_nil : Staged (B := B) [] ∅ := by
  refine ⟨fun id ↦ ?_, fun id row h ↦ (nomatch h)⟩
  exact ⟨fun h ↦ (nomatch h), fun ⟨_, hitem, _⟩ ↦ absurd hitem List.not_mem_nil⟩

/-- A row that is written over. -/
theorem Staged.insert {items : List (Change B)} {staging : Table String (StagedRow B)} (h : Staged items staging)
    {change : Change B} (hnewest : ∀ other ∈ items, other.id = change.id → other.revision ≤ change.revision) :
    Staged (items ++ [change]) (staging.insert change.id (stagedRow change)) := by
  refine ⟨fun id ↦ ?_, fun id row hrow ↦ ?_⟩
  · rw [Table.lookup_insert]
    by_cases hid : id = change.id
    · rw [if_pos hid]
      exact iff_of_true rfl ⟨change, List.mem_append_right _ List.mem_cons_self, hid.symm⟩
    · rw [if_neg hid, h.ids id]
      constructor
      · rintro ⟨item, hitem, heq⟩
        exact ⟨item, List.mem_append_left _ hitem, heq⟩
      · rintro ⟨item, hitem, heq⟩
        obtain hitem | hitem := List.mem_append.1 hitem
        · exact ⟨item, hitem, heq⟩
        · rw [List.mem_singleton.1 hitem] at heq
          exact absurd heq.symm hid
  · rw [Table.lookup_insert] at hrow
    split_ifs at hrow with hid
    · cases hrow
      refine ⟨change, List.mem_append_right _ List.mem_cons_self, hid.symm, rfl, fun other hother heq ↦ ?_⟩
      obtain hother | hother := List.mem_append.1 hother
      · exact hnewest other hother (heq.trans hid)
      · rw [List.mem_singleton.1 hother]
    · obtain ⟨item, hitem, hitemId, hrowEq, hmax⟩ := h.newest id row hrow
      refine ⟨item, List.mem_append_left _ hitem, hitemId, hrowEq, fun other hother heq ↦ ?_⟩
      obtain hother | hother := List.mem_append.1 hother
      · exact hmax other hother heq
      · rw [List.mem_singleton.1 hother] at heq
        exact absurd heq.symm hid

/-- One more item, whatever its revision. -/
theorem Staged.upsert {items : List (Change B)} (h : Staged items staging) (change : Change B) :
    Staged (items ++ [change]) (upsertStaged staging (stagedRow change)) := by
  rw [upsertStaged]
  obtain hnone | ⟨existing, hsome⟩ := Option.eq_none_or_eq_some (staging.lookup (stagedRow change).assetId)
  · rw [hnone]
    refine h.insert fun other hother heq ↦ ?_
    have hstaged : (staging.lookup change.id).isSome = true := (h.ids _).2 ⟨other, hother, heq⟩
    rw [show staging.lookup change.id = none from hnone] at hstaged
    cases hstaged
  · rw [hsome]
    obtain ⟨item, hitem, hid, rfl, hmax⟩ := h.newest _ _ hsome
    by_cases hle : (stagedRow item).revision ≤ (stagedRow change).revision
    · simp only [if_pos hle]
      exact h.insert fun other hother heq ↦ (hmax other hother heq).trans hle
    · simp only [if_neg hle]
      -- the change is older than what is staged for its asset
      refine ⟨fun id ↦ ?_, fun id row hrow ↦ ?_⟩
      · rw [h.ids id]
        constructor
        · rintro ⟨found, hfound, heq⟩
          exact ⟨found, List.mem_append_left _ hfound, heq⟩
        · rintro ⟨found, hfound, heq⟩
          obtain hfound | hfound := List.mem_append.1 hfound
          · exact ⟨found, hfound, heq⟩
          · rw [List.mem_singleton.1 hfound] at heq
            exact ⟨item, hitem, hid.trans heq⟩
      · obtain ⟨found, hfound, hfoundId, hrowEq, hnewest⟩ := h.newest id row hrow
        refine ⟨found, List.mem_append_left _ hfound, hfoundId, hrowEq, fun other hother heq ↦ ?_⟩
        obtain hother | hother := List.mem_append.1 hother
        · exact hnewest other hother heq
        · rw [List.mem_singleton.1 hother] at heq ⊢
          have hitemLe : item.revision ≤ found.revision := hnewest item hitem (hid.trans heq)
          exact (Nat.le_of_not_le hle).trans hitemLe

theorem Staged.of_stageItems {changes items : List (Change B)} {staging' : Table String (StagedRow B)}
    (h : Staged items staging) (hstage : stageItems changes staging = .ok staging') :
    Staged (items ++ changes) staging' := by
  induction changes generalizing items staging with
  | nil =>
    cases hstage
    rwa [List.append_nil]
  | cons change changes ih =>
    obtain ⟨_, -, hstage⟩ := bind_eq_ok_iff.1 hstage
    have hrest := ih (h.upsert change) hstage
    rwa [List.append_assoc] at hrest

/-! ### Each staged asset has one turn -/

/-- The folders that are grouped, under whatever parent. -/
def grouped (children : Table String (List String)) : List String :=
  children.entries.flatMap (·.2)

theorem grouped_perm (children : Table String (List String)) (parent : String) :
    (grouped children).Perm ((children.lookup parent).getD [] ++ grouped (children.erase parent)) := by
  obtain hnone | ⟨ids, hsome⟩ := Option.eq_none_or_eq_some (children.lookup parent)
  · have hkeys : parent ∉ children.entries.keys := AList.lookup_eq_none.1 hnone
    have herase : (children.erase parent).entries = children.entries := List.kerase_of_notMem_keys hkeys
    rw [hnone, grouped, grouped, herase]
    exact List.Perm.refl _
  · have hkey : parent ∈ children.entries.keys := AList.lookup_isSome.1 (by rw [hsome]; rfl)
    obtain ⟨found, before, after, -, hentries, herase⟩ := List.exists_of_kerase hkey
    have hfound : children.lookup parent = some found :=
      AList.mem_lookup_iff.2 (hentries ▸ List.mem_append_right _ List.mem_cons_self)
    have hperm : children.entries.Perm (⟨parent, found⟩ :: (children.erase parent).entries) := by
      rw [show (children.erase parent).entries = before ++ after from herase, hentries]
      exact List.perm_middle
    rw [hfound]
    exact hperm.flatMap_right _

theorem groupFolders_perm (ids : List String) (folders : List (StagedRow B)) (children : Table String (List String)) :
    ((groupFolders ids folders children).1 ++ grouped (groupFolders ids folders children).2).Perm
      (folders.map (·.assetId) ++ grouped children) := by
  induction folders generalizing children with
  | nil => exact List.Perm.refl _
  | cons folder folders ih =>
    rw [groupFolders]
    obtain hnone | ⟨parent, hsome⟩ := Option.eq_none_or_eq_some (folder.parentId.filter (· ∈ ids))
    · rw [hnone]
      exact (ih children).cons _
    · rw [hsome]
      refine (ih _).trans ?_
      have hinsert : (grouped (children.insert parent ((children.lookup parent).getD [] ++ [folder.assetId]))).Perm
          (folder.assetId :: grouped children) := by
        show ((children.lookup parent).getD [] ++ [folder.assetId] ++ grouped (children.erase parent)).Perm _
        rw [List.append_assoc]
        exact List.perm_middle.trans ((grouped_perm children parent).symm.cons _)
      exact (hinsert.append_left _).trans List.perm_middle

/-- The children that are put behind their parents are some of those that are grouped. -/
theorem appendDependents_subperm (fuel : Nat) (queue : List String) (children : Table String (List String)) :
    (appendDependents fuel queue children).Subperm (queue ++ grouped children) := by
  induction fuel generalizing queue children with
  | zero => exact (List.sublist_append_left _ _).subperm
  | succ fuel ih =>
    cases queue with
    | nil => exact List.nil_subperm
    | cons id queue =>
      rw [appendDependents]
      obtain hnone | ⟨dependents, hsome⟩ := Option.eq_none_or_eq_some (children.lookup id)
      · rw [hnone]
        exact (List.subperm_cons id).2 (ih queue children)
      · rw [hsome]
        have hperm := grouped_perm children id
        rw [hsome] at hperm
        refine ((List.subperm_cons id).2 (ih _ _)).trans (List.Perm.subperm ?_)
        rw [List.append_assoc]
        exact (hperm.symm.append_left _).cons _

/-- **The order of a batch** has every staged asset once. -/
theorem stagedOrder_perm (hkeys : ∀ assetId row, staging.lookup assetId = some row → row.assetId = assetId)
    {ordered : List String} (h : stagedOrder staging = .ok ordered) : ordered.Perm staging.keys := by
  rw [stagedOrder] at h
  dsimp only at h
  obtain ⟨hlength, h⟩ := ite_error_eq_ok_iff.1 h
  cases h
  refine List.Perm.trans ?_ (stagedRows_perm_keys hkeys)
  have hgroups := groupFolders_perm (((stagedRows staging).filter StagedRow.isActiveFolder).map (·.assetId))
    ((stagedRows staging).filter StagedRow.isActiveFolder) ∅
  rw [show grouped (∅ : Table String (List String)) = [] from rfl, List.append_nil] at hgroups
  have hfolders := ((appendDependents_subperm _ _ _).trans hgroups.subperm).perm_of_length_le
    (Nat.le_of_eq (not_not.1 hlength).symm)
  refine (hfolders.append ((List.perm_insertionSort _ _).map _)).trans ?_
  rw [← List.map_append]
  exact (List.filter_append_perm _ _).map _

/-! ### What becomes of one asset -/

/-- The pull itself is left as it is. -/
structure SamePull (db db' : Db B) : Prop where
  cursor : db'.cursor = db.cursor
  batch : db'.batch = db.batch
  staging : db'.staging = db.staging

theorem SamePull.refl (db : Db B) : SamePull db db :=
  ⟨rfl, rfl, rfl⟩

theorem SamePull.trans {db db₁ db' : Db B} (h : SamePull db db₁) (h' : SamePull db₁ db') : SamePull db db' :=
  ⟨h'.cursor.trans h.cursor, h'.batch.trans h.batch, h'.staging.trans h.staging⟩

/-- The asset is known at the revision of the change. -/
def KnownAt (db : Db B) (change : Change B) : Prop :=
  (db.assets.lookup change.id).bind (·.remoteRevision) = some change.revision

/-- A conflict of the asset is kept at the revision of the change. -/
def ConflictAt (db : Db B) (change : Change B) : Prop :=
  ∃ id conflict, db.conflicts.lookup id = some conflict ∧ conflict.assetId = change.id ∧
    conflict.remoteRevision = change.revision ∧ conflict.status = .pending

theorem setOperationStatus_frame (db : Db B) (operationId : String) (status : OperationStatus) :
    SamePull db (setOperationStatus db operationId status) ∧
      (setOperationStatus db operationId status).assets = db.assets ∧
      (setOperationStatus db operationId status).conflicts = db.conflicts := by
  rw [setOperationStatus]
  split
  · exact ⟨SamePull.refl db, rfl, rfl⟩
  · exact ⟨⟨rfl, rfl, rfl⟩, rfl, rfl⟩

theorem knownAt_upsertMetadata (db : Db B) (change : Change B) (status : AssetStatus) (payloadHash : Option B) :
    KnownAt (upsertMetadata db change status payloadHash) change := by
  rw [KnownAt, upsertMetadata]
  dsimp only
  rw [AList.lookup_insert]
  rfl

theorem applyRemoteProjection_known {change : Change B} (h : applyRemoteProjection cfg db change = .ok db') :
    SamePull db db' ∧ KnownAt db' change := by
  rw [applyRemoteProjection] at h
  split at h
  · obtain ⟨deleted, hdeleted, h⟩ := bind_eq_ok_iff.1 h
    cases h
    refine ⟨?_, knownAt_upsertMetadata _ _ _ _⟩
    rw [deleteLocal.eq_def] at hdeleted
    split at hdeleted
    · cases hdeleted
      exact ⟨rfl, rfl, rfl⟩
    · obtain ⟨-, hdeleted⟩ := ite_error_eq_ok_iff.1 hdeleted
      cases hdeleted
      exact ⟨rfl, rfl, rfl⟩
  · split at h
    · cases h
    · obtain ⟨_, -, h⟩ := bind_eq_ok_iff.1 h
      cases h
      exact ⟨⟨rfl, rfl, rfl⟩, knownAt_upsertMetadata _ _ _ _⟩
    · obtain ⟨_, -, h⟩ := bind_eq_ok_iff.1 h
      obtain ⟨upserted, hupserted, h⟩ := bind_eq_ok_iff.1 h
      cases h
      refine ⟨?_, knownAt_upsertMetadata _ _ _ _⟩
      obtain ⟨_, -, hupserted⟩ := bind_eq_ok_iff.1 hupserted
      obtain ⟨_, -, hupserted⟩ := bind_eq_ok_iff.1 hupserted
      cases hupserted
      exact ⟨rfl, rfl, rfl⟩

theorem conflictAt_of_insertConflict {change : Change B} {conflict : ConflictRow B}
    (hid : conflict.assetId = change.id) (hrevision : conflict.remoteRevision = change.revision)
    (hstatus : conflict.status = .pending) (h : insertConflict db conflict = .ok db') :
    SamePull db db' ∧ ConflictAt db' change := by
  rw [insertConflict] at h
  split at h
  · cases h
    exact ⟨⟨rfl, rfl, rfl⟩, _, _, AList.lookup_insert _, hid, hrevision, hstatus⟩
  · obtain ⟨-, h⟩ := ite_error_eq_ok_iff.1 h
    cases h
    exact ⟨⟨rfl, rfl, rfl⟩, _, _, AList.lookup_insert _, hid, hrevision, hstatus⟩

theorem persistConflict_kept {supply : Supply B} {change : Change B} {operation : Option (OperationRow B)}
    (h : persistConflict cfg supply db change operation = .ok db') :
    SamePull db db' ∧ ConflictAt db' change := by
  obtain ⟨candidate, -, h⟩ := bind_eq_ok_iff.1 h
  obtain ⟨_, -, h⟩ := bind_eq_ok_iff.1 h
  obtain ⟨inserted, hinserted, h⟩ := bind_eq_ok_iff.1 h
  obtain ⟨hsame, hconflict⟩ := conflictAt_of_insertConflict rfl rfl rfl hinserted
  have hmarked : SamePull db (markConflicted inserted change candidate) := hsame.trans ⟨rfl, rfl, rfl⟩
  have hkept : ConflictAt (markConflicted inserted change candidate) change := hconflict
  split at h
  · next operationId _ =>
    cases h
    obtain ⟨hframe, -, hconflicts⟩ :=
      setOperationStatus_frame (markConflicted inserted change candidate) operationId .conflicted
    refine ⟨hmarked.trans hframe, ?_⟩
    rw [ConflictAt, hconflicts]
    exact hkept
  · cases h
    exact ⟨hmarked, hkept⟩

/-- What an outcome says of the database after a change: it is known to have been applied, it is kept as a conflict,
or nothing has happened. -/
def Outcome.Tells (db db' : Db B) (change : Change B) : Outcome → Prop
  | .applied | .deleted => KnownAt db' change
  | .conflicted => ConflictAt db' change
  | .ignored => db' = db

theorem tells_appliedOutcome {change : Change B} (hknown : KnownAt db' change) :
    (appliedOutcome change).Tells db db' change := by
  rw [appliedOutcome]
  split
  · exact hknown
  · exact hknown

/-- The outcome of a change tells what has become of it, and the pull goes on as it was. -/
theorem applyChange_tells [DecidableEq B] {supply : Supply B} {change : Change B} {outcome : Outcome}
    (h : applyChange cfg supply db change = .ok (outcome, db')) :
    SamePull db db' ∧ outcome.Tells db db' change := by
  have hunmatched : ∀ operation, applyUnmatched cfg supply db change operation = .ok (outcome, db') →
      SamePull db db' ∧ outcome.Tells db db' change := fun operation hrest ↦ by
    obtain ⟨factChanged, -, hrest⟩ := bind_eq_ok_iff.1 hrest
    split at hrest
    · obtain ⟨_, hconflict, hrest⟩ := bind_eq_ok_iff.1 hrest
      cases hrest
      exact persistConflict_kept hconflict
    · obtain ⟨_, hremote, hrest⟩ := bind_eq_ok_iff.1 hrest
      cases hrest
      obtain ⟨hsame, hknown⟩ := applyRemoteProjection_known hremote
      exact ⟨hsame, tells_appliedOutcome hknown⟩
  rw [applyChange] at h
  split at h
  · cases h
    exact ⟨SamePull.refl _, rfl⟩
  · split at h
    · split at h
      · obtain ⟨db₁, hremote, h⟩ := bind_eq_ok_iff.1 h
        cases h
        obtain ⟨hsame, hknown⟩ := applyRemoteProjection_known hremote
        obtain ⟨hframe, hassets, -⟩ := setOperationStatus_frame db₁ _ .applied
        refine ⟨hsame.trans hframe, tells_appliedOutcome ?_⟩
        rw [KnownAt, hassets]
        exact hknown
      · split at h
        · cases h
          exact ⟨SamePull.refl _, rfl⟩
        · exact hunmatched _ h
    · exact hunmatched none h

/-- Changes that are handled one after the other, with what became of each. -/
inductive HandledInTurn [DecidableEq B] (cfg : Config B) (supply : Supply B) :
    Db B → List (Change B × Outcome) → Db B → Prop
  | nil (db : Db B) : HandledInTurn cfg supply db [] db
  | cons {db db₁ db' : Db B} {change : Change B} {outcome : Outcome} {rest : List (Change B × Outcome)}
      (happlied : applyChange cfg supply db change = .ok (outcome, db₁)) (htells : outcome.Tells db db₁ change)
      (hrest : HandledInTurn cfg supply db₁ rest db') :
      HandledInTurn cfg supply db ((change, outcome) :: rest) db'

/-- A run over staged assets reads each back from its row and handles it. -/
theorem handledInTurn_of_applyOrdered [DecidableEq B] {guard : Nat → Bool} {supply : Supply B}
    {assetIds : List String} {turn : Nat}
    (h : applyOrdered cfg guard supply turn assetIds db = .ok (outcomes, db')) :
    SamePull db db' ∧ HandledInTurn cfg supply db outcomes db' ∧
      List.Forall₂ (fun assetId outcome ↦ stagedChange cfg db.staging assetId = .ok outcome.1) assetIds outcomes := by
  induction assetIds generalizing turn db outcomes with
  | nil =>
    cases h
    exact ⟨SamePull.refl _, .nil _, .nil⟩
  | cons assetId assetIds ih =>
    obtain ⟨_, -, h⟩ := bind_eq_ok_iff.1 h
    obtain ⟨change, hchange, h⟩ := bind_eq_ok_iff.1 h
    obtain ⟨⟨outcome, db₁⟩, happlied, h⟩ := bind_eq_ok_iff.1 h
    obtain ⟨⟨rest, db₂⟩, hrest, h⟩ := bind_eq_ok_iff.1 h
    cases h
    obtain ⟨hsame, htells⟩ := applyChange_tells happlied
    obtain ⟨hsame', hrun, hread⟩ := ih hrest
    refine ⟨hsame.trans hsame', .cons happlied htells hrun, .cons hchange ?_⟩
    rw [hsame.staging] at hread
    exact hread

/-! ### The life of a pull -/

/-- The database, and the pages that the batch has got since it was begun. -/
structure Pull (B : Type) where
  db : Db B
  pages : List (Page B)

/-- All that the pages have brought. -/
def Pull.items (s : Pull B) : List (Change B) :=
  s.pages.flatMap (·.items)

/-- What can happen: the steps of a pull, with what each is called with, and anything else that changes local rows. -/
inductive Event (B : Type)
  | begin
  | stage (cfg : Config B) (localCursor : Nat) (response : ListResponse B)
  | apply (cfg : Config B) (guard : Nat → Bool) (supply : Supply B) (requestedCursor nextCursor : Nat)
  | edit (change : Db B → Db B)

/-- The batch is one that `begin_staged_pull` goes on with. -/
def resumes (db : Db B) : Bool :=
  db.batch.any fun batch ↦ batch.requestedCursor = db.cursor ∧ batch.requestedCursor ≤ batch.nextCursor

/-- An event that nothing interrupts. -/
def Event.perform [DecidableEq B] : Event B → Pull B → Option (Pull B)
  | .begin, s => some ⟨(beginStagedPull s.db).2, if resumes s.db then s.pages else []⟩
  | .stage cfg localCursor response, s =>
    match validateAndDecryptPage cfg localCursor response with
    | .error _ => none
    | .ok page => ((stageValidatedPage s.db page).map fun db ↦ ⟨db, s.pages ++ [page]⟩).toOption
  | .apply cfg guard supply requestedCursor nextCursor, s =>
    ((applyStagedPull cfg guard supply requestedCursor nextCursor s.db).map fun applied ↦ ⟨applied.2, []⟩).toOption
  | .edit change, s =>
    some ⟨{ change s.db with cursor := s.db.cursor, batch := s.db.batch, staging := s.db.staging }, s.pages⟩

/-- An event, which may be interrupted at any point: its transaction is rolled back then, and also where it fails. -/
def step [DecidableEq B] (e : Event B × Bool) (s : Pull B) : Pull B :=
  if e.2 then s else (e.1.perform s).getD s

/-- **The invariant**: the pages of a batch lead without a gap from its first to its last cursor, and what they have
brought is staged. -/
structure PullInv (s : Pull B) : Prop where
  none : s.db.batch = none → s.pages = []
  some : ∀ batch, s.db.batch = some batch →
    Chain batch.requestedCursor s.pages batch.nextCursor ∧ Staged s.items s.db.staging

theorem Chain.validated {cursor next : Nat} (h : Chain cursor pages next) :
    ∀ item ∈ pages.flatMap (·.items), item.Validated := by
  induction pages generalizing cursor with
  | nil => exact fun item hitem ↦ absurd hitem List.not_mem_nil
  | cons page pages ih =>
    intro item hitem
    rw [List.flatMap_cons, List.mem_append] at hitem
    obtain hitem | hitem := hitem
    · exact (h.1.items item hitem).2.2
    · exact ih h.2 item hitem

variable {s : Pull B}

theorem pullInv_begin (h : PullInv s) :
    PullInv ⟨(beginStagedPull s.db).2, if resumes s.db then s.pages else []⟩ := by
  rw [beginStagedPull, resumes]
  obtain hnone | ⟨batch, hsome⟩ := Option.eq_none_or_eq_some s.db.batch
  · rw [hnone]
    exact ⟨fun _ ↦ rfl, fun batch hbatch ↦ by cases hbatch; exact ⟨rfl, staged_nil⟩⟩
  · rw [hsome, Option.any_some, Option.filter_some]
    by_cases hkept : batch.requestedCursor = s.db.cursor ∧ batch.requestedCursor ≤ batch.nextCursor
    · rw [if_pos (decide_eq_true hkept), if_pos (decide_eq_true hkept)]
      exact h
    · rw [if_neg (ne_true_of_eq_false (decide_eq_false hkept)), if_neg (ne_true_of_eq_false (decide_eq_false hkept))]
      exact ⟨fun _ ↦ rfl, fun batch hbatch ↦ by cases hbatch; exact ⟨rfl, staged_nil⟩⟩

theorem pullInv_of_none (hbatch : s.db.batch = none) (hpages : s.pages = []) : PullInv s :=
  ⟨fun _ ↦ hpages, fun batch hsome ↦ by rw [hbatch] at hsome; cases hsome⟩

theorem toI64_eq_ok {value : Nat} {field : String} (h : toI64 value field = .ok n) : n = value := by
  rw [toI64] at h
  split at h
  · exact (Except.ok.inj h).symm
  · cases h

/-- A page that is staged starts where the batch ends. -/
theorem stageValidatedPage_eq_ok {page : Page B} (h : stageValidatedPage db page = .ok db') :
    ∃ batch staging, db.batch = some batch ∧ batch.nextCursor = page.requestedCursor ∧
      stageItems page.items db.staging = .ok staging ∧
      db' = { db with staging, batch := some { batch with nextCursor := page.nextCursor } } := by
  rw [stageValidatedPage] at h
  split at h
  · cases h
  · next batch hbatch =>
    obtain ⟨requested, hrequested, h⟩ := bind_eq_ok_iff.1 h
    obtain ⟨hsame, h⟩ := ite_error_eq_ok_iff.1 h
    obtain ⟨staging, hstaging, h⟩ := bind_eq_ok_iff.1 h
    obtain ⟨next, hnext, h⟩ := bind_eq_ok_iff.1 h
    cases h
    rw [toI64_eq_ok hrequested, not_not] at hsame
    rw [toI64_eq_ok hnext]
    exact ⟨batch, staging, hbatch, hsame, hstaging, rfl⟩

theorem PullInv.stage (h : PullInv s) {page : Page B}
    (hpage : validateAndDecryptPage cfg localCursor response = .ok page)
    (hstage : stageValidatedPage s.db page = .ok db) : PullInv ⟨db, s.pages ++ [page]⟩ := by
  obtain ⟨batch, staging, hbatch, hnext, hitems, rfl⟩ := stageValidatedPage_eq_ok hstage
  obtain ⟨hchain, hstaged⟩ := h.some batch hbatch
  refine ⟨fun hnone ↦ (nomatch hnone), fun batch' hbatch' ↦ ?_⟩
  cases hbatch'
  have hfollows := validateAndDecryptPage_eq_ok hpage
  rw [← hfollows.requested, ← hnext] at hfollows
  refine ⟨hchain.append hfollows, ?_⟩
  rw [Pull.items, List.flatMap_append, List.flatMap_cons, List.flatMap_nil, List.append_nil]
  exact hstaged.of_stageItems hitems

/-- The call that applies the batch, where it succeeds. -/
theorem applyBatch_eq_ok [DecidableEq B] {guard : Nat → Bool} {supply : Supply B}
    (h : applyBatch cfg guard supply requestedCursor nextCursor db = .ok (outcomes, db')) :
    db.batch = some ⟨db.cursor, nextCursor⟩ ∧ ∃ ordered db₁, stagedOrder db.staging = .ok ordered ∧
      applyOrdered cfg guard supply 0 ordered db = .ok (outcomes, db₁) ∧
      db' = { db₁ with cursor := nextCursor, staging := ∅, batch := none } := by
  obtain ⟨-, h⟩ := ite_error_eq_ok_iff.1 h
  obtain ⟨hcursor, h⟩ := ite_error_eq_ok_iff.1 h
  split at h
  · cases h
  · next batch hbatch =>
    obtain ⟨requested, hrequested, h⟩ := bind_eq_ok_iff.1 h
    obtain ⟨next, hnext, h⟩ := bind_eq_ok_iff.1 h
    obtain ⟨hsame, h⟩ := ite_error_eq_ok_iff.1 h
    obtain ⟨ordered, hordered, h⟩ := bind_eq_ok_iff.1 h
    obtain ⟨⟨outcomes, db₁⟩, hrun, h⟩ := bind_eq_ok_iff.1 h
    obtain ⟨_, -, h⟩ := bind_eq_ok_iff.1 h
    obtain ⟨cursor, hcursor', h⟩ := bind_eq_ok_iff.1 h
    cases h
    rw [toI64_eq_ok hrequested, toI64_eq_ok hnext, not_not] at hsame
    rw [toI64_eq_ok hcursor']
    exact ⟨by rw [hbatch, hsame, not_not.1 hcursor], ordered, db₁, hordered, hrun, rfl⟩

theorem pullInv_step [DecidableEq B] (s : Pull B) (e : Event B × Bool) (h : PullInv s) : PullInv (step e s) := by
  rw [step]
  split
  · exact h
  · cases he : e.1 with
    | begin => exact pullInv_begin h
    | stage cfg localCursor response =>
      rw [Event.perform]
      split
      · exact h
      · next page hpage =>
        cases hstage : stageValidatedPage s.db page with
        | error error => exact h
        | ok db => exact h.stage hpage hstage
    | apply cfg guard supply requestedCursor nextCursor =>
      rw [Event.perform, applyStagedPull]
      cases happly : applyBatch cfg guard supply requestedCursor nextCursor s.db with
      | error error => exact h
      | ok applied =>
        obtain ⟨-, ordered, db₁, -, -, hdb⟩ := applyBatch_eq_ok happly
        exact pullInv_of_none (s := ⟨applied.2, []⟩) (by rw [hdb]) rfl
    | edit change => exact ⟨h.none, h.some⟩

/-! ### What every run keeps -/

/-- A batch that is applied: its pages lead from the old cursor to the new one, and every asset that they have brought
is handled once, by a change of its highest revision. -/
structure Committed [DecidableEq B] (s : Pull B) (cfg : Config B) (supply : Supply B)
    (outcomes : List (Change B × Outcome)) (db' : Db B) : Prop where
  chain : Chain s.db.cursor s.pages db'.cursor
  handled : ∃ db₁, HandledInTurn cfg supply s.db outcomes db₁ ∧
    db' = { db₁ with cursor := db'.cursor, staging := ∅, batch := none }
  nodup : (outcomes.map (·.1.id)).Nodup
  ids : ∀ id, id ∈ outcomes.map (·.1.id) ↔ ∃ item ∈ s.items, item.id = id
  newest : ∀ outcome ∈ outcomes, ∃ item ∈ s.items, outcome.1.id = item.id ∧ outcome.1.revision = item.revision ∧
    outcome.1.changeCursor = item.changeCursor ∧ outcome.1.raw.asset = item.raw.asset ∧
    ∀ other ∈ s.items, other.id = item.id → other.revision ≤ item.revision

/-- One event keeps what a pull promises. -/
structure PullsSafely [DecidableEq B] (s : Pull B) (e : Event B × Bool) : Prop where
  le : s.db.cursor ≤ (step e s).db.cursor
  /-- The cursor moves with a batch that is applied, to the next cursor of its last page. -/
  moved : (step e s).db.cursor ≠ s.db.cursor → ∃ cfg guard supply requestedCursor nextCursor applied,
    e = (.apply cfg guard supply requestedCursor nextCursor, false) ∧
    applyStagedPull cfg guard supply requestedCursor nextCursor s.db = .ok applied ∧
    ∃ page, s.pages.getLast? = some page ∧ (step e s).db.cursor = page.nextCursor
  committed : ∀ cfg guard supply requestedCursor nextCursor applied,
    e = (.apply cfg guard supply requestedCursor nextCursor, false) →
    applyStagedPull cfg guard supply requestedCursor nextCursor s.db = .ok applied →
    (step e s).db = applied.2 ∧ ∃ outcomes, applied.1 = summarize nextCursor outcomes ∧
      Committed s cfg supply outcomes applied.2
  failed : e.2 = true ∨ e.1.perform s = none → step e s = s

theorem Committed.of_applyBatch [DecidableEq B] (h : PullInv s) {guard : Nat → Bool} {supply : Supply B}
    (happly : applyBatch cfg guard supply requestedCursor nextCursor s.db = .ok (outcomes, db')) :
    Committed s cfg supply outcomes db' := by
  obtain ⟨hbatch, ordered, db₁, hordered, hrun, rfl⟩ := applyBatch_eq_ok happly
  obtain ⟨hchain, hstaged⟩ := h.some _ hbatch
  obtain ⟨-, hhandled, hread⟩ := handledInTurn_of_applyOrdered hrun
  have hkeys : ∀ assetId row, s.db.staging.lookup assetId = some row → row.assetId = assetId :=
    fun assetId row hrow ↦ by
      obtain ⟨item, -, hid, rfl, -⟩ := hstaged.newest assetId row hrow
      exact hid
  have hperm := stagedOrder_perm hkeys hordered
  have hnewest : ∀ {assetId : String} {change : Change B}, stagedChange cfg s.db.staging assetId = .ok change →
      ∃ item ∈ s.items, item.id = assetId ∧ change.id = item.id ∧ change.revision = item.revision ∧
        change.changeCursor = item.changeCursor ∧ change.raw.asset = item.raw.asset ∧
        ∀ other ∈ s.items, other.id = item.id → other.revision ≤ item.revision := by
    intro assetId change hchange
    rw [stagedChange] at hchange
    split at hchange
    · cases hchange
    · next row hrow =>
      obtain ⟨item, hitem, hid, rfl, hmax⟩ := hstaged.newest assetId row hrow
      split at hchange
      · next read hvalid =>
        cases hchange
        obtain ⟨hsame, hrevision, hcursor, hasset⟩ := stagedRow_read (hchain.validated item hitem) hvalid
        exact ⟨item, hitem, hid, hsame, hrevision, hcursor, hasset, fun other hother heq ↦
          hmax other hother (heq.trans hid)⟩
      · cases hchange
  have hids : outcomes.map (·.1.id) = ordered := by
    clear hperm hordered hrun hhandled happly
    induction hread with
    | nil => rfl
    | @cons assetId outcome _ _ hchange _ ih =>
      obtain ⟨item, -, hid, hsame, -⟩ := hnewest hchange
      exact congrArg₂ List.cons (hsame.trans hid) ih
  refine ⟨hchain, ⟨db₁, hhandled, rfl⟩, ?_, fun id ↦ ?_, fun outcome houtcome ↦ ?_⟩
  · rw [hids]
    exact hperm.nodup_iff.2 s.db.staging.nodupKeys
  · rw [hids, hperm.mem_iff, ← hstaged.ids id]
    exact AList.lookup_isSome.symm
  · obtain ⟨assetId, -, hchange⟩ := exists_left_of_forall₂ hread houtcome
    obtain ⟨item, hitem, -, hrest⟩ := hnewest hchange
    exact ⟨item, hitem, hrest⟩

variable {e : Event B × Bool}

/-- Nothing moves. -/
theorem PullsSafely.of_eq [DecidableEq B] (hcursor : (step e s).db.cursor = s.db.cursor)
    (hcommitted : ∀ cfg guard supply requestedCursor nextCursor applied,
      e = (.apply cfg guard supply requestedCursor nextCursor, false) →
      applyStagedPull cfg guard supply requestedCursor nextCursor s.db = .ok applied → False)
    (hfailed : e.2 = true ∨ e.1.perform s = none → step e s = s) : PullsSafely s e where
  le := Nat.le_of_eq hcursor.symm
  moved hne := absurd hcursor hne
  committed cfg guard supply requestedCursor nextCursor applied he happly :=
    (hcommitted cfg guard supply requestedCursor nextCursor applied he happly).elim
  failed := hfailed

theorem step_of_failed [DecidableEq B] (h : e.2 = true ∨ e.1.perform s = none) :
    step e s = s := by
  rw [step]
  obtain h | h := h
  · rw [if_pos h]
  · rw [h, Option.getD_none, ite_self]

theorem pullsSafely [DecidableEq B] (h : PullInv s) (e : Event B × Bool) : PullsSafely s e := by
  obtain ⟨event, fault⟩ := e
  cases fault with
  | true =>
    exact .of_eq (by rw [step_of_failed (.inl rfl)]) (fun _ _ _ _ _ _ he ↦ by cases he) step_of_failed
  | false =>
    cases event with
    | begin =>
      refine .of_eq ?_ (fun _ _ _ _ _ _ he ↦ by cases he) step_of_failed
      show (beginStagedPull s.db).2.cursor = s.db.cursor
      rw [beginStagedPull]
      split
      · rfl
      · rfl
    | stage cfg localCursor response =>
      refine .of_eq ?_ (fun _ _ _ _ _ _ he ↦ by cases he) step_of_failed
      show ((Event.stage cfg localCursor response).perform s |>.getD s).db.cursor = s.db.cursor
      rw [Event.perform]
      split
      · rfl
      · next page hpage =>
        cases hstage : stageValidatedPage s.db page with
        | error error => rfl
        | ok db =>
          obtain ⟨batch, staging, -, -, -, rfl⟩ := stageValidatedPage_eq_ok hstage
          rfl
    | edit change => exact .of_eq rfl (fun _ _ _ _ _ _ he ↦ by cases he) step_of_failed
    | apply cfg guard supply requestedCursor nextCursor =>
      cases happly : applyBatch cfg guard supply requestedCursor nextCursor s.db with
      | error error =>
        have herror : applyStagedPull cfg guard supply requestedCursor nextCursor s.db = .error error := by
          rw [applyStagedPull, happly]
          rfl
        refine .of_eq ?_ (fun _ _ _ _ _ _ he hok ↦ ?_) step_of_failed
        · rw [step_of_failed (.inr (by rw [Event.perform, herror]; rfl))]
        · cases he
          rw [herror] at hok
          cases hok
      | ok applied =>
        have hok : applyStagedPull cfg guard supply requestedCursor nextCursor s.db =
            .ok (summarize nextCursor applied.1, applied.2) := by
          rw [applyStagedPull, happly]
          rfl
        have hstep : step (.apply cfg guard supply requestedCursor nextCursor, false) s = ⟨applied.2, []⟩ := by
          rw [step, if_neg Bool.false_ne_true, Event.perform, hok]
          rfl
        have hcommitted := Committed.of_applyBatch h happly
        refine ⟨?_, fun hne ↦ ?_, fun _ _ _ _ _ _ he hok' ↦ ?_, step_of_failed⟩
        · rw [hstep]
          exact hcommitted.chain.le
        · rw [hstep] at hne ⊢
          obtain ⟨page, hlast, hpage⟩ := hcommitted.chain.exists_last (Ne.symm hne)
          exact ⟨cfg, guard, supply, requestedCursor, nextCursor, _, rfl, hok, page, hlast, hpage.symm⟩
        · cases he
          rw [hok] at hok'
          cases hok'
          rw [hstep]
          exact ⟨rfl, applied.1, rfl, hcommitted⟩

/-- **Every run of a pull**: whatever is called, with whatever arguments, and wherever it is interrupted, the cursor
never goes back, it only moves when a batch is applied, and then every asset of the pages up to it has been handled
once, by a change of its highest revision. -/
theorem pull_run [DecidableEq B] {db : Db B} (hbatch : db.batch = none) (events : List (Event B × Bool))
    (e : Event B × Bool) : PullsSafely (run step ⟨db, []⟩ events) e := by
  have hstart : PullInv (⟨db, []⟩ : Pull B) := pullInv_of_none hbatch rfl
  exact pullsSafely (run_invariant_of_forall pullInv_step hstart events) e

namespace Sample

/-- A page with one tombstone. -/
def onePage : ListResponse Bytes where
  requested := "0"
  next := "2"
  hasMore := false
  items := [tombstone .connection lowId]

/-- A pull that is begun, whose first page is lost once and staged then, is applied. -/
theorem pullsSafely_onePage :
    PullsSafely (run step ⟨{}, []⟩ [(.begin, false), (.stage config 0 onePage, true), (.stage config 0 onePage, false)])
      (.apply config (fun _ ↦ true) supply 0 2, false) :=
  pull_run rfl _ _

end Sample

end Sync
