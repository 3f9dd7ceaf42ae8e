import NexusPilot.Attachments.Content

/-!
# What the sections of a task change

The changes of the store and the files that the sections make, one lemma each: what is changed is seen by the
other tasks as `Stable` says, the store and the files stay in order, and the content of ready attachments is kept.
-/

namespace Attachments

variable {sha256 : Bytes → String} {held : Option String}

/-- A change that keeps everything that is relied on. -/
structure Effect (sha256 : Bytes → String) (held : Option String) (m m' : Memory) : Prop where
  stable : Stable held m m'
  store : StoreOk sha256 m'
  ready : ReadyHaveContent m'

/-! ### Attachments that are dropped or marked -/

/-- A change of the store after which there are no other blobs, and no other or ready attachments. -/
structure Shrinks (store store' : Store) : Prop where
  blobs : store'.blobs = store.blobs
  attachments : ∀ attachment' ∈ store'.attachments, ∃ attachment ∈ store.attachments,
    attachment.id = attachment'.id ∧ attachment.blobId = attachment'.blobId ∧
      (attachment'.state = .ready → attachment.state = .ready)

theorem Shrinks.refl (store : Store) : Shrinks store store :=
  ⟨rfl, fun attachment hmem ↦ ⟨attachment, hmem, rfl, rfl, id⟩⟩

theorem Shrinks.trans {first second third : Store} (h : Shrinks first second) (h' : Shrinks second third) :
    Shrinks first third := by
  refine ⟨h'.blobs.trans h.blobs, fun attachment'' hmem ↦ ?_⟩
  obtain ⟨attachment', hmem', hid', hblob', hready'⟩ := h'.attachments attachment'' hmem
  obtain ⟨attachment, hmem, hid, hblob, hready⟩ := h.attachments attachment' hmem'
  exact ⟨attachment, hmem, hid.trans hid', hblob.trans hblob', hready ∘ hready'⟩

theorem Shrinks.foldl {α : Type} {f : Store → α → Store} (h : ∀ store x, Shrinks store (f store x)) (xs : List α)
    (store : Store) : Shrinks store (xs.foldl f store) := by
  induction xs generalizing store with
  | nil => exact Shrinks.refl store
  | cons x xs ih => exact (h store x).trans (ih (f store x))

variable {store store' : Store} {id : ℕ} {m : Memory} {state : BlobState} {blob other : RuntimeBlob}
  {path : String} {content : Bytes} {existing : Option RuntimeBlob}

/-- Changes of the uploads and references only. -/
theorem Shrinks.of_eq (hblobs : store'.blobs = store.blobs)
    (hattachments : store'.attachments = store.attachments) : Shrinks store store' :=
  ⟨hblobs, fun attachment hmem ↦ ⟨attachment, hattachments ▸ hmem, rfl, rfl, id⟩⟩

theorem shrinks_setAttachmentState (store : Store) (p : RuntimeAttachment → Bool) {state : AttachmentState}
    (hstate : state ≠ .ready) : Shrinks store (store.setAttachmentState p state) := by
  refine ⟨rfl, fun attachment' hmem ↦ ?_⟩
  obtain ⟨attachment, hmem', rfl⟩ := List.mem_map.1 hmem
  refine ⟨attachment, hmem', ?_⟩
  split
  · exact ⟨rfl, rfl, fun hready ↦ absurd hready hstate⟩
  · exact ⟨rfl, rfl, id⟩

theorem shrinks_deleteAttachmentRow (store : Store) (id : ℕ) : Shrinks store (store.deleteAttachmentRow id) :=
  ⟨rfl, fun attachment hmem ↦ ⟨attachment, List.mem_of_mem_filter hmem, rfl, rfl, fun h ↦ h⟩⟩

theorem shrinks_markAttachmentCorrupt (store : Store) (id : ℕ) : Shrinks store (store.markAttachmentCorrupt id) :=
  shrinks_setAttachmentState _ _ AttachmentState.noConfusion

theorem shrinks_markAttachmentDeleting (store : Store) (id : ℕ) :
    Shrinks store (store.markAttachmentDeleting id) := by
  rw [Store.markAttachmentDeleting]
  split
  · exact Shrinks.refl store
  · exact shrinks_setAttachmentState _ _ AttachmentState.noConfusion

theorem shrinks_deleteDeletingAttachment (store : Store) (id : ℕ) :
    Shrinks store (store.deleteDeletingAttachment id) := by
  rw [Store.deleteDeletingAttachment]
  split
  · exact shrinks_deleteAttachmentRow store id
  · exact Shrinks.refl store

theorem shrinks_markIssues (issues : List ℕ) (store : Store) : Shrinks store (markIssues issues store) :=
  Shrinks.foldl shrinks_markAttachmentCorrupt issues store

theorem shrinks_deleteDue (now : ℕ) (store : Store) : Shrinks store (deleteDue now store) := by
  rw [deleteDue]
  refine Shrinks.foldl (fun store (attachment : RuntimeAttachment) ↦ ?_) _ store
  exact (shrinks_markAttachmentDeleting store attachment.id).trans (shrinks_deleteDeletingAttachment _ attachment.id)

theorem shrinks_deleteUnreferencedAttachment {blob : Option RuntimeBlob}
    (h : store.deleteUnreferencedAttachment id = .ok (store', blob)) : Shrinks store store' := by
  rw [Store.deleteUnreferencedAttachment] at h
  split at h
  · obtain ⟨rfl, -⟩ := Prod.mk.inj (Except.ok.inj h)
    exact Shrinks.refl store
  · split at h
    · exact (nomatch h)
    · obtain ⟨rfl, -⟩ := Prod.mk.inj (Except.ok.inj h)
      exact shrinks_deleteAttachmentRow store id

/-- Dropping and marking attachments keeps the store in order. -/
theorem StoreOk.of_shrinks (hstore : StoreOk sha256 m) (h : Shrinks m.store store') :
    StoreOk sha256 { m with store := store' } := by
  refine ⟨fun blob hmem ↦ ?_, fun blob hmem other hmem' ↦
    hstore.unique blob (h.blobs ▸ hmem) other (h.blobs ▸ hmem'), ?_, ?_, ?_, hstore.named⟩
  · have hknown := hstore.known blob (h.blobs ▸ hmem)
    exact ⟨hknown.id_lt, hknown.storageKey, fun other hmem' ↦ hknown.same other (h.blobs ▸ hmem')⟩
  · intro attachment' hmem
    obtain ⟨attachment, hmem', hid, -, -⟩ := h.attachments attachment' hmem
    exact hid ▸ hstore.id_lt attachment hmem'
  · intro attachment' hmem
    obtain ⟨attachment, hmem', -, hblob, -⟩ := h.attachments attachment' hmem
    exact hblob ▸ hstore.blobId_lt attachment hmem'
  · intro attachment' hmem other' hother hid
    obtain ⟨attachment, hmem', hid', hblob, -⟩ := h.attachments attachment' hmem
    obtain ⟨other, hother', hid'', hblob', -⟩ := h.attachments other' hother
    rw [← hblob, ← hblob']
    exact hstore.blobId attachment hmem' other hother' (hid'.trans (hid.trans hid''.symm))

/-- Dropping and marking attachments keeps everything. -/
theorem Effect.of_shrinks {m : Memory} (hstore : StoreOk sha256 m) (hready : ReadyHaveContent m) {store' : Store}
    (h : Shrinks m.store store') : Effect sha256 held m { m with store := store' } := by
  refine ⟨⟨le_rfl, fun blob hmem ↦ Or.inl ⟨blob, h.blobs ▸ hmem, rfl, rfl, rfl⟩, fun blob hmem _ ↦
    ⟨blob, h.blobs.symm ▸ hmem, rfl, Or.inl⟩, fun _ _ ↦ rfl, fun _ _ _ hfile ↦ hfile, fun attachment' hmem ↦ ?_⟩,
    hstore.of_shrinks h, fun attachment' hmem hstate ↦ ?_⟩
  · obtain ⟨attachment, hmem', hid, hblob, -⟩ := h.attachments attachment' hmem
    exact Or.inl ⟨attachment, hmem', hid, hblob⟩
  · obtain ⟨attachment, hmem', hid, hblobId, hready'⟩ := h.attachments attachment' hmem
    obtain ⟨blob, hblob, hid', havailable, content, hfile, huploaded⟩ := hready attachment hmem' (hready' hstate)
    exact ⟨blob, h.blobs.symm ▸ hblob, hid'.trans hblobId, havailable, content, hfile, hid ▸ huploaded⟩

/-- A step that changes neither store nor files. -/
theorem Effect.refl {m : Memory} (hstore : StoreOk sha256 m) (hready : ReadyHaveContent m) :
    Effect sha256 held m m :=
  Effect.of_shrinks hstore hready (Shrinks.refl m.store)

/-! ### Blobs that are marked -/

/-- A blob of a store in which blobs have been marked. -/
theorem exists_of_mem_markBlobState {blob' : RuntimeBlob} (h : blob' ∈ (store.markBlobState id state).blobs) :
    ∃ blob ∈ store.blobs, blob' = if blob.id = id then { blob with state } else blob := by
  obtain ⟨blob, hmem, rfl⟩ := List.mem_map.1 h
  exact ⟨blob, hmem, rfl⟩

/-- A blob that is marked keeps all but its state. -/
theorem marked_eq (blob : RuntimeBlob) (id : ℕ) (state : BlobState) :
    (if blob.id = id then { blob with state } else blob).id = blob.id ∧
      (if blob.id = id then { blob with state } else blob).sha256 = blob.sha256 ∧
      (if blob.id = id then { blob with state } else blob).byteLength = blob.byteLength ∧
      (if blob.id = id then { blob with state } else blob).storageKey = blob.storageKey := by
  split <;> exact ⟨rfl, rfl, rfl, rfl⟩

/-- Marking a blob keeps the store in order. -/
theorem StoreOk.markBlobState {m : Memory} (hstore : StoreOk sha256 m) (id : ℕ) (state : BlobState) :
    StoreOk sha256 { m with store := m.store.markBlobState id state } := by
  refine ⟨fun blob' hmem' ↦ ?_, fun blob' hmem' other' hother' hsha ↦ ?_, hstore.id_lt, hstore.blobId_lt,
    hstore.blobId, hstore.named⟩
  · obtain ⟨blob, hmem, rfl⟩ := exists_of_mem_markBlobState hmem'
    obtain ⟨hid, hsha, hlen, hkey⟩ := marked_eq blob id state
    have hknown := hstore.known blob hmem
    refine ⟨hid.symm ▸ hknown.id_lt, ?_, fun other' hother' hid' ↦ ?_⟩
    · rw [hkey, hsha]
      exact hknown.storageKey
    · obtain ⟨other, hother, rfl⟩ := exists_of_mem_markBlobState hother'
      obtain ⟨hoid, hosha, holen, -⟩ := marked_eq other id state
      rw [hosha, holen, hsha, hlen]
      exact hknown.same other hother (hoid.symm.trans (hid'.trans hid))
  · obtain ⟨blob, hmem, rfl⟩ := exists_of_mem_markBlobState hmem'
    obtain ⟨other, hother, rfl⟩ := exists_of_mem_markBlobState hother'
    rw [(marked_eq blob id state).2.1, (marked_eq other id state).2.1] at hsha
    rw [hstore.unique blob hmem other hother hsha]

/-- What the others see of a blob that is marked. -/
theorem Stable.of_markBlobState
    (hkept : ∀ other ∈ m.store.blobs, other.id = blob.id → held = some other.sha256 ∨ ¬Intact m other) :
    Stable held m { m with store := m.store.markBlobState blob.id state } := by
  refine ⟨le_rfl, fun blob' hmem' ↦ ?_, fun other hmem hheld ↦ ?_, fun _ _ ↦ rfl, fun _ _ _ hfile ↦ hfile,
    fun attachment hmem ↦ Or.inl ⟨attachment, hmem, rfl, rfl⟩⟩
  · obtain ⟨other, hmem, rfl⟩ := exists_of_mem_markBlobState hmem'
    obtain ⟨hid, hsha, hlen, -⟩ := marked_eq other blob.id state
    exact Or.inl ⟨other, hmem, hid.symm, hsha.symm, hlen.symm⟩
  · refine ⟨_, List.mem_map_of_mem hmem, (marked_eq other blob.id state).1, fun havailable ↦ ?_⟩
    by_cases hid : other.id = blob.id
    · exact Or.inr ((hkept other hmem hid).resolve_left hheld)
    · rw [if_neg hid]
      exact Or.inl havailable

/-- A blob without attachments is marked under its lock. -/
theorem Effect.of_markBlobState {m : Memory} (hstore : StoreOk sha256 m) (hready : ReadyHaveContent m)
    {blob : RuntimeBlob} (hknown : Known m blob) (hnone : NoAttachments m blob.id) (state : BlobState) :
    Effect sha256 (some blob.sha256) m { m with store := m.store.markBlobState blob.id state } := by
  refine ⟨Stable.of_markBlobState fun other hmem hid ↦ Or.inl (congrArg some (hknown.same other hmem hid).1.symm),
    hstore.markBlobState blob.id state, fun attachment hmem hstate ↦ ?_⟩
  obtain ⟨other, hother, hid, havailable, hcontent⟩ := hready attachment hmem hstate
  have hne : other.id ≠ blob.id := hid ▸ hnone attachment hmem
  refine ⟨other, List.mem_map.2 ⟨other, hother, if_neg hne⟩, hid, havailable, hcontent⟩

/-- A blob without its file is marked, and its attachments with it. -/
theorem Effect.of_markBlobAndAttachmentsCorrupt (hstore : StoreOk sha256 m) (hready : ReadyHaveContent m)
    (hknown : Known m blob) (hbroken : (∃ other ∈ m.store.blobs, other.id = blob.id) → ¬Intact m blob) :
    Effect sha256 held m { m with store := m.store.markBlobAndAttachmentsCorrupt blob.id } := by
  have hmark : Stable held m { m with store := m.store.markBlobState blob.id .corrupt } :=
    Stable.of_markBlobState fun other hmem hid ↦
      Or.inr fun hfile ↦ hbroken ⟨other, hmem, hid⟩ ((hknown.intact_iff hstore hmem hid).1 hfile)
  have hshrinks : Shrinks (m.store.markBlobState blob.id .corrupt) (m.store.markBlobAndAttachmentsCorrupt blob.id) :=
    shrinks_setAttachmentState _ _ AttachmentState.noConfusion
  refine ⟨⟨hmark.nextId, hmark.blobs, hmark.kept, hmark.files, hmark.healed, fun attachment' hmem' ↦ ?_⟩,
    (hstore.markBlobState blob.id .corrupt).of_shrinks hshrinks, fun attachment' hmem' hstate ↦ ?_⟩
  · obtain ⟨attachment, hmem, hid, hblobId, -⟩ := hshrinks.attachments attachment' hmem'
    exact Or.inl ⟨attachment, hmem, hid, hblobId⟩
  · obtain ⟨attachment, hmem, rfl⟩ := List.mem_map.1 hmem'
    by_cases hblobId : attachment.blobId = blob.id
    · rw [if_pos (decide_eq_true hblobId)] at hstate
      exact (nomatch hstate)
    · rw [if_neg (by simpa using hblobId)] at hstate ⊢
      obtain ⟨other, hother, hid, havailable, hcontent⟩ := hready attachment hmem hstate
      have hne : other.id ≠ blob.id := hid ▸ hblobId
      exact ⟨other, List.mem_map.2 ⟨other, hother, if_neg hne⟩, hid, havailable, hcontent⟩

/-! ### Blobs that are deleted -/

theorem noAttachments_of_hasBlobReferences (h : ¬m.store.hasBlobReferences id) :
    NoAttachments m id := by
  intro attachment hmem hid
  exact h (List.any_eq_true.2 ⟨attachment, hmem, decide_eq_true hid⟩)

/-- The record of a blob is deleted under its lock. -/
theorem Effect.of_deleteBlobRecord (hstore : StoreOk sha256 m) (hready : ReadyHaveContent m)
    (hknown : Known m blob) :
    Effect sha256 (some blob.sha256) m { m with store := m.store.deleteBlobRecord blob.id } := by
  by_cases hreferences : m.store.hasBlobReferences blob.id
  · rw [Store.deleteBlobRecord, if_pos hreferences]
    exact Effect.refl hstore hready
  have hnone := noAttachments_of_hasBlobReferences hreferences
  rw [Store.deleteBlobRecord, if_neg hreferences]
  have hold : ∀ other ∈ m.store.blobs.filter (fun other ↦ decide (other.id ≠ blob.id)), other ∈ m.store.blobs :=
    fun other hmem ↦ List.mem_of_mem_filter hmem
  have hkept : ∀ other ∈ m.store.blobs, other.id ≠ blob.id →
      other ∈ m.store.blobs.filter fun other ↦ decide (other.id ≠ blob.id) :=
    fun other hmem hne ↦ List.mem_filter.2 ⟨hmem, decide_eq_true hne⟩
  refine ⟨⟨le_rfl, fun other hmem ↦ Or.inl ⟨other, hold other hmem, rfl, rfl, rfl⟩, fun other hmem hheld ↦ ?_,
    fun _ _ ↦ rfl, fun _ _ _ hfile ↦ hfile, fun attachment hmem ↦ Or.inl ⟨attachment, hmem, rfl, rfl⟩⟩,
    ⟨fun other hmem ↦ ?_, fun other hmem another hmem' ↦ hstore.unique other (hold other hmem) another
      (hold another hmem'), hstore.id_lt, hstore.blobId_lt, hstore.blobId, hstore.named⟩,
    fun attachment hmem hstate ↦ ?_⟩
  · have hne : other.id ≠ blob.id := fun hid ↦ hheld (congrArg some (hknown.same other hmem hid).1.symm)
    exact ⟨other, hkept other hmem hne, rfl, Or.inl⟩
  · have hother := hstore.known other (hold other hmem)
    exact ⟨hother.id_lt, hother.storageKey, fun another hmem' ↦ hother.same another (hold another hmem')⟩
  · obtain ⟨other, hother, hid, hcontent⟩ := hready attachment hmem hstate
    exact ⟨other, hkept other hother (hid ▸ hnone attachment hmem), hid, hcontent⟩

/-! ### Files -/

/-- A file that is written or removed is not that of another blob. -/
theorem intact_update_iff {file : Option Bytes} (hne : blob.storageKey ≠ path) :
    Intact { m with files := Function.update m.files path file } blob ↔ Intact m blob := by
  have hfile : Function.update m.files path file blob.storageKey = m.files blob.storageKey :=
    Function.update_of_ne hne _ _
  show (Option.any _ (Function.update m.files path file blob.storageKey) : Bool) ↔ _
  rw [hfile]
  rfl

/-- A file that has been removed is not that of a blob. -/
theorem not_intact_removeFile (h : Intact { m with files := Function.update m.files path none } blob) :
    blob.storageKey ≠ path ∧ Intact m blob := by
  have hne : blob.storageKey ≠ path := by
    rintro rfl
    have hnone : Function.update m.files blob.storageKey none blob.storageKey = none := Function.update_self _ _ _
    replace h : (Option.any _ (Function.update m.files blob.storageKey none blob.storageKey) : Bool) := h
    rw [hnone] at h
    exact Bool.false_ne_true h
  exact ⟨hne, (intact_update_iff hne).1 h⟩

theorem StoreOk.removeFile (hstore : StoreOk sha256 m) (path : String) :
    StoreOk sha256 { m with files := Function.update m.files path none } where
  known := fun blob hmem ↦ ⟨(hstore.known blob hmem).id_lt, (hstore.known blob hmem).storageKey,
    (hstore.known blob hmem).same⟩
  unique := hstore.unique
  id_lt := hstore.id_lt
  blobId_lt := hstore.blobId_lt
  blobId := hstore.blobId
  named := by
    intro other content hfile
    replace hfile : Function.update m.files path none other = some content := hfile
    by_cases hpath : other = path
    · rw [hpath, Function.update_self] at hfile
      exact (nomatch hfile)
    · rw [Function.update_of_ne hpath] at hfile
      exact hstore.named other content hfile

/-- A file that is of no attachment is removed. -/
theorem ReadyHaveContent.removeFile (hready : ReadyHaveContent m)
    (hpath : ∀ attachment ∈ m.store.attachments, ∀ blob ∈ m.store.blobs, blob.id = attachment.blobId →
      blob.storageKey ≠ path) : ReadyHaveContent { m with files := Function.update m.files path none } := by
  intro attachment hmem hstate
  obtain ⟨blob, hblob, hid, havailable, content, hfile, huploaded⟩ := hready attachment hmem hstate
  refine ⟨blob, hblob, hid, havailable, content, ?_, huploaded⟩
  exact (Function.update_of_ne (hpath attachment hmem blob hblob hid) _ _).trans hfile

/-- The file of a blob without attachments is removed under its lock. -/
theorem Effect.of_removeFile (hstore : StoreOk sha256 m) (hready : ReadyHaveContent m) (hknown : Known m blob)
    (hnone : NoAttachments m blob.id)
    (hunique : ∀ other ∈ m.store.blobs, other.storageKey = blob.storageKey → other.id = blob.id) :
    Effect sha256 (some blob.sha256) m { m with files := Function.update m.files blob.storageKey none } := by
  refine ⟨⟨le_rfl, fun other hmem ↦ Or.inl ⟨other, hmem, rfl, rfl, rfl⟩, fun other hmem _ ↦ ⟨other, hmem, rfl, Or.inl⟩,
    fun hash hheld ↦ ?_, fun other _ _ hfile ↦ (not_intact_removeFile hfile).2,
    fun attachment hmem ↦ Or.inl ⟨attachment, hmem, rfl, rfl⟩⟩, hstore.removeFile _, hready.removeFile ?_⟩
  · have hne : storageKeyForHash hash ≠ blob.storageKey := fun hkey ↦
      hheld (congrArg some (storageKeyForHash_injective (hkey.trans hknown.storageKey)).symm)
    exact Function.update_of_ne hne _ _
  · exact fun attachment hmem other hother hid hkey ↦
      hnone attachment hmem (hid.symm.trans (hunique other hother hkey))

/-- The file of a content is put into its place under its lock. -/
theorem Effect.of_writeFile (hstore : StoreOk sha256 m) (hready : ReadyHaveContent m)
    (hnone : NoBlob m (sha256 content)) :
    Effect sha256 (some (sha256 content)) m
      { m with files := Function.update m.files (storageKeyForHash (sha256 content)) (some content) } := by
  have hkey : ∀ blob ∈ m.store.blobs, blob.storageKey ≠ storageKeyForHash (sha256 content) := fun blob hmem heq ↦
    hnone blob hmem (storageKeyForHash_injective ((hstore.known blob hmem).storageKey.symm.trans heq))
  refine ⟨⟨le_rfl, fun other hmem ↦ Or.inl ⟨other, hmem, rfl, rfl, rfl⟩, fun other hmem _ ↦ ⟨other, hmem, rfl, Or.inl⟩,
    fun hash hheld ↦ ?_, fun blob hknown hrecord hfile ↦ ?_, fun attachment hmem ↦ Or.inl ⟨attachment, hmem, rfl, rfl⟩⟩,
    ⟨?_, hstore.unique, hstore.id_lt, hstore.blobId_lt, hstore.blobId, fun path other hfile ↦ ?_⟩,
    fun attachment hmem hstate ↦ ?_⟩
  · have hne : storageKeyForHash hash ≠ storageKeyForHash (sha256 content) := fun heq ↦
      hheld (congrArg some (storageKeyForHash_injective heq).symm)
    exact Function.update_of_ne hne _ _
  · obtain ⟨other, hmem, hid⟩ := hrecord
    have hne : blob.storageKey ≠ storageKeyForHash (sha256 content) := by
      rw [hknown.storageKey, ← (hknown.same other hmem hid).1, ← (hstore.known other hmem).storageKey]
      exact hkey other hmem
    exact (intact_update_iff hne).1 hfile
  · exact fun blob hmem ↦ ⟨(hstore.known blob hmem).id_lt, (hstore.known blob hmem).storageKey,
      (hstore.known blob hmem).same⟩
  · replace hfile : Function.update m.files (storageKeyForHash (sha256 content)) (some content) path = some other :=
      hfile
    by_cases hpath : path = storageKeyForHash (sha256 content)
    · rw [hpath, Function.update_self] at hfile
      rw [hpath, Option.some.inj hfile]
    · rw [Function.update_of_ne hpath] at hfile
      exact hstore.named path other hfile
  · obtain ⟨blob, hblob, hid, havailable, uploaded, hfile, huploaded⟩ := hready attachment hmem hstate
    exact ⟨blob, hblob, hid, havailable, uploaded, (Function.update_of_ne (hkey blob hblob) _ _).trans hfile, huploaded⟩

/-- **The scan for orphans** removes a file of no blob, that no upload is making one of: whatever a task relies on
stays true, although no lock is held. -/
theorem TaskOk.removeOrphan (hstore : StoreOk sha256 m)
    (hpath : ∀ blob ∈ m.store.blobs, blob.storageKey ≠ path) {running : Task}
    (hclaims : ¬Claims sha256 running path) (h : TaskOk sha256 m running) :
    TaskOk sha256 { m with files := Function.update m.files path none } running := by
  have hknown : ∀ {blob}, Known m blob → Known { m with files := Function.update m.files path none } blob :=
    fun hblob ↦ ⟨hblob.id_lt, hblob.storageKey, hblob.same⟩
  have hfound : ∀ {hash existing}, Found m hash existing →
      Found { m with files := Function.update m.files path none } hash existing := by
    rintro hash existing ⟨hsha, hblob, blob, hmem, hid, hstate⟩
    exact ⟨hsha, hknown hblob, blob, hmem, hid, hstate.imp_right fun hbroken hfile ↦
      hbroken (not_intact_removeFile hfile).2⟩
  have hplace : ∀ {content : Bytes} {existing}, (existing = none → storageKeyForHash (sha256 content) ≠ path) →
      InPlace m (sha256 content) existing →
      InPlace { m with files := Function.update m.files path none } (sha256 content) existing := by
    intro content existing hne hplaced
    cases existing with
    | none =>
      obtain ⟨hnone, file, hfile⟩ := hplaced
      exact ⟨hnone, file, (Function.update_of_ne (hne rfl) _ _).trans hfile⟩
    | some existing =>
      obtain ⟨hsha, hblob, hintact, blob, hmem, hid, hstate⟩ := hplaced
      have hkey : existing.storageKey ≠ path := by
        rw [hblob.storageKey, ← (hblob.same blob hmem hid).1, ← (hstore.known blob hmem).storageKey]
        exact hpath blob hmem
      exact ⟨hsha, hknown hblob, (intact_update_iff hkey).2 hintact, blob, hmem, hid, hstate⟩
  cases running with
  | upload uploadId content pc =>
    cases pc with
    | makingDirectory existing =>
      cases existing with
      | none => exact h
      | some existing => exact hfound h
    | verifying existing => exact hfound h
    | removingTemp existing =>
      refine hplace (fun hnone ↦ ?_) h
      rw [hnone] at hclaims
      exact hclaims
    | placed existing =>
      refine hplace (fun hnone ↦ ?_) h
      rw [hnone] at hclaims
      exact hclaims
    | _ => exact h
  | deleteAttachment hash pc =>
    cases pc with
    | waitingHash id => exact h
    | removing blob => exact ⟨h.1, hknown h.2.1, h.2.2⟩
    | removed blob => exact ⟨h.1, hknown h.2.1, h.2.2⟩
  | collectGarbage pc =>
    cases pc with
    | verifying blob batch => exact hknown h
    | verified blob intact batch =>
      exact ⟨hknown h.1, fun hintact hmem hfile ↦ h.2 hintact hmem (not_intact_removeFile hfile).2⟩
    | unreferenced blobs => exact fun blob hmem ↦ hknown (h blob hmem)
    | waitingHash blob blobs => exact ⟨hknown h.1, fun other hmem ↦ hknown (h.2 other hmem)⟩
    | removing blob blobs => exact ⟨hknown h.1, h.2.1, fun other hmem ↦ hknown (h.2.2 other hmem)⟩
    | removed blob blobs => exact ⟨hknown h.1, h.2.1, fun other hmem ↦ hknown (h.2.2 other hmem)⟩
    | _ => trivial

/-! ### Publishing -/

/-- The blobs after the blob of an upload has been inserted: they are the same, or it is new and there was none of
its hash. -/
theorem mem_insertBlob (h : other ∈ (store.insertBlob blob).blobs) :
    other ∈ store.blobs ∨ other = blob ∧ ∀ old ∈ store.blobs, old.sha256 ≠ blob.sha256 := by
  rw [Store.insertBlob] at h
  split at h
  · exact Or.inl h
  · rename_i hany
    obtain h | h := List.mem_append.1 h
    · exact Or.inl h
    · refine Or.inr ⟨List.mem_singleton.1 h, fun old hold hsha ↦ hany ?_⟩
      exact List.any_eq_true.2 ⟨old, hold, decide_eq_true hsha⟩

theorem insertBlob_attachments (store : Store) (blob : RuntimeBlob) :
    (store.insertBlob blob).attachments = store.attachments := by
  rw [Store.insertBlob]
  split <;> rfl

theorem mem_insertBlob_of_mem (h : other ∈ store.blobs) :
    other ∈ (store.insertBlob blob).blobs := by
  rw [Store.insertBlob]
  split
  · exact h
  · exact List.mem_append_left _ h

/-- The blob that an upload makes an attachment of, once its file is in its place, is available. -/
theorem storedBlob_of_inPlace (hstore : StoreOk sha256 m) {hash : String} (hplace : InPlace m hash existing)
    {storedBlob : RuntimeBlob} (hblob : existing = none → blob.state = .available)
    (hstored : (m.store.insertBlob blob).getBlobBySha256 hash = some storedBlob) :
    storedBlob ∈ (m.store.insertBlob blob).blobs ∧ storedBlob.sha256 = hash ∧ storedBlob.state = .available := by
  have hmem := List.mem_of_find?_eq_some hstored
  have hsha : storedBlob.sha256 = hash := by simpa using List.find?_some hstored
  refine ⟨hmem, hsha, ?_⟩
  cases existing with
  | none =>
    obtain hold | ⟨rfl, -⟩ := mem_insertBlob hmem
    · exact absurd hsha (hplace.1 storedBlob hold)
    · exact hblob rfl
  | some found =>
    obtain ⟨hfound, hknown, -, record, hrecord, hid, hstate⟩ := hplace
    have hsame := (hknown.same record hrecord hid).1.trans hfound
    obtain hold | ⟨rfl, hnew⟩ := mem_insertBlob hmem
    · rw [hstore.unique storedBlob hold record hrecord (hsha.trans hsame.symm)]
      exact hstate
    · exact absurd (hsame.trans hsha.symm) (hnew record hrecord)

/-- Identifiers that are used up. -/
theorem Effect.of_nextId (hstore : StoreOk sha256 m) (hready : ReadyHaveContent m) {nextId : ℕ}
    (hnext : m.nextId ≤ nextId) : Effect sha256 held m { m with nextId } where
  stable := ⟨hnext, fun blob hmem ↦ Or.inl ⟨blob, hmem, rfl, rfl, rfl⟩, fun blob hmem _ ↦ ⟨blob, hmem, rfl, Or.inl⟩,
    fun _ _ ↦ rfl, fun _ _ _ hfile ↦ hfile, fun attachment hmem ↦ Or.inl ⟨attachment, hmem, rfl, rfl⟩⟩
  store := ⟨fun blob hmem ↦ ⟨(hstore.known blob hmem).id_lt.trans_le hnext, (hstore.known blob hmem).storageKey,
    (hstore.known blob hmem).same⟩, hstore.unique, fun attachment hmem ↦ (hstore.id_lt attachment hmem).trans_le hnext,
    fun attachment hmem ↦ (hstore.blobId_lt attachment hmem).trans_le hnext, hstore.blobId, hstore.named⟩
  ready := hready

/-- The file that is in its place is what has been uploaded. -/
theorem InPlace.file (hsha256 : Function.Injective sha256) {m : Memory} (hstore : StoreOk sha256 m) {content : Bytes}
    {existing : Option RuntimeBlob} (h : InPlace m (sha256 content) existing) :
    m.files (storageKeyForHash (sha256 content)) = some content := by
  have hfile : ∃ file, m.files (storageKeyForHash (sha256 content)) = some file := by
    cases existing with
    | none => exact h.2
    | some existing =>
      obtain ⟨hsha, hknown, hintact, -⟩ := h
      rw [Intact, Memory.verifyFileLength, hknown.storageKey, hsha] at hintact
      obtain ⟨file, hfile, -⟩ := (Option.any_eq_true _ _).1 hintact
      exact ⟨file, hfile⟩
  obtain ⟨file, hfile⟩ := hfile
  rw [hfile, hsha256 (storageKeyForHash_injective (hstore.named _ _ hfile))]

/-- The memory after an upload has been completed. -/
def completedMemory (m : Memory) (content : Bytes) (store : Store) (completed : RuntimeAttachment) : Memory :=
  { m with
    store
    nextId := m.nextId + 2
    uploaded :=
      if completed.id = m.nextId + 1 then Function.update m.uploaded (m.nextId + 1) (some content) else m.uploaded }

/-- A new attachment of a blob of a content, that is there before or new with it. -/
theorem Effect.of_published (hstore : StoreOk sha256 m) (hready : ReadyHaveContent m)
    (hfile : m.files (storageKeyForHash (sha256 content)) = some content) (new : RuntimeBlob)
    {stored : RuntimeBlob} (attachment : RuntimeAttachment)
    (hnew : new.id = m.nextId ∧ new.sha256 = sha256 content ∧
      new.storageKey = storageKeyForHash (sha256 content))
    (hold : ∀ blob ∈ m.store.blobs, blob ∈ store'.blobs)
    (hblobs : ∀ blob ∈ store'.blobs, blob ∈ m.store.blobs ∨ blob = new ∧ NoBlob m (sha256 content))
    (hstored : stored ∈ store'.blobs ∧ stored.sha256 = sha256 content ∧ stored.state = .available)
    (hattachment : attachment.id = m.nextId + 1 ∧ attachment.blobId = stored.id)
    (hattachments : store'.attachments = m.store.attachments ++ [attachment]) :
    Effect sha256 (some (sha256 content)) m
      { store := store', files := m.files, nextId := m.nextId + 2,
        uploaded := Function.update m.uploaded (m.nextId + 1) (some content) } := by
  have hknown : ∀ blob ∈ store'.blobs, blob.id < m.nextId + 2 ∧ blob.storageKey = storageKeyForHash blob.sha256 := by
    intro blob hmem
    obtain hmem | ⟨rfl, -⟩ := hblobs blob hmem
    · have hlt := (hstore.known blob hmem).id_lt
      exact ⟨by omega, (hstore.known blob hmem).storageKey⟩
    · exact ⟨by omega, hnew.2.2.trans (congrArg storageKeyForHash hnew.2.1.symm)⟩
  have hattach : ∀ other ∈ store'.attachments, other ∈ m.store.attachments ∨ other = attachment := by
    intro other hmem
    rw [hattachments] at hmem
    exact (List.mem_append.1 hmem).imp_right List.mem_singleton.1
  refine ⟨⟨by simp, fun blob hmem ↦ ?_, fun blob hmem _ ↦ ⟨blob, hold blob hmem, rfl, Or.inl⟩, fun _ _ ↦ rfl,
    fun _ _ _ h ↦ h, fun other hmem ↦ ?_⟩, ⟨fun blob hmem ↦ ⟨(hknown blob hmem).1, (hknown blob hmem).2, ?_⟩, ?_, ?_, ?_,
    ?_, hstore.named⟩, fun other hmem hstate ↦ ?_⟩
  · obtain hmem | ⟨rfl, -⟩ := hblobs blob hmem
    · exact Or.inl ⟨blob, hmem, rfl, rfl, rfl⟩
    · exact Or.inr ⟨hnew.1.ge, congrArg some hnew.2.1.symm⟩
  · obtain hmem | rfl := hattach other hmem
    · exact Or.inl ⟨other, hmem, rfl, rfl⟩
    · exact Or.inr ⟨by omega, stored, hstored.1, hattachment.2.symm, congrArg some hstored.2.1.symm⟩
  · intro other hother hid
    obtain hmem' | ⟨rfl, -⟩ := hblobs blob hmem
    · have hlt := (hstore.known blob hmem').id_lt
      obtain hother' | ⟨rfl, -⟩ := hblobs other hother
      · exact (hstore.known blob hmem').same other hother' hid
      · omega
    · obtain hother' | ⟨rfl, -⟩ := hblobs other hother
      · have hlt := (hstore.known other hother').id_lt
        omega
      · exact ⟨rfl, rfl⟩
  · intro blob hmem other hother hsha
    obtain hmem' | ⟨rfl, hnone⟩ := hblobs blob hmem
    · obtain hother' | ⟨rfl, hnone⟩ := hblobs other hother
      · exact hstore.unique blob hmem' other hother' hsha
      · exact absurd (hsha.trans hnew.2.1) (hnone blob hmem')
    · obtain hother' | ⟨rfl, -⟩ := hblobs other hother
      · exact absurd (hsha.symm.trans hnew.2.1) (hnone other hother')
      · rfl
  · intro other hmem
    show other.id < m.nextId + 2
    obtain hmem | rfl := hattach other hmem
    · have hlt := hstore.id_lt other hmem
      omega
    · omega
  · intro other hmem
    show other.blobId < m.nextId + 2
    obtain hmem | rfl := hattach other hmem
    · have hlt := hstore.blobId_lt other hmem
      omega
    · rw [hattachment.2]
      exact (hknown stored hstored.1).1
  · intro other hmem another hmem' hid
    obtain hmem | rfl := hattach other hmem
    · have hlt := hstore.id_lt other hmem
      obtain hmem' | rfl := hattach another hmem'
      · exact hstore.blobId other hmem another hmem' hid
      · omega
    · obtain hmem' | rfl := hattach another hmem'
      · have hlt := hstore.id_lt another hmem'
        omega
      · rfl
  · obtain hmem | rfl := hattach other hmem
    · have hlt := hstore.id_lt other hmem
      obtain ⟨blob, hblob, hid, havailable, file, hfile', huploaded⟩ := hready other hmem hstate
      refine ⟨blob, hold blob hblob, hid, havailable, file, hfile', ?_⟩
      exact (Function.update_of_ne (by omega) _ _).trans huploaded
    · refine ⟨stored, hstored.1, hattachment.2.symm, hstored.2.2, content, ?_, ?_⟩
      · show m.files stored.storageKey = some content
        rw [(hknown stored hstored.1).2, hstored.2.1]
        exact hfile
      · show Function.update m.uploaded (m.nextId + 1) (some content) other.id = some content
        rw [hattachment.1, Function.update_self]

/-- **An upload whose file is in its place is published** under the lock of its hash. -/
theorem Effect.of_completeUpload (hsha256 : Function.Injective sha256) (hstore : StoreOk sha256 m)
    (hready : ReadyHaveContent m) (hplace : InPlace m (sha256 content) existing) {uploadId now : ℕ}
    (hblob : blob = existing.getD (publishedBlob m (sha256 content) content now))
    {completed : RuntimeAttachment}
    (hok : m.store.completeUpload uploadId (publishedAttachment m blob content now) blob = .ok (store', completed)) :
    Effect sha256 (some (sha256 content)) m (completedMemory m content store' completed) := by
  rw [Store.completeUpload] at hok
  split at hok
  · exact (nomatch hok)
  split at hok
  · split at hok
    · exact (nomatch hok)
    · rename_i found hfound
      obtain ⟨rfl, rfl⟩ := Prod.mk.inj (Except.ok.inj hok)
      have hlt := hstore.id_lt found (List.mem_of_find?_eq_some hfound)
      rw [completedMemory, if_neg (by omega)]
      exact Effect.of_nextId hstore hready (by omega)
  split at hok
  · exact (nomatch hok)
  rename_i storedBlob hstored
  split at hok
  · exact (nomatch hok)
  obtain ⟨rfl, rfl⟩ := Prod.mk.inj (Except.ok.inj hok)
  have hsha : blob.sha256 = sha256 content := by
    cases existing with
    | none => rw [hblob]; rfl
    | some found => rw [hblob]; exact hplace.1
  rw [hsha] at hstored
  have havailable := storedBlob_of_inPlace hstore hplace (fun hnone ↦ by rw [hblob, hnone]; rfl) hstored
  have hid : ({ publishedAttachment m blob content now with blobId := storedBlob.id } : RuntimeAttachment).id =
      m.nextId + 1 := rfl
  rw [completedMemory, if_pos hid]
  refine Effect.of_published hstore hready (hplace.file hsha256 hstore) (publishedBlob m (sha256 content) content now)
    { publishedAttachment m blob content now with blobId := storedBlob.id } ⟨rfl, rfl, rfl⟩
    (fun other ↦ mem_insertBlob_of_mem) (fun other hmem ↦ ?_) havailable ⟨rfl, rfl⟩ ?_
  · obtain hold | ⟨rfl, hnone⟩ := mem_insertBlob hmem
    · exact Or.inl hold
    · rw [hsha] at hnone
      refine Or.inr ⟨?_, hnone⟩
      cases existing with
      | none => exact hblob
      | some found =>
        obtain ⟨hfound, hknown, -, record, hrecord, hid, -⟩ := hplace
        exact absurd ((hknown.same record hrecord hid).1.trans hfound) (hnone record hrecord)
  · show (m.store.insertBlob blob).attachments ++ _ = _
    rw [insertBlob_attachments]

end Attachments
