import NexusPilot.Attachments.Service

/-!
# The content of ready attachments

Every ready attachment has an available blob whose file is what has been uploaded. Uploads, deletions and the
collection of unreferenced blobs change the blob and the file of a hash under the lock of the hash only, so that a
task relies on what it has read of its own hash (`TaskOk`) whatever the others do (`Stable`).

Two removals are outside of this. The collection removes the file of a blob that it has listed before, which may
have been replaced by another blob of the same content since; and the scan for orphans removes a file without the
lock, so that a blob may have been made of it since the scan has looked. The content is there in every run in
which neither happens (`SafeStep`).
-/

namespace Attachments

open Machine

/-! ### Storage keys -/

/-- Contents with different hashes have different files. -/
theorem storageKeyForHash_injective : Function.Injective storageKeyForHash := by
  intro hash hash' h
  have hchars := String.ofList_inj.1 h
  have hlen := congrArg List.length hchars
  simp only [List.length_append, List.length_cons, List.length_take, List.length_drop] at hlen
  have hsame : hash.toList.length = hash'.toList.length := by omega
  have hprefix := (List.append_inj hchars (by
    simp only [List.length_append, List.length_cons, List.length_take, List.length_drop, hsame])).1
  have hsuffix := (List.append_inj hprefix (by
    simp only [List.length_append, List.length_cons, List.length_take, List.length_drop, hsame])).2
  exact String.toList_inj.1 (List.cons.inj hsuffix).2

/-! ### The property -/

variable {sha256 : Bytes → String}

/-- An attachment has an available blob whose file is what has been uploaded. -/
def HasContent (m : Memory) (attachment : RuntimeAttachment) : Prop :=
  ∃ blob ∈ m.store.blobs, blob.id = attachment.blobId ∧ blob.state = .available ∧
    ∃ content, m.files blob.storageKey = some content ∧ m.uploaded attachment.id = some content

/-- **Every ready attachment has its content.** -/
def ReadyHaveContent (m : Memory) : Prop :=
  ∀ attachment ∈ m.store.attachments, attachment.state = .ready → HasContent m attachment

/-! ### What a task relies on -/

/-- The file of a blob is there, with its length. -/
def Intact (m : Memory) (blob : RuntimeBlob) : Prop :=
  m.verifyFileLength blob.storageKey blob.byteLength

/-- A blob that is or was in the store. No other one gets its identifier. -/
structure Known (m : Memory) (blob : RuntimeBlob) : Prop where
  id_lt : blob.id < m.nextId
  storageKey : blob.storageKey = storageKeyForHash blob.sha256
  same : ∀ other ∈ m.store.blobs, other.id = blob.id →
    other.sha256 = blob.sha256 ∧ other.byteLength = blob.byteLength

/-- There is no blob of a hash. -/
def NoBlob (m : Memory) (hash : String) : Prop :=
  ∀ blob ∈ m.store.blobs, blob.sha256 ≠ hash

/-- No attachment refers to a blob. -/
def NoAttachments (m : Memory) (blobId : ℕ) : Prop :=
  ∀ attachment ∈ m.store.attachments, attachment.blobId ≠ blobId

/-- A blob that an upload has found: it is available, unless its file is not as it should be. -/
def Found (m : Memory) (hash : String) (existing : RuntimeBlob) : Prop :=
  existing.sha256 = hash ∧ Known m existing ∧
    ∃ blob ∈ m.store.blobs, blob.id = existing.id ∧ (blob.state = .available ∨ ¬Intact m existing)

/-- The file of an upload is in its place, and its blob, if there is one, is available. -/
def InPlace (m : Memory) (hash : String) : Option RuntimeBlob → Prop
  | none => NoBlob m hash ∧ ∃ content, m.files (storageKeyForHash hash) = some content
  | some existing => existing.sha256 = hash ∧ Known m existing ∧ Intact m existing ∧
      ∃ blob ∈ m.store.blobs, blob.id = existing.id ∧ blob.state = .available

/-- What an upload relies on. -/
def UploadOk (m : Memory) (hash : String) : UploadPc → Prop
  | .waitingHash | .waitingQuota => True
  | .makingDirectory none => NoBlob m hash
  | .makingDirectory (some existing) | .verifying existing => Found m hash existing
  | .movingTemp | .accessing | .verifyingFound => NoBlob m hash
  | .removingTemp existing | .placed existing => InPlace m hash existing

/-- What a deletion relies on. -/
def DeleteOk (m : Memory) (hash : String) : DeletePc → Prop
  | .waitingHash id => id < m.nextId ∧ ∀ attachment ∈ m.store.attachments, attachment.id = id →
      ∀ blob ∈ m.store.blobs, blob.id = attachment.blobId → blob.sha256 = hash
  | .removing blob | .removed blob => blob.sha256 = hash ∧ Known m blob ∧ NoAttachments m blob.id ∧
      ∀ other ∈ m.store.blobs, other.sha256 = hash → other.id = blob.id

/-- What a garbage collection relies on. -/
def GarbageOk (m : Memory) : GcPc → Prop
  | .verifying blob _ => Known m blob
  | .verified blob intact _ => Known m blob ∧
      (intact = false → (∃ other ∈ m.store.blobs, other.id = blob.id) → ¬Intact m blob)
  | .unreferenced blobs => ∀ blob ∈ blobs, Known m blob
  | .waitingHash blob blobs => Known m blob ∧ ∀ other ∈ blobs, Known m other
  | .removing blob blobs | .removed blob blobs =>
      Known m blob ∧ NoAttachments m blob.id ∧ ∀ other ∈ blobs, Known m other
  | _ => True

/-- What a task relies on. -/
def TaskOk (sha256 : Bytes → String) (m : Memory) : Task → Prop
  | .upload _ content pc => UploadOk m (sha256 content) pc
  | .deleteAttachment hash pc => DeleteOk m hash pc
  | .collectGarbage pc => GarbageOk m pc

/-- The hash whose lock a task holds. -/
def heldHash (sha256 : Bytes → String) : Task → Option String
  | .upload _ _ .waitingHash => none
  | .upload _ content _ => some (sha256 content)
  | .deleteAttachment _ (.waitingHash _) => none
  | .deleteAttachment hash _ => some hash
  | .collectGarbage (.removing blob _) | .collectGarbage (.removed blob _) => some blob.sha256
  | .collectGarbage _ => none

/-! ### The invariant -/

/-- The store and the files: hashes and identifiers are unique, and a file is named by its content. -/
structure StoreOk (sha256 : Bytes → String) (m : Memory) : Prop where
  known : ∀ blob ∈ m.store.blobs, Known m blob
  unique : ∀ blob ∈ m.store.blobs, ∀ other ∈ m.store.blobs, blob.sha256 = other.sha256 → blob = other
  id_lt : ∀ attachment ∈ m.store.attachments, attachment.id < m.nextId
  blobId_lt : ∀ attachment ∈ m.store.attachments, attachment.blobId < m.nextId
  blobId : ∀ attachment ∈ m.store.attachments, ∀ other ∈ m.store.attachments, attachment.id = other.id →
    attachment.blobId = other.blobId
  named : ∀ path content, m.files path = some content → path = storageKeyForHash (sha256 content)

/-- **The invariant**: the property, and what the running tasks rely on. -/
structure Sound (sha256 : Bytes → String) (w : World) : Prop where
  store : StoreOk sha256 w.toMemory
  ready : ReadyHaveContent w.toMemory
  tasks : ∀ task running, w.tasks task = some running → TaskOk sha256 w.toMemory running
  locks : ∀ task running hash, w.tasks task = some running → heldHash sha256 running = some hash →
    w.hashLocks hash = some task

/-- A service that has been started on a store and files in order. -/
structure Started (sha256 : Bytes → String) (w : World) : Prop where
  store : StoreOk sha256 w.toMemory
  ready : ReadyHaveContent w.toMemory
  idle : ∀ task, w.tasks task = none

theorem Started.sound {w : World} (h : Started sha256 w) : Sound sha256 w where
  store := h.store
  ready := h.ready
  tasks := fun task running hrunning ↦ by rw [h.idle task] at hrunning; exact (nomatch hrunning)
  locks := fun task running hash hrunning ↦ by rw [h.idle task] at hrunning; exact (nomatch hrunning)

/-! ### Steps that remove nothing in use -/

/-- A task that is going to make a blob of the file of a hash. -/
def Claims (sha256 : Bytes → String) (running : Task) (path : String) : Prop :=
  match running with
  | .upload _ content (.removingTemp none) | .upload _ content (.placed none) =>
    storageKeyForHash (sha256 content) = path
  | _ => False

/-- **A step that does not remove a file in use**: the collection removes the file of a listed blob only while no
other blob has it, and the scan for orphans a file that is of no blob, and that no upload is making one of. -/
def SafeStep (sha256 : Bytes → String) (w : World) : Event → Prop
  | .advance task choice =>
    match w.tasks task with
    | some (.collectGarbage (.removing blob _)) =>
      choice.succeeds → ∀ other ∈ w.store.blobs, other.storageKey = blob.storageKey → other.id = blob.id
    | some (.collectGarbage (.removingOrphan path _)) =>
      choice.succeeds → (∀ blob ∈ w.store.blobs, blob.storageKey ≠ path) ∧
        ∀ other running, w.tasks other = some running → ¬Claims sha256 running path
    | _ => True
  | _ => True

/-! ### Stability -/

/-- What the others see of a step: it changes the blob, the file and the attachments of the hash whose lock is held
only, but for attachments that are dropped and blobs without their file that are marked. -/
structure Stable (held : Option String) (m m' : Memory) : Prop where
  nextId : m.nextId ≤ m'.nextId
  blobs : ∀ blob' ∈ m'.store.blobs,
    (∃ blob ∈ m.store.blobs, blob.id = blob'.id ∧ blob.sha256 = blob'.sha256 ∧ blob.byteLength = blob'.byteLength) ∨
      m.nextId ≤ blob'.id ∧ held = some blob'.sha256
  kept : ∀ blob ∈ m.store.blobs, held ≠ some blob.sha256 → ∃ blob' ∈ m'.store.blobs, blob'.id = blob.id ∧
    (blob.state = .available → blob'.state = .available ∨ ¬Intact m blob)
  files : ∀ hash, held ≠ some hash → m'.files (storageKeyForHash hash) = m.files (storageKeyForHash hash)
  healed : ∀ blob, Known m blob → (∃ other ∈ m.store.blobs, other.id = blob.id) → Intact m' blob → Intact m blob
  attachments : ∀ attachment' ∈ m'.store.attachments,
    (∃ attachment ∈ m.store.attachments, attachment.id = attachment'.id ∧ attachment.blobId = attachment'.blobId) ∨
      m.nextId ≤ attachment'.id ∧ ∃ blob' ∈ m'.store.blobs, blob'.id = attachment'.blobId ∧ held = some blob'.sha256

/-- A blob of the store has the file of what is known of it. -/
theorem Known.intact_iff {m : Memory} {existing blob : RuntimeBlob} (hstore : StoreOk sha256 m) (h : Known m existing)
    (hmem : blob ∈ m.store.blobs) (hid : blob.id = existing.id) : Intact m blob ↔ Intact m existing := by
  obtain ⟨hsha, hlen⟩ := h.same blob hmem hid
  rw [Intact, Intact, (hstore.known blob hmem).storageKey, h.storageKey, hsha, hlen]

section Stability

variable {m m' : Memory} {held : Option String} (hstable : Stable held m m')

include hstable

theorem Known.of_stable {blob : RuntimeBlob} (h : Known m blob) : Known m' blob where
  id_lt := h.id_lt.trans_le hstable.nextId
  storageKey := h.storageKey
  same := by
    intro other hmem hid
    obtain ⟨blob', hmem', hid', hsha, hlen⟩ | ⟨hnew, -⟩ := hstable.blobs other hmem
    · rw [← hsha, ← hlen]
      exact h.same blob' hmem' (hid'.trans hid)
    · have := h.id_lt
      omega

theorem NoBlob.of_stable {hash : String} (hheld : held ≠ some hash) (h : NoBlob m hash) : NoBlob m' hash := by
  intro blob' hmem hsha
  obtain ⟨blob, hmem', -, hsha', -⟩ | ⟨-, hheld'⟩ := hstable.blobs blob' hmem
  · exact h blob hmem' (hsha'.trans hsha)
  · exact hheld (hheld'.trans (congrArg some hsha))

theorem NoAttachments.of_stable {blob : RuntimeBlob} (hknown : Known m blob) (hheld : held ≠ some blob.sha256)
    (h : NoAttachments m blob.id) : NoAttachments m' blob.id := by
  intro attachment' hmem hid
  obtain ⟨attachment, hmem', -, hblob⟩ | ⟨-, blob', hblob', hid', hheld'⟩ := hstable.attachments attachment' hmem
  · exact h attachment hmem' (hblob.trans hid)
  · have hsha := ((hknown.of_stable hstable).same blob' hblob' (hid'.trans hid)).1
    exact hheld (hheld'.trans (congrArg some hsha))

theorem intact_iff_of_stable {blob : RuntimeBlob} (hknown : Known m blob) (hheld : held ≠ some blob.sha256) :
    Intact m' blob ↔ Intact m blob := by
  rw [Intact, Intact, Memory.verifyFileLength, Memory.verifyFileLength, hknown.storageKey, hstable.files _ hheld]

theorem Found.of_stable (hstore : StoreOk sha256 m) {hash : String} {existing : RuntimeBlob}
    (hheld : held ≠ some hash) (h : Found m hash existing) : Found m' hash existing := by
  obtain ⟨rfl, hknown, blob, hmem, hid, hstate⟩ := h
  have hintact := intact_iff_of_stable hstable hknown hheld
  have hsha := (hknown.same blob hmem hid).1
  obtain ⟨blob', hmem', hid', hkept⟩ := hstable.kept blob hmem (hsha.symm ▸ hheld)
  refine ⟨rfl, hknown.of_stable hstable, blob', hmem', hid'.trans hid, ?_⟩
  rw [hintact]
  obtain havailable | hbroken := hstate
  · obtain havailable' | hbroken := hkept havailable
    · exact Or.inl havailable'
    · exact Or.inr fun hfile ↦ hbroken ((hknown.intact_iff hstore hmem hid).2 hfile)
  · exact Or.inr hbroken

theorem InPlace.of_stable (hstore : StoreOk sha256 m) {hash : String} {existing : Option RuntimeBlob}
    (hheld : held ≠ some hash) (h : InPlace m hash existing) : InPlace m' hash existing := by
  cases existing with
  | none =>
    obtain ⟨hnone, content, hfile⟩ := h
    exact ⟨hnone.of_stable hstable hheld, content, (hstable.files hash hheld).trans hfile⟩
  | some existing =>
    obtain ⟨rfl, hknown, hintact, blob, hmem, hid, hstate⟩ := h
    have hsha := (hknown.same blob hmem hid).1
    obtain ⟨blob', hmem', hid', hkept⟩ := hstable.kept blob hmem (hsha.symm ▸ hheld)
    have havailable := (hkept hstate).resolve_right (not_not.2 ((hknown.intact_iff hstore hmem hid).2 hintact))
    exact ⟨rfl, hknown.of_stable hstable, (intact_iff_of_stable hstable hknown hheld).2 hintact, blob', hmem',
      hid'.trans hid, havailable⟩

theorem UploadOk.of_stable (hstore : StoreOk sha256 m) {hash : String} {pc : UploadPc}
    (hheld : pc ≠ .waitingHash → held ≠ some hash) (h : UploadOk m hash pc) : UploadOk m' hash pc := by
  cases pc with
  | waitingHash => trivial
  | waitingQuota => trivial
  | makingDirectory existing =>
    cases existing with
    | none => exact NoBlob.of_stable hstable (hheld UploadPc.noConfusion) h
    | some existing => exact Found.of_stable hstable hstore (hheld UploadPc.noConfusion) h
  | verifying existing => exact Found.of_stable hstable hstore (hheld UploadPc.noConfusion) h
  | movingTemp | accessing | verifyingFound => exact NoBlob.of_stable hstable (hheld UploadPc.noConfusion) h
  | removingTemp existing | placed existing =>
    exact InPlace.of_stable hstable hstore (hheld UploadPc.noConfusion) h

theorem DeleteOk.of_stable (hstore : StoreOk sha256 m) {hash : String} {pc : DeletePc}
    (hheld : (∀ id, pc ≠ .waitingHash id) → held ≠ some hash) (h : DeleteOk m hash pc) : DeleteOk m' hash pc := by
  have hremoving : ∀ blob : RuntimeBlob, held ≠ some hash →
      (blob.sha256 = hash ∧ Known m blob ∧ NoAttachments m blob.id ∧
        ∀ other ∈ m.store.blobs, other.sha256 = hash → other.id = blob.id) →
      blob.sha256 = hash ∧ Known m' blob ∧ NoAttachments m' blob.id ∧
        ∀ other ∈ m'.store.blobs, other.sha256 = hash → other.id = blob.id := by
    rintro blob hheld ⟨rfl, hknown, hnone, hunique⟩
    refine ⟨rfl, hknown.of_stable hstable, hnone.of_stable hstable hknown hheld, fun other hmem hsha ↦ ?_⟩
    obtain ⟨blob', hmem', hid, hsha', -⟩ | ⟨-, hheld'⟩ := hstable.blobs other hmem
    · rw [← hid]
      exact hunique blob' hmem' (hsha'.trans hsha)
    · exact absurd (hheld'.trans (congrArg some hsha)) hheld
  cases pc with
  | waitingHash id =>
    obtain ⟨hlt, hhash⟩ := h
    refine ⟨hlt.trans_le hstable.nextId, fun attachment' hmem hid blob' hblob hblobId ↦ ?_⟩
    obtain ⟨attachment, hmem', hid', hblobId'⟩ | ⟨hnew, -⟩ := hstable.attachments attachment' hmem
    · obtain ⟨blob, hblob', hid'', hsha, -⟩ | ⟨hnew, -⟩ := hstable.blobs blob' hblob
      · rw [← hsha]
        exact hhash attachment hmem' (hid'.trans hid) blob hblob' (hid''.trans (hblobId.trans hblobId'.symm))
      · have hlt' := hstore.blobId_lt attachment hmem'
        omega
    · omega
  | removing blob | removed blob => exact hremoving blob (hheld fun _ ↦ DeletePc.noConfusion) h

theorem GarbageOk.of_stable {pc : GcPc}
    (hheld : ∀ hash, heldHash sha256 (.collectGarbage pc) = some hash → held ≠ some hash) (h : GarbageOk m pc) :
    GarbageOk m' pc := by
  cases pc with
  | temporary => trivial
  | repairing batch => trivial
  | verifying blob batch => exact Known.of_stable hstable h
  | verified blob intact batch =>
    obtain ⟨hknown, hbroken⟩ := h
    refine ⟨hknown.of_stable hstable, fun hintact hmem hfile ↦ ?_⟩
    obtain ⟨other, hother, hid⟩ := hmem
    have hmem : ∃ other ∈ m.store.blobs, other.id = blob.id := by
      obtain ⟨blob', hmem', hid', -, -⟩ | ⟨hnew, -⟩ := hstable.blobs other hother
      · exact ⟨blob', hmem', hid'.trans hid⟩
      · have hlt := hknown.id_lt
        omega
    exact hbroken hintact hmem (hstable.healed blob hknown hmem hfile)
  | unreferenced blobs => exact fun blob hmem ↦ Known.of_stable hstable (h blob hmem)
  | waitingHash blob blobs => exact ⟨Known.of_stable hstable h.1, fun other hmem ↦ Known.of_stable hstable (h.2 other hmem)⟩
  | removing blob blobs | removed blob blobs =>
    exact ⟨Known.of_stable hstable h.1, NoAttachments.of_stable hstable h.1 (hheld _ rfl) h.2.1,
      fun other hmem ↦ Known.of_stable hstable (h.2.2 other hmem)⟩
  | orphans paths => trivial
  | statting path paths => trivial
  | removingOrphan path paths => trivial

/-- **What a task relies on stays true** while another one makes a step, unless that holds the same lock. -/
theorem TaskOk.of_stable (hstore : StoreOk sha256 m) {running : Task}
    (hheld : ∀ hash, heldHash sha256 running = some hash → held ≠ some hash) (h : TaskOk sha256 m running) :
    TaskOk sha256 m' running := by
  cases running with
  | upload uploadId content pc =>
    refine UploadOk.of_stable hstable hstore (fun hpc ↦ ?_) h
    cases pc with
    | waitingHash => exact absurd rfl hpc
    | _ => exact hheld _ rfl
  | deleteAttachment hash pc =>
    refine DeleteOk.of_stable hstable hstore (fun hpc ↦ ?_) h
    cases pc with
    | waitingHash id => exact absurd rfl (hpc id)
    | _ => exact hheld _ rfl
  | collectGarbage pc => exact GarbageOk.of_stable hstable hheld h

end Stability

end Attachments
