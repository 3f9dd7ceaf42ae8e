import NexusPilot.Attachments.Store
import NexusPilot.Machine.Run
import Mathlib.Logic.Function.Basic

/-!
# The attachment service

`RuntimeAttachmentService`: the upload of a content, the deletion of an attachment and the garbage collection,
as tasks that interleave at their awaits. A task is what it is about to await and the values that it has read
before; the lock of a hash is taken by one task at a time, and so is the lock of the quota.

An event is one section of a task, a new task, or a change by somebody else. What the environment decides at a
section is a `Choice`: whether an operation of the file system succeeds, whether the task has been aborted, the
clock, what a directory lists. A failed operation changes nothing, a successful one does what it says. Sections
that only go on with the next row of a list are events of their own here.
-/

namespace Attachments

/-- The content of a file. -/
abbrev Bytes := List UInt8

/-- `storageKeyForHash`. -/
def storageKeyForHash (hash : String) : String :=
  String.ofList ("blobs/sha256/".toList ++ hash.toList.take 2 ++ '/' :: (hash.toList.drop 2).take 2 ++
    '/' :: hash.toList ++ ".blob".toList)

/-- `ATTACHMENT_LIMITS.maxBlobBytes`. -/
def maxBlobBytes : ℕ :=
  2 * 1024 * 1024 * 1024

/-- `ATTACHMENT_LIMITS.unattachedTtlMs`. -/
def unattachedTtlMs : ℕ :=
  24 * 60 * 60 * 1000

/-! ### Tasks -/

/-- What an upload waits for, once its content has been written to a temporary file and hashed. -/
inductive UploadPc
  /-- For the lock of the hash. -/
  | waitingHash
  /-- For the lock of the quota. -/
  | waitingQuota
  /-- For the directory of the file. -/
  | makingDirectory (existing : Option RuntimeBlob)
  /-- For the length of the file of a blob that there is. -/
  | verifying (existing : RuntimeBlob)
  /-- For the move of the temporary file. -/
  | movingTemp
  /-- For the look whether there is a file, after the move has failed. -/
  | accessing
  /-- For the length of that file. -/
  | verifyingFound
  /-- For the removal of the temporary file. -/
  | removingTemp (existing : Option RuntimeBlob)
  /-- For nothing: the file is in its place. -/
  | placed (existing : Option RuntimeBlob)
  deriving DecidableEq

/-- What the deletion of an attachment waits for. -/
inductive DeletePc
  | waitingHash (id : ℕ)
  | removing (blob : RuntimeBlob)
  | removed (blob : RuntimeBlob)
  deriving DecidableEq

/-- What a garbage collection waits for. -/
inductive GcPc
  /-- For the removal of old temporary files. -/
  | temporary
  /-- For nothing: the attachments that are to be looked at. -/
  | repairing (batch : List RuntimeAttachment)
  /-- For the length of the file of a blob. -/
  | verifying (blob : RuntimeBlob) (batch : List RuntimeAttachment)
  | verified (blob : RuntimeBlob) (intact : Bool) (batch : List RuntimeAttachment)
  /-- For nothing: the blobs that had no references when they were listed. -/
  | unreferenced (blobs : List RuntimeBlob)
  /-- For the lock of the hash of a blob. -/
  | waitingHash (blob : RuntimeBlob) (blobs : List RuntimeBlob)
  | removing (blob : RuntimeBlob) (blobs : List RuntimeBlob)
  | removed (blob : RuntimeBlob) (blobs : List RuntimeBlob)
  /-- For nothing: the files that are to be looked at. -/
  | orphans (paths : List String)
  /-- For the age of a file without a blob. -/
  | statting (path : String) (paths : List String)
  | removingOrphan (path : String) (paths : List String)
  deriving DecidableEq

/-- A running call of the service. -/
inductive Task
  | upload (uploadId : ℕ) (content : Bytes) (pc : UploadPc)
  | deleteAttachment (hash : String) (pc : DeletePc)
  | collectGarbage (pc : GcPc)
  deriving DecidableEq

/-- The store and the files, and the identifiers that are left. What has been uploaded as which attachment is
recorded in `uploaded`, which nothing reads. -/
structure Memory where
  store : Store
  files : String → Option Bytes
  nextId : ℕ
  uploaded : ℕ → Option Bytes

/-- `verifyFileLength`. -/
def Memory.verifyFileLength (m : Memory) (path : String) (expected : ℕ) : Bool :=
  (m.files path).any fun content ↦ content.length = expected

/-- The state of the service. -/
structure World extends Memory where
  hashLocks : String → Option ℕ
  quotaLock : Option ℕ
  tasks : ℕ → Option Task

/-- What the environment decides at a section. -/
structure Choice where
  succeeds : Bool := true
  aborted : Bool := false
  old : Bool := true
  now : ℕ := 0
  cursor : ℕ := 0
  issues : List ℕ := []
  paths : List String := []

/-- What happens to the references when a message is saved or deleted, and when the attachments that have none
any more are due. -/
structure MessageChange where
  removed : List ℕ
  added : List RuntimeMessageAttachment
  gcAfter : ℕ

/-- One event. -/
inductive Event
  /-- `createUpload`. -/
  | createUpload (upload : RuntimeAttachmentUpload)
  /-- `upload`, up to the hash of its content. -/
  | upload (task uploadId : ℕ) (content : Bytes)
  /-- `deleteUpload`. -/
  | deleteUpload (uploadId : ℕ)
  /-- `deleteAttachment`. -/
  | deleteAttachment (task id : ℕ)
  /-- `collectGarbage`. -/
  | collectGarbage (task : ℕ)
  /-- A message that is saved or deleted. -/
  | message (change : MessageChange)
  /-- The next section of a task. -/
  | advance (task : ℕ) (choice : Choice)

/-! ### The world -/

namespace World

variable (w : World)

/-- The world with a task that goes on. -/
def setTask (task : ℕ) (next : Task) : World :=
  { w with tasks := Function.update w.tasks task (some next) }

/-- The world without a task that has ended. -/
def endTask (task : ℕ) : World :=
  { w with tasks := Function.update w.tasks task none }

/-- The world with another store. -/
def withStore (store : Store) : World :=
  { w with store }

/-- The world with a file. -/
def writeFile (path : String) (content : Bytes) : World :=
  { w with files := Function.update w.files path (some content) }

/-- The world without a file. -/
def removeFile (path : String) : World :=
  { w with files := Function.update w.files path none }

/-- The lock of a hash is taken. -/
def lockHash (hash : String) (task : ℕ) : World :=
  { w with hashLocks := Function.update w.hashLocks hash (some task) }

/-- The lock of a hash is released. -/
def releaseHash (hash : String) : World :=
  { w with hashLocks := Function.update w.hashLocks hash none }

/-- The lock of the quota is taken. -/
def lockQuota (task : ℕ) : World :=
  { w with quotaLock := some task }

/-- The lock of the quota is released. -/
def releaseQuota : World :=
  { w with quotaLock := none }

end World

section Sections

variable (sha256 : Bytes → String)

/-! ### Uploading -/

/-- The end of the section under both locks. -/
def finishUpload (task : ℕ) (hash : String) (w : World) : World :=
  ((w.releaseQuota).releaseHash hash).endTask task

/-- The blob and the attachment that an upload makes. -/
def publishedBlob (m : Memory) (hash : String) (content : Bytes) (now : ℕ) : RuntimeBlob where
  id := m.nextId
  sha256 := hash
  byteLength := content.length
  storageKey := storageKeyForHash hash
  state := .available
  createdAt := now

/-- The attachment that an upload makes. -/
def publishedAttachment (m : Memory) (blob : RuntimeBlob) (content : Bytes) (now : ℕ) : RuntimeAttachment where
  id := m.nextId + 1
  blobId := blob.id
  byteLength := content.length
  state := .ready
  gcAfter := some (now + unattachedTtlMs)

/-- The last section of an upload: what it has put into its place becomes an attachment. -/
def publish (task uploadId : ℕ) (content : Bytes) (existing : Option RuntimeBlob) (choice : Choice) (w : World) :
    World :=
  let hash := sha256 content
  if choice.aborted then finishUpload task hash w
  else
    let blob := existing.getD (publishedBlob w.toMemory hash content choice.now)
    let attachment := publishedAttachment w.toMemory blob content choice.now
    match w.store.completeUpload uploadId attachment blob with
    | .error _ => finishUpload task hash w
    | .ok (store, completed) =>
      finishUpload task hash
        { w with
          store
          nextId := w.nextId + 2
          uploaded :=
            if completed.id = attachment.id then Function.update w.uploaded attachment.id (some content)
            else w.uploaded }

/-- A section of `upload`. -/
def advanceUpload (task uploadId : ℕ) (content : Bytes) (pc : UploadPc) (choice : Choice) (w : World) : World :=
  let hash := sha256 content
  let finalPath := storageKeyForHash hash
  let goOn (pc : UploadPc) (w : World) : World := w.setTask task (.upload uploadId content pc)
  match pc with
  | .waitingHash => if w.hashLocks hash = none then goOn .waitingQuota (w.lockHash hash task) else w
  | .waitingQuota =>
    if w.quotaLock ≠ none then w
    else
      match w.store.getBlobBySha256 hash with
      | some existing =>
        if existing.byteLength ≠ content.length ∨ existing.state ≠ .available then
          finishUpload task hash (w.lockQuota task)
        else goOn (.makingDirectory (some existing)) (w.lockQuota task)
      | none =>
        if w.store.totalStoredBlobBytes + content.length > maxBlobBytes then
          finishUpload task hash (w.lockQuota task)
        else goOn (.makingDirectory none) (w.lockQuota task)
  | .makingDirectory existing =>
    if !choice.succeeds then finishUpload task hash w
    else
      match existing with
      | some existing => goOn (.verifying existing) w
      | none => goOn .movingTemp w
  | .verifying existing =>
    if w.verifyFileLength finalPath existing.byteLength then goOn (.removingTemp (some existing)) w
    else finishUpload task hash w
  | .movingTemp =>
    if choice.succeeds then goOn (.placed none) (w.writeFile finalPath content) else goOn .accessing w
  | .accessing => if (w.files finalPath).isSome then goOn .verifyingFound w else finishUpload task hash w
  | .verifyingFound =>
    if w.verifyFileLength finalPath content.length then goOn (.removingTemp none) w else finishUpload task hash w
  | .removingTemp existing => if choice.succeeds then goOn (.placed existing) w else finishUpload task hash w
  | .placed existing => publish sha256 task uploadId content existing choice w

/-! ### Deleting -/

/-- `deleteAttachment`, up to the lock of the hash. -/
def startDelete (task id : ℕ) (w : World) : World :=
  match w.store.getAttachment id with
  | none => w
  | some existing =>
    match w.store.getBlob existing.blobId with
    | none => w
    | some indexedBlob => w.setTask task (.deleteAttachment indexedBlob.sha256 (.waitingHash id))

/-- A section of `deleteAttachment`. -/
def advanceDelete (task : ℕ) (hash : String) (pc : DeletePc) (choice : Choice) (w : World) : World :=
  match pc with
  | .waitingHash id =>
    if w.hashLocks hash ≠ none then w
    else
      match w.store.deleteUnreferencedAttachment id with
      | .error _ => w.endTask task
      | .ok (store, none) => (w.withStore store).endTask task
      | .ok (store, some blob) =>
        if store.hasBlobReferences blob.id then (w.withStore store).endTask task
        else ((w.withStore store).lockHash hash task).setTask task (.deleteAttachment hash (.removing blob))
  | .removing blob =>
    if choice.succeeds then
      (w.removeFile blob.storageKey).setTask task (.deleteAttachment hash (.removed blob))
    else (w.releaseHash hash).endTask task
  | .removed blob => ((w.withStore (w.store.deleteBlobRecord blob.id)).releaseHash hash).endTask task

/-! ### Collecting garbage -/

/-- The attachments whose messages are inconsistent are marked. -/
def markIssues (issues : List ℕ) (store : Store) : Store :=
  issues.foldl (fun store id ↦ store.markAttachmentCorrupt id) store

/-- The attachments that are due are deleted. -/
def deleteDue (now : ℕ) (store : Store) : Store :=
  (store.listDueAttachments now 50).foldl
    (fun store attachment ↦ (store.markAttachmentDeleting attachment.id).deleteDeletingAttachment attachment.id) store

/-- A collection that has been aborted stops but while it removes a file. -/
def GcPc.stops : GcPc → Bool
  | .removing .. | .removed .. | .removingOrphan .. => false
  | _ => true

/-- A section of `collectGarbage`. -/
def advanceGarbage (task : ℕ) (pc : GcPc) (choice : Choice) (w : World) : World :=
  let goOn (pc : GcPc) (w : World) : World := w.setTask task (.collectGarbage pc)
  if choice.aborted && pc.stops then w.endTask task
  else
    match pc with
    | .temporary =>
      let store := w.store.deleteExpiredUploads choice.now
      goOn (.repairing (store.listAttachmentsForRepair choice.cursor 200)) (w.withStore store)
    | .repairing [] =>
      let store := deleteDue choice.now (markIssues choice.issues w.store)
      goOn (.unreferenced (store.listUnreferencedBlobs 50)) (w.withStore store)
    | .repairing (attachment :: batch) =>
      if attachment.state = .deleting then
        goOn (.repairing batch) (w.withStore (w.store.deleteDeletingAttachment attachment.id))
      else
        match w.store.getBlob attachment.blobId with
        | none => goOn (.repairing batch) (w.withStore (w.store.markAttachmentCorrupt attachment.id))
        | some blob =>
          if blob.state ≠ .available then
            goOn (.repairing batch) (w.withStore (w.store.markAttachmentCorrupt attachment.id))
          else goOn (.verifying blob batch) w
    | .verifying blob batch => goOn (.verified blob (w.verifyFileLength blob.storageKey blob.byteLength) batch) w
    | .verified blob intact batch =>
      if intact then goOn (.repairing batch) w
      else goOn (.repairing batch) (w.withStore (w.store.markBlobAndAttachmentsCorrupt blob.id))
    | .unreferenced [] => goOn (.orphans choice.paths) w
    | .unreferenced (blob :: blobs) => goOn (.waitingHash blob blobs) w
    | .waitingHash blob blobs =>
      if w.hashLocks blob.sha256 ≠ none then w
      else if w.store.hasBlobReferences blob.id then goOn (.unreferenced blobs) w
      else goOn (.removing blob blobs)
        ((w.withStore (w.store.markBlobState blob.id .deleting)).lockHash blob.sha256 task)
    | .removing blob blobs =>
      if choice.succeeds then goOn (.removed blob blobs) (w.removeFile blob.storageKey)
      else goOn (.unreferenced blobs) (w.releaseHash blob.sha256)
    | .removed blob blobs =>
      goOn (.unreferenced blobs) ((w.withStore (w.store.deleteBlobRecord blob.id)).releaseHash blob.sha256)
    | .orphans [] => w.endTask task
    | .orphans (path :: paths) =>
      if w.store.hasBlobStorageKey path then goOn (.orphans paths) w else goOn (.statting path paths) w
    | .statting path paths =>
      if (w.files path).isSome ∧ choice.old then goOn (.removingOrphan path paths) w else goOn (.orphans paths) w
    | .removingOrphan path paths =>
      if choice.succeeds then goOn (.orphans paths) (w.removeFile path) else goOn (.orphans paths) w

/-! ### Events -/

/-- The references of messages change: what is added is kept, and what has lost its last reference is due. -/
def saveMessage (change : MessageChange) (w : World) : World :=
  let dropped := w.store.messageAttachments.filter fun reference ↦ reference.partId ∈ change.removed
  let references :=
    (w.store.messageAttachments.filter fun reference ↦ reference.partId ∉ change.removed) ++ change.added
  let gcAfter (attachment : RuntimeAttachment) : Option ℕ :=
    if references.any fun reference ↦ reference.attachmentId = attachment.id then
      if change.added.any fun reference ↦ reference.attachmentId = attachment.id then none else attachment.gcAfter
    else if dropped.any fun reference ↦ reference.attachmentId = attachment.id then some change.gcAfter
    else attachment.gcAfter
  w.withStore
    { w.store with
      messageAttachments := references
      attachments := w.store.attachments.map fun attachment ↦ { attachment with gcAfter := gcAfter attachment } }

/-- A section of a task. -/
def advance (task : ℕ) (choice : Choice) (w : World) : World :=
  match w.tasks task with
  | none => w
  | some (.upload uploadId content pc) => advanceUpload sha256 task uploadId content pc choice w
  | some (.deleteAttachment hash pc) => advanceDelete task hash pc choice w
  | some (.collectGarbage pc) => advanceGarbage task pc choice w

/-- **The effect of an event.** A task gets a number that no other one has. -/
def step : Event → World → World
  | .createUpload upload, w => w.withStore { w.store with uploads := w.store.uploads ++ [upload] }
  | .upload task uploadId content, w =>
    if w.tasks task = none then w.setTask task (.upload uploadId content .waitingHash) else w
  | .deleteUpload uploadId, w => w.withStore (w.store.deleteUpload uploadId)
  | .deleteAttachment task id, w => if w.tasks task = none then startDelete task id w else w
  | .collectGarbage task, w => if w.tasks task = none then w.setTask task (.collectGarbage .temporary) else w
  | .message change, w => saveMessage change w
  | .advance task choice, w => advance sha256 task choice w

end Sections

end Attachments
