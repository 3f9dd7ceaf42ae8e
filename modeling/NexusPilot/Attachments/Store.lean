import Mathlib.Algebra.Ring.Nat
import Mathlib.Data.List.Sort

/-!
# The tables of the attachment store

`RuntimeAttachmentSqliteStore`: uploads, blobs, attachments and their references from messages. Every operation
is one transaction. A blob is one content, that attachments share by its hash; the database refuses to delete a
blob that an attachment refers to or an attachment that a message refers to, and deletes the upload of an
attachment with it.

Identifiers are numbers here, and of the columns those are kept that an operation reads.
-/

namespace Attachments

/-- `RuntimeBlob["state"]`. -/
inductive BlobState
  | available
  | deleting
  | corrupt
  deriving DecidableEq

/-- `RuntimeBlob`. -/
structure RuntimeBlob where
  id : ℕ
  sha256 : String
  byteLength : ℕ
  storageKey : String
  state : BlobState
  createdAt : ℕ
  deriving DecidableEq

/-- `RuntimeAttachment["state"]`. -/
inductive AttachmentState
  | ready
  | corrupt
  | deleting
  deriving DecidableEq

/-- `RuntimeAttachment`. -/
structure RuntimeAttachment where
  id : ℕ
  blobId : ℕ
  byteLength : ℕ
  state : AttachmentState
  gcAfter : Option ℕ
  deriving DecidableEq

/-- `RuntimeAttachmentUpload["state"]`. -/
inductive UploadState
  | pending
  | completed
  deriving DecidableEq

/-- `RuntimeAttachmentUpload`. -/
structure RuntimeAttachmentUpload where
  id : ℕ
  declaredByteLength : ℕ
  state : UploadState
  attachmentId : Option ℕ
  expiresAt : ℕ
  deriving DecidableEq

/-- `RuntimeMessageAttachment`. -/
structure RuntimeMessageAttachment where
  partId : ℕ
  attachmentId : ℕ
  deriving DecidableEq

/-- The codes of `RuntimeAttachmentError` that the store answers with. -/
inductive AttachmentErrorCode
  | uploadNotFound
  | attachmentCorrupt
  | attachmentInUse
  deriving DecidableEq

/-- `RuntimeAttachmentSqliteStore`. -/
structure Store where
  uploads : List RuntimeAttachmentUpload
  blobs : List RuntimeBlob
  attachments : List RuntimeAttachment
  messageAttachments : List RuntimeMessageAttachment
  deriving DecidableEq

namespace Store

variable (store : Store)

/-- `getUpload`. -/
def getUpload (id : ℕ) : Option RuntimeAttachmentUpload :=
  store.uploads.find? fun upload ↦ upload.id = id

/-- `deleteUpload`. -/
def deleteUpload (id : ℕ) : Store :=
  { store with uploads := store.uploads.filter fun upload ↦ upload.id ≠ id }

/-- `getAttachment`. -/
def getAttachment (id : ℕ) : Option RuntimeAttachment :=
  store.attachments.find? fun attachment ↦ attachment.id = id

/-- `getBlob`. -/
def getBlob (id : ℕ) : Option RuntimeBlob :=
  store.blobs.find? fun blob ↦ blob.id = id

/-- `getBlobBySha256`. -/
def getBlobBySha256 (sha256 : String) : Option RuntimeBlob :=
  store.blobs.find? fun blob ↦ blob.sha256 = sha256

/-- `totalStoredBlobBytes`. -/
def totalStoredBlobBytes : ℕ :=
  (store.blobs.map (·.byteLength)).sum

/-- `countAttachmentReferences`. -/
def countAttachmentReferences (id : ℕ) : ℕ :=
  store.messageAttachments.countP fun reference ↦ reference.attachmentId = id

/-- `hasBlobReferences`. -/
def hasBlobReferences (id : ℕ) : Bool :=
  store.attachments.any fun attachment ↦ attachment.blobId = id

/-- `hasBlobStorageKey`. -/
def hasBlobStorageKey (storageKey : String) : Bool :=
  store.blobs.any fun blob ↦ blob.storageKey = storageKey

/-- `INSERT INTO runtime_blobs … ON CONFLICT(sha256) DO NOTHING`. -/
def insertBlob (blob : RuntimeBlob) : Store :=
  if store.blobs.any fun other ↦ other.sha256 = blob.sha256 then store
  else { store with blobs := store.blobs ++ [blob] }

/-- `INSERT INTO runtime_attachments`, and the upload that it completes. -/
def insertAttachment (uploadId : ℕ) (attachment : RuntimeAttachment) : Store :=
  { store with
    attachments := store.attachments ++ [attachment]
    uploads := store.uploads.map fun upload ↦
      if upload.id = uploadId ∧ upload.state = .pending then
        { upload with state := .completed, attachmentId := some attachment.id }
      else upload }

/-- `completeUpload`. -/
def completeUpload (uploadId : ℕ) (attachment : RuntimeAttachment) (blob : RuntimeBlob) :
    Except AttachmentErrorCode (Store × RuntimeAttachment) :=
  match store.getUpload uploadId with
  | none => .error .uploadNotFound
  | some upload =>
    match (if upload.state = .completed then upload.attachmentId else none) with
    | some attachmentId =>
      match store.getAttachment attachmentId with
      | none => .error .attachmentCorrupt
      | some existing => .ok (store, existing)
    | none =>
      match (store.insertBlob blob).getBlobBySha256 blob.sha256 with
      | none => .error .attachmentCorrupt
      | some storedBlob =>
        if storedBlob.byteLength ≠ blob.byteLength then .error .attachmentCorrupt
        else
          let stored := { attachment with blobId := storedBlob.id }
          .ok ((store.insertBlob blob).insertAttachment uploadId stored, stored)

/-- `DELETE FROM runtime_attachments`, and the upload with it. -/
def deleteAttachmentRow (id : ℕ) : Store :=
  { store with
    attachments := store.attachments.filter fun attachment ↦ attachment.id ≠ id
    uploads := store.uploads.filter fun upload ↦ upload.attachmentId ≠ some id }

/-- `deleteUnreferencedAttachment`. -/
def deleteUnreferencedAttachment (id : ℕ) : Except AttachmentErrorCode (Store × Option RuntimeBlob) :=
  match store.getAttachment id with
  | none => .ok (store, none)
  | some attachment =>
    if store.countAttachmentReferences id > 0 then .error .attachmentInUse
    else .ok (store.deleteAttachmentRow id, store.getBlob attachment.blobId)

/-- `deleteBlobRecord`, which the database refuses while an attachment refers to the blob. -/
def deleteBlobRecord (id : ℕ) : Store :=
  if store.hasBlobReferences id then store
  else { store with blobs := store.blobs.filter fun blob ↦ blob.id ≠ id }

/-- The attachments with a new state for those that pass a test. -/
def setAttachmentState (p : RuntimeAttachment → Bool) (state : AttachmentState) : Store :=
  { store with
    attachments := store.attachments.map fun attachment ↦
      if p attachment then { attachment with state } else attachment }

/-- `markAttachmentCorrupt`. -/
def markAttachmentCorrupt (id : ℕ) : Store :=
  store.setAttachmentState (fun attachment ↦ attachment.id = id) .corrupt

/-- `markAttachmentDeleting`, which leaves alone an attachment that a message refers to. -/
def markAttachmentDeleting (id : ℕ) : Store :=
  if store.countAttachmentReferences id > 0 then store
  else store.setAttachmentState (fun attachment ↦ attachment.id = id) .deleting

/-- `deleteDeletingAttachment`. -/
def deleteDeletingAttachment (id : ℕ) : Store :=
  if store.countAttachmentReferences id = 0 ∧
      store.attachments.any (fun attachment ↦ attachment.id = id ∧ attachment.state = .deleting) then
    store.deleteAttachmentRow id
  else store

/-- `markBlobState`. -/
def markBlobState (id : ℕ) (state : BlobState) : Store :=
  { store with blobs := store.blobs.map fun blob ↦ if blob.id = id then { blob with state } else blob }

/-- `markBlobAndAttachmentsCorrupt`. -/
def markBlobAndAttachmentsCorrupt (id : ℕ) : Store :=
  (store.markBlobState id .corrupt).setAttachmentState (fun attachment ↦ attachment.blobId = id) .corrupt

/-- `listAttachmentsForRepair`. -/
def listAttachmentsForRepair (afterId limit : ℕ) : List RuntimeAttachment :=
  ((store.attachments.filter fun attachment ↦ afterId < attachment.id).insertionSort (·.id ≤ ·.id)).take limit

/-- `listDueAttachments`. -/
def listDueAttachments (now limit : ℕ) : List RuntimeAttachment :=
  ((store.attachments.filter fun attachment ↦
      attachment.gcAfter.any (· ≤ now) ∧ store.countAttachmentReferences attachment.id = 0).insertionSort
    fun attachment other ↦ attachment.gcAfter.getD 0 ≤ other.gcAfter.getD 0).take limit

/-- `listUnreferencedBlobs`. -/
def listUnreferencedBlobs (limit : ℕ) : List RuntimeBlob :=
  ((store.blobs.filter fun blob ↦ !store.hasBlobReferences blob.id).insertionSort (·.createdAt ≤ ·.createdAt)).take
    limit

/-- `deleteExpiredUploads`, without its limit. -/
def deleteExpiredUploads (now : ℕ) : Store :=
  { store with uploads := store.uploads.filter fun upload ↦ now < upload.expiresAt }

end Store

end Attachments
