import NexusPilot.Machine.Job
import NexusPilot.Sync.Apply

/-!
# Queuing and sending local changes

`reconcilePresentAsset` compares a local row with what is known of the server and queues an upload where they
differ. It is no transaction: a call that fails leaves the writes before it. A session has the database, which of
its next calls fail, and what is drawn from the system.
-/

namespace Sync

open Machine

variable {B : Type}

/-! ### Sessions -/

structure Session (B : Type) where
  db : Db B
  /-- Which of the next calls fail: to the database, or to the guard of the run. -/
  faults : List Bool := []
  /-- What `Uuid::new_v4` gives next. -/
  ids : List String := []
  /-- The nonces that are drawn next. -/
  nonces : List B := []
  /-- The time at which new rows are created. -/
  now : Nat := 0

/-- Work that is not undone when it fails. -/
abbrev SyncJob (B α : Type) := Job (Session B) SyncError α

namespace Session

/-- The session after one call that may fail. -/
def tick (s : Session B) : Session B :=
  { s with faults := s.faults.tail }

end Session

/-- One call of a repository: it changes nothing where it fails. -/
def call {α : Type} (f : Db B → SyncResult (α × Db B)) : SyncJob B α := ⟨fun s ↦
  if s.faults.headD false then (.error .database, s.tick)
  else
    match f s.db with
    | .ok (a, db) => (.ok a, { s.tick with db })
    | .error error => (.error error, s.tick)⟩

/-- A call that writes. -/
def execute (f : Db B → SyncResult (Db B)) : SyncJob B Unit :=
  call fun db ↦ (f db).map fun db ↦ ((), db)

/-- A question to the guard of the run. -/
def guard : SyncJob B Unit := ⟨fun s ↦
  if s.faults.headD false then (.error (.validation "Cloud sync run was canceled"), s.tick)
  else (.ok (), s.tick)⟩

/-- `Uuid::new_v4`. -/
def newId : SyncJob B String := ⟨fun s ↦
  (.ok (s.ids.headD ""), { s with ids := s.ids.tail })⟩

/-- A nonce. -/
def newNonce (cfg : Config B) : SyncJob B B := ⟨fun s ↦
  (.ok (s.nonces.headD cfg.empty), { s with nonces := s.nonces.tail })⟩

/-- The time. -/
def currentTime : SyncJob B Nat := ⟨fun s ↦ (.ok s.now, s)⟩

/-! ### Operations -/

/-- `to_sql_revision`. -/
def toSqlRevision (value : Nat) : SyncResult Nat :=
  if value < 2 ^ 63 then .ok value
  else .error (.validation "Cloud sync revision exceeds SQLite range")

/-- `to_sql_revision` of a revision that may be missing. -/
def checkRevision : Option Nat → SyncResult Unit
  | none => .ok ()
  | some value => (toSqlRevision value).map fun _ ↦ ()

/-- `operation_matches_input`. -/
def operationMatchesInput [DecidableEq B] (existing input : OperationRow B) : Bool :=
  existing.assetId = input.assetId ∧ existing.assetType = input.assetType ∧ existing.action = input.action ∧
    existing.expectedRevision = input.expectedRevision ∧ existing.schemaVersion = input.schemaVersion ∧
    existing.keyGeneration = input.keyGeneration ∧ existing.nonce = input.nonce ∧
    existing.ciphertext = input.ciphertext ∧ existing.payloadHash = input.payloadHash

namespace CloudSyncRepository

/-- `CloudSyncRepository::enqueue_operation`. -/
def enqueueOperation [DecidableEq B] (db : Db B) (input : OperationRow B) : SyncResult (Db B) :=
  match db.operations.lookup input.operationId with
  | some existing =>
    if operationMatchesInput existing input then .ok db
    else .error (.validation "Cloud sync operation ID was reused with a different request")
  | none => do
    checkRevision input.expectedRevision
    checkRevision input.keyGeneration
    .ok { db with operations := db.operations.insert input.operationId { input with status := .pending } }

/-- `CloudSyncRepository::upsert_asset`. -/
def upsertAsset (db : Db B) (assetId : String) (input : AssetRow B) : SyncResult (Db B) := do
  checkRevision input.remoteRevision
  checkRevision input.baseRevision
  .ok { db with assets := db.assets.insert assetId input }

end CloudSyncRepository

/-- The revision that an upload makes: nothing where it overflows. -/
def nextRevision : Option Nat → Option Nat
  | none => some 1
  | some revision => if revision + 1 < 2 ^ 64 then some (revision + 1) else none

/-- `prepare_connection_upload`. -/
def prepareConnectionUpload (cfg : Config B) (operationId : String) (createdAt : Nat) (nonce : B)
    (assetId : String) (assetType : AssetType) (expectedRevision : Option Nat)
    (schemaVersion keyGeneration : Nat) (plaintext : B) : Option (OperationRow B) := do
  let revision ← nextRevision expectedRevision
  let encryption ← cfg.encrypt ⟨cfg.accountId, assetId, assetType, revision, schemaVersion, keyGeneration⟩
    nonce plaintext
  some
    { operationId
      assetId
      assetType
      action := .put
      expectedRevision
      schemaVersion := some schemaVersion
      keyGeneration := some keyGeneration
      nonce := some encryption.nonce
      ciphertext := some encryption.ciphertext
      payloadHash := some (cfg.digest plaintext)
      status := .pending
      createdAt }

/-! ### Reconciling -/

/-- Nothing is to be uploaded: the content was sent before, or it came from the server. -/
def isUpToDate [DecidableEq B] (metadata : Option (AssetRow B)) (payloadHash : B) : Bool :=
  metadata.any fun row ↦
    decide (row.localPayloadHash = some payloadHash) &&
      decide (row.syncStatus = .synced ∨ row.syncStatus = .needsLocalFile ∨ row.syncStatus = .pendingUpload)

/-- `reconcile_present_asset`. -/
def reconcilePresentAsset [DecidableEq B] (cfg : Config B) (assetType : AssetType) (assetId : String)
    (plaintext payloadHash : B) (metadata : Option (AssetRow B)) (hasPendingOperation : Bool) :
    SyncJob B Unit := do
  guard
  if hasPendingOperation then return ()
  else if isUpToDate metadata payloadHash then return ()
  else if (metadata.map (·.syncStatus)) = some .conflicted then return ()
  else
    let operationId ← newId
    let nonce ← newNonce cfg
    let now ← currentTime
    let remoteRevision := metadata.bind (·.remoteRevision)
    match prepareConnectionUpload cfg operationId now nonce assetId assetType remoteRevision
        syncSchemaVersion cfg.keyGeneration plaintext with
    | none => Job.fail (.validation "Failed to prepare a Cloud upload operation")
    | some operation =>
      execute fun db ↦ CloudSyncRepository.enqueueOperation db operation
      execute fun db ↦ CloudSyncRepository.upsertAsset db assetId
        { assetType
          localEntityId := assetId
          remoteRevision
          baseRevision := metadata.bind (·.baseRevision)
          syncStatus := .pendingUpload
          pendingOperationId := some operationId
          tombstone := false
          conflictOf := metadata.bind (·.conflictOf)
          localPayloadHash := some payloadHash }

/-- The metadata that `reconcile_local_assets` finds under a type and an identifier. -/
def metadataFor (db : Db B) (assetType : AssetType) (assetId : String) : Option (AssetRow B) :=
  (db.assets.lookup assetId).filter fun row ↦ row.assetType = assetType

end Sync
