import NexusPilot.Machine.Lists
import NexusPilot.Sync.Projection

/-!
# Applying a change from the server

`applyChange` decides what becomes of one change: it is ignored where its revision is known, applied where nothing
local stands against it, and else kept as a conflict together with the local version. All of it happens in the
transaction of a pull, so a change that fails leaves no trace.
-/

namespace Sync

open Machine

variable {B : Type}

/-- What a transaction draws: an identifier for a conflict and a nonce, for each asset. -/
structure Supply (B : Type) where
  conflictId : String → String
  nonce : String → B

/-- The counters of `SyncApplySummary`, for one change. -/
inductive Outcome
  | applied | deleted | conflicted | ignored
  deriving DecidableEq

/-! ### What is there -/

/-- Folders and connections below a folder. -/
def hasChildFolders (db : Db B) (id : String) : Bool :=
  db.folders.entries.any fun entry ↦ entry.2.parentId = some id

def hasChildConnections (db : Db B) (id : String) : Bool :=
  db.connections.entries.any fun entry ↦ entry.2.folderId = some id

/-- `folder_has_children`. -/
def folderHasChildren (db : Db B) (id : String) : Bool :=
  hasChildConnections db id || hasChildFolders db id

/-- An operation that waits, or that met a conflict. -/
def OperationRow.open (operation : OperationRow B) : Bool :=
  operation.status = .pending ∨ operation.status = .unknown ∨ operation.status = .conflicted

/-- The order of `load_pending_operation`. -/
def laterOperation (left right : OperationRow B) : Bool :=
  right.createdAt < left.createdAt ∨
    (left.createdAt = right.createdAt ∧ right.operationId < left.operationId)

/-- `load_pending_operation`. -/
def loadPendingOperation (db : Db B) (assetId : String) : Option (OperationRow B) :=
  first laterOperation ((db.operations.entries.map (·.2)).filter fun operation ↦
    operation.assetId = assetId ∧ operation.open = true)

/-- `load_local_projection`: the bytes and their hash. -/
def loadLocalProjection (cfg : Config B) (db : Db B) (assetType : AssetType) (assetId : String) :
    SyncResult (B × B) :=
  match assetType with
  | .connection =>
    match db.connections.lookup assetId with
    | some row => .ok (connectionBytes cfg row, connectionHash cfg row)
    | none => .error (.notFound "Local conflict connection is missing")
  | .connectionFolder =>
    match db.folders.lookup assetId with
    | some row => .ok (folderBytes cfg row, folderHash cfg row)
    | none => .error (.notFound "Local conflict folder is missing")

/-- `local_entity_exists`. -/
def localEntityExists (db : Db B) (assetType : AssetType) (assetId : String) : Bool :=
  match assetType with
  | .connection => (db.connections.lookup assetId).isSome
  | .connectionFolder => (db.folders.lookup assetId).isSome

/-- `local_fact_changed`. -/
def localFactChanged [DecidableEq B] (cfg : Config B) (db : Db B) (metadata : Option (AssetRow B))
    (change : Change B) : SyncResult Bool :=
  match metadata with
  | none => .ok false
  | some metadata =>
    if metadata.syncStatus ≠ .synced then .ok false
    else
      match metadata.localPayloadHash with
      | none => .ok false
      | some expectedHash =>
        match loadLocalProjection cfg db change.assetType change.id with
        | .ok found => .ok (found.2 ≠ expectedHash)
        | .error (.notFound message) =>
          if change.tombstone then .ok false else .error (.notFound message)
        | .error error => .error error

/-- `operation_matches_remote`. -/
def operationMatchesRemote [DecidableEq B] (operation : OperationRow B) (change : Change B) : Bool :=
  decide (operation.expectedRevision.getD 0 + 1 = change.revision) &&
    match operation.action with
    | .put => !change.tombstone && decide (operation.payloadHash = change.payloadHash)
    | .delete => change.tombstone

/-! ### Storing a projection -/

/-- `ensure_parent_folder_exists`. -/
def ensureParentFolderExists (db : Db B) : Option String → SyncResult Unit
  | none => .ok ()
  | some folderId =>
    if (db.folders.lookup folderId).isSome then .ok ()
    else .error (.validation "Cloud sync projection references a missing parent folder")

/-- `upsert_folder`. -/
def upsertFolder (db : Db B) (projection : FolderProjection) : Db B :=
  { db with
    folders := db.folders.insert projection.id
      ⟨projection.id, projection.name, projection.parentId, projection.sortOrder⟩ }

/-- `upsert_connection`. -/
def upsertConnection (cfg : Config B) (db : Db B) (projection : ConnectionProjection) (payload : Json) :
    SyncResult (Db B) := do
  let driver ← ConnectionDriver.fromStr projection.driver
  let note ← normalizeConnectionNote projection.note
  .ok { db with
    connections := db.connections.insert projection.id
      { id := projection.id
        name := projection.name
        driver
        environment := projection.environment
        color := projection.color
        note
        tagLabel := projection.tagLabel
        tagColor := projection.tagColor
        payload := stored cfg payload
        folderId := projection.folderId
        sortOrder := projection.sortOrder } }

/-- `upsert_metadata`. -/
def upsertMetadata (db : Db B) (change : Change B) (status : AssetStatus) (payloadHash : Option B) : Db B :=
  { db with
    assets := db.assets.insert change.id
      { assetType := change.assetType
        localEntityId := ((db.assets.lookup change.id).map (·.localEntityId)).getD change.id
        remoteRevision := some change.revision
        baseRevision := some change.revision
        syncStatus := status
        pendingOperationId := none
        tombstone := change.tombstone
        conflictOf := (db.assets.lookup change.id).bind (·.conflictOf)
        localPayloadHash := payloadHash } }

/-- The deletion of `apply_remote_projection`; a folder that has children is kept by its foreign keys. -/
def deleteLocal (db : Db B) (assetType : AssetType) (assetId : String) : SyncResult (Db B) :=
  match assetType with
  | .connection => .ok { db with connections := db.connections.erase assetId }
  | .connectionFolder =>
    if (db.folders.lookup assetId).isSome ∧ folderHasChildren db assetId then .error .database
    else .ok { db with folders := db.folders.erase assetId }

/-- The payload that `apply_remote_projection` stores. -/
def mergedPayload (db : Db B) (projection : ConnectionProjection) : Json :=
  mergeLocalPaths projection.localDependencies projection.payload
    ((db.connections.lookup projection.id).map (·.payload))

/-- `apply_remote_projection`. -/
def applyRemoteProjection (cfg : Config B) (db : Db B) (change : Change B) : SyncResult (Db B) :=
  if change.tombstone then do
    let db ← deleteLocal db change.assetType change.id
    .ok (upsertMetadata db change .remoteDeleted none)
  else
    match change.projection with
    | none => .error (.validation "Active Cloud asset is missing its projection")
    | some (.connectionFolder folder) => do
      ensureParentFolderExists db folder.parentId
      .ok (upsertMetadata (upsertFolder db folder) change .synced change.payloadHash)
    | some (.connection connection) => do
      ensureParentFolderExists db connection.folderId
      let payload := mergedPayload db connection
      let status : AssetStatus :=
        if connection.localDependencies.any fun kind ↦ !dependencyIsPresent payload kind then .needsLocalFile
        else .synced
      let db ← upsertConnection cfg db connection payload
      .ok (upsertMetadata db change status change.payloadHash)

/-! ### Keeping a conflict -/

/-- `LocalCandidate`. -/
structure LocalCandidate (B : Type) where
  action : OperationAction
  revision : Option Nat
  schemaVersion : Option Nat
  keyGeneration : Option Nat
  nonce : B
  ciphertext : B
  payloadHash : B
  operationId : Option String
  deriving DecidableEq

/-- The pending conflicts of an asset, the latest revision first. -/
def pendingConflicts (db : Db B) (assetId : String) : List (ConflictRow B) :=
  (db.conflicts.entries.map (·.2)).filter fun conflict ↦
    conflict.assetId = assetId ∧ conflict.status = .pending

/-- `load_existing_conflict_candidate`. -/
def loadExistingConflictCandidate (db : Db B) (assetId : String) : Option (LocalCandidate B) :=
  (first (fun left right : ConflictRow B ↦ decide (right.remoteRevision < left.remoteRevision))
    (pendingConflicts db assetId)).map fun conflict ↦
      { action := conflict.localAction
        revision := conflict.localRevision
        schemaVersion := conflict.localSchemaVersion
        keyGeneration := conflict.localKeyGeneration
        nonce := conflict.localNonce
        ciphertext := conflict.localCiphertext
        payloadHash := conflict.localPayloadHash
        operationId := conflict.pendingOperationId }

/-- `build_local_candidate`. -/
def buildLocalCandidate (cfg : Config B) (supply : Supply B) (db : Db B) (change : Change B)
    (operation : Option (OperationRow B)) : SyncResult (LocalCandidate B) :=
  match operation with
  | some operation =>
    .ok { action := operation.action
          -- `checked_add` on an `i64`
          revision := some (operation.expectedRevision.getD 0 + 1) |>.filter (· < 2 ^ 63)
          schemaVersion := operation.schemaVersion
          keyGeneration := operation.keyGeneration
          nonce := operation.nonce.getD cfg.empty
          ciphertext := operation.ciphertext.getD cfg.empty
          payloadHash := operation.payloadHash.getD cfg.emptyPayloadHash
          operationId := some operation.operationId }
  | none =>
    match loadExistingConflictCandidate db change.id with
    | some candidate => .ok candidate
    | none => do
      let found ← loadLocalProjection cfg db change.assetType change.id
      let localRevision := change.revision + 1
      match cfg.encrypt ⟨cfg.accountId, change.id, change.assetType, localRevision, syncSchemaVersion,
          cfg.keyGeneration⟩ (supply.nonce change.id) found.1 with
      | none => .error (.validation "Failed to preserve the local conflict candidate")
      | some encrypted =>
        .ok { action := .put
              revision := some localRevision
              schemaVersion := some syncSchemaVersion
              keyGeneration := some cfg.keyGeneration
              nonce := encrypted.nonce
              ciphertext := encrypted.ciphertext
              payloadHash := found.2
              operationId := none }

/-- The conflict that `persist_conflict` inserts. -/
def newConflict (cfg : Config B) (id : String) (change : Change B) (baseRevision : Option Nat)
    (candidate : LocalCandidate B) : ConflictRow B where
  id
  assetId := change.id
  assetType := change.assetType
  baseRevision
  remoteRevision := change.revision
  localCiphertext := candidate.ciphertext
  remoteCiphertext := (change.encryption.map (·.ciphertext)).getD cfg.empty
  localNonce := candidate.nonce
  remoteNonce := (change.encryption.map (·.nonce)).getD cfg.empty
  localPayloadHash := candidate.payloadHash
  remotePayloadHash := change.payloadHash.getD cfg.emptyPayloadHash
  localAction := candidate.action
  localRevision := candidate.revision
  localSchemaVersion := candidate.schemaVersion
  localKeyGeneration := candidate.keyGeneration
  remoteSchemaVersion := change.schemaVersion
  remoteKeyGeneration := change.keyGeneration
  remoteTombstone := change.tombstone
  pendingOperationId := candidate.operationId
  status := .pending

/-- The insertion of a conflict: a pending one of the asset at the same revision is written over, and keeps
its identifier, its type and its base. -/
def insertConflict (db : Db B) (conflict : ConflictRow B) : SyncResult (Db B) :=
  match (pendingConflicts db conflict.assetId).find? (·.remoteRevision = conflict.remoteRevision) with
  | some existing =>
    .ok { db with
      conflicts := db.conflicts.insert existing.id
        { conflict with
          id := existing.id, assetType := existing.assetType, baseRevision := existing.baseRevision } }
  | none =>
    if (db.conflicts.lookup conflict.id).isSome then .error .database
    else .ok { db with conflicts := db.conflicts.insert conflict.id conflict }

/-- The status of an operation. -/
def setOperationStatus (db : Db B) (operationId : String) (status : OperationStatus) : Db B :=
  match db.operations.lookup operationId with
  | none => db
  | some operation => { db with operations := db.operations.insert operationId { operation with status } }

/-- The asset's row after `persist_conflict`. -/
def markConflicted (db : Db B) (change : Change B) (candidate : LocalCandidate B) : Db B :=
  { db with
    assets := db.assets.insert change.id
      (match db.assets.lookup change.id with
      | some row =>
        { row with
          remoteRevision := some change.revision
          syncStatus := .conflicted
          pendingOperationId := candidate.operationId
          tombstone := false
          localPayloadHash := some candidate.payloadHash }
      | none =>
        { assetType := change.assetType
          localEntityId := change.id
          remoteRevision := some change.revision
          baseRevision := none
          syncStatus := .conflicted
          pendingOperationId := candidate.operationId
          tombstone := false
          conflictOf := none
          localPayloadHash := some candidate.payloadHash }) }

/-- `persist_conflict`. -/
def persistConflict (cfg : Config B) (supply : Supply B) (db : Db B) (change : Change B)
    (operation : Option (OperationRow B)) : SyncResult (Db B) := do
  let candidate ← buildLocalCandidate cfg supply db change operation
  let _ ← toI64 (candidate.revision.getD 0) "local revision"
  let baseRevision := (db.assets.lookup change.id).bind (·.baseRevision)
  let db ← insertConflict db
    (newConflict cfg (supply.conflictId change.id) change baseRevision candidate)
  let db := markConflicted db change candidate
  match candidate.operationId with
  | some operationId => .ok (setOperationStatus db operationId .conflicted)
  | none => .ok db

/-! ### One change -/

/-- The statuses that make a newer revision a conflict. -/
def statusRequiresConflict (status : AssetStatus) : Bool :=
  status = .localOnly ∨ status = .pendingUpload ∨ status = .pendingDelete ∨ status = .conflicted

/-- What counts an applied change. -/
def appliedOutcome (change : Change B) : Outcome :=
  if change.tombstone then .deleted else .applied

/-- Whether the local state stands against a change, where no operation matches it. -/
def standsAgainst [DecidableEq B] (db : Db B) (metadata : Option (AssetRow B))
    (operation : Option (OperationRow B)) (factChanged : Bool) (change : Change B) : Bool :=
  operation.isSome || (metadata.map (·.syncStatus)).any statusRequiresConflict || factChanged ||
    (metadata.isNone && localEntityExists db change.assetType change.id) ||
    (change.tombstone && decide (change.assetType = .connectionFolder) && folderHasChildren db change.id)

/-- The rest of `apply_change`, for a change that no operation matches. -/
def applyUnmatched [DecidableEq B] (cfg : Config B) (supply : Supply B) (db : Db B) (change : Change B)
    (operation : Option (OperationRow B)) : SyncResult (Outcome × Db B) := do
  let metadata := db.assets.lookup change.id
  let factChanged ← localFactChanged cfg db metadata change
  if standsAgainst db metadata operation factChanged change then
    let db ← persistConflict cfg supply db change operation
    .ok (.conflicted, db)
  else
    let db ← applyRemoteProjection cfg db change
    .ok (appliedOutcome change, db)

/-- `apply_change`. -/
def applyChange [DecidableEq B] (cfg : Config B) (supply : Supply B) (db : Db B) (change : Change B) :
    SyncResult (Outcome × Db B) :=
  if ((db.assets.lookup change.id).bind (·.remoteRevision)).any fun known ↦ change.revision ≤ known then
    .ok (.ignored, db)
  else
    match loadPendingOperation db change.id with
    | some operation =>
      if operationMatchesRemote operation change then do
        let db ← applyRemoteProjection cfg db change
        .ok (appliedOutcome change, setOperationStatus db operation.operationId .applied)
      else if change.revision ≤ operation.expectedRevision.getD 0 then .ok (.ignored, db)
      else applyUnmatched cfg supply db change (some operation)
    | none => applyUnmatched cfg supply db change none

end Sync
