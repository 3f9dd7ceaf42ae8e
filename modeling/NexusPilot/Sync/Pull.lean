import Mathlib.Data.List.Sort
import Mathlib.Data.String.Basic
import NexusPilot.Sync.Apply

/-!
# Pulling changes from the server

A page of changes is validated and decrypted, its items are staged one asset a row, and once the last page is there
the whole batch is applied in one transaction, which also moves the cursor. Active folders come first, parents before
their children; then active connections, the tombstones of connections, and the tombstones of folders.

Each of the three steps is a transaction: a step that fails, at whatever point, leaves the database as it was.
-/

namespace Sync

open Machine

variable {B : Type}

/-! ### Validation -/

/-- `SyncPullError`. -/
inductive SyncPullError
  | cursorInvalid
  | protocolViolation
  | invalidAssetId
  | unsupportedAssetType
  | unsupportedSchemaVersion
  | keyGenerationMismatch
  | missingEncryption
  | unexpectedEncryption
  | decryptionFailed
  | invalidProjection
  deriving DecidableEq

/-- A value, or the error of a value that is missing. -/
def orError {ε α : Type} (error : ε) : Option α → Except ε α
  | some value => .ok value
  | none => .error error

/-- `parse_cursor`. -/
def parseCursor (value : String) : Except SyncPullError Nat :=
  orError .cursorInvalid (parseU64 value)

/-- `parse_revision`. -/
def parseRevision (value : String) : Except SyncPullError Nat :=
  orError .protocolViolation ((parseU64 value).filter (0 < ·))

/-- `asset_type_name`. -/
def assetTypeName (value : String) : Except SyncPullError AssetType :=
  if value = "connection" then .ok .connection
  else if value = "connection_folder" then .ok .connectionFolder
  else .error .unsupportedAssetType

/-- `validate_projection_common`. -/
def validateProjectionCommon (schemaVersion : Nat) (assetType : AssetType) (id : String) (asset : RemoteAsset B) :
    Except SyncPullError Unit :=
  if schemaVersion ≠ syncSchemaVersion ∨ id ≠ asset.id then .error .invalidProjection
  else if assetType.asStr ≠ asset.assetType then .error .invalidProjection
  else .ok ()

/-- The parent or the folder that a projection names. -/
def validateParent (cfg : Config B) : Option String → Except SyncPullError Unit
  | none => .ok ()
  | some id => if cfg.isUuid id then .ok () else .error .invalidProjection

/-- A text that is empty once trimmed. -/
def isBlank (text : String) : Bool :=
  Text.trim text.toList = []

/-- The projection that a plaintext holds. -/
def decodeProjection (cfg : Config B) (asset : RemoteAsset B) (plaintext : B) :
    AssetType → Except SyncPullError Projection
  | .connection => do
    let value ← orError .invalidProjection (cfg.decodeConnection plaintext)
    validateProjectionCommon value.schemaVersion value.assetType value.id asset
    let _ ← orError .invalidProjection (ConnectionDriver.fromStr value.driver).toOption
    if isBlank value.name then .error .invalidProjection
    else do
      validateParent cfg value.folderId
      .ok (.connection value)
  | .connectionFolder => do
    let value ← orError .invalidProjection (cfg.decodeFolder plaintext)
    validateProjectionCommon value.schemaVersion value.assetType value.id asset
    if isBlank value.name then .error .invalidProjection
    else do
      validateParent cfg value.parentId
      .ok (.connectionFolder value)

/-- The parent revision of an asset. -/
def validateParentRevision (revision : Nat) : Option String → Except SyncPullError Unit
  | none => .ok ()
  | some text => do
    let parentRevision ← parseRevision text
    if parentRevision ≥ revision then .error .protocolViolation else .ok ()

/-- The lengths that an encrypted asset must have. -/
def validateLengths (cfg : Config B) (asset : RemoteAsset B) (encryption : Encryption B) :
    Except SyncPullError Unit := do
  let nonceLength ← orError .decryptionFailed (cfg.decodedLength encryption.nonce)
  let ciphertextLength ← orError .decryptionFailed (cfg.decodedLength encryption.ciphertext)
  if nonceLength ≠ 24 ∨ ciphertextLength < 16 ∨ asset.encryptedBytes ≠ ciphertextLength then
    .error .protocolViolation
  else if asset.deletedAt.isSome then .error .protocolViolation
  else .ok ()

/-- `validate_and_decrypt_change`. -/
def validateAndDecryptChange (cfg : Config B) (change : RemoteChange B) : Except SyncPullError (Change B) := do
  let changeCursor ← parseCursor change.changeCursor
  let asset := change.asset
  if cfg.isUuid asset.id = false then .error .invalidAssetId
  else if cfg.isUuid asset.updatedByDeviceId = false then .error .protocolViolation
  else do
    let assetType ← assetTypeName asset.assetType
    let revision ← parseRevision asset.revision
    validateParentRevision revision asset.parentRevision
    if asset.schemaVersion ≠ syncSchemaVersion then .error .unsupportedSchemaVersion
    else if asset.keyGeneration ≠ cfg.keyGeneration then .error .keyGenerationMismatch
    else if asset.tombstone then
      if asset.encryption.isSome ∨ asset.encryptedBytes ≠ 0 ∨ asset.deletedAt.isNone then
        .error .unexpectedEncryption
      else
        .ok { changeCursor, raw := change, id := asset.id, assetType, revision
              schemaVersion := asset.schemaVersion, keyGeneration := asset.keyGeneration
              encryption := asset.encryption, tombstone := true, projection := none, payloadHash := none }
    else do
      let encryption ← orError .missingEncryption asset.encryption
      validateLengths cfg asset encryption
      let plaintext ← orError .decryptionFailed (cfg.decrypt
        ⟨cfg.accountId, asset.id, assetType, revision, asset.schemaVersion, asset.keyGeneration⟩ encryption)
      let projection ← decodeProjection cfg asset plaintext assetType
      .ok { changeCursor, raw := change, id := asset.id, assetType, revision
            schemaVersion := asset.schemaVersion, keyGeneration := asset.keyGeneration
            encryption := asset.encryption, tombstone := false, projection := some projection
            payloadHash := some (cfg.digest plaintext) }

/-! ### Pages -/

/-- `CloudConnectionAssetListResponse`. -/
structure ListResponse (B : Type) where
  requested : String
  next : String
  hasMore : Bool
  items : List (RemoteChange B)

/-- `ValidatedSyncPage`. -/
structure Page (B : Type) where
  requestedCursor : Nat
  nextCursor : Nat
  hasMore : Bool
  items : List (Change B)

/-- The loop of `validate_and_decrypt_page`: the items, and the cursor of the last one. -/
def validateItems (cfg : Config B) (nextCursor : Nat) :
    Nat → List (RemoteChange B) → Except SyncPullError (Nat × List (Change B))
  | previous, [] => .ok (previous, [])
  | previous, change :: changes => do
    let changeCursor ← parseCursor change.changeCursor
    if changeCursor ≤ previous ∨ nextCursor < changeCursor then .error .protocolViolation
    else do
      let assetCursor ← parseCursor change.asset.changeCursor
      if assetCursor < changeCursor then .error .protocolViolation
      else do
        let validated ← validateAndDecryptChange cfg change
        let rest ← validateItems cfg nextCursor changeCursor changes
        .ok (rest.1, validated :: rest.2)

/-- `validate_and_decrypt_page`. -/
def validateAndDecryptPage (cfg : Config B) (localCursor : Nat) (response : ListResponse B) :
    Except SyncPullError (Page B) := do
  let requestedCursor ← parseCursor response.requested
  let nextCursor ← parseCursor response.next
  if requestedCursor ≠ localCursor ∨ nextCursor < requestedCursor then .error .cursorInvalid
  else if response.hasMore ∧ nextCursor = requestedCursor then .error .protocolViolation
  else do
    let items ← validateItems cfg nextCursor requestedCursor response.items
    if response.items = [] ∧ nextCursor ≠ requestedCursor then .error .protocolViolation
    else if response.items ≠ [] ∧ nextCursor ≠ items.1 then .error .protocolViolation
    else .ok ⟨requestedCursor, nextCursor, response.hasMore, items.2⟩

/-! ### Staging -/

/-- `begin_staged_pull`: the durable cursor and the one to go on from. -/
def beginStagedPull (db : Db B) : (Nat × Nat) × Db B :=
  let durable := db.cursor
  match db.batch.filter fun batch ↦ batch.requestedCursor = durable ∧ batch.requestedCursor ≤ batch.nextCursor with
  | some batch => ((durable, batch.nextCursor), db)
  | none => ((durable, durable), { db with staging := ∅, batch := some ⟨durable, durable⟩ })

/-- `parent_id`, as it is staged. -/
def stagedParent (change : Change B) : Option String :=
  match change.projection with
  | some (.connectionFolder folder) => folder.parentId
  | some (.connection connection) => connection.folderId
  | none => none

/-- The row of a change. -/
def stagedRow (change : Change B) : StagedRow B where
  assetId := change.id
  revision := change.revision
  assetType := change.assetType
  tombstone := change.tombstone
  parentId := stagedParent change
  change := ⟨toString change.changeCursor, change.raw.asset⟩

/-- A row is written over by one whose revision is not lower. -/
def upsertStaged (staging : Table String (StagedRow B)) (row : StagedRow B) : Table String (StagedRow B) :=
  match staging.lookup row.assetId with
  | some existing => if existing.revision ≤ row.revision then staging.insert row.assetId row else staging
  | none => staging.insert row.assetId row

/-- The items of a page, one after the other. -/
def stageItems : List (Change B) → Table String (StagedRow B) → SyncResult (Table String (StagedRow B))
  | [], staging => .ok staging
  | change :: changes, staging => do
    let _ ← toI64 change.revision "remote revision"
    stageItems changes (upsertStaged staging (stagedRow change))

/-- `stage_validated_page`. -/
def stageValidatedPage (db : Db B) (page : Page B) : SyncResult (Db B) :=
  match db.batch with
  | none => .error .database
  | some batch => do
    let requested ← toI64 page.requestedCursor "requested cursor"
    if batch.nextCursor ≠ requested then .error (.validation "Cloud sync staged cursor changed")
    else do
      let staging ← stageItems page.items db.staging
      let next ← toI64 page.nextCursor "next cursor"
      .ok { db with staging, batch := some { batch with nextCursor := next } }

/-! ### The order of a batch -/

/-- The staged rows, by the identifiers of their assets. -/
def stagedRows (staging : Table String (StagedRow B)) : List (StagedRow B) :=
  (staging.entries.map (·.2)).insertionSort fun left right ↦ left.assetId ≤ right.assetId

/-- An active folder. -/
def StagedRow.isActiveFolder (row : StagedRow B) : Bool :=
  decide (row.assetType = .connectionFolder) && !row.tombstone

/-- `children`: the folders under each staged parent, and those without one. -/
def groupFolders (ids : List String) :
    List (StagedRow B) → Table String (List String) → List String × Table String (List String)
  | [], children => ([], children)
  | folder :: folders, children =>
    match folder.parentId.filter (· ∈ ids) with
    | some parent =>
      groupFolders ids folders (children.insert parent ((children.lookup parent).getD [] ++ [folder.assetId]))
    | none =>
      let grouped := groupFolders ids folders children
      (folder.assetId :: grouped.1, grouped.2)

/-- The loop that puts the children of each folder behind it. A round takes one folder, so that as many rounds as there
are folders are enough. -/
def appendDependents : Nat → List String → Table String (List String) → List String
  | 0, queue, _ => queue
  | _ + 1, [], _ => []
  | fuel + 1, id :: queue, children =>
    match children.lookup id with
    | some dependents => id :: appendDependents fuel (queue ++ dependents) (children.erase id)
    | none => id :: appendDependents fuel queue children

/-- The key that the other rows are sorted by. -/
def StagedRow.rank (row : StagedRow B) : Nat :=
  2 * row.tombstone.toNat + (decide (row.assetType = .connectionFolder)).toNat

/-- The order in which a batch is applied. -/
def stagedOrder (staging : Table String (StagedRow B)) : SyncResult (List String) :=
  let rows := stagedRows staging
  let folders := rows.filter StagedRow.isActiveFolder
  let ids := folders.map (·.assetId)
  let grouped := groupFolders ids folders ∅
  let ordered := appendDependents ids.length grouped.1 grouped.2
  if ordered.length ≠ ids.length then .error (.validation "Cloud sync folders contain a parent cycle")
  else
    let other := (rows.filter (!·.isActiveFolder)).insertionSort fun left right ↦ left.rank ≤ right.rank
    .ok (ordered ++ other.map (·.assetId))

/-! ### Applying a batch -/

/-- `SyncApplySummary`. -/
structure ApplySummary where
  applied : Nat := 0
  deleted : Nat := 0
  conflicted : Nat := 0
  ignored : Nat := 0
  nextCursor : Nat
  deriving DecidableEq

/-- A change that is counted. -/
def ApplySummary.count (summary : ApplySummary) : Outcome → ApplySummary
  | .applied => { summary with applied := summary.applied + 1 }
  | .deleted => { summary with deleted := summary.deleted + 1 }
  | .conflicted => { summary with conflicted := summary.conflicted + 1 }
  | .ignored => { summary with ignored := summary.ignored + 1 }

/-- A question to the guard of the run, the `turn`-th one. -/
def askGuard (guard : Nat → Bool) (turn : Nat) : SyncResult Unit :=
  if guard turn then .ok () else .error (.validation "Cloud sync run was canceled")

/-- What is staged for an asset, read again. -/
def stagedChange (cfg : Config B) (staging : Table String (StagedRow B)) (assetId : String) :
    SyncResult (Change B) :=
  match staging.lookup assetId with
  | none => .error .database
  | some row =>
    match validateAndDecryptChange cfg row.change with
    | .ok change => .ok change
    | .error _ => .error (.validation "Cloud sync staged projection is invalid")

/-- The loop over the assets: what became of each, and the database. -/
def applyOrdered [DecidableEq B] (cfg : Config B) (guard : Nat → Bool) (supply : Supply B) :
    Nat → List String → Db B → SyncResult (List (Change B × Outcome) × Db B)
  | _, [], db => .ok ([], db)
  | turn, assetId :: assetIds, db => do
    askGuard guard turn
    let change ← stagedChange cfg db.staging assetId
    let applied ← applyChange cfg supply db change
    let rest ← applyOrdered cfg guard supply (turn + 1) assetIds applied.2
    .ok ((change, applied.1) :: rest.1, rest.2)

/-- What is counted of a batch. -/
def summarize (nextCursor : Nat) (outcomes : List (Change B × Outcome)) : ApplySummary :=
  outcomes.foldl (fun summary outcome ↦ summary.count outcome.2) { nextCursor }

/-- The transaction of `apply_staged_pull`, with what became of each asset. -/
def applyBatch [DecidableEq B] (cfg : Config B) (guard : Nat → Bool) (supply : Supply B)
    (requestedCursor nextCursor : Nat) (db : Db B) : SyncResult (List (Change B × Outcome) × Db B) :=
  if cfg.accountId ≠ cfg.keyAccountId then
    .error (.validation "Cloud sync account does not match the committed key bundle")
  else if db.cursor ≠ requestedCursor then
    .error (.validation "Cloud sync page no longer starts at the durable cursor")
  else
    match db.batch with
    | none => .error .database
    | some batch => do
      let requested ← toI64 requestedCursor "requested cursor"
      let next ← toI64 nextCursor "next cursor"
      if batch ≠ ⟨requested, next⟩ then .error (.validation "Cloud sync staged cursor changed")
      else do
        let ordered ← stagedOrder db.staging
        let applied ← applyOrdered cfg guard supply 0 ordered db
        askGuard guard ordered.length
        let cursor ← toI64 nextCursor "cursor"
        .ok (applied.1, { applied.2 with cursor, staging := ∅, batch := none })

/-- `apply_staged_pull`. -/
def applyStagedPull [DecidableEq B] (cfg : Config B) (guard : Nat → Bool) (supply : Supply B)
    (requestedCursor nextCursor : Nat) (db : Db B) : SyncResult (ApplySummary × Db B) :=
  (applyBatch cfg guard supply requestedCursor nextCursor db).map fun applied ↦
    (summarize nextCursor applied.1, applied.2)

end Sync
