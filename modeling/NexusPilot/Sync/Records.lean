import Mathlib.Algebra.Ring.Nat
import NexusPilot.Machine.Table
import NexusPilot.Text.Json

/-!
# The records of asset synchronisation

Connections and folders are assets that devices of one account share through a server, encrypted. A device keeps
its own rows, and for each asset what it knows of the server: the revision it has seen, a status, and the hash of
the content that both sides had last. Uploads wait as operations, and a change from the server that meets a local
one is kept as a conflict until the user decides. A pull is staged page by page and applied at once.

The tables are those of one account; the filters on the account are left out, and so are times that no modelled
function reads. Byte strings (texts of JSON, hashes, nonces, ciphertexts) are of a type `B`. What the code takes
from elsewhere is in `Config`: serde_json, the hash, the cipher under the account's key.
-/

namespace Sync

open Machine

/-! ### Errors -/

/-- `AppError`, as far as the modelled functions return it. -/
inductive SyncError
  | validation (message : String)
  | notFound (message : String)
  | serdeJson
  /-- A statement that fails, or that a constraint of the schema refuses. -/
  | database
  /-- No error: the query goes on for ever. -/
  | diverges
  deriving DecidableEq

/-- `AppResult`. -/
abbrev SyncResult (α : Type) := Except SyncError α

/-! ### Local rows -/

/-- `ConnectionDriver`. -/
inductive ConnectionDriver
  | mysql | postgres | sqlite | oracle | sqlServer | clickhouse
  | redis | mongodb | elasticsearch
  | chroma | milvus | qdrant | pinecone | weaviate
  | neo4j | neptune | arangodb
  deriving DecidableEq

namespace ConnectionDriver

/-- `ConnectionDriver::as_str`. -/
def asStr : ConnectionDriver → String
  | .mysql => "mysql"
  | .postgres => "postgres"
  | .sqlite => "sqlite"
  | .oracle => "oracle"
  | .sqlServer => "sqlserver"
  | .clickhouse => "clickhouse"
  | .redis => "redis"
  | .mongodb => "mongodb"
  | .elasticsearch => "elasticsearch"
  | .chroma => "chroma"
  | .milvus => "milvus"
  | .qdrant => "qdrant"
  | .pinecone => "pinecone"
  | .weaviate => "weaviate"
  | .neo4j => "neo4j"
  | .neptune => "neptune"
  | .arangodb => "arangodb"

def all : List ConnectionDriver :=
  [.mysql, .postgres, .sqlite, .oracle, .sqlServer, .clickhouse, .redis, .mongodb, .elasticsearch, .chroma,
    .milvus, .qdrant, .pinecone, .weaviate, .neo4j, .neptune, .arangodb]

/-- `ConnectionDriver::from_str`. -/
def fromStr (value : String) : SyncResult ConnectionDriver :=
  match all.find? (·.asStr = value) with
  | some driver => .ok driver
  | none => .error (.validation ("Unsupported connection driver: " ++ value))

@[simp]
theorem fromStr_asStr (driver : ConnectionDriver) : fromStr driver.asStr = .ok driver := by
  cases driver <;> decide

end ConnectionDriver

/-- A row of `connections`. The payload is what its text reads back as. -/
structure ConnectionRow where
  id : String
  name : String
  driver : ConnectionDriver
  environment : String
  color : Option String
  note : String
  tagLabel : String
  tagColor : Option String
  payload : Json
  folderId : Option String
  sortOrder : Option Int
  deriving DecidableEq

/-- A row of `connection_folders`. -/
structure FolderRow where
  id : String
  name : String
  parentId : Option String
  sortOrder : Option Int
  deriving DecidableEq

/-! ### What is known of the server -/

/-- `CloudSyncAssetType`. -/
inductive AssetType
  | connection | connectionFolder
  deriving DecidableEq

/-- `CloudSyncAssetStatus`. -/
inductive AssetStatus
  | localOnly | pendingUpload | synced | pendingDelete | conflicted | needsLocalFile | remoteDeleted
  deriving DecidableEq

/-- A row of `cloud_sync_assets`. -/
structure AssetRow (B : Type) where
  assetType : AssetType
  localEntityId : String
  remoteRevision : Option Nat
  baseRevision : Option Nat
  syncStatus : AssetStatus
  pendingOperationId : Option String
  tombstone : Bool
  conflictOf : Option String
  localPayloadHash : Option B
  deriving DecidableEq

/-- `CloudSyncOperationAction`. -/
inductive OperationAction
  | put | delete
  deriving DecidableEq

/-- `CloudSyncOperationStatus`. -/
inductive OperationStatus
  | pending | unknown | applied | conflicted | rejected
  deriving DecidableEq

/-- A row of `cloud_sync_operations`. -/
structure OperationRow (B : Type) where
  operationId : String
  assetId : String
  assetType : AssetType
  action : OperationAction
  expectedRevision : Option Nat
  schemaVersion : Option Nat
  keyGeneration : Option Nat
  nonce : Option B
  ciphertext : Option B
  payloadHash : Option B
  status : OperationStatus
  createdAt : Nat
  deriving DecidableEq

inductive ConflictStatus
  | pending | resolved
  deriving DecidableEq

/-- A row of `cloud_sync_conflicts`. -/
structure ConflictRow (B : Type) where
  id : String
  assetId : String
  assetType : AssetType
  baseRevision : Option Nat
  remoteRevision : Nat
  localCiphertext : B
  remoteCiphertext : B
  localNonce : B
  remoteNonce : B
  localPayloadHash : B
  remotePayloadHash : B
  localAction : OperationAction
  localRevision : Option Nat
  localSchemaVersion : Option Nat
  localKeyGeneration : Option Nat
  remoteSchemaVersion : Nat
  remoteKeyGeneration : Nat
  remoteTombstone : Bool
  pendingOperationId : Option String
  status : ConflictStatus
  deriving DecidableEq

/-! ### Projections and changes -/

/-- `LocalDependencyKind`. -/
inductive LocalDependencyKind
  | databaseFile | sshPrivateKey
  deriving DecidableEq

/-- `ConnectionSyncProjection`. -/
structure ConnectionProjection where
  schemaVersion : Nat
  assetType : AssetType
  id : String
  name : String
  driver : String
  environment : String
  color : Option String
  note : String
  tagLabel : String
  tagColor : Option String
  folderId : Option String
  sortOrder : Option Int
  payload : Json
  localDependencies : List LocalDependencyKind
  deriving DecidableEq

/-- `ConnectionFolderSyncProjection`. -/
structure FolderProjection where
  schemaVersion : Nat
  assetType : AssetType
  id : String
  name : String
  parentId : Option String
  sortOrder : Option Int
  deriving DecidableEq

/-- `DecryptedSyncProjection`. -/
inductive Projection
  | connection (projection : ConnectionProjection)
  | connectionFolder (projection : FolderProjection)
  deriving DecidableEq

/-- The nonce and the ciphertext of `CloudConnectionAssetEncryption`, under its suite. -/
structure Encryption (B : Type) where
  suite : String
  nonce : B
  ciphertext : B
  deriving DecidableEq

/-- `CloudConnectionAssetProjection`, as the server sends it. -/
structure RemoteAsset (B : Type) where
  id : String
  assetType : String
  revision : String
  parentRevision : Option String
  schemaVersion : Nat
  keyGeneration : Nat
  encryption : Option (Encryption B)
  encryptedBytes : Nat
  tombstone : Bool
  changeCursor : String
  updatedByDeviceId : String
  deletedAt : Option String
  deriving DecidableEq

/-- `CloudConnectionAssetChange`. -/
structure RemoteChange (B : Type) where
  changeCursor : String
  asset : RemoteAsset B
  deriving DecidableEq

/-- `ValidatedSyncChange`: its texts are read, and what it carries is decrypted. -/
structure Change (B : Type) where
  changeCursor : Nat
  raw : RemoteChange B
  id : String
  assetType : AssetType
  revision : Nat
  schemaVersion : Nat
  keyGeneration : Nat
  encryption : Option (Encryption B)
  tombstone : Bool
  projection : Option Projection
  payloadHash : Option B
  deriving DecidableEq

/-! ### The database -/

/-- A row of `cloud_sync_pull_staging`. -/
structure StagedRow (B : Type) where
  assetId : String
  revision : Nat
  assetType : AssetType
  tombstone : Bool
  parentId : Option String
  change : RemoteChange B
  deriving DecidableEq

/-- `cloud_sync_pull_batches`. -/
structure Batch where
  requestedCursor : Nat
  nextCursor : Nat
  deriving DecidableEq

structure Db (B : Type) where
  connections : Table String ConnectionRow := ∅
  folders : Table String FolderRow := ∅
  assets : Table String (AssetRow B) := ∅
  operations : Table String (OperationRow B) := ∅
  conflicts : Table String (ConflictRow B) := ∅
  /-- `cloud_sync_cursors`; no row is a cursor of 0. -/
  cursor : Nat := 0
  batch : Option Batch := none
  staging : Table String (StagedRow B) := ∅

/-! ### What is taken from elsewhere -/

/-- What authenticates a ciphertext beside the account's key. -/
structure Aad where
  accountId : String
  assetId : String
  assetType : AssetType
  revision : Nat
  schemaVersion : Nat
  keyGeneration : Nat
  deriving DecidableEq

structure Config (B : Type) where
  accountId : String
  /-- `CommittedSyncKeyBundle::cloud_account_id`. -/
  keyAccountId : String
  /-- `CommittedSyncKeyBundle::key_generation`. -/
  keyGeneration : Nat
  /-- `CONNECTION_ASSET_SUITE`. -/
  suite : String
  /-- The empty byte string. -/
  empty : B
  /-- The text that a number has after its text was read. -/
  number : String → String
  /-- `serde_json::to_vec`. -/
  print : Json → B
  /-- `serde_json::from_slice`, into a projection. -/
  decodeConnection : B → Option ConnectionProjection
  decodeFolder : B → Option FolderProjection
  /-- The base64 text of the SHA-256 hash. -/
  digest : B → B
  /-- The cipher under the account's key. -/
  cipher : Aad → B → B → B
  decipher : Aad → B → B → Option B
  /-- The number of bytes that a base64 text stands for. -/
  decodedLength : B → Option Nat
  /-- `Uuid::parse_str`. -/
  isUuid : String → Bool

variable {B : Type}

/-- `empty_payload_hash`. -/
def Config.emptyPayloadHash (cfg : Config B) : B :=
  cfg.digest cfg.empty

/-- `encrypt_connection_asset`, with the nonce that it draws. -/
def Config.encrypt (cfg : Config B) (aad : Aad) (nonce plaintext : B) : Option (Encryption B) :=
  if aad.revision = 0 ∨ aad.keyGeneration = 0 then none
  else some ⟨cfg.suite, nonce, cfg.cipher aad nonce plaintext⟩

/-- `decrypt_connection_asset`. -/
def Config.decrypt (cfg : Config B) (aad : Aad) (encryption : Encryption B) : Option B :=
  if encryption.suite ≠ cfg.suite ∨ aad.revision = 0 ∨ aad.keyGeneration = 0 then none
  else cfg.decipher aad encryption.nonce encryption.ciphertext

/-- `u64::from_str`. -/
def parseU64 (text : String) : Option Nat :=
  let digits :=
    match text.toList with
    | '+' :: digits => digits
    | digits => digits
  if digits ≠ [] ∧ digits.all Char.isDigit then
    let value := digits.foldl (fun value c ↦ value * 10 + (c.toNat - '0'.toNat)) 0
    if value < 2 ^ 64 then some value else none
  else none

/-- `to_i64`. -/
def toI64 (value : Nat) (field : String) : SyncResult Nat :=
  if value < 2 ^ 63 then .ok value
  else .error (.validation ("Cloud sync " ++ field ++ " exceeds SQLite range"))

end Sync
