import Mathlib.Algebra.Ring.Int.Defs
import NexusPilot.Drivers.Error
import NexusPilot.Sync.Records
import NexusPilot.Text.Std

/-!
# What a device shares of a row

The projection of a row is what is uploaded: all of it but the paths of local files, which each device keeps for
itself. `sanitizePayload` takes the paths out at every depth of the payload, and `mergeLocalPaths` puts the
device's own back when the projection of another device is stored. The text of a projection has its keys sorted,
and its hash decides whether two devices have the same content.
-/

open Drivers (bind_eq_ok_iff)

namespace Json

/-- `Map::get`. -/
def find (entries : List (String × Json)) (key : String) : Option Json :=
  (entries.find? (·.1 = key)).map (·.2)

/-- `Value::get`. -/
def get (value : Json) (key : String) : Option Json :=
  match value with
  | .obj entries => find entries key
  | _ => none

/-- `Value::as_str`. -/
def asStr : Json → Option String
  | .str text => some text
  | _ => none

/-- `Value::as_bool`. -/
def asBool : Json → Option Bool
  | .bool value => some value
  | _ => none

/-- `Value::is_object`. -/
def isObject : Json → Bool
  | .obj _ => true
  | _ => false

/-- `Map::insert`, into the sorted entries of a map. -/
def insertKey (key : String) (value : Json) : List (String × Json) → List (String × Json)
  | [] => [(key, value)]
  | entry :: entries =>
    if key < entry.1 then (key, value) :: entry :: entries
    else if key = entry.1 then (key, value) :: entries
    else entry :: insertKey key value entries

mutual

/-- A function of the numbers, at every depth. -/
def mapNumbers (f : String → String) : Json → Json
  | .num text => .num (f text)
  | .arr items => .arr (mapNumbersItems f items)
  | .obj entries => .obj (mapNumbersEntries f entries)
  | value => value

def mapNumbersItems (f : String → String) : List Json → List Json
  | [] => []
  | item :: items => mapNumbers f item :: mapNumbersItems f items

def mapNumbersEntries (f : String → String) : List (String × Json) → List (String × Json)
  | [] => []
  | (key, value) :: entries => (key, mapNumbers f value) :: mapNumbersEntries f entries

end

end Json

namespace Sync

/-! ### Local files -/

/-- The fields that hold paths of this device. -/
def isPathKey (key : String) : Bool :=
  key = "dbFilePath" ∨ key = "privateKeyPath"

mutual

/-- `sanitize_payload`. -/
def sanitizePayload : Json → Json
  | .obj entries => .obj (sanitizeEntries entries)
  | .arr items => .arr (sanitizeItems items)
  | value => value

def sanitizeItems : List Json → List Json
  | [] => []
  | item :: items => sanitizePayload item :: sanitizeItems items

def sanitizeEntries : List (String × Json) → List (String × Json)
  | [] => []
  | (key, value) :: entries =>
    if isPathKey key then sanitizeEntries entries
    else (key, sanitizePayload value) :: sanitizeEntries entries

end

/-- `collect_local_dependencies`. -/
def collectLocalDependencies (driver : ConnectionDriver) (payload : Json) : List LocalDependencyKind :=
  let databaseFile :=
    match driver with
    | .sqlite => true
    | .chroma => (payload.get "mode").bind Json.asStr = some "local"
    | _ => false
  let sshTunnel := (payload.get "sshTunnel").filter Json.isObject
  let sshPrivateKey :=
    decide ((sshTunnel.bind (·.get "enabled")).bind Json.asBool = some true) &&
      decide ((sshTunnel.bind (·.get "authMethod")).bind Json.asStr = some "private-key")
  (if databaseFile then [.databaseFile] else []) ++ if sshPrivateKey then [.sshPrivateKey] else []

/-- The local value under a key, put into the entries of a projection that may have it. -/
def insertPath (localEntries : List (String × Json)) (key : String) (allowed : Bool)
    (entries : List (String × Json)) : List (String × Json) :=
  match allowed, Json.find localEntries key with
  | true, some value => Json.insertKey key value entries
  | _, _ => entries

/-- The local paths that a projection asks for, put into its entries. -/
def insertPaths (dependencies : List LocalDependencyKind) (localEntries : List (String × Json))
    (entries : List (String × Json)) : List (String × Json) :=
  insertPath localEntries "privateKeyPath" (LocalDependencyKind.sshPrivateKey ∈ dependencies)
    (insertPath localEntries "dbFilePath" (LocalDependencyKind.databaseFile ∈ dependencies) entries)

mutual

/-- `merge_local_paths`. -/
def mergeLocalPaths (dependencies : List LocalDependencyKind) : Json → Option Json → Json
  | .obj remote, some (.obj localEntries) =>
    .obj (insertPaths dependencies localEntries (mergeEntries dependencies localEntries remote))
  | remote, _ => remote

def mergeEntries (dependencies : List LocalDependencyKind) (localEntries : List (String × Json)) :
    List (String × Json) → List (String × Json)
  | [] => []
  | (key, value) :: entries =>
    (key, mergeLocalPaths dependencies value (Json.find localEntries key)) ::
      mergeEntries dependencies localEntries entries

end

/-- `non_empty_string_at`. -/
def nonEmptyStringAt (value : Json) (path : List String) : Bool :=
  match (path.foldl (fun value key ↦ value.bind (·.get key)) (some value)).bind Json.asStr with
  | some text => Text.trim text.toList ≠ []
  | none => false

/-- `dependency_is_present`. -/
def dependencyIsPresent (payload : Json) : LocalDependencyKind → Bool
  | .databaseFile =>
    nonEmptyStringAt payload ["dbFilePath"] || nonEmptyStringAt payload ["localConfig", "dbFilePath"]
  | .sshPrivateKey => nonEmptyStringAt payload ["sshTunnel", "privateKeyPath"]

/-! ### The projection of a row -/

def syncSchemaVersion : Nat := 1

/-- The projection of `connection_projection`. -/
def connectionProjection (row : ConnectionRow) : ConnectionProjection where
  schemaVersion := syncSchemaVersion
  assetType := .connection
  id := row.id
  name := row.name
  driver := row.driver.asStr
  environment := row.environment
  color := row.color
  note := row.note
  tagLabel := row.tagLabel
  tagColor := row.tagColor
  folderId := row.folderId
  sortOrder := row.sortOrder
  payload := sanitizePayload row.payload
  localDependencies := collectLocalDependencies row.driver row.payload

/-- The projection of `folder_projection`. -/
def folderProjection (row : FolderRow) : FolderProjection where
  schemaVersion := syncSchemaVersion
  assetType := .connectionFolder
  id := row.id
  name := row.name
  parentId := row.parentId
  sortOrder := row.sortOrder

def AssetType.asStr : AssetType → String
  | .connection => "connection"
  | .connectionFolder => "connection_folder"

def LocalDependencyKind.asStr : LocalDependencyKind → String
  | .databaseFile => "database_file"
  | .sshPrivateKey => "ssh_private_key"

/-- An optional text, as it is serialized. -/
def optionalStr : Option String → Json
  | some text => .str text
  | none => .null

def optionalInt : Option Int → Json
  | some value => .num (toString value)
  | none => .null

/-- `serde_json::to_value` of a projection. -/
def ConnectionProjection.toJson (p : ConnectionProjection) : Json :=
  .obj [("schemaVersion", .num (toString p.schemaVersion)), ("assetType", .str p.assetType.asStr),
    ("id", .str p.id), ("name", .str p.name), ("driver", .str p.driver), ("environment", .str p.environment),
    ("color", optionalStr p.color), ("note", .str p.note), ("tagLabel", .str p.tagLabel),
    ("tagColor", optionalStr p.tagColor), ("folderId", optionalStr p.folderId),
    ("sortOrder", optionalInt p.sortOrder), ("payload", p.payload),
    ("localDependencies", .arr (p.localDependencies.map fun kind ↦ .str kind.asStr))]

def FolderProjection.toJson (p : FolderProjection) : Json :=
  .obj [("schemaVersion", .num (toString p.schemaVersion)), ("assetType", .str p.assetType.asStr),
    ("id", .str p.id), ("name", .str p.name), ("parentId", optionalStr p.parentId),
    ("sortOrder", optionalInt p.sortOrder)]

section Bytes

variable {B : Type} (cfg : Config B)

/-- The bytes of `serialize_with_digest`, with the keys sorted by `canonicalize_json`. -/
def serialize (value : Json) : B :=
  cfg.print (Json.canonicalize compare value)

/-- The bytes of `connection_projection`. -/
def connectionBytes (row : ConnectionRow) : B :=
  serialize cfg (connectionProjection row).toJson

/-- The bytes of `folder_projection`. -/
def folderBytes (row : FolderRow) : B :=
  serialize cfg (folderProjection row).toJson

/-- The hash of the projection of a row. -/
def connectionHash (row : ConnectionRow) : B :=
  cfg.digest (connectionBytes cfg row)

def folderHash (row : FolderRow) : B :=
  cfg.digest (folderBytes cfg row)

/-- What a value reads back as once its text is stored. -/
def stored (value : Json) : Json :=
  value.mapNumbers cfg.number

end Bytes

/-! ### Notes -/

/-- `is_connection_note_boundary_whitespace`. -/
def isNoteBoundaryWhitespace (c : Char) : Bool :=
  Text.isWhitespace c || c.toNat == 0xFEFF

def connectionNoteMaxChars : Nat := 50

/-- `normalize_connection_note`. -/
def normalizeConnectionNote (value : String) : SyncResult String :=
  let trimmed :=
    ((value.toList.dropWhile isNoteBoundaryWhitespace).reverse.dropWhile isNoteBoundaryWhitespace).reverse
  if trimmed.length > connectionNoteMaxChars then
    .error (.validation ("Connection note must be at most " ++ toString connectionNoteMaxChars ++ " characters"))
  else .ok (String.ofList trimmed)

/-! ### Stored rows -/

/-- An `i64` of the source, where there is one. -/
def IsI64 (value : Option Int) : Prop :=
  ∀ n, value = some n → -2 ^ 63 ≤ n ∧ n < 2 ^ 63

/-- A row that a repository has stored: its note is trimmed. -/
structure ConnectionRow.Stored (row : ConnectionRow) : Prop where
  hnote : normalizeConnectionNote row.note = .ok row.note
  hsort : IsI64 row.sortOrder

/-- A folder that a repository has stored. -/
def FolderRow.Stored (row : FolderRow) : Prop :=
  IsI64 row.sortOrder

end Sync
