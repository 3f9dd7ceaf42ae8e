import Std.Data.String.ToInt
import NexusPilot.Sync.Passage

/-!
# A projection that comes back

A device stores the projection of another device's row and later projects its own row. For a folder the second
projection is the first. For a connection it is, exactly when every number of the payload has its text again after
it was written and read twice: serde_json does not read every number as it was written.
-/

namespace Json

variable {isNumber : String → Prop}

/-- The keys that are left when the paths are taken out. -/
theorem keys_sanitizeEntries_sublist (entries : List (String × Json)) :
    ((Sync.sanitizeEntries entries).map (·.1)).Sublist (entries.map (·.1)) := by
  induction entries with
  | nil => exact List.Sublist.refl _
  | cons entry entries ih =>
    rw [Sync.sanitizeEntries]
    split
    · exact ih.cons _
    · exact ih.cons_cons _

mutual

theorem IsValue.sanitizePayload :
    (value : Json) → value.IsValue isNumber → (Sync.sanitizePayload value).IsValue isNumber
  | .null, _ | .bool _, _ | .str _, _ => trivial
  | .num _, h => h
  | .arr items, h => IsValueItems.sanitizeItems items h
  | .obj entries, h => by
    refine ⟨?_, IsValueEntries.sanitizeEntries entries h.2⟩
    have hkeys := (List.pairwise_map.2 h.1).sublist (keys_sanitizeEntries_sublist entries)
    exact List.pairwise_map.1 hkeys

theorem IsValueItems.sanitizeItems :
    (items : List Json) → IsValueItems isNumber items → IsValueItems isNumber (Sync.sanitizeItems items)
  | [], h => h
  | item :: items, h => ⟨IsValue.sanitizePayload item h.1, IsValueItems.sanitizeItems items h.2⟩

theorem IsValueEntries.sanitizeEntries :
    (entries : List (String × Json)) → IsValueEntries isNumber entries →
      IsValueEntries isNumber (Sync.sanitizeEntries entries)
  | [], h => h
  | (key, value) :: entries, h => by
    rw [Sync.sanitizeEntries]
    split
    · exact IsValueEntries.sanitizeEntries entries h.2
    · exact ⟨IsValue.sanitizePayload value h.1, IsValueEntries.sanitizeEntries entries h.2⟩

end

end Json

namespace Sync

open Json Machine

open Drivers (bind_eq_ok_iff)

variable {B : Type} {cfg : Config B} {isNumber : String → Prop}

/-! ### What is taken from serde_json -/

/-- serde_json writes different values as different texts, and reads a projection back from its text, its payload
as `Config.number` reads numbers. -/
structure Serde (cfg : Config B) (isNumber : String → Prop) : Prop where
  isNumber_int : ∀ value : Int, isNumber (toString value)
  isNumber_nat : ∀ value : Nat, isNumber (toString value)
  isNumber_number : ∀ text, isNumber text → isNumber (cfg.number text)
  print_injective : ∀ v w : Json, v.IsValue isNumber → w.IsValue isNumber → cfg.print v = cfg.print w → v = w
  decodeConnection : ∀ row : ConnectionRow, row.payload.IsValue isNumber → IsI64 row.sortOrder →
    cfg.decodeConnection (connectionBytes cfg row) =
      some { connectionProjection row with payload := stored cfg (sanitizePayload row.payload) }
  decodeFolder : ∀ row : FolderRow, IsI64 row.sortOrder →
    cfg.decodeFolder (folderBytes cfg row) = some (folderProjection row)

/-- The entries of a projection's text. -/
def ConnectionProjection.entries (p : ConnectionProjection) : List (String × Json) :=
  [("schemaVersion", .num (toString p.schemaVersion)), ("assetType", .str p.assetType.asStr),
    ("id", .str p.id), ("name", .str p.name), ("driver", .str p.driver), ("environment", .str p.environment),
    ("color", optionalStr p.color), ("note", .str p.note), ("tagLabel", .str p.tagLabel),
    ("tagColor", optionalStr p.tagColor), ("folderId", optionalStr p.folderId),
    ("sortOrder", optionalInt p.sortOrder), ("payload", p.payload),
    ("localDependencies", .arr (p.localDependencies.map fun kind ↦ .str kind.asStr))]

namespace ConnectionProjection

variable {p q : ConnectionProjection}

theorem nodup_keys (p : ConnectionProjection) : (p.entries.map (·.1)).Nodup := by
  simp [entries]

/-- The payload of a text is found under its key alone. -/
theorem eq_of_mem_entries {value : Json} (h : ("payload", value) ∈ p.entries) : value = p.payload := by
  simpa [entries] using h

theorem isValue_optionalStr (text : Option String) : (optionalStr text).IsValue isNumber := by
  cases text <;> trivial

theorem isValue_texts (texts : List String) : IsValueItems isNumber (texts.map .str) := by
  induction texts with
  | nil => trivial
  | cons text texts ih => exact ⟨trivial, ih⟩

theorem isValue_entries (hint : ∀ value : Int, isNumber (toString value))
    (hnat : ∀ value : Nat, isNumber (toString value)) (hpayload : p.payload.IsValue isNumber) :
    ∀ entry ∈ p.entries, entry.2.IsValue isNumber := by
  have hsort : (optionalInt p.sortOrder).IsValue isNumber := by
    cases p.sortOrder with
    | none => trivial
    | some value => exact hint value
  have hkinds : IsValueItems isNumber (p.localDependencies.map fun kind ↦ .str kind.asStr) := by
    have htexts : IsValueItems isNumber ((p.localDependencies.map (·.asStr)).map .str) := isValue_texts _
    rwa [List.map_map] at htexts
  intro entry hentry
  simp only [entries, List.mem_cons, List.not_mem_nil, or_false] at hentry
  obtain rfl | rfl | rfl | rfl | rfl | rfl | rfl | rfl | rfl | rfl | rfl | rfl | rfl | rfl := hentry
  · exact hnat p.schemaVersion
  · trivial
  · trivial
  · trivial
  · trivial
  · trivial
  · exact isValue_optionalStr _
  · trivial
  · trivial
  · exact isValue_optionalStr _
  · exact isValue_optionalStr _
  · exact hsort
  · exact hpayload
  · exact hkinds

/-- **Two texts that differ in their payload alone are equal when their payloads are.** -/
theorem serialize_eq_iff (hserde : Serde cfg isNumber) (hpayload : p.payload.IsValue isNumber)
    (hpayload' : q.payload.IsValue isNumber) (hrest : { q with payload := p.payload } = p) :
    serialize cfg q.toJson = serialize cfg p.toJson ↔ q.payload = p.payload := by
  constructor
  · intro h
    have hvalues := isValue_entries hserde.isNumber_int hserde.isNumber_nat hpayload
    have hvalues' := isValue_entries hserde.isNumber_int hserde.isNumber_nat hpayload'
    have hcanonical := hserde.print_injective _ _ (isValue_canonicalize_obj q.nodup_keys hvalues')
      (isValue_canonicalize_obj p.nodup_keys hvalues) h
    have hmem : ("payload", q.payload) ∈ q.entries := by simp [entries]
    exact eq_of_mem_entries (mem_of_canonicalize_obj_eq hvalues' hvalues hcanonical hmem)
  · intro h
    have hsame : q = p := by
      rw [← hrest, ← h]
    rw [hsame]

end ConnectionProjection

/-- The entries of a folder projection's text. -/
def FolderProjection.entries (p : FolderProjection) : List (String × Json) :=
  [("schemaVersion", .num (toString p.schemaVersion)), ("assetType", .str p.assetType.asStr),
    ("id", .str p.id), ("name", .str p.name), ("parentId", optionalStr p.parentId),
    ("sortOrder", optionalInt p.sortOrder)]

/-! ### Reading a projection -/

namespace ReadJson

/-- The reader of a field of a derived `Deserialize`. -/
def nat : Json → Option Nat
  | .num text => text.toNat?
  | _ => none

def int : Json → Option Int
  | .num text => text.toInt?
  | _ => none

def optional {α : Type} (read : Json → Option α) : Json → Option (Option α)
  | .null => some none
  | value => (read value).map some

def assetType : Json → Option AssetType
  | .str "connection" => some .connection
  | .str "connection_folder" => some .connectionFolder
  | _ => none

def localDependency : Json → Option LocalDependencyKind
  | .str "database_file" => some .databaseFile
  | .str "ssh_private_key" => some .sshPrivateKey
  | _ => none

def localDependencies : Json → Option (List LocalDependencyKind)
  | .arr items => items.mapM localDependency
  | _ => none

theorem int_toString (value : Int) : (toString value).toInt? = some value := by
  rw [String.toInt?_eq_some_iff]
  cases value with
  | ofNat n => exact .inl ⟨n, Nat.toNat?_repr n, rfl⟩
  | negSucc n => exact .inr ⟨Nat.repr (n + 1), rfl, n + 1, Nat.toNat?_repr (n + 1), rfl⟩

@[simp]
theorem nat_num (value : Nat) : nat (.num (toString value)) = some value := Nat.toNat?_repr value

@[simp]
theorem optional_optionalInt (value : Option Int) : optional int (optionalInt value) = some value := by
  cases value with
  | none => rfl
  | some value =>
    show (int (.num (toString value))).map some = _
    rw [show int (.num (toString value)) = some value from int_toString value]
    rfl

@[simp]
theorem optional_optionalStr (value : Option String) : optional Json.asStr (optionalStr value) = some value := by
  cases value <;> rfl

@[simp]
theorem assetType_asStr (value : AssetType) : assetType (.str value.asStr) = some value := by
  cases value <;> rfl

@[simp]
theorem localDependencies_asStr (kinds : List LocalDependencyKind) :
    localDependencies (.arr (kinds.map fun kind ↦ .str kind.asStr)) = some kinds := by
  show (kinds.map fun kind ↦ Json.str kind.asStr).mapM localDependency = _
  rw [mapM_eq_some_iff, List.forall₂_map_left_iff, List.forall₂_same]
  intro kind _
  cases kind <;> rfl

end ReadJson

/-- A `ConnectionSyncProjection` from a JSON value. -/
def ConnectionProjection.ofJson (value : Json) : Option ConnectionProjection := do
  some
    { schemaVersion := ← (value.get "schemaVersion").bind ReadJson.nat
      assetType := ← (value.get "assetType").bind ReadJson.assetType
      id := ← (value.get "id").bind Json.asStr
      name := ← (value.get "name").bind Json.asStr
      driver := ← (value.get "driver").bind Json.asStr
      environment := ← (value.get "environment").bind Json.asStr
      color := ← (value.get "color").bind (ReadJson.optional Json.asStr)
      note := ← (value.get "note").bind Json.asStr
      tagLabel := ← (value.get "tagLabel").bind Json.asStr
      tagColor := ← (value.get "tagColor").bind (ReadJson.optional Json.asStr)
      folderId := ← (value.get "folderId").bind (ReadJson.optional Json.asStr)
      sortOrder := ← (value.get "sortOrder").bind (ReadJson.optional ReadJson.int)
      payload := ← value.get "payload"
      localDependencies := ← (value.get "localDependencies").bind ReadJson.localDependencies }

/-- A `ConnectionFolderSyncProjection` from a JSON value. -/
def FolderProjection.ofJson (value : Json) : Option FolderProjection := do
  some
    { schemaVersion := ← (value.get "schemaVersion").bind ReadJson.nat
      assetType := ← (value.get "assetType").bind ReadJson.assetType
      id := ← (value.get "id").bind Json.asStr
      name := ← (value.get "name").bind Json.asStr
      parentId := ← (value.get "parentId").bind (ReadJson.optional Json.asStr)
      sortOrder := ← (value.get "sortOrder").bind (ReadJson.optional ReadJson.int) }

/-- A field of a canonical form is one of the object. -/
theorem get_canonicalize {entries : List (String × Json)} (hkeys : (entries.map (·.1)).Nodup)
    (hvalues : ∀ entry ∈ entries, entry.2.IsValue isNumber) {key : String} {value : Json}
    (hmem : (key, value) ∈ entries) : (canonicalize compare (.obj entries)).get key = some value := by
  rw [canonicalize, canonicalizeEntries_of_isValue entries (isValueEntries_iff.2 hvalues)]
  have hperm := List.perm_insertionSort (fun a b : String × Json ↦ compare a.1 b.1 ≠ .gt) entries
  refine find_of_mem ?_ (hperm.mem_iff.2 hmem)
  exact (hperm.map _).nodup_iff.2 hkeys

/-- **A projection is read from its text.** -/
theorem ConnectionProjection.ofJson_canonicalize {p : ConnectionProjection}
    (hvalues : ∀ entry ∈ p.entries, entry.2.IsValue isNumber) :
    ofJson (canonicalize compare p.toJson) = some p := by
  have hget : ∀ entry ∈ p.entries, (canonicalize compare p.toJson).get entry.1 = some entry.2 :=
    fun entry h ↦ get_canonicalize p.nodup_keys hvalues h
  simp only [entries, List.forall_mem_cons] at hget
  unfold ofJson
  simp only [hget, Option.bind_some, ReadJson.nat_num, ReadJson.assetType_asStr, ReadJson.optional_optionalStr,
    ReadJson.optional_optionalInt, ReadJson.localDependencies_asStr, Json.asStr, Option.bind_eq_bind]

theorem FolderProjection.ofJson_canonicalize {p : FolderProjection}
    (hint : ∀ value : Int, isNumber (toString value)) (hnat : ∀ value : Nat, isNumber (toString value)) :
    ofJson (canonicalize compare p.toJson) = some p := by
  have hkeys : (p.entries.map (·.1)).Nodup := by
    simp [entries]
  have hsort : (optionalInt p.sortOrder).IsValue isNumber := by
    cases p.sortOrder with
    | none => trivial
    | some value => exact hint value
  have hvalues : ∀ entry ∈ p.entries, entry.2.IsValue isNumber := by
    simp only [entries, List.forall_mem_cons]
    exact ⟨hnat _, trivial, trivial, trivial, ConnectionProjection.isValue_optionalStr _, hsort,
      fun _ h ↦ nomatch h⟩
  have hget : ∀ entry ∈ p.entries, (canonicalize compare p.toJson).get entry.1 = some entry.2 :=
    fun entry h ↦ get_canonicalize hkeys hvalues h
  simp only [entries, List.forall_mem_cons] at hget
  unfold ofJson
  simp only [hget, Option.bind_some, ReadJson.nat_num, ReadJson.assetType_asStr, ReadJson.optional_optionalStr,
    ReadJson.optional_optionalInt, Json.asStr, Option.bind_eq_bind]

/-! ### The change that carries a row -/

/-- A change with the bytes of a connection's projection, as it is validated. -/
structure CarriesConnection (cfg : Config B) (row : ConnectionRow) (change : Change B) : Prop where
  hid : change.id = row.id
  htype : change.assetType = .connection
  htombstone : change.tombstone = false
  hprojection : change.projection = (cfg.decodeConnection (connectionBytes cfg row)).map .connection
  hhash : change.payloadHash = some (connectionHash cfg row)

/-- A change with the bytes of a folder's projection. -/
structure CarriesFolder (cfg : Config B) (row : FolderRow) (change : Change B) : Prop where
  hid : change.id = row.id
  htype : change.assetType = .connectionFolder
  htombstone : change.tombstone = false
  hprojection : change.projection = (cfg.decodeFolder (folderBytes cfg row)).map .connectionFolder
  hhash : change.payloadHash = some (folderHash cfg row)

/-- The row of an asset has the projection that came: it is not uploaded again, and no later change meets a
local one. -/
structure ComesBack [DecidableEq B] (cfg : Config B) (db : Db B) (assetType : AssetType) (assetId : String)
    (bytes : B) : Prop where
  hprojection : loadLocalProjection cfg db assetType assetId = .ok (bytes, cfg.digest bytes)
  hreconcile : ∀ (hasPending : Bool) (s : Session B), s.db = db →
    ((reconcilePresentAsset cfg assetType assetId bytes (cfg.digest bytes) (metadataFor db assetType assetId)
      hasPending).run s).2.db = db
  hpull : ∀ change : Change B, change.assetType = assetType → change.id = assetId →
    localFactChanged cfg db (db.assets.lookup assetId) change = .ok false

/-- Every number outside the local paths has its text again after it was written and read twice. -/
def NumbersComeBack (cfg : Config B) (row : ConnectionRow) : Prop :=
  (sanitizePayload row.payload).AllNumbers fun text ↦ cfg.number (cfg.number text) = text

section

variable [DecidableEq B]

variable {assetType : AssetType} {assetId : String} {db db' : Db B} {row : ConnectionRow}
  {change : Change B}

/-- Nothing is queued for content that is up to date. -/
theorem reconcilePresentAsset_of_isUpToDate {plaintext hash : B} {metadata : Option (AssetRow B)}
    (h : isUpToDate metadata hash = true) (hasPending : Bool) (s : Session B) :
    ((reconcilePresentAsset cfg assetType assetId plaintext hash metadata hasPending).run s).2.db = s.db := by
  unfold reconcilePresentAsset
  by_cases hguard : s.faults.headD false = true
  · have hfail : guard.run s = (.error (.validation "Cloud sync run was canceled"), s.tick) := if_pos hguard
    rw [Job.run_bind_of_error hfail]
    rfl
  · have hpass : guard.run s = (.ok (), s.tick) := if_neg hguard
    rw [Job.run_bind_of_ok hpass, if_pos h]
    cases hasPending with
    | true => rfl
    | false => rfl

omit [DecidableEq B] in
/-- The metadata that an applied change leaves. -/
theorem lookup_upsertMetadata (db : Db B) (change : Change B) (status : AssetStatus) (hash : Option B) :
    ∃ row, (upsertMetadata db change status hash).assets.lookup change.id = some row ∧
      row.assetType = change.assetType ∧ row.syncStatus = status ∧ row.localPayloadHash = hash :=
  ⟨_, AList.lookup_insert _, rfl, rfl, rfl⟩

/-- A row whose projection has the hash that the metadata has, and that came from the server. -/
theorem comesBack_iff {bytes : B} {row : AssetRow B} (hrow : db.assets.lookup assetId = some row)
    (htype : row.assetType = assetType)
    (hstatus : row.syncStatus = .synced ∨ row.syncStatus = .needsLocalFile)
    (hhash : row.localPayloadHash = some (cfg.digest bytes)) :
    ComesBack cfg db assetType assetId bytes ↔
      loadLocalProjection cfg db assetType assetId = .ok (bytes, cfg.digest bytes) := by
  refine ⟨fun h ↦ h.hprojection, fun h ↦ ⟨h, fun hasPending s hs ↦ ?_, fun change htype' hid ↦ ?_⟩⟩
  · have hfound : metadataFor db assetType assetId = some row := by
      rw [metadataFor, hrow, Option.filter_some, if_pos (by simpa using htype)]
    rw [reconcilePresentAsset_of_isUpToDate, hs]
    simp only [isUpToDate, hfound, Option.any_some, hhash, decide_true, Bool.true_and, decide_eq_true_eq]
    exact hstatus.imp_right .inl
  · unfold localFactChanged
    rw [hrow]
    dsimp only
    split
    · rfl
    · rw [hhash, htype', hid, h]
      simp

/-! ### The row that is stored -/

omit [DecidableEq B] in
/-- What another device makes of a row's payload. -/
theorem projection_stored_merged (cfg : Config B) (db : Db B) (p : ConnectionProjection) (payload : Json) :
    sanitizePayload (stored cfg (mergedPayload db { p with payload := stored cfg (sanitizePayload payload) })) =
      (sanitizePayload payload).mapNumbers fun text ↦ cfg.number (cfg.number text) := by
  rw [stored, sanitizePayload_mapNumbers, mergedPayload, sanitizePayload_mergeLocalPaths, stored,
    sanitizePayload_mapNumbers, sanitizePayload_sanitizePayload, mapNumbers_mapNumbers]

omit [DecidableEq B] in
/-- What another device finds that a row's payload asks for. -/
theorem collectLocalDependencies_stored_merged (cfg : Config B) (db : Db B) (p : ConnectionProjection)
    (driver : ConnectionDriver) (payload : Json) :
    collectLocalDependencies driver
        (stored cfg (mergedPayload db { p with payload := stored cfg (sanitizePayload payload) })) =
      collectLocalDependencies driver payload := by
  rw [stored, (Passage.numbers _).collectLocalDependencies, mergedPayload,
    (Passage.merge _ _).collectLocalDependencies, stored, (Passage.numbers _).collectLocalDependencies,
    Passage.sanitize.collectLocalDependencies]

omit [DecidableEq B] in
/-- **The row that another device stores**, as it projects it: the payload was written and read twice. -/
theorem connectionProjection_of_applied (hserde : Serde cfg isNumber) (hstored : row.Stored)
    (hpayload : row.payload.IsValue isNumber) (hcarries : CarriesConnection cfg row change)
    (h : applyRemoteProjection cfg db change = .ok db') :
    ∃ found metadata, db'.connections.lookup row.id = some found ∧
      connectionProjection found =
        { connectionProjection row with
          payload := (sanitizePayload row.payload).mapNumbers fun text ↦ cfg.number (cfg.number text) } ∧
      db'.assets.lookup row.id = some metadata ∧ metadata.assetType = .connection ∧
      (metadata.syncStatus = .synced ∨ metadata.syncStatus = .needsLocalFile) ∧
      metadata.localPayloadHash = some (connectionHash cfg row) := by
  have hprojection : change.projection = some (.connection
      { connectionProjection row with payload := stored cfg (sanitizePayload row.payload) }) := by
    rw [hcarries.hprojection, hserde.decodeConnection row hpayload hstored.hsort]
    rfl
  unfold applyRemoteProjection at h
  rw [if_neg (by simp [hcarries.htombstone]), hprojection] at h
  obtain ⟨-, -, h⟩ := bind_eq_ok_iff.1 h
  obtain ⟨db'', hupsert, h⟩ := bind_eq_ok_iff.1 h
  unfold upsertConnection at hupsert
  obtain ⟨driver, hdriver, hupsert⟩ := bind_eq_ok_iff.1 hupsert
  obtain ⟨note, hnote, hupsert⟩ := bind_eq_ok_iff.1 hupsert
  obtain rfl : row.driver = driver := by
    have : ConnectionDriver.fromStr row.driver.asStr = .ok driver := hdriver
    rw [ConnectionDriver.fromStr_asStr] at this
    exact Except.ok.inj this
  obtain rfl : row.note = note := Except.ok.inj (hstored.hnote.symm.trans hnote)
  cases hupsert
  cases h
  obtain ⟨metadata, hmetadata, htype, hstatus, hhash⟩ := lookup_upsertMetadata _ change _ change.payloadHash
  rw [hcarries.hid] at hmetadata
  refine ⟨_, metadata, AList.lookup_insert _, ?_, hmetadata, htype.trans hcarries.htype, ?_,
    hhash.trans hcarries.hhash⟩
  · unfold connectionProjection
    rw [projection_stored_merged cfg db _ row.payload,
      collectLocalDependencies_stored_merged cfg db _ row.driver row.payload]
  · rw [hstatus]
    split
    · exact .inr rfl
    · exact .inl rfl

/-- A connection's projection comes back when its numbers do. -/
theorem comesBack_connection_iff (hserde : Serde cfg isNumber)
    (happlied : applyRemoteProjection cfg db change = .ok db') (hstored : row.Stored)
    (hpayload : row.payload.IsValue isNumber) (hcarries : CarriesConnection cfg row change) :
    ComesBack cfg db' .connection row.id (connectionBytes cfg row) ↔ NumbersComeBack cfg row := by
  obtain ⟨found, metadata, hfound, hprojection, hmetadata, htype, hstatus, hhash⟩ :=
    connectionProjection_of_applied hserde hstored hpayload hcarries happlied
  have hsanitized := IsValue.sanitizePayload _ hpayload
  have htwice : ((sanitizePayload row.payload).mapNumbers fun text ↦ cfg.number (cfg.number text)).IsValue
      isNumber :=
    hsanitized.mapNumbers (fun text htext ↦ hserde.isNumber_number _ (hserde.isNumber_number _ htext)) _
  have hbytes : connectionBytes cfg found = connectionBytes cfg row ↔ NumbersComeBack cfg row := by
    rw [connectionBytes, connectionBytes, hprojection,
      ConnectionProjection.serialize_eq_iff hserde hsanitized htwice rfl]
    exact mapNumbers_eq_self_iff _
  rw [comesBack_iff hmetadata htype hstatus hhash, ← hbytes]
  unfold loadLocalProjection
  simp only [hfound, connectionHash]
  refine ⟨fun h ↦ (Prod.mk.inj (Except.ok.inj h)).1, fun h ↦ by rw [h]⟩

/-- A folder's projection comes back. -/
theorem comesBack_folder (hserde : Serde cfg isNumber)
    (happlied : applyRemoteProjection cfg db change = .ok db') {row : FolderRow} (hstored : row.Stored)
    (hcarries : CarriesFolder cfg row change) :
    ComesBack cfg db' .connectionFolder row.id (folderBytes cfg row) := by
  have hprojection : change.projection = some (.connectionFolder (folderProjection row)) := by
    rw [hcarries.hprojection, hserde.decodeFolder row hstored]
    rfl
  unfold applyRemoteProjection at happlied
  rw [if_neg (by simp [hcarries.htombstone]), hprojection] at happlied
  obtain ⟨-, -, happlied⟩ := bind_eq_ok_iff.1 happlied
  cases happlied
  obtain ⟨metadata, hmetadata, htype, hstatus, hhash⟩ :=
    lookup_upsertMetadata (upsertFolder db (folderProjection row)) change .synced change.payloadHash
  rw [hcarries.hid] at hmetadata
  refine (comesBack_iff hmetadata (htype.trans hcarries.htype) (.inl hstatus)
    (hhash.trans hcarries.hhash)).2 ?_
  have hfound : (upsertFolder db (folderProjection row)).folders.lookup row.id = some row :=
    AList.lookup_insert _
  simp only [loadLocalProjection, upsertMetadata, hfound]
  rfl

omit [DecidableEq B] in
/-- A connection at the root is applied. -/
theorem exists_applyRemoteProjection (hserde : Serde cfg isNumber) (hstored : row.Stored)
    (hpayload : row.payload.IsValue isNumber) (hcarries : CarriesConnection cfg row change)
    (hfolder : row.folderId = none) (db : Db B) :
    ∃ db', applyRemoteProjection cfg db change = .ok db' := by
  have hprojection : change.projection = some (.connection
      { connectionProjection row with payload := stored cfg (sanitizePayload row.payload) }) := by
    rw [hcarries.hprojection, hserde.decodeConnection row hpayload hstored.hsort]
    rfl
  have hparent : ensureParentFolderExists db row.folderId = .ok () := by
    rw [hfolder]
    rfl
  unfold applyRemoteProjection
  rw [if_neg (by simp [hcarries.htombstone]), hprojection]
  have hdriver := ConnectionDriver.fromStr_asStr row.driver
  have hnote := hstored.hnote
  exact ⟨_, bind_eq_ok_iff.2 ⟨(), hparent, bind_eq_ok_iff.2
    ⟨_, bind_eq_ok_iff.2 ⟨row.driver, hdriver, bind_eq_ok_iff.2 ⟨row.note, hnote, rfl⟩⟩, rfl⟩⟩⟩

end

/-! ### A server's and two devices' texts -/

namespace Sample

/-- Byte strings that show what they were made of. -/
inductive Bytes
  | empty
  | text (value : Json)
  | nonce (number : Nat)
  | hash (bytes : Bytes)
  | cipher (aad : Aad) (nonce plaintext : Bytes)
  deriving DecidableEq

/-- A number that serde_json reads as its neighbour, and the neighbour as the next. -/
def number (text : String) : String :=
  if text = "6.416538378762727e-34" then "6.416538378762728e-34"
  else if text = "6.416538378762728e-34" then "6.4165383787627285e-34"
  else text

def decodeConnection : Bytes → Option ConnectionProjection
  | .text value => (ConnectionProjection.ofJson value).map fun p ↦ { p with payload := p.payload.mapNumbers number }
  | _ => none

def decodeFolder : Bytes → Option FolderProjection
  | .text value => FolderProjection.ofJson value
  | _ => none

def decipher (aad : Aad) (nonce : Bytes) : Bytes → Option Bytes
  | .cipher aad' nonce' plaintext => if aad' = aad ∧ nonce' = nonce then some plaintext else none
  | _ => none

def decodedLength : Bytes → Option Nat
  | .nonce _ => some 24
  | .cipher .. => some 400
  | _ => none

def config : Config Bytes where
  accountId := "0198f5dc-0000-7000-8000-000000000001"
  keyAccountId := "0198f5dc-0000-7000-8000-000000000001"
  keyGeneration := 1
  suite := "XCHACHA20-POLY1305"
  empty := .empty
  number
  print := .text
  decodeConnection
  decodeFolder
  digest := .hash
  cipher := .cipher
  decipher
  decodedLength
  isUuid text := text.length = 36

theorem serialize_eq (value : Json) : serialize config value = .text (canonicalize compare value) := rfl

theorem decodeConnection_text (value : Json) : config.decodeConnection (.text value) =
    (ConnectionProjection.ofJson value).map fun p ↦ { p with payload := p.payload.mapNumbers number } := rfl

theorem decodeFolder_text (value : Json) : config.decodeFolder (.text value) = FolderProjection.ofJson value := rfl

theorem serde : Serde config fun _ ↦ True where
  isNumber_int _ := trivial
  isNumber_nat _ := trivial
  isNumber_number _ _ := trivial
  print_injective _ _ _ _ h := Bytes.text.inj h
  decodeConnection row hpayload _ := by
    have hvalues : ∀ entry ∈ (connectionProjection row).entries, entry.2.IsValue fun _ ↦ True :=
      ConnectionProjection.isValue_entries (fun _ ↦ trivial) (fun _ ↦ trivial)
        (IsValue.sanitizePayload _ hpayload)
    rw [connectionBytes, serialize_eq, decodeConnection_text, ConnectionProjection.ofJson_canonicalize hvalues]
    rfl
  decodeFolder row _ := by
    rw [folderBytes, serialize_eq, decodeFolder_text]
    exact @FolderProjection.ofJson_canonicalize (fun _ ↦ True) (folderProjection row) (fun _ ↦ trivial)
      fun _ ↦ trivial

/-- A connection with a timeout. -/
def connection (timeout : String) : ConnectionRow where
  id := "0198f5dc-0000-7000-8000-000000000003"
  name := "Production"
  driver := .mysql
  environment := "production"
  color := none
  note := ""
  tagLabel := ""
  tagColor := none
  payload := .obj [("timeout", .num timeout)]
  folderId := none
  sortOrder := none

/-- The encrypted projection of a connection. -/
def encryption (row : ConnectionRow) (revision : Nat) : Encryption Bytes :=
  ⟨config.suite, .nonce revision,
    .cipher ⟨config.accountId, row.id, .connection, revision, 1, 1⟩ (.nonce revision) (connectionBytes config row)⟩

/-- A connection, as the server sends it. -/
def remoteChange (row : ConnectionRow) (revision : Nat) : RemoteChange Bytes where
  changeCursor := toString revision
  asset :=
    { id := row.id
      assetType := "connection"
      revision := toString revision
      parentRevision := none
      schemaVersion := 1
      keyGeneration := 1
      encryption := some (encryption row revision)
      encryptedBytes := 400
      tombstone := false
      changeCursor := toString revision
      updatedByDeviceId := "0198f5dc-0000-7000-8000-000000000002"
      deletedAt := none }

/-- The change that carries a connection. -/
def connectionChange (row : ConnectionRow) (revision : Nat) : Change Bytes where
  changeCursor := revision
  raw := remoteChange row revision
  id := row.id
  assetType := .connection
  revision
  schemaVersion := 1
  keyGeneration := 1
  encryption := some (encryption row revision)
  tombstone := false
  projection := (config.decodeConnection (connectionBytes config row)).map .connection
  payloadHash := some (connectionHash config row)

theorem carries_connectionChange (row : ConnectionRow) (revision : Nat) :
    CarriesConnection config row (connectionChange row revision) where
  hid := rfl
  htype := rfl
  htombstone := rfl
  hprojection := by dsimp only [connectionChange]
  hhash := by dsimp only [connectionChange]

theorem stored_connection (timeout : String) : (connection timeout).Stored where
  hnote := rfl
  hsort _ h := nomatch h

theorem isValue_connection (timeout : String) : (connection timeout).payload.IsValue fun _ ↦ True :=
  ⟨List.pairwise_singleton _ _, trivial, trivial⟩

theorem numbersComeBack_iff (timeout : String) :
    NumbersComeBack config (connection timeout) ↔ number (number timeout) = timeout := by
  simp [NumbersComeBack, connection, sanitizePayload, sanitizeEntries, AllNumbers, AllNumbersEntries,
    isPathKey, config]

end Sample

end Sync
