import NexusPilot.Execution.Coordinator

/-!
# Raw artifacts

`RawArtifactStore`: the files that hold the bytes of raw results, by artifact id, each with the
execution that owns it. A record is put into the map when its file is created and taken out before its
file is removed, so that an I/O error of the removal is reported over a map that is already changed.

Whether a file operation fails is the environment's: it is an argument of each operation. Paths, the
bytes in the file and the operations on a poisoned lock are left out.
-/

namespace Execution

open Drivers Machine

/-! ### `str::from_utf8` -/

/-- What stands at the front of a byte string. -/
inductive Utf8Read
  | char (c : Char) (width : ℕ)
  | unexpectedEnd
  | invalid (errorLen : ℕ)

/-- A continuation byte. -/
def isContinuation (b : UInt8) : Bool :=
  0x80 ≤ b && b ≤ 0xBF

/-- The second bytes that may follow a first byte of a sequence of three. -/
def isSecondOfThree (b₀ b₁ : UInt8) : Bool :=
  if b₀ = 0xE0 then 0xA0 ≤ b₁ && b₁ ≤ 0xBF
  else if b₀ = 0xED then 0x80 ≤ b₁ && b₁ ≤ 0x9F
  else isContinuation b₁

/-- The second bytes that may follow a first byte of a sequence of four. -/
def isSecondOfFour (b₀ b₁ : UInt8) : Bool :=
  if b₀ = 0xF0 then 0x90 ≤ b₁ && b₁ ≤ 0xBF
  else if b₀ = 0xF4 then 0x80 ≤ b₁ && b₁ ≤ 0x8F
  else isContinuation b₁

/-- The character whose encoding has the given bits, six for each byte after the first. -/
def charOfBits (first : ℕ) (continuations : List UInt8) : Char :=
  Char.ofNat (continuations.foldl (fun n b ↦ n * 64 + b.toNat % 64) first)

/-- The first character of a byte string, as `str::from_utf8` checks it. -/
def readUtf8 (b₀ : UInt8) (rest : List UInt8) : Utf8Read :=
  if b₀ < 0x80 then .char (charOfBits b₀.toNat []) 1
  else if 0xC2 ≤ b₀ && b₀ ≤ 0xDF then
    match rest with
    | [] => .unexpectedEnd
    | b₁ :: _ =>
      if isContinuation b₁ then .char (charOfBits (b₀.toNat % 32) [b₁]) 2 else .invalid 1
  else if 0xE0 ≤ b₀ && b₀ ≤ 0xEF then
    match rest with
    | [] => .unexpectedEnd
    | [b₁] => if isSecondOfThree b₀ b₁ then .unexpectedEnd else .invalid 1
    | b₁ :: b₂ :: _ =>
      if !isSecondOfThree b₀ b₁ then .invalid 1
      else if !isContinuation b₂ then .invalid 2
      else .char (charOfBits (b₀.toNat % 16) [b₁, b₂]) 3
  else if 0xF0 ≤ b₀ && b₀ ≤ 0xF4 then
    match rest with
    | [] => .unexpectedEnd
    | [b₁] => if isSecondOfFour b₀ b₁ then .unexpectedEnd else .invalid 1
    | [b₁, b₂] =>
      if !isSecondOfFour b₀ b₁ then .invalid 1
      else if !isContinuation b₂ then .invalid 2
      else .unexpectedEnd
    | b₁ :: b₂ :: b₃ :: _ =>
      if !isSecondOfFour b₀ b₁ then .invalid 1
      else if !isContinuation b₂ then .invalid 2
      else if !isContinuation b₃ then .invalid 3
      else .char (charOfBits (b₀.toNat % 8) [b₁, b₂, b₃]) 4
  else .invalid 1

/-- `Utf8Error`. -/
structure Utf8Error where
  /-- The characters before the error. -/
  valid : List Char
  errorLen : Option ℕ

/-- `str::from_utf8` from a character boundary on, `skip` bytes of the last character being still to
pass over. -/
def fromUtf8From (valid : List Char) : ℕ → List UInt8 → Except Utf8Error (List Char)
  | _, [] => .ok valid
  | skip + 1, _ :: rest => fromUtf8From valid skip rest
  | 0, b :: rest =>
    match readUtf8 b rest with
    | .char c width => fromUtf8From (valid ++ [c]) (width - 1) rest
    | .unexpectedEnd => .error ⟨valid, none⟩
    | .invalid errorLen => .error ⟨valid, some errorLen⟩

/-- `str::from_utf8`. -/
def fromUtf8 (bytes : List UInt8) : Except Utf8Error (List Char) :=
  fromUtf8From [] 0 bytes

/-! ### Previews -/

/-- `RawArtifactLimits`. -/
structure RawArtifactLimits where
  maxBytes : ℕ := 512 * 1024 * 1024
  previewBytes : ℕ := 1024 * 1024
  binaryPreviewBytes : ℕ := 4 * 1024
  deriving DecidableEq

/-- `RawArtifactPreviewMode`. -/
inductive RawArtifactPreviewMode
  | text
  | binary
  deriving DecidableEq

/-- One hexadecimal digit of `{:02x}`. -/
def hexDigit (n : ℕ) : Char :=
  if n < 10 then Char.ofNat ('0'.toNat + n) else Char.ofNat ('a'.toNat + (n - 10))

/-- `{:02x}`. -/
def hexByte (b : UInt8) : String :=
  String.ofList [hexDigit (b.toNat / 16), hexDigit (b.toNat % 16)]

/-- `build_hex_preview`. -/
def buildHexPreview (bytes : List UInt8) (byteLength limit : ℕ) : String × Bool :=
  let shown := bytes.take limit
  let encoded := " ".intercalate (shown.map hexByte)
  let preview := if encoded.isEmpty then "[hex]" else "[hex] " ++ encoded
  (preview, shown.length < byteLength)

/-- `build_preview`. -/
def buildPreview (bytes : List UInt8) (byteLength : ℕ) (mode : RawArtifactPreviewMode)
    (limits : RawArtifactLimits) : String × Bool :=
  match mode with
  | .binary => buildHexPreview bytes byteLength limits.binaryPreviewBytes
  | .text =>
    let textBytes := bytes.take limits.previewBytes
    match fromUtf8 textBytes with
    | .ok text => (String.ofList text, textBytes.length < byteLength)
    | .error ⟨valid, none⟩ => (String.ofList valid, true)
    | .error ⟨_, some _⟩ => buildHexPreview bytes byteLength limits.binaryPreviewBytes

/-! ### The store -/

/-- `RawArtifactOwner`. -/
structure RawArtifactOwner where
  profileId : String
  tabId : String
  executionId : String
  deriving DecidableEq

/-- `RawArtifactRecord` and its `RawArtifactEntry`; `writer` says whether the file is still open. -/
structure RawArtifactRecord where
  owner : RawArtifactOwner
  writer : Bool
  byteLength : ℕ
  preview : List UInt8
  completed : Bool

/-- `RawArtifactDescriptor`. -/
structure RawArtifactDescriptor where
  artifactId : String
  byteLength : ℕ
  preview : String
  previewTruncated : Bool

/-- `RawArtifactStore`. -/
structure RawArtifactStore where
  limits : RawArtifactLimits := {}
  /-- By artifact id. -/
  entries : Table String RawArtifactRecord := ∅

/-- `artifact_not_found`. -/
def artifactNotFound : IpcError :=
  .notFound "Raw SQL artifact is not available"

/-- `artifact_canceled`. -/
def artifactCanceled : IpcError :=
  ⟨.operationCanceled, "Raw SQL artifact ownership was released",
    some "artifact writer is no longer active"⟩

/-- `artifact_limit_error`. -/
def artifactLimitError : IpcError :=
  .invalid "Raw SQL result exceeds the 512 MiB artifact limit"

/-- `artifact_io_error`. -/
def artifactIoError (operation : String) : IpcError :=
  .internal "Raw SQL artifact operation failed"
    ("artifact " ++ operation ++ " filesystem operation failed")

namespace RawArtifactStore

/-- What opening a new file answers. -/
inductive Opened
  | created
  | alreadyExists
  | failed
  deriving DecidableEq

/-- The loop of `start` over the ids that are drawn and the answers of the file system. -/
def create (store : RawArtifactStore) (owner : RawArtifactOwner) :
    List (String × Opened) → IpcResult String × RawArtifactStore
  | [] => (.error (artifactIoError "create"), store)
  | (artifactId, opened) :: attempts =>
    match opened with
    | .alreadyExists => store.create owner attempts
    | .failed => (.error (artifactIoError "create"), store)
    | .created =>
      match store.entries.lookup artifactId with
      | some _ => store.create owner attempts
      | none =>
        (.ok artifactId,
          { store with entries := store.entries.insert artifactId ⟨owner, true, 0, [], false⟩ })

/-- `start`, the directory being there or not. The answer is the id that the writer holds. -/
def start (store : RawArtifactStore) (owner : RawArtifactOwner) (directory : Bool)
    (attempts : List (String × Opened)) : IpcResult String × RawArtifactStore :=
  if directory then store.create owner (attempts.take 16)
  else (.error (artifactIoError "create"), store)

/-- `release_matching`. `stuck` says which files cannot be removed. -/
def releaseMatching (store : RawArtifactStore) (matching : RawArtifactOwner → Bool)
    (stuck : String → Bool) : IpcResult Unit × RawArtifactStore :=
  let failed := store.entries.entries.any fun entry ↦ matching entry.2.owner && stuck entry.1
  let store := { store with entries := store.entries.filter fun record ↦ !matching record.owner }
  (if failed then .error (artifactIoError "release") else .ok (), store)

/-- `release_execution`. -/
def releaseExecution (store : RawArtifactStore) (owner : RawArtifactOwner) (stuck : String → Bool) :
    IpcResult Unit × RawArtifactStore :=
  store.releaseMatching (· == owner) stuck

/-- `release_tab`. -/
def releaseTab (store : RawArtifactStore) (tabId : String) (stuck : String → Bool) :
    IpcResult Unit × RawArtifactStore :=
  store.releaseMatching (·.tabId == tabId) stuck

/-- `release_profile`. -/
def releaseProfile (store : RawArtifactStore) (profileId : String) (stuck : String → Bool) :
    IpcResult Unit × RawArtifactStore :=
  store.releaseMatching (·.profileId == profileId) stuck

/-- `abort_artifact`. -/
def abortArtifact (store : RawArtifactStore) (artifactId : String) (stuck : Bool) :
    IpcResult Unit × RawArtifactStore :=
  match store.entries.lookup artifactId with
  | none => (.ok (), store)
  | some _ =>
    (if stuck then .error (artifactIoError "release") else .ok (),
      { store with entries := store.entries.erase artifactId })

/-- `write_chunk`. -/
def writeChunk (store : RawArtifactStore) (artifactId : String) (chunk : List UInt8)
    (written stuck : Bool) : IpcResult Unit × RawArtifactStore :=
  match store.entries.lookup artifactId with
  | none => (.error artifactCanceled, store)
  | some record =>
    if record.completed then (.error artifactCanceled, store)
    else
      match checkedAdd record.byteLength chunk.length with
      | none => (.error artifactLimitError, store)
      | some nextLength =>
        if store.limits.maxBytes < nextLength then
          match store.abortArtifact artifactId stuck with
          | (.error e, store) => (.error e, store)
          | (.ok _, store) => (.error artifactLimitError, store)
        else
          let limit := max store.limits.previewBytes store.limits.binaryPreviewBytes
          let preview := record.preview ++ chunk.take (limit - record.preview.length)
          let put (record : RawArtifactRecord) : RawArtifactStore :=
            { store with entries := store.entries.insert artifactId record }
          if !record.writer then (.error artifactCanceled, put { record with preview := preview })
          else if written then
            (.ok (), put { record with preview := preview, byteLength := nextLength })
          else (.error (artifactIoError "write"), put { record with preview := preview })

/-- `finish`, with the `Drop` of the writer that follows an error. -/
def finish (store : RawArtifactStore) (artifactId : String) (mode : RawArtifactPreviewMode)
    (flushed : Bool) : IpcResult RawArtifactDescriptor × RawArtifactStore :=
  match store.entries.lookup artifactId with
  | none => (.error artifactNotFound, store)
  | some record =>
    if !record.writer then (.error artifactCanceled, (store.abortArtifact artifactId false).2)
    else if !flushed then
      (.error (artifactIoError "finish"), (store.abortArtifact artifactId false).2)
    else
      let preview := buildPreview record.preview record.byteLength mode store.limits
      (.ok ⟨artifactId, record.byteLength, preview.1, preview.2⟩,
        { store with
          entries := store.entries.insert artifactId
            { record with writer := false, completed := true } })

end RawArtifactStore

end Execution
