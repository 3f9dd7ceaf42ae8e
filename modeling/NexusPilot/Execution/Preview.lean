import NexusPilot.Execution.Utf8
import NexusPilot.Machine.Run

/-!
# The preview of a raw artifact

The bytes of an artifact come in chunks, while the store serves other artifacts too. Its record keeps the number of the
bytes and the first of them, as many as the larger limit asks for (`Writing`), so that what `finish` answers depends on
the bytes and not on the chunks (`finish_of_run`), and the preview says what it says it does (`honest_describe`).
-/

namespace Execution

open Drivers Machine

/-! ### What a preview may say -/

/-- The bytes in hexadecimal notation. -/
def hexText (bytes : List UInt8) : String :=
  let encoded := " ".intercalate (bytes.map hexByte)
  if encoded.isEmpty then "[hex]" else "[hex] " ++ encoded

/-- The longest text that the bytes begin with. -/
structure LongestText (bytes : List UInt8) (text : List Char) : Prop where
  hstarted : encodeUtf8 text <+: bytes
  hlongest : ∀ text', encodeUtf8 text' <+: bytes → encodeUtf8 text' <+: encodeUtf8 text

/-- The bytes are not the beginning of a text. -/
def NoText (bytes : List UInt8) : Prop :=
  ∀ text, ¬ bytes <+: encodeUtf8 text

/-- The preview shows all the bytes, as a text or in hexadecimal notation. -/
def ShowsAll (preview : String) (bytes : List UInt8) : Prop :=
  (∃ text, preview = String.ofList text ∧ encodeUtf8 text = bytes) ∨ preview = hexText bytes

/-- What a descriptor says of the bytes of its artifact. -/
structure Honest (limits : RawArtifactLimits) (mode : RawArtifactPreviewMode) (bytes : List UInt8)
    (descriptor : RawArtifactDescriptor) : Prop where
  hlength : descriptor.byteLength = bytes.length
  /-- A preview in text mode is the longest text within the limit, or stands for bytes that are no text. -/
  htext : mode = .text →
    (∃ text, descriptor.preview = String.ofList text ∧ LongestText (bytes.take limits.previewBytes) text) ∨
      NoText (bytes.take limits.previewBytes) ∧ descriptor.preview = hexText (bytes.take limits.binaryPreviewBytes)
  hbinary : mode = .binary → descriptor.preview = hexText (bytes.take limits.binaryPreviewBytes)
  hwhole : descriptor.previewTruncated = false → ShowsAll descriptor.preview bytes

/-! #### Hexadecimal notation -/

/-! ### Previews of bytes -/

/-- The first bytes of an artifact that its record keeps. -/
def kept (limits : RawArtifactLimits) (bytes : List UInt8) : List UInt8 :=
  bytes.take (max limits.previewBytes limits.binaryPreviewBytes)

/-- What is said of an artifact of these bytes. -/
def describe (limits : RawArtifactLimits) (artifactId : String) (mode : RawArtifactPreviewMode) (bytes : List UInt8) :
    RawArtifactDescriptor :=
  let preview := buildPreview (kept limits bytes) bytes.length mode limits
  ⟨artifactId, bytes.length, preview.1, preview.2⟩

variable {limits : RawArtifactLimits} {artifactId : String} {mode : RawArtifactPreviewMode} {bytes : List UInt8}

theorem take_kept_previewBytes : (kept limits bytes).take limits.previewBytes = bytes.take limits.previewBytes := by
  rw [kept, List.take_take, Nat.min_eq_left (Nat.le_max_left _ _)]

theorem take_kept_binaryPreviewBytes :
    (kept limits bytes).take limits.binaryPreviewBytes = bytes.take limits.binaryPreviewBytes := by
  rw [kept, List.take_take, Nat.min_eq_left (Nat.le_max_right _ _)]

theorem take_eq_of_length {n : ℕ} (h : ¬ (bytes.take n).length < bytes.length) : bytes.take n = bytes := by
  rw [List.length_take] at h
  exact List.take_of_length_le (by omega)

theorem buildHexPreview_eq : buildHexPreview (kept limits bytes) bytes.length limits.binaryPreviewBytes =
    (hexText (bytes.take limits.binaryPreviewBytes),
      decide ((bytes.take limits.binaryPreviewBytes).length < bytes.length)) := by
  rw [buildHexPreview, take_kept_binaryPreviewBytes]
  rfl

/-- A preview in hexadecimal notation that is not cut off shows all the bytes. -/
theorem showsAll_of_hex (h : decide ((bytes.take limits.binaryPreviewBytes).length < bytes.length) = false) :
    ShowsAll (hexText (bytes.take limits.binaryPreviewBytes)) bytes := by
  rw [take_eq_of_length (of_decide_eq_false h)]
  exact .inr rfl

/-- **What is said of an artifact is so.** -/
theorem honest_describe : Honest limits mode bytes (describe limits artifactId mode bytes) := by
  cases mode with
  | binary =>
    have hpreview : buildPreview (kept limits bytes) bytes.length .binary limits = _ := buildHexPreview_eq
    rw [describe, hpreview]
    exact ⟨rfl, nofun, fun _ ↦ rfl, showsAll_of_hex⟩
  | text =>
    have hdecoded := decoded_fromUtf8 (bytes.take limits.previewBytes)
    rw [describe, buildPreview]
    simp only [take_kept_previewBytes]
    generalize fromUtf8 (bytes.take limits.previewBytes) = decoded at hdecoded
    cases hdecoded with
    | @ok text htext =>
      refine ⟨rfl, fun _ ↦ .inl ⟨text, rfl, ?_, fun text' htext' ↦ ?_⟩, nofun, fun hwhole ↦ .inl ⟨text, rfl, ?_⟩⟩
      · rw [htext]
      · rwa [htext]
      · rw [htext, take_eq_of_length (of_decide_eq_false hwhole)]
    | @unexpectedEnd text rest htext hne hrest hbegun =>
      refine ⟨rfl, fun _ ↦ .inl ⟨text, rfl, ⟨rest, htext⟩, fun text' htext' ↦ ?_⟩, nofun, nofun⟩
      rw [← htext] at htext'
      obtain ⟨behind, rfl⟩ := prefix_of_noChar hrest htext'
      exact ⟨encodeUtf8 behind, (encodeUtf8_append text' behind).symm⟩
    | invalid hnone =>
      simp only [buildHexPreview_eq]
      exact ⟨rfl, fun _ ↦ .inr ⟨hnone, rfl⟩, nofun, showsAll_of_hex⟩

/-- A code point that the limit cuts is left out. -/
example : describe ⟨32, 3, 2⟩ "artifact" .text [0xC3, 0xA9, 0xE5, 0xA5, 0xBD] = ⟨"artifact", 5, "é", true⟩ := rfl

/-! ### The store while an artifact is written -/

/-- What is done to the store. The writers of other artifacts, and whoever releases artifacts, act between the chunks. -/
inductive ArtifactEvent
  | start (owner : RawArtifactOwner) (directory : Bool) (attempts : List (String × RawArtifactStore.Opened))
  | write (artifactId : String) (chunk : List UInt8) (written stuck : Bool)
  | finish (artifactId : String) (mode : RawArtifactPreviewMode) (flushed : Bool)
  | abort (artifactId : String) (stuck : Bool)
  | release (matching : RawArtifactOwner → Bool) (stuck : String → Bool)

namespace ArtifactEvent

/-- The store after the event. -/
def apply : ArtifactEvent → RawArtifactStore → RawArtifactStore
  | start owner directory attempts, store => (store.start owner directory attempts).2
  | write artifactId chunk written stuck, store => (store.writeChunk artifactId chunk written stuck).2
  | finish artifactId mode flushed, store => (store.finish artifactId mode flushed).2
  | abort artifactId stuck, store => (store.abortArtifact artifactId stuck).2
  | release matching stuck, store => (store.releaseMatching matching stuck).2

/-- The bytes that the event brings to the artifact. -/
def chunkFor (artifactId : String) : ArtifactEvent → List UInt8
  | write id chunk _ _ => if id = artifactId then chunk else []
  | _ => []

/-- The event leaves the artifact to its writer, and the file takes what is written to it. -/
def Undisturbed (artifactId : String) (owner : RawArtifactOwner) : ArtifactEvent → Prop
  | start _ _ _ => True
  | write id _ written _ => id = artifactId → written = true
  | finish id _ _ => id ≠ artifactId
  | abort id _ => id ≠ artifactId
  | release matching _ => matching owner = false

end ArtifactEvent

open ArtifactEvent RawArtifactStore

/-- The artifact is open and holds the bytes. -/
structure Writing (limits : RawArtifactLimits) (artifactId : String) (owner : RawArtifactOwner) (bytes : List UInt8)
    (store : RawArtifactStore) : Prop where
  hlimits : store.limits = limits
  hrecord : store.entries.lookup artifactId = some ⟨owner, true, bytes.length, kept limits bytes, false⟩

variable {owner : RawArtifactOwner} {store : RawArtifactStore}

variable {store' : RawArtifactStore} {id : String} {attempts : List (String × Opened)}

/-- What leaves the record of the artifact leaves it open. -/
theorem Writing.of_frame (h : Writing limits artifactId owner bytes store)
    (hlimits : store'.limits = store.limits)
    (hrecord : store'.entries.lookup artifactId = store.entries.lookup artifactId) :
    Writing limits artifactId owner bytes store' :=
  ⟨hlimits.trans h.hlimits, hrecord.trans h.hrecord⟩

theorem create_frame (store : RawArtifactStore) (owner' : RawArtifactOwner) (attempts : List (String × Opened))
    (hrecord : (store.entries.lookup artifactId).isSome = true) :
    (store.create owner' attempts).2.limits = store.limits ∧
      (store.create owner' attempts).2.entries.lookup artifactId = store.entries.lookup artifactId := by
  induction attempts with
  | nil => exact ⟨rfl, rfl⟩
  | cons attempt attempts ih =>
    obtain ⟨id, opened⟩ := attempt
    cases opened with
    | alreadyExists => exact ih
    | failed => exact ⟨rfl, rfl⟩
    | created =>
      rw [create]
      obtain hnone | ⟨record, hsome⟩ := Option.eq_none_or_eq_some (store.entries.lookup id)
      · rw [hnone]
        have hid : artifactId ≠ id := by
          rintro rfl
          rw [hnone] at hrecord
          cases hrecord
        exact ⟨rfl, by rw [Table.lookup_insert, if_neg hid]⟩
      · rw [hsome]
        exact ih

theorem abortArtifact_frame (store : RawArtifactStore) (hid : id ≠ artifactId) (stuck : Bool) :
    (store.abortArtifact id stuck).2.limits = store.limits ∧
      (store.abortArtifact id stuck).2.entries.lookup artifactId = store.entries.lookup artifactId := by
  rw [abortArtifact]
  split
  · exact ⟨rfl, rfl⟩
  · exact ⟨rfl, by rw [Table.lookup_erase, if_neg (Ne.symm hid)]⟩

theorem writeChunk_frame (store : RawArtifactStore) (hid : id ≠ artifactId) (chunk : List UInt8)
    (written stuck : Bool) : (store.writeChunk id chunk written stuck).2.limits = store.limits ∧
      (store.writeChunk id chunk written stuck).2.entries.lookup artifactId = store.entries.lookup artifactId := by
  have hput (record : RawArtifactRecord) :
      (store.entries.insert id record).lookup artifactId = store.entries.lookup artifactId := by
    rw [Table.lookup_insert, if_neg (Ne.symm hid)]
  have habort := abortArtifact_frame store hid stuck
  rw [writeChunk]
  split
  · exact ⟨rfl, rfl⟩
  · split
    · exact ⟨rfl, rfl⟩
    · split
      · exact ⟨rfl, rfl⟩
      · split
        · split
          · next haborted =>
            rw [haborted] at habort
            exact habort
          · next haborted =>
            rw [haborted] at habort
            exact habort
        · split
          · exact ⟨rfl, hput _⟩
          · split
            · exact ⟨rfl, hput _⟩
            · exact ⟨rfl, hput _⟩

theorem finish_frame (store : RawArtifactStore) (hid : id ≠ artifactId) (mode : RawArtifactPreviewMode)
    (flushed : Bool) : (store.finish id mode flushed).2.limits = store.limits ∧
      (store.finish id mode flushed).2.entries.lookup artifactId = store.entries.lookup artifactId := by
  rw [RawArtifactStore.finish]
  split
  · exact ⟨rfl, rfl⟩
  · split
    · exact abortArtifact_frame store hid false
    · split
      · exact abortArtifact_frame store hid false
      · exact ⟨rfl, by rw [Table.lookup_insert, if_neg (Ne.symm hid)]⟩

/-- What is kept grows by what of the chunk still fits. -/
theorem kept_append (limits : RawArtifactLimits) (bytes chunk : List UInt8) :
    kept limits bytes ++
        chunk.take (max limits.previewBytes limits.binaryPreviewBytes - (kept limits bytes).length) =
      kept limits (bytes ++ chunk) := by
  rw [kept, kept, List.take_append, List.length_take]
  congr 2
  omega

/-- A chunk that fits is added to what the artifact holds. -/
theorem Writing.write {chunk : List UInt8} (h : Writing limits artifactId owner bytes store)
    (hmax : limits.maxBytes ≤ u64Max) (hfits : (bytes ++ chunk).length ≤ limits.maxBytes) (stuck : Bool) :
    Writing limits artifactId owner (bytes ++ chunk) (store.writeChunk artifactId chunk true stuck).2 := by
  obtain ⟨hlimits, hrecord⟩ := h
  subst hlimits
  have hadd : checkedAdd bytes.length chunk.length = some (bytes ++ chunk).length := by
    rw [List.length_append] at hfits ⊢
    exact if_pos (hfits.trans hmax)
  rw [writeChunk, hrecord]
  simp only [hadd, if_neg (Nat.not_lt.2 hfits), kept_append]
  refine ⟨rfl, ?_⟩
  show (store.entries.insert artifactId _).lookup artifactId = _
  rw [Table.lookup_insert, if_pos rfl]

/-- **One event.** An undisturbed artifact holds the bytes that it held and those of the event. -/
theorem Writing.apply {event : ArtifactEvent} (h : Writing limits artifactId owner bytes store)
    (hmax : limits.maxBytes ≤ u64Max) (hevent : event.Undisturbed artifactId owner)
    (hfits : (bytes ++ event.chunkFor artifactId).length ≤ limits.maxBytes) :
    Writing limits artifactId owner (bytes ++ event.chunkFor artifactId) (event.apply store) := by
  have hnone (hchunk : event.chunkFor artifactId = []) : bytes ++ event.chunkFor artifactId = bytes := by
    rw [hchunk, List.append_nil]
  cases event with
  | start owner' directory attempts =>
    rw [hnone rfl]
    have hsome : (store.entries.lookup artifactId).isSome = true := by rw [h.hrecord]; rfl
    show Writing limits artifactId owner bytes (store.start owner' directory attempts).2
    rw [RawArtifactStore.start]
    split
    · obtain ⟨hlimits, hrecord⟩ := create_frame store owner' (attempts.take 16) hsome
      exact h.of_frame hlimits hrecord
    · exact h
  | write id chunk written stuck =>
    obtain rfl | hid := eq_or_ne id artifactId
    · rw [chunkFor, if_pos rfl] at hfits ⊢
      obtain rfl : written = true := hevent rfl
      exact h.write hmax hfits stuck
    · rw [hnone (if_neg hid)]
      obtain ⟨hlimits, hrecord⟩ := writeChunk_frame store hid chunk written stuck
      exact h.of_frame hlimits hrecord
  | finish id mode flushed =>
    rw [hnone rfl]
    obtain ⟨hlimits, hrecord⟩ := finish_frame store hevent mode flushed
    exact h.of_frame hlimits hrecord
  | abort id stuck =>
    rw [hnone rfl]
    obtain ⟨hlimits, hrecord⟩ := abortArtifact_frame store hevent stuck
    exact h.of_frame hlimits hrecord
  | release matching stuck =>
    rw [hnone rfl]
    refine h.of_frame rfl ?_
    show (store.entries.filter fun record ↦ !matching record.owner).lookup artifactId = _
    rw [Table.lookup_filter, h.hrecord, Option.filter_some, if_pos]
    rw [show matching owner = false from hevent]
    rfl

/-- **A run.** An undisturbed artifact holds the bytes of its chunks. -/
theorem Writing.run {events : List ArtifactEvent} (h : Writing limits artifactId owner bytes store)
    (hmax : limits.maxBytes ≤ u64Max) (hevents : ∀ event ∈ events, event.Undisturbed artifactId owner)
    (hfits : (bytes ++ events.flatMap (chunkFor artifactId)).length ≤ limits.maxBytes) :
    Writing limits artifactId owner (bytes ++ events.flatMap (chunkFor artifactId))
      (Machine.run ArtifactEvent.apply store events) := by
  induction events generalizing bytes store with
  | nil =>
    rw [List.flatMap_nil, List.append_nil]
    exact h
  | cons event events ih =>
    rw [List.flatMap_cons, ← List.append_assoc] at hfits ⊢
    have hfirst : (bytes ++ event.chunkFor artifactId).length ≤ limits.maxBytes := by
      rw [List.length_append] at hfits
      omega
    rw [run_cons]
    exact ih (h.apply hmax (hevents event List.mem_cons_self) hfirst)
      (fun event' hevent' ↦ hevents event' (List.mem_cons_of_mem _ hevent')) hfits

/-- A new artifact is open and holds nothing. -/
theorem writing_create (h : store.create owner attempts = (.ok artifactId, store')) :
    Writing store.limits artifactId owner [] store' := by
  induction attempts with
  | nil => cases h
  | cons attempt attempts ih =>
    obtain ⟨id, opened⟩ := attempt
    cases opened with
    | alreadyExists => exact ih h
    | failed => cases h
    | created =>
      rw [create] at h
      obtain hnone | ⟨record, hsome⟩ := Option.eq_none_or_eq_some (store.entries.lookup id)
      · rw [hnone] at h
        cases h
        refine ⟨rfl, ?_⟩
        rw [Table.lookup_insert, if_pos rfl, kept, List.take_nil]
        rfl
      · rw [hsome] at h
        exact ih h

theorem writing_start {directory : Bool} (h : store.start owner directory attempts = (.ok artifactId, store')) :
    Writing store.limits artifactId owner [] store' := by
  rw [RawArtifactStore.start] at h
  split at h
  · exact writing_create h
  · cases h

/-- **The answer of `finish`.** It depends on the bytes that were written, whatever the chunks and whatever happens to
other artifacts in between, and it is honest about them. -/
theorem finish_of_run {started : RawArtifactStore} {directory : Bool} {attempts : List (String × Opened)}
    {events : List ArtifactEvent} (hmax : store.limits.maxBytes ≤ u64Max)
    (hstart : store.start owner directory attempts = (.ok artifactId, started))
    (hevents : ∀ event ∈ events, event.Undisturbed artifactId owner)
    (hbytes : events.flatMap (chunkFor artifactId) = bytes) (hfits : bytes.length ≤ store.limits.maxBytes) :
    ((Machine.run ArtifactEvent.apply started events).finish artifactId mode true).1 =
        .ok (describe store.limits artifactId mode bytes) ∧
      Honest store.limits mode bytes (describe store.limits artifactId mode bytes) := by
  refine ⟨?_, honest_describe⟩
  obtain ⟨hlimits, hrecord⟩ := (writing_start hstart).run hmax hevents (by rwa [hbytes])
  rw [List.nil_append, hbytes] at hrecord
  rw [RawArtifactStore.finish, hrecord]
  simp only [hlimits]
  rfl

/-- Two chunks that divide a code point, while the artifacts of another tab are released. -/
theorem finish_of_run_divided :
    ((Machine.run ArtifactEvent.apply (RawArtifactStore.start ⟨⟨32, 3, 2⟩, ∅⟩ ⟨"profile", "tab", "execution"⟩ true
        [("artifact", .created)]).2
        [.write "artifact" [0xC3] true false, .release (·.tabId == "other") fun _ ↦ false,
          .write "artifact" [0xA9, 0xE5, 0xA5, 0xBD] true false]).finish "artifact" .text true).1 =
        .ok (describe ⟨32, 3, 2⟩ "artifact" .text [0xC3, 0xA9, 0xE5, 0xA5, 0xBD]) ∧
      Honest ⟨32, 3, 2⟩ .text [0xC3, 0xA9, 0xE5, 0xA5, 0xBD]
        (describe ⟨32, 3, 2⟩ "artifact" .text [0xC3, 0xA9, 0xE5, 0xA5, 0xBD]) := by
  refine @finish_of_run "artifact" .text [0xC3, 0xA9, 0xE5, 0xA5, 0xBD] ⟨"profile", "tab", "execution"⟩
    ⟨⟨32, 3, 2⟩, ∅⟩ _ true [("artifact", .created)] _ (by decide) rfl ?_ rfl (by decide)
  intro event hevent
  simp only [List.mem_cons, List.not_mem_nil, or_false] at hevent
  obtain rfl | rfl | rfl := hevent
  · exact fun _ ↦ rfl
  · rfl
  · exact fun _ ↦ rfl

end Execution
