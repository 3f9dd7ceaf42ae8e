import NexusPilot.ClickHouse.TypeName
import NexusPilot.Drivers.Error
import NexusPilot.Text.Json

/-!
# The decoder of a query result

`FormatDecoder`: a result comes as lines of JSON, the first with the names of the columns, the second with their types
and each further one with a row. The decoder is given the bytes in chunks that end anywhere. It keeps what is behind the
last line feed, so that the chunks make no difference (`decode_eq_of_flatten`).

The parser of JSON and `normalize_value` are parameters, `FrameReader`: the decoder hands a line to them as it is.
-/

namespace ClickHouse

open Drivers

/-! ### Columns -/

/-- `ColumnDataCategory`. -/
inductive ColumnDataCategory
  | string
  | number
  | boolean
  | date
  | time
  | datetime
  | json
  | structured
  | enum
  | binary
  | uuid
  | unknown
  deriving DecidableEq

/-- `is_nullable`. -/
def ClickHouseType.isNullable : ClickHouseType → Bool
  | nullable _ => true
  | lowCardinality inner => inner.isNullable
  | _ => false

/-- `data_category`. -/
def ClickHouseType.dataCategory : ClickHouseType → ColumnDataCategory
  | nullable inner => inner.dataCategory
  | lowCardinality inner => inner.dataCategory
  | int _ _ | float _ | decimal _ _ _ => .number
  | bool => .boolean
  | date | date32 => .date
  | dateTime _ | dateTime64 _ _ => .datetime
  | uuid => .uuid
  | enum _ _ => .enum
  | jsonOrObject _ => .json
  | array _ | map _ _ | tuple _ | nested _ | variant _ => .structured
  | string | fixedString _ | ipv4 | ipv6 => .string
  | unknown _ => .unknown

/-- `unwrap_metadata_type`. -/
def unwrapMetadataType : ClickHouseType → ClickHouseType
  | .nullable inner => unwrapMetadataType inner
  | .lowCardinality inner => unwrapMetadataType inner
  | ty => ty

/-- `ColumnMeta`, for a column of a query. -/
structure QueryColumn where
  name : String
  typeName : String
  nullable : Bool
  defaultValue : Option String := none
  dataCategory : ColumnDataCategory
  maxLength : Option ℕ := none
  numericPrecision : Option ℕ := none
  numericScale : Option ℕ := none
  enumValues : Option (List String) := none
  isPrimaryKey : Bool := false
  primaryKeyOrdinal : Option ℕ := none
  isUnique : Bool := false
  isWritable : Bool := false
  deriving DecidableEq

/-- The largest `i64`. -/
def i64Max : ℕ :=
  9223372036854775807

/-- `column_meta`. -/
def columnMeta (name typeName : String) (ty : ClickHouseType) : QueryColumn :=
  let column : QueryColumn :=
    { name := name, typeName := typeName, nullable := ty.isNullable, dataCategory := ty.dataCategory }
  match unwrapMetadataType ty with
  | .decimal _ precision scale => { column with numericPrecision := some precision, numericScale := some scale }
  | .fixedString length => { column with maxLength := if length ≤ i64Max then some length else none }
  | .enum _ variants => { column with enumValues := some (variants.map (·.1)) }
  | _ => column

/-! ### Limits and errors -/

/-- `ValueBudget`. -/
structure ValueBudget where
  maxSerializedBytes : ℕ := 4 * 1024 * 1024
  maxDepth : ℕ := 64
  maxNodes : ℕ := 100000
  deriving DecidableEq

/-- `QueryLimits`. -/
structure QueryLimits where
  maxResponseBytes : ℕ := 32 * 1024 * 1024
  maxRowBytes : ℕ := 8 * 1024 * 1024
  valueBudget : ValueBudget := {}
  deriving DecidableEq

/-- What the parser of JSON says about a text that is none. -/
structure JsonError where
  line : ℕ
  column : ℕ
  category : String
  deriving DecidableEq

/-- `decode_error`. -/
def decodeError (kind details : String) : IpcError where
  code := .systemInternal
  message := "ClickHouse returned an invalid query result"
  details := some s!"kind={kind}; {details}"

/-- `limit_error`. -/
def limitError (limit : String) (actual maximum : ℕ) : IpcError where
  code := .validationFailed
  message := "ClickHouse query result exceeds the safe display limit"
  details := some s!"limit={limit}; actual={actual}; maximum={maximum}"

/-- `response_limit_error`. -/
def responseLimitError (actual maximum : ℕ) : IpcError :=
  limitError "response_bytes" actual maximum

/-- `row_limit_error`. -/
def rowLimitError (actual maximum : ℕ) : IpcError :=
  limitError "row_bytes" actual maximum

/-- What reads a line: the parser of JSON for a list of strings and for a list of values, and `normalize_value`. -/
structure FrameReader where
  parseStrings : List UInt8 → Except JsonError (List String)
  parseValues : List UInt8 → Except JsonError (List Json)
  normalizeValue : ClickHouseType → Json → ValueBudget → IpcResult Json

/-- `parse_json_frame`. -/
def parseJsonFrame {α : Type} (parse : List UInt8 → Except JsonError α) (frame : List UInt8) (frameKind : String) :
    IpcResult α :=
  match parse frame with
  | .ok value => .ok value
  | .error error => .error (decodeError "invalid_json"
      s!"frame={frameKind}; line={error.line}; column={error.column}; category={error.category}")

/-! ### The decoder -/

/-- A row of a result. -/
abbrev ResultRow := List Json

/-- `DecoderState`. -/
inductive DecoderState
  | names
  | types (names : List String)
  | rows (columns : List QueryColumn) (parsedTypes : List ClickHouseType)

/-- `DecodedWindow`. -/
structure DecodedWindow where
  columns : List QueryColumn
  rows : List ResultRow
  isStatusOnly : Bool

/-- `FormatDecoder`. -/
structure FormatDecoder where
  limits : QueryLimits
  state : DecoderState
  pendingFrame : List UInt8
  rows : List ResultRow
  responseBytes : ℕ
  sawFrame : Bool

/-- `FormatDecoder::new`. -/
def FormatDecoder.new (limits : QueryLimits) : FormatDecoder :=
  ⟨limits, .names, [], [], 0, false⟩

/-- The columns of the headers, with their types. -/
def headerColumns : List (String × String) → IpcResult (List (QueryColumn × ClickHouseType))
  | [] => .ok []
  | (name, typeName) :: rest =>
    match parseType typeName with
    | .error error => .error (decodeError "type_syntax" s!"type={typeName}; error={error}")
    | .ok parsedType => do
      let columns ← headerColumns rest
      pure ((columnMeta name typeName parsedType, parsedType) :: columns)

/-- `process_frame`: the next state, and the row if the line is one. A decoder whose line fails is given up. -/
def processFrame (reader : FrameReader) (limits : QueryLimits) (state : DecoderState) (frame : List UInt8) :
    IpcResult (DecoderState × Option ResultRow) :=
  match state with
  | .names => do
    let names ← parseJsonFrame reader.parseStrings frame "names"
    pure (.types names, none)
  | .types names => do
    let typeNames ← parseJsonFrame reader.parseStrings frame "types"
    if typeNames.length ≠ names.length then
      .error (decodeError "header_width" s!"names={names.length}; types={typeNames.length}")
    else do
      let columns ← headerColumns (names.zip typeNames)
      pure (.rows (columns.map (·.1)) (columns.map (·.2)), none)
  | .rows columns parsedTypes =>
    if limits.maxRowBytes < frame.length then .error (rowLimitError frame.length limits.maxRowBytes)
    else do
      let values ← parseJsonFrame reader.parseValues frame "row"
      if values.length ≠ columns.length then
        .error (decodeError "row_width" s!"columns={columns.length}; values={values.length}")
      else do
        let row ← (parsedTypes.zip values).mapM fun pair ↦ reader.normalizeValue pair.1 pair.2 limits.valueBudget
        pure (.rows columns parsedTypes, some row)

/-- The byte of a line feed. -/
def lineFeed : UInt8 := 10

/-- `u8::is_ascii_whitespace`. -/
def isAsciiSpaceByte (b : UInt8) : Bool :=
  b == 32 || b == 9 || b == 10 || b == 12 || b == 13

/-- A line without the carriage return at its end. -/
def withoutCarriageReturn (frame : List UInt8) : List UInt8 :=
  if frame.getLast? = some 13 then frame.dropLast else frame

/-- The fields of the decoder that the loop over the lines writes. -/
structure FrameProgress where
  state : DecoderState
  pendingFrame : List UInt8
  sawFrame : Bool

section Loop

variable {σ : Type} (reader : FrameReader) (onRow : σ → ResultRow → σ × Bool)

/-- The loop of `push_with_rows` over the pending bytes, of which `frame` are those of the line that has begun. The
callback has a state of its own, and it says whether to stop. -/
def frameLoop (limits : QueryLimits) (state : DecoderState) (sawFrame : Bool) (s : σ) (frame : List UInt8) :
    List UInt8 → IpcResult (FrameProgress × σ × Bool)
  | [] => .ok (⟨state, frame, sawFrame⟩, s, false)
  | b :: rest =>
    if b ≠ lineFeed then frameLoop limits state sawFrame s (frame ++ [b]) rest
    else if (withoutCarriageReturn frame).all isAsciiSpaceByte then frameLoop limits state sawFrame s [] rest
    else do
      let (state, row) ← processFrame reader limits state (withoutCarriageReturn frame)
      match row with
      | none => frameLoop limits state true s [] rest
      | some row =>
        if (onRow s row).2 then pure (⟨state, rest, true⟩, (onRow s row).1, true)
        else frameLoop limits state true (onRow s row).1 [] rest

/-- `push_with_rows`. -/
def FormatDecoder.pushWithRows (decoder : FormatDecoder) (s : σ) (bytes : List UInt8) :
    IpcResult (FormatDecoder × σ × Bool) :=
  let responseBytes := decoder.responseBytes + bytes.length
  if usizeMax < responseBytes then .error (responseLimitError usizeMax decoder.limits.maxResponseBytes)
  else if decoder.limits.maxResponseBytes < responseBytes then
    .error (responseLimitError responseBytes decoder.limits.maxResponseBytes)
  else do
    let (progress, s, stopped) ← frameLoop reader onRow decoder.limits decoder.state decoder.sawFrame s []
      (decoder.pendingFrame ++ bytes)
    pure (⟨decoder.limits, progress.state, progress.pendingFrame, decoder.rows, responseBytes, progress.sawFrame⟩, s,
      stopped)

end Loop

/-- The callback of `push`. -/
def collectRow (rows : List ResultRow) (row : ResultRow) : List ResultRow × Bool :=
  (rows ++ [row], false)

/-- `push`. -/
def FormatDecoder.push (reader : FrameReader) (decoder : FormatDecoder) (bytes : List UInt8) :
    IpcResult FormatDecoder := do
  let (decoder, decodedRows, _) ← decoder.pushWithRows reader collectRow [] bytes
  pure { decoder with rows := decoder.rows ++ decodedRows }

/-- `columns`. -/
def FormatDecoder.columns (decoder : FormatDecoder) : Option (List QueryColumn) :=
  match decoder.state with
  | .rows columns _ => some columns
  | _ => none

/-- `finish`. -/
def FormatDecoder.finish (decoder : FormatDecoder) : IpcResult DecodedWindow :=
  if decoder.pendingFrame.any fun b ↦ !isAsciiSpaceByte b then
    .error (decodeError "incomplete_frame" "response ended before the current JSON frame was complete")
  else match decoder.state with
    | .names =>
      if decoder.sawFrame then .error (decodeError "missing_names" "response did not contain a names header")
      else .ok ⟨[], [], true⟩
    | .types _ => .error (decodeError "missing_types" "response ended before the types header")
    | .rows columns _ => .ok ⟨columns, decoder.rows, false⟩

/-- A stream of bytes, fed to a new decoder in chunks. -/
def decode (reader : FrameReader) (limits : QueryLimits) (chunks : List (List UInt8)) : IpcResult DecodedWindow := do
  let decoder ← chunks.foldlM (FormatDecoder.push reader) (FormatDecoder.new limits)
  decoder.finish

/-! ### The loop over a text in two parts -/

section Loop

variable {σ : Type} {reader : FrameReader} {onRow : σ → ResultRow → σ × Bool} {limits : QueryLimits}

/-- **The loop goes on** where it was: a text in two parts is read in two goes, unless the callback stops the first. -/
theorem frameLoop_append (state : DecoderState) (sawFrame : Bool) (s : σ) (frame xs ys : List UInt8) :
    frameLoop reader onRow limits state sawFrame s frame (xs ++ ys) =
      frameLoop reader onRow limits state sawFrame s frame xs >>= fun r ↦
        if r.2.2 then .ok (⟨r.1.state, r.1.pendingFrame ++ ys, r.1.sawFrame⟩, r.2)
        else frameLoop reader onRow limits r.1.state r.1.sawFrame r.2.1 r.1.pendingFrame ys := by
  induction xs generalizing state sawFrame s frame with
  | nil => rfl
  | cons b rest ih =>
    rw [List.cons_append, frameLoop, frameLoop]
    split
    · exact ih state sawFrame s _
    · split
      · exact ih state sawFrame s []
      · cases processFrame reader limits state (withoutCarriageReturn frame) with
        | error e => rfl
        | ok result =>
          obtain ⟨state, row⟩ := result
          cases row with
          | none => exact ih state true s []
          | some row =>
            simp only [bind, Except.bind]
            split
            · rfl
            · exact ih state true _ []

/-- The bytes of a line that has begun are not looked at again. -/
theorem frameLoop_frame {front : List UInt8} (hfront : lineFeed ∉ front) (state : DecoderState) (sawFrame : Bool)
    (s : σ) (frame bytes : List UInt8) :
    frameLoop reader onRow limits state sawFrame s frame (front ++ bytes) =
      frameLoop reader onRow limits state sawFrame s (frame ++ front) bytes := by
  induction front generalizing frame with
  | nil => rw [List.nil_append, List.append_nil]
  | cons b front ih =>
    have hb : b ≠ lineFeed := fun heq ↦ hfront (heq ▸ List.mem_cons_self)
    rw [List.cons_append, frameLoop, if_pos hb, ih (fun h ↦ hfront (List.mem_cons_of_mem _ h)), List.append_assoc]
    rfl

/-- What is pending after the loop is no whole line. -/
theorem lineFeed_notMem_of_frameLoop {state : DecoderState} {sawFrame : Bool} {s : σ} {frame bytes : List UInt8}
    {r : FrameProgress × σ × Bool} (hframe : lineFeed ∉ frame)
    (h : frameLoop reader onRow limits state sawFrame s frame bytes = .ok r) (hstop : r.2.2 = false) :
    lineFeed ∉ r.1.pendingFrame := by
  induction bytes generalizing state sawFrame s frame with
  | nil =>
    cases h
    exact hframe
  | cons b rest ih =>
    rw [frameLoop] at h
    split at h
    · next hb =>
      refine ih (fun hmem ↦ ?_) h
      obtain hmem | hmem := List.mem_append.1 hmem
      · exact hframe hmem
      · exact hb (List.mem_singleton.1 hmem).symm
    · split at h
      · exact ih List.not_mem_nil h
      · obtain ⟨⟨state, row⟩, -, h⟩ := bind_eq_ok_iff.1 h
        cases row with
        | none => exact ih List.not_mem_nil h
        | some row =>
          simp only at h
          split at h
          · cases h
            cases hstop
          · exact ih List.not_mem_nil h

end Loop

/-! ### Chunks -/

section Chunks

variable {reader : FrameReader} {limits : QueryLimits}

theorem map_eq_ok_iff {ε α β : Type} {x : Except ε α} {f : α → β} {r : β} :
    x.map f = .ok r ↔ ∃ a, x = .ok a ∧ f a = r := by
  cases x with
  | error e => exact ⟨fun h ↦ (nomatch h), fun ⟨_, h, _⟩ ↦ (nomatch h)⟩
  | ok a => exact ⟨fun h ↦ ⟨a, rfl, Except.ok.inj h⟩, fun ⟨_, ha, h⟩ ↦ by cases ha; exact congrArg _ h⟩

/-- Rows that are collected already stay in front. -/
theorem frameLoop_collectRow (state : DecoderState) (sawFrame : Bool) (front rows : List ResultRow)
    (frame bytes : List UInt8) :
    frameLoop reader collectRow limits state sawFrame (front ++ rows) frame bytes =
      (frameLoop reader collectRow limits state sawFrame rows frame bytes).map fun r ↦
        (r.1, front ++ r.2.1, r.2.2) := by
  induction bytes generalizing state sawFrame rows frame with
  | nil => rfl
  | cons b rest ih =>
    rw [frameLoop, frameLoop]
    split
    · exact ih state sawFrame rows _
    · split
      · exact ih state sawFrame rows []
      · cases processFrame reader limits state (withoutCarriageReturn frame) with
        | error e => rfl
        | ok result =>
          obtain ⟨state, row⟩ := result
          cases row with
          | none => exact ih state true rows []
          | some row =>
            simp only [bind, Except.bind, collectRow, Bool.false_eq_true, if_false, List.append_assoc]
            exact ih state true _ []

variable {bytes : List UInt8} {decoder next : FormatDecoder} {chunks : List (List UInt8)}

theorem not_stopped_collectRow {state : DecoderState} {sawFrame : Bool} {rows : List ResultRow}
    {frame : List UInt8} {r : FrameProgress × List ResultRow × Bool}
    (h : frameLoop reader collectRow limits state sawFrame rows frame bytes = .ok r) : r.2.2 = false := by
  induction bytes generalizing state sawFrame rows frame with
  | nil =>
    cases h
    rfl
  | cons b rest ih =>
    rw [frameLoop] at h
    split at h
    · exact ih h
    · split at h
      · exact ih h
      · obtain ⟨⟨state, row⟩, -, h⟩ := bind_eq_ok_iff.1 h
        cases row with
        | none => exact ih h
        | some row => exact ih h

/-- The bytes that the decoder takes. -/
def FormatDecoder.Takes (decoder : FormatDecoder) (bytes : List UInt8) : Prop :=
  decoder.responseBytes + bytes.length ≤ usizeMax ∧
    decoder.responseBytes + bytes.length ≤ decoder.limits.maxResponseBytes

/-- Between two calls, the decoder has read all whole lines and stayed within its limit. -/
structure FormatDecoder.Ready (decoder : FormatDecoder) : Prop where
  htakes : decoder.Takes []
  hpending : lineFeed ∉ decoder.pendingFrame

/-- **What a call of `push` does**: the lines are read on from the one that has begun. -/
theorem push_eq_ok_iff (hready : decoder.Ready) :
    decoder.push reader bytes = .ok next ↔ decoder.Takes bytes ∧
      ∃ progress rows, frameLoop reader collectRow decoder.limits decoder.state decoder.sawFrame decoder.rows
          decoder.pendingFrame bytes = .ok (progress, rows, false) ∧
        next = ⟨decoder.limits, progress.state, progress.pendingFrame, rows, decoder.responseBytes + bytes.length,
          progress.sawFrame⟩ := by
  have hloop : frameLoop reader collectRow decoder.limits decoder.state decoder.sawFrame decoder.rows
      decoder.pendingFrame bytes = (frameLoop reader collectRow decoder.limits decoder.state decoder.sawFrame [] []
        (decoder.pendingFrame ++ bytes)).map fun r ↦ (r.1, decoder.rows ++ r.2.1, r.2.2) := by
    rw [frameLoop_frame hready.hpending, List.nil_append, ← frameLoop_collectRow, List.append_nil]
  rw [hloop, FormatDecoder.push, FormatDecoder.pushWithRows]
  simp only [bind_eq_ok_iff, ite_error_eq_ok_iff, Nat.not_lt]
  constructor
  · rintro ⟨_, ⟨husize, hlimit, ⟨progress, rows, stopped⟩, hread, h⟩, hnext⟩
    cases h
    cases hnext
    cases not_stopped_collectRow hread
    exact ⟨⟨husize, hlimit⟩, progress, _, by rw [hread]; rfl, rfl⟩
  · rintro ⟨htakes, progress, rows, hread, rfl⟩
    obtain ⟨⟨progress', rows', stopped⟩, hraw, h⟩ := map_eq_ok_iff.1 hread
    cases h
    exact ⟨_, ⟨htakes.1, htakes.2, _, hraw, rfl⟩, rfl⟩

theorem FormatDecoder.Ready.push {decoder next : FormatDecoder} (hready : decoder.Ready) {bytes : List UInt8}
    (h : decoder.push reader bytes = .ok next) : next.Ready := by
  obtain ⟨htakes, progress, rows, hloop, rfl⟩ := (push_eq_ok_iff hready).1 h
  exact ⟨htakes, lineFeed_notMem_of_frameLoop hready.hpending hloop rfl⟩

/-- A chunk in two parts is two chunks. -/
theorem push_append_eq_ok_iff (hready : decoder.Ready) {xs ys : List UInt8} :
    decoder.push reader (xs ++ ys) = .ok next ↔
      ∃ between, decoder.push reader xs = .ok between ∧ between.push reader ys = .ok next := by
  have hsum : decoder.responseBytes + (xs ++ ys).length = decoder.responseBytes + xs.length + ys.length := by
    rw [List.length_append, Nat.add_assoc]
  constructor
  · intro h
    obtain ⟨htakes, progress, rows, hloop, rfl⟩ := (push_eq_ok_iff hready).1 h
    rw [FormatDecoder.Takes, hsum] at htakes
    rw [frameLoop_append] at hloop
    obtain ⟨⟨first, firstRows, stopped⟩, hfirst, hloop⟩ := bind_eq_ok_iff.1 hloop
    cases not_stopped_collectRow hfirst
    have hpush := (push_eq_ok_iff hready).2
      ⟨⟨(Nat.le_add_right _ _).trans htakes.1, (Nat.le_add_right _ _).trans htakes.2⟩, first, firstRows, hfirst, rfl⟩
    refine ⟨_, hpush, (push_eq_ok_iff (hready.push hpush)).2 ⟨htakes, progress, rows, hloop, ?_⟩⟩
    rw [hsum]
  · rintro ⟨between, hpush, h⟩
    obtain ⟨htakes, progress, rows, hloop, rfl⟩ := (push_eq_ok_iff (hready.push hpush)).1 h
    obtain ⟨-, first, firstRows, hfirst, rfl⟩ := (push_eq_ok_iff hready).1 hpush
    refine (push_eq_ok_iff hready).2 ⟨?_, progress, rows, ?_, ?_⟩
    · rw [FormatDecoder.Takes, hsum]
      exact htakes
    · rw [frameLoop_append, hfirst]
      exact hloop
    · rw [hsum]

theorem push_nil (hready : decoder.Ready) : decoder.push reader [] = .ok decoder :=
  (push_eq_ok_iff hready).2 ⟨hready.htakes, _, _, rfl, rfl⟩

/-- Chunks are read as their bytes in one chunk. -/
theorem foldlM_push_eq_ok_iff (hready : decoder.Ready) :
    chunks.foldlM (FormatDecoder.push reader) decoder = .ok next ↔
      decoder.push reader chunks.flatten = .ok next := by
  induction chunks generalizing decoder with
  | nil =>
    rw [List.flatten_nil, push_nil hready]
    exact Iff.rfl
  | cons chunk chunks ih =>
    rw [List.foldlM_cons, List.flatten_cons, push_append_eq_ok_iff hready, bind_eq_ok_iff]
    exact exists_congr fun between ↦ and_congr_right fun h ↦ ih (hready.push h)

theorem ready_new : (FormatDecoder.new limits).Ready :=
  ⟨⟨Nat.zero_le _, Nat.zero_le _⟩, List.not_mem_nil⟩

/-- A stream in chunks is decoded like its bytes in one chunk. -/
theorem decode_eq_ok_iff {window : DecodedWindow} :
    decode reader limits chunks = .ok window ↔ decode reader limits [chunks.flatten] = .ok window := by
  have hone : [chunks.flatten].flatten = chunks.flatten := by simp
  rw [decode, decode, bind_eq_ok_iff, bind_eq_ok_iff]
  refine exists_congr fun decoder ↦ and_congr_left fun _ ↦ ?_
  rw [foldlM_push_eq_ok_iff ready_new, foldlM_push_eq_ok_iff ready_new, hone]

/-- **Chunks make no difference**: two ways of cutting a stream into chunks are decoded to the same columns, rows and
status, or both are not decoded. -/
theorem decode_iff_of_flatten {chunks chunks' : List (List UInt8)} (h : chunks.flatten = chunks'.flatten)
    (window : DecodedWindow) : decode reader limits chunks = .ok window ↔ decode reader limits chunks' = .ok window := by
  rw [decode_eq_ok_iff, h, ← decode_eq_ok_iff]

end Chunks

namespace FormatSample

def bytesOf (text : String) : List UInt8 :=
  text.toList.map fun c ↦ UInt8.ofNat c.toNat

/-- What is read of the sample: one column of numbers, which stay as they are. -/
def reader : FrameReader where
  parseStrings frame :=
    if frame = bytesOf "[\"id\"]" then .ok ["id"]
    else if frame = bytesOf "[\"UInt64\"]" then .ok ["UInt64"]
    else .error ⟨1, 1, "Syntax"⟩
  parseValues frame :=
    match frame with
    | [91, digit, 93] =>
      if 48 ≤ digit ∧ digit ≤ 57 then .ok [.num (String.ofList [Char.ofNat digit.toNat])] else .error ⟨1, 2, "Syntax"⟩
    | _ => .error ⟨1, 1, "Syntax"⟩
  normalizeValue _ value _ := .ok value

/-- A result with one row, cut in a line and between a carriage return and its line feed. -/
theorem decode_cut : ∃ window,
    decode reader {} [bytesOf "[\"i", bytesOf "d\"]\r", bytesOf "\n[\"UInt64\"]\n[7]\n"] = .ok window ∧
      decode reader {} [bytesOf "[\"id\"]\r\n[\"UInt64\"]\n[7]\n"] = .ok window := by
  obtain ⟨window, hwindow⟩ :
      ∃ window, decode reader {} [bytesOf "[\"id\"]\r\n[\"UInt64\"]\n[7]\n"] = .ok window := ⟨_, rfl⟩
  exact ⟨window, (decode_iff_of_flatten (by decide) window).2 hwindow, hwindow⟩

end FormatSample

end ClickHouse
