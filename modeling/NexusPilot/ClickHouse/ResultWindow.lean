import NexusPilot.ClickHouse.Format

/-!
# A page of a query result

`decode_window_until_shutdown`: a stream is decoded as far as a page of its rows needs, and one row more, which tells
whether there is a next page. The rows are counted in the callback of the decoder, which skips, keeps and stops, so that
the decoder may stop in the middle of a chunk.

`feed` is what the callback does with the rows of the whole stream. `windowLoop_eq` says that the loop over the chunks
comes to the same, and `decodeWindow_page` that a page is what it should be.
-/

namespace ClickHouse

open Drivers

/-! ### The loop -/

/-- `QueryWindow`. -/
structure QueryWindow where
  skipRows : ℕ
  pageSize : ℕ
  deriving DecidableEq

/-- `QueryResult`, without the type of its locator strategy, which is never set here. -/
structure GridResult where
  columns : List QueryColumn
  rows : List ResultRow
  affectedRows : Option ℕ
  hasNextPage : Bool
  sourceWritable : Bool
  sourceInsertable : Bool
  primaryKeyColumns : List String
  stableOrderColumns : List String

/-- `DecodedQueryOutcome`; the summary is what the source has at its end. -/
structure DecodedQueryOutcome (Summary : Type) where
  result : GridResult
  summary : Option Summary

/-- What wakes the loop: the shutdown channel, with whether it is closed and the value that is in it, or the source,
with an error as `classify_query_error` makes it, a chunk or the end. -/
inductive Wake
  | changed (closed value : Bool)
  | next (result : IpcResult (Option (List UInt8)))

/-- `MAX_FREE_SQL_SKIP_ROWS`. -/
def maxFreeSqlSkipRows : ℕ :=
  100000

/-- `MAX_PAGE_SIZE`. -/
def maxPageSize : ℕ :=
  1000

/-- `validate_free_sql_window`. -/
def validateFreeSqlWindow (window : QueryWindow) : IpcResult Unit :=
  if maxFreeSqlSkipRows < window.skipRows then
    .error (.invalid s!"ClickHouse SQL paging can skip at most {maxFreeSqlSkipRows} rows; add a filter or LIMIT")
  else if ¬ (1 ≤ window.pageSize ∧ window.pageSize ≤ maxPageSize) then
    .error (.invalid s!"ClickHouse page size must be between 1 and {maxPageSize}")
  else .ok ()

/-- `query_canceled`. -/
def queryCanceled : IpcError where
  code := .operationCanceled
  message := "ClickHouse query canceled"
  details := some "the owning runtime is closing"

/-- `readonly_query_result`. -/
def readonlyQueryResult (columns : List QueryColumn) (rows : List ResultRow) (pageSize : ℕ) : GridResult where
  columns := columns
  rows := rows.take pageSize
  affectedRows := none
  hasNextPage := decide (pageSize < rows.length)
  sourceWritable := false
  sourceInsertable := false
  primaryKeyColumns := []
  stableOrderColumns := []

/-- The variables that the callback captures. -/
structure WindowRows where
  skippedRows : ℕ := 0
  retainedRows : List ResultRow := []

/-- The callback: a row is skipped or kept, and one row behind the page is the last one. -/
def windowRow (window : QueryWindow) (retainedLimit : ℕ) (s : WindowRows) (row : ResultRow) : WindowRows × Bool :=
  if s.skippedRows < window.skipRows then (⟨s.skippedRows + 1, s.retainedRows⟩, false)
  else (⟨s.skippedRows, s.retainedRows ++ [row]⟩, decide (retainedLimit ≤ (s.retainedRows ++ [row]).length))

section Loop

variable {Summary : Type} (reader : FrameReader) (summary : List Wake → Option Summary) (window : QueryWindow)

/-- The loop of `decode_window_until_shutdown`. Without a wake it waits. -/
def windowLoop (retainedLimit : ℕ) (decoder : FormatDecoder) (s : WindowRows) :
    List Wake → Option (IpcResult (DecodedQueryOutcome Summary))
  | [] => none
  | .changed closed value :: wakes =>
    if closed || value then some (.error queryCanceled) else windowLoop retainedLimit decoder s wakes
  | .next (.error error) :: _ => some (.error error)
  | .next (.ok none) :: wakes =>
    some (decoder.finish.map fun decoded ↦
      ⟨readonlyQueryResult decoded.columns s.retainedRows window.pageSize, summary wakes⟩)
  | .next (.ok (some chunk)) :: wakes =>
    match decoder.pushWithRows reader (windowRow window retainedLimit) s chunk with
    | .error error => some (.error error)
    | .ok (decoder, s, true) =>
      match decoder.columns with
      | none => some (.error (.internal "ClickHouse query result is missing headers"
          "decoder stopped before headers were complete"))
      | some columns => some (.ok ⟨readonlyQueryResult columns s.retainedRows window.pageSize, summary wakes⟩)
    | .ok (decoder, s, false) => windowLoop retainedLimit decoder s wakes

/-- `decode_window_until_shutdown`; `closing` is the value in the shutdown channel at the start. -/
def decodeWindowUntilShutdown (limits : QueryLimits) (closing : Bool) (wakes : List Wake) :
    Option (IpcResult (DecodedQueryOutcome Summary)) :=
  match validateFreeSqlWindow window with
  | .error error => some (.error error)
  | .ok () =>
    if closing then some (.error queryCanceled)
    else if usizeMax < window.pageSize + 1 then some (.error (.invalid "ClickHouse page size is too large"))
    else windowLoop reader summary window (window.pageSize + 1) (FormatDecoder.new limits) {} wakes

end Loop

/-! ### The callback on the rows of a stream -/

section Feed

variable {σ : Type} (onRow : σ → ResultRow → σ × Bool)

/-- A callback on the rows of a stream, until it stops. -/
def feed : σ → List ResultRow → σ × Bool
  | s, [] => (s, false)
  | s, row :: rows => if (onRow s row).2 then ((onRow s row).1, true) else feed (onRow s row).1 rows

variable {onRow}

theorem feed_append (s : σ) (xs ys : List ResultRow) :
    feed onRow s (xs ++ ys) = if (feed onRow s xs).2 then feed onRow s xs else feed onRow (feed onRow s xs).1 ys := by
  induction xs generalizing s with
  | nil => rfl
  | cons row xs ih =>
    rw [List.cons_append, feed, feed]
    split
    · rfl
    · exact ih _

end Feed

theorem feed_windowRow_from (window : QueryWindow) (s : WindowRows) (rows : List ResultRow)
    (hs : s.retainedRows.length ≤ window.pageSize) :
    (feed (windowRow window (window.pageSize + 1)) s rows).1.retainedRows =
        (s.retainedRows ++ rows.drop (window.skipRows - s.skippedRows)).take (window.pageSize + 1) ∧
      (feed (windowRow window (window.pageSize + 1)) s rows).2 =
        decide (window.pageSize < (s.retainedRows ++ rows.drop (window.skipRows - s.skippedRows)).length) := by
  induction rows generalizing s with
  | nil =>
    rw [List.drop_nil, List.append_nil, List.take_of_length_le (hs.trans (Nat.le_succ _)),
      decide_eq_false (Nat.not_lt.2 hs)]
    exact ⟨rfl, rfl⟩
  | cons row rows ih =>
    rw [feed, windowRow]
    split
    · next hskip =>
      obtain ⟨k, hk⟩ := Nat.exists_eq_add_of_lt hskip
      have hdrop : (row :: rows).drop (window.skipRows - s.skippedRows) =
          rows.drop (window.skipRows - (s.skippedRows + 1)) := by
        rw [show window.skipRows - s.skippedRows = (window.skipRows - (s.skippedRows + 1)) + 1 by omega,
          List.drop_succ_cons]
      rw [hdrop, if_neg Bool.false_ne_true]
      exact ih _ hs
    · next hskip =>
      have hdrop : ∀ rows : List ResultRow, rows.drop (window.skipRows - s.skippedRows) = rows := fun rows ↦ by
        rw [Nat.sub_eq_zero_of_le (Nat.not_lt.1 hskip), List.drop_zero]
      have happend : s.retainedRows ++ row :: rows = (s.retainedRows ++ [row]) ++ rows := by simp
      rw [hdrop, happend]
      by_cases hlast : window.pageSize + 1 ≤ (s.retainedRows ++ [row]).length
      · -- one row more than the page holds
        have hlength : (s.retainedRows ++ [row]).length = window.pageSize + 1 := by
          rw [List.length_append, List.length_singleton] at hlast ⊢
          omega
        have htake : ((s.retainedRows ++ [row]) ++ rows).take (window.pageSize + 1) = s.retainedRows ++ [row] := by
          rw [← hlength, List.take_left]
        have hmore : window.pageSize < ((s.retainedRows ++ [row]) ++ rows).length := by
          rw [List.length_append, hlength]
          omega
        rw [if_pos (decide_eq_true hlast), htake, decide_eq_true hmore]
        exact ⟨rfl, rfl⟩
      · rw [if_neg (by simpa using hlast)]
        have hrest := ih ⟨s.skippedRows, s.retainedRows ++ [row]⟩ (by simp only; omega)
        rwa [hdrop] at hrest

/-- **What the callback keeps** of some rows: those behind the skipped ones, and one more than the page holds at most. -/
theorem feed_windowRow (window : QueryWindow) (rows : List ResultRow) :
    (feed (windowRow window (window.pageSize + 1)) {} rows).1.retainedRows =
        (rows.drop window.skipRows).take (window.pageSize + 1) ∧
      (feed (windowRow window (window.pageSize + 1)) {} rows).2 =
        decide (window.pageSize < (rows.drop window.skipRows).length) :=
  feed_windowRow_from window {} rows (Nat.zero_le _)

/-! ### The rows that the loop finds -/

/-- The columns, once the headers are read. -/
def DecoderState.columns? : DecoderState → Option (List QueryColumn)
  | .rows columns _ => some columns
  | _ => none

theorem exists_rows_of_columns? {state : DecoderState} {columns : List QueryColumn}
    (h : state.columns? = some columns) : ∃ parsedTypes, state = .rows columns parsedTypes := by
  cases state with
  | names => cases h
  | types names => cases h
  | rows columns' parsedTypes => exact ⟨parsedTypes, by rw [Option.some.inj h]⟩

section Rows

variable {σ : Type} {reader : FrameReader} {onRow : σ → ResultRow → σ × Bool} {limits : QueryLimits}

variable {columns : List QueryColumn} {parsedTypes : List ClickHouseType} {frame bytes : List UInt8}
  {state : DecoderState} {sawFrame : Bool}

/-- Once the headers are read they stay. -/
theorem processFrame_rows {result : DecoderState × Option ResultRow}
    (h : processFrame reader limits (.rows columns parsedTypes) frame = .ok result) :
    result.1 = .rows columns parsedTypes := by
  obtain ⟨-, h⟩ := ite_error_eq_ok_iff.1 h
  obtain ⟨values, -, h⟩ := bind_eq_ok_iff.1 h
  obtain ⟨-, h⟩ := ite_error_eq_ok_iff.1 h
  obtain ⟨row, -, h⟩ := bind_eq_ok_iff.1 h
  cases h
  rfl

/-- A line is a row only behind the headers. -/
theorem columns?_of_row {next : DecoderState} {row : ResultRow}
    (h : processFrame reader limits state frame = .ok (next, some row)) :
    ∃ columns parsedTypes, next = .rows columns parsedTypes := by
  cases state with
  | names =>
    obtain ⟨names, -, h⟩ := bind_eq_ok_iff.1 h
    cases h
  | types names =>
    obtain ⟨typeNames, -, h⟩ := bind_eq_ok_iff.1 h
    obtain ⟨-, h⟩ := ite_error_eq_ok_iff.1 h
    obtain ⟨columns, -, h⟩ := bind_eq_ok_iff.1 h
    cases h
  | rows columns parsedTypes => exact ⟨columns, parsedTypes, processFrame_rows h⟩

theorem frameLoop_rows {s : σ} {r : FrameProgress × σ × Bool}
    (h : frameLoop reader onRow limits (.rows columns parsedTypes) sawFrame s frame bytes = .ok r) :
    r.1.state = .rows columns parsedTypes := by
  induction bytes generalizing sawFrame s frame with
  | nil =>
    cases h
    rfl
  | cons b rest ih =>
    rw [frameLoop] at h
    split at h
    · exact ih h
    · split at h
      · exact ih h
      · obtain ⟨⟨next, row⟩, hframe, h⟩ := bind_eq_ok_iff.1 h
        cases processFrame_rows hframe
        cases row with
        | none => exact ih h
        | some row =>
          simp only at h
          split at h
          · cases h
            rfl
          · exact ih h

/-- **The loop is the callback on the rows** that are collected. Where the callback stops, the headers have been read. -/
theorem frameLoop_feed {state : DecoderState} {sawFrame : Bool} {frame bytes : List UInt8} {progress : FrameProgress}
    {rows : List ResultRow} {stopped : Bool} (s : σ)
    (h : frameLoop reader collectRow limits state sawFrame [] frame bytes = .ok (progress, rows, stopped)) :
    ∃ reached, frameLoop reader onRow limits state sawFrame s frame bytes = .ok (reached, feed onRow s rows) ∧
      ((feed onRow s rows).2 = false → reached = progress) ∧
      ((feed onRow s rows).2 = true → ∃ columns, reached.state.columns? = some columns ∧
        progress.state.columns? = some columns) := by
  induction bytes generalizing state sawFrame s frame rows with
  | nil =>
    cases h
    exact ⟨_, rfl, fun _ ↦ rfl, fun hcontra ↦ absurd hcontra Bool.false_ne_true⟩
  | cons b rest ih =>
    rw [frameLoop] at h ⊢
    split at h
    · next hb =>
      rw [if_pos hb]
      exact ih s h
    · next hb =>
      rw [if_neg hb]
      split at h
      · next hblank =>
        rw [if_pos hblank]
        exact ih s h
      · next hblank =>
        rw [if_neg hblank]
        obtain ⟨⟨next, row⟩, hframe, h⟩ := bind_eq_ok_iff.1 h
        rw [hframe]
        cases row with
        | none => exact ih s h
        | some row =>
          have hrest : frameLoop reader collectRow limits next true [row] [] rest = .ok (progress, rows, stopped) := h
          rw [← List.append_nil [row], frameLoop_collectRow] at hrest
          obtain ⟨⟨progress', rows', stopped'⟩, hlater, heq⟩ := map_eq_ok_iff.1 hrest
          cases heq
          obtain ⟨columns, parsedTypes, rfl⟩ := columns?_of_row hframe
          simp only [bind, Except.bind, List.singleton_append, feed]
          split
          · refine ⟨_, rfl, fun hcontra ↦ absurd hcontra.symm Bool.false_ne_true, fun _ ↦ ⟨columns, rfl, ?_⟩⟩
            rw [frameLoop_rows hlater]
            rfl
          · exact ih _ hlater

/-- Rows are found only behind the headers. -/
theorem columns?_of_collected {progress : FrameProgress} {rows : List ResultRow} {stopped : Bool}
    (h : frameLoop reader collectRow limits state sawFrame [] frame bytes = .ok (progress, rows, stopped))
    (hrows : rows ≠ []) : ∃ columns, progress.state.columns? = some columns := by
  obtain ⟨row, rows, rfl⟩ := List.exists_cons_of_ne_nil hrows
  obtain ⟨_, -, -, hstop⟩ := @frameLoop_feed Unit reader (fun _ _ ↦ ((), true)) limits state sawFrame frame bytes progress
    (row :: rows) stopped () h
  obtain ⟨columns, -, hcolumns⟩ := hstop rfl
  exact ⟨columns, hcolumns⟩

end Rows

/-! ### The loop over the chunks -/

/-- **A stream that arrives**: its chunks, and then its end. The shutdown channel may wake the loop in between, as long
as there is no shutdown. -/
inductive Delivers : List Wake → List (List UInt8) → Prop
  | done (wakes : List Wake) : Delivers (.next (.ok none) :: wakes) []
  | quiet {wakes : List Wake} {chunks : List (List UInt8)} : Delivers wakes chunks →
      Delivers (.changed false false :: wakes) chunks
  | chunk (bytes : List UInt8) {wakes : List Wake} {chunks : List (List UInt8)} : Delivers wakes chunks →
      Delivers (.next (.ok (some bytes)) :: wakes) (bytes :: chunks)

section Chunks

variable {Summary : Type} {reader : FrameReader} {summary : List Wake → Option Summary} {window : QueryWindow}

/-- A decoder that has read the same, whatever rows it keeps. -/
structure SameProgress (other decoder : FormatDecoder) : Prop where
  hlimits : other.limits = decoder.limits
  hstate : other.state = decoder.state
  hpending : other.pendingFrame = decoder.pendingFrame
  hbytes : other.responseBytes = decoder.responseBytes
  hsaw : other.sawFrame = decoder.sawFrame

/-- What a chunk adds to the rows, and what another callback makes of it. -/
theorem pushWithRows_feed {σ : Type} {onRow : σ → ResultRow → σ × Bool} {decoder next other : FormatDecoder}
    {chunk : List UInt8} (hready : decoder.Ready) (hsame : SameProgress other decoder) (s : σ)
    (hpush : decoder.push reader chunk = .ok next) :
    ∃ rows reached, next.rows = decoder.rows ++ rows ∧
      other.pushWithRows reader onRow s chunk = .ok (reached, feed onRow s rows) ∧
      ((feed onRow s rows).2 = false → SameProgress reached next) ∧
      ((feed onRow s rows).2 = true → ∃ columns, reached.columns = some columns ∧
        next.state.columns? = some columns) := by
  obtain ⟨htakes, progress, rows, hloop, rfl⟩ := (push_eq_ok_iff hready).1 hpush
  rw [← List.append_nil decoder.rows, frameLoop_collectRow] at hloop
  obtain ⟨⟨progress', rows', stopped⟩, hcollect, heq⟩ := map_eq_ok_iff.1 hloop
  cases heq
  obtain ⟨reached, hreached, hgo, hstop⟩ := @frameLoop_feed _ _ onRow _ _ _ _ _ _ _ _ s hcollect
  refine ⟨rows', ⟨decoder.limits, reached.state, reached.pendingFrame, other.rows,
    decoder.responseBytes + chunk.length, reached.sawFrame⟩, rfl, ?_, fun hfalse ↦ ?_, fun htrue ↦ ?_⟩
  · rw [FormatDecoder.pushWithRows, hsame.hlimits, hsame.hstate, hsame.hpending, hsame.hbytes, hsame.hsaw,
      frameLoop_frame hready.hpending, List.nil_append, hreached]
    simp only [if_neg (Nat.not_lt.2 htakes.1), if_neg (Nat.not_lt.2 htakes.2)]
    rfl
  · rw [hgo hfalse]
    exact ⟨rfl, rfl, rfl, rfl, rfl⟩
  · obtain ⟨columns, hcolumns, hnext⟩ := hstop htrue
    exact ⟨columns, hcolumns, hnext⟩

variable {decoder final other : FormatDecoder} {chunks : List (List UInt8)} {columns : List QueryColumn}
  {decoded : DecodedWindow} {wakes : List Wake} {limits : QueryLimits}

/-- Headers that are read stay, over all chunks. -/
theorem columns?_of_foldlM (hready : decoder.Ready)
    (h : chunks.foldlM (FormatDecoder.push reader) decoder = .ok final)
    (hcolumns : decoder.state.columns? = some columns) : final.state.columns? = some columns := by
  obtain ⟨-, progress, rows, hloop, rfl⟩ := (push_eq_ok_iff hready).1 ((foldlM_push_eq_ok_iff hready).1 h)
  obtain ⟨parsedTypes, hstate⟩ := exists_rows_of_columns? hcolumns
  rw [hstate] at hloop
  rw [frameLoop_rows hloop]
  rfl

theorem finish_columns (h : decoder.finish = .ok decoded) (hcolumns : decoder.state.columns? = some columns) :
    decoded.columns = columns := by
  obtain ⟨-, h⟩ := ite_error_eq_ok_iff.1 h
  obtain ⟨parsedTypes, hstate⟩ := exists_rows_of_columns? hcolumns
  rw [hstate] at h
  cases h
  rfl

theorem finish_same (hsame : SameProgress other decoder) (h : decoder.finish = .ok decoded) :
    ∃ rows, other.finish = .ok { decoded with rows := rows } := by
  obtain ⟨hpending, h⟩ := ite_error_eq_ok_iff.1 h
  rw [FormatDecoder.finish, hsame.hpending, if_neg hpending, hsame.hstate, hsame.hsaw]
  cases hstate : decoder.state with
  | names =>
    rw [hstate] at h
    obtain ⟨hsaw, h⟩ := ite_error_eq_ok_iff.1 h
    cases h
    exact ⟨[], if_neg hsaw⟩
  | types names => rw [hstate] at h; cases h
  | rows columns parsedTypes =>
    rw [hstate] at h
    cases h
    exact ⟨other.rows, rfl⟩

/-- **The loop is the callback on the rows of the stream**: it returns what the callback has kept, whether it stopped the
decoder or the stream ended. -/
theorem windowLoop_eq (hdelivers : Delivers wakes chunks) (retainedLimit : ℕ) (hready : decoder.Ready)
    (hsame : SameProgress other decoder)
    (hrun : chunks.foldlM (FormatDecoder.push reader) decoder = .ok final)
    (hfinish : final.finish = .ok decoded) (s : WindowRows) :
    ∃ rows left, final.rows = decoder.rows ++ rows ∧
      windowLoop reader summary window retainedLimit other s wakes = some (.ok
        ⟨readonlyQueryResult decoded.columns (feed (windowRow window retainedLimit) s rows).1.retainedRows window.pageSize,
          summary left⟩) := by
  induction hdelivers generalizing decoder other s with
  | done wakes =>
    cases hrun
    obtain ⟨rows, hother⟩ := finish_same hsame hfinish
    refine ⟨[], wakes, (List.append_nil _).symm, ?_⟩
    rw [windowLoop, hother]
    rfl
  | quiet _ ih =>
    obtain ⟨rows, left, hrows, hloop⟩ := ih hready hsame hrun s
    exact ⟨rows, left, hrows, hloop⟩
  | @chunk bytes wakes chunks _ ih =>
    rw [List.foldlM_cons] at hrun
    obtain ⟨next, hpush, hrun⟩ := bind_eq_ok_iff.1 hrun
    have hnext := hready.push hpush
    obtain ⟨first, reached, hfirst, hreached, hgo, hstop⟩ :=
      @pushWithRows_feed _ _ (windowRow window retainedLimit) _ _ _ _ hready hsame s hpush
    have happend := @feed_append _ (windowRow window retainedLimit) s first
    generalize feed (windowRow window retainedLimit) s first = fed at hreached hgo hstop happend
    obtain ⟨kept, stopped | stopped⟩ := fed
    · obtain ⟨later, left, hlater, hloop⟩ := ih hnext (hgo rfl) hrun kept
      refine ⟨first ++ later, left, by rw [hlater, hfirst, List.append_assoc], ?_⟩
      rw [happend, windowLoop, hreached]
      exact hloop
    · obtain ⟨columns, hcolumns, hstate⟩ := hstop rfl
      obtain ⟨later, -, hlater, -⟩ := ih hnext ⟨rfl, rfl, rfl, rfl, rfl⟩ hrun s
      refine ⟨first ++ later, wakes, by rw [hlater, hfirst, List.append_assoc], ?_⟩
      rw [happend, windowLoop, hreached, finish_columns hfinish (columns?_of_foldlM hnext hrun hstate)]
      simp only [hcolumns]
      rfl

/-- The window passes the checks. -/
def QueryWindow.Admitted (window : QueryWindow) : Prop :=
  window.skipRows ≤ maxFreeSqlSkipRows ∧ 1 ≤ window.pageSize ∧ window.pageSize ≤ maxPageSize

/-- The page of a window of a decoded stream. -/
def pageOf (decoded : DecodedWindow) (window : QueryWindow) : GridResult where
  columns := decoded.columns
  rows := (decoded.rows.drop window.skipRows).take window.pageSize
  affectedRows := none
  hasNextPage := decide (window.skipRows + window.pageSize < decoded.rows.length)
  sourceWritable := false
  sourceInsertable := false
  primaryKeyColumns := []
  stableOrderColumns := []

theorem validateFreeSqlWindow_eq_ok (h : window.Admitted) : validateFreeSqlWindow window = .ok () := by
  rw [validateFreeSqlWindow, if_neg (Nat.not_lt.2 h.1), if_neg (not_not.2 h.2)]

theorem readonlyQueryResult_eq_pageOf (decoded : DecodedWindow) :
    readonlyQueryResult decoded.columns ((decoded.rows.drop window.skipRows).take (window.pageSize + 1))
      window.pageSize = pageOf decoded window := by
  have hrows : ((decoded.rows.drop window.skipRows).take (window.pageSize + 1)).take window.pageSize =
      (decoded.rows.drop window.skipRows).take window.pageSize := by
    rw [List.take_take, Nat.min_eq_left (Nat.le_succ _)]
  have hnext : (window.pageSize < ((decoded.rows.drop window.skipRows).take (window.pageSize + 1)).length) ↔
      window.skipRows + window.pageSize < decoded.rows.length := by
    rw [List.length_take, List.length_drop]
    omega
  rw [readonlyQueryResult, pageOf, hrows, decide_eq_decide.2 hnext]

/-- The rows of a stream are those that its chunks add. -/
theorem rows_of_decode (h : decode reader limits chunks = .ok decoded) :
    ∃ final, chunks.foldlM (FormatDecoder.push reader) (FormatDecoder.new limits) = .ok final ∧
      final.finish = .ok decoded ∧ final.rows = decoded.rows := by
  obtain ⟨final, hrun, hfinish⟩ := bind_eq_ok_iff.1 h
  refine ⟨final, hrun, hfinish, ?_⟩
  obtain ⟨-, progress, rows, hloop, rfl⟩ := (push_eq_ok_iff ready_new).1 ((foldlM_push_eq_ok_iff ready_new).1 hrun)
  obtain ⟨-, hfinish⟩ := ite_error_eq_ok_iff.1 hfinish
  cases hstate : progress.state with
  | names =>
    simp only [hstate] at hfinish
    obtain ⟨-, hfinish⟩ := ite_error_eq_ok_iff.1 hfinish
    cases hfinish
    by_contra hrows
    obtain ⟨columns, hcolumns⟩ := columns?_of_collected hloop hrows
    rw [hstate] at hcolumns
    cases hcolumns
  | types names =>
    simp only [hstate] at hfinish
    cases hfinish
  | rows columns parsedTypes =>
    simp only [hstate] at hfinish
    cases hfinish
    rfl

/-- **A page is what it should be**, however the stream is cut. -/
theorem decodeWindow_page (hdecode : decode reader limits chunks = .ok decoded) (hwindow : window.Admitted)
    (hdelivers : Delivers wakes chunks) :
    ∃ left, decodeWindowUntilShutdown reader summary window limits false wakes =
      some (.ok ⟨pageOf decoded window, summary left⟩) := by
  obtain ⟨final, hrun, hfinish, hfinal⟩ := rows_of_decode hdecode
  obtain ⟨rows, left, hrows, hloop⟩ := windowLoop_eq hdelivers (window.pageSize + 1) ready_new
    ⟨rfl, rfl, rfl, rfl, rfl⟩ hrun hfinish {}
  have hall : rows = decoded.rows := hfinal ▸ hrows.symm
  have hsize : ¬ usizeMax < window.pageSize + 1 :=
    Nat.not_lt.2 ((Nat.succ_le_succ hwindow.2.2).trans (by decide))
  refine ⟨left, ?_⟩
  rw [decodeWindowUntilShutdown, validateFreeSqlWindow_eq_ok hwindow]
  simp only [Bool.false_eq_true, if_false, if_neg hsize]
  rw [hloop, hall, (feed_windowRow window decoded.rows).1, readonlyQueryResult_eq_pageOf]

/-- The rows of an outcome, if there is one. -/
def outcomeRows (outcome : Option (IpcResult (DecodedQueryOutcome Summary))) : List ResultRow :=
  match outcome with
  | some (.ok outcome) => outcome.result.rows
  | _ => []

/-- Pages that follow one another are the rows up to the end of the last. -/
theorem flatMap_pages {α : Type} (rows : List α) (pageSize : ℕ) (n : ℕ) :
    (List.range n).flatMap (fun k ↦ (rows.drop (k * pageSize)).take pageSize) = rows.take (n * pageSize) := by
  induction n with
  | zero => simp
  | succ n ih =>
    rw [List.range_succ, List.flatMap_append, ih, List.flatMap_singleton, Nat.succ_mul, List.take_add]

/-- **The window of a stream.** A stream that decodes to some rows is cut into pages: each admitted window returns its
part of the rows and says whether there are more behind it, for every way in which the bytes arrive, and pages that
follow one another are the rows, none of them lost or repeated. -/
theorem pages_of_stream {limits : QueryLimits} {bytes : List UInt8} {decoded : DecodedWindow}
    (hdecode : decode reader limits [bytes] = .ok decoded) :
    (∀ (window : QueryWindow) (wakes : List Wake) (chunks : List (List UInt8)), window.Admitted →
      Delivers wakes chunks → chunks.flatten = bytes →
      ∃ left, decodeWindowUntilShutdown reader summary window limits false wakes =
        some (.ok ⟨pageOf decoded window, summary left⟩)) ∧
    ∀ (pageSize n : ℕ) (wakes : ℕ → List Wake) (chunks : ℕ → List (List UInt8)),
      (∀ k < n, (⟨k * pageSize, pageSize⟩ : QueryWindow).Admitted ∧ Delivers (wakes k) (chunks k) ∧
        (chunks k).flatten = bytes) →
      ((List.range n).flatMap fun k ↦
        outcomeRows (decodeWindowUntilShutdown reader summary ⟨k * pageSize, pageSize⟩ limits false (wakes k))) =
          decoded.rows.take (n * pageSize) := by
  have hpage : ∀ (window : QueryWindow) (wakes : List Wake) (chunks : List (List UInt8)), window.Admitted →
      Delivers wakes chunks → chunks.flatten = bytes →
      ∃ left, decodeWindowUntilShutdown reader summary window limits false wakes =
        some (.ok ⟨pageOf decoded window, summary left⟩) := fun window wakes chunks hwindow hdelivers hbytes ↦
    decodeWindow_page (decode_eq_ok_iff.2 (hbytes ▸ hdecode)) hwindow hdelivers
  refine ⟨hpage, fun pageSize n wakes chunks hpages ↦ ?_⟩
  rw [← flatMap_pages decoded.rows pageSize n]
  refine List.flatMap_congr fun k hk ↦ ?_
  obtain ⟨hwindow, hdelivers, hbytes⟩ := hpages k (List.mem_range.1 hk)
  obtain ⟨left, hresult⟩ := hpage _ _ _ hwindow hdelivers hbytes
  rw [hresult]
  rfl

end Chunks

namespace WindowSample

open FormatSample

/-- Three rows. -/
def stream : List UInt8 :=
  bytesOf "[\"id\"]\n[\"UInt64\"]\n[1]\n[2]\n[3]\n"

/-- A source without a summary. -/
def noSummary : List Wake → Option Unit :=
  fun _ ↦ none

/-- The second of them, with a cut in the last line. -/
theorem second_row : ∃ decoded, decode reader {} [stream] = .ok decoded ∧
    ∃ left, decodeWindowUntilShutdown reader noSummary ⟨1, 1⟩ {} false
      [.next (.ok (some (bytesOf "[\"id\"]\n[\"UInt64\"]\n[1]\n[2]\n["))), .changed false false,
        .next (.ok (some (bytesOf "3]\n"))), .next (.ok none)] =
      some (.ok ⟨pageOf decoded ⟨1, 1⟩, noSummary left⟩) := by
  obtain ⟨decoded, hdecode⟩ : ∃ decoded, decode reader {} [stream] = .ok decoded := ⟨_, rfl⟩
  refine ⟨decoded, hdecode, (pages_of_stream hdecode).1 ⟨1, 1⟩ _
    [bytesOf "[\"id\"]\n[\"UInt64\"]\n[1]\n[2]\n[", bytesOf "3]\n"]
    ⟨by decide, by decide, by decide⟩ ?_ (by decide)⟩
  exact .chunk _ (.quiet (.chunk _ (.done [])))

end WindowSample

end ClickHouse
