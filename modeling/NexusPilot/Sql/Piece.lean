import NexusPilot.Scan.Cut
import NexusPilot.Scan.Leave
import NexusPilot.Sql.Framing

/-!
# The framer, piece by piece

Between two iterations in the normal state the framer passes over a whole comment or a whole quoted
value. Reading the loop at those boundaries only gives a second, coarser loop: each iteration cuts
one **piece** off the text (`piece`) and folds it into the loop variables (`absorb`), and the seven
scan states disappear. `frameFrom_eq_pieceFrom` says that this loop computes the same framing, error
texts included.

The three skipping modes are `Scan.Inner` modes (`quoteInner`, `lineInner`, `blockInner`), so that
passing over them is the library's `scan_inside_bind`.

The coarse loop is what the results about the framer are proved on: `cutText` lists the pieces with
their text, and the framing of an accepted text is the fold of `absorb` over them
(`frameChars_eq_ok_iff`).
-/

namespace Sql

open Scan Text

/-! ### Skipping modes -/

/-- The closing delimiter of a quoted state. -/
def ScanState.delimiter : ScanState → Char
  | .singleQuote => '\''
  | .doubleQuote => '"'
  | .backtick => '`'
  | _ => ']'

/-- The states inside a quoted value. -/
def ScanState.isQuote : ScanState → Bool
  | .singleQuote | .doubleQuote | .backtick | .bracketIdentifier => true
  | _ => false

/-- Inside a quoted value. -/
def quoteInner (d : SqlFramingDialect) (q : ScanState) : Inner Unit String Char :=
  fun _ c after ↦
    if c = '\\' ∧ q ≠ .bracketIdentifier then
      if d = .clickHouse then .ok (some (), 2)
      else .error "Dialect-specific backslash quoting is not supported yet"
    else if c = q.delimiter then
      if after.head? = some q.delimiter then .ok (some (), 2) else .ok (none, 1)
    else .ok (some (), 1)

/-- Inside a line comment. -/
def lineInner : Inner Unit String Char := fun _ c _ ↦
  if isLineBreak c then .ok (none, 1) else .ok (some (), 1)

/-- Inside a block comment, at a depth. -/
def blockInner (d : SqlFramingDialect) : Inner ℕ String Char := fun depth c after ↦
  if c = '/' ∧ after.head? = some '*' then
    if d = .mysql ∨ d = .oracle then
      .error "Nested block comments are not supported for this SQL dialect"
    else .ok (some (depth + 1), 2)
  else if c = '*' ∧ after.head? = some '/' then
    if depth - 1 = 0 then .ok (none, 2) else .ok (some (depth - 1), 2)
  else .ok (some depth, 1)

theorem quoteInner_progressive (d : SqlFramingDialect) (q : ScanState) :
    (quoteInner d q).Progressive := by
  intro t c after r n h
  simp only [quoteInner] at h
  split_ifs at h <;> cases h <;> decide

theorem lineInner_progressive : lineInner.Progressive := by
  intro t c after r n h
  simp only [lineInner] at h
  split_ifs at h <;> cases h <;> decide

theorem blockInner_progressive (d : SqlFramingDialect) : (blockInner d).Progressive := by
  intro t c after r n h
  simp only [blockInner] at h
  split_ifs at h <;> cases h <;> decide

theorem leave_lineInner_ne_error (rest : List Char) (e : String) :
    leave lineInner () rest ≠ .error e := by
  induction rest generalizing e with
  | nil => simp
  | cons c rest ih =>
    by_cases hc : isLineBreak c
    · have hin : lineInner () c rest = .ok (none, 1) := by simp [lineInner, hc]
      simp [leave_of_exit hin]
    · have hin : lineInner () c rest = .ok (some (), 1) := by simp [lineInner, hc]
      rw [leave_of_stay hin Nat.one_pos]
      rcases hl : leave lineInner () rest with e' | m
      · exact absurd hl (ih e')
      · simp [hl, Except.map]

/-! ### Pieces -/

/-- The error of `finish` for a text that ends inside a quoted value or a block comment. -/
def unterminatedMessage : String :=
  "SQL contains an unterminated quoted value, identifier, or comment"

/-- The length of a piece from the distance at which its mode is left. -/
def closedAt (width : ℕ) : Except String (Option ℕ) → Except String ℕ
  | .error e => .error e
  | .ok none => .error unterminatedMessage
  | .ok (some n) => .ok (width + n)

/-- The length of a line comment's text with its line break. -/
def lineExtent (rest : List Char) : ℕ :=
  reach lineInner () rest

/-- What one iteration of the coarse loop cuts off the text. -/
inductive Piece
  | lineComment
  | blockComment
  | quotedBlock
  | quoted (state : ScanState)
  | terminator
  | character (c : Char)
  deriving DecidableEq

/-- The piece at a position outside quotes and comments, with its length. The length of a piece
that is never closed is an error of its own, since the source reports it only after the piece was
folded into the loop variables. -/
def piece (d : SqlFramingDialect) (before : List Char) (current : Char) (after : List Char) :
    Except String (Piece × Except String ℕ) :=
  match opening d before current after with
  | .error e => .error e
  | .ok (.lineComment width) =>
    .ok (.lineComment, .ok (width + lineExtent (after.drop (width - 1))))
  | .ok .blockComment => .ok (.blockComment, closedAt 2 (leave (blockInner d) 1 (after.drop 1)))
  | .ok (.quotedBlock n) => .ok (.quotedBlock, .ok n)
  | .ok .terminator => .ok (.terminator, .ok 1)
  | .ok .character =>
    match quoteOpenedBy d current with
    | some q => .ok (.quoted q, closedAt 1 (leave (quoteInner d q) () after))
    | none => .ok (.character current, .ok 1)

/-- Folding a piece into the loop variables. -/
def absorb (d : SqlFramingDialect) (st : FrameState) : Piece → Except String FrameState
  | .lineComment | .blockComment => .ok st.flushWord
  | .quotedBlock | .quoted _ =>
    if st.terminated then .error "Only one SQL statement is allowed"
    else .ok st.flushWord.markSignificant
  | .terminator =>
    if d = .oracle then .error "Oracle server SQL must not include a client statement terminator"
    else if st.terminated then .error "Only one SQL statement is allowed"
    else .ok { st.flushWord with terminated := true }
  | .character c =>
    if ¬ isWhitespace c ∧ st.terminated then .error "Only one SQL statement is allowed"
    else plainCharacter d (if isWhitespace c then st else st.markSignificant) c

/-- One iteration of the coarse loop. -/
def pieceStep (d : SqlFramingDialect) : Step FrameState String Char :=
  fun st before current after ↦
    match piece d before current after with
    | .error e => .error e
    | .ok (p, extent) =>
      match absorb d st p with
      | .error e => .error e
      | .ok st' => extent.map (st', ·)

/-- The framing of the text from a cursor on, by the loop of the source. -/
def frameFrom (d : SqlFramingDialect) (st : FrameState) (before rest : List Char) :
    Except String StatementFraming :=
  (scan (frameStep d) st before rest).bind (finish d)

/-- The framing of the text from a cursor on, by the coarse loop. -/
def pieceFrom (d : SqlFramingDialect) (st : FrameState) (before rest : List Char) :
    Except String StatementFraming :=
  (scan (pieceStep d) st before rest).bind (finish d)

section Unfolding

variable {d : SqlFramingDialect} {st st' : FrameState} {before rest : List Char} {c : Char} {n : ℕ}

variable {e : String}

theorem frameFrom_of_error (h : frameStep d st before c rest = .error e) :
    frameFrom d st before (c :: rest) = .error e := by
  rw [frameFrom, scan_cons_of_error h]
  rfl

theorem frameFrom_of_step (h : frameStep d st before c rest = .ok (st', n)) (hn : 0 < n) :
    frameFrom d st before (c :: rest) =
      frameFrom d st' (behind n before (c :: rest)) ((c :: rest).drop n) := by
  rw [frameFrom, scan_cons_of_step h hn, frameFrom]

theorem pieceFrom_of_error (h : pieceStep d st before c rest = .error e) :
    pieceFrom d st before (c :: rest) = .error e := by
  rw [pieceFrom, scan_cons_of_error h]
  rfl

theorem pieceFrom_of_step (h : pieceStep d st before c rest = .ok (st', n)) (hn : 0 < n) :
    pieceFrom d st before (c :: rest) =
      pieceFrom d st' (behind n before (c :: rest)) ((c :: rest).drop n) := by
  rw [pieceFrom, scan_cons_of_step h hn, pieceFrom]

end Unfolding

/-! ### Passing over skipped text -/

variable {d : SqlFramingDialect} {st st' : FrameState} {q : ScanState} {c : Char} {p : Piece}
  {before after rest : List Char} {n width : ℕ} {f : StatementFraming}

theorem finish_of_open (h : st.state ≠ .normal ∧ st.state ≠ .lineComment) :
    finish d st = .error unterminatedMessage := by
  simp [finish, h, unterminatedMessage]

/-- **Inside a quoted value.** -/
theorem frameFrom_quoted (hq : q.isQuote) (st : FrameState) (before rest : List Char) :
    frameFrom d (st.enter q) before rest =
      passOver (.error unterminatedMessage)
        (fun n ↦ frameFrom d (st.enter .normal) (behind n before rest) (rest.drop n))
        (leave (quoteInner d q) () rest) := by
  have hend : ∀ t : Unit, finish d (st.enter q) = .error unterminatedMessage := by
    intro t
    refine finish_of_open ⟨?_, ?_⟩ <;> rintro rfl <;> cases hq
  refine scan_inside_bind (frameStep d) _ (fun _ ↦ st.enter q) (st.enter .normal) (finish d) _
    (quoteInner_progressive d q) ?_ hend () before rest
  intro t before c rest
  cases q <;> simp only [ScanState.isQuote, Bool.false_eq_true] at hq
  all_goals
    simp only [frameStep, FrameState.enter, quoteStep, bracketStep, quoteInner,
      ScanState.delimiter]
    split_ifs <;> simp_all [Except.map]

/-- **Inside a line comment**, which the end of the text closes too. -/
theorem frameFrom_lineComment (d : SqlFramingDialect) (st : FrameState)
    (before rest : List Char) :
    frameFrom d (st.enter .lineComment) before rest =
      frameFrom d (st.enter .normal) (behind (lineExtent rest) before rest)
        (rest.drop (lineExtent rest)) := by
  have hend : ∀ t : Unit, finish d (st.enter .lineComment) = finish d (st.enter .normal) := by
    intro t
    simp only [finish, FrameState.enter, ne_eq, reduceCtorEq, not_true_eq_false, and_false,
      false_and, if_false]
    rfl
  have hstep : ∀ (t : Unit) (before : List Char) (c : Char) (rest : List Char),
      frameStep d (st.enter .lineComment) before c rest = (lineInner t c rest).map
        fun x ↦ (x.1.elim (st.enter .normal) fun _ ↦ st.enter .lineComment, x.2) := by
    intro t before c rest
    simp only [frameStep, FrameState.enter, lineCommentStep, lineInner]
    split_ifs <;> rfl
  have h := scan_inside_bind (frameStep d) _ (fun _ ↦ st.enter .lineComment) (st.enter .normal)
    (finish d) _ lineInner_progressive hstep hend () before rest
  rw [frameFrom, h, lineExtent, reach]
  rcases hl : leave lineInner () rest with e | (_ | n)
  · exact absurd hl (leave_lineInner_ne_error rest e)
  · simp [frameFrom, passOver, Except.bind]
  · rfl

/-- **Inside a block comment.** -/
theorem frameFrom_blockComment (d : SqlFramingDialect) (st : FrameState) (depth : ℕ)
    (before rest : List Char) :
    frameFrom d (st.enterBlock depth) before rest =
      passOver (.error unterminatedMessage)
        (fun n ↦ frameFrom d { st with state := .normal, blockDepth := 0 }
          (behind n before rest) (rest.drop n))
        (leave (blockInner d) depth rest) := by
  refine scan_inside_bind (frameStep d) _ st.enterBlock { st with state := .normal, blockDepth := 0 }
    (finish d) _ (blockInner_progressive d) ?_
    (fun _ ↦ finish_of_open (by simp [FrameState.enterBlock])) depth before rest
  intro m before c rest
  simp only [frameStep, FrameState.enterBlock, blockCommentStep, blockInner]
  split_ifs <;> simp_all [Except.map, FrameState.enterBlock]

/-! ### The two loops agree -/

/-- The loop variables between two pieces. -/
structure FrameState.AtBoundary (st : FrameState) : Prop where
  state : st.state = .normal
  blockDepth : st.blockDepth = 0

theorem FrameState.AtBoundary.eta (h : st.AtBoundary) :
    { st with state := .normal, blockDepth := 0 } = st := by
  obtain ⟨hs, hb⟩ := h
  cases st
  cases hs
  cases hb
  rfl

theorem FrameState.AtBoundary.eta_state (h : st.AtBoundary) :
    st.enter .normal = st := by
  obtain ⟨hs, -⟩ := h
  cases st
  cases hs
  rfl

theorem plainCharacter_atBoundary (hst : st.AtBoundary) (h : plainCharacter d st c = .ok st') :
    st'.AtBoundary := by
  simp only [plainCharacter] at h
  split_ifs at h <;> cases h <;> exact ⟨hst.state, hst.blockDepth⟩

theorem absorb_atBoundary (hst : st.AtBoundary) (h : absorb d st p = .ok st') : st'.AtBoundary := by
  cases p with
  | lineComment | blockComment =>
    cases h
    exact ⟨hst.state, hst.blockDepth⟩
  | quotedBlock | quoted q | terminator =>
    simp only [absorb] at h
    split_ifs at h
    cases h
    exact ⟨hst.state, hst.blockDepth⟩
  | character c =>
    simp only [absorb] at h
    split_ifs at h
    · exact plainCharacter_atBoundary hst h
    · have hmark : st.markSignificant.AtBoundary := ⟨hst.state, hst.blockDepth⟩
      exact plainCharacter_atBoundary hmark h

theorem dollarQuoteEnd_pos (h : dollarQuoteEnd before after = .ok (some n)) : 0 < n := by
  rw [dollarQuoteEnd] at h
  split_ifs at h
  · cases h
  · rcases ht : dollarTag true after with _ | tag
    · simp [ht] at h
    · rcases hf : findSub (dollarDelimiter tag) (after.drop (tag.length + 1)) with _ | offset
      · simp [ht, hf] at h
      · simp only [ht, hf, Except.ok.injEq, Option.some.injEq] at h
        omega

theorem oracleQQuoteEnd_pos (h : oracleQQuoteEnd before c after = .ok (some n)) : 0 < n := by
  rw [oracleQQuoteEnd] at h
  split_ifs at h
  · cases h
  · rcases hb : oracleQuoteBody (after.drop 1) with e | m <;> rw [hb] at h <;> cases h
    omega
  · rcases hb : oracleQuoteBody (after.drop 2) with e | m <;> rw [hb] at h <;> cases h
    omega
  · cases h

theorem oracleOpening_quotedBlock (h : oracleOpening before c after = .ok (.quotedBlock n)) :
    oracleQQuoteEnd before c after = .ok (some n) := by
  rw [oracleOpening] at h
  rcases hq : oracleQQuoteEnd before c after with e | (_ | m) <;> rw [hq] at h
  · cases h
  · split_ifs at h <;> cases h
  · cases h
    rfl

/-- A quoted block comes from one of the two looking-ahead searches. -/
theorem opening_quotedBlock (h : opening d before c after = .ok (.quotedBlock n)) :
    c = '$' ∧ dollarQuoteEnd before after = .ok (some n) ∨
      oracleQQuoteEnd before c after = .ok (some n) := by
  rw [opening] at h
  split_ifs at h with _ _ _ _ _ hd
  all_goals try cases h
  · rcases hq : dollarQuoteEnd before after with e | (_ | m) <;> rw [hq] at h <;> cases h
    exact .inl ⟨hd.2, rfl⟩
  · exact .inr (oracleOpening_quotedBlock h)

theorem opening_lineComment_pos (h : opening d before c after = .ok (.lineComment width)) : 0 < width := by
  rw [opening] at h
  split_ifs at h
  all_goals try (cases h <;> decide)
  · rcases hq : dollarQuoteEnd before after with e | (_ | m) <;> rw [hq] at h <;> cases h
  · rw [oracleOpening] at h
    rcases hq : oracleQQuoteEnd before c after with e | (_ | m) <;> rw [hq] at h
    · cases h
    · split_ifs at h <;> cases h
    · cases h

theorem closedAt_pos {r : Except String (Option ℕ)} (hw : 0 < width) (h : closedAt width r = .ok n) :
    0 < n := by
  rcases r with e | (_ | k) <;> cases h
  omega

theorem piece_pos (h : piece d before c after = .ok (p, .ok n)) : 0 < n := by
  rw [piece] at h
  rcases ho : opening d before c after with e | (width | _ | m | _ | _) <;> rw [ho] at h
  · cases h
  · have := opening_lineComment_pos ho
    cases h
    omega
  · simp only [Except.ok.injEq, Prod.mk.injEq] at h
    exact closedAt_pos Nat.two_pos h.2
  · cases h
    rcases opening_quotedBlock ho with ⟨-, hq⟩ | hq
    · exact dollarQuoteEnd_pos hq
    · exact oracleQQuoteEnd_pos hq
  · cases h
    decide
  · rcases hq : quoteOpenedBy d c with _ | q <;>
      simp only [hq, Except.ok.injEq, Prod.mk.injEq] at h
    · omega
    · exact closedAt_pos Nat.one_pos h.2

theorem pieceStep_progressive (d : SqlFramingDialect) : Progressive (pieceStep d) := by
  intro st before c after st' n h
  rw [pieceStep] at h
  rcases hp : piece d before c after with e | ⟨p, extent⟩ <;> rw [hp] at h
  · cases h
  · rcases ha : absorb d st p with e | st'' <;> simp only [ha] at h
    · cases h
    · rcases extent with e | m <;> cases h
      exact piece_pos hp

theorem pieceStep_atBoundary (hst : st.AtBoundary) (h : pieceStep d st before c after = .ok (st', n)) :
    st'.AtBoundary := by
  rw [pieceStep] at h
  rcases hp : piece d before c after with e | ⟨p, extent⟩ <;> rw [hp] at h
  · cases h
  · rcases ha : absorb d st p with e | st'' <;> simp only [ha] at h
    · cases h
    · rcases extent with e | m <;> cases h
      exact absorb_atBoundary hst ha

/-- Passing over a closed stretch from the cursor after its opening delimiter. -/
theorem passOver_frameFrom (width : ℕ) (r : Except String (Option ℕ)) :
    passOver (.error unterminatedMessage)
        (fun n ↦ frameFrom d st (behind n (behind width before rest) (rest.drop width))
          ((rest.drop width).drop n)) r =
      (closedAt width r).bind fun n ↦ frameFrom d st (behind n before rest) (rest.drop n) := by
  rcases r with e | (_ | n)
  · rfl
  · rfl
  · simp only [passOver, closedAt, Except.bind, behind_add, List.drop_drop]

theorem quoteOpenedBy_isQuote (h : quoteOpenedBy d c = some q) : q.isQuote ∧ isWhitespace c = false := by
  simp only [quoteOpenedBy] at h
  split_ifs at h with h1 h2 h3 h4
  · subst h1; cases h; decide
  · subst h2; cases h; decide
  · obtain ⟨rfl, -⟩ := h3; cases h; decide
  · obtain ⟨rfl, -⟩ := h4; cases h; decide

/-- One piece that starts at a character which opens no comment, quoted block or terminator. -/
theorem frameFrom_character (hst : st.AtBoundary) (before : List Char) (c : Char) (after : List Char)
    (ho : opening d before c after = .ok .character) :
    frameFrom d st before (c :: after) =
      (pieceStep d st before c after).bind fun x ↦
        frameFrom d x.1 (behind x.2 before (c :: after)) ((c :: after).drop x.2) := by
  have hstep : frameStep d st before c after = (characterStep d st c).map (·, 1) := by
    simp [frameStep, hst.state, normalStep, ho]
  have hflush : st.flushWord.markSignificant.AtBoundary := ⟨hst.state, hst.blockDepth⟩
  rcases hq : quoteOpenedBy d c with _ | q
  · -- a character that opens nothing: the two iterations are the same
    have hp : pieceStep d st before c after = frameStep d st before c after := by
      rw [hstep]
      simp only [pieceStep, piece, ho, hq, absorb, characterStep]
      split_ifs with hterm hws
      · rfl
      · rcases plainCharacter d st c with e | st' <;> rfl
      · rcases plainCharacter d st.markSignificant c with e | st' <;> rfl
    rw [hp]
    rcases hs : frameStep d st before c after with e | ⟨st', n⟩
    · rw [frameFrom_of_error hs]
      rfl
    · have hn : n = 1 := by
        rw [hstep] at hs
        rcases hc : characterStep d st c with e | st'' <;> rw [hc] at hs <;> cases hs
        rfl
      subst hn
      rw [frameFrom_of_step hs Nat.one_pos]
      rfl
  · obtain ⟨hquote, hws⟩ := quoteOpenedBy_isQuote hq
    by_cases hterm : st.terminated
    · have hf : frameStep d st before c after = .error "Only one SQL statement is allowed" := by
        rw [hstep]
        simp [characterStep, hws, hterm, Except.map]
      rw [frameFrom_of_error hf]
      simp only [pieceStep, piece, ho, hq, absorb, hterm, if_true, Except.bind]
    · have hf : frameStep d st before c after =
          .ok (st.flushWord.markSignificant.enter q, 1) := by
        rw [hstep]
        simp [characterStep, hws, hterm, hq, Except.map, FrameState.flushWord,
          FrameState.pendingWord, FrameState.markSignificant, FrameState.enter]
      have hp : pieceStep d st before c after =
          (closedAt 1 (leave (quoteInner d q) () ((c :: after).drop 1))).map
            (st.flushWord.markSignificant, ·) := by
        simp only [pieceStep, piece, ho, hq, absorb, hterm, if_false, Bool.false_eq_true,
          List.drop_succ_cons, List.drop_zero]
      rw [frameFrom_of_step hf Nat.one_pos, frameFrom_quoted hquote, hflush.eta_state,
        passOver_frameFrom, hp]
      rcases closedAt 1 (leave (quoteInner d q) () ((c :: after).drop 1)) with e | n <;> rfl

/-- **One piece**, by the loop of the source: the piece is folded into the loop variables, and the
loop continues after it. -/
theorem frameFrom_cons (hst : st.AtBoundary) (before : List Char) (c : Char) (after : List Char) :
    frameFrom d st before (c :: after) =
      (pieceStep d st before c after).bind fun x ↦
        frameFrom d x.1 (behind x.2 before (c :: after)) ((c :: after).drop x.2) := by
  have hnormal : frameStep d st before c after = normalStep d st before c after := by
    simp [frameStep, hst.state]
  have hflush : st.flushWord.AtBoundary := ⟨hst.state, hst.blockDepth⟩
  rcases ho : opening d before c after with e | (width | _ | n | _ | _)
  · have hf : frameStep d st before c after = .error e := by simp only [hnormal, normalStep, ho]
    rw [frameFrom_of_error hf]
    simp only [pieceStep, piece, ho, Except.bind]
  · have hf : frameStep d st before c after =
        .ok (st.flushWord.enter .lineComment, width) := by
      simp only [hnormal, normalStep, ho]
    have hp : pieceStep d st before c after =
        .ok (st.flushWord, width + lineExtent ((c :: after).drop width)) := by
      obtain ⟨w, rfl⟩ := Nat.exists_eq_add_of_lt (opening_lineComment_pos ho)
      simp [pieceStep, piece, ho, absorb, Except.map]
    rw [frameFrom_of_step hf (opening_lineComment_pos ho), frameFrom_lineComment, hp,
      hflush.eta_state]
    simp only [Except.bind, behind_add, List.drop_drop]
  · have hf : frameStep d st before c after =
        .ok (st.flushWord.enterBlock 1, 2) := by
      simp only [hnormal, normalStep, ho]
    have hp : pieceStep d st before c after =
        (closedAt 2 (leave (blockInner d) 1 ((c :: after).drop 2))).map (st.flushWord, ·) := by
      simp only [pieceStep, piece, ho, absorb, List.drop_succ_cons]
    rw [frameFrom_of_step hf Nat.two_pos, frameFrom_blockComment, hflush.eta,
      passOver_frameFrom, hp]
    rcases closedAt 2 (leave (blockInner d) 1 ((c :: after).drop 2)) with e | n <;> rfl
  · have hn : 0 < n := by
      rcases opening_quotedBlock ho with ⟨-, hq⟩ | hq
      · exact dollarQuoteEnd_pos hq
      · exact oracleQQuoteEnd_pos hq
    by_cases hterm : st.terminated
    · have hf : frameStep d st before c after = .error "Only one SQL statement is allowed" := by
        simp only [hnormal, normalStep, ho, hterm, if_true]
      rw [frameFrom_of_error hf]
      simp only [pieceStep, piece, ho, absorb, hterm, if_true, Except.bind]
    · have hf : frameStep d st before c after =
          .ok (st.flushWord.markSignificant, n) := by
        simp only [hnormal, normalStep, ho, hterm, if_false, Bool.false_eq_true]
      rw [frameFrom_of_step hf hn]
      simp only [pieceStep, piece, ho, absorb, hterm, if_false, Except.bind, Except.map,
        Bool.false_eq_true]
  · by_cases hd : d = .oracle
    · subst hd
      have hf : frameStep .oracle st before c after =
          .error "Oracle server SQL must not include a client statement terminator" := by
        simp only [hnormal, normalStep, ho, if_true]
      rw [frameFrom_of_error hf]
      simp only [pieceStep, piece, ho, absorb, if_true, Except.bind]
    · by_cases hterm : st.terminated
      · have hf : frameStep d st before c after = .error "Only one SQL statement is allowed" := by
          simp only [hnormal, normalStep, ho, hd, hterm, if_true, if_false]
        rw [frameFrom_of_error hf]
        simp only [pieceStep, piece, ho, absorb, hd, hterm, if_true, if_false, Except.bind]
      · have hf : frameStep d st before c after =
            .ok ({ st.flushWord with terminated := true }, 1) := by
          simp only [hnormal, normalStep, ho, hd, hterm, if_false, Bool.false_eq_true]
        rw [frameFrom_of_step hf Nat.one_pos]
        simp only [pieceStep, piece, ho, absorb, hd, hterm, if_false, Except.bind, Except.map,
          Bool.false_eq_true]
  · exact frameFrom_character hst before c after ho

/-- **The two loops agree**, from every cursor between two pieces. -/
theorem frameFrom_eq_pieceFrom (hst : st.AtBoundary) (before rest : List Char) :
    frameFrom d st before rest = pieceFrom d st before rest := by
  induction before, rest using cursorInduction generalizing st with
  | nil before => rfl
  | cons before c rest ih =>
    rw [frameFrom_cons hst]
    rcases hs : pieceStep d st before c rest with e | ⟨st', n⟩
    · rw [pieceFrom_of_error hs]
      rfl
    · have hn : 0 < n := pieceStep_progressive d hs
      have hst' : st'.AtBoundary := pieceStep_atBoundary hst hs
      rw [pieceFrom_of_step hs hn]
      exact ih n hn hst'

/-! ### The pieces of a text -/

/-- The piece at a position, with its length; a piece that is never closed is an error. -/
def cutPiece (d : SqlFramingDialect) : Cutter Piece String Char := fun before current after ↦
  match piece d before current after with
  | .error e => .error e
  | .ok (p, extent) => extent.map (p, ·)

/-- The pieces of a text, each with its text. -/
def cutText (d : SqlFramingDialect) (sql : List Char) : Except String (List (Piece × List Char)) :=
  cutAll (cutPiece d) [] sql

theorem cutPiece_eq_ok_iff :
    cutPiece d before c after = .ok (p, n) ↔ piece d before c after = .ok (p, .ok n) := by
  rw [cutPiece]
  rcases piece d before c after with e | ⟨q, e | m⟩ <;> simp [Except.map]

theorem cutPiece_progressive (d : SqlFramingDialect) : (cutPiece d).Progressive := by
  intro before c after p n h
  exact piece_pos (cutPiece_eq_ok_iff.1 h)

theorem pieceStep_eq_ok_iff : pieceStep d st before c after = .ok (st', n) ↔
      ∃ p, cutPiece d before c after = .ok (p, n) ∧ absorb d st p = .ok st' := by
  simp only [cutPiece_eq_ok_iff]
  rw [pieceStep]
  rcases hp : piece d before c after with e | ⟨p, extent⟩
  · simp
  · rcases ha : absorb d st p with e | st'' <;> rcases extent with e' | m <;>
      simp [ha, Except.map, and_comm]

/-- The coarse loop ends normally exactly when the text can be cut and the fold succeeds. -/
theorem scan_pieceStep_eq_ok_iff : scan (pieceStep d) st before rest = .ok st' ↔
      ∃ ps, cutAll (cutPiece d) before rest = .ok ps ∧
        (ps.map Prod.fst).foldlM (absorb d) st = .ok st' := by
  refine scan_eq_ok_iff (cutPiece_progressive d) ?_
  intro st before c rest st' n
  exact pieceStep_eq_ok_iff

/-- The precheck and the pieces decide what the framer does with a text. -/
theorem frameChars_eq (sql : List Char) (d : SqlFramingDialect) :
    frameChars sql d = (precheck d sql).bind fun _ ↦ pieceFrom d {} [] sql := by
  have hinit : ({} : FrameState).AtBoundary := ⟨rfl, rfl⟩
  rw [← frameFrom_eq_pieceFrom hinit]
  rfl

/-- **An accepted text** is cut into pieces, and its framing is read off the fold over them. -/
theorem frameChars_eq_ok_iff {sql : List Char} :
    frameChars sql d = .ok f ↔
      precheck d sql = .ok () ∧ ∃ ps st, cutText d sql = .ok ps ∧
        (ps.map Prod.fst).foldlM (absorb d) {} = .ok st ∧ finish d st = .ok f := by
  have hloop : pieceFrom d {} [] sql = .ok f ↔ ∃ ps st, cutText d sql = .ok ps ∧
      (ps.map Prod.fst).foldlM (absorb d) {} = .ok st ∧ finish d st = .ok f := by
    rw [pieceFrom]
    constructor
    · intro h
      rcases hscan : scan (pieceStep d) {} [] sql with e | st <;> rw [hscan] at h
      · cases h
      · obtain ⟨ps, hps, hfold⟩ := scan_pieceStep_eq_ok_iff.1 hscan
        exact ⟨ps, st, hps, hfold, h⟩
    · rintro ⟨ps, st, hps, hfold, hf⟩
      rw [scan_pieceStep_eq_ok_iff.2 ⟨ps, hps, hfold⟩]
      exact hf
  rw [frameChars_eq, ← hloop]
  rcases precheck d sql with e | ⟨⟩ <;> simp [Except.bind]

/-! ### The words of a framing -/

/-- The words outside parentheses among the scanned words. -/
def topLevelWords (words : List ScannedWord) : List String :=
  (words.filter (·.depth = 0)).map (·.value)

@[simp]
theorem topLevelWords_append (l m : List ScannedWord) :
    topLevelWords (l ++ m) = topLevelWords l ++ topLevelWords m := by
  simp [topLevelWords]

theorem words_of_finish (h : finish d st = .ok f) :
    f.words = topLevelWords st.flushWord.words ∧ f.allWords = st.flushWord.words.map (·.value) := by
  simp only [finish, frameScanned, frameWords] at h
  split_ifs at h
  cases h
  exact ⟨rfl, rfl⟩

end Sql
