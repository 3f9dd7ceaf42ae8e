import NexusPilot.Scan.Run
import NexusPilot.Text.CommaList
import NexusPilot.Text.Std

/-!
# The editor's statement ranges

`parseSqlStatementRanges` of the editor cuts a script into its statements. It is one loop over the
script with six lexical states; it cuts at a `;` outside all quotes and comments, trims each piece and
keeps those in which a second scanner finds something besides white space and comments.

A script is the list of its code units, written as characters. The loops look at ASCII and at white
space only, so half of a surrogate pair reads like any other character that is neither.
-/

namespace Sql.Ranges

open Scan Text

/-! ### Lexical states -/

/-- A symbol of a dollar quote's tag. -/
def isTagSymbol (c : Char) : Bool :=
  c == '$' || isWordChar c

/-- The tag of a dollar quote, with its dollar signs. -/
structure DollarTag where
  symbols : List Char
  ne_nil : symbols ≠ []
  tag : ∀ c ∈ symbols, isTagSymbol c
  deriving DecidableEq

/-- The loop variables that say where the scanner is: outside all quotes if none is set. -/
structure LexState where
  inSingleQuote : Bool := false
  inDoubleQuote : Bool := false
  inBacktick : Bool := false
  dollarQuoteTag : Option DollarTag := none
  deriving DecidableEq

/-- The tag of `readDollarQuoteTag` whose first character is `c` and whose others are `rest`. -/
def namedTag (c : Char) (hc : isWordStart c) (rest : List Char) : DollarTag where
  symbols := '$' :: c :: (rest.takeWhile isWordChar ++ ['$'])
  ne_nil := List.cons_ne_nil _ _
  tag x hx := by
    simp only [List.mem_cons, List.mem_append, List.not_mem_nil, or_false] at hx
    rcases hx with rfl | rfl | hx | rfl
    · rfl
    · simp [isTagSymbol, isWordChar_of_isWordStart hc]
    · simp [isTagSymbol, List.mem_takeWhile_imp hx]
    · rfl

/-- `readDollarQuoteTag` on the text from its index on. -/
def readDollarQuoteTag : List Char → Option DollarTag
  | '$' :: '$' :: _ => some ⟨['$', '$'], by decide, by decide⟩
  | '$' :: c :: rest =>
    if hc : isWordStart c then
      if (rest.dropWhile isWordChar).head? = some '$' then some (namedTag c hc rest) else none
    else none
  | _ => none

/-- How far a comment at `ch` reaches: a line comment with its line end, a block comment with its
closing mark. One that does not end reaches over the end of the text. -/
def commentLength (ch : Char) (after : List Char) : Option ℕ :=
  if ch = '-' ∧ after.head? = some '-' then
    some (((ch :: after).takeWhile (· ≠ '\n')).length + 1)
  else if ch = '/' ∧ after.head? = some '*' then
    some (2 + (findSub ['*', '/'] (after.drop 1)).getD (after.drop 1).length + 2)
  else if ch = '#' then some (((ch :: after).takeWhile (· ≠ '\n')).length + 1)
  else none

/-- The iterations inside a quote, which both loops share: the new state, and how far the index
moves. -/
def lexQuoted (st : LexState) (ch : Char) (next : Option Char) : LexState × ℕ :=
  if st.inSingleQuote then
    if ch = '\\' ∧ next.isSome then (st, 2)
    else if ch = '\'' ∧ next = some '\'' then (st, 2)
    else if ch = '\'' then ({ st with inSingleQuote := false }, 1)
    else (st, 1)
  else if st.inDoubleQuote then
    if ch = '"' ∧ next = some '"' then (st, 2)
    else if ch = '"' then ({ st with inDoubleQuote := false }, 1)
    else (st, 1)
  else
    if ch = '\x60' ∧ next = some '\x60' then (st, 2)
    else if ch = '\x60' then ({ st with inBacktick := false }, 1)
    else (st, 1)

/-- An iteration outside the quotes, the cut at a `;` apart. -/
def lexPlain (st : LexState) (ch : Char) (after : List Char) : LexState × ℕ :=
  match commentLength ch after with
  | some n => (st, n)
  | none =>
    match readDollarQuoteTag (ch :: after) with
    | some tag => ({ st with dollarQuoteTag := some tag }, tag.symbols.length)
    | none =>
      if ch = '\'' then ({ st with inSingleQuote := true }, 1)
      else if ch = '"' then ({ st with inDoubleQuote := true }, 1)
      else if ch = '\x60' then ({ st with inBacktick := true }, 1)
      else (st, 1)

/-- **One iteration** of `parseSqlStatementRanges`, the cut at a `;` apart. -/
def lex (st : LexState) (ch : Char) (after : List Char) : LexState × ℕ :=
  match st.dollarQuoteTag with
  | some tag =>
    if tag.symbols <+: ch :: after then ({ st with dollarQuoteTag := none }, tag.symbols.length)
    else (st, 1)
  | none =>
    if st.inSingleQuote || st.inDoubleQuote || st.inBacktick then lexQuoted st ch after.head?
    else lexPlain st ch after

/-- Whether the iteration cuts: at a `;` outside all quotes and comments. -/
def isCut (st : LexState) (ch : Char) : Bool :=
  st = {} && ch = ';'

/-! ### The ranges -/

/-- `SqlStatementRange`. -/
structure SqlStatementRange where
  text : List Char
  startOffset : ℕ
  endOffset : ℕ
  startLineNumber : ℕ
  startColumn : ℕ
  endLineNumber : ℕ
  endColumn : ℕ
  executable : Bool
  deriving DecidableEq

/-- `sql.slice(start, end)`. -/
def slice (sql : List Char) (startOffset endOffset : ℕ) : List Char :=
  (sql.take endOffset).drop startOffset

/-- The loop of `offsetToLineColumn` over one character. -/
def advance (location : ℕ × ℕ) (c : Char) : ℕ × ℕ :=
  if c = '\n' then (location.1 + 1, 1) else (location.1, location.2 + 1)

/-- `offsetToLineColumn`: the line number and the column. -/
def offsetToLineColumn (sql : List Char) (offset : ℕ) : ℕ × ℕ :=
  (sql.take offset).foldl advance (1, 1)

/-- `trimStatementBounds`. -/
def trimStatementBounds (sql : List Char) (startOffset endOffset : ℕ) : ℕ × ℕ :=
  let trimmedStart :=
    startOffset + ((slice sql startOffset endOffset).takeWhile isScriptSpace).length
  let trimmedEnd :=
    endOffset - ((slice sql trimmedStart endOffset).reverse.takeWhile isScriptSpace).length
  (trimmedStart, trimmedEnd)

/-- An iteration of `containsExecutableToken`. An early exit is a `return true`, which stands before
every iteration that would open a quote. -/
def executableStep : Step LexState Unit Char := fun st _ ch after ↦
  if st.inSingleQuote || st.inDoubleQuote || st.inBacktick then .ok (lexQuoted st ch after.head?)
  else match commentLength ch after with
  | some n => .ok (st, n)
  | none =>
    if (readDollarQuoteTag (ch :: after)).isSome then .error ()
    else if ch = '\'' then .error ()
    else if ch = '"' then .error ()
    else if ch = '\x60' then .error ()
    else if !isScriptSpace ch then .error ()
    else .ok (st, 1)

/-- `containsExecutableToken`. -/
def containsExecutableToken (sql : List Char) : Bool :=
  match scan executableStep {} [] sql with
  | .error () => true
  | .ok _ => false

/-- The loop variables of `parseSqlStatementRanges`. -/
structure SplitState where
  ranges : List SqlStatementRange := []
  statementStartOffset : ℕ := 0
  lexical : LexState := {}
  deriving DecidableEq

/-- What `pushRange` adds to the ranges. -/
def rangeBetween (sql : List Char) (statementStartOffset rawEndOffset : ℕ) :
    Option SqlStatementRange :=
  let trimmed := trimStatementBounds sql statementStartOffset rawEndOffset
  if trimmed.2 ≤ trimmed.1 then none
  else
    let text := slice sql trimmed.1 trimmed.2
    let executable := containsExecutableToken text
    if !executable then none
    else
      let startLocation := offsetToLineColumn sql trimmed.1
      let endLocation := offsetToLineColumn sql trimmed.2
      some { text
             startOffset := trimmed.1
             endOffset := trimmed.2
             startLineNumber := startLocation.1
             startColumn := startLocation.2
             endLineNumber := endLocation.1
             endColumn := endLocation.2
             executable }

/-- `pushRange`. -/
def pushRange (sql : List Char) (rawEndOffset : ℕ) (s : SplitState) : SplitState :=
  { s with ranges := s.ranges ++ (rangeBetween sql s.statementStartOffset rawEndOffset).toList }

/-- An iteration of `parseSqlStatementRanges`. -/
def splitStep (sql : List Char) : Step SplitState Empty Char := fun s before ch after ↦
  if isCut s.lexical ch then
    .ok ({ pushRange sql before.length s with statementStartOffset := before.length + 1 }, 1)
  else
    let (lexical, n) := lex s.lexical ch after
    .ok ({ s with lexical }, n)

/-- `parseSqlStatementRanges`. -/
def parseSqlStatementRanges (sql : List Char) : List SqlStatementRange :=
  match scan (splitStep sql) {} [] sql with
  | .ok s => (pushRange sql sql.length s).ranges

example : (parseSqlStatementRanges "a; -- b;\n ;'c;' ;$x$;$x$".toList).map
    (fun r ↦ (String.ofList r.text, r.startOffset, r.startLineNumber, r.startColumn)) =
      [("a", 0, 1, 1), ("'c;'", 11, 2, 3), ("$x$;$x$", 17, 2, 9)] := by decide +kernel

/-! ### What stands behind a statement -/

variable {c ch : Char} {tail rest : List Char} {st : LexState}

theorem isScriptSpace_eq_false_of_isTagSymbol (h : isTagSymbol c) : isScriptSpace c = false := by
  have hbound : 0x24 ≤ c.toNat ∧ c.toNat ≤ 0x7A := by
    rw [isTagSymbol, Bool.or_eq_true, beq_iff_eq] at h
    rcases h with rfl | h
    · decide
    · have hrange := range_of_isWordChar h
      omega
  simp only [isScriptSpace, Bool.or_eq_false_iff, Bool.and_eq_false_iff, decide_eq_false_iff_not,
    beq_eq_false_iff_ne]
  omega

/-- What may stand behind a trimmed piece of a script: nothing, white space or a `;`. -/
def Delimits (tail : List Char) : Prop :=
  ∀ c, tail.head? = some c → isScriptSpace c ∨ c = ';'

theorem Delimits.head?_ne (h : Delimits tail) (hspace : isScriptSpace c = false) (hne : c ≠ ';') :
    tail.head? ≠ some c := by
  intro hc
  rcases h c hc with hc | rfl
  · rw [hspace] at hc
    exact Bool.false_ne_true hc
  · exact hne rfl

/-- What stands behind a piece is no symbol of a tag. -/
theorem Delimits.not_isTagSymbol (h : Delimits tail) (hc : tail.head? = some c) : isTagSymbol c = false := by
  rcases h c hc with hspace | rfl
  · by_contra htag
    rw [isScriptSpace_eq_false_of_isTagSymbol (by simpa using htag)] at hspace
    exact Bool.false_ne_true hspace
  · decide

/-- A character that is neither white space nor a `;` comes next in a piece with something behind it
exactly if it comes next in the piece. -/
theorem Delimits.head?_append (h : Delimits tail) (hspace : isScriptSpace c = false) (hne : c ≠ ';')
    (after : List Char) :
    (after ++ tail).head? = some c ↔ after.head? = some c := by
  cases after with
  | nil => simp [h.head?_ne hspace hne]
  | cons a after => simp

theorem Delimits.dropWhile_append (h : Delimits tail) (after : List Char) :
    (after ++ tail).takeWhile isWordChar = after.takeWhile isWordChar ∧
      ((after ++ tail).dropWhile isWordChar).head? = ((after.dropWhile isWordChar) ++ tail).head? := by
  have hword : tail.takeWhile isWordChar = [] ∧ tail.dropWhile isWordChar = tail := by
    cases tail with
    | nil => exact ⟨rfl, rfl⟩
    | cons c tail =>
      have hc : isWordChar c = false := by
        have := h.not_isTagSymbol (c := c) rfl
        rw [isTagSymbol, Bool.or_eq_false_iff] at this
        exact this.2
      simp [hc]
  induction after with
  | nil => simp [hword]
  | cons a after ih =>
    by_cases ha : isWordChar a
    · simp [ha, ih]
    · simp [ha]

/-! ### Iterations near the end of a piece -/

/-- A line comment of a piece ends in the piece or reaches over its end. -/
theorem length_takeWhile_append (p : Char → Bool) (xs tail : List Char) :
    ((xs ++ tail).takeWhile p).length = (xs.takeWhile p).length ∨
      (xs.takeWhile p).length = xs.length ∧ xs.length ≤ ((xs ++ tail).takeWhile p).length := by
  rw [List.takeWhile_append]
  split
  · next h => exact Or.inr ⟨h, by simp⟩
  · exact Or.inl rfl

/-- A comment of a piece is the comment of the whole text, or both reach over the end of the piece. -/
theorem commentLength_append (h : Delimits tail) (ch : Char) (after : List Char) :
    commentLength ch (after ++ tail) = commentLength ch after ∨
      ∃ m n, commentLength ch after = some m ∧ commentLength ch (after ++ tail) = some n ∧
        after.length + 1 ≤ m ∧ after.length + 1 ≤ n := by
  have hdash := h.head?_append (c := '-') (by decide) (by decide) after
  have hstar := h.head?_append (c := '*') (by decide) (by decide) after
  have hline : ((ch :: (after ++ tail)).takeWhile (· ≠ '\n')).length =
        ((ch :: after).takeWhile (· ≠ '\n')).length ∨
      ((ch :: after).takeWhile (· ≠ '\n')).length = after.length + 1 ∧
        after.length + 1 ≤ ((ch :: (after ++ tail)).takeWhile (· ≠ '\n')).length :=
    length_takeWhile_append _ (ch :: after) tail
  unfold commentLength
  simp only [hdash, hstar]
  split
  · rcases hline with heq | ⟨hm, hn⟩
    · exact Or.inl (by rw [heq])
    · exact Or.inr ⟨_, _, rfl, rfl, by omega, by omega⟩
  split
  · next hblock =>
    obtain ⟨xs, rfl⟩ := List.head?_eq_some_iff.1 hblock.2
    simp only [List.cons_append, List.drop_succ_cons, List.drop_zero, List.length_cons]
    rcases hfind : findSub ['*', '/'] xs with - | i
    · refine Or.inr ⟨_, _, rfl, rfl, by simp, ?_⟩
      rcases hall : findSub ['*', '/'] (xs ++ tail) with - | i
      · simp
        omega
      · have := lt_of_findSub_append hfind hall
        simp only [List.length_cons, List.length_nil, Option.getD_some] at this ⊢
        omega
    · rw [findSub_append_of_eq_some (List.cons_ne_nil _ _) hfind]
      exact Or.inl rfl
  split
  · rcases hline with heq | ⟨hm, hn⟩
    · exact Or.inl (by rw [heq])
    · exact Or.inr ⟨_, _, rfl, rfl, by omega, by omega⟩
  · exact Or.inl rfl

theorem readDollarQuoteTag_of_ne (h : ch ≠ '$') (after : List Char) :
    readDollarQuoteTag (ch :: after) = none := by
  unfold readDollarQuoteTag
  split
  · next heq => exact absurd (List.cons.inj heq).1 h
  · next heq => exact absurd (List.cons.inj heq).1 h
  · rfl

theorem readDollarQuoteTag_cons (h : c ≠ '$') (rest : List Char) :
    readDollarQuoteTag ('$' :: c :: rest) =
      if hc : isWordStart c then
        if (rest.dropWhile isWordChar).head? = some '$' then some (namedTag c hc rest) else none
      else none := by
  rw [readDollarQuoteTag]
  exact fun hc ↦ h hc

theorem namedTag_congr (hc : isWordStart c) {rest' : List Char}
    (h : rest.takeWhile isWordChar = rest'.takeWhile isWordChar) :
    namedTag c hc rest = namedTag c hc rest' := by
  simp only [namedTag, h]

/-- A tag ends inside its piece. -/
theorem readDollarQuoteTag_append (h : Delimits tail) (ch : Char) (after : List Char) :
    readDollarQuoteTag (ch :: (after ++ tail)) = readDollarQuoteTag (ch :: after) := by
  by_cases hch : ch = '$'
  · subst hch
    cases after with
    | nil =>
      cases tail with
      | nil => rfl
      | cons c tail =>
        have hc := h.not_isTagSymbol (c := c) rfl
        rw [isTagSymbol, Bool.or_eq_false_iff, beq_eq_false_iff_ne] at hc
        have hstart : ¬ isWordStart c := fun hstart ↦ by
          rw [isWordChar_of_isWordStart hstart] at hc
          exact Bool.false_ne_true hc.2.symm
        rw [List.nil_append, readDollarQuoteTag_cons hc.1, dif_neg hstart]
        rfl
    | cons c rest =>
      by_cases hc : c = '$'
      · subst hc
        rfl
      · obtain ⟨htake, hdrop⟩ := h.dropWhile_append rest
        rw [List.cons_append, readDollarQuoteTag_cons hc, readDollarQuoteTag_cons hc, hdrop]
        simp only [h.head?_append (c := '$') (by decide) (by decide), namedTag_congr _ htake]
  · rw [readDollarQuoteTag_of_ne hch, readDollarQuoteTag_of_ne hch]

theorem lexQuoted_pos (st : LexState) (ch : Char) (next : Option Char) :
    0 < (lexQuoted st ch next).2 := by
  unfold lexQuoted
  split_ifs <;> exact Nat.succ_pos _

theorem commentLength_pos {after : List Char} {n : ℕ} (h : commentLength ch after = some n) : 0 < n := by
  unfold commentLength at h
  split_ifs at h <;> (cases h; omega)

theorem lexPlain_pos (st : LexState) (ch : Char) (after : List Char) :
    0 < (lexPlain st ch after).2 := by
  unfold lexPlain
  split
  · next h => exact commentLength_pos h
  split
  · next tag _ => exact List.length_pos_of_ne_nil tag.ne_nil
  · split_ifs <;> exact Nat.one_pos

/-- Every iteration moves the index. -/
theorem lex_pos (st : LexState) (ch : Char) (after : List Char) : 0 < (lex st ch after).2 := by
  unfold lex
  split
  · next tag _ =>
    split
    · exact List.length_pos_of_ne_nil tag.ne_nil
    · exact Nat.one_pos
  · split
    · exact lexQuoted_pos st ch after.head?
    · exact lexPlain_pos st ch after

/-- A tag closes a dollar quote inside the piece, or not at all. -/
theorem DollarTag.prefix_append (tag : DollarTag) {tail : List Char} (h : Delimits tail)
    (xs : List Char) : tag.symbols <+: xs ++ tail ↔ tag.symbols <+: xs := by
  refine ⟨fun hall ↦ ?_, fun hxs ↦ hxs.trans (List.prefix_append xs tail)⟩
  by_contra hnot
  have hlen : ¬ tag.symbols.length ≤ xs.length := fun hle ↦
    hnot (List.prefix_of_prefix_length_le hall (List.prefix_append xs tail) hle)
  obtain ⟨more, hmore⟩ : xs <+: tag.symbols :=
    List.prefix_of_prefix_length_le (List.prefix_append xs tail) hall (by omega)
  rw [← hmore, List.prefix_append_right_inj] at hall
  cases more with
  | nil =>
    rw [List.append_nil] at hmore
    exact hlen (by rw [hmore])
  | cons c more =>
    obtain ⟨rest, rfl⟩ := hall
    have hc : isTagSymbol c := tag.tag c (by rw [← hmore]; simp)
    rw [h.not_isTagSymbol (c := c) rfl] at hc
    exact Bool.false_ne_true hc

theorem lexQuoted_append (st : LexState) (ch : Char) (after tail : List Char) :
    lexQuoted st ch (after ++ tail).head? = lexQuoted st ch after.head? ∨
      after.length + 1 ≤ (lexQuoted st ch after.head?).2 ∧
        after.length + 1 ≤ (lexQuoted st ch (after ++ tail).head?).2 := by
  cases after with
  | nil => exact Or.inr ⟨lexQuoted_pos _ _ _, lexQuoted_pos _ _ _⟩
  | cons a after => exact Or.inl rfl

theorem lexPlain_append (h : Delimits tail) (st : LexState) (ch : Char) (after : List Char) :
    lexPlain st ch (after ++ tail) = lexPlain st ch after ∨
      after.length + 1 ≤ (lexPlain st ch after).2 ∧
        after.length + 1 ≤ (lexPlain st ch (after ++ tail)).2 := by
  unfold lexPlain
  rw [readDollarQuoteTag_append h]
  rcases commentLength_append h ch after with heq | ⟨m, n, hm, hn, hmle, hnle⟩
  · exact Or.inl (by rw [heq])
  · rw [hm, hn]
    exact Or.inr ⟨hmle, hnle⟩

/-- **An iteration of a piece is the iteration of the whole text, or both reach over the end of the
piece.** -/
theorem lex_append (h : Delimits tail) (st : LexState) (ch : Char) (after : List Char) :
    lex st ch (after ++ tail) = lex st ch after ∨
      after.length + 1 ≤ (lex st ch after).2 ∧ after.length + 1 ≤ (lex st ch (after ++ tail)).2 := by
  unfold lex
  split
  · next tag _ =>
    refine Or.inl ?_
    simp only [← List.cons_append, tag.prefix_append h]
  split
  · exact lexQuoted_append st ch after tail
  · exact lexPlain_append h st ch after

/-! ### The pieces between the cuts -/

/-- The loop up to its first cut, whose offset is an early exit. -/
def cutStep : Step LexState ℕ Char := fun st before ch after ↦
  if isCut st ch then .error before.length else .ok (lex st ch after)

/-- The iterations of the scanner over a script: the lexical state, the characters passed and the
characters still to come. A cut leaves the scanner where an ordinary character would. -/
inductive Visits (sql : List Char) : LexState → List Char → List Char → Prop
  | start : Visits sql {} [] sql
  | step {st before ch after} (h : Visits sql st before (ch :: after)) :
      Visits sql (lex st ch after).1 (behind (lex st ch after).2 before (ch :: after))
        ((ch :: after).drop (lex st ch after).2)

/-- Offset `i` is in a comment: the scanner meets one outside all quotes, and it reaches over `i`. -/
def InComment (sql : List Char) (i : ℕ) : Prop :=
  ∃ before ch after n, Visits sql {} before (ch :: after) ∧ commentLength ch after = some n ∧
    before.length ≤ i ∧ i < before.length + n

theorem Visits.reverse_append {sql : List Char} {before : List Char} (h : Visits sql st before rest) :
    before.reverse ++ rest = sql := by
  induction h with
  | start => rfl
  | @step st before ch after h ih => simp [behind, ← ih]

/-- What a cut passes is one character, and the scanner is outside all quotes before and behind it. -/
theorem lex_of_isCut (h : isCut st ch) (after : List Char) :
    st = {} ∧ ch = ';' ∧ lex st ch after = ({}, 1) := by
  simp only [isCut, Bool.and_eq_true, decide_eq_true_eq] at h
  obtain ⟨rfl, rfl⟩ := h
  exact ⟨rfl, rfl, rfl⟩

/-- **The next cut.** From any iteration the loop runs to the end of the script without a cut, or up to
a `;`, where it pushes a range and goes on outside all quotes. -/
theorem next_cut (sql : List Char) (st : LexState) (before rest : List Char) :
    ((∃ st', scan cutStep st before rest = .ok st' ∧ ∀ s : SplitState, s.lexical = st →
        scan (splitStep sql) s before rest = .ok { s with lexical := st' }) ∨
      ∃ mid after, rest = mid ++ ';' :: after ∧
        scan cutStep st before rest = .error (before.length + mid.length) ∧
        (Visits sql st before rest → Visits sql {} (mid.reverse ++ before) (';' :: after)) ∧
        ∀ s : SplitState, s.lexical = st → scan (splitStep sql) s before rest =
          scan (splitStep sql)
            { pushRange sql (before.length + mid.length) s with
              statementStartOffset := before.length + mid.length + 1
              lexical := {} } (';' :: (mid.reverse ++ before)) after) := by
  induction before, rest using cursorInduction generalizing st with
  | nil before => exact Or.inl ⟨st, rfl, fun s hs ↦ by rw [← hs]; rfl⟩
  | cons before ch after ih =>
    by_cases hcut : isCut st ch
    · obtain ⟨rfl, rfl, -⟩ := lex_of_isCut hcut after
      refine Or.inr ⟨[], after, rfl, scan_cons_of_error (by rw [cutStep, if_pos hcut]; rfl),
        fun h ↦ h, fun s hs ↦ ?_⟩
      have hstep : splitStep sql s before ';' after =
          .ok ({ pushRange sql before.length s with
                 statementStartOffset := before.length + 1
                 lexical := {} }, 1) := by
        rw [splitStep, hs, if_pos hcut]
        simp [pushRange, hs]
      rw [scan_cons_of_step hstep Nat.one_pos]
      rfl
    · have hpos := lex_pos st ch after
      rcases hlex : lex st ch after with ⟨st₁, n⟩
      rw [hlex] at hpos
      have hcutStep : cutStep st before ch after = .ok (st₁, n) := by
        rw [cutStep, if_neg hcut, hlex]
      have hsplit : ∀ s : SplitState, s.lexical = st →
          splitStep sql s before ch after = .ok ({ s with lexical := st₁ }, n) := by
        intro s hs
        rw [splitStep, hs, if_neg hcut, hlex]
      rw [scan_cons_of_step hcutStep hpos]
      rcases ih n hpos st₁ with ⟨st', hend, hscan⟩ | ⟨mid, rest, hrest, hcutAt, hvisits, hscan⟩
      · refine Or.inl ⟨st', hend, fun s hs ↦ ?_⟩
        rw [scan_cons_of_step (hsplit s hs) hpos]
        exact hscan { s with lexical := st₁ } rfl
      · have hlen : (behind n before (ch :: after)).length + mid.length =
            before.length + ((ch :: after).take n ++ mid).length := by
          simp only [behind, List.length_append, List.length_reverse]
          omega
        have hbehind : mid.reverse ++ behind n before (ch :: after) =
            ((ch :: after).take n ++ mid).reverse ++ before := by
          rw [behind, List.reverse_append, List.append_assoc]
        rw [hlen] at hcutAt hscan
        rw [hbehind] at hvisits hscan
        refine Or.inr ⟨(ch :: after).take n ++ mid, rest, ?_, hcutAt, fun h ↦ hvisits ?_, fun s hs ↦ ?_⟩
        · rw [List.append_assoc, ← hrest, List.take_append_drop]
        · have hstep := h.step
          rwa [hlex] at hstep
        · rw [scan_cons_of_step (hsplit s hs) hpos, hscan _ rfl]
          rfl

/-- **A piece scanned on its own** has no cut if the script is not cut inside it. -/
theorem scan_piece (h : Delimits tail) (st : LexState) (before before' piece : List Char)
    (hcuts : ∀ p, scan cutStep st before (piece ++ tail) = .error p → before.length + piece.length ≤ p) :
    ∃ st', scan cutStep st before' piece = .ok st' := by
  induction before', piece using cursorInduction generalizing st before with
  | nil before' => exact ⟨st, rfl⟩
  | cons before' ch after ih =>
    have hcut : ¬ isCut st ch := by
      intro hcut
      have := hcuts before.length (scan_cons_of_error (by rw [cutStep, if_pos hcut]))
      simp only [List.length_cons] at this
      omega
    rcases hlex : lex st ch after with ⟨st₁, n⟩
    have hpos : 0 < n := by
      have := lex_pos st ch after
      rwa [hlex] at this
    have hstep : ∀ b xs, lex st ch xs = (st₁, n) → cutStep st b ch xs = .ok (st₁, n) := fun b xs h ↦ by
      rw [cutStep, if_neg hcut, h]
    rw [scan_cons_of_step (hstep before' after hlex) hpos]
    by_cases hover : after.length + 1 ≤ n
    · rw [List.drop_eq_nil_of_le (by simpa using hover)]
      exact ⟨st₁, rfl⟩
    -- an iteration that stays inside the piece is one of the script
    · have heq : lex st ch (after ++ tail) = (st₁, n) := by
        rw [← hlex]
        refine (lex_append h st ch after).resolve_right fun hboth ↦ hover ?_
        rw [hlex] at hboth
        exact hboth.1
      refine ih n hpos st₁ (behind n before (ch :: after)) fun p hp ↦ ?_
      have hdrop : ((ch :: after) ++ tail).drop n = (ch :: after).drop n ++ tail :=
        List.drop_append_of_le_length (by simp only [List.length_cons]; omega)
      have hbehind : behind n before ((ch :: after) ++ tail) = behind n before (ch :: after) := by
        rw [behind, behind, List.take_append_of_le_length (by simp only [List.length_cons]; omega)]
      have hscan : scan cutStep st before ((ch :: after) ++ tail) = .error p := by
        rw [List.cons_append, scan_cons_of_step (hstep before (after ++ tail) heq) hpos,
          ← List.cons_append, hdrop, hbehind]
        exact hp
      have hle := hcuts p hscan
      simp only [behind, List.length_append, List.length_reverse, List.length_take, List.length_drop,
        List.length_cons] at hle ⊢
      omega

end Sql.Ranges
