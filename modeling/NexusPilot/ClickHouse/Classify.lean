import NexusPilot.Sql.Framing
import NexusPilot.Text.Utf8

/-!
# The ClickHouse statement classifier

`classify_framed_statement` of the ClickHouse driver. `scan_top_level_tokens` is a second scanner for
ClickHouse SQL, over bytes, with rules of its own for quotes, comments and heredocs; the class of a
statement is read off its tokens outside parentheses.

As in the framer one iteration is a `Scan.Step`. The skipping helpers of the source return a position
and stop at the end of the text, so they are `Scan.reach` of a mode.
-/

namespace ClickHouse

open Scan Text

structure TopLevelToken where
  normalized : String
  original : String
  deriving DecidableEq

/-- `SqlStatementClass`. -/
inductive SqlStatementClass
  | read
  | ddl
  | insert
  | delete
  | mutation
  | system
  | command
  | unknown
  deriving DecidableEq

/-- The loop variables of `scan_top_level_tokens`. -/
structure TokenState where
  depth : ℕ := 0
  tokens : List TopLevelToken := []
  deriving DecidableEq

/-- `push_token_boundary`. -/
def pushTokenBoundary (tokens : List TopLevelToken) : List TopLevelToken :=
  if tokens.getLast?.any fun token ↦ token.normalized ≠ "" then tokens ++ [⟨"", ""⟩] else tokens

/-- `push_token_boundary` under the test of the depth that stands before each of its calls. -/
def TokenState.boundary (st : TokenState) : TokenState :=
  if st.depth = 0 then { st with tokens := pushTokenBoundary st.tokens } else st

/-- `to_ascii_uppercase`. -/
def toAsciiUppercase (s : List Char) : String :=
  String.ofList (s.map Char.toUpper)

/-- The token of a run of word bytes. -/
def TokenState.pushWord (st : TokenState) (word : List Char) : TokenState :=
  if st.depth = 0 then
    { st with tokens := st.tokens ++ [⟨toAsciiUppercase word, String.ofList word⟩] }
  else st

/-! ### Skipping -/

/-- An iteration of `skip_quoted`. -/
def quotedInner (quote : Char) : Inner Unit Empty Char := fun _ c after ↦
  if c = '\\' ∧ quote = '\'' then .ok (some (), 2)
  else if c = quote then
    if after.head? = some quote then .ok (some (), 2) else .ok (none, 1)
  else .ok (some (), 1)

/-- `skip_quoted`, from the opening quote on. -/
def skipQuoted (quote : Char) (after : List Char) : ℕ :=
  1 + reach (quotedInner quote) () after

/-- `skip_line_comment`, which stops before the line feed. -/
def skipLineComment (rest : List Char) : ℕ :=
  (rest.takeWhile (· ≠ '\n')).length

/-- An iteration of `skip_nested_block_comment`. -/
def nestedInner : Inner ℕ Empty Char := fun depth c after ↦
  if c = '/' ∧ after.head? = some '*' then .ok (some (depth + 1), 2)
  else if c = '*' ∧ after.head? = some '/' then
    if depth - 1 = 0 then .ok (none, 2) else .ok (some (depth - 1), 2)
  else .ok (some depth, 1)

/-- `skip_nested_block_comment`. -/
def skipNestedBlockComment (rest : List Char) : ℕ :=
  reach nestedInner 1 rest

/-- The tag loop of `clickhouse_heredoc_end`. -/
def heredocTag : List Char → Option (List Char)
  | [] => none
  | c :: rest =>
    if c = '$' then some []
    else if isWordChar c then (heredocTag rest).map (c :: ·)
    else none

/-- `clickhouse_heredoc_end` at a `$`: how far the heredoc reaches, which without its closing
delimiter is the end of the text. -/
def clickhouseHeredocEnd (before after : List Char) : Option ℕ :=
  if before.head?.any fun c ↦ isWordChar c || c == '$' then none
  else match heredocTag after with
    | none => none
    | some tag =>
      match findSub (Sql.dollarDelimiter tag) (after.drop (tag.length + 1)) with
      | some offset => some ((tag.length + 2) + offset + (tag.length + 2))
      | none => some (after.length + 1)

/-! ### Scanning -/

/-- One iteration of `scan_top_level_tokens`. -/
def tokenStep : Step TokenState Empty Char := fun st before current after ↦
  if current = '\'' ∨ current = '"' ∨ current = '`' then
    .ok (st.boundary, skipQuoted current after)
  else if current = '-' ∧ after.head? = some '-' then
    .ok (st, 2 + skipLineComment (after.drop 1))
  else if current = '#' ∧ after.head?.all fun c ↦ c == '!' || isAsciiWhitespace c then
    .ok (st, 1 + skipLineComment after)
  else if current = '/' ∧ after.head? = some '/' then
    .ok (st, 2 + skipLineComment (after.drop 1))
  else if current = '/' ∧ after.head? = some '*' then
    .ok (st, 2 + skipNestedBlockComment (after.drop 1))
  else if current = '$' then
    match clickhouseHeredocEnd before after with
    | some n => .ok (st.boundary, n)
    | none => .ok (st, 1)
  else if current = '(' then .ok ({ st.boundary with depth := st.depth + 1 }, 1)
  else if current = ')' then .ok (TokenState.boundary { st with depth := st.depth - 1 }, 1)
  else if isWordChar current then
    let word := current :: after.takeWhile isWordChar
    .ok (st.pushWord word, word.length)
  else if isAsciiWhitespace current then .ok (st, 1)
  else .ok (st.boundary, 1)

section Branches

variable {st : TokenState} {before after : List Char} {c : Char}

theorem tokenStep_quote (h : c = '\'' ∨ c = '"' ∨ c = '`') :
    tokenStep st before c after = .ok (st.boundary, skipQuoted c after) :=
  if_pos h

theorem tokenStep_dash (h : after.head? = some '-') :
    tokenStep st before '-' after = .ok (st, 2 + skipLineComment (after.drop 1)) := by
  rw [tokenStep, if_neg (by decide), if_pos ⟨rfl, h⟩]

theorem tokenStep_hash (h : after.head?.all fun c ↦ c == '!' || isAsciiWhitespace c) :
    tokenStep st before '#' after = .ok (st, 1 + skipLineComment after) := by
  rw [tokenStep, if_neg (by decide), if_neg fun h ↦ absurd h.1 (by decide), if_pos ⟨rfl, h⟩]

theorem tokenStep_slash (h : after.head? = some '/') :
    tokenStep st before '/' after = .ok (st, 2 + skipLineComment (after.drop 1)) := by
  rw [tokenStep, if_neg (by decide), if_neg fun h ↦ absurd h.1 (by decide),
    if_neg fun h ↦ absurd h.1 (by decide), if_pos ⟨rfl, h⟩]

theorem tokenStep_block (h : after.head? = some '*') :
    tokenStep st before '/' after = .ok (st, 2 + skipNestedBlockComment (after.drop 1)) := by
  rw [tokenStep, if_neg (by decide), if_neg fun h ↦ absurd h.1 (by decide),
    if_neg fun h ↦ absurd h.1 (by decide), if_neg, if_pos ⟨rfl, h⟩]
  rw [h]
  simp

theorem tokenStep_dollar :
    tokenStep st before '$' after =
      match clickhouseHeredocEnd before after with
      | some n => .ok (st.boundary, n)
      | none => .ok (st, 1) := by
  simp [tokenStep]

theorem tokenStep_left :
    tokenStep st before '(' after = .ok ({ st.boundary with depth := st.depth + 1 }, 1) := by
  simp [tokenStep]

theorem tokenStep_right :
    tokenStep st before ')' after =
      .ok (TokenState.boundary { st with depth := st.depth - 1 }, 1) := by
  simp [tokenStep]

theorem tokenStep_word (h : isWordChar c) :
    tokenStep st before c after =
      .ok (st.pushWord (c :: after.takeWhile isWordChar), (after.takeWhile isWordChar).length + 1) := by
  have hne : ∀ x, isWordChar x = false → c ≠ x := by
    rintro x hx rfl
    rw [h] at hx
    cases hx
  simp [tokenStep, hne '\'' rfl, hne '"' rfl, hne '`' rfl, hne '-' rfl, hne '#' rfl, hne '/' rfl,
    hne '$' rfl, hne '(' rfl, hne ')' rfl, h]

theorem tokenStep_space (h : isAsciiWhitespace c) : tokenStep st before c after = .ok (st, 1) := by
  simp only [isAsciiWhitespace, Bool.or_eq_true, beq_iff_eq, or_assoc] at h
  obtain rfl | rfl | rfl | rfl | rfl := h <;> rfl

/-- A symbol that none of the tests asks for. -/
theorem tokenStep_other (hquote : ¬ (c = '\'' ∨ c = '"' ∨ c = '`'))
    (hdash : ¬ (c = '-' ∧ after.head? = some '-'))
    (hhash : ¬ (c = '#' ∧ after.head?.all fun c ↦ c == '!' || isAsciiWhitespace c))
    (hslash : ¬ (c = '/' ∧ after.head? = some '/')) (hblock : ¬ (c = '/' ∧ after.head? = some '*'))
    (hdollar : c ≠ '$') (hleft : c ≠ '(') (hright : c ≠ ')') (hword : ¬ isWordChar c)
    (hspace : ¬ isAsciiWhitespace c) : tokenStep st before c after = .ok (st.boundary, 1) := by
  rw [tokenStep, if_neg hquote, if_neg hdash, if_neg hhash, if_neg hslash, if_neg hblock,
    if_neg hdollar, if_neg hleft, if_neg hright, if_neg hword, if_neg hspace]

end Branches

/-- `scan_top_level_tokens`, on the bytes of the text. -/
def scanTopLevelTokens (sql : String) : List TopLevelToken :=
  match scan tokenStep {} [] (asBytes sql.toList) with
  | .ok st => st.tokens

/-! ### Classifying -/

/-- `classify_leading`. -/
def classifyLeading (words : List String) : SqlStatementClass :=
  let leading := words.head?.getD ""
  if leading ∈ ["SELECT", "SHOW", "DESCRIBE", "DESC", "EXISTS", "EXPLAIN"] then .read
  else if leading ∈ ["CREATE", "DROP", "RENAME", "TRUNCATE", "ATTACH", "DETACH"] then .ddl
  else if leading = "ALTER" ∧ words.any fun token ↦ token == "UPDATE" || token == "DELETE" then
    .mutation
  else if leading = "ALTER" then .ddl
  else if leading = "INSERT" then .insert
  else if leading = "DELETE" then .delete
  else if leading = "SYSTEM" then .system
  else if leading ∈ ["SET", "USE", "OPTIMIZE", "CHECK", "KILL"] then .command
  else .unknown

/-- The words after `WITH` that `classify_tokens` takes for the operation. -/
def isOperation (token : String) : Bool :=
  token ∈ ["SELECT", "INSERT", "DELETE", "CREATE", "DROP", "ALTER", "SYSTEM", "SET", "USE",
    "OPTIMIZE", "CHECK", "KILL"]

/-- `classify_tokens`. -/
def classifyTokens (tokens : List TopLevelToken) : SqlStatementClass :=
  let words := (tokens.map (·.normalized)).filter (· ≠ "")
  if words.head? ≠ some "WITH" then classifyLeading words
  else match (words.drop 1).dropWhile fun token ↦ !isOperation token with
    | [] => .unknown
    | operation => classifyLeading operation

/-- `classify_framed_statement`, which `ClickHouseDriver::classify_ai_sql` calls. -/
def classifyFramedStatement (sql : String) : SqlStatementClass :=
  classifyTokens (scanTopLevelTokens sql)

example : classifyFramedStatement "WITH 1 AS n INSERT INTO t SELECT n" = .insert := by decide

end ClickHouse
