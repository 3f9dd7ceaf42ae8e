import NexusPilot.Scan.Run
import NexusPilot.Text.Std

/-!
# Framing a single SQL statement

`frame_single_statement` of the assistant's backend bridge: one scanner for five dialects that
rejects texts holding more than one statement and collects the words of the statement it accepts.
It is the loop of the source, one `Scan.Step` for an iteration: the loop variables are a
`FrameState`, `chars[index]` is the current symbol, `chars[index + k]` is read from the symbols
after it and `chars[index - 1]` from the symbols before it, and `index += n; continue` returns `n`.

The source's `u32` depths count characters of a text of at most `sqlMaxChars` characters, so they
never reach their bound and are natural numbers here.
-/

namespace Sql

open Scan Text

/-- `SQL_MAX_CHARS`. -/
def sqlMaxChars : ℕ := 64 * 1024

inductive SqlFramingDialect
  | sqlite
  | mysql
  | postgres
  | oracle
  | clickHouse
  deriving DecidableEq

inductive ScanState
  | normal
  | singleQuote
  | doubleQuote
  | backtick
  | bracketIdentifier
  | lineComment
  | blockComment
  deriving DecidableEq

structure ScannedWord where
  value : String
  depth : ℕ
  deriving DecidableEq

structure StatementFraming where
  words : List String
  allWords : List String
  hasOracleDatabaseLink : Bool
  deriving DecidableEq

/-- The loop variables of `frame_single_statement`. -/
structure FrameState where
  state : ScanState := .normal
  blockDepth : ℕ := 0
  terminated : Bool := false
  words : List ScannedWord := []
  currentWord : List Char := []
  significant : Bool := false
  parenthesisDepth : ℕ := 0
  hasOracleDatabaseLink : Bool := false
  deriving DecidableEq

/-- What `flush_word` pushes: the current word at the current parenthesis depth, unless empty. -/
def FrameState.pendingWord (st : FrameState) : List ScannedWord :=
  if st.currentWord = [] then [] else [⟨String.ofList st.currentWord, st.parenthesisDepth⟩]

/-- `flush_word`. -/
def FrameState.flushWord (st : FrameState) : FrameState :=
  { st with
    words := st.words ++ st.pendingWord
    currentWord := [] }

/-- `state = state`. -/
def FrameState.enter (st : FrameState) (state : ScanState) : FrameState :=
  { st with state }

/-- `state = ScanState::BlockComment; block_depth = depth`. -/
def FrameState.enterBlock (st : FrameState) (depth : ℕ) : FrameState :=
  { st with state := .blockComment, blockDepth := depth }

/-- `significant = true`. -/
def FrameState.markSignificant (st : FrameState) : FrameState :=
  { st with significant := true }

/-! ### Quoted blocks found by looking ahead -/

/-- The tag loop of `dollar_quote_end` after the opening `$`: the characters up to the next `$`,
unless the text ends first or a character is not allowed in a tag. -/
def dollarTag (first : Bool) : List Char → Option (List Char)
  | [] => none
  | c :: rest =>
    if c = '$' then some []
    else if (if first then isWordStart c else isWordChar c) then
      (dollarTag false rest).map (c :: ·)
    else none

/-- `$tag$`. -/
def dollarDelimiter (tag : List Char) : List Char :=
  '$' :: (tag ++ ['$'])

/-- Whether a `$` after this character may not open a dollar quote. -/
def blocksDollarQuote (c : Char) : Bool :=
  isWordChar c || c == '$'

/-- `dollar_quote_end` at a `$`: how far the dollar-quoted block reaches, counted from the `$`. -/
def dollarQuoteEnd (before after : List Char) : Except String (Option ℕ) :=
  if before.head?.any blocksDollarQuote then .ok none
  else match dollarTag true after with
    | none => .ok none
    | some tag =>
      match findSub (dollarDelimiter tag) (after.drop (tag.length + 1)) with
      | some offset => .ok (some ((tag.length + 2) + offset + (tag.length + 2)))
      | none => .error "Dollar-quoted value or block is unterminated"

/-- The closing delimiter of an Oracle alternative quote. -/
def oracleClosing (opening : Char) : Char :=
  if opening = '[' then ']'
  else if opening = '{' then '}'
  else if opening = '(' then ')'
  else if opening = '<' then '>'
  else opening

/-- The body of an Oracle alternative quote, from its opening delimiter on: how far it reaches. -/
def oracleQuoteBody : List Char → Except String ℕ
  | [] => .error "Oracle alternative quoted value is unterminated"
  | opening :: rest =>
    if isWhitespace opening then .error "Oracle alternative quoted value uses an invalid delimiter"
    else match findSub [oracleClosing opening, '\''] rest with
      | some offset => .ok (1 + offset + 2)
      | none => .error "Oracle alternative quoted value is unterminated"

/-- `oracle_q_quote_end` at the current character. -/
def oracleQQuoteEnd (before : List Char) (current : Char) (after : List Char) :
    Except String (Option ℕ) :=
  if before.head?.any fun c ↦ c.isAlphanum || c == '_' || c == '$' || c == '#' then .ok none
  else if eqIgnoreAsciiCase current 'q' && after.head? == some '\'' then
    (oracleQuoteBody (after.drop 1)).map fun n ↦ some (2 + n)
  else if eqIgnoreAsciiCase current 'n' && after.head?.any (eqIgnoreAsciiCase · 'q')
      && after[1]? == some '\'' then
    (oracleQuoteBody (after.drop 2)).map fun n ↦ some (3 + n)
  else .ok none

/-- A carriage return or a line feed. -/
def isLineBreak (c : Char) : Bool :=
  c == '\r' || c == '\n'

/-- `oracle_line_only_slash` at a `/`. -/
def oracleLineOnlySlash (before after : List Char) : Bool :=
  (before.takeWhile fun c ↦ !isLineBreak c).all isWhitespace &&
    (after.takeWhile fun c ↦ !isLineBreak c).all isWhitespace

/-! ### One iteration -/

/-- What an iteration in the normal state finds, in the order in which the source tests for it. -/
inductive Opening
  | lineComment (width : ℕ)
  | blockComment
  | quotedBlock (length : ℕ)
  | terminator
  | character
  deriving DecidableEq

/-- Whether `--` at the current position starts a comment. -/
def dashComment (d : SqlFramingDialect) (current : Char) (after : List Char) : Bool :=
  current == '-' && after.head? == some '-' &&
    (d != .mysql || after[1]?.any isWhitespace)

/-- Whether `#` at the current position starts a comment. -/
def hashComment (d : SqlFramingDialect) (current : Char) (after : List Char) : Bool :=
  current == '#' &&
    (d == .mysql || d == .clickHouse && after.head?.all fun c ↦ c == '!' || isWhitespace c)

/-- Whether the comment opening at the current `/*` is executed by MySQL. -/
def executableComment (after : List Char) : Bool :=
  after[1]? == some '!' ||
    after[1]?.any (eqIgnoreAsciiCase · 'm') && after[2]? == some '!'

/-- The Oracle tests of an iteration in the normal state. -/
def oracleOpening (before : List Char) (current : Char) (after : List Char) :
    Except String Opening :=
  match oracleQQuoteEnd before current after with
  | .error e => .error e
  | .ok (some n) => .ok (.quotedBlock n)
  | .ok none =>
    if current = '/' ∧ oracleLineOnlySlash before after then
      .error "SQL*Plus client commands are not supported"
    else if current = ';' then .ok .terminator
    else .ok .character

/-- The tests of an iteration in the normal state. -/
def opening (d : SqlFramingDialect) (before : List Char) (current : Char) (after : List Char) :
    Except String Opening :=
  if dashComment d current after then .ok (.lineComment 2)
  else if hashComment d current after then .ok (.lineComment 1)
  else if d = .clickHouse ∧ current = '/' ∧ after.head? = some '/' then .ok (.lineComment 2)
  else if current = '/' ∧ after.head? = some '*' then
    if d = .mysql ∧ executableComment after then
      .error "MySQL executable comments are not supported"
    else .ok .blockComment
  else if (d = .postgres ∨ d = .clickHouse) ∧ current = '$' then
    match dollarQuoteEnd before after with
    | .error e => .error e
    | .ok (some n) => .ok (.quotedBlock n)
    | .ok none => .ok .character
  else if d = .oracle then oracleOpening before current after
  else if current = ';' then .ok .terminator
  else .ok .character

/-- The quoted state that a character outside quotes and comments enters, if any. -/
def quoteOpenedBy (d : SqlFramingDialect) (c : Char) : Option ScanState :=
  if c = '\'' then some .singleQuote
  else if c = '"' then some .doubleQuote
  else if c = '`' ∧ (d = .sqlite ∨ d = .mysql ∨ d = .clickHouse) then some .backtick
  else if c = '[' ∧ d = .sqlite then some .bracketIdentifier
  else none

/-- The `match current` of an iteration in the normal state, for a character that opens no quote. -/
def plainCharacter (d : SqlFramingDialect) (st : FrameState) (c : Char) :
    Except String FrameState :=
  if c = '(' then
    .ok { st.flushWord with parenthesisDepth := st.parenthesisDepth + 1 }
  else if c = ')' then
    if st.parenthesisDepth = 0 then .error "SQL contains unmatched parentheses"
    else .ok { st.flushWord with parenthesisDepth := st.parenthesisDepth - 1 }
  else if c = '@' ∧ d = .oracle then .ok { st.flushWord with hasOracleDatabaseLink := true }
  else if isWordStart c then .ok { st with currentWord := st.currentWord ++ [c.toUpper] }
  else if c.isDigit ∧ st.currentWord ≠ [] then
    .ok { st with currentWord := st.currentWord ++ [c] }
  else .ok st.flushWord

/-- The end of an iteration in the normal state, once no comment, quoted block or terminator was
found. -/
def characterStep (d : SqlFramingDialect) (st : FrameState) (c : Char) :
    Except String FrameState :=
  if ¬ isWhitespace c ∧ st.terminated then .error "Only one SQL statement is allowed"
  else
    let st := if isWhitespace c then st else st.markSignificant
    match quoteOpenedBy d c with
    | some state => .ok (st.flushWord.enter state)
    | none => plainCharacter d st c

/-- An iteration in the normal state. -/
def normalStep (d : SqlFramingDialect) : Step FrameState String Char :=
  fun st before current after ↦
    match opening d before current after with
    | .error e => .error e
    | .ok (.lineComment width) => .ok (st.flushWord.enter .lineComment, width)
    | .ok .blockComment => .ok (st.flushWord.enterBlock 1, 2)
    | .ok (.quotedBlock n) =>
      if st.terminated then .error "Only one SQL statement is allowed"
      else .ok (st.flushWord.markSignificant, n)
    | .ok .terminator =>
      if d = .oracle then
        .error "Oracle server SQL must not include a client statement terminator"
      else if st.terminated then .error "Only one SQL statement is allowed"
      else .ok ({ st.flushWord with terminated := true }, 1)
    | .ok .character => (characterStep d st current).map (·, 1)

/-- An iteration inside a string or a quoted identifier. -/
def quoteStep (d : SqlFramingDialect) (delimiter : Char) : Step FrameState String Char :=
  fun st _ current after ↦
    if current = '\\' then
      if d = .clickHouse then .ok (st, 2)
      else .error "Dialect-specific backslash quoting is not supported yet"
    else if current = delimiter then
      if after.head? = some delimiter then .ok (st, 2)
      else .ok (st.enter .normal, 1)
    else .ok (st, 1)

/-- An iteration inside a bracketed identifier. -/
def bracketStep : Step FrameState String Char := fun st _ current after ↦
  if current = ']' then
    if after.head? = some ']' then .ok (st, 2) else .ok (st.enter .normal, 1)
  else .ok (st, 1)

/-- An iteration inside a line comment. -/
def lineCommentStep : Step FrameState String Char := fun st _ current _ ↦
  if isLineBreak current then .ok (st.enter .normal, 1) else .ok (st, 1)

/-- An iteration inside a block comment. -/
def blockCommentStep (d : SqlFramingDialect) : Step FrameState String Char :=
  fun st _ current after ↦
    if current = '/' ∧ after.head? = some '*' then
      if d = .mysql ∨ d = .oracle then
        .error "Nested block comments are not supported for this SQL dialect"
      else .ok ({ st with blockDepth := st.blockDepth + 1 }, 2)
    else if current = '*' ∧ after.head? = some '/' then
      if st.blockDepth - 1 = 0 then .ok ({ st with blockDepth := 0, state := .normal }, 2)
      else .ok ({ st with blockDepth := st.blockDepth - 1 }, 2)
    else .ok (st, 1)

/-- One iteration of the loop of `frame_single_statement`. -/
def frameStep (d : SqlFramingDialect) : Step FrameState String Char :=
  fun st before current after ↦
    match st.state with
    | .normal => normalStep d st before current after
    | .singleQuote => quoteStep d '\'' st before current after
    | .doubleQuote => quoteStep d '"' st before current after
    | .backtick => quoteStep d '`' st before current after
    | .bracketIdentifier => bracketStep st before current after
    | .lineComment => lineCommentStep st before current after
    | .blockComment => blockCommentStep d st before current after

/-! ### Before and after the loop -/

/-- The tests that precede the loop. -/
def precheck (d : SqlFramingDialect) (sql : List Char) : Except String Unit :=
  let trimmed := trimStart sql
  if trim sql = [] then .error "SQL must not be empty"
  else if sqlMaxChars < sql.length then .error "SQL exceeds the maximum length"
  else if trimmed.head?.any fun c ↦ c == '\\' || c == '!' || c == '.' then
    .error "Client or host commands are not supported"
  else if d = .oracle ∧ (trimmed.head? = some '@' ∨ trimmed = ['/'] ∨
      trimmed.take 2 = ['/', '\r'] ∨ trimmed.take 2 = ['/', '\n']) then
    .error "SQL*Plus client commands are not supported"
  else .ok ()

/-- The depth-0 words, and the tests on them. -/
def frameWords (d : SqlFramingDialect) (words : List ScannedWord) (link : Bool) :
    Except String StatementFraming :=
  let topLevel := (words.filter (·.depth = 0)).map (·.value)
  if topLevel = [] then .error "SQL must contain one top-level statement"
  else if topLevel.head? = some "DELIMITER" ∨ topLevel.head? = some "SOURCE" ∨
      d = .mysql ∧ topLevel.head? = some "SYSTEM" then
    .error "Client or host commands are not supported"
  else .ok
    { words := topLevel
      allWords := words.map (·.value)
      hasOracleDatabaseLink := link }

/-- The tests that follow the loop in a text that ends outside quotes and block comments. -/
def frameScanned (d : SqlFramingDialect) (words : List ScannedWord) (parenthesisDepth : ℕ)
    (significant link : Bool) : Except String StatementFraming :=
  if parenthesisDepth ≠ 0 then .error "SQL contains unmatched parentheses"
  else if ¬ significant ∨ words = [] then .error "SQL must contain one statement"
  else frameWords d words link

/-- What follows the loop. -/
def finish (d : SqlFramingDialect) (st : FrameState) : Except String StatementFraming :=
  if st.state ≠ .normal ∧ st.state ≠ .lineComment then
    .error "SQL contains an unterminated quoted value, identifier, or comment"
  else
    frameScanned d st.flushWord.words st.parenthesisDepth st.significant st.hasOracleDatabaseLink

/-- `frame_single_statement`, on the characters of the text. -/
def frameChars (sql : List Char) (d : SqlFramingDialect) : Except String StatementFraming := do
  precheck d sql
  let st ← scan (frameStep d) {} [] sql
  finish d st

/-- `frame_single_statement`. -/
def frameSingleStatement (sql : String) (d : SqlFramingDialect) :
    Except String StatementFraming :=
  frameChars sql.toList d

end Sql
