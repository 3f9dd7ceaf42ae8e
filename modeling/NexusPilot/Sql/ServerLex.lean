import NexusPilot.Sql.Pass
import NexusPilot.Text.Utf8

/-!
# How a server reads the text

The framer decides before execution whether a text is one statement; the server decides it again by
its own lexical rules. This is the second reading: `LexRules` lists what the four servers that accept
a terminator differ in, and `serverTokens` cuts a text into tokens by them. It is a specification, not
a translation: nothing here follows the framer, and every token is read from its first character on.

SQLite and MySQL comments do not nest, PostgreSQL and ClickHouse comments do. A line comment ends at a
line feed, in PostgreSQL at a carriage return too. MySQL asks for white space after `--` and knows
`#`; ClickHouse knows `//`, and `#` before `!` or ASCII white space. Quoted values end at an undoubled
delimiter, backslash escapes being those of MySQL and ClickHouse, and a SQLite `[name]` ends at the
first `]`. A `$` inside a PostgreSQL identifier belongs to it; elsewhere it may open a quote with a
tag, which in ClickHouse may not stand directly after a word. White space is Unicode white space in
all of them.
-/

namespace Sql

open Scan Text

/-- What the servers differ in. -/
structure LexRules where
  /-- A character that ends a line comment. -/
  lineBreak : Char → Bool
  /-- Whether `--` needs white space after it. -/
  dashNeedsSpace : Bool := false
  /-- Whether `#` starts a comment, from the character after it. -/
  hash : Option Char → Bool := fun _ ↦ false
  slashSlash : Bool := false
  commentsNest : Bool := false
  backtick : Bool := false
  bracket : Bool := false
  backslashEscapes : Bool := false
  /-- Whether `$` may open a quote, from the character before it. -/
  dollar : Option Char → Bool := fun _ ↦ false
  tagStart : Char → Bool := fun _ ↦ false
  tagChar : Char → Bool := fun _ ↦ false
  identChar : Char → Bool

/-- A letter, an underscore or a character beyond ASCII. -/
def isIdentStart (c : Char) : Bool :=
  isWordStart c || !isAscii c && !isWhitespace c

/-- What may follow in an identifier, the dollar sign apart. -/
def isIdentChar (c : Char) : Bool :=
  isIdentStart c || c.isDigit

/-- The rules of the four servers. The dialect of Oracle, whose texts have no terminator, is not
read here and gets the rules of SQLite. -/
def lexRules : SqlFramingDialect → LexRules
  | .sqlite | .oracle =>
    { lineBreak := (· == '\n')
      backtick := true
      bracket := true
      identChar := fun c ↦ isIdentChar c || c == '$' }
  | .mysql =>
    { lineBreak := (· == '\n')
      dashNeedsSpace := true
      hash := fun _ ↦ true
      backtick := true
      backslashEscapes := true
      identChar := fun c ↦ isIdentChar c || c == '$' }
  | .postgres =>
    { lineBreak := isLineBreak
      commentsNest := true
      dollar := fun _ ↦ true
      tagStart := isIdentStart
      tagChar := isIdentChar
      identChar := fun c ↦ isIdentChar c || c == '$' }
  | .clickHouse =>
    { lineBreak := (· == '\n')
      hash := fun next ↦ next.all fun c ↦ c == '!' || isAsciiWhitespace c
      slashSlash := true
      commentsNest := true
      backtick := true
      backslashEscapes := true
      dollar := fun prev ↦ !prev.any blocksDollarQuote
      tagStart := isWordChar
      tagChar := isWordChar
      identChar := isIdentChar }

inductive TokenKind
  | space
  | lineComment
  | blockComment
  | semicolon
  | quoted
  | bracketed
  | dollarQuoted
  | word
  | symbol
  deriving DecidableEq

/-- White space and comments. -/
def TokenKind.insignificant : TokenKind → Bool
  | .space | .lineComment | .blockComment => true
  | _ => false

/-! ### Tokens -/

/-- Inside a quoted value. -/
def serverQuote (escapes : Bool) (delimiter : Char) : Inner Unit String Char := fun _ c after ↦
  if escapes ∧ c = '\\' then .ok (some (), 2)
  else if c = delimiter then
    if after.head? = some delimiter then .ok (some (), 2) else .ok (none, 1)
  else .ok (some (), 1)

/-- Inside a block comment, at a depth. -/
def serverBlock (nest : Bool) : Inner ℕ String Char := fun depth c after ↦
  if nest ∧ c = '/' ∧ after.head? = some '*' then .ok (some (depth + 1), 2)
  else if c = '*' ∧ after.head? = some '/' then
    if depth - 1 = 0 then .ok (none, 2) else .ok (some (depth - 1), 2)
  else .ok (some depth, 1)

/-- The tag of a dollar quote: the characters up to the next `$`. -/
def tagOf (start char : Char → Bool) : List Char → Option (List Char)
  | [] => none
  | c :: rest =>
    if c = '$' then some []
    else if start c then (tagOf char char rest).map (c :: ·)
    else none

/-- The length of the dollar quote that a `$` opens, if it opens one. Without its closing delimiter
it reaches to the end of the text. -/
def dollarQuote (rules : LexRules) (before after : List Char) : Option ℕ :=
  if rules.dollar before.head? then
    (tagOf rules.tagStart rules.tagChar after).map fun tag ↦
      match findSub (dollarDelimiter tag) (after.drop (tag.length + 1)) with
      | some offset => (tag.length + 2) + offset + (tag.length + 2)
      | none => after.length + 1
  else none

/-- The token at a position, with its length. -/
def serverToken (rules : LexRules) (before : List Char) (c : Char) (after : List Char) :
    TokenKind × ℕ :=
  if isWhitespace c then (.space, 1)
  else if c = ';' then (.semicolon, 1)
  else if c = '-' ∧ after.head? = some '-' ∧
      (rules.dashNeedsSpace = false ∨ after[1]?.any isWhitespace) then
    (.lineComment, 2 + throughFirst rules.lineBreak (after.drop 1))
  else if c = '#' ∧ rules.hash after.head? then
    (.lineComment, 1 + throughFirst rules.lineBreak after)
  else if c = '/' ∧ after.head? = some '/' ∧ rules.slashSlash then
    (.lineComment, 2 + throughFirst rules.lineBreak (after.drop 1))
  else if c = '/' ∧ after.head? = some '*' then
    (.blockComment, 2 + reach (serverBlock rules.commentsNest) 1 (after.drop 1))
  else if c = '\'' ∨ c = '"' ∨ c = '`' ∧ rules.backtick then
    (.quoted, 1 + reach (serverQuote rules.backslashEscapes c) () after)
  else if c = '[' ∧ rules.bracket then (.bracketed, 1 + throughFirst (· == ']') after)
  else if c = '$' ∧ (dollarQuote rules before after).isSome then
    (.dollarQuoted, (dollarQuote rules before after).getD 1)
  else if isIdentStart c then (.word, 1 + (after.takeWhile rules.identChar).length)
  else (.symbol, 1)

/-- The server's cutting of a text. -/
def serverCut (d : SqlFramingDialect) : Cutter TokenKind Empty Char := fun before c after ↦
  .ok (serverToken (lexRules d) before c after)

/-- The tokens of a text, each with its text. -/
def serverTokens (d : SqlFramingDialect) (sql : String) : List (TokenKind × List Char) :=
  match cutAll (serverCut d) [] sql.toList with
  | .ok tokens => tokens

/-- **At most one statement**: nothing but white space and comments follows the first semicolon. -/
def SingleStatement (tokens : List (TokenKind × List Char)) : Prop :=
  ∀ token ∈ (tokens.dropWhile fun token ↦ token.1 ≠ .semicolon).drop 1, token.1.insignificant

instance (tokens : List (TokenKind × List Char)) : Decidable (SingleStatement tokens) :=
  inferInstanceAs (Decidable (∀ token ∈ (tokens.dropWhile fun token ↦ token.1 ≠ .semicolon).drop 1,
    token.1.insignificant = true))

/-! ### Where the framer reads otherwise -/

/-- An identifier has a `$tag$` directly after a character beyond ASCII. -/
def identifierTrap : List Char → Bool
  | [] => false
  | c :: rest =>
    !isAscii c && rest.head? == some '$' && (dollarTag true (rest.drop 1)).isSome ||
      identifierTrap rest

/-- **The traps**: a token after which the framer and the server disagree on where they are.

* a line comment that goes on after a carriage return, where the framer ends it;
* a SQLite block comment with `/*` inside, which the framer takes for a nested comment;
* a SQLite `[name]` directly before another `]`, which the framer takes for a doubled bracket;
* a dollar quote directly after a word character or a `$`, or with a tag that is not an ASCII
  identifier, which the framer does not take for a quote;
* a PostgreSQL identifier with `$tag$` directly after a character beyond ASCII, which the framer
  takes for a quote;
* a ClickHouse `#` before white space that is not ASCII white space, which the framer takes for a
  comment. -/
def trap (d : SqlFramingDialect) (before : List Char) (c : Char) (after : List Char) : Bool :=
  let (kind, n) := serverToken (lexRules d) before c after
  let text := (c :: after).take n
  match kind with
  | .lineComment => d != .postgres && returnsInComment (c :: after)
  | .blockComment => d == .sqlite && occursIn ['/', '*'] (text.drop 2)
  | .bracketed => ((c :: after).drop n).head? == some ']'
  | .dollarQuoted => before.head?.any blocksDollarQuote || (dollarTag true after).isNone
  | .word => d == .postgres && identifierTrap text
  | .symbol =>
    d == .clickHouse && c == '#' && after.head?.any fun c ↦ isWhitespace c && !isAsciiWhitespace c
  | _ => false

/-- The server's walk over a text, token by token. -/
def serverStep (d : SqlFramingDialect) : Step Unit Empty Char := fun _ before c after ↦
  .ok ((), (serverToken (lexRules d) before c after).2)

/-- No token of the text is a trap. -/
def TrapFree (d : SqlFramingDialect) (sql : String) : Prop :=
  AllSteps (serverStep d) (fun _ before c after ↦ !trap d before c after) () 0 [] sql.toList

end Sql
