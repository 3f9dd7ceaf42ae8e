import Mathlib.Data.List.TakeWhile
import NexusPilot.Sql.ServerLex

/-!
# Accepted texts are single statements, traps apart

The framer and the server read a text side by side. As long as no token is a trap, the framer arrives
at the end of every token of the server, having seen a comment or white space where the server has
one, a terminator where it has a semicolon, and something significant elsewhere (`framer_passes`).
A text that the framer accepts then holds at most one statement for the server, since the framer
stops at anything significant behind a terminator.

The traps are needed: `accepted_texts_with_two_statements` has a text for each kind.
-/

namespace Sql

open Scan Text

/-! ### Quoted values and comments -/

variable {d : SqlFramingDialect} {rest tag before after : List Char} {r : Option ℕ} {n : ℕ} {c : Char}
  {st st' : FrameState} {kind : TokenKind}

/-- A quoted value that the framer closes is closed there by the server. -/
theorem leave_serverQuote {q : ScanState} (hq : q ≠ .bracketIdentifier)
    (h : leave (quoteInner d q) () rest = .ok r) :
    leave (serverQuote (lexRules d).backslashEscapes q.delimiter) () rest = .ok r := by
  refine leave_mono (quoteInner_progressive d q) ?_ h
  intro t c after x hx
  simp only [quoteInner, serverQuote] at hx ⊢
  by_cases hc : c = '\\'
  · subst hc
    rw [if_pos ⟨rfl, hq⟩] at hx
    split_ifs at hx with hd
    subst hd
    rw [if_pos ⟨rfl, rfl⟩]
    exact hx
  · rw [if_neg fun h ↦ hc h.1] at hx
    rw [if_neg fun h ↦ hc h.2]
    exact hx

/-- A block comment that the framer closes is closed there by the server, SQLite apart. -/
theorem leave_serverBlock (hd : d ≠ .sqlite) (h : leave (blockInner d) 1 rest = .ok r) :
    leave (serverBlock (lexRules d).commentsNest) 1 rest = .ok r := by
  refine leave_mono (blockInner_progressive d) ?_ h
  intro depth c after x hx
  simp only [blockInner, serverBlock] at hx ⊢
  by_cases hopen : c = '/' ∧ after.head? = some '*'
  · rw [if_pos hopen] at hx
    split_ifs at hx with hmo
    have hnest : (lexRules d).commentsNest = true := by
      cases d <;> simp_all [lexRules]
    rw [if_pos ⟨hnest, hopen⟩]
    exact hx
  · rw [if_neg hopen] at hx
    rw [if_neg fun h ↦ hopen h.2]
    exact hx

/-- A SQLite block comment without `/*` inside is the same for the framer and the server. -/
theorem leave_sqliteBlock (h : ¬ ['/', '*'] <:+: rest.take (reach (serverBlock false) 1 rest)) :
    leave (blockInner .sqlite) 1 rest = leave (serverBlock false) 1 rest := by
  induction rest with
  | nil => rfl
  | cons c rest ih =>
    by_cases hclose : c = '*' ∧ rest.head? = some '/'
    · have hin : blockInner .sqlite 1 c rest = .ok (none, 2) := by
        simp [blockInner, hclose]
      have hin' : serverBlock false 1 c rest = .ok (none, 2) := by
        simp [serverBlock, hclose]
      rw [leave_of_exit hin, leave_of_exit hin']
    · have hin' : serverBlock false 1 c rest = .ok (some 1, 1) := by
        simp [serverBlock, hclose]
      have hreach : reach (serverBlock false) 1 (c :: rest) =
          reach (serverBlock false) 1 rest + 1 := by
        simp only [reach, leave_of_stay hin' Nat.one_pos, List.drop_succ_cons, List.drop_zero]
        rcases leave (serverBlock false) 1 rest with e | (_ | n) <;> rfl
      rw [hreach, List.take_succ_cons, List.infix_cons_iff, not_or] at h
      have hopen : ¬ (c = '/' ∧ rest.head? = some '*') := by
        rintro ⟨rfl, hstar⟩
        cases rest with
        | nil => cases hstar
        | cons c' rest' =>
          obtain rfl : c' = '*' := Option.some.inj hstar
          have hpos : 0 < reach (serverBlock false) 1 ('*' :: rest') := by
            by_cases hslash : rest'.head? = some '/'
            · have hin : serverBlock false 1 '*' rest' = .ok (none, 2) := by
                simp [serverBlock, hslash]
              rw [reach_of_leave (leave_of_exit hin)]
              decide
            · have hin : serverBlock false 1 '*' rest' = .ok (some 1, 1) := by
                simp [serverBlock, hslash]
              simp only [reach, leave_of_stay hin Nat.one_pos]
              rcases leave (serverBlock false) 1 (('*' :: rest').drop 1) with e | (_ | n) <;>
                simp [Except.map]
          obtain ⟨m, hm⟩ := Nat.exists_eq_add_of_lt hpos
          refine h.1 ?_
          rw [hm, Nat.zero_add, List.take_succ_cons]
          exact ⟨_, rfl⟩
      have hin : blockInner .sqlite 1 c rest = .ok (some 1, 1) := by
        simp [blockInner, hclose, hopen]
      rw [leave_of_stay hin Nat.one_pos, leave_of_stay hin' Nat.one_pos, List.drop_succ_cons,
        List.drop_zero, ih h.2]

/-- A bracketed name that is not directly before another `]` ends for both at its first `]`. -/
theorem leave_bracket (hnext : (rest.drop (throughFirst (· == ']') rest)).head? ≠ some ']')
    (h : leave (quoteInner d .bracketIdentifier) () rest = .ok (some n)) :
    n = throughFirst (· == ']') rest := by
  induction rest generalizing n with
  | nil => cases h
  | cons c rest ih =>
    by_cases hc : c = ']'
    · subst hc
      have hin : quoteInner d .bracketIdentifier () ']' rest = .ok (none, 1) := by
        have hnext' : rest.head? ≠ some ']' := by simpa [throughFirst] using hnext
        simp [quoteInner, ScanState.delimiter, hnext']
      rw [leave_of_exit hin] at h
      cases h
      rfl
    · have hin : quoteInner d .bracketIdentifier () c rest = .ok (some (), 1) := by
        simp [quoteInner, ScanState.delimiter, hc]
      rw [leave_of_stay hin Nat.one_pos, List.drop_succ_cons, List.drop_zero] at h
      have hextent : throughFirst (· == ']') (c :: rest) = throughFirst (· == ']') rest + 1 := by
        simp [throughFirst, hc]
      rw [hextent, List.drop_succ_cons] at hnext
      rw [hextent]
      rcases hl : leave (quoteInner d .bracketIdentifier) () rest with e | (_ | m) <;>
        rw [hl] at h <;> cases h
      rw [ih hnext hl]

/-! ### Dollar quotes -/

/-- A tag of the framer is a tag of every server that knows tags. -/
theorem tagOf_of_dollarTag {start char : Char → Bool} (hstart : ∀ c, isWordStart c → start c)
    (hchar : ∀ c, isWordChar c → char c) (h : dollarTag true rest = some tag) :
    tagOf start char rest = some tag := by
  have hmore : ∀ {rest tag : List Char}, dollarTag false rest = some tag →
      tagOf char char rest = some tag := by
    intro rest
    induction rest with
    | nil =>
      intro tag h
      cases h
    | cons c rest ih =>
      intro tag h
      simp only [dollarTag, tagOf, Bool.false_eq_true, if_false] at h ⊢
      split_ifs at h with hc hword
      · rw [if_pos hc]
        exact h
      · obtain ⟨tag', htag', rfl⟩ := Option.map_eq_some_iff.1 h
        rw [if_neg hc, if_pos (hchar c hword), ih htag']
        rfl
  cases rest with
  | nil => cases h
  | cons c rest =>
    simp only [dollarTag, tagOf, if_true] at h ⊢
    split_ifs at h with hc hword
    · rw [if_pos hc]
      exact h
    · obtain ⟨tag', htag', rfl⟩ := Option.map_eq_some_iff.1 h
      rw [if_neg hc, if_pos (hstart c hword), hmore htag']
      rfl

theorem tagOf_lexRules (hd : d = .postgres ∨ d = .clickHouse) (h : dollarTag true rest = some tag) :
    tagOf (lexRules d).tagStart (lexRules d).tagChar rest = some tag := by
  refine tagOf_of_dollarTag ?_ ?_ h
  · intro c hc
    obtain rfl | rfl := hd
    · simp [lexRules, isIdentStart, hc]
    · exact isWordChar_of_isWordStart hc
  · intro c hc
    obtain rfl | rfl := hd
    · simp only [isWordChar, Char.isAlphanum, lexRules, isIdentChar, isIdentStart, isWordStart,
        Bool.or_eq_true] at hc ⊢
      tauto
    · exact hc

/-- Where the server opens no dollar quote, neither does the framer. -/
theorem dollarQuoteEnd_of_dollarQuote_eq_none (hd : d = .postgres ∨ d = .clickHouse)
    (h : dollarQuote (lexRules d) before after = none) : dollarQuoteEnd before after = .ok none := by
  rw [dollarQuoteEnd]
  split_ifs with hblock
  · rfl
  · have hopen : (lexRules d).dollar before.head? = true := by
      obtain rfl | rfl := hd
      · rfl
      · simpa [lexRules] using hblock
    rw [dollarQuote, if_pos hopen, Option.map_eq_none_iff] at h
    rcases htag : dollarTag true after with _ | tag
    · rfl
    · rw [tagOf_lexRules hd htag] at h
      cases h

/-- A dollar quote that is no trap, and that the framer closes, ends where the server ends it. -/
theorem dollarQuote_of_dollarQuoteEnd (hd : d = .postgres ∨ d = .clickHouse)
    (hblock : before.head?.any blocksDollarQuote = false) (htag : (dollarTag true after).isSome)
    (h : dollarQuoteEnd before after = .ok r) : r = dollarQuote (lexRules d) before after := by
  obtain ⟨tag, htag⟩ := Option.isSome_iff_exists.1 htag
  have hopen : (lexRules d).dollar before.head? = true := by
    obtain rfl | rfl := hd
    · rfl
    · simpa [lexRules] using hblock
  rw [dollarQuote, if_pos hopen, tagOf_lexRules hd htag, Option.map_some]
  simp only [dollarQuoteEnd, hblock, Bool.false_eq_true, if_false, htag] at h
  rcases hfind : findSub (dollarDelimiter tag) (after.drop (tag.length + 1)) with _ | offset <;>
    rw [hfind] at h <;> cases h
  rfl

/-! ### Identifiers -/

theorem not_special_of_isIdentChar (hc : isIdentChar c) : c ∉ specialCharacters :=
  not_special_of (by decide) hc

/-- A tag that reaches its `$` does so inside the identifier it starts in. -/
theorem dollarTag_takeWhile {p : Char → Bool} (hp : ∀ c, isWordChar c ∨ c = '$' → p c) {first : Bool}
    (h : dollarTag first rest = some tag) :
    dollarTag first (rest.takeWhile p) = some tag := by
  induction rest generalizing first tag with
  | nil => cases h
  | cons c rest ih =>
    rw [dollarTag] at h
    by_cases hc : c = '$'
    · rw [List.takeWhile_cons_of_pos (hp c (.inr hc)), dollarTag, if_pos hc]
      rwa [if_pos hc] at h
    · rw [if_neg hc] at h
      split_ifs at h with hfirst
      all_goals
        obtain ⟨tag', htag', rfl⟩ := Option.map_eq_some_iff.1 h
        have hword : isWordChar c := by
          first
            | assumption
            | exact isWordChar_of_isWordStart ‹_›
        rw [List.takeWhile_cons_of_pos (hp c (.inl hword)), dollarTag, if_neg hc, ih htag']
        simp_all

/-- In an identifier that is no trap, no `$` after a character beyond ASCII starts a tag. -/
theorem dollarTag_of_identifierTrap {text : List Char} (h : identifierTrap text = false) :
    ∀ {i : ℕ} {c : Char}, text[i]? = some c → text[i + 1]? = some '$' → isAscii c = false →
      dollarTag true (text.drop (i + 2)) = none := by
  induction text with
  | nil =>
    intro i c hc
    simp at hc
  | cons a rest ih =>
    intro i c hc hdollar hascii
    simp only [identifierTrap, Bool.or_eq_false_iff] at h
    cases i with
    | zero =>
      obtain rfl : a = c := by simpa using hc
      have hhead : rest.head? = some '$' := by simpa [List.head?_eq_getElem?] using hdollar
      simpa [hascii, hhead] using h.1
    | succ i => exact ih h.2 (by simpa using hc) (by simpa using hdollar) hascii

/-! ### One token of the server -/

theorem dashComment_iff :
    dashComment d c after ↔ c = '-' ∧ after.head? = some '-' ∧
      ((lexRules d).dashNeedsSpace = false ∨ after[1]?.any isWhitespace) := by
  cases d <;> simp [dashComment, lexRules, and_assoc]

theorem hashComment_of_hash (h : (lexRules d).hash after.head?) : hashComment d '#' after := by
  cases d with
  | sqlite | postgres | oracle => cases h
  | mysql => rfl
  | clickHouse =>
    cases after with
    | nil => rfl
    | cons c after =>
      have hc : c = '!' ∨ isAsciiWhitespace c := by simpa [lexRules] using h
      obtain rfl | hws := hc
      · rfl
      · simp [hashComment, isWhitespace_of_isAsciiWhitespace hws]

/-- Where the server sees no comment at a `#` that is no trap, neither does the framer. -/
theorem hashComment_eq_false (hhash : ¬ (c = '#' ∧ (lexRules d).hash after.head?))
    (htrap : (d == .clickHouse && c == '#' &&
      after.head?.any fun c ↦ isWhitespace c && !isAsciiWhitespace c) = false) :
    hashComment d c after = false := by
  by_cases hc : c = '#'
  · subst hc
    have hno : ¬ (lexRules d).hash after.head? := fun h ↦ hhash ⟨rfl, h⟩
    cases d with
    | sqlite | postgres | oracle => rfl
    | mysql => exact absurd rfl hno
    | clickHouse =>
      cases after with
      | nil => exact absurd rfl hno
      | cons x xs =>
        have hx : ¬ (x = '!' ∨ isAsciiWhitespace x) := by simpa [lexRules] using hno
        have hws : ¬ isWhitespace x := by
          intro hws
          have : isAsciiWhitespace x = true := by simpa [hws] using htrap
          exact hx (.inr this)
        have hbang : x ≠ '!' := fun h ↦ hx (.inl h)
        simp [hashComment, hws, hbang]
  · simp [hashComment, hc]

/-- What the framer makes of a token of the server that is one of its pieces. -/
theorem passes_of_cutPiece {q : Piece} (hcut : ∀ p k, cutPiece d before c after = .ok (p, k) → p = q ∧ k = n)
    (hq : q.insignificant = kind.insignificant) (hterm : (q == .terminator) = (kind == .semicolon))
    (h : scan (pieceStep d) st before (c :: after) = .ok st') :
    ∃ st₁, (kind.insignificant → st₁.terminated = st.terminated) ∧
      (kind.insignificant = false → st.terminated = false ∧
        st₁.terminated = (kind == .semicolon)) ∧
      scan (pieceStep d) st₁ (behind n before (c :: after)) ((c :: after).drop n) = .ok st' := by
  obtain ⟨p, k, st₁, hpk, habs, hscan⟩ := exists_piece_of_scan h
  obtain ⟨rfl, rfl⟩ := hcut p k hpk
  obtain ⟨hsame, hset⟩ := terminated_of_absorb habs
  refine ⟨st₁, ?_, ?_, hscan⟩
  · rw [← hq]
    exact hsame
  · rw [← hq, ← hterm]
    exact hset

section Tokens

variable {d : SqlFramingDialect} {st st' : FrameState} {before after : List Char} {c : Char}

variable {p : Piece} {k i : ℕ} {x : Char} {xs : List Char}

/-- The framer closes a block comment where the server does. -/
theorem cutPiece_blockComment (hc : c = '/' ∧ after.head? = some '*')
    (htrap : (d == .sqlite && occursIn ['/', '*'] (((c :: after).take
      (2 + reach (serverBlock (lexRules d).commentsNest) 1 (after.drop 1))).drop 2)) = false)
    (h : cutPiece d before c after = .ok (p, k)) :
    p = .blockComment ∧ k = 2 + reach (serverBlock (lexRules d).commentsNest) 1 (after.drop 1) := by
  obtain ⟨rfl, hstar⟩ := hc
  have hdash : dashComment d '/' after = false := rfl
  have hhash : hashComment d '/' after = false := rfl
  have hslash : ¬ (d = .clickHouse ∧ '/' = '/' ∧ after.head? = some '/') := by
    rintro ⟨-, -, hslash⟩
    rw [hstar] at hslash
    cases hslash
  have hopening : opening d before '/' after =
      if d = .mysql ∧ executableComment after then
        .error "MySQL executable comments are not supported"
      else .ok .blockComment := by
    rw [opening, hdash, hhash, if_neg Bool.false_ne_true, if_neg Bool.false_ne_true, if_neg hslash,
      if_pos ⟨rfl, hstar⟩]
  rw [cutPiece, piece, hopening] at h
  by_cases hexec : d = .mysql ∧ executableComment after
  · rw [if_pos hexec] at h
    cases h
  · rw [if_neg hexec] at h
    -- what the framer found is the end of the mode, for the server as well
    rcases hl : leave (blockInner d) 1 (after.drop 1) with e | (_ | m) <;>
      rw [hl] at h <;> cases h
    refine ⟨rfl, ?_⟩
    by_cases hs : d = .sqlite
    · subst hs
      have hinfix : ¬ ['/', '*'] <:+:
          (after.drop 1).take (reach (serverBlock false) 1 (after.drop 1)) := by
        rw [← occursIn_iff_infix]
        cases after with
        | nil => cases hstar
        | cons x xs => simpa [lexRules, Nat.add_comm 2] using htrap
      rw [leave_sqliteBlock hinfix] at hl
      rw [show (lexRules .sqlite).commentsNest = false from rfl, reach_of_leave hl]
    · rw [reach_of_leave (leave_serverBlock hs hl)]

/-- The framer closes a quoted value where the server does. -/
theorem cutPiece_quoted (hd : d ≠ .oracle) (hc : c = '\'' ∨ c = '"' ∨ c = '`' ∧ (lexRules d).backtick)
    (h : cutPiece d before c after = .ok (p, k)) :
    (∃ q, p = .quoted q) ∧
      k = 1 + reach (serverQuote (lexRules d).backslashEscapes c) () after := by
  obtain ⟨q, hq, hdelim, hnb⟩ : ∃ q, quoteOpenedBy d c = some q ∧ q.delimiter = c ∧
      q ≠ .bracketIdentifier := by
    obtain rfl | rfl | ⟨rfl, hback⟩ := hc
    · exact ⟨.singleQuote, rfl, rfl, by decide⟩
    · exact ⟨.doubleQuote, rfl, rfl, by decide⟩
    · refine ⟨.backtick, ?_, rfl, by decide⟩
      cases d <;> first | exact absurd rfl hd | rfl | cases hback
  have hopening : opening d before c after = .ok .character := by
    obtain rfl | rfl | ⟨rfl, -⟩ := hc <;> simp [opening, dashComment, hashComment, hd]
  rw [cutPiece, piece, hopening] at h
  simp only [hq] at h
  rcases hl : leave (quoteInner d q) () after with e | (_ | m) <;> rw [hl] at h <;> cases h
  refine ⟨⟨q, rfl⟩, ?_⟩
  have hserver := leave_serverQuote hnb hl
  rw [hdelim] at hserver
  rw [reach_of_leave hserver]

/-- The framer closes a bracketed name where the server does. -/
theorem cutPiece_bracketed (hd : d ≠ .oracle) (hc : c = '[' ∧ (lexRules d).bracket)
    (htrap : (((c :: after).drop (1 + throughFirst (· == ']') after)).head? == some ']') = false)
    {p : Piece} {k : ℕ} (h : cutPiece d before c after = .ok (p, k)) :
    p = .quoted .bracketIdentifier ∧ k = 1 + throughFirst (· == ']') after := by
  obtain ⟨rfl, hbracket⟩ := hc
  obtain rfl : d = .sqlite := by
    cases d <;> first | exact absurd rfl hd | rfl | cases hbracket
  have hopening : opening .sqlite before '[' after = .ok .character := by
    simp [opening, dashComment, hashComment]
  have hnext : (after.drop (throughFirst (· == ']') after)).head? ≠ some ']' := by
    simpa [Nat.add_comm 1] using htrap
  rw [cutPiece, piece, hopening] at h
  simp only [show quoteOpenedBy .sqlite '[' = some .bracketIdentifier from rfl] at h
  rcases hl : leave (quoteInner .sqlite .bracketIdentifier) () after with e | (_ | m) <;>
    rw [hl] at h <;> cases h
  exact ⟨rfl, by rw [leave_bracket hnext hl]⟩

theorem dollar_dialect {before after : List Char}
    (h : (dollarQuote (lexRules d) before after).isSome) : d = .postgres ∨ d = .clickHouse := by
  cases d with
  | postgres => exact .inl rfl
  | clickHouse => exact .inr rfl
  | sqlite | mysql | oracle => cases h

/-- The framer closes a dollar quote where the server does. -/
theorem cutPiece_dollarQuoted (hc : c = '$' ∧ (dollarQuote (lexRules d) before after).isSome)
    (htrap : (before.head?.any blocksDollarQuote || (dollarTag true after).isNone) = false)
    (h : cutPiece d before c after = .ok (p, k)) :
    p = .quotedBlock ∧ k = (dollarQuote (lexRules d) before after).getD 1 := by
  obtain ⟨rfl, hsome⟩ := hc
  have hd := dollar_dialect hsome
  obtain ⟨hblock, htag⟩ := Bool.or_eq_false_iff.1 htrap
  rw [cutPiece, piece, opening_dollar hd] at h
  rcases hq : dollarQuoteEnd before after with e | r
  · rw [hq] at h
    cases h
  · obtain rfl := dollarQuote_of_dollarQuoteEnd hd hblock (by simpa using htag) hq
    obtain ⟨m, hm⟩ := Option.isSome_iff_exists.1 hsome
    rw [hq, hm] at h
    cases h
    rw [hm]
    exact ⟨rfl, rfl⟩

theorem isAscii_eq_false_of_isIdentChar (hc : isIdentChar c) (hword : ¬ blocksDollarQuote c) :
    isAscii c = false := by
  have hnot : ¬ isWordChar c := fun h ↦ hword (by simp [blocksDollarQuote, h])
  have hdigit : ¬ c.isDigit := fun h ↦ hnot (by simp [isWordChar, Char.isAlphanum, h])
  have hstart : ¬ isWordStart c := fun h ↦ hnot (isWordChar_of_isWordStart h)
  have hbeyond : isAscii c = false ∧ isWhitespace c = false := by
    simpa [isIdentChar, isIdentStart, hdigit, hstart] using hc
  exact hbeyond.1

theorem identChar_cases (hx : (lexRules d).identChar x) :
    isIdentChar x ∨ x = '$' ∧ d ≠ .clickHouse := by
  cases d with
  | clickHouse => exact .inl hx
  | sqlite | mysql | postgres | oracle =>
    simp only [lexRules, Bool.or_eq_true, beq_iff_eq] at hx
    exact hx.imp_right fun h ↦ ⟨h, by decide⟩

theorem drop_takeWhile {p : Char → Bool} : ∀ {l : List Char}, i ≤ (l.takeWhile p).length →
    (l.takeWhile p).drop i = (l.drop i).takeWhile p := by
  induction i with
  | zero =>
    intro l _
    rfl
  | succ i ih =>
    intro l hi
    cases l with
    | nil => rfl
    | cons a l =>
      by_cases ha : p a
      · rw [List.takeWhile_cons_of_pos ha] at hi ⊢
        rw [List.drop_succ_cons, List.drop_succ_cons]
        exact ih (by simpa using hi)
      · rw [List.takeWhile_cons_of_neg ha] at hi
        cases hi

/-- A `$` inside a PostgreSQL identifier that is no trap opens no quote for the framer. -/
theorem dollarQuoteEnd_of_identifierTrap (hc : isIdentStart c)
    (htrap : identifierTrap (c :: after.takeWhile (lexRules .postgres).identChar) = false)
    (hi : i < (after.takeWhile (lexRules .postgres).identChar).length) (hx : after.drop i = '$' :: xs) :
    dollarQuoteEnd (behind i (c :: before) after) xs = .ok none := by
  -- the character before the `$`, an identifier character like it
  obtain ⟨a, ha, hident⟩ : ∃ a, (c :: after.takeWhile (lexRules .postgres).identChar)[i]? = some a ∧
      (isIdentChar a ∨ a = '$') := by
    cases i with
    | zero => exact ⟨c, rfl, .inl (by simp [isIdentChar, hc])⟩
    | succ i =>
      have hlt : i < (after.takeWhile (lexRules .postgres).identChar).length := Nat.lt_of_succ_lt hi
      refine ⟨_, List.getElem?_eq_getElem hlt, ?_⟩
      have hmem := List.getElem_mem hlt
      exact (identChar_cases (List.mem_takeWhile_imp hmem)).imp_right And.left
  have htake : (c :: after)[i]? = some a := by
    have hprefix : c :: after.takeWhile (lexRules .postgres).identChar <+: c :: after :=
      (List.prefix_cons_inj c).2 (List.takeWhile_prefix _)
    obtain ⟨hlt, rfl⟩ := List.getElem?_eq_some_iff.1 ha
    exact List.prefix_iff_getElem?.1 hprefix i hlt
  have hhead : (behind i (c :: before) after).head? = some a := by
    rw [← behind_succ_cons, head?_behind_succ, htake]
    exact (List.getElem?_eq_some_iff.1 htake).1
  rw [dollarQuoteEnd, hhead]
  by_cases hblock : blocksDollarQuote a
  · rw [if_pos (by simpa using hblock)]
  · rw [if_neg (by simpa using hblock)]
    have hascii : isAscii a = false := by
      refine isAscii_eq_false_of_isIdentChar ?_ hblock
      rcases hident with hident | rfl
      · exact hident
      · exact absurd rfl hblock
    have hdrop : (after.takeWhile (lexRules .postgres).identChar).drop i =
        '$' :: xs.takeWhile (lexRules .postgres).identChar := by
      rw [drop_takeWhile hi.le, hx]
      rfl
    have hdollar : (c :: after.takeWhile (lexRules .postgres).identChar)[i + 1]? = some '$' := by
      rw [List.getElem?_cons_succ, ← List.head?_drop, hdrop]
      rfl
    have hnone := dollarTag_of_identifierTrap htrap ha hdollar hascii
    rw [List.drop_succ_cons, ← List.drop_drop, hdrop] at hnone
    rcases htag : dollarTag true xs with _ | tag
    · rfl
    · have hword : ∀ x, isWordChar x ∨ x = '$' → (lexRules .postgres).identChar x := by
        intro x hx
        simp only [lexRules, isIdentChar, isIdentStart, isWordStart, isWordChar, Char.isAlphanum,
          Bool.or_eq_true, beq_iff_eq] at hx ⊢
        tauto
      rw [List.drop_succ_cons, List.drop_zero, dollarTag_takeWhile hword htag] at hnone
      cases hnone

theorem isWhitespace_eq_false_of_isIdentChar (hc : isIdentChar c) : isWhitespace c = false := by
  by_cases hword : isWordChar c
  · exact isWhitespace_eq_false_of_isWordChar hword
  · have hdigit : ¬ c.isDigit := fun h ↦ hword (by simp [isWordChar, Char.isAlphanum, h])
    have hstart : ¬ isWordStart c := fun h ↦ hword (isWordChar_of_isWordStart h)
    have hbeyond : isAscii c = false ∧ isWhitespace c = false := by
      simpa [isIdentChar, isIdentStart, hdigit, hstart] using hc
    exact hbeyond.2

/-- A character of the run that a `takeWhile` takes. -/
theorem of_lt_length_takeWhile {p : Char → Bool} {l : List Char} (hi : i < (l.takeWhile p).length)
    (hx : l.drop i = x :: xs) : p x := by
  have hget : l[i]? = some (l.takeWhile p)[i] :=
    List.prefix_iff_getElem?.1 (List.takeWhile_prefix p) i hi
  have hhead : l[i]? = some x := by
    rw [← List.head?_drop, hx]
    rfl
  obtain rfl : (l.takeWhile p)[i] = x := Option.some.inj (hget.symm.trans hhead)
  exact List.mem_takeWhile_imp (List.getElem_mem hi)

/-- **A word** of the server is a run of characters for the framer. -/
theorem scan_word (hd : d ≠ .oracle) (hc : isIdentStart c)
    (htrap : (d == .postgres && identifierTrap
      ((c :: after).take (1 + (after.takeWhile (lexRules d).identChar).length))) = false)
    (h : scan (pieceStep d) st before (c :: after) = .ok st') :
    ∃ st₁, st.terminated = false ∧ st₁.terminated = false ∧
      scan (pieceStep d) st₁
        (behind (1 + (after.takeWhile (lexRules d).identChar).length) before (c :: after))
        ((c :: after).drop (1 + (after.takeWhile (lexRules d).identChar).length)) = .ok st' := by
  have hident : isIdentChar c := by simp [isIdentChar, hc]
  rw [Nat.add_comm 1, List.take_succ_cons,
    ← List.prefix_iff_eq_take.1 (List.takeWhile_prefix _)] at htrap
  -- the first character
  obtain ⟨p, k, st₁, hcut, habs, hscan⟩ := exists_piece_of_scan h
  rw [cutPiece_of_not_special hd (not_special_of_isIdentChar hident)] at hcut
  cases hcut
  obtain ⟨hst, hst₁⟩ :=
    (terminated_of_absorb habs).2 (isWhitespace_eq_false_of_isIdentChar hident)
  rw [behind_succ_cons, behind_zero, List.drop_succ_cons, List.drop_zero] at hscan
  -- the characters after it, none of which is white space
  have hrun : ∀ i < (after.takeWhile (lexRules d).identChar).length, ∀ x xs,
      after.drop i = x :: xs → ∀ p k, cutPiece d (behind i (c :: before) after) x xs = .ok (p, k) →
        k = 1 ∧ p.insignificant = false ∧ p ≠ .terminator := by
    intro i hi x xs hx p k hpk
    obtain hx' | ⟨rfl, hch⟩ := identChar_cases (of_lt_length_takeWhile hi hx)
    · rw [cutPiece_of_not_special hd (not_special_of_isIdentChar hx')] at hpk
      cases hpk
      exact ⟨rfl, isWhitespace_eq_false_of_isIdentChar hx', by simp⟩
    · have hnone : (d = .postgres ∨ d = .clickHouse) →
          dollarQuoteEnd (behind i (c :: before) after) xs = .ok none := by
        intro hpc
        obtain rfl := hpc.resolve_right hch
        exact dollarQuoteEnd_of_identifierTrap hc (by simpa using htrap) hi hx
      rw [cutPiece_dollar hd hnone] at hpk
      cases hpk
      exact ⟨rfl, rfl, by simp⟩
  have hkeep : ∀ (st : FrameState) (p : Piece) (st' : FrameState),
      p.insignificant = false ∧ p ≠ .terminator → st.terminated = false →
        absorb d st p = .ok st' → st'.terminated = false := by
    intro st p st' hp _ habs
    rw [((terminated_of_absorb habs).2 hp.1).2]
    simpa using hp.2
  obtain ⟨st₂, hst₂, hscan₂⟩ := scan_passes hkeep _ hst₁ hrun hscan
  refine ⟨st₂, hst, hst₂, ?_⟩
  rw [Nat.add_comm 1, behind_succ_cons, List.drop_succ_cons]
  exact hscan₂

/-- A symbol of the server that is no trap is a character for the framer. -/
theorem cutPiece_symbol (hd : d ≠ .oracle) (hsemi : ¬ c = ';')
    (hdash : ¬ (c = '-' ∧ after.head? = some '-' ∧
      ((lexRules d).dashNeedsSpace = false ∨ after[1]?.any isWhitespace)))
    (hhash : ¬ (c = '#' ∧ (lexRules d).hash after.head?))
    (hslash : ¬ (c = '/' ∧ after.head? = some '/' ∧ (lexRules d).slashSlash))
    (hblock : ¬ (c = '/' ∧ after.head? = some '*'))
    (hquote : ¬ (c = '\'' ∨ c = '"' ∨ c = '`' ∧ (lexRules d).backtick))
    (hbracket : ¬ (c = '[' ∧ (lexRules d).bracket))
    (hdollar : ¬ (c = '$' ∧ (dollarQuote (lexRules d) before after).isSome))
    (htrap : (d == .clickHouse && c == '#' &&
      after.head?.any fun c ↦ isWhitespace c && !isAsciiWhitespace c) = false) :
    cutPiece d before c after = .ok (.character c, 1) := by
  by_cases hc : c = '$'
  · subst hc
    refine cutPiece_dollar hd fun hpc ↦ dollarQuoteEnd_of_dollarQuote_eq_none hpc ?_
    simpa using hdollar
  · have hdash' : dashComment d c after = false := by
      rw [← Bool.not_eq_true, dashComment_iff]
      exact hdash
    have hslash' : ¬ (d = .clickHouse ∧ c = '/' ∧ after.head? = some '/') := by
      rintro ⟨rfl, h⟩
      exact hslash ⟨h.1, h.2, rfl⟩
    have hopening : opening d before c after = .ok .character := by
      rw [opening, hdash', hashComment_eq_false hhash htrap, if_neg Bool.false_ne_true,
        if_neg Bool.false_ne_true, if_neg hslash', if_neg hblock, if_neg fun h ↦ hc h.2, if_neg hd,
        if_neg hsemi]
    have hnone : quoteOpenedBy d c = none := by
      simp only [not_or] at hquote
      rw [quoteOpenedBy, if_neg hquote.1, if_neg hquote.2.1, if_neg, if_neg]
      · rintro ⟨rfl, rfl⟩
        exact hbracket ⟨rfl, rfl⟩
      · rintro ⟨rfl, h⟩
        refine hquote.2.2 ⟨rfl, ?_⟩
        obtain rfl | rfl | rfl := h <;> rfl
    rw [cutPiece, piece, hopening]
    simp [hnone, Except.map]

/-- A line comment, in every dialect. -/
theorem passes_serverLineComment (hd : d ≠ .oracle) (opener rest : List Char)
    (hopener : c :: after = opener ++ rest) (hplain : '\r' ∉ opener ∧ '\n' ∉ opener)
    (ho : opening d before c after = .ok (.lineComment opener.length))
    (htrap : (d != .postgres && returnsInComment (c :: after)) = false)
    (h : scan (pieceStep d) st before (c :: after) = .ok st') :
    ∃ st₁, st₁.terminated = st.terminated ∧
      scan (pieceStep d) st₁
        (behind (opener.length + throughFirst (lexRules d).lineBreak rest) before (c :: after))
        ((c :: after).drop (opener.length + throughFirst (lexRules d).lineBreak rest)) = .ok st' := by
  have hpass : Passes (pieceStep d) st before (c :: after)
      (opener.length + throughFirst (lexRules d).lineBreak rest) st.flushWord := by
    by_cases hpg : d = .postgres
    · -- PostgreSQL ends the comment where the framer does
      subst hpg
      refine .of_step (pieceStep_of_cutPiece (cutPiece_lineComment hopener ho) rfl) ?_
      exact Nat.add_pos_left (opening_lineComment_pos ho) _
    · have hlf : (lexRules d).lineBreak = (· == '\n') := by
        cases d <;> first | rfl | exact absurd rfl hpg
      rw [hlf]
      exact passes_lineComment hd st hopener hplain ho (by simpa [hpg] using htrap)
  rw [hpass.scan_eq] at h
  exact ⟨st.flushWord, rfl, h⟩

end Tokens

/-- **One token.** The framer passes every token of the server that is no trap: at a comment or white
space the terminator stays as it is, at a semicolon it is set, and at anything else it was not and is
not set. -/
theorem framer_passes (hd : d ≠ .oracle) (htoken : serverToken (lexRules d) before c after = (kind, n))
    (htrap : trap d before c after = false) (h : scan (pieceStep d) st before (c :: after) = .ok st') :
    ∃ st₁, (kind.insignificant → st₁.terminated = st.terminated) ∧
      (kind.insignificant = false → st.terminated = false ∧
        st₁.terminated = (kind == .semicolon)) ∧
      scan (pieceStep d) st₁ (behind n before (c :: after)) ((c :: after).drop n) = .ok st' := by
  delta trap at htrap
  rw [htoken] at htrap
  rw [serverToken] at htoken
  obtain ⟨hws, ⟨⟩⟩ | ⟨hws, htoken⟩ := ite_eq_iff.1 htoken
  · exact passes_of_cutPiece (q := .character c)
      (fun p k hpk ↦ by
        rw [cutPiece_of_not_special hd (not_special_of_isWhitespace hws)] at hpk
        cases hpk
        exact ⟨rfl, rfl⟩) hws rfl h
  obtain ⟨hsemi, ⟨⟩⟩ | ⟨hsemi, htoken⟩ := ite_eq_iff.1 htoken
  · exact passes_of_cutPiece (q := .terminator)
      (fun p k hpk ↦ by
        subst hsemi
        rw [cutPiece, piece, show opening d before ';' after = .ok .terminator by
          simp [opening, dashComment, hashComment, hd]] at hpk
        cases hpk
        exact ⟨rfl, rfl⟩) rfl rfl h
  obtain ⟨hdash, ⟨⟩⟩ | ⟨hdash, htoken⟩ := ite_eq_iff.1 htoken
  · have ho : opening d before c after = .ok (.lineComment 2) := by
      rw [opening, if_pos (dashComment_iff.2 hdash)]
    obtain ⟨rfl, hnext, -⟩ := hdash
    obtain ⟨rest, rfl⟩ : ∃ rest, after = '-' :: rest := List.head?_eq_some_iff.1 hnext
    obtain ⟨st₁, hst₁, hscan⟩ :=
      passes_serverLineComment hd ['-', '-'] rest rfl (by decide) ho htrap h
    exact ⟨st₁, fun _ ↦ hst₁, fun hk ↦ (by cases hk), hscan⟩
  obtain ⟨hhash, ⟨⟩⟩ | ⟨hhash, htoken⟩ := ite_eq_iff.1 htoken
  · obtain ⟨rfl, hhash⟩ := hhash
    have ho : opening d before '#' after = .ok (.lineComment 1) := by
      rw [opening, show dashComment d '#' after = false from rfl, if_neg Bool.false_ne_true,
        if_pos (hashComment_of_hash hhash)]
    obtain ⟨st₁, hst₁, hscan⟩ :=
      passes_serverLineComment hd ['#'] after rfl (by decide) ho htrap h
    exact ⟨st₁, fun _ ↦ hst₁, fun hk ↦ (by cases hk), hscan⟩
  obtain ⟨hslash, ⟨⟩⟩ | ⟨hslash, htoken⟩ := ite_eq_iff.1 htoken
  · obtain ⟨rfl, hnext, hslash⟩ := hslash
    obtain rfl : d = .clickHouse := by cases d <;> first | rfl | cases hslash
    obtain ⟨rest, rfl⟩ : ∃ rest, after = '/' :: rest := List.head?_eq_some_iff.1 hnext
    obtain ⟨st₁, hst₁, hscan⟩ :=
      passes_serverLineComment hd ['/', '/'] rest rfl (by decide) rfl htrap h
    exact ⟨st₁, fun _ ↦ hst₁, fun hk ↦ (by cases hk), hscan⟩
  obtain ⟨hblock, ⟨⟩⟩ | ⟨hblock, htoken⟩ := ite_eq_iff.1 htoken
  · exact passes_of_cutPiece (q := .blockComment)
      (fun p k hpk ↦ cutPiece_blockComment hblock htrap hpk) rfl rfl h
  obtain ⟨hquote, ⟨⟩⟩ | ⟨hquote, htoken⟩ := ite_eq_iff.1 htoken
  · obtain ⟨p, k, st₁, hpk, habs, hscan⟩ := exists_piece_of_scan h
    obtain ⟨⟨q, rfl⟩, rfl⟩ := cutPiece_quoted hd hquote hpk
    exact ⟨st₁, fun hk ↦ (by cases hk), fun _ ↦ (terminated_of_absorb habs).2 rfl, hscan⟩
  obtain ⟨hbracket, ⟨⟩⟩ | ⟨hbracket, htoken⟩ := ite_eq_iff.1 htoken
  · exact passes_of_cutPiece (q := .quoted .bracketIdentifier)
      (fun p k hpk ↦ cutPiece_bracketed hd hbracket htrap hpk) rfl rfl h
  obtain ⟨hdollar, ⟨⟩⟩ | ⟨hdollar, htoken⟩ := ite_eq_iff.1 htoken
  · exact passes_of_cutPiece (q := .quotedBlock)
      (fun p k hpk ↦ cutPiece_dollarQuoted hdollar htrap hpk) rfl rfl h
  obtain ⟨hident, ⟨⟩⟩ | ⟨hident, htoken⟩ := ite_eq_iff.1 htoken
  · obtain ⟨st₁, hst, hst₁, hscan⟩ := scan_word hd hident htrap h
    exact ⟨st₁, fun hk ↦ (by cases hk), fun _ ↦ ⟨hst, hst₁⟩, hscan⟩
  cases htoken
  exact passes_of_cutPiece (q := .character c)
    (fun p k hpk ↦ by
      rw [cutPiece_symbol hd hsemi hdash hhash hslash hblock hquote hbracket hdollar htrap] at hpk
      cases hpk
      exact ⟨rfl, rfl⟩)
    (by simpa [Piece.insignificant, TokenKind.insignificant] using hws) rfl h

/-! ### All tokens -/

theorem singleStatement_cons {token : TokenKind × List Char} {tokens : List (TokenKind × List Char)} :
    SingleStatement (token :: tokens) ↔
      if token.1 = .semicolon then ∀ t ∈ tokens, t.1.insignificant else SingleStatement tokens := by
  by_cases h : token.1 = .semicolon <;> simp [SingleStatement, h]

theorem dollarQuote_pos {rules : LexRules} (h : dollarQuote rules before after = some n) : 0 < n := by
  rw [dollarQuote] at h
  split_ifs at h
  obtain ⟨tag, -, rfl⟩ := Option.map_eq_some_iff.1 h
  rcases findSub (dollarDelimiter tag) (after.drop (tag.length + 1)) with _ | offset
  · exact Nat.succ_pos _
  · exact Nat.add_pos_right _ (Nat.succ_pos _)

theorem snd_pos_ite {p : Prop} [Decidable p] {a b : TokenKind × ℕ} (ha : p → 0 < a.2) (hb : 0 < b.2) :
    0 < (if p then a else b).2 := by
  split
  · next hp => exact ha hp
  · exact hb

theorem serverToken_pos (rules : LexRules) (before : List Char) (c : Char) (after : List Char) :
    0 < (serverToken rules before c after).2 := by
  have hplus (n m : ℕ) : 0 < n + 1 + m := by omega
  rw [serverToken]
  iterate 8 refine snd_pos_ite (fun _ ↦ by first | exact Nat.one_pos | exact hplus _ _) ?_
  refine snd_pos_ite (fun hdollar ↦ ?_) (snd_pos_ite (fun _ ↦ hplus 0 _) Nat.one_pos)
  obtain ⟨n, hn⟩ := Option.isSome_iff_exists.1 hdollar.2
  rw [hn]
  exact dollarQuote_pos hn

/-- **All tokens.** From a cursor at which the framer and the server have read the same, what the
framer accepts has nothing significant left once the terminator is set, and is a single statement
otherwise. -/
theorem singleStatement_of_scan (hd : d ≠ .oracle) :
    ∀ {st : FrameState} {tokens : List (TokenKind × List Char)},
      scan (pieceStep d) st before rest = .ok st' →
      AllSteps (serverStep d) (fun _ before c after ↦ !trap d before c after) () 0 before rest →
      cutAll (serverCut d) before rest = .ok tokens →
      if st.terminated then ∀ t ∈ tokens, t.1.insignificant else SingleStatement tokens := by
  induction before, rest using cursorInduction with
  | nil before =>
    intro st tokens _ _ htokens
    cases htokens
    simp [SingleStatement]
  | cons before c after ih =>
    intro st tokens h htrap htokens
    obtain ⟨⟨kind, n⟩, htoken⟩ : ∃ x, serverToken (lexRules d) before c after = x := ⟨_, rfl⟩
    have hcut : serverCut d before c after = .ok (kind, n) := by rw [serverCut, htoken]
    have hn : 0 < n := by
      have := serverToken_pos (lexRules d) before c after
      rwa [htoken] at this
    rw [cutAll_cons_of_cut hcut hn] at htokens
    rcases hrest : cutAll (serverCut d) (behind n before (c :: after)) ((c :: after).drop n) with
      e | tokens'
    · exact e.elim
    rw [hrest] at htokens
    cases htokens
    have hstep : serverStep d () before c after = .ok ((), n) := by rw [serverStep, htoken]
    rw [allSteps_cons hstep hn, Bool.and_eq_true, Bool.not_eq_true'] at htrap
    obtain ⟨st₁, hsame, hset, hscan⟩ := framer_passes hd htoken htrap.1 h
    have hlater := ih n hn hscan htrap.2 hrest
    rcases hkind : kind.insignificant
    · obtain ⟨hst, hst₁⟩ := hset hkind
      rw [hst, if_neg Bool.false_ne_true, singleStatement_cons]
      rw [hst₁] at hlater
      simpa using hlater
    · rw [hsame hkind] at hlater
      have hsemi : kind ≠ .semicolon := by
        rintro rfl
        cases hkind
      rcases hst : st.terminated
      · rw [hst] at hlater
        rw [if_neg Bool.false_ne_true, singleStatement_cons]
        simpa [hsemi] using hlater
      · rw [hst, if_pos rfl] at hlater
        rw [if_pos rfl]
        intro t ht
        obtain rfl | ht := List.mem_cons.1 ht
        · exact hkind
        · exact hlater t ht

end Sql
