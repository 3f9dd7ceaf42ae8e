import NexusPilot.Sql.Pass

/-!
# The editor's single-statement guard

`sql_is_single_statement` of the drivers' common code, which the editor asks before it describes or
runs a text. It is one scanner for all engines: `#` always starts a comment, a backtick always opens a
quoted name, comments do not nest, and a dollar quote may start anywhere.

The framer of the PostgreSQL dialect reads such texts by that dialect's rules. A text without a trap
(`guardTrap`) that the framer refuses as several statements is refused by the guard as well: the two
walk over the text side by side up to the first terminator, and behind it over white space and
comments up to the token that the framer stops at.
-/

namespace Sql

open Scan Text

/-! ### The guard -/

/-- The loop variables of `sql_is_single_statement`. -/
structure GuardState where
  inSingleQuote : Bool := false
  inDoubleQuote : Bool := false
  inBacktick : Bool := false
  deriving DecidableEq

/-- `postgres_dollar_quote_delimiter_at` at a `$`. -/
def postgresDollarQuoteDelimiterAt (after : List Char) : Option (List Char) :=
  let tag := after.takeWhile (· ≠ '$')
  if '$' ∈ after ∧ tag.all isWordChar then some (dollarDelimiter tag) else none

/-- The loop over a block comment, which remembers the previous character. -/
def commentInner : Inner Char Empty Char := fun previous c _ ↦
  if previous = '*' ∧ c = '/' then .ok (none, 1) else .ok (some c, 1)

/-- An iteration of `has_sql_after_comments`, the white space that `trim_start` removes being passed
one by one. An early exit is a `return`. -/
def commentStep : Step Unit Bool Char := fun _ _ c after ↦
  if isWhitespace c then .ok ((), 1)
  else if c = '-' ∧ after.head? = some '-' then
    match findSub ['\n'] (after.drop 1) with
    | none => .error false
    | some newline => .ok ((), 2 + (newline + 1))
  else if c = '#' then
    match findSub ['\n'] after with
    | none => .error false
    | some newline => .ok ((), 1 + (newline + 1))
  else if c = '/' ∧ after.head? = some '*' then
    match findSub ['*', '/'] (after.drop 1) with
    | none => .error false
    | some close => .ok ((), 2 + (close + 2))
  else .error true

/-- `has_sql_after_comments`. -/
def hasSqlAfterComments (remaining : List Char) : Bool :=
  match scan commentStep () [] remaining with
  | .error found => found
  | .ok () => false

/-- An iteration of `sql_is_single_statement`. An early exit is a `return`. -/
def guardStep : Step GuardState Bool Char := fun st _ ch after ↦
  if st.inSingleQuote then
    if ch = '\\' then .ok (st, 2)
    else if ch = '\'' then
      if after.head? = some '\'' then .ok (st, 2) else .ok ({ st with inSingleQuote := false }, 1)
    else .ok (st, 1)
  else if st.inDoubleQuote then
    if ch = '"' then
      if after.head? = some '"' then .ok (st, 2) else .ok ({ st with inDoubleQuote := false }, 1)
    else .ok (st, 1)
  else if st.inBacktick then
    if ch = '`' then
      if after.head? = some '`' then .ok (st, 2) else .ok ({ st with inBacktick := false }, 1)
    else .ok (st, 1)
  else if ch = '\'' then .ok ({ st with inSingleQuote := true }, 1)
  else if ch = '"' then .ok ({ st with inDoubleQuote := true }, 1)
  else if ch = '`' then .ok ({ st with inBacktick := true }, 1)
  else if ch = '$' then
    match postgresDollarQuoteDelimiterAt after with
    | none => .ok (st, 1)
    | some delimiter =>
      match findSub delimiter ((ch :: after).drop delimiter.length) with
      | some closing => .ok (st, delimiter.length + closing + delimiter.length)
      | none => .ok (st, (ch :: after).length)
  else if ch = '-' ∧ after.head? = some '-' then
    .ok (st, 2 + throughFirst (· == '\n') (after.drop 1))
  else if ch = '#' then .ok (st, 1 + throughFirst (· == '\n') after)
  else if ch = '/' ∧ after.head? = some '*' then
    .ok (st, 2 + reach commentInner '\x00' (after.drop 1))
  else if ch = ';' then .error (!hasSqlAfterComments after)
  else .ok (st, 1)

/-- `sql_is_single_statement`. -/
def sqlIsSingleStatement (sql : String) : Bool :=
  match scan guardStep {} [] sql.toList with
  | .error single => single
  | .ok _ => true

/-! ### Where the guard reads otherwise -/

/-- Whether a block comment, from behind its opener on, holds `/*` before its first `*/`. -/
def opensInComment : List Char → Bool
  | c :: x :: rest =>
    if c = '*' ∧ x = '/' then false else (c == '/' && x == '*') || opensInComment (x :: rest)
  | _ => false

/-- **The traps** at a piece of the framer, before or behind a terminator.

* a `#`, which is an operator of PostgreSQL and a comment for the guard;
* before a terminator, a backtick, which quotes nothing in PostgreSQL;
* before a terminator, a `$tag$` directly after a word character or a `$`, or with a tag that starts
  with a digit: a quoted value for the guard only;
* a line comment that goes on after a carriage return: the framer ends it there;
* a block comment with another one inside: the guard ends it with the inner one. -/
def guardTrap (terminated : Bool) (before : List Char) (c : Char) (after : List Char) : Bool :=
  if c = '#' then true
  else if c = '`' then !terminated
  else if c = '$' then
    !terminated && (postgresDollarQuoteDelimiterAt after).isSome &&
      (before.head?.any blocksDollarQuote || (dollarTag true after).isNone)
  else if c = '-' ∧ after.head? = some '-' then returnsInComment (c :: after)
  else if c = '/' ∧ after.head? = some '*' then opensInComment (after.drop 1)
  else false

/-- No piece of the text is a trap. -/
def GuardTrapFree (sql : String) : Prop :=
  AllSteps (pieceStep .postgres)
    (fun st before c after ↦ !guardTrap st.terminated before c after) {} 0 [] sql.toList

/-! ### Comments and dollar quotes -/

theorem findSub_close_cons (c : Char) (rest : List Char) :
    findSub ['*', '/'] (c :: rest) =
      if c = '*' ∧ rest.head? = some '/' then some 0 else (findSub ['*', '/'] rest).map (· + 1) := by
  by_cases h : c = '*' ∧ rest.head? = some '/'
  · obtain ⟨rfl, hrest⟩ := h
    obtain ⟨xs, rfl⟩ := List.head?_eq_some_iff.1 hrest
    rfl
  · rw [if_neg h, findSub_cons_of_not_stands]
    rintro ⟨t, ht⟩
    refine h ?_
    rw [List.cons_append, List.cons_append] at ht
    cases ht
    exact ⟨rfl, rfl⟩

/-- The loop over a block comment finds the first `*/`. -/
theorem leave_commentInner (previous : Char) (rest : List Char) :
    leave commentInner previous rest =
      .ok (if previous = '*' ∧ rest.head? = some '/' then some 1
        else (findSub ['*', '/'] rest).map (· + 2)) := by
  induction rest generalizing previous with
  | nil => simp [findSub]
  | cons c rest ih =>
    by_cases hclose : previous = '*' ∧ c = '/'
    · have hin : commentInner previous c rest = .ok (none, 1) := if_pos hclose
      obtain ⟨rfl, rfl⟩ := hclose
      rw [leave_of_exit hin]
      rfl
    · have hin : commentInner previous c rest = .ok (some c, 1) := if_neg hclose
      have hhead : ¬ (previous = '*' ∧ (c :: rest).head? = some '/') := by simpa using hclose
      rw [leave_of_stay hin Nat.one_pos, List.drop_succ_cons, List.drop_zero, ih, if_neg hhead,
        findSub_close_cons]
      split_ifs
      · rfl
      · rcases findSub ['*', '/'] rest with _ | k <;> rfl

variable {rest after tag : List Char}

/-- A block comment without another one inside ends for the framer at the first `*/`. -/
theorem findSub_of_leave_blockInner (hopen : opensInComment rest = false) :
    ∀ {m : ℕ}, leave (blockInner .postgres) 1 rest = .ok (some m) →
      ∃ k, findSub ['*', '/'] rest = some k ∧ m = k + 2 := by
  induction rest with
  | nil =>
    intro m h
    cases h
  | cons c rest ih =>
    intro m h
    rw [findSub_close_cons]
    by_cases hclose : c = '*' ∧ rest.head? = some '/'
    · have hin : blockInner .postgres 1 c rest = .ok (none, 2) := by
        obtain ⟨rfl, hrest⟩ := hclose
        simp [blockInner, hrest]
      rw [leave_of_exit hin] at h
      cases h
      exact ⟨0, if_pos hclose, rfl⟩
    · have hnest : ¬ (c = '/' ∧ rest.head? = some '*') ∧ opensInComment rest = false := by
        cases rest with
        | nil => exact ⟨by simp, rfl⟩
        | cons x rest =>
          rw [opensInComment, if_neg (by simpa using hclose), Bool.or_eq_false_iff] at hopen
          exact ⟨by simpa using hopen.1, hopen.2⟩
      have hin : blockInner .postgres 1 c rest = .ok (some 1, 1) := by
        rw [blockInner, if_neg hnest.1, if_neg hclose]
      rw [leave_of_stay hin Nat.one_pos, List.drop_succ_cons, List.drop_zero] at h
      rcases hl : leave (blockInner .postgres) 1 rest with e | (_ | k) <;> rw [hl] at h <;> cases h
      obtain ⟨j, hj, rfl⟩ := ih hnest.2 hl
      exact ⟨j + 1, by rw [if_neg hclose, hj]; rfl, rfl⟩

theorem takeWhile_of_dollarTag {first : Bool} (h : dollarTag first after = some tag) :
    '$' ∈ after ∧ after.takeWhile (· ≠ '$') = tag ∧ tag.all isWordChar := by
  induction after generalizing first tag with
  | nil => cases h
  | cons c after ih =>
    rw [dollarTag] at h
    by_cases hc : c = '$'
    · rw [if_pos hc] at h
      cases h
      subst hc
      simp
    · rw [if_neg hc] at h
      by_cases hword : if first then isWordStart c else isWordChar c
      · rw [if_pos hword] at h
        obtain ⟨tag', htag', rfl⟩ := Option.map_eq_some_iff.1 h
        obtain ⟨hmem, htake, hall⟩ := ih htag'
        have hchar : isWordChar c := by
          cases first
          · exact hword
          · exact isWordChar_of_isWordStart hword
        refine ⟨List.mem_cons_of_mem _ hmem, ?_, by simpa [hchar] using hall⟩
        rw [List.takeWhile_cons_of_pos (by simpa using hc), htake]
      · rw [if_neg hword] at h
        cases h

/-- A tag of the framer is one of the guard. -/
theorem postgresDollarQuoteDelimiterAt_of_dollarTag (h : dollarTag true after = some tag) :
    postgresDollarQuoteDelimiterAt after = some (dollarDelimiter tag) := by
  obtain ⟨hmem, htake, hall⟩ := takeWhile_of_dollarTag h
  rw [postgresDollarQuoteDelimiterAt]
  simp only [htake]
  exact if_pos ⟨hmem, hall⟩

/-! ### The error for several statements -/

/-- What the framer says to several statements. -/
def severalMessage : String :=
  "Only one SQL statement is allowed"

section Errors

variable {st : FrameState} {before after : List Char} {c : Char}

theorem piece_ne_several (before : List Char) (c : Char) (after : List Char) :
    piece .postgres before c after ≠ .error severalMessage := by
  intro h
  have hopening : opening .postgres before c after = .error severalMessage := by
    rw [piece] at h
    rcases ho : opening .postgres before c after with e | (width | _ | m | _ | _) <;> rw [ho] at h
    · cases h
      rfl
    · cases h
    · cases h
    · cases h
    · cases h
    · rcases hq : quoteOpenedBy .postgres c with _ | q <;> simp only [hq] at h <;> cases h
  simp only [opening, reduceCtorEq, false_and, if_false, true_or, true_and] at hopening
  split_ifs at hopening
  rcases hd : dollarQuoteEnd before after with e | (_ | n) <;> rw [hd] at hopening <;> cases hopening
  -- the only error of a dollar quote is that it is not closed
  rw [dollarQuoteEnd] at hd
  split_ifs at hd
  rcases ht : dollarTag true after with _ | tag <;> rw [ht] at hd
  · cases hd
  · rcases hs : findSub (dollarDelimiter tag) (after.drop (tag.length + 1)) with _ | k
    · simp [hs, severalMessage] at hd
    · simp [hs] at hd

theorem closedAt_ne_several {τ : Type} {inner : Inner τ String Char} (hpos : inner.Progressive)
    (hinner : ∀ t c after, inner t c after ≠ .error severalMessage) (width : ℕ) (t : τ)
    (rest : List Char) : closedAt width (leave inner t rest) ≠ .error severalMessage := by
  intro h
  rcases hl : leave inner t rest with e | (_ | n) <;> rw [hl] at h
  · cases h
    obtain ⟨t', c, after, hin⟩ := exists_error_of_leave hpos hl
    exact hinner t' c after hin
  · rw [closedAt, Except.error.injEq] at h
    revert h
    decide
  · cases h

variable {p : Piece}

theorem extent_ne_several {extent : Except String ℕ} (h : piece .postgres before c after = .ok (p, extent)) :
    extent ≠ .error severalMessage := by
  have hquote : ∀ q t c after, quoteInner .postgres q t c after ≠ .error severalMessage := by
    intro q t c after hq
    simp only [quoteInner] at hq
    split_ifs at hq
    rw [Except.error.injEq] at hq
    revert hq
    decide
  have hblock : ∀ t c after, blockInner .postgres t c after ≠ .error severalMessage := by
    intro t c after hb
    simp only [blockInner, reduceCtorEq, or_self, if_false] at hb
    split_ifs at hb
  rw [piece] at h
  rcases ho : opening .postgres before c after with e | (width | _ | m | _ | _) <;> rw [ho] at h
  · cases h
  · cases h
    simp
  · cases h
    exact closedAt_ne_several (blockInner_progressive _) hblock _ _ _
  · cases h
    simp
  · cases h
    simp
  · rcases hq : quoteOpenedBy .postgres c with _ | q <;> simp only [hq] at h <;> cases h
    · simp
    · exact closedAt_ne_several (quoteInner_progressive _ _) (hquote q) _ _ _

theorem terminated_of_absorb_error (h : absorb .postgres st p = .error severalMessage) :
    st.terminated ∧ p.insignificant = false := by
  cases p with
  | lineComment | blockComment => cases h
  | quotedBlock | quoted q | terminator =>
    simp only [absorb, reduceCtorEq, if_false] at h
    split_ifs at h with hst
    exact ⟨hst, rfl⟩
  | character c =>
    have hplain : ∀ st₁, plainCharacter .postgres st₁ c ≠ .error severalMessage := by
      intro st₁ h
      simp only [plainCharacter] at h
      split_ifs at h
      rw [Except.error.injEq] at h
      revert h
      decide
    simp only [absorb] at h
    split_ifs at h with hst
    · exact ⟨hst.2, by simpa [Piece.insignificant] using hst.1⟩
    · exact absurd h (hplain _)
    · exact absurd h (hplain _)

/-- **Where the framer stops.** It either passes the next piece or stops at it, which is then
significant and stands behind a terminator. -/
theorem passes_or_stops (h : scan (pieceStep .postgres) st before (c :: after) = .error severalMessage) :
    (∃ p n st₁, cutPiece .postgres before c after = .ok (p, n) ∧ 0 < n ∧
        absorb .postgres st p = .ok st₁ ∧ Passes (pieceStep .postgres) st before (c :: after) n st₁) ∨
      st.terminated ∧ ∃ p extent, piece .postgres before c after = .ok (p, extent) ∧
        p.insignificant = false := by
  rcases hp : piece .postgres before c after with e | ⟨p, extent⟩
  · have hstep : pieceStep .postgres st before c after = .error e := by rw [pieceStep, hp]
    rw [scan_cons_of_error hstep] at h
    cases h
    exact absurd hp (piece_ne_several before c after)
  rcases ha : absorb .postgres st p with e | st₁
  · have hstep : pieceStep .postgres st before c after = .error e := by
      rw [pieceStep, hp]
      simp only [ha]
    rw [scan_cons_of_error hstep] at h
    cases h
    obtain ⟨hst, hsig⟩ := terminated_of_absorb_error ha
    exact .inr ⟨hst, p, extent, rfl, hsig⟩
  rcases extent with e | n
  · have hstep : pieceStep .postgres st before c after = .error e := by
      rw [pieceStep, hp]
      simp only [ha]
      rfl
    rw [scan_cons_of_error hstep] at h
    cases h
    exact absurd rfl (extent_ne_several hp)
  · have hcut : cutPiece .postgres before c after = .ok (p, n) := by
      rw [cutPiece, hp]
      rfl
    have hn : 0 < n := piece_pos hp
    exact .inl ⟨p, n, st₁, hcut, hn, ha, .of_step (pieceStep_of_cutPiece hcut ha) hn⟩

end Errors

/-! ### Before the terminator -/

section Guard

variable {st : FrameState} {before after : List Char} {c : Char}

variable {q : ScanState} {n : ℕ} {p : Piece}

/-- The framer stays in a quoted value of PostgreSQL at everything but a backslash. -/
theorem quoteInner_postgres {δ : Char} (hq : q ≠ .bracketIdentifier) (hδ : q.delimiter = δ)
    {x : Option Unit × ℕ} (h : quoteInner .postgres q () c after = .ok x) :
    c ≠ '\\' ∧ x = if c = δ then if after.head? = some δ then (some (), 2) else (none, 1)
      else (some (), 1) := by
  subst hδ
  rw [quoteInner] at h
  by_cases hb : c = '\\'
  · rw [if_pos ⟨hb, hq⟩, if_neg (by decide)] at h
    cases h
  · rw [if_neg fun hc ↦ hb hc.1] at h
    refine ⟨hb, ?_⟩
    split_ifs at h ⊢ <;> exact (Except.ok.inj h).symm

theorem passes_guard_quoted (hq : q = .singleQuote ∨ q = .doubleQuote)
    (h : leave (quoteInner .postgres q) () after = .ok (some n)) :
    Passes guardStep {} before (q.delimiter :: after) (1 + n) {} := by
  obtain rfl | rfl := hq
  · have hopen : guardStep {} before '\'' after = .ok ({ inSingleQuote := true }, 1) := rfl
    refine (Passes.of_step hopen Nat.one_pos).trans ?_
    refine Passes.of_leave (fun _ ↦ ({ inSingleQuote := true } : GuardState))
      (quoteInner_progressive _ _) ?_ h
    intro t before c rest x hx
    have hδ : ScanState.singleQuote.delimiter = '\'' := rfl
    obtain ⟨hb, rfl⟩ := quoteInner_postgres (by decide) hδ hx
    rw [guardStep, if_pos rfl, if_neg hb]
    split_ifs <;> rfl
  · have hopen : guardStep {} before '"' after = .ok ({ inDoubleQuote := true }, 1) := rfl
    refine (Passes.of_step hopen Nat.one_pos).trans ?_
    refine Passes.of_leave (fun _ ↦ ({ inDoubleQuote := true } : GuardState))
      (quoteInner_progressive _ _) ?_ h
    intro t before c rest x hx
    have hδ : ScanState.doubleQuote.delimiter = '"' := rfl
    obtain ⟨-, rfl⟩ := quoteInner_postgres (by decide) hδ hx
    rw [guardStep, if_neg Bool.false_ne_true, if_pos rfl]
    split_ifs <;> rfl

theorem guardStep_dollar (after : List Char) :
    guardStep {} before '$' after =
      match postgresDollarQuoteDelimiterAt after with
      | none => .ok ({}, 1)
      | some delimiter =>
        match findSub delimiter (('$' :: after).drop delimiter.length) with
        | some closing => .ok ({}, delimiter.length + closing + delimiter.length)
        | none => .ok ({}, ('$' :: after).length) := by
  simp only [guardStep, Bool.false_eq_true, if_false, Char.reduceEq, if_true]

/-- At a `$` that is no trap the guard goes as far as the framer. -/
theorem guardStep_dollar_of_piece (htrap : ((postgresDollarQuoteDelimiterAt after).isSome &&
      (before.head?.any blocksDollarQuote || (dollarTag true after).isNone)) = false)
    (hcut : cutPiece .postgres before '$' after = .ok (p, n)) :
    p ≠ .terminator ∧ guardStep {} before '$' after = .ok ({}, n) := by
  rw [cutPiece, piece, opening_dollar (.inl rfl), dollarQuoteEnd] at hcut
  rw [guardStep_dollar]
  rcases hdelim : postgresDollarQuoteDelimiterAt after with _ | delimiter
  · -- no tag for the guard is no tag for the framer
    have hnone : dollarTag true after = none := by
      rcases ht : dollarTag true after with _ | tag
      · rfl
      · rw [postgresDollarQuoteDelimiterAt_of_dollarTag ht] at hdelim
        cases hdelim
    rw [hnone] at hcut
    split_ifs at hcut <;> cases hcut <;> exact ⟨by simp, rfl⟩
  · have hopen : before.head?.any blocksDollarQuote = false ∧ (dollarTag true after).isNone = false := by
      simpa [hdelim] using htrap
    rcases ht : dollarTag true after with _ | tag
    · rw [ht] at hopen
      cases hopen.2
    have hsame : dollarDelimiter tag = delimiter := by
      rw [postgresDollarQuoteDelimiterAt_of_dollarTag ht] at hdelim
      exact Option.some.inj hdelim
    subst hsame
    have hlen : (dollarDelimiter tag).length = tag.length + 2 := by simp [dollarDelimiter]
    rw [hopen.1, if_neg Bool.false_ne_true, ht] at hcut
    simp only [hlen, List.drop_succ_cons]
    rcases hs : findSub (dollarDelimiter tag) (after.drop (tag.length + 1)) with _ | closing <;>
      simp only [hs] at hcut <;> cases hcut
    exact ⟨by simp, rfl⟩

theorem guardStep_block (hnext : after.head? = some '*') :
    guardStep {} before '/' after = .ok ({}, 2 + reach commentInner '\x00' (after.drop 1)) := by
  simp [guardStep, hnext]

/-- The guard at a character that none of its tests asks for. -/
theorem guardStep_other (hquote : c ≠ '\'' ∧ c ≠ '"' ∧ c ≠ '`') (hdollar : c ≠ '$')
    (hdash : ¬ (c = '-' ∧ after.head? = some '-')) (hhash : c ≠ '#')
    (hblock : ¬ (c = '/' ∧ after.head? = some '*')) (hsemi : c ≠ ';') :
    guardStep {} before c after = .ok ({}, 1) := by
  rw [guardStep, if_neg Bool.false_ne_true, if_neg Bool.false_ne_true, if_neg Bool.false_ne_true,
    if_neg hquote.1, if_neg hquote.2.1, if_neg hquote.2.2, if_neg hdollar, if_neg hdash, if_neg hhash,
    if_neg hblock, if_neg hsemi]

theorem opening_postgres_block (hnext : after.head? = some '*') :
    opening .postgres before '/' after = .ok .blockComment := by
  simp [opening, dashComment, hashComment, hnext]

/-- What the framer cuts off at a block comment that is no trap. -/
theorem cutPiece_postgres_block (hnext : after.head? = some '*')
    (htrap : opensInComment (after.drop 1) = false) (hcut : cutPiece .postgres before '/' after = .ok (p, n)) :
    p = .blockComment ∧ ∃ k, findSub ['*', '/'] (after.drop 1) = some k ∧ n = 2 + (k + 2) := by
  rw [cutPiece, piece, opening_postgres_block hnext] at hcut
  rcases hl : leave (blockInner .postgres) 1 (after.drop 1) with e | (_ | m) <;>
    simp only [hl, closedAt, Except.map] at hcut <;> cases hcut
  obtain ⟨k, hk, rfl⟩ := findSub_of_leave_blockInner htrap hl
  exact ⟨rfl, k, hk, rfl⟩

/-- **One piece** that is no line comment, no terminator and no trap, for the guard. -/
theorem passes_guard_piece (htrap : guardTrap false before c after = false) (hsemi : c ≠ ';')
    (hdash : ¬ (c = '-' ∧ after.head? = some '-')) (hn : 0 < n)
    (hcut : cutPiece .postgres before c after = .ok (p, n)) :
    p ≠ .terminator ∧ Passes guardStep {} before (c :: after) n {} := by
  rw [guardTrap] at htrap
  by_cases hhash : c = '#'
  · rw [if_pos hhash] at htrap
    cases htrap
  rw [if_neg hhash] at htrap
  by_cases hback : c = '`'
  · rw [if_pos hback] at htrap
    cases htrap
  rw [if_neg hback] at htrap
  by_cases hdollar : c = '$'
  · subst hdollar
    rw [if_pos rfl, Bool.not_false, Bool.true_and] at htrap
    obtain ⟨hp, hstep⟩ := guardStep_dollar_of_piece htrap hcut
    exact ⟨hp, .of_step hstep hn⟩
  rw [if_neg hdollar, if_neg hdash] at htrap
  by_cases hblock : c = '/' ∧ after.head? = some '*'
  · rw [if_pos hblock] at htrap
    obtain ⟨rfl, hnext⟩ := hblock
    obtain ⟨rfl, k, hk, rfl⟩ := cutPiece_postgres_block hnext htrap hcut
    have hreach : reach commentInner '\x00' (after.drop 1) = k + 2 := by
      refine reach_of_leave ?_
      rw [leave_commentInner, if_neg (by simp), hk]
      rfl
    have hstep : guardStep {} before '/' after = .ok ({}, 2 + (k + 2)) := by
      rw [guardStep_block hnext, hreach]
    exact ⟨by simp, .of_step hstep hn⟩
  by_cases hquote : c = '\'' ∨ c = '"'
  · -- a quoted value, which is closed at the same symbol
    have hclosed : ∀ q : ScanState, q = .singleQuote ∨ q = .doubleQuote → c = q.delimiter →
        cutPiece .postgres before c after =
          (closedAt 1 (leave (quoteInner .postgres q) () after)).map (Piece.quoted q, ·) →
        p ≠ .terminator ∧ Passes guardStep {} before (c :: after) n {} := by
      intro q hq hc hpiece
      rw [hpiece] at hcut
      rcases hl : leave (quoteInner .postgres q) () after with e | (_ | m) <;>
        rw [hl] at hcut <;> cases hcut
      subst hc
      exact ⟨by simp, passes_guard_quoted hq hl⟩
    obtain rfl | rfl := hquote
    · exact hclosed .singleQuote (.inl rfl) rfl rfl
    · exact hclosed .doubleQuote (.inr rfl) rfl rfl
  · have hquote' : c ≠ '\'' ∧ c ≠ '"' ∧ c ≠ '`' := ⟨fun h ↦ hquote (.inl h), fun h ↦ hquote (.inr h), hback⟩
    have hopening : opening .postgres before c after = .ok .character := by
      have hdash' : ¬ dashComment .postgres c after := by simpa [dashComment] using hdash
      simp [opening, hdash', hashComment, hhash, hblock, hdollar, hsemi]
    have hnone : quoteOpenedBy .postgres c = none := by simp [quoteOpenedBy, hquote']
    rw [cutPiece, piece, hopening] at hcut
    simp only [hnone, Except.map, Except.ok.injEq, Prod.mk.injEq] at hcut
    obtain ⟨rfl, rfl⟩ := hcut
    exact ⟨by simp, .of_step (guardStep_other hquote' hdollar hdash hhash hblock hsemi) hn⟩

/-! ### Behind the terminator -/

theorem findSub_singleton (x : Char) (rest : List Char) :
    match findSub [x] rest with
    | none => throughFirst (· == x) rest = rest.length
    | some k => throughFirst (· == x) rest = k + 1 := by
  induction rest with
  | nil => simp [findSub, throughFirst]
  | cons c rest ih =>
    by_cases hc : c = x
    · subst hc
      simp [findSub, throughFirst]
    · have hstands : ¬ [x] <+: c :: rest := by
        rintro ⟨t, ht⟩
        cases ht
        exact hc rfl
      rw [findSub_cons_of_not_stands hstands, throughFirst, beq_false_of_ne hc,
        if_neg Bool.false_ne_true]
      rcases hf : findSub [x] rest with _ | k <;> rw [hf] at ih
      · simp only [Option.map_none, List.length_cons]
        rw [ih]
      · simp only [Option.map_some]
        rw [ih]

/-- **Behind the terminator.** Where the framer finds something significant, so does the guard. -/
theorem commentStep_of_several {rest : List Char} :
    ∀ {st : FrameState}, st.terminated →
      AllSteps (pieceStep .postgres)
        (fun st before c after ↦ !guardTrap st.terminated before c after) st 0 before rest →
      scan (pieceStep .postgres) st before rest = .error severalMessage →
      scan commentStep () before rest = .error true := by
  induction before, rest using cursorInduction with
  | nil before =>
    intro st _ _ h
    cases h
  | cons before c after ih =>
    intro st hst hall h
    have htrap : guardTrap true before c after = false := by
      rw [AllSteps, Bool.and_eq_true, Bool.not_eq_true', hst] at hall
      exact hall.1
    by_cases hws : isWhitespace c
    · have hpass : Passes (pieceStep .postgres) st before (c :: after) 1 st.flushWord :=
        .of_step (pieceStep_of_cutPiece
          (cutPiece_of_not_special (by decide) (not_special_of_isWhitespace hws))
          (absorb_whitespace hws)) Nat.one_pos
      have hstep : commentStep () before c after = .ok ((), 1) := if_pos hws
      rw [scan_cons_of_step hstep Nat.one_pos]
      have hst₁ : st.flushWord.terminated := hst
      exact ih 1 Nat.one_pos hst₁ (hpass.allSteps _ hall) (by rw [← hpass.scan_eq]; exact h)
    by_cases hhash : c = '#'
    · subst hhash
      cases htrap
    by_cases hdash : c = '-' ∧ after.head? = some '-'
    · obtain ⟨rfl, hnext⟩ := hdash
      obtain ⟨rest, rfl⟩ : ∃ rest, after = '-' :: rest := List.head?_eq_some_iff.1 hnext
      have hpass : Passes (pieceStep .postgres) st before ('-' :: '-' :: rest)
          (2 + throughFirst (· == '\n') rest) st.flushWord :=
        passes_lineComment (by decide) st (rfl : _ = ['-', '-'] ++ rest) (by decide) rfl htrap
      have hline := findSub_singleton '\n' rest
      rcases hf : findSub ['\n'] rest with _ | newline <;> rw [hf] at hline
      · -- the comment ends the text, and the framer stops nowhere
        rw [hpass.scan_eq, hline] at h
        simp [Nat.add_comm 2] at h
      · have hstep : commentStep () before '-' ('-' :: rest) = .ok ((), 2 + (newline + 1)) := by
          show (match findSub ['\n'] rest with
            | none => Except.error false
            | some newline => .ok ((), 2 + (newline + 1))) = _
          rw [hf]
        have hn : 0 < 2 + (newline + 1) := by omega
        rw [hline] at hpass
        rw [scan_cons_of_step hstep hn]
        have hst₁ : st.flushWord.terminated := hst
        exact ih _ hn hst₁ (hpass.allSteps _ hall) (by rw [← hpass.scan_eq]; exact h)
    by_cases hblock : c = '/' ∧ after.head? = some '*'
    · obtain ⟨rfl, hnext⟩ := hblock
      have htrap' : opensInComment (after.drop 1) = false := by
        rw [guardTrap, if_neg (by decide), if_neg (by decide), if_neg (by decide), if_neg hdash,
          if_pos ⟨rfl, hnext⟩] at htrap
        exact htrap
      rcases passes_or_stops h with ⟨p, n, st₁, hcut, hn, habs, hpass⟩ | ⟨-, p, extent, hp, hsig⟩
      · obtain ⟨rfl, k, hk, rfl⟩ := cutPiece_postgres_block hnext htrap' hcut
        have hstep : commentStep () before '/' after = .ok ((), 2 + (k + 2)) := by
          rw [commentStep, if_neg hws, if_neg hdash, if_neg hhash, if_pos ⟨rfl, hnext⟩, hk]
        rw [scan_cons_of_step hstep hn]
        have hst₁ : st₁.terminated := by rw [(terminated_of_absorb habs).1 rfl, hst]
        exact ih _ hn hst₁ (hpass.allSteps _ hall) (by rw [← hpass.scan_eq]; exact h)
      · rw [piece, opening_postgres_block hnext] at hp
        cases hp
        cases hsig
    · -- anything else is significant for the guard
      refine scan_cons_of_error ?_
      rw [commentStep, if_neg hws, if_neg hdash, if_neg hhash, if_neg hblock]

end Guard

/-! ### The whole text -/

theorem scan_commentStep_congr (before before' rest : List Char) :
    scan commentStep () before rest = scan commentStep () before' rest := by
  induction before, rest using cursorInduction generalizing before' with
  | nil before => rfl
  | cons before c after ih =>
    rcases hstep : commentStep () before c after with e | ⟨⟨⟩, n⟩
    · have hstep' : commentStep () before' c after = .error e := hstep
      rw [scan_cons_of_error hstep, scan_cons_of_error hstep']
    · have hstep' : commentStep () before' c after = .ok ((), n) := hstep
      have hn : 0 < n := by
        simp only [commentStep] at hstep
        split_ifs at hstep <;> (try split at hstep) <;> cases hstep <;> omega
      rw [scan_cons_of_step hstep hn, scan_cons_of_step hstep' hn]
      exact ih n hn _

/-- **Up to the terminator.** Where the framer finds several statements, the guard refuses. -/
theorem guardStep_of_several {before : List Char} :
    ∀ {st : FrameState}, st.terminated = false →
      AllSteps (pieceStep .postgres)
        (fun st before c after ↦ !guardTrap st.terminated before c after) st 0 before rest →
      scan (pieceStep .postgres) st before rest = .error severalMessage →
      scan guardStep {} before rest = .error false := by
  induction before, rest using cursorInduction with
  | nil before =>
    intro st _ _ h
    cases h
  | cons before c after ih =>
    intro st hst hall h
    have htrap : guardTrap false before c after = false := by
      rw [AllSteps, Bool.and_eq_true, Bool.not_eq_true', hst] at hall
      exact hall.1
    by_cases hdash : c = '-' ∧ after.head? = some '-'
    · obtain ⟨rfl, hnext⟩ := hdash
      obtain ⟨rest, rfl⟩ : ∃ rest, after = '-' :: rest := List.head?_eq_some_iff.1 hnext
      have hpass : Passes (pieceStep .postgres) st before ('-' :: '-' :: rest)
          (2 + throughFirst (· == '\n') rest) st.flushWord :=
        passes_lineComment (by decide) st (rfl : _ = ['-', '-'] ++ rest) (by decide) rfl htrap
      have hstep : guardStep {} before '-' ('-' :: rest) =
          .ok ({}, 2 + throughFirst (· == '\n') rest) := rfl
      have hn : 0 < 2 + throughFirst (· == '\n') rest := by omega
      rw [scan_cons_of_step hstep hn]
      have hst₁ : st.flushWord.terminated = false := hst
      exact ih _ hn hst₁ (hpass.allSteps _ hall) (by rw [← hpass.scan_eq]; exact h)
    obtain ⟨p, n, st₁, hcut, hn, habs, hpass⟩ :=
      (passes_or_stops h).resolve_right fun hstop ↦ by
        rw [hst] at hstop
        exact Bool.false_ne_true hstop.1
    by_cases hsemi : c = ';'
    · -- the guard decides here, by what follows
      subst hsemi
      have hpiece : cutPiece .postgres before ';' after = .ok (.terminator, 1) := rfl
      rw [hpiece] at hcut
      cases hcut
      have hst₁ : st₁.terminated := by
        rw [((terminated_of_absorb habs).2 rfl).2]
        rfl
      have hfound := commentStep_of_several hst₁ (hpass.allSteps _ hall)
        (by rw [← hpass.scan_eq]; exact h)
      have hafter : hasSqlAfterComments after = true := by
        rw [hasSqlAfterComments, scan_commentStep_congr [] (behind 1 before (';' :: after)) after]
        rw [List.drop_succ_cons, List.drop_zero] at hfound
        rw [hfound]
      refine scan_cons_of_error ?_
      show Except.error (!hasSqlAfterComments after) = _
      rw [hafter]
      rfl
    · obtain ⟨hp, hguard⟩ := passes_guard_piece htrap hsemi hdash hn hcut
      have hst₁ : st₁.terminated = false := by
        obtain ⟨hsame, hset⟩ := terminated_of_absorb habs
        rcases hins : p.insignificant
        · rw [(hset hins).2]
          exact beq_false_of_ne hp
        · rw [hsame hins, hst]
      rw [hguard.scan_eq]
      exact ih n hn hst₁ (hpass.allSteps _ hall) (by rw [← hpass.scan_eq]; exact h)

theorem precheck_ne_several (d : SqlFramingDialect) (sql : List Char) :
    precheck d sql ≠ .error severalMessage := by
  intro h
  simp only [precheck] at h
  split_ifs at h
  all_goals
    rw [Except.error.injEq] at h
    revert h
    decide

theorem finish_ne_several (d : SqlFramingDialect) (st : FrameState) :
    finish d st ≠ .error severalMessage := by
  intro h
  simp only [finish, frameScanned, frameWords] at h
  split_ifs at h
  all_goals
    rw [Except.error.injEq] at h
    revert h
    decide

/-- **The guard refuses what the framer refuses as several statements, traps apart.** -/
theorem sqlIsSingleStatement_eq_false {sql : String}
    (hf : frameSingleStatement sql .postgres = .error "Only one SQL statement is allowed")
    (htrap : GuardTrapFree sql) : sqlIsSingleStatement sql = false := by
  rw [frameSingleStatement, frameChars_eq] at hf
  have hscan : scan (pieceStep .postgres) {} [] sql.toList = .error severalMessage := by
    rcases hpre : precheck .postgres sql.toList with e | ⟨⟩ <;> rw [hpre] at hf
    · cases hf
      exact absurd hpre (precheck_ne_several _ _)
    · change pieceFrom .postgres {} [] sql.toList = _ at hf
      rw [pieceFrom] at hf
      rcases hs : scan (pieceStep .postgres) {} [] sql.toList with e | st <;> rw [hs] at hf
      · cases hf
        rfl
      · exact absurd hf (finish_ne_several _ st)
  rw [sqlIsSingleStatement, guardStep_of_several rfl htrap hscan]

/-- A text without traps. -/
theorem sqlIsSingleStatement_eq_false_of_plain_text :
    GuardTrapFree "SELECT $a$;$a$, 'b;' -- ;\n; /* next */ SELECT 2" ∧
      sqlIsSingleStatement "SELECT $a$;$a$, 'b;' -- ;\n; /* next */ SELECT 2" = false := by
  have htrap : GuardTrapFree "SELECT $a$;$a$, 'b;' -- ;\n; /* next */ SELECT 2" := by
    show _ = true
    decide
  exact ⟨htrap, sqlIsSingleStatement_eq_false (by decide) htrap⟩

/-- Texts without backslashes that the framer refuses and the guard takes for one statement, one for
each kind of trap. -/
theorem refused_texts_that_pass_the_guard :
    ["SELECT 1 # 2; SELECT 2", "SELECT 1; # 2", "SELECT `; SELECT 2", "SELECT a$$; SELECT 2",
        "SELECT $1$; SELECT 2", "SELECT 1 -- \r; SELECT 2", "SELECT 1 /* /* */ ' */ ; SELECT 2"].Forall fun sql ↦
      '\\' ∉ sql.toList ∧
        frameSingleStatement sql .postgres = .error "Only one SQL statement is allowed" ∧
        sqlIsSingleStatement sql = true := by
  decide

end Sql
