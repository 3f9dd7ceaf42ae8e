import NexusPilot.ClickHouse.Bytes
import NexusPilot.Sql.Pass

/-!
# The framer and the classifier see the same words

A ClickHouse statement is framed by one scanner and classified by another. On an accepted text the
words of the framing are the tokens of the classifier that start with a letter or an underscore, as
long as the text has none of the things that the two read differently (`wordTrap`).

The proof follows the two side by side, from one token of the classifier to the next
(`Abreast`): the parentheses are at the same depth, the words so far are the same, and the word that
the framer is still reading is complete.
-/

namespace ClickHouse

open Scan Text Sql

/-- The tokens that start with a letter or an underscore. -/
def letterTokens (tokens : List TopLevelToken) : List String :=
  (tokens.map (·.normalized)).filter fun word ↦ word.toList.head?.any isWordStart

/-! ### What the two read differently -/

/-- Whether a quoted name, from its opening quote on, holds an escaped delimiter. -/
def escapesDelimiter (quote : Char) : List Char → Bool
  | [] => false
  | [_] => false
  | c :: x :: rest =>
    if c = '\\' then x == quote || escapesDelimiter quote rest
    else if c = quote then x == quote && escapesDelimiter quote rest
    else escapesDelimiter quote (x :: rest)

/-- **The traps**, at a token of the classifier that stands at a parenthesis depth.

* a name in double quotes or backticks with an escaped delimiter: only the framer knows the escape;
* a line comment that goes on after a carriage return: the framer ends it there;
* a `#` before white space that is not ASCII white space: a comment for the framer only;
* a heredoc whose tag starts with a digit: a quoted value for the classifier only;
* outside parentheses, a run of letters, digits and underscores that starts with a digit and is not a
  number: the framer takes the rest of it for a word. -/
def wordTrap (depth : ℕ) (before : List Char) (c : Char) (after : List Char) : Bool :=
  if c = '"' ∨ c = '`' then escapesDelimiter c after
  else if c = '-' ∧ after.head? = some '-' then returnsInComment (c :: after)
  else if c = '/' ∧ after.head? = some '/' then returnsInComment (c :: after)
  else if c = '#' then
    if after.head?.all fun c ↦ c == '!' || isAsciiWhitespace c then returnsInComment (c :: after)
    else after.head?.any isWhitespace
  else if c = '$' then
    !before.head?.any blocksDollarQuote && (heredocTag after).any fun tag ↦ tag.head?.any Char.isDigit
  else decide (depth = 0) && c.isDigit && (after.takeWhile isWordChar).any isWordStart

/-- No token of the text is a trap. -/
def WordTrapFree (sql : String) : Prop :=
  AllSteps tokenStep (fun st before c after ↦ !wordTrap st.depth before c after) {} 0 [] sql.toList

/-! ### What a piece does to the words -/

/-- The parenthesis depth after a piece. -/
def depthAfter (depth : ℕ) : Piece → ℕ
  | .character '(' => depth + 1
  | .character ')' => depth - 1
  | _ => depth

variable {c : Char} {st st' : FrameState} {ts ts' : TokenState}
  {rest rest' run before after tag : List Char} {r : Option ℕ}

theorem depthAfter_character {depth : ℕ} (hleft : c ≠ '(') (hright : c ≠ ')') :
    depthAfter depth (.character c) = depth := by
  rw [depthAfter]
  · rintro ⟨⟩
    exact hleft rfl
  · rintro ⟨⟩
    exact hright rfl

/-- Everything but a word character completes the word before it. -/
theorem absorb_break {p : Piece} (hp : ∀ c, p = .character c → isWordChar c = false)
    (h : absorb .clickHouse st p = .ok st') :
    st'.words = st.flushWord.words ∧ st'.currentWord = [] ∧
      st'.parenthesisDepth = depthAfter st.parenthesisDepth p := by
  cases p with
  | lineComment | blockComment =>
    cases h
    exact ⟨rfl, rfl, rfl⟩
  | quotedBlock | quoted q | terminator =>
    simp only [absorb] at h
    split_ifs at h <;> cases h <;> exact ⟨rfl, rfl, rfl⟩
  | character c =>
    have hword : isWordChar c = false := hp c rfl
    have hstart : ¬ isWordStart c := fun hs ↦ by
      rw [isWordChar_of_isWordStart hs] at hword
      cases hword
    have hdigit : ¬ c.isDigit := fun hs ↦ by
      simp [isWordChar, Char.isAlphanum, hs] at hword
    have hplain : ∀ st₁ : FrameState, plainCharacter .clickHouse st₁ c = .ok st' →
        st'.words = st₁.flushWord.words ∧ st'.currentWord = [] ∧
          st'.parenthesisDepth = depthAfter st₁.parenthesisDepth (.character c) := by
      intro st₁ h
      rw [plainCharacter] at h
      by_cases hleft : c = '('
      · rw [if_pos hleft] at h
        cases h
        subst hleft
        exact ⟨rfl, rfl, rfl⟩
      by_cases hright : c = ')'
      · rw [if_neg hleft, if_pos hright] at h
        split_ifs at h
        cases h
        subst hright
        exact ⟨rfl, rfl, rfl⟩
      have hlink : ¬ (c = '@' ∧ SqlFramingDialect.clickHouse = .oracle) := by simp
      rw [if_neg hleft, if_neg hright, if_neg hlink, if_neg hstart,
        if_neg fun hnumber ↦ hdigit hnumber.1] at h
      cases h
      exact ⟨rfl, rfl, (depthAfter_character hleft hright).symm⟩
    simp only [absorb] at h
    split_ifs at h
    · exact hplain st h
    · exact hplain st.markSignificant h

/-- A word character continues or starts the word, unless a number starts. -/
theorem absorb_wordChar (hc : isWordChar c) (h : absorb .clickHouse st (.character c) = .ok st') :
    st'.words = st.words ∧ st'.parenthesisDepth = st.parenthesisDepth ∧
      st'.currentWord =
        if isWordStart c ∨ st.currentWord ≠ [] then st.currentWord ++ [c.toUpper] else [] := by
  have hws : isWhitespace c = false := isWhitespace_eq_false_of_isWordChar hc
  have hne : ∀ x, isWordChar x = false → c ≠ x := by
    rintro x hx rfl
    rw [hc] at hx
    cases hx
  simp only [absorb, hws, Bool.false_eq_true, not_false_eq_true, true_and, if_false] at h
  split_ifs at h with hterm
  simp only [plainCharacter, hne '(' rfl, hne ')' rfl, if_false, reduceCtorEq, and_false] at h
  by_cases hstart : isWordStart c
  · rw [if_pos hstart] at h
    cases h
    exact ⟨rfl, rfl, by rw [if_pos (.inl hstart)]; rfl⟩
  · have hdigit : c.isDigit := by
      simp only [isWordChar, Char.isAlphanum, isWordStart, Bool.or_eq_true] at hc hstart
      tauto
    rw [if_neg hstart] at h
    by_cases hword : st.currentWord = []
    · rw [if_neg fun hd ↦ hd.2 hword] at h
      cases h
      refine ⟨?_, rfl, by rw [if_neg (by simp [hstart, hword])]; rfl⟩
      show st.words ++ _ = st.words
      simp [FrameState.pendingWord, FrameState.markSignificant, hword]
    · rw [if_pos ⟨hdigit, hword⟩] at h
      cases h
      exact ⟨rfl, rfl, by rw [if_pos (.inr hword), toUpper_of_isDigit hdigit]; rfl⟩

/-! ### Side by side -/

/-- The framer and the classifier stand at the same place of a text and have seen the same words. -/
structure Abreast (st : FrameState) (ts : TokenState) (rest : List Char) : Prop where
  depth : ts.depth = st.parenthesisDepth
  words : letterTokens ts.tokens = topLevelWords st.flushWord.words
  complete : st.currentWord = [] ∨ rest.head?.any isWordChar = false

theorem flushWord_words_of_nil (h : st.currentWord = []) :
    st.flushWord.words = st.words := by
  simp [FrameState.flushWord, FrameState.pendingWord, h]

/-- A break keeps the words. -/
theorem Abreast.of_break (h : Abreast st ts rest) (hwords : st'.words = st.flushWord.words)
    (hcurrent : st'.currentWord = []) (hdepth : ts'.depth = st'.parenthesisDepth)
    (htokens : letterTokens ts'.tokens = letterTokens ts.tokens) : Abreast st' ts' rest' :=
  ⟨hdepth, by rw [htokens, h.words, flushWord_words_of_nil hcurrent, hwords], .inl hcurrent⟩

theorem letterTokens_append (l m : List TopLevelToken) :
    letterTokens (l ++ m) = letterTokens l ++ letterTokens m := by
  simp [letterTokens]

@[simp]
theorem letterTokens_boundary (ts : TokenState) :
    letterTokens ts.boundary.tokens = letterTokens ts.tokens := by
  have hpush : ∀ tokens, letterTokens (pushTokenBoundary tokens) = letterTokens tokens := by
    intro tokens
    rw [pushTokenBoundary]
    split_ifs
    · rw [letterTokens_append]
      simp [letterTokens]
    · rfl
  rw [TokenState.boundary]
  split_ifs
  · exact hpush _
  · rfl

@[simp]
theorem depth_boundary (ts : TokenState) : ts.boundary.depth = ts.depth := by
  rw [TokenState.boundary]
  split_ifs <;> rfl

/-! ### Words -/

/-- The word that the framer is reading after a run of word characters. -/
def wordAfter (word : List Char) : List Char → List Char
  | [] => word
  | c :: run =>
    wordAfter (if isWordStart c ∨ word ≠ [] then word ++ [c.toUpper] else []) run

theorem wordAfter_of_ne_nil {word : List Char} (h : word ≠ []) (run : List Char) :
    wordAfter word run = word ++ run.map Char.toUpper := by
  induction run generalizing word with
  | nil => simp [wordAfter]
  | cons c run ih => simp [wordAfter, h, ih]

theorem wordAfter_of_digits (h : ∀ c ∈ run, isWordStart c = false) :
    wordAfter [] run = [] := by
  induction run with
  | nil => rfl
  | cons c run ih =>
    have hc : isWordStart c = false := h c List.mem_cons_self
    simp [wordAfter, hc, ih fun x hx ↦ h x (List.mem_cons_of_mem _ hx)]

theorem not_special_of_isWordChar (hc : isWordChar c) : c ∉ specialCharacters :=
  not_special_of (by decide) hc

/-- **A run of word characters** for the framer. -/
theorem scan_run (run : List Char) :
    ∀ {st : FrameState} {before : List Char}, (∀ c ∈ run, isWordChar c) →
      scan (pieceStep .clickHouse) st before (run ++ rest) = .ok st' →
      ∃ st₁, st₁.words = st.words ∧ st₁.parenthesisDepth = st.parenthesisDepth ∧
        st₁.currentWord = wordAfter st.currentWord run ∧
        scan (pieceStep .clickHouse) st₁ (behind run.length before (run ++ rest)) rest = .ok st' := by
  induction run with
  | nil =>
    intro st before _ h
    exact ⟨st, rfl, rfl, rfl, h⟩
  | cons c run ih =>
    intro st before hrun h
    have hc : isWordChar c := hrun c List.mem_cons_self
    obtain ⟨p, k, st₁, hcut, habs, hscan⟩ := exists_piece_of_scan h
    rw [cutPiece_of_not_special (by decide) (not_special_of_isWordChar hc)] at hcut
    cases hcut
    obtain ⟨hwords, hdepth, hcurrent⟩ := absorb_wordChar hc habs
    rw [behind_succ_cons, behind_zero, List.drop_succ_cons, List.drop_zero] at hscan
    obtain ⟨st₂, hwords₂, hdepth₂, hcurrent₂, hscan₂⟩ :=
      ih (fun x hx ↦ hrun x (List.mem_cons_of_mem _ hx)) hscan
    refine ⟨st₂, hwords₂.trans hwords, hdepth₂.trans hdepth, ?_, ?_⟩
    · rw [hcurrent₂, hcurrent, wordAfter]
    · rw [List.length_cons, List.cons_append, behind_succ_cons]
      exact hscan₂

/-- The classifier's token and the framer's word of a run. -/
theorem Abreast.of_run {st₁ : FrameState} (h : Abreast st ts (c :: rest)) (hc : isWordChar c)
    (htrap : (decide (ts.depth = 0) && c.isDigit && run.any isWordStart) = false)
    (hwords : st₁.words = st.words) (hdepth : st₁.parenthesisDepth = st.parenthesisDepth)
    (hcurrent : st₁.currentWord = wordAfter st.currentWord (c :: run))
    (hnext : rest'.head?.any isWordChar = false) :
    Abreast st₁ (ts.pushWord (c :: run)) rest' := by
  -- the word before the run was complete, so the run starts a new one
  have hnil : st.currentWord = [] := by
    refine h.complete.resolve_right ?_
    simp [hc]
  rw [hnil] at hcurrent
  refine ⟨?_, ?_, .inr hnext⟩
  · rw [hdepth, ← h.depth, TokenState.pushWord]
    split_ifs <;> rfl
  have hbefore : letterTokens ts.tokens = topLevelWords st.words := by
    rw [h.words, flushWord_words_of_nil hnil]
  have hafter : topLevelWords st₁.flushWord.words =
      topLevelWords st.words ++ topLevelWords st₁.pendingWord := by
    show topLevelWords (st₁.words ++ st₁.pendingWord) = _
    rw [topLevelWords_append, hwords]
  rw [hafter, ← hbefore, TokenState.pushWord]
  by_cases hzero : ts.depth = 0
  · have hzero' : st₁.parenthesisDepth = 0 := by rw [hdepth, ← h.depth, hzero]
    rw [if_pos hzero, letterTokens_append]
    congr 1
    by_cases hstart : isWordStart c
    · -- a word for both
      have hword : st₁.currentWord = (c :: run).map Char.toUpper := by
        rw [hcurrent, wordAfter, if_pos (.inl hstart), wordAfter_of_ne_nil (by simp)]
        rfl
      simp [letterTokens, toAsciiUppercase, isWordStart_toUpper hstart, FrameState.pendingWord, hword,
        topLevelWords, hzero']
    · -- a number for both
      have hdigit : c.isDigit := by
        simp only [isWordChar, Char.isAlphanum, isWordStart, Bool.or_eq_true] at hc hstart
        tauto
      have hdigits : ∀ x ∈ run, isWordStart x = false := by
        simpa [hzero, hdigit] using htrap
      have hword : st₁.currentWord = [] := by
        rw [hcurrent, wordAfter, if_neg (by simp [hstart])]
        exact wordAfter_of_digits hdigits
      simp [letterTokens, toAsciiUppercase, toUpper_of_isDigit hdigit, hstart, FrameState.pendingWord,
        hword, topLevelWords]
  · -- inside parentheses nothing is kept
    have hzero' : st₁.parenthesisDepth ≠ 0 := by rw [hdepth, ← h.depth]; exact hzero
    rw [if_neg hzero, FrameState.pendingWord]
    split_ifs <;> simp [topLevelWords, hzero']

/-! ### Quoted names and comments -/

/-- A string ends for both at the same quote. -/
theorem leave_quotedInner_single (h : leave (quoteInner .clickHouse .singleQuote) () rest = .ok r) :
    leave (quotedInner '\'') () rest = .ok r := by
  refine leave_mono (quoteInner_progressive _ _) ?_ h
  intro t c after x hx
  have hframer : quoteInner .clickHouse .singleQuote t c after =
      if c = '\\' then .ok (some (), 2)
      else if c = '\'' then
        if after.head? = some '\'' then .ok (some (), 2) else .ok (none, 1)
      else .ok (some (), 1) := by
    by_cases hb : c = '\\'
    · simp [quoteInner, hb]
    · by_cases hc : c = '\''
      · by_cases hn : after.head? = some '\'' <;> simp [quoteInner, ScanState.delimiter, hc, hn]
      · simp [quoteInner, ScanState.delimiter, hb, hc]
  have hclassifier : quotedInner '\'' t c after =
      if c = '\\' then .ok (some (), 2)
      else if c = '\'' then
        if after.head? = some '\'' then .ok (some (), 2) else .ok (none, 1)
      else .ok (some (), 1) := by
    simp [quotedInner]
  rw [hframer] at hx
  rw [hclassifier]
  split_ifs at hx ⊢ <;> exact congrArg Except.ok (Except.ok.inj hx)

section Names

variable {q : ScanState} {c : Char} {after rest : List Char} {m : ℕ}

/-- The two modes at a symbol that is neither the delimiter nor a backslash. -/
theorem leave_name_ordinary (hb : c ≠ '\\') (hc : c ≠ q.delimiter)
    (ih : ∀ {m}, leave (quoteInner .clickHouse q) () rest = .ok (some m) →
      leave (quotedInner q.delimiter) () rest = .ok (some m))
    (h : leave (quoteInner .clickHouse q) () (c :: rest) = .ok (some m)) :
    leave (quotedInner q.delimiter) () (c :: rest) = .ok (some m) := by
  have hframer : quoteInner .clickHouse q () c rest = .ok (some (), 1) := by
    simp [quoteInner, hb, hc]
  have hclassifier : quotedInner q.delimiter () c rest = .ok (some (), 1) := by
    simp [quotedInner, hb, hc]
  rw [leave_of_stay hframer Nat.one_pos, List.drop_succ_cons, List.drop_zero] at h
  rw [leave_of_stay hclassifier Nat.one_pos, List.drop_succ_cons, List.drop_zero]
  rcases hl : leave (quoteInner .clickHouse q) () rest with e | (_ | k) <;> rw [hl] at h <;> cases h
  rw [ih hl]
  rfl

/-- The two modes at the delimiter. -/
theorem leave_name_delimiter (hq : q = .doubleQuote ∨ q = .backtick)
    (ih : rest.head? = some q.delimiter → ∀ {m},
      leave (quoteInner .clickHouse q) () (rest.drop 1) = .ok (some m) →
        leave (quotedInner q.delimiter) () (rest.drop 1) = .ok (some m))
    (h : leave (quoteInner .clickHouse q) () (q.delimiter :: rest) = .ok (some m)) :
    leave (quotedInner q.delimiter) () (q.delimiter :: rest) = .ok (some m) := by
  have hb : q.delimiter ≠ '\\' := by obtain rfl | rfl := hq <;> decide
  by_cases hnext : rest.head? = some q.delimiter
  · have hframer : quoteInner .clickHouse q () q.delimiter rest = .ok (some (), 2) := by
      simp [quoteInner, hb, hnext]
    have hclassifier : quotedInner q.delimiter () q.delimiter rest = .ok (some (), 2) := by
      simp [quotedInner, hb, hnext]
    rw [leave_of_stay hframer Nat.two_pos, List.drop_succ_cons] at h
    rw [leave_of_stay hclassifier Nat.two_pos, List.drop_succ_cons]
    rcases hl : leave (quoteInner .clickHouse q) () (rest.drop 1) with e | (_ | k) <;>
      rw [hl] at h <;> cases h
    rw [ih hnext hl]
    rfl
  · have hframer : quoteInner .clickHouse q () q.delimiter rest = .ok (none, 1) := by
      simp [quoteInner, hb, hnext]
    have hclassifier : quotedInner q.delimiter () q.delimiter rest = .ok (none, 1) := by
      simp [quotedInner, hb, hnext]
    rw [leave_of_exit hframer] at h
    rw [leave_of_exit hclassifier]
    exact congrArg Except.ok (Except.ok.inj h)

/-- The two modes at a backslash that does not escape the delimiter. -/
theorem leave_name_backslash (hq : q = .doubleQuote ∨ q = .backtick) {x : Char}
    (hx : x ≠ q.delimiter)
    (ih : ∀ {m}, leave (quoteInner .clickHouse q) () rest = .ok (some m) →
      leave (quotedInner q.delimiter) () rest = .ok (some m))
    (h : leave (quoteInner .clickHouse q) () ('\\' :: x :: rest) = .ok (some m)) :
    leave (quotedInner q.delimiter) () ('\\' :: x :: rest) = .ok (some m) := by
  have hframer : quoteInner .clickHouse q () '\\' (x :: rest) = .ok (some (), 2) := by
    obtain rfl | rfl := hq <;> rfl
  have hstay : ∀ y after, y ≠ q.delimiter →
      quotedInner q.delimiter () y after = .ok (some (), 1) := by
    intro y after hy
    have hquote : q.delimiter ≠ '\'' := by obtain rfl | rfl := hq <;> decide
    simp [quotedInner, hy, hquote]
  have hb : '\\' ≠ q.delimiter := by obtain rfl | rfl := hq <;> decide
  rw [leave_of_stay hframer Nat.two_pos, List.drop_succ_cons, List.drop_succ_cons,
    List.drop_zero] at h
  rw [leave_of_stay (hstay _ _ hb) Nat.one_pos, List.drop_succ_cons, List.drop_zero,
    leave_of_stay (hstay _ _ hx) Nat.one_pos, List.drop_succ_cons, List.drop_zero]
  rcases hl : leave (quoteInner .clickHouse q) () rest with e | (_ | k) <;> rw [hl] at h <;> cases h
  rw [ih hl]
  rfl

/-- A quoted name without an escaped delimiter ends for both at the same quote. -/
theorem leave_quotedInner_name (hq : q = .doubleQuote ∨ q = .backtick)
    (htrap : escapesDelimiter q.delimiter rest = false) :
    ∀ {m : ℕ}, leave (quoteInner .clickHouse q) () rest = .ok (some m) →
      leave (quotedInner q.delimiter) () rest = .ok (some m) := by
  induction rest using escapesDelimiter.induct q.delimiter with
  | case1 =>
    intro m h
    cases h
  | case2 c =>
    intro m h
    by_cases hb : c = '\\'
    · -- an escape at the end of the text closes nothing
      subst hb
      have hframer : quoteInner .clickHouse q () '\\' [] = .ok (some (), 2) := by
        obtain rfl | rfl := hq <;> rfl
      rw [leave_of_stay hframer Nat.two_pos] at h
      cases h
    · by_cases hc : c = q.delimiter
      · subst hc
        exact leave_name_delimiter hq (fun hnext ↦ by cases hnext) h
      · exact leave_name_ordinary hb hc (fun h ↦ by cases h) h
  | case3 x rest ih =>
    intro m h
    rw [escapesDelimiter, if_pos rfl, Bool.or_eq_false_iff] at htrap
    exact leave_name_backslash hq (by simpa using htrap.1) (ih htrap.2) h
  | case4 x rest hb ih =>
    intro m h
    rw [escapesDelimiter, if_neg hb, if_pos rfl] at htrap
    refine leave_name_delimiter hq ?_ h
    intro hnext
    obtain rfl : x = q.delimiter := Option.some.inj hnext
    rw [beq_self_eq_true, Bool.true_and] at htrap
    exact ih htrap
  | case5 c x rest hb hc ih =>
    intro m h
    rw [escapesDelimiter, if_neg hb, if_neg hc] at htrap
    exact leave_name_ordinary hb hc (ih htrap) h

end Names

theorem leave_nestedInner (h : leave (blockInner .clickHouse) 1 rest = .ok r) :
    leave nestedInner 1 rest = .ok r := by
  refine leave_mono (blockInner_progressive _) ?_ h
  intro depth c after x hx
  simp only [blockInner, nestedInner, reduceCtorEq, or_self, if_false] at hx ⊢
  split_ifs at hx ⊢ <;> exact congrArg Except.ok (Except.ok.inj hx)

/-- Past a line comment the classifier takes the line feed in a step of its own. -/
theorem passes_tokenStep_lineComment (opener rest : List Char) (hopener : c :: after = opener ++ rest)
    (hstep : tokenStep ts before c after = .ok (ts, opener.length + skipLineComment rest)) :
    Passes tokenStep ts before (c :: after) (opener.length + throughFirst (· == '\n') rest) ts := by
  have hcomment := Passes.of_step hstep (tokenStep_pos hstep)
  have hline : ∀ x ∈ rest.takeWhile (· ≠ '\n'), (x == '\n') = false := by
    intro x hx
    simpa using List.mem_takeWhile_imp hx
  have hdrop : (c :: after).drop (opener.length + skipLineComment rest) =
      rest.dropWhile (· ≠ '\n') := by
    rw [hopener, ← List.drop_drop, List.drop_left, skipLineComment]
    nth_rewrite 2 [← List.takeWhile_append_dropWhile (p := (· ≠ '\n')) (l := rest)]
    rw [List.drop_left]
  have hextent : throughFirst (· == '\n') rest =
      skipLineComment rest + throughFirst (· == '\n') (rest.dropWhile (· ≠ '\n')) := by
    conv_lhs => rw [← List.takeWhile_append_dropWhile (p := (· ≠ '\n')) (l := rest)]
    exact throughFirst_append hline _
  rcases hrest : rest.dropWhile (· ≠ '\n') with _ | ⟨x, xs⟩
  · -- the text ends with the comment
    rw [hrest] at hextent
    rw [hextent]
    exact hcomment
  · have hx : x = '\n' := by
      have hne : rest.dropWhile (· ≠ '\n') ≠ [] := by rw [hrest]; simp
      have hhead : (rest.dropWhile (· ≠ '\n')).head hne = x := by
        refine Option.some.inj ?_
        rw [← List.head?_eq_some_head, hrest]
        rfl
      have hnot := List.head_dropWhile_not (· ≠ '\n') hne
      rw [hhead] at hnot
      simpa using hnot
    subst hx
    have hone : throughFirst (· == '\n') ('\n' :: xs) = 1 := rfl
    rw [hrest, hone] at hextent
    rw [hextent, ← Nat.add_assoc]
    refine hcomment.trans ?_
    rw [hdrop, hrest]
    exact .of_step (tokenStep_space rfl) Nat.one_pos

/-! ### Heredocs -/

theorem heredocTag_of_dollarTag {first : Bool} (h : dollarTag first rest = some tag) :
    heredocTag rest = some tag := by
  induction rest generalizing first tag with
  | nil => cases h
  | cons c rest ih =>
    rw [dollarTag] at h
    rw [heredocTag]
    by_cases hc : c = '$'
    · rw [if_pos hc] at h ⊢
      exact h
    · rw [if_neg hc] at h ⊢
      split_ifs at h with hfirst hword hword
      all_goals
        obtain ⟨tag', htag', rfl⟩ := Option.map_eq_some_iff.1 h
        have hchar : isWordChar c := by
          first
            | exact hword
            | exact isWordChar_of_isWordStart hword
        rw [if_pos hchar, ih htag']
        rfl

theorem dollarTag_of_heredocTag (h : heredocTag rest = some tag) (hdigit : tag.head?.any Char.isDigit = false) :
    dollarTag true rest = some tag := by
  have hmore : ∀ {rest tag : List Char}, heredocTag rest = some tag →
      dollarTag false rest = some tag := by
    intro rest
    induction rest with
    | nil =>
      intro tag h
      cases h
    | cons c rest ih =>
      intro tag h
      rw [heredocTag] at h
      rw [dollarTag]
      split_ifs at h with hc hword
      · rw [if_pos hc]
        exact h
      · obtain ⟨tag', htag', rfl⟩ := Option.map_eq_some_iff.1 h
        rw [if_neg hc, ih htag']
        simp [hword]
  cases rest with
  | nil => cases h
  | cons c rest =>
    rw [heredocTag] at h
    rw [dollarTag]
    split_ifs at h with hc hword
    · rw [if_pos hc]
      exact h
    · obtain ⟨tag', htag', rfl⟩ := Option.map_eq_some_iff.1 h
      have hnot : c.isDigit = false := by simpa using hdigit
      have hstart : isWordStart c := by
        simp only [isWordChar, Char.isAlphanum, hnot, Bool.or_false] at hword
        exact hword
      rw [if_neg hc, hmore htag']
      simp [hstart]

/-- At a `$` that is no trap the two find the same quoted value, or none. -/
theorem dollarQuoteEnd_eq_heredocEnd (htrap : (!before.head?.any blocksDollarQuote &&
      (heredocTag after).any fun tag ↦ tag.head?.any Char.isDigit) = false)
    (h : dollarQuoteEnd before after = .ok r) : clickhouseHeredocEnd before after = r := by
  rw [dollarQuoteEnd] at h
  by_cases hblock : before.head?.any blocksDollarQuote
  · rw [if_pos hblock] at h
    have hnone : clickhouseHeredocEnd before after = none := if_pos hblock
    rw [hnone]
    exact Except.ok.inj h
  · rw [if_neg hblock] at h
    refine (if_neg hblock : clickhouseHeredocEnd before after = _).trans ?_
    rcases htag : heredocTag after with _ | tag
    · have hnone : dollarTag true after = none := by
        rcases hd : dollarTag true after with _ | tag
        · rfl
        · rw [heredocTag_of_dollarTag hd] at htag
          cases htag
      rw [hnone] at h
      exact Except.ok.inj h
    · have hdigit : tag.head?.any Char.isDigit = false := by simpa [hblock, htag] using htrap
      rw [dollarTag_of_heredocTag htag hdigit] at h
      simp only [] at h ⊢
      rcases hsub : findSub (dollarDelimiter tag) (after.drop (tag.length + 1)) with _ | offset <;>
        rw [hsub] at h
      · cases h
      · exact Except.ok.inj h

theorem dollarQuoteEnd_ne_error (h : scan (pieceStep .clickHouse) st before ('$' :: after) = .ok st') :
    ∃ r, dollarQuoteEnd before after = .ok r := by
  rcases hq : dollarQuoteEnd before after with e | r
  · obtain ⟨p, k, st₁, hcut, -, -⟩ := exists_piece_of_scan h
    rw [cutPiece, piece, opening_dollar (.inr rfl), hq] at hcut
    cases hcut
  · exact ⟨r, rfl⟩

/-! ### One token, and all of them -/

section Step

variable {st st' : FrameState} {ts ts₁ : TokenState} {before after rest' : List Char} {c : Char}
  {n : ℕ}

section

variable (h : Abreast st ts (c :: after))
  (hscan : scan (pieceStep .clickHouse) st before (c :: after) = .ok st')
include h hscan

/-- A token that is one piece of the framer and holds no word. -/
theorem Abreast.of_piece
    (hcut : ∀ p k, cutPiece .clickHouse before c after = .ok (p, k) →
      (∀ x, p = .character x → isWordChar x = false) ∧ k = n ∧ ts₁.depth = depthAfter ts.depth p)
    (htokens : letterTokens ts₁.tokens = letterTokens ts.tokens) :
    ∃ st₁, Abreast st₁ ts₁ rest' ∧ scan (pieceStep .clickHouse) st₁
      (behind n before (c :: after)) ((c :: after).drop n) = .ok st' := by
  obtain ⟨p, k, st₁, hpk, habs, hscan₁⟩ := exists_piece_of_scan hscan
  obtain ⟨hp, rfl, hdepth⟩ := hcut p k hpk
  obtain ⟨hwords, hcurrent, hdepth'⟩ := absorb_break hp habs
  exact ⟨st₁, h.of_break hwords hcurrent (by rw [hdepth, hdepth', h.depth]) htokens, hscan₁⟩

/-- A character that is a piece of its own and no word character. -/
theorem Abreast.of_character (hcut : cutPiece .clickHouse before c after = .ok (.character c, 1))
    (hc : isWordChar c = false) (hdepth : ts₁.depth = depthAfter ts.depth (.character c))
    (htokens : letterTokens ts₁.tokens = letterTokens ts.tokens) :
    ∃ st₁, Abreast st₁ ts₁ rest' ∧ scan (pieceStep .clickHouse) st₁
      (behind 1 before (c :: after)) ((c :: after).drop 1) = .ok st' := by
  refine h.of_piece hscan ?_ htokens
  intro p k hpk
  rw [hcut] at hpk
  cases hpk
  refine ⟨?_, rfl, hdepth⟩
  rintro x ⟨⟩
  exact hc

end

variable {p : Piece} {k : ℕ}

/-- A quoted value or name that is no trap. -/
theorem cutPiece_quote (hc : c = '\'' ∨ c = '"' ∨ c = '`')
    (htrap : c = '"' ∨ c = '`' → escapesDelimiter c after = false)
    (h : cutPiece .clickHouse before c after = .ok (p, k)) :
    (∃ q, p = .quoted q) ∧ k = skipQuoted c after := by
  -- the quoted state is left at the same symbol as `skip_quoted`
  have hclosed : ∀ q : ScanState, cutPiece .clickHouse before c after =
        (closedAt 1 (leave (quoteInner .clickHouse q) () after)).map (Piece.quoted q, ·) →
      (∀ {m : ℕ}, leave (quoteInner .clickHouse q) () after = .ok (some m) →
        leave (quotedInner c) () after = .ok (some m)) →
      (∃ q, p = .quoted q) ∧ k = skipQuoted c after := by
    intro q hcut hleave
    rw [hcut] at h
    rcases hl : leave (quoteInner .clickHouse q) () after with e | (_ | m) <;> rw [hl] at h <;> cases h
    exact ⟨⟨q, rfl⟩, by rw [skipQuoted, reach_of_leave (hleave hl)]⟩
  obtain rfl | rfl | rfl := hc
  · exact hclosed .singleQuote rfl leave_quotedInner_single
  · exact hclosed .doubleQuote rfl (leave_quotedInner_name (.inl rfl) (htrap (.inl rfl)))
  · exact hclosed .backtick rfl (leave_quotedInner_name (.inr rfl) (htrap (.inr rfl)))

theorem cutPiece_block (hnext : after.head? = some '*')
    (h : cutPiece .clickHouse before '/' after = .ok (p, k)) :
    p = .blockComment ∧ k = 2 + skipNestedBlockComment (after.drop 1) := by
  have hopening : opening .clickHouse before '/' after = .ok .blockComment := by
    simp [opening, dashComment, hashComment, hnext]
  rw [cutPiece, piece, hopening] at h
  rcases hl : leave (blockInner .clickHouse) 1 (after.drop 1) with e | (_ | m) <;>
    simp only [hl, closedAt, Except.map] at h <;> cases h
  exact ⟨rfl, by rw [skipNestedBlockComment, reach_of_leave (leave_nestedInner hl)]⟩

/-- What the framer makes of a symbol that is a token boundary for the classifier. -/
theorem cutPiece_other (hquote : ¬ (c = '\'' ∨ c = '"' ∨ c = '`'))
    (hdash : ¬ (c = '-' ∧ after.head? = some '-')) (hhash : hashComment .clickHouse c after = false)
    (hslash : ¬ (c = '/' ∧ after.head? = some '/')) (hblock : ¬ (c = '/' ∧ after.head? = some '*'))
    (hdollar : c ≠ '$') :
    cutPiece .clickHouse before c after =
      .ok (if c = ';' then .terminator else .character c, 1) := by
  have hdash' : ¬ dashComment .clickHouse c after := by simpa [dashComment] using hdash
  have hopening : opening .clickHouse before c after =
      .ok (if c = ';' then .terminator else .character) := by
    rw [opening, if_neg hdash', hhash, if_neg Bool.false_ne_true, if_neg fun h ↦ hslash h.2,
      if_neg hblock, if_neg fun h ↦ hdollar h.2, if_neg (by decide)]
    split_ifs <;> rfl
  have hnone : quoteOpenedBy .clickHouse c = none := by
    simp only [not_or] at hquote
    simp [quoteOpenedBy, hquote]
  rw [cutPiece, piece, hopening]
  by_cases hsemi : c = ';'
  · rw [if_pos hsemi, if_pos hsemi]
    rfl
  · rw [if_neg hsemi, if_neg hsemi]
    simp [hnone, Except.map]

end Step

/-- Both scanners, from one place where they are abreast, to the next. -/
def Meets (st' : FrameState) (ts : TokenState) (before rest : List Char) : Prop :=
  ∃ n st₁ ts₁, 0 < n ∧ Abreast st₁ ts₁ (rest.drop n) ∧
    scan (pieceStep .clickHouse) st₁ (behind n before rest) (rest.drop n) = .ok st' ∧
    Passes tokenStep ts before rest n ts₁

/-- They meet after one token of the classifier. -/
theorem meets_of_step {ts₁ : TokenState} {n : ℕ} (hstep : tokenStep ts before c after = .ok (ts₁, n))
    (h : ∃ st₁, Abreast st₁ ts₁ ((c :: after).drop n) ∧ scan (pieceStep .clickHouse) st₁
      (behind n before (c :: after)) ((c :: after).drop n) = .ok st') :
    Meets st' ts before (c :: after) := by
  obtain ⟨st₁, habreast, hscan⟩ := h
  have hn := tokenStep_pos hstep
  exact ⟨n, st₁, ts₁, hn, habreast, hscan, .of_step hstep hn⟩

/-- They meet after a line comment. -/
theorem meets_of_lineComment (h : Abreast st ts (c :: after)) (opener rest : List Char)
    (hopener : c :: after = opener ++ rest) (hplain : '\r' ∉ opener ∧ '\n' ∉ opener)
    (ho : opening .clickHouse before c after = .ok (.lineComment opener.length))
    (hstep : tokenStep ts before c after = .ok (ts, opener.length + skipLineComment rest))
    (htrap : returnsInComment (c :: after) = false)
    (hscan : scan (pieceStep .clickHouse) st before (c :: after) = .ok st') :
    Meets st' ts before (c :: after) := by
  have hframer := passes_lineComment (d := .clickHouse) (by decide) st hopener hplain ho htrap
  have hclassifier := passes_tokenStep_lineComment opener rest hopener hstep
  rw [hframer.scan_eq] at hscan
  have hpos : 0 < opener.length + throughFirst (· == '\n') rest :=
    Nat.add_pos_left (opening_lineComment_pos ho) _
  exact ⟨_, st.flushWord, ts, hpos, h.of_break rfl rfl h.depth rfl, hscan, hclassifier⟩

/-- **One token.** From a place where the two are abreast and that is no trap, they get to the next
such place. -/
theorem Abreast.meets (h : Abreast st ts (c :: after)) (htrap : wordTrap ts.depth before c after = false)
    (hscan : scan (pieceStep .clickHouse) st before (c :: after) = .ok st') :
    Meets st' ts before (c :: after) := by
  rw [wordTrap] at htrap
  by_cases hquote : c = '\'' ∨ c = '"' ∨ c = '`'
  · have hname : c = '"' ∨ c = '`' → escapesDelimiter c after = false := fun hc ↦ by
      rwa [if_pos hc] at htrap
    refine meets_of_step (tokenStep_quote hquote) (h.of_piece hscan ?_ (letterTokens_boundary ts))
    intro p k hpk
    obtain ⟨⟨q, rfl⟩, rfl⟩ := cutPiece_quote hquote hname hpk
    exact ⟨fun x hx ↦ (by cases hx), rfl, depth_boundary ts⟩
  rw [if_neg fun hc ↦ hquote (.inr hc)] at htrap
  by_cases hdash : c = '-' ∧ after.head? = some '-'
  · rw [if_pos hdash] at htrap
    obtain ⟨rfl, hnext⟩ := hdash
    obtain ⟨rest, rfl⟩ : ∃ rest, after = '-' :: rest := List.head?_eq_some_iff.1 hnext
    exact meets_of_lineComment h ['-', '-'] rest rfl (by decide) rfl (tokenStep_dash rfl) htrap hscan
  rw [if_neg hdash] at htrap
  by_cases hslash : c = '/' ∧ after.head? = some '/'
  · rw [if_pos hslash] at htrap
    obtain ⟨rfl, hnext⟩ := hslash
    obtain ⟨rest, rfl⟩ : ∃ rest, after = '/' :: rest := List.head?_eq_some_iff.1 hnext
    exact meets_of_lineComment h ['/', '/'] rest rfl (by decide) rfl (tokenStep_slash rfl) htrap hscan
  rw [if_neg hslash] at htrap
  by_cases hblock : c = '/' ∧ after.head? = some '*'
  · obtain ⟨rfl, hnext⟩ := hblock
    refine meets_of_step (tokenStep_block hnext) (h.of_piece hscan ?_ rfl)
    intro p k hpk
    obtain ⟨rfl, rfl⟩ := cutPiece_block hnext hpk
    exact ⟨fun x hx ↦ (by cases hx), rfl, rfl⟩
  by_cases hhash : c = '#'
  · subst hhash
    rw [if_pos rfl] at htrap
    by_cases hcomment : after.head?.all fun c ↦ c == '!' || isAsciiWhitespace c
    · rw [if_pos hcomment] at htrap
      have ho : opening .clickHouse before '#' after = .ok (.lineComment 1) := by
        have hhash : hashComment .clickHouse '#' after := by
          cases after with
          | nil => rfl
          | cons x rest =>
            obtain rfl | hws : x = '!' ∨ isAsciiWhitespace x := by simpa using hcomment
            · rfl
            · simp [hashComment, isWhitespace_of_isAsciiWhitespace hws]
        rw [opening, show dashComment .clickHouse '#' after = false from rfl,
          if_neg Bool.false_ne_true, if_pos hhash]
      exact meets_of_lineComment h ['#'] after rfl (by decide) ho (tokenStep_hash hcomment) htrap hscan
    · rw [if_neg hcomment] at htrap
      have hhash : hashComment .clickHouse '#' after = false := by
        cases after with
        | nil => exact absurd rfl hcomment
        | cons x rest =>
          have hx : x ≠ '!' := by
            rintro rfl
            exact hcomment rfl
          have hws : isWhitespace x = false := by simpa using htrap
          simp [hashComment, hx, hws]
      have hcut : cutPiece .clickHouse before '#' after = .ok (.character '#', 1) :=
        cutPiece_other (by decide) (by simp) hhash (by simp) (by simp) (by decide)
      have hstep : tokenStep ts before '#' after = .ok (ts.boundary, 1) :=
        tokenStep_other (by decide) (by simp) (by simpa using hcomment) (by simp) (by simp)
          (by decide) (by decide) (by decide) (by decide) (by decide)
      exact meets_of_step hstep
        (h.of_character hscan hcut (by decide) (depth_boundary ts) (letterTokens_boundary ts))
  rw [if_neg hhash] at htrap
  by_cases hdollar : c = '$'
  · subst hdollar
    rw [if_pos rfl] at htrap
    obtain ⟨r, hr⟩ := dollarQuoteEnd_ne_error hscan
    have hend := dollarQuoteEnd_eq_heredocEnd htrap hr
    rcases r with _ | n
    · have hstep : tokenStep ts before '$' after = .ok (ts, 1) := by rw [tokenStep_dollar, hend]
      have hcut := cutPiece_dollar (d := .clickHouse) (by decide) fun _ ↦ hr
      exact meets_of_step hstep (h.of_character hscan hcut (by decide) rfl rfl)
    · have hstep : tokenStep ts before '$' after = .ok (ts.boundary, n) := by
        rw [tokenStep_dollar, hend]
      refine meets_of_step hstep (h.of_piece hscan ?_ (letterTokens_boundary ts))
      intro p k hpk
      rw [cutPiece, piece, opening_dollar (.inr rfl), hr] at hpk
      cases hpk
      exact ⟨fun x hx ↦ (by cases hx), rfl, depth_boundary ts⟩
  rw [if_neg hdollar] at htrap
  by_cases hword : isWordChar c
  · have hstep : tokenStep ts before c after = _ := tokenStep_word hword
    have hsplit : c :: after = (c :: after.takeWhile isWordChar) ++ after.dropWhile isWordChar := by
      rw [List.cons_append, List.takeWhile_append_dropWhile]
    have hrun : ∀ x ∈ c :: after.takeWhile isWordChar, isWordChar x := by
      intro x hx
      obtain rfl | hx := List.mem_cons.1 hx
      · exact hword
      · exact List.mem_takeWhile_imp hx
    have hdrop : (c :: after).drop ((after.takeWhile isWordChar).length + 1) =
        after.dropWhile isWordChar := by
      conv_lhs => rw [hsplit]
      exact List.drop_left
    have hnext : (after.dropWhile isWordChar).head?.any isWordChar = false := by
      have hnot := List.head?_dropWhile_not isWordChar after
      rcases hhead : (after.dropWhile isWordChar).head? with _ | x
      · rfl
      · rw [hhead] at hnot
        simpa using hnot
    rw [hsplit] at hscan
    obtain ⟨st₁, hwords, hdepth, hcurrent, hscan₁⟩ := scan_run _ hrun hscan
    rw [← hsplit] at hscan₁
    refine meets_of_step hstep ⟨st₁, ?_, by rw [hdrop]; exact hscan₁⟩
    rw [hdrop]
    exact h.of_run hword htrap hwords hdepth hcurrent hnext
  have hword' : isWordChar c = false := by simpa using hword
  have hhash' : hashComment .clickHouse c after = false := by simp [hashComment, hhash]
  have hcut : cutPiece .clickHouse before c after = _ :=
    cutPiece_other hquote hdash hhash' hslash hblock hdollar
  by_cases hleft : c = '('
  · subst hleft
    exact meets_of_step tokenStep_left
      (h.of_character hscan hcut hword' rfl (letterTokens_boundary ts))
  by_cases hright : c = ')'
  · subst hright
    refine meets_of_step tokenStep_right
      (h.of_character hscan hcut hword' ?_ (letterTokens_boundary _))
    exact depth_boundary _
  -- what is left is a break for the framer, at the same depth
  have hbreak : ∀ p k, cutPiece .clickHouse before c after = .ok (p, k) →
      (∀ x, p = .character x → isWordChar x = false) ∧ k = 1 ∧ ts.depth = depthAfter ts.depth p := by
    intro p k hpk
    rw [hcut] at hpk
    cases hpk
    by_cases hsemi : c = ';'
    · rw [if_pos hsemi]
      exact ⟨fun x hx ↦ (by cases hx), rfl, rfl⟩
    · rw [if_neg hsemi]
      refine ⟨?_, rfl, (depthAfter_character hleft hright).symm⟩
      rintro x ⟨⟩
      exact hword'
  by_cases hspace : isAsciiWhitespace c
  · exact meets_of_step (tokenStep_space hspace) (h.of_piece hscan hbreak rfl)
  · have hstep : tokenStep ts before c after = .ok (ts.boundary, 1) :=
      tokenStep_other hquote hdash (fun hc ↦ hhash hc.1) hslash hblock hdollar hleft hright hword
        hspace
    refine meets_of_step hstep (h.of_piece hscan ?_ (letterTokens_boundary ts))
    rw [depth_boundary]
    exact hbreak

/-- **All tokens.** The two end with the same words. -/
theorem letterTokens_of_scan :
    ∀ {st : FrameState} {ts : TokenState}, Abreast st ts rest →
      AllSteps tokenStep (fun ts before c after ↦ !wordTrap ts.depth before c after) ts 0 before rest →
      scan (pieceStep .clickHouse) st before rest = .ok st' →
      scan tokenStep ts before rest = .ok ts' →
      letterTokens ts'.tokens = topLevelWords st'.flushWord.words := by
  induction before, rest using cursorInduction with
  | nil before =>
    intro st ts h _ hframer hclassifier
    cases hframer
    cases hclassifier
    exact h.words
  | cons before c after ih =>
    intro st ts h htrap hframer hclassifier
    have hhere : wordTrap ts.depth before c after = false := by
      rw [AllSteps, Bool.and_eq_true, Bool.not_eq_true'] at htrap
      exact htrap.1
    obtain ⟨n, st₁, ts₁, hn, h₁, hframer₁, hpass⟩ := h.meets hhere hframer
    rw [hpass.scan_eq] at hclassifier
    exact ih n hn h₁ (hpass.allSteps _ htrap) hframer₁ hclassifier

/-- **The framer and the classifier see the same words, traps apart.** -/
theorem words_eq_letterTokens {sql : String} {f : StatementFraming}
    (hf : frameSingleStatement sql .clickHouse = .ok f) (htrap : WordTrapFree sql) :
    f.words = letterTokens (scanTopLevelTokens sql) := by
  obtain ⟨-, ps, st, hps, hfold, hfinish⟩ := frameChars_eq_ok_iff.1 hf
  have hframer : scan (pieceStep .clickHouse) {} [] sql.toList = .ok st :=
    scan_pieceStep_eq_ok_iff.2 ⟨ps, hps, hfold⟩
  have hstart : Abreast {} {} sql.toList := ⟨rfl, rfl, .inl rfl⟩
  rcases hclassifier : scan tokenStep {} [] sql.toList with e | ts
  · exact e.elim
  · rw [(words_of_finish hfinish).1, scanTopLevelTokens_eq sql hclassifier]
    exact (letterTokens_of_scan hstart htrap hframer hclassifier).symm

/-- A text without traps. -/
theorem words_eq_letterTokens_of_plain_text :
    WordTrapFree "WITH 1 AS n INSERT INTO `a``b` SELECT n, f(x1) # '\n" ∧
      ["WITH", "AS", "N", "INSERT", "INTO", "SELECT", "N", "F"] =
        letterTokens (scanTopLevelTokens "WITH 1 AS n INSERT INTO `a``b` SELECT n, f(x1) # '\n") := by
  have htrap : WordTrapFree "WITH 1 AS n INSERT INTO `a``b` SELECT n, f(x1) # '\n" := by
    show _ = true
    decide
  have hf : frameSingleStatement "WITH 1 AS n INSERT INTO `a``b` SELECT n, f(x1) # '\n" .clickHouse =
      .ok ⟨["WITH", "AS", "N", "INSERT", "INTO", "SELECT", "N", "F"],
        ["WITH", "AS", "N", "INSERT", "INTO", "SELECT", "N", "F", "X1"], false⟩ := by
    decide
  exact ⟨htrap, words_eq_letterTokens hf htrap⟩

/-- Accepted texts in which the two see different words, one for each kind of trap. -/
theorem accepted_texts_with_other_words :
    [("WITH 1 AS `\\`` INSERT INTO t SELECT 1 -- ` SELECT 1",
          ["WITH", "AS", "INSERT", "INTO", "T", "SELECT"]),
        ("SELECT 1 -- \r UNION\n", ["SELECT", "UNION"]),
        ("SELECT 1 #\u00a0UNION", ["SELECT"]),
        ("SELECT $1$ UNION $1$", ["SELECT", "UNION"]),
        ("SELECT 1e5", ["SELECT", "E5"])].Forall fun x ↦
      (frameSingleStatement x.1 .clickHouse).map (·.words) = .ok x.2 ∧
        x.2 ≠ letterTokens (scanTopLevelTokens x.1) := by
  decide

-- the first of them inserts rows and is taken for a read
example : classifyFramedStatement "WITH 1 AS `\\`` INSERT INTO t SELECT 1 -- ` SELECT 1" = .read := by
  decide

end ClickHouse
