import NexusPilot.Sql.Piece

/-!
# Passing over pieces

Comparing the framer with another scanner means following the coarse loop over the stretches that the
other scanner reads in one go: a comment, a run of white space, a word. `scan_passes` is the rule for
such a stretch, and the lemmas here give its premises: what each piece does to the terminator, which
characters are pieces of their own, and how a line comment that the other scanner ends later is
passed.
-/

namespace Sql

open Scan Text

/-! ### What a piece says about the terminator -/

/-- Pieces that may follow the terminator. -/
def Piece.insignificant : Piece → Bool
  | .lineComment | .blockComment => true
  | .character c => isWhitespace c
  | _ => false

variable {d : SqlFramingDialect} {st st' : FrameState} {c : Char} {p : Piece}
  {before after rest opener : List Char}

theorem terminated_of_plainCharacter (h : plainCharacter d st c = .ok st') :
    st'.terminated = st.terminated := by
  simp only [plainCharacter] at h
  split_ifs at h <;> cases h <;> rfl

/-- **What one piece does to the terminator.** -/
theorem terminated_of_absorb (h : absorb d st p = .ok st') :
    (p.insignificant → st'.terminated = st.terminated) ∧
      (p.insignificant = false → st.terminated = false ∧ st'.terminated = (p == .terminator)) := by
  cases p with
  | lineComment | blockComment =>
    cases h
    exact ⟨fun _ ↦ rfl, fun hp ↦ (by cases hp)⟩
  | quotedBlock | quoted q | terminator =>
    simp only [absorb] at h
    split_ifs at h
    all_goals
      cases h
      refine ⟨fun hp ↦ (by cases hp), fun _ ↦ ?_⟩
      simp_all [FrameState.flushWord, FrameState.markSignificant]
  | character c =>
    simp only [absorb] at h
    split_ifs at h with hterm hws
    · have ht := terminated_of_plainCharacter h
      refine ⟨fun _ ↦ ht, fun hp ↦ ?_⟩
      rw [Piece.insignificant, hws] at hp
      cases hp
    · have ht := terminated_of_plainCharacter h
      have hst : st.terminated = false := by
        by_contra hst
        exact hterm ⟨hws, by simpa using hst⟩
      refine ⟨fun hp ↦ absurd hp hws, fun _ ↦ ⟨hst, ?_⟩⟩
      rw [ht]
      exact hst

/-! ### Passing several pieces -/

/-- The first piece of a text on which the coarse loop ends normally. -/
theorem exists_piece_of_scan (h : scan (pieceStep d) st before (c :: after) = .ok st') :
    ∃ p n st₁, cutPiece d before c after = .ok (p, n) ∧ absorb d st p = .ok st₁ ∧
      scan (pieceStep d) st₁ (behind n before (c :: after)) ((c :: after).drop n) = .ok st' := by
  obtain ⟨st₁, n, hstep⟩ := exists_step_of_scan_eq_ok h
  obtain ⟨p, hcut, habs⟩ := pieceStep_eq_ok_iff.1 hstep
  rw [scan_cons_of_step hstep (cutPiece_progressive d hcut)] at h
  exact ⟨p, n, st₁, hcut, habs, h⟩

/-- **A run of one-character pieces.** An invariant that each of the next `n` pieces keeps holds
after them. -/
theorem scan_passes {Q : Piece → Prop} {I : FrameState → Prop}
    (hI : ∀ st p st', Q p → I st → absorb d st p = .ok st' → I st') (n : ℕ) :
    ∀ {st : FrameState} {before rest : List Char}, I st →
      (∀ i < n, ∀ c after, rest.drop i = c :: after →
        ∀ p k, cutPiece d (behind i before rest) c after = .ok (p, k) → k = 1 ∧ Q p) →
      scan (pieceStep d) st before rest = .ok st' →
      ∃ st₁, I st₁ ∧ scan (pieceStep d) st₁ (behind n before rest) (rest.drop n) = .ok st' := by
  induction n with
  | zero =>
    intro st before rest hst _ h
    exact ⟨st, hst, by simpa using h⟩
  | succ n ih =>
    intro st before rest hst hcut h
    cases rest with
    | nil => exact ⟨st, hst, by simpa using h⟩
    | cons c after =>
      obtain ⟨p, k, st₁, hp, habs, hscan⟩ := exists_piece_of_scan h
      obtain ⟨rfl, hq⟩ := hcut 0 (Nat.succ_pos n) c after rfl p k (by simpa using hp)
      have hst₁ : I st₁ := hI st p st₁ hq hst habs
      rw [behind_succ_cons, List.drop_succ_cons, behind_zero, List.drop_zero] at hscan
      have hcut' : ∀ i < n, ∀ x xs, after.drop i = x :: xs → ∀ p k,
          cutPiece d (behind i (c :: before) after) x xs = .ok (p, k) → k = 1 ∧ Q p := by
        intro i hi x xs hx p k hpk
        exact hcut (i + 1) (Nat.succ_lt_succ hi) x xs (by simpa using hx) p k (by simpa using hpk)
      obtain ⟨st₂, hst₂, hscan₂⟩ := ih hst₁ hcut' hscan
      refine ⟨st₂, hst₂, ?_⟩
      rw [behind_succ_cons, List.drop_succ_cons]
      exact hscan₂

/-! ### Comments -/

theorem lineExtent_eq (rest : List Char) : lineExtent rest = throughFirst isLineBreak rest := by
  rw [lineExtent]
  induction rest with
  | nil => rfl
  | cons c rest ih =>
    by_cases hc : isLineBreak c
    · have hin : lineInner () c rest = .ok (none, 1) := by simp [lineInner, hc]
      simp [reach, leave_of_exit hin, throughFirst, hc]
    · have hin : lineInner () c rest = .ok (some (), 1) := by simp [lineInner, hc]
      have hreach : reach lineInner () (c :: rest) = reach lineInner () rest + 1 := by
        simp only [reach, leave_of_stay hin Nat.one_pos, List.drop_succ_cons, List.drop_zero]
        rcases leave lineInner () rest with e | (_ | n) <;> rfl
      rw [hreach, ih]
      simp [throughFirst, hc]

/-- Where the framer has ended a line comment, the server has at most white space left. -/
theorem isWhitespace_of_mem_drop
    (h : ((rest.take (throughFirst (· == '\n') rest)).dropWhile (· ≠ '\r')).all isWhitespace) :
    ∀ x ∈ (rest.take (throughFirst (· == '\n') rest)).drop (throughFirst isLineBreak rest),
      isWhitespace x := by
  induction rest with
  | nil => simp
  | cons c rest ih =>
    by_cases hlf : c = '\n'
    · subst hlf
      simp [throughFirst, isLineBreak]
    · by_cases hcr : c = '\r'
      · subst hcr
        simp only [throughFirst, isLineBreak] at h ⊢
        simp_all
      · simp only [throughFirst, isLineBreak, beq_iff_eq, hlf, hcr, if_false, List.take_succ_cons,
          List.dropWhile_cons, ne_eq, not_false_eq_true, decide_true, if_true] at h ⊢
        simp_all

theorem throughFirst_isLineBreak_le (rest : List Char) :
    throughFirst isLineBreak rest ≤ throughFirst (· == '\n') rest := by
  induction rest with
  | nil => exact le_rfl
  | cons c rest ih =>
    by_cases hlf : c = '\n'
    · subst hlf
      exact le_rfl
    · by_cases hbreak : isLineBreak c
      · simp [throughFirst, hlf, hbreak]
      · simpa [throughFirst, hlf, hbreak] using ih

/-! ### Characters that are pieces of their own -/

/-- The characters at which the framer tests for something in the dialects other than Oracle's. -/
def specialCharacters : List Char :=
  ['-', '#', '/', '$', ';', '\'', '"', '`', '[']

theorem cutPiece_of_not_special (hd : d ≠ .oracle) (hc : c ∉ specialCharacters) :
    cutPiece d before c after = .ok (.character c, 1) := by
  simp only [specialCharacters, List.mem_cons, List.not_mem_nil, or_false, not_or] at hc
  obtain ⟨hdash, hhash, hslash, hdollar, hsemi, hquote, hdouble, hback, hbracket⟩ := hc
  have hopening : opening d before c after = .ok .character := by
    simp [opening, dashComment, hashComment, hdash, hhash, hslash, hdollar, hsemi, hd]
  have hnone : quoteOpenedBy d c = none := by
    simp [quoteOpenedBy, hquote, hdouble, hback, hbracket]
  rw [cutPiece, piece, hopening]
  simp [hnone, Except.map]

theorem not_special_of {p : Char → Bool} (h : ∀ c ∈ specialCharacters, p c = false) (hc : p c) :
    c ∉ specialCharacters :=
  fun hmem ↦ absurd (h c hmem) (by simp [hc])

theorem not_special_of_isWhitespace (hc : isWhitespace c) : c ∉ specialCharacters :=
  not_special_of (by decide) hc

theorem opening_dollar (hd : d = .postgres ∨ d = .clickHouse) :
    opening d before '$' after =
      match dollarQuoteEnd before after with
      | .error e => .error e
      | .ok (some n) => .ok (.quotedBlock n)
      | .ok none => .ok .character := by
  obtain rfl | rfl := hd <;> simp [opening, dashComment, hashComment] <;> rfl

/-- A `$` that opens no quote is a piece of its own. -/
theorem cutPiece_dollar (hd : d ≠ .oracle)
    (hdollar : (d = .postgres ∨ d = .clickHouse) → dollarQuoteEnd before after = .ok none) :
    cutPiece d before '$' after = .ok (.character '$', 1) := by
  have hopening : opening d before '$' after = .ok .character := by
    by_cases hpc : d = .postgres ∨ d = .clickHouse
    · rw [opening_dollar hpc, hdollar hpc]
    · simp [opening, dashComment, hashComment, hd, hpc]
  rw [cutPiece, piece, hopening]
  rfl

/-! ### White space and line comments -/

theorem pieceStep_of_cutPiece {n : ℕ} (hcut : cutPiece d before c after = .ok (p, n))
    (habs : absorb d st p = .ok st') :
    pieceStep d st before c after = .ok (st', n) :=
  pieceStep_eq_ok_iff.2 ⟨p, hcut, habs⟩

theorem absorb_whitespace (hc : isWhitespace c) :
    absorb d st (.character c) = .ok st.flushWord := by
  have hne : ∀ x, isWhitespace x = false → c ≠ x := by
    rintro x hx rfl
    rw [hc] at hx
    cases hx
  have hword : isWordChar c = false := by
    by_contra hword
    rw [isWhitespace_eq_false_of_isWordChar (by simpa using hword)] at hc
    cases hc
  have hstart : ¬ isWordStart c := fun hs ↦ by
    rw [isWordChar_of_isWordStart hs] at hword
    cases hword
  have hdigit : ¬ c.isDigit := fun hs ↦ by
    simp [isWordChar, Char.isAlphanum, hs] at hword
  simp only [absorb, hc, not_true_eq_false, false_and, if_false, if_true]
  rw [plainCharacter, if_neg (hne '(' rfl), if_neg (hne ')' rfl), if_neg fun h ↦ hne '@' rfl h.1,
    if_neg hstart, if_neg fun h ↦ hdigit h.1]

/-- **White space** is passed. -/
theorem passes_whitespace (hd : d ≠ .oracle) (hst : st.flushWord = st) (n : ℕ) :
    ∀ {before rest : List Char}, (∀ x ∈ rest.take n, isWhitespace x) →
      Passes (pieceStep d) st before rest n st := by
  induction n with
  | zero =>
    intro before rest _
    exact .refl _ _ _ _
  | succ n ih =>
    intro before rest hws
    cases rest with
    | nil => exact ⟨by simp, fun P h ↦ by simpa using h⟩
    | cons c after =>
      have hc : isWhitespace c := hws c (by simp)
      have habs : absorb d st (.character c) = .ok st := by rw [absorb_whitespace hc, hst]
      have hstep : pieceStep d st before c after = .ok (st, 1) :=
        pieceStep_of_cutPiece (cutPiece_of_not_special hd (not_special_of_isWhitespace hc)) habs
      have hrest : Passes (pieceStep d) st (behind 1 before (c :: after)) ((c :: after).drop 1) n st :=
        ih fun x hx ↦ hws x (List.mem_cons_of_mem _ hx)
      rw [Nat.add_comm]
      exact (Passes.of_step hstep Nat.one_pos).trans hrest

theorem flushWord_flushWord (st : FrameState) : st.flushWord.flushWord = st.flushWord := by
  simp [FrameState.flushWord, FrameState.pendingWord]

theorem cutPiece_lineComment (hopener : c :: after = opener ++ rest)
    (ho : opening d before c after = .ok (.lineComment opener.length)) :
    cutPiece d before c after =
      .ok (.lineComment, opener.length + throughFirst isLineBreak rest) := by
  have hrest : after.drop (opener.length - 1) = rest := by
    have hpos := opening_lineComment_pos ho
    have hdrop : (c :: after).drop opener.length = rest := by rw [hopener, List.drop_left]
    rwa [show opener.length = (opener.length - 1) + 1 by omega, List.drop_succ_cons] at hdrop
  rw [cutPiece, piece, ho]
  simp only [hrest, lineExtent_eq, Except.map]

/-- A line, from the opener of its comment on, goes on after a carriage return with more than white
space. -/
def returnsInComment (text : List Char) : Bool :=
  !((text.take (throughFirst (· == '\n') text)).dropWhile (· ≠ '\r')).all isWhitespace

/-- **A line comment** that another scanner reads to the next line feed is passed, when it holds
nothing but white space after a carriage return. -/
theorem passes_lineComment (hd : d ≠ .oracle) (st : FrameState) (hopener : c :: after = opener ++ rest)
    (hplain : '\r' ∉ opener ∧ '\n' ∉ opener)
    (ho : opening d before c after = .ok (.lineComment opener.length))
    (htrap : returnsInComment (c :: after) = false) :
    Passes (pieceStep d) st before (c :: after)
      (opener.length + throughFirst (· == '\n') rest) st.flushWord := by
  have hne : ∀ x ∈ opener, x ≠ '\r' ∧ x ≠ '\n' := by
    intro x hx
    refine ⟨?_, ?_⟩ <;> rintro rfl
    · exact hplain.1 hx
    · exact hplain.2 hx
  -- the framer ends the comment at the first line break of either kind
  have hcomment : Passes (pieceStep d) st before (c :: after)
      (opener.length + throughFirst isLineBreak rest) st.flushWord := by
    refine .of_step (pieceStep_of_cutPiece (cutPiece_lineComment hopener ho) rfl) ?_
    exact Nat.add_pos_left (opening_lineComment_pos ho) _
  -- the rest of the line is white space
  obtain ⟨j, hj⟩ := Nat.exists_eq_add_of_le (throughFirst_isLineBreak_le rest)
  have hline : ((rest.take (throughFirst (· == '\n') rest)).dropWhile (· ≠ '\r')).all
      isWhitespace := by
    have hbefore : ∀ x ∈ opener, (x == '\n') = false := fun x hx ↦ beq_false_of_ne (hne x hx).2
    have hopen : ∀ x ∈ opener, decide (x ≠ '\r') := fun x hx ↦ decide_eq_true (hne x hx).1
    rw [returnsInComment, Bool.not_eq_false', hopener, throughFirst_append hbefore, List.take_append,
      Nat.add_sub_cancel_left, List.take_of_length_le (by omega),
      List.dropWhile_append_of_pos hopen] at htrap
    exact htrap
  have hws : ∀ x ∈ ((c :: after).drop (opener.length + throughFirst isLineBreak rest)).take j,
      isWhitespace x := by
    intro x hx
    refine isWhitespace_of_mem_drop hline x ?_
    rw [hopener, ← List.drop_drop, List.drop_left] at hx
    rw [hj, List.drop_take, Nat.add_sub_cancel_left]
    exact hx
  rw [hj, ← Nat.add_assoc]
  exact hcomment.trans (passes_whitespace hd (flushWord_flushWord st) j hws)

end Sql
