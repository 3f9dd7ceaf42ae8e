import NexusPilot.Sql.StatementRanges

/-!
# Splitting a script

The statement ranges of a script split it: they are ordered and disjoint, what lies outside them is
white space, terminators and comments, and each of them is a range of its own when its text is parsed
alone.

The loop is followed from cut to cut. Between two cuts lies a piece of the script, and the piece without
the white space around it is scanned alone as it is scanned in the script (`scan_piece`); `Splits` says
what the ranges of a part of the script have to satisfy, and is put together piece by piece.
-/

namespace Sql.Ranges

open Scan Text

/-! ### White space around a statement -/

variable {c ch : Char} {n i line offset offset' : ℕ} {sql rest tail : List Char} {st : LexState}

theorem ne_of_isScriptSpace {x : Char} (hc : isScriptSpace c) (hx : isScriptSpace x = false) : c ≠ x := by
  rintro rfl
  rw [hx] at hc
  exact Bool.false_ne_true hc

theorem commentLength_of_space (hc : isScriptSpace c) (after : List Char) :
    commentLength c after = none := by
  simp [commentLength, ne_of_isScriptSpace hc (x := '-') (by decide),
    ne_of_isScriptSpace hc (x := '/') (by decide), ne_of_isScriptSpace hc (x := '#') (by decide)]

theorem lex_of_comment {after : List Char} (h : commentLength ch after = some n) :
    lex {} ch after = ({}, n) := by
  show lexPlain {} ch after = _
  rw [lexPlain, h]

/-- Outside the quotes the scanner passes white space one by one. -/
theorem lex_of_space (hc : isScriptSpace c) (after : List Char) : lex {} c after = ({}, 1) := by
  show lexPlain {} c after = _
  rw [lexPlain, commentLength_of_space hc,
    readDollarQuoteTag_of_ne (ne_of_isScriptSpace hc (by decide))]
  simp [ne_of_isScriptSpace hc (x := '\'') (by decide), ne_of_isScriptSpace hc (x := '"') (by decide),
    ne_of_isScriptSpace hc (x := '\x60') (by decide)]

theorem not_isCut_of_space (hc : isScriptSpace c) (st : LexState) : ¬ isCut st c := by
  simp [isCut, ne_of_isScriptSpace hc (x := ';') (by decide)]

theorem scan_spaces {spaces : List Char} (h : ∀ c ∈ spaces, isScriptSpace c) (before rest : List Char) :
    scan cutStep {} before (spaces ++ rest) = scan cutStep {} (spaces.reverse ++ before) rest := by
  induction spaces generalizing before with
  | nil => rfl
  | cons c spaces ih =>
    have hc := h c List.mem_cons_self
    have hstep : cutStep {} before c (spaces ++ rest) = .ok ({}, 1) := by
      rw [cutStep, if_neg (not_isCut_of_space hc _), lex_of_space hc]
    rw [List.cons_append, scan_cons_of_step hstep Nat.one_pos]
    simp only [behind_succ_cons, behind_zero, List.drop_succ_cons, List.drop_zero]
    rw [ih (fun x hx ↦ h x (List.mem_cons_of_mem _ hx)), List.reverse_cons, List.append_assoc]
    rfl

theorem Visits.spaces {sql spaces before rest : List Char} (hspaces : ∀ c ∈ spaces, isScriptSpace c)
    (h : Visits sql {} before (spaces ++ rest)) : Visits sql {} (spaces.reverse ++ before) rest := by
  induction spaces generalizing before with
  | nil => exact h
  | cons c spaces ih =>
    have hstep := h.step
    rw [lex_of_space (hspaces c List.mem_cons_self)] at hstep
    have := ih (fun x hx ↦ hspaces x (List.mem_cons_of_mem _ hx)) hstep
    simpa using this

/-! ### What no range has -/

/-- What may stand outside all ranges: white space, a `;`, or a part of a comment. -/
def Blank (sql : List Char) (i : ℕ) : Prop :=
  (∃ c, sql[i]? = some c ∧ (isScriptSpace c ∨ c = ';')) ∨ InComment sql i

theorem Visits.getElem? {before : List Char} (h : Visits sql st before (ch :: rest)) :
    sql[before.length]? = some ch := by
  rw [← h.reverse_append, List.getElem?_append_right (by simp)]
  simp

/-- **A piece without an executable token** is white space and comments. -/
theorem blank_of_not_executable (h : Delimits tail) {before before' piece : List Char} {st' : LexState}
    (hvisits : Visits sql {} before (piece ++ tail)) (hscan : scan executableStep {} before' piece = .ok st')
    (hi : before.length ≤ i) (hi' : i < before.length + piece.length) : Blank sql i := by
  induction before', piece using cursorInduction generalizing before with
  | nil before' => simp at hi'; omega
  | cons before' ch after ih =>
    obtain ⟨s, n, hstep⟩ := exists_step_of_scan_eq_ok hscan
    -- the iteration passes a comment or one character of white space, and stays outside the quotes
    have hcases : s = {} ∧ (commentLength ch after = some n ∨
        commentLength ch after = none ∧ isScriptSpace ch ∧ n = 1) := by
      simp only [executableStep, Bool.or_self, Bool.false_eq_true, if_false] at hstep
      split at hstep
      · next hcomment =>
        cases hstep
        exact ⟨rfl, Or.inl hcomment⟩
      · next hcomment =>
        split_ifs at hstep with h₁ h₂ h₃ h₄ h₅
        cases hstep
        exact ⟨rfl, Or.inr ⟨hcomment, by simpa using h₅, rfl⟩⟩
    obtain ⟨rfl, hpiece⟩ := hcases
    have hpos : 0 < n := by
      rcases hpiece with hcomment | ⟨-, -, rfl⟩
      · exact commentLength_pos hcomment
      · exact Nat.one_pos
    rw [scan_cons_of_step hstep hpos] at hscan
    have hvisits' : Visits sql {} before (ch :: (after ++ tail)) := hvisits
    simp only [List.length_cons] at hi'
    by_cases hnext : before.length + n ≤ i
    · have hlex : lex {} ch (after ++ tail) = ({}, n) := by
        rcases hpiece with hcomment | ⟨-, hspace, rfl⟩
        · rcases commentLength_append h ch after with heq | ⟨m, -, hm, -, hle, -⟩
          · exact lex_of_comment (heq.trans hcomment)
          · rw [hcomment] at hm
            cases hm
            omega
        · exact lex_of_space hspace _
      have hstep' := hvisits'.step
      have hdrop : (ch :: (after ++ tail)).drop n = (ch :: after).drop n ++ tail :=
        by
        rw [← List.cons_append]
        exact List.drop_append_of_le_length (by simp only [List.length_cons]; omega)
      have hbehind : (behind n before (ch :: (after ++ tail))).length = before.length + n := by
        simp only [behind, List.length_append, List.length_reverse, List.length_take, List.length_cons]
        omega
      rw [hlex, hdrop] at hstep'
      refine ih n hpos hstep' hscan (hbehind.trans_le hnext) ?_
      simp only [hbehind, List.length_drop, List.length_cons]
      omega
    · rcases hpiece with hcomment | ⟨-, hspace, rfl⟩
      · refine Or.inr ?_
        rcases commentLength_append h ch after with heq | ⟨-, m, -, hm, -, hle⟩
        · exact ⟨before, ch, after ++ tail, n, hvisits', heq.trans hcomment, hi, by omega⟩
        · exact ⟨before, ch, after ++ tail, m, hvisits', hm, hi, by omega⟩
      · obtain rfl : i = before.length := by omega
        exact Or.inl ⟨ch, hvisits'.getElem?, Or.inl hspace⟩

/-! ### One range -/

/-- The range of the statement between two offsets. -/
def rangeAt (sql : List Char) (startOffset endOffset : ℕ) : SqlStatementRange where
  text := slice sql startOffset endOffset
  startOffset := startOffset
  endOffset := endOffset
  startLineNumber := (offsetToLineColumn sql startOffset).1
  startColumn := (offsetToLineColumn sql startOffset).2
  endLineNumber := (offsetToLineColumn sql endOffset).1
  endColumn := (offsetToLineColumn sql endOffset).2
  executable := true

theorem slice_append (before piece tail : List Char) (hn : n = before.length + piece.length) :
    slice (before ++ (piece ++ tail)) before.length n = piece := by
  rw [slice, hn, ← List.append_assoc, List.take_append_of_le_length (by simp),
    List.take_of_length_le (by simp), List.drop_left]

theorem slice_trimmed (before raw tail : List Char) :
    slice (before ++ (raw ++ tail)) (before.length + (raw.takeWhile isScriptSpace).length)
      (before.length + (raw.takeWhile isScriptSpace).length + (trimChars raw).length) = trimChars raw := by
  have hparts := trimChars_parts raw
  generalize raw.takeWhile isScriptSpace = lead at hparts ⊢
  generalize ((raw.dropWhile isScriptSpace).reverse.takeWhile isScriptSpace).reverse = trail at hparts
  generalize trimChars raw = piece at hparts ⊢
  subst hparts
  have := slice_append (before ++ lead) piece (trail ++ tail) rfl
  simpa using this

theorem trimStatementBounds_append (before raw tail : List Char) :
    trimStatementBounds (before ++ (raw ++ tail)) before.length (before.length + raw.length) =
      (before.length + (raw.takeWhile isScriptSpace).length,
        before.length + (raw.takeWhile isScriptSpace).length + (trimChars raw).length) := by
  have hraw : slice (before ++ (raw ++ tail)) before.length (before.length + raw.length) = raw :=
    slice_append before raw tail rfl
  have hlen : raw.length = (raw.takeWhile isScriptSpace).length + (raw.dropWhile isScriptSpace).length := by
    rw [← List.length_append, List.takeWhile_append_dropWhile]
  have hcore : slice (before ++ (raw ++ tail)) (before.length + (raw.takeWhile isScriptSpace).length)
      (before.length + raw.length) = raw.dropWhile isScriptSpace := by
    have := slice_append (before ++ raw.takeWhile isScriptSpace) (raw.dropWhile isScriptSpace) tail
      (n := before.length + raw.length) (by rw [List.length_append]; omega)
    rwa [List.append_assoc, ← List.append_assoc (raw.takeWhile _), List.takeWhile_append_dropWhile,
      List.length_append] at this
  have hparts := congrArg List.length (trimChars_parts raw)
  simp only [List.length_append, List.length_reverse] at hparts
  simp only [trimStatementBounds, hraw, hcore, Prod.mk.injEq, true_and]
  omega

/-- **What `pushRange` adds** for the piece `raw` of a script: its trimmed text, if that has an
executable token. -/
theorem rangeBetween_eq (before raw tail : List Char) :
    rangeBetween (before ++ (raw ++ tail)) before.length (before.length + raw.length) =
      if containsExecutableToken (trimChars raw) then
        some (rangeAt (before ++ (raw ++ tail)) (before.length + (raw.takeWhile isScriptSpace).length)
          (before.length + (raw.takeWhile isScriptSpace).length + (trimChars raw).length))
      else none := by
  have hlead := trimStatementBounds_append before raw tail
  have htext : slice (before ++ (raw ++ tail)) (before.length + (raw.takeWhile isScriptSpace).length)
      (before.length + (raw.takeWhile isScriptSpace).length + (trimChars raw).length) = trimChars raw :=
    slice_trimmed before raw tail
  rw [rangeBetween, hlead]
  simp only [htext]
  by_cases hempty : trimChars raw = []
  · rw [hempty, if_pos (by simp)]
    rfl
  · have hpos := List.length_pos_of_ne_nil hempty
    rw [if_neg (by omega)]
    rcases hexec : containsExecutableToken (trimChars raw)
    · rfl
    · simp [rangeAt, htext]

/-! ### Lines and columns -/

/-- A line and a column denote an offset: the line is counted by the line ends in front of the offset,
the column by the characters behind the last of them. -/
structure Denotes (sql : List Char) (line column offset : ℕ) : Prop where
  line_eq : line = (sql.take offset).count '\n' + 1
  column_eq : column = ((sql.take offset).reverse.takeWhile (· ≠ '\n')).length + 1

theorem foldl_advance (sql : List Char) :
    sql.foldl advance (1, 1) =
      (sql.count '\n' + 1, (sql.reverse.takeWhile (· ≠ '\n')).length + 1) := by
  induction sql using List.reverseRecOn with
  | nil => rfl
  | append_singleton sql c ih =>
    rw [List.foldl_append, ih]
    by_cases hc : c = '\n'
    · simp [advance, hc]
    · simp [advance, hc, List.takeWhile_cons]

theorem denotes_offsetToLineColumn (sql : List Char) (offset : ℕ) :
    Denotes sql (offsetToLineColumn sql offset).1 (offsetToLineColumn sql offset).2 offset := by
  rw [offsetToLineColumn, foldl_advance]
  exact ⟨rfl, rfl⟩

theorem Denotes.lt_of_lt {column : ℕ} (h : Denotes sql line column offset)
    (h' : Denotes sql line column offset') (hle : offset' ≤ sql.length) : ¬ offset < offset' := by
  intro hlt
  obtain ⟨more, hmore⟩ : ∃ more, sql.take offset' = sql.take offset ++ more := by
    obtain ⟨more, hmore⟩ : sql.take offset <+: sql.take offset' :=
      List.take_prefix_take_left hlt.le
    exact ⟨more, hmore.symm⟩
  have hcount := h.line_eq.symm.trans h'.line_eq
  rw [hmore, List.count_append] at hcount
  have hnone : ∀ c ∈ more.reverse, decide (c ≠ '\n') = true := by
    intro c hc
    have : '\n' ∉ more := List.count_eq_zero.1 (by omega)
    refine decide_eq_true fun hn ↦ this ?_
    rw [← hn]
    exact List.mem_reverse.1 hc
  have hcolumn := h.column_eq.symm.trans h'.column_eq
  rw [hmore, List.reverse_append, List.takeWhile_append_of_pos hnone, List.length_append] at hcolumn
  have hlen := congrArg List.length hmore
  simp only [List.length_append, List.length_take, List.length_reverse] at hlen hcolumn
  omega

/-- A line and a column denote one offset of the script at most. -/
theorem Denotes.unique {column : ℕ} (h : Denotes sql line column offset)
    (h' : Denotes sql line column offset') (hle : offset ≤ sql.length) (hle' : offset' ≤ sql.length) :
    offset = offset' :=
  le_antisymm (not_lt.1 (h'.lt_of_lt h hle)) (not_lt.1 (h.lt_of_lt h' hle'))

/-! ### The ranges of a script -/

/-- Parsed on its own the text of the range is one range that covers it. -/
def Stable (r : SqlStatementRange) : Prop :=
  ∃ alone, parseSqlStatementRanges r.text = [alone] ∧ alone.text = r.text ∧
    alone.startOffset = 0 ∧ alone.endOffset = r.text.length

/-- A range of the script `sql`. -/
structure IsRange (sql : List Char) (r : SqlStatementRange) : Prop where
  start_lt_end : r.startOffset < r.endOffset
  end_le : r.endOffset ≤ sql.length
  text_eq : r.text = slice sql r.startOffset r.endOffset
  start_denotes : Denotes sql r.startLineNumber r.startColumn r.startOffset
  end_denotes : Denotes sql r.endLineNumber r.endColumn r.endOffset
  stable : Stable r

/-- The ranges split the script between two offsets. -/
structure Splits (sql : List Char) (a b : ℕ) (ranges : List SqlStatementRange) : Prop where
  ordered : ranges.Pairwise fun l r ↦ l.endOffset ≤ r.startOffset
  inside : ∀ r ∈ ranges, a ≤ r.startOffset ∧ r.endOffset ≤ b
  sound : ∀ r ∈ ranges, IsRange sql r
  covers : ∀ i, a ≤ i → i < b → (∀ r ∈ ranges, ¬ (r.startOffset ≤ i ∧ i < r.endOffset)) →
    Blank sql i

/-- What splits a piece and what splits the piece behind it split both. -/
theorem Splits.append {a b c : ℕ} {l m : List SqlStatementRange} (hl : Splits sql a b l)
    (hm : Splits sql b c m) (hab : a ≤ b) (hbc : b ≤ c) :
    Splits sql a c (l ++ m) where
  ordered := by
    refine List.pairwise_append.2 ⟨hl.ordered, hm.ordered, fun x hx y hy ↦ ?_⟩
    exact (hl.inside x hx).2.trans (hm.inside y hy).1
  inside r hr := by
    rcases List.mem_append.1 hr with hr | hr
    · exact ⟨(hl.inside r hr).1, (hl.inside r hr).2.trans hbc⟩
    · exact ⟨hab.trans (hm.inside r hr).1, (hm.inside r hr).2⟩
  sound r hr := (List.mem_append.1 hr).elim (hl.sound r) (hm.sound r)
  covers i hi hi' hout := by
    rcases lt_or_ge i b with hlt | hge
    · exact hl.covers i hi hlt fun r hr ↦ hout r (List.mem_append_left _ hr)
    · exact hm.covers i hge hi' fun r hr ↦ hout r (List.mem_append_right _ hr)

/-- A `;` that cuts is no part of a range. -/
theorem splits_cut {before after : List Char} (h : Visits sql st before (';' :: after)) :
    Splits sql before.length (before.length + 1) [] where
  ordered := List.Pairwise.nil
  inside r hr := absurd hr List.not_mem_nil
  sound r hr := absurd hr List.not_mem_nil
  covers i hi hi' _ := by
    obtain rfl : i = before.length := by omega
    exact Or.inl ⟨';', h.getElem?, Or.inr rfl⟩

/-- **A statement parsed on its own**: a trimmed piece that is scanned without a cut is one range. -/
theorem stable_of_scan {r : SqlStatementRange} {piece : List Char} (htext : r.text = piece)
    (htrim : trimChars piece = piece) (hexec : containsExecutableToken piece)
    (hscan : scan cutStep {} [] piece = .ok st) : Stable r := by
  have hlead : piece.takeWhile isScriptSpace = [] := by
    have hdrop : piece.dropWhile isScriptSpace = piece := by
      rw [← htrim]
      exact dropWhile_trimChars piece
    have hparts := congrArg List.length (List.takeWhile_append_dropWhile (p := isScriptSpace) (l := piece))
    rw [List.length_append, hdrop] at hparts
    exact List.eq_nil_of_length_eq_zero (by omega)
  have hrange : rangeBetween piece 0 piece.length = some (rangeAt piece 0 piece.length) := by
    have := rangeBetween_eq [] piece []
    rw [htrim, hexec, hlead] at this
    simpa using this
  rcases next_cut piece {} [] piece with ⟨st', -, hsplit⟩ | ⟨mid, after, -, hcut, -⟩
  · refine ⟨rangeAt piece 0 piece.length, ?_, ?_, rfl, by rw [htext]; rfl⟩
    · rw [htext, parseSqlStatementRanges, hsplit {} rfl]
      simp [pushRange, hrange]
    · rw [htext]
      simp [rangeAt, slice]
  · rw [hscan] at hcut
    cases hcut

theorem blank_of_spaces {x spaces y : List Char} (hsql : x ++ (spaces ++ y) = sql)
    (hspaces : ∀ c ∈ spaces, isScriptSpace c) (hi : x.length ≤ i) (hi' : i < x.length + spaces.length) :
    Blank sql i := by
  have hlt : i - x.length < spaces.length := by omega
  refine Or.inl ⟨spaces[i - x.length], ?_, Or.inl (hspaces _ (List.getElem_mem hlt))⟩
  rw [← hsql, List.getElem?_append_right hi, List.getElem?_append_left hlt, List.getElem?_eq_getElem hlt]

/-- **The range of a piece** splits it, whether there is one or not. -/
theorem splits_piece {before raw : List Char} (hvisits : Visits sql {} before (raw ++ tail))
    (htail : Delimits tail)
    (hcuts : ∀ p, scan cutStep {} before (raw ++ tail) = .error p → before.length + raw.length ≤ p) :
    Splits sql before.length (before.length + raw.length)
      (rangeBetween sql before.length (before.length + raw.length)).toList := by
  have hsql := hvisits.reverse_append
  have hparts := trimChars_parts raw
  have hrange := rangeBetween_eq before.reverse raw tail
  have htrim := trimChars_trimChars raw
  have hlead : ∀ c ∈ raw.takeWhile isScriptSpace, isScriptSpace c := fun c hc ↦ List.mem_takeWhile_imp hc
  have htrail : ∀ c ∈ ((raw.dropWhile isScriptSpace).reverse.takeWhile isScriptSpace).reverse,
      isScriptSpace c := fun c hc ↦ List.mem_takeWhile_imp (List.mem_reverse.1 hc)
  have htext := slice_trimmed before.reverse raw tail
  rw [hsql, List.length_reverse] at hrange htext
  generalize raw.takeWhile isScriptSpace = lead at hparts hrange hlead htext
  generalize ((raw.dropWhile isScriptSpace).reverse.takeWhile isScriptSpace).reverse = trail
    at hparts htrail
  generalize trimChars raw = piece at hparts hrange htrim htext
  subst hparts
  rw [List.append_assoc, List.append_assoc] at hvisits hcuts
  have hpiece : Visits sql {} (lead.reverse ++ before) (piece ++ (trail ++ tail)) := hvisits.spaces hlead
  have hdelimits : Delimits (trail ++ tail) := by
    cases trail with
    | nil => exact htail
    | cons c trail =>
      intro x hx
      cases hx
      exact Or.inl (htrail c List.mem_cons_self)
  obtain ⟨st, hst⟩ := scan_piece hdelimits {} (lead.reverse ++ before) [] piece fun p hp ↦ by
    have := hcuts p (by rw [scan_spaces hlead]; exact hp)
    simp only [List.length_append, List.length_reverse] at this ⊢
    omega
  have hblank : ∀ i, before.length ≤ i → i < before.length + (lead ++ (piece ++ trail)).length →
      (before.length + lead.length ≤ i → i < before.length + lead.length + piece.length → Blank sql i) →
      Blank sql i := by
    intro i hi hi' hmid
    simp only [List.length_append] at hi'
    by_cases hlt : i < before.length + lead.length
    · exact blank_of_spaces (x := before.reverse) (by simpa using hsql) hlead (by simpa using hi)
        (by simpa using hlt)
    by_cases hlt' : i < before.length + lead.length + piece.length
    · exact hmid (by omega) hlt'
    · refine blank_of_spaces (x := before.reverse ++ lead ++ piece) (y := tail) (by simpa using hsql)
        htrail ?_ ?_
      · simp only [List.length_append, List.length_reverse]
        omega
      · simp only [List.length_append, List.length_reverse]
        omega
  have hlen : (lead ++ (piece ++ trail)).length = lead.length + piece.length + trail.length := by
    simp only [List.length_append]
    omega
  rw [hrange]
  rcases hexec : containsExecutableToken piece
  · refine ⟨List.Pairwise.nil, fun r hr ↦ absurd hr List.not_mem_nil, fun r hr ↦ absurd hr List.not_mem_nil,
      fun i hi hi' _ ↦ hblank i hi hi' fun hge hlt ↦ ?_⟩
    rcases hscan : scan executableStep {} [] piece with ⟨⟩ | st'
    · rw [containsExecutableToken, hscan] at hexec
      cases hexec
    · refine blank_of_not_executable hdelimits hpiece hscan ?_ ?_
      · simp only [List.length_append, List.length_reverse]
        omega
      · simp only [List.length_append, List.length_reverse]
        omega
  · have hpos : 0 < piece.length := by
      cases piece with
      | nil => cases hexec
      | cons c piece => exact Nat.succ_pos _
    have htotal := congrArg List.length hsql
    simp only [List.length_append, List.length_reverse] at htotal
    refine ⟨List.pairwise_singleton _ _, fun r hr ↦ ?_, fun r hr ↦ ?_, fun i hi hi' hout ↦ ?_⟩
    · obtain rfl := List.mem_singleton.1 hr
      simp only [rangeAt]
      omega
    · obtain rfl := List.mem_singleton.1 hr
      exact { start_lt_end := by simp only [rangeAt]; omega
              end_le := by simp only [rangeAt]; omega
              text_eq := rfl
              start_denotes := denotes_offsetToLineColumn sql _
              end_denotes := denotes_offsetToLineColumn sql _
              stable := stable_of_scan htext htrim hexec hst }
    · refine hblank i hi hi' fun hge hlt ↦ ?_
      exact absurd ⟨hge, hlt⟩ (hout _ (List.mem_singleton.2 rfl))

/-- The loop from the start of a statement on adds ranges that split the rest of the script. -/
theorem splits_rest {before : List Char} (hvisits : Visits sql {} before rest) (s : SplitState)
    (hlex : s.lexical = {}) (hstart : s.statementStartOffset = before.length) :
    ∃ s' more, scan (splitStep sql) s before rest = .ok s' ∧
      (pushRange sql sql.length s').ranges = s.ranges ++ more ∧ Splits sql before.length sql.length more := by
  have htotal := congrArg List.length hvisits.reverse_append
  rw [List.length_append, List.length_reverse] at htotal
  induction hlen : rest.length using Nat.strongRecOn generalizing before rest s with
  | ind len ih =>
    rcases next_cut sql {} before rest with ⟨st', hend, hsplit⟩ | ⟨mid, after, rfl, hcut, hnext, hsplit⟩
    · have hall : Visits sql {} before (rest ++ []) := by rwa [List.append_nil]
      have hpiece := splits_piece hall (fun c hc ↦ by cases hc) (fun p hp ↦ by
        rw [List.append_nil, hend] at hp
        cases hp)
      rw [htotal] at hpiece
      exact ⟨_, _, hsplit s hlex, by rw [pushRange, hstart], hpiece⟩
    · have hpiece := splits_piece hvisits (fun c hc ↦ by cases hc; exact Or.inr rfl) (fun p hp ↦ by
        rw [hcut] at hp
        cases hp
        exact le_rfl)
      have hsemicolon := hnext hvisits
      have hafter := hsemicolon.step
      have hcutStep : isCut {} ';' = true := by decide
      rw [(lex_of_isCut hcutStep after).2.2] at hafter
      have hcutAt := splits_cut hsemicolon
      simp only [List.length_append, List.length_reverse, List.length_cons] at hcutAt htotal hlen
      obtain ⟨s', more, hscan, hranges, hmore⟩ := ih after.length (by omega) hafter
        { pushRange sql (before.length + mid.length) s with
          statementStartOffset := before.length + mid.length + 1
          lexical := {} } rfl (by simp [Nat.add_comm]) (by simp; omega) rfl
      have hlen' : (mid.reverse ++ before).length = before.length + mid.length := by
        simp [Nat.add_comm]
      rw [Nat.add_comm mid.length] at hcutAt
      have hmore' : Splits sql (before.length + mid.length + 1) sql.length more := by
        rw [← hlen']
        exact hmore
      refine ⟨s', (rangeBetween sql before.length (before.length + mid.length)).toList ++ ([] ++ more),
        (hsplit s hlex).trans hscan, ?_, ?_⟩
      · rw [hranges, pushRange, hstart, List.nil_append, List.append_assoc]
      · exact hpiece.append (hcutAt.append hmore' (by omega) (by omega)) (by omega) (by omega)

theorem splits_parseSqlStatementRanges (sql : List Char) :
    Splits sql 0 sql.length (parseSqlStatementRanges sql) := by
  obtain ⟨s, ranges, hscan, hranges, hsplits⟩ := splits_rest (Visits.start : Visits sql {} [] sql) {} rfl rfl
  rw [parseSqlStatementRanges, hscan]
  simpa [hranges] using hsplits

/-- **The ranges of a script.** They come in increasing order and are disjoint. Each is the text
between its offsets, which its lines and columns denote and no other offset has. A character outside
all ranges is white space, a `;` or part of a comment. The text of a range parsed on its own is one
range that covers it, so splitting again changes nothing. -/
theorem parseSqlStatementRanges_spec (sql : List Char) :
    (parseSqlStatementRanges sql).Pairwise (fun l r ↦ l.endOffset ≤ r.startOffset) ∧
    (∀ r ∈ parseSqlStatementRanges sql,
      (r.startOffset < r.endOffset ∧ r.endOffset ≤ sql.length ∧
        r.text = slice sql r.startOffset r.endOffset) ∧
      (∀ offset ≤ sql.length,
        (Denotes sql r.startLineNumber r.startColumn offset ↔ offset = r.startOffset) ∧
        (Denotes sql r.endLineNumber r.endColumn offset ↔ offset = r.endOffset)) ∧
      ∃ alone, parseSqlStatementRanges r.text = [alone] ∧ alone.text = r.text ∧
        alone.startOffset = 0 ∧ alone.endOffset = r.text.length) ∧
    (∀ i c, sql[i]? = some c →
      (∀ r ∈ parseSqlStatementRanges sql, ¬ (r.startOffset ≤ i ∧ i < r.endOffset)) →
        isScriptSpace c ∨ c = ';' ∨ InComment sql i) ∧
    (parseSqlStatementRanges sql).flatMap (fun r ↦ (parseSqlStatementRanges r.text).map (·.text)) =
      (parseSqlStatementRanges sql).map (·.text) := by
  have h := splits_parseSqlStatementRanges sql
  refine ⟨h.ordered, fun r hr ↦ ?_, fun i c hc hout ↦ ?_, ?_⟩
  · have hrange := h.sound r hr
    have hlt := hrange.start_lt_end
    refine ⟨⟨hlt, hrange.end_le, hrange.text_eq⟩, fun offset hle ↦ ⟨⟨fun hd ↦ ?_, ?_⟩, fun hd ↦ ?_, ?_⟩,
      hrange.stable⟩
    · exact hd.unique hrange.start_denotes hle (hlt.le.trans hrange.end_le)
    · rintro rfl
      exact hrange.start_denotes
    · exact hd.unique hrange.end_denotes hle hrange.end_le
    · rintro rfl
      exact hrange.end_denotes
  · obtain ⟨hi, -⟩ := List.getElem?_eq_some_iff.1 hc
    rcases h.covers i i.zero_le hi hout with ⟨x, hx, hspace⟩ | hcomment
    · rw [hc] at hx
      cases hx
      exact hspace.imp_right Or.inl
    · exact Or.inr (Or.inr hcomment)
  · rw [List.map_eq_flatMap]
    refine List.flatMap_congr fun r hr ↦ ?_
    obtain ⟨alone, halone, htext, -⟩ := (h.sound r hr).stable
    rw [halone, List.map_singleton, htext]

end Sql.Ranges
