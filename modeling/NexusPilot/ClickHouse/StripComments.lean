import NexusPilot.Execution.Utf8

/-!
# Comments of a ClickHouse statement

`strip_sql_comments` walks over the bytes of a statement and leaves the comments out, with a blank in the place of each
and the line ends of the block comments. Quoted parts are copied.

**`stripSqlComments_settled`** says that the bytes that are left are a text, that there is nothing more to leave out of
them, and that they have the quoted tokens of the statement. A statement is taken apart into quoted tokens, comments
and other bytes (`bytes_induction`); what makes the parts of the output the same is that nothing is put in front of a
byte that was not in front of it before, but a blank (`head?_stripBytes`).
-/

namespace ClickHouse

open Execution

/-! ### The loop -/

/-- `b'\'' | b'"' | b'\x60'`. -/
def isQuoteByte (b : UInt8) : Bool :=
  b == '\''.toUInt8 || b == '"'.toUInt8 || b == '\x60'.toUInt8

/-- The bytes up to the end of the line. -/
def lineLength (rest : List UInt8) : ℕ :=
  (rest.takeWhile (· ≠ '\n'.toUInt8)).length

/-- The loop over a block comment, after its opening: the bytes that it takes, and the line ends among them. -/
def blockComment : List UInt8 → ℕ × List UInt8
  | [] => (0, [])
  | b :: rest =>
    if b = '*'.toUInt8 ∧ rest.head? = some '/'.toUInt8 then (2, [])
    else
      let comment := blockComment rest
      (comment.1 + 1, if b = '\n'.toUInt8 then b :: comment.2 else comment.2)

/-- The loop of `strip_sql_comments`, with its variables `quote` and `escaped`; `skip` bytes are passed over first. -/
def stripFrom (quote : Option UInt8) (escaped : Bool) : ℕ → List UInt8 → List UInt8
  | _, [] => []
  | skip + 1, _ :: rest => stripFrom quote escaped skip rest
  | 0, b :: rest =>
    match quote with
    | some active =>
      if escaped then b :: stripFrom quote false 0 rest
      else if b = '\\'.toUInt8 then b :: stripFrom quote true 0 rest
      else if b = active then
        if rest.head? = some active then b :: active :: stripFrom quote escaped 1 rest
        else b :: stripFrom none escaped 0 rest
      else b :: stripFrom quote escaped 0 rest
    | none =>
      if isQuoteByte b then b :: stripFrom (some b) escaped 0 rest
      else if b = '-'.toUInt8 ∧ rest.head? = some '-'.toUInt8 then
        ' '.toUInt8 :: stripFrom quote escaped (1 + lineLength rest.tail) rest
      else if b = '#'.toUInt8 then ' '.toUInt8 :: stripFrom quote escaped (lineLength rest) rest
      else if b = '/'.toUInt8 ∧ rest.head? = some '*'.toUInt8 then
        ' '.toUInt8 ::
          ((blockComment rest.tail).2 ++ stripFrom quote escaped (1 + (blockComment rest.tail).1) rest)
      else b :: stripFrom quote escaped 0 rest

/-- The bytes that are left. -/
def stripBytes (sql : List UInt8) : List UInt8 :=
  stripFrom none false 0 sql

/-- `strip_sql_comments`, with the result that `expect` is called on. -/
def stripSqlComments (sql : List Char) : Except Utf8Error (List Char) :=
  fromUtf8 (stripBytes (encodeUtf8 sql))

/-! ### Quoted tokens -/

/-- The bytes of a quoted token behind its opening quote: a backslash takes the next byte along, two quotes are one
of the token, and a token that is not closed goes on to the end. -/
def quotedLength (quote : UInt8) : List UInt8 → ℕ
  | [] => 0
  | [_] => 1
  | b :: c :: rest =>
    if b = '\\'.toUInt8 then quotedLength quote rest + 2
    else if b = quote then if c = quote then quotedLength quote rest + 2 else 1
    else quotedLength quote (c :: rest) + 1

/-- A comment begins with the byte. -/
def opensComment (b : UInt8) (rest : List UInt8) : Bool :=
  (b == '-'.toUInt8 && rest.head? == some '-'.toUInt8) || b == '#'.toUInt8 ||
    (b == '/'.toUInt8 && rest.head? == some '*'.toUInt8)

/-- The bytes of a comment behind its first one. -/
def commentLength (b : UInt8) (rest : List UInt8) : ℕ :=
  if b = '#'.toUInt8 then lineLength rest
  else if b = '-'.toUInt8 then 1 + lineLength rest.tail
  else 1 + (blockComment rest.tail).1

/-- The quoted tokens outside comments; `skip` bytes belong to what was read already. -/
def quotedByteTokensFrom : ℕ → List UInt8 → List (List UInt8)
  | _, [] => []
  | skip + 1, _ :: rest => quotedByteTokensFrom skip rest
  | 0, b :: rest =>
    if isQuoteByte b then
      (b :: rest.take (quotedLength b rest)) :: quotedByteTokensFrom (quotedLength b rest) rest
    else if opensComment b rest then quotedByteTokensFrom (commentLength b rest) rest
    else quotedByteTokensFrom 0 rest

/-- The sequence of quoted tokens of a text. -/
def quotedByteTokens (sql : List UInt8) : List (List UInt8) :=
  quotedByteTokensFrom 0 sql

/-! ### One part after the other -/

theorem stripFrom_skip (quote : Option UInt8) (escaped : Bool) (skip : ℕ) (rest : List UInt8) :
    stripFrom quote escaped skip rest = stripFrom quote escaped 0 (rest.drop skip) := by
  induction rest generalizing skip with
  | nil =>
    cases skip <;> rfl
  | cons b rest ih =>
    cases skip with
    | zero => rfl
    | succ skip => exact ih skip

theorem quotedByteTokensFrom_skip (skip : ℕ) (rest : List UInt8) :
    quotedByteTokensFrom skip rest = quotedByteTokens (rest.drop skip) := by
  induction rest generalizing skip with
  | nil =>
    cases skip <;> rfl
  | cons b rest ih =>
    cases skip with
    | zero => rfl
    | succ skip => exact ih skip

/-- A quoted token is copied. -/
theorem stripFrom_quoted (quote : UInt8) (rest : List UInt8) :
    stripFrom (some quote) false 0 rest =
      rest.take (quotedLength quote rest) ++ stripBytes (rest.drop (quotedLength quote rest)) := by
  fun_induction quotedLength quote rest with
  | case1 => rfl
  | case2 b =>
    have hlast : ¬ ([] : List UInt8).head? = some quote := nofun
    rw [stripFrom, if_neg (by decide), if_neg hlast]
    split_ifs with hbackslash hquote
    · rfl
    · rfl
    · rfl
  | case3 c rest ih =>
    rw [stripFrom, if_neg (by decide), if_pos rfl, stripFrom, if_pos rfl, ih]
    rfl
  | case4 rest hne ih =>
    rw [stripFrom, if_neg (by decide), if_neg hne, if_pos rfl, List.head?_cons, if_pos rfl, stripFrom_skip]
    exact congrArg (fun tail ↦ quote :: quote :: tail) ih
  | case5 c rest hc hne =>
    rw [stripFrom, if_neg (by decide), if_neg hne, if_pos rfl, List.head?_cons,
      if_neg fun h ↦ hc (Option.some.inj h)]
    rfl
  | case6 b c rest hb hquote ih =>
    rw [stripFrom, if_neg (by decide), if_neg hb, if_neg hquote, ih]
    rfl

variable {b x : UInt8} {rest blanks a c : List UInt8}

theorem stripBytes_quoted (hb : isQuoteByte b = true) (rest : List UInt8) :
    stripBytes (b :: rest) =
      b :: (rest.take (quotedLength b rest) ++ stripBytes (rest.drop (quotedLength b rest))) := by
  rw [stripBytes, stripFrom, if_pos hb, stripFrom_quoted]

/-- What stands in the output for a comment, behind the blank: the line ends of a block comment. -/
def commentLines (b : UInt8) (rest : List UInt8) : List UInt8 :=
  if b = '/'.toUInt8 then (blockComment rest.tail).2 else []

theorem opensComment_iff :
    opensComment b rest = true ↔
      (b = '-'.toUInt8 ∧ rest.head? = some '-'.toUInt8) ∨ b = '#'.toUInt8 ∨
        (b = '/'.toUInt8 ∧ rest.head? = some '*'.toUInt8) := by
  rw [opensComment, Bool.or_eq_true, Bool.or_eq_true, Bool.and_eq_true, Bool.and_eq_true, beq_iff_eq, beq_iff_eq,
    beq_iff_eq, beq_iff_eq, beq_iff_eq, or_assoc]

theorem isQuoteByte_iff :
    isQuoteByte b = true ↔ b = '\''.toUInt8 ∨ b = '"'.toUInt8 ∨ b = '\x60'.toUInt8 := by
  rw [isQuoteByte, Bool.or_eq_true, Bool.or_eq_true, beq_iff_eq, beq_iff_eq, beq_iff_eq, or_assoc]

theorem not_isQuoteByte_of_opensComment (h : opensComment b rest = true) :
    ¬ isQuoteByte b = true := by
  obtain ⟨rfl, -⟩ | rfl | ⟨rfl, -⟩ := opensComment_iff.1 h
  · decide
  · decide
  · decide

/-- A comment is left out. -/
theorem stripBytes_comment (h : opensComment b rest = true) :
    stripBytes (b :: rest) =
      ' '.toUInt8 :: (commentLines b rest ++ stripBytes (rest.drop (commentLength b rest))) := by
  rw [stripBytes, stripFrom, if_neg (not_isQuoteByte_of_opensComment h)]
  obtain ⟨rfl, hhead⟩ | rfl | ⟨rfl, hhead⟩ := opensComment_iff.1 h
  · rw [if_pos ⟨rfl, hhead⟩, stripFrom_skip]
    rfl
  · rw [if_neg (fun h ↦ absurd h.1 (by decide)), if_pos rfl, stripFrom_skip]
    rfl
  · rw [if_neg (fun h ↦ absurd h.1 (by decide)), if_neg (by decide), if_pos ⟨rfl, hhead⟩, stripFrom_skip]
    rfl

/-- Any other byte is copied. -/
theorem stripBytes_plain (hb : ¬ isQuoteByte b = true) (h : ¬ opensComment b rest = true) :
    stripBytes (b :: rest) = b :: stripBytes rest := by
  rw [opensComment_iff, not_or, not_or] at h
  rw [stripBytes, stripFrom, if_neg hb, if_neg h.1, if_neg h.2.1, if_neg h.2.2, stripBytes]

theorem quotedByteTokens_quoted (hb : isQuoteByte b = true) (rest : List UInt8) :
    quotedByteTokens (b :: rest) =
      (b :: rest.take (quotedLength b rest)) :: quotedByteTokens (rest.drop (quotedLength b rest)) := by
  rw [quotedByteTokens, quotedByteTokensFrom, if_pos hb, quotedByteTokensFrom_skip]

theorem quotedByteTokens_comment (h : opensComment b rest = true) :
    quotedByteTokens (b :: rest) = quotedByteTokens (rest.drop (commentLength b rest)) := by
  rw [quotedByteTokens, quotedByteTokensFrom, if_neg (not_isQuoteByte_of_opensComment h), if_pos h, quotedByteTokensFrom_skip]

theorem quotedByteTokens_plain (hb : ¬ isQuoteByte b = true) (h : ¬ opensComment b rest = true) :
    quotedByteTokens (b :: rest) = quotedByteTokens rest := by
  rw [quotedByteTokens, quotedByteTokensFrom, if_neg hb, if_neg h, quotedByteTokens]

/-- **A statement by its parts**: what holds of the empty one, and of one with a quoted token, a comment or another
byte in front if it holds of the rest, holds of every statement. -/
theorem bytes_induction {P : List UInt8 → Prop} (nil : P [])
    (quoted : ∀ b rest, isQuoteByte b = true → P (rest.drop (quotedLength b rest)) → P (b :: rest))
    (comment : ∀ b rest, opensComment b rest = true → P (rest.drop (commentLength b rest)) → P (b :: rest))
    (plain : ∀ b rest, ¬ isQuoteByte b = true → ¬ opensComment b rest = true → P rest → P (b :: rest))
    (s : List UInt8) : P s := by
  induction hlen : s.length using Nat.strong_induction_on generalizing s with
  | _ n ih =>
    subst hlen
    cases s with
    | nil => exact nil
    | cons b rest =>
      have hdrop : ∀ skip, P (rest.drop skip) := fun skip ↦
        ih _ (Nat.lt_succ_of_le (List.drop_sublist skip rest).length_le) _ rfl
      by_cases hb : isQuoteByte b = true
      · exact quoted b rest hb (hdrop _)
      · by_cases h : opensComment b rest = true
        · exact comment b rest h (hdrop _)
        · exact plain b rest hb h (hdrop 0)

/-! ### Where a token ends -/

theorem quotedLength_le (quote : UInt8) (rest : List UInt8) : quotedLength quote rest ≤ rest.length := by
  fun_induction quotedLength quote rest with
  | case1 => exact Nat.le_refl _
  | case2 b => exact Nat.le_refl _
  | case3 c rest ih => exact Nat.add_le_add_right ih 2
  | case4 rest hne ih => exact Nat.add_le_add_right ih 2
  | case5 c rest hc hne => exact Nat.le_add_left 1 _
  | case6 b c rest hb hquote ih => exact Nat.add_le_add_right ih 1

theorem quotedLength_pos (quote b : UInt8) (rest : List UInt8) : 0 < quotedLength quote (b :: rest) := by
  cases rest with
  | nil => exact Nat.one_pos
  | cons c rest =>
    rw [quotedLength]
    split_ifs
    · exact Nat.succ_pos _
    · exact Nat.succ_pos _
    · exact Nat.one_pos
    · exact Nat.succ_pos _

/-- Behind a token that is closed does not stand its quote. -/
theorem head?_drop_quotedLength (quote : UInt8) (rest : List UInt8) :
    (rest.drop (quotedLength quote rest)).head? ≠ some quote := by
  fun_induction quotedLength quote rest with
  | case1 => nofun
  | case2 b => nofun
  | case3 c rest ih => exact ih
  | case4 rest hne ih => exact ih
  | case5 c rest hc hne => exact fun h ↦ hc (Option.some.inj h)
  | case6 b c rest hb hquote ih => exact ih

/-- A token ends with its quote, or with the statement. -/
theorem take_quotedLength (quote : UInt8) (rest : List UInt8) :
    rest.drop (quotedLength quote rest) = [] ∨ ∃ body, rest.take (quotedLength quote rest) = body ++ [quote] := by
  fun_induction quotedLength quote rest with
  | case1 => exact Or.inl rfl
  | case2 b => exact Or.inl rfl
  | case3 c rest ih =>
    refine ih.imp_right ?_
    rintro ⟨body, hbody⟩
    exact ⟨'\\'.toUInt8 :: c :: body, congrArg (fun tail ↦ '\\'.toUInt8 :: c :: tail) hbody⟩
  | case4 rest hne ih =>
    refine ih.imp_right ?_
    rintro ⟨body, hbody⟩
    exact ⟨quote :: quote :: body, congrArg (fun tail ↦ quote :: quote :: tail) hbody⟩
  | case5 c rest hc hne => exact Or.inr ⟨[], rfl⟩
  | case6 b c rest hb hquote ih =>
    refine ih.imp_right ?_
    rintro ⟨body, hbody⟩
    exact ⟨b :: body, congrArg (b :: ·) hbody⟩

/-- **A token is read again**, whatever stands behind it now, as long as it is not the quote. -/
theorem quotedLength_take_append {quote : UInt8} {tail : List UInt8}
    (hopen : rest.drop (quotedLength quote rest) = [] → tail = []) (hhead : tail.head? ≠ some quote) :
    quotedLength quote (rest.take (quotedLength quote rest) ++ tail) = quotedLength quote rest := by
  fun_induction quotedLength quote rest with
  | case1 =>
    rw [hopen rfl]
    rfl
  | case2 b =>
    rw [hopen rfl]
    rfl
  | case3 c rest ih =>
    show quotedLength quote ('\\'.toUInt8 :: c :: (rest.take (quotedLength quote rest) ++ tail)) = _
    rw [quotedLength, if_pos rfl, ih hopen]
  | case4 rest hne ih =>
    show quotedLength quote (quote :: quote :: (rest.take (quotedLength quote rest) ++ tail)) = _
    rw [quotedLength, if_neg hne, if_pos rfl, if_pos rfl, ih hopen]
  | case5 c rest hc hne =>
    show quotedLength quote (quote :: tail) = 1
    cases tail with
    | nil => rfl
    | cons d tail =>
      rw [quotedLength, if_neg hne, if_pos rfl, if_neg fun h ↦ hhead (congrArg some h)]
  | case6 b c rest hb hquote ih =>
    have hrest := ih hopen
    obtain ⟨k, hk⟩ := Nat.exists_eq_succ_of_ne_zero (quotedLength_pos quote c rest).ne'
    rw [hk, List.take_succ_cons, List.cons_append] at hrest
    rw [hk, List.take_succ_cons, List.take_succ_cons, List.cons_append, List.cons_append, quotedLength, if_neg hb,
      if_neg hquote, hrest]

/-! ### Nothing more to leave out -/

/-- A byte that is not a blank is in front of the output only if it was in front before. -/
theorem head?_stripBytes {s : List UInt8} (hx : x ≠ ' '.toUInt8) (h : s.head? ≠ some x) :
    (stripBytes s).head? ≠ some x := by
  cases s with
  | nil => exact h
  | cons b rest =>
    by_cases hb : isQuoteByte b = true
    · rw [stripBytes_quoted hb]
      exact h
    · by_cases hcomment : opensComment b rest = true
      · rw [stripBytes_comment hcomment]
        exact fun heq ↦ hx (Option.some.inj heq).symm
      · rw [stripBytes_plain hb hcomment]
        exact h

theorem ne_space_of_isQuoteByte (hb : isQuoteByte b = true) : b ≠ ' '.toUInt8 := by
  rintro rfl
  exact absurd hb (by decide)

/-- A token is read again from the output. -/
theorem quotedLength_output (hb : isQuoteByte b = true) (rest : List UInt8) :
    quotedLength b (rest.take (quotedLength b rest) ++ stripBytes (rest.drop (quotedLength b rest))) =
      quotedLength b rest := by
  refine quotedLength_take_append (fun hopen ↦ ?_) ?_
  · rw [hopen]
    rfl
  · exact head?_stripBytes (ne_space_of_isQuoteByte hb) (head?_drop_quotedLength b rest)

/-- The token and what stands behind it, in the output. -/
theorem take_drop_output (b : UInt8) (rest tail : List UInt8) :
    (rest.take (quotedLength b rest) ++ tail).take (quotedLength b rest) = rest.take (quotedLength b rest) ∧
      (rest.take (quotedLength b rest) ++ tail).drop (quotedLength b rest) = tail := by
  have hlength : (rest.take (quotedLength b rest)).length = quotedLength b rest :=
    List.length_take_of_le (quotedLength_le b rest)
  exact ⟨List.take_left' hlength, List.drop_left' hlength⟩

/-- A byte that opened no comment opens none in the output. -/
theorem not_opensComment_output (h : ¬ opensComment b rest = true) :
    ¬ opensComment b (stripBytes rest) = true := by
  rw [opensComment_iff, not_or, not_or] at h ⊢
  refine ⟨fun hline ↦ ?_, h.2.1, fun hblock ↦ ?_⟩
  · exact head?_stripBytes (by decide) (fun hhead ↦ h.1 ⟨hline.1, hhead⟩) hline.2
  · exact head?_stripBytes (by decide) (fun hhead ↦ h.2.2 ⟨hblock.1, hhead⟩) hblock.2

/-- What a comment leaves behind it. -/
def IsBlank (b : UInt8) : Prop :=
  b = ' '.toUInt8 ∨ b = '\n'.toUInt8

theorem IsBlank.not_isQuoteByte (h : IsBlank b) : ¬ isQuoteByte b = true := by
  obtain rfl | rfl := h
  · decide
  · decide

theorem IsBlank.not_opensComment (h : IsBlank b) (rest : List UInt8) : ¬ opensComment b rest = true := by
  rw [opensComment_iff]
  rintro (⟨rfl, -⟩ | rfl | ⟨rfl, -⟩)
  · exact absurd h (by unfold IsBlank; decide)
  · exact absurd h (by unfold IsBlank; decide)
  · exact absurd h (by unfold IsBlank; decide)

theorem isBlank_of_mem_blockComment (h : b ∈ (blockComment rest).2) : IsBlank b := by
  induction rest with
  | nil => exact (nomatch h)
  | cons c rest ih =>
    rw [blockComment] at h
    split_ifs at h with hend hline
    · exact (nomatch h)
    · obtain rfl | h := List.mem_cons.1 h
      · exact Or.inr hline
      · exact ih h
    · exact ih h

/-- A comment leaves blanks. -/
theorem isBlank_of_mem_comment (h : x ∈ ' '.toUInt8 :: commentLines b rest) : IsBlank x := by
  obtain rfl | h := List.mem_cons.1 h
  · exact Or.inl rfl
  · rw [commentLines] at h
    split_ifs at h with hb
    · exact isBlank_of_mem_blockComment h
    · exact (nomatch h)

theorem stripBytes_blanks (h : ∀ b ∈ blanks, IsBlank b) (rest : List UInt8) :
    stripBytes (blanks ++ rest) = blanks ++ stripBytes rest := by
  induction blanks with
  | nil => rfl
  | cons b blanks ih =>
    obtain ⟨hb, hblanks⟩ := List.forall_mem_cons.1 h
    rw [List.cons_append, stripBytes_plain hb.not_isQuoteByte (hb.not_opensComment _), ih hblanks, List.cons_append]

theorem quotedByteTokens_blanks (h : ∀ b ∈ blanks, IsBlank b) (rest : List UInt8) :
    quotedByteTokens (blanks ++ rest) = quotedByteTokens rest := by
  induction blanks with
  | nil => rfl
  | cons b blanks ih =>
    obtain ⟨hb, hblanks⟩ := List.forall_mem_cons.1 h
    rw [List.cons_append, quotedByteTokens_plain hb.not_isQuoteByte (hb.not_opensComment _), ih hblanks]

/-- **The comments are left out at once.** -/
theorem stripBytes_stripBytes (s : List UInt8) : stripBytes (stripBytes s) = stripBytes s := by
  induction s using bytes_induction with
  | nil => rfl
  | quoted b rest hb ih =>
    obtain ⟨htake, hdrop⟩ := take_drop_output b rest (stripBytes (rest.drop (quotedLength b rest)))
    rw [stripBytes_quoted hb, stripBytes_quoted hb, quotedLength_output hb, htake, hdrop, ih]
  | comment b rest h ih =>
    rw [stripBytes_comment h, ← List.cons_append, stripBytes_blanks (fun _ ↦ isBlank_of_mem_comment), ih]
  | plain b rest hb h ih =>
    rw [stripBytes_plain hb h, stripBytes_plain hb (not_opensComment_output h), ih]

/-- **The quoted tokens are kept.** -/
theorem quotedByteTokens_stripBytes (s : List UInt8) : quotedByteTokens (stripBytes s) = quotedByteTokens s := by
  induction s using bytes_induction with
  | nil => rfl
  | quoted b rest hb ih =>
    obtain ⟨htake, hdrop⟩ := take_drop_output b rest (stripBytes (rest.drop (quotedLength b rest)))
    rw [stripBytes_quoted hb, quotedByteTokens_quoted hb, quotedByteTokens_quoted hb, quotedLength_output hb, htake, hdrop, ih]
  | comment b rest h ih =>
    rw [stripBytes_comment h, ← List.cons_append, quotedByteTokens_blanks (fun _ ↦ isBlank_of_mem_comment),
      quotedByteTokens_comment h, ih]
  | plain b rest hb h ih =>
    rw [stripBytes_plain hb h, quotedByteTokens_plain hb (not_opensComment_output h), quotedByteTokens_plain hb h, ih]

/-! ### What is left is a text -/

/-- The bytes are a text. -/
def IsText (bytes : List UInt8) : Prop :=
  ∃ text, encodeUtf8 text = bytes

theorem isText_nil : IsText [] :=
  ⟨[], rfl⟩

theorem IsText.append (ha : IsText a) (hc : IsText c) : IsText (a ++ c) := by
  obtain ⟨text, rfl⟩ := ha
  obtain ⟨text', rfl⟩ := hc
  exact ⟨text ++ text', encodeUtf8_append text text'⟩

/-- A byte below `128` is a character of its own. -/
theorem eq_singleton_of_mem {c : Char} (hmem : x ∈ String.utf8EncodeChar c) (hx : x.toNat < 128) :
    String.utf8EncodeChar c = [x] := by
  have hbytes := charBytes_utf8EncodeChar c
  generalize String.utf8EncodeChar c = bytes at hmem hbytes
  generalize c.toNat = n at hbytes
  -- every byte of a longer character is at least `128`
  cases hbytes with
  | one h₀ => rw [List.mem_singleton.1 hmem]
  | @two b₀ b₁ h₀ h₁ =>
    have h₁' := (isContinuation_iff b₁).1 h₁
    simp only [List.mem_cons, List.not_mem_nil, or_false] at hmem
    obtain rfl | rfl := hmem <;> omega
  | @three b₀ b₁ b₂ h₀ h₁ h₂ =>
    have h₁' := (isSecondOfThree_iff b₀ b₁).1 h₁
    have h₂' := (isContinuation_iff b₂).1 h₂
    simp only [List.mem_cons, List.not_mem_nil, or_false] at hmem
    obtain rfl | rfl | rfl := hmem <;> omega
  | @four b₀ b₁ b₂ b₃ h₀ h₁ h₂ h₃ =>
    have h₁' := (isSecondOfFour_iff b₀ b₁).1 h₁
    have h₂' := (isContinuation_iff b₂).1 h₂
    have h₃' := (isContinuation_iff b₃).1 h₃
    simp only [List.mem_cons, List.not_mem_nil, or_false] at hmem
    obtain rfl | rfl | rfl | rfl := hmem <;> omega

/-- **A text is cut at a byte below `128`.** -/
theorem IsText.cut (hx : x.toNat < 128) (h : IsText (a ++ x :: c)) :
    IsText a ∧ IsText [x] ∧ IsText c := by
  obtain ⟨text, htext⟩ := h
  induction text generalizing a with
  | nil => exact absurd htext.symm (List.append_ne_nil_of_right_ne_nil _ (List.cons_ne_nil _ _))
  | cons d text ih =>
    have hd : IsText (String.utf8EncodeChar d) := ⟨[d], by rw [encodeUtf8_cons, encodeUtf8_nil, List.append_nil]⟩
    rw [encodeUtf8_cons] at htext
    obtain ⟨a', rfl, hrest⟩ | ⟨d', hchar, hrest⟩ := List.append_eq_append_iff.1 htext
    · obtain ⟨ha, hx, hc⟩ := ih hrest
      exact ⟨hd.append ha, hx, hc⟩
    · cases d' with
      | nil =>
        obtain ⟨-, hx, hc⟩ := ih (a := []) hrest.symm
        rw [List.append_nil] at hchar
        exact ⟨hchar ▸ hd, hx, hc⟩
      | cons y d' =>
        obtain ⟨rfl, rfl⟩ := List.cons.inj hrest
        have hsingle := eq_singleton_of_mem (hchar ▸ List.mem_append_right a List.mem_cons_self) hx
        rw [hsingle] at hchar hd
        cases a with
        | nil =>
          obtain rfl := (List.cons.inj hchar).2
          exact ⟨isText_nil, hd, text, rfl⟩
        | cons b a =>
          exact absurd (List.cons.inj hchar).2.symm (List.append_ne_nil_of_right_ne_nil _ (List.cons_ne_nil _ _))

theorem toNat_lt_of_isQuoteByte (hb : isQuoteByte b = true) : b.toNat < 128 := by
  obtain rfl | rfl | rfl := isQuoteByte_iff.1 hb
  · decide
  · decide
  · decide

theorem toNat_lt_of_opensComment (h : opensComment b rest = true) : b.toNat < 128 := by
  obtain ⟨rfl, -⟩ | rfl | ⟨rfl, -⟩ := opensComment_iff.1 h
  · decide
  · decide
  · decide

theorem isText_blanks (h : ∀ b ∈ blanks, IsBlank b) : IsText blanks := by
  induction blanks with
  | nil => exact isText_nil
  | cons b blanks ih =>
    obtain ⟨hb, hblanks⟩ := List.forall_mem_cons.1 h
    have hsingle : IsText [b] := by
      obtain rfl | rfl := hb
      · exact ⟨[' '], by decide⟩
      · exact ⟨['\n'], by decide⟩
    exact hsingle.append (ih hblanks)

/-- A quoted token and what stands behind it are texts. -/
theorem isText_quoted (hb : isQuoteByte b = true) (h : IsText rest) :
    IsText (rest.take (quotedLength b rest)) ∧ IsText (rest.drop (quotedLength b rest)) := by
  have hsplit := List.take_append_drop (quotedLength b rest) rest
  obtain hopen | ⟨body, hbody⟩ := take_quotedLength b rest
  · rw [hopen, List.append_nil] at hsplit
    rw [hopen, hsplit]
    exact ⟨h, isText_nil⟩
  · rw [hbody, List.append_assoc] at hsplit
    rw [← hsplit] at h
    obtain ⟨hbodyText, hquote, hrest⟩ := IsText.cut (toNat_lt_of_isQuoteByte hb) h
    rw [hbody]
    exact ⟨hbodyText.append hquote, hrest⟩

/-- A line ends with the statement, or in front of a line end. -/
theorem drop_lineLength (rest : List UInt8) :
    rest.drop (lineLength rest) = [] ∨ ∃ tail, rest.drop (lineLength rest) = '\n'.toUInt8 :: tail := by
  induction rest with
  | nil => exact Or.inl rfl
  | cons b rest ih =>
    by_cases hb : b = '\n'.toUInt8
    · rw [lineLength, List.takeWhile_cons_of_neg (by simpa using hb), hb]
      exact Or.inr ⟨rest, rfl⟩
    · rw [lineLength, List.takeWhile_cons_of_pos (by simpa using hb)]
      exact ih

/-- A block comment ends with the statement, or with a slash. -/
theorem take_blockComment (rest : List UInt8) :
    rest.drop (blockComment rest).1 = [] ∨ ∃ body, rest.take (blockComment rest).1 = body ++ ['/'.toUInt8] := by
  induction rest with
  | nil => exact Or.inl rfl
  | cons b rest ih =>
    by_cases hend : b = '*'.toUInt8 ∧ rest.head? = some '/'.toUInt8
    · obtain ⟨tail, rfl⟩ := List.head?_eq_some_iff.1 hend.2
      rw [blockComment, if_pos hend]
      exact Or.inr ⟨[b], rfl⟩
    · rw [blockComment, if_neg hend]
      refine ih.imp_right ?_
      rintro ⟨body, hbody⟩
      exact ⟨b :: body, congrArg (b :: ·) hbody⟩

/-- What is behind a line is a text. -/
theorem isText_drop_lineLength (h : IsText rest) : IsText (rest.drop (lineLength rest)) := by
  have hsplit := List.take_append_drop (lineLength rest) rest
  obtain hend | ⟨tail, hline⟩ := drop_lineLength rest
  · rw [hend]
    exact isText_nil
  · rw [hline] at hsplit ⊢
    rw [← hsplit] at h
    obtain ⟨-, hnewline, htail⟩ := IsText.cut (by decide) h
    exact hnewline.append htail

theorem isText_drop_blockComment (h : IsText rest) :
    IsText (rest.drop (blockComment rest).1) := by
  have hsplit := List.take_append_drop (blockComment rest).1 rest
  obtain hend | ⟨body, hbody⟩ := take_blockComment rest
  · rw [hend]
    exact isText_nil
  · rw [hbody, List.append_assoc] at hsplit
    rw [← hsplit] at h
    exact (IsText.cut (by decide) h).2.2

/-- What is behind a comment is a text. -/
theorem isText_comment (hopens : opensComment b rest = true) (h : IsText rest) :
    IsText (rest.drop (commentLength b rest)) := by
  -- the second byte of the opening is a character of its own
  have htail : ∀ {x : UInt8}, x.toNat < 128 → rest.head? = some x → IsText rest.tail := by
    intro x hx hhead
    obtain ⟨tail, rfl⟩ := List.head?_eq_some_iff.1 hhead
    exact (IsText.cut (a := []) hx h).2.2
  have hdrop : ∀ n, rest.drop (1 + n) = rest.tail.drop n := fun n ↦ by
    rw [← List.drop_drop, List.drop_one]
  obtain ⟨rfl, hhead⟩ | rfl | ⟨rfl, hhead⟩ := opensComment_iff.1 hopens
  · rw [commentLength, if_neg (by decide), if_pos rfl, hdrop]
    exact isText_drop_lineLength (htail (by decide) hhead)
  · exact isText_drop_lineLength h
  · rw [commentLength, if_neg (by decide), if_neg (by decide), hdrop]
    exact isText_drop_blockComment (htail (by decide) hhead)

/-- **What is left is a text.** The induction cannot stop inside of a character, so that some bytes of one may stand in
front. -/
theorem isText_stripBytes {s : List UInt8} {front : List UInt8} (h : IsText (front ++ s)) :
    IsText (front ++ stripBytes s) := by
  induction s using bytes_induction generalizing front with
  | nil => exact h
  | quoted b rest hb ih =>
    obtain ⟨hfront, hquote, hrest⟩ := IsText.cut (toNat_lt_of_isQuoteByte hb) h
    obtain ⟨htoken, hbehind⟩ := isText_quoted hb hrest
    rw [stripBytes_quoted hb]
    exact hfront.append (hquote.append (htoken.append (@ih [] hbehind)))
  | comment b rest hopens ih =>
    obtain ⟨hfront, -, hrest⟩ := IsText.cut (toNat_lt_of_opensComment hopens) h
    rw [stripBytes_comment hopens, ← List.cons_append]
    have hblanks : IsText (' '.toUInt8 :: commentLines b rest) := isText_blanks fun _ ↦ isBlank_of_mem_comment
    exact hfront.append (hblanks.append (@ih [] (isText_comment hopens hrest)))
  | plain b rest hb hopens ih =>
    rw [stripBytes_plain hb hopens, List.append_cons]
    rw [List.append_cons] at h
    exact ih h

/-- The bytes of a text are read as a text with these bytes. -/
theorem fromUtf8_of_isText {bytes : List UInt8} (h : IsText bytes) :
    ∃ text, fromUtf8 bytes = .ok text ∧ encodeUtf8 text = bytes := by
  obtain ⟨text, rfl⟩ := h
  have hdecoded := decoded_fromUtf8 (encodeUtf8 text)
  generalize fromUtf8 (encodeUtf8 text) = read at hdecoded ⊢
  cases hdecoded with
  | ok htext => exact ⟨_, rfl, htext⟩
  | @unexpectedEnd text' rest htext hne hrest hbegun =>
    have hprefix : text <+: text' := prefix_of_noChar hrest (htext ▸ List.prefix_refl _)
    obtain ⟨more, rfl⟩ := hprefix
    have hlength := congrArg List.length htext
    rw [encodeUtf8_append, List.append_assoc, List.length_append, List.length_append] at hlength
    exact absurd (List.eq_nil_of_length_eq_zero (by omega)) hne
  | invalid hnone => exact absurd (List.prefix_refl _) (hnone text)

/-- **Comments are left out of a statement** as a text, all at once, and with the quoted tokens kept. -/
theorem stripSqlComments_settled (sql : List Char) :
    ∃ stripped, stripSqlComments sql = .ok stripped ∧ stripSqlComments stripped = .ok stripped ∧
      quotedByteTokens (encodeUtf8 stripped) = quotedByteTokens (encodeUtf8 sql) := by
  have htext : IsText (stripBytes (encodeUtf8 sql)) := @isText_stripBytes _ [] ⟨sql, rfl⟩
  obtain ⟨stripped, hread, hbytes⟩ := fromUtf8_of_isText htext
  refine ⟨stripped, hread, ?_, ?_⟩
  · rw [stripSqlComments, hbytes, stripBytes_stripBytes, hread]
  · rw [hbytes, quotedByteTokens_stripBytes]

/-- Removing a comment brings no comment about. -/
example : (stripSqlComments "a -/**/- 'b--c' # d\n/* e\n*/-".toList).toOption = some "a - - 'b--c'  \n \n-".toList := by
  decide +kernel

end ClickHouse
