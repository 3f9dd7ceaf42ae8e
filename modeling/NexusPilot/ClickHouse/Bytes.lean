import NexusPilot.ClickHouse.Classify

/-!
# The classifier reads characters

`scan_top_level_tokens` walks over bytes, the framer over characters. Everything the classifier asks
for is ASCII, so it finds the same tokens when it walks over the characters: a character beyond ASCII
is one token boundary instead of several, and one symbol inside a quoted value instead of several.
-/

namespace ClickHouse

open Scan Text

/-! ### Symbols beyond ASCII -/

variable {c x : Char} {l bytesBefore before rest tag : List Char} {st : TokenState}

theorem isAscii_of_isWordChar (h : isWordChar c) : isAscii c := by
  have hrange := range_of_isWordChar h
  simp only [isAscii, decide_eq_true_eq]
  omega

theorem isWordChar_of_beyond (h : isAscii c = false) : isWordChar c = false := by
  by_contra hword
  rw [isAscii_of_isWordChar (by simpa using hword)] at h
  cases h

theorem ne_of_beyond (h : isAscii c = false) (hx : isAscii x) : c ≠ x := by
  rintro rfl
  rw [hx] at h
  cases h

theorem isAsciiWhitespace_of_beyond (h : isAscii c = false) :
    isAsciiWhitespace c = false := by
  simp [isAsciiWhitespace, ne_of_beyond h (show isAscii ' ' from rfl),
    ne_of_beyond h (show isAscii '\t' from rfl), ne_of_beyond h (show isAscii '\n' from rfl),
    ne_of_beyond h (show isAscii '\x0c' from rfl), ne_of_beyond h (show isAscii '\r' from rfl)]

theorem boundary_boundary (st : TokenState) : st.boundary.boundary = st.boundary := by
  have hidem : ∀ tokens, pushTokenBoundary (pushTokenBoundary tokens) = pushTokenBoundary tokens := by
    intro tokens
    by_cases h : tokens.getLast?.any fun token ↦ token.normalized ≠ ""
    · rw [pushTokenBoundary, pushTokenBoundary, if_pos h]
      simp
    · have hsame : pushTokenBoundary tokens = tokens := by rw [pushTokenBoundary, if_neg h]
      rw [hsame, hsame]
  by_cases hd : st.depth = 0 <;> simp [TokenState.boundary, hd, hidem]

/-- A symbol beyond ASCII is a token boundary. -/
theorem tokenStep_of_beyond (st : TokenState) (before : List Char) (after : List Char) (h : isAscii c = false) :
    tokenStep st before c after = .ok (st.boundary, 1) := by
  have hne : ∀ x, isAscii x → c ≠ x := fun x hx ↦ ne_of_beyond h hx
  simp [tokenStep, hne '\'' rfl, hne '"' rfl, hne '`' rfl, hne '-' rfl, hne '#' rfl, hne '/' rfl,
    hne '$' rfl, hne '(' rfl, hne ')' rfl, isWordChar_of_beyond h, isAsciiWhitespace_of_beyond h]

/-- Several of them are one. -/
theorem scan_beyond (st : TokenState) (before : List Char) {b : Char} {bs : List Char}
    (hb : isAscii b = false) (hbs : ∀ x ∈ bs, isAscii x = false) :
    scan tokenStep st before ((b :: bs) ++ l) =
      scan tokenStep st.boundary ((b :: bs).reverse ++ before) l := by
  induction bs generalizing st before b with
  | nil =>
    rw [List.cons_append, scan_cons_of_step (tokenStep_of_beyond st before _ hb) Nat.one_pos]
    rfl
  | cons b' bs ih =>
    rw [List.cons_append, scan_cons_of_step (tokenStep_of_beyond st before _ hb) Nat.one_pos,
      behind_succ_cons, behind_zero, List.drop_succ_cons, List.drop_zero,
      ih _ _ (hbs b' List.mem_cons_self) fun x hx ↦ hbs x (List.mem_cons_of_mem _ hx),
      boundary_boundary]
    simp

/-! ### The symbol before a `$` -/

/-- The symbols passed last agree on whether a heredoc may start. -/
def Synced (bytesBefore before : List Char) : Prop :=
  (bytesBefore.head?.any fun c ↦ isWordChar c || c == '$') =
    before.head?.any fun c ↦ isWordChar c || c == '$'

theorem synced_of_reverse_append (h : Synced bytesBefore before) :
    Synced ((asBytes l).reverse ++ bytesBefore) (l.reverse ++ before) := by
  rcases List.eq_nil_or_concat l with rfl | ⟨l, c, rfl⟩
  · exact h
  · rw [List.concat_eq_append, asBytes, utf8.text_append, List.reverse_append, List.reverse_append,
      utf8.text_cons, utf8.text_nil, List.append_nil, List.append_assoc]
    by_cases hc : isAscii c
    · rw [show utf8.encode c = [c] from charBytes_of_isAscii hc]
      rfl
    · have hc' : isAscii c = false := by simpa using hc
      obtain ⟨bs, b, hbs⟩ := List.eq_nil_or_concat (utf8.encode c) |>.resolve_left
        (utf8.encode_ne_nil c)
      have hb : isAscii b = false := utf8.plain_of_mem_encode c hc' b (by rw [hbs]; simp)
      rw [hbs, List.concat_eq_append, List.reverse_append]
      show (isWordChar b || b == '$') = (isWordChar c || c == '$')
      rw [isWordChar_of_beyond hb, isWordChar_of_beyond hc',
        beq_false_of_ne (ne_of_beyond hb (by decide)), beq_false_of_ne (ne_of_beyond hc' (by decide))]

theorem synced_behind (n : ℕ) (h : Synced bytesBefore before) :
    Synced (behind (asBytes (rest.take n)).length bytesBefore (asBytes rest))
      (behind n before rest) := by
  rw [behind, behind, show (asBytes rest).take (asBytes (rest.take n)).length = asBytes (rest.take n)
    from utf8.take_text n rest]
  exact synced_of_reverse_append h

/-! ### Local searches -/

theorem quotedInner_local (quote : Char) (hquote : isAscii quote) :
    utf8.Local (quotedInner quote) where
  beyond t c after hc := by
    simp [quotedInner, ne_of_beyond hc hquote, ne_of_beyond hc (show isAscii '\\' from rfl)]
  congr t c after after' h := by
    simp only [quotedInner, h quote hquote]
  width t c after r n h := by
    simp only [quotedInner] at h
    split_ifs at h <;> cases h <;> simp

theorem nestedInner_local : utf8.Local nestedInner where
  beyond t c after hc := by
    simp [nestedInner, ne_of_beyond hc (show isAscii '/' from rfl),
      ne_of_beyond hc (show isAscii '*' from rfl)]
  congr t c after after' h := by
    simp only [nestedInner, h '*' rfl, h '/' rfl]
  width t c after r n h := by
    simp only [nestedInner] at h
    split_ifs at h with h₁ h₂ h₃ <;> cases h
    · simp
    · exact .inr ⟨rfl, fun _ ↦ ⟨'/', h₂.2, rfl⟩⟩
    · simp
    · simp

theorem heredocTag_asBytes (l : List Char) : heredocTag (asBytes l) = heredocTag l := by
  induction l with
  | nil => rfl
  | cons c l ih =>
    by_cases hc : isAscii c
    · rw [asBytes, utf8.text_cons_of_plain hc, heredocTag, heredocTag]
      rw [asBytes] at ih
      rw [ih]
    · have hc' : isAscii c = false := by simpa using hc
      obtain ⟨b, bs, hbs, hb, -⟩ := utf8.exists_encode_eq_cons hc'
      have hb' : isAscii b = false := hb
      rw [asBytes, utf8.text_cons, hbs, List.cons_append, heredocTag, heredocTag,
        if_neg (ne_of_beyond hb' rfl), if_neg (ne_of_beyond hc' rfl), isWordChar_of_beyond hb',
        isWordChar_of_beyond hc']
      rfl

/-- A tag is made of word characters. -/
theorem isWordChar_of_heredocTag (h : heredocTag l = some tag) :
    (∀ c ∈ tag, isWordChar c) ∧ l.take (tag.length + 1) = tag ++ ['$'] := by
  induction l generalizing tag with
  | nil => cases h
  | cons c l ih =>
    rw [heredocTag] at h
    split_ifs at h with hc hword
    · cases h
      subst hc
      simp
    · obtain ⟨tag', htag', rfl⟩ := Option.map_eq_some_iff.1 h
      obtain ⟨hall, htake⟩ := ih htag'
      refine ⟨?_, by simp [htake]⟩
      intro x hx
      obtain rfl | hx := List.mem_cons.1 hx
      · exact hword
      · exact hall x hx

theorem asBytes_append (l m : List Char) : asBytes (l ++ m) = asBytes l ++ asBytes m :=
  utf8.text_append l m

theorem asBytes_eq_self (h : ∀ c ∈ l, isAscii c) : asBytes l = l :=
  utf8.text_eq_self h

theorem isAscii_of_mem_dollarDelimiter (h : ∀ c ∈ tag, isWordChar c) :
    ∀ c ∈ Sql.dollarDelimiter tag, isAscii c := by
  intro c hc
  simp only [Sql.dollarDelimiter, List.mem_cons, List.mem_append, List.not_mem_nil, or_false] at hc
  obtain rfl | hc | rfl := hc
  · rfl
  · exact isAscii_of_isWordChar (h c hc)
  · rfl

theorem length_dollarDelimiter (tag : List Char) : (Sql.dollarDelimiter tag).length = tag.length + 2 := by
  simp [Sql.dollarDelimiter]

/-- A heredoc ends at the encoded distance. -/
theorem clickhouseHeredocEnd_asBytes (h : Synced bytesBefore before) (after : List Char) :
    clickhouseHeredocEnd bytesBefore (asBytes after) =
      (clickhouseHeredocEnd before after).map fun n ↦ (asBytes (('$' :: after).take n)).length := by
  rw [Synced] at h
  rw [clickhouseHeredocEnd, clickhouseHeredocEnd, heredocTag_asBytes, h]
  split_ifs
  · rfl
  · rcases htag : heredocTag after with _ | tag
    · rfl
    · obtain ⟨hword, htake⟩ := isWordChar_of_heredocTag htag
      have hascii : ∀ c ∈ Sql.dollarDelimiter tag, utf8.plain c := isAscii_of_mem_dollarDelimiter hword
      have hopen : asBytes (('$' :: after).take (tag.length + 2)) = Sql.dollarDelimiter tag := by
        rw [List.take_succ_cons, htake]
        exact utf8.text_eq_self hascii
      -- the search starts behind the opening delimiter, which is spelled as it is
      have hdrop : (asBytes after).drop (tag.length + 1) = asBytes (after.drop (tag.length + 1)) := by
        have hlen : (asBytes (after.take (tag.length + 1))).length = tag.length + 1 := by
          rw [htake, asBytes, utf8.text_eq_self]
          · simp
          · intro c hc
            exact hascii c (List.mem_cons_of_mem _ hc)
        have := utf8.drop_text (tag.length + 1) after
        rwa [show (utf8.text (after.take (tag.length + 1))).length = tag.length + 1 from hlen] at this
      have hfind : findSub (Sql.dollarDelimiter tag) (asBytes (after.drop (tag.length + 1))) =
          (findSub (Sql.dollarDelimiter tag) (after.drop (tag.length + 1))).map fun i ↦
            (asBytes ((after.drop (tag.length + 1)).take i)).length :=
        utf8.findSub_text hascii _
      simp only [hdrop, hfind]
      rcases hsub : findSub (Sql.dollarDelimiter tag) (after.drop (tag.length + 1)) with _ | offset
      · simp [asBytes, utf8.text_cons_of_plain (show utf8.plain '$' from rfl)]
      · obtain ⟨rest, hrest⟩ := prefix_drop_of_findSub hsub
        have hsplit : ('$' :: after).take ((tag.length + 2) + offset + (tag.length + 2)) =
            ('$' :: after).take (tag.length + 2) ++
              ((after.drop (tag.length + 1)).take offset ++ Sql.dollarDelimiter tag) := by
          have hclose : (after.drop (tag.length + 1)).take (offset + (tag.length + 2)) =
              (after.drop (tag.length + 1)).take offset ++ Sql.dollarDelimiter tag := by
            rw [List.take_add, ← hrest, ← length_dollarDelimiter, List.take_left]
          rw [Nat.add_assoc, List.take_add, List.drop_succ_cons, hclose]
        simp only [Option.map_some, Option.some.injEq]
        rw [hsplit, asBytes_append, asBytes_append, asBytes_eq_self hascii, hopen]
        simp only [List.length_append, length_dollarDelimiter]
        omega

/-! ### One step, and all of them -/

theorem head?_asBytes (hx : isAscii x) (l : List Char) :
    (asBytes l).head? = some x ↔ l.head? = some x :=
  utf8.head?_text_eq_some hx l

theorem hash_asBytes (l : List Char) :
    ((asBytes l).head?.all fun c ↦ c == '!' || isAsciiWhitespace c) =
      l.head?.all fun c ↦ c == '!' || isAsciiWhitespace c := by
  cases l with
  | nil => rfl
  | cons c l =>
    by_cases hc : isAscii c
    · rw [asBytes, utf8.text_cons_of_plain hc]
      rfl
    · have hc' : isAscii c = false := by simpa using hc
      obtain ⟨b, bs, hbs, hb, -⟩ := utf8.exists_encode_eq_cons hc'
      have hb' : isAscii b = false := hb
      rw [asBytes, utf8.text_cons, hbs]
      show (b == '!' || isAsciiWhitespace b) = (c == '!' || isAsciiWhitespace c)
      rw [isAsciiWhitespace_of_beyond hb', isAsciiWhitespace_of_beyond hc',
        beq_false_of_ne (ne_of_beyond hb' rfl), beq_false_of_ne (ne_of_beyond hc' rfl)]

/-- The distance of a stretch behind ASCII symbols. -/
theorem length_asBytes_take (opener : List Char) (h : ∀ c ∈ opener, isAscii c) (n : ℕ) :
    (asBytes ((opener ++ rest).take (opener.length + n))).length =
      opener.length + (asBytes (rest.take n)).length := by
  rw [List.take_append, Nat.add_sub_cancel_left, List.take_of_length_le (by omega), asBytes,
    utf8.text_append, utf8.text_eq_self h, List.length_append]
  rfl

theorem skipLineComment_asBytes (rest : List Char) :
    skipLineComment (asBytes rest) = (asBytes (rest.take (skipLineComment rest))).length := by
  have hrun : (asBytes rest).takeWhile (· ≠ '\n') = asBytes (rest.takeWhile (· ≠ '\n')) :=
    utf8.takeWhile_text_of_beyond (fun c hc ↦ by simpa using ne_of_beyond hc rfl) rest
  rw [skipLineComment, hrun, skipLineComment,
    ← List.prefix_iff_eq_take.1 (List.takeWhile_prefix _)]

/-- **One step** at an ASCII symbol. -/
theorem tokenStep_asBytes (h : Synced bytesBefore before) (st : TokenState) (hc : isAscii c)
    (after : List Char) :
    tokenStep st bytesBefore c (asBytes after) =
      (tokenStep st before c after).map fun x ↦
        (x.1, (asBytes ((c :: after).take x.2)).length) := by
  have hopen : ∀ n, (asBytes ((c :: after).take (1 + n))).length =
      1 + (asBytes (after.take n)).length :=
    length_asBytes_take [c] (by simpa using hc)
  have hone : (asBytes ((c :: after).take 1)).length = 1 := by
    simpa [asBytes] using hopen 0
  have htwo : ∀ {x : Char}, isAscii x → after.head? = some x → ∀ n,
      (asBytes ((c :: after).take (2 + n))).length =
        2 + (asBytes ((after.drop 1).take n)).length := by
    intro x hx hhead n
    obtain ⟨rest, rfl⟩ := List.head?_eq_some_iff.1 hhead
    exact length_asBytes_take [c, x] (by simp [hc, hx]) n
  have hdrop : ∀ {x : Char}, isAscii x → after.head? = some x →
      (asBytes after).drop 1 = asBytes (after.drop 1) := by
    intro x hx hhead
    obtain ⟨rest, rfl⟩ := List.head?_eq_some_iff.1 hhead
    rw [asBytes, utf8.text_cons_of_plain hx]
    rfl
  -- the tests of the step are the same for the bytes and for the characters
  by_cases hquote : c = '\'' ∨ c = '"' ∨ c = '`'
  · rw [tokenStep_quote hquote, tokenStep_quote hquote]
    simp only [Except.map, skipQuoted]
    rw [hopen, asBytes, utf8.reach_text (quotedInner_local c hc)]
    rfl
  by_cases hdash : c = '-' ∧ after.head? = some '-'
  · obtain ⟨rfl, hnext⟩ := hdash
    rw [tokenStep_dash hnext, tokenStep_dash ((head?_asBytes rfl _).2 hnext)]
    simp only [Except.map]
    rw [htwo rfl hnext, hdrop rfl hnext, skipLineComment_asBytes]
  by_cases hhash : c = '#' ∧ after.head?.all fun c ↦ c == '!' || isAsciiWhitespace c
  · obtain ⟨rfl, hnext⟩ := hhash
    rw [tokenStep_hash hnext, tokenStep_hash ((hash_asBytes _).trans hnext)]
    simp only [Except.map]
    rw [hopen, skipLineComment_asBytes]
  by_cases hslash : c = '/' ∧ after.head? = some '/'
  · obtain ⟨rfl, hnext⟩ := hslash
    rw [tokenStep_slash hnext, tokenStep_slash ((head?_asBytes rfl _).2 hnext)]
    simp only [Except.map]
    rw [htwo rfl hnext, hdrop rfl hnext, skipLineComment_asBytes]
  by_cases hblock : c = '/' ∧ after.head? = some '*'
  · obtain ⟨rfl, hnext⟩ := hblock
    rw [tokenStep_block hnext, tokenStep_block ((head?_asBytes rfl _).2 hnext)]
    simp only [Except.map, skipNestedBlockComment]
    rw [htwo rfl hnext, hdrop rfl hnext, asBytes, utf8.reach_text nestedInner_local]
    rfl
  by_cases hdollar : c = '$'
  · subst hdollar
    rw [tokenStep_dollar, tokenStep_dollar, clickhouseHeredocEnd_asBytes h]
    rcases clickhouseHeredocEnd before after with _ | n
    · simp only [Option.map_none, Except.map, hone]
    · rfl
  by_cases hleft : c = '('
  · subst hleft
    rw [tokenStep_left, tokenStep_left]
    simp only [Except.map, hone]
  by_cases hright : c = ')'
  · subst hright
    rw [tokenStep_right, tokenStep_right]
    simp only [Except.map, hone]
  by_cases hword : isWordChar c
  · have hrun : (asBytes after).takeWhile isWordChar = after.takeWhile isWordChar :=
      utf8.takeWhile_text_of_plain (fun c hc ↦ isWordChar_of_beyond hc) after
    have hself : asBytes (after.takeWhile isWordChar) = after.takeWhile isWordChar :=
      asBytes_eq_self fun x hx ↦ isAscii_of_isWordChar (List.mem_takeWhile_imp hx)
    rw [tokenStep_word hword, tokenStep_word hword, hrun]
    simp only [Except.map, Nat.add_comm _ 1, hopen]
    rw [← List.prefix_iff_eq_take.1 (List.takeWhile_prefix _), hself]
  by_cases hspace : isAsciiWhitespace c
  · rw [tokenStep_space hspace, tokenStep_space hspace]
    simp only [Except.map, hone]
  rw [tokenStep_other hquote hdash hhash hslash hblock hdollar hleft hright hword hspace,
    tokenStep_other hquote (by rwa [head?_asBytes rfl]) (by rwa [hash_asBytes])
      (by rwa [head?_asBytes rfl]) (by rwa [head?_asBytes rfl]) hdollar hleft hright hword hspace]
  simp only [Except.map, hone]

theorem tokenStep_pos {st' : TokenState} {after : List Char} {n : ℕ}
    (h : tokenStep st before c after = .ok (st', n)) : 0 < n := by
  simp only [tokenStep, ite_eq_iff] at h
  obtain ⟨-, h⟩ | ⟨-, ⟨-, h⟩ | ⟨-, ⟨-, h⟩ | ⟨-, ⟨-, h⟩ | ⟨-, ⟨-, h⟩ | ⟨-, ⟨-, h⟩ | ⟨-, ⟨-, h⟩ | ⟨-, ⟨-, h⟩ |
    ⟨-, ⟨-, h⟩ | ⟨-, ⟨-, h⟩ | ⟨-, h⟩⟩⟩⟩⟩⟩⟩⟩⟩⟩ := h
  all_goals try first
    | (cases h; exact Nat.succ_pos _)
    | (cases h; rw [skipQuoted]; omega)
    | (cases h; omega)
  · rcases hend : clickhouseHeredocEnd before after with _ | m <;> rw [hend] at h <;> cases h
    · exact Nat.one_pos
    · rw [clickhouseHeredocEnd] at hend
      split_ifs at hend
      rcases htag : heredocTag after with _ | tag <;> rw [htag] at hend
      · cases hend
      · rcases hsub : findSub (Sql.dollarDelimiter tag) (after.drop (tag.length + 1)) with _ | offset
        all_goals
          simp only [hsub, Option.some.injEq] at hend
          omega

/-- **All steps.** The classifier finds the same tokens in the bytes and in the characters. -/
theorem scan_tokenStep_asBytes (st : TokenState) (h : Synced bytesBefore before) :
    scan tokenStep st bytesBefore (asBytes rest) = scan tokenStep st before rest := by
  induction before, rest using cursorInduction generalizing st bytesBefore with
  | nil before => rfl
  | cons before c after ih =>
    by_cases hc : isAscii c
    · have hcons : asBytes (c :: after) = c :: asBytes after := utf8.text_cons_of_plain hc after
      rcases hstep : tokenStep st before c after with e | ⟨st', n⟩
      · exact e.elim
      have hn : 0 < n := tokenStep_pos hstep
      have hbytes : tokenStep st bytesBefore c (asBytes after) =
          .ok (st', (asBytes ((c :: after).take n)).length) := by
        rw [tokenStep_asBytes h st hc, hstep]
        rfl
      have hdrop : (asBytes (c :: after)).drop (asBytes ((c :: after).take n)).length =
          asBytes ((c :: after).drop n) := utf8.drop_text n (c :: after)
      rw [scan_cons_of_step hstep hn, hcons, scan_cons_of_step hbytes (tokenStep_pos hbytes), ← hcons,
        hdrop]
      exact ih n hn st' (synced_behind n h)
    · have hc' : isAscii c = false := by simpa using hc
      obtain ⟨b, bs, hbs, hb, hall⟩ := utf8.exists_encode_eq_cons hc'
      have hcons : asBytes (c :: after) = (b :: bs) ++ asBytes after := by
        rw [asBytes, utf8.text_cons, hbs]
        rfl
      rw [scan_cons_of_step (tokenStep_of_beyond st before after hc') Nat.one_pos, hcons,
        scan_beyond st bytesBefore hb hall]
      refine ih 1 Nat.one_pos st.boundary ?_
      have hsync := synced_of_reverse_append (l := [c]) h
      rw [show asBytes [c] = b :: bs by rw [asBytes, utf8.text_cons, hbs]; simp] at hsync
      exact hsync

/-- The tokens of a text, read by characters. -/
theorem scanTopLevelTokens_eq (sql : String) (h : scan tokenStep {} [] sql.toList = .ok st) :
    scanTopLevelTokens sql = st.tokens := by
  rw [scanTopLevelTokens, scan_tokenStep_asBytes {} (rfl : Synced [] []), h]

end ClickHouse
