import NexusPilot.ClickHouse.Normalize

/-!
# White space in a heredoc

A space behind the opening `$tag$` of a heredoc changes its text. The scanners of the source do not know heredocs:
for them a `$` is one more symbol, behind which white space is dropped. So that each expression with a heredoc has another
one that is compared as equal (`exists_collision`).
-/

namespace ClickHouse

open Text

/-! ### Where a heredoc ends -/

variable {delimiter s u v s' rest : List Char} {p : Char → Bool}

theorem splitDelimiter_eq_none_iff (hne : delimiter ≠ []) :
    splitDelimiter delimiter s = none ↔ ¬ delimiter <:+: s := by
  induction s with
  | nil => exact ⟨fun _ h ↦ hne (List.infix_nil.1 h), fun _ ↦ rfl⟩
  | cons c rest ih =>
    rw [splitDelimiter, List.infix_cons_iff]
    split
    · next hhead => exact ⟨fun h ↦ absurd h (Option.some_ne_none _), fun h ↦ absurd (.inl (List.isPrefixOf_iff_prefix.1 hhead)) h⟩
    · next hhead =>
      rw [Option.map_eq_none_iff, ih, not_or]
      exact ⟨fun h ↦ ⟨fun hpre ↦ hhead (List.isPrefixOf_iff_prefix.2 hpre), h⟩, And.right⟩

/-- What has no space is on one side of a space. -/
theorem infix_of_spaced (hspace : ' ' ∉ delimiter) (h : delimiter <:+: u ++ ' ' :: v) :
    delimiter <:+: u ++ v := by
  obtain ⟨front, back, h⟩ := h
  obtain ⟨between, rfl, -⟩ | ⟨inside, hinside, hback⟩ := List.append_eq_append_iff.1 h
  · exact ⟨front, between ++ v, by simp⟩
  · cases inside with
    | nil =>
      rw [List.append_nil] at hinside
      exact ⟨front, v, by rw [hinside]⟩
    | cons c inside =>
      obtain ⟨rfl, rfl⟩ := List.cons.inj hback
      obtain ⟨between, -, hdelimiter⟩ | ⟨before, -, hbefore⟩ := List.append_eq_append_iff.1 hinside
      · exact absurd (hdelimiter ▸ List.mem_append_right _ List.mem_cons_self) hspace
      · cases before with
        | nil =>
          rw [List.nil_append] at hbefore
          exact absurd (hbefore ▸ List.mem_cons_self) hspace
        | cons d before =>
          obtain ⟨-, rfl⟩ := List.cons.inj hbefore
          exact ⟨u ++ before, back, by simp⟩

theorem splitDelimiter_spaced (hne : delimiter ≠ []) (hspace : ' ' ∉ delimiter)
    (h : splitDelimiter delimiter (u ++ v) = none) : splitDelimiter delimiter (u ++ ' ' :: v) = none :=
  (splitDelimiter_eq_none_iff hne).2 fun hinfix ↦
    (splitDelimiter_eq_none_iff hne).1 h (infix_of_spaced hspace hinfix)

theorem space_notMem_delimiter {tag : List Char} (htag : ∀ c ∈ tag, isNumberChar c = true) :
    ' ' ∉ '$' :: (tag ++ ['$']) := by
  intro hmem
  obtain hcontra | hmem := List.mem_cons.1 hmem
  · cases hcontra
  · obtain hmem | hmem := List.mem_append.1 hmem
    · cases htag ' ' hmem
    · cases List.mem_singleton.1 hmem

/-- A tag ends before a `$`. -/
theorem takeWhile_dollar (u v : List Char) : (u ++ '$' :: v).takeWhile isNumberChar = u.takeWhile isNumberChar := by
  induction u with
  | nil => rfl
  | cons c u ih =>
    rw [List.cons_append, List.takeWhile_cons, List.takeWhile_cons, ih]

/-- A space behind a `$` starts no heredoc. -/
theorem splitHeredoc_spaced (h : splitHeredoc (u ++ '$' :: v) = none) :
    splitHeredoc (u ++ '$' :: ' ' :: v) = none := by
  have htag : ∀ c ∈ u.takeWhile isNumberChar, isNumberChar c = true := fun c hc ↦ List.mem_takeWhile_imp hc
  simp only [splitHeredoc, takeWhile_dollar] at h ⊢
  have hu : u = u.takeWhile isNumberChar ++ u.dropWhile isNumberChar := List.takeWhile_append_dropWhile.symm
  generalize u.takeWhile isNumberChar = tag, u.dropWhile isNumberChar = behind at *
  subst hu
  rw [List.append_assoc, List.drop_left, ← List.drop_drop, List.drop_left] at h ⊢
  have hspace := space_notMem_delimiter htag
  have hne : '$' :: (tag ++ ['$']) ≠ [] := List.cons_ne_nil _ _
  cases behind with
  | nil =>
    rw [List.nil_append, if_pos (by rfl), Option.map_eq_none_iff] at h ⊢
    exact splitDelimiter_spaced (u := []) hne hspace h
  | cons d behind =>
    rw [List.cons_append] at h ⊢
    simp only [List.head?_cons, Option.some.injEq] at h ⊢
    split at h
    · next hd =>
      rw [if_pos hd]
      rw [Option.map_eq_none_iff] at h ⊢
      have hafter : ∀ w, List.drop 1 (d :: (behind ++ '$' :: w)) = (behind ++ ['$']) ++ w := fun w ↦ by simp
      rw [hafter] at h ⊢
      exact splitDelimiter_spaced hne hspace h
    · next hd => rw [if_neg hd]

/-! ### The token before -/

theorem takeWhile_append_of_head? {word : List Char} (hword : ∀ c ∈ word, p c = true)
    (hs : s.head?.any p = false) : (word ++ s).takeWhile p = word ∧ (word ++ s).dropWhile p = s := by
  have hnone : s.takeWhile p = [] ∧ s.dropWhile p = s := by
    cases s with
    | nil => exact ⟨rfl, rfl⟩
    | cons c rest =>
      exact ⟨List.takeWhile_cons_of_neg (Bool.eq_false_iff.1 hs), List.dropWhile_cons_of_neg (Bool.eq_false_iff.1 hs)⟩
  rw [List.takeWhile_append_of_pos hword, List.dropWhile_append_of_pos hword, hnone.1, hnone.2, List.append_nil]
  exact ⟨rfl, rfl⟩

/-- The text with a space behind one of its `$`. -/
def SpacedAt (s s' : List Char) : Prop :=
  ∃ u v, s = u ++ '$' :: v ∧ s' = u ++ '$' :: ' ' :: v

theorem SpacedAt.head? {s s' : List Char} (h : SpacedAt s s') : s'.head? = s.head? := by
  obtain ⟨u, v, rfl, rfl⟩ := h
  cases u with
  | nil => rfl
  | cons c u => rfl

theorem SpacedAt.append (h : SpacedAt s s') (front : List Char) :
    SpacedAt (front ++ s) (front ++ s') := by
  obtain ⟨u, v, rfl, rfl⟩ := h
  exact ⟨front ++ u, v, by simp, by simp⟩

theorem SpacedAt.splitHeredoc {s s' : List Char} (h : SpacedAt s s') (hnone : splitHeredoc s = none) :
    splitHeredoc s' = none := by
  obtain ⟨u, v, rfl, rfl⟩ := h
  exact splitHeredoc_spaced hnone

/-- The characters of a word are cut off in the same way when the text behind them gets a space. -/
theorem takeWhile_spaced (hspaced : SpacedAt (rest.dropWhile p) s') :
    (rest.takeWhile p ++ s').takeWhile p = rest.takeWhile p ∧ (rest.takeWhile p ++ s').dropWhile p = s' ∧
      SpacedAt rest (rest.takeWhile p ++ s') := by
  have hhead : s'.head?.any p = false := by rw [hspaced.head?]; exact head?_dropWhile_any rest
  obtain ⟨htake, hdrop⟩ := takeWhile_append_of_head? (fun c hc ↦ List.mem_takeWhile_imp (l := rest) hc) hhead
  have hrest := hspaced.append (rest.takeWhile p)
  rw [List.takeWhile_append_dropWhile] at hrest
  exact ⟨htake, hdrop, hrest⟩

/-- A token that is no heredoc is cut off in the same way when the text behind it gets a space. -/
theorem nextToken_spaced {c : Char} (haccepts : Accepts (c :: rest))
    (hheredoc : ∀ text, (nextToken c rest).1 ≠ .heredoc text) (hspaced : SpacedAt (nextToken c rest).2 s') :
    ∃ front, rest = front ++ (nextToken c rest).2 ∧ nextToken c (front ++ s') = ((nextToken c rest).1, s') := by
  cases hquote : opensQuote c with
  | true =>
    obtain ⟨delimiters, h⟩ := haccepts
    rw [scanBoundary_quote hquote] at h
    obtain ⟨⟨body, after⟩, hsplit⟩ := Option.ne_none_iff_exists'.1 (splitQuoted_of_scanBoundary h)
    have hnext : nextToken c rest = (.quoted c body, after) := by rw [nextToken, if_pos hquote, hsplit]
    rw [hnext] at hspaced ⊢
    obtain ⟨rfl, hbody, hafter⟩ := splitQuoted_eq_some hsplit
    refine ⟨body ++ [c], by simp, ?_⟩
    rw [List.append_assoc, List.singleton_append, nextToken, if_pos hquote,
      splitQuoted_body hquote hbody (by rwa [hspaced.head?])]
  | false =>
    have hnot : ¬ opensQuote c = true := by simp [hquote]
    by_cases hdollar : c = '$'
    · subst hdollar
      obtain hnone | ⟨⟨text, after⟩, hsome⟩ := Option.eq_none_or_eq_some (splitHeredoc rest)
      · cases hbare : rest.head?.any isBareChar with
        | true =>
          have hnext : nextToken '$' rest = (.word ('$' :: rest.takeWhile isBareChar), rest.dropWhile isBareChar) := by
            rw [nextToken, if_neg hnot, if_pos rfl, hnone]
            exact if_pos hbare
          rw [hnext] at hspaced ⊢
          obtain ⟨htake, hdrop, hrest⟩ := takeWhile_spaced hspaced
          refine ⟨_, List.takeWhile_append_dropWhile.symm, ?_⟩
          rw [nextToken, if_neg hnot, if_pos rfl, hrest.splitHeredoc hnone]
          simp only [hrest.head?, hbare, htake, hdrop, if_true]
        | false =>
          have hnext : nextToken '$' rest = (.symbol '$', rest) := by
            rw [nextToken, if_neg hnot, if_pos rfl, hnone]
            exact if_neg (by simp [hbare])
          rw [hnext] at hspaced ⊢
          refine ⟨[], rfl, ?_⟩
          rw [nextToken, if_neg hnot, if_pos rfl, List.nil_append, hspaced.splitHeredoc hnone]
          simp [hspaced.head?, hbare]
      · have hnext : nextToken '$' rest = (.heredoc text, after) := by
          rw [nextToken, if_neg hnot, if_pos rfl, hsome]
        exact absurd (congrArg Prod.fst hnext) (hheredoc text)
    · by_cases halpha : (c.isAlpha || c == '_') = true
      · have hnext : ∀ t, nextToken c t = (.word (c :: t.takeWhile isBareChar), t.dropWhile isBareChar) := fun t ↦ by
          rw [nextToken, if_neg hnot, if_neg hdollar, if_pos halpha]
        rw [hnext] at hspaced
        obtain ⟨htake, hdrop, -⟩ := takeWhile_spaced hspaced
        refine ⟨rest.takeWhile isBareChar, ?_, ?_⟩
        · rw [hnext, List.takeWhile_append_dropWhile]
        · rw [hnext, hnext, htake, hdrop]
      · by_cases hdigit : c.isDigit = true
        · have hnext : ∀ t, nextToken c t = (.number (c :: t.takeWhile isNumberChar), t.dropWhile isNumberChar) :=
            fun t ↦ by rw [nextToken, if_neg hnot, if_neg hdollar, if_neg halpha, if_pos hdigit]
          rw [hnext] at hspaced
          obtain ⟨htake, hdrop, -⟩ := takeWhile_spaced hspaced
          refine ⟨rest.takeWhile isNumberChar, ?_, ?_⟩
          · rw [hnext, List.takeWhile_append_dropWhile]
          · rw [hnext, hnext, htake, hdrop]
        · have hnext : ∀ t, nextToken c t = (.symbol c, t) := fun t ↦ by
            rw [nextToken, if_neg hnot, if_neg hdollar, if_neg halpha, if_neg hdigit]
          exact ⟨[], by rw [hnext, List.nil_append], by rw [hnext, hnext, List.nil_append]⟩

/-! ### A collision -/

section Collision

variable {alphanumeric : Char → Bool}

/-- Texts that the scanners do not tell apart, up to a space behind a `$`. -/
structure Alike (alphanumeric : Char → Bool) (s s' : List Char) : Prop where
  hspaced : SpacedAt s s'
  hscan : ∀ delimiters, scanBoundary ⟨delimiters, none, false⟩ s' = scanBoundary ⟨delimiters, none, false⟩ s
  hnormalized : ∀ pending word, normalizeFrom alphanumeric pending word s' = normalizeFrom alphanumeric pending word s

theorem Alike.cons {c : Char} {s s' : List Char} (hquote : opensQuote c = false) (h : Alike alphanumeric s s') :
    Alike alphanumeric (c :: s) (c :: s') := by
  have hnot : ¬ (c = '\'' ∨ c = '"' ∨ c = '\x60') := by
    rintro (rfl | rfl | rfl) <;> exact absurd hquote (by decide)
  refine ⟨h.hspaced.append [c], fun delimiters ↦ ?_, fun pending word ↦ ?_⟩
  · rw [scanBoundary.eq_def, scanBoundary.eq_def ⟨delimiters, none, false⟩ (c :: s)]
    simp only [hnot, if_false, startsComment, h.hspaced.head?, h.hscan]
  · cases hspace : isWhitespace c with
    | true => rw [normalizeFrom_space hspace, normalizeFrom_space hspace, h.hnormalized]
    | false => rw [normalizeFrom_plain hquote hspace, normalizeFrom_plain hquote hspace, h.hnormalized]

variable {front s s' text after rest : List Char} {c : Char}

theorem Alike.append (hfront : ∀ c ∈ front, opensQuote c = false) (h : Alike alphanumeric s s') :
    Alike alphanumeric (front ++ s) (front ++ s') := by
  induction front with
  | nil => exact h
  | cons c front ih => exact (ih fun d hd ↦ hfront d (List.mem_cons_of_mem _ hd)).cons (hfront c List.mem_cons_self)

theorem Alike.quoted {quote : Char} {body s s' : List Char} (hquote : opensQuote quote = true)
    (hbody : QuotedBody quote body) (hs : s.head? ≠ some quote) (h : Alike alphanumeric s s') :
    Alike alphanumeric (quote :: (body ++ quote :: s)) (quote :: (body ++ quote :: s')) := by
  have hspaced := h.hspaced.append (quote :: (body ++ [quote]))
  simp only [List.cons_append, List.append_assoc, List.nil_append] at hspaced
  refine ⟨hspaced, fun delimiters ↦ ?_, fun pending word ↦ ?_⟩
  · rw [scanBoundary_quote hquote, scanBoundary_quote hquote, scanBoundary_body hquote hbody _ hs,
      scanBoundary_body hquote hbody _ (by rwa [h.hspaced.head?]), h.hscan]
  · rw [normalizeFrom_quoted hquote hbody, normalizeFrom_quoted hquote hbody, h.hnormalized]

/-- White space behind a `$` is dropped. -/
theorem alike_dollar (hdollar : alphanumeric '$' = false) (s : List Char) :
    Alike alphanumeric ('$' :: s) ('$' :: ' ' :: s) := by
  refine ⟨⟨[], s, rfl, rfl⟩, fun delimiters ↦ ?_, fun pending word ↦ ?_⟩
  · have hskip : ∀ {c : Char} (t : List Char), c = '$' ∨ c = ' ' →
        scanBoundary ⟨delimiters, none, false⟩ (c :: t) = scanBoundary ⟨delimiters, none, false⟩ t := by
      rintro c t (rfl | rfl) <;> rw [scanBoundary.eq_def] <;> simp [startsComment]
    rw [hskip _ (.inl rfl), hskip _ (.inr rfl), hskip _ (.inl rfl)]
  · have hword : isWord alphanumeric '$' = false := by simp [isWord, hdollar]
    have hstep : ∀ t, normalizeFrom alphanumeric pending word ('$' :: t) =
        spaceIf (pending && word && isWord alphanumeric '$') ++
          '$' :: normalizeFrom alphanumeric false (isWord alphanumeric '$') t :=
      fun t ↦ normalizeFrom_plain rfl rfl pending word t
    rw [hstep, hstep, hword, normalizeFrom_space rfl, normalizeFrom_false]

/-- What a heredoc is made of. -/
theorem splitHeredoc_eq_some (h : splitHeredoc s = some (text, after)) :
    ∃ tag inner behind, (∀ c ∈ tag, isNumberChar c = true) ∧ s = tag ++ '$' :: behind ∧
      splitDelimiter ('$' :: (tag ++ ['$'])) behind = some (inner, after) ∧
      text = '$' :: (tag ++ ['$']) ++ inner ++ '$' :: (tag ++ ['$']) := by
  simp only [splitHeredoc] at h
  have hs : s = s.takeWhile isNumberChar ++ s.dropWhile isNumberChar := List.takeWhile_append_dropWhile.symm
  have htag : ∀ c ∈ s.takeWhile isNumberChar, isNumberChar c = true := fun c hc ↦ List.mem_takeWhile_imp hc
  generalize s.takeWhile isNumberChar = tag, s.dropWhile isNumberChar = behind at *
  subst hs
  rw [← List.drop_drop, List.drop_left] at h
  split at h
  · next hhead =>
    obtain ⟨⟨inner, after'⟩, hsplit, h⟩ := Option.map_eq_some_iff.1 h
    cases h
    obtain ⟨d, behind, rfl⟩ := List.exists_cons_of_ne_nil (l := behind) (by rintro rfl; cases hhead)
    cases hhead
    exact ⟨tag, inner, behind, htag, rfl, hsplit, rfl⟩
  · cases h

/-- A space behind the opening `$tag$` is part of the heredoc. -/
theorem splitHeredoc_space {tag inner behind : List Char} (htag : ∀ c ∈ tag, isNumberChar c = true)
    (h : splitDelimiter ('$' :: (tag ++ ['$'])) behind = some (inner, after)) :
    splitHeredoc (tag ++ '$' :: ' ' :: behind) =
      some ('$' :: (tag ++ ['$']) ++ ' ' :: inner ++ '$' :: (tag ++ ['$']), after) := by
  have htake := (takeWhile_append_of_head? (s := '$' :: ' ' :: behind) htag rfl).1
  have hspace : splitDelimiter ('$' :: (tag ++ ['$'])) (' ' :: behind) = some (' ' :: inner, after) := by
    rw [splitDelimiter, if_neg (by simp [List.isPrefixOf]), h]
    rfl
  simp only [splitHeredoc, htake]
  rw [← List.drop_drop, List.drop_left]
  simp [hspace]

theorem quotedTokens_cons (c : Char) (rest : List Char) :
    quotedTokens (c :: rest) =
      (if (nextToken c rest).1.isQuoted then [(nextToken c rest).1] else []) ++ quotedTokens (nextToken c rest).2 := by
  rw [quotedTokens, expressionTokens_cons, List.filter_cons]
  split <;> rfl

/-- Behind a token that is no heredoc, the scanners do not tell the texts apart either. -/
theorem Alike.of_nextToken (haccepts : Accepts (c :: rest))
    (hheredoc : ∀ text, (nextToken c rest).1 ≠ .heredoc text) (hrest : rest = front ++ (nextToken c rest).2)
    (h : Alike alphanumeric (nextToken c rest).2 s') : Alike alphanumeric (c :: rest) (c :: (front ++ s')) := by
  have hsymbol := (accepts_nextToken haccepts hheredoc).2
  have hsplit : c :: rest = c :: front ++ (nextToken c rest).2 := congrArg (c :: ·) hrest
  have hcut := cut_nextToken c rest
  rw [hsplit] at hcut ⊢
  generalize (nextToken c rest).1 = token, (nextToken c rest).2 = after at hcut hheredoc hsymbol h ⊢
  show Alike alphanumeric (c :: front ++ after) (c :: front ++ s')
  generalize hfront : c :: front = piece at hcut ⊢
  generalize hs : piece ++ after = s at hcut
  cases hcut with
  | heredoc hlength => exact absurd rfl (hheredoc _)
  | @quoted quote body _ hquote hbody hafter =>
    have hpiece : piece = quote :: (body ++ [quote]) := List.append_cancel_right (hs.trans (by simp))
    rw [hpiece]
    have hquoted := h.quoted hquote hbody hafter
    simpa using hquoted
  | unclosed hquote hnone =>
    rw [(hsymbol _ rfl).1] at hquote
    cases hquote
  | @word d word _ hfirst hword hafter =>
    have hbare : ∀ e ∈ d :: word, isBareChar e = true := List.forall_mem_cons.2 ⟨isBareChar_first hfirst, hword⟩
    rw [List.append_cancel_right hs]
    exact h.append fun e he ↦ opensQuote_of_isBareChar (hbare e he)
  | number hfirst hword hafter =>
    rw [List.append_cancel_right hs]
    refine h.append fun d hd ↦ opensQuote_of_isBareChar ?_
    obtain rfl | hd := List.mem_cons.1 hd
    · simp [isBareChar, isNumberChar, Char.isAlphanum, hfirst]
    · simp [isBareChar, hword d hd]
  | @symbol d _ hquote halpha hdigit =>
    rw [List.append_cancel_right (hs.trans (List.singleton_append (x := d) (l := after)).symm)]
    exact h.cons hquote

/-- Only a `$` starts a heredoc. -/
theorem nextToken_eq_heredoc (h : (nextToken c rest).1 = .heredoc text) :
    c = '$' ∧ splitHeredoc rest = some (text, (nextToken c rest).2) := by
  rw [nextToken] at h ⊢
  split_ifs at h ⊢ with hquote hdollar halpha hdigit
  · split at h <;> cases h
  · split at h
    · next hsome =>
      cases h
      exact ⟨hdollar, hsome⟩
    · cases h
  · split at h
    · next hsome =>
      cases h
      exact ⟨hdollar, hsome⟩
    · cases h

/-- **Each expression with a heredoc collides** with another one, which the scanners take for the same while its quoted
tokens differ. -/
theorem exists_collision (hdollar : alphanumeric '$' = false) (s : List Char) (haccepts : Accepts s)
    (h : ∃ text, .heredoc text ∈ expressionTokens s) :
    ∃ s', Alike alphanumeric s s' ∧ quotedTokens s' ≠ quotedTokens s := by
  induction s using tokens_induction with
  | nil => simp at h
  | cons c rest ih =>
    by_cases hheredoc : ∃ text, (nextToken c rest).1 = .heredoc text
    · obtain ⟨text, hnext⟩ := hheredoc
      obtain ⟨rfl, hsplit⟩ := nextToken_eq_heredoc hnext
      obtain ⟨tag, inner, behind, htag, rfl, hinner, rfl⟩ := splitHeredoc_eq_some hsplit
      have hplain : ∀ c ∈ '$' :: tag, opensQuote c = false := fun c hc ↦ opensQuote_of_isBareChar (by
        obtain rfl | hc := List.mem_cons.1 hc
        · rfl
        · simp [isBareChar, htag c hc])
      refine ⟨'$' :: (tag ++ '$' :: ' ' :: behind), (alike_dollar hdollar behind).append hplain, ?_⟩
      have hspaced : nextToken '$' (tag ++ '$' :: ' ' :: behind) =
          (.heredoc ('$' :: (tag ++ ['$']) ++ ' ' :: inner ++ '$' :: (tag ++ ['$'])),
            (nextToken '$' (tag ++ '$' :: behind)).2) := by
        rw [nextToken, if_neg (by decide), if_pos rfl, splitHeredoc_space htag hinner]
      rw [quotedTokens_cons, quotedTokens_cons, hspaced, hnext]
      -- the texts of the heredocs differ by the space
      intro heq
      have hhead := ExpressionToken.heredoc.inj (List.head_eq_of_cons_eq heq)
      have hlength := congrArg List.length hhead
      simp at hlength
    · have hno : ∀ text, (nextToken c rest).1 ≠ .heredoc text := fun text heq ↦ hheredoc ⟨text, heq⟩
      obtain ⟨text, hmem⟩ := h
      rw [expressionTokens_cons] at hmem
      have hlater := (List.mem_cons.1 hmem).resolve_left fun heq ↦ hno text heq.symm
      obtain ⟨s', halike, hne⟩ := ih (accepts_nextToken haccepts hno).1 ⟨text, hlater⟩
      obtain ⟨front, hrest, hnext⟩ := nextToken_spaced haccepts hno halike.hspaced
      refine ⟨c :: (front ++ s'), halike.of_nextToken haccepts hno hrest, ?_⟩
      rw [quotedTokens_cons, quotedTokens_cons, hnext]
      exact fun heq ↦ hne (List.append_cancel_left heq)

end Collision

end ClickHouse
