import NexusPilot.ClickHouse.Expression

/-!
# How the server reads an expression

The tokens of an expression by the rules of the server: bare words of letters, digits, `_` and `$` that do not start
with a digit, numbers, values and names in quotes, in which a backslash takes the next character with it and a doubled
quote stands for itself, and heredocs `$tag$ … $tag$`. It is a specification: nothing here follows the scanners of the
source, which read the same texts by rules of their own.

What is compared with the scanners is that they cut an expression at the same places. `accepts_nextToken` is the part of
it that they share: an expression that is taken for one (`validate_single_expression`) is one behind each of its tokens
too, and none of its quotes is left open.
-/

namespace ClickHouse

open Text

/-! ### Tokens -/

inductive ExpressionToken
  | word (text : List Char)
  | number (text : List Char)
  /-- A string, or a name in double quotes or backticks: what stands between the quotes. -/
  | quoted (quote : Char) (body : List Char)
  | heredoc (text : List Char)
  | symbol (c : Char)
  deriving DecidableEq

/-- A character of a number, or of the tag of a heredoc. -/
def isNumberChar (c : Char) : Bool :=
  c.isAlphanum || c == '_'

/-- A character of a bare word. -/
def isBareChar (c : Char) : Bool :=
  isNumberChar c || c == '$'

/-- The character opens a quoted token. -/
def opensQuote (c : Char) : Bool :=
  c == '\'' || c == '"' || c == '\x60'

/-- What a quoted token holds, after its opening quote, and what is behind it. -/
def splitQuoted (quote : Char) : List Char → Option (List Char × List Char)
  | [] => none
  | [c] => if c = '\\' then none else if c = quote then some ([], []) else none
  | c :: d :: rest =>
    if c = '\\' then (splitQuoted quote rest).map fun split ↦ (c :: d :: split.1, split.2)
    else if c = quote then
      if d = quote then (splitQuoted quote rest).map fun split ↦ (c :: d :: split.1, split.2)
      else some ([], d :: rest)
    else (splitQuoted quote (d :: rest)).map fun split ↦ (c :: split.1, split.2)

/-- What stands before a delimiter, and what stands behind it. -/
def splitDelimiter (delimiter : List Char) : List Char → Option (List Char × List Char)
  | [] => none
  | c :: rest =>
    if delimiter.isPrefixOf (c :: rest) then some ([], (c :: rest).drop delimiter.length)
    else (splitDelimiter delimiter rest).map fun split ↦ (c :: split.1, split.2)

/-- A heredoc, after the `$` that it starts with, and what is behind it. -/
def splitHeredoc (after : List Char) : Option (List Char × List Char) :=
  let tag := after.takeWhile isNumberChar
  let delimiter := '$' :: (tag ++ ['$'])
  if (after.drop tag.length).head? = some '$' then
    (splitDelimiter delimiter (after.drop (tag.length + 1))).map fun split ↦
      (delimiter ++ split.1 ++ delimiter, split.2)
  else none

/-- The token that a character starts, and what is behind it. -/
def nextToken (c : Char) (rest : List Char) : ExpressionToken × List Char :=
  if opensQuote c then
    match splitQuoted c rest with
    | some (body, after) => (.quoted c body, after)
    | none => (.symbol c, rest)
  else if c = '$' then
    match splitHeredoc rest with
    | some (text, after) => (.heredoc text, after)
    | none =>
      if rest.head?.any isBareChar then (.word (c :: rest.takeWhile isBareChar), rest.dropWhile isBareChar)
      else (.symbol c, rest)
  else if c.isAlpha || c == '_' then (.word (c :: rest.takeWhile isBareChar), rest.dropWhile isBareChar)
  else if c.isDigit then (.number (c :: rest.takeWhile isNumberChar), rest.dropWhile isNumberChar)
  else (.symbol c, rest)

/-- The tokens of a text; a token takes a character at least, so that its length is fuel enough. -/
def tokensWith : ℕ → List Char → List ExpressionToken
  | 0, _ => []
  | _ + 1, [] => []
  | fuel + 1, c :: rest => (nextToken c rest).1 :: tokensWith fuel (nextToken c rest).2

/-- The tokens of an expression. -/
def expressionTokens (s : List Char) : List ExpressionToken :=
  tokensWith s.length s

/-! ### Quoted tokens -/

/-- What may stand between two quotes. -/
inductive QuotedBody (quote : Char) : List Char → Prop
  | nil : QuotedBody quote []
  | escape (d : Char) {rest : List Char} : QuotedBody quote rest → QuotedBody quote ('\\' :: d :: rest)
  | doubled {rest : List Char} : quote ≠ '\\' → QuotedBody quote rest → QuotedBody quote (quote :: quote :: rest)
  | plain {c : Char} {rest : List Char} : c ≠ '\\' → c ≠ quote → QuotedBody quote rest → QuotedBody quote (c :: rest)

variable {quote c : Char} {s body after delimiters rest : List Char} {split : List Char × List Char}
  {input path : String}

/-- A quoted token is a body between its quotes, and the quote that closes it is not doubled. -/
theorem splitQuoted_eq_some (h : splitQuoted quote s = some (body, after)) :
    s = body ++ quote :: after ∧ QuotedBody quote body ∧ after.head? ≠ some quote := by
  fun_induction splitQuoted quote s generalizing body after with
  | case1 => cases h
  | case2 => cases h
  | case3 =>
    cases h
    exact ⟨rfl, .nil, nofun⟩
  | case4 => cases h
  | case5 d rest ih =>
    obtain ⟨⟨body, after⟩, hsplit, h⟩ := Option.map_eq_some_iff.1 h
    cases h
    obtain ⟨rfl, hbody, hafter⟩ := ih hsplit
    exact ⟨rfl, .escape d hbody, hafter⟩
  | case6 rest hne ih =>
    obtain ⟨⟨body, after⟩, hsplit, h⟩ := Option.map_eq_some_iff.1 h
    cases h
    obtain ⟨rfl, hbody, hafter⟩ := ih hsplit
    exact ⟨rfl, .doubled hne hbody, hafter⟩
  | case7 d rest hd =>
    cases h
    exact ⟨rfl, .nil, fun hhead ↦ hd (Option.some.inj hhead)⟩
  | case8 c d rest hescape hquote ih =>
    obtain ⟨⟨body, after⟩, hsplit, h⟩ := Option.map_eq_some_iff.1 h
    cases h
    obtain ⟨hrest, hbody, hafter⟩ := ih hsplit
    exact ⟨congrArg (c :: ·) hrest, .plain hescape hquote hbody, hafter⟩

theorem splitDelimiter_length_lt {delimiter : List Char} (hne : delimiter ≠ [])
    (h : splitDelimiter delimiter s = some split) : split.2.length < s.length := by
  induction s generalizing split with
  | nil => cases h
  | cons c rest ih =>
    rw [splitDelimiter] at h
    split at h
    · cases h
      have hlength : 0 < delimiter.length := List.length_pos_iff.2 hne
      rw [List.length_drop, List.length_cons]
      omega
    · obtain ⟨split', hsplit, rfl⟩ := Option.map_eq_some_iff.1 h
      exact (ih hsplit).trans (Nat.lt_succ_self _)

theorem splitHeredoc_length_lt (h : splitHeredoc s = some split) :
    split.2.length < s.length := by
  rw [splitHeredoc] at h
  split at h
  · obtain ⟨split', hsplit, rfl⟩ := Option.map_eq_some_iff.1 h
    refine (splitDelimiter_length_lt (List.cons_ne_nil _ _) hsplit).trans_le ?_
    rw [List.length_drop]
    omega
  · cases h

/-! ### One token -/

/-- How a token is cut off the front of a text. -/
inductive Cut : List Char → ExpressionToken → List Char → Prop
  | quoted {quote : Char} {body after : List Char} (hquote : opensQuote quote = true) (hbody : QuotedBody quote body)
      (hafter : after.head? ≠ some quote) : Cut (quote :: (body ++ quote :: after)) (.quoted quote body) after
  | unclosed {quote : Char} {rest : List Char} (hquote : opensQuote quote = true) (hnone : splitQuoted quote rest = none) :
      Cut (quote :: rest) (.symbol quote) rest
  | heredoc {text rest after : List Char} (hlength : after.length ≤ rest.length) :
      Cut ('$' :: rest) (.heredoc text) after
  | word {c : Char} {word after : List Char} (hfirst : c.isAlpha = true ∨ c = '_' ∨ c = '$')
      (hword : ∀ d ∈ word, isBareChar d = true) (hafter : after.head?.any isBareChar = false) :
      Cut (c :: word ++ after) (.word (c :: word)) after
  | number {c : Char} {word after : List Char} (hfirst : c.isDigit = true) (hword : ∀ d ∈ word, isNumberChar d = true)
      (hafter : after.head?.any isNumberChar = false) : Cut (c :: word ++ after) (.number (c :: word)) after
  | symbol {c : Char} {rest : List Char} (hquote : opensQuote c = false) (halpha : (c.isAlpha || c == '_') = false)
      (hdigit : c.isDigit = false) : Cut (c :: rest) (.symbol c) rest

theorem head?_dropWhile_any {p : Char → Bool} (s : List Char) : (s.dropWhile p).head?.any p = false := by
  have h := List.head?_dropWhile_not p s
  obtain hnone | ⟨c, hsome⟩ := Option.eq_none_or_eq_some (s.dropWhile p).head?
  · rw [hnone]
    rfl
  · rw [hsome] at h ⊢
    simpa using h

theorem cut_word (hfirst : c.isAlpha = true ∨ c = '_' ∨ c = '$') (rest : List Char) :
    Cut (c :: rest) (.word (c :: rest.takeWhile isBareChar)) (rest.dropWhile isBareChar) := by
  have hcut := Cut.word hfirst (fun d hd ↦ List.mem_takeWhile_imp (l := rest) hd) (head?_dropWhile_any rest)
  rwa [List.cons_append, List.takeWhile_append_dropWhile] at hcut

theorem cut_number (hfirst : c.isDigit = true) (rest : List Char) :
    Cut (c :: rest) (.number (c :: rest.takeWhile isNumberChar)) (rest.dropWhile isNumberChar) := by
  have hcut := Cut.number hfirst (fun d hd ↦ List.mem_takeWhile_imp (l := rest) hd) (head?_dropWhile_any rest)
  rwa [List.cons_append, List.takeWhile_append_dropWhile] at hcut

theorem cut_nextToken (c : Char) (rest : List Char) :
    Cut (c :: rest) (nextToken c rest).1 (nextToken c rest).2 := by
  rw [nextToken]
  split
  · next hquote =>
    split
    · next body after hsplit =>
      obtain ⟨rfl, hbody, hafter⟩ := splitQuoted_eq_some hsplit
      exact .quoted hquote hbody hafter
    · next hnone => exact .unclosed hquote hnone
  · next hquote =>
    split
    · next hdollar =>
      subst hdollar
      split
      · next text after hsplit => exact .heredoc (splitHeredoc_length_lt hsplit).le
      · split
        · exact cut_word (.inr (.inr rfl)) rest
        · exact .symbol rfl rfl rfl
    · split
      · next halpha =>
        refine cut_word ?_ rest
        obtain h | h := Bool.or_eq_true_iff.1 halpha
        · exact .inl h
        · exact .inr (.inl (beq_iff_eq.1 h))
      · next halpha =>
        split
        · next hdigit => exact cut_number hdigit rest
        · next hdigit =>
          exact .symbol (Bool.eq_false_iff.2 hquote) (Bool.eq_false_iff.2 halpha) (Bool.eq_false_iff.2 hdigit)

theorem length_nextToken_le (c : Char) (rest : List Char) : (nextToken c rest).2.length ≤ rest.length := by
  have hcut := cut_nextToken c rest
  generalize (nextToken c rest).1 = token, (nextToken c rest).2 = after, hs : c :: rest = s at hcut
  cases hcut with
  | quoted hquote hbody hafter =>
    obtain ⟨-, rfl⟩ := List.cons.inj hs
    simp
    omega
  | unclosed hquote hnone => exact Nat.le_of_eq (congrArg List.length (List.cons.inj hs).2.symm)
  | heredoc hlength => exact (List.cons.inj hs).2 ▸ hlength
  | word hfirst hword hafter | number hfirst hword hafter =>
    obtain ⟨-, rfl⟩ := List.cons.inj hs
    simp
  | symbol hquote halpha hdigit => exact Nat.le_of_eq (congrArg List.length (List.cons.inj hs).2.symm)

/-! ### All tokens -/

/-- More fuel than the length of a text makes no difference. -/
theorem tokensWith_congr {fuel fuel' : ℕ} (h : s.length ≤ fuel) (h' : s.length ≤ fuel') :
    tokensWith fuel s = tokensWith fuel' s := by
  induction fuel generalizing fuel' s with
  | zero =>
    obtain rfl := List.length_eq_zero_iff.1 (Nat.le_zero.1 h)
    cases fuel' <;> rfl
  | succ fuel ih =>
    cases s with
    | nil => cases fuel' <;> rfl
    | cons c rest =>
      obtain ⟨fuel', rfl⟩ := Nat.exists_eq_add_one_of_ne_zero (Nat.ne_of_gt (Nat.lt_of_lt_of_le (Nat.succ_pos _) h'))
      have hle := length_nextToken_le c rest
      rw [tokensWith, tokensWith, ih (hle.trans (Nat.le_of_succ_le_succ h)) (hle.trans (Nat.le_of_succ_le_succ h'))]

@[simp]
theorem expressionTokens_nil : expressionTokens [] = [] :=
  rfl

theorem expressionTokens_cons (c : Char) (rest : List Char) :
    expressionTokens (c :: rest) = (nextToken c rest).1 :: expressionTokens (nextToken c rest).2 := by
  rw [expressionTokens, expressionTokens, tokensWith_congr (le_refl _) (length_nextToken_le c rest)]
  rfl

/-- Induction along the tokens of a text. -/
theorem tokens_induction {motive : List Char → Prop} (nil : motive [])
    (cons : ∀ c rest, motive (nextToken c rest).2 → motive (c :: rest)) (s : List Char) : motive s := by
  induction hlength : s.length using Nat.strongRecOn generalizing s with
  | _ length ih =>
    cases s with
    | nil => exact nil
    | cons c rest =>
      refine cons c rest (ih _ ?_ _ rfl)
      rw [← hlength]
      exact Nat.lt_succ_of_le (length_nextToken_le c rest)

/-! ### Expressions that are taken for one -/

/-- Between two tokens, the rest of the text is taken. -/
def Accepts (s : List Char) : Prop :=
  ∃ delimiters, scanBoundary ⟨delimiters, none, false⟩ s = .ok ()

theorem validateSingleExpression_eq_ok (htrim : trim input.toList ≠ [])
    (hscan : scanBoundary {} input.toList = .ok ()) : validateSingleExpression input path = .ok () := by
  rw [validateSingleExpression, if_neg htrim, hscan]

theorem accepts_of_validate (h : validateSingleExpression input path = .ok ()) :
    Accepts input.toList := by
  rw [validateSingleExpression] at h
  split at h
  · cases h
  · split at h
    · cases h
    · next hok => exact ⟨[], hok⟩

/-- The scanner passes a quoted body. -/
theorem scanBoundary_body (hquote : opensQuote quote = true) (hbody : QuotedBody quote body)
    (delimiters : List Char) (hafter : after.head? ≠ some quote) :
    scanBoundary ⟨delimiters, some quote, false⟩ (body ++ quote :: after) =
      scanBoundary ⟨delimiters, none, false⟩ after := by
  have hescape : quote ≠ '\\' := by
    rintro rfl
    cases hquote
  induction hbody with
  | nil =>
    cases after with
    | nil => simp [scanBoundary, hescape]
    | cons d after =>
      have hd : d ≠ quote := fun heq ↦ hafter (by rw [heq]; rfl)
      rw [List.nil_append, scanBoundary.eq_def]
      simp [hescape, hd]
  | escape d hbody ih =>
    rw [← ih]
    simp [scanBoundary]
  | doubled hne hbody ih =>
    rw [← ih]
    simp [scanBoundary, hescape]
  | plain hc hquote' hbody ih =>
    rw [← ih]
    simp [scanBoundary, hc, hquote']

/-- A quote that the scanner gets past is closed. -/
theorem splitQuoted_of_scanBoundary (h : scanBoundary ⟨delimiters, some quote, false⟩ s = .ok ()) :
    splitQuoted quote s ≠ none := by
  fun_induction splitQuoted quote s with
  | case1 => simp [scanBoundary] at h
  | case2 => simp [scanBoundary] at h
  | case3 => exact Option.some_ne_none _
  | case4 c hescape hquote => simp [scanBoundary, hescape, hquote] at h
  | case5 d rest ih =>
    simp only [scanBoundary, if_true] at h
    exact fun hnone ↦ ih h (Option.map_eq_none_iff.1 hnone)
  | case6 rest hescape ih =>
    simp only [scanBoundary, hescape, if_true] at h
    exact fun hnone ↦ ih h (Option.map_eq_none_iff.1 hnone)
  | case7 => exact Option.some_ne_none _
  | case8 c d rest hescape hquote ih =>
    rw [scanBoundary.eq_def] at h
    simp only [hescape, hquote, if_false] at h
    exact fun hnone ↦ ih h (Option.map_eq_none_iff.1 hnone)

/-- No symbol that a scanner looks for is in a bare word. -/
theorem notMem_of_isBareChar (hc : isBareChar c = true) :
    c ∉ ['\'', '"', '\x60', '-', '#', '/', '(', '[', '{', ')', ']', '}', ';'] := by
  intro hmem
  have hnone : (['\'', '"', '\x60', '-', '#', '/', '(', '[', '{', ')', ']', '}', ';'].all fun d ↦ !isBareChar d) =
      true := by decide
  have hfalse := List.all_eq_true.1 hnone c hmem
  rw [hc] at hfalse
  cases hfalse

theorem isBareChar_first (h : c.isAlpha = true ∨ c = '_' ∨ c = '$') : isBareChar c = true := by
  obtain h | rfl | rfl := h
  · simp [isBareChar, isNumberChar, Char.isAlphanum, h]
  · rfl
  · rfl

theorem scanBoundary_bare {word : List Char} (hword : ∀ c ∈ word, isBareChar c = true) (delimiters after : List Char) :
    scanBoundary ⟨delimiters, none, false⟩ (word ++ after) = scanBoundary ⟨delimiters, none, false⟩ after := by
  induction word with
  | nil => rfl
  | cons c word ih =>
    have hc := notMem_of_isBareChar (hword c List.mem_cons_self)
    simp only [List.mem_cons, List.not_mem_nil, or_false, not_or] at hc
    rw [List.cons_append, ← ih fun d hd ↦ hword d (List.mem_cons_of_mem _ hd)]
    rw [scanBoundary.eq_def]
    simp [startsComment, hc]

theorem scanBoundary_quote (hquote : opensQuote quote = true) (delimiters rest : List Char) :
    scanBoundary ⟨delimiters, none, false⟩ (quote :: rest) = scanBoundary ⟨delimiters, some quote, false⟩ rest := by
  have hor : quote = '\'' ∨ quote = '"' ∨ quote = '\x60' := by simpa [opensQuote, or_assoc] using hquote
  rw [scanBoundary.eq_def]
  simp only [hor, if_true]

theorem accepts_symbol (hquote : opensQuote c = false)
    (h : scanBoundary ⟨delimiters, none, false⟩ (c :: rest) = .ok ()) :
    startsComment c rest = false ∧ Accepts rest := by
  have hnot : ¬ (c = '\'' ∨ c = '"' ∨ c = '\x60') := by
    intro hor
    have htrue : opensQuote c = true := by simpa [opensQuote, or_assoc] using hor
    rw [hquote] at htrue
    cases htrue
  rw [scanBoundary.eq_def] at h
  simp only [hnot, if_false] at h
  split at h
  · cases h
  · next hcomment =>
    refine ⟨Bool.eq_false_iff.2 hcomment, ?_⟩
    split at h
    · exact ⟨_, h⟩
    · split at h
      · split at h
        · exact ⟨_, h⟩
        · cases h
      · split at h
        · cases h
        · exact ⟨_, h⟩

/-- **Behind each token** but a heredoc, an expression that is taken is still taken; its quotes are closed and its
symbols start no comment. -/
theorem accepts_nextToken (h : Accepts (c :: rest)) (hheredoc : ∀ text, (nextToken c rest).1 ≠ .heredoc text) :
    Accepts (nextToken c rest).2 ∧
      ∀ d, (nextToken c rest).1 = .symbol d → opensQuote d = false ∧ startsComment d (nextToken c rest).2 = false := by
  obtain ⟨delimiters, h⟩ := h
  have hcut := cut_nextToken c rest
  generalize (nextToken c rest).1 = token, (nextToken c rest).2 = after, hs : c :: rest = s at hcut hheredoc ⊢
  cases hcut with
  | heredoc hlength => exact absurd rfl (hheredoc _)
  | @quoted quote body after hquote hbody hafter =>
    rw [hs] at h
    refine ⟨⟨delimiters, ?_⟩, fun d hd ↦ (nomatch hd)⟩
    rw [← scanBoundary_body hquote hbody delimiters hafter, ← h]
    exact (scanBoundary_quote hquote delimiters _).symm
  | unclosed hquote hnone =>
    rw [hs, scanBoundary_quote hquote] at h
    exact absurd hnone (splitQuoted_of_scanBoundary h)
  | word hfirst hword hafter =>
    rw [hs, scanBoundary_bare] at h
    · exact ⟨⟨delimiters, h⟩, fun d hd ↦ (nomatch hd)⟩
    · exact List.forall_mem_cons.2 ⟨isBareChar_first hfirst, hword⟩
  | number hfirst hword hafter =>
    rw [hs, scanBoundary_bare] at h
    · exact ⟨⟨delimiters, h⟩, fun d hd ↦ (nomatch hd)⟩
    · refine List.forall_mem_cons.2 ⟨?_, fun d hd ↦ by rw [isBareChar, hword d hd]; rfl⟩
      simp [isBareChar, isNumberChar, Char.isAlphanum, hfirst]
  | @symbol d rest hquote halpha hdigit =>
    rw [hs] at h
    obtain ⟨hcomment, hrest⟩ := accepts_symbol hquote h
    exact ⟨hrest, fun d' hd' ↦ by cases hd'; exact ⟨hquote, hcomment⟩⟩

end ClickHouse
