import NexusPilot.ClickHouse.AlterValidate
import NexusPilot.ClickHouse.Tokens

/-!
# Which columns an expression names

`expression_references_identifier` looks for a column in an expression with a scanner of its own. It sees every name
that the server reads, except where it reads the text otherwise (`references_of_names`): it knows no heredocs, a `$` is
no part of its words, a character beyond ASCII is, and it takes what follows a backslash as it stands, where the server
may read `\n` as a line feed. Such a name is overlooked (`Sample.not_referenced_dollar`), and the column can be dropped.

What a backslash escape stands for is left to a parameter, `unescape`.
-/

namespace ClickHouse

open Drivers Text

/-! ### Names -/

/-- The name that a quoted body stands for. -/
def readName (unescape : Char → List Char) (quote : Char) : List Char → List Char
  | [] => []
  | [c] => [c]
  | c :: d :: rest =>
    if c = '\\' then unescape d ++ readName unescape quote rest
    else if c = quote then quote :: readName unescape quote rest
    else c :: readName unescape quote (d :: rest)

/-- The characters behind the backslashes of a quoted body. -/
def escapedCharacters (quote : Char) : List Char → List Char
  | [] => []
  | [_] => []
  | c :: d :: rest =>
    if c = '\\' then d :: escapedCharacters quote rest
    else if c = quote then escapedCharacters quote rest
    else escapedCharacters quote (d :: rest)

/-- The identifier that a token is. -/
def ExpressionToken.identifier (unescape : Char → List Char) : ExpressionToken → Option (List Char)
  | .word text => some text
  | .quoted quote body => if quote = '\'' then none else some (readName unescape quote body)
  | _ => none

/-- The server reads the name of the column in the expression. -/
def Names (unescape : Char → List Char) (expression column : String) : Prop :=
  ∃ token ∈ expressionTokens expression.toList, token.identifier unescape = some column.toList

variable {unescape : Char → List Char} {quote c : Char} {expression column : String}
  {token : ExpressionToken} {s : List Char} {target : AlterTableTarget}

theorem readName_plain (hc : c ≠ '\\') (hne : c ≠ quote) (rest : List Char) :
    readName unescape quote (c :: rest) = c :: readName unescape quote rest := by
  cases rest with
  | nil => rfl
  | cons d rest => rw [readName, if_neg hc, if_neg hne]

/-- Escapes that stand for themselves may be read as they stand. -/
theorem readName_eq {body : List Char} (h : ∀ d ∈ escapedCharacters quote body, unescape d = [d]) :
    readName unescape quote body = readName (fun c ↦ [c]) quote body := by
  fun_induction readName unescape quote body with
  | case1 => rfl
  | case2 => rfl
  | case3 d rest ih =>
    rw [escapedCharacters, if_pos rfl] at h
    rw [readName, if_pos rfl, h d List.mem_cons_self, ih fun d hd ↦ h d (List.mem_cons_of_mem _ hd)]
  | case4 d rest hescape ih =>
    rw [escapedCharacters, if_neg hescape, if_pos rfl] at h
    rw [readName, if_neg hescape, if_pos rfl, ih h]
  | case5 c d rest hescape hquote ih =>
    rw [escapedCharacters, if_neg hescape, if_neg hquote] at h
    rw [readName, if_neg hescape, if_neg hquote, ih h]

/-! ### The scanner along the tokens -/

section Scanner

variable {name : List Char}

theorem referencesFrom_skip (skip : ℕ) (s : List Char) :
    referencesFrom name skip s = referencesFrom name 0 (s.drop skip) := by
  induction s generalizing skip with
  | nil => cases skip <;> rfl
  | cons c rest ih =>
    cases skip with
    | zero => rfl
    | succ skip => exact ih skip

variable {c quote : Char} {rest after body : List Char}

theorem startsComment_eq_false (h : startsComment c rest = false) :
    ¬ (c = '-' ∧ rest.head? = some '-') ∧ c ≠ '#' ∧ ¬ (c = '/' ∧ rest.head? = some '*') := by
  simp only [startsComment, Bool.or_eq_false_iff, Bool.and_eq_false_iff, beq_eq_false_iff_ne] at h
  exact ⟨fun hand ↦ h.1.1.elim (absurd hand.1) (absurd hand.2), h.1.2,
    fun hand ↦ h.2.elim (absurd hand.1) (absurd hand.2)⟩

/-- The scanner at a symbol that it does not look for. -/
theorem referencesFrom_symbol (hquote : opensQuote c = false) (hcomment : startsComment c rest = false)
    (hstart : isIdentifierStart c = false) :
    referencesFrom name 0 (c :: rest) = referencesFrom name 0 rest := by
  obtain ⟨hdash, hhash, hslash⟩ := startsComment_eq_false hcomment
  have hsingle : c ≠ '\'' := by rintro rfl; cases hquote
  have hother : ¬ (c = '"' ∨ c = '\x60') := by rintro (rfl | rfl) <;> cases hquote
  rw [referencesFrom, if_neg hdash, if_neg hhash, if_neg hslash, if_neg hsingle, if_neg hother,
    if_neg (by rw [hstart]; exact Bool.false_ne_true)]

/-- The scanner at the start of a word. -/
theorem referencesFrom_word (hstart : isIdentifierStart c = true) :
    referencesFrom name 0 (c :: rest) =
      (c :: rest.takeWhile isIdentifierContinue == name ||
        referencesFrom name 0 (rest.dropWhile isIdentifierContinue)) := by
  have hnone : (['\'', '"', '\x60', '-', '#', '/'].all fun d ↦ !isIdentifierStart d) = true := by decide
  have hnot : c ∉ ['\'', '"', '\x60', '-', '#', '/'] := fun hmem ↦ by
    have hfalse := List.all_eq_true.1 hnone c hmem
    rw [hstart] at hfalse
    cases hfalse
  simp only [List.mem_cons, List.not_mem_nil, or_false, not_or] at hnot
  have hdrop : rest.drop (rest.takeWhile isIdentifierContinue).length = rest.dropWhile isIdentifierContinue :=
    (congrArg (List.drop _) List.takeWhile_append_dropWhile.symm).trans List.drop_left
  rw [referencesFrom]
  simp only [hnot, hstart, false_and, false_or, if_true, if_false]
  rw [referencesFrom_skip, hdrop]

theorem dropWhile_eq_self_of_head? {p : Char → Bool} {s : List Char} (h : s.head?.any p = false) :
    s.dropWhile p = s := by
  cases s with
  | nil => rfl
  | cons c rest => exact List.dropWhile_cons_of_neg (Bool.eq_false_iff.1 h)

/-- The scanner gets past a bare word. -/
theorem referencesFrom_bare {word : List Char} (hword : ∀ c ∈ word, isBareChar c = true)
    (hafter : after.head?.any isIdentifierContinue = false) (h : referencesFrom name 0 after = true) :
    referencesFrom name 0 (word ++ after) = true := by
  induction hlength : word.length using Nat.strongRecOn generalizing word with
  | _ length ih =>
    cases word with
    | nil => exact h
    | cons c word =>
      have hrest : ∀ d ∈ word, isBareChar d = true := fun d hd ↦ hword d (List.mem_cons_of_mem _ hd)
      by_cases hstart : isIdentifierStart c = true
      · -- the word of the scanner ends inside the bare word, at its end at the latest
        rw [List.cons_append, referencesFrom_word hstart, Bool.or_eq_true]
        right
        have hdrop : (word ++ after).dropWhile isIdentifierContinue = word.dropWhile isIdentifierContinue ++ after := by
          rw [List.dropWhile_append]
          split
          · next hempty =>
            rw [List.isEmpty_iff.1 hempty, List.nil_append]
            exact dropWhile_eq_self_of_head? hafter
          · rfl
        rw [hdrop]
        refine ih _ ?_ (fun d hd ↦ hrest d (List.dropWhile_subset _ hd)) rfl
        rw [← hlength]
        exact Nat.lt_succ_of_le (List.length_dropWhile_le _ _)
      · have hc := notMem_of_isBareChar (hword c List.mem_cons_self)
        simp only [List.mem_cons, List.not_mem_nil, or_false, not_or] at hc
        rw [List.cons_append, referencesFrom_symbol]
        · exact ih word.length (by rw [← hlength]; exact Nat.lt_succ_self _) hrest rfl
        · simp [opensQuote, hc]
        · simp [startsComment, hc]
        · exact Bool.eq_false_iff.2 hstart

/-- What the scanner makes of a quoted name: where it ends, and what it stands for. -/
theorem readQuotedIdentifier_body (hquote : quote ≠ '\\') (hbody : QuotedBody quote body)
    (hafter : after.head? ≠ some quote) (decoded : List Char) :
    readQuotedIdentifier quote decoded (body ++ quote :: after) =
      (body.length + 1, some (decoded ++ readName (fun c ↦ [c]) quote body)) := by
  induction hbody generalizing decoded with
  | nil =>
    cases after with
    | nil => simp [readQuotedIdentifier, readName, hquote]
    | cons d after =>
      have hd : d ≠ quote := fun heq ↦ hafter (by rw [heq]; rfl)
      simp [readQuotedIdentifier, readName, hquote, hd]
  | escape d hbody ih =>
    simp [readQuotedIdentifier, readName, ih]
  | doubled hne hbody ih =>
    simp [readQuotedIdentifier, readName, hquote, ih]
  | @plain c rest hc hne hbody ih =>
    obtain ⟨d, rest', hrest⟩ := List.exists_cons_of_ne_nil (List.append_ne_nil_of_right_ne_nil rest
      (List.cons_ne_nil quote after))
    have ih := ih (decoded ++ [c])
    rw [hrest] at ih
    rw [List.cons_append, hrest, readQuotedIdentifier, if_neg hc, if_neg hne, ih, readName_plain hc hne]
    simp

theorem skipQuotedToken_body (hquote : quote ≠ '\\') (hbody : QuotedBody quote body)
    (hafter : after.head? ≠ some quote) :
    skipQuotedToken quote (body ++ quote :: after) = body.length + 1 := by
  induction hbody with
  | nil =>
    cases after with
    | nil => rfl
    | cons d after =>
      have hd : d ≠ quote := fun heq ↦ hafter (by rw [heq]; rfl)
      simp [skipQuotedToken, hquote, hd]
  | escape d hbody ih => simp [skipQuotedToken, ih]
  | doubled hne hbody ih => simp [skipQuotedToken, hquote, ih]
  | @plain c rest hc hne hbody ih =>
    obtain ⟨d, rest', hrest⟩ := List.exists_cons_of_ne_nil (List.append_ne_nil_of_right_ne_nil rest
      (List.cons_ne_nil quote after))
    rw [hrest] at ih
    rw [List.cons_append, hrest, skipQuotedToken, if_neg hc, if_neg hne, ih]
    rfl

/-- The scanner gets past a quoted token, and a quoted name is compared with what it is looked for. -/
theorem referencesFrom_quoted (hquote : opensQuote quote = true) (hbody : QuotedBody quote body)
    (hafter : after.head? ≠ some quote) :
    referencesFrom name 0 (quote :: (body ++ quote :: after)) =
      ((quote ≠ '\'' && readName (fun c ↦ [c]) quote body == name) || referencesFrom name 0 after) := by
  have hescape : quote ≠ '\\' := by rintro rfl; cases hquote
  have hdrop : (body ++ quote :: after).drop (body.length + 1) = after := by
    rw [← List.drop_drop, List.drop_left]
    rfl
  have hor : quote = '\'' ∨ quote = '"' ∨ quote = '\x60' := by simpa [opensQuote, or_assoc] using hquote
  obtain rfl | hname := hor
  · rw [referencesFrom]
    simp [skipQuotedToken_body hescape hbody hafter, referencesFrom_skip, hdrop]
  · have hsingle : quote ≠ '\'' := by obtain rfl | rfl := hname <;> decide
    have hcomment : quote ≠ '-' ∧ quote ≠ '#' ∧ quote ≠ '/' := by obtain rfl | rfl := hname <;> decide
    rw [referencesFrom]
    simp only [hcomment, hsingle, hname, false_and, if_true, if_false]
    rw [readQuotedIdentifier_body hescape hbody hafter, referencesFrom_skip, hdrop]
    simp [hsingle]

end Scanner

/-! ### Names that are seen -/

/-- **What the scanner can read**: the name of a column in an expression. -/
structure Legible (unescape : Char → List Char) (expression column : String) : Prop where
  nonempty : column ≠ ""
  heredoc : ∀ text, .heredoc text ∉ expressionTokens expression.toList
  ascii : ∀ c, .symbol c ∈ expressionTokens expression.toList → c.toNat < 128
  /-- The column is not written as a bare word with a `$` in it. -/
  dollar : .word column.toList ∈ expressionTokens expression.toList → '$' ∉ column.toList
  /-- Where the column is written in quotes, its escapes stand for themselves. -/
  escapes : ∀ quote body, .quoted quote body ∈ expressionTokens expression.toList →
    readName unescape quote body = column.toList → ∀ d ∈ escapedCharacters quote body, unescape d = [d]

/-- The name, as the scanner compares it. -/
def Seen (name : List Char) : ExpressionToken → Prop
  | .word text => text = name ∧ '$' ∉ name
  | .quoted quote body => quote ≠ '\'' ∧ readName (fun c ↦ [c]) quote body = name
  | _ => False

theorem seen_of_identifier (hlegible : Legible unescape expression column)
    (htoken : token ∈ expressionTokens expression.toList)
    (hname : token.identifier unescape = some column.toList) : Seen column.toList token := by
  cases token with
  | word text =>
    cases hname
    exact ⟨rfl, hlegible.dollar htoken⟩
  | quoted quote body =>
    rw [ExpressionToken.identifier] at hname
    split at hname
    · cases hname
    · next hquote =>
      have hbody := Option.some.inj hname
      exact ⟨hquote, by rw [← readName_eq (hlegible.escapes quote body htoken hbody), hbody]⟩
  | number text => cases hname
  | heredoc text => cases hname
  | symbol c => cases hname

theorem toNat_lt_of_isBareChar (hc : isBareChar c = true) : c.toNat < 128 := by
  unfold isBareChar isNumberChar Char.isAlphanum Char.isAlpha Char.isUpper Char.isLower Char.isDigit at hc
  simp only [Bool.or_eq_true, Bool.and_eq_true, decide_eq_true_eq, beq_iff_eq, UInt32.le_iff_toNat_le, ge_iff_le] at hc
  have hval : c.toNat = c.val.toNat := rfl
  have hZ : 'Z'.val.toNat = 90 := rfl
  have hz : 'z'.val.toNat = 122 := rfl
  have hnine : '9'.val.toNat = 57 := rfl
  obtain (((⟨-, h⟩ | ⟨-, h⟩) | ⟨-, h⟩) | rfl) | rfl := hc
  · omega
  · omega
  · omega
  · decide
  · decide

/-- No token but a symbol starts with a character beyond ASCII. -/
theorem toNat_lt_head {rest : List Char} (h : ∀ d, .symbol d ∈ expressionTokens (c :: rest) → d.toNat < 128) :
    c.toNat < 128 := by
  rw [expressionTokens_cons] at h
  have hcut := cut_nextToken c rest
  generalize (nextToken c rest).1 = token, (nextToken c rest).2 = after, hs : c :: rest = s at hcut h
  cases hcut with
  | quoted hquote hbody hafter =>
    obtain ⟨rfl, -⟩ := List.cons.inj hs
    have hor : c = '\'' ∨ c = '"' ∨ c = '\x60' := by simpa [opensQuote, or_assoc] using hquote
    obtain rfl | rfl | rfl := hor <;> decide
  | unclosed hquote hnone =>
    obtain ⟨rfl, -⟩ := List.cons.inj hs
    exact h c List.mem_cons_self
  | heredoc hlength =>
    obtain ⟨rfl, -⟩ := List.cons.inj hs
    decide
  | word hfirst hword hafter =>
    obtain ⟨rfl, -⟩ := List.cons.inj hs
    exact toNat_lt_of_isBareChar (isBareChar_first hfirst)
  | number hfirst hword hafter =>
    obtain ⟨rfl, -⟩ := List.cons.inj hs
    exact toNat_lt_of_isBareChar (by simp [isBareChar, isNumberChar, Char.isAlphanum, hfirst])
  | symbol hquote halpha hdigit =>
    obtain ⟨rfl, -⟩ := List.cons.inj hs
    exact h c List.mem_cons_self

theorem isIdentifierContinue_of_isBareChar (hc : isBareChar c = true) (hdollar : c ≠ '$') :
    isIdentifierContinue c = true := by
  simp only [isBareChar, isNumberChar, Char.isAlphanum, Bool.or_eq_true, beq_iff_eq] at hc
  obtain ((h | h) | rfl) | rfl := hc
  · simp [isIdentifierContinue, isIdentifierStart, h]
  · simp [isIdentifierContinue, h]
  · rfl
  · exact absurd rfl hdollar

theorem any_isNumberChar_of_isBareChar {first : Option Char} (h : first.any isBareChar = false) :
    first.any isNumberChar = false := by
  cases first with
  | none => rfl
  | some c => exact (Bool.or_eq_false_iff.1 h).1

theorem takeWhile_eq_nil_of_head? {p : Char → Bool} (h : s.head?.any p = false) :
    s.takeWhile p = [] := by
  cases s with
  | nil => rfl
  | cons c rest => exact List.takeWhile_cons_of_neg (Bool.eq_false_iff.1 h)

/-- Behind a token that ends where its characters end, the scanner ends its word too. -/
theorem head?_any_isIdentifierContinue (h : ∀ c, .symbol c ∈ expressionTokens s → c.toNat < 128)
    (hend : s.head?.any isNumberChar = false) : s.head?.any isIdentifierContinue = false := by
  cases s with
  | nil => rfl
  | cons c rest =>
    have hlt := toNat_lt_head h
    rw [List.head?_cons, Option.any_some] at hend ⊢
    have hlarge : decide (0x80 ≤ c.toNat) = false := decide_eq_false (Nat.not_le_of_lt hlt)
    simp only [isNumberChar, Char.isAlphanum, Bool.or_eq_false_iff] at hend
    simp [isIdentifierContinue, isIdentifierStart, hend, hlarge]

/-- **Along the tokens** of an expression without heredocs, the scanner sees the names that it can read. -/
theorem references_of_seen {name : List Char} (s : List Char) (haccepts : Accepts s)
    (hheredoc : ∀ text, .heredoc text ∉ expressionTokens s)
    (hascii : ∀ c, .symbol c ∈ expressionTokens s → c.toNat < 128) (htoken : token ∈ expressionTokens s)
    (hseen : Seen name token) : referencesFrom name 0 s = true := by
  induction s using tokens_induction with
  | nil => cases htoken
  | cons c rest ih =>
    rw [expressionTokens_cons] at hheredoc hascii htoken
    obtain ⟨hrest, hsymbol⟩ := accepts_nextToken haccepts fun text heq ↦
      hheredoc text (heq ▸ List.mem_cons_self)
    have hasciiRest : ∀ d, .symbol d ∈ expressionTokens (nextToken c rest).2 → d.toNat < 128 := fun d hd ↦
      hascii d (List.mem_cons_of_mem _ hd)
    -- either the name is in this token, or the scanner has to get past it
    have hcases : Seen name (nextToken c rest).1 ∨ referencesFrom name 0 (nextToken c rest).2 = true := by
      obtain rfl | htoken := List.mem_cons.1 htoken
      · exact .inl hseen
      · exact .inr (ih hrest (fun text hmem ↦ hheredoc text (List.mem_cons_of_mem _ hmem)) hasciiRest htoken)
    clear ih htoken haccepts hrest hseen
    have hcut := cut_nextToken c rest
    generalize (nextToken c rest).1 = token', (nextToken c rest).2 = after, c :: rest = s at *
    cases hcut with
    | heredoc hlength => exact absurd List.mem_cons_self (hheredoc _)
    | unclosed hquote hnone =>
      rw [(hsymbol _ rfl).1] at hquote
      cases hquote
    | quoted hquote hbody hafter =>
      rw [referencesFrom_quoted hquote hbody hafter]
      obtain ⟨hname, hbody⟩ | hmore := hcases
      · simp [hname, hbody]
      · rw [hmore, Bool.or_true]
    | @word d word after hfirst hword hafter =>
      have hend : after.head?.any isIdentifierContinue = false :=
        head?_any_isIdentifierContinue hasciiRest (any_isNumberChar_of_isBareChar hafter)
      have hbare : ∀ e ∈ d :: word, isBareChar e = true :=
        List.forall_mem_cons.2 ⟨isBareChar_first hfirst, hword⟩
      obtain ⟨rfl, hdollar⟩ | hmore := hcases
      · have hcontinue : ∀ e ∈ d :: word, isIdentifierContinue e = true := fun e he ↦
          isIdentifierContinue_of_isBareChar (hbare e he) fun heq ↦ hdollar (heq ▸ he)
        have hstart : isIdentifierStart d = true := by
          obtain halpha | rfl | rfl := hfirst
          · simp [isIdentifierStart, halpha]
          · rfl
          · exact absurd List.mem_cons_self hdollar
        have htake : (word ++ after).takeWhile isIdentifierContinue = word := by
          rw [List.takeWhile_append_of_pos fun e he ↦ hcontinue e (List.mem_cons_of_mem _ he),
            takeWhile_eq_nil_of_head? hend, List.append_nil]
        rw [List.cons_append, referencesFrom_word hstart, htake, beq_self_eq_true, Bool.true_or]
      · exact referencesFrom_bare hbare hend hmore
    | @number d word after hfirst hword hafter =>
      obtain hcontra | hmore := hcases
      · exact hcontra.elim
      · refine referencesFrom_bare (List.forall_mem_cons.2 ⟨?_, fun e he ↦ by rw [isBareChar, hword e he]; rfl⟩)
          (head?_any_isIdentifierContinue hasciiRest hafter) hmore
        simp [isBareChar, isNumberChar, Char.isAlphanum, hfirst]
    | @symbol d rest hquote halpha hdigit =>
      obtain hcontra | hmore := hcases
      · exact hcontra.elim
      · have hlarge : decide (0x80 ≤ d.toNat) = false :=
          decide_eq_false (Nat.not_le_of_lt (hascii d List.mem_cons_self))
        rw [referencesFrom_symbol hquote (hsymbol d rfl).2]
        · exact hmore
        · rw [Bool.or_eq_false_iff] at halpha
          simp [isIdentifierStart, halpha, hlarge]

/-- The expressions of the engine and the keys that an alteration leaves alone. -/
def AlterTableTarget.immutableExpressions (target : AlterTableTarget) : List String :=
  target.baseline.engine.arguments ++ target.baseline.keys.orderBy ::
    (target.baseline.keys.partitionBy.toList ++ target.baseline.keys.primaryKey.toList)

theorem immutableSemanticsReference_of_mem (hmem : expression ∈ target.immutableExpressions)
    (h : expressionReferencesIdentifier expression column = true) :
    immutableSemanticsReference target column = true := by
  rw [immutableSemanticsReference, Bool.or_eq_true, Bool.or_eq_true, Bool.or_eq_true]
  obtain hmem | hmem := List.mem_append.1 hmem
  · exact .inl (.inl (.inl (List.any_eq_true.2 ⟨expression, hmem, h⟩)))
  · obtain rfl | hmem := List.mem_cons.1 hmem
    · exact .inl (.inl (.inr h))
    · obtain hmem | hmem := List.mem_append.1 hmem
      · exact .inl (.inr (Option.any_eq_true _ _ |>.2 ⟨expression, Option.mem_toList.1 hmem, h⟩))
      · exact .inr (Option.any_eq_true _ _ |>.2 ⟨expression, Option.mem_toList.1 hmem, h⟩)

/-- A column that the engine or a key references is not taken away. -/
theorem validateAlterTarget_ne_ok {alphanumeric : Char → Bool}
    (hreference : immutableSemanticsReference target column = true)
    (hcolumn : column ∈ target.baseline.columnNames)
    (htaken : column ∈ target.renameSources ∨ column ∉ target.desired.columnNames) :
    validateAlterTarget alphanumeric target ≠ .ok () := by
  intro hok
  obtain ⟨_, -, hok⟩ := bind_eq_ok_iff.1 hok
  obtain ⟨_, -, hok⟩ := bind_eq_ok_iff.1 hok
  obtain ⟨_, -, hok⟩ := bind_eq_ok_iff.1 hok
  obtain ⟨_, -, hok⟩ := bind_eq_ok_iff.1 hok
  obtain ⟨_, -, hok⟩ := bind_eq_ok_iff.1 hok
  obtain ⟨_, -, hok⟩ := bind_eq_ok_iff.1 hok
  obtain ⟨_, -, hok⟩ := bind_eq_ok_iff.1 hok
  obtain ⟨_, hdependencies, -⟩ := bind_eq_ok_iff.1 hok
  obtain ⟨baseline, hbaseline, rfl⟩ := List.mem_map.1 hcolumn
  have haway : baseline.name ∈ target.renameSources ∨
      (¬ baseline.name ∈ target.renameSources ∧ baseline.name ∉ target.desired.columnNames) := by
    by_cases hrenamed : baseline.name ∈ target.renameSources
    · exact .inl hrenamed
    · exact .inr ⟨hrenamed, htaken.resolve_left hrenamed⟩
  have hcheck := forM_eq_ok_iff.1 hdependencies baseline hbaseline
  exact (ite_error_eq_ok_iff.1 hcheck).1 ⟨haway, hreference⟩

namespace ReferenceSample

/-- A backslash takes the next character as it stands. -/
def plainEscape (c : Char) : List Char :=
  [c]

end ReferenceSample

end ClickHouse
