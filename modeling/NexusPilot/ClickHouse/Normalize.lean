import NexusPilot.ClickHouse.Tokens

/-!
# What the comparison of expressions keeps

`normalize_expression` drops white space outside quotes, except between words and beside quotes, and expressions are
compared by what is left. Nothing quoted gets lost on the way (`Pieces.quotedParts_normalizeFrom`): what is written has
the strings and quoted names of the text, character by character. A heredoc is not known to it, so that the quoted
tokens of the server are those parts only where there is none (`quotedTokens_eq`).

The white space that is kept behind a closing quote is what the argument rests on: two quoted tokens never become one
with a doubled quote in it.
-/

namespace ClickHouse

open Text

section Normalize

variable {alphanumeric : Char → Bool}

/-! ### The output, piece by piece -/

/-- What is written for a text, where `pending` says that white space has been read and `word` that the text before ends
in a word. -/
def normalizeFrom (alphanumeric : Char → Bool) (pending word : Bool) (s : List Char) : List Char :=
  (s.foldl (normalizeStep alphanumeric) ⟨[], none, false, pending, word⟩).normalized

/-- What has been written stays in front. -/
theorem foldl_normalizeStep (s written : List Char) (st : NormalizeState) :
    s.foldl (normalizeStep alphanumeric) { st with normalized := written ++ st.normalized } =
      { s.foldl (normalizeStep alphanumeric) st with
        normalized := written ++ (s.foldl (normalizeStep alphanumeric) st).normalized } := by
  induction s generalizing st with
  | nil => rfl
  | cons c s ih =>
    rw [List.foldl_cons, List.foldl_cons, ← ih]
    congr 1
    obtain ⟨normalized, quote, escaped, pending, word⟩ := st
    cases quote with
    | none =>
      simp only [normalizeStep]
      split_ifs <;> simp [List.append_assoc]
    | some active =>
      simp only [normalizeStep]
      split_ifs <;> simp [List.append_assoc]

/-- A state outside quotes. -/
def outsideQuotes (written : List Char) (pending word : Bool) : NormalizeState :=
  ⟨written, none, false, pending, word⟩

theorem foldl_outsideQuotes (s written : List Char) (pending word : Bool) :
    (s.foldl (normalizeStep alphanumeric) (outsideQuotes written pending word)).normalized =
      written ++ normalizeFrom alphanumeric pending word s := by
  have h := @foldl_normalizeStep alphanumeric s written (outsideQuotes [] pending word)
  have hstate : { outsideQuotes [] pending word with normalized := written ++ (outsideQuotes [] pending word).normalized } =
      outsideQuotes written pending word := by
    simp [outsideQuotes]
  rw [hstate] at h
  rw [h]
  rfl

/-- A character is part of a word. -/
def isWord (alphanumeric : Char → Bool) (c : Char) : Bool :=
  alphanumeric c || c == '_'

/-- The space that is written where white space has been read. -/
def spaceIf (kept : Bool) : List Char :=
  if kept then [' '] else []

variable {c quote : Char} {body s after : List Char}

theorem normalizeStep_space (hc : isWhitespace c = true) (written : List Char) (pending word : Bool) :
    normalizeStep alphanumeric (outsideQuotes written pending word) c = outsideQuotes written true word := by
  have hquote : ¬ (c = '\'' ∨ c = '"' ∨ c = '\x60') := by
    rintro (rfl | rfl | rfl) <;> exact absurd hc (by decide)
  simp [normalizeStep, outsideQuotes, hquote, hc]

theorem normalizeStep_plain (hquote : opensQuote c = false) (hspace : isWhitespace c = false)
    (written : List Char) (pending word : Bool) :
    normalizeStep alphanumeric (outsideQuotes written pending word) c =
      outsideQuotes (written ++ spaceIf (pending && word && isWord alphanumeric c) ++ [c]) false (isWord alphanumeric c) := by
  have hnot : ¬ (c = '\'' ∨ c = '"' ∨ c = '\x60') := by
    rintro (rfl | rfl | rfl) <;> exact absurd hquote (by decide)
  simp [normalizeStep, outsideQuotes, hnot, hspace, isWord, spaceIf]

theorem normalizeStep_quote (hquote : opensQuote quote = true) (written : List Char) (pending word : Bool) :
    normalizeStep alphanumeric (outsideQuotes written pending word) quote =
      ⟨written ++ spaceIf (pending && word) ++ [quote], some quote, false, false, false⟩ := by
  have hor : quote = '\'' ∨ quote = '"' ∨ quote = '\x60' := by simpa [opensQuote, or_assoc] using hquote
  simp [normalizeStep, outsideQuotes, hor, spaceIf]

/-- A quoted body is written as it stands. A doubled quote closes it and opens it again, without a space between. -/
theorem foldl_body (hquote : opensQuote quote = true) (hbody : QuotedBody quote body) (written : List Char) :
    body.foldl (normalizeStep alphanumeric) ⟨written, some quote, false, false, false⟩ =
      ⟨written ++ body, some quote, false, false, false⟩ := by
  have hescape : quote ≠ '\\' := by rintro rfl; cases hquote
  induction hbody generalizing written with
  | nil => simp
  | escape d hbody ih =>
    rw [List.foldl_cons, List.foldl_cons]
    have hstep : normalizeStep alphanumeric (normalizeStep alphanumeric ⟨written, some quote, false, false, false⟩ '\\') d =
        ⟨written ++ ['\\'] ++ [d], some quote, false, false, false⟩ := by
      simp [normalizeStep]
    rw [hstep, ih]
    simp
  | doubled hne hbody ih =>
    rw [List.foldl_cons, List.foldl_cons]
    have hclose : normalizeStep alphanumeric ⟨written, some quote, false, false, false⟩ quote =
        outsideQuotes (written ++ [quote]) false true := by
      simp [normalizeStep, outsideQuotes, hescape]
    rw [hclose, normalizeStep_quote hquote, ih]
    simp [spaceIf]
  | plain hc hne hbody ih =>
    rw [List.foldl_cons]
    have hstep : ∀ c, c ≠ '\\' → c ≠ quote → normalizeStep alphanumeric ⟨written, some quote, false, false, false⟩ c =
        ⟨written ++ [c], some quote, false, false, false⟩ := fun c hc hne ↦ by
      simp [normalizeStep, hc, hne]
    rw [hstep _ hc hne, ih]
    simp

/-- A quoted token is written as it stands. -/
theorem foldl_quoted (hquote : opensQuote quote = true) (hbody : QuotedBody quote body) (written : List Char)
    (pending word : Bool) :
    (quote :: (body ++ [quote])).foldl (normalizeStep alphanumeric) (outsideQuotes written pending word) =
      outsideQuotes (written ++ spaceIf (pending && word) ++ quote :: (body ++ [quote])) false true := by
  have hescape : quote ≠ '\\' := by rintro rfl; cases hquote
  rw [List.foldl_cons, normalizeStep_quote hquote, List.foldl_append, foldl_body hquote hbody]
  simp [normalizeStep, outsideQuotes, hescape]

theorem normalizeFrom_nil (pending word : Bool) : normalizeFrom alphanumeric pending word [] = [] :=
  rfl

theorem normalizeFrom_space (hc : isWhitespace c = true) (pending word : Bool) (rest : List Char) :
    normalizeFrom alphanumeric pending word (c :: rest) = normalizeFrom alphanumeric true word rest := by
  show ((c :: rest).foldl (normalizeStep alphanumeric) (outsideQuotes [] pending word)).normalized = _
  rw [List.foldl_cons, normalizeStep_space hc, foldl_outsideQuotes, List.nil_append]

theorem normalizeFrom_plain (hquote : opensQuote c = false) (hspace : isWhitespace c = false)
    (pending word : Bool) (rest : List Char) :
    normalizeFrom alphanumeric pending word (c :: rest) =
      spaceIf (pending && word && isWord alphanumeric c) ++
        c :: normalizeFrom alphanumeric false (isWord alphanumeric c) rest := by
  show ((c :: rest).foldl (normalizeStep alphanumeric) (outsideQuotes [] pending word)).normalized = _
  rw [List.foldl_cons, normalizeStep_plain hquote hspace, foldl_outsideQuotes, List.nil_append, List.append_assoc]
  rfl

theorem normalizeFrom_quoted (hquote : opensQuote quote = true) (hbody : QuotedBody quote body)
    (pending word : Bool) (rest : List Char) :
    normalizeFrom alphanumeric pending word (quote :: (body ++ quote :: rest)) =
      spaceIf (pending && word) ++ quote :: (body ++ quote :: normalizeFrom alphanumeric false true rest) := by
  have hsplit : quote :: (body ++ quote :: rest) = (quote :: (body ++ [quote])) ++ rest := by simp
  show ((quote :: (body ++ quote :: rest)).foldl (normalizeStep alphanumeric) (outsideQuotes [] pending word)).normalized = _
  rw [hsplit, List.foldl_append, foldl_quoted hquote hbody, foldl_outsideQuotes]
  simp

/-! ### Texts whose quotes are closed -/

/-- A text in pieces: characters that open no quote, and quoted tokens. -/
inductive Pieces : List Char → Prop
  | nil : Pieces []
  | plain {c : Char} {rest : List Char} : opensQuote c = false → Pieces rest → Pieces (c :: rest)
  | quoted {quote : Char} {body rest : List Char} : opensQuote quote = true → QuotedBody quote body →
      rest.head? ≠ some quote → Pieces rest → Pieces (quote :: (body ++ quote :: rest))

/-- An expression that is taken is in pieces. -/
theorem pieces_of_accepts (h : Accepts s) : Pieces s := by
  induction hlength : s.length using Nat.strongRecOn generalizing s with
  | _ length ih =>
    cases s with
    | nil => exact .nil
    | cons c rest =>
      obtain ⟨delimiters, h⟩ := h
      cases hquote : opensQuote c with
      | false =>
        have hrest := (accepts_symbol hquote h).2
        exact .plain hquote (ih _ (by rw [← hlength]; exact Nat.lt_succ_self _) hrest rfl)
      | true =>
        rw [scanBoundary_quote hquote] at h
        obtain ⟨⟨body, after⟩, hsplit⟩ := Option.ne_none_iff_exists'.1 (splitQuoted_of_scanBoundary h)
        obtain ⟨rfl, hbody, hafter⟩ := splitQuoted_eq_some hsplit
        rw [scanBoundary_body hquote hbody delimiters hafter] at h
        refine .quoted hquote hbody hafter (ih _ ?_ ⟨delimiters, h⟩ rfl)
        rw [← hlength]
        simp
        omega

/-- What is written behind a quoted token starts with its quote only if the text behind it does. -/
theorem head?_normalizeFrom_ne (hquote : opensQuote quote = true) (h : Pieces s) (pending : Bool)
    (hs : pending = false → s.head? ≠ some quote) :
    (normalizeFrom alphanumeric pending true s).head? ≠ some quote := by
  have hspace : ' ' ≠ quote := by rintro rfl; cases hquote
  induction h generalizing pending with
  | nil => nofun
  | @plain c rest hplain _ ih =>
    have hc : c ≠ quote := by
      rintro rfl
      rw [hquote] at hplain
      cases hplain
    cases hwhite : isWhitespace c with
    | true =>
      rw [normalizeFrom_space hwhite]
      exact ih true fun hcontra ↦ (nomatch hcontra)
    | false =>
      rw [normalizeFrom_plain hplain hwhite, spaceIf]
      split
      · exact fun heq ↦ hspace (Option.some.inj heq)
      · exact fun heq ↦ hc (Option.some.inj heq)
  | quoted hquote' hbody _ _ _ =>
    rw [normalizeFrom_quoted hquote' hbody, spaceIf]
    cases pending with
    | true => exact fun heq ↦ hspace (Option.some.inj heq)
    | false => exact hs rfl

/-- What is written is in pieces too. -/
theorem Pieces.normalizeFrom {s : List Char} (h : Pieces s) (pending word : Bool) :
    Pieces (normalizeFrom alphanumeric pending word s) := by
  have hspaces : ∀ (kept : Bool) {t : List Char}, Pieces t → Pieces (spaceIf kept ++ t) := by
    intro kept t ht
    cases kept with
    | false => exact ht
    | true => exact .plain rfl ht
  induction h generalizing pending word with
  | nil => exact .nil
  | @plain c rest hquote _ ih =>
    cases hwhite : isWhitespace c with
    | true =>
      rw [normalizeFrom_space hwhite]
      exact ih true word
    | false =>
      rw [normalizeFrom_plain hquote hwhite]
      exact hspaces _ (.plain hquote (ih false _))
  | quoted hquote hbody hafter hrest ih =>
    rw [normalizeFrom_quoted hquote hbody]
    exact hspaces _ (.quoted hquote hbody (head?_normalizeFrom_ne hquote hrest false fun _ ↦ hafter) (ih false true))

/-- The text ends outside quotes. -/
theorem Pieces.foldl_eq_outside {s : List Char} (h : Pieces s) (written : List Char) (pending word : Bool) :
    ∃ written' pending' word', s.foldl (normalizeStep alphanumeric) (outsideQuotes written pending word) =
      outsideQuotes written' pending' word' := by
  induction h generalizing written pending word with
  | nil => exact ⟨written, pending, word, rfl⟩
  | @plain c rest hquote _ ih =>
    rw [List.foldl_cons]
    cases hspace : isWhitespace c with
    | true =>
      rw [normalizeStep_space hspace]
      exact ih _ _ _
    | false =>
      rw [normalizeStep_plain hquote hspace]
      exact ih _ _ _
  | @quoted quote body rest hquote hbody _ _ ih =>
    have hsplit : quote :: (body ++ quote :: rest) = (quote :: (body ++ [quote])) ++ rest := by simp
    rw [hsplit, List.foldl_append, foldl_quoted hquote hbody]
    exact ih _ _ _

/-- White space outside quotes leaves what is written, and inside quotes it does not close them. -/
theorem foldl_spaces {spaces : List Char} (hspaces : ∀ c ∈ spaces, isWhitespace c = true) (st : NormalizeState)
    (hst : ∀ active, st.quote = some active → opensQuote active = true) :
    (spaces.foldl (normalizeStep alphanumeric) st).quote = st.quote ∧
      (st.quote = none → (spaces.foldl (normalizeStep alphanumeric) st).normalized = st.normalized) := by
  induction spaces generalizing st with
  | nil => exact ⟨rfl, fun _ ↦ rfl⟩
  | cons c spaces ih =>
    have hc := hspaces c List.mem_cons_self
    have hstep : (normalizeStep alphanumeric st c).quote = st.quote ∧
        (st.quote = none → (normalizeStep alphanumeric st c).normalized = st.normalized) := by
      have hnot : ¬ (c = '\'' ∨ c = '"' ∨ c = '\x60') := by
        rintro (rfl | rfl | rfl) <;> exact absurd hc (by decide)
      obtain ⟨normalized, quote, escaped, pending, word⟩ := st
      cases quote with
      | none => simp [normalizeStep, hnot, hc]
      | some active =>
        have hne : c ≠ active := by
          rintro rfl
          have hor : c = '\'' ∨ c = '"' ∨ c = '\x60' := by simpa [opensQuote, or_assoc] using hst c rfl
          exact hnot hor
        refine ⟨?_, fun hnone ↦ absurd hnone (Option.some_ne_none _)⟩
        simp only [normalizeStep, hne, if_false]
        split_ifs <;> rfl
    obtain ⟨hquote, hwritten⟩ := ih (fun d hd ↦ hspaces d (List.mem_cons_of_mem _ hd)) (normalizeStep alphanumeric st c)
      (by rw [hstep.1]; exact hst)
    rw [List.foldl_cons]
    exact ⟨hquote.trans hstep.1, fun hnone ↦ (hwritten (hstep.1.trans hnone)).trans (hstep.2 hnone)⟩

theorem normalizeFrom_false (pending : Bool) (s : List Char) :
    normalizeFrom alphanumeric pending false s = normalizeFrom alphanumeric false false s := by
  cases s with
  | nil => rfl
  | cons c rest =>
    show ((c :: rest).foldl (normalizeStep alphanumeric) (outsideQuotes [] pending false)).normalized =
      ((c :: rest).foldl (normalizeStep alphanumeric) (outsideQuotes [] false false)).normalized
    rw [List.foldl_cons, List.foldl_cons]
    have hstep : normalizeStep alphanumeric (outsideQuotes [] pending false) c =
        normalizeStep alphanumeric (outsideQuotes [] false false) c := by
      cases hquote : opensQuote c with
      | true => rw [normalizeStep_quote hquote, normalizeStep_quote hquote, Bool.and_false, Bool.and_false]
      | false =>
        cases hspace : isWhitespace c with
        | true => rw [normalizeStep_space hspace, normalizeStep_space hspace]
        | false => rw [normalizeStep_plain hquote hspace, normalizeStep_plain hquote hspace, Bool.and_false, Bool.and_false]
    rw [hstep]

theorem foldl_lead {spaces : List Char} (hspaces : ∀ c ∈ spaces, isWhitespace c = true) (written : List Char)
    (pending word : Bool) : ∃ pending', spaces.foldl (normalizeStep alphanumeric) (outsideQuotes written pending word) =
      outsideQuotes written pending' word := by
  induction spaces generalizing pending with
  | nil => exact ⟨pending, rfl⟩
  | cons c spaces ih =>
    rw [List.foldl_cons, normalizeStep_space (hspaces c List.mem_cons_self)]
    exact ih (fun d hd ↦ hspaces d (List.mem_cons_of_mem _ hd)) true

/-- What is open is a quote. -/
theorem foldl_opensQuote {st : NormalizeState} (hst : ∀ active, st.quote = some active → opensQuote active = true)
    (s : List Char) : ∀ active, (s.foldl (normalizeStep alphanumeric) st).quote = some active →
      opensQuote active = true := by
  induction s generalizing st with
  | nil => exact hst
  | cons c s ih =>
    rw [List.foldl_cons]
    refine ih fun active hactive ↦ ?_
    obtain ⟨normalized, quote, escaped, pending, word⟩ := st
    cases quote with
    | none =>
      by_cases hor : c = '\'' ∨ c = '"' ∨ c = '\x60'
      · simp only [normalizeStep, hor, if_true] at hactive
        cases hactive
        simpa [opensQuote, or_assoc] using hor
      · simp only [normalizeStep, hor, if_false] at hactive
        split at hactive
        · cases hactive
        · cases hactive
    | some opening =>
      refine hst active ?_
      simp only [normalizeStep] at hactive
      split_ifs at hactive
      · exact hactive
      · exact hactive
      · exact hactive

theorem exists_trim (s : List Char) : ∃ lead trail, (∀ c ∈ lead, isWhitespace c = true) ∧
    (∀ c ∈ trail, isWhitespace c = true) ∧ s = lead ++ trim s ++ trail := by
  refine ⟨s.takeWhile isWhitespace, ((trimStart s).reverse.takeWhile isWhitespace).reverse,
    fun c hc ↦ List.mem_takeWhile_imp hc, fun c hc ↦ List.mem_takeWhile_imp (List.mem_reverse.1 hc), ?_⟩
  rw [trim, List.append_assoc, ← List.reverse_append, List.takeWhile_append_dropWhile, List.reverse_reverse, trimStart,
    List.takeWhile_append_dropWhile]

/-- The white space around a text makes no difference. -/
theorem normalizeExpression_eq {value : String} (h : Pieces value.toList) :
    normalizeExpression alphanumeric value = normalizeFrom alphanumeric false false value.toList := by
  obtain ⟨lead, trail, hlead, htrail, hvalue⟩ := exists_trim value.toList
  obtain ⟨written, pending, word, hfinal⟩ := @Pieces.foldl_eq_outside alphanumeric _ h [] false false
  obtain ⟨pending', hfront⟩ := @foldl_lead alphanumeric _ hlead [] false false
  have hsplit : value.toList.foldl (normalizeStep alphanumeric) (outsideQuotes [] false false) =
      trail.foldl (normalizeStep alphanumeric)
        ((trim value.toList).foldl (normalizeStep alphanumeric) (outsideQuotes [] pending' false)) := by
    conv_lhs => rw [hvalue]
    rw [List.foldl_append, List.foldl_append, hfront]
  obtain ⟨hquote, hwritten⟩ := @foldl_spaces alphanumeric _ htrail
    ((trim value.toList).foldl (normalizeStep alphanumeric) (outsideQuotes [] pending' false))
    (foldl_opensQuote (by simp [outsideQuotes]) _)
  rw [← hsplit] at hquote hwritten
  have hnone := hquote.symm.trans (congrArg NormalizeState.quote hfinal)
  calc normalizeExpression alphanumeric value
    _ = normalizeFrom alphanumeric pending' false (trim value.toList) := (normalizeFrom_false pending' _).symm
    _ = normalizeFrom alphanumeric false false value.toList := (hwritten hnone).symm

/-- Normalising twice is normalising once. -/
theorem Pieces.normalizeFrom_normalizeFrom (h : Pieces s) (pending word : Bool) :
    ClickHouse.normalizeFrom alphanumeric false word (ClickHouse.normalizeFrom alphanumeric pending word s) =
      ClickHouse.normalizeFrom alphanumeric pending word s := by
  induction h generalizing pending word with
  | nil => rfl
  | @plain c rest hquote _ ih =>
    cases hspace : isWhitespace c with
    | true =>
      rw [normalizeFrom_space hspace]
      exact ih true word
    | false =>
      rw [normalizeFrom_plain hquote hspace, spaceIf]
      split
      · next hkept =>
        simp only [Bool.and_eq_true] at hkept
        rw [List.singleton_append, normalizeFrom_space rfl, normalizeFrom_plain hquote hspace, ih, hkept.1.2, hkept.2]
        rfl
      · rw [List.nil_append, normalizeFrom_plain hquote hspace, ih]
        rfl
  | quoted hquote hbody _ _ ih =>
    rw [normalizeFrom_quoted hquote hbody, spaceIf]
    split
    · next hkept =>
      simp only [Bool.and_eq_true] at hkept
      rw [List.singleton_append, normalizeFrom_space rfl, normalizeFrom_quoted hquote hbody, ih, hkept.2]
      rfl
    · rw [List.nil_append, normalizeFrom_quoted hquote hbody, ih]
      rfl

/-- Normalising an expression twice is normalising it once. -/
def NormalizesOnce (alphanumeric : Char → Bool) (expression : String) : Prop :=
  normalizeExpression alphanumeric (String.ofList (normalizeExpression alphanumeric expression)) =
    normalizeExpression alphanumeric expression

theorem Pieces.normalizesOnce {expression : String} (h : Pieces expression.toList) :
    NormalizesOnce alphanumeric expression := by
  rw [NormalizesOnce, normalizeExpression_eq h, normalizeExpression_eq (by
    rw [String.toList_ofList]
    exact h.normalizeFrom false false), String.toList_ofList]
  exact h.normalizeFrom_normalizeFrom false false

/-! ### Quoted parts -/

theorem splitQuoted_body (hquote : opensQuote quote = true) (hbody : QuotedBody quote body)
    (hafter : after.head? ≠ some quote) :
    splitQuoted quote (body ++ quote :: after) = some (body, after) := by
  have hescape : quote ≠ '\\' := by rintro rfl; cases hquote
  induction hbody with
  | nil =>
    cases after with
    | nil => simp [splitQuoted, hescape]
    | cons d after =>
      have hd : d ≠ quote := fun heq ↦ hafter (by rw [heq]; rfl)
      simp [splitQuoted, hescape, hd]
  | escape d hbody ih => simp [splitQuoted, ih]
  | doubled hne hbody ih => simp [splitQuoted, hescape, ih]
  | @plain c rest hc hne hbody ih =>
    obtain ⟨d, rest', hrest⟩ := List.exists_cons_of_ne_nil (List.append_ne_nil_of_right_ne_nil rest
      (List.cons_ne_nil quote after))
    rw [hrest] at ih
    rw [List.cons_append, hrest, splitQuoted, if_neg hc, if_neg hne, ih]
    rfl

/-- The quoted tokens of a text that has no heredocs: each quote, and what it holds. The first argument counts the
characters that belong to a token that is read already. -/
def quotedParts : ℕ → List Char → List (Char × List Char)
  | _, [] => []
  | skip + 1, _ :: rest => quotedParts skip rest
  | 0, c :: rest =>
    if opensQuote c then
      match splitQuoted c rest with
      | some (body, _) => (c, body) :: quotedParts (body.length + 1) rest
      | none => quotedParts 0 rest
    else quotedParts 0 rest

theorem quotedParts_skip (skip : ℕ) (s : List Char) : quotedParts skip s = quotedParts 0 (s.drop skip) := by
  induction s generalizing skip with
  | nil => cases skip <;> rfl
  | cons c rest ih =>
    cases skip with
    | zero => rfl
    | succ skip => exact ih skip

theorem quotedParts_plain (hquote : opensQuote c = false) (rest : List Char) :
    quotedParts 0 (c :: rest) = quotedParts 0 rest := by
  rw [quotedParts, hquote]
  rfl

theorem quotedParts_quoted (hquote : opensQuote quote = true) (hbody : QuotedBody quote body)
    (hafter : after.head? ≠ some quote) :
    quotedParts 0 (quote :: (body ++ quote :: after)) = (quote, body) :: quotedParts 0 after := by
  have hdrop : (body ++ quote :: after).drop (body.length + 1) = after := by
    rw [← List.drop_drop, List.drop_left]
    rfl
  rw [quotedParts, if_pos hquote, splitQuoted_body hquote hbody hafter]
  exact congrArg _ ((quotedParts_skip _ _).trans (by rw [hdrop]))

/-- **No quoted part is lost**, and none comes about. -/
theorem Pieces.quotedParts_normalizeFrom {s : List Char} (h : Pieces s) (pending word : Bool) :
    quotedParts 0 (ClickHouse.normalizeFrom alphanumeric pending word s) = quotedParts 0 s := by
  have hspaces : ∀ (kept : Bool) (t : List Char), quotedParts 0 (spaceIf kept ++ t) = quotedParts 0 t := by
    intro kept t
    cases kept with
    | false => rfl
    | true => exact quotedParts_plain rfl t
  induction h generalizing pending word with
  | nil => rfl
  | @plain c rest hquote _ ih =>
    rw [quotedParts_plain hquote]
    cases hspace : isWhitespace c with
    | true =>
      rw [normalizeFrom_space hspace]
      exact ih true word
    | false =>
      rw [normalizeFrom_plain hquote hspace, hspaces, quotedParts_plain hquote]
      exact ih false _
  | quoted hquote hbody hafter hrest ih =>
    rw [normalizeFrom_quoted hquote hbody, hspaces, quotedParts_quoted hquote hbody
      (head?_normalizeFrom_ne hquote hrest false fun _ ↦ hafter), quotedParts_quoted hquote hbody hafter, ih]

/-! ### Quoted tokens -/

/-- A string, a quoted name or a heredoc. -/
def ExpressionToken.isQuoted : ExpressionToken → Bool
  | .quoted _ _ | .heredoc _ => true
  | _ => false

/-- The quoted tokens of an expression, in their order. -/
def quotedTokens (s : List Char) : List ExpressionToken :=
  (expressionTokens s).filter (·.isQuoted)

theorem opensQuote_of_isBareChar (hc : isBareChar c = true) : opensQuote c = false := by
  have hnot := notMem_of_isBareChar hc
  simp only [List.mem_cons, List.not_mem_nil, or_false, not_or] at hnot
  simp [opensQuote, hnot]

theorem quotedParts_bare {word : List Char} (hword : ∀ c ∈ word, isBareChar c = true) (after : List Char) :
    quotedParts 0 (word ++ after) = quotedParts 0 after := by
  induction word with
  | nil => rfl
  | cons c word ih =>
    rw [List.cons_append, quotedParts_plain (opensQuote_of_isBareChar (hword c List.mem_cons_self))]
    exact ih fun d hd ↦ hword d (List.mem_cons_of_mem _ hd)

/-- Without heredocs, the quoted tokens are the quoted parts. -/
theorem quotedTokens_eq (s : List Char) (h : Accepts s) (hheredoc : ∀ text, .heredoc text ∉ expressionTokens s) :
    quotedTokens s = (quotedParts 0 s).map fun part ↦ .quoted part.1 part.2 := by
  induction s using tokens_induction with
  | nil => rfl
  | cons c rest ih =>
    rw [quotedTokens, expressionTokens_cons]
    rw [expressionTokens_cons] at hheredoc
    obtain ⟨hrest, hsymbol⟩ := accepts_nextToken h fun text heq ↦ hheredoc text (heq ▸ List.mem_cons_self)
    have ih : quotedTokens (nextToken c rest).2 = _ :=
      ih hrest fun text hmem ↦ hheredoc text (List.mem_cons_of_mem _ hmem)
    clear h hrest
    have hcut := cut_nextToken c rest
    generalize (nextToken c rest).1 = token, (nextToken c rest).2 = after, c :: rest = s at *
    cases hcut with
    | heredoc hlength => exact absurd List.mem_cons_self (hheredoc _)
    | unclosed hquote hnone =>
      rw [(hsymbol _ rfl).1] at hquote
      cases hquote
    | quoted hquote hbody hafter =>
      rw [List.filter_cons_of_pos rfl, quotedParts_quoted hquote hbody hafter, List.map_cons, ← ih]
      rfl
    | word hfirst hword hafter =>
      rw [List.filter_cons_of_neg Bool.false_ne_true,
        quotedParts_bare (List.forall_mem_cons.2 ⟨isBareChar_first hfirst, hword⟩), ← ih]
      rfl
    | number hfirst hword hafter =>
      rw [List.filter_cons_of_neg Bool.false_ne_true, quotedParts_bare (List.forall_mem_cons.2
        ⟨by simp [isBareChar, isNumberChar, Char.isAlphanum, hfirst], fun d hd ↦ by rw [isBareChar, hword d hd]; rfl⟩),
        ← ih]
      rfl
    | symbol hquote halpha hdigit =>
      rw [List.filter_cons_of_neg Bool.false_ne_true, quotedParts_plain hquote, ← ih]
      rfl

end Normalize

end ClickHouse
