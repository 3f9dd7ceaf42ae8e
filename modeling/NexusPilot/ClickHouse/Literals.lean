import NexusPilot.ClickHouse.AlterTarget
import NexusPilot.ClickHouse.Heredoc

/-!
# Changed literals

What it means for a table that the comparison keeps the quoted parts of an expression: a string or a quoted name that
changes makes `table_schema_matches_target` fail and `diff_alter_table` plan an operation. A TTL is compared after one
more rewriting (`canonicalize_ttl_expression`), which does not touch what is quoted either.

All of it is about expressions without heredocs, and `literalsShown_iff` says that these are the ones it holds for. In a
heredoc white space is dropped like elsewhere (`LiteralSample.heredoc_collision`).
-/

namespace ClickHouse

open Drivers Text

section Literals

variable {alphanumeric : Char → Bool}

/-! ### Intervals -/

variable {c quote : Char} {s body front : List Char} {left right : String} {target : AlterTableTarget}

theorem eq_of_opensQuote (h : ¬ opensQuote c = false) : c = '\'' ∨ c = '"' ∨ c = '\x60' := by
  rw [Bool.not_eq_false] at h
  simpa [opensQuote, or_assoc] using h

/-- Texts that differ by their case have a quote at the same places. -/
theorem opensQuote_of_sameIgnoringCase {a b : List Char} (h : sameIgnoringCase a b = true)
    (hb : ∀ c ∈ b.map Char.toLower, opensQuote c = false) : ∀ c ∈ a, opensQuote c = false := by
  intro c hc
  have hlower : c.toLower ∈ b.map Char.toLower := beq_iff_eq.1 h ▸ List.mem_map_of_mem hc
  by_contra hquote
  have hself : c.toLower = c := by
    obtain rfl | rfl | rfl := eq_of_opensQuote hquote
    · rfl
    · rfl
    · rfl
  exact hquote (hself ▸ hb _ hlower)

theorem opensQuote_of_isAsciiSpace (h : isAsciiSpace c = true) : opensQuote c = false := by
  have hor : c = ' ' ∨ c = '\t' ∨ c = '\n' ∨ c = '\x0c' ∨ c = '\r' := by simpa [isAsciiSpace, or_assoc] using h
  obtain rfl | rfl | rfl | rfl | rfl := hor
  · rfl
  · rfl
  · rfl
  · rfl
  · rfl

theorem opensQuote_of_isWhitespace (h : isWhitespace c = true) : opensQuote c = false := by
  by_contra hquote
  obtain rfl | rfl | rfl := eq_of_opensQuote hquote
  · exact absurd h (by decide)
  · exact absurd h (by decide)
  · exact absurd h (by decide)

theorem opensQuote_of_isDigit (h : c.isDigit = true) : opensQuote c = false :=
  opensQuote_of_isBareChar (by simp [isBareChar, isNumberChar, Char.isAlphanum, h])

theorem opensQuote_of_isAlpha (h : c.isAlpha = true) : opensQuote c = false :=
  opensQuote_of_isBareChar (by simp [isBareChar, isNumberChar, Char.isAlphanum, h])

theorem opensQuote_intervalFunctionSuffix {unit suffix : List Char} (h : intervalFunctionSuffix unit = some suffix) :
    ∀ c ∈ suffix, opensQuote c = false := by
  have hmem := List.mem_of_find?_eq_some h
  have hall : (["Nanosecond", "Microsecond", "Millisecond", "Second", "Minute", "Hour", "Day", "Week", "Month",
      "Quarter", "Year"].map String.toList).all (·.all fun c ↦ !opensQuote c) = true := by decide
  intro c hc
  simpa using List.all_eq_true.1 (List.all_eq_true.1 hall suffix hmem) c hc

/-- An interval literal has no quotes, before and after it is rewritten. -/
theorem intervalLiteral_eq_some {literal : List Char} {length : ℕ}
    (h : intervalLiteral s = some (literal, length)) :
    ∃ front left, s = front ++ left ∧ length = front.length ∧ front ≠ [] ∧ (∀ c ∈ front, opensQuote c = false) ∧
      literal ≠ [] ∧ ∀ c ∈ literal, opensQuote c = false := by
  simp only [intervalLiteral] at h
  generalize hspaced : s.drop 8 = spaced at h
  generalize hnumber : spaced.dropWhile isAsciiSpace = number at h
  generalize hsign : (if number.head? = some '+' ∨ number.head? = some '-' then number.take 1 else []) = sign at h
  generalize hunsigned : number.drop sign.length = unsigned at h
  generalize hdigits : unsigned.takeWhile Char.isDigit = digits at h
  rw [← List.drop_drop, hunsigned] at h
  generalize hafter : unsigned.drop digits.length = afterNumber at h
  generalize hword : afterNumber.dropWhile isAsciiSpace = word at h
  generalize hunit : word.takeWhile Char.isAlpha = unit at h
  split at h
  · next hkeyword =>
    split at h
    · obtain ⟨suffix, hsuffix, h⟩ := Option.map_eq_some_iff.1 h
      cases h
      rw [Bool.and_eq_true] at hkeyword
      have hsigned : number = sign ++ unsigned := by
        rw [← hunsigned, ← hsign]
        split
        · exact (List.prefix_iff_eq_append.1 (List.take_prefix 1 number)).symm
        · rfl
      have hs : s = (s.take 8 ++ (spaced.takeWhile isAsciiSpace ++ (sign ++ (digits ++
          (afterNumber.takeWhile isAsciiSpace ++ unit))))) ++ word.drop unit.length := by
        have hwordSplit : word = unit ++ word.drop unit.length := by
          rw [← hunit]
          exact (List.prefix_iff_eq_append.1 (List.takeWhile_prefix _)).symm
        have hunsignedSplit : unsigned = digits ++ afterNumber := by
          rw [← hafter, ← hdigits]
          exact (List.prefix_iff_eq_append.1 (List.takeWhile_prefix _)).symm
        calc s
          _ = s.take 8 ++ spaced := by rw [← hspaced, List.take_append_drop]
          _ = s.take 8 ++ (spaced.takeWhile isAsciiSpace ++ number) := by
            rw [← hnumber, List.takeWhile_append_dropWhile]
          _ = s.take 8 ++ (spaced.takeWhile isAsciiSpace ++ (sign ++ (digits ++
              (afterNumber.takeWhile isAsciiSpace ++ word)))) := by
            rw [hsigned, hunsignedSplit, ← hword, List.takeWhile_append_dropWhile]
          _ = _ := by
            conv_lhs => rw [hwordSplit]
            simp only [List.append_assoc]
      have hspaces : ∀ t : List Char, ∀ c ∈ t.takeWhile isAsciiSpace, opensQuote c = false := fun t c hc ↦
        opensQuote_of_isAsciiSpace (List.mem_takeWhile_imp hc)
      have hsignPlain : ∀ c ∈ sign, opensQuote c = false := by
        rw [← hsign]
        split
        · next hplus =>
          cases number with
          | nil => nofun
          | cons d number =>
            intro c hc
            obtain hd | hd := hplus
            · cases hd
              rw [List.mem_singleton.1 hc]
              rfl
            · cases hd
              rw [List.mem_singleton.1 hc]
              rfl
        · nofun
      have hdigitsPlain : ∀ c ∈ digits, opensQuote c = false := fun c hc ↦
        opensQuote_of_isDigit (List.mem_takeWhile_imp (hdigits ▸ hc))
      refine ⟨_, _, hs, ?_, ?_, ?_, by simp, ?_⟩
      · conv_lhs => rw [hs]
        rw [List.length_append, Nat.add_sub_cancel]
      · have hlength : (s.take 8).length = 8 := by
          have hmap := congrArg List.length (beq_iff_eq.1 hkeyword.1)
          rwa [List.length_map, List.length_map] at hmap
        exact List.append_ne_nil_of_left_ne_nil (List.ne_nil_of_length_pos (by omega)) _
      · intro c hc
        simp only [List.mem_append] at hc
        obtain hc | hc | hc | hc | hc | hc := hc
        · exact opensQuote_of_sameIgnoringCase hkeyword.1 (by decide) c hc
        · exact hspaces _ c hc
        · exact hsignPlain c hc
        · exact hdigitsPlain c hc
        · exact hspaces _ c hc
        · exact opensQuote_of_isAlpha (List.mem_takeWhile_imp (hunit ▸ hc))
      · intro c hc
        simp only [List.mem_append, List.mem_singleton] at hc
        obtain ((((hc | hc) | rfl) | hc) | hc) | rfl := hc
        · revert c
          decide
        · exact opensQuote_intervalFunctionSuffix hsuffix c hc
        · rfl
        · exact hsignPlain c hc
        · exact hdigitsPlain c hc
        · rfl
    · cases h
  · cases h

/-! ### The comparison of TTLs -/

theorem canonicalizeFrom_skip (skip : ℕ) (previous : Option Char) (s : List Char) :
    ∃ previous', canonicalizeFrom none false previous skip s = canonicalizeFrom none false previous' 0 (s.drop skip) := by
  induction s generalizing skip previous with
  | nil => exact ⟨previous, by cases skip <;> rfl⟩
  | cons c rest ih =>
    cases skip with
    | zero => exact ⟨previous, rfl⟩
    | succ skip => exact ih skip (some c)

/-- A character that opens no quote is written as it stands, or with the interval literal that it starts. -/
theorem canonicalizeFrom_plain (hquote : opensQuote c = false) (previous : Option Char) (rest : List Char) :
    canonicalizeFrom none false previous 0 (c :: rest) = c :: canonicalizeFrom none false (some c) 0 rest ∨
      ∃ literal front left previous', c :: rest = front ++ left ∧ front ≠ [] ∧ (∀ d ∈ front, opensQuote d = false) ∧
        literal ≠ [] ∧ (∀ d ∈ literal, opensQuote d = false) ∧
        canonicalizeFrom none false previous 0 (c :: rest) = literal ++ canonicalizeFrom none false previous' 0 left := by
  have hnot : ¬ (c = '\'' ∨ c = '"' ∨ c = '\x60') := by
    rintro (rfl | rfl | rfl) <;> exact absurd hquote (by decide)
  rw [canonicalizeFrom, if_neg hnot]
  split
  · next literal length hliteral =>
    split at hliteral
    · cases hliteral
    · obtain ⟨front, left, hsplit, rfl, hne, hfront, hwritten, hplain⟩ := intervalLiteral_eq_some hliteral
      obtain ⟨previous', hskip⟩ := canonicalizeFrom_skip (front.length - 1) (some c) rest
      refine .inr ⟨literal, front, left, previous', hsplit, hne, hfront, hwritten, hplain, ?_⟩
      obtain ⟨d, front, rfl⟩ := List.exists_cons_of_ne_nil hne
      cases hsplit
      rw [hskip]
      simp
  · exact .inl rfl

/-- A quoted body is written as it stands. -/
theorem canonicalizeFrom_body (hquote : opensQuote quote = true) (hbody : QuotedBody quote body)
    (previous : Option Char) (after : List Char) :
    ∃ previous', canonicalizeFrom (some quote) false previous 0 (body ++ quote :: after) =
      body ++ quote :: canonicalizeFrom none false previous' 0 after := by
  have hescape : quote ≠ '\\' := by rintro rfl; cases hquote
  have hor : quote = '\'' ∨ quote = '"' ∨ quote = '\x60' := eq_of_opensQuote (by simp [hquote])
  induction hbody generalizing previous with
  | nil => exact ⟨some quote, by simp [canonicalizeFrom, hescape]⟩
  | escape d hbody ih =>
    obtain ⟨previous', ih⟩ := ih (some d)
    exact ⟨previous', by simp [canonicalizeFrom, ih]⟩
  | doubled hne hbody ih =>
    obtain ⟨previous', ih⟩ := ih (some quote)
    exact ⟨previous', by simp [canonicalizeFrom, hescape, hor, ih]⟩
  | @plain c rest hc hne hbody ih =>
    obtain ⟨previous', ih⟩ := ih (some c)
    exact ⟨previous', by simp [canonicalizeFrom, hc, hne, ih]⟩

theorem canonicalizeFrom_quoted (hquote : opensQuote quote = true) (hbody : QuotedBody quote body)
    (previous : Option Char) (after : List Char) :
    ∃ previous', canonicalizeFrom none false previous 0 (quote :: (body ++ quote :: after)) =
      quote :: (body ++ quote :: canonicalizeFrom none false previous' 0 after) := by
  have hor : quote = '\'' ∨ quote = '"' ∨ quote = '\x60' := eq_of_opensQuote (by simp [hquote])
  obtain ⟨previous', hrest⟩ := canonicalizeFrom_body hquote hbody (some quote) after
  exact ⟨previous', by rw [canonicalizeFrom, if_pos hor, hrest]⟩

/-- What is written starts with a quote only if the text does. -/
theorem head?_canonicalizeFrom_ne (hquote : opensQuote quote = true) (previous : Option Char)
    (hs : s.head? ≠ some quote) : (canonicalizeFrom none false previous 0 s).head? ≠ some quote := by
  cases s with
  | nil => nofun
  | cons c rest =>
    cases hc : opensQuote c with
    | true =>
      rw [canonicalizeFrom, if_pos (eq_of_opensQuote (by simp [hc]))]
      exact hs
    | false =>
      obtain hcopy | ⟨literal, front, left, previous', -, -, -, hne, hplain, hwritten⟩ :=
        canonicalizeFrom_plain hc previous rest
      · rw [hcopy]
        exact hs
      · obtain ⟨d, literal, rfl⟩ := List.exists_cons_of_ne_nil hne
        rw [hwritten]
        intro heq
        rw [Option.some.inj heq] at hplain
        exact absurd (hplain quote List.mem_cons_self) (by simp [hquote])

theorem quotedParts_append (hfront : ∀ c ∈ front, opensQuote c = false) (s : List Char) :
    quotedParts 0 (front ++ s) = quotedParts 0 s := by
  induction front with
  | nil => rfl
  | cons c front ih =>
    rw [List.cons_append, quotedParts_plain (hfront c List.mem_cons_self)]
    exact ih fun d hd ↦ hfront d (List.mem_cons_of_mem _ hd)

theorem Pieces.of_plain {rest : List Char} (hquote : opensQuote c = false) (h : Pieces (c :: rest)) :
    Pieces rest := by
  cases h with
  | plain _ hrest => exact hrest
  | quoted hcontra => rw [hquote] at hcontra; cases hcontra

/-- A text is in pieces behind characters that open no quote. -/
theorem Pieces.of_append (hfront : ∀ c ∈ front, opensQuote c = false) (h : Pieces (front ++ s)) :
    Pieces s := by
  induction front with
  | nil => exact h
  | cons c front ih =>
    exact ih (fun d hd ↦ hfront d (List.mem_cons_of_mem _ hd)) (h.of_plain (hfront c List.mem_cons_self))

/-- Rewriting the interval literals leaves the quoted parts as they are. -/
theorem Pieces.quotedParts_canonicalizeFrom (h : Pieces s) (previous : Option Char) :
    quotedParts 0 (canonicalizeFrom none false previous 0 s) = quotedParts 0 s := by
  induction hlength : s.length using Nat.strongRecOn generalizing s previous with
  | _ length ih =>
    cases h with
    | nil => rfl
    | @plain c rest hquote hrest =>
      obtain hcopy | ⟨literal, front, left, previous', hsplit, hne, hfront, -, hplain, hwritten⟩ :=
        canonicalizeFrom_plain hquote previous rest
      · rw [hcopy, quotedParts_plain hquote, quotedParts_plain hquote]
        exact ih _ (by rw [← hlength]; exact Nat.lt_succ_self _) hrest _ rfl
      · have hpieces : Pieces (front ++ left) := hsplit ▸ .plain hquote hrest
        rw [hwritten, hsplit, quotedParts_append hplain, quotedParts_append hfront]
        refine ih _ ?_ (hpieces.of_append hfront) _ rfl
        rw [← hlength, hsplit, List.length_append]
        exact Nat.lt_add_of_pos_left (List.length_pos_of_ne_nil hne)
    | @quoted quote body rest hquote hbody hafter hrest =>
      obtain ⟨previous', hwritten⟩ := canonicalizeFrom_quoted hquote hbody previous rest
      rw [hwritten, quotedParts_quoted hquote hbody (head?_canonicalizeFrom_ne hquote previous' hafter),
        quotedParts_quoted hquote hbody hafter]
      refine congrArg _ (ih _ ?_ hrest _ rfl)
      rw [← hlength]
      simp
      omega

/-- A text without what stands at its end and has no quote. -/
theorem Pieces.append_iff {trail : List Char} (htrail : ∀ c ∈ trail, opensQuote c = false)
    (h : Pieces (s ++ trail)) :
    Pieces s ∧ quotedParts 0 (s ++ trail) = quotedParts 0 s := by
  induction hlength : s.length using Nat.strongRecOn generalizing s with
  | _ length ih =>
    cases s with
    | nil =>
      have hnone := quotedParts_append htrail []
      rw [List.append_nil] at hnone
      exact ⟨.nil, hnone⟩
    | cons c s =>
      cases hquote : opensQuote c with
      | false =>
        obtain ⟨hpieces, hparts⟩ := ih _ (by rw [← hlength]; exact Nat.lt_succ_self _) (h.of_plain hquote) rfl
        refine ⟨.plain hquote hpieces, ?_⟩
        rw [List.cons_append, quotedParts_plain hquote, quotedParts_plain hquote, hparts]
      | true =>
        generalize htext : c :: s ++ trail = text at h
        cases h with
        | nil => cases htext
        | plain hplain hrest =>
          rw [← (List.cons.inj htext).1, hquote] at hplain
          cases hplain
        | @quoted quote body rest _ hbody hafter hrest =>
          obtain ⟨rfl, htext⟩ := List.cons.inj htext
          -- the closing quote is not in the trail
          obtain ⟨between, rfl, htrailing⟩ | ⟨closed, rfl, hclosed⟩ := List.append_eq_append_iff.1 htext
          · have hcontra := htrail c (htrailing ▸ List.mem_append_right _ List.mem_cons_self)
            rw [hquote] at hcontra
            cases hcontra
          · cases closed with
            | nil =>
              rw [List.nil_append] at hclosed
              have hcontra := htrail c (hclosed ▸ List.mem_cons_self)
              rw [hquote] at hcontra
              cases hcontra
            | cons d after =>
              obtain ⟨rfl, rfl⟩ := List.cons.inj hclosed
              have hhead : after.head? ≠ some c := by
                cases after with
                | nil => nofun
                | cons d after => exact hafter
              obtain ⟨hpieces, hparts⟩ := ih _ (by rw [← hlength]; simp; omega) hrest rfl
              refine ⟨.quoted hquote hbody hhead hpieces, ?_⟩
              refine (quotedParts_quoted hquote hbody hafter).trans ?_
              rw [quotedParts_quoted hquote hbody hhead, ← hparts]
              rfl

/-- Taking the default action of a TTL away leaves the quoted parts as they are. -/
theorem Pieces.stripTrailingDefaultDelete {s : List Char} (h : Pieces s) :
    Pieces (stripTrailingDefaultDelete alphanumeric s) ∧
      quotedParts 0 (ClickHouse.stripTrailingDefaultDelete alphanumeric s) = quotedParts 0 s := by
  rw [ClickHouse.stripTrailingDefaultDelete]
  split
  · exact ⟨h, rfl⟩
  · next hdelete =>
    have hkeyword : sameIgnoringCase (s.drop (s.length - 6)) "DELETE".toList = true :=
      not_not.1 (not_or.1 hdelete).2
    split
    · generalize hfront : s.take (s.length - 6) = front
      have hs : s = (front.reverse.dropWhile isWhitespace).reverse ++
          ((front.reverse.takeWhile isWhitespace).reverse ++ s.drop (s.length - 6)) := by
        rw [← List.append_assoc, ← List.reverse_append, List.takeWhile_append_dropWhile, List.reverse_reverse, ← hfront,
          List.take_append_drop]
      have htrail : ∀ c ∈ (front.reverse.takeWhile isWhitespace).reverse ++ s.drop (s.length - 6),
          opensQuote c = false := by
        intro c hc
        obtain hc | hc := List.mem_append.1 hc
        · exact opensQuote_of_isWhitespace (List.mem_takeWhile_imp (List.mem_reverse.1 hc))
        · exact opensQuote_of_sameIgnoringCase hkeyword (by decide) c hc
      obtain ⟨hpieces, hparts⟩ := Pieces.append_iff htrail (hs ▸ h)
      exact ⟨hpieces, hparts.symm.trans (congrArg _ hs.symm)⟩
    · exact ⟨h, rfl⟩

/-- **A TTL** that is compared has the quoted parts of the expression. -/
theorem Pieces.quotedParts_canonicalizeTtlExpression {value : String} (h : Pieces value.toList) (implicit : Bool) :
    quotedParts 0 (canonicalizeTtlExpression alphanumeric value implicit) = quotedParts 0 value.toList := by
  have hnormalized := @Pieces.normalizeFrom alphanumeric _ h false false
  have hparts := @Pieces.quotedParts_normalizeFrom alphanumeric _ h false false
  rw [canonicalizeTtlExpression, normalizeExpression_eq h]
  cases implicit with
  | false => exact (hnormalized.quotedParts_canonicalizeFrom none).trans hparts
  | true =>
    obtain ⟨hpieces, hstripped⟩ := @Pieces.stripTrailingDefaultDelete alphanumeric _ hnormalized
    exact (hpieces.quotedParts_canonicalizeFrom none).trans (hstripped.trans hparts)

/-! ### Tables -/

/-- The expression `left` of a column stands where its target has `right`. -/
def ComparedInColumn (actual : ColumnSchema) (expected : CreateColumnTarget) (left right : String) : Prop :=
  (actual.defaultExpression = some left ∧ expected.defaultExpression = some right) ∨
    (actual.ttlExpression = some left ∧ expected.ttlExpression = some right) ∨
    (actual.codecExpression = some left ∧ expected.codecs ≠ [] ∧ renderCodecs expected.codecs = right)

/-- The same for the keys that an alteration leaves alone. -/
def ComparedInImmutableKeys (actual expected : KeySchema) (left right : String) : Prop :=
  (actual.orderBy = left ∧ expected.orderBy = right) ∨
    (actual.partitionBy = some left ∧ expected.partitionBy = some right) ∨
    (actual.primaryKey = some left ∧ expected.primaryKey = some right)

def ComparedInSampleBy (actual expected : KeySchema) (left right : String) : Prop :=
  actual.sampleBy = some left ∧ expected.sampleBy = some right

def ComparedInTableTtl (schema : TableSchema) (target : CreateTableTarget) (left right : String) : Prop :=
  schema.tableTtl = some left ∧ target.tableTtl = some right

/-- The expression `left` of a table stands where its target has `right`. -/
def ComparedInTable (schema : TableSchema) (target : CreateTableTarget) (left right : String) : Prop :=
  (∃ (index : ℕ) (actual : ColumnSchema) (expected : CreateColumnTarget), schema.columns[index]? = some actual ∧
      target.columns[index]? = some expected ∧
      ComparedInColumn actual expected left right) ∨
    ComparedInImmutableKeys schema.keys target.keys left right ∨
    ComparedInSampleBy schema.keys target.keys left right ∨ ComparedInTableTtl schema target left right

/-- The operation spells out the changed definition of a column. -/
def ModifiesDefinition (column : CreateColumnTarget) : AlterOperation → Prop
  | .modifyColumn modified _ _ definitionChanged _ _ _ _ => modified = column ∧ definitionChanged = true
  | _ => False

/-- The operations take `left` for changed, wherever it stands: no plan is made where the expression cannot be
altered. -/
structure PlansChange (target : AlterTableTarget) (operations : List AlterOperation) (left right : String) : Prop where
  hcolumn : ∀ column ∈ target.desired.columns, ∀ baseline, target.source? column.name = some baseline →
    ComparedInColumn baseline column left right → ∃ operation ∈ operations, ModifiesDefinition column operation
  hsampleBy : ComparedInSampleBy target.baseline.keys target.desired.keys left right →
    .modifySampleBy right ∈ operations
  htableTtl : ComparedInTableTtl target.baseline target.desired left right → .modifyTableTtl right ∈ operations
  hkeys : ¬ ComparedInImmutableKeys target.baseline.keys target.desired.keys left right

/-- **What the comparison promises** for two expressions: it normalises them in one go, and it does not overlook a
change of their quoted tokens, in a target and in the difference of a table and its target. -/
structure LiteralsShown (alphanumeric : Char → Bool) (left right : String) : Prop where
  hleft : NormalizesOnce alphanumeric left
  hright : NormalizesOnce alphanumeric right
  hequal : normalizedExpressionEqual alphanumeric left right = true → quotedTokens left.toList = quotedTokens right.toList
  hmatches : quotedTokens left.toList ≠ quotedTokens right.toList → ∀ target schema,
    ComparedInTable schema target left right → tableSchemaMatchesTarget alphanumeric target schema = false
  hplans : quotedTokens left.toList ≠ quotedTokens right.toList → ∀ target operations,
    diffAlterTable alphanumeric target = .ok operations → PlansChange target operations left right

/-- What the comparisons of the source say about two expressions. -/
structure ToldApart (alphanumeric : Char → Bool) (left right : String) : Prop where
  hexpression : normalizedExpressionEqual alphanumeric left right = false
  httl : ∀ implicit, optionalTtlExpressionEqual alphanumeric (some left) (some right) implicit = false

theorem ToldApart.column (h : ToldApart alphanumeric left right) {actual : ColumnSchema}
    {expected : CreateColumnTarget} (hcompared : ComparedInColumn actual expected left right) :
    (compareColumnDefinition alphanumeric actual expected).nonCommentChanged = true ∧
      ∀ index, columnMatches alphanumeric index actual expected = false := by
  obtain ⟨hactual, hexpected⟩ | ⟨hactual, hexpected⟩ | ⟨hactual, hexpected, rfl⟩ := hcompared
  · have hdefault : optionalNormalizedExpressionEqual alphanumeric actual.defaultExpression expected.defaultExpression =
        false := by rw [hactual, hexpected]; exact h.hexpression
    exact ⟨by simp [compareColumnDefinition, hdefault], fun index ↦ by simp [columnMatches, hdefault]⟩
  · have hnormalized : optionalNormalizedExpressionEqual alphanumeric actual.ttlExpression expected.ttlExpression =
        false := by rw [hactual, hexpected]; exact h.hexpression
    have httl : optionalTtlExpressionEqual alphanumeric actual.ttlExpression expected.ttlExpression false = false := by
      rw [hactual, hexpected]
      exact h.httl false
    exact ⟨by simp [compareColumnDefinition, hnormalized], fun index ↦ by simp [columnMatches, httl]⟩
  · have hcodec : codecMatches alphanumeric actual.codecExpression expected.codecs = false := by
      rw [codecMatches, hactual, if_neg hexpected]
      exact h.hexpression
    exact ⟨by simp [compareColumnDefinition, hcodec], fun index ↦ by simp [columnMatches, hcodec]⟩

theorem ToldApart.not_matches (h : ToldApart alphanumeric left right) {schema : TableSchema}
    {target : CreateTableTarget} (hcompared : ComparedInTable schema target left right) :
    tableSchemaMatchesTarget alphanumeric target schema = false := by
  by_contra hmatches
  rw [Bool.not_eq_false, tableSchemaMatchesTarget] at hmatches
  simp only [Bool.and_eq_true] at hmatches
  obtain ⟨⟨⟨⟨⟨⟨⟨⟨-, hcolumns⟩, hpartition⟩, hprimary⟩, horder⟩, hsample⟩, httl⟩, -⟩, -⟩ := hmatches
  obtain ⟨index, actual, expected, hactual, hexpected, hcolumn⟩ | hkeys | ⟨hactual, hexpected⟩ | ⟨hactual, hexpected⟩ :=
    hcompared
  · have hzip : (schema.columns.zip target.columns).zipIdx[index]? = some ((actual, expected), index) := by
      have hpair : (schema.columns.zip target.columns)[index]? = some (actual, expected) :=
        List.getElem?_zip_eq_some.2 ⟨hactual, hexpected⟩
      simp [List.getElem?_zipIdx, hpair]
    have hpair := List.all_eq_true.1 hcolumns _ (List.mem_of_getElem? hzip)
    rw [(h.column hcolumn).2 index] at hpair
    cases hpair
  · obtain ⟨hactual, hexpected⟩ | ⟨hactual, hexpected⟩ | ⟨hactual, hexpected⟩ := hkeys
    · rw [hactual, hexpected, h.hexpression] at horder
      cases horder
    · rw [hactual, hexpected] at hpartition
      cases h.hexpression.symm.trans hpartition
    · rw [hactual, hexpected] at hprimary
      cases h.hexpression.symm.trans hprimary
  · rw [hactual, hexpected] at hsample
    cases h.hexpression.symm.trans hsample
  · rw [hactual, hexpected, h.httl true] at httl
    cases httl

/-- A column whose definition changed is modified, wherever the loop finds it. -/
theorem exists_modifyColumn {entries : List (CreateColumnTarget × ℕ)} {order : List String}
    {modifies comments : List AlterOperation}
    (hmodify : modifyColumns alphanumeric target entries order = .ok (modifies, comments))
    {column : CreateColumnTarget} {index : ℕ} (hmem : (column, index) ∈ entries) {baseline : ColumnSchema}
    (hsource : target.source? column.name = some baseline)
    (hchanged : (compareColumnDefinition alphanumeric baseline column).nonCommentChanged = true) :
    ∃ operation ∈ modifies, ModifiesDefinition column operation := by
  induction entries generalizing order modifies comments with
  | nil => cases hmem
  | cons entry rest ih =>
    obtain ⟨desired, at_⟩ := entry
    rw [modifyColumns] at hmodify
    obtain ⟨source, hname, hbaseline⟩ := Option.bind_eq_some_iff.1 hsource
    obtain heq | hlater := List.mem_cons.1 hmem
    · cases heq
      simp only [hname, hbaseline] at hmodify
      split at hmodify
      · cases hmodify
      · obtain ⟨⟨later, laterComments⟩, -, h⟩ := bind_eq_ok_iff.1 hmodify
        cases h
        have hdefinition : (compareColumnDefinition alphanumeric baseline column).definitionChanged = true := by
          show ((compareColumnDefinition alphanumeric baseline column).nonCommentChanged || _) = true
          rw [hchanged, Bool.true_or]
        simp only [columnOperations, hchanged, hdefinition, Bool.not_true, Bool.and_false, Bool.false_and,
          Bool.true_or, if_true]
        exact ⟨_, List.mem_append_left _ List.mem_cons_self, rfl, rfl⟩
    · split at hmodify
      · exact ih hmodify hlater
      · split at hmodify
        · cases hmodify
        · split at hmodify
          · cases hmodify
          · obtain ⟨⟨later, laterComments⟩, hrest, h⟩ := bind_eq_ok_iff.1 hmodify
            cases h
            obtain ⟨operation, hoperation, hmodifies⟩ := ih hrest hlater
            exact ⟨operation, List.mem_append_right _ hoperation, hmodifies⟩

theorem ToldApart.plansChange (h : ToldApart alphanumeric left right) {operations : List AlterOperation}
    (hdiff : diffAlterTable alphanumeric target = .ok operations) :
    PlansChange target operations left right := by
  obtain ⟨_, hvalid, hdiff⟩ := bind_eq_ok_iff.1 hdiff
  obtain ⟨renames, -, hdiff⟩ := bind_eq_ok_iff.1 hdiff
  obtain ⟨⟨order, adds⟩, -, hdiff⟩ := bind_eq_ok_iff.1 hdiff
  obtain ⟨⟨modifies, comments⟩, hmodify, hdiff⟩ := bind_eq_ok_iff.1 hdiff
  obtain ⟨-, hdiff⟩ := ite_error_eq_ok_iff.1 hdiff
  cases hdiff
  refine ⟨fun column hcolumn baseline hsource hcompared ↦ ?_, fun hcompared ↦ ?_, fun hcompared ↦ ?_, fun hcompared ↦ ?_⟩
  · obtain ⟨index, hindex⟩ := List.mem_iff_getElem?.1 hcolumn
    have hentry : (column, index) ∈ target.desired.columns.zipIdx := List.mem_of_getElem? (by
      rw [List.getElem?_zipIdx, hindex]
      simp)
    obtain ⟨operation, hoperation, hmodifies⟩ := exists_modifyColumn hmodify hentry hsource (h.column hcompared).1
    exact ⟨operation, by simp [hoperation], hmodifies⟩
  · have hsample : AlterOperation.modifySampleBy right ∈ sampleByOperations alphanumeric target := by
      simp [sampleByOperations, hcompared.1, hcompared.2, optionalNormalizedExpressionEqual, h.hexpression]
    simp [tableOperations_eq, hsample]
  · have httl : AlterOperation.modifyTableTtl right ∈ tableTtlOperations alphanumeric target := by
      simp [tableTtlOperations, hcompared.1, hcompared.2, optionalNormalizedExpressionEqual, h.hexpression]
    simp [tableOperations_eq, httl]
  · -- keys that change are refused before the difference is taken
    obtain ⟨-, -, -, -, -, -, -, -, horder, hpartition, hprimary⟩ := finalTable_fixed (validateAlterTarget_eq_ok hvalid)
    obtain ⟨hactual, hexpected⟩ | ⟨hactual, hexpected⟩ | ⟨hactual, hexpected⟩ := hcompared
    · rw [hactual, hexpected, h.hexpression] at horder
      cases horder
    · rw [hactual, hexpected] at hpartition
      cases h.hexpression.symm.trans hpartition
    · rw [hactual, hexpected] at hprimary
      cases h.hexpression.symm.trans hprimary

/-! ### Expressions without heredocs -/

/-- The expression has no heredoc. -/
def WithoutHeredocs (expression : String) : Prop :=
  ∀ text, .heredoc text ∉ expressionTokens expression.toList

/-- Expressions whose quoted tokens differ are told apart. -/
theorem toldApart_of_ne {left right : String} (hleft : Accepts left.toList) (hright : Accepts right.toList)
    (hleftPlain : WithoutHeredocs left) (hrightPlain : WithoutHeredocs right)
    (hne : quotedTokens left.toList ≠ quotedTokens right.toList) : ToldApart alphanumeric left right := by
  have hparts : quotedParts 0 left.toList ≠ quotedParts 0 right.toList := by
    rw [quotedTokens_eq _ hleft hleftPlain, quotedTokens_eq _ hright hrightPlain] at hne
    exact fun heq ↦ hne (by rw [heq])
  have hl := pieces_of_accepts hleft
  have hr := pieces_of_accepts hright
  refine ⟨beq_eq_false_iff_ne.2 fun heq ↦ hparts ?_, fun implicit ↦ beq_eq_false_iff_ne.2 fun heq ↦ hparts ?_⟩
  · rw [← @Pieces.quotedParts_normalizeFrom alphanumeric _ hl false false, ← normalizeExpression_eq hl, heq,
      normalizeExpression_eq hr, hr.quotedParts_normalizeFrom]
  · rw [← @Pieces.quotedParts_canonicalizeTtlExpression alphanumeric _ hl implicit, heq,
      hr.quotedParts_canonicalizeTtlExpression]

theorem literalsShown_of_withoutHeredocs (hleft : Accepts left.toList) (hright : Accepts right.toList)
    (hleftPlain : WithoutHeredocs left) (hrightPlain : WithoutHeredocs right) :
    LiteralsShown alphanumeric left right := by
  have htold := @toldApart_of_ne alphanumeric left right hleft hright hleftPlain hrightPlain
  refine ⟨(pieces_of_accepts hleft).normalizesOnce, (pieces_of_accepts hright).normalizesOnce, fun heq ↦ ?_,
    fun hne target schema hcompared ↦ (htold hne).not_matches hcompared,
    fun hne target operations hdiff ↦ (htold hne).plansChange hdiff⟩
  by_contra hne
  rw [(htold hne).hexpression] at heq
  cases heq

/-- What is alike is taken for one expression, and for the same. -/
theorem Alike.of_accepted {expression path : String} {s' : List Char} (h : Alike alphanumeric expression.toList s')
    (haccepted : validateSingleExpression expression path = .ok ()) :
    validateSingleExpression (String.ofList s') path = .ok () ∧
      normalizedExpressionEqual alphanumeric expression (String.ofList s') = true := by
  have hscan : scanBoundary {} expression.toList = .ok () := by
    rw [validateSingleExpression] at haccepted
    split at haccepted
    · cases haccepted
    · split at haccepted
      · cases haccepted
      · assumption
  have htrim : trim s' ≠ [] := by
    intro hnil
    obtain ⟨lead, trail, hlead, htrail, hs⟩ := exists_trim s'
    obtain ⟨u, v, -, rfl⟩ := h.hspaced
    rw [hnil, List.append_nil] at hs
    have hdollar : '$' ∈ lead ++ trail := hs ▸ List.mem_append_right _ List.mem_cons_self
    obtain hmem | hmem := List.mem_append.1 hdollar
    · exact absurd (hlead _ hmem) (by decide)
    · exact absurd (htrail _ hmem) (by decide)
  have hother : validateSingleExpression (String.ofList s') path = .ok () := by
    refine validateSingleExpression_eq_ok ?_ ?_
    · rwa [String.toList_ofList]
    · rw [String.toList_ofList]
      exact (h.hscan []).trans hscan
  refine ⟨hother, beq_iff_eq.2 ?_⟩
  rw [normalizeExpression_eq (pieces_of_accepts (accepts_of_validate haccepted)),
    normalizeExpression_eq (pieces_of_accepts (accepts_of_validate hother)), String.toList_ofList, h.hnormalized]

/-- **No literal change is overlooked** in an expression without heredocs, against another one without; an expression
with a heredoc has another one whose literals differ, and the comparison does not see it. -/
theorem literalsShown_iff (hdollar : alphanumeric '$' = false) {expression path : String}
    (haccepted : validateSingleExpression expression path = .ok ()) :
    (∀ other path', validateSingleExpression other path' = .ok () →
      (WithoutHeredocs expression → WithoutHeredocs other) → LiteralsShown alphanumeric expression other) ↔
        WithoutHeredocs expression := by
  refine ⟨fun h ↦ ?_, fun hplain other path' hother hothers ↦
    literalsShown_of_withoutHeredocs (accepts_of_validate haccepted) (accepts_of_validate hother) hplain (hothers hplain)⟩
  by_contra hheredoc
  have hfound : ∃ text, .heredoc text ∈ expressionTokens expression.toList := by
    simpa [WithoutHeredocs] using hheredoc
  obtain ⟨other, halike, hne⟩ := exists_collision hdollar expression.toList (accepts_of_validate haccepted) hfound
  obtain ⟨hother, hequal⟩ := halike.of_accepted haccepted
  have hshown := h (String.ofList other) path hother fun hplain ↦ absurd hplain hheredoc
  refine hne ?_
  rw [hshown.hequal hequal, String.toList_ofList]

namespace LiteralSample

/-- A string literal with a blank. -/
theorem literalsShown_string : Char.isAlphanum '$' = false ∧ ∀ other path',
    validateSingleExpression other path' = .ok () → (WithoutHeredocs "concat(a, 'x  y')" → WithoutHeredocs other) →
      LiteralsShown Char.isAlphanum "concat(a, 'x  y')" other := by
  have htokens : expressionTokens "concat(a, 'x  y')".toList = [.word "concat".toList, .symbol '(', .word "a".toList,
      .symbol ',', .symbol ' ', .quoted '\'' "x  y".toList, .symbol ')'] := by decide
  have hplain : WithoutHeredocs "concat(a, 'x  y')" := by
    intro text
    rw [htokens]
    simp
  exact ⟨by decide, (@literalsShown_iff Char.isAlphanum (by decide) "concat(a, 'x  y')" "DEFAULT"
    (validateSingleExpression_eq_ok (by decide) (by simp [scanBoundary, startsComment, matchingDelimiter]))).2 hplain⟩

/-- White space in a heredoc is dropped: two defaults that differ in a literal are taken for the same. -/
theorem heredoc_collision : ¬ ∀ left right path path', validateSingleExpression left path = .ok () →
    validateSingleExpression right path' = .ok () → normalizedExpressionEqual Char.isAlphanum left right = true →
      quotedTokens left.toList = quotedTokens right.toList := by
  intro h
  have heq := h "$$a  b$$" "$$a b$$" "DEFAULT" "DEFAULT" (validateSingleExpression_eq_ok (by decide) rfl)
    (validateSingleExpression_eq_ok (by decide) rfl) (by decide)
  revert heq
  decide

end LiteralSample

end Literals

end ClickHouse
