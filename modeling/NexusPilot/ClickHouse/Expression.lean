import NexusPilot.Drivers.Error
import NexusPilot.Text.Std

/-!
# Expressions of a ClickHouse table

The free texts of a table description: which of them are taken for one expression
(`validate_single_expression`), whether one names a column (`expression_references_identifier`) and when
two are the same up to white space (`normalize_expression`).

The source walks over bytes where it looks for ASCII symbols only. A character beyond ASCII is one symbol
here and several there, and none of them is looked for. Which characters are alphanumeric is a matter of
Unicode tables: the predicate is a parameter, `alphanumeric`.
-/

namespace ClickHouse

open Drivers Text

/-! ### One expression -/

/-- `matching_delimiter`. -/
def matchingDelimiter (opening : Char) : Char :=
  if opening = '(' then ')' else if opening = '[' then ']' else '}'

/-- The loop variables of `scan_expression_boundary`. -/
structure BoundaryState where
  delimiters : List Char := []
  quote : Option Char := none
  escaped : Bool := false
  deriving DecidableEq

/-- The characters that `scan_expression_boundary` refuses outside quotes, with the one that follows. -/
def startsComment (c : Char) (rest : List Char) : Bool :=
  (c == '-' && rest.head? == some '-') || c == '#' || (c == '/' && rest.head? == some '*')

/-- `scan_expression_boundary`, from the loop variables on. -/
def scanBoundary (st : BoundaryState) : List Char → Except String Unit
  | [] =>
    if st.quote.isSome then .error "contains an unclosed quoted value"
    else if st.delimiters ≠ [] then .error "contains unclosed delimiters"
    else .ok ()
  | c :: rest =>
    match st.quote with
    | some active =>
      if st.escaped then scanBoundary { st with escaped := false } rest
      else if c = '\\' then scanBoundary { st with escaped := true } rest
      else if c = active then
        match rest with
        | d :: rest' =>
          if d = active then scanBoundary st rest' else scanBoundary { st with quote := none } (d :: rest')
        | [] => scanBoundary { st with quote := none } []
      else scanBoundary st rest
    | none =>
      if c = '\'' ∨ c = '"' ∨ c = '\x60' then scanBoundary { st with quote := some c } rest
      else if startsComment c rest then .error "must not contain SQL comments"
      else if c = '(' ∨ c = '[' ∨ c = '{' then
        scanBoundary { st with delimiters := matchingDelimiter c :: st.delimiters } rest
      else if c = ')' ∨ c = ']' ∨ c = '}' then
        if st.delimiters.head? = some c then scanBoundary { st with delimiters := st.delimiters.tail } rest
        else .error "contains mismatched delimiters"
      else if c = ';' ∧ st.delimiters = [] then .error "must contain exactly one expression"
      else scanBoundary st rest

/-- `validate_single_expression`. -/
def validateSingleExpression (input path : String) : IpcResult Unit :=
  if trim input.toList = [] then .error (.invalid s!"ClickHouse {path} requires a non-empty expression")
  else match scanBoundary {} input.toList with
    | .error reason => .error (.invalid s!"ClickHouse {path} {reason}")
    | .ok () => .ok ()

/-! ### References -/

/-- `is_identifier_start`. -/
def isIdentifierStart (c : Char) : Bool :=
  c == '_' || c.isAlpha || 0x80 ≤ c.toNat

/-- `is_identifier_continue`. -/
def isIdentifierContinue (c : Char) : Bool :=
  isIdentifierStart c || c.isDigit

/-- `read_quoted_identifier`, after the opening quote: the number of characters it takes, and the name. -/
def readQuotedIdentifier (quote : Char) (decoded : List Char) : List Char → ℕ × Option (List Char)
  | [] => (0, none)
  | [c] => (1, if c = '\\' then none else if c = quote then some decoded else none)
  | c :: d :: rest =>
    if c = '\\' then
      let r := readQuotedIdentifier quote (decoded ++ [d]) rest
      (r.1 + 2, r.2)
    else if c = quote then
      if d = quote then
        let r := readQuotedIdentifier quote (decoded ++ [quote]) rest
        (r.1 + 2, r.2)
      else (1, some decoded)
    else
      let r := readQuotedIdentifier quote (decoded ++ [c]) (d :: rest)
      (r.1 + 1, r.2)

/-- `skip_quoted_token`, after the opening quote: the number of characters it takes. -/
def skipQuotedToken (quote : Char) : List Char → ℕ
  | [] => 0
  | [_] => 1
  | c :: d :: rest =>
    if c = '\\' then skipQuotedToken quote rest + 2
    else if c = quote then if d = quote then skipQuotedToken quote rest + 2 else 1
    else skipQuotedToken quote (d :: rest) + 1

/-- The characters of a block comment, after its opening. -/
def blockCommentLength : List Char → ℕ
  | [] => 0
  | [_] => 1
  | c :: d :: rest => if c = '*' ∧ d = '/' then 2 else blockCommentLength (d :: rest) + 1

/-- The loop of `expression_references_identifier`; `skip` characters belong to a token that is read
already. -/
def referencesFrom (identifier : List Char) : ℕ → List Char → Bool
  | _, [] => false
  | skip + 1, _ :: rest => referencesFrom identifier skip rest
  | 0, c :: rest =>
    if c = '-' ∧ rest.head? = some '-' then
      referencesFrom identifier (rest.takeWhile (· ≠ '\n')).length rest
    else if c = '#' then referencesFrom identifier (rest.takeWhile (· ≠ '\n')).length rest
    else if c = '/' ∧ rest.head? = some '*' then
      referencesFrom identifier (1 + blockCommentLength rest.tail) rest
    else if c = '\'' then referencesFrom identifier (skipQuotedToken '\'' rest) rest
    else if c = '"' ∨ c = '\x60' then
      let token := readQuotedIdentifier c [] rest
      token.2 == some identifier || referencesFrom identifier token.1 rest
    else if isIdentifierStart c then
      let word := rest.takeWhile isIdentifierContinue
      c :: word == identifier || referencesFrom identifier word.length rest
    else referencesFrom identifier 0 rest

/-- `expression_references_identifier`. -/
def expressionReferencesIdentifier (input identifier : String) : Bool :=
  identifier ≠ "" && referencesFrom identifier.toList 0 input.toList

/-! ### Comparison -/

section Compare

variable (alphanumeric : Char → Bool)

/-- The loop variables of `normalize_expression`. -/
structure NormalizeState where
  normalized : List Char := []
  quote : Option Char := none
  escaped : Bool := false
  pendingSpace : Bool := false
  previousWasWord : Bool := false
  deriving DecidableEq

/-- One character of `normalize_expression`. -/
def normalizeStep (st : NormalizeState) (c : Char) : NormalizeState :=
  match st.quote with
  | some active =>
    let st := { st with normalized := st.normalized ++ [c] }
    if st.escaped then { st with escaped := false }
    else if c = '\\' then { st with escaped := true }
    else if c = active then { st with quote := none, previousWasWord := true }
    else st
  | none =>
    if c = '\'' ∨ c = '"' ∨ c = '\x60' then
      let space := if st.pendingSpace && st.previousWasWord then [' '] else []
      { st with normalized := st.normalized ++ space ++ [c], quote := some c, pendingSpace := false,
                previousWasWord := false }
    else if isWhitespace c then { st with pendingSpace := true }
    else
      let word := alphanumeric c || c == '_'
      let space := if st.pendingSpace && st.previousWasWord && word then [' '] else []
      { st with normalized := st.normalized ++ space ++ [c], pendingSpace := false, previousWasWord := word }

/-- `normalize_expression`. -/
def normalizeExpression (value : String) : List Char :=
  ((trim value.toList).foldl (normalizeStep alphanumeric) {}).normalized

/-- `normalized_expression_equal`. -/
def normalizedExpressionEqual (left right : String) : Bool :=
  normalizeExpression alphanumeric left == normalizeExpression alphanumeric right

/-- `optional_normalized_expression_equal`. -/
def optionalNormalizedExpressionEqual : Option String → Option String → Bool
  | none, none => true
  | some actual, some expected => normalizedExpressionEqual alphanumeric actual expected
  | _, _ => false

/-- `expression_slices_equal`. -/
def expressionSlicesEqual (actual expected : List String) : Bool :=
  actual.length == expected.length &&
    (actual.zip expected).all fun pair ↦ normalizedExpressionEqual alphanumeric pair.1 pair.2

/-- `eq_ignore_ascii_case` of two texts. -/
def sameIgnoringCase (a b : List Char) : Bool :=
  a.map Char.toLower == b.map Char.toLower

/-- `strip_trailing_default_delete`. -/
def stripTrailingDefaultDelete (value : List Char) : List Char :=
  let front := value.take (value.length - 6)
  if value.length < 6 ∨ ¬ sameIgnoringCase (value.drop (value.length - 6)) "DELETE".toList then value
  else if front.getLast?.any fun c ↦ isWhitespace c || (!alphanumeric c && c != '_') then
    (front.reverse.dropWhile isWhitespace).reverse
  else value

/-- `interval_function_suffix`. -/
def intervalFunctionSuffix (unit : List Char) : Option (List Char) :=
  (["Nanosecond", "Microsecond", "Millisecond", "Second", "Minute", "Hour", "Day", "Week", "Month",
    "Quarter", "Year"].map String.toList).find? (sameIgnoringCase unit)

/-- `is_expression_word_byte`. -/
def isExpressionWordByte (c : Char) : Bool :=
  c.isAlphanum || c == '_'

/-- `u8::is_ascii_whitespace`. -/
def isAsciiSpace (c : Char) : Bool :=
  c == ' ' || c == '\t' || c == '\n' || c == '\x0c' || c == '\r'

/-- The interval literal that a text starts with: what it is written as, and how many characters it
takes. -/
def intervalLiteral (s : List Char) : Option (List Char × ℕ) :=
  let keyword := s.take 8
  let spaced := s.drop 8
  if sameIgnoringCase keyword "INTERVAL".toList && spaced.head?.any isAsciiSpace then
    let number := spaced.dropWhile isAsciiSpace
    let sign := if number.head? = some '+' ∨ number.head? = some '-' then number.take 1 else []
    let digits := (number.drop sign.length).takeWhile Char.isDigit
    let afterNumber := number.drop (sign.length + digits.length)
    if digits ≠ [] && afterNumber.head?.any isAsciiSpace then
      let unit := (afterNumber.dropWhile isAsciiSpace).takeWhile Char.isAlpha
      let left := (afterNumber.dropWhile isAsciiSpace).drop unit.length
      (intervalFunctionSuffix unit).map fun suffix ↦
        ("toInterval".toList ++ suffix ++ ['('] ++ sign ++ digits ++ [')'], s.length - left.length)
    else none
  else none

/-- The loop of `canonicalize_interval_literals`: `skip` characters belong to a literal that is written
already, and `previous` is the character before. -/
def canonicalizeFrom (quote : Option Char) (escaped : Bool) (previous : Option Char) :
    ℕ → List Char → List Char
  | _, [] => []
  | skip + 1, c :: rest => canonicalizeFrom quote escaped (some c) skip rest
  | 0, c :: rest =>
    match quote with
    | some active =>
      if escaped then c :: canonicalizeFrom quote false (some c) 0 rest
      else if c = '\\' then c :: canonicalizeFrom quote true (some c) 0 rest
      else if c = active then c :: canonicalizeFrom none false (some c) 0 rest
      else c :: canonicalizeFrom quote false (some c) 0 rest
    | none =>
      if c = '\'' ∨ c = '"' ∨ c = '\x60' then c :: canonicalizeFrom (some c) escaped (some c) 0 rest
      else match if previous.any isExpressionWordByte then none else intervalLiteral (c :: rest) with
        | some (literal, length) => literal ++ canonicalizeFrom none escaped (some c) (length - 1) rest
        | none => c :: canonicalizeFrom none escaped (some c) 0 rest

/-- `canonicalize_ttl_expression`. -/
def canonicalizeTtlExpression (value : String) (defaultDeleteIsImplicit : Bool) : List Char :=
  let normalized := normalizeExpression alphanumeric value
  let stripped :=
    if defaultDeleteIsImplicit then stripTrailingDefaultDelete alphanumeric normalized else normalized
  canonicalizeFrom none false none 0 stripped

/-- `optional_ttl_expression_equal`. -/
def optionalTtlExpressionEqual (actual expected : Option String) (defaultDeleteIsImplicit : Bool) : Bool :=
  match actual, expected with
  | none, none => true
  | some actual, some expected =>
    canonicalizeTtlExpression alphanumeric actual defaultDeleteIsImplicit ==
      canonicalizeTtlExpression alphanumeric expected defaultDeleteIsImplicit
  | _, _ => false

variable {alphanumeric}

@[simp]
theorem normalizedExpressionEqual_refl (s : String) : normalizedExpressionEqual alphanumeric s s = true :=
  beq_self_eq_true _

@[simp]
theorem optionalNormalizedExpressionEqual_refl (s : Option String) :
    optionalNormalizedExpressionEqual alphanumeric s s = true := by
  cases s with
  | none => rfl
  | some s => exact normalizedExpressionEqual_refl s

/-- Texts that are the same up to white space are the same TTL. -/
theorem optionalTtlExpressionEqual_of_normalized {actual expected : Option String} (implicit : Bool)
    (h : optionalNormalizedExpressionEqual alphanumeric actual expected = true) :
    optionalTtlExpressionEqual alphanumeric actual expected implicit = true := by
  cases actual with
  | none => cases expected with
    | none => rfl
    | some expected => cases h
  | some actual => cases expected with
    | none => cases h
    | some expected =>
      have heq : normalizeExpression alphanumeric actual = normalizeExpression alphanumeric expected :=
        beq_iff_eq.1 h
      rw [optionalTtlExpressionEqual, canonicalizeTtlExpression, canonicalizeTtlExpression, heq]
      exact beq_self_eq_true _

theorem optionalNormalizedExpressionEqual_none_right {actual : Option String} :
    optionalNormalizedExpressionEqual alphanumeric actual none = true ↔ actual = none := by
  cases actual with
  | none => exact ⟨fun _ ↦ rfl, fun _ ↦ rfl⟩
  | some actual => exact ⟨fun h ↦ (nomatch h), fun h ↦ (nomatch h)⟩

end Compare

end ClickHouse
