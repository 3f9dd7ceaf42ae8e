import NexusPilot.Text.Std

/-!
# ClickHouse type names

`parse_type`, the parser of type names: a recursive descent over the characters that are left. The types
inside a type are read by the parser of one level less (`parseTypeOf`), and there is a level for each
character.
-/

namespace ClickHouse

open Text

/-- `ClickHouseType`; the fields of a tuple are pairs of a name and a type. -/
inductive ClickHouseType
  | int (signed : Bool) (bits : ℕ)
  | float (bits : ℕ)
  | decimal (storageBits precision scale : ℕ)
  | bool
  | string
  | fixedString (length : ℕ)
  | date
  | date32
  | dateTime (timezone : Option String)
  | dateTime64 (scale : ℕ) (timezone : Option String)
  | uuid
  | ipv4
  | ipv6
  | enum (bits : ℕ) (variants : List (String × ℤ))
  | nullable (inner : ClickHouseType)
  | lowCardinality (inner : ClickHouseType)
  | array (inner : ClickHouseType)
  | map (key value : ClickHouseType)
  | tuple (fields : List (Option String × ClickHouseType))
  | nested (fields : List (Option String × ClickHouseType))
  | jsonOrObject (raw : String)
  | variant (alternatives : List ClickHouseType)
  | unknown (raw : String)

/-- `matches!(parsed_type, ClickHouseType::Unknown { .. })`. -/
def ClickHouseType.isUnknown : ClickHouseType → Bool
  | unknown _ => true
  | _ => false

/-- A part of the parser, from the characters that are left. -/
abbrev TypeParser (α : Type) := StateT (List Char) (Except String) α

/-! ### Characters -/

/-- `skip_whitespace`. -/
def skipWhitespace : TypeParser Unit := fun s ↦
  .ok ((), s.dropWhile isWhitespace)

/-- `peek_char`. -/
def peekChar : TypeParser (Option Char) := fun s ↦
  .ok (s.head?, s)

/-- `consume_char`. -/
def consumeChar (expected : Char) : TypeParser Bool := fun s ↦
  match s.dropWhile isWhitespace with
  | [] => .ok (false, [])
  | c :: rest => if c = expected then .ok (true, rest) else .ok (false, c :: rest)

/-- `expect_char`. -/
def expectChar (expected : Char) : TypeParser Unit := do
  if ← consumeChar expected then pure () else throw s!"expected '{expected}'"

/-- `parse_identifier`. -/
def parseIdentifier : TypeParser String := fun s ↦
  let s := s.dropWhile isWhitespace
  let name := s.takeWhile fun c ↦ c == '_' || c.isAlphanum
  if name = [] then .error "expected type name"
  else .ok (String.ofList name, s.dropWhile fun c ↦ c == '_' || c.isAlphanum)

/-- The loop of `parse_quoted_value`. -/
def quotedValue (label : String) (quote : Char) (value : List Char) :
    List Char → Except String (String × List Char)
  | [] => .error s!"unclosed {label}"
  | [c] =>
    if c = '\\' then .error s!"unclosed {label}"
    else if c = quote then .ok (String.ofList value, [])
    else .error s!"unclosed {label}"
  | c :: d :: rest =>
    if c = '\\' then quotedValue label quote (value ++ [d]) rest
    else if c = quote then
      if d = quote then quotedValue label quote (value ++ [quote]) rest
      else .ok (String.ofList value, d :: rest)
    else quotedValue label quote (value ++ [c]) (d :: rest)

/-- `parse_quoted_value`. -/
def parseQuotedValue (label : String) : TypeParser String := fun s ↦
  match s.dropWhile isWhitespace with
  | [] => .error s!"expected {label}"
  | c :: rest =>
    if c = '\'' ∨ c = '"' ∨ c = '\x60' then quotedValue label c [] rest else .error s!"expected {label}"

def parseQuotedIdentifier : TypeParser String := parseQuotedValue "tuple field name"

def parseQuotedString : TypeParser String := parseQuotedValue "quoted string"

/-- The number that decimal digits denote. -/
def decimalOf (digits : List Char) : ℕ :=
  digits.foldl (fun n c ↦ 10 * n + (c.toNat - 48)) 0

/-- `parse_unsigned` of a type whose largest value is `max`. -/
def parseUnsigned (max : ℕ) (label : String) : TypeParser ℕ := fun s ↦
  let s := s.dropWhile isWhitespace
  let digits := s.takeWhile Char.isDigit
  if digits = [] then .error s!"expected {label}"
  else if decimalOf digits ≤ max then .ok (decimalOf digits, s.dropWhile Char.isDigit)
  else .error s!"invalid {label}"

/-- `parse_signed_i16`. -/
def parseSignedI16 (label : String) : TypeParser ℤ := fun s ↦
  let s := s.dropWhile isWhitespace
  let negative := s.head? == some '-'
  let s := if negative || s.head? == some '+' then s.tail else s
  let digits := s.takeWhile Char.isDigit
  let value : ℤ := if negative then -decimalOf digits else decimalOf digits
  if digits = [] then .error s!"expected {label}"
  else if -32768 ≤ value ∧ value ≤ 32767 then .ok (value, s.dropWhile Char.isDigit)
  else .error s!"invalid {label}"

/-! ### Quotes and parentheses -/

/-- The loop variables `quote` and `escaped`: outside a quoted value, or in one that `quote` closes. -/
structure QuoteState where
  quote : Option Char := none
  escaped : Bool := false
  deriving DecidableEq

/-- One character of a quoted value. -/
def QuoteState.within (active c : Char) (st : QuoteState) : QuoteState :=
  if st.escaped then { st with escaped := false }
  else if c = '\\' then { st with escaped := true }
  else if c = active then { st with quote := none }
  else st

def isQuote (c : Char) : Bool :=
  c == '\'' || c == '"' || c == '\x60'

/-- The loop of `capture_unknown`: what is left after it. -/
def captureUnknown (depth : ℕ) (st : QuoteState) : List Char → List Char
  | [] => []
  | c :: rest =>
    match st.quote with
    | some active => captureUnknown depth (st.within active c) rest
    | none =>
      if isQuote c then captureUnknown depth { st with quote := some c } rest
      else if c = '(' then captureUnknown (depth + 1) st rest
      else if c = ')' ∧ 0 < depth then captureUnknown (depth - 1) st rest
      else if (c = ')' ∨ c = ',') ∧ depth = 0 then c :: rest
      else captureUnknown depth st rest

/-- The loop of `consume_balanced_parentheses`: what is left after the parenthesis that closes. -/
def balancedRest (depth : ℕ) (st : QuoteState) : List Char → Option (List Char)
  | [] => none
  | c :: rest =>
    match st.quote with
    | some active => balancedRest depth (st.within active c) rest
    | none =>
      if isQuote c then balancedRest depth { st with quote := some c } rest
      else if c = '(' then balancedRest (depth + 1) st rest
      else if c = ')' then if depth = 1 then some rest else balancedRest (depth - 1) st rest
      else balancedRest depth st rest

/-- `consume_balanced_parentheses`. -/
def consumeBalancedParentheses : TypeParser Unit := do
  expectChar '('
  fun s ↦ match balancedRest 1 {} s with
    | none => .error "unclosed type arguments"
    | some rest => .ok ((), rest)

/-- `self.source[start..self.position].trim()`. -/
def textFrom (start rest : List Char) : List Char :=
  trim (start.take (start.length - rest.length))

/-- `capture_unknown`. -/
def parseUnknown (start : List Char) : TypeParser ClickHouseType := fun s ↦
  let rest := captureUnknown 0 {} s
  let raw := textFrom start rest
  if raw = [] then .error "unknown type name is empty" else .ok (.unknown (String.ofList raw), rest)

/-- `validate_balanced_syntax`, from the loop variables on. -/
def balancedSyntax (depth : ℕ) (st : QuoteState) : List Char → Except String Unit
  | [] =>
    if st.quote.isSome then .error "unclosed quoted type syntax"
    else if depth ≠ 0 then .error "unclosed type arguments"
    else .ok ()
  | c :: rest =>
    match st.quote with
    | some active => balancedSyntax depth (st.within active c) rest
    | none =>
      if isQuote c then balancedSyntax depth { st with quote := some c } rest
      else if c = '(' then balancedSyntax (depth + 1) st rest
      else if c = ')' then
        if depth = 0 then .error "unexpected closing parenthesis" else balancedSyntax (depth - 1) st rest
      else balancedSyntax depth st rest

/-! ### Types -/

/-- `parse_integer_name`. -/
def parseIntegerName (name : String) : Option (Bool × ℕ) :=
  let sized (signed : Bool) (bits : List Char) : Option (Bool × ℕ) :=
    -- the number may be written with a plus sign and with zeros in front
    let digits := if bits.head? = some '+' then bits.tail else bits
    if digits ≠ [] ∧ digits.all Char.isDigit ∧ decimalOf digits ∈ [8, 16, 32, 64, 128, 256] then
      some (signed, decimalOf digits)
    else none
  match name.toList with
  | 'U' :: 'I' :: 'n' :: 't' :: bits => sized false bits
  | 'I' :: 'n' :: 't' :: bits => sized true bits
  | _ => none

/-- `decimal_storage_bits`. -/
def decimalStorageBits (precision : ℕ) : ℕ :=
  if 1 ≤ precision ∧ precision ≤ 9 then 32
  else if 10 ≤ precision ∧ precision ≤ 18 then 64
  else if 19 ≤ precision ∧ precision ≤ 38 then 128
  else 256

/-- `is_known_type_name`. -/
def isKnownTypeName (name : String) : Bool :=
  name ∈ ["Bool", "String", "Date", "Date32", "UUID", "IPv4", "IPv6", "Float32", "Float64", "FixedString",
    "Decimal", "Decimal32", "Decimal64", "Decimal128", "Decimal256", "DateTime", "DateTime64", "Enum8",
    "Enum16", "Nullable", "LowCardinality", "Array", "Map", "Tuple", "Nested", "Variant", "JSON",
    "Object"] || (parseIntegerName name).isSome

/-- The largest value of the length of a `FixedString`, a `usize`. -/
def usizeMax : ℕ := 18446744073709551615

def parseFixedString : TypeParser ClickHouseType := do
  expectChar '('
  let length ← parseUnsigned usizeMax "FixedString length"
  if length = 0 then throw "FixedString length must be positive"
  expectChar ')'
  pure (.fixedString length)

def parseDecimal : TypeParser ClickHouseType := do
  expectChar '('
  let precision ← parseUnsigned 65535 "Decimal precision"
  expectChar ','
  let scale ← parseUnsigned 65535 "Decimal scale"
  expectChar ')'
  if precision = 0 ∨ precision > 76 ∨ scale > precision then
    throw "Decimal precision or scale is out of range"
  pure (.decimal (decimalStorageBits precision) precision scale)

def parseDecimalAlias (storageBits precision : ℕ) : TypeParser ClickHouseType := do
  expectChar '('
  let scale ← parseUnsigned 65535 "Decimal scale"
  expectChar ')'
  if scale > precision then throw "Decimal scale is out of range"
  pure (.decimal storageBits precision scale)

def parseDatetime : TypeParser ClickHouseType := do
  if ← consumeChar '(' then
    let timezone ← parseQuotedString
    expectChar ')'
    pure (.dateTime (some timezone))
  else pure (.dateTime none)

def parseDatetime64 : TypeParser ClickHouseType := do
  expectChar '('
  let scale ← parseUnsigned 255 "DateTime64 scale"
  if scale > 9 then throw "DateTime64 scale is out of range"
  if ← consumeChar ',' then
    let timezone ← parseQuotedString
    expectChar ')'
    pure (.dateTime64 scale (some timezone))
  else
    expectChar ')'
    pure (.dateTime64 scale none)

/-- A loop over items that `,` separates and `)` ends, with a bound on its iterations. An iteration reads
the separator, so that the characters left bound them. -/
def itemLoop {β : Type} (item : List β → TypeParser β) : ℕ → List β → TypeParser (List β)
  | 0, _ => throw "expected ')'"
  | bound + 1, items => do
    let next ← item items
    if ← consumeChar ',' then itemLoop item bound (items ++ [next])
    else
      expectChar ')'
      pure (items ++ [next])

/-- The loops of `parse_enum`, `parse_tuple` and `parse_variant`. -/
def items {β : Type} (item : List β → TypeParser β) : TypeParser (List β) := fun s ↦
  itemLoop item (s.length + 1) [] s

/-- `parse_enum`. -/
def parseEnum (bits : ℕ) : TypeParser ClickHouseType := do
  expectChar '('
  let variants ← items fun variants ↦ do
    let label ← parseQuotedString
    expectChar '='
    let value ← parseSignedI16 "Enum value"
    if (bits = 8 ∧ ¬ (-128 ≤ value ∧ value ≤ 127)) ∨ 65535 ≤ variants.length then
      throw "Enum value is out of range"
    pure (label, value)
  pure (.enum bits variants)

section Nested

variable (inner : TypeParser ClickHouseType)

/-- `parse_single_wrapper`. -/
def parseSingleWrapper (wrap : ClickHouseType → ClickHouseType) : TypeParser ClickHouseType := do
  expectChar '('
  let type ← inner
  expectChar ')'
  pure (wrap type)

/-- `parse_map`. -/
def parseMap : TypeParser ClickHouseType := do
  expectChar '('
  let key ← inner
  expectChar ','
  let value ← inner
  expectChar ')'
  pure (.map key value)

/-- `parse_tuple_field`. -/
def parseTupleField (nested : Bool) : TypeParser (Option String × ClickHouseType) := do
  skipWhitespace
  if (← peekChar).any isQuote then
    let name ← parseQuotedIdentifier
    let type ← inner
    pure (some name, type)
  else
    let start ← get
    let candidate ← parseIdentifier
    let afterCandidate ← get
    skipWhitespace
    let next ← peekChar
    if nested || (!isKnownTypeName candidate &&
        !(next == some ',' || next == some ')' || next == some '(' || next == none)) then
      let type ← inner
      pure (some candidate, type)
    else
      set start
      let type ← inner
      if (← get) = afterCandidate ∧ nested then throw "Nested fields must be named"
      pure (none, type)

/-- An iteration of the loop of `parse_tuple`. -/
def tupleItem (nested : Bool) (fields : List (Option String × ClickHouseType)) :
    TypeParser (Option String × ClickHouseType) := do
  let field ← parseTupleField inner nested
  -- all fields have names, or none has
  if fields.getLast?.any fun last ↦ last.1.isSome ≠ field.1.isSome then
    throw "Tuple cannot mix named and unnamed fields"
  pure field

/-- The type of the fields that `parse_tuple` has read. -/
def tupleOf (nested : Bool) (fields : List (Option String × ClickHouseType)) :
    TypeParser ClickHouseType :=
  if nested && !fields.getLast?.any fun last ↦ last.1.isSome then throw "Nested fields must be named"
  else pure (if nested then .nested fields else .tuple fields)

/-- `parse_tuple`. -/
def parseTuple (nested : Bool) : TypeParser ClickHouseType := do
  expectChar '('
  if ← consumeChar ')' then throw "Tuple and Nested require fields"
  else
    let fields ← items (tupleItem inner nested)
    tupleOf nested fields

/-- `parse_variant`. -/
def parseVariant : TypeParser ClickHouseType := do
  expectChar '('
  let alternatives ← items fun _ ↦ inner
  pure (.variant alternatives)

/-- `parse_json_or_object`. -/
def parseJsonOrObject (start : List Char) : TypeParser ClickHouseType := do
  if (← peekChar) = some '(' then consumeBalancedParentheses
  pure (.jsonOrObject (String.ofList (textFrom start (← get))))

/-- `parse_type`, after the name of the type. -/
def parseArguments (start : List Char) (name : String) : TypeParser ClickHouseType :=
  if name = "Bool" then pure .bool
  else if name = "String" then pure .string
  else if name = "Date" then pure .date
  else if name = "Date32" then pure .date32
  else if name = "UUID" then pure .uuid
  else if name = "IPv4" then pure .ipv4
  else if name = "IPv6" then pure .ipv6
  else if name = "Float32" then pure (.float 32)
  else if name = "Float64" then pure (.float 64)
  else if name = "FixedString" then parseFixedString
  else if name = "Decimal" then parseDecimal
  else if name = "Decimal32" then parseDecimalAlias 32 9
  else if name = "Decimal64" then parseDecimalAlias 64 18
  else if name = "Decimal128" then parseDecimalAlias 128 38
  else if name = "Decimal256" then parseDecimalAlias 256 76
  else if name = "DateTime" then parseDatetime
  else if name = "DateTime64" then parseDatetime64
  else if name = "Enum8" then parseEnum 8
  else if name = "Enum16" then parseEnum 16
  else if name = "Nullable" then parseSingleWrapper inner .nullable
  else if name = "LowCardinality" then parseSingleWrapper inner .lowCardinality
  else if name = "Array" then parseSingleWrapper inner .array
  else if name = "Map" then parseMap inner
  else if name = "Tuple" then parseTuple inner false
  else if name = "Nested" then parseTuple inner true
  else if name = "Variant" then parseVariant inner
  else if name = "JSON" ∨ name = "Object" then parseJsonOrObject start
  else match parseIntegerName name with
    | some (signed, bits) => pure (.int signed bits)
    | none => parseUnknown start

/-- `Parser::parse_type`, whose inner types are read by `inner`. -/
def parseTypeWith : TypeParser ClickHouseType := do
  skipWhitespace
  let start ← get
  let name ← parseIdentifier
  skipWhitespace
  parseArguments inner start name

end Nested

/-- `Parser::parse_type` up to a depth of nested types. A type takes a character at least before the types
inside it are read, so a level for each character is enough. -/
def parseTypeOf : ℕ → TypeParser ClickHouseType
  | 0 => throw "expected type name"
  | depth + 1 => parseTypeWith (parseTypeOf depth)

/-- `parse_type`. -/
def parseType (input : String) : Except String ClickHouseType := do
  let source := trim input.toList
  if source = [] then throw "type name is empty"
  if source.head?.any isQuote then throw "unexpected trailing type syntax"
  balancedSyntax 0 {} source
  let (parsed, rest) ← parseTypeOf source.length source
  if rest.dropWhile isWhitespace ≠ [] then throw "unexpected trailing type syntax"
  pure parsed

end ClickHouse
