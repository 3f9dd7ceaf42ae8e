import Mathlib.Data.String.Basic
import NexusPilot.ClickHouse.Format
import NexusPilot.Text.Decimal

/-!
# The values of a query result

`normalize_value`: a value of a result is brought into the form in which the grid shows it, by the type of its column.
Integers that JavaScript holds become numbers and larger ones text, maps become arrays of pairs and named tuples objects.
A budget bounds the nodes and the depth of a value and the length of what comes out.

The nodes are counted in the state. The depth is the number of levels that are left, so that the recursion is one over
them: each value inside another one has a level less.
-/

namespace ClickHouse

open Drivers DecimalText

/-! ### Errors and the count -/

/-- What the source takes from its libraries: the `Debug` text of a type, `parse::<f64>` with the notation of the number
it makes, and the JSON text of a value. -/
structure ValueLibrary where
  debug : ClickHouseType → String
  parseFloat : String → Option String
  serialize : Json → Except String (List UInt8)

section Values

variable (lib : ValueLibrary)

/-- `value_error`. -/
def valueError (ty : ClickHouseType) (reason : String) : IpcError where
  code := .validationFailed
  message := "ClickHouse returned a value that does not match its type"
  details := some ("type=" ++ lib.debug ty ++ s!"; reason={reason}")

/-- `limit_error`, of values. -/
def valueLimitError (ty : ClickHouseType) (limit : String) (actual maximum : ℕ) : IpcError where
  code := .validationFailed
  message := "ClickHouse value exceeds the safe display limit"
  details := some ("type=" ++ lib.debug ty ++ s!"; limit={limit}; actual={actual}; maximum={maximum}")

/-- A computation that counts nodes: `BudgetState` is its state. -/
abbrev Counted (α : Type) := StateT ℕ (Except IpcError) α

/-- The part of `enter` that counts; the depth is checked by the levels that are left. -/
def enterNode (budget : ValueBudget) (ty : ClickHouseType) : Counted Unit := fun nodes ↦
  let nodes := min (nodes + 1) usizeMax
  if budget.maxNodes < nodes then .error (valueLimitError lib ty "nodes" nodes budget.maxNodes) else .ok ((), nodes)

/-! ### Integers -/

/-- `JS_MAX_SAFE_INTEGER`. -/
def jsMaxSafeInteger : ℕ :=
  9007199254740991

/-- `is_i64() || is_u64()` of a number, by its notation. -/
def isIntegerText (text : List Char) : Bool :=
  let digits := if text.head? = some '-' then text.tail else text
  digits ≠ [] && digits.all Char.isDigit

/-- A text without the sign in front: whether it is negative, and the rest. -/
def splitSign (text : List Char) : Bool × List Char :=
  match text with
  | '-' :: digits => (true, digits)
  | '+' :: digits => (false, digits)
  | _ => (false, text)

/-- `parse_integer_text`. -/
def parseIntegerText (value : List Char) (signed : Bool) (ty : ClickHouseType) : IpcResult (Bool × List Char) :=
  let (negative, digits) := splitSign value
  if digits = [] ∨ ¬ digits.all Char.isDigit then .error (valueError lib ty "invalid decimal integer text")
  else if negative ∧ ¬ signed then .error (valueError lib ty "unsigned integer cannot be negative")
  else
    let canonical := digits.dropWhile (· == '0')
    let canonical := if canonical = [] then ['0'] else canonical
    .ok (negative && canonical ≠ ['0'], canonical)

/-- The loop over the digits of `decimal_power_of_two`, the lowest first. -/
def doubleDigits (carry : ℕ) : List ℕ → List ℕ
  | [] => if 0 < carry then [carry] else []
  | digit :: digits =>
    let doubled := digit * 2 + carry
    doubled % 10 :: doubleDigits (doubled / 10) digits

/-- `decimal_power_of_two`. -/
def decimalPowerOfTwo (bits : ℕ) : List Char :=
  ((doubleDigits 0)^[bits] [1]).reverse.map Nat.digitChar

/-- The loop of `decimal_subtract_one`, from the last digit on. -/
def subtractOneFrom : List Char → List Char
  | [] => []
  | digit :: digits =>
    if '0'.toNat < digit.toNat then Char.ofNat (digit.toNat - 1) :: digits else '9' :: subtractOneFrom digits

/-- `decimal_subtract_one`. -/
def decimalSubtractOne (value : List Char) : List Char :=
  (subtractOneFrom value.reverse).reverse

/-- `decimal_magnitude_exceeds`. -/
def decimalMagnitudeExceeds (value max : List Char) : Bool :=
  decide (max.length < value.length) || (value.length == max.length && before max value)

/-- The largest magnitude of `validate_integer_range`. -/
def integerBound (negative signed : Bool) (bits : ℕ) : List Char :=
  if signed then
    if negative then decimalPowerOfTwo (bits - 1) else decimalSubtractOne (decimalPowerOfTwo (bits - 1))
  else decimalSubtractOne (decimalPowerOfTwo bits)

/-- `validate_integer_range`. -/
def validateIntegerRange (negative : Bool) (digits : List Char) (signed : Bool) (bits : ℕ) (ty : ClickHouseType) :
    IpcResult Unit :=
  if decimalMagnitudeExceeds digits (integerBound negative signed bits) then
    .error (valueError lib ty "integer is out of range")
  else .ok ()

/-- The notation of a number with its sign. -/
def signedText (negative : Bool) (digits : List Char) : List Char :=
  if negative then '-' :: digits else digits

/-- The text of an integer in JSON: a text, or a number that is an integer. -/
def integerText : Json → Option (List Char)
  | .str value => some value.toList
  | .num text => if isIntegerText text.toList then some text.toList else none
  | _ => none

/-- The largest `u64`. -/
def u64Max : ℕ :=
  18446744073709551615

/-- `normalize_integer`. -/
def normalizeInteger (json : Json) (signed : Bool) (bits : ℕ) (ty : ClickHouseType) : IpcResult Json :=
  match integerText json with
  | none => .error (valueError lib ty "expected integer number or decimal text")
  | some text => do
    let (negative, digits) ← parseIntegerText lib text signed ty
    validateIntegerRange lib negative digits signed bits ty
    let magnitude := if value digits ≤ u64Max then some (value digits) else none
    if magnitude.any (· ≤ jsMaxSafeInteger) then
      pure (.num (String.ofList (signedText negative (DecimalText.text (magnitude.getD 0)))))
    else pure (.str (String.ofList (signedText negative digits)))

/-! ### Floats and decimals -/

/-- `normalize_float`. -/
def normalizeFloat (json : Json) (ty : ClickHouseType) : IpcResult Json :=
  match json with
  | .num text => .ok (.num text)
  | .str text =>
    let lower := String.ofList (text.toList.map Char.toLower)
    if lower = "nan" then .ok (.str "NaN")
    else if lower ∈ ["inf", "+inf", "infinity", "+infinity"] then .ok (.str "Inf")
    else if lower ∈ ["-inf", "-infinity"] then .ok (.str "-Inf")
    else match lib.parseFloat text with
      | some number => .ok (.num number)
      | none => .error (valueError lib ty "invalid floating-point text")
  | _ => .error (valueError lib ty "expected floating-point number")

/-- `split_once`: what stands before the first separator, and what stands behind it. -/
def splitOnce (separator : Char) : List Char → Option (List Char × List Char)
  | [] => none
  | c :: rest =>
    if c = separator then some ([], rest)
    else (splitOnce separator rest).map fun parts ↦ (c :: parts.1, parts.2)

/-- The text is a run of digits. -/
def isDigitRun (s : List Char) : Bool :=
  s ≠ [] && s.all Char.isDigit

/-- `is_plain_decimal`. -/
def isPlainDecimal (text : List Char) : Bool :=
  let unsigned := (splitSign text).2
  match splitOnce '.' unsigned with
  | none => isDigitRun unsigned
  | some (whole, fractional) => isDigitRun whole && isDigitRun fractional && (splitOnce '.' fractional).isNone

/-- The sign in front of a text, as it stands there. -/
def signOf (text : List Char) : List Char :=
  match text with
  | '-' :: _ => ['-']
  | '+' :: _ => ['+']
  | _ => []

/-- The text of a decimal in JSON. -/
def decimalText : Json → Option (List Char)
  | .str text => some text.toList
  | .num text => some text.toList
  | _ => none

/-- `normalize_decimal`. -/
def normalizeDecimal (json : Json) (scale : ℕ) (ty : ClickHouseType) : IpcResult Json :=
  match decimalText json with
  | none => .error (valueError lib ty "expected decimal text")
  | some text =>
    if ¬ isPlainDecimal text then .error (valueError lib ty "invalid decimal text")
    else
      let unsigned := (splitSign text).2
      let (whole, fractional) := (splitOnce '.' unsigned).getD (unsigned, [])
      if scale < fractional.length then .error (valueError lib ty "decimal fraction exceeds its declared scale")
      else if scale = 0 then .ok (.str (String.ofList (signOf text ++ whole)))
      else .ok (.str (String.ofList
        (signOf text ++ whole ++ '.' :: fractional ++ List.replicate (scale - fractional.length) '0')))

/-! ### Objects -/

/-- `insert` into a map of `serde_json`, whose entries are in the order of their keys. -/
def insertEntry (key : String) (json : Json) : List (String × Json) → List (String × Json)
  | [] => [(key, json)]
  | entry :: entries =>
    if key < entry.1 then (key, json) :: entry :: entries
    else if key = entry.1 then (key, json) :: entries
    else entry :: insertEntry key json entries

/-- `collect` into a map. -/
def collectMap (entries : List (String × Json)) : List (String × Json) :=
  entries.foldl (fun map entry ↦ insertEntry entry.1 entry.2 map) []

/-- `remove` from a map. -/
def removeEntry (key : String) : List (String × Json) → Option (Json × List (String × Json))
  | [] => none
  | entry :: entries =>
    if entry.1 = key then some (entry.2, entries)
    else (removeEntry key entries).map fun found ↦ (found.1, entry :: found.2)

/-! ### Values inside values -/

/-- The entries of `normalize_map`. -/
def mapEntries (ty : ClickHouseType) : Json → IpcResult (List (Json × Json))
  | .obj entries => .ok (entries.map fun entry ↦ (.str entry.1, entry.2))
  | .arr entries => entries.mapM fun entry ↦
    match entry with
    | .arr [key, value] => .ok (key, value)
    | _ => .error (valueError lib ty "map entries must be key/value pairs")
  | _ => .error (valueError lib ty "expected map object or pair array")

/-- `tuple_output`. -/
def tupleOutput (fields : List (Option String × ClickHouseType)) (values : List Json) : Json :=
  let names := fields.filterMap (·.1)
  if names.length = fields.length ∧ names.dedup.length = fields.length then .obj (collectMap (names.zip values))
  else .arr values

section Body

variable (normalize : ClickHouseType → Json → Counted Json)

/-- The loop of `normalize_tuple` over the fields of an object. -/
def tupleFields (ty : ClickHouseType) :
    List (Option String × ClickHouseType) → List (String × Json) → Counted (List Json)
  | [], _ => pure []
  | field :: fields, values =>
    match removeEntry (field.1.getD "") values with
    | none => throw (valueError lib ty "tuple field is missing")
    | some (value, values) => do
      let json ← normalize field.2 value
      let rest ← tupleFields ty fields values
      pure (json :: rest)

/-- `normalize_tuple`. -/
def normalizeTuple (fields : List (Option String × ClickHouseType)) (json : Json) (ty : ClickHouseType) :
    Counted Json :=
  match json with
  | .arr values =>
    if values.length ≠ fields.length then throw (valueError lib ty "tuple width does not match its type")
    else do
      let normalized ← (fields.zip values).mapM fun pair ↦ normalize pair.1.2 pair.2
      pure (tupleOutput fields normalized)
  | .obj values =>
    if ¬ fields.all (·.1.isSome) then throw (valueError lib ty "expected tuple array")
    else if values.length ≠ fields.length then throw (valueError lib ty "tuple width does not match its type")
    else do
      let normalized ← tupleFields lib normalize ty fields values
      pure (tupleOutput fields normalized)
  | _ => throw (valueError lib ty "expected tuple array")

/-- The loop of `normalize_nested` over the fields: what is collected is inserted behind `normalized`. -/
def nestedFields (ty : ClickHouseType) :
    List (Option String × ClickHouseType) → List (String × Json) → Counted (List (String × Json))
  | [], _ => pure []
  | field :: fields, values =>
    match field.1 with
    | none => throw (valueError lib ty "Nested fields must be named")
    | some name =>
      match removeEntry name values with
      | none => throw (valueError lib ty "Nested field is missing")
      | some (value, values) => do
        let json ← normalize (.array field.2) value
        let rest ← nestedFields ty fields values
        pure ((name, json) :: rest)

/-- `normalize_nested`. -/
def normalizeNested (fields : List (Option String × ClickHouseType)) (json : Json) (ty : ClickHouseType) :
    Counted Json :=
  match json with
  | .obj values =>
    if values.length ≠ fields.length then throw (valueError lib ty "Nested field count does not match its type")
    else do
      let normalized ← nestedFields lib normalize ty fields values
      pure (.obj (collectMap normalized))
  | .arr values => do
    let normalized ← values.mapM (normalize (.tuple fields))
    pure (.arr normalized)
  | _ => throw (valueError lib ty "expected Nested object or tuple array")

/-- `normalize_inner` behind `enter`, with what normalises the values inside and those of unknown shape. -/
def normalizeBody (untyped : Json → Counted Json) (ty : ClickHouseType) (json : Json) : Counted Json :=
  match ty with
  | .nullable inner => if json = .null then pure .null else normalize inner json
  | .lowCardinality inner => normalize inner json
  | .int signed bits => liftM (normalizeInteger lib json signed bits ty)
  | .float _ => liftM (normalizeFloat lib json ty)
  | .decimal _ _ scale => liftM (normalizeDecimal lib json scale ty)
  | .bool =>
    match json with
    | .bool value => pure (.bool value)
    | _ => throw (valueError lib ty "expected boolean")
  | .string | .fixedString _ | .date | .date32 | .dateTime _ | .dateTime64 _ _ | .uuid | .ipv4 | .ipv6 | .enum _ _ =>
    match json with
    | .str value => pure (.str value)
    | _ => throw (valueError lib ty "expected string")
  | .array inner =>
    match json with
    | .arr values => do
      let normalized ← values.mapM (normalize inner)
      pure (.arr normalized)
    | _ => throw (valueError lib ty "expected array")
  | .map keyType valueType => do
    let entries ← liftM (mapEntries lib ty json)
    let normalized ← entries.mapM fun entry ↦ do
      let key ← normalize keyType entry.1
      let value ← normalize valueType entry.2
      pure (.arr [key, value])
    pure (.arr normalized)
  | .tuple fields => normalizeTuple lib normalize fields json ty
  | .nested fields => normalizeNested lib normalize fields json ty
  | .jsonOrObject _ | .variant _ | .unknown _ => untyped json

end Body

/-- `normalize_untyped`, of a value of no items, or with what normalises them. -/
def untypedWith (item : Json → Counted Json) (json : Json) : Counted Json :=
  match json with
  | .arr values => do
    let normalized ← values.mapM item
    pure (.arr normalized)
  | .obj entries => do
    let normalized ← entries.mapM fun entry ↦ do
      let json ← item entry.2
      pure (entry.1, json)
    pure (.obj (collectMap normalized))
  | _ => pure json

variable (budget : ValueBudget)

/-- The refusal of a value that lies too deep. -/
def tooDeep (ty : ClickHouseType) : IpcError :=
  valueLimitError lib ty "depth" (budget.maxDepth + 1) budget.maxDepth

/-- `normalize_untyped`, with the levels that are left for the items. -/
def normalizeUntyped (ty : ClickHouseType) : ℕ → Json → Counted Json
  | 0 => untypedWith fun _ ↦ throw (tooDeep lib budget ty)
  | levels + 1 => untypedWith fun item ↦ do
    enterNode lib budget ty
    normalizeUntyped ty levels item

/-- `normalize_inner`, with the levels that are left for the value. -/
def normalizeInner : ℕ → ClickHouseType → Json → Counted Json
  | 0, ty, _ => throw (tooDeep lib budget ty)
  | levels + 1, ty, json => do
    enterNode lib budget ty
    normalizeBody lib (normalizeInner levels) (normalizeUntyped lib budget ty levels) ty json

/-- `normalize_value`. -/
def normalizeValue (ty : ClickHouseType) (json : Json) (budget : ValueBudget) : IpcResult Json := do
  let (normalized, _) ← normalizeInner lib budget (budget.maxDepth + 1) ty json 0
  match lib.serialize normalized with
  | .error error => .error (.internal "ClickHouse value serialization failed"
      ("type=" ++ lib.debug ty ++ s!"; error={error}"))
  | .ok bytes =>
    if budget.maxSerializedBytes < bytes.length then
      .error (valueLimitError lib ty "serialized_bytes" bytes.length budget.maxSerializedBytes)
    else .ok normalized

end Values

end ClickHouse
