import NexusPilot.Text.CommaList

/-!
# Column types of the table designer

`parseColumnType` and `formatColumnType`. The designer takes a type apart with one expression and a catalog of
the types that it knows, and puts its text together again from the parts that it has kept. A type that is not
in the catalog, or that the expression does not match, is kept as it is.
-/

namespace Design

open Text

/-- `ColumnTypeMode`. -/
inductive ColumnTypeMode
  | structured
  | raw
  deriving DecidableEq

/-- `ColumnTypeFamily`. -/
inductive ColumnTypeFamily
  | string
  | number
  | datetime
  | boolean
  | json
  | binary
  | uuid
  | custom
  deriving DecidableEq

/-- What the lengths of a character type count. -/
inductive CharSemantics
  | unset
  | byte
  | char
  deriving DecidableEq

/-- `charSemantics.toUpperCase()`. -/
def CharSemantics.upper : CharSemantics → String
  | .unset => ""
  | .byte => "BYTE"
  | .char => "CHAR"

/-- `ColumnTypeDraft`. -/
structure ColumnTypeDraft where
  mode : ColumnTypeMode
  family : ColumnTypeFamily
  baseType : String
  length : String := ""
  precision : String := ""
  scale : String := ""
  timePrecision : String := ""
  unsigned : Bool := false
  charSemantics : CharSemantics := .unset
  enumValues : List String := []
  rawTypeName : String := ""
  deriving DecidableEq

/-- `createRawColumnTypeDraft`. -/
def createRawColumnTypeDraft (typeName : String) : ColumnTypeDraft where
  mode := .raw
  family := .custom
  baseType := scriptTrim typeName
  rawTypeName := scriptTrim typeName

/-! ### Profiles -/

/-- `ColumnTypeDefinition`, with the properties that parsing reads. -/
structure ColumnTypeDefinition where
  family : ColumnTypeFamily
  baseType : String
  supportsLength : Bool := false
  supportsPrecisionScale : Bool := false
  supportsTimePrecision : Bool := false
  deriving DecidableEq

/-- The generations of an identity column. -/
inductive IdentityGeneration
  | always
  | byDefault
  deriving DecidableEq

/-- `TableDesignDriverProfile`, with the options that types are formatted by and the defaults of a new
column. -/
structure TableDesignDriverProfile where
  typeCatalog : List ColumnTypeDefinition
  unsigned : Bool
  charSemantics : Bool
  defaultColumnType : ColumnTypeDraft
  identityGeneration : IdentityGeneration := .byDefault
  deriving DecidableEq

/-- The type of a new column but for Oracle. -/
def varcharColumnType : ColumnTypeDraft where
  mode := .structured
  family := .string
  baseType := "varchar"
  length := "255"

/-- `mysqlTableDesignProfile`. -/
def mysqlTableDesignProfile : TableDesignDriverProfile where
  typeCatalog :=
    [{ family := .string, baseType := "varchar", supportsLength := true },
      { family := .string, baseType := "char", supportsLength := true },
      { family := .string, baseType := "text" },
      { family := .number, baseType := "int" },
      { family := .number, baseType := "bigint" },
      { family := .number, baseType := "decimal", supportsPrecisionScale := true },
      { family := .datetime, baseType := "datetime", supportsTimePrecision := true },
      { family := .datetime, baseType := "timestamp", supportsTimePrecision := true },
      { family := .datetime, baseType := "date" },
      { family := .boolean, baseType := "boolean" },
      { family := .json, baseType := "json" },
      { family := .binary, baseType := "blob" },
      { family := .custom, baseType := "enum" }]
  unsigned := true
  charSemantics := false
  defaultColumnType := varcharColumnType

/-- `postgresTableDesignProfile`. -/
def postgresTableDesignProfile : TableDesignDriverProfile where
  typeCatalog :=
    [{ family := .string, baseType := "varchar", supportsLength := true },
      { family := .string, baseType := "text" },
      { family := .number, baseType := "integer" },
      { family := .number, baseType := "bigint" },
      { family := .number, baseType := "numeric", supportsPrecisionScale := true },
      { family := .datetime, baseType := "timestamp", supportsTimePrecision := true },
      { family := .datetime, baseType := "timestamptz", supportsTimePrecision := true },
      { family := .datetime, baseType := "date" },
      { family := .boolean, baseType := "boolean" },
      { family := .json, baseType := "jsonb" },
      { family := .uuid, baseType := "uuid" },
      { family := .binary, baseType := "bytea" }]
  unsigned := false
  charSemantics := false
  defaultColumnType := varcharColumnType

/-- `oracleTableDesignProfile`. -/
def oracleTableDesignProfile : TableDesignDriverProfile where
  typeCatalog :=
    [{ family := .number, baseType := "NUMBER", supportsPrecisionScale := true },
      { family := .string, baseType := "VARCHAR2", supportsLength := true },
      { family := .string, baseType := "NVARCHAR2", supportsLength := true },
      { family := .string, baseType := "CHAR", supportsLength := true },
      { family := .datetime, baseType := "DATE" },
      { family := .datetime, baseType := "TIMESTAMP", supportsTimePrecision := true },
      { family := .string, baseType := "CLOB" },
      { family := .binary, baseType := "BLOB" }]
  unsigned := false
  charSemantics := true
  defaultColumnType :=
    { mode := .structured, family := .number, baseType := "NUMBER", precision := "10", scale := "0" }

/-- `genericTableDesignProfile`. -/
def genericTableDesignProfile : TableDesignDriverProfile where
  typeCatalog :=
    [{ family := .string, baseType := "varchar", supportsLength := true },
      { family := .string, baseType := "text" },
      { family := .number, baseType := "integer" },
      { family := .number, baseType := "bigint" },
      { family := .number, baseType := "decimal", supportsPrecisionScale := true },
      { family := .datetime, baseType := "timestamp" },
      { family := .datetime, baseType := "date" },
      { family := .boolean, baseType := "boolean" },
      { family := .json, baseType := "json" }]
  unsigned := false
  charSemantics := false
  defaultColumnType := varcharColumnType

/-- The drivers that the designer tells apart. -/
inductive DesignDriver
  | mysql
  | postgres
  | oracle
  | other
  deriving DecidableEq

/-- `tableDesignProfileForDriver`. -/
def tableDesignProfileForDriver : DesignDriver → TableDesignDriverProfile
  | .mysql => mysqlTableDesignProfile
  | .postgres => postgresTableDesignProfile
  | .oracle => oracleTableDesignProfile
  | .other => genericTableDesignProfile

/-! ### Parsing -/

/-- The class `[a-zA-Z]`. -/
def isTypeLetter (c : Char) : Bool :=
  c.isAlpha

/-- The class `[\\w$]`. -/
def isTypeChar (c : Char) : Bool :=
  c.isAlphanum || c == '_' || c == '$'

/-- The characters that the class `.` does not match. -/
def isLineEnd (c : Char) : Bool :=
  c == '\n' || c == '\r' || c.toNat == 0x2028 || c.toNat == 0x2029

/-- What follows the arguments, `(?:\\s+(unsigned))?\\s*$`: nothing but white space, or the word `unsigned`
after white space. -/
def matchUnsigned (tail : List Char) : Option Bool :=
  if tail.all isScriptSpace then some false
  else if (tail.head?.any isScriptSpace) ∧ (trimChars tail).map Char.toLower = "unsigned".toList then some true
  else none

/-- The arguments and what follows them, `\\s*\\((.*)\\)`: the bracket that closes them is the last one, since
none can follow it. -/
def matchArguments (rest : List Char) : Option (List Char × Bool) :=
  match rest.dropWhile isScriptSpace with
  | '(' :: inner =>
    let tail := (inner.reverse.takeWhile (· ≠ ')')).reverse
    let arguments := inner.take (inner.length - tail.length - 1)
    if ')' ∈ inner ∧ arguments.all (!isLineEnd ·) then (matchUnsigned tail).map (arguments, ·) else none
  | _ => none

/-- `TYPE_PATTERN` on a trimmed text: the base type, the arguments, which are empty when there are none, and
whether the type is unsigned. -/
def typePattern (text : List Char) : Option (List Char × List Char × Bool) :=
  let base := text.takeWhile isTypeChar
  let rest := text.dropWhile isTypeChar
  if base.head?.any isTypeLetter then
    match matchArguments rest with
    | some (arguments, unsigned) => some (base, arguments, unsigned)
    | none => (matchUnsigned rest).map fun unsigned ↦ (base, [], unsigned)
  else none

/-- `/^(\\d+)\\s+(byte|char)$/i`, on the first argument: the digits, and what they count. -/
def charSemanticsPattern (argument : List Char) : Option (List Char × CharSemantics) :=
  let number := argument.takeWhile Char.isDigit
  let rest := argument.dropWhile Char.isDigit
  let word := (rest.dropWhile isScriptSpace).map Char.toLower
  if number ≠ [] ∧ rest.head?.any isScriptSpace then
    if word = "byte".toList then some (number, .byte)
    else if word = "char".toList then some (number, .char)
    else none
  else none

/-- The parts of a type that its definition keeps, from its first two arguments. -/
def structuredDraft (definition : ColumnTypeDefinition) (arguments : List String) (unsigned : Bool) :
    ColumnTypeDraft :=
  let firstArg := arguments.headD ""
  let secondArg := (arguments.drop 1).headD ""
  let charSemanticsMatch := charSemanticsPattern firstArg.toList
  { mode := .structured
    family := definition.family
    baseType := definition.baseType
    length :=
      if definition.supportsLength then
        match charSemanticsMatch with
        | some (number, _) => String.ofList number
        | none => firstArg
      else ""
    precision := if definition.supportsPrecisionScale then firstArg else ""
    scale := if definition.supportsPrecisionScale then secondArg else ""
    timePrecision := if definition.supportsTimePrecision then firstArg else ""
    unsigned := unsigned
    charSemantics := (charSemanticsMatch.map (·.2)).getD .unset
    enumValues := []
    rawTypeName := "" }

/-- `toLowerCase` of a base type. -/
def lowerCase (s : List Char) : List Char :=
  s.map Char.toLower

/-- `parseColumnType`. -/
def parseColumnType (typeName : String) (profile : TableDesignDriverProfile) : ColumnTypeDraft :=
  let trimmed := scriptTrim typeName
  match typePattern trimmed.toList with
  | none => createRawColumnTypeDraft trimmed
  | some (rawBaseType, rawArgs, unsigned) =>
    match profile.typeCatalog.find? fun item ↦ lowerCase item.baseType.toList = lowerCase rawBaseType with
    | none => createRawColumnTypeDraft trimmed
    | some definition => structuredDraft definition (splitNames (String.ofList rawArgs)) unsigned

/-! ### Formatting -/

/-- `maybeParen`. -/
def maybeParen (value : String) : String :=
  if scriptTrim value = "" then "" else "(" ++ scriptTrim value ++ ")"

/-- `precisionScale`. -/
def precisionScale (precision scale : String) : String :=
  let p := scriptTrim precision
  let s := scriptTrim scale
  if p = "" then ""
  else if s = "" then "(" ++ p ++ ")"
  else "(" ++ p ++ "," ++ s ++ ")"

/-- `quoteEnumValue`. -/
def quoteEnumValue (value : String) : String :=
  "'" ++ String.ofList (value.toList.flatMap fun c ↦ if c = '\'' then ['\'', '\''] else [c]) ++ "'"

/-- `formatColumnType`. -/
def formatColumnType (draft : ColumnTypeDraft) (profile : TableDesignDriverProfile) : String :=
  if draft.mode = .raw then scriptTrim draft.rawTypeName
  else
    let baseType := scriptTrim draft.baseType
    let unsigned := if draft.unsigned && profile.unsigned then " unsigned" else ""
    if draft.enumValues ≠ [] ∧ lowerCase baseType.toList = "enum".toList then
      "enum(" ++ ",".intercalate (draft.enumValues.map quoteEnumValue) ++ ")"
    else if scriptTrim draft.precision ≠ "" then
      baseType ++ precisionScale draft.precision draft.scale ++ unsigned
    else if scriptTrim draft.length ≠ "" then
      let semantics :=
        if profile.charSemantics ∧ draft.charSemantics ≠ .unset then " " ++ draft.charSemantics.upper else ""
      baseType ++ "(" ++ scriptTrim draft.length ++ semantics ++ ")"
    else if scriptTrim draft.timePrecision ≠ "" then baseType ++ maybeParen draft.timePrecision
    else baseType ++ unsigned

end Design
