import NexusPilot.Drivers.ChangeSet
import NexusPilot.TableData.Editing
import NexusPilot.Text.CommaList

/-!
# Integers typed into a cell

What a cell editor commits, the value that it is recorded as, and the literal that the value is written as
after it was sent as JSON. A cell that holds a number reads the text as a double, so that an integer goes
through three notations: the text, the shortest notation of its double in the JSON, and the literal.

**`keepsInteger_iff`** says which integers reach the statement unaltered, and **`exact_of_le`** that those up
to `2 ^ 53` do.
-/

namespace TableData

open Js

/-! ### Integer texts -/

/-- The number that a text of digits denotes. -/
def unsignedOf (text : List Char) : Option ℕ :=
  if text ≠ [] ∧ text.all Char.isDigit then some (Nat.ofDigitChars 10 text 0) else none

/-- The sign and the digits of a decimal integer. -/
def readInteger : List Char → Option (Bool × ℕ)
  | [] => none
  | c :: text =>
    if c = '-' then (unsignedOf text).map (true, ·)
    else if c = '+' then (unsignedOf text).map (false, ·)
    else (unsignedOf (c :: text)).map (false, ·)

/-- An integer by its sign and its absolute value. -/
def signedInt (negative : Bool) (n : ℕ) : ℤ :=
  if negative then -n else n

/-- The integer that a text denotes. -/
def integerOf (text : List Char) : Option ℤ :=
  (readInteger text).map fun number ↦ signedInt number.1 number.2

/-- A literal denotes an integer: it is the integer, or the text of one between quotes. -/
def Denotes (literal : String) (z : ℤ) : Prop :=
  integerOf literal.toList = some z ∨ ∃ text, literal = Drivers.quotedText '\'' text ∧ integerOf text.toList = some z

/-! ### Notations -/

/-- The conversions between texts and numbers that integers do not need, or only the large ones: `Number` of a
text that is not an integer, and how the JSON reader takes an integer from `2 ^ 64` on and a fraction. -/
structure Numerals where
  toNumber : String → Number
  parseLong : ℕ → Option WholeDouble
  parseFraction : ℕ → List (Fin 10) → Option Drivers.Decimal

namespace Numerals

variable (N : Numerals)

/-- A number of at most 53 bits. -/
def safe (n : ℕ) (h : n < 2 ^ 53) : WholeDouble :=
  ⟨n, nearest_of_lt h, h.trans (Nat.pow_lt_pow_right (by decide) (by decide))⟩

/-- `Number(rawText)`. -/
def number (rawText : String) : Number :=
  if rawText = "" then .whole false (safe 0 (by decide))
  else
    match readInteger rawText.toList with
    | none => N.toNumber rawText
    | some (negative, n) =>
      match doubleOf n with
      | none => .infinite negative
      | some d => .whole negative d

/-- A whole double that the JSON reader has read, by the notation it is displayed in. -/
def float (negative : Bool) (d : WholeDouble) : Drivers.JsonNumber :=
  .float (some ⟨negative, shortestDecimal d.value, []⟩)

/-- The JSON reader on a whole number: `u64` and `i64` where it fits, else a double. -/
def parseWhole (negative : Bool) (n : ℕ) : Option Drivers.JsonNumber :=
  if negative = false then
    if n < 2 ^ 64 then some (.posInt n) else (N.parseLong n).map (float false)
  else if n ≤ 2 ^ 63 then some (.negInt n)
  else if n < 2 ^ 64 then (doubleOf n).map (float true)
  else (N.parseLong n).map (float true)

/-- `JSON.stringify` of a value and the JSON reader on it. A zero is written without its sign, a number that is
not finite as `null`, and `undefined` is not written. -/
def transport : Value → Option Drivers.JsonValue
  | .undefined => none
  | .null => some .null
  | .boolean value => some (.bool value)
  | .number .nan | .number (.infinite _) => some .null
  | .number (.whole negative d) =>
    (N.parseWhole (negative && shortestDecimal d.value ≠ 0) (shortestDecimal d.value)).map .number
  | .number (.fractional negative integer fraction) =>
    (N.parseFraction integer fraction).map fun d ↦ .number (.float (some { d with negative }))
  | .string value => some (.string value)
  | .object _ => some .object

/-- The literal that a recorded value is written as. -/
def literalOf (value : Value) : Option String :=
  (N.transport value).bind fun json ↦ (Drivers.renderSqlLiteral json).toOption

end Numerals

/-! ### Committing an edit -/

/-- What a cell editor commits. -/
inductive RawValue
  | null
  | boolean (value : Bool)
  | text (value : String)
  deriving DecidableEq

/-- The boolean that a text stands for. The words it is compared with have no letter that only another
alphabet's letters are lowered to. -/
def booleanOf (rawText : String) : Except String Value :=
  let normalized := (Text.scriptTrim rawText).toLower
  if normalized ∈ ["true", "1", "yes", "y"] then .ok (.boolean true)
  else if normalized ∈ ["false", "0", "no", "n"] then .ok (.boolean false)
  else .error "请输入 true/false 或 1/0"

/-- `coerceEditedValue`. -/
def coerceEditedValue (N : Numerals) (rawValue : RawValue) (originalValue : Value) (column : Option ColumnMeta) :
    Except String Value :=
  match rawValue with
  | .null => .ok .null
  | .boolean value => .ok (.boolean value)
  | .text rawText =>
    if (column.map (·.dataCategory)) = some .boolean then
      if rawText = "" ∧ (column.map (·.nullable)) = some true then .ok .null else booleanOf rawText
    else
      match originalValue with
      | .null | .undefined => .ok (if rawText = "" then .null else .string rawText)
      | .number _ =>
        if (N.number rawText).isFinite then .ok (.number (N.number rawText)) else .error "请输入有效数字"
      | .boolean _ => booleanOf rawText
      | .string _ => .ok (.string rawText)
      | .object _ => .error "暂不支持编辑对象或数组类型的值"

/-- What a commit does: nothing, a message, or a call of `addCellChange` with a value. -/
inductive Commit
  | ignored
  | reported (message : String)
  | recorded (nextValue : Value)
  deriving DecidableEq

/-- The coercion and the handler of its error. -/
def commitValue (N : Numerals) (rawValue : RawValue) (originalValue : Value) (column : Option ColumnMeta) : Commit :=
  match coerceEditedValue N rawValue originalValue column with
  | .ok nextValue => .recorded nextValue
  | .error message => .reported message

/-- `handleCellEditCommit`, where `editingCell` is the value of the cell that is being edited. -/
def Page.handleCellEditCommit (N : Numerals) (p : Page) (captured : ChangeSet) (editingCell : Option Value)
    (rowIndex : ℕ) (columnId : String) (rawValue : RawValue) : Commit :=
  match editingCell with
  | none => .ignored
  | some originalValue =>
    match p.getDraftInsertByRowIndex captured rowIndex with
    | some _ => commitValue N rawValue originalValue (p.findColumn columnId)
    | none =>
      if rowIndex < p.data.rows.length then commitValue N rawValue originalValue (p.findColumn columnId)
      else .ignored

/-- A numeric cell: a cell of a draft row or a loaded row, in a column of numbers, whose value is a number, the
text of one or nothing. -/
structure NumericCell (p : Page) (captured : ChangeSet) (rowIndex : ℕ) (columnId : String) (originalValue : Value) :
    Prop where
  row : (p.getDraftInsertByRowIndex captured rowIndex).isSome ∨ rowIndex < p.data.rows.length
  column : (p.findColumn columnId).map (·.dataCategory) = some .number
  value : ∀ b, originalValue ≠ .boolean b

/-- A commit keeps the integer that was typed: it reports an error, or it records a value whose literal denotes
the integer, and nothing typed is not recorded as a number. -/
def KeepsInteger (N : Numerals) (text : String) : Commit → Prop
  | .ignored => False
  | .reported _ => True
  | .recorded value =>
    (text = "" → ∀ n, value ≠ .number n) ∧
      ∀ z, integerOf text.toList = some z → ∃ literal, N.literalOf value = some literal ∧ Denotes literal z

/-- A number goes through the notations unaltered: its double is infinite, which is reported, or the shortest
notation of its double denotes the number, and the JSON reader takes a large one as that double. -/
def Exact (N : Numerals) (n : ℕ) : Prop :=
  2 ^ 1024 ≤ nearest n ∨
    shortestDecimal (nearest n) = n ∧ (n < 2 ^ 64 ∨ ∃ d, N.parseLong n = some d ∧ d.value = nearest n)

/-! ### Literals -/

/-- The notation of an integer by its sign and its absolute value. -/
def signedText (negative : Bool) (n : ℕ) : List Char :=
  if negative then '-' :: Drivers.digits n else Drivers.digits n

theorem unsignedOf_digits (n : ℕ) : unsignedOf (Drivers.digits n) = some n := by
  have hne : Drivers.digits n ≠ [] := Nat.toDigits_ne_nil
  have hall : (Drivers.digits n).all Char.isDigit = true :=
    List.all_eq_true.2 fun c hc ↦ Nat.isDigit_of_mem_toDigits (by decide) (by decide) hc
  rw [unsignedOf, if_pos ⟨hne, hall⟩]
  exact congrArg some Nat.ofDigitChars_ten_toDigits

/-- The notation of a natural number begins with a digit. -/
theorem digits_eq_cons (n : ℕ) : ∃ c text, Drivers.digits n = c :: text ∧ c.isDigit = true := by
  cases h : Drivers.digits n with
  | nil => exact absurd h Nat.toDigits_ne_nil
  | cons c text =>
    have hmem : c ∈ Drivers.digits n := h ▸ List.mem_cons_self
    exact ⟨c, text, rfl, Nat.isDigit_of_mem_toDigits (by decide) (by decide) hmem⟩

/-- The notation of an integer denotes it. -/
theorem integerOf_signedText (negative : Bool) (n : ℕ) :
    integerOf (signedText negative n) = some (signedInt negative n) := by
  cases negative with
  | true =>
    show ((unsignedOf (Drivers.digits n)).map (true, ·)).map _ = _
    rw [unsignedOf_digits]
    rfl
  | false =>
    obtain ⟨c, text, hdigits, hc⟩ := digits_eq_cons n
    have hminus : c ≠ '-' := by
      rintro rfl
      exact absurd hc (by decide)
    have hplus : c ≠ '+' := by
      rintro rfl
      exact absurd hc (by decide)
    show integerOf (Drivers.digits n) = _
    rw [integerOf, hdigits, readInteger, if_neg hminus, if_neg hplus, ← hdigits, unsignedOf_digits]
    rfl

variable {negative : Bool} {n m : ℕ} {z : ℤ} {N : Numerals} {d : WholeDouble} {text : List Char}
  {column : Option ColumnMeta}

/-- The notation of an integer denotes no other integer. -/
theorem denotes_signedText :
    Denotes (String.ofList (signedText negative n)) z ↔ signedInt negative n = z := by
  rw [Denotes, String.toList_ofList, integerOf_signedText, Option.some.injEq]
  refine or_iff_left ?_
  rintro ⟨text, htext, -⟩
  have hlist : signedText negative n = '\'' :: (Drivers.doubled '\'' text.toList ++ ['\'']) :=
    String.ofList_injective htext
  cases negative with
  | true => exact absurd (List.cons.inj hlist).1 (by decide)
  | false =>
    obtain ⟨c, rest, hdigits, hc⟩ := digits_eq_cons n
    have hlist' : c :: rest = '\'' :: _ := hdigits.symm.trans hlist
    exact absurd hc ((List.cons.inj hlist').1 ▸ by decide)

/-- The number whose notation a double is written with, when it is written as a whole number. -/
def Numerals.printed (N : Numerals) (d : WholeDouble) : Option ℕ :=
  if shortestDecimal d.value < 2 ^ 64 then some (shortestDecimal d.value)
  else (N.parseLong (shortestDecimal d.value)).map fun e ↦ shortestDecimal e.value

theorem display_float (negative : Bool) (n : ℕ) :
    (⟨negative, n, []⟩ : Drivers.Decimal).display = signedText negative n := by
  cases negative with
  | true => exact congrArg ('-' :: ·) (List.append_nil _)
  | false => exact List.append_nil _

/-- The literal of a double that the JSON reader has read. -/
theorem render_float (negative : Bool) (d : WholeDouble) :
    (Drivers.renderSqlLiteral (.number (Numerals.float negative d))).toOption =
      some (String.ofList (signedText negative (shortestDecimal d.value))) :=
  congrArg (fun s ↦ some (String.ofList s)) (display_float negative _)

/-- The literal of a whole double. -/
theorem literalOf_whole (N : Numerals) (negative : Bool) (d : WholeDouble) :
    N.literalOf (.number (.whole negative d)) =
      (N.printed d).map fun n ↦
        String.ofList (signedText (negative && shortestDecimal d.value ≠ 0) n) := by
  have hround := nearest_shortestDecimal d.rounded
  have hdisplay : ∀ e : WholeDouble, e.value = d.value → shortestDecimal e.value = shortestDecimal d.value :=
    fun e he ↦ congrArg shortestDecimal he
  rw [Numerals.literalOf, Numerals.transport, Numerals.printed]
  generalize shortestDecimal d.value = n at hround hdisplay ⊢
  generalize (negative && decide (n ≠ 0)) = sign
  -- from `2 ^ 64` on, both signs are read as doubles
  have hlong : (((N.parseLong n).map (Numerals.float sign)).map .number).bind
      (fun json ↦ (Drivers.renderSqlLiteral json).toOption) =
      ((N.parseLong n).map fun e ↦ shortestDecimal e.value).map fun n ↦ String.ofList (signedText sign n) := by
    cases N.parseLong n with
    | none => rfl
    | some e => exact render_float sign e
  rw [Numerals.parseWhole]
  cases sign with
  | false =>
    rw [if_pos rfl]
    split_ifs with hsmall
    · rfl
    · exact hlong
  | true =>
    rw [if_neg (by decide)]
    split_ifs with hi64 hsmall hu64 hu64
    · rfl
    · exact absurd (lt_of_le_of_lt hi64 (by decide)) hsmall
    · -- the reader rounds to the same double again
      have hfinite : nearest n < 2 ^ 1024 := hround ▸ d.finite
      have he : doubleOf n = some d := doubleOf_eq_some_iff.2 hround
      rw [he]
      exact (render_float true d).trans (congrArg _ (congrArg _ (congrArg _ (hdisplay d rfl))))
    · exact hlong

/-- What is written for a double denotes an integer whose double it is just if the integer is exact. -/
theorem printed_eq_some_iff (h : nearest n = d.value) :
    N.printed d = some n ↔ Exact N n := by
  have hfinite : ¬ 2 ^ 1024 ≤ nearest n := by
    rw [h]
    exact not_le.2 d.finite
  rw [Exact, or_iff_right hfinite, h, Numerals.printed]
  constructor
  · intro hprinted
    split_ifs at hprinted with hsmall
    · have hn := Option.some.inj hprinted
      exact ⟨hn, Or.inl (hn ▸ hsmall)⟩
    · obtain ⟨e, he, hn⟩ := Option.map_eq_some_iff.1 hprinted
      have hvalue : e.value = d.value := by rw [← h, ← hn, nearest_shortestDecimal e.rounded]
      have hself : shortestDecimal d.value = n := hvalue ▸ hn
      exact ⟨hself, Or.inr ⟨e, hself ▸ he, hvalue⟩⟩
  · rintro ⟨hself, hsize⟩
    rw [hself]
    split_ifs with hsmall
    · rfl
    · obtain ⟨e, he, hvalue⟩ := hsize.resolve_left hsmall
      rw [he, Option.map_some, hvalue, hself]

theorem signedInt_zero (negative : Bool) : signedInt negative 0 = 0 := by
  cases negative <;> rfl

theorem signedInt_inj : signedInt negative m = signedInt negative n ↔ m = n := by
  cases negative with
  | true => exact neg_inj.trans Int.natCast_inj
  | false => exact Int.natCast_inj

theorem signedInt_natAbs (negative : Bool) (n : ℕ) : (signedInt negative n).natAbs = n := by
  cases negative with
  | true => exact (Int.natAbs_neg _).trans (Int.natAbs_natCast n)
  | false => exact Int.natAbs_natCast n

/-- The sign that is left out for a zero does not matter. -/
theorem signedInt_printed (negative : Bool) (hm : N.printed d = some m) :
    signedInt (negative && decide (shortestDecimal d.value ≠ 0)) m = signedInt negative n ↔ m = n := by
  by_cases hzero : shortestDecimal d.value = 0
  · have hprinted : N.printed d = some 0 := by
      rw [Numerals.printed, hzero]
      rfl
    obtain rfl : m = 0 := Option.some.inj (hm.symm.trans hprinted)
    rw [signedInt_zero, ← signedInt_zero negative, signedInt_inj]
  · rw [decide_eq_true hzero, Bool.and_true, signedInt_inj]

/-- The literal of the double of an integer denotes the integer just if it is exact. -/
theorem literalOf_whole_denotes (negative : Bool) (h : nearest n = d.value) :
    (∃ literal, N.literalOf (.number (.whole negative d)) = some literal ∧ Denotes literal (signedInt negative n)) ↔
      Exact N n := by
  rw [← printed_eq_some_iff h, literalOf_whole]
  constructor
  · rintro ⟨literal, hliteral, hdenotes⟩
    obtain ⟨m, hm, rfl⟩ := Option.map_eq_some_iff.1 hliteral
    rw [hm, (signedInt_printed negative hm).1 (denotes_signedText.1 hdenotes)]
  · intro hn
    rw [hn]
    exact ⟨_, rfl, denotes_signedText.2 ((signedInt_printed negative hn).2 rfl)⟩

/-! ### Settling -/

/-- The numbers up to `2 ^ 53` go through the notations unaltered. -/
theorem exact_of_le (N : Numerals) (h : n ≤ 2 ^ 53) : Exact N n := by
  refine Or.inr ⟨?_, Or.inl (lt_of_le_of_lt h (by decide))⟩
  obtain hlt | rfl := h.lt_or_eq
  · rw [nearest_of_lt hlt, shortestDecimal_of_lt hlt]
  · decide +kernel

/-- The text of an integer is not empty, and has a sign and digits. -/
theorem integerOf_eq_some_iff :
    integerOf text = some z ↔ ∃ negative n, readInteger text = some (negative, n) ∧ signedInt negative n = z := by
  rw [integerOf, Option.map_eq_some_iff]
  exact ⟨fun ⟨number, hread, hz⟩ ↦ ⟨number.1, number.2, hread, hz⟩,
    fun ⟨negative, n, hread, hz⟩ ↦ ⟨(negative, n), hread, hz⟩⟩

/-- No character of the text of an integer is NUL. -/
theorem nul_notMem (h : integerOf text = some z) : '\x00' ∉ text := by
  have hunsigned : ∀ {s : List Char} {n : ℕ}, unsignedOf s = some n → '\x00' ∉ s := by
    intro s n hs hmem
    rw [unsignedOf] at hs
    split_ifs at hs with hdigits
    exact absurd (List.all_eq_true.1 hdigits.2 _ hmem) (by decide)
  obtain ⟨negative, n, hread, -⟩ := integerOf_eq_some_iff.1 h
  fun_cases readInteger text with
  | case1 => exact List.not_mem_nil
  | case2 text =>
    rw [readInteger, if_pos rfl] at hread
    obtain ⟨m, hm, -⟩ := Option.map_eq_some_iff.1 hread
    exact List.not_mem_cons_of_ne_of_not_mem (by decide) (hunsigned hm)
  | case3 text hne =>
    rw [readInteger, if_neg hne, if_pos rfl] at hread
    obtain ⟨m, hm, -⟩ := Option.map_eq_some_iff.1 hread
    exact List.not_mem_cons_of_ne_of_not_mem (by decide) (hunsigned hm)
  | case4 c text hminus hplus =>
    rw [readInteger, if_neg hminus, if_neg hplus] at hread
    obtain ⟨m, hm, -⟩ := Option.map_eq_some_iff.1 hread
    exact hunsigned hm

/-- An integer that is kept as a text is quoted. -/
theorem literalOf_string (N : Numerals) {text : String} (h : integerOf text.toList = some z) :
    ∃ literal, N.literalOf (.string text) = some literal ∧ Denotes literal z := by
  refine ⟨Drivers.quotedText '\'' text, ?_, Or.inr ⟨text, rfl, h⟩⟩
  show (Drivers.renderSqlLiteral (.string text)).toOption = _
  rw [Drivers.renderSqlLiteral, if_neg (nul_notMem h)]
  rfl

/-- The commit in a numeric cell comes down to the coercion. -/
theorem handleCellEditCommit_eq {p : Page} {captured : ChangeSet} {rowIndex : ℕ} {columnId : String}
    {originalValue : Value} (hcell : NumericCell p captured rowIndex columnId originalValue)
    (rawValue : RawValue) :
    p.handleCellEditCommit N captured (some originalValue) rowIndex columnId rawValue =
      commitValue N rawValue originalValue (p.findColumn columnId) := by
  rw [Page.handleCellEditCommit.eq_def]
  cases hdraft : p.getDraftInsertByRowIndex captured rowIndex with
  | some draft => rfl
  | none =>
    have hrow := hcell.row
    rw [hdraft] at hrow
    exact if_pos (hrow.resolve_left (by decide))

/-- The coercion of a text in a column of numbers. -/
theorem coerceEditedValue_number (hcolumn : column.map (·.dataCategory) = some .number) (text : String)
    (originalValue : Value) :
    coerceEditedValue N (.text text) originalValue column =
      match originalValue with
      | .null | .undefined => .ok (if text = "" then .null else .string text)
      | .number _ =>
        if (N.number text).isFinite then .ok (.number (N.number text)) else .error "请输入有效数字"
      | .boolean _ => booleanOf text
      | .string _ => .ok (.string text)
      | .object _ => .error "暂不支持编辑对象或数组类型的值" := by
  rw [coerceEditedValue.eq_def]
  show (if column.map (·.dataCategory) = some .boolean then _ else _) = _
  rw [hcolumn]
  exact if_neg (by decide)

theorem keepsInteger_string (N : Numerals) (text : String) : KeepsInteger N text (.recorded (.string text)) :=
  ⟨fun _ _ h ↦ (nomatch h), fun _ hz ↦ literalOf_string N hz⟩

/-- Nothing typed into a cell without a value is kept as nothing. -/
theorem keepsInteger_nullish (N : Numerals) (text : String) :
    KeepsInteger N text (.recorded (if text = "" then .null else .string text)) := by
  split_ifs with hempty
  · refine ⟨fun _ _ h ↦ (nomatch h), fun z hz ↦ ?_⟩
    rw [hempty] at hz
    exact (nomatch hz)
  · exact keepsInteger_string N text

/-- An integer typed into a cell with a number. -/
theorem keepsInteger_number {text : String} (hcolumn : column.map (·.dataCategory) = some .number)
    {n : Number} (htext : text = "" ∨ (integerOf text.toList).isSome) :
    KeepsInteger N text (commitValue N (.text text) (.number n) column) ↔
      text ≠ "" ∧ ∀ z, integerOf text.toList = some z → Exact N z.natAbs := by
  rw [commitValue, coerceEditedValue_number hcolumn]
  show KeepsInteger N text (match (if (N.number text).isFinite then _ else _ : Except String Value) with
    | .ok nextValue => .recorded nextValue
    | .error message => .reported message) ↔ _
  by_cases hempty : text = ""
  · -- nothing typed is read as zero
    refine iff_of_false ?_ fun h ↦ h.1 hempty
    rw [Numerals.number, if_pos hempty]
    exact fun h ↦ h.1 hempty _ rfl
  obtain ⟨z, hz⟩ := Option.isSome_iff_exists.1 (htext.resolve_left hempty)
  obtain ⟨negative, m, hread, rfl⟩ := integerOf_eq_some_iff.1 hz
  have hexact : (∀ z, integerOf text.toList = some z → Exact N z.natAbs) ↔ Exact N m := by
    rw [hz]
    constructor
    · intro h
      exact signedInt_natAbs negative m ▸ h _ rfl
    · rintro h _ ⟨⟩
      rwa [signedInt_natAbs]
  rw [and_iff_right hempty, hexact]
  cases hdouble : doubleOf m with
  | none =>
    have hnumber : N.number text = .infinite negative := by
      rw [Numerals.number, if_neg hempty, hread]
      simp only [hdouble]
    rw [hnumber]
    refine iff_of_true trivial (Or.inl ?_)
    rw [doubleOf] at hdouble
    split_ifs at hdouble with hfinite
    exact not_lt.1 hfinite
  | some d =>
    have hnumber : N.number text = .whole negative d := by
      rw [Numerals.number, if_neg hempty, hread]
      simp only [hdouble]
    rw [hnumber, ← literalOf_whole_denotes negative (doubleOf_eq_some_iff.1 hdouble)]
    constructor
    · exact fun h ↦ h.2 _ hz
    · refine fun h ↦ ⟨fun hempty' ↦ absurd hempty' hempty, fun z hz' ↦ ?_⟩
      obtain rfl := Option.some.inj (hz.symm.trans hz')
      exact h

/-- **Which integers typed into a numeric cell reach the statement.** -/
theorem keepsInteger_iff {N : Numerals} {p : Page} {captured : ChangeSet} {rowIndex : ℕ} {columnId : String}
    {originalValue : Value} (hcell : NumericCell p captured rowIndex columnId originalValue) {text : String}
    (htext : text = "" ∨ (integerOf text.toList).isSome) :
    KeepsInteger N text (p.handleCellEditCommit N captured (some originalValue) rowIndex columnId (.text text)) ↔
      ∀ n, originalValue = .number n → text ≠ "" ∧ ∀ z, integerOf text.toList = some z → Exact N z.natAbs := by
  rw [handleCellEditCommit_eq hcell]
  cases originalValue with
  | number n =>
    refine (keepsInteger_number hcell.column htext).trans ⟨fun h m _ ↦ h, fun h ↦ h n rfl⟩
  | boolean b => exact absurd rfl (hcell.value b)
  | undefined | null =>
    refine iff_of_true ?_ fun n h ↦ (nomatch h)
    rw [commitValue, coerceEditedValue_number hcell.column]
    exact keepsInteger_nullish N text
  | string value =>
    refine iff_of_true ?_ fun n h ↦ (nomatch h)
    rw [commitValue, coerceEditedValue_number hcell.column]
    exact keepsInteger_string N text
  | object reference =>
    refine iff_of_true ?_ fun n h ↦ (nomatch h)
    rw [commitValue, coerceEditedValue_number hcell.column]
    exact trivial

/-- A page with one cell, which holds the number one. -/
def counterPage : Page where
  data := ⟨[⟨"counter", false, .number⟩], [[.number (.whole false (Numerals.safe 1 (by decide)))]], [], none⟩
  page := 1
  canMutate := true
  canInsertRows := true
  stringify := fun _ ↦ []

/-- Conversions that round large integers to the nearest double. -/
def roundingNumerals : Numerals where
  toNumber := fun _ ↦ .nan
  parseLong := doubleOf
  parseFraction := fun integer fraction ↦ some ⟨false, integer, fraction⟩

/-- The cell of the page. -/
theorem numericCell_counter : NumericCell counterPage .empty 0 "counter" (counterPage.loaded 0 "counter") where
  row := Or.inr (by decide)
  column := rfl
  value := fun _ h ↦ (nomatch h)

/-- The integer `-2 ^ 53` is recorded as itself. -/
theorem keepsInteger_counter :
    KeepsInteger roundingNumerals "-9007199254740992"
      (counterPage.handleCellEditCommit roundingNumerals .empty (some (counterPage.loaded 0 "counter")) 0 "counter"
        (.text "-9007199254740992")) := by
  have hread : integerOf "-9007199254740992".toList = some (-9007199254740992) := by decide +kernel
  have hinteger : (integerOf "-9007199254740992".toList).isSome := Option.isSome_iff_exists.2 ⟨_, hread⟩
  rw [keepsInteger_iff numericCell_counter (Or.inr hinteger)]
  refine fun n _ ↦ ⟨by decide, fun z hz ↦ ?_⟩
  have hz' : -9007199254740992 = z := Option.some.inj (hread.symm.trans hz)
  rw [← hz']
  exact exact_of_le roundingNumerals (by decide)

/-- An empty text is recorded as zero, and an integer beyond `2 ^ 53` as its neighbour. -/
theorem not_keepsInteger_counter :
    NumericCell counterPage .empty 0 "counter" (counterPage.loaded 0 "counter") ∧
      ¬ KeepsInteger roundingNumerals ""
        (counterPage.handleCellEditCommit roundingNumerals .empty (some (counterPage.loaded 0 "counter")) 0 "counter"
          (.text "")) ∧
      ¬ KeepsInteger roundingNumerals "9007199254740993"
        (counterPage.handleCellEditCommit roundingNumerals .empty (some (counterPage.loaded 0 "counter")) 0 "counter"
          (.text "9007199254740993")) := by
  have hcell := numericCell_counter
  have hvalue : counterPage.loaded 0 "counter" = .number (.whole false (Numerals.safe 1 (by decide))) := rfl
  rw [hvalue] at hcell ⊢
  have hread : integerOf "9007199254740993".toList = some 9007199254740993 := by decide +kernel
  have hinteger : (integerOf "9007199254740993".toList).isSome := Option.isSome_iff_exists.2 ⟨_, hread⟩
  refine ⟨hcell, ?_, ?_⟩
  · rw [handleCellEditCommit_eq hcell, keepsInteger_number hcell.column (Or.inl rfl)]
    exact fun h ↦ h.1 rfl
  · rw [handleCellEditCommit_eq hcell, keepsInteger_number hcell.column (Or.inr hinteger)]
    intro h
    have hrounded : nearest 9007199254740993 = 2 ^ 53 := by decide +kernel
    have hexact := h.2 _ hread
    rw [Exact, show (9007199254740993 : ℤ).natAbs = 9007199254740993 from rfl, hrounded] at hexact
    obtain hlarge | ⟨hself, -⟩ := hexact
    · exact absurd hlarge (not_le.2 (Nat.pow_lt_pow_right (by decide) (by decide)))
    · exact absurd hself (by decide +kernel)

end TableData
