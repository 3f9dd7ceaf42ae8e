import NexusPilot.Design.ColumnType
import Mathlib.Data.List.TakeDrop

/-!
# Texts of column types

The text that the designer sends for a type that it has read. Two texts of a type are the same type if they have
the same base type, arguments and `unsigned` flag (`comparableType`). The designer reads at most two arguments
and keeps those that the catalog knows for the type, so that a type is kept if and only if the catalog has room
for everything that its text says (`TypeKept`): the values of an enumeration and the display width of an integer
are lost.
-/

namespace Design

open Text

/-! ### Comparing types -/

/-- What two texts of a type are compared by: base type, arguments and flag, or the text itself if it does not
have the form of a type. -/
def comparableType (typeName : String) : (List Char × List String × Bool) ⊕ String :=
  match typePattern (scriptTrim typeName).toList with
  | some (base, arguments, unsigned) => .inl (lowerCase base, splitNames (String.ofList arguments), unsigned)
  | none => .inr (scriptTrim typeName)

/-- The definition that the catalog has for a base type. -/
def definitionOf (profile : TableDesignDriverProfile) (base : List Char) : Option ColumnTypeDefinition :=
  profile.typeCatalog.find? fun item ↦ lowerCase item.baseType.toList = lowerCase base

/-- A length that the designer writes as it has read it: what it counts is written with one space and in upper
case, and is known to the driver. -/
def LengthKept (profile : TableDesignDriverProfile) (length : String) : Prop :=
  match charSemanticsPattern length.toList with
  | none => True
  | some (number, semantics) => profile.charSemantics ∧ length = String.ofList number ++ " " ++ semantics.upper

instance (profile : TableDesignDriverProfile) (length : String) : Decidable (LengthKept profile length) := by
  unfold LengthKept
  split <;> infer_instance

/-- The arguments and the flag that a definition of the catalog has room for. -/
def ArgumentsKept (profile : TableDesignDriverProfile) (definition : ColumnTypeDefinition) (arguments : List String)
    (unsigned : Bool) : Prop :=
  if definition.supportsPrecisionScale ∨ arguments = [] then
    arguments.length ≤ 2 ∧ (unsigned → profile.unsigned)
  else
    arguments.length = 1 ∧ ¬unsigned ∧
      (definition.supportsTimePrecision ∨ definition.supportsLength ∧ LengthKept profile (arguments.headD ""))

instance (profile : TableDesignDriverProfile) (definition : ColumnTypeDefinition) (arguments : List String)
    (unsigned : Bool) : Decidable (ArgumentsKept profile definition arguments unsigned) := by
  unfold ArgumentsKept
  infer_instance

/-- **A type that the designer keeps**: it does not have the form of a type of the catalog, or the catalog has
room for its arguments and flag. -/
@[irreducible]
def TypeKept (profile : TableDesignDriverProfile) (typeName : String) : Prop :=
  match typePattern (scriptTrim typeName).toList with
  | none => True
  | some (base, arguments, unsigned) =>
    match definitionOf profile base with
    | none => True
    | some definition => ArgumentsKept profile definition (splitNames (String.ofList arguments)) unsigned

instance (profile : TableDesignDriverProfile) (typeName : String) : Decidable (TypeKept profile typeName) := by
  unfold TypeKept
  split
  · infer_instance
  · split <;> infer_instance

/-! ### Characters -/

variable {c : Char} {s rest arguments base number : List Char} {argument length : String}
  {profile : TableDesignDriverProfile}

/-- No character of a base type is white space. -/
theorem isScriptSpace_eq_false_of_isTypeChar (hc : isTypeChar c) : isScriptSpace c = false := by
  simp only [isTypeChar, Bool.or_eq_true, beq_iff_eq] at hc
  obtain (halnum | rfl) | rfl := hc
  · unfold Char.isAlphanum Char.isAlpha Char.isUpper Char.isLower Char.isDigit at halnum
    simp only [Bool.or_eq_true, Bool.and_eq_true, decide_eq_true_eq, ge_iff_le, UInt32.le_iff_toNat_le] at halnum
    have hrange : ((65 ≤ c.toNat ∧ c.toNat ≤ 90) ∨ (97 ≤ c.toNat ∧ c.toNat ≤ 122)) ∨
        (48 ≤ c.toNat ∧ c.toNat ≤ 57) := halnum
    simp only [isScriptSpace, Bool.or_eq_false_iff, Bool.and_eq_false_iff, decide_eq_false_iff_not,
      beq_eq_false_iff_ne]
    omega
  · decide
  · decide

/-- A text that does not begin or end with white space is trimmed. -/
theorem trimChars_eq_self (hfirst : ∀ c ∈ s.head?, isScriptSpace c = false)
    (hlast : ∀ c ∈ s.getLast?, isScriptSpace c = false) : trimChars s = s := by
  have hdrop : s.dropWhile isScriptSpace = s := by
    cases s with
    | nil => rfl
    | cons c s => exact List.dropWhile_cons_of_neg (by simpa using hfirst c rfl)
  rw [trimChars, hdrop, List.rdropWhile_eq_self_iff]
  intro hne
  simpa using hlast _ (List.getLast?_eq_some_getLast hne)

/-- A text that begins without white space and does not end with it is trimmed. -/
theorem trimChars_append_eq_self (hne : s ≠ []) (hs : ∀ c ∈ s, isScriptSpace c = false)
    (hrest : ∀ c ∈ rest.getLast?, isScriptSpace c = false) : trimChars (s ++ rest) = s ++ rest := by
  refine trimChars_eq_self (fun c hc ↦ ?_) fun c hc ↦ ?_
  · rw [List.head?_append_of_ne_nil _ hne] at hc
    exact hs c (List.mem_of_mem_head? hc)
  · rw [List.getLast?_append] at hc
    obtain hnone | ⟨last, hlast⟩ := Option.eq_none_or_eq_some rest.getLast?
    · rw [hnone, Option.none_or] at hc
      exact hs c (List.mem_of_getLast? hc)
    · rw [hlast, Option.some_or, Option.mem_some_iff] at hc
      exact hc ▸ hrest last hlast

/-- The ends of lines are white space. -/
theorem isScriptSpace_of_isLineEnd (hc : isLineEnd c) : isScriptSpace c := by
  simp only [isLineEnd, Bool.or_eq_true, beq_iff_eq] at hc
  obtain ((rfl | rfl) | hc) | hc := hc
  · decide
  · decide
  · simp [isScriptSpace, hc]
  · simp [isScriptSpace, hc]

/-! ### Reading the text of a type -/

/-- The end of the text of an unsigned type. -/
def unsignedText (unsigned : Bool) : List Char :=
  if unsigned then " unsigned".toList else []

theorem matchUnsigned_unsignedText (unsigned : Bool) : matchUnsigned (unsignedText unsigned) = some unsigned := by
  cases unsigned <;> decide

theorem notMem_unsignedText (unsigned : Bool) : ')' ∉ unsignedText unsigned := by
  cases unsigned <;> decide

theorem matchArguments_unsignedText (unsigned : Bool) : matchArguments (unsignedText unsigned) = none := by
  cases unsigned <;> decide

/-- The arguments are what stands between the brackets. -/
theorem matchArguments_parens (hline : arguments.all (!isLineEnd ·)) (unsigned : Bool) :
    matchArguments ('(' :: (arguments ++ ')' :: unsignedText unsigned)) = some (arguments, unsigned) := by
  have hdrop : ('(' :: (arguments ++ ')' :: unsignedText unsigned)).dropWhile isScriptSpace =
      '(' :: (arguments ++ ')' :: unsignedText unsigned) := List.dropWhile_cons_of_neg (by decide)
  have htail : ((arguments ++ ')' :: unsignedText unsigned).reverse.takeWhile (· ≠ ')')).reverse =
      unsignedText unsigned := by
    rw [List.reverse_append, List.reverse_cons, List.append_assoc, List.takeWhile_append_of_pos]
    · simp
    · intro c hc
      have hmem : c ∈ unsignedText unsigned := List.mem_reverse.1 hc
      exact decide_eq_true fun hclose ↦ notMem_unsignedText unsigned (hclose ▸ hmem)
  have htake : (arguments ++ ')' :: unsignedText unsigned).take
      ((arguments ++ ')' :: unsignedText unsigned).length - (unsignedText unsigned).length - 1) = arguments := by
    rw [List.take_left']
    rw [List.length_append, List.length_cons]
    omega
  rw [matchArguments, hdrop]
  simp only [htail, htake]
  rw [if_pos ⟨by simp, hline⟩, matchUnsigned_unsignedText]
  rfl

/-- A base type: a letter and then letters, digits, underscores and dollar signs. -/
structure IsBaseType (base : List Char) : Prop where
  first : base.head?.any isTypeLetter
  all : base.all isTypeChar

instance (base : List Char) : Decidable (IsBaseType base) :=
  decidable_of_iff (base.head?.any isTypeLetter ∧ base.all isTypeChar) ⟨fun h ↦ ⟨h.1, h.2⟩, fun h ↦ ⟨h.1, h.2⟩⟩

/-- The pattern takes the whole base type. -/
theorem typePattern_append (hbase : IsBaseType base) (hrest : rest.takeWhile isTypeChar = []) :
    typePattern (base ++ rest) =
      match matchArguments rest with
      | some (arguments, unsigned) => some (base, arguments, unsigned)
      | none => (matchUnsigned rest).map fun unsigned ↦ (base, [], unsigned) := by
  have hall : ∀ c ∈ base, isTypeChar c := List.all_eq_true.1 hbase.all
  have hdrop : rest.dropWhile isTypeChar = rest := by
    rw [List.dropWhile_eq_self_iff]
    intro hlen hchar
    obtain ⟨c, rest, rfl⟩ := List.exists_cons_of_length_pos hlen
    rw [List.takeWhile_cons_of_pos (show isTypeChar c from hchar)] at hrest
    exact List.cons_ne_nil _ _ hrest
  rw [typePattern, List.takeWhile_append_of_pos hall, List.dropWhile_append_of_pos hall, hrest, hdrop,
    List.append_nil]
  refine (if_pos hbase.first).trans ?_
  obtain hnone | ⟨found, hfound⟩ := Option.eq_none_or_eq_some (matchArguments rest)
  · simp only [hnone]
  · simp only [hfound]

/-- The text of a type with its arguments in brackets. -/
def argumentsText (base arguments : List Char) (unsigned : Bool) : List Char :=
  base ++ '(' :: (arguments ++ ')' :: unsignedText unsigned)

section

variable (hbase : IsBaseType base)
include hbase

theorem typePattern_argumentsText (hline : arguments.all (!isLineEnd ·)) (unsigned : Bool) :
    typePattern (argumentsText base arguments unsigned) = some (base, arguments, unsigned) := by
  rw [argumentsText, typePattern_append hbase (by rfl), matchArguments_parens hline]

theorem typePattern_plainText (unsigned : Bool) :
    typePattern (base ++ unsignedText unsigned) = some (base, [], unsigned) := by
  rw [typePattern_append hbase (by cases unsigned <;> rfl), matchArguments_unsignedText,
    matchUnsigned_unsignedText]
  rfl

theorem IsBaseType.ne_nil : base ≠ [] := by
  rintro rfl
  exact Bool.false_ne_true hbase.first

/-- A text that begins with a base type and does not end with white space is trimmed. -/
theorem IsBaseType.trimChars_append (hrest : ∀ c ∈ rest.getLast?, isScriptSpace c = false) :
    trimChars (base ++ rest) = base ++ rest :=
  trimChars_append_eq_self hbase.ne_nil
    (fun c hc ↦ isScriptSpace_eq_false_of_isTypeChar (List.all_eq_true.1 hbase.all c hc)) hrest

theorem trimChars_argumentsText (arguments : List Char) (unsigned : Bool) :
    trimChars (argumentsText base arguments unsigned) = argumentsText base arguments unsigned := by
  refine hbase.trimChars_append fun c hc ↦ ?_
  rw [show '(' :: (arguments ++ ')' :: unsignedText unsigned) = ('(' :: arguments) ++ (')' :: unsignedText unsigned)
    from rfl, List.getLast?_append_of_ne_nil _ (List.cons_ne_nil _ _)] at hc
  cases unsigned with
  | false =>
    obtain rfl : ')' = c := Option.some.inj hc
    decide
  | true =>
    obtain rfl : 'd' = c := Option.some.inj hc
    decide

theorem trimChars_plainText (unsigned : Bool) :
    trimChars (base ++ unsignedText unsigned) = base ++ unsignedText unsigned := by
  refine hbase.trimChars_append fun c hc ↦ ?_
  cases unsigned with
  | false => exact (nomatch hc)
  | true =>
    obtain rfl : 'd' = c := Option.some.inj hc
    decide

end

theorem scriptTrim_ofList (s : List Char) : scriptTrim (String.ofList s) = String.ofList (trimChars s) := by
  rw [scriptTrim, String.toList_ofList]

/-- What is compared of a type with arguments. -/
theorem comparableType_argumentsText (hbase : IsBaseType base) (hline : arguments.all (!isLineEnd ·))
    (unsigned : Bool) :
    comparableType (String.ofList (argumentsText base arguments unsigned)) =
      .inl (lowerCase base, splitNames (String.ofList arguments), unsigned) := by
  rw [comparableType, scriptTrim_ofList, trimChars_argumentsText hbase, String.toList_ofList,
    typePattern_argumentsText hbase hline]

theorem comparableType_plainText (hbase : IsBaseType base) (unsigned : Bool) :
    comparableType (String.ofList (base ++ unsignedText unsigned)) = .inl (lowerCase base, [], unsigned) := by
  rw [comparableType, scriptTrim_ofList, trimChars_plainText hbase, String.toList_ofList,
    typePattern_plainText hbase]
  rfl

/-! ### The catalog -/

/-- A definition of the catalog: its base type is one, and it has room for arguments of one kind at most. -/
structure ColumnTypeDefinition.WellFormed (definition : ColumnTypeDefinition) : Prop where
  base : IsBaseType definition.baseType.toList
  kinds : (definition.supportsPrecisionScale → ¬definition.supportsLength ∧ ¬definition.supportsTimePrecision) ∧
    (definition.supportsLength → ¬definition.supportsTimePrecision)

instance (definition : ColumnTypeDefinition) : Decidable definition.WellFormed :=
  decidable_of_iff (IsBaseType definition.baseType.toList ∧
      (definition.supportsPrecisionScale → ¬definition.supportsLength ∧ ¬definition.supportsTimePrecision) ∧
      (definition.supportsLength → ¬definition.supportsTimePrecision))
    ⟨fun h ↦ ⟨h.1, h.2⟩, fun h ↦ ⟨h.1, h.2⟩⟩

/-- Every catalog is well formed. -/
theorem wellFormed_of_mem_typeCatalog (driver : DesignDriver) :
    ∀ definition ∈ (tableDesignProfileForDriver driver).typeCatalog, definition.WellFormed := by
  cases driver <;> decide

/-! ### Writing what has been read -/

/-- The text of a length with what it counts. -/
def lengthText (profile : TableDesignDriverProfile) (length : String) : String :=
  match charSemanticsPattern length.toList with
  | none => length
  | some (number, semantics) =>
    if profile.charSemantics then String.ofList number ++ " " ++ semantics.upper else String.ofList number

/-- An argument as it is read: trimmed, not blank, without commas and line ends. -/
structure IsArgument (argument : String) : Prop where
  trim : scriptTrim argument = argument
  listable : IsListable argument
  line : argument.toList.all (!isLineEnd ·)

theorem IsArgument.ne_empty (h : IsArgument argument) : argument ≠ "" := by
  have hne := h.listable.1
  rwa [h.trim] at hne

/-- The arguments that are read from the text of a type. -/
theorem isArgument_of_mem_splitNames (hline : arguments.all (!isLineEnd ·))
    (hmem : argument ∈ splitNames (String.ofList arguments)) : IsArgument argument where
  trim := (isListable_of_mem_splitNames hmem).1
  listable := (isListable_of_mem_splitNames hmem).2
  line := by
    refine List.all_eq_true.2 fun c hc ↦ List.all_eq_true.1 hline c ?_
    have hc := mem_of_mem_splitNames hmem hc
    rwa [String.toList_ofList] at hc

theorem IsArgument.splitCommas {argument : String} (h : IsArgument argument) :
    Text.splitCommas argument.toList = [argument.toList] := by
  have htrim : trimChars argument.toList = argument.toList := by
    rw [← String.ofList_inj, ← scriptTrim, h.trim, String.ofList_toList]
  have hne : argument.toList ≠ [] := fun hnil ↦ h.ne_empty (toList_eq_nil_iff.1 hnil)
  rw [splitCommas_of_notMem h.listable.2, htrim, if_neg hne]

theorem IsArgument.splitNames {argument : String} (h : IsArgument argument) :
    Text.splitNames (String.ofList argument.toList) = [argument] := by
  rw [Text.splitNames, String.toList_ofList, h.splitCommas, List.map_singleton, String.ofList_toList]

theorem IsArgument.splitNames_pair {first second : String} (h : IsArgument first) (h' : IsArgument second) :
    Text.splitNames (String.ofList (first.toList ++ ',' :: second.toList)) = [first, second] := by
  rw [Text.splitNames, String.toList_ofList, splitCommas_append_cons, h.splitCommas, h'.splitCommas]
  simp

/-! ### Lengths -/

theorem charSemanticsPattern_eq_some {argument : List Char} {semantics : CharSemantics}
    (h : charSemanticsPattern argument = some (number, semantics)) :
    number ≠ [] ∧ (∀ c ∈ number, c.isDigit) ∧ number.length < argument.length ∧ semantics ≠ .unset := by
  rw [charSemanticsPattern, Option.ite_none_right_eq_some] at h
  obtain ⟨⟨hne, hspace⟩, h⟩ := h
  obtain ⟨c, hc, -⟩ := (Option.any_eq_true _ _).1 hspace
  have hrest : 0 < (argument.dropWhile Char.isDigit).length := List.length_pos_of_mem (List.mem_of_mem_head? hc)
  have hlen : (argument.takeWhile Char.isDigit).length < argument.length := by
    have happend := congrArg List.length (List.takeWhile_append_dropWhile (p := Char.isDigit) (l := argument))
    rw [List.length_append] at happend
    omega
  have hnumber : number = argument.takeWhile Char.isDigit ∧ semantics ≠ .unset := by
    split at h
    · obtain ⟨rfl, rfl⟩ := Prod.mk.inj (Option.some.inj h)
      exact ⟨rfl, CharSemantics.noConfusion⟩
    · obtain ⟨-, h⟩ := Option.ite_none_right_eq_some.1 h
      obtain ⟨rfl, rfl⟩ := Prod.mk.inj (Option.some.inj h)
      exact ⟨rfl, CharSemantics.noConfusion⟩
  rw [hnumber.1]
  exact ⟨hne, fun c hc ↦ List.mem_takeWhile_imp hc, hlen, hnumber.2⟩

/-- A length is written as it was read if and only if it is kept. -/
theorem lengthText_eq_iff :
    lengthText profile length = length ↔ LengthKept profile length := by
  rw [lengthText, LengthKept]
  obtain hnone | ⟨⟨number, semantics⟩, hsome⟩ := Option.eq_none_or_eq_some (charSemanticsPattern length.toList)
  · rw [hnone]
    exact iff_of_true rfl trivial
  · rw [hsome]
    by_cases hprofile : profile.charSemantics
    · show (if _ then _ else _) = _ ↔ _ ∧ _
      rw [if_pos hprofile, eq_comm]
      exact (and_iff_right hprofile).symm
    · show (if _ then _ else _) = _ ↔ _ ∧ _
      rw [if_neg hprofile]
      refine iff_of_false (fun heq ↦ ?_) fun h ↦ hprofile h.1
      have hlen := (charSemanticsPattern_eq_some hsome).2.2.1
      rw [← heq, String.toList_ofList] at hlen
      exact hlen.false

theorem isTypeChar_of_isDigit (hc : c.isDigit) : isTypeChar c := by
  simp [isTypeChar, Char.isAlphanum, hc]

/-- Digits, and what they count after one space. -/
theorem isArgument_digits {suffix : List Char} (hne : number ≠ []) (hdigits : ∀ c ∈ number, c.isDigit)
    (hsuffix : ∀ c ∈ suffix, c ≠ ',' ∧ isLineEnd c = false)
    (hlast : ∀ c ∈ suffix.getLast?, isScriptSpace c = false) :
    IsArgument (String.ofList (number ++ suffix)) := by
  have hspace : ∀ c ∈ number, isScriptSpace c = false := fun c hc ↦
    isScriptSpace_eq_false_of_isTypeChar (isTypeChar_of_isDigit (hdigits c hc))
  have hall : ∀ c ∈ number ++ suffix, c ≠ ',' ∧ isLineEnd c = false := by
    intro c hc
    obtain hc | hc := List.mem_append.1 hc
    · refine ⟨fun hcomma ↦ absurd (hcomma ▸ hdigits c hc) (by decide), Bool.eq_false_iff.2 fun hline ↦ ?_⟩
      exact Bool.false_ne_true ((hspace c hc).symm.trans (isScriptSpace_of_isLineEnd hline))
    · exact hsuffix c hc
  have htrim : trimChars (number ++ suffix) = number ++ suffix := trimChars_append_eq_self hne hspace hlast
  refine ⟨by rw [scriptTrim_ofList, htrim], ⟨fun hblank ↦ ?_, fun hcomma ↦ ?_⟩, ?_⟩
  · rw [scriptTrim_eq_empty_iff, String.toList_ofList, htrim, List.append_eq_nil_iff] at hblank
    exact hne hblank.1
  · rw [String.toList_ofList] at hcomma
    exact (hall _ hcomma).1 rfl
  · rw [String.toList_ofList]
    exact List.all_eq_true.2 fun c hc ↦ by rw [(hall c hc).2]; rfl

/-- What is written for a length that has been read is an argument. -/
theorem isArgument_lengthText (h : IsArgument length) :
    IsArgument (lengthText profile length) := by
  obtain hnone | ⟨⟨number, semantics⟩, hsome⟩ := Option.eq_none_or_eq_some (charSemanticsPattern length.toList)
  · rwa [lengthText, hnone]
  · obtain ⟨hne, hdigits, -, hsemantics⟩ := charSemanticsPattern_eq_some hsome
    have hplain : IsArgument (String.ofList (number ++ [])) :=
      isArgument_digits hne hdigits (by simp) (by simp)
    have hcounted : IsArgument (String.ofList (number ++ ' ' :: semantics.upper.toList)) := by
      have hall : (' ' :: semantics.upper.toList).all fun c ↦ c ≠ ',' && !isLineEnd c := by
        cases semantics <;> decide
      have hlast : (' ' :: semantics.upper.toList).getLast?.all fun c ↦ !isScriptSpace c := by
        cases semantics with
        | unset => exact absurd rfl hsemantics
        | byte => decide
        | char => decide
      refine isArgument_digits hne hdigits (fun c hc ↦ ?_) fun c hc ↦ ?_
      · simpa using List.all_eq_true.1 hall c hc
      · rw [Option.mem_def.1 hc] at hlast
        simpa using hlast
    have htext : String.ofList number ++ " " ++ semantics.upper =
        String.ofList (number ++ ' ' :: semantics.upper.toList) := by
      rw [← String.toList_inj]
      simp
    rw [lengthText, hsome]
    show IsArgument (if profile.charSemantics then _ else _)
    split
    · exact htext ▸ hcounted
    · exact (List.append_nil number) ▸ hplain

/-! ### Keeping a type -/

section Format

variable {profile : TableDesignDriverProfile} {definition : ColumnTypeDefinition}

theorem scriptTrim_baseType (hdef : definition.WellFormed) :
    scriptTrim definition.baseType = definition.baseType := by
  have htrim := hdef.base.trimChars_append (fun c (hc : c ∈ ([] : List Char).getLast?) ↦ (nomatch hc))
  rw [List.append_nil] at htrim
  rw [scriptTrim, htrim, String.ofList_toList]

/-- What is compared of a type that is written without arguments. -/
theorem comparableType_plain (hdef : definition.WellFormed) (unsigned : Bool) :
    comparableType (definition.baseType ++ (if unsigned then " unsigned" else "")) =
      .inl (lowerCase definition.baseType.toList, [], unsigned) := by
  rw [← comparableType_plainText hdef.base unsigned]
  congr 1
  rw [← String.toList_inj]
  cases unsigned <;> simp [unsignedText]

/-- What is compared of a type that is written with one argument. -/
theorem comparableType_single (hdef : definition.WellFormed) {argument : String} (harg : IsArgument argument)
    (unsigned : Bool) :
    comparableType (definition.baseType ++ ("(" ++ argument ++ ")") ++ (if unsigned then " unsigned" else "")) =
      .inl (lowerCase definition.baseType.toList, [argument], unsigned) := by
  rw [← harg.splitNames, ← comparableType_argumentsText hdef.base harg.line unsigned]
  congr 1
  rw [← String.toList_inj]
  cases unsigned <;> simp [unsignedText, argumentsText]

variable {first : String} {arguments : List String}

/-- What is compared of a type that is written with two arguments. -/
theorem comparableType_pair (hdef : definition.WellFormed) {second : String} (hfirst : IsArgument first)
    (hsecond : IsArgument second) (unsigned : Bool) :
    comparableType (definition.baseType ++ ("(" ++ first ++ "," ++ second ++ ")") ++
        (if unsigned then " unsigned" else "")) =
      .inl (lowerCase definition.baseType.toList, [first, second], unsigned) := by
  have hline : (first.toList ++ ',' :: second.toList).all (!isLineEnd ·) := by
    rw [List.all_append, List.all_cons, hfirst.line, hsecond.line]
    rfl
  rw [← hfirst.splitNames_pair hsecond, ← comparableType_argumentsText hdef.base hline unsigned]
  congr 1
  rw [← String.toList_inj]
  cases unsigned <;> simp [unsignedText, argumentsText]

/-- A type with a precision and a scale is written with both, and with the flag. -/
theorem comparableType_precisionScale (hdef : definition.WellFormed)
    (hkind : definition.supportsPrecisionScale) (hargs : ∀ argument ∈ arguments, IsArgument argument)
    (unsigned : Bool) :
    comparableType (formatColumnType (structuredDraft definition arguments unsigned) profile) =
      .inl (lowerCase definition.baseType.toList, arguments.take 2, unsigned && profile.unsigned) := by
  have hbase := scriptTrim_baseType hdef
  have hempty : scriptTrim "" = "" := rfl
  obtain ⟨hlength, htime⟩ := hdef.kinds.1 hkind
  cases arguments with
  | nil =>
    have hplain := comparableType_plain hdef (unsigned && profile.unsigned)
    simpa [formatColumnType, structuredDraft, hbase, hkind, hlength, htime, hempty] using hplain
  | cons first rest =>
    have hfirst := hargs first List.mem_cons_self
    cases rest with
    | nil =>
      have hsingle := comparableType_single hdef hfirst (unsigned && profile.unsigned)
      simpa [formatColumnType, structuredDraft, precisionScale, hbase, hkind, hempty, hfirst.trim, hfirst.ne_empty]
        using hsingle
    | cons second rest =>
      have hsecond := hargs second (by simp)
      have hpair := comparableType_pair hdef hfirst hsecond (unsigned && profile.unsigned)
      simpa [formatColumnType, structuredDraft, precisionScale, hbase, hkind, hfirst.trim, hfirst.ne_empty,
        hsecond.trim, hsecond.ne_empty] using hpair

/-- A type without a precision and arguments is written with its flag. -/
theorem comparableType_noArguments (hdef : definition.WellFormed) (unsigned : Bool) :
    comparableType (formatColumnType (structuredDraft definition [] unsigned) profile) =
      .inl (lowerCase definition.baseType.toList, [], unsigned && profile.unsigned) := by
  have hbase := scriptTrim_baseType hdef
  have hempty : scriptTrim "" = "" := rfl
  have hpattern : charSemanticsPattern [] = none := rfl
  have hplain := comparableType_plain hdef (unsigned && profile.unsigned)
  simpa [formatColumnType, structuredDraft, hbase, hempty, hpattern] using hplain

/-- The text of a draft that has a length and no precision. -/
theorem formatColumnType_of_length {unsigned : Bool}
    (hbase : scriptTrim definition.baseType = definition.baseType)
    (hprecision : ¬definition.supportsPrecisionScale)
    (hlength : scriptTrim (structuredDraft definition arguments unsigned).length ≠ "") :
    formatColumnType (structuredDraft definition arguments unsigned) profile =
      definition.baseType ++ "(" ++ scriptTrim (structuredDraft definition arguments unsigned).length ++
        (if profile.charSemantics ∧ (structuredDraft definition arguments unsigned).charSemantics ≠ .unset then
          " " ++ (structuredDraft definition arguments unsigned).charSemantics.upper else "") ++ ")" := by
  have hmode : (structuredDraft definition arguments unsigned).mode ≠ .raw := ColumnTypeMode.noConfusion
  have henum : (structuredDraft definition arguments unsigned).enumValues = [] := rfl
  have hdraft : (structuredDraft definition arguments unsigned).baseType = definition.baseType := rfl
  have hnone : (structuredDraft definition arguments unsigned).precision = "" := if_neg hprecision
  generalize structuredDraft definition arguments unsigned = draft at *
  have hempty : scriptTrim "" = "" := rfl
  rw [formatColumnType, if_neg hmode]
  simp only [henum, hnone, hdraft, hbase, hempty, hlength, ne_eq, not_true_eq_false, not_false_eq_true, false_and,
    if_false, if_true]

section

variable (hdef : definition.WellFormed)
include hdef

theorem formatColumnType_length (hkind : definition.supportsLength) (hfirst : IsArgument first)
    (rest : List String) (unsigned : Bool) :
    formatColumnType (structuredDraft definition (first :: rest) unsigned) profile =
      definition.baseType ++ ("(" ++ lengthText profile first ++ ")") := by
  have hbase := scriptTrim_baseType hdef
  have hempty : scriptTrim "" = "" := rfl
  have hprecision : ¬definition.supportsPrecisionScale := fun h ↦ (hdef.kinds.1 h).1 hkind
  obtain hnone | ⟨⟨number, semantics⟩, hsome⟩ := Option.eq_none_or_eq_some (charSemanticsPattern first.toList)
  · have hlength : (structuredDraft definition (first :: rest) unsigned).length = first := by
      simp only [structuredDraft, List.headD_cons, hnone, hkind, if_true]
    have hsemantics : (structuredDraft definition (first :: rest) unsigned).charSemantics = .unset := by
      simp only [structuredDraft, List.headD_cons, hnone, Option.map_none, Option.getD_none]
    rw [formatColumnType_of_length hbase hprecision (by rw [hlength, hfirst.trim]; exact hfirst.ne_empty), hlength,
      hsemantics, hfirst.trim, lengthText, hnone]
    simp [String.append_assoc]
  · obtain ⟨hne, hdigits, -, hunset⟩ := charSemanticsPattern_eq_some hsome
    have hnumber : IsArgument (String.ofList (number ++ [])) := isArgument_digits hne hdigits (by simp) (by simp)
    rw [List.append_nil] at hnumber
    have hlength : (structuredDraft definition (first :: rest) unsigned).length = String.ofList number := by
      simp only [structuredDraft, List.headD_cons, hsome, hkind, if_true]
    have hsemantics : (structuredDraft definition (first :: rest) unsigned).charSemantics = semantics := by
      simp only [structuredDraft, List.headD_cons, hsome, Option.map_some, Option.getD_some]
    rw [formatColumnType_of_length hbase hprecision (by rw [hlength, hnumber.trim]; exact hnumber.ne_empty), hlength,
      hsemantics, hnumber.trim, lengthText, hsome]
    by_cases hprofile : profile.charSemantics
    · simp only [hprofile, hunset, ne_eq, not_false_eq_true, and_self, if_true, String.append_assoc]
    · simp only [hprofile, false_and, if_false, String.append_empty, Bool.false_eq_true, String.append_assoc]

/-- A type with a length is written with it, and without the flag. -/
theorem comparableType_length (hkind : definition.supportsLength) (hfirst : IsArgument first)
    (rest : List String) (unsigned : Bool) :
    comparableType (formatColumnType (structuredDraft definition (first :: rest) unsigned) profile) =
      .inl (lowerCase definition.baseType.toList, [lengthText profile first], false) := by
  rw [formatColumnType_length hdef hkind hfirst, ← comparableType_single hdef (isArgument_lengthText hfirst) false]
  simp

/-- A type with a precision of a time is written with it, and without the flag. -/
theorem comparableType_timePrecision (hkind : definition.supportsTimePrecision) (hfirst : IsArgument first)
    (rest : List String) (unsigned : Bool) :
    comparableType (formatColumnType (structuredDraft definition (first :: rest) unsigned) profile) =
      .inl (lowerCase definition.baseType.toList, [first], false) := by
  have hbase := scriptTrim_baseType hdef
  have hempty : scriptTrim "" = "" := rfl
  have hprecision : ¬definition.supportsPrecisionScale := fun h ↦ (hdef.kinds.1 h).2 hkind
  have hlength : ¬definition.supportsLength := fun h ↦ hdef.kinds.2 h hkind
  have hsingle := comparableType_single hdef hfirst false
  simpa [formatColumnType, structuredDraft, maybeParen, hbase, hempty, hkind, hprecision, hlength, hfirst.trim,
    hfirst.ne_empty] using hsingle

/-- The arguments of any other type are not written. -/
theorem comparableType_other (hprecision : ¬definition.supportsPrecisionScale)
    (hlength : ¬definition.supportsLength) (htime : ¬definition.supportsTimePrecision) (arguments : List String)
    (unsigned : Bool) :
    comparableType (formatColumnType (structuredDraft definition arguments unsigned) profile) =
      .inl (lowerCase definition.baseType.toList, [], unsigned && profile.unsigned) := by
  have hbase := scriptTrim_baseType hdef
  have hempty : scriptTrim "" = "" := rfl
  have hplain := comparableType_plain hdef (unsigned && profile.unsigned)
  simpa [formatColumnType, structuredDraft, hbase, hempty, hprecision, hlength, htime] using hplain

/-- **The type that is written is the one that was read if and only if the catalog has room for it.** -/
theorem comparableType_structuredDraft_iff (hargs : ∀ argument ∈ arguments, IsArgument argument)
    (unsigned : Bool) :
    comparableType (formatColumnType (structuredDraft definition arguments unsigned) profile) =
        .inl (lowerCase definition.baseType.toList, arguments, unsigned) ↔
      ArgumentsKept profile definition arguments unsigned := by
  have hflag : (unsigned && profile.unsigned) = unsigned ↔ (unsigned → profile.unsigned) := by
    cases unsigned <;> simp
  rw [ArgumentsKept]
  by_cases hprecision : definition.supportsPrecisionScale
  · rw [comparableType_precisionScale hdef hprecision hargs, if_pos (Or.inl hprecision), Sum.inl.injEq,
      Prod.mk.injEq, Prod.mk.injEq, hflag]
    exact (and_iff_right rfl).trans (and_congr_left' (List.take_eq_self_iff _))
  cases arguments with
  | nil =>
    rw [comparableType_noArguments hdef, if_pos (Or.inr rfl), Sum.inl.injEq, Prod.mk.injEq, Prod.mk.injEq, hflag]
    simp
  | cons first rest =>
    have hfirst := hargs first List.mem_cons_self
    rw [if_neg (not_or.2 ⟨hprecision, List.cons_ne_nil _ _⟩)]
    by_cases hlength : definition.supportsLength
    · have htime := hdef.kinds.2 hlength
      rw [comparableType_length hdef hlength hfirst, Sum.inl.injEq, Prod.mk.injEq, Prod.mk.injEq, List.cons.injEq,
        lengthText_eq_iff]
      cases unsigned <;> simp [hlength, htime, and_comm, eq_comm (a := ([] : List String))]
    by_cases htime : definition.supportsTimePrecision
    · rw [comparableType_timePrecision hdef htime hfirst, Sum.inl.injEq, Prod.mk.injEq, Prod.mk.injEq,
        List.cons.injEq]
      cases unsigned <;> simp [htime, eq_comm (a := ([] : List String))]
    · rw [comparableType_other hdef hprecision hlength htime, Sum.inl.injEq, Prod.mk.injEq, Prod.mk.injEq]
      simp [hlength, htime]

end

end Format

/-- The definition of a type has its base type. -/
theorem lowerCase_of_definitionOf {definition : ColumnTypeDefinition}
    (h : definitionOf profile base = some definition) :
    definition ∈ profile.typeCatalog ∧ lowerCase definition.baseType.toList = lowerCase base := by
  rw [definitionOf] at h
  exact ⟨List.mem_of_find?_eq_some h, by simpa using List.find?_some h⟩

/-- The arguments that the pattern finds have no line ends. -/
theorem line_of_typePattern {text : List Char} {unsigned : Bool}
    (h : typePattern text = some (base, arguments, unsigned)) : arguments.all (!isLineEnd ·) := by
  have hmatch : ∀ {rest found}, matchArguments rest = some found → found.1.all (!isLineEnd ·) := by
    intro rest found hfound
    rw [matchArguments] at hfound
    split at hfound
    · obtain ⟨hinner, hfound⟩ := Option.ite_none_right_eq_some.1 hfound
      obtain ⟨flag, -, rfl⟩ := Option.map_eq_some_iff.1 hfound
      exact hinner.2
    · exact (nomatch hfound)
  rw [typePattern] at h
  obtain ⟨-, h⟩ := Option.ite_none_right_eq_some.1 h
  obtain hnone | ⟨found, hsome⟩ := Option.eq_none_or_eq_some (matchArguments (text.dropWhile isTypeChar))
  · rw [hnone] at h
    obtain ⟨flag, -, h⟩ := Option.map_eq_some_iff.1 h
    obtain rfl : [] = arguments := congrArg (·.2.1) h
    rfl
  · rw [hsome] at h
    obtain rfl : found.1 = arguments := congrArg (·.2.1) (Option.some.inj h)
    exact hmatch hsome

/-- White space around a type does not matter. -/
theorem comparableType_scriptTrim (typeName : String) :
    comparableType (scriptTrim typeName) = comparableType typeName := by
  rw [comparableType, scriptTrim_scriptTrim, comparableType]

/-- **A type is the same after it has been read and written if and only if it is kept.** -/
theorem comparableType_parseColumnType_iff
    (hcatalog : ∀ definition ∈ profile.typeCatalog, definition.WellFormed) (typeName : String) :
    comparableType (formatColumnType (parseColumnType typeName profile) profile) = comparableType typeName ↔
      TypeKept profile typeName := by
  have hraw : formatColumnType (createRawColumnTypeDraft (scriptTrim typeName)) profile = scriptTrim typeName := by
    have hmode : (createRawColumnTypeDraft (scriptTrim typeName)).mode = .raw := rfl
    rw [formatColumnType, if_pos hmode]
    show scriptTrim (scriptTrim (scriptTrim typeName)) = _
    rw [scriptTrim_scriptTrim, scriptTrim_scriptTrim]
  have hself := comparableType_scriptTrim typeName
  obtain hnone | ⟨⟨base, arguments, unsigned⟩, hsome⟩ :=
    Option.eq_none_or_eq_some (typePattern (scriptTrim typeName).toList)
  · rw [parseColumnType, TypeKept, hnone]
    exact iff_of_true ((congrArg comparableType hraw).trans hself) trivial
  obtain hmissing | ⟨definition, hfound⟩ := Option.eq_none_or_eq_some (definitionOf profile base)
  · have hparse : parseColumnType typeName profile = createRawColumnTypeDraft (scriptTrim typeName) := by
      rw [parseColumnType, hsome]
      show (match definitionOf profile base with | none => _ | some _ => _) = _
      rw [hmissing]
    rw [hparse, hraw, hself, TypeKept, hsome]
    show _ ↔ match definitionOf profile base with | none => True | some _ => _
    rw [hmissing]
    exact iff_of_true rfl trivial
  · have hparse : parseColumnType typeName profile =
        structuredDraft definition (splitNames (String.ofList arguments)) unsigned := by
      rw [parseColumnType, hsome]
      show (match definitionOf profile base with | none => _ | some _ => _) = _
      rw [hfound]
    obtain ⟨hmem, hbase⟩ := lowerCase_of_definitionOf hfound
    have hline := line_of_typePattern hsome
    have hcomparable : comparableType typeName =
        .inl (lowerCase definition.baseType.toList, splitNames (String.ofList arguments), unsigned) := by
      rw [comparableType, hsome, hbase]
    rw [hparse, hcomparable, comparableType_structuredDraft_iff (hcatalog definition hmem)
      fun argument hargument ↦ isArgument_of_mem_splitNames hline hargument, TypeKept, hsome]
    show _ ↔ match definitionOf profile base with | none => True | some _ => _
    rw [hfound]

end Design
