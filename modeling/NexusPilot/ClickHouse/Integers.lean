import Mathlib.Data.Nat.Digits.Defs
import NexusPilot.ClickHouse.Values

/-!
# The integers of a query result

`normalize_integer` compares decimal texts and never computes with a number of more than 64 bits. Its bounds come from
doubling a text digit by digit (`decimalPowerOfTwo_eq`) and from lowering it by one (`decimalSubtractOne_text`), and its
comparison goes by length and first difference (`decimalMagnitudeExceeds_iff`). So it accepts the texts of the integers in
the range of the type and nothing else, and what it makes of one denotes the same integer (`normalizeInteger_eq_ok_iff`).
-/

namespace ClickHouse

open Drivers DecimalText

/-! ### Integers and their texts -/

/-- The text is a run of digits with a sign in front, if there is one, and denotes the number. -/
def IntegerText (signed : Bool) (text : List Char) (n : ℤ) : Prop :=
  ∃ digits, digits ≠ [] ∧ IsDigits digits ∧
    ((text = digits ∨ text = '+' :: digits) ∧ n = value digits ∨
      signed = true ∧ text = '-' :: digits ∧ n = -value digits)

/-- The range of an integer type. -/
def InIntegerRange (signed : Bool) (bits : ℕ) (n : ℤ) : Prop :=
  if signed then -2 ^ (bits - 1) ≤ n ∧ n < 2 ^ (bits - 1) else 0 ≤ n ∧ n < 2 ^ bits

/-- The notation of an integer: no zeros in front, no sign but that of a negative number. -/
def integerNotation (n : ℤ) : List Char :=
  signedText (decide (n < 0)) (text n.natAbs)

/-- An integer as the grid shows it: as a number where JavaScript holds it, and as text otherwise. -/
def integerValue (n : ℤ) : Json :=
  if n.natAbs ≤ jsMaxSafeInteger then .num (String.ofList (integerNotation n))
  else .str (String.ofList (integerNotation n))

/-! ### Powers of two -/

/-- The loop doubles the number of the digits and adds the carry. -/
theorem doubleDigits_digits (carry n : ℕ) (hcarry : carry ≤ 1) :
    doubleDigits carry (Nat.digits 10 n) = Nat.digits 10 (2 * n + carry) := by
  induction n using Nat.strongRecOn generalizing carry with
  | _ n ih =>
    obtain rfl | hn := Nat.eq_zero_or_pos n
    · rw [Nat.digits_zero, doubleDigits, Nat.mul_zero, Nat.zero_add]
      obtain rfl | hpos := Nat.eq_zero_or_pos carry
      · rw [if_neg (Nat.lt_irrefl 0), Nat.digits_zero]
      · rw [if_pos hpos, Nat.digits_of_lt 10 carry (by omega) (by omega)]
    · have hdouble : 0 < 2 * n + carry := by omega
      have hlow : (2 * n + carry) % 10 = (n % 10 * 2 + carry) % 10 := by omega
      have hhigh : (2 * n + carry) / 10 = 2 * (n / 10) + (n % 10 * 2 + carry) / 10 := by omega
      rw [Nat.digits_def' (by decide) hn, Nat.digits_def' (by decide) hdouble, doubleDigits, hlow, hhigh]
      rw [ih (n / 10) (Nat.div_lt_self hn (by decide)) _ (by omega)]

theorem iterate_doubleDigits (bits : ℕ) : (doubleDigits 0)^[bits] [1] = Nat.digits 10 (2 ^ bits) := by
  induction bits with
  | zero => rfl
  | succ bits ih => rw [Function.iterate_succ_apply', ih, doubleDigits_digits 0 _ (by decide), Nat.pow_succ', Nat.add_zero]

variable {n : ℕ}

/-- The notation of a number from its digits, the lowest first. -/
theorem text_eq_digits (hn : 0 < n) : text n = (Nat.digits 10 n).reverse.map Nat.digitChar := by
  induction n using Nat.strongRecOn with
  | _ n ih =>
    rw [Nat.digits_def' (by decide) hn, List.reverse_cons, List.map_append]
    have hlow : n % 10 < 10 := Nat.mod_lt _ (by decide)
    obtain hzero | hpos := Nat.eq_zero_or_pos (n / 10)
    · have hn : n % 10 = n := by omega
      rw [hzero, Nat.digits_zero, hn, text_of_lt (by omega)]
      rfl
    · have hsplit : n = 10 * (n / 10) + n % 10 := (Nat.div_add_mod n 10).symm
      rw [← ih (n / 10) (Nat.div_lt_self hn (by decide)) hpos]
      conv_lhs => rw [hsplit, text_append hpos hlow]
      rfl

/-- `decimal_power_of_two` writes the power. -/
theorem decimalPowerOfTwo_eq (bits : ℕ) : decimalPowerOfTwo bits = text (2 ^ bits) := by
  rw [decimalPowerOfTwo, iterate_doubleDigits, text_eq_digits (Nat.two_pow_pos bits)]

/-! ### One less -/

theorem mod_ten_two_pow_pos (bits : ℕ) : 0 < 2 ^ bits % 10 := by
  have heven : 2 ^ bits % 10 = 1 ∨ 2 ^ bits % 10 = 2 ∨ 2 ^ bits % 10 = 4 ∨ 2 ^ bits % 10 = 8 ∨ 2 ^ bits % 10 = 6 := by
    induction bits with
    | zero => exact .inl rfl
    | succ bits ih => rw [Nat.pow_succ]; omega
  omega

theorem lowered_digitChar {d : ℕ} (hpos : 0 < d) (hd : d < 10) :
    '0'.toNat < (Nat.digitChar d).toNat ∧ Char.ofNat ((Nat.digitChar d).toNat - 1) = Nat.digitChar (d - 1) := by
  interval_cases d <;> decide

/-- `decimal_subtract_one` lowers a number whose last digit is no zero. -/
theorem decimalSubtractOne_text (h : 0 < n % 10) : decimalSubtractOne (text n) = text (n - 1) := by
  have hlow : n % 10 < 10 := Nat.mod_lt _ (by decide)
  obtain ⟨hpos, hdigit⟩ := lowered_digitChar h hlow
  have hless : n - 1 = 10 * (n / 10) + (n % 10 - 1) := by omega
  obtain hzero | hfront := Nat.eq_zero_or_pos (n / 10)
  · have hn : n % 10 = n := by omega
    rw [hn] at hpos hdigit
    rw [text_of_lt (by omega), text_of_lt (by omega), decimalSubtractOne, List.reverse_singleton, subtractOneFrom,
      if_pos hpos, hdigit]
    rfl
  · rw [hless, text_append hfront (by omega)]
    conv_lhs => rw [← Nat.div_add_mod n 10, text_append hfront hlow]
    rw [decimalSubtractOne, List.reverse_append, List.reverse_singleton, List.singleton_append, subtractOneFrom,
      if_pos hpos, hdigit, List.reverse_cons, List.reverse_reverse]

/-- `decimal_magnitude_exceeds` compares the numbers. -/
theorem decimalMagnitudeExceeds_iff {s : List Char} (hs : Canonical s) (n : ℕ) :
    decimalMagnitudeExceeds s (text n) = true ↔ n < value s := by
  have h := value_lt_iff (canonical_text n) hs
  rw [value_text] at h
  rw [h, decimalMagnitudeExceeds, Bool.or_eq_true, decide_eq_true_eq, Bool.and_eq_true, beq_iff_eq, eq_comm]

/-! ### Reading -/

/-- The digits without the zeros in front are the notation of their number. -/
theorem trimmed_eq_text {digits : List Char} (h : IsDigits digits) :
    (if digits.dropWhile (· == '0') = [] then ['0'] else digits.dropWhile (· == '0')) = text (value digits) := by
  have hvalue := value_dropWhile_zero digits
  split
  · next hnil =>
    rw [hnil, value_nil] at hvalue
    rw [← hvalue]
    rfl
  · next hne =>
    have hcanonical : Canonical (digits.dropWhile (· == '0')) := by
      refine ⟨fun c hc ↦ h c ((List.dropWhile_sublist _).mem hc), hne, .inr fun hhead ↦ ?_⟩
      have hstop := List.head_dropWhile_not (· == '0') hne
      rw [List.head?_eq_some_head hne, Option.some.injEq] at hhead
      rw [hhead] at hstop
      exact absurd hstop (by decide)
    rw [← hvalue, text_value hcanonical]

theorem text_ne_zero_iff (n : ℕ) : text n ≠ ['0'] ↔ n ≠ 0 := by
  refine not_congr ⟨fun h ↦ ?_, fun h ↦ by rw [h]; rfl⟩
  have hvalue := value_text n
  rw [h] at hvalue
  exact hvalue.symm

/-- A text without a sign is not split. -/
theorem splitSign_of_isDigits {digits : List Char} (h : IsDigits digits) : splitSign digits = (false, digits) := by
  cases digits with
  | nil => rfl
  | cons c rest =>
    have hc := h c List.mem_cons_self
    rw [splitSign.eq_def]
    split
    · next heq =>
      cases heq
      exact absurd hc (by decide)
    · next heq =>
      cases heq
      exact absurd hc (by decide)
    · rfl

theorem of_splitSign {text digits : List Char} {negative : Bool} (h : splitSign text = (negative, digits)) :
    negative = true ∧ text = '-' :: digits ∨ negative = false ∧ (text = digits ∨ text = '+' :: digits) := by
  rw [splitSign.eq_def] at h
  split at h
  · cases h
    exact .inl ⟨rfl, rfl⟩
  · cases h
    exact .inr ⟨rfl, .inr rfl⟩
  · cases h
    exact .inr ⟨rfl, .inl rfl⟩

section Integers

variable {lib : ValueLibrary} {signed : Bool} {bits : ℕ} {ty : ClickHouseType}

variable {negative : Bool} {n : ℤ}

/-- What the digits behind a sign are read as. -/
theorem parseIntegerText_of_splitSign {text digits : List Char} (hsplit : splitSign text = (negative, digits))
    (hne : digits ≠ []) (hdigits : IsDigits digits) (hsigned : negative = true → signed = true) :
    parseIntegerText lib text signed ty =
      .ok (negative && decide (value digits ≠ 0), DecimalText.text (value digits)) := by
  have hread : ¬ (digits = [] ∨ ¬ digits.all Char.isDigit) := by
    rintro (h | h)
    · exact hne h
    · exact h (List.all_eq_true.2 hdigits)
  have hsign : ¬ (negative = true ∧ ¬ signed = true) := fun h ↦ h.2 (hsigned h.1)
  rw [parseIntegerText, hsplit]
  simp only [if_neg hread, if_neg hsign, trimmed_eq_text hdigits, text_ne_zero_iff]

/-- **The reading of an integer.** What is read is the sign and the notation of its magnitude. -/
theorem parseIntegerText_eq_ok_iff {text digits : List Char} :
    parseIntegerText lib text signed ty = .ok (negative, digits) ↔
      ∃ n : ℤ, IntegerText signed text n ∧ negative = decide (n < 0) ∧ digits = DecimalText.text n.natAbs := by
  constructor
  · intro h
    obtain ⟨⟨sign, run⟩, hsplit⟩ : ∃ parts, splitSign text = parts := ⟨_, rfl⟩
    have hrest := h
    rw [parseIntegerText, hsplit] at hrest
    obtain ⟨hrun, hrest⟩ := ite_error_eq_ok_iff.1 hrest
    obtain ⟨hsign, -⟩ := ite_error_eq_ok_iff.1 hrest
    obtain ⟨hne, hall⟩ := not_or.1 hrun
    have hdigits : IsDigits run := List.all_eq_true.1 (not_not.1 hall)
    have hsigned : sign = true → signed = true := fun hs ↦ by_contra fun hn ↦ hsign ⟨hs, hn⟩
    rw [parseIntegerText_of_splitSign hsplit hne hdigits hsigned] at h
    obtain ⟨rfl, rfl⟩ := Prod.mk.inj (Except.ok.inj h)
    obtain ⟨rfl, htext⟩ | ⟨rfl, htext⟩ := of_splitSign hsplit
    · refine ⟨-value run, ⟨run, hne, hdigits, .inr ⟨hsigned rfl, htext, rfl⟩⟩, ?_, ?_⟩
      · rw [Bool.true_and, decide_eq_decide]
        omega
      · rw [Int.natAbs_neg, Int.natAbs_natCast]
    · refine ⟨value run, ⟨run, hne, hdigits, .inl ⟨htext, rfl⟩⟩, ?_, ?_⟩
      · rw [Bool.false_and, eq_comm, decide_eq_false_iff_not]
        omega
      · rw [Int.natAbs_natCast]
  · rintro ⟨n, ⟨run, hne, hdigits, ⟨htext, rfl⟩ | ⟨hsigned, htext, rfl⟩⟩, rfl, rfl⟩
    · have hsplit : splitSign text = (false, run) := by
        obtain rfl | rfl := htext
        · exact splitSign_of_isDigits hdigits
        · rfl
      rw [parseIntegerText_of_splitSign hsplit hne hdigits nofun, Bool.false_and, Int.natAbs_natCast]
      have hnot : ¬ (value run : ℤ) < 0 := by omega
      rw [decide_eq_false hnot]
    · have hsplit : splitSign text = (true, run) := by
        rw [htext]
        rfl
      rw [parseIntegerText_of_splitSign hsplit hne hdigits fun _ ↦ hsigned, Bool.true_and, Int.natAbs_neg,
        Int.natAbs_natCast]
      have hsign : value run ≠ 0 ↔ -(value run : ℤ) < 0 := by omega
      rw [decide_eq_decide.2 hsign]

/-- An unsigned integer has no minus. -/
theorem IntegerText.nonneg {text : List Char} (h : IntegerText signed text n) (hsigned : signed = false) :
    0 ≤ n := by
  obtain ⟨digits, -, -, ⟨-, rfl⟩ | ⟨hminus, -, -⟩⟩ := h
  · omega
  · rw [hminus] at hsigned
    cases hsigned

/-! ### The range -/

/-- The bound of `validate_integer_range`. -/
theorem integerBound_eq (negative : Bool) :
    integerBound negative signed bits = text (if signed then
      if negative then 2 ^ (bits - 1) else 2 ^ (bits - 1) - 1
    else 2 ^ bits - 1) := by
  have hlower (bits : ℕ) : decimalSubtractOne (decimalPowerOfTwo bits) = text (2 ^ bits - 1) := by
    rw [decimalPowerOfTwo_eq, decimalSubtractOne_text (mod_ten_two_pow_pos bits)]
  rw [integerBound, hlower, hlower, decimalPowerOfTwo_eq]
  split
  · split
    · rfl
    · rfl
  · rfl

/-- `validate_integer_range` lets the integers in the range pass. -/
theorem validateIntegerRange_eq_ok_iff (hsign : signed = false → 0 ≤ n) :
    validateIntegerRange lib (decide (n < 0)) (text n.natAbs) signed bits ty = .ok () ↔
      InIntegerRange signed bits n := by
  rw [validateIntegerRange, ite_error_eq_ok_iff, integerBound_eq, decimalMagnitudeExceeds_iff (canonical_text _),
    value_text, InIntegerRange]
  have hhalf : ((2 : ℤ) ^ (bits - 1)) = ((2 ^ (bits - 1) : ℕ) : ℤ) := by norm_cast
  have hfull : ((2 : ℤ) ^ bits) = ((2 ^ bits : ℕ) : ℤ) := by norm_cast
  have hhalfPos := Nat.two_pow_pos (bits - 1)
  have hfullPos := Nat.two_pow_pos bits
  rw [hhalf, hfull]
  generalize 2 ^ (bits - 1) = half at hhalfPos ⊢
  generalize 2 ^ bits = full at hfullPos ⊢
  cases signed with
  | false =>
    have hn := hsign rfl
    simp only [Bool.false_eq_true, if_false, and_true]
    omega
  | true =>
    simp only [if_true, decide_eq_true_eq, and_true]
    split
    · omega
    · omega

/-! ### The value -/

/-- What comes out for an integer that is read and lies in the range. -/
theorem normalizeInteger_of_read {json : Json} {text : List Char} (htext : integerText json = some text)
    (hread : parseIntegerText lib text signed ty = .ok (decide (n < 0), DecimalText.text n.natAbs))
    (hrange : validateIntegerRange lib (decide (n < 0)) (DecimalText.text n.natAbs) signed bits ty = .ok ()) :
    normalizeInteger lib json signed bits ty = .ok (integerValue n) := by
  have hbounds : jsMaxSafeInteger ≤ u64Max := by decide
  rw [normalizeInteger, htext]
  show (parseIntegerText lib text signed ty >>= _) = _
  rw [hread]
  show (validateIntegerRange lib _ _ signed bits ty >>= _) = _
  rw [hrange]
  simp only [Except.bind, bind, pure, Except.pure, value_text, integerValue, integerNotation]
  by_cases hsafe : n.natAbs ≤ jsMaxSafeInteger
  · have hfits : n.natAbs ≤ u64Max := hsafe.trans hbounds
    simp [hfits, hsafe]
  · have hlarge : ¬ (if n.natAbs ≤ u64Max then some n.natAbs else none).any (· ≤ jsMaxSafeInteger) = true := by
      split
      · rw [Option.any_some, decide_eq_true_eq]
        exact hsafe
      · exact Bool.false_ne_true
    rw [if_neg hlarge, if_neg hsafe]

/-- **What becomes of an integer.** It is accepted if and only if its text is a run of digits, with a sign that the type
allows, that denotes an integer in the range of the type. What comes out is that integer: a number of JSON if and only
if its magnitude is at most 2^53 - 1, and its notation as text otherwise. -/
theorem normalizeInteger_eq_ok_iff {json normalized : Json} :
    normalizeInteger lib json signed bits ty = .ok normalized ↔
      ∃ text n, integerText json = some text ∧ IntegerText signed text n ∧ InIntegerRange signed bits n ∧
        normalized = integerValue n := by
  constructor
  · intro h
    obtain hnone | ⟨text, htext⟩ := Option.eq_none_or_eq_some (integerText json)
    · rw [normalizeInteger, hnone] at h
      cases h
    · have hsteps := h
      rw [normalizeInteger, htext] at hsteps
      obtain ⟨⟨negative, digits⟩, hread, hsteps⟩ := bind_eq_ok_iff.1 hsteps
      obtain ⟨⟨⟩, hrange, -⟩ := bind_eq_ok_iff.1 hsteps
      obtain ⟨n, hn, rfl, rfl⟩ := parseIntegerText_eq_ok_iff.1 hread
      rw [normalizeInteger_of_read htext hread hrange, Except.ok.injEq] at h
      exact ⟨text, n, htext, hn, (validateIntegerRange_eq_ok_iff hn.nonneg).1 hrange, h.symm⟩
  · rintro ⟨text, n, htext, hn, hrange, rfl⟩
    exact normalizeInteger_of_read htext (parseIntegerText_eq_ok_iff.2 ⟨n, hn, rfl, rfl⟩)
      ((validateIntegerRange_eq_ok_iff hn.nonneg).2 hrange)

end Integers

end ClickHouse
