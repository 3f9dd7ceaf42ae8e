import Mathlib.Data.List.DropRight
import NexusPilot.Scan.Search

/-!
# Characters and strings of the Rust standard library

The character classes and string operations that the modelled code takes from `char`, `u8` and
`str`, where Lean's own differ. White space is the Unicode `White_Space` property, which is what
`char::is_whitespace` and `str::trim` use; the `is_ascii_*` classes agree with Lean's `Char.isAlpha`,
`Char.isDigit` and `Char.isAlphanum`, and `to_ascii_uppercase` with `Char.toUpper`.
-/

namespace Text

/-- The characters of a text are asked, not all there are. -/
instance decidableForallMem (s : List Char) (p : Char → Prop) [DecidablePred p] : Decidable (∀ c ∈ s, p c) :=
  s.decidableBAll p

/-- `char::is_whitespace`: the Unicode `White_Space` property. -/
def isWhitespace (c : Char) : Bool :=
  let n := c.toNat
  (0x09 ≤ n && n ≤ 0x0D) || n == 0x20 || n == 0x85 || n == 0xA0 || n == 0x1680 ||
    (0x2000 ≤ n && n ≤ 0x200A) || n == 0x2028 || n == 0x2029 || n == 0x202F || n == 0x205F ||
    n == 0x3000

/-- A letter or an underscore. -/
def isWordStart (c : Char) : Bool :=
  c.isAlpha || c == '_'

/-- A letter, a digit or an underscore. -/
def isWordChar (c : Char) : Bool :=
  c.isAlphanum || c == '_'

/-- `str::trim_start`. -/
def trimStart (s : List Char) : List Char :=
  s.dropWhile isWhitespace

/-- `str::trim`. -/
def trim (s : List Char) : List Char :=
  ((trimStart s).reverse.dropWhile isWhitespace).reverse

/-- `char::eq_ignore_ascii_case`. -/
def eqIgnoreAsciiCase (a b : Char) : Bool :=
  a.toLower == b.toLower

/-- Trimming twice is trimming once: what is left at an end is no white space. -/
@[simp]
theorem trim_trim (s : List Char) : trim (trim s) = trim s := by
  have hstart : trimStart (trim s) = trim s := by
    have hinit : trim s <+: trimStart s := List.rdropWhile_prefix isWhitespace _
    rw [trimStart, List.dropWhile_eq_self_iff]
    intro hlen hspace
    have hlen' : 0 < (trimStart s).length := hlen.trans_le hinit.length_le
    rw [hinit.getElem hlen] at hspace
    have hself : (trimStart s).dropWhile isWhitespace = trimStart s := List.dropWhile_idempotent _ _
    exact List.dropWhile_eq_self_iff.1 hself hlen' hspace
  rw [trim, hstart]
  exact List.rdropWhile_idempotent isWhitespace (trimStart s)

theorem isWordChar_of_isWordStart {c : Char} (h : isWordStart c) : isWordChar c := by
  simp only [isWordStart, isWordChar, Char.isAlphanum, Bool.or_eq_true] at h ⊢
  tauto

theorem range_of_isWordChar {c : Char} (h : isWordChar c) : 48 ≤ c.toNat ∧ c.toNat ≤ 122 := by
  have hn : c.toNat = c.val.toNat := rfl
  unfold isWordChar Char.isAlphanum Char.isAlpha Char.isUpper Char.isLower Char.isDigit at h
  simp only [Bool.or_eq_true, Bool.and_eq_true, decide_eq_true_eq, beq_iff_eq, ge_iff_le,
    UInt32.le_iff_toNat_le] at h
  obtain ((h | h) | h) | rfl := h
  · simp at h
    omega
  · simp at h
    omega
  · simp at h
    omega
  · decide

theorem isWhitespace_eq_false_of_isWordChar {c : Char} (h : isWordChar c) :
    isWhitespace c = false := by
  have hrange := range_of_isWordChar h
  simp only [isWhitespace, Bool.or_eq_false_iff, Bool.and_eq_false_iff, decide_eq_false_iff_not,
    beq_eq_false_iff_ne]
  omega

theorem toUpper_of_isDigit {c : Char} (h : c.isDigit) : c.toUpper = c := by
  have hn : c.toNat = c.val.toNat := rfl
  have hrange : 48 ≤ c.val.toNat ∧ c.val.toNat ≤ 57 := by
    simpa [Char.isDigit, UInt32.le_iff_toNat_le] using h
  unfold Char.toUpper
  split_ifs with hlower
  · simp [UInt32.le_iff_toNat_le] at hlower
    omega
  · rfl

theorem isWordStart_toUpper {c : Char} (h : isWordStart c) : isWordStart c.toUpper := by
  have hn : c.toNat = c.val.toNat := rfl
  unfold Char.toUpper
  split_ifs with hlower
  · have hrange : 97 ≤ c.val.toNat ∧ c.val.toNat ≤ 122 := by
      simpa [UInt32.le_iff_toNat_le] using hlower
    have hval : (c.val + ('A'.val - 'a'.val)).toNat = c.val.toNat - 32 := by
      rw [UInt32.toNat_add, show ('A'.val - 'a'.val).toNat = 4294967264 from rfl]
      omega
    have hupper : 65 ≤ (c.val + ('A'.val - 'a'.val)).toNat ∧
        (c.val + ('A'.val - 'a'.val)).toNat ≤ 90 := by
      omega
    unfold isWordStart Char.isAlpha Char.isUpper
    simp only [Bool.or_eq_true, decide_eq_true_eq, ge_iff_le, UInt32.le_iff_toNat_le]
    exact .inl (.inl hupper)
  · exact h

end Text
