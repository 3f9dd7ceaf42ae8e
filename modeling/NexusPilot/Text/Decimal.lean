import Mathlib.Data.List.Induction
import Mathlib.Tactic.Common
import Mathlib.Tactic.IntervalCases

/-!
# Decimal notation

Texts of decimal digits and the numbers they denote. A text without zeros in front is the notation of its number
(`text_value`), so that two of them compare like their numbers when the longer one counts as larger and texts of the same
length go by their first difference (`value_lt_iff`).
-/

namespace DecimalText

/-- The notation of a number. -/
def text (n : ℕ) : List Char :=
  Nat.toDigits 10 n

/-- The number that a text of digits denotes. -/
def value (s : List Char) : ℕ :=
  Nat.ofDigitChars 10 s 0

/-- The text consists of digits. -/
def IsDigits (s : List Char) : Prop :=
  ∀ c ∈ s, c.isDigit = true

/-- The text is a notation: there are digits, and a zero in front stands alone. -/
structure Canonical (s : List Char) : Prop where
  hdigits : IsDigits s
  hne : s ≠ []
  hzero : s = ['0'] ∨ s.head? ≠ some '0'

/-- The first difference of two texts is in favour of the second. -/
def before : List Char → List Char → Bool
  | [], [] => false
  | [], _ :: _ => true
  | _ :: _, [] => false
  | a :: as, b :: bs => decide (a.toNat < b.toNat) || (a == b && before as bs)

/-! ### Digits -/

variable {c : Char} {s t : List Char} {n : ℕ}

theorem toNat_of_isDigit (h : c.isDigit = true) : 48 ≤ c.toNat ∧ c.toNat ≤ 57 := by
  have hval : c.toNat = c.val.toNat := rfl
  simp only [Char.isDigit, Bool.and_eq_true, decide_eq_true_eq, UInt32.le_iff_toNat_le, ge_iff_le] at h
  simp at h
  omega

theorem digitChar_sub (h : c.isDigit = true) : Nat.digitChar (c.toNat - 48) = c := by
  obtain ⟨hlow, hhigh⟩ := toNat_of_isDigit h
  have hc : c = Char.ofNat c.toNat := (Char.ofNat_toNat c).symm
  generalize c.toNat = n at hlow hhigh hc ⊢
  subst hc
  interval_cases n <;> rfl

/-! ### Values -/

@[simp]
theorem value_nil : value [] = 0 :=
  rfl

theorem value_cons (c : Char) (s : List Char) : value (c :: s) = (c.toNat - 48) * 10 ^ s.length + value s := by
  rw [value, Nat.ofDigitChars_cons, Nat.ofDigitChars_eq_ofDigitChars_zero, value, Nat.mul_zero, Nat.zero_add,
    Nat.mul_comm]
  rfl

theorem value_concat (s : List Char) (c : Char) : value (s ++ [c]) = 10 * value s + (c.toNat - 48) := by
  rw [value, Nat.ofDigitChars_append, Nat.ofDigitChars_cons, Nat.ofDigitChars_nil]
  rfl

@[simp]
theorem value_text (n : ℕ) : value (text n) = n :=
  Nat.ofDigitChars_ten_toDigits

theorem value_lt (h : IsDigits s) : value s < 10 ^ s.length := by
  induction s with
  | nil => decide
  | cons c s ih =>
    have hc := toNat_of_isDigit (h c List.mem_cons_self)
    have hs := ih fun d hd ↦ h d (List.mem_cons_of_mem _ hd)
    have hdigit : (c.toNat - 48) * 10 ^ s.length ≤ 9 * 10 ^ s.length := Nat.mul_le_mul_right _ (by omega)
    rw [value_cons, List.length_cons, Nat.pow_succ]
    omega

/-- Zeros in front do not count. -/
theorem value_dropWhile_zero (s : List Char) : value (s.dropWhile (· == '0')) = value s := by
  induction s with
  | nil => rfl
  | cons c s ih =>
    rw [List.dropWhile_cons]
    split
    · next hc =>
      rw [ih, value_cons, beq_iff_eq.1 hc]
      simp
    · rfl

/-! ### Notations -/

theorem isDigits_text (n : ℕ) : IsDigits (text n) :=
  fun _ hc ↦ Nat.isDigit_of_mem_toDigits (by decide) (by decide) hc

theorem text_of_lt (h : n < 10) : text n = [Nat.digitChar n] :=
  Nat.toDigits_of_lt_base h

theorem text_append {d : ℕ} (hn : 0 < n) (hd : d < 10) : text (10 * n + d) = text n ++ [Nat.digitChar d] := by
  rw [text, text, ← Nat.toDigits_of_lt_base hd, Nat.toDigits_append_toDigits (by decide) hn hd]

theorem canonical_text (n : ℕ) : Canonical (text n) := by
  refine ⟨isDigits_text n, Nat.toDigits_ne_nil, ?_⟩
  induction n using Nat.strongRecOn with
  | _ n ih =>
    by_cases hn : n < 10
    · rw [text_of_lt hn]
      interval_cases n <;> decide
    · have hsplit : n = 10 * (n / 10) + n % 10 := (Nat.div_add_mod n 10).symm
      have hpos : 0 < n / 10 := Nat.div_pos (Nat.not_lt.1 hn) (by decide)
      rw [hsplit, text_append hpos (Nat.mod_lt _ (by decide))]
      have hfront := ih (n / 10) (Nat.div_lt_self (by omega) (by decide))
      have hne : text (n / 10) ≠ [] := Nat.toDigits_ne_nil
      have hvalue := value_text (n / 10)
      refine .inr ?_
      obtain hzero | hzero := hfront
      · rw [hzero] at hvalue
        exact absurd hvalue (Nat.ne_of_lt hpos)
      · obtain ⟨c, front, hcons⟩ := List.exists_cons_of_ne_nil hne
        rw [hcons] at hzero ⊢
        exact hzero

/-- **A notation is the notation of its number.** -/
theorem text_value (h : Canonical s) : text (value s) = s := by
  obtain ⟨hdigits, hne, hzero⟩ := h
  induction s using List.reverseRecOn with
  | nil => exact absurd rfl hne
  | append_singleton s c ih =>
    have hc : c.isDigit = true := hdigits c (List.mem_append_right _ List.mem_cons_self)
    have hlt : c.toNat - 48 < 10 := by
      have := toNat_of_isDigit hc
      omega
    rw [value_concat]
    cases s with
    | nil => rw [value_nil, Nat.mul_zero, Nat.zero_add, text_of_lt hlt, digitChar_sub hc]; rfl
    | cons d s =>
      have hhead : (d :: s).head? ≠ some '0' := by
        obtain hcontra | hhead := hzero
        · simp at hcontra
        · exact hhead
      have hs : text (value (d :: s)) = d :: s :=
        ih (fun e he ↦ hdigits e (List.mem_append_left _ he)) (List.cons_ne_nil _ _) (.inr hhead)
      have hpos : 0 < value (d :: s) := by
        refine Nat.pos_of_ne_zero fun hnull ↦ ?_
        rw [hnull] at hs
        exact hhead (by rw [← hs]; rfl)
      rw [text_append hpos hlt, hs, digitChar_sub hc]

/-! ### Comparison -/

/-- Texts of the same length compare like their numbers. -/
theorem before_iff (hs : IsDigits s) (ht : IsDigits t) (hlength : s.length = t.length) :
    before s t = true ↔ value s < value t := by
  induction s generalizing t with
  | nil =>
    cases t with
    | nil => simp [before]
    | cons b t => cases hlength
  | cons a s ih =>
    cases t with
    | nil => cases hlength
    | cons b t =>
      have hlength' : s.length = t.length := Nat.succ.inj hlength
      have ha := toNat_of_isDigit (hs a List.mem_cons_self)
      have hb := toNat_of_isDigit (ht b List.mem_cons_self)
      have hsRest : IsDigits s := fun c hc ↦ hs c (List.mem_cons_of_mem _ hc)
      have htRest : IsDigits t := fun c hc ↦ ht c (List.mem_cons_of_mem _ hc)
      have hslt := value_lt hsRest
      have htlt := value_lt htRest
      rw [before, value_cons, value_cons, hlength', Bool.or_eq_true, decide_eq_true_eq, Bool.and_eq_true, beq_iff_eq,
        ih hsRest htRest hlength']
      rw [hlength'] at hslt
      obtain hless | heq | hmore := Nat.lt_trichotomy a.toNat b.toNat
      · have hstep : (a.toNat - 48 + 1) * 10 ^ t.length ≤ (b.toNat - 48) * 10 ^ t.length :=
          Nat.mul_le_mul_right _ (by omega)
        rw [Nat.succ_mul] at hstep
        exact ⟨fun _ ↦ by omega, fun _ ↦ .inl hless⟩
      · have hab : a = b := Char.toNat_inj.1 heq
        subst hab
        simp
      · have hstep : (b.toNat - 48 + 1) * 10 ^ t.length ≤ (a.toNat - 48) * 10 ^ t.length :=
          Nat.mul_le_mul_right _ (by omega)
        rw [Nat.succ_mul] at hstep
        refine ⟨?_, fun h ↦ by omega⟩
        rintro (h | ⟨rfl, -⟩)
        · omega
        · omega

/-- A notation of more digits is that of a larger number. -/
theorem value_lt_of_length_lt (hs : Canonical s) (ht : Canonical t) (h : s.length < t.length) :
    value s < value t := by
  cases t with
  | nil => exact absurd rfl ht.hne
  | cons c t =>
    have hc := toNat_of_isDigit (ht.hdigits c List.mem_cons_self)
    have hle : s.length ≤ t.length := Nat.le_of_lt_succ h
    have hpos : 0 < s.length := List.length_pos_iff.2 hs.hne
    have hhead : c ≠ '0' := by
      obtain hzero | hhead := ht.hzero
      · cases hzero
        rw [List.length_nil] at hle
        omega
      · exact fun hc ↦ hhead (by rw [hc]; rfl)
    have hlarge : 48 < c.toNat := Nat.lt_of_le_of_ne hc.1 fun heq ↦ hhead (Char.toNat_inj.1 heq.symm)
    have hpow : 10 ^ s.length ≤ 10 ^ t.length := Nat.pow_le_pow_right (by decide) hle
    have hdigit : 1 * 10 ^ t.length ≤ (c.toNat - 48) * 10 ^ t.length := Nat.mul_le_mul_right _ (by omega)
    have hlt := value_lt hs.hdigits
    rw [value_cons]
    omega

/-- **Notations compare like their numbers**: by their lengths, and then by their first difference. -/
theorem value_lt_iff (hs : Canonical s) (ht : Canonical t) :
    value s < value t ↔ s.length < t.length ∨ s.length = t.length ∧ before s t = true := by
  obtain hless | heq | hmore := Nat.lt_trichotomy s.length t.length
  · exact ⟨fun _ ↦ .inl hless, fun _ ↦ value_lt_of_length_lt hs ht hless⟩
  · rw [before_iff hs.hdigits ht.hdigits heq]
    constructor
    · exact fun h ↦ .inr ⟨heq, h⟩
    · rintro (h | ⟨-, h⟩)
      · omega
      · exact h
  · have hlt := value_lt_of_length_lt ht hs hmore
    constructor
    · intro h
      omega
    · rintro (h | ⟨h, -⟩)
      · omega
      · omega

end DecimalText
