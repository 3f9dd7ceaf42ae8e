import Mathlib.Data.Nat.Log
import Mathlib.Tactic.NormNum
import Mathlib.Tactic.Positivity

/-!
# Whole numbers as doubles

The whole numbers among the IEEE doubles, without their sign: a significand of 53 bits times a power of two.
`nearest` rounds a natural number to one of them, a tie to the even significand, and `shortestDecimal` is the
number that its shortest decimal notation denotes, the one that languages print.

**`nearest_shortestDecimal`** says that the notation is read back as the same double, and
**`shortestDecimal_of_le`** that up to `2 ^ 53` it denotes the number itself.
-/

namespace Js

/-! ### Rounding -/

/-- The weight of the last place of the significand of a number. -/
def unit (n : ℕ) : ℕ :=
  2 ^ (n.log2 - 52)

/-- A number rounded to a significand of 53 bits, a tie to the even one. -/
def nearest (n : ℕ) : ℕ :=
  if unit n < 2 * (n % unit n) ∨ (unit n = 2 * (n % unit n) ∧ n / unit n % 2 = 1) then
    (n / unit n + 1) * unit n
  else n / unit n * unit n

theorem unit_pos (n : ℕ) : 0 < unit n :=
  Nat.two_pow_pos _

variable {n x : ℕ}

/-- A number whose last place is its unit is not rounded. -/
theorem nearest_of_dvd (h : unit n ∣ n) : nearest n = n := by
  have hrem : n % unit n = 0 := Nat.mod_eq_zero_of_dvd h
  have hpos := unit_pos n
  rw [nearest, hrem, if_neg (by omega), Nat.div_mul_cancel h]

/-- The numbers with at most 53 bits are not rounded. -/
theorem nearest_of_lt (h : n < 2 ^ 53) : nearest n = n := by
  refine nearest_of_dvd ?_
  obtain rfl | hn := Nat.eq_zero_or_pos n
  · exact dvd_zero _
  have hlog : n.log2 < 53 := (Nat.log2_lt hn.ne').2 h
  rw [unit, show n.log2 - 52 = 0 by omega, pow_zero]
  exact one_dvd n

/-- The unit of a number of at most 53 units, counted in a larger one. -/
theorem unit_dvd_mul {m e : ℕ} (hm : m ≤ 2 ^ 53) : unit (m * 2 ^ e) ∣ m * 2 ^ e := by
  obtain rfl | hpos := Nat.eq_zero_or_pos m
  · rw [Nat.zero_mul]
    exact dvd_zero _
  obtain hlt | rfl := hm.lt_or_eq
  · -- the unit is at most the power of two that is counted in
    refine dvd_mul_of_dvd_right (Nat.pow_dvd_pow 2 ?_) m
    have hlog : (m * 2 ^ e).log2 < 53 + e := by
      rw [Nat.log2_lt (by positivity), pow_add]
      exact Nat.mul_lt_mul_of_pos_right hlt (by positivity)
    omega
  · rw [unit, ← pow_add, Nat.log2_two_pow]
    exact Nat.pow_dvd_pow 2 (by omega)

/-- The significand of a number. -/
theorem div_unit_lt : n / unit n < 2 ^ 53 := by
  rw [Nat.div_lt_iff_lt_mul (unit_pos n), unit, ← pow_add]
  obtain rfl | hn := Nat.eq_zero_or_pos n
  · positivity
  refine lt_of_lt_of_le Nat.lt_log2_self (Nat.pow_le_pow_right (by decide) ?_)
  omega

/-- A number that was rounded is not rounded again. -/
theorem nearest_nearest (n : ℕ) : nearest (nearest n) = nearest n := by
  have hle := div_unit_lt (n := n)
  refine nearest_of_dvd ?_
  rw [nearest]
  split_ifs
  · exact unit_dvd_mul hle
  · exact unit_dvd_mul hle.le

/-- What is rounded to a number of less than 53 bits is that number. -/
theorem eq_of_nearest_lt (h : nearest n < 2 ^ 53) : nearest n = n := by
  by_contra hne
  have hge : 2 ^ 53 ≤ n := by
    by_contra hlt
    exact hne (nearest_of_lt (by omega))
  -- the significand of a number of more bits has 53 of them
  have hlog : 53 ≤ n.log2 := (Nat.le_log2 (by omega)).2 hge
  have hsignificand : 2 ^ 52 ≤ n / unit n := by
    rw [Nat.le_div_iff_mul_le (unit_pos n), unit, ← pow_add, show 52 + (n.log2 - 52) = n.log2 by omega]
    exact Nat.log2_self_le (by omega)
  have hunit : 2 ≤ unit n := by
    have hpow : 2 ^ 1 ≤ 2 ^ (n.log2 - 52) := Nat.pow_le_pow_right (by decide) (by omega)
    exact hpow
  have hleast : 2 ^ 53 ≤ n / unit n * unit n :=
    calc 2 ^ 53 = 2 ^ 52 * 2 := by norm_num
      _ ≤ n / unit n * unit n := Nat.mul_le_mul hsignificand hunit
  have hnearest : n / unit n * unit n ≤ nearest n := by
    rw [nearest]
    split_ifs
    · exact Nat.mul_le_mul_right _ (Nat.le_succ _)
    · exact le_refl _
  omega

/-! ### Doubles -/

/-- A whole number that is a finite double. -/
structure WholeDouble where
  value : ℕ
  rounded : nearest value = value
  finite : value < 2 ^ 1024
  deriving DecidableEq

variable {d : WholeDouble}

@[ext]
theorem WholeDouble.ext {e : WholeDouble} (h : d.value = e.value) : d = e := by
  cases d
  cases e
  cases h
  rfl

/-- The double nearest to a number, unless that is an infinity. -/
def doubleOf (n : ℕ) : Option WholeDouble :=
  if h : nearest n < 2 ^ 1024 then some ⟨nearest n, nearest_nearest n, h⟩ else none

theorem doubleOf_eq_some_iff : doubleOf n = some d ↔ nearest n = d.value := by
  rw [doubleOf]
  split_ifs with h
  · rw [Option.some.injEq, WholeDouble.ext_iff]
  · exact ⟨fun h ↦ (nomatch h), fun heq ↦ absurd d.finite (heq ▸ h)⟩

/-! ### The shortest decimal notation -/

/-- The multiple of `10 ^ places` that is closest to a number among those that are rounded to it. -/
def decimalAt (x places : ℕ) : Option ℕ :=
  let below := x / 10 ^ places * 10 ^ places
  let above := if below = x then x else below + 10 ^ places
  if nearest below = x then
    if nearest above = x ∧ above - x < x - below then some above else some below
  else if nearest above = x then some above
  else none

/-- The loop over the numbers of places that the notation may leave out, from the largest on. -/
def decimalFrom (x : ℕ) : ℕ → ℕ
  | 0 => x
  | places + 1 => (decimalAt x (places + 1)).getD (decimalFrom x places)

/-- The number that the shortest decimal notation of a double denotes: as few digits as possible, with zeros
behind them, and the closest to the double among the numbers with so few digits. -/
def shortestDecimal (x : ℕ) : ℕ :=
  decimalFrom x (Nat.toDigits 10 x).length

theorem nearest_of_decimalAt {places v : ℕ} (h : decimalAt x places = some v) : nearest v = x := by
  rw [decimalAt] at h
  split_ifs at h <;> cases h
  all_goals tauto

theorem nearest_decimalFrom (hx : nearest x = x) (places : ℕ) : nearest (decimalFrom x places) = x := by
  induction places with
  | zero => exact hx
  | succ places ih =>
    rw [decimalFrom]
    cases h : decimalAt x (places + 1) with
    | none => exact ih
    | some v => exact nearest_of_decimalAt h

/-- **The shortest decimal notation of a double is read back as that double.** -/
theorem nearest_shortestDecimal (hx : nearest x = x) : nearest (shortestDecimal x) = x :=
  nearest_decimalFrom hx _

/-- **The numbers of at most 53 bits are denoted exactly.** -/
theorem shortestDecimal_of_lt (h : x < 2 ^ 53) : shortestDecimal x = x := by
  have hround := nearest_shortestDecimal (nearest_of_lt h)
  exact (eq_of_nearest_lt (hround.trans_lt h)).symm.trans hround

/-- The double nearest to a number of 61 bits, and what it is written as. -/
example : nearest (2 ^ 60 + 1) = 2 ^ 60 ∧ shortestDecimal (2 ^ 60) = 1152921504606847000 := by decide +kernel

end Js
