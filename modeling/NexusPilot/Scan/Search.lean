import Mathlib.Data.List.Basic
import Mathlib.Data.List.Infix
import Mathlib.Tactic.Common

/-!
# Searching a text

Leftmost occurrence of a pattern in a text (`findSub`), whether a pattern occurs at all
(`occursIn`), and the length of a run up to and including a terminator (`throughFirst`). The
pattern search tests one starting position after another, as the library searches of the usual
languages do; over lists it needs no index arithmetic.
-/

namespace Scan

variable {α : Type*} [DecidableEq α]

/-- The first position at which `pat` occurs in the text. -/
def findSub (pat : List α) : List α → Option ℕ
  | [] => if pat = [] then some 0 else none
  | a :: rest =>
    if pat.isPrefixOf (a :: rest) then some 0 else (findSub pat rest).map (· + 1)

/-- Whether `pat` occurs in the text. -/
def occursIn (pat text : List α) : Bool :=
  (findSub pat text).isSome

omit [DecidableEq α] in
/-- The number of symbols up to and including the first terminator, or of all of them. -/
def throughFirst (isEnd : α → Bool) : List α → ℕ
  | [] => 0
  | a :: rest => if isEnd a then 1 else throughFirst isEnd rest + 1

omit [DecidableEq α] in
theorem throughFirst_append {isEnd : α → Bool} {l : List α} (h : ∀ a ∈ l, isEnd a = false)
    (m : List α) : throughFirst isEnd (l ++ m) = l.length + throughFirst isEnd m := by
  induction l with
  | nil => simp
  | cons a l ih =>
    have ha : isEnd a = false := h a List.mem_cons_self
    rw [List.cons_append, throughFirst, ha, if_neg Bool.false_ne_true,
      ih fun b hb ↦ h b (List.mem_cons_of_mem _ hb), List.length_cons]
    omega

variable {pat rest xs : List α} {a : α} {i : ℕ}

theorem findSub_cons_of_stands (h : pat <+: a :: rest) : findSub pat (a :: rest) = some 0 := by
  simp [findSub, h]

theorem findSub_cons_of_not_stands (h : ¬ pat <+: a :: rest) :
    findSub pat (a :: rest) = (findSub pat rest).map (· + 1) := by
  simp [findSub, h]

/-- A found pattern really stands there. -/
theorem prefix_drop_of_findSub {pat : List α} :
    ∀ {text : List α} {i : ℕ}, findSub pat text = some i → pat <+: text.drop i
  | [], i, h => by
    by_cases hp : pat = [] <;> simp_all [findSub]
  | a :: rest, i, h => by
    by_cases hp : pat <+: a :: rest
    · rw [findSub_cons_of_stands hp] at h
      cases h
      exact hp
    · rw [findSub_cons_of_not_stands hp] at h
      obtain ⟨j, hj, rfl⟩ := Option.map_eq_some_iff.1 h
      rw [List.drop_succ_cons]
      exact prefix_drop_of_findSub hj

/-- The search succeeds exactly on the texts that have the pattern as a sublist of neighbours. -/
theorem occursIn_iff_infix {pat : List α} : ∀ {text : List α}, occursIn pat text ↔ pat <:+: text
  | [] => by
    by_cases hp : pat = [] <;> simp [occursIn, findSub, hp]
  | a :: rest => by
    by_cases hp : pat <+: a :: rest
    · simp [occursIn, findSub_cons_of_stands hp, hp.isInfix]
    · have ih : occursIn pat rest ↔ pat <:+: rest := occursIn_iff_infix
      rw [occursIn] at ih
      rw [occursIn, findSub_cons_of_not_stands hp, Option.isSome_map, ih, List.infix_cons_iff]
      simp [hp]

/-- What is found in a text is found there with anything behind it. -/
theorem findSub_append_of_eq_some (hpat : pat ≠ []) (h : findSub pat xs = some i) (tail : List α) :
    findSub pat (xs ++ tail) = some i := by
  induction xs generalizing i with
  | nil => simp [findSub, hpat] at h
  | cons a xs ih =>
    by_cases hstands : pat <+: a :: xs
    · rw [findSub_cons_of_stands hstands] at h
      rw [← h]
      exact findSub_cons_of_stands (hstands.trans (List.prefix_append _ tail))
    · rw [findSub_cons_of_not_stands hstands] at h
      obtain ⟨j, hj, rfl⟩ := Option.map_eq_some_iff.1 h
      have hlen : pat.length ≤ xs.length := by
        have := (prefix_drop_of_findSub hj).length_le
        simp only [List.length_drop] at this
        omega
      have hnot : ¬ pat <+: a :: (xs ++ tail) := fun hall ↦
        hstands (List.prefix_of_prefix_length_le hall (List.prefix_append (a :: xs) tail)
          (by simp; omega))
      rw [List.cons_append, findSub_cons_of_not_stands hnot, ih hj]
      rfl

/-- What is not found in a text is found no earlier than across its end. -/
theorem lt_of_findSub_append {tail : List α} (h : findSub pat xs = none)
    (hi : findSub pat (xs ++ tail) = some i) : xs.length < i + pat.length := by
  by_contra hle
  have hstands : pat <+: xs.drop i := by
    have hstands := prefix_drop_of_findSub hi
    rw [List.drop_append_of_le_length (by omega)] at hstands
    exact List.prefix_of_prefix_length_le hstands (List.prefix_append _ _) (by simp; omega)
  have hoccurs : occursIn pat xs :=
    occursIn_iff_infix.2 (hstands.isInfix.trans (List.drop_suffix i xs).isInfix)
  rw [occursIn, h] at hoccurs
  exact Bool.false_ne_true hoccurs

end Scan
