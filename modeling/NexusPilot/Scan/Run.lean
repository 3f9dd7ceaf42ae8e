import Mathlib.Data.List.Basic
import Mathlib.Tactic.Common

/-!
# Scanning loops

A hand-written scanner is a loop over an index into a text: each iteration looks at the current
symbol, at what follows it and sometimes at what precedes it, changes the loop variables and moves
the index forward. Here the text is a zipper, `before` holding the symbols already passed (nearest
first) and `rest` the symbols still to come, and one iteration is a `Step`.

`run` recurses structurally on `rest`. An iteration that moves the index by more than one symbol
leaves a count of symbols to pass over, so no fuel and no termination argument is needed and closed
runs evaluate. The count is an artefact of that recursion: `scan` is the loop seen from its own
iteration boundaries, and `scan_cons_of_step` is the only equation a client needs.

Nothing here mentions an alphabet, a language or an error type.
-/

namespace Scan

variable {α σ ε : Type*}

/-- One iteration of a scanning loop: from the loop variables, the symbols already passed (nearest
first), the current symbol and the symbols after it, either an early exit or the new loop variables
with the distance by which the index moves. -/
abbrev Step (σ ε α : Type*) := σ → List α → α → List α → Except ε (σ × ℕ)

/-- The loop, with a count of symbols that the last iteration still passes over. -/
def run (step : Step σ ε α) : σ → ℕ → List α → List α → Except ε σ
  | s, _, _, [] => .ok s
  | s, k + 1, before, a :: rest => run step s k (a :: before) rest
  | s, 0, before, a :: rest =>
    match step s before a rest with
    | .error e => .error e
    | .ok (s', n) => run step s' (n - 1) (a :: before) rest

/-- The loop from an iteration boundary. -/
def scan (step : Step σ ε α) (s : σ) (before rest : List α) : Except ε σ :=
  run step s 0 before rest

/-- The symbols passed once the index has moved by `n`. -/
def behind (n : ℕ) (before rest : List α) : List α :=
  (rest.take n).reverse ++ before

@[simp]
theorem behind_zero (before rest : List α) : behind 0 before rest = before := by
  simp [behind]

@[simp]
theorem behind_succ_cons (n : ℕ) (before : List α) (a : α) (rest : List α) :
    behind (n + 1) before (a :: rest) = behind n (a :: before) rest := by
  simp [behind]

@[simp]
theorem behind_nil (n : ℕ) (before : List α) : behind n before [] = before := by
  simp [behind]

theorem behind_add (m n : ℕ) (before rest : List α) :
    behind (m + n) before rest = behind n (behind m before rest) (rest.drop m) := by
  simp [behind, List.take_add]

variable {n : ℕ} {before rest : List α} {step : Step σ ε α} {s s' : σ} {a : α}

/-- The symbol passed last. -/
theorem head?_behind_succ (h : n < rest.length) :
    (behind (n + 1) before rest).head? = rest[n]? := by
  induction n generalizing before rest with
  | zero =>
    obtain ⟨a, rest, rfl⟩ := List.exists_cons_of_length_pos h
    rfl
  | succ n ih =>
    obtain ⟨a, rest, rfl⟩ := List.exists_cons_of_length_pos (Nat.zero_lt_of_lt h)
    rw [behind_succ_cons, ih (by simpa using h), List.getElem?_cons_succ]

/-- Passing over symbols is moving the index. -/
theorem run_eq_scan (step : Step σ ε α) (s : σ) (k : ℕ) (before rest : List α) :
    run step s k before rest = scan step s (behind k before rest) (rest.drop k) := by
  induction rest generalizing k before with
  | nil => simp [run, scan]
  | cons a rest ih =>
    cases k with
    | zero => simp [scan]
    | succ k => rw [run, ih, behind_succ_cons, List.drop_succ_cons]

@[simp]
theorem scan_nil (step : Step σ ε α) (s : σ) (before : List α) :
    scan step s before [] = .ok s :=
  rfl

theorem scan_cons_of_error {e : ε} (h : step s before a rest = .error e) :
    scan step s before (a :: rest) = .error e := by
  simp [scan, run, h]

/-- **One iteration**, seen from its boundaries. -/
theorem scan_cons_of_step (h : step s before a rest = .ok (s', n)) (hn : 0 < n) :
    scan step s before (a :: rest) =
      scan step s' (behind n before (a :: rest)) ((a :: rest).drop n) := by
  obtain ⟨m, rfl⟩ := Nat.exists_eq_add_of_lt hn
  have hrun : scan step s before (a :: rest) = run step s' m (a :: before) rest := by
    simp [scan, run, h]
  rw [hrun, run_eq_scan]
  simp

/-- A run that ends normally passed its first iteration. -/
theorem exists_step_of_scan_eq_ok {t : σ} (h : scan step s before (a :: rest) = .ok t) :
    ∃ s' n, step s before a rest = .ok (s', n) := by
  rcases hs : step s before a rest with e | ⟨s', n⟩
  · rw [scan_cons_of_error hs] at h
    cases h
  · exact ⟨s', n, rfl⟩

/-- A loop is **progressive** when every iteration moves its index. -/
def Progressive (step : Step σ ε α) : Prop :=
  ∀ ⦃s before a rest s' n⦄, step s before a rest = .ok (s', n) → 0 < n

/-- Induction along a text, where an iteration may consume several symbols at once. -/
theorem cursorInduction {motive : List α → List α → Prop}
    (nil : ∀ before, motive before [])
    (cons : ∀ before a rest,
      (∀ n, 0 < n → motive (behind n before (a :: rest)) ((a :: rest).drop n)) →
        motive before (a :: rest)) :
    ∀ before rest, motive before rest := by
  intro before rest
  induction hlen : rest.length using Nat.strongRecOn generalizing before rest with
  | ind len ih =>
    cases rest with
    | nil => exact nil before
    | cons a rest =>
      refine cons before a rest fun n hn ↦ ih _ ?_ _ _ rfl
      simp only [List.length_cons, List.length_drop] at hlen ⊢
      omega

/-! ### Looking at every iteration -/

/-- `P` holds at the start of every iteration that the loop makes. -/
def AllSteps (step : Step σ ε α) (P : σ → List α → α → List α → Bool) :
    σ → ℕ → List α → List α → Bool
  | _, _, _, [] => true
  | s, k + 1, before, a :: rest => AllSteps step P s k (a :: before) rest
  | s, 0, before, a :: rest =>
    P s before a rest &&
      match step s before a rest with
      | .error _ => true
      | .ok (s', n) => AllSteps step P s' (n - 1) (a :: before) rest

theorem allSteps_eq (step : Step σ ε α) (P : σ → List α → α → List α → Bool) (s : σ) (k : ℕ)
    (before rest : List α) :
    AllSteps step P s k before rest =
      AllSteps step P s 0 (behind k before rest) (rest.drop k) := by
  induction rest generalizing k before with
  | nil => simp [AllSteps]
  | cons a rest ih =>
    cases k with
    | zero => simp
    | succ k => rw [AllSteps, ih, behind_succ_cons, List.drop_succ_cons]

theorem allSteps_cons {P : σ → List α → α → List α → Bool} (h : step s before a rest = .ok (s', n))
    (hn : 0 < n) :
    AllSteps step P s 0 before (a :: rest) = (P s before a rest &&
      AllSteps step P s' 0 (behind n before (a :: rest)) ((a :: rest).drop n)) := by
  obtain ⟨m, rfl⟩ := Nat.exists_eq_add_of_lt hn
  rw [AllSteps, h]
  simp [allSteps_eq step P s' m]

/-! ### Passing several symbols -/

/-- The loop gets from the variables `s` to the variables `s'` over the next `n` symbols, in one
iteration or in several. -/
structure Passes (step : Step σ ε α) (s : σ) (before rest : List α) (n : ℕ) (s' : σ) : Prop where
  scan_eq : scan step s before rest = scan step s' (behind n before rest) (rest.drop n)
  allSteps : ∀ P, AllSteps step P s 0 before rest →
    AllSteps step P s' 0 (behind n before rest) (rest.drop n)

theorem Passes.refl (step : Step σ ε α) (s : σ) (before rest : List α) :
    Passes step s before rest 0 s :=
  ⟨by simp, fun P h ↦ by simpa using h⟩

theorem Passes.of_step (h : step s before a rest = .ok (s', n)) (hn : 0 < n) :
    Passes step s before (a :: rest) n s' := by
  refine ⟨scan_cons_of_step h hn, fun P hall ↦ ?_⟩
  rw [allSteps_cons h hn, Bool.and_eq_true] at hall
  exact hall.2

theorem Passes.trans {s₁ s₂ : σ} {m : ℕ} (h : Passes step s before rest m s₁)
    (h' : Passes step s₁ (behind m before rest) (rest.drop m) n s₂) :
    Passes step s before rest (m + n) s₂ := by
  have hbehind : behind (m + n) before rest = behind n (behind m before rest) (rest.drop m) :=
    behind_add m n before rest
  have hdrop : rest.drop (m + n) = (rest.drop m).drop n := List.drop_drop.symm
  refine ⟨?_, fun P hall ↦ ?_⟩
  · rw [hbehind, hdrop, h.scan_eq, h'.scan_eq]
  · rw [hbehind, hdrop]
    exact h'.allSteps P (h.allSteps P hall)

end Scan
