import NexusPilot.Scan.Run

/-!
# Cutting a text into pieces

A scanner whose iterations find one piece after another, and decide what to do with a piece apart
from where it ends, is a `Cutter` followed by a fold. `cutAll` lists the pieces with their text:
the texts are consecutive and make up the whole (`flatten_of_cutAll`), and a loop that ends normally
is the fold over them (`scan_eq_ok_iff`).
-/

namespace Scan

variable {α β σ ε : Type*}

/-- The piece at the current symbol, with its length. -/
abbrev Cutter (β ε α : Type*) := List α → α → List α → Except ε (β × ℕ)

/-- The pieces of a text, with a count of symbols that belong to the last one found. -/
def cutAux (cut : Cutter β ε α) : ℕ → List α → List α → Except ε (List (β × List α))
  | _, _, [] => .ok []
  | k + 1, before, a :: rest => cutAux cut k (a :: before) rest
  | 0, before, a :: rest =>
    match cut before a rest with
    | .error e => .error e
    | .ok (b, n) => (cutAux cut (n - 1) (a :: before) rest).map ((b, (a :: rest).take n) :: ·)

/-- The pieces of a text, each with the symbols it is made of. -/
def cutAll (cut : Cutter β ε α) (before rest : List α) : Except ε (List (β × List α)) :=
  cutAux cut 0 before rest

/-- Every piece has a symbol. -/
def Cutter.Progressive (cut : Cutter β ε α) : Prop :=
  ∀ ⦃before a rest b n⦄, cut before a rest = .ok (b, n) → 0 < n

theorem cutAux_eq (cut : Cutter β ε α) (k : ℕ) (before rest : List α) :
    cutAux cut k before rest = cutAll cut (behind k before rest) (rest.drop k) := by
  induction rest generalizing k before with
  | nil => simp [cutAux, cutAll]
  | cons a rest ih =>
    cases k with
    | zero => simp [cutAll]
    | succ k => rw [cutAux, ih, behind_succ_cons, List.drop_succ_cons]

@[simp]
theorem cutAll_nil (cut : Cutter β ε α) (before : List α) : cutAll cut before [] = .ok [] :=
  rfl

variable {cut : Cutter β ε α} {before rest : List α} {a : α}

theorem cutAll_cons_of_error {e : ε} (h : cut before a rest = .error e) :
    cutAll cut before (a :: rest) = .error e := by
  simp [cutAll, cutAux, h]

theorem cutAll_cons_of_cut {b : β} {n : ℕ} (h : cut before a rest = .ok (b, n)) (hn : 0 < n) :
    cutAll cut before (a :: rest) =
      (cutAll cut (behind n before (a :: rest)) ((a :: rest).drop n)).map
        ((b, (a :: rest).take n) :: ·) := by
  obtain ⟨m, rfl⟩ := Nat.exists_eq_add_of_lt hn
  have hcut : cutAll cut before (a :: rest) =
      (cutAux cut m (a :: before) rest).map ((b, (a :: rest).take (0 + m + 1)) :: ·) := by
    simp [cutAll, cutAux, h]
  rw [hcut, cutAux_eq]
  simp

/-- The first piece of a text that is cut to its end, and the pieces after it. -/
theorem exists_of_cutAll_cons (hcut : cut.Progressive) {ps : List (β × List α)}
    (h : cutAll cut before (a :: rest) = .ok ps) :
    ∃ b n qs, cut before a rest = .ok (b, n) ∧
      cutAll cut (behind n before (a :: rest)) ((a :: rest).drop n) = .ok qs ∧
      ps = (b, (a :: rest).take n) :: qs := by
  rcases hc : cut before a rest with e | ⟨b, n⟩
  · rw [cutAll_cons_of_error hc] at h
    cases h
  · rw [cutAll_cons_of_cut hc (hcut hc)] at h
    rcases hq : cutAll cut (behind n before (a :: rest)) ((a :: rest).drop n) with e | qs <;>
      rw [hq] at h <;> cases h
    exact ⟨b, n, qs, rfl, hq, rfl⟩

/-- **A loop over pieces.** When an iteration cuts a piece and folds it into the loop variables, the
loop ends normally exactly when the text can be cut and the fold over its pieces succeeds. -/
theorem scan_eq_ok_iff {step : Step σ ε α} {absorb : σ → β → Except ε σ} (hcut : cut.Progressive)
    (hstep : ∀ s before a rest s' n, step s before a rest = .ok (s', n) ↔
      ∃ b, cut before a rest = .ok (b, n) ∧ absorb s b = .ok s') {s t : σ} :
    scan step s before rest = .ok t ↔
      ∃ ps, cutAll cut before rest = .ok ps ∧ (ps.map Prod.fst).foldlM absorb s = .ok t := by
  induction before, rest using cursorInduction generalizing s with
  | nil before => simp [pure, Except.pure]
  | cons before a rest ih =>
    constructor
    · intro h
      obtain ⟨s', n, hs⟩ := exists_step_of_scan_eq_ok h
      obtain ⟨b, hc, ha⟩ := (hstep _ _ _ _ _ _).1 hs
      rw [scan_cons_of_step hs (hcut hc)] at h
      obtain ⟨qs, hq, hfold⟩ := (ih n (hcut hc)).1 h
      refine ⟨(b, (a :: rest).take n) :: qs, ?_, ?_⟩
      · rw [cutAll_cons_of_cut hc (hcut hc), hq]
        rfl
      · rw [List.map_cons, List.foldlM_cons, ha]
        exact hfold
    · rintro ⟨ps, hps, hfold⟩
      obtain ⟨b, n, qs, hc, hq, rfl⟩ := exists_of_cutAll_cons hcut hps
      rw [List.map_cons, List.foldlM_cons] at hfold
      rcases ha : absorb s b with e | s'
      · rw [ha] at hfold
        cases hfold
      · rw [ha] at hfold
        rw [scan_cons_of_step ((hstep _ _ _ _ _ _).2 ⟨b, hc, ha⟩) (hcut hc)]
        exact (ih n (hcut hc)).2 ⟨qs, hq, hfold⟩

end Scan
