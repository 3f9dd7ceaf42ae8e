import NexusPilot.Scan.Run

/-!
# Passing over a stretch of text

A scanner that meets an opening delimiter works in an inner mode until the closing delimiter: inside
a quoted value, inside a comment, at some nesting depth of a comment. What an iteration does there
depends on the mode's own memory and on the text ahead only, and either keeps the mode or leaves it.

`leave` computes how far such a mode reaches, and `reach` does so for a scanner that takes the end of
the text for its closing delimiter. `scan_inside_bind` is the rule: a loop in the mode continues,
after that many symbols, as a loop that has left it.
-/

namespace Scan

variable {α σ τ ε : Type*}

/-- One iteration inside a mode with memory `τ`: the new memory, or `none` when the mode is left,
and the distance by which the index moves. -/
abbrev Inner (τ ε α : Type*) := τ → α → List α → Except ε (Option τ × ℕ)

/-- The distance to the end of the mode, with a count of symbols still passed over. -/
def leaveAux (inner : Inner τ ε α) : τ → ℕ → List α → Except ε (Option ℕ)
  | _, _, [] => .ok none
  | t, k + 1, _ :: rest => (leaveAux inner t k rest).map (Option.map (· + 1))
  | t, 0, a :: rest =>
    match inner t a rest with
    | .error e => .error e
    | .ok (none, n) => .ok (some n)
    | .ok (some t', n) => (leaveAux inner t' (n - 1) rest).map (Option.map (· + 1))

/-- The distance to the end of the mode, `none` if the text ends inside it. -/
def leave (inner : Inner τ ε α) (t : τ) (rest : List α) : Except ε (Option ℕ) :=
  leaveAux inner t 0 rest

/-- The distance to the end of the mode, or to the end of the text. -/
def reach (inner : Inner τ ε α) (t : τ) (rest : List α) : ℕ :=
  match leave inner t rest with
  | .ok (some n) => n
  | _ => rest.length

/-- Every iteration inside the mode moves the index. -/
def Inner.Progressive (inner : Inner τ ε α) : Prop :=
  ∀ ⦃t a rest r n⦄, inner t a rest = .ok (r, n) → 0 < n

@[simp]
theorem leave_nil (inner : Inner τ ε α) (t : τ) : leave inner t [] = .ok none :=
  rfl

theorem leaveAux_eq (inner : Inner τ ε α) (t : τ) (k : ℕ) (rest : List α) :
    leaveAux inner t k rest = (leave inner t (rest.drop k)).map (Option.map (· + k)) := by
  induction rest generalizing k with
  | nil => simp [leaveAux, leave, Except.map]
  | cons a rest ih =>
    cases k with
    | zero =>
      rw [List.drop_zero, leave]
      rcases leaveAux inner t 0 (a :: rest) with e | (_ | n) <;> rfl
    | succ k =>
      rw [leaveAux, ih, List.drop_succ_cons]
      rcases leave inner t (rest.drop k) with e | (_ | n) <;> rfl

section Unfolding

variable {inner : Inner τ ε α} {t t' : τ} {a : α} {rest : List α} {n : ℕ}

theorem leave_of_error {e : ε} (h : inner t a rest = .error e) :
    leave inner t (a :: rest) = .error e := by
  simp [leave, leaveAux, h]

theorem leave_of_exit (h : inner t a rest = .ok (none, n)) :
    leave inner t (a :: rest) = .ok (some n) := by
  simp [leave, leaveAux, h]

theorem leave_of_stay (h : inner t a rest = .ok (some t', n)) (hn : 0 < n) :
    leave inner t (a :: rest) =
      (leave inner t' ((a :: rest).drop n)).map (Option.map (· + n)) := by
  obtain ⟨m, rfl⟩ := Nat.exists_eq_add_of_lt hn
  have haux : leave inner t (a :: rest) =
      (leaveAux inner t' m rest).map (Option.map (· + 1)) := by
    simp [leave, leaveAux, h]
  rw [haux, leaveAux_eq]
  simp only [Nat.zero_add, List.drop_succ_cons]
  rcases leave inner t' (rest.drop m) with e | (_ | k)
  · rfl
  · rfl
  · simp only [Except.map, Option.map_some]
    rw [Nat.add_assoc]

end Unfolding

variable {ε' : Type*} {inner : Inner τ ε α} {t : τ} {rest : List α} {n : ℕ}

/-- A mode that takes every decision of another one reaches as far as the other one does. -/
theorem leave_mono {inner' : Inner τ ε' α} (hpos : inner.Progressive)
    (h : ∀ t a rest x, inner t a rest = .ok x → inner' t a rest = .ok x) {r : Option ℕ}
    (hr : leave inner t rest = .ok r) : leave inner' t rest = .ok r := by
  -- the mode does not look back, so the symbols passed are of no account
  obtain ⟨before⟩ : Nonempty (List α) := ⟨[]⟩
  induction before, rest using cursorInduction generalizing t r with
  | nil before =>
    obtain rfl : none = r := Except.ok.inj hr
    rfl
  | cons before a rest ih =>
    rcases hin : inner t a rest with e | ⟨_ | t', n⟩
    · rw [leave_of_error hin] at hr
      cases hr
    · rw [leave_of_exit hin] at hr
      obtain rfl : some n = r := Except.ok.inj hr
      exact leave_of_exit (h _ _ _ _ hin)
    · have hn : 0 < n := hpos hin
      rw [leave_of_stay hin hn] at hr
      rw [leave_of_stay (h _ _ _ _ hin) hn]
      rcases hl : leave inner t' ((a :: rest).drop n) with e | r'
      · rw [hl] at hr
        cases hr
      · rw [hl] at hr
        obtain rfl : Option.map (· + n) r' = r := Except.ok.inj hr
        rw [ih n hn hl]
        rfl

theorem reach_of_leave (h : leave inner t rest = .ok (some n)) : reach inner t rest = n := by
  rw [reach, h]

/-- A mode fails with an error of one of its iterations. -/
theorem exists_error_of_leave (hpos : inner.Progressive) {e : ε} (h : leave inner t rest = .error e) :
    ∃ t a after, inner t a after = .error e := by
  obtain ⟨before⟩ : Nonempty (List α) := ⟨[]⟩
  induction before, rest using cursorInduction generalizing t with
  | nil before => cases h
  | cons before a rest ih =>
    rcases hin : inner t a rest with e' | ⟨_ | t', n⟩
    · rw [leave_of_error hin] at h
      cases h
      exact ⟨t, a, rest, hin⟩
    · rw [leave_of_exit hin] at h
      cases h
    · have hn : 0 < n := hpos hin
      rw [leave_of_stay hin hn] at h
      rcases hl : leave inner t' ((a :: rest).drop n) with e' | r'
      · rw [hl] at h
        cases h
        exact ih n hn hl
      · rw [hl] at h
        cases h

/-- A loop that takes the decisions of a mode passes over the stretch that the mode reaches. -/
theorem Passes.of_leave {step : Step σ ε α} {inner : Inner τ ε' α} (inside : τ → σ) {outside : σ}
    (hpos : inner.Progressive) (hstep : ∀ t before a rest x, inner t a rest = .ok x →
      step (inside t) before a rest = .ok (x.1.elim outside inside, x.2)) {before : List α}
    (h : leave inner t rest = .ok (some n)) :
    Passes step (inside t) before rest n outside := by
  induction before, rest using cursorInduction generalizing t n with
  | nil before => cases h
  | cons before a rest ih =>
    rcases hin : inner t a rest with e | ⟨_ | t', m⟩
    · rw [leave_of_error hin] at h
      cases h
    · rw [leave_of_exit hin] at h
      cases h
      exact .of_step (hstep _ _ _ _ _ hin) (hpos hin)
    · have hm : 0 < m := hpos hin
      rw [leave_of_stay hin hm] at h
      rcases hl : leave inner t' ((a :: rest).drop m) with e | (_ | k)
      · rw [hl] at h
        cases h
      · rw [hl] at h
        cases h
      · rw [hl] at h
        obtain rfl : k + m = n := Option.some.inj (Except.ok.inj h)
        rw [Nat.add_comm]
        exact (Passes.of_step (hstep _ _ _ _ _ hin) hm).trans (ih m hm hl)

/-- What follows a mode: its own error, the result `r` for a text that ends inside it, or the
continuation from the distance at which it is left. -/
def passOver {β : Type*} (r : Except ε β) (next : ℕ → Except ε β) :
    Except ε (Option ℕ) → Except ε β
  | .error e => .error e
  | .ok none => r
  | .ok (some n) => next n

/-- **The rule for a mode.** A loop whose iterations from `inside t` are those of the mode continues
after it as the loop from `outside`, and fails where the mode fails. What the loop's continuation
`k` makes of a text that ends inside the mode is the parameter `r`. -/
theorem scan_inside_bind {β : Type*} (step : Step σ ε α) (inner : Inner τ ε α)
    (inside : τ → σ) (outside : σ) (k : σ → Except ε β) (r : Except ε β)
    (hpos : inner.Progressive)
    (hstep : ∀ t before a rest, step (inside t) before a rest =
      (inner t a rest).map fun x ↦ (x.1.elim outside inside, x.2))
    (hk : ∀ t, k (inside t) = r) (t : τ) (before rest : List α) :
    (scan step (inside t) before rest).bind k =
      passOver r (fun n ↦ (scan step outside (behind n before rest) (rest.drop n)).bind k)
        (leave inner t rest) := by
  induction before, rest using cursorInduction generalizing t with
  | nil before => exact hk t
  | cons before a rest ih =>
    rcases hin : inner t a rest with e | ⟨_ | t', n⟩
    · have hs : step (inside t) before a rest = .error e := by rw [hstep, hin]; rfl
      rw [scan_cons_of_error hs, leave_of_error hin]
      rfl
    · have hs : step (inside t) before a rest = .ok (outside, n) := by rw [hstep, hin]; rfl
      rw [scan_cons_of_step hs (hpos hin), leave_of_exit hin]
      rfl
    · have hs : step (inside t) before a rest = .ok (inside t', n) := by rw [hstep, hin]; rfl
      have hn : 0 < n := hpos hin
      rw [scan_cons_of_step hs hn, ih n hn, leave_of_stay hin hn]
      rcases leave inner t' ((a :: rest).drop n) with e | (_ | m)
      · rfl
      · rfl
      · simp only [Except.map, Option.map_some, passOver]
        rw [Nat.add_comm m n, behind_add, ← List.drop_drop]

end Scan
