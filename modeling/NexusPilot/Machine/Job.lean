import Mathlib.Tactic.Common

/-!
# Jobs

A job works on a state and may fail. Unlike a transaction it is not undone: what it wrote before it failed stays.
The two rules read a sequence of jobs back, one for a run that succeeds and one for a run that fails.
-/

namespace Machine

/-- A computation on a state that may fail and keeps what it wrote. -/
structure Job (σ ε α : Type) where
  run : σ → Except ε α × σ

namespace Job

variable {σ ε α β : Type}

instance : Monad (Job σ ε) where
  pure a := ⟨fun s ↦ (.ok a, s)⟩
  bind x f := ⟨fun s ↦
    match x.run s with
    | (.ok a, s') => (f a).run s'
    | (.error e, s') => (.error e, s')⟩

/-- A job that fails at once. -/
def fail (e : ε) : Job σ ε α := ⟨fun s ↦ (.error e, s)⟩

/-- A result that is there, or a failure. -/
def ofExcept (x : Except ε α) : Job σ ε α := ⟨fun s ↦ (x, s)⟩

variable {x : Job σ ε α} {f : α → Job σ ε β} {s s' s'' : σ} {a : α} {b : β} {e : ε}

theorem run_bind (x : Job σ ε α) (f : α → Job σ ε β) (s : σ) :
    (x >>= f).run s =
      match x.run s with
      | (.ok a, s') => (f a).run s'
      | (.error e, s') => (.error e, s') := rfl

theorem run_bind_of_ok (h : x.run s = (.ok a, s')) : (x >>= f).run s = (f a).run s' := by
  rw [run_bind, h]

theorem run_bind_of_error (h : x.run s = (.error e, s')) : (x >>= f).run s = (.error e, s') := by
  rw [run_bind, h]

instance : LawfulMonad (Job σ ε) := LawfulMonad.mk' _
  (by
    intro _ x
    refine congrArg Job.mk (funext fun s ↦ ?_)
    show (x >>= pure).run s = x.run s
    rw [run_bind]
    rcases x.run s with ⟨a | a, s'⟩
    · rfl
    · rfl)
  (fun _ _ ↦ rfl)
  (by
    intro _ _ _ x f g
    refine congrArg Job.mk (funext fun s ↦ ?_)
    show ((x >>= f) >>= g).run s = (x >>= fun a ↦ f a >>= g).run s
    rw [run_bind, run_bind, run_bind]
    rcases x.run s with ⟨a | a, s'⟩
    · rfl
    · rfl)

end Job

end Machine
