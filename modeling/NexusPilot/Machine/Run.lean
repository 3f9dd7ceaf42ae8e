import Mathlib.Data.List.Basic
import Mathlib.Tactic.Common

/-!
# Runs of a state machine

A component whose operations are atomic is a function `step` from an event and a state to the next
state: what the environment decides (arguments, clock readings, answers of a server, the order in
which a hash table is visited) is part of the event. `run` feeds a list of events to it.

A property of every run is proved from a property of one step. `Along p s events` says that each
event of the run finds a state at which `p` holds of it, so that a condition on steps becomes a
condition on runs, and `run_invariant` is the induction that carries an invariant along it.

Nothing here mentions a particular component.
-/

namespace Machine

variable {σ ι : Type*} (step : ι → σ → σ)

/-- The state that a list of events leads to. -/
def run (s : σ) (events : List ι) : σ :=
  events.foldl (fun s e ↦ step e s) s

@[simp]
theorem run_nil (s : σ) : run step s [] = s :=
  rfl

@[simp]
theorem run_cons (s : σ) (e : ι) (events : List ι) :
    run step s (e :: events) = run step (step e s) events :=
  rfl

theorem run_append (s : σ) (before after : List ι) :
    run step s (before ++ after) = run step (run step s before) after :=
  List.foldl_append

/-- Each event finds a state at which `p` holds of it. -/
def Along (p : σ → ι → Prop) : σ → List ι → Prop
  | _, [] => True
  | s, e :: events => p s e ∧ Along p (step e s) events

variable {step} {p q : σ → ι → Prop} {s : σ} {events : List ι}

theorem along_append {before after : List ι} :
    Along step p s (before ++ after) ↔
      Along step p s before ∧ Along step p (run step s before) after := by
  induction before generalizing s with
  | nil => simp [Along]
  | cons e before ih =>
    rw [List.cons_append, Along, Along, ih, and_assoc]
    rfl

/-- The condition at one event of the run. -/
theorem Along.at_event {before after : List ι} {e : ι}
    (h : Along step p s (before ++ e :: after)) : p (run step s before) e :=
  (along_append.1 h).2.1

/-- A run whose every event meets the condition meets it along the run. -/
theorem along_of_forall
    (h : ∀ before e after, events = before ++ e :: after → p (run step s before) e) :
    Along step p s events := by
  induction events generalizing s with
  | nil => trivial
  | cons e events ih =>
    refine ⟨h [] e events rfl, ih fun before e' after heq ↦ ?_⟩
    exact h (e :: before) e' after (by rw [heq, List.cons_append])

/-- **Invariants of runs.** What holds at the start, and is kept by each step that meets the
condition, holds at the end of every run whose steps meet it. -/
theorem run_invariant {inv : σ → Prop} (hstep : ∀ s e, inv s → p s e → inv (step e s))
    (hs : inv s) (h : Along step p s events) : inv (run step s events) := by
  induction events generalizing s with
  | nil => exact hs
  | cons e events ih => exact ih (hstep s e hs h.1) h.2

/-- An invariant that every step keeps. -/
theorem run_invariant_of_forall {inv : σ → Prop} (hstep : ∀ s e, inv s → inv (step e s))
    (hs : inv s) (events : List ι) : inv (run step s events) := by
  refine run_invariant (p := fun _ _ ↦ True) (fun s e h _ ↦ hstep s e h) hs ?_
  exact along_of_forall fun _ _ _ _ ↦ trivial

end Machine
