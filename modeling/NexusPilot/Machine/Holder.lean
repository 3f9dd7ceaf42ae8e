import Mathlib.Data.List.Induction
import Mathlib.Tactic.Common

/-!
# The holder of a resource

A resource passes from one owner to the next: it is acquired, which takes it from whoever had it, or it is released.
The holder after a history is the owner that acquired it last, unless it was released since.
-/

namespace Machine

/-- What happens to a resource. -/
inductive Handover (α : Type*)
  | acquired (owner : α)
  | released
  deriving DecidableEq

variable {α : Type*}

/-- Who holds the resource after one more event. -/
def Handover.next (_ : Option α) : Handover α → Option α
  | .acquired owner => some owner
  | .released => none

/-- **The holder after a history**, the latest event last. -/
def holder (history : List (Handover α)) : Option α :=
  history.foldl Handover.next none

@[simp]
theorem holder_append_acquired (history : List (Handover α)) (owner : α) :
    holder (history ++ [.acquired owner]) = some owner := by
  rw [holder, List.foldl_append]
  rfl

@[simp]
theorem holder_append_released (history : List (Handover α)) : holder (history ++ [.released]) = none := by
  rw [holder, List.foldl_append]
  rfl

/-- After an acquisition the holder is the one that acquired, or one that acquired later. -/
theorem eq_or_mem_of_holder {before after : List (Handover α)} {owner found : α}
    (h : holder (before ++ .acquired owner :: after) = some found) :
    found = owner ∨ .acquired found ∈ after := by
  induction after using List.reverseRecOn with
  | nil =>
    rw [holder_append_acquired] at h
    exact .inl (Option.some.inj h).symm
  | append_singleton after last ih =>
    rw [← List.cons_append, ← List.append_assoc] at h
    cases last with
    | acquired latest =>
      rw [holder_append_acquired] at h
      obtain rfl := Option.some.inj h
      exact .inr (List.mem_append_right _ (List.mem_singleton_self _))
    | released =>
      rw [holder_append_released] at h
      cases h

end Machine
