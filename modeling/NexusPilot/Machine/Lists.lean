import Mathlib.Data.List.Forall2
import Mathlib.Data.List.Sort
import Mathlib.Order.Basic
import Mathlib.Tactic.Common

/-!
# Lists that a program walks

Two things that programs do with a list and proofs then read back: apply a function that may fail to each
element, and take the element that a sort would put first.
-/

namespace Machine

variable {α β : Type*}

/-- A walk that succeeds has a result for each element. -/
theorem mapM_eq_some_iff {f : α → Option β} {xs : List α} {ys : List β} :
    xs.mapM f = some ys ↔ List.Forall₂ (fun x y ↦ f x = some y) xs ys := by
  induction xs generalizing ys with
  | nil => simp [eq_comm]
  | cons x xs ih =>
    rw [List.mapM_cons]
    simp only [Option.bind_eq_bind, Option.bind_eq_some_iff, Option.pure_def, Option.some.injEq]
    rw [List.forall₂_cons_left_iff]
    constructor
    · rintro ⟨y, hy, ys', hys, rfl⟩
      exact ⟨y, ys', hy, ih.1 hys, rfl⟩
    · rintro ⟨y, ys', hy, hys, rfl⟩
      exact ⟨y, hy, ys', ih.2 hys, rfl⟩

/-- Each element has its result. -/
theorem exists_of_mapM {f : α → Option β} {xs : List α} {ys : List β} (h : xs.mapM f = some ys) {x : α}
    (hx : x ∈ xs) : ∃ y ∈ ys, f x = some y := by
  have hall := mapM_eq_some_iff.1 h
  clear h
  induction hall with
  | nil => cases hx
  | @cons x' y xs ys hy _ ih =>
    rcases List.mem_cons.1 hx with rfl | hx
    · exact ⟨y, List.mem_cons_self .., hy⟩
    · obtain ⟨found, hfound, hf⟩ := ih hx
      exact ⟨found, List.mem_cons_of_mem _ hfound, hf⟩

/-- Each result is the one of an element. -/
theorem exists_of_mem_mapM {f : α → Option β} {xs : List α} {ys : List β} (h : xs.mapM f = some ys) {y : β}
    (hy : y ∈ ys) : ∃ x ∈ xs, f x = some y := by
  have hall := mapM_eq_some_iff.1 h
  clear h
  induction hall with
  | nil => cases hy
  | @cons x y' xs ys hx _ ih =>
    rcases List.mem_cons.1 hy with rfl | hy
    · exact ⟨x, List.mem_cons_self .., hx⟩
    · obtain ⟨found, hfound, hf⟩ := ih hy
      exact ⟨found, List.mem_cons_of_mem _ hfound, hf⟩

/-- A walk succeeds when each step does. -/
theorem exists_mapM_eq_some {f : α → Option β} {xs : List α} (h : ∀ x ∈ xs, (f x).isSome = true) :
    ∃ ys, xs.mapM f = some ys := by
  induction xs with
  | nil => exact ⟨[], rfl⟩
  | cons x xs ih =>
    obtain ⟨y, hy⟩ := Option.isSome_iff_exists.1 (h x (List.mem_cons_self ..))
    obtain ⟨ys, hys⟩ := ih fun x' hx' ↦ h x' (List.mem_cons_of_mem _ hx')
    exact ⟨y :: ys, mapM_eq_some_iff.2 (.cons hy (mapM_eq_some_iff.1 hys))⟩

/-- The element that comes first in an order. -/
def first (before : α → α → Bool) : List α → Option α
  | [] => none
  | x :: xs =>
    match first before xs with
    | none => some x
    | some y => if before y x then some y else some x

variable {before : α → α → Bool} {xs : List α} {x : α}

theorem mem_of_first (h : first before xs = some x) : x ∈ xs := by
  induction xs generalizing x with
  | nil => cases h
  | cons y xs ih =>
    unfold first at h
    split at h
    · rw [← Option.some.inj h]
      exact List.mem_cons_self ..
    · next z hz =>
      split at h
      · rw [← Option.some.inj h]
        exact List.mem_cons_of_mem _ (ih hz)
      · rw [← Option.some.inj h]
        exact List.mem_cons_self ..

theorem first_eq_none_iff : first before xs = none ↔ xs = [] := by
  cases xs with
  | nil => simp [first]
  | cons x xs =>
    refine ⟨fun h ↦ ?_, fun h ↦ nomatch h⟩
    unfold first at h
    split at h
    · cases h
    · split at h
      · cases h
      · cases h

/-- The first element has the largest key, when a larger key comes first. -/
theorem le_of_first {κ : Type*} [LinearOrder κ] {key : α → κ}
    (hlt : ∀ a b, key b < key a → before a b = true) (hle : ∀ a b, before a b = true → key b ≤ key a)
    (h : first before xs = some x) : ∀ y ∈ xs, key y ≤ key x := by
  induction xs generalizing x with
  | nil => intro y hy; cases hy
  | cons z xs ih =>
    unfold first at h
    intro y hy
    rw [List.mem_cons] at hy
    split at h
    · next hnone =>
      rw [first_eq_none_iff] at hnone
      subst hnone
      obtain rfl := Option.some.inj h
      rcases hy with rfl | hy
      · exact le_rfl
      · cases hy
    · next w hw =>
      split at h
      · next hbefore =>
        obtain rfl := Option.some.inj h
        rcases hy with rfl | hy
        · exact hle _ _ hbefore
        · exact ih hw y hy
      · next hbefore =>
        obtain rfl := Option.some.inj h
        rcases hy with rfl | hy
        · exact le_rfl
        · refine (ih hw y hy).trans (le_of_not_gt fun hgt ↦ hbefore (hlt _ _ hgt))

/-! ### Sorting by a key of two values -/

/-- An element is inserted behind those that it may not precede and before those that it may. -/
theorem orderedInsert_append {r : α → α → Prop} [DecidableRel r] {x : α} {front back : List α}
    (hfront : ∀ y ∈ front, ¬ r x y) (hback : ∀ y ∈ back, r x y) :
    (front ++ back).orderedInsert r x = front ++ x :: back := by
  induction front with
  | nil =>
    cases back with
    | nil => rfl
    | cons y back => exact List.orderedInsert_cons_of_le _ back (hback y List.mem_cons_self)
  | cons y front ih =>
    rw [List.cons_append, List.orderedInsert_of_not_le _ _ (hfront y List.mem_cons_self),
      ih fun z hz ↦ hfront z (List.mem_cons_of_mem _ hz), List.cons_append]

/-- A stable sort by a key that has two values puts those with the lower one first and keeps their order. -/
theorem insertionSort_of_two_keys {key : α → ℕ} {low high : ℕ} (hlt : low < high) {xs : List α}
    (h : ∀ x ∈ xs, key x = low ∨ key x = high) :
    xs.insertionSort (fun x y ↦ key x ≤ key y) =
      xs.filter (fun x ↦ key x = low) ++ xs.filter (fun x ↦ key x = high) := by
  have hkey : ∀ {value : ℕ} {ys : List α} {y : α}, y ∈ ys.filter (fun x ↦ key x = value) → key y = value :=
    fun hy ↦ of_decide_eq_true (List.mem_filter.1 hy).2
  induction xs with
  | nil => rfl
  | cons x xs ih =>
    rw [List.insertionSort_cons, ih fun y hy ↦ h y (List.mem_cons_of_mem _ hy)]
    rcases h x List.mem_cons_self with hx | hx
    · rw [List.filter_cons_of_pos (by simpa using hx), List.filter_cons_of_neg (by simpa [hx] using hlt.ne)]
      refine @orderedInsert_append _ _ _ x [] _ (fun _ hy ↦ nomatch hy) fun y hy ↦ ?_
      rcases List.mem_append.1 hy with hy | hy
      · exact (hx.trans (hkey hy).symm).le
      · exact hx.le.trans (hlt.le.trans (hkey hy).symm.le)
    · rw [List.filter_cons_of_neg (by simpa [hx] using hlt.ne'), List.filter_cons_of_pos (by simpa using hx)]
      refine orderedInsert_append (fun y hy hle ↦ ?_) fun y hy ↦ (hx.trans (hkey hy).symm).le
      rw [hx, hkey hy] at hle
      exact absurd hlt (not_lt.2 hle)

/-! ### Changing the first element that passes a test -/

/-- The first element that passes a test is changed. -/
def modifyFirst (p : α → Bool) (f : α → α) : List α → List α
  | [] => []
  | x :: xs => if p x then f x :: xs else x :: modifyFirst p f xs

variable {p : α → Bool} {f : α → α} {xs : List α}

/-- What holds of every element, and of the change of each that passes. -/
theorem forall_modifyFirst {inv inv' : α → Prop} (h : ∀ x ∈ xs, inv x) (hkeep : ∀ x, inv x → inv' x)
    (hf : ∀ x, p x = true → inv x → inv' (f x)) : ∀ x ∈ modifyFirst p f xs, inv' x := by
  induction xs with
  | nil => exact fun x hx ↦ absurd hx List.not_mem_nil
  | cons x xs ih =>
    have hx : inv x := h x List.mem_cons_self
    have hxs : ∀ y ∈ xs, inv y := fun y hy ↦ h y (List.mem_cons_of_mem _ hy)
    rw [modifyFirst]
    split
    · next hp => exact List.forall_mem_cons.2 ⟨hf x hp hx, fun y hy ↦ hkeep y (hxs y hy)⟩
    · exact List.forall_mem_cons.2 ⟨hkeep x hx, ih hxs⟩

/-- Every element is still there, or its change is. -/
theorem mem_or_mem_modifyFirst {x : α} (hx : x ∈ xs) : x ∈ modifyFirst p f xs ∨ f x ∈ modifyFirst p f xs := by
  induction xs with
  | nil => exact absurd hx List.not_mem_nil
  | cons y ys ih =>
    rw [modifyFirst]
    obtain rfl | hx := List.mem_cons.1 hx
    · split
      · exact .inr List.mem_cons_self
      · exact .inl List.mem_cons_self
    · split
      · exact .inl (List.mem_cons_of_mem _ hx)
      · exact (ih hx).imp (List.mem_cons_of_mem _) (List.mem_cons_of_mem _)

/-- The element that is found is the one that is changed. -/
theorem mem_modifyFirst_of_find? {x : α} (hx : xs.find? p = some x) : f x ∈ modifyFirst p f xs := by
  induction xs with
  | nil => cases hx
  | cons y ys ih =>
    rw [modifyFirst]
    rw [List.find?_cons] at hx
    split at hx
    · next hp =>
      cases hx
      rw [if_pos hp]
      exact List.mem_cons_self
    · next hp =>
      rw [if_neg (ne_true_of_eq_false hp)]
      exact List.mem_cons_of_mem _ (ih hx)

end Machine
