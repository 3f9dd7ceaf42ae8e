import Mathlib.Data.Nat.Cast.Basic
import Mathlib.Algebra.Ring.Nat
import NexusPilot.Machine.Arrange

/-!
# Reordering by index

A list is brought to the order of `desired` by index: its elements are taken in the order of `desired`,
and each that does not stand at its index there is taken out and put in at that index (`settle`). The
elements that `desired` adds stand in the list already and are passed over.

Which elements are found at their index depends on the course of all the settling before. `foundAt_iff`
gives it in closed form: the kept elements that stand before `x` and come after it in `desired`, with the
new ones behind each of them, are as many as the new ones behind the kept elements that come before `x`
in `desired` only.

Nothing here mentions a particular component.
-/

namespace Machine

variable {α : Type*} [DecidableEq α]

/-- `x` taken out of the list and put in at the index `i`. -/
def settle (i : ℕ) (x : α) (l : List α) : List α :=
  (l.erase x).insertIdx i x

/-- The elements `done` stand among the first `i`. -/
def Settled (done : List α) (i : ℕ) (l : List α) : Prop :=
  ∃ front back, l = front ++ back ∧ front.length ≤ i ∧ ∀ x ∈ done, x ∈ front

variable {done l : List α} {i : ℕ} {x : α} {q : α → Bool}

omit [DecidableEq α] in
theorem Settled.succ (h : Settled done i l) : Settled done (i + 1) l := by
  obtain ⟨front, back, hl, hi, hdone⟩ := h
  exact ⟨front, back, hl, by omega, hdone⟩

theorem settle_perm (hx : x ∈ l) (hi : i < l.length) : (settle i x l).Perm l := by
  have hlen := List.length_erase_of_mem hx
  exact (List.perm_insertIdx x (l.erase x) (by omega)).trans (List.perm_cons_erase hx).symm

omit [DecidableEq α] in
theorem insertIdx_eq (x : α) : ∀ {l : List α} {i : ℕ}, i ≤ l.length → l.insertIdx i x = l.take i ++ x :: l.drop i
  | _, 0, _ => rfl
  | y :: l, i + 1, h => by
    rw [List.insertIdx_succ_cons, insertIdx_eq x (Nat.le_of_succ_le_succ h)]
    rfl

theorem settle_eq (hx : x ∈ l) (hi : i < l.length) :
    settle i x l = (l.erase x).take i ++ x :: (l.erase x).drop i := by
  have hlen := List.length_erase_of_mem hx
  exact insertIdx_eq x (by omega)

/-- Settling `x` is not seen among the others. -/
theorem filter_settle (hx : x ∈ l) (hi : i < l.length) (hq : q x = false) :
    (settle i x l).filter q = l.filter q := by
  rw [settle_eq hx hi, List.filter_append, List.filter_cons_of_neg (by simp [hq]), ← List.filter_append,
    List.take_append_drop, filter_erase_of_false hq]

theorem Settled.settle (h : Settled done i l) (hl : l.Nodup) (hx : x ∈ l) (hi : i < l.length) :
    Settled (x :: done) (i + 1) (settle i x l) := by
  obtain ⟨front, back, rfl, hfront, hdone⟩ := h
  refine ⟨((front ++ back).erase x).take i ++ [x], ((front ++ back).erase x).drop i, ?_, ?_, ?_⟩
  · rw [settle_eq hx hi, List.append_assoc, List.singleton_append]
  · simp only [List.length_append, List.length_take, List.length_singleton]
    omega
  · intro y hy
    obtain rfl | hy := List.mem_cons.1 hy
    · simp
    by_cases hyx : y = x
    · simp [hyx]
    refine List.mem_append_left _ ?_
    have hin : y ∈ front.erase x := (List.mem_erase_of_ne hyx).2 (hdone y hy)
    have hshort : (front.erase x).length ≤ i := (List.length_erase_le).trans hfront
    by_cases hxfront : x ∈ front
    · rw [List.erase_append_left _ hxfront, List.take_append]
      exact List.mem_append_left _ (by rwa [List.take_of_length_le hshort])
    · rw [List.erase_append_right _ hxfront, List.take_append]
      exact List.mem_append_left _ (by rw [List.take_of_length_le hfront]; exact hdone y hy)

theorem length_filter_notMem (hl : l.Nodup) (hdone : done.Nodup) (hmem : ∀ y ∈ done, y ∈ l) :
    (l.filter fun y ↦ y ∉ done).length + done.length = l.length := by
  have hperm : (l.filter fun y ↦ y ∈ done).Perm done := by
    refine (List.perm_ext_iff_of_nodup (hl.filter _) hdone).2 fun y ↦ ?_
    rw [List.mem_filter, decide_eq_true_iff]
    exact ⟨fun h ↦ h.2, fun h ↦ ⟨hmem y h, h⟩⟩
  have hsplit := List.length_eq_length_filter_add (l := l) (fun y ↦ decide (y ∈ done))
  have hnot : (fun y ↦ !decide (y ∈ done)) = fun y ↦ decide (y ∉ done) := by
    funext y
    simp
  rw [hperm.length_eq, hnot] at hsplit
  omega

/-- An element that is not settled stands at the index `i` exactly when it stands there as seen among
the elements that are not settled. -/
theorem Settled.length_eq_iff {before after : List α} (h : Settled done i (before ++ x :: after))
    (hl : (before ++ x :: after).Nodup) (hdone : done.Nodup) (hx : x ∉ done) :
    before.length = i ↔ (before.filter fun y ↦ y ∉ done).length + done.length = i := by
  obtain ⟨front, back, heq, hfront, hmem⟩ := h
  have hall : (∀ y ∈ done, y ∈ before) → (before.length = i ↔
      (before.filter fun y ↦ y ∉ done).length + done.length = i) := fun hdone' ↦ by
    rw [length_filter_notMem (List.nodup_append.1 hl).1 hdone hdone']
  obtain ⟨rest, rfl, hrest⟩ | ⟨rest, rfl, -⟩ := List.append_eq_append_iff.1 heq
  · cases rest with
    | nil =>
      rw [List.append_nil] at hmem
      exact hall hmem
    | cons z rest =>
      -- `x` is among the first elements, where all settled ones are: both sides are too small
      obtain rfl : x = z := (List.cons.inj hrest).1
      have hnodup : (before ++ x :: rest).Nodup := by
        rw [heq] at hl
        exact (List.nodup_append.1 hl).1
      have hcount := length_filter_notMem hnodup hdone hmem
      rw [List.filter_append, List.filter_cons_of_pos (by simpa using hx)] at hcount
      simp only [List.length_append, List.length_cons] at hcount hfront
      omega
  · exact hall fun y hy ↦ List.mem_append_left _ (hmem y hy)

/-! ### Found at the index -/

section Found

variable (new : α → Bool) (desired : List α)

/-- The elements before `x` in `l` that are not before it in `l'`. -/
def ahead (l l' : List α) (x : α) : List α :=
  (l.takeWhile (· ≠ x)).filter (· ∉ l'.takeWhile (· ≠ x))

/-- The elements of `desired` that the list has already. -/
def kept : List α :=
  desired.filter fun y ↦ !new y

/-- `x` is found at its index when the list `l` of kept elements is brought to the order of `desired`. -/
def FoundAt (l : List α) (x : α) : Prop :=
  ((ahead l (kept new desired) x).map fun k ↦ (newBehind new desired k).length + 1).sum =
    ((ahead (kept new desired) l x).map fun k ↦ (newBehind new desired k).length).sum
  deriving Decidable

variable {new desired}

theorem takeWhile_ne_append {before after : List α} (h : x ∉ before) :
    (before ++ x :: after).takeWhile (· ≠ x) = before := by
  rw [List.takeWhile_append_of_pos fun y hy ↦ by simpa using ne_of_mem_of_not_mem hy h,
    List.takeWhile_cons_of_neg (by simp), List.append_nil]

omit [DecidableEq α] in
theorem sum_filter_add (f : α → ℕ) (p : α → Bool) (l : List α) :
    ((l.filter p).map f).sum + ((l.filter fun k ↦ !p k).map f).sum = (l.map f).sum := by
  rw [← List.sum_append, ← List.map_append]
  exact ((List.filter_append_perm p l).map f).sum_eq

/-- Sums over two lists agree once they agree over what only one of them has. -/
theorem sum_eq_iff {f : α → ℕ} {l l' : List α} (hl : l.Nodup) (hl' : l'.Nodup) :
    (l.map fun k ↦ f k + if k ∈ l' then 0 else 1).sum = (l'.map f).sum ↔
      ((l.filter (· ∉ l')).map fun k ↦ f k + 1).sum = ((l'.filter (· ∉ l)).map f).sum := by
  have hleft := sum_filter_add (fun k ↦ f k + if k ∈ l' then 0 else 1) (fun k ↦ decide (k ∈ l')) l
  have hright := sum_filter_add f (fun k ↦ decide (k ∈ l)) l'
  have hin : ((l.filter fun k ↦ decide (k ∈ l')).map fun k ↦ f k + if k ∈ l' then 0 else 1) =
      (l.filter fun k ↦ decide (k ∈ l')).map f := by
    refine List.map_congr_left fun k hk ↦ ?_
    rw [if_pos (by simpa using (List.mem_filter.1 hk).2), Nat.add_zero]
  have hout : ((l.filter fun k ↦ !decide (k ∈ l')).map fun k ↦ f k + if k ∈ l' then 0 else 1) =
      (l.filter (· ∉ l')).map fun k ↦ f k + 1 := by
    have hnot : (fun k ↦ !decide (k ∈ l')) = fun k ↦ decide (k ∉ l') := by
      funext k
      simp
    rw [hnot]
    refine List.map_congr_left fun k hk ↦ ?_
    rw [if_neg (by simpa using (List.mem_filter.1 hk).2)]
  have hnot' : (fun k ↦ !decide (k ∈ l)) = fun k ↦ decide (k ∉ l) := by
    funext k
    simp
  have hcommon : (l.filter fun k ↦ decide (k ∈ l')).Perm (l'.filter fun k ↦ decide (k ∈ l)) := by
    refine (List.perm_ext_iff_of_nodup (hl.filter _) (hl'.filter _)).2 fun k ↦ ?_
    simp only [List.mem_filter, decide_eq_true_iff]
    exact and_comm
  rw [hin, hout, (hcommon.map f).sum_eq] at hleft
  rw [hnot'] at hright
  omega

omit [DecidableEq α] in
theorem length_flatMap_cons (f : α → List α) (l : List α) :
    (l.flatMap fun k ↦ k :: f k).length = (l.map fun k ↦ (f k).length + 1).sum := by
  rw [List.length_flatMap]
  rfl

/-- The kept elements, each with the new ones behind it, in the order of `l`. -/
theorem length_filter_blocks {l done : List α} (hdone : ∀ y ∈ done, new y = false) :
    ((l.flatMap fun k ↦ k :: newBehind new desired k).filter fun y ↦ y ∉ done).length =
      (l.map fun k ↦ (newBehind new desired k).length + if k ∈ done then 0 else 1).sum := by
  induction l with
  | nil => rfl
  | cons k l ih =>
    have hnew : ((newBehind new desired k).filter fun y ↦ y ∉ done) = newBehind new desired k := by
      refine List.filter_eq_self.2 fun y hy ↦ ?_
      have hy' := new_of_mem_newBehind hy
      simpa using fun hmem ↦ by simp [hdone y hmem] at hy'
    rw [List.flatMap_cons, List.filter_append, List.length_append, ih, List.map_cons, List.sum_cons,
      List.filter_cons, hnew]
    by_cases hk : k ∈ done
    · simp [hk]
    · simp [hk]

/-- **Found at the index, in closed form.** `l` has the kept elements, and the new ones are inserted into
it. Among the elements that are not settled yet, `x` stands at the place that its index leaves exactly
when it is `FoundAt` its index. -/
theorem foundAt_iff {before after first last : List α} {x : α} {l : List α} (hdesired : desired.Nodup)
    (hl : l.Perm (kept new desired)) (hx : new x = false) (hd : desired = before ++ x :: after)
    (hlisting : (desired.takeWhile new ++ l.flatMap fun k ↦ k :: newBehind new desired k) =
      first ++ x :: last) :
    (first.filter fun y ↦ y ∉ kept new before).length + (kept new before).length = before.length ↔
      FoundAt new desired l x := by
  have hxlead : x ∉ desired.takeWhile new := fun h ↦ by simp [List.mem_takeWhile_imp h] at hx
  have hkeptsplit : kept new desired = kept new before ++ x :: kept new after := by
    rw [kept, hd, List.filter_append, List.filter_cons_of_pos (by simpa using hx)]
    rfl
  have hkept : (kept new desired).Nodup := hdesired.filter _
  have hxl : x ∈ l := hl.mem_iff.2 (by rw [hkeptsplit]; simp)
  obtain ⟨l₁, l₂, rfl, hl₁⟩ := List.eq_append_cons_of_mem hxl
  have hnodup : (l₁ ++ x :: l₂).Nodup := hl.nodup_iff.2 hkept
  have hold : ∀ y ∈ kept new desired, new y = false := fun y hy ↦ by simpa using (List.mem_filter.1 hy).2
  have hblock : ∀ part : List α, (∀ y ∈ part, y ∈ kept new desired) → x ∉ part →
      x ∉ desired.takeWhile new ++ part.flatMap fun k ↦ k :: newBehind new desired k := by
    intro part hpart hxpart hmem
    obtain hmem | hmem := List.mem_append.1 hmem
    · exact hxlead hmem
    obtain ⟨k, hk, hmem⟩ := List.mem_flatMap.1 hmem
    obtain rfl | hmem := List.mem_cons.1 hmem
    · exact hxpart hk
    · simp [new_of_mem_newBehind hmem] at hx
  have hcut : ∀ {first last first' last' : List α}, (first ++ x :: last).Nodup → x ∉ first' →
      first ++ x :: last = first' ++ x :: last' → first = first' := by
    intro first last first' last' hn hx' heq
    have hxfirst : x ∉ first := fun h ↦ (List.nodup_middle.1 hn).notMem (by simp [h])
    rw [← takeWhile_ne_append hxfirst, heq, takeWhile_ne_append hx']
  have hread := @eq_newBehind _ _ new _ hdesired
  have hperm := List.Perm.append_left (desired.takeWhile new)
    (hl.flatMap_right fun k ↦ k :: newBehind new desired k)
  have hfirst : first = desired.takeWhile new ++ l₁.flatMap fun k ↦ k :: newBehind new desired k := by
    have hn := hperm.nodup_iff.2 (hread ▸ hdesired)
    have heq : first ++ x :: last = (desired.takeWhile new ++ l₁.flatMap fun k ↦ k :: newBehind new desired k) ++
        x :: (newBehind new desired x ++ l₂.flatMap fun k ↦ k :: newBehind new desired k) := by
      rw [← hlisting]
      simp
    rw [hlisting] at hn
    exact hcut hn (hblock l₁ (fun y hy ↦ hl.mem_iff.1 (by simp [hy])) hl₁) heq
  have hxbefore : x ∉ kept new before := fun h ↦ by
    rw [hkeptsplit] at hkept
    exact (List.nodup_middle.1 hkept).notMem (by simp [h])
  have hbefore : before = desired.takeWhile new ++
      (kept new before).flatMap fun k ↦ k :: newBehind new desired k := by
    have heq : before ++ x :: after =
        (desired.takeWhile new ++ (kept new before).flatMap fun k ↦ k :: newBehind new desired k) ++
          x :: (newBehind new desired x ++
            (kept new after).flatMap fun k ↦ k :: newBehind new desired k) := by
      have hread' : desired = desired.takeWhile new ++
          (kept new desired).flatMap fun k ↦ k :: newBehind new desired k := hread
      rw [← hd]
      conv_lhs => rw [hread', hkeptsplit]
      simp
    exact hcut (hd ▸ hdesired) (hblock _ (fun y hy ↦ by rw [hkeptsplit]; simp [hy]) hxbefore) heq
  have hlead : ((desired.takeWhile new).filter fun y ↦ y ∉ kept new before) = desired.takeWhile new := by
    refine List.filter_eq_self.2 fun y hy ↦ ?_
    have hy' := List.mem_takeWhile_imp hy
    simpa using fun hmem ↦ by simp [hold y (by rw [hkeptsplit]; simp [hmem])] at hy'
  have hlength : before.length = (desired.takeWhile new).length +
      (((kept new before).map fun k ↦ (newBehind new desired k).length).sum +
        (kept new before).length) := by
    conv_lhs => rw [hbefore]
    rw [List.length_append, length_flatMap_cons, List.sum_map_add]
    simp
  have hsum := sum_eq_iff (f := fun k ↦ (newBehind new desired k).length)
    (List.nodup_append.1 hnodup).1 ((hkeptsplit ▸ hkept : (kept new before ++ x :: kept new after).Nodup) |>
      fun h ↦ (List.nodup_append.1 h).1)
  rw [FoundAt, ahead, ahead, takeWhile_ne_append hl₁, hkeptsplit, takeWhile_ne_append hxbefore, ← hsum,
    hfirst, List.filter_append, List.length_append, hlead,
    length_filter_blocks fun y hy ↦ hold y (by rw [hkeptsplit]; simp [hy]), hlength]
  omega

end Found

end Machine
