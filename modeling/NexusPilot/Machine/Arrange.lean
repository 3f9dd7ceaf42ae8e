import Mathlib.Data.List.Nodup
import Mathlib.Data.List.Perm.Basic
import Mathlib.Data.List.Infix
import Mathlib.Data.List.TakeWhile
import Mathlib.Algebra.BigOperators.Group.List.Basic
import Mathlib.Tactic.Common

/-!
# Lists that are arranged by neighbours

Lists whose elements are distinct and are put to their places one at a time, each at the front or behind
another one: `insertBehind` and `moveBehind`. Two runs of such operations are studied against a list
`desired`:

* the *new* elements are inserted behind the element that stands before them in `desired`
  (`insertNew`). Each kept element then has the new ones that follow it in `desired` directly behind it:
  `insertNew_eq`.
* some of the others are moved behind the element that stands before them in `desired` (`moveEach`). The
  result is `desired` exactly when the elements that are not moved were in its order:
  `moveEach_eq_iff`.

Nothing here mentions a particular component.
-/

namespace Machine

variable {α β : Type*} [DecidableEq α]

/-! ### Places -/

section Keyed

variable (key : β → α)

/-- `x` directly behind the first element with the key `k`. -/
def behind (k : α) (x : β) : List β → Option (List β)
  | [] => none
  | y :: l => if key y = k then some (y :: x :: l) else (behind k x l).map (y :: ·)

/-- `x` directly behind the element with the key `p`; at the front where `p` is nothing. -/
def insertBehind (p : Option α) (x : β) (l : List β) : Option (List β) :=
  match p with
  | none => some (x :: l)
  | some k => behind key k x l

variable {key}

theorem behind_map (k : α) (x : β) (l : List β) :
    (behind key k x l).map (List.map key) = behind id k (key x) (l.map key) := by
  induction l with
  | nil => rfl
  | cons y l ih =>
    rw [behind, List.map_cons, behind, id, ← ih]
    by_cases h : key y = k
    · rw [if_pos h, if_pos h]
      rfl
    · rw [if_neg h, if_neg h, Option.map_map, Option.map_map]
      rfl

/-- The keys of the result depend on the keys only. -/
theorem insertBehind_map (p : Option α) (x : β) (l : List β) :
    (insertBehind key p x l).map (List.map key) = insertBehind id p (key x) (l.map key) := by
  cases p with
  | none => rfl
  | some k => exact behind_map k x l

theorem behind_eq_some_iff {k : α} {x : β} {l l' : List β} :
    behind key k x l = some l' ↔ ∃ before y after, l = before ++ y :: after ∧ key y = k ∧
      (∀ z ∈ before, key z ≠ k) ∧ l' = before ++ y :: x :: after := by
  induction l generalizing l' with
  | nil => simp [behind]
  | cons y l ih =>
    rw [behind]
    split_ifs with hy
    · constructor
      · rintro ⟨⟩
        exact ⟨[], y, l, rfl, hy, by simp, rfl⟩
      · rintro ⟨before, z, after, heq, hz, hbefore, rfl⟩
        cases before with
        | nil => cases heq; rfl
        | cons w before =>
          cases heq
          exact absurd hy (hbefore _ (by simp))
    · rw [Option.map_eq_some_iff]
      constructor
      · rintro ⟨l'', h, rfl⟩
        obtain ⟨before, z, after, rfl, hz, hbefore, rfl⟩ := ih.1 h
        exact ⟨y :: before, z, after, rfl, hz, List.forall_mem_cons.2 ⟨hy, hbefore⟩, rfl⟩
      · rintro ⟨before, z, after, heq, hz, hbefore, rfl⟩
        cases before with
        | nil => cases heq; exact absurd hz hy
        | cons w before =>
          cases heq
          exact ⟨_, ih.2 ⟨before, z, after, rfl, hz, fun v hv ↦ hbefore v (by simp [hv]), rfl⟩, rfl⟩

end Keyed

/-- `x`, which stands somewhere in the list, is moved directly behind `p`. -/
def moveBehind (p : Option α) (x : α) (l : List α) : Option (List α) :=
  if x ∈ l then insertBehind id p x (l.erase x) else none

variable {p : Option α} {x : α} {l l' : List α}

/-- What an insertion can do. -/
theorem insertBehind_eq_some_iff :
    insertBehind id p x l = some l' ↔
      (p = none ∧ l' = x :: l) ∨ ∃ y before after, p = some y ∧ l = before ++ y :: after ∧
        y ∉ before ∧ l' = before ++ y :: x :: after := by
  cases p with
  | none => simp [insertBehind, eq_comm]
  | some k =>
    simp only [insertBehind, behind_eq_some_iff, id, reduceCtorEq, false_and, Option.some.injEq, false_or]
    constructor
    · rintro ⟨before, y, after, rfl, rfl, hbefore, rfl⟩
      exact ⟨y, before, after, rfl, rfl, fun h ↦ hbefore y h rfl, rfl⟩
    · rintro ⟨y, before, after, rfl, rfl, hbefore, rfl⟩
      exact ⟨before, k, after, rfl, rfl, fun z hz ↦ ne_of_mem_of_not_mem hz hbefore, rfl⟩

theorem insertBehind_append {y : α} {before after : List α} (h : y ∉ before) :
    insertBehind id (some y) x (before ++ y :: after) = some (before ++ y :: x :: after) :=
  insertBehind_eq_some_iff.2 (.inr ⟨y, before, after, rfl, rfl, h, rfl⟩)

theorem insertBehind_isSome (h : ∀ y ∈ p, y ∈ l) :
    ∃ l', insertBehind id p x l = some l' := by
  cases p with
  | none => exact ⟨_, rfl⟩
  | some y =>
    obtain ⟨before, after, rfl, hy⟩ := List.eq_append_cons_of_mem (h y rfl)
    exact ⟨_, insertBehind_append hy⟩

theorem insertBehind_perm (h : insertBehind id p x l = some l') : l'.Perm (x :: l) := by
  obtain ⟨rfl, rfl⟩ | ⟨y, before, after, rfl, rfl, -, rfl⟩ := insertBehind_eq_some_iff.1 h
  · exact List.Perm.refl _
  · have hmiddle : ((before ++ [y]) ++ x :: after).Perm (x :: ((before ++ [y]) ++ after)) :=
      List.perm_middle
    simpa using hmiddle

theorem moveBehind_eq_some_iff :
    moveBehind p x l = some l' ↔ x ∈ l ∧ insertBehind id p x (l.erase x) = some l' := by
  rw [moveBehind]
  split_ifs with h
  · simp [h]
  · simp [h]

theorem moveBehind_isSome (hx : x ∈ l) (h : ∀ y ∈ p, y ∈ l ∧ y ≠ x) : ∃ l', moveBehind p x l = some l' := by
  rw [moveBehind, if_pos hx]
  exact insertBehind_isSome fun y hy ↦ (List.mem_erase_of_ne (h y hy).2).2 (h y hy).1

theorem moveBehind_perm (h : moveBehind p x l = some l') : l'.Perm l := by
  obtain ⟨hx, h⟩ := moveBehind_eq_some_iff.1 h
  exact (insertBehind_perm h).trans (List.perm_cons_erase hx).symm

/-! ### What is seen of it from a part of the list -/

variable {q : α → Bool}

/-- An insertion next to an element of the part is one in the part. -/
theorem insertBehind_filter (h : insertBehind id p x l = some l') (hx : q x = true) (hp : ∀ y ∈ p, q y = true) :
    insertBehind id p x (l.filter q) = some (l'.filter q) := by
  obtain ⟨rfl, rfl⟩ | ⟨y, before, after, rfl, rfl, hbefore, rfl⟩ := insertBehind_eq_some_iff.1 h
  · simp [insertBehind, hx]
  · have hy := hp y rfl
    simp only [List.filter_append, List.filter_cons, hy, hx, if_true]
    exact insertBehind_append fun h ↦ hbefore (List.mem_of_mem_filter h)

/-- An insertion from outside the part is not seen. -/
theorem filter_insertBehind (h : insertBehind id p x l = some l') (hx : q x = false) :
    l'.filter q = l.filter q := by
  obtain ⟨rfl, rfl⟩ | ⟨y, before, after, rfl, rfl, hbefore, rfl⟩ := insertBehind_eq_some_iff.1 h
  · simp [hx]
  · simp [List.filter_cons, hx]

theorem filter_erase_of_false (hx : q x = false) :
    (l.erase x).filter q = l.filter q := by
  induction l with
  | nil => rfl
  | cons z l ih =>
    by_cases hz : z = x
    · rw [hz, List.erase_cons_head, List.filter_cons, if_neg (by simp [hx])]
    · rw [List.erase_cons_tail (by simpa using hz), List.filter_cons, List.filter_cons, ih]

theorem filter_erase (hl : l.Nodup) : (l.erase x).filter q = (l.filter q).erase x := by
  rw [hl.erase_eq_filter, (hl.filter q).erase_eq_filter, List.filter_filter, List.filter_filter]
  congr 1
  funext z
  exact Bool.and_comm _ _

theorem moveBehind_filter (hl : l.Nodup) (h : moveBehind p x l = some l') (hx : q x = true)
    (hp : ∀ y ∈ p, q y = true) :
    moveBehind p x (l.filter q) = some (l'.filter q) := by
  obtain ⟨hmem, h⟩ := moveBehind_eq_some_iff.1 h
  refine moveBehind_eq_some_iff.2 ⟨List.mem_filter.2 ⟨hmem, hx⟩, ?_⟩
  rw [← filter_erase hl]
  exact insertBehind_filter h hx hp

theorem filter_moveBehind (h : moveBehind p x l = some l') (hx : q x = false) : l'.filter q = l.filter q := by
  obtain ⟨-, h⟩ := moveBehind_eq_some_iff.1 h
  rw [filter_insertBehind h hx, filter_erase_of_false hx]

/-! ### New elements -/

section New

variable (new : α → Bool)

/-- The new elements directly behind `k`. -/
def newBehind : List α → α → List α
  | [], _ => []
  | y :: l, k => if y = k then l.takeWhile new else newBehind l k

/-- The new elements of `desired`, each put behind the element before it, which is `p` at the start. -/
def insertNew (p : Option α) : List α → List α → Option (List α)
  | [], l => some l
  | x :: desired, l =>
    if new x then (insertBehind id p x l).bind (insertNew (some x) desired)
    else insertNew (some x) desired l

variable {new} {desired l : List α}

variable {k : α}

theorem newBehind_of_notMem (h : k ∉ desired) : newBehind new desired k = [] := by
  induction desired with
  | nil => rfl
  | cons y desired ih =>
    rw [List.mem_cons, not_or] at h
    rw [newBehind, if_neg (Ne.symm h.1), ih h.2]

theorem new_of_mem_newBehind {y : α} (h : y ∈ newBehind new desired k) : new y = true := by
  induction desired with
  | nil => exact absurd h List.not_mem_nil
  | cons z desired ih =>
    rw [newBehind] at h
    split_ifs at h with hz
    · exact List.mem_takeWhile_imp h
    · exact ih h

/-- A list read off its kept elements: each is followed by the new ones behind it. -/
theorem eq_newBehind (h : desired.Nodup) :
    desired = desired.takeWhile new ++
      (desired.filter fun y ↦ !new y).flatMap fun k ↦ k :: newBehind new desired k := by
  induction desired with
  | nil => rfl
  | cons x desired ih =>
    obtain ⟨hx, hdesired⟩ := List.nodup_cons.1 h
    have htail : ∀ k ∈ desired.filter fun y ↦ !new y,
        newBehind new (x :: desired) k = newBehind new desired k := by
      intro k hk
      rw [newBehind, if_neg fun heq : x = k ↦ hx (heq ▸ List.mem_of_mem_filter hk)]
    have hrest : ((desired.filter fun y ↦ !new y).flatMap fun k ↦ k :: newBehind new (x :: desired) k) =
        (desired.filter fun y ↦ !new y).flatMap fun k ↦ k :: newBehind new desired k :=
      List.flatMap_congr fun k hk ↦ by rw [htail k hk]
    by_cases hnew : new x = true
    · rw [List.takeWhile_cons_of_pos hnew, List.filter_cons_of_neg (by simp [hnew]), hrest, List.cons_append,
        ← ih hdesired]
    · rw [List.takeWhile_cons_of_neg hnew, List.filter_cons_of_pos (by simpa using hnew), List.flatMap_cons,
        hrest, newBehind, if_pos rfl, List.nil_append, List.cons_append, ← ih hdesired]

/-- The new elements end up behind the kept ones that they follow; `p` takes those at the front. -/
theorem insertNew_some {p : α} (hdesired : desired.Nodup) (hl : l.Nodup) (hp : p ∈ l)
    (hpd : p ∉ desired) (hmem : ∀ x ∈ desired, x ∈ l ↔ new x = false) :
    insertNew new (some p) desired l = some (l.flatMap fun k ↦
      k :: if k = p then desired.takeWhile new else newBehind new desired k) := by
  induction desired generalizing p l with
  | nil =>
    have hsingle : (fun k ↦ k :: if k = p then ([] : List α).takeWhile new else newBehind new [] k) =
        fun k ↦ [k] := by
      funext k
      simp [newBehind]
    rw [insertNew, hsingle, List.flatMap_singleton']
  | cons x desired ih =>
    obtain ⟨hx, hdesired⟩ := List.nodup_cons.1 hdesired
    obtain ⟨hpx, hpd⟩ := not_or.1 (List.mem_cons.not.1 hpd)
    obtain ⟨hxl, hmem⟩ := List.forall_mem_cons.1 hmem
    rw [insertNew]
    by_cases hnew : new x = true
    · have hxnot : x ∉ l := fun h ↦ by simp [hxl.1 h] at hnew
      obtain ⟨before, after, rfl, hbefore⟩ := List.eq_append_cons_of_mem hp
      have hins : insertBehind id (some p) x (before ++ p :: after) = some (before ++ p :: x :: after) :=
        insertBehind_append hbefore
      have hperm := insertBehind_perm hins
      have hnodup := hperm.nodup_iff.2 (List.nodup_cons.2 ⟨hxnot, hl⟩)
      rw [if_pos hnew, hins, Option.bind_some, ih hdesired hnodup (by simp) hx]
      · have hafter : p ∉ after := fun h ↦ (List.nodup_middle.1 hl).notMem (by simp [h])
        have hother : ∀ part : List α, p ∉ part → x ∉ part →
            (part.flatMap fun k ↦ k :: if k = x then desired.takeWhile new else newBehind new desired k) =
              part.flatMap fun k ↦ k :: if k = p then (x :: desired).takeWhile new
                else newBehind new (x :: desired) k := by
          intro part hppart hxpart
          refine List.flatMap_congr fun k hk ↦ ?_
          rw [if_neg (ne_of_mem_of_not_mem hk hxpart), if_neg (ne_of_mem_of_not_mem hk hppart), newBehind,
            if_neg (ne_of_mem_of_not_mem hk hxpart).symm]
        simp only [List.mem_append, List.mem_cons, not_or] at hxnot
        simp only [List.flatMap_append, List.flatMap_cons, hother before hbefore hxnot.1,
          hother after hafter hxnot.2.2, if_neg hpx, if_true, newBehind_of_notMem hpd,
          List.takeWhile_cons_of_pos hnew, List.cons_append, List.nil_append]
      · intro z hz
        rw [← hmem z hz, hperm.mem_iff, List.mem_cons]
        exact or_iff_right (ne_of_mem_of_not_mem hz hx)
    · have hold : new x = false := by simpa using hnew
      rw [if_neg hnew, ih hdesired hl (hxl.2 hold) hx hmem]
      refine congrArg some (List.flatMap_congr fun k _ ↦ ?_)
      by_cases hkp : k = p
      · rw [if_pos hkp, hkp, if_neg hpx, newBehind_of_notMem hpd, List.takeWhile_cons_of_neg hnew]
      · rw [if_neg hkp, newBehind]
        exact congrArg (k :: ·) (if_congr eq_comm rfl rfl)

/-- **The new elements end up behind the kept ones that they follow.** -/
theorem insertNew_eq (hdesired : desired.Nodup) (hl : l.Nodup)
    (hmem : ∀ x ∈ desired, x ∈ l ↔ new x = false) :
    insertNew new none desired l = some (desired.takeWhile new ++
      l.flatMap fun k ↦ k :: newBehind new desired k) := by
  cases desired with
  | nil =>
    have hsingle : (fun k : α ↦ k :: newBehind new [] k) = fun k ↦ [k] := rfl
    rw [insertNew, hsingle, List.flatMap_singleton', List.takeWhile_nil, List.nil_append]
  | cons x desired =>
    obtain ⟨hx, hdesired⟩ := List.nodup_cons.1 hdesired
    obtain ⟨hxl, hmem⟩ := List.forall_mem_cons.1 hmem
    have htail : (fun k ↦ k :: if k = x then desired.takeWhile new else newBehind new desired k) =
        fun k ↦ k :: newBehind new (x :: desired) k := by
      funext k
      rw [newBehind]
      exact congrArg (k :: ·) (if_congr eq_comm rfl rfl)
    rw [insertNew]
    by_cases hnew : new x = true
    · have hxnot : x ∉ l := fun h ↦ by simp [hxl.1 h] at hnew
      have hother : (l.flatMap fun k ↦ k :: if k = x then desired.takeWhile new
          else newBehind new desired k) = l.flatMap fun k ↦ k :: newBehind new (x :: desired) k := by
        rw [htail]
      rw [if_pos hnew, insertBehind, Option.bind_some,
        insertNew_some hdesired (List.nodup_cons.2 ⟨hxnot, hl⟩) (by simp) hx, List.flatMap_cons, if_pos rfl,
        hother, List.takeWhile_cons_of_pos hnew]
      intro z hz
      rw [← hmem z hz, List.mem_cons]
      exact or_iff_right (ne_of_mem_of_not_mem hz hx)
    · have hold : new x = false := by simpa using hnew
      rw [if_neg hnew, insertNew_some hdesired hl (hxl.2 hold) hx hmem, htail,
        List.takeWhile_cons_of_neg hnew, List.nil_append]

end New

/-! ### Moves -/

section Moves

variable (moved : α → Bool)

/-- The moved elements, each put behind the element before it in `desired`, which is `p` at the start. -/
def moveEach (p : Option α) : List α → List α → Option (List α)
  | [], l => some l
  | x :: desired, l =>
    if moved x then (moveBehind p x l).bind (moveEach (some x) desired)
    else moveEach (some x) desired l

variable {moved} {desired l l' : List α}

/-- The moves can be made, and nothing is seen of them among the elements that stay. -/
theorem moveEach_isSome {p : Option α} (hdesired : desired.Nodup) (hl : l.Nodup)
    (hmem : ∀ x ∈ desired, x ∈ l) (hp : ∀ y ∈ p, y ∈ l ∧ y ∉ desired) :
    ∃ l', moveEach moved p desired l = some l' ∧ l'.Perm l ∧
      (l'.filter fun z ↦ !moved z) = l.filter fun z ↦ !moved z := by
  induction desired generalizing p l with
  | nil => exact ⟨l, rfl, List.Perm.refl l, rfl⟩
  | cons x desired ih =>
    obtain ⟨hx, hdesired⟩ := List.nodup_cons.1 hdesired
    obtain ⟨hxl, hmem⟩ := List.forall_mem_cons.1 hmem
    rw [moveEach]
    by_cases hmoved : moved x = true
    · obtain ⟨l₁, hl₁⟩ := moveBehind_isSome hxl fun y hy ↦
        ⟨(hp y hy).1, fun heq ↦ (hp y hy).2 (heq ▸ List.mem_cons_self)⟩
      have hperm := moveBehind_perm hl₁
      have hnext : ∀ y ∈ some x, y ∈ l₁ ∧ y ∉ desired := by
        rintro _ ⟨⟩
        exact ⟨hperm.mem_iff.2 hxl, hx⟩
      obtain ⟨l', heq, hperm', hfilter⟩ :=
        ih hdesired (hperm.nodup_iff.2 hl) (fun z hz ↦ hperm.mem_iff.2 (hmem z hz)) hnext
      refine ⟨l', by rw [if_pos hmoved, hl₁, Option.bind_some, heq], hperm'.trans hperm, ?_⟩
      rw [hfilter, filter_moveBehind hl₁ (by simp [hmoved])]
    · have hnext : ∀ y ∈ some x, y ∈ l ∧ y ∉ desired := by
        rintro _ ⟨⟩
        exact ⟨hxl, hx⟩
      rw [if_neg hmoved]
      exact ih hdesired hl hmem hnext

/-- An element put behind its neighbour of the list takes its place among the elements placed so far. -/
theorem insertBehind_neighbour {before after : List α} {x : α} (h : (before ++ x :: after).Nodup)
    (hbefore : ∀ z ∈ before, q z = true) (hx : q x = false) :
    insertBehind id before.getLast? x ((before ++ x :: after).filter q) =
      some ((before ++ x :: after).filter fun z ↦ q z || z = x) := by
  have hxnot : x ∉ before ++ after := (List.nodup_middle.1 h).notMem
  have hfilter : ∀ part : List α, x ∉ part → (part.filter fun z ↦ q z || z = x) = part.filter q := by
    intro part hpart
    refine List.filter_congr fun z hz ↦ ?_
    simp [ne_of_mem_of_not_mem hz hpart]
  rw [List.mem_append, not_or] at hxnot
  rw [List.filter_append, List.filter_append, List.filter_cons_of_neg (by simp [hx]),
    List.filter_cons_of_pos (by simp), hfilter before hxnot.1, hfilter after hxnot.2,
    List.filter_eq_self.2 hbefore]
  obtain rfl | ⟨first, y, rfl⟩ := before.eq_nil_or_concat'
  · rfl
  · have hy : y ∉ first := by
      have := (List.nodup_append.1 h).1
      exact fun hmem ↦ (List.nodup_append.1 this).2.2 y hmem y (by simp) rfl
    rw [List.getLast?_concat, List.append_assoc, List.append_assoc]
    exact insertBehind_append hy

/-- Once the elements that stay are in the order of the list, every move keeps the elements placed so
far in it. -/
theorem moveEach_of_filter {before rest : List α} (h : (before ++ rest).Nodup)
    (hperm : l.Perm (before ++ rest))
    (hplaced : (l.filter fun z ↦ !moved z || z ∈ before) =
      (before ++ rest).filter fun z ↦ !moved z || z ∈ before) :
    moveEach moved before.getLast? rest l = some (before ++ rest) := by
  induction rest generalizing before l with
  | nil =>
    rw [moveEach]
    refine congrArg some ?_
    have hall : ∀ part : List α, part.Perm (before ++ []) →
        (part.filter fun z ↦ !moved z || z ∈ before) = part := by
      intro part hpart
      refine List.filter_eq_self.2 fun z hz ↦ ?_
      have hmem := hpart.mem_iff.1 hz
      simp only [List.append_nil] at hmem
      simp [hmem]
    rw [← hall l hperm, hplaced, hall _ (List.Perm.refl _)]
  | cons x rest ih =>
    have hgrow : before ++ x :: rest = (before ++ [x]) ++ rest := by simp
    have hlast : (before ++ [x]).getLast? = some x := List.getLast?_concat
    have hxbefore : x ∉ before := fun hx ↦ (List.nodup_middle.1 h).notMem (by simp [hx])
    have hseen : (fun z ↦ !moved z || decide (z ∈ before ++ [x])) =
        fun z ↦ (!moved z || decide (z ∈ before)) || decide (z = x) := by
      funext z
      simp [Bool.or_assoc]
    rw [moveEach]
    by_cases hmoved : moved x = true
    · have hxl : x ∈ l := hperm.mem_iff.2 (by simp)
      have hprev : ∀ y ∈ before.getLast?, y ∈ before := fun y hy ↦ List.mem_of_getLast? hy
      obtain ⟨l₁, hl₁⟩ := moveBehind_isSome hxl fun y hy ↦
        ⟨hperm.mem_iff.2 (List.mem_append_left _ (hprev y hy)), ne_of_mem_of_not_mem (hprev y hy) hxbefore⟩
      have hperm₁ := (moveBehind_perm hl₁).trans hperm
      rw [if_pos hmoved, hl₁, Option.bind_some, hgrow, ← hlast]
      refine ih (hgrow ▸ h) (hgrow ▸ hperm₁) ?_
      rw [← hgrow, hseen]
      have hxnot : (!moved x || decide (x ∈ before)) = false := by simp [hmoved, hxbefore]
      have hothers : ((l.erase x).filter fun z ↦ (!moved z || decide (z ∈ before)) || decide (z = x)) =
          l.filter fun z ↦ !moved z || decide (z ∈ before) := by
        rw [(hperm.nodup_iff.2 h).erase_eq_filter, List.filter_filter]
        refine List.filter_congr fun z _ ↦ ?_
        by_cases hz : z = x
        · rw [hz, hxnot]
          simp
        · simp [hz]
      have hinsert := insertBehind_filter
        (q := fun z ↦ (!moved z || decide (z ∈ before)) || decide (z = x))
        (moveBehind_eq_some_iff.1 hl₁).2 (by simp) fun y hy ↦ by simp [hprev y hy]
      rw [hothers, hplaced, insertBehind_neighbour h (fun z hz ↦ by simp [hz]) hxnot] at hinsert
      exact (Option.some.inj hinsert).symm
    · rw [if_neg hmoved, hgrow, ← hlast]
      refine ih (hgrow ▸ h) (hgrow ▸ hperm) ?_
      have hsame : (fun z ↦ !moved z || decide (z ∈ before ++ [x])) =
          fun z ↦ !moved z || decide (z ∈ before) := by
        rw [hseen]
        funext z
        by_cases hz : z = x
        · simp [hz, hmoved]
        · simp [hz]
      rw [← hgrow, hsame, hplaced]

/-- **Moves reach the order** of the list exactly when the elements that stay have it from the start. -/
theorem moveEach_eq_iff (h : desired.Nodup) (hperm : l.Perm desired) :
    moveEach moved none desired l = some desired ↔
      (l.filter fun z ↦ !moved z) = desired.filter fun z ↦ !moved z := by
  constructor
  · intro heq
    obtain ⟨l', heq', -, hfilter⟩ : ∃ l', moveEach moved none desired l = some l' ∧ l'.Perm l ∧
        (l'.filter fun z ↦ !moved z) = l.filter fun z ↦ !moved z :=
      moveEach_isSome h (hperm.nodup_iff.2 h) (fun x hx ↦ hperm.mem_iff.2 hx) (by simp)
    rw [heq] at heq'
    rw [Option.some.inj heq', hfilter]
  · intro heq
    have hplaced : (l.filter fun z ↦ !moved z || z ∈ ([] : List α)) =
        ([] ++ desired).filter fun z ↦ !moved z || z ∈ ([] : List α) := by
      simpa using heq
    exact @moveEach_of_filter α _ moved l [] desired h hperm hplaced

end Moves

/-! ### Blocks -/

section Blocks

variable {β : Type*} {f : α → List β} {l l' : List α}

omit [DecidableEq α] in
theorem flatMap_filter_isEmpty : (l.filter fun x ↦ !(f x).isEmpty).flatMap f = l.flatMap f := by
  induction l with
  | nil => rfl
  | cons x l ih =>
    by_cases hx : (f x).isEmpty
    · rw [List.filter_cons_of_neg (by simp [hx]), ih, List.flatMap_cons, List.isEmpty_iff.1 hx,
        List.nil_append]
    · rw [List.filter_cons_of_pos (by simpa using hx), List.flatMap_cons, List.flatMap_cons, ih]

omit [DecidableEq α] in
theorem eq_of_flatMap_eq (hl : ∀ x ∈ l, f x ≠ []) (hl' : ∀ x ∈ l', f x ≠ [])
    (hdisjoint : ∀ x ∈ l, ∀ y ∈ l', ∀ z ∈ f x, z ∈ f y → x = y) (h : l.flatMap f = l'.flatMap f) :
    l = l' := by
  induction l generalizing l' with
  | nil =>
    cases l' with
    | nil => rfl
    | cons y l' =>
      rw [List.flatMap_nil, List.flatMap_cons] at h
      exact absurd (List.append_eq_nil_iff.1 h.symm).1 (hl' y (by simp))
  | cons x l ih =>
    obtain ⟨z, rest, hx⟩ := List.exists_cons_of_ne_nil (hl x (by simp))
    cases l' with
    | nil =>
      rw [List.flatMap_nil, List.flatMap_cons] at h
      exact absurd (List.append_eq_nil_iff.1 h).1 (hl x (by simp))
    | cons y l' =>
      obtain ⟨z', rest', hy⟩ := List.exists_cons_of_ne_nil (hl' y (by simp))
      rw [List.flatMap_cons, List.flatMap_cons] at h
      have hz : z = z' := by
        rw [hx, hy] at h
        exact (List.cons.inj h).1
      obtain rfl : x = y := hdisjoint x (by simp) y (by simp) z (by simp [hx]) (by simp [hy, hz])
      rw [ih (fun w hw ↦ hl w (by simp [hw])) (fun w hw ↦ hl' w (by simp [hw]))
        (fun w hw v hv ↦ hdisjoint w (by simp [hw]) v (by simp [hv])) (List.append_cancel_left h)]

omit [DecidableEq α] in
/-- Two lists of the same elements give the same blocks in sequence exactly when the elements whose
block is not empty come in the same order. -/
theorem flatMap_eq_iff (hperm : l.Perm l')
    (hdisjoint : ∀ x ∈ l, ∀ y ∈ l, ∀ z ∈ f x, z ∈ f y → x = y) :
    l.flatMap f = l'.flatMap f ↔
      (l.filter fun x ↦ !(f x).isEmpty) = l'.filter fun x ↦ !(f x).isEmpty := by
  constructor
  · intro h
    refine eq_of_flatMap_eq (f := f) ?_ ?_ ?_ ?_
    · intro x hx
      simpa using (List.mem_filter.1 hx).2
    · intro x hx
      simpa using (List.mem_filter.1 hx).2
    · intro x hx y hy
      exact hdisjoint x (List.mem_of_mem_filter hx) y (hperm.mem_iff.2 (List.mem_of_mem_filter hy))
    · rw [flatMap_filter_isEmpty, flatMap_filter_isEmpty, h]
  · intro h
    rw [← flatMap_filter_isEmpty, h, flatMap_filter_isEmpty]

end Blocks

end Machine
