import Mathlib.Data.List.AList
import Mathlib.Tactic.Common

/-!
# Tables with a primary key

A hash map or a database table with a primary key, as Mathlib's association lists with distinct keys.
The lemmas are what a program's proofs read: the look-up after each operation, as an `if` on the key.
-/

namespace Machine

/-- A finite map from keys to rows. -/
abbrev Table (κ α : Type*) := AList fun _ : κ ↦ α

namespace Table

variable {κ α : Type*} [DecidableEq κ]

theorem lookup_insert (t : Table κ α) (key other : κ) (row : α) :
    AList.lookup other (AList.insert key row t) =
      if other = key then some row else AList.lookup other t := by
  rcases eq_or_ne other key with rfl | hne
  · rw [if_pos rfl]
    exact AList.lookup_insert t
  · rw [if_neg hne]
    exact AList.lookup_insert_ne hne

/-- What was there stays there. -/
theorem isSome_lookup_insert {t : Table κ α} {key other : κ} {row : α}
    (h : key = other ∨ (AList.lookup other t).isSome = true) :
    (AList.lookup other (AList.insert key row t)).isSome = true := by
  rw [lookup_insert]
  split
  · rfl
  · next hne => exact h.resolve_left (Ne.symm hne)

theorem lookup_erase (t : Table κ α) (key other : κ) :
    AList.lookup other (AList.erase key t) =
      if other = key then none else AList.lookup other t := by
  rcases eq_or_ne other key with rfl | hne
  · rw [if_pos rfl]
    exact AList.lookup_erase other t
  · rw [if_neg hne]
    exact AList.lookup_erase_ne hne

/-- The rows that pass a test. -/
def filter (t : Table κ α) (p : α → Bool) : Table κ α where
  entries := t.entries.filter fun e ↦ p e.2
  nodupKeys := t.nodupKeys.sublist List.filter_sublist

theorem lookup_filter (t : Table κ α) (p : α → Bool) (key : κ) :
    (t.filter p).lookup key = (t.lookup key).filter p := by
  refine Option.ext fun row ↦ ?_
  have hmem : row ∈ (t.filter p).lookup key ↔ row ∈ t.lookup key ∧ p row := by
    rw [AList.mem_lookup_iff, AList.mem_lookup_iff]
    exact List.mem_filter
  rw [Option.mem_def, Option.mem_def] at hmem
  rw [hmem, Option.filter_eq_some_iff]

/-! ### Counting rows -/

/-- The number of rows that pass a test. -/
def count (t : Table κ α) (p : α → Bool) : Nat :=
  t.entries.countP fun e ↦ p e.2

variable {t : Table κ α} {p : α → Bool} {key : κ} {row old : α}

/-- A row under a new key. -/
theorem count_insert_of_eq_none (h : t.lookup key = none) :
    count (t.insert key row) p = count t p + if p row then 1 else 0 := by
  have hkeys : key ∉ t.entries.keys := AList.lookup_eq_none.1 h
  have hentries : (t.insert key row).entries = ⟨key, row⟩ :: t.entries :=
    congrArg _ (List.kerase_of_notMem_keys hkeys)
  rw [count, hentries, List.countP_cons]
  rfl

/-- A row that replaces another one. -/
theorem count_insert_of_eq_some (h : t.lookup key = some old) :
    count (t.insert key row) p + (if p old then 1 else 0) = count t p + if p row then 1 else 0 := by
  have hkeys : key ∈ t.entries.keys := by
    by_contra hnot
    rw [AList.lookup_eq_none.2 hnot] at h
    cases h
  obtain ⟨found, before, after, hbefore, hentries, hkerase⟩ := List.exists_of_kerase hkeys
  have hfound : found = old := by
    have hmem : (⟨key, found⟩ : Sigma fun _ : κ ↦ α) ∈ t.entries := by
      rw [hentries]
      exact List.mem_append_right _ (List.mem_cons_self ..)
    exact Option.some.inj ((AList.mem_lookup_iff.2 hmem).symm.trans h)
  have hinsert : (t.insert key row).entries = ⟨key, row⟩ :: (before ++ after) :=
    congrArg _ hkerase
  rw [count, count, hinsert, hentries, hfound]
  simp only [List.countP_cons, List.countP_append]
  omega

end Table

end Machine
