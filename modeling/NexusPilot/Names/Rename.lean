import Mathlib.Data.List.Nodup

/-!
# Renamings

A **renaming** is a finite list of moves from an old name to a new one, over an arbitrary type of names:
no move leaves a name where it is, no two moves start at one name and no two end at one name. It is read
simultaneously, so chains and swaps are renamings like any others.

The second half is bookkeeping. Two lists of names, before and after, a list of dropped names and a list
of added ones **account** for a renaming when the names before, less the dropped, renamed, plus the
added, are the names after, and the renaming does not merge two of the names it keeps.
`Renaming.accounts_iff` says exactly when the lists that one computes by looking names up do so.
-/

namespace Names

variable {α : Type*} [DecidableEq α]

/-- What an association list with distinct keys has for a key. -/
theorem lookup_eq_some_of_mem {β : Type*} {l : List (α × β)} (hnodup : (l.map Prod.fst).Nodup) {k : α}
    {v : β} (h : (k, v) ∈ l) : l.lookup k = some v := by
  cases hfound : l.lookup k with
  | none => simpa using List.lookup_eq_none_iff.1 hfound _ h
  | some v' =>
    obtain ⟨l₁, l₂, hsplit, -⟩ := List.lookup_eq_some_iff.1 hfound
    have hmem : (k, v') ∈ l := by simp [hsplit]
    have hsame : (k, v') = (k, v) := List.inj_on_of_nodup_map hnodup hmem h rfl
    exact congrArg (fun entry ↦ some entry.2) hsame

/-- The moves of a list that do change a name. -/
def effective (moves : List (α × α)) : List (α × α) :=
  moves.filter fun move ↦ move.1 ≠ move.2

variable {m : α × α}

theorem mem_effective {moves : List (α × α)} :
    m ∈ effective moves ↔ m ∈ moves ∧ m.1 ≠ m.2 := by
  simp [effective]

@[simp]
theorem effective_append (moves more : List (α × α)) :
    effective (moves ++ more) = effective moves ++ effective more :=
  List.filter_append ..

theorem effective_cons_of_eq (h : m.1 = m.2) (moves : List (α × α)) :
    effective (m :: moves) = effective moves := by
  simp [effective, h]

theorem effective_cons_of_ne (h : m.1 ≠ m.2) (moves : List (α × α)) :
    effective (m :: moves) = m :: effective moves := by
  simp [effective, h]

/-- The names that the moves of a list leave. -/
def oldsOf (moves : List (α × α)) : List α :=
  (effective moves).map Prod.fst

/-- The names that the moves of a list take. -/
def newsOf (moves : List (α × α)) : List α :=
  (effective moves).map Prod.snd

/-- The name that a list of moves, read simultaneously, gives to a name: moves that keep their name ask
for nothing. -/
def rename (moves : List (α × α)) (x : α) : α :=
  ((effective moves).lookup x).getD x

/-- A list of moves that all change a name, from distinct names to distinct names. -/
structure Renaming (α : Type*) where
  moves : List (α × α)
  ne : ∀ m ∈ moves, m.1 ≠ m.2
  olds_nodup : (moves.map Prod.fst).Nodup
  news_nodup : (moves.map Prod.snd).Nodup

namespace Renaming

variable (r : Renaming α)

/-- The names that are renamed. -/
def olds : List α :=
  r.moves.map Prod.fst

/-- The names that they get. -/
def news : List α :=
  r.moves.map Prod.snd

/-- The name that a name gets. -/
def apply (x : α) : α :=
  rename r.moves x

variable {r}

variable {x y o n : α} {after : List α}

omit [DecidableEq α] in
theorem mem_olds : x ∈ r.olds ↔ ∃ n, (x, n) ∈ r.moves := by
  simp [olds]

omit [DecidableEq α] in
theorem mem_news : y ∈ r.news ↔ ∃ o, (o, y) ∈ r.moves := by
  simp [news]

theorem effective_moves : effective r.moves = r.moves :=
  List.filter_eq_self.2 fun m hm ↦ by simpa using r.ne m hm

omit [DecidableEq α] in
omit [DecidableEq α] in
/-- A name is given once. -/
theorem old_unique {o' : α} (h : (o, n) ∈ r.moves) (h' : (o', n) ∈ r.moves) : o = o' := by
  have hm := List.inj_on_of_nodup_map r.news_nodup h h' rfl
  exact congrArg Prod.fst hm

theorem apply_of_mem (h : (o, n) ∈ r.moves) : r.apply o = n := by
  have hlookup : r.moves.lookup o = some n := lookup_eq_some_of_mem r.olds_nodup h
  simp [apply, rename, effective_moves, hlookup]

theorem apply_of_not_mem (h : x ∉ r.olds) : r.apply x = x := by
  have hlookup : r.moves.lookup x = none := by
    refine List.lookup_eq_none_iff.2 fun m hm ↦ bne_iff_ne.2 ?_
    rintro rfl
    exact h (List.mem_map.2 ⟨m, hm, rfl⟩)
  simp [apply, rename, effective_moves, hlookup]

/-! ### Accounting for names -/

/-- The names before that get no name after. -/
def dropped (r : Renaming α) (before after : List α) : List α :=
  before.filter fun x ↦ r.apply x ∉ after

/-- The names after that no name before has or gets. -/
def added (r : Renaming α) (before after : List α) : List α :=
  after.filter fun y ↦ y ∉ before ∧ y ∉ r.news

theorem mem_dropped {before : List α} :
    x ∈ r.dropped before after ↔ x ∈ before ∧ r.apply x ∉ after := by
  simp [dropped]

theorem mem_added {before : List α} :
    y ∈ r.added before after ↔ y ∈ after ∧ y ∉ before ∧ y ∉ r.news := by
  simp [added]

end Renaming

/-- The names `before`, less the `dropped`, renamed, plus the `added`, are the names `after`, and no two
of the names that are kept get one name. -/
def Accounts (before after dropped added : List α) (rename : α → α) : Prop :=
  (∀ y, y ∈ after ↔ (∃ x ∈ before, x ∉ dropped ∧ rename x = y) ∨ y ∈ added) ∧
    ∀ x ∈ before, ∀ x' ∈ before, x ∉ dropped → x' ∉ dropped → rename x = rename x' → x = x'

/-- Every name that a move takes from the names before is itself moved away. -/
def Renaming.Vacates (r : Renaming α) (before : List α) : Prop :=
  ∀ n ∈ r.news, n ∈ before → n ∈ r.olds

/-- Every name that is moved away and still stands after is given to another. -/
def Renaming.Refills (r : Renaming α) (after : List α) : Prop :=
  ∀ o ∈ r.olds, o ∈ after → o ∈ r.news

section Accounting

variable {r : Renaming α} {before after : List α}

theorem Renaming.not_mem_dropped_of_mem {o n : α} (h : (o, n) ∈ r.moves)
    (hnews : ∀ n ∈ r.news, n ∈ after) : o ∉ r.dropped before after := by
  intro hdropped
  have hn : r.apply o ∉ after := (mem_dropped.1 hdropped).2
  rw [apply_of_mem h] at hn
  exact hn (hnews n (mem_news.2 ⟨o, h⟩))

/-- **Looking names up accounts for a renaming exactly when it vacates the old names it takes and
refills those it leaves behind.** -/
theorem Renaming.accounts_iff (holds : ∀ o ∈ r.olds, o ∈ before) (hnews : ∀ n ∈ r.news, n ∈ after) :
    Accounts before after (r.dropped before after) (r.added before after) r.apply ↔
      r.Vacates before ∧ r.Refills after := by
  constructor
  · rintro ⟨hcover, hinj⟩
    refine ⟨fun n hn hbefore ↦ ?_, fun o ho hafter ↦ ?_⟩
    · -- a name that stays and the one that is moved onto it would both be kept
      by_contra hold
      obtain ⟨o, hmove⟩ := mem_news.1 hn
      have hstay : r.apply n = n := apply_of_not_mem hold
      have hkept : n ∉ r.dropped before after := fun h ↦ by
        have := (mem_dropped.1 h).2
        rw [hstay] at this
        exact this (hnews n hn)
      have ho : o ∈ before := holds o (mem_olds.2 ⟨n, hmove⟩)
      have heq := hinj o ho n hbefore (not_mem_dropped_of_mem hmove hnews) hkept
        (by rw [apply_of_mem hmove, hstay])
      exact r.ne _ hmove heq
    · by_contra hnew
      obtain ⟨x, -, -, hx⟩ | hadded := (hcover o).1 hafter
      · by_cases hmoved : x ∈ r.olds
        · obtain ⟨n, hmove⟩ := mem_olds.1 hmoved
          rw [apply_of_mem hmove] at hx
          exact hnew (mem_news.2 ⟨x, hx ▸ hmove⟩)
        · rw [apply_of_not_mem hmoved] at hx
          exact hmoved (hx ▸ ho)
      · exact (mem_added.1 hadded).2.1 (holds o ho)
  · rintro ⟨hvacates, hrefills⟩
    refine ⟨fun y ↦ ⟨fun hafter ↦ ?_, ?_⟩, ?_⟩
    · by_cases hnew : y ∈ r.news
      · obtain ⟨o, hmove⟩ := mem_news.1 hnew
        exact .inl ⟨o, holds o (mem_olds.2 ⟨y, hmove⟩), not_mem_dropped_of_mem hmove hnews,
          apply_of_mem hmove⟩
      · by_cases hbefore : y ∈ before
        · have hstay : r.apply y = y := apply_of_not_mem fun hold ↦ hnew (hrefills y hold hafter)
          refine .inl ⟨y, hbefore, fun h ↦ ?_, hstay⟩
          have := (mem_dropped.1 h).2
          rw [hstay] at this
          exact this hafter
        · exact .inr (mem_added.2 ⟨hafter, hbefore, hnew⟩)
    · rintro (⟨x, hbefore, hkept, rfl⟩ | hadded)
      · by_contra hafter
        exact hkept (mem_dropped.2 ⟨hbefore, hafter⟩)
      · exact (mem_added.1 hadded).1
    · -- two kept names with one new name are both moved, or both stay
      intro x hx x' hx' _ _ heq
      by_cases hold : x ∈ r.olds <;> by_cases hold' : x' ∈ r.olds
      · obtain ⟨n, hmove⟩ := mem_olds.1 hold
        obtain ⟨n', hmove'⟩ := mem_olds.1 hold'
        rw [apply_of_mem hmove, apply_of_mem hmove'] at heq
        exact old_unique hmove (heq ▸ hmove')
      · obtain ⟨n, hmove⟩ := mem_olds.1 hold
        rw [apply_of_mem hmove, apply_of_not_mem hold'] at heq
        exact absurd (hvacates x' (mem_news.2 ⟨x, heq ▸ hmove⟩) hx') hold'
      · obtain ⟨n', hmove'⟩ := mem_olds.1 hold'
        rw [apply_of_not_mem hold, apply_of_mem hmove'] at heq
        exact absurd (hvacates x (mem_news.2 ⟨x', heq ▸ hmove'⟩) hx) hold
      · rwa [apply_of_not_mem hold, apply_of_not_mem hold'] at heq

end Accounting

end Names
