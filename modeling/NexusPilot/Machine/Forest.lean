import Mathlib.Data.Fintype.Card
import Mathlib.Data.Set.Finite.List
import Mathlib.Logic.Relation

/-!
# Orders along a relation

A list that is grown by putting the successors of each element behind it. Such a list is an order along the relation as
far as it goes (`Follows`), and it leaves out what only a cycle holds back: **`subset_of_acyclic`** says that without
cycles nothing is left out, and **`acyclic_of_follows`** that with one something is.
-/

namespace Machine

variable {α : Type*} [DecidableEq α] {E : α → α → Prop} {order : List α}

/-- The successors of each element of the list are in the list, behind it. -/
def Follows (E : α → α → Prop) (order : List α) : Prop :=
  ∀ p c, E p c → p ∈ order → c ∈ order ∧ order.idxOf p < order.idxOf c

/-- Elements lead to later ones only. -/
theorem Follows.transGen (h : Follows E order) {p c : α} (hpath : Relation.TransGen E p c) (hp : p ∈ order) :
    c ∈ order ∧ order.idxOf p < order.idxOf c := by
  induction hpath with
  | single hedge => exact h _ _ hedge hp
  | tail _ hedge ih =>
    obtain ⟨hb, hlt⟩ := ih
    obtain ⟨hc, hlt'⟩ := h _ _ hedge hb
    exact ⟨hc, hlt.trans hlt'⟩

/-- **A list with every element that has a successor shows that there is no cycle.** -/
theorem acyclic_of_follows (h : Follows E order) (hall : ∀ p c, E p c → p ∈ order) (x : α) :
    ¬ Relation.TransGen E x x := by
  intro hcycle
  obtain ⟨c, hedge, -⟩ := Relation.TransGen.head'_iff.1 hcycle
  exact lt_irrefl _ (h.transGen hcycle (hall x c hedge)).2

/-- **Without cycles every element is reached**, when each is in the list or the successor of another one. -/
theorem subset_of_acyclic (h : Follows E order) {all : List α}
    (hroots : ∀ c ∈ all, c ∈ order ∨ ∃ p ∈ all, E p c) (hacyclic : ∀ x, ¬ Relation.TransGen E x x) :
    all ⊆ order := by
  let before (p c : {x // x ∈ all}) : Prop := Relation.TransGen E p.1 c.1
  have hwf : WellFounded before := by
    haveI : Finite {x // x ∈ all} := (List.finite_toSet all).to_subtype
    haveI : IsTrans _ before := ⟨fun _ _ _ hpq hqr ↦ Relation.TransGen.trans hpq hqr⟩
    haveI : Std.Irrefl before := ⟨fun p ↦ hacyclic p.1⟩
    exact Finite.wellFounded_of_trans_of_irrefl before
  intro c hc
  suffices hreached : ∀ c : {x // x ∈ all}, c.1 ∈ order from hreached ⟨c, hc⟩
  intro c
  induction c using hwf.induction with
  | _ c ih =>
    obtain hmem | ⟨p, hp, hedge⟩ := hroots c.1 c.2
    · exact hmem
    · exact (h p c.1 hedge (ih ⟨p, hp⟩ (Relation.TransGen.single hedge))).1

end Machine
