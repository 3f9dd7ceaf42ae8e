import Mathlib.Data.List.Chain

/-!
# Words in a text of pieces

A text that is put together from pieces holds a word where one of the pieces does, and perhaps also across
the borders of pieces. `infix_flatten_iff` rules the second out: when at every border one of the two pieces
shows a symbol that no word has, the words of the text are those of its pieces.
-/

namespace Scan

variable {α : Type*}

/-- At the border of two pieces one of them shows a symbol of the class `outside`. -/
def Border (outside : α → Bool) (p q : List α) : Prop :=
  p.getLast?.any outside = true ∨ q.head?.any outside = true
  deriving Decidable

variable {outside : α → Bool} {w : List α}

/-- No word stands across a border. -/
theorem infix_append_iff (hw : ∀ a ∈ w, outside a = false) {p q : List α} (h : Border outside p q) :
    w <:+: p ++ q ↔ w <:+: p ∨ w <:+: q := by
  rw [List.infix_append_iff_ne_nil]
  refine ⟨?_, fun hpq ↦ hpq.imp_right .inl⟩
  rintro (hp | hq | ⟨s, t, hs, ht, rfl, htail, hinit⟩)
  · exact .inl hp
  · exact .inr hq
  · -- the last symbol of `p` and the first of `q` would both be of the word
    obtain hlast | hfirst := h
    · obtain ⟨a, ha, hout⟩ := (Option.any_eq_true _ _).1 hlast
      have hmem : a ∈ s := by
        obtain ⟨r, rfl⟩ := htail
        rw [List.getLast?_append_of_ne_nil _ hs] at ha
        exact List.mem_of_getLast? ha
      rw [hw a (List.mem_append_left t hmem)] at hout
      cases hout
    · obtain ⟨a, ha, hout⟩ := (Option.any_eq_true _ _).1 hfirst
      have hmem : a ∈ t := by
        obtain ⟨r, rfl⟩ := hinit
        rw [List.head?_append_of_ne_nil _ ht] at ha
        exact List.mem_of_head? ha
      rw [hw a (List.mem_append_right s hmem)] at hout
      cases hout

/-- **The words of a text are those of its pieces**, when the pieces show a border one after another. -/
theorem infix_flatten_iff (hw : ∀ a ∈ w, outside a = false) (hne : w ≠ []) :
    ∀ {pieces : List (List α)}, pieces.IsChain (Border outside) →
      (w <:+: pieces.flatten ↔ ∃ p ∈ pieces, w <:+: p)
  | [], _ => by simpa using hne
  | [p], _ => by simp
  | p :: q :: pieces, h => by
    obtain ⟨hborder, hrest⟩ := List.isChain_cons_cons.1 h
    have hborder' : Border outside p (q :: pieces).flatten := by
      obtain hlast | hfirst := hborder
      · exact .inl hlast
      · cases q with
        | nil => cases hfirst
        | cons a q => exact .inr hfirst
    rw [List.flatten_cons, infix_append_iff hw hborder', infix_flatten_iff hw hne hrest]
    exact (List.exists_mem_cons_iff _ _ _).symm

end Scan
