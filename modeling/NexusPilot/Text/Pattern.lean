import Mathlib.Computability.RegularExpressions

/-!
# Patterns

What the patterns of a script are made of, over Mathlib's regular expressions: a class of characters, and one or more
of something. A pattern with `^` in front and `$` behind is one that the whole text has to match.
-/

namespace Text

open RegularExpression

variable {α : Type*}

/-- A class of characters: `[abc]`. -/
def oneOf (chars : List α) : RegularExpression α :=
  (chars.map RegularExpression.char).foldr (· + ·) 0

/-- One or more: `P+`. -/
def oneOrMore (P : RegularExpression α) : RegularExpression α :=
  P * P.star

variable {chars s : List α}

/-- A class matches each of its characters. -/
theorem mem_oneOf : s ∈ (oneOf chars).matches' ↔ ∃ c ∈ chars, s = [c] := by
  induction chars with
  | nil =>
    refine iff_of_false id ?_
    rintro ⟨c, hc, -⟩
    exact (nomatch hc)
  | cons c chars ih =>
    rw [oneOf, List.map_cons, List.foldr_cons, matches'_add, Language.mem_add, ← oneOf, ih, matches'_char,
      List.exists_mem_cons_iff]
    rfl

/-- A repeated class matches the texts of its characters. -/
theorem mem_star_oneOf : s ∈ (oneOf chars).star.matches' ↔ ∀ c ∈ s, c ∈ chars := by
  rw [matches'_star, Language.mem_kstar]
  constructor
  · rintro ⟨parts, rfl, hparts⟩ c hc
    obtain ⟨part, hpart, hc⟩ := List.mem_flatten.1 hc
    obtain ⟨d, hd, rfl⟩ := mem_oneOf.1 (hparts part hpart)
    rwa [List.mem_singleton.1 hc]
  · intro h
    refine ⟨s.map fun c ↦ [c], (List.flatMap_singleton' s).symm, fun part hpart ↦ ?_⟩
    obtain ⟨c, hc, rfl⟩ := List.mem_map.1 hpart
    exact mem_oneOf.2 ⟨c, h c hc, rfl⟩

/-- A class with one or more characters. -/
theorem mem_oneOrMore_oneOf :
    s ∈ (oneOrMore (oneOf chars)).matches' ↔ s ≠ [] ∧ ∀ c ∈ s, c ∈ chars := by
  rw [oneOrMore, matches'_mul, Language.mem_mul]
  constructor
  · rintro ⟨first, hfirst, rest, hrest, rfl⟩
    obtain ⟨c, hc, rfl⟩ := mem_oneOf.1 hfirst
    exact ⟨List.cons_ne_nil _ _, List.forall_mem_cons.2 ⟨hc, mem_star_oneOf.1 hrest⟩⟩
  · rintro ⟨hne, hchars⟩
    cases s with
    | nil => exact absurd rfl hne
    | cons c s =>
      obtain ⟨hc, hs⟩ := List.forall_mem_cons.1 hchars
      exact ⟨[c], mem_oneOf.2 ⟨c, hc, rfl⟩, s, mem_star_oneOf.2 hs, rfl⟩

end Text
