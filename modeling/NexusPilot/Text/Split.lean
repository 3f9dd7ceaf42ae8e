import Mathlib.Data.List.Infix
import Mathlib.Tactic.Common

/-!
# Splitting at a separator

A text is cut at every place where a separator of one or more characters stands, looked for from the left and without
overlaps. The parts with the separator between them are the text again (`intercalate_split`), and a part is read back
when the separator does not begin inside of it (**`split_append`**, **`split_of_not_infix`**).
-/

namespace Text

variable {α : Type*} [DecidableEq α]

/-- The first part and the others, where `skip` characters of a separator are left out first. -/
def splitFrom (separator : List α) : ℕ → List α → List α × List (List α)
  | _, [] => ([], [])
  | skip + 1, _ :: s => splitFrom separator skip s
  | 0, c :: s =>
    if separator.isPrefixOf (c :: s) then
      let parts := splitFrom separator (separator.length - 1) s
      ([], parts.1 :: parts.2)
    else
      let parts := splitFrom separator 0 s
      (c :: parts.1, parts.2)

/-- The parts of a text. The separator is not empty. -/
def split (separator s : List α) : List (List α) :=
  (splitFrom separator 0 s).1 :: (splitFrom separator 0 s).2

variable {separator : List α}

theorem splitFrom_skip (skip : ℕ) (s : List α) :
    splitFrom separator skip s = splitFrom separator 0 (s.drop skip) := by
  induction skip generalizing s with
  | zero => rfl
  | succ skip ih =>
    cases s with
    | nil => rfl
    | cons c s => exact ih s

/-- What is behind a separator is split as a text of its own. -/
theorem split_separator_append (hne : separator ≠ []) (rest : List α) :
    split separator (separator ++ rest) = [] :: split separator rest := by
  cases separator with
  | nil => exact absurd rfl hne
  | cons c separator =>
    have hstands : (c :: separator).isPrefixOf (c :: (separator ++ rest)) = true :=
      List.isPrefixOf_iff_prefix.2 (List.prefix_append _ _)
    rw [split, split, List.cons_append, splitFrom, if_pos hstands, splitFrom_skip]
    have hdrop : (separator ++ rest).drop ((c :: separator).length - 1) = rest := List.drop_left' rfl
    rw [hdrop]

variable {s part rest : List α} {f : α → α}

/-- A character at which no separator begins belongs to the first part. -/
theorem split_cons {c : α} (h : ¬ separator <+: c :: s) :
    split separator (c :: s) =
      (c :: (splitFrom separator 0 s).1) :: (splitFrom separator 0 s).2 := by
  rw [split, splitFrom, if_neg (mt List.isPrefixOf_iff_prefix.1 h)]

/-- **A part is read back** if the separator behind it is the first one. -/
theorem split_append (hne : separator ≠ [])
    (h : ∀ before after, part = before ++ after → after ≠ [] → ¬ separator <+: after ++ (separator ++ rest)) :
    split separator (part ++ (separator ++ rest)) = part :: split separator rest := by
  induction part with
  | nil => exact split_separator_append hne rest
  | cons c part ih =>
    have hpart := ih fun before after heq hafter ↦ h (c :: before) after (congrArg (c :: ·) heq) hafter
    have hfirst : ¬ separator <+: c :: (part ++ (separator ++ rest)) :=
      h [] (c :: part) rfl (List.cons_ne_nil _ _)
    rw [split] at hpart
    rw [List.cons_append, split_cons hfirst]
    rw [(List.cons.inj hpart).1, (List.cons.inj hpart).2]

/-- **A text without a separator is one part.** -/
theorem split_of_not_infix (h : ¬ separator <:+: s) : split separator s = [s] := by
  induction s with
  | nil => rfl
  | cons c s ih =>
    have hs := ih fun hinside ↦ h (hinside.trans (List.suffix_cons c s).isInfix)
    rw [split] at hs
    rw [split_cons fun hstands ↦ h hstands.isInfix, (List.cons.inj hs).1, (List.cons.inj hs).2]

/-- **The parts make up the text.** -/
theorem intercalate_split (hne : separator ≠ []) (s : List α) : separator.intercalate (split separator s) = s := by
  induction hlen : s.length using Nat.strong_induction_on generalizing s with
  | _ n ih =>
    subst hlen
    cases s with
    | nil => rfl
    | cons c s =>
      by_cases hstands : separator <+: c :: s
      · obtain ⟨rest, hrest⟩ := hstands
        have hshort : rest.length < (c :: s).length := by
          have hpos : 0 < separator.length := List.length_pos_iff.2 hne
          rw [← hrest, List.length_append]
          omega
        have hparts : split separator rest ≠ [] := List.cons_ne_nil _ _
        rw [← hrest, split_separator_append hne, List.intercalate_cons_of_ne_nil hparts, ih _ hshort rest rfl,
          List.nil_append]
      · have hs := ih s.length (Nat.lt_succ_self _) s rfl
        rw [split] at hs
        rw [split_cons hstands, List.intercalate_cons_cons_left, hs]

/-- **A character of no separator** joins the last part before it with the first part from it on. -/
theorem split_append_cons (hne : separator ≠ []) {c : α} (hc : c ∉ separator) {last first : List α}
    {init others : List (List α)} (hs : split separator s = init ++ [last])
    (hrest : split separator (c :: rest) = first :: others) :
    split separator (s ++ c :: rest) = init ++ (last ++ first) :: others := by
  induction hlen : s.length using Nat.strong_induction_on generalizing s init last with
  | _ n ih =>
    subst hlen
    cases s with
    | nil =>
      have hparts : [] ++ [[]] = init ++ [last] := hs
      obtain ⟨rfl, hlast⟩ := List.append_inj' hparts rfl
      rw [← List.singleton_injective hlast]
      exact hrest
    | cons d s =>
      by_cases hstands : separator <+: d :: s
      · obtain ⟨s', hs'⟩ := hstands
        have hshort : s'.length < (d :: s).length := by
          have hpos : 0 < separator.length := List.length_pos_iff.2 hne
          rw [← hs', List.length_append]
          omega
        rw [← hs', split_separator_append hne] at hs
        cases init with
        | nil => cases hs
        | cons part init =>
          obtain ⟨rfl, hparts⟩ := List.cons.inj hs
          rw [← hs', List.append_assoc, split_separator_append hne, ih _ hshort hparts rfl]
          rfl
      · -- a separator that begins here would reach beyond the character
        have hbehind : ¬ separator <+: d :: (s ++ c :: rest) := by
          intro h
          have hc' : (d :: s) ++ [c] <+: d :: (s ++ c :: rest) := ⟨rest, by rw [List.append_assoc]; rfl⟩
          obtain hshort | hlong := List.prefix_or_prefix_of_prefix h hc'
          · obtain heq | hshort := List.prefix_concat_iff.1 hshort
            · rw [heq] at hc
              exact hc (List.mem_append_right _ (List.mem_singleton_self c))
            · exact hstands hshort
          · exact hc (hlong.subset (List.mem_append_right _ (List.mem_singleton_self c)))
        rw [split_cons hstands] at hs
        rw [List.cons_append, split_cons hbehind]
        cases init with
        | nil =>
          obtain ⟨rfl, hothers⟩ := List.cons.inj hs
          have hparts : split separator s = [] ++ [(splitFrom separator 0 s).1] := by rw [split, hothers]; rfl
          have hjoined := ih s.length (Nat.lt_succ_self _) hparts rfl
          obtain ⟨hfirst, hothers'⟩ := List.cons.inj hjoined
          rw [hfirst, hothers']
          rfl
        | cons part init =>
          obtain ⟨rfl, hothers⟩ := List.cons.inj hs
          have hparts : split separator s = ((splitFrom separator 0 s).1 :: init) ++ [last] := by
            rw [split, hothers]
            rfl
          have hjoined := ih s.length (Nat.lt_succ_self _) hparts rfl
          obtain ⟨hfirst, hothers'⟩ := List.cons.inj hjoined
          rw [hfirst, hothers']
          rfl

theorem isPrefixOf_map (hf : ∀ c, ∀ d ∈ separator, f c = d ↔ c = d) (s : List α) :
    separator.isPrefixOf (s.map f) = separator.isPrefixOf s := by
  induction separator generalizing s with
  | nil => rfl
  | cons d separator ih =>
    cases s with
    | nil => rfl
    | cons c s =>
      have hhead : (d == f c) = (d == c) := by
        rw [Bool.eq_iff_iff, beq_iff_eq, beq_iff_eq, eq_comm, hf c d List.mem_cons_self, eq_comm]
      rw [List.map_cons, List.isPrefixOf, List.isPrefixOf, hhead,
        ih (fun c d hd ↦ hf c d (List.mem_cons_of_mem _ hd)) s]

/-- Characters may be renamed where those of the separator are kept apart. -/
theorem split_map (hf : ∀ c, ∀ d ∈ separator, f c = d ↔ c = d) (s : List α) :
    split separator (s.map f) = (split separator s).map (List.map f) := by
  have hfrom (skip : ℕ) :
      splitFrom separator skip (s.map f) =
        ((splitFrom separator skip s).1.map f, (splitFrom separator skip s).2.map (List.map f)) := by
    induction s generalizing skip with
    | nil =>
      cases skip <;> rfl
    | cons c s ih =>
      cases skip with
      | succ skip => exact ih skip
      | zero =>
        have hstands := isPrefixOf_map hf (c :: s)
        rw [List.map_cons] at hstands ⊢
        rw [splitFrom, splitFrom, hstands]
        split
        · dsimp only
          rw [ih]
          rfl
        · dsimp only
          rw [ih]
          rfl
  rw [split, hfrom]
  rfl

/-- **A part is one part**: no separator is left in it. -/
theorem not_infix_of_mem_split (hne : separator ≠ []) (h : part ∈ split separator s) :
    ¬ separator <:+: part := by
  induction hlen : s.length using Nat.strong_induction_on generalizing s part with
  | _ n ih =>
    subst hlen
    cases s with
    | nil =>
      obtain rfl : part = [] := List.mem_singleton.1 h
      exact fun hinside ↦ hne (List.infix_nil.1 hinside)
    | cons c s =>
      by_cases hstands : separator <+: c :: s
      · obtain ⟨rest, hrest⟩ := hstands
        have hshort : rest.length < (c :: s).length := by
          have hpos : 0 < separator.length := List.length_pos_iff.2 hne
          rw [← hrest, List.length_append]
          omega
        rw [← hrest, split_separator_append hne] at h
        obtain rfl | h := List.mem_cons.1 h
        · exact fun hinside ↦ hne (List.infix_nil.1 hinside)
        · exact ih _ hshort h rfl
      · rw [split_cons hstands] at h
        obtain rfl | h := List.mem_cons.1 h
        · intro hinside
          obtain hfirst | hinside := List.infix_cons_iff.1 hinside
          · -- the first part stands in front of the text
            have hfront : (splitFrom separator 0 s).1 <+: s := by
              have hs := intercalate_split hne s
              rw [split] at hs
              generalize (splitFrom separator 0 s).2 = others at hs
              cases others with
              | nil =>
                rw [List.intercalate_singleton] at hs
                exact ⟨[], by rw [List.append_nil, hs]⟩
              | cons second others =>
                rw [List.intercalate_cons_of_ne_nil (List.cons_ne_nil _ _), List.append_assoc] at hs
                exact ⟨_, hs⟩
            exact hstands (hfirst.trans ((List.prefix_cons_inj c).2 hfront))
          · exact ih s.length (Nat.lt_succ_self _) List.mem_cons_self rfl hinside
        · exact ih s.length (Nat.lt_succ_self _) (List.mem_cons_of_mem _ h) rfl

theorem exists_split_eq_append (separator s : List α) : ∃ init last, split separator s = init ++ [last] :=
  ⟨_, _, (List.dropLast_concat_getLast (List.cons_ne_nil _ _)).symm⟩

/-! ### Separators of one character -/

variable {c : α}

theorem split_singleton_cons_self (s : List α) : split [c] (c :: s) = [] :: split [c] s :=
  split_separator_append (List.cons_ne_nil c []) s

theorem split_singleton_cons {d : α} (h : d ≠ c) (s : List α) :
    split [c] (d :: s) = (d :: (splitFrom [c] 0 s).1) :: (splitFrom [c] 0 s).2 :=
  split_cons fun hstands ↦ h (List.cons_prefix_cons.1 hstands).1.symm

/-- What is split at a character is split on both sides of it. -/
theorem split_singleton_append (s rest : List α) :
    split [c] (s ++ c :: rest) = split [c] s ++ split [c] rest := by
  induction s with
  | nil => exact split_singleton_cons_self rest
  | cons d s ih =>
    by_cases hd : d = c
    · rw [hd, List.cons_append, split_singleton_cons_self, split_singleton_cons_self, ih]
      rfl
    · rw [split, split] at ih
      obtain ⟨hfirst, hothers⟩ := List.cons.inj ih
      rw [List.cons_append, split_singleton_cons hd, split_singleton_cons hd, hfirst, hothers]
      rfl

/-- The parts are free of the character. -/
theorem not_mem_of_mem_split {s part : List α} (h : part ∈ split [c] s) : c ∉ part := by
  induction s generalizing part with
  | nil =>
    obtain rfl : part = [] := List.mem_singleton.1 h
    exact List.not_mem_nil
  | cons d s ih =>
    by_cases hd : d = c
    · rw [hd, split_singleton_cons_self] at h
      obtain rfl | h := List.mem_cons.1 h
      · exact List.not_mem_nil
      · exact ih h
    · rw [split_singleton_cons hd] at h
      obtain rfl | h := List.mem_cons.1 h
      · exact List.not_mem_cons_of_ne_of_not_mem (Ne.symm hd) (ih List.mem_cons_self)
      · exact ih (List.mem_cons_of_mem _ h)

theorem split_singleton_of_not_mem (h : c ∉ s) : split [c] s = [s] :=
  split_of_not_infix fun hinside ↦ h (hinside.subset (List.mem_singleton_self c))

/-- A character of a text is in its separators or in its parts. -/
theorem mem_separator_or_mem_split (hne : separator ≠ []) (h : c ∈ s) :
    c ∈ separator ∨ ∃ part ∈ split separator s, c ∈ part := by
  rw [← intercalate_split hne s] at h
  generalize split separator s = parts at h ⊢
  induction parts with
  | nil => cases h
  | cons part parts ih =>
    by_cases hparts : parts = []
    · subst hparts
      rw [List.intercalate_singleton] at h
      exact Or.inr ⟨part, List.mem_cons_self, h⟩
    · rw [List.intercalate_cons_of_ne_nil hparts, List.append_assoc] at h
      obtain h | h := List.mem_append.1 h
      · exact Or.inr ⟨part, List.mem_cons_self, h⟩
      · obtain h | h := List.mem_append.1 h
        · exact Or.inl h
        · obtain h | ⟨other, hother, h⟩ := ih h
          · exact Or.inl h
          · exact Or.inr ⟨other, List.mem_cons_of_mem _ hother, h⟩

end Text
