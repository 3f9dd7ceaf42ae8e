import Mathlib.Data.List.Infix
import Mathlib.Tactic.Common

/-!
# Glob patterns

Patterns in which `*` stands for any text, `?` for one character, `[…]` for one character of a class (with
ranges, and negated by `^`), and a backslash takes the meaning of the next character away. A class that is
not closed goes to the end of the pattern.

A pattern is read as a list of tokens and a text is matched token by token. `exists_short_match` says how
short a matched text can be, and `matches_append_star_iff` that a pattern without special characters, with a
star behind it, matches what it is a prefix of. `exists_match_ne_prefix` is the converse: a pattern with a
special character is never that prefix test.

Nothing here mentions a particular component.
-/

namespace Text

/-- What a class lists. -/
inductive GlobItem
  | char (c : Char)
  | range (low high : Char)
  deriving DecidableEq

/-- A part of a pattern. -/
inductive GlobToken
  | star
  | any
  | class_ (negated : Bool) (items : List GlobItem)
  | char (c : Char)
  deriving DecidableEq

/-- An item lists a character; the ends of a range may be in either order. -/
def GlobItem.lists (c : Char) : GlobItem → Bool
  | .char d => c == d
  | .range low high => (low ≤ c && c ≤ high) || (high ≤ c && c ≤ low)

/-- A token takes a character. -/
def GlobToken.takes (c : Char) : GlobToken → Bool
  | .star => true
  | .any => true
  | .class_ negated items => items.any (·.lists c) != negated
  | .char d => c == d

/-- The tokens of a pattern, outside a class, or inside one that has listed something. -/
def globTokens : Option (Bool × List GlobItem) → List Char → List GlobToken
  | none, [] => []
  | none, '*' :: rest => .star :: globTokens none rest
  | none, '?' :: rest => .any :: globTokens none rest
  | none, '[' :: '^' :: rest => globTokens (some (true, [])) rest
  | none, '[' :: rest => globTokens (some (false, [])) rest
  | none, '\\' :: c :: rest => .char c :: globTokens none rest
  | none, c :: rest => .char c :: globTokens none rest
  | some (negated, items), [] => [.class_ negated items]
  | some (negated, items), '\\' :: c :: rest => globTokens (some (negated, .char c :: items)) rest
  | some (negated, items), ']' :: rest => .class_ negated items :: globTokens none rest
  | some (negated, items), low :: '-' :: high :: rest =>
    globTokens (some (negated, .range low high :: items)) rest
  | some (negated, items), c :: rest => globTokens (some (negated, .char c :: items)) rest

/-- The tokens match a text. -/
def tokensMatch : List GlobToken → List Char → Bool
  | [], text => text.isEmpty
  | .star :: tokens, text => text.tails.any (tokensMatch tokens)
  | _ :: _, [] => false
  | token :: tokens, c :: text => token.takes c && tokensMatch tokens text

/-- **A pattern matches a text.** -/
def globMatches (pattern text : List Char) : Bool :=
  tokensMatch (globTokens none pattern) text

example : globMatches "h[a-c^]l*".toList "hbllo".toList = true := by decide

/-! ### Plain text -/

/-- A character with a meaning of its own, outside classes. -/
def isGlobSpecial (c : Char) : Bool :=
  c == '*' || c == '?' || c == '[' || c == '\\'

theorem globTokens_cons {c : Char} (h : isGlobSpecial c = false) (rest : List Char) :
    globTokens none (c :: rest) = .char c :: globTokens none rest := by
  simp only [isGlobSpecial, Bool.or_eq_false_iff, beq_eq_false_iff_ne] at h
  obtain ⟨⟨⟨hstar, hany⟩, hclass⟩, hescape⟩ := h
  rw [globTokens]
  · exact hstar
  · exact hany
  · exact fun _ heq ↦ absurd heq hclass
  · exact hclass
  · exact fun _ _ heq ↦ absurd heq hescape

theorem globTokens_append {plain : List Char} (h : ∀ c ∈ plain, isGlobSpecial c = false) (rest : List Char) :
    globTokens none (plain ++ rest) = plain.map .char ++ globTokens none rest := by
  induction plain with
  | nil => rfl
  | cons c plain ih =>
    obtain ⟨hc, hplain⟩ := List.forall_mem_cons.1 h
    rw [List.cons_append, globTokens_cons hc, ih hplain, List.map_cons, List.cons_append]

theorem tokensMatch_chars (plain : List Char) (tokens : List GlobToken) (text : List Char) :
    tokensMatch (plain.map .char ++ tokens) text = true ↔
      ∃ rest, text = plain ++ rest ∧ tokensMatch tokens rest = true := by
  induction plain generalizing text with
  | nil => simp
  | cons c plain ih =>
    cases text with
    | nil => simp [tokensMatch]
    | cons d text =>
      simp only [List.map_cons, List.cons_append, tokensMatch, GlobToken.takes, Bool.and_eq_true, beq_iff_eq, ih,
        List.cons.injEq]
      constructor
      · rintro ⟨rfl, rest, rfl, hrest⟩
        exact ⟨rest, ⟨rfl, rfl⟩, hrest⟩
      · rintro ⟨rest, ⟨rfl, rfl⟩, hrest⟩
        exact ⟨rfl, rest, rfl, hrest⟩

theorem tokensMatch_star (text : List Char) : tokensMatch [.star] text = true := by
  rw [tokensMatch, List.any_eq_true]
  exact ⟨[], by simp, rfl⟩

/-- **A plain text with a star behind it** matches what it is a prefix of. -/
theorem globMatches_append_star_iff {plain : List Char} (h : ∀ c ∈ plain, isGlobSpecial c = false)
    (text : List Char) : globMatches (plain ++ ['*']) text = true ↔ plain <+: text := by
  rw [globMatches, globTokens_append h]
  have hstar : globTokens none ['*'] = [.star] := rfl
  rw [hstar, tokensMatch_chars]
  constructor
  · rintro ⟨rest, rfl, -⟩
    exact List.prefix_append _ _
  · rintro ⟨rest, rfl⟩
    exact ⟨rest, rfl, tokensMatch_star rest⟩

/-! ### Short matches -/

/-- How many characters the tokens need. -/
def globWeight (tokens : List GlobToken) : ℕ :=
  (tokens.filter (· ≠ .star)).length

/-- A pattern that matches something matches a text that is no longer than its tokens need. -/
theorem exists_short_match {tokens : List GlobToken} {text : List Char} (h : tokensMatch tokens text = true) :
    ∃ short, tokensMatch tokens short = true ∧ short.length ≤ globWeight tokens := by
  induction tokens generalizing text with
  | nil => exact ⟨[], rfl, Nat.le_refl _⟩
  | cons token tokens ih =>
    by_cases hstar : token = .star
    · subst hstar
      rw [tokensMatch, List.any_eq_true] at h
      obtain ⟨tail, -, htail⟩ := h
      obtain ⟨short, hshort, hlength⟩ := ih htail
      refine ⟨short, ?_, by simpa [globWeight] using hlength⟩
      rw [tokensMatch, List.any_eq_true]
      exact ⟨short, by simp, hshort⟩
    · cases text with
      | nil => cases token <;> simp [tokensMatch] at h hstar
      | cons c text =>
        have hstep : ∀ d rest, tokensMatch (token :: tokens) (d :: rest) =
            (token.takes d && tokensMatch tokens rest) := by
          intro d rest
          cases token <;> first | exact absurd rfl hstar | rfl
        rw [hstep, Bool.and_eq_true] at h
        obtain ⟨short, hshort, hlength⟩ := ih h.2
        refine ⟨c :: short, by rw [hstep, h.1, hshort]; rfl, ?_⟩
        have hweight : globWeight (token :: tokens) = globWeight tokens + 1 := by
          simp [globWeight, hstar]
        rw [hweight, List.length_cons]
        omega

theorem globWeight_cons (token : GlobToken) (tokens : List GlobToken) :
    globWeight (token :: tokens) = if token = .star then globWeight tokens else globWeight tokens + 1 := by
  by_cases h : token = .star
  · simp [globWeight, h]
  · simp [globWeight, h]

theorem getLast?_cons_of_ne_nil {c : Char} {rest : List Char} (hne : rest ≠ []) :
    (c :: rest).getLast? = rest.getLast? := by
  obtain ⟨d, rest, rfl⟩ := List.exists_cons_of_ne_nil hne
  rw [List.getLast?_cons_cons]

/-- What a pattern with a star at its end needs, outside a class and inside one. -/
theorem globWeight_of_star (mode : Option (Bool × List GlobItem)) (pattern : List Char)
    (h : pattern.getLast? = some '*') :
    globWeight (globTokens mode pattern) ≤
      if mode.isSome then max 1 (pattern.length - 1) else pattern.length - 1 := by
  have hone : ∀ rest : List Char, rest ≠ [] → 1 ≤ rest.length :=
    fun rest hne ↦ List.length_pos_iff.2 hne
  have hclosed : ∀ mode : Bool × List GlobItem, globWeight (globTokens (some mode) []) = 1 := fun _ ↦ rfl
  have hnone : globWeight (globTokens none []) = 0 := rfl
  fun_induction globTokens mode pattern with
  | case1 => cases h
  | case2 rest ih =>
    obtain rfl | hne := eq_or_ne rest []
    · simp [globWeight_cons, hnone]
    · have hrest := ih (by rwa [getLast?_cons_of_ne_nil hne] at h)
      simp [globWeight_cons] at hrest ⊢
      omega
  | case3 rest ih | case5 rest _ ih | case10 negated items rest ih =>
    obtain rfl | hne := eq_or_ne rest []
    · simp at h
    · have hrest := ih (by rwa [getLast?_cons_of_ne_nil hne] at h)
      have := hone rest hne
      simp [globWeight_cons] at hrest ⊢
      omega
  | case4 rest ih =>
    obtain rfl | hne := eq_or_ne rest []
    · simp at h
    · have hrest := ih (by rwa [getLast?_cons_of_ne_nil (by simp), getLast?_cons_of_ne_nil hne] at h)
      have := hone rest hne
      simp at hrest ⊢
      omega
  | case6 c rest ih =>
    obtain rfl | hne := eq_or_ne rest []
    · simp [globWeight_cons, hnone]
    · have hrest := ih (by rwa [getLast?_cons_of_ne_nil (by simp), getLast?_cons_of_ne_nil hne] at h)
      have := hone rest hne
      simp [globWeight_cons] at hrest ⊢
      omega
  | case7 c rest hstar _ _ _ _ ih =>
    obtain rfl | hne := eq_or_ne rest []
    · exact absurd (by simpa using h) hstar
    · have hrest := ih (by rwa [getLast?_cons_of_ne_nil hne] at h)
      have := hone rest hne
      simp [globWeight_cons] at hrest ⊢
      omega
  | case8 negated items => cases h
  | case9 negated items c rest ih =>
    obtain rfl | hne := eq_or_ne rest []
    · simp [hclosed]
    · have hrest := ih (by rwa [getLast?_cons_of_ne_nil (by simp), getLast?_cons_of_ne_nil hne] at h)
      simp at hrest ⊢
      omega
  | case11 negated items low high rest _ _ ih =>
    obtain rfl | hne := eq_or_ne rest []
    · simp [hclosed]
    · have hrest := ih (by
        rwa [getLast?_cons_of_ne_nil (by simp), getLast?_cons_of_ne_nil (by simp),
          getLast?_cons_of_ne_nil hne] at h)
      simp at hrest ⊢
      omega
  | case12 negated items c rest _ _ _ ih =>
    obtain rfl | hne := eq_or_ne rest []
    · simp [hclosed]
    · have hrest := ih (by rwa [getLast?_cons_of_ne_nil hne] at h)
      simp at hrest ⊢
      omega

/-! ### Patterns that are no prefix test -/

/-- A character that begins a part of a pattern which may be shorter in the text. -/
def isGlobShort (c : Char) : Bool :=
  c == '*' || c == '[' || c == '\\'

/-- The token of a character that stands for one character. -/
def singleToken (c : Char) : GlobToken :=
  if c = '?' then .any else .char c

theorem globTokens_single {single : List Char} (h : ∀ c ∈ single, isGlobShort c = false) (rest : List Char) :
    globTokens none (single ++ rest) = single.map singleToken ++ globTokens none rest := by
  induction single with
  | nil => rfl
  | cons c single ih =>
    obtain ⟨hc, hsingle⟩ := List.forall_mem_cons.1 h
    rw [List.cons_append, List.map_cons, List.cons_append, ← ih hsingle, singleToken]
    by_cases hany : c = '?'
    · rw [if_pos hany, hany, globTokens]
    · rw [if_neg hany, globTokens_cons]
      rw [isGlobShort, Bool.or_eq_false_iff, Bool.or_eq_false_iff] at hc
      simp [isGlobSpecial, hc.1.1, hc.1.2, hc.2, hany]

theorem globWeight_single (single : List Char) (tokens : List GlobToken) :
    globWeight (single.map singleToken ++ tokens) = single.length + globWeight tokens := by
  induction single with
  | nil => simp
  | cons c single ih =>
    have hstar : singleToken c ≠ .star := by
      rw [singleToken]
      split_ifs
      · nofun
      · nofun
    rw [List.map_cons, List.cons_append, globWeight_cons, if_neg hstar, ih, List.length_cons]
    omega

theorem globWeight_append_star (pattern : List Char) :
    globWeight (globTokens none (pattern ++ ['*'])) ≤ pattern.length := by
  have h := globWeight_of_star none (pattern ++ ['*']) (by simp)
  simpa using h

/-- A pattern in which a part may be shorter needs fewer characters than it has. -/
theorem globWeight_lt {pattern : List Char} (hshort : ∃ c ∈ pattern, isGlobShort c = true)
    (hlast : ∀ c, pattern.getLast? = some c → isGlobShort c = false) :
    globWeight (globTokens none (pattern ++ ['*'])) < pattern.length := by
  -- the first such part
  obtain ⟨single, c, rest, hpattern, hsingle, hc⟩ : ∃ single c rest, pattern = single ++ c :: rest ∧
      (∀ d ∈ single, isGlobShort d = false) ∧ isGlobShort c = true := by
    obtain ⟨d, hd, hshort⟩ := hshort
    have hsome : (pattern.find? isGlobShort).isSome = true := List.find?_isSome.2 ⟨d, hd, hshort⟩
    obtain ⟨c, hfind⟩ := Option.isSome_iff_exists.1 hsome
    obtain ⟨hc, single, rest, hpattern, hsingle⟩ := List.find?_eq_some_iff_append.1 hfind
    exact ⟨single, c, rest, hpattern, fun e he ↦ by simpa using hsingle e he, hc⟩
  have hrest : c ≠ '*' → rest ≠ [] := by
    rintro - rfl
    have hopen := hlast c (by simp [hpattern])
    rw [hc] at hopen
    cases hopen
  have hone : rest ≠ [] → 1 ≤ rest.length := List.length_pos_iff.2
  subst hpattern
  rw [List.append_assoc, List.cons_append, globTokens_single hsingle, globWeight_single, List.length_append,
    List.length_cons]
  suffices globWeight (globTokens none (c :: (rest ++ ['*']))) ≤ rest.length by omega
  rw [isGlobShort, Bool.or_eq_true, Bool.or_eq_true, beq_iff_eq, beq_iff_eq, beq_iff_eq] at hc
  obtain (rfl | rfl) | rfl := hc
  · rw [globTokens, globWeight_cons, if_pos rfl]
    exact globWeight_append_star rest
  · have hne := hrest (by decide)
    obtain ⟨d, rest, rfl⟩ := List.exists_cons_of_ne_nil hne
    by_cases hd : d = '^'
    · subst hd
      rw [List.cons_append, globTokens]
      have hclass := globWeight_of_star (some (true, [])) (rest ++ ['*']) (by simp)
      simp at hclass ⊢
      omega
    · rw [List.cons_append, globTokens]
      · have hclass := globWeight_of_star (some (false, [])) (d :: (rest ++ ['*']))
          (by rw [getLast?_cons_of_ne_nil (by simp)]; simp)
        simp at hclass ⊢
        omega
      · intro r heq
        exact hd (List.cons.inj heq).1
  · have hne := hrest (by decide)
    obtain ⟨d, rest, rfl⟩ := List.exists_cons_of_ne_nil hne
    rw [List.cons_append, globTokens, globWeight_cons, if_neg (by nofun), List.length_cons]
    exact Nat.succ_le_succ (globWeight_append_star rest)

theorem tokensMatch_single (single : List Char) :
    tokensMatch (single.map singleToken ++ [.star]) (single.map fun c ↦ if c = '?' then 'x' else c) = true := by
  induction single with
  | nil => exact tokensMatch_star []
  | cons c single ih =>
    rw [List.map_cons, List.map_cons, List.cons_append, singleToken]
    split_ifs
    · rw [tokensMatch, ih]
      · rfl
      · nofun
    · rw [tokensMatch, ih]
      · simp [GlobToken.takes]
      · nofun

/-- **A pattern with a special character is no prefix test**, nor is one that has lost something at its front: some
text tells the two apart. -/
theorem exists_match_ne_prefix {lost pattern : List Char}
    (hspecial : lost ≠ [] ∨ ∃ c ∈ pattern, isGlobSpecial c = true)
    (hlast : ∀ c, pattern.getLast? = some c → isGlobShort c = false) :
    ∃ text, ¬ (globMatches (pattern ++ ['*']) text = true ↔ lost ++ pattern <+: text) := by
  by_cases hself : globMatches (pattern ++ ['*']) (lost ++ pattern) = true
  · by_cases hlt : globWeight (globTokens none (pattern ++ ['*'])) < (lost ++ pattern).length
    · -- a shorter text
      obtain ⟨short, hshort, hlength⟩ := exists_short_match hself
      refine ⟨short, fun hiff ↦ ?_⟩
      have hle := (hiff.1 hshort).length_le
      omega
    · -- nothing is lost, and the special characters are question marks
      have hnone : lost = [] := by
        by_contra hne
        have := List.length_pos_iff.2 hne
        have := globWeight_append_star pattern
        rw [List.length_append] at hlt
        omega
      subst hnone
      rw [List.nil_append] at hlt
      have hsingle : ∀ c ∈ pattern, isGlobShort c = false := by
        intro c hc
        by_contra hshort
        exact hlt (globWeight_lt ⟨c, hc, by simpa using hshort⟩ hlast)
      obtain ⟨c, hc, hspecial⟩ := hspecial.resolve_left (by simp)
      have hquestion : c = '?' := by
        have hopen := hsingle c hc
        simp only [isGlobSpecial, isGlobShort, Bool.or_eq_true, Bool.or_eq_false_iff, beq_iff_eq,
          beq_eq_false_iff_ne] at hspecial hopen
        tauto
      refine ⟨pattern.map fun c ↦ if c = '?' then 'x' else c, fun hiff ↦ ?_⟩
      have hmatch : globMatches (pattern ++ ['*']) (pattern.map fun c ↦ if c = '?' then 'x' else c) = true := by
        rw [globMatches, globTokens_single hsingle]
        exact tokensMatch_single pattern
      have heq := (hiff.1 hmatch).eq_of_length (by simp)
      rw [List.nil_append] at heq
      rw [heq, List.mem_map] at hc
      obtain ⟨d, -, hd⟩ := hc
      rw [hquestion] at hd
      split_ifs at hd with hmark
      · exact absurd hd (by decide)
      · exact hmark hd
  · exact ⟨lost ++ pattern, fun hiff ↦ hself (hiff.2 (List.prefix_refl _))⟩

end Text
