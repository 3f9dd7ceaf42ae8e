import Mathlib.Data.List.TakeWhile
import NexusPilot.Scan.Leave
import NexusPilot.Scan.Search

/-!
# Scanning an encoded text

A scanner that asks for *plain* symbols only does not notice whether the other symbols of a text stand
there as they are or are spelled out by several symbols, as the bytes of a character are in UTF-8. An
`Encoding` keeps the plain symbols and replaces each other symbol by a run of symbols that are not
plain either. The searches of a scanner then find in the encoded text what they find in the text, at
the encoded distance: runs (`takeWhile_text_of_plain`, `takeWhile_text_of_beyond`),
patterns (`findSub_text`) and modes (`leave_text`).
-/

namespace Scan

variable {α : Type*}

/-- Plain symbols stand for themselves, every other symbol for a run of symbols that are not
plain. -/
structure Encoding (α : Type*) where
  plain : α → Bool
  encode : α → List α
  encode_plain : ∀ a, plain a → encode a = [a]
  encode_ne_nil : ∀ a, encode a ≠ []
  plain_of_mem_encode : ∀ a, plain a = false → ∀ b ∈ encode a, plain b = false

namespace Encoding

variable (E : Encoding α)

/-- The encoded text. -/
def text (l : List α) : List α :=
  l.flatMap E.encode

@[simp]
theorem text_nil : E.text [] = [] :=
  rfl

theorem text_cons (a : α) (l : List α) : E.text (a :: l) = E.encode a ++ E.text l :=
  rfl

theorem text_append (l m : List α) : E.text (l ++ m) = E.text l ++ E.text m :=
  List.flatMap_append

variable {a : α} {l : List α} {p : α → Bool}

theorem text_cons_of_plain (ha : E.plain a) (l : List α) : E.text (a :: l) = a :: E.text l := by
  rw [text_cons, E.encode_plain a ha]
  rfl

/-- A text of plain symbols is its own encoding. -/
theorem text_eq_self (h : ∀ a ∈ l, E.plain a) : E.text l = l := by
  induction l with
  | nil => rfl
  | cons a l ih =>
    rw [E.text_cons_of_plain (h a List.mem_cons_self), ih fun b hb ↦ h b (List.mem_cons_of_mem _ hb)]

theorem exists_encode_eq_cons (ha : E.plain a = false) :
    ∃ b bs, E.encode a = b :: bs ∧ E.plain b = false ∧ ∀ x ∈ bs, E.plain x = false := by
  obtain ⟨b, bs, hbs⟩ := List.exists_cons_of_ne_nil (E.encode_ne_nil a)
  have hall := E.plain_of_mem_encode a ha
  rw [hbs] at hall
  exact ⟨b, bs, hbs, hall b List.mem_cons_self, fun x hx ↦ hall x (List.mem_cons_of_mem _ hx)⟩

theorem take_text (n : ℕ) (l : List α) :
    (E.text l).take (E.text (l.take n)).length = E.text (l.take n) := by
  have h : E.text l = E.text (l.take n) ++ E.text (l.drop n) := by
    rw [← text_append, List.take_append_drop]
  rw [h, List.take_left]

theorem drop_text (n : ℕ) (l : List α) :
    (E.text l).drop (E.text (l.take n)).length = E.text (l.drop n) := by
  have h : E.text l = E.text (l.take n) ++ E.text (l.drop n) := by
    rw [← text_append, List.take_append_drop]
  rw [h, List.drop_left]

/-! ### The next symbol -/

theorem head?_text_eq_some (ha : E.plain a) (l : List α) :
    (E.text l).head? = some a ↔ l.head? = some a := by
  cases l with
  | nil => exact Iff.rfl
  | cons b l =>
    by_cases hb : E.plain b
    · rw [E.text_cons_of_plain hb]
      exact Iff.rfl
    · obtain ⟨x, xs, hx, hxp, -⟩ := E.exists_encode_eq_cons (Bool.eq_false_iff.2 hb)
      rw [text_cons, hx, List.cons_append, List.head?_cons, List.head?_cons, Option.some.injEq,
        Option.some.injEq]
      constructor
      · rintro rfl
        rw [ha] at hxp
        cases hxp
      · rintro rfl
        exact absurd ha hb

/-! ### Runs and patterns -/

/-- A run of plain symbols. -/
theorem takeWhile_text_of_plain (hp : ∀ a, E.plain a = false → p a = false) (l : List α) :
    (E.text l).takeWhile p = l.takeWhile p := by
  induction l with
  | nil => rfl
  | cons a l ih =>
    by_cases ha : E.plain a
    · rw [E.text_cons_of_plain ha, List.takeWhile_cons, List.takeWhile_cons, ih]
    · obtain ⟨b, bs, hb, hbp, -⟩ := E.exists_encode_eq_cons (Bool.eq_false_iff.2 ha)
      rw [text_cons, hb, List.cons_append, List.takeWhile_cons_of_neg (by simp [hp b hbp]),
        List.takeWhile_cons_of_neg (by simp [hp a (Bool.eq_false_iff.2 ha)])]

/-- A run up to a plain symbol. -/
theorem takeWhile_text_of_beyond (hp : ∀ a, E.plain a = false → p a = true) (l : List α) :
    (E.text l).takeWhile p = E.text (l.takeWhile p) := by
  induction l with
  | nil => rfl
  | cons a l ih =>
    by_cases ha : E.plain a
    · rw [E.text_cons_of_plain ha, List.takeWhile_cons, List.takeWhile_cons]
      by_cases hpa : p a
      · rw [if_pos hpa, if_pos hpa, ih, E.text_cons_of_plain ha]
      · rw [if_neg hpa, if_neg hpa, text_nil]
    · have ha' : E.plain a = false := Bool.eq_false_iff.2 ha
      have hrun : ∀ b ∈ E.encode a, p b := fun b hb ↦ hp b (E.plain_of_mem_encode a ha' b hb)
      rw [List.takeWhile_cons_of_pos (hp a ha'), text_cons, text_cons,
        List.takeWhile_append_of_pos hrun, ih]

/-- A pattern of plain symbols stands in the encoded text where it stands in the text. -/
theorem prefix_text_iff {pat : List α} (hpat : ∀ a ∈ pat, E.plain a) :
    ∀ {l : List α}, pat <+: E.text l ↔ pat <+: l := by
  induction pat with
  | nil => simp
  | cons a pat ih =>
    intro l
    have ha : E.plain a := hpat a List.mem_cons_self
    have hrest : ∀ b ∈ pat, E.plain b := fun b hb ↦ hpat b (List.mem_cons_of_mem _ hb)
    cases l with
    | nil => simp
    | cons b l =>
      by_cases hb : E.plain b
      · rw [E.text_cons_of_plain hb, List.cons_prefix_cons, List.cons_prefix_cons, ih hrest]
      · obtain ⟨x, xs, hx, hxp, -⟩ := E.exists_encode_eq_cons (Bool.eq_false_iff.2 hb)
        rw [text_cons, hx, List.cons_append, List.cons_prefix_cons, List.cons_prefix_cons]
        constructor
        · rintro ⟨rfl, -⟩
          rw [ha] at hxp
          cases hxp
        · rintro ⟨rfl, -⟩
          exact absurd ha hb

section Search

variable [DecidableEq α]

variable {a : α} {pat : List α}

/-- Symbols that are not plain are passed by the search for a plain pattern. -/
theorem findSub_append_of_beyond (ha : E.plain a) {bs l : List α} (hbs : ∀ b ∈ bs, E.plain b = false) :
    findSub (a :: pat) (bs ++ l) = (findSub (a :: pat) l).map (· + bs.length) := by
  induction bs with
  | nil => simp
  | cons b bs ih =>
    have hb : E.plain b = false := hbs b List.mem_cons_self
    have hno : ¬ a :: pat <+: b :: (bs ++ l) := by
      rw [List.cons_prefix_cons]
      rintro ⟨rfl, -⟩
      rw [ha] at hb
      cases hb
    rw [List.cons_append, findSub_cons_of_not_stands hno,
      ih fun x hx ↦ hbs x (List.mem_cons_of_mem _ hx), Option.map_map]
    rfl

/-- **Patterns.** The search finds a plain pattern at the encoded distance. -/
theorem findSub_text (hpat : ∀ b ∈ a :: pat, E.plain b) (l : List α) :
    findSub (a :: pat) (E.text l) =
      (findSub (a :: pat) l).map fun i ↦ (E.text (l.take i)).length := by
  have ha : E.plain a := hpat a List.mem_cons_self
  induction l with
  | nil => rfl
  | cons b l ih =>
    by_cases hstands : a :: pat <+: b :: l
    · have hstands' : a :: pat <+: E.text (b :: l) := (E.prefix_text_iff hpat).2 hstands
      obtain ⟨y, ys, hys⟩ : ∃ y ys, E.text (b :: l) = y :: ys := by
        obtain ⟨t, ht⟩ := hstands'
        exact ⟨_, _, ht.symm⟩
      rw [hys] at hstands' ⊢
      rw [findSub_cons_of_stands hstands', findSub_cons_of_stands hstands]
      rfl
    · have hnot : ¬ a :: pat <+: E.text (b :: l) := by rwa [E.prefix_text_iff hpat]
      rw [findSub_cons_of_not_stands hstands, Option.map_map]
      by_cases hb : E.plain b
      · rw [E.text_cons_of_plain hb] at hnot ⊢
        rw [findSub_cons_of_not_stands hnot, ih, Option.map_map]
        refine congrArg (Option.map · _) (funext fun i ↦ ?_)
        simp [E.text_cons_of_plain hb]
      · rw [text_cons, E.findSub_append_of_beyond ha (E.plain_of_mem_encode b (Bool.eq_false_iff.2 hb)),
          ih, Option.map_map]
        refine congrArg (Option.map · _) (funext fun i ↦ ?_)
        simp [text_cons, Nat.add_comm]

end Search

/-! ### Modes -/

/-- A mode that passes over symbols that are not plain and asks for plain ones only, the next symbol
at most. -/
structure Local {τ ε : Type*} (inner : Inner τ ε α) : Prop where
  beyond : ∀ t a rest, E.plain a = false → inner t a rest = .ok (some t, 1)
  congr : ∀ t a rest rest', (∀ b, E.plain b → (rest.head? = some b ↔ rest'.head? = some b)) →
    inner t a rest = inner t a rest'
  width : ∀ t a rest r n, inner t a rest = .ok (r, n) →
    n = 1 ∨ n = 2 ∧ (r = none → ∃ b, rest.head? = some b ∧ E.plain b)

variable {τ ε : Type*} {inner : Inner τ ε α} {E}

theorem leave_append_of_beyond (h : E.Local inner) (t : τ) {bs : List α} (hbs : ∀ b ∈ bs, E.plain b = false) :
    leave inner t (bs ++ l) = (leave inner t l).map (Option.map (· + bs.length)) := by
  induction bs with
  | nil =>
    rw [List.nil_append]
    rcases leave inner t l with e | (_ | n) <;> rfl
  | cons b bs ih =>
    rw [List.cons_append, leave_of_stay (h.beyond t b _ (hbs b List.mem_cons_self)) Nat.one_pos,
      List.drop_succ_cons, List.drop_zero, ih fun x hx ↦ hbs x (List.mem_cons_of_mem _ hx)]
    rcases leave inner t l with e | (_ | n) <;> rfl

/-- **Modes.** A local mode reaches the encoded distance. -/
theorem leave_text (h : E.Local inner) (t : τ) (l : List α) :
    leave inner t (E.text l) =
      (leave inner t l).map (Option.map fun n ↦ (E.text (l.take n)).length) := by
  obtain ⟨before⟩ : Nonempty (List α) := ⟨[]⟩
  induction before, l using cursorInduction generalizing t with
  | nil before => rfl
  | cons before a l ih =>
    have hnext : leave inner t (E.text l) =
        (leave inner t l).map (Option.map fun n ↦ (E.text (l.take n)).length) := by
      simpa using ih 1 Nat.one_pos t
    by_cases ha : E.plain a
    · -- a plain symbol: the decision is the same
      have hin : inner t a (E.text l) = inner t a l :=
        h.congr t a _ _ fun b hb ↦ E.head?_text_eq_some hb l
      rw [E.text_cons_of_plain ha]
      rcases hdec : inner t a l with e | ⟨_ | t', n⟩
      · rw [leave_of_error hdec, leave_of_error (hin.trans hdec)]
        rfl
      · rw [leave_of_exit hdec, leave_of_exit (hin.trans hdec)]
        obtain rfl | ⟨rfl, hsome⟩ := h.width _ _ _ _ _ hdec
        · simp [Except.map, E.text_cons_of_plain ha]
        · obtain ⟨b, hb, hplain⟩ := hsome rfl
          obtain ⟨l', rfl⟩ := List.head?_eq_some_iff.1 hb
          simp [Except.map, E.text_cons_of_plain ha, E.text_cons_of_plain hplain]
      · have hn : 0 < n := by
          obtain rfl | ⟨rfl, -⟩ := h.width _ _ _ _ _ hdec <;> decide
        have hlater := ih n hn t'
        rw [leave_of_stay hdec hn, leave_of_stay (hin.trans hdec) hn]
        obtain rfl | ⟨rfl, -⟩ := h.width _ _ _ _ _ hdec
        · simp only [List.drop_succ_cons, List.drop_zero] at hlater ⊢
          rw [hlater]
          rcases leave inner t' l with e | (_ | n)
          · rfl
          · rfl
          · simp [Except.map, E.text_cons_of_plain ha]
        · simp only [List.drop_succ_cons] at hlater ⊢
          cases l with
          | nil => rfl
          | cons b l =>
            -- the second symbol may be spelled out: what is left of it is passed over
            obtain ⟨x, xs, hxs⟩ := List.exists_cons_of_ne_nil (E.encode_ne_nil b)
            have hbeyond : ∀ y ∈ xs, E.plain y = false := by
              by_cases hb : E.plain b
              · rw [E.encode_plain b hb] at hxs
                cases hxs
                simp
              · intro y hy
                exact E.plain_of_mem_encode b (Bool.eq_false_iff.2 hb) y
                  (by rw [hxs]; exact List.mem_cons_of_mem _ hy)
            rw [List.drop_succ_cons, List.drop_zero] at hlater
            rw [E.text_cons, hxs, List.cons_append, List.drop_succ_cons, List.drop_zero,
              leave_append_of_beyond h t' hbeyond, hlater, List.drop_succ_cons, List.drop_zero]
            rcases leave inner t' l with e | (_ | n)
            · rfl
            · rfl
            · simp only [Except.map, Option.map_some, List.take_succ_cons, E.text_cons_of_plain ha,
                E.text_cons, hxs, List.length_cons, List.length_append]
              congr 2
              omega
    · -- a symbol that is spelled out
      have ha' : E.plain a = false := Bool.eq_false_iff.2 ha
      rw [leave_of_stay (h.beyond t a l ha') Nat.one_pos, E.text_cons,
        leave_append_of_beyond h t (E.plain_of_mem_encode a ha'), List.drop_succ_cons,
        List.drop_zero, hnext]
      rcases leave inner t l with e | (_ | n)
      · rfl
      · rfl
      · simp [Except.map, E.text_cons, Nat.add_comm]

theorem reach_text (h : E.Local inner) (t : τ) (l : List α) :
    reach inner t (E.text l) = (E.text (l.take (reach inner t l))).length := by
  rw [reach, leave_text h, reach]
  rcases leave inner t l with e | (_ | n)
  · simp [Except.map]
  · simp [Except.map]
  · rfl

end Encoding

end Scan
