import Mathlib.Data.List.Basic
import NexusPilot.Scan.Run

/-!
# Reading a text that was put together from lexemes

A program that writes a text for some lexer puts it together from **lexemes**: each has a text and the
tokens it is meant to be read as. Whether it is read so depends on the symbol behind it, which is what
`fits` says, and sometimes on what is inside it, which is what `good` says: an escaping rule that the
writer did not follow makes a lexeme that is misread.

`scan_textOf_iff` is the rule: a sequence of lexemes that fit each other is read as intended exactly
when all of them are good.
-/

namespace Scan

variable {α τ ε Λ : Type*}

/-- Lexemes for a lexer that collects tokens. -/
structure Lexicon (step : Step (List τ) ε α) (Λ : Type*) where
  text : Λ → List α
  tokens : Λ → List τ
  /-- The lexeme can stand before this symbol, or at the end. -/
  fits : Λ → Option α → Prop
  /-- The lexeme is read as intended. -/
  good : Λ → Prop
  passes : ∀ {l : Λ} {rest : List α} {found : List τ} {before : List α}, fits l rest.head? →
    good l → Passes step found before (text l ++ rest) (text l).length (found ++ tokens l)
  misread : ∀ {l : Λ} {rest : List α} {found found' : List τ} {before : List α},
    fits l rest.head? → ¬ good l → scan step found before (text l ++ rest) = .ok found' →
      ¬ found ++ tokens l <+: found'

namespace Lexicon

variable {step : Step (List τ) ε α} (L : Lexicon step Λ)

def textOf (ls : List Λ) : List α :=
  ls.flatMap L.text

def tokensOf (ls : List Λ) : List τ :=
  ls.flatMap L.tokens

/-- Every lexeme fits the one behind it, the last one the symbol `next`. -/
def Separated (next : Option α) : List Λ → Prop
  | [] => True
  | l :: ls => L.fits l ((L.textOf ls).head?.or next) ∧ Separated next ls

@[simp]
theorem textOf_nil : L.textOf [] = [] :=
  rfl

@[simp]
theorem textOf_cons (l : Λ) (ls : List Λ) : L.textOf (l :: ls) = L.text l ++ L.textOf ls :=
  rfl

@[simp]
theorem textOf_append (l m : List Λ) : L.textOf (l ++ m) = L.textOf l ++ L.textOf m := by
  simp [textOf]

theorem textOf_intercalate (sep : List Λ) (items : List (List Λ)) :
    L.textOf (sep.intercalate items) = (L.textOf sep).intercalate (items.map L.textOf) := by
  induction items with
  | nil => rfl
  | cons item items ih =>
    cases items with
    | nil => simp
    | cons item' items =>
      rw [List.intercalate_cons_cons, textOf_append, textOf_append, ih]
      exact List.intercalate_cons_cons.symm

@[simp]
theorem separated_append {next : Option α} {l m : List Λ} :
    L.Separated next (l ++ m) ↔
      L.Separated ((L.textOf m).head?.or next) l ∧ L.Separated next m := by
  induction l with
  | nil => simp [Separated]
  | cons a l ih =>
    rw [List.cons_append, Separated, ih, Separated, textOf_append, List.head?_append, Option.or_assoc,
      and_assoc]

/-- Items that fit both the separator and what follows the last of them. -/
theorem separated_intercalate {next : Option α} {sep : List Λ} {items : List (List Λ)} {a : α}
    (hhead : (L.textOf sep).head? = some a) (hsep : ∀ next, L.Separated next sep)
    (hitems : ∀ item ∈ items, L.Separated (some a) item ∧ L.Separated next item) :
    L.Separated next (sep.intercalate items) := by
  induction items with
  | nil => trivial
  | cons item items ih =>
    have hitem := hitems item List.mem_cons_self
    cases items with
    | nil => simpa using hitem.2
    | cons item' items =>
      have hrest := ih fun i hi ↦ hitems i (List.mem_cons_of_mem _ hi)
      rw [List.intercalate_cons_cons, separated_append, separated_append]
      refine ⟨⟨?_, hsep _⟩, hrest⟩
      rw [hhead]
      exact hitem.1

theorem forall_mem_intercalate {P : Λ → Prop} {sep : List Λ} {items : List (List Λ)}
    (hsep : ∀ l ∈ sep, P l) :
    (∀ l ∈ sep.intercalate items, P l) ↔ ∀ item ∈ items, ∀ l ∈ item, P l := by
  induction items with
  | nil => simp
  | cons item items ih =>
    cases items with
    | nil => simp
    | cons item' items =>
      rw [List.intercalate_cons_cons, List.forall_mem_append, List.forall_mem_append, ih,
        List.forall_mem_cons (a := item)]
      exact ⟨fun h ↦ ⟨h.1.1, h.2⟩, fun h ↦ ⟨⟨h.1, hsep⟩, h.2⟩⟩

/-- **Reading a template.** -/
theorem scan_textOf_iff {ls : List Λ} (hls : L.Separated none ls) {found : List τ} {before : List α} :
    scan step found before (L.textOf ls) = .ok (found ++ L.tokensOf ls) ↔ ∀ l ∈ ls, L.good l := by
  induction ls generalizing found before with
  | nil => simp [tokensOf]
  | cons l ls ih =>
    obtain ⟨hfit, hrest⟩ := hls
    rw [Option.or_none] at hfit
    have htokens : found ++ L.tokensOf (l :: ls) = (found ++ L.tokens l) ++ L.tokensOf ls := by
      simp [tokensOf]
    rw [textOf_cons, htokens]
    by_cases hgood : L.good l
    · rw [(L.passes hfit hgood).scan_eq, List.drop_left, ih hrest]
      simp [hgood]
    · refine ⟨fun h ↦ ?_, fun h ↦ absurd (h l List.mem_cons_self) hgood⟩
      exact absurd (List.prefix_append _ _) (L.misread hfit hgood h)

end Lexicon

end Scan
