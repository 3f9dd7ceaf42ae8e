import Mathlib.Data.List.Chain
import Mathlib.Data.List.Count
import Mathlib.Data.Sum.Basic

/-!
# Templates with markers

A template is a text in which a marker character stands for a value. A reader of templates (`ReadsMarkers`)
takes a marker for a placeholder and two markers in a row for one marker of the text; it knows nothing of
quotes. **`fill_eq_some_iff`** says when a text that was made from a list of characters and values is read
back as that list: when none of the characters is the marker.
-/

namespace Markers

variable {β : Type}

/-- A place of a template. -/
inductive Slot
  | text (c : Char)
  | operand
  deriving DecidableEq

/-- A reader of templates: what it finds in a text. -/
structure ReadsMarkers (marker : Char) (found : List Char → List Slot) : Prop where
  nil : found [] = []
  other : ∀ c s, c ≠ marker → found (c :: s) = .text c :: found s
  doubled : ∀ s, found (marker :: marker :: s) = .text marker :: found s
  single : ∀ s, s.head? ≠ some marker → found (marker :: s) = .operand :: found s

/-- The reader of templates. -/
def readMarkers (marker : Char) : List Char → List Slot
  | [] => []
  | [c] => [if c = marker then .operand else .text c]
  | c :: d :: s =>
    if c = marker then
      if d = marker then .text marker :: readMarkers marker s else .operand :: readMarkers marker (d :: s)
    else .text c :: readMarkers marker (d :: s)

theorem readsMarkers (marker : Char) : ReadsMarkers marker (readMarkers marker) where
  nil := rfl
  other c s hc := by
    cases s with
    | nil => simp only [readMarkers, if_neg hc]
    | cons d s => rw [readMarkers, if_neg hc]
  doubled s := by rw [readMarkers, if_pos rfl, if_pos rfl]
  single s hs := by
    cases s with
    | nil => simp only [readMarkers, if_pos]
    | cons d s =>
      have hd : d ≠ marker := fun h ↦ hs (congrArg some h)
      rw [readMarkers, if_pos rfl, if_neg hd]

/-- The number of placeholders of a template. -/
def operands (slots : List Slot) : ℕ :=
  slots.count .operand

/-- A template with a value in each placeholder, in order; none when the numbers differ. -/
def fill : List Slot → List β → Option (List (Char ⊕ β))
  | [], [] => some []
  | [], _ :: _ => none
  | .text c :: slots, values => (fill slots values).map (.inl c :: ·)
  | .operand :: _, [] => none
  | .operand :: slots, value :: values => (fill slots values).map (.inr value :: ·)

/-- The text of a list of characters and values: a marker for each value. -/
def marked (marker : Char) (pieces : List (Char ⊕ β)) : List Char :=
  pieces.map (Sum.elim id fun _ ↦ marker)

/-- The values of a list of characters and values. -/
def valuesOf (pieces : List (Char ⊕ β)) : List β :=
  pieces.filterMap Sum.getRight?

/-- A text without values. -/
def plain (s : List Char) : List (Char ⊕ β) :=
  s.map .inl

/-! ### Texts without values -/

@[simp]
theorem marked_append (marker : Char) (p q : List (Char ⊕ β)) :
    marked marker (p ++ q) = marked marker p ++ marked marker q :=
  List.map_append

@[simp]
theorem marked_plain (marker : Char) (s : List Char) : marked marker (plain s : List (Char ⊕ β)) = s := by
  rw [marked, plain, List.map_map]
  exact List.map_id s

@[simp]
theorem valuesOf_append (p q : List (Char ⊕ β)) : valuesOf (p ++ q) = valuesOf p ++ valuesOf q :=
  List.filterMap_append

@[simp]
theorem valuesOf_plain (s : List Char) : valuesOf (plain s : List (Char ⊕ β)) = [] := by
  rw [valuesOf, plain, List.filterMap_map]
  exact List.filterMap_eq_nil_iff.2 fun _ _ ↦ rfl

theorem marked_intercalate (marker : Char) (sep : List Char) (items : List (List (Char ⊕ β))) :
    marked marker ((plain sep).intercalate items) = sep.intercalate (items.map (marked marker)) := by
  induction items with
  | nil => rfl
  | cons item items ih =>
    cases items with
    | nil => simp
    | cons next items =>
      rw [List.intercalate_cons_cons, marked_append, marked_append, marked_plain, ih]
      exact List.intercalate_cons_cons.symm

theorem valuesOf_intercalate (sep : List Char) (items : List (List (Char ⊕ β))) :
    valuesOf ((plain sep).intercalate items) = items.flatMap valuesOf := by
  induction items with
  | nil => rfl
  | cons item items ih =>
    cases items with
    | nil => simp
    | cons next items =>
      rw [List.intercalate_cons_cons, valuesOf_append, valuesOf_append, valuesOf_plain, List.append_nil, ih]
      rfl

/-- What is in a list with separators is in an item, unless it is in the separator. -/
theorem mem_intercalate_iff {α : Type} {a : α} {sep : List α} (hsep : a ∉ sep) {items : List (List α)} :
    a ∈ sep.intercalate items ↔ ∃ item ∈ items, a ∈ item := by
  induction items with
  | nil => simp
  | cons item items ih =>
    cases items with
    | nil => simp
    | cons next items =>
      rw [List.intercalate_cons_cons, List.mem_append, List.mem_append, ih, or_iff_left hsep]
      simp only [List.mem_cons, exists_eq_or_imp]

theorem inl_mem_plain {c : Char} {s : List Char} : Sum.inl c ∈ (plain s : List (Char ⊕ β)) ↔ c ∈ s := by
  rw [plain, List.mem_map]
  exact ⟨fun ⟨_, hmem, heq⟩ ↦ Sum.inl.inj heq ▸ hmem, fun h ↦ ⟨c, h, rfl⟩⟩

/-! ### Filling -/

variable {slots : List Slot} {values : List β} {pieces p q : List (Char ⊕ β)}

theorem length_of_fill (h : fill slots values = some pieces) : pieces.length = slots.length := by
  induction slots generalizing values pieces with
  | nil =>
    cases values with
    | nil => cases h; rfl
    | cons => cases h
  | cons slot slots ih =>
    cases slot with
    | text c =>
      obtain ⟨tail, htail, rfl⟩ := Option.map_eq_some_iff.1 h
      rw [List.length_cons, List.length_cons, ih htail]
    | operand =>
      cases values with
      | nil => cases h
      | cons value values =>
        obtain ⟨tail, htail, rfl⟩ := Option.map_eq_some_iff.1 h
        rw [List.length_cons, List.length_cons, ih htail]

/-- A template that can be filled has a placeholder for each value. -/
theorem operands_of_fill (h : fill slots values = some pieces) : operands slots = values.length := by
  induction slots generalizing values pieces with
  | nil =>
    cases values with
    | nil => rfl
    | cons => cases h
  | cons slot slots ih =>
    cases slot with
    | text c =>
      obtain ⟨tail, htail, -⟩ := Option.map_eq_some_iff.1 h
      rw [← ih htail, operands, operands, List.count_cons_of_ne (by simp)]
    | operand =>
      cases values with
      | nil => cases h
      | cons value values =>
        obtain ⟨tail, htail, -⟩ := Option.map_eq_some_iff.1 h
        rw [List.length_cons, ← ih htail, operands, operands, List.count_cons_self]

/-- The places of a list of characters and values. -/
def places (pieces : List (Char ⊕ β)) : List Slot :=
  pieces.map (Sum.elim .text fun _ ↦ .operand)

/-- A template is filled with a list of characters and values exactly when it has their places. -/
theorem fill_places_iff :
    fill slots (valuesOf pieces) = some pieces ↔ slots = places pieces := by
  induction pieces generalizing slots with
  | nil =>
    cases slots with
    | nil => exact ⟨fun _ ↦ rfl, fun _ ↦ rfl⟩
    | cons slot slots =>
      refine ⟨fun h ↦ ?_, fun h ↦ by cases h⟩
      have hlength := length_of_fill h
      rw [List.length_nil, List.length_cons] at hlength
      omega
  | cons piece pieces ih =>
    cases piece with
    | inl c =>
      show fill slots (valuesOf pieces) = some (.inl c :: pieces) ↔ slots = .text c :: places pieces
      cases slots with
      | nil =>
        refine ⟨fun h ↦ ?_, fun h ↦ by cases h⟩
        have hlength := length_of_fill h
        rw [List.length_cons, List.length_nil] at hlength
        omega
      | cons slot slots =>
        cases slot with
        | text d =>
          rw [fill, Option.map_eq_some_iff, List.cons.injEq, Slot.text.injEq, ← ih]
          constructor
          · rintro ⟨tail, htail, heq⟩
            cases heq
            exact ⟨rfl, htail⟩
          · rintro ⟨rfl, h⟩
            exact ⟨pieces, h, rfl⟩
        | operand =>
          refine ⟨fun h ↦ ?_, fun h ↦ by cases h⟩
          cases hvalues : valuesOf pieces with
          | nil => rw [hvalues] at h; cases h
          | cons value values =>
            rw [hvalues] at h
            obtain ⟨tail, -, heq⟩ := Option.map_eq_some_iff.1 h
            cases heq
    | inr b =>
      show fill slots (b :: valuesOf pieces) = some (.inr b :: pieces) ↔ slots = .operand :: places pieces
      cases slots with
      | nil => exact ⟨fun h ↦ (nomatch h), fun h ↦ (nomatch h)⟩
      | cons slot slots =>
        cases slot with
        | text d =>
          refine ⟨fun h ↦ ?_, fun h ↦ by cases h⟩
          obtain ⟨tail, -, heq⟩ := Option.map_eq_some_iff.1 h
          cases heq
        | operand =>
          rw [fill, Option.map_eq_some_iff, List.cons.injEq, ← ih]
          constructor
          · rintro ⟨tail, htail, heq⟩
            cases heq
            exact ⟨rfl, htail⟩
          · rintro ⟨-, h⟩
            exact ⟨pieces, h, rfl⟩

/-! ### Values apart -/

/-- No two values of a list of characters and values are next to each other. -/
def Apart (pieces : List (Char ⊕ β)) : Prop :=
  pieces.IsChain fun p q ↦ p.isRight → q.isLeft

theorem apart_plain (s : List Char) : Apart (plain s : List (Char ⊕ β)) := by
  rw [Apart, plain, List.isChain_map]
  exact (List.pairwise_of_forall fun _ _ _ ↦ rfl).isChain

/-- A list that does not begin with a value. -/
def Headed (pieces : List (Char ⊕ β)) : Prop :=
  ∀ piece ∈ pieces.head?, piece.isLeft

theorem headed_plain (s : List Char) : Headed (plain s : List (Char ⊕ β)) := by
  intro piece hpiece
  obtain ⟨c, -, rfl⟩ := List.mem_map.1 (List.mem_of_mem_head? hpiece)
  rfl

theorem Headed.append (hp : Headed p) (hq : Headed q) : Headed (p ++ q) := by
  cases p with
  | nil => exact hq
  | cons piece p => exact hp

/-- What begins with a character may follow anything. -/
theorem Apart.append (hp : Apart p) (hq : Apart q) (hhead : Headed q) : Apart (p ++ q) :=
  List.isChain_append.2 ⟨hp, hq, fun _ _ piece hpiece _ ↦ hhead piece hpiece⟩

/-- Items that begin with a character, between separators. -/
theorem apart_intercalate (sep : List Char) {items : List (List (Char ⊕ β))}
    (hitems : ∀ item ∈ items, Apart item ∧ Headed item) :
    Apart ((plain sep).intercalate items) ∧ Headed ((plain sep).intercalate items) := by
  induction items with
  | nil => exact ⟨List.isChain_nil, fun _ h ↦ (nomatch h)⟩
  | cons item items ih =>
    obtain ⟨hitem, hhead⟩ := hitems item List.mem_cons_self
    obtain ⟨hrest, hresthead⟩ := ih fun i hi ↦ hitems i (List.mem_cons_of_mem _ hi)
    cases items with
    | nil =>
      rw [List.intercalate_singleton]
      exact ⟨hitem, hhead⟩
    | cons next items =>
      have hsep := (headed_plain sep).append hresthead
      rw [List.intercalate_cons_cons, List.append_assoc]
      exact ⟨hitem.append ((apart_plain _).append hrest hresthead) hsep, hhead.append hsep⟩

/-! ### Reading -/

section Reading

variable {marker : Char} {found : List Char → List Slot} (hfound : ReadsMarkers marker found)

include hfound

/-- A reader makes a text no longer, and shorter by a character for each two markers in a row. -/
theorem length_found_le : ∀ s, (found s).length ≤ s.length
  | [] => by rw [hfound.nil]; exact le_refl _
  | [c] => by
    by_cases hc : c = marker
    · subst hc
      rw [hfound.single [] (by simp), hfound.nil]
      exact le_refl _
    · rw [hfound.other c [] hc, hfound.nil]
      exact le_refl _
  | c :: d :: s => by
    have hrest := length_found_le (d :: s)
    have hafter := length_found_le s
    rw [List.length_cons] at hrest ⊢
    rw [List.length_cons]
    by_cases hc : c = marker
    · subst hc
      by_cases hd : d = c
      · subst hd
        rw [hfound.doubled, List.length_cons]
        omega
      · rw [hfound.single (d :: s) (by simpa using hd), List.length_cons]
        omega
    · rw [hfound.other c _ hc, List.length_cons]
      omega

/-- The place of a character for a reader that met no two markers in a row. -/
theorem found_of_length : ∀ s, (found s).length = s.length →
    found s = s.map fun c ↦ if c = marker then .operand else .text c
  | [], _ => hfound.nil
  | c :: s, hlength => by
    have hle := length_found_le hfound s
    by_cases hc : marker = c
    · subst hc
      by_cases hhead : s.head? = some marker
      · obtain ⟨rest, rfl⟩ : ∃ rest, s = marker :: rest := by
          cases s with
          | nil => cases hhead
          | cons d rest => exact ⟨rest, by rw [Option.some.inj hhead]⟩
        have hrest := length_found_le hfound rest
        rw [hfound.doubled, List.length_cons, List.length_cons, List.length_cons] at hlength
        omega
      · rw [hfound.single s hhead, List.length_cons, List.length_cons] at hlength
        rw [hfound.single s hhead, List.map_cons, if_pos rfl, found_of_length s (by omega)]
    · have hne : c ≠ marker := fun h ↦ hc h.symm
      rw [hfound.other c s hne, List.length_cons, List.length_cons] at hlength
      rw [hfound.other c s hne, List.map_cons, if_neg hne, found_of_length s (by omega)]

variable {pieces : List (Char ⊕ β)}

/-- A text whose characters are not the marker is read as it was made. -/
theorem found_marked (hmarker : Sum.inl marker ∉ pieces) (hapart : Apart pieces) :
    found (marked marker pieces) = places pieces := by
  induction pieces with
  | nil => exact hfound.nil
  | cons piece pieces ih =>
    have hrest := ih (fun h ↦ hmarker (List.mem_cons_of_mem _ h)) hapart.tail
    cases piece with
    | inl c =>
      have hc : c ≠ marker := fun h ↦ hmarker (h ▸ List.mem_cons_self)
      show found (c :: marked marker pieces) = .text c :: places pieces
      rw [hfound.other c _ hc, hrest]
    | inr b =>
      show found (marker :: marked marker pieces) = .operand :: places pieces
      rw [hfound.single _ ?_, hrest]
      -- what follows a value is a character, and no character is the marker
      cases pieces with
      | nil => simp [marked]
      | cons next rest =>
        cases next with
        | inl c =>
          have hc : c ≠ marker := fun h ↦ hmarker (h ▸ List.mem_cons_of_mem _ List.mem_cons_self)
          simpa [marked] using hc
        | inr b' => exact absurd ((List.isChain_cons_cons.1 hapart).1 rfl) (by simp)

/-- **When a template is read as it was made**: a text made from characters and values, with no two values
next to each other, comes back with the values in their places exactly when no character of it is the
marker. -/
theorem fill_eq_some_iff (hapart : Apart pieces) :
    fill (found (marked marker pieces)) (valuesOf pieces) = some pieces ↔ Sum.inl marker ∉ pieces := by
  rw [fill_places_iff]
  refine ⟨fun h hmem ↦ ?_, fun h ↦ found_marked hfound h hapart⟩
  -- the reader has met no two markers, so that the marker among the characters is a placeholder
  have hlength : (found (marked marker pieces)).length = (marked marker pieces).length := by
    rw [h, places, marked, List.length_map, List.length_map]
  have hread := h.symm.trans (found_of_length hfound _ hlength)
  rw [places, marked, List.map_map] at hread
  have hplace := List.map_inj_left.1 hread _ hmem
  simp at hplace

/-- A text without values is read as it is exactly when it has no marker. -/
theorem fill_plain_iff {s : List Char} :
    fill (found s) [] = some (plain s : List (Char ⊕ β)) ↔ marker ∉ s := by
  have h := fill_eq_some_iff hfound (apart_plain (β := β) s)
  rwa [marked_plain, valuesOf_plain, inl_mem_plain] at h

end Reading

end Markers
