import NexusPilot.Scan.Border
import NexusPilot.Schema.Ddl
import NexusPilot.Schema.DiffSpec

/-!
# Markers in statements

A driver recognises a destructive statement by looking for **markers** in its text, such as ` DROP COLUMN `.
A statement is a list of pieces, and where the texts of a request stand between symbols that no marker has,
`spells_renderPieces_iff` says where a marker comes from: from a keyword of the statement, or from a text
that it carries.
-/

namespace Schema

open Drivers

/-- The symbols that no marker has: all but capital letters and blanks. -/
def outsideMarker (c : Char) : Bool :=
  !(c.isUpper || c == ' ')

/-- Whether a text holds one of the markers. -/
def spells (markers : List String) (text : String) : Bool :=
  markers.any (contains text)

/-- Markers are made of capital letters and blanks. -/
def ValidMarkers (markers : List String) : Prop :=
  ∀ marker ∈ markers, marker ≠ "" ∧ ∀ c ∈ marker.toList, outsideMarker c = false
  deriving Decidable

/-- Whether a text begins with a symbol that no marker has. -/
def opens (text : String) : Bool :=
  text.toList.head?.any outsideMarker

/-- Whether a text ends with a symbol that no marker has. -/
def closes (text : String) : Bool :=
  text.toList.getLast?.any outsideMarker

/-- Between any two neighbouring pieces there is a symbol that no marker has. -/
def Bordered (pieces : List Piece) : Prop :=
  pieces.IsChain fun p q ↦ closes p.text = true ∨ opens q.text = true

/-- The texts that a statement carries. -/
def carriedOf (pieces : List Piece) : List String :=
  pieces.filterMap fun
    | .keyword _ => none
    | .carried text => some text

/-- Whether a keyword of a statement holds a marker. -/
def keywordSpells (markers : List String) (pieces : List Piece) : Bool :=
  pieces.any fun
    | .keyword text => spells markers text
    | .carried _ => false

/-! ### Lists -/

section Lists

variable {β γ : Type} {p : γ → Prop}

theorem exists_mem_append {l m : List γ} : (∃ x ∈ l ++ m, p x) ↔ (∃ x ∈ l, p x) ∨ ∃ x ∈ m, p x := by
  simp [or_and_right, exists_or]

theorem exists_mem_map {l : List β} {f : β → γ} : (∃ x ∈ l.map f, p x) ↔ ∃ item ∈ l, p (f item) := by
  simp

theorem exists_mem_flatMap {l : List β} {f : β → List γ} :
    (∃ x ∈ l.flatMap f, p x) ↔ ∃ item ∈ l, ∃ x ∈ f item, p x := by
  constructor
  · rintro ⟨x, hx, hp⟩
    obtain ⟨item, hitem, hx⟩ := List.mem_flatMap.1 hx
    exact ⟨item, hitem, x, hx, hp⟩
  · rintro ⟨item, hitem, x, hx, hp⟩
    exact ⟨x, List.mem_flatMap.2 ⟨item, hitem, hx⟩, hp⟩

end Lists

/-! ### Quotes -/

section Quotes

variable {q : Char} {s t : String}

theorem opens_append (h : opens s = true) : opens (s ++ t) = true := by
  rw [opens] at h ⊢
  rw [String.toList_append]
  cases hs : s.toList with
  | nil => simp [hs] at h
  | cons c cs => simpa [hs] using h

theorem closes_append (h : closes t = true) : closes (s ++ t) = true := by
  rw [closes] at h ⊢
  obtain ⟨c, hc, hout⟩ := (Option.any_eq_true _ _).1 h
  simp [hc, hout]

theorem opens_quotedText (hq : outsideMarker q = true) : opens (quotedText q s) = true := by
  simpa [opens, quotedText] using hq

theorem closes_quotedText (hq : outsideMarker q = true) : closes (quotedText q s) = true := by
  have hlast : (q :: (doubled q s.toList ++ [q])).getLast? = some q := by
    rw [← List.cons_append, List.getLast?_concat]
  simp [closes, quotedText, hlast, hq]

end Quotes

/-! ### Pieces -/

section Pieces

variable {markers : List String} {pieces : List Piece}

theorem toList_renderPieces (pieces : List Piece) :
    (renderPieces pieces).toList = (pieces.map (·.text.toList)).flatten := by
  rw [renderPieces, String.toList_join, List.flatMap_map, List.flatMap_def]

theorem contains_iff {s pattern : String} : contains s pattern = true ↔ pattern.toList <:+: s.toList :=
  Scan.occursIn_iff_infix

theorem spells_iff {text : String} :
    spells markers text = true ↔ ∃ marker ∈ markers, marker.toList <:+: text.toList := by
  simp [spells, contains_iff]

theorem spells_append {s t : String} (h : spells markers t = true) : spells markers (s ++ t) = true := by
  obtain ⟨marker, hmarker, hinfix⟩ := spells_iff.1 h
  refine spells_iff.2 ⟨marker, hmarker, ?_⟩
  rw [String.toList_append]
  exact hinfix.trans List.infix_append_right

/-- A marker in a piece is a marker in the statement. -/
theorem spells_of_mem {p : Piece} (hp : p ∈ pieces) (h : spells markers p.text = true) :
    spells markers (renderPieces pieces) = true := by
  obtain ⟨marker, hmarker, hinfix⟩ := spells_iff.1 h
  refine spells_iff.2 ⟨marker, hmarker, hinfix.trans ?_⟩
  rw [toList_renderPieces]
  exact List.infix_of_mem_flatten (List.mem_map_of_mem hp)

/-- Between borders, a marker in a statement is a marker in a piece. -/
theorem exists_of_spells (hmarkers : ValidMarkers markers) (hborders : Bordered pieces)
    (h : spells markers (renderPieces pieces) = true) : ∃ p ∈ pieces, spells markers p.text = true := by
  obtain ⟨marker, hmarker, hinfix⟩ := spells_iff.1 h
  obtain ⟨hne, hplain⟩ := hmarkers marker hmarker
  have hchain : (pieces.map (·.text.toList)).IsChain (Scan.Border outsideMarker) :=
    (List.isChain_map _).2 hborders
  rw [toList_renderPieces, Scan.infix_flatten_iff hplain (by simpa using hne) hchain] at hinfix
  obtain ⟨_, hmem, hinfix⟩ := hinfix
  obtain ⟨p, hp, rfl⟩ := List.mem_map.1 hmem
  exact ⟨p, hp, spells_iff.2 ⟨marker, hmarker, hinfix⟩⟩

theorem exists_spells_iff : (∃ p ∈ pieces, spells markers p.text = true) ↔
    keywordSpells markers pieces = true ∨ ∃ text ∈ carriedOf pieces, spells markers text = true := by
  constructor
  · rintro ⟨p, hp, hspells⟩
    cases p with
    | keyword text => exact .inl (List.any_eq_true.2 ⟨_, hp, hspells⟩)
    | carried text => exact .inr ⟨text, List.mem_filterMap.2 ⟨_, hp, rfl⟩, hspells⟩
  · rintro (hkeyword | ⟨text, htext, hspells⟩)
    · obtain ⟨p, hp, hspells⟩ := List.any_eq_true.1 hkeyword
      cases p with
      | keyword text => exact ⟨_, hp, hspells⟩
      | carried text => cases hspells
    · obtain ⟨p, hp, hsome⟩ := List.mem_filterMap.1 htext
      cases p with
      | keyword text => cases hsome
      | carried text =>
        cases hsome
        exact ⟨_, hp, hspells⟩

/-- **A marker in a statement is one of a keyword, or of a text that the statement carries.** -/
theorem spells_renderPieces_iff (hmarkers : ValidMarkers markers) (hborders : Bordered pieces) :
    spells markers (renderPieces pieces) = true ↔
      keywordSpells markers pieces = true ∨ ∃ text ∈ carriedOf pieces, spells markers text = true := by
  rw [← exists_spells_iff]
  exact ⟨exists_of_spells hmarkers hborders, fun ⟨_, hp, hspells⟩ ↦ spells_of_mem hp hspells⟩

/-- A definition that begins as those of constraints do. -/
def ConstraintShaped (definition : String) : Prop :=
  ∃ rest, definition = "CONSTRAINT " ++ rest ∧ opens rest = true

/-- The statement that adds a constraint has no border before the definition: the keyword there is joined
with its first word. -/
theorem exists_of_spells_addConstraint (hmarkers : ValidMarkers markers)
    (hplain : spells markers " ADD CONSTRAINT " = false) {table definition : String}
    (hopens : opens table = true) (hcloses : closes table = true) (hshaped : ConstraintShaped definition)
    (h : spells markers (renderPieces
      [.keyword "ALTER TABLE ", .carried table, .keyword " ADD ", .carried definition]) = true) :
    ∃ p ∈ [Piece.keyword "ALTER TABLE ", .carried table, .keyword " ADD ", .carried definition],
      spells markers p.text = true := by
  obtain ⟨rest, rfl, hrest⟩ := hshaped
  have hjoin : " ADD " ++ ("CONSTRAINT " ++ rest) = " ADD CONSTRAINT " ++ rest := by
    rw [← String.append_assoc]
    rfl
  have hsame : renderPieces
      [.keyword "ALTER TABLE ", .carried table, .keyword " ADD ", .carried ("CONSTRAINT " ++ rest)] =
        renderPieces [.keyword "ALTER TABLE ", .carried table, .keyword " ADD CONSTRAINT ",
          .carried rest] := by
    simp [renderPieces, Piece.text, hjoin]
  have hborders : Bordered [.keyword "ALTER TABLE ", .carried table, .keyword " ADD CONSTRAINT ",
      .carried rest] := by
    simp [Bordered, Piece.text, hopens, hcloses, hrest]
  rw [hsame] at h
  obtain ⟨p, hp, hspells⟩ := exists_of_spells hmarkers hborders h
  simp only [List.mem_cons, List.not_mem_nil, or_false] at hp
  obtain rfl | rfl | rfl | rfl := hp
  · exact ⟨_, by simp, hspells⟩
  · exact ⟨_, by simp, hspells⟩
  · rw [Piece.text, hplain] at hspells
    cases hspells
  · exact ⟨.carried ("CONSTRAINT " ++ rest), by simp, spells_append hspells⟩

end Pieces

/-! ### Differences -/

section Differences

variable {orders : MapOrders} {baseline target : TableSchema} {columnRenames : List TableColumnRename}

/-- A change of the primary key changes its columns. -/
theorem primaryKeyChange_diffOf (change : PrimaryKeyChange)
    (h : (diffOf orders baseline target columnRenames).primaryKeyChange = some change) :
    change.oldColumns ≠ change.newColumns := by
  have hchange : changeIf (primaryKeyOf baseline).columns (primaryKeyOf target).columns _ = some change := h
  rw [changeIf] at hchange
  split_ifs at hchange with hne
  cases hchange
  exact hne

/-- Primary keys are not among the constraints that are dropped. -/
theorem kind_of_mem_droppedConstraints_diffOf (constraint : TableConstraintSchema)
    (h : constraint ∈ (diffOf orders baseline target columnRenames).droppedConstraints) :
    constraint.kind ≠ .primaryKey := by
  obtain ⟨entry, hentry, rfl⟩ := List.mem_map.1 h
  have hmem : entry ∈ constraintEntries baseline :=
    (orders.baseline.perm _).mem_iff.1 (List.mem_filter.1 hentry).1
  obtain ⟨original, horiginal, rfl⟩ := List.mem_map.1 hmem
  have hkind : original.kind ≠ .primaryKey := by simpa using (List.mem_filter.1 horiginal).2
  exact hkind

end Differences

/-- The definition of a foreign key begins with the name of the constraint. -/
theorem constraintShaped_foreignKeyDefinition {quoteIdentifier : String → String}
    (hquote : ∀ name, opens (quoteIdentifier name) = true)
    {container : TableForeignKeyReference → Option String} {name text : String}
    {constraint : TableConstraintSchema}
    (h : foreignKeyDefinition quoteIdentifier container name constraint = .ok text) :
    ConstraintShaped text := by
  rw [foreignKeyDefinition] at h
  split at h
  · cases h
  · obtain ⟨referencedTable, -, h⟩ := exists_of_bind_eq_ok h
    cases h
    simp only [String.append_assoc]
    exact ⟨_, rfl, opens_append (hquote name)⟩

end Schema
