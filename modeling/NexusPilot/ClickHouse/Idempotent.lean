import Mathlib.Data.List.Dedup
import NexusPilot.ClickHouse.Integers

/-!
# Normalising a value again

`normalize_value` changes the shape of a value: maps become arrays of pairs, named tuples objects, integers numbers or
text. What comes out is read again as what it was made from, with the same count of nodes and at the same depths, so that
normalising it again changes nothing (`normalizeValue_again`). Floats are left out: a text of theirs is read into a binary
number.

The objects of a value are maps in the order of their keys (`OrderedJson`), as `serde_json` keeps them.
-/

namespace ClickHouse

open Drivers DecimalText

/-- The objects inside are maps: their entries stand in the order of their keys, each key once. -/
inductive OrderedJson : Json → Prop
  | null : OrderedJson .null
  | bool (value : Bool) : OrderedJson (.bool value)
  | num (text : String) : OrderedJson (.num text)
  | str (text : String) : OrderedJson (.str text)
  | arr {items : List Json} (hitems : ∀ item ∈ items, OrderedJson item) : OrderedJson (.arr items)
  | obj {entries : List (String × Json)} (hkeys : entries.Pairwise fun first second ↦ first.1 < second.1)
      (hentries : ∀ entry ∈ entries, OrderedJson entry.2) : OrderedJson (.obj entries)

/-- A value of the type may hold a float. The alternatives of a variant are not read. -/
inductive HasFloat : ClickHouseType → Prop
  | float (bits : ℕ) : HasFloat (.float bits)
  | nullable {inner : ClickHouseType} (h : HasFloat inner) : HasFloat (.nullable inner)
  | lowCardinality {inner : ClickHouseType} (h : HasFloat inner) : HasFloat (.lowCardinality inner)
  | array {inner : ClickHouseType} (h : HasFloat inner) : HasFloat (.array inner)
  | mapKey {key value : ClickHouseType} (h : HasFloat key) : HasFloat (.map key value)
  | mapValue {key value : ClickHouseType} (h : HasFloat value) : HasFloat (.map key value)
  | tuple {fields : List (Option String × ClickHouseType)} {field : Option String × ClickHouseType}
      (hfield : field ∈ fields) (h : HasFloat field.2) : HasFloat (.tuple fields)
  | nested {fields : List (Option String × ClickHouseType)} {field : Option String × ClickHouseType}
      (hfield : field ∈ fields) (h : HasFloat field.2) : HasFloat (.nested fields)

/-! ### Computations that count -/

section Counted

variable {α β : Type}

variable {f : α → Counted β} {nodes after : ℕ} {a : α} {ys : List β} {xs : List α}

/-- A computation whose parts are known. -/
theorem counted_bind_eq_ok_iff {x : Counted α} {b : β} :
    (x >>= f) nodes = .ok (b, after) ↔ ∃ a middle, x nodes = .ok (a, middle) ∧ f a middle = .ok (b, after) := by
  show (x nodes >>= fun r ↦ f r.1 r.2) = .ok (b, after) ↔ _
  rw [bind_eq_ok_iff]
  constructor
  · rintro ⟨⟨a, middle⟩, hx, hf⟩
    exact ⟨a, middle, hx, hf⟩
  · rintro ⟨a, middle, hx, hf⟩
    exact ⟨(a, middle), hx, hf⟩

theorem counted_pure_eq_ok_iff {b : α} :
    (pure a : Counted α) nodes = .ok (b, after) ↔ a = b ∧ nodes = after := by
  show Except.ok (a, nodes) = .ok (b, after) ↔ _
  rw [Except.ok.injEq, Prod.mk.injEq]

theorem counted_throw_ne_ok {error : IpcError} :
    (throw error : Counted α) nodes ≠ .ok (a, after) :=
  nofun

theorem counted_lift_eq_ok_iff {x : IpcResult α} :
    (liftM x : Counted α) nodes = .ok (a, after) ↔ x = .ok a ∧ nodes = after := by
  show (x >>= fun a ↦ Except.ok (a, nodes)) = .ok (a, after) ↔ _
  rw [bind_eq_ok_iff]
  constructor
  · rintro ⟨a', hx, h⟩
    obtain ⟨rfl, rfl⟩ := Prod.mk.inj (Except.ok.inj h)
    exact ⟨hx, rfl⟩
  · rintro ⟨hx, rfl⟩
    exact ⟨a, hx, rfl⟩

theorem counted_mapM_nil :
    ([].mapM f) nodes = .ok (ys, after) ↔ ys = [] ∧ nodes = after := by
  rw [List.mapM_nil, counted_pure_eq_ok_iff, eq_comm]

theorem counted_mapM_cons {x : α} :
    ((x :: xs).mapM f) nodes = .ok (ys, after) ↔
      ∃ y middle ys', f x nodes = .ok (y, middle) ∧ (xs.mapM f) middle = .ok (ys', after) ∧ ys = y :: ys' := by
  rw [List.mapM_cons, counted_bind_eq_ok_iff]
  constructor
  · rintro ⟨y, middle, hy, h⟩
    obtain ⟨ys', middle', hys, h⟩ := counted_bind_eq_ok_iff.1 h
    obtain ⟨rfl, rfl⟩ := counted_pure_eq_ok_iff.1 h
    exact ⟨y, middle, ys', hy, hys, rfl⟩
  · rintro ⟨y, middle, ys', hy, hys, rfl⟩
    exact ⟨y, middle, hy, counted_bind_eq_ok_iff.2 ⟨ys', after, hys, rfl⟩⟩

/-- A loop whose bodies come to the same results from other items comes to the same result. -/
theorem counted_mapM_again {γ : Type} (g : γ → Counted β) (again : α → β → γ)
    (h : (xs.mapM f) nodes = .ok (ys, after))
    (hf : ∀ x ∈ xs, ∀ nodes y after, f x nodes = .ok (y, after) → g (again x y) nodes = .ok (y, after)) :
    ys.length = xs.length ∧ ((List.zipWith again xs ys).mapM g) nodes = .ok (ys, after) := by
  induction xs generalizing ys nodes with
  | nil =>
    obtain ⟨rfl, rfl⟩ := counted_mapM_nil.1 h
    exact ⟨rfl, rfl⟩
  | cons x xs ih =>
    obtain ⟨y, middle, ys', hy, hys, rfl⟩ := counted_mapM_cons.1 h
    obtain ⟨hlength, hrest⟩ := ih hys fun x' hx' ↦ hf x' (List.mem_cons_of_mem _ hx')
    refine ⟨congrArg (· + 1) hlength, counted_mapM_cons.2 ⟨y, middle, ys', ?_, hrest, rfl⟩⟩
    exact hf x List.mem_cons_self nodes y middle hy

/-- Each result of a loop is one of its body. -/
theorem exists_of_mem_counted_mapM (h : (xs.mapM f) nodes = .ok (ys, after)) {y : β} (hy : y ∈ ys) :
    ∃ x nodes after, f x nodes = .ok (y, after) := by
  induction xs generalizing ys nodes with
  | nil =>
    obtain ⟨rfl, -⟩ := counted_mapM_nil.1 h
    cases hy
  | cons x xs ih =>
    obtain ⟨y', middle, ys', hy', hys, rfl⟩ := counted_mapM_cons.1 h
    obtain rfl | hrest := List.mem_cons.1 hy
    · exact ⟨x, nodes, middle, hy'⟩
    · exact ih hys hrest

end Counted

/-! ### Maps -/

section Entries

theorem map_fst_zip {names : List String} {values : List Json} (h : values.length = names.length) :
    (names.zip values).map Prod.fst = names :=
  List.map_fst_zip (Nat.le_of_eq h.symm)

variable {key : String} {json : Json} {entries : List (String × Json)}

theorem insertEntry_perm (h : key ∉ entries.map Prod.fst) :
    (insertEntry key json entries).Perm ((key, json) :: entries) := by
  induction entries with
  | nil => exact .refl _
  | cons entry entries ih =>
    obtain ⟨hne, hrest⟩ := not_or.1 (mt List.mem_cons.2 h)
    rw [insertEntry]
    split
    · exact .refl _
    · exact ((ih hrest).cons entry).trans (List.Perm.swap _ _ _)

theorem foldl_insertEntry_perm {map : List (String × Json)} (h : ((map ++ entries).map Prod.fst).Nodup) :
    (entries.foldl (fun map entry ↦ insertEntry entry.1 entry.2 map) map).Perm (map ++ entries) := by
  induction entries generalizing map with
  | nil => rw [List.append_nil]; exact .refl _
  | cons entry entries ih =>
    have hperm : (map ++ entry :: entries).Perm ((entry :: map) ++ entries) := List.perm_middle
    have hnodup := (hperm.map Prod.fst).nodup_iff.1 h
    have hnew : entry.1 ∉ map.map Prod.fst := by
      rw [List.cons_append, List.map_cons, List.nodup_cons, List.map_append, List.mem_append] at hnodup
      exact fun hmem ↦ hnodup.1 (.inl hmem)
    have hinsert : (insertEntry entry.1 entry.2 map ++ entries).Perm ((entry :: map) ++ entries) :=
      (insertEntry_perm hnew).append_right entries
    refine (ih ((hinsert.map Prod.fst).nodup_iff.2 hnodup)).trans (hinsert.trans hperm.symm)

/-- What is collected from entries of different keys are these entries. -/
theorem collectMap_perm (h : (entries.map Prod.fst).Nodup) :
    (collectMap entries).Perm entries :=
  foldl_insertEntry_perm h

theorem insertEntry_of_last (h : ∀ entry ∈ entries, entry.1 < key) :
    insertEntry key json entries = entries ++ [(key, json)] := by
  induction entries with
  | nil => rfl
  | cons entry entries ih =>
    have hlt := h entry List.mem_cons_self
    rw [insertEntry, if_neg (String.lt_asymm hlt), if_neg (fun heq ↦ String.lt_irrefl _ (heq ▸ hlt)),
      ih fun entry' h' ↦ h entry' (List.mem_cons_of_mem _ h')]
    rfl

/-- Entries in the order of their keys are collected as they stand. -/
theorem collectMap_of_ordered (h : entries.Pairwise fun first second ↦ first.1 < second.1) :
    collectMap entries = entries := by
  induction entries using List.reverseRecOn with
  | nil => rfl
  | append_singleton entries entry ih =>
    obtain ⟨hfront, -, hlast⟩ := List.pairwise_append.1 h
    have hcollected := ih hfront
    rw [collectMap] at hcollected ⊢
    rw [List.foldl_append, hcollected]
    exact insertEntry_of_last fun entry' h' ↦ hlast entry' h' entry List.mem_cons_self

theorem nodup_keys_of_ordered (h : entries.Pairwise fun first second ↦ first.1 < second.1) :
    (entries.map Prod.fst).Nodup := by
  refine List.pairwise_map.2 (h.imp ?_)
  rintro first second hlt heq
  exact String.lt_irrefl _ (heq ▸ hlt)

theorem removeEntry_perm {rest : List (String × Json)} (h : removeEntry key entries = some (json, rest)) :
    entries.Perm ((key, json) :: rest) := by
  induction entries generalizing rest with
  | nil => cases h
  | cons entry entries ih =>
    rw [removeEntry] at h
    split at h
    · next heq =>
      cases h
      rw [← heq]
    · obtain ⟨⟨found, left⟩, hfound, heq⟩ := Option.map_eq_some_iff.1 h
      cases heq
      exact ((ih hfound).cons entry).trans (List.Perm.swap _ _ _)

/-- An entry of a map is found under its key. -/
theorem exists_removeEntry (hmem : (key, json) ∈ entries) (hnodup : (entries.map Prod.fst).Nodup) :
    ∃ rest, removeEntry key entries = some (json, rest) := by
  induction entries with
  | nil => cases hmem
  | cons entry entries ih =>
    rw [List.map_cons, List.nodup_cons] at hnodup
    rw [removeEntry]
    obtain rfl | hrest := List.mem_cons.1 hmem
    · exact ⟨entries, if_pos rfl⟩
    · have hne : entry.1 ≠ key := by
        rintro rfl
        exact hnodup.1 (List.mem_map.2 ⟨_, hrest, rfl⟩)
      obtain ⟨rest, hfound⟩ := ih hrest hnodup.2
      rw [if_neg hne, hfound]
      exact ⟨entry :: rest, rfl⟩

end Entries

/-! ### Fields of objects -/

section Fields

variable {lib : ValueLibrary} {ty : ClickHouseType}

/-- The values that are removed from a map under the names, one after the other. -/
def removeEntries : List String → List (String × Json) → Option (List Json)
  | [], _ => some []
  | name :: names, entries =>
    match removeEntry name entries with
    | none => none
    | some (value, entries) => (removeEntries names entries).map (value :: ·)

variable {names : List String} {entries : List (String × Json)} {values : List Json}
  {fields : List (Option String × ClickHouseType)} {nodes after : ℕ}

theorem removeEntries_cons {name : String} :
    removeEntries (name :: names) entries = some values ↔
      ∃ value rest values', removeEntry name entries = some (value, rest) ∧
        removeEntries names rest = some values' ∧ values = value :: values' := by
  rw [removeEntries]
  obtain hnone | ⟨⟨value, rest⟩, hfound⟩ := Option.eq_none_or_eq_some (removeEntry name entries)
  · rw [hnone]
    exact ⟨nofun, fun ⟨_, _, _, h, _⟩ ↦ (nomatch h)⟩
  · rw [hfound]
    constructor
    · intro h
      obtain ⟨values', hvalues, rfl⟩ := Option.map_eq_some_iff.1 h
      exact ⟨value, rest, values', rfl, hvalues, rfl⟩
    · rintro ⟨value', rest', values', h, hvalues, rfl⟩
      cases h
      exact Option.map_eq_some_iff.2 ⟨values', hvalues, rfl⟩

/-- The values that are removed stand in the map. -/
theorem of_removeEntries (h : removeEntries names entries = some values) :
    values.length = names.length ∧ ∀ value ∈ values, ∃ entry ∈ entries, entry.2 = value := by
  induction names generalizing entries values with
  | nil =>
    cases h
    exact ⟨rfl, nofun⟩
  | cons name names ih =>
    obtain ⟨value, rest, values', hfound, hrest, rfl⟩ := removeEntries_cons.1 h
    have hperm := removeEntry_perm hfound
    obtain ⟨hlength, hmem⟩ := ih hrest
    refine ⟨congrArg (· + 1) hlength, fun value' hvalue ↦ ?_⟩
    obtain rfl | hvalue := List.mem_cons.1 hvalue
    · exact ⟨(name, value'), hperm.mem_iff.2 List.mem_cons_self, rfl⟩
    · obtain ⟨entry, hentry, rfl⟩ := hmem value' hvalue
      exact ⟨entry, hperm.mem_iff.2 (List.mem_cons_of_mem _ hentry), rfl⟩

/-- Names under which a map of different keys holds values are different. -/
theorem nodup_of_removeEntries (h : removeEntries names entries = some values)
    (hnodup : (entries.map Prod.fst).Nodup) :
    names.Nodup ∧ ∀ name ∈ names, name ∈ entries.map Prod.fst := by
  induction names generalizing entries values with
  | nil => exact ⟨List.nodup_nil, nofun⟩
  | cons name names ih =>
    obtain ⟨value, rest, values', hfound, hrest, rfl⟩ := removeEntries_cons.1 h
    have hperm := (removeEntry_perm hfound).map Prod.fst
    have hkeys := hperm.nodup_iff.1 hnodup
    rw [List.map_cons, List.nodup_cons] at hkeys
    obtain ⟨hnames, hmem⟩ := ih hrest hkeys.2
    refine ⟨List.nodup_cons.2 ⟨fun hname ↦ hkeys.1 (hmem name hname), hnames⟩, fun name' hname ↦ ?_⟩
    rw [hperm.mem_iff]
    obtain rfl | hname := List.mem_cons.1 hname
    · exact List.mem_cons_self
    · exact List.mem_cons_of_mem _ (hmem name' hname)

/-- From a map of these names and values the values are removed. -/
theorem removeEntries_of_perm (hlength : values.length = names.length) (hnames : names.Nodup)
    (hperm : entries.Perm (names.zip values)) :
    removeEntries names entries = some values := by
  induction names generalizing values entries with
  | nil =>
    rw [List.eq_nil_of_length_eq_zero hlength]
    rfl
  | cons name names ih =>
    obtain ⟨value, values, rfl⟩ := List.exists_cons_of_length_eq_add_one hlength
    have hlength' : values.length = names.length := Nat.succ.inj hlength
    have hkeys : (entries.map Prod.fst).Nodup := by
      rw [(hperm.map Prod.fst).nodup_iff, map_fst_zip hlength]
      exact hnames
    have hmem : (name, value) ∈ entries := hperm.mem_iff.2 List.mem_cons_self
    obtain ⟨rest, hfound⟩ := exists_removeEntry hmem hkeys
    have hrest : rest.Perm (names.zip values) :=
      List.Perm.cons_inv ((removeEntry_perm hfound).symm.trans hperm)
    exact removeEntries_cons.2
      ⟨value, rest, values, hfound, ih hlength' (List.nodup_cons.1 hnames).2 hrest, rfl⟩

variable {normalize : ClickHouseType → Json → Counted Json}

/-- The values of the fields, each normalised by the type of its field. -/
def normalizeFields (normalize : ClickHouseType → Json → Counted Json)
    (fields : List (Option String × ClickHouseType)) (values : List Json) : Counted (List Json) :=
  (fields.zip values).mapM fun pair ↦ normalize pair.1.2 pair.2

theorem tupleFields_eq_ok_iff {normalized : List Json} :
    tupleFields lib normalize ty fields entries nodes = .ok (normalized, after) ↔
      ∃ values, removeEntries (fields.map (·.1.getD "")) entries = some values ∧
        normalizeFields normalize fields values nodes = .ok (normalized, after) := by
  induction fields generalizing entries nodes normalized with
  | nil =>
    rw [tupleFields, counted_pure_eq_ok_iff]
    constructor
    · rintro ⟨rfl, rfl⟩
      exact ⟨[], rfl, rfl⟩
    · rintro ⟨values, -, h⟩
      obtain ⟨rfl, rfl⟩ := counted_mapM_nil.1 h
      exact ⟨rfl, rfl⟩
  | cons field fields ih =>
    rw [tupleFields, List.map_cons]
    obtain hnone | ⟨⟨value, rest⟩, hfound⟩ := Option.eq_none_or_eq_some (removeEntry (field.1.getD "") entries)
    · rw [hnone]
      refine ⟨fun h ↦ absurd h counted_throw_ne_ok, ?_⟩
      rintro ⟨values, hvalues, -⟩
      obtain ⟨value, rest, values', hcontra, -⟩ := removeEntries_cons.1 hvalues
      rw [hnone] at hcontra
      cases hcontra
    · rw [hfound, counted_bind_eq_ok_iff]
      constructor
      · rintro ⟨json, middle, hjson, h⟩
        obtain ⟨jsons, after', hjsons, h⟩ := counted_bind_eq_ok_iff.1 h
        obtain ⟨rfl, rfl⟩ := counted_pure_eq_ok_iff.1 h
        obtain ⟨values, hvalues, hrest⟩ := ih.1 hjsons
        exact ⟨value :: values, removeEntries_cons.2 ⟨value, rest, values, hfound, hvalues, rfl⟩,
          counted_mapM_cons.2 ⟨json, middle, jsons, hjson, hrest, rfl⟩⟩
      · rintro ⟨values, hvalues, h⟩
        obtain ⟨value', rest', values', hfound', hvalues, rfl⟩ := removeEntries_cons.1 hvalues
        rw [hfound] at hfound'
        cases hfound'
        obtain ⟨json, middle, jsons, hjson, hrest, rfl⟩ := counted_mapM_cons.1 h
        exact ⟨json, middle, hjson, counted_bind_eq_ok_iff.2 ⟨jsons, after, ih.2 ⟨values', hvalues, hrest⟩, rfl⟩⟩

theorem nestedFields_eq_ok_iff {normalized : List (String × Json)} :
    nestedFields lib normalize ty fields entries nodes = .ok (normalized, after) ↔
      ∃ names values jsons, fields.map Prod.fst = names.map some ∧ removeEntries names entries = some values ∧
        normalizeFields normalize (fields.map fun field ↦ (field.1, .array field.2)) values nodes =
          .ok (jsons, after) ∧ normalized = names.zip jsons := by
  induction fields generalizing entries nodes normalized with
  | nil =>
    rw [nestedFields, counted_pure_eq_ok_iff]
    constructor
    · rintro ⟨rfl, rfl⟩
      exact ⟨[], [], [], rfl, rfl, rfl, rfl⟩
    · rintro ⟨names, values, jsons, hnames, -, h, rfl⟩
      obtain ⟨rfl, rfl⟩ := counted_mapM_nil.1 h
      obtain rfl : names = [] := List.map_eq_nil_iff.1 hnames.symm
      exact ⟨rfl, rfl⟩
  | cons field fields ih =>
    obtain ⟨name | name, inner⟩ := field
    · refine ⟨fun h ↦ absurd h counted_throw_ne_ok, ?_⟩
      rintro ⟨names, values, jsons, hnames, -⟩
      cases names with
      | nil => cases hnames
      | cons name names => cases hnames
    · rw [nestedFields]
      show (match removeEntry name entries with
        | none => throw (valueError lib ty "Nested field is missing")
        | some (value, values) => do
          let json ← normalize (.array inner) value
          let rest ← nestedFields lib normalize ty fields values
          pure ((name, json) :: rest)) nodes = .ok (normalized, after) ↔ _
      obtain hnone | ⟨⟨value, rest⟩, hfound⟩ := Option.eq_none_or_eq_some (removeEntry name entries)
      · rw [hnone]
        refine ⟨fun h ↦ absurd h counted_throw_ne_ok, ?_⟩
        rintro ⟨names, values, jsons, hnames, hvalues, -⟩
        cases names with
        | nil => cases hnames
        | cons name' names =>
          cases (List.cons.inj hnames).1
          obtain ⟨value, rest, values', hcontra, -⟩ := removeEntries_cons.1 hvalues
          rw [hnone] at hcontra
          cases hcontra
      · rw [hfound]
        refine counted_bind_eq_ok_iff.trans ?_
        constructor
        · rintro ⟨json, middle, hjson, h⟩
          obtain ⟨collected, after', hcollected, h⟩ := counted_bind_eq_ok_iff.1 h
          obtain ⟨rfl, rfl⟩ := counted_pure_eq_ok_iff.1 h
          obtain ⟨names, values, jsons, hnames, hvalues, hrest, rfl⟩ := ih.1 hcollected
          refine ⟨name :: names, value :: values, json :: jsons, ?_, ?_, ?_, rfl⟩
          · rw [List.map_cons, List.map_cons, hnames]
          · exact removeEntries_cons.2 ⟨value, rest, values, hfound, hvalues, rfl⟩
          · exact counted_mapM_cons.2 ⟨json, middle, jsons, hjson, hrest, rfl⟩
        · rintro ⟨names, values, jsons, hnames, hvalues, h, rfl⟩
          cases names with
          | nil => cases hnames
          | cons name' names =>
            obtain ⟨hname, hrestNames⟩ := List.cons.inj hnames
            cases hname
            obtain ⟨value', rest', values', hfound', hvalues, rfl⟩ := removeEntries_cons.1 hvalues
            rw [hfound] at hfound'
            cases hfound'
            obtain ⟨json, middle, jsons', hjson, hrest, rfl⟩ := counted_mapM_cons.1 h
            exact ⟨json, middle, hjson, counted_bind_eq_ok_iff.2
              ⟨names.zip jsons', after, ih.2 ⟨names, values', jsons', hrestNames, hvalues, hrest, rfl⟩, rfl⟩⟩

end Fields

/-! ### The same value again -/

section Again

variable {lib : ValueLibrary} {budget : ValueBudget} {levels : ℕ} {ty : ClickHouseType}

/-- What a computation makes of a value it makes of itself again, with the same count; and only `null` becomes `null`. -/
def Reproduces (f : Json → Counted Json) : Prop :=
  ∀ json nodes normalized after, OrderedJson json → f json nodes = .ok (normalized, after) →
    f normalized nodes = .ok (normalized, after) ∧ (normalized = .null → json = .null)

variable {items values : List Json} {signed : Bool} {json normalized : Json} {s : List Char}
  {separator : Char} {scale nodes after : ℕ} {fields : List (Option String × ClickHouseType)}
  {entries : List (Json × Json)} {keyType valueType : ClickHouseType}

theorem OrderedJson.of_mem (h : OrderedJson (.arr items)) : ∀ item ∈ items, OrderedJson item := by
  cases h with
  | arr hitems => exact hitems

/-! #### Scalars -/

theorem isIntegerText_integerNotation (n : ℤ) : isIntegerText (integerNotation n) = true := by
  have hcanonical := canonical_text n.natAbs
  have hall : (text n.natAbs).all Char.isDigit = true := List.all_eq_true.2 hcanonical.hdigits
  have hread : (text n.natAbs ≠ [] && (text n.natAbs).all Char.isDigit) = true := by
    rw [hall, Bool.and_true, decide_eq_true_eq]
    exact hcanonical.hne
  rw [integerNotation, signedText, isIntegerText]
  split
  · exact hread
  · have hhead : (text n.natAbs).head? ≠ some '-' := by
      intro hminus
      exact absurd (hcanonical.hdigits '-' (List.mem_of_mem_head? hminus)) (by decide)
    rw [if_neg hhead]
    exact hread

theorem integerText_integerValue (n : ℤ) : integerText (integerValue n) = some (integerNotation n) := by
  rw [integerValue]
  split
  · rw [integerText, String.toList_ofList, if_pos (isIntegerText_integerNotation n)]
  · rw [integerText, String.toList_ofList]

theorem integerText_integerNotation {n : ℤ} (h : signed = false → 0 ≤ n) :
    IntegerText signed (integerNotation n) n := by
  have hcanonical := canonical_text n.natAbs
  refine ⟨text n.natAbs, hcanonical.hne, hcanonical.hdigits, ?_⟩
  rw [value_text, integerNotation, signedText]
  obtain hn | hn := Int.lt_or_le n 0
  · refine .inr ⟨?_, by rw [decide_eq_true hn, if_pos rfl], by omega⟩
    cases signed with
    | true => rfl
    | false => exact absurd (h rfl) (Int.not_le.2 hn)
  · refine .inl ⟨.inl ?_, by omega⟩
    rw [decide_eq_false (Int.not_lt.2 hn), if_neg Bool.false_ne_true]

/-- An integer is read again as the same integer. -/
theorem normalizeInteger_again {bits : ℕ} (h : normalizeInteger lib json signed bits ty = .ok normalized) :
    normalizeInteger lib normalized signed bits ty = .ok normalized ∧ normalized ≠ .null := by
  obtain ⟨text, n, htext, hn, hrange, rfl⟩ := normalizeInteger_eq_ok_iff.1 h
  refine ⟨normalizeInteger_eq_ok_iff.2 ⟨_, n, integerText_integerValue n, integerText_integerNotation hn.nonneg, hrange,
    rfl⟩, ?_⟩
  rw [integerValue]
  split
  · rintro ⟨⟩
  · rintro ⟨⟩

/-! #### Decimals -/

theorem isDigitRun_iff : isDigitRun s = true ↔ s ≠ [] ∧ IsDigits s := by
  rw [isDigitRun, Bool.and_eq_true, decide_eq_true_eq, List.all_eq_true]
  rfl

theorem splitOnce_of_notMem (h : separator ∉ s) : splitOnce separator s = none := by
  induction s with
  | nil => rfl
  | cons c s ih =>
    obtain ⟨hne, hrest⟩ := not_or.1 (mt List.mem_cons.2 h)
    rw [splitOnce, if_neg (Ne.symm hne), ih hrest]
    rfl

theorem splitOnce_append {rest : List Char} (h : separator ∉ s) :
    splitOnce separator (s ++ separator :: rest) = some (s, rest) := by
  induction s with
  | nil => exact if_pos rfl
  | cons c s ih =>
    obtain ⟨hne, hrest⟩ := not_or.1 (mt List.mem_cons.2 h)
    rw [List.cons_append, splitOnce, if_neg (Ne.symm hne), ih hrest]
    rfl

theorem dot_notMem (h : IsDigits s) : '.' ∉ s :=
  fun hmem ↦ absurd (h '.' hmem) (by decide)

/-- The signs of a decimal. -/
def IsSign (sign : List Char) : Prop :=
  sign = [] ∨ sign = ['-'] ∨ sign = ['+']

theorem isSign_signOf (text : List Char) : IsSign (signOf text) := by
  rw [signOf.eq_def]
  split
  · exact .inr (.inl rfl)
  · exact .inr (.inr rfl)
  · exact .inl rfl

/-- A sign is split from the digits behind it. -/
theorem splitSign_append {sign whole rest : List Char} (hsign : IsSign sign) (hwhole : isDigitRun whole = true) :
    (splitSign (sign ++ (whole ++ rest))).2 = whole ++ rest ∧ signOf (sign ++ (whole ++ rest)) = sign := by
  obtain ⟨hne, hdigits⟩ := isDigitRun_iff.1 hwhole
  obtain ⟨c, front, rfl⟩ := List.exists_cons_of_ne_nil hne
  have hc := hdigits c List.mem_cons_self
  obtain rfl | rfl | rfl := hsign
  · rw [List.nil_append, List.cons_append, splitSign.eq_def, signOf.eq_def]
    split
    · next heq =>
      cases (List.cons.inj heq).1
      exact absurd hc (by decide)
    · next heq =>
      cases (List.cons.inj heq).1
      exact absurd hc (by decide)
    · exact ⟨rfl, rfl⟩
  · exact ⟨rfl, rfl⟩
  · exact ⟨rfl, rfl⟩

/-- A decimal is made of a sign, digits, and a fraction of the scale. -/
theorem of_normalizeDecimal (h : normalizeDecimal lib json scale ty = .ok normalized) :
    ∃ sign whole fraction, IsSign sign ∧ isDigitRun whole = true ∧ IsDigits fraction ∧ fraction.length = scale ∧
      normalized = .str (String.ofList (sign ++ (whole ++ if scale = 0 then [] else '.' :: fraction))) := by
  rw [normalizeDecimal] at h
  obtain hnone | ⟨text, htext⟩ := Option.eq_none_or_eq_some (decimalText json)
  · rw [hnone] at h
    cases h
  · rw [htext] at h
    obtain ⟨hplain, h⟩ := ite_error_eq_ok_iff.1 h
    rw [not_not, isPlainDecimal] at hplain
    obtain ⟨whole, fraction, hparts, hwhole, hfraction⟩ : ∃ whole fraction,
        (splitOnce '.' (splitSign text).2).getD ((splitSign text).2, []) = (whole, fraction) ∧
          isDigitRun whole = true ∧ IsDigits fraction := by
      obtain hwhole | ⟨⟨whole, fraction⟩, hsplit⟩ := Option.eq_none_or_eq_some (splitOnce '.' (splitSign text).2)
      · rw [hwhole] at hplain ⊢
        exact ⟨_, [], rfl, hplain, nofun⟩
      · rw [hsplit] at hplain ⊢
        simp only [Bool.and_eq_true] at hplain
        exact ⟨whole, fraction, rfl, hplain.1.1, (isDigitRun_iff.1 hplain.1.2).2⟩
    simp only [hparts] at h
    obtain ⟨hscale, h⟩ := ite_error_eq_ok_iff.1 h
    have hlength : (fraction ++ List.replicate (scale - fraction.length) '0').length = scale := by
      rw [List.length_append, List.length_replicate]
      omega
    refine ⟨signOf text, whole, _, isSign_signOf text, hwhole, ?_, hlength, ?_⟩
    · intro c hc
      obtain hc | hc := List.mem_append.1 hc
      · exact hfraction c hc
      · rw [(List.mem_replicate.1 hc).2]
        decide
    · split at h
      · next hzero =>
        rw [if_pos hzero, List.append_nil]
        exact (Except.ok.inj h).symm
      · next hzero =>
        rw [if_neg hzero]
        refine (Except.ok.inj h).symm.trans ?_
        simp only [List.append_assoc, List.cons_append]

/-- A decimal of its scale is read again as the same decimal. -/
theorem normalizeDecimal_again (h : normalizeDecimal lib json scale ty = .ok normalized) :
    normalizeDecimal lib normalized scale ty = .ok normalized ∧ normalized ≠ .null := by
  obtain ⟨sign, whole, fraction, hsign, hwhole, hfraction, hlength, rfl⟩ := of_normalizeDecimal h
  refine ⟨?_, nofun⟩
  obtain ⟨hunsigned, hsignOf⟩ := @splitSign_append _ _ (if scale = 0 then [] else '.' :: fraction) hsign hwhole
  have hdot := dot_notMem (isDigitRun_iff.1 hwhole).2
  rw [normalizeDecimal, decimalText, String.toList_ofList]
  simp only [isPlainDecimal, hunsigned, hsignOf]
  obtain rfl | hpos := Nat.eq_zero_or_pos scale
  · rw [List.eq_nil_of_length_eq_zero hlength, if_pos rfl, List.append_nil, splitOnce_of_notMem hdot]
    simp [hwhole]
  · have hrun : isDigitRun fraction = true := isDigitRun_iff.2 ⟨List.ne_nil_of_length_pos (by omega), hfraction⟩
    rw [if_neg (Nat.ne_of_gt hpos), splitOnce_append hdot]
    simp [hwhole, hrun, splitOnce_of_notMem (dot_notMem hfraction), hlength, Nat.ne_of_gt hpos]

/-! #### Values of unknown shape -/

theorem counted_mapM_eq {α : Type} {f : α → Counted α} {xs ys : List α}
    (h : (xs.mapM f) nodes = .ok (ys, after))
    (hf : ∀ x ∈ xs, ∀ nodes y after, f x nodes = .ok (y, after) → y = x) : ys = xs := by
  induction xs generalizing ys nodes with
  | nil => exact (counted_mapM_nil.1 h).1
  | cons x xs ih =>
    obtain ⟨y, middle, ys', hy, hys, rfl⟩ := counted_mapM_cons.1 h
    rw [hf x List.mem_cons_self nodes y middle hy, ih hys fun x' hx' ↦ hf x' (List.mem_cons_of_mem _ hx')]

theorem untypedWith_eq {item : Json → Counted Json}
    (hitem : ∀ json nodes normalized after, OrderedJson json → item json nodes = .ok (normalized, after) →
      normalized = json) (hordered : OrderedJson json)
    (h : untypedWith item json nodes = .ok (normalized, after)) : normalized = json := by
  cases hordered with
  | arr hitems =>
    obtain ⟨items, middle, hmap, h⟩ := counted_bind_eq_ok_iff.1 h
    obtain ⟨rfl, -⟩ := counted_pure_eq_ok_iff.1 h
    exact congrArg Json.arr (counted_mapM_eq hmap fun x hx nodes y after ↦ hitem x nodes y after (hitems x hx))
  | obj hkeys hentries =>
    obtain ⟨entries, middle, hmap, h⟩ := counted_bind_eq_ok_iff.1 h
    obtain ⟨rfl, -⟩ := counted_pure_eq_ok_iff.1 h
    have hsame := counted_mapM_eq hmap fun entry hentry nodes y after hy ↦ by
      obtain ⟨json, middle', hjson, hy⟩ := counted_bind_eq_ok_iff.1 hy
      obtain ⟨rfl, -⟩ := counted_pure_eq_ok_iff.1 hy
      exact Prod.ext rfl (hitem entry.2 nodes json middle' (hentries entry hentry) hjson)
    rw [hsame, collectMap_of_ordered hkeys]
  | null => exact (counted_pure_eq_ok_iff.1 h).1.symm
  | bool value => exact (counted_pure_eq_ok_iff.1 h).1.symm
  | num text => exact (counted_pure_eq_ok_iff.1 h).1.symm
  | str text => exact (counted_pure_eq_ok_iff.1 h).1.symm

/-- A value of unknown shape stays as it is. -/
theorem normalizeUntyped_eq (hordered : OrderedJson json)
    (h : normalizeUntyped lib budget ty levels json nodes = .ok (normalized, after)) : normalized = json := by
  induction levels generalizing json normalized nodes after with
  | zero => exact untypedWith_eq (fun _ _ _ _ _ hcontra ↦ absurd hcontra counted_throw_ne_ok) hordered h
  | succ levels ih =>
    refine untypedWith_eq (fun json nodes normalized after hjson hitem ↦ ?_) hordered h
    obtain ⟨-, middle, -, hitem⟩ := counted_bind_eq_ok_iff.1 hitem
    exact ih hjson hitem

/-! #### Values inside values -/

variable {normalize : ClickHouseType → Json → Counted Json}

theorem zipWith_right {α β γ : Type} {g : β → γ} {xs : List α} {ys : List β} (h : ys.length = xs.length) :
    List.zipWith (fun _ y ↦ g y) xs ys = ys.map g := by
  induction xs generalizing ys with
  | nil => rw [List.eq_nil_of_length_eq_zero h]; rfl
  | cons x xs ih =>
    obtain ⟨y, ys, rfl⟩ := List.exists_cons_of_length_eq_add_one h
    rw [List.zipWith_cons_cons, ih (Nat.succ.inj h), List.map_cons]

theorem zipWith_fields {jsons : List Json} (hvalues : values.length = fields.length)
    (hjsons : jsons.length = fields.length) :
    List.zipWith (fun pair json ↦ (pair.1, json)) (fields.zip values) jsons = fields.zip jsons := by
  induction fields generalizing values jsons with
  | nil => rfl
  | cons field fields ih =>
    obtain ⟨value, values, rfl⟩ := List.exists_cons_of_length_eq_add_one hvalues
    obtain ⟨json, jsons, rfl⟩ := List.exists_cons_of_length_eq_add_one hjsons
    rw [List.zip_cons_cons, List.zipWith_cons_cons, ih (Nat.succ.inj hvalues) (Nat.succ.inj hjsons),
      List.zip_cons_cons]

/-- Items that reproduce one by one reproduce as a list. -/
theorem reproduces_mapM {f : Json → Counted Json} (hf : Reproduces f) {normalized : List Json}
    (hordered : ∀ item ∈ items, OrderedJson item) (h : (items.mapM f) nodes = .ok (normalized, after)) :
    (normalized.mapM f) nodes = .ok (normalized, after) := by
  obtain ⟨hlength, hagain⟩ := counted_mapM_again f (fun _ y ↦ id y) h
    fun item hitem nodes y after hy ↦ (hf item nodes y after (hordered item hitem) hy).1
  rwa [zipWith_right hlength, List.map_id] at hagain

/-- Fields whose values reproduce one by one reproduce together. -/
theorem reproduces_fields {normalized : List Json}
    (hfields : ∀ field ∈ fields, Reproduces (normalize field.2)) (hvalues : values.length = fields.length)
    (hordered : ∀ value ∈ values, OrderedJson value)
    (h : normalizeFields normalize fields values nodes = .ok (normalized, after)) :
    normalized.length = fields.length ∧
      normalizeFields normalize fields normalized nodes = .ok (normalized, after) := by
  obtain ⟨hlength, hagain⟩ := counted_mapM_again (fun pair ↦ normalize pair.1.2 pair.2) (fun pair y ↦ (pair.1, y)) h
    fun pair hpair nodes y after hy ↦
      (hfields pair.1 (List.of_mem_zip hpair).1 pair.2 nodes y after (hordered pair.2 (List.of_mem_zip hpair).2) hy).1
  rw [List.length_zip, hvalues, Nat.min_self] at hlength
  rw [zipWith_fields hvalues hlength] at hagain
  exact ⟨hlength, hagain⟩

/-! #### Tuples -/

theorem filterMap_of_isSome (h : (fields.filterMap (·.1)).length = fields.length) :
    fields.map (·.1.getD "") = fields.filterMap (·.1) ∧ fields.all (·.1.isSome) = true := by
  induction fields with
  | nil => exact ⟨rfl, rfl⟩
  | cons field fields ih =>
    obtain ⟨none | name, inner⟩ := field
    · rw [List.filterMap_cons_none rfl, List.length_cons] at h
      have hle := List.length_filterMap_le (·.1) fields
      omega
    · have hcons : ((some name, inner) :: fields).filterMap (·.1) = name :: fields.filterMap (·.1) :=
        List.filterMap_cons_some rfl
      rw [hcons, List.length_cons, List.length_cons] at h
      obtain ⟨hnames, hall⟩ := ih (Nat.succ.inj h)
      rw [hcons, List.map_cons, hnames, List.all_cons, hall]
      exact ⟨rfl, rfl⟩

/-- What a tuple comes out as is read as the tuple of these values. -/
theorem normalizeTuple_tupleOutput (hlength : values.length = fields.length)
    (h : normalizeFields normalize fields values nodes = .ok (values, after)) :
    normalizeTuple lib normalize fields (tupleOutput fields values) ty nodes =
      .ok (tupleOutput fields values, after) := by
  rw [tupleOutput]
  split
  · next hnames =>
    obtain ⟨hmap, hall⟩ := filterMap_of_isSome hnames.1
    have hnodup : (fields.filterMap (·.1)).Nodup := by
      have hsame := (List.dedup_sublist (fields.filterMap (·.1))).eq_of_length (hnames.2.trans hnames.1.symm)
      rw [← hsame]
      exact List.nodup_dedup _
    have hvalues : values.length = (fields.filterMap (·.1)).length := by rw [hlength, hnames.1]
    have hperm : (collectMap ((fields.filterMap (·.1)).zip values)).Perm ((fields.filterMap (·.1)).zip values) := by
      refine collectMap_perm ?_
      rw [map_fst_zip hvalues]
      exact hnodup
    have hsize : (collectMap ((fields.filterMap (·.1)).zip values)).length = fields.length := by
      rw [hperm.length_eq, List.length_zip, hvalues, Nat.min_self, hnames.1]
    rw [normalizeTuple, if_neg (not_not.2 hall), if_neg (not_not.2 hsize)]
    refine counted_bind_eq_ok_iff.2 ⟨values, after, ?_, ?_⟩
    · refine tupleFields_eq_ok_iff.2 ⟨values, ?_, h⟩
      rw [hmap]
      exact removeEntries_of_perm hvalues hnodup hperm
    · rw [tupleOutput, if_pos hnames]
      rfl
  · next hnames =>
    rw [normalizeTuple, if_neg (not_not.2 hlength)]
    refine counted_bind_eq_ok_iff.2 ⟨values, after, h, ?_⟩
    rw [tupleOutput, if_neg hnames]
    rfl

theorem tupleOutput_ne_null (fields : List (Option String × ClickHouseType)) (values : List Json) :
    tupleOutput fields values ≠ .null := by
  rw [tupleOutput]
  split
  · nofun
  · nofun

theorem reproduces_normalizeTuple (hfields : ∀ field ∈ fields, Reproduces (normalize field.2)) :
    Reproduces fun json ↦ normalizeTuple lib normalize fields json ty := by
  intro json nodes normalized after hordered h
  replace h : normalizeTuple lib normalize fields json ty nodes = .ok (normalized, after) := h
  obtain ⟨values, hlength, hvalues, jsons, hjsons, rfl⟩ : ∃ values : List Json, values.length = fields.length ∧
      (∀ value ∈ values, OrderedJson value) ∧ ∃ jsons,
        normalizeFields normalize fields values nodes = .ok (jsons, after) ∧ normalized = tupleOutput fields jsons := by
    cases hordered with
    | @arr values hitems =>
      by_cases hlength : values.length = fields.length
      · rw [normalizeTuple, if_neg (not_not.2 hlength)] at h
        obtain ⟨jsons, middle, hjsons, h⟩ := counted_bind_eq_ok_iff.1 h
        obtain ⟨rfl, rfl⟩ := counted_pure_eq_ok_iff.1 h
        exact ⟨values, hlength, hitems, jsons, hjsons, rfl⟩
      · rw [normalizeTuple, if_pos hlength] at h
        exact absurd h counted_throw_ne_ok
    | @obj entries hkeys hentries =>
      rw [normalizeTuple] at h
      split at h
      · exact absurd h counted_throw_ne_ok
      · split at h
        · exact absurd h counted_throw_ne_ok
        · obtain ⟨jsons, middle, hjsons, h⟩ := counted_bind_eq_ok_iff.1 h
          obtain ⟨rfl, rfl⟩ := counted_pure_eq_ok_iff.1 h
          obtain ⟨values, hremoved, hjsons⟩ := tupleFields_eq_ok_iff.1 hjsons
          obtain ⟨hlength, hmem⟩ := of_removeEntries hremoved
          rw [List.length_map] at hlength
          refine ⟨values, hlength, fun value hvalue ↦ ?_, jsons, hjsons, rfl⟩
          obtain ⟨entry, hentry, rfl⟩ := hmem value hvalue
          exact hentries entry hentry
    | null => exact absurd h counted_throw_ne_ok
    | bool value => exact absurd h counted_throw_ne_ok
    | num text => exact absurd h counted_throw_ne_ok
    | str text => exact absurd h counted_throw_ne_ok
  obtain ⟨hjsonsLength, hagain⟩ := reproduces_fields hfields hlength hvalues hjsons
  exact ⟨normalizeTuple_tupleOutput hjsonsLength hagain, fun hnull ↦ absurd hnull (tupleOutput_ne_null _ _)⟩

/-! #### Nested -/

theorem reproduces_normalizeNested (hfields : ∀ field ∈ fields, Reproduces (normalize (.array field.2)))
    (htuple : Reproduces (normalize (.tuple fields))) :
    Reproduces fun json ↦ normalizeNested lib normalize fields json ty := by
  intro json nodes normalized after hordered h
  replace h : normalizeNested lib normalize fields json ty nodes = .ok (normalized, after) := h
  cases hordered with
  | @arr values hitems =>
    obtain ⟨jsons, middle, hjsons, h⟩ := counted_bind_eq_ok_iff.1 h
    obtain ⟨rfl, rfl⟩ := counted_pure_eq_ok_iff.1 h
    exact ⟨counted_bind_eq_ok_iff.2 ⟨jsons, middle, reproduces_mapM htuple hitems hjsons, rfl⟩, nofun⟩
  | @obj entries hkeys hentries =>
    rw [normalizeNested] at h
    split at h
    · exact absurd h counted_throw_ne_ok
    · next hsize =>
      obtain ⟨collected, middle, hcollected, h⟩ := counted_bind_eq_ok_iff.1 h
      obtain ⟨rfl, rfl⟩ := counted_pure_eq_ok_iff.1 h
      obtain ⟨names, values, jsons, hnames, hremoved, hjsons, rfl⟩ := nestedFields_eq_ok_iff.1 hcollected
      have hnodup := (nodup_of_removeEntries hremoved (nodup_keys_of_ordered hkeys)).1
      obtain ⟨hvalues, hmem⟩ := of_removeEntries hremoved
      have hcount : names.length = fields.length := by
        have hboth := congrArg List.length hnames
        rw [List.length_map, List.length_map] at hboth
        exact hboth.symm
      have hordered : ∀ value ∈ values, OrderedJson value := by
        intro value hvalue
        obtain ⟨entry, hentry, rfl⟩ := hmem value hvalue
        exact hentries entry hentry
      have hreproduces : ∀ field ∈ fields.map fun field ↦ (field.1, ClickHouseType.array field.2),
          Reproduces (normalize field.2) := by
        intro field hfield
        obtain ⟨field', hfield', rfl⟩ := List.mem_map.1 hfield
        exact hfields field' hfield'
      obtain ⟨hlength, hagain⟩ := reproduces_fields hreproduces (by rw [List.length_map, hvalues, hcount]) hordered hjsons
      rw [List.length_map, ← hcount] at hlength
      have hperm : (collectMap (names.zip jsons)).Perm (names.zip jsons) := by
        refine collectMap_perm ?_
        rw [map_fst_zip hlength]
        exact hnodup
      have hsizeAgain : (collectMap (names.zip jsons)).length = fields.length := by
        rw [hperm.length_eq, List.length_zip, hlength, Nat.min_self, hcount]
      refine ⟨?_, nofun⟩
      show normalizeNested lib normalize fields (.obj (collectMap (names.zip jsons))) ty nodes = _
      rw [normalizeNested, if_neg (not_not.2 hsizeAgain)]
      refine counted_bind_eq_ok_iff.2 ⟨names.zip jsons, middle, ?_, rfl⟩
      exact nestedFields_eq_ok_iff.2
        ⟨names, jsons, jsons, hnames, removeEntries_of_perm hlength hnodup hperm, hagain, rfl⟩
  | null => exact absurd h counted_throw_ne_ok
  | bool value => exact absurd h counted_throw_ne_ok
  | num text => exact absurd h counted_throw_ne_ok
  | str text => exact absurd h counted_throw_ne_ok

/-! #### Maps -/

/-- The pair of an entry. -/
def pairOf : Json → Json × Json
  | .arr [key, value] => (key, value)
  | _ => (.null, .null)

theorem mapEntries_arr :
    mapEntries lib ty (.arr items) = .ok entries ↔
      List.Forall₂ (fun item entry ↦ item = .arr [entry.1, entry.2]) items entries := by
  rw [mapEntries, mapM_eq_ok_iff]
  constructor
  · refine List.Forall₂.imp fun item entry hread ↦ ?_
    split at hread
    · cases hread
      rfl
    · cases hread
  · refine List.Forall₂.imp fun item entry hitem ↦ ?_
    rw [hitem]

/-- An entry of a map, normalised. -/
def normalizePair (normalize : ClickHouseType → Json → Counted Json) (keyType valueType : ClickHouseType)
    (entry : Json × Json) : Counted Json := do
  let key ← normalize keyType entry.1
  let value ← normalize valueType entry.2
  pure (.arr [key, value])

theorem of_normalizePair {entry : Json × Json} {pair : Json}
    (h : normalizePair normalize keyType valueType entry nodes = .ok (pair, after)) :
    ∃ key value middle, normalize keyType entry.1 nodes = .ok (key, middle) ∧
      normalize valueType entry.2 middle = .ok (value, after) ∧ pair = .arr [key, value] := by
  obtain ⟨key, middle, hkey, h⟩ := counted_bind_eq_ok_iff.1 h
  obtain ⟨value, after', hvalue, h⟩ := counted_bind_eq_ok_iff.1 h
  obtain ⟨rfl, rfl⟩ := counted_pure_eq_ok_iff.1 h
  exact ⟨key, value, middle, hkey, hvalue, rfl⟩

/-- The keys and values of a map are ordered as the map is. -/
theorem ordered_mapEntries (hordered : OrderedJson json) (h : mapEntries lib ty json = .ok entries) :
    ∀ entry ∈ entries, OrderedJson entry.1 ∧ OrderedJson entry.2 := by
  intro entry hentry
  cases hordered with
  | arr hitems =>
    obtain ⟨item, hitem, rfl⟩ := exists_left_of_forall₂ (mapEntries_arr.1 h) hentry
    have hboth := (hitems _ hitem).of_mem
    exact ⟨hboth entry.1 List.mem_cons_self, hboth entry.2 (List.mem_cons_of_mem _ List.mem_cons_self)⟩
  | obj hkeys hentries =>
    obtain rfl := Except.ok.inj h
    obtain ⟨field, hfield, rfl⟩ := List.mem_map.1 hentry
    exact ⟨.str field.1, hentries field hfield⟩
  | null => cases h
  | bool value => cases h
  | num text => cases h
  | str text => cases h

/-- A map is read again from the pairs it comes out as. -/
theorem reproduces_normalizeMap (untyped : Json → Counted Json) (hkey : Reproduces (normalize keyType))
    (hvalue : Reproduces (normalize valueType)) :
    Reproduces (normalizeBody lib normalize untyped (.map keyType valueType)) := by
  intro json nodes normalized after hordered h
  obtain ⟨entries, start, hentries, h⟩ := counted_bind_eq_ok_iff.1 h
  obtain ⟨hread, rfl⟩ := counted_lift_eq_ok_iff.1 hentries
  obtain ⟨pairs, middle, hpairs, h⟩ := counted_bind_eq_ok_iff.1 h
  obtain ⟨rfl, rfl⟩ := counted_pure_eq_ok_iff.1 h
  replace hpairs : (entries.mapM (normalizePair normalize keyType valueType)) nodes = .ok (pairs, middle) := hpairs
  have hparts := ordered_mapEntries hordered hread
  obtain ⟨hlength, hagain⟩ := counted_mapM_again (normalizePair normalize keyType valueType) (fun _ pair ↦ pairOf pair)
    hpairs fun entry hentry nodes pair after hpair ↦ by
      obtain ⟨key, value, middle, hk, hv, rfl⟩ := of_normalizePair hpair
      obtain ⟨hkeyOrdered, hvalueOrdered⟩ := hparts entry hentry
      refine counted_bind_eq_ok_iff.2 ⟨key, middle, (hkey _ _ _ _ hkeyOrdered hk).1, ?_⟩
      exact counted_bind_eq_ok_iff.2 ⟨value, after, (hvalue _ _ _ _ hvalueOrdered hv).1, rfl⟩
  rw [zipWith_right hlength] at hagain
  have hpairsRead : mapEntries lib (.map keyType valueType) (.arr pairs) = .ok (pairs.map pairOf) := by
    refine mapEntries_arr.2 (List.forall₂_map_right_iff.2 (List.forall₂_same.2 fun pair hpair ↦ ?_))
    obtain ⟨entry, nodes, after, hentry⟩ := exists_of_mem_counted_mapM hpairs hpair
    obtain ⟨key, value, -, -, -, rfl⟩ := of_normalizePair hentry
    rfl
  refine ⟨?_, nofun⟩
  refine counted_bind_eq_ok_iff.2 ⟨pairs.map pairOf, nodes, counted_lift_eq_ok_iff.2 ⟨hpairsRead, rfl⟩, ?_⟩
  exact counted_bind_eq_ok_iff.2 ⟨pairs, middle, hagain, rfl⟩

/-! #### All types -/

/-- **What a type reads reproduces itself**, when the types inside do. -/
theorem reproduces_normalizeBody {untyped : Json → Counted Json} (hfloat : ¬ HasFloat ty)
    (hinner : ∀ inner, ¬ HasFloat inner → Reproduces (normalize inner))
    (huntyped : ∀ json nodes normalized after, OrderedJson json → untyped json nodes = .ok (normalized, after) →
      normalized = json) :
    Reproduces (normalizeBody lib normalize untyped ty) := by
  intro json nodes normalized after hordered h
  rw [normalizeBody.eq_def] at h ⊢
  cases ty with
  | nullable inner =>
    have hreproduces := hinner inner fun hcontra ↦ hfloat (.nullable hcontra)
    simp only at h ⊢
    split at h
    · next hnull =>
      obtain ⟨rfl, rfl⟩ := counted_pure_eq_ok_iff.1 h
      exact ⟨h, fun _ ↦ hnull⟩
    · next hnull =>
      obtain ⟨hagain, hkept⟩ := hreproduces json nodes normalized after hordered h
      rw [if_neg (mt hkept hnull)]
      exact ⟨hagain, hkept⟩
  | lowCardinality inner =>
    exact hinner inner (fun hcontra ↦ hfloat (.lowCardinality hcontra)) json nodes normalized after hordered h
  | int signed bits =>
    obtain ⟨hint, rfl⟩ := counted_lift_eq_ok_iff.1 h
    obtain ⟨hagain, hne⟩ := normalizeInteger_again hint
    exact ⟨counted_lift_eq_ok_iff.2 ⟨hagain, rfl⟩, fun hnull ↦ absurd hnull hne⟩
  | float bits => exact absurd (.float bits) hfloat
  | decimal storageBits precision scale =>
    obtain ⟨hdecimal, rfl⟩ := counted_lift_eq_ok_iff.1 h
    obtain ⟨hagain, hne⟩ := normalizeDecimal_again hdecimal
    exact ⟨counted_lift_eq_ok_iff.2 ⟨hagain, rfl⟩, fun hnull ↦ absurd hnull hne⟩
  | array inner =>
    have hreproduces := hinner inner fun hcontra ↦ hfloat (.array hcontra)
    cases hordered with
    | @arr values hitems =>
      obtain ⟨jsons, middle, hjsons, h⟩ := counted_bind_eq_ok_iff.1 h
      obtain ⟨rfl, rfl⟩ := counted_pure_eq_ok_iff.1 h
      exact ⟨counted_bind_eq_ok_iff.2 ⟨jsons, middle, reproduces_mapM hreproduces hitems hjsons, rfl⟩, nofun⟩
    | _ => exact absurd h counted_throw_ne_ok
  | map keyType valueType =>
    exact reproduces_normalizeMap untyped (hinner keyType fun hcontra ↦ hfloat (.mapKey hcontra))
      (hinner valueType fun hcontra ↦ hfloat (.mapValue hcontra)) json nodes normalized after hordered h
  | tuple fields =>
    exact reproduces_normalizeTuple (fun field hfield ↦ hinner field.2 fun hcontra ↦ hfloat (.tuple hfield hcontra))
      json nodes normalized after hordered h
  | nested fields =>
    have hfields : ∀ field ∈ fields, Reproduces (normalize (.array field.2)) := by
      intro field hfield
      refine hinner _ fun hcontra ↦ ?_
      cases hcontra with
      | array hcontra => exact hfloat (.nested hfield hcontra)
    have htuple : Reproduces (normalize (.tuple fields)) := by
      refine hinner _ fun hcontra ↦ ?_
      cases hcontra with
      | tuple hfield hcontra => exact hfloat (.nested hfield hcontra)
    exact reproduces_normalizeNested hfields htuple json nodes normalized after hordered h
  | jsonOrObject raw | unknown raw =>
    obtain rfl := huntyped json nodes normalized after hordered h
    exact ⟨h, id⟩
  | variant alternatives =>
    obtain rfl := huntyped json nodes normalized after hordered h
    exact ⟨h, id⟩
  | bool =>
    cases hordered with
    | bool value =>
      obtain ⟨rfl, rfl⟩ := counted_pure_eq_ok_iff.1 h
      exact ⟨h, nofun⟩
    | _ => exact absurd h counted_throw_ne_ok
  | _ =>
    cases hordered with
    | str value =>
      obtain ⟨rfl, rfl⟩ := counted_pure_eq_ok_iff.1 h
      exact ⟨h, nofun⟩
    | _ => exact absurd h counted_throw_ne_ok

/-- A value inside reproduces itself at every depth. -/
theorem reproduces_normalizeInner (hfloat : ¬ HasFloat ty) : Reproduces (normalizeInner lib budget levels ty) := by
  induction levels generalizing ty with
  | zero => exact fun _ _ _ _ _ h ↦ absurd h counted_throw_ne_ok
  | succ levels ih =>
    intro json nodes normalized after hordered h
    obtain ⟨⟨⟩, entered, hentered, h⟩ := counted_bind_eq_ok_iff.1 h
    obtain ⟨hagain, hkept⟩ := reproduces_normalizeBody hfloat (fun _ ↦ ih) (fun _ _ _ _ ↦ normalizeUntyped_eq)
      json entered normalized after hordered h
    exact ⟨counted_bind_eq_ok_iff.2 ⟨(), entered, hentered, hagain⟩, hkept⟩

/-- **Normalising a value again changes nothing.** For every type without floats, every value and every budget. -/
theorem normalizeValue_again {json normalized : Json} (hfloat : ¬ HasFloat ty) (hordered : OrderedJson json)
    (h : normalizeValue lib ty json budget = .ok normalized) :
    normalizeValue lib ty normalized budget = .ok normalized := by
  rw [normalizeValue] at h ⊢
  obtain ⟨⟨inner, after⟩, hinner, h⟩ := bind_eq_ok_iff.1 h
  have hresult : inner = normalized := by
    simp only at h
    split at h
    · cases h
    · exact Except.ok.inj (ite_error_eq_ok_iff.1 h).2
  subst hresult
  exact bind_eq_ok_iff.2 ⟨(inner, after), (reproduces_normalizeInner hfloat json 0 inner after hordered hinner).1, h⟩

end Again

/-- A library that writes numbers of ASCII and knows no floats. -/
def plainLibrary : ValueLibrary where
  debug _ := ""
  parseFloat _ := none
  serialize
    | .num text => .ok (text.toList.map fun c ↦ c.toNat.toUInt8)
    | _ => .error "not a number"

/-- A text with a sign and a zero in front comes out as a number, and stays that number. -/
theorem normalizeValue_again_signed :
    normalizeValue plainLibrary (.nullable (.int true 8)) (.num "42") {} = .ok (.num "42") := by
  have hfirst : normalizeValue plainLibrary (.nullable (.int true 8)) (.str "+042") {} = .ok (.num "42") := rfl
  refine normalizeValue_again ?_ (.str "+042") hfirst
  rintro (_ | ⟨⟨⟩⟩)

end ClickHouse
