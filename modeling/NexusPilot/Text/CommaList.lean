import Mathlib.Data.List.DropRight

/-!
# Lists of names in one text

White space and `trim` as a script knows them, and lists of names that are kept as one text, separated by
commas. A list of names is read back from its text up to white space if no name is blank or has a comma in it.
-/

namespace Text

/-! ### Trimming -/

/-- White space and line ends of a script, which `trim` and the class `\\s` of an expression agree on. -/
def isScriptSpace (c : Char) : Bool :=
  let n := c.toNat
  (0x09 ≤ n && n ≤ 0x0D) || n == 0x20 || n == 0xA0 || n == 0x1680 || (0x2000 ≤ n && n ≤ 0x200A) ||
    n == 0x2028 || n == 0x2029 || n == 0x202F || n == 0x205F || n == 0x3000 || n == 0xFEFF

/-- `trim` on characters. -/
def trimChars (s : List Char) : List Char :=
  (s.dropWhile isScriptSpace).rdropWhile isScriptSpace

/-- `String.prototype.trim`. -/
def scriptTrim (s : String) : String :=
  String.ofList (trimChars s.toList)

variable {c : Char} {s : List Char} {names : List String}

/-- White space in front is dropped. -/
theorem trimChars_cons_of_space (hc : isScriptSpace c) (s : List Char) :
    trimChars (c :: s) = trimChars s := by
  rw [trimChars, List.dropWhile_cons_of_pos hc, trimChars]

theorem mem_of_mem_trimChars (h : c ∈ trimChars s) : c ∈ s :=
  List.dropWhile_subset _ ((List.rdropWhile_prefix _ _).subset h)

/-- What is left after trimming does not begin or end with white space. -/
theorem dropWhile_trimChars (s : List Char) : (trimChars s).dropWhile isScriptSpace = trimChars s := by
  rw [List.dropWhile_eq_self_iff]
  intro hlen hspace
  have hinit : trimChars s <+: s.dropWhile isScriptSpace := List.rdropWhile_prefix _ _
  have hlen' : 0 < (s.dropWhile isScriptSpace).length := hlen.trans_le hinit.length_le
  rw [hinit.getElem hlen] at hspace
  have hself : (s.dropWhile isScriptSpace).dropWhile isScriptSpace = s.dropWhile isScriptSpace :=
    List.dropWhile_idempotent _ _
  exact List.dropWhile_eq_self_iff.1 hself hlen' hspace

/-- A text is its trimmed text with what was trimmed on both sides. -/
theorem trimChars_parts (raw : List Char) :
    raw = raw.takeWhile isScriptSpace ++ (trimChars raw ++
      ((raw.dropWhile isScriptSpace).reverse.takeWhile isScriptSpace).reverse) := by
  have hcore : raw.dropWhile isScriptSpace = trimChars raw ++
      ((raw.dropWhile isScriptSpace).reverse.takeWhile isScriptSpace).reverse := by
    rw [trimChars, List.rdropWhile, ← List.reverse_append, List.takeWhile_append_dropWhile,
      List.reverse_reverse]
  rw [← hcore, List.takeWhile_append_dropWhile]

/-- Trimming twice is trimming once. -/
@[simp]
theorem trimChars_trimChars (s : List Char) : trimChars (trimChars s) = trimChars s := by
  rw [trimChars, dropWhile_trimChars]
  exact List.rdropWhile_idempotent _ _

@[simp]
theorem scriptTrim_scriptTrim (s : String) : scriptTrim (scriptTrim s) = scriptTrim s := by
  rw [scriptTrim, scriptTrim, String.toList_ofList, trimChars_trimChars]

/-! ### Lists of names -/

/-- `splitColumnList`, on characters: the parts between the commas, trimmed, without the empty ones. -/
def splitCommas (s : List Char) : List (List Char) :=
  ((s.splitOn ',').map trimChars).filter (· ≠ [])

/-- The names of a text. -/
def splitNames (value : String) : List String :=
  (splitCommas value.toList).map String.ofList

/-- The text of a list of names. -/
def joinNames (names : List String) : String :=
  String.ofList (", ".toList.intercalate (names.map String.toList))

/-- A name that a list can hold: it is not blank, and has no comma in it. -/
def IsListable (name : String) : Prop :=
  scriptTrim name ≠ "" ∧ ',' ∉ name.toList

instance (name : String) : Decidable (IsListable name) :=
  inferInstanceAs (Decidable (_ ∧ _))

theorem splitCommas_of_notMem (h : ',' ∉ s) :
    splitCommas s = if trimChars s = [] then [] else [trimChars s] := by
  rw [splitCommas, List.splitOn_eq_singleton h]
  by_cases hs : trimChars s = []
  · simp [hs]
  · simp [hs]

theorem splitCommas_append_cons (s rest : List Char) :
    splitCommas (s ++ ',' :: rest) = splitCommas s ++ splitCommas rest := by
  rw [splitCommas, List.splitOn_append_cons_self, List.map_append, List.filter_append]
  rfl

/-- White space in front of a text does not matter for its names. -/
theorem splitCommas_space_cons (s : List Char) : splitCommas (' ' :: s) = splitCommas s := by
  rw [splitCommas, List.splitOn_cons_eq_if_modifyHead, if_neg (by decide), splitCommas]
  obtain ⟨first, rest, hparts⟩ := List.exists_cons_of_ne_nil (List.splitOn_ne_nil ',' s)
  rw [hparts]
  show List.filter _ (trimChars (' ' :: first) :: rest.map trimChars) = _
  rw [trimChars_cons_of_space (by decide)]
  rfl

/-- **A list of names is read back from its text**, trimmed and without the blank ones, if there is no comma
in a name. -/
theorem splitCommas_intercalate {names : List (List Char)} (h : ∀ name ∈ names, ',' ∉ name) :
    splitCommas (", ".toList.intercalate names) = (names.map trimChars).filter (· ≠ []) := by
  induction names with
  | nil => rfl
  | cons name names ih =>
    have hname := h name List.mem_cons_self
    have hsplit : splitCommas name = [trimChars name].filter (· ≠ []) := by
      rw [splitCommas, List.splitOn_eq_singleton hname]
      rfl
    have ih := ih fun other hmem ↦ h other (List.mem_cons_of_mem _ hmem)
    cases names with
    | nil =>
      rw [List.intercalate_singleton, hsplit]
      rfl
    | cons next names =>
      have hfilter := List.filter_append (p := (· ≠ [])) [trimChars name] ((next :: names).map trimChars)
      rw [← hsplit, ← ih] at hfilter
      rw [List.intercalate_cons_cons, List.append_assoc]
      show splitCommas (name ++ ',' :: ' ' :: ", ".toList.intercalate (next :: names)) = _
      rw [splitCommas_append_cons, splitCommas_space_cons]
      exact hfilter.symm

theorem toList_eq_nil_iff {s : String} : s.toList = [] ↔ s = "" := by
  rw [← String.toList_inj]
  rfl

theorem scriptTrim_eq_empty_iff {s : String} : scriptTrim s = "" ↔ trimChars s.toList = [] := by
  rw [← toList_eq_nil_iff, scriptTrim, String.toList_ofList]

/-- A list of names is read back from its text. -/
theorem splitNames_joinNames (h : ∀ name ∈ names, ',' ∉ name.toList) :
    splitNames (joinNames names) = (names.map scriptTrim).filter (· ≠ "") := by
  rw [splitNames, joinNames, String.toList_ofList, splitCommas_intercalate]
  · rw [List.map_map, ← List.filterMap_eq_filter, ← List.filterMap_eq_filter, List.filterMap_map, List.map_filterMap,
      List.filterMap_map]
    refine List.filterMap_congr fun name _ ↦ ?_
    by_cases hblank : scriptTrim name = ""
    · have hchars := scriptTrim_eq_empty_iff.1 hblank
      simp [Option.guard, hblank, hchars]
    · have hchars : trimChars name.toList ≠ [] := fun hnil ↦ hblank (scriptTrim_eq_empty_iff.2 hnil)
      simp only [Function.comp_apply, Option.guard, decide_eq_true_eq, if_pos hblank, if_pos hchars]
      rfl
  · rintro name hmem
    obtain ⟨name', hmem', rfl⟩ := List.mem_map.1 hmem
    exact h name' hmem'

/-- A list of names that a text can hold is read back, up to white space. -/
theorem splitNames_joinNames_of_listable (h : ∀ name ∈ names, IsListable name) :
    splitNames (joinNames names) = names.map scriptTrim := by
  rw [splitNames_joinNames fun name hmem ↦ (h name hmem).2, List.filter_eq_self]
  intro name hmem
  obtain ⟨name', hmem', rfl⟩ := List.mem_map.1 hmem
  exact decide_eq_true (h name' hmem').1

theorem notMem_of_mem_splitOn {α : Type*} [DecidableEq α] {x : α} {s part : List α} (h : part ∈ s.splitOn x) :
    x ∉ part := by
  induction s generalizing part with
  | nil =>
    rw [List.splitOn_nil, List.mem_singleton] at h
    rw [h]
    exact List.not_mem_nil
  | cons c s ih =>
    rw [List.splitOn_cons_eq_if_modifyHead] at h
    split at h
    · obtain rfl | h := List.mem_cons.1 h
      · exact List.not_mem_nil
      · exact ih h
    · rename_i hc
      obtain ⟨first, rest, hparts⟩ := List.exists_cons_of_ne_nil (List.splitOn_ne_nil x s)
      rw [hparts] at h ih
      obtain rfl | h := List.mem_cons.1 h
      · rw [List.mem_cons, not_or]
        exact ⟨fun hsame ↦ hc (by rw [← hsame, beq_self_eq_true]), ih List.mem_cons_self⟩
      · exact ih (List.mem_cons_of_mem _ h)

theorem mem_of_mem_splitOn {part : List Char} (h : part ∈ s.splitOn ',') (hc : c ∈ part) : c ∈ s := by
  induction s generalizing part with
  | nil =>
    rw [List.splitOn_nil, List.mem_singleton] at h
    exact h ▸ hc
  | cons head s ih =>
    obtain ⟨first, rest, hparts⟩ := List.exists_cons_of_ne_nil (List.splitOn_ne_nil ',' s)
    rw [List.splitOn_cons_eq_if_modifyHead] at h
    rw [hparts] at h ih
    split at h
    · obtain rfl | h := List.mem_cons.1 h
      · exact absurd hc List.not_mem_nil
      · exact List.mem_cons_of_mem _ (ih h hc)
    · obtain rfl | h := List.mem_cons.1 h
      · obtain rfl | hc := List.mem_cons.1 hc
        · exact List.mem_cons_self
        · exact List.mem_cons_of_mem _ (ih List.mem_cons_self hc)
      · exact List.mem_cons_of_mem _ (ih (List.mem_cons_of_mem _ h) hc)

/-- The names of a text consist of its characters. -/
theorem mem_of_mem_splitNames {value name : String} (h : name ∈ splitNames value) (hc : c ∈ name.toList) :
    c ∈ value.toList := by
  obtain ⟨chars, hchars, rfl⟩ := List.mem_map.1 h
  obtain ⟨part, hpart, rfl⟩ := List.mem_map.1 (List.mem_of_mem_filter hchars)
  rw [String.toList_ofList] at hc
  exact mem_of_mem_splitOn hpart (mem_of_mem_trimChars hc)

/-- What is read from a text is trimmed and can be held by one. -/
theorem isListable_of_mem_splitNames {value name : String} (h : name ∈ splitNames value) :
    scriptTrim name = name ∧ IsListable name := by
  obtain ⟨chars, hchars, rfl⟩ := List.mem_map.1 h
  obtain ⟨hmem, hne⟩ := List.mem_filter.1 hchars
  obtain ⟨part, hpart, rfl⟩ := List.mem_map.1 hmem
  have htrim : scriptTrim (String.ofList (trimChars part)) = String.ofList (trimChars part) := by
    rw [scriptTrim, String.toList_ofList, trimChars_trimChars]
  refine ⟨htrim, ?_, ?_⟩
  · rw [Ne, scriptTrim_eq_empty_iff, String.toList_ofList, trimChars_trimChars]
    exact of_decide_eq_true hne
  · rw [String.toList_ofList]
    exact fun hcomma ↦ notMem_of_mem_splitOn hpart (mem_of_mem_trimChars hcomma)

end Text
