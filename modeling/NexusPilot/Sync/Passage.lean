import Mathlib.Data.String.Basic
import NexusPilot.Sync.Upload

/-!
# What a payload goes through

On its way from the row of one device to the row of another a payload loses its local paths, is written as a text
and read back, gets the paths of the other device, and is written and read again. What `mergeLocalPaths` puts in,
`sanitizePayload` takes out, at every depth; numbers are read as serde_json reads them; and the dependencies that
`collectLocalDependencies` finds stay the same all the way.
-/

namespace Json

/-! ### Values as serde_json holds them -/

mutual

/-- Every object has its keys sorted and distinct, and every number has a text of the kind that is written. -/
def IsValue (isNumber : String → Prop) : Json → Prop
  | .num text => isNumber text
  | .arr items => IsValueItems isNumber items
  | .obj entries => entries.Pairwise (·.1 < ·.1) ∧ IsValueEntries isNumber entries
  | _ => True

def IsValueItems (isNumber : String → Prop) : List Json → Prop
  | [] => True
  | item :: items => IsValue isNumber item ∧ IsValueItems isNumber items

def IsValueEntries (isNumber : String → Prop) : List (String × Json) → Prop
  | [] => True
  | (_, value) :: entries => IsValue isNumber value ∧ IsValueEntries isNumber entries

end

mutual

/-- A property of every number, at every depth. -/
def AllNumbers (p : String → Prop) : Json → Prop
  | .num text => p text
  | .arr items => AllNumbersItems p items
  | .obj entries => AllNumbersEntries p entries
  | _ => True

def AllNumbersItems (p : String → Prop) : List Json → Prop
  | [] => True
  | item :: items => AllNumbers p item ∧ AllNumbersItems p items

def AllNumbersEntries (p : String → Prop) : List (String × Json) → Prop
  | [] => True
  | (_, value) :: entries => AllNumbers p value ∧ AllNumbersEntries p entries

end

variable {f g : String → String} {isNumber : String → Prop}

/-- Membership form of `IsValueEntries`. -/
theorem isValueEntries_iff {entries : List (String × Json)} :
    IsValueEntries isNumber entries ↔ ∀ entry ∈ entries, entry.2.IsValue isNumber := by
  induction entries with
  | nil => simp [IsValueEntries]
  | cons entry entries ih =>
    rw [IsValueEntries, ih, List.forall_mem_cons]

mutual

/-- A function that leaves each number as it is. -/
theorem mapNumbers_eq_self_iff : (value : Json) → (value.mapNumbers f = value ↔ value.AllNumbers (fun n ↦ f n = n))
  | .null | .bool _ | .str _ => by simp [mapNumbers, AllNumbers]
  | .num text => by simp [mapNumbers, AllNumbers]
  | .arr items => by
    simp only [mapNumbers, AllNumbers, arr.injEq]
    exact mapNumbersItems_eq_self_iff items
  | .obj entries => by
    simp only [mapNumbers, AllNumbers, obj.injEq]
    exact mapNumbersEntries_eq_self_iff entries

theorem mapNumbersItems_eq_self_iff :
    (items : List Json) → (mapNumbersItems f items = items ↔ AllNumbersItems (fun n ↦ f n = n) items)
  | [] => by simp [mapNumbersItems, AllNumbersItems]
  | item :: items => by
    simp only [mapNumbersItems, AllNumbersItems, List.cons.injEq]
    rw [mapNumbers_eq_self_iff item, mapNumbersItems_eq_self_iff items]

theorem mapNumbersEntries_eq_self_iff :
    (entries : List (String × Json)) →
      (mapNumbersEntries f entries = entries ↔ AllNumbersEntries (fun n ↦ f n = n) entries)
  | [] => by simp [mapNumbersEntries, AllNumbersEntries]
  | (key, value) :: entries => by
    simp only [mapNumbersEntries, AllNumbersEntries, List.cons.injEq, Prod.mk.injEq, true_and]
    rw [mapNumbers_eq_self_iff value, mapNumbersEntries_eq_self_iff entries]

end

mutual

theorem mapNumbers_mapNumbers :
    (value : Json) → (value.mapNumbers f).mapNumbers g = value.mapNumbers (fun n ↦ g (f n))
  | .null | .bool _ | .str _ | .num _ => by simp [mapNumbers]
  | .arr items => by simp only [mapNumbers, mapNumbersItems_mapNumbersItems items]
  | .obj entries => by simp only [mapNumbers, mapNumbersEntries_mapNumbersEntries entries]

theorem mapNumbersItems_mapNumbersItems :
    (items : List Json) →
      mapNumbersItems g (mapNumbersItems f items) = mapNumbersItems (fun n ↦ g (f n)) items
  | [] => rfl
  | item :: items => by
    simp only [mapNumbersItems, mapNumbers_mapNumbers item, mapNumbersItems_mapNumbersItems items]

theorem mapNumbersEntries_mapNumbersEntries :
    (entries : List (String × Json)) →
      mapNumbersEntries g (mapNumbersEntries f entries) = mapNumbersEntries (fun n ↦ g (f n)) entries
  | [] => rfl
  | (key, value) :: entries => by
    simp only [mapNumbersEntries, mapNumbers_mapNumbers value, mapNumbersEntries_mapNumbersEntries entries]

end

/-- The entries whose values are changed keep their keys. -/
theorem mapNumbersEntries_eq_map (entries : List (String × Json)) :
    mapNumbersEntries f entries = entries.map fun entry ↦ (entry.1, entry.2.mapNumbers f) := by
  induction entries with
  | nil => rfl
  | cons entry entries ih => rw [mapNumbersEntries, ih, List.map_cons]

mutual

theorem IsValue.mapNumbers (hf : ∀ n, isNumber n → isNumber (f n)) :
    (value : Json) → value.IsValue isNumber → (value.mapNumbers f).IsValue isNumber
  | .null, h | .bool _, h | .str _, h => h
  | .num text, h => hf text h
  | .arr items, h => IsValueItems.mapNumbers hf items h
  | .obj entries, h => by
    refine ⟨?_, IsValueEntries.mapNumbers hf entries h.2⟩
    rw [mapNumbersEntries_eq_map, List.pairwise_map]
    exact h.1

theorem IsValueItems.mapNumbers (hf : ∀ n, isNumber n → isNumber (f n)) :
    (items : List Json) → IsValueItems isNumber items → IsValueItems isNumber (mapNumbersItems f items)
  | [], h => h
  | item :: items, h => ⟨IsValue.mapNumbers hf item h.1, IsValueItems.mapNumbers hf items h.2⟩

theorem IsValueEntries.mapNumbers (hf : ∀ n, isNumber n → isNumber (f n)) :
    (entries : List (String × Json)) → IsValueEntries isNumber entries →
      IsValueEntries isNumber (mapNumbersEntries f entries)
  | [], h => h
  | (_, value) :: entries, h => ⟨IsValue.mapNumbers hf value h.1, IsValueEntries.mapNumbers hf entries h.2⟩

end

/-! ### The canonical form -/

mutual

/-- A value has the keys of its objects sorted already. -/
theorem canonicalize_of_isValue :
    (value : Json) → value.IsValue isNumber → canonicalize compare value = value
  | .null, _ | .bool _, _ | .str _, _ | .num _, _ => by simp [canonicalize]
  | .arr items, h => by
    rw [canonicalize, canonicalizeItems_of_isValue items h]
  | .obj entries, h => by
    rw [canonicalize, canonicalizeEntries_of_isValue entries h.2]
    have hsorted : entries.Pairwise fun a b ↦ compare a.1 b.1 ≠ .gt :=
      h.1.imp fun hlt ↦ compare_le_iff_le.2 (le_of_lt hlt)
    rw [hsorted.insertionSort_eq]

theorem canonicalizeItems_of_isValue :
    (items : List Json) → IsValueItems isNumber items → canonicalizeItems compare items = items
  | [], _ => rfl
  | item :: items, h => by
    rw [canonicalizeItems, canonicalize_of_isValue item h.1, canonicalizeItems_of_isValue items h.2]

theorem canonicalizeEntries_of_isValue :
    (entries : List (String × Json)) → IsValueEntries isNumber entries →
      canonicalizeEntries compare entries = entries
  | [], _ => rfl
  | (key, value) :: entries, h => by
    rw [canonicalizeEntries, canonicalize_of_isValue value h.1, canonicalizeEntries_of_isValue entries h.2]

end

/-- The canonical form of an object whose keys are distinct is a value. -/
theorem isValue_canonicalize_obj {entries : List (String × Json)} (hkeys : (entries.map (·.1)).Nodup)
    (hvalues : ∀ entry ∈ entries, entry.2.IsValue isNumber) :
    (canonicalize compare (.obj entries)).IsValue isNumber := by
  have hsame : canonicalizeEntries compare entries = entries :=
    canonicalizeEntries_of_isValue entries (isValueEntries_iff.2 hvalues)
  rw [canonicalize, hsame]
  have hperm := List.perm_insertionSort (fun a b : String × Json ↦ compare a.1 b.1 ≠ .gt) entries
  refine ⟨?_, isValueEntries_iff.2 fun entry hentry ↦ hvalues entry (hperm.mem_iff.1 hentry)⟩
  have : Std.Total fun a b : String × Json ↦ compare a.1 b.1 ≠ .gt :=
    ⟨fun a b ↦ (le_total a.1 b.1).imp compare_le_iff_le.2 compare_le_iff_le.2⟩
  have : IsTrans (String × Json) fun a b ↦ compare a.1 b.1 ≠ .gt :=
    ⟨fun a b c hab hbc ↦ compare_le_iff_le.2 ((compare_le_iff_le.1 hab).trans (compare_le_iff_le.1 hbc))⟩
  have hsorted := List.pairwise_insertionSort (fun a b : String × Json ↦ compare a.1 b.1 ≠ .gt) entries
  have hnodup : ((entries.insertionSort fun a b ↦ compare a.1 b.1 ≠ .gt).map (·.1)).Nodup :=
    (hperm.map _).nodup_iff.2 hkeys
  refine (hsorted.and (List.pairwise_map.1 hnodup)).imp fun ⟨hle, hne⟩ ↦ ?_
  exact lt_of_le_of_ne (compare_le_iff_le.1 hle) hne

/-- The entries of a canonical form. -/
theorem mem_of_canonicalize_obj_eq {entries entries' : List (String × Json)} {entry : String × Json}
    (hvalues : ∀ entry ∈ entries, entry.2.IsValue isNumber)
    (hvalues' : ∀ entry ∈ entries', entry.2.IsValue isNumber)
    (h : canonicalize compare (.obj entries) = canonicalize compare (.obj entries')) (hentry : entry ∈ entries) :
    entry ∈ entries' := by
  rw [canonicalize, canonicalize, canonicalizeEntries_of_isValue entries (isValueEntries_iff.2 hvalues),
    canonicalizeEntries_of_isValue entries' (isValueEntries_iff.2 hvalues')] at h
  have hsorted := Json.obj.inj h
  have hmem := (List.mem_insertionSort fun a b : String × Json ↦ compare a.1 b.1 ≠ .gt).2 hentry
  rw [hsorted] at hmem
  exact (List.mem_insertionSort _).1 hmem

/-! ### Entries -/

theorem find_cons (key other : String) (value : Json) (entries : List (String × Json)) :
    find ((key, value) :: entries) other = if key = other then some value else find entries other := by
  unfold find
  rw [List.find?_cons]
  split
  · next h => rw [if_pos (by simpa using h)]; rfl
  · next h => rw [if_neg (by simpa using h)]

/-- The value of a key that is there once. -/
theorem find_of_mem {entries : List (String × Json)} (hkeys : (entries.map (·.1)).Nodup) {key : String}
    {value : Json} (hmem : (key, value) ∈ entries) : find entries key = some value := by
  induction entries with
  | nil => cases hmem
  | cons entry entries ih =>
    obtain ⟨other, found⟩ := entry
    obtain ⟨hfresh, hkeys⟩ := List.nodup_cons.1 hkeys
    rw [find_cons]
    obtain hhead | htail := List.mem_cons.1 hmem
    · cases hhead
      rw [if_pos rfl]
    · have hne : other ≠ key := by
        rintro rfl
        exact hfresh (List.mem_map.2 ⟨_, htail, rfl⟩)
      rw [if_neg hne, ih hkeys htail]

theorem find_insertKey {key other : String} (hne : key ≠ other) (value : Json) :
    (entries : List (String × Json)) → find (insertKey key value entries) other = find entries other
  | [] => by rw [insertKey, find_cons, if_neg hne]
  | entry :: entries => by
    unfold insertKey
    split
    · rw [find_cons, if_neg hne]
    · split
      · next hkey =>
        rw [find_cons, if_neg hne, find_cons, if_neg (hkey ▸ hne)]
      · rw [find_cons, find_cons, find_insertKey hne value entries]

theorem find_mapNumbersEntries (key : String) (entries : List (String × Json)) :
    find (mapNumbersEntries f entries) key = (find entries key).map (·.mapNumbers f) := by
  induction entries with
  | nil => rfl
  | cons entry entries ih =>
    rw [mapNumbersEntries, find_cons, find_cons, ih]
    split <;> rfl

end Json

namespace Sync

open Json

/-! ### Local files leave the projection as it is -/

mutual

theorem sanitizePayload_sanitizePayload :
    (value : Json) → sanitizePayload (sanitizePayload value) = sanitizePayload value
  | .null | .bool _ | .str _ | .num _ => by simp [sanitizePayload]
  | .arr items => by simp only [sanitizePayload, sanitizeItems_sanitizeItems items]
  | .obj entries => by simp only [sanitizePayload, sanitizeEntries_sanitizeEntries entries]

theorem sanitizeItems_sanitizeItems :
    (items : List Json) → sanitizeItems (sanitizeItems items) = sanitizeItems items
  | [] => rfl
  | item :: items => by
    simp only [sanitizeItems, sanitizePayload_sanitizePayload item, sanitizeItems_sanitizeItems items]

theorem sanitizeEntries_sanitizeEntries :
    (entries : List (String × Json)) → sanitizeEntries (sanitizeEntries entries) = sanitizeEntries entries
  | [] => rfl
  | (key, value) :: entries => by
    rw [sanitizeEntries]
    split
    · exact sanitizeEntries_sanitizeEntries entries
    · next hkey =>
      rw [sanitizeEntries, if_neg hkey, sanitizePayload_sanitizePayload value,
        sanitizeEntries_sanitizeEntries entries]

end

mutual

/-- The numbers may be read before or after the paths are taken out. -/
theorem sanitizePayload_mapNumbers {f : String → String} :
    (value : Json) → sanitizePayload (value.mapNumbers f) = (sanitizePayload value).mapNumbers f
  | .null | .bool _ | .str _ | .num _ => by simp [sanitizePayload, mapNumbers]
  | .arr items => by simp only [sanitizePayload, mapNumbers, sanitizeItems_mapNumbersItems items]
  | .obj entries => by simp only [sanitizePayload, mapNumbers, sanitizeEntries_mapNumbersEntries entries]

theorem sanitizeItems_mapNumbersItems {f : String → String} :
    (items : List Json) → sanitizeItems (mapNumbersItems f items) = mapNumbersItems f (sanitizeItems items)
  | [] => rfl
  | item :: items => by
    simp only [sanitizeItems, mapNumbersItems, sanitizePayload_mapNumbers item,
      sanitizeItems_mapNumbersItems items]

theorem sanitizeEntries_mapNumbersEntries {f : String → String} :
    (entries : List (String × Json)) →
      sanitizeEntries (mapNumbersEntries f entries) = mapNumbersEntries f (sanitizeEntries entries)
  | [] => rfl
  | (key, value) :: entries => by
    rw [mapNumbersEntries, sanitizeEntries, sanitizeEntries]
    split
    · exact sanitizeEntries_mapNumbersEntries entries
    · rw [mapNumbersEntries, sanitizePayload_mapNumbers value, sanitizeEntries_mapNumbersEntries entries]

end

/-- A path that is put in is taken out. -/
theorem sanitizeEntries_insertKey {key : String} (hkey : isPathKey key = true) (value : Json) :
    (entries : List (String × Json)) → sanitizeEntries (insertKey key value entries) = sanitizeEntries entries
  | [] => by
    rw [insertKey]
    simp [sanitizeEntries, hkey]
  | (other, found) :: entries => by
    unfold insertKey
    split
    · rw [sanitizeEntries, if_pos hkey]
    · split
      · next hsame =>
        obtain rfl : key = other := hsame
        rw [sanitizeEntries, if_pos hkey, sanitizeEntries, if_pos hkey]
      · rw [sanitizeEntries, sanitizeEntries, sanitizeEntries_insertKey hkey value entries]

theorem sanitizeEntries_insertPath {key : String} (hkey : isPathKey key = true)
    (localEntries entries : List (String × Json)) (allowed : Bool) :
    sanitizeEntries (insertPath localEntries key allowed entries) = sanitizeEntries entries := by
  unfold insertPath
  split
  · exact sanitizeEntries_insertKey hkey _ entries
  · rfl

theorem sanitizeEntries_insertPaths (dependencies : List LocalDependencyKind)
    (localEntries entries : List (String × Json)) :
    sanitizeEntries (insertPaths dependencies localEntries entries) = sanitizeEntries entries := by
  rw [insertPaths, sanitizeEntries_insertPath rfl, sanitizeEntries_insertPath rfl]

mutual

/-- **The paths of local files do not show in a projection.** -/
theorem sanitizePayload_mergeLocalPaths (dependencies : List LocalDependencyKind) :
    (remote : Json) → (existing : Option Json) →
      sanitizePayload (mergeLocalPaths dependencies remote existing) = sanitizePayload remote
  | .obj remote, some (.obj localEntries) => by
    rw [mergeLocalPaths, sanitizePayload, sanitizePayload, sanitizeEntries_insertPaths,
      sanitizeEntries_mergeEntries dependencies localEntries remote]
  | .obj _, none | .obj _, some .null | .obj _, some (.bool _) | .obj _, some (.num _) | .obj _, some (.str _)
  | .obj _, some (.arr _) => by simp [mergeLocalPaths]
  | .null, _ | .bool _, _ | .num _, _ | .str _, _ | .arr _, _ => by simp [mergeLocalPaths]

theorem sanitizeEntries_mergeEntries (dependencies : List LocalDependencyKind)
    (localEntries : List (String × Json)) :
    (entries : List (String × Json)) →
      sanitizeEntries (mergeEntries dependencies localEntries entries) = sanitizeEntries entries
  | [] => rfl
  | (key, value) :: entries => by
    rw [mergeEntries, sanitizeEntries, sanitizeEntries,
      sanitizePayload_mergeLocalPaths dependencies value (find localEntries key),
      sanitizeEntries_mergeEntries dependencies localEntries entries]

end

/-! ### Local files leave the dependencies as they are -/

theorem find_sanitizeEntries {key : String} (hkey : isPathKey key = false) (entries : List (String × Json)) :
    find (sanitizeEntries entries) key = (find entries key).map sanitizePayload := by
  induction entries with
  | nil => rfl
  | cons entry entries ih =>
    obtain ⟨other, value⟩ := entry
    rw [sanitizeEntries, find_cons]
    split
    · next hpath =>
      have hne : other ≠ key := fun hsame ↦ by simp [hsame, hkey] at hpath
      rw [ih, if_neg hne]
    · rw [find_cons, ih]
      split <;> rfl

theorem find_insertPath {key other : String} (hne : key ≠ other) (localEntries entries : List (String × Json))
    (allowed : Bool) : find (insertPath localEntries key allowed entries) other = find entries other := by
  unfold insertPath
  split
  · exact find_insertKey hne _ entries
  · rfl

theorem find_insertPaths {key : String} (hkey : isPathKey key = false)
    (dependencies : List LocalDependencyKind) (localEntries entries : List (String × Json)) :
    find (insertPaths dependencies localEntries entries) key = find entries key := by
  have hdb : "dbFilePath" ≠ key := fun h ↦ by simp [isPathKey, ← h] at hkey
  have hprivate : "privateKeyPath" ≠ key := fun h ↦ by simp [isPathKey, ← h] at hkey
  rw [insertPaths, find_insertPath hprivate, find_insertPath hdb]

theorem find_mergeEntries (dependencies : List LocalDependencyKind) (localEntries : List (String × Json))
    (key : String) (entries : List (String × Json)) :
    find (mergeEntries dependencies localEntries entries) key =
      (find entries key).map fun value ↦ mergeLocalPaths dependencies value (find localEntries key) := by
  induction entries with
  | nil => rfl
  | cons entry entries ih =>
    rw [mergeEntries, find_cons, find_cons, ih]
    split
    · next h => rw [← h]; rfl
    · rfl

/-- What happens to a payload on its way: paths are taken out or put in, numbers are read again. -/
inductive Passage : (Json → Json) → Prop
  | sanitize : Passage sanitizePayload
  | numbers (f : String → String) : Passage (mapNumbers f)
  | merge (dependencies : List LocalDependencyKind) (existing : Option Json) :
    Passage fun value ↦ mergeLocalPaths dependencies value existing

/-- Without local entries nothing is put in. -/
theorem mergeLocalPaths_none (dependencies : List LocalDependencyKind) (value : Json) :
    mergeLocalPaths dependencies value none = value := by
  cases value <;> simp [mergeLocalPaths]

namespace Passage

variable {change : Json → Json}

/-- What is the same for all numbers, for all lists and for all objects stays as it is. -/
theorem keeps {α : Type} {f : Json → α} (hnum : ∀ a b, f (.num a) = f (.num b))
    (harr : ∀ a b, f (.arr a) = f (.arr b)) (hobj : ∀ a b, f (.obj a) = f (.obj b)) (h : Passage change)
    (value : Json) : f (change value) = f value := by
  cases h with
  | sanitize => cases value <;> simp only [sanitizePayload] <;> first | apply harr | apply hobj
  | numbers g => cases value <;> simp only [mapNumbers] <;> first | apply hnum | apply harr | apply hobj
  | merge dependencies existing =>
    rcases value with _ | _ | _ | _ | _ | entries
    · simp only [mergeLocalPaths]
    · simp only [mergeLocalPaths]
    · simp only [mergeLocalPaths]
    · simp only [mergeLocalPaths]
    · simp only [mergeLocalPaths]
    · rcases existing with _ | _ | _ | _ | _ | _ | _ <;> simp only [mergeLocalPaths] <;> apply hobj

section

variable (h : Passage change)
include h

theorem asStr (value : Json) : (change value).asStr = value.asStr :=
  keeps (fun _ _ ↦ rfl) (fun _ _ ↦ rfl) (fun _ _ ↦ rfl) h value

theorem asBool (value : Json) : (change value).asBool = value.asBool :=
  keeps (fun _ _ ↦ rfl) (fun _ _ ↦ rfl) (fun _ _ ↦ rfl) h value

theorem isObject (value : Json) : (change value).isObject = value.isObject :=
  keeps (fun _ _ ↦ rfl) (fun _ _ ↦ rfl) (fun _ _ ↦ rfl) h value

/-- A field that is no path passes as the whole does. -/
theorem get (key : String) (hkey : isPathKey key = false) (value : Json) :
    ∃ inner, Passage inner ∧ (change value).get key = (value.get key).map inner := by
  cases h with
  | sanitize =>
    refine ⟨_, .sanitize, ?_⟩
    cases value with
    | obj entries =>
      rw [sanitizePayload]
      exact find_sanitizeEntries hkey entries
    | _ => simp [sanitizePayload, Json.get]
  | numbers f =>
    refine ⟨_, .numbers f, ?_⟩
    cases value with
    | obj entries =>
      rw [mapNumbers]
      exact find_mapNumbersEntries key entries
    | _ => simp [mapNumbers, Json.get]
  | merge dependencies existing =>
    by_cases hobject : ∃ entries localEntries, value = .obj entries ∧ existing = some (.obj localEntries)
    · obtain ⟨entries, localEntries, rfl, rfl⟩ := hobject
      refine ⟨_, .merge dependencies (find localEntries key), ?_⟩
      show (mergeLocalPaths dependencies (.obj entries) (some (.obj localEntries))).get key = _
      rw [mergeLocalPaths]
      exact (find_insertPaths hkey _ _ _).trans (find_mergeEntries _ _ _ _)
    · refine ⟨_, .merge dependencies none, ?_⟩
      have hsame : mergeLocalPaths dependencies value existing = value := by
        unfold mergeLocalPaths
        split
        · next entries localEntries => exact absurd ⟨entries, localEntries, rfl, rfl⟩ hobject
        · rfl
      simp only [hsame, mergeLocalPaths_none, Option.map_id']

/-- A text at a field. -/
theorem get_asStr (key : String) (hkey : isPathKey key = false) (value : Json) :
    ((change value).get key).bind Json.asStr = (value.get key).bind Json.asStr := by
  obtain ⟨inner, hinner, hget⟩ := h.get key hkey value
  rw [hget]
  cases value.get key with
  | none => rfl
  | some found => exact hinner.asStr found

/-- A truth value at a field. -/
theorem get_asBool (key : String) (hkey : isPathKey key = false) (value : Json) :
    ((change value).get key).bind Json.asBool = (value.get key).bind Json.asBool := by
  obtain ⟨inner, hinner, hget⟩ := h.get key hkey value
  rw [hget]
  cases value.get key with
  | none => rfl
  | some found => exact hinner.asBool found

/-- **What a payload asks for does not change on its way.** -/
theorem collectLocalDependencies (driver : ConnectionDriver) (payload : Json) :
    collectLocalDependencies driver (change payload) = Sync.collectLocalDependencies driver payload := by
  obtain ⟨inner, hinner, hget⟩ := h.get "sshTunnel" rfl payload
  have htunnel : ((change payload).get "sshTunnel").filter Json.isObject =
      ((payload.get "sshTunnel").filter Json.isObject).map inner := by
    rw [hget]
    cases payload.get "sshTunnel" with
    | none => rfl
    | some tunnel =>
      rw [Option.map_some, Option.filter_some, Option.filter_some, hinner.isObject tunnel]
      split <;> rfl
  unfold Sync.collectLocalDependencies
  rw [htunnel, h.get_asStr "mode" rfl payload]
  cases (payload.get "sshTunnel").filter Json.isObject with
  | none => rfl
  | some tunnel =>
    have henabled := hinner.get_asBool "enabled" rfl tunnel
    have hmethod := hinner.get_asStr "authMethod" rfl tunnel
    simp only [Option.map_some, Option.bind_some, henabled, hmethod]

end

end Passage

end Sync
