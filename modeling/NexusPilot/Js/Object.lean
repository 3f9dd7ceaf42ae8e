import Mathlib.Data.List.Nodup
import Mathlib.Tactic.Common

/-!
# Plain objects

A plain object as the list of its own properties, in the order in which they were made; no two of them have
the same name. A property is made in two ways. An object literal with a computed name and
`Object.fromEntries` define it, whatever its name is (`define`). An assignment to a property (`assign`) does
the same, but not under the name `__proto__`, where it is the prototype that is assigned to.

`Object.entries` lists the names that are array indexes before the others; the order of the entries decides
nothing of what is stated about them here.
-/

namespace Js

variable {α : Type}

/-- A plain object with its own properties. -/
structure Object (α : Type) where
  entries : List (String × α)
  nodup : (entries.map Prod.fst).Nodup

namespace Object

/-- `{}`. -/
def empty : Object α where
  entries := []
  nodup := List.nodup_nil

/-- The own property of a name. -/
def get? (object : Object α) (name : String) : Option α :=
  object.entries.lookup name

/-- `name in object`, for the own properties. -/
def has (object : Object α) (name : String) : Bool :=
  (object.get? name).isSome

/-- `Object.keys`. -/
def keys (object : Object α) : List String :=
  object.entries.map Prod.fst

/-- `delete object[name]`. -/
def delete (object : Object α) (name : String) : Object α where
  entries := object.entries.filter fun entry ↦ entry.1 ≠ name
  nodup := object.nodup.sublist (List.filter_sublist.map _)

/-- The entries of an object with a property at its place, or at the end when there is none of its name. -/
def place (entries : List (String × α)) (name : String) (value : α) : List (String × α) :=
  match entries with
  | [] => [(name, value)]
  | entry :: rest => if entry.1 = name then (name, value) :: rest else entry :: place rest name value

variable {entries : List (String × α)} {name other : String} {value : α} {object : Object α}

theorem mem_place :
    other ∈ (place entries name value).map Prod.fst ↔ other = name ∨ other ∈ entries.map Prod.fst := by
  induction entries with
  | nil => simp [place]
  | cons entry rest ih =>
    rw [place]
    split_ifs with hname
    · simp [hname]
    · rw [List.map_cons, List.map_cons, List.mem_cons, ih, List.mem_cons]
      exact or_left_comm

theorem nodup_place (h : (entries.map Prod.fst).Nodup) (name : String) (value : α) :
    ((place entries name value).map Prod.fst).Nodup := by
  induction entries with
  | nil => exact List.nodup_singleton name
  | cons entry rest ih =>
    obtain ⟨hfirst, hrest⟩ := List.nodup_cons.1 h
    rw [place]
    split_ifs with hname
    · rw [List.map_cons]
      exact List.nodup_cons.2 ⟨hname ▸ hfirst, hrest⟩
    · rw [List.map_cons]
      refine List.nodup_cons.2 ⟨fun hmem ↦ ?_, ih hrest⟩
      exact (mem_place.1 hmem).elim hname hfirst

/-- `{ ...object, [name]: value }`. -/
def define (object : Object α) (name : String) (value : α) : Object α where
  entries := place object.entries name value
  nodup := nodup_place object.nodup name value

/-- `object[name] = value`, where a value under the name `__proto__` makes no property. -/
def assign (object : Object α) (name : String) (value : α) : Object α :=
  if name = "__proto__" then object else object.define name value

/-- `Object.fromEntries(Object.entries(object).filter(([, value]) => test(value)))`. -/
def filterValues (object : Object α) (test : α → Bool) : Object α where
  entries := object.entries.filter fun entry ↦ test entry.2
  nodup := object.nodup.sublist (List.filter_sublist.map _)

/-! ### What is read -/

@[simp]
theorem get?_empty (name : String) : (empty : Object α).get? name = none :=
  rfl

theorem lookup_place :
    (place entries name value).lookup other = if other = name then some value else entries.lookup other := by
  induction entries with
  | nil =>
    rw [place, List.lookup_cons, List.lookup_nil]
    split_ifs with h
    · simp [h]
    · rw [beq_eq_false_iff_ne.2 h]
  | cons entry rest ih =>
    rw [place]
    split_ifs with hname hother hother
    · simp [hother]
    · have hne : (other == entry.1) = false := by
        rw [hname]
        exact beq_eq_false_iff_ne.2 hother
      rw [List.lookup_cons, List.lookup_cons, hne, beq_eq_false_iff_ne.2 hother]
    · have hne : (other == entry.1) = false := beq_eq_false_iff_ne.2 (hother ▸ Ne.symm hname)
      rw [List.lookup_cons, hne, ih, if_pos hother]
    · rw [List.lookup_cons, List.lookup_cons, ih, if_neg hother]

theorem get?_define (object : Object α) (name other : String) (value : α) :
    (object.define name value).get? other = if other = name then some value else object.get? other :=
  lookup_place

theorem get?_assign (object : Object α) (name other : String) (value : α) :
    (object.assign name value).get? other =
      if other = name ∧ name ≠ "__proto__" then some value else object.get? other := by
  rw [assign]
  split_ifs with hproto hother hother
  · exact absurd hproto hother.2
  · rfl
  · rw [get?_define, if_pos hother.1]
  · rw [get?_define, if_neg fun h ↦ hother ⟨h, hproto⟩]

theorem lookup_filter_of_forall {test : String × α → Bool}
    (h : ∀ value, (name, value) ∈ entries → test (name, value) = true) :
    (entries.filter test).lookup name = entries.lookup name := by
  induction entries with
  | nil => rfl
  | cons entry rest ih =>
    have hrest := ih fun value hmem ↦ h value (List.mem_cons_of_mem _ hmem)
    by_cases htest : test entry = true
    · rw [List.filter_cons_of_pos htest, List.lookup_cons, List.lookup_cons, hrest]
    · have hne : (name == entry.1) = false := by
        rw [beq_eq_false_iff_ne]
        rintro rfl
        exact htest (h entry.2 List.mem_cons_self)
      rw [List.filter_cons_of_neg htest, List.lookup_cons, hne, hrest]

theorem mem_of_get? (h : object.get? name = some value) :
    (name, value) ∈ object.entries := by
  rw [get?] at h
  generalize object.entries = entries at h
  induction entries with
  | nil => cases h
  | cons entry rest ih =>
    rw [List.lookup_cons] at h
    split at h
    · rename_i hname
      cases h
      rw [eq_of_beq hname]
      exact List.mem_cons_self
    · exact List.mem_cons_of_mem _ (ih h)

/-- The entries of an object are what is read of it. -/
theorem mem_entries_iff :
    (name, value) ∈ object.entries ↔ object.get? name = some value := by
  refine ⟨fun hmem ↦ ?_, mem_of_get?⟩
  have hnodup := object.nodup
  rw [get?]
  generalize object.entries = entries at hmem hnodup
  induction entries with
  | nil => cases hmem
  | cons entry rest ih =>
    obtain ⟨hfirst, hrest⟩ := List.nodup_cons.1 hnodup
    rw [List.lookup_cons]
    obtain rfl | hmem := List.mem_cons.1 hmem
    · simp
    · have hne : (name == entry.1) = false := by
        rw [beq_eq_false_iff_ne]
        rintro rfl
        exact hfirst (List.mem_map.2 ⟨_, hmem, rfl⟩)
      rw [hne, ih hmem hrest]

theorem mem_keys_iff : name ∈ object.keys ↔ ∃ value, object.get? name = some value := by
  rw [keys, List.mem_map]
  constructor
  · rintro ⟨⟨_, value⟩, hmem, rfl⟩
    exact ⟨value, mem_entries_iff.1 hmem⟩
  · rintro ⟨value, h⟩
    exact ⟨(name, value), mem_entries_iff.2 h, rfl⟩

theorem has_iff : object.has name = true ↔ ∃ value, object.get? name = some value :=
  Option.isSome_iff_exists

theorem keys_eq_nil_iff : object.keys = [] ↔ ∀ name, object.get? name = none := by
  rw [List.eq_nil_iff_forall_not_mem]
  refine forall_congr' fun name ↦ ?_
  rw [mem_keys_iff, not_exists, Option.eq_none_iff_forall_ne_some]

theorem get?_delete (object : Object α) (name other : String) :
    (object.delete name).get? other = if other = name then none else object.get? other := by
  split_ifs with hother
  · refine Option.eq_none_iff_forall_ne_some.2 fun value h ↦ ?_
    have hmem := mem_of_get? h
    exact absurd hother (by simpa using (List.mem_filter.1 hmem).2)
  · exact lookup_filter_of_forall fun value _ ↦ by simpa using hother

theorem get?_filterValues (object : Object α) (test : α → Bool) (name : String) :
    (object.filterValues test).get? name = (object.get? name).filter test := by
  refine Option.ext fun value ↦ ?_
  rw [Option.filter_eq_some_iff, ← mem_entries_iff, ← mem_entries_iff]
  exact List.mem_filter

end Object

end Js
