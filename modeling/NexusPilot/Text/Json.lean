import Mathlib.Data.List.Sort
import Mathlib.Tactic.Common

/-!
# JSON values

A JSON value as a program holds it: an object is the list of its entries in the order in which the
program keeps them, and a number is its text, since none of the programs here computes with one.

Equality is decidable, and `Json.canonicalize` sorts the entries of every object by a comparison of keys, so
that two values agree up to the order of entries when their canonical forms are equal.
-/

/-- A JSON value. -/
inductive Json
  | null
  | bool (value : Bool)
  | num (text : String)
  | str (text : String)
  | arr (items : List Json)
  | obj (entries : List (String × Json))

namespace Json

instance : Inhabited Json :=
  ⟨.null⟩

/-! ### Decidable equality -/

mutual

/-- Equality of values. -/
def beq : Json → Json → Bool
  | .null, .null => true
  | .bool a, .bool b => a == b
  | .num a, .num b => a == b
  | .str a, .str b => a == b
  | .arr a, .arr b => beqItems a b
  | .obj a, .obj b => beqEntries a b
  | _, _ => false

/-- Equality of arrays. -/
def beqItems : List Json → List Json → Bool
  | [], [] => true
  | a :: as, b :: bs => beq a b && beqItems as bs
  | _, _ => false

/-- Equality of objects, entry by entry. -/
def beqEntries : List (String × Json) → List (String × Json) → Bool
  | [], [] => true
  | (k, a) :: as, (l, b) :: bs => k == l && beq a b && beqEntries as bs
  | _, _ => false

end

mutual

theorem beq_iff : (a b : Json) → (beq a b = true ↔ a = b)
  | .null, b => by cases b <;> simp [beq]
  | .bool _, b => by cases b <;> simp [beq]
  | .num _, b => by cases b <;> simp [beq]
  | .str _, b => by cases b <;> simp [beq]
  | .arr as, b => by cases b <;> simp [beq, beqItems_iff as]
  | .obj as, b => by cases b <;> simp [beq, beqEntries_iff as]

theorem beqItems_iff : (as bs : List Json) → (beqItems as bs = true ↔ as = bs)
  | [], bs => by cases bs <;> simp [beqItems]
  | a :: as, bs => by cases bs <;> simp [beqItems, beq_iff a, beqItems_iff as]

theorem beqEntries_iff : (as bs : List (String × Json)) → (beqEntries as bs = true ↔ as = bs)
  | [], bs => by cases bs <;> simp [beqEntries]
  | (k, a) :: as, bs => by
    cases bs with
    | nil => simp [beqEntries]
    | cons b bs => simp [beqEntries, beq_iff a, beqEntries_iff as, Prod.ext_iff]

end

instance : DecidableEq Json := fun a b ↦ decidable_of_iff _ (beq_iff a b)

/-! ### Canonical form -/

mutual

/-- The entries of every object sorted by their keys; entries whose keys compare equal keep their
order. -/
def canonicalize (compare : String → String → Ordering) : Json → Json
  | .arr items => .arr (canonicalizeItems compare items)
  | .obj entries =>
    .obj ((canonicalizeEntries compare entries).insertionSort fun a b ↦ compare a.1 b.1 ≠ .gt)
  | value => value

/-- The canonical form of each item. -/
def canonicalizeItems (compare : String → String → Ordering) : List Json → List Json
  | [] => []
  | item :: items => canonicalize compare item :: canonicalizeItems compare items

/-- The canonical form of the value of each entry. -/
def canonicalizeEntries (compare : String → String → Ordering) :
    List (String × Json) → List (String × Json)
  | [] => []
  | (key, value) :: entries => (key, canonicalize compare value) :: canonicalizeEntries compare entries

end

end Json
