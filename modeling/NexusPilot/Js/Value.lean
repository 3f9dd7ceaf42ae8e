import NexusPilot.Js.Double

/-!
# Values of a JavaScript program

The values that a program reads from JSON and sends as JSON. They are taken up to `Object.is`: two values are
equal here when `Object.is` holds of them, so that there is one `NaN`, two zeros, and an object is its
reference.
-/

namespace Js

/-- A number. The doubles that are not whole are kept in their decimal notation. -/
inductive Number
  | nan
  | infinite (negative : Bool)
  | whole (negative : Bool) (value : WholeDouble)
  | fractional (negative : Bool) (integer : ℕ) (fraction : List (Fin 10))
  deriving DecidableEq

/-- `Number.isFinite`. -/
def Number.isFinite : Number → Bool
  | nan | infinite _ => false
  | whole _ _ | fractional _ _ _ => true

inductive Value
  | undefined
  | null
  | boolean (value : Bool)
  | number (value : Number)
  | string (value : String)
  | object (reference : ℕ)
  deriving DecidableEq

/-- `value === null || value === undefined`. -/
def Value.isNullish : Value → Bool
  | undefined | null => true
  | boolean _ | number _ | string _ | object _ => false

end Js
