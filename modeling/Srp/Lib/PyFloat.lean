/-
  Srp/Lib/PyFloat.lean
  ====================
  **Python floats, with the values that are no number.**

  A finite float is the rational it denotes.  A comparison with NaN is false,
  whichever way it is asked.
-/
import Mathlib.Data.Rat.Defs
import Mathlib.Algebra.Order.Ring.Rat

namespace Srp.Lib

inductive PyFloat where
  | nan
  | negInf
  | posInf
  | finite (q : ℚ)
deriving DecidableEq, Repr

namespace PyFloat

/-- `a < b`. -/
def lt : PyFloat → PyFloat → Bool
  | .finite a, .finite b => decide (a < b)
  | .negInf, .finite _ | .negInf, .posInf | .finite _, .posInf => true
  | _, _ => false

/-- `a == b`. -/
def eq : PyFloat → PyFloat → Bool
  | .nan, _ => false
  | a, b => decide (a = b)

end PyFloat

end Srp.Lib
