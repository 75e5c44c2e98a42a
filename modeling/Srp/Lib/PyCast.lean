/-
  Srp/Lib/PyCast.lean
  ===================
  **`int()` of a decoded value.**

  A float is cut off towards zero, an infinite one raises `OverflowError`.
  `TypeError` and `ValueError` are one error here: no caller tells them apart.
-/
import Srp.Lib.PyFloat
import Srp.Lib.PyInt
import Srp.Lib.PyJson
import Srp.Lib.PyNum

namespace Srp.Lib.PyCast

open Srp.Lib.PyInt Srp.Lib.PyJson Srp.Lib.PyNum

/-- `int(value)`; `ofToken` is the float that a token stands for. -/
def intOf (C : PyChars) (ofToken : FloatText → PyFloat) : Json → Except PyError Int
  | .bool b => .ok (if b then 1 else 0)
  | .int n => .ok n
  | .float x =>
    match ofToken x with
    | .finite q => .ok (trunc q)
    | .nan => .error .valueError
    | _ => .error .overflowError
  | .str t =>
    match pyInt C t with
    | some n => .ok n
    | none => .error .valueError
  | _ => .error .valueError

/-- `try: int(value) except (TypeError, ValueError): None`. -/
def intOrNone (C : PyChars) (ofToken : FloatText → PyFloat) (v : Json) :
    Except PyError (Option Int) :=
  match intOf C ofToken v with
  | .ok n => .ok (some n)
  | .error .valueError => .ok none
  | .error e => .error e

end Srp.Lib.PyCast
