/-
  Srp/Trust/Validators.lean
  =========================
  **Plausibility of a reading** (`server/trust/validators.py`).

  A reading is a decoded dictionary.  A validator is `none` where it raises: on a
  value of a type that it does not expect, and on an integer that no float can
  hold (`_num` catches neither `AttributeError` nor `OverflowError`).
-/
import Srp.Lib.Lines
import Srp.Lib.PyFloat
import Srp.Lib.PyJson
import Srp.Lib.PyNum
import Srp.Trust.Gate

namespace Srp.Trust

open Srp.Lib Srp.Lib.Lines Srp.Lib.PyJson Srp.Lib.PyNum

/-- What the interpreter makes of numbers and texts: a float token, `float()` of a text, `str()`
    of a float and of a decoded value that is no text. -/
structure PyValues where
  ofToken : FloatText → PyFloat
  ofText : Text → Option PyFloat
  reprOf : PyFloat → Text
  strOf : Json → Text

variable (P : PyValues)

abbrev Fields := List (Text × Json)

/-- `d.get(key)`. -/
def getField (d : Fields) (key : String) : Json := (d.lookup key.toList).getD .null

/-- `bool(value)`. -/
def truthy : Json → Bool
  | .null => false
  | .bool b => b
  | .int n => n ≠ 0
  | .float x => P.ofToken x ≠ .finite 0
  | .str t => t ≠ []
  | .arr xs => !xs.isEmpty
  | .obj d => !d.isEmpty

/-- `str(value)`. -/
def pyStr : Json → Text
  | .str t => t
  | j => P.strOf j

/-- `_num`. -/
def num : Json → Option (Option PyFloat)
  | .null => some none
  | .bool b => some (some (.finite (if b then 1 else 0)))
  | .int n =>
    match floatOfInt n with
    | .ok q => some (some (.finite q))
    | .error _ => none
  | .float x => some (some (P.ofToken x))
  | .str t => some (P.ofText t)
  | .arr _ => some none
  | .obj _ => some none

/-- A verdict with its reason. -/
abbrev Result := SemanticStatus × Option Text

/-- `_OK`. -/
def okResult : Result := (.plausible_, none)

/-- `validate_scalar_range`. -/
def validateScalarRange (source : String) (value : Json) (lo hi : ℚ) : Option Result := do
  match ← num P value with
  | none => return okResult
  | some v =>
    if v.lt (.finite lo) || PyFloat.lt (.finite hi) v then
      return (.implausible_, some (source.toList ++ '=' :: P.reprOf v ++ " outside [".toList ++
        P.reprOf (.finite lo) ++ ',' :: P.reprOf (.finite hi) ++ [']']))
    else return okResult

/-- The checks of a loop, one after the other: the first that finds fault ends it. -/
def firstFault {α : Type} (check : α → Option Result) : List α → Option Result
  | [] => some okResult
  | a :: as => do
    let result ← check a
    if result.1 ≠ .plausible_ then return result else firstFault check as

/-- `cur < 0` of an optional number. -/
def negative : Option PyFloat → Bool
  | some v => v.lt (.finite 0)
  | none => false

/-- `cur < prev`, when both are known. -/
def dropped : Option PyFloat → Option PyFloat → Bool
  | some cur, some prev => cur.lt prev
  | _, _ => false

def reprOpt : Option PyFloat → Text
  | some v => P.reprOf v
  | none => "None".toList

def dropReason (key : Text) (prev cur : Option PyFloat) : Text :=
  key ++ " dropped ".toList ++ reprOpt P prev ++ "->".toList ++ reprOpt P cur ++
    " (counter reset)".toList

def storageCounters : List String :=
  ["reallocated_sectors", "power_on_hours", "read_errors_total", "write_errors_total"]

/-- The loop body of `validate_storage_item`. -/
def validateStorageCounter (item : Fields) (last : Option Fields) (key : String) :
    Option Result := do
  let cur ← num P (getField item key)
  if negative cur then
    return (.implausible_, some (key.toList ++ '=' :: reprOpt P cur ++ " (negative)".toList))
  else match last with
    | none => return okResult
    | some last =>
      let prev ← num P (getField last key)
      if dropped cur prev then return (.inconsistent, some (dropReason P key.toList prev cur))
      else return okResult

/-- `validate_storage_item`. -/
def validateStorageItem (item : Fields) (last : Option Fields) : Option Result := do
  let wear ← num P (getField item "wear_pct")
  match wear with
  | some w =>
    if w.lt (.finite 0) || PyFloat.lt (.finite 100) w then
      return (.implausible_, some ("wear_pct=".toList ++ P.reprOf w))
    else firstFault (validateStorageCounter P item last) storageCounters
  | none => firstFault (validateStorageCounter P item last) storageCounters

def smartPercentages : List String :=
  ["nvme_spare_pct", "nvme_spare_threshold_pct", "nvme_percentage_used"]

def smartCounters : List String :=
  ["nvme_media_errors", "nvme_unsafe_shutdowns", "power_on_hours"]

/-- `_SMART_MONOTONIC_ATTRS`. -/
def smartMonotonicAttrs : List String := ["5", "197", "198"]

/-- The two readings are of one disk. -/
def sameDisk (item last : Fields) : Bool :=
  match getField item "serial_hash", getField last "serial_hash" with
  | .null, _ => false
  | .str a, .str b => a = b
  | _, _ => false

/-- `validate_smart_item`. -/
def validateSmartItem (item : Fields) (last : Option Fields) : Option Result := do
  let range ← firstFault
    (fun key => validateScalarRange P ("smart." ++ key) (getField item key) 0 100) smartPercentages
  if range.1 ≠ .plausible_ then return range
  let temp ← num P (getField item "temperature_c")
  match temp with
  | some t =>
    if t.lt (.finite (-10)) || PyFloat.lt (.finite 100) t then
      return (.implausible_, some ("smart.temperature_c=".toList ++ P.reprOf t))
  | none => pure ()
  let sign ← firstFault (fun key => do
    let cur ← num P (getField item key)
    if negative cur then
      return (.implausible_,
        some ("smart.".toList ++ key.toList ++ '=' :: reprOpt P cur ++ " (negative)".toList))
    else return okResult) smartCounters
  if sign.1 ≠ .plausible_ then return sign
  match last with
  | none => return okResult
  | some last =>
    if !sameDisk item last then return okResult
    let drop ← firstFault (fun key => do
      let cur ← num P (getField item key)
      let prev ← num P (getField last key)
      if dropped cur prev then
        return (.inconsistent, some (dropReason P ("smart.".toList ++ key.toList) prev cur))
      else return okResult) smartCounters
    if drop.1 ≠ .plausible_ then return drop
    match getField item "smart_attrs", getField last "smart_attrs" with
    | .obj attrs, .obj lastAttrs =>
      firstFault (fun key => do
        let cur ← num P (getField attrs key)
        let prev ← num P (getField lastAttrs key)
        if dropped cur prev then
          return (.inconsistent,
            some (dropReason P ("smart.attr[".toList ++ key.toList ++ [']']) prev cur))
        else return okResult) smartMonotonicAttrs
    | _, _ => return okResult

/-- `validate_frozen_constant`. -/
def validateFrozenConstant (source : String) (value lastValue : Json) : Option Result := do
  let cur ← num P value
  let prev ← num P lastValue
  match cur, prev with
  | some c, some p =>
    if c.eq p then
      return (.frozen, some (source.toList ++ " constant at ".toList ++ P.reprOf c ++
        " across samples".toList))
    else return okResult
  | _, _ => return okResult

/-- `MATERIAL_SOURCES`. -/
def materialSources : List String :=
  ["storage_reliability", "free_space", "reliability", "boot_time", "throttle", "event_counts",
    "network", "smart"]

/-- `_known_bad`, with the one entry of its registry. -/
def knownBad (item : Fields) : Result :=
  let model := if truthy P (getField item "model") then pyStr P (getField item "model") else []
  let firmware :=
    if truthy P (getField item "firmware") then pyStr P (getField item "firmware") else []
  if "BadSSD X1".toList <:+: model ∧ "EVIL01".toList = firmware then
    (.knownBad, some ("known-bad firmware (advisory seed): ".toList ++ model ++ '/' :: firmware))
  else okResult

/-- What a `for` loop over `value or []` goes through; `none` where it raises. -/
def iterate (value : Json) : Option (List Json) :=
  if !truthy P value then some []
  else match value with
    | .arr xs => some xs
    | .obj d => some (d.map fun f => .str f.1)
    | .str t => some (t.map fun c => .str [c])
    | _ => none

/-- `validate_network`. -/
def validateNetwork (reading : Fields) : Option Result := do
  let quality ← firstFault (fun q =>
    match q with
    | .obj q => do
      let loss ← validateScalarRange P "network.loss_pct" (getField q "loss_pct") 0 100
      if loss.1 ≠ .plausible_ then return loss
      validateScalarRange P "network.latency_ms" (getField q "latency_ms") 0 60000
    | _ => return okResult) (← iterate P (getField reading "quality"))
  if quality.1 ≠ .plausible_ then return quality
  firstFault (fun sig => validateScalarRange P "network.signal_pct" sig 0 100)
    (← iterate P (getField reading "signal_pcts"))

/-- `validate_source`. -/
def validateSource (source : String) (reading : Fields) (last : Option Fields) : Option Result :=
  if source ∉ materialSources then some (.unchecked, none)
  else match source with
    | "network" => validateNetwork P reading
    | "storage_reliability" =>
      let kb := knownBad P reading
      if kb.1 ≠ .plausible_ then some kb else validateStorageItem P reading last
    | "smart" => validateSmartItem P reading last
    | "free_space" => validateScalarRange P source (getField reading "value") 0 100
    | "reliability" => validateScalarRange P source (getField reading "value") 0 10
    | "boot_time" => validateScalarRange P source (getField reading "value") 0 600000
    | "throttle" =>
      validateFrozenConstant P source (getField reading "value")
        (getField (last.getD []) "value")
    | "event_counts" =>
      firstFault (fun f => validateScalarRange P (String.ofList f.1) f.2 0 1000000) reading
    | _ => some okResult

end Srp.Trust
