/-
  Srp/Analytics/Signals.lean
  ==========================
  **Serialised inputs of the health engines**: the error-chain observer
  (`errchain.py`), the per-metric trends (`trends.py`) and the fleet counters
  of the self-reinforcing rules (`rulestats.py`).
-/
import Srp.Scoring.Score100

namespace Srp.Analytics

open Srp.Scoring

/-! ### Trends -/

inductive TrendDirection where
  | worsening
  | improving
  | flat
  | insufficient
deriving DecidableEq, Repr

/-- The fields of a `TrendResult` that an engine reads. -/
structure TrendResult where
  nPoints : Nat
  current : Option ℚ := none
  slopePerDay : Option ℚ := none
  etaDays : Option ℚ := none
  direction : TrendDirection
  accelerating : Option Bool := none
deriving DecidableEq, Repr

inductive TrendKey where
  | storageWear
  | diskFill
  | bootTime
  | throttle
  | gatewayLatency
  | diskTailRatio
  | smartPending
  | smartMediaErrors
  | smartRealloc
  | nvmeSpare
deriving DecidableEq, Repr

def TrendKey.all : List TrendKey :=
  [.storageWear, .diskFill, .bootTime, .throttle, .gatewayLatency, .diskTailRatio,
   .smartPending, .smartMediaErrors, .smartRealloc, .nvmeSpare]

abbrev Trends := TrendKey → Option TrendResult

/-! ### Error chain -/

structure ErrCounts where
  early : Nat := 0
  damage : Nat := 0
  crash : Nat := 0
  appHang : Nat := 0
deriving DecidableEq, Repr

/-- `stage`: 0 none, 1 retries only, 2 damage present, 3 damage followed by a crash. -/
structure ErrChain where
  stage : Nat := 0
  burstiness : Option ℚ := none
  counts : ErrCounts := {}
  factors : List Factor := []
deriving DecidableEq, Repr

/-! ### Rule reinforcement -/

inductive RuleKey where
  | pendingHigh
  | mediaRecurrence
  | earlyChain
deriving DecidableEq, Repr

def ruleLabel : RuleKey → String
  | .pendingHigh => "повышенное число pending-секторов"
  | .mediaRecurrence => "рецидив дефектов диска"
  | .earlyChain => "ранние сигналы без повреждений"

structure RuleCounts where
  confirmed : Nat := 0
  refuted : Nat := 0
deriving DecidableEq, Repr

/-- `rule_stats`: an absent key reads as two zeros. -/
abbrev RuleStats := RuleKey → RuleCounts

def boostMinConfirmed : Nat := 5
def ceilingMinConfirmed : Nat := 15
def boostMinRatio : ℚ := 7 / 10
def muteMinRefuted : Nat := 10
def muteMaxRatio : ℚ := 3 / 10
def boostMult : ℚ := 12 / 10
def ceilingMult : ℚ := 15 / 10
def muteMult : ℚ := 8 / 10
def neutralMult : ℚ := 1

/-- `fl` is the rounding of a float operation, also of the constants. -/
def reinforcement (fl : ℚ → ℚ) (_ruleKey : RuleKey) (stats : RuleCounts) : ℚ :=
  let total := stats.confirmed + stats.refuted
  let ratio : ℚ := if 0 < total then fl (stats.confirmed / total) else 0
  if ceilingMinConfirmed ≤ stats.confirmed ∧ fl boostMinRatio ≤ ratio then fl ceilingMult
  else if boostMinConfirmed ≤ stats.confirmed ∧ fl boostMinRatio ≤ ratio then fl boostMult
  else if muteMinRefuted ≤ stats.refuted ∧ ratio < fl muteMaxRatio then fl muteMult
  else neutralMult

/-- In exact arithmetic the multiplier stays in the documented range `[0.8, 1.5]`. -/
theorem reinforcement_bounds (key : RuleKey) (stats : RuleCounts) :
    8 / 10 ≤ reinforcement id key stats ∧ reinforcement id key stats ≤ 15 / 10 := by
  simp only [reinforcement, ceilingMult, boostMult, muteMult, neutralMult, id_eq]
  split_ifs <;> norm_num

end Srp.Analytics
