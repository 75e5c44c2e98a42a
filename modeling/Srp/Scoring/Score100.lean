/-
  Srp/Scoring/Score100.lean
  =========================
  **The Score100 envelope** (`server/scoring/score100.py`) and the signal
  vocabulary the domain engines put into it: factors, coordinate tags and
  machine flags.  Every engine returns one `Score100`; `scoreToDict` is the
  shape that lands in the stored risk block and that `compute_health` reads.
-/
import Srp.Lib.PyNum

namespace Srp.Scoring

open Srp.Lib.PyNum

/-! ### Bands and confidence -/

inductive Direction where
  | higherIsBetter
  | higherIsWorse
deriving DecidableEq, Repr

inductive ScoreBand where
  | good
  | watch
  | bad
  | unknown
deriving DecidableEq, Repr

inductive ScoreConfidence where
  | unknown
  | low
  | medium
  | high
deriving DecidableEq, Repr

/-- Higher is worse: good < 15, watch < 40, else bad; a missing value has no band. -/
def bandForRiskScore : Option ℚ → ScoreBand
  | none => .unknown
  | some v => if v < 15 then .good else if v < 40 then .watch else .bad

theorem bandForRiskScore_ne_unknown {v : ℚ} : bandForRiskScore (some v) ≠ .unknown := by
  simp only [bandForRiskScore]
  split_ifs <;> simp

theorem bandForRiskScore_bad {v : ℚ} : bandForRiskScore (some v) = .bad ↔ 40 ≤ v := by
  simp only [bandForRiskScore]
  split_ifs with h15 h40
  · simp
    linarith
  · simp [h40]
  · simpa using h40

/-! ### Factors, flags and coordinates -/

structure Factor where
  label : String
  delta : ℚ
deriving DecidableEq, Repr

inductive Flag where
  | tempUnstable
  | predictFail
  | cwSpare
  | cwReliability
  | cwReadonly
  | pendingGt10
  | uncorrectable198
  | damagePresent
  | spareBelowThreshold
  | recurrence
  | accel
  | remapMasking
  | compensationBreach
  | chainStage2
  | chainStage3
  | earlyEvents
  | spareDepleting
  | tailRatioWorsening
  | agingAccelerating
  | agingLeak
  | rebootRestores
deriving DecidableEq, Repr

/-- The coordinate tags of one engine: Damage points, Resilience loss, flags. -/
structure Coords where
  damage : ℚ
  resilienceLoss : ℚ
  flags : List Flag
deriving DecidableEq, Repr

/-- `source_lineage`: the keys the engines write, absent ones `none`. -/
structure SourceLineage where
  identity : Option String := none
  storageDomain : Option String := none
  worstDisk : Option String := none
  disksWithSmart : Option Nat := none
  disksTotal : Option Nat := none
  coords : Option Coords := none
deriving DecidableEq, Repr

structure Score100 where
  value : Option ℚ
  direction : Direction
  band : ScoreBand
  confidence : ScoreConfidence
  factors : List Factor := []
  missingEvidence : List String := []
  sourceLineage : SourceLineage := {}
  reason : String := ""
deriving DecidableEq, Repr

/-- The stored form of a `Score100`.  `coords` is the sibling key the pipeline
    promotes out of the lineage for the storage and aging axes. -/
structure Axis extends Score100 where
  coords : Option Coords := none
deriving DecidableEq, Repr

def scoreToDict (score : Score100) : Axis := { score with coords := none }

/-! ### The axes of the risk block -/

inductive AxisName where
  | performance
  | reliability
  | wear
  | riskExposure
  | observability
  | trajectoryRisk
  | storageRisk
  | diskFillRisk
  | osDegradationRisk
  | fleetAnomalyRisk
  | networkRisk
  | softwareAgingRisk
deriving DecidableEq, Repr

def AxisName.all : List AxisName :=
  [.performance, .reliability, .wear, .riskExposure, .observability, .trajectoryRisk,
   .storageRisk, .diskFillRisk, .osDegradationRisk, .fleetAnomalyRisk, .networkRisk,
   .softwareAgingRisk]

/-- `risk_block["score100"]`: a missing key is `none`. -/
abbrev Axes := AxisName → Option Axis

end Srp.Scoring
