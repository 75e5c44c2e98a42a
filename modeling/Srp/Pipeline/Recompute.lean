/-
  Srp/Pipeline/Recompute.lean
  ===========================
  **One recompute of a device** (`recompute_scores`), as far as it feeds the
  health verdict.

  A cycle reads its inputs from the database, scores the storage axis over all
  disks, promotes the coordinate tags, and hands the axes to `compute_health`
  together with the health block stored by the previous cycle.  The axes of the
  other engines are inputs of the cycle.
-/
import Srp.Analytics.StorageRisk
import Srp.Analytics.HealthRatchet

namespace Srp.Pipeline

open Srp.Lib.PyNum Srp.Scoring Srp.Shared Srp.Analytics Srp.Analytics.Storage
  Srp.Analytics.Health

/-! ### The inputs of a cycle -/

/-- What one recompute reads.  `getDiskSeries` and `computeTrends` are the database
    lookup of one disk's series and the trends over it and the fetched histories. -/
structure CycleInputs where
  historical : Option HistoricalPayload
  heartbeat : Option HeartbeatPayload := none
  deviceTrust : DeviceTrust := .ok
  storageDomain : Option DomainTrustState := none
  getDiskSeries : String → List DiskReading := fun _ => []
  computeTrends : Option (List DiskReading) → Trends := fun _ _ => none
  chain : ErrChain := {}
  ruleStats : RuleStats := fun _ => {}
  otherAxes : Axes := fun _ => none
  bayesTop : Option String := none
  cohort : Option Cohort := none

/-! ### The steps of `recompute_scores` -/

section Rounded

variable (fl : ℚ → ℚ)

/-- `disk_series`: the series of the disk that the pre-pass picks. -/
def CycleInputs.diskSeries (c : CycleInputs) : Except PyError (Option (List DiskReading)) :=
  (worstDiskKey fl c.historical).map (·.map c.getDiskSeries)

def CycleInputs.context (c : CycleInputs) (series : Option (List DiskReading)) : Context where
  heartbeat := c.heartbeat
  diskSeries := series.getD []
  chain := some c.chain
  trends := c.computeTrends series
  ruleStats := c.ruleStats

/-- The stored storage axis, with `coords` promoted out of the lineage. -/
def storageAxis (score : Score100) : Axis :=
  { scoreToDict score with
    coords := some (score.sourceLineage.coords.getD
      { damage := 0, resilienceLoss := 0, flags := [] }) }

def riskAxes (otherAxes : Axes) (storage : Score100) : Axes := fun name =>
  if name = .storageRisk then some (storageAxis storage) else otherAxes name

def healthInputs (c : CycleInputs) : Except PyError HealthInputs := do
  let series ← c.diskSeries fl
  let storage ← computeStorageRisk fl c.historical (c.context series) c.deviceTrust c.storageDomain
  return { axes := riskAxes c.otherAxes storage
           bayesTop := c.bayesTop
           trends := c.computeTrends series
           errchain := some c.chain
           cohort := c.cohort }

/-- The health part of `recompute_scores`: the verdict and the block that is stored. -/
def recomputeScores (c : CycleInputs) (prevHealth : Option PrevHealth) :
    Except PyError (HealthVerdict × PrevHealth) := do
  let x ← healthInputs fl c
  let verdict := computeHealth x prevHealth
  return (verdict, storedHealth x verdict)

end Rounded

end Srp.Pipeline
