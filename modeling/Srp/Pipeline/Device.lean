/-
  Srp/Pipeline/Device.lean
  ========================
  **A whole recompute of a device** (`recompute_scores`), from its stored rows to
  the day-1 scores, the trajectory and the verdict.

  The steps stand in the order of the source: the day-1 scores over blanked
  inputs, the trends with the series of the disk that the pre-pass picks, the
  domain engines, and the verdict over their axes.

  The error chain and the cohort aggregates are rows of other tables and enter as
  data.  `bayesTop` is the name of the top class of the Bayesian prioritizer, a
  function of the newest rows; the verdict shows it as context only.
-/
import Srp.Analytics.DiskFill
import Srp.Analytics.FleetAnomaly
import Srp.Analytics.NetworkRisk
import Srp.Analytics.OsDegradation
import Srp.Analytics.SoftwareAging
import Srp.Pipeline.Recompute

namespace Srp.Pipeline

open Srp.Analytics Srp.Analytics.DiskFill Srp.Analytics.FleetAnomaly Srp.Analytics.Health
  Srp.Analytics.NetworkRisk Srp.Analytics.OsDegradation Srp.Analytics.SoftwareAging
  Srp.Analytics.Trends
open Srp.Analytics.Storage (DeviceTrust DomainTrustState)
open Srp.Lib.PyJson (FloatText Json)
open Srp.Lib.PyNum Srp.Scoring Srp.Shared Srp.Trust

def trendHistoryLimit : Nat := 200
def clockDriftFlagSec : ℚ := 300

/-! ### The rows of a device -/

/-- What the database holds about one device.  Every series is newest first. -/
structure DeviceRows where
  inventory : Option InventoryPayload := none
  historical : List HistoricalRow := []
  heartbeats : List HeartbeatRow := []
  diskReadings : String → List DiskReading := fun _ => []
  trust : Option Trust := none
  events : List EventItem := []
  chain : ErrChain := {}
  ruleStats : RuleStats := fun _ => {}
  cohort : CohortStats := {}
  prevHealth : Option PrevHealth := none
  bayesTop : Option HistoricalPayload → Option HeartbeatPayload → Option String := fun _ _ => none
  now : Int := 0

namespace DeviceRows

/-- `get_historical`: the payload of the newest row. -/
def hist (d : DeviceRows) : Option HistoricalPayload := d.historical.head?.map (·.toHistoricalPayload)

def hb (d : DeviceRows) : Option HeartbeatPayload := d.heartbeats.head?.map (·.toHeartbeatPayload)

def histSeries (d : DeviceRows) : List HistoricalRow := d.historical.take trendHistoryLimit

def hbSeries (d : DeviceRows) : List HeartbeatRow := d.heartbeats.take trendHistoryLimit

def getDiskSeries (d : DeviceRows) (key : String) : List DiskReading :=
  (d.diskReadings key).take trendHistoryLimit

def deviceTrust (d : DeviceRows) : DeviceTrust := (d.trust.map Trust.deviceTrust).getD .ok

def domainState (d : DeviceRows) (name : DomainName) : Option DomainTrustState :=
  d.trust.bind (·.domains name)

def clockDrift (d : DeviceRows) : Bool :=
  d.heartbeats.head?.any fun row => decide (clockDriftFlagSec < |row.clockDriftSec.getD 0|)

/-! ### The day-1 scores -/

/-- `_blank_untrusted_inputs`, the heartbeat. -/
def day1Hb (d : DeviceRows) : HeartbeatPayload :=
  let hb := d.hb.getD {}
  if gateFailed (d.domainState .diskFill) then { hb with freeSpacePct := none } else hb

/-- `_blank_untrusted_inputs`, the history. -/
def day1Hist (d : DeviceRows) : HistoricalPayload :=
  let hist := d.hist.getD {}
  if gateFailed (d.domainState .storage) then { hist with storage := [] } else hist

def day1 (d : DeviceRows) : Except PyError Day1Scores :=
  computeDay1Scores d.inventory (some d.day1Hist) (some d.day1Hb) d.now

def score100 (d : DeviceRows) (day1 : Day1Scores) : Day1Score100 :=
  computeDay1Score100 day1 d.inventory d.hist d.hb d.trust d.deviceTrust d.clockDrift

/-! ### Trends and domain engines -/

def diskSeries (fl : ℚ → ℚ) (d : DeviceRows) : Except PyError (Option (List DiskReading)) :=
  (Storage.worstDiskKey fl d.hist).map (·.map d.getDiskSeries)

def trends (d : DeviceRows) (series : Option (List DiskReading)) : Except PyError Trends :=
  computeTrends d.histSeries d.hbSeries series d.now

section Engines

variable (fl : ℚ → ℚ) (floatText : ℚ → FloatText) (toFloat : ToFloat)

/-- The row as `json.loads` returns it, with the fields that the aging engine reads. -/
def agingRow (row : HeartbeatRow) : SoftwareAging.Row :=
  [("uptime_hours", row.uptimeHours.map fun q => Json.float (floatText q)),
   ("handle_count_total", row.handleCountTotal.map Json.int),
   ("mem_avail_mb", row.memAvailMb.map fun q => Json.float (floatText q)),
   ("pagefile_pct", row.pagefilePct.map fun q => Json.float (floatText q))].filterMap
    fun p => p.2.map fun v => (p.1.toList, v)

def aging (d : DeviceRows) : AgingRisk :=
  computeSoftwareAgingRisk toFloat (d.hbSeries.map (agingRow floatText)) d.deviceTrust

/-- The aging axis, with `coords` promoted out of the lineage. -/
def agingAxis (risk : AgingRisk) : Axis :=
  { scoreToDict risk.score with
    coords := some { damage := 0, resilienceLoss := 0, flags := risk.lineage.flags } }

/-- The axes of the risk block without the storage axis. -/
def otherAxes (d : DeviceRows) (score100 : Day1Score100) (trends : Trends)
    (os : Scored OsLineage) (network : Scored NetworkLineage) : Axes
  | .performance => some (scoreToDict score100.performance.score)
  | .reliability => some (scoreToDict score100.reliability.score)
  | .wear => some (scoreToDict score100.wear.score)
  | .riskExposure => some (scoreToDict score100.riskExposure.score)
  | .observability => some (scoreToDict score100.observability.score)
  | .trajectoryRisk => some (scoreToDict (trajectoryRiskScore trends d.deviceTrust).score)
  | .storageRisk => none
  | .diskFillRisk => some (scoreToDict (computeDiskFillRisk d.hbSeries
      (d.events.take trendHistoryLimit) d.deviceTrust (d.domainState .diskFill)).score)
  | .osDegradationRisk => some (scoreToDict os.score)
  | .fleetAnomalyRisk =>
    some (scoreToDict (computeFleetAnomalyRisk d.cohort d.deviceTrust).score)
  | .networkRisk => some (scoreToDict network.score)
  | .softwareAgingRisk => some (agingAxis (d.aging floatText toFloat))

/-- The inputs of the storage engine and of the verdict. -/
def cycle (d : DeviceRows) (score100 : Day1Score100) (trends : Trends) (os : Scored OsLineage)
    (network : Scored NetworkLineage) : CycleInputs where
  historical := d.hist
  heartbeat := d.hb
  deviceTrust := d.deviceTrust
  storageDomain := d.domainState .storage
  getDiskSeries := d.getDiskSeries
  computeTrends := fun _ => trends
  chain := d.chain
  ruleStats := d.ruleStats
  otherAxes := d.otherAxes floatText toFloat score100 trends os network
  bayesTop := d.bayesTop d.hist d.hb
  cohort := some d.cohort.toCohort

/-! ### `recompute_scores` -/

/-- The stored row: the legacy columns, and the parts of the risk block that the verdict is
    made of. -/
structure Scores where
  performance : Option ℚ
  reliability : Option ℚ
  wear : Option ℚ
  riskExposure : Option ℚ
  trajectory : TrajectoryRisk
  trends : Trends
  health : HealthVerdict
  stored : PrevHealth

/-- `None` when the device has no row at all. -/
def recomputeScores (d : DeviceRows) : Except PyError (Option Scores) :=
  if d.inventory.isNone && d.historical.isEmpty && d.heartbeats.isEmpty then return none
  else do
    let day1 ← d.day1
    let score100 := d.score100 day1
    let series ← d.diskSeries fl
    let trends ← d.trends series
    let os ← computeOsDegradationRisk d.hist d.deviceTrust (d.domainState .osStability)
    let network ← computeNetworkRisk d.hist d.deviceTrust (d.domainState .network)
    let (health, stored) ← Pipeline.recomputeScores fl
      (d.cycle floatText toFloat score100 trends os network) d.prevHealth
    return some
      { performance := score100.performance.score.value
        reliability := score100.reliability.score.value
        wear := score100.wear.score.value
        riskExposure := score100.riskExposure.score.value
        trajectory := trajectoryRiskScore trends d.deviceTrust
        trends := trends
        health := health
        stored := stored }

/-! ### The parts of a recompute -/

/-- The intermediate results of one recompute. -/
structure Parts where
  day1 : Day1Scores
  series : Option (List DiskReading)
  trends : Trends
  os : Scored OsLineage
  network : Scored NetworkLineage
  storage : Score100

def context (d : DeviceRows) (p : Parts) : Storage.Context where
  heartbeat := d.hb
  diskSeries := p.series.getD []
  chain := some d.chain
  trends := p.trends
  ruleStats := d.ruleStats

structure Computes (d : DeviceRows) (p : Parts) : Prop where
  day1 : d.day1 = .ok p.day1
  series : d.diskSeries fl = .ok p.series
  trends : d.trends p.series = .ok p.trends
  os : computeOsDegradationRisk d.hist d.deviceTrust (d.domainState .osStability) = .ok p.os
  network : computeNetworkRisk d.hist d.deviceTrust (d.domainState .network) = .ok p.network
  storage : Storage.computeStorageRisk fl d.hist (d.context p) d.deviceTrust
    (d.domainState .storage) = .ok p.storage

def verdictInputs (d : DeviceRows) (p : Parts) : HealthInputs where
  axes := riskAxes
    (d.otherAxes floatText toFloat (d.score100 p.day1) p.trends p.os p.network) p.storage
  bayesTop := d.bayesTop d.hist d.hb
  trends := p.trends
  errchain := some d.chain
  cohort := some d.cohort.toCohort

def scoresOf (d : DeviceRows) (p : Parts) : Scores where
  performance := (d.score100 p.day1).performance.score.value
  reliability := (d.score100 p.day1).reliability.score.value
  wear := (d.score100 p.day1).wear.score.value
  riskExposure := (d.score100 p.day1).riskExposure.score.value
  trajectory := trajectoryRiskScore p.trends d.deviceTrust
  trends := p.trends
  health := computeHealth (d.verdictInputs floatText toFloat p) d.prevHealth
  stored := storedHealth (d.verdictInputs floatText toFloat p)
    (computeHealth (d.verdictInputs floatText toFloat p) d.prevHealth)

/-- The device has a row of some kind. -/
def hasRows (d : DeviceRows) : Bool :=
  d.inventory.isSome || !d.historical.isEmpty || !d.heartbeats.isEmpty

variable {fl floatText toFloat}

/-- A recompute stores a row exactly when all of its parts are computed. -/
theorem recomputeScores_ok_iff {d : DeviceRows} (hrows : d.hasRows = true)
    {r : Option Scores} :
    d.recomputeScores fl floatText toFloat = .ok r ↔
      ∃ p, d.Computes fl p ∧ r = some (d.scoresOf floatText toFloat p) := by
  have hcond : (d.inventory.isNone && d.historical.isEmpty && d.heartbeats.isEmpty) = false := by
    rw [Bool.eq_false_iff]
    intro h
    simp only [Bool.and_eq_true, Option.isNone_iff_eq_none] at h
    obtain ⟨⟨hinv, hhist⟩, hhb⟩ := h
    simp [hasRows, hinv, hhist, hhb] at hrows
  unfold recomputeScores
  rw [if_neg (by simp [hcond])]
  constructor
  · intro h
    obtain ⟨day1, hday1, h⟩ := bind_eq_ok.mp h
    obtain ⟨series, hseries, h⟩ := bind_eq_ok.mp h
    obtain ⟨trends, htrends, h⟩ := bind_eq_ok.mp h
    obtain ⟨os, hos, h⟩ := bind_eq_ok.mp h
    obtain ⟨network, hnetwork, h⟩ := bind_eq_ok.mp h
    obtain ⟨⟨health, stored⟩, hhealth, h⟩ := bind_eq_ok.mp h
    obtain ⟨x, hx, hhealth⟩ := bind_eq_ok.mp hhealth
    obtain ⟨series', hseries', hx⟩ := bind_eq_ok.mp hx
    obtain rfl : series = series' := Except.ok.inj (hseries.symm.trans hseries')
    obtain ⟨storage, hstorage, hx⟩ := bind_eq_ok.mp hx
    obtain rfl := Except.ok.inj hx
    obtain ⟨rfl, rfl⟩ := Prod.mk.inj (Except.ok.inj hhealth)
    refine ⟨⟨day1, series, trends, os, network, storage⟩,
      ⟨hday1, hseries, htrends, hos, hnetwork, hstorage⟩, ?_⟩
    exact (Except.ok.inj h).symm
  · rintro ⟨p, hp, rfl⟩
    rw [hp.day1, ok_bind, hp.series, ok_bind, hp.trends, ok_bind, hp.os, ok_bind, hp.network,
      ok_bind]
    have hinputs : healthInputs fl (d.cycle floatText toFloat (d.score100 p.day1) p.trends p.os
        p.network) = .ok (d.verdictInputs floatText toFloat p) := by
      apply bind_eq_ok.mpr
      refine ⟨p.series, hp.series, ?_⟩
      apply bind_eq_ok.mpr
      exact ⟨p.storage, hp.storage, rfl⟩
    have hhealth : Pipeline.recomputeScores fl (d.cycle floatText toFloat (d.score100 p.day1)
        p.trends p.os p.network) d.prevHealth = .ok (computeHealth
          (d.verdictInputs floatText toFloat p) d.prevHealth,
          (d.scoresOf floatText toFloat p).stored) :=
      bind_eq_ok.mpr ⟨_, hinputs, rfl⟩
    rw [hhealth]
    rfl

end Engines

end DeviceRows

end Srp.Pipeline
