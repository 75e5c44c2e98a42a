/-
  Srp/Analytics/DiskFill.lean
  ===========================
  **The disk-fill engine** (`server/analytics/disk_fill.py`).

  The free space is graded by the median of the recent readings; failures of
  Windows Update, which come from the event log, confirm it.  The gate of the
  domain drops the readings only: the failures are another source.
-/
import Srp.Scoring.Gate

namespace Srp.Analytics.DiskFill

open Srp.Analytics.Storage (DeviceTrust DomainTrustState)
open Srp.Lib.PyNum Srp.Scoring Srp.Shared

/-! ### Limits -/

def freeCritical : ℚ := 3
def freeSevere : ℚ := 8
def freeHigh : ℚ := 15
def freeWatch : ℚ := 20
def servicingMinFailures : Nat := 3
def wuFailureIds : List Int := [20, 25, 31]
def wuProvider : String := "windowsupdateclient"
def minHighConfSamples : Nat := 3
def recencyUs : Int := 14 * 86400 * 1000000

def systemDriveBlindSpot : String :=
  "наблюдается только свободное место на системном диске (другие тома не измеряются)"

def servicingBlindSpot : String :=
  "состояние обслуживания Windows определяется только по событиям сбоев WindowsUpdateClient"

/-! ### Signals -/

/-- `_free_space_samples`, newest first; rows without a time only count when no row has one. -/
def freeSpaceSamples (series : List HeartbeatRow) : List ℚ :=
  let rows := series.filterMap fun row => row.freeSpacePct.map fun v => (row.whenUs, v)
  let dated := rows.filterMap fun p => p.1.map fun w => (w, p.2)
  match (dated.map (·.1)).max? with
  | some newest =>
    ((dated.insertionSort fun p q => q.1 ≤ p.1).filter fun p =>
      decide (newest - recencyUs ≤ p.1)).map (·.2)
  | none => rows.map (·.2)

/-- Provider and number together: a bare number belongs to no provider. -/
def isServicingFailure (ev : EventItem) : Bool :=
  match ev.source, ev.eventId with
  | some src, some id =>
    decide (wuProvider.toList <:+: src.toLower.toList) && decide (id ∈ wuFailureIds)
  | _, _ => false

def servicingFailures (events : List EventItem) : Nat := events.countP isServicingFailure

/-- `_free_space_risk`. -/
def freeSpaceRisk (typical : ℚ) : Option Factor :=
  let shown := "системный диск: " ++ fmtFixed 0 typical ++ "% свободно — "
  if typical < freeCritical then some ⟨shown ++ "критически заполнен", 75⟩
  else if typical < freeSevere then some ⟨shown ++ "критический уровень", 55⟩
  else if typical < freeHigh then some ⟨shown ++ "мало", 30⟩
  else if typical < freeWatch then some ⟨shown ++ "заполняется", 18⟩
  else none

def collapseFactor (count : Nat) (diskLow : Bool) : Factor :=
  if diskLow then
    ⟨"Windows Update: сбои (" ++ toString count ++ ") — мало места мешает обслуживанию", 20⟩
  else
    ⟨"Windows Update: многократные сбои (" ++ toString count ++ ") — машина не обновляется", 28⟩

/-- `_confidence`. -/
def confidence (samples : Nat) (diskLow collapse : Bool) : ScoreConfidence :=
  if samples = 0 then .medium
  else if collapse && !diskLow then .medium
  else if minHighConfSamples ≤ samples then .high
  else .medium

/-- The latest reading is low while the persistent level is not. -/
def dipNote (current typical : Option ℚ) : List String :=
  match current, typical with
  | some c, some t =>
    if c < freeWatch ∧ freeWatch ≤ t then
      ["последнее значение: " ++ fmtFixed 0 c ++
        "% свободно, нестабильно (возможная очистка/временное — см. тренд)"]
    else []
  | _, _ => []

/-! ### The axis -/

structure DiskFillLineage where
  identity : Option String := none
  diskFillDomain : Option String := none
  freeSpaceCurrent : Option ℚ := none
  freeSpaceTypical : Option ℚ := none
  nSamples : Option Nat := none
  servicingFailures : Option Nat := none
  diskLow : Option Bool := none

def withheld (missing reason : String) (lineage : DiskFillLineage) : Scored DiskFillLineage :=
  { score :=
      { value := none, direction := .higherIsWorse, band := .unknown, confidence := .unknown,
        missingEvidence := [missing], reason := reason }
    lineage := lineage }

/-- The verdict once the readings that may be used are known. -/
def verdict (samples : List ℚ) (count : Nat) (collapse gated : Bool) : Scored DiskFillLineage :=
  let current := samples.head?
  let typical := if samples = [] then none else some (median samples)
  let diskFactor := typical.bind freeSpaceRisk
  let diskLow := diskFactor.isSome
  let factors := diskFactor.toList ++ if collapse then [collapseFactor count diskLow] else []
  let value := clamp (factors.map (·.delta)).sum
  { score :=
      { value := some value, direction := .higherIsWorse, band := bandForRiskScore (some value),
        confidence := confidence samples.length diskLow collapse, factors := factors,
        missingEvidence := [systemDriveBlindSpot, servicingBlindSpot] ++
          (if gated then ["свободное место не прошло гейт доверия (значение не учтено)"]
            else if samples = [] then ["свободное место на системном диске не наблюдалось"]
            else []) ++ dipNote current typical
        reason := if 0 < value then ""
          else if samples ≠ [] ∧ !collapse then
            "системный диск: достаточно свободного места; сбоев Windows Update не обнаружено"
          else "" }
    lineage :=
      { diskFillDomain := if gated then some "unknown" else none
        freeSpaceCurrent := current
        freeSpaceTypical := typical.map round1
        nSamples := some samples.length
        servicingFailures := some count
        diskLow := some diskLow } }

/-- `compute_disk_fill_risk`. -/
def computeDiskFillRisk (heartbeatSeries : List HeartbeatRow) (events : List EventItem)
    (deviceTrust : DeviceTrust) (domainState : Option DomainTrustState) :
    Scored DiskFillLineage :=
  if deviceTrust = .untrusted then
    withheld "идентификация не подтверждена" "идентификатор устройства не подтверждён (контракт §7)"
      { identity := some "untrusted" }
  else
    let samples := freeSpaceSamples heartbeatSeries
    let count := servicingFailures events
    let collapse := decide (servicingMinFailures ≤ count)
    let gated := decide (domainState = some .unknown)
    if samples = [] ∧ !collapse then
      withheld "нет телеметрии свободного места на системном диске"
        "нет телеметрии свободного места (UNKNOWN — ложная уверенность недопустима)" {}
    else if gated then
      if !collapse then
        withheld "источник disk_fill не прошёл проверку доверия"
          "источник свободного места не прошёл гейт доверия — оценка скрыта"
          { diskFillDomain := some "unknown" }
      else verdict [] count collapse true
    else verdict samples count collapse false

/-- **The engine's own gate is tight.**  Behind a failed gate the axis has the same value and
    band whatever the heartbeats say. -/
theorem computeDiskFillRisk_gated (series series' : List HeartbeatRow) (events : List EventItem)
    (deviceTrust : DeviceTrust) :
    let axis := computeDiskFillRisk series events deviceTrust (some .unknown)
    let axis' := computeDiskFillRisk series' events deviceTrust (some .unknown)
    axis.score.value = axis'.score.value ∧ axis.score.band = axis'.score.band := by
  intro axis axis'
  cases deviceTrust with
  | untrusted => exact ⟨rfl, rfl⟩
  | ok =>
    by_cases hcollapse : servicingMinFailures ≤ servicingFailures events
    · simp [axis, axis', computeDiskFillRisk, hcollapse]
    · have hwithheld : ∀ s, (computeDiskFillRisk s events .ok (some .unknown)).score.value = none ∧
          (computeDiskFillRisk s events .ok (some .unknown)).score.band = .unknown := by
        intro s
        simp only [computeDiskFillRisk, hcollapse, reduceCtorEq, if_false, decide_false,
          Bool.not_false, decide_true, if_true, and_true]
        split <;> exact ⟨rfl, rfl⟩
      obtain ⟨hv, hb⟩ := hwithheld series
      obtain ⟨hv', hb'⟩ := hwithheld series'
      exact ⟨hv.trans hv'.symm, hb.trans hb'.symm⟩

end Srp.Analytics.DiskFill
