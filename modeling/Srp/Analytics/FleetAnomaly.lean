/-
  Srp/Analytics/FleetAnomaly.lean
  ===============================
  **The fleet engine** (`server/analytics/fleet_anomaly.py`).

  It reads the aggregates of the model cohort and of the site, and no row of the
  device itself.
-/
import Srp.Analytics.Health
import Srp.Scoring.Gate

namespace Srp.Analytics.FleetAnomaly

open Srp.Analytics.Health (Cohort)
open Srp.Analytics.Storage (DeviceTrust)
open Srp.Lib.PyNum Srp.Scoring

/-! ### Limits -/

def bsodHigh : ℚ := 40 / 100
def bsodMod : ℚ := 25 / 100
def bsodLow : ℚ := 10 / 100
def rsiHigh : ℚ := 40 / 100
def rsiMod : ℚ := 25 / 100
def kp41High : ℚ := 50 / 100
def kp41Mod : ℚ := 30 / 100
def minSiteForCluster : Nat := 3
def minCohort : Nat := 2
def cohortMedium : Nat := 5

def blindSpotBuild : String :=
  "os_build не используется как ключ когорты — когорта только по модели; устройства с разными " ++
  "сборками OS, но одной моделью группируются вместе (может расширять или размывать паттерны)"

def blindSpotCause : String :=
  "флотовый паттерн основан на корреляции — корреляция показателей сбоев/RSI в когорте модели " ++
  "не доказывает общую первопричину; требуется ручной анализ логов patch/driver"

/-- `get_fleet_cohort_stats`. -/
structure CohortStats where
  cohortSize : Nat := 0
  cohortBsodPct : ℚ := 0
  cohortKp41Pct : ℚ := 0
  cohortRsiLowPct : ℚ := 0
  bootP90Ms : Option ℚ := none
  siteSize : Nat := 0
  siteKp41Pct : ℚ := 0
deriving DecidableEq, Repr

/-- The two fields that the verdict reads. -/
def CohortStats.toCohort (c : CohortStats) : Cohort :=
  { cohortSize := some c.cohortSize, bootP90Ms := c.bootP90Ms }

/-! ### Contributions -/

def siteKp41Contribution (pct : ℚ) (size : Nat) : Option Factor :=
  let shown := fmtPercent pct ++ " устройств площадки имеют повышенный KP41 (" ++ toString size ++
    " устр.) — "
  if size < minSiteForCluster then none
  else if kp41High ≤ pct then
    some ⟨shown ++ "кластер питания площадки, не индивидуальные сбои ПК", 40⟩
  else if kp41Mod ≤ pct then some ⟨shown ++ "возможное событие электропитания здания", 20⟩
  else none

def cohortBsodContribution (pct : ℚ) (size : Nat) : Option Factor :=
  let shown := fmtPercent pct ++ " устройств когорты модели (" ++ toString size ++
    ") имеют BSOD — "
  if bsodHigh ≤ pct then
    some ⟨shown ++ "вероятно плохой driver или обновление OS, не одновременные аппаратные сбои", 35⟩
  else if bsodMod ≤ pct then
    some ⟨shown ++ "повышенный уровень сбоев флота (возможная проблема patch/driver)", 20⟩
  else if bsodLow ≤ pct then some ⟨shown ++ "незначительное повышение (наблюдение)", 8⟩
  else none

def cohortRsiContribution (pct : ℚ) (size : Nat) : Option Factor :=
  let shown := fmtPercent pct ++ " устройств когорты (" ++ toString size ++ ") имеют "
  if rsiHigh ≤ pct then some ⟨shown ++ "RSI < 5.0 — паттерн деградации OS по всему флоту", 20⟩
  else if rsiMod ≤ pct then some ⟨shown ++ "низкий RSI — повышенная нестабильность когорты", 10⟩
  else none

/-! ### The axis -/

structure FleetLineage where
  identity : Option String := none
  cohortSize : Option Nat := none
  cohortBsodPct : Option ℚ := none
  cohortKp41Pct : Option ℚ := none
  cohortRsiLowPct : Option ℚ := none
  siteSize : Option Nat := none
  siteKp41Pct : Option ℚ := none

def withheld (missing : List String) (reason : String) (lineage : FleetLineage) :
    Scored FleetLineage :=
  { score :=
      { value := none, direction := .higherIsWorse, band := .unknown, confidence := .unknown,
        missingEvidence := missing, reason := reason }
    lineage := lineage }

/-- `round(q, 3)`. -/
def round3 (q : ℚ) : ℚ := roundHalfEven (q * 1000) / 1000

/-- `compute_fleet_anomaly_risk`. -/
def computeFleetAnomalyRisk (stats : CohortStats) (deviceTrust : DeviceTrust) :
    Scored FleetLineage :=
  let size := stats.cohortSize
  if deviceTrust = .untrusted then
    withheld ["идентификация не подтверждена"]
      "идентификатор устройства не подтверждён (контракт §7)" { identity := some "untrusted" }
  else if size < minCohort then
    let lineage : FleetLineage := { cohortSize := some size }
    if size = 0 then
      withheld ["модель отсутствует в таблице устройств — ключ когорты недоступен", blindSpotBuild]
        "модель неизвестна или нет исторических данных — когорта не может быть сформирована" lineage
    else
      withheld ["размер когорты " ++ toString size ++ " — нужно ≥" ++ toString minCohort ++
          " для сравнения по флоту", blindSpotBuild]
        ("только " ++ toString size ++ " устройство с этой моделью — нужно ≥" ++
          toString minCohort ++ " для сравнения") lineage
  else
    let factors := (siteKp41Contribution stats.siteKp41Pct stats.siteSize).toList ++
      (cohortBsodContribution stats.cohortBsodPct size).toList ++
      (cohortRsiContribution stats.cohortRsiLowPct size).toList
    let value := (factors.map (·.delta)).sum
    { score :=
        { value := some (clamp value), direction := .higherIsWorse
          band := bandForRiskScore (some (clamp value))
          confidence := if cohortMedium ≤ size then .medium else .low
          factors := factors
          missingEvidence := [blindSpotBuild, blindSpotCause]
          reason := if value = 0 then
            "флотовые паттерны не обнаружены — когорта из " ++ toString size ++
            " устройств показывает нормальный уровень сбоев и стабильную OS; KP41 площадки ниже порога"
            else "флотовые паттерны обнаружены — см. факторы выше" }
      lineage :=
        { cohortSize := some size
          cohortBsodPct := some (round3 stats.cohortBsodPct)
          cohortKp41Pct := some (round3 stats.cohortKp41Pct)
          cohortRsiLowPct := some (round3 stats.cohortRsiLowPct)
          siteSize := some stats.siteSize
          siteKp41Pct := some (round3 stats.siteKp41Pct) } }

end Srp.Analytics.FleetAnomaly
