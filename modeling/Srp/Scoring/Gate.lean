/-
  Srp/Scoring/Gate.lean
  =====================
  **The gate of the day-1 axes** (`server/scoring/score100.py`).

  A day-1 number becomes an axis through `gateAxis`: the first rule that applies
  decides whether the value is withheld or with how much confidence it is shown.
  The number and its factors are carried along; the gate never computes with them.
-/
import Srp.Scoring.Scores
import Srp.Trust.Domains

namespace Srp.Scoring

open Srp.Analytics.Storage (DeviceTrust DomainTrustState)
open Srp.Lib.PyNum Srp.Shared Srp.Trust

/-! ### Shapes -/

/-- A `Score100` with the lineage of its own engine. -/
structure Scored (Lineage : Type) where
  score : Score100
  lineage : Lineage

/-- Higher is better: good ≥ 70, watch ≥ 40, else bad; a missing value has no band. -/
def bandForHealthScore : Option ℚ → ScoreBand
  | none => .unknown
  | some v => if 70 ≤ v then .good else if 40 ≤ v then .watch else .bad

structure DomainLineage where
  identity : Option String := none
  domains : List (DomainName × DomainTrustState) := []

/-- The fixed arguments of `_gate_axis`. -/
structure AxisRule where
  direction : Direction
  isRisk : Bool
  presenceMissing : List String
  required : List DomainName
  optional : List DomainName

def riskLowConfOptionalUnknown : Nat := 2

def untrustedReason : String := "идентичность устройства не подтверждена (контракт §7)"

def AxisRule.withheld (rule : AxisRule) (factors : List Factor) (missing : List String)
    (lineage : DomainLineage) (reason : String) : Scored DomainLineage :=
  { score :=
      { value := none, direction := rule.direction, band := .unknown, confidence := .unknown,
        factors := factors, missingEvidence := missing, reason := reason }
    lineage := lineage }

def AxisRule.shown (rule : AxisRule) (t : Tally) (confidence : ScoreConfidence)
    (missing : List String) (lineage : DomainLineage) (reason : String) : Scored DomainLineage :=
  { score :=
      { value := some t.val, direction := rule.direction,
        band := if rule.isRisk then bandForRiskScore (some t.val)
          else bandForHealthScore (some t.val)
        confidence := confidence, factors := t.factors, missingEvidence := missing,
        reason := reason }
    lineage := lineage }

/-! ### `_gate_axis` -/

/-- The last rule: trust was evaluated. -/
def AxisRule.byDomains (rule : AxisRule) (t : Tally) (trust : Trust) : Scored DomainLineage :=
  let stateOf := fun n => trust.domains n
  let lineage : DomainLineage :=
    { domains := (rule.required ++ rule.optional).filterMap fun n =>
        (stateOf n).map fun s => (n, s) }
  let requiredUnknown := rule.required.filter fun n => stateOf n = some .unknown
  let optionalUnknown := rule.optional.filter fun n => stateOf n = some .unknown
  let requiredNa := rule.required.filter fun n => stateOf n = some .notApplicable
  let missing := (requiredUnknown ++ optionalUnknown).map (fun n => n.key ++ " недоступен") ++
    requiredNa.map fun n => n.key ++ ": датчик отсутствует на этом оборудовании"
  if requiredUnknown ≠ [] ∨ requiredNa ≠ [] then
    if rule.isRisk then
      rule.shown t .low missing lineage "обязательный домен не виден; риск может быть занижен"
    else rule.withheld t.factors missing lineage "обязательный домен неизвестен"
  else
    let confidence : ScoreConfidence :=
      if rule.isRisk ∧ riskLowConfOptionalUnknown ≤ optionalUnknown.length then .low
      else if optionalUnknown ≠ [] then .medium
      else .high
    rule.shown t confidence missing lineage ""

def AxisRule.gateAxis (rule : AxisRule) (t : Tally) (deviceTrust : DeviceTrust)
    (trust : Option Trust) (presenceOk : Bool) : Scored DomainLineage :=
  if deviceTrust = .untrusted then
    rule.withheld t.factors ["идентичность устройства не подтверждена"]
      { identity := some "untrusted" } untrustedReason
  else if !presenceOk then
    rule.withheld t.factors rule.presenceMissing {} "нет телеметрии для этого показателя"
  else match trust with
    | none => rule.shown t .low ["source_health отсутствует"] {} "агент не передал source_health"
    | some trust => rule.byDomains t trust

/-! ### The four axes -/

def performanceRule : AxisRule where
  direction := .higherIsBetter
  isRisk := false
  presenceMissing := ["heartbeat/historical (текущие показатели) отсутствует"]
  required := []
  optional := [.thermal, .boot]

def reliabilityRule : AxisRule where
  direction := .higherIsBetter
  isRisk := false
  presenceMissing := ["historical (история стабильности) отсутствует"]
  required := [.osStability]
  optional := []

def wearRule : AxisRule where
  direction := .higherIsBetter
  isRisk := false
  presenceMissing := ["historical/inventory (данные об износе) отсутствует"]
  required := [.storage]
  optional := []

def riskExposureRule : AxisRule where
  direction := .higherIsWorse
  isRisk := true
  presenceMissing := ["historical/heartbeat/inventory (данные о риске) отсутствует"]
  required := []
  optional := [.diskFill, .storage, .osStability, .thermal]

/-! ### Observability -/

/-- The value without the penalties, and what lowers it. -/
structure Coverage where
  value : ℚ
  factors : List Factor
  missing : List String

def Coverage.penalty (c : Coverage) (label : String) (amount : ℚ) (missing : List String) :
    Coverage :=
  { value := c.value - amount, factors := c.factors ++ [⟨label, -amount⟩],
    missing := c.missing ++ missing }

/-- `compute_observability_score`. -/
def computeObservabilityScore (trust : Option Trust) (deviceTrust : DeviceTrust)
    (clockDrift : Bool) : Scored DomainLineage :=
  match trust with
  | none =>
    { score :=
        { value := some 20, direction := .higherIsBetter, band := bandForHealthScore (some 20),
          confidence := .low, factors := [⟨"агент не передаёт данные source_health", -80⟩],
          missingEvidence := ["source_health отсутствует"],
          reason := "нет source_health -> покрытие нельзя оценить" }
      lineage := {} }
  | some trust =>
    let states := DomainName.all.filterMap fun n => (trust.domains n).map fun s => (n, s)
    let applicable := states.filter fun p => p.2 ≠ .notApplicable
    if applicable = [] then
      { score :=
          { value := none, direction := .higherIsBetter, band := .unknown, confidence := .unknown,
            missingEvidence := ["нет применимых доменов для оценки покрытия"],
            reason := "нет применимых доменов" }
        lineage := {} }
    else
      let unknown := (applicable.filter fun p => p.2 = .unknown).map (·.1)
      let trusted := applicable.length - unknown.length
      let value : ℚ := trusted / applicable.length * 100
      let coverage : Coverage :=
        { value := value
          factors := [⟨"покрытие доменов " ++ toString trusted ++ "/" ++
            toString applicable.length, round1 value⟩]
          missing := unknown.map fun n => n.key ++ " неизвестен" }
      let regressed := (((trust.sources.filter (·.2.regressed)).map (·.1)).mergeSort
        fun a b => decide (a ≤ b))
      let coverage := if regressed = [] then coverage else
        coverage.penalty ("деградировавших источников: " ++ toString regressed.length)
          (min (regressed.length * 10) 30) (regressed.map (· ++ " деградировал"))
      let coverage := if clockDrift then coverage.penalty "рассинхронизация часов" 10 []
        else coverage
      let untrusted := deviceTrust = .untrusted
      let value := clamp (if untrusted then min coverage.value 10 else coverage.value)
      { score :=
          { value := some (round1 value), direction := .higherIsBetter,
            band := bandForHealthScore (some value),
            confidence := if untrusted then .low else if unknown ≠ [] then .medium else .high,
            factors := coverage.factors,
            missingEvidence := coverage.missing ++
              if untrusted then ["идентичность устройства не подтверждена"] else [],
            reason := if untrusted then
              "идентичность не подтверждена -> качество телеметрии не гарантировано" else "" }
        lineage := { domains := states } }

/-! ### The day-1 map -/

structure Day1Score100 where
  performance : Scored DomainLineage
  reliability : Scored DomainLineage
  wear : Scored DomainLineage
  riskExposure : Scored DomainLineage
  observability : Scored DomainLineage

/-- `compute_day1_score100`.  Of the three payloads only their presence is read. -/
def computeDay1Score100 (day1 : Day1Scores) (inventory : Option InventoryPayload)
    (historical : Option HistoricalPayload) (heartbeat : Option HeartbeatPayload)
    (trust : Option Trust) (deviceTrust : DeviceTrust) (clockDrift : Bool) : Day1Score100 where
  performance := performanceRule.gateAxis day1.performance deviceTrust trust
    (heartbeat.isSome || historical.isSome)
  reliability := reliabilityRule.gateAxis day1.reliability deviceTrust trust historical.isSome
  wear := wearRule.gateAxis day1.wear deviceTrust trust (historical.isSome || inventory.isSome)
  riskExposure := riskExposureRule.gateAxis day1.riskExposure deviceTrust trust
    (historical.isSome || heartbeat.isSome || inventory.isSome)
  observability := computeObservabilityScore trust deviceTrust clockDrift

end Srp.Scoring
