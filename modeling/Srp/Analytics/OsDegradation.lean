/-
  Srp/Analytics/OsDegradation.lean
  ================================
  **The OS-degradation engine** (`server/analytics/os_degradation.py`).

  The stability index leads, crash counts confirm, the boot time is independent.
  The engine reads no storage field.
-/
import Srp.Scoring.Gate

namespace Srp.Analytics.OsDegradation

open Srp.Analytics.Storage (DeviceTrust DomainTrustState num)
open Srp.Lib.PyNum Srp.Scoring Srp.Shared

/-! ### Limits -/

def rsiCritical : ℚ := 2
def rsiSevere : ℚ := 35 / 10
def rsiHigh : ℚ := 5
def rsiWatch : ℚ := 7
def bsodSevere : Int := 3
def bsodOne : Int := 1
def dirtyMany : Int := 5
def dirtySome : Int := 2
def bootSlow : ℚ := 60000
def bootVerySlow : ℚ := 120000

def pendingRebootBlindSpot : String :=
  "статус ожидающей перезагрузки не собирается — машина, ожидающая перезагрузки " ++
  "для применения обновлений безопасности или driver-обновлений, находится в " ++
  "деградированном состоянии, которое здесь не обнаруживается"

def causeBlindSpot : String :=
  "счётчики сбоев не позволяют различить аппаратную неисправность, регрессию driver " ++
  "или повреждение OS — определение причины требует анализа каждого события"

/-! ### Contributions -/

def rsiContribution (rsi : ℚ) : Option Factor :=
  let shown := "RSI " ++ fmtFixed 1 rsi ++ "/10 — "
  if rsi < rsiCritical then some ⟨shown ++ "OS крайне нестабильна (критично)", 60⟩
  else if rsi < rsiSevere then some ⟨shown ++ "OS серьёзно деградировала", 40⟩
  else if rsi < rsiHigh then some ⟨shown ++ "OS заметно деградировала", 22⟩
  else if rsi < rsiWatch then some ⟨shown ++ "лёгкая нестабильность OS", 10⟩
  else none

def bugcheckContribution (bugchecks : ℚ) : Option Factor :=
  let count := trunc bugchecks
  if bsodSevere ≤ count then
    some ⟨toString count ++ " BSOD за 30 дней — серьёзная нестабильность системы", 30⟩
  else if bsodOne ≤ count then some ⟨toString count ++ " BSOD за 30 дней", 15⟩
  else none

def dirtyContribution (dirty : ℚ) : Option Factor :=
  let count := trunc dirty
  if dirtyMany ≤ count then
    some ⟨toString count ++ " аварийных выключений за 30 дней — частые внезапные перезагрузки", 12⟩
  else if dirtySome ≤ count then some ⟨toString count ++ " аварийных выключений за 30 дней", 6⟩
  else none

def bootContribution (avgBootMs : ℚ) : Option Factor :=
  let seconds := "средняя загрузка " ++ fmtFixed 0 (avgBootMs / 1000) ++ " с — "
  if bootVerySlow ≤ avgBootMs then
    some ⟨seconds ++ "очень медленно (деградация OS или отказывающий компонент)", 12⟩
  else if bootSlow ≤ avgBootMs then some ⟨seconds ++ "медленно", 5⟩
  else none

/-! ### The axis -/

structure OsLineage where
  identity : Option String := none
  osStabilityDomain : Option String := none
  rsi : Option ℚ := none
  bugchecks30d : Option Int := none
  dirtyShutdowns30d : Option Int := none
  avgBootMs : Option Int := none
  appCrashes30d : Option Int := none

def withheld (missing reason : String) (lineage : OsLineage) : Scored OsLineage :=
  { score :=
      { value := none, direction := .higherIsWorse, band := .unknown, confidence := .unknown,
        missingEvidence := [missing], reason := reason }
    lineage := lineage }

/-- `compute_os_degradation_risk`. -/
def computeOsDegradationRisk (historical : Option HistoricalPayload) (deviceTrust : DeviceTrust)
    (domainState : Option DomainTrustState) : Except PyError (Scored OsLineage) :=
  if deviceTrust = .untrusted then
    return withheld "идентификация не подтверждена"
      "идентификатор устройства не подтверждён (контракт §7)" { identity := some "untrusted" }
  else do
    let rsi := historical.bind (·.reliabilityStabilityIndex)
    let bugchecks ← num (historical.bind (·.bugchecks30d))
    let dirty ← num (historical.bind (·.dirtyShutdowns30d))
    let avgBoot ← num (historical.bind (·.avgBootMs))
    let appCrashes ← num (historical.bind (·.appCrashes30d))
    if rsi.isNone && bugchecks.isNone && dirty.isNone then
      return withheld "нет телеметрии RSI и счётчиков сбоев"
        "нет телеметрии стабильности OS (UNKNOWN — ложная уверенность недопустима)" {}
    else if domainState = some .unknown then
      return withheld "источник os_stability не прошёл проверку доверия"
        "источник стабильности ОС не прошёл гейт доверия — оценка скрыта"
        { osStabilityDomain := some "unknown" }
    else
      let factors := (rsi.bind rsiContribution).toList ++
        (bugchecks.bind bugcheckContribution).toList ++ (dirty.bind dirtyContribution).toList ++
        (avgBoot.bind bootContribution).toList
      let value := (factors.map (·.delta)).sum
      return {
        score :=
          { value := some (clamp value), direction := .higherIsWorse
            band := bandForRiskScore (some (clamp value))
            confidence := if rsi.isSome ∧ (bugchecks.isSome ∨ dirty.isSome) then .medium else .low
            factors := factors
            missingEvidence := [pendingRebootBlindSpot, causeBlindSpot] ++
              (if rsi.isNone then ["RSI недоступен — индекс стабильности OS не считывается"]
                else []) ++
              (if bugchecks.isNone then
                ["счётчик BSOD недоступен (требуется доступ к журналу событий)"] else []) ++
              if avgBoot.isNone then ["время загрузки не наблюдалось"] else []
            reason :=
              if value = 0 then
                match rsi with
                | some r =>
                  if rsiWatch ≤ r then
                    "RSI " ++ fmtFixed 1 r ++ "/10 — OS стабильна; сигналов сбоев не обнаружено"
                  else "сигналов деградации OS не обнаружено"
                | none => "сигналов деградации OS не обнаружено"
              else "" }
        lineage :=
          { rsi := rsi.map round1, bugchecks30d := bugchecks.map trunc,
            dirtyShutdowns30d := dirty.map trunc, avgBootMs := avgBoot.map trunc,
            appCrashes30d := appCrashes.map trunc } }

end Srp.Analytics.OsDegradation
