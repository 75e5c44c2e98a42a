/-
  Srp/Analytics/NetworkRisk.lean
  ==============================
  **The network engine** (`server/analytics/network_risk.py`): the newest
  snapshot of adapters and probes, graded by the quality to the gateway.

  When every probe lost everything, a firewall and an outage look alike, and the
  probes are not used.  The engine reads no storage field.
-/
import Mathlib.Data.List.MinMax
import Srp.Scoring.Gate

namespace Srp.Analytics.NetworkRisk

open Srp.Analytics.Storage (DeviceTrust DomainTrustState num)
open Srp.Lib.PyNum Srp.Scoring Srp.Shared

/-! ### Limits -/

def blindSpot : String :=
  "видимость только с этой машины: путь за пределами шлюза не наблюдается"

def gwLossFullPts : ℚ := 45
def gwLossHeavyPts : ℚ := 30
def gwLossLightPts : ℚ := 15
def gwLatHighPts : ℚ := 15
def gwLatWarnPts : ℚ := 8
def dnsPartialPts : ℚ := 8
def apipaPts : ℚ := 35
def wifiWeakPts : ℚ := 12
def wifiLowPts : ℚ := 6
def gwLossHeavyPct : ℚ := 20
def gwLossLightPct : ℚ := 5
def gwLatHighMs : ℚ := 100
def gwLatWarnMs : ℚ := 30

/-! ### Rules -/

/-- `_f(q.get("loss_pct")) or 0.0`. -/
def loss (q : NetQuality) : ℚ := q.lossPct.getD 0

/-- `_icmp_filtered`. -/
def icmpFiltered (rows : List NetQuality) : Bool :=
  !rows.isEmpty && rows.all fun q => decide (100 ≤ loss q) && q.latencyMs.isNone

/-- The first probe of greatest loss. -/
def worstProbe (rows : List NetQuality) : Option NetQuality := rows.argmax loss

/-- `f"{target}"`. -/
def shown (target : Option String) : String := target.getD "None"

def gatewayRule (q : NetQuality) (t : Tally) : Tally :=
  if 100 ≤ loss q then
    t.hit ("шлюз " ++ shown q.target ++ " не отвечает на ping (потери 100%)") gwLossFullPts
  else
    let label := "потери до шлюза " ++ shown q.target ++ ": " ++ fmtFixed 0 (loss q) ++ "%"
    let t :=
      if gwLossHeavyPct ≤ loss q then t.hit label gwLossHeavyPts
      else if gwLossLightPct ≤ loss q then t.hit label gwLossLightPts
      else t
    match q.latencyMs with
    | some lat =>
      if gwLatHighMs ≤ lat then
        t.hit ("высокая задержка до шлюза: " ++ fmtFixed 0 lat ++ " мс") gwLatHighPts
      else if gwLatWarnMs ≤ lat then
        t.hit ("повышенная задержка до шлюза: " ++ fmtFixed 0 lat ++ " мс") gwLatWarnPts
      else t
    | none => t

def dnsRule (dnsRows : List NetQuality) (t : Tally) : Tally :=
  match worstProbe (dnsRows.filter fun q => decide (5 ≤ loss q) && decide (loss q < 100)) with
  | some q =>
    t.hit ("потери до DNS " ++ shown q.target ++ ": " ++ fmtFixed 0 (loss q) ++ "%") dnsPartialPts
  | none => t

def isApipa (a : NetAdapter) : Bool :=
  a.up.getD false && a.ipv4.any fun ip => "169.254.".toList.isPrefixOf ip.toList

def apipaRule (t : Tally) (a : NetAdapter) : Tally :=
  if isApipa a then
    let name := if a.name.getD "" = "" then "?" else a.name.getD ""
    t.hit ("адаптер «" ++ name ++ "» без DHCP-адреса (APIPA 169.254.x) — сети фактически нет")
      apipaPts
  else t

def wifiRule (t : Tally) (a : NetAdapter) : Except PyError Tally := do
  let signal ← num a.signalPct
  match signal with
  | some sig =>
    if a.up.getD false && a.kind == some "wifi" then
      if sig < 30 then
        return t.hit ("слабый сигнал Wi-Fi: " ++ fmtFixed 0 sig ++ "%") wifiWeakPts
      else if sig < 50 then
        return t.hit ("невысокий сигнал Wi-Fi: " ++ fmtFixed 0 sig ++ "%") wifiLowPts
      else return t
    else return t
  | none => return t

/-! ### The axis -/

structure NetworkLineage where
  identity : Option String := none
  networkDomain : Option String := none
  adaptersTotal : Option Nat := none
  adaptersUp : Option Nat := none
  qualityTargets : Option Nat := none
  gatewayMeasured : Option Bool := none
  icmpBlocked : Option Bool := none
  dnsFullLossIgnored : Option Nat := none

def withheld (missing : String) (lineage : NetworkLineage) (reason : String) :
    Scored NetworkLineage :=
  { score :=
      { value := none, direction := .higherIsWorse, band := .unknown, confidence := .unknown,
        missingEvidence := [missing], reason := reason }
    lineage := lineage }

/-- `compute_network_risk`. -/
def computeNetworkRisk (historical : Option HistoricalPayload) (deviceTrust : DeviceTrust)
    (domainState : Option DomainTrustState) : Except PyError (Scored NetworkLineage) :=
  let adapters := (historical.map (·.networkAdapters)).getD []
  let quality := (historical.map (·.networkQuality)).getD []
  if deviceTrust = .untrusted then
    return withheld "идентификация не подтверждена" { identity := some "untrusted" }
      "идентификатор устройства не подтверждён (контракт §7)"
  else if adapters.isEmpty && quality.isEmpty then
    return withheld "нет сетевой телеметрии" {}
      "агент не передал сетевые данные (UNKNOWN — ложная уверенность недопустима)"
  else if domainState = some .unknown then
    return withheld "источник network не прошёл проверку доверия"
      { networkDomain := some "unknown" } "сетевой источник не прошёл гейт доверия — оценка скрыта"
  else do
    let icmpBlocked := icmpFiltered quality
    let usable := if icmpBlocked then [] else quality
    let gwRows := usable.filter (·.targetKind = some "gateway")
    let dnsRows := usable.filter (·.targetKind = some "dns")
    -- only a gateway probe with a loss figure is a measurement
    let measured := (worstProbe gwRows).filter (·.lossPct.isSome)
    let t : Tally := { val := 0 }
    let t := match measured with
      | some q => gatewayRule q t
      | none => t
    let t := adapters.foldl apipaRule (dnsRule dnsRows t)
    let t ← adapters.foldlM wifiRule t
    let value := clamp t.val
    return {
      score :=
        { value := some value, direction := .higherIsWorse
          band := bandForRiskScore (some value)
          confidence := if measured.isSome then .medium else .low
          factors := t.factors
          missingEvidence := [blindSpot] ++
            (if icmpBlocked then
              ["все пробы без ответа: либо ICMP блокируется фаерволом, либо связи нет — " ++
                "отличить с одной машины нельзя"] else []) ++
            if measured.isNone && !icmpBlocked then
              ["нет измерений качества связи до шлюза"] else []
          reason :=
            if value = 0 then
              if measured.isSome then "связь со шлюзом в норме"
              else "тревожных сигналов нет, но качество связи не измерено"
            else "" }
      lineage :=
        { adaptersTotal := some adapters.length
          adaptersUp := some (adapters.countP (·.up.getD false))
          qualityTargets := some quality.length
          gatewayMeasured := some measured.isSome
          icmpBlocked := some icmpBlocked
          dnsFullLossIgnored := some (dnsRows.countP fun q => decide (100 ≤ loss q)) } }

end Srp.Analytics.NetworkRisk
