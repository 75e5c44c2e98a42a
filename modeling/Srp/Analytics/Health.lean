/-
  Srp/Analytics/Health.lean
  =========================
  **The health verdict** (`server/analytics/health.py`).

  `computeHealth` assembles the three coordinates (Damage, Resilience,
  Observability) from already-serialised signals and derives the rest in the
  fixed order

      O -> D -> R -> state -> ratchet -> systemic floor -> index -> band -> ...

  The previous verdict enters only through the ratchet, and only through three
  stored fields (`PrevHealth`): the state, the last state that was not
  `unknown`, and the worst disk.
-/
import Mathlib.Data.List.Dedup
import Srp.Analytics.Signals

namespace Srp.Analytics.Health

open Srp.Lib.PyNum Srp.Scoring

/-! ### Constants -/

def maturePoints : Nat := 6
def cohortMin : Nat := 5
def spareSurcharge : ℚ := 25
def tailSurcharge : ℚ := 20
def flatSlope : ℚ := 1 / 100
def trajMult : ℚ := 85 / 100
def osMult : ℚ := 6 / 10
def materialEtaDays : ℚ := 365
def materialDrift30d : ℚ := 1 / 10

inductive State where
  | unknown
  | h0
  | h1
  | h2
  | h3
  | h4
deriving DecidableEq, Repr

def stateOrder : State → Option Nat
  | .unknown => none
  | .h0 => some 0
  | .h1 => some 1
  | .h2 => some 2
  | .h3 => some 3
  | .h4 => some 4

def rankState : Nat → State
  | 0 => .h0
  | 1 => .h1
  | 2 => .h2
  | 3 => .h3
  | _ => .h4

def hardDFlags : List Flag :=
  [.predictFail, .cwReliability, .cwReadonly, .pendingGt10, .uncorrectable198, .damagePresent]

def h4Flags : List Flag :=
  [.predictFail, .cwSpare, .cwReliability, .cwReadonly, .pendingGt10, .uncorrectable198,
   .spareBelowThreshold, .chainStage3]

def h3Flags : List Flag := [.accel, .chainStage2, .recurrence, .agingAccelerating]

def h2Flags : List Flag :=
  [.remapMasking, .spareDepleting, .tailRatioWorsening, .earlyEvents, .agingLeak]

def keyTrends : List TrendKey :=
  [.smartPending, .smartMediaErrors, .smartRealloc, .nvmeSpare, .diskTailRatio]

def depletionTrends : List TrendKey := [.nvmeSpare, .diskFill, .storageWear]

def flatCounterTrends : List TrendKey := [.smartPending, .smartRealloc, .smartMediaErrors]

inductive Dominant where
  | storage
  | aging
  | os
  | diskFill
  | network
  | trajectory
  | systemic
deriving DecidableEq, Repr

def Dominant.key : Dominant → String
  | .storage => "storage"
  | .aging => "aging"
  | .os => "os"
  | .diskFill => "disk_fill"
  | .network => "network"
  | .trajectory => "trajectory"
  | .systemic => "systemic"

def axisToDominant : List (AxisName × Dominant) :=
  [(.storageRisk, .storage), (.softwareAgingRisk, .aging), (.osDegradationRisk, .os),
   (.diskFillRisk, .diskFill), (.networkRisk, .network), (.trajectoryRisk, .trajectory)]

def severity : AxisName → ℚ
  | .networkRisk => 6 / 10
  | .trajectoryRisk => 85 / 100
  | _ => 1

def actions : Option Dominant → String
  | some .storage => "снять образ данных, планировать замену накопителя"
  | some .aging => "перезагрузить; если повторится — искать утечку в ПО"
  | some .os => "переустановка/восстановление ОС при повторении"
  | some .diskFill => "освободить место — под угрозой обновления Windows"
  | some .network => "проверить линк/кабель/точку доступа"
  | some .trajectory => "ресурс близок к исчерпанию — планировать обслуживание"
  | some .systemic =>
    "искать общую причину: питание, перегрев, недавнее обновление, антивирусные сканы"
  | none => "данных недостаточно — проверить агент/доступность источников"

def dominantLabels : Option Dominant → String
  | some .storage => "накопитель"
  | some .diskFill => "заполнение диска"
  | some .os => "операционная система"
  | some .network => "сеть"
  | some .trajectory => "траектория ресурса"
  | some .aging => "старение ПО"
  | some .systemic => "системная причина"
  | none => "не определено"

def stateLabels : State → String
  | .unknown => "нет видимости"
  | .h4 => "предотказ"
  | .h3 => "ускоренная деградация"
  | .h2 => "компенсация"
  | .h1 => "ранняя деградация"
  | .h0 => "здоров"

def horizonState : State → Option (Nat × String)
  | .h4 => some (7, "предотказ — прогноз горизонта 7 дней")
  | .h3 => some (30, "ускоренная деградация — прогноз горизонта 30 дней")
  | .h2 => some (90, "истощение компенсации — прогноз горизонта 90 дней")
  | _ => none

def horizonEtaReason : Nat → String
  | 30 => "истощение ресурса в пределах 30 дней"
  | 90 => "истощение ресурса в пределах 90 дней"
  | _ => "ресурс кончится в пределах полугода"

def blindAction : String := "восстановить видимость: проверить агент и доступ к SMART/журналам"
def msgImmature : String := "оценка устойчивости незрелая"
def msgPartial : String := "неполные координаты: точность снижена"

/-! ### Verdict -/

structure Coordinate where
  value : Option ℚ
  band : ScoreBand
  confidence : ScoreConfidence
  evidence : List Factor := []
  flags : List Flag := []
deriving DecidableEq, Repr

structure HealthVerdict where
  damage : Coordinate
  resilience : Coordinate
  observability : Coordinate
  blindSpots : List String
  state : State
  lastKnownState : Option State
  stateLabel : String
  stateEvidence : List Factor
  index : Option ℚ
  band : ScoreBand
  confidence : ScoreConfidence
  dominant : Option Dominant
  dominantLabel : String
  horizonDays : Option Nat
  horizonReason : String
  action : String
  factors : List Factor
  missingEvidence : List String
deriving DecidableEq, Repr

/-- The keys of the stored health blob that the ratchet reads back. -/
structure PrevHealth where
  state : Option State := none
  lastKnownState : Option State := none
  worstDisk : Option String := none
deriving DecidableEq, Repr

structure Cohort where
  cohortSize : Option Nat := none
  bootP90Ms : Option ℚ := none
deriving DecidableEq, Repr

/-! ### Small helpers -/

def axVal (axes : Axes) (name : AxisName) : Option ℚ := (axes name).bind (·.value)

def confRank : ScoreConfidence → Nat
  | .unknown => 0
  | .low => 1
  | .medium => 2
  | .high => 3

def rankConf : Nat → ScoreConfidence
  | 0 => .unknown
  | 1 => .low
  | 2 => .medium
  | _ => .high

def worstConf (confs : List ScoreConfidence) : ScoreConfidence :=
  match (confs.map confRank).min? with
  | some r => rankConf r
  | none => .unknown

def cap (conf ceiling : ScoreConfidence) : ScoreConfidence :=
  rankConf (min (confRank conf) (confRank ceiling))

/-- The first factor of each non-empty label, in order. -/
def uniqByLabel (facts : List Factor) : List Factor :=
  facts.foldl (fun out f =>
    if f.label = "" ∨ f.label ∈ out.map (·.label) then out else out ++ [f]) []

/-- `_top`: the `n` heaviest distinct factors (stable, descending `|delta|`). -/
def top (facts : List Factor) (n : Nat) : List Factor :=
  ((uniqByLabel facts).insertionSort fun a b => |b.delta| ≤ |a.delta|).take n

/-! ### Step 1: Observability -/

def nPoints (trends : Trends) (key : TrendKey) : Nat := ((trends key).map (·.nPoints)).getD 0

/-- `bool(errchain and (any(counts.values()) or errchain.get("factors")))`. -/
def errchainLive : Option ErrChain → Bool
  | none => false
  | some c =>
    (c.counts.early != 0 || c.counts.damage != 0 || c.counts.crash != 0 ||
      c.counts.appHang != 0) || !c.factors.isEmpty

/-- `f"{w:.2f}"` of a non-negative weight. -/
def fmt2 (w : ℚ) : String :=
  let n := roundHalfEven (w * 100)
  toString (n / 100) ++ "." ++ (if n % 100 < 10 then "0" else "") ++ toString (n % 100)

/-- The `(weight, is_live, blind-spot text)` channels. -/
def observabilityChannels (axes : Axes) (trends : Trends) (errchain : Option ErrChain)
    (cohort : Option Cohort) : List (ℚ × Bool × String) :=
  [(35 / 100, (axVal axes .storageRisk).isSome, "SMART недоступен"),
   (15 / 100, errchainLive errchain, "нет анализа событий"),
   (15 / 100, (axVal axes .softwareAgingRisk).isSome, "нет телеметрии производительности"),
   (15 / 100, keyTrends.any fun t => decide (maturePoints ≤ nPoints trends t),
     "нет истории трендов"),
   (10 / 100, AxisName.all.any fun n => (axVal axes n).isSome,
     "нет инвентаризации/идентификации"),
   (10 / 100, cohort.any fun c => decide (cohortMin ≤ c.cohortSize.getD 0),
     "нет когорты для сравнения")]

def observability (axes : Axes) (trends : Trends) (errchain : Option ErrChain)
    (cohort : Option Cohort) : Coordinate × List String :=
  let channels := observabilityChannels axes trends errchain cohort
  let live := channels.filter (·.2.1)
  let value := round1 ((live.map (·.1)).sum * 100)
  let evidence := live.map fun c =>
    Factor.mk ("источник данных активен (вес " ++ fmt2 c.1 ++ ")") c.1
  let band := if 75 ≤ value then .good else if 40 ≤ value then .watch else .bad
  let conf := if 75 ≤ value then .high else if 40 ≤ value then .medium else .low
  ({ value := some value, band := band, confidence := conf, evidence := evidence.take 5 },
   (channels.filter fun c => !c.2.1).map (·.2.2))

/-! ### Step 2: Damage -/

structure Channel where
  level : ℚ
  confidence : ScoreConfidence
  factors : List Factor
  flags : List Flag

def unknownCoordinate : Coordinate :=
  { value := none, band := .unknown, confidence := .unknown }

def coordsDamage (a : Axis) : ℚ := (a.coords.map (·.damage)).getD 0
def coordsLoss (a : Axis) : ℚ := (a.coords.map (·.resilienceLoss)).getD 0
def coordsFlags (a : Axis) : List Flag := (a.coords.map (·.flags)).getD []

/-- The channel of a present axis value; an axis without a value contributes nothing. -/
def axisChannel (axes : Axes) (name : AxisName) (mk : Axis → ℚ → Channel) : List Channel :=
  match axes name with
  | some a =>
    match a.value with
    | some v => [mk a v]
    | none => []
  | none => []

def damageChannels (axes : Axes) : List Channel :=
  axisChannel axes .storageRisk (fun a _ =>
    ⟨coordsDamage a, a.confidence, a.factors, (coordsFlags a).filter (· ∈ hardDFlags)⟩) ++
  axisChannel axes .osDegradationRisk (fun a v => ⟨v * osMult, a.confidence, a.factors, []⟩)

def damage (axes : Axes) : Coordinate :=
  let channels := damageChannels axes
  match (channels.map (·.level)).max? with
  | none => unknownCoordinate
  | some d =>
    { value := some (round1 d)
      band := bandForRiskScore (some d)
      confidence := worstConf (channels.map (·.confidence))
      evidence := top (channels.flatMap (·.factors)) 5
      flags := (channels.flatMap (·.flags)).eraseDups }

/-! ### Step 3: Resilience -/

def keyTrendsImmature (trends : Trends) : Bool :=
  let points := keyTrends.filterMap fun t => (trends t).map (·.nPoints)
  points.isEmpty || points.any fun n => decide (n < maturePoints)

def worsening (trends : Trends) (key : TrendKey) : Bool :=
  (trends key).any fun t => t.direction == .worsening

/-- `_storage_resilience`: the axis loss plus the trend surcharges. -/
def storageResilience (st : Axis) (trends : Trends) : Channel :=
  let spare := worsening trends .nvmeSpare
  let tail := worsening trends .diskTailRatio
  let loss := coordsLoss st + (if spare then spareSurcharge else 0) +
    (if tail then tailSurcharge else 0)
  ⟨min loss 100, st.confidence, st.factors,
   (coordsFlags st).filter (· ∉ hardDFlags) ++ (if spare then [.spareDepleting] else []) ++
     (if tail then [.tailRatioWorsening] else [])⟩

def resilienceChannels (axes : Axes) (trends : Trends) : List Channel :=
  axisChannel axes .storageRisk (fun a _ => storageResilience a trends) ++
  axisChannel axes .softwareAgingRisk (fun a v => ⟨v, a.confidence, a.factors, coordsFlags a⟩) ++
  axisChannel axes .trajectoryRisk (fun a v => ⟨v * trajMult, a.confidence, a.factors, []⟩)

/-- The coordinate, its missing-evidence notes, and whether the estimate is immature. -/
def resilience (axes : Axes) (trends : Trends) : Coordinate × List String × Bool :=
  let channels := resilienceChannels axes trends
  let immature := keyTrendsImmature trends
  match (channels.map (·.level)).max? with
  | none => (unknownCoordinate, [], immature)
  | some rloss =>
    let conf := worstConf (channels.map (·.confidence))
    ({ value := some (round1 (100 - rloss))
       band := bandForRiskScore (some rloss)
       confidence := if immature then cap conf .medium else conf
       evidence := top (channels.flatMap (·.factors)) 5
       flags := (channels.flatMap (·.flags)).eraseDups },
     if immature then [msgImmature] else [], immature)

/-! ### Step 4: State -/

def anyFlag (flags criterion : List Flag) : Bool := flags.any (· ∈ criterion)

/-- `_state` without its label: first matching criterion, after the two visibility gates. -/
def rawState (d r : Coordinate) (oVal : ℚ) (flags : List Flag) : State :=
  if oVal < 40 ∨ d.value = none then .unknown
  else if anyFlag flags h4Flags then .h4
  else if anyFlag flags h3Flags ∨ r.value.any (fun v => decide (v ≤ 30)) then .h3
  else if anyFlag flags h2Flags ∨ r.value.any (fun v => decide (v ≤ 60)) then .h2
  else if d.value.any (fun v => decide (15 ≤ v)) ∨ .damagePresent ∈ flags then .h1
  else .h0

/-- `_state`: the state, its label and the evidence shown with it. -/
def state (d r : Coordinate) (oVal : ℚ) (flags : List Flag) : State × String × List Factor :=
  let s := rawState d r oVal flags
  (s, stateLabels s,
   if s = .unknown ∨ s = .h0 then [] else top (d.evidence ++ r.evidence) 5)

/-! ### Step 5: Ratchet -/

def flatCounter (t : TrendResult) : Bool :=
  decide (maturePoints ≤ t.nPoints) && t.direction != .worsening &&
    decide (|t.slopePerDay.getD 0| < flatSlope)

def countersFlat (trends : Trends) : Bool :=
  let present := flatCounterTrends.filterMap trends
  !present.isEmpty && present.all flatCounter

/-- The state the ratchet compares with: a blind cycle defers to the last known one. -/
def rememberedState (prev : PrevHealth) : Option State :=
  if prev.state = some .unknown then prev.lastKnownState else prev.state

def ratchet (state : State) (prev : Option PrevHealth) (flags : List Flag) (trends : Trends)
    (curDisk : Option String) : State :=
  match prev with
  | none => state
  | some prev =>
    match stateOrder state, (rememberedState prev).bind stateOrder with
    | some cur, some old =>
      if old ≤ cur then state
      else if curDisk.isSome ∧ prev.worstDisk.isSome ∧ curDisk ≠ prev.worstDisk then state
      else if .rebootRestores ∈ flags ∨ countersFlat trends then rankState (old - 1)
      else rankState old
    | _, _ => state

/-! ### Steps 6 and 7: Index and reconciliation -/

def index (dVal rloss : Option ℚ) (oVal : ℚ) : Option ℚ :=
  if oVal < 40 then none
  else
    let known := [dVal, rloss].reduceOption
    match known.max? with
    | none => none
    | some m =>
      let loss := 7 / 10 * m + 3 / 10 * (known.sum / known.length)
      some (max 0 (min 100 (round1 (100 - round1 loss))))

def reconcile (state : State) (index : Option ℚ) (oVal : ℚ) : ScoreBand × List Factor :=
  if oVal < 40 ∨ state = .unknown then (.unknown, [])
  else
    let band := bandForRiskScore (index.map (100 - ·))
    let band :=
      if state = .h4 then .bad
      else if (state = .h2 ∨ state = .h3) ∧ band = .good then .watch
      else band
    if state = .h0 ∧ band = .bad then
      (.watch, [⟨"защитный клэмп: состояние h0 несовместимо с оценкой bad", 0⟩])
    else (band, [])

/-! ### Step 9: Dominant, systemic floor, horizon -/

inductive Mechanism where
  | storage
  | diskFill
  | os
  | network
  | thermal
  | softwareAging
deriving DecidableEq, Repr

def trendMechanism : TrendKey → Mechanism
  | .storageWear => .storage
  | .nvmeSpare => .storage
  | .smartPending => .storage
  | .smartRealloc => .storage
  | .smartMediaErrors => .storage
  | .diskTailRatio => .storage
  | .diskFill => .diskFill
  | .bootTime => .os
  | .throttle => .thermal
  | .gatewayLatency => .network

def counterTrends : List TrendKey := [.smartPending, .smartRealloc, .smartMediaErrors]

def materialWorsening (key : TrendKey) (t : Option TrendResult) : Bool :=
  match t with
  | none => false
  | some t =>
    if t.direction ≠ .worsening then false
    else if key ∈ counterTrends then true
    else match t.etaDays with
      | some eta => decide (eta ≤ materialEtaDays)
      | none =>
        match t.slopePerDay, t.current with
        | some slope, some current =>
          if current = 0 then true
          else decide (materialDrift30d ≤ |slope| * 30 / |current|)
        | _, _ => false

def materialMechanisms (trends : Trends) : List Mechanism :=
  (TrendKey.all.filter fun k => materialWorsening k (trends k)).map trendMechanism

def mechanismAxis : Mechanism → Option AxisName
  | .storage => some .storageRisk
  | .diskFill => some .diskFillRisk
  | .os => some .osDegradationRisk
  | .network => some .networkRisk
  | _ => none

/-- `_AXIS_MECHANISM`: the trajectory describes the same dying disk as storage. -/
def axisMechanism : AxisName → Option Mechanism
  | .storageRisk => some .storage
  | .trajectoryRisk => some .storage
  | .diskFillRisk => some .diskFill
  | .osDegradationRisk => some .os
  | .networkRisk => some .network
  | .softwareAgingRisk => some .softwareAging
  | _ => none

def axisIsBad (axes : Axes) (name : AxisName) : Bool :=
  (axes name).any fun a => a.value.isSome && (a.band == .watch || a.band == .bad)

def isSystemic (axes : Axes) (trends : Trends) : Bool :=
  let badAxes := (axisToDominant.map (·.1)).filter fun n => axisIsBad axes n
  decide (3 ≤ (badAxes.filterMap axisMechanism ++ materialMechanisms trends).dedup.length)

def dominant (axes : Axes) (trends : Trends) : Option Dominant × Bool :=
  if isSystemic axes trends then (some .systemic, true)
  else
    let live := (materialMechanisms trends).filterMap mechanismAxis
    let best := axisToDominant.foldl (fun best p =>
      match axVal axes p.1 with
      | some v =>
        if axisIsBad axes p.1 ∨ p.1 ∈ live then
          let score := v * severity p.1
          if best.2 < score then (some p.2, score) else best
        else best
      | none => best) ((none : Option Dominant), (-1 : ℚ))
    (best.1, false)

/-- The systemic floor: at least `h2`, unless there is no visibility. -/
def systemicFloor (systemic : Bool) (state : State) : State :=
  if systemic ∧ (state = .h0 ∨ state = .h1) then .h2 else state

def etaBucket (eta : ℚ) : Option Nat :=
  if eta ≤ 30 then some 30 else if eta ≤ 90 then some 90 else if eta ≤ 180 then some 180
  else none

def horizon (state : State) (trends : Trends) : Option Nat × String :=
  let buckets := depletionTrends.filterMap fun t => ((trends t).bind (·.etaDays)).bind etaBucket
  match horizonState state, buckets.min? with
  | some (days, reason), none => (some days, reason)
  | some (days, reason), some eta =>
    if days ≤ eta then (some days, reason) else (some eta, horizonEtaReason eta)
  | none, some eta => (some eta, horizonEtaReason eta)
  | none, none => (none, "")

/-! ### Confidence and context -/

def confidence (d r : Coordinate) (oVal : ℚ) (immature : Bool) : ScoreConfidence :=
  if oVal < 40 then .low
  else
    let base := ([d, r].filter (·.value.isSome)).map (·.confidence)
    let conf := if base.isEmpty then .medium else worstConf base
    let conf := if d.value = none ∨ r.value = none then cap conf .medium else conf
    let conf := if oVal ≤ 74 then cap conf .medium else conf
    if immature then cap conf .medium else conf

def confidenceMissing (d r : Coordinate) (oVal : ℚ) : List String :=
  if 40 ≤ oVal ∧ (d.value = none ∨ r.value = none) then [msgPartial] else []

/-- `bayes` enters with the name of its top class only. -/
def contextFactors (dominant : Option Dominant) (bayesTop : Option String)
    (cohort : Option Cohort) (trends : Trends) : List Factor :=
  (match bayesTop with
   | some t =>
     if t ≠ "" ∧ some t ≠ dominant.map Dominant.key then
       [⟨"bayes-приоритизатор указывает на " ++ t, 0⟩] else []
   | none => []) ++
  (match cohort with
   | some c =>
     match (trends .bootTime).bind (·.current), c.bootP90Ms with
     | some boot, some p90 =>
       if cohortMin ≤ c.cohortSize.getD 0 ∧ p90 < boot then
         [⟨"загрузка дольше, чем у 90% похожих устройств (контекст)", 0⟩] else []
     | _, _ => []
   | none => [])

/-! ### Orchestrator -/

/-- The arguments of `compute_health` other than `prev_health`. -/
structure HealthInputs where
  axes : Axes
  bayesTop : Option String := none
  trends : Trends := fun _ => none
  errchain : Option ErrChain := none
  cohort : Option Cohort := none

def HealthInputs.oVal (x : HealthInputs) : ℚ :=
  (observability x.axes x.trends x.errchain x.cohort).1.value.getD 0

def HealthInputs.allFlags (x : HealthInputs) : List Flag :=
  (damage x.axes).flags ++ (resilience x.axes x.trends).1.flags

def HealthInputs.raw (x : HealthInputs) : State :=
  rawState (damage x.axes) (resilience x.axes x.trends).1 x.oVal x.allFlags

/-- `cur_disk`: the worst disk that the storage axis reports. -/
def HealthInputs.curDisk (x : HealthInputs) : Option String :=
  (x.axes .storageRisk).bind (·.sourceLineage.worstDisk)

def HealthInputs.ratcheted (x : HealthInputs) (prev : Option PrevHealth) : State :=
  ratchet x.raw prev x.allFlags x.trends x.curDisk

def computeHealth (x : HealthInputs) (prev : Option PrevHealth) : HealthVerdict :=
  let (o, blindSpots) := observability x.axes x.trends x.errchain x.cohort
  let d := damage x.axes
  let (r, rMissing, immature) := resilience x.axes x.trends
  let (_, _, stateEv) := state d r x.oVal x.allFlags
  let ratcheted := x.ratcheted prev
  let lastKnown := if ratcheted ≠ .unknown then some ratcheted
    else prev.bind (·.lastKnownState)
  let (dom, systemic) := dominant x.axes x.trends
  let final := systemicFloor systemic ratcheted
  let rloss := r.value.map fun v => round1 (100 - v)
  let idx := index d.value rloss x.oVal
  let (band, reconcileFactors) := reconcile final idx x.oVal
  let (horizonDays, horizonReason) := horizon final x.trends
  { damage := d
    resilience := r
    observability := o
    blindSpots := blindSpots
    state := final
    lastKnownState := lastKnown
    stateLabel := stateLabels final
    stateEvidence := stateEv
    index := idx
    band := band
    confidence := confidence d r x.oVal immature
    dominant := dom
    dominantLabel := dominantLabels dom
    horizonDays := horizonDays
    horizonReason := horizonReason
    action := if x.oVal < 40 then blindAction else actions dom
    factors := top (d.evidence ++ r.evidence ++ o.evidence) 8 ++
      contextFactors dom x.bayesTop x.cohort x.trends ++ reconcileFactors
    missingEvidence := (rMissing ++ confidenceMissing d r x.oVal).eraseDups }

end Srp.Analytics.Health
