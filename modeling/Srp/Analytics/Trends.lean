/-
  Srp/Analytics/Trends.lean
  =========================
  **The trend engine** (`server/analytics/trends.py`): robust slopes over
  append-only series and the time to a failure boundary.

  A point is a pair of epoch seconds and a value.  The slope is the median of
  the pairwise slopes, per day.  A worsening metric with a boundary is projected
  to the day on which it crosses it; the projected date has to be a date, so a
  crossing that is too far away raises.
-/
import Srp.Analytics.StorageRisk

namespace Srp.Analytics.Trends

open Srp.Analytics.Storage (DeviceTrust num attrNum)
open Srp.Lib.PyNum Srp.Scoring Srp.Shared

/-! ### Limits -/

def minPoints : Nat := 3
def highConfPoints : Nat := 6
def resetStep : ℚ := 10
def etaRiskBands : List (ℚ × ℚ) := [(30, 90), (90, 60), (180, 35), (365, 15)]
def etaRiskFar : ℚ := 5

/-- The instant after the last `datetime`, in microseconds. -/
def endOfTimeUs : Int := 253402300800 * 1000000

/-! ### Primitives -/

abbrev Point := ℚ × ℚ

def secondsPerDay : ℚ := 86400

/-- The slopes from one point to the later ones, where they are apart in time. -/
def slopesFrom (p : Point) (later : List Point) : List ℚ :=
  later.filterMap fun q => if 0 < q.1 - p.1 then some ((q.2 - p.2) / (q.1 - p.1)) else none

def pairSlopes : List Point → List ℚ
  | [] => []
  | p :: later => slopesFrom p later ++ pairSlopes later

/-- `theil_sen_slope`, per day. -/
def theilSenSlope (points : List Point) : Option ℚ :=
  let slopes := pairSlopes points
  if slopes = [] then none else some (median slopes * secondsPerDay)

/-- A metric as one row of a series shows it. -/
abbrev Extractor (α : Type) := α → Except PyError (Option ℚ)

/-- The point of one row; a row without a time or a value has none. -/
def pointOf {α : Type} (whenUs : α → Option Int) (extract : Extractor α) (row : α) :
    Except PyError (Option Point) :=
  match whenUs row with
  | none => .ok none
  | some us => (extract row).map fun v => v.map fun x => ((us : ℚ) / 1000000, x)

/-- `_to_points`: oldest first, rows of one instant in the order of the series. -/
def toPoints {α : Type} (whenUs : α → Option Int) (extract : Extractor α) (series : List α) :
    Except PyError (List Point) :=
  (series.mapM (pointOf whenUs extract)).map fun points =>
    points.reduceOption.insertionSort fun p q => p.1 ≤ q.1

/-- `eta_days_to_threshold`. -/
def etaDaysToThreshold (current slopePerDay threshold : ℚ) : Option ℚ :=
  if slopePerDay = 0 then none
  else
    let days := (threshold - current) / slopePerDay
    if 0 < days then some days else none

/-- A step opposite to the worsening direction, larger than a reading can be wrong. -/
def isReset (sign : ℚ) (p q : Point) : Bool := decide ((q.2 - p.2) * sign < -resetStep)

/-- The points from the last reset on, if there is a reset. -/
def lastReset (sign : ℚ) : List Point → Option (List Point)
  | p :: q :: rest =>
    match lastReset sign (q :: rest) with
    | some segment => some segment
    | none => if isReset sign p q then some (q :: rest) else none
  | _ => none

/-- `_anchor_recent_segment`. -/
def anchorRecentSegment (sign : ℚ) (points : List Point) : List Point :=
  (lastReset sign points).getD points

/-! ### One trend -/

/-- The keyword arguments of `build_trend`: `sign` is 1 when rising is bad. -/
structure TrendSpec where
  sign : ℚ
  threshold : Option ℚ := none
  anchorResets : Bool := false

/-- `_parse_iso` of the projected date: `base + timedelta(days=eta)` must be a `datetime`. -/
def targetDate (now : Int) (eta : ℚ) : Except PyError Int :=
  let us := now + roundHalfEven (eta * 86400 * 1000000)
  if us < endOfTimeUs then .ok us else .error .overflowError

/-- Already past the boundary while worsening is imminent, not "no crossing". -/
def crossed (sign threshold current : ℚ) : Bool :=
  decide (0 < sign ∧ threshold ≤ current) || decide (sign < 0 ∧ current ≤ threshold)

def etaOf (spec : TrendSpec) (current slope : ℚ) : Option ℚ :=
  spec.threshold.bind fun threshold =>
    if crossed spec.sign threshold current then some 0
    else etaDaysToThreshold current slope threshold

/-- The second half of the window is at least twice as steep. -/
def acceleration (sign slope : ℚ) (points : List Point) : Option Bool :=
  if points.length < highConfPoints then none
  else (theilSenSlope (points.drop (points.length / 2))).map fun recent =>
    decide (0 < slope * sign) && decide (2 * (slope * sign) ≤ recent * sign)

/-- `build_trend`, from its points on. -/
def trendOf (spec : TrendSpec) (now : Int) (points : List Point) : Except PyError TrendResult :=
  let points := if spec.anchorResets then anchorRecentSegment spec.sign points else points
  let n := points.length
  let current := points.getLast?.map (·.2)
  let insufficient : TrendResult := { nPoints := n, current := current, direction := .insufficient }
  if n < minPoints then .ok insufficient
  else
    match theilSenSlope points, current with
    | some slope, some last =>
      let accelerating := acceleration spec.sign slope points
      if 0 < slope * spec.sign then
        let eta := etaOf spec last slope
        let trend : TrendResult :=
          { nPoints := n, current := current, slopePerDay := some slope, etaDays := eta,
            direction := .worsening, accelerating := accelerating }
        match eta with
        | none => .ok trend
        | some eta => (targetDate now eta).map fun _ => trend
      else
        .ok { nPoints := n, current := current, slopePerDay := some slope,
              direction := if slope * spec.sign < 0 then .improving else .flat,
              accelerating := accelerating }
    | _, _ => .ok insufficient

def buildTrend {α : Type} (whenUs : α → Option Int) (series : List α) (extract : Extractor α)
    (spec : TrendSpec) (now : Int) : Except PyError TrendResult := do
  let points ← toPoints whenUs extract series
  trendOf spec now points

/-- A trend reads a row through its time and its value only. -/
theorem buildTrend_head {α : Type} {whenUs : α → Option Int} {extract : Extractor α}
    {row row' : α} {rest : List α} {spec : TrendSpec} {now : Int}
    (hwhen : whenUs row = whenUs row') (hvalue : extract row = extract row') :
    buildTrend whenUs (row :: rest) extract spec now =
      buildTrend whenUs (row' :: rest) extract spec now := by
  have hpoint : pointOf whenUs extract row = pointOf whenUs extract row' := by
    unfold pointOf
    rw [hwhen, hvalue]
  unfold buildTrend toPoints
  rw [List.mapM_cons, List.mapM_cons, hpoint]

/-! ### Extractors -/

/-- `_disk_wear_level`. -/
def diskWearLevel (disk : StorageReliability) : Except PyError (Option ℚ) := do
  let used ← num disk.nvmePercentageUsed
  return ([disk.wearPct, used].reduceOption).max?

/-- `_max_storage_wear`. -/
def maxStorageWear (storage : List StorageReliability) : Except PyError (Option ℚ) :=
  (storage.mapM diskWearLevel).map fun levels => levels.reduceOption.max?

/-- `_disk_smart_attr`: attribute 5 falls back to the legacy counter. -/
def diskSmartAttr (id : String) : Extractor DiskReading := fun row =>
  match row.smartAttrs.lookup id with
  | some v => num (some v)
  | none => if id = "5" then num row.reallocatedSectors else .ok none

/-- `_gateway_latency_ms`: the median of the probes that were answered. -/
def gatewayLatencyMs (row : HistoricalRow) : Option ℚ :=
  let answered := row.networkQuality.filter fun q =>
    q.targetKind = some "gateway" && decide (q.lossPct.getD 0 < 100)
  let vals := answered.filterMap (·.latencyMs)
  if vals = [] then none else some (median vals)

/-- `_disk_tail_ratio`. -/
def diskTailRatio (row : HeartbeatRow) : Option ℚ :=
  if 4 ≤ row.diskLatSamples.getD 0 then
    match row.diskReadMsP50, row.diskReadMsP95 with
    | some p50, some p95 => if p50 = 0 then none else some (p95 / p50)
    | _, _ => none
  else none

/-! ### `compute_trends` -/

def storageWearSpec : TrendSpec := { sign := 1, threshold := some 100, anchorResets := true }
def diskFillSpec : TrendSpec := { sign := -1, threshold := some 0 }
def risingSpec : TrendSpec := { sign := 1 }
def fallingSpec : TrendSpec := { sign := -1 }

/-- The newest threshold that the series of the disk reports. -/
def latestThreshold (diskSeries : List DiskReading) : Except PyError (Option ℚ) :=
  num (diskSeries.findSome? (·.nvmeSpareThresholdPct))

/-- The trends over the series of one disk. -/
structure DiskTrends where
  smartPending : TrendResult
  smartMediaErrors : TrendResult
  smartRealloc : TrendResult
  nvmeSpare : TrendResult

def diskTrends (diskSeries : List DiskReading) (now : Int) : Except PyError DiskTrends := do
  let pending ← buildTrend (·.whenUs) diskSeries (diskSmartAttr "197") risingSpec now
  let media ← buildTrend (·.whenUs) diskSeries (num ·.nvmeMediaErrors) risingSpec now
  let realloc ← buildTrend (·.whenUs) diskSeries (diskSmartAttr "5") risingSpec now
  let threshold ← latestThreshold diskSeries
  let spare ← buildTrend (·.whenUs) diskSeries (num ·.nvmeSparePct)
    { sign := -1, threshold := threshold } now
  return { smartPending := pending, smartMediaErrors := media, smartRealloc := realloc,
           nvmeSpare := spare }

/-- The trends over the two histories of the device. -/
structure DeviceTrends where
  storageWear : TrendResult
  diskFill : TrendResult
  bootTime : TrendResult
  throttle : TrendResult
  gatewayLatency : TrendResult
  diskTailRatio : TrendResult

def deviceTrends (historicalSeries : List HistoricalRow) (heartbeatSeries : List HeartbeatRow)
    (now : Int) : Except PyError DeviceTrends := do
  let wear ← buildTrend (·.whenUs) historicalSeries (maxStorageWear ·.storage) storageWearSpec now
  let fill ← buildTrend (·.whenUs) heartbeatSeries (.ok ·.freeSpacePct) diskFillSpec now
  let boot ← buildTrend (·.whenUs) historicalSeries (num ·.avgBootMs) risingSpec now
  let throttle ← buildTrend (·.whenUs) heartbeatSeries (.ok ·.cpuPerfPct) fallingSpec now
  let gateway ← buildTrend (·.whenUs) historicalSeries (.ok <| gatewayLatencyMs ·) risingSpec now
  let tail ← buildTrend (·.whenUs) heartbeatSeries (.ok <| diskTailRatio ·) risingSpec now
  return { storageWear := wear, diskFill := fill, bootTime := boot, throttle := throttle,
           gatewayLatency := gateway, diskTailRatio := tail }

/-- What the trends read of the newest historical row. -/
theorem deviceTrends_head {row row' : HistoricalRow} {rest : List HistoricalRow}
    {heartbeatSeries : List HeartbeatRow} {now : Int} (hwhen : row.whenUs = row'.whenUs)
    (hwear : maxStorageWear row.storage = maxStorageWear row'.storage)
    (hboot : row.avgBootMs = row'.avgBootMs)
    (hquality : row.networkQuality = row'.networkQuality) :
    deviceTrends (row :: rest) heartbeatSeries now =
      deviceTrends (row' :: rest) heartbeatSeries now := by
  have hboot' : num row.avgBootMs = num row'.avgBootMs := by rw [hboot]
  have hlatency : gatewayLatencyMs row = gatewayLatencyMs row' := by
    unfold gatewayLatencyMs
    rw [hquality]
  have hwearTrend : buildTrend (·.whenUs) (row :: rest) (maxStorageWear ·.storage)
      storageWearSpec now = buildTrend (·.whenUs) (row' :: rest) (maxStorageWear ·.storage)
        storageWearSpec now := buildTrend_head hwhen hwear
  have hbootTrend : buildTrend (·.whenUs) (row :: rest) (num ·.avgBootMs) risingSpec now =
      buildTrend (·.whenUs) (row' :: rest) (num ·.avgBootMs) risingSpec now :=
    buildTrend_head hwhen hboot'
  have hgatewayTrend : buildTrend (·.whenUs) (row :: rest) (.ok <| gatewayLatencyMs ·)
      risingSpec now = buildTrend (·.whenUs) (row' :: rest) (.ok <| gatewayLatencyMs ·)
        risingSpec now := buildTrend_head hwhen (congrArg Except.ok hlatency)
  unfold deviceTrends
  rw [hwearTrend, hbootTrend, hgatewayTrend]

/-- The stored map: the keys of the disk are there when it has a series. -/
def trendMap (device : DeviceTrends) (disk : Option DiskTrends) : Trends
  | .storageWear => some device.storageWear
  | .diskFill => some device.diskFill
  | .bootTime => some device.bootTime
  | .throttle => some device.throttle
  | .gatewayLatency => some device.gatewayLatency
  | .diskTailRatio => some device.diskTailRatio
  | .smartPending => disk.map (·.smartPending)
  | .smartMediaErrors => disk.map (·.smartMediaErrors)
  | .smartRealloc => disk.map (·.smartRealloc)
  | .nvmeSpare => disk.map (·.nvmeSpare)

/-- `compute_trends`. -/
def computeTrends (historicalSeries : List HistoricalRow) (heartbeatSeries : List HeartbeatRow)
    (diskSeries : Option (List DiskReading)) (now : Int) : Except PyError Trends := do
  let device ← deviceTrends historicalSeries heartbeatSeries now
  let series := diskSeries.getD []
  if series.isEmpty then return trendMap device none
  else do
    let disk ← diskTrends series now
    return trendMap device (some disk)

/-! ### `trajectory_risk_score` -/

def etaToRisk (etaDays : ℚ) : ℚ :=
  ((etaRiskBands.find? fun band => etaDays ≤ band.1).map (·.2)).getD etaRiskFar

/-- `_DEPLETION_DOMAINS`, in the order of the source. -/
def depletionDomains : List (TrendKey × String) :=
  [(.storageWear, "storage_wear"), (.diskFill, "disk_fill"), (.nvmeSpare, "nvme_spare")]

/-- Whether a depletion trend says anything: a worsening without a boundary does not. -/
def isUsable (t : TrendResult) : Bool :=
  match t.direction with
  | .insufficient => false
  | .worsening => t.etaDays.isSome
  | _ => true

/-- The usable depletion trends, with their names. -/
def usableTrends (trends : Trends) : List (String × TrendResult) :=
  depletionDomains.filterMap fun d =>
    ((trends d.1).filter isUsable).map fun t => (d.2, t)

/-- The projected crossing of a worsening trend. -/
def projected (t : TrendResult) : Option ℚ :=
  if t.direction = .worsening then t.etaDays else none

def trajectoryFactor (name : String) (t : TrendResult) : Option Factor :=
  (projected t).map fun eta =>
    { label := name ++ " → " ++ fmtFixed 0 eta ++ "д до предела (наклон " ++
        fmtSigned 3 (t.slopePerDay.getD 0) ++ "/день)"
      delta := etaToRisk eta }

structure TrajectoryLineage where
  identity : Option String := none
  domains : List (String × TrendDirection × Nat) := []

structure TrajectoryRisk where
  score : Score100
  lineage : TrajectoryLineage := {}

def trajectoryMissing (trends : Trends) : List String :=
  (depletionDomains.filter fun d => !(trends d.1).any isUsable).map
    fun d => d.2 ++ ": недостаточно истории"

/-- The soonest projected crossing. -/
def soonestEta (trends : Trends) : Option ℚ :=
  ((usableTrends trends).filterMap fun p => projected p.2).min?

/-- The value of the axis: withheld without a usable trend, else the risk of the
    soonest crossing. -/
def trajectoryValue (trends : Trends) : Option ℚ :=
  if usableTrends trends = [] then none
  else some (((soonestEta trends).map etaToRisk).getD 0)

def trajectoryRiskScore (trends : Trends) (deviceTrust : DeviceTrust) : TrajectoryRisk :=
  if deviceTrust = .untrusted then
    { score :=
        { value := none, direction := .higherIsWorse, band := .unknown, confidence := .unknown,
          missingEvidence := ["идентификация не подтверждена"],
          reason := "идентификатор устройства не подтверждён (контракт §7)" }
      lineage := { identity := some "untrusted" } }
  else
    let usable := usableTrends trends
    match trajectoryValue trends with
    | none =>
      { score :=
          { value := none, direction := .higherIsWorse, band := .unknown, confidence := .unknown,
            missingEvidence := trajectoryMissing trends,
            reason := "недостаточно истории ни по одному контролируемому ресурсу" } }
    | some value =>
      { score :=
          { value := some value, direction := .higherIsWorse
            band := bandForRiskScore (some value)
            confidence :=
              if highConfPoints ≤ ((usable.map (·.2.nPoints)).max?).getD 0 then .high else .medium
            factors := usable.filterMap fun p => trajectoryFactor p.1 p.2
            missingEvidence := trajectoryMissing trends
            reason := if (soonestEta trends).isSome then ""
              else "истощение ресурса не прогнозируется; тренды стабильны" }
        lineage :=
          { domains := depletionDomains.filterMap fun d =>
              (trends d.1).map fun t => (d.2, t.direction, t.nPoints) } }

theorem trajectoryRiskScore_value (trends : Trends) :
    (trajectoryRiskScore trends .ok).score.value = trajectoryValue trends := by
  unfold trajectoryRiskScore
  rw [if_neg (by decide)]
  cases h : trajectoryValue trends with
  | none => rfl
  | some value => rfl

end Srp.Analytics.Trends
