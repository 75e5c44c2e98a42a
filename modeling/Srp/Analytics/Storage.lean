/-
  Srp/Analytics/Storage.lean
  ==========================
  **The storage health engine** (`server/analytics/storage.py`).

  `_score_disk` makes two passes over one disk at once: the legacy 0..100
  `value`, and the coordinate tags (Damage, Resilience loss, flags).  Its
  closure state is the record `Acc`, `hit` / `hit_mult` are the functions that
  update it, and every rule of the source is one function on `Acc`, applied in
  source order by `scoreReading`.

  The `_num` reads come first, in `readDisk`: `float()` of a huge integer raises
  there, and nothing after the reads can raise.

  A float operation is the exact one followed by `fl`, the rounding.  `binary64` is
  the rounding of a double, and `id` that of exact arithmetic.
-/
import Mathlib.Data.Int.Bitwise
import Mathlib.Data.List.ReduceOption
import Srp.Analytics.Signals
import Srp.Shared.Schema

namespace Srp.Analytics.Storage

open Srp.Lib.PyNum Srp.Scoring Srp.Shared

/-! ### Thresholds -/

def latencyHighSec : ℚ := 5 / 100
def unsafeShutdownsHigh : ℚ := 10
def recurrenceMinGapUs : Int := 7 * 86400 * 1000000
def minHighConfSamples : Nat := 3

/-! ### Reading a disk row -/

/-- `_num(d, key)` on an integer field. -/
def num : Option Int → Except PyError (Option ℚ)
  | none => .ok none
  | some n => (floatOfInt n).map some

def attrNum (attrs : List (String × Int)) (id : String) : Except PyError (Option ℚ) :=
  num (attrs.lookup id)

/-- `_num(d, key)` on an integer field, as the float that it becomes. -/
def floatNum (fl : ℚ → ℚ) (x : Option Int) : Except PyError (Option ℚ) :=
  (num x).map (Option.map fl)

/-- `_has_smart`: some SMART field, or a non-empty attribute map. -/
def hasSmart (disk : StorageReliability) : Bool :=
  disk.reallocatedSectors.isSome || disk.readErrorsTotal.isSome ||
  disk.writeErrorsTotal.isSome || disk.wearPct.isSome || disk.temperatureC.isSome ||
  disk.powerOnHours.isSome || disk.smartPredictFail.isSome ||
  disk.nvmeCriticalWarning.isSome || disk.nvmeMediaErrors.isSome ||
  disk.nvmeSparePct.isSome || disk.nvmePercentageUsed.isSome ||
  disk.readErrorsUncorrected.isSome || disk.writeErrorsUncorrected.isSome ||
  !disk.smartAttrs.isEmpty

/-- The pairs of the double loop `for i ... for j in range(i + 1, ...)`. -/
def orderedPairs {α : Type} : List α → List (α × α)
  | [] => []
  | x :: xs => xs.map (fun y => (x, y)) ++ orderedPairs xs

def grew : Option ℚ × Option ℚ → Bool
  | (some a, some b) => decide (a < b)
  | _ => false

section Rounded

variable (fl : ℚ → ℚ)

/-- Media errors, attribute 197 or attribute 5 grew from `older` to `newer`. -/
def defectsGrew (older newer : DiskReading) : Except PyError Bool := do
  let m0 ← floatNum fl older.nvmeMediaErrors
  let m1 ← floatNum fl newer.nvmeMediaErrors
  let p0 ← floatNum fl (older.smartAttrs.lookup "197")
  let p1 ← floatNum fl (newer.smartAttrs.lookup "197")
  let r0 ← floatNum fl (older.smartAttrs.lookup "5")
  let r1 ← floatNum fl (newer.smartAttrs.lookup "5")
  return [(m0, m1), (p0, p1), (r0, r1)].any grew

/-- `_has_recurrence`: defects grew between two readings at least a week apart. -/
def hasRecurrence (diskSeries : List DiskReading) : Except PyError Bool :=
  let points := (diskSeries.filterMap fun row => row.whenUs.map fun t => (t, row)).insertionSort
    (fun p q => p.1 ≤ q.1)
  (orderedPairs points).anyM fun (p, q) =>
    if q.1 - p.1 < recurrenceMinGapUs then pure false else defectsGrew fl p.2 q.2

/-- The series is the one of this disk (matched by `serial_hash`). -/
def isTargetDisk (disk : StorageReliability) : List DiskReading → Bool
  | [] => false
  | row :: _ => row.serialHash == disk.serialHash

/-- `_temp_sustained_high`: the disk's own history has a median above 70. -/
def tempSustainedHigh (disk : StorageReliability) (diskSeries : List DiskReading) :
    Except PyError Bool := do
  if isTargetDisk disk diskSeries then
    let temps := (← diskSeries.mapM fun row => floatNum fl row.temperatureC).reduceOption
    return decide (minHighConfSamples ≤ temps.length) && decide (70 < medianWith fl temps)
  else return false

/-- Everything `_score_disk` reads off the disk row and its own series. -/
structure Reading where
  realloc : Option ℚ
  readErr : Option ℚ
  writeErr : Option ℚ
  wear : Option ℚ
  temp : Option ℚ
  poh : Option ℚ
  predictFail : Bool
  cw : Option Int
  pending : Option ℚ
  uncorrectable : Option ℚ
  mediaErr : Option ℚ
  spare : Option ℚ
  spareThreshold : Option ℚ
  attr5 : Option ℚ
  attr187 : Option ℚ
  attr188 : Option ℚ
  readUncorr : Option ℚ
  writeUncorr : Option ℚ
  attr196 : Option ℚ
  pctUsed : Option ℚ
  unsafeShutdowns : Option ℚ
  powerCycles : Option ℚ
  /-- the temperature rule's `stable` -/
  tempStable : Bool
  isTarget : Bool
  recurrent : Bool
deriving DecidableEq, Repr

def exceeds (x : Option ℚ) (bound : ℚ) : Bool :=
  match x with
  | some v => decide (bound < v)
  | none => false

def readDisk (disk : StorageReliability) (diskSeries : List DiskReading) :
    Except PyError Reading := do
  let realloc ← floatNum fl disk.reallocatedSectors
  let readErr ← floatNum fl disk.readErrorsTotal
  let writeErr ← floatNum fl disk.writeErrorsTotal
  let temp ← floatNum fl disk.temperatureC
  let tempStable ← if exceeds temp 70 then tempSustainedHigh fl disk diskSeries else pure false
  let poh ← floatNum fl disk.powerOnHours
  let pending ← floatNum fl (disk.smartAttrs.lookup "197")
  let uncorrectable ← floatNum fl (disk.smartAttrs.lookup "198")
  let mediaErr ← floatNum fl disk.nvmeMediaErrors
  let spare ← floatNum fl disk.nvmeSparePct
  let spareThreshold ← floatNum fl disk.nvmeSpareThresholdPct
  let attr5 ← floatNum fl (disk.smartAttrs.lookup "5")
  let attr187 ← floatNum fl (disk.smartAttrs.lookup "187")
  let attr188 ← floatNum fl (disk.smartAttrs.lookup "188")
  let readUncorr ← floatNum fl disk.readErrorsUncorrected
  let writeUncorr ← floatNum fl disk.writeErrorsUncorrected
  let attr196 ← floatNum fl (disk.smartAttrs.lookup "196")
  let pctUsed ← floatNum fl disk.nvmePercentageUsed
  let unsafeShutdowns ← floatNum fl disk.nvmeUnsafeShutdowns
  let isTarget := isTargetDisk disk diskSeries
  let recurrent ← if isTarget then hasRecurrence fl diskSeries else pure false
  let powerCycles ← floatNum fl disk.nvmePowerCycles
  return { realloc, readErr, writeErr, wear := disk.wearPct, temp, poh,
           predictFail := disk.smartPredictFail.getD false, cw := disk.nvmeCriticalWarning,
           pending, uncorrectable, mediaErr, spare, spareThreshold, attr5, attr187, attr188,
           readUncorr, writeUncorr, attr196, pctUsed, unsafeShutdowns, powerCycles,
           tempStable, isTarget, recurrent }

/-! ### The accumulator of `_score_disk` -/

inductive Coord where
  | D
  | R
deriving DecidableEq, Repr

structure Acc where
  value : ℚ := 0
  damage : ℚ := 0
  resilienceLoss : ℚ := 0
  factors : List Factor := []
  flags : List Flag := []
  multipliers : List ℚ := []
  otherNewFactor : Bool := false
deriving DecidableEq, Repr

/-- Coordinate points: `damage += pts` or `resilience_loss += pts`. -/
def Acc.addCoord (acc : Acc) (coord : Option Coord) (pts : ℚ) : Acc :=
  match coord with
  | some .D => { acc with damage := fl (acc.damage + pts) }
  | some .R => { acc with resilienceLoss := fl (acc.resilienceLoss + pts) }
  | none => acc

def Acc.addFlag (acc : Acc) : Option Flag → Acc
  | some f => { acc with flags := acc.flags ++ [f] }
  | none => acc

/-- `hit(label, delta, coord, coord_pts, flag, legacy=...)`. -/
def Acc.hit (acc : Acc) (label : String) (delta : ℚ) (coord : Option Coord) (coordPts : ℚ)
    (flag : Option Flag) (legacy : Bool) : Acc :=
  let acc := { acc with
    value := fl (acc.value + delta)
    factors := acc.factors ++ [Factor.mk label (fl (round1 delta))]
    otherNewFactor := acc.otherNewFactor || !legacy }
  (acc.addCoord fl coord coordPts).addFlag flag

/-- `hit_mult(label, mult, coord, coord_pts, flag)`: scales the axis once, at the end. -/
def Acc.hitMult (acc : Acc) (label : String) (mult : ℚ) (coord : Coord) (coordPts : ℚ)
    (flag : Flag) : Acc :=
  let acc := { acc with
    multipliers := acc.multipliers ++ [mult]
    otherNewFactor := true
    factors := acc.factors ++ [Factor.mk label (fl (round1 coordPts))] }
  (acc.addCoord fl (some coord) coordPts).addFlag (some flag)

/-- A legacy rule moves `value` only. -/
def Acc.hitLegacy (acc : Acc) (label : String) (delta : ℚ) (flag : Option Flag) : Acc :=
  acc.hit fl label delta none 0 flag true

/-- A coordinate-tagged rule whose coordinate points equal its delta. -/
def Acc.hitCoord (acc : Acc) (label : String) (pts : ℚ) (coord : Coord) (flag : Option Flag) :
    Acc :=
  acc.hit fl label pts (some coord) pts flag false

/-- `_reinforcement_for`: the multiplier, and a zero-score lineage factor when it
    is not neutral. -/
def reinforcementFor (ruleStats : RuleStats) (key : RuleKey) (acc : Acc) : ℚ × Acc :=
  let stats := ruleStats key
  let mult := reinforcement fl key stats
  if 1 < mult then
    (mult, acc.hit fl ("правило «" ++ ruleLabel key ++ "» подтверждено парком: " ++
      toString stats.confirmed ++ " случаев") 0 none 0 none false)
  else if mult < 1 then
    (mult, acc.hit fl ("правило «" ++ ruleLabel key ++
      "» приглушено: на этом парке не подтверждается") 0 none 0 none false)
  else (mult, acc)

/-! ### Legacy rules -/

def reallocRule (r : Reading) (acc : Acc) : Acc :=
  match r.realloc with
  | some x =>
    if 0 < x then
      acc.hitLegacy fl (fmtInt x ++ " переназначенных секторов" ++
        (if 100 < x then " — диск отказывает" else "")) (if 100 < x then 60 else 35) none
    else acc
  | none => acc

def ioErrorsRule (r : Reading) (acc : Acc) : Acc :=
  let ioErrors := fl (r.readErr.getD 0 + r.writeErr.getD 0)
  if 0 < ioErrors then
    acc.hitLegacy fl (fmtInt ioErrors ++ " накопленных I/O ошибок")
      (if 100 < ioErrors then 60 else 40) none
  else acc

def wearRule (r : Reading) (acc : Acc) : Acc :=
  match r.wear with
  | some w =>
    if 95 < w then acc.hitLegacy fl ("износ SSD " ++ fmt0 w ++ "% (конец ресурса)") 40 none
    else if 85 < w then acc.hitLegacy fl ("износ SSD " ++ fmt0 w ++ "%") 25 none
    else if 70 < w then acc.hitLegacy fl ("износ SSD " ++ fmt0 w ++ "%") 12 none
    else acc
  | none => acc

def tempRule (r : Reading) (acc : Acc) : Acc :=
  match r.temp with
  | some t =>
    if 70 < t then
      acc.hitLegacy fl ("диск " ++ fmtInt t ++ "°C (тепловой стресс)") 15
        (if r.tempStable then none else some .tempUnstable)
    else if 60 < t then acc.hitLegacy fl ("диск " ++ fmtInt t ++ "°C (нагрев)") 8 none
    else acc
  | none => acc

def powerOnRule (r : Reading) (acc : Acc) : Acc :=
  match r.poh with
  | some p =>
    if 40000 < p then acc.hitLegacy fl ("Power-on " ++ fmt0 (fl (p / 1000)) ++ "k ч") 8 none
    else if 25000 < p then acc.hitLegacy fl ("Power-on " ++ fmt0 (fl (p / 1000)) ++ "k ч") 4 none
    else acc
  | none => acc

/-! ### Coordinate-tagged rules -/

def predictFailRule (r : Reading) (acc : Acc) : Acc :=
  if r.predictFail then
    acc.hitCoord fl "прошивка предсказывает отказ диска" 70 .D (some .predictFail)
  else acc

def cwBitRule (bit : Nat) (label : String) (pts : ℚ) (coord : Coord) (flag : Option Flag)
    (r : Reading) (acc : Acc) : Acc :=
  match r.cw with
  | some cw => if cw.testBit bit then acc.hitCoord fl label pts coord flag else acc
  | none => acc

def cwSpareRule : Reading → Acc → Acc :=
  cwBitRule fl 0 "NVMe: резерв компенсации ниже порога" 70 .R (some .cwSpare)

def cwTempRule : Reading → Acc → Acc :=
  cwBitRule fl 1 "NVMe: критическая температура" 30 .R none

def cwReliabilityRule : Reading → Acc → Acc :=
  cwBitRule fl 2 "NVMe: надёжность подсистемы деградировала" 70 .D (some .cwReliability)

def cwReadonlyRule : Reading → Acc → Acc :=
  cwBitRule fl 3 "NVMe: диск в режиме только для чтения" 80 .D (some .cwReadonly)

def cwBackupRule : Reading → Acc → Acc :=
  cwBitRule fl 4 "NVMe: сбой резервного питания энергозависимой памяти" 40 .D none

def pendingRule (ruleStats : RuleStats) (r : Reading) (acc : Acc) : Acc :=
  match r.pending with
  | some p =>
    let label := fmtInt p ++ " секторов в ожидании переназначения"
    if 10 < p then
      let (m, acc) := reinforcementFor fl ruleStats .pendingHigh acc
      acc.hitCoord fl label (fl (60 * m)) .D (some .pendingGt10)
    else if 0 < p then acc.hitCoord fl label 45 .D (some .damagePresent)
    else acc
  | none => acc

/-- A counter whose every positive reading costs the same points. -/
def positiveRule (x : Option ℚ) (suffix : String) (pts : ℚ) (coord : Coord)
    (flag : Option Flag) (acc : Acc) : Acc :=
  match x with
  | some v => if 0 < v then acc.hitCoord fl (fmtInt v ++ suffix) pts coord flag else acc
  | none => acc

def uncorrectableRule (r : Reading) : Acc → Acc :=
  positiveRule fl r.uncorrectable " неисправимых секторов (attr 198)" 60 .D
    (some .uncorrectable198)

def mediaErrRule (r : Reading) : Acc → Acc :=
  positiveRule fl r.mediaErr " ошибок носителя NVMe" 45 .D (some .damagePresent)

def spareRule (r : Reading) (acc : Acc) : Acc :=
  match r.spare, r.spareThreshold with
  | some s, some t =>
    if s < t then
      acc.hitCoord fl ("резерв NVMe " ++ fmt0 s ++ "% ниже порога " ++ fmt0 t ++ "%") 70 .R
        (some .spareBelowThreshold)
    else acc
  | _, _ => acc

def attr5Rule (r : Reading) (acc : Acc) : Acc :=
  match r.attr5 with
  | some x =>
    let label := fmtInt x ++ " переназначенных секторов (attr 5)"
    if 100 < x then acc.hitCoord fl label 50 .D (some .damagePresent)
    else if 0 < x then acc.hitCoord fl label 30 .D (some .damagePresent)
    else acc
  | none => acc

def attr187Rule (r : Reading) : Acc → Acc :=
  positiveRule fl r.attr187 " зафиксированных неисправимых ошибок (attr 187)" 35 .D
    (some .damagePresent)

def attr188Rule (r : Reading) : Acc → Acc :=
  positiveRule fl r.attr188 " таймаутов команд (attr 188)" 20 .R none

def uncorrRwRule (r : Reading) : Acc → Acc :=
  positiveRule fl (some (fl (r.readUncorr.getD 0 + r.writeUncorr.getD 0)))
    " неисправленных ошибок чтения/записи" 40 .D (some .damagePresent)

def attr196Rule (r : Reading) : Acc → Acc :=
  positiveRule fl r.attr196 " событий переназначения (attr 196)" 25 .D (some .damagePresent)

def wearLevelRule (r : Reading) (acc : Acc) : Acc :=
  match r.pctUsed with
  | some p =>
    let level := match r.wear with
      | some w => max p w
      | none => p
    if 95 < level then acc.hitCoord fl ("износ носителя " ++ fmt0 level ++ "%") 40 .D none
    else if 85 < level then acc.hitCoord fl ("износ носителя " ++ fmt0 level ++ "%") 25 .D none
    else acc
  | none => acc

def unsafeShutdownsRule (r : Reading) (acc : Acc) : Acc :=
  match r.unsafeShutdowns with
  | some u =>
    if unsafeShutdownsHigh < u ∧ (0 < r.mediaErr.getD 0 ∨ 0 < r.pending.getD 0) then
      acc.hitCoord fl (fmtInt u ++ " нештатных отключений при живых дефектах") 10 .R none
    else acc
  | none => acc

/-! ### Dynamics, synergy and chain rules -/

def recurrenceRule (ruleStats : RuleStats) (r : Reading) (acc : Acc) : Acc :=
  if r.isTarget && r.recurrent then
    let (m, acc) := reinforcementFor fl ruleStats .mediaRecurrence acc
    acc.hitMult fl "рецидив дефектов диска (промежуток ≥7 дней)" (fl (fl (13 / 10) * m)) .R
      (fl (30 * m)) .recurrence
  else acc

def accelerating (t : Option TrendResult) : Bool :=
  t.any fun t => t.accelerating == some true

def hasDirection (t : Option TrendResult) (d : TrendDirection) : Bool :=
  t.any fun t => t.direction == d

def accelRule (trends : Trends) (r : Reading) (acc : Acc) : Acc :=
  if r.isTarget && (accelerating (trends .smartPending) ||
      accelerating (trends .smartMediaErrors) || accelerating (trends .smartRealloc)) then
    acc.hitMult fl "ускорение накопления дефектов диска" (fl (14 / 10)) .R 40 .accel
  else acc

def remapMaskingRule (trends : Trends) (r : Reading) (acc : Acc) : Acc :=
  if r.isTarget && (hasDirection (trends .smartRealloc) .worsening &&
      hasDirection (trends .smartPending) .improving) then
    acc.hitCoord fl "диск маскирует дефекты переназначением (attr 5 растёт, 197 падает)" 25 .R
      (some .remapMasking)
  else acc

def synergyMults (chain : Option ErrChain) (trends : Trends) (r : Reading) : List ℚ :=
  (if (0 < r.pending.getD 0 ∨ 0 < r.attr5.getD 0) ∧ 1 ≤ (chain.map (·.stage)).getD 0
    then [fl (15 / 10)] else []) ++
  (if r.isTarget && (hasDirection (trends .nvmeSpare) .worsening && exceeds r.pctUsed 85)
    then [fl (13 / 10)] else [])

def synergyRule (chain : Option ErrChain) (trends : Trends) (r : Reading) (acc : Acc) : Acc :=
  match (synergyMults fl chain trends r).max? with
  | some m => acc.hitMult fl "сочетание истощения компенсации" m .R 25 .compensationBreach
  | none => acc

def chainStageRule (chain : Option ErrChain) (acc : Acc) : Acc :=
  let stage := (chain.map (·.stage)).getD 0
  if 3 ≤ stage then
    acc.hit fl "цепочка ошибок дошла до отказа (stage 3)" 25 (some .R) 45 (some .chainStage3)
      false
  else if stage = 2 then
    acc.hitMult fl "цепочка ошибок: повреждение после ретраев (stage 2)" (fl (125 / 100)) .R 30
      .chainStage2
  else acc

def burstinessRule (chain : Option ErrChain) (acc : Acc) : Acc :=
  if exceeds (chain.bind (·.burstiness)) 2 then
    acc.hitCoord fl "ошибки идут кластерами (не равномерно)" 10 .R none
  else acc

def earlyEventsRule (ruleStats : RuleStats) (chain : Option ErrChain) (acc : Acc) : Acc :=
  match chain with
  | some c =>
    if 0 < c.counts.early ∧ c.counts.damage = 0 then
      let (m, acc) := reinforcementFor fl ruleStats .earlyChain acc
      acc.hit fl "ранние сигналы (ретраи) без видимых повреждений" (fl (0 * m)) (some .R)
        (fl (15 * m)) (some .earlyEvents) false
    else acc
  | none => acc

def bathtubRule (r : Reading) (acc : Acc) : Acc :=
  if acc.otherNewFactor && (exceeds r.poh 40000 || exceeds r.powerCycles 10000) then
    acc.hitCoord fl "возраст диска (контекст, не самостоятельный фактор)" 5 .D none
  else acc

/-- Latency may amplify a SMART signal, never create one. -/
def latencyRule (heartbeat : Option HeartbeatPayload) (acc : Acc) : Acc :=
  let latency := max ((heartbeat.bind (·.diskReadSec)).getD 0)
    ((heartbeat.bind (·.diskWriteSec)).getD 0)
  if 0 < acc.value ∧ fl latencyHighSec < latency then
    acc.hit fl ("высокая задержка диска подтверждает сигнал SMART (" ++
      fmt0 (fl (latency * 1000)) ++ " мс)") 10 none 0 none false
  else acc

/-! ### `_score_disk` -/

structure Context where
  heartbeat : Option HeartbeatPayload := none
  diskSeries : List DiskReading := []
  chain : Option ErrChain := none
  trends : Trends := fun _ => none
  ruleStats : RuleStats := fun _ => {}

def applyRules (ctx : Context) (r : Reading) : Acc :=
  let acc : Acc := {}
  let acc := wearRule fl r (ioErrorsRule fl r (reallocRule fl r acc))
  let acc := powerOnRule fl r (tempRule fl r acc)
  let acc := predictFailRule fl r acc
  let acc := cwBackupRule fl r (cwReadonlyRule fl r (cwReliabilityRule fl r (cwTempRule fl r
    (cwSpareRule fl r acc))))
  let acc := mediaErrRule fl r (uncorrectableRule fl r (pendingRule fl ctx.ruleStats r acc))
  let acc := attr5Rule fl r (spareRule fl r acc)
  let acc := attr196Rule fl r (uncorrRwRule fl r (attr188Rule fl r (attr187Rule fl r acc)))
  let acc := unsafeShutdownsRule fl r (wearLevelRule fl r acc)
  let acc := remapMaskingRule fl ctx.trends r (accelRule fl ctx.trends r
    (recurrenceRule fl ctx.ruleStats r acc))
  let acc := chainStageRule fl ctx.chain (synergyRule fl ctx.chain ctx.trends r acc)
  let acc := earlyEventsRule fl ctx.ruleStats ctx.chain (burstinessRule fl ctx.chain acc)
  latencyRule fl ctx.heartbeat (bathtubRule fl r acc)

structure DiskScore where
  value : ℚ
  factors : List Factor
  coords : Coords
deriving DecidableEq, Repr

/-- The closing clamps: multipliers take the maximum and apply once. -/
def scoreReading (ctx : Context) (r : Reading) : DiskScore :=
  let acc := applyRules fl ctx r
  { value := clamp (fl (clamp acc.value * acc.multipliers.max?.getD 1))
    factors := acc.factors
    coords := { damage := clamp acc.damage, resilienceLoss := clamp acc.resilienceLoss,
                flags := acc.flags } }

def scoreDisk (ctx : Context) (disk : StorageReliability) : Except PyError DiskScore :=
  (readDisk fl disk ctx.diskSeries).map (scoreReading fl ctx)

end Rounded

end Srp.Analytics.Storage
