/-
  Srp/Scoring/Scores.lean
  =======================
  **The day-1 scores** (`server/scoring/scores.py`).

  Four numbers from the newest rows alone.  Every score starts at an end of the
  scale and is moved by `hit`; a missing signal moves nothing.
-/
import Srp.Analytics.Storage

namespace Srp.Scoring

open Srp.Analytics.Storage (num)
open Srp.Lib.PyNum Srp.Shared

/-! ### A score under construction -/

/-- The closure state of one score function. -/
structure Tally where
  val : ℚ
  factors : List Factor := []
deriving DecidableEq, Repr

def Tally.hit (t : Tally) (label : String) (delta : ℚ) : Tally :=
  { val := t.val + delta, factors := t.factors ++ [Factor.mk label (round1 delta)] }

/-- `_clamp(val)`, with the factors. -/
def Tally.close (t : Tally) : Tally := { t with val := clamp t.val }

/-- A counter that moves the score in proportion, up to a limit. -/
def countRule (count : Option ℚ) (label : String) (each limit : ℚ) (t : Tally) : Tally :=
  match count with
  | some n =>
    if n = 0 then t else t.hit (fmtInt n ++ label) (-clampTo 0 limit (n * each))
  | none => t

/-! ### Age -/

def microsPerDay : Int := 86400 * 1000000

/-- The age in years that one date shows, if it is not in the future. -/
def yearsSince (now : Int) (date : Option Int) : Option ℚ :=
  match date with
  | none => none
  | some us =>
    let years : ℚ := (((now - us) / microsPerDay : Int) : ℚ) / (36525 / 100)
    if 0 ≤ years then some years else none

/-- `device_age_years`. -/
def deviceAgeYears (inventory : Option InventoryPayload) (now : Int) : Option ℚ :=
  match inventory with
  | none => none
  | some inv =>
    (([inv.biosReleaseUs, inv.osInstallUs].filterMap (yearsSince now)).max?).map round1

/-! ### Performance -/

def throttleRule (perf : Option ℚ) (t : Tally) : Tally :=
  match perf with
  | some p =>
    if p < 95 then
      t.hit ("Троттлинг CPU (" ++ fmtFixed 0 p ++ "% номинала)") (-clampTo 0 30 ((95 - p) * (3 / 2)))
    else t
  | none => t

def memAvailRule (avail : Option ℚ) (t : Tally) : Tally :=
  match avail with
  | some a =>
    if a < 512 then t.hit "Критически мало свободной RAM (<512 МБ)" (-20)
    else if a < 1024 then t.hit "Мало свободной RAM (<1 ГБ)" (-12)
    else if a < 2048 then t.hit "Дефицит памяти (<2 ГБ свободно)" (-6)
    else t
  | none => t

def pagefileRule (pf : Option ℚ) (t : Tally) : Tally :=
  match pf with
  | some p =>
    if 80 < p then t.hit "Активное использование файла подкачки (трэшинг)" (-15)
    else if 50 < p then t.hit "Повышенное использование файла подкачки" (-8)
    else t
  | none => t

def diskLatencyRule (label : String) (lat : Option ℚ) (t : Tally) : Tally :=
  match lat with
  | some l =>
    if 5 / 100 < l then
      t.hit ("Высокая задержка " ++ label ++ " диска (" ++ fmtFixed 0 (l * 1000) ++ " мс)") (-15)
    else if 20 / 1000 < l then
      t.hit ("Повышенная задержка " ++ label ++ " диска (" ++ fmtFixed 0 (l * 1000) ++ " мс)") (-8)
    else t
  | none => t

def bootRule (boot : Option ℚ) (t : Tally) : Tally :=
  match boot with
  | some b =>
    let seconds := " (" ++ fmtFixed 0 (b / 1000) ++ " с)"
    if 90000 < b then t.hit ("Очень медленная загрузка" ++ seconds) (-15)
    else if 60000 < b then t.hit ("Медленная загрузка" ++ seconds) (-10)
    else if 40000 < b then t.hit ("Загрузка дольше целевой" ++ seconds) (-5)
    else t
  | none => t

def performance (hb : Option HeartbeatPayload) (hist : Option HistoricalPayload) :
    Except PyError Tally := do
  let boot ← num (hist.bind (·.avgBootMs))
  let t : Tally := { val := 100 }
  let t := throttleRule (hb.bind (·.cpuPerfPct)) t
  let t := memAvailRule (hb.bind (·.memAvailMb)) t
  let t := pagefileRule (hb.bind (·.pagefilePct)) t
  let t := diskLatencyRule "чтения" (hb.bind (·.diskReadSec)) t
  let t := diskLatencyRule "записи" (hb.bind (·.diskWriteSec)) t
  return (bootRule boot t).close

/-! ### Reliability -/

def rsiRule (rsi : Option ℚ) (t : Tally) : Tally :=
  match rsi with
  | some r =>
    let shown := " (" ++ fmtFixed 1 r ++ "/10)"
    if r < 3 then t.hit ("Очень низкий индекс стабильности Windows" ++ shown) (-25)
    else if r < 5 then t.hit ("Низкий индекс стабильности" ++ shown) (-15)
    else if r < 7 then t.hit ("Умеренный индекс стабильности" ++ shown) (-7)
    else t
  | none => t

def reliability (hist : Option HistoricalPayload) : Except PyError Tally := do
  let kp ← num (hist.bind (·.kernelPower41_30d))
  let bc ← num (hist.bind (·.bugchecks30d))
  let ds ← num (hist.bind (·.dirtyShutdowns30d))
  let ac ← num (hist.bind (·.appCrashes30d))
  let t := rsiRule (hist.bind (·.reliabilityStabilityIndex)) { val := 100 }
  let t := countRule kp "x внезапное отключение (KP41, 30д)" 7 35 t
  let t := countRule bc "x BSOD (BugCheck 1001, 30д)" 12 40 t
  let t := countRule ds "x грязное выключение (6008, 30д)" 5 25 t
  let t := countRule ac "x падение приложений (1000, 30д)" 1 10 t
  return t.close

/-! ### Wear -/

def wearPctRule (wear : Option ℚ) (t : Tally) : Tally :=
  match wear with
  | some w =>
    if 0 < w then t.hit ("Износ SSD " ++ fmtFixed 0 w ++ "%") (-clampTo 0 70 w) else t
  | none => t

def wearReallocRule (realloc : Option Int) (t : Tally) : Tally :=
  match realloc with
  | some r =>
    if r = 0 then t
    else t.hit ("Переназначено секторов: " ++ toString r ++ " (HDD)")
      (if 100 < r then -40 else -20)
  | none => t

/-- The quotient `p / 1000` is a float, so a huge counter raises here. -/
def wearHoursRule (poh : Option Int) (t : Tally) : Except PyError Tally :=
  match poh with
  | some p =>
    if 25000 < p then
      if p / 1000 < floatLimit then
        .ok (t.hit ("Наработка диска " ++ fmtFixed 0 ((p : ℚ) / 1000) ++ "k ч")
          (if 40000 < p then -15 else -8))
      else .error .overflowError
    else .ok t
  | none => .ok t

def ageRule (age : Option ℚ) (t : Tally) : Tally :=
  match age with
  | some a =>
    let label := "Возраст оборудования ~" ++ fmtFixed 0 a ++ " лет"
    if 7 < a then t.hit label (-15)
    else if 5 < a then t.hit label (-8)
    else if 3 < a then t.hit label (-3)
    else t
  | none => t

/-- The first disk only: the gate validates no other. -/
def firstDisk (hist : Option HistoricalPayload) : Option StorageReliability :=
  hist.bind (·.storage.head?)

def wear (inv : Option InventoryPayload) (hist : Option HistoricalPayload) (now : Int) :
    Except PyError Tally := do
  let disk := firstDisk hist
  let t := wearPctRule (disk.bind (·.wearPct)) { val := 100 }
  let t := wearReallocRule (disk.bind (·.reallocatedSectors)) t
  let t ← wearHoursRule (disk.bind (·.powerOnHours)) t
  return (ageRule (deviceAgeYears inv now) t).close

/-! ### Risk exposure -/

def freeSpaceRule (free : Option ℚ) (t : Tally) : Tally :=
  match free with
  | some f =>
    let label := "Системный диск: " ++ fmtFixed 0 f ++ "% свободно"
    if f < 5 then t.hit (label ++ " (риск каскада)") 30
    else if f < 10 then t.hit label 18
    else if f < 15 then t.hit label 8
    else t
  | none => t

def driverRule (dpc : Option ℚ) (t : Tally) : Tally :=
  match dpc with
  | some n =>
    if n = 0 then t
    else t.hit (fmtInt n ++ " устройство(а) с ошибкой драйвера") (clampTo 0 20 (n * 5))
  | none => t

def diskErrors (disk : Option StorageReliability) : Int :=
  (disk.bind (·.readErrorsTotal)).getD 0 + (disk.bind (·.writeErrorsTotal)).getD 0

def diskErrorsRule (errors : Int) (t : Tally) : Tally :=
  if 0 < errors then t.hit ("Накопленные ошибки I/O диска: " ++ toString errors) 25 else t

def nicRule (nic : Option ℚ) (t : Tally) : Tally :=
  if nic.any (0 < ·) then t.hit "Ошибки пакетов NIC" 5 else t

def riskExposure (inv : Option InventoryPayload) (hist : Option HistoricalPayload)
    (hb : Option HeartbeatPayload) : Except PyError Tally := do
  let dpc ← num (inv.bind (·.driverProblemCount))
  let nic ← num (hb.bind (·.nicErrors))
  let t := freeSpaceRule (hb.bind (·.freeSpacePct)) { val := 0 }
  let t := if (inv.bind (·.pendingReboot)).getD false then
    t.hit "Ожидается перезагрузка (обновления зависли)" 10 else t
  let t := diskErrorsRule (diskErrors (firstDisk hist)) (driverRule dpc t)
  return (nicRule nic t).close

/-! ### The four scores -/

structure Day1Scores where
  performance : Tally
  reliability : Tally
  wear : Tally
  riskExposure : Tally
deriving DecidableEq, Repr

/-- `round(val, 1)`, with the factors. -/
def Tally.rounded (t : Tally) : Tally := { t with val := round1 t.val }

/-- `compute_day1_scores`. -/
def computeDay1Scores (inventory : Option InventoryPayload) (historical : Option HistoricalPayload)
    (heartbeat : Option HeartbeatPayload) (now : Int) : Except PyError Day1Scores := do
  let perf ← performance heartbeat historical
  let rel ← reliability historical
  let worn ← wear inventory historical now
  let risk ← riskExposure inventory historical heartbeat
  return { performance := perf.rounded, reliability := rel.rounded, wear := worn.rounded,
           riskExposure := risk.rounded }

end Srp.Scoring
