/-
  Srp/Analytics/SoftwareAging.lean
  ================================
  **The software-aging engine** (`server/analytics/software_aging.py`).

  The heartbeats of a device are cut into sessions wherever `uptime_hours` drops
  from one row to the next.  Only the last session is judged; the one before it
  says whether the reboot gave a leaked resource back.  Rows arrive newest first,
  so the order of the rows decides where the borders are.
-/
import Srp.Analytics.StorageRisk
import Srp.Analytics.Trends
import Srp.Lib.Lines
import Srp.Lib.PyJson
import Srp.Scoring.Score100

namespace Srp.Analytics.SoftwareAging

open Srp.Analytics.Storage (DeviceTrust)
open Srp.Analytics.Trends Srp.Lib.Lines Srp.Lib.PyJson Srp.Lib.PyNum Srp.Scoring

/-! ### Limits -/

def minSessionPoints : Nat := 4
def highConfPoints : Nat := 6
def handlesWatch : ℚ := 100
def handlesSevere : ℚ := 300
def memWatch : ℚ := -50
def uptimeTwoWeeksH : ℚ := 336
def hoursPerDay : ℚ := 24

/-- A heartbeat, as `get_recent_heartbeats` returns it. -/
abbrev Row := List (Text × Json)

/-- `float(v)` of a JSON value, `none` where it raises. -/
abbrev ToFloat := Json → Option ℚ

section Engine

variable (toFloat : ToFloat)

/-- `_num`. -/
def num (row : Row) (key : String) : Option ℚ :=
  match row.lookup key.toList with
  | none => none
  | some .null => none
  | some v => toFloat v

/-- `_num(row, "uptime_hours")`. -/
def uptimeOf (row : Row) : Option ℚ := num toFloat row "uptime_hours"

/-! ### Sessions -/

structure SplitState where
  sessions : List (List Row) := []
  current : List Row := []
  prevUptime : Option ℚ := none

/-- `if current: sessions.append(current)`. -/
def SplitState.close (s : SplitState) : List (List Row) :=
  if s.current.isEmpty then s.sessions else s.sessions ++ [s.current]

def splitStep (s : SplitState) (row : Row) : SplitState :=
  match uptimeOf toFloat row with
  | none => s
  | some uptime =>
    if s.prevUptime.any (uptime < ·) then
      { sessions := s.close, current := [row], prevUptime := some uptime }
    else { s with current := s.current ++ [row], prevUptime := some uptime }

/-- `_split_sessions`. -/
def splitSessions (hbSeries : List Row) : List (List Row) :=
  (hbSeries.reverse.foldl (splitStep toFloat) {}).close

/-- `_session_points`. -/
def sessionPoints (session : List Row) (field : String) : List Point :=
  session.filterMap fun row =>
    match uptimeOf toFloat row, num toFloat row field with
    | some uptime, some value => some (uptime * 3600, value)
    | _, _ => none

/-- `_hourly_slope`. -/
def hourlySlope (session : List Row) (field : String) : Option ℚ :=
  let points := sessionPoints toFloat session field
  if points.length < minSessionPoints then none
  else (theilSenSlope points).map (· / hoursPerDay)

/-- `_percentile`. -/
def percentile (values : List ℚ) (p : ℚ) : Option ℚ :=
  if values.isEmpty then none
  else
    let ordered := values.insertionSort (· ≤ ·)
    let idx := max 0 (min ((ordered.length : Int) - 1) (⌈p * ordered.length⌉ - 1))
    ordered[idx.toNat]?

/-- `_pagefile_confirms_pressure`. -/
def pagefileConfirmsPressure (session : List Row) : Bool :=
  let vals := session.filterMap fun r => num toFloat r "pagefile_pct"
  if vals.length < minSessionPoints then false
  else
    let mid := vals.length / 2
    match percentile (vals.take mid) (95 / 100), percentile (vals.drop mid) (95 / 100) with
    | some first, some second => decide (first < second)
    | _, _ => false

/-- The field that leaked in a session; the direction is the one in which it gets worse. -/
inductive LeakedField where
  | handleCountTotal
  | memAvailMb
deriving DecidableEq, Repr

def LeakedField.name : LeakedField → String
  | .handleCountTotal => "handle_count_total"
  | .memAvailMb => "mem_avail_mb"

/-- `_prev_session_leaked_field`. -/
def prevSessionLeakedField (prevSession : Option (List Row)) : Option LeakedField :=
  match prevSession with
  | none => none
  | some prev =>
    if (hourlySlope toFloat prev "handle_count_total").any (handlesWatch < ·) then
      some .handleCountTotal
    else if (hourlySlope toFloat prev "mem_avail_mb").any (· < memWatch) then some .memAvailMb
    else none

/-- `_reboot_restores`. -/
def rebootRestores (prevSession : Option (List Row)) (lastSession : List Row) : Bool :=
  match prevSessionLeakedField toFloat prevSession, prevSession with
  | some leaked, some prev =>
    match prev.getLast?.bind (num toFloat · leaked.name),
        lastSession.head?.bind (num toFloat · leaked.name) with
    | some prevLast, some newFirst =>
      match leaked with
      | .handleCountTotal => decide (newFirst < prevLast)
      | .memAvailMb => decide (prevLast < newFirst)
    | _, _ => false
  | _, _ => false

/-! ### The axis -/

/-- `source_lineage` of the axis. -/
structure AgingLineage where
  identity : Option String := none
  sessionPoints : Option Nat := none
  sessionsSeen : Option Nat := none
  handlesSlopePerH : Option ℚ := none
  memSlopePerH : Option ℚ := none
  flags : List Flag := []

structure AgingRisk where
  score : Score100
  lineage : AgingLineage := {}

def noDamageNote : String :=
  "программное старение не переносится в Damage — перезагрузка возвращает ресурс полностью (К2); эта ось несёт только Resilience"

/-- `hit`. -/
def hit (delta : ℚ) (label : String) : Factor := { label := label, delta := round1 delta }

def handleFactor (h : ℚ) : Option (ℚ × String) :=
  if handlesSevere < h then some (45, "утечка дескрипторов (+" ++ fmt0 h ++ "/ч)")
  else if handlesWatch < h then some (25, "рост дескрипторов (+" ++ fmt0 h ++ "/ч)")
  else none

def memFactor (m : ℚ) : Option (ℚ × String) :=
  if m < memWatch then some (20, "снижение свободной памяти (" ++ fmt0 m ++ " МБ/ч)") else none

def uptimeFactor (u : ℚ) : Option (ℚ × String) :=
  if uptimeTwoWeeksH < u then some (10, fmt0 (u / hoursPerDay) ++ " дн. без перезагрузки")
  else none

/-- The factors of the judged session that change the value. -/
def sessionFactors (hSlope mSlope currentUptime : Option ℚ) (pagefile : Bool) : List (ℚ × String) :=
  (hSlope.bind handleFactor).toList ++ (mSlope.bind memFactor).toList ++
    (currentUptime.bind uptimeFactor).toList ++
    if pagefile then [(10, "рост pagefile во второй половине сессии — подтверждение утечки")]
    else []

/-- The leak rate has doubled since the previous session. -/
def accelerates (hSlope prevSlope : Option ℚ) : Bool :=
  match hSlope, prevSlope with
  | some h, some p => decide (0 < h ∧ 0 < p ∧ 2 * p ≤ h)
  | _, _ => false

/-- `compute_software_aging_risk`. -/
def computeSoftwareAgingRisk (hbSeries : List Row) (deviceTrust : DeviceTrust := .ok) : AgingRisk :=
  if deviceTrust = .untrusted then
    { score :=
        { value := none, direction := .higherIsWorse, band := .unknown, confidence := .unknown,
          missingEvidence := ["идентификация не подтверждена"],
          reason := "идентификатор устройства не подтверждён (контракт §7)" },
      lineage := { identity := some "untrusted" } }
  else
    let sessions := splitSessions toFloat hbSeries
    let lastSession := sessions.getLast?.getD []
    if lastSession.length < minSessionPoints then
      { score :=
          { value := none, direction := .higherIsWorse, band := .unknown, confidence := .unknown,
            missingEvidence := ["текущая сессия короче 4 показаний с последней перезагрузки"],
            reason :=
              "недостаточно истории текущей сессии (UNKNOWN — ложная уверенность недопустима)" } }
    else
      let prevSession := sessions.dropLast.getLast?
      let hSlope := hourlySlope toFloat lastSession "handle_count_total"
      let mSlope := hourlySlope toFloat lastSession "mem_avail_mb"
      let currentUptime := lastSession.getLast?.bind (uptimeOf toFloat)
      let prevSlope := prevSession.bind (hourlySlope toFloat · "handle_count_total")
      let accelerating := accelerates hSlope prevSlope
      let restores := rebootRestores toFloat prevSession lastSession
      let hits := sessionFactors hSlope mSlope currentUptime
          (pagefileConfirmsPressure toFloat lastSession) ++
        if accelerating then [(10, "утечка дескрипторов ускоряется от сессии к сессии")] else []
      let value := clamp (hits.map (·.1)).sum
      let band := bandForRiskScore (some value)
      let flags := (if accelerating then [Flag.agingAccelerating] else []) ++
        (if restores then [Flag.rebootRestores] else []) ++
        if band = .watch ∨ band = .bad then [Flag.agingLeak] else []
      { score :=
          { value := some value, direction := .higherIsWorse, band := band,
            confidence := if highConfPoints ≤ lastSession.length then .high else .medium,
            factors := hits.map (fun h => hit h.1 h.2) ++
              if restores then
                [{ label := "перезагрузка возвращает ресурс — утечка программная", delta := 0 }]
              else [],
            missingEvidence := [noDamageNote] ++
              (if hSlope.isNone then
                ["наклон дескрипторов не считается (мало точек в сессии)"] else []) ++
              if mSlope.isNone then
                ["наклон свободной памяти не считается (мало точек в сессии)"] else [],
            reason := if 0 < value then "" else "сигналов программного старения не обнаружено" },
        lineage :=
          { sessionPoints := some lastSession.length, sessionsSeen := some sessions.length,
            handlesSlopePerH := hSlope.map round1, memSlopePerH := mSlope.map round1,
            flags := flags } }

/-! ### Borders -/

variable {toFloat}

/-- The uptimes of a series, oldest first. -/
def uptimes (toFloat : ToFloat) (hbSeries : List Row) : List ℚ :=
  hbSeries.reverse.filterMap (uptimeOf toFloat)

theorem splitStep_none {s : SplitState} {row : Row} (h : uptimeOf toFloat row = none) :
    splitStep toFloat s row = s := by
  unfold splitStep
  rw [h]

/-- An uptime that is no drop extends the open session. -/
theorem splitStep_of_le {s : SplitState} {row : Row} {u : ℚ}
    (h : uptimeOf toFloat row = some u) (hle : ∀ p ∈ s.prevUptime, p ≤ u) :
    splitStep toFloat s row = { s with current := s.current ++ [row], prevUptime := some u } := by
  unfold splitStep
  rw [h]
  dsimp only
  rw [if_neg]
  cases hprev : s.prevUptime with
  | none => simp
  | some p =>
    have hple := hle p (by rw [hprev]; rfl)
    simpa using hple

/-- A run of rows whose uptimes never drop stays in the open session. -/
theorem foldl_splitStep (rows : List Row) (s : SplitState)
    (hsorted : (s.prevUptime.toList ++ rows.filterMap (uptimeOf toFloat)).Pairwise (· ≤ ·)) :
    (rows.foldl (splitStep toFloat) s).sessions = s.sessions ∧
      (rows.foldl (splitStep toFloat) s).current =
        s.current ++ rows.filter fun row => (uptimeOf toFloat row).isSome := by
  induction rows generalizing s with
  | nil => simp
  | cons row rows ih =>
    cases hrow : uptimeOf toFloat row with
    | none =>
      rw [List.filterMap_cons_none hrow] at hsorted
      rw [List.foldl_cons, splitStep_none hrow, List.filter_cons_of_neg (by simp [hrow])]
      exact ih s hsorted
    | some u =>
      rw [List.filterMap_cons_some hrow] at hsorted
      obtain ⟨_, hrest, hcross⟩ := List.pairwise_append.mp hsorted
      have hle : ∀ p ∈ s.prevUptime, p ≤ u := fun p hp =>
        hcross p (Option.mem_toList.mpr hp) u List.mem_cons_self
      rw [List.foldl_cons, splitStep_of_le hrow hle, List.filter_cons_of_pos (by simp [hrow])]
      obtain ⟨hsessions, hcurrent⟩ :=
        ih { s with current := s.current ++ [row], prevUptime := some u } hrest
      refine ⟨hsessions, hcurrent.trans ?_⟩
      rw [List.append_assoc, List.singleton_append]

/-- **One session.**  Uptimes that never drop are one session, of the rows that have one. -/
theorem splitSessions_of_sorted {hbSeries : List Row}
    (hsorted : (uptimes toFloat hbSeries).Pairwise (· ≤ ·)) :
    splitSessions toFloat hbSeries =
      if (uptimes toFloat hbSeries).isEmpty then []
      else [hbSeries.reverse.filter fun row => (uptimeOf toFloat row).isSome] := by
  obtain ⟨hsessions, hcurrent⟩ := foldl_splitStep hbSeries.reverse {} hsorted
  have hempty : (hbSeries.reverse.filter fun row =>
      (uptimeOf toFloat row).isSome).isEmpty = (uptimes toFloat hbSeries).isEmpty := by
    rw [Bool.eq_iff_iff, List.isEmpty_iff, List.isEmpty_iff]
    unfold uptimes
    rw [List.filter_eq_nil_iff, List.filterMap_eq_nil_iff]
    apply forall₂_congr
    intro row _
    cases uptimeOf toFloat row <;> simp
  unfold splitSessions SplitState.close
  rw [hsessions, hcurrent, List.nil_append, hempty]
  rfl

/-- Without a previous session there is nothing that a reboot gave back. -/
theorem rebootRestores_none (lastSession : List Row) :
    rebootRestores toFloat none lastSession = false := rfl

/-- One session raises no `reboot_restores`. -/
theorem not_rebootRestores_of_sorted {hbSeries : List Row}
    (hsorted : (uptimes toFloat hbSeries).Pairwise (· ≤ ·)) (deviceTrust : DeviceTrust) :
    Flag.rebootRestores ∉ (computeSoftwareAgingRisk toFloat hbSeries deviceTrust).lineage.flags := by
  have hprev : (splitSessions toFloat hbSeries).dropLast.getLast? = none := by
    rw [splitSessions_of_sorted hsorted]
    split <;> rfl
  unfold computeSoftwareAgingRisk
  split
  · simp
  · simp only [hprev, rebootRestores_none]
    split
    · simp
    · simp only [Bool.false_eq_true, if_false, List.append_nil]
      split_ifs <;> simp

end Engine

end Srp.Analytics.SoftwareAging
