/-
  Srp/Pipeline/GateLeak.lean
  ==========================
  **What a recompute tells about a gate-failed reading.**

  The day-1 scores and the storage engine withhold what the gate of the storage
  domain failed, but the trends are computed from the rows as they are: the wear
  of the newest row is a point of the wear trend, and the pre-pass picks the disk
  whose series is fetched.  Two storage lists are hidden exactly when they agree
  on both (`storage_hides_iff`).  The free space is a point of its trend itself,
  so no two readings of it are hidden (`freeSpace_hides_iff`).
-/
import Srp.Analytics.HealthWithheld
import Srp.Analytics.StorageOverflow
import Srp.Analytics.TrendSteps
import Srp.Lib.Disclosure
import Srp.Pipeline.Device

namespace Srp.Pipeline

open Srp.Analytics Srp.Analytics.Health Srp.Analytics.OsDegradation Srp.Analytics.NetworkRisk
  Srp.Analytics.SoftwareAging Srp.Analytics.Trends
open Srp.Analytics.Storage
open Srp.Lib.Disclosure Srp.Lib.PyJson Srp.Lib.PyNum Srp.Scoring Srp.Shared Srp.Trust

/-! ### What is seen of a recompute -/

/-- The day-1 scores, the trajectory, and the verdict without its explanations. -/
structure Outcome where
  performance : Option ℚ
  reliability : Option ℚ
  wear : Option ℚ
  riskExposure : Option ℚ
  trajectory : Option ℚ
  state : State
  index : Option ℚ
  band : ScoreBand
  horizonDays : Option Nat
deriving DecidableEq, Repr

namespace DeviceRows

def Scores.outcome (s : Scores) : Outcome where
  performance := s.performance
  reliability := s.reliability
  wear := s.wear
  riskExposure := s.riskExposure
  trajectory := s.trajectory.score.value
  state := s.health.state
  index := s.health.index
  band := s.health.band
  horizonDays := s.health.horizonDays

/-- The device with this newest historical row. -/
abbrev withNewest (d : DeviceRows) (row : HistoricalRow) (rest : List HistoricalRow) :
    DeviceRows := { d with historical := row :: rest }

/-- The newest historical row with another storage list. -/
def withStorage (d : DeviceRows) (storage : List StorageReliability) : DeviceRows :=
  match d.historical with
  | [] => d
  | row :: rest => d.withNewest { row with storage := storage } rest

/-- The newest heartbeat with another free space. -/
def withFreeSpace (d : DeviceRows) (free : Option ℚ) : DeviceRows :=
  match d.heartbeats with
  | [] => d
  | row :: rest => { d with heartbeats := { row with freeSpacePct := free } :: rest }

/-- The identity is not untrusted, and the stored trust marks the domain unknown. -/
structure GateFailed (d : DeviceRows) (domain : DomainName) : Prop where
  identity : d.deviceTrust = .ok
  domain : d.domainState domain = some .unknown

section Observe

variable (fl : ℚ → ℚ) (floatText : ℚ → FloatText) (toFloat : ToFloat)

def observe (d : DeviceRows) : Except PyError (Option Outcome) :=
  (d.recomputeScores fl floatText toFloat).map fun scores => scores.map Scores.outcome

/-- A recompute behind the failed gate of the storage domain. -/
def storageRun (d : { d : DeviceRows // d.GateFailed .storage ∧ d.historical ≠ [] })
    (storage : List StorageReliability) : Except PyError (Option Outcome) :=
  (d.1.withStorage storage).observe fl floatText toFloat

/-- A recompute behind the failed gate of the disk-fill domain. -/
def freeSpaceRun (d : { d : DeviceRows // d.GateFailed .diskFill ∧ d.heartbeats ≠ [] })
    (free : Option ℚ) : Except PyError (Option Outcome) :=
  (d.1.withFreeSpace free).observe fl floatText toFloat

variable {fl floatText toFloat}

theorem observe_ok_iff {d : DeviceRows} (hrows : d.hasRows = true) {o : Option Outcome} :
    d.observe fl floatText toFloat = .ok o ↔
      ∃ p, d.Computes fl p ∧ o = some (d.scoresOf floatText toFloat p).outcome := by
  unfold observe
  constructor
  · intro h
    obtain ⟨r, hr⟩ := map_ok_iff.mp ⟨o, h⟩
    obtain ⟨p, hp, rfl⟩ := (recomputeScores_ok_iff hrows).mp hr
    rw [hr] at h
    exact ⟨p, hp, (Except.ok.inj h).symm⟩
  · rintro ⟨p, hp, rfl⟩
    rw [(recomputeScores_ok_iff hrows).mpr ⟨p, hp, rfl⟩]
    rfl

end Observe

/-! ### The reads of the storage list -/

/-- What the ungated reads take from the newest storage list: the wear of the trend, and the
    disk whose series is fetched. -/
structure UngatedReads where
  wear : Except PyError (Option ℚ)
  worstKey : Except PyError (Option String)
deriving DecidableEq

def ungatedReads (fl : ℚ → ℚ) (storage : List StorageReliability) : UngatedReads where
  wear := maxStorageWear storage
  worstKey := worstDiskKey fl (some { storage := storage })

/-- Every integer that the scoring of the disks reads is a float: else nothing is scored. -/
def Scorable (storage : List StorageReliability) : Prop :=
  ∀ disk ∈ storage, hasSmart disk = true ∨ HasKey disk → Readable disk

section Storage

variable {fl : ℚ → ℚ} {d : DeviceRows} {s t : List StorageReliability}

theorem withStorage_eq (row : HistoricalRow) (rest : List HistoricalRow)
    (h : d.historical = row :: rest) :
    d.withStorage s = d.withNewest { row with storage := s } rest := by
  unfold withStorage
  rw [h]

/-! ### Equal reads hide the list -/

theorem day1_withStorage {row : HistoricalRow} {rest : List HistoricalRow}
    (hgate : d.GateFailed .storage) :
    (d.withNewest { row with storage := s } rest).day1 =
      (d.withNewest { row with storage := t } rest).day1 := by
  have hfailed : gateFailed (d.domainState .storage) = true := by rw [hgate.domain]; rfl
  have hblank : ∀ storage, (d.withNewest { row with storage := storage } rest).day1Hist =
      { row.toHistoricalPayload with storage := [] } := by
    intro storage
    unfold day1Hist
    exact if_pos hfailed
  unfold day1
  rw [hblank s, hblank t]
  rfl

theorem diskSeries_withStorage {row : HistoricalRow} {rest : List HistoricalRow}
    (hreads : ungatedReads fl s = ungatedReads fl t) :
    (d.withNewest { row with storage := s } rest).diskSeries fl =
      (d.withNewest { row with storage := t } rest).diskSeries fl := by
  have hkey := congrArg UngatedReads.worstKey hreads
  exact congrArg (·.map (·.map d.getDiskSeries)) hkey

theorem trends_withStorage {row : HistoricalRow} {rest : List HistoricalRow}
    (hreads : ungatedReads fl s = ungatedReads fl t) (series : Option (List DiskReading)) :
    (d.withNewest { row with storage := s } rest).trends series =
      (d.withNewest { row with storage := t } rest).trends series := by
  have hwear : maxStorageWear s = maxStorageWear t := congrArg UngatedReads.wear hreads
  unfold trends computeTrends
  exact congrArg (· >>= _) (deviceTrends_head rfl hwear rfl rfl)

/-- Behind the failed gate the storage engine withholds its axis. -/
theorem Computes.withheld {p : Parts} (hp : d.Computes fl p) (hgate : d.GateFailed .storage) :
    Withheld (some (storageAxis p.storage)) := by
  rcases computeStorageRisk_cases hp.storage with ⟨_, hvalue, hdisk⟩ | ⟨hshow, _⟩
  · exact ⟨_, rfl, hvalue, hdisk⟩
  · exact absurd hgate.domain hshow.2

/-- **Equal reads, equal outcomes.**  The lists may differ in every other field. -/
theorem outcome_of_reads {row : HistoricalRow} {rest : List HistoricalRow} {p q : Parts}
    {floatText : ℚ → FloatText} {toFloat : ToFloat} (hgate : d.GateFailed .storage)
    (hreads : ungatedReads fl s = ungatedReads fl t)
    (hp : (d.withNewest { row with storage := s } rest).Computes fl p)
    (hq : (d.withNewest { row with storage := t } rest).Computes fl q) :
    ((d.withNewest { row with storage := s } rest).scoresOf
        floatText toFloat p).outcome =
      ((d.withNewest { row with storage := t } rest).scoresOf
        floatText toFloat q).outcome := by
  have hwithheld := hp.withheld ⟨hgate.identity, hgate.domain⟩
  have hwithheld' := hq.withheld ⟨hgate.identity, hgate.domain⟩
  have hday1 : p.day1 = q.day1 :=
    Except.ok.inj (hp.day1.symm.trans ((day1_withStorage hgate).trans hq.day1))
  have hseries : p.series = q.series :=
    Except.ok.inj (hp.series.symm.trans ((diskSeries_withStorage hreads).trans hq.series))
  have htrends : p.trends = q.trends := by
    have hstep := @trends_withStorage fl d s t row rest hreads p.series
    rw [hp.trends, hseries, hq.trends] at hstep
    exact Except.ok.inj hstep
  have hos : p.os = q.os := Except.ok.inj (hp.os.symm.trans hq.os)
  have hnetwork : p.network = q.network := Except.ok.inj (hp.network.symm.trans hq.network)
  obtain ⟨day1, series, trends, os, network, storage⟩ := p
  obtain ⟨day1', series', trends', os', network', storage'⟩ := q
  obtain rfl : day1 = day1' := hday1
  obtain rfl : series = series' := hseries
  obtain rfl : trends = trends' := htrends
  obtain rfl : os = os' := hos
  obtain rfl : network = network' := hnetwork
  have hsame : SameButWithheld
      ((d.withNewest { row with storage := s } rest).verdictInputs
        floatText toFloat ⟨day1, series, trends, os, network, storage⟩)
      ((d.withNewest { row with storage := t } rest).verdictInputs
        floatText toFloat ⟨day1, series, trends, os, network, storage'⟩) := {
    trends := rfl
    errchain := rfl
    cohort := rfl
    others := by
      intro name hname
      cases name <;> first | rfl | exact absurd rfl hname
    left := hwithheld
    right := hwithheld'
  }
  unfold Scores.outcome
  simp only [Outcome.mk.injEq]
  refine ⟨rfl, rfl, rfl, rfl, rfl, ?_, ?_, ?_, ?_⟩
  · exact hsame.state d.prevHealth
  · exact hsame.index d.prevHealth
  · exact hsame.band d.prevHealth
  · exact hsame.horizonDays d.prevHealth

end Storage

/-! ### A device that tells two lists apart -/

/-- An older row, whose only disk reports a wear. -/
def olderRow (w : Option ℚ) (us : Int) : HistoricalRow :=
  { storage := [{ wearPct := w }], whenUs := some us }

def storageUnknown : Trust :=
  { domains := fun name => if name = .storage then some .unknown else none }

/-- Two older rows of one wear, and the series of the disks. -/
def storageProbe (w : Option ℚ) (series : String → List DiskReading) : DeviceRows :=
  { historical := [{ whenUs := some 2000000 }, olderRow w 1000000, olderRow w 0],
    diskReadings := series, trust := some storageUnknown }

theorem storageProbe_gate (w : Option ℚ) (series : String → List DiskReading) :
    (storageProbe w series).GateFailed .storage := ⟨rfl, rfl⟩

/-- A series whose spare recovers. -/
def spareSeries : List DiskReading :=
  [{ nvmeSparePct := some 30, whenUs := some 2000000 },
   { nvmeSparePct := some 20, whenUs := some 1000000 },
   { nvmeSparePct := some 10, whenUs := some 0 }]

theorem spareSeries_readable (fl : ℚ → ℚ) (disk : StorageReliability) : SeriesReadable fl disk spareSeries := by
  constructor
  · intro _
    cases htarget : isTargetDisk disk spareSeries with
    | false => exact ⟨false, by unfold tempSustainedHigh; rw [htarget]; rfl⟩
    | true => exact ⟨false, by unfold tempSustainedHigh; rw [htarget]; rfl⟩
  · intro _
    exact ⟨false, rfl⟩

/-- The recompute of a probe completes when the list can be scored. -/
theorem storageProbe_computes {fl : ℚ → ℚ} {w : Option ℚ} {series : String → List DiskReading}
    {s : List StorageReliability} {key : Option String} {trends : Trends} (hs : Scorable s)
    (hkey : worstDiskKey fl (some { storage := s }) = .ok key)
    (hseries : key.map (fun k => (series k).take trendHistoryLimit) = none ∨
      key.map (fun k => (series k).take trendHistoryLimit) = some [] ∨
      key.map (fun k => (series k).take trendHistoryLimit) = some spareSeries)
    (htrends : ((storageProbe w series).withStorage s).trends
      (key.map fun k => (series k).take trendHistoryLimit) = .ok trends) :
    ∃ p, ((storageProbe w series).withStorage s).Computes fl p ∧ p.trends = trends := by
  have hread : ∀ disk, SeriesReadable fl disk
      ((key.map fun k => (series k).take trendHistoryLimit).getD []) := by
    intro disk
    rcases hseries with h | h | h <;> rw [h]
    · exact SeriesReadable.nil disk
    · exact SeriesReadable.nil disk
    · exact spareSeries_readable fl disk
  obtain ⟨day1, hday1⟩ : ∃ v, ((storageProbe w series).withStorage s).day1 = .ok v := ⟨_, rfl⟩
  obtain ⟨os, hos⟩ : ∃ v, computeOsDegradationRisk
      (some { storage := s }) .ok none = .ok v := ⟨_, rfl⟩
  obtain ⟨network, hnetwork⟩ : ∃ v, computeNetworkRisk
      (some { storage := s }) .ok none = .ok v := ⟨_, rfl⟩
  let fetched := key.map fun k => (series k).take trendHistoryLimit
  let ctx : Context :=
    { diskSeries := fetched.getD [], chain := some {}, trends := trends }
  obtain ⟨storage, hstorage⟩ : ∃ score, computeStorageRisk fl (some { storage := s }) ctx .ok
      (some .unknown) = .ok score := by
    apply computeStorageRisk_ok_iff.mpr
    intro disk hdisk hsmart
    exact ⟨hs disk hdisk (Or.inl hsmart), hread disk⟩
  refine ⟨⟨day1, fetched, trends, os, network, storage⟩, ?_, rfl⟩
  exact {
    day1 := hday1
    series := congrArg (·.map (·.map fun k => (series k).take trendHistoryLimit)) hkey
    trends := htrends
    os := hos
    network := hnetwork
    storage := hstorage
  }

/-- The rows of a probe. -/
def probeRows (w : Option ℚ) (s : List StorageReliability) : List HistoricalRow :=
  [{ storage := s, whenUs := some 2000000 }, olderRow w 1000000, olderRow w 0]

/-- Only the wear trend of a probe has points. -/
def probeTrends (wear : TrendResult) : DeviceTrends where
  storageWear := wear
  diskFill := noTrend
  bootTime := noTrend
  throttle := noTrend
  gatewayLatency := noTrend
  diskTailRatio := noTrend

theorem probe_deviceTrends {w : Option ℚ} {s : List StorageReliability} {wear : TrendResult}
    (h : buildTrend (·.whenUs) (probeRows w s) (maxStorageWear ·.storage) storageWearSpec 0 =
      .ok wear) : deviceTrends (probeRows w s) [] 0 = .ok (probeTrends wear) := by
  have hboot : ∀ row ∈ probeRows w s, Storage.num row.avgBootMs = .ok none := by
    simp [probeRows, olderRow, Storage.num]
  have hgateway : ∀ row ∈ probeRows w s,
      (.ok (gatewayLatencyMs row) : Except PyError (Option ℚ)) = .ok none := by
    simp [probeRows, olderRow, gatewayLatencyMs]
  unfold deviceTrends
  rw [h, ok_bind, buildTrend_empty (by simp), ok_bind, buildTrend_empty hboot, ok_bind,
    buildTrend_empty (by simp), ok_bind, buildTrend_empty hgateway, ok_bind,
    buildTrend_empty (by simp), ok_bind]
  rfl

/-- `u` is no reading, or a lower one than `v`. -/
def Below (u v : Option ℚ) : Prop := ∃ b, v = some b ∧ ∀ a, u = some a → a < b

theorem below_or_below {u v : Option ℚ} (h : u ≠ v) : Below u v ∨ Below v u := by
  cases u with
  | none =>
    cases v with
    | none => exact absurd rfl h
    | some b => exact Or.inl ⟨b, rfl, fun a ha => by cases ha⟩
  | some a =>
    cases v with
    | none => exact Or.inr ⟨a, rfl, fun b hb => by cases hb⟩
    | some b =>
      rcases lt_trichotomy a b with hlt | heq | hlt
      · exact Or.inl ⟨b, rfl, fun a' ha => by cases ha; exact hlt⟩
      · exact absurd (congrArg some heq) h
      · exact Or.inr ⟨a, rfl, fun b' hb => by cases hb; exact hlt⟩

theorem probe_flatRows {x : ℚ} {s : List StorageReliability} :
    FlatRows (·.whenUs) (maxStorageWear ·.storage)
      ({ storage := s, whenUs := some 2000000 } : HistoricalRow) (olderRow (some x) 1000000)
      (olderRow (some x) 0) 2000000 x := ⟨rfl, rfl, rfl, by decide, rfl, rfl⟩

/-- A wear that fell by ten is a usable trend, and one that fell by more is a new disk. -/
theorem probe_wear {s : List StorageReliability} {w : Option ℚ} {b : ℚ}
    (hs : maxStorageWear s = .ok w) :
    (w = some b → ∃ t, buildTrend (·.whenUs) (probeRows (some (b + 10)) s)
      (maxStorageWear ·.storage) storageWearSpec 0 = .ok t ∧ isUsable t = true ∧
        projected t = none) ∧
    ((∀ a, w = some a → a < b) → ∃ t, buildTrend (·.whenUs) (probeRows (some (b + 10)) s)
      (maxStorageWear ·.storage) storageWearSpec 0 = .ok t ∧ isUsable t = false) := by
  have hrows := @probe_flatRows (b + 10) s
  constructor
  · rintro rfl
    unfold probeRows
    rw [hrows.buildTrend_three hs]
    apply trendOf_notWorse (by norm_num) (by norm_num)
    · intro _
      simp [isReset, storageWearSpec, resetStep]
    · simp only [stepSlope, storageWearSpec, secondsPerDay]
      norm_num
  · intro hbelow
    unfold probeRows
    cases w with
    | none =>
      rw [hrows.buildTrend_two hs]
      exact trendOf_short (by simp [minPoints])
    | some a =>
      rw [hrows.buildTrend_three hs]
      apply trendOf_reset rfl
      have hlt : a < b := hbelow a rfl
      apply decide_eq_true
      simp only [storageWearSpec, resetStep]
      linarith

/-- A list that can be scored gives the ungated reads a value. -/
theorem Scorable.reads (fl : ℚ → ℚ) {s : List StorageReliability} (hs : Scorable s) :
    (∃ w, maxStorageWear s = .ok w) ∧ ∃ key, worstDiskKey fl (some { storage := s }) = .ok key := by
  constructor
  · apply map_ok_iff.mpr
    apply (mapM_ok_iff s).mpr
    intro disk hdisk
    have hfits : Fits disk.nvmePercentageUsed := by
      cases hused : disk.nvmePercentageUsed with
      | none =>
        intro n hn
        cases hn
      | some n =>
        have hread := hs disk hdisk (Or.inl (by simp [hasSmart, hused]))
        rw [← hused]
        exact hread _ (by simp [scoredInts])
    unfold diskWearLevel
    rw [num_of_fits hfits]
    exact ⟨_, rfl⟩
  · apply worstDiskKey_ok_iff.mpr
    intro disk hdisk hkey
    exact hs disk hdisk (Or.inr hkey)

section Tells

variable {fl : ℚ → ℚ} {floatText : ℚ → FloatText} {toFloat : ToFloat}

/-- What is seen of a completed probe. -/
theorem observe_probe {w : Option ℚ} {series : String → List DiskReading}
    {s : List StorageReliability} {p : Parts}
    (hp : ((storageProbe w series).withStorage s).Computes fl p) :
    ∃ o, ((storageProbe w series).withStorage s).observe fl floatText toFloat = .ok (some o) ∧
      o.trajectory = trajectoryValue p.trends := by
  refine ⟨_, (observe_ok_iff rfl).mpr ⟨p, hp, rfl⟩, ?_⟩
  exact trajectoryRiskScore_value p.trends

/-- Two completed probes with different trajectories tell the lists apart. -/
theorem tells_of_probes {w : Option ℚ} {series : String → List DiskReading}
    {s t : List StorageReliability} {p q : Parts}
    (hp : ((storageProbe w series).withStorage s).Computes fl p)
    (hq : ((storageProbe w series).withStorage t).Computes fl q)
    (hne : trajectoryValue p.trends ≠ trajectoryValue q.trends) :
    Tells (storageRun fl floatText toFloat) s t := by
  obtain ⟨o, ho, htraj⟩ := @observe_probe fl floatText toFloat w series s p hp
  obtain ⟨o', ho', htraj'⟩ := @observe_probe fl floatText toFloat w series t q hq
  refine ⟨⟨storageProbe w series, storageProbe_gate w series, by simp [storageProbe]⟩, some o,
    some o', ho, ho', ?_⟩
  intro heq
  apply hne
  rw [← htraj, ← htraj', Option.some.inj heq]

/-- The trends of a probe, with the trends of the fetched series. -/
theorem probe_trends {w : Option ℚ} {series : String → List DiskReading}
    {s : List StorageReliability} {wear : TrendResult} {fetched : Option (List DiskReading)}
    (hwear : buildTrend (·.whenUs) (probeRows w s) (maxStorageWear ·.storage) storageWearSpec 0 =
      .ok wear) :
    (fetched.getD [] = [] → ((storageProbe w series).withStorage s).trends fetched =
      .ok (trendMap (probeTrends wear) none)) ∧
    (∀ disk, fetched = some spareSeries → diskTrends spareSeries 0 = .ok disk →
      ((storageProbe w series).withStorage s).trends fetched =
        .ok (trendMap (probeTrends wear) (some disk))) := by
  have hdevice : deviceTrends ((storageProbe w series).withStorage s).histSeries
      ((storageProbe w series).withStorage s).hbSeries 0 = .ok (probeTrends wear) :=
    probe_deviceTrends hwear
  constructor
  · intro hempty
    unfold trends computeTrends
    change deviceTrends _ _ 0 >>= _ = _
    rw [hdevice, ok_bind, hempty]
    rfl
  · rintro disk rfl hdisk
    unfold trends computeTrends
    change deviceTrends _ _ 0 >>= _ = _
    rw [hdevice, ok_bind]
    change diskTrends spareSeries 0 >>= _ = _
    rw [hdisk, ok_bind]
    rfl

theorem usableTrends_probe (wear : TrendResult) (disk : Option DiskTrends) :
    usableTrends (trendMap (probeTrends wear) disk) =
      (if isUsable wear then [("storage_wear", wear)] else []) ++
        ((disk.map fun t => ("nvme_spare", t.nvmeSpare)).toList).filter fun p => isUsable p.2 := by
  rw [usableTrends_trendMap]
  cases husable : isUsable wear <;> simp [probeTrends, husable]

/-- A higher wear reading is told from a lower one, or from none. -/
theorem tells_wear {s t : List StorageReliability} {u v : Option ℚ} (hs : Scorable s)
    (ht : Scorable t) (hu : maxStorageWear s = .ok u) (hv : maxStorageWear t = .ok v)
    (hbelow : Below v u) : Tells (storageRun fl floatText toFloat) s t := by
  obtain ⟨b, hub, hvb⟩ := hbelow
  obtain ⟨_, key, hkey⟩ := hs.reads fl
  obtain ⟨_, key', hkey'⟩ := ht.reads fl
  obtain ⟨wear, hwear, husable, hproj⟩ := (probe_wear (b := b) hu).1 hub
  obtain ⟨wear', hwear', husable'⟩ := (probe_wear (b := b) hv).2 hvb
  let series : String → List DiskReading := fun _ => []
  have hfetched : ∀ k : Option String,
      (k.map fun k => (series k).take trendHistoryLimit).getD [] = [] := by
    intro k
    cases k <;> rfl
  have hnone : ∀ k : Option String, k.map (fun k => (series k).take trendHistoryLimit) = none ∨
      k.map (fun k => (series k).take trendHistoryLimit) = some [] ∨
      k.map (fun k => (series k).take trendHistoryLimit) = some spareSeries := by
    intro k
    cases k with
    | none => exact Or.inl rfl
    | some k => exact Or.inr (Or.inl rfl)
  obtain ⟨p, hp, hptrends⟩ :=
    storageProbe_computes hs hkey (hnone key) ((probe_trends hwear).1 (hfetched key))
  obtain ⟨q, hq, hqtrends⟩ :=
    storageProbe_computes ht hkey' (hnone key') ((probe_trends hwear').1 (hfetched key'))
  apply tells_of_probes hp hq
  have hlist : usableTrends p.trends = [("storage_wear", wear)] := by
    rw [hptrends, usableTrends_probe, if_pos husable]
    rfl
  have hlist' : usableTrends q.trends = [] := by
    rw [hqtrends, usableTrends_probe, if_neg (by simp [husable'])]
    rfl
  rw [trajectoryValue_single hlist, trajectoryValue_none hlist']
  simp

/-- The recovering spare is a usable trend. -/
theorem spareSeries_trends : ∃ disk, diskTrends spareSeries 0 = .ok disk ∧
    isUsable disk.nvmeSpare = true ∧ projected disk.nvmeSpare = none := by
  have hrun : ((diskTrends spareSeries 0).toOption.map fun disk =>
      (isUsable disk.nvmeSpare, projected disk.nvmeSpare)) = some (true, none) := by
    decide +kernel
  obtain ⟨disk, hdisk, hvals⟩ := Option.map_eq_some_iff.mp hrun
  obtain ⟨husable, hproj⟩ := Prod.mk.inj hvals
  exact ⟨disk, toOption_eq_some.mp hdisk, husable, hproj⟩

/-- A picked disk is told from another one, or from none. -/
theorem tells_key {s t : List StorageReliability} {k : String} {key : Option String}
    (hs : Scorable s) (ht : Scorable t)
    (hsome : worstDiskKey fl (some { storage := s }) = .ok (some k))
    (hother : worstDiskKey fl (some { storage := t }) = .ok key) (hne : key ≠ some k) :
    Tells (storageRun fl floatText toFloat) s t := by
  obtain ⟨⟨u, hu⟩, _⟩ := hs.reads fl
  obtain ⟨⟨v, hv⟩, _⟩ := ht.reads fl
  have hold : ∀ row ∈ [olderRow none 1000000, olderRow none 0],
      maxStorageWear row.storage = .ok none := by
    intro row hrow
    simp only [List.mem_cons, List.not_mem_nil, or_false] at hrow
    rcases hrow with rfl | rfl <;> rfl
  obtain ⟨wear, hwear, hunusable⟩ := @buildTrend_newestOnly HistoricalRow (·.whenUs)
    (maxStorageWear ·.storage) { storage := s, whenUs := some 2000000 } _ storageWearSpec 0 u hu
    hold
  obtain ⟨wear', hwear', hunusable'⟩ := @buildTrend_newestOnly HistoricalRow (·.whenUs)
    (maxStorageWear ·.storage) { storage := t, whenUs := some 2000000 } _ storageWearSpec 0 v hv
    hold
  obtain ⟨disk, hdisk, husable, hproj⟩ := spareSeries_trends
  -- only the disk that the first list picks has a series
  let series : String → List DiskReading := fun key => if key = k then spareSeries else []
  have hfetched : (some k).map (fun k => (series k).take trendHistoryLimit) = some spareSeries := by
    simp only [Option.map_some, series, if_true]
    rfl
  have hnone : key.map (fun k => (series k).take trendHistoryLimit) = none ∨
      key.map (fun k => (series k).take trendHistoryLimit) = some [] := by
    cases key with
    | none => exact Or.inl rfl
    | some k' =>
      have hk : ¬ k' = k := fun h => hne (congrArg some h)
      exact Or.inr (by simp [series, hk])
  have hempty : (key.map fun k => (series k).take trendHistoryLimit).getD [] = [] := by
    rcases hnone with h | h <;> rw [h] <;> rfl
  obtain ⟨p, hp, hptrends⟩ := storageProbe_computes hs hsome (Or.inr (Or.inr hfetched))
    ((probe_trends hwear).2 disk hfetched hdisk)
  obtain ⟨q, hq, hqtrends⟩ := storageProbe_computes ht hother
    (hnone.elim Or.inl fun h => Or.inr (Or.inl h)) ((probe_trends hwear').1 hempty)
  apply tells_of_probes hp hq
  have hlist : usableTrends p.trends = [("nvme_spare", disk.nvmeSpare)] := by
    rw [hptrends, usableTrends_probe, if_neg (by simp [hunusable])]
    simp [husable]
  have hlist' : usableTrends q.trends = [] := by
    rw [hqtrends, usableTrends_probe, if_neg (by simp [hunusable'])]
    rfl
  rw [trajectoryValue_single hlist, trajectoryValue_none hlist']
  simp

/-- **What the storage list tells.**  Behind the failed gate the recompute tells the wear of the
    newest row and the disk that the pre-pass picks, and nothing else. -/
theorem storage_discloses :
    Discloses (storageRun fl floatText toFloat) Scorable (ungatedReads fl) := {
  stuck := by
    rintro ⟨d, hgate, hrow⟩ s o ho
    cases hhist : d.historical with
    | nil => exact absurd hhist hrow
    | cons row rest =>
      unfold storageRun at ho
      rw [withStorage_eq row rest hhist] at ho
      have hrows : (d.withNewest { row with storage := s } rest).hasRows = true := by
        simp [hasRows]
      obtain ⟨p, hp, _⟩ := (observe_ok_iff hrows).mp ho
      have hstorage := hp.storage
      rw [show (d.withNewest { row with storage := s } rest).deviceTrust = .ok from hgate.identity]
        at hstorage
      have hseries := hp.series
      intro disk hdisk hread
      rcases hread with hsmart | hkey
      · exact (computeStorageRisk_ok_iff.mp ⟨_, hstorage⟩ disk hdisk hsmart).1
      · obtain ⟨key, hok⟩ := map_ok_iff.mp ⟨_, hseries⟩
        exact worstDiskKey_ok_iff.mp ⟨key, hok⟩ disk hdisk hkey
  hidden := by
    rintro s t hreads ⟨d, hgate, hrow⟩ a b ha hb
    cases hhist : d.historical with
    | nil => exact absurd hhist hrow
    | cons row rest =>
      unfold storageRun at ha hb
      rw [withStorage_eq row rest hhist] at ha hb
      have hrows : ∀ storage, (d.withNewest { row with storage := storage } rest).hasRows =
          true := by
        intro storage
        simp [hasRows]
      obtain ⟨p, hp, rfl⟩ := (observe_ok_iff (hrows s)).mp ha
      obtain ⟨q, hq, rfl⟩ := (observe_ok_iff (hrows t)).mp hb
      rw [outcome_of_reads hgate hreads hp hq]
  told := by
    intro s t hs ht hne
    obtain ⟨⟨u, hu⟩, key, hkey⟩ := hs.reads fl
    obtain ⟨⟨v, hv⟩, key', hkey'⟩ := ht.reads fl
    by_cases hwear : u = v
    · have hkeys : key ≠ key' := by
        rintro rfl
        apply hne
        unfold ungatedReads
        rw [hu, hv, hkey, hkey', hwear]
      cases key with
      | some k => exact tells_key hs ht hkey hkey' fun h => hkeys h.symm
      | none =>
        cases key' with
        | none => exact absurd rfl hkeys
        | some k => exact (tells_key ht hs hkey' hkey hkeys).symm
    · rcases below_or_below hwear with hbelow | hbelow
      · exact (tells_wear ht hs hv hu hbelow).symm
      · exact tells_wear hs ht hu hv hbelow
}

/-! ### The free space is told -/

def diskFillUnknown : Trust :=
  { domains := fun name => if name = .diskFill then some .unknown else none }

/-- Two older heartbeats of one free space, at the seconds 0 and 1. -/
def fillProbe (x : ℚ) (us : Int) : DeviceRows :=
  { heartbeats := [{ whenUs := some us }, { freeSpacePct := some x, whenUs := some 1000000 },
      { freeSpacePct := some x, whenUs := some 0 }]
    trust := some diskFillUnknown }

theorem fillProbe_gate (x : ℚ) (us : Int) : (fillProbe x us).GateFailed .diskFill := ⟨rfl, rfl⟩

def fillRows (x : ℚ) (us : Int) (free : Option ℚ) : List HeartbeatRow :=
  [{ freeSpacePct := free, whenUs := some us }, { freeSpacePct := some x, whenUs := some 1000000 },
   { freeSpacePct := some x, whenUs := some 0 }]

theorem fillProbe_flatRows {x : ℚ} {us : Int} {free : Option ℚ} (hus : 1000000 < us) :
    FlatRows (·.whenUs) (.ok ·.freeSpacePct)
      ({ freeSpacePct := free, whenUs := some us } : HeartbeatRow)
      { freeSpacePct := some x, whenUs := some 1000000 }
      { freeSpacePct := some x, whenUs := some 0 } us x := ⟨rfl, rfl, rfl, hus, rfl, rfl⟩

/-- The trend of the free space, as the recompute of a probe builds it. -/
def fillTrend (x : ℚ) (us : Int) (free : Option ℚ) : Except PyError TrendResult :=
  buildTrend (·.whenUs) (fillRows x us free) (.ok ·.freeSpacePct) diskFillSpec 0

/-- A completed probe shows the risk of its free-space trend. -/
theorem observe_fillProbe {x : ℚ} {us : Int} {free : Option ℚ} {fill : TrendResult}
    (h : fillTrend x us free = .ok fill) :
    ∃ o, ((fillProbe x us).withFreeSpace free).observe fl floatText toFloat = .ok (some o) ∧
      o.trajectory =
        if isUsable fill then some (((projected fill).map etaToRisk).getD 0) else none := by
  let device : DeviceTrends :=
    { storageWear := noTrend, diskFill := fill, bootTime := noTrend, throttle := noTrend,
      gatewayLatency := noTrend, diskTailRatio := noTrend }
  have hthrottle : ∀ row ∈ fillRows x us free,
      (.ok row.cpuPerfPct : Except PyError (Option ℚ)) = .ok none := by
    simp [fillRows]
  have htail : ∀ row ∈ fillRows x us free,
      (.ok (diskTailRatio row) : Except PyError (Option ℚ)) = .ok none := by
    simp [fillRows, diskTailRatio]
  have hdevice : deviceTrends [] (fillRows x us free) 0 = .ok device := by
    unfold fillTrend at h
    unfold deviceTrends
    rw [buildTrend_empty (by simp), ok_bind, h, ok_bind, buildTrend_empty (by simp), ok_bind,
      buildTrend_empty hthrottle, ok_bind, buildTrend_empty (by simp), ok_bind,
      buildTrend_empty htail, ok_bind]
    rfl
  have htrends : ((fillProbe x us).withFreeSpace free).trends none =
      .ok (trendMap device none) := by
    unfold trends computeTrends
    change deviceTrends [] (fillRows x us free) 0 >>= _ = _
    rw [hdevice, ok_bind]
    rfl
  obtain ⟨day1, hday1⟩ : ∃ v, ((fillProbe x us).withFreeSpace free).day1 = .ok v := ⟨_, rfl⟩
  obtain ⟨os, hos⟩ : ∃ v, computeOsDegradationRisk none .ok none = .ok v := ⟨_, rfl⟩
  obtain ⟨network, hnetwork⟩ : ∃ v, computeNetworkRisk none .ok none = .ok v := ⟨_, rfl⟩
  let ctx : Context :=
    { heartbeat := ((fillProbe x us).withFreeSpace free).hb, chain := some {},
      trends := trendMap device none }
  obtain ⟨storage, hstorage⟩ : ∃ v, computeStorageRisk fl none ctx .ok none = .ok v := ⟨_, rfl⟩
  have hcomputes : ((fillProbe x us).withFreeSpace free).Computes fl
      ⟨day1, none, trendMap device none, os, network, storage⟩ := {
    day1 := hday1
    series := rfl
    trends := htrends
    os := hos
    network := hnetwork
    storage := hstorage
  }
  refine ⟨_, (observe_ok_iff rfl).mpr ⟨_, hcomputes, rfl⟩, ?_⟩
  have hvalue : (trajectoryRiskScore (trendMap device none) .ok).score.value = _ :=
    trajectoryRiskScore_value _
  refine hvalue.trans ?_
  have hlist : usableTrends (trendMap device none) =
      if isUsable fill then [("disk_fill", fill)] else [] := by
    rw [usableTrends_trendMap]
    cases husable : isUsable fill <;> simp [device, husable]
  cases husable : isUsable fill with
  | true =>
    rw [if_pos husable] at hlist
    rw [trajectoryValue_single hlist, if_pos rfl]
  | false =>
    rw [if_neg (by simp [husable])] at hlist
    rw [trajectoryValue_none hlist]
    rfl

/-- Without the newest reading there is no trend. -/
theorem fillTrend_none {x : ℚ} {us : Int} (hus : 1000000 < us) :
    ∃ t, fillTrend x us none = .ok t ∧ isUsable t = false := by
  unfold fillTrend fillRows
  rw [(fillProbe_flatRows hus).buildTrend_two rfl]
  exact trendOf_short (by simp [minPoints])

/-- Free space that does not fall is not projected. -/
theorem fillTrend_notWorse {x w : ℚ} {us : Int} (hus : 1000000 < us) (h : x ≤ w) :
    ∃ t, fillTrend x us (some w) = .ok t ∧ isUsable t = true ∧ projected t = none := by
  have hlate : (1 : ℚ) < (us : ℚ) / 1000000 := by
    rw [lt_div_iff₀ (by norm_num)]
    exact_mod_cast (by simpa using hus)
  unfold fillTrend fillRows
  rw [(fillProbe_flatRows hus).buildTrend_three rfl]
  apply trendOf_notWorse (by norm_num) hlate
  · intro hanchor
    cases hanchor
  · have hrise : 0 ≤ (w - x) / ((us : ℚ) / 1000000 - 0) :=
      div_nonneg (by linarith) (by linarith)
    simp only [stepSlope, diskFillSpec, secondsPerDay]
    linarith

/-- Free space that has run out while falling is projected to now. -/
theorem fillTrend_empty {x w : ℚ} (h : w < x) (hempty : w ≤ 0) :
    ∃ t, fillTrend x 2000000 (some w) = .ok t ∧ isUsable t = true ∧ projected t = some 0 := by
  unfold fillTrend fillRows
  rw [(fillProbe_flatRows (by norm_num)).buildTrend_three rfl]
  apply trendOf_worse (by norm_num) (by norm_num)
  · intro hanchor
    cases hanchor
  · simp only [stepSlope, diskFillSpec, secondsPerDay]
    norm_num
    linarith
  · simp [etaOf, diskFillSpec, crossed, hempty]
  · exact ⟨_, if_pos (by decide +kernel)⟩

/-- Free space that falls from `x` to `w` in `n` days is projected to `w * n / (x - w)` days. -/
theorem fillTrend_falls {x w : ℚ} {n : Nat} (hn : 0 < n) (hw : 0 < w) (h : w < x)
    (hsoon : w * n / (x - w) ≤ 90) :
    ∃ t, fillTrend x (n * 86400 * 1000000) (some w) = .ok t ∧ isUsable t = true ∧
      projected t = some (w * n / (x - w)) := by
  have hnq : (1 : ℚ) ≤ n := by exact_mod_cast hn
  have htime : (((n * 86400 * 1000000 : Int)) : ℚ) / 1000000 = n * 86400 := by
    push_cast
    ring
  have hfall : 0 < x - w := sub_pos.mpr h
  have hslope : stepSlope 0 ((n : ℚ) * 86400) x w = -((x - w) / n) := by
    unfold stepSlope secondsPerDay
    field_simp
    ring
  unfold fillTrend fillRows
  rw [(fillProbe_flatRows (by omega)).buildTrend_three rfl, htime]
  apply trendOf_worse (by norm_num) (by linarith)
  · intro hanchor
    cases hanchor
  · rw [hslope]
    have : 0 < (x - w) / n := by positivity
    simp only [diskFillSpec]
    linarith
  · rw [hslope]
    have hneg : -((x - w) / (n : ℚ)) ≠ 0 := by
      apply neg_ne_zero.mpr
      positivity
    have hdays : (0 - w) / -((x - w) / (n : ℚ)) = w * n / (x - w) := by
      field_simp
      ring
    have hpos : 0 < w * n / (x - w) := by positivity
    simp only [etaOf, diskFillSpec, Option.bind_some, crossed, etaDaysToThreshold, hneg, if_false,
      hdays, hpos, if_true]
    rw [if_neg]
    simp [not_le.mpr hw]
  · have hus : roundHalfEven (w * n / (x - w) * 86400 * 1000000) ≤ 90 * 86400 * 1000000 := by
      have hle : w * n / (x - w) * 86400 * 1000000 ≤ ((90 * 86400 * 1000000 : Int) : ℚ) := by
        push_cast
        linarith
      exact (roundHalfEven_mono hle).trans_eq (roundHalfEven_intCast _)
    refine ⟨_, if_pos ?_⟩
    unfold endOfTimeUs
    omega

/-- Two free-space trends with different risks tell the readings apart. -/
theorem tells_of_fillTrends {x : ℚ} {us : Int} {u v : Option ℚ} {fill fill' : TrendResult}
    (hu : fillTrend x us u = .ok fill) (hv : fillTrend x us v = .ok fill')
    (hne : (if isUsable fill then some (((projected fill).map etaToRisk).getD 0) else none) ≠
      (if isUsable fill' then some (((projected fill').map etaToRisk).getD 0) else none)) :
    Tells (freeSpaceRun fl floatText toFloat) u v := by
  obtain ⟨o, ho, htraj⟩ := @observe_fillProbe fl floatText toFloat x us u fill hu
  obtain ⟨o', ho', htraj'⟩ := @observe_fillProbe fl floatText toFloat x us v fill' hv
  refine ⟨⟨fillProbe x us, fillProbe_gate x us, by simp [fillProbe]⟩, some o, some o', ho, ho', ?_⟩
  intro heq
  apply hne
  rw [← htraj, ← htraj', Option.some.inj heq]

theorem tells_freeSpace {u v : Option ℚ} (hbelow : Below u v) :
    Tells (freeSpaceRun fl floatText toFloat) u v := by
  obtain ⟨b, rfl, hlow⟩ := hbelow
  cases u with
  | none =>
    obtain ⟨fill, hfill, husable⟩ := @fillTrend_none b 2000000 (by norm_num)
    obtain ⟨fill', hfill', husable', hproj'⟩ :=
      @fillTrend_notWorse b b 2000000 (by norm_num) le_rfl
    apply tells_of_fillTrends hfill hfill'
    simp [husable, husable']
  | some a =>
    have hab : a < b := hlow a rfl
    rcases le_or_gt a 0 with hempty | hpos
    · obtain ⟨fill, hfill, husable, hproj⟩ := fillTrend_empty hab hempty
      obtain ⟨fill', hfill', husable', hproj'⟩ :=
        @fillTrend_notWorse b b 2000000 (by norm_num) le_rfl
      apply tells_of_fillTrends hfill hfill'
      rw [husable, husable', hproj, hproj']
      decide +kernel
    · -- the older readings are chosen so that `a` is projected to 30 days exactly
      rcases le_or_gt (2 * a) b with hfar | hnear
      · have heta : a * (30 : Nat) / (2 * a - a) = 30 := by
          field_simp
          ring
        obtain ⟨fill, hfill, husable, hproj⟩ := @fillTrend_falls (2 * a) a 30 (by norm_num) hpos
          (by linarith) (by rw [heta]; norm_num)
        obtain ⟨fill', hfill', husable', hproj'⟩ :=
          @fillTrend_notWorse (2 * a) b ((30 : Nat) * 86400 * 1000000) (by norm_num) hfar
        apply tells_of_fillTrends hfill hfill'
        rw [husable, husable', hproj, hproj', heta]
        decide +kernel
      · have heta : a * (90 : Nat) / (4 * a - a) = 30 := by
          field_simp
          ring
        have hgap : 0 < 4 * a - b := by linarith
        have hlate : 30 < b * (90 : Nat) / (4 * a - b) := by
          rw [lt_div_iff₀ hgap]
          push_cast
          linarith
        have hsoon : b * (90 : Nat) / (4 * a - b) ≤ 90 := by
          rw [div_le_iff₀ hgap]
          push_cast
          linarith
        obtain ⟨fill, hfill, husable, hproj⟩ := @fillTrend_falls (4 * a) a 90 (by norm_num) hpos
          (by linarith) (by rw [heta]; norm_num)
        obtain ⟨fill', hfill', husable', hproj'⟩ := @fillTrend_falls (4 * a) b 90 (by norm_num)
          (hpos.trans hab) (by linarith) hsoon
        apply tells_of_fillTrends hfill hfill'
        have hrisk : etaToRisk (b * (90 : Nat) / (4 * a - b)) = 60 := by
          unfold etaToRisk etaRiskBands
          rw [List.find?_cons_of_neg (by simpa using hlate),
            List.find?_cons_of_pos (by simpa using hsoon)]
          rfl
        rw [husable, husable', hproj, hproj', heta, Option.map_some, Option.map_some, hrisk]
        decide +kernel

/-- **Every free-space reading is told.**  The gate of the disk-fill domain hides none. -/
theorem freeSpace_discloses :
    Discloses (freeSpaceRun fl floatText toFloat) (fun _ => True) (fun free => free) := {
  stuck := fun _ _ _ _ => trivial
  hidden := by
    rintro u v rfl c
    exact Agree.refl _
  told := by
    intro u v _ _ hne
    rcases below_or_below hne with h | h
    · exact tells_freeSpace h
    · exact (tells_freeSpace h).symm
}

end Tells

private def worn (w : ℚ) : StorageReliability := { disk := some "0", wearPct := some w }

private def days (n : Nat) : Int := n * 86400 * 1000000

private def wearingDevice : DeviceRows :=
  { historical := [{ whenUs := some (days 2) }, { storage := [worn 70], whenUs := some (days 1) },
      { storage := [worn 60], whenUs := some (days 0) }]
    trust := some storageUnknown }

private def fillingDevice : DeviceRows :=
  { heartbeats := [{ whenUs := some (days 2) }, { freeSpacePct := some 30, whenUs := some (days 1) },
      { freeSpacePct := some 40, whenUs := some (days 0) }]
    trust := some diskFillUnknown }

private def zeroText : FloatText := ⟨"0.0".toList, by decide⟩

/-- The trajectory and the horizon that are seen. -/
private def seen (run : Except PyError (Option Outcome)) : Option (Option ℚ × Option Nat) :=
  (run.toOption.bind id).map fun o => (o.trajectory, o.horizonDays)

private theorem seen_eq_some {run : Except PyError (Option Outcome)} {v : Option ℚ × Option Nat}
    (h : seen run = some v) : ∃ o, run = .ok (some o) ∧ (o.trajectory, o.horizonDays) = v := by
  obtain ⟨o, ho, hv⟩ := Option.map_eq_some_iff.mp h
  obtain ⟨r, hr, rfl⟩ := Option.bind_eq_some_iff.mp ho
  exact ⟨o, toOption_eq_some.mp hr, hv⟩

private theorem told_of_seen {κ σ : Type} {run : κ → σ → Except PyError (Option Outcome)} {c : κ}
    {s t : σ} {v v' : Option ℚ × Option Nat} (hs : seen (run c s) = some v)
    (ht : seen (run c t) = some v') (hne : v ≠ v') : ¬ Hides run s t := by
  obtain ⟨o, ho, hv⟩ := seen_eq_some hs
  obtain ⟨o', ho', hv'⟩ := seen_eq_some ht
  intro hides
  apply hne
  rw [← hv, ← hv', Option.some.inj (hides c _ _ ho ho')]

end DeviceRows

end Srp.Pipeline
