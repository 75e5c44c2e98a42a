/-
  Srp/Analytics/TrendRobust.lean
  ==============================
  **One corrupt reading does not bend a trend** (`theil_sen_slope` and
  `build_trend` of `server/analytics/trends.py`).

  Of the pairwise slopes of `n` readings on a line, `n - 1` involve a given
  reading.  From five readings on they are the minority, so that the median is
  the slope of the line.  What the trend does with that slope can still raise:
  the date on which a slow metric crosses its boundary need not be a date.
-/
import Mathlib.Data.Nat.Choose.Basic
import Srp.Analytics.Trends
import Srp.Lib.Median

namespace Srp.Analytics.Trends

open Srp.Lib.PyNum Srp.Scoring Srp.Shared

/-! ### Counting slopes -/

/-- Later readings are later in time. -/
abbrev Increasing (points : List Point) : Prop := points.Pairwise fun p q => p.1 < q.1

/-- A line with the slope `m` a day. -/
def OnLine (m c : ℚ) (p : Point) : Prop := p.2 = c + m * (p.1 / secondsPerDay)

theorem slopesFrom_eq_map {p : Point} {later : List Point} (h : ∀ q ∈ later, p.1 < q.1) :
    slopesFrom p later = later.map fun q => (q.2 - p.2) / (q.1 - p.1) := by
  unfold slopesFrom
  rw [← List.filterMap_eq_map]
  apply List.filterMap_congr
  intro q hq
  rw [if_pos (sub_pos.mpr (h q hq))]
  rfl

theorem choose_two_succ (n : Nat) : (n + 1).choose 2 = n + n.choose 2 := by
  rw [Nat.choose_succ_succ', Nat.choose_one_right]

theorem length_pairSlopes {points : List Point} (h : Increasing points) :
    (pairSlopes points).length = points.length.choose 2 := by
  induction points with
  | nil => rfl
  | cons p later ih =>
    obtain ⟨hfirst, hlater⟩ := List.pairwise_cons.mp h
    rw [pairSlopes, List.length_append, ih hlater, slopesFrom_eq_map hfirst, List.length_map,
      List.length_cons, choose_two_succ]

theorem slope_of_onLine {m c : ℚ} {p q : Point} (hp : OnLine m c p) (hq : OnLine m c q)
    (hlt : p.1 < q.1) : (q.2 - p.2) / (q.1 - p.1) = m / secondsPerDay := by
  have hne : q.1 - p.1 ≠ 0 := (sub_pos.mpr hlt).ne'
  have hday : secondsPerDay ≠ 0 := by decide
  rw [hp, hq]
  field_simp
  ring

/-- The slopes to the readings on the line, from one that is on it. -/
theorem count_slopesFrom {m c : ℚ} {p : Point} {later online : List Point} (hp : OnLine m c p)
    (h : ∀ q ∈ later, p.1 < q.1) (hsub : online.Sublist later)
    (honline : ∀ q ∈ online, OnLine m c q) :
    online.length ≤ (slopesFrom p later).count (m / secondsPerDay) := by
  have hall : online.map (fun q => (q.2 - p.2) / (q.1 - p.1)) =
      List.replicate online.length (m / secondsPerDay) := by
    rw [List.eq_replicate_iff]
    refine ⟨List.length_map _, ?_⟩
    intro slope hslope
    obtain ⟨q, hq, rfl⟩ := List.mem_map.mp hslope
    exact slope_of_onLine hp (honline q hq) (h q (hsub.subset hq))
  rw [slopesFrom_eq_map h]
  have hcount := (hsub.map fun q : Point => (q.2 - p.2) / (q.1 - p.1)).count_le (m / secondsPerDay)
  rwa [hall, List.count_replicate_self] at hcount

theorem count_pairSlopes_onLine {m c : ℚ} {points : List Point} (h : Increasing points)
    (honline : ∀ p ∈ points, OnLine m c p) :
    points.length.choose 2 ≤ (pairSlopes points).count (m / secondsPerDay) := by
  induction points with
  | nil => exact Nat.zero_le _
  | cons p later ih =>
    obtain ⟨hfirst, hlater⟩ := List.pairwise_cons.mp h
    have hrest : ∀ q ∈ later, OnLine m c q := fun q hq => honline q (List.mem_cons_of_mem p hq)
    have hfrom := count_slopesFrom (honline p List.mem_cons_self) hfirst (List.Sublist.refl later)
      hrest
    have hpairs := ih hlater hrest
    rw [pairSlopes, List.count_append, List.length_cons, choose_two_succ]
    omega

/-- The slopes among the readings on the line, with one more reading anywhere between them. -/
theorem count_pairSlopes {m c : ℚ} {before after : List Point} {bad : Point}
    (h : Increasing (before ++ bad :: after)) (honline : ∀ p ∈ before ++ after, OnLine m c p) :
    (before ++ after).length.choose 2 ≤
      (pairSlopes (before ++ bad :: after)).count (m / secondsPerDay) := by
  induction before with
  | nil =>
    have hafter := count_pairSlopes_onLine (List.pairwise_cons.mp h).2 honline
    rw [List.nil_append, List.nil_append, pairSlopes, List.count_append]
    omega
  | cons p before ih =>
    rw [List.cons_append] at h
    obtain ⟨hfirst, hlater⟩ := List.pairwise_cons.mp h
    have hrest : ∀ q ∈ before ++ after, OnLine m c q :=
      fun q hq => honline q (List.mem_cons_of_mem p hq)
    have hsub : (before ++ after).Sublist (before ++ bad :: after) :=
      List.Sublist.append_left (List.sublist_cons_self bad after) before
    have hfrom := count_slopesFrom (honline p List.mem_cons_self) hfirst hsub hrest
    have hpairs := ih hlater hrest
    rw [List.cons_append, List.cons_append, pairSlopes, List.count_append, List.length_cons,
      choose_two_succ]
    omega

/-- Without one of five or more readings, most of the pairs are left. -/
theorem choose_two_lt {n : Nat} (hn : 4 ≤ n) : (n + 1).choose 2 < 2 * n.choose 2 := by
  induction n, hn using Nat.le_induction with
  | base => decide
  | succ n hn ih =>
    have h := choose_two_succ n
    have h' := choose_two_succ (n + 1)
    omega

/-! ### The slope -/

/-- All readings but one lie on a line. -/
structure OneCorrupt (m c : ℚ) (points : List Point) (bad : Point) : Prop where
  enough : 5 ≤ points.length
  distinct : (points.map Prod.fst).Nodup
  mem : bad ∈ points
  onLine : ∀ p ∈ points, p ≠ bad → OnLine m c p

theorem increasing_of_sorted {points : List Point} (hsorted : points.Pairwise fun p q => p.1 ≤ q.1)
    (hdistinct : (points.map Prod.fst).Nodup) : Increasing points := by
  have hne : points.Pairwise fun p q => p.1 ≠ q.1 := List.pairwise_map.mp hdistinct
  exact (hsorted.and hne).imp fun h => lt_of_le_of_ne h.1 h.2

/-- **The slope of the line is the median.** -/
theorem theilSenSlope_of_oneCorrupt {m c : ℚ} {points : List Point} {bad : Point}
    (h : OneCorrupt m c points bad) (hsorted : points.Pairwise fun p q => p.1 ≤ q.1) :
    theilSenSlope points = some m := by
  have hinc := increasing_of_sorted hsorted h.distinct
  obtain ⟨before, after, rfl⟩ := List.append_of_mem h.mem
  have hne : ∀ p ∈ before ++ after, p ≠ bad := by
    rintro p hp rfl
    have hnodup := h.distinct.of_map
    rw [List.nodup_middle] at hnodup
    exact (List.nodup_cons.mp hnodup).1 hp
  have honline : ∀ p ∈ before ++ after, OnLine m c p := by
    intro p hp
    apply h.onLine p _ (hne p hp)
    rw [List.mem_append] at hp ⊢
    exact hp.imp id (List.mem_cons_of_mem bad)
  have hlength : (before ++ bad :: after).length = (before ++ after).length + 1 := by
    simp only [List.length_append, List.length_cons]
    omega
  have henough : 4 ≤ (before ++ after).length := by
    have h5 := h.enough
    omega
  have hmost := choose_two_lt henough
  have hcount := count_pairSlopes hinc honline
  have htotal := length_pairSlopes hinc
  rw [hlength] at htotal
  have hmajority : (pairSlopes (before ++ bad :: after)).length <
      2 * (pairSlopes (before ++ bad :: after)).count (m / secondsPerDay) := by omega
  have hmedian := median_of_count hmajority
  have hsome : pairSlopes (before ++ bad :: after) ≠ [] := by
    intro hnil
    simp [hnil] at hmajority
  have hday : secondsPerDay ≠ 0 := by decide
  unfold theilSenSlope
  rw [if_neg hsome, hmedian, div_mul_cancel₀ m hday]

/-! ### The trend -/

theorem sorted_toPoints {α : Type} {whenUs : α → Option Int} {extract : Extractor α}
    {series : List α} {points : List Point} (h : toPoints whenUs extract series = .ok points) :
    points.Pairwise fun p q => p.1 ≤ q.1 := by
  unfold toPoints at h
  cases hfound : series.mapM (pointOf whenUs extract) with
  | error e =>
    rw [hfound] at h
    cases h
  | ok found =>
    rw [hfound] at h
    cases h
    exact List.pairwise_insertionSort _ _

/-- The day on which a metric with this slope crosses its boundary, if it does, is a date. -/
def CrossingIsADate (spec : TrendSpec) (now : Int) (points : List Point) (m : ℚ) : Prop :=
  0 < m * spec.sign → ∀ current ∈ points.getLast?.map (·.2), ∀ eta ∈ etaOf spec current m,
    now + roundHalfEven (eta * 86400 * 1000000) < endOfTimeUs

section Trend

variable {spec : TrendSpec} {now : Int} {points : List Point} {m last : ℚ}

/-- The trend of readings that worsen by `m` a day. -/
def worseningTrend (spec : TrendSpec) (points : List Point) (m last : ℚ) : TrendResult :=
  { nPoints := points.length, current := some last, slopePerDay := some m,
    etaDays := etaOf spec last m, direction := .worsening,
    accelerating := acceleration spec.sign m points }

/-- The trend of readings that do not worsen. -/
def stableTrend (spec : TrendSpec) (points : List Point) (m last : ℚ) : TrendResult :=
  { nPoints := points.length, current := some last, slopePerDay := some m,
    direction := if m * spec.sign < 0 then .improving else .flat,
    accelerating := acceleration spec.sign m points }

theorem trendOf_of_slope (hanchor : spec.anchorResets = false) (hfew : ¬ points.length < minPoints)
    (hslope : theilSenSlope points = some m)
    (hlast : points.getLast?.map (·.2) = some last) :
    trendOf spec now points =
      if 0 < m * spec.sign then
        match etaOf spec last m with
        | none => .ok (worseningTrend spec points m last)
        | some eta => (targetDate now eta).map fun _ => worseningTrend spec points m last
      else .ok (stableTrend spec points m last) := by
  unfold trendOf
  simp only [hanchor, Bool.false_eq_true, if_false]
  rw [if_neg hfew, hslope, hlast]
  rfl

end Trend

/-- **A trend has the slope of the line, exactly when it does not run past the last date.** -/
theorem slope_robust_iff {α : Type} (whenUs : α → Option Int) (extract : Extractor α)
    (series : List α) (spec : TrendSpec) (hanchor : spec.anchorResets = false) (now : Int)
    (points : List Point) (hpoints : toPoints whenUs extract series = .ok points) (m c : ℚ)
    (bad : Point) (h : OneCorrupt m c points bad) :
    (∃ trend, buildTrend whenUs series extract spec now = .ok trend ∧
      trend.slopePerDay = some m ∧ (m = 0 → trend.direction = .flat ∧ trend.etaDays = none)) ↔
      CrossingIsADate spec now points m := by
  have hslope := theilSenSlope_of_oneCorrupt h (sorted_toPoints hpoints)
  have hne : points ≠ [] := List.ne_nil_of_mem h.mem
  have hcurrent : points.getLast?.map (·.2) = some (points.getLast hne).2 := by
    rw [List.getLast?_eq_some_getLast hne]
    rfl
  have hfew : ¬ points.length < minPoints := by
    have h5 := h.enough
    unfold minPoints
    omega
  have htrend : buildTrend whenUs series extract spec now = trendOf spec now points := by
    unfold buildTrend
    rw [hpoints]
    rfl
  rw [htrend, trendOf_of_slope hanchor hfew hslope hcurrent]
  by_cases hworse : 0 < m * spec.sign
  · have hm : m ≠ 0 := by
      rintro rfl
      simp at hworse
    rw [if_pos hworse]
    simp only [CrossingIsADate, hworse, hcurrent, Option.mem_def, Option.some.injEq, forall_const,
      forall_eq']
    cases heta : etaOf spec (points.getLast hne).2 m with
    | none => simp [worseningTrend, hm]
    | some eta =>
      simp only [targetDate, Option.some.injEq, forall_eq']
      by_cases hdate : now + roundHalfEven (eta * 86400 * 1000000) < endOfTimeUs
      · simp [hdate, Except.map, worseningTrend, hm]
      · simp [hdate, Except.map]
  · rw [if_neg hworse]
    refine iff_of_true ⟨_, rfl, rfl, ?_⟩ fun h => absurd h hworse
    rintro rfl
    simp [stableTrend]

/-- Five readings that stay, the fourth one corrupt. -/
def flatPoints : List Point := [(0, 50), (86400, 50), (172800, 50), (259200, 0), (345600, 50)]

theorem oneCorrupt_flatPoints : OneCorrupt 0 50 flatPoints (259200, 0) where
  enough := by decide
  distinct := by decide +kernel
  mem := by decide +kernel
  onLine := by
    unfold OnLine
    decide +kernel

def rowAt (day : Int) (value : ℚ) : HeartbeatRow :=
  { whenUs := some (day * 86400000000), freeSpacePct := some value }

theorem flat_metric_robust : ∃ trend,
    buildTrend (·.whenUs) [rowAt 4 50, rowAt 3 0, rowAt 2 50, rowAt 1 50, rowAt 0 50]
      (.ok ·.freeSpacePct) diskFillSpec 345600000000 = .ok trend ∧ trend.slopePerDay = some 0 ∧
      ((0 : ℚ) = 0 → trend.direction = .flat ∧ trend.etaDays = none) := by
  refine (slope_robust_iff _ _ _ diskFillSpec rfl _ flatPoints ?_ 0 50 (259200, 0)
    oneCorrupt_flatPoints).mpr ?_
  · decide +kernel
  · intro hworse
    simp at hworse

/-- A disk that fills by a hundred thousandth of a percent a day, the fourth reading corrupt. -/
def slowFill : List HeartbeatRow :=
  [rowAt 4 49.99996, rowAt 3 0, rowAt 2 49.99998, rowAt 1 49.99999, rowAt 0 50]

def slowFillPoints : List Point :=
  [(0, 50), (86400, 49.99999), (172800, 49.99998), (259200, 0), (345600, 49.99996)]

theorem oneCorrupt_slowFill : OneCorrupt (-0.00001) 50 slowFillPoints (259200, 0) where
  enough := by decide
  distinct := by decide +kernel
  mem := by decide +kernel
  onLine := by
    unfold OnLine
    decide +kernel

/-- The disk is full in some thirteen thousand years, and the trend raises. -/
theorem slow_fill_raises :
    toPoints (·.whenUs) (.ok ·.freeSpacePct) slowFill = .ok slowFillPoints ∧
      OneCorrupt (-0.00001) 50 slowFillPoints (259200, 0) ∧
      ¬ ∃ trend, buildTrend (·.whenUs) slowFill (.ok ·.freeSpacePct) diskFillSpec 345600000000 =
        .ok trend ∧ trend.slopePerDay = some (-0.00001) := by
  refine ⟨by decide +kernel, oneCorrupt_slowFill, ?_⟩
  have hraises : buildTrend (·.whenUs) slowFill (.ok ·.freeSpacePct) diskFillSpec 345600000000 =
      .error .overflowError := by decide +kernel
  rw [hraises]
  rintro ⟨trend, htrend, _⟩
  cases htrend

end Srp.Analytics.Trends
