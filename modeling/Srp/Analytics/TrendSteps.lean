/-
  Srp/Analytics/TrendSteps.lean
  =============================
  **A flat history and one more reading.**

  Two equal readings and a third one are the smallest trend.  Its slope is that
  of the third reading over the whole time, so the reading alone decides whether
  there is a trend, whether it worsens, and when it crosses the boundary.
-/
import Srp.Analytics.Trends

namespace Srp.Analytics.Trends

open Srp.Lib.PyNum Srp.Scoring Srp.Shared

/-! ### A flat history and one more point -/

/-- The slope of two equal readings and a third one. -/
theorem theilSenSlope_flat {t₀ t₁ t₂ x w : ℚ} (h₀ : t₀ < t₁) (h₁ : t₁ < t₂) :
    theilSenSlope [(t₀, x), (t₁, x), (t₂, w)] =
      some ((w - x) / (t₂ - t₀) * secondsPerDay) := by
  have hpairs : pairSlopes [(t₀, x), (t₁, x), (t₂, w)] =
      [0, (w - x) / (t₂ - t₀), (w - x) / (t₂ - t₁)] := by
    simp [pairSlopes, slopesFrom, sub_pos, h₀, h₁, h₀.trans h₁]
  -- the slope over the whole time lies between the other two
  have hmedian : median [0, (w - x) / (t₂ - t₀), (w - x) / (t₂ - t₁)] =
      (w - x) / (t₂ - t₀) := by
    have hpos₀ : 0 < t₂ - t₀ := sub_pos.mpr (h₀.trans h₁)
    have hpos₁ : 0 < t₂ - t₁ := sub_pos.mpr h₁
    have hshort : t₂ - t₁ ≤ t₂ - t₀ := by linarith
    rcases le_total x w with hle | hle
    · have hrise : 0 ≤ w - x := sub_nonneg.mpr hle
      have h1 : 0 ≤ (w - x) / (t₂ - t₀) := div_nonneg hrise hpos₀.le
      have h2 : (w - x) / (t₂ - t₀) ≤ (w - x) / (t₂ - t₁) :=
        div_le_div_of_nonneg_left hrise hpos₁ hshort
      simp [median, medianWith, List.insertionSort, h1, h2]
    · have hfall : 0 ≤ x - w := sub_nonneg.mpr hle
      have h1 : (w - x) / (t₂ - t₀) ≤ 0 := div_nonpos_of_nonpos_of_nonneg (by linarith) hpos₀.le
      have h2 : (w - x) / (t₂ - t₁) ≤ (w - x) / (t₂ - t₀) := by
        have h := div_le_div_of_nonneg_left hfall hpos₁ hshort
        rw [← neg_sub x w, neg_div, neg_div]
        linarith
      rcases h1.eq_or_lt with heq | hlt
      · have hzero : w - x = 0 := by
          rcases div_eq_zero_iff.mp heq with h | h
          · exact h
          · exact absurd h hpos₀.ne'
        simp [median, medianWith, List.insertionSort, hzero]
      · rcases h2.eq_or_lt with heq2 | hlt2
        · simp [median, medianWith, List.insertionSort, heq2, not_le.mpr hlt]
        · simp [median, medianWith, List.insertionSort, not_le.mpr hlt, not_le.mpr hlt2, not_le.mpr (hlt2.trans hlt)]
  simp only [theilSenSlope, hpairs, hmedian, List.cons_ne_nil, if_false]

/-- A metric that no row reports. -/
def noTrend : TrendResult := { nPoints := 0, direction := .insufficient }

@[simp] theorem isUsable_noTrend : isUsable noTrend = false := rfl

theorem mapM_pointOf_none {α : Type} {whenUs : α → Option Int} {extract : Extractor α}
    {series : List α} (h : ∀ row ∈ series, extract row = .ok none) :
    series.mapM (pointOf whenUs extract) = .ok (.replicate series.length none) := by
  induction series with
  | nil => rfl
  | cons row rest ih =>
    have hrow : pointOf whenUs extract row = .ok none := by
      unfold pointOf
      rw [h row List.mem_cons_self]
      cases whenUs row <;> rfl
    rw [List.mapM_cons, hrow, ok_bind, ih fun r hr => h r (List.mem_cons_of_mem row hr)]
    rfl

/-- A series whose rows do not report the metric has no point. -/
theorem buildTrend_empty {α : Type} {whenUs : α → Option Int} {extract : Extractor α}
    {series : List α} {spec : TrendSpec} {now : Int} (h : ∀ row ∈ series, extract row = .ok none) :
    buildTrend whenUs series extract spec now = .ok noTrend := by
  unfold buildTrend toPoints
  rw [mapM_pointOf_none h]
  simp only [Except.map, ok_bind, List.reduceOption_replicate_none, List.insertionSort_nil]
  cases hanchor : spec.anchorResets <;> simp [trendOf, hanchor, anchorRecentSegment, lastReset,
    minPoints, noTrend]

section ThreeRows

variable {α : Type} {whenUs : α → Option Int} {extract : Extractor α} {newest middle oldest : α}
  {us : Int} {x w : ℚ} {spec : TrendSpec} {now : Int}

/-- Three rows at the seconds 0, 1 and later, of which the newest may report nothing. -/
structure FlatRows (whenUs : α → Option Int) (extract : Extractor α) (newest middle oldest : α)
    (us : Int) (x : ℚ) : Prop where
  newestTime : whenUs newest = some us
  middleTime : whenUs middle = some 1000000
  oldestTime : whenUs oldest = some 0
  after : 1000000 < us
  middleValue : extract middle = .ok (some x)
  oldestValue : extract oldest = .ok (some x)

theorem FlatRows.buildTrend_three (h : FlatRows whenUs extract newest middle oldest us x)
    (hw : extract newest = .ok (some w)) :
    buildTrend whenUs [newest, middle, oldest] extract spec now =
      trendOf spec now [(0, x), (1, x), ((us : ℚ) / 1000000, w)] := by
  have hlate : (1 : ℚ) < (us : ℚ) / 1000000 := by
    rw [lt_div_iff₀ (by norm_num)]
    exact_mod_cast (by simpa using h.after)
  have h1 : ¬ (us : ℚ) / 1000000 ≤ 1 := not_le.mpr hlate
  have h0 : ¬ (us : ℚ) / 1000000 ≤ 0 := not_le.mpr (by linarith)
  have hpoints : [newest, middle, oldest].mapM (pointOf whenUs extract) =
      .ok [some ((us : ℚ) / 1000000, w), some (1, x), some (0, x)] := by
    simp [List.mapM_cons, pointOf, h.newestTime, h.middleTime, h.oldestTime, hw, h.middleValue,
      h.oldestValue, Except.map, ok_bind, pure, Except.pure]
  unfold buildTrend toPoints
  rw [hpoints]
  simp [Except.map, ok_bind, List.reduceOption, List.insertionSort, h1, h0,
    not_le.mpr (zero_lt_one : (0 : ℚ) < 1)]

theorem FlatRows.buildTrend_two (h : FlatRows whenUs extract newest middle oldest us x)
    (hnone : extract newest = .ok none) :
    buildTrend whenUs [newest, middle, oldest] extract spec now =
      trendOf spec now [(0, x), (1, x)] := by
  have hpoints : [newest, middle, oldest].mapM (pointOf whenUs extract) =
      .ok [none, some (1, x), some (0, x)] := by
    simp [List.mapM_cons, pointOf, h.newestTime, h.middleTime, h.oldestTime, hnone, h.middleValue,
      h.oldestValue, Except.map, ok_bind, pure, Except.pure]
  unfold buildTrend toPoints
  rw [hpoints]
  simp [Except.map, ok_bind, List.reduceOption, List.insertionSort,
    not_le.mpr (zero_lt_one : (0 : ℚ) < 1)]

end ThreeRows

theorem lastReset_length {sign : ℚ} {points segment : List Point}
    (h : lastReset sign points = some segment) : segment.length ≤ points.length := by
  induction points generalizing segment with
  | nil => cases h
  | cons p rest ih =>
    cases rest with
    | nil => cases h
    | cons q rest =>
      unfold lastReset at h
      cases hlater : lastReset sign (q :: rest) with
      | some later =>
        rw [hlater] at h
        obtain rfl := Option.some.inj h
        exact (ih hlater).trans (Nat.le_succ _)
      | none =>
        simp only [hlater] at h
        split at h
        · obtain rfl := Option.some.inj h
          exact Nat.le_succ _
        · cases h

/-- Fewer than three readings are no trend. -/
theorem trendOf_short {spec : TrendSpec} {now : Int} {points : List Point}
    (h : points.length < minPoints) :
    ∃ t, trendOf spec now points = .ok t ∧ isUsable t = false := by
  have hshort : (if spec.anchorResets then anchorRecentSegment spec.sign points
      else points).length < minPoints := by
    split
    · unfold anchorRecentSegment
      cases hreset : lastReset spec.sign points with
      | none => exact h
      | some segment => exact lt_of_le_of_lt (lastReset_length hreset) h
    · exact h
  unfold trendOf
  simp only [hshort, if_true]
  exact ⟨_, rfl, rfl⟩

/-- A series of which only the newest row can report the metric is no trend. -/
theorem buildTrend_newestOnly {α : Type} {whenUs : α → Option Int} {extract : Extractor α}
    {newest : α} {rest : List α} {spec : TrendSpec} {now : Int} {v : Option ℚ}
    (hnewest : extract newest = .ok v) (hrest : ∀ row ∈ rest, extract row = .ok none) :
    ∃ t, buildTrend whenUs (newest :: rest) extract spec now = .ok t ∧ isUsable t = false := by
  obtain ⟨point, hpoint⟩ : ∃ p, pointOf whenUs extract newest = .ok p := by
    unfold pointOf
    cases whenUs newest with
    | none => exact ⟨none, rfl⟩
    | some us => exact ⟨_, by rw [hnewest]; rfl⟩
  have hshort : ((point :: List.replicate rest.length none).reduceOption.insertionSort
      fun p q : Point => p.1 ≤ q.1).length < minPoints := by
    rw [List.length_insertionSort]
    cases point <;> simp [minPoints]
  obtain ⟨t, ht, husable⟩ := @trendOf_short spec now _ hshort
  refine ⟨t, ?_, husable⟩
  unfold buildTrend toPoints
  rw [List.mapM_cons, hpoint, ok_bind, mapM_pointOf_none hrest, ok_bind]
  exact ht

/-- The point after a reset stands alone. -/
theorem trendOf_reset {spec : TrendSpec} {now : Int} {p q r : Point}
    (hanchor : spec.anchorResets = true) (hreset : isReset spec.sign q r = true) :
    ∃ t, trendOf spec now [p, q, r] = .ok t ∧ isUsable t = false := by
  unfold trendOf
  simp only [hanchor, if_true, anchorRecentSegment, lastReset, hreset, Option.getD_some,
    List.length_singleton]
  exact ⟨_, rfl, rfl⟩

section Slope

variable {spec : TrendSpec} {now : Int} {t₀ t₁ t₂ x w : ℚ}

/-- The points of a flat history and one more point, when that point is no reset. -/
theorem anchor_flat (hreset : spec.anchorResets = true →
      isReset spec.sign (t₁, x) (t₂, w) = false) :
    (if spec.anchorResets then anchorRecentSegment spec.sign [(t₀, x), (t₁, x), (t₂, w)]
      else [(t₀, x), (t₁, x), (t₂, w)]) = [(t₀, x), (t₁, x), (t₂, w)] := by
  have hflat : isReset spec.sign (t₀, x) (t₁, x) = false := by
    simp [isReset, resetStep]
  cases hanchor : spec.anchorResets with
  | false => rfl
  | true => simp [anchorRecentSegment, lastReset, hreset hanchor, hflat]

/-- The slope that a third reading gives a flat history. -/
def stepSlope (t₀ t₂ x w : ℚ) : ℚ := (w - x) / (t₂ - t₀) * secondsPerDay

theorem trendOf_notWorse (h₀ : t₀ < t₁) (h₁ : t₁ < t₂)
    (hreset : spec.anchorResets = true → isReset spec.sign (t₁, x) (t₂, w) = false)
    (hbetter : ¬ 0 < stepSlope t₀ t₂ x w * spec.sign) :
    ∃ t, trendOf spec now [(t₀, x), (t₁, x), (t₂, w)] = .ok t ∧ isUsable t = true ∧
      projected t = none := by
  have hslope : theilSenSlope [(t₀, x), (t₁, x), (t₂, w)] = some (stepSlope t₀ t₂ x w) :=
    theilSenSlope_flat h₀ h₁
  refine ⟨{ nPoints := 3, current := some w, slopePerDay := some (stepSlope t₀ t₂ x w),
            direction := if stepSlope t₀ t₂ x w * spec.sign < 0 then .improving else .flat },
    ?_, ?_, ?_⟩
  · unfold trendOf
    simp only [anchor_flat hreset]
    simp [minPoints, hslope, acceleration, highConfPoints, hbetter]
  · unfold isUsable
    split_ifs <;> rfl
  · unfold projected
    split_ifs <;> rfl

theorem trendOf_worse {eta : ℚ} (h₀ : t₀ < t₁) (h₁ : t₁ < t₂)
    (hreset : spec.anchorResets = true → isReset spec.sign (t₁, x) (t₂, w) = false)
    (hworse : 0 < stepSlope t₀ t₂ x w * spec.sign)
    (heta : etaOf spec w (stepSlope t₀ t₂ x w) = some eta)
    (hdate : ∃ us, targetDate now eta = .ok us) :
    ∃ t, trendOf spec now [(t₀, x), (t₁, x), (t₂, w)] = .ok t ∧ isUsable t = true ∧
      projected t = some eta := by
  have hslope : theilSenSlope [(t₀, x), (t₁, x), (t₂, w)] = some (stepSlope t₀ t₂ x w) :=
    theilSenSlope_flat h₀ h₁
  obtain ⟨us, hus⟩ := hdate
  refine ⟨{ nPoints := 3, current := some w, slopePerDay := some (stepSlope t₀ t₂ x w),
            etaDays := some eta, direction := .worsening }, ?_, rfl, rfl⟩
  unfold trendOf
  simp only [anchor_flat hreset]
  simp [minPoints, hslope, acceleration, highConfPoints, hworse, heta, hus, Except.map]

end Slope

/-! ### What the trajectory says -/

theorem usableTrends_trendMap (device : DeviceTrends) (disk : Option DiskTrends) :
    usableTrends (trendMap device disk) =
      ([("storage_wear", device.storageWear), ("disk_fill", device.diskFill)] ++
        (disk.map fun t => ("nvme_spare", t.nvmeSpare)).toList).filter fun p => isUsable p.2 := by
  cases disk with
  | none =>
    cases h1 : isUsable device.storageWear <;> cases h2 : isUsable device.diskFill <;>
      simp [usableTrends, depletionDomains, trendMap, Option.filter, h1, h2]
  | some t =>
    cases h1 : isUsable device.storageWear <;> cases h2 : isUsable device.diskFill <;>
      cases h3 : isUsable t.nvmeSpare <;>
      simp [usableTrends, depletionDomains, trendMap, Option.filter, h1, h2, h3]

/-- Without a usable trend the trajectory is withheld. -/
theorem trajectoryValue_none {trends : Trends} (h : usableTrends trends = []) :
    trajectoryValue trends = none := if_pos h

/-- With one usable trend the trajectory is the risk of its crossing. -/
theorem trajectoryValue_single {trends : Trends} {name : String} {t : TrendResult}
    (h : usableTrends trends = [(name, t)]) :
    trajectoryValue trends = some (((projected t).map etaToRisk).getD 0) := by
  unfold trajectoryValue soonestEta
  rw [h, if_neg (by simp)]
  cases hp : projected t <;> simp [hp]

end Srp.Analytics.Trends
