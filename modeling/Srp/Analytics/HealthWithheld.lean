/-
  Srp/Analytics/HealthWithheld.lean
  =================================
  **What a withheld storage axis leaves in the verdict.**

  An axis without a value opens no channel and is never bad, so two verdicts
  whose inputs differ in withheld axes only have the same state, index, band and
  horizon.  The trends are inputs of their own: no axis gates them.
-/
import Srp.Analytics.HealthRatchet

namespace Srp.Analytics.Health

open Srp.Lib.PyNum Srp.Scoring

/-! ### The fields of a verdict -/

theorem computeHealth_index (x : HealthInputs) (prev : Option PrevHealth) :
    (computeHealth x prev).index =
      index (damage x.axes).value
        ((resilience x.axes x.trends).1.value.map fun v => round1 (100 - v)) x.oVal := rfl

theorem computeHealth_band (x : HealthInputs) (prev : Option PrevHealth) :
    (computeHealth x prev).band =
      (reconcile (computeHealth x prev).state (computeHealth x prev).index x.oVal).1 := rfl

theorem computeHealth_horizonDays (x : HealthInputs) (prev : Option PrevHealth) :
    (computeHealth x prev).horizonDays = (horizon (computeHealth x prev).state x.trends).1 := rfl

/-! ### A withheld axis and the verdict -/

/-- A storage axis without a value, about no disk. -/
def Withheld (axis : Option Axis) : Prop :=
  ∃ a, axis = some a ∧ a.value = none ∧ a.sourceLineage.worstDisk = none

/-- The inputs of the verdict differ in a withheld storage axis and in context only. -/
structure SameButWithheld (x y : HealthInputs) : Prop where
  trends : x.trends = y.trends
  errchain : x.errchain = y.errchain
  cohort : x.cohort = y.cohort
  others : ∀ name, name ≠ .storageRisk → x.axes name = y.axes name
  left : Withheld (x.axes .storageRisk)
  right : Withheld (y.axes .storageRisk)

theorem Withheld.axVal {axes : Axes} {name : AxisName} (h : Withheld (axes name)) :
    axVal axes name = none := by
  obtain ⟨a, ha, hvalue, _⟩ := h
  unfold Health.axVal
  rw [ha]
  exact hvalue

theorem Withheld.axisIsBad {axes : Axes} {name : AxisName} (h : Withheld (axes name)) :
    axisIsBad axes name = false := by
  obtain ⟨a, ha, hvalue, _⟩ := h
  unfold Health.axisIsBad
  rw [ha, Option.any_some, hvalue]
  rfl

theorem Withheld.axisChannel {axes : Axes} {name : AxisName} (h : Withheld (axes name))
    (mk : Axis → ℚ → Channel) : axisChannel axes name mk = [] := by
  obtain ⟨a, ha, hvalue, _⟩ := h
  unfold Health.axisChannel
  rw [ha]
  simp only [hvalue]

theorem axisChannel_congr {axes axes' : Axes} {name : AxisName} (h : axes name = axes' name)
    (mk : Axis → ℚ → Channel) : axisChannel axes name mk = axisChannel axes' name mk := by
  unfold Health.axisChannel
  rw [h]

namespace SameButWithheld

variable {x y : HealthInputs}

theorem axVal (h : SameButWithheld x y) : Health.axVal x.axes = Health.axVal y.axes := by
  funext name
  by_cases hname : name = .storageRisk
  · subst hname
    rw [h.left.axVal, h.right.axVal]
  · unfold Health.axVal
    rw [h.others name hname]

theorem axisIsBad (h : SameButWithheld x y) :
    Health.axisIsBad x.axes = Health.axisIsBad y.axes := by
  funext name
  by_cases hname : name = .storageRisk
  · subst hname
    rw [h.left.axisIsBad, h.right.axisIsBad]
  · unfold Health.axisIsBad
    rw [h.others name hname]

theorem damage (h : SameButWithheld x y) : Health.damage x.axes = Health.damage y.axes := by
  have hchannels : damageChannels x.axes = damageChannels y.axes := by
    unfold damageChannels
    rw [h.left.axisChannel, h.right.axisChannel,
      axisChannel_congr (h.others .osDegradationRisk (by decide))]
  unfold Health.damage
  rw [hchannels]

theorem resilience (h : SameButWithheld x y) :
    Health.resilience x.axes x.trends = Health.resilience y.axes y.trends := by
  have hchannels : resilienceChannels x.axes x.trends = resilienceChannels y.axes y.trends := by
    unfold resilienceChannels
    rw [h.left.axisChannel, h.right.axisChannel,
      axisChannel_congr (h.others .softwareAgingRisk (by decide)),
      axisChannel_congr (h.others .trajectoryRisk (by decide))]
  unfold Health.resilience
  rw [hchannels, h.trends]

theorem oVal (h : SameButWithheld x y) : x.oVal = y.oVal := by
  unfold HealthInputs.oVal observability observabilityChannels
  rw [h.axVal, h.trends, h.errchain, h.cohort]

theorem allFlags (h : SameButWithheld x y) : x.allFlags = y.allFlags := by
  unfold HealthInputs.allFlags
  rw [h.damage, h.resilience]

theorem curDisk (h : SameButWithheld x y) : x.curDisk = y.curDisk := by
  obtain ⟨a, ha, _, hdisk⟩ := h.left
  obtain ⟨b, hb, _, hdisk'⟩ := h.right
  unfold HealthInputs.curDisk
  rw [ha, hb, Option.bind_some, Option.bind_some, hdisk, hdisk']

theorem isSystemic (h : SameButWithheld x y) :
    Health.isSystemic x.axes x.trends = Health.isSystemic y.axes y.trends := by
  unfold Health.isSystemic
  rw [h.axisIsBad, h.trends]

theorem ratcheted (h : SameButWithheld x y) (prev : Option PrevHealth) :
    x.ratcheted prev = y.ratcheted prev := by
  unfold HealthInputs.ratcheted HealthInputs.raw
  rw [h.damage, h.resilience, h.oVal, h.allFlags, h.curDisk, h.trends]

theorem state (h : SameButWithheld x y) (prev : Option PrevHealth) :
    (computeHealth x prev).state = (computeHealth y prev).state := by
  rw [computeHealth_state, computeHealth_state, h.isSystemic, h.ratcheted]

theorem index (h : SameButWithheld x y) (prev : Option PrevHealth) :
    (computeHealth x prev).index = (computeHealth y prev).index := by
  rw [computeHealth_index, computeHealth_index, h.damage, h.resilience, h.oVal]

theorem band (h : SameButWithheld x y) (prev : Option PrevHealth) :
    (computeHealth x prev).band = (computeHealth y prev).band := by
  rw [computeHealth_band, computeHealth_band, h.state, h.index, h.oVal]

theorem horizonDays (h : SameButWithheld x y) (prev : Option PrevHealth) :
    (computeHealth x prev).horizonDays = (computeHealth y prev).horizonDays := by
  rw [computeHealth_horizonDays, computeHealth_horizonDays, h.state, h.trends]

end SameButWithheld

end Srp.Analytics.Health
