/-
  Srp/Analytics/HealthCoherence.lean
  ==================================
  **The verdict never contradicts itself.**

  The state is read off flags and coordinates and then corrected twice, by the
  ratchet and by the systemic floor.  The band comes from the index, which is
  computed from the coordinates alone.  What keeps the two together is that both
  corrections only make the state worse: a verdict shown as `h0` was `h0` before
  them, so both coordinates are small and so is the loss behind the index.
-/
import Mathlib.Data.List.ReduceOption
import Srp.Analytics.HealthRatchet

namespace Srp.Analytics.Health

open Srp.Lib.PyNum Srp.Scoring

/-! ### The corrections only worsen the state -/

theorem ratcheted_eq_h0 {x : HealthInputs} {prev : Option PrevHealth}
    (h : x.ratcheted prev = .h0) : x.raw = .h0 := by
  cases hcur : stateOrder x.raw with
  | none =>
    rw [stateOrder_eq_none] at hcur
    rw [ratcheted_unknown hcur] at h
    cases h
  | some cur =>
    cases prev with
    | none => exact h
    | some prev =>
      by_cases hdisk : x.DiskChanged prev
      · rw [← ratcheted_reset hdisk]
        exact h
      · cases hmem : (rememberedState prev).bind stateOrder with
        | none =>
          rw [← ratcheted_fresh hmem]
          exact h
        | some old =>
          obtain ⟨m, hm, hold⟩ := Option.bind_eq_some_iff.mp hmem
          have hheld := ratcheted_held hcur hm hold hdisk
          rw [h] at hheld
          have hrank : heldRank old cur x.Improves = 0 := (Option.some.inj hheld).symm
          have hzero : cur = 0 := by
            unfold heldRank at hrank
            split_ifs at hrank <;> omega
          rw [← rankState_of_stateOrder hcur, hzero]
          rfl

theorem computeHealth_eq_h0 {x : HealthInputs} {prev : Option PrevHealth}
    (h : (computeHealth x prev).state = .h0) : x.raw = .h0 := by
  rw [computeHealth_state] at h
  refine @ratcheted_eq_h0 x prev ?_
  cases hr : x.ratcheted prev <;> cases hs : isSystemic x.axes x.trends <;>
    simp_all [systemicFloor]

/-! ### What a known state says about the coordinates -/

theorem raw_known {x : HealthInputs} (h : x.raw ≠ .unknown) :
    40 ≤ x.oVal ∧ ∃ d, (damage x.axes).value = some d := by
  unfold HealthInputs.raw rawState at h
  by_cases hgate : x.oVal < 40 ∨ (damage x.axes).value = none
  · rw [if_pos hgate] at h
    exact absurd rfl h
  · rw [not_or, not_lt] at hgate
    exact ⟨hgate.1, Option.ne_none_iff_exists'.mp hgate.2⟩

theorem raw_h0 {x : HealthInputs} (h : x.raw = .h0) :
    (∀ d, (damage x.axes).value = some d → d < 15) ∧
      ∀ r, (resilience x.axes x.trends).1.value = some r → 60 < r := by
  unfold HealthInputs.raw rawState at h
  split_ifs at h with hgate h4 h3 h2 h1
  rw [not_or] at h2 h1
  constructor
  · intro d hd
    simpa [hd] using h1.1
  · intro r hr
    simpa [hr] using h2.2

/-! ### The index -/

theorem isTenths_resilience {axes : Axes} {trends : Trends} {r : ℚ}
    (h : (resilience axes trends).1.value = some r) : IsTenths r := by
  unfold resilience at h
  cases hmax : ((resilienceChannels axes trends).map (·.level)).max? with
  | none => simp [hmax, unknownCoordinate] at h
  | some m =>
    simp only [hmax, Option.some.injEq] at h
    rw [← h]
    exact isTenths_round1 _

/-- The index of a visible device with a known damage. -/
theorem index_known {d oVal : ℚ} {rloss : Option ℚ} (ho : 40 ≤ oVal) :
    ∃ i, index (some d) rloss oVal = some i ∧ 0 ≤ i ∧ i ≤ 100 := by
  unfold index
  rw [if_neg (not_lt.mpr ho)]
  cases rloss <;>
    exact ⟨_, rfl, le_max_left _ _, max_le (by norm_num) (min_le_left _ _)⟩

/-- The loss behind the index is at most the larger of the two coordinates. -/
theorem index_loss_le {d oVal m i : ℚ} {rloss : Option ℚ} (hm : IsTenths m) (h0 : 0 ≤ m)
    (hd : d ≤ m) (hr : ∀ r, rloss = some r → r ≤ m) (h : index (some d) rloss oVal = some i) :
    100 - i ≤ m := by
  have hcap : ∀ loss, loss ≤ m → 100 - max 0 (min 100 (round1 (100 - round1 loss))) ≤ m := by
    intro loss hloss
    have hround : round1 loss ≤ m := hm.round1_eq ▸ round1_mono hloss
    have htenths : IsTenths (100 - m) := by
      obtain ⟨n, rfl⟩ := hm
      exact ⟨1000 - n, by push_cast; ring⟩
    have hback : 100 - m ≤ round1 (100 - round1 loss) :=
      htenths.round1_eq ▸ round1_mono (by linarith)
    have hmin : 100 - m ≤ min 100 (round1 (100 - round1 loss)) := le_min (by linarith) hback
    linarith [hmin.trans (le_max_right 0 _)]
  unfold index at h
  by_cases ho : oVal < 40
  · rw [if_pos ho] at h
    cases h
  · rw [if_neg ho] at h
    cases rloss with
    | none =>
      have hi : max 0 (min 100 (round1 (100 - round1 (7 / 10 * d + 3 / 10 * d)))) = i := by
        simpa [List.reduceOption] using h
      rw [← hi]
      apply hcap
      linarith
    | some r =>
      have hrm := hr r rfl
      have hi : max 0 (min 100 (round1 (100 - round1
          (7 / 10 * max d r + 3 / 10 * ((d + r) / 2))))) = i := by
        simpa [List.reduceOption] using h
      rw [← hi]
      apply hcap
      have hmax : max d r ≤ m := max_le hd hrm
      linarith

/-! ### The verdict -/

/-- How state, index and band of a verdict fit together. -/
structure Coherent (v : HealthVerdict) : Prop where
  unknown_iff : v.band = .unknown ↔ v.state = .unknown
  index_bounds : v.state ≠ .unknown → ∃ i, v.index = some i ∧ 0 ≤ i ∧ i ≤ 100
  h4_bad : v.state = .h4 → v.band = .bad
  not_good : v.state = .h2 ∨ v.state = .h3 → v.band ≠ .good
  h0_not_bad : v.state = .h0 → v.band ≠ .bad

/-- The loss of a verdict shown as `h0` stays below the band `bad`. -/
theorem computeHealth_h0_loss {x : HealthInputs} {prev : Option PrevHealth} {i : ℚ}
    (h : (computeHealth x prev).state = .h0) (hi : (computeHealth x prev).index = some i) :
    100 - i < 40 := by
  have hraw := computeHealth_eq_h0 h
  obtain ⟨-, d, hd⟩ := raw_known (x := x) (by rw [hraw]; simp)
  obtain ⟨hd15, hr60⟩ := raw_h0 hraw
  have hindex : index (some d) ((resilience x.axes x.trends).1.value.map
      fun v => round1 (100 - v)) x.oVal = some i := by
    rw [← hd]
    exact hi
  have hbound : 100 - i ≤ 399 / 10 := by
    refine index_loss_le ⟨399, rfl⟩ (by norm_num) (by linarith [hd15 d hd]) ?_ hindex
    intro r hr
    obtain ⟨v, hv, rfl⟩ := Option.map_eq_some_iff.mp hr
    -- a resilience above 60 in tenths is at least 60.1
    obtain ⟨n, rfl⟩ := isTenths_resilience hv
    have hn : 600 < n := by
      have h60 := hr60 _ hv
      have : (600 : ℚ) < n := by linarith
      exact_mod_cast this
    have htenths : IsTenths (100 - (n : ℚ) / 10) := ⟨1000 - n, by push_cast; ring⟩
    rw [htenths.round1_eq]
    have : (601 : ℚ) ≤ n := by exact_mod_cast hn
    linarith
  linarith

theorem reconcile_known {s : State} {i oVal : ℚ} (hs : s ≠ .unknown) (ho : 40 ≤ oVal)
    (h0 : s = .h0 → 100 - i < 40) :
    reconcile s (some i) oVal =
      (if s = .h4 then .bad
        else if (s = .h2 ∨ s = .h3) ∧ bandForRiskScore (some (100 - i)) = .good then .watch
        else bandForRiskScore (some (100 - i)), []) := by
  have hgate : ¬ (oVal < 40 ∨ s = .unknown) := not_or.mpr ⟨not_lt.mpr ho, hs⟩
  unfold reconcile
  rw [if_neg hgate]
  simp only [Option.map_some]
  rw [if_neg]
  rintro ⟨rfl, hbad⟩
  have hlow := h0 rfl
  rw [if_neg (by simp), if_neg (by simp), bandForRiskScore_bad] at hbad
  linarith

/-- **Every verdict is coherent, and the defensive clamp adds no factor to any of them.** -/
theorem computeHealth_coherent (x : HealthInputs) (prev : Option PrevHealth) :
    Coherent (computeHealth x prev) ∧
      (reconcile (computeHealth x prev).state (computeHealth x prev).index x.oVal).2 = [] := by
  have hband : (computeHealth x prev).band =
      (reconcile (computeHealth x prev).state (computeHealth x prev).index x.oVal).1 := rfl
  by_cases hs : (computeHealth x prev).state = .unknown
  · have hrec : reconcile .unknown (computeHealth x prev).index x.oVal = (.unknown, []) :=
      if_pos (.inr rfl)
    rw [hs, hrec] at hband
    rw [hs, hrec]
    constructor
    · constructor <;> simp [hs, hband]
    · rfl
  · have hraw : x.raw ≠ .unknown := fun h => hs (computeHealth_unknown_iff.mpr h)
    obtain ⟨ho, d, hd⟩ := raw_known hraw
    obtain ⟨i, hi, hi0, hi100⟩ : ∃ i, (computeHealth x prev).index = some i ∧ 0 ≤ i ∧ i ≤ 100 := by
      change ∃ i, index (damage x.axes).value _ x.oVal = some i ∧ _
      rw [hd]
      exact index_known ho
    have hrec := reconcile_known (i := i) hs ho fun h0 => computeHealth_h0_loss h0 hi
    rw [hi, hrec] at hband
    rw [hi, hrec]
    refine ⟨⟨?_, fun _ => ⟨i, hi, hi0, hi100⟩, ?_, ?_, ?_⟩, rfl⟩
    · -- no branch of a visible verdict gives the band `unknown`
      have hne : (computeHealth x prev).band ≠ .unknown := by
        rw [hband]
        dsimp only
        split_ifs
        · simp
        · simp
        · exact bandForRiskScore_ne_unknown
      simp [hs, hne]
    · intro h4
      rw [hband, if_pos h4]
    · intro h23 hgood
      rw [hband, if_neg (by rcases h23 with h | h <;> simp [h])] at hgood
      split_ifs at hgood with hw
      exact hw ⟨h23, hgood⟩
    · intro h0 hbad
      have hlow := computeHealth_h0_loss h0 hi
      rw [hband, if_neg (by simp [h0]), if_neg (by simp [h0]), bandForRiskScore_bad] at hbad
      linarith

end Srp.Analytics.Health
