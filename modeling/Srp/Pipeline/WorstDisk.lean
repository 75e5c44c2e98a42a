/-
  Srp/Pipeline/WorstDisk.lean
  ===========================
  **The worst disk speaks for the machine.**

  The storage axis carries the name and the coordinates of one disk, the first
  SMART-bearing disk of maximal value.  Two facts about the verdict follow from
  that choice:

  * `worstDisk_flags_give_h4`: the hard flags that reach the verdict are the
    flags of that disk, and a sibling's are not seen;
  * `state_kept_iff`: the ratchet reads a change of that disk's name as new
    hardware, also when the set of disks has not changed.
-/
import Srp.Pipeline.Recompute

namespace Srp.Pipeline

open Srp.Lib.PyNum Srp.Scoring Srp.Shared Srp.Analytics Srp.Analytics.Storage
  Srp.Analytics.Health

/-! ### Flags of the storage axis in the verdict -/

/-- Every coordinate flag of a storage axis with a value reaches the state step. -/
theorem storage_flag_mem_allFlags {x : HealthInputs} {axis : Axis} {v : ℚ} {f : Flag}
    (haxis : x.axes .storageRisk = some axis) (hv : axis.value = some v)
    (hf : f ∈ coordsFlags axis) : f ∈ x.allFlags := by
  have hdamage : ∃ rest, damageChannels x.axes =
      ⟨coordsDamage axis, axis.confidence, axis.factors,
        (coordsFlags axis).filter (· ∈ hardDFlags)⟩ :: rest := by
    simp only [damageChannels, axisChannel, haxis, hv]
    exact ⟨_, rfl⟩
  have hresilience : ∃ rest, resilienceChannels x.axes x.trends =
      storageResilience axis x.trends :: rest := by
    simp only [resilienceChannels, axisChannel, haxis, hv]
    exact ⟨_, rfl⟩
  unfold HealthInputs.allFlags
  rw [List.mem_append]
  by_cases hard : f ∈ hardDFlags
  · left
    obtain ⟨rest, hrest⟩ := hdamage
    unfold damage
    cases hmax : ((damageChannels x.axes).map (·.level)).max? with
    | none =>
      rw [List.max?_eq_none_iff, hrest] at hmax
      cases hmax
    | some d =>
      simp only [hmax, List.mem_eraseDups, List.mem_flatMap]
      refine ⟨_, by rw [hrest]; exact List.mem_cons_self, ?_⟩
      simp [hf, hard]
  · right
    obtain ⟨rest, hrest⟩ := hresilience
    unfold resilience
    cases hmax : ((resilienceChannels x.axes x.trends).map (·.level)).max? with
    | none =>
      rw [List.max?_eq_none_iff, hrest] at hmax
      cases hmax
    | some d =>
      simp only [hmax, List.mem_eraseDups, List.mem_flatMap]
      refine ⟨_, by rw [hrest]; exact List.mem_cons_self, ?_⟩
      simp [storageResilience, hf, hard]

theorem damage_known {axes : Axes} {axis : Axis} {v : ℚ}
    (haxis : axes .storageRisk = some axis) (hv : axis.value = some v) :
    (damage axes).value ≠ none := by
  unfold damage
  cases hmax : ((damageChannels axes).map (·.level)).max? with
  | none =>
    simp [damageChannels, axisChannel, haxis, hv] at hmax
  | some d => simp [hmax]

/-- A visible cycle with an h4 flag on the storage axis is in `h4`, whatever was stored. -/
theorem computeHealth_h4 {x : HealthInputs} {axis : Axis} {v : ℚ} {f : Flag}
    (haxis : x.axes .storageRisk = some axis) (hv : axis.value = some v)
    (hf : f ∈ coordsFlags axis) (h4 : f ∈ h4Flags) (hO : 40 ≤ x.oVal)
    (prev : Option PrevHealth) : (computeHealth x prev).state = .h4 := by
  have hraw : x.raw = .h4 := by
    have hany : anyFlag x.allFlags h4Flags = true :=
      List.any_eq_true.mpr ⟨f, storage_flag_mem_allFlags haxis hv hf, by simpa using h4⟩
    have hvis : ¬ (x.oVal < 40 ∨ (damage x.axes).value = none) := by
      rintro (hlow | hnone)
      · exact absurd hlow (not_lt.mpr hO)
      · exact damage_known haxis hv hnone
    unfold HealthInputs.raw rawState
    rw [if_neg hvis, if_pos hany]
  -- nothing is worse than `h4`, so the ratchet lets it through
  have hratchet : x.ratcheted prev = .h4 := by
    cases prev with
    | none =>
      unfold HealthInputs.ratcheted ratchet
      exact hraw
    | some prev =>
      cases hmem : (rememberedState prev).bind stateOrder with
      | none => rw [ratcheted_fresh hmem, hraw]
      | some old =>
        obtain ⟨m, _, hm⟩ := Option.bind_eq_some_iff.mp hmem
        rw [ratcheted_eq (by rw [hraw]; rfl) hmem, if_pos (stateOrder_le_four hm), hraw]
  rw [computeHealth_state, hratchet]
  cases isSystemic x.axes x.trends <;> rfl

/-- **The worst disk's hard flags are never lost.**  On a shown axis the coordinates are
    those of the worst disk, and any h4 flag of that disk puts a visible verdict in `h4`. -/
theorem worstDisk_flags_give_h4 (fl : ℚ → ℚ) (historical : Option HistoricalPayload) (ctx : Context)
    (deviceTrust : DeviceTrust) (domainState : Option DomainTrustState) (score : Score100)
    (h : computeStorageRisk fl historical ctx deviceTrust domainState = .ok score)
    (hshow : ShowsStorage deviceTrust domainState) (i : Nat) (d : StorageReliability)
    (s : DiskScore) (hw : IsWorst fl ctx (storageDisks historical) i d s) :
    score.sourceLineage.coords = some s.coords ∧
      ∀ f ∈ s.coords.flags, f ∈ h4Flags → ∀ (x : HealthInputs) (prev : Option PrevHealth),
        x.axes .storageRisk = some (storageAxis score) → 40 ≤ x.oVal →
          (computeHealth x prev).state = .h4 := by
  obtain ⟨hval, _, hcoords⟩ := computeStorageRisk_of_isWorst h hshow hw
  refine ⟨hcoords, ?_⟩
  intro f hf h4 x prev haxis hO
  have hflags : f ∈ coordsFlags (storageAxis score) := by
    simpa [coordsFlags, storageAxis, hcoords] using hf
  exact computeHealth_h4 haxis hval hflags h4 hO prev

/-- The h4 flags that a disk raises by its own reading. -/
def diskH4Flags : List Flag :=
  [.predictFail, .cwSpare, .cwReliability, .cwReadonly, .pendingGt10, .uncorrectable198,
   .spareBelowThreshold]

/-- A shown storage axis masks no hard flag: every h4 flag of every SMART-bearing disk is
    in its coordinates, and puts a visible verdict in `h4`. -/
def NoFlagMasked (fl : ℚ → ℚ) (historical : Option HistoricalPayload) (ctx : Context)
    (deviceTrust : DeviceTrust) (domainState : Option DomainTrustState) : Prop :=
  ∀ score, computeStorageRisk fl historical ctx deviceTrust domainState = .ok score →
    ∀ d ∈ storageDisks historical, hasSmart d = true → ∀ s, scoreDisk fl ctx d = .ok s →
      ∀ f ∈ s.coords.flags, f ∈ diskH4Flags →
        f ∈ coordsFlags (storageAxis score) ∧ ∀ (x : HealthInputs) (prev : Option PrevHealth),
          x.axes .storageRisk = some (storageAxis score) → 40 ≤ x.oVal →
            (computeHealth x prev).state = .h4

/-! ### A masked disk

Disk `0` predicts its own failure (value 70, one hard flag).  Disk `1` has
reallocated sectors and read errors, which only the legacy rules score: value 100,
no flag.  Disk `1` is reported, and the verdict is `h0`. -/

private def failingDisk : StorageReliability :=
  { disk := some "0", serialHash := some "a", smartPredictFail := some true }

private def otherDisk (errors : Int) : StorageReliability :=
  { disk := some "1", serialHash := some "b", reallocatedSectors := some errors,
    readErrorsTotal := some errors }

private def payload (errors : Int) : HistoricalPayload :=
  { storage := [failingDisk, otherDisk errors] }

theorem failingDisk_masked :
    ShowsStorage .ok none ∧ ¬ NoFlagMasked binary64 (some (payload 200)) {} .ok none := by
  refine ⟨⟨by decide, by decide⟩, ?_⟩
  intro h
  have hscore : ((computeStorageRisk binary64 (some (payload 200)) {} .ok none).toOption.map
      fun score => coordsFlags (storageAxis score)) = some [] := by
    decide +kernel
  obtain ⟨score, hok, hflags⟩ := Option.map_eq_some_iff.mp hscore
  have hdisk : ((scoreDisk binary64 {} failingDisk).toOption.map fun s => s.coords.flags) =
      some [.predictFail] := by
    decide +kernel
  obtain ⟨s, hs, hf⟩ := Option.map_eq_some_iff.mp hdisk
  have hmasked := (h score (toOption_eq_some.mp hok) failingDisk List.mem_cons_self (by decide)
    s (toOption_eq_some.mp hs) .predictFail (by rw [hf]; decide) (by decide)).1
  rw [hflags] at hmasked
  cases hmasked

theorem failingDisk_isWorst :
    ∃ s, IsWorst binary64 {} (storageDisks (some (payload 0))) 0 failingDisk s ∧
      .predictFail ∈ s.coords.flags := by
  have hfail : ((scoreDisk binary64 {} failingDisk).toOption.map fun s => (s.value, s.coords.flags)) =
      some (70, [.predictFail]) := by
    decide +kernel
  have hother : ((scoreDisk binary64 {} (otherDisk 0)).toOption.map fun s => s.value) = some 0 := by
    decide +kernel
  obtain ⟨s, hs, hvf⟩ := Option.map_eq_some_iff.mp hfail
  obtain ⟨t, ht, hvt⟩ := Option.map_eq_some_iff.mp hother
  obtain ⟨hv, hf⟩ := Prod.mk.inj hvf
  refine ⟨s, ⟨rfl, by decide, toOption_eq_some.mp hs, ?_, ?_⟩, by rw [hf]; decide⟩
  · intro j e u hj
    omega
  · intro j e u _ he _ hu
    match j with
    | 0 =>
      obtain rfl : failingDisk = e := Option.some.inj he
      rw [Except.ok.inj ((toOption_eq_some.mp hs).symm.trans hu)]
    | 1 =>
      obtain rfl : otherDisk 0 = e := Option.some.inj he
      rw [← Except.ok.inj ((toOption_eq_some.mp ht).symm.trans hu), hvt, hv]
      norm_num
    | n + 2 => cases he

theorem failingDisk_gives_h4 :
    ∃ score, computeStorageRisk binary64 (some (payload 0)) {} .ok none = .ok score ∧
      (computeHealth { axes := riskAxes (fun _ => none) score } none).state = .h4 := by
  have hok : ((computeStorageRisk binary64 (some (payload 0)) {} .ok none).toOption.map fun score =>
      decide (40 ≤ HealthInputs.oVal { axes := riskAxes (fun _ => none) score })) =
      some true := by
    decide +kernel
  obtain ⟨score, hscore, hO⟩ := Option.map_eq_some_iff.mp hok
  obtain ⟨s, hworst, hf⟩ := failingDisk_isWorst
  refine ⟨score, toOption_eq_some.mp hscore, ?_⟩
  exact (worstDisk_flags_give_h4 _ _ _ _ _ _ (toOption_eq_some.mp hscore)
    ⟨by decide, by decide⟩ _ _ _ hworst).2 _ hf (by decide) _ _ rfl (of_decide_eq_true hO)

/-! ### The name the ratchet compares -/

section Rounded

variable (fl : ℚ → ℚ)

variable {fl} in
theorem healthInputs_ok {c : CycleInputs} {x : HealthInputs} (h : healthInputs fl c = .ok x) :
    ∃ series storage, c.diskSeries fl = .ok series ∧
      computeStorageRisk fl c.historical (c.context series) c.deviceTrust c.storageDomain =
        .ok storage ∧
      x.axes .storageRisk = some (storageAxis storage) := by
  unfold healthInputs at h
  obtain ⟨series, hseries, h⟩ := bind_eq_ok.mp h
  obtain ⟨storage, hstorage, h⟩ := bind_eq_ok.mp h
  obtain rfl := Except.ok.inj h
  exact ⟨series, storage, hseries, hstorage, rfl⟩

/-- The cycle shows the storage axis, and `d` is the disk it is about. -/
def CycleInputs.Reports (c : CycleInputs) (d : StorageReliability) : Prop :=
  ShowsStorage c.deviceTrust c.storageDomain ∧ ∃ series, c.diskSeries fl = .ok series ∧
    ∃ i s, IsWorst fl (c.context series) (storageDisks c.historical) i d s

variable {fl} in
theorem curDisk_eq_some_iff {c : CycleInputs} {x : HealthInputs} (h : healthInputs fl c = .ok x)
    {w : String} : x.curDisk = some w ↔ ∃ d, c.Reports fl d ∧ d.disk = some w := by
  obtain ⟨series, storage, hseries, hstorage, haxis⟩ := healthInputs_ok h
  have hcur : x.curDisk = storage.sourceLineage.worstDisk := by
    unfold HealthInputs.curDisk
    rw [haxis]
    rfl
  rw [hcur]
  constructor
  · intro hw
    rcases computeStorageRisk_cases hstorage with
      ⟨_, _, hnone⟩ | ⟨hshow, i, d, s, hworst, _, hname, _⟩
    · rw [hnone] at hw
      cases hw
    · exact ⟨d, ⟨hshow, series, hseries, i, s, hworst⟩, hname.symm.trans hw⟩
  · rintro ⟨d, ⟨hshow, series', hseries', i, s, hworst⟩, hname⟩
    obtain rfl := Except.ok.inj (hseries.symm.trans hseries')
    rw [(computeStorageRisk_of_isWorst hstorage hshow hworst).2.1, hname]

/-- The two cycles name different disks as the worst one. -/
def WorstDiskMoved (c₁ c₂ : CycleInputs) : Prop :=
  ∃ d₁ d₂ v w, c₁.Reports fl d₁ ∧ d₁.disk = some v ∧ c₂.Reports fl d₂ ∧ d₂.disk = some w ∧ v ≠ w

/-! ### Two consecutive cycles -/

/-- The name and the serial hash of every disk of the payload. -/
def CycleInputs.physicalDisks (c : CycleInputs) : List (Option String × Option String) :=
  (storageDisks c.historical).map fun d => (d.disk, d.serialHash)

def SamePhysicalDisks (c₁ c₂ : CycleInputs) : Prop :=
  ∀ k, k ∈ c₁.physicalDisks ↔ k ∈ c₂.physicalDisks

/-- Two consecutive recomputes over one set of disks: the first verdict is visible, the
    second reading is better by itself, and nothing but the disks explains it. -/
structure QuietRecovery (p : Option PrevHealth) (c₁ c₂ : CycleInputs)
    (v₁ v₂ : HealthVerdict) (x₂ : HealthInputs) : Prop where
  sameDisks : SamePhysicalDisks c₁ c₂
  chained : ∃ stored stored', recomputeScores fl c₁ p = .ok (v₁, stored) ∧
    recomputeScores fl c₂ (some stored) = .ok (v₂, stored')
  inputs : healthInputs fl c₂ = .ok x₂
  better : ∃ a cur, stateOrder v₁.state = some a ∧ stateOrder x₂.raw = some cur ∧ cur < a
  noEvidence : ¬ x₂.Improves

/-- The ratchet held the first state; only the systemic floor may still raise it. -/
def KeepsState (v₁ v₂ : HealthVerdict) (x₂ : HealthInputs) : Prop :=
  v₂.lastKnownState = some v₁.state ∧
    v₂.state = systemicFloor (isSystemic x₂.axes x₂.trends) v₁.state

variable {fl} in
theorem recomputeScores_ok {c : CycleInputs} {p : Option PrevHealth} {v : HealthVerdict}
    {stored : PrevHealth} (h : recomputeScores fl c p = .ok (v, stored)) :
    ∃ x, healthInputs fl c = .ok x ∧ v = computeHealth x p ∧ stored = storedHealth x v := by
  unfold recomputeScores at h
  obtain ⟨x, hx, h⟩ := bind_eq_ok.mp h
  cases h
  exact ⟨x, hx, rfl, rfl⟩

/-- **When a quiet recovery keeps the state**: exactly when both cycles name the same
    worst disk, or one of them names none. -/
theorem state_kept_iff (p : Option PrevHealth) (c₁ c₂ : CycleInputs) (v₁ v₂ : HealthVerdict)
    (x₂ : HealthInputs) (h : QuietRecovery fl p c₁ c₂ v₁ v₂ x₂) :
    KeepsState v₁ v₂ x₂ ↔ ¬ WorstDiskMoved fl c₁ c₂ := by
  obtain ⟨stored, stored', hr₁, hr₂⟩ := h.chained
  obtain ⟨x₁, hx₁, _, rfl⟩ := recomputeScores_ok hr₁
  obtain ⟨x, hx, hv₂, _⟩ := recomputeScores_ok hr₂
  obtain rfl : x = x₂ := Except.ok.inj (hx.symm.trans h.inputs)
  obtain ⟨a, cur, ha, hcur, hlt⟩ := h.better
  have hmem : rememberedState (storedHealth x₁ v₁) = some v₁.state := by
    unfold rememberedState storedHealth
    rw [if_neg ?_]
    intro hu
    rw [Option.some.inj hu] at ha
    cases ha
  have hchanged : x.DiskChanged (storedHealth x₁ v₁) ↔ WorstDiskMoved fl c₁ c₂ := by
    constructor
    · rintro ⟨hcurDisk, hprev, hne⟩
      obtain ⟨w, hw⟩ := Option.isSome_iff_exists.mp hcurDisk
      obtain ⟨v, hv⟩ := Option.isSome_iff_exists.mp hprev
      obtain ⟨d₂, hd₂, hn₂⟩ := (curDisk_eq_some_iff hx).mp hw
      obtain ⟨d₁, hd₁, hn₁⟩ := (curDisk_eq_some_iff hx₁).mp hv
      refine ⟨d₁, d₂, v, w, hd₁, hn₁, hd₂, hn₂, ?_⟩
      rintro rfl
      exact hne (hw.trans hv.symm)
    · rintro ⟨d₁, d₂, v, w, hd₁, hn₁, hd₂, hn₂, hne⟩
      have hw := (curDisk_eq_some_iff hx).mpr ⟨d₂, hd₂, hn₂⟩
      have hv : (storedHealth x₁ v₁).worstDisk = some v :=
        (curDisk_eq_some_iff hx₁).mpr ⟨d₁, hd₁, hn₁⟩
      refine ⟨by rw [hw]; rfl, by rw [hv]; rfl, ?_⟩
      rw [hw, hv]
      exact fun heq => hne (Option.some.inj heq).symm
  rw [← hchanged]
  have hvisible : x.ratcheted (some (storedHealth x₁ v₁)) ≠ .unknown := by
    intro hu
    rw [ratcheted_eq_unknown_iff.mp hu] at hcur
    cases hcur
  unfold KeepsState
  rw [hv₂, computeHealth_lastKnownState, if_pos hvisible, computeHealth_state]
  constructor
  · -- the raw state is better, so letting it through keeps nothing
    rintro ⟨hlast, _⟩ hdisk
    rw [ratcheted_reset hdisk] at hlast
    rw [Option.some.inj hlast, ha] at hcur
    have := Option.some.inj hcur
    omega
  · intro hdisk
    have hheld := ratcheted_held hcur hmem ha hdisk
    unfold heldRank at hheld
    rw [if_neg (by omega), if_neg h.noEvidence, ← ha] at hheld
    have hsame : x.ratcheted (some (storedHealth x₁ v₁)) = v₁.state := by
      rw [← rankState_of_stateOrder (hheld.trans ha), rankState_of_stateOrder ha]
    rw [hsame]
    exact ⟨rfl, rfl⟩

end Rounded

/-! ### A recovery that is none

The same two disks in both cycles.  In the second one disk `0` still predicts its
failure, but disk `1` now scores higher, so the ratchet sees new hardware. -/

private def moved₁ : CycleInputs := { historical := some (payload 0) }

private def moved₂ : CycleInputs := { historical := some (payload 200) }

private def kept₂ : CycleInputs :=
  { historical := some { storage := [{ failingDisk with smartPredictFail := some false },
      otherDisk 0] } }

/-- Two chained cycles with the state of the second before the ratchet. -/
private def twoCycles (c₁ c₂ : CycleInputs) :
    Except PyError (HealthVerdict × HealthVerdict × HealthInputs) := do
  let first ← recomputeScores binary64 c₁ none
  let second ← recomputeScores binary64 c₂ (some first.2)
  let x ← healthInputs binary64 c₂
  return (first.1, second.1, x)

private theorem twoCycles_quiet {c₁ c₂ : CycleInputs} (hsame : SamePhysicalDisks c₁ c₂)
    (hrun : ((twoCycles c₁ c₂).toOption.map fun r =>
      (r.1.state, r.2.2.raw, decide r.2.2.Improves)) = some (.h4, .h0, false)) :
    ∃ v₁ v₂ x₂, twoCycles c₁ c₂ = .ok (v₁, v₂, x₂) ∧ QuietRecovery binary64 none c₁ c₂ v₁ v₂ x₂ := by
  obtain ⟨⟨v₁, v₂, x₂⟩, hok, hvals⟩ := Option.map_eq_some_iff.mp hrun
  have hok := toOption_eq_some.mp hok
  simp only [Prod.mk.injEq, decide_eq_false_iff_not] at hvals
  obtain ⟨h4, h0, himp⟩ := hvals
  refine ⟨v₁, v₂, x₂, hok, hsame, ?_, ?_, ⟨4, 0, by rw [h4]; rfl, by rw [h0]; rfl, by omega⟩,
    himp⟩
  · obtain ⟨first, h₁, hok⟩ := bind_eq_ok.mp hok
    obtain ⟨second, h₂, hok⟩ := bind_eq_ok.mp hok
    obtain ⟨x, _, hok⟩ := bind_eq_ok.mp hok
    cases hok
    exact ⟨first.2, second.2, h₁, h₂⟩
  · obtain ⟨first, _, hok⟩ := bind_eq_ok.mp hok
    obtain ⟨second, _, hok⟩ := bind_eq_ok.mp hok
    obtain ⟨x, hx, hok⟩ := bind_eq_ok.mp hok
    cases hok
    exact hx

theorem moved_loses_state :
    ∃ v₁ v₂ x₂, QuietRecovery binary64 none moved₁ moved₂ v₁ v₂ x₂ ∧ ¬ KeepsState v₁ v₂ x₂ := by
  obtain ⟨v₁, v₂, x₂, hrun, hquiet⟩ := @twoCycles_quiet moved₁ moved₂
    (by intro k; rfl) (by decide +kernel)
  have hlast : ((twoCycles moved₁ moved₂).toOption.map fun r =>
      decide (r.2.1.lastKnownState = some r.1.state)) = some false := by
    decide +kernel
  rw [hrun] at hlast
  exact ⟨v₁, v₂, x₂, hquiet, fun hkeeps =>
    of_decide_eq_false (Option.some.inj hlast) hkeeps.1⟩

theorem kept_state_iff :
    ∃ v₁ v₂ x₂, QuietRecovery binary64 none moved₁ kept₂ v₁ v₂ x₂ ∧
      (KeepsState v₁ v₂ x₂ ↔ ¬ WorstDiskMoved binary64 moved₁ kept₂) := by
  obtain ⟨v₁, v₂, x₂, _, hquiet⟩ := @twoCycles_quiet moved₁ kept₂
    (by intro k; rfl) (by decide +kernel)
  exact ⟨v₁, v₂, x₂, hquiet, state_kept_iff binary64 none moved₁ kept₂ v₁ v₂ x₂ hquiet⟩

end Srp.Pipeline
