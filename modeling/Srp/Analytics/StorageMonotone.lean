/-
  Srp/Analytics/StorageMonotone.lean
  ==================================
  **Worse evidence never lowers a disk's storage risk.**

  The rules of `_score_disk` run over two accumulators side by side.  `Below k`
  relates them: every quantity of the second is at least that of the first, and
  the second is ahead by `k` points.  Every rule keeps the relation with its `k`;
  only the chain rule changes it, when stage 2 (a multiplier of 1.25) gives way to
  stage 3 (25 points and no multiplier).  The 25 points outweigh the multiplier
  because it is applied to a value that is clamped to 100.

  The arithmetic is exact here: the rounding is `id`.
-/
import Srp.Analytics.Storage

namespace Srp.Analytics.Storage

open Srp.Lib.PyNum Srp.Scoring Srp.Shared

/-! ### Worse evidence -/

/-- A present reading stays present and does not get smaller. -/
def NotSmaller {α : Type} [LE α] (x y : Option α) : Prop := ∀ a, x = some a → ∃ b, y = some b ∧ a ≤ b

/-- The SMART attributes that the rules read. -/
def scoredAttrs : List String := ["5", "187", "188", "196", "197", "198"]

/-- `d'` is a reading of the same disk, at least as bad in every field that is scored. -/
structure AtLeastAsBad (d d' : StorageReliability) : Prop where
  sameDisk : d'.serialHash = d.serialHash
  realloc : NotSmaller d.reallocatedSectors d'.reallocatedSectors
  /-- the four error totals, where an absent one counts as zero -/
  readErr : d.readErrorsTotal.getD 0 ≤ d'.readErrorsTotal.getD 0
  writeErr : d.writeErrorsTotal.getD 0 ≤ d'.writeErrorsTotal.getD 0
  readUncorr : d.readErrorsUncorrected.getD 0 ≤ d'.readErrorsUncorrected.getD 0
  writeUncorr : d.writeErrorsUncorrected.getD 0 ≤ d'.writeErrorsUncorrected.getD 0
  wear : NotSmaller d.wearPct d'.wearPct
  temp : NotSmaller d.temperatureC d'.temperatureC
  poh : NotSmaller d.powerOnHours d'.powerOnHours
  predictFail : d.smartPredictFail = some true → d'.smartPredictFail = some true
  warnings : ∀ c, d.nvmeCriticalWarning = some c → ∃ c', d'.nvmeCriticalWarning = some c' ∧
    ∀ bit, c.testBit bit → c'.testBit bit
  attrs : ∀ id ∈ scoredAttrs, NotSmaller (d.smartAttrs.lookup id) (d'.smartAttrs.lookup id)
  mediaErr : NotSmaller d.nvmeMediaErrors d'.nvmeMediaErrors
  spare : ∀ s, d.nvmeSparePct = some s → ∃ s', d'.nvmeSparePct = some s' ∧ s' ≤ s
  spareThreshold : NotSmaller d.nvmeSpareThresholdPct d'.nvmeSpareThresholdPct
  pctUsed : NotSmaller d.nvmePercentageUsed d'.nvmePercentageUsed
  unsafeShutdowns : NotSmaller d.nvmeUnsafeShutdowns d'.nvmeUnsafeShutdowns
  powerCycles : NotSmaller d.nvmePowerCycles d'.nvmePowerCycles

theorem NotSmaller.refl {α : Type} [Preorder α] (x : Option α) : NotSmaller x x :=
  fun a ha => ⟨a, ha, le_rfl⟩

theorem AtLeastAsBad.refl (d : StorageReliability) : AtLeastAsBad d d := {
  sameDisk := rfl
  realloc := .refl _
  readErr := le_rfl
  writeErr := le_rfl
  readUncorr := le_rfl
  writeUncorr := le_rfl
  wear := .refl _
  temp := .refl _
  poh := .refl _
  predictFail := id
  warnings := fun c hc => ⟨c, hc, fun _ => id⟩
  attrs := fun _ _ => .refl _
  mediaErr := .refl _
  spare := fun s hs => ⟨s, hs, le_rfl⟩
  spareThreshold := .refl _
  pctUsed := .refl _
  unsafeShutdowns := .refl _
  powerCycles := .refl _ }

/-- Equal counts, a stage at least as high, and no calmer a sequence. -/
structure ChainAtLeast (c c' : Option ErrChain) : Prop where
  counts : c'.map (·.counts) = c.map (·.counts)
  stage : (c.map (·.stage)).getD 0 ≤ (c'.map (·.stage)).getD 0
  burstiness : NotSmaller (c.bind (·.burstiness)) (c'.bind (·.burstiness))

/-- The same on what `_score_disk` has read. -/
structure Reading.Below (r r' : Reading) : Prop where
  realloc : NotSmaller r.realloc r'.realloc
  ioErrors : r.readErr.getD 0 + r.writeErr.getD 0 ≤ r'.readErr.getD 0 + r'.writeErr.getD 0
  uncorrRw : r.readUncorr.getD 0 + r.writeUncorr.getD 0 ≤
    r'.readUncorr.getD 0 + r'.writeUncorr.getD 0
  wear : NotSmaller r.wear r'.wear
  temp : NotSmaller r.temp r'.temp
  poh : NotSmaller r.poh r'.poh
  predictFail : r.predictFail = true → r'.predictFail = true
  warnings : ∀ c, r.cw = some c → ∃ c', r'.cw = some c' ∧ ∀ bit, c.testBit bit → c'.testBit bit
  pending : NotSmaller r.pending r'.pending
  uncorrectable : NotSmaller r.uncorrectable r'.uncorrectable
  mediaErr : NotSmaller r.mediaErr r'.mediaErr
  spare : ∀ s, r.spare = some s → ∃ s', r'.spare = some s' ∧ s' ≤ s
  spareThreshold : NotSmaller r.spareThreshold r'.spareThreshold
  attr5 : NotSmaller r.attr5 r'.attr5
  attr187 : NotSmaller r.attr187 r'.attr187
  attr188 : NotSmaller r.attr188 r'.attr188
  attr196 : NotSmaller r.attr196 r'.attr196
  pctUsed : NotSmaller r.pctUsed r'.pctUsed
  unsafeShutdowns : NotSmaller r.unsafeShutdowns r'.unsafeShutdowns
  powerCycles : NotSmaller r.powerCycles r'.powerCycles
  isTarget : r'.isTarget = r.isTarget
  recurrent : r'.recurrent = r.recurrent

theorem NotSmaller.getD_pos {x y : Option ℚ} (h : NotSmaller x y) (hx : 0 < x.getD 0) :
    0 < y.getD 0 := by
  cases x with
  | none => simp at hx
  | some a =>
    obtain ⟨b, rfl, hab⟩ := h a rfl
    exact lt_of_lt_of_le hx hab

theorem NotSmaller.exceeds {x y : Option ℚ} {bound : ℚ} (h : NotSmaller x y)
    (hx : exceeds x bound = true) : Storage.exceeds y bound = true := by
  cases x with
  | none => cases hx
  | some a =>
    obtain ⟨b, rfl, hab⟩ := h a rfl
    exact decide_eq_true ((of_decide_eq_true hx).trans_le hab)

/-! ### Two accumulators side by side -/

/-- `acc'` is ahead of `acc` by `k` points, and otherwise not below it.  The points may
    stand for the multiplier of stage 2. -/
structure Acc.Below (k : ℚ) (acc acc' : Acc) : Prop where
  nonneg : 0 ≤ acc.value
  value : acc.value + k ≤ acc'.value
  damage : acc.damage ≤ acc'.damage
  resilienceLoss : acc.resilienceLoss ≤ acc'.resilienceLoss
  other : acc.otherNewFactor = true → acc'.otherNewFactor = true
  multipliers : ∀ m ∈ acc.multipliers,
    (∃ m' ∈ acc'.multipliers, m ≤ m') ∨ (k = 25 ∧ m ≤ 125 / 100)
  boost : ∀ m ∈ acc'.multipliers, 1 ≤ m

section Below

variable {k : ℚ} {acc acc' : Acc}

theorem Acc.Below.hit (h : Acc.Below k acc acc') {label label' : String} {delta delta' : ℚ}
    {coord : Option Coord} {pts pts' : ℚ} {flag flag' : Option Flag} {legacy : Bool}
    (h0 : 0 ≤ delta) (hdelta : delta ≤ delta') (hpts : pts ≤ pts') :
    Acc.Below k (acc.hit id label delta coord pts flag legacy)
      (acc'.hit id label' delta' coord pts' flag' legacy) := by
  have hother := h.other
  rcases coord with _ | _ | _ <;> rcases flag with _ | _ <;> rcases flag' with _ | _ <;>
    exact {
      nonneg := add_nonneg h.nonneg h0
      value := by simp only [Acc.hit, Acc.addCoord, Acc.addFlag, id_eq]; linarith [h.value]
      damage := by simp only [Acc.hit, Acc.addCoord, Acc.addFlag, id_eq]; linarith [h.damage]
      resilienceLoss := by
        simp only [Acc.hit, Acc.addCoord, Acc.addFlag, id_eq]; linarith [h.resilienceLoss]
      other := by
        simp only [Acc.hit, Acc.addCoord, Acc.addFlag, Bool.or_eq_true]
        exact Or.imp_left hother
      multipliers := h.multipliers
      boost := h.boost }

theorem Acc.Below.hit_right (h : Acc.Below k acc acc') {label : String} {delta : ℚ}
    {coord : Option Coord} {pts : ℚ} {flag : Option Flag} {legacy : Bool}
    (hdelta : 0 ≤ delta) (hpts : 0 ≤ pts) :
    Acc.Below k acc (acc'.hit id label delta coord pts flag legacy) := by
  have hother := h.other
  rcases coord with _ | _ | _ <;> rcases flag with _ | _ <;>
    exact {
      nonneg := h.nonneg
      value := by simp only [Acc.hit, Acc.addCoord, Acc.addFlag, id_eq]; linarith [h.value]
      damage := by simp only [Acc.hit, Acc.addCoord, Acc.addFlag, id_eq]; linarith [h.damage]
      resilienceLoss := by
        simp only [Acc.hit, Acc.addCoord, Acc.addFlag, id_eq]; linarith [h.resilienceLoss]
      other := by
        simp only [Acc.hit, Acc.addCoord, Acc.addFlag, Bool.or_eq_true]
        intro hacc
        exact Or.inl (hother hacc)
      multipliers := h.multipliers
      boost := h.boost }

theorem Acc.Below.hitLegacy (h : Acc.Below k acc acc') {label label' : String}
    {delta delta' : ℚ} {flag flag' : Option Flag} (h0 : 0 ≤ delta) (hdelta : delta ≤ delta') :
    Acc.Below k (acc.hitLegacy id label delta flag) (acc'.hitLegacy id label' delta' flag') :=
  h.hit h0 hdelta le_rfl

theorem Acc.Below.hitLegacy_right (h : Acc.Below k acc acc') {label : String} {delta : ℚ}
    {flag : Option Flag} (hdelta : 0 ≤ delta) :
    Acc.Below k acc (acc'.hitLegacy id label delta flag) :=
  h.hit_right hdelta le_rfl

theorem Acc.Below.hitCoord (h : Acc.Below k acc acc') {label label' : String} {pts pts' : ℚ}
    {coord : Coord} {flag flag' : Option Flag} (h0 : 0 ≤ pts) (hpts : pts ≤ pts') :
    Acc.Below k (acc.hitCoord id label pts coord flag) (acc'.hitCoord id label' pts' coord flag') :=
  h.hit h0 hpts hpts

theorem Acc.Below.hitCoord_right (h : Acc.Below k acc acc') {label : String} {pts : ℚ}
    {coord : Coord} {flag : Option Flag} (hpts : 0 ≤ pts) :
    Acc.Below k acc (acc'.hitCoord id label pts coord flag) :=
  h.hit_right hpts hpts

theorem Acc.Below.hitMult (h : Acc.Below k acc acc') {label label' : String} {m m' : ℚ}
    {coord : Coord} {pts pts' : ℚ} {flag flag' : Flag} (hm : m ≤ m') (h1 : 1 ≤ m')
    (hpts : pts ≤ pts') :
    Acc.Below k (acc.hitMult id label m coord pts flag)
      (acc'.hitMult id label' m' coord pts' flag') := by
  have hmults : ∀ x ∈ acc.multipliers ++ [m],
      (∃ x' ∈ acc'.multipliers ++ [m'], x ≤ x') ∨ (k = 25 ∧ x ≤ 125 / 100) := by
    intro x hx
    rcases List.mem_append.mp hx with hx | hx
    · rcases h.multipliers x hx with ⟨x', hx', hle⟩ | hstage
      · exact Or.inl ⟨x', List.mem_append_left _ hx', hle⟩
      · exact Or.inr hstage
    · obtain rfl := List.mem_singleton.mp hx
      exact Or.inl ⟨m', by simp, hm⟩
  have hboost : ∀ x ∈ acc'.multipliers ++ [m'], 1 ≤ x := by
    intro x hx
    rcases List.mem_append.mp hx with hx | hx
    · exact h.boost x hx
    · obtain rfl := List.mem_singleton.mp hx
      exact h1
  rcases coord with _ | _ <;>
    exact {
      nonneg := h.nonneg
      value := h.value
      damage := by simp only [Acc.hitMult, Acc.addCoord, Acc.addFlag, id_eq]; linarith [h.damage]
      resilienceLoss := by
        simp only [Acc.hitMult, Acc.addCoord, Acc.addFlag, id_eq]; linarith [h.resilienceLoss]
      other := fun _ => rfl
      multipliers := hmults
      boost := hboost }

theorem Acc.Below.hitMult_right (h : Acc.Below k acc acc') {label : String} {m : ℚ}
    {coord : Coord} {pts : ℚ} {flag : Flag} (h1 : 1 ≤ m) (hpts : 0 ≤ pts) :
    Acc.Below k acc (acc'.hitMult id label m coord pts flag) := by
  have hmults : ∀ x ∈ acc.multipliers,
      (∃ x' ∈ acc'.multipliers ++ [m], x ≤ x') ∨ (k = 25 ∧ x ≤ 125 / 100) := by
    intro x hx
    rcases h.multipliers x hx with ⟨x', hx', hle⟩ | hstage
    · exact Or.inl ⟨x', List.mem_append_left _ hx', hle⟩
    · exact Or.inr hstage
  have hboost : ∀ x ∈ acc'.multipliers ++ [m], 1 ≤ x := by
    intro x hx
    rcases List.mem_append.mp hx with hx | hx
    · exact h.boost x hx
    · obtain rfl := List.mem_singleton.mp hx
      exact h1
  rcases coord with _ | _ <;>
    exact {
      nonneg := h.nonneg
      value := h.value
      damage := by simp only [Acc.hitMult, Acc.addCoord, Acc.addFlag, id_eq]; linarith [h.damage]
      resilienceLoss := by
        simp only [Acc.hitMult, Acc.addCoord, Acc.addFlag, id_eq]; linarith [h.resilienceLoss]
      other := fun _ => rfl
      multipliers := hmults
      boost := hboost }

/-- The lineage factors of a reinforced rule score nothing. -/
theorem Acc.Below.reinforcementFor (h : Acc.Below k acc acc') (stats : RuleStats)
    (key : RuleKey) :
    Acc.Below k (reinforcementFor id stats key acc).2 (reinforcementFor id stats key acc').2 := by
  simp only [Storage.reinforcementFor]
  split_ifs <;> dsimp only
  · exact h.hit le_rfl le_rfl le_rfl
  · exact h.hit le_rfl le_rfl le_rfl
  · exact h

theorem Acc.Below.reinforcementFor_right (h : Acc.Below k acc acc') (stats : RuleStats)
    (key : RuleKey) : Acc.Below k acc (Storage.reinforcementFor id stats key acc').2 := by
  simp only [Storage.reinforcementFor]
  split_ifs <;> dsimp only
  · exact h.hit_right le_rfl le_rfl
  · exact h.hit_right le_rfl le_rfl
  · exact h

theorem reinforcementFor_mult (stats : RuleStats) (key : RuleKey) (a : Acc) :
    (reinforcementFor id stats key a).1 = reinforcement id key (stats key) := by
  simp only [reinforcementFor]
  split_ifs <;> rfl

/-! ### The legacy rules -/

variable {r r' : Reading}

theorem Acc.Below.reallocRule (h : Acc.Below k acc acc') (hr : r.Below r') :
    Acc.Below k (reallocRule id r acc) (reallocRule id r' acc') := by
  rcases hx : r.realloc with _ | x
  · simp only [Storage.reallocRule, hx]
    split
    · split_ifs
      · exact h.hitLegacy_right (by norm_num)
      · exact h.hitLegacy_right (by norm_num)
      · exact h
    · exact h
  · obtain ⟨y, hy, hxy⟩ := hr.realloc x hx
    simp only [Storage.reallocRule, hx, hy]
    split_ifs <;> first
      | exact h
      | (exfalso; linarith)
      | exact h.hitLegacy_right (by norm_num)
      | exact h.hitLegacy (by norm_num) (by norm_num)

theorem Acc.Below.ioErrorsRule (h : Acc.Below k acc acc') (hr : r.Below r') :
    Acc.Below k (ioErrorsRule id r acc) (ioErrorsRule id r' acc') := by
  have hle := hr.ioErrors
  simp only [Storage.ioErrorsRule, id_eq]
  split_ifs <;> first
    | exact h
    | (exfalso; linarith)
    | exact h.hitLegacy_right (by norm_num)
    | exact h.hitLegacy (by norm_num) (by norm_num)

theorem Acc.Below.wearRule (h : Acc.Below k acc acc') (hr : r.Below r') :
    Acc.Below k (wearRule id r acc) (wearRule id r' acc') := by
  rcases hx : r.wear with _ | x
  · simp only [Storage.wearRule, hx]
    split
    · split_ifs
      · exact h.hitLegacy_right (by norm_num)
      · exact h.hitLegacy_right (by norm_num)
      · exact h.hitLegacy_right (by norm_num)
      · exact h
    · exact h
  · obtain ⟨y, hy, hxy⟩ := hr.wear x hx
    simp only [Storage.wearRule, hx, hy]
    split_ifs <;> first
      | exact h
      | (exfalso; linarith)
      | exact h.hitLegacy_right (by norm_num)
      | exact h.hitLegacy (by norm_num) (by norm_num)

theorem Acc.Below.tempRule (h : Acc.Below k acc acc') (hr : r.Below r') :
    Acc.Below k (tempRule id r acc) (tempRule id r' acc') := by
  rcases hx : r.temp with _ | x
  · simp only [Storage.tempRule, hx]
    split
    · split
      · exact h.hitLegacy_right (by norm_num)
      · split_ifs
        · exact h.hitLegacy_right (by norm_num)
        · exact h
    · exact h
  · obtain ⟨y, hy, hxy⟩ := hr.temp x hx
    simp only [Storage.tempRule, hx, hy]
    split_ifs <;> first
      | exact h
      | (exfalso; linarith)
      | exact h.hitLegacy_right (by norm_num)
      | exact h.hitLegacy (by norm_num) (by norm_num)

theorem Acc.Below.powerOnRule (h : Acc.Below k acc acc') (hr : r.Below r') :
    Acc.Below k (powerOnRule id r acc) (powerOnRule id r' acc') := by
  rcases hx : r.poh with _ | x
  · simp only [Storage.powerOnRule, hx]
    split
    · split_ifs
      · exact h.hitLegacy_right (by norm_num)
      · exact h.hitLegacy_right (by norm_num)
      · exact h
    · exact h
  · obtain ⟨y, hy, hxy⟩ := hr.poh x hx
    simp only [Storage.powerOnRule, hx, hy]
    split_ifs <;> first
      | exact h
      | (exfalso; linarith)
      | exact h.hitLegacy_right (by norm_num)
      | exact h.hitLegacy (by norm_num) (by norm_num)

/-! ### The coordinate rules -/

theorem Acc.Below.predictFailRule (h : Acc.Below k acc acc') (hr : r.Below r') :
    Acc.Below k (predictFailRule id r acc) (predictFailRule id r' acc') := by
  simp only [Storage.predictFailRule]
  by_cases hx : r.predictFail = true
  · rw [if_pos hx, if_pos (hr.predictFail hx)]
    exact h.hitCoord (by norm_num) le_rfl
  · rw [if_neg hx]
    split
    · exact h.hitCoord_right (by norm_num)
    · exact h

theorem Acc.Below.cwBitRule (h : Acc.Below k acc acc') (hr : r.Below r') (bit : Nat)
    (label : String) {pts : ℚ} (coord : Coord) (flag : Option Flag) (hpts : 0 ≤ pts) :
    Acc.Below k (cwBitRule id bit label pts coord flag r acc)
      (cwBitRule id bit label pts coord flag r' acc') := by
  -- what the second rule does over an accumulator that stays
  have hright : Acc.Below k acc (Storage.cwBitRule id bit label pts coord flag r' acc') := by
    simp only [Storage.cwBitRule]
    split
    · split
      · exact h.hitCoord_right hpts
      · exact h
    · exact h
  rcases hx : r.cw with _ | c
  · simpa only [Storage.cwBitRule, hx] using hright
  · by_cases hbit : c.testBit bit = true
    · obtain ⟨c', hc', hbits⟩ := hr.warnings c hx
      simp only [Storage.cwBitRule, hx, hc', hbit, hbits bit hbit, if_true]
      exact h.hitCoord hpts le_rfl
    · simpa only [Storage.cwBitRule, hx, hbit, if_false, Bool.false_eq_true] using hright

theorem Acc.Below.positiveRule (h : Acc.Below k acc acc') {x x' : Option ℚ}
    (hle : NotSmaller x x') (suffix : String) {pts : ℚ} (coord : Coord) (flag : Option Flag)
    (hpts : 0 ≤ pts) :
    Acc.Below k (positiveRule id x suffix pts coord flag acc)
      (positiveRule id x' suffix pts coord flag acc') := by
  have hright : Acc.Below k acc (Storage.positiveRule id x' suffix pts coord flag acc') := by
    simp only [Storage.positiveRule]
    split
    · split_ifs
      · exact h.hitCoord_right hpts
      · exact h
    · exact h
  rcases x with _ | x
  · exact hright
  · by_cases hpos : 0 < x
    · obtain ⟨y, rfl, hxy⟩ := hle x rfl
      simp only [Storage.positiveRule, hpos, hpos.trans_le hxy, if_true]
      exact h.hitCoord hpts le_rfl
    · simpa only [Storage.positiveRule, hpos, if_false] using hright

/-- A muted upper band (60 · 0.8 = 48 points) still beats the lower one (45). -/
theorem Acc.Below.pendingRule (h : Acc.Below k acc acc') (hr : r.Below r')
    (stats : RuleStats) :
    Acc.Below k (pendingRule id stats r acc) (pendingRule id stats r' acc') := by
  have hmult := (reinforcement_bounds .pendingHigh (stats .pendingHigh)).1
  have hright : Acc.Below k acc (Storage.pendingRule id stats r' acc') := by
    simp only [Storage.pendingRule, reinforcementFor_mult, id_eq]
    split
    · split_ifs
      · exact (h.reinforcementFor_right stats _).hitCoord_right (by linarith)
      · exact h.hitCoord_right (by norm_num)
      · exact h
    · exact h
  rcases hx : r.pending with _ | x
  · simpa only [Storage.pendingRule, hx] using hright
  · obtain ⟨y, hy, hxy⟩ := hr.pending x hx
    by_cases hpos : 0 < x
    · simp only [Storage.pendingRule, hx, hy, reinforcementFor_mult, id_eq]
      split_ifs <;> first
        | (exfalso; linarith)
        | exact (h.reinforcementFor stats _).hitCoord (by linarith) le_rfl
        | exact (h.reinforcementFor_right stats _).hitCoord (by norm_num) (by linarith)
        | exact h.hitCoord (by norm_num) le_rfl
    · have hten : ¬ 10 < x := by linarith
      simpa only [Storage.pendingRule, hx, hpos, hten, if_false] using hright

theorem Acc.Below.spareRule (h : Acc.Below k acc acc') (hr : r.Below r') :
    Acc.Below k (spareRule id r acc) (spareRule id r' acc') := by
  have hright : Acc.Below k acc (Storage.spareRule id r' acc') := by
    simp only [Storage.spareRule]
    split
    · split_ifs
      · exact h.hitCoord_right (by norm_num)
      · exact h
    · exact h
  rcases hs : r.spare with _ | s
  · simpa only [Storage.spareRule, hs] using hright
  · rcases ht : r.spareThreshold with _ | t
    · simpa only [Storage.spareRule, hs, ht] using hright
    · by_cases hlow : s < t
      · obtain ⟨s', hs', hss⟩ := hr.spare s hs
        obtain ⟨t', ht', htt⟩ := hr.spareThreshold t ht
        have hlow' : s' < t' := by linarith
        simp only [Storage.spareRule, hs, ht, hs', ht', hlow, hlow', if_true]
        exact h.hitCoord (by norm_num) le_rfl
      · simpa only [Storage.spareRule, hs, ht, hlow, if_false] using hright

theorem Acc.Below.attr5Rule (h : Acc.Below k acc acc') (hr : r.Below r') :
    Acc.Below k (attr5Rule id r acc) (attr5Rule id r' acc') := by
  rcases hx : r.attr5 with _ | x
  · simp only [Storage.attr5Rule, hx]
    split
    · split_ifs
      · exact h.hitCoord_right (by norm_num)
      · exact h.hitCoord_right (by norm_num)
      · exact h
    · exact h
  · obtain ⟨y, hy, hxy⟩ := hr.attr5 x hx
    simp only [Storage.attr5Rule, hx, hy]
    split_ifs <;> first
      | exact h
      | (exfalso; linarith)
      | exact h.hitCoord_right (by norm_num)
      | exact h.hitCoord (by norm_num) (by norm_num)

/-- The two bands of the wear rule, at any two levels. -/
theorem Acc.Below.wearBands (h : Acc.Below k acc acc') {level level' : ℚ}
    (hle : level ≤ level') (label label' : String) :
    Acc.Below k
      (if 95 < level then acc.hitCoord id label 40 .D none
        else if 85 < level then acc.hitCoord id label 25 .D none else acc)
      (if 95 < level' then acc'.hitCoord id label' 40 .D none
        else if 85 < level' then acc'.hitCoord id label' 25 .D none else acc') := by
  split_ifs <;> first
    | exact h
    | (exfalso; linarith)
    | exact h.hitCoord_right (by norm_num)
    | exact h.hitCoord (by norm_num) (by norm_num)

theorem Acc.Below.wearLevelRule (h : Acc.Below k acc acc') (hr : r.Below r') :
    Acc.Below k (wearLevelRule id r acc) (wearLevelRule id r' acc') := by
  rcases hp : r.pctUsed with _ | p
  · simp only [Storage.wearLevelRule, hp]
    split
    · split_ifs
      · exact h.hitCoord_right (by norm_num)
      · exact h.hitCoord_right (by norm_num)
      · exact h
    · exact h
  · obtain ⟨p', hp', hpp⟩ := hr.pctUsed p hp
    -- the level is the larger of two readings, and both grow
    rcases hw : r.wear with _ | w
    · rcases hw' : r'.wear with _ | w'
      · simp only [Storage.wearLevelRule, hp, hp', hw, hw']
        exact h.wearBands hpp _ _
      · simp only [Storage.wearLevelRule, hp, hp', hw, hw']
        exact h.wearBands (hpp.trans (le_max_left p' w')) _ _
    · obtain ⟨w', hw', hww⟩ := hr.wear w hw
      simp only [Storage.wearLevelRule, hp, hp', hw, hw']
      exact h.wearBands (max_le_max hpp hww) _ _

theorem Acc.Below.unsafeShutdownsRule (h : Acc.Below k acc acc') (hr : r.Below r') :
    Acc.Below k (unsafeShutdownsRule id r acc) (unsafeShutdownsRule id r' acc') := by
  have hright : Acc.Below k acc (Storage.unsafeShutdownsRule id r' acc') := by
    simp only [Storage.unsafeShutdownsRule]
    split
    · split
      · exact h.hitCoord_right (by norm_num)
      · exact h
    · exact h
  rcases hx : r.unsafeShutdowns with _ | x
  · simpa only [Storage.unsafeShutdownsRule, hx] using hright
  · obtain ⟨y, hy, hxy⟩ := hr.unsafeShutdowns x hx
    by_cases hfires : unsafeShutdownsHigh < x ∧
        (0 < r.mediaErr.getD 0 ∨ 0 < r.pending.getD 0)
    · have hfires' : unsafeShutdownsHigh < y ∧
          (0 < r'.mediaErr.getD 0 ∨ 0 < r'.pending.getD 0) :=
        ⟨hfires.1.trans_le hxy, hfires.2.imp hr.mediaErr.getD_pos hr.pending.getD_pos⟩
      simp only [Storage.unsafeShutdownsRule, hx, hy, if_pos hfires, if_pos hfires']
      exact h.hitCoord (by norm_num) le_rfl
    · simpa only [Storage.unsafeShutdownsRule, hx, if_neg hfires] using hright

/-! ### Dynamics, synergy and chain rules -/

theorem Acc.Below.recurrenceRule (h : Acc.Below k acc acc') (hr : r.Below r')
    (stats : RuleStats) :
    Acc.Below k (recurrenceRule id stats r acc) (recurrenceRule id stats r' acc') := by
  have hmult := (reinforcement_bounds .mediaRecurrence (stats .mediaRecurrence)).1
  simp only [Storage.recurrenceRule, hr.isTarget, hr.recurrent, reinforcementFor_mult, id_eq]
  split
  · exact (h.reinforcementFor stats _).hitMult le_rfl (by linarith) le_rfl
  · exact h

theorem Acc.Below.accelRule (h : Acc.Below k acc acc') (hr : r.Below r') (trends : Trends) :
    Acc.Below k (accelRule id trends r acc) (accelRule id trends r' acc') := by
  simp only [Storage.accelRule, hr.isTarget]
  split
  · exact h.hitMult le_rfl (by norm_num) le_rfl
  · exact h

theorem Acc.Below.remapMaskingRule (h : Acc.Below k acc acc') (hr : r.Below r')
    (trends : Trends) :
    Acc.Below k (remapMaskingRule id trends r acc) (remapMaskingRule id trends r' acc') := by
  simp only [Storage.remapMaskingRule, hr.isTarget]
  split
  · exact h.hitCoord (by norm_num) le_rfl
  · exact h

variable {chain chain' : Option ErrChain}

theorem synergyMults_subset (hr : r.Below r') (hc : ChainAtLeast chain chain')
    (trends : Trends) {m : ℚ} (hm : m ∈ synergyMults id chain trends r) :
    m ∈ synergyMults id chain' trends r' := by
  simp only [synergyMults, List.mem_append, List.mem_ite_nil_right, List.mem_singleton,
    hr.isTarget, Bool.and_eq_true] at hm ⊢
  rcases hm with ⟨⟨hdefect, hstage⟩, hval⟩ | ⟨⟨htarget, hdir, hused⟩, hval⟩
  · exact Or.inl ⟨⟨hdefect.imp hr.pending.getD_pos hr.attr5.getD_pos,
      hstage.trans hc.stage⟩, hval⟩
  · exact Or.inr ⟨⟨htarget, hdir, hr.pctUsed.exceeds hused⟩, hval⟩

theorem one_le_of_mem_synergyMults {trends : Trends} {m : ℚ}
    (hm : m ∈ synergyMults id chain trends r) : 1 ≤ m := by
  simp only [synergyMults, List.mem_append, List.mem_ite_nil_right, List.mem_singleton] at hm
  rcases hm with ⟨_, rfl⟩ | ⟨_, rfl⟩ <;> norm_num

theorem Acc.Below.synergyRule (h : Acc.Below k acc acc') (hr : r.Below r')
    (hc : ChainAtLeast chain chain') (trends : Trends) :
    Acc.Below k (synergyRule id chain trends r acc) (synergyRule id chain' trends r' acc') := by
  rcases hx : (synergyMults id chain trends r).max? with _ | m
  · simp only [Storage.synergyRule, hx]
    split
    · rename_i m' hm'
      exact h.hitMult_right
        (one_le_of_mem_synergyMults (List.max?_eq_some_iff.mp hm').1) (by norm_num)
    · exact h
  · have hmem := synergyMults_subset hr hc trends (List.max?_eq_some_iff.mp hx).1
    rcases hy : (synergyMults id chain' trends r').max? with _ | m'
    · rw [List.max?_eq_none_iff.mp hy] at hmem
      cases hmem
    · obtain ⟨hmem', hmax⟩ := List.max?_eq_some_iff.mp hy
      simp only [Storage.synergyRule, hx, hy]
      exact h.hitMult (hmax m hmem) (one_le_of_mem_synergyMults hmem') le_rfl

/-- The one rule that changes the lead: from stage 2 to stage 3 a multiplier gives way to
    25 points. -/
theorem Acc.Below.chainStageRule (h : Acc.Below 0 acc acc') (hc : ChainAtLeast chain chain') :
    ∃ k, (k = 0 ∨ k = 25) ∧
      Acc.Below k (chainStageRule id chain acc) (chainStageRule id chain' acc') := by
  have hstage := hc.stage
  simp only [Storage.chainStageRule]
  generalize (chain.map (·.stage)).getD 0 = stage at hstage ⊢
  generalize (chain'.map (·.stage)).getD 0 = stage' at hstage ⊢
  by_cases h3 : 3 ≤ stage
  · have h3' : 3 ≤ stage' := h3.trans hstage
    rw [if_pos h3, if_pos h3']
    exact ⟨0, Or.inl rfl, h.hit (by norm_num) le_rfl le_rfl⟩
  · rw [if_neg h3]
    by_cases h2 : stage = 2
    · rw [if_pos h2]
      by_cases h3' : 3 ≤ stage'
      · rw [if_pos h3']
        refine ⟨25, Or.inr rfl, ?_⟩
        exact {
          nonneg := h.nonneg
          value := by
            simp only [Acc.hit, Acc.hitMult, Acc.addCoord, Acc.addFlag, id_eq]; linarith [h.value]
          damage := h.damage
          resilienceLoss := by
            simp only [Acc.hit, Acc.hitMult, Acc.addCoord, Acc.addFlag, id_eq]
            linarith [h.resilienceLoss]
          other := fun _ => by simp [Acc.hit, Acc.addCoord, Acc.addFlag]
          multipliers := by
            intro m hm
            rcases List.mem_append.mp hm with hm | hm
            · rcases h.multipliers m hm with hle | ⟨h25, _⟩
              · exact Or.inl hle
              · norm_num at h25
            · obtain rfl := List.mem_singleton.mp hm
              exact Or.inr ⟨rfl, le_rfl⟩
          boost := h.boost }
      · have h2' : stage' = 2 := by omega
        rw [if_neg h3', if_pos h2']
        exact ⟨0, Or.inl rfl, h.hitMult le_rfl (by norm_num) le_rfl⟩
    · rw [if_neg h2]
      refine ⟨0, Or.inl rfl, ?_⟩
      split_ifs
      · exact h.hit_right (by norm_num) (by norm_num)
      · exact h.hitMult_right (by norm_num) (by norm_num)
      · exact h

theorem Acc.Below.burstinessRule (h : Acc.Below k acc acc') (hc : ChainAtLeast chain chain') :
    Acc.Below k (burstinessRule id chain acc) (burstinessRule id chain' acc') := by
  simp only [Storage.burstinessRule]
  by_cases hx : exceeds (chain.bind (·.burstiness)) 2 = true
  · rw [if_pos hx, if_pos (hc.burstiness.exceeds hx)]
    exact h.hitCoord (by norm_num) le_rfl
  · rw [if_neg hx]
    split
    · exact h.hitCoord_right (by norm_num)
    · exact h

theorem Acc.Below.earlyEventsRule (h : Acc.Below k acc acc') (hc : ChainAtLeast chain chain')
    (stats : RuleStats) :
    Acc.Below k (earlyEventsRule id stats chain acc) (earlyEventsRule id stats chain' acc') := by
  have hcounts := hc.counts
  rcases chain with _ | c <;> rcases chain' with _ | c'
  · exact h
  · cases hcounts
  · cases hcounts
  · simp only [Option.map_some, Option.some.injEq] at hcounts
    simp only [Storage.earlyEventsRule, hcounts]
    split
    · rw [reinforcementFor_mult, reinforcementFor_mult, id_eq]
      exact (h.reinforcementFor stats _).hit (by simp) le_rfl le_rfl
    · exact h

theorem Acc.Below.bathtubRule (h : Acc.Below k acc acc') (hr : r.Below r') :
    Acc.Below k (bathtubRule id r acc) (bathtubRule id r' acc') := by
  simp only [Storage.bathtubRule, Bool.and_eq_true, Bool.or_eq_true]
  by_cases hx : acc.otherNewFactor = true ∧
      (exceeds r.poh 40000 = true ∨ exceeds r.powerCycles 10000 = true)
  · rw [if_pos hx, if_pos ⟨h.other hx.1, hx.2.imp hr.poh.exceeds hr.powerCycles.exceeds⟩]
    exact h.hitCoord (by norm_num) le_rfl
  · rw [if_neg hx]
    split
    · exact h.hitCoord_right (by norm_num)
    · exact h

theorem Acc.Below.latencyRule (h : Acc.Below k acc acc') (hk : 0 ≤ k)
    (heartbeat : Option HeartbeatPayload) :
    Acc.Below k (latencyRule id heartbeat acc) (latencyRule id heartbeat acc') := by
  simp only [Storage.latencyRule]
  split
  · rename_i hx
    have hpos : 0 < acc'.value := by linarith [h.value, hx.1]
    rw [if_pos ⟨hpos, hx.2⟩]
    exact h.hit (by norm_num) le_rfl le_rfl
  · split
    · exact h.hit_right (by norm_num) le_rfl
    · exact h

/-! ### The closing clamps -/

theorem Acc.Below.one_le_max (h : Acc.Below k acc acc') :
    1 ≤ acc'.multipliers.max?.getD 1 := by
  cases hmax : acc'.multipliers.max? with
  | none => exact le_rfl
  | some m => exact h.boost m (List.max?_eq_some_iff.mp hmax).1

/-- A larger multiplier of a larger clamped value. -/
theorem Acc.Below.scaled (h : Acc.Below k acc acc') (hk : 0 ≤ k) {m : ℚ}
    (hm : m ≤ acc'.multipliers.max?.getD 1) :
    clamp acc.value * m ≤ clamp acc'.value * acc'.multipliers.max?.getD 1 := by
  have hvalue : acc.value ≤ acc'.value := by linarith [h.value]
  calc clamp acc.value * m ≤ clamp acc.value * acc'.multipliers.max?.getD 1 :=
        mul_le_mul_of_nonneg_left hm (clamp_nonneg _)
    _ ≤ clamp acc'.value * acc'.multipliers.max?.getD 1 :=
        mul_le_mul_of_nonneg_right (clamp_mono hvalue) (by linarith [h.one_le_max])

/-- Up to 75 points a quarter of the value is at most the 25 points of the lead; beyond
    75 the lead reaches 100, where both axes end. -/
theorem Acc.Below.outweighs (h : Acc.Below 25 acc acc') {m : ℚ} (hm : m ≤ 125 / 100) :
    clamp (clamp acc.value * m) ≤
      clamp (clamp acc'.value * acc'.multipliers.max?.getD 1) := by
  have hvalue := h.value
  have hone := h.one_le_max
  by_cases h75 : acc.value ≤ 75
  · have hmul : clamp acc.value * m ≤ clamp acc.value * (125 / 100) :=
      mul_le_mul_of_nonneg_left hm (clamp_nonneg _)
    have hclamp : clamp acc.value = acc.value := by
      rw [clamp, min_eq_right (by linarith), max_eq_right h.nonneg]
    have hlead : acc.value + 25 ≤ clamp acc'.value := by
      calc acc.value + 25 ≤ min 100 acc'.value := le_min (by linarith) hvalue
        _ ≤ clamp acc'.value := le_max_right _ _
    apply clamp_mono
    calc clamp acc.value * m ≤ acc.value * (125 / 100) := by rw [hclamp] at hmul ⊢; exact hmul
      _ ≤ clamp acc'.value := by linarith
      _ ≤ clamp acc'.value * acc'.multipliers.max?.getD 1 :=
        le_mul_of_one_le_right (clamp_nonneg _) hone
  · have hfull : clamp acc'.value = 100 := clamp_of_hundred_le (by linarith)
    have hover : 100 ≤ clamp acc'.value * acc'.multipliers.max?.getD 1 := by
      rw [hfull]
      linarith
    rw [clamp_of_hundred_le hover]
    exact clamp_le_hundred _

theorem Acc.Below.axis (h : Acc.Below k acc acc') (hk : k = 0 ∨ k = 25) :
    clamp (clamp acc.value * acc.multipliers.max?.getD 1) ≤
      clamp (clamp acc'.value * acc'.multipliers.max?.getD 1) := by
  have hk0 : 0 ≤ k := by rcases hk with rfl | rfl <;> norm_num
  cases hmax : acc.multipliers.max? with
  | none => exact clamp_mono (h.scaled hk0 h.one_le_max)
  | some m =>
    rcases h.multipliers m (List.max?_eq_some_iff.mp hmax).1 with ⟨m', hm', hle⟩ | ⟨rfl, hle⟩
    · have hmax' : m' ≤ acc'.multipliers.max?.getD 1 := by
        cases hx : acc'.multipliers.max? with
        | none =>
          rw [List.max?_eq_none_iff.mp hx] at hm'
          cases hm'
        | some x => exact (List.max?_eq_some_iff.mp hx).2 m' hm'
      exact clamp_mono (h.scaled hk0 (hle.trans hmax'))
    · exact h.outweighs hle

end Below

/-! ### The reads -/

/-- The float of a present reading, where `float()` does not raise. -/
def asNum (fl : ℚ → ℚ) (x : Option Int) : Option ℚ := x.map fun n : Int => fl n

theorem floatNum_ok {fl : ℚ → ℚ} {x : Option Int} {y : Option ℚ} (h : floatNum fl x = .ok y) :
    y = asNum fl x := by
  cases x with
  | none => exact (Except.ok.inj h).symm
  | some n =>
    simp only [floatNum, num, floatOfInt] at h
    split at h
    · exact (Except.ok.inj h).symm
    · cases h

theorem NotSmaller.cast {x y : Option Int} (h : NotSmaller x y) :
    NotSmaller (asNum id x) (asNum id y) := by
  intro a ha
  obtain ⟨n, hn, rfl⟩ := Option.map_eq_some_iff.mp ha
  obtain ⟨m, hm, hnm⟩ := h n hn
  refine ⟨m, by rw [hm]; rfl, ?_⟩
  simp only [id_eq]
  exact_mod_cast hnm

theorem getD_asNum (x : Option Int) : (asNum id x).getD 0 = ((x.getD 0 : Int) : ℚ) := by
  cases x <;> simp [asNum]

/-- Both branches of a conditional read continue alike. -/
theorem ite_bind {α β : Type} (c : Prop) [Decidable c] (x y : Except PyError α)
    (f : α → Except PyError β) :
    (if c then x >>= f else y >>= f) = (if c then x else y) >>= f := by
  split <;> rfl

/-- The integers that `_score_disk` converts. -/
def scoredInts (d : StorageReliability) : List (Option Int) :=
  [d.reallocatedSectors, d.readErrorsTotal, d.writeErrorsTotal, d.temperatureC, d.powerOnHours,
   d.smartAttrs.lookup "197", d.smartAttrs.lookup "198", d.nvmeMediaErrors, d.nvmeSparePct,
   d.nvmeSpareThresholdPct, d.smartAttrs.lookup "5", d.smartAttrs.lookup "187",
   d.smartAttrs.lookup "188", d.readErrorsUncorrected, d.writeErrorsUncorrected,
   d.smartAttrs.lookup "196", d.nvmePercentageUsed, d.nvmeUnsafeShutdowns, d.nvmePowerCycles]

/-- What a successful read has converted and holds, field by field. -/
theorem readDisk_ok {fl : ℚ → ℚ} {d : StorageReliability} {series : List DiskReading} {r : Reading}
    (h : readDisk fl d series = .ok r) :
    (∀ x ∈ scoredInts d, ∃ y, floatNum fl x = .ok y) ∧ ∃ stable recurrent,
      (if exceeds (asNum fl d.temperatureC) 70 then tempSustainedHigh fl d series else pure false) =
        .ok stable ∧
      (if isTargetDisk d series then hasRecurrence fl series else pure false) = .ok recurrent ∧
      r = { realloc := asNum fl d.reallocatedSectors
            readErr := asNum fl d.readErrorsTotal
            writeErr := asNum fl d.writeErrorsTotal
            wear := d.wearPct
            temp := asNum fl d.temperatureC
            poh := asNum fl d.powerOnHours
            predictFail := d.smartPredictFail.getD false
            cw := d.nvmeCriticalWarning
            pending := asNum fl (d.smartAttrs.lookup "197")
            uncorrectable := asNum fl (d.smartAttrs.lookup "198")
            mediaErr := asNum fl d.nvmeMediaErrors
            spare := asNum fl d.nvmeSparePct
            spareThreshold := asNum fl d.nvmeSpareThresholdPct
            attr5 := asNum fl (d.smartAttrs.lookup "5")
            attr187 := asNum fl (d.smartAttrs.lookup "187")
            attr188 := asNum fl (d.smartAttrs.lookup "188")
            readUncorr := asNum fl d.readErrorsUncorrected
            writeUncorr := asNum fl d.writeErrorsUncorrected
            attr196 := asNum fl (d.smartAttrs.lookup "196")
            pctUsed := asNum fl d.nvmePercentageUsed
            unsafeShutdowns := asNum fl d.nvmeUnsafeShutdowns
            powerCycles := asNum fl d.nvmePowerCycles
            tempStable := stable
            isTarget := isTargetDisk d series
            recurrent := recurrent } := by
  simp only [readDisk, ite_bind] at h
  obtain ⟨_, h1, h⟩ := bind_eq_ok.mp h
  obtain ⟨_, h2, h⟩ := bind_eq_ok.mp h
  obtain ⟨_, h3, h⟩ := bind_eq_ok.mp h
  obtain ⟨_, h4, h⟩ := bind_eq_ok.mp h
  obtain ⟨stable, hstable, h⟩ := bind_eq_ok.mp h
  obtain ⟨_, h5, h⟩ := bind_eq_ok.mp h
  obtain ⟨_, h6, h⟩ := bind_eq_ok.mp h
  obtain ⟨_, h7, h⟩ := bind_eq_ok.mp h
  obtain ⟨_, h8, h⟩ := bind_eq_ok.mp h
  obtain ⟨_, h9, h⟩ := bind_eq_ok.mp h
  obtain ⟨_, h10, h⟩ := bind_eq_ok.mp h
  obtain ⟨_, h11, h⟩ := bind_eq_ok.mp h
  obtain ⟨_, h12, h⟩ := bind_eq_ok.mp h
  obtain ⟨_, h13, h⟩ := bind_eq_ok.mp h
  obtain ⟨_, h14, h⟩ := bind_eq_ok.mp h
  obtain ⟨_, h15, h⟩ := bind_eq_ok.mp h
  obtain ⟨_, h16, h⟩ := bind_eq_ok.mp h
  obtain ⟨_, h17, h⟩ := bind_eq_ok.mp h
  obtain ⟨_, h18, h⟩ := bind_eq_ok.mp h
  obtain ⟨recurrent, hrec, h⟩ := bind_eq_ok.mp h
  obtain ⟨_, h19, h⟩ := bind_eq_ok.mp h
  rw [floatNum_ok h4] at hstable
  refine ⟨?_, stable, recurrent, hstable, hrec, ?_⟩
  · unfold scoredInts
    simp only [List.forall_mem_cons, List.not_mem_nil, false_implies, implies_true, and_true]
    exact ⟨⟨_, h1⟩, ⟨_, h2⟩, ⟨_, h3⟩, ⟨_, h4⟩, ⟨_, h5⟩, ⟨_, h6⟩, ⟨_, h7⟩, ⟨_, h8⟩, ⟨_, h9⟩,
      ⟨_, h10⟩, ⟨_, h11⟩, ⟨_, h12⟩, ⟨_, h13⟩, ⟨_, h14⟩, ⟨_, h15⟩, ⟨_, h16⟩, ⟨_, h17⟩, ⟨_, h18⟩,
      ⟨_, h19⟩⟩
  · rw [← Except.ok.inj h, floatNum_ok h1, floatNum_ok h2, floatNum_ok h3, floatNum_ok h4, floatNum_ok h5, floatNum_ok h6,
      floatNum_ok h7, floatNum_ok h8, floatNum_ok h9, floatNum_ok h10, floatNum_ok h11, floatNum_ok h12, floatNum_ok h13,
      floatNum_ok h14, floatNum_ok h15, floatNum_ok h16, floatNum_ok h17, floatNum_ok h18, floatNum_ok h19]

theorem AtLeastAsBad.reading {d d' : StorageReliability} {series : List DiskReading}
    {r r' : Reading} (hbad : AtLeastAsBad d d') (h : readDisk id d series = .ok r)
    (h' : readDisk id d' series = .ok r') : r.Below r' := by
  have htarget : isTargetDisk d' series = isTargetDisk d series := by
    cases series with
    | nil => rfl
    | cons row _ => simp only [isTargetDisk, hbad.sameDisk]
  have hattr : ∀ attr ∈ scoredAttrs, NotSmaller (asNum id (d.smartAttrs.lookup attr))
      (asNum id (d'.smartAttrs.lookup attr)) :=
    fun attr hattr => (hbad.attrs attr hattr).cast
  obtain ⟨-, stable, recurrent, -, hrec, rfl⟩ := readDisk_ok h
  obtain ⟨-, stable', recurrent', -, hrec', rfl⟩ := readDisk_ok h'
  rw [htarget, hrec] at hrec'
  exact {
    realloc := hbad.realloc.cast
    ioErrors := by
      simp only [getD_asNum]
      exact_mod_cast add_le_add hbad.readErr hbad.writeErr
    uncorrRw := by
      simp only [getD_asNum]
      exact_mod_cast add_le_add hbad.readUncorr hbad.writeUncorr
    wear := hbad.wear
    temp := hbad.temp.cast
    poh := hbad.poh.cast
    predictFail := by
      intro hfail
      rcases hp : d.smartPredictFail with _ | b
      · simp [hp] at hfail
      · obtain rfl : b = true := by simpa [hp] using hfail
        simp [hbad.predictFail hp]
    warnings := hbad.warnings
    pending := hattr "197" (by decide)
    uncorrectable := hattr "198" (by decide)
    mediaErr := hbad.mediaErr.cast
    spare := by
      intro s hs
      obtain ⟨n, hn, rfl⟩ := Option.map_eq_some_iff.mp hs
      obtain ⟨m, hm, hle⟩ := hbad.spare n hn
      refine ⟨m, by rw [hm]; rfl, ?_⟩
      simp only [id_eq]
      exact_mod_cast hle
    spareThreshold := hbad.spareThreshold.cast
    attr5 := hattr "5" (by decide)
    attr187 := hattr "187" (by decide)
    attr188 := hattr "188" (by decide)
    attr196 := hattr "196" (by decide)
    pctUsed := hbad.pctUsed.cast
    unsafeShutdowns := hbad.unsafeShutdowns.cast
    powerCycles := hbad.powerCycles.cast
    isTarget := htarget
    recurrent := (Except.ok.inj hrec').symm }

/-! ### The whole pass -/

theorem Acc.below_empty : Acc.Below 0 {} {} := {
  nonneg := le_rfl
  value := by simp
  damage := le_rfl
  resilienceLoss := le_rfl
  other := id
  multipliers := by simp
  boost := by simp }

/-- The rules in source order, each keeping the relation. -/
theorem applyRules_below {ctx : Context} {chain' : Option ErrChain} {r r' : Reading}
    (hr : r.Below r') (hc : ChainAtLeast ctx.chain chain') :
    ∃ k, (k = 0 ∨ k = 25) ∧
      Acc.Below k (applyRules id ctx r) (applyRules id { ctx with chain := chain' } r') := by
  have h := Acc.below_empty.reallocRule hr
  replace h := h.ioErrorsRule hr
  replace h := h.wearRule hr
  replace h := h.tempRule hr
  replace h := h.powerOnRule hr
  replace h := h.predictFailRule hr
  replace h := h.cwBitRule hr 0 "NVMe: резерв компенсации ниже порога" .R (some .cwSpare)
    (show (0 : ℚ) ≤ 70 by norm_num)
  replace h := h.cwBitRule hr 1 "NVMe: критическая температура" .R none
    (show (0 : ℚ) ≤ 30 by norm_num)
  replace h := h.cwBitRule hr 2 "NVMe: надёжность подсистемы деградировала" .D
    (some .cwReliability) (show (0 : ℚ) ≤ 70 by norm_num)
  replace h := h.cwBitRule hr 3 "NVMe: диск в режиме только для чтения" .D
    (some .cwReadonly) (show (0 : ℚ) ≤ 80 by norm_num)
  replace h := h.cwBitRule hr 4 "NVMe: сбой резервного питания энергозависимой памяти" .D
    none (show (0 : ℚ) ≤ 40 by norm_num)
  replace h := h.pendingRule hr ctx.ruleStats
  replace h := h.positiveRule hr.uncorrectable " неисправимых секторов (attr 198)" .D
    (some .uncorrectable198) (show (0 : ℚ) ≤ 60 by norm_num)
  replace h := h.positiveRule hr.mediaErr " ошибок носителя NVMe" .D (some .damagePresent)
    (show (0 : ℚ) ≤ 45 by norm_num)
  replace h := h.spareRule hr
  replace h := h.attr5Rule hr
  replace h := h.positiveRule hr.attr187 " зафиксированных неисправимых ошибок (attr 187)" .D
    (some .damagePresent) (show (0 : ℚ) ≤ 35 by norm_num)
  replace h := h.positiveRule hr.attr188 " таймаутов команд (attr 188)" .R none
    (show (0 : ℚ) ≤ 20 by norm_num)
  have huncorr : NotSmaller (some (r.readUncorr.getD 0 + r.writeUncorr.getD 0))
      (some (r'.readUncorr.getD 0 + r'.writeUncorr.getD 0)) := by
    intro a ha
    obtain rfl := Option.some.inj ha
    exact ⟨_, rfl, hr.uncorrRw⟩
  replace h := h.positiveRule huncorr " неисправленных ошибок чтения/записи" .D
    (some .damagePresent) (show (0 : ℚ) ≤ 40 by norm_num)
  replace h := h.positiveRule hr.attr196 " событий переназначения (attr 196)" .D
    (some .damagePresent) (show (0 : ℚ) ≤ 25 by norm_num)
  replace h := h.wearLevelRule hr
  replace h := h.unsafeShutdownsRule hr
  replace h := h.recurrenceRule hr ctx.ruleStats
  replace h := h.accelRule hr ctx.trends
  replace h := h.remapMaskingRule hr ctx.trends
  replace h := h.synergyRule hr hc ctx.trends
  obtain ⟨k, hk, h⟩ := h.chainStageRule hc
  have hk0 : 0 ≤ k := by rcases hk with rfl | rfl <;> norm_num
  replace h := h.burstinessRule hc
  replace h := h.earlyEventsRule hc ctx.ruleStats
  replace h := h.bathtubRule hr
  exact ⟨k, hk, h.latencyRule hk0 ctx.heartbeat⟩

/-- Counts alike and a higher stage are not enough: a chain whose errors come in clusters
    scores ten points that a calm one of the same counts does not. -/
theorem scoreDisk_not_mono_in_burstiness :
    ¬ ∀ (ctx : Context) (chain' : Option ErrChain) (d d' : StorageReliability)
      (s s' : DiskScore), AtLeastAsBad d d' →
      chain'.map (·.counts) = ctx.chain.map (·.counts) →
      (ctx.chain.map (·.stage)).getD 0 ≤ (chain'.map (·.stage)).getD 0 →
      scoreDisk id ctx d = .ok s → scoreDisk id { ctx with chain := chain' } d' = .ok s' →
      s.value ≤ s'.value ∧ s.coords.damage ≤ s'.coords.damage ∧
        s.coords.resilienceLoss ≤ s'.coords.resilienceLoss := by
  intro hmono
  have hvalue := (hmono { chain := some { burstiness := some 3 } } (some {}) {} {} _ _
    (AtLeastAsBad.refl {}) rfl le_rfl rfl rfl).1
  revert hvalue
  decide +kernel

/-- **Storage risk is monotone in the evidence.** -/
theorem scoreDisk_mono {ctx : Context} {chain' : Option ErrChain} {d d' : StorageReliability}
    {s s' : DiskScore} (hbad : AtLeastAsBad d d') (hchain : ChainAtLeast ctx.chain chain')
    (h : scoreDisk id ctx d = .ok s) (h' : scoreDisk id { ctx with chain := chain' } d' = .ok s') :
    s.value ≤ s'.value ∧ s.coords.damage ≤ s'.coords.damage ∧
      s.coords.resilienceLoss ≤ s'.coords.resilienceLoss := by
  simp only [scoreDisk] at h h'
  cases hread : readDisk id d ctx.diskSeries with
  | error e =>
    rw [hread] at h
    cases h
  | ok r =>
    cases hread' : readDisk id d' ctx.diskSeries with
    | error e =>
      rw [hread'] at h'
      cases h'
    | ok r' =>
      rw [hread] at h
      rw [hread'] at h'
      obtain rfl := Except.ok.inj h
      obtain rfl := Except.ok.inj h'
      obtain ⟨k, hk, hbelow⟩ := applyRules_below (hbad.reading hread hread') hchain
      exact ⟨hbelow.axis hk, clamp_mono hbelow.damage, clamp_mono hbelow.resilienceLoss⟩

/-- A disk whose pending sectors grow past the muted band while its chain ends in a crash. -/
theorem scoreDisk_mono_muted :
    ∃ s s' : DiskScore,
      scoreDisk id { chain := some { stage := 2 }
                     ruleStats := fun _ => { confirmed := 0, refuted := 10 } }
        { smartAttrs := [("197", 5)] } = .ok s ∧
      scoreDisk id { chain := some { stage := 3 }
                     ruleStats := fun _ => { confirmed := 0, refuted := 10 } }
        { smartAttrs := [("197", 12)] } = .ok s' ∧
      s.value ≤ s'.value ∧ s.coords.damage ≤ s'.coords.damage ∧
        s.coords.resilienceLoss ≤ s'.coords.resilienceLoss := by
  have hbad : AtLeastAsBad { smartAttrs := [("197", 5)] } { smartAttrs := [("197", 12)] } := {
    AtLeastAsBad.refl { smartAttrs := [] } with
    attrs := by
      simp only [scoredAttrs, NotSmaller]
      decide }
  have hchain : ChainAtLeast (some { stage := 2 }) (some { stage := 3 }) :=
    ⟨rfl, by decide, .refl _⟩
  obtain ⟨s, hs⟩ := exists_ok_of_isOk
    (show (scoreDisk id { chain := some { stage := 2 }
                          ruleStats := fun _ => { confirmed := 0, refuted := 10 } }
      { smartAttrs := [("197", 5)] }).isOk = true by decide +kernel)
  obtain ⟨s', hs'⟩ := exists_ok_of_isOk
    (show (scoreDisk id { chain := some { stage := 3 }
                          ruleStats := fun _ => { confirmed := 0, refuted := 10 } }
      { smartAttrs := [("197", 12)] }).isOk = true by decide +kernel)
  exact ⟨s, s', hs, hs', scoreDisk_mono hbad hchain hs hs'⟩

end Srp.Analytics.Storage
