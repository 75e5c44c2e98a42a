/-
  Srp/Analytics/HealthRatchet.lean
  ================================
  **The ratchet over whole runs.**

  `recompute_scores` feeds every verdict back as the next call's `prev_health`,
  so a sequence of recomputes is a run of the machine `healthMachine`, whose
  state is the stored health blob.  The law of the ratchet is a statement about
  such runs: between two visible cycles the state improves by at most one step,
  and only on positive evidence.

  What a cycle compares with is `state` of the blob after a visible cycle, but
  `last_known_state` after a blind one, and the two differ exactly when the
  systemic floor raised the verdict: the floor is applied after
  `last_known_state` is taken.  `ratchetLaw_iff` says in which runs this loses
  the remembered state.
-/
import Srp.Analytics.Health
import Srp.Lib.Machine

namespace Srp.Analytics.Health

open Srp.Lib Srp.Scoring

/-! ### What one call returns -/

theorem dominant_snd (axes : Axes) (trends : Trends) :
    (dominant axes trends).2 = isSystemic axes trends := by
  unfold dominant
  split
  · next h => exact h.symm
  · next h => exact (Bool.eq_false_iff.mpr h).symm

/-- The state of the verdict: the ratcheted state, raised by the systemic floor. -/
theorem computeHealth_state (x : HealthInputs) (prev : Option PrevHealth) :
    (computeHealth x prev).state =
      systemicFloor (isSystemic x.axes x.trends) (x.ratcheted prev) := by
  rw [← dominant_snd]
  rfl

/-- `last_known_state` is taken before the floor. -/
theorem computeHealth_lastKnownState (x : HealthInputs) (prev : Option PrevHealth) :
    (computeHealth x prev).lastKnownState =
      if x.ratcheted prev ≠ .unknown then some (x.ratcheted prev)
      else prev.bind (·.lastKnownState) := rfl

/-- The evidence that lets the ratchet improve a state by one step. -/
def HealthInputs.Improves (x : HealthInputs) : Prop :=
  .rebootRestores ∈ x.allFlags ∨ countersFlat x.trends = true

/-- The hardware-reset branch: two worst disks are known and differ. -/
def HealthInputs.DiskChanged (x : HealthInputs) (prev : PrevHealth) : Prop :=
  x.curDisk.isSome ∧ prev.worstDisk.isSome ∧ x.curDisk ≠ prev.worstDisk

theorem stateOrder_eq_none {s : State} : stateOrder s = none ↔ s = .unknown := by
  cases s <;> simp [stateOrder]

theorem rankState_of_stateOrder {s : State} {a : Nat} (h : stateOrder s = some a) :
    rankState a = s := by
  cases s <;> simp only [stateOrder, Option.some.injEq, reduceCtorEq] at h <;> subst h <;> rfl

theorem stateOrder_le_four {s : State} {a : Nat} (h : stateOrder s = some a) : a ≤ 4 := by
  cases s <;> simp only [stateOrder, Option.some.injEq, reduceCtorEq] at h <;> omega

theorem stateOrder_rankState {a : Nat} (h : a ≤ 4) : stateOrder (rankState a) = some a := by
  match a, h with
  | 0, _ => rfl
  | 1, _ => rfl
  | 2, _ => rfl
  | 3, _ => rfl
  | 4, _ => rfl

theorem stateOrder_systemicFloor (systemic : Bool) {s : State} {a : Nat}
    (h : stateOrder s = some a) :
    stateOrder (systemicFloor systemic s) = some (if systemic then max a 2 else a) := by
  cases systemic <;> cases s <;>
    simp only [stateOrder, Option.some.injEq, reduceCtorEq] at h <;> subst h <;> rfl

theorem systemicFloor_unknown (systemic : Bool) : systemicFloor systemic .unknown = .unknown := by
  cases systemic <;> rfl

/-! ### The ratchet against a known memory -/

/-- The rank a visible cycle of rank `cur` keeps against a remembered rank `old`. -/
def heldRank (old cur : Nat) (improves : Prop) [Decidable improves] : Nat :=
  if old ≤ cur then cur else if improves then old - 1 else old

instance (x : HealthInputs) : Decidable x.Improves :=
  inferInstanceAs (Decidable (_ ∨ _))

instance (x : HealthInputs) (prev : PrevHealth) : Decidable (x.DiskChanged prev) :=
  inferInstanceAs (Decidable (_ ∧ _))

theorem ratcheted_unknown {x : HealthInputs} (h : x.raw = .unknown) (prev : Option PrevHealth) :
    x.ratcheted prev = .unknown := by
  unfold HealthInputs.ratcheted ratchet
  rw [h]
  cases prev <;> rfl

theorem ratcheted_eq {x : HealthInputs} {prev : PrevHealth} {old cur : Nat}
    (hraw : stateOrder x.raw = some cur)
    (hmem : (rememberedState prev).bind stateOrder = some old) :
    x.ratcheted (some prev) =
      if old ≤ cur then x.raw
      else if x.DiskChanged prev then x.raw
      else if x.Improves then rankState (old - 1)
      else rankState old := by
  unfold HealthInputs.ratcheted ratchet
  simp only [hraw, hmem]
  rfl

theorem ratcheted_fresh {x : HealthInputs} {prev : PrevHealth}
    (hmem : (rememberedState prev).bind stateOrder = none) :
    x.ratcheted (some prev) = x.raw := by
  unfold HealthInputs.ratcheted ratchet
  simp only [hmem]
  split
  · next h => cases h
  · rfl

/-- Spec of the ratchet for a visible cycle with a memory and the same hardware. -/
theorem ratcheted_held {x : HealthInputs} {prev : PrevHealth} {m : State} {old cur : Nat}
    (hraw : stateOrder x.raw = some cur) (hmem : rememberedState prev = some m)
    (hm : stateOrder m = some old) (hdisk : ¬ x.DiskChanged prev) :
    stateOrder (x.ratcheted (some prev)) = some (heldRank old cur x.Improves) := by
  have hbind : (rememberedState prev).bind stateOrder = some old := by rw [hmem]; exact hm
  have hold : old ≤ 4 := stateOrder_le_four hm
  rw [ratcheted_eq hraw hbind, if_neg hdisk]
  unfold heldRank
  by_cases hle : old ≤ cur
  · rw [if_pos hle, if_pos hle, hraw]
  · rw [if_neg hle, if_neg hle]
    by_cases himp : x.Improves
    · rw [if_pos himp, if_pos himp]
      exact stateOrder_rankState (by omega)
    · rw [if_neg himp, if_neg himp]
      exact stateOrder_rankState hold

theorem ratcheted_reset {x : HealthInputs} {prev : PrevHealth} (hdisk : x.DiskChanged prev) :
    x.ratcheted (some prev) = x.raw := by
  cases hraw : stateOrder x.raw with
  | none =>
    have hunk : x.raw = .unknown := stateOrder_eq_none.mp hraw
    rw [ratcheted_unknown hunk, hunk]
  | some cur =>
    cases hmem : (rememberedState prev).bind stateOrder with
    | none => exact ratcheted_fresh hmem
    | some old => rw [ratcheted_eq hraw hmem, if_pos hdisk, ite_self]

theorem ratcheted_eq_unknown_iff {x : HealthInputs} {prev : Option PrevHealth} :
    x.ratcheted prev = .unknown ↔ x.raw = .unknown := by
  refine ⟨fun h => ?_, fun h => ratcheted_unknown h prev⟩
  by_contra hraw
  obtain ⟨cur, hcur⟩ : ∃ cur, stateOrder x.raw = some cur :=
    Option.ne_none_iff_exists'.mp fun hn => hraw (stateOrder_eq_none.mp hn)
  cases prev with
  | none => exact hraw h
  | some prev =>
    by_cases hdisk : x.DiskChanged prev
    · exact hraw (by rw [← ratcheted_reset hdisk]; exact h)
    · cases hmem : (rememberedState prev).bind stateOrder with
      | none => exact hraw (by rw [← ratcheted_fresh hmem]; exact h)
      | some old =>
        obtain ⟨m, hm, hmo⟩ := Option.bind_eq_some_iff.mp hmem
        have hheld := ratcheted_held hcur hm hmo hdisk
        rw [h] at hheld
        cases hheld

theorem computeHealth_unknown_iff {x : HealthInputs} {prev : Option PrevHealth} :
    (computeHealth x prev).state = .unknown ↔ x.raw = .unknown := by
  rw [computeHealth_state, ← @ratcheted_eq_unknown_iff x prev]
  constructor
  · intro h
    by_contra hr
    obtain ⟨a, ha⟩ : ∃ a, stateOrder (x.ratcheted prev) = some a :=
      Option.ne_none_iff_exists'.mp fun hn => hr (stateOrder_eq_none.mp hn)
    have := stateOrder_systemicFloor (isSystemic x.axes x.trends) ha
    rw [h] at this
    cases this
  · intro h
    rw [h, systemicFloor_unknown]

/-! ### Runs -/

def storedHealth (x : HealthInputs) (v : HealthVerdict) : PrevHealth :=
  { state := some v.state, lastKnownState := v.lastKnownState, worstDisk := x.curDisk }

/-- `recompute_scores` chained: the stored blob of one cycle is the `prev_health` of
    the next. -/
def healthMachine : Machine (Option PrevHealth) HealthInputs HealthVerdict where
  next prev x := some (storedHealth x (computeHealth x prev))
  out prev x := computeHealth x prev

/-- The same worst disk in every cycle that reports one. -/
def OneWorstDisk (xs : List HealthInputs) : Prop :=
  ∃ w, ∀ x ∈ xs, x.curDisk = none ∨ x.curDisk = some w

/-- Cycles `i < j` of a run with only blind cycles strictly between them; `vi` is the
    verdict of cycle `i`, `xj` and `vj` are the inputs and the verdict of cycle `j`. -/
structure AcrossGap (p : Option PrevHealth) (xs : List HealthInputs) (i j : Nat)
    (vi : HealthVerdict) (xj : HealthInputs) (vj : HealthVerdict) : Prop where
  lt : i < j
  first : (healthMachine.outputs p xs)[i]? = some vi
  input : xs[j]? = some xj
  last : (healthMachine.outputs p xs)[j]? = some vj
  blind : ∀ k v, i < k → k < j → (healthMachine.outputs p xs)[k]? = some v → v.state = .unknown

/-- **The law of the ratchet over a run**: across a gap of blind cycles a visible state
    improves by at most one step, and only on the evidence of the later cycle. -/
def RatchetLaw (p : Option PrevHealth) (xs : List HealthInputs) : Prop :=
  ∀ i j vi xj vj a b, AcrossGap p xs i j vi xj vj →
    stateOrder vi.state = some a → stateOrder vj.state = some b →
    a ≤ b + 1 ∧ (b < a → xj.Improves)

/-- After a blind gap that follows a floor-raised verdict, the visible cycle is itself
    systemic, or bad enough on its own, or improves on evidence from a raw `h1`. -/
def FloorSurvivesGaps (p : Option PrevHealth) (xs : List HealthInputs) : Prop :=
  ∀ i j vi xj vj a cur, AcrossGap p xs i j vi xj vj → i + 1 < j →
    stateOrder vi.state = some a → vi.lastKnownState ≠ some vi.state →
    stateOrder xj.raw = some cur →
    isSystemic xj.axes xj.trends = true ∨ 2 ≤ cur ∨ (cur = 1 ∧ xj.Improves)

theorem outputs_eq_some_iff {p : Option PrevHealth} {xs : List HealthInputs} {k : Nat}
    {v : HealthVerdict} :
    (healthMachine.outputs p xs)[k]? = some v ↔
      ∃ x, xs[k]? = some x ∧
        computeHealth x (healthMachine.stateAfter p (xs.take k)) = v := by
  rw [healthMachine.outputs_getElem?, Option.map_eq_some_iff]
  rfl

/-- What the blob read at the end of a gap still holds: the first cycle's
    `last_known_state`, and its `state` only when the gap is empty. -/
theorem AcrossGap.memory {p : Option PrevHealth} {xs : List HealthInputs} {i j : Nat}
    {vi : HealthVerdict} {xj : HealthInputs} {vj : HealthVerdict}
    (h : AcrossGap p xs i j vi xj vj) :
    ∃ q, healthMachine.stateAfter p (xs.take j) = some q ∧
      q.lastKnownState = vi.lastKnownState ∧
      q.state = some (if i + 1 = j then vi.state else .unknown) ∧
      ∃ x ∈ xs, q.worstDisk = x.curDisk := by
  obtain ⟨xi, hxi, hvi⟩ := outputs_eq_some_iff.mp h.first
  have hjlen : j < xs.length := (List.getElem?_eq_some_iff.mp h.input).1
  -- induction on the point reached inside the gap
  have key : ∀ k, i + 1 ≤ k → k ≤ j →
      ∃ q, healthMachine.stateAfter p (xs.take k) = some q ∧
        q.lastKnownState = vi.lastKnownState ∧
        q.state = some (if i + 1 = k then vi.state else .unknown) ∧
        ∃ x ∈ xs, q.worstDisk = x.curDisk := by
    intro k hik
    induction k, hik using Nat.le_induction with
    | base =>
      intro _
      refine ⟨storedHealth xi vi, ?_, rfl, by rw [if_pos rfl]; rfl, xi,
        List.mem_of_getElem? hxi, rfl⟩
      rw [healthMachine.stateAfter_take_succ p hxi, ← hvi]
      rfl
    | succ k hik ih =>
      intro hkj
      obtain ⟨q, hq, hlast, _, _⟩ := ih (by omega)
      have hk : xs[k]? = some xs[k] := List.getElem?_eq_getElem (by omega)
      have hout := outputs_eq_some_iff (p := p).mpr ⟨xs[k], hk, rfl⟩
      -- a blind cycle stores `unknown` and carries the last known state over
      have hblind := h.blind k _ (by omega) (by omega) hout
      have hratchet : xs[k].ratcheted (some q) = .unknown :=
        ratcheted_unknown (computeHealth_unknown_iff.mp hblind) _
      refine ⟨_, healthMachine.stateAfter_take_succ p hk, ?_, ?_, xs[k],
        List.mem_of_getElem? hk, rfl⟩
      · simp only [storedHealth, hq, computeHealth_lastKnownState, hratchet, ne_eq,
          not_true_eq_false, if_false, Option.bind_some, hlast]
      · rw [if_neg (by omega)]
        exact congrArg some hblind
  exact key j h.lt le_rfl

/-- A visible verdict remembers its ratcheted state, and shows it raised by the floor. -/
theorem visible_verdict {x : HealthInputs} {prev : Option PrevHealth} {a : Nat}
    (ha : stateOrder (computeHealth x prev).state = some a) :
    ∃ m k, (computeHealth x prev).lastKnownState = some m ∧ stateOrder m = some k ∧
      a = if isSystemic x.axes x.trends then max k 2 else k := by
  have hvis : x.ratcheted prev ≠ .unknown := by
    intro hr
    rw [computeHealth_state, hr, systemicFloor_unknown] at ha
    cases ha
  obtain ⟨k, hk⟩ : ∃ k, stateOrder (x.ratcheted prev) = some k :=
    Option.ne_none_iff_exists'.mp fun hn => hvis (stateOrder_eq_none.mp hn)
  refine ⟨x.ratcheted prev, k, ?_, hk, ?_⟩
  · rw [computeHealth_lastKnownState, if_pos hvis]
  · rw [computeHealth_state, stateOrder_systemicFloor _ hk] at ha
    exact (Option.some.inj ha).symm

/-- Against the state itself as memory, the law holds with any floor. -/
theorem held_law (a cur : Nat) (improves : Prop) [Decidable improves] (systemic : Bool) :
    let b := if systemic then max (heldRank a cur improves) 2 else heldRank a cur improves
    a ≤ b + 1 ∧ (b < a → improves) := by
  unfold heldRank
  cases systemic <;> by_cases himp : improves <;> by_cases hle : a ≤ cur <;>
    simp [himp, hle] <;> omega

/-- Against a memory below the floor, the law for the raised state `h2` needs exactly
    a floor, a bad raw state, or evidence at a raw `h1`. -/
theorem held_law_floor {m cur : Nat} (hm : m ≤ 1) (improves : Prop) [Decidable improves]
    (systemic : Bool) :
    (let b := if systemic then max (heldRank m cur improves) 2 else heldRank m cur improves
     2 ≤ b + 1 ∧ (b < 2 → improves)) ↔
      systemic = true ∨ 2 ≤ cur ∨ (cur = 1 ∧ improves) := by
  unfold heldRank
  cases systemic <;> by_cases himp : improves <;> by_cases hle : m ≤ cur <;>
    simp [himp, hle] <;> omega

/-- The verdict after a gap: the ratchet held its rank against the remembered state. -/
theorem visible_after {x : HealthInputs} {q : PrevHealth} {m : State} {old b : Nat}
    (hmem : rememberedState q = some m) (hm : stateOrder m = some old)
    (hdisk : ¬ x.DiskChanged q) (hb : stateOrder (computeHealth x (some q)).state = some b) :
    ∃ cur, stateOrder x.raw = some cur ∧
      b = if isSystemic x.axes x.trends then max (heldRank old cur x.Improves) 2
        else heldRank old cur x.Improves := by
  have hvis : x.raw ≠ .unknown := by
    intro hr
    rw [computeHealth_unknown_iff.mpr hr] at hb
    cases hb
  obtain ⟨cur, hcur⟩ : ∃ cur, stateOrder x.raw = some cur :=
    Option.ne_none_iff_exists'.mp fun hn => hvis (stateOrder_eq_none.mp hn)
  refine ⟨cur, hcur, ?_⟩
  rw [computeHealth_state,
    stateOrder_systemicFloor _ (ratcheted_held hcur hmem hm hdisk)] at hb
  exact (Option.some.inj hb).symm

theorem OneWorstDisk.not_changed {xs : List HealthInputs} (h : OneWorstDisk xs)
    {x y : HealthInputs} (hx : x ∈ xs) (hy : y ∈ xs) {q : PrevHealth}
    (hq : q.worstDisk = y.curDisk) : ¬ x.DiskChanged q := by
  obtain ⟨w, hw⟩ := h
  rintro ⟨h1, h2, hne⟩
  rw [hq] at h2 hne
  rcases hw x hx with hxn | hxw
  · rw [hxn] at h1
    cases h1
  · rcases hw y hy with hyn | hyw
    · rw [hyn] at h2
      cases h2
    · exact hne (hxw.trans hyw.symm)

/-- What a gap does to a visible state of rank `a`: the later cycle held its rank against
    `old`, which is `a` itself unless a floor-raised verdict met a blind cycle. -/
theorem AcrossGap.held {p : Option PrevHealth} {xs : List HealthInputs} {i j a b : Nat}
    {vi : HealthVerdict} {xj : HealthInputs} {vj : HealthVerdict}
    (h : AcrossGap p xs i j vi xj vj) (hdisk : OneWorstDisk xs)
    (ha : stateOrder vi.state = some a) (hb : stateOrder vj.state = some b) :
    ∃ old cur, stateOrder xj.raw = some cur ∧
      b = (if isSystemic xj.axes xj.trends then max (heldRank old cur xj.Improves) 2
        else heldRank old cur xj.Improves) ∧
      if i + 1 < j ∧ vi.lastKnownState ≠ some vi.state then old ≤ 1 ∧ a = 2 else old = a := by
  obtain ⟨q, hq, hlast, hstate, y, hy, hqy⟩ := h.memory
  obtain ⟨xi, _, hvi⟩ := outputs_eq_some_iff.mp h.first
  obtain ⟨x, hx, hvj⟩ := outputs_eq_some_iff.mp h.last
  obtain rfl : x = xj := Option.some.inj (hx.symm.trans h.input)
  have hsame := hdisk.not_changed (List.mem_of_getElem? h.input) hy hqy
  rw [hq] at hvj
  subst hvj
  obtain ⟨m, k, hm, hk, hak⟩ := visible_verdict (by rw [hvi]; exact ha)
  rw [hvi] at hm
  have hlt := h.lt
  by_cases hgap : i + 1 = j
  · -- no gap: the memory is the shown state
    rw [if_pos hgap] at hstate
    have hmem : rememberedState q = some vi.state := by
      unfold rememberedState
      rw [hstate, if_neg ?_]
      intro hu
      rw [Option.some.inj hu] at ha
      cases ha
    obtain ⟨cur, hcur, hbv⟩ := visible_after hmem ha hsame hb
    refine ⟨a, cur, hcur, hbv, ?_⟩
    rw [if_neg (by omega)]
  · -- a blind gap: the memory is the state before the floor
    rw [if_neg hgap] at hstate
    have hmem : rememberedState q = some m := by
      unfold rememberedState
      rw [hstate, if_pos rfl, hlast, hm]
    obtain ⟨cur, hcur, hbv⟩ := visible_after hmem hk hsame hb
    refine ⟨k, cur, hcur, hbv, ?_⟩
    by_cases hfloor : vi.lastKnownState = some vi.state
    · rw [if_neg (fun hc => hc.2 hfloor)]
      rw [hm] at hfloor
      rw [← Option.some.inj hfloor, hk] at ha
      exact Option.some.inj ha
    · rw [if_pos ⟨by omega, hfloor⟩]
      have hne : a ≠ k := by
        intro hak'
        rw [hak', ← hk] at ha
        apply hfloor
        rw [hm, ← rankState_of_stateOrder (ha.trans hk), rankState_of_stateOrder hk]
      split at hak <;> omega

/-- **When the remembered state survives.**  For a run with one worst disk the law of
    the ratchet holds exactly when every blind gap after a floor-raised verdict ends in
    a cycle that is systemic, at least `h2` on its own, or improving from a raw `h1`. -/
theorem ratchetLaw_iff (p : Option PrevHealth) (xs : List HealthInputs)
    (hdisk : OneWorstDisk xs) : RatchetLaw p xs ↔ FloorSurvivesGaps p xs := by
  constructor
  · intro hlaw i j vi xj vj a cur h hgap ha hfloor hcur
    have hvj : vj.state ≠ .unknown := by
      obtain ⟨x, hx, rfl⟩ := outputs_eq_some_iff.mp h.last
      obtain rfl : x = xj := Option.some.inj (hx.symm.trans h.input)
      intro hu
      rw [computeHealth_unknown_iff.mp hu] at hcur
      cases hcur
    obtain ⟨b, hb⟩ : ∃ b, stateOrder vj.state = some b :=
      Option.ne_none_iff_exists'.mp fun hn => hvj (stateOrder_eq_none.mp hn)
    obtain ⟨old, cur', hcur', hbv, hold⟩ := h.held hdisk ha hb
    obtain rfl : cur' = cur := Option.some.inj (hcur'.symm.trans hcur)
    rw [if_pos ⟨hgap, hfloor⟩] at hold
    have hl := hlaw i j vi xj vj a b h ha hb
    rw [hold.2, hbv] at hl
    exact (held_law_floor hold.1 xj.Improves _).mp hl
  · intro hcond i j vi xj vj a b h ha hb
    obtain ⟨old, cur, hcur, hbv, hold⟩ := h.held hdisk ha hb
    by_cases hlost : i + 1 < j ∧ vi.lastKnownState ≠ some vi.state
    · rw [if_pos hlost] at hold
      rw [hold.2, hbv]
      exact (held_law_floor hold.1 xj.Improves _).mpr
        (hcond i j vi xj vj a cur h hlost.1 ha hlost.2 hcur)
    · rw [if_neg hlost] at hold
      rw [hbv, hold]
      exact held_law a cur xj.Improves _

/-! ### A run that forgets

Three cycles of one machine with one disk: three mechanisms are bad at once, so the
floor raises a raw `h0` to `h2`; then the storage source fails its trust gate for one
cycle; then everything reads healthy again. -/

private def axisOf (value : Option ℚ) (worstDisk : Option String) : Axis :=
  { value := value, direction := .higherIsWorse, band := bandForRiskScore value,
    confidence := .high, sourceLineage := { worstDisk := worstDisk },
    coords := some { damage := 0, resilienceLoss := 0, flags := [] } }

private def cycle (storage aging diskFill network : Option ℚ) : HealthInputs where
  axes
    | .storageRisk => some (axisOf storage (storage.map fun _ => "disk0"))
    | .softwareAgingRisk => some (axisOf aging none)
    | .diskFillRisk => some (axisOf diskFill none)
    | .networkRisk => some (axisOf network none)
    | _ => none

def floorRun : List HealthInputs :=
  [cycle (some 0) (some 20) (some 30) (some 60), cycle none (some 20) (some 30) (some 60),
   cycle (some 0) (some 0) (some 0) (some 0)]

theorem floorRun_oneWorstDisk : OneWorstDisk floorRun := by
  refine ⟨"disk0", ?_⟩
  intro x hx
  simp only [floorRun, List.mem_cons, List.not_mem_nil, or_false] at hx
  rcases hx with rfl | rfl | rfl
  · exact Or.inr rfl
  · exact Or.inl rfl
  · exact Or.inr rfl

/-- The run goes from `h2` to `h0` across one blind cycle, without any evidence. -/
theorem floorRun_breaks_law : OneWorstDisk floorRun ∧ ¬ RatchetLaw none floorRun := by
  refine ⟨floorRun_oneWorstDisk, ?_⟩
  intro hlaw
  have hstates : (healthMachine.outputs none floorRun).map (·.state) = [.h2, .unknown, .h0] := by
    decide +kernel
  obtain ⟨v0, v1, v2, hout⟩ : ∃ v0 v1 v2, healthMachine.outputs none floorRun = [v0, v1, v2] :=
    ⟨_, _, _, rfl⟩
  rw [hout] at hstates
  simp only [List.map_cons, List.map_nil, List.cons.injEq, and_true] at hstates
  obtain ⟨h0, h1, h2⟩ := hstates
  have hgap : AcrossGap none floorRun 0 2 v0 (cycle (some 0) (some 0) (some 0) (some 0)) v2 :=
    { lt := by decide
      first := by rw [hout]; rfl
      input := rfl
      last := by rw [hout]; rfl
      blind := by
        intro k v hk0 hk2 hv
        obtain rfl : k = 1 := by omega
        rw [hout] at hv
        obtain rfl : v1 = v := Option.some.inj hv
        exact h1 }
  have := (hlaw 0 2 v0 _ v2 2 0 hgap (by rw [h0]; rfl) (by rw [h2]; rfl)).1
  omega

theorem floorRun_law_iff : RatchetLaw none floorRun ↔ FloorSurvivesGaps none floorRun :=
  ratchetLaw_iff none floorRun floorRun_oneWorstDisk

end Srp.Analytics.Health
