/-
  Srp/Trust/StalenessDegrades.lean
  ================================
  **The staleness job only takes trust away.**

  A row is as its last report left it or has gone stale since, and a pending
  update marks a row that has not: `Coherent`.  A write breaks it only where a
  report failed the gate, without a stamp of its own, between the read and the
  write of a pass.
-/
import Srp.Trust.Staleness
import Mathlib.Data.List.Forall2
import Mathlib.Tactic.Linarith
import Mathlib.Tactic.GCongr

namespace Srp.Trust

open Srp.Lib Srp.Lib.IsoTime

variable {P : PyValues} {staleAfterSec : ℚ}

/-! ### Ages -/

theorem ageSec_mono {seen now now' : Instant} (h : now ≤ now') :
    ageSec now seen ≤ ageSec now' seen := by
  unfold ageSec
  have hus : (now.us : ℚ) ≤ now'.us := by exact_mod_cast h
  gcongr

/-- A stamp of now or later has no age. -/
theorem ageSec_nonpos {seen now : Instant} (h : now ≤ seen) : ageSec now seen ≤ 0 := by
  unfold ageSec
  have hus : (now.us : ℚ) ≤ seen.us := by exact_mod_cast h
  apply div_nonpos_of_nonpos_of_nonneg
  · linarith
  · positivity

theorem floorSec_pos (staleAfterSec : ℚ) : 0 < floorSec staleAfterSec :=
  lt_of_lt_of_le (by norm_num) (le_max_left 60 staleAfterSec)

/-! ### The invariant -/

/-- The updates that the next write applies. -/
def pendingUpdates (staleAfterSec : ℚ) (w : TrustWorld) : List StaleUpdate :=
  match w.pass with
  | .read moment rows => passUpdates staleAfterSec moment rows
  | _ => []

/-- The time that the running pass compares with. -/
def TrustWorld.moment (w : TrustWorld) : Instant :=
  match w.pass with
  | .idle => w.now
  | .started moment => moment
  | .read moment _ => moment
  | .written moment _ => moment

/-- The row is as its last report left it, or was found too old at `moment` or before. -/
def Settled (staleAfterSec : ℚ) (moment : Instant) (r : SourceTrustRow) : Prop :=
  r.state = r.base ∨ (r.state = .stale ∧ r.base ∈ gatePass ∧
    ∃ seen, r.evidenceSeenAt = some seen ∧ floorSec staleAfterSec < ageSec moment seen)

/-- The update marks rows as too old, and every row that it matches is not marked yet. -/
structure Marks (staleAfterSec : ℚ) (moment : Instant) (rows : List SourceTrustRow)
    (u : StaleUpdate) : Prop where
  state : u.state = .stale
  weight : u.weight = 0
  aged : ∃ seen, u.evidenceSeenAt = some seen ∧ floorSec staleAfterSec < ageSec moment seen
  unmarked : ∀ r ∈ rows, u.Matches r → r.state ≠ .stale

structure Coherent (staleAfterSec : ℚ) (w : TrustWorld) : Prop where
  nodup : (w.db.sourceTrust.map SourceTrustRow.key).Nodup
  moment_le : w.moment ≤ w.now
  settled : ∀ r ∈ w.db.sourceTrust, Settled staleAfterSec w.moment r
  pending : ∀ u ∈ pendingUpdates staleAfterSec w,
    Marks staleAfterSec w.moment w.db.sourceTrust u

theorem coherent_init (now : Instant) : Coherent staleAfterSec { now } where
  nodup := List.nodup_nil
  moment_le := le_rfl
  settled := by
    intro r hr
    cases hr
  pending := by
    intro u hu
    cases hu

theorem Settled.mono {moment moment' : Instant} {r : SourceTrustRow}
    (h : Settled staleAfterSec moment r) (hle : moment ≤ moment') :
    Settled staleAfterSec moment' r := by
  rcases h with hbase | ⟨hstale, hpass, seen, hseen, hage⟩
  · exact Or.inl hbase
  · exact Or.inr ⟨hstale, hpass, seen, hseen, hage.trans_le (ageSec_mono hle)⟩

theorem Marks.mono {moment moment' : Instant} {rows : List SourceTrustRow} {u : StaleUpdate}
    (h : Marks staleAfterSec moment rows u) (hle : moment ≤ moment') :
    Marks staleAfterSec moment' rows u where
  state := h.state
  weight := h.weight
  aged := by
    obtain ⟨seen, hseen, hage⟩ := h.aged
    exact ⟨seen, hseen, hage.trans_le (ageSec_mono hle)⟩
  unmarked := h.unmarked

/-- A step that leaves the rows alone keeps the invariant, if it only moves time forward and
    leaves no update behind that was not pending. -/
theorem Coherent.of_rows_eq {w w' : TrustWorld} (h : Coherent staleAfterSec w)
    (hrows : w'.db.sourceTrust = w.db.sourceTrust) (hmoment : w.moment ≤ w'.moment)
    (hnow : w'.moment ≤ w'.now)
    (hpending : ∀ u ∈ pendingUpdates staleAfterSec w', u ∈ pendingUpdates staleAfterSec w) :
    Coherent staleAfterSec w' where
  nodup := by
    rw [hrows]
    exact h.nodup
  moment_le := hnow
  settled := by
    intro r hr
    rw [hrows] at hr
    exact (h.settled r hr).mono hmoment
  pending := by
    intro u hu
    rw [hrows]
    exact (h.pending u (hpending u hu)).mono hmoment

/-! ### The steps that leave the rows alone -/

theorem Coherent.tick {w : TrustWorld} (h : Coherent staleAfterSec w) (t : Instant) :
    Coherent staleAfterSec { w with now := max w.now t } := by
  have hle : w.moment ≤ ({ w with now := max w.now t } : TrustWorld).moment := by
    unfold TrustWorld.moment
    cases w.pass with
    | idle => exact le_max_left w.now t
    | started moment => exact le_rfl
    | read moment rows => exact le_rfl
    | written moment devices => exact le_rfl
  have hnow : ({ w with now := max w.now t } : TrustWorld).moment ≤ max w.now t := by
    have hold := h.moment_le
    unfold TrustWorld.moment at hold ⊢
    cases hpass : w.pass with
    | idle => exact le_rfl
    | started moment =>
      rw [hpass] at hold
      exact hold.trans (le_max_left w.now t)
    | read moment rows =>
      rw [hpass] at hold
      exact hold.trans (le_max_left w.now t)
    | written moment devices =>
      rw [hpass] at hold
      exact hold.trans (le_max_left w.now t)
  exact h.of_rows_eq rfl hle hnow fun u hu => hu

theorem Coherent.close {w : TrustWorld} (h : Coherent staleAfterSec w) (deviceId ts : String) :
    Coherent staleAfterSec (closeTrust deviceId ts w) :=
  h.of_rows_eq rfl le_rfl h.moment_le fun _ hu => hu

theorem Coherent.start {w : TrustWorld} (h : Coherent staleAfterSec w) :
    Coherent staleAfterSec (startPass w) := by
  unfold startPass
  split
  · rename_i hidle
    have hmoment : w.moment = w.now := by simp [TrustWorld.moment, hidle]
    apply h.of_rows_eq
    · rfl
    · exact hmoment.le
    · exact le_rfl
    · intro u hu
      cases hu
  · exact h

theorem Coherent.rebuild {w : TrustWorld} (h : Coherent staleAfterSec w) :
    Coherent staleAfterSec (rebuildNext w) := by
  unfold rebuildNext
  split
  · apply h.of_rows_eq
    · rfl
    · exact h.moment_le
    · exact le_rfl
    · intro u hu
      cases hu
  · rename_i moment deviceId devices hpass
    have hmoment : w.moment = moment := by simp [TrustWorld.moment, hpass]
    apply h.of_rows_eq
    · rfl
    · exact hmoment.le
    · exact hmoment ▸ h.moment_le
    · intro u hu
      cases hu
  · exact h

/-! ### A report -/

/-- The row of a report is as that report leaves it. -/
theorem state_of_mem_recordVerdict {report : SourceReport} {v : Verdict} {receivedAt : Instant}
    {db : TrustDb} {r : SourceTrustRow}
    (hr : r ∈ (recordVerdict report v receivedAt db).sourceTrust) :
    r ∈ db.sourceTrust ∨ r.state = r.base := by
  rw [sourceTrust_recordVerdict] at hr
  rcases Table.mem_upsert hr with hold | rfl | ⟨old, _, rfl⟩
  · exact Or.inl hold
  · exact Or.inr rfl
  · exact Or.inr rfl

theorem Coherent.report {w : TrustWorld} (h : Coherent staleAfterSec w)
    (report : SourceReport) : Coherent staleAfterSec (ingestReport P report w) := by
  unfold ingestReport
  split
  · rename_i v _
    constructor
    case nodup => exact nodup_recordVerdict h.nodup report v w.now
    case moment_le => exact h.moment_le
    case settled =>
      intro r hr
      rcases state_of_mem_recordVerdict hr with hold | hbase
      · exact h.settled r hold
      · exact Or.inl hbase
    case pending =>
      intro u hu
      have hmarks := h.pending u hu
      refine ⟨hmarks.state, hmarks.weight, hmarks.aged, ?_⟩
      intro r hr hmatch
      rcases state_of_mem_recordVerdict hr with hold | hbase
      · exact hmarks.unmarked r hold hmatch
      · rw [hbase]
        exact baseState_ne_stale _ _
  · exact h

/-! ### The read of a pass -/

/-- What the read finds to write marks rows that pass the gate and are too old. -/
theorem marks_of_staleUpdate {moment : Instant} {rows : List SourceTrustRow}
    (hnodup : (rows.map SourceTrustRow.key).Nodup) {r : SourceTrustRow} (hr : r ∈ rows)
    (hsettled : Settled staleAfterSec moment r) {u : StaleUpdate}
    (hu : staleUpdate moment (floorSec staleAfterSec) r = some u) :
    Marks staleAfterSec moment rows u := by
  obtain ⟨hmatch, _, seen, hseen, hstate, hweight, hne⟩ := staleUpdate_eq_some _ hu
  rw [rederive_eq] at hstate
  by_cases hage : r.base ∈ gatePass ∧ floorSec staleAfterSec < ageSec moment seen
  · rw [if_pos hage] at hstate
    refine ⟨hstate, by rw [hweight, hstate]; rfl, ⟨seen, hmatch.2 ▸ hseen, hage.2⟩, ?_⟩
    intro r' hr' hmatch'
    have hsame : r' = r :=
      List.inj_on_of_nodup_map hnodup hr' hr (hmatch'.1.trans hmatch.1.symm)
    rw [hsame]
    exact fun hstale => hne (hstate.trans hstale.symm)
  · -- without an age that counts, the row would have to differ from its statuses
    rw [if_neg hage] at hstate
    rcases hsettled with hbase | ⟨_, hpass, seen', hseen', hage'⟩
    · exact absurd (hstate.trans hbase.symm) hne
    · rw [hseen] at hseen'
      cases hseen'
      exact absurd ⟨hpass, hage'⟩ hage

theorem Coherent.read {w : TrustWorld} (h : Coherent staleAfterSec w) :
    Coherent staleAfterSec (readRows w) := by
  unfold readRows
  split
  · rename_i moment hpass
    have hmoment : w.moment = moment := by simp [TrustWorld.moment, hpass]
    constructor
    case nodup => exact h.nodup
    case moment_le => exact hmoment ▸ h.moment_le
    case settled =>
      intro r hr
      exact (h.settled r hr).mono hmoment.le
    case pending =>
      intro u hu
      obtain ⟨r, hr, hur⟩ := (mem_passUpdates staleAfterSec).mp hu
      exact marks_of_staleUpdate h.nodup hr ((h.settled r hr).mono hmoment.le) hur
  · exact h

/-! ### The write of a pass -/

theorem pendingUpdates_of_read {w : TrustWorld} {moment : Instant} {rows : List SourceTrustRow}
    (h : w.pass = .read moment rows) :
    pendingUpdates staleAfterSec w = passUpdates staleAfterSec moment rows := by
  simp only [pendingUpdates, h]

theorem pendingUpdates_of_not_read {w : TrustWorld}
    (h : ∀ moment rows, w.pass ≠ .read moment rows) : pendingUpdates staleAfterSec w = [] := by
  unfold pendingUpdates
  split
  · rename_i hread
    exact absurd hread (h _ _)
  · rfl

theorem rows_writePass (w : TrustWorld) : (writePass staleAfterSec w).db.sourceTrust =
    applySourceStaleness (pendingUpdates staleAfterSec w) w.db.sourceTrust := by
  unfold writePass
  split
  · rename_i hread
    rw [pendingUpdates_of_read hread]
    rfl
  · rename_i hread
    have hnone : applyUpdates [] = id := rfl
    rw [pendingUpdates_of_not_read hread, applySourceStaleness, hnone, List.map_id]

theorem pendingUpdates_writePass (w : TrustWorld) :
    pendingUpdates staleAfterSec (writePass staleAfterSec w) = [] := by
  unfold writePass
  split
  · rfl
  · rename_i hread
    exact pendingUpdates_of_not_read hread

theorem moment_writePass (w : TrustWorld) : (writePass staleAfterSec w).moment = w.moment := by
  unfold writePass
  split
  · rename_i hpass
    simp [TrustWorld.moment, hpass]
  · rfl

theorem now_writePass (w : TrustWorld) : (writePass staleAfterSec w).now = w.now := by
  unfold writePass
  split <;> rfl

theorem mem_pendingUpdates_startPass {w : TrustWorld} {u : StaleUpdate}
    (h : u ∈ pendingUpdates staleAfterSec (startPass w)) :
    u ∈ pendingUpdates staleAfterSec w := by
  unfold startPass at h
  split at h
  · cases h
  · exact h

theorem mem_pendingUpdates_rebuildNext {w : TrustWorld} {u : StaleUpdate}
    (h : u ∈ pendingUpdates staleAfterSec (rebuildNext w)) :
    u ∈ pendingUpdates staleAfterSec w := by
  unfold rebuildNext at h
  split at h
  · cases h
  · cases h
  · exact h

/-- No row that the step is about to mark has failed the gate since the pass read it, by a
    report that left no stamp. -/
def FreshIngestWins (staleAfterSec : ℚ) (w : TrustWorld) : TrustStep → Prop
  | .write => ∀ u ∈ pendingUpdates staleAfterSec w, ∀ r ∈ w.db.sourceTrust,
      u.Matches r → r.base ∈ gatePass
  | _ => True

instance FreshIngestWins.decidable (w : TrustWorld) (step : TrustStep) :
    Decidable (FreshIngestWins staleAfterSec w step) :=
  match step with
  | .write => inferInstanceAs (Decidable (∀ u ∈ pendingUpdates staleAfterSec w,
      ∀ r ∈ w.db.sourceTrust, u.Matches r → r.base ∈ gatePass))
  | .tick _ | .report _ | .close _ _ | .start | .read | .rebuild => inferInstanceAs (Decidable True)

/-- What the job may do to a row. -/
def Degrades (r r' : SourceTrustRow) : Prop :=
  r' = r ∨ (r.state ∈ gatePass ∧
    r' = { r with state := .stale, weight := 0, reason := r'.reason })

theorem Coherent.degrades {w : TrustWorld} (h : Coherent staleAfterSec w)
    (hfresh : FreshIngestWins staleAfterSec w .write) {r : SourceTrustRow}
    (hr : r ∈ w.db.sourceTrust) :
    Degrades r (applyUpdates (pendingUpdates staleAfterSec w) r) := by
  by_cases hmatched : ∃ u ∈ pendingUpdates staleAfterSec w, u.Matches r
  · obtain ⟨u, hu, hmatch, heq⟩ := applyUpdates_of_matched hmatched
    have hmarks := h.pending u hu
    have hbase : r.state = r.base := by
      rcases h.settled r hr with hbase | ⟨hstale, _⟩
      · exact hbase
      · exact absurd hstale (hmarks.unmarked r hr hmatch)
    right
    refine ⟨hbase ▸ hfresh u hu r hr hmatch, ?_⟩
    rw [heq, hmarks.state, hmarks.weight]
  · left
    apply applyUpdates_of_unmatched
    intro u hu hmatch
    exact hmatched ⟨u, hu, hmatch⟩

theorem Coherent.write {w : TrustWorld} (h : Coherent staleAfterSec w)
    (hfresh : FreshIngestWins staleAfterSec w .write) :
    Coherent staleAfterSec (writePass staleAfterSec w) := by
  constructor
  case nodup =>
    rw [rows_writePass, keys_applySourceStaleness]
    exact h.nodup
  case moment_le =>
    rw [moment_writePass, now_writePass]
    exact h.moment_le
  case settled =>
    intro r' hr'
    rw [rows_writePass] at hr'
    obtain ⟨r, hr, rfl⟩ := List.mem_map.mp hr'
    rw [moment_writePass]
    by_cases hmatched : ∃ u ∈ pendingUpdates staleAfterSec w, u.Matches r
    · obtain ⟨u, hu, hmatch, heq⟩ := applyUpdates_of_matched hmatched
      have hmarks := h.pending u hu
      obtain ⟨seen, hseen, hage⟩ := hmarks.aged
      rw [heq]
      exact Or.inr ⟨hmarks.state, hfresh u hu r hr hmatch, seen, hmatch.2.trans hseen, hage⟩
    · rw [applyUpdates_of_unmatched fun u hu hmatch => hmatched ⟨u, hu, hmatch⟩]
      exact h.settled r hr
  case pending =>
    intro u hu
    rw [pendingUpdates_writePass] at hu
    cases hu

/-! ### Runs -/

theorem Coherent.next {w : TrustWorld} (h : Coherent staleAfterSec w) {step : TrustStep}
    (hfresh : FreshIngestWins staleAfterSec w step) :
    Coherent staleAfterSec ((trustMachine P staleAfterSec).next w step) := by
  cases step with
  | tick t => exact h.tick t
  | report report => exact h.report report
  | close deviceId ts => exact h.close deviceId ts
  | start => exact h.start
  | read => exact h.read
  | write => exact h.write hfresh
  | rebuild => exact h.rebuild

theorem coherent_run {now : Instant} {steps : List TrustStep}
    (h : (trustMachine P staleAfterSec).Along (FreshIngestWins staleAfterSec) { now } steps) :
    Coherent staleAfterSec ((trustMachine P staleAfterSec).stateAfter { now } steps) := by
  have hstep : ∀ w step, Coherent staleAfterSec w → FreshIngestWins staleAfterSec w step →
      Coherent staleAfterSec ((trustMachine P staleAfterSec).next w step) :=
    fun _ _ hw hfresh => hw.next hfresh
  exact Machine.stateAfter_invariant_along hstep (coherent_init now) h

/-! ### A pass repeated -/

/-- A row that a pass has just gone over gives it nothing to write. -/
theorem staleUpdate_applyUpdates {rows : List SourceTrustRow}
    (hnodup : (rows.map SourceTrustRow.key).Nodup) (moment : Instant) {r : SourceTrustRow}
    (hr : r ∈ rows) :
    staleUpdate moment (floorSec staleAfterSec)
      (applyUpdates (passUpdates staleAfterSec moment rows) r) = none := by
  by_cases hmatched : ∃ u ∈ passUpdates staleAfterSec moment rows, u.Matches r
  · obtain ⟨u, hu, hmatch, heq⟩ := applyUpdates_of_matched hmatched
    obtain ⟨r', hr', hur⟩ := (mem_passUpdates staleAfterSec).mp hu
    obtain ⟨hmatch', _, seen, hseen, hstate, _⟩ := staleUpdate_eq_some _ hur
    obtain rfl : r' = r := List.inj_on_of_nodup_map hnodup hr' hr (hmatch'.1.trans hmatch.1.symm)
    rw [heq, staleUpdate_eq_none_iff]
    intro _ seen' hseen'
    obtain rfl : seen = seen' := Option.some.inj (hseen.symm.trans hseen')
    exact hstate.symm
  · rw [applyUpdates_of_unmatched fun u hu hmatch => hmatched ⟨u, hu, hmatch⟩]
    cases hu : staleUpdate moment (floorSec staleAfterSec) r with
    | none => rfl
    | some u =>
      exact absurd ⟨u, (mem_passUpdates staleAfterSec).mpr ⟨r, hr, hu⟩,
        (staleUpdate_eq_some _ hu).1⟩ hmatched

theorem sourceTrust_foldl_rebuild (moment : Instant) (devices : List String) (db : TrustDb) :
    (devices.foldl (rebuildDomainBlob moment) db).sourceTrust = db.sourceTrust := by
  induction devices generalizing db with
  | nil => rfl
  | cons deviceId devices ih =>
    rw [List.foldl_cons, ih]
    rfl

theorem sourceTrust_runStalenessCycle (moment : Instant) (db : TrustDb) :
    (runStalenessCycle staleAfterSec moment db).1.sourceTrust =
      applySourceStaleness (passUpdates staleAfterSec moment db.sourceTrust) db.sourceTrust :=
  sourceTrust_foldl_rebuild moment _ _

/-- A cycle that finds nothing to write leaves everything as it is. -/
theorem runStalenessCycle_of_no_updates {moment : Instant} {db : TrustDb}
    (h : passUpdates staleAfterSec moment db.sourceTrust = []) :
    runStalenessCycle staleAfterSec moment db =
      (db, { checked := db.sourceTrust.length, updated := 0 }) := by
  have hnone : applyUpdates [] = id := rfl
  unfold passUpdates at h
  unfold runStalenessCycle
  rw [h]
  simp [devicesOf, writeUpdates, applySourceStaleness, appliedCount, hnone]

theorem runStalenessCycle_again {db : TrustDb}
    (hnodup : (db.sourceTrust.map SourceTrustRow.key).Nodup) (moment : Instant) :
    runStalenessCycle staleAfterSec moment (runStalenessCycle staleAfterSec moment db).1 =
      ((runStalenessCycle staleAfterSec moment db).1,
        { checked := db.sourceTrust.length, updated := 0 }) := by
  have hrows : (runStalenessCycle staleAfterSec moment db).1.sourceTrust =
      applySourceStaleness (passUpdates staleAfterSec moment db.sourceTrust) db.sourceTrust :=
    sourceTrust_runStalenessCycle moment db
  rw [runStalenessCycle_of_no_updates, hrows, applySourceStaleness, List.length_map]
  rw [hrows]
  apply List.filterMap_eq_nil_iff.mpr
  intro r' hr'
  obtain ⟨r, hr, rfl⟩ := List.mem_map.mp hr'
  exact staleUpdate_applyUpdates hnodup moment hr

/-! ### The job in a run -/

/-- **The job only takes trust away.**  In a run in which no row is marked over a report that
    failed the gate, a write changes rows from ok or degraded to stale and no others, a row whose
    stamp is not the one that the pass read is not touched, and a cycle repeated at the same time
    finds nothing to write. -/
theorem staleness_never_revives (P : PyValues) (staleAfterSec : ℚ) (now : Instant)
    (steps : List TrustStep)
    (h : (trustMachine P staleAfterSec).Along (FreshIngestWins staleAfterSec) { now } steps)
    (i : Nat) :
    let w := (trustMachine P staleAfterSec).stateAfter { now } (steps.take i)
    let w' := (trustMachine P staleAfterSec).stateAfter { now } (steps.take (i + 1))
    let cycle := runStalenessCycle staleAfterSec w.now
    (steps[i]? = some .write →
      List.Forall₂ Degrades w.db.sourceTrust w'.db.sourceTrust ∧
      ∀ moment rows, w.pass = .read moment rows → ∀ r ∈ w.db.sourceTrust,
        (∀ read ∈ rows, read.key = r.key → read.evidenceSeenAt ≠ r.evidenceSeenAt) →
        Table.row SourceTrustRow.key w'.db.sourceTrust r.key = some r) ∧
    cycle (cycle w.db).1 =
      ((cycle w.db).1, { checked := w.db.sourceTrust.length, updated := 0 }) := by
  intro w w' cycle
  have hw : Coherent staleAfterSec w := coherent_run (h.take i)
  refine ⟨?_, runStalenessCycle_again hw.nodup w.now⟩
  intro hwrite
  have hnext : w' = writePass staleAfterSec w := Machine.stateAfter_take_succ _ _ hwrite
  have hrows : w'.db.sourceTrust =
      applySourceStaleness (pendingUpdates staleAfterSec w) w.db.sourceTrust := by
    rw [hnext, rows_writePass]
  have hfresh : FreshIngestWins staleAfterSec w .write := h.getElem hwrite
  constructor
  · rw [hrows]
    apply List.forall₂_map_right_iff.mpr
    apply List.forall₂_same.mpr
    intro r hr
    exact hw.degrades hfresh hr
  · intro moment rows hread r hr hmoved
    rw [hrows, row_applySourceStaleness, Table.row_of_mem hw.nodup hr, Option.map_some,
      applyUpdates_of_unmatched]
    intro u hu hmatch
    rw [pendingUpdates_of_read hread] at hu
    obtain ⟨read, hmem, hur⟩ := (mem_passUpdates staleAfterSec).mp hu
    have hmatch' := (staleUpdate_eq_some _ hur).1
    exact hmoved read hmem (hmatch'.1.trans hmatch.1.symm) (hmatch'.2.trans hmatch.2.symm)

/-! ### Runs on fixed inputs -/

theorem hours_inRange (n : Nat) : n % 24 * usPerHour < 3652059 * usPerDay := by
  have h : n % 24 < 24 := Nat.mod_lt n (by decide)
  have hus : usPerHour = 3600000000 := rfl
  have hday : usPerDay = 86400000000 := rfl
  rw [hus, hday]
  omega

/-- `n` hours into the first day. -/
def hours (n : Nat) : Instant := ⟨n % 24 * usPerHour, hours_inRange n⟩

/-- The interpreter, for runs on readings of small integers. -/
def smallIntegers : PyValues where
  ofToken _ := .nan
  ofText _ := none
  reprOf _ := []
  strOf _ := []

/-- The device reports the free space of its disk. -/
def freeSpace (status : CollectorStatus) (payload : Fields) : TrustStep :=
  .report { deviceId := "pc", source := "free_space", status, payload, ts := "t" }

def halfFull : Fields := [("free_space_pct".toList, .int 50)]

/-- A report, thirteen hours of silence, and a pass with a threshold of twelve hours. -/
def silentRun : List TrustStep :=
  [freeSpace .ok halfFull, .tick (hours 13), .start, .read, .write]

/-- The same, but the collector fails between the read and the write of the pass. -/
def overtakenRun : List TrustStep :=
  [freeSpace .ok halfFull, .tick (hours 13), .start, .read, freeSpace .empty [], .write]

abbrev rowsAfter (steps : List TrustStep) : List SourceTrustRow :=
  ((trustMachine smallIntegers 43200).stateAfter { now := hours 0 } steps).db.sourceTrust

theorem staleness_never_revives_silent :
    (rowsAfter (silentRun.take 4)).map (·.state) = [.ok] ∧
    (rowsAfter (silentRun.take 5)).map (·.state) = [.stale] ∧
    List.Forall₂ Degrades (rowsAfter (silentRun.take 4)) (rowsAfter (silentRun.take 5)) := by
  have hrun := (staleness_never_revives smallIntegers 43200 (hours 0) silentRun
    (by decide +kernel) 4).1 rfl
  have hfive : 4 + 1 = 5 := rfl
  rw [hfive] at hrun
  exact ⟨by decide +kernel, by decide +kernel, hrun.1⟩

/-- The pass writes over a report that has just come in. -/
theorem staleness_over_failure :
    (rowsAfter (overtakenRun.take 5)).map (·.state) = [.unavailable] ∧
    (rowsAfter (overtakenRun.take 6)).map (·.state) = [.stale] ∧
    ¬ List.Forall₂ Degrades (rowsAfter (overtakenRun.take 5)) (rowsAfter (overtakenRun.take 6)) := by
  have hbefore : (rowsAfter (overtakenRun.take 5)).map (·.state) = [.unavailable] := by
    decide +kernel
  have hafter : (rowsAfter (overtakenRun.take 6)).map (·.state) = [.stale] := by
    decide +kernel
  refine ⟨hbefore, hafter, ?_⟩
  intro h
  obtain ⟨r, hrows, hr⟩ := List.map_eq_singleton_iff.mp hbefore
  obtain ⟨r', hrows', hr'⟩ := List.map_eq_singleton_iff.mp hafter
  rw [hrows, hrows', List.forall₂_cons] at h
  rcases h.1 with heq | ⟨hpass, _⟩
  · rw [heq, hr] at hr'
    cases hr'
  · rw [hr] at hpass
    exact absurd hpass (by decide)

end Srp.Trust
