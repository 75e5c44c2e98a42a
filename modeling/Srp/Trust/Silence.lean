/-
  Srp/Trust/Silence.lean
  ======================
  **Which sources the staleness job takes for silent.**

  The stamp of a row is the time of the last report whose collector said ok,
  while a source also reports with a partial one.  As long as both lie on one
  side of the threshold when a pass starts, the job marks the sources that have
  not reported, and no others.
-/
import Srp.Trust.StalenessDegrades

namespace Srp.Trust

open Srp.Lib Srp.Lib.IsoTime

variable {P : PyValues} {staleAfterSec : ℚ} {key : SourceKey}

/-! ### The reports of a source -/

/-- When the source last reported with one of the statuses, an empty reading that its collector
    calls ok not counted as ok. -/
def lastReport (statuses : List CollectorStatus) (key : SourceKey) (log : List LoggedReport) :
    Option Instant :=
  (log.find? fun e => e.key = key ∧ e.collectorStatus ∈ statuses).map (·.receivedAt)

def TrustWorld.lastWorking (w : TrustWorld) (key : SourceKey) : Option Instant :=
  lastReport [.ok, .partial_] key w.log

def TrustWorld.lastOk (w : TrustWorld) (key : SourceKey) : Option Instant :=
  lastReport [.ok] key w.log

/-- There was a report, and at `moment` it is older than the threshold. -/
def Older (staleAfterSec : ℚ) (moment : Instant) : Option Instant → Prop
  | some seen => floorSec staleAfterSec < ageSec moment seen
  | none => False

instance Older.decidable (moment : Instant) :
    ∀ seen, Decidable (Older staleAfterSec moment seen)
  | some seen => inferInstanceAs (Decidable (floorSec staleAfterSec < ageSec moment seen))
  | none => inferInstanceAs (Decidable False)

theorem not_older_of_le {moment seen : Instant} (h : moment ≤ seen) :
    ¬ Older staleAfterSec moment (some seen) :=
  not_lt.mpr ((ageSec_nonpos h).trans (floorSec_pos staleAfterSec).le)

/-! ### The time of a pass -/

/-- The time that a running pass compares with. -/
def PassPhase.moment? : PassPhase → Option Instant
  | .idle => none
  | .started moment => some moment
  | .read moment _ => some moment
  | .written moment _ => some moment

def PassPhase.isIdle : PassPhase → Bool
  | .idle => true
  | _ => false

theorem mem_moment_startPass {w : TrustWorld} {moment : Instant}
    (h : moment ∈ (startPass w).pass.moment?) :
    (w.pass.isIdle = true ∧ moment = w.now) ∨ moment ∈ w.pass.moment? := by
  unfold startPass at h
  split at h
  · rename_i hidle
    left
    exact ⟨by rw [hidle]; rfl, (Option.mem_some_iff.mp h).symm⟩
  · exact Or.inr h

theorem moment_readRows (w : TrustWorld) : (readRows w).pass.moment? = w.pass.moment? := by
  unfold readRows
  split
  · rename_i hpass
    rw [hpass]
    rfl
  · rfl

theorem moment?_writePass (w : TrustWorld) :
    (writePass staleAfterSec w).pass.moment? = w.pass.moment? := by
  unfold writePass
  split
  · rename_i hpass
    rw [hpass]
    rfl
  · rfl

theorem mem_moment_rebuildNext {w : TrustWorld} {moment : Instant}
    (h : moment ∈ (rebuildNext w).pass.moment?) : moment ∈ w.pass.moment? := by
  unfold rebuildNext at h
  split at h
  · cases h
  · rename_i hpass
    rw [hpass]
    exact h
  · exact h

/-- Only the read of a pass ends in the read phase. -/
theorem startPass_eq_or (w : TrustWorld) :
    startPass w = w ∨ ∀ moment rows, (startPass w).pass ≠ .read moment rows := by
  unfold startPass
  split
  · right
    intro moment rows h
    cases h
  · exact Or.inl rfl

theorem rebuildNext_eq_or (w : TrustWorld) :
    rebuildNext w = w ∨ ∀ moment rows, (rebuildNext w).pass ≠ .read moment rows := by
  unfold rebuildNext
  split
  · right
    intro moment rows h
    cases h
  · right
    intro moment rows h
    cases h
  · exact Or.inl rfl

theorem pass_writePass_ne_read (w : TrustWorld) (moment : Instant) (rows : List SourceTrustRow) :
    (writePass staleAfterSec w).pass ≠ .read moment rows := by
  unfold writePass
  split
  · intro h
    cases h
  · rename_i hread
    exact hread moment rows

/-! ### The stamp of the row -/

/-- When a pass starts, the last working report and the last ok one lie on the same side of the
    threshold. -/
def StampCurrent (staleAfterSec : ℚ) (key : SourceKey) (w : TrustWorld) : TrustStep → Prop
  | .start => w.pass.isIdle = true →
      (Older staleAfterSec w.now (w.lastWorking key) ↔ Older staleAfterSec w.now (w.lastOk key))
  | _ => True

/-- When a pass starts, the last working report is no older than the threshold: so it is where
    working reports come at intervals never longer than that. -/
def Timely (staleAfterSec : ℚ) (key : SourceKey) (w : TrustWorld) : TrustStep → Prop
  | .start => w.pass.isIdle = true → ¬ Older staleAfterSec w.now (w.lastWorking key)
  | _ => True

instance StampCurrent.decidable (w : TrustWorld) (step : TrustStep) :
    Decidable (StampCurrent staleAfterSec key w step) :=
  match step with
  | .start => inferInstanceAs (Decidable (w.pass.isIdle = true →
      (Older staleAfterSec w.now (w.lastWorking key) ↔
        Older staleAfterSec w.now (w.lastOk key))))
  | .tick _ | .report _ | .close _ _ | .read | .write | .rebuild => inferInstanceAs (Decidable True)

instance Timely.decidable (w : TrustWorld) (step : TrustStep) :
    Decidable (Timely staleAfterSec key w step) :=
  match step with
  | .start => inferInstanceAs (Decidable (w.pass.isIdle = true →
      ¬ Older staleAfterSec w.now (w.lastWorking key)))
  | .tick _ | .report _ | .close _ _ | .read | .write | .rebuild => inferInstanceAs (Decidable True)

/-- The row of the source, and what a running pass knows of its reports. -/
structure Stamped (staleAfterSec : ℚ) (key : SourceKey) (w : TrustWorld) : Prop where
  nodup : (w.db.sourceTrust.map SourceTrustRow.key).Nodup
  stamp : (Table.row SourceTrustRow.key w.db.sourceTrust key).bind (·.evidenceSeenAt) =
    w.lastOk key
  moment_le : ∀ moment ∈ w.pass.moment?, moment ≤ w.now
  current : ∀ moment ∈ w.pass.moment?, Older staleAfterSec moment (w.lastWorking key) →
    Older staleAfterSec moment (w.lastOk key)

theorem stamped_init (now : Instant) : Stamped staleAfterSec key { now } where
  nodup := List.nodup_nil
  stamp := rfl
  moment_le := by
    intro moment hm
    cases hm
  current := by
    intro moment hm
    cases hm

/-- A step that leaves rows and reports alone and starts no pass keeps the invariant. -/
theorem Stamped.of_same {w w' : TrustWorld} (h : Stamped staleAfterSec key w)
    (hrows : w'.db.sourceTrust = w.db.sourceTrust) (hlog : w'.log = w.log)
    (hnow : w.now ≤ w'.now) (hmoment : ∀ moment ∈ w'.pass.moment?, moment ∈ w.pass.moment?) :
    Stamped staleAfterSec key w' where
  nodup := by
    rw [hrows]
    exact h.nodup
  stamp := by
    unfold TrustWorld.lastOk
    rw [hrows, hlog]
    exact h.stamp
  moment_le := fun moment hm => (h.moment_le moment (hmoment moment hm)).trans hnow
  current := by
    intro moment hm
    unfold TrustWorld.lastWorking TrustWorld.lastOk
    rw [hlog]
    exact h.current moment (hmoment moment hm)

/-! ### A report -/

theorem lastReport_cons (statuses : List CollectorStatus) (e : LoggedReport)
    (log : List LoggedReport) : lastReport statuses key (e :: log) =
      if e.key = key ∧ e.collectorStatus ∈ statuses then some e.receivedAt
      else lastReport statuses key log := by
  unfold lastReport
  rw [List.find?_cons]
  by_cases h : e.key = key ∧ e.collectorStatus ∈ statuses
  · rw [if_pos h]
    simp [h]
  · rw [if_neg h]
    simp [h]

/-- If the last working report is older than a moment past, the report just in was none. -/
theorem older_lastReport_cons {statuses : List CollectorStatus} {e : LoggedReport}
    {log : List LoggedReport} {moment : Instant} (hmoment : moment ≤ e.receivedAt)
    (h : Older staleAfterSec moment (lastReport statuses key (e :: log))) :
    ¬ (e.key = key ∧ e.collectorStatus ∈ statuses) ∧
      Older staleAfterSec moment (lastReport statuses key log) := by
  rw [lastReport_cons] at h
  by_cases hreport : e.key = key ∧ e.collectorStatus ∈ statuses
  · rw [if_pos hreport] at h
    exact absurd h (not_older_of_le hmoment)
  · rw [if_neg hreport] at h
    exact ⟨hreport, h⟩

/-- A working report is stamped with its time, and no other report is. -/
theorem stamp_recordVerdict (report : SourceReport) (v : Verdict) (receivedAt : Instant)
    (db : TrustDb) :
    (Table.row SourceTrustRow.key (recordVerdict report v receivedAt db).sourceTrust key).bind
        (·.evidenceSeenAt) =
      if report.key = key ∧ v.collectorStatus = .ok then some receivedAt
      else (Table.row SourceTrustRow.key db.sourceTrust key).bind (·.evidenceSeenAt) := by
  rw [row_recordVerdict]
  by_cases hkey : key = report.key
  · rw [if_pos hkey]
    by_cases hok : v.collectorStatus = .ok
    · rw [if_pos ⟨hkey.symm, hok⟩]
      cases Table.row SourceTrustRow.key db.sourceTrust key with
      | none => simp [verdictRow, hok]
      | some old => simp [verdictRow, mergeSourceTrust, hok]
    · rw [if_neg fun h => hok h.2]
      cases Table.row SourceTrustRow.key db.sourceTrust key with
      | none => simp [verdictRow, hok]
      | some old => simp [verdictRow, mergeSourceTrust, hok]
  · rw [if_neg hkey, if_neg fun h => hkey h.1.symm]

theorem Stamped.report {w : TrustWorld} (h : Stamped staleAfterSec key w)
    (report : SourceReport) : Stamped staleAfterSec key (ingestReport P report w) := by
  unfold ingestReport
  split
  · rename_i v _
    constructor
    case nodup => exact nodup_recordVerdict h.nodup report v w.now
    case stamp =>
      dsimp only
      rw [stamp_recordVerdict, h.stamp]
      unfold TrustWorld.lastOk
      rw [lastReport_cons]
      simp only [List.mem_singleton]
    case moment_le => exact h.moment_le
    case current =>
      intro moment hm holder
      obtain ⟨hreport, hold⟩ := older_lastReport_cons (h.moment_le moment hm) holder
      have hok : ¬ (report.key = key ∧ v.collectorStatus ∈ [CollectorStatus.ok]) :=
        fun hok => hreport ⟨hok.1, by simp [List.mem_singleton.mp hok.2]⟩
      unfold TrustWorld.lastOk
      rw [lastReport_cons, if_neg hok]
      exact h.current moment hm hold
  · exact h

/-! ### The other steps -/

theorem Stamped.write {w : TrustWorld} (h : Stamped staleAfterSec key w) :
    Stamped staleAfterSec key (writePass staleAfterSec w) where
  nodup := by
    rw [rows_writePass, keys_applySourceStaleness]
    exact h.nodup
  stamp := by
    have hlog : (writePass staleAfterSec w).lastOk key = w.lastOk key := by
      unfold writePass
      split <;> rfl
    rw [hlog, ← h.stamp, rows_writePass, row_applySourceStaleness]
    cases Table.row SourceTrustRow.key w.db.sourceTrust key with
    | none => rfl
    | some r => exact (applyUpdates_keep _ r).2.1
  moment_le := by
    rw [moment?_writePass, now_writePass]
    exact h.moment_le
  current := by
    have hlog : (writePass staleAfterSec w).log = w.log := by
      unfold writePass
      split <;> rfl
    unfold TrustWorld.lastWorking TrustWorld.lastOk
    rw [moment?_writePass, hlog]
    exact h.current

theorem Stamped.start {w : TrustWorld} (h : Stamped staleAfterSec key w)
    (hcurrent : StampCurrent staleAfterSec key w .start) :
    Stamped staleAfterSec key (startPass w) := by
  have hsame : (startPass w).db = w.db ∧ (startPass w).log = w.log ∧
      (startPass w).now = w.now := by
    unfold startPass
    split <;> exact ⟨rfl, rfl, rfl⟩
  obtain ⟨hdb, hlog, hnow⟩ := hsame
  constructor
  case nodup =>
    rw [hdb]
    exact h.nodup
  case stamp =>
    unfold TrustWorld.lastOk
    rw [hdb, hlog]
    exact h.stamp
  case moment_le =>
    intro moment hm
    rw [hnow]
    rcases mem_moment_startPass hm with ⟨_, rfl⟩ | hm
    · exact le_rfl
    · exact h.moment_le moment hm
  case current =>
    intro moment hm holder
    unfold TrustWorld.lastWorking at holder
    unfold TrustWorld.lastOk
    rw [hlog] at holder ⊢
    rcases mem_moment_startPass hm with ⟨hidle, rfl⟩ | hm
    · exact (hcurrent hidle).mp holder
    · exact h.current moment hm holder

theorem Stamped.next {w : TrustWorld} (h : Stamped staleAfterSec key w) {step : TrustStep}
    (hcurrent : StampCurrent staleAfterSec key w step) :
    Stamped staleAfterSec key ((trustMachine P staleAfterSec).next w step) := by
  cases step with
  | tick t => exact h.of_same rfl rfl (le_max_left w.now t) fun _ hm => hm
  | report report => exact h.report report
  | close deviceId ts => exact h.of_same rfl rfl le_rfl fun _ hm => hm
  | start => exact h.start hcurrent
  | read =>
    have hsame : (readRows w).db = w.db ∧ (readRows w).log = w.log ∧
        (readRows w).now = w.now := by
      unfold readRows
      split <;> exact ⟨rfl, rfl, rfl⟩
    apply h.of_same
    · exact congrArg (·.sourceTrust) hsame.1
    · exact hsame.2.1
    · exact hsame.2.2.ge
    · intro moment hm
      rw [← moment_readRows]
      exact hm
  | write => exact h.write
  | rebuild =>
    have hsame : (rebuildNext w).db.sourceTrust = w.db.sourceTrust ∧
        (rebuildNext w).log = w.log ∧ (rebuildNext w).now = w.now := by
      unfold rebuildNext
      split <;> exact ⟨rfl, rfl, rfl⟩
    exact h.of_same hsame.1 hsame.2.1 hsame.2.2.ge fun _ hm => mem_moment_rebuildNext hm

/-! ### A source that reports -/

/-- The source has not gone stale and no pass is about to make it so. -/
structure Heard (staleAfterSec : ℚ) (key : SourceKey) (w : TrustWorld) : Prop where
  stamped : Stamped staleAfterSec key w
  fresh : ∀ moment ∈ w.pass.moment?, ¬ Older staleAfterSec moment (w.lastOk key)
  state : ∀ r, Table.row SourceTrustRow.key w.db.sourceTrust key = some r → r.state = r.base
  unmarked : ∀ u ∈ pendingUpdates staleAfterSec w, u.key ≠ key

theorem heard_init (now : Instant) : Heard staleAfterSec key { now } where
  stamped := stamped_init now
  fresh := by
    intro moment hm
    cases hm
  state := by
    intro r hr
    cases hr
  unmarked := by
    intro u hu
    cases hu

theorem Heard.of_same {w w' : TrustWorld} (h : Heard staleAfterSec key w)
    (hstamped : Stamped staleAfterSec key w') (hrows : w'.db.sourceTrust = w.db.sourceTrust)
    (hlog : w'.log = w.log) (hmoment : ∀ moment ∈ w'.pass.moment?, moment ∈ w.pass.moment?)
    (hpending : ∀ u ∈ pendingUpdates staleAfterSec w', u ∈ pendingUpdates staleAfterSec w) :
    Heard staleAfterSec key w' where
  stamped := hstamped
  fresh := by
    intro moment hm
    unfold TrustWorld.lastOk
    rw [hlog]
    exact h.fresh moment (hmoment moment hm)
  state := by
    intro r hr
    rw [hrows] at hr
    exact h.state r hr
  unmarked := fun u hu => h.unmarked u (hpending u hu)

theorem Heard.report {w : TrustWorld} (h : Heard staleAfterSec key w) (report : SourceReport) :
    Heard staleAfterSec key (ingestReport P report w) := by
  have hstamped : Stamped staleAfterSec key (ingestReport P report w) := h.stamped.report report
  unfold ingestReport at hstamped ⊢
  split
  · rename_i v hv
    rw [hv] at hstamped
    constructor
    case stamped => exact hstamped
    case fresh =>
      intro moment hm holder
      have hle := h.stamped.moment_le moment hm
      exact h.fresh moment hm (older_lastReport_cons hle holder).2
    case state =>
      intro r hr
      rw [row_recordVerdict] at hr
      split at hr
      · cases hold : Table.row SourceTrustRow.key w.db.sourceTrust key with
        | none =>
          rw [hold] at hr
          cases hr
          rfl
        | some old =>
          rw [hold] at hr
          cases hr
          rfl
      · exact h.state r hr
    case unmarked => exact h.unmarked
  · exact h

/-- The read of a pass that finds a fresh stamp leaves the source alone. -/
theorem Heard.read {w : TrustWorld} (h : Heard staleAfterSec key w)
    (hstamped : Stamped staleAfterSec key (readRows w)) :
    Heard staleAfterSec key (readRows w) := by
  have hmoments := moment_readRows w
  unfold readRows at hstamped hmoments ⊢
  split
  · rename_i moment hpass
    rw [hpass] at hstamped
    have hm : moment ∈ w.pass.moment? := by
      rw [hpass]
      rfl
    constructor
    case stamped => exact hstamped
    case fresh =>
      intro moment' hm'
      obtain rfl : moment = moment' := Option.mem_some_iff.mp hm'
      exact h.fresh moment hm
    case state => exact h.state
    case unmarked =>
      intro u hu hkey
      obtain ⟨r, hr, hur⟩ := (mem_passUpdates staleAfterSec).mp hu
      obtain ⟨hmatch, _, seen, hseen, hstate, _, hne⟩ := staleUpdate_eq_some _ hur
      have hrow : Table.row SourceTrustRow.key w.db.sourceTrust key = some r := by
        rw [← hkey, ← hmatch.1]
        exact Table.row_of_mem h.stamped.nodup hr
      have hstamp := h.stamped.stamp
      rw [hrow, Option.bind_some, hseen] at hstamp
      have hfresh : ¬ floorSec staleAfterSec < ageSec moment seen := by
        have hold := h.fresh moment hm
        rw [← hstamp] at hold
        exact hold
      apply hne
      rw [hstate, rederive_eq, if_neg fun hage => hfresh hage.2]
      exact (h.state r hrow).symm
  · exact h

theorem Heard.write {w : TrustWorld} (h : Heard staleAfterSec key w) :
    Heard staleAfterSec key (writePass staleAfterSec w) where
  stamped := h.stamped.write
  fresh := by
    have hlog : (writePass staleAfterSec w).lastOk key = w.lastOk key := by
      unfold writePass
      split <;> rfl
    rw [moment?_writePass, hlog]
    exact h.fresh
  state := by
    intro r' hr'
    rw [rows_writePass, row_applySourceStaleness] at hr'
    obtain ⟨r, hr, rfl⟩ := Option.map_eq_some_iff.mp hr'
    have hkey := (Table.row_eq_some hr).2
    rw [applyUpdates_of_unmatched]
    · exact h.state r hr
    · intro u hu hmatch
      exact h.unmarked u hu (hmatch.1.symm.trans hkey)
  unmarked := by
    intro u hu
    rw [pendingUpdates_writePass] at hu
    cases hu

theorem Heard.next {w : TrustWorld} (h : Heard staleAfterSec key w) {step : TrustStep}
    (hcurrent : StampCurrent staleAfterSec key w step) (htimely : Timely staleAfterSec key w step) :
    Heard staleAfterSec key ((trustMachine P staleAfterSec).next w step) := by
  have hstamped : Stamped staleAfterSec key ((trustMachine P staleAfterSec).next w step) :=
    h.stamped.next hcurrent
  cases step with
  | tick t => exact h.of_same hstamped rfl rfl (fun _ hm => hm) fun _ hu => hu
  | report report => exact h.report report
  | close deviceId ts => exact h.of_same hstamped rfl rfl (fun _ hm => hm) fun _ hu => hu
  | start =>
    have hsame : (startPass w).db = w.db ∧ (startPass w).log = w.log := by
      unfold startPass
      split <;> exact ⟨rfl, rfl⟩
    constructor
    case stamped => exact hstamped
    case fresh =>
      intro moment hm
      have hlog : ((trustMachine P staleAfterSec).next w .start).lastOk key = w.lastOk key :=
        congrArg (lastReport [.ok] key) hsame.2
      rw [hlog]
      rcases mem_moment_startPass hm with ⟨hidle, rfl⟩ | hm
      · exact fun holder => htimely hidle ((hcurrent hidle).mpr holder)
      · exact h.fresh moment hm
    case state =>
      intro r hr
      have hrows : ((trustMachine P staleAfterSec).next w .start).db = w.db := hsame.1
      rw [hrows] at hr
      exact h.state r hr
    case unmarked =>
      intro u hu
      exact h.unmarked u (mem_pendingUpdates_startPass hu)
  | read => exact h.read hstamped
  | write => exact h.write
  | rebuild =>
    have hsame : (rebuildNext w).db.sourceTrust = w.db.sourceTrust ∧
        (rebuildNext w).log = w.log := by
      unfold rebuildNext
      split <;> exact ⟨rfl, rfl⟩
    exact h.of_same hstamped hsame.1 hsame.2 (fun _ hm => mem_moment_rebuildNext hm)
      fun _ hu => mem_pendingUpdates_rebuildNext hu

/-! ### A source that does not -/

/-- The states of a source that is not trusted. -/
def silentStates : List SourceState := [.stale, .suspect, .unavailable]

theorem base_mem_silentStates {r : SourceTrustRow} (h : r.base ∉ gatePass) :
    r.base ∈ silentStates := by
  rcases baseState_cases r.collectorStatus r.semanticStatus with hpass | hsuspect | hunavailable
  · exact absurd hpass h
  · exact List.mem_cons_of_mem _ (List.mem_cons.mpr (Or.inl hsuspect))
  · exact List.mem_cons_of_mem _ (List.mem_cons_of_mem _ (List.mem_singleton.mpr hunavailable))

theorem verdictState_mem_silentStates {v : Verdict}
    (h : v.collectorStatus ∉ [CollectorStatus.ok, .partial_]) : v.state ∈ silentStates := by
  have hfail : v.collectorStatus ∈ collectorFail := by
    cases hc : v.collectorStatus with
    | ok | partial_ =>
      rw [hc] at h
      exact absurd (by decide) h
    | empty | timeout | blocked | absent => decide
  unfold Verdict.state baseState deriveState
  rw [if_pos hfail]
  split <;> decide

/-- A pass that has read the rows while the last working report was too old has the source
    marked, or finds it untrusted. -/
structure Marked (staleAfterSec : ℚ) (key : SourceKey) (w : TrustWorld) : Prop where
  stamped : Stamped staleAfterSec key w
  updates : ∀ moment rows, w.pass = .read moment rows →
    Older staleAfterSec moment (w.lastWorking key) →
    ∀ u ∈ pendingUpdates staleAfterSec w, u.key = key → u.state ∈ silentStates
  row : ∀ moment rows, w.pass = .read moment rows →
    Older staleAfterSec moment (w.lastWorking key) →
    ∀ r, Table.row SourceTrustRow.key w.db.sourceTrust key = some r →
      r.state ∈ silentStates ∨ ∃ u ∈ pendingUpdates staleAfterSec w, u.Matches r

theorem marked_init (now : Instant) : Marked staleAfterSec key { now } where
  stamped := stamped_init now
  updates := by
    intro moment rows hread
    cases hread
  row := by
    intro moment rows hread
    cases hread

/-- Only a step that ends in the read phase has something to show. -/
theorem Marked.of_not_read {w : TrustWorld} (hstamped : Stamped staleAfterSec key w)
    (h : ∀ moment rows, w.pass ≠ .read moment rows) : Marked staleAfterSec key w where
  stamped := hstamped
  updates := fun moment rows hread => absurd hread (h moment rows)
  row := fun moment rows hread => absurd hread (h moment rows)

theorem Marked.report {w : TrustWorld} (h : Marked staleAfterSec key w) (report : SourceReport) :
    Marked staleAfterSec key (ingestReport P report w) := by
  have hstamped : Stamped staleAfterSec key (ingestReport P report w) := h.stamped.report report
  unfold ingestReport at hstamped ⊢
  split
  · rename_i v hv
    rw [hv] at hstamped
    have hlog : ∀ moment rows, w.pass = .read moment rows →
        Older staleAfterSec moment (lastReport [.ok, .partial_] key
          (⟨report.key, v.collectorStatus, w.now⟩ :: w.log)) →
        ¬ (report.key = key ∧ v.collectorStatus ∈ [CollectorStatus.ok, .partial_]) ∧
          Older staleAfterSec moment (w.lastWorking key) := by
      intro moment rows hread holder
      have hle : moment ≤ w.now := by
        apply h.stamped.moment_le
        rw [hread]
        rfl
      exact older_lastReport_cons hle holder
    constructor
    case stamped => exact hstamped
    case updates =>
      intro moment rows hread holder
      exact h.updates moment rows hread (hlog moment rows hread holder).2
    case row =>
      intro moment rows hread holder r hr
      obtain ⟨hfail, hold⟩ := hlog moment rows hread holder
      rw [row_recordVerdict] at hr
      by_cases hkey : key = report.key
      · -- a collector that has failed leaves the source untrusted by itself
        left
        have hcollector : v.collectorStatus ∉ [CollectorStatus.ok, .partial_] :=
          fun hworks => hfail ⟨hkey.symm, hworks⟩
        rw [if_pos hkey] at hr
        have hstate : r.state = v.state := by
          cases hrow : Table.row SourceTrustRow.key w.db.sourceTrust key with
          | none =>
            rw [hrow] at hr
            cases hr
            rfl
          | some old =>
            rw [hrow] at hr
            cases hr
            rfl
        rw [hstate]
        exact verdictState_mem_silentStates hcollector
      · rw [if_neg hkey] at hr
        exact h.row moment rows hread hold r hr
  · exact h

/-- The read of a pass that finds a stamp too old. -/
theorem Marked.read {w : TrustWorld} (h : Marked staleAfterSec key w)
    (hsource : key.2 ∈ stalenessSources) (hstamped : Stamped staleAfterSec key (readRows w)) :
    Marked staleAfterSec key (readRows w) := by
  unfold readRows at hstamped ⊢
  split
  · rename_i moment hpass
    rw [hpass] at hstamped
    -- both the row and the updates for it speak of a stamp too old for `moment`
    have hseen : Older staleAfterSec moment (w.lastWorking key) →
        ∀ r, Table.row SourceTrustRow.key w.db.sourceTrust key = some r →
          ∃ seen, r.evidenceSeenAt = some seen ∧
            rederive r seen moment (floorSec staleAfterSec) ∈ silentStates := by
      intro holder r hr
      have hok : Older staleAfterSec moment (w.lastOk key) := by
        apply h.stamped.current moment _ holder
        rw [hpass]
        rfl
      rw [← h.stamped.stamp, hr, Option.bind_some] at hok
      cases hseen : r.evidenceSeenAt with
      | none =>
        rw [hseen] at hok
        exact hok.elim
      | some seen =>
        rw [hseen] at hok
        refine ⟨seen, rfl, ?_⟩
        rw [rederive_eq]
        by_cases hbase : r.base ∈ gatePass
        · rw [if_pos ⟨hbase, hok⟩]
          exact List.mem_cons_self
        · rw [if_neg fun hage => hbase hage.1]
          exact base_mem_silentStates hbase
    constructor
    case stamped => exact hstamped
    case updates =>
      intro moment' rows hread holder u hu hkey
      cases hread
      obtain ⟨r, hr, hur⟩ := (mem_passUpdates staleAfterSec).mp hu
      obtain ⟨hmatch, _, seen, hseenr, hstate, _⟩ := staleUpdate_eq_some _ hur
      have hrow : Table.row SourceTrustRow.key w.db.sourceTrust key = some r := by
        rw [← hkey, ← hmatch.1]
        exact Table.row_of_mem h.stamped.nodup hr
      obtain ⟨seen', hseen', hsilent⟩ := hseen holder r hrow
      obtain rfl : seen = seen' := Option.some.inj (hseenr.symm.trans hseen')
      rw [hstate]
      exact hsilent
    case row =>
      intro moment' rows hread holder r hr
      cases hread
      obtain ⟨seen, hseenr, hsilent⟩ := hseen holder r hr
      obtain ⟨hmem, hkey⟩ := Table.row_eq_some hr
      cases hu : staleUpdate moment (floorSec staleAfterSec) r with
      | none =>
        left
        have hsame : r.source ∈ stalenessSources := by
          rw [← hkey] at hsource
          exact hsource
        rw [← (staleUpdate_eq_none_iff _).mp hu hsame seen hseenr]
        exact hsilent
      | some u =>
        right
        exact ⟨u, (mem_passUpdates staleAfterSec).mpr ⟨r, hmem, hu⟩,
          (staleUpdate_eq_some _ hu).1⟩
  · exact h

theorem Marked.next {w : TrustWorld} (h : Marked staleAfterSec key w)
    (hsource : key.2 ∈ stalenessSources) {step : TrustStep}
    (hcurrent : StampCurrent staleAfterSec key w step) :
    Marked staleAfterSec key ((trustMachine P staleAfterSec).next w step) := by
  have hstamped : Stamped staleAfterSec key ((trustMachine P staleAfterSec).next w step) :=
    h.stamped.next hcurrent
  cases step with
  | tick t => exact ⟨hstamped, h.updates, h.row⟩
  | report report => exact h.report report
  | close deviceId ts => exact ⟨hstamped, h.updates, h.row⟩
  | start =>
    rcases startPass_eq_or w with hsame | hread
    · have hnext : (trustMachine P staleAfterSec).next w .start = w := hsame
      rw [hnext]
      exact h
    · exact Marked.of_not_read hstamped hread
  | read => exact h.read hsource hstamped
  | write => exact Marked.of_not_read hstamped (pass_writePass_ne_read w)
  | rebuild =>
    rcases rebuildNext_eq_or w with hsame | hread
    · have hnext : (trustMachine P staleAfterSec).next w .rebuild = w := hsame
      rw [hnext]
      exact h
    · exact Marked.of_not_read hstamped hread

/-- What the write of such a pass leaves. -/
theorem Marked.state_writePass {w : TrustWorld} (h : Marked staleAfterSec key w)
    {moment : Instant} {rows : List SourceTrustRow} (hread : w.pass = .read moment rows)
    (holder : Older staleAfterSec moment (w.lastWorking key)) :
    ∃ r, Table.row SourceTrustRow.key (writePass staleAfterSec w).db.sourceTrust key = some r ∧
      r.state ∈ silentStates := by
  have hok : Older staleAfterSec moment (w.lastOk key) := by
    apply h.stamped.current moment _ holder
    rw [hread]
    rfl
  rw [rows_writePass, row_applySourceStaleness]
  cases hrow : Table.row SourceTrustRow.key w.db.sourceTrust key with
  | none =>
    -- a source without a row has never reported
    rw [← h.stamped.stamp, hrow] at hok
    exact hok.elim
  | some r =>
    refine ⟨_, rfl, ?_⟩
    have hkey := (Table.row_eq_some hrow).2
    by_cases hmatched : ∃ u ∈ pendingUpdates staleAfterSec w, u.Matches r
    · obtain ⟨u, hu, hmatch, heq⟩ := applyUpdates_of_matched hmatched
      rw [heq]
      exact h.updates moment rows hread holder u hu (hmatch.1.symm.trans hkey)
    · rw [applyUpdates_of_unmatched fun u hu hmatch => hmatched ⟨u, hu, hmatch⟩]
      rcases h.row moment rows hread holder r hrow with hsilent | hmatch
      · exact hsilent
      · exact absurd hmatch hmatched

/-! ### Runs -/

def PassPhase.readsAt (moment : Instant) : PassPhase → Bool
  | .read moment' _ => moment' = moment
  | _ => false

theorem exists_rows_of_readsAt {pass : PassPhase} {moment : Instant}
    (h : pass.readsAt moment = true) : ∃ rows, pass = .read moment rows := by
  cases pass with
  | read moment' rows =>
    obtain rfl : moment' = moment := by simpa [PassPhase.readsAt] using h
    exact ⟨rows, rfl⟩
  | idle | started | written => cases h

/-- Reports eight hours apart, with a pass five hours after the last; the threshold is twelve
    hours. -/
def reportingRun (status : CollectorStatus) : List TrustStep :=
  [freeSpace .ok halfFull, .tick (hours 8), freeSpace status halfFull, .tick (hours 13),
    .start, .read, .write]

/-- One report, and a pass thirteen hours after it. -/
def silencedRun (status : CollectorStatus) : List TrustStep :=
  [freeSpace status halfFull, .tick (hours 13), .start, .read, .write]

end Srp.Trust
