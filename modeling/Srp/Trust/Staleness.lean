/-
  Srp/Trust/Staleness.lean
  ========================
  **The staleness job beside the ingest** (`server/trust/staleness.py`).

  A step of the machine is one transaction, or one reading of the clock, so its
  runs are the interleavings of the ingest with the passes of the job; one pass
  runs at a time.  `log` is no part of the program: it records the reports, the
  newest first.
-/
import Srp.Lib.Machine
import Srp.Trust.Evaluate

namespace Srp.Trust

open Srp.Lib Srp.Lib.Lines Srp.Lib.PyNum Srp.Lib.PyJson Srp.Lib.IsoTime

/-! ### `reevaluate_staleness` -/

/-- `_STALENESS_SOURCES`. -/
def stalenessSources : List String := domainGatingSources ++ ["identity"]

structure StaleUpdate where
  deviceId : String
  source : String
  state : SourceState
  weight : ℚ
  reason : Text
  /-- The stamp that the update was computed from. -/
  evidenceSeenAt : Option Instant
deriving DecidableEq, Repr

def StaleUpdate.key (u : StaleUpdate) : SourceKey := (u.deviceId, u.source)

/-- `_age_sec`, of a stamp. -/
def ageSec (now seen : Instant) : ℚ := ((now.us : ℚ) - seen.us) / usPerSec

def silentReason (age staleAfterSec : ℚ) : Text :=
  ("источник молчит " ++ fmtFixed 0 (age / 3600) ++ " ч (порог " ++
    fmtFixed 0 (staleAfterSec / 3600) ++ " ч)").toList

/-- The state of a row whose stamp is `seen`. -/
def rederive (r : SourceTrustRow) (seen now : Instant) (staleAfterSec : ℚ) : SourceState :=
  deriveState r.collectorStatus r.semanticStatus (some (ageSec now seen)) (some staleAfterSec)

/-- The loop body of `reevaluate_staleness`. -/
def staleUpdate (now : Instant) (staleAfterSec : ℚ) (r : SourceTrustRow) : Option StaleUpdate :=
  if r.source ∉ stalenessSources then none
  else match r.evidenceSeenAt with
    | none => none
    | some seen =>
      let newState := rederive r seen now staleAfterSec
      if newState = r.state then none
      else some { deviceId := r.deviceId, source := r.source, state := newState,
                  weight := computeWeight newState,
                  reason := silentReason (ageSec now seen) staleAfterSec,
                  evidenceSeenAt := some seen }

def reevaluateStaleness (rows : List SourceTrustRow) (now : Instant) (staleAfterSec : ℚ) :
    List StaleUpdate := rows.filterMap (staleUpdate now staleAfterSec)

/-! ### `apply_source_staleness` -/

/-- The `WHERE` clause. -/
def StaleUpdate.Matches (u : StaleUpdate) (r : SourceTrustRow) : Prop :=
  r.key = u.key ∧ r.evidenceSeenAt = u.evidenceSeenAt

instance (u : StaleUpdate) (r : SourceTrustRow) : Decidable (u.Matches r) :=
  inferInstanceAs (Decidable (r.key = u.key ∧ r.evidenceSeenAt = u.evidenceSeenAt))

def applyUpdate (r : SourceTrustRow) (u : StaleUpdate) : SourceTrustRow :=
  if u.Matches r then { r with state := u.state, weight := u.weight, reason := u.reason } else r

/-- What the updates, one after the other, make of a row. -/
def applyUpdates (updates : List StaleUpdate) (r : SourceTrustRow) : SourceTrustRow :=
  updates.foldl applyUpdate r

def applySourceStaleness (updates : List StaleUpdate) (rows : List SourceTrustRow) :
    List SourceTrustRow := rows.map (applyUpdates updates)

/-- The row count that the updates return. -/
def appliedCount (updates : List StaleUpdate) (rows : List SourceTrustRow) : Nat :=
  (updates.map fun u => rows.countP fun r => u.Matches r).sum

/-! ### `run_staleness_cycle` -/

/-- The floored threshold. -/
def floorSec (staleAfterSec : ℚ) : ℚ := max 60 staleAfterSec

def devicesOf (updates : List StaleUpdate) : List String := (updates.map (·.deviceId)).dedup

/-- `_rebuild_domain_blob`. -/
def rebuildDomainBlob (moment : Instant) (db : TrustDb) (deviceId : String) : TrustDb :=
  storeTrust { deviceId, ts := isoformat moment, result := currentBlob db deviceId } db

structure CycleResult where
  checked : Nat
  updated : Nat
deriving DecidableEq, Repr

def writeUpdates (updates : List StaleUpdate) (db : TrustDb) : TrustDb :=
  { db with sourceTrust := applySourceStaleness updates db.sourceTrust }

/-- `run_staleness_cycle` with nothing in between. -/
def runStalenessCycle (staleAfterSec : ℚ) (moment : Instant) (db : TrustDb) :
    TrustDb × CycleResult :=
  let updates := reevaluateStaleness db.sourceTrust moment (floorSec staleAfterSec)
  ((devicesOf updates).foldl (rebuildDomainBlob moment) (writeUpdates updates db),
    { checked := db.sourceTrust.length, updated := appliedCount updates db.sourceTrust })

/-! ### The machine -/

/-- Where the pass stands, with its local variables. -/
inductive PassPhase where
  | idle
  /-- behind `moment = now or datetime.now(...)` -/
  | started (moment : Instant)
  /-- behind `rows = get_rows()` -/
  | read (moment : Instant) (rows : List SourceTrustRow)
  /-- behind `applied = write(updates)`, with the devices still to rebuild -/
  | written (moment : Instant) (devices : List String)

structure LoggedReport where
  key : SourceKey
  collectorStatus : CollectorStatus
  receivedAt : Instant

structure TrustWorld where
  now : Instant
  db : TrustDb := {}
  pass : PassPhase := .idle
  log : List LoggedReport := []

inductive TrustStep where
  /-- the server clock reads `t`, unless it is already past it -/
  | tick (t : Instant)
  /-- one round of the loop of `evaluate_trust` -/
  | report (report : SourceReport)
  /-- the end of `evaluate_trust` -/
  | close (deviceId ts : String)
  /-- the steps of `run_staleness_cycle` -/
  | start
  | read
  | write
  | rebuild

variable (P : PyValues) (staleAfterSec : ℚ)

def ingestReport (report : SourceReport) (w : TrustWorld) : TrustWorld :=
  match verdictOf P w.db report with
  | some v =>
    { w with
      db := recordVerdict report v w.now w.db
      log := ⟨report.key, v.collectorStatus, w.now⟩ :: w.log }
  | none => w

def closeTrust (deviceId ts : String) (w : TrustWorld) : TrustWorld :=
  { w with db := storeTrust { deviceId, ts, result := currentBlob w.db deviceId } w.db }

/-- The updates of a pass that has read `rows`. -/
def passUpdates (moment : Instant) (rows : List SourceTrustRow) : List StaleUpdate :=
  reevaluateStaleness rows moment (floorSec staleAfterSec)

def startPass (w : TrustWorld) : TrustWorld :=
  match w.pass with
  | .idle => { w with pass := .started w.now }
  | _ => w

def readRows (w : TrustWorld) : TrustWorld :=
  match w.pass with
  | .started moment => { w with pass := .read moment w.db.sourceTrust }
  | _ => w

def writePass (w : TrustWorld) : TrustWorld :=
  match w.pass with
  | .read moment rows =>
    let updates := passUpdates staleAfterSec moment rows
    { w with db := writeUpdates updates w.db, pass := .written moment (devicesOf updates) }
  | _ => w

def rebuildNext (w : TrustWorld) : TrustWorld :=
  match w.pass with
  | .written _ [] => { w with pass := .idle }
  | .written moment (deviceId :: devices) =>
    { w with db := rebuildDomainBlob moment w.db deviceId, pass := .written moment devices }
  | _ => w

def trustMachine : Machine TrustWorld TrustStep (Option CycleResult) where
  next w
    | .tick t => { w with now := max w.now t }
    | .report report => ingestReport P report w
    | .close deviceId ts => closeTrust deviceId ts w
    | .start => startPass w
    | .read => readRows w
    | .write => writePass staleAfterSec w
    | .rebuild => rebuildNext w
  out w
    | .write => match w.pass with
      | .read moment rows =>
        some { checked := rows.length,
               updated := appliedCount (passUpdates staleAfterSec moment rows) w.db.sourceTrust }
      | _ => none
    | _ => none

/-! ### Calls are runs -/

/-- A completed round moves the tables as the loop of `evaluate_trust` does. -/
theorem db_ingestReport (report : SourceReport) (w : TrustWorld) :
    (ingestReport P report w).db = evaluateSource P report w.now w.db := by
  unfold ingestReport evaluateSource
  cases verdictOf P w.db report with
  | none => rfl
  | some v => rfl

@[simp] theorem now_ingestReport (report : SourceReport) (w : TrustWorld) :
    (ingestReport P report w).now = w.now := by
  unfold ingestReport
  split <;> rfl

@[simp] theorem pass_ingestReport (report : SourceReport) (w : TrustWorld) :
    (ingestReport P report w).pass = w.pass := by
  unfold ingestReport
  split <;> rfl

/-- The loop of a call is a run of rounds: those before the one that raises. -/
theorem evaluateSources_eq_run (w : TrustWorld) (reports : List SourceReport) :
    ∃ rounds, rounds <+: reports ∧
      ((trustMachine P staleAfterSec).stateAfter w (rounds.map .report)).db =
        (evaluateSources P w.now w.db reports).1 ∧
      ((trustMachine P staleAfterSec).stateAfter w (rounds.map .report)).now = w.now ∧
      ((trustMachine P staleAfterSec).stateAfter w (rounds.map .report)).pass = w.pass := by
  induction reports generalizing w with
  | nil => exact ⟨[], List.prefix_rfl, rfl, rfl, rfl⟩
  | cons report reports ih =>
    unfold evaluateSources
    split
    · exact ⟨[], List.nil_prefix, rfl, rfl, rfl⟩
    · obtain ⟨rounds, hprefix, hdb, hnow, hpass⟩ := ih (ingestReport P report w)
      refine ⟨report :: rounds, List.cons_prefix_cons.mpr ⟨rfl, hprefix⟩, ?_, ?_, ?_⟩
      · rw [now_ingestReport, db_ingestReport] at hdb
        exact hdb
      · rw [now_ingestReport] at hnow
        exact hnow
      · rw [pass_ingestReport] at hpass
        exact hpass

/-- **A call of `evaluate_trust` is a run of the machine.** -/
theorem evaluateTrust_eq_run (w : TrustWorld) (deviceId : String) (payload : Fields)
    (sourceHealth : List (String × CollectorStatus)) (ts : String) :
    ∃ steps, ((trustMachine P staleAfterSec).stateAfter w steps).db =
        (evaluateTrust P deviceId payload sourceHealth ts w.now w.db).1 ∧
      ((trustMachine P staleAfterSec).stateAfter w steps).now = w.now ∧
      ((trustMachine P staleAfterSec).stateAfter w steps).pass = w.pass := by
  obtain ⟨rounds, _, hdb, hnow, hpass⟩ := evaluateSources_eq_run P staleAfterSec w
    (sourceHealth.map fun h => SourceReport.mk deviceId h.1 h.2 payload ts)
  unfold evaluateTrust
  cases hrun : evaluateSources P w.now w.db
      (sourceHealth.map fun h => SourceReport.mk deviceId h.1 h.2 payload ts) with
  | mk db complete =>
    rw [hrun] at hdb
    simp only [hrun]
    cases complete with
    | false => exact ⟨rounds.map .report, hdb, hnow, hpass⟩
    | true =>
      refine ⟨rounds.map .report ++ [.close deviceId ts], ?_, ?_, ?_⟩
      · rw [Machine.stateAfter_append]
        exact congrArg
          (fun db => storeTrust { deviceId, ts, result := currentBlob db deviceId } db) hdb
      · rw [Machine.stateAfter_append]
        exact hnow
      · rw [Machine.stateAfter_append]
        exact hpass

theorem stateAfter_rebuild (w : TrustWorld) (moment : Instant) (devices : List String) :
    (trustMachine P staleAfterSec).stateAfter { w with pass := .written moment devices }
        (List.replicate (devices.length + 1) .rebuild) =
      { w with db := devices.foldl (rebuildDomainBlob moment) w.db, pass := .idle } := by
  induction devices generalizing w with
  | nil => rfl
  | cons deviceId devices ih => exact ih { w with db := rebuildDomainBlob moment w.db deviceId }

/-- **A cycle with nothing in between is a run of the machine.** -/
theorem runStalenessCycle_eq_run (w : TrustWorld) (hidle : w.pass = .idle) :
    ∃ steps, (trustMachine P staleAfterSec).stateAfter w steps =
      { w with db := (runStalenessCycle staleAfterSec w.now w.db).1 } := by
  cases w with
  | mk now db pass log =>
    cases hidle
    let updates := passUpdates staleAfterSec now db.sourceTrust
    refine ⟨.start :: .read :: .write ::
      List.replicate ((devicesOf updates).length + 1) .rebuild, ?_⟩
    exact stateAfter_rebuild P staleAfterSec { now, db := writeUpdates updates db, log } now
      (devicesOf updates)

/-! ### What the job computes of a row -/

theorem rederive_eq (r : SourceTrustRow) (seen now : Instant) :
    rederive r seen now staleAfterSec =
      if r.base ∈ gatePass ∧ staleAfterSec < ageSec now seen then .stale else r.base := by
  unfold rederive
  rw [deriveState_eq]
  refine if_congr ?_ rfl rfl
  simp [aged, SourceTrustRow.base]

theorem staleUpdate_eq_some {now : Instant} {r : SourceTrustRow} {u : StaleUpdate}
    (h : staleUpdate now staleAfterSec r = some u) :
    u.Matches r ∧ r.source ∈ stalenessSources ∧ ∃ seen, r.evidenceSeenAt = some seen ∧
      u.state = rederive r seen now staleAfterSec ∧ u.weight = computeWeight u.state ∧
      u.state ≠ r.state := by
  unfold staleUpdate at h
  split at h
  · cases h
  · rename_i hsource
    split at h
    · cases h
    · rename_i seen hseen
      dsimp only at h
      split at h
      · cases h
      · rename_i hne
        cases h
        exact ⟨⟨rfl, hseen⟩, not_not.mp hsource, seen, hseen, rfl, rfl, hne⟩

theorem staleUpdate_eq_none_iff {now : Instant} {r : SourceTrustRow} :
    staleUpdate now staleAfterSec r = none ↔ r.source ∈ stalenessSources →
      ∀ seen, r.evidenceSeenAt = some seen → rederive r seen now staleAfterSec = r.state := by
  unfold staleUpdate
  split
  · rename_i hsource
    exact ⟨fun _ h => absurd h hsource, fun _ => rfl⟩
  · rename_i hsource
    split
    · rename_i hseen
      simp [hseen]
    · rename_i seen hseen
      dsimp only
      split
      · rename_i heq
        simp [hseen, heq]
      · rename_i hne
        simp [hseen, hne, not_not.mp hsource]

theorem mem_passUpdates {moment : Instant} {rows : List SourceTrustRow} {u : StaleUpdate} :
    u ∈ passUpdates staleAfterSec moment rows ↔
      ∃ r ∈ rows, staleUpdate moment (floorSec staleAfterSec) r = some u := by
  unfold passUpdates reevaluateStaleness
  rw [List.mem_filterMap]

/-! ### What the updates make of a row -/

@[simp] theorem key_applyUpdate (r : SourceTrustRow) (u : StaleUpdate) :
    (applyUpdate r u).key = r.key := by
  unfold applyUpdate
  split <;> rfl

@[simp] theorem evidence_applyUpdate (r : SourceTrustRow) (u : StaleUpdate) :
    (applyUpdate r u).evidenceSeenAt = r.evidenceSeenAt := by
  unfold applyUpdate
  split <;> rfl

@[simp] theorem base_applyUpdate (r : SourceTrustRow) (u : StaleUpdate) :
    (applyUpdate r u).base = r.base := by
  unfold applyUpdate
  split <;> rfl

@[simp] theorem matches_applyUpdate (u u' : StaleUpdate) (r : SourceTrustRow) :
    u.Matches (applyUpdate r u') ↔ u.Matches r := by
  unfold StaleUpdate.Matches
  rw [key_applyUpdate, evidence_applyUpdate]

/-- The updates write state, weight and reason, and no other column. -/
theorem applyUpdates_keep (updates : List StaleUpdate) (r : SourceTrustRow) :
    (applyUpdates updates r).key = r.key ∧
      (applyUpdates updates r).evidenceSeenAt = r.evidenceSeenAt ∧
      (applyUpdates updates r).base = r.base := by
  induction updates generalizing r with
  | nil => exact ⟨rfl, rfl, rfl⟩
  | cons u updates ih =>
    obtain ⟨hkey, hseen, hbase⟩ := ih (applyUpdate r u)
    rw [key_applyUpdate] at hkey
    rw [evidence_applyUpdate] at hseen
    rw [base_applyUpdate] at hbase
    exact ⟨hkey, hseen, hbase⟩

/-- A row that no update matches is not touched. -/
theorem applyUpdates_of_unmatched {updates : List StaleUpdate} {r : SourceTrustRow}
    (h : ∀ u ∈ updates, ¬ u.Matches r) : applyUpdates updates r = r := by
  induction updates with
  | nil => rfl
  | cons u updates ih =>
    have hu : applyUpdate r u = r := if_neg (h u List.mem_cons_self)
    calc applyUpdates (u :: updates) r = applyUpdates updates (applyUpdate r u) := rfl
      _ = applyUpdates updates r := by rw [hu]
      _ = r := ih fun u' hu' => h u' (List.mem_cons_of_mem u hu')

/-- A row that is matched gets what one of the updates that match it says. -/
theorem applyUpdates_of_matched {updates : List StaleUpdate} {r : SourceTrustRow}
    (h : ∃ u ∈ updates, u.Matches r) : ∃ u ∈ updates, u.Matches r ∧
      applyUpdates updates r = { r with state := u.state, weight := u.weight, reason := u.reason } := by
  induction updates generalizing r with
  | nil =>
    obtain ⟨u, hu, _⟩ := h
    cases hu
  | cons u updates ih =>
    have hcons : applyUpdates (u :: updates) r = applyUpdates updates (applyUpdate r u) := rfl
    by_cases hrest : ∃ u' ∈ updates, u'.Matches r
    · -- a later update has the last word
      obtain ⟨u', hu', hmatch⟩ := hrest
      obtain ⟨last, hlast, hlastmatch, heq⟩ := ih (r := applyUpdate r u) ⟨u', hu', by simpa using hmatch⟩
      refine ⟨last, List.mem_cons_of_mem u hlast, by simpa using hlastmatch, ?_⟩
      rw [hcons, heq]
      unfold applyUpdate
      split <;> rfl
    · obtain ⟨u', hu', hmatch⟩ := h
      rcases List.mem_cons.mp hu' with rfl | hu'
      · refine ⟨u', List.mem_cons_self, hmatch, ?_⟩
        rw [hcons, applyUpdates_of_unmatched]
        · exact if_pos hmatch
        · intro v hv hvmatch
          exact hrest ⟨v, hv, by simpa using hvmatch⟩
      · exact absurd ⟨u', hu', hmatch⟩ hrest

theorem keys_applySourceStaleness (updates : List StaleUpdate) (rows : List SourceTrustRow) :
    (applySourceStaleness updates rows).map SourceTrustRow.key = rows.map SourceTrustRow.key := by
  unfold applySourceStaleness
  rw [List.map_map]
  exact List.map_congr_left fun r _ => (applyUpdates_keep updates r).1

theorem row_applySourceStaleness (updates : List StaleUpdate) (rows : List SourceTrustRow)
    (key : SourceKey) :
    Table.row SourceTrustRow.key (applySourceStaleness updates rows) key =
      (Table.row SourceTrustRow.key rows key).map (applyUpdates updates) :=
  Table.row_map (fun r => (applyUpdates_keep updates r).1) rows key

end Srp.Trust
