/-
  Srp/Db/RuleEpisodes.lean
  ========================
  **The sweep that counts rule outcomes** (`run_rulestats_scan`,
  `record_rule_outcomes` of `server/db.py`).

  The scan emits every episode of a sliding window again on every sweep.  What
  keeps an episode from being counted twice is its row in `rule_episodes`, and
  that row is pruned as well: it stays one day longer than the window looks back.
-/
import Srp.Analytics.RuleStats
import Srp.Lib.Machine
import Srp.Lib.Window

namespace Srp.Db

open Srp.Lib Srp.Lib.IsoTime Srp.Lib.Window Srp.Analytics

/-! ### Tables -/

structure Episode where
  ruleKey : RuleKey
  deviceId : String
  endTs : String
  outcome : RuleOutcome
deriving DecidableEq, Repr

/-- The primary key of `rule_episodes`. -/
def Episode.key (e : Episode) : RuleKey × String × String := (e.ruleKey, e.deviceId, e.endTs)

/-- The tables of a sweep; the score rows of a device stand in `id` order. -/
structure RuleDb where
  scores : String → List ScoreRow
  ruleEpisodes : List Episode
  ruleStats : RuleStats

/-! ### Recording outcomes -/

/-- `INSERT OR IGNORE` of each outcome: the table afterwards, and the rows that are new. -/
def insertEpisodes (table : List Episode) : List Episode → List Episode × List Episode
  | [] => (table, [])
  | e :: outcomes =>
    if e.key ∈ table.map (·.key) then insertEpisodes table outcomes
    else
      let r := insertEpisodes (table ++ [e]) outcomes
      (r.1, e :: r.2)

/-- `confirmed = confirmed + excluded.confirmed`, and the same for `refuted`. -/
def addOutcomes (ruleStats : RuleStats) (counted : List Episode) : RuleStats := fun key =>
  { confirmed := (ruleStats key).confirmed +
      counted.countP fun e => e.ruleKey = key ∧ e.outcome = .confirmed
    refuted := (ruleStats key).refuted +
      counted.countP fun e => e.ruleKey = key ∧ e.outcome = .refuted }

/-! ### The sweep -/

def scanLookback : Nat := refuteWindow + days 10
def scanRowCap : Int := 5000
def episodePruneMargin : Nat := days 1

/-- The newest rows with `ts >= since`, old to new. -/
def scoreSeries (rows : List ScoreRow) (limit : Int) (since : String) : List ScoreRow :=
  newest limit (rows.filter fun row => since ≤ isoformat row.ts)

def scanOutcomes (db : RuleDb) (deviceIds : List String) (now : Instant) : List Episode :=
  deviceIds.flatMap fun deviceId =>
    (scanDevice (scoreSeries (db.scores deviceId) scanRowCap
      (isoformat (now.minus scanLookback))) now).map fun (ruleKey, outcome, endTs) =>
        { ruleKey, deviceId, endTs, outcome }

/-- The episodes that a sweep at `now` counts. -/
def countedBy (db : RuleDb) (deviceIds : List String) (now : Instant) : List Episode :=
  (insertEpisodes db.ruleEpisodes (scanOutcomes db deviceIds now)).2

def runRulestatsScan (db : RuleDb) (deviceIds : List String) (now : Instant) : RuleDb :=
  { db with
    ruleEpisodes := (insertEpisodes db.ruleEpisodes (scanOutcomes db deviceIds now)).1.filter
      fun e => ¬ e.endTs < isoformat ((now.minus scanLookback).minus episodePruneMargin)
    ruleStats := addOutcomes db.ruleStats (countedBy db deviceIds now) }

/-! ### Runs -/

inductive RuleStep where
  /-- `store_scores` -/
  | storeScores (deviceId : String) (row : ScoreRow)
  /-- retention removes the `n` oldest rows of a device -/
  | dropOldest (deviceId : String) (n : Nat)
  | scan (deviceIds : List String) (now : Instant)

/-- The output of a step is the list of episodes that it counts. -/
def ruleSweeps : Machine RuleDb RuleStep (List Episode) where
  next db
    | .storeScores deviceId row =>
      { db with scores := Function.update db.scores deviceId (db.scores deviceId ++ [row]) }
    | .dropOldest deviceId n =>
      { db with scores := Function.update db.scores deviceId ((db.scores deviceId).drop n) }
    | .scan deviceIds now => runRulestatsScan db deviceIds now
  out db
    | .scan deviceIds now => countedBy db deviceIds now
    | _ => []

def RuleStep.scanTime : RuleStep → Option Instant
  | .scan _ now => some now
  | _ => none

def RuleStep.storedRow (deviceId : String) : RuleStep → Option ScoreRow
  | .storeScores id row => if id = deviceId then some row else none
  | _ => none

def scanTimes (steps : List RuleStep) : List Instant := steps.filterMap (·.scanTime)

/-- Everything ever stored for a device, whatever retention has removed since. -/
def history (db : RuleDb) (steps : List RuleStep) (deviceId : String) : List ScoreRow :=
  db.scores deviceId ++ steps.filterMap (·.storedRow deviceId)

/-- The episodes counted by all sweeps of a run. -/
def counted (db : RuleDb) (steps : List RuleStep) : List Episode :=
  (ruleSweeps.outputs db steps).flatten

/-! ### One recording -/

section Record

variable {table outcomes : List Episode}

theorem mem_insertEpisodes {e : Episode} (h : e ∈ (insertEpisodes table outcomes).2) :
    e ∈ outcomes ∧ e.key ∉ table.map (·.key) := by
  induction outcomes generalizing table with
  | nil => cases h
  | cons o outcomes ih =>
    simp only [insertEpisodes] at h
    split at h
    · obtain ⟨hmem, hkey⟩ := ih h
      exact ⟨List.mem_cons_of_mem o hmem, hkey⟩
    · rename_i hnew
      rcases List.mem_cons.mp h with rfl | h
      · exact ⟨List.mem_cons_self, hnew⟩
      · obtain ⟨hmem, hkey⟩ := ih h
        refine ⟨List.mem_cons_of_mem o hmem, fun htable => hkey ?_⟩
        rw [List.map_append]
        exact List.mem_append_left _ htable

theorem nodup_insertEpisodes : ((insertEpisodes table outcomes).2.map (·.key)).Nodup := by
  induction outcomes generalizing table with
  | nil => exact List.nodup_nil
  | cons o outcomes ih =>
    simp only [insertEpisodes]
    split
    · exact ih
    · rw [List.map_cons, List.nodup_cons]
      refine ⟨fun hmem => ?_, ih⟩
      obtain ⟨e, he, hkey⟩ := List.mem_map.mp hmem
      apply (mem_insertEpisodes he).2
      simp [hkey]

/-- Nothing recorded is lost before the prune. -/
theorem keys_insertEpisodes {k : RuleKey × String × String}
    (h : k ∈ table.map (·.key) ∨ k ∈ (insertEpisodes table outcomes).2.map (·.key)) :
    k ∈ (insertEpisodes table outcomes).1.map (·.key) := by
  induction outcomes generalizing table with
  | nil => simpa [insertEpisodes] using h
  | cons o outcomes ih =>
    simp only [insertEpisodes] at h ⊢
    split
    · rename_i hold
      rw [if_pos hold] at h
      exact ih h
    · rename_i hnew
      rw [if_neg hnew] at h
      apply ih
      rw [List.map_append, List.mem_append]
      rcases h with h | h
      · exact Or.inl (Or.inl h)
      · rcases List.mem_cons.mp h with rfl | h
        · exact Or.inl (Or.inr (by simp))
        · exact Or.inr h

end Record

@[simp] theorem addOutcomes_nil (stats : RuleStats) : addOutcomes stats [] = stats := by
  funext key
  simp [addOutcomes]

theorem addOutcomes_append (stats : RuleStats) (xs ys : List Episode) :
    addOutcomes stats (xs ++ ys) = addOutcomes (addOutcomes stats xs) ys := by
  funext key
  simp only [addOutcomes, List.countP_append, Nat.add_assoc]

/-! ### One sweep -/

section Sweep

variable {db : RuleDb} {deviceIds : List String} {now : Instant} {e : Episode}

/-- A counted episode was not in the table, and ends a run of the rows in the window. -/
theorem mem_countedBy (h : e ∈ countedBy db deviceIds now) :
    e.key ∉ db.ruleEpisodes.map (·.key) ∧ ∃ endTs, e.endTs = isoformat endTs ∧
      EndsRun (scoreSeries (db.scores e.deviceId) scanRowCap
        (isoformat (now.minus scanLookback))) (flagForRule e.ruleKey) endTs := by
  obtain ⟨hmem, hnew⟩ := mem_insertEpisodes h
  obtain ⟨deviceId, _, he⟩ := List.mem_flatMap.mp hmem
  obtain ⟨o, ho, rfl⟩ := List.mem_map.mp he
  exact ⟨hnew, mem_scanDevice ho⟩

/-- Nothing older than the window is counted. -/
theorem window_le_of_mem_countedBy (h : e ∈ countedBy db deviceIds now) :
    isoformat (now.minus scanLookback) ≤ e.endTs := by
  obtain ⟨_, endTs, htext, hrun⟩ := mem_countedBy h
  obtain ⟨r, hr, rfl⟩ := hrun.mem
  have hfilter := (newest_suffix _ _).subset hr
  rw [htext]
  exact of_decide_eq_true (List.mem_filter.mp hfilter).2

/-- After a sweep at `now` the row of a key is there, or its end is out of every later
    window. -/
def Recorded (db : RuleDb) (now : Instant) (k : RuleKey × String × String) : Prop :=
  k ∈ db.ruleEpisodes.map (·.key) ∨
    k.2.2 < isoformat ((now.minus scanLookback).minus episodePruneMargin)

theorem recorded_of_inserted {k : RuleKey × String × String}
    (h : k ∈ (insertEpisodes db.ruleEpisodes (scanOutcomes db deviceIds now)).1.map (·.key)) :
    Recorded (runRulestatsScan db deviceIds now) now k := by
  obtain ⟨e, he, rfl⟩ := List.mem_map.mp h
  by_cases hold : e.endTs < isoformat ((now.minus scanLookback).minus episodePruneMargin)
  · exact Or.inr hold
  · exact Or.inl (List.mem_map_of_mem (List.mem_filter.mpr ⟨he, by simpa using hold⟩))

/-- A recorded key is not counted by a later sweep: its row is still there, or the window has
    moved past it. -/
theorem not_mem_countedBy_of_recorded {before : Instant} {k : RuleKey × String × String}
    (hrec : Recorded db before k) (hle : before ≤ now) :
    k ∉ (countedBy db deviceIds now).map (·.key) := by
  intro hk
  obtain ⟨e, he, rfl⟩ := List.mem_map.mp hk
  rcases hrec with hrow | hold
  · exact (mem_countedBy he).1 hrow
  · have hwindow := window_le_of_mem_countedBy he
    have hmargin : (before.minus scanLookback).minus episodePruneMargin ≤
        now.minus scanLookback :=
      (Instant.minus_le _ _).trans (Instant.minus_le_minus hle le_rfl)
    have hlt := hold.trans_le (isoformat_le_iff.mpr hmargin)
    exact absurd hwindow (not_le.mpr hlt)

theorem Recorded.scan {before : Instant} {k : RuleKey × String × String}
    (hrec : Recorded db before k) (hle : before ≤ now) :
    Recorded (runRulestatsScan db deviceIds now) now k := by
  rcases hrec with hrow | hold
  · exact recorded_of_inserted (keys_insertEpisodes (Or.inl hrow))
  · refine Or.inr (hold.trans_le (isoformat_le_iff.mpr ?_))
    exact Instant.minus_le_minus (Instant.minus_le_minus hle le_rfl) le_rfl

end Sweep

/-! ### Whole runs -/

theorem nodup_counted_from (steps : List RuleStep) (db : RuleDb) (before : Instant)
    (done : List (RuleKey × String × String)) (hdone : done.Nodup)
    (hrec : ∀ k ∈ done, Recorded db before k) (hclock : (scanTimes steps).Pairwise (· ≤ ·))
    (hbefore : ∀ t ∈ scanTimes steps, before ≤ t) :
    (done ++ (counted db steps).map (·.key)).Nodup := by
  induction steps generalizing db before done with
  | nil => simpa [counted, Machine.outputs] using hdone
  | cons step steps ih =>
    have hcons : counted db (step :: steps) =
        ruleSweeps.out db step ++ counted (ruleSweeps.next db step) steps := by
      simp [counted, Machine.outputs]
    rw [hcons, List.map_append, ← List.append_assoc]
    cases step with
    | storeScores deviceId row =>
      have h := ih (ruleSweeps.next db (.storeScores deviceId row)) before done hdone hrec hclock
        hbefore
      simpa [ruleSweeps] using h
    | dropOldest deviceId n =>
      have h := ih (ruleSweeps.next db (.dropOldest deviceId n)) before done hdone hrec hclock
        hbefore
      simpa [ruleSweeps] using h
    | scan deviceIds now =>
      have hle : before ≤ now := hbefore now (by simp [scanTimes, RuleStep.scanTime])
      obtain ⟨hnow, hclock⟩ := List.pairwise_cons.mp hclock
      apply ih _ now _ _ _ hclock hnow
      · -- the keys counted now are new, and distinct
        refine List.nodup_append.mpr ⟨hdone, nodup_insertEpisodes, ?_⟩
        rintro k hk k' hk' rfl
        exact not_mem_countedBy_of_recorded (hrec k hk) hle hk'
      · intro k hk
        rcases List.mem_append.mp hk with hk | hk
        · exact (hrec k hk).scan hle
        · exact recorded_of_inserted (keys_insertEpisodes (Or.inr hk))

theorem ruleStats_stateAfter (steps : List RuleStep) (db : RuleDb) :
    (ruleSweeps.stateAfter db steps).ruleStats = addOutcomes db.ruleStats (counted db steps) := by
  induction steps generalizing db with
  | nil => simp [counted, Machine.outputs]
  | cons step steps ih =>
    have hcons : counted db (step :: steps) =
        ruleSweeps.out db step ++ counted (ruleSweeps.next db step) steps := by
      simp [counted, Machine.outputs]
    rw [Machine.stateAfter_cons, ih, hcons, addOutcomes_append]
    cases step with
    | storeScores deviceId row => simp [ruleSweeps]
    | dropOldest deviceId n => simp [ruleSweeps]
    | scan deviceIds now => rfl

/-! ### Episodes of the whole history -/

/-- Retention only removes from the old end. -/
theorem scores_suffix_history (steps : List RuleStep) (db : RuleDb) (deviceId : String) :
    (ruleSweeps.stateAfter db steps).scores deviceId <:+ history db steps deviceId := by
  induction steps generalizing db with
  | nil => simp [history]
  | cons step steps ih =>
    rw [Machine.stateAfter_cons]
    refine (ih _).trans ?_
    cases step with
    | storeScores id row =>
      by_cases hid : id = deviceId
      · subst hid
        simp [history, ruleSweeps, RuleStep.storedRow]
      · have hid' : deviceId ≠ id := fun h => hid h.symm
        simp [history, ruleSweeps, RuleStep.storedRow, hid, hid']
    | dropOldest id n =>
      by_cases hid : id = deviceId
      · subst hid
        simp only [history, ruleSweeps, RuleStep.storedRow, Function.update_self,
          List.filterMap_cons]
        obtain ⟨front, hfront⟩ := List.drop_suffix n (db.scores id)
        exact ⟨front, by rw [← List.append_assoc, hfront]⟩
      · have hid' : deviceId ≠ id := fun h => hid h.symm
        simp [history, ruleSweeps, RuleStep.storedRow, hid']
    | scan deviceIds now =>
      simp [history, ruleSweeps, RuleStep.storedRow, runRulestatsScan]

/-- Of rows in time order the window keeps an end piece. -/
theorem filter_since_suffix {since : String} {rows : List ScoreRow}
    (horder : rows.Pairwise fun r r' => r.ts ≤ r'.ts) :
    (rows.filter fun row => since ≤ isoformat row.ts) <:+ rows := by
  induction rows with
  | nil => exact List.suffix_refl []
  | cons row rows ih =>
    obtain ⟨hrow, horder⟩ := List.pairwise_cons.mp horder
    by_cases hsince : since ≤ isoformat row.ts
    · have hall : ∀ r ∈ row :: rows, decide (since ≤ isoformat r.ts) = true := by
        intro r hr
        rcases List.mem_cons.mp hr with rfl | hr
        · exact decide_eq_true hsince
        · exact decide_eq_true (hsince.trans (isoformat_le_iff.mpr (hrow r hr)))
      rw [List.filter_eq_self.mpr hall]
    · rw [List.filter_cons_of_neg (by simpa using hsince)]
      exact (ih horder).trans (List.suffix_cons row rows)

theorem mem_counted {db : RuleDb} {steps : List RuleStep} {e : Episode}
    (h : e ∈ counted db steps) : ∃ (i : Nat) (deviceIds : List String) (now : Instant),
      e ∈ countedBy (ruleSweeps.stateAfter db (steps.take i)) deviceIds now := by
  obtain ⟨out, hout, he⟩ := List.mem_flatten.mp h
  obtain ⟨i, hi⟩ := List.mem_iff_getElem?.mp hout
  rw [Machine.outputs_getElem?] at hi
  obtain ⟨step, _, rfl⟩ := Option.map_eq_some_iff.mp hi
  cases step with
  | storeScores deviceId row => cases he
  | dropOldest deviceId n => cases he
  | scan deviceIds now => exact ⟨i, deviceIds, now, he⟩

theorem history_take_prefix (db : RuleDb) (steps : List RuleStep) (i : Nat) (deviceId : String) :
    history db (steps.take i) deviceId <+: history db steps deviceId := by
  refine ⟨(steps.drop i).filterMap (·.storedRow deviceId), ?_⟩
  rw [history, history, List.append_assoc, ← List.filterMap_append, List.take_append_drop]

/-- **Each rule episode is counted at most once.**  Over all sweeps no key is counted a second
    time, whatever the outcome; each counted key is the end of a finished run of the device's
    whole history; and `rule_stats` has grown by exactly the counted episodes. -/
theorem episodes_counted_once (db : RuleDb) (steps : List RuleStep)
    (hclock : (scanTimes steps).Pairwise (· ≤ ·))
    (horder : ∀ deviceId, (history db steps deviceId).Pairwise fun r r' => r.ts ≤ r'.ts) :
    ((counted db steps).map (·.key)).Nodup ∧
      (∀ e ∈ counted db steps, ∃ endTs, e.endTs = isoformat endTs ∧
        EndsRun (history db steps e.deviceId) (flagForRule e.ruleKey) endTs) ∧
      (ruleSweeps.stateAfter db steps).ruleStats =
        addOutcomes db.ruleStats (counted db steps) := by
  refine ⟨?_, ?_, ruleStats_stateAfter steps db⟩
  · exact nodup_counted_from steps db ⟨0, by decide⟩ [] List.nodup_nil (by simp) hclock
      fun t _ => Nat.zero_le _
  · intro e he
    obtain ⟨i, deviceIds, now, hcount⟩ := mem_counted he
    obtain ⟨_, endTs, htext, hrun⟩ := mem_countedBy hcount
    refine ⟨endTs, htext, hrun.of_infix ?_⟩
    have hhist := history_take_prefix db steps i e.deviceId
    have hscores := scores_suffix_history (steps.take i) db e.deviceId
    have hsorted := (horder e.deviceId).sublist (hscores.sublist.trans hhist.sublist)
    have hwindow := (newest_suffix scanRowCap _).trans
      (@filter_since_suffix (isoformat (now.minus scanLookback)) _ hsorted)
    exact (hwindow.trans hscores).isInfix.trans hhist.isInfix

/-! ### An episode that two sweeps resolve -/

private def noRules : RuleDb := { scores := fun _ => [], ruleEpisodes := [], ruleStats := fun _ => {} }

private def quietEpisode : List RuleStep :=
  [.storeScores "PC-1" { ts := ⟨days 100, by decide⟩, flags := [.pendingGt10] },
   .storeScores "PC-1" { ts := ⟨days 101, by decide⟩ },
   .scan ["PC-1"] ⟨days 165, by decide⟩,
   .scan ["PC-1"] ⟨days 166, by decide⟩]

theorem quietEpisode_counted_once :
    ((counted noRules quietEpisode).map (·.key)).Nodup ∧
      (∀ e ∈ counted noRules quietEpisode, ∃ endTs, e.endTs = isoformat endTs ∧
        EndsRun (history noRules quietEpisode e.deviceId) (flagForRule e.ruleKey) endTs) ∧
      (ruleSweeps.stateAfter noRules quietEpisode).ruleStats =
        addOutcomes noRules.ruleStats (counted noRules quietEpisode) := by
  apply episodes_counted_once
  · decide
  · intro deviceId
    by_cases h : "PC-1" = deviceId
    · subst h
      decide
    · simp [history, noRules, quietEpisode, RuleStep.storedRow, h]

example : (counted noRules quietEpisode).map (·.outcome) = [.refuted] := by decide +kernel

end Srp.Db
