/-
  Srp/Analytics/RuleStats.lean
  ============================
  **Outcomes of rule episodes** (`scan_device` of `server/analytics/rulestats.py`).

  An episode is a maximal run of score rows that carry the flag of a rule; it is
  finished once a row without the flag follows, and its end is its last row.  The
  scan is stateless: it resolves the finished episodes of whatever rows it is
  given.  A score row keeps the fields that the scan reads, and its `ts` is the
  instant that `store_scores` was given as `_now_iso()`.
-/
import Srp.Analytics.Signals
import Srp.Lib.IsoTime

namespace Srp.Analytics

open Srp.Lib.IsoTime Srp.Scoring

structure ScoreRow where
  ts : Instant
  /-- `risk.score100.storage_risk.coords.flags`, empty at any missing level -/
  flags : List Flag := []
  /-- `risk.errchain.stage` -/
  stage : Nat := 0
  /-- `risk.score100.storage_risk.band` -/
  storageBand : Option ScoreBand := none
deriving DecidableEq, Repr

inductive RuleOutcome where
  | confirmed
  | refuted
deriving DecidableEq, Repr

def confirmWindow : Nat := days 45
def refuteWindow : Nat := days 60

def RuleKey.all : List RuleKey := [.pendingHigh, .mediaRecurrence, .earlyChain]

def flagForRule : RuleKey → Flag
  | .pendingHigh => .pendingGt10
  | .mediaRecurrence => .recurrence
  | .earlyChain => .earlyEvents

def confirms (row : ScoreRow) : Bool := decide (2 ≤ row.stage) || row.storageBand == some .bad

/-- Some row after `endTs` and within the window satisfies the predicate. -/
def hasRowInWindow (rows : List ScoreRow) (endTs : Instant) (window : Nat)
    (predicate : ScoreRow → Bool) : Bool :=
  rows.any fun row =>
    decide (endTs < row.ts) && decide (row.ts.us ≤ endTs.us + window) && predicate row

/-- `confirmed`, `refuted`, or not yet resolvable. -/
def resolveEpisode (rows : List ScoreRow) (endTs : Instant) (flag : Flag) (now : Instant) :
    Option RuleOutcome :=
  if hasRowInWindow rows endTs confirmWindow confirms then some .confirmed
  else if endTs.us + refuteWindow ≤ now.us ∧ ¬ hasRowInWindow rows endTs refuteWindow
      (fun r => confirms r || decide (flag ∈ r.flags)) then some .refuted
  else none

/-- The loop of `_scan_rule` over the remaining rows; `runEnd` is the last row of the run in
    progress.  A run that reaches the last row stays unresolved. -/
def scanLoop (rows : List ScoreRow) (ruleKey : RuleKey) (flag : Flag) (now : Instant) :
    Option Instant → List ScoreRow → List (RuleKey × RuleOutcome × String)
  | _, [] => []
  | runEnd, row :: rest =>
    if flag ∈ row.flags then scanLoop rows ruleKey flag now (some row.ts) rest
    else
      match runEnd with
      | none => scanLoop rows ruleKey flag now none rest
      | some endTs =>
        match resolveEpisode rows endTs flag now with
        | none => scanLoop rows ruleKey flag now none rest
        | some outcome =>
          (ruleKey, outcome, isoformat endTs) :: scanLoop rows ruleKey flag now none rest

def scanRule (rows : List ScoreRow) (ruleKey : RuleKey) (flag : Flag) (now : Instant) :
    List (RuleKey × RuleOutcome × String) :=
  scanLoop rows ruleKey flag now none rows

/-- The resolved episodes of one device's score history, old to new. -/
def scanDevice (scoreRows : List ScoreRow) (now : Instant) :
    List (RuleKey × RuleOutcome × String) :=
  RuleKey.all.flatMap fun ruleKey => scanRule scoreRows ruleKey (flagForRule ruleKey) now

/-! ### What the scan emits -/

/-- A row of the list carries the flag, and the next one does not. -/
def EndsRun (rows : List ScoreRow) (flag : Flag) (endTs : Instant) : Prop :=
  ∃ pre r q post, rows = pre ++ r :: q :: post ∧ r.ts = endTs ∧ flag ∈ r.flags ∧
    flag ∉ q.flags

section Scan

variable {rows rest : List ScoreRow} {ruleKey : RuleKey} {flag : Flag} {now endTs : Instant}

theorem EndsRun.of_infix {rows' : List ScoreRow} (h : EndsRun rows flag endTs)
    (hin : rows <:+: rows') : EndsRun rows' flag endTs := by
  obtain ⟨pre, r, q, post, rfl, hrest⟩ := h
  obtain ⟨front, back, rfl⟩ := hin
  exact ⟨front ++ pre, r, q, post ++ back, by simp, hrest⟩

theorem EndsRun.mem (h : EndsRun rows flag endTs) : ∃ r ∈ rows, r.ts = endTs := by
  obtain ⟨pre, r, q, post, rfl, hts, _⟩ := h
  exact ⟨r, by simp, hts⟩

/-- An emitted end is the run in progress, cut off by the next row, or a run of the rest. -/
theorem mem_scanLoop {runEnd : Option Instant} {e : RuleKey × RuleOutcome × String}
    (h : e ∈ scanLoop rows ruleKey flag now runEnd rest) :
    e.1 = ruleKey ∧ ∃ endTs, e.2.2 = isoformat endTs ∧
      ((runEnd = some endTs ∧ ∃ q post, rest = q :: post ∧ flag ∉ q.flags) ∨
        EndsRun rest flag endTs) := by
  induction rest generalizing runEnd with
  | nil => cases h
  | cons row rest ih =>
    have htail : ∀ {endTs}, EndsRun rest flag endTs → EndsRun (row :: rest) flag endTs :=
      fun hrun => hrun.of_infix (List.suffix_cons row rest).isInfix
    simp only [scanLoop] at h
    by_cases hflag : flag ∈ row.flags
    · rw [if_pos hflag] at h
      obtain ⟨hkey, endTs, htext, ⟨hend, q, post, rfl, hq⟩ | hrun⟩ := ih h
      · refine ⟨hkey, endTs, htext, Or.inr ⟨[], row, q, post, rfl, ?_, hflag, hq⟩⟩
        exact Option.some.inj hend
      · exact ⟨hkey, endTs, htext, Or.inr (htail hrun)⟩
    · rw [if_neg hflag] at h
      -- past an unflagged row no run is in progress
      have hafter : e ∈ scanLoop rows ruleKey flag now none rest →
          e.1 = ruleKey ∧ ∃ endTs, e.2.2 = isoformat endTs ∧
            ((runEnd = some endTs ∧ ∃ q post, row :: rest = q :: post ∧ flag ∉ q.flags) ∨
              EndsRun (row :: rest) flag endTs) := by
        intro h
        obtain ⟨hkey, endTs, htext, ⟨hend, _⟩ | hrun⟩ := ih h
        · cases hend
        · exact ⟨hkey, endTs, htext, Or.inr (htail hrun)⟩
      cases runEnd with
      | none => exact hafter h
      | some endTs =>
        dsimp only at h
        cases hout : resolveEpisode rows endTs flag now with
        | none =>
          rw [hout] at h
          exact hafter h
        | some outcome =>
          rw [hout] at h
          rcases List.mem_cons.mp h with rfl | h
          · exact ⟨rfl, endTs, rfl, Or.inl ⟨rfl, row, rest, rfl, hflag⟩⟩
          · exact hafter h

theorem mem_scanDevice {e : RuleKey × RuleOutcome × String} (h : e ∈ scanDevice rows now) :
    ∃ endTs, e.2.2 = isoformat endTs ∧ EndsRun rows (flagForRule e.1) endTs := by
  obtain ⟨key, _, he⟩ := List.mem_flatMap.mp h
  obtain ⟨rfl, endTs, htext, ⟨hend, _⟩ | hrun⟩ := mem_scanLoop he
  · cases hend
  · exact ⟨endTs, htext, hrun⟩

end Scan

end Srp.Analytics
