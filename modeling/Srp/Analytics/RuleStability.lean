/-
  Srp/Analytics/RuleStability.lean
  ================================
  **Verdicts of rule episodes stay** (`scan_device` of
  `server/analytics/rulestats.py`).

  A refuted episode is older than its window, so that a row which is stored
  later lies behind the window; a confirming row stays in the history.  Rows at
  the end of the history move no boundary of a finished run.
-/
import Srp.Analytics.RuleStats

namespace Srp.Analytics

open Srp.Lib.IsoTime Srp.Scoring

variable {rows later rest : List ScoreRow} {ruleKey : RuleKey} {flag : Flag}
  {now now2 endTs : Instant}

/-! ### One episode -/

theorem hasRowInWindow_append (window : Nat) (predicate : ScoreRow → Bool) :
    hasRowInWindow (rows ++ later) endTs window predicate =
      (hasRowInWindow rows endTs window predicate ||
        hasRowInWindow later endTs window predicate) := by
  simp only [hasRowInWindow, List.any_append]

/-- Rows that are stored after a window has closed are not in it. -/
theorem hasRowInWindow_later {window : Nat} (hclosed : endTs.us + window ≤ now.us)
    (hlater : ∀ row ∈ later, now < row.ts) (predicate : ScoreRow → Bool) :
    hasRowInWindow later endTs window predicate = false := by
  rw [hasRowInWindow, List.any_eq_false]
  intro row hrow hin
  have hnew := Instant.lt_iff.mp (hlater row hrow)
  simp only [Bool.and_eq_true, decide_eq_true_eq] at hin
  omega

theorem confirmWindow_le_refuteWindow : confirmWindow ≤ refuteWindow := by decide

/-- The outcome of an episode is final. -/
theorem resolveEpisode_append {outcome : RuleOutcome} (hnow : now ≤ now2)
    (hlater : ∀ row ∈ later, now < row.ts)
    (h : resolveEpisode rows endTs flag now = some outcome) :
    resolveEpisode (rows ++ later) endTs flag now2 = some outcome := by
  have hle := Instant.le_iff.mp hnow
  unfold resolveEpisode at h ⊢
  rw [hasRowInWindow_append, hasRowInWindow_append]
  by_cases hconfirmed : hasRowInWindow rows endTs confirmWindow confirms = true
  · rw [if_pos hconfirmed] at h
    rw [hconfirmed, Bool.true_or, if_pos rfl]
    exact h
  · rw [if_neg hconfirmed] at h
    split at h
    · next hrefuted =>
      obtain ⟨hold, hquiet⟩ := hrefuted
      have hconfirmOld : endTs.us + confirmWindow ≤ now.us :=
        (Nat.add_le_add_left confirmWindow_le_refuteWindow endTs.us).trans hold
      rw [hasRowInWindow_later hconfirmOld hlater, hasRowInWindow_later hold hlater,
        Bool.or_false, Bool.or_false, if_neg hconfirmed, if_pos ⟨hold.trans hle, hquiet⟩]
      exact h
    · cases h

/-! ### The scan -/

theorem scanLoop_append {runEnd : Option Instant} {e : RuleKey × RuleOutcome × String}
    (hnow : now ≤ now2) (hlater : ∀ row ∈ later, now < row.ts)
    (h : e ∈ scanLoop rows ruleKey flag now runEnd rest) :
    e ∈ scanLoop (rows ++ later) ruleKey flag now2 runEnd (rest ++ later) := by
  induction rest generalizing runEnd with
  | nil => cases h
  | cons row rest ih =>
    rw [List.cons_append]
    simp only [scanLoop] at h ⊢
    by_cases hflag : flag ∈ row.flags
    · rw [if_pos hflag] at h ⊢
      exact ih h
    · rw [if_neg hflag] at h ⊢
      cases runEnd with
      | none => exact ih h
      | some endTs =>
        dsimp only at h ⊢
        cases hout : resolveEpisode rows endTs flag now with
        | none =>
          rw [hout] at h
          -- the longer history may resolve this run as well
          cases resolveEpisode (rows ++ later) endTs flag now2 with
          | none => exact ih h
          | some outcome => exact List.mem_cons_of_mem _ (ih h)
        | some outcome =>
          rw [hout] at h
          rw [resolveEpisode_append hnow hlater hout]
          rcases List.mem_cons.mp h with rfl | h
          · exact List.mem_cons_self
          · exact List.mem_cons_of_mem _ (ih h)

/-- The outcome depends on the rows and the end of the episode only. -/
theorem resolveEpisode_of_mem_scanLoop {runEnd : Option Instant}
    {e : RuleKey × RuleOutcome × String} (h : e ∈ scanLoop rows ruleKey flag now runEnd rest) :
    ∃ endTs, e.2.2 = isoformat endTs ∧ resolveEpisode rows endTs flag now = some e.2.1 := by
  induction rest generalizing runEnd with
  | nil => cases h
  | cons row rest ih =>
    simp only [scanLoop] at h
    by_cases hflag : flag ∈ row.flags
    · rw [if_pos hflag] at h
      exact ih h
    · rw [if_neg hflag] at h
      cases runEnd with
      | none => exact ih h
      | some endTs =>
        dsimp only at h
        cases hout : resolveEpisode rows endTs flag now with
        | none =>
          rw [hout] at h
          exact ih h
        | some outcome =>
          rw [hout] at h
          rcases List.mem_cons.mp h with rfl | h
          · exact ⟨endTs, rfl, hout⟩
          · exact ih h

theorem mem_scanDevice_iff {e : RuleKey × RuleOutcome × String} :
    e ∈ scanDevice rows now ↔ ∃ ruleKey, e ∈ scanRule rows ruleKey (flagForRule ruleKey) now := by
  have hall : ∀ ruleKey, ruleKey ∈ RuleKey.all := by
    intro ruleKey
    cases ruleKey <;> decide
  simp only [scanDevice, List.mem_flatMap, hall, true_and]

theorem resolveEpisode_of_mem_scanDevice {outcome : RuleOutcome} {text : String}
    (h : (ruleKey, outcome, text) ∈ scanDevice rows now) : ∃ endTs, text = isoformat endTs ∧
      resolveEpisode rows endTs (flagForRule ruleKey) now = some outcome := by
  obtain ⟨key, hkey⟩ := mem_scanDevice_iff.mp h
  obtain ⟨rfl, _⟩ := mem_scanLoop hkey
  exact resolveEpisode_of_mem_scanLoop hkey

/-- **A verdict is not taken back.**  What a scan has emitted, a later scan of the longer history
    emits too, and it emits no other outcome for that episode. -/
theorem verdicts_stable (history later : List ScoreRow) (now now2 : Instant) (hnow : now ≤ now2)
    (hlater : ∀ row ∈ later, now < row.ts) (ruleKey : RuleKey) (outcome : RuleOutcome)
    (endTs : String) (h : (ruleKey, outcome, endTs) ∈ scanDevice history now) :
    (ruleKey, outcome, endTs) ∈ scanDevice (history ++ later) now2 ∧
      ∀ other, (ruleKey, other, endTs) ∈ scanDevice (history ++ later) now2 →
        other = outcome := by
  have hemitted : (ruleKey, outcome, endTs) ∈ scanDevice (history ++ later) now2 := by
    obtain ⟨key, hkey⟩ := mem_scanDevice_iff.mp h
    exact mem_scanDevice_iff.mpr ⟨key, scanLoop_append hnow hlater hkey⟩
  refine ⟨hemitted, ?_⟩
  intro other hother
  obtain ⟨instant, rfl, hout⟩ := resolveEpisode_of_mem_scanDevice hemitted
  obtain ⟨instant', htext, hout'⟩ := resolveEpisode_of_mem_scanDevice hother
  obtain rfl := isoformat_injective htext
  rw [hout'] at hout
  exact Option.some.inj hout

/-- An episode is refuted; the defect that shows later does not confirm it. -/
theorem refuted_before_defect :
    (RuleKey.pendingHigh, RuleOutcome.refuted, isoformat ⟨days 100, by decide⟩) ∈
      scanDevice ([{ ts := ⟨days 100, by decide⟩, flags := [.pendingGt10] },
        { ts := ⟨days 101, by decide⟩ }] ++ [{ ts := ⟨days 166, by decide⟩, stage := 2 }])
        ⟨days 167, by decide⟩ ∧
      ∀ other, (RuleKey.pendingHigh, other, isoformat ⟨days 100, by decide⟩) ∈
        scanDevice ([{ ts := ⟨days 100, by decide⟩, flags := [.pendingGt10] },
          { ts := ⟨days 101, by decide⟩ }] ++ [{ ts := ⟨days 166, by decide⟩, stage := 2 }])
          ⟨days 167, by decide⟩ → other = .refuted := by
  apply verdicts_stable _ _ ⟨days 165, by decide⟩
  · decide
  · decide
  · decide +kernel

end Srp.Analytics
