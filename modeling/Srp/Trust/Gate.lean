/-
  Srp/Trust/Gate.lean
  ===================
  **The gate of a source** (`server/trust/states.py`, `server/trust/gate.py`).

  A collector status and a semantic status give the state of a source; an age
  above the threshold makes a source stale that would otherwise pass.
-/
import Mathlib.Data.Rat.Defs
import Mathlib.Algebra.Order.Ring.Rat
import Srp.Trust.Domains

namespace Srp.Trust

inductive CollectorStatus where
  | ok
  | partial_
  | empty
  | timeout
  | blocked
  | absent
deriving DecidableEq, Repr

inductive SemanticStatus where
  | plausible_
  | implausible_
  | inconsistent
  | frozen
  | knownBad
  | unchecked
deriving DecidableEq, Repr

/-- `_COLLECTOR_FAIL`. -/
def collectorFail : List CollectorStatus := [.empty, .timeout, .blocked, .absent]

/-- `_SEMANTIC_SUSPECT`. -/
def semanticSuspect : List SemanticStatus := [.implausible_, .inconsistent, .frozen, .knownBad]

/-- `age_sec is not None and age_sec > stale_after_sec`, with a threshold. -/
def aged (ageSec staleAfterSec : Option ℚ) : Bool :=
  match ageSec, staleAfterSec with
  | some age, some after => decide (after < age)
  | _, _ => false

/-- `derive_state`, of an applicable source. -/
def deriveState (collector : CollectorStatus) (semantic : SemanticStatus)
    (ageSec staleAfterSec : Option ℚ) : SourceState :=
  if semantic ∈ semanticSuspect then .suspect
  else if collector ∈ collectorFail then .unavailable
  else if aged ageSec staleAfterSec then .stale
  else if collector = .partial_ then .degraded
  else .ok

/-- `compute_weight`. -/
def computeWeight : SourceState → ℚ
  | .ok => 1
  | .degraded => 1 / 2
  | _ => 0

/-- The state of a source that is not aged. -/
def baseState (collector : CollectorStatus) (semantic : SemanticStatus) : SourceState :=
  deriveState collector semantic none none

theorem deriveState_eq (collector : CollectorStatus) (semantic : SemanticStatus)
    (ageSec staleAfterSec : Option ℚ) :
    deriveState collector semantic ageSec staleAfterSec =
      if baseState collector semantic ∈ gatePass ∧ aged ageSec staleAfterSec then .stale
      else baseState collector semantic := by
  unfold baseState deriveState
  by_cases hsuspect : semantic ∈ semanticSuspect
  · simp [hsuspect, gatePass]
  · by_cases hfail : collector ∈ collectorFail
    · simp [hsuspect, hfail, gatePass]
    · have hnone : aged none none = false := rfl
      simp only [hsuspect, hfail, hnone, Bool.false_eq_true, if_false]
      by_cases hpartial : collector = .partial_
      · simp only [if_pos hpartial, gatePass, List.mem_cons, true_or, or_true, true_and]
      · simp only [if_neg hpartial, gatePass, List.mem_cons, true_or, true_and]

/-- A source that is not aged passes, or has failed for a reason of its own. -/
theorem baseState_cases (collector : CollectorStatus) (semantic : SemanticStatus) :
    baseState collector semantic ∈ gatePass ∨ baseState collector semantic = .suspect ∨
      baseState collector semantic = .unavailable := by
  unfold baseState deriveState
  split
  · exact Or.inr (Or.inl rfl)
  · split
    · exact Or.inr (Or.inr rfl)
    · left
      simp only [aged, Bool.false_eq_true, if_false]
      split <;> simp [gatePass]

theorem baseState_ne_stale (collector : CollectorStatus) (semantic : SemanticStatus) :
    baseState collector semantic ≠ .stale := by
  intro h
  rcases baseState_cases collector semantic with hbase | hbase | hbase
  · rw [h] at hbase
    simp [gatePass] at hbase
  · rw [h] at hbase
    cases hbase
  · rw [h] at hbase
    cases hbase

end Srp.Trust
