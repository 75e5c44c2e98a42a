/-
  Srp/Printers/WalkBounds.lean
  ============================
  **A walk over a hostile agent.**

  The agent may answer each attempt of each exchange with any octets.  The walk
  still ends, because an exchange that is followed by another one adds a row, but
  for the one at which GETBULK is given up; and what it collects is bounded and
  lies under the base.
-/
import Srp.Printers.WalkRows

namespace Srp.Printers

open Srp.Lib Srp.Lib.Lines Srp.Lib.Octets Srp.Lib.PyInt

variable {C : PyChars} {agent : Agent} {ids : Nat → RequestId} {base current : Text}
  {maxRows attempts fuel round : Nat} {bulk : Bool} {result : Bindings}

/-- The rows that a walk may have collected. -/
structure Collected (base : Text) (maxRows : Nat) (result : Bindings) : Prop where
  length_le : result.length ≤ maxRows
  nodup : (result.map Prod.fst).Nodup
  under : ∀ item ∈ result, item.1 = base ∨ base ++ ['.'] <+: item.1

theorem collected_nil (base : Text) (maxRows : Nat) : Collected base maxRows [] :=
  ⟨Nat.zero_le _, List.nodup_nil, fun _ hitem => absurd hitem List.not_mem_nil⟩

theorem collected_scanItem {s : Scan} (h : Collected base maxRows s.result)
    (item : Text × SnmpValue) : Collected base maxRows (scanItem C base maxRows s item).result := by
  unfold scanItem
  split
  · exact h
  · rename_i hroom
    split
    · rename_i hunder
      split
      · exact h
      · rename_i hfresh
        rw [setItem_fresh hfresh]
        refine ⟨?_, ?_, ?_⟩
        · rw [List.length_append, List.length_singleton]
          omega
        · rw [List.map_append, List.nodup_append]
          refine ⟨h.nodup, List.nodup_singleton _, ?_⟩
          rintro a ha b hb rfl
          rw [List.map_singleton, List.mem_singleton] at hb
          exact hfresh (hb ▸ ha)
        · intro item' hitem'
          rcases List.mem_append.mp hitem' with hold | hnew
          · exact h.under item' hold
          · rw [List.mem_singleton.mp hnew]
            rwa [List.isPrefixOf_iff_prefix] at hunder
    · exact h

theorem collected_scan (h : Collected base maxRows result) (parsed : Bindings) :
    Collected base maxRows (scan C base maxRows result parsed).result := by
  unfold scan
  generalize hs : (⟨result, none, false⟩ : Scan) = s
  have hstart : Collected base maxRows s.result := by
    rw [← hs]
    exact h
  clear hs
  induction parsed generalizing s with
  | nil => exact hstart
  | cons item parsed ih => exact ih _ (collected_scanItem hstart item)

theorem collected_walkLoop {final : Bindings} (h : Collected base maxRows result)
    (hfinal : walkLoop C agent ids base maxRows attempts fuel round bulk current result =
      some final) : Collected base maxRows final := by
  induction fuel generalizing round bulk current result with
  | zero => cases hfinal
  | succ fuel ih =>
    rcases Nat.lt_or_ge result.length maxRows with hroom | hfull
    · by_cases hask : Askable C current
      · by_cases hparsed :
            transact (agent round) (walkPdu current (ids round) bulk (maxRows - result.length))
              attempts = []
        · rw [walkLoop_silent hroom hask hparsed] at hfinal
          cases bulk with
          | true => exact ih h hfinal
          | false =>
            cases hfinal
            exact h
        · rw [walkLoop_answered hroom hask rfl hparsed rfl] at hfinal
          split at hfinal
          · cases hfinal
            exact collected_scan h _
          · split at hfinal
            · cases hfinal
              exact collected_scan h _
            · exact ih (collected_scan h _) hfinal
      · rw [walkLoop_raises hroom hask] at hfinal
        cases hfinal
    · rw [walkLoop_full hfull] at hfinal
      cases hfinal
      exact h

/-- With `fuel` units the walk sees `fuel` exchanges. -/
theorem walkLoop_congr {agent' : Agent} (h : ∀ i, i < round + fuel → agent' i = agent i) :
    walkLoop C agent' ids base maxRows attempts fuel round bulk current result =
      walkLoop C agent ids base maxRows attempts fuel round bulk current result := by
  induction fuel generalizing round bulk current result with
  | zero => rfl
  | succ fuel ih =>
    have hnow : agent' round = agent round := h round (by omega)
    have hlater : ∀ i, i < round + 1 + fuel → agent' i = agent i := fun i hi => h i (by omega)
    simp only [walkLoop, hnow, ih hlater]

/-- **A walk is bounded, whatever the other side sends.**  From a base that can be asked it ends
    without raising, after `maxRows + 2` exchanges at the latest (what would be answered later does
    not matter), with at most `maxRows` rows, each once, and each the base or under it. -/
theorem walk_bounded (hC : C.ReadsDigits) (agent : Agent) (ids : Nat → RequestId) (base : Text)
    (hbase : Askable C base) (version : Int) (retries maxRows : Nat) :
    ∃ result, snmpWalk C agent ids base version retries maxRows = some result ∧
      (∀ agent' : Agent, (∀ i, i < maxRows + 2 → agent' i = agent i) →
        snmpWalk C agent' ids base version retries maxRows = some result) ∧
      result.length ≤ maxRows ∧ (result.map Prod.fst).Nodup ∧
      ∀ item ∈ result, item.1 = base ∨ base ++ ['.'] <+: item.1 := by
  have hsome : (snmpWalk C agent ids base version retries maxRows).isSome := by
    apply isSome_walkLoop hC hbase
    rw [List.length_nil]
    split <;> omega
  obtain ⟨result, hresult⟩ := Option.isSome_iff_exists.mp hsome
  have hcollected := collected_walkLoop (collected_nil base maxRows) hresult
  refine ⟨result, hresult, ?_, hcollected.length_le, hcollected.nodup, hcollected.under⟩
  intro agent' hsame
  rw [← hresult]
  apply walkLoop_congr
  rwa [Nat.zero_add]

/-- An agent that always answers with the same octets. -/
theorem walk_bounded_deaf : ∃ result,
    snmpWalk .ascii (fun _ _ _ => some [0x30, 0x00]) firstRequestIds "1.3.6.1".toList 1 1
      512 = some result ∧ result.length ≤ 512 := by
  obtain ⟨result, hresult, _, hlength, _⟩ := walk_bounded readsDigits_ascii
    (fun _ _ _ => some [0x30, 0x00]) firstRequestIds "1.3.6.1".toList (by decide +kernel) 1
    1 512
  exact ⟨result, hresult, hlength⟩

end Srp.Printers
