/-
  Srp/Lib/Loop.lean
  =================
  **Loops that are left with a result.**

  A turn of a loop yields the next state or leaves the loop.  `Ends` counts the
  turns up to there; a loop whose turns lower a measure is left from every state
  within that many turns (`ends_of_measure`), and with one result only.
-/
import Mathlib.Logic.Basic

namespace Srp.Lib.Loop

variable {σ ρ : Type} {turn : σ → σ ⊕ ρ}

inductive Ends (turn : σ → σ ⊕ ρ) : σ → Nat → ρ → Prop where
  | leave {s : σ} {r : ρ} (h : turn s = .inr r) : Ends turn s 1 r
  | next {s s' : σ} {n : Nat} {r : ρ} (h : turn s = .inl s') (rest : Ends turn s' n r) :
      Ends turn s (n + 1) r

theorem Ends.unique {s : σ} {n m : Nat} {r r' : ρ} (h : Ends turn s n r)
    (h' : Ends turn s m r') : n = m ∧ r = r' := by
  induction h generalizing m with
  | leave h =>
    cases h' with
    | leave hr => exact ⟨rfl, Sum.inr.inj (h.symm.trans hr)⟩
    | next hs => cases h.symm.trans hs
  | next h rest ih =>
    cases h' with
    | leave hr => cases h.symm.trans hr
    | next hs rest' =>
      obtain rfl := Sum.inl.inj (h.symm.trans hs)
      obtain ⟨rfl, rfl⟩ := ih rest'
      exact ⟨rfl, rfl⟩

theorem ends_of_measure (μ : σ → Nat) (h : ∀ s s', turn s = .inl s' → μ s' < μ s) (s : σ) :
    ∃ n r, n ≤ μ s + 1 ∧ Ends turn s n r := by
  induction hμ : μ s using Nat.strongRecOn generalizing s with
  | ind k ih =>
    cases hs : turn s with
    | inr r => exact ⟨1, r, by omega, .leave hs⟩
    | inl s' =>
      have hlt := h s s' hs
      obtain ⟨n, r, hn, hends⟩ := ih (μ s') (hμ ▸ hlt) s' rfl
      exact ⟨n + 1, r, by omega, .next hs hends⟩

end Srp.Lib.Loop
