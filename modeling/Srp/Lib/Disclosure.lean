/-
  Srp/Lib/Disclosure.lean
  =======================
  **What a computation tells about a hidden part of its input.**

  `run c s` is a computation that may raise, on a context `c` and a hidden value
  `s`.  Two hidden values are told apart when some context shows a difference
  between two completed runs.  `Discloses run completes view` says that `view` is
  exactly what the runs tell: equal views are never told apart, and different
  views are, by some context.
-/
import Mathlib.Tactic.ByContra

namespace Srp.Lib.Disclosure

variable {ε α β κ σ ν ο : Type}

/-! ### Runs that agree -/

/-- The runs show the same, if both complete. -/
def Agree (x y : Except ε α) : Prop := ∀ a b, x = .ok a → y = .ok b → a = b

theorem Agree.refl (x : Except ε α) : Agree x x := by
  intro a b ha hb
  exact Except.ok.inj (ha.symm.trans hb)

theorem Agree.of_eq {x y : Except ε α} (h : x = y) : Agree x y := h ▸ Agree.refl x

/-- Agreement goes through a sequence: equal results, continued alike. -/
theorem Agree.bind {x y : Except ε α} {f g : α → Except ε β} (hxy : Agree x y)
    (hfg : ∀ a, x = .ok a → y = .ok a → Agree (f a) (g a)) : Agree (x >>= f) (y >>= g) := by
  intro b b' hb hb'
  cases x with
  | error e => cases hb
  | ok a =>
    cases y with
    | error e => cases hb'
    | ok a' =>
      obtain rfl := hxy a a' rfl rfl
      exact hfg a rfl rfl b b' hb hb'

/-- Completed runs whose results look alike agree on what is seen. -/
theorem Agree.map {x y : Except ε α} {f : α → β}
    (h : ∀ a b, x = .ok a → y = .ok b → f a = f b) : Agree (x.map f) (y.map f) := by
  intro b b' hb hb'
  cases x with
  | error e => cases hb
  | ok a =>
    cases y with
    | error e => cases hb'
    | ok a' =>
      obtain rfl := Except.ok.inj hb
      obtain rfl := Except.ok.inj hb'
      exact h a a' rfl rfl

/-! ### Hidden values -/

/-- No context tells the two hidden values apart. -/
def Hides (run : κ → σ → Except ε ο) (s t : σ) : Prop := ∀ c, Agree (run c s) (run c t)

/-- Some context completes with both values and shows a difference. -/
def Tells (run : κ → σ → Except ε ο) (s t : σ) : Prop :=
  ∃ c a b, run c s = .ok a ∧ run c t = .ok b ∧ a ≠ b

theorem Tells.symm {run : κ → σ → Except ε ο} {s t : σ} (h : Tells run s t) : Tells run t s := by
  obtain ⟨c, a, b, ha, hb, hne⟩ := h
  exact ⟨c, b, a, hb, ha, hne.symm⟩

theorem Tells.not_hides {run : κ → σ → Except ε ο} {s t : σ} (h : Tells run s t) :
    ¬ Hides run s t := by
  obtain ⟨c, a, b, ha, hb, hne⟩ := h
  intro hides
  exact hne (hides c a b ha hb)

/-- `view` is exactly what completed runs tell about the hidden value. -/
structure Discloses (run : κ → σ → Except ε ο) (completes : σ → Prop) (view : σ → ν) : Prop where
  /-- a value that does not complete raises in every context -/
  stuck : ∀ c s a, run c s = .ok a → completes s
  hidden : ∀ s t, view s = view t → Hides run s t
  told : ∀ s t, completes s → completes t → view s ≠ view t → Tells run s t

/-- Two values are hidden exactly when their views are equal, or when there is nothing to
    compare. -/
theorem Discloses.hides_iff {run : κ → σ → Except ε ο} {completes : σ → Prop} {view : σ → ν}
    (h : Discloses run completes view) (s t : σ) :
    Hides run s t ↔ (completes s ∧ completes t → view s = view t) := by
  constructor
  · rintro hides ⟨hs, ht⟩
    by_contra hne
    exact (h.told s t hs ht hne).not_hides hides
  · intro hview c a b ha hb
    exact h.hidden s t (hview ⟨h.stuck c s a ha, h.stuck c t b hb⟩) c a b ha hb

end Srp.Lib.Disclosure
