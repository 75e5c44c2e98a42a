/-
  Srp/Lib/Machine.lean
  ====================
  **Deterministic machines and their runs.**

  A machine reads inputs one at a time, moves to a next state and emits one
  output.  The file gives the run of a list of inputs, the rule that carries an
  invariant along a run, and the same rule for runs in which every step meets a
  condition on its own state and input (`Along`).
-/
import Mathlib.Data.List.Basic

namespace Srp.Lib

structure Machine (σ ι ο : Type) where
  next : σ → ι → σ
  out : σ → ι → ο

namespace Machine

variable {σ ι ο : Type} (M : Machine σ ι ο)

def stateAfter : σ → List ι → σ := List.foldl M.next

def outputs : σ → List ι → List ο
  | _, [] => []
  | s, x :: xs => M.out s x :: outputs (M.next s x) xs

@[simp] theorem stateAfter_nil (s : σ) : M.stateAfter s [] = s := rfl

@[simp] theorem stateAfter_cons (s : σ) (x : ι) (xs : List ι) :
    M.stateAfter s (x :: xs) = M.stateAfter (M.next s x) xs := rfl

theorem stateAfter_append (s : σ) (xs ys : List ι) :
    M.stateAfter s (xs ++ ys) = M.stateAfter (M.stateAfter s xs) ys :=
  List.foldl_append

/-- The state before input `i + 1` is one step after the state before input `i`. -/
theorem stateAfter_take_succ (s : σ) {xs : List ι} {i : Nat} {x : ι} (hx : xs[i]? = some x) :
    M.stateAfter s (xs.take (i + 1)) = M.next (M.stateAfter s (xs.take i)) x := by
  rw [List.take_succ_eq_append_getElem (List.getElem?_eq_some_iff.mp hx).1, M.stateAfter_append,
    (List.getElem?_eq_some_iff.mp hx).2]
  rfl

theorem stateAfter_take_add (s : σ) (xs : List ι) (i k : Nat) :
    M.stateAfter s (xs.take (i + k)) =
      M.stateAfter (M.stateAfter s (xs.take i)) ((xs.drop i).take k) := by
  rw [List.take_add, M.stateAfter_append]

/-- The output of cycle `i` is computed from the state that the earlier inputs reach. -/
theorem outputs_getElem? (s : σ) (xs : List ι) (i : Nat) :
    (M.outputs s xs)[i]? = xs[i]?.map (M.out (M.stateAfter s (xs.take i))) := by
  induction xs generalizing s i with
  | nil => rfl
  | cons x xs ih =>
    cases i with
    | zero => rfl
    | succ i =>
      simp only [outputs, List.getElem?_cons_succ, List.take_succ_cons, stateAfter_cons]
      exact ih (M.next s x) i

theorem outputs_take (s : σ) (xs : List ι) (k : Nat) :
    M.outputs s (xs.take k) = (M.outputs s xs).take k := by
  induction xs generalizing s k with
  | nil => simp [outputs]
  | cons x xs ih =>
    cases k with
    | zero => rfl
    | succ k =>
      simp only [List.take_succ_cons, outputs]
      rw [ih (M.next s x) k]

/-! ### Invariants of runs -/

/-- Every step of the run meets `C`, a condition on the state before it and its input. -/
def Along (C : σ → ι → Prop) : σ → List ι → Prop
  | _, [] => True
  | s, x :: xs => C s x ∧ Along C (M.next s x) xs

instance Along.decidable (C : σ → ι → Prop) [∀ s x, Decidable (C s x)] :
    ∀ s xs, Decidable (M.Along C s xs)
  | _, [] => inferInstanceAs (Decidable True)
  | s, x :: xs =>
    have := Along.decidable C (M.next s x) xs
    inferInstanceAs (Decidable (C s x ∧ M.Along C (M.next s x) xs))

variable {M}

/-- What every step meeting `C` preserves, every run along `C` preserves. -/
theorem stateAfter_invariant_along {C : σ → ι → Prop} {Inv : σ → Prop}
    (hstep : ∀ s x, Inv s → C s x → Inv (M.next s x)) {s : σ} (hs : Inv s) {xs : List ι}
    (hxs : M.Along C s xs) : Inv (M.stateAfter s xs) := by
  induction xs generalizing s with
  | nil => exact hs
  | cons x xs ih => exact ih (hstep s x hs hxs.1) hxs.2

/-- What every step preserves, every run preserves. -/
theorem stateAfter_invariant {Inv : σ → Prop} (hstep : ∀ s x, Inv s → Inv (M.next s x)) {s : σ}
    (hs : Inv s) (xs : List ι) : Inv (M.stateAfter s xs) := by
  induction xs generalizing s with
  | nil => exact hs
  | cons x xs ih => exact ih (hstep s x hs)

/-- An invariant of the state and of the outputs so far, carried along a run. -/
theorem trace_invariant_along {C : σ → ι → Prop} {Inv : σ → List ο → Prop}
    (hstep : ∀ s os x, Inv s os → C s x → Inv (M.next s x) (os ++ [M.out s x]))
    {s : σ} {os : List ο} (hs : Inv s os) {xs : List ι} (hxs : M.Along C s xs) :
    Inv (M.stateAfter s xs) (os ++ M.outputs s xs) := by
  induction xs generalizing s os with
  | nil => simpa [outputs] using hs
  | cons x xs ih =>
    have hrest := ih (hstep s os x hs hxs.1) hxs.2
    simpa [outputs] using hrest

theorem Along.and {C D : σ → ι → Prop} {s : σ} {xs : List ι} (hC : M.Along C s xs)
    (hD : M.Along D s xs) : M.Along (fun s x => C s x ∧ D s x) s xs := by
  induction xs generalizing s with
  | nil => exact True.intro
  | cons x xs ih => exact ⟨⟨hC.1, hD.1⟩, ih hC.2 hD.2⟩

/-- Along an invariant one condition gives another. -/
theorem Along.imp_of_invariant {C D : σ → ι → Prop} {Inv : σ → Prop}
    (hstep : ∀ s x, Inv s → C s x → D s x ∧ Inv (M.next s x)) {s : σ} (hs : Inv s) {xs : List ι}
    (h : M.Along C s xs) : M.Along D s xs := by
  induction xs generalizing s with
  | nil => exact True.intro
  | cons x xs ih =>
    obtain ⟨hD, hnext⟩ := hstep s x hs h.1
    exact ⟨hD, ih hnext h.2⟩

theorem along_append {C : σ → ι → Prop} {s : σ} {xs ys : List ι} :
    M.Along C s (xs ++ ys) ↔ M.Along C s xs ∧ M.Along C (M.stateAfter s xs) ys := by
  induction xs generalizing s with
  | nil => simp [Along]
  | cons x xs ih => simp [Along, ih, and_assoc]

/-- Every step of the run keeps what goes by the name `k` at its start, under a name that a step may
    change; at the end the name is `k'`. -/
def Trail {κ : Type} (M : Machine σ ι ο) (Keeps : κ → κ → σ → ι → Prop) : κ → κ → σ → List ι → Prop
  | k, k', _, [] => k = k'
  | k, k', s, x :: xs => ∃ m, Keeps k m s x ∧ Trail M Keeps m k' (M.next s x) xs

/-- The last write of what may change its name: what holds at the end of a run along `C` was there
    from the start and every step kept it, or some step set it and every later step kept it. -/
theorem last_write_trail {κ : Type} {C : σ → ι → Prop} {P : κ → σ → Prop}
    {Sets : κ → σ → ι → Prop} {Keeps : κ → κ → σ → ι → Prop} {Inv : σ → Prop}
    (hInv : ∀ s x, Inv s → Inv (M.next s x))
    (hstep : ∀ s x k', Inv s → C s x → P k' (M.next s x) →
      Sets k' s x ∨ ∃ k, P k s ∧ Keeps k k' s x) {s : σ}
    (hs : Inv s) {xs : List ι} (hxs : M.Along C s xs) {k' : κ} (h : P k' (M.stateAfter s xs)) :
    (∃ k, P k s ∧ M.Trail Keeps k k' s xs) ∨
      ∃ ys x zs k, xs = ys ++ x :: zs ∧ Sets k (M.stateAfter s ys) x ∧
        M.Trail Keeps k k' (M.stateAfter s (ys ++ [x])) zs := by
  induction xs generalizing s with
  | nil => exact Or.inl ⟨k', h, rfl⟩
  | cons x xs ih =>
    rcases ih (hInv s x hs) hxs.2 h with ⟨m, hP, htrail⟩ | ⟨ys, y, zs, k, rfl, hsets, htrail⟩
    · rcases hstep s x m hs hxs.1 hP with hsets | ⟨k, hP, hkeep⟩
      · exact Or.inr ⟨[], x, xs, m, rfl, hsets, htrail⟩
      · exact Or.inl ⟨k, hP, m, hkeep, htrail⟩
    · exact Or.inr ⟨x :: ys, y, zs, k, rfl, hsets, htrail⟩

theorem trail_unit {Keeps : σ → ι → Prop} {s : σ} {xs : List ι} :
    M.Trail (fun _ _ : Unit => Keeps) () () s xs ↔ M.Along Keeps s xs := by
  induction xs generalizing s with
  | nil => simp [Trail, Along]
  | cons x xs ih => simp [Trail, Along, ih]

/-- The last write of what keeps its name. -/
theorem last_write {C : σ → ι → Prop} {P : σ → Prop} {Sets Keeps : σ → ι → Prop}
    {Inv : σ → Prop} (hInv : ∀ s x, Inv s → Inv (M.next s x))
    (hstep : ∀ s x, Inv s → C s x → P (M.next s x) → Sets s x ∨ (P s ∧ Keeps s x)) {s : σ}
    (hs : Inv s) {xs : List ι} (hxs : M.Along C s xs) (h : P (M.stateAfter s xs)) :
    (P s ∧ M.Along Keeps s xs) ∨
      ∃ ys x zs, xs = ys ++ x :: zs ∧ Sets (M.stateAfter s ys) x ∧
        M.Along Keeps (M.stateAfter s (ys ++ [x])) zs := by
  have hnamed : ∀ s x (_ : Unit), Inv s → C s x → P (M.next s x) →
      Sets s x ∨ ∃ _ : Unit, P s ∧ Keeps s x :=
    fun s x _ hI hC hP => (hstep s x hI hC hP).imp_right fun hkept => ⟨(), hkept⟩
  have hwrite := @last_write_trail _ _ _ M Unit C (fun _ => P) (fun _ => Sets)
    (fun _ _ => Keeps) Inv hInv hnamed s hs xs hxs () h
  rcases hwrite with ⟨_, hP, htrail⟩ | ⟨ys, x, zs, _, heq, hsets, htrail⟩
  · exact Or.inl ⟨hP, trail_unit.mp htrail⟩
  · exact Or.inr ⟨ys, x, zs, heq, hsets, trail_unit.mp htrail⟩

/-- A condition on the inputs alone is met along a run iff every input meets it. -/
theorem along_iff_forall {C : ι → Prop} {s : σ} {xs : List ι} :
    M.Along (fun _ x => C x) s xs ↔ ∀ x ∈ xs, C x := by
  induction xs generalizing s with
  | nil => simp [Along]
  | cons x xs ih => simp [Along, ih]

theorem Along.take {C : σ → ι → Prop} {s : σ} {xs : List ι} (h : M.Along C s xs) (k : Nat) :
    M.Along C s (xs.take k) := by
  induction xs generalizing s k with
  | nil => simpa using h
  | cons x xs ih =>
    cases k with
    | zero => exact True.intro
    | succ k => exact ⟨h.1, ih h.2 k⟩

/-- The condition holds of each input and the state that the earlier ones reach. -/
theorem Along.getElem {C : σ → ι → Prop} {s : σ} {xs : List ι} (h : M.Along C s xs) {i : Nat}
    {x : ι} (hx : xs[i]? = some x) : C (M.stateAfter s (xs.take i)) x := by
  induction xs generalizing s i with
  | nil => cases hx
  | cons y ys ih =>
    cases i with
    | zero =>
      obtain rfl : y = x := by simpa using hx
      exact h.1
    | succ i => exact ih h.2 (by simpa using hx)

/-- If `Q` is always kept and, from states satisfying both, the steps that keep `P` are exactly
    those that meet `C`, then `P` holds at every point of a run iff the run is along `C`. -/
theorem along_iff_invariant_with {C : σ → ι → Prop} {P Q : σ → Prop}
    (hstep : ∀ s x, P s → Q s → (C s x ↔ P (M.next s x)) ∧ Q (M.next s x)) {s : σ}
    (hP : P s) (hQ : Q s) (xs : List ι) :
    M.Along C s xs ↔ ∀ k, P (M.stateAfter s (xs.take k)) := by
  induction xs generalizing s with
  | nil => simpa [Along] using hP
  | cons x xs ih =>
    obtain ⟨hiff, hnext⟩ := hstep s x hP hQ
    constructor
    · rintro ⟨hC, hrest⟩ k
      cases k with
      | zero => exact hP
      | succ k => exact (ih (hiff.mp hC) hnext).mp hrest k
    · intro h
      have hone : P (M.next s x) := by simpa using h 1
      exact ⟨hiff.mpr hone, (ih hone hnext).mpr fun k => by simpa using h (k + 1)⟩

/-- If, from states satisfying `Inv`, the steps that keep `Inv` are exactly those that
    meet `C`, then `Inv` holds at every point of a run iff the run is along `C`. -/
theorem along_iff_invariant {C : σ → ι → Prop} {Inv : σ → Prop}
    (hstep : ∀ s x, Inv s → (C s x ↔ Inv (M.next s x))) {s : σ} (hs : Inv s) (xs : List ι) :
    M.Along C s xs ↔ ∀ k, Inv (M.stateAfter s (xs.take k)) :=
  along_iff_invariant_with (Q := fun _ => True) (fun s x h _ => ⟨hstep s x h, True.intro⟩) hs
    True.intro xs

end Machine

end Srp.Lib
