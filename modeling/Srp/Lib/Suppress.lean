/-
  Srp/Lib/Suppress.lean
  =====================
  **Saying a thing once.**

  A log that would repeat itself shows a message when it differs from the one it
  showed last, and again when that was long enough ago.  Two theorems say that
  this is neither too little nor too much: what is not shown was shown shortly
  before and nothing else happened since (`covered`), and what is shown again
  within one stretch of the same message comes after the interval (`spaced`).
-/
import Mathlib.Algebra.Order.Group.Defs
import Mathlib.Algebra.Order.Sub.Basic
import Srp.Lib.Machine

namespace Srp.Lib.Suppress

variable {α τ : Type}

/-- The message that was shown last, and when. -/
structure Mark (α τ : Type) where
  key : α
  time : τ
deriving DecidableEq

inductive Event (α τ : Type) where
  /-- a message comes up -/
  | offer (now : τ) (key : α)
  /-- something that the log takes no notice of -/
  | pass
  /-- the log forgets what it showed -/
  | reset

section Defs

variable [DecidableEq α] [Sub τ] [LE τ] [DecidableLE τ] (every : τ)

/-- Whether a message is shown. -/
def shows (last : Option (Mark α τ)) (now : τ) (key : α) : Bool :=
  match last with
  | none => true
  | some m => m.key ≠ key ∨ every ≤ now - m.time

/-- The log, with what it remembers; it puts out whether a message is shown. -/
def log : Machine (Option (Mark α τ)) (Event α τ) Bool where
  next last e :=
    match e with
    | .offer now key => if shows every last now key then some ⟨key, now⟩ else last
    | .pass => last
    | .reset => none
  out last e :=
    match e with
    | .offer now key => shows every last now key
    | _ => false

end Defs

/-! ### Stretches of one message -/

/-- The event changes nothing for a log that showed `key`. -/
def Event.Repeats (key : α) : Event α τ → Prop
  | .offer _ k => k = key
  | .pass => True
  | .reset => False

variable [DecidableEq α] [AddCommGroup τ] [LinearOrder τ] {every : τ}

theorem eq_some_of_shows_eq_false {last : Option (Mark α τ)} {now : τ} {key : α}
    (h : shows every last now key = false) :
    ∃ t, last = some ⟨key, t⟩ ∧ now - t < every := by
  cases last with
  | none => cases h
  | some m =>
    simp only [shows, decide_eq_false_iff_not, not_or, not_not, not_le] at h
    obtain ⟨rfl, hnow⟩ := h
    exact ⟨m.time, rfl, hnow⟩

/-- The mark of a log was set by a message that was shown, and only repeats came since. -/
theorem mark_origin {es : List (Event α τ)} {m : Mark α τ}
    (h : (log every).stateAfter none es = some m) :
    ∃ ys zs, es = ys ++ .offer m.time m.key :: zs ∧
      shows every ((log every).stateAfter none ys) m.time m.key = true ∧
      ∀ e ∈ zs, e.Repeats m.key := by
  have hstep : ∀ (s : Option (Mark α τ)) (e : Event α τ), True → True →
      (log every).next s e = some m →
        (e = .offer m.time m.key ∧ shows every s m.time m.key = true) ∨
        (s = some m ∧ e.Repeats m.key) := by
    intro s e _ _ hnext
    cases e with
    | offer now key =>
      simp only [log] at hnext
      by_cases hshow : shows every s now key = true
      · rw [if_pos hshow] at hnext
        cases hnext
        exact .inl ⟨rfl, hshow⟩
      · rw [if_neg hshow] at hnext
        obtain ⟨t, hs, _⟩ := eq_some_of_shows_eq_false (Bool.not_eq_true _ ▸ hshow)
        rw [hs] at hnext
        cases hnext
        exact .inr ⟨hs, rfl⟩
    | pass => exact .inr ⟨hnext, trivial⟩
    | reset => cases hnext
  have halong : (log every).Along (fun _ _ => True) none es :=
    Machine.along_iff_forall.mpr fun _ _ => trivial
  have hkept : ∀ (s : Option (Mark α τ)) (e : Event α τ), True → True := fun _ _ _ => trivial
  rcases Machine.last_write (P := fun s => s = some m) hkept hstep trivial halong h with
    ⟨hnone, _⟩ | ⟨ys, e, zs, rfl, ⟨rfl, hshow⟩, hkeeps⟩
  · cases hnone
  · exact ⟨ys, zs, rfl, hshow, Machine.along_iff_forall.mp hkeeps⟩

/-- **Nothing is kept back for long**: a message that is not shown was shown less than `every`
    before, and only repeats of it came since. -/
theorem covered {es : List (Event α τ)} {now : τ} {key : α}
    (h : shows every ((log every).stateAfter none es) now key = false) :
    ∃ ys t zs, es = ys ++ .offer t key :: zs ∧
      shows every ((log every).stateAfter none ys) t key = true ∧ now - t < every ∧
      ∀ e ∈ zs, e.Repeats key := by
  obtain ⟨t, hstate, hnow⟩ := eq_some_of_shows_eq_false h
  obtain ⟨ys, zs, hes, hshow, hrepeats⟩ := mark_origin hstate
  exact ⟨ys, t, zs, hes, hshow, hnow, hrepeats⟩

/-- The event does not come before `t`. -/
def Event.NotBefore (t : τ) : Event α τ → Prop
  | .offer now _ => t ≤ now
  | _ => True

theorem mark_of_repeats {s : Option (Mark α τ)} {t : τ} {key : α} {es : List (Event α τ)}
    (hs : ∃ t', s = some ⟨key, t'⟩ ∧ t ≤ t')
    (hes : ∀ e ∈ es, e.Repeats key ∧ e.NotBefore t) :
    ∃ t', (log every).stateAfter s es = some ⟨key, t'⟩ ∧ t ≤ t' := by
  have hstep : ∀ s e, (∃ t', s = some ⟨key, t'⟩ ∧ t ≤ t') → (e.Repeats key ∧ e.NotBefore t) →
      ∃ t', (log every).next s e = some ⟨key, t'⟩ ∧ t ≤ t' := by
    rintro s e ⟨t', rfl, ht⟩ ⟨hrepeats, hafter⟩
    cases e with
    | offer now k =>
      obtain rfl : k = key := hrepeats
      simp only [log]
      by_cases hshow : shows every (some ⟨k, t'⟩) now k = true
      · rw [if_pos hshow]
        exact ⟨now, rfl, hafter⟩
      · rw [if_neg hshow]
        exact ⟨t', rfl, ht⟩
    | pass => exact ⟨t', rfl, ht⟩
    | reset => cases hrepeats
  exact Machine.stateAfter_invariant_along (C := fun _ (e : Event α τ) => e.Repeats key ∧ e.NotBefore t) hstep hs
    (Machine.along_iff_forall.mpr hes)

/-- **Nothing is repeated too soon**: within a stretch of repeats a message is shown again only
    `every` after it was. -/
theorem spaced [IsOrderedAddMonoid τ] {ys zs : List (Event α τ)} {t now : τ} {key : α}
    (hshown : shows every ((log every).stateAfter none ys) t key = true)
    (hzs : ∀ e ∈ zs, e.Repeats key ∧ e.NotBefore t)
    (h : shows every ((log every).stateAfter none (ys ++ .offer t key :: zs)) now key = true) :
    every ≤ now - t := by
  have hset : (log every).next ((log every).stateAfter none ys) (.offer t key) =
      some ⟨key, t⟩ := if_pos hshown
  obtain ⟨t', hstate, hle⟩ := mark_of_repeats ⟨t, hset, le_rfl⟩ hzs
  rw [Machine.stateAfter_append, Machine.stateAfter_cons, hstate] at h
  simp only [shows, ne_eq, not_true, false_or, decide_eq_true_eq] at h
  exact h.trans (sub_le_sub_left hle now)

end Srp.Lib.Suppress
