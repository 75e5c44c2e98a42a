/-
  Srp/Lib/Window.lean
  ===================
  **Keeping the newest rows of a list.**

  A log is a list with its newest entry last.  `newest cap` is
  `ORDER BY id DESC LIMIT cap` with the rows in `id` order again (a negative limit
  is no limit), and `prune p cap` deletes the entries satisfying `p` that are not
  among the newest `cap` of those.  Cutting after every append leaves what one cut
  at the end would leave.
-/
import Mathlib.Data.List.Basic
import Mathlib.Data.List.Count
import Mathlib.Data.List.Infix

namespace Srp.Lib.Window

variable {α : Type}

def newest (cap : Int) (xs : List α) : List α :=
  if cap < 0 then xs else xs.drop (xs.length - cap.toNat)

theorem newest_suffix (cap : Int) (xs : List α) : newest cap xs <:+ xs := by
  unfold newest
  split
  · exact List.suffix_refl xs
  · exact List.drop_suffix _ xs

@[simp] theorem newest_nil (cap : Int) : newest cap ([] : List α) = [] := by simp [newest]

/-- Older entries come back only when the newer ones leave room. -/
theorem newest_append (cap : Int) (old xs : List α) :
    ∃ kept, kept <:+ old ∧ newest cap (old ++ xs) = kept ++ newest cap xs := by
  unfold newest
  split
  · exact ⟨old, List.suffix_refl old, rfl⟩
  · refine ⟨old.drop ((old ++ xs).length - cap.toNat), List.drop_suffix _ old, ?_⟩
    rw [List.drop_append]
    congr 2
    rw [List.length_append]
    omega

theorem newest_append_newest (cap : Int) (xs ys : List α) :
    newest cap (newest cap xs ++ ys) = newest cap (xs ++ ys) := by
  unfold newest
  by_cases hcap : cap < 0
  · simp only [if_pos hcap]
  · simp only [if_neg hcap]
    rw [List.drop_append, List.drop_append, List.drop_drop, List.length_append,
      List.length_append, List.length_drop]
    congr 2 <;> omega

theorem newest_eq_cons (cap : Int) (x : α) (xs : List α) : newest cap (x :: xs) =
    if 0 ≤ cap ∧ cap ≤ xs.length then newest cap xs else x :: newest cap xs := by
  unfold newest
  by_cases hcap : cap < 0
  · rw [if_pos hcap, if_neg (by omega), if_pos hcap]
  · rw [if_neg hcap, if_neg hcap]
    by_cases hlen : cap ≤ xs.length
    · rw [if_pos ⟨by omega, hlen⟩, List.length_cons]
      have : xs.length + 1 - cap.toNat = xs.length - cap.toNat + 1 := by omega
      rw [this, List.drop_succ_cons]
    · rw [if_neg fun h => hlen h.2, List.length_cons]
      have h0 : xs.length + 1 - cap.toNat = 0 := by omega
      have h1 : xs.length - cap.toNat = 0 := by omega
      rw [h0, h1, List.drop_zero, List.drop_zero]

/-- A window that is not empty ends where the list does. -/
theorem getLast?_newest {cap : Int} (hcap : cap ≠ 0) (xs : List α) :
    (newest cap xs).getLast? = xs.getLast? := by
  unfold newest
  split
  · rfl
  · rcases List.eq_nil_or_concat xs with rfl | ⟨init, x, rfl⟩
    · simp
    · rw [List.getLast?_drop, if_neg]
      rw [List.length_concat]
      omega

/-- `DELETE ... WHERE p AND id NOT IN (... ORDER BY id DESC LIMIT cap)`. -/
def prune (p : α → Bool) (cap : Int) : List α → List α
  | [] => []
  | x :: xs =>
    if p x ∧ 0 ≤ cap ∧ cap ≤ xs.countP p then prune p cap xs else x :: prune p cap xs

theorem prune_sublist (p : α → Bool) (cap : Int) (xs : List α) : (prune p cap xs).Sublist xs := by
  induction xs with
  | nil => exact List.Sublist.refl _
  | cons x xs ih =>
    unfold prune
    split
    · exact ih.cons x
    · exact ih.cons_cons x

theorem filter_prune (p : α → Bool) (cap : Int) (xs : List α) :
    (prune p cap xs).filter p = newest cap (xs.filter p) := by
  induction xs with
  | nil => simp [prune, newest]
  | cons x xs ih =>
    unfold prune
    by_cases hp : p x = true
    · rw [List.filter_cons_of_pos hp, newest_eq_cons, ← List.countP_eq_length_filter]
      by_cases hcut : 0 ≤ cap ∧ cap ≤ xs.countP p
      · rw [if_pos ⟨hp, hcut⟩, if_pos hcut, ih]
      · rw [if_neg fun h => hcut h.2, if_neg hcut, List.filter_cons_of_pos hp, ih]
    · rw [if_neg fun h => hp h.1, List.filter_cons_of_neg hp, List.filter_cons_of_neg hp, ih]

/-- What is pruned is not seen where no entry satisfies `p`. -/
theorem filter_prune_of_disjoint {p q : α → Bool} (hpq : ∀ x, q x = true → p x = false)
    (cap : Int) (xs : List α) : (prune p cap xs).filter q = xs.filter q := by
  induction xs with
  | nil => rfl
  | cons x xs ih =>
    unfold prune
    split
    · rename_i hcut
      have hq : q x = false := by
        by_contra hq
        rw [hpq x (by simpa using hq)] at hcut
        cases hcut.1
      rw [ih, List.filter_cons_of_neg (by simp [hq])]
    · rw [List.filter_cons, List.filter_cons, ih]

theorem newest_newest (cap : Int) (xs : List α) : newest cap (newest cap xs) = newest cap xs := by
  simpa using newest_append_newest cap xs []

theorem length_newest_le {cap : Int} (hcap : 0 ≤ cap) (xs : List α) :
    ((newest cap xs).length : Int) ≤ cap := by
  unfold newest
  rw [if_neg (by omega), List.length_drop]
  omega

/-! ### Counting in a window -/

section Count

variable (p : α → Bool) (cap : Int)

theorem countP_newest_le (xs : List α) : (newest cap xs).countP p ≤ xs.countP p :=
  (newest_suffix cap xs).sublist.countP_le

/-- A window that slides over `ys` shows of `xs` no more than before. -/
theorem countP_newest_append_le (xs ys : List α) :
    (newest cap (xs ++ ys)).countP p ≤ (newest cap xs).countP p + ys.countP p := by
  rw [← newest_append_newest, ← List.countP_append]
  exact countP_newest_le p cap _

/-- If nothing of `xs ++ ys` has been cut, then nothing of `xs` had. -/
theorem countP_newest_eq_of_append {xs ys : List α}
    (h : (newest cap (xs ++ ys)).countP p = (xs ++ ys).countP p) :
    (newest cap xs).countP p = xs.countP p := by
  have hslide := countP_newest_append_le p cap xs ys
  have hle := countP_newest_le p cap xs
  rw [h, List.countP_append] at hslide
  omega

end Count

end Srp.Lib.Window
