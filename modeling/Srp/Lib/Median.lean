/-
  Srp/Lib/Median.lean
  ===================
  **The median under a majority.**

  More than half of the elements of a list are equal.  In sorted order they
  cover the middle, whatever the other elements are.
-/
import Mathlib.Data.List.Count
import Srp.Lib.PyNum

namespace Srp.Lib.PyNum

/-! ### Sorted lists -/

section Sorted

variable {α : Type} [LinearOrder α] {s : List α} {m : α}

theorem count_eq_zero_of_lt (h : ∀ x ∈ s, x < m) : s.count m = 0 :=
  List.count_eq_zero.mpr fun hm => lt_irrefl m (h m hm)

theorem count_eq_zero_of_gt (h : ∀ x ∈ s, m < x) : s.count m = 0 :=
  List.count_eq_zero.mpr fun hm => lt_irrefl m (h m hm)

/-- An element that occurs more often than there are places before an index, and after it, stands
    at that index. -/
theorem getElem_of_count (hs : s.Pairwise (· ≤ ·)) {i : Nat} (hi : i < s.length)
    (hbefore : i < s.count m) (hafter : s.length - (i + 1) < s.count m) : s[i] = m := by
  rcases lt_trichotomy s[i] m with hlt | heq | hgt
  · have hzero : (s.take (i + 1)).count m = 0 := by
      apply count_eq_zero_of_lt
      intro x hx
      obtain ⟨j, hj, rfl⟩ := List.mem_take_iff_getElem.mp hx
      exact lt_of_le_of_lt (hs.rel_get_of_le (a := ⟨j, by omega⟩) (b := ⟨i, hi⟩)
        (by simp only [Fin.mk_le_mk]; omega)) hlt
    have hsplit : s.count m = (s.take (i + 1)).count m + (s.drop (i + 1)).count m := by
      rw [← List.count_append, List.take_append_drop]
    have hle := List.count_le_length (a := m) (l := s.drop (i + 1))
    rw [List.length_drop] at hle
    omega
  · exact heq
  · have hzero : (s.drop i).count m = 0 := by
      apply count_eq_zero_of_gt
      intro x hx
      obtain ⟨j, hj, rfl⟩ := List.mem_drop_iff_getElem.mp hx
      exact lt_of_lt_of_le hgt (hs.rel_get_of_le (a := ⟨i, hi⟩) (b := ⟨i + j, by omega⟩)
        (by simp only [Fin.mk_le_mk]; omega))
    have hsplit : s.count m = (s.take i).count m + (s.drop i).count m := by
      rw [← List.count_append, List.take_append_drop]
    have hle := List.count_le_length (a := m) (l := s.take i)
    rw [List.length_take] at hle
    omega

end Sorted

/-! ### The median -/

/-- **The median of a list is the element that more than half of the list consists of.** -/
theorem median_of_count {xs : List ℚ} {m : ℚ} (h : xs.length < 2 * xs.count m) :
    median xs = m := by
  have hperm := List.perm_insertionSort (· ≤ ·) xs
  have hsorted : (xs.insertionSort (· ≤ ·)).Pairwise (· ≤ ·) := List.pairwise_insertionSort _ xs
  have hcount : (xs.insertionSort (· ≤ ·)).count m = xs.count m := hperm.count_eq m
  have hlen : (xs.insertionSort (· ≤ ·)).length = xs.length := hperm.length_eq
  have hle := List.count_le_length (a := m) (l := xs)
  have hat : ∀ i, i < xs.length → i < xs.count m → xs.length - (i + 1) < xs.count m →
      (xs.insertionSort (· ≤ ·)).getD i 0 = m := by
    intro i hi hbefore hafter
    rw [List.getD_eq_getElem?_getD, List.getElem?_eq_getElem (by omega), Option.getD_some]
    exact getElem_of_count hsorted (by omega) (by omega) (by omega)
  unfold median medianWith
  simp only [hlen, id_eq]
  split
  · exact hat _ (by omega) (by omega) (by omega)
  · rw [hat _ (by omega) (by omega) (by omega), hat _ (by omega) (by omega) (by omega)]
    ring

end Srp.Lib.PyNum
