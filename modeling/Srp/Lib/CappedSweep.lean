/-
  Srp/Lib/CappedSweep.lean
  ========================
  **Looking through a list a few elements at a time.**

  A pass looks at the first `cap` elements that are left and takes the bad ones out; the
  good ones stay where they are and are looked at again by the next pass.  A pass gets
  further down the list than the one before it by as many elements as were taken out
  (`reach`), so behind `cap` good ones nothing is ever looked at (`reach_le_of_good`).
-/
import Mathlib.Data.List.Nodup

namespace Srp.Lib.CappedSweep

variable {α : Type} (cap : Nat) (bad : α → Bool) (l : List α)

/-- How far down the list `k` passes get. -/
def reach : Nat → Nat
  | 0 => 0
  | k + 1 => cap + (l.take (reach k)).countP bad

/-- What `k` passes take out. -/
def found (k : Nat) : List α := (l.take (reach cap bad l k)).filter bad

variable {cap bad l}

theorem countP_take_mono {m n : Nat} (h : m ≤ n) :
    (l.take m).countP bad ≤ (l.take n).countP bad :=
  (List.take_sublist_take_left h).countP_le

theorem reach_le_succ (k : Nat) : reach cap bad l k ≤ reach cap bad l (k + 1) := by
  induction k with
  | zero => exact Nat.zero_le _
  | succ k ih => exact Nat.add_le_add_left (countP_take_mono ih) cap

/-- Where the passes got to there are no more than `cap` good elements. -/
theorem good_le_cap (k : Nat) :
    (l.take (reach cap bad l k)).countP (fun x => !bad x) ≤ cap := by
  have hlen := List.length_eq_countP_add_countP bad (l := l.take (reach cap bad l k))
  have hle : (l.take (reach cap bad l k)).length ≤ reach cap bad l k := List.length_take_le _ _
  have hbound : reach cap bad l k ≤ cap + (l.take (reach cap bad l k)).countP bad :=
    reach_le_succ k
  simp only [Bool.not_eq_true, Bool.decide_eq_false] at hlen
  omega

/-- After `k` passes: the good elements among those that were looked at, and the others. -/
theorem left_eq (hl : l.Nodup) (k : Nat) [DecidableEq α] :
    l.filter (fun x => x ∉ found cap bad l k) =
      (l.take (reach cap bad l k)).filter (fun x => !bad x) ++ l.drop (reach cap bad l k) := by
  have hsplit := List.take_append_drop (reach cap bad l k) l
  have hdisjoint : ∀ x ∈ l.drop (reach cap bad l k), x ∉ l.take (reach cap bad l k) := by
    rw [← hsplit, List.nodup_append] at hl
    intro x hx hx'
    exact hl.2.2 x hx' x hx rfl
  have hahead : (l.take (reach cap bad l k)).filter (fun x => x ∉ found cap bad l k) =
      (l.take (reach cap bad l k)).filter fun x => !bad x := by
    refine List.filter_congr fun x hx => ?_
    simp [found, hx]
  have hbehind : (l.drop (reach cap bad l k)).filter (fun x => x ∉ found cap bad l k) =
      l.drop (reach cap bad l k) := by
    refine List.filter_eq_self.mpr fun x hx => ?_
    have hout := hdisjoint x hx
    simp [found, hout]
  calc l.filter (fun x => x ∉ found cap bad l k)
      = (l.take (reach cap bad l k) ++ l.drop (reach cap bad l k)).filter
          fun x => x ∉ found cap bad l k := by rw [hsplit]
    _ = _ := by rw [List.filter_append, hahead, hbehind]

/-- One pass: the bad ones among the first `cap` elements that are left are taken out. -/
theorem found_succ [DecidableEq α] (hl : l.Nodup) (k : Nat) :
    found cap bad l (k + 1) = found cap bad l k ++
      ((l.filter fun x => x ∉ found cap bad l k).take cap).filter bad := by
  have hgood : (l.take (reach cap bad l k)).countP (fun x => !bad x) ≤ cap := good_le_cap k
  rw [List.countP_eq_length_filter] at hgood
  have hnone : ((l.take (reach cap bad l k)).filter fun x => !bad x).filter bad = [] := by
    simp [List.filter_filter]
  have hlooked : l.take (reach cap bad l (k + 1)) = l.take (reach cap bad l k) ++
      (l.drop (reach cap bad l k)).take (reach cap bad l (k + 1) - reach cap bad l k) := by
    rw [← List.take_add, Nat.add_sub_cancel' (reach_le_succ k)]
  rw [left_eq hl, List.take_append, List.take_of_length_le hgood, List.filter_append, hnone,
    List.nil_append]
  unfold found
  rw [hlooked, List.filter_append]
  congr 2
  -- the good ones that are looked at again leave so much of the cap for the others
  by_cases hend : reach cap bad l k ≤ l.length
  · have hlen := List.length_eq_countP_add_countP bad (l := l.take (reach cap bad l k))
    rw [List.length_take_of_le hend] at hlen
    simp only [Bool.not_eq_true, Bool.decide_eq_false] at hlen
    rw [← List.countP_eq_length_filter]
    congr 1
    rw [reach]
    omega
  · rw [List.drop_eq_nil_of_le (by omega), List.take_nil, List.take_nil]

/-- Nothing behind `cap` good elements is ever looked at. -/
theorem reach_le_of_good {front : List α} (hfront : front <+: l)
    (hgood : cap ≤ front.countP fun x => !bad x) (k : Nat) :
    reach cap bad l k ≤ front.length := by
  induction k with
  | zero => exact Nat.zero_le _
  | succ k ih =>
    have hlen := List.length_eq_countP_add_countP bad (l := front)
    have htake : l.take front.length = front := (List.prefix_iff_eq_take.mp hfront).symm
    have hbad : (l.take (reach cap bad l k)).countP bad ≤ (l.take front.length).countP bad :=
      countP_take_mono ih
    rw [htake] at hbad
    simp only [Bool.not_eq_true, Bool.decide_eq_false] at hlen
    rw [reach]
    omega

end Srp.Lib.CappedSweep
