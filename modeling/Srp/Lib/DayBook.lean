/-
  Srp/Lib/DayBook.lean
  ====================
  **Day books of deliveries.**

  Batches of items arrive, each on a day, and a book holds a sum for each day.  The
  account that the book should agree with enters an item once, on the day on which it
  first arrives, and strikes out a day for good when a batch finds it out of the window
  (`keeps`).  A book that adds whatever arrives agrees with the account as long as no
  item arrives twice, and from the first item that does it is ahead of it.
-/
import Mathlib.Algebra.BigOperators.Group.Finset.Basic
import Mathlib.Algebra.GroupWithZero.Nat
import Mathlib.Algebra.Order.BigOperators.Group.Finset
import Srp.Lib.Table

namespace Srp.Lib.DayBook

open Srp.Lib.Table

structure Batch (κ α : Type) where
  day : κ
  items : List α
deriving DecidableEq, Repr

variable {α κ : Type} [DecidableEq α]

def arrived (batches : List (Batch κ α)) : List α := batches.flatMap Batch.items

variable (keeps : κ → κ → Bool) (weight : α → Nat)

/-- The day under which an item is entered, unless it is struck out since. -/
def entryDay (a : α) : List (Batch κ α) → Option κ
  | [] => none
  | b :: later =>
    if a ∈ b.items then
      if later.all fun c => keeps c.day b.day then some b.day else none
    else entryDay a later

/-- The weight of the distinct items entered under the days `p`. -/
def entered (batches : List (Batch κ α)) (p : κ → Bool) : Nat :=
  ∑ a ∈ (arrived batches).toFinset with (entryDay keeps a batches).any p = true, weight a

/-! ### The account -/

omit [DecidableEq α] in
@[simp] theorem arrived_append (bs : List (Batch κ α)) (c : Batch κ α) :
    arrived (bs ++ [c]) = arrived bs ++ c.items := by
  simp [arrived]

/-- What a batch does to the entry of an item. -/
theorem entryDay_append (a : α) (bs : List (Batch κ α)) (c : Batch κ α) :
    entryDay keeps a (bs ++ [c]) =
      if a ∈ arrived bs then (entryDay keeps a bs).filter (keeps c.day)
      else if a ∈ c.items then some c.day else none := by
  induction bs with
  | nil => simp [entryDay, arrived]
  | cons b bs ih =>
    have harrived : a ∈ arrived (b :: bs) ↔ a ∈ b.items ∨ a ∈ arrived bs := by
      simp [arrived]
    rw [List.cons_append]
    simp only [entryDay, harrived]
    by_cases hb : a ∈ b.items
    · simp only [hb, if_true, true_or, List.all_append]
      by_cases hlater : (bs.all fun c => keeps c.day b.day) = true
      · by_cases hkeep : keeps c.day b.day = true <;> simp [hlater, hkeep, Option.filter]
      · simp [hlater]
    · simp only [hb, if_false, false_or]
      exact ih

theorem entered_append (bs : List (Batch κ α)) (c : Batch κ α) (p : κ → Bool) :
    entered keeps weight (bs ++ [c]) p = entered keeps weight bs (fun d => keeps c.day d && p d) +
      if p c.day = true then ∑ a ∈ c.items.toFinset \ (arrived bs).toFinset, weight a else 0 := by
  unfold entered
  rw [arrived_append, List.toFinset_append, ← Finset.union_sdiff_self_eq_union,
    Finset.filter_union, Finset.sum_union (Finset.disjoint_filter_filter Finset.disjoint_sdiff)]
  congr 1
  · apply Finset.sum_congr _ fun _ _ => rfl
    apply Finset.filter_congr
    intro a ha
    rw [entryDay_append, if_pos (List.mem_toFinset.mp ha)]
    cases entryDay keeps a bs with
    | none => simp
    | some d => by_cases hd : keeps c.day d = true <;> simp [Option.filter, hd]
  · have hnew : ∀ a ∈ c.items.toFinset \ (arrived bs).toFinset,
        (entryDay keeps a (bs ++ [c])).any p = p c.day := by
      intro a ha
      rw [Finset.mem_sdiff, List.mem_toFinset, List.mem_toFinset] at ha
      rw [entryDay_append, if_neg ha.2, if_pos ha.1]
      rfl
    split
    · next hp =>
      apply Finset.sum_congr _ fun _ _ => rfl
      apply Finset.filter_true_of_mem
      intro a ha
      rw [hnew a ha, hp]
    · next hp =>
      rw [Finset.filter_false_of_mem, Finset.sum_empty]
      intro a ha
      rw [hnew a ha]
      exact hp

/-! ### The book -/

/-- What the book holds under the days `p`. -/
def sumOn (p : κ → Bool) (book : List (κ × Nat)) : Nat :=
  ((book.filter fun e => p e.1).map Prod.snd).sum

/-- `book[day] = book.get(day, 0) + n`. -/
def enter [DecidableEq κ] (book : List (κ × Nat)) (day : κ) (n : Nat) : List (κ × Nat) :=
  upsert Prod.fst (fun old new => (old.1, old.2 + new.2)) (day, n) book

theorem sumOn_enter [DecidableEq κ] (p : κ → Bool) (book : List (κ × Nat)) (day : κ) (n : Nat) :
    sumOn p (enter book day n) = sumOn p book + if p day = true then n else 0 := by
  unfold enter
  induction book with
  | nil => by_cases hp : p day = true <;> simp [upsert, sumOn, hp]
  | cons e book ih =>
    have hcons : ∀ (f : κ × Nat) (fs : List (κ × Nat)),
        sumOn p (f :: fs) = (if p f.1 = true then f.2 else 0) + sumOn p fs := by
      intro f fs
      by_cases hf : p f.1 = true <;> simp [sumOn, hf]
    unfold upsert
    by_cases he : e.1 = day
    · rw [if_pos he, hcons, hcons, he]
      split <;> omega
    · rw [if_neg he, hcons, hcons, ih, Nat.add_assoc]

theorem sumOn_filter (p q : κ → Bool) (book : List (κ × Nat)) :
    sumOn p (book.filter fun e => q e.1) = sumOn (fun d => q d && p d) book := by
  simp only [sumOn, List.filter_filter, Bool.and_comm]

/-- The book holds under every set of days what is entered there. -/
def Agrees (book : List (κ × Nat)) (batches : List (Batch κ α)) : Prop :=
  ∀ p, sumOn p book = entered keeps weight batches p

/-- The book with a batch added as it arrives, if it weighs anything, and the days outside the
    window struck out. -/
def post [DecidableEq κ] (book : List (κ × Nat)) (c : Batch κ α) : List (κ × Nat) :=
  let n := (c.items.map weight).sum
  (if n = 0 then book else enter book c.day n).filter fun e => keeps c.day e.1

section Post

variable [DecidableEq κ] {keeps weight} {book : List (κ × Nat)} {bs : List (Batch κ α)}
  {c : Batch κ α}

theorem sumOn_post (hself : keeps c.day c.day = true) (h : Agrees keeps weight book bs)
    (p : κ → Bool) : sumOn p (post keeps weight book c) =
      entered keeps weight bs (fun d => keeps c.day d && p d) +
        if p c.day = true then (c.items.map weight).sum else 0 := by
  simp only [post]
  rw [sumOn_filter]
  split
  · next hzero => rw [h, hzero, ite_self, Nat.add_zero]
  · rw [sumOn_enter, h]
    simp only [hself, Bool.true_and]

/-- Items that have not arrived before keep the book in order. -/
theorem agrees_post (hself : keeps c.day c.day = true) (hnodup : c.items.Nodup)
    (h : Agrees keeps weight book bs) (hnew : ∀ a ∈ c.items, a ∉ arrived bs) :
    Agrees keeps weight (post keeps weight book c) (bs ++ [c]) := by
  intro p
  have hdisjoint : Disjoint c.items.toFinset (arrived bs).toFinset :=
    List.disjoint_toFinset_iff_disjoint.mpr fun a hc hb => hnew a hc hb
  rw [sumOn_post hself h, entered_append, Finset.sdiff_eq_self_of_disjoint hdisjoint,
    List.sum_toFinset weight hnodup]

/-- An item that has arrived before is added once more. -/
theorem entered_lt_post (hself : keeps c.day c.day = true) (hnodup : c.items.Nodup)
    (h : Agrees keeps weight book bs) {a : α} (ha : a ∈ c.items) (hbefore : a ∈ arrived bs)
    (hpos : 0 < weight a) :
    entered keeps weight (bs ++ [c]) (fun _ => true) <
      sumOn (fun _ => true) (post keeps weight book c) := by
  rw [sumOn_post hself h, entered_append, if_pos rfl, if_pos rfl, ← List.sum_toFinset weight hnodup]
  apply Nat.add_lt_add_left
  apply Finset.sum_lt_sum_of_subset Finset.sdiff_subset (List.mem_toFinset.mpr ha)
  · simp [hbefore]
  · exact hpos
  · exact fun _ _ _ => Nat.zero_le _

/-- A batch keeps the total right iff none of its items has arrived before. -/
theorem post_right_iff (hself : keeps c.day c.day = true) (hnodup : c.items.Nodup)
    (hpos : ∀ a ∈ c.items, 0 < weight a) (h : Agrees keeps weight book bs) :
    sumOn (fun _ => true) (post keeps weight book c) =
        entered keeps weight (bs ++ [c]) (fun _ => true) ↔
      ∀ a ∈ c.items, a ∉ arrived bs := by
  constructor
  · intro heq a ha hbefore
    exact (entered_lt_post hself hnodup h ha hbefore (hpos a ha)).ne heq.symm
  · intro hnew
    exact agrees_post hself hnodup h hnew _

end Post

end Srp.Lib.DayBook
