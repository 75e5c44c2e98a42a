/-
  Srp/Lib/SlidingWindow.lean
  ==========================
  **A log that counts events in a sliding window.**

  A log keeps the times of the events it let pass and lets one more pass as long
  as the window that ends now holds fewer than the limit.  It may forget a time as
  soon as no later window reaches back to it: `Faithful` says that what is kept and
  what happened agree from some moment on, and it survives every such forgetting.
  Every window is bounded then, not only those that end with an event.
-/
import Mathlib.Algebra.Order.Group.Defs
import Mathlib.Algebra.Order.Sub.Basic
import Mathlib.Data.List.Basic

namespace Srp.Lib.SlidingWindow

variable {α : Type} [AddCommGroup α] [LinearOrder α]

/-- The times that the window ending at `now` still counts. -/
def recent (width now : α) (times : List α) : List α :=
  times.filter fun t => decide (now - width ≤ t)

/-- The log `kept` shows the windows that end at `now` what `times` would show them. -/
def Faithful (width now : α) (kept times : List α) : Prop :=
  recent width now kept = recent width now times

variable {width now after : α} {kept times : List α}

section Ordered

variable [IsOrderedAddMonoid α]

theorem recent_recent (hle : now ≤ after) :
    recent width after (recent width now times) = recent width after times := by
  unfold recent
  rw [List.filter_filter]
  apply List.filter_congr
  intro t _
  have hcut : now - width ≤ after - width := sub_le_sub_right hle width
  rw [Bool.eq_iff_iff]
  simp only [Bool.and_eq_true, decide_eq_true_eq]
  constructor
  · intro h
    exact h.1
  · intro h
    exact ⟨h, hcut.trans h⟩

theorem Faithful.later (h : Faithful width now kept times) (hle : now ≤ after) :
    Faithful width after kept times := by
  unfold Faithful at h ⊢
  rw [← recent_recent hle, h, recent_recent hle]

/-- Cutting the log to the window loses nothing. -/
theorem Faithful.recent (h : Faithful width now kept times) :
    Faithful width now (recent width now kept) times := by
  unfold Faithful
  rw [recent_recent le_rfl]
  exact h

/-- A later window holds fewer of the times iff one of them has left it. -/
theorem length_recent_lt_iff (hle : now ≤ after) :
    (SlidingWindow.recent width after times).length <
        (SlidingWindow.recent width now times).length ↔
      ∃ t ∈ SlidingWindow.recent width now times, t < after - width := by
  rw [← recent_recent hle]
  constructor
  · intro hlt
    by_contra hall
    push Not at hall
    rw [SlidingWindow.recent, List.filter_eq_self.mpr] at hlt
    · exact lt_irrefl _ hlt
    · intro t ht
      rw [decide_eq_true_eq]
      exact hall t ht
  · rintro ⟨t, ht, hleft⟩
    apply List.length_filter_lt_length_iff_exists.mpr
    refine ⟨t, ht, ?_⟩
    rw [decide_eq_true_eq]
    exact not_le.mpr hleft

end Ordered

theorem Faithful.append (h : Faithful width now kept times) (news : List α) :
    Faithful width now (kept ++ news) (times ++ news) := by
  unfold Faithful SlidingWindow.recent at h ⊢
  rw [List.filter_append, List.filter_append, h]

/-- A log without a recent time may be dropped. -/
theorem Faithful.nil (h : Faithful width now kept times) (hold : ∀ t ∈ kept, t < now - width) :
    Faithful width now [] times := by
  have hnone : SlidingWindow.recent width now kept = [] := by
    apply List.filter_eq_nil_iff.mpr
    intro t ht
    rw [decide_eq_true_eq]
    exact not_le.mpr (hold t ht)
  unfold Faithful at h ⊢
  rw [← h, hnone]
  rfl

/-! ### The bound -/

/-- No window holds more than `limit` of the times. -/
def AtMost (limit : Nat) (width : α) (times : List α) : Prop :=
  ∀ start, (times.filter fun t => decide (start ≤ t ∧ t ≤ start + width)).length ≤ limit

theorem AtMost.nil (limit : Nat) : AtMost limit width [] := fun _ => Nat.zero_le limit

/-- The window that ends now is one of those that are bounded. -/
theorem AtMost.length_recent [IsOrderedAddMonoid α] {limit : Nat} (h : AtMost limit width times)
    (hpast : ∀ t ∈ times, t ≤ now) : (SlidingWindow.recent width now times).length ≤ limit := by
  refine le_trans (le_of_eq ?_) (h (now - width))
  unfold SlidingWindow.recent
  congr 1
  refine List.filter_congr fun t ht => ?_
  rw [decide_eq_decide, sub_add_cancel]
  exact (and_iff_left (hpast t ht)).symm

theorem AtMost.snoc [IsOrderedAddMonoid α] {limit : Nat} (h : AtMost limit width times)
    (hroom : (SlidingWindow.recent width now times).length < limit) :
    AtMost limit width (times ++ [now]) := by
  intro start
  rw [List.filter_append, List.length_append]
  by_cases hnow : start ≤ now ∧ now ≤ start + width
  · -- what such a window holds, the window that ends now held too
    have hsub : (times.filter fun t => decide (start ≤ t ∧ t ≤ start + width)).length ≤
        (SlidingWindow.recent width now times).length := by
      apply List.Sublist.length_le
      apply List.monotone_filter_right
      intro t ht
      rw [decide_eq_true_eq] at ht ⊢
      exact (sub_le_iff_le_add.mpr hnow.2).trans ht.1
    have hone : ([now].filter fun t => decide (start ≤ t ∧ t ≤ start + width)).length ≤ 1 :=
      List.length_filter_le _ _
    omega
  · rw [List.filter_cons_of_neg (by simpa using hnow), List.filter_nil, List.length_nil]
    exact h start

end Srp.Lib.SlidingWindow
