/-
  Srp/Lib/Outbox.lean
  ===================
  **Store and forward.**

  A sender keeps what it could not deliver in a waiting list and forwards it from
  the front; a receiver may get an item several times, since an acknowledgement
  can be lost.  `InOrder` says that what was received and then what waits never
  goes back, for any reflexive relation.  Forwarding and pushing keep it, and so
  does a direct delivery past an empty waiting list.  A receiver that files every
  item it has not filed yet then ends in a last one (`getLast?_latest`).
-/
import Mathlib.Data.List.Basic
import Mathlib.Data.List.Pairwise
import Mathlib.Order.Defs.Unbundled

namespace Srp.Lib.Outbox

variable {α : Type} {le : α → α → Prop}

/-! ### Order -/

/-- Received first, then waiting, never back. -/
def InOrder (le : α → α → Prop) (received waiting : List α) : Prop :=
  (received ++ waiting).Pairwise le

section InOrder

variable {received waiting : List α} {x : α}

theorem InOrder.pairwise_received (h : InOrder le received waiting) : received.Pairwise le :=
  (List.pairwise_append.mp h).1

theorem InOrder.sublist {rest : List α} (h : InOrder le received waiting)
    (hrest : rest.Sublist waiting) : InOrder le received rest :=
  List.Pairwise.sublist (hrest.append_left received) h

theorem pairwise_replicate (hrefl : ∀ x, le x x) (n : Nat) (x : α) :
    (List.replicate n x).Pairwise le := by
  rw [List.pairwise_replicate]
  exact .inr (hrefl x)

/-- The first waiting item reaches the receiver any number of times. -/
theorem InOrder.receive (hrefl : ∀ x, le x x) (h : InOrder le received (x :: waiting)) (n : Nat) :
    InOrder le (received ++ List.replicate n x) (x :: waiting) := by
  obtain ⟨hreceived, hwaiting, hcross⟩ := List.pairwise_append.mp h
  have hcopies : ∀ y ∈ List.replicate n x, y = x := fun y hy => List.eq_of_mem_replicate hy
  unfold InOrder
  rw [List.append_assoc]
  apply List.pairwise_append.mpr
  refine ⟨hreceived, ?_, ?_⟩
  · apply List.pairwise_append.mpr
    refine ⟨pairwise_replicate hrefl n x, hwaiting, ?_⟩
    intro y hy z hz
    rw [hcopies y hy]
    rcases List.mem_cons.mp hz with rfl | hz
    · exact hrefl z
    · exact (List.pairwise_cons.mp hwaiting).1 z hz
  · intro y hy z hz
    rcases List.mem_append.mp hz with hz | hz
    · rw [hcopies z hz]
      exact hcross y hy x List.mem_cons_self
    · exact hcross y hy z hz

/-- A new item joins the end of the waiting list. -/
theorem InOrder.push (h : InOrder le received waiting) (hlast : ∀ y ∈ received ++ waiting, le y x) :
    InOrder le received (waiting ++ [x]) := by
  unfold InOrder
  rw [← List.append_assoc]
  apply List.pairwise_append.mpr
  refine ⟨h, List.pairwise_singleton le x, ?_⟩
  intro y hy z hz
  rw [List.mem_singleton.mp hz]
  exact hlast y hy

/-- A new item is delivered past an empty waiting list. -/
theorem InOrder.direct (hrefl : ∀ x, le x x) (h : InOrder le received [])
    (hlast : ∀ y ∈ received, le y x) (n : Nat) : InOrder le (received ++ List.replicate n x) [] := by
  have hpush : InOrder le received ([] ++ [x]) := h.push (by simpa using hlast)
  exact (hpush.receive hrefl n).sublist (List.nil_sublist _)

end InOrder

/-! ### Filing -/

/-- The filed items: each received item, at its first arrival at least. -/
structure Filed (received rows : List α) : Prop where
  sublist : rows.Sublist received
  all : ∀ x ∈ received, x ∈ rows

section Filed

variable {received rows : List α} {x : α}

theorem Filed.file (h : Filed received rows) (x : α) : Filed (received ++ [x]) (rows ++ [x]) where
  sublist := h.sublist.append (List.Sublist.refl _)
  all := by
    intro y hy
    rcases List.mem_append.mp hy with hy | hy
    · exact List.mem_append_left _ (h.all y hy)
    · exact List.mem_append_right _ hy

theorem Filed.skip (h : Filed received rows) (hx : x ∈ received) : Filed (received ++ [x]) rows where
  sublist := h.sublist.trans (List.sublist_append_left _ _)
  all := by
    intro y hy
    rcases List.mem_append.mp hy with hy | hy
    · exact h.all y hy
    · rw [List.mem_singleton.mp hy]
      exact h.all x hx

/-- What was filed last is the latest of what was received. -/
theorem Filed.getLast?_latest (hrefl : ∀ x, le x x) (h : Filed received rows)
    (horder : received.Pairwise le) (hne : received ≠ []) :
    ∃ last, rows.getLast? = some last ∧ last ∈ received ∧ ∀ y ∈ received, le y last := by
  obtain ⟨x, hx⟩ := List.exists_mem_of_ne_nil received hne
  have hrows : rows ≠ [] := List.ne_nil_of_mem (h.all x hx)
  refine ⟨rows.getLast hrows, List.getLast?_eq_getLast_of_ne_nil hrows,
    h.sublist.subset (List.getLast_mem hrows), ?_⟩
  intro y hy
  have hsorted : (rows.dropLast ++ [rows.getLast hrows]).Pairwise le := by
    rw [List.dropLast_append_getLast hrows]
    exact horder.sublist h.sublist
  have hmem := h.all y hy
  rw [← List.dropLast_append_getLast hrows] at hmem
  rcases List.mem_append.mp hmem with hmem | hmem
  · exact (List.pairwise_append.mp hsorted).2.2 y hmem _ List.mem_cons_self
  · rw [List.mem_singleton.mp hmem]
    exact hrefl _

end Filed

end Srp.Lib.Outbox
