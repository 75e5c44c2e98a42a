/-
  Srp/Lib/PySet.lean
  ==================
  **Iterating over a set.**

  A Python set is iterated in an order of its own, which may differ from one run
  to the next: `SetOrder` is any way of listing the members of a set once each.
  What is built from such a list has the same members for every order.
-/
import Mathlib.Data.Finset.Sort
import Mathlib.Data.List.Perm.Basic
import Mathlib.Data.Prod.Lex

namespace Srp.Lib

structure SetOrder (α : Type) where
  elements : Finset α → List α
  nodup : ∀ s, (elements s).Nodup
  mem_elements : ∀ s a, a ∈ elements s ↔ a ∈ s

namespace SetOrder

variable {α β : Type}

/-- The members along a linear order of their images. -/
def sorted [LinearOrder β] (f : α ≃ β) : SetOrder α where
  elements s := ((s.map f.toEmbedding).sort).map f.symm
  nodup s := (Finset.sort_nodup _ _).map f.symm.injective
  mem_elements s a := by
    rw [List.mem_map]
    constructor
    · rintro ⟨b, hb, rfl⟩
      simpa using hb
    · exact fun ha => ⟨f a, by simpa using ha, by simp⟩

variable (order order' : SetOrder α) {s : Finset α}

theorem perm (s : Finset α) : (order.elements s).Perm (order'.elements s) := by
  rw [List.perm_ext_iff_of_nodup (order.nodup s) (order'.nodup s)]
  intro a
  rw [order.mem_elements, order'.mem_elements]

@[simp] theorem elements_eq_nil_iff : order.elements s = [] ↔ s = ∅ := by
  rw [List.eq_nil_iff_forall_not_mem, Finset.eq_empty_iff_forall_notMem]
  simp only [order.mem_elements]

/-- Of the lists for the members, the filter keeps that of `a`. -/
theorem filter_flatMap_elements [DecidableEq α] {f : α → List β} {p : β → Bool} {a : α}
    (hself : (f a).filter p = f a) (hother : ∀ x ∈ s, x ≠ a → (f x).filter p = []) :
    ((order.elements s).flatMap f).filter p = if a ∈ s then f a else [] := by
  have hall : ∀ l : List α, l.Nodup → (∀ x ∈ l, x ∈ s) →
      (l.flatMap f).filter p = if a ∈ l then f a else [] := by
    intro l hl hs
    induction l with
    | nil => rfl
    | cons x l ih =>
      obtain ⟨hx, hl⟩ := List.nodup_cons.mp hl
      rw [List.flatMap_cons, List.filter_append, ih hl fun y hy => hs y (List.mem_cons_of_mem x hy)]
      by_cases hxa : x = a
      · subst hxa
        rw [hself, if_neg hx, if_pos List.mem_cons_self, List.append_nil]
      · have hmem : a ∈ x :: l ↔ a ∈ l := by
          rw [List.mem_cons, or_iff_right (Ne.symm hxa)]
        rw [hother x (hs x List.mem_cons_self) hxa, List.nil_append, if_congr hmem rfl rfl]
  rw [hall _ (order.nodup s) fun x hx => (order.mem_elements s x).mp hx,
    if_congr (order.mem_elements s a) rfl rfl]

theorem filter_map_elements [DecidableEq α] {f : α → β} {p : β → Bool} {a : α}
    (hself : p (f a) = true) (hother : ∀ x ∈ s, x ≠ a → p (f x) = false) :
    ((order.elements s).map f).filter p = if a ∈ s then [f a] else [] := by
  rw [← List.flatMap_pure_eq_map]
  apply order.filter_flatMap_elements
  · simp [hself]
  · intro x hx hne
    simp [hother x hx hne]

end SetOrder

end Srp.Lib
