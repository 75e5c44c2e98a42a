/-
  Srp/Lib/Cut.lean
  ================
  **Cutting a graph at a vertex or at an edge.**

  `within G S` keeps the edges inside a set of vertices; what is connected there stays
  connected when a vertex or an edge outside the set is removed, and what is closed
  under the remaining edges cannot be left.  A vertex `Cuts` the graph when two of its
  neighbours are no longer connected without it, and on a finite graph this says that
  its removal increases the number of connected components (`components_lt_iff_cuts`).
-/
import Mathlib.Combinatorics.SimpleGraph.Connectivity.Connected
import Mathlib.Combinatorics.SimpleGraph.DeleteEdges
import Mathlib.SetTheory.Cardinal.NatCard

namespace Srp.Lib.Cut

open SimpleGraph

variable {α : Type} {G : SimpleGraph α} {S T : Set α} {u v a b : α}

/-! ### Inside a set of vertices -/

/-- The edges with both ends in `S`. -/
def within (G : SimpleGraph α) (S : Set α) : SimpleGraph α where
  Adj a b := G.Adj a b ∧ a ∈ S ∧ b ∈ S
  symm := ⟨fun _ _ h => ⟨h.1.symm, h.2.2, h.2.1⟩⟩
  loopless := ⟨fun a h => G.loopless.irrefl a h.1⟩

theorem within_mono (h : S ⊆ T) : within G S ≤ within G T :=
  fun _ _ hab => ⟨hab.1, h hab.2.1, h hab.2.2⟩

theorem within_le_deleteIncidenceSet (h : u ∉ S) : within G S ≤ G.deleteIncidenceSet u := by
  intro a b hab
  rw [deleteIncidenceSet_adj]
  refine ⟨hab.1, ?_, ?_⟩
  · rintro rfl
    exact h hab.2.1
  · rintro rfl
    exact h hab.2.2

theorem within_le_deleteEdges (h : u ∉ S ∨ v ∉ S) : within G S ≤ G.deleteEdges {s(u, v)} := by
  intro a b hab
  rw [deleteEdges_adj, Set.mem_singleton_iff]
  refine ⟨hab.1, ?_⟩
  intro he
  rcases Sym2.eq_iff.mp he with ⟨rfl, rfl⟩ | ⟨rfl, rfl⟩
  · exact h.elim (fun hu => hu hab.2.1) fun hv => hv hab.2.2
  · exact h.elim (fun hu => hu hab.2.2) fun hv => hv hab.2.1

theorem deleteEdges_adj_of_mem (h : G.Adj a b) (ha : u ≠ a ∧ u ≠ b ∨ v ≠ a ∧ v ≠ b) :
    (G.deleteEdges {s(u, v)}).Adj a b := by
  rw [deleteEdges_adj, Set.mem_singleton_iff]
  refine ⟨h, ?_⟩
  intro he
  rcases Sym2.eq_iff.mp he with ⟨rfl, rfl⟩ | ⟨rfl, rfl⟩
  · exact ha.elim (fun h => h.1 rfl) fun h => h.2 rfl
  · exact ha.elim (fun h => h.2 rfl) fun h => h.1 rfl

/-- The members of a list of consecutive neighbours are connected inside it. -/
theorem reachable_within_chain {l : List α} (h : l.IsChain G.Adj) (ha : a ∈ l) (hb : b ∈ l) :
    (within G {x | x ∈ l}).Reachable a b := by
  have hhead : ∀ {l : List α} {c : α}, (c :: l).IsChain G.Adj → ∀ x ∈ c :: l,
      (within G {x | x ∈ c :: l}).Reachable c x := by
    intro l
    induction l with
    | nil =>
      intro c _ x hx
      rw [List.mem_singleton.mp hx]
    | cons d l ih =>
      intro c hl x hx
      rcases List.mem_cons.mp hx with rfl | hx
      · exact Reachable.refl _
      · have hl' := List.isChain_cons_cons.mp hl
        have hcd : (within G {x | x ∈ c :: d :: l}).Adj c d := ⟨hl'.1, by simp, by simp⟩
        have hrest := (ih hl'.2 x hx).mono (within_mono fun _ => List.mem_cons_of_mem c)
        exact hcd.reachable.trans hrest
  cases l with
  | nil => cases ha
  | cons c l => exact (hhead h a ha).symm.trans (hhead h b hb)

/-! ### Leaving a closed set -/

theorem mem_of_reachable {H : SimpleGraph α} (hclosed : ∀ x ∈ S, ∀ y, H.Adj x y → y ∈ S)
    (h : H.Reachable a b) (ha : a ∈ S) : b ∈ S := by
  rw [reachable_iff_reflTransGen] at h
  induction h with
  | refl => exact ha
  | tail _ hbc ih => exact hclosed _ ih _ hbc

theorem eq_or_reachable_deleteIncidenceSet (h : G.Reachable a b) (ha : a ≠ u) :
    (G.deleteIncidenceSet u).Reachable a b ∨
      ∃ x, G.Adj u x ∧ (G.deleteIncidenceSet u).Reachable a x := by
  rw [reachable_iff_reflTransGen] at h
  induction h with
  | refl => exact Or.inl (Reachable.refl _)
  | @tail b c _ hbc ih =>
    rcases ih with ih | ih
    · by_cases hcu : c = u
      · subst hcu
        exact Or.inr ⟨b, hbc.symm, ih⟩
      · by_cases hbu : b = u
        · subst hbu
          have hside : b ∈ {x | x ≠ b} := by
            refine mem_of_reachable (S := {x | x ≠ b}) ?_ ih ha
            intro x _ y hxy
            exact ((deleteIncidenceSet_adj.mp hxy)).2.2
          exact absurd rfl hside
        · have hadj : (G.deleteIncidenceSet u).Adj b c :=
            deleteIncidenceSet_adj.mpr ⟨hbc, hbu, hcu⟩
          exact Or.inl (ih.trans hadj.reachable)
    · exact Or.inr ih

/-! ### Cut vertices -/

/-- Without `u`, two of its neighbours are not connected. -/
def Cuts (G : SimpleGraph α) (u : α) : Prop :=
  ∃ a b, G.Adj u a ∧ G.Adj u b ∧ ¬ (G.deleteIncidenceSet u).Reachable a b

/-- The number of connected components of the graph on the vertices `V`. -/
noncomputable def components (G : SimpleGraph α) (V : Set α) : Nat :=
  Nat.card (G.induce V).ConnectedComponent

/-- Where every edge lies inside `V`, restricting the graph to `V` changes no connection. -/
theorem reachable_induce {V : Set α} (hV : ∀ x y, G.Adj x y → y ∈ V) (ha : a ∈ V) (hb : b ∈ V) :
    (G.induce V).Reachable ⟨a, ha⟩ ⟨b, hb⟩ ↔ G.Reachable a b := by
  constructor
  · intro h
    exact h.map (Embedding.induce V).toHom
  · intro h
    rw [reachable_iff_reflTransGen] at h
    induction h with
    | refl => exact Reachable.refl _
    | @tail b c _ hbc ih =>
      have hbV : b ∈ V := hV c b hbc.symm
      have hadj : (G.induce V).Adj ⟨b, hbV⟩ ⟨c, hb⟩ := hbc
      exact (ih hbV).trans hadj.reachable

variable {V : Set α}

theorem reachable_induce_diff (hV : ∀ x y, G.Adj x y → y ∈ V) (ha : a ∈ V \ {u})
    (hb : b ∈ V \ {u}) :
    (G.induce (V \ {u})).Reachable ⟨a, ha⟩ ⟨b, hb⟩ ↔ (G.deleteIncidenceSet u).Reachable a b := by
  have hu : u ∉ V \ {u} := fun h => h.2 rfl
  rw [← G.induce_deleteIncidenceSet_of_notMem hu]
  apply reachable_induce
  intro x y hxy
  have h := deleteIncidenceSet_adj.mp hxy
  exact ⟨hV x y h.1, h.2.2⟩

/-- The component with `u` that contains a component without `u`. -/
def rejoin (G : SimpleGraph α) (V : Set α) (u : α) :
    (G.induce (V \ {u})).ConnectedComponent → (G.induce V).ConnectedComponent :=
  ConnectedComponent.map (G.induceHomOfLE (Set.sdiff_subset : V \ {u} ⊆ V)).toHom

theorem rejoin_eq_iff (hV : ∀ x y, G.Adj x y → y ∈ V) (ha : a ∈ V \ {u}) (hb : b ∈ V \ {u}) :
    rejoin G V u ((G.induce (V \ {u})).connectedComponentMk ⟨a, ha⟩) =
      rejoin G V u ((G.induce (V \ {u})).connectedComponentMk ⟨b, hb⟩) ↔ G.Reachable a b := by
  rw [← reachable_induce hV ha.1 hb.1, ← ConnectedComponent.eq]
  rfl

theorem rejoin_surjective (hV : ∀ x y, G.Adj x y → y ∈ V) (h : G.Adj u a) :
    Function.Surjective (rejoin G V u) := by
  intro c
  induction c using ConnectedComponent.ind with
  | h x =>
    obtain ⟨x, hx⟩ := x
    by_cases hxu : x = u
    · subst hxu
      have ha : a ∈ V := hV x a h
      refine ⟨(G.induce (V \ {x})).connectedComponentMk ⟨a, ha, h.ne'⟩, ?_⟩
      have hadj : (G.induce V).Adj ⟨a, ha⟩ ⟨x, hx⟩ := h.symm
      exact ConnectedComponent.eq.mpr hadj.reachable
    · exact ⟨(G.induce (V \ {u})).connectedComponentMk ⟨x, hx, hxu⟩, rfl⟩

theorem rejoin_injective (hV : ∀ x y, G.Adj x y → y ∈ V) (h : ¬ Cuts G u) :
    Function.Injective (rejoin G V u) := by
  intro c d
  induction c using ConnectedComponent.ind with
  | h a =>
    induction d using ConnectedComponent.ind with
    | h b =>
      obtain ⟨a, ha⟩ := a
      obtain ⟨b, hb⟩ := b
      rw [rejoin_eq_iff hV ha hb, ConnectedComponent.eq, reachable_induce_diff hV ha hb]
      intro hab
      rcases eq_or_reachable_deleteIncidenceSet hab ha.2 with hab' | ⟨x, hx, hax⟩
      · exact hab'
      · rcases eq_or_reachable_deleteIncidenceSet hab.symm hb.2 with hab' | ⟨y, hy, hby⟩
        · exact hab'.symm
        · have hxy : (G.deleteIncidenceSet u).Reachable x y := by
            by_contra hn
            exact h ⟨x, y, hx, hy, hn⟩
          exact (hax.trans hxy).trans hby.symm

/-- On a finite graph, the vertices whose removal increases the number of components. -/
theorem components_lt_iff_cuts (hfin : V.Finite) (hV : ∀ x y, G.Adj x y → y ∈ V) :
    components G V < components G (V \ {u}) ↔ Cuts G u := by
  have hVf : Finite V := hfin
  have hDf : Finite ↥(V \ {u}) := hfin.subset Set.sdiff_subset
  have hcV : Finite (G.induce V).ConnectedComponent := Quot.finite _
  have hcD : Finite (G.induce (V \ {u})).ConnectedComponent := Quot.finite _
  constructor
  · intro hlt
    by_contra hcut
    exact absurd (Nat.card_le_card_of_injective _ (rejoin_injective hV hcut)) (not_le.mpr hlt)
  · rintro ⟨a, b, ha, hb, hab⟩
    have ha' : a ∈ V \ {u} := ⟨hV u a ha, ha.ne'⟩
    have hb' : b ∈ V \ {u} := ⟨hV u b hb, hb.ne'⟩
    have hsurj := rejoin_surjective hV ha
    by_contra hle
    have hbij := hsurj.bijective_of_nat_card_le (not_lt.mp hle)
    have heq := hbij.1 ((rejoin_eq_iff hV ha' hb').mpr (ha.symm.reachable.trans hb.reachable))
    exact hab ((reachable_induce_diff hV ha' hb').mp (ConnectedComponent.eq.mp heq))

end Srp.Lib.Cut
