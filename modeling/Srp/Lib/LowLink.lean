/-
  Srp/Lib/LowLink.lean
  ====================
  **Low numbers of a depth-first traversal, and what they decide.**

  `low x` is the smallest discovery number that a non-tree edge reaches from the part of
  the traversal settled for `x`.  When a vertex `v` with parent `u` is left, its low
  number says whether the edge between them is a bridge (`lt_low_iff_isBridge`) and
  whether the subtree of `v` hangs on `u` alone (`cuts_of_le_low`,
  `reachable_of_low_lt`).
-/
import Srp.Lib.DepthFirst

namespace Srp.Lib.DepthFirst

open SimpleGraph Srp.Lib.Cut Traversal

variable {α : Type}

structure Search (α : Type) extends Traversal α where
  low : α → Nat

/-- The low numbers of the vertices on the stack are exact. -/
structure LowLink (G : SimpleGraph α) (s : Search α) : Prop where
  forest : Forest G s.toTraversal
  low_le : ∀ x ∈ s.path, s.low x ≤ s.num x
  attained : ∀ x ∈ s.path, s.low x = s.num x ∨ ∃ y ∈ s.since x, ∃ z, G.Adj y z ∧ s.Seen z ∧
    s.parent y ≠ some z ∧ s.num z = s.low x
  least : ∀ f ∈ s.stack, ∀ y ∈ s.settled f.1, ∀ z, G.Adj y z → (y = f.1 → z ∉ f.2) →
    s.parent y ≠ some z → s.low f.1 ≤ s.num z

variable {G : SimpleGraph α} {s : Search α}

theorem LowLink.leave_root {v : α} (h : LowLink G s) (hs : s.stack = [(v, [])]) :
    LowLink G { s with stack := [] } where
  forest := h.forest.leave hs
  low_le _ hx := by cases hx
  attained _ hx := by cases hx
  least _ hf := by cases hf

/-! ### The top of the stack and its parent -/

section Top

variable {t : Traversal α} {x u v q : α} {rest nbrs : List α} {below : List (α × List α)}

theorem Forest.below_of_parent (h : Forest G t) (hs : t.stack = (u, rest) :: below)
    (hq : t.parent u = some q) : ∃ r bs, below = (q, r) :: bs := by
  have hchain := h.path_chain
  have hroot := h.path_root
  rw [path, hs] at hchain hroot
  cases below with
  | nil =>
    have := hroot u rfl
    rw [hq] at this
    cases this
  | cons f bs =>
    have hf := (List.isChain_cons_cons.mp hchain).1
    rw [hq] at hf
    obtain rfl : q = f.1 := Option.some.inj hf
    exact ⟨f.2, bs, rfl⟩

/-- Every vertex of the stack was entered after its root. -/
theorem Forest.mem_since_root (h : Forest G t) {r y : α} (hr : r ∈ t.path.getLast?)
    (hy : y ∈ t.path) : y ∈ t.since r := by
  refine ⟨h.path_seen y hy, ?_⟩
  have hsorted := h.path_sorted
  generalize t.path = l at hr hy hsorted
  induction l with
  | nil => cases hy
  | cons a l ih =>
    cases l with
    | nil =>
      obtain rfl : a = r := Option.some.inj hr
      rw [List.mem_singleton.mp hy]
    | cons b l =>
      rw [List.getLast?_cons_cons] at hr
      rw [List.pairwise_cons] at hsorted
      rcases List.mem_cons.mp hy with rfl | hy
      · exact (hsorted.1 r (List.mem_of_getLast? hr)).le
      · exact ih hr hy hsorted.2

/-- A vertex of the stack without a parent is its root. -/
theorem Forest.parent_or_root (h : Forest G t) (hs : t.stack = (u, rest) :: below) :
    (∃ q, t.parent u = some q) ∨ t.path.getLast? = some u := by
  have hchain := h.path_chain
  rw [path, hs] at hchain ⊢
  cases below with
  | nil => exact Or.inr rfl
  | cons f bs => exact Or.inl ⟨f.1, (List.isChain_cons_cons.mp hchain).1⟩

theorem Forest.parent_top (h : Forest G t) (hs : t.stack = (v, nbrs) :: (u, rest) :: below) :
    t.parent v = some u := by
  have hchain := h.path_chain
  rw [path, hs] at hchain
  exact (List.isChain_cons_cons.mp hchain).1

/-- Consecutive vertices of the stack are neighbours. -/
theorem Forest.path_adj (h : Forest G t) : t.path.IsChain G.Adj := by
  refine h.path_chain.imp_of_mem_imp ?_
  intro a b ha _ hab
  exact (h.parent_adj a b (h.path_seen a ha) hab).2.symm

theorem Forest.mem_path (hs : t.stack = (x, rest) :: below) {y : α} :
    y ∈ t.path ↔ y = x ∨ y ∈ below.map (·.1) := by
  rw [path, hs, List.map_cons, List.mem_cons]

/-- The vertices below the top of the stack are connected without it. -/
theorem Forest.reachable_below (h : Forest G t) (hs : t.stack = (x, rest) :: below) {a b : α}
    (ha : a ∈ below.map (·.1)) (hb : b ∈ below.map (·.1)) :
    (within G {y | y ∈ below.map (·.1)}).Reachable a b := by
  have hadj := h.path_adj
  rw [path, hs, List.map_cons] at hadj
  exact reachable_within_chain (List.isChain_cons.mp hadj).2 ha hb

theorem Forest.not_mem_below (h : Forest G t) (hs : t.stack = (x, rest) :: below) :
    x ∉ {y | y ∈ below.map (·.1)} :=
  fun hx => lt_irrefl _ (h.num_lt_top hs hx)

/-- A non-tree edge to the stack closes a cycle. -/
theorem Forest.not_isBridge_back (h : Forest G t) (hs : t.stack = (x, rest) :: below) {y : α}
    (hy : y ∈ below.map (·.1)) (hp : t.parent x ≠ some y) : ¬ G.IsBridge s(x, y) := by
  rw [isBridge_iff, not_not]
  cases below with
  | nil => cases hy
  | cons f bs =>
    have hparent := h.parent_top hs
    have hfx : f.1 ≠ x := fun he => h.not_mem_below hs (by rw [← he]; exact List.mem_cons_self)
    have hfy : f.1 ≠ y := fun he => hp (by rw [hparent, he])
    have hx : t.Seen x := h.path_seen x ((mem_path hs).mpr (Or.inl rfl))
    have hedge : (G.deleteEdges {s(x, y)}).Adj x f.1 :=
      deleteEdges_adj_of_mem (h.parent_adj x f.1 hx hparent).2.symm
        (Or.inr ⟨fun he => h.not_mem_below hs (he ▸ hy), hfy.symm⟩)
    have hrest : (G.deleteEdges {s(x, y)}).Reachable f.1 y :=
      (h.reachable_below hs List.mem_cons_self hy).mono
        (within_le_deleteEdges (Or.inl (h.not_mem_below hs)))
    exact hedge.reachable.trans hrest

/-- Alone on the stack, a vertex has no neighbour discovered before it, and neither has
    what was discovered since. -/
theorem Forest.adj_mem_since (h : Forest G t) (hs : t.stack = [(x, rest)]) {y z : α}
    (hy : y ∈ t.since x) (hyz : G.Adj y z) (hz : t.Seen z) : z ∈ t.since x := by
  refine ⟨hz, ?_⟩
  by_contra hlt
  have hx : x ∈ t.path := (mem_path hs).mpr (Or.inl rfl)
  have hzp : z ∉ t.path := by
    rw [mem_path hs, not_or]
    exact ⟨fun he => hlt (he ▸ le_rfl), List.not_mem_nil⟩
  exact absurd (h.closed x hx z hz hzp (not_le.mp hlt) y hyz.symm) (not_lt.mpr hy.2)

/-- A root with a discovered neighbour and one that is not cuts the graph. -/
theorem Forest.cuts_root (h : Forest G t) (hs : t.stack = [(x, rest)]) {a b : α}
    (ha : a ∈ t.since x) (hxa : G.Adj x a) (hxb : G.Adj x b) (hb : ¬ t.Seen b) : Cuts G x := by
  refine ⟨a, b, hxa, hxb, ?_⟩
  intro hreach
  have hclosed : ∀ y ∈ {y | y ∈ t.since x ∧ y ≠ x}, ∀ z, (G.deleteIncidenceSet x).Adj y z →
      z ∈ {y | y ∈ t.since x ∧ y ≠ x} := by
    intro y hy z hyz
    rw [deleteIncidenceSet_adj] at hyz
    have hyp : y ∉ t.path := by
      rw [mem_path hs, not_or]
      exact ⟨hy.2, List.not_mem_nil⟩
    exact ⟨h.adj_mem_since hs hy.1 hyz.1 (h.finished y hy.1.1 hyp z hyz.1), hyz.2.2⟩
  exact hb (mem_of_reachable hclosed hreach ⟨ha, hxa.ne'⟩).1.1

/-- Where all that was discovered since `v` gets around it, `v` does not cut the graph. -/
theorem Forest.not_cuts (h : Forest G t) (hs : t.stack = (v, []) :: (u, rest) :: below)
    (hv : ∀ y ∈ t.since v, y ≠ v → (G.deleteIncidenceSet v).Reachable y u) : ¬ Cuts G v := by
  rintro ⟨a, b, ha, hb, hab⟩
  have hreach : ∀ c, G.Adj v c → (G.deleteIncidenceSet v).Reachable c u := by
    intro c hc
    have hvs : v ∈ t.since v := ⟨h.path_seen v ((mem_path hs).mpr (Or.inl rfl)), le_rfl⟩
    by_cases hcs : c ∈ t.since v
    · exact hv c hcs hc.ne'
    · have hcb := (h.mem_below_of_adj hs hvs hc hcs).1
      exact (h.reachable_below hs hcb List.mem_cons_self).mono
        (within_le_deleteIncidenceSet (h.not_mem_below hs))
  exact hab ((hreach a ha).trans (hreach b hb).symm)

end Top

/-! ### When a vertex is left -/

section Leave

variable {u v q : α} {rest : List α} {below : List (α × List α)} (h : LowLink G s)
  (hs : s.stack = (v, []) :: (u, rest) :: below)
include h hs

theorem LowLink.num_lt : s.num u < s.num v :=
  h.forest.num_lt_top hs List.mem_cons_self

theorem LowLink.not_mem_since : u ∉ s.since v :=
  fun hu => absurd (h.num_lt hs) (not_lt.mpr hu.2)

theorem LowLink.seen_top : s.Seen v :=
  h.forest.path_seen v ((Forest.mem_path hs).mpr (Or.inl rfl))

theorem LowLink.self_mem_since : v ∈ s.since v :=
  ⟨h.seen_top hs, le_rfl⟩

theorem LowLink.adj_parent : G.Adj u v :=
  (h.forest.parent_adj v u (h.seen_top hs) (h.forest.parent_top hs)).2

theorem LowLink.reachable_since {y z : α} (hy : y ∈ s.since v) (hz : z ∈ s.since v) :
    (within G (s.since v)).Reachable y z := by
  have hv : v ∈ s.path := (Forest.mem_path hs).mpr (Or.inl rfl)
  exact (h.forest.branch v hv y hy).symm.trans (h.forest.branch v hv z hz)

/-- An edge that leaves the subtree of `v` is the edge to its parent, or its end has been
    taken into account by the low number of `v`. -/
theorem LowLink.low_le_of_adj {y z : α} (hy : y ∈ s.since v) (hyz : G.Adj y z)
    (hz : z ∉ s.since v) (hne : y ≠ v ∨ z ≠ u) : s.low v ≤ s.num z := by
  have htop : (v, []) ∈ s.stack := by
    rw [hs]
    exact List.mem_cons_self
  have hv : v ∈ s.path := (Forest.mem_path hs).mpr (Or.inl rfl)
  have hsettled := h.forest.settled_top hs
  refine h.least (v, []) htop y (hsettled ▸ hy) z hyz (fun _ => List.not_mem_nil) ?_
  intro hp
  by_cases hyv : y = v
  · subst hyv
    rw [h.forest.parent_top hs] at hp
    exact hne.elim (fun hn => hn rfl) fun hn => hn (Option.some.inj hp).symm
  · have hlt : s.num v < s.num y :=
      lt_of_le_of_ne hy.2 fun he => hyv (h.forest.inj v y (h.seen_top hs) hy.1 he).symm
    obtain ⟨p, hp', hle⟩ := h.forest.later_parent v hv y hy.1 hlt
    obtain rfl : z = p := Option.some.inj (hp.symm.trans hp')
    exact hz ⟨(h.forest.parent_adj y z hy.1 hp).1, hle⟩

/-- A low number below the number of `v` is that of a vertex of the stack, reached by an
    edge other than the one to the parent. -/
theorem LowLink.exists_adj_of_low_lt (hlow : s.low v < s.num v) :
    ∃ y ∈ s.since v, ∃ z ∈ ((u, rest) :: below).map (·.1), G.Adj y z ∧ s.parent y ≠ some z ∧
      s.num z = s.low v := by
  have hv : v ∈ s.path := (Forest.mem_path hs).mpr (Or.inl rfl)
  rcases h.attained v hv with heq | ⟨y, hy, z, hyz, _, hp, hz⟩
  · exact absurd heq hlow.ne
  · have hzs : z ∉ s.since v := by
      intro hzs
      rw [← hz] at hlow
      exact absurd hlow (not_lt.mpr hzs.2)
    exact ⟨y, hy, z, (h.forest.mem_below_of_adj hs hy hyz hzs).1, hyz, hp, hz⟩

theorem LowLink.num_le_of_mem {z : α} (hz : z ∈ ((u, rest) :: below).map (·.1)) :
    s.num z ≤ s.num u := by
  rcases List.mem_cons.mp hz with rfl | hz
  · exact le_rfl
  · exact ((h.forest.leave hs).num_lt_top rfl hz).le

theorem LowLink.num_lt_low_iff_isBridge : s.num u < s.low v ↔ G.IsBridge s(u, v) := by
  rw [isBridge_iff]
  constructor
  · intro hlow hreach
    have hclosed : ∀ y ∈ s.since v, ∀ z, (G.deleteEdges {s(u, v)}).Adj y z → z ∈ s.since v := by
      intro y hy z hyz
      rw [deleteEdges_adj, Set.mem_singleton_iff] at hyz
      by_contra hz
      have hle := h.num_le_of_mem hs (h.forest.mem_below_of_adj hs hy hyz.1 hz).1
      have hlow' : s.low v ≤ s.num z := by
        refine h.low_le_of_adj hs hy hyz.1 hz ?_
        by_contra hn
        rw [not_or, not_not, not_not] at hn
        exact hyz.2 (by rw [hn.1, hn.2, Sym2.eq_swap])
      omega
    exact h.not_mem_since hs (mem_of_reachable hclosed hreach.symm (h.self_mem_since hs))
  · intro hbridge
    by_contra hlow
    have hlt : s.low v < s.num v := lt_of_le_of_lt (not_lt.mp hlow) (h.num_lt hs)
    obtain ⟨y, hy, z, hz, hyz, hp, _⟩ := h.exists_adj_of_low_lt hs hlt
    have hu : u ∈ ((u, rest) :: below).map (·.1) := List.mem_cons_self
    have hvz : v ≠ z := fun he => h.forest.not_mem_below hs (he ▸ hz)
    have hedge : (G.deleteEdges {s(u, v)}).Adj z y := by
      rw [deleteEdges_adj, Set.mem_singleton_iff]
      refine ⟨hyz.symm, ?_⟩
      intro he
      rcases Sym2.eq_iff.mp he with ⟨rfl, rfl⟩ | ⟨rfl, _⟩
      · exact hp (h.forest.parent_top hs)
      · exact hvz rfl
    have hstack : (G.deleteEdges {s(u, v)}).Reachable u z :=
      (h.forest.reachable_below hs hu hz).mono
        (within_le_deleteEdges (Or.inr (h.forest.not_mem_below hs)))
    have htree : (G.deleteEdges {s(u, v)}).Reachable y v :=
      (h.reachable_since hs hy (h.self_mem_since hs)).mono
        (within_le_deleteEdges (Or.inl (h.not_mem_since hs)))
    exact hbridge ((hstack.trans hedge.reachable).trans htree)

/-- A vertex that some child cannot get around cuts the graph. -/
theorem LowLink.cuts_of_le_low (hq : s.parent u = some q) (hlow : s.num u ≤ s.low v) :
    Cuts G u := by
  obtain ⟨r, bs, rfl⟩ := (h.forest.leave hs).below_of_parent rfl hq
  have hu : s.Seen u := h.forest.path_seen u ((Forest.mem_path hs).mpr (Or.inr List.mem_cons_self))
  refine ⟨v, q, h.adj_parent hs, (h.forest.parent_adj u q hu hq).2.symm, ?_⟩
  intro hreach
  have hclosed : ∀ y ∈ s.since v, ∀ z, (G.deleteIncidenceSet u).Adj y z → z ∈ s.since v := by
    intro y hy z hyz
    rw [deleteIncidenceSet_adj] at hyz
    by_contra hz
    have hle := h.low_le_of_adj hs hy hyz.1 hz (Or.inr hyz.2.2)
    have hmem := (h.forest.mem_below_of_adj hs hy hyz.1 hz).1
    have hlt := (h.forest.leave hs).num_lt_top rfl ((List.mem_cons.mp hmem).resolve_left hyz.2.2)
    have hlt' : s.num z < s.num u := hlt
    omega
  have hqs := mem_of_reachable hclosed hreach (h.self_mem_since hs)
  have hqu := (h.forest.leave hs).num_lt_top rfl (List.mem_cons_self)
  have hqu' : s.num q < s.num u := hqu
  have huv := h.num_lt hs
  have hvq := hqs.2
  omega

/-- The subtree of a child that gets around `u` is connected to the parent of `u` without it. -/
theorem LowLink.reachable_of_low_lt (hq : s.parent u = some q) (hlow : s.low v < s.num u) {y : α}
    (hy : y ∈ s.since v) : (G.deleteIncidenceSet u).Reachable y q := by
  obtain ⟨r, bs, rfl⟩ := (h.forest.leave hs).below_of_parent rfl hq
  obtain ⟨w, hw, z, hz, hwz, _, hzl⟩ := h.exists_adj_of_low_lt hs (hlow.trans (h.num_lt hs))
  have hzu : z ≠ u := by
    rintro rfl
    exact absurd hzl hlow.ne'
  have hwu : w ≠ u := by
    rintro rfl
    exact h.not_mem_since hs hw
  have hzb := (List.mem_cons.mp hz).resolve_left hzu
  have htree := (h.reachable_since hs hy hw).mono
    (within_le_deleteIncidenceSet (h.not_mem_since hs))
  have hedge : (G.deleteIncidenceSet u).Adj w z := deleteIncidenceSet_adj.mpr ⟨hwz, hwu, hzu⟩
  have hstack := ((h.forest.leave hs).reachable_below rfl hzb List.mem_cons_self).mono
    (within_le_deleteIncidenceSet ((h.forest.leave hs).not_mem_below rfl))
  exact (htree.trans hedge.reachable).trans hstack

end Leave

/-! ### The steps of a traversal keep the low numbers exact -/

section Steps

variable [DecidableEq α] {p : Option α} {x y u v : α} {nbrs rest : List α}
  {below : List (α × List α)}

def Search.discover (s : Search α) (p : Option α) (x : α) (nbrs : List α)
    (below : List (α × List α)) : Search α where
  toTraversal := s.toTraversal.discover p x nbrs below
  low := Function.update s.low x s.timer

/-- The top of the stack has visited `y` and takes its number into account. -/
def Search.lower (s : Search α) (x : α) (k : Nat) (stack : List (α × List α)) : Search α where
  toTraversal := { s.toTraversal with stack }
  low := Function.update s.low x (min (s.low x) k)

theorem LowLink.discover (h : LowLink G s) (he : Enters G s.toTraversal p x nbrs below) :
    LowLink G (s.discover p x nbrs below) := by
  have hf := h.forest
  have hpath := he.path_discover
  have hlow : ∀ y, s.Seen y → (s.discover p x nbrs below).low y = s.low y :=
    fun y hy => Function.update_of_ne (he.ne_of_seen hy) _ _
  have hself : (s.discover p x nbrs below).low x = s.timer := Function.update_self _ _ _
  constructor
  case forest => exact hf.discover he
  case low_le =>
    intro y hy
    rcases List.mem_cons.mp (hpath ▸ hy) with rfl | hy
    · exact (hself.trans num_discover_self.symm).le
    · have hys := hf.path_seen y hy
      rw [hlow y hys]
      exact (h.low_le y hy).trans (he.num_of_seen hys).ge
  case attained =>
    intro y hy
    rcases List.mem_cons.mp (hpath ▸ hy) with rfl | hy
    · exact Or.inl (hself.trans num_discover_self.symm)
    · have hys := hf.path_seen y hy
      rcases h.attained y hy with heq | ⟨w, hw, z, hwz, hz, hwp, hzl⟩
      · left
        rw [hlow y hys, heq]
        exact (he.num_of_seen hys).symm
      · right
        refine ⟨w, ?_, z, hwz, seen_discover.mpr (Or.inr hz), ?_, ?_⟩
        · exact (he.since_discover hf hys).symm ▸ Or.inr hw
        · exact fun hp => hwp ((he.parent_of_seen hw.1).symm.trans hp)
        · rw [hlow y hys, ← hzl]
          exact he.num_of_seen hz
  case least =>
    intro f hfs w hw z hwz hnz hwp
    rcases List.mem_cons.mp hfs with rfl | hfb
    · have hwx : w = x := he.settled_self hf hw
      exact absurd ((he.nbrs z).mpr (hwx ▸ hwz)) (hnz hwx)
    · have hfp : f.1 ∈ s.path := by
        rw [← he.path]
        exact List.mem_map_of_mem hfb
      have hfseen := hf.path_seen f.1 hfp
      have hws : w ∈ s.settled f.1 := (he.settled_discover hf hfp) ▸ hw
      rw [hlow f.1 hfseen]
      by_cases hzx : z = x
      · subst hzx
        exact ((h.low_le f.1 hfp).trans (hf.lt_timer f.1 hfseen).le).trans num_discover_self.ge
      · obtain ⟨g, hg, hgf, hsub⟩ := he.frames f hfb
        have hzg : w = g.1 → z ∉ g.2 :=
          fun hwg hzg => (hsub z hzg).elim hzx (hnz (hwg.trans hgf))
        have hwp' : s.parent w ≠ some z := fun hp => hwp ((he.parent_of_seen hws.1.1).trans hp)
        have hle := h.least g hg w (hgf ▸ hws) z hwz hzg hwp'
        rw [hgf] at hle
        exact hle.trans (num_discover_of_ne hzx).ge

/-- A neighbour that has been discovered is visited: the one to the parent changes nothing,
    any other takes part in the low number. -/
theorem LowLink.visit (h : LowLink G s) (hs : s.stack = (x, y :: rest) :: below)
    (hy : s.Seen y) {k : Nat} (hk : s.parent x = some y ∧ k = s.low x ∨
      s.parent x ≠ some y ∧ k = s.num y) :
    LowLink G (s.lower x k ((x, rest) :: below)) := by
  have hf := h.forest
  have hfv := hf.visit hs hy
  have hx : x ∈ s.path := (Forest.mem_path hs).mpr (Or.inl rfl)
  have hpath : (s.lower x k ((x, rest) :: below)).path = s.path := by
    rw [path, path, hs]
    rfl
  have hself : (s.lower x k ((x, rest) :: below)).low x = min (s.low x) k :=
    Function.update_self _ _ _
  have hlow : ∀ z, z ≠ x → (s.lower x k ((x, rest) :: below)).low z = s.low z :=
    fun z hz => Function.update_of_ne hz _ _
  constructor
  case forest => exact hfv
  case low_le =>
    intro z hz
    rw [hpath] at hz
    by_cases hzx : z = x
    · subst hzx
      rw [hself]
      exact (min_le_left _ _).trans (h.low_le z hz)
    · rw [hlow z hzx]
      exact h.low_le z hz
  case attained =>
    intro z hz
    rw [hpath] at hz
    by_cases hzx : z = x
    · subst hzx
      rw [hself]
      rcases hk with ⟨_, rfl⟩ | ⟨hp, rfl⟩
      · rw [min_self]
        exact h.attained z hz
      · rcases min_choice (s.low z) (s.num y) with hmin | hmin
        · rw [hmin]
          exact h.attained z hz
        · rw [hmin]
          have htop : (z, y :: rest) ∈ s.stack := by
            rw [hs]
            exact List.mem_cons_self
          have hadj := hf.pending (z, y :: rest) htop y List.mem_cons_self
          exact Or.inr ⟨z, ⟨hf.path_seen z hz, le_rfl⟩, y, hadj, hy, hp, rfl⟩
    · rw [hlow z hzx]
      exact h.attained z hz
  case least =>
    intro f hfm w hw z hwz hnz hwp
    have hsettled : w ∈ s.settled f.1 := ⟨hw.1, hpath ▸ hw.2⟩
    rcases List.mem_cons.mp hfm with rfl | hfb
    · rw [hself]
      have htop : (x, y :: rest) ∈ s.stack := by
        rw [hs]
        exact List.mem_cons_self
      by_cases hzy : w = x ∧ z = y
      · obtain ⟨rfl, rfl⟩ := hzy
        rcases hk with ⟨hp, _⟩ | ⟨_, rfl⟩
        · exact absurd hp hwp
        · exact min_le_right _ _
      · refine (min_le_left _ _).trans (h.least (x, y :: rest) htop w hsettled z hwz ?_ hwp)
        intro hwx
        rw [List.mem_cons, not_or]
        exact ⟨fun hzy' => hzy ⟨hwx, hzy'⟩, hnz hwx⟩
    · have hne : f.1 ≠ x := by
        rintro rfl
        exact hf.not_mem_below hs (List.mem_map_of_mem hfb)
      have hfs : f ∈ s.stack := by
        rw [hs]
        exact List.mem_cons_of_mem _ hfb
      rw [hlow f.1 hne]
      exact h.least f hfs w hsettled z hwz hnz hwp

/-- A vertex that leaves the stack passes its low number on to its parent. -/
theorem LowLink.leave (h : LowLink G s) (hs : s.stack = (v, []) :: (u, rest) :: below) :
    LowLink G (s.lower u (s.low v) ((u, rest) :: below)) := by
  have hf := h.forest
  have huv := h.num_lt hs
  have hself : (s.lower u (s.low v) ((u, rest) :: below)).low u = min (s.low u) (s.low v) :=
    Function.update_self _ _ _
  have hlow : ∀ z, z ≠ u → (s.lower u (s.low v) ((u, rest) :: below)).low z = s.low z :=
    fun z hz => Function.update_of_ne hz _ _
  have hv : v ∈ s.path := (Forest.mem_path hs).mpr (Or.inl rfl)
  have hsub : ∀ z ∈ (s.lower u (s.low v) ((u, rest) :: below)).path, z ∈ s.path :=
    fun z hz => (Forest.mem_path hs).mpr (Or.inr hz)
  constructor
  case forest => exact hf.leave hs
  case low_le =>
    intro z hz
    by_cases hzu : z = u
    · subst hzu
      rw [hself]
      exact (min_le_left _ _).trans (h.low_le z (hsub z hz))
    · rw [hlow z hzu]
      exact h.low_le z (hsub z hz)
  case attained =>
    intro z hz
    by_cases hzu : z = u
    · subst hzu
      rw [hself]
      rcases min_choice (s.low z) (s.low v) with hmin | hmin
      · rw [hmin]
        exact h.attained z (hsub z hz)
      · rw [hmin]
        have hle := h.low_le z (hsub z hz)
        have hmin' : s.low v ≤ s.low z := min_eq_right_iff.mp hmin
        rcases h.attained v hv with heq | ⟨y, hy, w, hyw, hws, hp, hw⟩
        · omega
        · exact Or.inr ⟨y, ⟨hy.1, huv.le.trans hy.2⟩, w, hyw, hws, hp, hw⟩
    · rw [hlow z hzu]
      exact h.attained z (hsub z hz)
  case least =>
    intro f hfm w hw z hwz hnz hwp
    have hfs : f ∈ s.stack := by
      rw [hs]
      exact List.mem_cons_of_mem _ hfm
    rcases List.mem_cons.mp hfm with rfl | hfb
    · rw [hself]
      rcases (hf.settled_leave hs ▸ hw : w ∈ s.settled u ∪ s.since v) with hwu | hwv
      · exact (min_le_left _ _).trans (h.least (u, rest) hfs w hwu z hwz hnz hwp)
      · have htop : (v, []) ∈ s.stack := by
          rw [hs]
          exact List.mem_cons_self
        have hwv' : w ∈ s.settled v := (hf.settled_top hs).symm ▸ hwv
        exact (min_le_right _ _).trans
          (h.least (v, []) htop w hwv' z hwz (fun _ => List.not_mem_nil) hwp)
    · have hfb' : f.1 ∈ below.map (·.1) := List.mem_map_of_mem hfb
      have hne : f.1 ≠ u := by
        intro he
        exact (hf.leave hs).not_mem_below rfl (he ▸ hfb')
      rw [hlow f.1 hne]
      exact h.least f hfs w (hf.settled_leave_below hs hfb' ▸ hw) z hwz hnz hwp

end Steps

end Srp.Lib.DepthFirst
