/-
  Srp/Netdisco/Tarjan.lean
  ========================
  **Single points of failure** (`_tarjan`, `find_articulation_points` and
  `find_bridges` of `server/netdisco/graph.py`).

  One depth-first pass over the adjacency collects the cut vertices and the bridges from
  the discovery and low numbers.  `Dfs` is the state of the pass: the dictionaries
  `disc`, `low` and `parent`, the timer, the stack of half-consumed iterators, the two
  result sets and the children counted for the current start.

  What the numbers decide is proved for every graph in `Srp.Lib.LowLink`; here the sets
  are followed along the pass.  Neither the order of the devices nor that of the
  neighbours matters, and the pass ends (`articulation_points_exact`, `bridges_exact`).
-/
import Srp.Lib.LowLink
import Srp.Netdisco.Graph

namespace Srp.Netdisco

open SimpleGraph Srp.Lib.Cut Srp.Lib.DepthFirst

/-! ### The pass -/

structure Dfs extends Search String where
  points : List String
  bridges : List (Sym2 String)
  rootChildren : Nat

/-- One turn of the pass from `start`: the iterator on top of the stack yields its next
    neighbour, or is used up and its node is popped. -/
def turn (adj : Adjacency) (start : String) (s : Dfs) : Dfs :=
  match s.stack with
  | [] => s
  | (node, nbr :: it) :: stack =>
    -- the single edge back to the parent, not a back edge
    if s.parent node = some nbr then { s with stack := (node, it) :: stack }
    else if s.disc nbr = none then
      { s with
        toSearch := s.toSearch.discover (some node) nbr (nbrs adj nbr) ((node, it) :: stack)
        rootChildren := if node = start then s.rootChildren + 1 else s.rootChildren }
    else { s with toSearch := s.toSearch.lower node (s.num nbr) ((node, it) :: stack) }
  | (node, []) :: stack =>
    match s.parent node with
    | none => { s with stack := stack }
    | some up =>
      { s with
        toSearch := s.toSearch.lower up (s.low node) stack
        bridges := if s.num up < s.low node then s.bridges.insert s(up, node) else s.bridges
        points := if up ≠ start ∧ s.num up ≤ s.low node then s.points.insert up else s.points }

/-- The `while stack` loop. -/
def traverse (adj : Adjacency) (start : String) : Nat → Dfs → Option Dfs
  | 0, _ => none
  | fuel + 1, s => if s.stack = [] then some s else traverse adj start fuel (turn adj start s)

/-- Every neighbour list is consumed once and every node popped once. -/
def turns (adj : Adjacency) : Nat := (adj.map fun e => e.2.length + 1).sum

/-- The body of the loop over the starts. -/
def visitFrom (adj : Adjacency) (s : Dfs) (start : String) : Option Dfs :=
  if s.disc start ≠ none then some s
  else
    let s := { s with
      toSearch := s.toSearch.discover none start (nbrs adj start) []
      rootChildren := 0 }
    (traverse adj start (turns adj + 1) s).map fun s =>
      if s.rootChildren > 1 then { s with points := s.points.insert start } else s

def Dfs.empty : Dfs :=
  { fresh with low := fun _ => 0, points := [], bridges := [], rootChildren := 0 }

def tarjan (adj : Adjacency) : Option (List String × List (Sym2 String)) :=
  ((adj.map (·.1)).foldlM (visitFrom adj) Dfs.empty).map fun s => (s.points, s.bridges)

def findArticulationPoints (g : Graph) : Option (List String) :=
  (tarjan g.adjacency).map (·.1)

def findBridges (g : Graph) : Option (List (Sym2 String)) :=
  (tarjan g.adjacency).map (·.2)

/-! ### What one turn does -/

inductive Turn (adj : Adjacency) (start : String) (s : Dfs) : Dfs → Prop
  | revisit {node nbr : String} {it : List String} {stack : List (String × List String)} {k : Nat} :
    s.stack = (node, nbr :: it) :: stack → s.Seen nbr →
    (s.parent node = some nbr ∧ k = s.low node ∨ s.parent node ≠ some nbr ∧ k = s.num nbr) →
    Turn adj start s { s with toSearch := s.toSearch.lower node k ((node, it) :: stack) }
  | descend {node nbr : String} {it : List String} {stack : List (String × List String)} :
    s.stack = (node, nbr :: it) :: stack → ¬ s.Seen nbr →
    Turn adj start s { s with
      toSearch := s.toSearch.discover (some node) nbr (nbrs adj nbr) ((node, it) :: stack)
      rootChildren := if node = start then s.rootChildren + 1 else s.rootChildren }
  | pop {node up : String} {rest : List String} {stack : List (String × List String)} :
    s.stack = (node, []) :: (up, rest) :: stack →
    Turn adj start s { s with
      toSearch := s.toSearch.lower up (s.low node) ((up, rest) :: stack)
      bridges := if s.num up < s.low node then s.bridges.insert s(up, node) else s.bridges
      points := if up ≠ start ∧ s.num up ≤ s.low node then s.points.insert up else s.points }
  | root {node : String} : s.stack = [(node, [])] → s.parent node = none →
    Turn adj start s { s with stack := [] }

variable {g : Graph} {start : String} {s s' : Dfs}

theorem turn_spec (h : LowLink g.toSimpleGraph s.toSearch) (hs : s.stack ≠ []) :
    Turn g.adjacency start s (turn g.adjacency start s) := by
  unfold turn
  cases hstack : s.stack with
  | nil => exact absurd hstack hs
  | cons f stack =>
    obtain ⟨node, it⟩ := f
    have hnode : s.Seen node := h.forest.path_seen node ((Forest.mem_path hstack).mpr (Or.inl rfl))
    cases it with
    | cons nbr it =>
      by_cases hp : s.parent node = some nbr
      · simp only [hp, if_true]
        have hrevisit : Turn g.adjacency start s _ :=
          Turn.revisit hstack (h.forest.parent_adj node nbr hnode hp).1 (Or.inl ⟨hp, rfl⟩)
        simpa [Search.lower] using hrevisit
      · by_cases hn : s.disc nbr = none
        · simp only [hp, hn, if_true, if_false]
          exact Turn.descend hstack (not_not.mpr hn)
        · simp only [hp, hn, if_false]
          exact Turn.revisit hstack hn (Or.inr ⟨hp, rfl⟩)
    | nil =>
      cases hp : s.parent node with
      | none =>
        rcases h.forest.parent_or_root hstack with ⟨q, hq⟩ | hroot
        · rw [hp] at hq
          cases hq
        · cases stack with
          | nil => simpa [hp] using Turn.root hstack hp
          | cons f stack =>
            have := h.forest.parent_top hstack
            rw [hp] at this
            cases this
      | some up =>
        obtain ⟨rest, stack, rfl⟩ := h.forest.below_of_parent hstack hp
        simpa [hp] using Turn.pop hstack

/-- The iterator on top of the stack has just yielded an undiscovered neighbour. -/
theorem enters_descend (h : Forest g.toSimpleGraph s.toTraversal) {node nbr : String}
    {it : List String} {stack : List (String × List String)}
    (hs : s.stack = (node, nbr :: it) :: stack) (hn : ¬ s.Seen nbr) :
    Enters g.toSimpleGraph s.toTraversal (some node) nbr (nbrs g.adjacency nbr)
      ((node, it) :: stack) := by
  have hpending : ∀ y ∈ nbr :: it, g.toSimpleGraph.Adj node y := by
    refine h.pending (node, nbr :: it) ?_
    rw [hs]
    exact List.mem_cons_self
  constructor
  case path =>
    rw [Traversal.path, hs]
    rfl
  case top =>
    rw [Traversal.path, hs]
    rfl
  case unseen => exact hn
  case adj =>
    intro t ht
    rw [← Option.some.inj ht]
    exact hpending nbr List.mem_cons_self
  case nbrs => exact fun _ => Iff.rfl
  case frames =>
    intro f hf
    rw [hs]
    rcases List.mem_cons.mp hf with rfl | hf
    · exact ⟨_, List.mem_cons_self, rfl, fun y hy => List.mem_cons.mp hy⟩
    · exact ⟨f, List.mem_cons_of_mem _ hf, rfl, fun _ hy => Or.inr hy⟩
  case pending =>
    intro f hf y hy
    rcases List.mem_cons.mp hf with rfl | hf
    · exact hpending y (List.mem_cons_of_mem nbr hy)
    · refine h.pending f ?_ y hy
      rw [hs]
      exact List.mem_cons_of_mem _ hf

theorem enters_start (hs : s.stack = []) (hn : ¬ s.Seen start) :
    Enters g.toSimpleGraph s.toTraversal none start (nbrs g.adjacency start) [] where
  path := by rw [Traversal.path, hs]
  top := by rw [Traversal.path, hs]; rfl
  unseen := hn
  adj _ ht := by cases ht
  nbrs _ := Iff.rfl
  frames _ hf := by cases hf
  pending _ hf := by cases hf

theorem Turn.lowLink (h : LowLink g.toSimpleGraph s.toSearch) (ht : Turn g.adjacency start s s') :
    LowLink g.toSimpleGraph s'.toSearch := by
  cases ht with
  | revisit hs hn hk => exact h.visit hs hn hk
  | descend hs hn => exact h.discover (enters_descend h.forest hs hn)
  | pop hs => exact h.leave hs
  | root hs _ => exact h.leave_root hs

/-! ### The bridges -/

/-- Every edge visited so far is in the set exactly when it is a bridge. -/
structure BridgesOk (G : SimpleGraph String) (s : Dfs) : Prop where
  sound : ∀ e ∈ s.bridges, e ∈ G.edgeSet ∧ G.IsBridge e
  tree : ∀ x u, s.Seen x → x ∉ s.path → s.parent x = some u →
    s(u, x) ∈ s.bridges ∨ ¬ G.IsBridge s(u, x)
  back : ∀ x y, s.Seen x → G.Adj x y → (∀ f ∈ s.stack, f.1 = x → y ∉ f.2) → s.num y < s.num x →
    s.parent x = some y ∨ ¬ G.IsBridge s(x, y)

/-- A vertex is entered: nothing is collected. -/
theorem BridgesOk.discover (h : BridgesOk g.toSimpleGraph s)
    (hf : Forest g.toSimpleGraph s.toTraversal) {p : Option String} {x : String}
    {ns : List String} {below : List (String × List String)}
    (he : Enters g.toSimpleGraph s.toTraversal p x ns below) (k : Nat) :
    BridgesOk g.toSimpleGraph
      { s with toSearch := s.toSearch.discover p x ns below, rootChildren := k } where
  sound := h.sound
  tree y u hy hyp hu := by
    have hpath : (s.toTraversal.discover p x ns below).path = x :: s.path := he.path_discover
    have hyp' : y ∉ x :: s.path := hpath ▸ hyp
    rw [List.mem_cons, not_or] at hyp'
    have hys : s.Seen y := (Traversal.seen_discover.mp hy).resolve_left hyp'.1
    exact h.tree y u hys hyp'.2 ((he.parent_of_seen hys).symm.trans hu)
  back y z hy hyz hvisited hlt := by
    rcases Traversal.seen_discover.mp hy with rfl | hys
    · exact absurd ((he.nbrs z).mpr hyz) (hvisited (y, ns) List.mem_cons_self rfl)
    · have hzx : z ≠ x := by
        rintro rfl
        exact absurd hlt (he.num_lt hf hys).asymm
      have hlt' : s.num z < s.num y :=
        (Traversal.num_discover_of_ne hzx).symm.trans_lt (hlt.trans_eq (he.num_of_seen hys))
      have hold := h.back y z hys hyz ?_ hlt'
      · rcases hold with hp | hn
        · exact Or.inl ((he.parent_of_seen hys).trans hp)
        · exact Or.inr hn
      · intro f hfs hfy hzf
        obtain ⟨f', hf', hfirst, hsub⟩ := he.frame_of_mem hf hfs
        have hz := hvisited f' (List.mem_cons_of_mem _ hf') (hfirst.trans hfy)
        exact (hsub z hzf).elim hzx hz

theorem BridgesOk.turn (h : BridgesOk g.toSimpleGraph s) (hl : LowLink g.toSimpleGraph s.toSearch)
    (ht : Turn g.adjacency start s s') : BridgesOk g.toSimpleGraph s' := by
  cases ht with
  | descend hs hn => exact h.discover hl.forest (enters_descend hl.forest hs hn) _
  | @revisit node nbr it stack k hs hn hk =>
    have hnode : node ∈ s.path := (Forest.mem_path hs).mpr (Or.inl rfl)
    have hpath : (s.toSearch.lower node k ((node, it) :: stack)).path = s.path := by
      rw [Traversal.path, Traversal.path, hs]
      rfl
    constructor
    case sound => exact h.sound
    case tree => exact fun x u hx hxp => h.tree x u hx (hpath ▸ hxp)
    case back =>
      intro x y hx hxy hvisited hlt
      by_cases hnew : x = node ∧ y = nbr
      · obtain ⟨rfl, rfl⟩ := hnew
        by_cases hp : s.parent x = some y
        · exact Or.inl hp
        · have hlt' : s.num y < s.num x := hlt
          have hyp : y ∈ s.path := by
            by_contra hyp
            exact absurd (hl.forest.closed x hnode y hn hyp hlt' x hxy.symm) (lt_irrefl _)
          rcases (Forest.mem_path hs).mp hyp with rfl | hyb
          · exact absurd hlt' (lt_irrefl _)
          · exact Or.inr (hl.forest.not_isBridge_back hs hyb hp)
      · refine h.back x y hx hxy ?_ hlt
        rw [hs]
        intro f hf hfx
        rcases List.mem_cons.mp hf with rfl | hf
        · rw [List.mem_cons, not_or]
          exact ⟨fun hy => hnew ⟨hfx.symm, hy⟩, hvisited (node, it) List.mem_cons_self hfx⟩
        · exact hvisited f (List.mem_cons_of_mem _ hf) hfx
  | @pop node up rest stack hs =>
    have hiff := hl.num_lt_low_iff_isBridge hs
    constructor
    case sound =>
      intro e he
      by_cases hlow : s.num up < s.low node
      · simp only [hlow, if_true, List.mem_insert_iff] at he
        rcases he with rfl | he
        · exact ⟨hl.adj_parent hs, hiff.mp hlow⟩
        · exact h.sound e he
      · simp only [hlow, if_false] at he
        exact h.sound e he
    case tree =>
      intro x u hx hxp hu
      by_cases hxn : x = node
      · subst hxn
        obtain rfl : up = u := Option.some.inj ((hl.forest.parent_top hs).symm.trans hu)
        by_cases hlow : s.num up < s.low x
        · simp [hlow]
        · exact Or.inr fun hb => hlow (hiff.mpr hb)
      · have hxp' : x ∉ s.path := by
          rw [Forest.mem_path hs, not_or]
          exact ⟨hxn, hxp⟩
        rcases h.tree x u hx hxp' hu with hmem | hn
        · left
          by_cases hlow : s.num up < s.low node
          · simp [hlow, hmem]
          · simpa [hlow] using hmem
        · exact Or.inr hn
    case back =>
      intro x y hx hxy hvisited hlt
      refine h.back x y hx hxy ?_ hlt
      rw [hs]
      intro f hf hfx
      rcases List.mem_cons.mp hf with rfl | hf
      · exact List.not_mem_nil
      · exact hvisited f hf hfx
  | @root node hs hp =>
    constructor
    case sound => exact h.sound
    case tree =>
      intro x u hx hxp hu
      refine h.tree x u hx ?_ hu
      rw [Forest.mem_path hs, not_or]
      refine ⟨?_, List.not_mem_nil⟩
      rintro rfl
      have hu' : s.parent x = some u := hu
      rw [hp] at hu'
      cases hu'
    case back =>
      intro x y hx hxy hvisited hlt
      refine h.back x y hx hxy ?_ hlt
      rw [hs]
      intro f hf hfx
      rw [List.mem_singleton.mp hf]
      exact List.not_mem_nil

/-- With an empty stack the set holds exactly the bridges between discovered nodes. -/
theorem BridgesOk.mem_iff (h : BridgesOk g.toSimpleGraph s)
    (hf : Forest g.toSimpleGraph s.toTraversal) (hs : s.stack = []) {a b : String}
    (ha : g.toSimpleGraph.Adj a b → s.Seen a ∧ s.Seen b) :
    s(a, b) ∈ s.bridges ↔ g.toSimpleGraph.Adj a b ∧ g.toSimpleGraph.IsBridge s(a, b) := by
  have hpath : ∀ x, x ∉ s.path := by
    rw [Traversal.path, hs]
    exact fun _ => List.not_mem_nil
  have hlater : ∀ x y, s.Seen x → g.toSimpleGraph.Adj x y → g.toSimpleGraph.IsBridge s(x, y) →
      s.num y < s.num x → s(y, x) ∈ s.bridges := by
    intro x y hx hxy hb hlt
    have hback := h.back x y hx hxy ?_ hlt
    · have hp := hback.resolve_right (not_not.mpr hb)
      refine (h.tree x y hx (hpath x) hp).resolve_right (not_not.mpr ?_)
      rwa [Sym2.eq_swap]
    · rw [hs]
      intro f hf
      cases hf
  constructor
  · exact fun he => h.sound _ he
  · rintro ⟨hab, hb⟩
    obtain ⟨has, hbs⟩ := ha hab
    have hne : s.num a ≠ s.num b := fun he => hab.ne (hf.inj a b has hbs he)
    rcases lt_or_gt_of_ne hne with hlt | hlt
    · refine hlater b a hbs hab.symm ?_ hlt
      rwa [Sym2.eq_swap]
    · rw [Sym2.eq_swap]
      exact hlater a b has hab hb hlt

/-! ### The children of the start -/

/-- What the number of children says of the start: with at most one, everything discovered
    since hangs together without it; with two or more it is a cut vertex. -/
structure RootOk (G : SimpleGraph String) (start : String) (s : Dfs) : Prop where
  seen : s.Seen start
  parent : s.parent start = none
  last : ∀ r ∈ s.path.getLast?, r = start
  none_since : s.rootChildren = 0 → s.since start ⊆ {start}
  one_since : s.rootChildren ≤ 1 → ∀ y ∈ s.since start, ∀ z ∈ s.since start, y ≠ start →
    z ≠ start → (G.deleteIncidenceSet start).Reachable y z
  child : 1 ≤ s.rootChildren → ∃ c ∈ s.since start, G.Adj start c
  cuts : 1 < s.rootChildren → Cuts G start
  left : s.stack = [] → s.rootChildren ≤ 1 → ¬ Cuts G start

theorem RootOk.mem_since (h : RootOk g.toSimpleGraph start s)
    (hf : Forest g.toSimpleGraph s.toTraversal) {x : String} (hx : x ∈ s.path) :
    x ∈ s.since start := by
  cases hlast : s.path.getLast? with
  | none =>
    rw [List.getLast?_eq_none_iff] at hlast
    rw [hlast] at hx
    cases hx
  | some r =>
    obtain rfl := h.last r hlast
    exact hf.mem_since_root hlast hx

theorem RootOk.enter (hf : Forest g.toSimpleGraph s.toTraversal) {ns : List String}
    (he : Enters g.toSimpleGraph s.toTraversal none start ns []) :
    RootOk g.toSimpleGraph start
      { s with toSearch := s.toSearch.discover none start ns [], rootChildren := 0 } := by
  have hsince : (s.toTraversal.discover none start ns []).since start = {start} :=
    he.since_self hf
  constructor
  case seen => exact Traversal.seen_discover.mpr (Or.inl rfl)
  case parent => exact Traversal.parent_discover_self
  case last =>
    intro r hr
    exact (Option.some.inj hr).symm
  case none_since => exact fun _ => hsince.subset
  case one_since =>
    intro _ y hy _ _ hys
    exact absurd (hsince.subset hy) hys
  case child => exact fun h => absurd h (Nat.not_succ_le_zero 0)
  case cuts => exact fun h => absurd h (Nat.not_lt_zero 1)
  case left => exact fun h => by cases h

theorem RootOk.descend (h : RootOk g.toSimpleGraph start s)
    (hf : Forest g.toSimpleGraph s.toTraversal) {node nbr : String} {it : List String}
    {stack : List (String × List String)} (hs : s.stack = (node, nbr :: it) :: stack)
    (hn : ¬ s.Seen nbr) :
    RootOk g.toSimpleGraph start { s with
      toSearch := s.toSearch.discover (some node) nbr (nbrs g.adjacency nbr) ((node, it) :: stack)
      rootChildren := if node = start then s.rootChildren + 1 else s.rootChildren } := by
  have he := enters_descend hf hs hn
  have hnode : node ∈ s.path := (Forest.mem_path hs).mpr (Or.inl rfl)
  have hnodes := h.mem_since hf hnode
  have hadj : g.toSimpleGraph.Adj node nbr := he.adj node rfl
  have hne : start ≠ nbr := he.ne_of_seen h.seen
  have hsince : (s.toTraversal.discover (some node) nbr (nbrs g.adjacency nbr)
      ((node, it) :: stack)).since start = insert nbr (s.since start) :=
    he.since_discover hf h.seen
  have hstack : node = start → s.stack = [(start, nbr :: it)] := by
    rintro rfl
    cases stack with
    | nil => exact hs
    | cons f stack =>
      have hp := hf.parent_top hs
      rw [h.parent] at hp
      cases hp
  constructor
  case seen => exact Traversal.seen_discover.mpr (Or.inr h.seen)
  case parent => exact (he.parent_of_seen h.seen).trans h.parent
  case last =>
    intro r hr
    refine h.last r ?_
    have hr' : r ∈ (nbr :: s.path).getLast? := he.path_discover ▸ hr
    rw [Traversal.path, hs, List.map_cons] at hr' ⊢
    rwa [List.getLast?_cons_cons] at hr'
  case none_since =>
    intro hzero
    by_cases hns : node = start
    · simp [hns] at hzero
    · simp only [hns, if_false] at hzero
      exact absurd (h.none_since hzero hnodes) hns
  case one_since =>
    intro hone y hy z hz hys hzs
    have hy' : y ∈ insert nbr (s.since start) := hsince ▸ hy
    have hz' : z ∈ insert nbr (s.since start) := hsince ▸ hz
    by_cases hns : node = start
    · -- the first child is the only other vertex
      simp only [hns, if_true] at hone
      have honly := h.none_since (by omega)
      have heq : ∀ w ∈ insert nbr (s.since start), w ≠ start → w = nbr :=
        fun w hw hws => hw.resolve_right fun hw => hws (honly hw)
      rw [heq y hy' hys, heq z hz' hzs]
    · simp only [hns, if_false] at hone
      have hedge : (g.toSimpleGraph.deleteIncidenceSet start).Adj node nbr :=
        deleteIncidenceSet_adj.mpr ⟨hadj, hns, hne.symm⟩
      have hto : ∀ w ∈ insert nbr (s.since start), w ≠ start →
          (g.toSimpleGraph.deleteIncidenceSet start).Reachable w node := by
        rintro w (rfl | hw) hws
        · exact hedge.symm.reachable
        · exact h.one_since hone w hw node hnodes hws hns
      exact (hto y hy' hys).trans (hto z hz' hzs).symm
  case child =>
    intro hpos
    by_cases hns : node = start
    · exact ⟨nbr, hsince.symm ▸ Or.inl rfl, hns ▸ hadj⟩
    · simp only [hns, if_false] at hpos
      obtain ⟨c, hc, hcadj⟩ := h.child hpos
      exact ⟨c, hsince.symm ▸ Or.inr hc, hcadj⟩
  case cuts =>
    intro hmany
    by_cases hns : node = start
    · simp only [hns, if_true] at hmany
      obtain ⟨c, hc, hcadj⟩ := h.child (by omega)
      exact hf.cuts_root (hstack hns) hc hcadj (hns ▸ hadj) hn
    · simp only [hns, if_false] at hmany
      exact h.cuts hmany
  case left => exact fun hnil => by cases hnil

theorem RootOk.turn (h : RootOk g.toSimpleGraph start s) (hl : LowLink g.toSimpleGraph s.toSearch)
    (ht : Turn g.adjacency start s s') : RootOk g.toSimpleGraph start s' := by
  cases ht with
  | descend hs hn => exact h.descend hl.forest hs hn
  | @revisit node nbr it stack k hs hn hk =>
    have hpath : (s.toSearch.lower node k ((node, it) :: stack)).path = s.path := by
      rw [Traversal.path, Traversal.path, hs]
      rfl
    refine ⟨h.seen, h.parent, ?_, h.none_since, h.one_since, h.child, h.cuts, ?_⟩
    · exact fun r hr => h.last r (hpath ▸ hr)
    · exact fun hnil => by cases hnil
  | @pop node up rest stack hs =>
    refine ⟨h.seen, h.parent, ?_, h.none_since, h.one_since, h.child, h.cuts, ?_⟩
    · intro r hr
      refine h.last r ?_
      rw [Traversal.path, hs, List.map_cons, List.map_cons, List.getLast?_cons_cons]
      exact hr
    · exact fun hnil => by cases hnil
  | @root node hs hp =>
    have hpath : s.path = [node] := by
      rw [Traversal.path, hs]
      rfl
    obtain rfl : node = start := by
      refine h.last node ?_
      rw [hpath]
      rfl
    refine ⟨h.seen, h.parent, ?_, h.none_since, h.one_since, h.child, h.cuts, ?_⟩
    · intro r hr
      cases hr
    · rintro _ hone ⟨a, b, ha, hb, hab⟩
      have hself : node ∈ s.since node := ⟨h.seen, le_rfl⟩
      have hmem : ∀ c, g.toSimpleGraph.Adj node c → c ∈ s.since node := by
        intro c hc
        refine hl.forest.adj_mem_since hs hself hc ?_
        refine hl.forest.visited (node, []) ?_ c hc List.not_mem_nil
        rw [hs]
        exact List.mem_cons_self
      exact hab (h.one_since hone a (hmem a ha) b (hmem b hb) ha.ne' hb.ne')

/-! ### The cut vertices -/

/-- Every node that has been left, the roots apart, is in the set exactly when it is a cut
    vertex, and what is settled for a node still on the stack and not in the set gets
    around it. -/
structure PointsOk (G : SimpleGraph String) (s : Dfs) : Prop where
  sound : ∀ p ∈ s.points, Cuts G p
  left : ∀ x u, s.Seen x → x ∉ s.path → s.parent x = some u → x ∈ s.points ∨ ¬ Cuts G x
  entered : ∀ x ∈ s.path, ∀ q, s.parent x = some q → x ∈ s.points ∨
    ∀ y ∈ s.settled x, y ≠ x → (G.deleteIncidenceSet x).Reachable y q

theorem PointsOk.discover (h : PointsOk g.toSimpleGraph s)
    (hf : Forest g.toSimpleGraph s.toTraversal) {p : Option String} {x : String}
    {ns : List String} {below : List (String × List String)}
    (he : Enters g.toSimpleGraph s.toTraversal p x ns below) (k : Nat) :
    PointsOk g.toSimpleGraph
      { s with toSearch := s.toSearch.discover p x ns below, rootChildren := k } := by
  have hpath : (s.toTraversal.discover p x ns below).path = x :: s.path := he.path_discover
  constructor
  case sound => exact h.sound
  case left =>
    intro y u hy hyp hu
    have hyp' : y ∉ x :: s.path := hpath ▸ hyp
    rw [List.mem_cons, not_or] at hyp'
    have hys : s.Seen y := (Traversal.seen_discover.mp hy).resolve_left hyp'.1
    exact h.left y u hys hyp'.2 ((he.parent_of_seen hys).symm.trans hu)
  case entered =>
    intro y hy q hq
    rcases List.mem_cons.mp (hpath ▸ hy) with rfl | hyp
    · exact Or.inr fun z hz hne => absurd (he.settled_self hf hz) hne
    · have hys := hf.path_seen y hyp
      have hq' : s.parent y = some q := (he.parent_of_seen hys).symm.trans hq
      refine (h.entered y hyp q hq').imp_right ?_
      intro hall z hz
      exact hall z (he.settled_discover hf hyp ▸ hz)

theorem PointsOk.turn (h : PointsOk g.toSimpleGraph s) (hl : LowLink g.toSimpleGraph s.toSearch)
    (hr : RootOk g.toSimpleGraph start s) (ht : Turn g.adjacency start s s') :
    PointsOk g.toSimpleGraph s' := by
  have hf := hl.forest
  cases ht with
  | descend hs hn => exact h.discover hf (enters_descend hf hs hn) _
  | @revisit node nbr it stack k hs hn hk =>
    have hpath : (s.toSearch.lower node k ((node, it) :: stack)).path = s.path := by
      rw [Traversal.path, Traversal.path, hs]
      rfl
    constructor
    case sound => exact h.sound
    case left => exact fun x u hx hxp => h.left x u hx (hpath ▸ hxp)
    case entered =>
      intro x hx q hq
      refine (h.entered x (hpath ▸ hx) q hq).imp_right ?_
      exact fun hall y hy => hall y ⟨hy.1, hpath ▸ hy.2⟩
  | @pop node up rest stack hs =>
    have hpoints : ∀ x ∈ s.points,
        x ∈ if up ≠ start ∧ s.num up ≤ s.low node then s.points.insert up else s.points := by
      intro x hx
      split
      · exact List.mem_insert_of_mem hx
      · exact hx
    constructor
    case sound =>
      intro p hp
      by_cases hadd : up ≠ start ∧ s.num up ≤ s.low node
      · simp only [hadd.1, hadd.2, ne_eq, not_false_iff, and_self, if_true] at hp
        rcases List.mem_insert_iff.mp hp with rfl | hp
        · rcases (hf.leave hs).parent_or_root rfl with ⟨q, hq⟩ | hroot
          · exact hl.cuts_of_le_low hs hq hadd.2
          · refine absurd (hr.last p ?_) hadd.1
            rw [Traversal.path, hs, List.map_cons, List.map_cons, List.getLast?_cons_cons]
            exact hroot
        · exact h.sound p hp
      · simp only [hadd, if_false] at hp
        exact h.sound p hp
    case left =>
      intro x u hx hxp hu
      by_cases hxn : x = node
      · subst hxn
        have hxs : x ∈ s.path := (Forest.mem_path hs).mpr (Or.inl rfl)
        rcases h.entered x hxs up (hf.parent_top hs) with hmem | hall
        · exact Or.inl (hpoints x hmem)
        · rw [hf.settled_top hs] at hall
          exact Or.inr (hf.not_cuts hs hall)
      · have hxp' : x ∉ s.path := by
          rw [Forest.mem_path hs, not_or]
          exact ⟨hxn, hxp⟩
        exact (h.left x u hx hxp' hu).imp_left (hpoints x)
    case entered =>
      intro x hx q hq
      have hxs : x ∈ s.path := (Forest.mem_path hs).mpr (Or.inr hx)
      rcases List.mem_cons.mp hx with rfl | hxb
      · have hq' : s.parent x = some q := hq
        have hxstart : x ≠ start := by
          rintro rfl
          rw [hr.parent] at hq'
          cases hq'
        by_cases hlow : s.num x ≤ s.low node
        · left
          simp [hxstart, hlow]
        · refine (h.entered x hxs q hq').imp (hpoints x) ?_
          intro hall y hy hne
          rcases (hf.settled_leave hs ▸ hy : y ∈ s.settled x ∪ s.since node) with hyx | hyn
          · exact hall y hyx hne
          · exact hl.reachable_of_low_lt hs hq' (not_le.mp hlow) hyn
      · refine (h.entered x hxs q hq).imp (hpoints x) ?_
        intro hall y hy
        exact hall y (hf.settled_leave_below hs hxb ▸ hy)
  | @root node hs hp =>
    constructor
    case sound => exact h.sound
    case left =>
      intro x u hx hxp hu
      refine h.left x u hx ?_ hu
      rw [Forest.mem_path hs, not_or]
      refine ⟨?_, List.not_mem_nil⟩
      rintro rfl
      have hu' : s.parent x = some u := hu
      rw [hp] at hu'
      cases hu'
    case entered =>
      intro x hx
      cases hx

/-! ### The pass ends -/

/-- The neighbours and pops that the undiscovered nodes will cost. -/
def unseenCost (adj : Adjacency) (s : Traversal String) : Nat :=
  ((adj.filter fun e => ¬ s.Seen e.1).map fun e => e.2.length + 1).sum

def cost (adj : Adjacency) (s : Traversal String) : Nat :=
  unseenCost adj s + (s.stack.map fun f => f.2.length + 1).sum

theorem unseenCost_cons (e : String × List String) (adj : Adjacency) (s : Traversal String) :
    unseenCost (e :: adj) s =
      (if s.Seen e.1 then 0 else e.2.length + 1) + unseenCost adj s := by
  unfold unseenCost
  by_cases h : s.Seen e.1
  · simp [h]
  · simp [h]

theorem unseenCost_le_turns (adj : Adjacency) (s : Traversal String) :
    unseenCost adj s ≤ turns adj := by
  induction adj with
  | nil => exact le_rfl
  | cons e adj ih =>
    rw [unseenCost_cons]
    simp only [turns, List.map_cons, List.sum_cons] at ih ⊢
    split <;> omega

variable {t : Traversal String} {p : Option String} {x : String} {ns : List String}
  {below : List (String × List String)}

theorem unseenCost_discover_le (adj : Adjacency) :
    unseenCost adj (t.discover p x ns below) ≤ unseenCost adj t := by
  induction adj with
  | nil => exact le_rfl
  | cons e adj ih =>
    rw [unseenCost_cons, unseenCost_cons]
    by_cases h : t.Seen e.1
    · simpa [h] using ih
    · by_cases hx : e.1 = x
      · simp only [Traversal.seen_discover, hx, true_or, if_true]
        omega
      · simpa [h, hx] using ih

theorem unseenCost_discover {adj : Adjacency} (hx : x ∈ adj.map (·.1)) (hn : ¬ t.Seen x) :
    unseenCost adj (t.discover p x ns below) + ((nbrs adj x).length + 1) ≤ unseenCost adj t := by
  induction adj with
  | nil => cases hx
  | cons e adj ih =>
    rw [unseenCost_cons, unseenCost_cons, nbrs_cons]
    by_cases he : e.1 = x
    · have hle : unseenCost adj (t.discover p x ns below) ≤ unseenCost adj t :=
        unseenCost_discover_le adj
      simp only [Traversal.seen_discover, he, true_or, if_true, hn, if_false]
      omega
    · have hrest := ih ((List.mem_cons.mp hx).resolve_left fun h => he h.symm)
      simp only [Traversal.seen_discover, he, false_or, if_false]
      omega

theorem cost_discover {adj : Adjacency} (hx : x ∈ adj.map (·.1)) (hn : ¬ t.Seen x) :
    cost adj (t.discover p x (nbrs adj x) below) ≤
      unseenCost adj t + (below.map fun f => f.2.length + 1).sum := by
  have hle : unseenCost adj (t.discover p x (nbrs adj x) below) + ((nbrs adj x).length + 1) ≤
      unseenCost adj t := unseenCost_discover hx hn
  unfold cost
  simp only [Traversal.discover, List.map_cons, List.sum_cons] at hle ⊢
  omega

theorem Turn.cost_lt (hf : Forest g.toSimpleGraph s.toTraversal)
    (ht : Turn g.adjacency start s s') :
    cost g.adjacency s'.toTraversal < cost g.adjacency s.toTraversal := by
  have hcost : ∀ f stack, s.stack = f :: stack → cost g.adjacency s.toTraversal =
      unseenCost g.adjacency s.toTraversal +
        (f.2.length + 1 + (stack.map fun f => f.2.length + 1).sum) := by
    intro f stack hs
    rw [cost, hs, List.map_cons, List.sum_cons]
  cases ht with
  | @revisit node nbr it stack k hs hn hk =>
    rw [hcost _ _ hs]
    change unseenCost g.adjacency s.toTraversal +
      ((it.length + 1) + (stack.map fun f => f.2.length + 1).sum) < _
    simp only [List.length_cons]
    omega
  | @descend node nbr it stack hs hn =>
    have hadj : g.toSimpleGraph.Adj node nbr := (enters_descend hf hs hn).adj node rfl
    have hle : cost g.adjacency (s.toTraversal.discover (some node) nbr (nbrs g.adjacency nbr)
        ((node, it) :: stack)) ≤ _ := cost_discover (mem_nodes_of_adj hadj).2 hn
    rw [hcost _ _ hs]
    refine lt_of_le_of_lt hle ?_
    simp only [List.map_cons, List.sum_cons, List.length_cons]
    omega
  | @pop node up rest stack hs =>
    rw [hcost _ _ hs]
    change unseenCost g.adjacency s.toTraversal +
      ((((up, rest) :: stack).map fun f => f.2.length + 1).sum) < _
    omega
  | @root node hs hp =>
    rw [hcost _ _ hs]
    change unseenCost g.adjacency s.toTraversal + 0 < _
    omega

/-! ### Whole traversals -/

/-- During the traversal from `start`; `roots` are the starts before it. -/
structure Running (g : Graph) (start : String) (s : Dfs) : Prop where
  low : LowLink g.toSimpleGraph s.toSearch
  root : RootOk g.toSimpleGraph start s
  points : PointsOk g.toSimpleGraph s
  bridges : BridgesOk g.toSimpleGraph s
  roots : ∀ x, s.Seen x → s.parent x = none → x = start ∨ x ∈ s.points ∨
    ¬ Cuts g.toSimpleGraph x

theorem Turn.seen_mono (ht : Turn g.adjacency start s s') {x : String} (hx : s.Seen x) :
    s'.Seen x := by
  cases ht with
  | descend hs hn => exact Traversal.seen_discover.mpr (Or.inr hx)
  | revisit hs hn hk => exact hx
  | pop hs => exact hx
  | root hs hp => exact hx

theorem Turn.roots (ht : Turn g.adjacency start s s') {x : String} (hx : s'.Seen x)
    (hp : s'.parent x = none) : s.Seen x ∧ s.parent x = none := by
  cases ht with
  | @descend node nbr it stack hs hn =>
    by_cases hxn : x = nbr
    · subst hxn
      have hnode : some node = none := Traversal.parent_discover_self.symm.trans hp
      cases hnode
    · exact ⟨(Traversal.seen_discover.mp hx).resolve_left hxn,
        (Traversal.parent_discover_of_ne hxn).symm.trans hp⟩
  | revisit hs hn hk => exact ⟨hx, hp⟩
  | pop hs => exact ⟨hx, hp⟩
  | root hs hp' => exact ⟨hx, hp⟩

theorem Turn.points_mono (ht : Turn g.adjacency start s s') {x : String} (hx : x ∈ s.points) :
    x ∈ s'.points := by
  cases ht with
  | descend hs hn => exact hx
  | revisit hs hn hk => exact hx
  | root hs hp => exact hx
  | pop hs =>
    simp only
    split
    · exact List.mem_insert_of_mem hx
    · exact hx

theorem Running.turn (h : Running g start s) (ht : Turn g.adjacency start s s') :
    Running g start s' where
  low := ht.lowLink h.low
  root := h.root.turn h.low ht
  points := h.points.turn h.low h.root ht
  bridges := h.bridges.turn h.low ht
  roots x hx hp := by
    obtain ⟨hxs, hps⟩ := ht.roots hx hp
    exact (h.roots x hxs hps).imp_right fun h => h.imp_left ht.points_mono

/-- The loop empties the stack within the cost of its state, and keeps what it has seen. -/
theorem traverse_spec (h : Running g start s) {fuel : Nat}
    (hfuel : cost g.adjacency s.toTraversal < fuel) :
    ∃ s', traverse g.adjacency start fuel s = some s' ∧ Running g start s' ∧ s'.stack = [] ∧
      ∀ x, s.Seen x → s'.Seen x := by
  induction fuel generalizing s with
  | zero => omega
  | succ fuel ih =>
    unfold traverse
    by_cases hs : s.stack = []
    · rw [if_pos hs]
      exact ⟨s, rfl, h, hs, fun _ hx => hx⟩
    · rw [if_neg hs]
      have ht : Turn g.adjacency start s _ := turn_spec h.low hs
      have hlt := ht.cost_lt h.low.forest
      obtain ⟨s', hrun, hrunning, hstack, hseen⟩ := ih (h.turn ht) (by omega)
      exact ⟨s', hrun, hrunning, hstack, fun x hx => hseen x (ht.seen_mono hx)⟩

/-- Between two starts. -/
structure Rested (g : Graph) (s : Dfs) : Prop where
  low : LowLink g.toSimpleGraph s.toSearch
  stack : s.stack = []
  points : PointsOk g.toSimpleGraph s
  bridges : BridgesOk g.toSimpleGraph s
  roots : ∀ x, s.Seen x → s.parent x = none → x ∈ s.points ∨ ¬ Cuts g.toSimpleGraph x

theorem Rested.enter (h : Rested g s) (hn : ¬ s.Seen start) :
    Running g start { s with
      toSearch := s.toSearch.discover none start (nbrs g.adjacency start) []
      rootChildren := 0 } := by
  have hf := h.low.forest
  have he : Enters g.toSimpleGraph s.toTraversal none start (nbrs g.adjacency start) [] :=
    enters_start h.stack hn
  constructor
  case low => exact h.low.discover he
  case root => exact RootOk.enter hf he
  case points => exact h.points.discover hf he 0
  case bridges => exact h.bridges.discover hf he 0
  case roots =>
    intro x hx hp
    by_cases hxs : x = start
    · exact Or.inl hxs
    · exact Or.inr (h.roots x ((Traversal.seen_discover.mp hx).resolve_left hxs)
        ((Traversal.parent_discover_of_ne hxs).symm.trans hp))

/-- The root rule: once its traversal is over, the start is decided. -/
theorem Running.rest (h : Running g start s) (hs : s.stack = []) :
    Rested g (if s.rootChildren > 1 then { s with points := s.points.insert start } else s) := by
  by_cases hchildren : s.rootChildren > 1
  · rw [if_pos hchildren]
    refine ⟨h.low, hs, ⟨?_, ?_, ?_⟩, ⟨h.bridges.sound, h.bridges.tree, h.bridges.back⟩, ?_⟩
    · intro p hp
      rcases List.mem_insert_iff.mp hp with rfl | hp
      · exact h.root.cuts hchildren
      · exact h.points.sound p hp
    · intro x u hx hxp hu
      exact (h.points.left x u hx hxp hu).imp_left List.mem_insert_of_mem
    · intro x hx q hq
      exact (h.points.entered x hx q hq).imp_left List.mem_insert_of_mem
    · intro x hx hp
      rcases h.roots x hx hp with rfl | hx
      · exact Or.inl List.mem_insert_self
      · exact hx.imp_left List.mem_insert_of_mem
  · rw [if_neg hchildren]
    refine ⟨h.low, hs, h.points, h.bridges, ?_⟩
    intro x hx hp
    rcases h.roots x hx hp with rfl | hx
    · exact Or.inr (h.root.left hs (not_lt.mp hchildren))
    · exact hx

theorem visitFrom_spec (h : Rested g s) (hstart : start ∈ g.nodes) :
    ∃ s', visitFrom g.adjacency s start = some s' ∧ Rested g s' ∧ s'.Seen start ∧
      ∀ x, s.Seen x → s'.Seen x := by
  unfold visitFrom
  by_cases hn : s.Seen start
  · have hn' : s.disc start ≠ none := hn
    rw [if_pos hn']
    exact ⟨s, rfl, h, hn, fun _ hx => hx⟩
  · have hn' : ¬ s.disc start ≠ none := hn
    rw [if_neg hn']
    have hcost : cost g.adjacency (s.toTraversal.discover none start (nbrs g.adjacency start) [])
        ≤ unseenCost g.adjacency s.toTraversal + 0 := cost_discover hstart hn
    have hbound := unseenCost_le_turns g.adjacency s.toTraversal
    obtain ⟨s', hrun, hrunning, hstack, hseen⟩ := traverse_spec (h.enter hn)
      (lt_of_le_of_lt (hcost.trans hbound) (Nat.lt_succ_self _))
    simp only [hrun, Option.map_some]
    have hmono : ∀ x, s'.Seen x → (if s'.rootChildren > 1 then
        { s' with points := s'.points.insert start } else s').Seen x := by
      intro x hx
      split <;> exact hx
    refine ⟨_, rfl, hrunning.rest hstack, hmono start hrunning.root.seen, ?_⟩
    intro x hx
    exact hmono x (hseen x (Traversal.seen_discover.mpr (Or.inr hx)))

theorem foldlM_visitFrom_spec {starts : List String} (h : Rested g s)
    (hstarts : ∀ x ∈ starts, x ∈ g.nodes) :
    ∃ s', starts.foldlM (visitFrom g.adjacency) s = some s' ∧ Rested g s' ∧
      ∀ x, x ∈ starts ∨ s.Seen x → s'.Seen x := by
  induction starts generalizing s with
  | nil => exact ⟨s, rfl, h, fun x hx => hx.resolve_left List.not_mem_nil⟩
  | cons a starts ih =>
    obtain ⟨s₁, hrun₁, hrest₁, hseen₁, hmono₁⟩ := visitFrom_spec h (hstarts a List.mem_cons_self)
    obtain ⟨s', hrun, hrest, hmono⟩ := ih hrest₁ fun x hx => hstarts x (List.mem_cons_of_mem a hx)
    refine ⟨s', ?_, hrest, ?_⟩
    · rw [List.foldlM_cons, hrun₁]
      exact hrun
    · rintro x (hx | hx)
      · rcases List.mem_cons.mp hx with rfl | hx
        · exact hmono x (Or.inr hseen₁)
        · exact hmono x (Or.inl hx)
      · exact hmono x (Or.inr (hmono₁ x hx))

theorem Rested.empty (g : Graph) : Rested g Dfs.empty where
  low := ⟨Forest.fresh, fun _ h => (by cases h), fun _ h => (by cases h), fun _ h => (by cases h)⟩
  stack := rfl
  points := ⟨fun _ h => (by cases h), fun _ _ h => absurd rfl h, fun _ h => (by cases h)⟩
  bridges := ⟨fun _ h => (by cases h), fun _ _ h => absurd rfl h, fun _ _ h => absurd rfl h⟩
  roots _ h := absurd rfl h

/-- The pass ends, with exactly the cut vertices and exactly the bridges. -/
theorem tarjan_spec (g : Graph) : ∃ points bridges, tarjan g.adjacency = some (points, bridges) ∧
    (∀ p, p ∈ points ↔ Cuts g.toSimpleGraph p) ∧
    ∀ a b, s(a, b) ∈ bridges ↔
      g.toSimpleGraph.Adj a b ∧ g.toSimpleGraph.IsBridge s(a, b) := by
  obtain ⟨s, hrun, hrest, hseen⟩ := foldlM_visitFrom_spec (Rested.empty g) fun x (hx : x ∈ g.nodes) => hx
  have hall : ∀ a b, g.toSimpleGraph.Adj a b → s.Seen a ∧ s.Seen b := by
    intro a b hab
    exact ⟨hseen a (Or.inl (mem_nodes_of_adj hab).1), hseen b (Or.inl (mem_nodes_of_adj hab).2)⟩
  refine ⟨s.points, s.bridges, ?_, ?_, ?_⟩
  · have hrun' : (g.adjacency.map (·.1)).foldlM (visitFrom g.adjacency) Dfs.empty = some s := hrun
    rw [tarjan, hrun']
    rfl
  · intro p
    refine ⟨hrest.points.sound p, ?_⟩
    intro hp
    have hps : s.Seen p := by
      obtain ⟨a, _, ha, _⟩ := hp
      exact (hall p a ha).1
    cases hparent : s.parent p with
    | none => exact (hrest.roots p hps hparent).resolve_right (not_not.mpr hp)
    | some u =>
      refine (hrest.points.left p u hps ?_ hparent).resolve_right (not_not.mpr hp)
      rw [Traversal.path, hrest.stack]
      exact List.not_mem_nil
  · intro a b
    exact hrest.bridges.mem_iff hrest.low.forest hrest.stack (hall a b)

/-! ### The two questions -/

/-- The articulation points are the nodes whose removal increases the number of connected
    components, for every list of device and link rows and every iteration order. -/
theorem articulation_points_exact (S : SetOrder) (devices : List (Option String))
    (links : List (Option String × Option String)) :
    ∃ points, findArticulationPoints (buildGraph S devices links) = some points ∧
      ∀ p, p ∈ points ↔
        components (buildGraph S devices links).toSimpleGraph
            {x | x ∈ (buildGraph S devices links).nodes} <
          components (buildGraph S devices links).toSimpleGraph
            ({x | x ∈ (buildGraph S devices links).nodes} \ {p}) := by
  obtain ⟨points, bridges, hrun, hpoints, _⟩ := tarjan_spec (buildGraph S devices links)
  refine ⟨points, ?_, ?_⟩
  · rw [findArticulationPoints, hrun]
    rfl
  · intro p
    rw [hpoints p, components_lt_iff_cuts]
    · exact (buildGraph S devices links).nodes.finite_toSet
    · exact fun x y hxy => (mem_nodes_of_adj hxy).2

/-- The bridges are the edges without which their ends are not connected. -/
theorem bridges_exact (S : SetOrder) (devices : List (Option String))
    (links : List (Option String × Option String)) :
    ∃ bridges, findBridges (buildGraph S devices links) = some bridges ∧
      ∀ a b, s(a, b) ∈ bridges ↔ (buildGraph S devices links).toSimpleGraph.Adj a b ∧
        ¬ ((buildGraph S devices links).toSimpleGraph.deleteEdges {s(a, b)}).Reachable a b := by
  obtain ⟨points, bridges, hrun, _, hbridges⟩ := tarjan_spec (buildGraph S devices links)
  refine ⟨bridges, ?_, ?_⟩
  · rw [findBridges, hrun]
    rfl
  · intro a b
    rw [hbridges a b, isBridge_iff]

end Srp.Netdisco
