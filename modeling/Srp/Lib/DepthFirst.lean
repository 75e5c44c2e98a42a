/-
  Srp/Lib/DepthFirst.lean
  =======================
  **Depth-first traversal with an explicit stack of half-visited neighbour lists.**

  A `Traversal` numbers the vertices in the order of their discovery and keeps a stack
  of frames, each a vertex and the neighbours it has not visited yet.  `Forest` is what
  every traversal of an undirected graph keeps: the stack is a path of parent edges,
  everything discovered since a vertex of the stack is connected to it by what was
  discovered since, and a vertex that has left the stack has no neighbour on the other
  side of a vertex still on it (`closed`: there are no cross edges).
-/
import Mathlib.Logic.Function.Basic
import Srp.Lib.Cut

namespace Srp.Lib.DepthFirst

open SimpleGraph Srp.Lib.Cut

variable {α : Type}

structure Traversal (α : Type) where
  disc : α → Option Nat
  parent : α → Option α
  timer : Nat
  stack : List (α × List α)

namespace Traversal

def Seen (s : Traversal α) (x : α) : Prop := s.disc x ≠ none

instance (s : Traversal α) (x : α) : Decidable (s.Seen x) :=
  inferInstanceAs (Decidable (s.disc x ≠ none))

/-- The discovery number of a vertex. -/
def num (s : Traversal α) (x : α) : Nat := (s.disc x).getD 0

/-- The vertices of the stack, the last one entered first. -/
def path (s : Traversal α) : List α := s.stack.map (·.1)

/-- What has been discovered since `x`, itself included. -/
def since (s : Traversal α) (x : α) : Set α := {y | s.Seen y ∧ s.num x ≤ s.num y}

/-- `x` and what was discovered since then, up to the next vertex of the stack. -/
def settled (s : Traversal α) (x : α) : Set α :=
  {y | y ∈ s.since x ∧ ∀ w ∈ s.path, s.num x < s.num w → s.num y < s.num w}

theorem mem_since {s : Traversal α} {x y : α} :
    y ∈ s.since x ↔ s.Seen y ∧ s.num x ≤ s.num y := Iff.rfl

theorem mem_settled {s : Traversal α} {x y : α} : y ∈ s.settled x ↔
    y ∈ s.since x ∧ ∀ w ∈ s.path, s.num x < s.num w → s.num y < s.num w := Iff.rfl

variable [DecidableEq α]

/-- Vertex `x` is numbered and entered, on top of the frames `below`. -/
def discover (s : Traversal α) (p : Option α) (x : α) (nbrs : List α)
    (below : List (α × List α)) : Traversal α where
  disc := Function.update s.disc x (some s.timer)
  parent := Function.update s.parent x p
  timer := s.timer + 1
  stack := (x, nbrs) :: below

variable {s : Traversal α} {p : Option α} {x y : α} {nbrs : List α} {below : List (α × List α)}

@[simp] theorem seen_discover : (s.discover p x nbrs below).Seen y ↔ y = x ∨ s.Seen y := by
  unfold Seen discover
  by_cases h : y = x
  · simp [h]
  · simp [h]

@[simp] theorem num_discover_self : (s.discover p x nbrs below).num x = s.timer := by
  simp [num, discover]

theorem num_discover_of_ne (h : y ≠ x) : (s.discover p x nbrs below).num y = s.num y := by
  simp [num, discover, h]

theorem parent_discover_self : (s.discover p x nbrs below).parent x = p := by
  simp [discover]

theorem parent_discover_of_ne (h : y ≠ x) :
    (s.discover p x nbrs below).parent y = s.parent y := by
  simp [discover, h]

end Traversal

open Traversal

/-! ### The invariant of a traversal -/

structure Forest (G : SimpleGraph α) (s : Traversal α) : Prop where
  lt_timer : ∀ x, s.Seen x → s.num x < s.timer
  inj : ∀ x y, s.Seen x → s.Seen y → s.num x = s.num y → x = y
  path_seen : ∀ x ∈ s.path, s.Seen x
  path_sorted : s.path.Pairwise fun a b => s.num b < s.num a
  path_chain : s.path.IsChain fun a b => s.parent a = some b
  path_root : ∀ x ∈ s.path.getLast?, s.parent x = none
  parent_adj : ∀ x p, s.Seen x → s.parent x = some p → s.Seen p ∧ G.Adj p x
  pending : ∀ f ∈ s.stack, ∀ y ∈ f.2, G.Adj f.1 y
  visited : ∀ f ∈ s.stack, ∀ y, G.Adj f.1 y → y ∉ f.2 → s.Seen y
  finished : ∀ x, s.Seen x → x ∉ s.path → ∀ y, G.Adj x y → s.Seen y
  closed : ∀ x ∈ s.path, ∀ z, s.Seen z → z ∉ s.path → s.num z < s.num x →
    ∀ y, G.Adj z y → s.num y < s.num x
  later_parent : ∀ x ∈ s.path, ∀ y, s.Seen y → s.num x < s.num y →
    ∃ p, s.parent y = some p ∧ s.num x ≤ s.num p
  branch : ∀ x ∈ s.path, ∀ y ∈ s.since x, (within G (s.since x)).Reachable x y

/-- Nothing discovered and nothing entered. -/
def fresh : Traversal α where
  disc _ := none
  parent _ := none
  timer := 0
  stack := []

variable {G : SimpleGraph α} {s : Traversal α}

theorem Forest.fresh : Forest G (fresh : Traversal α) where
  lt_timer _ h := absurd rfl h
  inj _ _ h := absurd rfl h
  path_seen _ h := by cases h
  path_sorted := List.Pairwise.nil
  path_chain := List.IsChain.nil
  path_root _ h := by cases h
  parent_adj _ _ h := absurd rfl h
  pending _ h := by cases h
  visited _ h := by cases h
  finished _ h := absurd rfl h
  closed _ h := by cases h
  later_parent _ h := by cases h
  branch _ h := by cases h

/-! ### Discovering a vertex -/

section Discover

variable [DecidableEq α] {p : Option α} {x : α} {nbrs : List α} {below : List (α × List α)}

/-- `below` is the stack, its top frame having just visited `x`. -/
structure Enters (G : SimpleGraph α) (s : Traversal α) (p : Option α) (x : α)
    (nbrs : List α) (below : List (α × List α)) : Prop where
  path : below.map (·.1) = s.path
  top : s.path.head? = p
  unseen : ¬ s.Seen x
  adj : ∀ t, p = some t → G.Adj t x
  nbrs : ∀ y, y ∈ nbrs ↔ G.Adj x y
  frames : ∀ f ∈ below, ∃ g ∈ s.stack, g.1 = f.1 ∧ ∀ y, y ∈ g.2 → y = x ∨ y ∈ f.2
  pending : ∀ f ∈ below, ∀ y ∈ f.2, G.Adj f.1 y

theorem Enters.path_discover (he : Enters G s p x nbrs below) :
    (s.discover p x nbrs below).path = x :: s.path := by
  rw [← he.path]
  rfl

omit [DecidableEq α] in
theorem Enters.ne_of_seen (he : Enters G s p x nbrs below) {y : α} (hy : s.Seen y) : y ≠ x := by
  rintro rfl
  exact he.unseen hy

theorem Enters.num_of_seen (he : Enters G s p x nbrs below) {y : α} (hy : s.Seen y) :
    (s.discover p x nbrs below).num y = s.num y :=
  num_discover_of_ne (he.ne_of_seen hy)

theorem Enters.parent_of_seen (he : Enters G s p x nbrs below) {y : α} (hy : s.Seen y) :
    (s.discover p x nbrs below).parent y = s.parent y :=
  parent_discover_of_ne (he.ne_of_seen hy)

omit [DecidableEq α] in
/-- The top of the stack was entered after every other vertex of it. -/
theorem Enters.le_top (he : Enters G s p x nbrs below) (h : Forest G s) {t y : α}
    (ht : p = some t) (hy : y ∈ s.path) :
    t ∈ s.path ∧ s.num y ≤ s.num t := by
  have htop := he.top
  have hsorted := h.path_sorted
  cases hpath : s.path with
  | nil =>
    rw [hpath] at hy
    cases hy
  | cons a l =>
    rw [hpath, ht] at htop
    obtain rfl : a = t := Option.some.inj htop
    rw [hpath] at hy hsorted
    refine ⟨List.mem_cons_self, ?_⟩
    rcases List.mem_cons.mp hy with rfl | hy
    · exact le_rfl
    · exact ((List.pairwise_cons.mp hsorted).1 y hy).le

omit [DecidableEq α] in
theorem Enters.exists_top (he : Enters G s p x nbrs below) {y : α} (hy : y ∈ s.path) : ∃ t, p = some t := by
  have htop := he.top
  cases hpath : s.path with
  | nil =>
    rw [hpath] at hy
    cases hy
  | cons a l =>
    rw [hpath] at htop
    exact ⟨a, htop.symm⟩

omit [DecidableEq α] in
/-- A vertex has one frame. -/
theorem Forest.frame_unique (h : Forest G s) {f g : α × List α} (hf : f ∈ s.stack)
    (hg : g ∈ s.stack) (hfg : f.1 = g.1) : f = g := by
  have hnodup : (s.stack.map (·.1)).Nodup := by
    refine h.path_sorted.imp ?_
    rintro a b hab rfl
    exact lt_irrefl _ hab
  exact List.inj_on_of_nodup_map hnodup hf hg hfg

omit [DecidableEq α] in
/-- What a frame still has to visit, the frame that replaces it has, but for `x`. -/
theorem Enters.frame_of_mem (he : Enters G s p x nbrs below) (h : Forest G s)
    {g : α × List α} (hg : g ∈ s.stack) :
    ∃ f ∈ below, f.1 = g.1 ∧ ∀ y, y ∈ g.2 → y = x ∨ y ∈ f.2 := by
  have hmem : g.1 ∈ below.map (·.1) := by
    rw [he.path]
    exact List.mem_map_of_mem hg
  obtain ⟨f, hf, hfg⟩ := List.mem_map.mp hmem
  obtain ⟨g', hg', hgf, hsub⟩ := he.frames f hf
  obtain rfl : g' = g := h.frame_unique hg' hg (hgf.trans hfg)
  exact ⟨f, hf, hfg, hsub⟩

variable (h : Forest G s) (he : Enters G s p x nbrs below)
include h he

theorem Enters.num_lt {y : α} (hy : s.Seen y) :
    (s.discover p x nbrs below).num y < (s.discover p x nbrs below).num x := by
  rw [he.num_of_seen hy, num_discover_self]
  exact h.lt_timer y hy

/-- What was discovered since a vertex is kept, and `x` is added to it. -/
theorem Enters.since_discover {y : α} (hy : s.Seen y) :
    (s.discover p x nbrs below).since y = insert x (s.since y) := by
  ext z
  simp only [mem_since, seen_discover, Set.mem_insert_iff]
  constructor
  · rintro ⟨rfl | hz, hle⟩
    · exact Or.inl rfl
    · rw [he.num_of_seen hy, he.num_of_seen hz] at hle
      exact Or.inr ⟨hz, hle⟩
  · rintro (rfl | ⟨hz, hle⟩)
    · exact ⟨Or.inl rfl, (he.num_lt h hy).le⟩
    · rw [he.num_of_seen hy, he.num_of_seen hz]
      exact ⟨Or.inr hz, hle⟩

theorem Enters.since_self : (s.discover p x nbrs below).since x = {x} := by
  ext z
  simp only [mem_since, seen_discover, Set.mem_singleton_iff]
  constructor
  · rintro ⟨rfl | hz, hle⟩
    · rfl
    · exact absurd (he.num_lt h hz) (not_lt.mpr hle)
  · rintro rfl
    exact ⟨Or.inl rfl, le_rfl⟩

theorem Forest.discover : Forest G (s.discover p x nbrs below) := by
  have hpath := he.path_discover
  constructor
  case lt_timer =>
    intro y hy
    rcases seen_discover.mp hy with rfl | hy
    · rw [num_discover_self]
      exact Nat.lt_succ_self _
    · rw [he.num_of_seen hy]
      exact Nat.lt_succ_of_lt (h.lt_timer y hy)
  case inj =>
    intro y z hy hz hyz
    rcases seen_discover.mp hy with hyx | hys <;> rcases seen_discover.mp hz with hzx | hzs
    · rw [hyx, hzx]
    · subst hyx
      exact absurd hyz (he.num_lt h hzs).ne'
    · subst hzx
      exact absurd hyz (he.num_lt h hys).ne
    · rw [he.num_of_seen hys, he.num_of_seen hzs] at hyz
      exact h.inj y z hys hzs hyz
  case path_seen =>
    rw [hpath]
    intro y hy
    rw [seen_discover]
    rcases List.mem_cons.mp hy with rfl | hy
    · exact Or.inl rfl
    · exact Or.inr (h.path_seen y hy)
  case path_sorted =>
    rw [hpath, List.pairwise_cons]
    refine ⟨fun y hy => he.num_lt h (h.path_seen y hy), ?_⟩
    refine h.path_sorted.imp_of_mem ?_
    intro a b ha hb hab
    rw [he.num_of_seen (h.path_seen a ha), he.num_of_seen (h.path_seen b hb)]
    exact hab
  case path_chain =>
    rw [hpath, List.isChain_cons]
    constructor
    · intro t ht
      rw [parent_discover_self, ← he.top]
      exact ht
    · refine h.path_chain.imp_of_mem_imp ?_
      intro a b ha _ hab
      rw [he.parent_of_seen (h.path_seen a ha)]
      exact hab
  case path_root =>
    rw [hpath]
    intro y hy
    cases hs : s.path with
    | nil =>
      rw [hs] at hy
      obtain rfl : x = y := Option.some.inj hy
      rw [parent_discover_self, ← he.top, hs]
      rfl
    | cons a l =>
      rw [hs, List.getLast?_cons_cons, ← hs] at hy
      rw [he.parent_of_seen (h.path_seen y (List.mem_of_getLast? hy))]
      exact h.path_root y hy
  case parent_adj =>
    intro y q hy hq
    rw [seen_discover]
    rcases seen_discover.mp hy with rfl | hy
    · rw [parent_discover_self] at hq
      have htop := he.top
      rw [hq] at htop
      exact ⟨Or.inr (h.path_seen q (List.mem_of_mem_head? htop)), he.adj q hq⟩
    · rw [he.parent_of_seen hy] at hq
      exact ⟨Or.inr (h.parent_adj y q hy hq).1, (h.parent_adj y q hy hq).2⟩
  case pending =>
    intro f hf y hy
    rcases List.mem_cons.mp hf with rfl | hf
    · exact (he.nbrs y).mp hy
    · exact he.pending f hf y hy
  case visited =>
    intro f hf y hy hn
    rw [seen_discover]
    rcases List.mem_cons.mp hf with rfl | hf
    · exact absurd ((he.nbrs y).mpr hy) hn
    · by_cases hyx : y = x
      · exact Or.inl hyx
      · obtain ⟨g, hg, hgf, hsub⟩ := he.frames f hf
        refine Or.inr (h.visited g hg y (hgf ▸ hy) ?_)
        exact fun hyg => (hsub y hyg).elim hyx hn
  case finished =>
    rw [hpath]
    intro y hy hyp z hz
    rw [List.mem_cons, not_or] at hyp
    rw [seen_discover]
    exact Or.inr (h.finished y ((seen_discover.mp hy).resolve_left hyp.1) hyp.2 z hz)
  case closed =>
    rw [hpath]
    intro y hy z hz hzp hlt w hw
    rw [List.mem_cons, not_or] at hzp
    have hzs := (seen_discover.mp hz).resolve_left hzp.1
    have hws := h.finished z hzs hzp.2 w hw
    rcases List.mem_cons.mp hy with rfl | hy
    · exact he.num_lt h hws
    · have hys := h.path_seen y hy
      rw [he.num_of_seen hys, he.num_of_seen hzs] at hlt
      rw [he.num_of_seen hys, he.num_of_seen hws]
      exact h.closed y hy z hzs hzp.2 hlt w hw
  case later_parent =>
    rw [hpath]
    intro y hy z hz hlt
    rcases List.mem_cons.mp hy with rfl | hyp
    · rcases seen_discover.mp hz with rfl | hz
      · exact absurd hlt (lt_irrefl _)
      · exact absurd hlt (he.num_lt h hz).asymm
    · have hys := h.path_seen y hyp
      rw [he.num_of_seen hys] at hlt ⊢
      rcases seen_discover.mp hz with rfl | hz
      · obtain ⟨t, ht⟩ := he.exists_top hyp
        obtain ⟨htp, hle⟩ := he.le_top h ht hyp
        refine ⟨t, by rw [parent_discover_self, ht], ?_⟩
        rw [he.num_of_seen (h.path_seen t htp)]
        exact hle
      · rw [he.num_of_seen hz] at hlt
        obtain ⟨q, hq, hle⟩ := h.later_parent y hyp z hz hlt
        refine ⟨q, by rw [he.parent_of_seen hz, hq], ?_⟩
        rw [he.num_of_seen (h.parent_adj z q hz hq).1]
        exact hle
  case branch =>
    rw [hpath]
    intro y hy z hz
    rcases List.mem_cons.mp hy with rfl | hyp
    · rw [he.since_self h, Set.mem_singleton_iff] at hz
      rw [hz]
    · have hys := h.path_seen y hyp
      rw [he.since_discover h hys] at hz ⊢
      have hmono : within G (s.since y) ≤ within G (insert x (s.since y)) :=
        within_mono (Set.subset_insert x _)
      rcases hz with rfl | hz
      · obtain ⟨t, ht⟩ := he.exists_top hyp
        obtain ⟨htp, hle⟩ := he.le_top h ht hyp
        have hts : t ∈ s.since y := ⟨h.path_seen t htp, hle⟩
        have hlast : (within G (insert z (s.since y))).Adj t z :=
          ⟨he.adj t ht, Or.inr hts, Or.inl rfl⟩
        exact ((h.branch y hyp t hts).mono hmono).trans hlast.reachable
      · exact (h.branch y hyp z hz).mono hmono

theorem Enters.settled_discover {y : α} (hy : y ∈ s.path) :
    (s.discover p x nbrs below).settled y = s.settled y := by
  have hys := h.path_seen y hy
  ext z
  simp only [mem_settled, he.since_discover h hys, he.path_discover, Set.mem_insert_iff]
  constructor
  · rintro ⟨hz, hlt⟩
    rcases hz with rfl | hz
    · exact absurd (hlt z List.mem_cons_self (he.num_lt h hys)) (lt_irrefl _)
    · refine ⟨hz, ?_⟩
      intro w hw hyw
      have hws := h.path_seen w hw
      have := hlt w (List.mem_cons_of_mem x hw)
      rw [he.num_of_seen hys, he.num_of_seen hws, he.num_of_seen hz.1] at this
      exact this hyw
  · rintro ⟨hz, hlt⟩
    refine ⟨Or.inr hz, ?_⟩
    intro w hw hyw
    rcases List.mem_cons.mp hw with rfl | hw
    · exact he.num_lt h hz.1
    · have hws := h.path_seen w hw
      rw [he.num_of_seen hys, he.num_of_seen hws] at hyw
      rw [he.num_of_seen hz.1, he.num_of_seen hws]
      exact hlt w hw hyw

theorem Enters.settled_self : (s.discover p x nbrs below).settled x ⊆ {x} := by
  intro z hz
  rw [← he.since_self h]
  exact hz.1

end Discover

/-! ### Visiting a neighbour again, and leaving a vertex -/

section Stack

variable {x y : α} {rest : List α} {below : List (α × List α)}

theorem Forest.visit (h : Forest G s) (hs : s.stack = (x, y :: rest) :: below) (hy : s.Seen y) :
    Forest G { s with stack := (x, rest) :: below } := by
  have hpath : ({ s with stack := (x, rest) :: below } : Traversal α).path = s.path := by
    rw [path, path, hs]
    rfl
  have htop : (x, y :: rest) ∈ s.stack := by
    rw [hs]
    exact List.mem_cons_self
  have hbelow : ∀ f ∈ below, f ∈ s.stack := by
    intro f hf
    rw [hs]
    exact List.mem_cons_of_mem _ hf
  constructor
  case pending =>
    intro f hf z hz
    rcases List.mem_cons.mp hf with rfl | hf
    · exact h.pending (x, y :: rest) htop z (List.mem_cons_of_mem y hz)
    · exact h.pending f (hbelow f hf) z hz
  case visited =>
    intro f hf z hz hn
    rcases List.mem_cons.mp hf with rfl | hf
    · by_cases hzy : z = y
      · rw [hzy]
        exact hy
      · refine h.visited (x, y :: rest) htop z hz ?_
        rw [List.mem_cons, not_or]
        exact ⟨hzy, hn⟩
    · exact h.visited f (hbelow f hf) z hz hn
  case lt_timer => exact h.lt_timer
  case inj => exact h.inj
  case parent_adj => exact h.parent_adj
  case path_seen =>
    rw [hpath]
    exact h.path_seen
  case path_sorted =>
    rw [hpath]
    exact h.path_sorted
  case path_chain =>
    rw [hpath]
    exact h.path_chain
  case path_root =>
    rw [hpath]
    exact h.path_root
  case finished =>
    rw [hpath]
    exact h.finished
  case closed =>
    rw [hpath]
    exact h.closed
  case later_parent =>
    rw [hpath]
    exact h.later_parent
  case branch =>
    rw [hpath]
    exact h.branch

/-- Everything below the top of the stack was entered before it. -/
theorem Forest.num_lt_top (h : Forest G s) (hs : s.stack = (x, rest) :: below) {z : α}
    (hz : z ∈ below.map (·.1)) : s.num z < s.num x := by
  have hsorted := h.path_sorted
  rw [path, hs, List.map_cons, List.pairwise_cons] at hsorted
  exact hsorted.1 z hz

/-- Nothing of the stack was entered after its top. -/
theorem Forest.settled_top (h : Forest G s) (hs : s.stack = (x, rest) :: below) :
    s.settled x = s.since x := by
  ext y
  rw [mem_settled, and_iff_left_iff_imp]
  intro _ w hw hlt
  rw [path, hs, List.map_cons, List.mem_cons] at hw
  rcases hw with rfl | hw
  · exact absurd hlt (lt_irrefl _)
  · exact absurd hlt (h.num_lt_top hs hw).asymm

/-- What leaves the subtree of the top of the stack ends on the stack below it. -/
theorem Forest.mem_below_of_adj (h : Forest G s) (hs : s.stack = (x, []) :: below) {z : α}
    (hy : y ∈ s.since x) (hyz : G.Adj y z) (hz : z ∉ s.since x) :
    z ∈ below.map (·.1) ∧ s.num z < s.num x := by
  have htop : (x, []) ∈ s.stack := by
    rw [hs]
    exact List.mem_cons_self
  have hpath : s.path = x :: below.map (·.1) := by
    rw [path, hs]
    rfl
  have hx : x ∈ s.path := by
    rw [hpath]
    exact List.mem_cons_self
  have hzs : s.Seen z := by
    by_cases hyx : y = x
    · subst hyx
      exact h.visited (y, []) htop z hyz List.not_mem_nil
    · refine h.finished y hy.1 ?_ z hyz
      rw [hpath, List.mem_cons, not_or]
      exact ⟨hyx, fun hb => absurd (h.num_lt_top hs hb) (not_lt.mpr hy.2)⟩
  have hlt : s.num z < s.num x := by
    by_contra hle
    exact hz ⟨hzs, not_lt.mp hle⟩
  have hzp : z ∈ s.path := by
    by_contra hzp
    exact absurd (h.closed x hx z hzs hzp hlt y hyz.symm) (not_lt.mpr hy.2)
  rw [hpath, List.mem_cons] at hzp
  refine ⟨hzp.resolve_left ?_, hlt⟩
  rintro rfl
  exact lt_irrefl _ hlt

theorem Forest.leave (h : Forest G s) (hs : s.stack = (x, []) :: below) :
    Forest G { s with stack := below } := by
  have hpath : s.path = x :: below.map (·.1) := by
    rw [path, hs]
    rfl
  have hsub : ∀ z ∈ below.map (·.1), z ∈ s.path := by
    intro z hz
    rw [hpath]
    exact List.mem_cons_of_mem x hz
  have hnot : ∀ z, z ∉ below.map (·.1) → z = x ∨ z ∉ s.path := by
    intro z hz
    by_cases hzx : z = x
    · exact Or.inl hzx
    · rw [hpath, List.mem_cons, not_or]
      exact Or.inr ⟨hzx, hz⟩
  have hvisited : ∀ z, G.Adj x z → s.Seen z := by
    intro z hz
    refine h.visited (x, []) ?_ z hz List.not_mem_nil
    rw [hs]
    exact List.mem_cons_self
  constructor
  case lt_timer => exact h.lt_timer
  case inj => exact h.inj
  case parent_adj => exact h.parent_adj
  case path_seen => exact fun z hz => h.path_seen z (hsub z hz)
  case path_sorted =>
    have hsorted := h.path_sorted
    rw [hpath, List.pairwise_cons] at hsorted
    exact hsorted.2
  case path_chain =>
    have hchain := h.path_chain
    rw [hpath, List.isChain_cons] at hchain
    exact hchain.2
  case path_root =>
    intro z hz
    refine h.path_root z ?_
    rw [hpath]
    exact List.mem_getLast?_cons hz
  case pending =>
    intro f hf
    refine h.pending f ?_
    rw [hs]
    exact List.mem_cons_of_mem _ hf
  case visited =>
    intro f hf
    refine h.visited f ?_
    rw [hs]
    exact List.mem_cons_of_mem _ hf
  case finished =>
    intro z hz hn w hw
    rcases hnot z hn with rfl | hn
    · exact hvisited w hw
    · exact h.finished z hz hn w hw
  case closed =>
    intro y hy z hz hn hlt
    rcases hnot z hn with rfl | hn
    · exact absurd hlt (h.num_lt_top hs hy).asymm
    · exact h.closed y (hsub y hy) z hz hn hlt
  case later_parent => exact fun y hy => h.later_parent y (hsub y hy)
  case branch => exact fun y hy => h.branch y (hsub y hy)

variable {u v : α}

/-- When a vertex leaves, its subtree becomes part of what is settled for the next one. -/
theorem Forest.settled_leave (h : Forest G s) (hs : s.stack = (v, []) :: (u, rest) :: below) :
    ({ s with stack := (u, rest) :: below } : Traversal α).settled u = s.settled u ∪ s.since v := by
  have hu : u ∈ ((u, rest) :: below).map (·.1) := List.mem_cons_self
  have huv := h.num_lt_top hs hu
  have hpath : s.path = v :: u :: below.map (·.1) := by
    rw [path, hs]
    rfl
  rw [(h.leave hs).settled_top rfl]
  ext y
  rw [Set.mem_union, mem_settled, hpath]
  constructor
  · intro hy
    by_cases hyv : s.num v ≤ s.num y
    · exact Or.inr ⟨hy.1, hyv⟩
    · refine Or.inl ⟨hy, ?_⟩
      intro w hw hlt
      rcases List.mem_cons.mp hw with rfl | hw
      · exact not_le.mp hyv
      · rcases List.mem_cons.mp hw with rfl | hw
        · exact absurd hlt (lt_irrefl _)
        · exact absurd hlt ((h.leave hs).num_lt_top rfl hw).asymm
  · rintro (hy | hy)
    · exact hy.1
    · exact ⟨hy.1, huv.le.trans hy.2⟩

theorem Forest.settled_leave_below (h : Forest G s)
    (hs : s.stack = (v, []) :: (u, rest) :: below) (hx : x ∈ below.map (·.1)) :
    ({ s with stack := (u, rest) :: below } : Traversal α).settled x = s.settled x := by
  have hu : u ∈ ((u, rest) :: below).map (·.1) := List.mem_cons_self
  have huv := h.num_lt_top hs hu
  have hxu := (h.leave hs).num_lt_top rfl hx
  have hpath : s.path = v :: u :: below.map (·.1) := by
    rw [path, hs]
    rfl
  ext y
  rw [mem_settled, mem_settled, hpath]
  constructor
  · rintro ⟨hy, hlt⟩
    refine ⟨hy, ?_⟩
    intro w hw hxw
    rcases List.mem_cons.mp hw with rfl | hw
    · exact (hlt u hu hxu).trans huv
    · exact hlt w hw hxw
  · rintro ⟨hy, hlt⟩
    exact ⟨hy, fun w hw => hlt w (List.mem_cons_of_mem v hw)⟩

end Stack

end Srp.Lib.DepthFirst
