/-
  Srp/Netdisco/Graph.lean
  =======================
  **The topology graph** (`server/netdisco/graph.py`): construction from device
  and link rows, blocked reachability, the shortest path to a root, and the
  topmost down nodes.

  A Python set is a list without repetitions in an unspecified iteration order;
  `SetOrder` is that order, and every result below holds for all of them.  A
  `Graph` carries the two facts that `build_graph` guarantees, so that it denotes
  a `SimpleGraph` on the node ids.
-/
import Mathlib.Combinatorics.SimpleGraph.Connectivity.Connected
import Mathlib.Data.List.Sort
import Mathlib.Data.String.Basic
import Srp.Lib.Worklist

namespace Srp.Netdisco

open Srp.Lib.Worklist Relation

/-! ### Sets and adjacency maps -/

/-- The iteration order of a set, as a function of its elements in insertion order. -/
structure SetOrder where
  order : List String → List String
  perm : ∀ l, (order l).Perm l

def SetOrder.set (S : SetOrder) (xs : List String) : List String := S.order xs.eraseDups

/-- A dictionary from node to neighbours, in insertion order. -/
abbrev Adjacency := List (String × List String)

def nbrs (adj : Adjacency) (node : String) : List String := (adj.lookup node).getD []

/-- `adj.setdefault(node, set())`. -/
def setDefault : Adjacency → String → Adjacency
  | [], node => [(node, [])]
  | e :: adj, node => if e.1 = node then e :: adj else e :: setDefault adj node

/-- `adj.setdefault(a, set()).add(b)`. -/
def addNeighbor : Adjacency → String → String → Adjacency
  | [], a, b => [(a, [b])]
  | e :: adj, a, b =>
    if e.1 = a then (a, if b ∈ e.2 then e.2 else e.2 ++ [b]) :: adj
    else e :: addNeighbor adj a b

theorem nbrs_cons (e : String × List String) (adj : Adjacency) (x : String) :
    nbrs (e :: adj) x = if e.1 = x then e.2 else nbrs adj x := by
  unfold nbrs
  rw [List.lookup_cons]
  by_cases h : e.1 = x
  · rw [if_pos h, h, beq_self_eq_true]
    rfl
  · rw [if_neg h, beq_eq_false_iff_ne.mpr fun hx => h hx.symm]

theorem nbrs_setDefault (adj : Adjacency) (node x : String) :
    nbrs (setDefault adj node) x = nbrs adj x := by
  induction adj with
  | nil =>
    simp only [setDefault, nbrs_cons]
    split <;> rfl
  | cons e adj ih =>
    unfold setDefault
    by_cases h : e.1 = node
    · rw [if_pos h]
    · rw [if_neg h, nbrs_cons, nbrs_cons, ih]

theorem mem_nbrs_addNeighbor {adj : Adjacency} {a b x y : String} :
    y ∈ nbrs (addNeighbor adj a b) x ↔ y ∈ nbrs adj x ∨ (x = a ∧ y = b) := by
  induction adj with
  | nil =>
    simp only [addNeighbor, nbrs_cons]
    by_cases h : a = x
    · simp [h, nbrs]
    · have hxa : ¬ x = a := fun hx => h hx.symm
      simp [h, nbrs, hxa]
  | cons e adj ih =>
    unfold addNeighbor
    by_cases h : e.1 = a
    · rw [if_pos h, nbrs_cons, nbrs_cons]
      by_cases hx : a = x
      · rw [if_pos hx, if_pos (h.trans hx)]
        by_cases hb : b ∈ e.2
        · rw [if_pos hb]
          constructor
          · exact Or.inl
          · rintro (hy | ⟨_, rfl⟩)
            · exact hy
            · exact hb
        · rw [if_neg hb, List.mem_append, List.mem_singleton]
          simp [hx]
      · rw [if_neg hx, if_neg (by rw [h]; exact hx)]
        have hxa : ¬ x = a := fun h => hx h.symm
        simp [hxa]
    · rw [if_neg h, nbrs_cons, nbrs_cons]
      by_cases hx : e.1 = x
      · rw [if_pos hx, if_pos hx]
        have hxa : x ≠ a := by
          rw [← hx]
          exact h
        simp [hxa]
      · rw [if_neg hx, if_neg hx, ih]

/-! ### Graphs -/

/-- Edges come in both directions and never join a node to itself. -/
structure Undirected (adj : Adjacency) : Prop where
  symm : ∀ a b, b ∈ nbrs adj a → a ∈ nbrs adj b
  loopless : ∀ a, a ∉ nbrs adj a

structure Graph where
  adjacency : Adjacency
  undirected : Undirected adjacency

def addLink (adj : Adjacency) (link : Option String × Option String) : Adjacency :=
  match link with
  | (some a, some b) =>
    if a = "" ∨ b = "" ∨ a = b then adj else addNeighbor (addNeighbor adj a b) b a
  | _ => adj

def addDevice (adj : Adjacency) (nid : Option String) : Adjacency :=
  match nid with
  | some nid => if nid = "" then adj else setDefault adj nid
  | none => adj

def buildAdjacency (devices : List (Option String))
    (links : List (Option String × Option String)) : Adjacency :=
  links.foldl addLink (devices.foldl addDevice [])

def freeze (S : SetOrder) (adj : Adjacency) : Adjacency := adj.map fun e => (e.1, S.order e.2)

theorem mem_nbrs_freeze (S : SetOrder) {adj : Adjacency} {x y : String} :
    y ∈ nbrs (freeze S adj) x ↔ y ∈ nbrs adj x := by
  induction adj with
  | nil => exact Iff.rfl
  | cons e adj ih =>
    simp only [freeze, List.map_cons, nbrs_cons]
    by_cases h : e.1 = x
    · rw [if_pos h, if_pos h, (S.perm e.2).mem_iff]
    · rw [if_neg h, if_neg h]
      exact ih

theorem Undirected.addLink {adj : Adjacency} (h : Undirected adj)
    (link : Option String × Option String) : Undirected (addLink adj link) := by
  unfold Netdisco.addLink
  split
  · next a b =>
    by_cases hskip : a = "" ∨ b = "" ∨ a = b
    · rw [if_pos hskip]
      exact h
    · rw [if_neg hskip]
      have hab : a ≠ b := fun hab => hskip (Or.inr (Or.inr hab))
      constructor
      · intro x y
        simp only [mem_nbrs_addNeighbor]
        rintro ((hxy | ⟨rfl, rfl⟩) | ⟨rfl, rfl⟩)
        · exact Or.inl (Or.inl (h.symm x y hxy))
        · exact Or.inr ⟨rfl, rfl⟩
        · exact Or.inl (Or.inr ⟨rfl, rfl⟩)
      · intro x
        simp only [mem_nbrs_addNeighbor]
        rintro ((hx | ⟨rfl, hb⟩) | ⟨rfl, ha⟩)
        · exact h.loopless x hx
        · exact hab hb
        · exact hab ha.symm
  · exact h

theorem Undirected.addDevice {adj : Adjacency} (h : Undirected adj) (nid : Option String) :
    Undirected (addDevice adj nid) := by
  unfold Netdisco.addDevice
  cases nid with
  | none => exact h
  | some nid =>
    by_cases hnid : nid = ""
    · simpa only [hnid, if_true] using h
    · simp only [hnid, if_false]
      constructor
      · intro a b
        rw [nbrs_setDefault, nbrs_setDefault]
        exact h.symm a b
      · intro a
        rw [nbrs_setDefault]
        exact h.loopless a

theorem buildAdjacency_undirected (devices : List (Option String))
    (links : List (Option String × Option String)) :
    Undirected (buildAdjacency devices links) := by
  have hdevices : ∀ adj, Undirected adj → Undirected (devices.foldl addDevice adj) := by
    induction devices with
    | nil => exact fun _ h => h
    | cons d devices ih => exact fun adj h => ih _ (h.addDevice d)
  have hlinks : ∀ adj, Undirected adj → Undirected (links.foldl addLink adj) := by
    induction links with
    | nil => exact fun _ h => h
    | cons l links ih => exact fun adj h => ih _ (h.addLink l)
  refine hlinks _ (hdevices [] ⟨?_, ?_⟩)
  · intro a b hb
    cases hb
  · intro a ha
    cases ha

def buildGraph (S : SetOrder) (devices : List (Option String))
    (links : List (Option String × Option String)) : Graph where
  adjacency := freeze S (buildAdjacency devices links)
  undirected := by
    have h := buildAdjacency_undirected devices links
    constructor
    · intro a b
      rw [mem_nbrs_freeze, mem_nbrs_freeze]
      exact h.symm a b
    · intro a
      rw [mem_nbrs_freeze]
      exact h.loopless a

def neighbors (g : Graph) (node : String) : List String := nbrs g.adjacency node

def Graph.nodes (g : Graph) : List String := g.adjacency.map (·.1)

/-! ### Searches -/

/-- Every node reachable from a root without entering a blocked node. -/
def reachableFrom (g : Graph) (roots blocked : List String) : List String :=
  let seen := fresh [] (roots.filter fun r => r ∈ g.nodes ∧ r ∉ blocked)
  reach (fun n => (neighbors g n).filter (· ∉ blocked)) g.nodes.length seen seen

/-- Shortest hop chain `[node, ..., root]` to any root; neighbours are tried in sorted
    order. -/
def pathToRoot (g : Graph) (node : String) (roots : List String) : Option (List String) :=
  if node ∈ roots then some [node]
  else
    match search (fun n => (neighbors g n).insertionSort (· ≤ ·)) (fun n => decide (n ∈ roots))
      (g.nodes.length + 2) [node] [(node, none)] with
    | some (r, prev) => some (chain prev.length prev (some r)).reverse
    | none => none

/-- The down nodes that a root still reaches without crossing another down node. -/
def findRootCause (S : SetOrder) (g : Graph) (downSet roots : List String) : List String :=
  let downs := S.set downSet
  let rootSet := S.set roots
  let upReachable := reachableFrom g rootSet downs
  downs.filter fun node =>
    node ∈ rootSet ∨ (neighbors g node).any (· ∈ upReachable) = true

/-! ### The graph as a `SimpleGraph` -/

def Graph.toSimpleGraph (g : Graph) : SimpleGraph String where
  Adj a b := b ∈ neighbors g a
  symm := ⟨fun a b h => g.undirected.symm a b h⟩
  loopless := ⟨fun a h => g.undirected.loopless a h⟩

variable {g : Graph}

theorem mem_nodes_of_mem_neighbors {a b : String} (h : b ∈ neighbors g a) : a ∈ g.nodes := by
  unfold neighbors nbrs at h
  cases hl : g.adjacency.lookup a with
  | none =>
    rw [hl] at h
    cases h
  | some ns =>
    obtain ⟨pre, post, hsplit, _⟩ := List.lookup_eq_some_iff.mp hl
    unfold Graph.nodes
    rw [hsplit]
    simp

theorem adj_iff {a b : String} : g.toSimpleGraph.Adj a b ↔ b ∈ neighbors g a := Iff.rfl

theorem mem_nodes_of_adj {a b : String} (h : g.toSimpleGraph.Adj a b) :
    a ∈ g.nodes ∧ b ∈ g.nodes :=
  ⟨mem_nodes_of_mem_neighbors h, mem_nodes_of_mem_neighbors (g.undirected.symm a b h)⟩

theorem SetOrder.mem_set {S : SetOrder} {xs : List String} {x : String} :
    x ∈ S.set xs ↔ x ∈ xs := by
  unfold SetOrder.set
  rw [(S.perm _).mem_iff, List.mem_eraseDups]

end Srp.Netdisco
