/-
  Srp/Netdisco/Fusion.lean
  ========================
  **Data fusion** (`server/netdisco/fusion.py`): competing link evidence is
  grouped by the unordered node pair, and each group is resolved to one link by
  its winner, the first evidence of maximal (priority, freshness, source).
-/
import Mathlib.Data.Prod.Lex
import Srp.Lib.GroupBy
import Srp.Netdisco.Identity

namespace Srp.Netdisco

open Srp.Lib.GroupBy

/-! ### Evidence and links -/

/-- One competing claim that node `a` links to node `b`. -/
structure LinkEvidence where
  a : String
  b : String
  source : String
  confidence : String
  localIf : Option Int := none
  observedAt : Option String := none
  aPort : Option String := none
  bPort : Option String := none
  medium : Option String := none
  vlan : Option Int := none
  portSpace : String := "ifindex"
deriving DecidableEq, Repr

/-- One topology edge after fusion; `a`, `b` are node ids in canonical order. -/
structure ResolvedLink where
  a : String
  b : String
  viaSource : String
  confidence : String
  linkKind : String := "l2-edge"
  ambiguous : Bool := false
  observedAt : Option String := none
  medium : Option String := none
  vlan : Option Int := none
  aPort : Option String := none
  bPort : Option String := none
  aIf : Option Int := none
  bIf : Option Int := none
deriving DecidableEq, Repr

/-! ### Source authority -/

def sourcePriority : List (String × Nat) :=
  [("lldp", 5), ("wireless", 5), ("cdp", 4), ("fdb_edge", 3), ("route", 3), ("arp", 2),
   ("fdb_uplink", 2), ("fdb_ambiguous", 1)]

def priority (source : String) : Nat := (sourcePriority.lookup source).getD 0

def linkKind (source : String) : String :=
  if source = "fdb_uplink" then "l2-trunk" else "l2-edge"

variable (T : PyText)

/-! ### Ports that name two neighbours -/

def edges (evidence : List LinkEvidence) : List LinkEvidence :=
  evidence.filter fun e => nodeId T e.a ≠ nodeId T e.b

abbrev Port := String × String × Int

def portOf (e : LinkEvidence) : Option Port :=
  e.localIf.map fun i => (nodeId T e.a, e.portSpace, i)

/-- The evidence of one port whose source has the top priority there. -/
def portTop (evs : List LinkEvidence) : List LinkEvidence :=
  evs.filter fun e => evs.all fun e' => priority e'.source ≤ priority e.source

/-- `_conflicted_ports`: the ports whose top-priority source names several remotes. -/
def conflictedPorts (evidence : List LinkEvidence) : List Port :=
  ((edges T evidence).filterMap (portOf T)).eraseDups.filter fun port =>
    let evs := (edges T evidence).filter fun e => portOf T e = some port
    decide (1 < ((portTop evs).map fun e => nodeId T e.b).dedup.length)

/-! ### Fusion -/

/-- `sorted(pair)` of the two node ids. -/
def pairOf (e : LinkEvidence) : String × String :=
  if nodeId T e.a ≤ nodeId T e.b then (nodeId T e.a, nodeId T e.b)
  else (nodeId T e.b, nodeId T e.a)

theorem pairOf_cases (e : LinkEvidence) :
    (pairOf T e = (nodeId T e.a, nodeId T e.b) ∧ nodeId T e.a ≤ nodeId T e.b) ∨
      (pairOf T e = (nodeId T e.b, nodeId T e.a) ∧ nodeId T e.b < nodeId T e.a) := by
  unfold pairOf
  by_cases h : nodeId T e.a ≤ nodeId T e.b
  · exact Or.inl ⟨if_pos h, h⟩
  · exact Or.inr ⟨if_neg h, not_le.mp h⟩

def winnerKey (e : LinkEvidence) : ℕ ×ₗ String ×ₗ String :=
  toLex (priority e.source, toLex (e.observedAt.getD "", e.source))

def isAmbiguous (conflicted : List Port) (evs : List LinkEvidence) : Bool :=
  evs.any fun e => (portOf T e).any (· ∈ conflicted)

/-- The winner's port labels and local ifIndex as `(a_port, b_port, a_if, b_if)`, swapped
    when its local end is not the canonical `a`. -/
def portLabels (winner : LinkEvidence) (nodeA : String) :
    Option String × Option String × Option Int × Option Int :=
  let aIf := if winner.portSpace = "ifindex" then winner.localIf else none
  if nodeId T winner.a ≠ nodeA then (winner.bPort, winner.aPort, none, aIf)
  else (winner.aPort, winner.bPort, aIf, none)

def freshest (evs : List LinkEvidence) : Option String :=
  ((evs.filterMap (·.observedAt)).filter (· ≠ "")).argmax id

/-- The link of one pair, once its winner is chosen. -/
def linkOf (conflicted : List Port) (pair : String × String) (evs : List LinkEvidence)
    (winner : LinkEvidence) : ResolvedLink :=
  let ambiguous := isAmbiguous T conflicted evs
  let labels := portLabels T winner pair.1
  { a := pair.1
    b := pair.2
    viaSource := winner.source
    confidence := if ambiguous then "low" else winner.confidence
    linkKind := linkKind winner.source
    ambiguous := ambiguous
    observedAt := freshest evs
    medium := winner.medium
    vlan := evs.findSome? (·.vlan)
    aPort := labels.1
    bPort := labels.2.1
    aIf := labels.2.2.1
    bIf := labels.2.2.2 }

def resolve (evidence : List LinkEvidence) (pair : String × String) : Option ResolvedLink :=
  let evs := group (pairOf T) (edges T evidence) pair
  (evs.argmax winnerKey).map (linkOf T (conflictedPorts T evidence) pair evs)

def linkKey (link : ResolvedLink) : String ×ₗ String ×ₗ String :=
  toLex (link.a, toLex (link.b, link.viaSource))

def fuse (evidence : List LinkEvidence) : List ResolvedLink :=
  ((keys (pairOf T) (edges T evidence)).filterMap (resolve T evidence)).insertionSort
    fun l l' => linkKey l ≤ linkKey l'

end Srp.Netdisco
