/-
  Srp/Netdisco/Changes.lean
  =========================
  **The change journal of the topology** (`diff` of `server/netdisco/changes.py`).

  `diff` lists what differs between two snapshots: nodes that appeared or
  disappeared, nodes that changed their type or address, links that came or went.
  Played back on what the old snapshot says (`replay`), the list gives what the
  new one says, but for the type and the address of the nodes that appeared:
  their deltas name nothing but the node.
-/
import Mathlib.Data.Finset.Image
import Mathlib.Data.List.Lex
import Mathlib.Data.String.Basic
import Mathlib.Data.Sym.Sym2
import Srp.Lib.PySet
import Srp.Lib.Table

namespace Srp.Netdisco

open Srp.Lib

/-! ### Snapshots -/

/-- A node of a snapshot; values are compared, and otherwise only passed on. -/
structure SnapshotNode (V : Type) where
  nid : Option String
  devType : Option V := none
  ip : Option V := none
deriving DecidableEq, Repr

structure SnapshotLink where
  a : Option String
  b : Option String
deriving DecidableEq, Repr

structure TopologySnapshot (V : Type) where
  nodes : Option (List (SnapshotNode V)) := none
  links : Option (List SnapshotLink) := none

/-- What a node says beside its nid. -/
structure NodeFields (V : Type) where
  devType : Option V
  ip : Option V
deriving DecidableEq, Repr

section Code

variable {V : Type}

/-- An item of `_nodes_by_nid`; a node without a nid is skipped. -/
def nodeItem (n : SnapshotNode V) : Option (String × NodeFields V) :=
  match n.nid with
  | some nid => if nid = "" then none else some (nid, ⟨n.devType, n.ip⟩)
  | none => none

/-- `_nodes_by_nid`: of two nodes with one nid the later one counts. -/
def nodesByNid (s : TopologySnapshot V) : List (String × NodeFields V) :=
  Table.upsertAll Prod.fst (fun _ new => new) ((s.nodes.getD []).filterMap nodeItem) []

/-- A canonical undirected link; a link without two distinct ends is skipped. -/
def snapshotLinkKey (l : SnapshotLink) : Option (String × String) :=
  match l.a, l.b with
  | some a, some b =>
    if a = "" ∨ b = "" ∨ a = b then none else some (if a ≤ b then (a, b) else (b, a))
  | _, _ => none

/-- `_link_keys`. -/
def linkKeys (s : TopologySnapshot V) : Finset (String × String) :=
  ((s.links.getD []).filterMap snapshotLinkKey).toFinset

/-! ### Deltas -/

inductive DeltaKind where
  | appeared | disappeared | reclassified | ipChanged | linkAdded | linkRemoved
deriving DecidableEq, Repr

def DeltaKind.text : DeltaKind → String
  | .appeared => "appeared"
  | .disappeared => "disappeared"
  | .reclassified => "reclassified"
  | .ipChanged => "ip_changed"
  | .linkAdded => "link_added"
  | .linkRemoved => "link_removed"

/-- A value in the detail of a delta: an end of a link, or a value of a node. -/
inductive DetailValue (V : Type) where
  | nid (t : String)
  | value (v : Option V)
deriving DecidableEq, Repr

structure TopologyDelta (V : Type) where
  kind : DeltaKind
  deviceNid : Option String := none
  detail : List (String × DetailValue V) := []
deriving DecidableEq, Repr

/-- The keys of a node dictionary. -/
def nids (nodes : List (String × NodeFields V)) : Finset String := (nodes.map Prod.fst).toFinset

def nodeDelta (kind : DeltaKind) (nid : String) : TopologyDelta V := { kind, deviceNid := some nid }

def changeDelta (kind : DeltaKind) (nid : String) (before after : Option V) : TopologyDelta V :=
  { kind, deviceNid := some nid, detail := [("from", .value before), ("to", .value after)] }

def linkDelta (kind : DeltaKind) (key : String × String) : TopologyDelta V :=
  { kind, detail := [("a", .nid key.1), ("b", .nid key.2)] }

variable [DecidableEq V]

/-- The deltas of a node of both snapshots. -/
def nodeChanges (nid : String) (before after : NodeFields V) : List (TopologyDelta V) :=
  (if before.devType ≠ after.devType then
    [changeDelta .reclassified nid before.devType after.devType] else []) ++
  if before.ip ≠ after.ip then [changeDelta .ipChanged nid before.ip after.ip] else []

/-- `prev_nodes[nid]` and `curr_nodes[nid]` of a common nid. -/
def commonChanges (prev curr : List (String × NodeFields V)) (nid : String) :
    List (TopologyDelta V) :=
  match prev.lookup nid, curr.lookup nid with
  | some before, some after => nodeChanges nid before after
  | _, _ => []

/-- The deltas before they are sorted, for sets that are iterated as the orders say. -/
def unsortedDeltas (strings : SetOrder String) (pairs : SetOrder (String × String))
    (prev curr : TopologySnapshot V) : List (TopologyDelta V) :=
  let prevNodes := nodesByNid prev
  let currNodes := nodesByNid curr
  (strings.elements (nids currNodes \ nids prevNodes)).map (nodeDelta .appeared) ++
  (strings.elements (nids prevNodes \ nids currNodes)).map (nodeDelta .disappeared) ++
  (strings.elements (nids currNodes ∩ nids prevNodes)).flatMap
    (commonChanges prevNodes currNodes) ++
  (pairs.elements (linkKeys curr \ linkKeys prev)).map (linkDelta .linkAdded) ++
  (pairs.elements (linkKeys prev \ linkKeys curr)).map (linkDelta .linkRemoved)

/-- `str` of a detail, for the `str` of the values. -/
def DetailValue.str (str : Option V → String) : DetailValue V → String
  | .nid t => t
  | .value v => str v

/-- `_detail_key`. -/
def detailKey (str : Option V → String) (detail : List (String × DetailValue V)) :
    List (String ×ₗ String) :=
  (detail.map fun item => toLex (item.1, item.2.str str)).mergeSort fun x y => decide (x ≤ y)

/-- The key of the sort. -/
def deltaKey (str : Option V → String) (d : TopologyDelta V) :
    String ×ₗ String ×ₗ List (String ×ₗ String) :=
  toLex (d.kind.text, toLex (d.deviceNid.getD "", detailKey str d.detail))

/-- `diff`. -/
def diff (strings : SetOrder String) (pairs : SetOrder (String × String))
    (str : Option V → String) (prev curr : TopologySnapshot V) : List (TopologyDelta V) :=
  (unsortedDeltas strings pairs prev curr).mergeSort fun d e =>
    decide (deltaKey str d ≤ deltaKey str e)

end Code

/-! ### What a snapshot says -/

/-- The nodes with their types and addresses, and the undirected links. -/
@[ext] structure Projection (V : Type) where
  nodes : String → Option (NodeFields V)
  links : Finset (Sym2 String)

/-- The link without its direction. -/
def SnapshotLink.undirected (l : SnapshotLink) : Option (Sym2 String) :=
  match l.a, l.b with
  | some a, some b => if a ≠ "" ∧ b ≠ "" ∧ a ≠ b then some s(a, b) else none
  | _, _ => none

section Projecting

variable {V : Type}

/-- What the list of nodes says of a nid: the last node counts. -/
def fieldsOf (nodes : List (SnapshotNode V)) (nid : String) : Option (NodeFields V) :=
  if nid = "" then none
  else (nodes.reverse.find? fun n => n.nid = some nid).map fun n => ⟨n.devType, n.ip⟩

def project (s : TopologySnapshot V) : Projection V where
  nodes := fieldsOf (s.nodes.getD [])
  links := ((s.links.getD []).filterMap SnapshotLink.undirected).toFinset

/-! ### Playing deltas back -/

/-- The new value in the detail. -/
def TopologyDelta.to (d : TopologyDelta V) : Option V :=
  match d.detail.lookup "to" with
  | some (.value v) => v
  | _ => none

/-- The link in the detail. -/
def TopologyDelta.link (d : TopologyDelta V) : Option (Sym2 String) :=
  match d.detail.lookup "a", d.detail.lookup "b" with
  | some (.nid a), some (.nid b) => some s(a, b)
  | _, _ => none

/-- The effect on the node of the delta; of a node that appears only the nid is known. -/
def TopologyDelta.onNode (d : TopologyDelta V) (fields : Option (NodeFields V)) :
    Option (NodeFields V) :=
  match d.kind with
  | .appeared => some ⟨none, none⟩
  | .disappeared => none
  | .reclassified => fields.map fun f => { f with devType := d.to }
  | .ipChanged => fields.map fun f => { f with ip := d.to }
  | .linkAdded => fields
  | .linkRemoved => fields

/-- The effect on the links. -/
def TopologyDelta.onLinks (d : TopologyDelta V) (links : Finset (Sym2 String)) :
    Finset (Sym2 String) :=
  match d.kind, d.link with
  | .linkAdded, some e => insert e links
  | .linkRemoved, some e => links.erase e
  | _, _ => links

def applyDelta (p : Projection V) (d : TopologyDelta V) : Projection V where
  nodes nid := if d.deviceNid = some nid then d.onNode (p.nodes nid) else p.nodes nid
  links := d.onLinks p.links

def replay (p : Projection V) (deltas : List (TopologyDelta V)) : Projection V :=
  deltas.foldl applyDelta p

/-- The new projection, without the types and addresses of the nodes that the old one lacks. -/
def Projection.withoutNewFields (curr prev : Projection V) : Projection V where
  nodes nid := match prev.nodes nid with
    | none => (curr.nodes nid).map fun _ => ⟨none, none⟩
    | some _ => curr.nodes nid
  links := curr.links

/-! ### The dictionaries of the code -/

theorem lookup_cons_if (r : String × NodeFields V) (rows : List (String × NodeFields V))
    (nid : String) :
    (r :: rows).lookup nid = if nid = r.1 then some r.2 else rows.lookup nid := by
  rw [List.lookup_cons]
  by_cases h : nid = r.1
  · rw [if_pos h, beq_iff_eq.mpr h]
  · rw [if_neg h, beq_false_of_ne h]

theorem lookup_upsert (new : String × NodeFields V) (rows : List (String × NodeFields V))
    (nid : String) : (Table.upsert Prod.fst (fun _ new => new) new rows).lookup nid =
      if nid = new.1 then some new.2 else rows.lookup nid := by
  induction rows with
  | nil => exact lookup_cons_if new [] nid
  | cons r rows ih =>
    rw [Table.upsert, lookup_cons_if]
    by_cases hr : r.1 = new.1
    · rw [if_pos hr, lookup_cons_if, hr]
      by_cases hnid : nid = new.1
      · rw [if_pos hnid, if_pos hnid]
      · rw [if_neg hnid, if_neg hnid, if_neg hnid]
    · rw [if_neg hr, lookup_cons_if, ih]
      by_cases hnid : nid = r.1
      · rw [if_pos hnid, if_pos hnid, if_neg fun h => hr (hnid.symm.trans h)]
      · rw [if_neg hnid, if_neg hnid]

/-- The later of two items with one key is found. -/
theorem lookup_upsertAll (items rows : List (String × NodeFields V)) (nid : String) :
    (Table.upsertAll Prod.fst (fun _ new => new) items rows).lookup nid =
      (items.reverse.lookup nid).or (rows.lookup nid) := by
  induction items generalizing rows with
  | nil => rfl
  | cons new items ih =>
    rw [Table.upsertAll_cons, ih, lookup_upsert, List.reverse_cons, List.lookup_append,
      Option.or_assoc, lookup_cons_if, List.lookup_nil]
    congr 1
    by_cases hnid : nid = new.1
    · rw [if_pos hnid, if_pos hnid]
      rfl
    · rw [if_neg hnid, if_neg hnid]
      rfl

theorem lookup_filterMap_nodeItem (nodes : List (SnapshotNode V)) (nid : String) :
    (nodes.filterMap nodeItem).lookup nid =
      if nid = "" then none
      else (nodes.find? fun n => n.nid = some nid).map fun n => ⟨n.devType, n.ip⟩ := by
  induction nodes with
  | nil => simp
  | cons n nodes ih =>
    rw [List.find?_cons]
    cases hn : n.nid with
    | none =>
      rw [List.filterMap_cons_none (by rw [nodeItem, hn]), ih]
      simp
    | some m =>
      by_cases hempty : m = ""
      · rw [List.filterMap_cons_none (by simp [nodeItem, hn, hempty]), ih]
        by_cases hnid : nid = ""
        · simp [hnid]
        · simp [hempty, Ne.symm hnid]
      · have hitem : nodeItem n = some (m, ⟨n.devType, n.ip⟩) := by simp [nodeItem, hn, hempty]
        rw [List.filterMap_cons_some hitem, lookup_cons_if, ih]
        by_cases hnid : nid = m
        · simp [hnid, hempty]
        · simp [hnid, Ne.symm hnid]

theorem lookup_nodesByNid (s : TopologySnapshot V) (nid : String) :
    (nodesByNid s).lookup nid = (project s).nodes nid := by
  rw [nodesByNid, lookup_upsertAll, List.lookup_nil, Option.or_none, ← List.filterMap_reverse,
    lookup_filterMap_nodeItem]
  rfl

theorem mem_nids {s : TopologySnapshot V} {nid : String} :
    nid ∈ nids (nodesByNid s) ↔ (project s).nodes nid ≠ none := by
  rw [← lookup_nodesByNid, ← Option.isSome_iff_ne_none, List.lookup_isSome_iff, nids,
    List.mem_toFinset, List.mem_map]
  constructor
  · rintro ⟨item, hitem, rfl⟩
    exact ⟨item, hitem, by simp⟩
  · rintro ⟨item, hitem, heq⟩
    exact ⟨item, hitem, (beq_iff_eq.mp heq).symm⟩

/-! ### Undirected links -/

theorem undirected_eq (l : SnapshotLink) :
    l.undirected = (snapshotLinkKey l).map fun key => s(key.1, key.2) := by
  unfold SnapshotLink.undirected snapshotLinkKey
  split
  · rename_i a b _ _
    by_cases hskip : a = "" ∨ b = "" ∨ a = b
    · rw [if_pos hskip, if_neg (by tauto)]
      rfl
    · rw [if_neg hskip, if_pos (by tauto)]
      split
      · rfl
      · exact congrArg some Sym2.eq_swap
  · rfl

theorem le_of_linkKey {l : SnapshotLink} {key : String × String} (h : snapshotLinkKey l = some key) :
    key.1 ≤ key.2 := by
  unfold snapshotLinkKey at h
  split at h
  · split at h
    · cases h
    · split at h
      · cases h
        assumption
      · rename_i hle
        cases h
        exact (le_total _ _).resolve_left hle
  · cases h

/-- Canonical keys are as good as the links themselves. -/
theorem mem_linkKeys {s : TopologySnapshot V} {key : String × String} :
    key ∈ linkKeys s ↔ key.1 ≤ key.2 ∧ s(key.1, key.2) ∈ (project s).links := by
  unfold linkKeys project
  simp only [List.mem_toFinset, List.mem_filterMap]
  constructor
  · rintro ⟨l, hl, hkey⟩
    exact ⟨le_of_linkKey hkey, l, hl, by rw [undirected_eq, hkey]; rfl⟩
  · rintro ⟨hle, l, hl, hlink⟩
    rw [undirected_eq] at hlink
    obtain ⟨key', hkey', heq⟩ := Option.map_eq_some_iff.mp hlink
    refine ⟨l, hl, ?_⟩
    have hle' := le_of_linkKey hkey'
    rw [hkey']
    rcases Sym2.eq_iff.mp heq with ⟨h1, h2⟩ | ⟨h1, h2⟩
    · rw [Prod.ext h1 h2]
    · have heq : key.1 = key.2 := le_antisymm hle (by rw [← h1, ← h2]; exact hle')
      rw [Prod.ext (h1.trans heq.symm) (h2.trans heq)]

/-- A canonical key is that of its link. -/
theorem eq_of_canonical {key key' : String × String} (h : key.1 ≤ key.2) (h' : key'.1 ≤ key'.2)
    (heq : s(key.1, key.2) = s(key'.1, key'.2)) : key = key' := by
  rcases Sym2.eq_iff.mp heq with ⟨h1, h2⟩ | ⟨h1, h2⟩
  · exact Prod.ext h1 h2
  · have hends : key.1 = key.2 := le_antisymm h (by rw [h1, h2]; exact h')
    exact Prod.ext (hends.trans h2) (hends.symm.trans h1)

theorem exists_canonical (e : Sym2 String) :
    ∃ key : String × String, key.1 ≤ key.2 ∧ s(key.1, key.2) = e := by
  induction e with
  | h a b =>
    rcases le_total a b with hle | hle
    · exact ⟨(a, b), hle, rfl⟩
    · exact ⟨(b, a), hle, Sym2.eq_swap⟩

theorem nids_congr {s s' : TopologySnapshot V} (h : project s = project s') :
    nids (nodesByNid s) = nids (nodesByNid s') := by
  ext nid
  rw [mem_nids, mem_nids, h]

theorem linkKeys_congr {s s' : TopologySnapshot V} (h : project s = project s') :
    linkKeys s = linkKeys s' := by
  ext key
  rw [mem_linkKeys, mem_linkKeys, h]

theorem commonChanges_eq [DecidableEq V] (prev curr : TopologySnapshot V) (nid : String) :
    commonChanges (nodesByNid prev) (nodesByNid curr) nid =
      match (project prev).nodes nid, (project curr).nodes nid with
      | some before, some after => nodeChanges nid before after
      | _, _ => [] := by
  rw [commonChanges, lookup_nodesByNid, lookup_nodesByNid]

end Projecting

end Srp.Netdisco
