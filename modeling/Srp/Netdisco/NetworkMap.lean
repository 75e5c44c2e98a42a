/-
  Srp/Netdisco/NetworkMap.lean
  ============================
  **The nodes of the unified map** (`server/netdisco/unified.py`).

  Four sources fill one dictionary of nodes, one after the other: the rows of
  `net_devices`, the agents' snapshots, the printers, and what links and gateways
  name besides.  A record finds its node through the indexes that the earlier ones
  have left.  A node is kept with its identity; the fields that are only shown
  (vendor, model, status, times) are not in the model.
-/
import Mathlib.Data.List.Sort
import Srp.Lib.Machine
import Srp.Lib.Table
import Srp.Netdisco.Identity

namespace Srp.Netdisco

open Srp.Lib Srp.Lib.Table

/-- The value where a condition counts it as true. -/
def truthy (s : Option String) : Option String := s.filter (· ≠ "")

/-! ### Indexes -/

abbrev Index := List (String × String)

namespace Index

def get (d : Index) (k : String) : Option String := (row Prod.fst d k).map Prod.snd

/-- `d.setdefault(k, v)`, for a key that is there. -/
def setdefault (d : Index) (k : Option String) (v : String) : Index :=
  match k with
  | none => d
  | some k => upsert Prod.fst (fun old _ => old) (k, v) d

/-- `d[k] = v`. -/
def set (d : Index) (k v : String) : Index := upsert Prod.fst (fun _ new => new) (k, v) d

theorem get_set (d : Index) (k v j : String) :
    (d.set k v).get j = if j = k then some v else d.get j := by
  unfold get set
  rw [row_upsert (fun _ _ => rfl)]
  by_cases h : j = k
  · rw [if_pos h, if_pos h]
    cases row Prod.fst d j <;> rfl
  · rw [if_neg h, if_neg h]

theorem get_setdefault (d : Index) (k v j : String) :
    (d.setdefault (some k) v).get j = if j = k then some ((d.get k).getD v) else d.get j := by
  unfold get setdefault
  rw [row_upsert (fun _ h => h)]
  by_cases h : j = k
  · rw [if_pos h, if_pos h, h]
    cases row Prod.fst d k <;> rfl
  · rw [if_neg h, if_neg h]

end Index

/-! ### Records -/

structure NetDevice where
  deviceNid : Option String
  deviceId : Option String := none
  printerId : Option String := none
  devType : Option String := none
  ip : Option String := none
  hostname : Option String := none
  mac : Option String := none

structure Adapter where
  mac : Option String := none
  ipv4 : List String := []
  up : Option Bool := none
  tunnel : Bool := false
  role : Option String := none
  gateway : Option String := none

structure Neighbor where
  ip : Option String := none
  mac : Option String := none

/-- A snapshot, with its adapters and neighbours that are dictionaries. -/
structure Snapshot where
  deviceId : Option String
  hostname : Option String := none
  adapters : List Adapter := []
  neighbors : List Neighbor := []

structure PrinterRow where
  printerId : Option String
  mac : Option String := none
  ip : Option String := none
  hostname : Option String := none

structure NetLink where
  aNid : Option String := none
  bNid : Option String := none

structure Node where
  nid : String
  devType : String
  ip : Option String
  hostname : Option String
  mac : Option String
  deviceId : Option String
  printerId : Option String
  cardUrl : Option String
  provenance : List String
deriving DecidableEq

structure MapState where
  nodes : List Node := []
  byMac : Index := []
  byIp : Index := []
  byDeviceId : Index := []
  byPrinterId : Index := []

/-- `nodes[node["nid"]] = node`. -/
def setNode (node : Node) (nodes : List Node) : List Node :=
  upsert Node.nid (fun _ new => new) node nodes

/-- `_card_url`. -/
def cardUrl (deviceId printerId : Option String) (nid : String) : Option String :=
  match truthy deviceId, truthy printerId with
  | some d, _ => some ("/device/" ++ d)
  | none, some p => some ("/printers/" ++ p)
  | none, none =>
    if nid ≠ "" ∧ nid ≠ "nd-unknown" then some ("/netdisco/device/" ++ nid) else none

/-- `sorted(set(words))`. -/
def sortedSet (words : List String) : List String := words.eraseDups.insertionSort (· ≤ ·)

def printerUpgradable : List String := ["unknown", "endpoint"]
def gatewayUpgradable : List String := ["unknown", "endpoint"]

section Build

variable (T : PyText)

/-! ### Rows -/

/-- `_node_from_net_device`. -/
def nodeFromNetDevice (nid : String) (d : NetDevice) : Node :=
  let known := (truthy d.devType).getD "unknown"
  let devType :=
    if (truthy d.deviceId).isSome ∧ known = "unknown" then "agent"
    else if (truthy d.printerId).isSome ∧ known ∈ printerUpgradable then "printer"
    else known
  { nid, devType
    ip := d.ip
    hostname := d.hostname
    mac := normalizeMac T d.mac
    deviceId := d.deviceId
    printerId := d.printerId
    cardUrl := cardUrl d.deviceId d.printerId nid
    provenance := sortedSet (["net"] ++ (if (truthy d.deviceId).isSome then ["agent"] else []) ++
      if (truthy d.printerId).isSome then ["printer"] else []) }

/-- One turn of `_seed_net_devices`. -/
def seedNetDevice (σ : MapState) (d : NetDevice) : MapState :=
  match truthy d.deviceNid with
  | none => σ
  | some nid =>
    { nodes := setNode (nodeFromNetDevice T nid d) σ.nodes
      byMac := σ.byMac.setdefault (normalizeMac T d.mac) nid
      byIp := σ.byIp.setdefault (truthy d.ip) nid
      byDeviceId := σ.byDeviceId.setdefault (truthy d.deviceId) nid
      byPrinterId := σ.byPrinterId.setdefault (truthy d.printerId) nid }

def seedNetDevices (rows : List NetDevice) : MapState := rows.foldl (seedNetDevice T) {}

/-! ### Agents -/

/-- `_resolve_nid`. -/
def resolveNid (byMac byIp : Index) (mac ip : Option String) : String :=
  match normalizeMac T mac with
  | some nm => ((byMac.get nm).orElse fun _ => (truthy ip).bind byIp.get).getD
      (deviceNid T none none mac none)
  | none => ((truthy ip).bind byIp.get).getD (deviceNid T none none none ip)

/-- `_is_unplaceable_ip`. -/
def isUnplaceableIp (ip : Option String) : Bool :=
  match truthy ip with
  | none => true
  | some ip => ip = "0.0.0.0" || "169.254.".toList.isPrefixOf ip.toList

/-- What `_agent_nid` does not skip: an adapter that is up, and no tunnel or virtual one. -/
def Adapter.usable (a : Adapter) : Bool :=
  !(a.tunnel || a.role = some "tunnel" || a.role = some "virtual" || a.up ≠ some true)

/-- The node that one adapter names. -/
def adapterHit (byMac byIp : Index) (a : Adapter) : Option String :=
  match (normalizeMac T a.mac).bind byMac.get with
  | some nid => some nid
  | none => if isUnplaceableIp a.ipv4.head? then none else a.ipv4.head?.bind byIp.get

/-- The fields of `_primary_adapter` that the map reads. -/
def primaryMac (snap : Snapshot) : Option String := snap.adapters.head?.bind (·.mac)

def primaryIp (snap : Snapshot) : Option String := snap.adapters.head?.bind (·.ipv4.head?)

/-- `_agent_nid`. -/
def agentNid (byMac byIp : Index) (snap : Snapshot) : String :=
  match (snap.adapters.filter (·.usable)).findSome? (adapterHit T byMac byIp) with
  | some nid => nid
  | none => resolveNid T byMac byIp (primaryMac snap) (primaryIp snap)

/-- `_synth_agent_node`. -/
def synthAgentNode (nid : String) (snap : Snapshot) (did : String) : Node where
  nid := nid
  devType := "agent"
  ip := primaryIp snap
  hostname := snap.hostname
  mac := normalizeMac T (primaryMac snap)
  deviceId := some did
  printerId := none
  cardUrl := cardUrl (some did) none nid
  provenance := ["agent"]

/-- `_enrich_agent`. -/
def enrichAgent (node : Node) (snap : Snapshot) (did : String) : Node :=
  { node with
    devType := if node.devType = "unknown" then "agent" else node.devType
    ip := if (truthy node.ip).isSome then node.ip else primaryIp snap
    hostname := if (truthy node.hostname).isSome then node.hostname else snap.hostname
    mac := if (truthy node.mac).isSome then node.mac else normalizeMac T (primaryMac snap)
    deviceId := some did
    cardUrl := cardUrl (some did) node.printerId node.nid
    provenance := sortedSet (node.provenance ++ ["agent"]) }

/-- `by_device_id.get(did) or _agent_nid(snap, by_mac, by_ip)`. -/
def resolveAgent (σ : MapState) (snap : Snapshot) (did : String) : String :=
  (truthy (σ.byDeviceId.get did)).getD (agentNid T σ.byMac σ.byIp snap)

/-- One turn of `_merge_agents`. -/
def mergeAgent (σ : MapState) (snap : Snapshot) : MapState :=
  match truthy snap.deviceId with
  | none => σ
  | some did =>
    let nid := resolveAgent T σ snap did
    if nid = "nd-unknown" then σ
    else
      let node := match row Node.nid σ.nodes nid with
        | some node => enrichAgent T node snap did
        | none => synthAgentNode T nid snap did
      { σ with
        nodes := setNode node σ.nodes
        byDeviceId := σ.byDeviceId.set did nid
        byMac := σ.byMac.setdefault (normalizeMac T (primaryMac snap)) nid
        byIp := σ.byIp.setdefault (truthy (primaryIp snap)) nid }

def mergeAgents (σ : MapState) (snapshots : List Snapshot) : MapState :=
  snapshots.foldl (mergeAgent T) σ

/-! ### Printers -/

/-- `_synth_printer_node`. -/
def synthPrinterNode (nid : String) (p : PrinterRow) (pid : String) : Node where
  nid := nid
  devType := "printer"
  ip := p.ip
  hostname := p.hostname
  mac := normalizeMac T p.mac
  deviceId := none
  printerId := some pid
  cardUrl := cardUrl none (some pid) nid
  provenance := ["printer"]

/-- `_enrich_printer`. -/
def enrichPrinter (node : Node) (p : PrinterRow) (pid : String) : Node :=
  { node with
    devType := if node.devType ∈ printerUpgradable then "printer" else node.devType
    ip := if (truthy node.ip).isSome then node.ip else p.ip
    hostname := if (truthy node.hostname).isSome then node.hostname else p.hostname
    mac := if (truthy node.mac).isSome then node.mac else normalizeMac T p.mac
    printerId := some pid
    cardUrl := cardUrl node.deviceId (some pid) node.nid
    provenance := sortedSet (node.provenance ++ ["printer"]) }

/-- One turn of `_merge_printers`. -/
def mergePrinter (σ : MapState) (p : PrinterRow) : MapState :=
  match truthy p.printerId with
  | none => σ
  | some pid =>
    let nid := (truthy (σ.byPrinterId.get pid)).getD (resolveNid T σ.byMac σ.byIp p.mac p.ip)
    if nid = "nd-unknown" then σ
    else
      let node := match row Node.nid σ.nodes nid with
        | some node => enrichPrinter T node p pid
        | none => synthPrinterNode T nid p pid
      { σ with
        nodes := setNode node σ.nodes
        byPrinterId := σ.byPrinterId.set pid nid
        byMac := σ.byMac.setdefault (normalizeMac T p.mac) nid
        byIp := σ.byIp.setdefault (truthy p.ip) nid }

/-! ### Links and gateways -/

/-- `_stub_node`. -/
def stubNode (nid : String) : Node where
  nid := nid
  devType := "unknown"
  ip := none
  hostname := none
  mac := none
  deviceId := none
  printerId := none
  cardUrl := cardUrl none none nid
  provenance := ["net"]

/-- `if end and end not in nodes: nodes[end] = _stub_node(end)`. -/
def ensureEnd (nodes : List Node) (nid : Option String) : List Node :=
  match truthy nid with
  | none => nodes
  | some nid => if (row Node.nid nodes nid).isSome then nodes else setNode (stubNode nid) nodes

/-- What `_real_links` does to the nodes. -/
def ensureLinkEnds (nodes : List Node) (links : List NetLink) : List Node :=
  links.foldl (fun nodes l => ensureEnd (ensureEnd nodes l.aNid) l.bNid) nodes

/-- The keys of `_gateways`: those of the adapters that are up come first. -/
def gateways (snap : Snapshot) : List String :=
  let ordered := snap.adapters.filter (·.up = some true) ++ snap.adapters.filter (·.up ≠ some true)
  (ordered.filterMap fun a => truthy a.gateway).eraseDups

/-- `gw_mac.get(gw)`: the last neighbour with this address. -/
def gatewayMac (snap : Snapshot) (gw : String) : Option String :=
  (snap.neighbors.reverse.find? fun n => n.ip = some gw).bind (·.mac)

/-- `_ensure_gateway`. -/
def ensureGateway (nodes : List Node) (nid gw : String) (mac : Option String) : List Node :=
  match row Node.nid nodes nid with
  | some node =>
    if node.devType ∈ gatewayUpgradable then
      setNode
        { node with
          devType := "router"
          ip := if (truthy node.ip).isSome then node.ip else some gw
          mac := if (truthy node.mac).isSome then node.mac else normalizeMac T mac
          provenance := sortedSet (node.provenance ++ ["gateway"]) } nodes
    else nodes
  | none =>
    setNode
      { nid
        devType := "router"
        ip := some gw
        hostname := none
        mac := normalizeMac T mac
        deviceId := none
        printerId := none
        cardUrl := cardUrl none none nid
        provenance := ["gateway"] } nodes

/-- What `_agent_uplinks` does to the nodes for one snapshot. -/
def ensureUplinks (σ : MapState) (nodes : List Node) (snap : Snapshot) : List Node :=
  if (snap.deviceId.bind σ.byDeviceId.get).isNone then nodes
  else
    (gateways snap).foldl (fun nodes gw =>
      ensureGateway T nodes (resolveNid T σ.byMac σ.byIp (gatewayMac snap gw) (some gw)) gw
        (gatewayMac snap gw)) nodes

/-! ### The map -/

structure MapInput where
  netDevices : List NetDevice
  netLinks : List NetLink := []
  snapshots : List Snapshot
  printers : List PrinterRow := []

/-- The indexes and nodes after `_merge_agents`. -/
def agentsMerged (inp : MapInput) : MapState :=
  mergeAgents T (seedNetDevices T inp.netDevices) inp.snapshots

def printersMerged (inp : MapInput) : MapState :=
  inp.printers.foldl (mergePrinter T) (agentsMerged T inp)

/-- The nodes that `build_network_map` returns. -/
def networkNodes (inp : MapInput) : List Node :=
  let σ := printersMerged T inp
  let nodes := inp.snapshots.foldl (ensureUplinks T σ) (ensureLinkEnds σ.nodes inp.netLinks)
  nodes.insertionSort fun a b => a.nid ≤ b.nid

end Build

end Srp.Netdisco
