/-
  Srp/Analytics/Netmap.lean
  =========================
  **The network map and the note on a device page** (`server/analytics/netmap.py`,
  `vendor_for_mac` of `server/analytics/oui.py`).

  The map puts each agent into one cluster for each of its gateways.  The note of a
  device builds the map from the agents that share a gateway with it.  That map has
  other clusters besides, with agents missing, but the device is in none of them: the
  clusters of its own gateways are those of the whole map, agent by agent.

  Adapters, neighbours and probes that are no dictionaries are left out of a snapshot,
  and so is the table of agentless devices, which is always empty.
-/
import Mathlib.Data.Prod.Lex
import Mathlib.Data.String.Basic
import Srp.Lib.GroupBy
import Srp.Lib.PyNum
import Srp.Netdisco.Identity

namespace Srp.Analytics.Netmap

open Srp.Lib.GroupBy Srp.Lib.PyNum Srp.Netdisco

def anomalyMinReporting : Nat := 2
def anomalyShare : ℚ := 3 / 5
def degradedLossPct : ℚ := 20

/-! ### Snapshots -/

structure Adapter where
  mac : Option String := none
  ipv4 : List String := []
  kind : Option String := none
  up : Option Bool := none
  gateway : Option String := none

structure Neighbor where
  ip : Option String := none
  mac : Option String := none

structure QualityRow where
  targetKind : Option String := none
  target : Option String := none
  lossPct : Option ℚ := none
  latencyMs : Option ℚ := none

structure Snapshot where
  deviceId : String
  hostname : Option String := none
  lastSeen : Option String := none
  adapters : List Adapter := []
  neighbors : List Neighbor := []
  quality : List QualityRow := []

/-- The gateway of an adapter, if it names one. -/
def Adapter.named (a : Adapter) : Option String := a.gateway.filter (· ≠ "")

/-- `sorted({str(a["gateway"]) ...})`. -/
def Snapshot.gateways (s : Snapshot) : List String :=
  (s.adapters.filterMap Adapter.named).dedup.insertionSort (· ≤ ·)

/-! ### Overlays -/

/-- `a.b.c.d` as `a.b.c.x`. -/
def subnetHint (ip : String) : Option String :=
  let parts := ip.splitOn "."
  if parts.length = 4 then some (".".intercalate (parts.take 3) ++ ".x") else none

def icmpFiltered (rows : List QualityRow) : Bool :=
  rows ≠ [] ∧ rows.all fun q => 100 ≤ q.lossPct.getD 0 ∧ q.latencyMs = none

/-- The probe of this gateway, unless no probe of the agent was answered. -/
def gatewayQuality (s : Snapshot) (gateway : String) : Option QualityRow :=
  if icmpFiltered s.quality then none
  else s.quality.find? fun q => q.targetKind = some "gateway" ∧ q.target = some gateway

structure SubnetVerdict where
  reporting : Nat
  degraded : Nat
  lossPct : Option ℚ
  anomaly : Bool
  reason : Option String
deriving DecidableEq

/-- `subnet_anomaly`: the losses of the agents to their gateway. -/
def subnetAnomaly (losses : List (Option ℚ)) : SubnetVerdict :=
  let reporting := losses.reduceOption
  let degraded := reporting.filter (degradedLossPct ≤ ·)
  let anomaly := anomalyMinReporting ≤ reporting.length ∧
    anomalyShare ≤ (degraded.length : ℚ) / reporting.length
  { reporting := reporting.length
    degraded := degraded.length
    lossPct := if reporting = [] then none else some (round1 (reporting.sum / reporting.length))
    anomaly := anomaly
    reason := if anomaly then
        some (toString degraded.length ++ " из " ++ toString reporting.length ++
          " машин подсети теряют пакеты до шлюза — похоже на проблему инфраструктуры " ++
          "(свитч/роутер/линк), а не отдельных ПК")
      else none }

/-! ### Clusters -/

structure Agent where
  deviceId : String
  hostname : Option String
  ip : Option String
  mac : Option String
  kind : Option String
  up : Option Bool
  lossPct : Option ℚ
  latencyMs : Option ℚ
  lastSeen : Option String

structure Cluster where
  gateway : String
  subnetHint : Option String
  gatewayMac : Option String := none
  gatewayVendor : Option String := none
  agents : List Agent := []
  losses : List ℚ := []
  latencies : List ℚ := []

def newCluster (gw : String) : Cluster := { gateway := gw, subnetHint := subnetHint gw }

def vendorSeed : List (String × String) :=
  [("00-50-56", "VMware"), ("00-0C-29", "VMware"), ("00-05-69", "VMware"),
    ("00-15-5D", "Microsoft Hyper-V"), ("08-00-27", "VirtualBox"), ("52-54-00", "QEMU/KVM"),
    ("B8-27-EB", "Raspberry Pi"), ("DC-A6-32", "Raspberry Pi"), ("E4-5F-01", "Raspberry Pi")]

variable (T : PyText)

def vendorForMac (mac : Option String) : Option String :=
  (normalizeMac T mac).bind fun norm => vendorSeed.lookup (String.ofList (norm.toList.take 8))

/-- `agent_mac_index`, as the set of its MACs. -/
def agentMacs (snapshots : List Snapshot) : List String :=
  snapshots.flatMap fun s => s.adapters.filterMap fun a => normalizeMac T a.mac

/-- What `_attach_agent` says of an agent in the cluster of a gateway. -/
def agentAt (gateway : String) (s : Snapshot) : Agent :=
  let q := gatewayQuality s gateway
  let a0 := (s.adapters.find? fun a => a.gateway = some gateway).getD {}
  { deviceId := s.deviceId
    hostname := s.hostname
    ip := a0.ipv4.head?
    mac := normalizeMac T a0.mac
    kind := a0.kind
    up := a0.up
    lossPct := q.bind (·.lossPct)
    latencyMs := q.bind (·.latencyMs)
    lastSeen := s.lastSeen }

def attachAgent (s : Snapshot) (c : Cluster) : Cluster :=
  let agent := agentAt T c.gateway s
  { c with
    agents := c.agents ++ [agent]
    losses := c.losses ++ agent.lossPct.toList
    latencies := c.latencies ++ agent.latencyMs.toList }

/-- `_attach_neighbors`: the gateway's own MAC, from the agent's neighbours. -/
def attachNeighbors (s : Snapshot) (known : List String) (c : Cluster) : Cluster :=
  s.neighbors.foldl (fun c n =>
    let mac := normalizeMac T n.mac
    if mac.any (· ∈ known) then c
    else if n.ip = some c.gateway then
      { c with gatewayMac := mac, gatewayVendor := vendorForMac T mac }
    else c) c

/-- `f(clusters.setdefault(gw, _new_cluster(gw)))`. -/
def update (f : Cluster → Cluster) (gw : String) (clusters : List Cluster) : List Cluster :=
  if gw ∈ clusters.map (·.gateway) then
    clusters.map fun c => if c.gateway = gw then f c else c
  else clusters ++ [f (newCluster gw)]

/-- One turn of the loop of `build_netmap`. -/
def attach (known : List String) (clusters : List Cluster) (s : Snapshot) : List Cluster :=
  let clusters := s.gateways.foldl (fun cs gw => update (attachAgent T s) gw cs) clusters
  match s.gateways with
  | [] => clusters
  | gw :: _ => update (attachNeighbors T s known) gw clusters

structure ClusterView where
  gateway : String
  subnetHint : Option String
  gatewayMac : Option String
  gatewayVendor : Option String
  agents : List Agent
  reporting : Nat
  degraded : Nat
  medianLossPct : Option ℚ
  medianLatencyMs : Option ℚ
  anomaly : Bool
  anomalyReason : Option String

def medianOf (values : List ℚ) : Option ℚ :=
  if values = [] then none else some (round1 (median values))

/-- The order of the agents of a cluster: by host name, and by device. -/
def Agent.sortKey (a : Agent) : String ×ₗ String := toLex (a.hostname.getD "", a.deviceId)

/-- `_finalize`. -/
def finalize (c : Cluster) : ClusterView :=
  let verdict := subnetAnomaly (c.agents.map (·.lossPct))
  { gateway := c.gateway
    subnetHint := c.subnetHint
    gatewayMac := c.gatewayMac
    gatewayVendor := c.gatewayVendor
    agents := c.agents.insertionSort fun a b => a.sortKey ≤ b.sortKey
    reporting := verdict.reporting
    degraded := verdict.degraded
    medianLossPct := medianOf c.losses
    medianLatencyMs := medianOf c.latencies
    anomaly := verdict.anomaly
    anomalyReason := verdict.reason }

structure Totals where
  agents : Nat
  clusters : Nat
  anomalies : Nat

structure NetMap where
  clusters : List ClusterView
  unclustered : List (String × Option String)
  totals : Totals

def buildNetmap (snapshots : List Snapshot) : NetMap :=
  let clusters := snapshots.foldl (attach T (agentMacs T snapshots)) []
  let out := (clusters.insertionSort fun c d => c.gateway ≤ d.gateway).map finalize
  { clusters := out
    unclustered := (snapshots.filter fun s => s.gateways = []).map fun s => (s.deviceId, s.hostname)
    totals := {
      agents := (snapshots.map (·.deviceId)).dedup.length
      clusters := out.length
      anomalies := out.countP (·.anomaly) } }

/-! ### The note of a device -/

/-- An f-string shows a missing hint as `None`. -/
def annotation (c : ClusterView) : String :=
  "Подсеть " ++ c.subnetHint.getD "None" ++ " (шлюз " ++ c.gateway ++ "): " ++
    c.anomalyReason.getD "None"

/-- The cluster is anomalous and the device is in it. -/
def warns (device : String) (c : ClusterView) : Bool :=
  c.anomaly && c.agents.any fun a => a.deviceId = device

def subnetContextFor (snapshots : List Snapshot) (device : String) : Option String :=
  match snapshots.find? fun s => s.deviceId = device with
  | none => none
  | some mine =>
    let myGateways := mine.adapters.filterMap Adapter.named
    if myGateways = [] then none
    else
      let subset := snapshots.filter fun s =>
        s.adapters.any fun a => a.gateway.any (· ∈ myGateways)
      ((buildNetmap T subset).clusters.find? (warns device)).map annotation

/-! ### The agents of a cluster -/

section Clusters

variable {T : PyText} {known : List String} {s : Snapshot} {done snapshots : List Snapshot}
  {clusters : List Cluster} {A : String → List Agent} {gw : String}

/-- The agents behind a gateway, in the order of their snapshots. -/
def agentsOf (T : PyText) (snapshots : List Snapshot) (gateway : String) : List Agent :=
  (snapshots.filter fun s => gateway ∈ s.gateways).map (agentAt T gateway)

/-- There is one cluster for each gateway that has agents, and it has all of them. -/
structure Holds (A : String → List Agent) (clusters : List Cluster) : Prop where
  nodup : (clusters.map (·.gateway)).Nodup
  gateways : ∀ g, g ∈ clusters.map (·.gateway) ↔ A g ≠ []
  agents : ∀ c ∈ clusters, c.agents = A c.gateway
  hint : ∀ c ∈ clusters, c.subnetHint = subnetHint c.gateway

theorem holds_nil : Holds (fun _ => []) [] := by
  constructor <;> simp

/-- The function adds agents to the cluster of one gateway, and changes neither that nor its hint. -/
structure Adds (f : Cluster → Cluster) (gw : String) (new : List Agent) : Prop where
  gateway : ∀ c, (f c).gateway = c.gateway
  hint : ∀ c, (f c).subnetHint = c.subnetHint
  agents : ∀ c, c.gateway = gw → (f c).agents = c.agents ++ new

theorem Holds.update_mem {f : Cluster → Cluster} {new : List Agent} (h : Holds A clusters)
    (hf : Adds f gw new) (hmem : gw ∈ clusters.map (·.gateway)) :
    Holds (Function.update A gw (A gw ++ new))
      (clusters.map fun c => if c.gateway = gw then f c else c) := by
  have hgateways : (clusters.map fun c => if c.gateway = gw then f c else c).map (·.gateway) =
      clusters.map (·.gateway) := by
    rw [List.map_map]
    refine List.map_congr_left fun c _ => ?_
    simp only [Function.comp_apply]
    split_ifs
    · exact hf.gateway c
    · rfl
  have hne : A gw ≠ [] := (h.gateways gw).mp hmem
  constructor
  · rw [hgateways]
    exact h.nodup
  · intro g
    rw [hgateways, h.gateways]
    by_cases hg : g = gw
    · simp [hg, hne]
    · rw [Function.update_of_ne hg]
  · simp only [List.forall_mem_map]
    intro c hc
    split_ifs with hg
    · rw [hf.agents c hg, hf.gateway, hg, Function.update_self, h.agents c hc, hg]
    · rw [Function.update_of_ne hg]
      exact h.agents c hc
  · simp only [List.forall_mem_map]
    intro c hc
    split_ifs with hg
    · rw [hf.hint, hf.gateway]
      exact h.hint c hc
    · exact h.hint c hc

theorem Holds.update_new {f : Cluster → Cluster} {new : List Agent} (h : Holds A clusters)
    (hf : Adds f gw new) (hne : A gw ++ new ≠ []) (hmem : gw ∉ clusters.map (·.gateway)) :
    Holds (Function.update A gw (A gw ++ new)) (clusters ++ [f (newCluster gw)]) := by
  have hgateway : (f (newCluster gw)).gateway = gw := hf.gateway _
  have hnone : A gw = [] := by
    by_contra hsome
    exact hmem ((h.gateways gw).mpr hsome)
  have hother : ∀ c ∈ clusters, c.gateway ≠ gw := fun c hc heq =>
    hmem (heq ▸ List.mem_map_of_mem hc)
  constructor
  · rw [List.map_append, List.map_singleton, hgateway]
    exact List.nodup_append.mpr ⟨h.nodup, List.nodup_singleton gw, by
      rintro a ha b hb rfl
      exact hmem (List.mem_singleton.mp hb ▸ ha)⟩
  · intro g
    rw [List.map_append, List.mem_append, List.map_singleton, hgateway, List.mem_singleton,
      h.gateways]
    by_cases hg : g = gw
    · subst hg
      simp [hne]
    · rw [Function.update_of_ne hg]
      simp [hg]
  · intro c hc
    rcases List.mem_append.mp hc with hc | hc
    · rw [Function.update_of_ne (hother c hc)]
      exact h.agents c hc
    · obtain rfl := List.mem_singleton.mp hc
      rw [hgateway, Function.update_self, hf.agents _ rfl, hnone]
      rfl
  · intro c hc
    rcases List.mem_append.mp hc with hc | hc
    · exact h.hint c hc
    · obtain rfl := List.mem_singleton.mp hc
      rw [hf.hint, hf.gateway]
      rfl

theorem Holds.update {f : Cluster → Cluster} {new : List Agent} (h : Holds A clusters)
    (hf : Adds f gw new) (hne : A gw ++ new ≠ []) :
    Holds (Function.update A gw (A gw ++ new)) (update f gw clusters) := by
  unfold Netmap.update
  split_ifs with hmem
  · exact h.update_mem hf hmem
  · exact h.update_new hf hne hmem

theorem adds_attachAgent : Adds (attachAgent T s) gw [agentAt T gw s] :=
  ⟨fun _ => rfl, fun _ => rfl, fun c hc => by rw [← hc]; rfl⟩

theorem adds_attachNeighbors : Adds (attachNeighbors T s known) gw [] := by
  have hkeeps : ∀ c : Cluster, (attachNeighbors T s known c).gateway = c.gateway ∧
      (attachNeighbors T s known c).subnetHint = c.subnetHint ∧
      (attachNeighbors T s known c).agents = c.agents := by
    unfold attachNeighbors
    induction s.neighbors with
    | nil => exact fun c => ⟨rfl, rfl, rfl⟩
    | cons n rest ih =>
      intro c
      rw [List.foldl_cons]
      obtain ⟨hgateway, hhint, hagents⟩ := ih (if (normalizeMac T n.mac).any (· ∈ known) then c
        else if n.ip = some c.gateway then
          { c with
            gatewayMac := normalizeMac T n.mac
            gatewayVendor := vendorForMac T (normalizeMac T n.mac) }
        else c)
      refine ⟨hgateway.trans ?_, hhint.trans ?_, hagents.trans ?_⟩ <;> split_ifs <;> rfl
  exact ⟨fun c => (hkeeps c).1, fun c => (hkeeps c).2.1, fun c _ => by
    rw [(hkeeps c).2.2, List.append_nil]⟩

/-- Attaching an agent at several gateways adds it behind each of them. -/
theorem Holds.attachAll (h : Holds A clusters) {gws : List String} (hgws : gws.Nodup) :
    Holds (fun g => if g ∈ gws then A g ++ [agentAt T g s] else A g)
      (gws.foldl (fun cs gw => Netmap.update (attachAgent T s) gw cs) clusters) := by
  induction gws generalizing A clusters with
  | nil => simpa using h
  | cons gw gws ih =>
    obtain ⟨hgw, hgws⟩ := List.nodup_cons.mp hgws
    have hfirst := h.update (@adds_attachAgent T s gw) (by simp)
    have hrest := ih hfirst hgws
    rw [List.foldl_cons]
    convert hrest using 2 with g
    by_cases hg : g = gw
    · subst hg
      simp [hgw]
    · simp [hg]

theorem gateways_nodup : s.gateways.Nodup :=
  (List.perm_insertionSort _ _).nodup_iff.mpr (List.nodup_dedup _)

theorem mem_gateways {g : String} : g ∈ s.gateways ↔ g ∈ s.adapters.filterMap Adapter.named := by
  rw [Snapshot.gateways, List.mem_insertionSort, List.mem_dedup]

/-- One snapshot more. -/
theorem Holds.attach (h : Holds (agentsOf T done) clusters) :
    Holds (agentsOf T (done ++ [s])) (attach T known clusters s) := by
  have hagents : agentsOf T (done ++ [s]) =
      fun g => if g ∈ s.gateways then agentsOf T done g ++ [agentAt T g s]
        else agentsOf T done g := by
    funext g
    unfold agentsOf
    by_cases hg : g ∈ s.gateways <;> simp [hg, List.filter_append]
  have hall : Holds (agentsOf T (done ++ [s]))
      (s.gateways.foldl (fun cs gw => Netmap.update (attachAgent T s) gw cs) clusters) := by
    rw [hagents]
    exact h.attachAll gateways_nodup
  unfold Netmap.attach
  split
  · exact hall
  · next gw rest hgws =>
    have hsome : agentsOf T (done ++ [s]) gw ++ [] ≠ [] := by
      rw [hagents, hgws]
      simp
    have hneighbors := hall.update (@adds_attachNeighbors T known s gw) hsome
    rwa [List.append_nil, Function.update_eq_self] at hneighbors

theorem holds_clusters (snapshots : List Snapshot) :
    Holds (agentsOf T snapshots) (snapshots.foldl (Netmap.attach T known) []) := by
  induction snapshots using List.reverseRecOn with
  | nil => exact holds_nil
  | append_singleton done s ih =>
    rw [List.foldl_append]
    exact ih.attach

end Clusters

/-! ### What the map says behind a gateway -/

section Notes

variable (T : PyText) (snapshots : List Snapshot) (device : String)

def verdictAt (gateway : String) : SubnetVerdict :=
  subnetAnomaly ((agentsOf T snapshots gateway).map (·.lossPct))

def noteAt (gateway : String) : String :=
  "Подсеть " ++ (subnetHint gateway).getD "None" ++ " (шлюз " ++ gateway ++ "): " ++
    (verdictAt T snapshots gateway).reason.getD "None"

def warnsAt (gateway : String) : Bool :=
  (verdictAt T snapshots gateway).anomaly &&
    (agentsOf T snapshots gateway).any fun a => a.deviceId = device

/-- The gateways of the map, in its order. -/
def mapGateways : List String := (buildNetmap T snapshots).clusters.map (·.gateway)

variable {T snapshots device}

theorem warns_finalize {clusters : List Cluster} (h : Holds (agentsOf T snapshots) clusters)
    {c : Cluster} (hc : c ∈ clusters) :
    warns device (finalize c) = warnsAt T snapshots device c.gateway := by
  have hany : (finalize c).agents.any (fun a => a.deviceId = device) =
      (agentsOf T snapshots c.gateway).any fun a => a.deviceId = device := by
    rw [← h.agents c hc]
    exact (List.perm_insertionSort _ c.agents).any_eq
  have hanomaly : (finalize c).anomaly = (verdictAt T snapshots c.gateway).anomaly := by
    rw [verdictAt, ← h.agents c hc]
    rfl
  rw [warns, hany, hanomaly, warnsAt]

theorem annotation_finalize {clusters : List Cluster} (h : Holds (agentsOf T snapshots) clusters)
    {c : Cluster} (hc : c ∈ clusters) :
    annotation (finalize c) = noteAt T snapshots c.gateway := by
  have hhint : (finalize c).subnetHint = c.subnetHint := rfl
  have hreason : (finalize c).anomalyReason =
      (subnetAnomaly (c.agents.map (·.lossPct))).reason := rfl
  have hgateway : (finalize c).gateway = c.gateway := rfl
  unfold annotation noteAt verdictAt
  simp only [hhint, hreason, hgateway, h.hint c hc, h.agents c hc]

theorem find?_map_congr {α β : Type} {l : List α} {p q : α → Bool} {f g : α → β}
    (hp : ∀ x ∈ l, p x = q x) (hf : ∀ x ∈ l, f x = g x) :
    (l.find? p).map f = (l.find? q).map g := by
  induction l with
  | nil => rfl
  | cons x l ih =>
    rw [List.forall_mem_cons] at hp hf
    rw [List.find?_cons, List.find?_cons, hp.1]
    cases q x with
    | true => exact congrArg some hf.1
    | false => exact ih hp.2 hf.2

/-- The first warning of the map, by its gateways. -/
theorem find_warns : ((buildNetmap T snapshots).clusters.find? (warns device)).map annotation =
    ((mapGateways T snapshots).find? (warnsAt T snapshots device)).map (noteAt T snapshots) := by
  have hholds : Holds (agentsOf T snapshots)
      (snapshots.foldl (attach T (agentMacs T snapshots)) []) := holds_clusters snapshots
  unfold mapGateways buildNetmap
  simp only [List.find?_map, List.map_map, Option.map_map]
  refine find?_map_congr ?_ ?_
  · intro c hc
    exact warns_finalize hholds ((List.mem_insertionSort _).mp hc)
  · intro c hc
    exact annotation_finalize hholds ((List.mem_insertionSort _).mp hc)

theorem agentsOf_ne_nil {g : String} :
    agentsOf T snapshots g ≠ [] ↔ ∃ s ∈ snapshots, g ∈ s.gateways := by
  simp [agentsOf]

instance : Std.Total fun c d : Cluster => c.gateway ≤ d.gateway :=
  ⟨fun c d => le_total c.gateway d.gateway⟩

instance : IsTrans Cluster fun c d => c.gateway ≤ d.gateway :=
  ⟨fun _ _ _ h h' => le_trans h h'⟩

/-- The gateways of the map are those that its snapshots name, each once and in order. -/
theorem mapGateways_spec : (mapGateways T snapshots).Nodup ∧
    (mapGateways T snapshots).Pairwise (· ≤ ·) ∧
    ∀ g, g ∈ mapGateways T snapshots ↔ ∃ s ∈ snapshots, g ∈ s.gateways := by
  have hholds : Holds (agentsOf T snapshots)
      (snapshots.foldl (attach T (agentMacs T snapshots)) []) := holds_clusters snapshots
  have hperm := (List.perm_insertionSort (fun c d : Cluster => c.gateway ≤ d.gateway)
    (snapshots.foldl (attach T (agentMacs T snapshots)) [])).map (·.gateway)
  have heq : mapGateways T snapshots =
      ((snapshots.foldl (attach T (agentMacs T snapshots)) []).insertionSort
        fun c d => c.gateway ≤ d.gateway).map (·.gateway) := by
    rw [mapGateways, buildNetmap, List.map_map]
    rfl
  rw [heq]
  refine ⟨hperm.nodup_iff.mpr hholds.nodup, ?_, ?_⟩
  · rw [List.pairwise_map]
    exact List.pairwise_insertionSort _ _
  · intro g
    rw [hperm.mem_iff, hholds.gateways, agentsOf_ne_nil]

/-! ### The agents that share a gateway with a device -/

/-- Behind one's own gateways the agents are the same, and so is what is said of them. -/
theorem agentsOf_sharing {gateways : List String} {g : String} (hg : g ∈ gateways) :
    agentsOf T (snapshots.filter fun s => s.adapters.any fun a => a.gateway.any (· ∈ gateways)) g =
      agentsOf T snapshots g := by
  unfold agentsOf
  rw [List.filter_filter]
  congr 1
  refine List.filter_congr fun s _ => ?_
  by_cases hs : g ∈ s.gateways
  · obtain ⟨a, ha, hnamed⟩ := List.mem_filterMap.mp (mem_gateways.mp hs)
    have hgateway : a.gateway = some g := (Option.filter_eq_some_iff.mp hnamed).1
    have hshares : (s.adapters.any fun a => a.gateway.any (· ∈ gateways)) = true :=
      List.any_eq_true.mpr ⟨a, ha, by simpa [hgateway] using hg⟩
    rw [hshares]
    simp
  · simp [hs]

/-- A device is only behind the gateways of its own snapshot. -/
theorem warnsAt_mine {mine : Snapshot} (hdistinct : (snapshots.map (·.deviceId)).Nodup)
    (hmine : mine ∈ snapshots) (hdevice : mine.deviceId = device) {g : String}
    (h : warnsAt T snapshots device g = true) : g ∈ mine.gateways := by
  obtain ⟨-, hany⟩ := Bool.and_eq_true_iff.mp h
  obtain ⟨a, ha, hid⟩ := List.any_eq_true.mp hany
  obtain ⟨s, hs, rfl⟩ := List.mem_map.mp ha
  obtain ⟨hs, hg⟩ := List.mem_filter.mp hs
  have hsame : s.deviceId = mine.deviceId := (of_decide_eq_true hid).trans hdevice.symm
  obtain rfl := List.inj_on_of_nodup_map hdistinct hs hmine hsame
  exact of_decide_eq_true hg

theorem find?_restrict {α : Type} {p : α → Bool} {l : List α} {q : α → Bool}
    (h : ∀ x, p x = true → q x = true) : (l.filter q).find? p = l.find? p := by
  rw [List.find?_filter]
  congr 1
  funext x
  cases hp : p x with
  | false => simp
  | true => simp [h x hp]

theorem warnsAt_congr {subset : List Snapshot} {g : String}
    (h : agentsOf T subset g = agentsOf T snapshots g) :
    warnsAt T subset device g = warnsAt T snapshots device g := by
  unfold warnsAt verdictAt
  rw [h]

theorem noteAt_congr {subset : List Snapshot} {g : String}
    (h : agentsOf T subset g = agentsOf T snapshots g) :
    noteAt T subset g = noteAt T snapshots g := by
  have hverdict : verdictAt T subset g = verdictAt T snapshots g := by
    unfold verdictAt
    rw [h]
  unfold noteAt
  rw [hverdict]

theorem mapGateways_filter {subset : List Snapshot} {mine : Snapshot} (h : mine ∈ snapshots)
    (hsub : mine ∈ subset) :
    (mapGateways T subset).filter (· ∈ mine.gateways) =
      (mapGateways T snapshots).filter (· ∈ mine.gateways) := by
  obtain ⟨hnodup, hsorted, hmem⟩ := @mapGateways_spec T snapshots
  obtain ⟨hnodup', hsorted', hmem'⟩ := @mapGateways_spec T subset
  refine List.Perm.eq_of_pairwise (fun a b _ _ hab hba => le_antisymm hab hba)
    (hsorted'.filter _) (hsorted.filter _) ?_
  rw [List.perm_ext_iff_of_nodup (hnodup'.filter _) (hnodup.filter _)]
  intro g
  rw [List.mem_filter, List.mem_filter, hmem, hmem']
  constructor
  · rintro ⟨-, hg⟩
    exact ⟨⟨mine, h, of_decide_eq_true hg⟩, hg⟩
  · rintro ⟨-, hg⟩
    exact ⟨⟨mine, hsub, of_decide_eq_true hg⟩, hg⟩

theorem not_warnsAt_of_absent (h : snapshots.find? (fun s => s.deviceId = device) = none)
    (g : String) : ¬ warnsAt T snapshots device g = true := by
  intro hwarns
  obtain ⟨a, ha, hid⟩ := List.any_eq_true.mp (Bool.and_eq_true_iff.mp hwarns).2
  obtain ⟨s, hs, rfl⟩ := List.mem_map.mp ha
  exact List.find?_eq_none.mp h s (List.mem_filter.mp hs).1 hid

/-- A device with a named gateway is among those that share one with it. -/
theorem mem_sharing {mine : Snapshot} (hmine : mine ∈ snapshots)
    (hnamed : mine.adapters.filterMap Adapter.named ≠ []) :
    mine ∈ snapshots.filter fun s =>
      s.adapters.any fun a => a.gateway.any (· ∈ mine.adapters.filterMap Adapter.named) := by
  obtain ⟨g, hg⟩ := List.exists_mem_of_ne_nil _ hnamed
  obtain ⟨a, ha, hga⟩ := List.mem_filterMap.mp hg
  have hgateway : a.gateway = some g := (Option.filter_eq_some_iff.mp hga).1
  refine List.mem_filter.mpr ⟨hmine, List.any_eq_true.mpr ⟨a, ha, ?_⟩⟩
  rw [hgateway]
  exact decide_eq_true hg

end Notes

/-- **The note of a device is the first warning of the whole map.** -/
theorem subnetContextFor_eq (T : PyText) (snapshots : List Snapshot)
    (hdistinct : (snapshots.map (·.deviceId)).Nodup) (device : String) :
    subnetContextFor T snapshots device =
      ((buildNetmap T snapshots).clusters.find? (warns device)).map annotation := by
  have hnever : (∀ g, ¬ warnsAt T snapshots device g = true) →
      ((buildNetmap T snapshots).clusters.find? (warns device)).map annotation = none := by
    intro h
    rw [find_warns, List.find?_eq_none.mpr fun g _ => h g]
    rfl
  unfold subnetContextFor
  cases hfind : snapshots.find? fun s => s.deviceId = device with
  | none =>
    exact (hnever (not_warnsAt_of_absent hfind)).symm
  | some mine =>
    have hmine := List.mem_of_find?_eq_some hfind
    have hdevice : mine.deviceId = device := by simpa using List.find?_some hfind
    have hown : ∀ g, warnsAt T snapshots device g = true → g ∈ mine.gateways :=
      fun g => warnsAt_mine hdistinct hmine hdevice
    dsimp only
    split_ifs with hnone
    · refine (hnever fun g hg => ?_).symm
      have hg := mem_gateways.mp (hown g hg)
      rw [hnone] at hg
      cases hg
    · set subset := snapshots.filter fun s =>
        s.adapters.any fun a => a.gateway.any (· ∈ mine.adapters.filterMap Adapter.named)
        with hsubset
      have hsub : mine ∈ subset := mem_sharing hmine hnone
      have hown' : ∀ g, warnsAt T subset device g = true → g ∈ mine.gateways :=
        fun g => warnsAt_mine (hdistinct.sublist (List.filter_sublist.map _)) hsub hdevice
      have hagents : ∀ g ∈ mine.gateways, agentsOf T subset g = agentsOf T snapshots g :=
        fun g hg => agentsOf_sharing (mem_gateways.mp hg)
      rw [find_warns, find_warns,
        ← find?_restrict (q := (· ∈ mine.gateways)) fun g hg => decide_eq_true (hown g hg),
        ← find?_restrict (q := (· ∈ mine.gateways)) fun g hg => decide_eq_true (hown' g hg),
        mapGateways_filter hmine hsub]
      refine find?_map_congr ?_ ?_
      · intro g hg
        have hg := of_decide_eq_true (List.mem_filter.mp hg).2
        exact warnsAt_congr (hagents g hg)
      · intro g hg
        have hg := of_decide_eq_true (List.mem_filter.mp hg).2
        exact noteAt_congr (hagents g hg)

/-- An agent that loses half of its probes to each of its gateways. -/
private def losing (device : String) (gateways : List String) : Snapshot where
  deviceId := device
  adapters := gateways.map fun g => { gateway := some g }
  quality := gateways.map fun g =>
    { targetKind := some "gateway", target := some g, lossPct := some 50, latencyMs := some 3 }

/-- `d2` has two gateways; behind the second one the note of `d1` does not see `d3`. -/
private def twoSubnets : List Snapshot :=
  [losing "d1" ["10.0.0.1"], losing "d2" ["10.0.0.1", "10.0.1.1"], losing "d3" ["10.0.1.1"]]

theorem subnetContextFor_two_subnets :
    (subnetContextFor (.ascii fun _ => none) twoSubnets "d1").isSome = true ∧
      subnetContextFor (.ascii fun _ => none) twoSubnets "d1" =
        ((buildNetmap (.ascii fun _ => none) twoSubnets).clusters.find? (warns "d1")).map
          annotation :=
  ⟨by decide +kernel, subnetContextFor_eq _ twoSubnets (by decide) "d1"⟩

end Srp.Analytics.Netmap
