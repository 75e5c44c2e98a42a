/-
  Srp/Netdisco/AgentNodes.lean
  ============================
  **Which agents keep their node on the unified map.**

  Only the turn of a snapshot changes the `device_id` of a node: it writes its own
  to the node that it is placed at.  So an agent keeps its node iff no later
  snapshot is placed there (`represented_iff`).  Printers, link ends and gateways
  leave every `device_id` as it is (`deviceAt_networkNodes`).
-/
import Srp.Netdisco.NetworkMap

namespace Srp.Netdisco

open Srp.Lib Srp.Lib.Table

/-- The `device_id` of a node, if there is the node and it has one. -/
def deviceAt (nodes : List Node) (nid : String) : Option String :=
  (row Node.nid nodes nid).bind (·.deviceId)

theorem row_setNode (node : Node) (nodes : List Node) (m : String) :
    row Node.nid (setNode node nodes) m = if m = node.nid then some node else row Node.nid nodes m := by
  unfold setNode
  rw [row_upsert (fun _ _ => rfl)]
  by_cases h : m = node.nid
  · rw [if_pos h, if_pos h]
    cases row Node.nid nodes m <;> rfl
  · rw [if_neg h, if_neg h]

theorem deviceAt_setNode (node : Node) (nodes : List Node) (m : String) :
    deviceAt (setNode node nodes) m = if m = node.nid then node.deviceId else deviceAt nodes m := by
  unfold deviceAt
  rw [row_setNode]
  by_cases h : m = node.nid
  · rw [if_pos h, if_pos h]
    rfl
  · rw [if_neg h, if_neg h]

/-- Writing a node with the `device_id` that is there changes none. -/
theorem deviceAt_setNode_of_same {node : Node} {nodes : List Node}
    (h : node.deviceId = deviceAt nodes node.nid) (m : String) :
    deviceAt (setNode node nodes) m = deviceAt nodes m := by
  rw [deviceAt_setNode]
  by_cases hm : m = node.nid
  · rw [if_pos hm, h, hm]
  · rw [if_neg hm]

theorem deviceAt_of_row {nodes : List Node} {nid : String} {node : Node}
    (h : row Node.nid nodes nid = some node) : deviceAt nodes node.nid = node.deviceId := by
  rw [deviceAt, (row_eq_some h).2, h]
  rfl

theorem deviceAt_of_no_row {nodes : List Node} {nid : String}
    (h : row Node.nid nodes nid = none) : deviceAt nodes nid = none := by
  rw [deviceAt, h]
  rfl

theorem nodup_setNode (node : Node) {nodes : List Node} (h : (nodes.map Node.nid).Nodup) :
    ((setNode node nodes).map Node.nid).Nodup :=
  nodup_keys_upsert (fun _ _ => rfl) h

/-- The nodes keep their identities apart, and no `device_id` changes. -/
structure SameDevices (nodes nodes' : List Node) : Prop where
  nodup : (nodes.map Node.nid).Nodup → (nodes'.map Node.nid).Nodup
  device : ∀ m, deviceAt nodes' m = deviceAt nodes m

theorem SameDevices.refl (nodes : List Node) : SameDevices nodes nodes := ⟨id, fun _ => rfl⟩

theorem SameDevices.trans {xs ys zs : List Node} (h : SameDevices xs ys) (h' : SameDevices ys zs) :
    SameDevices xs zs :=
  ⟨fun hx => h'.nodup (h.nodup hx), fun m => (h'.device m).trans (h.device m)⟩

theorem sameDevices_foldl {α : Type} {f : List Node → α → List Node}
    (h : ∀ nodes a, SameDevices nodes (f nodes a)) (as : List α) (nodes : List Node) :
    SameDevices nodes (as.foldl f nodes) := by
  induction as generalizing nodes with
  | nil => exact .refl nodes
  | cons a as ih => exact (h nodes a).trans (ih (f nodes a))

theorem sameDevices_setNode {node : Node} {nodes : List Node}
    (h : node.deviceId = deviceAt nodes node.nid) : SameDevices nodes (setNode node nodes) :=
  ⟨nodup_setNode node, deviceAt_setNode_of_same h⟩

section Map

variable (T : PyText)

/-! ### What comes after the agents -/

theorem sameDevices_mergePrinter (σ : MapState) (p : PrinterRow) :
    SameDevices σ.nodes (mergePrinter T σ p).nodes := by
  unfold mergePrinter
  cases truthy p.printerId with
  | none => exact .refl _
  | some pid =>
    dsimp only
    generalize (truthy (σ.byPrinterId.get pid)).getD (resolveNid T σ.byMac σ.byIp p.mac p.ip) = nid
    by_cases hunknown : nid = "nd-unknown"
    · rw [if_pos hunknown]
      exact .refl _
    · rw [if_neg hunknown]
      apply sameDevices_setNode
      cases hrow : row Node.nid σ.nodes nid with
      | some node => exact (deviceAt_of_row hrow).symm
      | none => exact (deviceAt_of_no_row hrow).symm

theorem sameDevices_mergePrinters (printers : List PrinterRow) (σ : MapState) :
    SameDevices σ.nodes (printers.foldl (mergePrinter T) σ).nodes := by
  induction printers generalizing σ with
  | nil => exact .refl _
  | cons p printers ih => exact (sameDevices_mergePrinter T σ p).trans (ih _)

theorem sameDevices_ensureEnd (nodes : List Node) (nid : Option String) :
    SameDevices nodes (ensureEnd nodes nid) := by
  unfold ensureEnd
  cases truthy nid with
  | none => exact .refl nodes
  | some nid =>
    cases hrow : row Node.nid nodes nid with
    | some node => simpa [hrow] using SameDevices.refl nodes
    | none =>
      simp only [hrow, Option.isSome_none, Bool.false_eq_true, if_false]
      exact sameDevices_setNode (deviceAt_of_no_row hrow).symm

theorem sameDevices_ensureLinkEnds (links : List NetLink) (nodes : List Node) :
    SameDevices nodes (ensureLinkEnds nodes links) := by
  unfold ensureLinkEnds
  apply sameDevices_foldl
  intro nodes l
  exact (sameDevices_ensureEnd nodes l.aNid).trans (sameDevices_ensureEnd _ l.bNid)

theorem sameDevices_ensureGateway (nodes : List Node) (nid gw : String) (mac : Option String) :
    SameDevices nodes (ensureGateway T nodes nid gw mac) := by
  unfold ensureGateway
  cases hrow : row Node.nid nodes nid with
  | none => exact sameDevices_setNode (deviceAt_of_no_row hrow).symm
  | some node =>
    dsimp only
    split
    · exact sameDevices_setNode (deviceAt_of_row hrow).symm
    · exact .refl nodes

theorem sameDevices_ensureUplinks (σ : MapState) (nodes : List Node) (snap : Snapshot) :
    SameDevices nodes (ensureUplinks T σ nodes snap) := by
  unfold ensureUplinks
  split
  · exact .refl nodes
  · exact sameDevices_foldl (fun nodes gw => sameDevices_ensureGateway T nodes _ gw _) _ nodes

/-- The finished nodes, before they are sorted, have the `device_id`s of the agents' turns. -/
theorem deviceAt_networkNodes (inp : MapInput) :
    ∃ nodes, (networkNodes T inp).Perm nodes ∧ SameDevices (agentsMerged T inp).nodes nodes := by
  refine ⟨_, List.perm_insertionSort _ _, ?_⟩
  exact ((sameDevices_mergePrinters T inp.printers _).trans
    (sameDevices_ensureLinkEnds inp.netLinks _)).trans
      (sameDevices_foldl (sameDevices_ensureUplinks T _) inp.snapshots _)

/-! ### One snapshot -/

/-- The node that the turn of a snapshot places it at, if any. -/
def placedAt (σ : MapState) (snap : Snapshot) : Option String :=
  match truthy snap.deviceId with
  | none => none
  | some did =>
    if resolveAgent T σ snap did = "nd-unknown" then none else some (resolveAgent T σ snap did)

theorem placedAt_ne_unknown (σ : MapState) (snap : Snapshot) :
    placedAt T σ snap ≠ some "nd-unknown" := by
  unfold placedAt
  cases truthy snap.deviceId with
  | none => simp
  | some did =>
    by_cases h : resolveAgent T σ snap did = "nd-unknown" <;> simp [h]

theorem mergeAgent_of_not_placed {σ : MapState} {snap : Snapshot} (h : placedAt T σ snap = none) :
    mergeAgent T σ snap = σ := by
  unfold placedAt at h
  unfold mergeAgent
  cases hdid : truthy snap.deviceId with
  | none => rfl
  | some did =>
    rw [hdid] at h
    by_cases hunknown : resolveAgent T σ snap did = "nd-unknown"
    · simp only [if_pos hunknown]
    · simp [hunknown] at h

/-- A snapshot that is placed writes its `device_id` to that node, and to the index. -/
theorem mergeAgent_of_placed {σ : MapState} {snap : Snapshot} {nid : String}
    (h : placedAt T σ snap = some nid) :
    ∃ did node, truthy snap.deviceId = some did ∧ node.nid = nid ∧ node.deviceId = some did ∧
      (mergeAgent T σ snap).nodes = setNode node σ.nodes ∧
      (mergeAgent T σ snap).byDeviceId = σ.byDeviceId.set did nid := by
  unfold placedAt at h
  unfold mergeAgent
  cases hdid : truthy snap.deviceId with
  | none =>
    rw [hdid] at h
    cases h
  | some did =>
    rw [hdid] at h
    dsimp only at h ⊢
    by_cases hunknown : resolveAgent T σ snap did = "nd-unknown"
    · rw [if_pos hunknown] at h
      cases h
    · rw [if_neg hunknown] at h
      obtain rfl := Option.some.inj h
      rw [if_neg hunknown]
      refine ⟨did, _, rfl, ?_, ?_, rfl, rfl⟩
      · cases hrow : row Node.nid σ.nodes (resolveAgent T σ snap did) with
        | some node => exact (row_eq_some hrow).2
        | none => rfl
      · cases row Node.nid σ.nodes (resolveAgent T σ snap did) with
        | some node => rfl
        | none => rfl

theorem deviceAt_mergeAgent (σ : MapState) (snap : Snapshot) (m : String) :
    deviceAt (mergeAgent T σ snap).nodes m =
      if placedAt T σ snap = some m then truthy snap.deviceId else deviceAt σ.nodes m := by
  cases hplaced : placedAt T σ snap with
  | none =>
    rw [mergeAgent_of_not_placed T hplaced]
    rfl
  | some nid =>
    obtain ⟨did, node, hdid, rfl, hdevice, hnodes, _⟩ := mergeAgent_of_placed T hplaced
    rw [hnodes, deviceAt_setNode, hdevice, hdid]
    by_cases hm : m = node.nid
    · rw [if_pos hm, if_pos (by rw [hm])]
    · rw [if_neg hm, if_neg (fun h => hm (Option.some.inj h).symm)]

theorem byDeviceId_mergeAgent (σ : MapState) (snap : Snapshot) (did : String) :
    (mergeAgent T σ snap).byDeviceId.get did =
      if truthy snap.deviceId = some did ∧ (placedAt T σ snap).isSome then placedAt T σ snap
      else σ.byDeviceId.get did := by
  cases hplaced : placedAt T σ snap with
  | none =>
    rw [mergeAgent_of_not_placed T hplaced]
    simp
  | some nid =>
    obtain ⟨did', node, hdid, rfl, _, _, hindex⟩ := mergeAgent_of_placed T hplaced
    rw [hindex, Index.get_set, hdid]
    by_cases hd : did = did'
    · simp [hd]
    · have hd' : ¬ did' = did := fun h => hd h.symm
      simp [hd, hd']

theorem nodup_mergeAgent (σ : MapState) (snap : Snapshot) (h : (σ.nodes.map Node.nid).Nodup) :
    ((mergeAgent T σ snap).nodes.map Node.nid).Nodup := by
  cases hplaced : placedAt T σ snap with
  | none =>
    rw [mergeAgent_of_not_placed T hplaced]
    exact h
  | some nid =>
    obtain ⟨_, node, _, _, _, hnodes, _⟩ := mergeAgent_of_placed T hplaced
    rw [hnodes]
    exact nodup_setNode node h

/-! ### A run of snapshots -/

/-- The turns of the snapshots. -/
def merging : Machine MapState Snapshot Unit where
  next := mergeAgent T
  out _ _ := ()

/-- No snapshot of the run is placed at the node. -/
def Avoids (m : String) (σ : MapState) (snaps : List Snapshot) : Prop :=
  (merging T).Along (fun σ snap => placedAt T σ snap ≠ some m) σ snaps

theorem avoids_unknown (σ : MapState) (snaps : List Snapshot) : Avoids T "nd-unknown" σ snaps := by
  induction snaps generalizing σ with
  | nil => exact True.intro
  | cons snap snaps ih => exact ⟨placedAt_ne_unknown T σ snap, ih _⟩

theorem nodup_mergeAgents (snaps : List Snapshot) {σ : MapState} (h : (σ.nodes.map Node.nid).Nodup) :
    (((merging T).stateAfter σ snaps).nodes.map Node.nid).Nodup := by
  have hstep : ∀ σ snap, (σ.nodes.map Node.nid).Nodup →
      (((merging T).next σ snap).nodes.map Node.nid).Nodup := nodup_mergeAgent T
  exact Machine.stateAfter_invariant hstep h snaps

/-- Among snapshots of other agents, an agent's `device_id` stays where it was at the nodes that
    none of them is placed at, and goes elsewhere. -/
theorem deviceAt_stateAfter {did : String} {snaps : List Snapshot}
    (hother : ∀ snap ∈ snaps, truthy snap.deviceId ≠ some did) (σ : MapState) (m : String) :
    deviceAt ((merging T).stateAfter σ snaps).nodes m = some did ↔
      deviceAt σ.nodes m = some did ∧ Avoids T m σ snaps := by
  induction snaps generalizing σ with
  | nil =>
    constructor
    · intro h
      exact ⟨h, True.intro⟩
    · exact And.left
  | cons snap snaps ih =>
    obtain ⟨hsnap, hsnaps⟩ := List.forall_mem_cons.mp hother
    rw [Machine.stateAfter_cons, ih hsnaps]
    have hstep := deviceAt_mergeAgent T σ snap m
    by_cases hplaced : placedAt T σ snap = some m
    · rw [if_pos hplaced] at hstep
      constructor
      · rintro ⟨h, _⟩
        exact absurd (hstep.symm.trans h) hsnap
      · rintro ⟨_, h, _⟩
        exact absurd hplaced h
    · rw [if_neg hplaced] at hstep
      constructor
      · rintro ⟨h, havoid⟩
        exact ⟨hstep.symm.trans h, hplaced, havoid⟩
      · rintro ⟨h, _, havoid⟩
        exact ⟨hstep.trans h, havoid⟩

theorem byDeviceId_stateAfter {did : String} {snaps : List Snapshot}
    (hother : ∀ snap ∈ snaps, truthy snap.deviceId ≠ some did) (σ : MapState) :
    ((merging T).stateAfter σ snaps).byDeviceId.get did = σ.byDeviceId.get did := by
  induction snaps generalizing σ with
  | nil => rfl
  | cons snap snaps ih =>
    obtain ⟨hsnap, hsnaps⟩ := List.forall_mem_cons.mp hother
    rw [Machine.stateAfter_cons, ih hsnaps]
    refine (byDeviceId_mergeAgent T σ snap did).trans (if_neg ?_)
    exact fun h => hsnap h.1

/-! ### The rows -/

/-- What the rows leave behind: nodes apart, and an index of every `device_id` that a node has. -/
structure Seeded (σ : MapState) : Prop where
  nodup : (σ.nodes.map Node.nid).Nodup
  indexed : ∀ m did, truthy (deviceAt σ.nodes m) = some did → (σ.byDeviceId.get did).isSome
  named : ∀ did nid, σ.byDeviceId.get did = some nid → nid ≠ ""

theorem truthy_eq_some {s : Option String} {v : String} (h : truthy s = some v) :
    s = some v ∧ v ≠ "" := by
  obtain ⟨hs, hv⟩ := Option.filter_eq_some_iff.mp h
  exact ⟨hs, by simpa using hv⟩

theorem truthy_some {v : String} (h : v ≠ "") : truthy (some v) = some v :=
  Option.filter_eq_some_iff.mpr ⟨rfl, by simpa using h⟩

theorem seeded_nil : Seeded {} where
  nodup := List.nodup_nil
  indexed := by
    intro m did h
    cases h
  named := by
    intro did nid h
    cases h

theorem get_setdefault_eq (d : Index) (k : Option String) (v j : String) :
    (d.setdefault k v).get j = if k = some j then some ((d.get j).getD v) else d.get j := by
  cases k with
  | none => rfl
  | some k =>
    rw [Index.get_setdefault]
    by_cases h : j = k
    · rw [if_pos h, if_pos (by rw [h]), h]
    · rw [if_neg h, if_neg (fun hk => h (Option.some.inj hk).symm)]

theorem seeded_seedNetDevice {σ : MapState} (h : Seeded σ) (d : NetDevice) :
    Seeded (seedNetDevice T σ d) := by
  unfold seedNetDevice
  cases hnid : truthy d.deviceNid with
  | none => exact h
  | some nid =>
    refine ⟨nodup_setNode _ h.nodup, ?_, ?_⟩
    · intro m did hdid
      dsimp only at hdid ⊢
      rw [get_setdefault_eq]
      by_cases hd : truthy d.deviceId = some did
      · rw [if_pos hd]
        rfl
      · rw [if_neg hd]
        rw [deviceAt_setNode] at hdid
        by_cases hm : m = (nodeFromNetDevice T nid d).nid
        · rw [if_pos hm] at hdid
          exact absurd hdid hd
        · rw [if_neg hm] at hdid
          exact h.indexed m did hdid
    · intro did nid' hget
      dsimp only at hget
      rw [get_setdefault_eq] at hget
      by_cases hd : truthy d.deviceId = some did
      · rw [if_pos hd] at hget
        cases hold : σ.byDeviceId.get did with
        | none =>
          rw [hold] at hget
          obtain rfl := Option.some.inj hget
          exact (truthy_eq_some hnid).2
        | some old =>
          rw [hold] at hget
          obtain rfl := Option.some.inj hget
          exact h.named did _ hold
      · rw [if_neg hd] at hget
        exact h.named did nid' hget

theorem seeded_seedNetDevices (rows : List NetDevice) : Seeded (seedNetDevices T rows) := by
  unfold seedNetDevices
  have hrun : ∀ σ, Seeded σ → Seeded (rows.foldl (seedNetDevice T) σ) := by
    induction rows with
    | nil => exact fun _ h => h
    | cons d rows ih => exact fun σ h => ih _ (seeded_seedNetDevice T h d)
  exact hrun {} seeded_nil

/-! ### The agent on the map -/

/-- One node carries the agent's `device_id`, and it is the one its uplinks start from. -/
def Represented (inp : MapInput) (did : String) : Prop :=
  ∃ n ∈ networkNodes T inp, (agentsMerged T inp).byDeviceId.get did = some n.nid ∧
    n.deviceId = some did ∧ ∀ n' ∈ networkNodes T inp, n'.deviceId = some did → n' = n

theorem represented_iff_deviceAt (inp : MapInput) (did : String) :
    Represented T inp did ↔ ∃ nid, (agentsMerged T inp).byDeviceId.get did = some nid ∧
      ∀ m, deviceAt (agentsMerged T inp).nodes m = some did ↔ m = nid := by
  obtain ⟨nodes, hperm, hsame⟩ := deviceAt_networkNodes T inp
  have hnodup : (nodes.map Node.nid).Nodup :=
    hsame.nodup (nodup_mergeAgents T inp.snapshots (seeded_seedNetDevices T inp.netDevices).nodup)
  have hnode : ∀ n ∈ nodes, deviceAt (agentsMerged T inp).nodes n.nid = n.deviceId := by
    intro n hn
    rw [← hsame.device, deviceAt, row_of_mem hnodup hn]
    rfl
  have hfound : ∀ m, deviceAt (agentsMerged T inp).nodes m = some did →
      ∃ n ∈ nodes, n.nid = m ∧ n.deviceId = some did := by
    intro m hm
    rw [← hsame.device] at hm
    obtain ⟨n, hrow, hdevice⟩ := Option.bind_eq_some_iff.mp hm
    exact ⟨n, (row_eq_some hrow).1, (row_eq_some hrow).2, hdevice⟩
  constructor
  · rintro ⟨n, hn, hindex, hdevice, honly⟩
    refine ⟨n.nid, hindex, ?_⟩
    intro m
    constructor
    · intro hm
      obtain ⟨n', hn', rfl, hdevice'⟩ := hfound m hm
      rw [honly n' (hperm.mem_iff.mpr hn') hdevice']
    · rintro rfl
      exact (hnode n (hperm.mem_iff.mp hn)).trans hdevice
  · rintro ⟨nid, hindex, hiff⟩
    obtain ⟨n, hn, rfl, hdevice⟩ := hfound nid ((hiff nid).mpr rfl)
    refine ⟨n, hperm.mem_iff.mpr hn, hindex, hdevice, ?_⟩
    intro n' hn' hdevice'
    have hn' := hperm.mem_iff.mp hn'
    have hnid : n'.nid = n.nid := (hiff n'.nid).mp ((hnode n' hn').trans hdevice')
    exact List.inj_on_of_nodup_map hnodup hn' hn hnid

/-- The turn of the snapshot `snap`, between those of `before` and `after`, finds a node; no
    later turn ends there; and every other node whose row names the agent goes to some snapshot. -/
structure KeepsNode (rows : List NetDevice) (before : List Snapshot) (snap : Snapshot)
    (after : List Snapshot) (did : String) : Prop where
  found : resolveAgent T ((merging T).stateAfter (seedNetDevices T rows) before) snap did =
    "nd-unknown" → deviceAt (seedNetDevices T rows).nodes "nd-unknown" = some did
  kept : Avoids T (resolveAgent T ((merging T).stateAfter (seedNetDevices T rows) before) snap did)
    ((merging T).stateAfter (seedNetDevices T rows) (before ++ [snap])) after
  onlyRow : ∀ m,
    m ≠ resolveAgent T ((merging T).stateAfter (seedNetDevices T rows) before) snap did →
    deviceAt (seedNetDevices T rows).nodes m = some did →
    ¬ Avoids T m (seedNetDevices T rows) (before ++ snap :: after)

/-- The snapshots in which each agent is heard once. -/
def DistinctAgents (snaps : List Snapshot) : Prop :=
  (snaps.filterMap fun snap => truthy snap.deviceId).Nodup

theorem DistinctAgents.others {before after : List Snapshot} {snap : Snapshot} {did : String}
    (h : DistinctAgents (before ++ snap :: after)) (hdid : truthy snap.deviceId = some did) :
    (∀ s ∈ before, truthy s.deviceId ≠ some did) ∧ ∀ s ∈ after, truthy s.deviceId ≠ some did := by
  unfold DistinctAgents at h
  rw [List.filterMap_append, List.filterMap_cons] at h
  simp only [hdid] at h
  obtain ⟨_, hsnap, hdisjoint⟩ := List.nodup_append.mp h
  obtain ⟨hafter, _⟩ := List.nodup_cons.mp hsnap
  constructor
  · intro s hs hd
    exact hdisjoint did (List.mem_filterMap.mpr ⟨s, hs, hd⟩) did List.mem_cons_self rfl
  · intro s hs hd
    exact hafter (List.mem_filterMap.mpr ⟨s, hs, hd⟩)

section Agent

variable {T} {σ : MapState} {before after : List Snapshot} {snap : Snapshot} {did : String}

theorem stateAfter_split : (merging T).stateAfter σ (before ++ snap :: after) =
    (merging T).stateAfter ((merging T).stateAfter σ (before ++ [snap])) after := by
  rw [← Machine.stateAfter_append, List.append_assoc]
  rfl

theorem stateAfter_snap : (merging T).stateAfter σ (before ++ [snap]) =
    mergeAgent T ((merging T).stateAfter σ before) snap :=
  Machine.stateAfter_append _ _ _ _

/-- Where the `device_id` of one agent is at the end. -/
theorem deviceAt_end (hbefore : ∀ s ∈ before, truthy s.deviceId ≠ some did)
    (hafter : ∀ s ∈ after, truthy s.deviceId ≠ some did) (hdid : truthy snap.deviceId = some did)
    (m : String) :
    deviceAt ((merging T).stateAfter σ (before ++ snap :: after)).nodes m = some did ↔
      if placedAt T ((merging T).stateAfter σ before) snap = some m then
        Avoids T m ((merging T).stateAfter σ (before ++ [snap])) after
      else deviceAt σ.nodes m = some did ∧ Avoids T m σ (before ++ snap :: after) := by
  rw [stateAfter_split, deviceAt_stateAfter T hafter, stateAfter_snap, deviceAt_mergeAgent]
  by_cases hplaced : placedAt T ((merging T).stateAfter σ before) snap = some m
  · rw [if_pos hplaced, if_pos hplaced]
    exact and_iff_right hdid
  · rw [if_neg hplaced, if_neg hplaced, deviceAt_stateAfter T hbefore, and_assoc]
    unfold Avoids
    rw [Machine.along_append]
    have hrest : (merging T).Along (fun σ s => placedAt T σ s ≠ some m)
        ((merging T).stateAfter σ before) (snap :: after) ↔
        (merging T).Along (fun σ s => placedAt T σ s ≠ some m)
          (mergeAgent T ((merging T).stateAfter σ before) snap) after :=
      and_iff_right hplaced
    rw [hrest]

theorem byDeviceId_end (hbefore : ∀ s ∈ before, truthy s.deviceId ≠ some did)
    (hafter : ∀ s ∈ after, truthy s.deviceId ≠ some did) (hdid : truthy snap.deviceId = some did) :
    ((merging T).stateAfter σ (before ++ snap :: after)).byDeviceId.get did =
      if (placedAt T ((merging T).stateAfter σ before) snap).isSome then
        placedAt T ((merging T).stateAfter σ before) snap
      else σ.byDeviceId.get did := by
  rw [stateAfter_split, byDeviceId_stateAfter T hafter, stateAfter_snap, byDeviceId_mergeAgent,
    byDeviceId_stateAfter T hbefore]
  simp only [hdid, true_and]

end Agent

/-- **An agent keeps its node** iff no later snapshot is placed there. -/
theorem represented_iff {inp : MapInput} (hagents : DistinctAgents inp.snapshots)
    {before after : List Snapshot} {snap : Snapshot} {did : String}
    (hsplit : inp.snapshots = before ++ snap :: after) (hdid : truthy snap.deviceId = some did) :
    Represented T inp did ↔ KeepsNode T inp.netDevices before snap after did := by
  rw [hsplit] at hagents
  obtain ⟨hbefore, hafter⟩ := hagents.others hdid
  have hseeded := seeded_seedNetDevices T inp.netDevices
  have hmerged : agentsMerged T inp =
      (merging T).stateAfter (seedNetDevices T inp.netDevices) (before ++ snap :: after) := by
    rw [agentsMerged, hsplit]
    rfl
  rw [represented_iff_deviceAt, hmerged, byDeviceId_end hbefore hafter hdid]
  simp only [deviceAt_end hbefore hafter hdid]
  have hnamed : ∀ nid, (seedNetDevices T inp.netDevices).byDeviceId.get did = some nid →
      resolveAgent T ((merging T).stateAfter (seedNetDevices T inp.netDevices) before) snap did =
        nid := by
    intro nid hnid
    rw [resolveAgent, byDeviceId_stateAfter T hbefore, hnid,
      truthy_some (hseeded.named did nid hnid)]
    rfl
  by_cases hfound :
      resolveAgent T ((merging T).stateAfter (seedNetDevices T inp.netDevices) before) snap did =
        "nd-unknown"
  · have hplaced :
        placedAt T ((merging T).stateAfter (seedNetDevices T inp.netDevices) before) snap = none := by
      rw [placedAt, hdid]
      exact if_pos hfound
    simp only [hplaced, Option.isSome_none, Bool.false_eq_true, reduceCtorEq, if_false]
    constructor
    · rintro ⟨nid, hnid, hiff⟩
      have hr := hnamed nid hnid
      rw [hfound] at hr
      obtain ⟨hdevice, _⟩ := (hiff nid).mpr rfl
      refine ⟨fun _ => by rw [hr]; exact hdevice, ?_, ?_⟩
      · rw [hfound]
        exact avoids_unknown T _ _
      · intro m hm hrow havoid
        rw [hfound] at hm
        exact hm (((hiff m).mp ⟨hrow, havoid⟩).trans hr.symm)
    · intro h
      have hdevice := h.found hfound
      have htruthy : truthy (deviceAt (seedNetDevices T inp.netDevices).nodes "nd-unknown") =
          some did := by
        rw [hdevice]
        exact truthy_some (truthy_eq_some hdid).2
      obtain ⟨nid, hnid⟩ := Option.isSome_iff_exists.mp (hseeded.indexed _ did htruthy)
      have hr := hnamed nid hnid
      refine ⟨nid, hnid, ?_⟩
      intro m
      constructor
      · rintro ⟨hrow, havoid⟩
        by_contra hm
        rw [← hr] at hm
        exact h.onlyRow m hm hrow havoid
      · rintro rfl
        rw [← hr, hfound]
        exact ⟨hdevice, avoids_unknown T _ _⟩
  · have hplaced :
        placedAt T ((merging T).stateAfter (seedNetDevices T inp.netDevices) before) snap =
          some (resolveAgent T ((merging T).stateAfter (seedNetDevices T inp.netDevices) before)
            snap did) := by
      rw [placedAt, hdid]
      exact if_neg hfound
    simp only [hplaced, Option.isSome_some, if_true, Option.some.injEq]
    constructor
    · rintro ⟨nid, rfl, hiff⟩
      refine ⟨fun h => absurd h hfound, ?_, ?_⟩
      · have hkept := hiff
          (resolveAgent T ((merging T).stateAfter (seedNetDevices T inp.netDevices) before) snap did)
        rw [if_pos rfl] at hkept
        exact hkept.mpr rfl
      · intro m hm hrow havoid
        have hm' := hiff m
        rw [if_neg (Ne.symm hm)] at hm'
        exact hm (hm'.mp ⟨hrow, havoid⟩)
    · intro h
      refine ⟨_, rfl, ?_⟩
      intro m
      by_cases hm :
          resolveAgent T ((merging T).stateAfter (seedNetDevices T inp.netDevices) before) snap did = m
      · rw [if_pos hm]
        refine iff_of_true ?_ hm.symm
        rw [← hm]
        exact h.kept
      · rw [if_neg hm]
        refine iff_of_false ?_ (Ne.symm hm)
        rintro ⟨hrow, havoid⟩
        exact h.onlyRow m (Ne.symm hm) hrow havoid

/-! ### Agents with MACs of their own -/

/-- The MACs of the adapters that are up, and no tunnel or virtual ones. -/
def usableMacs (snap : Snapshot) : List String :=
  (snap.adapters.filter (·.usable)).filterMap fun a => normalizeMac T a.mac

/-- No two agents share a `device_id` or a usable MAC, and no row carries the MAC of one agent
    with the `device_id` of another. -/
structure SeparateAgents (inp : MapInput) : Prop where
  ids : DistinctAgents inp.snapshots
  macs : inp.snapshots.Pairwise fun s s' => ∀ m ∈ usableMacs T s, m ∉ usableMacs T s'
  rows : ∀ d ∈ inp.netDevices, ∀ m ∈ normalizeMac T d.mac, ∀ did ∈ truthy d.deviceId,
    ∀ s ∈ inp.snapshots, ∀ s' ∈ inp.snapshots, m ∈ usableMacs T s →
      truthy s'.deviceId = some did → truthy s.deviceId = some did

/-- **Distinct agents stay distinct** iff every one of them keeps its node. -/
theorem agents_represented_iff (inp : MapInput) (h : SeparateAgents T inp) :
    (∀ snap ∈ inp.snapshots, ∀ did ∈ truthy snap.deviceId, usableMacs T snap ≠ [] →
      Represented T inp did) ↔
    ∀ before snap after, inp.snapshots = before ++ snap :: after →
      ∀ did ∈ truthy snap.deviceId, usableMacs T snap ≠ [] →
        KeepsNode T inp.netDevices before snap after did := by
  constructor
  · intro hall before snap after hsplit did hdid hmac
    have hmem : snap ∈ inp.snapshots := by
      rw [hsplit]
      exact List.mem_append_right _ List.mem_cons_self
    exact (represented_iff T h.ids hsplit hdid).mp (hall snap hmem did hdid hmac)
  · intro hall snap hsnap did hdid hmac
    obtain ⟨before, after, hsplit⟩ := List.append_of_mem hsnap
    exact (represented_iff T h.ids hsplit hdid).mpr (hall before snap after hsplit did hdid hmac)

end Map

/-! ### Two sites with one subnet -/

instance (T : PyText) (inp : MapInput) (did : String) : Decidable (Represented T inp did) :=
  inferInstanceAs (Decidable (∃ n ∈ networkNodes T inp,
    (agentsMerged T inp).byDeviceId.get did = some n.nid ∧ n.deviceId = some did ∧
      ∀ n' ∈ networkNodes T inp, n'.deviceId = some did → n' = n))

private def asciiText : PyText := .ascii fun _ => some (.v4 0xC0A8010A)

private def site (did mac ip : String) : Snapshot where
  deviceId := some did
  adapters := [{ mac := some mac, ipv4 := [ip], up := some true }]

/-- Two agents behind different routers, each the host .10 of its own network. -/
private def twoSites (ip : String) : MapInput where
  netDevices := []
  snapshots := [site "A" "AA-00-00-00-00-01" "192.168.1.10", site "B" "BB-00-00-00-00-02" ip]

private theorem separate_twoSites {ip : String} (hip : ip ∈ ["192.168.1.10", "192.168.1.11"]) :
    SeparateAgents asciiText (twoSites ip) := by
  have hids : ∀ ip ∈ ["192.168.1.10", "192.168.1.11"],
      ((twoSites ip).snapshots.filterMap fun snap => truthy snap.deviceId).Nodup := by
    decide +kernel
  have hmacs : ∀ ip ∈ ["192.168.1.10", "192.168.1.11"], (twoSites ip).snapshots.Pairwise
      fun s s' => ∀ m ∈ usableMacs asciiText s, m ∉ usableMacs asciiText s' := by
    decide +kernel
  refine ⟨hids ip hip, hmacs ip hip, ?_⟩
  intro d hd
  cases hd

theorem agents_represented_otherAddress :
    (∀ snap ∈ (twoSites "192.168.1.11").snapshots, ∀ did ∈ truthy snap.deviceId,
      usableMacs asciiText snap ≠ [] → Represented asciiText (twoSites "192.168.1.11") did) ↔
    ∀ before snap after, (twoSites "192.168.1.11").snapshots = before ++ snap :: after →
      ∀ did ∈ truthy snap.deviceId, usableMacs asciiText snap ≠ [] →
        KeepsNode asciiText (twoSites "192.168.1.11").netDevices before snap after did :=
  agents_represented_iff asciiText _ (separate_twoSites (by decide))

theorem twoSites_not_represented :
    ¬ ∀ (T : PyText) (inp : MapInput), SeparateAgents T inp →
      ∀ snap ∈ inp.snapshots, ∀ did ∈ truthy snap.deviceId, usableMacs T snap ≠ [] →
        Represented T inp did := by
  intro h
  have hkept := h asciiText (twoSites "192.168.1.10") (separate_twoSites (by decide))
    (site "A" "AA-00-00-00-00-01" "192.168.1.10") List.mem_cons_self "A" (by decide +kernel)
    (by decide +kernel)
  exact absurd hkept (by decide +kernel)

end Srp.Netdisco
