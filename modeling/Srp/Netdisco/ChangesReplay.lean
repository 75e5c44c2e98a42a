/-
  Srp/Netdisco/ChangesReplay.lean
  ===============================
  **The change journal played back.**

  Of the deltas between two snapshots those about one node, and those about one
  link, are few and known (`filter_node`, `filter_link`), however the sets were
  iterated.  From them follow what the list gives when it is played back
  (`replay_diff`), when it is empty (`diff_eq_nil_iff`), and that the sort leaves
  one list for all orders (`diff_congr`).
-/
import Srp.Netdisco.Changes

namespace Srp.Netdisco

open Srp.Lib

section Projecting

variable {V : Type}

/-! ### Deltas of one node and of one link -/

theorem replay_nodes (p : Projection V) (deltas : List (TopologyDelta V)) (nid : String) :
    (replay p deltas).nodes nid =
      (deltas.filter fun d => decide (d.deviceNid = some nid)).foldl
        (fun fields d => d.onNode fields) (p.nodes nid) := by
  induction deltas generalizing p with
  | nil => rfl
  | cons d deltas ih =>
    have hcons : replay p (d :: deltas) = replay (applyDelta p d) deltas := rfl
    rw [hcons, ih]
    by_cases hd : d.deviceNid = some nid
    · rw [List.filter_cons_of_pos (by simpa using hd), List.foldl_cons, applyDelta]
      simp only [if_pos hd]
    · rw [List.filter_cons_of_neg (by simpa using hd), applyDelta]
      simp only [if_neg hd]

/-- What a delta about a link makes of its presence. -/
def DeltaKind.present : DeltaKind → Prop → Prop
  | .linkAdded, _ => True
  | .linkRemoved, _ => False
  | _, before => before

theorem mem_onLinks (d : TopologyDelta V) (links : Finset (Sym2 String)) (e : Sym2 String) :
    e ∈ d.onLinks links ↔ if d.link = some e then d.kind.present (e ∈ links) else e ∈ links := by
  unfold TopologyDelta.onLinks
  cases hlink : d.link with
  | none =>
    rw [if_neg (by simp)]
    cases d.kind <;> rfl
  | some e' =>
    by_cases he : e' = e
    · subst he
      rw [if_pos rfl]
      cases d.kind <;> simp [DeltaKind.present]
    · rw [if_neg (by simpa using he)]
      cases d.kind <;> simp [Ne.symm he]

theorem replay_links (p : Projection V) (deltas : List (TopologyDelta V)) (e : Sym2 String) :
    e ∈ (replay p deltas).links ↔
      (deltas.filter fun d => decide (d.link = some e)).foldl
        (fun before d => d.kind.present before) (e ∈ p.links) := by
  induction deltas generalizing p with
  | nil => rfl
  | cons d deltas ih =>
    have hcons : replay p (d :: deltas) = replay (applyDelta p d) deltas := rfl
    have honce := mem_onLinks d p.links e
    rw [hcons, ih, applyDelta]
    by_cases hd : d.link = some e
    · rw [if_pos hd] at honce
      rw [List.filter_cons_of_pos (by simpa using hd), List.foldl_cons, propext honce]
    · rw [if_neg hd] at honce
      rw [List.filter_cons_of_neg (by simpa using hd), propext honce]

/-- The deltas about a link, present before or after. -/
def linkDeltas (key : String × String) (before after : Prop) [Decidable before]
    [Decidable after] : List (TopologyDelta V) :=
  (if after ∧ ¬ before then [linkDelta .linkAdded key] else []) ++
    if before ∧ ¬ after then [linkDelta .linkRemoved key] else []

theorem linkDeltas_eq_nil {key : String × String} {before after : Prop} [Decidable before]
    [Decidable after] : (linkDeltas key before after : List (TopologyDelta V)) = [] ↔
      (before ↔ after) := by
  by_cases hb : before <;> by_cases ha : after <;> simp [linkDeltas, hb, ha]

theorem eq_of_mem_linkDeltas {key : String × String} {before after : Prop} [Decidable before]
    [Decidable after] {d : TopologyDelta V} (hd : d ∈ linkDeltas key before after) :
    d = linkDelta d.kind key ∧ (d.kind = .linkAdded ∨ d.kind = .linkRemoved) := by
  unfold linkDeltas at hd
  rw [List.mem_append, List.mem_ite_nil_right, List.mem_ite_nil_right, List.mem_singleton,
    List.mem_singleton] at hd
  rcases hd with ⟨_, rfl⟩ | ⟨_, rfl⟩
  · exact ⟨rfl, Or.inl rfl⟩
  · exact ⟨rfl, Or.inr rfl⟩

/-- The detail key of a link names its ends. -/
theorem eq_of_detailKey (str : Option V → String) {kind kind' : DeltaKind}
    {key key' : String × String}
    (h : detailKey str (linkDelta kind key : TopologyDelta V).detail =
      detailKey str (linkDelta kind' key' : TopologyDelta V).detail) : key = key' := by
  unfold detailKey at h
  have hperm := (List.mergeSort_perm _ _).symm.trans
    ((List.Perm.of_eq h).trans (List.mergeSort_perm _ _))
  simp only [linkDelta, List.map_cons, List.map_nil, DetailValue.str] at hperm
  have ha := hperm.subset List.mem_cons_self
  have hb := hperm.subset (List.mem_cons_of_mem _ List.mem_cons_self)
  simp only [List.mem_cons, List.not_mem_nil, or_false, EmbeddingLike.apply_eq_iff_eq,
    Prod.mk.injEq] at ha hb
  have hne : ("a" : String) ≠ "b" := by decide
  have hfirst : key.1 = key'.1 := (ha.resolve_right fun h => hne h.1).2
  have hsecond : key.2 = key'.2 := (hb.resolve_left fun h => hne h.1.symm).2
  exact Prod.ext hfirst hsecond

variable [DecidableEq V]

/-- The deltas about a node that the snapshots give these fields. -/
def nodeDeltas (nid : String) : Option (NodeFields V) → Option (NodeFields V) →
    List (TopologyDelta V)
  | none, none => []
  | none, some _ => [nodeDelta .appeared nid]
  | some _, none => [nodeDelta .disappeared nid]
  | some before, some after => nodeChanges nid before after

theorem deviceNid_of_mem_nodeChanges {nid : String} {before after : NodeFields V}
    {d : TopologyDelta V} (h : d ∈ nodeChanges nid before after) : d.deviceNid = some nid := by
  unfold nodeChanges at h
  rcases List.mem_append.mp h with h | h
  · split at h
    · rw [List.mem_singleton.mp h]
      rfl
    · cases h
  · split at h
    · rw [List.mem_singleton.mp h]
      rfl
    · cases h

theorem deviceNid_of_mem_commonChanges {prev curr : List (String × NodeFields V)} {nid : String}
    {d : TopologyDelta V} (h : d ∈ commonChanges prev curr nid) : d.deviceNid = some nid := by
  unfold commonChanges at h
  split at h
  · exact deviceNid_of_mem_nodeChanges h
  · cases h

variable (strings : SetOrder String) (pairs : SetOrder (String × String))

theorem filter_node (prev curr : TopologySnapshot V) (nid : String) :
    (unsortedDeltas strings pairs prev curr).filter (fun d => decide (d.deviceNid = some nid)) =
      nodeDeltas nid ((project prev).nodes nid) ((project curr).nodes nid) := by
  have hnode : ∀ kind s, ((strings.elements s).map (nodeDelta kind)).filter
      (fun d : TopologyDelta V => decide (d.deviceNid = some nid)) =
        if nid ∈ s then [nodeDelta kind nid] else [] := by
    intro kind s
    apply strings.filter_map_elements
    · simp [nodeDelta]
    · intro x _ hx
      simp [nodeDelta, hx]
  have hlink : ∀ kind s, ((pairs.elements s).map (linkDelta kind)).filter
      (fun d : TopologyDelta V => decide (d.deviceNid = some nid)) = [] := by
    intro kind s
    rw [List.filter_eq_nil_iff]
    intro d hd
    obtain ⟨key, _, rfl⟩ := List.mem_map.mp hd
    simp [linkDelta]
  have hcommon : ((strings.elements (nids (nodesByNid curr) ∩ nids (nodesByNid prev))).flatMap
      (commonChanges (nodesByNid prev) (nodesByNid curr))).filter
        (fun d => decide (d.deviceNid = some nid)) =
      if nid ∈ nids (nodesByNid curr) ∩ nids (nodesByNid prev) then
        commonChanges (nodesByNid prev) (nodesByNid curr) nid else [] := by
    apply strings.filter_flatMap_elements
    · rw [List.filter_eq_self]
      exact fun d hd => decide_eq_true (deviceNid_of_mem_commonChanges hd)
    · intro x _ hx
      rw [List.filter_eq_nil_iff]
      intro d hd
      simp [deviceNid_of_mem_commonChanges hd, hx]
  unfold unsortedDeltas
  simp only [List.filter_append, hnode, hlink, hcommon, Finset.mem_sdiff, Finset.mem_inter,
    mem_nids, commonChanges_eq, List.append_nil]
  cases (project prev).nodes nid <;> cases (project curr).nodes nid <;> simp [nodeDeltas]

theorem link_of_mem_commonChanges {prev curr : List (String × NodeFields V)} {nid : String}
    {d : TopologyDelta V} (h : d ∈ commonChanges prev curr nid) : d.link = none := by
  unfold commonChanges at h
  split at h
  · unfold nodeChanges at h
    rcases List.mem_append.mp h with h | h
    · split at h
      · rw [List.mem_singleton.mp h]
        rfl
      · cases h
    · split at h
      · rw [List.mem_singleton.mp h]
        rfl
      · cases h
  · cases h

theorem filter_link (prev curr : TopologySnapshot V) {key : String × String} (hkey : key.1 ≤ key.2) :
    (unsortedDeltas strings pairs prev curr).filter
        (fun d => decide (d.link = some s(key.1, key.2))) =
      linkDeltas key (s(key.1, key.2) ∈ (project prev).links)
        (s(key.1, key.2) ∈ (project curr).links) := by
  have hnode : ∀ kind s, ((strings.elements s).map (nodeDelta kind)).filter
      (fun d : TopologyDelta V => decide (d.link = some s(key.1, key.2))) = [] := by
    intro kind s
    rw [List.filter_eq_nil_iff]
    intro d hd
    obtain ⟨nid, _, rfl⟩ := List.mem_map.mp hd
    simp [nodeDelta, TopologyDelta.link]
  have hcommon : ((strings.elements (nids (nodesByNid curr) ∩ nids (nodesByNid prev))).flatMap
      (commonChanges (nodesByNid prev) (nodesByNid curr))).filter
        (fun d => decide (d.link = some s(key.1, key.2))) = [] := by
    rw [List.filter_eq_nil_iff]
    intro d hd
    obtain ⟨nid, _, hd⟩ := List.mem_flatMap.mp hd
    simp [link_of_mem_commonChanges hd]
  have hlink : ∀ kind (s s' : TopologySnapshot V),
      ((pairs.elements (linkKeys s \ linkKeys s')).map (linkDelta kind)).filter
        (fun d : TopologyDelta V => decide (d.link = some s(key.1, key.2))) =
          if key ∈ linkKeys s \ linkKeys s' then [linkDelta kind key] else [] := by
    intro kind s s'
    apply pairs.filter_map_elements
    · simp [linkDelta, TopologyDelta.link, List.lookup_cons]
    · intro x hx hne
      apply decide_eq_false
      intro heq
      have hcanon := (mem_linkKeys.mp (Finset.mem_sdiff.mp hx).1).1
      exact hne (eq_of_canonical hcanon hkey (Option.some.inj heq))
  unfold unsortedDeltas
  simp only [List.filter_append, hnode, hlink, hcommon, Finset.mem_sdiff, mem_linkKeys, hkey,
    true_and, List.nil_append]
  rfl

/-- Every delta is about a node or about a link. -/
theorem about_of_mem {prev curr : TopologySnapshot V} {d : TopologyDelta V}
    (h : d ∈ unsortedDeltas strings pairs prev curr) :
    (∃ nid, d ∈ nodeDeltas nid ((project prev).nodes nid) ((project curr).nodes nid)) ∨
      ∃ key : String × String, key.1 ≤ key.2 ∧
        d ∈ linkDeltas key (s(key.1, key.2) ∈ (project prev).links)
          (s(key.1, key.2) ∈ (project curr).links) := by
  have habout : (∃ nid, d.deviceNid = some nid) ∨
      ∃ key : String × String, key.1 ≤ key.2 ∧ d.link = some s(key.1, key.2) := by
    unfold unsortedDeltas at h
    simp only [List.mem_append, List.mem_map, List.mem_flatMap] at h
    rcases h with (((⟨nid, _, rfl⟩ | ⟨nid, _, rfl⟩) | ⟨nid, _, hd⟩) | ⟨key, hkey, rfl⟩) |
      ⟨key, hkey, rfl⟩
    · exact Or.inl ⟨nid, rfl⟩
    · exact Or.inl ⟨nid, rfl⟩
    · exact Or.inl ⟨nid, deviceNid_of_mem_commonChanges hd⟩
    · rw [pairs.mem_elements, Finset.mem_sdiff, mem_linkKeys] at hkey
      exact Or.inr ⟨key, hkey.1.1, by simp [linkDelta, TopologyDelta.link, List.lookup_cons]⟩
    · rw [pairs.mem_elements, Finset.mem_sdiff, mem_linkKeys] at hkey
      exact Or.inr ⟨key, hkey.1.1, by simp [linkDelta, TopologyDelta.link, List.lookup_cons]⟩
  rcases habout with ⟨nid, hnid⟩ | ⟨key, hkey, hlink⟩
  · left
    refine ⟨nid, ?_⟩
    rw [← filter_node strings pairs]
    exact List.mem_filter.mpr ⟨h, decide_eq_true hnid⟩
  · right
    refine ⟨key, hkey, ?_⟩
    rw [← filter_link strings pairs prev curr hkey]
    exact List.mem_filter.mpr ⟨h, decide_eq_true hlink⟩

/-! ### The journal is complete -/

theorem foldl_nodeDeltas (nid : String) (before after : Option (NodeFields V)) :
    (nodeDeltas nid before after).foldl (fun fields d => d.onNode fields) before =
      match before with
      | none => after.map fun _ => ⟨none, none⟩
      | some _ => after := by
  cases before with
  | none => cases after <;> rfl
  | some before =>
    cases after with
    | none => rfl
    | some after =>
      rw [nodeDeltas, nodeChanges, List.foldl_append]
      by_cases htype : before.devType = after.devType
      · rw [if_neg (not_not.mpr htype)]
        by_cases hip : before.ip = after.ip
        · rw [if_neg (not_not.mpr hip)]
          cases before
          cases after
          simp_all
        · rw [if_pos hip]
          cases before
          cases after
          simp_all [TopologyDelta.onNode, changeDelta, TopologyDelta.to, List.lookup_cons]
      · rw [if_pos htype]
        by_cases hip : before.ip = after.ip
        · rw [if_neg (not_not.mpr hip)]
          cases before
          cases after
          simp_all [TopologyDelta.onNode, changeDelta, TopologyDelta.to, List.lookup_cons]
        · rw [if_pos hip]
          simp [TopologyDelta.onNode, changeDelta, TopologyDelta.to, List.lookup_cons]

theorem onNode_comm {nid : String} {before after : Option (NodeFields V)} {d e : TopologyDelta V}
    (hd : d ∈ nodeDeltas nid before after) (he : e ∈ nodeDeltas nid before after)
    (fields : Option (NodeFields V)) : e.onNode (d.onNode fields) = d.onNode (e.onNode fields) := by
  have hsame : d = e ∨ d.kind = .reclassified ∧ e.kind = .ipChanged ∨
      d.kind = .ipChanged ∧ e.kind = .reclassified := by
    unfold nodeDeltas at hd he
    split at hd
    · cases hd
    · exact Or.inl ((List.mem_singleton.mp hd).trans (List.mem_singleton.mp he).symm)
    · exact Or.inl ((List.mem_singleton.mp hd).trans (List.mem_singleton.mp he).symm)
    · unfold nodeChanges at hd he
      rw [List.mem_append, List.mem_ite_nil_right, List.mem_ite_nil_right, List.mem_singleton,
        List.mem_singleton] at hd he
      rcases hd with ⟨_, rfl⟩ | ⟨_, rfl⟩ <;> rcases he with ⟨_, rfl⟩ | ⟨_, rfl⟩
      · exact Or.inl rfl
      · exact Or.inr (Or.inl ⟨rfl, rfl⟩)
      · exact Or.inr (Or.inr ⟨rfl, rfl⟩)
      · exact Or.inl rfl
  rcases hsame with rfl | ⟨hd, he⟩ | ⟨hd, he⟩
  · rfl
  · simp only [TopologyDelta.onNode, hd, he, Option.map_map]
    rfl
  · simp only [TopologyDelta.onNode, hd, he, Option.map_map]
    rfl

variable (str : Option V → String)

theorem diff_perm (prev curr : TopologySnapshot V) :
    (diff strings pairs str prev curr).Perm (unsortedDeltas strings pairs prev curr) :=
  List.mergeSort_perm _ _

/-- **Playing the journal back.** -/
theorem replay_diff (prev curr : TopologySnapshot V) :
    replay (project prev) (diff strings pairs str prev curr) =
      (project curr).withoutNewFields (project prev) := by
  have hperm := diff_perm strings pairs str prev curr
  ext1
  · funext nid
    have hnode := hperm.filter fun d => decide (d.deviceNid = some nid)
    rw [filter_node] at hnode
    rw [replay_nodes, hnode.foldl_eq' fun d hd e he fields =>
      onNode_comm (hnode.subset hd) (hnode.subset he) fields, foldl_nodeDeltas]
    rfl
  · ext e
    obtain ⟨key, hkey, rfl⟩ := exists_canonical e
    have hlink := hperm.filter fun d => decide (d.link = some s(key.1, key.2))
    rw [filter_link strings pairs prev curr hkey] at hlink
    rw [replay_links]
    by_cases hbefore : s(key.1, key.2) ∈ (project prev).links <;>
      by_cases hafter : s(key.1, key.2) ∈ (project curr).links
    · rw [linkDeltas, if_neg (by tauto), if_neg (by tauto)] at hlink
      rw [hlink.eq_nil]
      exact iff_of_true hbefore hafter
    · rw [linkDeltas, if_neg (by tauto), if_pos (by tauto)] at hlink
      rw [List.nil_append, List.perm_singleton] at hlink
      rw [hlink]
      exact iff_of_false id hafter
    · rw [linkDeltas, if_pos (by tauto), if_neg (by tauto)] at hlink
      rw [List.append_nil, List.perm_singleton] at hlink
      rw [hlink]
      exact iff_of_true trivial hafter
    · rw [linkDeltas, if_neg (by tauto), if_neg (by tauto)] at hlink
      rw [hlink.eq_nil]
      exact iff_of_false hbefore hafter

theorem nodeDeltas_eq_nil {nid : String} {before after : Option (NodeFields V)} :
    nodeDeltas nid before after = [] ↔ before = after := by
  constructor
  · intro h
    have hfold := foldl_nodeDeltas nid before after
    rw [h] at hfold
    cases before with
    | none =>
      cases after with
      | none => rfl
      | some after => cases h
    | some before => exact hfold
  · rintro rfl
    cases before with
    | none => rfl
    | some before => simp [nodeDeltas, nodeChanges]

/-- **The journal is empty where nothing changed.** -/
theorem diff_eq_nil_iff (prev curr : TopologySnapshot V) :
    diff strings pairs str prev curr = [] ↔ project prev = project curr := by
  have hperm := diff_perm strings pairs str prev curr
  constructor
  · intro hnil
    rw [hnil] at hperm
    have hall := hperm.nil_eq
    ext1
    · funext nid
      rw [← nodeDeltas_eq_nil, ← filter_node strings pairs, ← hall]
      rfl
    · ext e
      obtain ⟨key, hkey, rfl⟩ := exists_canonical e
      have hlinks : (linkDeltas key (s(key.1, key.2) ∈ (project prev).links)
          (s(key.1, key.2) ∈ (project curr).links) : List (TopologyDelta V)) = [] := by
        rw [← filter_link strings pairs prev curr hkey, ← hall]
        rfl
      exact linkDeltas_eq_nil.mp hlinks
  · intro hsame
    have hnone : unsortedDeltas strings pairs prev curr = [] := by
      rw [List.eq_nil_iff_forall_not_mem]
      intro d hd
      rcases about_of_mem strings pairs hd with ⟨nid, hnode⟩ | ⟨key, _, hlink⟩
      · rw [nodeDeltas_eq_nil.mpr (by rw [hsame])] at hnode
        cases hnode
      · rw [linkDeltas_eq_nil.mpr (by rw [hsame])] at hlink
        cases hlink
    rw [hnone] at hperm
    exact hperm.eq_nil

/-! ### The journal is canonical -/

theorem perm_unsortedDeltas (strings' : SetOrder String) (pairs' : SetOrder (String × String))
    {prev prev' curr curr' : TopologySnapshot V} (hprev : project prev = project prev')
    (hcurr : project curr = project curr') :
    (unsortedDeltas strings pairs prev curr).Perm (unsortedDeltas strings' pairs' prev' curr') := by
  have hcommon : commonChanges (nodesByNid prev) (nodesByNid curr) =
      commonChanges (nodesByNid prev') (nodesByNid curr') := by
    funext nid
    rw [commonChanges_eq, commonChanges_eq, hprev, hcurr]
  unfold unsortedDeltas
  dsimp only
  rw [hcommon, nids_congr hprev, nids_congr hcurr, linkKeys_congr hprev, linkKeys_congr hcurr]
  exact (((((strings.perm strings' _).map _).append ((strings.perm strings' _).map _)).append
    ((strings.perm strings' _).flatMap_right _)).append ((pairs.perm pairs' _).map _)).append
      ((pairs.perm pairs' _).map _)

theorem text_injective : Function.Injective DeltaKind.text := by
  intro k k' h
  cases k <;> cases k' <;> first | rfl | exact absurd h (by decide)

/-- Two deltas about one node differ in their kinds. -/
theorem eq_of_mem_nodeDeltas {nid : String} {before after : Option (NodeFields V)}
    {d e : TopologyDelta V} (hd : d ∈ nodeDeltas nid before after)
    (he : e ∈ nodeDeltas nid before after) (hkind : d.kind = e.kind) : d = e := by
  unfold nodeDeltas at hd he
  split at hd
  · cases hd
  · exact (List.mem_singleton.mp hd).trans (List.mem_singleton.mp he).symm
  · exact (List.mem_singleton.mp hd).trans (List.mem_singleton.mp he).symm
  · unfold nodeChanges at hd he
    rw [List.mem_append, List.mem_ite_nil_right, List.mem_ite_nil_right, List.mem_singleton,
      List.mem_singleton] at hd he
    rcases hd with ⟨_, rfl⟩ | ⟨_, rfl⟩ <;> rcases he with ⟨_, rfl⟩ | ⟨_, rfl⟩
    · rfl
    · cases hkind
    · cases hkind
    · rfl

theorem kind_of_mem_nodeDeltas {nid : String} {before after : Option (NodeFields V)}
    {d : TopologyDelta V} (hd : d ∈ nodeDeltas nid before after) :
    d.deviceNid = some nid ∧ d.kind ≠ .linkAdded ∧ d.kind ≠ .linkRemoved := by
  unfold nodeDeltas at hd
  split at hd
  · cases hd
  · rw [List.mem_singleton.mp hd]
    exact ⟨rfl, by simp [nodeDelta], by simp [nodeDelta]⟩
  · rw [List.mem_singleton.mp hd]
    exact ⟨rfl, by simp [nodeDelta], by simp [nodeDelta]⟩
  · unfold nodeChanges at hd
    rw [List.mem_append, List.mem_ite_nil_right, List.mem_ite_nil_right, List.mem_singleton,
      List.mem_singleton] at hd
    rcases hd with ⟨_, rfl⟩ | ⟨_, rfl⟩
    · exact ⟨rfl, by simp [changeDelta], by simp [changeDelta]⟩
    · exact ⟨rfl, by simp [changeDelta], by simp [changeDelta]⟩

/-- The key of the sort tells the deltas apart. -/
theorem eq_of_deltaKey {prev curr : TopologySnapshot V} {d e : TopologyDelta V}
    (hd : d ∈ unsortedDeltas strings pairs prev curr)
    (he : e ∈ unsortedDeltas strings pairs prev curr) (hkey : deltaKey str d = deltaKey str e) :
    d = e := by
  have hparts := toLex.injective hkey
  have hkind := text_injective (congrArg Prod.fst hparts)
  have hrest := toLex.injective (congrArg Prod.snd hparts)
  rcases about_of_mem strings pairs hd with ⟨nid, hd⟩ | ⟨key, _, hd⟩ <;>
    rcases about_of_mem strings pairs he with ⟨nid', he⟩ | ⟨key', _, he⟩
  · obtain ⟨hdnid, _⟩ := kind_of_mem_nodeDeltas hd
    obtain ⟨henid, _⟩ := kind_of_mem_nodeDeltas he
    have hnid := congrArg Prod.fst hrest
    rw [hdnid, henid, Option.getD_some, Option.getD_some] at hnid
    subst hnid
    exact eq_of_mem_nodeDeltas hd he hkind
  · obtain ⟨_, hadded, hremoved⟩ := kind_of_mem_nodeDeltas hd
    rw [hkind] at hadded hremoved
    exact absurd (eq_of_mem_linkDeltas he).2 (not_or.mpr ⟨hadded, hremoved⟩)
  · obtain ⟨_, hadded, hremoved⟩ := kind_of_mem_nodeDeltas he
    rw [← hkind] at hadded hremoved
    exact absurd (eq_of_mem_linkDeltas hd).2 (not_or.mpr ⟨hadded, hremoved⟩)
  · have hd := (eq_of_mem_linkDeltas hd).1
    have he := (eq_of_mem_linkDeltas he).1
    have hdetail := congrArg Prod.snd hrest
    rw [hd, he] at hdetail
    rw [hd, he, hkind, eq_of_detailKey str hdetail]

/-- **The journal depends on what the snapshots say, and on nothing else.** -/
theorem diff_congr (strings' : SetOrder String) (pairs' : SetOrder (String × String))
    {prev prev' curr curr' : TopologySnapshot V} (hprev : project prev = project prev')
    (hcurr : project curr = project curr') :
    diff strings pairs str prev curr = diff strings' pairs' str prev' curr' := by
  have hsame := perm_unsortedDeltas strings pairs strings' pairs' hprev hcurr
  have htrans : ∀ a b c : TopologyDelta V, decide (deltaKey str a ≤ deltaKey str b) = true →
      decide (deltaKey str b ≤ deltaKey str c) = true →
      decide (deltaKey str a ≤ deltaKey str c) = true := by
    intro a b c hab hbc
    exact decide_eq_true ((of_decide_eq_true hab).trans (of_decide_eq_true hbc))
  have htotal : ∀ a b : TopologyDelta V, (decide (deltaKey str a ≤ deltaKey str b) ||
      decide (deltaKey str b ≤ deltaKey str a)) = true := by
    intro a b
    rcases le_total (deltaKey str a) (deltaKey str b) with h | h
    · rw [decide_eq_true h, Bool.true_or]
    · rw [decide_eq_true h, Bool.or_true]
  apply List.Perm.eq_of_pairwise _ (List.pairwise_mergeSort htrans htotal _)
    (List.pairwise_mergeSort htrans htotal _)
  · exact (List.mergeSort_perm _ _).trans (hsame.trans (List.mergeSort_perm _ _).symm)
  · intro d e hd he hde hed
    rw [List.mem_mergeSort] at hd he
    exact eq_of_deltaKey strings pairs str hd (hsame.symm.subset he)
      (le_antisymm (of_decide_eq_true hde) (of_decide_eq_true hed))

end Projecting

/-! ### Order and direction -/

/-- The link, in one direction or the other. -/
def SnapshotLink.Turned (l l' : SnapshotLink) : Prop := l' = l ∨ l' = ⟨l.b, l.a⟩

/-- The same snapshot with its nodes and links in another order and the links in any direction;
    no two nodes have one nid. -/
structure TopologySnapshot.Reordered {V : Type} (s s' : TopologySnapshot V) : Prop where
  nodes : (s.nodes.getD []).Perm (s'.nodes.getD [])
  unique : (((s.nodes.getD []).filterMap nodeItem).map Prod.fst).Nodup
  links : ∃ turned, (s.links.getD []).Perm turned ∧
    List.Forall₂ SnapshotLink.Turned turned (s'.links.getD [])

section Reordering

variable {V : Type}

theorem lookup_of_nodup {items : List (String × NodeFields V)} (h : (items.map Prod.fst).Nodup)
    {nid : String} {fields : NodeFields V} :
    items.lookup nid = some fields ↔ (nid, fields) ∈ items := by
  induction items with
  | nil => simp
  | cons item items ih =>
    obtain ⟨hnew, hrest⟩ := List.nodup_cons.mp h
    rw [lookup_cons_if, List.mem_cons]
    by_cases hnid : nid = item.1
    · rw [if_pos hnid, Option.some_inj]
      constructor
      · rintro rfl
        exact Or.inl (Prod.ext hnid rfl)
      · rintro (heq | hmem)
        · rw [← heq]
        · exact absurd (List.mem_map_of_mem hmem) (hnid ▸ hnew)
    · rw [if_neg hnid, ih hrest]
      constructor
      · exact Or.inr
      · rintro (heq | hmem)
        · exact absurd (congrArg Prod.fst heq) hnid
        · exact hmem

theorem fieldsOf_eq (nodes : List (SnapshotNode V)) (nid : String) :
    fieldsOf nodes nid = (nodes.filterMap nodeItem).reverse.lookup nid := by
  rw [← List.filterMap_reverse, lookup_filterMap_nodeItem]
  rfl

theorem undirected_of_turned {l l' : SnapshotLink} (h : l.Turned l') :
    l'.undirected = l.undirected := by
  rcases h with rfl | rfl
  · rfl
  · unfold SnapshotLink.undirected
    cases ha : l.a <;> cases hb : l.b <;> try rfl
    rename_i a b
    by_cases hkeep : a ≠ "" ∧ b ≠ "" ∧ a ≠ b
    · have hkeep' : b ≠ "" ∧ a ≠ "" ∧ b ≠ a := ⟨hkeep.2.1, hkeep.1, hkeep.2.2.symm⟩
      simp only [if_pos hkeep, if_pos hkeep']
      exact congrArg some Sym2.eq_swap
    · have hkeep' : ¬ (b ≠ "" ∧ a ≠ "" ∧ b ≠ a) := fun h => hkeep ⟨h.2.1, h.1, h.2.2.symm⟩
      simp only [if_neg hkeep, if_neg hkeep']

theorem TopologySnapshot.Reordered.project_eq {s s' : TopologySnapshot V} (h : s.Reordered s') :
    project s = project s' := by
  ext1
  · funext nid
    have hperm := h.nodes.filterMap nodeItem
    have hreverse : ∀ items : List (String × NodeFields V), (items.map Prod.fst).Nodup →
        (items.reverse.map Prod.fst).Nodup := by
      intro items hitems
      rw [List.map_reverse]
      exact List.nodup_reverse.mpr hitems
    have hold := hreverse _ h.unique
    have hnew := hreverse _ ((hperm.map Prod.fst).nodup_iff.mp h.unique)
    apply Option.ext
    intro fields
    change fieldsOf _ nid = some fields ↔ fieldsOf _ nid = some fields
    rw [fieldsOf_eq, fieldsOf_eq, lookup_of_nodup hold, lookup_of_nodup hnew, List.mem_reverse,
      List.mem_reverse]
    exact hperm.mem_iff
  · obtain ⟨turned, hperm, hturned⟩ := h.links
    have hsame : (s'.links.getD []).filterMap SnapshotLink.undirected =
        turned.filterMap SnapshotLink.undirected := by
      generalize s'.links.getD [] = links at hturned
      clear hperm
      induction hturned with
      | nil => rfl
      | cons hone _ ih =>
        rw [List.filterMap_cons, List.filterMap_cons, ih, undirected_of_turned hone]
    unfold project
    rw [hsame]
    exact List.toFinset_eq_of_perm _ _ (hperm.filterMap _)

end Reordering

/-- **The change journal.**  Played back on what the old snapshot says, the deltas give what the new
    one says, but for the types and addresses of the nodes that appeared; there are none where the
    snapshots say the same; and neither the order of nodes and links, nor the direction of links,
    nor the order in which sets are iterated matters. -/
theorem diff_journal {V : Type} [DecidableEq V] (strings strings' : SetOrder String)
    (pairs pairs' : SetOrder (String × String)) (str : Option V → String) (prev curr : TopologySnapshot V) :
    replay (project prev) (diff strings pairs str prev curr) =
        (project curr).withoutNewFields (project prev) ∧
      (diff strings pairs str prev curr = [] ↔ project prev = project curr) ∧
      ∀ prev' curr', prev.Reordered prev' → curr.Reordered curr' →
        diff strings' pairs' str prev' curr' = diff strings pairs str prev curr := by
  refine ⟨replay_diff strings pairs str prev curr, diff_eq_nil_iff strings pairs str prev curr, ?_⟩
  intro prev' curr' hprev hcurr
  exact (diff_congr strings pairs str strings' pairs' hprev.project_eq hcurr.project_eq).symm

/-- A snapshot of one new node. -/
def newNode (devType : String) : TopologySnapshot String :=
  { nodes := some [{ nid := some "nd-mac-aa", devType := some devType }] }

theorem diff_newNode (strings : SetOrder String) (pairs : SetOrder (String × String))
    (str : Option String → String) (devType : String) :
    diff strings pairs str {} (newNode devType) = [nodeDelta .appeared "nd-mac-aa"] := by
  have hnew : nids (nodesByNid (newNode devType)) = {"nd-mac-aa"} := rfl
  have hold : nids (nodesByNid ({} : TopologySnapshot String)) = ∅ := rfl
  have hlinks : linkKeys (newNode devType) = linkKeys ({} : TopologySnapshot String) := rfl
  have hone : strings.elements {"nd-mac-aa"} = ["nd-mac-aa"] := by
    have hperm := (List.perm_ext_iff_of_nodup (strings.nodup {"nd-mac-aa"})
      (List.nodup_singleton "nd-mac-aa")).mpr fun a => by simp [strings.mem_elements]
    exact List.perm_singleton.mp hperm
  have hnone : ∀ {α : Type} (order : SetOrder α), order.elements ∅ = [] :=
    fun order => order.elements_eq_nil_iff.mpr rfl
  have hunsorted : unsortedDeltas strings pairs {} (newNode devType) =
      [nodeDelta .appeared "nd-mac-aa"] := by
    unfold unsortedDeltas
    simp only [hnew, hold, hlinks, Finset.sdiff_empty, Finset.empty_sdiff, Finset.inter_empty,
      Finset.sdiff_self, hone, hnone, List.map_cons, List.map_nil, List.flatMap_nil,
      List.append_nil]
  rw [diff, hunsorted]
  exact List.mergeSort_singleton _

/-- What type a node appeared with is not in the journal: nothing plays it back. -/
theorem appeared_type_lost : ¬ ∃ play : Projection String → List (TopologyDelta String) →
    Projection String, ∀ prev curr : TopologySnapshot String,
      play (project prev) (diff (.sorted (Equiv.refl String)) (.sorted toLex)
        (fun v => v.getD "None") prev curr) = project curr := by
  rintro ⟨play, hplay⟩
  have hswitch := hplay {} (newNode "switch")
  have hprinter := hplay {} (newNode "printer")
  rw [diff_newNode] at hswitch hprinter
  have hsame := congrArg (fun p => p.nodes "nd-mac-aa") (hswitch.symm.trans hprinter)
  have hdiffer : (project (newNode "switch")).nodes "nd-mac-aa" ≠
      (project (newNode "printer")).nodes "nd-mac-aa" := by decide
  exact hdiffer hsame

end Srp.Netdisco
