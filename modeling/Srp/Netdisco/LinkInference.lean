/-
  Srp/Netdisco/LinkInference.lean
  ===============================
  **Links from a forwarding table** (`infer_edges` of `server/netdisco/l2.py`).

  A switch knows behind which port it has learned which address.  A port with
  one address is an edge; a port with an infrastructure address, or with too
  many, is a trunk; the rest is a hub.  The addresses stand in sets, so the
  order in which they come out is not the program's; `infer_edges` says what is
  claimed of each address, whatever that order is.
-/
import Srp.Lib.PyInt
import Srp.Lib.PySet
import Srp.Netdisco.Fusion

namespace Srp.Netdisco

open Srp.Lib Srp.Lib.GroupBy Srp.Lib.PyInt

/-! ### The inference -/

/-- `UPLINK_MAC_THRESHOLD`. -/
def uplinkMacThreshold : Nat := 4

variable (C : PyChars)

/-- `_is_multicast`: the lowest bit of the first octet. -/
def isMulticast (mac : String) : Bool :=
  match pyIntHex C (mac.toList.take 2) with
  | some octet => decide (octet % 2 = 1)
  | none => false

/-- What the inference is given besides the table; sets of the source are sets here. -/
structure SwitchView where
  nid : String
  portIfindex : List (Int × Int) := []
  infraMacs : Finset String := ∅
  ownMacs : Finset String := ∅
  radioIfindexes : Finset Int := ∅

variable (V : SwitchView)

/-- The addresses of hosts among those learned at a port. -/
def hostMacs (raw : Finset String) : Finset String :=
  raw.filter fun mac => isMulticast C mac = false ∧ mac ∉ V.ownMacs

/-- The claim that the address is behind the port. -/
def fdbClaim (source confidence : String) (port : Int) (mac : String) : LinkEvidence where
  a := V.nid
  b := mac
  source := source
  confidence := confidence
  localIf := V.portIfindex.lookup port
  medium := if (V.portIfindex.lookup port).any (· ∈ V.radioIfindexes) then some "wireless" else none

variable (order : Lib.SetOrder String)

/-- The loop body for one port: the claims with their port. -/
def portClaims (row : Int × Finset String) : List (Int × LinkEvidence) :=
  let macs := hostMacs C V row.2
  let infraHits := macs ∩ V.infraMacs
  if macs = ∅ then []
  else if infraHits ≠ ∅ ∨ uplinkMacThreshold < macs.card then
    (order.elements infraHits).map fun mac => (row.1, fdbClaim V "fdb_uplink" "low" row.1 mac)
  else if macs.card = 1 then
    (order.elements macs).map fun mac => (row.1, fdbClaim V "fdb_edge" "high" row.1 mac)
  else
    (order.elements macs).map fun mac => (row.1, fdbClaim V "fdb_ambiguous" "low" row.1 mac)

/-- `pe[1].local_if or -1`. -/
def ifRank (localIf : Option Int) : Int :=
  match localIf with
  | none => -1
  | some i => if i = 0 then -1 else i

/-- The key of the sort. -/
def claimKey (claim : Int × LinkEvidence) : String ×ₗ String ×ₗ Int ×ₗ Int :=
  toLex (claim.2.b, toLex (claim.2.source, toLex (ifRank claim.2.localIf, claim.1)))

/-- `infer_edges`; the table is a dictionary in its insertion order. -/
def inferEdges (portMacs : List (Int × Finset String)) : List LinkEvidence :=
  ((portMacs.flatMap (portClaims C V order)).insertionSort fun c d =>
    claimKey c ≤ claimKey d).map Prod.snd

/-! ### What a port says -/

/-- Source and confidence of what the addresses `macs` of a port say of one of them. -/
inductive Says (infra macs : Finset String) (mac : String) : String → String → Prop where
  | edge : macs = {mac} → mac ∉ infra → Says infra macs mac "fdb_edge" "high"
  | uplink : mac ∈ macs → mac ∈ infra → Says infra macs mac "fdb_uplink" "low"
  | ambiguous : mac ∈ macs → Disjoint macs infra → 1 < macs.card →
      macs.card ≤ uplinkMacThreshold → Says infra macs mac "fdb_ambiguous" "low"

variable {C V order} {row : Int × Finset String} {claim : Int × LinkEvidence}
  {infra macs : Finset String} {mac source confidence : String}

theorem Says.mem (h : Says infra macs mac source confidence) : mac ∈ macs := by
  cases h with
  | edge hmacs => exact hmacs ▸ Finset.mem_singleton_self mac
  | uplink hmac => exact hmac
  | ambiguous hmac => exact hmac

/-- A port says one thing of an address. -/
theorem Says.unique {source' confidence' : String} (h : Says infra macs mac source confidence)
    (h' : Says infra macs mac source' confidence') :
    source = source' ∧ confidence = confidence' := by
  cases h with
  | edge hmacs hinfra =>
    cases h' with
    | edge => exact ⟨rfl, rfl⟩
    | uplink _ hinfra' => exact absurd hinfra' hinfra
    | ambiguous _ _ hcard =>
      rw [hmacs, Finset.card_singleton] at hcard
      omega
  | uplink hmac hinfra =>
    cases h' with
    | edge _ hinfra' => exact absurd hinfra hinfra'
    | uplink => exact ⟨rfl, rfl⟩
    | ambiguous _ hdisjoint => exact absurd hinfra (Finset.disjoint_left.mp hdisjoint hmac)
  | ambiguous hmac hdisjoint hcard =>
    cases h' with
    | edge hmacs =>
      rw [hmacs, Finset.card_singleton] at hcard
      omega
    | uplink _ hinfra => exact absurd hinfra (Finset.disjoint_left.mp hdisjoint hmac)
    | ambiguous => exact ⟨rfl, rfl⟩

theorem mem_elements_claims {s : Finset String} :
    claim ∈ (order.elements s).map (fun mac => (row.1, fdbClaim V source confidence row.1 mac)) ↔
      ∃ mac ∈ s, claim = (row.1, fdbClaim V source confidence row.1 mac) := by
  rw [List.mem_map]
  constructor
  · rintro ⟨mac, hmac, rfl⟩
    exact ⟨mac, (order.mem_elements s mac).mp hmac, rfl⟩
  · rintro ⟨mac, hmac, rfl⟩
    exact ⟨mac, (order.mem_elements s mac).mpr hmac, rfl⟩

/-- The loop makes the claims that the port makes. -/
theorem mem_portClaims : claim ∈ portClaims C V order row ↔
    ∃ mac source confidence, Says V.infraMacs (hostMacs C V row.2) mac source confidence ∧
      claim = (row.1, fdbClaim V source confidence row.1 mac) := by
  unfold portClaims
  dsimp only
  generalize hostMacs C V row.2 = macs
  by_cases hempty : macs = ∅
  · rw [if_pos hempty]
    refine iff_of_false List.not_mem_nil ?_
    rintro ⟨mac, _, _, hsays, _⟩
    have hmac := hsays.mem
    simp [hempty] at hmac
  rw [if_neg hempty]
  by_cases htrunk : macs ∩ V.infraMacs ≠ ∅ ∨ uplinkMacThreshold < macs.card
  · rw [if_pos htrunk, mem_elements_claims]
    constructor
    · rintro ⟨mac, hmac, heq⟩
      obtain ⟨hmac, hinfra⟩ := Finset.mem_inter.mp hmac
      exact ⟨mac, _, _, .uplink hmac hinfra, heq⟩
    · rintro ⟨mac, _, _, hsays, heq⟩
      cases hsays with
      | edge hmacs hinfra =>
        subst hmacs
        rw [Finset.singleton_inter_of_notMem hinfra, Finset.card_singleton] at htrunk
        simp [uplinkMacThreshold] at htrunk
      | uplink hmac hinfra => exact ⟨mac, Finset.mem_inter.mpr ⟨hmac, hinfra⟩, heq⟩
      | ambiguous hmac hdisjoint hcard hfew =>
        rw [Finset.disjoint_iff_inter_eq_empty.mp hdisjoint] at htrunk
        exact absurd (htrunk.resolve_left (by simp)) (not_lt.mpr hfew)
  rw [if_neg htrunk]
  rw [not_or, not_not, not_lt] at htrunk
  obtain ⟨hinfra, hfew⟩ := htrunk
  have hdisjoint : Disjoint macs V.infraMacs := Finset.disjoint_iff_inter_eq_empty.mpr hinfra
  by_cases hone : macs.card = 1
  · rw [if_pos hone, mem_elements_claims]
    obtain ⟨host, rfl⟩ := Finset.card_eq_one.mp hone
    have hhost : host ∉ V.infraMacs := Finset.disjoint_singleton_left.mp hdisjoint
    constructor
    · rintro ⟨mac, hmac, heq⟩
      obtain rfl := Finset.mem_singleton.mp hmac
      exact ⟨mac, _, _, .edge rfl hhost, heq⟩
    · rintro ⟨mac, _, _, hsays, heq⟩
      obtain rfl := Finset.mem_singleton.mp hsays.mem
      obtain ⟨rfl, rfl⟩ := hsays.unique (.edge rfl hhost)
      exact ⟨mac, Finset.mem_singleton_self mac, heq⟩
  · rw [if_neg hone, mem_elements_claims]
    have hmany : 1 < macs.card := by
      have hpos := Finset.card_pos.mpr (Finset.nonempty_iff_ne_empty.mpr hempty)
      omega
    constructor
    · rintro ⟨mac, hmac, heq⟩
      exact ⟨mac, _, _, .ambiguous hmac hdisjoint hmany hfew, heq⟩
    · rintro ⟨mac, _, _, hsays, heq⟩
      obtain ⟨rfl, rfl⟩ := hsays.unique (.ambiguous hsays.mem hdisjoint hmany hfew)
      exact ⟨mac, hsays.mem, heq⟩

/-! ### The whole table -/

variable {portMacs : List (Int × Finset String)}

theorem mem_inferEdges {e : LinkEvidence} : e ∈ inferEdges C V order portMacs ↔
    ∃ row ∈ portMacs, ∃ mac source confidence,
      Says V.infraMacs (hostMacs C V row.2) mac source confidence ∧
        e = fdbClaim V source confidence row.1 mac := by
  unfold inferEdges
  rw [List.mem_map]
  constructor
  · rintro ⟨claim, hclaim, rfl⟩
    rw [(List.perm_insertionSort _ _).mem_iff] at hclaim
    obtain ⟨row, hrow, hclaim⟩ := List.mem_flatMap.mp hclaim
    obtain ⟨mac, source, confidence, hsays, rfl⟩ := mem_portClaims.mp hclaim
    exact ⟨row, hrow, mac, source, confidence, hsays, rfl⟩
  · rintro ⟨row, hrow, mac, source, confidence, hsays, rfl⟩
    refine ⟨(row.1, fdbClaim V source confidence row.1 mac), ?_, rfl⟩
    rw [(List.perm_insertionSort _ _).mem_iff]
    exact List.mem_flatMap.mpr ⟨row, hrow, mem_portClaims.mpr ⟨mac, _, _, hsays, rfl⟩⟩

theorem perm_portClaims (order order' : Lib.SetOrder String) (row : Int × Finset String) :
    (portClaims C V order row).Perm (portClaims C V order' row) := by
  unfold portClaims
  dsimp only
  split
  · exact .refl _
  · split
    · exact (order.perm order' _).map _
    · split
      · exact (order.perm order' _).map _
      · exact (order.perm order' _).map _

/-- Claims with one address and one port are one claim. -/
theorem claim_unique (hports : (portMacs.map Prod.fst).Nodup) {c d : Int × LinkEvidence}
    (hc : c ∈ portMacs.flatMap (portClaims C V order))
    (hd : d ∈ portMacs.flatMap (portClaims C V order)) (hport : c.1 = d.1)
    (hmac : c.2.b = d.2.b) : c = d := by
  obtain ⟨row, hrow, hc⟩ := List.mem_flatMap.mp hc
  obtain ⟨row', hrow', hd⟩ := List.mem_flatMap.mp hd
  obtain ⟨mac, source, confidence, hsays, rfl⟩ := mem_portClaims.mp hc
  obtain ⟨mac', source', confidence', hsays', rfl⟩ := mem_portClaims.mp hd
  obtain rfl : row = row' := List.inj_on_of_nodup_map hports hrow hrow' hport
  obtain rfl : mac = mac' := hmac
  obtain ⟨rfl, rfl⟩ := hsays.unique hsays'
  rfl

theorem inferEdges_perm (order order' : Lib.SetOrder String)
    {portMacs portMacs' : List (Int × Finset String)} (hports : (portMacs.map Prod.fst).Nodup)
    (hperm : portMacs.Perm portMacs') :
    inferEdges C V order portMacs = inferEdges C V order' portMacs' := by
  have hclaims : (portMacs.flatMap (portClaims C V order)).Perm
      (portMacs'.flatMap (portClaims C V order')) :=
    (hperm.flatMap_right _).trans
      (List.Perm.flatMap_left _ fun row _ => perm_portClaims order order' row)
  unfold inferEdges
  rw [insertionSort_eq_of_perm hclaims]
  intro c hc d hd hcd hdc
  have hkey : claimKey c = claimKey d := le_antisymm hcd hdc
  have hmac : c.2.b = d.2.b := congrArg (fun k => (ofLex k).1) hkey
  have hport : c.1 = d.1 :=
    congrArg (fun k => (ofLex (ofLex (ofLex k).2).2).2) hkey
  exact claim_unique hports hc hd hport hmac

/-- **The inference.**  Of every address behind a port it claims what the hosts behind that port
    say, and nothing else.  The claims come out in one order, whatever the
    orders of the table and of its sets are; and the switch's own addresses and group addresses
    in the table change nothing. -/
theorem infer_edges (C : PyChars) (V : SwitchView) (order : Lib.SetOrder String)
    (portMacs : List (Int × Finset String)) (hports : (portMacs.map Prod.fst).Nodup) :
    (∀ e, e ∈ inferEdges C V order portMacs ↔ ∃ row ∈ portMacs, ∃ mac source confidence,
      Says V.infraMacs (hostMacs C V row.2) mac source confidence ∧
        e = fdbClaim V source confidence row.1 mac) ∧
    (∀ order' portMacs', portMacs.Perm portMacs' →
      inferEdges C V order' portMacs' = inferEdges C V order portMacs) ∧
    ∀ noise : Int → Finset String,
      (∀ port, ∀ mac ∈ noise port, isMulticast C mac = true ∨ mac ∈ V.ownMacs) →
      inferEdges C V order (portMacs.map fun row => (row.1, row.2 ∪ noise row.1)) =
        inferEdges C V order portMacs := by
  refine ⟨fun e => mem_inferEdges,
    fun order' portMacs' h => (inferEdges_perm order order' hports h).symm, ?_⟩
  intro noise hnoise
  have hhost : ∀ row : Int × Finset String,
      hostMacs C V (row.2 ∪ noise row.1) = hostMacs C V row.2 := by
    intro row
    unfold hostMacs
    rw [Finset.filter_union, Finset.union_eq_left]
    intro mac hmac
    obtain ⟨hmem, hhost, hown⟩ := Finset.mem_filter.mp hmac
    rcases hnoise row.1 mac hmem with hmulti | hself
    · rw [hmulti] at hhost
      cases hhost
    · exact absurd hself hown
  have hclaims : ∀ row : Int × Finset String,
      portClaims C V order (row.1, row.2 ∪ noise row.1) = portClaims C V order row := by
    intro row
    unfold portClaims
    rw [hhost row]
  unfold inferEdges
  rw [List.flatMap_map]
  simp only [hclaims]

theorem infer_edges_ports :
    inferEdges .ascii { nid := "nd-chassis-SW1", portIfindex := [(1, 10)] } (.sorted (.refl String))
        [(2, {"00-11-22-33-44-66"}), (1, {"00-11-22-33-44-55"})] =
      inferEdges .ascii { nid := "nd-chassis-SW1", portIfindex := [(1, 10)] }
        (.sorted (.refl String)) [(1, {"00-11-22-33-44-55"}), (2, {"00-11-22-33-44-66"})] :=
  (infer_edges .ascii { nid := "nd-chassis-SW1", portIfindex := [(1, 10)] } (.sorted (.refl String))
    [(1, {"00-11-22-33-44-55"}), (2, {"00-11-22-33-44-66"})] (by decide)).2.1 _ _
    (List.Perm.swap _ _ _)

end Srp.Netdisco
