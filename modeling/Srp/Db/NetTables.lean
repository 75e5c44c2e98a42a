/-
  Srp/Db/NetTables.lean
  =====================
  **The network tables** (`server/db.py`): `net_devices` by `device_nid`, and
  `net_links` by `(a_nid, b_nid, link_kind)`, with the statements that the
  topology cycle runs on them.  A table is the list of its rows in `id` order.
-/
import Mathlib.Data.List.Sort
import Mathlib.Data.String.Basic
import Srp.Lib.Table

namespace Srp.Db

open Srp.Lib.Table

/-! ### `net_devices` -/

structure NetDeviceRow where
  deviceNid : String
  ip : Option String := none
  hostname : Option String := none
  mac : Option String := none
  vendor : Option String := none
  devType : Option String := none
  sysObjectId : Option String := none
  model : Option String := none
  serial : Option String := none
  siteCode : Option String := none
  status : Option String := none
  subtype : Option String := none
  sysDescr : Option String := none
  firstSeen : Option String := none
  lastSeen : Option String := none
deriving DecidableEq, Repr

/-- `get_net_devices`, unfiltered: ordered by `COALESCE(hostname, ip, device_nid)`. -/
def getNetDevices (rows : List NetDeviceRow) : List NetDeviceRow :=
  rows.insertionSort fun r s =>
    (r.hostname <|> r.ip).getD r.deviceNid ≤ (s.hostname <|> s.ip).getD s.deviceNid

/-- The `DO UPDATE` part of `upsert_net_device`. -/
def mergeDevice (old new : NetDeviceRow) : NetDeviceRow :=
  { old with
    ip := new.ip <|> old.ip
    hostname := new.hostname <|> old.hostname
    mac := new.mac <|> old.mac
    vendor := new.vendor <|> old.vendor
    devType := if new.devType ≠ none ∧ new.devType ≠ some "unknown" then new.devType
      else old.devType
    sysObjectId := new.sysObjectId <|> old.sysObjectId
    model := new.model <|> old.model
    serial := new.serial <|> old.serial
    siteCode := new.siteCode <|> old.siteCode
    status := new.status <|> old.status
    subtype := new.subtype <|> old.subtype
    sysDescr := new.sysDescr <|> old.sysDescr
    lastSeen := new.lastSeen }

/-- The `INSERT` of `upsert_net_device`, which it runs after its identity migration; the
    migration needs both a MAC and an IP in `dev`. -/
def writeNetDevice (dev : NetDeviceRow) (recv : String) (rows : List NetDeviceRow) :
    List NetDeviceRow :=
  upsert NetDeviceRow.deviceNid mergeDevice
    { dev with firstSeen := some recv, lastSeen := some recv } rows

def NetDeviceRow.fill (nid : String) (hostname subtype model : Option String)
    (r : NetDeviceRow) : NetDeviceRow :=
  if r.deviceNid = nid then
    { r with hostname := r.hostname <|> hostname, subtype := r.subtype <|> subtype,
             model := r.model <|> model }
  else r

/-- `fill_net_device_identity`: the stored value wins; only known devices are touched. -/
def fillNetDeviceIdentity (nid : String) (hostname subtype model : Option String)
    (rows : List NetDeviceRow) : List NetDeviceRow :=
  if nid = "" ∨ (hostname = none ∧ subtype = none ∧ model = none) then rows
  else rows.map (NetDeviceRow.fill nid hostname subtype model)

def NetDeviceRow.setStatus (nid status : String) (r : NetDeviceRow) : NetDeviceRow :=
  if r.deviceNid = nid then { r with status := some status } else r

/-- `set_net_device_status`: never advances `last_seen`. -/
def setNetDeviceStatus (nid status : String) (rows : List NetDeviceRow) : List NetDeviceRow :=
  rows.map (NetDeviceRow.setStatus nid status)

section RowUpdates

variable {nid status : String} {hostname subtype model : Option String} {r : NetDeviceRow}

@[simp] theorem NetDeviceRow.fill_deviceNid :
    (r.fill nid hostname subtype model).deviceNid = r.deviceNid := by
  unfold fill
  split <;> rfl

@[simp] theorem NetDeviceRow.fill_status :
    (r.fill nid hostname subtype model).status = r.status := by
  unfold fill
  split <;> rfl

@[simp] theorem NetDeviceRow.fill_lastSeen :
    (r.fill nid hostname subtype model).lastSeen = r.lastSeen := by
  unfold fill
  split <;> rfl

@[simp] theorem NetDeviceRow.setStatus_deviceNid :
    (r.setStatus nid status).deviceNid = r.deviceNid := by
  unfold setStatus
  split <;> rfl

@[simp] theorem NetDeviceRow.setStatus_lastSeen :
    (r.setStatus nid status).lastSeen = r.lastSeen := by
  unfold setStatus
  split <;> rfl

theorem NetDeviceRow.setStatus_status :
    (r.setStatus nid status).status = if r.deviceNid = nid then some status else r.status := by
  unfold setStatus
  split <;> rfl

end RowUpdates

/-! ### `net_links` -/

structure NetLinkRow where
  aNid : String
  bNid : String
  aIf : Option Int := none
  bIf : Option Int := none
  linkKind : Option String := none
  viaSource : Option String := none
  confidence : Option String := none
  medium : Option String := none
  vlan : Option Int := none
  aPort : Option String := none
  bPort : Option String := none
  firstSeen : Option String := none
  lastSeen : Option String := none
deriving DecidableEq, Repr

def NetLinkRow.key (r : NetLinkRow) : String × String × Option String :=
  (r.aNid, r.bNid, r.linkKind)

/-- A link as the callers pass it: a dictionary, any key of which may be missing. -/
structure LinkDict where
  aNid : Option String
  bNid : Option String
  aIf : Option Int := none
  bIf : Option Int := none
  linkKind : Option String := none
  viaSource : Option String := none
  confidence : Option String := none
  medium : Option String := none
  vlan : Option Int := none
  aPort : Option String := none
  bPort : Option String := none
deriving DecidableEq, Repr

/-- The row of a link in canonical direction; a link without two distinct ends is skipped. -/
def canonLink (recv : String) (link : LinkDict) : Option NetLinkRow :=
  match link.aNid, link.bNid with
  | some a, some b =>
    if a = "" ∨ b = "" ∨ a = b then none
    else
      let fwd : NetLinkRow :=
        { aNid := a, bNid := b, aIf := link.aIf, bIf := link.bIf, linkKind := link.linkKind,
          viaSource := link.viaSource, confidence := link.confidence, medium := link.medium,
          vlan := link.vlan, aPort := link.aPort, bPort := link.bPort,
          firstSeen := some recv, lastSeen := some recv }
      some (if b < a then
        { fwd with aNid := b, bNid := a, aIf := link.bIf, bIf := link.aIf,
                   aPort := link.bPort, bPort := link.aPort }
        else fwd)
  | _, _ => none

/-- The `DO UPDATE` part of `replace_net_links`: `medium` and `vlan` are latest-wins. -/
def mergeLink (old new : NetLinkRow) : NetLinkRow :=
  { old with
    aIf := new.aIf <|> old.aIf
    bIf := new.bIf <|> old.bIf
    viaSource := new.viaSource
    confidence := new.confidence
    medium := new.medium
    vlan := new.vlan
    aPort := new.aPort <|> old.aPort
    bPort := new.bPort <|> old.bPort
    lastSeen := new.lastSeen }

/-- The upsert of one canonical link; a NULL kind conflicts with nothing. -/
def insertLink (rows : List NetLinkRow) (new : NetLinkRow) : List NetLinkRow :=
  if new.linkKind = none then rows ++ [new] else upsert NetLinkRow.key mergeLink new rows

def Incident (nodes : List String) (r : NetLinkRow) : Prop := r.aNid ∈ nodes ∨ r.bNid ∈ nodes

instance (nodes : List String) (r : NetLinkRow) : Decidable (Incident nodes r) :=
  inferInstanceAs (Decidable (_ ∨ _))

/-- Replace the links incident to the probed nodes: delete their vanished links, upsert the
    current ones. -/
def replaceNetLinks (links : List LinkDict) (nodeNids : List String) (recv : String)
    (rows : List NetLinkRow) : List NetLinkRow :=
  let nodes := nodeNids.filter (· ≠ "")
  let canon := links.filterMap (canonLink recv)
  let newKeys := canon.map (·.key)
  let stale := ((rows.filter fun r => Incident nodes r).map (·.key)).filter (· ∉ newKeys)
  canon.foldl insertLink (rows.filter fun r => r.key ∉ stale)

/-- The row that `add_adapter_link` offers: no ifIndexes, and a kind of its own. -/
def adapterLinkRow (recv : String) (link : LinkDict) : Option NetLinkRow :=
  canonLink recv { link with
    aIf := none
    bIf := none
    linkKind := if link.linkKind = none ∨ link.linkKind = some "" then some "adapter"
      else link.linkKind }

/-- `add_adapter_link`: `ON CONFLICT DO NOTHING`. -/
def addAdapterLink (recv : String) (rows : List NetLinkRow) (link : LinkDict) :
    List NetLinkRow :=
  match adapterLinkRow recv link with
  | none => rows
  | some new => if new.key ∈ rows.map (·.key) then rows else rows ++ [new]

/-! ### Keys of `net_links` -/

theorem mem_keys_insertLink {rows : List NetLinkRow} {new : NetLinkRow}
    {k : String × String × Option String} :
    k ∈ (insertLink rows new).map (·.key) ↔ k ∈ rows.map (·.key) ∨ k = new.key := by
  unfold insertLink
  by_cases h : new.linkKind = none
  · rw [if_pos h, List.map_append, List.mem_append, List.map_singleton, List.mem_singleton]
  · rw [if_neg h, mem_keys_upsert (fun old hold => hold), or_comm]

theorem mem_keys_insertLinks {rows canon : List NetLinkRow}
    {k : String × String × Option String} :
    k ∈ (canon.foldl insertLink rows).map (·.key) ↔
      k ∈ rows.map (·.key) ∨ k ∈ canon.map (·.key) := by
  induction canon generalizing rows with
  | nil => simp
  | cons new canon ih => rw [List.foldl_cons, ih, mem_keys_insertLink, List.map_cons,
      List.mem_cons, or_assoc]

/-- The keys after a replacement: the new ones, and the old ones with no end among the
    probed nodes. -/
theorem mem_keys_replaceNetLinks {links : List LinkDict} {nodeNids : List String}
    {recv : String} {rows : List NetLinkRow} {k : String × String × Option String} :
    k ∈ (replaceNetLinks links nodeNids recv rows).map (·.key) ↔
      k ∈ (links.filterMap (canonLink recv)).map (·.key) ∨
        (k ∈ rows.map (·.key) ∧ k.1 ∉ nodeNids.filter (· ≠ "") ∧
          k.2.1 ∉ nodeNids.filter (· ≠ "")) := by
  unfold replaceNetLinks
  rw [mem_keys_insertLinks, or_comm]
  by_cases hnew : k ∈ (links.filterMap (canonLink recv)).map (·.key)
  · simp only [hnew, true_or]
  · simp only [hnew, false_or]
    constructor
    · intro h
      obtain ⟨r, hr, rfl⟩ := List.mem_map.mp h
      obtain ⟨hr, hkeep⟩ := List.mem_filter.mp hr
      have hfree : ¬ Incident (nodeNids.filter (· ≠ "")) r := by
        intro hinc
        refine of_decide_eq_true hkeep (List.mem_filter.mpr ⟨?_, decide_eq_true hnew⟩)
        exact List.mem_map_of_mem (List.mem_filter.mpr ⟨hr, decide_eq_true hinc⟩)
      exact ⟨List.mem_map_of_mem hr, fun ha => hfree (Or.inl ha), fun hb => hfree (Or.inr hb)⟩
    · rintro ⟨h, ha, hb⟩
      obtain ⟨r, hr, rfl⟩ := List.mem_map.mp h
      refine List.mem_map_of_mem (List.mem_filter.mpr ⟨hr, decide_eq_true ?_⟩)
      intro hstale
      obtain ⟨hinc, _⟩ := List.mem_filter.mp hstale
      obtain ⟨r', hr', hkey⟩ := List.mem_map.mp hinc
      have hinc' : Incident _ r' := of_decide_eq_true (List.mem_filter.mp hr').2
      have hka : r'.aNid = r.aNid := congrArg (·.1) hkey
      have hkb : r'.bNid = r.bNid := congrArg (·.2.1) hkey
      unfold Incident at hinc'
      rw [hka, hkb] at hinc'
      exact hinc'.elim ha hb

/-! ### Rows that a writer leaves alone -/

theorem mem_insertLink_of_ne {rows : List NetLinkRow} {new r : NetLinkRow} (hr : r ∈ rows)
    (hne : r.key ≠ new.key) : r ∈ insertLink rows new := by
  simp only [insertLink]
  split
  · exact List.mem_append_left _ hr
  · exact mem_upsert_of_ne hr hne

theorem mem_insertLinks_of_not_mem {rows canon : List NetLinkRow} {r : NetLinkRow}
    (hr : r ∈ rows) (hnew : r.key ∉ canon.map (·.key)) : r ∈ canon.foldl insertLink rows := by
  induction canon generalizing rows with
  | nil => exact hr
  | cons new canon ih =>
    rw [List.map_cons, List.mem_cons, not_or] at hnew
    exact ih (mem_insertLink_of_ne hr hnew.1) hnew.2

/-- A replacement keeps the rows that it neither re-derives nor finds at a probed node. -/
theorem mem_replaceNetLinks {links : List LinkDict} {nodeNids : List String} {recv : String}
    {rows : List NetLinkRow} {r : NetLinkRow} (hr : r ∈ rows)
    (hnew : r.key ∉ (links.filterMap (canonLink recv)).map (·.key))
    (hfree : ¬ Incident (nodeNids.filter (· ≠ "")) r) :
    r ∈ replaceNetLinks links nodeNids recv rows := by
  apply mem_insertLinks_of_not_mem _ hnew
  refine List.mem_filter.mpr ⟨hr, decide_eq_true ?_⟩
  intro hstale
  obtain ⟨hinc, _⟩ := List.mem_filter.mp hstale
  obtain ⟨r', hr', hkey⟩ := List.mem_map.mp hinc
  have hinc' : Incident _ r' := of_decide_eq_true (List.mem_filter.mp hr').2
  have hka : r'.aNid = r.aNid := congrArg (·.1) hkey
  have hkb : r'.bNid = r.bNid := congrArg (·.2.1) hkey
  apply hfree
  rwa [Incident, hka, hkb] at hinc'

/-- An adapter link never touches a row: the table before is a prefix of the table after. -/
theorem prefix_addAdapterLink (recv : String) (rows : List NetLinkRow) (link : LinkDict) :
    rows <+: addAdapterLink recv rows link := by
  simp only [addAdapterLink]
  split
  · exact List.prefix_rfl
  · split
    · exact List.prefix_rfl
    · exact List.prefix_append _ _

end Srp.Db
