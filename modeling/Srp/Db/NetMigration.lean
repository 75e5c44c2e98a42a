/-
  Srp/Db/NetMigration.lean
  ========================
  **From an IP-only node to its MAC identity** (`upsert_net_device` of
  `server/db.py`).

  An inventory write that knows the MAC of an address folds the row that was
  kept under the bare address into the row of the MAC, re-points readings and
  routes and drops what else was stored under the old id.  A stored MAC that
  contradicts the one of the write stops the fold.  `upsert_migrates` is the
  whole effect of such a write on the five tables; `migrateIdentity_cases` says
  what any write does before its `INSERT`, for the histories of the network
  tables.
-/
import Mathlib.Data.Rat.Defs
import Srp.Db.NetTables
import Srp.Netdisco.Identity

namespace Srp.Db

open Srp.Lib.Table Srp.Netdisco

/-! ### The tables -/

/-- `net_devices`, with the columns that `upsert_net_device` does not write itself. -/
structure StoredNetDevice extends NetDeviceRow where
  deviceId : Option String := none
  printerId : Option String := none
  snmpMuteUntil : Option String := none
deriving DecidableEq, Repr

structure NetInterfaceRow where
  id : Nat
  deviceNid : Option String
  ifIndex : Option Int := none
  name : Option String := none
  ifType : Option Int := none
  speedMbps : Option ℚ := none
  operUp : Option Int := none
  physMac : Option String := none
  ifAlias : Option String := none
  lastSeen : Option String := none
deriving DecidableEq, Repr

structure NetReadingRow where
  id : Nat
  deviceNid : Option String
  receivedAt : Option String := none
  status : Option String := none
  detail : Option String := none
deriving DecidableEq, Repr

structure NetRouteRow where
  deviceNid : Option String
  cidr : Option String
  nextHop : Option String := none
  ifindex : Option Int := none
  firstSeen : Option String := none
  lastSeen : Option String := none
deriving DecidableEq, Repr

/-- The primary key of `net_routes`; a row with a NULL in it conflicts with none. -/
def NetRouteRow.key? (r : NetRouteRow) : Option (String × String) :=
  match r.deviceNid, r.cidr with
  | some nid, some cidr => some (nid, cidr)
  | _, _ => none

structure NetDb where
  devices : List StoredNetDevice := []
  interfaces : List NetInterfaceRow := []
  links : List NetLinkRow := []
  readings : List NetReadingRow := []
  routes : List NetRouteRow := []
deriving DecidableEq, Repr

/-- The keys that the schema declares. -/
structure NetDb.WellFormed (db : NetDb) : Prop where
  devices : (db.devices.map (·.deviceNid)).Nodup
  readings : (db.readings.map (·.id)).Nodup
  routes : (db.routes.filterMap NetRouteRow.key?).Nodup

/-! ### The migration -/

/-- `_delete_net_device_rows`. -/
def deleteNetDeviceRows (nid : String) (db : NetDb) : NetDb :=
  { db with
    interfaces := db.interfaces.filter fun r => decide (r.deviceNid ≠ some nid)
    links := db.links.filter fun r => decide (r.aNid ≠ nid ∧ r.bNid ≠ nid)
    readings := db.readings.filter fun r => decide (r.deviceNid ≠ some nid)
    routes := db.routes.filter fun r => decide (r.deviceNid ≠ some nid) }

/-- The old row under its new id. -/
def StoredNetDevice.rename (new : String) (r : StoredNetDevice) : StoredNetDevice :=
  { r with deviceNid := new, deviceId := none, printerId := none }

/-- `MIN(a, b)` of two columns. -/
def sqlMin : Option String → Option String → Option String
  | some a, some b => some (min a b)
  | _, _ => none

/-- The row of the new id, with the gaps filled from the old one. -/
def StoredNetDevice.absorb (r old : StoredNetDevice) : StoredNetDevice :=
  { r with
    ip := r.ip <|> old.ip
    hostname := r.hostname <|> old.hostname
    vendor := r.vendor <|> old.vendor
    devType := if r.devType = none ∨ r.devType = some "unknown" then old.devType else r.devType
    sysObjectId := r.sysObjectId <|> old.sysObjectId
    model := r.model <|> old.model
    serial := r.serial <|> old.serial
    siteCode := r.siteCode <|> old.siteCode
    status := r.status <|> old.status
    subtype := r.subtype <|> old.subtype
    sysDescr := r.sysDescr <|> old.sysDescr
    firstSeen := sqlMin (r.firstSeen <|> old.firstSeen) (old.firstSeen <|> r.firstSeen)
    deviceId := none
    printerId := none }

/-- `_rename_or_merge_net_device_row`. -/
def renameOrMergeNetDeviceRow (old new : String) (devices : List StoredNetDevice) :
    List StoredNetDevice :=
  match row (·.deviceNid) devices new with
  | none => devices.map fun r => if r.deviceNid = old then r.rename new else r
  | some _ =>
    let devices := match row (·.deviceNid) devices old with
      | some oldRow => devices.map fun r : StoredNetDevice =>
          if r.deviceNid = new then r.absorb oldRow else r
      | none => devices
    devices.filter fun r => decide (r.deviceNid ≠ old)

def NetReadingRow.repoint (old new : String) (r : NetReadingRow) : NetReadingRow :=
  if r.deviceNid = some old then { r with deviceNid := some new } else r

/-- The routes of the old id, as the `SELECT` offers them to the new one. -/
def offeredRoutes (old new : String) (routes : List NetRouteRow) : List NetRouteRow :=
  (routes.filter fun r => decide (r.deviceNid = some old)).map
    fun r => { r with deviceNid := some new }

/-- `_repoint_net_device_children`. -/
def repointNetDeviceChildren (old new : String) (db : NetDb) : NetDb :=
  { db with
    readings := db.readings.map (NetReadingRow.repoint old new)
    routes := (offeredRoutes old new db.routes).foldl (insertOrIgnore NetRouteRow.key?) db.routes }

/-- `_migrate_net_device_nid`. -/
def migrateNetDeviceNid (old new : String) (db : NetDb) : NetDb :=
  deleteNetDeviceRows old (repointNetDeviceChildren old new
    { db with devices := renameOrMergeNetDeviceRow old new db.devices })

variable (T : PyText)

/-- `_ip_only_nid` of an address. -/
def ipOnlyNid (ip : String) : String := deviceNid T none none none (some ip)

/-- What `upsert_net_device` does before its `INSERT`. -/
def migrateIdentity (dev : NetDeviceRow) (db : NetDb) : NetDb :=
  match dev.mac, dev.ip with
  | some mac, some ip =>
    if mac ≠ "" ∧ ip ≠ "" ∧ "nd-mac-".toList.isPrefixOf dev.deviceNid.toList then
      if ipOnlyNid T ip ≠ dev.deviceNid then
        match row (·.deviceNid) db.devices (ipOnlyNid T ip) with
        | some old =>
          if normalizeMac T old.mac = none ∨ normalizeMac T old.mac = normalizeMac T (some mac) then
            migrateNetDeviceNid (ipOnlyNid T ip) dev.deviceNid db
          else db
        | none => db
      else db
    else db
  | _, _ => db

/-- The `DO UPDATE` part, on a stored row. -/
def mergeStored (old new : StoredNetDevice) : StoredNetDevice :=
  { old with toNetDeviceRow := mergeDevice old.toNetDeviceRow new.toNetDeviceRow }

/-- The row of the `INSERT`. -/
def insertedDevice (dev : NetDeviceRow) (recv : String) : StoredNetDevice :=
  { toNetDeviceRow := { dev with firstSeen := some recv, lastSeen := some recv } }

/-- The `INSERT ... ON CONFLICT DO UPDATE` of `upsert_net_device`. -/
def writeDevice (dev : NetDeviceRow) (recv : String) (db : NetDb) : NetDb :=
  { db with devices := upsert (·.deviceNid) mergeStored (insertedDevice dev recv) db.devices }

/-- `upsert_net_device`; `recv` is `received_at`, or the time of the call. -/
def upsertNetDevice (dev : NetDeviceRow) (recv : String) (db : NetDb) : NetDb :=
  if dev.deviceNid = "" then db else writeDevice dev recv (migrateIdentity T dev db)

/-! ### What a migration leaves -/

/-- The columns that say what a device is. -/
def identityColumns : List (NetDeviceRow → Option String) :=
  [(·.hostname), (·.vendor), (·.sysObjectId), (·.model), (·.serial), (·.siteCode), (·.status),
    (·.subtype), (·.sysDescr)]

/-- The earlier of the known ones of two times. -/
def earlier : Option String → Option String → Option String
  | some a, some b => some (min a b)
  | some a, none => some a
  | none, b => b

theorem sqlMin_coalesce (a b : Option String) : sqlMin (a <|> b) (b <|> a) = earlier a b := by
  cases a with
  | none =>
    cases b with
    | none => rfl
    | some b => simp [sqlMin, earlier]
  | some a =>
    cases b with
    | none => simp [sqlMin, earlier]
    | some b => rfl

/-- The row that stands for the device after the fold of its two rows. -/
def survivor (new : String) (macRow : Option StoredNetDevice) (ipRow : StoredNetDevice) :
    StoredNetDevice :=
  match macRow with
  | none => ipRow.rename new
  | some r => r.absorb ipRow

theorem survivor_column {new : String} {macRow : Option StoredNetDevice} {ipRow : StoredNetDevice}
    {column : NetDeviceRow → Option String} (h : column ∈ identityColumns) :
    column (survivor new macRow ipRow).toNetDeviceRow =
      ((macRow.bind fun r => column r.toNetDeviceRow) <|> column ipRow.toNetDeviceRow) := by
  cases macRow with
  | none =>
    simp only [identityColumns, List.mem_cons, List.not_mem_nil, or_false] at h
    rcases h with rfl | rfl | rfl | rfl | rfl | rfl | rfl | rfl | rfl <;> rfl
  | some r =>
    simp only [identityColumns, List.mem_cons, List.not_mem_nil, or_false] at h
    rcases h with rfl | rfl | rfl | rfl | rfl | rfl | rfl | rfl | rfl <;> rfl

theorem survivor_firstSeen (new : String) (macRow : Option StoredNetDevice)
    (ipRow : StoredNetDevice) : (survivor new macRow ipRow).firstSeen =
      earlier (macRow.bind (·.firstSeen)) ipRow.firstSeen := by
  cases macRow with
  | none => rfl
  | some r => exact sqlMin_coalesce r.firstSeen ipRow.firstSeen

theorem survivor_links (new : String) (macRow : Option StoredNetDevice)
    (ipRow : StoredNetDevice) : (survivor new macRow ipRow).deviceId = none ∧
      (survivor new macRow ipRow).printerId = none := by
  cases macRow <;> exact ⟨rfl, rfl⟩

theorem mergeDevice_column {column : NetDeviceRow → Option String} (h : column ∈ identityColumns)
    (old new : NetDeviceRow) : column (mergeDevice old new) = (column new <|> column old) := by
  simp only [identityColumns, List.mem_cons, List.not_mem_nil, or_false] at h
  rcases h with rfl | rfl | rfl | rfl | rfl | rfl | rfl | rfl | rfl <;> rfl

theorem insertedDevice_column {column : NetDeviceRow → Option String}
    (h : column ∈ identityColumns) (dev : NetDeviceRow) (recv : String) :
    column (insertedDevice dev recv).toNetDeviceRow = column dev := by
  simp only [identityColumns, List.mem_cons, List.not_mem_nil, or_false] at h
  rcases h with rfl | rfl | rfl | rfl | rfl | rfl | rfl | rfl | rfl <;> rfl

/-- The row refers to neither id. -/
def neither (old new : String) (nid : Option String) : Bool :=
  decide (nid ≠ some old ∧ nid ≠ some new)

/-- The fold of `net_devices`. -/
structure Folded (old new : String) (row' : StoredNetDevice)
    (devices devices' : List StoredNetDevice) : Prop where
  nodup : (devices'.map (·.deviceNid)).Nodup
  gone : old ∉ devices'.map (·.deviceNid)
  found : row (·.deviceNid) devices' new = some row'
  others : devices'.filter (fun r => neither old new (some r.deviceNid)) =
    devices.filter fun r => neither old new (some r.deviceNid)

theorem neither_and_ne (old new : String) {devices : List StoredNetDevice} :
    ∀ r ∈ devices, (neither old new (some r.deviceNid) && decide (r.deviceNid ≠ old)) =
      neither old new (some r.deviceNid) := by
  intro r _
  by_cases h : r.deviceNid = old
  · simp [neither, h]
  · simp [h]

theorem row_eq_of_mem {devices : List StoredNetDevice}
    (h : (devices.map (·.deviceNid)).Nodup) {r : StoredNetDevice} (hr : r ∈ devices)
    {nid : String} (hnid : r.deviceNid = nid) : row (·.deviceNid) devices nid = some r := by
  subst hnid
  exact row_of_mem h hr

theorem folded_rename {devices : List StoredNetDevice} {old new : String} {ipRow : StoredNetDevice}
    (hnodup : (devices.map (·.deviceNid)).Nodup) (hne : old ≠ new)
    (hip : row (·.deviceNid) devices old = some ipRow) (hmac : row (·.deviceNid) devices new = none) :
    Folded old new (ipRow.rename new) devices
      (devices.map fun r => if r.deviceNid = old then r.rename new else r) := by
  obtain ⟨hmem, hkey⟩ := row_eq_some hip
  have hnew : ∀ r ∈ devices, r.deviceNid ≠ new := by
    intro r hr
    simpa using List.find?_eq_none.mp hmac r hr
  have hkeys : (devices.map fun r => if r.deviceNid = old then r.rename new else r).map
      (·.deviceNid) = (devices.map (·.deviceNid)).map fun k => if k = old then new else k := by
    rw [List.map_map, List.map_map]
    apply List.map_congr_left
    intro r _
    simp only [Function.comp_apply]
    split <;> rfl
  have hnodup' : ((devices.map fun r => if r.deviceNid = old then r.rename new else r).map
      (·.deviceNid)).Nodup := by
    rw [hkeys]
    apply List.Nodup.map_on _ hnodup
    intro k hk k' hk' heq
    obtain ⟨r, hr, rfl⟩ := List.mem_map.mp hk
    obtain ⟨r', hr', rfl⟩ := List.mem_map.mp hk'
    split at heq
    · rename_i hold
      split at heq
      · rename_i hold'
        rw [hold, hold']
      · exact absurd heq.symm (hnew r' hr')
    · split at heq
      · exact absurd heq (hnew r hr)
      · exact heq
  refine ⟨hnodup', ?_, ?_, ?_⟩
  · rw [hkeys, List.mem_map]
    rintro ⟨k, -, hk⟩
    split at hk
    · exact hne hk.symm
    · contradiction
  · apply row_eq_of_mem hnodup'
    · exact List.mem_map.mpr ⟨ipRow, hmem, if_pos hkey⟩
    · rfl
  · apply filter_map_of_fixed
    · intro r _
      split
      · rename_i hold
        simp [neither, hold, StoredNetDevice.rename]
      · rfl
    · intro r _ hkeep
      rw [if_neg]
      rintro rfl
      simp [neither] at hkeep

theorem folded_merge {devices : List StoredNetDevice} {old new : String}
    {ipRow macRow : StoredNetDevice} (hnodup : (devices.map (·.deviceNid)).Nodup) (hne : old ≠ new)
    (hmac : row (·.deviceNid) devices new = some macRow) :
    Folded old new (macRow.absorb ipRow) devices
      ((devices.map fun r : StoredNetDevice =>
        if r.deviceNid = new then r.absorb ipRow else r).filter
          fun r => decide (r.deviceNid ≠ old)) := by
  obtain ⟨hmem, hkey⟩ := row_eq_some hmac
  have hkeys : (devices.map fun r : StoredNetDevice =>
      if r.deviceNid = new then r.absorb ipRow else r).map (·.deviceNid) =
        devices.map (·.deviceNid) := by
    rw [List.map_map]
    apply List.map_congr_left
    intro r _
    simp only [Function.comp_apply]
    split <;> rfl
  have hnodup' : (((devices.map fun r : StoredNetDevice =>
      if r.deviceNid = new then r.absorb ipRow else r).filter
        fun r => decide (r.deviceNid ≠ old)).map (·.deviceNid)).Nodup := by
    refine List.Nodup.sublist (List.filter_sublist.map _) ?_
    rw [hkeys]
    exact hnodup
  refine ⟨hnodup', ?_, ?_, ?_⟩
  · intro h
    obtain ⟨r, hr, hold⟩ := List.mem_map.mp h
    exact of_decide_eq_true (List.mem_filter.mp hr).2 hold
  · apply row_eq_of_mem hnodup'
    · rw [List.mem_filter]
      refine ⟨List.mem_map.mpr ⟨macRow, hmem, if_pos hkey⟩, decide_eq_true ?_⟩
      change macRow.deviceNid ≠ old
      rw [hkey]
      exact Ne.symm hne
    · exact hkey
  · rw [List.filter_filter, List.filter_congr (neither_and_ne old new)]
    apply filter_map_of_fixed
    · intro r _
      split <;> rfl
    · intro r _ hkeep
      rw [if_neg]
      rintro rfl
      simp [neither] at hkeep

theorem folded_renameOrMerge {devices : List StoredNetDevice} {old new : String}
    {ipRow : StoredNetDevice} (hnodup : (devices.map (·.deviceNid)).Nodup) (hne : old ≠ new)
    (hip : row (·.deviceNid) devices old = some ipRow) :
    Folded old new (survivor new (row (·.deviceNid) devices new) ipRow) devices
      (renameOrMergeNetDeviceRow old new devices) := by
  unfold renameOrMergeNetDeviceRow
  cases hmac : row (·.deviceNid) devices new with
  | none => exact folded_rename hnodup hne hip hmac
  | some macRow =>
    simp only [hip]
    exact folded_merge hnodup hne hmac

/-! ### The child tables -/

/-- The route is one of the old id, and the new one has none to the same network. -/
def movesRoute (old new : String) (routes : List NetRouteRow) (r : NetRouteRow) : Bool :=
  decide (r.deviceNid = some old) &&
    !routes.any fun s => decide (s.deviceNid = some new ∧ s.cidr = r.cidr ∧ r.cidr ≠ none)

def NetRouteRow.repoint (new : String) (r : NetRouteRow) : NetRouteRow :=
  { r with deviceNid := some new }

theorem key?_repoint (new : String) (r : NetRouteRow) :
    (r.repoint new).key? = r.cidr.map fun cidr => (new, cidr) := by
  unfold NetRouteRow.key? NetRouteRow.repoint
  cases r.cidr <;> rfl

theorem key?_eq_some {r : NetRouteRow} {nid cidr : String} :
    r.key? = some (nid, cidr) ↔ r.deviceNid = some nid ∧ r.cidr = some cidr := by
  unfold NetRouteRow.key?
  cases r.deviceNid <;> cases r.cidr <;> simp

theorem nodup_offeredRoutes {routes : List NetRouteRow} (old new : String)
    (h : (routes.filterMap NetRouteRow.key?).Nodup) :
    ((offeredRoutes old new routes).filterMap NetRouteRow.key?).Nodup := by
  have hold : ((routes.filter fun r => decide (r.deviceNid = some old)).filterMap
      NetRouteRow.key?).Nodup := h.sublist (List.filter_sublist.filterMap _)
  have hkeys : (offeredRoutes old new routes).filterMap NetRouteRow.key? =
      ((routes.filter fun r => decide (r.deviceNid = some old)).filterMap
        NetRouteRow.key?).map fun k => (new, k.2) := by
    unfold offeredRoutes
    rw [List.filterMap_map, List.map_filterMap]
    apply List.filterMap_congr
    intro r hr
    have hnid : r.deviceNid = some old := of_decide_eq_true (List.mem_filter.mp hr).2
    change (r.repoint new).key? = _
    rw [key?_repoint, NetRouteRow.key?, hnid]
    cases r.cidr <;> rfl
  rw [hkeys]
  apply List.Nodup.map_on _ hold
  rintro ⟨a, c⟩ hk ⟨a', c'⟩ hk' heq
  obtain ⟨r, hr, hkey⟩ := List.mem_filterMap.mp hk
  obtain ⟨r', hr', hkey'⟩ := List.mem_filterMap.mp hk'
  have hnid := of_decide_eq_true (List.mem_filter.mp hr).2
  have hnid' := of_decide_eq_true (List.mem_filter.mp hr').2
  rw [key?_eq_some] at hkey hkey'
  have ha : a = old := by simpa [hnid] using hkey.1.symm
  have ha' : a' = old := by simpa [hnid'] using hkey'.1.symm
  rw [ha, ha']
  simpa using heq

theorem fresh_repoint {routes : List NetRouteRow} {old new : String} {r : NetRouteRow}
    (hr : r.deviceNid = some old) :
    Fresh NetRouteRow.key? routes (r.repoint new) ↔ movesRoute old new routes r = true := by
  unfold Fresh movesRoute
  rw [key?_repoint, decide_eq_true hr, Bool.true_and, Bool.not_eq_true', List.any_eq_false]
  constructor
  · intro h s hs
    rw [decide_eq_true_eq]
    rintro ⟨hnid, hcidr, hknown⟩
    obtain ⟨cidr, hc⟩ := Option.ne_none_iff_exists'.mp hknown
    refine h (new, cidr) (by simp [hc]) (List.mem_filterMap.mpr ⟨s, hs, ?_⟩)
    rw [key?_eq_some]
    exact ⟨hnid, hcidr.trans hc⟩
  · intro h k hk hmem
    obtain ⟨s, hs, hkey⟩ := List.mem_filterMap.mp hmem
    obtain ⟨cidr, hc, rfl⟩ := Option.map_eq_some_iff.mp hk
    rw [key?_eq_some] at hkey
    exact h s hs (decide_eq_true ⟨hkey.1, hkey.2.trans hc.symm, by simp [hc]⟩)

/-- The routes after the migration: those of the other ids as they were, and behind them the ones
    that the new id lacked, each once. -/
theorem routes_migrated {routes : List NetRouteRow} {old new : String}
    (h : (routes.filterMap NetRouteRow.key?).Nodup) (hne : old ≠ new) :
    ((offeredRoutes old new routes).foldl (insertOrIgnore NetRouteRow.key?) routes).filter
        (fun r => decide (r.deviceNid ≠ some old)) =
      routes.filter (fun r => decide (r.deviceNid ≠ some old)) ++
        (routes.filter (movesRoute old new routes)).map (NetRouteRow.repoint new) := by
  rw [foldl_insertOrIgnore (nodup_offeredRoutes old new h), List.filter_append]
  congr 1
  have hkept : ((offeredRoutes old new routes).filter fun r =>
      decide (Fresh NetRouteRow.key? routes r)).filter (fun r => decide (r.deviceNid ≠ some old)) =
        (offeredRoutes old new routes).filter fun r => decide (Fresh NetRouteRow.key? routes r) := by
    rw [List.filter_eq_self]
    intro r hr
    obtain ⟨s, -, rfl⟩ := List.mem_map.mp (List.mem_of_mem_filter hr)
    simpa using Ne.symm hne
  rw [hkept]
  unfold offeredRoutes
  rw [List.filter_map, List.filter_filter]
  congr 1
  apply List.filter_congr
  intro r _
  by_cases hr : r.deviceNid = some old
  · rw [decide_eq_true hr, Bool.and_true, Bool.eq_iff_iff, ← fresh_repoint hr]
    exact decide_eq_true_iff
  · simp [hr, movesRoute]

/-! ### The whole write -/

/-- No row of the child tables refers to the id. -/
structure Unreferenced (nid : String) (db : NetDb) : Prop where
  interfaces : ∀ r ∈ db.interfaces, r.deviceNid ≠ some nid
  links : ∀ r ∈ db.links, r.aNid ≠ nid ∧ r.bNid ≠ nid
  readings : ∀ r ∈ db.readings, r.deviceNid ≠ some nid
  routes : ∀ r ∈ db.routes, r.deviceNid ≠ some nid

/-- The IP-only row `ipRow` under `old` has become part of the row of the written device. -/
structure Migrated (old : String) (ipRow : StoredNetDevice) (dev : NetDeviceRow)
    (db db' : NetDb) : Prop where
  gone : old ∉ db'.devices.map (·.deviceNid)
  unreferenced : Unreferenced old db'
  readings : db'.readings = db.readings.map (NetReadingRow.repoint old dev.deviceNid)
  routes : db'.routes = db.routes.filter (fun r => decide (r.deviceNid ≠ some old)) ++
    (db.routes.filter (movesRoute old dev.deviceNid db.routes)).map
      (NetRouteRow.repoint dev.deviceNid)
  merged : ∃ macRow', row (·.deviceNid) db'.devices dev.deviceNid = some macRow' ∧
    (∀ column ∈ identityColumns, column macRow'.toNetDeviceRow =
      (column dev <|> ((row (·.deviceNid) db.devices dev.deviceNid).bind fun r =>
        column r.toNetDeviceRow) <|> column ipRow.toNetDeviceRow)) ∧
    macRow'.firstSeen = earlier ((row (·.deviceNid) db.devices dev.deviceNid).bind (·.firstSeen))
      ipRow.firstSeen ∧
    macRow'.deviceId = none ∧ macRow'.printerId = none

/-- The row under `old` and what depends on it are as before. -/
structure Untouched (old : String) (db db' : NetDb) : Prop where
  device : row (·.deviceNid) db'.devices old = row (·.deviceNid) db.devices old
  interfaces : db'.interfaces = db.interfaces
  links : db'.links = db.links
  readings : db'.readings = db.readings
  routes : db'.routes = db.routes

/-- The rows that refer to neither id are as before. -/
structure Framed (old new : String) (db db' : NetDb) : Prop where
  devices : db'.devices.filter (fun r => neither old new (some r.deviceNid)) =
    db.devices.filter fun r => neither old new (some r.deviceNid)
  interfaces : db'.interfaces.filter (fun r => neither old new r.deviceNid) =
    db.interfaces.filter fun r => neither old new r.deviceNid
  links : db'.links.filter
      (fun r => neither old new (some r.aNid) && neither old new (some r.bNid)) =
    db.links.filter fun r => neither old new (some r.aNid) && neither old new (some r.bNid)
  readings : db'.readings.filter (fun r => neither old new r.deviceNid) =
    db.readings.filter fun r => neither old new r.deviceNid
  routes : db'.routes.filter (fun r => neither old new r.deviceNid) =
    db.routes.filter fun r => neither old new r.deviceNid

theorem readings_migrated (old new : String) (hne : old ≠ new) (readings : List NetReadingRow) :
    (readings.map (NetReadingRow.repoint old new)).filter
      (fun r => decide (r.deviceNid ≠ some old)) = readings.map (NetReadingRow.repoint old new) := by
  rw [List.filter_eq_self]
  intro r hr
  obtain ⟨s, -, rfl⟩ := List.mem_map.mp hr
  rw [decide_eq_true_eq]
  unfold NetReadingRow.repoint
  split
  · simpa using Ne.symm hne
  · assumption

theorem mergeStored_key {new : StoredNetDevice} (old : StoredNetDevice)
    (h : old.deviceNid = new.deviceNid) : (mergeStored old new).deviceNid = new.deviceNid := h

/-- The row of the written device, when there was one before the write. -/
theorem row_write {dev : NetDeviceRow} (recv : String) {devices : List StoredNetDevice}
    {r : StoredNetDevice} (h : row (·.deviceNid) devices dev.deviceNid = some r) :
    row (·.deviceNid) (upsert (·.deviceNid) mergeStored (insertedDevice dev recv) devices)
      dev.deviceNid = some (mergeStored r (insertedDevice dev recv)) := by
  have hkey : dev.deviceNid = (insertedDevice dev recv).deviceNid := rfl
  rw [row_upsert mergeStored_key, if_pos hkey, h]
  rfl

/-- The write leaves the rows of the other ids in place. -/
theorem others_write (dev : NetDeviceRow) (recv : String) (devices : List StoredNetDevice)
    (old : String) :
    (upsert (·.deviceNid) mergeStored (insertedDevice dev recv) devices).filter
        (fun r => neither old dev.deviceNid (some r.deviceNid)) =
      devices.filter fun r => neither old dev.deviceNid (some r.deviceNid) := by
  apply filter_upsert mergeStored_key
  intro r hr
  have hkey : r.deviceNid = dev.deviceNid := hr
  simp [neither, hkey]

/-- A write under a MAC id, with a valid MAC and a valid address. -/
structure MacWrite (dev : NetDeviceRow) (mac ip : String) : Prop where
  nid : "nd-mac-".toList.isPrefixOf dev.deviceNid.toList = true
  macField : dev.mac = some mac
  validMac : (normalizeMac T (some mac)).isSome = true
  ipField : dev.ip = some ip
  nonempty : ip ≠ ""
  validIp : (T.ipAddress (String.ofList (strip T ip))).isSome = true

/-- The IP-only row carries no MAC, or the one of the write. -/
def SameHost (ipRow : StoredNetDevice) (mac : String) : Prop :=
  normalizeMac T ipRow.mac = none ∨ normalizeMac T ipRow.mac = normalizeMac T (some mac)

instance (ipRow : StoredNetDevice) (mac : String) : Decidable (SameHost T ipRow mac) :=
  inferInstanceAs (Decidable (_ ∨ _))

variable {T}

theorem ipOnlyNid_of_valid {dev : NetDeviceRow} {mac ip : String} (h : MacWrite T dev mac ip) :
    ipOnlyNid T ip = "nd-ip-" ++ String.ofList (strip T ip) := by
  change (if (T.ipAddress (String.ofList (strip T ip))).isSome then _ else _) = _
  rw [if_pos h.validIp]

theorem ipOnlyNid_ne {dev : NetDeviceRow} {mac ip : String} (h : MacWrite T dev mac ip) :
    ipOnlyNid T ip ≠ dev.deviceNid := by
  intro heq
  have hprefix := h.nid
  rw [← heq, ipOnlyNid_of_valid h] at hprefix
  simp at hprefix

theorem migrateIdentity_eq {dev : NetDeviceRow} {mac ip : String} (h : MacWrite T dev mac ip)
    (db : NetDb) : migrateIdentity T dev db =
      match row (·.deviceNid) db.devices (ipOnlyNid T ip) with
      | some ipRow =>
        if SameHost T ipRow mac then migrateNetDeviceNid (ipOnlyNid T ip) dev.deviceNid db else db
      | none => db := by
  have hmac : mac ≠ "" := by
    rintro rfl
    have hvalid := h.validMac
    simp [normalizeMac] at hvalid
  unfold migrateIdentity
  rw [h.macField, h.ipField]
  simp only
  rw [if_pos ⟨hmac, h.nonempty, h.nid⟩, if_pos (ipOnlyNid_ne h)]
  rfl

theorem upsertNetDevice_eq {dev : NetDeviceRow} {mac ip : String} (h : MacWrite T dev mac ip)
    (recv : String) (db : NetDb) :
    upsertNetDevice T dev recv db = writeDevice dev recv (migrateIdentity T dev db) := by
  unfold upsertNetDevice
  rw [if_neg]
  intro hempty
  have hprefix := h.nid
  rw [hempty] at hprefix
  simp at hprefix

theorem unreferenced_migrate (old new : String) (db : NetDb) :
    Unreferenced old (migrateNetDeviceNid old new db) := by
  constructor
  · intro r hr
    exact of_decide_eq_true (List.mem_filter.mp hr).2
  · intro r hr
    exact of_decide_eq_true (List.mem_filter.mp hr).2
  · intro r hr
    exact of_decide_eq_true (List.mem_filter.mp hr).2
  · intro r hr
    exact of_decide_eq_true (List.mem_filter.mp hr).2

theorem framed_migrate {old new : String} (hne : old ≠ new) {db : NetDb} (hdb : db.WellFormed)
    {ipRow : StoredNetDevice} (hip : row (·.deviceNid) db.devices old = some ipRow) :
    Framed old new db (migrateNetDeviceNid old new db) := by
  constructor
  · exact (folded_renameOrMerge hdb.devices hne hip).others
  · change List.filter _ (List.filter _ _) = _
    rw [List.filter_filter]
    apply List.filter_congr
    intro r _
    by_cases h : r.deviceNid = some old
    · simp [neither, h]
    · simp [h]
  · change List.filter _ (List.filter _ _) = _
    rw [List.filter_filter]
    apply List.filter_congr
    intro r _
    by_cases h : r.aNid ≠ old ∧ r.bNid ≠ old
    · simp [h]
    · rw [decide_eq_false h, Bool.and_false, eq_comm]
      rw [not_and_or, not_not, not_not] at h
      rcases h with h | h <;> simp [neither, h]
  · change List.filter _ (List.filter _ _) = _
    change (List.filter _ (db.readings.map _)).filter _ = _
    rw [readings_migrated old new hne]
    apply filter_map_of_fixed
    · intro r _
      unfold NetReadingRow.repoint
      split
      · rename_i h
        simp [neither, h]
      · rfl
    · intro r _ hkeep
      unfold NetReadingRow.repoint
      rw [if_neg]
      intro h
      simp [neither, h] at hkeep
  · change List.filter _ (List.filter _ _) = _
    change List.filter _ (((offeredRoutes old new db.routes).foldl
      (insertOrIgnore NetRouteRow.key?) db.routes).filter _) = _
    rw [routes_migrated hdb.routes hne, List.filter_append, List.filter_filter]
    have hmoved : ((db.routes.filter (movesRoute old new db.routes)).map
        (NetRouteRow.repoint new)).filter (fun r => neither old new r.deviceNid) = [] := by
      rw [List.filter_eq_nil_iff]
      intro r hr
      obtain ⟨s, -, rfl⟩ := List.mem_map.mp hr
      simp [neither, NetRouteRow.repoint]
    rw [hmoved, List.append_nil]
    apply List.filter_congr
    intro r _
    by_cases h : r.deviceNid = some old
    · simp [neither, h]
    · simp [h]

theorem migrated_upsert {dev : NetDeviceRow} {mac ip : String} (h : MacWrite T dev mac ip)
    (recv : String) {db : NetDb} (hdb : db.WellFormed) {ipRow : StoredNetDevice}
    (hip : row (·.deviceNid) db.devices (ipOnlyNid T ip) = some ipRow)
    (hsame : SameHost T ipRow mac) :
    Migrated (ipOnlyNid T ip) ipRow dev db (upsertNetDevice T dev recv db) := by
  have hne := ipOnlyNid_ne h
  have hfold := folded_renameOrMerge hdb.devices hne hip
  rw [upsertNetDevice_eq h, migrateIdentity_eq h, hip]
  simp only [if_pos hsame]
  constructor
  · intro hmem
    rcases (mem_keys_upsert mergeStored_key).mp hmem with heq | hold
    · exact hne heq
    · exact hfold.gone hold
  · have hfree := unreferenced_migrate (ipOnlyNid T ip) dev.deviceNid db
    exact ⟨hfree.interfaces, hfree.links, hfree.readings, hfree.routes⟩
  · exact readings_migrated _ _ hne db.readings
  · exact routes_migrated hdb.routes hne
  · refine ⟨_, row_write recv hfold.found, ?_, ?_, ?_⟩
    · intro column hcolumn
      have hmerge := mergeDevice_column hcolumn
        (survivor dev.deviceNid (row (·.deviceNid) db.devices dev.deviceNid) ipRow).toNetDeviceRow
        (insertedDevice dev recv).toNetDeviceRow
      rw [survivor_column hcolumn, insertedDevice_column hcolumn] at hmerge
      exact hmerge
    · exact survivor_firstSeen _ _ _
    · exact survivor_links _ _ _

theorem untouched_write {old : String} {dev : NetDeviceRow} (hne : old ≠ dev.deviceNid)
    (recv : String) (db : NetDb) : Untouched old db (writeDevice dev recv db) := by
  refine ⟨?_, rfl, rfl, rfl, rfl⟩
  have hkey : ¬ old = (insertedDevice dev recv).deviceNid := hne
  exact (row_upsert mergeStored_key db.devices old).trans (if_neg hkey)

theorem framed_write {old : String} {dev : NetDeviceRow} (recv : String) {db db' : NetDb}
    (h : Framed old dev.deviceNid db db') :
    Framed old dev.deviceNid db (writeDevice dev recv db') :=
  { h with devices := (others_write dev recv db'.devices old).trans h.devices }

theorem framed_self (old new : String) (db : NetDb) : Framed old new db db :=
  ⟨rfl, rfl, rfl, rfl, rfl⟩

/-- A write under a MAC id folds the IP-only row of its address into the row of the MAC, unless the
    IP-only row carries another MAC and stays as it is; the rows that refer to neither id stay in
    every case. -/
theorem upsert_migrates {dev : NetDeviceRow} {mac ip : String} (h : MacWrite T dev mac ip)
    (recv : String) (db : NetDb) (hdb : db.WellFormed) :
    (∀ ipRow, row (·.deviceNid) db.devices (ipOnlyNid T ip) = some ipRow →
      (SameHost T ipRow mac →
        Migrated (ipOnlyNid T ip) ipRow dev db (upsertNetDevice T dev recv db)) ∧
      (¬ SameHost T ipRow mac →
        Untouched (ipOnlyNid T ip) db (upsertNetDevice T dev recv db))) ∧
    Framed (ipOnlyNid T ip) dev.deviceNid db (upsertNetDevice T dev recv db) := by
  constructor
  · intro ipRow hip
    constructor
    · exact migrated_upsert h recv hdb hip
    · intro hother
      rw [upsertNetDevice_eq h, migrateIdentity_eq h, hip]
      simp only [if_neg hother]
      exact untouched_write (ipOnlyNid_ne h) recv db
  · rw [upsertNetDevice_eq h, migrateIdentity_eq h]
    apply framed_write
    cases hip : row (·.deviceNid) db.devices (ipOnlyNid T ip) with
    | none => exact framed_self _ _ db
    | some ipRow =>
      simp only
      split
      · exact framed_migrate (ipOnlyNid_ne h) hdb hip
      · exact framed_self _ _ db

/-- The database on ASCII text, for one address. -/
def oneAddress : PyText :=
  .ascii fun ip => if ip = "10.0.0.7" then some (.v4 167772167) else none

/-- A printer first seen by its address only, and later under its MAC. -/
def twiceKnown : NetDb where
  devices :=
    [{ deviceNid := "nd-ip-10.0.0.7", ip := some "10.0.0.7", hostname := some "prn-7",
       firstSeen := some "2026-01-01", deviceId := some "pc-1" },
     { deviceNid := "nd-mac-AA-BB-CC-00-11-22", vendor := some "HP",
       firstSeen := some "2026-02-01" }]
  readings := [{ id := 1, deviceNid := some "nd-ip-10.0.0.7", status := some "up" }]
  routes :=
    [{ deviceNid := some "nd-ip-10.0.0.7", cidr := some "10.0.0.0/24" },
     { deviceNid := some "nd-mac-AA-BB-CC-00-11-22", cidr := some "10.0.0.0/24" },
     { deviceNid := some "nd-ip-10.0.0.7", cidr := some "10.1.0.0/24" }]

def macSighting : NetDeviceRow where
  deviceNid := "nd-mac-AA-BB-CC-00-11-22"
  ip := some "10.0.0.7"
  mac := some "aa:bb:cc:00:11:22"

theorem upsert_migrates_printer : ∃ ipRow,
    Migrated "nd-ip-10.0.0.7" ipRow macSighting twiceKnown
      (upsertNetDevice oneAddress macSighting "2026-03-01" twiceKnown) := by
  have hwrite : MacWrite oneAddress macSighting "aa:bb:cc:00:11:22" "10.0.0.7" :=
    ⟨by decide +kernel, rfl, by decide +kernel, rfl, by decide, by decide +kernel⟩
  have hnid : ipOnlyNid oneAddress "10.0.0.7" = "nd-ip-10.0.0.7" := by decide +kernel
  have hmigrates :=
    (upsert_migrates hwrite "2026-03-01" twiceKnown ⟨by decide, by decide, by decide⟩).1
  rw [hnid] at hmigrates
  exact ⟨_, (hmigrates _ rfl).1 (by decide +kernel)⟩

/-! ### Every write -/

variable (T)

/-- The write folds the row under `old`, an IP-only one, into the row of its device. -/
def Folds (dev : NetDeviceRow) (db : NetDb) (old : String) : Prop :=
  ∃ mac ip ipRow, dev.mac = some mac ∧ dev.ip = some ip ∧
    (mac ≠ "" ∧ ip ≠ "" ∧ "nd-mac-".toList.isPrefixOf dev.deviceNid.toList) ∧
    old = ipOnlyNid T ip ∧ old ≠ dev.deviceNid ∧
    row (·.deviceNid) db.devices old = some ipRow ∧ SameHost T ipRow mac

variable {T}

theorem Folds.unique {dev : NetDeviceRow} {db : NetDb} {old old' : String}
    (h : Folds T dev db old) (h' : Folds T dev db old') : old = old' := by
  obtain ⟨_, ip, _, _, hip, _, rfl, _⟩ := h
  obtain ⟨_, ip', _, _, hip', _, rfl, _⟩ := h'
  obtain rfl : ip = ip' := Option.some.inj (hip.symm.trans hip')
  rfl

/-- What a write does before its `INSERT`: it folds one row, or nothing. -/
theorem migrateIdentity_cases (dev : NetDeviceRow) (db : NetDb) :
    (∃ old, Folds T dev db old ∧
      migrateIdentity T dev db = migrateNetDeviceNid old dev.deviceNid db) ∨
    ((∀ old, ¬ Folds T dev db old) ∧ migrateIdentity T dev db = db) := by
  cases hmac : dev.mac with
  | none =>
    right
    refine ⟨?_, by simp [migrateIdentity, hmac]⟩
    rintro old ⟨mac, _, _, h, _⟩
    rw [hmac] at h
    cases h
  | some mac =>
    cases hip : dev.ip with
    | none =>
      right
      refine ⟨?_, by simp [migrateIdentity, hmac, hip]⟩
      rintro old ⟨_, ip, _, _, h, _⟩
      rw [hip] at h
      cases h
    | some ip =>
      by_cases hfolds : Folds T dev db (ipOnlyNid T ip)
      · left
        refine ⟨_, hfolds, ?_⟩
        obtain ⟨mac', ip', ipRow, hmac', hip', hguard, -, hne, hrow, hsame⟩ := hfolds
        obtain rfl : mac = mac' := Option.some.inj (hmac.symm.trans hmac')
        obtain rfl : ip = ip' := Option.some.inj (hip.symm.trans hip')
        unfold migrateIdentity
        rw [hmac, hip]
        simp only
        rw [if_pos hguard, if_pos hne, hrow]
        exact if_pos hsame
      · right
        constructor
        · intro old hold
          obtain ⟨_, ip', _, _, hip', _, heq, _⟩ := id hold
          obtain rfl : ip = ip' := Option.some.inj (hip.symm.trans hip')
          exact hfolds (heq ▸ hold)
        · unfold migrateIdentity
          rw [hmac, hip]
          simp only
          split
          · rename_i hguard
            split
            · rename_i hne
              split
              · rename_i ipRow hrow
                rw [if_neg]
                intro hsame
                exact hfolds ⟨mac, ip, ipRow, hmac, hip, hguard, rfl, hne, hrow, hsame⟩
              · rfl
            · rfl
          · rfl

theorem wellFormed_migrate {old new : String} (hne : old ≠ new) {db : NetDb} (hdb : db.WellFormed)
    {ipRow : StoredNetDevice} (hip : row (·.deviceNid) db.devices old = some ipRow) :
    (migrateNetDeviceNid old new db).WellFormed := by
  constructor
  · exact (folded_renameOrMerge hdb.devices hne hip).nodup
  · change ((List.filter _ (db.readings.map _)).map _).Nodup
    rw [readings_migrated old new hne]
    have hids : (db.readings.map (NetReadingRow.repoint old new)).map (·.id) =
        db.readings.map (·.id) := by
      rw [List.map_map]
      apply List.map_congr_left
      intro r _
      simp only [Function.comp_apply, NetReadingRow.repoint]
      split <;> rfl
    rw [hids]
    exact hdb.readings
  · refine List.Nodup.sublist (List.filter_sublist.filterMap _) ?_
    exact nodup_foldl_insertOrIgnore hdb.routes _

/-- A write keeps the keys that the schema declares. -/
theorem wellFormed_upsert (dev : NetDeviceRow) (recv : String) {db : NetDb} (hdb : db.WellFormed) :
    (upsertNetDevice T dev recv db).WellFormed := by
  have hmigrated : (migrateIdentity T dev db).WellFormed := by
    rcases migrateIdentity_cases dev db with ⟨old, hfolds, heq⟩ | ⟨_, heq⟩
    · obtain ⟨_, _, ipRow, _, _, _, _, hne, hip, _⟩ := hfolds
      rw [heq]
      exact wellFormed_migrate hne hdb hip
    · rw [heq]
      exact hdb
  unfold upsertNetDevice
  split
  · exact hdb
  · exact { hmigrated with devices := nodup_keys_upsert mergeStored_key hmigrated.devices }

/-- On the columns that it writes, the `INSERT` is that of `net_devices`. -/
theorem writeDevice_columns (dev : NetDeviceRow) (recv : String) (db : NetDb) :
    (writeDevice dev recv db).devices.map (·.toNetDeviceRow) =
      writeNetDevice dev recv (db.devices.map (·.toNetDeviceRow)) :=
  map_upsert (fun r : StoredNetDevice => r.toNetDeviceRow) (fun _ => rfl) (fun _ _ => rfl)
    (insertedDevice dev recv) db.devices

/-- A device after a fold: the old id is gone, the new one has the status of its row or else that of
    the folded one, and the other rows are as before. -/
theorem status_migrate {dev : NetDeviceRow} {db : NetDb} (hdb : db.WellFormed) {old : String}
    (hfolds : Folds T dev db old) (nid : String) :
    (row (·.deviceNid) (migrateNetDeviceNid old dev.deviceNid db).devices nid).bind (·.status) =
      if nid = old then none
      else if nid = dev.deviceNid then
        ((row (·.deviceNid) db.devices nid).bind (·.status) <|>
          (row (·.deviceNid) db.devices old).bind (·.status))
      else (row (·.deviceNid) db.devices nid).bind (·.status) := by
  obtain ⟨_, _, ipRow, _, _, _, _, hne, hip, _⟩ := hfolds
  have hfold := folded_renameOrMerge hdb.devices hne hip
  change (row (·.deviceNid) (renameOrMergeNetDeviceRow old dev.deviceNid db.devices) nid).bind _ = _
  by_cases hold : nid = old
  · rw [if_pos hold, hold, row_eq_none.mpr hfold.gone]
    rfl
  · rw [if_neg hold]
    by_cases hnew : nid = dev.deviceNid
    · subst hnew
      rw [if_pos rfl, hfold.found, hip]
      have hstatus : (fun r : NetDeviceRow => r.status) ∈ identityColumns := by
        simp [identityColumns]
      exact survivor_column hstatus
    · rw [if_neg hnew]
      have hother : ∀ r : StoredNetDevice, r.deviceNid = nid →
          neither old dev.deviceNid (some r.deviceNid) = true := by
        rintro r rfl
        simp [neither, hold, hnew]
      rw [← row_filter hother, hfold.others, row_filter hother]

end Srp.Db
