/-
  Srp/Netdisco/StatusHistory.lean
  ===============================
  **What a status says about the past.**

  Four writers touch `net_devices.status`: the reachability cycle, the topology
  cycle, an upsert, and the purge of the ghosts.  They run in any order.
  `failed_history` traces a failed device back to the probe that failed, and
  `purge_history` a purged one to the cycle that found it 30 days old; in
  between no answer, no evidence and no status of the device came in.  An upsert
  may move a device from its IP-only id to the one of its MAC on the way: the
  trail follows it.
-/
import Srp.Db.NetMigration
import Srp.Lib.Machine
import Srp.Netdisco.Reachability
import Srp.Netdisco.SilentProbe

namespace Srp.Netdisco

open Srp.Lib Srp.Lib.GroupBy Srp.Db

/-! ### The writers -/

/-- The rows of a device and those that name it; its journal stays. -/
def MonitorDb.deleteNetDeviceRows (db : MonitorDb) (nid : String) : MonitorDb :=
  { db with
    netDevices := db.netDevices.filter fun r => r.deviceNid ≠ nid
    netLinks := db.netLinks.filter fun l => l.aNid ≠ nid ∧ l.bNid ≠ nid
    netReadings := db.netReadings.filter fun d => d.deviceNid ≠ nid }

/-- The candidates of the purge; `linked` says which rows have an agent or a printer. -/
def eligibleNids (linked : NetDeviceRow → Bool) (db : MonitorDb) : List String :=
  (db.netDevices.filter fun r => r.status = some "eligible_purge" && !linked r).map (·.deviceNid)

/-- `purge_net_devices_eligible`. -/
def purgeNetDevicesEligible (linked : NetDeviceRow → Bool) (db : MonitorDb) : MonitorDb :=
  (eligibleNids linked db).foldl MonitorDb.deleteNetDeviceRows db

/-- What a topology cycle is given; `journal` is what it makes of its deltas. -/
structure TopologyPass where
  cfg : TopologyConfig
  collectors : Collectors
  ageSeconds : String → Option ℚ
  now : String
  lockFree : Bool
  journal : List NetChange

def TopologyPass.on (c : TopologyPass) (db : MonitorDb) : TopologyRun :=
  { c with db := db.toNetDb }

/-- The rows as `upsert_net_device` has them, the columns left out that no status depends on. -/
def MonitorDb.tables (db : MonitorDb) : Srp.Db.NetDb where
  devices := db.netDevices.map fun r => { toNetDeviceRow := r }
  links := db.netLinks
  readings := db.netReadings.zipIdx.map fun r =>
    { id := r.2, deviceNid := some r.1.deviceNid, status := some r.1.status }

def DeviceReading.ofRow (r : NetReadingRow) : Option DeviceReading :=
  r.deviceNid.bind fun nid => r.status.map fun status => { deviceNid := nid, status := status }

/-- A write to the network tables. -/
inductive NetEvent where
  | reachability (p : Pass)
  | topology (c : TopologyPass)
  | upsert (dev : NetDeviceRow) (recv : String)
  | purge (linked : NetDeviceRow → Bool)

variable (T : PyText) (S : SetOrder)

/-- `upsert_net_device`, with the move of an IP-only row to the id of its MAC. -/
def MonitorDb.upsertNetDevice (dev : NetDeviceRow) (recv : String) (db : MonitorDb) : MonitorDb :=
  let after := Srp.Db.upsertNetDevice T dev recv db.tables
  { db with
    netDevices := after.devices.map (·.toNetDeviceRow)
    netLinks := after.links
    netReadings := after.readings.filterMap DeviceReading.ofRow }

def NetEvent.apply (db : MonitorDb) : NetEvent → MonitorDb
  | .reachability p => (runReachabilityCycle T S p db).1
  | .topology c =>
    { (c.on db).after T with
      netReadings := db.netReadings
      netChanges := c.journal.foldl (fun rows change => storeNetChange change rows)
        db.netChanges }
  | .upsert dev recv => db.upsertNetDevice T dev recv
  | .purge linked => purgeNetDevicesEligible linked db

/-- The network tables under their writers, in any order. -/
def monitor : Machine MonitorDb NetEvent Unit where
  next db e := e.apply T S db
  out _ _ := ()

/-! ### The status of a device -/

section Rows

variable {rows : List NetDeviceRow} {nid st : String}

theorem priorStatus_eq_some : priorStatus rows nid = some st ↔
    ∃ r, Table.row (·.deviceNid) rows nid = some r ∧ r.status = some st := by
  unfold priorStatus
  exact Option.bind_eq_some_iff

theorem priorStatus_of_mem (hnodup : (rows.map (·.deviceNid)).Nodup) {r : NetDeviceRow}
    (hr : r ∈ rows) : priorStatus rows r.deviceNid = r.status := by
  unfold priorStatus
  rw [Table.row_of_mem hnodup hr]
  rfl

theorem priorStatus_map {f : NetDeviceRow → NetDeviceRow}
    (hnid : ∀ r, (f r).deviceNid = r.deviceNid) (hstatus : ∀ r, (f r).status = r.status) :
    priorStatus (rows.map f) nid = priorStatus rows nid := by
  unfold priorStatus
  rw [Table.row_map hnid]
  cases Table.row (·.deviceNid) rows nid with
  | none => rfl
  | some r => exact hstatus r

theorem priorStatus_writeNetDevice (dev : NetDeviceRow) (recv : String) :
    priorStatus (writeNetDevice dev recv rows) nid =
      if nid = dev.deviceNid then dev.status <|> priorStatus rows nid
      else priorStatus rows nid := by
  unfold priorStatus writeNetDevice
  rw [Table.row_upsert (fun _ hold => hold)]
  dsimp only
  by_cases hnid : nid = dev.deviceNid
  · rw [if_pos hnid, if_pos hnid, hnid]
    cases Table.row (·.deviceNid) rows dev.deviceNid with
    | none => simp
    | some old => rfl
  · rw [if_neg hnid, if_neg hnid]

theorem priorStatus_enrichMedSubtypes (devEv : List LinkEvidence) (med : List (Int × String))
    (known : List String) :
    priorStatus (enrichMedSubtypes T devEv med known rows) nid = priorStatus rows nid := by
  unfold enrichMedSubtypes
  induction devEv generalizing rows with
  | nil => rfl
  | cons ev devEv ih =>
    rw [List.foldl_cons, ih]
    split
    · split
      · split
        · unfold fillNetDeviceIdentity
          split
          · rfl
          · exact priorStatus_map (fun _ => NetDeviceRow.fill_deviceNid)
              (fun _ => NetDeviceRow.fill_status)
        · rfl
      · rfl
    · rfl

/-- A status after marks: the mark of the device, or the status it had. -/
theorem priorStatus_mark {marks : List (String × String)}
    (h : priorStatus (rows.map (markRow marks)) nid = some st) :
    marks.lookup nid = some st ∨ (marks.lookup nid = none ∧ priorStatus rows nid = some st) := by
  obtain ⟨r', hr', hstatus⟩ := priorStatus_eq_some.mp h
  rw [Table.row_map (markRow_deviceNid marks)] at hr'
  obtain ⟨r, hr, rfl⟩ := Option.map_eq_some_iff.mp hr'
  have hnid : r.deviceNid = nid := (Table.row_eq_some hr).2
  unfold markRow at hstatus
  rw [hnid] at hstatus
  cases hmark : marks.lookup nid with
  | none =>
    rw [hmark] at hstatus
    exact Or.inr ⟨rfl, priorStatus_eq_some.mpr ⟨r, hr, hstatus⟩⟩
  | some mark =>
    rw [hmark] at hstatus
    exact Or.inl hstatus

end Rows

/-! ### Ageing -/

section Ageing

variable {ageSeconds : String → Option ℚ} {staleAfterSec : ℚ} {devices : List NetDeviceRow}

/-- The entry of one device. -/
def agedEntry (ageSeconds : String → Option ℚ) (staleAfterSec : ℚ) (dev : NetDeviceRow) :
    Option (String × String) :=
  dev.lastSeen.bind fun seen =>
    if dev.deviceNid = "" ∨ seen = "" then none
    else (ageSeconds seen).bind fun age =>
      (agedStatus staleAfterSec age dev.status).map fun s => (dev.deviceNid, s)

theorem perm_staleLifecycle : (staleLifecycle ageSeconds staleAfterSec devices).Perm
    (devices.filterMap (agedEntry ageSeconds staleAfterSec)) := by
  refine (List.perm_insertionSort _ _).trans (List.Perm.of_eq ?_)
  apply List.filterMap_congr
  intro dev _
  unfold agedEntry
  cases dev.lastSeen with
  | none => rfl
  | some seen => rfl

theorem agedEntry_eq_some {dev : NetDeviceRow} {nid st : String} :
    agedEntry ageSeconds staleAfterSec dev = some (nid, st) ↔
      dev.deviceNid = nid ∧ nid ≠ "" ∧ ∃ seen age, dev.lastSeen = some seen ∧ seen ≠ "" ∧
        ageSeconds seen = some age ∧ agedStatus staleAfterSec age dev.status = some st := by
  unfold agedEntry
  constructor
  · intro h
    obtain ⟨seen, hseen, h⟩ := Option.bind_eq_some_iff.mp h
    split at h
    · cases h
    · rename_i hempty
      rw [not_or] at hempty
      obtain ⟨age, hage, h⟩ := Option.bind_eq_some_iff.mp h
      obtain ⟨s, hs, heq⟩ := Option.map_eq_some_iff.mp h
      obtain ⟨rfl, rfl⟩ := Prod.mk.inj heq
      exact ⟨rfl, hempty.1, seen, age, hseen, hempty.2, hage, hs⟩
  · rintro ⟨rfl, hnid, seen, age, hseen, hne, hage, hs⟩
    refine Option.bind_eq_some_iff.mpr ⟨seen, hseen, ?_⟩
    rw [if_neg (not_or.mpr ⟨hnid, hne⟩)]
    exact Option.bind_eq_some_iff.mpr ⟨age, hage, Option.map_eq_some_iff.mpr ⟨st, hs, rfl⟩⟩

theorem mem_staleLifecycle {nid st : String} :
    (nid, st) ∈ staleLifecycle ageSeconds staleAfterSec devices ↔
      ∃ dev ∈ devices, dev.deviceNid = nid ∧ nid ≠ "" ∧ ∃ seen age,
        dev.lastSeen = some seen ∧ seen ≠ "" ∧ ageSeconds seen = some age ∧
          agedStatus staleAfterSec age dev.status = some st := by
  rw [perm_staleLifecycle.mem_iff, List.mem_filterMap]
  exact exists_congr fun dev => and_congr_right fun _ => agedEntry_eq_some

theorem agedStatus_cases {age : ℚ} {status : Option String} {st : String}
    (h : agedStatus staleAfterSec age status = some st) :
    (st = "eligible_purge" ∧ purgeAfterSec ≤ age) ∨ st = "missing" := by
  unfold agedStatus at h
  split at h
  · rename_i hage
    split at h
    · exact Or.inl ⟨(Option.some.inj h).symm, hage⟩
    · cases h
  · split at h
    · exact Or.inr (Option.some.inj h).symm
    · cases h

/-- A device is aged once. -/
theorem nodup_staleLifecycle (hdevices : (devices.map (·.deviceNid)).Nodup) :
    ((staleLifecycle ageSeconds staleAfterSec devices).map Prod.fst).Nodup := by
  rw [(perm_staleLifecycle.map Prod.fst).nodup_iff]
  apply List.pairwise_map.mpr
  apply List.pairwise_filterMap.mpr
  refine (List.pairwise_map.mp hdevices).imp ?_
  rintro dev dev' hne ⟨nid, st⟩ he ⟨nid', st'⟩ he'
  rw [← (agedEntry_eq_some.mp he).1, ← (agedEntry_eq_some.mp he').1]
  exact hne

end Ageing

/-! ### The topology cycle -/

section Topology

variable {T} {C : Collectors} {known : List String} {now : String} {nid st : String}

theorem priorStatus_probeDevice (s : ProbeState) (dev : NetDeviceRow) :
    priorStatus (probeDevice T C known now s dev).netDevices nid =
      if Probed T dev = true ∧ dev.deviceNid = nid ∧
        (C.collect dev ≠ [] ∨ C.collectWireless dev ≠ []) then some "up"
      else priorStatus s.netDevices nid := by
  unfold probeDevice
  by_cases hp : Probed T dev = true
  · simp only [hp, if_true, true_and]
    by_cases hev : C.collect dev ≠ [] ∨ C.collectWireless dev ≠ []
    · simp only [hev, and_true, if_true]
      rw [priorStatus_writeNetDevice, priorStatus_enrichMedSubtypes]
      have hup : (upDevice dev.deviceNid).deviceNid = dev.deviceNid := rfl
      rw [hup]
      by_cases hnid : dev.deviceNid = nid
      · rw [if_pos hnid.symm, if_pos hnid]
        rfl
      · rw [if_neg fun h => hnid h.symm, if_neg hnid]
    · simp only [hev, and_false, if_false]
      exact priorStatus_enrichMedSubtypes ..
  · rw [if_neg hp, if_neg fun h => hp h.1]

/-- The loop writes the devices that answer, and no other status. -/
theorem priorStatus_probeLoop (devices : List NetDeviceRow) (s : ProbeState)
    (h : priorStatus (devices.foldl (probeDevice T C known now) s).netDevices nid = some st) :
    ((∃ dev ∈ devices, Probed T dev = true ∧ dev.deviceNid = nid ∧
        (C.collect dev ≠ [] ∨ C.collectWireless dev ≠ [])) ∧ st = "up") ∨
      ((∀ dev ∈ devices, ¬ (Probed T dev = true ∧ dev.deviceNid = nid ∧
        (C.collect dev ≠ [] ∨ C.collectWireless dev ≠ []))) ∧
        priorStatus s.netDevices nid = some st) := by
  induction devices generalizing s with
  | nil => exact Or.inr ⟨by simp, h⟩
  | cons dev devices ih =>
    rcases ih _ h with ⟨⟨d, hd, hev⟩, hup⟩ | ⟨hnone, hprior⟩
    · exact Or.inl ⟨⟨d, List.mem_cons_of_mem dev hd, hev⟩, hup⟩
    · rw [priorStatus_probeDevice] at hprior
      split at hprior
      · rename_i hev
        exact Or.inl ⟨⟨dev, List.mem_cons_self, hev⟩, (Option.some.inj hprior).symm⟩
      · rename_i hev
        exact Or.inr ⟨List.forall_mem_cons.mpr ⟨hev, hnone⟩, hprior⟩

theorem answered_iff {R : TopologyRun} (hruns : R.Runs) : R.Answered T nid ↔
    ∃ dev ∈ getNetDevices R.db.netDevices, Probed T dev = true ∧ dev.deviceNid = nid ∧
      (R.collectors.collect dev ≠ [] ∨ R.collectors.collectWireless dev ≠ []) := by
  unfold TopologyRun.Answered TopologyRun.Probes
  constructor
  · rintro ⟨dev, ⟨_, hdev, hp⟩, hnid, hev⟩
    exact ⟨dev, mem_getNetDevices.mpr hdev, hp, hnid, hev⟩
  · rintro ⟨dev, hdev, hp, hnid, hev⟩
    exact ⟨dev, ⟨hruns, mem_getNetDevices.mp hdev, hp⟩, hnid, hev⟩

/-- The status that a topology cycle leaves: that of the ageing, `up` for a device that answered,
    or the one that it found. -/
theorem priorStatus_topology {R : TopologyRun} (hruns : R.Runs)
    (hdevices : (R.db.netDevices.map (·.deviceNid)).Nodup)
    (h : priorStatus (R.after T).netDevices nid = some st) :
    (nid, st) ∈ staleLifecycle R.ageSeconds R.cfg.missingAfterSec
        (getNetDevices R.db.netDevices) ∨
      (R.Answered T nid ∧ st = "up") ∨
      ((∀ st', (nid, st') ∉ staleLifecycle R.ageSeconds R.cfg.missingAfterSec
          (getNetDevices R.db.netDevices)) ∧
        ¬ R.Answered T nid ∧ priorStatus R.db.netDevices nid = some st) := by
  have hsorted : ((getNetDevices R.db.netDevices).map (·.deviceNid)).Nodup :=
    ((perm_getNetDevices _).map _).nodup_iff.mpr hdevices
  rw [after_eq hruns] at h
  dsimp only at h
  rw [foldl_setNetDeviceStatus (nodup_staleLifecycle hsorted)] at h
  rcases priorStatus_mark h with hmark | ⟨hnone, hprior⟩
  · obtain ⟨before, rest, hsplit, _⟩ := List.lookup_eq_some_iff.mp hmark
    exact Or.inl (hsplit ▸ List.mem_append_right before List.mem_cons_self)
  · right
    rcases priorStatus_probeLoop _ _ hprior with ⟨hev, hup⟩ | ⟨hsilent, hprior⟩
    · exact Or.inl ⟨(answered_iff hruns).mpr hev, hup⟩
    · refine Or.inr ⟨fun st' hst' => ?_, fun hans => ?_, hprior⟩
      · rw [List.lookup_eq_none_iff] at hnone
        exact bne_iff_ne.mp (hnone _ hst') rfl
      · obtain ⟨dev, hdev, hev⟩ := (answered_iff hruns).mp hans
        exact hsilent dev hdev hev

theorem nodup_probeLoop (devices : List NetDeviceRow) (s : ProbeState)
    (hs : (s.netDevices.map (·.deviceNid)).Nodup) :
    ((devices.foldl (probeDevice T C known now) s).netDevices.map (·.deviceNid)).Nodup := by
  have hfill : ∀ (devEv : List LinkEvidence) (med : List (Int × String))
      (rows : List NetDeviceRow), (enrichMedSubtypes T devEv med known rows).map (·.deviceNid) =
        rows.map (·.deviceNid) := by
    intro devEv med rows
    unfold enrichMedSubtypes
    induction devEv generalizing rows with
    | nil => rfl
    | cons ev devEv ih =>
      rw [List.foldl_cons, ih]
      split
      · split
        · split
          · unfold fillNetDeviceIdentity
            split
            · rfl
            · simp
          · rfl
        · rfl
      · rfl
  induction devices generalizing s with
  | nil => exact hs
  | cons dev devices ih =>
    rw [List.foldl_cons]
    apply ih
    unfold probeDevice
    split
    · have hrows := hfill (C.collect dev) (C.collectMed dev) s.netDevices
      dsimp only
      split
      · unfold writeNetDevice
        apply Table.nodup_keys_upsert (fun _ hold => hold)
        rw [hrows]
        exact hs
      · rw [hrows]
        exact hs
    · exact hs

theorem nodup_topology {R : TopologyRun} (hdevices : (R.db.netDevices.map (·.deviceNid)).Nodup) :
    ((R.after T).netDevices.map (·.deviceNid)).Nodup := by
  by_cases hruns : R.Runs
  · have hsorted : ((getNetDevices R.db.netDevices).map (·.deviceNid)).Nodup :=
      ((perm_getNetDevices _).map _).nodup_iff.mpr hdevices
    rw [after_eq hruns]
    dsimp only
    rw [foldl_setNetDeviceStatus (nodup_staleLifecycle hsorted), List.map_map]
    have hnids : ∀ marks : List (String × String),
        (fun r : NetDeviceRow => r.deviceNid) ∘ markRow marks = fun r => r.deviceNid :=
      fun marks => funext (markRow_deviceNid marks)
    rw [hnids]
    exact nodup_probeLoop _ _ hdevices
  · rw [after_eq_of_not_runs hruns]
    exact hdevices

end Topology

/-! ### The purge -/

theorem foldl_deleteNetDeviceRows (nids : List String) (db : MonitorDb) :
    nids.foldl MonitorDb.deleteNetDeviceRows db =
      { db with
        netDevices := db.netDevices.filter fun r => r.deviceNid ∉ nids
        netLinks := db.netLinks.filter fun l => l.aNid ∉ nids ∧ l.bNid ∉ nids
        netReadings := db.netReadings.filter fun d => d.deviceNid ∉ nids } := by
  induction nids generalizing db with
  | nil => simp
  | cons nid nids ih =>
    rw [List.foldl_cons, ih]
    unfold MonitorDb.deleteNetDeviceRows
    simp only [List.filter_filter, List.mem_cons, not_or, Bool.decide_and, ne_eq, Bool.and_assoc,
      Bool.and_comm, Bool.and_left_comm]

theorem mem_eligibleNids {linked : NetDeviceRow → Bool} {db : MonitorDb} (hdb : db.WellFormed)
    {r : NetDeviceRow} (hr : r ∈ db.netDevices) : r.deviceNid ∈ eligibleNids linked db ↔
      r.status = some "eligible_purge" ∧ linked r = false := by
  unfold eligibleNids
  rw [List.mem_map]
  constructor
  · rintro ⟨r', hr', hnid⟩
    obtain ⟨hmem, helig⟩ := List.mem_filter.mp hr'
    obtain rfl : r' = r := List.inj_on_of_nodup_map hdb.devices hmem hr hnid
    simpa using helig
  · intro helig
    exact ⟨r, List.mem_filter.mpr ⟨hr, by simpa using helig⟩, rfl⟩

/-! ### The upsert -/

section Upsert

variable {T} {db : MonitorDb}

theorem tables_columns (db : MonitorDb) :
    db.tables.devices.map (·.toNetDeviceRow) = db.netDevices := by
  unfold MonitorDb.tables
  rw [List.map_map]
  exact List.map_id _

theorem wellFormed_tables (hdb : db.WellFormed) : db.tables.WellFormed where
  devices := by
    have hnids : db.tables.devices.map (·.deviceNid) = db.netDevices.map (·.deviceNid) := by
      unfold MonitorDb.tables
      simp
    rw [hnids]
    exact hdb.devices
  readings := by
    have hids : db.tables.readings.map (·.id) = List.range db.netReadings.length := by
      unfold MonitorDb.tables
      rw [List.map_map]
      exact (List.zipIdx_map_snd 0 _).trans (List.range_eq_range' ..).symm
    rw [hids]
    exact List.nodup_range
  routes := List.nodup_nil

theorem priorStatus_columns (devices : List StoredNetDevice) (nid : String) :
    priorStatus (devices.map (·.toNetDeviceRow)) nid =
      (Table.row (·.deviceNid) devices nid).bind (·.status) := by
  unfold priorStatus Table.row
  rw [List.find?_map, Option.bind_map]
  rfl

theorem priorStatus_tables (db : MonitorDb) (nid : String) :
    (Table.row (·.deviceNid) db.tables.devices nid).bind (·.status) =
      priorStatus db.netDevices nid := by
  rw [← priorStatus_columns, tables_columns]

/-- The status of a device after an upsert. -/
theorem priorStatus_upsert (hdb : db.WellFormed) {dev : NetDeviceRow} (hnid : dev.deviceNid ≠ "")
    (recv nid : String) :
    (∃ old, Folds T dev db.tables old ∧
      priorStatus (db.upsertNetDevice T dev recv).netDevices nid =
        if nid = old then none
        else if nid = dev.deviceNid then
          (dev.status <|> priorStatus db.netDevices nid <|> priorStatus db.netDevices old)
        else priorStatus db.netDevices nid) ∨
    ((∀ old, ¬ Folds T dev db.tables old) ∧
      priorStatus (db.upsertNetDevice T dev recv).netDevices nid =
        if nid = dev.deviceNid then (dev.status <|> priorStatus db.netDevices nid)
        else priorStatus db.netDevices nid) := by
  have hwrite : (db.upsertNetDevice T dev recv).netDevices =
      writeNetDevice dev recv ((migrateIdentity T dev db.tables).devices.map
        (·.toNetDeviceRow)) := by
    unfold MonitorDb.upsertNetDevice Srp.Db.upsertNetDevice
    rw [if_neg hnid]
    exact writeDevice_columns dev recv _
  rw [hwrite, priorStatus_writeNetDevice, priorStatus_columns]
  rcases migrateIdentity_cases (T := T) dev db.tables with ⟨old, hfolds, heq⟩ | ⟨hnone, heq⟩
  · left
    refine ⟨old, hfolds, ?_⟩
    rw [heq, status_migrate (wellFormed_tables hdb) hfolds, priorStatus_tables, priorStatus_tables]
    have hne : old ≠ dev.deviceNid := by
      obtain ⟨_, _, _, _, _, _, _, hne, _⟩ := hfolds
      exact hne
    by_cases hold : nid = old
    · rw [if_pos hold, if_pos hold, if_neg fun hnew => hne (hold.symm.trans hnew)]
    · rw [if_neg hold, if_neg hold]
      split <;> rfl
  · right
    refine ⟨hnone, ?_⟩
    rw [heq, priorStatus_tables]

theorem upsert_of_empty {dev : NetDeviceRow} (hnid : dev.deviceNid = "") (recv : String)
    (db : MonitorDb) : (db.upsertNetDevice T dev recv).netDevices = db.netDevices := by
  unfold MonitorDb.upsertNetDevice Srp.Db.upsertNetDevice
  rw [if_pos hnid]
  exact tables_columns db

end Upsert

/-! ### One write -/

section Step

variable {T} {S} {db : MonitorDb} {nid st : String}

theorem wellFormed_apply (hdb : db.WellFormed) (e : NetEvent) : (e.apply T S db).WellFormed := by
  cases e with
  | reachability p => exact cycle_wellFormed hdb
  | topology c =>
    refine { devices := nodup_topology hdb.devices, changes := ?_ }
    change Window.newest _ (c.journal.foldl _ _) = c.journal.foldl _ _
    rw [newest_foldl_storeNetChange _ _ hdb.changes, Window.newest_newest]
  | upsert dev recv =>
    refine { devices := ?_, changes := hdb.changes }
    have hdevices := (wellFormed_upsert (T := T) dev recv (wellFormed_tables hdb)).devices
    change (List.map _ (List.map _ _)).Nodup
    rw [List.map_map]
    exact hdevices
  | purge linked =>
    unfold NetEvent.apply purgeNetDevicesEligible
    dsimp only
    rw [foldl_deleteNetDeviceRows]
    exact { devices := (List.filter_sublist.map _).nodup hdb.devices, changes := hdb.changes }

/-- The event carries no verdict of its own: an upsert has some other status, or none. -/
def NetEvent.Plain : NetEvent → Prop
  | .upsert dev _ => ∀ status ∈ dev.status, status ∉ recovering
  | _ => True

variable (T S)

/-- The event passes the verdict `st` on the device: a pass whose probe failed, or ageing. -/
def Sets (nid st : String) (db : MonitorDb) : NetEvent → Prop
  | .reachability p => (p.enabled = true ∧ p.lockFree = true) ∧
      ∃ r ∈ db.netDevices, r.deviceNid = nid ∧ p.answer T r = some false ∧
        ((st = "down" ∧ ClearWalk (db.graph S) (p.failed T db) db.roots nid) ∨
          (st = "unreachable" ∧ ¬ ClearWalk (db.graph S) (p.failed T db) db.roots nid))
  | .topology c => (c.on db).Runs ∧ (nid, st) ∈ staleLifecycle c.ageSeconds c.cfg.missingAfterSec
      (getNetDevices db.netDevices)
  | _ => False

/-- The event has no answer, no evidence and no status of the device, and does not age it either.
    An upsert without a status may still say that the device was seen. -/
def Unheard (nid : String) (db : MonitorDb) : NetEvent → Prop
  | .reachability p => p.enabled = true ∧ p.lockFree = true →
      ∀ r ∈ db.netDevices, r.deviceNid = nid → p.answer T r = none
  | .topology c => (c.on db).Runs → ¬ (c.on db).Answered T nid ∧
      ∀ st, (nid, st) ∉ staleLifecycle c.ageSeconds c.cfg.missingAfterSec
        (getNetDevices db.netDevices)
  | .upsert dev _ => dev.deviceNid ≠ "" → dev.deviceNid = nid ∨ Folds T dev db.tables nid →
      dev.status = none
  | .purge _ => True

/-- The verdict of the device under `nid` stands under `nid'` after the event: the event has nothing
    of the device, and the id is the same or an upsert folds it into one without a status. -/
def Carries (nid nid' : String) (db : MonitorDb) (e : NetEvent) : Prop :=
  Unheard T nid db e ∧ (nid = nid' ∨ ∃ dev recv, e = .upsert dev recv ∧ dev.deviceNid = nid' ∧
    Folds T dev db.tables nid ∧ priorStatus db.netDevices nid' = none)

variable {T S}

theorem verdict_reachability {p : Pass} (hdb : db.WellFormed) (hst : st ∈ recovering)
    (h : priorStatus (runReachabilityCycle T S p db).1.netDevices nid = some st) :
    Sets T S nid st db (.reachability p) ∨
      (priorStatus db.netDevices nid = some st ∧ Unheard T nid db (.reachability p)) := by
  by_cases hon : p.enabled = true ∧ p.lockFree = true
  · rw [cycle_netDevices hdb hon] at h
    obtain ⟨r', hr', hstatus⟩ := priorStatus_eq_some.mp h
    rw [Table.row_map rowAfter_deviceNid] at hr'
    obtain ⟨r, hrow, rfl⟩ := Option.map_eq_some_iff.mp hr'
    obtain ⟨hr, rfl⟩ := Table.row_eq_some hrow
    have hjudged : Judged T S p db r (rowAfter T S p db r) := judged_mark hdb hr
    cases hanswer : p.answer T r with
    | none =>
      right
      rw [hjudged.silent hanswer] at hstatus
      refine ⟨priorStatus_eq_some.mpr ⟨r, hrow, hstatus⟩, fun _ r' hr' hnid => ?_⟩
      obtain rfl : r' = r := List.inj_on_of_nodup_map hdb.devices hr' hr hnid
      exact hanswer
    | some alive =>
      cases alive with
      | true =>
        exfalso
        rw [hjudged.alive hanswer] at hstatus
        split at hstatus
        · cases hstatus
          revert hst
          decide
        · rename_i hnot
          rw [hstatus] at hnot
          exact hnot (by simpa using hst)
      | false =>
        left
        refine ⟨hon, r, hr, rfl, hanswer, ?_⟩
        rcases hjudged.failed hanswer with ⟨hdown, hclear⟩ | ⟨hunreach, hblocked⟩
        · rw [hdown] at hstatus
          exact Or.inl ⟨(Option.some.inj hstatus).symm, hclear⟩
        · rw [hunreach] at hstatus
          exact Or.inr ⟨(Option.some.inj hstatus).symm, hblocked⟩
  · right
    rw [cycle_off hon] at h
    exact ⟨h, fun hon' => absurd hon' hon⟩

theorem verdict_topology {c : TopologyPass} (hdb : db.WellFormed) (hst : st ∈ recovering)
    (h : priorStatus ((c.on db).after T).netDevices nid = some st) :
    Sets T S nid st db (.topology c) ∨
      (priorStatus db.netDevices nid = some st ∧ Unheard T nid db (.topology c)) := by
  by_cases hruns : (c.on db).Runs
  · rcases priorStatus_topology hruns hdb.devices h with haged | ⟨_, rfl⟩ | ⟨hage, hans, hprior⟩
    · exact Or.inl ⟨hruns, haged⟩
    · exact absurd hst (by decide)
    · exact Or.inr ⟨hprior, fun _ => ⟨hans, hage⟩⟩
  · rw [after_eq_of_not_runs hruns] at h
    exact Or.inr ⟨h, fun h => absurd h hruns⟩

/-- A verdict after an upsert was there before, under the same id or under the one that the upsert
    folds. -/
theorem verdict_upsert {dev : NetDeviceRow} {recv : String} (hst : st ∈ recovering)
    (hdb : db.WellFormed) (hplain : (NetEvent.upsert dev recv).Plain)
    (h : priorStatus (db.upsertNetDevice T dev recv).netDevices nid = some st) :
    ∃ nid₀, priorStatus db.netDevices nid₀ = some st ∧
      Carries T nid₀ nid db (.upsert dev recv) := by
  by_cases hempty : dev.deviceNid = ""
  · rw [upsert_of_empty hempty] at h
    exact ⟨nid, h, fun hne => absurd hempty hne, Or.inl rfl⟩
  -- its own status is none that the upsert could have written
  have hsilent : ∀ {prior : Option String}, (dev.status <|> prior) = some st →
      dev.status = none ∧ prior = some st := by
    intro prior hprior
    cases hstatus : dev.status with
    | none =>
      rw [hstatus] at hprior
      exact ⟨rfl, hprior⟩
    | some status =>
      rw [hstatus] at hprior
      obtain rfl : status = st := Option.some.inj hprior
      exact absurd hst (hplain status hstatus)
  rcases priorStatus_upsert (T := T) hdb hempty recv nid with ⟨old, hfolds, heq⟩ | ⟨hnone, heq⟩
  · rw [heq] at h
    split at h
    · cases h
    · rename_i hold
      split at h
      · rename_i hnew
        obtain ⟨hstatus, h⟩ := hsilent h
        cases hown : priorStatus db.netDevices nid with
        | none =>
          rw [hown] at h
          exact ⟨old, h, fun _ _ => hstatus,
            Or.inr ⟨dev, recv, rfl, hnew.symm, hfolds, hown⟩⟩
        | some own =>
          rw [hown] at h
          exact ⟨nid, hown.trans h, fun _ _ => hstatus, Or.inl rfl⟩
      · rename_i hnew
        refine ⟨nid, h, fun _ hnid => ?_, Or.inl rfl⟩
        rcases hnid with hnid | hnid
        · exact absurd hnid.symm hnew
        · exact absurd (hnid.unique hfolds) hold
  · rw [heq] at h
    split at h
    · obtain ⟨hstatus, h⟩ := hsilent h
      exact ⟨nid, h, fun _ _ => hstatus, Or.inl rfl⟩
    · rename_i hnew
      refine ⟨nid, h, fun _ hnid => ?_, Or.inl rfl⟩
      rcases hnid with hnid | hnid
      · exact absurd hnid.symm hnew
      · exact absurd hnid (hnone nid)

/-- One write: a verdict after it is that of the event, or was there before and the event carries
    it. -/
theorem verdict_step {e : NetEvent} (hst : st ∈ recovering) (hdb : db.WellFormed) (he : e.Plain)
    (h : priorStatus (e.apply T S db).netDevices nid = some st) :
    Sets T S nid st db e ∨
      ∃ nid₀, priorStatus db.netDevices nid₀ = some st ∧ Carries T nid₀ nid db e := by
  cases e with
  | reachability p =>
    rcases verdict_reachability hdb hst h with hsets | ⟨hprior, hunheard⟩
    · exact Or.inl hsets
    · exact Or.inr ⟨nid, hprior, hunheard, Or.inl rfl⟩
  | topology c =>
    rcases verdict_topology hdb hst h with hsets | ⟨hprior, hunheard⟩
    · exact Or.inl hsets
    · exact Or.inr ⟨nid, hprior, hunheard, Or.inl rfl⟩
  | upsert dev recv => exact Or.inr (verdict_upsert hst hdb he h)
  | purge linked =>
    right
    unfold NetEvent.apply purgeNetDevicesEligible at h
    dsimp only at h
    rw [foldl_deleteNetDeviceRows] at h
    obtain ⟨r, hrow, hstatus⟩ := priorStatus_eq_some.mp h
    obtain ⟨hr, rfl⟩ := Table.row_eq_some hrow
    refine ⟨r.deviceNid, ?_, True.intro, Or.inl rfl⟩
    rw [priorStatus_of_mem hdb.devices (List.mem_of_mem_filter hr), hstatus]

end Step

/-! ### Runs -/

section Runs

variable {T} {S} {db : MonitorDb} {events : List NetEvent}

theorem wellFormed_monitor (hdb : db.WellFormed) (events : List NetEvent) :
    ((monitor T S).stateAfter db events).WellFormed := by
  have hstep : ∀ s e, MonitorDb.WellFormed s → ((monitor T S).next s e).WellFormed :=
    fun _ e h => wellFormed_apply h e
  exact Machine.stateAfter_invariant hstep hdb events

/-- A verdict at the end of a run was there from the start, or some event passed it; since then
    every event carried it. -/
theorem verdict_history (hdb : db.WellFormed) (hplain : ∀ e ∈ events, e.Plain) {nid st : String}
    (hst : st ∈ recovering)
    (h : priorStatus ((monitor T S).stateAfter db events).netDevices nid = some st) :
    (∃ nid₀, priorStatus db.netDevices nid₀ = some st ∧
      (monitor T S).Trail (Carries T) nid₀ nid db events) ∨
      ∃ before e after nid₀, events = before ++ e :: after ∧
        Sets T S nid₀ st ((monitor T S).stateAfter db before) e ∧
        (monitor T S).Trail (Carries T) nid₀ nid
          ((monitor T S).stateAfter db (before ++ [e])) after := by
  have hwell : ∀ s e, MonitorDb.WellFormed s → ((monitor T S).next s e).WellFormed :=
    fun _ e h => wellFormed_apply h e
  exact @Machine.last_write_trail _ _ _ (monitor T S) _ (fun _ e => e.Plain)
    (fun nid s => priorStatus s.netDevices nid = some st) (fun nid => Sets T S nid st) (Carries T)
    MonitorDb.WellFormed hwell (fun _ _ _ hs he => verdict_step hst hs he) db hdb events
    (Machine.along_iff_forall.mpr hplain) nid h

theorem mem_of_priorStatus {rows : List NetDeviceRow} {nid st : String}
    (h : priorStatus rows nid = some st) :
    ∃ r ∈ rows, r.deviceNid = nid ∧ r.status = some st := by
  obtain ⟨r, hrow, hstatus⟩ := priorStatus_eq_some.mp h
  obtain ⟨hr, hnid⟩ := Table.row_eq_some hrow
  exact ⟨r, hr, hnid, hstatus⟩

end Runs

/-- **A failed device.**  It failed before the run, or in the run there was a pass whose probe of
    it failed, with the verdict that its row still carries; since then no probe had an answer from
    it, no collector had evidence of it, and no upsert had a status for it.  It may have been kept
    under its IP-only id then. -/
theorem failed_history (T : PyText) (S : SetOrder) (db : MonitorDb) (hdb : db.WellFormed)
    (events : List NetEvent) (hplain : ∀ e ∈ events, e.Plain) (r : NetDeviceRow)
    (hr : r ∈ ((monitor T S).stateAfter db events).netDevices) (verdict : Status)
    (hstatus : r.status = some verdict.text) :
    (∃ r₀ ∈ db.netDevices, r₀.status = some verdict.text ∧
      (monitor T S).Trail (Carries T) r₀.deviceNid r.deviceNid db events) ∨
    ∃ before p after, events = before ++ .reachability p :: after ∧
      (p.enabled = true ∧ p.lockFree = true) ∧
      (let found := (monitor T S).stateAfter db before
       ∃ r₀ ∈ found.netDevices, p.answer T r₀ = some false ∧
         (verdict = .down ↔
           ClearWalk (found.graph S) (p.failed T found) found.roots r₀.deviceNid) ∧
         (monitor T S).Trail (Carries T) r₀.deviceNid r.deviceNid
           ((monitor T S).stateAfter db (before ++ [.reachability p])) after) := by
  have hst : verdict.text ∈ recovering := by cases verdict <;> decide
  have hprior : priorStatus ((monitor T S).stateAfter db events).netDevices r.deviceNid =
      some verdict.text := by
    rw [priorStatus_of_mem (wellFormed_monitor hdb events).devices hr, hstatus]
  rcases verdict_history hdb hplain hst hprior with ⟨nid₀, hstart, htrail⟩ |
    ⟨before, e, after, nid₀, heq, hsets, htrail⟩
  · left
    obtain ⟨r₀, hr₀, rfl, hverdict⟩ := mem_of_priorStatus hstart
    exact ⟨r₀, hr₀, hverdict, htrail⟩
  · right
    cases e with
    | reachability p =>
      obtain ⟨hon, r₀, hr₀, rfl, hanswer, hverdict⟩ := hsets
      refine ⟨before, p, after, heq, hon, r₀, hr₀, hanswer, ?_, htrail⟩
      cases verdict with
      | down => simpa [Status.text] using hverdict
      | unreachable => simpa [Status.text] using hverdict
    | topology c =>
      obtain ⟨dev, _, _, _, seen, age, _, _, _, haged⟩ := mem_staleLifecycle.mp hsets.2
      have hcases := agedStatus_cases haged
      cases verdict with
      | down => simp [Status.text] at hcases
      | unreachable => simp [Status.text] at hcases
    | upsert dev recv => exact hsets.elim
    | purge linked => exact hsets.elim

private def routerText : PyText :=
  .ascii fun s => if s = "10.0.0.1" then some (.v4 0x0A000001) else none

private def routerDb : MonitorDb where
  netDevices := [{ deviceNid := "nd-ip-10.0.0.1", ip := some "10.0.0.1", devType := some "router" }]
  netLinks := []

/-- The router does not answer; an inventory then learns its MAC. -/
private def routerRun : List NetEvent :=
  [.reachability { now := "2026-01-01T00:00:00+00:00", isAlive := fun _ => some false },
   .upsert { deviceNid := "nd-mac-AA-BB-CC-00-11-22", ip := some "10.0.0.1",
             mac := some "AA-BB-CC-00-11-22", hostname := some "R1" } "2026-01-01T00:05:00+00:00"]

private def failedRouter : NetDeviceRow :=
  { deviceNid := "nd-mac-AA-BB-CC-00-11-22", ip := some "10.0.0.1",
    mac := some "AA-BB-CC-00-11-22", hostname := some "R1", devType := some "router",
    status := some "down", lastSeen := some "2026-01-01T00:05:00+00:00" }

theorem failed_history_router : ∃ before p after,
    routerRun = before ++ .reachability p :: after ∧
      ∃ r₀ ∈ ((monitor routerText ⟨id, .refl⟩).stateAfter routerDb before).netDevices,
        p.answer routerText r₀ = some false ∧
        (monitor routerText ⟨id, .refl⟩).Trail (Carries routerText) r₀.deviceNid
          "nd-mac-AA-BB-CC-00-11-22" ((monitor routerText ⟨id, .refl⟩).stateAfter routerDb
            (before ++ [.reachability p])) after := by
  have hdb : routerDb.WellFormed := { devices := by decide, changes := rfl }
  have hplain : ∀ e ∈ routerRun, e.Plain := by simp [routerRun, NetEvent.Plain]
  have hmem : failedRouter ∈
      ((monitor routerText ⟨id, .refl⟩).stateAfter routerDb routerRun).netDevices := by
    decide +kernel
  rcases failed_history routerText ⟨id, .refl⟩ routerDb hdb routerRun hplain failedRouter hmem
    .down rfl with ⟨r₀, hr₀, hstatus, _⟩ | ⟨before, p, after, heq, _, r₀, hr₀, hans, _, htrail⟩
  · simp [routerDb] at hr₀
    simp [hr₀] at hstatus
  · exact ⟨before, p, after, heq, r₀, hr₀, hans, htrail⟩

/-- **A purged device.**  The purge leaves a row as it is, or removes it with all that names it.
    It removes only a device without an agent or a printer, which was eligible before the run or
    which a cycle of the run found unseen for 30 days; since then no probe had an answer from it, no
    collector had evidence of it and no upsert had a status for it.  The journal stays. -/
theorem purge_history (T : PyText) (S : SetOrder) (db : MonitorDb) (hdb : db.WellFormed)
    (events : List NetEvent) (hplain : ∀ e ∈ events, e.Plain) (linked : NetDeviceRow → Bool) :
    let final := (monitor T S).stateAfter db events
    let left := purgeNetDevicesEligible linked final
    left.netChanges = final.netChanges ∧ ∀ r ∈ final.netDevices, r ∈ left.netDevices ∨
      (linked r = false ∧ r.deviceNid ∉ left.netDevices.map (·.deviceNid) ∧
        (∀ l ∈ left.netLinks, l.aNid ≠ r.deviceNid ∧ l.bNid ≠ r.deviceNid) ∧
        (∀ d ∈ left.netReadings, d.deviceNid ≠ r.deviceNid) ∧
        ((∃ r₀ ∈ db.netDevices, r₀.status = some "eligible_purge" ∧
            (monitor T S).Trail (Carries T) r₀.deviceNid r.deviceNid db events) ∨
          ∃ before c after, events = before ++ .topology c :: after ∧
            (c.on ((monitor T S).stateAfter db before)).Runs ∧
            ∃ dev ∈ ((monitor T S).stateAfter db before).netDevices,
              (∃ seen age, dev.lastSeen = some seen ∧ c.ageSeconds seen = some age ∧
                purgeAfterSec ≤ age) ∧
              (monitor T S).Trail (Carries T) dev.deviceNid r.deviceNid
                ((monitor T S).stateAfter db (before ++ [.topology c])) after)) := by
  intro final left
  have hfinal : final.WellFormed := wellFormed_monitor hdb events
  have hleft : left = _ := foldl_deleteNetDeviceRows (eligibleNids linked final) final
  refine ⟨by rw [hleft], fun r hr => ?_⟩
  by_cases helig : r.deviceNid ∈ eligibleNids linked final
  · right
    obtain ⟨hstatus, hlinked⟩ := (mem_eligibleNids hfinal hr).mp helig
    refine ⟨hlinked, ?_, ?_, ?_, ?_⟩
    · rw [hleft, List.mem_map]
      rintro ⟨r', hr', hnid⟩
      have hkept := of_decide_eq_true (List.mem_filter.mp hr').2
      rw [hnid] at hkept
      exact hkept helig
    · intro l hl
      rw [hleft] at hl
      obtain ⟨ha, hb⟩ := of_decide_eq_true (List.mem_filter.mp hl).2
      exact ⟨fun h => ha (h ▸ helig), fun h => hb (h ▸ helig)⟩
    · intro d hd
      rw [hleft] at hd
      have hkept := of_decide_eq_true (List.mem_filter.mp hd).2
      exact fun h => hkept (h ▸ helig)
    · have hprior : priorStatus final.netDevices r.deviceNid = some "eligible_purge" := by
        rw [priorStatus_of_mem hfinal.devices hr, hstatus]
      rcases verdict_history hdb hplain (by decide) hprior with ⟨nid₀, hstart, htrail⟩ |
        ⟨before, e, after, nid₀, heq, hsets, htrail⟩
      · left
        obtain ⟨r₀, hr₀, rfl, hverdict⟩ := mem_of_priorStatus hstart
        exact ⟨r₀, hr₀, hverdict, htrail⟩
      · right
        cases e with
        | reachability p =>
          obtain ⟨_, _, _, _, _, hverdict⟩ := hsets
          simp at hverdict
        | topology c =>
          obtain ⟨dev, hdev, rfl, _, seen, age, hseen, _, hage, haged⟩ :=
            mem_staleLifecycle.mp hsets.2
          have hold : purgeAfterSec ≤ age := by
            rcases agedStatus_cases haged with ⟨_, hold⟩ | hmissing
            · exact hold
            · exact absurd hmissing (by decide)
          exact ⟨before, c, after, heq, hsets.1, dev, mem_getNetDevices.mp hdev,
            ⟨seen, age, hseen, hage, hold⟩, htrail⟩
        | upsert dev recv => exact hsets.elim
        | purge linked => exact hsets.elim
  · left
    rw [hleft]
    exact List.mem_filter.mpr ⟨hr, decide_eq_true helig⟩

private def ghost : NetDeviceRow :=
  { deviceNid := "nd-mac-00-11-22-33-44-55", lastSeen := some "2026-01-01T00:00:00+00:00" }

/-- The ghost comes of age; an inventory then sees it, and says nothing of its status. -/
private def ghostRun : List NetEvent :=
  [.topology
    { cfg := { enabled := true, missingAfterSec := 86400 }
      collectors := { collect := fun _ => [], collectWireless := fun _ => [],
                      collectMed := fun _ => [] }
      ageSeconds := fun _ => some (31 * 86400), now := "2026-02-01T00:00:00+00:00"
      lockFree := true, journal := [] },
   .upsert { deviceNid := "nd-mac-00-11-22-33-44-55" } "2026-02-01T00:05:00+00:00"]

private def ghostDb : MonitorDb where
  netDevices := [ghost]
  netLinks := []

theorem purge_history_ghost : ∃ before c after, ghostRun = before ++ .topology c :: after ∧
    ∃ dev ∈ ((monitor routerText ⟨id, .refl⟩).stateAfter ghostDb before).netDevices,
      ∃ seen age, dev.lastSeen = some seen ∧ c.ageSeconds seen = some age ∧
        purgeAfterSec ≤ age := by
  have hdb : ghostDb.WellFormed := { devices := by decide, changes := rfl }
  have hplain : ∀ e ∈ ghostRun, e.Plain := by simp [ghostRun, NetEvent.Plain]
  have hpurge := (purge_history routerText ⟨id, .refl⟩ ghostDb hdb ghostRun hplain fun _ => false).2
    { ghost with status := some "eligible_purge", lastSeen := some "2026-02-01T00:05:00+00:00" }
    (by decide +kernel)
  rcases hpurge with hkept | ⟨_, _, _, _, ⟨r₀, hr₀, hstatus, _⟩ | ⟨before, c, after, heq, _, dev,
    hdev, hage, _⟩⟩
  · exact absurd hkept (by decide +kernel)
  · simp [ghostDb, ghost] at hr₀
    simp [hr₀] at hstatus
  · exact ⟨before, c, after, heq, dev, hdev, hage⟩

end Srp.Netdisco
