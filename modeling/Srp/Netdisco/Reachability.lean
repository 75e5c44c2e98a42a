/-
  Srp/Netdisco/Reachability.lean
  ==============================
  **The reachability cycle** (`run_reachability_cycle` of
  `server/netdisco/reconcile.py`): probe the known private devices, tell the
  failed ones from those that are merely cut off, and bring back the ones that
  answer again.

  A probe has three answers: the device lives, it does not, or the probe itself
  raised, which says nothing about the device.  `reachability_cycle` is what one
  cycle does to all four tables.  The statuses it writes depend on the answers
  and the links alone, and not on the statuses it finds.
-/
import Srp.Lib.Window
import Srp.Netdisco.Correlation
import Srp.Netdisco.Reconcile

namespace Srp.Netdisco

open Srp.Lib Srp.Lib.GroupBy Srp.Db

/-! ### The tables -/

/-- A row that the cycle appends to `net_device_readings`. -/
structure DeviceReading where
  deviceNid : String
  status : String
deriving DecidableEq, Repr

/-- A row of `net_changes`; the detail of a root cause is its status. -/
structure NetChange where
  kind : String
  deviceNid : String
  status : String
  ts : String
deriving DecidableEq, Repr

structure MonitorDb extends NetDb where
  netReadings : List DeviceReading := []
  netChanges : List NetChange := []

/-- `_retain_net_changes`. -/
def retainNetChanges : Int := 20000

/-- `store_net_device_reading`; `retain` is `_retain_net`. -/
def storeNetDeviceReading (retain : Int) (new : DeviceReading) (rows : List DeviceReading) :
    List DeviceReading :=
  Window.prune (fun r => r.deviceNid = new.deviceNid) retain (rows ++ [new])

/-- `store_net_change`. -/
def storeNetChange (c : NetChange) (rows : List NetChange) : List NetChange :=
  Window.newest retainNetChanges (rows ++ [c])

/-- The row, seen at that time. -/
def touchRow (nid seenAt : String) (r : NetDeviceRow) : NetDeviceRow :=
  if r.deviceNid = nid then { r with lastSeen := some seenAt } else r

/-- `touch_net_device_seen`: never touches the status. -/
def touchNetDeviceSeen (nid seenAt : String) (rows : List NetDeviceRow) : List NetDeviceRow :=
  rows.map (touchRow nid seenAt)

/-! ### The cycle -/

/-- `DOWN` and `UNREACHABLE`. -/
def Status.text : Status → String
  | .down => "down"
  | .unreachable => "unreachable"

/-- The statuses from which a device that answers again comes back. -/
def recovering : List String := ["down", "unreachable", "missing", "eligible_purge"]

/-- `_ROOT_TYPES`. -/
def rootTypes : List String := ["agent", "router"]

/-- What a cycle is given: its configuration, the lock, the clock, and the answers of the probes,
    with `none` for a probe that raised. -/
structure Pass where
  enabled : Bool := true
  lockFree : Bool := true
  now : String
  isAlive : NetDeviceRow → Option Bool
  retain : Int := 2000

structure PassResult where
  down : Nat
  unreachable : Nat
  busy : Bool
deriving DecidableEq, Repr

variable (T : PyText)

def isTarget (dev : NetDeviceRow) : Bool :=
  dev.ip.any (fun ip => decide (ip ≠ "") && isRfc1918 T ip) && decide (dev.deviceNid ≠ "")

/-- What the pass learns of a device. -/
def Pass.answer (p : Pass) (dev : NetDeviceRow) : Option Bool :=
  if isTarget T dev then p.isAlive dev else none

/-- `live_nids` and `down_set`. -/
def Pass.answering (p : Pass) (alive : Bool) (devices : List NetDeviceRow) : List String :=
  (devices.filter fun dev => p.answer T dev = some alive).map (·.deviceNid)

/-- The vantage points. -/
def rootNids (devices : List NetDeviceRow) : List String :=
  (devices.filter fun dev => dev.devType.any (· ∈ rootTypes) && decide (dev.deviceNid ≠ "")).map
    (·.deviceNid)

def linkGraph (S : SetOrder) (devices : List NetDeviceRow) (links : List NetLinkRow) : Graph :=
  buildGraph S (devices.map fun dev => some dev.deviceNid)
    (links.map fun link => (some link.aNid, some link.bNid))

/-- `set_status` and `store_reading`. -/
def recordStatus (retain : Int) (db : MonitorDb) (mark : String × String) : MonitorDb :=
  { db with
    netDevices := setNetDeviceStatus mark.1 mark.2 db.netDevices
    netReadings := storeNetDeviceReading retain { deviceNid := mark.1, status := mark.2 }
      db.netReadings }

/-- The journal entry of a failure. -/
def rootCause (p : Pass) (nid : String) : NetChange where
  kind := "root_cause"
  deviceNid := nid
  status := Status.down.text
  ts := p.now

def applyVerdict (p : Pass) (db : MonitorDb) (v : String × Verdict) : MonitorDb :=
  let db := recordStatus p.retain db (v.1, v.2.status.text)
  if v.2.status = .down then
    { db with netChanges := storeNetChange (rootCause p v.1) db.netChanges }
  else db

/-- `prior.get(nid)`. -/
def priorStatus (devices : List NetDeviceRow) (nid : String) : Option String :=
  (Table.row (·.deviceNid) devices nid).bind (·.status)

def comesBack (devices : List NetDeviceRow) (nid : String) : Bool :=
  (priorStatus devices nid).any (· ∈ recovering)

def applyRecovery (p : Pass) (devices : List NetDeviceRow) (db : MonitorDb) (nid : String) :
    MonitorDb :=
  if comesBack devices nid then recordStatus p.retain db (nid, "up") else db

/-- One cycle; the sets are iterated in the order of `S`. -/
def runReachabilityCycle (S : SetOrder) (p : Pass) (db : MonitorDb) : MonitorDb × PassResult :=
  if ¬ p.enabled then (db, { down := 0, unreachable := 0, busy := false })
  else if ¬ p.lockFree then (db, { down := 0, unreachable := 0, busy := true })
  else
    let devices := getNetDevices db.netDevices
    let downSet := p.answering T false devices
    let liveNids := S.set (p.answering T true devices)
    let touched :=
      { db with netDevices :=
          liveNids.foldl (fun rows nid => touchNetDeviceSeen nid p.now rows) db.netDevices }
    let verdicts := correlate S (linkGraph S devices db.netLinks) downSet (rootNids devices)
    let judged := verdicts.foldl (applyVerdict p) touched
    (liveNids.foldl (applyRecovery p devices) judged,
     { down := verdicts.countP fun v => v.2.status = .down
       unreachable := verdicts.countP fun v => v.2.status ≠ .down
       busy := false })

/-! ### The writes of a cycle -/

/-- What the schema and `store_net_change` see to. -/
structure MonitorDb.WellFormed (db : MonitorDb) : Prop where
  devices : (db.netDevices.map (·.deviceNid)).Nodup
  changes : Window.newest retainNetChanges db.netChanges = db.netChanges

/-- The row with the status that the marks give it. -/
def markRow (marks : List (String × String)) (r : NetDeviceRow) : NetDeviceRow :=
  match marks.lookup r.deviceNid with
  | some status => { r with status := some status }
  | none => r

@[simp] theorem markRow_deviceNid (marks : List (String × String)) (r : NetDeviceRow) :
    (markRow marks r).deviceNid = r.deviceNid := by
  unfold markRow
  split <;> rfl

@[simp] theorem touchRow_deviceNid (nid seenAt : String) (r : NetDeviceRow) :
    (touchRow nid seenAt r).deviceNid = r.deviceNid := by
  unfold touchRow
  split <;> rfl

variable {marks : List (String × String)} {retain : Int} {db : MonitorDb}

theorem lookup_eq_none_of_not_mem {β : Type} {entries : List (String × β)} {nid : String}
    (h : nid ∉ entries.map Prod.fst) : entries.lookup nid = none := by
  rw [List.lookup_eq_none_iff]
  intro e he
  rw [bne_iff_ne]
  rintro rfl
  exact h (List.mem_map_of_mem he)

theorem markRow_cons {mark : String × String} (h : mark.1 ∉ marks.map Prod.fst)
    (r : NetDeviceRow) :
    markRow (mark :: marks) r = markRow marks (r.setStatus mark.1 mark.2) := by
  unfold markRow
  rw [NetDeviceRow.setStatus_deviceNid, List.lookup_cons]
  unfold NetDeviceRow.setStatus
  by_cases hnid : r.deviceNid = mark.1
  · have hnone := lookup_eq_none_of_not_mem h
    simp [hnid, hnone]
  · rw [beq_eq_false_iff_ne.mpr hnid, if_neg hnid]

/-- Statuses set in turn, for different devices. -/
theorem foldl_setNetDeviceStatus (hmarks : (marks.map Prod.fst).Nodup)
    (rows : List NetDeviceRow) :
    marks.foldl (fun rows mark => setNetDeviceStatus mark.1 mark.2 rows) rows =
      rows.map (markRow marks) := by
  induction marks generalizing rows with
  | nil =>
    have hid : markRow [] = id := rfl
    rw [hid, List.map_id]
    rfl
  | cons mark marks ih =>
    obtain ⟨hmark, hmarks⟩ := List.nodup_cons.mp hmarks
    rw [List.foldl_cons, ih hmarks]
    unfold setNetDeviceStatus
    rw [List.map_map]
    exact List.map_congr_left fun r _ => (markRow_cons hmark r).symm

theorem recordAll_netDevices (hmarks : (marks.map Prod.fst).Nodup) :
    (marks.foldl (recordStatus retain) db).netDevices = db.netDevices.map (markRow marks) := by
  rw [← foldl_setNetDeviceStatus hmarks]
  clear hmarks
  induction marks generalizing db with
  | nil => rfl
  | cons mark marks ih => exact ih

theorem recordAll_frame :
    (marks.foldl (recordStatus retain) db).netLinks = db.netLinks ∧
      (marks.foldl (recordStatus retain) db).netChanges = db.netChanges := by
  induction marks generalizing db with
  | nil => exact ⟨rfl, rfl⟩
  | cons mark marks ih => exact ih

/-- The readings of a device: those it had and the one that its mark adds. -/
theorem recordAll_netReadings (hmarks : (marks.map Prod.fst).Nodup) (nid : String) :
    ((marks.foldl (recordStatus retain) db).netReadings.filter fun r => r.deviceNid = nid) =
      match marks.lookup nid with
      | some status => Window.newest retain
          ((db.netReadings.filter fun r => r.deviceNid = nid) ++ [⟨nid, status⟩])
      | none => db.netReadings.filter fun r => r.deviceNid = nid := by
  induction marks generalizing db with
  | nil => rfl
  | cons mark marks ih =>
    obtain ⟨hmark, hmarks⟩ := List.nodup_cons.mp hmarks
    rw [List.foldl_cons, ih hmarks, List.lookup_cons]
    by_cases hnid : nid = mark.1
    · subst hnid
      rw [lookup_eq_none_of_not_mem hmark, beq_self_eq_true]
      change (storeNetDeviceReading _ _ _).filter _ = _
      unfold storeNetDeviceReading
      rw [Window.filter_prune, List.filter_append]
      simp
    · have hkeep : ((recordStatus retain db mark).netReadings.filter fun r => r.deviceNid = nid) =
          db.netReadings.filter fun r => r.deviceNid = nid := by
        change (storeNetDeviceReading _ _ _).filter _ = _
        unfold storeNetDeviceReading
        rw [Window.filter_prune_of_disjoint, List.filter_append]
        · simp [Ne.symm hnid]
        · intro r hr
          simp only [decide_eq_true_eq] at hr
          simp [hr, hnid]
      rw [hkeep, beq_eq_false_iff_ne.mpr hnid]

/-! ### The loops as writes -/

variable {T} {S : SetOrder} {p : Pass}

/-- The mark of a verdict. -/
def markOf (v : String × Verdict) : String × String := (v.1, v.2.status.text)

/-- The journal entries of the verdicts. -/
def rootCauses (p : Pass) (verdicts : List (String × Verdict)) : List NetChange :=
  (verdicts.filter fun v => v.2.status = .down).map fun v => rootCause p v.1

theorem newest_foldl_storeNetChange (cs rows : List NetChange)
    (hrows : Window.newest retainNetChanges rows = rows) :
    cs.foldl (fun rows c => storeNetChange c rows) rows =
      Window.newest retainNetChanges (rows ++ cs) := by
  induction cs generalizing rows with
  | nil =>
    rw [List.append_nil, hrows]
    rfl
  | cons c cs ih =>
    have hcut : Window.newest retainNetChanges (storeNetChange c rows) = storeNetChange c rows :=
      Window.newest_newest _ _
    rw [List.foldl_cons, ih _ hcut]
    unfold storeNetChange
    rw [Window.newest_append_newest, List.append_assoc, List.singleton_append]

theorem recordAll_withChanges (cs : List NetChange) :
    marks.foldl (recordStatus retain) { db with netChanges := cs } =
      { marks.foldl (recordStatus retain) db with netChanges := cs } := by
  induction marks generalizing db with
  | nil => rfl
  | cons mark marks ih => exact @ih (recordStatus retain db mark)

theorem applyVerdict_eq (v : String × Verdict) :
    applyVerdict p db v =
      { recordStatus p.retain db (markOf v) with
        netChanges := if v.2.status = .down then storeNetChange (rootCause p v.1) db.netChanges
          else db.netChanges } := by
  unfold applyVerdict
  by_cases hdown : v.2.status = .down
  · simp only [if_pos hdown]
    rfl
  · simp only [if_neg hdown]
    rfl

theorem foldl_applyVerdict (verdicts : List (String × Verdict)) :
    verdicts.foldl (applyVerdict p) db =
      { (verdicts.map markOf).foldl (recordStatus p.retain) db with
        netChanges := (rootCauses p verdicts).foldl (fun rows c => storeNetChange c rows)
          db.netChanges } := by
  induction verdicts generalizing db with
  | nil => rfl
  | cons v verdicts ih =>
    rw [List.foldl_cons, ih, applyVerdict_eq, recordAll_withChanges, List.map_cons,
      List.foldl_cons]
    unfold rootCauses
    by_cases hdown : v.2.status = .down
    · simp [hdown]
    · simp [hdown]

theorem foldl_applyRecovery (devices : List NetDeviceRow) (nids : List String) :
    nids.foldl (applyRecovery p devices) db =
      ((nids.filter (comesBack devices)).map fun nid => (nid, "up")).foldl
        (recordStatus p.retain) db := by
  induction nids generalizing db with
  | nil => rfl
  | cons nid nids ih =>
    rw [List.foldl_cons, ih]
    unfold applyRecovery
    by_cases h : comesBack devices nid = true
    · rw [if_pos h, List.filter_cons_of_pos h]
      rfl
    · rw [if_neg h, List.filter_cons_of_neg h]

theorem foldl_touch (nids : List String) (seenAt : String) (rows : List NetDeviceRow) :
    nids.foldl (fun rows nid => touchNetDeviceSeen nid seenAt rows) rows =
      rows.map fun r => if r.deviceNid ∈ nids then { r with lastSeen := some seenAt } else r := by
  induction nids generalizing rows with
  | nil => simp
  | cons nid nids ih =>
    rw [List.foldl_cons, ih]
    unfold touchNetDeviceSeen
    rw [List.map_map]
    apply List.map_congr_left
    intro r _
    rw [Function.comp_apply, touchRow_deviceNid]
    unfold touchRow
    by_cases hnid : r.deviceNid = nid
    · by_cases hmem : nid ∈ nids <;> simp [hnid, hmem]
    · simp [hnid]

/-! ### Answers -/

/-- The graph of a cycle, over the devices in the order in which it reads them. -/
def MonitorDb.graph (S : SetOrder) (db : MonitorDb) : Graph :=
  linkGraph S (getNetDevices db.netDevices) db.netLinks

def MonitorDb.roots (db : MonitorDb) : List String := rootNids (getNetDevices db.netDevices)

variable (T)

/-- The devices whose probe failed, and those whose probe was answered. -/
def Pass.failed (p : Pass) (db : MonitorDb) : List String :=
  p.answering T false (getNetDevices db.netDevices)

def Pass.live (p : Pass) (db : MonitorDb) : List String :=
  p.answering T true (getNetDevices db.netDevices)

def Pass.verdicts (S : SetOrder) (p : Pass) (db : MonitorDb) : List (String × Verdict) :=
  correlate S (db.graph S) (p.failed T db) db.roots

/-- Every status that the cycle writes. -/
def Pass.written (S : SetOrder) (p : Pass) (db : MonitorDb) : List (String × String) :=
  (p.verdicts T S db).map markOf ++
    ((S.set (p.live T db)).filter (comesBack (getNetDevices db.netDevices))).map
      fun nid => (nid, "up")

variable {T}

theorem perm_getNetDevices (rows : List NetDeviceRow) : (getNetDevices rows).Perm rows :=
  List.perm_insertionSort _ _

theorem MonitorDb.WellFormed.sorted (hdb : db.WellFormed) :
    ((getNetDevices db.netDevices).map (·.deviceNid)).Nodup :=
  ((perm_getNetDevices db.netDevices).map _).nodup_iff.mpr hdb.devices

theorem mem_answering {alive : Bool} {devices : List NetDeviceRow}
    (hdevices : (devices.map (·.deviceNid)).Nodup) {r : NetDeviceRow} (hr : r ∈ devices) :
    r.deviceNid ∈ p.answering T alive devices ↔ p.answer T r = some alive := by
  unfold Pass.answering
  rw [List.mem_map]
  constructor
  · rintro ⟨r', hr', hnid⟩
    obtain ⟨hmem, hanswer⟩ := List.mem_filter.mp hr'
    obtain rfl := List.inj_on_of_nodup_map hdevices hmem hr hnid
    exact of_decide_eq_true hanswer
  · intro h
    exact ⟨r, List.mem_filter.mpr ⟨hr, decide_eq_true h⟩, rfl⟩

theorem SetOrder.nodup_set (S : SetOrder) (xs : List String) : (S.set xs).Nodup :=
  (S.perm _).nodup_iff.mpr (nodup_eraseDups xs)

theorem keys_verdicts : (p.verdicts T S db).map Prod.fst = S.set (p.failed T db) := by
  unfold Pass.verdicts correlate
  rw [List.map_map]
  exact List.map_id _

theorem nodup_written (hdb : db.WellFormed) : ((p.written T S db).map Prod.fst).Nodup := by
  have hkeys : (p.written T S db).map Prod.fst = S.set (p.failed T db) ++
      (S.set (p.live T db)).filter (comesBack (getNetDevices db.netDevices)) := by
    rw [← keys_verdicts]
    simp [Pass.written, markOf, Function.comp_def]
  rw [hkeys]
  refine (S.nodup_set _).append ((S.nodup_set _).filter _) ?_
  intro nid hfailed halive
  rw [SetOrder.mem_set] at hfailed
  have hlive := (SetOrder.mem_set).mp (List.mem_of_mem_filter halive)
  obtain ⟨r, hr, rfl⟩ := List.mem_map.mp hlive
  have hmem := List.mem_of_mem_filter hr
  have htrue := (mem_answering hdb.sorted hmem).mp hlive
  rw [(mem_answering hdb.sorted hmem).mp hfailed] at htrue
  cases htrue

/-! ### What a cycle does -/

/-- The tables when the answering devices have been marked as seen. -/
def Pass.touched (T : PyText) (S : SetOrder) (p : Pass) (db : MonitorDb) : MonitorDb :=
  { db with netDevices := db.netDevices.map fun r =>
      if r.deviceNid ∈ S.set (p.live T db) then { r with lastSeen := some p.now } else r }

theorem runReachabilityCycle_eq (hon : p.enabled = true ∧ p.lockFree = true) :
    (runReachabilityCycle T S p db).1 =
      { (p.written T S db).foldl (recordStatus p.retain) (p.touched T S db) with
        netChanges := (rootCauses p (p.verdicts T S db)).foldl
          (fun rows c => storeNetChange c rows) db.netChanges } := by
  unfold runReachabilityCycle
  rw [if_neg (by simp [hon.1]), if_neg (by simp [hon.2])]
  dsimp only
  rw [foldl_touch, foldl_applyVerdict, foldl_applyRecovery, recordAll_withChanges]
  unfold Pass.written
  rw [List.foldl_append]
  rfl

/-- What a cycle makes of the row of a device. -/
structure Judged (T : PyText) (S : SetOrder) (p : Pass) (db : MonitorDb) (r r' : NetDeviceRow) :
    Prop where
  frame : r' = { r with
    status := r'.status
    lastSeen := if p.answer T r = some true then some p.now else r.lastSeen }
  silent : p.answer T r = none → r'.status = r.status
  alive : p.answer T r = some true →
    r'.status = if r.status.any (· ∈ recovering) then some "up" else r.status
  failed : p.answer T r = some false →
    (r'.status = some "down" ∧ ClearWalk (db.graph S) (p.failed T db) db.roots r.deviceNid) ∨
    (r'.status = some "unreachable" ∧
      ¬ ClearWalk (db.graph S) (p.failed T db) db.roots r.deviceNid)

theorem lookup_verdicts {nid : String} {v : Verdict}
    (h : (p.verdicts T S db).lookup nid = some v) :
    nid ∈ p.failed T db ∧
      (v.status = .down ↔ ClearWalk (db.graph S) (p.failed T db) db.roots nid) := by
  obtain ⟨hdown, rfl⟩ := correlate_lookup.mp h
  refine ⟨hdown, ?_⟩
  have hcause := @mem_causes (db.graph S) S (p.failed T db) db.roots nid
  split
  · rename_i hin
    exact iff_of_true rfl (hcause.mp hin).2
  · rename_i hin
    exact iff_of_false (fun h => nomatch h) fun hclear => hin (hcause.mpr ⟨hdown, hclear⟩)

theorem lookup_map_markOf (vs : List (String × Verdict)) (nid : String) :
    (vs.map markOf).lookup nid = (vs.lookup nid).map fun v => v.status.text := by
  induction vs with
  | nil => rfl
  | cons v vs ih =>
    have hkey : (markOf v).1 = v.1 := rfl
    rw [List.map_cons, List.lookup_cons, List.lookup_cons, ih, hkey]
    cases nid == v.1 with
    | true => rfl
    | false => rfl

theorem lookup_recoveries (nids : List String) (nid : String) :
    (nids.map fun n => (n, "up")).lookup nid = if nid ∈ nids then some "up" else none := by
  split
  · rename_i h
    exact lookup_map_pair.mpr ⟨h, rfl⟩
  · rename_i h
    apply lookup_eq_none_of_not_mem
    simpa [Function.comp_def] using h

/-- The mark of a device, by the answer of its probe. -/
theorem lookup_written (hdb : db.WellFormed) {r : NetDeviceRow} (hr : r ∈ db.netDevices) :
    (p.answer T r = none → (p.written T S db).lookup r.deviceNid = none) ∧
    (p.answer T r = some true → (p.written T S db).lookup r.deviceNid =
      if r.status.any (· ∈ recovering) then some "up" else none) ∧
    (p.answer T r = some false → ∃ v : Verdict,
      (p.written T S db).lookup r.deviceNid = some v.status.text ∧
        (v.status = .down ↔ ClearWalk (db.graph S) (p.failed T db) db.roots r.deviceNid)) := by
  have hmem : r ∈ getNetDevices db.netDevices := (perm_getNetDevices _).mem_iff.mpr hr
  have hfailed : r.deviceNid ∈ p.failed T db ↔ p.answer T r = some false :=
    mem_answering hdb.sorted hmem
  have hlive : r.deviceNid ∈ p.live T db ↔ p.answer T r = some true :=
    mem_answering hdb.sorted hmem
  have hprior : priorStatus (getNetDevices db.netDevices) r.deviceNid = r.status := by
    unfold priorStatus
    rw [Table.row_of_mem hdb.sorted hmem]
    rfl
  have hnot : p.answer T r ≠ some false → (p.verdicts T S db).lookup r.deviceNid = none := by
    intro h
    apply lookup_eq_none_of_not_mem
    rw [keys_verdicts, SetOrder.mem_set, hfailed]
    exact h
  have hback : r.deviceNid ∈ (S.set (p.live T db)).filter
      (comesBack (getNetDevices db.netDevices)) ↔
        p.answer T r = some true ∧ r.status.any (· ∈ recovering) = true := by
    rw [List.mem_filter, SetOrder.mem_set, hlive, comesBack, hprior]
  unfold Pass.written
  rw [List.lookup_append, lookup_map_markOf, lookup_recoveries, if_congr hback rfl rfl]
  refine ⟨?_, ?_, ?_⟩
  · intro h
    rw [hnot (by simp [h])]
    simp [h]
  · intro h
    rw [hnot (by simp [h])]
    simp [h]
  · intro h
    have hsome : ((p.verdicts T S db).lookup r.deviceNid).isSome = true := by
      by_contra hnone
      rw [Bool.not_eq_true, Option.isSome_eq_false_iff, Option.isNone_iff_eq_none,
        List.lookup_eq_none_iff] at hnone
      have hkey := (SetOrder.mem_set (S := S)).mpr (hfailed.mpr h)
      rw [← keys_verdicts] at hkey
      obtain ⟨e, he, heq⟩ := List.mem_map.mp hkey
      exact (bne_iff_ne.mp (hnone e he)) heq.symm
    obtain ⟨v, hv⟩ := Option.isSome_iff_exists.mp hsome
    refine ⟨v, ?_, (lookup_verdicts hv).2⟩
    rw [hv]
    rfl

theorem judged_mark (hdb : db.WellFormed) {r : NetDeviceRow} (hr : r ∈ db.netDevices) :
    Judged T S p db r (markRow (p.written T S db)
      (if r.deviceNid ∈ S.set (p.live T db) then { r with lastSeen := some p.now } else r)) := by
  have hmem : r ∈ getNetDevices db.netDevices := (perm_getNetDevices _).mem_iff.mpr hr
  have hlive : r.deviceNid ∈ S.set (p.live T db) ↔ p.answer T r = some true := by
    rw [SetOrder.mem_set]
    exact mem_answering hdb.sorted hmem
  obtain ⟨hsilent, halive, hfailed⟩ := lookup_written (S := S) (T := T) (p := p) hdb hr
  rw [if_congr hlive rfl rfl]
  cases hanswer : p.answer T r with
  | none =>
    have hmark := hsilent hanswer
    simp only [reduceCtorEq, if_false]
    unfold markRow
    rw [hmark]
    exact { frame := by simp [hanswer], silent := fun _ => rfl, alive := by simp [hanswer],
            failed := by simp [hanswer] }
  | some alive =>
    cases alive with
    | true =>
      have hmark := halive hanswer
      rw [if_pos rfl]
      unfold markRow
      dsimp only
      rw [hmark]
      by_cases hback : r.status.any (· ∈ recovering) = true
      · rw [if_pos hback]
        exact { frame := by simp [hanswer], silent := by simp [hanswer],
                alive := fun _ => (if_pos hback).symm, failed := by simp [hanswer] }
      · rw [if_neg hback]
        exact { frame := by simp [hanswer], silent := by simp [hanswer],
                alive := fun _ => (if_neg hback).symm, failed := by simp [hanswer] }
    | false =>
      obtain ⟨v, hmark, hclear⟩ := hfailed hanswer
      simp only [Option.some.injEq, Bool.false_eq_true, if_false]
      unfold markRow
      rw [hmark]
      refine { frame := by simp [hanswer], silent := by simp [hanswer], alive := by simp [hanswer],
               failed := fun _ => ?_ }
      cases hstatus : v.status with
      | down => exact Or.inl ⟨rfl, hclear.mp hstatus⟩
      | unreachable =>
        refine Or.inr ⟨rfl, fun h => ?_⟩
        rw [hclear.mpr h] at hstatus
        cases hstatus

/-- The row of a device after a cycle. -/
def rowAfter (T : PyText) (S : SetOrder) (p : Pass) (db : MonitorDb) (r : NetDeviceRow) :
    NetDeviceRow :=
  markRow (p.written T S db)
    (if r.deviceNid ∈ S.set (p.live T db) then { r with lastSeen := some p.now } else r)

theorem rowAfter_deviceNid (r : NetDeviceRow) : (rowAfter T S p db r).deviceNid = r.deviceNid := by
  unfold rowAfter
  rw [markRow_deviceNid]
  split <;> rfl

theorem cycle_netDevices (hdb : db.WellFormed) (hon : p.enabled = true ∧ p.lockFree = true) :
    (runReachabilityCycle T S p db).1.netDevices = db.netDevices.map (rowAfter T S p db) := by
  rw [runReachabilityCycle_eq hon]
  change ((p.written T S db).foldl (recordStatus p.retain) (p.touched T S db)).netDevices = _
  rw [recordAll_netDevices (nodup_written hdb)]
  exact List.map_map

theorem cycle_netChanges (hdb : db.WellFormed) (hon : p.enabled = true ∧ p.lockFree = true) :
    (runReachabilityCycle T S p db).1.netChanges =
      Window.newest retainNetChanges (db.netChanges ++ rootCauses p (p.verdicts T S db)) := by
  rw [runReachabilityCycle_eq hon]
  exact newest_foldl_storeNetChange _ _ hdb.changes

theorem mem_rootCauses {c : NetChange} : c ∈ rootCauses p (p.verdicts T S db) ↔
    ∃ nid ∈ p.failed T db, ClearWalk (db.graph S) (p.failed T db) db.roots nid ∧
      c = rootCause p nid := by
  have hcause := fun nid => @mem_causes (db.graph S) S (p.failed T db) db.roots nid
  unfold rootCauses Pass.verdicts correlate
  constructor
  · intro h
    obtain ⟨v, hv, rfl⟩ := List.mem_map.mp h
    obtain ⟨hmem, hdown⟩ := List.mem_filter.mp hv
    obtain ⟨nid, hnid, rfl⟩ := List.mem_map.mp hmem
    have hin : nid ∈ findRootCause S (db.graph S) (S.set (p.failed T db)) (S.set db.roots) := by
      by_contra hout
      rw [if_neg hout] at hdown
      exact nomatch of_decide_eq_true hdown
    obtain ⟨hfailed, hclear⟩ := (hcause nid).mp hin
    exact ⟨nid, hfailed, hclear, rfl⟩
  · rintro ⟨nid, hfailed, hclear, rfl⟩
    have hin := (hcause nid).mpr ⟨hfailed, hclear⟩
    refine List.mem_map.mpr ⟨_, List.mem_filter.mpr ⟨List.mem_map.mpr
      ⟨nid, SetOrder.mem_set.mpr hfailed, rfl⟩, ?_⟩, rfl⟩
    rw [if_pos hin]
    rfl

theorem nodup_rootCauses : (rootCauses p (p.verdicts T S db)).Nodup := by
  apply List.Nodup.of_map NetChange.deviceNid
  unfold rootCauses
  rw [List.map_map]
  apply List.Nodup.sublist (List.filter_sublist.map Prod.fst)
  rw [keys_verdicts]
  exact S.nodup_set _

/-- The readings that a cycle adds: one for each device whose status it wrote. -/
theorem cycle_netReadings (hdb : db.WellFormed) (hon : p.enabled = true ∧ p.lockFree = true)
    (nid : String) :
    ((runReachabilityCycle T S p db).1.netReadings.filter fun d => d.deviceNid = nid) =
      match (p.written T S db).lookup nid with
      | some status => Window.newest p.retain
          ((db.netReadings.filter fun d => d.deviceNid = nid) ++ [⟨nid, status⟩])
      | none => db.netReadings.filter fun d => d.deviceNid = nid := by
  rw [runReachabilityCycle_eq hon]
  exact recordAll_netReadings (nodup_written hdb) nid

theorem cycle_off (hoff : ¬ (p.enabled = true ∧ p.lockFree = true)) :
    (runReachabilityCycle T S p db).1 = db := by
  unfold runReachabilityCycle
  by_cases henabled : p.enabled = true
  · rw [if_neg (by simp [henabled]), if_pos fun h => hoff ⟨henabled, h⟩]
  · rw [if_pos henabled]

theorem cycle_wellFormed (hdb : db.WellFormed) :
    (runReachabilityCycle T S p db).1.WellFormed := by
  by_cases hon : p.enabled = true ∧ p.lockFree = true
  · refine { devices := ?_, changes := ?_ }
    · rw [cycle_netDevices hdb hon, List.map_map]
      have hnids : (fun r : NetDeviceRow => r.deviceNid) ∘ rowAfter T S p db =
          fun r => r.deviceNid := funext rowAfter_deviceNid
      rw [hnids]
      exact hdb.devices
    · rw [cycle_netChanges hdb hon, Window.newest_newest]
  · rw [cycle_off hon]
    exact hdb

/-- **One cycle.**  Of the rows it changes the times and statuses of the devices that it heard of,
    by the paths to a vantage point that avoid other failed devices; it leaves the links alone,
    appends one reading for every status it writes, and journals exactly the failures that are not
    explained by another one.  Every path from a failed device to a vantage point crosses a device
    in the journal. -/
theorem reachability_cycle (T : PyText) (S : SetOrder) (p : Pass) (db : MonitorDb)
    (hdb : db.WellFormed) (hon : p.enabled = true ∧ p.lockFree = true) :
    let after := (runReachabilityCycle T S p db).1
    (∃ f, after.netDevices = db.netDevices.map f ∧ ∀ r ∈ db.netDevices,
      Judged T S p db r (f r) ∧
      (after.netReadings.filter fun d => d.deviceNid = r.deviceNid) =
        (if p.answer T r = some false ∨
            (p.answer T r = some true ∧ r.status.any (· ∈ recovering) = true) then
          Window.newest p.retain ((db.netReadings.filter fun d => d.deviceNid = r.deviceNid) ++
            [⟨r.deviceNid, (f r).status.getD ""⟩])
        else db.netReadings.filter fun d => d.deviceNid = r.deviceNid)) ∧
    after.netLinks = db.netLinks ∧ after.WellFormed ∧
    ∃ causes : List NetChange, after.netChanges =
        Window.newest retainNetChanges (db.netChanges ++ causes) ∧ causes.Nodup ∧
      (∀ c, c ∈ causes ↔ ∃ r ∈ db.netDevices, p.answer T r = some false ∧
        ClearWalk (db.graph S) (p.failed T db) db.roots r.deviceNid ∧
        c = rootCause p r.deviceNid) ∧
      ∀ r ∈ db.netDevices, p.answer T r = some false → ∀ root ∈ db.roots,
        ∀ w : (db.graph S).toSimpleGraph.Walk r.deviceNid root,
          ∃ c ∈ causes, c.deviceNid ∈ w.support := by
  intro after
  have hfailed : ∀ nid, nid ∈ p.failed T db ↔
      ∃ r ∈ db.netDevices, p.answer T r = some false ∧ r.deviceNid = nid := by
    intro nid
    unfold Pass.failed Pass.answering
    rw [List.mem_map]
    constructor
    · rintro ⟨r, hr, hnid⟩
      obtain ⟨hmem, hanswer⟩ := List.mem_filter.mp hr
      exact ⟨r, (perm_getNetDevices _).mem_iff.mp hmem, of_decide_eq_true hanswer, hnid⟩
    · rintro ⟨r, hr, hanswer, hnid⟩
      exact ⟨r, List.mem_filter.mpr ⟨(perm_getNetDevices _).mem_iff.mpr hr,
        decide_eq_true hanswer⟩, hnid⟩
  refine ⟨⟨rowAfter T S p db, cycle_netDevices hdb hon, ?_⟩, ?_, cycle_wellFormed hdb,
    rootCauses p (p.verdicts T S db), cycle_netChanges hdb hon, nodup_rootCauses, ?_, ?_⟩
  · intro r hr
    have hjudged : Judged T S p db r (rowAfter T S p db r) := judged_mark hdb hr
    refine ⟨hjudged, ?_⟩
    obtain ⟨hsilent, halive, hdead⟩ := lookup_written (S := S) (T := T) (p := p) hdb hr
    rw [cycle_netReadings hdb hon]
    cases hanswer : p.answer T r with
    | none =>
      rw [hsilent hanswer]
      simp
    | some alive =>
      cases alive with
      | true =>
        rw [halive hanswer]
        have hstatus := hjudged.alive hanswer
        by_cases hback : r.status.any (· ∈ recovering) = true
        · rw [if_pos hback] at hstatus ⊢
          rw [hstatus]
          simp [hback]
        · rw [if_neg hback]
          simp [hback]
      | false =>
        obtain ⟨v, hmark, _⟩ := hdead hanswer
        have hstatus : (rowAfter T S p db r).status = some v.status.text := by
          unfold rowAfter markRow
          have hnid : (if r.deviceNid ∈ S.set (p.live T db) then
              { r with lastSeen := some p.now } else r).deviceNid = r.deviceNid := by
            split <;> rfl
          rw [hnid, hmark]
        rw [hmark, hstatus]
        simp
  · change (runReachabilityCycle T S p db).1.netLinks = db.netLinks
    rw [runReachabilityCycle_eq hon]
    exact recordAll_frame.1
  · intro c
    rw [mem_rootCauses]
    constructor
    · rintro ⟨nid, hnid, hclear, rfl⟩
      obtain ⟨r, hr, hanswer, rfl⟩ := (hfailed nid).mp hnid
      exact ⟨r, hr, hanswer, hclear, rfl⟩
    · rintro ⟨r, hr, hanswer, hclear, rfl⟩
      exact ⟨r.deviceNid, (hfailed _).mpr ⟨r, hr, hanswer, rfl⟩, hclear, rfl⟩
  · intro r hr hanswer root hroot w
    have hdown : r.deviceNid ∈ p.failed T db := (hfailed _).mpr ⟨r, hr, hanswer, rfl⟩
    obtain ⟨c, hc, hcause⟩ := exists_cause_on_walk (S := S) w hroot
      ⟨r.deviceNid, w.start_mem_support, hdown⟩
    obtain ⟨hcdown, hclear⟩ := mem_findRootCause.mp hcause
    exact ⟨rootCause p c, mem_rootCauses.mpr ⟨c, hcdown, hclear, rfl⟩, hc⟩

/-! ### A switch that takes a printer with it -/

private def segmentText : PyText :=
  .ascii fun s => if s = "10.0.0.1" then some (.v4 0x0A000001)
    else if s = "10.0.0.2" then some (.v4 0x0A000002) else none

private def segment : MonitorDb where
  netDevices := [
    { deviceNid := "nd-agent-PC1", ip := some "10.0.0.1", devType := some "agent",
      status := some "missing" },
    { deviceNid := "nd-chassis-SW1", ip := some "10.0.0.2", devType := some "switch",
      status := some "up" }]
  netLinks := [{ aNid := "nd-agent-PC1", bNid := "nd-chassis-SW1" }]

private def outage : Pass where
  now := "2026-01-01T00:00:00+00:00"
  isAlive := fun dev => some (dev.ip == some "10.0.0.1")

/-- The PC is back, and the switch beside it is down of itself. -/
theorem reachability_cycle_segment :
    let after := (runReachabilityCycle segmentText ⟨id, .refl⟩ outage segment).1
    after.netDevices.map (·.status) = [some "up", some "down"] ∧
      after.netLinks = segment.netLinks ∧ after.WellFormed := by
  have hdb : segment.WellFormed := { devices := by decide, changes := rfl }
  obtain ⟨⟨f, hrows, hjudged⟩, hlinks, hwell, -⟩ :=
    reachability_cycle segmentText ⟨id, .refl⟩ outage segment hdb ⟨rfl, rfl⟩
  refine ⟨?_, hlinks, hwell⟩
  have hclear : ClearWalk (segment.graph ⟨id, .refl⟩) (outage.failed segmentText segment)
      segment.roots "nd-chassis-SW1" :=
    (mem_findRootCause (S := ⟨id, .refl⟩)).mp (by decide +kernel) |>.2
  obtain ⟨hpc, -⟩ := hjudged _ List.mem_cons_self
  obtain ⟨hsw, -⟩ := hjudged _ (List.mem_cons_of_mem _ List.mem_cons_self)
  have hup := hpc.alive (by decide +kernel)
  have hdown := (hsw.failed (by decide +kernel)).resolve_right fun h => h.2 hclear
  rw [hrows]
  simp only [segment, List.map_cons, List.map_nil]
  rw [hdown.1, hup]
  rfl

end Srp.Netdisco
