/-
  Srp/Netdisco/SilentProbe.lean
  =============================
  **What a topology cycle does with a device that stays silent.**

  Its row keeps `last_seen`, and keeps `status` unless the ghost lifecycle ages
  it.  Its links do not get the same treatment: the device counts as probed, so
  `replace_net_links` re-derives its links from a cycle that has no evidence of
  them.  `silent_links_kept_iff` gives the exact condition under which they stay.
-/
import Srp.Netdisco.Reconcile

namespace Srp.Netdisco

open Srp.Lib.GroupBy Srp.Lib.Table Srp.Db

/-! ### A run of the cycle -/

/-- One call of `run_topology_cycle` on a database. -/
structure TopologyRun where
  cfg : TopologyConfig
  collectors : Collectors
  ageSeconds : String → Option ℚ
  now : String
  lockFree : Bool
  db : NetDb

variable (T : PyText)

def TopologyRun.after (R : TopologyRun) : NetDb :=
  (runTopologyCycle T R.cfg R.collectors R.ageSeconds R.now R.lockFree R.db).1

/-- The run goes past its two early returns. -/
def TopologyRun.Runs (R : TopologyRun) : Prop := R.cfg.enabled = true ∧ R.lockFree = true

def TopologyRun.Probes (R : TopologyRun) (dev : NetDeviceRow) : Prop :=
  R.Runs ∧ dev ∈ R.db.netDevices ∧ Probed T dev = true

/-- Some collector returned evidence for the probed device `nid`. -/
def TopologyRun.Answered (R : TopologyRun) (nid : String) : Prop :=
  ∃ dev, R.Probes T dev ∧ dev.deviceNid = nid ∧
    (R.collectors.collect dev ≠ [] ∨ R.collectors.collectWireless dev ≠ [])

/-- The device `nid` is probed and no collector returned evidence for it. -/
def TopologyRun.Silent (R : TopologyRun) (nid : String) : Prop :=
  (∃ dev, R.Probes T dev ∧ dev.deviceNid = nid) ∧ ¬ R.Answered T nid

def TopologyRun.evidence (R : TopologyRun) : List LinkEvidence :=
  (getNetDevices R.db.netDevices).flatMap fun dev =>
    if Probed T dev then R.collectors.collect dev ++ R.collectors.collectWireless dev else []

/-! ### The loop -/

section Loop

variable {T} {C : Collectors} {known : List String} {now : String}

theorem probeLoop_evidence (devices : List NetDeviceRow) (s : ProbeState) :
    (devices.foldl (probeDevice T C known now) s).evidence =
      s.evidence ++ devices.flatMap fun dev =>
        if Probed T dev then C.collect dev ++ C.collectWireless dev else [] := by
  induction devices generalizing s with
  | nil => simp
  | cons dev devices ih =>
    rw [List.foldl_cons, ih, List.flatMap_cons]
    unfold probeDevice
    by_cases h : Probed T dev = true
    · simp only [h, if_true, List.append_assoc]
    · simp only [h, if_false, List.nil_append, Bool.false_eq_true]

theorem probeLoop_probedNids (devices : List NetDeviceRow) (s : ProbeState) :
    (devices.foldl (probeDevice T C known now) s).probedNids =
      s.probedNids ++ (devices.filter (Probed T)).map (·.deviceNid) := by
  induction devices generalizing s with
  | nil => simp
  | cons dev devices ih =>
    rw [List.foldl_cons, ih]
    unfold probeDevice
    by_cases h : Probed T dev = true
    · simp only [h, if_true, List.filter_cons_of_pos, List.map_cons, List.append_assoc,
        List.singleton_append]
    · rw [if_neg h, List.filter_cons_of_neg h]

def SameClock (r r' : NetDeviceRow) : Prop := r'.lastSeen = r.lastSeen ∧ r'.status = r.status

theorem fillNetDeviceIdentity_row {nid n : String} {hostname subtype model : Option String}
    {rows : List NetDeviceRow} {r : NetDeviceRow}
    (h : ∃ r', row NetDeviceRow.deviceNid rows n = some r' ∧ SameClock r r') :
    ∃ r', row NetDeviceRow.deviceNid (fillNetDeviceIdentity nid hostname subtype model rows) n =
      some r' ∧ SameClock r r' := by
  obtain ⟨r', hr', hclock⟩ := h
  unfold fillNetDeviceIdentity
  split
  · exact ⟨r', hr', hclock⟩
  · rw [row_map (fun _ => NetDeviceRow.fill_deviceNid), hr']
    refine ⟨_, rfl, ?_⟩
    unfold SameClock
    rw [NetDeviceRow.fill_lastSeen, NetDeviceRow.fill_status]
    exact hclock

theorem enrichMedSubtypes_row {n : String} {devEv : List LinkEvidence}
    {med : List (Int × String)} {rows : List NetDeviceRow} {r : NetDeviceRow}
    (h : ∃ r', row NetDeviceRow.deviceNid rows n = some r' ∧ SameClock r r') :
    ∃ r', row NetDeviceRow.deviceNid (enrichMedSubtypes T devEv med known rows) n = some r' ∧
      SameClock r r' := by
  unfold enrichMedSubtypes
  induction devEv generalizing rows with
  | nil => exact h
  | cons ev devEv ih =>
    rw [List.foldl_cons]
    apply ih
    split
    · split
      · split
        · exact fillNetDeviceIdentity_row h
        · exact h
      · exact h
    · exact h

theorem writeNetDevice_row {n : String} {dev : NetDeviceRow} {rows : List NetDeviceRow}
    (hne : n ≠ dev.deviceNid) :
    row NetDeviceRow.deviceNid (writeNetDevice dev now rows) n =
      row NetDeviceRow.deviceNid rows n := by
  unfold writeNetDevice
  rw [row_upsert (fun _ hold => hold)]
  exact if_neg hne

/-- The loop keeps the row of a device that does not answer. -/
theorem probeLoop_row {n : String} {r : NetDeviceRow} (devices : List NetDeviceRow)
    (hsilent : ∀ dev ∈ devices, Probed T dev = true → dev.deviceNid = n →
      C.collect dev = [] ∧ C.collectWireless dev = []) (s : ProbeState)
    (h : ∃ r', row NetDeviceRow.deviceNid s.netDevices n = some r' ∧ SameClock r r') :
    ∃ r', row NetDeviceRow.deviceNid
      (devices.foldl (probeDevice T C known now) s).netDevices n = some r' ∧
        SameClock r r' := by
  induction devices generalizing s with
  | nil => exact h
  | cons dev devices ih =>
    rw [List.foldl_cons]
    apply ih fun d hd => hsilent d (List.mem_cons_of_mem dev hd)
    unfold probeDevice
    by_cases hp : Probed T dev = true
    · rw [if_pos hp]
      have hmed : ∃ r', row NetDeviceRow.deviceNid (enrichMedSubtypes T (C.collect dev)
          (C.collectMed dev) known s.netDevices) n = some r' ∧ SameClock r r' :=
        enrichMedSubtypes_row h
      dsimp only
      by_cases hev : C.collect dev ≠ [] ∨ C.collectWireless dev ≠ []
      · rw [if_pos hev, writeNetDevice_row]
        · exact hmed
        · intro hn
          obtain ⟨hc, hw⟩ := hsilent dev List.mem_cons_self hp hn.symm
          exact hev.elim (absurd hc) (absurd hw)
      · rw [if_neg hev]
        exact hmed
    · rw [if_neg hp]
      exact h

end Loop

/-! ### Ageing -/

theorem setStatuses_row {n : String} {r : NetDeviceRow} (aged : List (String × String))
    {rows : List NetDeviceRow} (h : ∃ r', row NetDeviceRow.deviceNid rows n = some r' ∧
      r'.lastSeen = r.lastSeen ∧ (r'.status = r.status ∨ ∃ a ∈ aged, a.1 = n ∧
        r'.status = some a.2)) (sub : List (String × String)) (hsub : ∀ a ∈ sub, a ∈ aged) :
    ∃ r', row NetDeviceRow.deviceNid
      (sub.foldl (fun rows a => setNetDeviceStatus a.1 a.2 rows) rows) n = some r' ∧
        r'.lastSeen = r.lastSeen ∧ (r'.status = r.status ∨ ∃ a ∈ aged, a.1 = n ∧
          r'.status = some a.2) := by
  induction sub generalizing rows with
  | nil => exact h
  | cons a sub ih =>
    rw [List.foldl_cons]
    apply ih _ fun b hb => hsub b (List.mem_cons_of_mem a hb)
    obtain ⟨r', hr', hlast, hstatus⟩ := h
    unfold setNetDeviceStatus
    rw [row_map (fun _ => NetDeviceRow.setStatus_deviceNid), hr']
    refine ⟨_, rfl, ?_⟩
    rw [NetDeviceRow.setStatus_lastSeen, NetDeviceRow.setStatus_status]
    by_cases hn : r'.deviceNid = a.1
    · rw [if_pos hn]
      exact ⟨hlast, Or.inr ⟨a, hsub a List.mem_cons_self,
        hn.symm.trans (row_eq_some hr').2, rfl⟩⟩
    · rw [if_neg hn]
      exact ⟨hlast, hstatus⟩

/-! ### What the run does to the tables -/

section Run

variable {T} {R : TopologyRun}

theorem mem_getNetDevices {dev : NetDeviceRow} {rows : List NetDeviceRow} :
    dev ∈ getNetDevices rows ↔ dev ∈ rows := (List.perm_insertionSort _ rows).mem_iff

/-- The tables after a run that goes past its early returns. -/
theorem after_eq (h : R.Runs) : R.after T =
    { netDevices := (staleLifecycle R.ageSeconds R.cfg.missingAfterSec
        (getNetDevices R.db.netDevices)).foldl (fun rows a => setNetDeviceStatus a.1 a.2 rows)
          (probeAll T R.collectors R.now (getNetDevices R.db.netDevices)
            R.db.netDevices).netDevices
      netLinks := replaceNetLinks ((fuse T (R.evidence T)).map linkRow)
        (((getNetDevices R.db.netDevices).filter (Probed T)).map (·.deviceNid)) R.now
        R.db.netLinks } := by
  unfold TopologyRun.after runTopologyCycle
  have he : ¬ ¬ R.cfg.enabled = true := not_not.mpr h.1
  have hl : ¬ ¬ R.lockFree = true := not_not.mpr h.2
  rw [if_neg he, if_neg hl]
  simp only [probeAll, probeLoop_evidence, probeLoop_probedNids, List.nil_append,
    TopologyRun.evidence]

theorem after_eq_of_not_runs (h : ¬ R.Runs) : R.after T = R.db := by
  unfold TopologyRun.after runTopologyCycle
  by_cases he : R.cfg.enabled = true
  · have hl : ¬ R.lockFree = true := fun hl => h ⟨he, hl⟩
    rw [if_neg (not_not.mpr he), if_pos hl]
  · rw [if_pos he]

/-- The row of a silent device keeps `last_seen`, and keeps `status` unless the ghost
    lifecycle ages it. -/
def TopologyRun.SilentRowsKept (T : PyText) (R : TopologyRun) : Prop :=
  ∀ nid, R.Silent T nid → ∀ r, row NetDeviceRow.deviceNid R.db.netDevices nid = some r →
    ∃ r', row NetDeviceRow.deviceNid (R.after T).netDevices nid = some r' ∧
      r'.lastSeen = r.lastSeen ∧ (r'.status = r.status ∨
        ∃ a ∈ staleLifecycle R.ageSeconds R.cfg.missingAfterSec (getNetDevices R.db.netDevices),
          a.1 = nid ∧ r'.status = some a.2)

theorem silentRowsKept (R : TopologyRun) : R.SilentRowsKept T := by
  intro nid hsilent r hr
  obtain ⟨⟨dev, hdev, _⟩, hnot⟩ := hsilent
  rw [after_eq hdev.1]
  refine setStatuses_row _ ?_ _ fun _ ha => ha
  have hloop := @probeLoop_row T R.collectors (knownNids (getNetDevices R.db.netDevices)) R.now
    nid r (getNetDevices R.db.netDevices) ?_ { netDevices := R.db.netDevices } ⟨r, hr, rfl, rfl⟩
  · obtain ⟨r', hr', hlast, hstatus⟩ := hloop
    exact ⟨r', hr', hlast, Or.inl hstatus⟩
  · intro d hd hp hn
    by_contra hev
    refine hnot ⟨d, ⟨hdev.1, mem_getNetDevices.mp hd, hp⟩, hn, ?_⟩
    by_contra hne
    exact hev ⟨not_not.mp fun h => hne (Or.inl h), not_not.mp fun h => hne (Or.inr h)⟩

/-! ### The links of the output as keys -/

theorem canonLink_linkRow {evs : List LinkEvidence} {link : ResolvedLink} {recv : String}
    (h : link ∈ fuse T evs) : ∃ r, canonLink recv (linkRow link) = some r ∧
      r.key = (link.a, link.b, some link.linkKind) := by
  obtain ⟨pair, hpair, hres⟩ := mem_fuse.mp h
  obtain ⟨e, he, rfl⟩ := mem_keys.mp hpair
  have hne : nodeId T e.a ≠ nodeId T e.b := by
    simpa [edges] using (List.mem_filter.mp he).2
  have hab := resolve_pair hres
  have hends : link.a ≠ "" ∧ link.b ≠ "" ∧ link.a ≠ link.b ∧ ¬ link.b < link.a := by
    rcases pairOf_cases T e with ⟨hp, hle⟩ | ⟨hp, hlt⟩
    · rw [hp] at hab
      obtain ⟨ha, hb⟩ := Prod.mk.inj hab
      rw [ha, hb]
      exact ⟨nodeId_ne_empty T _, nodeId_ne_empty T _, hne, not_lt.mpr hle⟩
    · rw [hp] at hab
      obtain ⟨ha, hb⟩ := Prod.mk.inj hab
      rw [ha, hb]
      exact ⟨nodeId_ne_empty T _, nodeId_ne_empty T _, hne.symm, not_lt.mpr hlt.le⟩
  obtain ⟨ha, hb, hne', hlt⟩ := hends
  have hskip : ¬ (link.a = "" ∨ link.b = "" ∨ link.a = link.b) := by
    rintro (h | h | h)
    · exact ha h
    · exact hb h
    · exact hne' h
  unfold canonLink linkRow
  simp only [if_neg hskip, if_neg hlt]
  exact ⟨_, rfl, rfl⟩

/-- The evidence of this run names the pair of the row, and the pair's winner is of the
    row's kind. -/
def Rederived (T : PyText) (evs : List LinkEvidence) (r : NetLinkRow) : Prop :=
  ∃ e, IsWinner T evs e ∧ pairOf T e = (r.aNid, r.bNid) ∧
    r.linkKind = some (linkKind e.source)

theorem mem_fused_keys {evs : List LinkEvidence} {recv : String} {r : NetLinkRow} :
    r.key ∈ (((fuse T evs).map linkRow).filterMap (canonLink recv)).map (·.key) ↔
      Rederived T evs r := by
  constructor
  · intro h
    obtain ⟨c, hc, hkey⟩ := List.mem_map.mp h
    obtain ⟨d, hd, hcanon⟩ := List.mem_filterMap.mp hc
    obtain ⟨link, hlink, rfl⟩ := List.mem_map.mp hd
    obtain ⟨c', hc', hkey'⟩ := @canonLink_linkRow T _ _ recv hlink
    obtain rfl := Option.some.inj (hcanon.symm.trans hc')
    obtain ⟨pair, _, hres⟩ := mem_fuse.mp hlink
    obtain ⟨w, hw, hlinkOf⟩ := Option.map_eq_some_iff.mp hres
    obtain ⟨hwin, hpw⟩ := argmax_isWinner hw
    have hk : r.key = (link.a, link.b, some link.linkKind) := hkey.symm.trans hkey'
    refine ⟨w, hwin, ?_, ?_⟩
    · rw [hpw, ← resolve_pair hres]
      exact Prod.ext (congrArg (·.1) hk).symm (congrArg (·.2.1) hk).symm
    · rw [← hlinkOf] at hk
      exact congrArg (·.2.2) hk
  · rintro ⟨e, hwin, hpair, hkind⟩
    have hpair_mem : pairOf T e ∈ keys (pairOf T) (edges T evs) := mem_keys.mpr ⟨e, hwin.1, rfl⟩
    have hne : group (pairOf T) (edges T evs) (pairOf T e) ≠ [] :=
      List.ne_nil_of_mem (mem_group.mpr ⟨hwin.1, rfl⟩)
    obtain ⟨w, hw⟩ := argmax_isSome (f := winnerKey) hne
    obtain ⟨hwin', hpw⟩ := argmax_isWinner hw
    have hsource : w.source = e.source := winnerKey_source
      (le_antisymm (hwin.2 w hwin'.1 hpw) (hwin'.2 e hwin.1 hpw.symm))
    have hlink : linkOf T (conflictedPorts T evs) (pairOf T e)
        (group (pairOf T) (edges T evs) (pairOf T e)) w ∈ fuse T evs :=
      mem_fuse.mpr ⟨pairOf T e, hpair_mem, by simp only [resolve, hw, Option.map_some]⟩
    obtain ⟨c, hc, hkey⟩ := @canonLink_linkRow T _ _ recv hlink
    refine List.mem_map.mpr ⟨c, List.mem_filterMap.mpr ⟨_, List.mem_map_of_mem hlink, hc⟩, ?_⟩
    rw [hkey]
    unfold NetLinkRow.key
    rw [hkind, ← hsource]
    have ha : (pairOf T e).1 = r.aNid := congrArg (·.1) hpair
    have hb : (pairOf T e).2 = r.bNid := congrArg (·.2) hpair
    rw [← ha, ← hb]
    rfl

end Run

/-! ### The links of a silent device -/

def Joins (r : NetLinkRow) (a b : String) : Prop :=
  (r.aNid = a ∧ r.bNid = b) ∨ (r.aNid = b ∧ r.bNid = a)

/-- A stored link between a silent device and a device that gave no evidence either. -/
def TopologyRun.SilentLink (R : TopologyRun) (r : NetLinkRow) : Prop :=
  r ∈ R.db.netLinks ∧ ∃ nid other, R.Silent T nid ∧ ¬ R.Answered T other ∧ Joins r nid other

/-- Every link of a silent device is still in the table after the run. -/
def TopologyRun.SilentLinksKept (R : TopologyRun) : Prop :=
  ∀ r, R.SilentLink T r → r.key ∈ (R.after T).netLinks.map (·.key)

/-- The id is handed to `replace_net_links`. -/
def TopologyRun.ProbedNode (R : TopologyRun) (nid : String) : Prop :=
  nid ≠ "" ∧ ∃ dev, R.Probes T dev ∧ dev.deviceNid = nid

/-- **What a silent device keeps.**  Its row always.  Its links exactly when the evidence of
    the same cycle re-derives each of them (or neither end is a probed node with an id). -/
theorem silent_links_kept_iff (R : TopologyRun) :
    R.SilentRowsKept T ∧
      (R.SilentLinksKept T ↔ ∀ r, R.SilentLink T r → Rederived T (R.evidence T) r ∨
        (¬ R.ProbedNode T r.aNid ∧ ¬ R.ProbedNode T r.bNid)) := by
  refine ⟨silentRowsKept R, ?_⟩
  unfold TopologyRun.SilentLinksKept
  refine forall_congr' fun r => imp_congr_right ?_
  rintro ⟨hr, nid, other, ⟨⟨dev, hdev, _⟩, _⟩, _⟩
  have hruns : R.Runs := hdev.1
  have hnode : ∀ n, n ∉ (((getNetDevices R.db.netDevices).filter (Probed T)).map
      (·.deviceNid)).filter (· ≠ "") ↔ ¬ R.ProbedNode T n := by
    intro n
    refine not_congr ?_
    simp only [List.mem_filter, List.mem_map, mem_getNetDevices, TopologyRun.ProbedNode,
      TopologyRun.Probes, hruns, true_and, decide_eq_true_eq, ne_eq]
    constructor
    · rintro ⟨⟨d, hd, hn⟩, hne⟩
      exact ⟨hne, d, hd, hn⟩
    · rintro ⟨hne, d, hd, hn⟩
      exact ⟨⟨d, hd, hn⟩, hne⟩
  rw [after_eq hruns, mem_keys_replaceNetLinks, mem_fused_keys, hnode, hnode]
  refine or_congr_right ?_
  exact and_iff_right (List.mem_map_of_mem hr)

/-! ### A switch that does not answer

One known switch, one stored link behind it, and a cycle in which SNMP times out. -/

private def oneAddress : PyText :=
  .ascii fun s => if s = "10.0.0.1" then some (.v4 (10 * 2 ^ 24 + 1)) else none

private def deadSwitch : NetDeviceRow :=
  { deviceNid := "nd-chassis-SW1", ip := some "10.0.0.1", devType := some "switch",
    status := some "up", lastSeen := some "2026-01-01T00:00:00+00:00" }

private def storedLink : NetLinkRow :=
  { aNid := "nd-chassis-SW1", bNid := "nd-mac-00-11-22-33-44-55", linkKind := some "l2-edge",
    viaSource := some "fdb_edge", confidence := some "high" }

def timeoutRun : TopologyRun where
  cfg := { enabled := true, missingAfterSec := 86400 }
  collectors := { collect := fun _ => [], collectWireless := fun _ => [],
                  collectMed := fun _ => [] }
  ageSeconds := fun _ => some 60
  now := "2026-01-01T00:01:00+00:00"
  lockFree := true
  db := { netDevices := [deadSwitch], netLinks := [storedLink] }

theorem timeoutRun_drops_link : ¬ timeoutRun.SilentLinksKept oneAddress := by
  intro h
  have hquiet : ∀ nid, ¬ timeoutRun.Answered oneAddress nid := by
    rintro nid ⟨dev, _, _, hev | hev⟩
    · exact hev rfl
    · exact hev rfl
  have hsilent : timeoutRun.Silent oneAddress "nd-chassis-SW1" :=
    ⟨⟨deadSwitch, ⟨⟨rfl, rfl⟩, List.mem_singleton_self _, by decide +kernel⟩, rfl⟩, hquiet _⟩
  have hmem := h storedLink ⟨List.mem_singleton_self _, "nd-chassis-SW1",
    "nd-mac-00-11-22-33-44-55", hsilent, hquiet _, Or.inl ⟨rfl, rfl⟩⟩
  revert hmem
  decide +kernel

end Srp.Netdisco
