/-
  Srp/Netdisco/Reconcile.lean
  ===========================
  **The topology cycle** (`run_topology_cycle` of `server/netdisco/reconcile.py`):
  probe the known infrastructure, fuse the evidence, replace the links of the
  probed nodes, and age out ghosts.

  The answers of the collectors are inputs of the cycle.  Two gates stand in one
  loop: the row of a probed device is refreshed only when a collector returned
  evidence, but its id is put in the set of probed nodes unconditionally.
  `silent_links_kept_iff` says what the second costs.
-/
import Mathlib.Algebra.Order.Ring.Rat
import Srp.Db.NetTables
import Srp.Netdisco.FusionOrder

namespace Srp.Netdisco

open Srp.Lib.GroupBy Srp.Lib.Table Srp.Db

/-! ### Ghost lifecycle -/

def purgeAfterSec : ℚ := 30 * 86400

/-- The verdict of `stale_lifecycle` on one device of age `age`. -/
def agedStatus (staleAfterSec age : ℚ) (status : Option String) : Option String :=
  if purgeAfterSec ≤ age then
    if status ≠ some "eligible_purge" then some "eligible_purge" else none
  else if staleAfterSec ≤ age ∧ status ≠ some "missing" ∧ status ≠ some "eligible_purge" then
    some "missing"
  else none

/-- `stale_lifecycle`: `ageSeconds` is the age of an ISO time, `none` if it does not parse. -/
def staleLifecycle (ageSeconds : String → Option ℚ) (staleAfterSec : ℚ)
    (devices : List NetDeviceRow) : List (String × String) :=
  (devices.filterMap fun dev =>
    match dev.lastSeen with
    | none => none
    | some lastSeen =>
      if dev.deviceNid = "" ∨ lastSeen = "" then none
      else (ageSeconds lastSeen).bind fun age =>
        (agedStatus staleAfterSec age dev.status).map fun s => (dev.deviceNid, s)).insertionSort
    fun p q => toLex p ≤ toLex q

/-! ### The inputs of a cycle -/

/-- The answers of one cycle's probes, by device row. -/
structure Collectors where
  collect : NetDeviceRow → List LinkEvidence
  collectWireless : NetDeviceRow → List LinkEvidence
  collectMed : NetDeviceRow → List (Int × String)

structure TopologyConfig where
  enabled : Bool
  missingAfterSec : ℚ

structure NetDb where
  netDevices : List NetDeviceRow
  netLinks : List NetLinkRow

structure CycleResult where
  links : Nat
  probed : Nat
  busy : Bool
deriving DecidableEq, Repr

variable (T : PyText)

def topologyTypes : List String := ["router", "switch", "ap"]

/-- The device is probed: it holds neighbour tables and answers on a private address. -/
def Probed (dev : NetDeviceRow) : Bool :=
  dev.devType.any (· ∈ topologyTypes) && dev.ip.any (isRfc1918 T)

/-! ### The loop over the devices -/

/-- `_enrich_med_subtypes`: the subtype of a known neighbour, when it has none. -/
def enrichMedSubtypes (devEv : List LinkEvidence) (med : List (Int × String))
    (knownNids : List String) (rows : List NetDeviceRow) : List NetDeviceRow :=
  devEv.foldl (fun rows ev =>
    if ev.source = "lldp" then
      match ev.localIf.bind (fun i => med.lookup i) with
      | some subtype =>
        if nodeId T ev.b ∈ knownNids then
          fillNetDeviceIdentity (nodeId T ev.b) none (some subtype) none rows
        else rows
      | none => rows
    else rows) rows

structure ProbeState where
  evidence : List LinkEvidence := []
  probedNids : List String := []
  netDevices : List NetDeviceRow

def upDevice (nid : String) : NetDeviceRow := { deviceNid := nid, status := some "up" }

def probeDevice (C : Collectors) (knownNids : List String) (now : String) (s : ProbeState)
    (dev : NetDeviceRow) : ProbeState :=
  if Probed T dev then
    let devEv := C.collect dev
    let wirelessEv := C.collectWireless dev
    let rows := enrichMedSubtypes T devEv (C.collectMed dev) knownNids s.netDevices
    { evidence := s.evidence ++ devEv ++ wirelessEv
      probedNids := s.probedNids ++ [dev.deviceNid]
      netDevices := if devEv ≠ [] ∨ wirelessEv ≠ [] then
          writeNetDevice (upDevice dev.deviceNid) now rows
        else rows }
  else s

def linkRow (link : ResolvedLink) : LinkDict where
  aNid := some link.a
  bNid := some link.b
  linkKind := some link.linkKind
  viaSource := some link.viaSource
  confidence := some link.confidence
  medium := link.medium
  vlan := link.vlan
  aPort := link.aPort
  bPort := link.bPort
  aIf := link.aIf
  bIf := link.bIf

def knownNids (devices : List NetDeviceRow) : List String :=
  (devices.map (·.deviceNid)).filter (· ≠ "")

def probeAll (C : Collectors) (now : String) (devices rows : List NetDeviceRow) : ProbeState :=
  devices.foldl (probeDevice T C (knownNids devices) now) { netDevices := rows }

/-- One cycle at time `now`; `lockFree` says that no other cycle holds the lock. -/
def runTopologyCycle (cfg : TopologyConfig) (C : Collectors) (ageSeconds : String → Option ℚ)
    (now : String) (lockFree : Bool) (db : NetDb) : NetDb × CycleResult :=
  if ¬ cfg.enabled then (db, { links := 0, probed := 0, busy := false })
  else if ¬ lockFree then (db, { links := 0, probed := 0, busy := true })
  else
    let devices := getNetDevices db.netDevices
    let s := probeAll T C now devices db.netDevices
    let links := fuse T s.evidence
    let aged := staleLifecycle ageSeconds cfg.missingAfterSec devices
    ({ netDevices := aged.foldl (fun rows a => setNetDeviceStatus a.1 a.2 rows) s.netDevices
       netLinks := replaceNetLinks (links.map linkRow) s.probedNids now db.netLinks },
     { links := links.length, probed := s.probedNids.length, busy := false })

end Srp.Netdisco
