/-
  Srp/Netdisco/AdapterMerge.lean
  ==============================
  **Adapter links** (`merge_adapter_links` of `server/netdisco/adapter_merge.py`)
  beside the links of the topology cycle.

  Both cycles write `net_links`.  The adapter merge only inserts, so it never
  touches a row of the other cycle.  The topology cycle deletes every link of a
  probed node that its own evidence does not re-derive, and no SNMP evidence
  re-derives an adapter link.  `additive_iff` says which runs keep those.
-/
import Srp.Lib.Machine
import Srp.Netdisco.SilentProbe

namespace Srp.Netdisco

open Srp.Lib Srp.Lib.Table Srp.Db

/-! ### The links of one adapter result -/

/-- A link hint between two endpoints that are known by their MACs. -/
structure AdapterLink where
  aMac : String
  bMac : String
  aPort : Option String := none
  bPort : Option String := none
  medium : Option String := none
deriving DecidableEq, Repr

variable (T : PyText)

/-- `by_mac`: the first known device of each MAC. -/
def nidByMac (knownDevices : List NetDeviceRow) (mac : String) : Option String :=
  (knownDevices.find? fun dev => dev.deviceNid ≠ "" ∧ normalizeMac T dev.mac = some mac).map
    (·.deviceNid)

/-- `_resolve`: the id of an endpoint, `none` when its MAC is malformed. -/
def resolveMac (knownDevices : List NetDeviceRow) (mac : String) : Option String :=
  (normalizeMac T (some mac)).bind fun nm =>
    match nidByMac T knownDevices nm with
    | some known => some known
    | none =>
      let nid := deviceNid T none none (some mac) none
      if nid = "nd-unknown" then none else some nid

def portMax : Nat := 64

/-- `_clean_port`: a bounded port label without control characters. -/
def cleanPort (value : Option String) : Option String :=
  value.bind fun value =>
    let text := strip T value
    if text = [] ∨ portMax < text.length ∨
        text.any (fun c => decide (c.toNat < 0x20) || c.toNat == 0x7F) then none
    else some (String.ofList text)

def maxAdapterLinks : Nat := 4096

def adapterLinkDict (via : String) (link : AdapterLink) (a b : String) : LinkDict where
  aNid := some a
  bNid := some b
  linkKind := some "adapter"
  viaSource := some via
  confidence := some "low"
  medium := link.medium
  aPort := cleanPort T link.aPort
  bPort := cleanPort T link.bPort

/-- The loop of `merge_adapter_links`, as the links that it hands to `add_link`: one for each
    pair of distinct well-formed endpoints. -/
def adapterLinkDicts (knownDevices : List NetDeviceRow) (via : String) :
    List (String × String) → List AdapterLink → List LinkDict
  | _, [] => []
  | seen, link :: links =>
    if maxAdapterLinks ≤ seen.length then []
    else
      match resolveMac T knownDevices link.aMac, resolveMac T knownDevices link.bMac with
      | some a, some b =>
        let pair := if a ≤ b then (a, b) else (b, a)
        if a = b ∨ pair ∈ seen then adapterLinkDicts knownDevices via seen links
        else adapterLinkDict T via link a b ::
          adapterLinkDicts knownDevices via (pair :: seen) links
      | _, _ => adapterLinkDicts knownDevices via seen links

/-- One call of `merge_adapter_links`. -/
structure AdapterMerge where
  links : List AdapterLink
  knownDevices : List NetDeviceRow
  adapterType : String
  now : String

def AdapterMerge.dicts (m : AdapterMerge) : List LinkDict :=
  adapterLinkDicts T m.knownDevices
    (if m.adapterType = "" then "adapter" else "adapter:" ++ m.adapterType) [] m.links

def mergeAdapterLinks (m : AdapterMerge) (rows : List NetLinkRow) : List NetLinkRow :=
  (m.dicts T).foldl (addAdapterLink m.now) rows

/-! ### The two writers of `net_links` -/

inductive LinkStep where
  /-- `replace_net_links` with the fused links of the cycle's evidence -/
  | topologyCycle (evidence : List LinkEvidence) (probedNids : List String) (now : String)
  | adapterMerge (m : AdapterMerge)

def netLinks : Machine (List NetLinkRow) LinkStep Unit where
  next rows
    | .topologyCycle evidence probedNids now =>
      replaceNetLinks ((fuse T evidence).map linkRow) probedNids now rows
    | .adapterMerge m => mergeAdapterLinks T m rows
  out _ _ := ()

/-- The merge hands a link of this row to `add_adapter_link`. -/
def AdapterMerge.Reports (m : AdapterMerge) (r : NetLinkRow) : Prop :=
  r.key ∈ ((m.dicts T).filterMap (adapterLinkRow m.now)).map (·.key)

def LinkStep.ReportsIfMerge (r : NetLinkRow) : LinkStep → Prop
  | .topologyCycle _ _ _ => True
  | .adapterMerge m => m.Reports T r

/-- The step is a topology cycle that probed an end of the row. -/
def LinkStep.Probes (r : NetLinkRow) : LinkStep → Prop
  | .topologyCycle _ probedNids _ => Incident (probedNids.filter (· ≠ "")) r
  | .adapterMerge _ => False

/-- The row is in the table, with its `first_seen`. -/
def Kept (r : NetLinkRow) (rows : List NetLinkRow) : Prop :=
  ∃ r' ∈ rows, r'.key = r.key ∧ r'.firstSeen = r.firstSeen

instance (r : NetLinkRow) : ∀ s : LinkStep, Decidable (s.ReportsIfMerge T r)
  | .topologyCycle _ _ _ => inferInstanceAs (Decidable True)
  | .adapterMerge _ => inferInstanceAs (Decidable (r.key ∈ _))

instance (r : NetLinkRow) (rows : List NetLinkRow) : Decidable (Kept r rows) :=
  inferInstanceAs (Decidable (∃ r' ∈ rows, r'.key = r.key ∧ r'.firstSeen = r.firstSeen))

/-- The table of the run after its first `i` steps. -/
def tableAt (rows : List NetLinkRow) (steps : List LinkStep) (i : Nat) : List NetLinkRow :=
  (netLinks T).stateAfter rows (steps.take i)

/-- An adapter row of the table after `i` steps that every later merge reports. -/
structure ReportedFrom (rows : List NetLinkRow) (steps : List LinkStep) (i : Nat)
    (r : NetLinkRow) : Prop where
  stored : r ∈ tableAt T rows steps i
  adapter : r.linkKind = some "adapter"
  reported : ∀ s ∈ steps.drop i, s.ReportsIfMerge T r

/-- Adapter rows that stay reported stay in the table with their `first_seen`, and a merge
    leaves every row of the table as it is. -/
structure Additive (rows : List NetLinkRow) (steps : List LinkStep) : Prop where
  rowsKept : ∀ i r, ReportedFrom T rows steps i r → ∀ k, Kept r (tableAt T rows steps (i + k))
  mergesAdd : ∀ (i : Nat) m, steps[i]? = some (.adapterMerge m) →
    tableAt T rows steps i <+: tableAt T rows steps (i + 1)

/-! ### One step -/

section Steps

variable {T}

theorem prefix_mergeAdapterLinks (m : AdapterMerge) (rows : List NetLinkRow) :
    rows <+: mergeAdapterLinks T m rows := by
  simp only [mergeAdapterLinks]
  induction m.dicts T generalizing rows with
  | nil => exact List.prefix_rfl
  | cons link links ih =>
    rw [List.foldl_cons]
    exact (prefix_addAdapterLink m.now rows link).trans (ih _)

/-- Fusion derives edges and trunks, never an adapter link. -/
theorem not_rederived_of_adapter {evs : List LinkEvidence} {r : NetLinkRow}
    (h : r.linkKind = some "adapter") : ¬ Rederived T evs r := by
  rintro ⟨e, _, _, hkind⟩
  rw [h, linkKind] at hkind
  split at hkind
  · exact absurd (Option.some.inj hkind) (by decide)
  · exact absurd (Option.some.inj hkind) (by decide)

/-- A step keeps an adapter row exactly when it does not probe one of its ends. -/
theorem kept_next_iff {r : NetLinkRow} (hr : r.linkKind = some "adapter")
    {rows : List NetLinkRow} (hkept : Kept r rows) (s : LinkStep) :
    ¬ s.Probes r ↔ Kept r ((netLinks T).next rows s) := by
  obtain ⟨r', hmem, hkey, hfirst⟩ := hkept
  have ha : r'.aNid = r.aNid := congrArg (·.1) hkey
  have hb : r'.bNid = r.bNid := congrArg (·.2.1) hkey
  have hkind : r'.linkKind = some "adapter" := (congrArg (·.2.2) hkey).trans hr
  cases s with
  | adapterMerge m =>
    simp only [LinkStep.Probes, not_false_eq_true, true_iff]
    exact ⟨r', (prefix_mergeAdapterLinks m rows).subset hmem, hkey, hfirst⟩
  | topologyCycle evidence probedNids now =>
    have hnew : r'.key ∉
        (((fuse T evidence).map linkRow).filterMap (canonLink now)).map (·.key) := by
      rw [mem_fused_keys]
      exact not_rederived_of_adapter hkind
    constructor
    · intro hfree
      refine ⟨r', mem_replaceNetLinks hmem hnew ?_, hkey, hfirst⟩
      simpa only [LinkStep.Probes, Incident, ha, hb] using hfree
    · rintro ⟨q, hq, hqkey, _⟩ hprobe
      have hin := mem_keys_replaceNetLinks.mp (List.mem_map_of_mem (f := NetLinkRow.key) hq)
      rw [hqkey, ← hkey] at hin
      rcases hin with hderived | ⟨_, hna, hnb⟩
      · exact hnew hderived
      · simp only [NetLinkRow.key, ha, hb] at hna hnb
        exact hprobe.elim hna hnb

/-- A run keeps an adapter row at every point exactly when no cycle of it probes an end. -/
theorem kept_iff {r : NetLinkRow} (hr : r.linkKind = some "adapter") {rows : List NetLinkRow}
    (hkept : Kept r rows) (steps : List LinkStep) :
    (∀ k, Kept r ((netLinks T).stateAfter rows (steps.take k))) ↔
      ∀ s ∈ steps, ¬ s.Probes r := by
  have hstep : ∀ rows s, Kept r rows →
      (¬ LinkStep.Probes r s ↔ Kept r ((netLinks T).next rows s)) :=
    fun rows s h => kept_next_iff hr h s
  rw [← Machine.along_iff_invariant hstep hkept steps, Machine.along_iff_forall]

end Steps

/-! ### Whole runs -/

/-- **When the adapter links are additive.**  No topology cycle may probe an end of an adapter
    row that the later merges go on reporting. -/
theorem additive_iff (rows : List NetLinkRow) (steps : List LinkStep) :
    Additive T rows steps ↔ ∀ i r, ReportedFrom T rows steps i r →
      ∀ s ∈ steps.drop i, ¬ s.Probes r := by
  have hrun : ∀ i r, ReportedFrom T rows steps i r →
      ((∀ k, Kept r (tableAt T rows steps (i + k))) ↔
        ∀ s ∈ steps.drop i, ¬ s.Probes r) := by
    intro i r h
    simp only [tableAt, Machine.stateAfter_take_add]
    exact kept_iff h.adapter ⟨r, h.stored, rfl, rfl⟩ (steps.drop i)
  constructor
  · intro h i r hr
    exact (hrun i r hr).mp (h.rowsKept i r hr)
  · intro h
    refine ⟨fun i r hr => (hrun i r hr).mpr (h i r hr), ?_⟩
    intro i m hm
    simp only [tableAt]
    rw [Machine.stateAfter_take_succ _ _ hm]
    exact prefix_mergeAdapterLinks m _

/-! ### A controller that reports the uplink of a switch -/

private def uplinkMerge (now : String) : AdapterMerge where
  links := [{ aMac := "00:11:22:33:44:55", bMac := "66:77:88:99:AA:BB" }]
  knownDevices :=
    [{ deviceNid := "nd-chassis-SW1", mac := some "00-11-22-33-44-55" },
     { deviceNid := "nd-chassis-SW2", mac := some "66-77-88-99-AA-BB" }]
  adapterType := "unifi"
  now := now

private def uplinkRun : List LinkStep :=
  [.adapterMerge (uplinkMerge "2026-01-01T00:00:00+00:00"),
   .topologyCycle [] ["nd-chassis-SW1"] "2026-01-01T00:05:00+00:00",
   .adapterMerge (uplinkMerge "2026-01-01T00:10:00+00:00")]

private def uplinkRow : NetLinkRow :=
  { aNid := "nd-chassis-SW1", bNid := "nd-chassis-SW2", linkKind := some "adapter",
    viaSource := some "adapter:unifi", confidence := some "low",
    firstSeen := some "2026-01-01T00:00:00+00:00",
    lastSeen := some "2026-01-01T00:00:00+00:00" }

theorem uplinkRun_not_additive : ¬ Additive (.ascii fun _ => none) [] uplinkRun := by
  intro h
  have hreported : ReportedFrom (.ascii fun _ => none) [] uplinkRun 1 uplinkRow := by
    refine ⟨?_, rfl, ?_⟩
    · decide +kernel
    · decide +kernel
  have hgone := h.rowsKept 1 uplinkRow hreported 1
  revert hgone
  decide +kernel

end Srp.Netdisco
