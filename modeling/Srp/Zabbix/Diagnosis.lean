/-
  Srp/Zabbix/Diagnosis.lean
  =========================
  **Which hosts the diagnosis ever gets to.**

  A diagnosis probes the first hosts of the packet, at most fifty.  Those that Zabbix
  refuses are put on backoff and leave the next packets; those that it takes stay at the
  front and are probed again the next time.  So the diagnoses go down the packet only by
  as many hosts as they have put on backoff, and the hosts above the cap, which the log
  promises to check the next time, are checked only if enough of the hosts before them
  are refused (`passes_cover_iff`).
-/
import Srp.Lib.CappedSweep
import Srp.Zabbix.ExportValues

namespace Srp.Zabbix

open Srp.Lib.CappedSweep Srp.Lib.GroupBy Srp.Lib.IsoTime

/-! ### The packet without the hosts on backoff -/

/-- The hosts that a packet has when none is on backoff, in its order. -/
def exportable (U : UnicodeData) (rows : List VerdictRow) (cfg : ZabbixConfig) : List String :=
  (exported U rows cfg []).map (·.1)

section Packet

variable {U : UnicodeData} {rows : List VerdictRow} {cfg : ZabbixConfig} {now : Instant}
  {backoff : List String} {packet : Packet}

theorem admitHost_backoff (host : String) (group : List (String × VerdictRow)) :
    (admitHost backoff host group).1.map (·.1) =
      ((admitHost [] host group).1.map (·.1)).filter (· ∉ backoff) := by
  unfold admitHost
  split
  · by_cases h : host ∈ backoff <;> simp [h]
  · rfl

theorem exported_backoff :
    (exported U rows cfg backoff).map (·.1) =
      (exportable U rows cfg).filter (· ∉ backoff) := by
  unfold exportable exported admitted
  rw [List.flatMap_map, List.flatMap_map, List.map_flatMap, List.map_flatMap, List.filter_flatMap]
  exact List.flatMap_congr fun host _ => admitHost_backoff host _

theorem packet_hosts (h : buildPacket U rows cfg now backoff = .ok packet) :
    packet.hosts.map (·.1) = (exportable U rows cfg).filter (· ∉ backoff) :=
  (hosts_eq h).trans exported_backoff

theorem exportable_nodup : (exportable U rows cfg).Nodup := exported_nodup

end Packet

/-! ### Cycles with a diagnosis and without one -/

def Outcome.rejected : Outcome → List String
  | .done _ _ _ _ hosts => hosts
  | _ => []

/-- The hosts on backoff. -/
def ExportState.held (s : ExportState) : List String := s.heldUntil.map (·.1)

/-- No backoff has ended when the cycle looks. -/
def Kept (env : Cycle) (s : ExportState) : Prop := ∀ e ∈ s.heldUntil, env.activeAt < e.2

section Cycles

variable (U : UnicodeData) (cfg : ZabbixConfig) (rows : List VerdictRow) (env : Cycle)
  (s : ExportState) (packet : Packet)

/-- The cycle sends this packet, some of it is not taken, and the last diagnosis was long ago. -/
structure Diagnosed : Prop where
  runs : Runs cfg false env s
  built : buildPacket U rows cfg env.now (leftOut false env s) = .ok packet
  accepted : env.fleet.Accepted (batches packet.items.length)
  diagnoses : Diagnoses env s.lastDiagnoseAt packet

/-- The diagnosis goes through: the hosts are those of the fleet, every probe goes out in time
and is answered, and what is refused is what Zabbix rejects. -/
structure Completed (names rejected : List String) : Prop
    extends Diagnosed U cfg rows env s packet where
  fleet : exportable U rows cfg = names
  inTime : ∀ host ∈ (packet.hosts.map (·.1)).take diagnoseHostCap,
    env.hostAt host ≤ env.diagnoseAt + diagnoseBudgetSec
  answered : ∀ host ∈ (packet.hosts.map (·.1)).take diagnoseHostCap,
    (env.hostProbe host).Accepted 1
  truthful : ∀ host ∈ (packet.hosts.map (·.1)).take diagnoseHostCap,
    (env.hostProbe host).Refuses 1 ↔ host ∈ rejected

variable {U cfg rows env s packet} {names rejected : List String}

theorem backoffActive_of_kept (h : Kept env s) :
    backoffActive s.heldUntil env.activeAt = s.heldUntil :=
  List.filter_eq_self.mpr fun e he => by simpa using h e he

theorem leftOut_of_kept (h : Kept env s) : leftOut false env s = s.held := by
  simp [leftOut, backoffActive_of_kept h, ExportState.held]

theorem runExportCycle_of_runs (h : Runs cfg false env s) :
    runExportCycle U rows cfg false env s = run U rows cfg env s := by
  simp [runExportCycle, h.1, h.2.2]

/-- The hosts that pass A finds when every probe is answered. -/
theorem probeHosts_answered {budget : ℚ} {hosts : List String}
    (htime : ∀ host ∈ hosts, env.hostAt host ≤ budget)
    (hanswer : ∀ host ∈ hosts, (env.hostProbe host).Accepted 1)
    (htruth : ∀ host ∈ hosts, (env.hostProbe host).Refuses 1 ↔ host ∈ rejected) :
    (probeHosts env budget hosts).2 = hosts.filter (· ∈ rejected) := by
  induction hosts with
  | nil => rfl
  | cons host hosts ih =>
    simp only [List.forall_mem_cons] at htime hanswer htruth
    have hrest := ih htime.2 hanswer.2 htruth.2
    have hfailed := (probe_failed_iff ⟨host, "srp.state", "unknown"⟩ hanswer.1).trans htruth.1
    rw [probeHosts, if_neg (not_lt.mpr htime.1)]
    simp only [probe_answered _ hanswer.1, Bool.false_eq_true, if_false, hrest]
    by_cases hmem : host ∈ rejected
    · rw [if_pos (hfailed.mpr hmem), List.filter_cons_of_pos (by simpa using hmem)]
    · rw [if_neg (mt hfailed.mp hmem), List.filter_cons_of_neg (by simpa using hmem)]

theorem mem_backoffAdd {store : List (String × ℚ)} {hosts : List String} {now : ℚ} {host : String} :
    host ∈ (backoffAdd store hosts now).map (·.1) ↔ host ∈ store.map (·.1) ∨ host ∈ hosts := by
  unfold backoffAdd
  rw [List.map_append, List.mem_append, List.map_map]
  constructor
  · rintro (h | h)
    · obtain ⟨e, he, rfl⟩ := List.mem_map.mp h
      exact .inl (List.mem_map_of_mem (List.mem_filter.mp he).1)
    · exact .inr (by simpa using h)
  · intro h
    by_cases hnew : host ∈ hosts
    · exact .inr (by simpa using hnew)
    · obtain ⟨e, he, rfl⟩ := List.mem_map.mp (h.resolve_right hnew)
      exact .inl (List.mem_map_of_mem (List.mem_filter.mpr ⟨he, by simpa using hnew⟩))

theorem heldUntil_map : s.heldUntil.map (·.1) = s.held := rfl

theorem diagnose_cooled (h : ¬ ∀ last ∈ s.lastDiagnoseAt,
    diagnoseCooldownSec ≤ env.diagnoseAt - last) : diagnose env packet s = ⟨[], [], s⟩ := by
  have hcool : (s.lastDiagnoseAt.any fun last =>
      decide (env.diagnoseAt - last < diagnoseCooldownSec)) = true := by
    cases hlast : s.lastDiagnoseAt with
    | none => simp [hlast] at h
    | some last => simpa [hlast] using h
  rw [diagnose, if_pos hcool]

/-- What a completed diagnosis finds are the rejected ones among the first hosts that are left. -/
theorem diagnose_completed (h : Completed U cfg rows env s packet names rejected)
    (hkept : Kept env s) :
    (diagnose env packet s).unknownHosts =
        ((names.filter (· ∉ s.held)).take diagnoseHostCap).filter (· ∈ rejected) ∧
      ∀ host, host ∈ (diagnose env packet s).state.held ↔
        host ∈ s.held ∨ host ∈ (diagnose env packet s).unknownHosts := by
  have hhosts := packet_hosts h.built
  rw [h.fleet, leftOut_of_kept hkept] at hhosts
  have hrested : ¬ (s.lastDiagnoseAt.any fun last =>
      decide (env.diagnoseAt - last < diagnoseCooldownSec)) = true := by
    have hlast := h.diagnoses.2
    cases hs : s.lastDiagnoseAt with
    | none => simp
    | some last => simpa [hs] using hlast
  have hfound := probeHosts_answered h.inTime h.answered h.truthful
  rw [hhosts] at hfound
  rw [diagnose, if_neg hrested]
  simp only [hhosts, hfound, true_and]
  intro host
  split_ifs with hnone
  · rw [hnone]
    simp [ExportState.held]
  · exact mem_backoffAdd

theorem cycle_completed (h : Completed U cfg rows env s packet names rejected)
    (hkept : Kept env s) :
    (runExportCycle U rows cfg false env s).outcome.rejected =
        ((names.filter (· ∉ s.held)).take diagnoseHostCap).filter (· ∈ rejected) ∧
      ∀ host, host ∈ (runExportCycle U rows cfg false env s).state.held ↔
        host ∈ s.held ∨ host ∈ (runExportCycle U rows cfg false env s).outcome.rejected := by
  have hnone : (send env.fleet packet.items).2.error = none := send_error_none_iff.mpr h.accepted
  have hfailed := (send_failed_iff h.accepted).mpr h.diagnoses.1
  have hbuilt := h.built
  rw [leftOut_of_kept hkept] at hbuilt
  rw [runExportCycle_of_runs h.runs, run]
  simp only [backoffActive_of_kept hkept, heldUntil_map, hbuilt]
  simp only [hnone, Option.isNone_none, hfailed, ne_eq, not_false_iff, and_self, if_true]
  exact diagnose_completed h hkept

/-- A cycle without a diagnosis leaves the backoffs as they are. -/
theorem cycle_quiet (h : ¬ ∃ packet, Diagnosed U cfg rows env s packet) (hkept : Kept env s) :
    (runExportCycle U rows cfg false env s).outcome.rejected = [] ∧
      (runExportCycle U rows cfg false env s).state.held = s.held := by
  by_cases hruns : Runs cfg false env s
  · rw [runExportCycle_of_runs hruns, run]
    simp only [backoffActive_of_kept hkept, heldUntil_map]
    cases hbuilt : buildPacket U rows cfg env.now s.held with
    | error e => exact ⟨rfl, rfl⟩
    | ok packet =>
      have hquiet : ¬ (env.fleet.Accepted (batches packet.items.length) ∧
          Diagnoses env s.lastDiagnoseAt packet) := by
        rintro ⟨haccepted, hdiagnoses⟩
        rw [← leftOut_of_kept hkept] at hbuilt
        exact h ⟨packet, hruns, hbuilt, haccepted, hdiagnoses⟩
      simp only
      split_ifs with hfailed
      · have haccepted := send_error_none_iff.mp (Option.isNone_iff_eq_none.mp hfailed.1)
        have hrefuses := (send_failed_iff haccepted).mp hfailed.2
        have hcooling : ¬ ∀ last ∈ s.lastDiagnoseAt,
            diagnoseCooldownSec ≤ env.diagnoseAt - last :=
          fun hrested => hquiet ⟨haccepted, hrefuses, hrested⟩
        rw [diagnose_cooled hcooling]
        exact ⟨rfl, rfl⟩
      · exact ⟨rfl, rfl⟩
  · rw [runExportCycle]
    by_cases hserver : cfg.server = ""
    · simp [hserver, Outcome.rejected]
    · have hlock : ¬ env.lockFree = true := fun hlock => hruns ⟨hserver, by simp, hlock⟩
      simp [hserver, hlock, Outcome.rejected]

end Cycles

/-! ### A run with several diagnoses -/

section Passes

variable (U : UnicodeData) (cfg : ZabbixConfig) (names rejected : List String)
  (s₀ : ExportState)

/-- A run of cycles that nobody forced and in which no backoff ends, with `k` completed
diagnoses and no others; the results of the cycles, and the state at the end. -/
inductive Passes : Nat → List CycleResult → ExportState → Prop
  | start : Passes 0 [] s₀
  | quiet {k : Nat} {results : List CycleResult} {s : ExportState} {rows : List VerdictRow}
      {env : Cycle} : Passes k results s → Kept env s →
      (¬ ∃ packet, Diagnosed U cfg rows env s packet) →
      Passes k (results ++ [runExportCycle U rows cfg false env s])
        (runExportCycle U rows cfg false env s).state
  | diagnosed {k : Nat} {results : List CycleResult} {s : ExportState} {rows : List VerdictRow}
      {env : Cycle} {packet : Packet} : Passes k results s → Kept env s →
      Completed U cfg rows env s packet names rejected →
      Passes (k + 1) (results ++ [runExportCycle U rows cfg false env s])
        (runExportCycle U rows cfg false env s).state

/-- The hosts of the packet at the start. -/
def fleet : List String := names.filter (· ∉ s₀.held)

/-- A pass found that Zabbix refuses the host, and it is on backoff. -/
def Settled (results : List CycleResult) (s : ExportState) (host : String) : Prop :=
  (∃ r ∈ results, host ∈ r.outcome.rejected) ∧ host ∈ s.held

/-- The hosts that `k` completed diagnoses take out of the packet. -/
def foundBy (k : Nat) : List String :=
  found diagnoseHostCap (fun host => decide (host ∈ rejected)) (fleet names s₀) k

variable {U cfg names rejected s₀} {k : Nat} {results : List CycleResult} {s : ExportState}

/-- After `k` diagnoses: what they have found is what is on backoff since the start. -/
structure Found (names rejected : List String) (s₀ : ExportState) (k : Nat)
    (results : List CycleResult) (s : ExportState) : Prop where
  results : ∀ host, (∃ r ∈ results, host ∈ r.outcome.rejected) ↔
    host ∈ foundBy names rejected s₀ k
  held : ∀ host, host ∈ s.held ↔ host ∈ s₀.held ∨ host ∈ foundBy names rejected s₀ k

theorem fleet_without (h : Found names rejected s₀ k results s) :
    names.filter (· ∉ s.held) =
      (fleet names s₀).filter (· ∉ foundBy names rejected s₀ k) := by
  rw [fleet, List.filter_filter]
  refine List.filter_congr fun host _ => ?_
  simp [h.held host, not_or, and_comm]

theorem foundBy_succ (hnames : names.Nodup) (h : Found names rejected s₀ k results s) :
    foundBy names rejected s₀ (k + 1) = foundBy names rejected s₀ k ++
      ((names.filter (· ∉ s.held)).take diagnoseHostCap).filter (· ∈ rejected) := by
  rw [fleet_without h]
  exact found_succ (hnames.filter _) k

theorem found_of_passes (hnames : names.Nodup)
    (h : Passes U cfg names rejected s₀ k results s) : Found names rejected s₀ k results s := by
  induction h with
  | start =>
    constructor
    · simp [foundBy, found, reach]
    · simp [foundBy, found, reach]
  | quiet hpasses hkept hquiet ih =>
    obtain ⟨hrejected, hheld⟩ := cycle_quiet hquiet hkept
    constructor
    · intro host
      simp [or_and_right, exists_or, hrejected, ih.results host]
    · intro host
      rw [hheld]
      exact ih.held host
  | diagnosed hpasses hkept hcompleted ih =>
    obtain ⟨hrejected, hheld⟩ := cycle_completed hcompleted hkept
    have hsucc := foundBy_succ hnames ih
    rw [← hrejected] at hsucc
    constructor
    · intro host
      rw [hsucc, List.mem_append, ← ih.results host]
      simp [or_and_right, exists_or]
    · intro host
      rw [hheld, ih.held host, hsucc, List.mem_append, or_assoc]

/-- The passes after which the log lets one expect every host to have been probed. -/
def passesFor (n : Nat) : Nat := (n + diagnoseHostCap - 1) / diagnoseHostCap

/-- How far down the packet `k` diagnoses get: fifty hosts, and as many more as the earlier
ones have found to be refused. -/
def reached (names rejected : List String) (s₀ : ExportState) (k : Nat) : Nat :=
  reach diagnoseHostCap (fun host => decide (host ∈ rejected)) (fleet names s₀) k

theorem mem_foundBy {host : String} : host ∈ foundBy names rejected s₀ k ↔
    host ∈ (fleet names s₀).take (reached names rejected s₀ k) ∧ host ∈ rejected := by
  unfold foundBy found reached
  rw [List.mem_filter, decide_eq_true_eq]

theorem settled_iff (hnames : names.Nodup) (h : Passes U cfg names rejected s₀ k results s)
    {host : String} (hfleet : host ∈ fleet names s₀) (hrejected : host ∈ rejected) :
    Settled results s host ↔ host ∈ (fleet names s₀).take (reached names rejected s₀ k) := by
  have hfound := found_of_passes hnames h
  have hnew : host ∉ s₀.held := by simpa using (List.mem_filter.mp hfleet).2
  unfold Settled
  rw [hfound.results, hfound.held, mem_foundBy]
  simp [hrejected, hnew]

/-- Fifty hosts that Zabbix takes hide all hosts behind them from every diagnosis. -/
theorem not_settled_behind (hnames : names.Nodup)
    (h : Passes U cfg names rejected s₀ k results s) {front back : List String}
    (hsplit : fleet names s₀ = front ++ back)
    (htaken : diagnoseHostCap ≤ front.countP fun host => !decide (host ∈ rejected))
    {host : String} (hback : host ∈ back) (hrejected : host ∈ rejected) :
    ¬ Settled results s host := by
  have hfleet : host ∈ fleet names s₀ := hsplit ▸ List.mem_append_right front hback
  have hreach : reached names rejected s₀ k ≤ front.length :=
    reach_le_of_good (hsplit ▸ List.prefix_append front back) htaken k
  have hdistinct : (front ++ back).Nodup := hsplit ▸ hnames.filter _
  rw [settled_iff hnames h hfleet hrejected, hsplit, List.take_append_of_le_length hreach]
  intro hfront
  exact (List.nodup_append.mp hdistinct).2.2 host (List.mem_of_mem_take hfront) host hback rfl

end Passes

/-- After as many completed diagnoses as the cap divides the fleet into, every rejected host has
been found and put on backoff if and only if they all stand where those diagnoses get to. -/
theorem passes_cover_iff (U : UnicodeData) (cfg : ZabbixConfig) (rows : List VerdictRow)
    (rejected : List String) (s₀ : ExportState) {results : List CycleResult} {s : ExportState}
    (h : Passes U cfg (exportable U rows cfg) rejected s₀
      (passesFor (fleet (exportable U rows cfg) s₀).length) results s) :
    (∀ host ∈ fleet (exportable U rows cfg) s₀, host ∈ rejected → Settled results s host) ↔
      ∀ host ∈ fleet (exportable U rows cfg) s₀, host ∈ rejected →
        host ∈ (fleet (exportable U rows cfg) s₀).take
          (reached (exportable U rows cfg) rejected s₀
            (passesFor (fleet (exportable U rows cfg) s₀).length)) :=
  forall₂_congr fun _ hfleet => imp_congr_right fun hrejected =>
    settled_iff exportable_nodup h hfleet hrejected

/-! ### Fifty-one machines -/

theorem promptChannel_accepted (failed n : Nat) : (promptChannel failed).Accepted n := by
  intro i _
  refine ⟨?_, rfl⟩
  simp only [promptChannel, maxTotalSec]
  norm_num

theorem promptChannel_refuses {failed n : Nat} :
    (promptChannel failed).Refuses n ↔ 0 < n ∧ failed ≠ 0 := by
  simp only [Channel.Refuses, promptChannel, Answer.failed, Option.getD_some]
  constructor
  · rintro ⟨i, hi, hfailed⟩
    exact ⟨by omega, hfailed⟩
  · rintro ⟨hn, hfailed⟩
    exact ⟨0, hn, hfailed⟩

/-- Machines named by the numbers below `n`, without a verdict. -/
def crowd (n : Nat) : List VerdictRow :=
  (List.range n).map fun i =>
    ⟨none, some (toString i), none, none, none, none, none, none, none, none, none⟩

/-- A cycle at time `t` in which Zabbix refuses one of these machines. -/
def crowdCycle (bad : String) (t : ℚ) : Cycle :=
  { partialRefusal with
    diagnoseAt := t
    hostProbe := fun host => promptChannel (if host = bad then 1 else 0) }

theorem crowd_completed {n : Nat} {bad : String} {t : ℚ} {s : ExportState} {packet : Packet}
    (hbuilt : buildPacket .ascii (crowd n) plainConfig partialRefusal.now [] = .ok packet)
    (hitems : packet.items ≠ []) (ht : 0 ≤ t) (hheld : s.heldUntil = [])
    (hlast : ∀ last ∈ s.lastDiagnoseAt, diagnoseCooldownSec ≤ t - last) :
    Completed .ascii plainConfig (crowd n) (crowdCycle bad t) s packet
      (exportable .ascii (crowd n) plainConfig) [bad] := by
  have hkept : Kept (crowdCycle bad t) s := by simp [Kept, hheld]
  have hsome : 0 < batches packet.items.length := by
    have := List.length_pos_of_ne_nil hitems
    unfold batches
    omega
  refine ⟨⟨⟨by decide, by simp, rfl⟩, ?_, promptChannel_accepted 1 _,
    promptChannel_refuses.mpr ⟨hsome, by decide⟩, hlast⟩, rfl, ?_, ?_, ?_⟩
  · rw [leftOut_of_kept hkept, ExportState.held, hheld]
    exact hbuilt
  · intro host _
    exact add_nonneg ht (by norm_num [diagnoseBudgetSec])
  · intro host _
    exact promptChannel_accepted _ 1
  · intro host _
    simp [crowdCycle, promptChannel_refuses]

theorem crowd_packet {n : Nat}
    (hbuilt : (buildPacket .ascii (crowd n) plainConfig partialRefusal.now []).toOption.any
      (fun packet => packet.items ≠ []) = true) : ∃ packet,
    buildPacket .ascii (crowd n) plainConfig partialRefusal.now [] = .ok packet ∧
      packet.items ≠ [] := by
  cases h : buildPacket .ascii (crowd n) plainConfig partialRefusal.now [] with
  | error e => simp [h, Except.toOption] at hbuilt
  | ok packet => exact ⟨packet, rfl, by simpa [h, Except.toOption] using hbuilt⟩

theorem firstCycle_kept (env : Cycle) : Kept env firstCycle :=
  fun _ he => absurd he List.not_mem_nil

theorem passes_one {n : Nat} {bad : String} {packet : Packet}
    (hbuilt : buildPacket .ascii (crowd n) plainConfig partialRefusal.now [] = .ok packet)
    (hitems : packet.items ≠ []) :
    Passes .ascii plainConfig (exportable .ascii (crowd n) plainConfig) [bad] firstCycle 1
      [runExportCycle .ascii (crowd n) plainConfig false (crowdCycle bad 0) firstCycle]
      (runExportCycle .ascii (crowd n) plainConfig false (crowdCycle bad 0) firstCycle).state :=
  Passes.start.diagnosed (firstCycle_kept _) (crowd_completed hbuilt hitems le_rfl rfl
    fun _ hnone => absurd hnone (by simp [firstCycle]))

/-- A machine alone in the fleet is found by the first diagnosis. -/
theorem passes_cover_alone :
    Settled [runExportCycle .ascii (crowd 1) plainConfig false (crowdCycle "0" 0) firstCycle]
      (runExportCycle .ascii (crowd 1) plainConfig false (crowdCycle "0" 0) firstCycle).state
      "0" := by
  obtain ⟨packet, hbuilt, hitems⟩ := crowd_packet (n := 1) (by decide +kernel)
  have hhosts : fleet (exportable .ascii (crowd 1) plainConfig) firstCycle = ["0"] := by
    decide +kernel
  have hcover := @passes_cover_iff .ascii plainConfig (crowd 1) ["0"] firstCycle _ _ (by
    rw [hhosts]
    exact passes_one hbuilt hitems)
  rw [hhosts] at hcover
  exact hcover.mpr (by decide +kernel) "0" (List.mem_singleton_self "0") (List.mem_singleton_self "0")

/-- The first diagnosis of fifty-one machines finds nothing when only the last one is refused. -/
theorem crowd_first :
    (runExportCycle .ascii (crowd 51) plainConfig false (crowdCycle "50" 0)
        firstCycle).state.lastDiagnoseAt = some 0 ∧
      (runExportCycle .ascii (crowd 51) plainConfig false (crowdCycle "50" 0)
        firstCycle).state.heldUntil = [] := by
  decide +kernel

theorem crowd_hosts :
    fleet (exportable .ascii (crowd 51) plainConfig) firstCycle =
      (List.range 50).map toString ++ ["50"] := by
  decide +kernel

/-- Two diagnoses of fifty-one machines do not probe the last one, which Zabbix refuses. -/
theorem fifty_first_not_probed :
    ∃ results s, Passes .ascii plainConfig (exportable .ascii (crowd 51) plainConfig) ["50"]
        firstCycle (passesFor (fleet (exportable .ascii (crowd 51) plainConfig) firstCycle).length)
        results s ∧
      ¬ ∀ host ∈ fleet (exportable .ascii (crowd 51) plainConfig) firstCycle,
        host ∈ ["50"] → Settled results s host := by
  obtain ⟨packet, hbuilt, hitems⟩ := crowd_packet (n := 51) (by decide +kernel)
  obtain ⟨hlast, hheld⟩ := crowd_first
  have hsecond : Kept (crowdCycle "50" 3600) (runExportCycle .ascii (crowd 51) plainConfig false
      (crowdCycle "50" 0) firstCycle).state := by simp [Kept, hheld]
  have hpasses := (passes_one hbuilt hitems).diagnosed hsecond
    (crowd_completed hbuilt hitems (by norm_num) hheld fun last hlast' => by
      rw [hlast] at hlast'
      obtain rfl : 0 = last := Option.some.inj hlast'
      norm_num [diagnoseCooldownSec])
  have htwo : passesFor (fleet (exportable .ascii (crowd 51) plainConfig) firstCycle).length = 2 := by
    rw [crowd_hosts]
    decide
  rw [htwo]
  refine ⟨_, _, hpasses, fun hall => ?_⟩
  refine not_settled_behind exportable_nodup hpasses crowd_hosts (by decide +kernel)
    (List.mem_singleton_self "50") (List.mem_singleton_self "50") (hall "50" ?_ ?_)
  · rw [crowd_hosts]
    exact List.mem_append_right _ (List.mem_singleton_self "50")
  · exact List.mem_singleton_self "50"

end Srp.Zabbix
