/-
  Srp/Zabbix/ExportValues.lean
  ============================
  **Which values a cycle sends for the machines of the fleet.**

  The fleet batch carries what `build_items` computed, and pass A of the diagnosis the
  state `unknown`.  Pass B sends a zero for every key of one machine that Zabbix knows:
  a zero is a verdict ("no risk", "no days left"), and for the two text keys it is no
  value the machine can have.  `verdict_values_iff` says exactly when nothing but
  verdicts goes out.
-/
import Srp.Zabbix.Export

namespace Srp.Zabbix

open Srp.Lib Srp.Lib.IsoTime Srp.Lib.PyNum

/-! ### What a channel lets through -/

def Answer.accepted : Answer → Bool
  | .response r => r.ok
  | _ => false

/-- The number of values the other side says it did not take. -/
def Answer.failed : Answer → Nat
  | .response r => r.failed.getD 0
  | _ => 0

/-- The first `n` batches go out in time and each is answered with success. -/
def Channel.Accepted (c : Channel) (n : Nat) : Prop :=
  ∀ k < n, c.now k ≤ c.start + maxTotalSec ∧ (c.answer k).accepted = true

/-- One of the first `n` answers counts a value that was not taken. -/
def Channel.Refuses (c : Channel) (n : Nat) : Prop := ∃ k < n, (c.answer k).failed ≠ 0

/-- The first batch goes out. -/
def Channel.Sends (c : Channel) : Prop :=
  c.now 0 ≤ c.start + maxTotalSec ∧ (c.answer 0).reached = true

theorem sendBatch_error_none_iff {items : List Item} {a : Answer} :
    (sendBatch items a).error = none ↔ a.accepted = true := by
  cases a with
  | unreached kind => simp [sendBatch, Answer.accepted]
  | lost kind => simp [sendBatch, Answer.accepted]
  | response r =>
    unfold sendBatch Answer.accepted
    by_cases h : r.ok = true <;> simp [h]

theorem sendBatch_failed {items : List Item} {a : Answer} (h : a.accepted = true) :
    (sendBatch items a).failed = a.failed := by
  cases a with
  | unreached kind => cases h
  | lost kind => cases h
  | response r =>
    have hok : r.ok = true := h
    simp [sendBatch, Answer.failed, hok]

variable {c : Channel} {items : List Item}

theorem mem_of_mem_chunks {size : Nat} {batch : List Item} (h : batch ∈ chunks items size)
    {i : Item} (hi : i ∈ batch) : i ∈ items := by
  obtain ⟨k, _, rfl⟩ := List.mem_map.mp h
  exact List.mem_of_mem_drop (List.mem_of_mem_take hi)

theorem mem_of_mem_sendFrom {k : Nat} {acc : SendResult} {batches : List (List Item)} {i : Item}
    (h : i ∈ (sendFrom c k acc batches).1) : ∃ batch ∈ batches, i ∈ batch := by
  induction batches generalizing k acc with
  | nil => cases h
  | cons batch batches ih =>
    unfold sendFrom at h
    by_cases hlate : c.now k > c.start + maxTotalSec
    · rw [if_pos hlate] at h
      cases h
    · rw [if_neg hlate] at h
      have hsent : ∀ i, i ∈ (if (c.answer k).reached then batch else []) → i ∈ batch := by
        intro i hi
        split at hi
        · exact hi
        · cases hi
      by_cases herror : (sendBatch batch (c.answer k)).error.isSome = true
      · simp only [herror, if_true] at h
        exact ⟨batch, List.mem_cons_self, hsent i h⟩
      · simp only [herror, Bool.false_eq_true, if_false] at h
        rcases List.mem_append.mp h with h | h
        · exact ⟨batch, List.mem_cons_self, hsent i h⟩
        · obtain ⟨b, hb, hi⟩ := ih h
          exact ⟨b, List.mem_cons_of_mem batch hb, hi⟩

theorem mem_of_mem_send {i : Item} (h : i ∈ (send c items).1) : i ∈ items := by
  obtain ⟨batch, hbatch, hi⟩ := mem_of_mem_sendFrom h
  exact mem_of_mem_chunks hbatch hi

/-- A call of `send` ends without an error when every batch is in time and accepted, and its
    count of failures is then the sum of theirs. -/
theorem sendFrom_result {k : Nat} {acc : SendResult} {batches : List (List Item)}
    (hacc : acc.error = none) :
    ((sendFrom c k acc batches).2.error = none ↔ ∀ j < batches.length,
      c.now (k + j) ≤ c.start + maxTotalSec ∧ (c.answer (k + j)).accepted = true) ∧
    ((sendFrom c k acc batches).2.error = none → ((sendFrom c k acc batches).2.failed ≠ 0 ↔
      acc.failed ≠ 0 ∨ ∃ j < batches.length, (c.answer (k + j)).failed ≠ 0)) := by
  induction batches generalizing k acc with
  | nil => exact ⟨by simp [sendFrom, hacc], by simp [sendFrom]⟩
  | cons batch batches ih =>
    have hhead : (∀ j < (batch :: batches).length, c.now (k + j) ≤ c.start + maxTotalSec ∧
        (c.answer (k + j)).accepted = true) ↔
        (c.now k ≤ c.start + maxTotalSec ∧ (c.answer k).accepted = true) ∧
        ∀ j < batches.length, c.now (k + 1 + j) ≤ c.start + maxTotalSec ∧
          (c.answer (k + 1 + j)).accepted = true := by
      rw [List.length_cons, Nat.forall_lt_succ_left]
      simp only [Nat.add_right_comm k 1, ← Nat.add_assoc, Nat.add_zero]
    rw [hhead]
    unfold sendFrom
    by_cases hlate : c.now k > c.start + maxTotalSec
    · rw [if_pos hlate]
      simp [not_le.mpr hlate]
    · rw [if_neg hlate]
      by_cases haccepted : (c.answer k).accepted = true
      · have herror : (sendBatch batch (c.answer k)).error = none :=
          sendBatch_error_none_iff.mpr haccepted
        have hnone : (sendBatch batch (c.answer k)).error.isSome = false := by simp [herror]
        simp only [hnone, Bool.false_eq_true, if_false]
        obtain ⟨hiff, hfailed⟩ := @ih (k + 1)
          ⟨acc.processed + (sendBatch batch (c.answer k)).processed,
            acc.failed + (sendBatch batch (c.answer k)).failed,
            acc.total + (sendBatch batch (c.answer k)).total,
            (sendBatch batch (c.answer k)).error⟩ herror
        refine ⟨?_, ?_⟩
        · rw [hiff]
          simp [not_lt.mp hlate, haccepted]
        · intro hok
          rw [hfailed hok, sendBatch_failed haccepted, List.length_cons, Nat.exists_lt_succ_left]
          simp only [Nat.add_right_comm k 1, ← Nat.add_assoc, Nat.add_zero, Nat.add_eq_zero_iff,
            ne_eq, not_and_or, or_assoc]
      · have herror : (sendBatch batch (c.answer k)).error.isSome = true := by
          rw [Option.isSome_iff_ne_none, ne_eq, sendBatch_error_none_iff]
          exact haccepted
        simp only [herror, if_true]
        have hne : (sendBatch batch (c.answer k)).error ≠ none :=
          Option.isSome_iff_ne_none.mp herror
        simp [hne, haccepted]

/-- The number of batches that `n` values fill. -/
def batches (n : Nat) : Nat := (n + 249) / 250

theorem length_chunks : (chunks items batchSize).length = batches items.length := by
  rw [chunks, List.length_map, List.length_range]
  rfl

theorem send_error_none_iff :
    (send c items).2.error = none ↔ c.Accepted (batches items.length) := by
  unfold send Channel.Accepted
  rw [(sendFrom_result rfl).1, length_chunks]
  simp only [Nat.zero_add]

theorem send_failed_iff (h : c.Accepted (batches items.length)) :
    (send c items).2.failed ≠ 0 ↔ c.Refuses (batches items.length) := by
  have hnone : (send c items).2.error = none := send_error_none_iff.mpr h
  unfold send Channel.Refuses at *
  rw [(sendFrom_result rfl).2 hnone, length_chunks]
  simp only [Nat.zero_add, ne_eq, not_true, false_or]

/-- One value, one batch. -/
theorem mem_send_singleton {i j : Item} : j ∈ (send c [i]).1 ↔ j = i ∧ c.Sends := by
  have hchunks : chunks [i] batchSize = [[i]] := by simp [chunks, batchSize]
  unfold send sendFrom
  rw [hchunks]
  simp only [Channel.Sends]
  by_cases hlate : c.now 0 > c.start + maxTotalSec
  · simp [hlate]
  · rw [if_neg hlate]
    by_cases hreached : (c.answer 0).reached = true
    · simp [sendFrom, hreached, not_lt.mp hlate]
    · simp [sendFrom, hreached]

/-! ### Pass A -/

variable {env : Cycle} {budget : ℚ}

/-- The probe of a host goes out within the budget, is answered, and the value is not taken. -/
def HostRefused (env : Cycle) (budget : ℚ) (host : String) : Prop :=
  env.hostAt host ≤ budget ∧ (env.hostProbe host).Accepted 1 ∧ (env.hostProbe host).Refuses 1

theorem batches_one : batches 1 = 1 := rfl

theorem probe_answered (i : Item) (h : c.Accepted 1) : (send c [i]).2.error.isSome = false := by
  have hnone : (send c [i]).2.error = none := by
    rw [send_error_none_iff, List.length_singleton, batches_one]
    exact h
  rw [hnone]
  rfl

theorem probe_unanswered (i : Item) (h : ¬ c.Accepted 1) :
    (send c [i]).2.error.isSome = true := by
  rw [Option.isSome_iff_ne_none, ne_eq, send_error_none_iff, List.length_singleton, batches_one]
  exact h

theorem probe_failed_iff (i : Item) (h : c.Accepted 1) :
    (send c [i]).2.failed ≠ 0 ↔ c.Refuses 1 := by
  have hbatches : batches [i].length = 1 := by rw [List.length_singleton, batches_one]
  rw [send_failed_iff (hbatches.symm ▸ h), hbatches]

theorem mem_probeHosts_sent {hosts : List String} {i : Item}
    (h : i ∈ (probeHosts env budget hosts).1) : i.key = "srp.state" ∧ i.value = "unknown" := by
  induction hosts with
  | nil => cases h
  | cons host hosts ih =>
    have hsend : ∀ j, j ∈ (send (env.hostProbe host) [⟨host, "srp.state", "unknown"⟩]).1 →
        j.key = "srp.state" ∧ j.value = "unknown" := by
      intro j hj
      rw [(mem_send_singleton.mp hj).1]
      exact ⟨rfl, rfl⟩
    unfold probeHosts at h
    split at h
    · cases h
    · simp only at h
      split at h
      · exact hsend i h
      · rcases List.mem_append.mp h with h | h
        · exact hsend i h
        · exact ih h

/-- A host is among the unknown ones when it was refused. -/
theorem mem_probeHosts_unknown {hosts : List String} {host : String}
    (h : host ∈ (probeHosts env budget hosts).2) : host ∈ hosts ∧ HostRefused env budget host := by
  induction hosts with
  | nil => cases h
  | cons first hosts ih =>
    unfold probeHosts at h
    by_cases hlate : env.hostAt first > budget
    · rw [if_pos hlate] at h
      cases h
    · rw [if_neg hlate] at h
      by_cases herror : (env.hostProbe first).Accepted 1
      · simp only [probe_answered _ herror, Bool.false_eq_true, if_false] at h
        by_cases hfailed : (send (env.hostProbe first) [⟨first, "srp.state", "unknown"⟩]).2.failed ≠ 0
        · rw [if_pos hfailed] at h
          rcases List.mem_cons.mp h with rfl | h
          · exact ⟨List.mem_cons_self, not_lt.mp hlate, herror, (probe_failed_iff _ herror).mp hfailed⟩
          · exact ⟨List.mem_cons_of_mem first (ih h).1, (ih h).2⟩
        · rw [if_neg hfailed] at h
          exact ⟨List.mem_cons_of_mem first (ih h).1, (ih h).2⟩
      · simp only [probe_unanswered _ herror, if_true] at h
        cases h

theorem probeHosts_unknown_cons {host : String} {hosts : List String}
    (h : HostRefused env budget host) :
    (probeHosts env budget (host :: hosts)).2 = host :: (probeHosts env budget hosts).2 := by
  obtain ⟨htime, haccepted, hrefuses⟩ := h
  have hfailed : (send (env.hostProbe host) [⟨host, "srp.state", "unknown"⟩]).2.failed ≠ 0 :=
    (probe_failed_iff _ haccepted).mpr hrefuses
  rw [probeHosts, if_neg (not_lt.mpr htime)]
  simp only [probe_answered _ haccepted, Bool.false_eq_true, if_false]
  rw [if_pos hfailed]

theorem probeHosts_unknown_append {before hosts : List String}
    (h : ∀ b ∈ before, HostRefused env budget b) :
    (probeHosts env budget (before ++ hosts)).2 = before ++ (probeHosts env budget hosts).2 := by
  induction before with
  | nil => rfl
  | cons b before ih =>
    rw [List.cons_append, probeHosts_unknown_cons (h b List.mem_cons_self),
      ih fun x hx => h x (List.mem_cons_of_mem b hx), List.cons_append]

/-- Pass B looks at the first host that pass A did not find refused: all hosts before it were
    refused, and it was not, or it came behind the cap. -/
def FirstKnown (env : Cycle) (budget : ℚ) (hosts : List String) (host : String) : Prop :=
  ∃ before after, hosts = before ++ host :: after ∧ before.length ≤ diagnoseHostCap ∧
    (∀ b ∈ before, HostRefused env budget b) ∧
    (before.length = diagnoseHostCap ∨ ¬ HostRefused env budget host)

theorem find_known_iff {hosts : List String} (hnodup : hosts.Nodup) {host : String} :
    (hosts.find? fun h => h ∉ (probeHosts env budget (hosts.take diagnoseHostCap)).2) = some host ↔
      FirstKnown env budget hosts host := by
  rw [List.find?_eq_some_iff_append]
  simp only [decide_eq_true_eq, Bool.not_eq_true', decide_eq_false_iff_not, not_not]
  constructor
  · rintro ⟨hhost, before, after, rfl, hbefore⟩
    have hrefused : ∀ b ∈ before, HostRefused env budget b :=
      fun b hb => (mem_probeHosts_unknown (hbefore b hb)).2
    have hlen : before.length ≤ diagnoseHostCap := by
      have hsub : before ⊆ (before ++ host :: after).take diagnoseHostCap :=
        fun b hb => (mem_probeHosts_unknown (hbefore b hb)).1
      have hle := ((List.nodup_append.mp hnodup).1.subperm hsub).length_le
      exact hle.trans (List.length_take_le _ _)
    refine ⟨before, after, rfl, hlen, hrefused, ?_⟩
    by_contra hn
    rw [not_or, not_not] at hn
    apply hhost
    obtain ⟨k, hk⟩ : ∃ k, diagnoseHostCap = before.length + (k + 1) :=
      ⟨diagnoseHostCap - before.length - 1, by omega⟩
    rw [hk, List.take_length_add_append, List.take_succ_cons, probeHosts_unknown_append hrefused,
      probeHosts_unknown_cons hn.2]
    exact List.mem_append_right _ List.mem_cons_self
  · rintro ⟨before, after, rfl, hlen, hrefused, hlast⟩
    obtain ⟨k, hk⟩ : ∃ k, diagnoseHostCap = before.length + k :=
      ⟨diagnoseHostCap - before.length, by omega⟩
    rw [hk, List.take_length_add_append, probeHosts_unknown_append hrefused]
    refine ⟨?_, before, after, rfl, fun b hb => List.mem_append_left _ hb⟩
    rw [List.mem_append, not_or]
    have hdisjoint := (List.nodup_append.mp hnodup).2.2
    refine ⟨fun hb => hdisjoint host hb host List.mem_cons_self rfl, ?_⟩
    intro hmem
    obtain ⟨hin, hhost⟩ := mem_probeHosts_unknown hmem
    rcases hlast with hfull | hn
    · obtain rfl : k = 0 := by omega
      cases hin
    · exact hn hhost

/-! ### Pass B -/

/-- The probe of a key goes out: it is in time, and those of the keys before it were in time
    and answered. -/
def KeyProbed (env : Cycle) (budget : ℚ) (keys : List String) (key : String) : Prop :=
  ∃ before after, keys = before ++ key :: after ∧
    (∀ k ∈ before, env.keyAt k ≤ budget ∧ (env.keyProbe k).Accepted 1) ∧
    env.keyAt key ≤ budget ∧ (env.keyProbe key).Sends

theorem mem_probeKeys {host : String} {keys : List String} {i : Item} :
    i ∈ probeKeys env budget host keys ↔
      ∃ key, KeyProbed env budget keys key ∧ i = ⟨host, key, "0"⟩ := by
  induction keys with
  | nil =>
    constructor
    · intro h
      cases h
    · rintro ⟨key, ⟨before, after, hkeys, _⟩, _⟩
      cases before <;> cases hkeys
  | cons first keys ih =>
    have hcons : ∀ key, KeyProbed env budget (first :: keys) key ↔
        env.keyAt first ≤ budget ∧ (key = first ∧ (env.keyProbe first).Sends ∨
          (env.keyProbe first).Accepted 1 ∧ KeyProbed env budget keys key) := by
      intro key
      constructor
      · rintro ⟨before, after, hkeys, hbefore, htime, hsends⟩
        cases before with
        | nil =>
          obtain ⟨rfl, rfl⟩ := List.cons.inj hkeys
          exact ⟨htime, Or.inl ⟨rfl, hsends⟩⟩
        | cons b before =>
          obtain ⟨rfl, rfl⟩ := List.cons.inj hkeys
          obtain ⟨hb, haccepted⟩ := hbefore first List.mem_cons_self
          exact ⟨hb, Or.inr ⟨haccepted, before, after, rfl,
            fun k hk => hbefore k (List.mem_cons_of_mem first hk), htime, hsends⟩⟩
      · rintro ⟨hfirst, ⟨rfl, hsends⟩ | ⟨haccepted, before, after, rfl, hbefore, hkey⟩⟩
        · exact ⟨[], keys, rfl, (fun _ hk => by cases hk), hfirst, hsends⟩
        · refine ⟨first :: before, after, rfl, ?_, hkey⟩
          intro k hk
          rcases List.mem_cons.mp hk with rfl | hk
          · exact ⟨hfirst, haccepted⟩
          · exact hbefore k hk
    unfold probeKeys
    by_cases hlate : env.keyAt first > budget
    · rw [if_pos hlate]
      constructor
      · intro h
        cases h
      · rintro ⟨key, hkey, _⟩
        exact absurd ((hcons key).mp hkey).1 (not_le.mpr hlate)
    · rw [if_neg hlate]
      by_cases haccepted : (env.keyProbe first).Accepted 1
      · simp only [probe_answered _ haccepted, Bool.false_eq_true, if_false]
        rw [List.mem_append, mem_send_singleton, ih]
        constructor
        · rintro (⟨rfl, hsends⟩ | ⟨key, hkey, rfl⟩)
          · exact ⟨first, (hcons first).mpr ⟨not_lt.mp hlate, Or.inl ⟨rfl, hsends⟩⟩, rfl⟩
          · exact ⟨key, (hcons key).mpr ⟨not_lt.mp hlate, Or.inr ⟨haccepted, hkey⟩⟩, rfl⟩
        · rintro ⟨key, hkey, rfl⟩
          rcases ((hcons key).mp hkey).2 with ⟨rfl, hsends⟩ | ⟨_, hkey⟩
          · exact Or.inl ⟨rfl, hsends⟩
          · exact Or.inr ⟨key, hkey, rfl⟩
      · simp only [probe_unanswered _ haccepted, if_true]
        rw [mem_send_singleton]
        constructor
        · rintro ⟨rfl, hsends⟩
          exact ⟨first, (hcons first).mpr ⟨not_lt.mp hlate, Or.inl ⟨rfl, hsends⟩⟩, rfl⟩
        · rintro ⟨key, hkey, rfl⟩
          rcases ((hcons key).mp hkey).2 with ⟨rfl, hsends⟩ | ⟨hacc, _⟩
          · exact ⟨rfl, hsends⟩
          · exact absurd hacc haccepted

/-! ### The whole cycle -/

section Whole

variable (U : UnicodeData) (rows : List VerdictRow) (cfg : ZabbixConfig) (force : Bool)
  (env : Cycle) (s : ExportState)

/-- The cycle gets as far as computing a packet. -/
def Runs : Prop :=
  cfg.server ≠ "" ∧ (force = true → forceAllowed env s = true) ∧ env.lockFree = true

/-- The hosts left out of this cycle; a forced one forgets them. -/
def leftOut : List String :=
  (backoffActive (if force then [] else s.heldUntil) env.activeAt).map (·.1)

/-- The diagnosis that the answers to the fleet call for is not too soon after the last one. -/
def Diagnoses (lastDiagnoseAt : Option ℚ) (packet : Packet) : Prop :=
  env.fleet.Refuses (batches packet.items.length) ∧
    ∀ last ∈ lastDiagnoseAt, diagnoseCooldownSec ≤ env.diagnoseAt - last

/-- Every key that pass B reaches has the value zero anyway. -/
def ZeroesApart (packet : Packet) : Prop :=
  ∀ host key, FirstKnown env (env.diagnoseAt + diagnoseBudgetSec) (packet.hosts.map (·.1)) host →
    KeyProbed env (env.diagnoseAt + diagnoseBudgetSec) (keysOf packet host) key →
    ⟨host, key, "0"⟩ ∈ packet.items

/-- The heartbeat does not go out under the name of a machine of the packet. -/
def HeartbeatApart (packet : Packet) : Prop :=
  cfg.exportHost ≠ "" → env.heartbeat.Sends → cfg.exportHost ∉ packet.hosts.map (·.1)

/-- The value is one that `build_items` computed for the machine, or the unknown state. -/
def IsVerdict (now : Instant) (e : String × VerdictRow) (i : Item) : Prop :=
  (∃ built, buildItems U e.2 e.1 now = .ok built ∧ i ∈ built) ∨
    i.key = "srp.state" ∧ i.value = "unknown"

variable {U rows cfg force env s} {packet : Packet}

theorem mem_heartbeat {i : Item} :
    i ∈ (send env.heartbeat (heartbeatItems cfg env.unixTime)).1 ↔
      i = ⟨cfg.exportHost, "srp.last_run", fmtInt env.unixTime⟩ ∧ cfg.exportHost ≠ "" ∧
        env.heartbeat.Sends := by
  unfold heartbeatItems
  by_cases h : cfg.exportHost = ""
  · rw [if_pos h]
    constructor
    · intro hi
      cases mem_of_mem_send hi
    · rintro ⟨_, hne, _⟩
      exact absurd h hne
  · rw [if_neg h, mem_send_singleton]
    simp [h]

/-- What the diagnosis sends, when it takes place. -/
theorem mem_diagnose (hpacket : (packet.hosts.map (·.1)).Nodup)
    (h : ∀ last ∈ s.lastDiagnoseAt, diagnoseCooldownSec ≤ env.diagnoseAt - last) {i : Item} :
    i ∈ (diagnose env packet s).sent ↔
      i ∈ (probeHosts env (env.diagnoseAt + diagnoseBudgetSec)
        ((packet.hosts.map (·.1)).take diagnoseHostCap)).1 ∨
      ∃ host key,
        FirstKnown env (env.diagnoseAt + diagnoseBudgetSec) (packet.hosts.map (·.1)) host ∧
        KeyProbed env (env.diagnoseAt + diagnoseBudgetSec) (keysOf packet host) key ∧
        i = ⟨host, key, "0"⟩ := by
  have hcool : ¬ (s.lastDiagnoseAt.any fun last =>
      decide (env.diagnoseAt - last < diagnoseCooldownSec)) = true := by
    cases hlast : s.lastDiagnoseAt with
    | none => simp
    | some last => simpa using h last hlast
  rw [diagnose, if_neg hcool, List.mem_append]
  refine or_congr_right ?_
  unfold diagnoseKeys
  split
  · next hnone =>
    constructor
    · intro hi
      cases hi
    · rintro ⟨host, _, hknown, _⟩
      rw [← find_known_iff hpacket, hnone] at hknown
      cases hknown
  · next host hfind =>
    rw [mem_probeKeys]
    constructor
    · rintro ⟨key, hkey, rfl⟩
      exact ⟨host, key, (find_known_iff hpacket).mp hfind, hkey, rfl⟩
    · rintro ⟨host', key, hknown, hkey, rfl⟩
      rw [← find_known_iff hpacket, hfind] at hknown
      obtain rfl := Option.some.inj hknown
      exact ⟨key, hkey, rfl⟩

theorem diagnose_cooling (h : ¬ ∀ last ∈ s.lastDiagnoseAt,
    diagnoseCooldownSec ≤ env.diagnoseAt - last) : (diagnose env packet s).sent = [] := by
  have hcool : (s.lastDiagnoseAt.any fun last =>
      decide (env.diagnoseAt - last < diagnoseCooldownSec)) = true := by
    cases hlast : s.lastDiagnoseAt with
    | none =>
      rw [hlast] at h
      exact absurd (fun _ hl => by cases hl) h
    | some last =>
      rw [hlast] at h
      simpa using h
  rw [diagnose, if_pos hcool]

/-- Everything a cycle sends, by the place it is sent from. -/
inductive Sent (env : Cycle) (cfg : ZabbixConfig) (last : Option ℚ) (packet : Packet) (i : Item) :
    Prop where
  | fleet : i ∈ (send env.fleet packet.items).1 → Sent env cfg last packet i
  | host : env.fleet.Accepted (batches packet.items.length) → Diagnoses env last packet →
    i ∈ (probeHosts env (env.diagnoseAt + diagnoseBudgetSec)
      ((packet.hosts.map (·.1)).take diagnoseHostCap)).1 → Sent env cfg last packet i
  | key {host key : String} : env.fleet.Accepted (batches packet.items.length) →
    Diagnoses env last packet →
    FirstKnown env (env.diagnoseAt + diagnoseBudgetSec) (packet.hosts.map (·.1)) host →
    KeyProbed env (env.diagnoseAt + diagnoseBudgetSec) (keysOf packet host) key →
    i = ⟨host, key, "0"⟩ → Sent env cfg last packet i
  | heartbeat : env.fleet.Accepted (batches packet.items.length) → cfg.exportHost ≠ "" →
    env.heartbeat.Sends → i = ⟨cfg.exportHost, "srp.last_run", fmtInt env.unixTime⟩ →
    Sent env cfg last packet i

theorem mem_run {backoff : List String}
    (hbackoff : (backoffActive s.heldUntil env.activeAt).map (·.1) = backoff) {i : Item} :
    i ∈ (run U rows cfg env s).sent ↔
      ∃ packet, buildPacket U rows cfg env.now backoff = .ok packet ∧ Sent env cfg s.lastDiagnoseAt packet i := by
  unfold run
  simp only [hbackoff]
  cases hpacket : buildPacket U rows cfg env.now backoff with
  | error e =>
    constructor
    · intro hi
      cases hi
    · rintro ⟨packet, h, _⟩
      cases h
  | ok packet =>
    have hnodup : (packet.hosts.map (·.1)).Nodup := by
      rw [hosts_eq hpacket]
      exact exported_nodup
    have hone : (∃ p, Except.ok packet = (.ok p : Except PyError Packet) ∧ Sent env cfg s.lastDiagnoseAt p i) ↔
        Sent env cfg s.lastDiagnoseAt packet i := by
      constructor
      · rintro ⟨p, hp, h⟩
        rwa [Except.ok.inj hp]
      · intro h
        exact ⟨packet, rfl, h⟩
    rw [hone]
    by_cases hacc : env.fleet.Accepted (batches packet.items.length)
    · have hnone := send_error_none_iff.mpr hacc
      simp only [hnone, Option.isNone_none, true_and, if_true, List.mem_append, mem_heartbeat]
      by_cases hdiag : Diagnoses env s.lastDiagnoseAt packet
      · have hfailed := (send_failed_iff hacc).mpr hdiag.1
        have hlast : ∀ last ∈ ({ s with
            heldUntil := backoffActive s.heldUntil env.activeAt } : ExportState).lastDiagnoseAt,
            diagnoseCooldownSec ≤ env.diagnoseAt - last := hdiag.2
        rw [if_pos hfailed, mem_diagnose hnodup hlast]
        constructor
        · rintro ((hi | hi | ⟨host, key, hknown, hkey, rfl⟩) | ⟨rfl, hne, hsends⟩)
          · exact Sent.fleet hi
          · exact Sent.host hacc hdiag hi
          · exact Sent.key hacc hdiag hknown hkey rfl
          · exact Sent.heartbeat hacc hne hsends rfl
        · intro hi
          cases hi with
          | fleet hi => exact Or.inl (Or.inl hi)
          | host _ _ hi => exact Or.inl (Or.inr (Or.inl hi))
          | key _ _ hknown hkey hi => exact Or.inl (Or.inr (Or.inr ⟨_, _, hknown, hkey, hi⟩))
          | heartbeat _ hne hsends hi => exact Or.inr ⟨hi, hne, hsends⟩
      · have hnothing : (if (send env.fleet packet.items).2.failed ≠ 0 then
            diagnose env packet { s with heldUntil := backoffActive s.heldUntil env.activeAt }
            else ⟨[], [], { s with heldUntil := backoffActive s.heldUntil env.activeAt }⟩).sent =
            [] := by
          by_cases hfailed : (send env.fleet packet.items).2.failed ≠ 0
          · rw [if_pos hfailed]
            apply diagnose_cooling
            exact fun h => hdiag ⟨(send_failed_iff hacc).mp hfailed, h⟩
          · rw [if_neg hfailed]
        rw [hnothing]
        constructor
        · rintro ((hi | hi) | ⟨rfl, hne, hsends⟩)
          · exact Sent.fleet hi
          · cases hi
          · exact Sent.heartbeat hacc hne hsends rfl
        · intro hi
          cases hi with
          | fleet hi => exact Or.inl (Or.inl hi)
          | host _ h => exact absurd h hdiag
          | key _ h => exact absurd h hdiag
          | heartbeat _ hne hsends hi => exact Or.inr ⟨hi, hne, hsends⟩
    · have herror : (send env.fleet packet.items).2.error.isNone = false := by
        rw [Option.isNone_eq_false_iff, Option.isSome_iff_ne_none, ne_eq, send_error_none_iff]
        exact hacc
      simp only [herror, Bool.false_eq_true, false_and, if_false, List.append_nil]
      constructor
      · intro hi
        exact Sent.fleet hi
      · intro hi
        cases hi with
        | fleet hi => exact hi
        | host h => exact absurd h hacc
        | key h => exact absurd h hacc
        | heartbeat h => exact absurd h hacc

theorem mem_runExportCycle {i : Item} :
    i ∈ (runExportCycle U rows cfg force env s).sent ↔ Runs cfg force env s ∧
      ∃ packet, buildPacket U rows cfg env.now (leftOut force env s) = .ok packet ∧
        Sent env cfg s.lastDiagnoseAt packet i := by
  unfold runExportCycle Runs
  by_cases hserver : cfg.server = ""
  · simp [hserver]
  · rw [if_neg hserver]
    cases force with
    | false =>
      simp only [Bool.false_eq_true, false_and, if_false, false_imp_iff, true_and]
      by_cases hlock : env.lockFree = true
      · simp only [hlock, not_true, if_false, and_true]
        rw [mem_run rfl]
        simp [hserver, leftOut]
      · simp [hlock]
    | true =>
      simp only [true_and, if_true, true_imp_iff]
      by_cases hforce : forceAllowed env s = true
      · simp only [hforce, not_true, if_false]
        by_cases hlock : env.lockFree = true
        · simp only [hlock, not_true, if_false, and_true]
          rw [mem_run rfl]
          simp [hserver, leftOut]
        · simp [hlock]
      · simp [hforce]

/-- Zabbix is told verdicts and nothing else, for the machines of the fleet, exactly when no key
    probe replaces a value by zero and the heartbeat has a name of its own. -/
theorem verdict_values_iff :
    (∀ i ∈ (runExportCycle U rows cfg force env s).sent,
      ∀ e ∈ exported U rows cfg (leftOut force env s), e.1 = i.host → IsVerdict U env.now e i) ↔
    (Runs cfg force env s → ∀ packet,
      buildPacket U rows cfg env.now (leftOut force env s) = .ok packet →
      env.fleet.Accepted (batches packet.items.length) →
        (Diagnoses env s.lastDiagnoseAt packet → ZeroesApart env packet) ∧ HeartbeatApart cfg env packet) := by
  have hhost : ∀ packet, buildPacket U rows cfg env.now (leftOut force env s) = .ok packet →
      ∀ host, host ∈ packet.hosts.map (·.1) ↔
        ∃ e ∈ exported U rows cfg (leftOut force env s), e.1 = host := by
    intro packet hpacket host
    rw [hosts_eq hpacket, List.mem_map]
  constructor
  · intro h hruns packet hpacket hacc
    constructor
    · intro hdiag host key hknown hkey
      have hmem : host ∈ packet.hosts.map (·.1) := by
        obtain ⟨before, after, hhosts, _⟩ := hknown
        rw [hhosts]
        exact List.mem_append_right _ List.mem_cons_self
      obtain ⟨e, he, heq⟩ := (hhost packet hpacket host).mp hmem
      have hsent := mem_runExportCycle.mpr
        ⟨hruns, packet, hpacket, Sent.key hacc hdiag hknown hkey rfl⟩
      rcases h _ hsent e he heq with hbuilt | ⟨_, hvalue⟩
      · exact (mem_items_iff hpacket he heq.symm).mpr hbuilt
      · have hzero : "0" ≠ "unknown" := by decide
        exact absurd hvalue hzero
    · intro hne hsends hmem
      obtain ⟨e, he, heq⟩ := (hhost packet hpacket cfg.exportHost).mp hmem
      have hsent := mem_runExportCycle.mpr
        ⟨hruns, packet, hpacket, Sent.heartbeat hacc hne hsends rfl⟩
      rcases h _ hsent e he heq with ⟨built, hbuilt, hmem⟩ | ⟨hkey, _⟩
      · have hrun : "srp.last_run" ∉ coreKeys := by decide
        exact absurd (buildItems_spec hbuilt hmem).2 hrun
      · have hstate : "srp.last_run" ≠ "srp.state" := by decide
        exact absurd hkey hstate
  · intro h i hi e he heq
    obtain ⟨hruns, packet, hpacket, hsent⟩ := mem_runExportCycle.mp hi
    have hverdict : i ∈ packet.items → IsVerdict U env.now e i :=
      fun hitem => Or.inl ((mem_items_iff hpacket he heq.symm).mp hitem)
    cases hsent with
    | fleet hitem => exact hverdict (mem_of_mem_send hitem)
    | host _ _ hprobe => exact Or.inr (mem_probeHosts_sent hprobe)
    | key hacc hdiag hknown hkey hitem =>
      rw [hitem]
      rw [hitem] at hverdict
      exact hverdict ((h hruns packet hpacket hacc).1 hdiag _ _ hknown hkey)
    | heartbeat hacc hne hsends hitem =>
      rw [hitem] at heq
      exact absurd ((hhost packet hpacket _).mpr ⟨e, he, heq⟩)
        ((h hruns packet hpacket hacc).2 hne hsends)

end Whole

/-! ### A machine declared healthy by the diagnosis -/

/-- One machine at risk 12.5, and no forecast. -/
def riskyMachine : VerdictRow where
  deviceId := some "dev-1"
  hostname := some "PC-1"
  model := none
  chassis := none
  orgCode := none
  scoreAt := none
  state := some "h1"
  risk := some (.finite (25 / 2))
  daysLeft := none
  dominantLabel := some "disk"
  action := some "watch"

def plainConfig : ZabbixConfig where
  server := "10.0.0.5"
  hostField := .hostname
  hostSuffix := ""
  exportHost := "SRP"
  orgCodes := []
  hostMap := []

/-- A channel on which every batch is accepted at once, with `failed` values not taken. -/
def promptChannel (failed : Nat) : Channel where
  start := 0
  now _ := 0
  answer _ := .response ⟨true, none, some failed, none⟩

theorem exportStart_inRange : 0 < 3652059 * usPerDay := by decide

/-- Zabbix refuses one value of the fleet batch and answers every probe. -/
def partialRefusal : Cycle where
  lockFree := true
  forceAt := 0
  activeAt := 0
  now := ⟨0, exportStart_inRange⟩
  fleet := promptChannel 1
  diagnoseAt := 0
  hostAt _ := 0
  hostProbe _ := promptChannel 0
  keyAt _ := 0
  keyProbe _ := promptChannel 0
  addAt := 0
  unixTime := 0
  heartbeat := promptChannel 0

def firstCycle : ExportState := ⟨none, none, []⟩

/-- The diagnosis tells Zabbix that the risk of the machine is zero. -/
theorem zero_probe_sent :
    ¬ ∀ i ∈ (runExportCycle .ascii [riskyMachine] plainConfig false partialRefusal
        firstCycle).sent,
      ∀ e ∈ exported .ascii [riskyMachine] plainConfig (leftOut false partialRefusal firstCycle),
        e.1 = i.host → IsVerdict .ascii partialRefusal.now e i := by
  have hsent : (⟨"PC-1", "srp.risk", "0"⟩ : Item) ∈ (runExportCycle .ascii [riskyMachine]
      plainConfig false partialRefusal firstCycle).sent := by decide +kernel
  have hexported : ("PC-1", riskyMachine) ∈ exported .ascii [riskyMachine] plainConfig
      (leftOut false partialRefusal firstCycle) := by decide +kernel
  have hbuilt : buildItems .ascii riskyMachine "PC-1" partialRefusal.now =
      .ok [⟨"PC-1", "srp.state", "h1"⟩, ⟨"PC-1", "srp.risk", "12.5"⟩,
        ⟨"PC-1", "srp.reason", "disk: watch"⟩] := by decide +kernel
  intro h
  rcases h _ hsent _ hexported rfl with ⟨built, hrow, hmem⟩ | ⟨hkey, _⟩
  · obtain rfl := Except.ok.inj (hbuilt.symm.trans hrow)
    exact absurd hmem (by decide)
  · exact absurd hkey (by decide)

end Srp.Zabbix
