/-
  Srp/Client/HostileSpool.lean
  ============================
  **What the spool can do to the agent** (`Agent._run_task` of `client/agent.py`).

  A task refreshes the owner's data, runs its collector and sends the result.  The
  certificates go into the historical payload, the owner's data into every
  envelope.  A value of the spool can stop the agent at three places: a stamp that
  no float holds, in the collector; half a surrogate pair, when the envelope is
  encoded; a line boundary that JSON leaves unescaped, when the envelope is
  buffered.  `unharmed_iff` says that there is no fourth.
-/
import Srp.Client.BufferConservation
import Srp.Client.UserIdentity

namespace Srp.Client

open Srp.Lib Srp.Lib.IsoTime Srp.Lib.Lines Srp.Lib.PyJson Srp.Lib.PyNum
open Srp.Lib.PyUnicode (PyStr Value Interpreter ofText scalars encode Encodes)

/-! ### What a task sends -/

/-- What the historical collector puts before and after the certificates. -/
structure HistoricalRest where
  before : List (PyStr × Value)
  after : List (PyStr × Value)
  distinct : PyUnicode.Distinct (.obj (before ++ (ofText "user_certificates".toList, .null) :: after))
  encodes : ∀ f ∈ before ++ after, Encodes f.1 ∧ Encodes (PyUnicode.dumps 1 f.2)

/-- The owner's data in the configuration. -/
structure OwnerTexts where
  fullName : PyStr := []
  position : PyStr := []
  phone : PyStr := []
deriving DecidableEq

def Cert.value (c : Cert) : Value :=
  .obj
    [(ofText "subject".toList, .str c.subject),
     (ofText "issuer".toList, .str c.issuer),
     (ofText "thumbprint".toList, .str c.thumbprint),
     (ofText "not_after".toList, .str (ofText c.notAfter)),
     (ofText "not_before".toList, match c.notBefore with
       | none => .null
       | some t => .str (ofText t)),
     (ofText "owner".toList, .str c.owner)]

theorem Cert.distinct_value (c : Cert) : PyUnicode.Distinct c.value := by
  apply PyUnicode.Distinct.obj
  · simp only [List.map_cons, List.map_nil]
    decide
  · simp only [List.forall_mem_cons]
    refine ⟨.str _, .str _, .str _, .str _, ?_, .str _, by simp⟩
    cases c.notBefore with
    | none => exact .null
    | some t => exact .str _

def HistoricalRest.fields (rest : HistoricalRest) (certs : List Cert) : List (PyStr × Value) :=
  rest.before ++ (ofText "user_certificates".toList, .arr (certs.map Cert.value)) :: rest.after

theorem HistoricalRest.distinct_fields (rest : HistoricalRest) (certs : List Cert) :
    PyUnicode.Distinct (.obj (rest.fields certs)) := by
  obtain ⟨before, after, hdistinct, _⟩ := rest
  cases hdistinct with
  | obj hkeys hvalues =>
    apply PyUnicode.Distinct.obj
    · simpa [HistoricalRest.fields] using hkeys
    · intro f hf
      rcases List.mem_append.mp hf with hf | hf
      · exact hvalues f (List.mem_append_left _ hf)
      · rcases List.mem_cons.mp hf with rfl | hf
        · apply PyUnicode.Distinct.arr
          intro x hx
          obtain ⟨c, _, rfl⟩ := List.mem_map.mp hx
          exact c.distinct_value
        · exact hvalues f (List.mem_append_right _ (List.mem_cons_of_mem _ hf))

/-- A call of `send`: its configuration without the owner's data, and its payload without the
    certificates, are those of `base`. -/
structure SpoolCall where
  base : TextCall
  owner : OwnerTexts
  historical : Option (HistoricalRest × List Cert)

def SpoolCall.toCall (w : SpoolCall) : SendCall :=
  { w.base.toSendCall with
    cfg :=
      { w.base.cfg with
        ownerFullName := w.owner.fullName
        ownerPosition := w.owner.position
        ownerPhone := w.owner.phone }
    payload := match w.historical with
      | some (rest, certs) => some ⟨_, rest.distinct_fields certs⟩
      | none => w.base.payload }

/-! ### Half a pair in the spool -/

def Cert.Encodes (c : Cert) : Prop :=
  PyUnicode.Encodes c.subject ∧ PyUnicode.Encodes c.issuer ∧ PyUnicode.Encodes c.thumbprint ∧
    PyUnicode.Encodes c.owner

/-- No string of the spool that the envelope carries holds half a surrogate pair. -/
structure SpoolCall.CarriesText (w : SpoolCall) : Prop where
  fullName : Encodes w.owner.fullName
  position : Encodes w.owner.position
  phone : Encodes w.owner.phone
  certs : ∀ h ∈ w.historical, ∀ c ∈ h.2, c.Encodes

theorem encodes_orNone {s : PyStr} : Encodes (PyUnicode.dumps 1 (orNone s)) ↔ Encodes s := by
  unfold orNone
  split
  · rename_i hs
    rw [hs]
    exact iff_of_true (PyUnicode.encodes_ofText _) (PyUnicode.encodes_ofText [])
  · exact PyUnicode.encodes_str_iff

theorem encodes_value_iff {c : Cert} : Encodes (PyUnicode.dumps 1 c.value) ↔ c.Encodes := by
  have hnotBefore : Encodes (PyUnicode.dumps 1 (match c.notBefore with
      | none => .null
      | some t => .str (ofText t))) := by
    cases c.notBefore with
    | none => exact PyUnicode.encodes_ofText _
    | some t => exact PyUnicode.encodes_str_iff.mpr (PyUnicode.encodes_ofText t)
  rw [Cert.value, PyUnicode.encodes_obj_iff]
  simp only [List.forall_mem_cons, PyUnicode.encodes_ofText, PyUnicode.encodes_str_iff, hnotBefore,
    true_and, List.not_mem_nil, false_implies, implies_true, and_true, Cert.Encodes]

theorem HistoricalRest.encodes_fields (rest : HistoricalRest) {certs : List Cert} :
    Encodes (PyUnicode.dumps 1 (.obj (rest.fields certs))) ↔ ∀ c ∈ certs, c.Encodes := by
  obtain ⟨hbefore, hafter⟩ := List.forall_mem_append.mp rest.encodes
  rw [PyUnicode.encodes_obj_iff, HistoricalRest.fields, List.forall_mem_append,
    and_iff_right hbefore, List.forall_mem_cons, and_iff_left hafter,
    and_iff_right (PyUnicode.encodes_ofText _), PyUnicode.encodes_arr_iff, List.forall_mem_map]
  exact forall₂_congr fun _ _ => encodes_value_iff

/-- The payload's text encodes iff the certificates do. -/
theorem SpoolCall.encodes_payload (w : SpoolCall) :
    Encodes (PyUnicode.dumps 1 (.obj (w.toCall.payload.getD .empty).fields)) ↔
      ∀ h ∈ w.historical, ∀ c ∈ h.2, c.Encodes := by
  unfold SpoolCall.toCall
  cases hw : w.historical with
  | none =>
    refine iff_of_true ?_ (by simp)
    exact (w.base.encodes_items _ (List.mem_of_getElem? (i := 5) rfl)).2
  | some pair =>
    obtain ⟨rest, certs⟩ := pair
    simp only [Option.getD_some, Option.mem_def, Option.some.injEq, forall_eq']
    exact rest.encodes_fields

/-- The text of an envelope encodes iff every string of the spool in it does. -/
theorem SpoolCall.encodes_iff (w : SpoolCall) : Encodes w.toCall.dumps ↔ w.CarriesText := by
  have hbase := w.base.encodes_items
  rw [SendCall.dumps, SendCall.envelope, PyUnicode.encodes_obj_iff]
  simp only [envelopeItems, List.forall_mem_cons, PyUnicode.encodes_ofText, true_and, encodes_orNone,
    PyUnicode.encodes_str_iff] at hbase ⊢
  obtain ⟨hdevice, hhost, hkind, hpayload, hhealth, hsite, hsiteName, horg, hdept, hcomment, _⟩ :=
    hbase
  rw [w.encodes_payload]
  constructor
  · rintro ⟨_, _, _, hcerts, _, _, _, _, _, _, hname, hposition, hphone, _⟩
    exact ⟨hname, hposition, hphone, hcerts⟩
  · rintro ⟨hname, hposition, hphone, hcerts⟩
    exact ⟨hdevice, hhost, hkind, hcerts, hhealth, hsite, hsiteName, horg, hdept, hcomment, hname,
      hposition, hphone, by simp⟩

/-! ### What a call raises -/

/-- A flush of dictionaries does not raise. -/
theorem tryFlush_fst (cfg : ClientConfig) (contacts : Nat → Contact) {t : Transport}
    (h : ∀ l ∈ readBuffer t, ∃ e, loads l = some e ∧ isDict e = true) :
    (tryFlush cfg contacts t).1 = none := by
  unfold tryFlush
  dsimp only
  split
  · rfl
  · rename_i hne
    obtain ⟨_, rest, _, hreplay, _⟩ := flushBuffer_run cfg contacts h hne
    generalize replay cfg contacts (readBuffer t) t = r at hreplay
    obtain ⟨outcome, t'⟩ := r
    obtain rfl : outcome = some rest := hreplay
    rfl

section Send

variable (nl : Nat) {t : Transport}

/-- A call with a text does not raise. -/
theorem send_fst (c : TextCall) (contacts : Nat → Contact) (hcons : t.Conserved)
    (hkept : WellKept t) : (send nl c.toSendCall contacts t).1 = none := by
  unfold send
  rw [c.encode_dumps]
  split
  · rfl
  · dsimp only
    split
    · rfl
    · have hdict : isDict c.envelope = true := rfl
      have hsettles := deliver_settles hdict c.cfg (contacts 0) (t.record [.handed c.envelope])
      show (finishSend nl c.cfg c.envelope (fun i => contacts (i + 1))
        (deliver c.cfg c.envelope (contacts 0) (t.record [.handed c.envelope]))).1 = none
      generalize deliver c.cfg c.envelope (contacts 0) (t.record [.handed c.envelope]) = r
        at hsettles
      obtain ⟨outcome, t'⟩ := r
      cases outcome with
      | attributeError => exact absurd rfl hsettles.noError
      | refused => rfl
      | handled =>
        have hread : readBuffer t' = readBuffer t := by
          rw [readBuffer_eq, readBuffer_eq, hsettles.buffer]
          rfl
        apply tryFlush_fst
        rw [hread]
        exact hcons.lines hkept

/-- A call raises iff it has something to send that does not encode. -/
theorem send_fst_eq_none_iff (c : SendCall) (contacts : Nat → Contact) (hcons : t.Conserved)
    (hkept : WellKept t) :
    (send nl c contacts t).1 = none ↔ (c.isEmpty = false → Encodes c.dumps) := by
  cases htext : c.asText with
  | some d =>
    obtain rfl := SendCall.eq_of_asText htext
    exact iff_of_true (send_fst nl d contacts hcons hkept) fun _ => d.encodes
  | none =>
    have hencodes := SendCall.asText_eq_none_iff.mp htext
    cases hempty : c.isEmpty with
    | false => simp [send_surrogate nl hempty hencodes, hencodes]
    | true => simp [send, hempty]

end Send

/-! ### The agent -/

/-- `_OWNER_REFRESH_SEC`. -/
def ownerRefreshSec : ℚ := 60

structure Agent where
  transport : Transport := {}
  ownerReadAt : ℚ := 0
  owner : OwnerTexts := {}
  /-- whether a reader or `send` has raised -/
  raised : Bool := false

/-- One `_run_task`: the clocks it reads, the spool it finds, and what the configuration, the
    collector and the server contribute.  `base` is the call without the spool's data. -/
structure Task where
  clock : Clock
  ownerClock : Clock
  ownerDir : SpoolDir
  certClock : ℚ
  certDir : SpoolDir
  base : TextCall
  /-- the rest of the payload, where the task is the historical one -/
  historical : Option HistoricalRest
  contacts : Nat → Contact

/-- `owner.get(...) or ""`. -/
def OwnerIdentity.texts (o : OwnerIdentity) : OwnerTexts where
  fullName := o.fullName.getD []
  position := o.position.getD []
  phone := o.phone.getD []

section Run

variable (I : Interpreter) (nl : Nat)

/-- `_refresh_owner_identity`. -/
def refreshOwnerIdentity (x : Task) (a : Agent) : Agent :=
  if x.clock.time - a.ownerReadAt < ownerRefreshSec then a
  else
    match readOwnerIdentity I x.ownerClock.time x.ownerDir with
    | .error _ => { a with ownerReadAt := x.clock.time, raised := true }
    | .ok owner => { a with ownerReadAt := x.clock.time, owner := owner.texts }

/-- The collector, as far as it reads the spool. -/
def collect (x : Task) : Except PyError (Option (HistoricalRest × List Cert)) :=
  match x.historical with
  | none => .ok none
  | some rest => (readUserCerts I x.certClock x.certDir).map fun certs => some (rest, certs)

/-- `_run_task`.  What the collector or `send` raise is caught and the message is lost. -/
def runTask (x : Task) (a : Agent) : Agent :=
  let a := refreshOwnerIdentity I x a
  match collect I x with
  | .error _ => { a with raised := true }
  | .ok historical =>
    let w : SpoolCall := { base := x.base, owner := a.owner, historical }
    let sent := send nl w.toCall x.contacts a.transport
    { a with transport := sent.2, raised := a.raised || sent.1.isSome }

def agent : Machine Agent Task Unit where
  next a x := runTask I nl x a
  out _ _ := ()

/-! ### When no harm is done -/

/-- No reader and no `send` has raised, and every envelope handed in is delivered, dropped by
    the server or for its size, or in the buffer as it was. -/
structure Unharmed (a : Agent) : Prop where
  quiet : a.raised = false
  conserved : a.transport.Conserved

/-- The owner's data that the next envelope carries. -/
def carriedOwner (x : Task) (a : Agent) : OwnerTexts :=
  if x.clock.time - a.ownerReadAt < ownerRefreshSec then a.owner
  else (ownerOf I x.ownerClock.time x.ownerDir).texts

/-- The call that the task makes if its collector returns. -/
def spoolCall (x : Task) (a : Agent) : SpoolCall where
  base := x.base
  owner := carriedOwner I x a
  historical := x.historical.map fun rest => (rest, keptCerts I x.certClock x.certDir)

/-- The spool holds nothing, where this task looks, that stops the agent. -/
structure Harmless (a : Agent) (x : Task) : Prop where
  stamps : x.historical.isSome → StampsFit I x.certClock x.certDir
  text : (spoolCall I x a).toCall.isEmpty = false → (spoolCall I x a).CarriesText
  oneLine : BuffersOneLine a.transport (.send (spoolCall I x a).toCall x.contacts)

theorem refreshOwnerIdentity_eq (x : Task) (a : Agent) :
    ∃ readAt, refreshOwnerIdentity I x a =
      { a with ownerReadAt := readAt, owner := carriedOwner I x a } := by
  unfold refreshOwnerIdentity carriedOwner
  by_cases h : x.clock.time - a.ownerReadAt < ownerRefreshSec
  · rw [if_pos h, if_pos h]
    exact ⟨a.ownerReadAt, rfl⟩
  · rw [if_neg h, if_neg h, readOwnerIdentity_eq]
    exact ⟨x.clock.time, rfl⟩

theorem collect_eq_ok_iff {x : Task} {historical : Option (HistoricalRest × List Cert)} :
    collect I x = .ok historical ↔
      historical = (x.historical.map fun rest => (rest, keptCerts I x.certClock x.certDir)) ∧
      (x.historical.isSome → StampsFit I x.certClock x.certDir) := by
  unfold collect
  cases x.historical with
  | none => simp [eq_comm]
  | some rest =>
    have hread : ∀ certs, readUserCerts I x.certClock x.certDir = .ok certs ↔ _ :=
      fun _ => readUserCerts_eq_ok_iff I x.certClock
    cases h : readUserCerts I x.certClock x.certDir with
    | error e =>
      constructor
      · intro hfalse
        cases hfalse
      · rintro ⟨_, hfit⟩
        have hok := (hread _).mpr ⟨rfl, hfit rfl⟩
        rw [h] at hok
        cases hok
    | ok certs =>
      obtain ⟨rfl, hfit⟩ := (hread certs).mp h
      simp [Except.map, hfit, eq_comm]

/-- A task whose collector returns goes on to send. -/
theorem runTask_of_stampsFit (a : Agent) {x : Task}
    (h : x.historical.isSome → StampsFit I x.certClock x.certDir) :
    ∃ readAt, runTask I nl x a =
      { transport := (send nl (spoolCall I x a).toCall x.contacts a.transport).2
        ownerReadAt := readAt
        owner := carriedOwner I x a
        raised := a.raised || (send nl (spoolCall I x a).toCall x.contacts a.transport).1.isSome } := by
  obtain ⟨readAt, hrefresh⟩ := refreshOwnerIdentity_eq I x a
  refine ⟨readAt, ?_⟩
  rw [runTask, hrefresh, (collect_eq_ok_iff I).mpr ⟨rfl, h⟩]
  rfl

theorem runTask_of_overflow (a : Agent) {x : Task}
    (h : ¬ (x.historical.isSome → StampsFit I x.certClock x.certDir)) :
    (runTask I nl x a).raised = true ∧ (runTask I nl x a).transport = a.transport := by
  obtain ⟨readAt, hrefresh⟩ := refreshOwnerIdentity_eq I x a
  unfold runTask
  rw [hrefresh]
  cases hcollect : collect I x with
  | error e => exact ⟨rfl, rfl⟩
  | ok historical => exact absurd ((collect_eq_ok_iff I).mp hcollect).2 h

/-- **One task.**  It does no harm exactly when it finds none in the spool. -/
theorem unharmed_next_iff (a : Agent) (x : Task) (ha : Unharmed a) (hkept : WellKept a.transport) :
    (Harmless I a x ↔ Unharmed (runTask I nl x a)) ∧ WellKept (runTask I nl x a).transport := by
  by_cases hstamps : x.historical.isSome → StampsFit I x.certClock x.certDir
  · obtain ⟨readAt, hrun⟩ := runTask_of_stampsFit I nl a hstamps
    rw [hrun]
    obtain ⟨hiff, hnext⟩ := conserved_next_iff nl a.transport
      (.send (spoolCall I x a).toCall x.contacts) ha.conserved hkept
    have hquiet := send_fst_eq_none_iff nl (spoolCall I x a).toCall x.contacts ha.conserved hkept
    rw [(spoolCall I x a).encodes_iff] at hquiet
    refine ⟨?_, hnext⟩
    constructor
    · intro h
      refine ⟨?_, hiff.mp h.oneLine⟩
      simp [ha.quiet, hquiet.mpr h.text]
    · intro h
      have hraised := h.quiet
      simp only [ha.quiet, Bool.false_or, Option.isSome_eq_false_iff, Option.isNone_iff_eq_none]
        at hraised
      exact ⟨hstamps, hquiet.mp hraised, hiff.mpr h.conserved⟩
  · obtain ⟨hraised, hsame⟩ := runTask_of_overflow I nl a hstamps
    rw [hsame]
    refine ⟨?_, hkept⟩
    constructor
    · intro h
      exact absurd h.stamps hstamps
    · intro h
      rw [h.quiet] at hraised
      cases hraised

end Run

/-! ### A name with half a pair -/

private def plainInterpreter : Interpreter where
  chars := .ascii
  ofToken _ := .nan
  strOf _ := []
  gmtime _ := true
  pathKey name := name.map PyUnicode.PyChar.ord

/-- `{"written_at": 1000000, "full_name": "\ud800"}`. -/
private def halfName : SpoolFile where
  name := ofText "owner-1.json".toList
  size := some 48
  doc := some (.obj [(ofText "written_at".toList, .int 1000000),
    (ofText "full_name".toList, .str [PyUnicode.halfPair])])

private theorem heartbeatClock_finite : (1000000 : ℚ) ≤ maxDouble := by decide +kernel

private theorem heartbeatStamp_inRange : 0 < 3652059 * usPerDay := by decide

private def heartbeatCall : SendCall where
  cfg := { deviceId := ofText "PC-1".toList }
  msgType := ofText "heartbeat".toList
  payload := some .empty
  now := ⟨0, heartbeatStamp_inRange⟩
  idempotencyKey := "k1".toList

private def heartbeat : Task where
  clock := ⟨1000000, heartbeatClock_finite⟩
  ownerClock := ⟨1000000, heartbeatClock_finite⟩
  ownerDir := some [halfName]
  certClock := 1000000
  certDir := none
  base := ⟨heartbeatCall, by decide +kernel⟩
  historical := none
  contacts _ :=
    { clock := 1000000
      first := { answer := .accepted, clock := 1000000 }
      second := { answer := .accepted, clock := 1000000 } }

end Srp.Client
