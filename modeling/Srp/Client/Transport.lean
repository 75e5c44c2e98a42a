/-
  Srp/Client/Transport.lean
  =========================
  **The agent's transport** (`client/transport.py`): delivery, the offline buffer
  and its replay.

  The buffer is the text of a file.  `send` appends one JSON line to it when
  delivery is refused, `flush_buffer` reads the lines back, replays them in order
  and rewrites the rest, and `_trim_buffer` drops the oldest.  The network and the
  clock are inputs: a `Contact` is what one `_deliver` meets.  The field `log` is
  no part of the program; it records what became of each envelope.

  The strings of an envelope are Python's.  One with half a surrogate pair cannot be
  encoded, and `send` raises over it before anything is sent; behind that point, and
  in the buffer, all is text (`TextCall`, `sendText`).
-/
import Mathlib
import Srp.Lib.IsoTime
import Srp.Lib.Lines
import Srp.Lib.PyUnicode

namespace Srp.Client

open Srp.Lib Srp.Lib.IsoTime Srp.Lib.Lines Srp.Lib.PyJson
open Srp.Lib.PyUnicode (PyStr Value ofText scalars encode Encodes)

/-! ### Limits -/

def maxBufferLines : Nat := 5000
def maxBufferBytes : Nat := 50 * 1024 * 1024
def maxPayloadBytes : Nat := 500000
def maxThrottleSec : ℚ := 300
def defaultThrottleSec : ℚ := 60
def agentVersion : Text := "0.3.0".toList

/-- `len(t.encode("utf-8"))`. -/
def utf8Len (t : Text) : Nat := (t.map Char.utf8Size).sum

/-! ### Envelopes -/

/-- The fields of `ClientConfig` that the transport reads. -/
structure ClientConfig where
  deviceId : PyStr
  hostname : PyStr := []
  siteCode : PyStr := []
  siteName : PyStr := []
  orgCode : PyStr := []
  deptCode : PyStr := []
  comment : PyStr := []
  ownerFullName : PyStr := []
  ownerPosition : PyStr := []
  ownerPhone : PyStr := []
  offlineMode : Bool := false

/-- A dictionary of JSON values. -/
structure PyDict where
  fields : List (PyStr × Value)
  distinct : PyUnicode.Distinct (.obj fields)

def PyDict.empty : PyDict := ⟨[], .obj List.nodup_nil (by simp)⟩

/-- One call of `send`, with the clock and the key that `_envelope` draws. -/
structure SendCall where
  cfg : ClientConfig
  msgType : PyStr
  payload : Option PyDict
  sourceHealth : Option PyDict := none
  now : Instant
  idempotencyKey : Text

/-- `s or None`. -/
def orNone (s : PyStr) : Value := if s = [] then .null else .str s

/-- `_envelope`. -/
def envelopeItems (c : SendCall) : List (PyStr × Value) :=
  [(ofText "device_id".toList, .str c.cfg.deviceId),
   (ofText "hostname".toList, orNone c.cfg.hostname),
   (ofText "agent_version".toList, .str (ofText agentVersion)),
   (ofText "msg_type".toList, .str c.msgType),
   (ofText "ts".toList, .str (ofText (isoformat c.now).toList)),
   (ofText "payload".toList, .obj (c.payload.getD .empty).fields),
   (ofText "source_health".toList, .obj (c.sourceHealth.getD .empty).fields),
   (ofText "site_code".toList, orNone c.cfg.siteCode),
   (ofText "site_name".toList, orNone c.cfg.siteName),
   (ofText "org_code".toList, orNone c.cfg.orgCode),
   (ofText "dept_code".toList, orNone c.cfg.deptCode),
   (ofText "comment".toList, orNone c.cfg.comment),
   (ofText "owner_full_name".toList, orNone c.cfg.ownerFullName),
   (ofText "owner_position".toList, orNone c.cfg.ownerPosition),
   (ofText "owner_phone".toList, orNone c.cfg.ownerPhone),
   (ofText "idempotency_key".toList, .str (ofText c.idempotencyKey))]

def SendCall.envelope (c : SendCall) : Value := .obj (envelopeItems c)

/-- `json.dumps(envelope, ensure_ascii=False)`. -/
def SendCall.dumps (c : SendCall) : PyStr := PyUnicode.dumps 1 c.envelope

/-- `payload is None and not source_health`. -/
def SendCall.isEmpty (c : SendCall) : Bool :=
  c.payload.isNone && c.sourceHealth.all (·.fields.isEmpty)

theorem distinct_orNone (s : PyStr) : PyUnicode.Distinct (orNone s) := by
  unfold orNone
  split <;> constructor

theorem SendCall.distinct_envelope (c : SendCall) : PyUnicode.Distinct c.envelope := by
  apply PyUnicode.Distinct.obj
  · simp only [envelopeItems, List.map_cons, List.map_nil]
    decide
  · simp only [envelopeItems, List.forall_mem_cons]
    exact ⟨.str _, distinct_orNone _, .str _, .str _, .str _, PyDict.distinct _,
      PyDict.distinct _, distinct_orNone _, distinct_orNone _, distinct_orNone _,
      distinct_orNone _, distinct_orNone _, distinct_orNone _, distinct_orNone _,
      distinct_orNone _, .str _, by simp⟩

/-! ### Envelopes over texts -/

/-- A call whose envelope has a text that encodes. -/
structure TextCall extends SendCall where
  encodes : Encodes toSendCall.dumps

/-- The envelope, over texts. -/
def TextCall.envelope (c : TextCall) : Json := Value.toJson c.toSendCall.envelope

/-- The text of an envelope. -/
def envelopeText (e : Json) : Text := dumps 1 e

def isDict : Json → Bool
  | .obj _ => true
  | _ => false

def SendCall.asText (c : SendCall) : Option TextCall :=
  if h : Encodes c.dumps then some ⟨c, h⟩ else none

theorem TextCall.asText_eq (c : TextCall) : c.toSendCall.asText = some c := dif_pos c.encodes

theorem SendCall.eq_of_asText {c : SendCall} {d : TextCall} (h : c.asText = some d) :
    c = d.toSendCall := by
  unfold SendCall.asText at h
  split at h
  · rw [← Option.some.inj h]
  · cases h

theorem SendCall.asText_eq_none_iff {c : SendCall} : c.asText = none ↔ ¬ Encodes c.dumps := by
  unfold SendCall.asText
  split <;> simp [*]

namespace TextCall

variable (c : TextCall)

theorem encode_dumps : encode c.dumps = some (envelopeText c.envelope) :=
  PyUnicode.encode_dumps c.encodes

theorem distinct_envelope : Distinct c.envelope :=
  c.toSendCall.distinct_envelope.toJson c.encodes

theorem loads_envelopeText : loads (envelopeText c.envelope) = some c.envelope :=
  loads_dumps 1 c.distinct_envelope

theorem encodes_items : ∀ f ∈ envelopeItems c.toSendCall,
    Encodes f.1 ∧ Encodes (PyUnicode.dumps 1 f.2) :=
  PyUnicode.encodes_obj_iff.mp c.encodes

theorem encodes_msgType : Encodes c.msgType :=
  PyUnicode.encodes_str_iff.mp (c.encodes_items _ (List.mem_of_getElem? (i := 3) rfl)).2

end TextCall

/-! ### The network -/

/-- `float(str(raw).strip())` of a `Retry-After` header. -/
inductive HeaderSeconds where
  | nan
  | infinite (negative : Bool)
  | finite (x : ℚ)
deriving DecidableEq

/-- What one POST comes to.  A lost answer is a network error for the agent, after the server
    has taken the envelope in. -/
inductive Answer where
  | accepted
  | httpError (code : Nat) (retryAfter : Option HeaderSeconds)
  | answerLost
  | networkError
deriving DecidableEq

/-- One POST: its answer and `time.time()` when the answer is read. -/
structure Exchange where
  answer : Answer
  clock : ℚ
deriving DecidableEq

/-- What one `_deliver` meets: the clock it reads first, and its two attempts. -/
structure Contact where
  clock : ℚ
  first : Exchange
  second : Exchange
deriving DecidableEq

/-- `_retry_after`; `none` is a NaN. -/
def retryAfter : Option HeaderSeconds → Option ℚ
  | none => some defaultThrottleSec
  | some .nan => none
  | some (.infinite true) => some defaultThrottleSec
  | some (.infinite false) => some maxThrottleSec
  | some (.finite wait) =>
    if wait ≤ 0 then some defaultThrottleSec else some (min wait maxThrottleSec)

/-! ### State -/

/-- What became of an envelope, or of a line of the buffer. -/
inductive Event where
  | handed (e : Json)
  | taken (e : Json)
  | delivered (e : Json)
  | rejected (e : Json)
  | oversize (e : Json)
  | trimmed (line : Text)
  | corrupt (line : Text)

structure Transport where
  buffer : Option Text := none
  throttledUntil : Option ℚ := some 0
  log : List Event := []

def Transport.record (t : Transport) (events : List Event) : Transport :=
  { t with log := t.log ++ events }

def Transport.throttle (t : Transport) (deadline : Option ℚ) : Transport :=
  { t with throttledUntil := deadline }

@[simp] theorem Transport.throttle_buffer (t : Transport) (deadline : Option ℚ) :
    (t.throttle deadline).buffer = t.buffer := rfl

@[simp] theorem Transport.throttle_log (t : Transport) (deadline : Option ℚ) :
    (t.throttle deadline).log = t.log := rfl

@[simp] theorem Transport.record_buffer (t : Transport) (events : List Event) :
    (t.record events).buffer = t.buffer := rfl

@[simp] theorem Transport.record_throttledUntil (t : Transport) (events : List Event) :
    (t.record events).throttledUntil = t.throttledUntil := rfl

@[simp] theorem Transport.record_log (t : Transport) (events : List Event) :
    (t.record events).log = t.log ++ events := rfl

/-! ### Delivery -/

inductive Attempt where
  | ok
  | drop
  | throttled
  | retry
  /-- `envelope.get` on what is no dictionary -/
  | attributeError
deriving DecidableEq

def isThrottle (code : Nat) : Bool := code == 408 || code == 425 || code == 429

def isRejection (code : Nat) : Bool := decide (400 ≤ code ∧ code < 500)

/-- `_attempt`.  Every path but the accepting one reads `envelope.get("msg_type")`. -/
def attempt (e : Json) (x : Exchange) (t : Transport) : Attempt × Transport :=
  let failed (a : Attempt) := if isDict e then a else .attributeError
  match x.answer with
  | .accepted => (.ok, t.record [.taken e, .delivered e])
  | .httpError code header =>
    if isThrottle code then
      (failed .throttled, t.throttle ((retryAfter header).map (x.clock + ·)))
    else if isRejection code then
      (failed .drop, if isDict e then t.record [.rejected e] else t)
    else (failed .retry, t)
  | .answerLost => (failed .retry, t.record [.taken e])
  | .networkError => (failed .retry, t)

inductive Delivery where
  | handled
  | refused
  | attributeError
deriving DecidableEq

/-- The loop over the attempts. -/
def attempts (e : Json) : List Exchange → Transport → Delivery × Transport
  | [], t => (.refused, t)
  | x :: xs, t =>
    match attempt e x t with
    | (.ok, t) => (.handled, t)
    | (.drop, t) => (.handled, t)
    | (.throttled, t) => (.refused, t)
    | (.attributeError, t) => (.attributeError, t)
    | (.retry, t) => attempts e xs t

/-- `time.time() < self._throttled_until`. -/
def Transport.isThrottled (t : Transport) (clock : ℚ) : Bool :=
  t.throttledUntil.any (clock < ·)

/-- `_deliver`. -/
def deliver (cfg : ClientConfig) (e : Json) (c : Contact) (t : Transport) :
    Delivery × Transport :=
  if cfg.offlineMode then (.refused, t)
  else if t.isThrottled c.clock then (.refused, t)
  else attempts e [c.first, c.second] t

/-! ### The buffer -/

/-- `_read_buffer`. -/
def readBuffer (t : Transport) : List Text :=
  match t.buffer with
  | none => []
  | some text => nonblankLines text

/-- `_write_buffer`; no lines, no file. -/
def writeBuffer (lines : List Text) (t : Transport) : Transport :=
  { t with buffer := if lines = [] then none else some (joinLines lines ++ ['\n']) }

/-- `st_size` of a text file whose line ends are `nl` bytes long. -/
def fileSize (nl : Nat) (text : Text) : Nat := utf8Len text + (nl - 1) * text.count '\n'

/-- The loop that drops the oldest lines while their bytes exceed the cap. -/
def dropOldest (nl : Nat) : List Text → Nat → List Text
  | [], _ => []
  | l :: ls, total =>
    if maxBufferBytes < total then dropOldest nl ls (total - (utf8Len l + nl)) else l :: ls

/-- The lines that `_trim_buffer` keeps of a file of the given text. -/
def keptLines (nl : Nat) (text : Text) : List Text :=
  let lines := nonblankLines text
  let kept := lines.drop (lines.length - maxBufferLines)
  if maxBufferBytes < fileSize nl text then
    dropOldest nl kept (kept.map fun l => utf8Len l + nl).sum
  else kept

/-- `_trim_buffer`. -/
def trimBuffer (nl : Nat) (t : Transport) : Transport :=
  match t.buffer with
  | none => t
  | some text =>
    let lines := nonblankLines text
    let kept := keptLines nl text
    if kept.length ≠ lines.length then
      (writeBuffer kept t).record ((lines.take (lines.length - kept.length)).map .trimmed)
    else t

/-- `_append_buffer`. -/
def appendBuffer (nl : Nat) (e : Json) (t : Transport) : Transport :=
  trimBuffer nl { t with buffer := some (t.buffer.getD [] ++ envelopeText e ++ ['\n']) }

/-! ### `flush_buffer` and `send` -/

/-- The loop of `flush_buffer`: the lines that remain, `none` when it raises.  After the first
    refusal the loop only copies. -/
def replay (cfg : ClientConfig) (contacts : Nat → Contact) :
    List Text → Transport → Option (List Text) × Transport
  | [], t => (some [], t)
  | line :: lines, t =>
    match loads line with
    | none => replay cfg contacts lines (t.record [.corrupt line])
    | some e =>
      match deliver cfg e (contacts 0) t with
      | (.handled, t) => replay cfg (fun i => contacts (i + 1)) lines t
      | (.refused, t) => (some (line :: lines), t)
      | (.attributeError, t) => (none, t)

/-- `flush_buffer`. -/
def flushBuffer (cfg : ClientConfig) (contacts : Nat → Contact) (t : Transport) : Transport :=
  let lines := readBuffer t
  if lines = [] then t
  else
    match replay cfg contacts lines t with
    | (some remaining, t) => writeBuffer remaining t
    | (none, t) => t

inductive SendError where
  | unicodeEncode
  | attribute
deriving DecidableEq

/-- `flush_buffer`, with what it raises. -/
def tryFlush (cfg : ClientConfig) (contacts : Nat → Contact) (t : Transport) :
    Option SendError × Transport :=
  let lines := readBuffer t
  if lines = [] then (none, t)
  else
    match replay cfg contacts lines t with
    | (some remaining, t) => (none, writeBuffer remaining t)
    | (none, t) => (some .attribute, t)

/-- What `send` does after the delivery of the fresh envelope. -/
def finishSend (nl : Nat) (cfg : ClientConfig) (e : Json) (contacts : Nat → Contact) :
    Delivery × Transport → Option SendError × Transport
  | (.handled, t) => tryFlush cfg contacts t
  | (.refused, t) => (none, appendBuffer nl e t)
  | (.attributeError, t) => (some .attribute, t)

/-- `send`, with what it raises: the fresh envelope first, the backlog after it. -/
def send (nl : Nat) (c : SendCall) (contacts : Nat → Contact) (t : Transport) :
    Option SendError × Transport :=
  if c.isEmpty then (none, t)
  else
    match encode c.dumps with
    | none => (some .unicodeEncode, t)
    | some body =>
      let e := Value.toJson c.envelope
      let t := t.record [.handed e]
      if maxPayloadBytes < utf8Len body then (none, t.record [.oversize e])
      else finishSend nl c.cfg e (fun i => contacts (i + 1)) (deliver c.cfg e (contacts 0) t)

/-- What `send` leaves behind where the text encodes. -/
def sendText (nl : Nat) (c : TextCall) (contacts : Nat → Contact) (t : Transport) : Transport :=
  if c.isEmpty then t
  else
    let t := t.record [.handed c.envelope]
    if maxPayloadBytes < utf8Len (envelopeText c.envelope) then
      t.record [.oversize c.envelope]
    else
      match deliver c.cfg c.envelope (contacts 0) t with
      | (.handled, t) => flushBuffer c.cfg (fun i => contacts (i + 1)) t
      | (.refused, t) => appendBuffer nl c.envelope t
      | (.attributeError, t) => t

theorem tryFlush_snd (cfg : ClientConfig) (contacts : Nat → Contact) (t : Transport) :
    (tryFlush cfg contacts t).2 = flushBuffer cfg contacts t := by
  unfold tryFlush flushBuffer
  dsimp only
  split
  · rfl
  · generalize replay cfg contacts (readBuffer t) t = r
    obtain ⟨outcome, t'⟩ := r
    cases outcome with
    | none => rfl
    | some remaining => rfl

theorem send_snd (nl : Nat) (c : TextCall) (contacts : Nat → Contact) (t : Transport) :
    (send nl c.toSendCall contacts t).2 = sendText nl c contacts t := by
  unfold send sendText
  rw [c.encode_dumps]
  split
  · rfl
  · dsimp only
    split
    · rfl
    · show (finishSend nl c.cfg c.envelope (fun i => contacts (i + 1))
        (deliver c.cfg c.envelope (contacts 0) (t.record [.handed c.envelope]))).2 = _
      generalize deliver c.cfg c.envelope (contacts 0) (t.record [.handed c.envelope]) = r
      obtain ⟨outcome, t'⟩ := r
      cases outcome with
      | handled => exact tryFlush_snd _ _ _
      | refused => rfl
      | attributeError => rfl

/-- Without a text nothing is sent. -/
theorem send_snd_none (nl : Nat) {c : SendCall} (h : c.asText = none) (contacts : Nat → Contact)
    (t : Transport) : (send nl c contacts t).2 = t := by
  unfold send
  rw [PyUnicode.encode_eq_none_iff.mpr (SendCall.asText_eq_none_iff.mp h)]
  split <;> rfl

/-- A call whose text does not encode raises, and nothing is sent. -/
theorem send_surrogate (nl : Nat) {c : SendCall} (hempty : c.isEmpty = false)
    (hencodes : ¬ Encodes c.dumps) (contacts : Nat → Contact) (t : Transport) :
    send nl c contacts t = (some .unicodeEncode, t) := by
  unfold send
  rw [hempty, PyUnicode.encode_eq_none_iff.mpr hencodes]
  rfl

theorem tryFlush_fst_ne (cfg : ClientConfig) (contacts : Nat → Contact) (t : Transport) :
    (tryFlush cfg contacts t).1 ≠ some .unicodeEncode := by
  unfold tryFlush
  dsimp only
  split
  · simp
  · split <;> simp

/-- Nothing else raises so. -/
theorem send_fst_iff (nl : Nat) {c : SendCall} (contacts : Nat → Contact) (t : Transport) :
    (send nl c contacts t).1 = some .unicodeEncode ↔ c.isEmpty = false ∧ ¬ Encodes c.dumps := by
  constructor
  · intro h
    unfold send at h
    cases hempty : c.isEmpty with
    | true =>
      rw [hempty] at h
      cases h
    | false =>
      refine ⟨rfl, PyUnicode.encode_eq_none_iff.mp ?_⟩
      rw [hempty] at h
      cases hbody : encode c.dumps with
      | none => rfl
      | some body =>
        rw [hbody] at h
        simp only [Bool.false_eq_true, if_false] at h
        split at h
        · cases h
        · unfold finishSend at h
          split at h
          · exact absurd h (tryFlush_fst_ne _ _ _)
          · cases h
          · cases h
  · rintro ⟨hempty, hencodes⟩
    rw [send_surrogate nl hempty hencodes]

end Srp.Client
