/-
  Srp/Zabbix/Packets.lean
  =======================
  **Sending, as bytes** (`build_packet` of `server/zabbix/protocol.py`,
  `send_batch` and `send` of `server/zabbix/sender.py`).

  The level below `Export.lean`: there a batch is a list of items and the other
  side answers it, here a packet is written to a connection and a reply is read
  from it.  `send_refines` connects the two: what a trapper reads from the packets
  of one call of `send` is, packet by packet, what the cycle counts as sent, under
  the time stamps of the batches, and both come to one result.
-/
import Srp.Lib.PyEncode
import Srp.Zabbix.Wire

namespace Srp.Zabbix.Wire

open Srp.Lib Srp.Lib.Framing Srp.Lib.Lines Srp.Lib.Octets Srp.Lib.PyEncode Srp.Lib.PyJson

/-! ### Packets -/

/-- `clock` and `ns` of a packet. -/
structure Stamp where
  clock : Int
  ns : Int
deriving DecidableEq, Repr

/-- `struct.error`: the length of the body does not fit in its four octets. -/
structure StructError where
deriving DecidableEq, Repr

def itemJson (i : Item) : Json :=
  .obj [("host".toList, .str i.host.toList), ("key".toList, .str i.key.toList),
    ("value".toList, .str i.value.toList)]

def requestJson (items : List Item) (stamp : Stamp) : Json :=
  .obj [("request".toList, .str "sender data".toList), ("data".toList, .arr (items.map itemJson)),
    ("clock".toList, .int stamp.clock), ("ns".toList, .int stamp.ns)]

def requestBody (items : List Item) (stamp : Stamp) : Bytes :=
  encodeUtf8 (dumps 0 (requestJson items stamp))

/-- `build_packet`: `none` if there is nothing to send. -/
def buildPacket (items : List Item) (stamp : Stamp) : Except StructError (Option Bytes) :=
  if items = [] then .ok none
  else if (requestBody items stamp).length < 2 ^ 32 then
    .ok (some (frame flagZabbix 0 (requestBody items stamp)))
  else .error {}

/-! ### Connections -/

/-- What one connection does: it is refused (`unreached`), or it takes the packet and hands over
    `chunks` until it ends. -/
structure Exchange where
  unreached : Option ErrorKind
  chunks : List Chunk
  ending : ErrorKind

/-- One call of `send`: the clock when it starts and before each batch, the stamps of the
    batches and their connections. -/
structure Line where
  start : ℚ
  now : Nat → ℚ
  stamp : Nat → Stamp
  exchange : Nat → Exchange

variable (C : Codec)

/-- `send_batch`: the packet that is written, and the result. -/
def sendBatch (stamp : Stamp) (x : Exchange) (items : List Item) :
    Except StructError (Option Bytes × SendResult) := do
  match ← buildPacket items stamp with
  | none => return (none, ⟨0, 0, 0, none⟩)
  | some packet =>
    match x.unreached with
    | some kind => return (none, ⟨0, 0, items.length, some kind⟩)
    | none =>
      match readResponse C x.ending x.chunks with
      | .error kind => return (some packet, ⟨0, 0, items.length, some kind⟩)
      | .ok r =>
        if r.ok then
          return (some packet, ⟨r.processed.getD items.length, r.failed.getD 0,
            r.total.getD items.length, none⟩)
        else return (some packet, ⟨0, 0, items.length, some .rejected⟩)

/-- The sums of a call of `send` with those of one more batch. -/
def added (acc result : SendResult) : SendResult :=
  ⟨acc.processed + result.processed, acc.failed + result.failed, acc.total + result.total,
    result.error⟩

/-- The batches from number `i` on: the packets that are written, and the result. -/
def sendFrom (l : Line) (i : Nat) (acc : SendResult) :
    List (List Item) → Except StructError (List Bytes × SendResult)
  | [] => .ok ([], acc)
  | batch :: batches =>
    if l.now i > l.start + maxTotalSec then .ok ([], { acc with error := some .budget })
    else
      match sendBatch C (l.stamp i) (l.exchange i) batch with
      | .error e => .error e
      | .ok (packet, result) =>
        let acc := added acc result
        if result.error.isSome then .ok (packet.toList, acc)
        else
          match sendFrom l (i + 1) acc batches with
          | .error e => .error e
          | .ok rest => .ok (packet.toList ++ rest.1, rest.2)

def send (l : Line) (items : List Item) : Except StructError (List Bytes × SendResult) :=
  sendFrom C l 0 ⟨0, 0, 0, none⟩ (chunks items batchSize)

/-! ### What a trapper reads -/

/-- The string under a key of an object. -/
def textAt (fields : List (Text × Json)) (key : String) : Option String :=
  match fields.lookup key.toList with
  | some (.str t) => some (String.ofList t)
  | _ => none

def intAt (fields : List (Text × Json)) (key : String) : Option Int :=
  match fields.lookup key.toList with
  | some (.int n) => some n
  | _ => none

def readItem : Json → Option Item
  | .obj fields => do
    return ⟨← textAt fields "host", ← textAt fields "key", ← textAt fields "value"⟩
  | _ => none

def readRequest : Json → Option (List Item × Stamp)
  | .obj fields => do
    let request ← textAt fields "request"
    let items ← match fields.lookup "data".toList with
      | some (.arr data) => data.mapM readItem
      | _ => none
    let stamp : Stamp := ⟨← intAt fields "clock", ← intAt fields "ns"⟩
    if request = "sender data" then some (items, stamp) else none
  | _ => none

/-- The values of a packet: a whole frame with nothing behind it, UTF-8, JSON, and a request to
    take data. -/
def received (packet : Bytes) : Option (List Item × Stamp) :=
  if packet.take 5 = headerTag ++ [flagZabbix] ∧
      (packet.drop headerLen).length = ofLe ((packet.drop 5).take 4) then do
    let text ← String.fromUTF8? ⟨(packet.drop headerLen).toArray⟩
    readRequest (← PyJson.loads text.toList)
  else none

/-! ### Packets carry their items -/

theorem distinct_itemJson (i : Item) : Distinct (itemJson i) := by
  apply Distinct.obj
  · simp only [List.map_cons, List.map_nil]
    decide
  · simp only [List.forall_mem_cons]
    exact ⟨.str _, .str _, .str _, by simp⟩

theorem distinct_requestJson (items : List Item) (stamp : Stamp) :
    Distinct (requestJson items stamp) := by
  have hdata : ∀ j ∈ items.map itemJson, Distinct j := by
    intro j hj
    obtain ⟨i, _, rfl⟩ := List.mem_map.mp hj
    exact distinct_itemJson i
  apply Distinct.obj
  · simp only [List.map_cons, List.map_nil]
    decide
  · simp only [List.forall_mem_cons]
    exact ⟨.str _, .arr hdata, .int _, .int _, by simp⟩

theorem readItem_itemJson (i : Item) : readItem (itemJson i) = some i := by
  have hof : ∀ s : String, String.ofList s.toList = s := fun s => String.ofList_toList
  simp [readItem, itemJson, textAt, List.lookup, hof]

theorem readRequest_requestJson (items : List Item) (stamp : Stamp) :
    readRequest (requestJson items stamp) = some (items, stamp) := by
  have hdata : (items.map itemJson).mapM readItem = some items := by
    induction items with
    | nil => rfl
    | cons i items ih => simp [readItem_itemJson, ih]
  simp [readRequest, requestJson, textAt, intAt, List.lookup, hdata]

theorem received_frame {items : List Item} {stamp : Stamp}
    (h : (requestBody items stamp).length < 2 ^ 32) :
    received (frame flagZabbix 0 (requestBody items stamp)) = some (items, stamp) := by
  have hbody : (frame flagZabbix 0 (requestBody items stamp)).drop headerLen =
      requestBody items stamp := rfl
  have hlength : ((frame flagZabbix 0 (requestBody items stamp)).drop 5).take 4 =
      le32 (requestBody items stamp).length := rfl
  have htext : PyJson.loads (dumps 0 (requestJson items stamp)) = some (requestJson items stamp) :=
    loads_dumps 0 (distinct_requestJson items stamp)
  unfold received
  rw [hbody, hlength, ofLe_le32 h, if_pos ⟨rfl, rfl⟩]
  unfold requestBody
  rw [fromUTF8?_encodeUtf8]
  simp [htext, readRequest_requestJson]

/-! ### Bytes below items -/

/-- What the cycle knows of a connection. -/
def Exchange.answer (x : Exchange) : Answer :=
  match x.unreached with
  | some kind => .unreached kind
  | none =>
    match readResponse C x.ending x.chunks with
    | .ok r => .response r.toResponse
    | .error kind => .lost kind

def Line.channel (l : Line) : Channel where
  start := l.start
  now := l.now
  answer i := (l.exchange i).answer C

variable {C}

/-- One batch: its packet is written iff the connection is reached, and the result is that of the
    answer. -/
theorem sendBatch_of_packet {items : List Item} {stamp : Stamp} {packet : Bytes} (x : Exchange)
    (h : buildPacket items stamp = .ok (some packet)) :
    sendBatch C stamp x items = .ok (if (x.answer C).reached then some packet else none,
      Zabbix.sendBatch items (x.answer C)) := by
  unfold sendBatch Exchange.answer
  rw [h]
  simp only [bind, Except.bind, pure, Except.pure]
  cases x.unreached with
  | some kind => rfl
  | none =>
    cases readResponse C x.ending x.chunks with
    | error kind => rfl
    | ok r =>
      cases hok : r.ok with
      | true => simp [Zabbix.sendBatch, Answer.reached, hok]
      | false => simp [Zabbix.sendBatch, Answer.reached, hok]

theorem sendBatch_cases {items : List Item} (hne : items ≠ []) (stamp : Stamp) (x : Exchange) :
    (∃ packet, received packet = some (items, stamp) ∧
      sendBatch C stamp x items = .ok (if (x.answer C).reached then some packet else none,
        Zabbix.sendBatch items (x.answer C))) ∨
    (sendBatch C stamp x items = .error {} ∧ 2 ^ 32 ≤ (requestBody items stamp).length) := by
  by_cases hfits : (requestBody items stamp).length < 2 ^ 32
  · have hbuild : buildPacket items stamp =
        .ok (some (frame flagZabbix 0 (requestBody items stamp))) := by
      unfold buildPacket
      rw [if_neg hne, if_pos hfits]
    exact .inl ⟨_, received_frame hfits, sendBatch_of_packet x hbuild⟩
  · refine .inr ⟨?_, not_lt.mp hfits⟩
    unfold sendBatch buildPacket
    rw [if_neg hne, if_neg hfits]
    rfl

/-- The batches from number `i` on, with their stamps. -/
def stamped (l : Line) (i : Nat) (batches : List (List Item)) : List (List Item × Stamp) :=
  (batches.zipIdx i).map fun e => (e.1, l.stamp e.2)

theorem reached_of_error_none {items : List Item} {a : Answer}
    (h : (Zabbix.sendBatch items a).error = none) : a.reached = true := by
  cases a with
  | unreached kind => cases h
  | lost kind => rfl
  | response r => rfl

theorem items_stop {c : Channel} {i : Nat} {batch : List Item}
    (htime : ¬ c.now i > c.start + maxTotalSec)
    (herror : (Zabbix.sendBatch batch (c.answer i)).error.isSome = true) (acc : SendResult)
    (batches : List (List Item)) :
    Zabbix.sendFrom c i acc (batch :: batches) = (if (c.answer i).reached then batch else [],
      added acc (Zabbix.sendBatch batch (c.answer i))) := by
  unfold Zabbix.sendFrom
  rw [if_neg htime]
  simp only [herror, if_true]
  rfl

theorem items_go {c : Channel} {i : Nat} {batch : List Item}
    (htime : ¬ c.now i > c.start + maxTotalSec)
    (hnone : (Zabbix.sendBatch batch (c.answer i)).error = none) (acc : SendResult)
    (batches : List (List Item)) :
    Zabbix.sendFrom c i acc (batch :: batches) =
      (batch ++ (Zabbix.sendFrom c (i + 1) (added acc (Zabbix.sendBatch batch (c.answer i)))
          batches).1,
        (Zabbix.sendFrom c (i + 1) (added acc (Zabbix.sendBatch batch (c.answer i))) batches).2) := by
  have hgo : (Zabbix.sendBatch batch (c.answer i)).error.isSome = false := by simp [hnone]
  rw [Zabbix.sendFrom, if_neg htime]
  simp only [hgo, Bool.false_eq_true, if_false, reached_of_error_none hnone, if_true]
  rfl

/-- `packets` are what the first of `batches` make, and `out` is the result of sending them. -/
structure Refines (C : Codec) (l : Line) (i : Nat) (acc : SendResult) (batches : List (List Item))
    (packets : List Bytes) (out : SendResult) : Prop where
  received : packets.map received = ((stamped l i batches).take packets.length).map some
  sent : Zabbix.sendFrom (l.channel C) i acc batches = ((batches.take packets.length).flatten, out)
  complete : out.error = none → packets.length = batches.length

/-- What the first of the batches does: it comes too late, its packet cannot be built, it is the
    last one because of an error, or the others follow. -/
theorem sendFrom_cons_cases {l : Line} {i : Nat} {batch : List Item} (hne : batch ≠ [])
    (acc : SendResult) (batches : List (List Item)) :
    (l.now i > l.start + maxTotalSec ∧
      sendFrom C l i acc (batch :: batches) = .ok ([], { acc with error := some .budget })) ∨
    (2 ^ 32 ≤ (requestBody batch (l.stamp i)).length ∧
      sendFrom C l i acc (batch :: batches) = .error {}) ∨
    (¬ l.now i > l.start + maxTotalSec ∧
      ∃ packet, received packet = some (batch, l.stamp i) ∧
        (((Zabbix.sendBatch batch ((l.channel C).answer i)).error.isSome = true ∧
          sendFrom C l i acc (batch :: batches) =
            .ok ((if ((l.channel C).answer i).reached then some packet else none).toList,
              added acc (Zabbix.sendBatch batch ((l.channel C).answer i)))) ∨
        ((Zabbix.sendBatch batch ((l.channel C).answer i)).error = none ∧
          sendFrom C l i acc (batch :: batches) =
            (sendFrom C l (i + 1) (added acc (Zabbix.sendBatch batch ((l.channel C).answer i)))
              batches).map fun rest => (packet :: rest.1, rest.2)))) := by
  by_cases hlate : l.now i > l.start + maxTotalSec
  · refine .inl ⟨hlate, ?_⟩
    rw [sendFrom]
    exact if_pos hlate
  · have hanswer : (l.exchange i).answer C = (l.channel C).answer i := rfl
    rcases sendBatch_cases hne (l.stamp i) (l.exchange i) with
      ⟨packet, hreceived, hbatch⟩ | ⟨hraise, hlong⟩
    · refine .inr (.inr ⟨hlate, packet, hreceived, ?_⟩)
      rw [hanswer] at hbatch
      rw [sendFrom, if_neg hlate, hbatch]
      by_cases herror : (Zabbix.sendBatch batch ((l.channel C).answer i)).error.isSome = true
      · refine .inl ⟨herror, ?_⟩
        simp only [herror, if_true]
      · have hnone : (Zabbix.sendBatch batch ((l.channel C).answer i)).error = none := by
          simpa using herror
        refine .inr ⟨hnone, ?_⟩
        simp only [herror, Bool.false_eq_true, if_false, reached_of_error_none hnone, if_true]
        cases sendFrom C l (i + 1) (added acc (Zabbix.sendBatch batch ((l.channel C).answer i)))
          batches <;> rfl
    · refine .inr (.inl ⟨hlong, ?_⟩)
      rw [sendFrom, if_neg hlate, hraise]

theorem sendFrom_refines {l : Line} {i : Nat} {acc : SendResult} {batches : List (List Item)}
    (hne : ∀ batch ∈ batches, batch ≠ []) {packets : List Bytes} {out : SendResult}
    (h : sendFrom C l i acc batches = .ok (packets, out)) :
    Refines C l i acc batches packets out := by
  induction batches generalizing i acc packets with
  | nil =>
    cases h
    exact ⟨rfl, rfl, fun _ => rfl⟩
  | cons batch batches ih =>
    have hstamped : stamped l i (batch :: batches) =
        (batch, l.stamp i) :: stamped l (i + 1) batches := rfl
    rcases sendFrom_cons_cases (hne batch List.mem_cons_self) acc batches with
      ⟨hlate, hstep⟩ | ⟨_, hstep⟩ | ⟨htime, packet, hreceived, ⟨herror, hstep⟩ | ⟨hnone, hstep⟩⟩
    · rw [hstep] at h
      cases h
      refine ⟨rfl, ?_, fun h => by cases h⟩
      rw [Zabbix.sendFrom]
      exact if_pos hlate
    · rw [hstep] at h
      cases h
    · rw [hstep] at h
      cases h
      have hstop : (added acc (Zabbix.sendBatch batch ((l.channel C).answer i))).error ≠ none :=
        Option.isSome_iff_ne_none.mp herror
      by_cases hreached : ((l.channel C).answer i).reached = true
      · rw [if_pos hreached]
        refine ⟨?_, ?_, fun h => absurd h hstop⟩
        · simp [hreceived, hstamped]
        · rw [items_stop htime herror, if_pos hreached]
          simp
      · rw [if_neg hreached]
        refine ⟨rfl, ?_, fun h => absurd h hstop⟩
        rw [items_stop htime herror, if_neg hreached]
        rfl
    · rw [hstep] at h
      cases hrest : sendFrom C l (i + 1)
          (added acc (Zabbix.sendBatch batch ((l.channel C).answer i))) batches with
      | error e =>
        rw [hrest] at h
        cases h
      | ok rest =>
        rw [hrest] at h
        cases h
        have hih := ih (fun b hb => hne b (List.mem_cons_of_mem batch hb)) hrest
        refine ⟨?_, ?_, ?_⟩
        · simp [hstamped, hreceived, hih.received]
        · rw [items_go htime hnone, hih.sent]
          simp
        · intro h
          simp [hih.complete h]

theorem sendFrom_raises {l : Line} {i : Nat} {acc : SendResult} {batches : List (List Item)}
    (hne : ∀ batch ∈ batches, batch ≠ []) {e : StructError}
    (h : sendFrom C l i acc batches = .error e) :
    ∃ b ∈ stamped l i batches, 2 ^ 32 ≤ (requestBody b.1 b.2).length := by
  induction batches generalizing i acc with
  | nil => cases h
  | cons batch batches ih =>
    have hstamped : stamped l i (batch :: batches) =
        (batch, l.stamp i) :: stamped l (i + 1) batches := rfl
    rw [hstamped]
    rcases sendFrom_cons_cases (hne batch List.mem_cons_self) acc batches with
      ⟨_, hstep⟩ | ⟨hlong, _⟩ | ⟨_, _, _, ⟨_, hstep⟩ | ⟨_, hstep⟩⟩
    · rw [hstep] at h
      cases h
    · exact ⟨_, List.mem_cons_self, hlong⟩
    · rw [hstep] at h
      cases h
    · rw [hstep] at h
      cases hrest : sendFrom C l (i + 1)
          (added acc (Zabbix.sendBatch batch ((l.channel C).answer i))) batches with
      | error e =>
        obtain ⟨b, hb, hlong⟩ := ih (fun b hb => hne b (List.mem_cons_of_mem batch hb)) hrest
        exact ⟨b, List.mem_cons_of_mem _ hb, hlong⟩
      | ok rest =>
        rw [hrest] at h
        cases h

/-! ### Batches -/

theorem flatten_slices {α : Type} (xs : List α) (step k : Nat) :
    ((List.range k).map fun i => (xs.drop (i * step)).take step).flatten = xs.take (k * step) := by
  induction k with
  | zero => simp
  | succ k ih =>
    rw [List.range_succ, List.map_append, List.flatten_append, ih, Nat.succ_mul, List.take_add]
    simp

theorem flatten_chunks (items : List Item) : (chunks items batchSize).flatten = items := by
  unfold chunks batchSize
  rw [flatten_slices]
  apply List.take_of_length_le
  simp only [show max 1 250 = 250 from rfl]
  omega

theorem ne_nil_of_mem_chunks {items batch : List Item} (h : batch ∈ chunks items batchSize) :
    batch ≠ [] := by
  obtain ⟨i, hi, rfl⟩ := List.mem_map.mp h
  have hlt := List.mem_range.mp hi
  simp only [batchSize, show max 1 250 = 250 from rfl] at hlt ⊢
  rw [ne_eq, List.take_eq_nil_iff, List.drop_eq_nil_iff]
  omega

/-- **The sender on bytes refines the sender on items.**  What a trapper reads from the packets
    of a call are its first batches, whole and under their stamps; their items are the ones that
    the cycle counts as sent, and the result is the same.  All items are sent if there is no
    error, and a call raises only over a batch whose JSON is 4 GiB or more. -/
theorem send_refines (C : Codec) (l : Line) (items : List Item) :
    (∀ packets out, send C l items = .ok (packets, out) →
      packets.map received =
        ((stamped l 0 (chunks items batchSize)).take packets.length).map some ∧
      Zabbix.send (l.channel C) items =
        (((chunks items batchSize).take packets.length).flatten, out) ∧
      (out.error = none → (Zabbix.send (l.channel C) items).1 = items)) ∧
    (∀ e, send C l items = .error e →
      ∃ b ∈ stamped l 0 (chunks items batchSize), 2 ^ 32 ≤ (requestBody b.1 b.2).length) := by
  have hne : ∀ batch ∈ chunks items batchSize, batch ≠ [] := fun _ h => ne_nil_of_mem_chunks h
  refine ⟨?_, fun e h => sendFrom_raises hne h⟩
  intro packets out h
  have href := sendFrom_refines hne h
  have hsent : Zabbix.send (l.channel C) items =
      (((chunks items batchSize).take packets.length).flatten, out) := href.sent
  refine ⟨href.received, hsent, ?_⟩
  intro hok
  rw [hsent, href.complete hok, List.take_length, flatten_chunks]

end Srp.Zabbix.Wire
