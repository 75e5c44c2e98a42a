/-
  Srp/Server/Outage.lean
  ======================
  **Agent and server across an outage.**

  The two run together: the bodies that the transport gets through are ingested
  in that order.  The server may forget idempotency keys (a restart, a trim), and
  the agent may restart, which keeps its buffer.  `Consistent` is what every run
  keeps: the server holds, of each kind, what filing the received envelopes one
  after another leaves.  `inOrder_run` adds the order, for runs in which no fresh
  envelope of a kind reaches the server while another one of it waits.
-/
import Srp.Client.Backlog
import Srp.Server.Readings

namespace Srp.Server

open Srp.Client Srp.Lib Srp.Lib.IsoTime Srp.Lib.Lines Srp.Lib.Outbox Srp.Lib.PyJson
open Srp.Lib.PyUnicode (Value ofText scalars)

/-! ### The protocol -/

structure Outage where
  agent : Transport := {}
  server : ServerDb := {}

inductive Turn where
  | call (x : Call)
  | restartAgent
  | forgetKeys (kept : Text → Bool)

/-- The server ingests what a call of the agent gets through. -/
def outage (nl : Nat) (caps : Retention) : Machine Outage Turn Unit where
  next s
    | .call x =>
      let agent := (transport nl).next s.agent x
      { agent := agent,
        server := (agent.taken.drop s.agent.taken.length).foldl (ingest caps) s.server }
    | .restartAgent => { s with agent := s.agent.throttle (some 0) }
    | .forgetKeys kept =>
      { s with server := { s.server with seenKeys := s.server.seenKeys.filter kept } }
  out _ _ := ()

/-- The call of `send` that builds an envelope in this turn and does not raise over its text. -/
def Turn.created : Turn → Option TextCall
  | .call (.send c _) => if c.isEmpty then none else c.asText
  | _ => none

def created (turns : List Turn) : List TextCall := turns.filterMap Turn.created

theorem Turn.created_send {c : TextCall} (h : c.isEmpty = false) (contacts : Nat → Contact) :
    Turn.created (.call (.send c.toSendCall contacts)) = some c := by
  rw [Turn.created, h, c.asText_eq]
  rfl

/-- The envelopes of one agent: one device, increasing times, keys that are drawn once. -/
structure OneAgent (deviceId : Text) (turns : List Turn) : Prop where
  device : ∀ c ∈ created turns, c.cfg.deviceId = ofText deviceId
  increasing : (created turns).Pairwise fun c d => c.now < d.now
  keys : ((created turns).map (·.idempotencyKey)).Nodup

/-! ### The conditions on a turn -/

def ofKind (kind : ReadingKind) (body : Json) : Bool :=
  (readEnvelope body).any (·.msgType = kind.name)

/-- No envelope of the kind waits when a fresh one reaches the server. -/
def NothingWaits (kind : ReadingKind) : Outage → Turn → Prop
  | s, .call (.send c contacts) =>
    ∀ d, c.asText = some d → c.msgType = ofText kind.name → d.isPosted = true →
      reaches c.cfg (contacts 0) s.agent = true → s.agent.backlog (ofKind kind) = []
  | _, _ => True

/-- No envelope is buffered in pieces. -/
def WholeLines : Outage → Turn → Prop
  | s, .call x => BuffersOneLine s.agent x
  | _, _ => True

theorem wholeLines_send {c : TextCall}
    (h : (envelopeText c.envelope).all (fun ch => !isUnescapedBreak ch) = true)
    (contacts : Nat → Contact) (s : Outage) :
    WholeLines s (.call (.send c.toSendCall contacts)) :=
  (buffersOneLine_iff _ _ _).mpr fun _ _ _ => noBreak_of_all h

/-! ### Envelopes of the agent -/

/-- The envelope as the server reads it. -/
def asReceived (c : TextCall) : Envelope where
  deviceId := scalars c.cfg.deviceId
  msgType := scalars c.msgType
  ts := (isoformat c.now).toList
  payload := Value.toFields (c.payload.getD .empty).fields
  idempotencyKey := some c.idempotencyKey

theorem readEnvelope_envelope (c : TextCall) :
    readEnvelope c.envelope = some (asReceived c) := by
  simp only [TextCall.envelope, SendCall.envelope, envelopeItems, Value.toJson, Value.toFields,
    PyUnicode.scalars_ofText]
  rfl

theorem ofKind_envelope (kind : ReadingKind) (c : TextCall) :
    ofKind kind c.envelope = decide (c.msgType = ofText kind.name) := by
  rw [ofKind, readEnvelope_envelope]
  exact decide_eq_decide.mpr c.encodes_msgType.scalars_eq_iff

/-- Created no later than. -/
def Earlier (x y : Json) : Prop :=
  ∀ c d : TextCall, c.envelope = x → d.envelope = y → c.now ≤ d.now

theorem now_eq_of_envelope_eq {c d : TextCall} (h : c.envelope = d.envelope) : c.now = d.now := by
  have hread := congrArg readEnvelope h
  rw [readEnvelope_envelope, readEnvelope_envelope] at hread
  have hsame : asReceived c = asReceived d := Option.some.inj hread
  have hts := congrArg Envelope.ts hsame
  simp only [asReceived] at hts
  exact isoformat_injective (String.toList_injective hts)

theorem earlier_refl (x : Json) : Earlier x x := by
  intro c d hc hd
  exact (now_eq_of_envelope_eq (hc.trans hd.symm)).le

theorem earlier_envelope {c d : TextCall} (h : c.now ≤ d.now) :
    Earlier c.envelope d.envelope := by
  intro c' d' hc hd
  rw [now_eq_of_envelope_eq hc, now_eq_of_envelope_eq hd]
  exact h

/-! ### Ingesting -/

def keyOf (body : Json) : Option Text := (readEnvelope body).bind (·.idempotencyKey)

def rowOf (body : Json) : Option ReadingRow := (readEnvelope body).map Envelope.row

theorem keyOf_envelope (c : TextCall) : keyOf c.envelope = some c.idempotencyKey := by
  rw [keyOf, readEnvelope_envelope]
  rfl

theorem rowOf_envelope (c : TextCall) : rowOf c.envelope = some (asReceived c).row := by
  rw [rowOf, readEnvelope_envelope]
  rfl

/-- The server's state after some bodies: each kind is filed, and every key belongs to a body. -/
structure Serves (caps : Retention) (deviceId : Text) (bodies : List Json) (db : ServerDb) :
    Prop where
  filed : ∀ kind : ReadingKind, ∃ rows, Filed (bodies.filter (ofKind kind)) rows ∧
    kind.Holds caps deviceId (rows.filterMap rowOf) (kind.table db)
  keys : ∀ key ∈ db.seenKeys, ∃ b ∈ bodies, keyOf b = some key

section Serves

variable {caps : Retention} {deviceId : Text} {bodies : List Json} {db : ServerDb}

theorem mem_seenKeys_markSeen {key k : Text} {db : ServerDb}
    (h : k ∈ (markSeen (some key) db).seenKeys) : k = key ∨ k ∈ db.seenKeys := by
  unfold markSeen at h
  dsimp only at h
  split at h
  · exact .inr h
  · exact List.mem_cons.mp h

theorem seenKeys_ingestEnvelope (caps : Retention) (e : Envelope) (db : ServerDb) :
    (ingestEnvelope caps e db).seenKeys = db.seenKeys := by
  unfold ingestEnvelope
  split_ifs <;> rfl

/-- One body: it is filed, or its key shows that it was received before. -/
theorem Serves.ingest (h : Serves caps deviceId bodies db) {c : TextCall}
    (hdevice : c.cfg.deviceId = ofText deviceId)
    (hkey : ∀ b ∈ bodies, keyOf b = some c.idempotencyKey → b = c.envelope) :
    Serves caps deviceId (bodies ++ [c.envelope]) (ingest caps db c.envelope) := by
  have hfilter : ∀ kind, (bodies ++ [c.envelope]).filter (ofKind kind) =
      bodies.filter (ofKind kind) ++ if c.msgType = ofText kind.name then [c.envelope] else [] := by
    intro kind
    rw [List.filter_append]
    congr 1
    by_cases hkind : c.msgType = ofText kind.name <;> simp [ofKind_envelope, hkind]
  unfold Server.ingest
  simp only [readEnvelope_envelope]
  by_cases hseen : hasSeen (asReceived c).idempotencyKey db = true
  · rw [if_pos hseen]
    have hmem : c.envelope ∈ bodies := by
      simp only [hasSeen, asReceived, Bool.and_eq_true, decide_eq_true_eq] at hseen
      obtain ⟨b, hb, hbkey⟩ := h.keys _ hseen.2
      rw [← hkey b hb hbkey]
      exact hb
    refine ⟨?_, ?_⟩
    · intro kind
      obtain ⟨rows, hfiled, hholds⟩ := h.filed kind
      refine ⟨rows, ?_, hholds⟩
      rw [hfilter]
      split
      · rename_i hkind
        apply hfiled.skip
        apply List.mem_filter.mpr
        exact ⟨hmem, by rw [ofKind_envelope]; exact decide_eq_true hkind⟩
      · rw [List.append_nil]
        exact hfiled
    · intro key hk
      obtain ⟨b, hb, hbkey⟩ := h.keys key hk
      exact ⟨b, List.mem_append_left _ hb, hbkey⟩
  · rw [if_neg hseen]
    refine ⟨?_, ?_⟩
    · intro kind
      obtain ⟨rows, hfiled, hholds⟩ := h.filed kind
      rw [hfilter, table_markSeen, table_ingestEnvelope]
      by_cases hkind : c.msgType = ofText kind.name
      · have hread : (asReceived c).msgType = kind.name :=
          c.encodes_msgType.scalars_eq_iff.mpr hkind
        rw [if_pos hkind, if_pos hread]
        refine ⟨rows ++ [c.envelope], hfiled.file _, ?_⟩
        rw [List.filterMap_append, List.filterMap_cons_some (rowOf_envelope c)]
        apply hholds.store
        simp only [Envelope.row, asReceived, hdevice, PyUnicode.scalars_ofText]
      · have hread : ¬ (asReceived c).msgType = kind.name :=
          fun h => hkind (c.encodes_msgType.scalars_eq_iff.mp h)
        rw [if_neg hkind, if_neg hread, List.append_nil]
        exact ⟨rows, hfiled, hholds⟩
    · intro key hk
      rcases mem_seenKeys_markSeen hk with rfl | hk
      · exact ⟨c.envelope, List.mem_append_right _ List.mem_cons_self, keyOf_envelope c⟩
      · rw [seenKeys_ingestEnvelope] at hk
        obtain ⟨b, hb, hbkey⟩ := h.keys key hk
        exact ⟨b, List.mem_append_left _ hb, hbkey⟩

/-- Several bodies, all among the envelopes of some calls whose keys differ. -/
theorem Serves.foldl {calls : List TextCall} (hdevice : ∀ c ∈ calls, c.cfg.deviceId = ofText deviceId)
    (hkeys : (calls.map (·.idempotencyKey)).Nodup) (more : List Json)
    (hmore : ∀ b ∈ more, ∃ c ∈ calls, b = c.envelope)
    (hbodies : ∀ b ∈ bodies, ∃ c ∈ calls, b = c.envelope) (h : Serves caps deviceId bodies db) :
    Serves caps deviceId (bodies ++ more) (more.foldl (Server.ingest caps) db) := by
  induction more generalizing bodies db with
  | nil => simpa using h
  | cons b more ih =>
    obtain ⟨c, hc, rfl⟩ := hmore b List.mem_cons_self
    have hkey : ∀ b ∈ bodies, keyOf b = some c.idempotencyKey → b = c.envelope := by
      intro b hb hbkey
      obtain ⟨d, hd, rfl⟩ := hbodies b hb
      rw [keyOf_envelope] at hbkey
      have hsame : d.idempotencyKey = c.idempotencyKey := Option.some.inj hbkey
      rw [List.inj_on_of_nodup_map hkeys hd hc hsame]
    have hnext := ih (fun b hb => hmore b (List.mem_cons_of_mem _ hb)) (by
      intro b hb
      rcases List.mem_append.mp hb with hb | hb
      · exact hbodies b hb
      · exact ⟨c, hc, List.mem_singleton.mp hb⟩) (h.ingest (hdevice c hc) hkey)
    rw [List.append_assoc] at hnext
    exact hnext

end Serves

/-! ### What every run keeps -/

structure Consistent (caps : Retention) (deviceId : Text) (calls : List TextCall) (s : Outage) :
    Prop where
  conserved : s.agent.Conserved
  kept : WellKept s.agent
  handed : ∀ e ∈ s.agent.handed, ∃ c ∈ calls, e = c.envelope
  taken : ∀ e ∈ s.agent.taken, ∃ c ∈ calls, e = c.envelope
  serves : Serves caps deviceId s.agent.taken s.server

section Run

variable {nl : Nat} {caps : Retention} {deviceId : Text}

theorem consistent_init : Consistent caps deviceId [] {} where
  conserved := conserved_init
  kept := wellKept_init
  handed := by
    intro e he
    cases he
  taken := by
    intro e he
    cases he
  serves := by
    refine ⟨?_, ?_⟩
    · intro kind
      refine ⟨[], ⟨List.nil_sublist _, by simp [Transport.taken]⟩, ?_⟩
      cases kind with
      | inventory => rfl
      | historical => exact (Window.newest_nil _).symm
      | heartbeat => exact (Window.newest_nil _).symm
    · intro key hk
      cases hk

theorem Consistent.mono {calls calls' : List TextCall} {s : Outage}
    (h : Consistent caps deviceId calls s) (hsub : calls ⊆ calls') :
    Consistent caps deviceId calls' s where
  conserved := h.conserved
  kept := h.kept
  handed := by
    intro e he
    obtain ⟨c, hc, rfl⟩ := h.handed e he
    exact ⟨c, hsub hc, rfl⟩
  taken := by
    intro e he
    obtain ⟨c, hc, rfl⟩ := h.taken e he
    exact ⟨c, hsub hc, rfl⟩
  serves := h.serves

/-- A pending envelope was handed in. -/
theorem Consistent.pending {calls : List TextCall} {s : Outage}
    (h : Consistent caps deviceId calls s) {e : Json} (he : some e ∈ s.agent.pending) :
    ∃ c ∈ calls, e = c.envelope := by
  obtain ⟨e', he', heq⟩ := List.mem_map.mp (h.conserved.order.subset he)
  rw [← Option.some.inj heq]
  exact h.handed e' he'

/-- A call of the agent keeps `Consistent`, for the envelopes created so far. -/
theorem Consistent.call {calls : List TextCall} {s : Outage} {x : Call}
    (h : Consistent caps deviceId calls s) (hwhole : BuffersOneLine s.agent x)
    (hcreated : ∀ c, (Turn.call x).created = some c → c ∈ calls)
    (hdevice : ∀ c ∈ calls, c.cfg.deviceId = ofText deviceId)
    (hkeys : (calls.map (·.idempotencyKey)).Nodup) :
    Consistent caps deviceId calls ((outage nl caps).next s (.call x)) := by
  obtain ⟨hiff, hkept'⟩ := conserved_next_iff nl s.agent x h.conserved h.kept
  have hown : ∀ (c : TextCall) contacts, x = .send c.toSendCall contacts → c.isEmpty = false →
      ∃ d ∈ calls, c.envelope = d.envelope := by
    rintro c contacts rfl hempty
    exact ⟨c, hcreated c (Turn.created_send hempty contacts), rfl⟩
  have hhanded : ∀ e ∈ ((transport nl).next s.agent x).handed, ∃ c ∈ calls, e = c.envelope := by
    intro e he
    cases x with
    | send c contacts =>
      rw [next_send] at he
      cases htext : c.asText with
      | none =>
        rw [send_snd_none nl htext] at he
        exact h.handed e he
      | some d =>
        obtain rfl := SendCall.eq_of_asText htext
        rw [send_snd, sendText_handed nl d contacts h.conserved h.kept] at he
        rcases List.mem_append.mp he with he | he
        · exact h.handed e he
        · cases hempty : d.isEmpty with
          | true =>
            rw [hempty] at he
            cases he
          | false =>
            rw [hempty] at he
            rw [List.mem_singleton.mp he]
            exact hown d contacts rfl hempty
    | flushBuffer cfg contacts =>
      obtain ⟨_, _, hflush, _⟩ := flushBuffer_spec cfg contacts h.kept (h.conserved.lines h.kept)
      have he : e ∈ (flushBuffer cfg contacts s.agent).handed := he
      rw [hflush] at he
      exact h.handed e he
  obtain ⟨more, htaken, hmore⟩ : ∃ more, ((transport nl).next s.agent x).taken =
      s.agent.taken ++ more ∧ ∀ b ∈ more, ∃ c ∈ calls, b = c.envelope := by
    cases x with
    | send c contacts =>
      rw [next_send]
      cases htext : c.asText with
      | none =>
        rw [send_snd_none nl htext]
        exact ⟨[], (List.append_nil _).symm, by simp⟩
      | some d =>
        obtain rfl := SendCall.eq_of_asText htext
        rw [send_snd]
        obtain ⟨more, htaken, hmore⟩ := sendText_taken nl d contacts h.kept
        refine ⟨more, htaken, fun b hb => ?_⟩
        rcases hmore b hb with ⟨hempty, rfl⟩ | hpending
        · exact hown d contacts rfl hempty
        · exact h.pending hpending
    | flushBuffer cfg contacts =>
      obtain ⟨more, htaken, hmore⟩ := flush_taken cfg contacts s.agent
      exact ⟨more, htaken, fun b hb => h.pending (hmore b hb)⟩
  refine ⟨hiff.mp hwhole, hkept', hhanded, ?_, ?_⟩
  · intro e he
    have he : e ∈ s.agent.taken ++ more := by
      rw [← htaken]
      exact he
    rcases List.mem_append.mp he with he | he
    · exact h.taken e he
    · exact hmore e he
  · have hserves := h.serves.foldl hdevice hkeys more hmore h.taken
    have hdrop : ((transport nl).next s.agent x).taken.drop s.agent.taken.length = more := by
      rw [htaken, List.drop_left]
    simp only [outage, hdrop]
    rw [htaken]
    exact hserves

theorem Consistent.restart {calls : List TextCall} {s : Outage}
    (h : Consistent caps deviceId calls s) :
    Consistent caps deviceId calls ((outage nl caps).next s .restartAgent) where
  conserved := ⟨h.conserved.account, h.conserved.order, h.conserved.once⟩
  kept := ⟨h.kept.terminated, h.kept.dicts⟩
  handed := h.handed
  taken := h.taken
  serves := h.serves

theorem Consistent.forgetKeys {calls : List TextCall} {s : Outage}
    (h : Consistent caps deviceId calls s) (kept : Text → Bool) :
    Consistent caps deviceId calls ((outage nl caps).next s (.forgetKeys kept)) where
  conserved := h.conserved
  kept := h.kept
  handed := h.handed
  taken := h.taken
  serves := by
    refine ⟨?_, ?_⟩
    · intro kind
      cases kind with
      | inventory => exact h.serves.filed .inventory
      | historical => exact h.serves.filed .historical
      | heartbeat => exact h.serves.filed .heartbeat
    · intro key hk
      exact h.serves.keys key (List.mem_filter.mp hk).1

theorem created_append (turns : List Turn) (x : Turn) :
    created (turns ++ [x]) = created turns ++ x.created.toList := by
  unfold created
  rw [List.filterMap_append]
  cases hx : x.created with
  | none => rw [List.filterMap_cons_none hx]; rfl
  | some c => rw [List.filterMap_cons_some hx]; rfl

theorem OneAgent.left {turns : List Turn} {x : Turn} (h : OneAgent deviceId (turns ++ [x])) :
    OneAgent deviceId turns := by
  obtain ⟨hdevice, hincreasing, hkeys⟩ := h
  rw [created_append] at hdevice hincreasing hkeys
  rw [List.map_append] at hkeys
  exact ⟨fun c hc => hdevice c (List.mem_append_left _ hc), (List.pairwise_append.mp hincreasing).1,
    (List.nodup_append.mp hkeys).1⟩

/-- What is created in the last turn is later than everything before. -/
theorem OneAgent.last {turns : List Turn} {x : Turn} {d : TextCall}
    (h : OneAgent deviceId (turns ++ [x])) (hd : x.created = some d) :
    ∀ c ∈ created turns, c.now < d.now := by
  intro c hc
  have hincreasing := h.increasing
  rw [created_append, hd] at hincreasing
  exact (List.pairwise_append.mp hincreasing).2.2 c hc d List.mem_cons_self

/-- Two calls of one time are one call. -/
theorem OneAgent.eq_of_now_eq {turns : List Turn} (h : OneAgent deviceId turns) {c d : TextCall}
    (hc : c ∈ created turns) (hd : d ∈ created turns) (heq : c.now = d.now) : c = d := by
  have hnodup : ((created turns).map (·.now)).Nodup :=
    List.pairwise_map.mpr (h.increasing.imp fun hlt => hlt.ne)
  exact List.inj_on_of_nodup_map hnodup hc hd heq

/-- Every run of one agent that buffers whole lines is consistent. -/
theorem consistent_run {turns : List Turn} (hagent : OneAgent deviceId turns)
    (hwhole : (outage nl caps).Along WholeLines {} turns) :
    Consistent caps deviceId (created turns) ((outage nl caps).stateAfter {} turns) := by
  induction turns using List.reverseRecOn with
  | nil => exact consistent_init
  | append_singleton turns x ih =>
    obtain ⟨hbefore, hlast⟩ := Machine.along_append.mp hwhole
    have hsub : created turns ⊆ created (turns ++ [x]) := by
      rw [created_append]
      exact List.subset_append_left _ _
    have hcons := (ih hagent.left hbefore).mono hsub
    rw [Machine.stateAfter_append]
    cases x with
    | call y =>
      apply hcons.call hlast.1 _ hagent.device hagent.keys
      intro c hc
      rw [created_append, hc]
      exact List.mem_append_right _ List.mem_cons_self
    | restartAgent => exact hcons.restart
    | forgetKeys kept => exact hcons.forgetKeys kept

/-- What waits or was received is an envelope of the run. -/
theorem Consistent.selected {calls : List TextCall} {s : Outage}
    (h : Consistent caps deviceId calls s) (p : Json → Bool) :
    ∀ y ∈ s.agent.received p ++ s.agent.backlog p, ∃ c ∈ calls, y = c.envelope := by
  intro y hy
  rcases List.mem_append.mp hy with hy | hy
  · exact h.taken y (List.mem_filter.mp hy).1
  · apply h.pending
    obtain ⟨line, hline, hloads⟩ := List.mem_filterMap.mp (List.mem_filter.mp hy).1
    rw [← hloads]
    exact List.mem_map_of_mem hline

/-- **The order at the server.**  If no envelope of the kind waits when a fresh one reaches the
    server, the envelopes of the kind are received in the order of their creation. -/
theorem inOrder_run {kind : ReadingKind} {turns : List Turn} (hagent : OneAgent deviceId turns)
    (hwhole : (outage nl caps).Along WholeLines {} turns)
    (hwaits : (outage nl caps).Along (NothingWaits kind) {} turns) :
    ((outage nl caps).stateAfter {} turns).agent.InOrder Earlier (ofKind kind) := by
  induction turns using List.reverseRecOn with
  | nil => exact List.Pairwise.nil
  | append_singleton turns x ih =>
    obtain ⟨hbefore, hlast⟩ := Machine.along_append.mp hwhole
    obtain ⟨hwaitsBefore, hwaitsLast⟩ := Machine.along_append.mp hwaits
    have horder := ih hagent.left hbefore hwaitsBefore
    have hcons := consistent_run hagent.left hbefore
    rw [Machine.stateAfter_append]
    generalize (outage nl caps).stateAfter {} turns = s at hlast hwaitsLast horder hcons ⊢
    cases x with
    | restartAgent => exact horder
    | forgetKeys kept => exact horder
    | call y =>
      cases y with
      | flushBuffer cfg contacts =>
        exact flush_inOrder earlier_refl cfg contacts (hcons.conserved.lines hcons.kept) horder
      | send c contacts =>
        show ((send nl c contacts s.agent).2).InOrder Earlier (ofKind kind)
        cases htext : c.asText with
        | none =>
          rw [send_snd_none nl htext]
          exact horder
        | some d =>
          obtain rfl := SendCall.eq_of_asText htext
          have hone : TextOneLine s.agent d contacts := (buffersOneLine_iff _ _ _).mp hlast.1
          rw [send_snd]
          apply sendText_inOrder earlier_refl nl hcons.conserved hcons.kept hone _ _ horder
          · intro hempty y hy
            obtain ⟨c, hc, rfl⟩ := hcons.selected _ y hy
            exact earlier_envelope (hagent.last (Turn.created_send hempty contacts) c hc).le
          · intro hkind hposted hreach
            rw [ofKind_envelope] at hkind
            exact hwaitsLast.1 d htext (of_decide_eq_true hkind) hposted hreach

end Run

end Srp.Server
