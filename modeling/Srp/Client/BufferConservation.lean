/-
  Srp/Client/BufferConservation.lean
  ==================================
  **What becomes of the envelopes handed to the transport.**

  `Conserved` is the account of a state: every envelope handed to `send` that has a
  text is settled (delivered or dropped) or pending in the buffer, the pending ones
  are read back as they were handed in and in that order.  `send` raises over an
  envelope that does not encode, which is then nowhere, and it writes text that it
  does not escape while `_read_buffer` splits at more boundaries than a newline;
  `conserved_iff` says which envelopes the account survives.
-/
import Mathlib.Data.List.Perm.Basic
import Srp.Client.Transport
import Srp.Lib.Machine

namespace Srp.Client

open Srp.Lib Srp.Lib.IsoTime Srp.Lib.Lines Srp.Lib.PyJson
open Srp.Lib.PyUnicode (PyStr Value ofText Encodes)

/-! ### The account -/

def Event.handed? : Event → Option Json
  | .handed e => some e
  | _ => none

def Event.delivered? : Event → Option Json
  | .delivered e => some e
  | _ => none

/-- The envelope that an event takes out of the agent's hands, as the agent reads it. -/
def Event.settled? : Event → Option (Option Json)
  | .delivered e => some (some e)
  | .rejected e => some (some e)
  | .oversize e => some (some e)
  | .trimmed line => some (loads line)
  | _ => none

namespace Transport

def handed (t : Transport) : List Json := t.log.filterMap Event.handed?

def acknowledged (t : Transport) : List Json := t.log.filterMap Event.delivered?

def settled (t : Transport) : List (Option Json) := t.log.filterMap Event.settled?

/-- The envelopes in the buffer; `none` is a line that holds none. -/
def pending (t : Transport) : List (Option Json) := (readBuffer t).map loads

/-- Every envelope handed in is delivered, dropped or pending, each once; the pending ones are
    as they were handed in and in that order; no acknowledged one is pending again. -/
structure Conserved (t : Transport) : Prop where
  account : (t.settled ++ t.pending).Perm (t.handed.map some)
  order : t.pending.Sublist (t.handed.map some)
  once : t.handed.Nodup → ∀ e ∈ t.acknowledged, some e ∉ t.pending

@[simp] theorem handed_record (t : Transport) (events : List Event) :
    (t.record events).handed = t.handed ++ events.filterMap Event.handed? := by
  simp [handed]

@[simp] theorem settled_record (t : Transport) (events : List Event) :
    (t.record events).settled = t.settled ++ events.filterMap Event.settled? := by
  simp [settled]

end Transport

theorem filterMap_handed_trimmed (lines : List Text) :
    (lines.map Event.trimmed).filterMap Event.handed? = [] := by
  rw [List.filterMap_map]
  exact List.filterMap_eq_nil_iff.mpr fun _ _ => rfl

theorem filterMap_settled_trimmed (lines : List Text) :
    (lines.map Event.trimmed).filterMap Event.settled? = lines.map loads := by
  rw [List.filterMap_map]
  exact congrFun List.filterMap_eq_map lines

inductive Call where
  | send (c : SendCall) (contacts : Nat → Contact)
  | flushBuffer (cfg : ClientConfig) (contacts : Nat → Contact)

/-- The transport of one process, on a system whose line end is `nl` bytes long; its outputs are
    what the calls raise. -/
def transport (nl : Nat) : Machine Transport Call (Option SendError) where
  next t
    | .send c contacts => (send nl c contacts t).2
    | .flushBuffer cfg contacts => flushBuffer cfg contacts t
  out t
    | .send c contacts => (send nl c contacts t).1
    | .flushBuffer cfg contacts => (tryFlush cfg contacts t).1

theorem next_send (nl : Nat) (t : Transport) (c : SendCall) (contacts : Nat → Contact) :
    (transport nl).next t (.send c contacts) = (send nl c contacts t).2 := rfl

theorem out_send (nl : Nat) (t : Transport) (c : SendCall) (contacts : Nat → Contact) :
    (transport nl).out t (.send c contacts) = (send nl c contacts t).1 := rfl

/-- After these calls every envelope handed in is accounted for: by the state, and none was lost
    to a call that raised over its text. -/
structure AccountKept (nl : Nat) (calls : List Call) : Prop where
  conserved : ((transport nl).stateAfter {} calls).Conserved
  encoded : some SendError.unicodeEncode ∉ (transport nl).outputs {} calls

/-! ### The condition -/

/-- The answer settles an envelope: accepted, or rejected for good. -/
def Answer.settles : Answer → Bool
  | .accepted => true
  | .httpError code _ => !isThrottle code && isRejection code
  | _ => false

/-- The answer asks for a pause, after which no second attempt is made. -/
def Answer.throttles : Answer → Bool
  | .httpError code _ => isThrottle code
  | _ => false

theorem Answer.settles_eq_false {a : Answer} (h : a.throttles = true) : a.settles = false := by
  cases a with
  | httpError code header =>
    rw [Answer.throttles] at h
    rw [Answer.settles, h]
    rfl
  | accepted => cases h
  | answerLost => cases h
  | networkError => cases h

/-- Delivery is refused: offline, inside a pause, or by both attempts. -/
def refused (cfg : ClientConfig) (x : Contact) (t : Transport) : Bool :=
  cfg.offlineMode || t.isThrottled x.clock || x.first.answer.throttles ||
    (!x.first.answer.settles && !x.second.answer.settles)

/-- NEL, LINE SEPARATOR, PARAGRAPH SEPARATOR: the boundaries that JSON leaves unescaped. -/
def isUnescapedBreak (c : Char) : Bool :=
  c.toNat == 0x85 || c.toNat == 0x2028 || c.toNat == 0x2029

theorem noBreak_of_all {t : Text} (h : t.all (fun c => !isUnescapedBreak c) = true) :
    ∀ c ∈ t, isUnescapedBreak c = false := by
  intro c hc
  have hbreak := List.all_eq_true.mp h c hc
  rwa [Bool.not_eq_true'] at hbreak

/-- What is put into the buffer contains no line boundary. -/
def TextOneLine (t : Transport) (c : TextCall) (contacts : Nat → Contact) : Prop :=
  c.isEmpty = false → utf8Len (envelopeText c.envelope) ≤ maxPayloadBytes →
    refused c.cfg (contacts 0) t = true →
    ∀ ch ∈ envelopeText c.envelope, isUnescapedBreak ch = false

def BuffersOneLine : Transport → Call → Prop
  | t, .send c contacts => ∀ d, c.asText = some d → TextOneLine t d contacts
  | _, .flushBuffer _ _ => True

theorem buffersOneLine_iff (t : Transport) (c : TextCall) (contacts : Nat → Contact) :
    BuffersOneLine t (.send c.toSendCall contacts) ↔ TextOneLine t c contacts := by
  show (∀ d, c.asText = some d → TextOneLine t d contacts) ↔ _
  rw [c.asText_eq]
  simp

/-- The text of the envelope encodes. -/
def Call.Encodes : Call → Prop
  | .send c _ => c.isEmpty = false → PyUnicode.Encodes c.dumps
  | .flushBuffer _ _ => True

/-! ### Delivery -/

/-- What delivering an envelope does to the account. -/
structure Settles (e : Json) (t : Transport) (r : Delivery × Transport) : Prop where
  buffer : r.2.buffer = t.buffer
  handed : r.2.handed = t.handed
  settled : r.2.settled = t.settled ++ if r.1 = .handled then [some e] else []
  noError : r.1 ≠ .attributeError

section Deliver

variable {e : Json} {t : Transport}

theorem settles_refused : Settles e t (.refused, t) where
  buffer := rfl
  handed := rfl
  settled := by simp
  noError := by simp

/-- Events that neither hand in nor settle may come first. -/
theorem Settles.after_record {r : Delivery × Transport} {events : List Event}
    (h : Settles e (t.record events) r) (hhanded : events.filterMap Event.handed? = [])
    (hsettled : events.filterMap Event.settled? = []) : Settles e t r where
  buffer := h.buffer
  handed := by rw [h.handed, Transport.handed_record, hhanded, List.append_nil]
  settled := by rw [h.settled, Transport.settled_record, hsettled, List.append_nil]
  noError := h.noError

theorem attempts_settles (he : isDict e = true) (xs : List Exchange) (t : Transport) :
    Settles e t (attempts e xs t) := by
  induction xs generalizing t with
  | nil => exact settles_refused
  | cons x xs ih =>
    obtain ⟨answer, clock⟩ := x
    cases answer with
    | accepted =>
      refine ⟨rfl, ?_, ?_, by simp [attempts, attempt]⟩
      · exact (t.handed_record _).trans (List.append_nil _)
      · exact t.settled_record _
    | httpError code header =>
      simp only [attempts, attempt, he, if_true]
      by_cases hthrottle : isThrottle code = true
      · rw [if_pos hthrottle]
        refine ⟨rfl, rfl, ?_, by simp⟩
        simp [Transport.settled]
      · rw [if_neg hthrottle]
        by_cases hreject : isRejection code = true
        · rw [if_pos hreject]
          refine ⟨rfl, ?_, ?_, by simp⟩
          · exact (t.handed_record _).trans (List.append_nil _)
          · exact t.settled_record _
        · rw [if_neg hreject]
          exact ih t
    | answerLost =>
      simp only [attempts, attempt, he, if_true]
      exact (ih (t.record [.taken e])).after_record rfl rfl
    | networkError =>
      simp only [attempts, attempt, he, if_true]
      exact ih t

theorem deliver_settles (he : isDict e = true) (cfg : ClientConfig) (x : Contact)
    (t : Transport) : Settles e t (deliver cfg e x t) := by
  unfold deliver
  split
  · exact settles_refused
  · split
    · exact settles_refused
    · exact attempts_settles he _ t

/-- An attempt ends the loop or passes it on. -/
theorem attempts_cons_fst (he : isDict e = true) (x : Exchange) (xs : List Exchange) (t : Transport) :
    if x.answer.throttles then (attempts e (x :: xs) t).1 = .refused
    else if x.answer.settles then (attempts e (x :: xs) t).1 = .handled
    else ∃ t', (attempts e (x :: xs) t).1 = (attempts e xs t').1 := by
  obtain ⟨answer, clock⟩ := x
  cases answer with
  | accepted => rfl
  | httpError code header =>
    simp only [attempts, attempt, he, if_true, Answer.throttles, Answer.settles]
    cases isThrottle code with
    | true => rfl
    | false =>
      cases isRejection code with
      | true => rfl
      | false => exact ⟨t, rfl⟩
  | answerLost =>
    simp only [attempts, attempt, he, if_true]
    exact ⟨_, rfl⟩
  | networkError =>
    simp only [attempts, attempt, he, if_true]
    exact ⟨_, rfl⟩

theorem deliver_fst (he : isDict e = true) (cfg : ClientConfig) (x : Contact) (t : Transport) :
    (deliver cfg e x t).1 = if refused cfg x t then .refused else .handled := by
  unfold deliver refused
  cases cfg.offlineMode with
  | true => rfl
  | false =>
    cases t.isThrottled x.clock with
    | true => rfl
    | false =>
      have hfirst := attempts_cons_fst he x.first [x.second] t
      simp only [Bool.false_eq_true, if_false, Bool.false_or]
      cases hthrottle : x.first.answer.throttles with
      | true =>
        rw [hthrottle] at hfirst
        exact hfirst
      | false =>
        cases hsettle : x.first.answer.settles with
        | true =>
          rw [hthrottle, hsettle] at hfirst
          exact hfirst
        | false =>
          rw [hthrottle, hsettle] at hfirst
          obtain ⟨t', hfirst⟩ := hfirst
          rw [hfirst]
          have hsecond := attempts_cons_fst he x.second [] t'
          cases hthrottle' : x.second.answer.throttles with
          | true =>
            rw [hthrottle'] at hsecond
            rw [Answer.settles_eq_false hthrottle']
            exact hsecond
          | false =>
            cases hsettle' : x.second.answer.settles with
            | true =>
              rw [hthrottle', hsettle'] at hsecond
              exact hsecond
            | false =>
              rw [hthrottle', hsettle'] at hsecond
              obtain ⟨t'', hsecond⟩ := hsecond
              exact hsecond

end Deliver

/-! ### The lines of the buffer -/

/-- The buffer is empty or ends in a newline, and only envelopes were handed in. -/
structure WellKept (t : Transport) : Prop where
  terminated : Terminated (t.buffer.getD [])
  dicts : ∀ e ∈ t.handed, isDict e = true

theorem readBuffer_eq (t : Transport) : readBuffer t = nonblankLines (t.buffer.getD []) := by
  unfold readBuffer
  cases t.buffer with
  | none => rfl
  | some text => rfl

theorem readBuffer_writeBuffer {text : Text} {lines : List Text}
    (h : ∀ l ∈ lines, l ∈ nonblankLines text) (t : Transport) :
    readBuffer (writeBuffer lines t) = lines := by
  have hread : nonblankLines (unlines lines) = lines :=
    nonblankLines_unlines (fun l hl => oneLine_of_mem_nonblankLines (h l hl))
      fun l hl => isBlank_of_mem_nonblankLines (h l hl)
  rw [readBuffer_eq]
  by_cases hnil : lines = []
  · rw [hnil]
    rfl
  · simp only [writeBuffer, if_neg hnil, Option.getD_some, joinLines_append_newline hnil, hread]

theorem terminated_writeBuffer (lines : List Text) (t : Transport) :
    Terminated ((writeBuffer lines t).buffer.getD []) := by
  by_cases hnil : lines = []
  · rw [hnil]
    exact .inl rfl
  · simp only [writeBuffer, if_neg hnil, Option.getD_some, joinLines_append_newline hnil]
    exact terminated_unlines lines

theorem dropOldest_suffix (nl : Nat) (lines : List Text) (total : Nat) :
    dropOldest nl lines total <:+ lines := by
  induction lines generalizing total with
  | nil => exact List.suffix_rfl
  | cons l lines ih =>
    rw [dropOldest]
    split
    · exact (ih _).trans (List.suffix_cons l lines)
    · exact List.suffix_rfl

theorem keptLines_suffix (nl : Nat) (text : Text) : keptLines nl text <:+ nonblankLines text := by
  simp only [keptLines]
  split
  · exact (dropOldest_suffix nl _ _).trans (List.drop_suffix _ _)
  · exact List.drop_suffix _ _

/-- Trimming moves a front part of the lines from the buffer to the log. -/
theorem trimBuffer_spec (nl : Nat) {t : Transport} (ht : Terminated (t.buffer.getD [])) :
    ∃ dropped, readBuffer t = dropped ++ readBuffer (trimBuffer nl t) ∧
      (trimBuffer nl t).log = t.log ++ dropped.map .trimmed ∧
      Terminated ((trimBuffer nl t).buffer.getD []) := by
  unfold trimBuffer
  split
  · exact ⟨[], rfl, by simp, ht⟩
  · rename_i text hbuffer
    obtain ⟨dropped, hsplit⟩ := keptLines_suffix nl text
    have hread : readBuffer t = nonblankLines text := by rw [readBuffer_eq, hbuffer]; rfl
    dsimp only
    split
    · have htake : (nonblankLines text).take
          ((nonblankLines text).length - (keptLines nl text).length) = dropped := by
        rw [← hsplit, List.length_append, Nat.add_sub_cancel, List.take_left]
      have hkept : readBuffer (writeBuffer (keptLines nl text) t) = keptLines nl text :=
        readBuffer_writeBuffer (fun l hl => (keptLines_suffix nl text).subset hl) t
      refine ⟨dropped, ?_, by rw [htake]; rfl, terminated_writeBuffer _ t⟩
      rw [hread, ← hsplit]
      exact congrArg _ hkept.symm
    · exact ⟨[], rfl, by simp, ht⟩

/-! ### Replay -/

/-- What replaying lines of envelopes does to the account: a front part is settled. -/
theorem replay_spec (cfg : ClientConfig) (contacts : Nat → Contact) (lines : List Text)
    (t : Transport) (h : ∀ l ∈ lines, ∃ e, loads l = some e ∧ isDict e = true) :
    ∃ gone rest, lines = gone ++ rest ∧ (replay cfg contacts lines t).1 = some rest ∧
      (replay cfg contacts lines t).2.handed = t.handed ∧
      (replay cfg contacts lines t).2.settled = t.settled ++ gone.map loads := by
  induction lines generalizing t contacts with
  | nil => exact ⟨[], [], rfl, rfl, rfl, by simp [replay]⟩
  | cons line lines ih =>
    obtain ⟨e, hloads, he⟩ := h line List.mem_cons_self
    have hdeliver := deliver_settles he cfg (contacts 0) t
    have hlines : ∀ l ∈ lines, ∃ e, loads l = some e ∧ isDict e = true :=
      fun l hl => h l (List.mem_cons_of_mem line hl)
    simp only [replay, hloads]
    generalize deliver cfg e (contacts 0) t = r at hdeliver ⊢
    obtain ⟨outcome, t'⟩ := r
    cases outcome with
    | handled =>
      obtain ⟨gone, rest, hsplit, hrest, hhanded, hsettled⟩ :=
        ih (fun i => contacts (i + 1)) t' hlines
      refine ⟨line :: gone, rest, by rw [hsplit, List.cons_append], hrest,
        hhanded.trans hdeliver.handed, ?_⟩
      rw [hsettled, hdeliver.settled, List.map_cons, hloads, List.append_assoc]
      rfl
    | refused =>
      refine ⟨[], line :: lines, rfl, rfl, hdeliver.handed, ?_⟩
      exact hdeliver.settled
    | attributeError => exact absurd rfl hdeliver.noError

/-- A flush of envelopes replays all lines and writes back what remains. -/
theorem flushBuffer_run (cfg : ClientConfig) (contacts : Nat → Contact) {t : Transport}
    (h : ∀ l ∈ readBuffer t, ∃ e, loads l = some e ∧ isDict e = true) (hne : readBuffer t ≠ []) :
    ∃ gone rest, readBuffer t = gone ++ rest ∧
      (replay cfg contacts (readBuffer t) t).1 = some rest ∧
      flushBuffer cfg contacts t =
        writeBuffer rest (replay cfg contacts (readBuffer t) t).2 ∧
      readBuffer (flushBuffer cfg contacts t) = rest ∧
      (flushBuffer cfg contacts t).handed = t.handed ∧
      (flushBuffer cfg contacts t).settled = t.settled ++ gone.map loads := by
  obtain ⟨gone, rest, hsplit, hrest, hhanded, hsettled⟩ :=
    replay_spec cfg contacts (readBuffer t) t h
  have hflush : flushBuffer cfg contacts t =
      writeBuffer rest (replay cfg contacts (readBuffer t) t).2 := by
    unfold flushBuffer
    dsimp only
    rw [if_neg hne]
    generalize replay cfg contacts (readBuffer t) t = r at hrest ⊢
    obtain ⟨remaining, t'⟩ := r
    obtain rfl : remaining = some rest := hrest
    rfl
  have hlines : ∀ l ∈ rest, l ∈ nonblankLines (t.buffer.getD []) := by
    intro l hl
    rw [← readBuffer_eq, hsplit]
    exact List.mem_append_right gone hl
  refine ⟨gone, rest, hsplit, hrest, hflush, ?_, ?_, ?_⟩
  · rw [hflush]
    exact readBuffer_writeBuffer hlines _
  · rw [hflush]
    exact hhanded
  · rw [hflush]
    exact hsettled

theorem flushBuffer_nil (cfg : ClientConfig) (contacts : Nat → Contact) {t : Transport}
    (h : readBuffer t = []) : flushBuffer cfg contacts t = t := by
  unfold flushBuffer
  dsimp only
  rw [if_pos h]

/-- A flush settles a front part of the pending lines and keeps the others. -/
theorem flushBuffer_spec (cfg : ClientConfig) (contacts : Nat → Contact) {t : Transport}
    (ht : WellKept t) (h : ∀ l ∈ readBuffer t, ∃ e, loads l = some e ∧ isDict e = true) :
    ∃ gone, readBuffer t = gone ++ readBuffer (flushBuffer cfg contacts t) ∧
      (flushBuffer cfg contacts t).handed = t.handed ∧
      (flushBuffer cfg contacts t).settled = t.settled ++ gone.map loads ∧
      Terminated ((flushBuffer cfg contacts t).buffer.getD []) := by
  by_cases hnil : readBuffer t = []
  · rw [flushBuffer_nil cfg contacts hnil]
    exact ⟨[], rfl, rfl, by simp, ht.terminated⟩
  · obtain ⟨gone, rest, hsplit, _, hflush, hread, hhanded, hsettled⟩ :=
      flushBuffer_run cfg contacts h hnil
    refine ⟨gone, by rw [hread]; exact hsplit, hhanded, hsettled, ?_⟩
    rw [hflush]
    exact terminated_writeBuffer rest _

/-! ### Appending -/

/-- An envelope's text stands between braces and has no control character. -/
theorem envelopeText_shape (c : TextCall) :
    ∃ t, envelopeText c.envelope = '{' :: (t ++ ['}']) ∧ Printable t := by
  obtain ⟨t, ht⟩ := dumpsFields_eq_append 1 (Value.toFields (envelopeItems c.toSendCall))
  have htext : envelopeText c.envelope = '{' :: (t ++ ['}']) := by
    rw [envelopeText, TextCall.envelope, SendCall.envelope, Value.toJson, dumps, ht]
  refine ⟨t, htext, ?_⟩
  intro ch hch
  apply printable_dumps 1 c.envelope
  rw [← envelopeText, htext]
  simp [hch]

theorem isLineBreak_of_printable {ch : Char} (h : 0x20 ≤ ch.toNat) :
    isLineBreak ch = isUnescapedBreak ch := by
  unfold isLineBreak isUnescapedBreak
  have hlow : ¬ (10 ≤ ch.toNat ∧ ch.toNat ≤ 13) := by omega
  have hmid : ¬ (28 ≤ ch.toNat ∧ ch.toNat ≤ 30) := by omega
  simp [hlow, hmid]

theorem oneLine_envelopeText_iff (c : TextCall) :
    OneLine (envelopeText c.envelope) ↔
      ∀ ch ∈ envelopeText c.envelope, isUnescapedBreak ch = false := by
  apply forall₂_congr
  intro ch hch
  rw [isLineBreak_of_printable (printable_dumps 1 c.envelope ch hch)]

/-- The line of an envelope is read back whole when it has no boundary. -/
theorem nonblankLines_envelope {c : TextCall}
    (h : ∀ ch ∈ envelopeText c.envelope, isUnescapedBreak ch = false) :
    nonblankLines (envelopeText c.envelope ++ ['\n']) = [envelopeText c.envelope] := by
  obtain ⟨t, ht, _⟩ := envelopeText_shape c
  have hone : ∀ l ∈ [envelopeText c.envelope], OneLine l := by
    intro l hl
    rw [List.mem_singleton.mp hl]
    exact (oneLine_envelopeText_iff c).mpr h
  have hfull : ∀ l ∈ [envelopeText c.envelope], isBlank l = false := by
    intro l hl
    rw [List.mem_singleton.mp hl, ht]
    exact isBlank_eq_false_of_mem List.mem_cons_self (by decide)
  have hread := nonblankLines_unlines hone hfull
  rw [unlines, List.flatMap_singleton] at hread
  exact hread

/-- With a boundary it is read back in pieces. -/
theorem one_lt_length_nonblankLines_envelope {c : TextCall}
    (h : ¬ ∀ ch ∈ envelopeText c.envelope, isUnescapedBreak ch = false) :
    1 < (nonblankLines (envelopeText c.envelope ++ ['\n'])).length := by
  obtain ⟨t, ht, hprint⟩ := envelopeText_shape c
  rw [← oneLine_envelopeText_iff, ht] at h
  rw [ht, List.cons_append, List.append_assoc]
  apply one_lt_length_nonblankLines (by decide) (by decide)
  · intro hr
    exact absurd (hprint _ hr) (by decide)
  · intro hone
    apply h
    intro ch hch
    rcases List.mem_cons.mp hch with rfl | hch
    · decide
    · rcases List.mem_append.mp hch with hch | hch
      · exact hone ch hch
      · rw [List.mem_singleton.mp hch]
        decide

/-- Appending adds the lines of the envelope's text and trims at the front. -/
theorem appendBuffer_spec (nl : Nat) (e : Json) {t : Transport}
    (ht : Terminated (t.buffer.getD [])) :
    ∃ dropped, readBuffer t ++ nonblankLines (envelopeText e ++ ['\n']) =
        dropped ++ readBuffer (appendBuffer nl e t) ∧
      (appendBuffer nl e t).log = t.log ++ dropped.map .trimmed ∧
      Terminated ((appendBuffer nl e t).buffer.getD []) := by
  let a : Transport := { t with buffer := some (t.buffer.getD [] ++ envelopeText e ++ ['\n']) }
  have hread : readBuffer a = readBuffer t ++ nonblankLines (envelopeText e ++ ['\n']) := by
    rw [readBuffer_eq, readBuffer_eq, ← nonblankLines_append ht, ← List.append_assoc]
    rfl
  have hterm : Terminated (a.buffer.getD []) := .inr ⟨_, rfl⟩
  obtain ⟨dropped, hsplit, hlog, hterm⟩ := trimBuffer_spec nl hterm
  exact ⟨dropped, hread.symm.trans hsplit, hlog, hterm⟩

theorem Transport.handed_of_trimmed {t t' : Transport} {dropped : List Text}
    (h : t'.log = t.log ++ dropped.map .trimmed) : t'.handed = t.handed := by
  rw [Transport.handed, h, List.filterMap_append, filterMap_handed_trimmed, List.append_nil]
  rfl

theorem Transport.settled_of_trimmed {t t' : Transport} {dropped : List Text}
    (h : t'.log = t.log ++ dropped.map .trimmed) :
    t'.settled = t.settled ++ dropped.map loads := by
  rw [Transport.settled, h, List.filterMap_append, filterMap_settled_trimmed]
  rfl

/-! ### The account along a run -/

section Account

variable {t t' : Transport} {e : Json}

/-- Envelopes are handed in once each, so a settled one is not pending. -/
theorem Transport.Conserved.of_account (account : (t.settled ++ t.pending).Perm (t.handed.map some))
    (order : t.pending.Sublist (t.handed.map some)) : t.Conserved where
  account := account
  order := order
  once := by
    intro hnodup e he hpending
    have hsettled : some e ∈ t.settled := by
      obtain ⟨event, hevent, hdelivered⟩ := List.mem_filterMap.mp he
      apply List.mem_filterMap.mpr
      refine ⟨event, hevent, ?_⟩
      cases event with
      | delivered e' =>
        rw [Event.settled?, Option.some.inj hdelivered]
      | _ => cases hdelivered
    have hall : (t.settled ++ t.pending).Nodup :=
      account.nodup_iff.mpr (hnodup.map fun _ _ h => Option.some.inj h)
    exact (List.nodup_append.mp hall).2.2 _ hsettled _ hpending rfl

/-- The pending lines are envelopes. -/
theorem Transport.Conserved.lines (h : t.Conserved) (hkept : WellKept t) :
    ∀ l ∈ readBuffer t, ∃ e, loads l = some e ∧ isDict e = true := by
  intro l hl
  have hpending : loads l ∈ t.pending := List.mem_map_of_mem hl
  obtain ⟨e, he, hloads⟩ := List.mem_map.mp (h.order.subset hpending)
  exact ⟨e, hloads.symm, hkept.dicts e he⟩

theorem Transport.Conserved.flush (h : t.Conserved) (hkept : WellKept t) (cfg : ClientConfig)
    (contacts : Nat → Contact) :
    (flushBuffer cfg contacts t).Conserved ∧ WellKept (flushBuffer cfg contacts t) := by
  obtain ⟨gone, hsplit, hhanded, hsettled, hterm⟩ :=
    flushBuffer_spec cfg contacts hkept (h.lines hkept)
  have hpending : t.pending = gone.map loads ++ (flushBuffer cfg contacts t).pending := by
    rw [Transport.pending, hsplit, List.map_append]
    rfl
  refine ⟨.of_account ?_ ?_, hterm, by rw [hhanded]; exact hkept.dicts⟩
  · rw [hsettled, hhanded, List.append_assoc, ← hpending]
    exact h.account
  · rw [hhanded]
    apply List.Sublist.trans _ h.order
    rw [hpending]
    exact List.sublist_append_right _ _

/-- An envelope that is handed in and settled at once. -/
theorem Transport.Conserved.settle (h : t.Conserved) (hbuffer : t'.buffer = t.buffer)
    (hhanded : t'.handed = t.handed ++ [e]) (hsettled : t'.settled = t.settled ++ [some e]) :
    t'.Conserved := by
  have hpending : t'.pending = t.pending := by
    simp only [Transport.pending, readBuffer_eq, hbuffer]
  apply Transport.Conserved.of_account
  · rw [hsettled, hhanded, hpending, List.map_append, List.append_assoc]
    calc t.settled ++ ([some e] ++ t.pending)
        |>.Perm (t.settled ++ (t.pending ++ [some e])) := List.perm_append_comm.append_left _
      _ |>.Perm ((t.settled ++ t.pending) ++ [some e]) := by rw [List.append_assoc]
      _ |>.Perm (t.handed.map some ++ [some e]) := h.account.append_right _
  · rw [hpending, hhanded, List.map_append]
    exact h.order.trans (List.sublist_append_left _ _)

/-- An envelope that is handed in and buffered is accounted for exactly when its line is
    whole. -/
theorem Transport.Conserved.append_iff (h : t.Conserved) (hkept : WellKept t) {c : TextCall}
    (nl : Nat) (hbuffer : t'.buffer = t.buffer) (hhanded : t'.handed = t.handed ++ [c.envelope])
    (hsettled : t'.settled = t.settled) :
    (appendBuffer nl c.envelope t').Conserved ↔
      ∀ ch ∈ envelopeText c.envelope, isUnescapedBreak ch = false := by
  have hterm : Terminated (t'.buffer.getD []) := by
    rw [hbuffer]
    exact hkept.terminated
  obtain ⟨dropped, hsplit, hlog, _⟩ := appendBuffer_spec nl c.envelope hterm
  have hhanded' := Transport.handed_of_trimmed hlog
  have hsettled' := Transport.settled_of_trimmed hlog
  have hread : readBuffer t' = readBuffer t := by rw [readBuffer_eq, readBuffer_eq, hbuffer]
  have hlines := congrArg (List.map loads) hsplit
  rw [hread, List.map_append, List.map_append] at hlines
  constructor
  · intro hconserved
    -- in pieces, the envelope would be counted more than once
    by_contra hbreak
    have hpieces := one_lt_length_nonblankLines_envelope hbreak
    have hbefore := h.account.length_eq
    have hafter := hconserved.account.length_eq
    have hcount := congrArg List.length hlines
    rw [hsettled', hhanded', hsettled, hhanded] at hafter
    simp only [Transport.pending, List.length_append, List.length_map, List.length_singleton]
      at hbefore hafter hcount
    omega
  · intro hwhole
    rw [nonblankLines_envelope hwhole, List.map_singleton, c.loads_envelopeText] at hlines
    apply Transport.Conserved.of_account
    · rw [hsettled', hhanded', hsettled, hhanded, List.append_assoc, List.map_append]
      calc t.settled ++ (dropped.map loads ++ (appendBuffer nl c.envelope t').pending)
          = (t.settled ++ t.pending) ++ [some c.envelope] := by
            rw [List.append_assoc]
            exact congrArg _ hlines.symm
        _ |>.Perm (t.handed.map some ++ [some c.envelope]) := h.account.append_right _
    · rw [hhanded', hhanded, List.map_append]
      have hsuffix : (appendBuffer nl c.envelope t').pending.Sublist
          (t.pending ++ [some c.envelope]) := by
        rw [Transport.pending, Transport.pending, hlines]
        exact List.sublist_append_right _ _
      exact hsuffix.trans (h.order.append (List.Sublist.refl _))

end Account

/-- What `sendText` does with an envelope that is not settled at once. -/
theorem sendText_cases (nl : Nat) (c : TextCall) (contacts : Nat → Contact) (t : Transport)
    (hempty : c.isEmpty = false) (hsize : utf8Len (envelopeText c.envelope) ≤ maxPayloadBytes) :
    ∃ t', t' = (deliver c.cfg c.envelope (contacts 0) (t.record [.handed c.envelope])).2 ∧
      t'.buffer = t.buffer ∧ t'.handed = t.handed ++ [c.envelope] ∧
      if refused c.cfg (contacts 0) t then
        t'.settled = t.settled ∧ sendText nl c contacts t = appendBuffer nl c.envelope t'
      else
        t'.settled = t.settled ++ [some c.envelope] ∧
          sendText nl c contacts t = flushBuffer c.cfg (fun i => contacts (i + 1)) t' := by
  let start := t.record [.handed c.envelope]
  have hdeliver := deliver_settles (e := c.envelope) rfl c.cfg (contacts 0) start
  have hfst : (deliver c.cfg c.envelope (contacts 0) start).1 =
      if refused c.cfg (contacts 0) t then .refused else .handled :=
    deliver_fst rfl c.cfg (contacts 0) start
  have hhandled : ∀ t', deliver c.cfg c.envelope (contacts 0) start = (.handled, t') →
      sendText nl c contacts t = flushBuffer c.cfg (fun i => contacts (i + 1)) t' := by
    intro t' h
    simp only [start] at h
    simp only [sendText, hempty, Bool.false_eq_true, if_false, if_neg (not_lt.mpr hsize), h]
  have hrefusedSend : ∀ t', deliver c.cfg c.envelope (contacts 0) start = (.refused, t') →
      sendText nl c contacts t = appendBuffer nl c.envelope t' := by
    intro t' h
    simp only [start] at h
    simp only [sendText, hempty, Bool.false_eq_true, if_false, if_neg (not_lt.mpr hsize), h]
  have hhanded : start.handed = t.handed ++ [c.envelope] := t.handed_record _
  have hsettled : start.settled = t.settled := (t.settled_record _).trans (List.append_nil _)
  refine ⟨_, rfl, ?_⟩
  change (deliver c.cfg c.envelope (contacts 0) start).2.buffer = _ ∧
    (deliver c.cfg c.envelope (contacts 0) start).2.handed = _ ∧ _
  generalize deliver c.cfg c.envelope (contacts 0) start = r at hdeliver hfst hhandled hrefusedSend ⊢
  obtain ⟨outcome, t'⟩ := r
  refine ⟨hdeliver.buffer, hdeliver.handed.trans hhanded, ?_⟩
  have hafter := hdeliver.settled
  rw [hsettled] at hafter
  cases hrefused : refused c.cfg (contacts 0) t with
  | true =>
    rw [hrefused] at hfst
    obtain rfl : outcome = .refused := hfst
    exact ⟨hafter.trans (List.append_nil _), hrefusedSend t' rfl⟩
  | false =>
    rw [hrefused] at hfst
    obtain rfl : outcome = .handled := hfst
    exact ⟨hafter, hhandled t' rfl⟩

theorem dicts_append (c : TextCall) {t : Transport} (hkept : WellKept t) :
    ∀ e ∈ t.handed ++ [c.envelope], isDict e = true := by
  intro e he
  rcases List.mem_append.mp he with he | he
  · exact hkept.dicts e he
  · rw [List.mem_singleton.mp he]
    rfl

/-- A call keeps the account exactly when it buffers no line in pieces. -/
theorem sendText_conserved_iff (nl : Nat) (t : Transport) (c : TextCall) (contacts : Nat → Contact)
    (hcons : t.Conserved) (hkept : WellKept t) :
    (TextOneLine t c contacts ↔ (sendText nl c contacts t).Conserved) ∧
      WellKept (sendText nl c contacts t) := by
  cases hempty : c.isEmpty with
  | true =>
    rw [sendText, hempty]
    refine ⟨iff_of_true ?_ hcons, hkept⟩
    intro hfalse
    rw [hempty] at hfalse
    cases hfalse
  | false =>
    by_cases hsize : utf8Len (envelopeText c.envelope) ≤ maxPayloadBytes
    · obtain ⟨t', _, hbuffer, hhanded, hcase⟩ := sendText_cases nl c contacts t hempty hsize
      have hkept' : WellKept t' :=
        ⟨by rw [hbuffer]; exact hkept.terminated, by rw [hhanded]; exact dicts_append c hkept⟩
      cases hrefused : refused c.cfg (contacts 0) t with
      | false =>
        rw [hrefused] at hcase
        rw [hcase.2]
        obtain ⟨hcons', hkept''⟩ :=
          (hcons.settle hbuffer hhanded hcase.1).flush hkept' c.cfg fun i => contacts (i + 1)
        refine ⟨iff_of_true ?_ hcons', hkept''⟩
        intro _ _ htrue
        rw [hrefused] at htrue
        cases htrue
      | true =>
        rw [hrefused] at hcase
        rw [hcase.2]
        obtain ⟨_, _, hlog, hterm⟩ := appendBuffer_spec nl c.envelope hkept'.terminated
        refine ⟨?_, hterm, by rw [Transport.handed_of_trimmed hlog]; exact hkept'.dicts⟩
        rw [hcons.append_iff hkept nl hbuffer hhanded hcase.1]
        constructor
        · intro hwhole
          exact hwhole hempty hsize hrefused
        · intro hwhole _ _ _
          exact hwhole
    · have hsend : sendText nl c contacts t =
          (t.record [.handed c.envelope]).record [.oversize c.envelope] := by
        rw [sendText, hempty, if_neg (by decide), if_pos (not_le.mp hsize)]
      have hhanded : (sendText nl c contacts t).handed = t.handed ++ [c.envelope] := by
        rw [hsend, Transport.handed_record, Transport.handed_record]
        exact List.append_nil _
      have hsettled : (sendText nl c contacts t).settled = t.settled ++ [some c.envelope] := by
        rw [hsend, Transport.settled_record, Transport.settled_record, List.append_assoc]
        rfl
      have hbuffer : (sendText nl c contacts t).buffer = t.buffer := by rw [hsend]; rfl
      refine ⟨iff_of_true ?_ (hcons.settle hbuffer hhanded hsettled), ?_, ?_⟩
      · intro _ hle
        exact absurd hle hsize
      · rw [hbuffer]
        exact hkept.terminated
      · rw [hhanded]
        exact dicts_append c hkept

theorem conserved_next_iff (nl : Nat) (t : Transport) (x : Call) (hcons : t.Conserved)
    (hkept : WellKept t) :
    (BuffersOneLine t x ↔ ((transport nl).next t x).Conserved) ∧
      WellKept ((transport nl).next t x) := by
  cases x with
  | flushBuffer cfg contacts =>
    obtain ⟨hcons', hkept'⟩ := hcons.flush hkept cfg contacts
    exact ⟨iff_of_true True.intro hcons', hkept'⟩
  | send c contacts =>
    show (_ ↔ (send nl c contacts t).2.Conserved) ∧ WellKept (send nl c contacts t).2
    cases htext : c.asText with
    | none =>
      rw [send_snd_none nl htext]
      refine ⟨iff_of_true ?_ hcons, hkept⟩
      intro d hd
      rw [htext] at hd
      cases hd
    | some d =>
      obtain rfl := SendCall.eq_of_asText htext
      rw [send_snd]
      obtain ⟨hiff, hnext⟩ := sendText_conserved_iff nl t d contacts hcons hkept
      rw [buffersOneLine_iff]
      exact ⟨hiff, hnext⟩

/-- A call hands in the envelope that it builds, if any. -/
theorem sendText_handed (nl : Nat) (c : TextCall) (contacts : Nat → Contact) {t : Transport}
    (hcons : t.Conserved) (hkept : WellKept t) : (sendText nl c contacts t).handed =
      t.handed ++ if c.isEmpty then [] else [c.envelope] := by
  cases hempty : c.isEmpty with
  | true =>
    rw [sendText, hempty]
    exact (List.append_nil _).symm
  | false =>
    by_cases hsize : utf8Len (envelopeText c.envelope) ≤ maxPayloadBytes
    · obtain ⟨t', _, hbuffer, hhanded, hcase⟩ := sendText_cases nl c contacts t hempty hsize
      have hkept' : WellKept t' :=
        ⟨by rw [hbuffer]; exact hkept.terminated, by rw [hhanded]; exact dicts_append c hkept⟩
      cases hrefused : refused c.cfg (contacts 0) t with
      | false =>
        rw [hrefused] at hcase
        have hcons' := hcons.settle hbuffer hhanded hcase.1
        obtain ⟨_, _, hflush, _⟩ := flushBuffer_spec c.cfg (fun i => contacts (i + 1)) hkept'
          (hcons'.lines hkept')
        rw [hcase.2, hflush]
        exact hhanded
      | true =>
        rw [hrefused] at hcase
        obtain ⟨_, _, hlog, _⟩ := appendBuffer_spec nl c.envelope hkept'.terminated
        rw [hcase.2, Transport.handed_of_trimmed hlog]
        exact hhanded
    · rw [sendText, hempty, if_neg (by decide), if_pos (not_le.mp hsize), Transport.handed_record,
        Transport.handed_record]
      exact List.append_nil _

/-- What a call raises over its text it raises in every state. -/
theorem out_ne_iff (nl : Nat) (t : Transport) (x : Call) :
    (transport nl).out t x ≠ some .unicodeEncode ↔ x.Encodes := by
  cases x with
  | flushBuffer cfg contacts =>
    refine iff_of_true ?_ True.intro
    exact tryFlush_fst_ne cfg contacts t
  | send c contacts =>
    rw [Call.Encodes, ← not_iff_not, not_not, Classical.not_imp]
    exact send_fst_iff nl contacts t

theorem conserved_init : Transport.Conserved {} :=
  .of_account (List.Perm.refl _) (List.Sublist.refl _)

theorem wellKept_init : WellKept {} := by
  refine ⟨.inl rfl, ?_⟩
  intro e he
  cases he

/-- No call of a run raises over its text iff every text encodes. -/
theorem encoded_iff (nl : Nat) (t : Transport) (calls : List Call) :
    (∀ k, some SendError.unicodeEncode ∉ (transport nl).outputs t (calls.take k)) ↔
      ∀ x ∈ calls, x.Encodes := by
  induction calls generalizing t with
  | nil => simp [Machine.outputs]
  | cons x calls ih =>
    rw [List.forall_mem_cons, ← ih ((transport nl).next t x), ← out_ne_iff nl t x]
    constructor
    · intro h
      refine ⟨fun heq => h 1 ?_, fun k hmem => h (k + 1) ?_⟩
      · rw [List.take_succ_cons, Machine.outputs, heq]
        exact List.mem_cons_self
      · rw [List.take_succ_cons, Machine.outputs]
        exact List.mem_cons_of_mem _ hmem
    · rintro ⟨hfirst, hrest⟩ k
      cases k with
      | zero => simp [Machine.outputs]
      | succ k =>
        rw [List.take_succ_cons, Machine.outputs, List.mem_cons, not_or]
        exact ⟨fun heq => hfirst heq.symm, hrest k⟩

private def noteCall (note : PyStr) : SendCall where
  cfg := { deviceId := ofText "PC-1".toList }
  msgType := ofText "inventory".toList
  payload := some ⟨[(ofText "note".toList, .str note)], by
    apply PyUnicode.Distinct.obj
    · simp
    · intro f hf
      rw [List.mem_singleton.mp hf]
      exact .str _⟩
  now := ⟨0, by decide⟩
  idempotencyKey := "k1".toList

private def quietLine : Contact where
  clock := 0
  first := { answer := .networkError, clock := 0 }
  second := { answer := .networkError, clock := 0 }

private def splitNote : TextCall :=
  ⟨noteCall (ofText ['a', Char.ofNat 0x2028, 'b']), by decide +kernel⟩

private def halfNote : SendCall := noteCall [PyUnicode.halfPair]

end Srp.Client
