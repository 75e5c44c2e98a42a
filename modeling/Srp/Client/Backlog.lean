/-
  Srp/Client/Backlog.lean
  =======================
  **The order in which envelopes reach the server.**

  `send` tries the fresh envelope first and replays the buffer afterwards.  For
  any selection of envelopes and any reflexive relation, `sendText_inOrder` and
  `flush_inOrder` say when what has reached the server, followed by what waits in
  the buffer, stays in order: a fresh envelope of the selection must not reach
  the server while another one waits.
-/
import Srp.Client.BufferConservation
import Srp.Lib.Outbox

namespace Srp.Client

open Srp.Lib Srp.Lib.Lines Srp.Lib.Outbox Srp.Lib.PyJson

/-! ### What reaches the server -/

def Event.taken? : Event → Option Json
  | .taken e => some e
  | _ => none

/-- The bodies that the server has taken in, in that order. -/
def Transport.taken (t : Transport) : List Json := t.log.filterMap Event.taken?

@[simp] theorem Transport.taken_record (t : Transport) (events : List Event) :
    (t.record events).taken = t.taken ++ events.filterMap Event.taken? := by
  simp [Transport.taken]

theorem Transport.taken_record_nil (t : Transport) {events : List Event}
    (h : events.filterMap Event.taken? = []) : (t.record events).taken = t.taken := by
  rw [Transport.taken_record, h, List.append_nil]

def Answer.takes : Answer → Bool
  | .accepted => true
  | .answerLost => true
  | _ => false

/-- A delivery reaches the server: by the first attempt, or by the second one after it. -/
def reaches (cfg : ClientConfig) (x : Contact) (t : Transport) : Bool :=
  !cfg.offlineMode && !t.isThrottled x.clock &&
    (x.first.answer.takes ||
      (!x.first.answer.throttles && !x.first.answer.settles && x.second.answer.takes))

/-- `send` builds the envelope and finds it within the cap. -/
def TextCall.isPosted (c : TextCall) : Bool :=
  !c.isEmpty && utf8Len (envelopeText c.envelope) ≤ maxPayloadBytes

section Deliver

variable {e : Json} {t : Transport}

theorem attempt_taken (e : Json) (x : Exchange) (t : Transport) :
    (attempt e x t).2.taken = t.taken ++ if x.answer.takes then [e] else [] := by
  obtain ⟨answer, clock⟩ := x
  cases answer with
  | accepted => exact t.taken_record _
  | answerLost => exact t.taken_record _
  | networkError => exact (List.append_nil _).symm
  | httpError code header =>
    simp only [attempt, Answer.takes, Bool.false_eq_true, if_false, List.append_nil]
    split
    · rfl
    · split
      · split
        · exact (t.taken_record _).trans (List.append_nil _)
        · rfl
      · rfl

/-- The next attempt follows one that neither settles nor throttles. -/
theorem attempts_taken (e : Json) (xs : List Exchange) (t : Transport) :
    ∃ n, (attempts e xs t).2.taken = t.taken ++ List.replicate n e := by
  induction xs generalizing t with
  | nil => exact ⟨0, (List.append_nil _).symm⟩
  | cons x xs ih =>
    have hfirst : ∃ n, (attempt e x t).2.taken = t.taken ++ List.replicate n e := by
      rw [attempt_taken]
      cases x.answer.takes with
      | true => exact ⟨1, rfl⟩
      | false => exact ⟨0, rfl⟩
    unfold attempts
    generalize attempt e x t = r at hfirst ⊢
    obtain ⟨outcome, t'⟩ := r
    obtain ⟨n, hfirst⟩ := hfirst
    cases outcome with
    | retry =>
      obtain ⟨m, hrest⟩ := ih t'
      refine ⟨n + m, ?_⟩
      dsimp only at hfirst ⊢
      rw [hrest, hfirst, List.append_assoc, List.replicate_append_replicate]
    | ok => exact ⟨n, hfirst⟩
    | drop => exact ⟨n, hfirst⟩
    | throttled => exact ⟨n, hfirst⟩
    | attributeError => exact ⟨n, hfirst⟩

theorem deliver_taken (cfg : ClientConfig) (e : Json) (x : Contact) (t : Transport) :
    ∃ n, (deliver cfg e x t).2.taken = t.taken ++ List.replicate n e := by
  unfold deliver
  split
  · exact ⟨0, (List.append_nil _).symm⟩
  · split
    · exact ⟨0, (List.append_nil _).symm⟩
    · exact attempts_taken e _ t

/-- The loop ends with an attempt that throttles or settles. -/
theorem attempts_cons_snd (he : isDict e = true) (x : Exchange) (xs : List Exchange)
    (t : Transport) : (attempts e (x :: xs) t).2 =
      if x.answer.throttles || x.answer.settles then (attempt e x t).2
      else (attempts e xs (attempt e x t).2).2 := by
  obtain ⟨answer, clock⟩ := x
  cases answer with
  | accepted => rfl
  | answerLost =>
    simp only [attempts, attempt, he, if_true]
    rfl
  | networkError =>
    simp only [attempts, attempt, he, if_true]
    rfl
  | httpError code header =>
    simp only [attempts, attempt, he, if_true, Answer.throttles, Answer.settles]
    cases isThrottle code with
    | true => rfl
    | false =>
      cases isRejection code with
      | true => rfl
      | false => rfl

theorem attempt_taken_eq (e : Json) {x : Exchange} (h : x.answer.takes = false) (t : Transport) :
    (attempt e x t).2.taken = t.taken := by
  rw [attempt_taken, h]
  exact List.append_nil _

/-- A delivery that does not reach the server leaves nothing there. -/
theorem deliver_taken_eq (he : isDict e = true) {cfg : ClientConfig} {x : Contact}
    (h : reaches cfg x t = false) : (deliver cfg e x t).2.taken = t.taken := by
  unfold deliver
  unfold reaches at h
  cases hoff : cfg.offlineMode with
  | true => rfl
  | false =>
    cases hpause : t.isThrottled x.clock with
    | true => rfl
    | false =>
      rw [hoff, hpause] at h
      simp only [Bool.not_false, Bool.true_and, Bool.or_eq_false_iff] at h
      obtain ⟨hfirst, hsecond⟩ := h
      simp only [Bool.false_eq_true, if_false]
      rw [attempts_cons_snd he]
      split
      · exact attempt_taken_eq e hfirst t
      · rename_i hretry
        rw [Bool.or_eq_true, not_or, Bool.not_eq_true, Bool.not_eq_true] at hretry
        rw [hretry.1, hretry.2] at hsecond
        rw [attempts_cons_snd he]
        split
        · rw [attempt_taken_eq e hsecond, attempt_taken_eq e hfirst]
        · rw [attempts, attempt_taken_eq e hsecond, attempt_taken_eq e hfirst]

end Deliver

/-! ### Where the bodies come from -/

section Sources

variable {t : Transport}

/-- A replay posts envelopes of its lines. -/
theorem replay_taken (cfg : ClientConfig) (contacts : Nat → Contact) (lines : List Text)
    (t : Transport) : ∃ more, (replay cfg contacts lines t).2.taken = t.taken ++ more ∧
      ∀ y ∈ more, some y ∈ lines.map loads := by
  induction lines generalizing t contacts with
  | nil => exact ⟨[], (List.append_nil _).symm, by simp⟩
  | cons line lines ih =>
    unfold replay
    cases hloads : loads line with
    | none =>
      obtain ⟨more, htaken, hmore⟩ := ih contacts (t.record [.corrupt line])
      refine ⟨more, ?_, fun y hy => List.mem_cons_of_mem _ (hmore y hy)⟩
      rw [t.taken_record_nil rfl] at htaken
      exact htaken
    | some e =>
      obtain ⟨n, hdeliver⟩ := deliver_taken cfg e (contacts 0) t
      have hcopies : ∀ y ∈ List.replicate n e, some y ∈ (line :: lines).map loads := by
        intro y hy
        rw [List.eq_of_mem_replicate hy, List.map_cons, hloads]
        exact List.mem_cons_self
      dsimp only
      generalize deliver cfg e (contacts 0) t = r at hdeliver ⊢
      obtain ⟨outcome, t'⟩ := r
      cases outcome with
      | handled =>
        obtain ⟨more, htaken, hmore⟩ := ih (fun i => contacts (i + 1)) t'
        refine ⟨List.replicate n e ++ more, ?_, ?_⟩
        · rw [← List.append_assoc, ← hdeliver]
          exact htaken
        · intro y hy
          rcases List.mem_append.mp hy with hy | hy
          · exact hcopies y hy
          · exact List.mem_cons_of_mem _ (hmore y hy)
      | refused => exact ⟨_, hdeliver, hcopies⟩
      | attributeError => exact ⟨_, hdeliver, hcopies⟩

theorem flush_taken (cfg : ClientConfig) (contacts : Nat → Contact) (t : Transport) :
    ∃ more, (flushBuffer cfg contacts t).taken = t.taken ++ more ∧ ∀ y ∈ more, some y ∈ t.pending := by
  by_cases hnil : readBuffer t = []
  · rw [flushBuffer_nil cfg contacts hnil]
    exact ⟨[], (List.append_nil _).symm, by simp⟩
  · obtain ⟨more, htaken, hmore⟩ := replay_taken cfg contacts (readBuffer t) t
    refine ⟨more, ?_, hmore⟩
    unfold flushBuffer
    dsimp only
    rw [if_neg hnil]
    generalize replay cfg contacts (readBuffer t) t = r at htaken ⊢
    obtain ⟨remaining, t'⟩ := r
    cases remaining with
    | none => exact htaken
    | some rest => exact htaken

theorem taken_appendBuffer (nl : Nat) (e : Json) (hterm : Terminated (t.buffer.getD [])) :
    (appendBuffer nl e t).taken = t.taken := by
  obtain ⟨dropped, _, hlog, _⟩ := appendBuffer_spec nl e hterm
  have hnone : (dropped.map Event.trimmed).filterMap Event.taken? = [] := by
    rw [List.filterMap_map]
    exact List.filterMap_eq_nil_iff.mpr fun _ _ => rfl
  rw [Transport.taken, hlog, List.filterMap_append, hnone, List.append_nil]
  rfl

/-- A `send` posts its own envelope and envelopes of the buffer. -/
theorem sendText_taken (nl : Nat) (c : TextCall) (contacts : Nat → Contact)
    (hkept : WellKept t) : ∃ more, (sendText nl c contacts t).taken = t.taken ++ more ∧
      ∀ y ∈ more, (c.isEmpty = false ∧ y = c.envelope) ∨ some y ∈ t.pending := by
  cases hempty : c.isEmpty with
  | true =>
    rw [sendText, hempty]
    exact ⟨[], (List.append_nil _).symm, by simp⟩
  | false =>
    by_cases hsize : utf8Len (envelopeText c.envelope) ≤ maxPayloadBytes
    · obtain ⟨t', ht', hbuffer, _, hcase⟩ := sendText_cases nl c contacts t hempty hsize
      obtain ⟨n, htaken⟩ := deliver_taken c.cfg c.envelope (contacts 0)
        (t.record [.handed c.envelope])
      have hstart : (t.record [.handed c.envelope]).taken = t.taken := t.taken_record_nil rfl
      rw [← ht', hstart] at htaken
      have hpending : t'.pending = t.pending := by
        simp only [Transport.pending, readBuffer_eq, hbuffer]
      cases hrefused : refused c.cfg (contacts 0) t with
      | true =>
        rw [hrefused] at hcase
        have hterm : Terminated (t'.buffer.getD []) := by
          rw [hbuffer]
          exact hkept.terminated
        rw [hcase.2, taken_appendBuffer nl c.envelope hterm]
        exact ⟨_, htaken, fun y hy => .inl ⟨rfl, List.eq_of_mem_replicate hy⟩⟩
      | false =>
        rw [hrefused] at hcase
        obtain ⟨more, hflush, hmore⟩ := flush_taken c.cfg (fun i => contacts (i + 1)) t'
        refine ⟨List.replicate n c.envelope ++ more, ?_, ?_⟩
        · rw [hcase.2, hflush, htaken, List.append_assoc]
        · intro y hy
          rcases List.mem_append.mp hy with hy | hy
          · exact .inl ⟨rfl, List.eq_of_mem_replicate hy⟩
          · rw [← hpending]
            exact .inr (hmore y hy)
    · have hsend : sendText nl c contacts t =
          (t.record [.handed c.envelope]).record [.oversize c.envelope] := by
        rw [sendText, hempty, if_neg (by decide), if_pos (not_le.mp hsize)]
      refine ⟨[], ?_, by simp⟩
      rw [hsend, Transport.taken_record_nil _ rfl, Transport.taken_record_nil _ rfl,
        List.append_nil]

end Sources

/-! ### Selections -/

/-- The selected envelopes that have reached the server. -/
def Transport.received (p : Json → Bool) (t : Transport) : List Json := t.taken.filter p

/-- The selected envelopes among lines of the buffer. -/
def selected (p : Json → Bool) (lines : List Text) : List Json :=
  (lines.filterMap loads).filter p

/-- The selected envelopes that wait in the buffer. -/
def Transport.backlog (p : Json → Bool) (t : Transport) : List Json := selected p (readBuffer t)

/-- What has reached the server and then what waits are in order. -/
def Transport.InOrder (le : Json → Json → Prop) (p : Json → Bool) (t : Transport) : Prop :=
  Outbox.InOrder le (t.received p) (t.backlog p)

section Order

variable {le : Json → Json → Prop} {p : Json → Bool} {e : Json} {t : Transport}

theorem selected_append (p : Json → Bool) (ls ms : List Text) :
    selected p (ls ++ ms) = selected p ls ++ selected p ms := by
  simp [selected]

theorem selected_cons {line : Text} (hline : loads line = some e) (lines : List Text) :
    selected p (line :: lines) = if p e then e :: selected p lines else selected p lines := by
  unfold selected
  rw [List.filterMap_cons_some hline, List.filter_cons]

theorem filter_replicate_eq (p : Json → Bool) (n : Nat) (e : Json) :
    ∃ m, (List.replicate n e).filter p = List.replicate m e ∧ (p e = false → m = 0) := by
  rw [List.filter_replicate]
  split
  · rename_i hp
    refine ⟨n, rfl, ?_⟩
    intro h
    rw [hp] at h
    cases h
  · exact ⟨0, rfl, fun _ => rfl⟩

/-- Replaying lines keeps the order. -/
theorem replay_inOrder (hrefl : ∀ x, le x x) (cfg : ClientConfig) (contacts : Nat → Contact)
    (lines : List Text) (t : Transport) (h : ∀ l ∈ lines, ∃ e, loads l = some e ∧ isDict e = true)
    (horder : Outbox.InOrder le (t.received p) (selected p lines)) {rest : List Text}
    (hrest : (replay cfg contacts lines t).1 = some rest) :
    Outbox.InOrder le ((replay cfg contacts lines t).2.received p) (selected p rest) := by
  induction lines generalizing t contacts with
  | nil =>
    obtain rfl : [] = rest := Option.some.inj hrest
    exact horder
  | cons line lines ih =>
    obtain ⟨e, hloads, he⟩ := h line List.mem_cons_self
    have hlines : ∀ l ∈ lines, ∃ e, loads l = some e ∧ isDict e = true :=
      fun l hl => h l (List.mem_cons_of_mem line hl)
    obtain ⟨n, htaken⟩ := deliver_taken cfg e (contacts 0) t
    have hnoError := (deliver_settles he cfg (contacts 0) t).noError
    -- the copies of `e` come after what was received and before what waits behind it
    have hafter : Outbox.InOrder le ((deliver cfg e (contacts 0) t).2.received p)
        (selected p (line :: lines)) := by
      rw [Transport.received, htaken, List.filter_append, selected_cons hloads]
      rw [selected_cons hloads] at horder
      obtain ⟨m, hcopies, hnone⟩ := filter_replicate_eq p n e
      rw [hcopies]
      cases hp : p e with
      | true =>
        rw [hp] at horder
        exact horder.receive hrefl m
      | false =>
        rw [hp] at horder
        rw [hnone hp, List.replicate_zero, List.append_nil]
        exact horder
    simp only [replay, hloads] at hrest ⊢
    generalize deliver cfg e (contacts 0) t = r at hafter hrest hnoError ⊢
    obtain ⟨outcome, t'⟩ := r
    cases outcome with
    | handled =>
      apply ih _ t' hlines _ hrest
      apply hafter.sublist
      rw [selected_cons hloads]
      split
      · exact List.sublist_cons_self _ _
      · exact List.Sublist.refl _
    | refused =>
      obtain rfl : line :: lines = rest := Option.some.inj hrest
      exact hafter
    | attributeError => exact absurd rfl hnoError

theorem flush_inOrder (hrefl : ∀ x, le x x) (cfg : ClientConfig) (contacts : Nat → Contact)
    (h : ∀ l ∈ readBuffer t, ∃ e, loads l = some e ∧ isDict e = true)
    (horder : t.InOrder le p) : (flushBuffer cfg contacts t).InOrder le p := by
  by_cases hnil : readBuffer t = []
  · rw [flushBuffer_nil cfg contacts hnil]
    exact horder
  · obtain ⟨_, rest, _, hrest, hflush, hread, _, _⟩ := flushBuffer_run cfg contacts h hnil
    have hreplay := replay_inOrder hrefl cfg contacts (readBuffer t) t h horder hrest
    unfold Transport.InOrder Transport.backlog
    rw [hread, hflush]
    exact hreplay

/-- Appending and trimming leave the server alone; the buffer ends in the new envelope. -/
theorem append_inOrder {c : TextCall} (nl : Nat) (hterm : Terminated (t.buffer.getD []))
    (hwhole : ∀ ch ∈ envelopeText c.envelope, isUnescapedBreak ch = false)
    (horder : t.InOrder le p)
    (hlast : ∀ y ∈ t.received p ++ t.backlog p, le y c.envelope) :
    (appendBuffer nl c.envelope t).InOrder le p := by
  obtain ⟨dropped, hsplit, _, _⟩ := appendBuffer_spec nl c.envelope hterm
  have hreceived : (appendBuffer nl c.envelope t).received p = t.received p := by
    rw [Transport.received, taken_appendBuffer nl c.envelope hterm]
    rfl
  rw [nonblankLines_envelope hwhole] at hsplit
  have hselect := congrArg (selected p) hsplit
  rw [selected_append, selected_append, selected_cons c.loads_envelopeText] at hselect
  unfold Transport.InOrder
  rw [hreceived]
  have hall : Outbox.InOrder le (t.received p)
      (t.backlog p ++ if p c.envelope then [c.envelope] else []) := by
    cases hp : p c.envelope with
    | true => exact horder.push hlast
    | false =>
      simp only [Bool.false_eq_true, if_false, List.append_nil]
      exact horder
  apply hall.sublist
  have hsuffix : (selected p dropped ++ (appendBuffer nl c.envelope t).backlog p) =
      t.backlog p ++ if p c.envelope then [c.envelope] else [] := hselect.symm
  rw [← hsuffix]
  exact List.sublist_append_right _ _

/-- A first delivery leaves selected copies at the server only if it reaches it. -/
theorem received_deliver (he : isDict e = true) (cfg : ClientConfig) (x : Contact) (t : Transport) :
    ∃ n, (deliver cfg e x t).2.received p = t.received p ++ List.replicate n e ∧
      (n = 0 ∨ (p e = true ∧ reaches cfg x t = true)) := by
  cases hreach : reaches cfg x t with
  | false =>
    refine ⟨0, ?_, .inl rfl⟩
    rw [Transport.received, deliver_taken_eq he hreach]
    exact (List.append_nil _).symm
  | true =>
    obtain ⟨n, htaken⟩ := deliver_taken cfg e x t
    obtain ⟨m, hcopies, hnone⟩ := filter_replicate_eq p n e
    refine ⟨m, ?_, ?_⟩
    · rw [Transport.received, htaken, List.filter_append, hcopies]
      rfl
    · cases hp : p e with
      | false => exact .inl (hnone hp)
      | true => exact .inr ⟨rfl, rfl⟩

theorem Transport.InOrder.record {events : List Event} (hevents : events.filterMap Event.taken? = [])
    (horder : t.InOrder le p) : (t.record events).InOrder le p := by
  unfold Transport.InOrder Transport.received
  rw [t.taken_record_nil hevents]
  exact horder

/-- **One `send`.**  What is selected stays in order if the fresh envelope is the latest and does
    not reach the server while a selected one waits. -/
theorem sendText_inOrder (hrefl : ∀ x, le x x) (nl : Nat) {c : TextCall} {contacts : Nat → Contact}
    (hcons : t.Conserved) (hkept : WellKept t) (hone : TextOneLine t c contacts)
    (hlast : c.isEmpty = false → ∀ y ∈ t.received p ++ t.backlog p, le y c.envelope)
    (hfresh : p c.envelope = true → c.isPosted = true → reaches c.cfg (contacts 0) t = true →
      t.backlog p = [])
    (horder : t.InOrder le p) : (sendText nl c contacts t).InOrder le p := by
  cases hempty : c.isEmpty with
  | true =>
    rw [sendText, hempty]
    exact horder
  | false =>
    by_cases hsize : utf8Len (envelopeText c.envelope) ≤ maxPayloadBytes
    · obtain ⟨t', ht', hbuffer, hhanded, hcase⟩ := sendText_cases nl c contacts t hempty hsize
      have hbacklog : t'.backlog p = t.backlog p := by
        simp only [Transport.backlog, readBuffer_eq, hbuffer]
      obtain ⟨n, hreceived, hcopies⟩ := received_deliver (p := p) (e := c.envelope) rfl c.cfg
        (contacts 0) (t.record [.handed c.envelope])
      have hstart : (t.record [.handed c.envelope]).received p = t.received p := by
        rw [Transport.received, t.taken_record_nil rfl]
        rfl
      rw [← ht', hstart] at hreceived
      -- the fresh copies come after what was received, and nothing waits before them
      have horder' : t'.InOrder le p := by
        unfold Transport.InOrder
        rw [hreceived, hbacklog]
        rcases hcopies with rfl | ⟨hp, hreach⟩
        · rw [List.replicate_zero, List.append_nil]
          exact horder
        · have hnil := hfresh hp (by simp [TextCall.isPosted, hempty, hsize]) hreach
          unfold Transport.InOrder at horder
          rw [hnil] at horder ⊢
          exact horder.direct hrefl (fun y hy => hlast hempty y (List.mem_append_left _ hy)) n
      have hlast' : ∀ y ∈ t'.received p ++ t'.backlog p, le y c.envelope := by
        intro y hy
        rw [hreceived, hbacklog] at hy
        rcases List.mem_append.mp hy with hy | hy
        · rcases List.mem_append.mp hy with hy | hy
          · exact hlast hempty y (List.mem_append_left _ hy)
          · rw [List.eq_of_mem_replicate hy]
            exact hrefl _
        · exact hlast hempty y (List.mem_append_right _ hy)
      have hterm : Terminated (t'.buffer.getD []) := by
        rw [hbuffer]
        exact hkept.terminated
      cases hrefused : refused c.cfg (contacts 0) t with
      | true =>
        rw [hrefused] at hcase
        rw [hcase.2]
        exact append_inOrder nl hterm (hone hempty hsize hrefused) horder' hlast'
      | false =>
        rw [hrefused] at hcase
        rw [hcase.2]
        have hkept' : WellKept t' := ⟨hterm, by rw [hhanded]; exact dicts_append c hkept⟩
        have hcons' := hcons.settle hbuffer hhanded hcase.1
        exact flush_inOrder hrefl c.cfg _ (hcons'.lines hkept') horder'
    · rw [sendText, hempty, if_neg (by decide), if_pos (not_le.mp hsize)]
      exact Transport.InOrder.record rfl (Transport.InOrder.record rfl horder)

end Order

end Srp.Client
