/-
  Srp/Server/RescoreQueue.lean
  ============================
  **The background rescore worker** (`server/rescore_queue.py`).

  Producers put devices into a set, one thread takes them out and calls the
  recompute callback.  A step is one critical section of the condition, or one
  step of the worker outside of it, so the runs of the machine are the
  interleavings of all threads.  `log` is no part of the program: it records the
  submits, the stop and the calls of the callback in the order in which they
  happened.
-/
import Mathlib.Data.Finset.Basic
import Srp.Lib.Machine

namespace Srp.Server

open Srp.Lib

/-! ### The queue -/

/-- Where the worker thread stands. -/
inductive WorkerPhase where
  /-- before its next critical section, which may wait -/
  | idle
  /-- behind `_pending.pop()`, the callback not yet called -/
  | taken (deviceId : String)
  | computing (deviceId : String)
  | ended
deriving DecidableEq, Repr

inductive QueueEvent where
  | submitted (deviceId : String)
  | stopped
  | invoked (deviceId : String)
deriving DecidableEq, Repr

structure RescoreQueue where
  pending : Finset String := ∅
  busy : Nat := 0
  stopping : Bool := false
  worker : WorkerPhase := .idle
  log : List QueueEvent := []

/-- `submit`. -/
def submit (deviceId : String) (q : RescoreQueue) : RescoreQueue :=
  { q with
    pending := if q.stopping then q.pending else insert deviceId q.pending
    log := q.log ++ [.submitted deviceId] }

/-- The critical section of `stop`. -/
def stop (q : RescoreQueue) : RescoreQueue :=
  { q with stopping := true, log := q.log ++ [.stopped] }

/-- What `drain` waits for. -/
def isIdle (q : RescoreQueue) : Bool := decide (q.pending = ∅) && q.busy == 0

/-! ### The worker -/

/-- The head of the loop: wait, return, or take the device that `pop` picks. -/
def loopHead (pick : String) (q : RescoreQueue) : RescoreQueue :=
  if q.pending = ∅ then
    if q.stopping then { q with worker := .ended } else q
  else if pick ∈ q.pending then
    { q with pending := q.pending.erase pick, busy := q.busy + 1, worker := .taken pick }
  else q

/-- One step of the thread.  Whether the callback returns or raises, the `finally` block is what
    comes next. -/
def workerStep (pick : String) (q : RescoreQueue) : RescoreQueue :=
  match q.worker with
  | .idle => loopHead pick q
  | .taken deviceId =>
    { q with worker := .computing deviceId, log := q.log ++ [.invoked deviceId] }
  | .computing _ => { q with busy := q.busy - 1, worker := .idle }
  | .ended => q

inductive QueueStep where
  | submit (deviceId : String)
  | stop
  | work (pick : String)
deriving DecidableEq, Repr

def rescoreQueue : Machine RescoreQueue QueueStep Bool where
  next q
    | .submit deviceId => submit deviceId q
    | .stop => stop q
    | .work pick => workerStep pick q
  out q _ := isIdle q

/-! ### What a log owes -/

/-- The last submit of the device came before the stop, and the callback was not called for
    the device since. -/
def Unserved (log : List QueueEvent) (deviceId : String) : Prop :=
  ∃ before since, log = before ++ .submitted deviceId :: since ∧ .submitted deviceId ∉ since ∧
    .stopped ∉ before ∧ .invoked deviceId ∉ since

theorem not_unserved_nil (deviceId : String) : ¬ Unserved [] deviceId := by
  rintro ⟨before, since, hlog, _⟩
  have hlen := congrArg List.length hlog
  simp at hlen

/-- What one more event leaves unserved. -/
theorem unserved_snoc {log : List QueueEvent} {e : QueueEvent} {deviceId : String}
    (h : Unserved (log ++ [e]) deviceId) :
    (e = .submitted deviceId ∧ .stopped ∉ log) ∨
      (e ≠ .submitted deviceId ∧ e ≠ .invoked deviceId ∧ Unserved log deviceId) := by
  obtain ⟨before, since, hlog, hsubmit, hstop, hinvoked⟩ := h
  rcases List.eq_nil_or_concat since with rfl | ⟨init, last, rfl⟩
  · obtain ⟨rfl, hlast⟩ := List.append_inj' hlog rfl
    exact Or.inl ⟨List.singleton_inj.mp hlast, hstop⟩
  · right
    rw [List.concat_eq_append, ← List.cons_append, ← List.append_assoc] at hlog
    obtain ⟨rfl, hlast⟩ := List.append_inj' hlog rfl
    obtain rfl := List.singleton_inj.mp hlast
    simp only [List.concat_eq_append, List.mem_append, List.mem_singleton, not_or] at hsubmit hinvoked
    exact ⟨Ne.symm hsubmit.2, Ne.symm hinvoked.2, before, init, rfl, hsubmit.1, hstop, hinvoked.1⟩

/-! ### The invariant -/

structure Accounted (q : RescoreQueue) : Prop where
  /-- Whatever is unserved waits in the set or in the hands of the worker. -/
  held : ∀ d, Unserved q.log d → d ∈ q.pending ∨ q.worker = .taken d
  stopping : q.stopping = true ↔ .stopped ∈ q.log
  busy : q.busy = 0 → ∀ d, q.worker ≠ .taken d
  ended : q.worker = .ended → q.stopping = true ∧ q.pending = ∅

theorem accounted_init : Accounted {} where
  held := fun d h => absurd h (not_unserved_nil d)
  stopping := by simp
  busy := fun _ d => nofun
  ended := nofun

theorem Accounted.submit {q : RescoreQueue} (h : Accounted q) (deviceId : String) :
    Accounted (submit deviceId q) where
  held := by
    intro d hd
    rcases unserved_snoc hd with ⟨hnew, hstop⟩ | ⟨_, _, hold⟩
    · obtain rfl := QueueEvent.submitted.inj hnew
      have hrunning : q.stopping = false := by
        rw [← Bool.not_eq_true, h.stopping]
        exact hstop
      left
      simp [Server.submit, hrunning]
    · rcases h.held d hold with hmem | htaken
      · left
        unfold Server.submit
        split
        · exact hmem
        · exact Finset.mem_insert_of_mem hmem
      · exact Or.inr htaken
  stopping := by simp [Server.submit, h.stopping]
  busy := h.busy
  ended := by
    intro hended
    obtain ⟨hstop, hempty⟩ := h.ended hended
    refine ⟨hstop, ?_⟩
    simp only [Server.submit, if_pos hstop]
    exact hempty

theorem Accounted.stop {q : RescoreQueue} (h : Accounted q) : Accounted (stop q) where
  held := by
    intro d hd
    rcases unserved_snoc hd with ⟨hnew, _⟩ | ⟨_, _, hold⟩
    · cases hnew
    · exact h.held d hold
  stopping := by simp [Server.stop]
  busy := h.busy
  ended := fun hended => ⟨rfl, (h.ended hended).2⟩

theorem Accounted.loopHead {q : RescoreQueue} (h : Accounted q) (hidle : q.worker = .idle)
    (pick : String) : Accounted (loopHead pick q) := by
  have hpending : ∀ d, Unserved q.log d → d ∈ q.pending := by
    intro d hd
    rcases h.held d hd with hmem | htaken
    · exact hmem
    · rw [hidle] at htaken
      cases htaken
  unfold Server.loopHead
  by_cases hempty : q.pending = ∅
  · rw [if_pos hempty]
    split
    · rename_i hstop
      refine ⟨?_, h.stopping, fun _ d => nofun, fun _ => ⟨hstop, hempty⟩⟩
      intro d hd
      exact Or.inl (hpending d hd)
    · exact h
  · rw [if_neg hempty]
    split
    · refine ⟨?_, h.stopping, nofun, nofun⟩
      intro d hd
      by_cases hd' : d = pick
      · exact Or.inr (by rw [hd'])
      · exact Or.inl (Finset.mem_erase.mpr ⟨hd', hpending d hd⟩)
    · exact h

theorem Accounted.workerStep {q : RescoreQueue} (h : Accounted q) (pick : String) :
    Accounted (workerStep pick q) := by
  unfold Server.workerStep
  cases hphase : q.worker with
  | idle => exact h.loopHead hphase pick
  | taken deviceId =>
    refine ⟨?_, by simp [h.stopping], fun _ d => nofun, nofun⟩
    intro d hd
    rcases unserved_snoc hd with ⟨hnew, _⟩ | ⟨_, hother, hold⟩
    · cases hnew
    · rcases h.held d hold with hmem | htaken
      · exact Or.inl hmem
      · -- the device in hand is the one that is served now
        obtain rfl := WorkerPhase.taken.inj (hphase.symm.trans htaken)
        exact absurd rfl hother
  | computing deviceId =>
    refine ⟨?_, h.stopping, fun _ d => nofun, nofun⟩
    intro d hd
    rcases h.held d hd with hmem | htaken
    · exact Or.inl hmem
    · rw [hphase] at htaken
      cases htaken
  | ended => exact h

theorem accounted_run (steps : List QueueStep) : Accounted (rescoreQueue.stateAfter {} steps) := by
  apply Machine.stateAfter_invariant _ accounted_init
  intro q x h
  cases x with
  | submit deviceId => exact h.submit deviceId
  | stop => exact h.stop
  | work pick => exact h.workerStep pick

/-- **No lost rescore.**  In every interleaving, once `drain` sees the queue idle or the worker
    has ended, the callback was called for each device after its last submit before the stop. -/
theorem no_lost_rescore (steps : List QueueStep) {q : RescoreQueue}
    (hq : q = rescoreQueue.stateAfter {} steps)
    (hdone : isIdle q = true ∨ q.worker = .ended) {deviceId : String}
    {before since : List QueueEvent} (hlog : q.log = before ++ .submitted deviceId :: since)
    (hlast : .submitted deviceId ∉ since) (hstop : .stopped ∉ before) :
    .invoked deviceId ∈ since := by
  have h : Accounted q := hq ▸ accounted_run steps
  by_contra hinvoked
  rcases h.held deviceId ⟨before, since, hlog, hlast, hstop, hinvoked⟩ with hmem | htaken
  · rcases hdone with hidle | hended
    · simp only [isIdle, Bool.and_eq_true, decide_eq_true_eq] at hidle
      rw [hidle.1] at hmem
      exact absurd hmem (Finset.notMem_empty deviceId)
    · rw [(h.ended hended).2] at hmem
      exact absurd hmem (Finset.notMem_empty deviceId)
  · rcases hdone with hidle | hended
    · simp only [isIdle, Bool.and_eq_true, beq_iff_eq] at hidle
      exact h.busy hidle.2 deviceId htaken
    · rw [hended] at htaken
      cases htaken

/-- A device is submitted again while it is computed. -/
private def resubmitted : List QueueStep :=
  [.submit "pc", .work "pc", .work "pc", .submit "pc", .work "pc", .work "pc", .work "pc",
   .work "pc"]

/-- It is computed once more. -/
theorem no_lost_rescore_resubmitted : ∃ before since,
    (rescoreQueue.stateAfter {} resubmitted).log = before ++ .submitted "pc" :: since ∧
      .invoked "pc" ∈ before ∧ .invoked "pc" ∈ since := by
  have hlog : (rescoreQueue.stateAfter {} resubmitted).log =
      [.submitted "pc", .invoked "pc"] ++ .submitted "pc" :: [.invoked "pc"] := by decide
  have hidle : isIdle (rescoreQueue.stateAfter {} resubmitted) = true := by decide
  exact ⟨_, _, hlog, by decide,
    no_lost_rescore resubmitted rfl (Or.inl hidle) hlog (by decide) (by decide)⟩

end Srp.Server
