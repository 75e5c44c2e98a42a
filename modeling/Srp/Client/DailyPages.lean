/-
  Srp/Client/DailyPages.lean
  ==========================
  **The daily page counter** (`accumulate_daily` and `_finish_sweep` of
  `client/collectors/print_jobs.py`).

  A sweep adds the pages of its jobs to the day on which it finishes.  The server knows
  a job by its id, the counter does not: a job that is at or after the watermark when
  the next query is made is read again and added again.  The counter stays right as
  long as no query reads a job again (`Fresh`).  It does not matter whether the sweep is
  cut afterwards, since a cut keeps the older jobs and those are the ones that were read
  before (`Settled`).  Sweeps that are not cut, and whose queries read nothing as late as
  their stamps, read no job again (`fresh_of_sealed`).
-/
import Srp.Client.PrintSweeps
import Srp.Lib.DayBook

namespace Srp.Client

open Srp.Lib Srp.Lib.Lines Srp.Lib.DayBook

variable (L : PrintLib)

/-! ### The counter -/

/-- `_DAILY_KEEP_DAYS`. -/
def dailyKeepDays : Nat := 62

/-- `day >= cutoff`, of the days as numbers. -/
def inWindow (today day : Nat) : Bool := decide (today - dailyKeepDays ≤ day)

/-- The map of the state file, from a day to its pages. -/
abbrev Daily := List (Nat × Nat)

/-- The loop of `accumulate_daily` over the jobs. -/
def addedPages : List PrintJob → Nat
  | [] => 0
  | j :: jobs => if 0 < j.pages then j.pages + addedPages jobs else addedPages jobs

/-- `accumulate_daily`. -/
def accumulateDaily (daily : Daily) (jobs : List PrintJob) (today : Nat) : Daily :=
  let added := addedPages jobs
  let daily := if added = 0 then daily else enter daily today added
  daily.filter fun e => inWindow today e.1

/-- The jobs that the query answers with, newest first. -/
def World.answer (w : World) : List PrintJob := (w.entries L).filterMap (parseJob L)

/-- The jobs with which a step finishes an event sweep. -/
def World.sweptJobs (w : World) : PrintStep → Option (List PrintJob)
  | .readEvents true =>
    match w.phase with
    | .queried queriedAt =>
      some (capSweep L (w.answer L) (.powershell queriedAt) w.state.lastSweepTs).1
    | _ => none
  | _ => none

/-- The collector with the counter of its state file.  `sweeps` is no part of the program. -/
structure PageCounter where
  world : World
  daily : Daily := []
  sweeps : List (Batch Nat PrintJob) := []

/-- A step of the spooler or of an event sweep, and the local date on which it is taken. -/
structure DatedStep where
  step : PrintStep
  today : Nat
  event : EventStep step

/-- `_finish_sweep` for the counter, and the step of the collector for the rest. -/
def dailyCollector : Machine PageCounter DatedStep Unit where
  next c x :=
    match c.world.sweptJobs L x.step with
    | some jobs =>
      { world := c.world.step L x.step
        daily := accumulateDaily c.daily jobs x.today
        sweeps := c.sweeps ++ [⟨x.today, jobs⟩] }
    | none => { c with world := c.world.step L x.step }
  out _ _ := ()

/-- The jobs emitted so far. -/
def PageCounter.emitted (c : PageCounter) : List PrintJob := arrived c.sweeps

/-- The sum of the counter is the number of pages of the distinct jobs emitted on the days that
    are kept. -/
def EachJobOnce (c : PageCounter) : Prop :=
  (c.daily.map Prod.snd).sum = entered inWindow PrintJob.pages c.sweeps fun _ => true

instance EachJobOnce.decidable (c : PageCounter) : Decidable (EachJobOnce c) :=
  inferInstanceAs (Decidable (_ = _))

/-- If the step finishes a sweep, its query has answered with no job that was emitted before. -/
def Fresh (c : PageCounter) (x : DatedStep) : Prop :=
  (c.world.sweptJobs L x.step).isSome = true → ∀ j ∈ c.world.answer L, j ∉ c.emitted

instance Fresh.decidable (c : PageCounter) (x : DatedStep) : Decidable (Fresh L c x) :=
  inferInstanceAs (Decidable (_ = true → _))

/-! ### The counter as a day book -/

theorem addedPages_eq (jobs : List PrintJob) : addedPages jobs = (jobs.map PrintJob.pages).sum := by
  induction jobs with
  | nil => rfl
  | cons j jobs ih =>
    simp only [addedPages, ih, List.map_cons, List.sum_cons]
    split
    · rfl
    · omega

theorem accumulateDaily_eq (daily : Daily) (jobs : List PrintJob) (today : Nat) :
    accumulateDaily daily jobs today = post inWindow PrintJob.pages daily ⟨today, jobs⟩ := by
  simp only [accumulateDaily, addedPages_eq, post]

theorem inWindow_self (today : Nat) : inWindow today today = true := by
  simp [inWindow]

theorem eachJobOnce_iff (c : PageCounter) : EachJobOnce c ↔
    sumOn (fun _ => true) c.daily = entered inWindow PrintJob.pages c.sweeps fun _ => true := by
  simp [EachJobOnce, sumOn]

/-! ### The answer of a query -/

theorem trimSweep_ne_nil (fuel : Nat) {jobs : List PrintJob} (h : jobs ≠ []) :
    trimSweep L fuel jobs ≠ [] := by
  induction fuel generalizing jobs with
  | zero => exact h
  | succ fuel ih =>
    simp only [trimSweep]
    split
    · next hbig =>
      apply ih
      rw [Ne, List.drop_eq_nil_iff]
      omega
    · exact h

theorem parseJob_record {e : PrintEvent} {j : PrintJob} (h : parseJob L e = some j) :
    j.record = some e.recordId := by
  simp only [parseJob] at h
  split at h
  · cases h
  · split at h
    · cases h
    · cases h
      rfl

theorem parseJob_pages_pos {e : PrintEvent} {j : PrintJob} (h : parseJob L e = some j) :
    0 < j.pages := by
  obtain ⟨-, -, hpages⟩ := parseJob_spec L h
  rw [hpages]
  simp only [parseJob] at h
  split at h
  · cases h
  · split at h
    · cases h
    · next hpos => exact Nat.pos_of_ne_zero hpos

theorem mem_answer {w : World} {j : PrintJob} (hj : j ∈ w.answer L) :
    ∃ e ∈ w.log, w.state.reads e = true ∧ parseJob L e = some j := by
  obtain ⟨e, he, hparse⟩ := List.mem_filterMap.mp hj
  have hmem := List.mem_of_mem_take (List.mem_of_mem_filter he)
  rw [List.mem_filter, List.mem_reverse] at hmem
  exact ⟨e, hmem.1, hmem.2, hparse⟩

/-- The jobs in the order of the log: what is emitted of them at any time, its older entries are
    emitted with it. -/
structure Settled (w : World) (emitted : List PrintJob) : Prop where
  numbered : w.log.map PrintEvent.recordId = List.range w.log.length
  sorted : w.log.Pairwise fun a b => a.time ≤ b.time
  past : ∀ e ∈ w.log, e.time ≤ w.now
  marked : ∀ last ∈ w.state.lastSweepTs, last.instant ≤ w.now
  stamped : ∀ q, w.phase = .queried q → q ≤ w.now
  stampedLater : ∀ q, w.phase = .queried q → ∀ last ∈ w.state.lastSweepTs, last.instant ≤ q
  logged : ∀ j ∈ emitted, ∃ e ∈ w.log, parseJob L e = some j
  older : (w.answer L).Pairwise fun j k => j ∈ emitted → k ∈ emitted

section Settled

variable {w w' : World} {emitted : List PrintJob}

theorem answer_eq_of_same (hlog : w'.log = w.log) (hstate : w'.state = w.state) :
    w'.answer L = w.answer L := by
  simp only [World.answer, World.entries, hlog, hstate]

theorem Settled.moved (h : Settled L w emitted) (hmoved : w.Moved w') : Settled L w' emitted where
  numbered := hmoved.log ▸ h.numbered
  sorted := hmoved.log ▸ h.sorted
  past e he := (h.past e (hmoved.log ▸ he)).trans hmoved.now
  marked last hlast := (h.marked last (hmoved.state ▸ hlast)).trans hmoved.now
  stamped q hq := by
    rcases hmoved.queried q hq with hbefore | rfl
    · exact (h.stamped q hbefore).trans hmoved.now
    · exact hmoved.now
  stampedLater q hq last hlast := by
    rw [hmoved.state] at hlast
    rcases hmoved.queried q hq with hbefore | rfl
    · exact h.stampedLater q hbefore last hlast
    · exact h.marked last hlast
  logged j hj := hmoved.log ▸ h.logged j hj
  older := by
    rw [answer_eq_of_same L hmoved.log hmoved.state]
    exact h.older

/-- Two jobs of an answer are of different entries. -/
theorem Settled.nodup_answer (h : Settled L w emitted) : (w.answer L).Nodup := by
  have hlog : w.log.reverse.Pairwise fun a b => a.recordId ≠ b.recordId := by
    rw [List.pairwise_reverse]
    have hnodup : (w.log.map PrintEvent.recordId).Nodup := h.numbered ▸ List.nodup_range
    exact (List.pairwise_map.mp hnodup).imp fun hne => hne.symm
  apply List.pairwise_filterMap.mpr
  refine (((hlog.filter _).take).filter _).imp ?_
  rintro a b hne j hj k hk rfl
  have ha := parseJob_record L (Option.mem_def.mp hj)
  have hb := parseJob_record L (Option.mem_def.mp hk)
  exact hne (Option.some.inj (ha.symm.trans hb))

/-- A new entry comes first, if the query reads it at all. -/
theorem answer_snoc {e : PrintEvent} (hlog : w'.log = w.log ++ [e]) (hstate : w'.state = w.state) :
    ∃ rest, rest.Sublist (w.answer L) ∧
      (w'.answer L = rest ∨ ∃ j, parseJob L e = some j ∧ w'.answer L = j :: rest) := by
  have hentries : ∃ rest, rest.Sublist (w.entries L) ∧
      (w'.entries L = rest ∨ w'.entries L = e :: rest) := by
    simp only [World.entries, hlog, hstate, List.reverse_append, List.reverse_singleton,
      List.singleton_append, List.filter_cons]
    by_cases hreads : w.state.reads e = true
    · refine ⟨_, (List.take_sublist_take_left (Nat.le_succ 4999)).filter _, ?_⟩
      simp only [hreads, if_true, List.take_succ_cons, List.filter_cons]
      split
      · exact Or.inr rfl
      · exact Or.inl rfl
    · refine ⟨_, List.Sublist.refl _, Or.inl ?_⟩
      simp [hreads]
  obtain ⟨rest, hsub, hcases⟩ := hentries
  refine ⟨rest.filterMap (parseJob L), hsub.filterMap _, ?_⟩
  simp only [World.answer]
  rcases hcases with hsame | hnew
  · rw [hsame]
    exact Or.inl rfl
  · rw [hnew, List.filterMap_cons]
    cases hparse : parseJob L e with
    | none => exact Or.inl rfl
    | some j => exact Or.inr ⟨j, rfl, rfl⟩

/-- A job is noted in the log. -/
theorem Settled.snoc (h : Settled L w emitted) {e : PrintEvent} (hnumber : e.recordId = w.log.length)
    (htime : e.time = w.now) (hlog : w'.log = w.log ++ [e]) (hstate : w'.state = w.state)
    (hnow : w'.now = w.now) (hphase : w'.phase = w.phase) : Settled L w' emitted := by
  refine ⟨?_, ?_, ?_, ?_, ?_, ?_, ?_, ?_⟩
  · rw [hlog, List.map_append, h.numbered, List.length_append, List.map_singleton, hnumber]
    exact List.range_succ.symm
  · rw [hlog]
    apply List.pairwise_append.mpr
    refine ⟨h.sorted, List.pairwise_singleton _ _, ?_⟩
    intro a ha b hb
    rw [List.mem_singleton.mp hb, htime]
    exact h.past a ha
  · rw [hlog, hnow]
    intro a ha
    rcases List.mem_append.mp ha with ha | ha
    · exact h.past a ha
    · rw [List.mem_singleton.mp ha, htime]
  · rw [hstate, hnow]
    exact h.marked
  · rw [hphase, hnow]
    exact h.stamped
  · rw [hphase, hstate]
    exact h.stampedLater
  · rw [hlog]
    intro j hj
    obtain ⟨a, ha, hparse⟩ := h.logged j hj
    exact ⟨a, List.mem_append_left _ ha, hparse⟩
  · obtain ⟨rest, hsub, hcases⟩ := answer_snoc L hlog hstate
    have hrest := h.older.sublist hsub
    rcases hcases with hsame | ⟨j, hparse, hnew⟩
    · rw [hsame]
      exact hrest
    · rw [hnew]
      refine List.pairwise_cons.mpr ⟨?_, hrest⟩
      -- no emitted job has the number of the new entry
      intro k _ hj
      obtain ⟨a, ha, hparse'⟩ := h.logged j hj
      have hsame := (parseJob_record L hparse').symm.trans (parseJob_record L hparse)
      have hmem : a.recordId ∈ w.log.map PrintEvent.recordId := List.mem_map_of_mem ha
      rw [h.numbered, List.mem_range, Option.some.inj hsame, hnumber] at hmem
      omega

theorem Settled.print (h : Settled L w emitted) (queue : Text) (pages : Nat)
    (details : JobDetails) : Settled L (w.print queue pages details) emitted := by
  unfold World.print
  split
  · by_cases henabled : w.logEnabled = true
    · exact h.snoc L rfl rfl (if_pos henabled) rfl rfl rfl
    · exact h.moved L ⟨if_neg henabled, rfl, le_rfl, fun _ hq => Or.inl hq⟩
  · exact h

/-- A later mark reads the newer part of what an earlier one reads. -/
theorem filter_reads_prefix {l : List PrintEvent} (hdesc : l.Pairwise fun a b => b.time ≤ a.time)
    {s s' : PrintState} {mark : Stamp} (hmark : s'.lastSweepTs = some mark)
    (hlater : ∀ last ∈ s.lastSweepTs, last.instant ≤ mark.instant) :
    l.filter s'.reads <+: l.filter s.reads := by
  induction l with
  | nil => exact List.prefix_rfl
  | cons e l ih =>
    obtain ⟨hhead, htail⟩ := List.pairwise_cons.mp hdesc
    by_cases hnew : mark.instant ≤ e.time
    · have hreads' : s'.reads e = true := by simp [PrintState.reads, hmark, hnew]
      have hreads : s.reads e = true := by
        unfold PrintState.reads
        cases hlast : s.lastSweepTs with
        | none => rfl
        | some last => exact decide_eq_true ((hlater last hlast).trans hnew)
      rw [List.filter_cons_of_pos hreads', List.filter_cons_of_pos hreads]
      exact (List.prefix_cons_inj e).mpr (ih htail)
    · have hnone : (e :: l).filter s'.reads = [] := by
        rw [List.filter_eq_nil_iff]
        intro a ha
        have hle : a.time ≤ e.time := by
          rcases List.mem_cons.mp ha with rfl | ha
          · exact le_rfl
          · exact hhead a ha
        simp only [PrintState.reads, hmark, decide_eq_true_eq]
        omega
      rw [hnone]
      exact List.nil_prefix

/-- The older end of the list is emitted too. -/
theorem pairwise_of_kept {jobs kept : List PrintJob} (hnodup : jobs.Nodup)
    (holder : jobs.Pairwise fun j k => j ∈ emitted → k ∈ emitted) (hkept : kept <:+ jobs) :
    jobs.Pairwise fun j k => j ∈ emitted ++ kept → k ∈ emitted ++ kept := by
  obtain ⟨front, rfl⟩ := hkept
  have hfront := (List.pairwise_append.mp holder).1
  have hdisjoint := List.disjoint_of_nodup_append hnodup
  refine List.pairwise_append.mpr ⟨?_, ?_, ?_⟩
  · refine hfront.imp_of_mem ?_
    intro j k hj _ himp hmem
    rcases List.mem_append.mp hmem with hemitted | hkept
    · exact List.mem_append_left _ (himp hemitted)
    · exact absurd hkept (hdisjoint hj)
  · apply List.pairwise_of_forall_mem_list
    intro _ _ k hk _
    exact List.mem_append_right _ hk
  · intro _ _ k hk _
    exact List.mem_append_right _ hk

theorem Settled.collectEvents (h : Settled L w emitted) {q : Nat} (hphase : w.phase = .queried q) :
    Settled L (w.collectEvents L q)
      (emitted ++ (capSweep L (w.answer L) (.powershell q) w.state.lastSweepTs).1) := by
  have hkept : (capSweep L (w.answer L) (.powershell q) w.state.lastSweepTs).1 <:+ w.answer L := by
    rw [capSweep_fst]
    exact trimSweep_suffix L _ _
  obtain ⟨mark, hmark, hstate⟩ : ∃ mark,
      mark = (capSweep L (w.answer L) (.powershell q) w.state.lastSweepTs).2 ∧
        (w.collectEvents L q).state.lastSweepTs = some mark := ⟨_, rfl, rfl⟩
  -- the new mark is not before the old one, and not ahead of the clock
  have hbounds : (∀ last ∈ w.state.lastSweepTs, last.instant ≤ mark.instant) ∧
      mark.instant ≤ w.now := by
    rw [hmark]
    rcases capSweep_instant L (w.answer L) (.powershell q) w.state.lastSweepTs with
      hquery | ⟨j, hj, hjob⟩
    · rw [hquery]
      exact ⟨h.stampedLater q hphase, h.stamped q hphase⟩
    · obtain ⟨e, he, hreads, hparse⟩ := mem_answer L hj
      obtain ⟨-, hts, -⟩ := parseJob_spec L hparse
      rw [hjob, hts]
      refine ⟨?_, h.past e he⟩
      intro last hlast
      rw [PrintState.reads, Option.mem_def.mp hlast] at hreads
      exact of_decide_eq_true hreads
  refine ⟨h.numbered, h.sorted, h.past, ?_, ?_, ?_, ?_, ?_⟩
  · intro last hlast
    rw [hstate] at hlast
    cases hlast
    exact hbounds.2
  · intro q' hq'
    cases hq'
  · intro q' hq'
    cases hq'
  · intro j hj
    rcases List.mem_append.mp hj with hj | hj
    · exact h.logged j hj
    · obtain ⟨e, he, -, hparse⟩ := mem_answer L (hkept.subset hj)
      exact ⟨e, he, hparse⟩
  · have hsub : ((w.collectEvents L q).answer L).Sublist (w.answer L) := by
      have hreads := filter_reads_prefix (List.pairwise_reverse.mpr h.sorted)
        (s := w.state) hstate hbounds.1
      exact (((hreads.take 5000).sublist).filter _).filterMap _
    refine List.Pairwise.sublist hsub ?_
    exact pairwise_of_kept h.nodup_answer h.older hkept

/-- Of the jobs emitted before, a cut drops some only if it keeps one. -/
theorem Settled.fresh_iff (h : Settled L w emitted) (sweepTs : Stamp) (lastTs : Option Stamp) :
    (∀ j ∈ w.answer L, j ∉ emitted) ↔
      ∀ j ∈ (capSweep L (w.answer L) sweepTs lastTs).1, j ∉ emitted := by
  rw [capSweep_fst]
  have hkept := trimSweep_suffix L (w.answer L).length (w.answer L)
  constructor
  · intro hfresh j hj
    exact hfresh j (hkept.subset hj)
  · intro hfresh j hj hbefore
    have hne := trimSweep_ne_nil L (w.answer L).length (List.ne_nil_of_mem hj)
    obtain ⟨k, hk⟩ := List.exists_mem_of_ne_nil _ hne
    have holder := h.older
    obtain ⟨front, hfront⟩ := hkept
    rw [← hfront] at hj holder
    rcases List.mem_append.mp hj with hj | hj
    · exact hfresh k hk ((List.pairwise_append.mp holder).2.2 j hj k hk hbefore)
    · exact hfresh j hj hbefore

end Settled

/-! ### Steps -/

section Steps

variable {c : PageCounter} {x : DatedStep}

theorem sweptJobs_eq_some {w : World} {step : PrintStep} {jobs : List PrintJob}
    (h : w.sweptJobs L step = some jobs) : ∃ q, w.phase = .queried q ∧ step = .readEvents true ∧
      jobs = (capSweep L (w.answer L) (.powershell q) w.state.lastSweepTs).1 := by
  unfold World.sweptJobs at h
  split at h
  · split at h
    · next q hphase => exact ⟨q, hphase, rfl, (Option.some.inj h).symm⟩
    · cases h
  · cases h

/-- A step that finishes no sweep leaves the counter alone. -/
theorem next_unswept (hjobs : c.world.sweptJobs L x.step = none) :
    (dailyCollector L).next c x = { c with world := c.world.step L x.step } := by
  simp only [dailyCollector, hjobs]

/-- What a sweep leaves in the counter. -/
theorem next_swept {jobs : List PrintJob} (hjobs : c.world.sweptJobs L x.step = some jobs) :
    (dailyCollector L).next c x =
      { world := c.world.step L x.step
        daily := post inWindow PrintJob.pages c.daily ⟨x.today, jobs⟩
        sweeps := c.sweeps ++ [⟨x.today, jobs⟩] } := by
  simp only [dailyCollector, hjobs, accumulateDaily_eq]

/-- Without a sweep, a job is printed or nothing happens to the log and the state file. -/
theorem unswept_cases (hjobs : c.world.sweptJobs L x.step = none) :
    (∃ queue pages details, c.world.step L x.step = c.world.print queue pages details) ∨
      c.world.Moved (c.world.step L x.step) := by
  rcases eventStep_cases L c.world x.step x.event with
    ⟨queue, pages, details, hstep⟩ | ⟨q, hstep, hphase, -⟩ | ⟨hmoved, -⟩
  · rw [hstep]
    exact Or.inl ⟨queue, pages, details, rfl⟩
  · simp [hstep, World.sweptJobs, hphase] at hjobs
  · exact Or.inr hmoved

theorem settled_next (h : Settled L c.world c.emitted) (x : DatedStep) :
    Settled L ((dailyCollector L).next c x).world ((dailyCollector L).next c x).emitted := by
  cases hjobs : c.world.sweptJobs L x.step with
  | none =>
    rw [next_unswept L hjobs]
    change Settled L (c.world.step L x.step) c.emitted
    rcases unswept_cases L hjobs with ⟨queue, pages, details, hprint⟩ | hmoved
    · rw [hprint]
      exact h.print L queue pages details
    · exact h.moved L hmoved
  | some jobs =>
    obtain ⟨q, hphase, hstep, rfl⟩ := sweptJobs_eq_some L hjobs
    have hworld : c.world.step L x.step = c.world.collectEvents L q := by
      simp only [hstep, World.step, hphase, if_true]
    rw [next_swept L hjobs, hworld]
    simpa only [PageCounter.emitted, arrived_append] using h.collectEvents L hphase

/-- The counter holds what is entered for the emitted jobs. -/
structure Booked (c : PageCounter) : Prop where
  settled : Settled L c.world c.emitted
  agrees : Agrees inWindow PrintJob.pages c.daily c.sweeps

theorem Booked.eachJobOnce (h : Booked L c) : EachJobOnce c :=
  (eachJobOnce_iff c).mpr (h.agrees _)

/-- A step keeps the counter right iff it is no sweep whose query reads a job again. -/
theorem booked_step (h : Booked L c) (x : DatedStep) :
    (Fresh L c x ↔ EachJobOnce ((dailyCollector L).next c x)) ∧
      (Fresh L c x → Booked L ((dailyCollector L).next c x)) := by
  have hsettled := settled_next L h.settled x
  cases hjobs : c.world.sweptJobs L x.step with
  | none =>
    have hfresh : Fresh L c x := fun hsome => by simp [hjobs] at hsome
    have hbooked : Booked L ((dailyCollector L).next c x) := by
      refine ⟨hsettled, ?_⟩
      rw [next_unswept L hjobs]
      exact h.agrees
    exact ⟨⟨fun _ => hbooked.eachJobOnce, fun _ => hfresh⟩, fun _ => hbooked⟩
  | some jobs =>
    obtain ⟨q, -, -, hkept⟩ := sweptJobs_eq_some L hjobs
    have hfresh : Fresh L c x ↔ ∀ j ∈ jobs, j ∉ c.emitted := by
      rw [hkept, ← h.settled.fresh_iff L]
      simp only [Fresh, hjobs, Option.isSome_some, forall_const]
    have hsub : jobs.Sublist (c.world.answer L) := by
      rw [hkept, capSweep_fst]
      exact (trimSweep_suffix L _ _).sublist
    have hnodup : jobs.Nodup := h.settled.nodup_answer.sublist hsub
    have hpos : ∀ j ∈ jobs, 0 < j.pages := by
      intro j hj
      obtain ⟨e, -, -, hparse⟩ := mem_answer L (hsub.subset hj)
      exact parseJob_pages_pos L hparse
    have hright :=
      post_right_iff (c := ⟨x.today, jobs⟩) (inWindow_self x.today) hnodup hpos h.agrees
    rw [next_swept L hjobs] at hsettled ⊢
    rw [hfresh, eachJobOnce_iff]
    refine ⟨hright.symm, fun hnew => ⟨hsettled, ?_⟩⟩
    exact agrees_post (inWindow_self x.today) hnodup h.agrees hnew

end Steps

/-! ### Runs -/

/-- A fresh state file. -/
def PageCounter.start (s : Spooler) : PageCounter := { world := World.start s }

theorem booked_start (s : Spooler) : Booked L (PageCounter.start s) := by
  constructor
  · refine ⟨rfl, List.Pairwise.nil, ?_, ?_, ?_, ?_, ?_, List.Pairwise.nil⟩
    · exact fun e he => absurd he List.not_mem_nil
    · intro last hlast
      cases hlast
    · intro q hq
      cases hq
    · intro q hq
      cases hq
    · exact fun j hj => absurd hj List.not_mem_nil
  · exact fun p => rfl

/-- **The counter has every job once, at all times of a run, iff no query reads a job again.** -/
theorem daily_counts_once_iff (s : Spooler) (steps : List DatedStep) :
    (dailyCollector L).Along (Fresh L) (PageCounter.start s) steps ↔
      ∀ k, EachJobOnce ((dailyCollector L).stateAfter (PageCounter.start s) (steps.take k)) := by
  refine Machine.along_iff_invariant_with (Q := fun c => EachJobOnce c → Booked L c) ?_
    (booked_start L s).eachJobOnce (fun _ => booked_start L s) steps
  intro c x honce hbooked
  obtain ⟨hiff, hnext⟩ := booked_step L (hbooked honce) x
  exact ⟨hiff, fun h => hnext (hiff.mpr h)⟩

/-- A sweep that finishes has its whole answer within the budget, and older than its stamp. -/
def Sealed (c : PageCounter) (x : DatedStep) : Prop :=
  ∀ q, c.world.phase = .queried q → x.step = .readEvents true →
    sweepBytes L (c.world.answer L) ≤ sweepBudgetBytes ∧ ∀ j ∈ c.world.answer L, j.ts.instant < q

/-- The emitted jobs are older than the watermark. -/
def Behind (c : PageCounter) : Prop :=
  ∀ j ∈ c.emitted, ∃ last ∈ c.world.state.lastSweepTs, j.ts.instant < last.instant

theorem capSweep_of_fits {jobs : List PrintJob} (h : sweepBytes L jobs ≤ sweepBudgetBytes)
    (sweepTs : Stamp) (lastTs : Option Stamp) :
    capSweep L jobs sweepTs lastTs = (jobs, sweepTs) := by
  have hsame : ∀ fuel, trimSweep L fuel jobs = jobs := by
    intro fuel
    cases fuel with
    | zero => rfl
    | succ fuel => exact if_neg fun hbig => absurd hbig.2 (not_lt.mpr h)
  simp only [capSweep, hsame, if_true]

/-- What is older than the watermark is not read. -/
theorem fresh_of_behind {c : PageCounter} (h : Behind c) (x : DatedStep) : Fresh L c x := by
  intro _ j hj hbefore
  obtain ⟨e, -, hreads, hparse⟩ := mem_answer L hj
  obtain ⟨-, hts, -⟩ := parseJob_spec L hparse
  obtain ⟨last, hlast, hlt⟩ := h j hbefore
  rw [PrintState.reads, Option.mem_def.mp hlast, decide_eq_true_eq] at hreads
  omega

theorem behind_next {c : PageCounter} (hsettled : Settled L c.world c.emitted) (h : Behind c)
    {x : DatedStep} (hsealed : Sealed L c x) : Behind ((dailyCollector L).next c x) := by
  cases hjobs : c.world.sweptJobs L x.step with
  | none =>
    have hstate : (c.world.step L x.step).state = c.world.state := by
      rcases unswept_cases L hjobs with ⟨queue, pages, details, hprint⟩ | hmoved
      · rw [hprint, World.print]
        split <;> rfl
      · exact hmoved.state
    rw [next_unswept L hjobs]
    intro j hj
    change ∃ last ∈ (c.world.step L x.step).state.lastSweepTs, _
    rw [hstate]
    exact h j hj
  | some jobs =>
    obtain ⟨q, hphase, hstep, rfl⟩ := sweptJobs_eq_some L hjobs
    obtain ⟨hfits, holder⟩ := hsealed q hphase hstep
    have hmark : (c.world.step L x.step).state.lastSweepTs = some (.powershell q) := by
      have hcap := capSweep_of_fits L hfits (.powershell q) c.world.state.lastSweepTs
      have hworld : c.world.step L x.step = c.world.collectEvents L q := by
        simp only [hstep, World.step, hphase, if_true]
      rw [hworld]
      exact congrArg (fun r => some (Prod.snd r)) hcap
    rw [next_swept L hjobs]
    intro j hj
    refine ⟨.powershell q, hmark, ?_⟩
    rw [PageCounter.emitted, arrived_append, List.mem_append] at hj
    rcases hj with hj | hj
    · obtain ⟨last, hlast, hlt⟩ := h j hj
      exact hlt.trans_le (hsettled.stampedLater q hphase last hlast)
    · exact holder j (capSweep_subset L _ _ _ hj)

/-- Sweeps that are not cut, and whose queries read nothing as late as their stamps, read no job
    again. -/
theorem fresh_of_sealed (s : Spooler) {steps : List DatedStep}
    (h : (dailyCollector L).Along (Sealed L) (PageCounter.start s) steps) :
    (dailyCollector L).Along (Fresh L) (PageCounter.start s) steps := by
  have hstep : ∀ c x, Settled L c.world c.emitted ∧ Behind c → Sealed L c x → Fresh L c x ∧
      (Settled L ((dailyCollector L).next c x).world ((dailyCollector L).next c x).emitted ∧
        Behind ((dailyCollector L).next c x)) :=
    fun c x hc hsealed => ⟨fresh_of_behind L hc.2 x, settled_next L hc.1 x,
      behind_next L hc.1 hc.2 hsealed⟩
  have hstart : Behind (PageCounter.start s) := fun j hj => absurd hj List.not_mem_nil
  exact h.imp_of_invariant hstep ⟨(booked_start L s).settled, hstart⟩

/-- A sweep between whose stamp and answer a job is printed, and the sweep after it. -/
def printedInQuery : List DatedStep :=
  [⟨.setLog true, 100, True.intro⟩, ⟨.begin true, 100, True.intro⟩,
    ⟨.detect .listed, 100, True.intro⟩, ⟨.stampQuery, 100, True.intro⟩,
    ⟨.wait 1, 100, True.intro⟩, ⟨.print "HP".toList 3 { jobId := some 7 }, 100, True.intro⟩,
    ⟨.wait 1, 100, True.intro⟩, ⟨.readEvents true, 100, True.intro⟩,
    ⟨.begin true, 100, True.intro⟩, ⟨.detect .listed, 100, True.intro⟩,
    ⟨.stampQuery, 100, True.intro⟩, ⟨.readEvents true, 100, True.intro⟩]

/-- Three pages are counted as six. -/
theorem pages_counted_again :
    ¬ ∀ k, EachJobOnce ((dailyCollector .ascii).stateAfter (PageCounter.start onePrinter)
      (printedInQuery.take k)) := by
  intro h
  have hlast := h 12
  revert hlast
  decide +kernel

/-- A job before the first sweep, and another one on the next day. -/
def printedBetween : List DatedStep :=
  [⟨.setLog true, 100, True.intro⟩, ⟨.print "HP".toList 3 { jobId := some 7 }, 100, True.intro⟩,
    ⟨.wait 1, 100, True.intro⟩, ⟨.begin true, 100, True.intro⟩,
    ⟨.detect .listed, 100, True.intro⟩, ⟨.stampQuery, 100, True.intro⟩,
    ⟨.readEvents true, 100, True.intro⟩, ⟨.wait 1, 101, True.intro⟩,
    ⟨.print "HP".toList 2 { jobId := some 8 }, 101, True.intro⟩, ⟨.wait 1, 101, True.intro⟩,
    ⟨.begin true, 101, True.intro⟩, ⟨.detect .listed, 101, True.intro⟩,
    ⟨.stampQuery, 101, True.intro⟩, ⟨.readEvents true, 101, True.intro⟩]

theorem pages_counted_once :
    ((dailyCollector .ascii).stateAfter (PageCounter.start onePrinter) printedBetween).daily =
        [(100, 3), (101, 2)] ∧
      ∀ k, EachJobOnce ((dailyCollector .ascii).stateAfter (PageCounter.start onePrinter)
        (printedBetween.take k)) :=
  ⟨by decide +kernel, (daily_counts_once_iff .ascii onePrinter printedBetween).mp
    (by decide +kernel)⟩

end Srp.Client
