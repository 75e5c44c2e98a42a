/-
  Srp/Client/PrintSwitch.lean
  ===========================
  **Pages counted across the change from counters to events.**

  Two accounts are kept of a run: what the next counter sweep may still emit on
  top of what was emitted (`counters`), and what the next event sweep may
  (`events`).  A counter sweep reads its counters after it has taken its stamp, and
  the next event sweep reads from the stamp on; a page printed in between with the
  log on is in both.  `counted_once` says that this is the only way to count a
  page twice, and `counted_twice` is a run that does.  A sweep always writes its
  state file here: a failed write, which the program passes over, is left out.
-/
import Mathlib.Algebra.BigOperators.Group.Finset.Basic
import Mathlib.Algebra.Order.BigOperators.Group.Finset
import Mathlib.Algebra.Order.BigOperators.Group.List
import Srp.Client.PrintJobs

namespace Srp.Client

open Srp.Lib Srp.Lib.Lines Srp.Lib.Table

variable (L : PrintLib)

/-! ### The account -/

/-- The pages of the distinct jobs: an event that two sweeps read is one job, which the server
    stores once. -/
def distinctPages (jobs : List PrintJob) : Nat := ∑ j ∈ jobs.toFinset, j.pages

def World.eventJobs (w : World) : List PrintJob :=
  w.emitted.filter fun j => decide (j.source = .events)

/-- The pages emitted as counter deltas. -/
def World.counterPages (w : World) : Nat :=
  ((w.emitted.filter fun j => decide (j.source = .counter)).map (·.pages)).sum

/-- The pages emitted are no more than the pages printed, since the first baselines. -/
def CountedOnce (w : World) : Prop :=
  ∀ n, w.printed = some n → w.counterPages + distinctPages w.eventJobs ≤ n

/-- No page is printed with the log on between the stamp of a counter sweep, its instant included,
    and the reading of the counters. -/
def Quiet (w : World) : PrintStep → Prop
  | .print _ _ _ => ¬ (w.logEnabled = true ∧ w.phase.switching = true)
  | .stamp => w.phase.stampsNext = true → ∀ e ∈ w.log, e.time < w.now
  | _ => True

instance Quiet.decidable (w : World) : ∀ step, Decidable (Quiet w step)
  | .print _ _ _ => inferInstanceAs (Decidable (¬ (_ ∧ _)))
  | .stamp => inferInstanceAs (Decidable (_ = true → ∀ e ∈ w.log, e.time < w.now))
  | .wait _ | .addQueue _ | .removeQueue _ | .restartSpooler | .setLog _ | .restartAgent
  | .begin _ | .detect _ | .enable _ | .readCounters _ | .stampQuery | .readEvents _ =>
    inferInstanceAs (Decidable True)

theorem distinctPages_append_mono (xs : List PrintJob) {ys zs : List PrintJob} (h : ys ⊆ zs) :
    distinctPages (xs ++ ys) ≤ distinctPages (xs ++ zs) := by
  apply Finset.sum_le_sum_of_subset
  intro j hj
  rw [List.mem_toFinset, List.mem_append] at hj ⊢
  exact hj.imp_right fun hj => h hj

theorem distinctPages_append_singleton (xs : List PrintJob) (j : PrintJob) :
    distinctPages (xs ++ [j]) ≤ distinctPages xs + j.pages := by
  unfold distinctPages
  rw [List.toFinset_append, List.toFinset_cons, List.toFinset_nil, insert_empty_eq]
  calc ∑ i ∈ xs.toFinset ∪ {j}, i.pages
      ≤ ∑ i ∈ xs.toFinset ∪ {j}, i.pages + ∑ i ∈ xs.toFinset ∩ {j}, i.pages := Nat.le_add_right _ _
    _ = ∑ i ∈ xs.toFinset, i.pages + ∑ i ∈ {j}, i.pages := Finset.sum_union_inter
    _ = ∑ i ∈ xs.toFinset, i.pages + j.pages := by rw [Finset.sum_singleton]

/-! ### What a counter sweep may still emit -/

/-- The pages of a queue that a sweep counting from these baselines emits. -/
def due (base : Baselines) (row : QueueRow) : Nat :=
  match countable L row with
  | none => 0
  | some (name, pages) =>
    match getBaseline base name with
    | none => 0
    | some b => delta b pages

/-- What a sweep that sees every queue would emit. -/
def World.pending (w : World) : Nat :=
  (w.queues.map fun q => due L w.state.countingFrom q.row).sum

@[simp] theorem delta_self (pages : Nat) : delta pages pages = 0 := by simp [delta]

@[simp] theorem delta_zero (base : Nat) : delta base 0 = 0 := by simp [delta]

theorem delta_add_le (base pages n : Nat) : delta base (pages + n) ≤ delta base pages + n := by
  unfold delta
  split <;> split <;> omega

@[simp] theorem due_nil (row : QueueRow) : due L [] row = 0 := by
  unfold due
  cases countable L row <;> rfl

theorem countable_row (q : PrintQueue) :
    countable L q.row = (countedName L q.name).map fun name => (name, q.pages) := by
  simp only [countable, PrintQueue.row]
  cases countedName L q.name <;> rfl

theorem due_row (base : Baselines) (q : PrintQueue) : due L base q.row =
    ((countedName L q.name).bind fun name => (getBaseline base name).map fun b =>
      delta b q.pages).getD 0 := by
  rw [due, countable_row]
  cases countedName L q.name with
  | none => rfl
  | some name =>
    simp only [Option.map_some, Option.bind_some]
    cases getBaseline base name <;> rfl

theorem due_add_le (base : Baselines) (q : PrintQueue) (queue : Text) (n : Nat) :
    due L base (q.add queue n).row ≤ due L base q.row + if q.name = queue then n else 0 := by
  unfold PrintQueue.add
  split
  · rw [due_row, due_row]
    cases hname : countedName L q.name with
    | none => simp
    | some name =>
      simp only [Option.bind_some]
      cases getBaseline base name with
      | none => simp
      | some b => exact delta_add_le b q.pages n
  · exact Nat.le_refl _

/-! ### What a counter sweep emits and remembers -/

theorem countRows_spec (base : Baselines) (sweepTs : Stamp) (rows : List QueueRow)
    (jobs : List PrintJob) (newBase : Baselines) :
    let result := countRows L base sweepTs rows (jobs, newBase)
    (result.1.map (·.pages)).sum = (jobs.map (·.pages)).sum + (rows.map (due L base)).sum ∧
      (∀ j ∈ result.1, j ∈ jobs ∨ j.source = .counter) ∧
      result.2 = upsertAll Prod.fst (fun _ new => new) (rows.filterMap (countable L)) newBase := by
  induction rows generalizing jobs newBase with
  | nil => exact ⟨by simp [countRows], fun j hj => Or.inl hj, rfl⟩
  | cons row rows ih =>
    simp only [countRows, List.map_cons, List.sum_cons]
    cases hcount : countable L row with
    | none =>
      obtain ⟨hpages, hsource, hbase⟩ := ih jobs newBase
      have hdue : due L base row = 0 := by rw [due, hcount]
      refine ⟨?_, hsource, ?_⟩
      · rw [hpages, hdue, zero_add]
      · rw [hbase, List.filterMap_cons_none hcount]
    | some counted =>
      obtain ⟨name, pages⟩ := counted
      simp only
      rw [List.filterMap_cons_some hcount, upsertAll_cons]
      cases hold : getBaseline base name with
      | none =>
        obtain ⟨hpages, hsource, hbase⟩ := ih jobs (setBaseline newBase name pages)
        have hdue : due L base row = 0 := by
          rw [due, hcount]
          simp only [hold]
        exact ⟨by rw [hpages, hdue, zero_add], hsource, hbase⟩
      | some b =>
        have hdue : due L base row = delta b pages := by
          rw [due, hcount]
          simp only [hold]
        simp only
        split
        · obtain ⟨hpages, hsource, hbase⟩ :=
            ih (jobs ++ [counterJob sweepTs name (delta b pages)]) (setBaseline newBase name pages)
          refine ⟨?_, ?_, hbase⟩
          · rw [hpages, hdue]
            simp [counterJob, add_assoc]
          · intro j hj
            rcases hsource j hj with h | h
            · rcases List.mem_append.mp h with h | h
              · exact Or.inl h
              · rw [List.mem_singleton] at h
                subst h
                exact Or.inr rfl
            · exact Or.inr h
        · rename_i hzero
          obtain ⟨hpages, hsource, hbase⟩ := ih jobs (setBaseline newBase name pages)
          exact ⟨by rw [hpages, hdue, Nat.eq_zero_of_not_pos hzero, zero_add], hsource, hbase⟩

/-- The queues have different names, as far as the agent reads them. -/
def DistinctNames (queues : List PrintQueue) : Prop :=
  (queues.map fun q => q.name.take maxNameLen).Nodup

theorem countedName_eq_some {name counted : Text} (h : countedName L name = some counted) :
    counted = name.take maxNameLen := by
  simp only [countedName] at h
  split at h
  · cases h
  · cases h
    rfl

theorem mem_seen {queues : List PrintQueue} {counted : Text × Nat} :
    counted ∈ (queues.map PrintQueue.row).filterMap (countable L) ↔
      ∃ q ∈ queues, countedName L q.name = some counted.1 ∧ q.pages = counted.2 := by
  rw [List.filterMap_map, List.mem_filterMap]
  constructor
  · rintro ⟨q, hq, hcount⟩
    rw [Function.comp_apply, countable_row, Option.map_eq_some_iff] at hcount
    obtain ⟨name, hname, rfl⟩ := hcount
    exact ⟨q, hq, hname, rfl⟩
  · rintro ⟨q, hq, hname, hpages⟩
    refine ⟨q, hq, ?_⟩
    rw [Function.comp_apply, countable_row, hname, hpages]
    rfl

theorem names_seen_sublist (queues : List PrintQueue) :
    (((queues.map PrintQueue.row).filterMap (countable L)).map Prod.fst).Sublist
      (queues.map fun q => q.name.take maxNameLen) := by
  induction queues with
  | nil => exact List.Sublist.refl _
  | cons q queues ih =>
    simp only [List.map_cons]
    cases hname : countedName L q.name with
    | none =>
      rw [List.filterMap_cons_none (by rw [countable_row, hname]; rfl)]
      exact ih.cons _
    | some name =>
      rw [List.filterMap_cons_some (by rw [countable_row, hname]; rfl), List.map_cons,
        countedName_eq_some L hname]
      exact ih.cons_cons _

theorem nodup_countable {queues : List PrintQueue} (h : DistinctNames queues) :
    (((queues.map PrintQueue.row).filterMap (countable L)).map Prod.fst).Nodup :=
  h.sublist (names_seen_sublist L queues)

theorem keptBaselines_sublist (base newBase : Baselines) :
    (keptBaselines base newBase).Sublist base :=
  (List.drop_sublist _ _).trans List.filter_sublist

theorem nodup_baselines {base : Baselines} (hbase : (base.map Prod.fst).Nodup)
    {seen : Baselines} (hseen : (seen.map Prod.fst).Nodup) :
    ((keptBaselines base seen ++ seen).map Prod.fst).Nodup := by
  rw [List.map_append, List.nodup_append]
  refine ⟨hbase.sublist ((keptBaselines_sublist base seen).map _), hseen, ?_⟩
  rintro a ha b hb rfl
  obtain ⟨entry, hentry, rfl⟩ := List.mem_map.mp ha
  exact of_decide_eq_true (List.mem_filter.mp (List.mem_of_mem_drop hentry)).2 hb

theorem getBaseline_of_mem {base : Baselines} (hbase : (base.map Prod.fst).Nodup) {name : Text}
    {pages : Nat} (h : (name, pages) ∈ base) : getBaseline base name = some pages := by
  have hrow : row Prod.fst base name = some (name, pages) := row_of_mem hbase h
  rw [getBaseline, hrow]
  rfl

theorem mem_of_getBaseline {base : Baselines} {name : Text} {pages : Nat}
    (h : getBaseline base name = some pages) : (name, pages) ∈ base := by
  obtain ⟨⟨name', pages'⟩, hrow, rfl⟩ := Option.map_eq_some_iff.mp h
  obtain ⟨hmem, rfl⟩ := row_eq_some hrow
  exact hmem

/-- What a sweep leaves to be counted of a queue, and what it emits for it, is what was to be
    counted. -/
theorem due_after {base : Baselines} (hbase : (base.map Prod.fst).Nodup)
    {queues : List PrintQueue} (h : DistinctNames queues) (readable : Text → Bool)
    {q : PrintQueue} (hq : q ∈ queues) :
    let seen := ((queues.filter fun q => readable q.name).map PrintQueue.row).filterMap (countable L)
    due L (keptBaselines base seen ++ seen) q.row +
      (if readable q.name then due L base q.row else 0) ≤ due L base q.row := by
  intro seen
  have hread : DistinctNames (queues.filter fun q => readable q.name) :=
    h.sublist (List.filter_sublist.map _)
  have hnodup := nodup_baselines hbase (nodup_countable L hread)
  rw [due_row, due_row]
  cases hname : countedName L q.name with
  | none => simp
  | some name =>
    simp only [Option.bind_some]
    by_cases hread : readable q.name
    · rw [if_pos hread]
      have hmem : (name, q.pages) ∈ keptBaselines base seen ++ seen := by
        apply List.mem_append_right
        rw [mem_seen]
        exact ⟨q, List.mem_filter.mpr ⟨hq, hread⟩, hname, rfl⟩
      rw [getBaseline_of_mem hnodup hmem]
      simp
    · rw [if_neg hread, Nat.add_zero]
      cases hget : getBaseline (keptBaselines base seen ++ seen) name with
      | none => exact Nat.zero_le _
      | some b =>
        rcases List.mem_append.mp (mem_of_getBaseline hget) with hkept | hseen
        · rw [getBaseline_of_mem hbase ((keptBaselines_sublist base seen).subset hkept)]
        · -- no other queue is counted under this name
          obtain ⟨q', hq', hname', -⟩ := (mem_seen L).mp hseen
          obtain ⟨hmem, hread'⟩ := List.mem_filter.mp hq'
          have hsame : q' = q := by
            apply List.inj_on_of_nodup_map h hmem hq
            rw [← countedName_eq_some L hname', ← countedName_eq_some L hname]
          subst hsame
          exact absurd hread' hread

/-- The baselines after a sweep over `queues`. -/
theorem counterJobs_spec (base : Baselines) (sweepTs : Stamp) {queues : List PrintQueue}
    (h : DistinctNames queues) :
    let seen := (queues.map PrintQueue.row).filterMap (countable L)
    let result := counterJobs L (queues.map PrintQueue.row) base sweepTs
    (result.1.map (·.pages)).sum = (queues.map fun q => due L base q.row).sum ∧
      (∀ j ∈ result.1, j.source = .counter) ∧
      result.2 = keptBaselines base seen ++ seen := by
  intro seen result
  obtain ⟨hpages, hsource, hbase⟩ :=
    countRows_spec L base sweepTs (queues.map PrintQueue.row) [] []
  have hseen : (countRows L base sweepTs (queues.map PrintQueue.row) ([], [])).2 = seen := by
    rw [hbase, upsertAll_of_fresh (by simpa using nodup_countable L h), List.nil_append]
  refine ⟨?_, ?_, ?_⟩
  · change ((countRows L base sweepTs (queues.map PrintQueue.row) ([], [])).1.map _).sum = _
    rw [hpages, List.map_map]
    simp [Function.comp_def]
  · intro j hj
    exact (hsource j hj).resolve_left List.not_mem_nil
  · change keptBaselines base (countRows L base sweepTs (queues.map PrintQueue.row) ([], [])).2 ++
      (countRows L base sweepTs (queues.map PrintQueue.row) ([], [])).2 = _
    rw [hseen]

/-! ### What an event sweep reads -/

/-- The jobs that an event sweep may still read. -/
def World.readable (w : World) : List PrintJob :=
  (w.log.filter w.state.reads).filterMap (parseJob L)

theorem entries_jobs_subset (w : World) :
    (w.entries L).filterMap (parseJob L) ⊆ w.readable L := by
  intro j hj
  obtain ⟨e, he, hparse⟩ := List.mem_filterMap.mp hj
  have hmem := List.mem_of_mem_take (List.mem_of_mem_filter he)
  rw [List.mem_filter, List.mem_reverse] at hmem
  exact List.mem_filterMap.mpr ⟨e, List.mem_filter.mpr hmem, hparse⟩

theorem mem_readable {w : World} {j : PrintJob} (h : j ∈ w.readable L) :
    j.source = .events ∧ ∃ e ∈ w.log, e.time = j.ts.instant ∧
      ∀ last, w.state.lastSweepTs = some last → last.instant ≤ e.time := by
  obtain ⟨e, he, hparse⟩ := List.mem_filterMap.mp h
  obtain ⟨hmem, hreads⟩ := List.mem_filter.mp he
  obtain ⟨hsource, hts, -⟩ := parseJob_spec L hparse
  refine ⟨hsource, e, hmem, hts.symm, ?_⟩
  intro last hlast
  simpa [PrintState.reads, hlast] using hreads

/-! ### The invariant -/

/-- What a sweep under way has made sure of. -/
def PhaseOk (w : World) : Prop :=
  match w.phase with
  | .stamped _ sweepTs => sweepTs ≤ w.now ∧ ∀ e ∈ w.log, e.time < sweepTs
  | .reading sweepTs => sweepTs ≤ w.now ∧ ∀ e ∈ w.log, e.time < sweepTs
  | .queried queriedAt => queriedAt ≤ w.now ∧
      ∀ last, w.state.lastSweepTs = some last → last.instant ≤ queriedAt
  | _ => True

structure Accounted (w : World) : Prop where
  names : DistinctNames w.queues
  baselineNames : (w.state.baselines.map Prod.fst).Nodup
  logTimes : ∀ e ∈ w.log, e.time ≤ w.now
  stampTimes : ∀ last, w.state.lastSweepTs = some last → last.instant ≤ w.now
  phase : PhaseOk w
  fresh : w.printed = none → w.emitted = [] ∧ w.state.countingFrom = []
  counters : ∀ n, w.printed = some n →
    w.counterPages + w.pending L + distinctPages w.eventJobs ≤ n
  events : ∀ n, w.printed = some n →
    w.counterPages + distinctPages (w.eventJobs ++ w.readable L) ≤ n

theorem countedOnce_of_accounted {w : World} (h : Accounted L w) : CountedOnce w := by
  intro n hn
  have hcounters := h.counters n hn
  omega

/-- A step of the sweep that only moves it on. -/
theorem accounted_of_moved {w w' : World} (h : Accounted L w) (hqueues : w'.queues = w.queues)
    (hlog : w'.log = w.log) (hstate : w'.state = w.state) (hprinted : w'.printed = w.printed)
    (hemitted : w'.emitted = w.emitted) (hnow : w.now ≤ w'.now) (hphase : PhaseOk w') :
    Accounted L w' := by
  have hcounter : w'.counterPages = w.counterPages := by simp only [World.counterPages, hemitted]
  have hevents : w'.eventJobs = w.eventJobs := by simp only [World.eventJobs, hemitted]
  have hpending : w'.pending L = w.pending L := by simp only [World.pending, hqueues, hstate]
  have hreadable : w'.readable L = w.readable L := by simp only [World.readable, hlog, hstate]
  constructor
  · rw [hqueues]
    exact h.names
  · rw [hstate]
    exact h.baselineNames
  · intro e he
    rw [hlog] at he
    exact (h.logTimes e he).trans hnow
  · intro last hlast
    rw [hstate] at hlast
    exact (h.stampTimes last hlast).trans hnow
  · exact hphase
  · rw [hprinted, hemitted, hstate]
    exact h.fresh
  · rw [hprinted, hcounter, hpending, hevents]
    exact h.counters
  · rw [hprinted, hcounter, hevents, hreadable]
    exact h.events

/-- Queues whose counts are not higher than before, as far as the next sweep can tell. -/
theorem accounted_of_queues {w : World} (h : Accounted L w) {queues : List PrintQueue}
    (hnames : DistinctNames queues)
    (hpending : (queues.map fun q => due L w.state.countingFrom q.row).sum ≤ w.pending L) :
    Accounted L { w with queues := queues } := by
  refine ⟨hnames, h.baselineNames, h.logTimes, h.stampTimes, h.phase, h.fresh, ?_, h.events⟩
  intro n hn
  have hcounters := h.counters n hn
  have hpending' : World.pending L { w with queues := queues } ≤ w.pending L := hpending
  change w.counterPages + World.pending L { w with queues := queues } +
    distinctPages w.eventJobs ≤ n
  omega

theorem sum_add_queue {queues : List PrintQueue} (h : DistinctNames queues) (base : Baselines)
    (queue : Text) (n : Nat) :
    ((queues.map (PrintQueue.add queue n)).map fun q => due L base q.row).sum ≤
      (queues.map fun q => due L base q.row).sum + n := by
  induction queues with
  | nil => exact Nat.zero_le _
  | cons q queues ih =>
    obtain ⟨hq, hrest⟩ := List.nodup_cons.mp h
    simp only [List.map_cons, List.sum_cons]
    by_cases hname : q.name = queue
    · have hsame : queues.map (PrintQueue.add queue n) = queues := by
        refine (List.map_congr_left ?_).trans (List.map_id queues)
        intro r hr
        refine if_neg fun hr' => hq (List.mem_map.mpr ⟨r, hr, ?_⟩)
        exact congrArg (List.take maxNameLen) (hr'.trans hname.symm)
      have hle := due_add_le L base q queue n
      rw [if_pos hname] at hle
      rw [hsame]
      omega
    · have hle := due_add_le L base q queue n
      rw [if_neg hname] at hle
      have hih := ih hrest
      omega

theorem distinctNames_add {queues : List PrintQueue} (h : DistinctNames queues) (queue : Text)
    (n : Nat) : DistinctNames (queues.map (PrintQueue.add queue n)) := by
  unfold DistinctNames at h ⊢
  rw [List.map_map]
  have hnames : ((fun q : PrintQueue => q.name.take maxNameLen) ∘ PrintQueue.add queue n) =
      fun q => q.name.take maxNameLen := by
    funext q
    simp only [Function.comp_apply, PrintQueue.add]
    split <;> rfl
  rw [hnames]
  exact h

theorem distinctPages_logged (xs : List PrintJob) (state : PrintState) (log : List PrintEvent)
    (e : PrintEvent) :
    distinctPages (xs ++ ((log ++ [e]).filter state.reads).filterMap (parseJob L)) ≤
      distinctPages (xs ++ (log.filter state.reads).filterMap (parseJob L)) + e.pages := by
  rw [List.filter_append, List.filterMap_append, ← List.append_assoc]
  by_cases hreads : state.reads e = true
  · rw [List.filter_cons_of_pos hreads, List.filter_nil]
    cases hparse : parseJob L e with
    | none =>
      rw [List.filterMap_cons_none hparse, List.filterMap_nil, List.append_nil]
      exact Nat.le_add_right _ _
    | some j =>
      rw [List.filterMap_cons_some hparse, List.filterMap_nil, ← (parseJob_spec L hparse).2.2]
      exact distinctPages_append_singleton _ j
  · rw [List.filter_cons_of_neg hreads, List.filter_nil, List.filterMap_nil, List.append_nil]
    exact Nat.le_add_right _ _

/-- A printed job raises each account by no more than its pages. -/
theorem accounted_print {w : World} (h : Accounted L w) (queue : Text) (pages : Nat)
    (details : JobDetails) (hquiet : Quiet w (.print queue pages details)) :
    Accounted L (w.print queue pages details) := by
  unfold World.print
  split
  · refine ⟨distinctNames_add h.names queue pages, h.baselineNames, ?_, h.stampTimes, ?_, ?_, ?_, ?_⟩
    · intro e he
      simp only at he
      split at he
      · rcases List.mem_append.mp he with he | he
        · exact h.logTimes e he
        · rw [List.mem_singleton] at he
          subst he
          exact Nat.le_refl _
      · exact h.logTimes e he
    · have hphase := h.phase
      simp only [Quiet] at hquiet
      simp only [PhaseOk] at hphase ⊢
      split
      · -- with the log on, nothing is printed in this phase
        rename_i heq
        rw [heq] at hquiet hphase
        rw [if_neg fun hlog => hquiet ⟨hlog, rfl⟩]
        exact hphase
      · rename_i heq
        rw [heq] at hquiet hphase
        rw [if_neg fun hlog => hquiet ⟨hlog, rfl⟩]
        exact hphase
      · rename_i heq
        rw [heq] at hphase
        exact hphase
      · exact True.intro
    · intro hnone
      exact h.fresh (Option.map_eq_none_iff.mp hnone)
    · intro n hn
      obtain ⟨m, hm, rfl⟩ := Option.map_eq_some_iff.mp hn
      have hold := h.counters m hm
      have hpending := sum_add_queue L h.names w.state.countingFrom queue pages
      simp only [World.pending, World.counterPages, World.eventJobs] at hold ⊢
      omega
    · intro n hn
      obtain ⟨m, hm, rfl⟩ := Option.map_eq_some_iff.mp hn
      have hold := h.events m hm
      simp only [World.readable, World.counterPages, World.eventJobs] at hold ⊢
      split
      · refine le_trans (Nat.add_le_add_left (distinctPages_logged L _ _ _ _) _) ?_
        simp only
        omega
      · omega
  · exact h

/-! ### The two readings -/

theorem sum_map_filter {α : Type} (p : α → Bool) (f : α → Nat) (xs : List α) :
    ((xs.filter p).map f).sum = (xs.map fun x => if p x then f x else 0).sum := by
  induction xs with
  | nil => rfl
  | cons x xs ih =>
    by_cases hx : p x
    · simp [hx, ih]
    · simp [hx, ih]

theorem accounted_collectCounter {w : World} (h : Accounted L w) {sweepTs : Nat}
    (hphase : w.phase = .reading sweepTs) (readable : Text → Bool) :
    Accounted L (w.collectCounter L sweepTs readable) := by
  obtain ⟨hts, hlog⟩ : sweepTs ≤ w.now ∧ ∀ e ∈ w.log, e.time < sweepTs := by
    have hok := h.phase
    unfold PhaseOk at hok
    rwa [hphase] at hok
  have hbase : (w.state.countingFrom.map Prod.fst).Nodup := by
    unfold PrintState.countingFrom
    split
    · exact h.baselineNames
    · exact List.nodup_nil
  have hread : DistinctNames (w.queues.filter fun q => readable q.name) :=
    h.names.sublist (List.filter_sublist.map _)
  obtain ⟨hpages, hsource, hnew⟩ := counterJobs_spec L w.state.countingFrom (.agent sweepTs) hread
  have hsum : ((w.collectCounter L sweepTs readable).pending L) +
      ((w.queues.filter fun q => readable q.name).map
        fun q => due L w.state.countingFrom q.row).sum ≤ w.pending L := by
    have hafter : (w.collectCounter L sweepTs readable).pending L =
        (w.queues.map fun q => due L (counterJobs L (w.rows readable) w.state.countingFrom
          (.agent sweepTs)).2 q.row).sum := rfl
    rw [hafter, World.rows, hnew, sum_map_filter, ← List.sum_map_add]
    exact List.sum_le_sum fun q hq => due_after L hbase h.names readable hq
  have hcounter : (w.collectCounter L sweepTs readable).counterPages = w.counterPages +
      ((w.queues.filter fun q => readable q.name).map
        fun q => due L w.state.countingFrom q.row).sum := by
    rw [← hpages]
    simp only [World.counterPages, World.collectCounter, World.rows, List.filter_append,
      List.map_append, List.sum_append]
    rw [List.filter_eq_self.mpr fun j hj => decide_eq_true (hsource j hj)]
  have hevents : (w.collectCounter L sweepTs readable).eventJobs = w.eventJobs := by
    have hnone : (counterJobs L (w.rows readable) w.state.countingFrom (.agent sweepTs)).1.filter
        (fun j => decide (j.source = .events)) = [] := by
      rw [List.filter_eq_nil_iff]
      intro j hj
      simp [hsource j hj]
    change (w.emitted ++ (counterJobs L (w.rows readable) w.state.countingFrom
      (.agent sweepTs)).1).filter _ = _
    rw [List.filter_append, hnone, List.append_nil, World.eventJobs]
  have hreadable : (w.collectCounter L sweepTs readable).readable L = [] := by
    rw [World.readable, List.filter_eq_nil_iff.mpr, List.filterMap_nil]
    intro e he
    exact ne_true_of_eq_false (decide_eq_false (Nat.not_le.mpr (hlog e he)))
  -- before the first sweep there is nothing to count from and nothing counted
  have hpaid : ∀ n, (w.collectCounter L sweepTs readable).printed = some n →
      w.counterPages + w.pending L + distinctPages w.eventJobs ≤ n := by
    intro n hn
    cases hprinted : w.printed with
    | some m =>
      have hm : m = n := by simpa [World.collectCounter, hprinted] using hn
      exact hm ▸ h.counters m hprinted
    | none =>
      obtain ⟨hnone, hfrom⟩ := h.fresh hprinted
      simp [World.counterPages, World.eventJobs, World.pending, hnone, hfrom, distinctPages]
  refine ⟨h.names, ?_, h.logTimes, ?_, True.intro, ?_, ?_, ?_⟩
  · change ((counterJobs L (w.rows readable) w.state.countingFrom (.agent sweepTs)).2.map _).Nodup
    rw [World.rows, hnew]
    exact nodup_baselines hbase (nodup_countable L hread)
  · intro last hlast
    cases hlast
    exact hts
  · intro hnone
    cases hnone
  · intro n hn
    have hle := hpaid n hn
    rw [hcounter, hevents]
    omega
  · intro n hn
    have hle := hpaid n hn
    rw [hcounter, hevents, hreadable, List.append_nil]
    omega

theorem accounted_collectEvents {w : World} (h : Accounted L w) {queriedAt : Nat}
    (hphase : w.phase = .queried queriedAt) : Accounted L (w.collectEvents L queriedAt) := by
  obtain ⟨hat, hlast⟩ : queriedAt ≤ w.now ∧
      ∀ last, w.state.lastSweepTs = some last → last.instant ≤ queriedAt := by
    have hok := h.phase
    unfold PhaseOk at hok
    rwa [hphase] at hok
  obtain ⟨sweep, hsweep⟩ : ∃ sweep, sweep = capSweep L ((w.entries L).filterMap (parseJob L))
    (.powershell queriedAt) w.state.lastSweepTs := ⟨_, rfl⟩
  have hjobs : sweep.1 ⊆ w.readable L := by
    rw [hsweep]
    exact List.Subset.trans (capSweep_subset L _ _ _) (entries_jobs_subset L w)
  -- the mark only moves forward, to a moment that has passed
  have hmark : sweep.2.instant ≤ w.now ∧
      ∀ last, w.state.lastSweepTs = some last → last.instant ≤ sweep.2.instant := by
    rcases capSweep_instant L ((w.entries L).filterMap (parseJob L)) (.powershell queriedAt)
      w.state.lastSweepTs with hts | ⟨j, hj, hts⟩
    · rw [← hsweep] at hts
      rw [hts]
      exact ⟨hat, hlast⟩
    · rw [← hsweep] at hts
      obtain ⟨-, e, he, htime, hreads⟩ := mem_readable L (entries_jobs_subset L w hj)
      rw [hts, ← htime]
      exact ⟨h.logTimes e he, hreads⟩
  have hsource : ∀ j ∈ sweep.1, j.source = .events := fun j hj => (mem_readable L (hjobs hj)).1
  have hreadable : (w.collectEvents L queriedAt).readable L ⊆ w.readable L := by
    intro j hj
    obtain ⟨e, he, hparse⟩ := List.mem_filterMap.mp hj
    obtain ⟨hmem, hreads⟩ := List.mem_filter.mp he
    refine List.mem_filterMap.mpr ⟨e, List.mem_filter.mpr ⟨hmem, ?_⟩, hparse⟩
    have hnew : sweep.2.instant ≤ e.time := by
      rw [hsweep]
      simpa [World.collectEvents, PrintState.reads] using hreads
    unfold PrintState.reads
    cases hold : w.state.lastSweepTs with
    | none => rfl
    | some last => exact decide_eq_true ((hmark.2 last hold).trans hnew)
  have hemitted : ∀ n, w.printed = some n →
      (w.collectEvents L queriedAt).counterPages = w.counterPages ∧
        (w.collectEvents L queriedAt).eventJobs = w.eventJobs ++ sweep.1 := by
    intro n hn
    have hlist : (w.collectEvents L queriedAt).emitted = w.emitted ++ sweep.1 := by
      rw [hsweep]
      exact if_neg (by rw [hn]; exact Option.some_ne_none n)
    constructor
    · rw [World.counterPages, hlist, List.filter_append, List.filter_eq_nil_iff (l := sweep.1) |>.mpr]
      · rw [List.append_nil, World.counterPages]
      · intro j hj
        simp [hsource j hj]
    · rw [World.eventJobs, hlist, List.filter_append, List.filter_eq_self (l := sweep.1) |>.mpr]
      · rw [World.eventJobs]
      · intro j hj
        simp [hsource j hj]
  have hpending : (w.collectEvents L queriedAt).pending L = 0 := by
    refine List.sum_eq_zero ?_
    intro x hx
    obtain ⟨q, -, rfl⟩ := List.mem_map.mp hx
    exact due_nil L q.row
  refine ⟨h.names, h.baselineNames, h.logTimes, ?_, True.intro, ?_, ?_, ?_⟩
  · intro last hlast'
    cases hlast'
    rw [hsweep] at hmark
    exact hmark.1
  · intro hnone
    exact ⟨if_pos hnone, rfl⟩
  · intro n hn
    obtain ⟨hcounter, hevents⟩ := hemitted n hn
    rw [hcounter, hevents, hpending, Nat.add_zero]
    exact le_trans (Nat.add_le_add_left (distinctPages_append_mono _ hjobs) _) (h.events n hn)
  · intro n hn
    obtain ⟨hcounter, hevents⟩ := hemitted n hn
    rw [hcounter, hevents, List.append_assoc]
    have hboth : sweep.1 ++ (w.collectEvents L queriedAt).readable L ⊆ w.readable L :=
      List.append_subset.mpr ⟨hjobs, hreadable⟩
    exact le_trans (Nat.add_le_add_left (distinctPages_append_mono _ hboth) _) (h.events n hn)

/-! ### Runs -/

theorem due_new (base : Baselines) (name : Text) : due L base (PrintQueue.row ⟨name, 0⟩) = 0 := by
  rw [due_row]
  cases countedName L name with
  | none => rfl
  | some name' =>
    simp only [Option.bind_some]
    cases getBaseline base name' <;> simp

theorem distinctNames_append {queues : List PrintQueue} (h : DistinctNames queues) {name : Text}
    (hfree : freeName queues name = true) : DistinctNames (queues ++ [⟨name, 0⟩]) := by
  unfold DistinctNames at h ⊢
  rw [List.map_append, List.nodup_append]
  refine ⟨h, List.nodup_singleton _, ?_⟩
  rintro a ha b hb rfl
  rw [List.map_singleton, List.mem_singleton] at hb
  subst hb
  exact of_decide_eq_true hfree ha

theorem accounted_step {w : World} (h : Accounted L w) (step : PrintStep) (hquiet : Quiet w step) :
    Accounted L (w.step L step) := by
  have hphase := h.phase
  cases step with
  | wait ticks =>
    refine accounted_of_moved L h rfl rfl rfl rfl rfl (Nat.le_add_right _ _) ?_
    simp only [World.step, PhaseOk] at hphase ⊢
    split
    · rename_i heq
      rw [heq] at hphase
      exact ⟨hphase.1.trans (Nat.le_add_right _ _), hphase.2⟩
    · rename_i heq
      rw [heq] at hphase
      exact ⟨hphase.1.trans (Nat.le_add_right _ _), hphase.2⟩
    · rename_i heq
      rw [heq] at hphase
      exact ⟨hphase.1.trans (Nat.le_add_right _ _), hphase.2⟩
    · exact True.intro
  | print queue pages details => exact accounted_print L h queue pages details hquiet
  | addQueue name =>
    simp only [World.step]
    split
    · rename_i hfree
      apply accounted_of_queues L h (distinctNames_append h.names hfree)
      rw [List.map_append, List.sum_append, List.map_singleton, List.sum_singleton, due_new,
        Nat.add_zero, World.pending]
    · exact h
  | removeQueue name =>
    apply accounted_of_queues L h (h.names.sublist (List.filter_sublist.map _))
    exact List.Sublist.sum_le_sum (List.filter_sublist.map _) fun _ _ => Nat.zero_le _
  | restartSpooler =>
    apply accounted_of_queues L h
    · have hnames := h.names
      unfold DistinctNames at hnames ⊢
      rwa [List.map_map]
    · rw [List.map_map]
      refine le_trans (Nat.le_of_eq (List.sum_eq_zero ?_)) (Nat.zero_le _)
      intro x hx
      obtain ⟨q, -, rfl⟩ := List.mem_map.mp hx
      exact due_new L _ q.name
  | setLog enabled => exact accounted_of_moved L h rfl rfl rfl rfl rfl (Nat.le_refl _) hphase
  | restartAgent => exact accounted_of_moved L h rfl rfl rfl rfl rfl (Nat.le_refl _) True.intro
  | «begin» autoenable =>
    simp only [World.step]
    split
    · exact accounted_of_moved L h rfl rfl rfl rfl rfl (Nat.le_refl _) True.intro
    · exact h
  | detect answer =>
    simp only [World.step]
    split
    · split
      · exact accounted_of_moved L h rfl rfl rfl rfl rfl (Nat.le_refl _) True.intro
      · exact accounted_of_moved L h rfl rfl rfl rfl rfl (Nat.le_refl _) True.intro
    · exact h
  | stamp =>
    simp only [World.step]
    split
    · rename_i heq
      exact accounted_of_moved L h rfl rfl rfl rfl rfl (Nat.le_refl _)
        ⟨Nat.le_refl _, hquiet (by rw [heq]; rfl)⟩
    · exact h
  | enable succeeds =>
    simp only [World.step]
    split
    · rename_i heq
      simp only [PhaseOk, heq] at hphase
      split
      · exact accounted_of_moved L h rfl rfl rfl rfl rfl (Nat.le_refl _) hphase
      · exact accounted_of_moved L h rfl rfl rfl rfl rfl (Nat.le_refl _) hphase
    · exact h
  | readCounters answer =>
    simp only [World.step]
    split
    · exact accounted_of_moved L h rfl rfl rfl rfl rfl (Nat.le_refl _) True.intro
    · rename_i heq
      exact accounted_collectCounter L h heq _
    · exact h
  | stampQuery =>
    simp only [World.step]
    split
    · exact accounted_of_moved L h rfl rfl rfl rfl rfl (Nat.le_refl _)
        ⟨Nat.le_refl _, h.stampTimes⟩
    · exact h
  | readEvents works =>
    simp only [World.step]
    split
    · rename_i heq
      split
      · exact accounted_collectEvents L h heq
      · exact accounted_of_moved L h rfl rfl rfl rfl rfl (Nat.le_refl _) True.intro
    · exact h

/-- A spooler, whose queues have different names. -/
structure Spooler where
  queues : List PrintQueue
  distinct : DistinctNames queues

/-- A fresh agent, with the log off. -/
def World.start (s : Spooler) : World := { queues := s.queues }

theorem accounted_start (s : Spooler) : Accounted L (World.start s) := by
  refine ⟨s.distinct, List.nodup_nil, ?_, ?_, True.intro, fun _ => ⟨rfl, rfl⟩, ?_, ?_⟩
  · intro e he
    cases he
  · intro last hlast
    cases hlast
  · intro n hn
    cases hn
  · intro n hn
    cases hn

/-- In a run in which nothing is printed with the log on between a counter sweep's stamp and its
    reading of the counters, the pages emitted as deltas and as events are never more than the
    pages printed since the first baselines. -/
theorem counted_once (s : Spooler) (steps : List PrintStep)
    (h : (collector L).Along Quiet (World.start s) steps) :
    CountedOnce ((collector L).stateAfter (World.start s) steps) := by
  have hstep : ∀ w step, Accounted L w → Quiet w step → Accounted L ((collector L).next w step) :=
    fun _ step hw hquiet => accounted_step L hw step hquiet
  exact countedOnce_of_accounted L
    (Machine.stateAfter_invariant_along hstep (accounted_start L s) h)

/-- Python's and .NET's functions on ASCII text, with the number of ticks as the text of a
    stamp. -/
def PrintLib.ascii : PrintLib where
  lower := List.map Char.toLower
  psLower := List.map Char.toLower
  stampText s := Nat.toDigits 10 s.instant

/-- A counter sweep under which the log is, or is not, enabled. -/
def counterSweep (enables : Bool) : List PrintStep :=
  [.begin true, .detect .listed, .stamp, .enable enables]

def eventSweep : List PrintStep := [.begin true, .detect .listed, .stampQuery, .readEvents true]

def readAll : PrintStep := .readCounters (.seen fun _ => true)

def onePrinter : Spooler where
  queues := [⟨"HP".toList, 100⟩]
  distinct := List.nodup_singleton _

/-- A baseline, and after a restart of the agent a sweep that enables the log; the job is printed
    before or after its counters are read. -/
def switchRun (job : List PrintStep) : List PrintStep :=
  counterSweep false ++ [readAll, .restartAgent] ++ counterSweep true ++ job ++ eventSweep

/-- Five pages are printed between the attempt to enable the log and the reading of the counters,
    and emitted twice. -/
theorem counted_twice :
    ¬ CountedOnce ((collector .ascii).stateAfter (World.start onePrinter)
      (switchRun [.print "HP".toList 5 {}, readAll])) := by
  intro h
  have hprinted : ((collector .ascii).stateAfter (World.start onePrinter)
      (switchRun [.print "HP".toList 5 {}, readAll])).printed = some 5 := by decide +kernel
  have hle := h 5 hprinted
  revert hle
  decide +kernel

theorem counted_once_later :
    CountedOnce ((collector .ascii).stateAfter (World.start onePrinter)
      (switchRun [readAll, .print "HP".toList 5 {}])) :=
  counted_once .ascii onePrinter _ (by decide +kernel)

end Srp.Client
