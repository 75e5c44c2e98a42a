/-
  Srp/Client/CounterConservation.lean
  ===================================
  **Pages of the counter mode** (`_counter_jobs` and `_collect_via_counter` of
  `client/collectors/print_jobs.py`), queue by queue.

  A run is any sequence of printed pages, resets of a counter and counter sweeps; a
  sweep reads some of the queues, in any order.  Beside its counter a queue carries
  what the sweeps ought to know of it: the pages counted since it was last read or
  reset, and those that the sweeps have read since its first baseline.  These fields
  are no part of the program.  A sweep that returns has written its state file: a
  failed write, which the program passes over, is left out.
-/
import Srp.Client.PrintSwitch

namespace Srp.Client

open Srp.Lib Srp.Lib.Lines Srp.Lib.Table

variable (L : PrintLib)

/-! ### The spooler and the sweeps -/

structure SpoolQueue where
  name : Text
  /-- `TotalPagesPrinted` -/
  pages : Nat
  /-- counted since the queue was last read or its counter last reset -/
  fresh : Nat := 0
  /-- reset since the queue was last read -/
  wasReset : Bool := false
  /-- read by the sweeps since the first baseline -/
  counted : Option Nat := none
deriving DecidableEq, Repr

structure SpoolWorld where
  queues : List SpoolQueue
  state : PrintState
  emitted : List PrintJob := []
deriving DecidableEq, Repr

/-- A sweep names the queues in the order of the answer, each with whether its count could be
    read. -/
inductive SpoolStep where
  | print (queue : Text) (pages : Nat)
  | reset (queue : Text)
  | sweep (sweepTs : Nat) (seen : List (Text × Bool))
  | failedSweep

def SpoolQueue.print (queue : Text) (pages : Nat) (q : SpoolQueue) : SpoolQueue :=
  if q.name = queue then { q with pages := q.pages + pages, fresh := q.fresh + pages } else q

/-- The spooler restarts, or the queue is made anew: its counter starts from zero. -/
def SpoolQueue.reset (queue : Text) (q : SpoolQueue) : SpoolQueue :=
  if q.name = queue then { q with pages := 0, fresh := 0, wasReset := true } else q

def SpoolQueue.read (seen : List (Text × Bool)) (q : SpoolQueue) : SpoolQueue :=
  if (q.name, true) ∈ seen then
    { q with fresh := 0, wasReset := false,
             counted := some (match q.counted with
               | none => 0
               | some n => n + q.fresh) }
  else q

/-- The row of a queue in the answer. -/
def SpoolWorld.rowOf (w : SpoolWorld) (s : Text × Bool) : Option QueueRow :=
  (w.queues.find? fun q => q.name = s.1).map fun q => ⟨q.name, if s.2 then some q.pages else none⟩

/-- `_collect_via_counter`, from the answer of the script on. -/
def SpoolWorld.sweep (w : SpoolWorld) (sweepTs : Nat) (seen : List (Text × Bool)) : SpoolWorld :=
  let (jobs, baselines) :=
    counterJobs L (seen.filterMap w.rowOf) w.state.countingFrom (.agent sweepTs)
  { queues := w.queues.map (SpoolQueue.read seen)
    state := { lastSweepTs := some (.agent sweepTs), mode := .counter, baselines := baselines }
    emitted := w.emitted ++ jobs }

def counterMode : Machine SpoolWorld SpoolStep Unit where
  next w
    | .print queue pages => { w with queues := w.queues.map (SpoolQueue.print queue pages) }
    | .reset queue => { w with queues := w.queues.map (SpoolQueue.reset queue) }
    | .sweep sweepTs seen => w.sweep L sweepTs seen
    | .failedSweep => w
  out _ _ := ()

/-- A sweep reads no queue twice, and where the counter of a queue has been reset since it was
    last read, its value is below the stored base. -/
def Visible (w : SpoolWorld) : SpoolStep → Prop
  | .sweep _ seen => ((seen.filter (·.2)).map (·.1)).Nodup ∧
      ∀ q ∈ w.queues, (q.name, true) ∈ seen → q.wasReset = true →
        ∀ name ∈ countedName L q.name, ∀ base ∈ getBaseline w.state.countingFrom name,
          q.pages < base
  | _ => True

instance Visible.decidable (w : SpoolWorld) : ∀ step, Decidable (Visible L w step)
  | .sweep _ seen => inferInstanceAs (Decidable (((seen.filter (·.2)).map (·.1)).Nodup ∧
      ∀ q ∈ w.queues, (q.name, true) ∈ seen → q.wasReset = true →
        ∀ name ∈ countedName L q.name, ∀ base ∈ getBaseline w.state.countingFrom name,
          q.pages < base))
  | .print _ _ | .reset _ | .failedSweep => inferInstanceAs (Decidable True)

/-- The pages of the rows that name a printer. -/
def pagesOf (name : Text) (jobs : List PrintJob) : Nat :=
  ((jobs.filter fun j => decide (j.printer = some name)).map (·.pages)).sum

/-! ### What a sweep emits for one name -/

theorem pagesOf_append (name : Text) (xs ys : List PrintJob) :
    pagesOf name (xs ++ ys) = pagesOf name xs + pagesOf name ys := by
  simp only [pagesOf, List.filter_append, List.map_append, List.sum_append]

/-- What is emitted for a count. -/
def dueOf (base : Baselines) (count : Text × Nat) : Nat :=
  match getBaseline base count.1 with
  | none => 0
  | some b => delta b count.2

theorem pagesOf_counterJob (name counted : Text) (sweepTs : Stamp) (pages : Nat) :
    pagesOf name [counterJob sweepTs counted pages] = if counted = name then pages else 0 := by
  by_cases h : counted = name
  · simp [pagesOf, counterJob, h]
  · simp [pagesOf, counterJob, h]

theorem pagesOf_countRows (base : Baselines) (sweepTs : Stamp) (name : Text)
    (rows : List QueueRow) (jobs : List PrintJob) (newBase : Baselines) :
    pagesOf name (countRows L base sweepTs rows (jobs, newBase)).1 = pagesOf name jobs +
      (((rows.filterMap (countable L)).filter fun c => decide (c.1 = name)).map (dueOf base)).sum := by
  induction rows generalizing jobs newBase with
  | nil => simp [countRows]
  | cons row rows ih =>
    simp only [countRows]
    cases hcount : countable L row with
    | none =>
      rw [List.filterMap_cons_none hcount]
      exact ih jobs newBase
    | some counted =>
      obtain ⟨counted, pages⟩ := counted
      rw [List.filterMap_cons_some hcount]
      -- what this row adds, whether it emits a job or not
      have hrest : ∀ jobs', pagesOf name jobs' =
          pagesOf name jobs + (if counted = name then dueOf base (counted, pages) else 0) →
          pagesOf name (countRows L base sweepTs rows
              (jobs', setBaseline newBase counted pages)).1 =
            pagesOf name jobs + ((((counted, pages) :: rows.filterMap (countable L)).filter
              fun c => decide (c.1 = name)).map (dueOf base)).sum := by
        intro jobs' hjobs'
        rw [ih, hjobs']
        by_cases hname : counted = name
        · rw [if_pos hname, List.filter_cons_of_pos (by simpa using hname), List.map_cons,
            List.sum_cons, Nat.add_assoc]
        · rw [if_neg hname, List.filter_cons_of_neg (by simpa using hname), Nat.add_zero]
      dsimp only
      cases hold : getBaseline base counted with
      | none =>
        apply hrest
        simp [dueOf, hold]
      | some b =>
        have hdue : dueOf base (counted, pages) = delta b pages := by simp only [dueOf, hold]
        dsimp only
        split
        · apply hrest
          rw [pagesOf_append, pagesOf_counterJob, hdue]
        · rename_i hzero
          apply hrest
          rw [hdue, Nat.eq_zero_of_not_pos hzero, ite_self, Nat.add_zero]

/-- With distinct names, a sweep emits for a name what is due for its count. -/
theorem sum_dueOf {base counts : Baselines} (hnodup : (counts.map Prod.fst).Nodup) {name : Text} :
    ((counts.filter fun c => decide (c.1 = name)).map (dueOf base)).sum =
      ((getBaseline counts name).map fun pages => dueOf base (name, pages)).getD 0 := by
  induction counts with
  | nil => rfl
  | cons count counts ih =>
    obtain ⟨counted, pages⟩ := count
    rw [List.map_cons, List.nodup_cons] at hnodup
    by_cases hname : counted = name
    · subst hname
      have hrest : (counts.filter fun c => decide (c.1 = counted)) = [] := by
        refine List.filter_eq_nil_iff.mpr fun c hc hsame => hnodup.1 ?_
        have hmem : c.1 ∈ counts.map Prod.fst := List.mem_map_of_mem hc
        rwa [of_decide_eq_true hsame] at hmem
      rw [List.filter_cons_of_pos (by simp), hrest]
      simp [getBaseline, row]
    · rw [List.filter_cons_of_neg (by simpa using hname), ih hnodup.2]
      simp [getBaseline, row, hname]

/-! ### The counts of a sweep -/

section Counts

variable {L}
variable {w : SpoolWorld} {seen : List (Text × Bool)}

/-- The counts that the loop of `_counter_jobs` takes from the answer. -/
def SpoolWorld.counts (L : PrintLib) (w : SpoolWorld) (seen : List (Text × Bool)) : Baselines :=
  (seen.filterMap w.rowOf).filterMap (countable L)

theorem countable_rowOf {s : Text × Bool} {count : Text × Nat} :
    (w.rowOf s).bind (countable L) = some count → ∃ q ∈ w.queues, s = (q.name, true) ∧
      countedName L q.name = some count.1 ∧ q.pages = count.2 := by
  intro h
  obtain ⟨row, hrow, hcount⟩ := Option.bind_eq_some_iff.mp h
  obtain ⟨q, hq, rfl⟩ := Option.map_eq_some_iff.mp hrow
  have hname : q.name = s.1 := by simpa using List.find?_some hq
  obtain ⟨name, readable⟩ := s
  dsimp only at hname hcount
  subst hname
  cases readable with
  | false =>
    simp only [countable, Bool.false_eq_true, if_false] at hcount
    cases hnamed : countedName L q.name with
    | none => simp [hnamed] at hcount
    | some n => simp [hnamed] at hcount
  | true =>
    refine ⟨q, List.mem_of_find?_eq_some hq, rfl, ?_⟩
    have hread : countable L ⟨q.name, some (q.pages : Int)⟩ = some count := hcount
    have hpair := countable_row L ⟨q.name, q.pages⟩
    rw [PrintQueue.row, hread] at hpair
    obtain ⟨n, hn, hcount⟩ := Option.map_eq_some_iff.mp hpair.symm
    rw [← hcount]
    exact ⟨hn, rfl⟩

theorem mem_counts {count : Text × Nat} (h : count ∈ w.counts L seen) :
    ∃ q ∈ w.queues, (q.name, true) ∈ seen ∧ countedName L q.name = some count.1 ∧
      q.pages = count.2 := by
  rw [SpoolWorld.counts, List.filterMap_filterMap, List.mem_filterMap] at h
  obtain ⟨s, hs, h⟩ := h
  obtain ⟨q, hq, rfl, hname, hpages⟩ := countable_rowOf h
  exact ⟨q, hq, hs, hname, hpages⟩

/-- No two queues have one name, as far as the agent reads it. -/
def DistinctSpool (queues : List SpoolQueue) : Prop :=
  (queues.map fun q => q.name.take maxNameLen).Nodup

theorem DistinctSpool.eq_of_counted (h : DistinctSpool w.queues) {q q' : SpoolQueue}
    (hq : q ∈ w.queues) (hq' : q' ∈ w.queues) {name : Text}
    (hname : countedName L q.name = some name) (hname' : countedName L q'.name = some name) :
    q = q' := by
  apply List.inj_on_of_nodup_map h hq hq'
  rw [← countedName_eq_some L hname, ← countedName_eq_some L hname']

theorem DistinctSpool.find (h : DistinctSpool w.queues) {q : SpoolQueue} (hq : q ∈ w.queues) :
    w.queues.find? (fun p => p.name = q.name) = some q := by
  cases hfind : w.queues.find? fun p => p.name = q.name with
  | none =>
    have := List.find?_eq_none.mp hfind q hq
    simp at this
  | some p =>
    have hname : p.name = q.name := by simpa using List.find?_some hfind
    rw [List.inj_on_of_nodup_map h (List.mem_of_find?_eq_some hfind) hq (by rw [hname])]

theorem mem_counts_of_seen (h : DistinctSpool w.queues) {q : SpoolQueue} (hq : q ∈ w.queues)
    (hseen : (q.name, true) ∈ seen) {name : Text} (hname : countedName L q.name = some name) :
    (name, q.pages) ∈ w.counts L seen := by
  rw [SpoolWorld.counts, List.filterMap_filterMap, List.mem_filterMap]
  refine ⟨_, hseen, ?_⟩
  have hrow : w.rowOf (q.name, true) = some ⟨q.name, some (q.pages : Int)⟩ := by
    simp only [SpoolWorld.rowOf, h.find hq, Option.map_some, if_true]
  have hread := countable_row L ⟨q.name, q.pages⟩
  rw [hname] at hread
  rw [hrow, Option.bind_some]
  exact hread

theorem nodup_counts (h : DistinctSpool w.queues)
    (hseen : ((seen.filter (·.2)).map (·.1)).Nodup) :
    ((w.counts L seen).map Prod.fst).Nodup := by
  have hpairs : (seen.filter (·.2)).Nodup := hseen.of_map
  -- an entry that could not be read gives no count
  have hcounts : w.counts L seen =
      (seen.filter (·.2)).filterMap fun s => (w.rowOf s).bind (countable L) := by
    rw [SpoolWorld.counts, List.filterMap_filterMap, List.filterMap_filter]
    refine List.filterMap_congr fun s hs => ?_
    cases hcount : (w.rowOf s).bind (countable L) with
    | none => simp
    | some count =>
      obtain ⟨q, _, rfl, _⟩ := countable_rowOf hcount
      simp
  rw [hcounts, List.map_filterMap]
  refine hpairs.filterMap fun s s' name hs hs' => ?_
  obtain ⟨count, hcount, rfl⟩ := Option.map_eq_some_iff.mp hs
  obtain ⟨count', hcount', hsame⟩ := Option.map_eq_some_iff.mp hs'
  obtain ⟨q, hq, rfl, hname, _⟩ := countable_rowOf hcount
  obtain ⟨q', hq', rfl, hname', _⟩ := countable_rowOf hcount'
  rw [hsame] at hname'
  rw [h.eq_of_counted hq hq' hname hname']

end Counts

/-! ### The accounts -/

/-- The account of a queue that is counted under `name`. -/
structure QueueAccount (base : Baselines) (emitted : List PrintJob) (q : SpoolQueue)
    (name : Text) : Prop where
  total : pagesOf name emitted = q.counted.getD 0
  unseen : q.counted = none → getBaseline base name = none
  seen : ∀ n, q.counted = some n → ∃ b, getBaseline base name = some b ∧
    (q.wasReset = true → q.pages = q.fresh) ∧ (q.wasReset = false → q.pages = b + q.fresh)

/-- What a run keeps: few queues, and a correct account of each. -/
structure SpoolAccounts (w : SpoolWorld) : Prop where
  distinct : DistinctSpool w.queues
  few : w.queues.length ≤ maxBaselines
  keys : (w.state.countingFrom.map Prod.fst).Nodup
  named : ∀ b ∈ w.state.countingFrom, ∃ q ∈ w.queues, countedName L q.name = some b.1
  accounts : ∀ q ∈ w.queues, ∀ name, countedName L q.name = some name →
    QueueAccount w.state.countingFrom w.emitted q name

section Accounts

variable {L}
variable {w : SpoolWorld} {seen : List (Text × Bool)}

theorem QueueAccount.print {base : Baselines} {emitted : List PrintJob} {q : SpoolQueue}
    {name : Text} (h : QueueAccount base emitted q name) (queue : Text) (pages : Nat) :
    QueueAccount base emitted (q.print queue pages) name := by
  unfold SpoolQueue.print
  split
  · refine ⟨h.total, h.unseen, fun n hn => ?_⟩
    obtain ⟨b, hb, hreset, hkept⟩ := h.seen n hn
    refine ⟨b, hb, fun hr => ?_, fun hr => ?_⟩
    · exact congrArg (· + pages) (hreset hr)
    · exact (congrArg (· + pages) (hkept hr)).trans (Nat.add_assoc b q.fresh pages)
  · exact h

theorem QueueAccount.reset {base : Baselines} {emitted : List PrintJob} {q : SpoolQueue}
    {name : Text} (h : QueueAccount base emitted q name) (queue : Text) :
    QueueAccount base emitted (q.reset queue) name := by
  unfold SpoolQueue.reset
  split
  · refine ⟨h.total, h.unseen, fun n hn => ?_⟩
    obtain ⟨b, hb, _⟩ := h.seen n hn
    exact ⟨b, hb, fun _ => rfl, fun hr => absurd hr (by simp)⟩
  · exact h

/-- A change of the counters that keeps names and accounts. -/
theorem SpoolAccounts.map (h : SpoolAccounts L w) {f : SpoolQueue → SpoolQueue}
    (hname : ∀ q, (f q).name = q.name)
    (hf : ∀ q name, QueueAccount w.state.countingFrom w.emitted q name →
      QueueAccount w.state.countingFrom w.emitted (f q) name) :
    SpoolAccounts L { w with queues := w.queues.map f } where
  distinct := by
    unfold DistinctSpool
    rw [List.map_map]
    simp only [Function.comp_def, hname]
    exact h.distinct
  few := by
    rw [List.length_map]
    exact h.few
  keys := h.keys
  named := by
    intro b hb
    obtain ⟨q, hq, hcounted⟩ := h.named b hb
    exact ⟨f q, List.mem_map_of_mem hq, by rw [hname]; exact hcounted⟩
  accounts := by
    intro q hq name hcounted
    obtain ⟨p, hp, rfl⟩ := List.mem_map.mp hq
    rw [hname] at hcounted
    exact hf p name (h.accounts p hp name hcounted)

/-! ### One sweep -/

/-- With fewer queues than there is room for, no baseline is given up. -/
theorem SpoolAccounts.kept (h : SpoolAccounts L w)
    (hnodup : ((w.counts L seen).map Prod.fst).Nodup) :
    keptBaselines w.state.countingFrom (w.counts L seen) = w.state.countingFrom.filter
      fun b => decide (b.1 ∉ (w.counts L seen).map Prod.fst) := by
  have hkeys : ((w.state.countingFrom.filter
      fun b => decide (b.1 ∉ (w.counts L seen).map Prod.fst)) ++ w.counts L seen).map Prod.fst ⊆
      w.queues.map fun q => q.name.take maxNameLen := by
    intro name hname
    obtain ⟨b, hb, rfl⟩ := List.mem_map.mp hname
    have hqueue : ∃ q ∈ w.queues, countedName L q.name = some b.1 := by
      rcases List.mem_append.mp hb with hb | hb
      · exact h.named b (List.mem_filter.mp hb).1
      · obtain ⟨q, hq, _, hcounted, _⟩ := mem_counts hb
        exact ⟨q, hq, hcounted⟩
    obtain ⟨q, hq, hcounted⟩ := hqueue
    rw [countedName_eq_some L hcounted]
    exact List.mem_map.mpr ⟨q, hq, rfl⟩
  have hdistinct : (((w.state.countingFrom.filter
      fun b => decide (b.1 ∉ (w.counts L seen).map Prod.fst)) ++
      w.counts L seen).map Prod.fst).Nodup := by
    rw [List.map_append, List.nodup_append]
    refine ⟨h.keys.sublist (List.filter_sublist.map _), hnodup, ?_⟩
    rintro a ha b hb rfl
    obtain ⟨entry, hentry, rfl⟩ := List.mem_map.mp ha
    exact of_decide_eq_true (List.mem_filter.mp hentry).2 hb
  have hlen := (hdistinct.subperm hkeys).length_le
  have hfew := h.few
  rw [List.length_map, List.length_append, List.length_map] at hlen
  have hroom : (w.state.countingFrom.filter
      fun b => decide (b.1 ∉ (w.counts L seen).map Prod.fst)).length -
        (maxBaselines - (w.counts L seen).length) = 0 := by
    omega
  simp only [keptBaselines]
  rw [hroom, List.drop_zero]

theorem getBaseline_eq_none {base : Baselines} {name : Text}
    (h : name ∉ base.map Prod.fst) : getBaseline base name = none := by
  cases hget : getBaseline base name with
  | none => rfl
  | some b => exact absurd (List.mem_map_of_mem (mem_of_getBaseline hget)) h

/-- The baseline of a name after a sweep. -/
theorem SpoolAccounts.getBaseline_after (h : SpoolAccounts L w)
    (hnodup : ((w.counts L seen).map Prod.fst).Nodup) (name : Text) :
    getBaseline (keptBaselines w.state.countingFrom (w.counts L seen) ++ w.counts L seen) name =
      (getBaseline (w.counts L seen) name).or (getBaseline w.state.countingFrom name) := by
  have hafter := nodup_baselines h.keys hnodup
  cases hnew : getBaseline (w.counts L seen) name with
  | some pages =>
    exact getBaseline_of_mem hafter (List.mem_append_right _ (mem_of_getBaseline hnew))
  | none =>
    have hfree : name ∉ (w.counts L seen).map Prod.fst := by
      intro hmem
      obtain ⟨⟨_, pages⟩, hcount, rfl⟩ := List.mem_map.mp hmem
      rw [getBaseline_of_mem hnodup hcount] at hnew
      cases hnew
    rw [Option.none_or]
    cases hold : getBaseline w.state.countingFrom name with
    | some b =>
      apply getBaseline_of_mem hafter
      rw [h.kept hnodup]
      exact List.mem_append_left _
        (List.mem_filter.mpr ⟨mem_of_getBaseline hold, decide_eq_true hfree⟩)
    | none =>
      apply getBaseline_eq_none
      rw [List.map_append, List.mem_append, not_or]
      refine ⟨fun hmem => ?_, hfree⟩
      obtain ⟨⟨_, b⟩, hb, rfl⟩ := List.mem_map.mp hmem
      rw [getBaseline_of_mem h.keys ((keptBaselines_sublist _ _).subset hb)] at hold
      cases hold

/-- What a sweep emits for a name, and the baselines it leaves. -/
theorem counterJobs_counts (hnodup : ((w.counts L seen).map Prod.fst).Nodup) (base : Baselines)
    (sweepTs : Stamp) (name : Text) :
    let result := counterJobs L (seen.filterMap w.rowOf) base sweepTs
    pagesOf name result.1 =
        ((getBaseline (w.counts L seen) name).map fun pages => dueOf base (name, pages)).getD 0 ∧
      result.2 = keptBaselines base (w.counts L seen) ++ w.counts L seen := by
  intro result
  have hseen : (seen.filterMap w.rowOf).filterMap (countable L) = w.counts L seen := rfl
  constructor
  · have hpages := pagesOf_countRows L base sweepTs name (seen.filterMap w.rowOf) [] []
    rw [hseen, sum_dueOf hnodup] at hpages
    exact hpages.trans (Nat.zero_add _)
  · obtain ⟨-, -, hbase⟩ := countRows_spec L base sweepTs (seen.filterMap w.rowOf) [] []
    have hcounts : (countRows L base sweepTs (seen.filterMap w.rowOf) ([], [])).2 =
        w.counts L seen := by
      rw [hbase, hseen, upsertAll_of_fresh (by simpa using hnodup), List.nil_append]
    change keptBaselines base
        (countRows L base sweepTs (seen.filterMap w.rowOf) ([], [])).2 ++
      (countRows L base sweepTs (seen.filterMap w.rowOf) ([], [])).2 = _
    rw [hcounts]

/-- The count of a queue is in the answer iff the sweep has read the queue. -/
theorem getBaseline_counts (h : DistinctSpool w.queues)
    (hnodup : ((w.counts L seen).map Prod.fst).Nodup) {q : SpoolQueue} (hq : q ∈ w.queues)
    {name : Text} (hname : countedName L q.name = some name) :
    getBaseline (w.counts L seen) name = if (q.name, true) ∈ seen then some q.pages else none := by
  by_cases hseen : (q.name, true) ∈ seen
  · rw [if_pos hseen]
    exact getBaseline_of_mem hnodup (mem_counts_of_seen h hq hseen hname)
  · rw [if_neg hseen]
    apply getBaseline_eq_none
    intro hmem
    obtain ⟨count, hcount, rfl⟩ := List.mem_map.mp hmem
    obtain ⟨q', hq', hseen', hname', _⟩ := mem_counts hcount
    rw [h.eq_of_counted hq hq' hname hname'] at hseen
    exact hseen hseen'

@[simp] theorem SpoolQueue.read_name (seen : List (Text × Bool)) (q : SpoolQueue) :
    (q.read seen).name = q.name := by
  unfold SpoolQueue.read
  split
  · rfl
  · rfl

/-- What a sweep that reads a queue emits for it is what has been counted since the last. -/
theorem QueueAccount.due {base : Baselines} {emitted : List PrintJob} {q : SpoolQueue}
    {name : Text} (h : QueueAccount base emitted q name) (hseen : (q.name, true) ∈ seen)
    (hreset : q.wasReset = true → ∀ b, getBaseline base name = some b → q.pages < b) :
    q.counted.getD 0 + dueOf base (name, q.pages) = (q.read seen).counted.getD 0 := by
  rw [SpoolQueue.read, if_pos hseen]
  cases hcount : q.counted with
  | none => simp [dueOf, h.unseen hcount]
  | some n =>
    obtain ⟨b, hb, hzero, hon⟩ := h.seen n hcount
    simp only [dueOf, hb, Option.getD_some]
    congr 1
    unfold delta
    cases hr : q.wasReset with
    | true =>
      -- the counter was reset, and shows a value below the base
      rw [if_pos (hreset hr b hb), hzero hr]
    | false =>
      have hpages := hon hr
      rw [if_neg (by omega)]
      omega

theorem SpoolAccounts.sweep (h : SpoolAccounts L w) (sweepTs : Nat)
    (hvisible : Visible L w (.sweep sweepTs seen)) : SpoolAccounts L (w.sweep L sweepTs seen) := by
  obtain ⟨honce, hreset⟩ := hvisible
  have hnodup : ((w.counts L seen).map Prod.fst).Nodup := nodup_counts h.distinct honce
  have hbase : (w.sweep L sweepTs seen).state.countingFrom =
      keptBaselines w.state.countingFrom (w.counts L seen) ++ w.counts L seen :=
    (counterJobs_counts hnodup w.state.countingFrom (.agent sweepTs) []).2
  constructor
  · have hqueues : (w.sweep L sweepTs seen).queues = w.queues.map (SpoolQueue.read seen) := rfl
    unfold DistinctSpool
    rw [hqueues, List.map_map]
    simp only [Function.comp_def, SpoolQueue.read_name]
    exact h.distinct
  · exact (List.length_map _).trans_le h.few
  · rw [hbase]
    exact nodup_baselines h.keys hnodup
  · intro b hb
    rw [hbase] at hb
    have hqueue : ∃ q ∈ w.queues, countedName L q.name = some b.1 := by
      rcases List.mem_append.mp hb with hb | hb
      · exact h.named b ((keptBaselines_sublist _ _).subset hb)
      · obtain ⟨q, hq, _, hcounted, _⟩ := mem_counts hb
        exact ⟨q, hq, hcounted⟩
    obtain ⟨q, hq, hcounted⟩ := hqueue
    exact ⟨q.read seen, List.mem_map_of_mem hq, by rw [SpoolQueue.read_name]; exact hcounted⟩
  · intro q' hq' name hcounted
    obtain ⟨q, hq, rfl⟩ := List.mem_map.mp hq'
    rw [SpoolQueue.read_name] at hcounted
    have haccount := h.accounts q hq name hcounted
    have hemitted : pagesOf name (w.sweep L sweepTs seen).emitted = pagesOf name w.emitted +
        ((getBaseline (w.counts L seen) name).map
          fun pages => dueOf w.state.countingFrom (name, pages)).getD 0 := by
      rw [← (counterJobs_counts hnodup w.state.countingFrom (.agent sweepTs) name).1,
        ← pagesOf_append]
      rfl
    have hafter := h.getBaseline_after hnodup name
    rw [getBaseline_counts h.distinct hnodup hq hcounted] at hemitted hafter
    rw [← hbase] at hafter
    by_cases hseen : (q.name, true) ∈ seen
    · rw [if_pos hseen] at hemitted hafter
      have hdue := haccount.due hseen fun hr b hb => hreset q hq hseen hr name hcounted b hb
      rw [SpoolQueue.read, if_pos hseen] at hdue ⊢
      refine ⟨?_, fun hnone => absurd hnone (by simp), fun n _ => ?_⟩
      · rw [hemitted, haccount.total, Option.map_some, Option.getD_some]
        exact hdue
      · exact ⟨q.pages, hafter, fun hr => absurd hr (by simp), fun _ => rfl⟩
    · rw [if_neg hseen] at hemitted hafter
      rw [SpoolQueue.read, if_neg hseen]
      rw [Option.none_or] at hafter
      rw [Option.map_none, Option.getD_none, Nat.add_zero] at hemitted
      refine ⟨hemitted.trans haccount.total, fun hnone => ?_, fun n hn => ?_⟩
      · rw [hafter]
        exact haccount.unseen hnone
      · rw [hafter]
        exact haccount.seen n hn

theorem SpoolAccounts.step (h : SpoolAccounts L w) (step : SpoolStep)
    (hvisible : Visible L w step) : SpoolAccounts L ((counterMode L).next w step) := by
  cases step with
  | print queue pages =>
    refine h.map (fun q => ?_) fun q name hq => hq.print queue pages
    unfold SpoolQueue.print
    split
    · rfl
    · rfl
  | reset queue =>
    refine h.map (fun q => ?_) fun q name hq => hq.reset queue
    unfold SpoolQueue.reset
    split
    · rfl
    · rfl
  | sweep sweepTs seen => exact h.sweep sweepTs hvisible
  | failedSweep => exact h

end Accounts

/-! ### Runs -/

/-- No sweep has read the queues yet. -/
def SpoolWorld.start (queues : List PrintQueue) (state : PrintState) : SpoolWorld where
  queues := queues.map fun q => { name := q.name, pages := q.pages }
  state := state

theorem spoolAccounts_start {queues : List PrintQueue} {state : PrintState}
    (hfew : queues.length < maxBaselines) (hdistinct : DistinctNames queues)
    (hstart : state.countingFrom = []) : SpoolAccounts L (SpoolWorld.start queues state) where
  distinct := by
    have hnames : (SpoolWorld.start queues state).queues.map (fun q => q.name.take maxNameLen) =
        queues.map fun q => q.name.take maxNameLen := List.map_map
    unfold DistinctSpool
    rw [hnames]
    exact hdistinct
  few := (List.length_map _).trans_le hfew.le
  keys := by
    change (state.countingFrom.map Prod.fst).Nodup
    rw [hstart]
    exact List.nodup_nil
  named := by
    intro b hb
    change b ∈ state.countingFrom at hb
    rw [hstart] at hb
    cases hb
  accounts := by
    intro q hq name _
    obtain ⟨p, _, rfl⟩ := List.mem_map.mp hq
    change QueueAccount state.countingFrom [] _ name
    rw [hstart]
    exact ⟨rfl, fun _ => rfl, fun n hn => by cases hn⟩

/-- For every queue that the agent counts, the deltas of a run add up to the pages that its
    counter has counted between its first baseline and its last reading. -/
theorem counter_conservation (queues : List PrintQueue) (state : PrintState)
    (hfew : queues.length < maxBaselines) (hdistinct : DistinctNames queues)
    (hstart : state.countingFrom = []) (steps : List SpoolStep)
    (hvisible : (counterMode L).Along (Visible L) (SpoolWorld.start queues state) steps) :
    let w := (counterMode L).stateAfter (SpoolWorld.start queues state) steps
    ∀ q ∈ w.queues, ∀ name, countedName L q.name = some name →
      pagesOf name w.emitted = q.counted.getD 0 := by
  intro w q hq name hname
  have hstep : ∀ w step, SpoolAccounts L w → Visible L w step →
      SpoolAccounts L ((counterMode L).next w step) :=
    fun _ step hw hvisible => hw.step step hvisible
  have haccounts : SpoolAccounts L w :=
    Machine.stateAfter_invariant_along hstep (spoolAccounts_start L hfew hdistinct hstart) hvisible
  exact (haccounts.accounts q hq name hname).total

private def twoPrinters : List PrintQueue := [⟨"HP".toList, 100⟩, ⟨"Xerox".toList, 40⟩]

private theorem twoPrinters_distinct : DistinctNames twoPrinters := by
  unfold DistinctNames
  decide

/-- The first printer is missed by a sweep, and its counter is reset later on. -/
private def resetRun : List SpoolStep :=
  [.sweep 0 [("HP".toList, true), ("Xerox".toList, true)], .print "HP".toList 5,
   .sweep 1 [("Xerox".toList, true), ("HP".toList, false)], .print "HP".toList 2,
   .sweep 2 [("HP".toList, true)], .reset "HP".toList, .print "HP".toList 3,
   .sweep 3 [("HP".toList, true)]]

private theorem mem_resetRun : (⟨"HP".toList, 3, 0, false, some 10⟩ : SpoolQueue) ∈
    ((counterMode .ascii).stateAfter (SpoolWorld.start twoPrinters {}) resetRun).queues := by
  decide

theorem counter_conservation_reset :
    pagesOf "HP".toList ((counterMode .ascii).stateAfter (SpoolWorld.start twoPrinters {})
      resetRun).emitted = 10 :=
  counter_conservation .ascii twoPrinters {} (by decide) twoPrinters_distinct rfl resetRun
    (by decide) _ mem_resetRun "HP".toList (by decide)

end Srp.Client
