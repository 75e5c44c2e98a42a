/-
  Srp/Client/PrintJobs.lean
  =========================
  **The print-job collector** (`client/collectors/print_jobs.py`) over a spooler
  that prints while a sweep is under way.

  A sweep is split where the program asks Windows for something: the check of the
  event log, the stamp, the attempt to enable the log, the reading of the counters
  or of the events.  Between any two of these the spooler may print.  A job is
  printed, counted and, with the log on, noted as event 307 at one moment.  The
  state file is only written at the end of a sweep, so it is read where it is
  used.  The fields `printed` and `emitted` are no part of the program.
-/
import Srp.Client.Transport
import Srp.Lib.Lines
import Srp.Lib.Machine
import Srp.Lib.PyJson
import Srp.Lib.Table

namespace Srp.Client

open Srp.Lib Srp.Lib.Lines Srp.Lib.PyJson Srp.Lib.Table

/-! ### Windows -/

/-- A print queue with its `TotalPagesPrinted`. -/
structure PrintQueue where
  name : Text
  pages : Nat
deriving DecidableEq, Repr

/-- Event 307.  `recordId` is the number of the entry in the log. -/
structure PrintEvent where
  recordId : Nat
  time : Nat
  printer : Text
  pages : Nat
  jobId : Option Int := none
  sizeBytes : Option Int := none
  userName : Option Text := none
deriving DecidableEq, Repr

/-! ### Jobs -/

inductive JobSource where
  | events
  | counter
deriving DecidableEq, Repr

/-- A moment as the agent's clock or PowerShell writes it: the same one makes two texts. -/
inductive Stamp where
  | agent (t : Nat)
  | powershell (t : Nat)
deriving DecidableEq, Repr

def Stamp.instant : Stamp → Nat
  | .agent t => t
  | .powershell t => t

/-- A row of the payload.  `record` is the event it was read from, and no part of it. -/
structure PrintJob where
  jobId : Option Int := none
  ts : Stamp
  printer : Option Text
  pages : Nat
  sizeBytes : Option Int := none
  userName : Option Text := none
  source : JobSource
  record : Option Nat := none
deriving DecidableEq, Repr

/-- `str.lower` of Python, `ToLower` of .NET, and the text of a stamp. -/
structure PrintLib where
  lower : Text → Text
  psLower : Text → Text
  stampText : Stamp → Text

variable (L : PrintLib)

def virtualNames : List Text :=
  ["pdf".toList, "xps".toList, "fax".toList, "onenote".toList, "evernote".toList,
    "microsoft print to".toList, "send to".toList, "adobe".toList, "docuworks".toList]

/-- `_is_virtual`. -/
def isVirtual (name : Text) : Bool :=
  name ≠ [] && virtualNames.any fun v => decide (v <:+: L.lower name)

/-- `Test-Virtual` of the script. -/
def testVirtual (name : Text) : Bool :=
  virtualNames.any fun v => decide (v <:+: L.psLower name)

def maxNameLen : Nat := 256

/-- `_parse_job`, of an entry that the script has read. -/
def parseJob (e : PrintEvent) : Option PrintJob :=
  let printer := e.printer.take maxNameLen
  if isVirtual L printer then none
  else if e.pages = 0 then none
  else some
    { jobId := e.jobId, ts := .powershell e.time,
      printer := if printer = [] then none else some printer,
      pages := e.pages, sizeBytes := e.sizeBytes,
      userName := match e.userName with
        | some name => if name = [] then none else some (name.take maxNameLen)
        | none => none,
      source := .events, record := some e.recordId }

def sweepBudgetBytes : Nat := 450000

def optJson {α : Type} (f : α → Json) : Option α → Json
  | some a => f a
  | none => .null

def JobSource.text : JobSource → Text
  | .events => "events".toList
  | .counter => "counter".toList

def jobJson (j : PrintJob) : Json :=
  .obj [("job_id".toList, optJson .int j.jobId), ("ts".toList, .str (L.stampText j.ts)),
    ("printer".toList, optJson .str j.printer), ("pages".toList, .int j.pages),
    ("size_bytes".toList, optJson .int j.sizeBytes),
    ("user_name".toList, optJson .str j.userName), ("source".toList, .str j.source.text)]

/-- `_sweep_bytes`. -/
def sweepBytes (jobs : List PrintJob) : Nat :=
  utf8Len (dumps 1 (.obj [("jobs".toList, .arr (jobs.map (jobJson L)))]))

/-- The loop of `_cap_sweep`; it halves the list, so its length is fuel enough. -/
def trimSweep : Nat → List PrintJob → List PrintJob
  | 0, jobs => jobs
  | fuel + 1, jobs =>
    if 1 < jobs.length ∧ sweepBudgetBytes < sweepBytes L jobs then
      trimSweep fuel (jobs.drop (jobs.length / 2))
    else jobs

/-- `_cap_sweep`. -/
def capSweep (jobs : List PrintJob) (sweepTs : Stamp) (lastTs : Option Stamp) :
    List PrintJob × Stamp :=
  let kept := trimSweep L jobs.length jobs
  if kept.length = jobs.length then (jobs, sweepTs)
  else
    match (kept.map (·.ts.instant)).max? with
    | none => (kept, sweepTs)
    | some newest =>
      if some (Stamp.powershell newest) = lastTs then (kept, sweepTs)
      else (kept, .powershell newest)

theorem trimSweep_subset (fuel : Nat) (jobs : List PrintJob) : trimSweep L fuel jobs ⊆ jobs := by
  induction fuel generalizing jobs with
  | zero => exact List.Subset.refl jobs
  | succ fuel ih =>
    simp only [trimSweep]
    split
    · exact List.Subset.trans (ih _) (List.drop_subset _ jobs)
    · exact List.Subset.refl jobs

theorem capSweep_subset (jobs : List PrintJob) (sweepTs : Stamp) (lastTs : Option Stamp) :
    (capSweep L jobs sweepTs lastTs).1 ⊆ jobs := by
  simp only [capSweep]
  split
  · exact List.Subset.refl jobs
  · split
    · exact trimSweep_subset L _ jobs
    · split <;> exact trimSweep_subset L _ jobs

/-- The mark is set to the time of the query or of one of the jobs. -/
theorem capSweep_instant (jobs : List PrintJob) (sweepTs : Stamp) (lastTs : Option Stamp) :
    (capSweep L jobs sweepTs lastTs).2.instant = sweepTs.instant ∨
      ∃ j ∈ jobs, (capSweep L jobs sweepTs lastTs).2.instant = j.ts.instant := by
  simp only [capSweep]
  split
  · exact Or.inl rfl
  · split
    · exact Or.inl rfl
    · rename_i newest hnewest
      split
      · exact Or.inl rfl
      · right
        obtain ⟨j, hj, hts⟩ := List.mem_map.mp (List.max?_mem hnewest)
        exact ⟨j, trimSweep_subset L _ jobs hj, hts.symm⟩

theorem parseJob_spec {e : PrintEvent} {j : PrintJob} (h : parseJob L e = some j) :
    j.source = .events ∧ j.ts.instant = e.time ∧ j.pages = e.pages := by
  simp only [parseJob] at h
  split at h
  · cases h
  · split at h
    · cases h
    · cases h
      exact ⟨rfl, rfl, rfl⟩

/-! ### Counters -/

def maxBaselines : Nat := 500

abbrev Baselines := List (Text × Nat)

/-- A row of the counter script, as decoded. -/
structure QueueRow where
  name : Text
  pages : Option Int
deriving DecidableEq, Repr

/-- `baselines[name]`. -/
def getBaseline (base : Baselines) (name : Text) : Option Nat :=
  (row Prod.fst base name).map Prod.snd

/-- `new_base[name] = pages`. -/
def setBaseline (base : Baselines) (name : Text) (pages : Nat) : Baselines :=
  upsert Prod.fst (fun _ new => new) (name, pages) base

/-- The name under which the agent counts a queue; `none` for one that it does not count. -/
def countedName (name : Text) : Option Text :=
  let name := name.take maxNameLen
  if name = [] ∨ name = "_Total".toList ∨ isVirtual L name then none else some name

/-- The name and the count of a row that the loop of `_counter_jobs` does not skip. -/
def countable (row : QueueRow) : Option (Text × Nat) :=
  match countedName L row.name, row.pages with
  | some name, some (.ofNat pages) => some (name, pages)
  | _, _ => none

/-- The pages printed since the count `base`; a count that went backwards has started anew. -/
def delta (base pages : Nat) : Nat := if pages < base then pages else pages - base

def counterJob (sweepTs : Stamp) (name : Text) (pages : Nat) : PrintJob where
  ts := sweepTs
  printer := some name
  pages := pages
  source := .counter

/-- The loop of `_counter_jobs`. -/
def countRows (baselines : Baselines) (sweepTs : Stamp) :
    List QueueRow → List PrintJob × Baselines → List PrintJob × Baselines
  | [], acc => acc
  | row :: rows, (jobs, newBase) =>
    match countable L row with
    | none => countRows baselines sweepTs rows (jobs, newBase)
    | some (name, pages) =>
      let newBase := setBaseline newBase name pages
      match getBaseline baselines name with
      | none => countRows baselines sweepTs rows (jobs, newBase)
      | some base =>
        if 0 < delta base pages then
          countRows baselines sweepTs rows
            (jobs ++ [counterJob sweepTs name (delta base pages)], newBase)
        else countRows baselines sweepTs rows (jobs, newBase)

/-- The baselines of the queues that the sweep did not see: the latest of them, as many as there
    is room for. -/
def keptBaselines (baselines newBase : Baselines) : Baselines :=
  let absent := baselines.filter fun b => decide (b.1 ∉ newBase.map Prod.fst)
  absent.drop (absent.length - (maxBaselines - newBase.length))

/-- `_counter_jobs`. -/
def counterJobs (queues : List QueueRow) (baselines : Baselines) (sweepTs : Stamp) :
    List PrintJob × Baselines :=
  let (jobs, newBase) := countRows L baselines sweepTs queues ([], [])
  (jobs, keptBaselines baselines newBase ++ newBase)

/-! ### The state file -/

/-- What the sweeps read of the state; a missing mode is `events`. -/
structure PrintState where
  lastSweepTs : Option Stamp := none
  mode : JobSource := .events
  baselines : Baselines := []
deriving DecidableEq, Repr

/-- `reseed`: entering the counter mode drops the baselines. -/
def PrintState.countingFrom (s : PrintState) : Baselines :=
  match s.mode with
  | .counter => s.baselines
  | .events => []

/-! ### The sweep -/

inductive Phase where
  | idle
  /-- the state is loaded, the log not yet checked -/
  | loaded (autoenable : Bool)
  /-- the log is taken to be off -/
  | disabled (autoenable : Bool)
  /-- `sweep_ts` is taken -/
  | stamped (autoenable : Bool) (sweepTs : Nat)
  /-- the attempt to enable the log is over -/
  | reading (sweepTs : Nat)
  /-- the log is taken to be on -/
  | querying
  /-- `queried_at` is taken -/
  | queried (queriedAt : Nat)
deriving DecidableEq, Repr

/-- A counter sweep takes its stamp next. -/
def Phase.stampsNext : Phase → Bool
  | .disabled _ => true
  | _ => false

/-- Between the stamp of a counter sweep and its reading. -/
def Phase.switching : Phase → Bool
  | .stamped _ _ => true
  | .reading _ => true
  | _ => false

structure World where
  now : Nat := 0
  queues : List PrintQueue
  logEnabled : Bool := false
  log : List PrintEvent := []
  state : PrintState := {}
  /-- `_ENABLE_ATTEMPTED` -/
  attempted : Bool := false
  phase : Phase := .idle
  /-- the pages printed since the first baselines were taken -/
  printed : Option Nat := none
  /-- the rows of the payloads since then -/
  emitted : List PrintJob := []
deriving DecidableEq, Repr

/-- Details of a printed job. -/
structure JobDetails where
  jobId : Option Int := none
  sizeBytes : Option Int := none
  userName : Option Text := none
deriving DecidableEq, Repr

/-- The answer to the check of the log: none (`_detect_mode` then says events), what the log says,
    or that it could not be listed, which the script takes for a disabled log. -/
inductive ModeAnswer where
  | failed
  | listed
  | unlisted
deriving DecidableEq, Repr

/-- The answer to the counter script: the queues whose rows it could read, or no list. -/
inductive CounterAnswer where
  | failed
  | seen (readable : Text → Bool)

inductive PrintStep where
  | wait (ticks : Nat)
  | print (queue : Text) (pages : Nat) (details : JobDetails)
  | addQueue (name : Text)
  | removeQueue (name : Text)
  | restartSpooler
  /-- an administrator or a policy turns the log on or off -/
  | setLog (enabled : Bool)
  | restartAgent
  | begin (autoenable : Bool)
  | detect (answer : ModeAnswer)
  | stamp
  | enable (succeeds : Bool)
  | readCounters (answer : CounterAnswer)
  | stampQuery
  | readEvents (works : Bool)

def PrintQueue.add (queue : Text) (pages : Nat) (q : PrintQueue) : PrintQueue :=
  if q.name = queue then { q with pages := q.pages + pages } else q

/-- A job leaves the spooler. -/
def World.print (w : World) (queue : Text) (pages : Nat) (details : JobDetails) : World :=
  if queue ∈ w.queues.map (·.name) then
    { w with
      queues := w.queues.map (PrintQueue.add queue pages)
      log := if w.logEnabled then
        w.log ++ [{ recordId := w.log.length, time := w.now, printer := queue, pages := pages,
                    jobId := details.jobId, sizeBytes := details.sizeBytes,
                    userName := details.userName }]
        else w.log
      printed := w.printed.map (· + pages) }
  else w

def PrintQueue.row (q : PrintQueue) : QueueRow := ⟨q.name, some q.pages⟩

/-- The rows that the counter script answers with. -/
def World.rows (w : World) (readable : Text → Bool) : List QueueRow :=
  (w.queues.filter fun q => readable q.name).map PrintQueue.row

/-- `_collect_via_counter`, from the answer of the script on. -/
def World.collectCounter (w : World) (sweepTs : Nat) (readable : Text → Bool) : World :=
  let (jobs, baselines) :=
    counterJobs L (w.rows readable) w.state.countingFrom (.agent sweepTs)
  { w with
    phase := .idle
    state := { lastSweepTs := some (.agent sweepTs), mode := .counter, baselines := baselines }
    printed := some (w.printed.getD 0)
    emitted := w.emitted ++ jobs }

/-- The entry is not older than the last sweep. -/
def PrintState.reads (s : PrintState) (e : PrintEvent) : Bool :=
  match s.lastSweepTs with
  | some last => decide (last.instant ≤ e.time)
  | none => true

/-- The entries that the event script answers with, newest first. -/
def World.entries (w : World) : List PrintEvent :=
  ((w.log.reverse.filter w.state.reads).take 5000).filter fun e => !testVirtual L e.printer

/-- `_collect_via_events`, from the answer of the script on. -/
def World.collectEvents (w : World) (queriedAt : Nat) : World :=
  let (jobs, sweepTs) := capSweep L ((w.entries L).filterMap (parseJob L)) (.powershell queriedAt)
    w.state.lastSweepTs
  { w with
    phase := .idle
    state := { w.state with lastSweepTs := some sweepTs, mode := .events }
    emitted := if w.printed = none then [] else w.emitted ++ jobs }

/-- Two queues have different names, also as far as the agent reads them. -/
def freeName (queues : List PrintQueue) (name : Text) : Bool :=
  decide (name.take maxNameLen ∉ queues.map fun q => q.name.take maxNameLen)

/-- One step of the spooler or of the agent.  A step of the sweep that is not due does nothing. -/
def World.step (w : World) : PrintStep → World
  | .wait ticks => { w with now := w.now + ticks }
  | .print queue pages details => w.print queue pages details
  | .addQueue name =>
    if freeName w.queues name then { w with queues := w.queues ++ [⟨name, 0⟩] } else w
  | .removeQueue name => { w with queues := w.queues.filter fun q => decide (q.name ≠ name) }
  | .restartSpooler => { w with queues := w.queues.map fun q => { q with pages := 0 } }
  | .setLog enabled => { w with logEnabled := enabled }
  | .restartAgent => { w with phase := .idle, attempted := false }
  | .begin autoenable =>
    match w.phase with
    | .idle => { w with phase := .loaded autoenable }
    | _ => w
  | .detect answer =>
    match w.phase with
    | .loaded autoenable =>
      if answer = .unlisted ∨ answer = .listed ∧ w.logEnabled = false then
        { w with phase := .disabled autoenable }
      else { w with phase := .querying }
    | _ => w
  | .stamp =>
    match w.phase with
    | .disabled autoenable => { w with phase := .stamped autoenable w.now }
    | _ => w
  | .enable succeeds =>
    match w.phase with
    | .stamped autoenable sweepTs =>
      if autoenable && !w.attempted then
        { w with phase := .reading sweepTs, attempted := true,
                 logEnabled := w.logEnabled || succeeds }
      else { w with phase := .reading sweepTs }
    | _ => w
  | .readCounters answer =>
    match w.phase, answer with
    | .reading _, .failed => { w with phase := .idle }
    | .reading sweepTs, .seen readable => w.collectCounter L sweepTs readable
    | _, _ => w
  | .stampQuery =>
    match w.phase with
    | .querying => { w with phase := .queried w.now }
    | _ => w
  | .readEvents works =>
    match w.phase with
    | .queried queriedAt =>
      if works then w.collectEvents L queriedAt else { w with phase := .idle }
    | _ => w

def collector : Machine World PrintStep Unit where
  next w step := w.step L step
  out _ _ := ()

end Srp.Client
