/-
  Srp/Client/PrintEnvelope.lean
  =============================
  **The print envelope and its schema** (`_parse_job`, `_collect_via_events` and
  `_collect_via_counter` of `client/collectors/print_jobs.py`, `PrintJobsPayload`
  of `shared/schema.py`).

  A sweep starts from what PowerShell returned, with any value in any field but
  the time of an event.  One record that the schema does not take rejects the
  whole envelope, and the agent sends a name that is missing as a null.
-/
import Srp.Client.PrintSweeps
import Srp.Db.PrintDedup
import Srp.Lib.PyCast
import Srp.Trust.Validators

namespace Srp.Client

open Srp.Db (PrintJobRecord)
open Srp.Lib Srp.Lib.Lines Srp.Lib.PyCast Srp.Lib.PyInt Srp.Lib.PyJson Srp.Lib.PyNum
open Srp.Trust (PyValues truthy pyStr)

/-! ### What PowerShell returns -/

/-- A decoded event record; its time is an ISO text. -/
structure RawJob where
  jobId : Json := .null
  ts : Stamp
  printer : Json := .null
  pages : Json := .null
  sizeBytes : Json := .null
  userName : Json := .null

/-- A decoded queue record. -/
structure RawQueue where
  name : Json := .null
  pages : Json := .null

variable (L : PrintLib) (C : PyChars) (V : PyValues)

/-! ### The agent -/

/-- `str(value or "")[:_MAX_NAME_LEN]`. -/
def clippedName (value : Json) : Text :=
  (if truthy V value then pyStr V value else []).take maxNameLen

/-- `_parse_job`. -/
def parseRawJob (raw : RawJob) : Except PyError (Option PrintJob) :=
  let printer := clippedName V raw.printer
  if isVirtual L printer then .ok none
  else do
    let pages := (← intOrNone C V.ofToken raw.pages).getD 0
    if pages ≤ 0 then return none
    else
      let size ← intOrNone C V.ofToken raw.sizeBytes
      let jobId ← intOrNone C V.ofToken raw.jobId
      return some
        { jobId := jobId, ts := raw.ts,
          printer := if printer = [] then none else some printer,
          pages := pages.toNat, sizeBytes := size,
          userName := if truthy V raw.userName then
            some ((pyStr V raw.userName).take maxNameLen) else none,
          source := .events }

/-- The name and the count of a queue record; one that is not counted keeps no count. -/
def decodeQueue (raw : RawQueue) : Except PyError QueueRow :=
  let name := clippedName V raw.name
  if (countedName L name).isNone then .ok { name := name, pages := none }
  else (intOrNone C V.ofToken raw.pages).map fun pages => { name := name, pages := pages }

/-- What a sweep has to work with. -/
inductive RawSweep where
  | events (jobs : List RawJob) (queriedAt : Stamp) (lastTs : Option Stamp)
  | counter (queues : List RawQueue) (baselines : Baselines) (sweepTs : Stamp)

/-- The jobs of the payload. -/
def RawSweep.jobs : RawSweep → Except PyError (List PrintJob)
  | .events raws queriedAt lastTs =>
    (raws.mapM (parseRawJob L C V)).map fun found =>
      (capSweep L found.reduceOption queriedAt lastTs).1
  | .counter queues baselines sweepTs =>
    (queues.mapM (decodeQueue L C V)).map fun rows => (counterJobs L rows baselines sweepTs).1

def RawSweep.windowFrom : RawSweep → Option Stamp
  | .events _ _ lastTs => lastTs
  | .counter _ _ _ => none

def payloadJson (jobs : List PrintJob) (windowFrom : Option Stamp) : Json :=
  .obj [("jobs".toList, .arr (jobs.map (jobJson L))),
    ("window_from".toList, optJson .str (windowFrom.map L.stampText))]

def RawSweep.payload (sweep : RawSweep) : Except PyError Json :=
  (sweep.jobs L C V).map fun jobs => payloadJson L jobs sweep.windowFrom

/-! ### The schema -/

def printJobsMax : Nat := 8192

/-- How the schema library reads a value as an integer and as a text. -/
structure Pydantic where
  readInt : Json → Option Int
  readStr : Json → Option Text

/-- It takes a value of the type, and no null for a text. -/
structure Pydantic.Documented (P : Pydantic) : Prop where
  int : ∀ n, P.readInt (.int n) = some n
  str : ∀ t, P.readStr (.str t) = some t
  null : P.readStr .null = none

variable (P : Pydantic)

/-- `Field(max_length=...)`. -/
def Pydantic.readShort (maxLength : Nat) (v : Json) : Option Text :=
  (P.readStr v).filter fun t => t.length ≤ maxLength

/-- `Optional[...] = None`. -/
def readOptional {α : Type} (read : Json → Option α) : Option Json → Option (Option α)
  | none => some none
  | some .null => some none
  | some v => (read v).map some

/-- `PrintJobRecord`. -/
def parsePrintJobRecord : Json → Option PrintJobRecord
  | .obj fields => do
    let jobId ← readOptional P.readInt (fields.lookup "job_id".toList)
    let ts ← (fields.lookup "ts".toList).bind P.readStr
    let printer ← (fields.lookup "printer".toList).bind (P.readShort 256)
    let pages ← (fields.lookup "pages".toList).bind P.readInt
    let sizeBytes ← readOptional P.readInt (fields.lookup "size_bytes".toList)
    let userName ← readOptional (P.readShort 256) (fields.lookup "user_name".toList)
    let source ← readOptional (P.readShort 16) (fields.lookup "source".toList)
    return { jobId := jobId, ts := String.ofList ts, printer := String.ofList printer,
             pages := pages, sizeBytes := sizeBytes, userName := userName.map String.ofList,
             source := source.map String.ofList }
  | _ => none

/-- `parse_payload("print_jobs", payload)`. -/
def parsePrintJobs : Json → Option (List PrintJobRecord × Option Text)
  | .obj fields => do
    let jobs ← match (fields.lookup "jobs".toList).getD (.arr []) with
      | .arr xs => if printJobsMax < xs.length then none else xs.mapM (parsePrintJobRecord P)
      | _ => none
    let windowFrom ← readOptional P.readStr (fields.lookup "window_from".toList)
    return (jobs, windowFrom)
  | _ => none

/-! ### Which records the schema takes -/

variable {P}

theorem readOptional_int (hP : P.Documented) (n : Option Int) :
    readOptional P.readInt (some (optJson .int n)) = some n := by
  cases n with
  | none => rfl
  | some n => simp [readOptional, optJson, hP.int]

theorem readOptional_short (hP : P.Documented) {maxLength : Nat} {t : Option Text}
    (h : ∀ s ∈ t, s.length ≤ maxLength) :
    readOptional (P.readShort maxLength) (some (optJson .str t)) = some t := by
  cases t with
  | none => rfl
  | some s => simp [readOptional, optJson, Pydantic.readShort, hP.str, h s rfl]

theorem readOptional_str (hP : P.Documented) (t : Option Text) :
    readOptional P.readStr (some (optJson .str t)) = some t := by
  cases t with
  | none => rfl
  | some s => simp [readOptional, optJson, hP.str]

/-- Names that are clipped. -/
structure PrintJob.Clipped (j : PrintJob) : Prop where
  printer : ∀ t ∈ j.printer, t.length ≤ 256
  userName : ∀ t ∈ j.userName, t.length ≤ 256

/-- The schema takes a record exactly when it has the name of its printer. -/
theorem isSome_parsePrintJobRecord (hP : P.Documented) {j : PrintJob} (hj : j.Clipped) :
    (parsePrintJobRecord P (jobJson L j)).isSome = j.printer.isSome := by
  have hsource : readOptional (P.readShort 16) (some (.str j.source.text)) =
      some (some j.source.text) := by
    have hshort : j.source.text.length ≤ 16 := by
      cases j.source <;> decide
    simp [readOptional, Pydantic.readShort, hP.str, hshort]
  have hfields : parsePrintJobRecord P (jobJson L j) =
      (do
        let jobId ← readOptional P.readInt (some (optJson .int j.jobId))
        let ts ← P.readStr (.str (L.stampText j.ts))
        let printer ← P.readShort 256 (optJson .str j.printer)
        let pages ← P.readInt (.int j.pages)
        let sizeBytes ← readOptional P.readInt (some (optJson .int j.sizeBytes))
        let userName ← readOptional (P.readShort 256) (some (optJson .str j.userName))
        let source ← readOptional (P.readShort 16) (some (.str j.source.text))
        return { jobId := jobId, ts := String.ofList ts, printer := String.ofList printer,
                 pages := pages, sizeBytes := sizeBytes, userName := userName.map String.ofList,
                 source := source.map String.ofList }) := rfl
  rw [hfields, readOptional_int hP, hP.str, hP.int, readOptional_int hP,
    readOptional_short hP hj.userName, hsource]
  cases hprinter : j.printer with
  | none => simp [optJson, Pydantic.readShort, hP.null]
  | some t =>
    have hlen := hj.printer t hprinter
    simp [optJson, Pydantic.readShort, hP.str, Option.filter, hlen]

theorem isSome_mapM {α β : Type} (f : α → Option β) (xs : List α) :
    (xs.mapM f).isSome ↔ ∀ x ∈ xs, (f x).isSome := by
  induction xs with
  | nil => simp
  | cons x xs ih =>
    rw [List.mapM_cons, List.forall_mem_cons, ← ih]
    cases f x with
    | none => simp
    | some y => cases xs.mapM f <;> simp

/-- The schema takes a payload exactly when it is not too long and every job has the name of its
    printer. -/
theorem isSome_parsePrintJobs (hP : P.Documented) {jobs : List PrintJob}
    (hjobs : ∀ j ∈ jobs, j.Clipped) (windowFrom : Option Stamp) :
    (parsePrintJobs P (payloadJson L jobs windowFrom)).isSome ↔
      jobs.length ≤ printJobsMax ∧ ∀ j ∈ jobs, j.printer.isSome := by
  have hfields : parsePrintJobs P (payloadJson L jobs windowFrom) =
      (do
        let records ← if printJobsMax < (jobs.map (jobJson L)).length then none
          else (jobs.map (jobJson L)).mapM (parsePrintJobRecord P)
        let windowFrom ← readOptional P.readStr
          (some (optJson .str (windowFrom.map L.stampText)))
        return (records, windowFrom)) := rfl
  have hall : (∀ x ∈ jobs.map (jobJson L), (parsePrintJobRecord P x).isSome) ↔
      ∀ j ∈ jobs, j.printer.isSome := by
    rw [List.forall_mem_map]
    refine forall₂_congr fun j hj => ?_
    rw [isSome_parsePrintJobRecord L hP (hjobs j hj)]
  rw [hfields, readOptional_str hP, List.length_map]
  by_cases hlong : printJobsMax < jobs.length
  · rw [if_pos hlong]
    simp [not_le.mpr hlong]
  · rw [if_neg hlong, ← hall, ← isSome_mapM]
    cases (jobs.map (jobJson L)).mapM (parsePrintJobRecord P) <;> simp [not_lt.mp hlong]

/-! ### Jobs of an event sweep -/

theorem mem_of_mapM {α β : Type} {f : α → Except PyError β} {xs : List α} {ys : List β}
    (h : xs.mapM f = .ok ys) {y : β} (hy : y ∈ ys) : ∃ x ∈ xs, f x = .ok y := by
  induction xs generalizing ys with
  | nil =>
    cases h
    cases hy
  | cons x xs ih =>
    rw [List.mapM_cons] at h
    obtain ⟨z, hz, h⟩ := bind_eq_ok.mp h
    obtain ⟨zs, hzs, h⟩ := bind_eq_ok.mp h
    cases h
    rcases List.mem_cons.mp hy with rfl | hy
    · exact ⟨x, List.mem_cons_self, hz⟩
    · obtain ⟨x', hx', hfx'⟩ := ih hzs hy
      exact ⟨x', List.mem_cons_of_mem x hx', hfx'⟩

/-- What a record turns into, and what becomes of its name. -/
theorem parseRawJob_spec {L : PrintLib} {C : PyChars} {V : PyValues} {raw : RawJob}
    {j : PrintJob} (h : parseRawJob L C V raw = .ok (some j)) :
    j.Clipped ∧ (j.printer = none ↔ clippedName V raw.printer = []) := by
  simp only [parseRawJob] at h
  split at h
  · cases h
  · obtain ⟨pages, _, h⟩ := bind_eq_ok.mp h
    split at h
    · cases h
    · obtain ⟨size, _, h⟩ := bind_eq_ok.mp h
      obtain ⟨jobId, _, h⟩ := bind_eq_ok.mp h
      cases h
      refine ⟨⟨?_, ?_⟩, ?_⟩
      · intro t ht
        split at ht
        · cases ht
        · cases ht
          exact List.length_take_le _ _
      · intro t ht
        by_cases huser : truthy V raw.userName = true
        · simp only [huser, if_true, Option.mem_some_iff] at ht
          rw [← ht]
          exact List.length_take_le _ _
        · simp [huser] at ht
      · simp

/-- The record of an entry of the log, as the script writes it. -/
def PrintEvent.raw (e : PrintEvent) : RawJob where
  jobId := optJson .int e.jobId
  ts := .powershell e.time
  printer := .str e.printer
  pages := .int e.pages
  sizeBytes := optJson .int e.sizeBytes
  userName := optJson .str e.userName

theorem intOrNone_optInt (n : Option Int) :
    intOrNone C V.ofToken (optJson .int n) = .ok n := by
  cases n with
  | none => rfl
  | some n => rfl

/-- On records of the log the two parsers agree. -/
theorem parseRawJob_raw (e : PrintEvent) :
    parseRawJob L C V e.raw = .ok ((parseJob L e).map fun j => { j with record := none }) := by
  obtain ⟨recordId, time, printer, pages, jobId, sizeBytes, userName⟩ := e
  have hname : clippedName V (.str printer) = printer.take maxNameLen := by
    unfold clippedName truthy pyStr
    by_cases hempty : printer = [] <;> simp [hempty]
  have hpages : intOrNone C V.ofToken (.int pages) = .ok (some (pages : Int)) := rfl
  simp only [parseRawJob, parseJob, PrintEvent.raw, hname, hpages, intOrNone_optInt]
  split
  · rfl
  · by_cases hzero : pages = 0
    · simp [hzero, Bind.bind, Except.bind, Pure.pure, Except.pure]
    · cases userName with
      | none => simp [hzero, Bind.bind, Except.bind, Pure.pure, Except.pure, optJson, truthy]
      | some name =>
        by_cases hempty : name = []
        · simp [hzero, Bind.bind, Except.bind, Pure.pure, Except.pure, optJson, truthy,
            hempty]
        · simp [hzero, Bind.bind, Except.bind, Pure.pure, Except.pure, optJson, truthy,
            hempty, pyStr]

/-- The cut ends with a list that fits into the budget, or with one job. -/
theorem trimSweep_fits {fuel : Nat} {jobs : List PrintJob} (hfuel : jobs.length ≤ fuel) :
    (trimSweep L fuel jobs).length ≤ 1 ∨ sweepBytes L (trimSweep L fuel jobs) ≤ sweepBudgetBytes := by
  induction fuel generalizing jobs with
  | zero =>
    left
    simp only [trimSweep]
    omega
  | succ fuel ih =>
    simp only [trimSweep]
    split
    · next hbig =>
      apply ih
      rw [List.length_drop]
      omega
    · next hfits =>
      rw [not_and_or] at hfits
      omega

theorem utf8Len_dumpsFields_ge (fields : List (Text × Json)) :
    (fields.map fun f => utf8Len (stringBody f.1) + 3).sum ≤ utf8Len (dumpsFields 1 fields) := by
  have hquote : ('"' : Char).utf8Size = 1 := by decide
  have hcolon : (':' : Char).utf8Size = 1 := by decide
  have hblank : utf8Len (blanks 1) = 1 := by decide
  induction fields with
  | nil => exact Nat.zero_le _
  | cons f fields ih =>
    obtain ⟨k, v⟩ := f
    rw [List.map_cons, List.sum_cons]
    cases fields with
    | nil =>
      simp only [dumpsFields, utf8Len_cons, utf8Len_append, hquote, hcolon, hblank, List.map_nil,
        List.sum_nil]
      omega
    | cons g gs =>
      rw [dumpsFields]
      simp only [utf8Len_cons, utf8Len_append, hquote, hcolon, hblank]
      omega

theorem utf8Len_dumpsElems_ge {k : Nat} {xs : List Json} (h : ∀ x ∈ xs, k ≤ utf8Len (dumps 1 x)) :
    xs.length * k ≤ utf8Len (dumpsElems 1 xs) := by
  induction xs with
  | nil => exact (Nat.zero_mul k).le.trans (Nat.zero_le _)
  | cons x xs ih =>
    have hx := h x List.mem_cons_self
    have hrest := ih fun y hy => h y (List.mem_cons_of_mem x hy)
    rw [List.length_cons, Nat.succ_mul]
    cases xs with
    | nil =>
      rw [dumpsElems, utf8Len_append, List.length_nil]
      omega
    | cons y ys =>
      rw [dumpsElems, utf8Len_append, utf8Len_cons, utf8Len_append]
      omega

/-- A job takes more than seventy octets, for its keys. -/
theorem utf8Len_jobJson_ge (j : PrintJob) : 70 ≤ utf8Len (dumps 1 (jobJson L j)) := by
  have hkeys : 70 ≤ (["job_id".toList, "ts".toList, "printer".toList, "pages".toList,
      "size_bytes".toList, "user_name".toList, "source".toList].map
        fun t => utf8Len (stringBody t) + 3).sum := by decide
  have hfields := utf8Len_dumpsFields_ge
    [("job_id".toList, optJson .int j.jobId), ("ts".toList, .str (L.stampText j.ts)),
      ("printer".toList, optJson .str j.printer), ("pages".toList, .int j.pages),
      ("size_bytes".toList, optJson .int j.sizeBytes),
      ("user_name".toList, optJson .str j.userName), ("source".toList, .str j.source.text)]
  rw [jobJson, dumps, utf8Len_cons]
  exact (hkeys.trans hfields).trans (Nat.le_add_left _ _)

/-- What fits into the budget is not too long for the schema. -/
theorem length_of_fits {jobs : List PrintJob}
    (h : jobs.length ≤ 1 ∨ sweepBytes L jobs ≤ sweepBudgetBytes) : jobs.length ≤ printJobsMax := by
  rcases h with hone | hfits
  · exact hone.trans (by decide)
  · have hbytes : ∀ x ∈ jobs.map (jobJson L), 70 ≤ utf8Len (dumps 1 x) := by
      intro x hx
      obtain ⟨j, _, rfl⟩ := List.mem_map.mp hx
      exact utf8Len_jobJson_ge L j
    have hmany := utf8Len_dumpsElems_ge hbytes
    rw [List.length_map] at hmany
    simp only [sweepBytes, sweepBudgetBytes, dumps, dumpsFields, utf8Len_cons,
      utf8Len_append] at hfits
    unfold printJobsMax
    omega

/-! ### Jobs of a counter sweep -/

theorem length_of_countable {row : QueueRow} {counted : Text × Nat}
    (h : countable L row = some counted) : counted.1.length ≤ maxNameLen := by
  unfold countable at h
  split at h
  · next name pages hname _ =>
    cases h
    rw [countedName_eq_some L hname]
    exact List.length_take_le _ _
  · cases h

/-- Every job of a counter sweep has a name, and there is one for every queue with new pages. -/
theorem countRows_jobs (baselines : Baselines) (sweepTs : Stamp) (rows : List QueueRow)
    (jobs : List PrintJob) (newBase : Baselines) :
    (countRows L baselines sweepTs rows (jobs, newBase)).1.length =
      jobs.length + rows.countP (fun row => decide (0 < due L baselines row)) ∧
    ∀ j ∈ (countRows L baselines sweepTs rows (jobs, newBase)).1,
      j ∈ jobs ∨ j.Clipped ∧ j.printer.isSome := by
  induction rows generalizing jobs newBase with
  | nil => exact ⟨rfl, fun j hj => Or.inl hj⟩
  | cons row rows ih =>
    rw [countRows, List.countP_cons]
    cases hcount : countable L row with
    | none =>
      have hdue : due L baselines row = 0 := by rw [due, hcount]
      simpa [hdue] using ih jobs newBase
    | some counted =>
      obtain ⟨name, pages⟩ := counted
      cases hold : getBaseline baselines name with
      | none =>
        have hdue : due L baselines row = 0 := by simp only [due, hcount, hold]
        simpa [hdue, hold] using ih jobs (setBaseline newBase name pages)
      | some base =>
        have hdue : due L baselines row = delta base pages := by simp only [due, hcount, hold]
        by_cases hnew : 0 < delta base pages
        · obtain ⟨hlength, hjobs⟩ :=
            ih (jobs ++ [counterJob sweepTs name (delta base pages)]) (setBaseline newBase name pages)
          simp only [hold, hdue, hnew, if_true, decide_true]
          refine ⟨?_, ?_⟩
          · rw [hlength, List.length_append, List.length_singleton]
            omega
          · intro j hj
            rcases hjobs j hj with hj | hj
            · rcases List.mem_append.mp hj with hj | hj
              · exact Or.inl hj
              · right
                rw [List.mem_singleton.mp hj]
                refine ⟨⟨?_, ?_⟩, rfl⟩
                · intro t ht
                  cases ht
                  exact length_of_countable L hcount
                · intro t ht
                  cases ht
            · exact Or.inr hj
        · simpa [hold, hdue, hnew] using ih jobs (setBaseline newBase name pages)

/-! ### Acceptance -/

/-- The envelope has the name of every printer and is not too long: the record of an event job
    that the budget keeps is not nameless, and no more queues have new pages than the schema takes
    jobs. -/
def RawSweep.Acceptable : RawSweep → Prop
  | .events raws _ _ => ∀ found, raws.mapM (parseRawJob L C V) = .ok found →
      ∀ raw ∈ raws, ∀ j ∈ trimSweep L found.reduceOption.length found.reduceOption,
        parseRawJob L C V raw = .ok (some j) → clippedName V raw.printer ≠ []
  | .counter queues baselines _ => ∀ rows, queues.mapM (decodeQueue L C V) = .ok rows →
      rows.countP (fun row => decide (0 < due L baselines row)) ≤ printJobsMax

/-- **The server takes an envelope exactly when no name is missing in it and it is not too
    long.** -/
theorem envelope_taken_iff (hP : P.Documented) (sweep : RawSweep) (payload : Json)
    (h : sweep.payload L C V = .ok payload) :
    (parsePrintJobs P payload).isSome ↔ sweep.Acceptable L C V := by
  cases sweep with
  | events raws queriedAt lastTs =>
    cases hfound : raws.mapM (parseRawJob L C V) with
    | error e =>
      simp [RawSweep.payload, RawSweep.jobs, hfound, Except.map] at h
    | ok found =>
      have hpayload : payload =
          payloadJson L (trimSweep L found.reduceOption.length found.reduceOption) lastTs := by
        rw [← capSweep_fst L _ queriedAt lastTs]
        simp only [RawSweep.payload, RawSweep.jobs, hfound, Except.map, Except.ok.injEq] at h
        exact h.symm
      have hraw : ∀ j ∈ trimSweep L found.reduceOption.length found.reduceOption,
          ∃ raw ∈ raws, parseRawJob L C V raw = .ok (some j) := by
        intro j hj
        have hj := trimSweep_subset L _ _ hj
        exact mem_of_mapM hfound (List.reduceOption_mem_iff.mp hj)
      have hclipped : ∀ j ∈ trimSweep L found.reduceOption.length found.reduceOption,
          j.Clipped := by
        intro j hj
        obtain ⟨raw, _, hparse⟩ := hraw j hj
        exact (parseRawJob_spec hparse).1
      rw [hpayload, isSome_parsePrintJobs L hP hclipped]
      constructor
      · rintro ⟨_, hnames⟩ found' hfound' raw hmem j hj hparse
        rw [hfound] at hfound'
        cases hfound'
        have hname := Option.isSome_iff_ne_none.mp (hnames j hj)
        exact (parseRawJob_spec hparse).2.not.mp hname
      · intro hacceptable
        refine ⟨length_of_fits L (trimSweep_fits L le_rfl), ?_⟩
        intro j hj
        obtain ⟨raw, hmem, hparse⟩ := hraw j hj
        have hname := hacceptable found hfound raw hmem j hj hparse
        exact Option.isSome_iff_ne_none.mpr ((parseRawJob_spec hparse).2.not.mpr hname)
  | counter queues baselines sweepTs =>
    cases hrows : queues.mapM (decodeQueue L C V) with
    | error e =>
      simp [RawSweep.payload, RawSweep.jobs, hrows, Except.map] at h
    | ok rows =>
      have hpayload : payload =
          payloadJson L (countRows L baselines sweepTs rows ([], [])).1 none := by
        simp only [RawSweep.payload, RawSweep.jobs, hrows, Except.map, Except.ok.injEq] at h
        exact h.symm
      obtain ⟨hlength, hjobs⟩ := countRows_jobs L baselines sweepTs rows [] []
      have hnamed : ∀ j ∈ (countRows L baselines sweepTs rows ([], [])).1,
          j.Clipped ∧ j.printer.isSome :=
        fun j hj => (hjobs j hj).resolve_left List.not_mem_nil
      rw [hpayload, isSome_parsePrintJobs L hP fun j hj => (hnamed j hj).1, hlength,
        List.length_nil, Nat.zero_add]
      constructor
      · rintro ⟨hshort, _⟩ rows' hrows'
        rw [hrows] at hrows'
        cases hrows'
        exact hshort
      · exact fun hacceptable => ⟨hacceptable rows hrows, fun j hj => (hnamed j hj).2⟩

/-- The library on values of the types that the agent sends. -/
def Pydantic.plain : Pydantic where
  readInt
    | .int n => some n
    | _ => none
  readStr
    | .str t => some t
    | _ => none

theorem documented_plain : Pydantic.plain.Documented := ⟨fun _ => rfl, fun _ => rfl, rfl⟩

/-- The interpreter on texts and integers. -/
def noFloats : PyValues where
  ofToken _ := .nan
  ofText _ := none
  reprOf _ := []
  strOf
    | .int n => (toString n).toList
    | _ => []

/-- Three pages on a printer with a name; numbers as texts, a size that is a boolean and a user that
    is a number; a printer that is a number; and a nameless record without pages. -/
def namedSweep : RawSweep :=
  .events
    [{ jobId := .int 7, ts := .powershell 0, printer := .str "HP".toList, pages := .int 3 },
     { jobId := .str " 12 ".toList, ts := .powershell 1, printer := .str "HP".toList,
       pages := .str "2".toList, sizeBytes := .bool true, userName := .int 5 },
     { ts := .powershell 2, printer := .int 9, pages := .int 1 },
     { ts := .powershell 3, printer := .null, pages := .null }]
    (.powershell 5) none

theorem namedSweep_taken : ∃ payload, namedSweep.payload .windows .ascii noFloats = .ok payload ∧
    (parsePrintJobs .plain payload).isSome := by
  refine ⟨_, rfl, (envelope_taken_iff .windows .ascii noFloats documented_plain namedSweep _
    rfl).mpr ?_⟩
  intro found _ raw hraw j _ hparse
  simp only [List.mem_cons, List.not_mem_nil, or_false] at hraw
  rcases hraw with rfl | rfl | rfl | rfl
  · decide
  · decide
  · decide +kernel
  · cases hparse

/-- Three pages on a printer without a name, and one page on another one. -/
def namelessSweep : RawSweep :=
  .events [{ jobId := .int 8, ts := .powershell 3, printer := .str "HP".toList, pages := .int 1 },
    { jobId := .int 7, ts := .powershell 0, printer := .null, pages := .int 3 }]
    (.powershell 5) none

/-- The whole envelope is rejected. -/
theorem namelessSweep_rejected :
    (namelessSweep.payload .windows .ascii noFloats).map
      (fun payload => (parsePrintJobs .plain payload).isSome) = .ok false := by
  decide +kernel

end Srp.Client
