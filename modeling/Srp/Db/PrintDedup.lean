/-
  Srp/Db/PrintDedup.lean
  ======================
  **The table of print jobs** (`store_print_jobs` and `idx_print_dedup_day` of
  `server/db.py`).

  What keeps a redelivered job from being stored again is a partial unique index
  over the device, the job id of the spooler and the day of the job.  A job
  without an id is in no conflict with any other.  Numbers are those of the
  spooler, within 64 bits; beyond them `sqlite3` raises `OverflowError`.
-/
import Mathlib.Data.List.Pairwise
import Srp.Lib.Machine
import Srp.Lib.Table

namespace Srp.Db

open Srp.Lib Srp.Lib.Table

/-! ### Rows -/

/-- A job of a payload, after the schema has been checked. -/
structure PrintJobRecord where
  jobId : Option Int := none
  ts : String
  printer : String
  pages : Int
  sizeBytes : Option Int := none
  userName : Option String := none
  source : Option String := none
deriving DecidableEq, Repr

/-- `substr(ts, 1, 10)`. -/
def PrintJobRecord.day (j : PrintJobRecord) : List Char := j.ts.toList.take 10

structure PrintJobRow where
  deviceId : String
  job : PrintJobRecord
  receivedAt : String
deriving DecidableEq, Repr

/-- The columns of `idx_print_dedup_day`; the index leaves out the rows without a job id. -/
def PrintJobRow.dedupKey (r : PrintJobRow) : Option (String × Int × List Char) :=
  r.job.jobId.map fun jobId => (r.deviceId, jobId, r.job.day)

/-! ### Storing -/

/-- The arguments of one call of `store_print_jobs`. -/
structure Delivery where
  deviceId : String
  jobs : List PrintJobRecord
  receivedAt : String
deriving DecidableEq, Repr

/-- One `INSERT` and its count; an `IntegrityError` is passed over. -/
def insertJob (deviceId receivedAt : String) (acc : List PrintJobRow × Nat)
    (job : PrintJobRecord) : List PrintJobRow × Nat :=
  let new : PrintJobRow := { deviceId, job, receivedAt }
  if Fresh PrintJobRow.dedupKey acc.1 new then (acc.1 ++ [new], acc.2 + 1) else acc

/-- `store_print_jobs`: the table afterwards and the number of rows inserted. -/
def storePrintJobs (table : List PrintJobRow) (d : Delivery) : List PrintJobRow × Nat :=
  d.jobs.foldl (insertJob d.deviceId d.receivedAt) (table, 0)

def printStore : Machine (List PrintJobRow) Delivery Nat where
  next table d := (storePrintJobs table d).1
  out table d := (storePrintJobs table d).2

/-- The jobs of a device in the table. -/
def storedJobs (table : List PrintJobRow) (deviceId : String) : List PrintJobRecord :=
  (table.filter fun r => r.deviceId = deviceId).map (·.job)

/-- The jobs of a device in the calls. -/
def deliveredJobs (deliveries : List Delivery) (deviceId : String) : List PrintJobRecord :=
  (deliveries.filter fun d => d.deviceId = deviceId).flatMap (·.jobs)

/-- One row for each delivered job, and no other row. -/
structure StoredOnce (table : List PrintJobRow) (deliveries : List Delivery)
    (deviceId : String) : Prop where
  once : (storedJobs table deviceId).Nodup
  exact : ∀ j, j ∈ storedJobs table deviceId ↔ j ∈ deliveredJobs deliveries deviceId

/-- No two jobs of the device have the same id on the same day. -/
def IdsDistinctByDay (jobs : List PrintJobRecord) : Prop :=
  ∀ j ∈ jobs, ∀ k ∈ jobs, j.jobId = k.jobId → j.day = k.day → j = k

/-! ### What a delivery does -/

def Delivery.rows (d : Delivery) : List PrintJobRow :=
  d.jobs.map fun job => { deviceId := d.deviceId, job, receivedAt := d.receivedAt }

theorem insertJob_fst (deviceId receivedAt : String) (acc : List PrintJobRow × Nat)
    (job : PrintJobRecord) : (insertJob deviceId receivedAt acc job).1 =
      insertOrIgnore PrintJobRow.dedupKey acc.1 { deviceId, job, receivedAt } := by
  simp only [insertJob]
  by_cases hfresh : Fresh PrintJobRow.dedupKey acc.1 { deviceId, job, receivedAt }
  · rw [if_pos hfresh, insertOrIgnore_of_fresh hfresh]
  · rw [if_neg hfresh, insertOrIgnore_of_not_fresh hfresh]

theorem storePrintJobs_fst (table : List PrintJobRow) (d : Delivery) :
    (storePrintJobs table d).1 = d.rows.foldl (insertOrIgnore PrintJobRow.dedupKey) table := by
  have hfold : ∀ (jobs : List PrintJobRecord) (acc : List PrintJobRow × Nat),
      (jobs.foldl (insertJob d.deviceId d.receivedAt) acc).1 =
        (jobs.map fun job => (⟨d.deviceId, job, d.receivedAt⟩ : PrintJobRow)).foldl
          (insertOrIgnore PrintJobRow.dedupKey) acc.1 := by
    intro jobs
    induction jobs with
    | nil => exact fun _ => rfl
    | cons job jobs ih =>
      intro acc
      rw [List.foldl_cons, ih, insertJob_fst, List.map_cons, List.foldl_cons]
  exact hfold d.jobs (table, 0)

/-- The calls insert the rows of all deliveries, one after the other. -/
theorem stateAfter_printStore (deliveries : List Delivery) (table : List PrintJobRow) :
    printStore.stateAfter table deliveries =
      (deliveries.flatMap Delivery.rows).foldl (insertOrIgnore PrintJobRow.dedupKey) table := by
  induction deliveries generalizing table with
  | nil => rfl
  | cons d deliveries ih =>
    rw [Machine.stateAfter_cons, ih, List.flatMap_cons, List.foldl_append,
      ← storePrintJobs_fst]
    rfl

theorem delivered_of_row {deliveries : List Delivery} {r : PrintJobRow}
    (h : r ∈ deliveries.flatMap Delivery.rows) : r.job ∈ deliveredJobs deliveries r.deviceId := by
  obtain ⟨d, hd, hr⟩ := List.mem_flatMap.mp h
  obtain ⟨job, hjob, rfl⟩ := List.mem_map.mp hr
  exact List.mem_flatMap.mpr ⟨d, List.mem_filter.mpr ⟨hd, by simp⟩, hjob⟩

theorem rows_of_delivered {deliveries : List Delivery} {deviceId : String} {j : PrintJobRecord}
    (h : j ∈ deliveredJobs deliveries deviceId) : ∃ r ∈ deliveries.flatMap Delivery.rows,
      r.deviceId = deviceId ∧ r.job = j := by
  obtain ⟨d, hd, hj⟩ := List.mem_flatMap.mp h
  obtain ⟨hcall, hdevice⟩ := List.mem_filter.mp hd
  exact ⟨_, List.mem_flatMap.mpr ⟨d, hcall, List.mem_map_of_mem hj⟩, by simpa using hdevice, rfl⟩

/-! ### The table -/

section Store

variable (deliveries : List Delivery)

theorem nodup_keys_stored :
    ((printStore.stateAfter [] deliveries).filterMap PrintJobRow.dedupKey).Nodup := by
  rw [stateAfter_printStore]
  apply nodup_foldl_insertOrIgnore
  exact List.nodup_nil

variable {deliveries}

/-- Two stored rows with one key are one row. -/
theorem eq_of_dedupKey {table : List PrintJobRow}
    (hnodup : (table.filterMap PrintJobRow.dedupKey).Nodup) {r s : PrintJobRow} (hr : r ∈ table)
    (hs : s ∈ table) {k : String × Int × List Char} (hrk : r.dedupKey = some k)
    (hsk : s.dedupKey = some k) : r = s := by
  by_contra hne
  have hpairs : table.Pairwise fun a b => ∀ x ∈ a.dedupKey, ∀ y ∈ b.dedupKey, x ≠ y :=
    List.pairwise_filterMap.mp hnodup
  have hsymm : Std.Symm fun a b : PrintJobRow => ∀ x ∈ a.dedupKey, ∀ y ∈ b.dedupKey, x ≠ y :=
    ⟨fun a b h x hx y hy => Ne.symm (h y hy x hx)⟩
  exact hpairs.forall hr hs hne k hrk k hsk rfl

theorem mem_stored {r : PrintJobRow} (h : r ∈ printStore.stateAfter [] deliveries) :
    r ∈ deliveries.flatMap Delivery.rows := by
  rw [stateAfter_printStore] at h
  rcases mem_foldl_insertOrIgnore h with hnil | hnew
  · cases hnil
  · exact hnew

/-- The key of a delivered row is in the table. -/
theorem key_stored {r : PrintJobRow} (h : r ∈ deliveries.flatMap Delivery.rows)
    {k : String × Int × List Char} (hk : r.dedupKey = some k) :
    ∃ s ∈ printStore.stateAfter [] deliveries, s.dedupKey = some k := by
  rw [stateAfter_printStore]
  apply List.mem_filterMap.mp
  rw [mem_keys_foldl_insertOrIgnore]
  exact Or.inr (List.mem_filterMap.mpr ⟨r, h, hk⟩)

theorem dedupKey_eq_some {r : PrintJobRow} {k : String × Int × List Char} :
    r.dedupKey = some k ↔ r.deviceId = k.1 ∧ r.job.jobId = some k.2.1 ∧ r.job.day = k.2.2 := by
  obtain ⟨deviceId, jobId, day⟩ := k
  simp only [PrintJobRow.dedupKey, Option.map_eq_some_iff, Prod.mk.injEq]
  constructor
  · rintro ⟨_, hid, hdevice, rfl, hday⟩
    exact ⟨hdevice, hid, hday⟩
  · rintro ⟨hdevice, hid, hday⟩
    exact ⟨jobId, hid, hdevice, rfl, hday⟩

theorem mem_storedJobs {table : List PrintJobRow} {deviceId : String} {j : PrintJobRecord} :
    j ∈ storedJobs table deviceId ↔ ∃ r ∈ table, r.deviceId = deviceId ∧ r.job = j := by
  simp only [storedJobs, List.mem_map, List.mem_filter, decide_eq_true_eq, and_assoc]

/-- Jobs with an id are never stored twice. -/
theorem nodup_storedJobs {table : List PrintJobRow} {deviceId : String}
    (hnodup : (table.filterMap PrintJobRow.dedupKey).Nodup)
    (hids : ∀ j ∈ storedJobs table deviceId, j.jobId.isSome) :
    (storedJobs table deviceId).Nodup := by
  unfold storedJobs
  have hpairs := (List.pairwise_filterMap.mp hnodup).filter fun r => r.deviceId = deviceId
  apply List.pairwise_map.mpr
  refine hpairs.imp_of_mem ?_
  intro a b ha hb hne heq
  have hjob : a.job ∈ storedJobs table deviceId := List.mem_map_of_mem ha
  obtain ⟨jobId, hid⟩ := Option.isSome_iff_exists.mp (hids _ hjob)
  have hadevice : a.deviceId = deviceId := by simpa using (List.mem_filter.mp ha).2
  have hbdevice : b.deviceId = deviceId := by simpa using (List.mem_filter.mp hb).2
  have hak : a.dedupKey = some (deviceId, jobId, a.job.day) :=
    dedupKey_eq_some.mpr ⟨hadevice, hid, rfl⟩
  have hbk : b.dedupKey = some (deviceId, jobId, a.job.day) :=
    dedupKey_eq_some.mpr ⟨hbdevice, heq ▸ hid, by rw [heq]⟩
  exact hne _ hak _ hbk rfl

end Store

/-- **The table ends with one row for each delivered job, exactly when no two jobs of the device
    have the same id on the same day.** -/
theorem print_dedup_iff (deliveries : List Delivery) (deviceId : String)
    (hids : ∀ j ∈ deliveredJobs deliveries deviceId, j.jobId.isSome) :
    StoredOnce (printStore.stateAfter [] deliveries) deliveries deviceId ↔
      IdsDistinctByDay (deliveredJobs deliveries deviceId) := by
  have hnodup := nodup_keys_stored deliveries
  have hsub : ∀ j ∈ storedJobs (printStore.stateAfter [] deliveries) deviceId,
      j ∈ deliveredJobs deliveries deviceId := by
    intro j hj
    obtain ⟨r, hr, rfl, rfl⟩ := mem_storedJobs.mp hj
    exact delivered_of_row (mem_stored hr)
  constructor
  · intro h j hj k hk hid hday
    obtain ⟨r, hr, hrdevice, rfl⟩ := mem_storedJobs.mp ((h.exact j).mpr hj)
    obtain ⟨s, hs, hsdevice, rfl⟩ := mem_storedJobs.mp ((h.exact k).mpr hk)
    obtain ⟨jobId, hjobId⟩ := Option.isSome_iff_exists.mp (hids _ hj)
    have hrk : r.dedupKey = some (deviceId, jobId, r.job.day) :=
      dedupKey_eq_some.mpr ⟨hrdevice, hjobId, rfl⟩
    have hsk : s.dedupKey = some (deviceId, jobId, r.job.day) :=
      dedupKey_eq_some.mpr ⟨hsdevice, hid ▸ hjobId, hday.symm⟩
    rw [eq_of_dedupKey hnodup hr hs hrk hsk]
  · intro h
    refine ⟨nodup_storedJobs hnodup fun j hj => hids j (hsub j hj), fun j => ⟨hsub j, ?_⟩⟩
    intro hj
    obtain ⟨r, hr, rfl, rfl⟩ := rows_of_delivered hj
    obtain ⟨jobId, hjobId⟩ := Option.isSome_iff_exists.mp (hids _ hj)
    have hrk : r.dedupKey = some (r.deviceId, jobId, r.job.day) :=
      dedupKey_eq_some.mpr ⟨rfl, hjobId, rfl⟩
    obtain ⟨s, hs, hsk⟩ := key_stored hr hrk
    obtain ⟨hsdevice, hsid, hsday⟩ := dedupKey_eq_some.mp hsk
    -- the row that took the key is that of the same job
    have hsjob : s.job ∈ deliveredJobs deliveries r.deviceId := by
      have hmem := delivered_of_row (mem_stored hs)
      rwa [hsdevice] at hmem
    have hsame := h _ hsjob _ hj (hsid.trans hjobId.symm) hsday
    exact mem_storedJobs.mpr ⟨s, hs, hsdevice, hsame⟩

/-- Two sweeps with a job in common, and a second delivery of the first one. -/
theorem resent_sweep_stored_once :
    let monday : PrintJobRecord :=
      { jobId := some 2, ts := "2026-03-02T08:00:00.0000000Z", printer := "HP", pages := 3 }
    let tuesday : PrintJobRecord :=
      { jobId := some 2, ts := "2026-03-03T08:00:00.0000000Z", printer := "HP", pages := 5 }
    StoredOnce (printStore.stateAfter [] [⟨"PC-1", [monday], "a"⟩, ⟨"PC-1", [tuesday, monday], "b"⟩])
      [⟨"PC-1", [monday], "a"⟩, ⟨"PC-1", [tuesday, monday], "b"⟩] "PC-1" := by
  refine (print_dedup_iff _ "PC-1" ?_).mpr ?_
  · decide
  · unfold IdsDistinctByDay
    decide +kernel

/-- A job and, after a restart of the spooler on the same day, another one with its id. -/
def restartedSpooler : List Delivery :=
  [⟨"PC-1", [{ jobId := some 2, ts := "2026-03-02T08:00:00.0000000Z", printer := "HP",
               pages := 3 }], "a"⟩,
   ⟨"PC-1", [{ jobId := some 2, ts := "2026-03-02T15:00:00.0000000Z", printer := "HP",
               pages := 40 }], "b"⟩]

/-- The second job is taken for the first one. -/
theorem second_job_lost :
    ¬ StoredOnce (printStore.stateAfter [] restartedSpooler) restartedSpooler "PC-1" := by
  intro h
  have hlost := (h.exact { jobId := some 2, ts := "2026-03-02T15:00:00.0000000Z", printer := "HP",
                           pages := 40 }).mpr (by decide)
  revert hlost
  decide +kernel

end Srp.Db
