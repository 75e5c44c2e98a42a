/-
  Srp/Db/EventRollup.lean
  =======================
  **Event storage and the daily event rollup (`server/db.py`).**

  `store_events` appends a batch to `events`, folds the day of its receipt into
  `event_rollup_daily`, and then cuts the device's rows to the newest `_retain_ev`.
  A fold counts the rows that are left of the day, keeps the 64 most frequent keys
  of each device, and merges their counts into the rollup with `MAX`.

  `events` is the list of its rows in `id` order (the column is `AUTOINCREMENT`).
-/
import Mathlib.Data.List.Sort
import Srp.Lib.GroupBy
import Srp.Lib.Machine
import Srp.Lib.PyNum
import Srp.Lib.Table
import Srp.Lib.Window

namespace Srp.Db

open Srp.Lib Srp.Lib.GroupBy Srp.Lib.PyNum Srp.Lib.Table Srp.Lib.Window

/-! ### Rows -/

/-- What the `INTEGER` column `event_id` holds; the fold reads it through an f-string.
    `other` is a value that the column does not convert to an integer. -/
inductive EventId where
  | integer (n : Int)
  | other (text : String)
deriving DecidableEq, Repr

def EventId.text : EventId → String
  | .integer n => toString n
  | .other text => text

/-- SQLite integers have 64 bits; binding a larger one raises `OverflowError`. -/
def EventId.fits : EventId → Bool
  | .integer n => -2 ^ 63 ≤ n ∧ n < 2 ^ 63
  | .other _ => true

structure EventItem where
  ts : Option String := none
  log : Option String := none
  source : Option String := none
  eventId : Option EventId := none
  level : Option String := none
  message : Option String := none
deriving DecidableEq, Repr

structure EventRow where
  deviceId : String
  ts : Option String
  log : Option String
  source : Option String
  eventId : Option EventId
  level : Option String
  message : String
  receivedAt : String
  clockDriftSec : Option ℚ
deriving DecidableEq, Repr

structure RollupRow where
  deviceId : String
  day : String
  eventKey : String
  n : Nat
deriving DecidableEq, Repr

/-- The primary key of `event_rollup_daily`. -/
def RollupRow.key (r : RollupRow) : String × String × String := (r.deviceId, r.day, r.eventKey)

structure EventTables where
  events : List EventRow := []
  rollup : List RollupRow := []
deriving DecidableEq, Repr

/-! ### The fold -/

def eventSourceMaxLen : Nat := 64

def maxEventKeysPerDeviceDay : Nat := 64

/-- `text[:n]`. -/
def sliceText (n : Nat) (text : String) : String := String.ofList (text.toList.take n)

/-- `substr(received_at,1,10)`. -/
def EventRow.day (r : EventRow) : String := sliceText 10 r.receivedAt

/-- `f"{source}:{event_id}"`; a row without `event_id` has no key. -/
def EventRow.eventKey (r : EventRow) : Option String :=
  r.eventId.map fun id => sliceText eventSourceMaxLen (r.source.getD "") ++ ":" ++ id.text

/-- `counts[key] = counts.get(key, 0) + 1` for each row that has a key. -/
def countEvents (rows : List EventRow) : List ((String × String) × Nat) :=
  rows.foldl (fun counts r =>
    match r.eventKey with
    | none => counts
    | some key => upsert Prod.fst (fun old _ => (old.1, old.2 + 1)) ((r.deviceId, key), 1) counts)
    []

/-- The `event_key` counts of one device, the most frequent first. -/
def sortedPairs (counts : List ((String × String) × Nat)) (deviceId : String) :
    List ((String × String) × Nat) :=
  (group (fun p => p.1.1) counts deviceId).insertionSort fun p q => q.2 ≤ p.2

def capEventKeysPerDevice (counts : List ((String × String) × Nat)) :
    List ((String × String) × Nat) :=
  (keys (fun p => p.1.1) counts).flatMap fun deviceId =>
    (sortedPairs counts deviceId).take maxEventKeysPerDeviceDay

/-- The `WHERE` of the fold: one UTC day, and one device or all of them. -/
def foldedRows (events : List EventRow) (day : String) (deviceId : Option String) :
    List EventRow :=
  match deviceId with
  | none => events.filter fun r => r.day = day
  | some d => events.filter fun r => r.deviceId = d ∧ r.day = day

/-- The tuples that the fold hands to `executemany`. -/
def foldRows (events : List EventRow) (day : String) (deviceId : Option String) :
    List RollupRow :=
  (capEventKeysPerDevice (countEvents (foldedRows events day deviceId))).map fun p =>
    ⟨p.1.1, day, p.1.2, p.2⟩

/-- `ON CONFLICT ... DO UPDATE SET n = MAX(n, excluded.n)`. -/
def maxCount (old new : RollupRow) : RollupRow := { old with n := max old.n new.n }

/-- `_rollup_events_daily_conn`: the rollup afterwards, and the number of tuples. -/
def rollupEventsDailyConn (tables : EventTables) (day : String) (deviceId : Option String) :
    List RollupRow × Nat :=
  (upsertAll RollupRow.key maxCount (foldRows tables.events day deviceId) tables.rollup,
    (foldRows tables.events day deviceId).length)

def rollupEventsDaily (tables : EventTables) (day : String) : EventTables × Nat :=
  ({ tables with rollup := (rollupEventsDailyConn tables day none).1 },
    (rollupEventsDailyConn tables day none).2)

/-! ### `store_events` -/

/-- The arguments of one call, and what `_now_iso()` reads in it. -/
structure EventBatch where
  deviceId : String
  events : List EventItem
  receivedAt : Option String := none
  clockDriftSec : Option ℚ := none
  now : String := ""
deriving DecidableEq, Repr

namespace EventBatch

/-- `received_at or _now_iso()`. -/
def recv (b : EventBatch) : String :=
  match b.receivedAt with
  | none => b.now
  | some text => if text = "" then b.now else text

def rows (b : EventBatch) : List EventRow :=
  b.events.map fun e =>
    { deviceId := b.deviceId, ts := e.ts, log := e.log, source := e.source,
      eventId := e.eventId, level := e.level, message := sliceText 500 (e.message.getD ""),
      receivedAt := b.recv, clockDriftSec := b.clockDriftSec }

def fits (b : EventBatch) : Bool := b.events.all fun e => e.eventId.all EventId.fits

end EventBatch

/-- `store_events` with `_retain_ev = cap`; what raises is rolled back. -/
def storeEvents (cap : Int) (tables : EventTables) (b : EventBatch) :
    Except PyError EventTables :=
  if b.events = [] then .ok tables
  else if b.fits then
    let inserted : EventTables := { tables with events := tables.events ++ b.rows }
    .ok { events := prune (fun r => r.deviceId = b.deviceId) cap inserted.events
          rollup := (rollupEventsDailyConn inserted (sliceText 10 b.recv) (some b.deviceId)).1 }
  else .error .overflowError

/-! ### Runs -/

inductive EventCall where
  | storeEvents (batch : EventBatch)
  | rollupEventsDaily (day : String)
deriving DecidableEq, Repr

def eventStore (cap : Int) : Machine EventTables EventCall (Except PyError (Option Nat)) where
  next
    | tables, .storeEvents b => ((storeEvents cap tables b).toOption).getD tables
    | tables, .rollupEventsDaily day => (rollupEventsDaily tables day).1
  out
    | tables, .storeEvents b => (storeEvents cap tables b).map fun _ => none
    | tables, .rollupEventsDaily day => .ok (some (rollupEventsDaily tables day).2)

/-- `event_rollup_daily.n`, and 0 where there is no row. -/
def rolledUp (rollup : List RollupRow) (deviceId day eventKey : String) : Nat :=
  ((row RollupRow.key rollup (deviceId, day, eventKey)).map RollupRow.n).getD 0

/-! ### Counting -/

/-- How many of the rows are events of the device with the key. -/
def countKey (deviceId eventKey : String) (rows : List EventRow) : Nat :=
  rows.countP fun r => r.deviceId = deviceId ∧ r.eventKey = some eventKey

theorem countKey_append (deviceId eventKey : String) (rows rows' : List EventRow) :
    countKey deviceId eventKey (rows ++ rows') =
      countKey deviceId eventKey rows + countKey deviceId eventKey rows' :=
  List.countP_append

theorem countKey_pos {deviceId eventKey : String} {rows : List EventRow} :
    0 < countKey deviceId eventKey rows ↔
      ∃ r ∈ rows, r.deviceId = deviceId ∧ r.eventKey = some eventKey := by
  unfold countKey
  rw [List.countP_pos_iff]
  simp

theorem countEvents_append (rows : List EventRow) (r : EventRow) :
    countEvents (rows ++ [r]) = match r.eventKey with
      | none => countEvents rows
      | some key => upsert Prod.fst (fun old _ => (old.1, old.2 + 1)) ((r.deviceId, key), 1)
          (countEvents rows) := by
  unfold countEvents
  rw [List.foldl_append]
  rfl

theorem countEvents_nodup (rows : List EventRow) : ((countEvents rows).map Prod.fst).Nodup := by
  induction rows using List.reverseRecOn with
  | nil => exact List.nodup_nil
  | append_singleton rows r ih =>
    rw [countEvents_append]
    cases r.eventKey with
    | none => exact ih
    | some key => exact nodup_keys_upsert (fun _ h => h) ih

theorem row_countEvents (rows : List EventRow) (deviceId eventKey : String) :
    row Prod.fst (countEvents rows) (deviceId, eventKey) =
      if countKey deviceId eventKey rows = 0 then none
      else some ((deviceId, eventKey), countKey deviceId eventKey rows) := by
  induction rows using List.reverseRecOn with
  | nil => rfl
  | append_singleton rows r ih =>
    rw [countEvents_append, countKey_append]
    cases hkey : r.eventKey with
    | none =>
      have hzero : countKey deviceId eventKey [r] = 0 := by simp [countKey, hkey]
      rw [hzero, Nat.add_zero]
      exact ih
    | some key =>
      dsimp only
      rw [row_upsert fun _ h => h, ih]
      by_cases heq : (deviceId, eventKey) = (r.deviceId, key)
      · obtain ⟨rfl, rfl⟩ := Prod.mk.inj heq
        have hone : countKey r.deviceId eventKey [r] = 1 := by simp [countKey, hkey]
        rw [if_pos rfl, hone, if_neg (Nat.succ_ne_zero _)]
        by_cases hzero : countKey r.deviceId eventKey rows = 0
        · simp [hzero]
        · simp [hzero]
      · have hzero : countKey deviceId eventKey [r] = 0 := by
          have hne : ¬ (r.deviceId = deviceId ∧ r.eventKey = some eventKey) := by
            rintro ⟨hd, hk⟩
            rw [hkey] at hk
            exact heq (by rw [hd, Option.some.inj hk])
          simp only [countKey, List.countP_singleton, decide_eq_true_eq, if_neg hne]
        rw [if_neg heq, hzero, Nat.add_zero]

theorem mem_countEvents {rows : List EventRow} {deviceId eventKey : String} {n : Nat} :
    ((deviceId, eventKey), n) ∈ countEvents rows ↔
      0 < n ∧ n = countKey deviceId eventKey rows := by
  have hrow := row_countEvents rows deviceId eventKey
  constructor
  · intro h
    rw [row_of_mem (countEvents_nodup rows) h] at hrow
    by_cases hzero : countKey deviceId eventKey rows = 0
    · simp [hzero] at hrow
    · rw [if_neg hzero] at hrow
      have hn : n = countKey deviceId eventKey rows := by simpa using hrow
      omega
  · rintro ⟨hpos, rfl⟩
    rw [if_neg (by omega)] at hrow
    exact (row_eq_some hrow).1

/-! ### The keys of a device -/

section Keys

variable {deviceId eventKey : String} {rows : List EventRow}

/-- The keys of the events of a device, in order of first appearance. -/
def keysOf (deviceId : String) (rows : List EventRow) : List String :=
  ((rows.filter fun r => r.deviceId = deviceId).filterMap EventRow.eventKey).eraseDups

theorem keysOf_nodup (deviceId : String) (rows : List EventRow) : (keysOf deviceId rows).Nodup :=
  nodup_eraseDups _

theorem mem_keysOf : eventKey ∈ keysOf deviceId rows ↔ 0 < countKey deviceId eventKey rows := by
  rw [countKey_pos]
  simp [keysOf, and_assoc]

theorem length_keysOf_le {ks : List String} (h : ∀ k, 0 < countKey deviceId k rows → k ∈ ks) :
    (keysOf deviceId rows).length ≤ ks.dedup.length := by
  have hsub : keysOf deviceId rows ⊆ ks.dedup := by
    intro k hk
    exact List.mem_dedup.mpr (h k (mem_keysOf.mp hk))
  exact ((keysOf_nodup deviceId rows).subperm hsub).length_le

theorem keysOf_append (r : EventRow) : keysOf deviceId (rows ++ [r]) =
    match r.eventKey with
    | none => keysOf deviceId rows
    | some key =>
      if r.deviceId = deviceId ∧ key ∉ keysOf deviceId rows then keysOf deviceId rows ++ [key]
      else keysOf deviceId rows := by
  unfold keysOf
  by_cases hdevice : r.deviceId = deviceId
  · cases hkey : r.eventKey with
    | none => simp [hdevice, hkey]
    | some key =>
      have hlast : (rows ++ [r]).filter (fun r => decide (r.deviceId = deviceId)) =
          rows.filter (fun r => decide (r.deviceId = deviceId)) ++ [r] := by simp [hdevice]
      rw [hlast, List.filterMap_append, List.eraseDups_append]
      by_cases hmem : key ∈ (rows.filter fun r => r.deviceId = deviceId).filterMap EventRow.eventKey
      · simp [hkey, hdevice, List.removeAll, hmem]
      · simp [hkey, hdevice, List.removeAll, hmem, List.eraseDups_cons]
  · cases r.eventKey <;> simp [hdevice]

theorem fst_group_countEvents (deviceId : String) (rows : List EventRow) :
    (group (fun p => p.1.1) (countEvents rows) deviceId).map Prod.fst =
      (keysOf deviceId rows).map (Prod.mk deviceId) := by
  have hfilter : ∀ counts : List ((String × String) × Nat),
      (group (fun p => p.1.1) counts deviceId).map Prod.fst =
        (counts.map Prod.fst).filter fun k => k.1 = deviceId := by
    intro counts
    rw [List.filter_map]
    rfl
  rw [hfilter]
  induction rows using List.reverseRecOn with
  | nil => rfl
  | append_singleton rows r ih =>
    rw [countEvents_append, keysOf_append]
    cases r.eventKey with
    | none => exact ih
    | some key =>
      have hseen : ∀ d, d = deviceId →
          ((d, key) ∈ (countEvents rows).map Prod.fst ↔ key ∈ keysOf deviceId rows) := by
        rintro d rfl
        have hmem : (d, key) ∈ ((countEvents rows).map Prod.fst).filter (fun k => k.1 = d) ↔
            (d, key) ∈ (keysOf d rows).map (Prod.mk d) := by rw [ih]
        simpa using hmem
      dsimp only
      rw [keys_upsert fun _ h => h]
      by_cases hdevice : r.deviceId = deviceId
      · by_cases hmem : key ∈ keysOf deviceId rows
        · rw [if_pos ((hseen _ hdevice).mpr hmem), if_neg fun h => h.2 hmem, ih]
        · rw [if_neg fun h => hmem ((hseen _ hdevice).mp h), if_pos ⟨hdevice, hmem⟩,
            List.filter_append, ih]
          simp [hdevice]
      · rw [if_neg fun h : _ ∧ _ => hdevice h.1]
        split
        · exact ih
        · rw [List.filter_append, ih]
          simp [hdevice]

/-- The pairs of a device are its keys with their counts. -/
theorem group_countEvents (deviceId : String) (rows : List EventRow) :
    group (fun p => p.1.1) (countEvents rows) deviceId =
      (keysOf deviceId rows).map fun k => ((deviceId, k), countKey deviceId k rows) := by
  have hpairs : group (fun p => p.1.1) (countEvents rows) deviceId =
      ((group (fun p => p.1.1) (countEvents rows) deviceId).map Prod.fst).map
        fun k => (k, countKey k.1 k.2 rows) := by
    rw [List.map_map, List.map_congr_left (g := id), List.map_id]
    rintro ⟨⟨d, k⟩, n⟩ hp
    obtain ⟨-, rfl⟩ := mem_countEvents.mp (mem_group.mp hp).1
    rfl
  rw [hpairs, fst_group_countEvents, List.map_map]
  rfl

end Keys

/-! ### The cap -/

/-- The order of `pairs.sort(key=lambda p: p[1], reverse=True)`. -/
def NoRarer (deviceId : String) (rows : List EventRow) (j k : String) : Prop :=
  countKey deviceId k rows ≤ countKey deviceId j rows

section Cap

variable {deviceId eventKey : String} {rows : List EventRow}

theorem mem_sortedPairs {counts : List ((String × String) × Nat)} {p : (String × String) × Nat} :
    p ∈ sortedPairs counts deviceId ↔ p ∈ counts ∧ p.1.1 = deviceId := by
  unfold sortedPairs
  rw [List.mem_insertionSort, mem_group]

instance : DecidableRel (NoRarer deviceId rows) := fun _ _ => inferInstanceAs (Decidable (_ ≤ _))

instance : Std.Total (NoRarer deviceId rows) := ⟨fun _ _ => le_total _ _⟩

instance : IsTrans String (NoRarer deviceId rows) := ⟨fun _ _ _ hij hjk => le_trans hjk hij⟩

/-- How many keys of the device are more frequent, or as frequent and seen before. -/
def seatRank (deviceId : String) (rows : List EventRow) (eventKey : String) : Nat :=
  (keysOf deviceId rows).countP fun k =>
    Ahead (NoRarer deviceId rows) (keysOf deviceId rows) k eventKey

theorem sortedPairs_countEvents (deviceId : String) (rows : List EventRow) :
    sortedPairs (countEvents rows) deviceId =
      ((keysOf deviceId rows).insertionSort (NoRarer deviceId rows)).map
        fun k => ((deviceId, k), countKey deviceId k rows) := by
  unfold sortedPairs
  rw [group_countEvents]
  symm
  apply List.map_insertionSort
  intro j _ k _
  exact Iff.rfl

/-- The cap keeps the keys with fewer than 64 keys of the device ahead of them. -/
theorem mem_cap {n : Nat} :
    ((deviceId, eventKey), n) ∈ capEventKeysPerDevice (countEvents rows) ↔
      eventKey ∈ keysOf deviceId rows ∧
        seatRank deviceId rows eventKey < maxEventKeysPerDeviceDay ∧
          n = countKey deviceId eventKey rows := by
  have htake : ∀ d, (sortedPairs (countEvents rows) d).take maxEventKeysPerDeviceDay =
      (((keysOf d rows).insertionSort (NoRarer d rows)).take maxEventKeysPerDeviceDay).map
        fun k => ((d, k), countKey d k rows) := by
    intro d
    rw [sortedPairs_countEvents, List.map_take]
  unfold capEventKeysPerDevice seatRank
  rw [List.mem_flatMap]
  constructor
  · rintro ⟨d, -, hp⟩
    rw [htake] at hp
    obtain ⟨k, hk, heq⟩ := List.mem_map.mp hp
    obtain ⟨⟨rfl, rfl⟩, rfl⟩ : (d = deviceId ∧ k = eventKey) ∧ countKey d k rows = n := by
      simpa using heq
    obtain ⟨hmem, hrank⟩ := (mem_take_insertionSort (keysOf_nodup d rows)).mp hk
    exact ⟨hmem, hrank, rfl⟩
  · rintro ⟨hmem, hrank, rfl⟩
    refine ⟨deviceId, ?_, ?_⟩
    · exact mem_keys.mpr ⟨_, mem_countEvents.mpr ⟨mem_keysOf.mp hmem, rfl⟩, rfl⟩
    · rw [htake]
      apply List.mem_map_of_mem
      exact (mem_take_insertionSort (keysOf_nodup deviceId rows)).mpr ⟨hmem, hrank⟩

theorem seatRank_lt_of_few (hmem : eventKey ∈ keysOf deviceId rows)
    (hfew : (keysOf deviceId rows).length ≤ maxEventKeysPerDeviceDay) :
    seatRank deviceId rows eventKey < maxEventKeysPerDeviceDay := by
  refine lt_of_lt_of_le ?_ hfew
  apply List.countP_lt_length_iff.mpr
  refine ⟨eventKey, hmem, ?_⟩
  have hirrefl := fun h : Ahead (NoRarer deviceId rows) (keysOf deviceId rows) eventKey eventKey =>
    h.asymm (keysOf_nodup deviceId rows) h
  simpa using hirrefl

theorem seatRank_eq_zero
    (hloud : ∀ k ∈ keysOf deviceId rows, k ≠ eventKey →
      countKey deviceId k rows < countKey deviceId eventKey rows) :
    seatRank deviceId rows eventKey = 0 := by
  apply List.countP_eq_zero.mpr
  intro k hk hahead
  obtain ⟨hle, hties⟩ := of_decide_eq_true hahead
  by_cases hne : k = eventKey
  · subst hne
    exact not_pair_sublist_swap (keysOf_nodup deviceId rows) (hties hle) (hties hle)
  · exact absurd hle (Nat.not_le.mpr (hloud k hk hne))

theorem cap_nodup {counts : List ((String × String) × Nat)} (h : (counts.map Prod.fst).Nodup) :
    ((capEventKeysPerDevice counts).map Prod.fst).Nodup := by
  unfold capEventKeysPerDevice
  rw [List.map_flatMap, List.nodup_flatMap]
  constructor
  · intro d _
    have hsorted : ((sortedPairs counts d).map Prod.fst).Nodup := by
      have hperm := ((group (fun p => p.1.1) counts d).perm_insertionSort
        fun p q => q.2 ≤ p.2).map Prod.fst
      exact hperm.nodup_iff.mpr (h.sublist (List.filter_sublist.map Prod.fst))
    exact hsorted.sublist ((List.take_sublist _ _).map Prod.fst)
  · refine (keys_nodup _ counts).imp_of_mem ?_
    intro d d' _ _ hne k hk hk'
    obtain ⟨p, hp, rfl⟩ := List.mem_map.mp hk
    obtain ⟨q, hq, hpq⟩ := List.mem_map.mp hk'
    have hpd := (mem_sortedPairs.mp (List.mem_of_mem_take hp)).2
    have hqd := (mem_sortedPairs.mp (List.mem_of_mem_take hq)).2
    exact hne (hpd.symm.trans (hpq ▸ hqd))

end Cap

/-! ### The merge -/

theorem maxCount_key (old new : RollupRow) (h : RollupRow.key old = RollupRow.key new) :
    RollupRow.key (maxCount old new) = RollupRow.key new := h

theorem rolledUp_upsertAll_le {news rollup : List RollupRow} {deviceId day eventKey : String}
    {m : Nat} : rolledUp (upsertAll RollupRow.key maxCount news rollup) deviceId day eventKey ≤ m ↔
      rolledUp rollup deviceId day eventKey ≤ m ∧
        ∀ r ∈ news, r.key = (deviceId, day, eventKey) → r.n ≤ m := by
  induction news generalizing rollup with
  | nil => simp [upsertAll]
  | cons new news ih =>
    have hone : rolledUp (upsert RollupRow.key maxCount new rollup) deviceId day eventKey ≤ m ↔
        rolledUp rollup deviceId day eventKey ≤ m ∧
          (new.key = (deviceId, day, eventKey) → new.n ≤ m) := by
      unfold rolledUp
      rw [row_upsert fun old => maxCount_key old new]
      by_cases hkey : (deviceId, day, eventKey) = new.key
      · rw [if_pos hkey, hkey]
        cases row RollupRow.key rollup new.key with
        | none => simp
        | some old => simp [maxCount]
      · rw [if_neg hkey]
        exact ⟨fun h => ⟨h, fun h' => absurd h'.symm hkey⟩, fun h => h.1⟩
    rw [upsertAll_cons, ih, hone, List.forall_mem_cons, and_assoc]

def dayRows (events : List EventRow) (deviceId day : String) : List EventRow :=
  events.filter fun r => r.deviceId = deviceId ∧ r.day = day

theorem countKey_foldedRows (events : List EventRow) (day eventKey : String) {deviceId : String}
    {who : Option String} (hwho : who = none ∨ who = some deviceId) :
    countKey deviceId eventKey (foldedRows events day who) =
      countKey deviceId eventKey (dayRows events deviceId day) := by
  rcases hwho with rfl | rfl
  · unfold foldedRows dayRows countKey
    rw [List.countP_filter, List.countP_filter]
    refine List.countP_congr fun r _ => ?_
    simp only [Bool.and_eq_true, decide_eq_true_eq]
    tauto
  · rfl

theorem keysOf_foldedRows (events : List EventRow) (day : String) {deviceId : String}
    {who : Option String} (hwho : who = none ∨ who = some deviceId) :
    keysOf deviceId (foldedRows events day who) =
      keysOf deviceId (dayRows events deviceId day) := by
  have hrows : (foldedRows events day who).filter (fun r => r.deviceId = deviceId) =
      (dayRows events deviceId day).filter fun r => r.deviceId = deviceId := by
    rcases hwho with rfl | rfl
    · unfold foldedRows dayRows
      rw [List.filter_filter, List.filter_filter]
      refine List.filter_congr fun r _ => ?_
      simp only [Bool.decide_and]
      cases decide (r.deviceId = deviceId) <;> simp
    · rfl
  unfold keysOf
  rw [hrows]

theorem seatRank_foldedRows (events : List EventRow) (day eventKey : String) {deviceId : String}
    {who : Option String} (hwho : who = none ∨ who = some deviceId) :
    seatRank deviceId (foldedRows events day who) eventKey =
      seatRank deviceId (dayRows events deviceId day) eventKey := by
  have horder : NoRarer deviceId (foldedRows events day who) =
      NoRarer deviceId (dayRows events deviceId day) := by
    funext j k
    simp only [NoRarer, countKey_foldedRows events day _ hwho]
  unfold seatRank
  rw [keysOf_foldedRows events day hwho]
  refine List.countP_congr fun k _ => ?_
  simp only [horder, decide_eq_true_eq]

/-- A fold of a device with at most 64 keys raises each count to that of the window. -/
theorem rolledUp_fold_le {tables : EventTables} {deviceId day : String} {who : Option String}
    (hwho : who = none ∨ who = some deviceId) {ks : List String}
    (hks : ks.dedup.length ≤ maxEventKeysPerDeviceDay)
    (hwindow : ∀ k, 0 < countKey deviceId k (dayRows tables.events deviceId day) → k ∈ ks)
    (eventKey : String) (m : Nat) :
    rolledUp (rollupEventsDailyConn tables day who).1 deviceId day eventKey ≤ m ↔
      rolledUp tables.rollup deviceId day eventKey ≤ m ∧
        countKey deviceId eventKey (dayRows tables.events deviceId day) ≤ m := by
  unfold rollupEventsDailyConn
  rw [rolledUp_upsertAll_le, ← countKey_foldedRows tables.events day eventKey hwho]
  refine and_congr_right fun _ => ⟨fun h => ?_, fun h r hr hkey => ?_⟩
  · rcases Nat.eq_zero_or_pos
      (countKey deviceId eventKey (foldedRows tables.events day who)) with hzero | hpos
    · omega
    · -- the key is among the ones the cap keeps
      have hmem := mem_keysOf.mpr hpos
      have hfew : (keysOf deviceId (foldedRows tables.events day who)).length ≤
          maxEventKeysPerDeviceDay := by
        refine (length_keysOf_le fun k hk => ?_).trans hks
        rw [countKey_foldedRows tables.events day k hwho] at hk
        exact hwindow k hk
      have hkept := mem_cap.mpr ⟨hmem, seatRank_lt_of_few hmem hfew, rfl⟩
      exact h _ (List.mem_map_of_mem hkept) rfl
  · obtain ⟨⟨⟨d, k⟩, n⟩, hp, rfl⟩ := List.mem_map.mp hr
    obtain ⟨rfl, -, rfl⟩ : d = deviceId ∧ day = day ∧ k = eventKey := by
      simpa [RollupRow.key] using hkey
    rw [(mem_cap.mp hp).2.2]
    exact h

/-! ### What a call does -/

/-- The rows that a call inserts; none when it raises. -/
def EventBatch.stored (b : EventBatch) : List EventRow := if b.fits then b.rows else []

theorem mem_rows {b : EventBatch} {r : EventRow} (h : r ∈ b.rows) :
    r.deviceId = b.deviceId ∧ r.day = sliceText 10 b.recv := by
  obtain ⟨e, -, rfl⟩ := List.mem_map.mp h
  exact ⟨rfl, rfl⟩

theorem next_storeEvents (cap : Int) (tables : EventTables) (b : EventBatch) :
    (eventStore cap).next tables (.storeEvents b) =
      if b.stored = [] then tables
      else
        { events := prune (fun r => r.deviceId = b.deviceId) cap (tables.events ++ b.stored)
          rollup := (rollupEventsDailyConn { tables with events := tables.events ++ b.stored }
            (sliceText 10 b.recv) (some b.deviceId)).1 } := by
  dsimp only [eventStore]
  unfold storeEvents EventBatch.stored
  by_cases hnil : b.events = []
  · simp [hnil, EventBatch.rows, Except.toOption]
  · by_cases hfits : b.fits = true
    · have hrows : b.rows ≠ [] := by simpa [EventBatch.rows] using hnil
      simp only [if_neg hnil, if_pos hfits, if_neg hrows, Except.toOption, Option.getD_some]
    · simp [hnil, hfits, Except.toOption]

end Srp.Db
