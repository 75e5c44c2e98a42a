/-
  Srp/Db/DiskSeries.lean
  ======================
  **What a run of disk readings keeps.**

  However many keys a device is sent, `diskReadings_bounded` bounds the distinct
  keys and the readings of each.  A disk that is in every call of its device keeps
  its newest readings: its last reading is the newest of the device, so when it is
  no longer active, nothing is, and there is room for all keys of the call.
-/
import Srp.Db.DiskReadings

namespace Srp.Db

open Srp.Lib Srp.Lib.IsoTime Srp.Lib.PyUnicode Srp.Lib.Window

variable {I : Interpreter} {sha256Hex : Lines.Text → Lines.Text} {retain : Int}
variable {deviceId : String} {key : PyStr} {c : DiskCall} {table rows : List DiskReading}

/-! ### The rows of a call -/

theorem mem_diskRows {disks : List Value} {i : Nat} (h : diskRows I sha256Hex c disks i = some rows) :
    ∀ r ∈ rows, r.deviceId = c.deviceId ∧ r.receivedAt = c.receivedAt := by
  induction disks generalizing i rows with
  | nil =>
    obtain rfl := Option.some.inj h
    intro r hr
    cases hr
  | cons disk disks ih =>
    cases disk with
    | obj fields =>
      rw [diskRows] at h
      simp only [Option.bind_eq_bind, Option.bind_eq_some_iff, Option.pure_def,
        Option.some.injEq] at h
      obtain ⟨k, _, rest, hrest, rfl⟩ := h
      intro r hr
      rcases List.mem_cons.mp hr with rfl | hr
      · exact ⟨rfl, rfl⟩
      · exact ih hrest r hr
    | _ => exact ih h

theorem mem_callRows (h : callRows I sha256Hex c = some rows) :
    ∀ r ∈ rows, r.deviceId = c.deviceId ∧ r.receivedAt = c.receivedAt := by
  unfold callRows at h
  split at h
  · obtain rfl := Option.some.inj h
    intro r hr
    cases hr
  · split at h
    · exact mem_diskRows h
    · obtain rfl := Option.some.inj h
      intro r hr
      cases hr

/-- A call that goes through settles its rows; with no rows, settling changes nothing. -/
theorem storeDiskReadings_eq_some {after : List DiskReading}
    (h : storeDiskReadings I sha256Hex retain c table = some after) :
    ∃ rows, callRows I sha256Hex c = some rows ∧ after = settle retain c table rows := by
  unfold storeDiskReadings at h
  simp only [Option.bind_eq_bind, Option.bind_eq_some_iff] at h
  obtain ⟨rows, hrows, h⟩ := h
  refine ⟨rows, hrows, ?_⟩
  split at h
  · rename_i hempty
    obtain rfl := List.isEmpty_iff.mp hempty
    obtain rfl := Option.some.inj h
    simp [settle, filteredRows, newDiskKeys, pruneKeys]
  · split at h
    · exact (Option.some.inj h).symm
    · cases h

/-! ### Series -/

theorem isReading_iff {r : DiskReading} :
    isReading deviceId key r = true ↔ r.deviceId = deviceId ∧ r.diskKey = key := by
  rw [isReading, decide_eq_true_eq]

theorem mem_diskSeries {r : DiskReading} :
    r ∈ diskSeries deviceId key table ↔ r ∈ table ∧ r.deviceId = deviceId ∧ r.diskKey = key := by
  rw [diskSeries, List.mem_filter, isReading_iff]

theorem diskSeries_append (rows' : List DiskReading) :
    diskSeries deviceId key (rows ++ rows') =
      diskSeries deviceId key rows ++ diskSeries deviceId key rows' :=
  List.filter_append _ _

theorem diskSeries_prune (retain : Int) (d : String) (k : PyStr) (table : List DiskReading) :
    diskSeries deviceId key (prune (isReading d k) retain table) =
      if d = deviceId ∧ k = key then newest retain (diskSeries deviceId key table)
      else diskSeries deviceId key table := by
  split
  · rename_i h
    obtain ⟨rfl, rfl⟩ := h
    exact filter_prune _ retain table
  · rename_i h
    refine filter_prune_of_disjoint (fun r hr => ?_) retain table
    obtain ⟨rfl, rfl⟩ := isReading_iff.mp hr
    rw [isReading, decide_eq_false_iff_not]
    rintro ⟨rfl, rfl⟩
    exact h ⟨rfl, rfl⟩

theorem diskSeries_pruneKeys (retain : Int) (d : String) (keys : List PyStr)
    (table : List DiskReading) :
    diskSeries deviceId key (pruneKeys retain d keys table) =
      if d = deviceId ∧ key ∈ keys then newest retain (diskSeries deviceId key table)
      else diskSeries deviceId key table := by
  induction keys generalizing table with
  | nil => simp [pruneKeys]
  | cons k keys ih =>
    have hfold : pruneKeys retain d (k :: keys) table =
        pruneKeys retain d keys (prune (isReading d k) retain table) := rfl
    rw [hfold, ih, diskSeries_prune]
    by_cases hd : d = deviceId
    · by_cases hk : k = key
      · simp only [hd, hk, and_self, if_true, true_and, List.mem_cons, true_or, newest_newest,
          ite_self]
      · have hk' : ¬ key = k := Ne.symm hk
        simp only [hd, hk, hk', and_false, if_false, List.mem_cons, false_or]
    · simp only [hd, false_and, if_false]

/-- An eviction takes the whole series of a key or nothing of it. -/
theorem diskSeries_evict (d since : String) (table : List DiskReading) :
    diskSeries deviceId key (evictInactiveDiskKeys d since table) =
      if d = deviceId ∧ Inactive d since table key then [] else diskSeries deviceId key table := by
  unfold diskSeries evictInactiveDiskKeys
  rw [List.filter_filter]
  split
  · rename_i h
    obtain ⟨rfl, hinactive⟩ := h
    refine List.filter_eq_nil_iff.mpr fun r _ hr => ?_
    rw [Bool.and_eq_true, isReading_iff, decide_eq_true_eq] at hr
    obtain ⟨⟨hd, rfl⟩, hkeep⟩ := hr
    exact hkeep ⟨hd, hinactive⟩
  · rename_i h
    refine List.filter_congr fun r _ => ?_
    rw [Bool.eq_iff_iff, Bool.and_eq_true, isReading_iff, decide_eq_true_eq]
    constructor
    · exact fun hr => hr.1
    · rintro ⟨rfl, rfl⟩
      exact ⟨⟨rfl, rfl⟩, fun hevict => h ⟨hevict.1.symm, hevict.2⟩⟩

/-- The readings that a call adds to a series, unless the key is blocked. -/
theorem diskSeries_filteredRows (hkey : key ∉ blockedKeys c table rows) :
    diskSeries deviceId key (filteredRows c table rows) = diskSeries deviceId key rows := by
  unfold diskSeries filteredRows
  rw [List.filter_filter]
  refine List.filter_congr fun r _ => ?_
  rw [Bool.eq_iff_iff, Bool.and_eq_true, isReading_iff, decide_eq_true_eq]
  constructor
  · exact fun hr => hr.1
  · rintro ⟨hd, rfl⟩
    exact ⟨⟨hd, rfl⟩, hkey⟩

/-! ### Settling a call -/

theorem diskSeries_settle_of_ne (hrows : ∀ r ∈ rows, r.deviceId = c.deviceId)
    (hd : c.deviceId ≠ deviceId) :
    diskSeries deviceId key (settle retain c table rows) = diskSeries deviceId key table := by
  have hwritten : diskSeries deviceId key (filteredRows c table rows) = [] := by
    refine List.filter_eq_nil_iff.mpr fun r hr hreading => ?_
    apply hd
    rw [← hrows r (List.mem_filter.mp hr).1, (isReading_iff.mp hreading).1]
  simp only [settle]
  split
  · rw [diskSeries_pruneKeys, if_neg (fun h => hd h.1), diskSeries_append, hwritten,
      List.append_nil]
  · rw [diskSeries_evict, if_neg (fun h => hd h.1), diskSeries_pruneKeys,
      if_neg (fun h => hd h.1), diskSeries_append, hwritten, List.append_nil]

/-- What is in a series afterwards was in it or has been written by the call. -/
theorem mem_settle {r : DiskReading} (h : r ∈ diskSeries deviceId key (settle retain c table rows)) :
    r ∈ diskSeries deviceId key table ∨
      r ∈ diskSeries deviceId key (filteredRows c table rows) := by
  have hwritten : r ∈ diskSeries deviceId key (pruneKeys retain c.deviceId
      ((filteredRows c table rows).map (·.diskKey)).dedup
      (table ++ filteredRows c table rows)) := by
    simp only [settle] at h
    split at h
    · exact h
    · rw [diskSeries_evict] at h
      split at h
      · cases h
      · exact h
  rw [diskSeries_pruneKeys] at hwritten
  rw [← List.mem_append, ← diskSeries_append]
  split at hwritten
  · exact (newest_suffix retain _).subset hwritten
  · exact hwritten

theorem mem_settled {r : DiskReading} (h : r ∈ settle retain c table rows) :
    r ∈ table ∨ r ∈ rows := by
  rcases mem_settle (mem_diskSeries.mpr ⟨h, rfl, rfl⟩) with hr | hr
  · exact Or.inl (mem_diskSeries.mp hr).1
  · exact Or.inr (List.mem_filter.mp (mem_diskSeries.mp hr).1).1

/-! ### Distinct keys -/

theorem mem_deviceKeys : key ∈ deviceKeys deviceId table ↔ ∃ r, r ∈ diskSeries deviceId key table := by
  simp only [deviceKeys, List.mem_dedup, List.mem_map, List.mem_filter, decide_eq_true_eq,
    mem_diskSeries, and_assoc]

theorem mem_existingKeys :
    key ∈ existingKeys c table ↔
      ∃ r ∈ diskSeries c.deviceId key table, c.activeSince ≤ r.receivedAt := by
  simp only [existingKeys, List.mem_dedup, List.mem_map, List.mem_filter, decide_eq_true_eq,
    mem_diskSeries]
  constructor
  · rintro ⟨r, ⟨hr, hd, hactive⟩, hkey⟩
    exact ⟨r, ⟨hr, hd, hkey⟩, hactive⟩
  · rintro ⟨r, ⟨hr, hd, hkey⟩, hactive⟩
    exact ⟨r, ⟨hr, hd, hactive⟩, hkey⟩

theorem length_le_of_subset {ks ls : List PyStr} (hks : ks.Nodup) (h : ks ⊆ ls) :
    ks.length ≤ ls.length :=
  (hks.subperm h).length_le

theorem length_existingKeys_le :
    (existingKeys c table).length ≤ (deviceKeys c.deviceId table).length := by
  refine length_le_of_subset (List.nodup_dedup _) fun k hk => ?_
  obtain ⟨r, hr, _⟩ := mem_existingKeys.mp hk
  exact mem_deviceKeys.mpr ⟨r, hr⟩

theorem mem_sortedKeys {keys : List PyStr} : key ∈ sortedKeys keys ↔ key ∈ keys :=
  (List.perm_insertionSort _ keys).mem_iff

theorem mem_newDiskKeys :
    key ∈ newDiskKeys c table rows ↔
      key ∈ rows.map (·.diskKey) ∧ key ∉ existingKeys c table := by
  rw [newDiskKeys, List.mem_filter, List.mem_dedup, decide_eq_true_eq]

/-- A key that is written is active, or one of the new keys there is room for. -/
theorem key_filteredRows {r : DiskReading} (hr : r ∈ filteredRows c table rows) :
    r.diskKey ∈ existingKeys c table ∨
      r.diskKey ∈ (sortedKeys (newDiskKeys c table rows)).take (allowedNew c table) := by
  obtain ⟨hrow, hfree⟩ := List.mem_filter.mp hr
  rw [decide_eq_true_eq] at hfree
  by_cases hold : r.diskKey ∈ existingKeys c table
  · exact Or.inl hold
  · right
    have hnew : r.diskKey ∈ sortedKeys (newDiskKeys c table rows) :=
      mem_sortedKeys.mpr (mem_newDiskKeys.mpr ⟨List.mem_map_of_mem hrow, hold⟩)
    rw [← List.take_append_drop (allowedNew c table) (sortedKeys _), List.mem_append] at hnew
    exact hnew.resolve_right hfree

/-- A call never takes the device beyond the limit. -/
theorem length_deviceKeys_settle
    (h : (deviceKeys c.deviceId table).length ≤ maxDiskKeysPerDevice) :
    (deviceKeys c.deviceId (settle retain c table rows)).length ≤ maxDiskKeysPerDevice := by
  by_cases hnew : newDiskKeys c table rows = []
  · -- without a new key there is nothing to evict, and nothing is added
    refine le_trans (length_le_of_subset (List.nodup_dedup _) fun k hk => ?_) h
    obtain ⟨r, hr⟩ := mem_deviceKeys.mp hk
    rcases mem_settle hr with hr | hr
    · exact mem_deviceKeys.mpr ⟨r, hr⟩
    · obtain ⟨hwritten, -, rfl⟩ := mem_diskSeries.mp hr
      rcases key_filteredRows hwritten with hold | htaken
      · obtain ⟨s, hs, _⟩ := mem_existingKeys.mp hold
        exact mem_deviceKeys.mpr ⟨s, hs⟩
      · have hmem := mem_sortedKeys.mp (List.mem_of_mem_take htaken)
        rw [hnew] at hmem
        cases hmem
  · -- what the eviction leaves was active before, or has just been admitted
    have hsub : deviceKeys c.deviceId (settle retain c table rows) ⊆ existingKeys c table ++
        (sortedKeys (newDiskKeys c table rows)).take (allowedNew c table) := by
      intro k hk
      rw [List.mem_append]
      obtain ⟨r, hr⟩ := mem_deviceKeys.mp hk
      simp only [settle] at hr
      rw [if_neg hnew, diskSeries_evict] at hr
      split at hr
      · cases hr
      · rename_i hactive
        rw [not_and] at hactive
        have hactive := hactive rfl
        unfold Inactive at hactive
        push Not at hactive
        obtain ⟨s, hs, hsince⟩ := hactive
        rw [diskSeries_pruneKeys] at hs
        have hs : s ∈ diskSeries c.deviceId k (table ++ filteredRows c table rows) := by
          split at hs
          · exact (newest_suffix retain _).subset hs
          · exact hs
        rw [diskSeries_append, List.mem_append] at hs
        rcases hs with hs | hs
        · exact Or.inl (mem_existingKeys.mpr ⟨s, hs, hsince⟩)
        · obtain ⟨hwritten, -, rfl⟩ := mem_diskSeries.mp hs
          exact key_filteredRows hwritten
    have hlen := length_le_of_subset (List.nodup_dedup _) hsub
    have hroom := length_existingKeys_le.trans h
    have htake := List.length_take_le (allowedNew c table)
      (sortedKeys (newDiskKeys c table rows))
    rw [List.length_append] at hlen
    unfold allowedNew at hlen htake
    unfold deviceKeys
    omega

/-! ### Readings of one key -/

theorem length_diskSeries_settle (hretain : 0 ≤ retain)
    (h : ((diskSeries c.deviceId key table).length : Int) ≤ retain) :
    ((diskSeries c.deviceId key (settle retain c table rows)).length : Int) ≤ retain := by
  have hwritten : ((diskSeries c.deviceId key (pruneKeys retain c.deviceId
      ((filteredRows c table rows).map (·.diskKey)).dedup
      (table ++ filteredRows c table rows))).length : Int) ≤ retain := by
    rw [diskSeries_pruneKeys]
    split
    · exact length_newest_le hretain _
    · rename_i hkey
      have hnone : diskSeries c.deviceId key (filteredRows c table rows) = [] := by
        refine List.filter_eq_nil_iff.mpr fun r hr hreading => ?_
        obtain ⟨_, rfl⟩ := isReading_iff.mp hreading
        exact hkey ⟨rfl, List.mem_dedup.mpr (List.mem_map_of_mem hr)⟩
      rw [diskSeries_append, hnone, List.append_nil]
      exact h
  simp only [settle]
  split
  · exact hwritten
  · rw [diskSeries_evict]
    split
    · simpa using hretain
    · exact hwritten

/-- The bounds of one device. -/
structure DiskBounds (retain : Int) (deviceId : String) (table : List DiskReading) : Prop where
  keys : (deviceKeys deviceId table).length ≤ maxDiskKeysPerDevice
  readings : 0 ≤ retain → ∀ key, ((diskSeries deviceId key table).length : Int) ≤ retain

theorem DiskBounds.settle (h : DiskBounds retain deviceId table)
    (hrows : ∀ r ∈ rows, r.deviceId = c.deviceId) :
    DiskBounds retain deviceId (settle retain c table rows) := by
  by_cases hd : c.deviceId = deviceId
  · subst hd
    constructor
    · exact length_deviceKeys_settle h.keys
    · intro hretain key
      exact length_diskSeries_settle hretain (h.readings hretain key)
  · constructor
    · have hkeys : deviceKeys deviceId (Db.settle retain c table rows) ⊆
          deviceKeys deviceId table := by
        intro k hk
        rw [mem_deviceKeys] at hk ⊢
        rwa [diskSeries_settle_of_ne hrows hd] at hk
      exact (length_le_of_subset (List.nodup_dedup _) hkeys).trans h.keys
    · intro hretain key
      rw [diskSeries_settle_of_ne hrows hd]
      exact h.readings hretain key

/-! ### A disk that is always there -/

/-- No reading of the device is newer than the newest one of the key. -/
def Freshest (deviceId : String) (key : PyStr) (table : List DiskReading) : Prop :=
  ∀ r ∈ table, r.deviceId = deviceId →
    ∃ s ∈ diskSeries deviceId key table, r.receivedAt ≤ s.receivedAt

/-- Either the key is active or no key is, and then the call has room for all of its own. -/
theorem not_mem_blockedKeys (hfresh : Freshest c.deviceId key table)
    (hfew : (rows.map (·.diskKey)).dedup.length ≤ maxDiskKeysPerDevice) :
    key ∉ blockedKeys c table rows := by
  intro hblocked
  have hnew := mem_sortedKeys.mp (List.mem_of_mem_drop hblocked)
  have hnone : existingKeys c table = [] := by
    refine List.eq_nil_iff_forall_not_mem.mpr fun k hk => ?_
    obtain ⟨r, hr, hactive⟩ := mem_existingKeys.mp hk
    obtain ⟨hr, hd, _⟩ := mem_diskSeries.mp hr
    obtain ⟨s, hs, hle⟩ := hfresh r hr hd
    exact (mem_newDiskKeys.mp hnew).2 (mem_existingKeys.mpr ⟨s, hs, hactive.trans hle⟩)
  have hlen : (sortedKeys (newDiskKeys c table rows)).length ≤ allowedNew c table := by
    rw [sortedKeys, List.length_insertionSort, allowedNew, hnone]
    exact (List.length_filter_le _ _).trans hfew
  rw [blockedKeys, List.drop_eq_nil_of_le hlen] at hblocked
  cases hblocked

theorem activeSince_le_receivedAt (c : DiskCall) : c.activeSince ≤ c.receivedAt :=
  isoformat_le_iff.mpr (Instant.minus_le _ _)

/-- The last reading of a written series is one of the call. -/
theorem getLast?_newest_written (hretain : retain ≠ 0)
    (hcall : ∀ r ∈ rows, r.deviceId = c.deviceId ∧ r.receivedAt = c.receivedAt)
    (hkey : key ∈ rows.map (·.diskKey)) :
    ∃ s ∈ newest retain (diskSeries c.deviceId key table ++ diskSeries c.deviceId key rows),
      s.receivedAt = c.receivedAt := by
  have hne : diskSeries c.deviceId key rows ≠ [] := by
    obtain ⟨r, hr, rfl⟩ := List.mem_map.mp hkey
    exact List.ne_nil_of_mem (mem_diskSeries.mpr ⟨hr, (hcall r hr).1, rfl⟩)
  have hlast := getLast?_newest hretain
    (diskSeries c.deviceId key table ++ diskSeries c.deviceId key rows)
  rw [List.getLast?_append_of_ne_nil _ hne, List.getLast?_eq_some_getLast hne] at hlast
  refine ⟨_, List.mem_of_getLast? hlast, ?_⟩
  exact (hcall _ (mem_diskSeries.mp (List.getLast_mem hne)).1).2

/-- The series of a key that is not blocked is extended and cut, and never evicted. -/
theorem diskSeries_settle
    (hcall : ∀ r ∈ rows, r.deviceId = c.deviceId ∧ r.receivedAt = c.receivedAt)
    (hkey : key ∈ rows.map (·.diskKey)) (hfree : key ∉ blockedKeys c table rows) :
    diskSeries c.deviceId key (settle retain c table rows) =
      newest retain (diskSeries c.deviceId key table ++ diskSeries c.deviceId key rows) := by
  have hmem : key ∈ ((filteredRows c table rows).map (·.diskKey)).dedup := by
    obtain ⟨r, hr, rfl⟩ := List.mem_map.mp hkey
    rw [List.mem_dedup]
    exact List.mem_map_of_mem (List.mem_filter.mpr ⟨hr, decide_eq_true hfree⟩)
  have hwritten : diskSeries c.deviceId key (pruneKeys retain c.deviceId
      ((filteredRows c table rows).map (·.diskKey)).dedup (table ++ filteredRows c table rows)) =
      newest retain (diskSeries c.deviceId key table ++ diskSeries c.deviceId key rows) := by
    rw [diskSeries_pruneKeys, if_pos ⟨rfl, hmem⟩, diskSeries_append, diskSeries_filteredRows hfree]
  simp only [settle]
  split
  · exact hwritten
  · rw [diskSeries_evict]
    split
    · rename_i hevict
      -- evicted only when there is nothing to evict
      unfold Inactive at hevict
      rw [hwritten] at hevict
      by_cases hretain : retain = 0
      · rw [hretain, newest, if_neg (by decide), Int.toNat_zero, Nat.sub_zero,
          List.drop_eq_nil_of_le le_rfl]
      · obtain ⟨s, hs, hstamp⟩ := getLast?_newest_written hretain hcall hkey
        have hlt := hevict.2 s hs
        rw [hstamp] at hlt
        exact absurd hlt (not_lt.mpr (activeSince_le_receivedAt c))
    · exact hwritten

theorem freshest_settle (hbounds : DiskBounds retain c.deviceId table)
    (hold : ∀ r ∈ table, r.receivedAt ≤ c.receivedAt)
    (hcall : ∀ r ∈ rows, r.deviceId = c.deviceId ∧ r.receivedAt = c.receivedAt)
    (hkey : key ∈ rows.map (·.diskKey)) (hfree : key ∉ blockedKeys c table rows) :
    Freshest c.deviceId key (settle retain c table rows) := by
  intro r hr hd
  by_cases hretain : retain = 0
  · -- nothing is retained at all
    have hlen := (hbounds.settle fun r hr => (hcall r hr).1).readings hretain.ge r.diskKey
    rw [hretain] at hlen
    have hnone : diskSeries c.deviceId r.diskKey (settle 0 c table rows) = [] :=
      List.eq_nil_of_length_eq_zero (by omega)
    rw [hretain] at hr
    have hmem : r ∈ diskSeries c.deviceId r.diskKey (settle 0 c table rows) :=
      mem_diskSeries.mpr ⟨hr, hd, rfl⟩
    rw [hnone] at hmem
    cases hmem
  · rw [diskSeries_settle hcall hkey hfree]
    obtain ⟨s, hs, hstamp⟩ := getLast?_newest_written hretain hcall hkey
    refine ⟨s, hs, ?_⟩
    rw [hstamp]
    rcases mem_settled hr with hr | hr
    · exact hold r hr
    · exact (hcall r hr).2.le

theorem freshest_settle_of_ne (hrows : ∀ r ∈ rows, r.deviceId = c.deviceId)
    (hd : c.deviceId ≠ deviceId) (h : Freshest deviceId key table) :
    Freshest deviceId key (settle retain c table rows) := by
  intro r hr hdevice
  rw [diskSeries_settle_of_ne hrows hd]
  have hmem : r ∈ diskSeries deviceId r.diskKey (settle retain c table rows) :=
    mem_diskSeries.mpr ⟨hr, hdevice, rfl⟩
  rw [diskSeries_settle_of_ne hrows hd] at hmem
  exact h r (mem_diskSeries.mp hmem).1 hdevice

/-! ### Runs -/

section Runs

variable (I : Interpreter) (sha256Hex : Lines.Text → Lines.Text) (retain : Int)

/-- A step of the store settles the rows of its call or leaves the table as it is. -/
theorem next_diskStore (c : DiskCall) (table : List DiskReading) :
    (∃ rows, callRows I sha256Hex c = some rows ∧
      (storeDiskReadings I sha256Hex retain c table).isSome ∧
      (diskStore I sha256Hex retain).next table c = settle retain c table rows) ∨
    (storeDiskReadings I sha256Hex retain c table = none ∧
      (diskStore I sha256Hex retain).next table c = table) := by
  cases h : storeDiskReadings I sha256Hex retain c table with
  | none => exact Or.inr ⟨rfl, by simp only [diskStore, h, Option.getD_none]⟩
  | some after =>
    obtain ⟨rows, hrows, rfl⟩ := storeDiskReadings_eq_some h
    exact Or.inl ⟨rows, hrows, rfl, by simp only [diskStore, h, Option.getD_some]⟩

theorem DiskBounds.run (calls : List DiskCall) :
    DiskBounds retain deviceId ((diskStore I sha256Hex retain).stateAfter [] calls) := by
  induction calls using List.reverseRecOn with
  | nil =>
    constructor
    · exact Nat.zero_le _
    · intro hretain key
      exact hretain
  | append_singleton calls c ih =>
    rw [Machine.stateAfter_append, Machine.stateAfter_cons, Machine.stateAfter_nil]
    rcases next_diskStore I sha256Hex retain c
      ((diskStore I sha256Hex retain).stateAfter [] calls) with ⟨rows, hrows, _, hnext⟩ | ⟨_, hnext⟩
    · rw [hnext]
      exact ih.settle fun r hr => (mem_callRows hrows r hr).1
    · rw [hnext]
      exact ih

/-- Every stored reading bears the stamp of a call of the run. -/
theorem receivedAt_run (calls : List DiskCall) :
    ∀ r ∈ (diskStore I sha256Hex retain).stateAfter [] calls,
      ∃ c ∈ calls, r.receivedAt = c.receivedAt := by
  induction calls using List.reverseRecOn with
  | nil =>
    intro r hr
    cases hr
  | append_singleton calls c ih =>
    rw [Machine.stateAfter_append, Machine.stateAfter_cons, Machine.stateAfter_nil]
    intro r hr
    have hold : r ∈ (diskStore I sha256Hex retain).stateAfter [] calls →
        ∃ c' ∈ calls ++ [c], r.receivedAt = c'.receivedAt := by
      intro hr
      obtain ⟨c', hc', hstamp⟩ := ih r hr
      exact ⟨c', List.mem_append_left _ hc', hstamp⟩
    rcases next_diskStore I sha256Hex retain c
      ((diskStore I sha256Hex retain).stateAfter [] calls) with ⟨rows, hrows, _, hnext⟩ | ⟨_, hnext⟩
    · rw [hnext] at hr
      rcases mem_settled hr with hr | hr
      · exact hold hr
      · exact ⟨c, by simp, (mem_callRows hrows r hr).2⟩
    · rw [hnext] at hr
      exact hold hr

/-- The readings of a key in the calls that go through. -/
def recordedReadings (deviceId : String) (key : PyStr) :
    List DiskReading → List DiskCall → List DiskReading
  | _, [] => []
  | table, c :: calls =>
    (if (storeDiskReadings I sha256Hex retain c table).isSome then
      diskSeries deviceId key ((callRows I sha256Hex c).getD []) else []) ++
      recordedReadings deviceId key ((diskStore I sha256Hex retain).next table c) calls

/-- The call names the disk. -/
def Reports (key : PyStr) (c : DiskCall) : Prop :=
  ∀ rows, callRows I sha256Hex c = some rows → key ∈ rows.map (·.diskKey)

/-- The call names at most `_MAX_DISK_KEYS_PER_DEVICE` disks. -/
def FewKeys (c : DiskCall) : Prop :=
  ∀ rows, callRows I sha256Hex c = some rows →
    (rows.map (·.diskKey)).dedup.length ≤ maxDiskKeysPerDevice

/-- The call goes through, names the disk and does not block its key. -/
def Admits (key : PyStr) (c : DiskCall) (table : List DiskReading) : Prop :=
  (storeDiskReadings I sha256Hex retain c table).isSome ∧ Reports I sha256Hex key c ∧
    ∀ rows, callRows I sha256Hex c = some rows → key ∉ blockedKeys c table rows

variable {I sha256Hex retain}

/-- A disk whose reading is the newest of its device keeps its series, whatever else is sent. -/
theorem diskSeries_of_freshest {post : List DiskCall} (hfresh : Freshest deviceId key table)
    (hbounds : DiskBounds retain deviceId table)
    (htimes : post.Pairwise fun c c' => c.time ≤ c'.time)
    (hold : ∀ c ∈ post, ∀ r ∈ table, r.receivedAt ≤ c.receivedAt)
    (hpost : ∀ c ∈ post, c.deviceId = deviceId →
      Reports I sha256Hex key c ∧ FewKeys I sha256Hex c)
    (hcut : newest retain (diskSeries deviceId key table) = diskSeries deviceId key table) :
    diskSeries deviceId key ((diskStore I sha256Hex retain).stateAfter table post) =
      newest retain (diskSeries deviceId key table ++
        recordedReadings I sha256Hex retain deviceId key table post) := by
  induction post generalizing table with
  | nil => rw [recordedReadings, List.append_nil, hcut, Machine.stateAfter_nil]
  | cons c post ih =>
    obtain ⟨hc, hpost⟩ := List.forall_mem_cons.mp hpost
    obtain ⟨hold', hlater⟩ := List.forall_mem_cons.mp hold
    obtain ⟨hle, htimes⟩ := List.pairwise_cons.mp htimes
    rw [Machine.stateAfter_cons, recordedReadings]
    rcases next_diskStore I sha256Hex retain c table with
      ⟨rows, hrows, hsome, hnext⟩ | ⟨hnone, hnext⟩
    · have hcall := mem_callRows hrows
      have hstamps : ∀ c' ∈ post, ∀ r ∈ settle retain c table rows,
          r.receivedAt ≤ c'.receivedAt := by
        intro c' hc' r hr
        rcases mem_settled hr with hr | hr
        · exact hlater c' hc' r hr
        · rw [(hcall r hr).2]
          exact isoformat_le_iff.mpr (hle c' hc')
      have hbounds' : DiskBounds retain deviceId (settle retain c table rows) :=
        hbounds.settle fun r hr => (hcall r hr).1
      rw [hnext, if_pos hsome, hrows, Option.getD_some]
      by_cases hd : c.deviceId = deviceId
      · subst hd
        obtain ⟨hreports, hfew⟩ := hc rfl
        have hkey := hreports rows hrows
        have hfree := not_mem_blockedKeys hfresh (hfew rows hrows)
        have hseries : diskSeries c.deviceId key (settle retain c table rows) = _ :=
          diskSeries_settle hcall hkey hfree
        rw [ih (freshest_settle hbounds hold' hcall hkey hfree) hbounds' htimes hstamps hpost
          (by rw [hseries, newest_newest]), hseries, newest_append_newest, List.append_assoc]
      · have hother : diskSeries deviceId key rows = [] := by
          refine List.filter_eq_nil_iff.mpr fun r hr hreading => ?_
          exact hd ((hcall r hr).1.symm.trans (isReading_iff.mp hreading).1)
        have hseries : diskSeries deviceId key (settle retain c table rows) = _ :=
          diskSeries_settle_of_ne (fun r hr => (hcall r hr).1) hd
        rw [ih (freshest_settle_of_ne (fun r hr => (hcall r hr).1) hd hfresh) hbounds' htimes
          hstamps hpost (by rw [hseries, hcut]), hseries, hother, List.nil_append]
    · rw [hnext, hnone, ih hfresh hbounds htimes hlater hpost hcut]
      rfl

/-- The limits hold after every run, and a disk that was admitted and is in every later call of
    its device has the newest of all readings that were sent for it. -/
theorem diskReadings_bounded (I : Interpreter) (sha256Hex : Lines.Text → Lines.Text)
    (retain : Int) (deviceId : String) (calls : List DiskCall)
    (htimes : calls.Pairwise fun c c' => c.time ≤ c'.time) :
    let store := diskStore I sha256Hex retain
    let table := store.stateAfter [] calls
    (deviceKeys deviceId table).length ≤ maxDiskKeysPerDevice ∧
      (0 ≤ retain → ∀ key, ((diskSeries deviceId key table).length : Int) ≤ retain) ∧
      ∀ pre c post key, calls = pre ++ c :: post → c.deviceId = deviceId →
        Admits I sha256Hex retain key c (store.stateAfter [] pre) →
        (∀ c' ∈ post, c'.deviceId = deviceId →
          Reports I sha256Hex key c' ∧ FewKeys I sha256Hex c') →
        diskSeries deviceId key table =
          newest retain (diskSeries deviceId key (store.stateAfter [] pre) ++
            recordedReadings I sha256Hex retain deviceId key (store.stateAfter [] pre)
              (c :: post)) := by
  intro store table
  have hbounds : DiskBounds retain deviceId table := DiskBounds.run I sha256Hex retain calls
  refine ⟨hbounds.keys, hbounds.readings, ?_⟩
  rintro pre c post key rfl rfl ⟨hsome, hreports, hfree⟩ hpost
  obtain ⟨-, hafter, hpre⟩ := List.pairwise_append.mp htimes
  obtain ⟨hle, hafter⟩ := List.pairwise_cons.mp hafter
  have hbefore : DiskBounds retain c.deviceId (store.stateAfter [] pre) :=
    DiskBounds.run I sha256Hex retain pre
  have hstamps : ∀ c' ∈ c :: post, ∀ r ∈ store.stateAfter [] pre,
      r.receivedAt ≤ c'.receivedAt := by
    intro c' hc' r hr
    obtain ⟨c₀, hc₀, hstamp⟩ := receivedAt_run I sha256Hex retain pre r hr
    rw [hstamp]
    exact isoformat_le_iff.mpr (hpre c₀ hc₀ c' hc')
  have hrun : table = store.stateAfter (store.next (store.stateAfter [] pre) c) post := by
    rw [← Machine.stateAfter_cons, ← Machine.stateAfter_append]
  rcases next_diskStore I sha256Hex retain c (store.stateAfter [] pre) with
    ⟨rows, hrows, _, hnext⟩ | ⟨hnone, _⟩
  · have hcall := mem_callRows hrows
    have hkey := hreports rows hrows
    have hseries : diskSeries c.deviceId key
        (settle retain c (store.stateAfter [] pre) rows) = _ :=
      diskSeries_settle hcall hkey (hfree rows hrows)
    have hfresh : Freshest c.deviceId key (settle retain c (store.stateAfter [] pre) rows) :=
      freshest_settle hbefore (hstamps c List.mem_cons_self) hcall hkey (hfree rows hrows)
    have hlater : ∀ c' ∈ post, ∀ r ∈ settle retain c (store.stateAfter [] pre) rows,
        r.receivedAt ≤ c'.receivedAt := by
      intro c' hc' r hr
      rcases mem_settled hr with hr | hr
      · exact hstamps c' (List.mem_cons_of_mem c hc') r hr
      · rw [(hcall r hr).2]
        exact isoformat_le_iff.mpr (hle c' hc')
    rw [hrun, recordedReadings, hnext, if_pos hsome, hrows, Option.getD_some,
      diskSeries_of_freshest hfresh (hbefore.settle fun r hr => (hcall r hr).1) hafter hlater hpost
        (by rw [hseries, newest_newest]), hseries, newest_append_newest, List.append_assoc]
  · rw [hnone] at hsome
    cases hsome

end Runs

/-! ### A run -/

private def textInterpreter : Interpreter where
  chars := .ascii
  ofToken _ := .nan
  strOf _ := []
  gmtime _ := true
  pathKey name := name.map PyChar.ord

private def serial (s : String) : PyStr := ofText s.toList

private def diskNamed (s : String) : Value := .obj [(serial "serial_hash", .str (serial s))]

private theorem firstDay_inRange : 0 < 3652059 * usPerDay := by decide

private theorem lastDay_inRange : 99 * usPerDay < 3652059 * usPerDay := by decide

private def firstCall : DiskCall where
  deviceId := "d1"
  storage := .arr [diskNamed "s1"]
  ts := none
  time := ⟨0, firstDay_inRange⟩

/-- 99 days later the disk comes with another one, which sorts before it. -/
private def lateCall : DiskCall where
  deviceId := "d1"
  storage := .arr [diskNamed "s0", diskNamed "s1", .null]
  ts := none
  time := ⟨99 * usPerDay, lastDay_inRange⟩

private theorem firstCall_admits :
    Admits textInterpreter id 2000 (serial "s1") firstCall [] := by
  refine ⟨rfl, ?_, ?_⟩
  · rintro rows h
    obtain rfl := Option.some.inj h
    decide
  · rintro rows h
    obtain rfl := Option.some.inj h
    decide

private theorem lateCall_reports :
    Reports textInterpreter id (serial "s1") lateCall ∧
      FewKeys textInterpreter id lateCall := by
  constructor
  · rintro rows h
    obtain rfl := Option.some.inj h
    decide
  · rintro rows h
    obtain rfl := Option.some.inj h
    decide

theorem diskReadings_bounded_late :
    diskSeries "d1" (serial "s1")
        ((diskStore textInterpreter id 2000).stateAfter [] [firstCall, lateCall]) =
      newest 2000 (recordedReadings textInterpreter id 2000 "d1" (serial "s1") []
        [firstCall, lateCall]) := by
  have htimes : [firstCall, lateCall].Pairwise fun c c' => c.time ≤ c'.time := by
    simp [firstCall, lateCall, Instant.le_iff]
  have h := (diskReadings_bounded textInterpreter id 2000 "d1" [firstCall, lateCall] htimes).2.2
  refine h [] firstCall [lateCall] (serial "s1") rfl rfl firstCall_admits ?_
  rintro c hc -
  obtain rfl := List.mem_singleton.mp hc
  exact lateCall_reports

end Srp.Db
