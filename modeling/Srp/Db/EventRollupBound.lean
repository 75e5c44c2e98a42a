/-
  Srp/Db/EventRollupBound.lean
  ============================
  **How many rows the event rollup holds for a device and a day.**

  The cap bounds the keys of one fold, and the rows of earlier folds stay.  A fold
  therefore adds a row for every key that it keeps and that has none, and the bound
  of 64 rows survives a call iff the device and the day have that many seats left.
-/
import Mathlib
import Srp.Db.EventRollup

namespace Srp.Db

open Srp.Lib Srp.Lib.Table Srp.Lib.Window

/-! ### Seats -/

def rowsOf (deviceId day : String) (rows : List RollupRow) : Nat :=
  rows.countP fun r => r.deviceId = deviceId ∧ r.day = day

def Bounded (tables : EventTables) : Prop :=
  ∀ deviceId day, rowsOf deviceId day tables.rollup ≤ maxEventKeysPerDeviceDay

/-- The rows of the device and the day among those that a call folds. -/
def foldedDay (tables : EventTables) (call : EventCall) (deviceId day : String) :
    List EventRow :=
  match call with
  | .storeEvents b =>
    if b.stored ≠ [] ∧ b.deviceId = deviceId ∧ sliceText 10 b.recv = day then
      dayRows (tables.events ++ b.stored) deviceId day
    else []
  | .rollupEventsDaily d => if d = day then dayRows tables.events deviceId day else []

/-- The keys of these rows that have fewer than 64 keys ahead of them and no row yet. -/
def newKeys (tables : EventTables) (call : EventCall) (deviceId day : String) : List String :=
  (keysOf deviceId (foldedDay tables call deviceId day)).filter fun k =>
    seatRank deviceId (foldedDay tables call deviceId day) k < maxEventKeysPerDeviceDay ∧
      (deviceId, day, k) ∉ tables.rollup.map RollupRow.key

/-- Every device has a seat on every day for each of its new keys. -/
def SeatsSuffice (tables : EventTables) (call : EventCall) : Prop :=
  ∀ deviceId day, rowsOf deviceId day tables.rollup +
    (newKeys tables call deviceId day).length ≤ maxEventKeysPerDeviceDay

/-! ### The rows that a call adds -/

/-- The tuples that the fold of a call upserts. -/
def folded (tables : EventTables) : EventCall → List RollupRow
  | .storeEvents b =>
    if b.stored = [] then []
    else foldRows (tables.events ++ b.stored) (sliceText 10 b.recv) (some b.deviceId)
  | .rollupEventsDaily day => foldRows tables.events day none

theorem next_rollup (cap : Int) (tables : EventTables) (call : EventCall) :
    ((eventStore cap).next tables call).rollup =
      upsertAll RollupRow.key maxCount (folded tables call) tables.rollup := by
  cases call with
  | storeEvents b =>
    rw [next_storeEvents]
    dsimp only [folded]
    by_cases hnone : b.stored = []
    · rw [if_pos hnone, if_pos hnone]
      rfl
    · rw [if_neg hnone, if_neg hnone]
      rfl
  | rollupEventsDaily day => rfl

theorem foldRows_nodup (events : List EventRow) (day : String) (who : Option String) :
    ((foldRows events day who).map RollupRow.key).Nodup := by
  have hkeys := cap_nodup (countEvents_nodup (foldedRows events day who))
  have hmap : (foldRows events day who).map RollupRow.key =
      ((capEventKeysPerDevice (countEvents (foldedRows events day who))).map Prod.fst).map
        fun k => (k.1, day, k.2) := by
    unfold foldRows
    rw [List.map_map, List.map_map]
    rfl
  rw [hmap]
  refine hkeys.map fun k k' h => ?_
  simp only [Prod.mk.injEq, true_and] at h
  exact Prod.ext h.1 h.2

theorem folded_nodup (tables : EventTables) (call : EventCall) :
    ((folded tables call).map RollupRow.key).Nodup := by
  cases call with
  | storeEvents b =>
    dsimp only [folded]
    split
    · exact List.nodup_nil
    · exact foldRows_nodup ..
  | rollupEventsDaily day => exact foldRows_nodup ..

theorem mem_foldRows {events : List EventRow} {day day' deviceId k : String}
    {who : Option String} :
    (deviceId, day, k) ∈ (foldRows events day' who).map RollupRow.key ↔
      day' = day ∧ k ∈ keysOf deviceId (foldedRows events day' who) ∧
        seatRank deviceId (foldedRows events day' who) k < maxEventKeysPerDeviceDay := by
  constructor
  · intro h
    obtain ⟨r, hr, hkey⟩ := List.mem_map.mp h
    obtain ⟨⟨⟨d, j⟩, n⟩, hp, rfl⟩ := List.mem_map.mp hr
    obtain ⟨rfl, rfl, rfl⟩ : d = deviceId ∧ day' = day ∧ j = k := by
      simpa [RollupRow.key] using hkey
    obtain ⟨hmem, hrank, -⟩ := mem_cap.mp hp
    exact ⟨rfl, hmem, hrank⟩
  · rintro ⟨rfl, hmem, hrank⟩
    have hkept := mem_cap.mpr ⟨hmem, hrank, rfl⟩
    exact List.mem_map.mpr ⟨_, List.mem_map_of_mem hkept, rfl⟩

@[simp] theorem keysOf_nil (deviceId : String) : keysOf deviceId [] = [] := rfl

theorem keysOf_foldedRows_of_ne {events : List EventRow} {day deviceId other : String}
    (hne : other ≠ deviceId) : keysOf deviceId (foldedRows events day (some other)) = [] := by
  rw [List.eq_nil_iff_forall_not_mem]
  intro k hk
  obtain ⟨r, hr, hdevice, -⟩ := countKey_pos.mp (mem_keysOf.mp hk)
  obtain ⟨-, hr⟩ := List.mem_filter.mp hr
  exact hne ((of_decide_eq_true hr).1.symm.trans hdevice)

/-- A call upserts the keys of the day that have fewer than 64 keys ahead of them. -/
theorem mem_folded {tables : EventTables} {call : EventCall} {deviceId day k : String} :
    (deviceId, day, k) ∈ (folded tables call).map RollupRow.key ↔
      k ∈ keysOf deviceId (foldedDay tables call deviceId day) ∧
        seatRank deviceId (foldedDay tables call deviceId day) k < maxEventKeysPerDeviceDay := by
  cases call with
  | storeEvents b =>
    dsimp only [folded, foldedDay]
    by_cases hnone : b.stored = []
    · simp [hnone]
    · rw [if_neg hnone, mem_foldRows]
      by_cases hday : sliceText 10 b.recv = day
      · subst hday
        by_cases hdevice : b.deviceId = deviceId
        · rw [if_pos ⟨hnone, hdevice, rfl⟩, hdevice, keysOf_foldedRows _ _ (.inr rfl),
            seatRank_foldedRows _ _ _ (.inr rfl)]
          simp
        · rw [if_neg fun h => hdevice h.2.1, keysOf_foldedRows_of_ne hdevice]
          simp
      · rw [if_neg fun h => hday h.2.2]
        simp [hday]
  | rollupEventsDaily d =>
    dsimp only [folded, foldedDay]
    rw [mem_foldRows]
    by_cases hday : d = day
    · subst hday
      rw [if_pos rfl, keysOf_foldedRows _ _ (.inl rfl), seatRank_foldedRows _ _ _ (.inl rfl)]
      simp
    · rw [if_neg hday]
      simp [hday]

theorem rowsOf_eq_keys (deviceId day : String) (rows : List RollupRow) :
    rowsOf deviceId day rows =
      (rows.map RollupRow.key).countP fun k => k.1 = deviceId ∧ k.2.1 = day := by
  unfold rowsOf
  rw [List.countP_map]
  rfl

theorem newKeys_perm (tables : EventTables) (call : EventCall) (deviceId day : String) :
    ((newKeys tables call deviceId day).map fun k => (deviceId, day, k)).Perm
      ((((folded tables call).map RollupRow.key).filter
        fun k => k ∉ tables.rollup.map RollupRow.key).filter
          fun k => k.1 = deviceId ∧ k.2.1 = day) := by
  have hinj : Function.Injective fun k : String => (deviceId, day, k) := by
    intro k k' h
    simpa using h
  have hnew : (newKeys tables call deviceId day).Nodup := (keysOf_nodup _ _).filter _
  rw [List.perm_ext_iff_of_nodup (hnew.map hinj) (((folded_nodup tables call).filter _).filter _)]
  rintro ⟨d, day', k⟩
  constructor
  · intro h
    obtain ⟨j, hj, heq⟩ := List.mem_map.mp h
    obtain ⟨rfl, rfl, rfl⟩ : deviceId = d ∧ day = day' ∧ j = k := by simpa using heq
    obtain ⟨hmem, hcond⟩ := List.mem_filter.mp hj
    obtain ⟨hrank, hunseen⟩ := of_decide_eq_true hcond
    refine List.mem_filter.mpr ⟨List.mem_filter.mpr ⟨?_, ?_⟩, ?_⟩
    · exact mem_folded.mpr ⟨hmem, hrank⟩
    · exact decide_eq_true hunseen
    · simp
  · intro h
    obtain ⟨h, hday⟩ := List.mem_filter.mp h
    obtain ⟨hfolded, hunseen⟩ := List.mem_filter.mp h
    obtain ⟨rfl, rfl⟩ : d = deviceId ∧ day' = day := of_decide_eq_true hday
    obtain ⟨hmem, hrank⟩ := mem_folded.mp hfolded
    apply List.mem_map_of_mem
    exact List.mem_filter.mpr ⟨hmem, decide_eq_true ⟨hrank, of_decide_eq_true hunseen⟩⟩

/-- A call adds one row for each new key. -/
theorem rowsOf_next (cap : Int) (tables : EventTables) (call : EventCall)
    (deviceId day : String) :
    rowsOf deviceId day ((eventStore cap).next tables call).rollup =
      rowsOf deviceId day tables.rollup + (newKeys tables call deviceId day).length := by
  have hlength := (newKeys_perm tables call deviceId day).length_eq
  rw [List.length_map, ← List.countP_eq_length_filter] at hlength
  rw [hlength, rowsOf_eq_keys, rowsOf_eq_keys, next_rollup,
    keys_upsertAll maxCount_key (folded_nodup tables call), List.countP_append]
  congr!

theorem bounded_next_iff (cap : Int) (tables : EventTables) (call : EventCall) :
    Bounded ((eventStore cap).next tables call) ↔ SeatsSuffice tables call := by
  unfold Bounded SeatsSuffice
  simp only [rowsOf_next]

/-- **The rollup holds at most 64 rows for each device and day throughout a run iff at every
    call of the run each device has a seat for each of its new keys.** -/
theorem rollup_bounded_iff (cap : Int) (calls : List EventCall) :
    (∀ k, Bounded ((eventStore cap).stateAfter {} (calls.take k))) ↔
      (eventStore cap).Along SeatsSuffice {} calls := by
  have hempty : Bounded {} := fun _ _ => Nat.zero_le _
  exact (Machine.along_iff_invariant
    (fun tables call _ => (bounded_next_iff cap tables call).symm) hempty calls).symm

/-! ### A key more than the seats -/

theorem length_le_rowsOf {deviceId day : String} {ks : List String} (hks : ks.Nodup)
    {rows : List RollupRow} (h : ∀ k ∈ ks, (deviceId, day, k) ∈ rows.map RollupRow.key) :
    ks.length ≤ rowsOf deviceId day rows := by
  have hnodup : (ks.map fun k => (deviceId, day, k)).Nodup :=
    hks.map fun k k' hkk' => by simpa using hkk'
  have hsub : (ks.map fun k => (deviceId, day, k)) ⊆
      (rows.map RollupRow.key).filter fun k => k.1 = deviceId ∧ k.2.1 = day := by
    intro x hx
    obtain ⟨k, hk, rfl⟩ := List.mem_map.mp hx
    exact List.mem_filter.mpr ⟨h k hk, by simp⟩
  have hle := (hnodup.subperm hsub).length_le
  rwa [List.length_map, ← List.countP_eq_length_filter, ← rowsOf_eq_keys] at hle

theorem mem_next_keys {cap : Int} {tables : EventTables} {call : EventCall}
    {k : String × String × String} :
    k ∈ ((eventStore cap).next tables call).rollup.map RollupRow.key ↔
      k ∈ tables.rollup.map RollupRow.key ∨ k ∈ (folded tables call).map RollupRow.key := by
  rw [next_rollup]
  exact mem_keys_upsertAll maxCount_key

def fakeBatch (ids : List Int) : EventBatch where
  deviceId := "pc-1"
  events := ids.map fun id => { source := some "fake", eventId := some (.integer id) }
  receivedAt := some "2026-03-01T10:00:00+00:00"

def fakeKey (id : Int) : String := sliceText eventSourceMaxLen "fake" ++ ":" ++ toString id

theorem fakeKey_injective : Function.Injective fakeKey := by
  intro id id' h
  unfold fakeKey at h
  exact Int.repr_injective ((String.append_right_inj _).mp h)

def fakeDay : String := sliceText 10 "2026-03-01T10:00:00+00:00"

theorem mem_fakeRows {ids : List Int} {r : EventRow} (h : r ∈ (fakeBatch ids).rows) :
    r.deviceId = "pc-1" ∧ r.day = fakeDay := by
  obtain ⟨hdevice, hday⟩ := mem_rows h
  have hrecv : (fakeBatch ids).recv = "2026-03-01T10:00:00+00:00" := by
    simp [fakeBatch, EventBatch.recv]
  rw [hrecv] at hday
  exact ⟨hdevice, hday⟩

theorem countKey_fakeBatch (ids : List Int) (k : String) :
    countKey "pc-1" k (fakeBatch ids).rows = (ids.map fakeKey).count k := by
  have hrows : (fakeBatch ids).rows.map EventRow.eventKey = (ids.map fakeKey).map some := by
    simp only [fakeBatch, EventBatch.rows, List.map_map]
    rfl
  have hcount : countKey "pc-1" k (fakeBatch ids).rows =
      ((fakeBatch ids).rows.map EventRow.eventKey).count (some k) := by
    unfold countKey List.count
    rw [List.countP_map]
    refine List.countP_congr fun r hr => ?_
    simp [(mem_fakeRows hr).1]
  rw [hcount, hrows, List.count_map_of_injective _ _ (Option.some_injective _)]

theorem foldedDay_fake {tables : EventTables} {ids : List Int} (hids : ids ≠ [])
    (hfits : (fakeBatch ids).fits = true)
    (hday : ∀ r ∈ tables.events, r.deviceId = "pc-1" ∧ r.day = fakeDay) :
    foldedDay tables (.storeEvents (fakeBatch ids)) "pc-1" fakeDay =
      tables.events ++ (fakeBatch ids).rows := by
  have hrows : (fakeBatch ids).rows ≠ [] := by simpa [fakeBatch, EventBatch.rows] using hids
  have hrecv : sliceText 10 (fakeBatch ids).recv = fakeDay := by
    obtain ⟨r, hr⟩ := List.exists_mem_of_ne_nil _ hrows
    exact (mem_rows hr).2.symm.trans (mem_fakeRows hr).2
  have hstored : (fakeBatch ids).stored = (fakeBatch ids).rows := if_pos hfits
  dsimp only [foldedDay]
  rw [hstored, if_pos ⟨hrows, rfl, hrecv⟩]
  apply List.filter_eq_self.mpr
  intro r hr
  rcases List.mem_append.mp hr with hr | hr
  · exact decide_eq_true (hday r hr)
  · exact decide_eq_true (mem_fakeRows hr)

def firstIds : List Int := (List.range 64).map Int.ofNat

/-- 64 keys in one envelope, and a new key twice in the next one. -/
def noisyCalls : List EventCall :=
  [.storeEvents (fakeBatch firstIds), .storeEvents (fakeBatch [64, 64])]

theorem firstIds_nodup : (firstIds ++ [64]).Nodup := by decide

def afterFirst : EventTables := (eventStore 1000).next {} (.storeEvents (fakeBatch firstIds))

theorem afterFirst_events :
    afterFirst.events.Sublist (fakeBatch firstIds).rows := by
  have hstored : (fakeBatch firstIds).stored = (fakeBatch firstIds).rows := if_pos (by decide)
  unfold afterFirst
  rw [next_storeEvents, hstored]
  split
  · exact List.nil_sublist _
  · exact prune_sublist _ _ _

theorem afterFirst_keys {id : Int} (h : id ∈ firstIds) :
    ("pc-1", fakeDay, fakeKey id) ∈ afterFirst.rollup.map RollupRow.key := by
  apply mem_next_keys.mpr
  right
  rw [mem_folded, foldedDay_fake (List.ne_nil_of_mem h) (by decide) (List.forall_mem_nil _),
    List.nil_append]
  have hmem : fakeKey id ∈ keysOf "pc-1" (fakeBatch firstIds).rows := by
    rw [mem_keysOf, countKey_fakeBatch, List.count_pos_iff]
    exact List.mem_map_of_mem h
  have hfew : (keysOf "pc-1" (fakeBatch firstIds).rows).length ≤ maxEventKeysPerDeviceDay := by
    have hkeys : (keysOf "pc-1" (fakeBatch firstIds).rows).length ≤
        (firstIds.map fakeKey).dedup.length := by
      apply length_keysOf_le
      intro k hk
      rwa [countKey_fakeBatch, List.count_pos_iff] at hk
    refine (hkeys.trans (List.dedup_sublist _).length_le).trans ?_
    rw [List.length_map]
    decide
  exact ⟨hmem, seatRank_lt_of_few hmem hfew⟩

theorem newKey_loudest {rows : List EventRow} (hrows : rows.Sublist (fakeBatch firstIds).rows)
    {k : String} (hne : k ≠ fakeKey 64) :
    countKey "pc-1" k (rows ++ (fakeBatch [64, 64]).rows) < 2 := by
  have hfirst : countKey "pc-1" k rows ≤ 1 := by
    have hle : countKey "pc-1" k rows ≤ countKey "pc-1" k (fakeBatch firstIds).rows :=
      hrows.countP_le
    rw [countKey_fakeBatch] at hle
    have hnodup : (firstIds.map fakeKey).Nodup :=
      (List.Nodup.of_append_left firstIds_nodup).map fakeKey_injective
    exact hle.trans (List.nodup_iff_count_le_one.mp hnodup k)
  have hsecond : countKey "pc-1" k (fakeBatch [64, 64]).rows = 0 := by
    rw [countKey_fakeBatch]
    exact List.count_eq_zero_of_not_mem fun hmem => hne (by simpa using hmem)
  rw [countKey_append, hsecond]
  omega

theorem newKey_folded : ("pc-1", fakeDay, fakeKey 64) ∈
    (folded afterFirst (.storeEvents (fakeBatch [64, 64]))).map RollupRow.key := by
  have htwo : 2 ≤ countKey "pc-1" (fakeKey 64)
      (afterFirst.events ++ (fakeBatch [64, 64]).rows) := by
    rw [countKey_append, countKey_fakeBatch]
    simp
  rw [mem_folded, foldedDay_fake (by decide) (by decide)
    fun r hr => mem_fakeRows (afterFirst_events.subset hr)]
  constructor
  · rw [mem_keysOf]
    omega
  · rw [seatRank_eq_zero]
    · decide
    · intro k _ hne
      exact (newKey_loudest afterFirst_events hne).trans_le htwo

/-- Two envelopes leave 65 rows for one device and day. -/
theorem noisyCalls_exceed :
    ¬ ∀ k, Bounded ((eventStore 1000).stateAfter {} (noisyCalls.take k)) := by
  intro h
  have hrow : ∀ key ∈ (firstIds ++ [64]).map fakeKey, ("pc-1", fakeDay, key) ∈
      ((eventStore 1000).stateAfter {} (noisyCalls.take 2)).rollup.map RollupRow.key := by
    intro key hkey
    obtain ⟨id, hid, rfl⟩ := List.mem_map.mp hkey
    refine mem_next_keys.mpr ?_
    rcases List.mem_append.mp hid with hid | hid
    · exact .inl (afterFirst_keys hid)
    · obtain rfl := List.mem_singleton.mp hid
      exact .inr newKey_folded
  have hrows := length_le_rowsOf (firstIds_nodup.map fakeKey_injective) hrow
  have hbound := h 2 "pc-1" fakeDay
  have hlength : ((firstIds ++ [64]).map fakeKey).length = maxEventKeysPerDeviceDay + 1 := by
    rw [List.length_map]
    decide
  omega

end Srp.Db
