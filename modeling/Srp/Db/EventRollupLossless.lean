/-
  Srp/Db/EventRollupLossless.lean
  ===============================
  **When the event rollup of a day is lossless.**

  Each `store_events` folds the rows that are left of the day together with the new
  ones, and the rollup keeps the largest count it has seen.  So the rollup of a key
  is the largest of its counts in the windows of the calls, and it is the number of
  events ever stored iff, at the last call that brings the key, none of its earlier
  events had been cut.
-/
import Srp.Db.EventRollup

namespace Srp.Db

open Srp.Lib Srp.Lib.PyNum Srp.Lib.Table Srp.Lib.Window

/-! ### Windows -/

def storedRows (batches : List EventBatch) : List EventRow := batches.flatMap EventBatch.stored

@[simp] theorem storedRows_nil : storedRows [] = [] := rfl

@[simp] theorem storedRows_append (bs bs' : List EventBatch) :
    storedRows (bs ++ bs') = storedRows bs ++ storedRows bs' := List.flatMap_append

@[simp] theorem storedRows_cons (b : EventBatch) (bs : List EventBatch) :
    storedRows (b :: bs) = b.stored ++ storedRows bs := List.flatMap_cons

/-- What the fold of a call counts: the rows that the earlier calls left, and its own. -/
def window (cap : Int) (before : List EventBatch) (b : EventBatch) : List EventRow :=
  newest cap (storedRows before) ++ b.stored

/-- No window of the calls shows more than `m` events of the key. -/
def WindowsLe (cap : Int) (deviceId eventKey : String) (batches : List EventBatch) (m : Nat) :
    Prop :=
  ∀ before b after, batches = before ++ b :: after →
    countKey deviceId eventKey (window cap before b) ≤ m

/-- At the last call that brings the key, none of its earlier events had been cut. -/
def NothingCut (cap : Int) (deviceId eventKey : String) (batches : List EventBatch) : Prop :=
  ∀ before b after, batches = before ++ b :: after →
    0 < countKey deviceId eventKey b.stored → countKey deviceId eventKey (storedRows after) = 0 →
      countKey deviceId eventKey (newest cap (storedRows before)) =
        countKey deviceId eventKey (storedRows before)

section Windows

variable {cap : Int} {deviceId eventKey : String} {batches : List EventBatch} {m : Nat}

theorem windowsLe_nil : WindowsLe cap deviceId eventKey [] m := by
  intro before b after h
  simp at h

theorem windowsLe_append_singleton {b : EventBatch} :
    WindowsLe cap deviceId eventKey (batches ++ [b]) m ↔
      WindowsLe cap deviceId eventKey batches m ∧
        countKey deviceId eventKey (window cap batches b) ≤ m := by
  constructor
  · intro h
    refine ⟨fun before b' after hsplit => ?_, h batches b [] rfl⟩
    exact h before b' (after ++ [b]) (by simp [hsplit])
  · rintro ⟨h, hlast⟩ before b' after hsplit
    rcases List.eq_nil_or_concat' after with rfl | ⟨after, c, rfl⟩
    · obtain ⟨rfl, hb⟩ := List.append_inj' hsplit rfl
      obtain rfl : b = b' := by simpa using hb
      exact hlast
    · have hsplit' : batches ++ [b] = (before ++ b' :: after) ++ [c] := by
        rw [hsplit]
        simp
      exact h before b' after (List.append_inj' hsplit' rfl).1

theorem WindowsLe.left (h : WindowsLe cap deviceId eventKey batches m) :
    countKey deviceId eventKey (newest cap (storedRows batches)) ≤ m := by
  rcases List.eq_nil_or_concat' batches with rfl | ⟨before, b, rfl⟩
  · simp [countKey, newest]
  · have hlast := h before b [] rfl
    rw [window, countKey_append] at hlast
    have hslide := countP_newest_append_le
      (fun r => decide (r.deviceId = deviceId ∧ r.eventKey = some eventKey)) cap
      (storedRows before) b.stored
    rw [storedRows_append, storedRows_cons, storedRows_nil, List.append_nil]
    exact hslide.trans hlast

theorem windowsLe_total :
    WindowsLe cap deviceId eventKey batches (countKey deviceId eventKey (storedRows batches)) := by
  intro before b after hsplit
  rw [hsplit, window, storedRows_append, storedRows_cons, countKey_append, countKey_append,
    countKey_append]
  have hle : countKey deviceId eventKey (newest cap (storedRows before)) ≤
      countKey deviceId eventKey (storedRows before) := countP_newest_le _ cap _
  omega

theorem exists_last_call (h : 0 < countKey deviceId eventKey (storedRows batches)) :
    ∃ before b after, batches = before ++ b :: after ∧
      0 < countKey deviceId eventKey b.stored ∧
        countKey deviceId eventKey (storedRows after) = 0 := by
  induction batches with
  | nil => simp [countKey] at h
  | cons b batches ih =>
    rcases Nat.eq_zero_or_pos (countKey deviceId eventKey (storedRows batches)) with hzero | hpos
    · rw [storedRows_cons, countKey_append, hzero, Nat.add_zero] at h
      exact ⟨[], b, batches, rfl, h, hzero⟩
    · obtain ⟨before, b', after, rfl, hb', hafter⟩ := ih hpos
      exact ⟨b :: before, b', after, rfl, hb', hafter⟩

theorem countKey_split {before after : List EventBatch} {b : EventBatch} :
    countKey deviceId eventKey (storedRows (before ++ b :: after)) =
      countKey deviceId eventKey (storedRows before) + (countKey deviceId eventKey b.stored +
        countKey deviceId eventKey (storedRows after)) := by
  rw [storedRows_append, storedRows_cons, countKey_append, countKey_append]

/-- A window shows every event of the key iff nothing was cut before and nothing comes after. -/
theorem full_window_iff {before after : List EventBatch} {b : EventBatch} :
    countKey deviceId eventKey (storedRows (before ++ b :: after)) ≤
        countKey deviceId eventKey (window cap before b) ↔
      countKey deviceId eventKey (newest cap (storedRows before)) =
          countKey deviceId eventKey (storedRows before) ∧
        countKey deviceId eventKey (storedRows after) = 0 := by
  have hle : countKey deviceId eventKey (newest cap (storedRows before)) ≤
      countKey deviceId eventKey (storedRows before) := countP_newest_le _ cap _
  rw [countKey_split, window, countKey_append]
  omega

theorem last_call_le {before after before' after' : List EventBatch} {b b' : EventBatch}
    (h : before ++ b :: after = before' ++ b' :: after')
    (hb : 0 < countKey deviceId eventKey b.stored)
    (hafter' : countKey deviceId eventKey (storedRows after') = 0) :
    ∃ rest, before' = before ++ rest := by
  rcases List.append_eq_append_iff.mp h with ⟨rest, hrest, -⟩ | ⟨rest, hbefore, hrest⟩
  · exact ⟨rest, hrest⟩
  · cases rest with
    | nil => exact ⟨[], by simpa using hbefore.symm⟩
    | cons c rest =>
      -- `b` would be one of the calls after `b'`
      have hlater : after' = rest ++ b :: after := (List.cons.inj hrest).2
      rw [hlater, countKey_split] at hafter'
      omega

/-- Some window shows every event of the key iff none was cut before its last call. -/
theorem windowsLe_iff_nothingCut :
    (∀ m, WindowsLe cap deviceId eventKey batches m →
      countKey deviceId eventKey (storedRows batches) ≤ m) ↔
        NothingCut cap deviceId eventKey batches := by
  constructor
  · intro h before b after hsplit hb _
    obtain ⟨before', b', after', hsplit', hfull⟩ : ∃ before' b' after',
        batches = before' ++ b' :: after' ∧ countKey deviceId eventKey (storedRows batches) ≤
          countKey deviceId eventKey (window cap before' b') := by
      by_contra hnone
      have hshort : WindowsLe cap deviceId eventKey batches
          (countKey deviceId eventKey (storedRows batches) - 1) := by
        intro before' b' after' hsplit'
        by_contra hlong
        exact hnone ⟨before', b', after', hsplit', by omega⟩
      have hpos : 0 < countKey deviceId eventKey (storedRows batches) := by
        rw [hsplit, countKey_split]
        omega
      have := h _ hshort
      omega
    rw [hsplit', full_window_iff] at hfull
    obtain ⟨rest, rfl⟩ := last_call_le (hsplit.symm.trans hsplit') hb hfull.2
    rw [storedRows_append] at hfull
    exact countP_newest_eq_of_append _ cap hfull.1
  · intro hcut m hm
    rcases Nat.eq_zero_or_pos (countKey deviceId eventKey (storedRows batches)) with hzero | hpos
    · omega
    · obtain ⟨before, b, after, rfl, hb, hafter⟩ := exists_last_call hpos
      have hfull : countKey deviceId eventKey (storedRows (before ++ b :: after)) ≤
          countKey deviceId eventKey (window cap before b) :=
        full_window_iff.mpr ⟨hcut before b after rfl hb hafter, hafter⟩
      exact hfull.trans (hm before b after rfl)

end Windows

/-! ### One day of one device -/

/-- Nothing of the device is on record for the day. -/
def NotStarted (deviceId day : String) (tables : EventTables) : Prop :=
  dayRows tables.events deviceId day = [] ∧
    ∀ eventKey, rolledUp tables.rollup deviceId day eventKey = 0

/-- The tables after the calls `batches` of the day. -/
structure DayState (cap : Int) (deviceId day : String) (batches : List EventBatch)
    (tables : EventTables) : Prop where
  events : ∃ kept, (∀ r ∈ kept, r.day ≠ day) ∧
    tables.events.filter (fun r => r.deviceId = deviceId) = kept ++ newest cap (storedRows batches)
  rollup : ∀ eventKey m, rolledUp tables.rollup deviceId day eventKey ≤ m ↔
    WindowsLe cap deviceId eventKey batches m

def OnDay (deviceId day : String) (batches : List EventBatch) : Prop :=
  ∀ b ∈ batches, b.deviceId = deviceId ∧ sliceText 10 b.recv = day

theorem mem_storedRows {deviceId day : String} {batches : List EventBatch} {r : EventRow}
    (hday : OnDay deviceId day batches) (h : r ∈ storedRows batches) :
    r.deviceId = deviceId ∧ r.day = day := by
  obtain ⟨b, hb, hr⟩ := List.mem_flatMap.mp h
  unfold EventBatch.stored at hr
  split at hr
  · obtain ⟨hd, hd'⟩ := mem_rows hr
    exact ⟨hd.trans (hday b hb).1, hd'.trans (hday b hb).2⟩
  · cases hr

def KeysIn (deviceId : String) (ks : List String) (batches : List EventBatch) : Prop :=
  ∀ k, 0 < countKey deviceId k (storedRows batches) → k ∈ ks

namespace DayState

variable {cap : Int} {deviceId day : String} {batches : List EventBatch} {tables : EventTables}

theorem init (h : NotStarted deviceId day tables) : DayState cap deviceId day [] tables where
  events := by
    refine ⟨tables.events.filter fun r => r.deviceId = deviceId, fun r hr hday => ?_, ?_⟩
    · have hmem : r ∈ dayRows tables.events deviceId day := by
        obtain ⟨hr, hd⟩ := List.mem_filter.mp hr
        exact List.mem_filter.mpr ⟨hr, by simpa [hday] using hd⟩
      rw [h.1] at hmem
      cases hmem
    · simp [newest]
  rollup eventKey m := by
    rw [h.2 eventKey]
    exact ⟨fun _ => windowsLe_nil, fun _ => Nat.zero_le m⟩

/-- The rows of the day are the newest ones of the day's calls. -/
theorem dayRows_append (h : DayState cap deviceId day batches tables)
    (hday : OnDay deviceId day batches) {rows : List EventRow}
    (hrows : ∀ r ∈ rows, r.deviceId = deviceId ∧ r.day = day) :
    dayRows (tables.events ++ rows) deviceId day = newest cap (storedRows batches) ++ rows := by
  obtain ⟨kept, hkept, hevents⟩ := h.events
  have hsplit : dayRows tables.events deviceId day =
      (tables.events.filter fun r => r.deviceId = deviceId).filter fun r => r.day = day := by
    unfold dayRows
    rw [List.filter_filter]
    exact List.filter_congr fun r _ => by simp [Bool.and_comm]
  have hold : dayRows tables.events deviceId day = newest cap (storedRows batches) := by
    rw [hsplit, hevents, List.filter_append, List.filter_eq_nil_iff.mpr, List.nil_append,
      List.filter_eq_self.mpr]
    · intro r hr
      exact decide_eq_true (mem_storedRows hday ((newest_suffix cap _).subset hr)).2
    · intro r hr
      simpa using hkept r hr
  have hnew : dayRows rows deviceId day = rows :=
    List.filter_eq_self.mpr fun r hr => decide_eq_true (hrows r hr)
  rw [← hold]
  exact (List.filter_append ..).trans (congrArg (dayRows tables.events deviceId day ++ ·) hnew)

theorem storeEvents (h : DayState cap deviceId day batches tables) {b : EventBatch}
    (hday : OnDay deviceId day (batches ++ [b])) {ks : List String}
    (hks : ks.dedup.length ≤ maxEventKeysPerDeviceDay)
    (hkeys : KeysIn deviceId ks (batches ++ [b])) :
    DayState cap deviceId day (batches ++ [b])
      ((eventStore cap).next tables (.storeEvents b)) := by
  have hbefore : OnDay deviceId day batches := fun c hc => hday c (List.mem_append_left _ hc)
  obtain ⟨hdevice, hrecv⟩ := hday b (by simp)
  rw [next_storeEvents]
  by_cases hnone : b.stored = []
  · -- nothing is inserted, and the rows that are left show no more than the last window
    rw [if_pos hnone]
    refine ⟨?_, fun eventKey m => ?_⟩
    · simpa [hnone] using h.events
    · rw [h.rollup, windowsLe_append_singleton, window, hnone, List.append_nil]
      exact ⟨fun hm => ⟨hm, hm.left⟩, fun hm => hm.1⟩
  · rw [if_neg hnone]
    have hrows : ∀ r ∈ b.stored, r.deviceId = deviceId ∧ r.day = day := by
      intro r hr
      have hone : OnDay deviceId day [b] := fun c hc => hday c (List.mem_append_right _ hc)
      exact mem_storedRows hone (by simpa using hr)
    refine ⟨?_, fun eventKey m => ?_⟩
    · obtain ⟨kept, hkept, hevents⟩ := h.events
      obtain ⟨kept', hsuffix, hcut⟩ :=
        newest_append cap kept (newest cap (storedRows batches) ++ b.stored)
      refine ⟨kept', fun r hr => hkept r (hsuffix.subset hr), ?_⟩
      have hself : b.stored.filter (fun r => r.deviceId = deviceId) = b.stored :=
        List.filter_eq_self.mpr fun r hr => decide_eq_true (hrows r hr).1
      rw [hdevice, filter_prune, List.filter_append, hevents, hself, List.append_assoc, hcut,
        newest_append_newest, storedRows_append, storedRows_cons, storedRows_nil, List.append_nil]
    · have hwindow := h.dayRows_append hbefore hrows
      rw [hdevice, hrecv, rolledUp_fold_le (.inr rfl) hks, h.rollup, windowsLe_append_singleton,
        hwindow, window]
      intro k hk
      refine hkeys k (hk.trans_le ?_)
      rw [hwindow, storedRows_append, storedRows_cons, storedRows_nil, List.append_nil,
        countKey_append, countKey_append]
      exact Nat.add_le_add_right (countP_newest_le _ cap _) _

/-- A pass of the whole day finds nothing that the calls have not folded. -/
theorem rollupEventsDaily (h : DayState cap deviceId day batches tables)
    (hday : OnDay deviceId day batches) {ks : List String}
    (hks : ks.dedup.length ≤ maxEventKeysPerDeviceDay) (hkeys : KeysIn deviceId ks batches) :
    DayState cap deviceId day batches
      ((eventStore cap).next tables (.rollupEventsDaily day)) := by
  have hwindow : dayRows tables.events deviceId day = newest cap (storedRows batches) := by
    simpa using h.dayRows_append hday (List.forall_mem_nil _)
  refine ⟨h.events, fun eventKey m => ?_⟩
  have hleft : ∀ k, 0 < countKey deviceId k (dayRows tables.events deviceId day) → k ∈ ks := by
    intro k hk
    rw [hwindow] at hk
    exact hkeys k (hk.trans_le (countP_newest_le _ cap _))
  have hfold := @rolledUp_fold_le tables deviceId day none (.inl rfl) ks hks hleft eventKey m
  rw [hwindow, h.rollup] at hfold
  exact hfold.trans ⟨fun hm => hm.1, fun hm => ⟨hm, hm.left⟩⟩

end DayState

/-! ### The day's calls and the passes after them -/

def dayCalls (batches : List EventBatch) (day : String) (passes : Nat) : List EventCall :=
  batches.map .storeEvents ++ List.replicate passes (.rollupEventsDaily day)

/-- Afterwards the rollup of every key is the number of its events ever stored. -/
def Lossless (cap : Int) (deviceId day : String) (tables : EventTables)
    (batches : List EventBatch) (passes : Nat) : Prop :=
  ∀ eventKey,
    rolledUp ((eventStore cap).stateAfter tables (dayCalls batches day passes)).rollup
      deviceId day eventKey = countKey deviceId eventKey (storedRows batches)

section Day

variable {cap : Int} {deviceId day : String} {tables : EventTables} {ks : List String}

theorem dayState_storeEvents (hstart : NotStarted deviceId day tables)
    (hks : ks.dedup.length ≤ maxEventKeysPerDeviceDay) {batches : List EventBatch}
    (hday : OnDay deviceId day batches) (hkeys : KeysIn deviceId ks batches) :
    DayState cap deviceId day batches
      ((eventStore cap).stateAfter tables (batches.map .storeEvents)) := by
  induction batches using List.reverseRecOn with
  | nil => exact DayState.init hstart
  | append_singleton batches b ih =>
    have hbefore : DayState cap deviceId day batches
        ((eventStore cap).stateAfter tables (batches.map .storeEvents)) := by
      refine ih (fun c hc => hday c (List.mem_append_left _ hc)) fun k hk => hkeys k ?_
      rw [storedRows_append, countKey_append]
      omega
    rw [List.map_append, Machine.stateAfter_append]
    exact hbefore.storeEvents hday hks hkeys

theorem dayState_passes (hks : ks.dedup.length ≤ maxEventKeysPerDeviceDay)
    {batches : List EventBatch} (hday : OnDay deviceId day batches)
    (hkeys : KeysIn deviceId ks batches) (passes : Nat)
    (h : DayState cap deviceId day batches tables) :
    DayState cap deviceId day batches
      ((eventStore cap).stateAfter tables (List.replicate passes (.rollupEventsDaily day))) := by
  induction passes generalizing tables with
  | zero => exact h
  | succ passes ih => exact ih (h.rollupEventsDaily hday hks hkeys)

theorem DayState.complete_iff {batches : List EventBatch}
    (h : DayState cap deviceId day batches tables) (eventKey : String) :
    rolledUp tables.rollup deviceId day eventKey =
        countKey deviceId eventKey (storedRows batches) ↔
      NothingCut cap deviceId eventKey batches := by
  have hle : rolledUp tables.rollup deviceId day eventKey ≤
      countKey deviceId eventKey (storedRows batches) := (h.rollup eventKey _).mpr windowsLe_total
  rw [← windowsLe_iff_nothingCut]
  constructor
  · intro heq m hm
    rw [← heq]
    exact (h.rollup eventKey m).mpr hm
  · intro hfull
    exact le_antisymm hle (hfull _ ((h.rollup eventKey _).mp (le_refl _)))

end Day

/-- **The rollup of a day is lossless iff, for every key, none of its earlier events had been
    cut when the last call with that key came in.** -/
theorem rollup_lossless_iff (cap : Int) (deviceId day : String) (tables : EventTables)
    (batches : List EventBatch) (passes : Nat) (hstart : NotStarted deviceId day tables)
    (hday : OnDay deviceId day batches)
    (hkeys : ((storedRows batches).filterMap EventRow.eventKey).dedup.length ≤
      maxEventKeysPerDeviceDay) :
    Lossless cap deviceId day tables batches passes ↔
      ∀ eventKey, NothingCut cap deviceId eventKey batches := by
  have hin : KeysIn deviceId ((storedRows batches).filterMap EventRow.eventKey) batches := by
    intro k hk
    obtain ⟨r, hr, -, hkey⟩ := countKey_pos.mp hk
    exact List.mem_filterMap.mpr ⟨r, hr, hkey⟩
  have hstored := @dayState_storeEvents cap _ _ _ _ hstart hkeys _ hday hin
  have hstate := dayState_passes hkeys hday hin passes hstored
  rw [← Machine.stateAfter_append] at hstate
  exact forall_congr' hstate.complete_iff

def burst (n : Nat) : EventBatch where
  deviceId := "pc-1"
  events := List.replicate n { source := some "disk", eventId := some (.integer 7) }
  receivedAt := some "2026-03-01T10:00:00+00:00"

/-- One envelope beyond the row cap is folded before the cut. -/
theorem oneBurst_lossless : Lossless 2 "pc-1" "2026-03-01" {} [burst 3] 2 := by
  refine (rollup_lossless_iff 2 "pc-1" "2026-03-01" {} [burst 3] 2 ⟨rfl, fun _ => rfl⟩ ?_
    (by decide +kernel)).mpr ?_
  · intro b hb
    obtain rfl := List.mem_singleton.mp hb
    decide +kernel
  · intro eventKey before b after hsplit _ _
    rcases before with - | ⟨c, before⟩
    · rfl
    · simp at hsplit

/-- With a cap of 2, the second of three bursts meets rows of the first that the third does
    not see any more. -/
theorem threeBursts_undercounted :
    NotStarted "pc-1" "2026-03-01" {} ∧ OnDay "pc-1" "2026-03-01" [burst 2, burst 1, burst 1] ∧
      ((storedRows [burst 2, burst 1, burst 1]).filterMap EventRow.eventKey).dedup.length ≤
        maxEventKeysPerDeviceDay ∧
      ¬ Lossless 2 "pc-1" "2026-03-01" {} [burst 2, burst 1, burst 1] 1 := by
  refine ⟨⟨rfl, fun _ => rfl⟩, ?_, by decide +kernel, fun h => ?_⟩
  · intro b hb
    simp only [List.mem_cons, List.not_mem_nil, or_false] at hb
    rcases hb with rfl | rfl | rfl <;> decide +kernel
  · exact absurd (h "disk:7") (by decide +kernel)

end Srp.Db
