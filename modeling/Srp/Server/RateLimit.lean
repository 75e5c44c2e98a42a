/-
  Srp/Server/RateLimit.lean
  =========================
  **The rate limit of the ingest endpoints** (`check_rate_limit` of
  `server/ingest_guards.py`).

  Each key has the times of its recent accepted requests.  A request drops the
  times that have left the window and is accepted while fewer than the limit
  remain.  Once many keys are tracked, any request first drops the keys without a
  recent time, whoever they belong to; `rate_limit_safe` says that this reopens
  nobody's budget.
-/
import Mathlib.Data.Rat.Defs
import Mathlib.Algebra.Order.Ring.Rat
import Srp.Lib.Machine
import Srp.Lib.SlidingWindow
import Srp.Lib.Table

namespace Srp.Server

open Srp.Lib Srp.Lib.SlidingWindow Srp.Lib.Table

/-! ### The guard -/

/-- `_RATE_WINDOW_SEC`, `_RATE_MAX_PER_WINDOW`, `_TRIM_THRESHOLD`. -/
structure RateConfig where
  windowSec : ℚ := 60
  maxPerWindow : Nat := 30
  trimThreshold : Nat := 50000

/-- An entry of `_device_windows`. -/
structure DeviceWindow where
  deviceId : String
  times : List ℚ
deriving DecidableEq, Repr

/-- `_device_windows.get(device_id, [])`. -/
def getTimes (windows : List DeviceWindow) (deviceId : String) : List ℚ :=
  ((row DeviceWindow.deviceId windows deviceId).map (·.times)).getD []

/-- `_device_windows[device_id] = times`. -/
def setTimes (windows : List DeviceWindow) (deviceId : String) (times : List ℚ) :
    List DeviceWindow :=
  upsert DeviceWindow.deviceId (fun _ new => new) { deviceId := deviceId, times := times } windows

variable (cfg : RateConfig)

/-- The opportunistic trim. -/
def trimWindows (now : ℚ) (windows : List DeviceWindow) : List DeviceWindow :=
  if cfg.trimThreshold < windows.length then
    windows.filter fun w => w.times.any fun t => decide (now - cfg.windowSec ≤ t)
  else windows

/-- `check_rate_limit`. -/
def checkRateLimit (now : ℚ) (deviceId : String) (windows : List DeviceWindow) :
    Bool × List DeviceWindow :=
  let windows := trimWindows cfg now windows
  let times := recent cfg.windowSec now (getTimes windows deviceId)
  if cfg.maxPerWindow ≤ times.length then (false, setTimes windows deviceId times)
  else (true, setTimes windows deviceId (times ++ [now]))

/-! ### Runs -/

structure Request where
  now : ℚ
  deviceId : String
deriving DecidableEq, Repr

def rateGuard : Machine (List DeviceWindow) Request Bool where
  next windows r := (checkRateLimit cfg r.now r.deviceId windows).2
  out windows r := (checkRateLimit cfg r.now r.deviceId windows).1

/-- The requests of a run that were let pass. -/
def acceptedFrom (windows : List DeviceWindow) (requests : List Request) : List Request :=
  ((requests.zip ((rateGuard cfg).outputs windows requests)).filter (·.2)).map (·.1)

/-- The times of the requests of one key. -/
def timesOf (deviceId : String) (requests : List Request) : List ℚ :=
  (requests.filter fun r => decide (r.deviceId = deviceId)).map (·.now)

/-! ### What one request does to the entries -/

theorem getTimes_setTimes (windows : List DeviceWindow) (deviceId : String) (times : List ℚ)
    (other : String) :
    getTimes (setTimes windows deviceId times) other =
      if other = deviceId then times else getTimes windows other := by
  unfold getTimes setTimes
  rw [row_upsert fun _ _ => rfl]
  by_cases h : other = deviceId
  · subst h
    rw [if_pos rfl, if_pos rfl]
    cases row DeviceWindow.deviceId windows other <;> rfl
  · rw [if_neg h, if_neg h]

theorem nodup_setTimes {windows : List DeviceWindow} (h : (windows.map (·.deviceId)).Nodup)
    (deviceId : String) (times : List ℚ) :
    ((setTimes windows deviceId times).map (·.deviceId)).Nodup :=
  nodup_keys_upsert (fun _ _ => rfl) h

theorem nodup_trimWindows {windows : List DeviceWindow} (h : (windows.map (·.deviceId)).Nodup)
    (now : ℚ) : ((trimWindows cfg now windows).map (·.deviceId)).Nodup := by
  unfold trimWindows
  split
  · exact h.sublist (List.filter_sublist.map _)
  · exact h

/-- The trim takes the times of a key only when none of them is recent. -/
theorem getTimes_trimWindows {windows : List DeviceWindow}
    (h : (windows.map (·.deviceId)).Nodup) (now : ℚ) (deviceId : String) :
    getTimes (trimWindows cfg now windows) deviceId = getTimes windows deviceId ∨
      getTimes (trimWindows cfg now windows) deviceId = [] ∧
        ∀ t ∈ getTimes windows deviceId, t < now - cfg.windowSec := by
  have htrim := nodup_trimWindows cfg h now
  unfold trimWindows at htrim ⊢
  split at htrim
  · rename_i hmany
    rw [if_pos hmany]
    unfold getTimes
    cases hrow : row DeviceWindow.deviceId (windows.filter fun w =>
        w.times.any fun t => decide (now - cfg.windowSec ≤ t)) deviceId with
    | some w =>
      obtain ⟨hmem, rfl⟩ := row_eq_some hrow
      rw [row_of_mem h (List.mem_of_mem_filter hmem)]
      exact Or.inl rfl
    | none =>
      cases hall : row DeviceWindow.deviceId windows deviceId with
      | none => exact Or.inl rfl
      | some w =>
        right
        refine ⟨rfl, ?_⟩
        intro t ht
        obtain ⟨hmem, hkey⟩ := row_eq_some hall
        by_contra hrecent
        have hkept : w ∈ windows.filter fun w =>
            w.times.any fun t => decide (now - cfg.windowSec ≤ t) := by
          rw [List.mem_filter]
          refine ⟨hmem, List.any_eq_true.mpr ⟨t, ht, ?_⟩⟩
          rw [decide_eq_true_eq]
          exact not_lt.mp hrecent
        have hfound := row_of_mem htrim hkept
        rw [hkey, hrow] at hfound
        cases hfound
  · rename_i hfew
    rw [if_neg hfew]
    exact Or.inl rfl

/-! ### The budget of a key -/

/-- The entries are those of the accepted requests `done`, as far as a request at `now` or
    later can tell, and no window has had more than the limit. -/
structure Budgeted (now : ℚ) (done : List Request) (windows : List DeviceWindow) : Prop where
  nodup : (windows.map (·.deviceId)).Nodup
  faithful : ∀ k, Faithful cfg.windowSec now (getTimes windows k) (timesOf k done)
  bounded : ∀ k, AtMost cfg.maxPerWindow cfg.windowSec (timesOf k done)

variable {cfg}

theorem Budgeted.empty (now : ℚ) : Budgeted cfg now [] [] where
  nodup := List.nodup_nil
  faithful := fun _ => rfl
  bounded := fun _ => AtMost.nil _

theorem timesOf_snoc (k : String) (done : List Request) (r : Request) :
    timesOf k (done ++ [r]) =
      if r.deviceId = k then timesOf k done ++ [r.now] else timesOf k done := by
  unfold timesOf
  by_cases h : r.deviceId = k <;> simp [List.filter_append, h]

/-- One request keeps every budget. -/
theorem Budgeted.step {now : ℚ} {done : List Request} {windows : List DeviceWindow}
    (h : Budgeted cfg now done windows) (r : Request) (hle : now ≤ r.now) :
    Budgeted cfg r.now (if (checkRateLimit cfg r.now r.deviceId windows).1 then done ++ [r] else done)
      (checkRateLimit cfg r.now r.deviceId windows).2 := by
  have htrim : ∀ k, Faithful cfg.windowSec r.now (getTimes (trimWindows cfg r.now windows) k)
      (timesOf k done) := by
    intro k
    have hlater := (h.faithful k).later hle
    rcases getTimes_trimWindows cfg h.nodup r.now k with hsame | ⟨hnone, hold⟩
    · rw [hsame]
      exact hlater
    · rw [hnone]
      exact hlater.nil hold
  have hnodup := nodup_trimWindows cfg h.nodup r.now
  unfold checkRateLimit
  by_cases hfull : cfg.maxPerWindow ≤ (recent cfg.windowSec r.now
      (getTimes (trimWindows cfg r.now windows) r.deviceId)).length
  · simp only [if_pos hfull, Bool.false_eq_true, if_false]
    refine ⟨nodup_setTimes hnodup _ _, ?_, h.bounded⟩
    intro k
    rw [getTimes_setTimes]
    by_cases hk : k = r.deviceId
    · rw [if_pos hk, hk]
      exact (htrim r.deviceId).recent
    · rw [if_neg hk]
      exact htrim k
  · simp only [if_neg hfull, if_true]
    refine ⟨nodup_setTimes hnodup _ _, ?_, ?_⟩
    · intro k
      rw [getTimes_setTimes, timesOf_snoc]
      by_cases hk : k = r.deviceId
      · rw [if_pos hk, if_pos hk.symm, hk]
        exact (htrim r.deviceId).recent.append [r.now]
      · rw [if_neg hk, if_neg (Ne.symm hk)]
        exact htrim k
    · intro k
      rw [timesOf_snoc]
      by_cases hk : r.deviceId = k
      · rw [if_pos hk]
        apply (h.bounded k).snoc
        rw [← hk, ← htrim r.deviceId]
        exact not_le.mp hfull
      · rw [if_neg hk]
        exact h.bounded k

theorem acceptedFrom_cons (windows : List DeviceWindow) (r : Request) (requests : List Request) :
    acceptedFrom cfg windows (r :: requests) =
      (if (checkRateLimit cfg r.now r.deviceId windows).1 then [r] else []) ++
        acceptedFrom cfg (checkRateLimit cfg r.now r.deviceId windows).2 requests := by
  unfold acceptedFrom
  cases hout : (checkRateLimit cfg r.now r.deviceId windows).1 <;>
    simp [Machine.outputs, rateGuard, hout]

/-- What a run accepts keeps every budget. -/
theorem Budgeted.run {now : ℚ} {done : List Request} {windows : List DeviceWindow}
    (h : Budgeted cfg now done windows) {requests : List Request}
    (hafter : ∀ r ∈ requests, now ≤ r.now) (hordered : requests.Pairwise (·.now ≤ ·.now))
    (k : String) : AtMost cfg.maxPerWindow cfg.windowSec
      (timesOf k (done ++ acceptedFrom cfg windows requests)) := by
  induction requests generalizing now done windows with
  | nil =>
    have hnone : acceptedFrom cfg windows [] = [] := rfl
    rw [hnone, List.append_nil]
    exact h.bounded k
  | cons r requests ih =>
    rw [List.pairwise_cons] at hordered
    have hstep := h.step r (hafter r List.mem_cons_self)
    have hrest := ih hstep hordered.1 hordered.2
    rw [acceptedFrom_cons]
    cases hout : (checkRateLimit cfg r.now r.deviceId windows).1 with
    | true =>
      rw [hout, if_pos rfl, List.append_assoc] at hrest
      exact hrest
    | false =>
      rw [hout, if_neg Bool.false_ne_true] at hrest
      exact hrest

/-- **Rate-limit safety.**  In every run of requests at non-decreasing times, no window of the
    configured length holds more accepted requests of a key than the limit. -/
theorem rate_limit_safe (cfg : RateConfig) (requests : List Request)
    (hordered : requests.Pairwise (·.now ≤ ·.now)) (deviceId : String) (start : ℚ) :
    ((acceptedFrom cfg [] requests).filter fun r =>
      decide (r.deviceId = deviceId ∧ start ≤ r.now ∧ r.now ≤ start + cfg.windowSec)).length ≤
        cfg.maxPerWindow := by
  have hbound : AtMost cfg.maxPerWindow cfg.windowSec
      (timesOf deviceId (acceptedFrom cfg [] requests)) := by
    cases requests with
    | nil => exact AtMost.nil _
    | cons r requests =>
      -- an empty log is faithful from the first request on
      apply (Budgeted.empty r.now).run _ hordered deviceId
      intro other hother
      rcases List.mem_cons.mp hother with rfl | hother
      · exact le_rfl
      · exact (List.pairwise_cons.mp hordered).1 other hother
  have hwindow := hbound start
  unfold timesOf at hwindow
  rw [List.filter_map, List.length_map, List.filter_filter] at hwindow
  refine le_trans (le_of_eq ?_) hwindow
  congr 2
  funext r
  simp only [Function.comp_apply, Bool.decide_and, Bool.and_comm]

/-- Two requests of one key a second apart, between them one of another key. -/
theorem rate_limit_safe_burst :
    ((acceptedFrom { maxPerWindow := 1 } [] [⟨0, "a"⟩, ⟨1, "b"⟩, ⟨1, "a"⟩]).filter fun r =>
      decide (r.deviceId = "a" ∧ 0 ≤ r.now ∧ r.now ≤ 0 + 60)).length ≤ 1 :=
  rate_limit_safe { maxPerWindow := 1 } [⟨0, "a"⟩, ⟨1, "b"⟩, ⟨1, "a"⟩] (by decide) "a" 0

end Srp.Server
