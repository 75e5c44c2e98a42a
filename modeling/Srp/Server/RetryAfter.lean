/-
  Srp/Server/RetryAfter.lean
  ==========================
  **The hint of a rejection** (`retry_after_sec` of `server/ingest_guards.py`).

  A rejected key is told after how many seconds it has room again: when its oldest
  counted request leaves the window, rounded up.  The window is closed, so a request
  exactly one width after the oldest one still counts it; where the rounding adds
  nothing, the hint is a moment too early (`retry_accepted_iff`).  Times are exact
  rationals; the doubles of `time.monotonic()` may round a hint that is within one
  unit of the last place of a whole number down to it.
-/
import Mathlib.Algebra.Order.Floor.Ring
import Mathlib.Data.Rat.Floor
import Srp.Server.RateLimit

namespace Srp.Server

open Srp.Lib Srp.Lib.SlidingWindow Srp.Lib.Table

variable (cfg : RateConfig)

/-- `min(times)`. -/
def oldest (times : List ℚ) : ℚ := times.min?.getD 0

/-- `retry_after_sec`. -/
def retryAfterSec (now : ℚ) (deviceId : String) (windows : List DeviceWindow) : Int :=
  let times := recent cfg.windowSec now (getTimes windows deviceId)
  if times.length < cfg.maxPerWindow then 1
  else max 1 ⌈oldest times + cfg.windowSec - now⌉

/-- The request that a rejected one is told to be. -/
def retryOf (r : Request) (windows : List DeviceWindow) : Request :=
  { r with now := r.now + retryAfterSec cfg r.now r.deviceId windows }

/-- The accepted requests of the key of `r` that the window ending with `r` counts. -/
def countedTimes (history : List Request) (r : Request) : List ℚ :=
  recent cfg.windowSec r.now (timesOf r.deviceId (acceptedFrom cfg [] history))

variable {cfg}

/-! ### The entries along a run -/

theorem acceptedFrom_append (windows : List DeviceWindow) (xs ys : List Request) :
    acceptedFrom cfg windows (xs ++ ys) =
      acceptedFrom cfg windows xs ++
        acceptedFrom cfg ((rateGuard cfg).stateAfter windows xs) ys := by
  induction xs generalizing windows with
  | nil => rfl
  | cons x xs ih =>
    rw [List.cons_append, acceptedFrom_cons, acceptedFrom_cons, ih, List.append_assoc]
    rfl

theorem Budgeted.later {now after : ℚ} {done : List Request} {windows : List DeviceWindow}
    (h : Budgeted cfg now done windows) (hle : now ≤ after) : Budgeted cfg after done windows where
  nodup := h.nodup
  faithful k := (h.faithful k).later hle
  bounded := h.bounded

/-- The entries after a run are those of all requests that it let pass. -/
theorem Budgeted.stateAfter {now after : ℚ} {done : List Request} {windows : List DeviceWindow}
    (h : Budgeted cfg now done windows) {requests : List Request}
    (hordered : requests.Pairwise (·.now ≤ ·.now))
    (hbetween : ∀ r ∈ requests, now ≤ r.now ∧ r.now ≤ after) (hle : now ≤ after) :
    Budgeted cfg after (done ++ acceptedFrom cfg windows requests)
      ((rateGuard cfg).stateAfter windows requests) := by
  induction requests generalizing now done windows with
  | nil =>
    have hnone : acceptedFrom cfg windows [] = [] := rfl
    rw [hnone, List.append_nil]
    exact h.later hle
  | cons r requests ih =>
    obtain ⟨hfirst, hbetween⟩ := List.forall_mem_cons.mp hbetween
    obtain ⟨hafter, hordered⟩ := List.pairwise_cons.mp hordered
    have hrest := ih (h.step r hfirst.1) hordered
      (fun x hx => ⟨hafter x hx, (hbetween x hx).2⟩) hfirst.2
    rw [Machine.stateAfter_cons, acceptedFrom_cons]
    cases hout : (checkRateLimit cfg r.now r.deviceId windows).1 with
    | true =>
      rw [hout, if_pos rfl, List.append_assoc] at hrest
      exact hrest
    | false =>
      rw [hout, if_neg Bool.false_ne_true] at hrest
      exact hrest

/-- A run from the start, seen at any later time. -/
theorem budgeted_of_run {requests : List Request} {after : ℚ}
    (hordered : requests.Pairwise (·.now ≤ ·.now)) (hafter : ∀ r ∈ requests, r.now ≤ after) :
    Budgeted cfg after (acceptedFrom cfg [] requests)
      ((rateGuard cfg).stateAfter [] requests) := by
  cases requests with
  | nil => exact Budgeted.empty after
  | cons r requests =>
    have hstart : Budgeted cfg r.now [] [] := Budgeted.empty r.now
    refine hstart.stateAfter hordered (fun x hx => ⟨?_, hafter x hx⟩)
      (hafter r List.mem_cons_self)
    rcases List.mem_cons.mp hx with rfl | hx
    · exact le_rfl
    · exact (List.pairwise_cons.mp hordered).1 x hx

/-- A request is accepted iff the window that ends with it holds fewer accepted ones of its key
    than the limit. -/
theorem checkRateLimit_iff {now : ℚ} {done : List Request} {windows : List DeviceWindow}
    (h : Budgeted cfg now done windows) (deviceId : String) :
    (checkRateLimit cfg now deviceId windows).1 = true ↔
      (recent cfg.windowSec now (timesOf deviceId done)).length < cfg.maxPerWindow := by
  have htrim : Faithful cfg.windowSec now (getTimes (trimWindows cfg now windows) deviceId)
      (timesOf deviceId done) := by
    rcases getTimes_trimWindows cfg h.nodup now deviceId with hsame | ⟨hnone, hold⟩
    · rw [hsame]
      exact h.faithful deviceId
    · rw [hnone]
      exact (h.faithful deviceId).nil hold
  unfold Faithful at htrim
  unfold checkRateLimit
  rw [← htrim]
  by_cases hfull : cfg.maxPerWindow ≤
      (recent cfg.windowSec now (getTimes (trimWindows cfg now windows) deviceId)).length
  · simp only [if_pos hfull, Bool.false_eq_true, false_iff, not_lt]
    exact hfull
  · simp only [if_neg hfull, true_iff]
    exact not_le.mp hfull

theorem timesOf_append (deviceId : String) (xs ys : List Request) :
    timesOf deviceId (xs ++ ys) = timesOf deviceId xs ++ timesOf deviceId ys := by
  simp only [timesOf, List.filter_append, List.map_append]

theorem mem_acceptedFrom {windows : List DeviceWindow} {requests : List Request} {r : Request}
    (h : r ∈ acceptedFrom cfg windows requests) : r ∈ requests := by
  obtain ⟨⟨r', out⟩, hmem, rfl⟩ := List.mem_map.mp h
  exact (List.of_mem_zip (List.mem_filter.mp hmem).1).1

theorem timesOf_eq_nil {deviceId : String} {requests : List Request}
    (h : ∀ r ∈ requests, r.deviceId ≠ deviceId) : timesOf deviceId requests = [] := by
  rw [timesOf, List.map_eq_nil_iff, List.filter_eq_nil_iff]
  intro r hr hsame
  exact h r hr (of_decide_eq_true hsame)

/-! ### Rounding up -/

theorem lt_max_one_ceil_iff {x : ℚ} (hx : 0 ≤ x) :
    x < ((max 1 ⌈x⌉ : Int) : ℚ) ↔ ¬ ∃ n : Nat, 0 < n ∧ x = n := by
  constructor
  · rintro hlt ⟨n, hn, rfl⟩
    rw [Int.ceil_natCast, max_eq_right (by exact_mod_cast hn), Int.cast_natCast] at hlt
    exact lt_irrefl _ hlt
  · intro hnot
    rcases hx.lt_or_eq with hpos | rfl
    · have hceil : 0 < ⌈x⌉ := Int.ceil_pos.mpr hpos
      refine lt_of_lt_of_le (lt_of_le_of_ne (Int.le_ceil x) fun heq => hnot ?_)
        (Int.cast_le.mpr (le_max_right 1 ⌈x⌉))
      refine ⟨⌈x⌉.toNat, by omega, ?_⟩
      have hcast : ((⌈x⌉.toNat : Nat) : ℚ) = ((⌈x⌉ : Int) : ℚ) := by
        rw [← Int.cast_natCast, Int.toNat_of_nonneg hceil.le]
      rw [hcast]
      exact heq
    · simp

theorem oldest_mem {times : List ℚ} (h : times ≠ []) :
    oldest times ∈ times ∧ ∀ t ∈ times, oldest times ≤ t := by
  obtain ⟨m, hm⟩ := Option.isSome_iff_exists.mp (List.isSome_min?_of_ne_nil h)
  rw [oldest, hm, Option.getD_some]
  exact ⟨List.min?_mem hm, (List.le_min?_iff hm).mp le_rfl⟩

/-! ### The hint -/

section Rejection

variable {before between : List Request} {r : Request}

/-- The requests before a rejected one leave a full window. -/
theorem length_countedTimes (hordered : (before ++ [r]).Pairwise (·.now ≤ ·.now))
    (hrejected : (checkRateLimit cfg r.now r.deviceId
      ((rateGuard cfg).stateAfter [] before)).1 = false) :
    (countedTimes cfg before r).length = cfg.maxPerWindow := by
  obtain ⟨hbefore, -, hlast⟩ := List.pairwise_append.mp hordered
  have hpast : ∀ x ∈ before, x.now ≤ r.now := fun x hx => hlast x hx r List.mem_cons_self
  have hbudget : Budgeted cfg r.now (acceptedFrom cfg [] before)
      ((rateGuard cfg).stateAfter [] before) := budgeted_of_run hbefore hpast
  have hfull : ¬ (countedTimes cfg before r).length < cfg.maxPerWindow := by
    intro hroom
    rw [(checkRateLimit_iff hbudget r.deviceId).mpr hroom] at hrejected
    cases hrejected
  refine le_antisymm ((hbudget.bounded r.deviceId).length_recent fun t ht => ?_) (not_lt.mp hfull)
  obtain ⟨x, hx, rfl⟩ := List.mem_map.mp ht
  exact hpast x (mem_acceptedFrom (List.mem_filter.mp hx).1)

theorem acceptedFrom_rejected (hrejected : (checkRateLimit cfg r.now r.deviceId
    ((rateGuard cfg).stateAfter [] before)).1 = false) (between : List Request) :
    acceptedFrom cfg [] (before ++ r :: between) = acceptedFrom cfg [] before ++
      acceptedFrom cfg ((rateGuard cfg).stateAfter [] (before ++ [r])) between := by
  rw [acceptedFrom_append, acceptedFrom_cons, hrejected, if_neg Bool.false_ne_true,
    List.nil_append, Machine.stateAfter_append]
  rfl

/-- The hint is read off the same times as the rejection. -/
theorem retryAfterSec_rejected (hordered : (before ++ [r]).Pairwise (·.now ≤ ·.now))
    (hrejected : (checkRateLimit cfg r.now r.deviceId
      ((rateGuard cfg).stateAfter [] before)).1 = false) :
    retryAfterSec cfg r.now r.deviceId ((rateGuard cfg).stateAfter [] (before ++ [r])) =
      max 1 ⌈oldest (countedTimes cfg before r) + cfg.windowSec - r.now⌉ := by
  have hlast := (List.pairwise_append.mp hordered).2.2
  have hbudget : Budgeted cfg r.now (acceptedFrom cfg [] (before ++ [r]))
      ((rateGuard cfg).stateAfter [] (before ++ [r])) := by
    refine budgeted_of_run hordered fun x hx => ?_
    rcases List.mem_append.mp hx with hx | hx
    · exact hlast x hx r List.mem_cons_self
    · rw [List.mem_singleton.mp hx]
  have hnone : acceptedFrom cfg ((rateGuard cfg).stateAfter [] (before ++ [r])) [] = [] := rfl
  rw [acceptedFrom_rejected hrejected, hnone, List.append_nil] at hbudget
  have htimes : recent cfg.windowSec r.now
      (getTimes ((rateGuard cfg).stateAfter [] (before ++ [r])) r.deviceId) =
        countedTimes cfg before r := hbudget.faithful r.deviceId
  simp only [retryAfterSec, htimes]
  rw [if_neg (length_countedTimes hordered hrejected).not_lt]

/-- A key that was rejected and then kept silent until the hint is accepted, unless its oldest
    counted request leaves the window a whole, positive number of seconds after the
    rejection. -/
theorem retry_accepted_iff (cfg : RateConfig) (hlimit : 0 < cfg.maxPerWindow)
    (before between : List Request) (r : Request)
    (hordered : (before ++ r :: between).Pairwise (·.now ≤ ·.now))
    (hrejected : (checkRateLimit cfg r.now r.deviceId
      ((rateGuard cfg).stateAfter [] before)).1 = false)
    (hsilent : ∀ x ∈ between, x.deviceId ≠ r.deviceId)
    (huntil : ∀ x ∈ between,
      x.now ≤ (retryOf cfg r ((rateGuard cfg).stateAfter [] (before ++ [r]))).now) :
    (checkRateLimit cfg (retryOf cfg r ((rateGuard cfg).stateAfter [] (before ++ [r]))).now
        r.deviceId ((rateGuard cfg).stateAfter [] (before ++ r :: between))).1 = true ↔
      ¬ ∃ n : Nat, 0 < n ∧
        oldest (countedTimes cfg before r) + cfg.windowSec - r.now = n := by
  have hfirst : (before ++ [r]).Pairwise (·.now ≤ ·.now) := by
    refine hordered.sublist (List.Sublist.append_left ?_ before)
    exact (List.nil_sublist between).cons_cons r
  have hfull := length_countedTimes hfirst hrejected
  have hnext : (retryOf cfg r ((rateGuard cfg).stateAfter [] (before ++ [r]))).now = r.now +
      ((max 1 ⌈oldest (countedTimes cfg before r) + cfg.windowSec - r.now⌉ : Int) : ℚ) := by
    rw [retryOf, retryAfterSec_rejected hfirst hrejected]
  rw [hnext] at huntil ⊢
  obtain ⟨wait, hwait⟩ : ∃ wait : Int,
      wait = max 1 ⌈oldest (countedTimes cfg before r) + cfg.windowSec - r.now⌉ := ⟨_, rfl⟩
  rw [← hwait] at huntil ⊢
  have hone : (1 : ℚ) ≤ wait := by
    rw [hwait]
    exact_mod_cast le_max_left 1 _
  have hle : r.now ≤ r.now + wait := le_add_of_nonneg_right (zero_le_one.trans hone)
  -- the window of the next request, over the same accepted requests
  have hbudget : Budgeted cfg (r.now + wait) (acceptedFrom cfg [] (before ++ r :: between))
      ((rateGuard cfg).stateAfter [] (before ++ r :: between)) := by
    refine budgeted_of_run hordered fun x hx => ?_
    rcases List.mem_append.mp hx with hx | hx
    · exact ((List.pairwise_append.mp hordered).2.2 x hx r List.mem_cons_self).trans hle
    · rcases List.mem_cons.mp hx with rfl | hx
      · exact hle
      · exact huntil x hx
  rw [checkRateLimit_iff hbudget, acceptedFrom_rejected hrejected, timesOf_append,
    timesOf_eq_nil fun x hx => hsilent x (mem_acceptedFrom hx), List.append_nil, ← hfull]
  unfold countedTimes at hfull hwait ⊢
  rw [length_recent_lt_iff hle]
  have hne : recent cfg.windowSec r.now (timesOf r.deviceId (acceptedFrom cfg [] before)) ≠ [] := by
    rw [← List.length_pos_iff, hfull]
    exact hlimit
  obtain ⟨hmem, hmin⟩ := oldest_mem hne
  have hnonneg : 0 ≤ oldest (recent cfg.windowSec r.now
      (timesOf r.deviceId (acceptedFrom cfg [] before))) + cfg.windowSec - r.now := by
    have hrecent := of_decide_eq_true (List.mem_filter.mp hmem).2
    linarith
  rw [← lt_max_one_ceil_iff hnonneg, ← hwait]
  constructor
  · rintro ⟨t, ht, hleft⟩
    have holdest := hmin t ht
    linarith
  · intro hleft
    exact ⟨_, hmem, by linarith⟩

end Rejection

/-! ### A hint that is a moment too early -/

/-- Thirty requests at one moment. -/
private def burst : List Request := List.replicate 30 ⟨0, "device:a"⟩

private theorem burst_ordered :
    (burst ++ [(⟨1 / 2, "device:a"⟩ : Request)]).Pairwise (·.now ≤ ·.now) := by decide +kernel

private theorem burst_rejected : (checkRateLimit {} (1 / 2) "device:a"
    ((rateGuard {}).stateAfter [] burst)).1 = false := by decide +kernel

/-- The window is left after 59.5 seconds, the hint says 60. -/
theorem retry_accepted_iff_burst :
    (checkRateLimit {} (retryOf {} ⟨1 / 2, "device:a"⟩ ((rateGuard {}).stateAfter []
        (burst ++ [⟨1 / 2, "device:a"⟩]))).now "device:a"
        ((rateGuard {}).stateAfter [] (burst ++ [⟨1 / 2, "device:a"⟩]))).1 = true := by
  refine (retry_accepted_iff {} (by decide) burst [] ⟨1 / 2, "device:a"⟩ burst_ordered
    burst_rejected (fun _ hx => absurd hx List.not_mem_nil)
    fun _ hx => absurd hx List.not_mem_nil).mpr ?_
  rintro ⟨n, -, hwhole⟩
  have holdest : oldest (countedTimes {} burst ⟨1 / 2, "device:a"⟩) = 0 := by decide +kernel
  have hwindow : (({} : RateConfig).windowSec : ℚ) = 60 := rfl
  rw [holdest, hwindow] at hwhole
  have hdouble : (119 : ℚ) = (2 * n : Nat) := by
    push_cast
    linarith
  have hodd : 119 = 2 * n := by exact_mod_cast hdouble
  omega

/-- The 31st request at that moment is told to wait 60 seconds, and is rejected again then. -/
theorem retry_rejected_again :
    ¬ ∀ (before : List Request) (r : Request),
      (before ++ [r]).Pairwise (·.now ≤ ·.now) →
      (checkRateLimit {} r.now r.deviceId ((rateGuard {}).stateAfter [] before)).1 = false →
      (checkRateLimit {} (retryOf {} r ((rateGuard {}).stateAfter [] (before ++ [r]))).now
        r.deviceId ((rateGuard {}).stateAfter [] (before ++ [r]))).1 = true := by
  intro h
  have hnext := h burst ⟨0, "device:a"⟩ (by decide +kernel) (by decide +kernel)
  revert hnext
  decide +kernel

end Srp.Server
