/-
  Srp/Printers/Forecast.lean
  ==========================
  **How many days a supply lasts** (`server/printers/forecast.py`).

  The history is sorted by time, cut at its last rise (a refill), cut again to its
  newest points, and what is left has to be long enough for a slope.  Each of these
  steps looks at the end of the history only, so a history without its oldest points
  gives the same forecast as long as the newest ones are still there: either the last
  rise is among them, or nothing before them survives the second cut.
-/
import Srp.Analytics.Trends
import Srp.Lib.GroupBy

namespace Srp.Printers.Forecast

open Srp.Analytics.Trends (Point secondsPerDay theilSenSlope)
open Srp.Lib.PyNum Srp.Lib.GroupBy

/-! ### Limits -/

def minPoints : Nat := 5
def minSpanDays : ℚ := 3
def maxEtaDays : Int := 365
def maxPoints : Nat := 200

/-! ### The forecast -/

/-- Tuples are compared by time, and by percent at one time. -/
def Earlier (p q : Point) : Prop := p.1 < q.1 ∨ p.1 = q.1 ∧ p.2 ≤ q.2

instance : DecidableRel Earlier :=
  fun p q => inferInstanceAs (Decidable (p.1 < q.1 ∨ p.1 = q.1 ∧ p.2 ≤ q.2))

instance : Std.Total Earlier := ⟨fun p q => by unfold Earlier; grind⟩
instance : IsTrans Point Earlier := ⟨fun p q r h h' => by unfold Earlier at *; grind⟩

theorem earlier_antisymm {p q : Point} (h : Earlier p q) (h' : Earlier q p) : p = q := by
  rcases h with hlt | ⟨htime, hle⟩
  · rcases h' with hlt' | ⟨htime', -⟩
    · exact absurd hlt' hlt.asymm
    · exact absurd htime' hlt.ne'
  · rcases h' with hlt' | ⟨-, hle'⟩
    · exact absurd htime hlt'.ne'
    · exact Prod.ext htime (le_antisymm hle hle')

/-- The points from the last rise on, if there is a rise. -/
def lastRise : List Point → Option (List Point)
  | p :: q :: rest =>
    match lastRise (q :: rest) with
    | some segment => some segment
    | none => if p.2 < q.2 then some (q :: rest) else none
  | _ => none

/-- The history of the supply that is in the printer now. -/
def sinceRefill (pts : List Point) : List Point := (lastRise pts).getD pts

/-- `pts[-_MAX_POINTS:]`, where there are more. -/
def newestPoints (pts : List Point) : List Point := pts.drop (pts.length - maxPoints)

/-- What is forecast from the points that are left. -/
def etaOfSegment (pts : List Point) : Option Int :=
  match pts.head?, pts.getLast? with
  | some first, some last =>
    if pts.length < minPoints then none
    else if (last.1 - first.1) / secondsPerDay < minSpanDays then none
    else
      match theilSenSlope pts with
      | none => none
      | some slope =>
        if 0 ≤ slope then none
        else some (max 0 (min maxEtaDays (roundHalfEven (last.2 / -slope))))
  | _, _ => none

/-- `supply_eta_days`: the points in any order. -/
def supplyEtaDays (points : List Point) : Option Int :=
  etaOfSegment (newestPoints (sinceRefill (points.insertionSort Earlier)))

/-! ### The last rise -/

/-- A rise among the later points is the last one, whatever stands before them. -/
theorem lastRise_append_some {older latest segment : List Point}
    (h : lastRise latest = some segment) : lastRise (older ++ latest) = some segment := by
  induction older with
  | nil => exact h
  | cons p older ih =>
    match hl : older ++ latest with
    | [] => simp [hl, lastRise] at ih
    | q :: rest =>
      rw [hl] at ih
      simp [hl, lastRise, ih]

/-- Without one, the segment begins before the later points or with them. -/
theorem lastRise_append_none {older latest segment : List Point}
    (hnone : lastRise latest = none) (h : lastRise (older ++ latest) = some segment) :
    latest <:+ segment := by
  induction older with
  | nil => rw [List.nil_append, hnone] at h; cases h
  | cons p older ih =>
    match hl : older ++ latest with
    | [] => simp [hl, lastRise] at h
    | q :: rest =>
      rw [hl] at ih
      rw [List.cons_append, hl, lastRise] at h
      split at h
      · next s hs => exact ih (hs.trans h)
      · split_ifs at h
        cases h
        exact ⟨older, hl⟩

/-- Cut at the refill, a history is what its later points are when they are cut there,
or it is those points and some before them. -/
theorem sinceRefill_append (older latest : List Point) :
    sinceRefill (older ++ latest) = sinceRefill latest ∨
      sinceRefill latest = latest ∧ latest <:+ sinceRefill (older ++ latest) := by
  unfold sinceRefill
  cases hlatest : lastRise latest with
  | some segment => simp [lastRise_append_some hlatest]
  | none =>
    refine .inr ⟨rfl, ?_⟩
    cases h : lastRise (older ++ latest) with
    | none => exact List.suffix_append older latest
    | some segment => exact lastRise_append_none hlatest h

/-! ### The newest points -/

/-- The second cut keeps the same points of a list and of an end of it that is long enough. -/
theorem newestPoints_of_suffix {pts latest : List Point} (h : latest <:+ pts)
    (hlong : maxPoints ≤ latest.length) : newestPoints pts = newestPoints latest := by
  obtain ⟨older, rfl⟩ := h
  have hlen : (older ++ latest).length - maxPoints =
      older.length + (latest.length - maxPoints) := by
    rw [List.length_append]
    omega
  simp only [newestPoints, hlen, List.drop_append]
  simp

theorem newestPoints_sinceRefill_append {older latest : List Point}
    (hlong : maxPoints ≤ latest.length) :
    newestPoints (sinceRefill (older ++ latest)) = newestPoints (sinceRefill latest) := by
  rcases sinceRefill_append older latest with heq | ⟨hlatest, hsuffix⟩
  · rw [heq]
  · rw [hlatest]
    exact newestPoints_of_suffix hsuffix hlong

/-! ### The tail of a history -/

theorem Earlier.time_le {p q : Point} (h : Earlier p q) : p.1 ≤ q.1 :=
  h.elim le_of_lt fun heq => heq.1.le

theorem times_ne {points older latest : List Point} {p q : Point}
    (htimes : (points.map Prod.fst).Nodup) (hperm : (older ++ latest).Perm points)
    (hp : p ∈ older) (hq : q ∈ latest) : p.1 ≠ q.1 := by
  have hnodup := (hperm.map Prod.fst).nodup_iff.mpr htimes
  rw [List.map_append, List.nodup_append] at hnodup
  exact hnodup.2.2 p.1 (List.mem_map_of_mem hp) q.1 (List.mem_map_of_mem hq)

/-- `latest` are `n` latest points of a history, in any order; all of a shorter one. -/
structure Latest (n : Nat) (points latest : List Point) : Prop where
  length : latest.length = min n points.length
  older : ∃ older, (older ++ latest).Perm points ∧ ∀ p ∈ older, ∀ q ∈ latest, p.1 ≤ q.1

/-- Every history has them: the end of the sorted one. -/
theorem latest_drop (n : Nat) (points : List Point) :
    Latest n points ((points.insertionSort Earlier).drop (points.length - n)) := by
  have hsorted := List.pairwise_insertionSort Earlier points
  rw [← List.take_append_drop (points.length - n) (points.insertionSort Earlier)] at hsorted
  constructor
  · simp
    omega
  · refine ⟨(points.insertionSort Earlier).take (points.length - n), ?_, ?_⟩
    · rw [List.take_append_drop]
      exact List.perm_insertionSort Earlier points
    · intro p hp q hq
      exact ((List.pairwise_append.mp hsorted).2.2 p hp q hq).time_le

theorem sort_append {older latest : List Point} (hapart : ∀ p ∈ older, ∀ q ∈ latest, p.1 < q.1) :
    (older ++ latest).insertionSort Earlier =
      older.insertionSort Earlier ++ latest.insertionSort Earlier := by
  refine List.Perm.eq_of_pairwise ?_ (List.pairwise_insertionSort Earlier _) ?_ ?_
  · intro p q _ _ hpq hqp
    exact earlier_antisymm hpq hqp
  · refine List.pairwise_append.mpr
      ⟨List.pairwise_insertionSort _ _, List.pairwise_insertionSort _ _, ?_⟩
    intro p hp q hq
    rw [List.mem_insertionSort] at hp hq
    exact .inl (hapart p hp q hq)
  · exact (List.perm_insertionSort _ _).trans
      ((List.perm_insertionSort _ _).symm.append (List.perm_insertionSort _ _).symm)

/-- Points before the newest ones do not change a forecast. -/
theorem supplyEtaDays_append {older latest : List Point} (hlong : maxPoints ≤ latest.length)
    (hapart : ∀ p ∈ older, ∀ q ∈ latest, p.1 < q.1) :
    supplyEtaDays (older ++ latest) = supplyEtaDays latest := by
  have hsorted : maxPoints ≤ (latest.insertionSort Earlier).length := by
    rwa [List.length_insertionSort]
  unfold supplyEtaDays
  rw [sort_append hapart, newestPoints_sinceRefill_append hsorted]

/-- The order in which the points of a history are given does not matter. -/
theorem supplyEtaDays_perm {points points' : List Point} (h : points.Perm points') :
    supplyEtaDays points = supplyEtaDays points' := by
  unfold supplyEtaDays
  rw [insertionSort_eq_of_perm h fun p _ q _ => earlier_antisymm]

/-- A history of readings at different times is forecast as its `n` latest ones, wherever
the last refill is. -/
theorem supplyEtaDays_latest {n : Nat} {points latest : List Point}
    (htimes : (points.map Prod.fst).Nodup) (hn : maxPoints ≤ n) (h : Latest n points latest) :
    supplyEtaDays latest = supplyEtaDays points := by
  obtain ⟨older, hperm, hle⟩ := h.older
  rw [← supplyEtaDays_perm hperm]
  by_cases hlong : maxPoints ≤ latest.length
  · refine (supplyEtaDays_append hlong ?_).symm
    intro p hp q hq
    exact lt_of_le_of_ne (hle p hp q hq) (times_ne htimes hperm hp hq)
  · -- fewer than the cap are left only where none was cut off
    have hlength := hperm.length_eq
    have hshort := h.length
    rw [List.length_append] at hlength
    have hnil : older = [] := List.length_eq_zero_iff.mp (by omega)
    rw [hnil, List.nil_append]

/-- A reading a day of a supply that falls by a percent in two days and is replaced on day
200, in the middle of the two hundred latest readings. -/
def dailyReadings : List Point :=
  (List.range 300).map fun day : Nat =>
    ((day : ℚ) * 86400, if day < 200 then 100 - (day : ℚ) / 2 else 200 - (day : ℚ) / 2)

theorem dailyReadings_times : (dailyReadings.map Prod.fst).Nodup := by
  rw [dailyReadings, List.map_map]
  refine List.nodup_range.map ?_
  intro day day' h
  simpa using h

theorem supplyEtaDays_latest_daily :
    supplyEtaDays ((dailyReadings.insertionSort Earlier).drop (dailyReadings.length - 200)) =
      supplyEtaDays dailyReadings :=
  supplyEtaDays_latest dailyReadings_times (by decide) (latest_drop 200 dailyReadings)

end Srp.Printers.Forecast
