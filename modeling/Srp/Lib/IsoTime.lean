/-
  Srp/Lib/IsoTime.lean
  ====================
  **UTC instants and their ISO 8601 texts.**

  An instant is a number of microseconds since 0001-01-01, and `isoformat` is
  the text that Python's `datetime.isoformat()` gives it: fixed-width fields, and
  a fraction only when it is not zero.  `isoformat_lt_iff` says that comparing
  two such texts, character by character, compares the instants.
-/
import Mathlib.Data.List.Lex
import Mathlib.Data.String.Basic
import Mathlib.Order.Basic

namespace Srp.Lib.IsoTime

/-! ### Increasing texts

A numbering of texts is increasing below a bound; a text made of a fixed-width
quotient and a remainder is increasing again. -/

/-- `f n < f m` for all `n < m` below the bound. -/
def IncreasingBelow (bound : Nat) (f : Nat → List Char) : Prop :=
  ∀ n m, n < m → m < bound → f n < f m

def WidthBelow (bound : Nat) (f : Nat → List Char) (w : Nat) : Prop :=
  ∀ n, n < bound → (f n).length = w

theorem append_lt_append_of_lt {a b : List Char} (hab : a < b) (hlen : a.length = b.length)
    (x y : List Char) : a ++ x < b ++ y := by
  induction a generalizing b with
  | nil =>
    rw [List.length_nil] at hlen
    rw [List.eq_nil_of_length_eq_zero hlen.symm] at hab
    exact absurd hab (lt_irrefl _)
  | cons c a ih =>
    cases b with
    | nil => cases hlen
    | cons d b =>
      rw [List.cons_lt_cons_iff] at hab
      rw [List.cons_append, List.cons_append, List.cons_lt_cons_iff]
      rcases hab with hcd | ⟨rfl, hab⟩
      · exact Or.inl hcd
      · exact Or.inr ⟨rfl, ih hab (Nat.succ.inj hlen)⟩

theorem append_lt_append_left {x y : List Char} (hxy : x < y) (a : List Char) :
    a ++ x < a ++ y := by
  induction a with
  | nil => exact hxy
  | cons c a ih => exact List.cons_lt_cons_iff.mpr (Or.inr ⟨rfl, ih⟩)

/-- Quotient first, remainder behind it. -/
theorem IncreasingBelow.divMod {f g : Nat → List Char} {q k w : Nat} (hk : 0 < k)
    (hf : IncreasingBelow q f) (hw : WidthBelow q f w) (hg : IncreasingBelow k g) :
    IncreasingBelow (q * k) fun n => f (n / k) ++ g (n % k) := by
  intro n m hnm hm
  have hq : m / k < q := Nat.div_lt_of_lt_mul (by rwa [Nat.mul_comm] at hm)
  rcases (Nat.div_le_div_right (c := k) hnm.le).lt_or_eq with hlt | heq
  · apply append_lt_append_of_lt (hf _ _ hlt hq)
    rw [hw _ (hlt.trans hq), hw _ hq]
  · have hmod : n % k < m % k := by
      have hn := Nat.div_add_mod n k
      have hm := Nat.div_add_mod m k
      rw [heq] at hn
      omega
    dsimp only
    rw [heq]
    exact append_lt_append_left (hg _ _ hmod (Nat.mod_lt _ hk)) _

theorem IncreasingBelow.cons {f : Nat → List Char} {bound : Nat} (hf : IncreasingBelow bound f)
    (c : Char) : IncreasingBelow bound fun n => c :: f n :=
  fun n m hnm hm => append_lt_append_left (hf n m hnm hm) [c]

/-- It is enough to compare neighbours. -/
theorem increasingBelow_of_succ {f : Nat → List Char} {bound : Nat}
    (h : ∀ n < bound - 1, f n < f (n + 1)) : IncreasingBelow bound f := by
  intro n m hnm hm
  induction m, hnm using Nat.le_induction with
  | base => exact h n (by omega)
  | succ m _ ih => exact (ih (by omega)).trans (h m (by omega))

/-! ### Digits -/

def digitChar (d : Nat) : Char := Char.ofNat (48 + d)

/-- `n` in decimal with exactly `w` digits. -/
def digits : Nat → Nat → List Char
  | 0, _ => []
  | w + 1, n => digits w (n / 10) ++ [digitChar (n % 10)]

@[simp] theorem length_digits (w n : Nat) : (digits w n).length = w := by
  induction w generalizing n with
  | zero => rfl
  | succ w ih => simp [digits, ih]

theorem increasing_digits (w : Nat) : IncreasingBelow (10 ^ w) (digits w) := by
  induction w with
  | zero =>
    intro n m hnm hm
    rw [Nat.pow_zero] at hm
    omega
  | succ w ih =>
    rw [Nat.pow_succ]
    have hdigit : IncreasingBelow 10 fun d => [digitChar d] :=
      increasingBelow_of_succ (by decide)
    exact ih.divMod (by decide) (fun n _ => length_digits w n) hdigit

theorem IncreasingBelow.mono {f : Nat → List Char} {bound bound' : Nat}
    (hf : IncreasingBelow bound' f) (h : bound ≤ bound') : IncreasingBelow bound f :=
  fun n m hnm hm => hf n m hnm (hm.trans_le h)

/-! ### The calendar -/

def monthLengths (leap : Bool) : List Nat :=
  [31, if leap then 29 else 28, 31, 30, 31, 30, 31, 31, 30, 31, 30, 31]

/-- `-MM-DD` of the day `n` (from 0) of a year whose months from `month` on are `lengths`. -/
def monthDay : List Nat → Nat → Nat → List Char
  | [], month, n => '-' :: (digits 2 month ++ '-' :: digits 2 (n + 1))
  | len :: lengths, month, n =>
    if n < len then '-' :: (digits 2 month ++ '-' :: digits 2 (n + 1))
    else monthDay lengths (month + 1) (n - len)

/-- `min(a // b, cap)` and what is left over. -/
def cappedDivMod (n k cap : Nat) : Nat × Nat := (min (n / k) cap, n - k * min (n / k) cap)

/-- A day (from 0 at 0001-01-01) as its year, whether that is a leap year, and the day of
    the year (from 0). -/
structure YearDay where
  year : Nat
  leap : Bool
  day : Nat

def yearDay (day : Nat) : YearDay :=
  let n400 := day / 146097
  let c100 := cappedDivMod (day % 146097) 36524 3
  let n4 := c100.2 / 1461
  let c1 := cappedDivMod (c100.2 % 1461) 365 3
  { year := 400 * n400 + 100 * c100.1 + 4 * n4 + c1.1 + 1
    leap := c1.1 = 3 ∧ (n4 ≠ 24 ∨ c100.1 = 3)
    day := c1.2 }

/-- `date.isoformat()`. -/
def dateText (day : Nat) : List Char :=
  let d := yearDay day
  digits 4 d.year ++ monthDay (monthLengths d.leap) 1 d.day

theorem increasing_monthDay (leap : Bool) :
    IncreasingBelow 366 (monthDay (monthLengths leap) 1) := by
  apply increasingBelow_of_succ
  cases leap <;> decide +kernel

theorem length_monthDay (lengths : List Nat) (month n : Nat) :
    (monthDay lengths month n).length = 6 := by
  induction lengths generalizing month n with
  | nil => simp [monthDay]
  | cons len lengths ih =>
    unfold monthDay
    split
    · simp
    · exact ih _ _

theorem yearDay_day_lt (day : Nat) : (yearDay day).day < 366 := by
  simp only [yearDay, cappedDivMod]
  omega

theorem yearDay_year_lt {day : Nat} (h : day < 3652059) : (yearDay day).year < 10000 := by
  simp only [yearDay, cappedDivMod]
  omega

theorem divMod_lt {n m k : Nat} (h : n < m) :
    n / k < m / k ∨ (n / k = m / k ∧ n % k < m % k) := by
  rcases (Nat.div_le_div_right (c := k) h.le).lt_or_eq with hlt | heq
  · exact Or.inl hlt
  · have hn := Nat.div_add_mod n k
    have hm := Nat.div_add_mod m k
    rw [heq] at hn
    exact Or.inr ⟨heq, by omega⟩

theorem cappedDivMod_lt {n m k c : Nat} (h : n < m) :
    (cappedDivMod n k c).1 < (cappedDivMod m k c).1 ∨
      ((cappedDivMod n k c).1 = (cappedDivMod m k c).1 ∧
        (cappedDivMod n k c).2 < (cappedDivMod m k c).2) := by
  have hle : min (n / k) c ≤ min (m / k) c :=
    min_le_min_right _ (Nat.div_le_div_right h.le)
  rcases hle.lt_or_eq with hlt | heq
  · exact Or.inl hlt
  · have hn : k * min (n / k) c ≤ n :=
      (Nat.mul_le_mul_left k (min_le_left _ _)).trans (Nat.mul_div_le n k)
    refine Or.inr ⟨heq, ?_⟩
    simp only [cappedDivMod]
    rw [← heq]
    omega

theorem cappedDivMod_le {n k cap : Nat} : (cappedDivMod n k cap).1 ≤ cap := min_le_right _ _

/-- A later day is in a later year, or later in the same year. -/
theorem yearDay_lt {n m : Nat} (h : n < m) : (yearDay n).year < (yearDay m).year ∨
    ((yearDay n).year = (yearDay m).year ∧ (yearDay n).leap = (yearDay m).leap ∧
      (yearDay n).day < (yearDay m).day) := by
  have hyears : ∀ day, (cappedDivMod (day % 146097) 36524 3).2 < 36525 := by
    intro day
    simp only [cappedDivMod]
    omega
  have hn100 := hyears n
  have hm100 := hyears m
  have hn1 := @cappedDivMod_le ((cappedDivMod (n % 146097) 36524 3).2 % 1461) 365 3
  have hm1 := @cappedDivMod_le ((cappedDivMod (m % 146097) 36524 3).2 % 1461) 365 3
  have hc1 := @cappedDivMod_le (n % 146097) 36524 3
  have hc2 := @cappedDivMod_le (m % 146097) 36524 3
  simp only [yearDay]
  -- the four cycles, from the longest: the first that differs decides the year
  rcases divMod_lt (k := 146097) h with h400 | ⟨h400, h⟩
  · left
    omega
  · rcases cappedDivMod_lt (k := 36524) (c := 3) h with h100 | ⟨h100, h⟩
    · left
      omega
    · rcases divMod_lt (k := 1461) h with h4 | ⟨h4, h⟩
      · left
        omega
      · rcases cappedDivMod_lt (k := 365) (c := 3) h with h1 | ⟨h1, h⟩
        · left
          omega
        · right
          rw [h400, h100, h4, h1]
          exact ⟨rfl, rfl, h⟩

theorem increasing_dateText : IncreasingBelow 3652059 dateText := by
  intro n m hnm hm
  have hyear := yearDay_year_lt hm
  simp only [dateText]
  rcases yearDay_lt hnm with hlt | ⟨heq, hleap, hday⟩
  · apply append_lt_append_of_lt _ (by simp)
    exact increasing_digits 4 _ _ hlt hyear
  · rw [heq, hleap]
    exact append_lt_append_left (increasing_monthDay _ _ _ hday (yearDay_day_lt m)) _

theorem length_dateText (day : Nat) : (dateText day).length = 10 := by
  simp [dateText, length_monthDay]

/-! ### The time of day -/

def usPerSec : Nat := 1000000
def usPerMin : Nat := 60 * usPerSec
def usPerHour : Nat := 60 * usPerMin
def usPerDay : Nat := 24 * usPerHour

/-- The fraction, left out when it is zero, and the offset of UTC. -/
def fractionText (us : Nat) : List Char :=
  if us = 0 then "+00:00".toList else '.' :: (digits 6 us ++ "+00:00".toList)

def secText (us : Nat) : List Char :=
  ':' :: (digits 2 (us / usPerSec) ++ fractionText (us % usPerSec))

def minText (us : Nat) : List Char :=
  ':' :: (digits 2 (us / usPerMin) ++ secText (us % usPerMin))

def timeText (us : Nat) : List Char :=
  'T' :: (digits 2 (us / usPerHour) ++ minText (us % usPerHour))

theorem increasing_fractionText : IncreasingBelow usPerSec fractionText := by
  intro n m hnm hm
  have hm0 : m ≠ 0 := by omega
  simp only [fractionText, if_neg hm0]
  by_cases hn0 : n = 0
  · rw [if_pos hn0]
    exact List.cons_lt_cons_iff.mpr (Or.inl (by decide))
  · rw [if_neg hn0]
    apply append_lt_append_left (a := ['.'])
    apply append_lt_append_of_lt (increasing_digits 6 n m hnm hm) (by simp)

theorem width_digits (w bound : Nat) : WidthBelow bound (digits w) w :=
  fun n _ => length_digits w n

theorem increasing_secText : IncreasingBelow usPerMin secText :=
  (IncreasingBelow.divMod (by decide) ((increasing_digits 2).mono (by decide))
    (width_digits 2 60) increasing_fractionText).cons ':'

theorem increasing_minText : IncreasingBelow usPerHour minText :=
  (IncreasingBelow.divMod (by decide) ((increasing_digits 2).mono (by decide))
    (width_digits 2 60) increasing_secText).cons ':'

theorem increasing_timeText : IncreasingBelow usPerDay timeText :=
  (IncreasingBelow.divMod (by decide) ((increasing_digits 2).mono (by decide))
    (width_digits 2 24) increasing_minText).cons 'T'

/-! ### Instants -/

/-- An instant of the years 1 to 9999, in microseconds. -/
structure Instant where
  us : Nat
  inRange : us < 3652059 * usPerDay
deriving DecidableEq, Repr

instance : LinearOrder Instant := LinearOrder.lift' Instant.us fun s t h => by
  cases s
  cases t
  cases h
  rfl

theorem Instant.lt_iff {s t : Instant} : s < t ↔ s.us < t.us := Iff.rfl

theorem Instant.le_iff {s t : Instant} : s ≤ t ↔ s.us ≤ t.us := Iff.rfl

def days (n : Nat) : Nat := n * usPerDay

/-- `t - timedelta(...)`, for an instant at least that far from year 1. -/
def Instant.minus (t : Instant) (us : Nat) : Instant :=
  ⟨t.us - us, (Nat.sub_le _ _).trans_lt t.inRange⟩

theorem Instant.minus_le (t : Instant) (us : Nat) : t.minus us ≤ t := by
  rw [Instant.le_iff]
  exact Nat.sub_le _ _

theorem Instant.minus_le_minus {s t : Instant} {a b : Nat} (h : s ≤ t) (hab : a ≤ b) :
    s.minus b ≤ t.minus a := by
  rw [Instant.le_iff] at h ⊢
  simp only [minus]
  omega

/-- `datetime.isoformat()` of the UTC instant. -/
def isoformat (t : Instant) : String :=
  String.ofList (dateText (t.us / usPerDay) ++ timeText (t.us % usPerDay))

/-- **The texts of two instants compare as the instants do.** -/
theorem isoformat_strictMono : StrictMono isoformat := by
  intro s t h
  have htext := IncreasingBelow.divMod (by decide) increasing_dateText
    (fun n _ => length_dateText n) increasing_timeText s.us t.us h t.inRange
  rw [isoformat, isoformat, String.lt_iff, String.toList_ofList, String.toList_ofList]
  exact htext

theorem isoformat_lt_iff {s t : Instant} : isoformat s < isoformat t ↔ s < t :=
  isoformat_strictMono.lt_iff_lt

theorem isoformat_le_iff {s t : Instant} : isoformat s ≤ isoformat t ↔ s ≤ t :=
  isoformat_strictMono.le_iff_le

theorem isoformat_injective : Function.Injective isoformat := isoformat_strictMono.injective

end Srp.Lib.IsoTime
