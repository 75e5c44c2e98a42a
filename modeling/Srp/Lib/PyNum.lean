/-
  Srp/Lib/PyNum.lean
  ==================
  **Python numbers over exact rationals.**

  A finite `float` is represented by the rational it denotes.  Arithmetic is
  exact, except where a definition takes the rounding `fl` of its operations;
  `binary64` is the one of a double.  The operations whose Python meaning is not
  the mathematical one are defined here: `int()` truncates toward zero, `round()`
  ties to even, and `float()` of an integer raises `OverflowError` beyond the
  largest double.
-/
import Mathlib.Algebra.Order.Floor.Defs
import Mathlib.Algebra.Order.Floor.Ring
import Mathlib.Algebra.Order.Round
import Mathlib.Data.List.Sort
import Mathlib.Data.Rat.Floor
import Mathlib.Tactic.Linarith
import Mathlib.Tactic.Positivity

namespace Srp.Lib.PyNum

inductive PyError where
  | overflowError
  | valueError
  | keyError
deriving DecidableEq, Repr

/-- A `do` block returns when each of its steps does. -/
theorem bind_eq_ok {α β : Type} {x : Except PyError α} {f : α → Except PyError β} {b : β} :
    x >>= f = .ok b ↔ ∃ a, x = .ok a ∧ f a = .ok b := by
  cases x with
  | error e =>
    constructor
    · intro h
      cases h
    · rintro ⟨a, ha, _⟩
      cases ha
  | ok a =>
    constructor
    · intro h
      exact ⟨a, rfl, h⟩
    · rintro ⟨a', ha, h⟩
      obtain rfl := Except.ok.inj ha
      exact h

theorem ok_bind {α β : Type} (a : α) (f : α → Except PyError β) :
    (Except.ok a >>= f) = f a := rfl

theorem map_ok_iff {α β : Type} {x : Except PyError α} {f : α → β} :
    (∃ b, x.map f = .ok b) ↔ ∃ a, x = .ok a := by
  cases x with
  | error e =>
    constructor
    · rintro ⟨b, h⟩
      cases h
    · rintro ⟨a, h⟩
      cases h
  | ok a => exact ⟨fun _ => ⟨a, rfl⟩, fun _ => ⟨f a, rfl⟩⟩

/-- A loop over a list completes when every element passes, if passing does not depend on
    the state of the loop. -/
theorem foldlM_ok_iff {α β : Type} {f : β → α → Except PyError β} {P : α → Prop}
    (h : ∀ b a, (∃ b', f b a = .ok b') ↔ P a) (b : β) (xs : List α) :
    (∃ b', xs.foldlM f b = .ok b') ↔ ∀ a ∈ xs, P a := by
  induction xs generalizing b with
  | nil => exact ⟨fun _ a ha => absurd ha List.not_mem_nil, fun _ => ⟨b, rfl⟩⟩
  | cons x xs ih =>
    rw [List.foldlM_cons, List.forall_mem_cons, ← h b x]
    constructor
    · rintro ⟨b', hb⟩
      obtain ⟨mid, hmid, hb⟩ := bind_eq_ok.mp hb
      exact ⟨⟨mid, hmid⟩, (ih mid).mp ⟨b', hb⟩⟩
    · rintro ⟨⟨mid, hmid⟩, hrest⟩
      obtain ⟨b', hb⟩ := (ih mid).mpr hrest
      exact ⟨b', bind_eq_ok.mpr ⟨mid, hmid, hb⟩⟩

theorem mapM_ok_iff {α β : Type} {f : α → Except PyError β} (xs : List α) :
    (∃ ys, xs.mapM f = .ok ys) ↔ ∀ a ∈ xs, ∃ y, f a = .ok y := by
  induction xs with
  | nil => exact ⟨fun _ a ha => absurd ha List.not_mem_nil, fun _ => ⟨[], rfl⟩⟩
  | cons x xs ih =>
    rw [List.mapM_cons, List.forall_mem_cons, ← ih]
    constructor
    · rintro ⟨ys, hys⟩
      obtain ⟨y, hy, hys⟩ := bind_eq_ok.mp hys
      obtain ⟨zs, hzs, _⟩ := bind_eq_ok.mp hys
      exact ⟨⟨y, hy⟩, zs, hzs⟩
    · rintro ⟨⟨y, hy⟩, zs, hzs⟩
      exact ⟨y :: zs, bind_eq_ok.mpr ⟨y, hy, bind_eq_ok.mpr ⟨zs, hzs, rfl⟩⟩⟩

theorem mapM_ok_mem {α β : Type} {f : α → Except PyError β} {xs : List α} {ys : List β}
    (h : xs.mapM f = .ok ys) {y : β} : y ∈ ys ↔ ∃ x ∈ xs, f x = .ok y := by
  induction xs generalizing ys with
  | nil =>
    obtain rfl := Except.ok.inj h
    simp
  | cons x xs ih =>
    rw [List.mapM_cons] at h
    obtain ⟨z, hz, h⟩ := bind_eq_ok.mp h
    obtain ⟨zs, hzs, h⟩ := bind_eq_ok.mp h
    obtain rfl := Except.ok.inj h
    rw [List.mem_cons, ih hzs]
    constructor
    · rintro (rfl | ⟨w, hw, hy⟩)
      · exact ⟨x, List.mem_cons_self, hz⟩
      · exact ⟨w, List.mem_cons_of_mem x hw, hy⟩
    · rintro ⟨w, hw, hy⟩
      rcases List.mem_cons.mp hw with rfl | hw
      · exact Or.inl (Except.ok.inj (hy.symm.trans hz))
      · exact Or.inr ⟨w, hw, hy⟩

theorem toOption_eq_some {α : Type} {x : Except PyError α} {a : α} :
    x.toOption = some a ↔ x = .ok a := by
  cases x with
  | error e => simp [Except.toOption]
  | ok b => simp [Except.toOption]

theorem exists_ok_of_isOk {α : Type} {x : Except PyError α} (h : x.isOk = true) :
    ∃ a, x = .ok a := by
  cases x with
  | error e => cases h
  | ok a => exact ⟨a, rfl⟩

/-! ### Integers to floats -/

/-- Integers of this magnitude or more round past the largest finite double. -/
def floatLimit : Nat := 2 ^ 1024 - 2 ^ 970

/-- The largest finite double. -/
def maxDouble : Nat := 2 ^ 1024 - 2 ^ 971

/-- `float(n)` for a Python integer. -/
def floatOfInt (n : Int) : Except PyError ℚ :=
  if n.natAbs < floatLimit then .ok n else .error .overflowError

/-! ### Truncation and rounding -/

/-- `int(q)`: truncation toward zero. -/
def trunc (q : ℚ) : Int := if 0 ≤ q then ⌊q⌋ else ⌈q⌉

theorem trunc_mono {p q : ℚ} (h : p ≤ q) : trunc p ≤ trunc q := by
  unfold trunc
  by_cases hp : 0 ≤ p
  · rw [if_pos hp, if_pos (hp.trans h)]
    exact Int.floor_le_floor h
  · rw [if_neg hp]
    have hp0 : ⌈p⌉ ≤ 0 := Int.ceil_le.mpr (by simpa using (not_le.mp hp).le)
    by_cases hq : 0 ≤ q
    · rw [if_pos hq]
      exact hp0.trans (Int.floor_nonneg.mpr hq)
    · rw [if_neg hq]
      exact Int.ceil_le_ceil h

/-- `round(q)`: to the nearest integer, ties to the even one. -/
def roundHalfEven (q : ℚ) : Int :=
  let f := ⌊q⌋
  let r := q - f
  if r < 1 / 2 then f
  else if 1 / 2 < r then f + 1
  else if f % 2 = 0 then f else f + 1

def round1 (q : ℚ) : ℚ := roundHalfEven (q * 10) / 10

theorem floor_le_roundHalfEven (q : ℚ) : ⌊q⌋ ≤ roundHalfEven q := by
  simp only [roundHalfEven]
  split_ifs <;> omega

theorem roundHalfEven_le_floor_add_one (q : ℚ) : roundHalfEven q ≤ ⌊q⌋ + 1 := by
  simp only [roundHalfEven]
  split_ifs <;> omega

theorem roundHalfEven_mono {p q : ℚ} (h : p ≤ q) : roundHalfEven p ≤ roundHalfEven q := by
  rcases (Int.floor_le_floor h).lt_or_eq with hlt | heq
  · calc roundHalfEven p ≤ ⌊p⌋ + 1 := roundHalfEven_le_floor_add_one p
      _ ≤ ⌊q⌋ := hlt
      _ ≤ roundHalfEven q := floor_le_roundHalfEven q
  · -- in one unit interval the fractions decide
    simp only [roundHalfEven, heq]
    split_ifs <;> first | omega | (exfalso; linarith)

@[simp] theorem roundHalfEven_intCast (n : Int) : roundHalfEven (n : ℚ) = n := by
  simp [roundHalfEven]

/-- The values that one decimal can write. -/
def IsTenths (q : ℚ) : Prop := ∃ n : Int, q = n / 10

theorem isTenths_round1 (q : ℚ) : IsTenths (round1 q) := ⟨roundHalfEven (q * 10), rfl⟩

theorem round1_mono {p q : ℚ} (h : p ≤ q) : round1 p ≤ round1 q := by
  have hround : roundHalfEven (p * 10) ≤ roundHalfEven (q * 10) :=
    roundHalfEven_mono (by linarith)
  have hcast : (roundHalfEven (p * 10) : ℚ) ≤ roundHalfEven (q * 10) := by exact_mod_cast hround
  unfold round1
  linarith

theorem IsTenths.round1_eq {q : ℚ} (h : IsTenths q) : round1 q = q := by
  obtain ⟨n, rfl⟩ := h
  unfold round1
  rw [div_mul_cancel₀ _ (by norm_num), roundHalfEven_intCast]

/-! ### Doubles -/

/-- The exponent of the leading bit. -/
def leadingBit (q : ℚ) : Int :=
  let e : Int := (q.num.natAbs.log2 : Int) - q.den.log2
  if 2 ^ e ≤ |q| then e else e - 1

/-- The double nearest to `q`, ties to even, where it is finite: 53 significant bits, and no
    bit below the smallest double. -/
def binary64 (q : ℚ) : ℚ :=
  if q = 0 then 0
  else
    let unit : ℚ := 2 ^ max (leadingBit q - 52) (-1074)
    roundHalfEven (q / unit) * unit

example : binary64 (45 * binary64 (14 / 10)) < 63 := by decide +kernel

/-! ### Formatting -/

/-- `f"{int(q)}"`. -/
def fmtInt (q : ℚ) : String := toString (trunc q)

/-- `f"{q:.0f}"`. -/
def fmt0 (q : ℚ) : String := toString (roundHalfEven q)

/-- The digits of `f"{q:.kf}"` for the magnitude of `q`. -/
def fixedDigits (k : Nat) (q : ℚ) : String :=
  let n := (roundHalfEven (|q| * 10 ^ k)).toNat
  let frac := toString (n % 10 ^ k)
  toString (n / 10 ^ k) ++
    if k = 0 then "" else "." ++ "".pushn '0' (k - frac.length) ++ frac

/-- `f"{q:.kf}"`. -/
def fmtFixed (k : Nat) (q : ℚ) : String := (if q < 0 then "-" else "") ++ fixedDigits k q

/-- `f"{q:+.kf}"`. -/
def fmtSigned (k : Nat) (q : ℚ) : String := (if q < 0 then "-" else "+") ++ fixedDigits k q

/-- `f"{q:.0%}"`. -/
def fmtPercent (q : ℚ) : String := fmtFixed 0 (q * 100) ++ "%"

/-- `_clamp(q, lo, hi)`. -/
def clampTo (lo hi q : ℚ) : ℚ := max lo (min hi q)

/-- `max(0.0, min(100.0, q))`. -/
def clamp (q : ℚ) : ℚ := max 0 (min 100 q)

theorem clamp_mono {p q : ℚ} (h : p ≤ q) : clamp p ≤ clamp q :=
  max_le_max le_rfl (min_le_min le_rfl h)

theorem clamp_nonneg (q : ℚ) : 0 ≤ clamp q := le_max_left _ _

theorem clamp_le_hundred (q : ℚ) : clamp q ≤ 100 := max_le (by norm_num) (min_le_left _ _)

theorem clamp_of_hundred_le {q : ℚ} (h : 100 ≤ q) : clamp q = 100 := by
  simp [clamp, min_eq_left h]

/-- `statistics.median` of a non-empty list. -/
def medianWith (fl : ℚ → ℚ) (xs : List ℚ) : ℚ :=
  let s := xs.insertionSort (· ≤ ·)
  let n := s.length
  if n % 2 = 1 then s.getD (n / 2) 0
  else fl (fl (s.getD (n / 2 - 1) 0 + s.getD (n / 2) 0) / 2)

def median (xs : List ℚ) : ℚ := medianWith id xs

end Srp.Lib.PyNum
