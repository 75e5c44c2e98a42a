/-
  Srp/Lib/PyInt.lean
  ==================
  **`int()` of a text.**

  Python accepts more than digits: blanks around the number, a sign, single
  underscores between digits, a `0x` in front of a hexadecimal one, and the
  decimal digits of every script.  Which characters are blanks and digits is the
  Unicode database's to say (`PyChars`).  A text with too many decimal digits
  raises `ValueError`, like one that is no number.
-/
import Mathlib.Data.List.Basic

namespace Srp.Lib.PyInt

/-- What `int()` asks of the Unicode database. -/
structure PyChars where
  decimal : Char → Option Nat
  isSpace : Char → Bool

/-- The database on ASCII text. -/
def PyChars.ascii : PyChars where
  decimal c := if c.isDigit then some (c.toNat - '0'.toNat) else none
  isSpace c := c = ' ' ∨ (9 ≤ c.toNat ∧ c.toNat ≤ 13) ∨ (28 ≤ c.toNat ∧ c.toNat ≤ 31)

variable (C : PyChars)

def strip (t : List Char) : List Char :=
  ((t.dropWhile C.isSpace).reverse.dropWhile C.isSpace).reverse

def hexDigit (c : Char) : Option Nat :=
  if 'a' ≤ c ∧ c ≤ 'f' then some (c.toNat - 'a'.toNat + 10)
  else if 'A' ≤ c ∧ c ≤ 'F' then some (c.toNat - 'A'.toNat + 10)
  else C.decimal c

/-- Digits with single underscores between them. -/
def digitRun (digit : Char → Option Nat) (base : Nat) (afterDigit : Bool) (acc : Nat) :
    List Char → Option Nat
  | [] => if afterDigit then some acc else none
  | c :: t =>
    if c = '_' then if afterDigit then digitRun digit base false acc t else none
    else match digit c with
      | some d => digitRun digit base true (acc * base + d) t
      | none => none

def signed (t : List Char) (digits : List Char → Option Nat) : Option Int :=
  match t with
  | '-' :: t => (digits t).map fun n => -(n : Int)
  | '+' :: t => (digits t).map fun n => (n : Int)
  | t => (digits t).map fun n => (n : Int)

/-- `sys.int_info.default_max_str_digits`. -/
def maxStrDigits : Nat := 4300

/-- `int(t)`. -/
def pyInt (t : List Char) : Option Int :=
  if maxStrDigits < t.countP fun c => (C.decimal c).isSome then none
  else signed (strip C t) (digitRun C.decimal 10 false 0)

/-- The body of a hexadecimal number, behind its sign. -/
def hexBody (t : List Char) : Option Nat :=
  let run := digitRun (hexDigit C) 16 false 0
  match t with
  | '0' :: x :: '_' :: t => if x = 'x' ∨ x = 'X' then run t else run ('0' :: x :: '_' :: t)
  | '0' :: x :: t => if x = 'x' ∨ x = 'X' then run t else run ('0' :: x :: t)
  | t => run t

/-- `int(t, 16)`: a power of two has no limit on its digits. -/
def pyIntHex (t : List Char) : Option Int := signed (strip C t) (hexBody C)

example : pyInt .ascii " -1_0 ".toList = some (-10) := by decide

/-! ### Texts of decimal digits -/

/-- The database knows the ASCII digits. -/
def PyChars.ReadsDigits : Prop :=
  ∀ c, c.isDigit = true → C.decimal c = some (c.toNat - '0'.toNat) ∧ C.isSpace c = false

theorem readsDigits_ascii : PyChars.ascii.ReadsDigits := by
  intro c hc
  have hrange : 48 ≤ c.toNat ∧ c.toNat ≤ 57 := by
    simp only [Char.isDigit, Bool.and_eq_true, decide_eq_true_eq] at hc
    exact hc
  refine ⟨if_pos hc, ?_⟩
  simp only [PyChars.ascii, decide_eq_false_iff_not]
  rintro (rfl | hlow | hhigh)
  · exact absurd hc (by decide)
  · omega
  · omega

variable {C}

theorem strip_eq_self {t : List Char} (h : ∀ c ∈ t, C.isSpace c = false) : strip C t = t := by
  unfold strip
  have hdrop : ∀ u : List Char, (∀ c ∈ u, C.isSpace c = false) → u.dropWhile C.isSpace = u := by
    intro u hu
    cases u with
    | nil => rfl
    | cons c u => exact List.dropWhile_cons_of_neg (by simp [hu c List.mem_cons_self])
  rw [hdrop t h, hdrop t.reverse, List.reverse_reverse]
  intro c hc
  exact h c (List.mem_reverse.mp hc)

theorem ne_of_isDigit {c d : Char} (hc : c.isDigit = true) (hd : d.isDigit = false) : c ≠ d := by
  rintro rfl
  rw [hc] at hd
  cases hd

theorem digitRun_digits (hC : C.ReadsDigits) {t : List Char} (ht : ∀ c ∈ t, c.isDigit = true)
    (acc : Nat) : digitRun C.decimal 10 true acc t = some (Nat.ofDigitChars 10 t acc) := by
  induction t generalizing acc with
  | nil => simp [digitRun]
  | cons c t ih =>
    have hc := ht c List.mem_cons_self
    have hrest := ih fun d hd => ht d (List.mem_cons_of_mem c hd)
    simp only [digitRun, (hC c hc).1]
    rw [if_neg (ne_of_isDigit hc (by decide)), hrest, Nat.ofDigitChars_cons, Nat.mul_comm acc 10]

/-- The decimal text of a number reads back, if it is not too long. -/
theorem pyInt_toDigits (hC : C.ReadsDigits) (n : Nat) : pyInt C (Nat.toDigits 10 n) =
    if maxStrDigits < (Nat.toDigits 10 n).length then none else some (n : Int) := by
  have hdigits : ∀ c ∈ Nat.toDigits 10 n, c.isDigit = true :=
    fun c hc => Nat.isDigit_of_mem_toDigits (by decide) (by decide) hc
  have hcount : ((Nat.toDigits 10 n).countP fun c => (C.decimal c).isSome) =
      (Nat.toDigits 10 n).length := by
    rw [List.countP_eq_length]
    intro c hc
    simp [(hC c (hdigits c hc)).1]
  unfold pyInt
  rw [hcount, strip_eq_self fun c hc => (hC c (hdigits c hc)).2]
  split
  · rfl
  · have hvalue := @Nat.ofDigitChars_ten_toDigits n
    cases htext : Nat.toDigits 10 n with
    | nil => exact absurd htext Nat.toDigits_ne_nil
    | cons c t =>
      rw [htext] at hdigits hvalue
      have hc := hdigits c List.mem_cons_self
      have hrun : digitRun C.decimal 10 false 0 (c :: t) = some n := by
        simp only [digitRun, (hC c hc).1]
        rw [if_neg (ne_of_isDigit hc (by decide)),
          digitRun_digits hC fun d hd => hdigits d (List.mem_cons_of_mem c hd)]
        rw [Nat.ofDigitChars_cons, Nat.mul_comm 10 0] at hvalue
        rw [hvalue]
      unfold signed
      split
      · rename_i hminus
        cases hminus
        exact absurd rfl (ne_of_isDigit hc (by decide))
      · rename_i hplus
        cases hplus
        exact absurd rfl (ne_of_isDigit hc (by decide))
      · rw [hrun]
        rfl

end Srp.Lib.PyInt
