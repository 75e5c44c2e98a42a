/-
  Srp/Lib/Base64.lean
  ===================
  **Base64** (`base64.b64encode`, and `base64.b64decode` with `validate=True`).

  Three octets are four digits; one or two octets at the end are filled up with `=`.
  Decoding undoes encoding, and accepts nothing but digits and such an end.
-/
import Srp.Lib.Lines
import Srp.Lib.Octets

namespace Srp.Lib.Base64

open Srp.Lib.Lines Srp.Lib.Octets

/-! ### Digits -/

def alphabet : Text := "ABCDEFGHIJKLMNOPQRSTUVWXYZabcdefghijklmnopqrstuvwxyz0123456789+/".toList

def digit (n : Nat) : Char := alphabet.getD n 'A'

def value (c : Char) : Option Nat :=
  if c ∈ alphabet then some (alphabet.idxOf c) else none

theorem value_digit : ∀ n < 64, value (digit n) = some n := by decide +kernel

theorem digit_ne_pad : ∀ n < 64, digit n ≠ '=' := by decide +kernel

/-! ### Encoding -/

/-- The octet with the value `n`. -/
def octet (n : Nat) : UInt8 := UInt8.ofNat n

def encode : Bytes → Text
  | [] => []
  | [a] => [digit (a.toNat / 4), digit (a.toNat % 4 * 16), '=', '=']
  | [a, b] =>
    [digit (a.toNat / 4), digit (a.toNat % 4 * 16 + b.toNat / 16), digit (b.toNat % 16 * 4), '=']
  | a :: b :: c :: rest =>
    digit (a.toNat / 4) :: digit (a.toNat % 4 * 16 + b.toNat / 16) ::
      digit (b.toNat % 16 * 4 + c.toNat / 64) :: digit (c.toNat % 64) :: encode rest

/-! ### Decoding -/

/-- The octets that four digits hold. -/
def octets (p q r s : Nat) : Bytes :=
  [octet (p * 4 + q / 16), octet (q % 16 * 16 + r / 4), octet (r % 4 * 64 + s)]

def decode : Text → Option Bytes
  | [] => some []
  | p :: q :: r :: s :: rest => do
    let p ← value p
    let q ← value q
    if r = '=' ∧ s = '=' ∧ rest = [] then some ((octets p q 0 0).take 1)
    else
      let r ← value r
      if s = '=' ∧ rest = [] then some ((octets p q r 0).take 2)
      else
        let s ← value s
        let rest ← decode rest
        some (octets p q r s ++ rest)
  | _ => none

/-! ### The round trip -/

theorem octet_toNat (a : UInt8) {n : Nat} (h : n = a.toNat) : octet n = a := by
  rw [h, octet, UInt8.ofNat_toNat]

theorem octets_digits (a b c : UInt8) :
    octets (a.toNat / 4) (a.toNat % 4 * 16 + b.toNat / 16) (b.toNat % 16 * 4 + c.toNat / 64)
      (c.toNat % 64) = [a, b, c] := by
  have ha := a.toNat_lt
  have hb := b.toNat_lt
  have hc := c.toNat_lt
  unfold octets
  rw [octet_toNat a (by omega), octet_toNat b (by omega), octet_toNat c (by omega)]

theorem decode_quad {p q r s : Nat} (hp : p < 64) (hq : q < 64) (hr : r < 64) (hs : s < 64)
    (rest : Text) : decode (digit p :: digit q :: digit r :: digit s :: rest) =
      (decode rest).map fun bytes => octets p q r s ++ bytes := by
  rw [decode]
  simp only [value_digit p hp, value_digit q hq, value_digit r hr, value_digit s hs,
    digit_ne_pad r hr, digit_ne_pad s hs, false_and, if_false, Option.bind_eq_bind,
    Option.bind_some]
  cases decode rest <;> rfl

/-- **Decoding undoes encoding.** -/
theorem decode_encode (bytes : Bytes) : decode (encode bytes) = some bytes := by
  fun_induction encode bytes with
  | case1 => rfl
  | case2 a =>
    have ha := a.toNat_lt
    rw [decode]
    simp [value_digit (a.toNat / 4) (by omega), value_digit (a.toNat % 4 * 16) (by omega), octets]
    exact octet_toNat a (by omega)
  | case3 a b =>
    have ha := a.toNat_lt
    have hb := b.toNat_lt
    have hfirst : a.toNat / 4 * 4 + (a.toNat % 4 * 16 + b.toNat / 16) / 16 = a.toNat := by omega
    rw [decode]
    simp [value_digit (a.toNat / 4) (by omega),
      value_digit (a.toNat % 4 * 16 + b.toNat / 16) (by omega),
      value_digit (b.toNat % 16 * 4) (by omega), digit_ne_pad (b.toNat % 16 * 4) (by omega),
      octets, octet_toNat a hfirst]
    exact octet_toNat b (by omega)
  | case4 a b c rest ih =>
    have ha := a.toNat_lt
    have hb := b.toNat_lt
    have hc := c.toNat_lt
    rw [decode_quad (by omega) (by omega) (by omega) (by omega), ih, octets_digits]
    rfl

theorem length_le_encode (bytes : Bytes) : bytes.length ≤ (encode bytes).length := by
  fun_induction encode bytes with
  | case1 => exact le_rfl
  | case2 a => simp
  | case3 a b => simp
  | case4 a b c rest ih =>
    simp only [List.length_cons]
    omega

end Srp.Lib.Base64
