/-
  Srp/Lib/PyDecode.lean
  =====================
  **`bytes.decode(..., "replace")`.**

  Neither decoder fails: an octet that is not ASCII, and the longest beginning
  of a UTF-8 character that does not go on as one, become U+FFFD.
-/
import Srp.Lib.Lines
import Srp.Lib.Octets

namespace Srp.Lib.PyDecode

open Srp.Lib Srp.Lib.Lines Srp.Lib.Octets

def replacement : Char := Char.ofNat 0xFFFD

/-! ### ASCII -/

def asciiChar (b : UInt8) : Char := if b.toNat < 0x80 then Char.ofNat b.toNat else replacement

/-- `b.decode("ascii", "replace")`. -/
def decodeAscii (bs : Bytes) : Text := bs.map asciiChar

/-! ### UTF-8 -/

/-- A character begun: the continuation octets it still needs, what the next of them may be, and
the bits there are so far. -/
structure Begun where
  need : Nat
  low : Nat
  high : Nat
  bits : Nat

/-- The character that a lead octet begins. -/
def lead (b : Nat) : Option Begun :=
  if 0xC2 ≤ b ∧ b ≤ 0xDF then some ⟨1, 0x80, 0xBF, b % 32⟩
  else if b = 0xE0 then some ⟨2, 0xA0, 0xBF, 0⟩
  else if b = 0xED then some ⟨2, 0x80, 0x9F, 13⟩
  else if 0xE1 ≤ b ∧ b ≤ 0xEF then some ⟨2, 0x80, 0xBF, b % 16⟩
  else if b = 0xF0 then some ⟨3, 0x90, 0xBF, 0⟩
  else if 0xF1 ≤ b ∧ b ≤ 0xF3 then some ⟨3, 0x80, 0xBF, b % 8⟩
  else if b = 0xF4 then some ⟨3, 0x80, 0x8F, 4⟩
  else none

/-- An octet where a character may begin. -/
def firstOctet (b : UInt8) : Text × Option Begun :=
  if b.toNat < 0x80 then ([Char.ofNat b.toNat], none)
  else match lead b.toNat with
    | some c => ([], some c)
    | none => ([replacement], none)

/-- What an octet adds to the text, and the character begun behind it. -/
def utf8Step : Option Begun → UInt8 → Text × Option Begun
  | none, b => firstOctet b
  | some c, b =>
    if c.low ≤ b.toNat ∧ b.toNat ≤ c.high then
      let bits := c.bits * 64 + b.toNat % 64
      if c.need = 1 then ([Char.ofNat bits], none) else ([], some ⟨c.need - 1, 0x80, 0xBF, bits⟩)
    -- the octet is not the next of the character: it begins another
    else (replacement :: (firstOctet b).1, (firstOctet b).2)

def utf8From : Option Begun → Bytes → Text
  | none, [] => []
  | some _, [] => [replacement]
  | c, b :: bs => (utf8Step c b).1 ++ utf8From (utf8Step c b).2 bs

/-- `b.decode("utf-8", "replace")`. -/
def decodeUtf8 (bs : Bytes) : Text := utf8From none bs

example : decodeUtf8 [0xD0, 0x98, 0xE2, 0x82, 0x41, 0xF0, 0x9F] =
    ['И', replacement, 'A', replacement] := by decide

end Srp.Lib.PyDecode
