/-
  Srp/Lib/Framing.lean
  ====================
  **Frames over a connection.**

  A connection hands its bytes over in chunks of its own making, and ends some
  day.  `recvExactly` collects a given number of bytes; what it gives depends on
  the bytes and not on the chunks (`recvExactly_ok`, `recvExactly_error`).  A
  frame begins with its length, in four octets from the lowest on.
-/
import Srp.Lib.Octets

namespace Srp.Lib.Framing

open Octets

/-! ### Exact reads -/

/-- What one read of a connection hands over: never nothing. -/
abbrev Chunk := { bs : Bytes // bs ≠ [] }

/-- The bytes of chunks in a row. -/
def bytesOf (chunks : List Chunk) : Bytes := chunks.flatMap (·.1)

theorem drop_ne_nil {bs : Bytes} {n : Nat} (h : n < bs.length) : bs.drop n ≠ [] := by
  rw [ne_eq, List.drop_eq_nil_iff]
  omega

variable {ε : Type} (ending : ε)

/-- Read until there are `n` bytes, at most as many as are missing at a time; the connection ends
    with `ending`.  What is given back with the bytes is what has not been read. -/
def recvExactly : List Chunk → Nat → Except ε (Bytes × List Chunk)
  | chunks, 0 => .ok ([], chunks)
  | [], _ + 1 => .error ending
  | c :: chunks, n + 1 =>
    if h : n + 1 < c.1.length then .ok (c.1.take (n + 1), ⟨c.1.drop (n + 1), drop_ne_nil h⟩ :: chunks)
    else (recvExactly chunks (n + 1 - c.1.length)).map fun r => (c.1 ++ r.1, r.2)

theorem recvExactly_ok {chunks : List Chunk} {n : Nat} (h : n ≤ (bytesOf chunks).length) :
    ∃ rest, recvExactly ending chunks n = .ok ((bytesOf chunks).take n, rest) ∧
      bytesOf rest = (bytesOf chunks).drop n := by
  induction chunks generalizing n with
  | nil =>
    obtain rfl : n = 0 := by simpa [bytesOf] using h
    exact ⟨[], rfl, rfl⟩
  | cons c chunks ih =>
    have hbytes : bytesOf (c :: chunks) = c.1 ++ bytesOf chunks := List.flatMap_cons
    rw [hbytes, List.length_append] at h
    rw [hbytes]
    cases n with
    | zero => exact ⟨c :: chunks, rfl, hbytes⟩
    | succ n =>
      unfold recvExactly
      by_cases hlt : n + 1 < c.1.length
      · rw [dif_pos hlt]
        refine ⟨⟨c.1.drop (n + 1), drop_ne_nil hlt⟩ :: chunks, ?_, ?_⟩
        · rw [List.take_append_of_le_length hlt.le]
        · rw [List.drop_append_of_le_length hlt.le]
          rfl
      · rw [dif_neg hlt]
        have hle : c.1.length ≤ n + 1 := not_lt.mp hlt
        obtain ⟨rest, hrest, hbehind⟩ := ih (n := n + 1 - c.1.length) (by omega)
        refine ⟨rest, ?_, ?_⟩
        · rw [hrest, List.take_append, List.take_of_length_le hle]
          rfl
        · rw [hbehind, List.drop_append, List.drop_eq_nil_of_le hle, List.nil_append]

theorem recvExactly_error {chunks : List Chunk} {n : Nat} (h : (bytesOf chunks).length < n) :
    recvExactly ending chunks n = .error ending := by
  induction chunks generalizing n with
  | nil =>
    cases n with
    | zero => simp at h
    | succ n => rfl
  | cons c chunks ih =>
    have hbytes : bytesOf (c :: chunks) = c.1 ++ bytesOf chunks := List.flatMap_cons
    rw [hbytes, List.length_append] at h
    cases n with
    | zero => omega
    | succ n =>
      unfold recvExactly
      rw [dif_neg (by omega), ih (by omega)]
      rfl

/-! ### Lengths -/

/-- The four octets of a number, the lowest one first. -/
def le32 (n : Nat) : Bytes :=
  [UInt8.ofNat n, UInt8.ofNat (n / 2 ^ 8), UInt8.ofNat (n / 2 ^ 16), UInt8.ofNat (n / 2 ^ 24)]

/-- The number of such octets. -/
def ofLe (bs : Bytes) : Nat := ofOctets bs.reverse

@[simp] theorem length_le32 (n : Nat) : (le32 n).length = 4 := rfl

theorem ofLe_le32 {n : Nat} (h : n < 2 ^ 32) : ofLe (le32 n) = n := by
  unfold ofLe le32 ofOctets
  simp only [List.reverse_cons, List.reverse_nil, List.nil_append, List.cons_append,
    List.foldl_cons, List.foldl_nil, UInt8.toNat_ofNat']
  omega

end Srp.Lib.Framing
