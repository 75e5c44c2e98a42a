/-
  Srp/Lib/Octets.lean
  ===================
  **Numbers as octets, the most significant first.**

  An integer is written by taking its lowest octet and shifting until nothing
  but the sign is left (`octets`), and read back as an unsigned or as a
  two's-complement number.  `sevenBits` is base 128 with a continuation bit on
  every octet but the last.
-/
import Mathlib.Algebra.Ring.Int.Defs
import Mathlib.Data.UInt
import Mathlib.Tactic.Linarith
import Mathlib.Tactic.Ring

namespace Srp.Lib.Octets

abbrev Bytes := List UInt8

/-- `int.from_bytes(b, "big")`. -/
def ofOctets (bs : Bytes) : Nat := bs.foldl (fun n b => n * 256 + b.toNat) 0

/-- `int.from_bytes(b, "big", signed=True)`. -/
def ofOctetsSigned : Bytes → Int
  | [] => 0
  | b :: bs =>
    if b.toNat < 0x80 then ofOctets (b :: bs) else ofOctets (b :: bs) - 256 ^ (bs.length + 1)

/-- `while v not in (0, -1): body.insert(0, v & 0xFF); v >>= 8`. -/
def octetLoop : Nat → Int → Bytes → Bytes
  | 0, _, body => body
  | fuel + 1, v, body =>
    if v = 0 ∨ v = -1 then body
    else octetLoop fuel (v / 256) (UInt8.ofNat (v % 256).toNat :: body)

def octets (v : Int) : Bytes := octetLoop v.natAbs v []

/-! ### Reading -/

theorem foldl_octets (n : Nat) (bs : Bytes) :
    bs.foldl (fun n b => n * 256 + b.toNat) n = n * 256 ^ bs.length + ofOctets bs := by
  unfold ofOctets
  induction bs generalizing n with
  | nil => simp
  | cons b bs ih =>
    rw [List.foldl_cons, List.foldl_cons, ih, ih (0 * 256 + b.toNat), List.length_cons]
    ring

theorem ofOctets_cons (b : UInt8) (bs : Bytes) :
    ofOctets (b :: bs) = b.toNat * 256 ^ bs.length + ofOctets bs := by
  have h := foldl_octets (0 * 256 + b.toNat) bs
  rw [Nat.zero_mul, Nat.zero_add] at h
  rw [← h]
  unfold ofOctets
  rw [List.foldl_cons, Nat.zero_mul, Nat.zero_add]

theorem ofOctets_append_singleton (bs : Bytes) (b : UInt8) :
    ofOctets (bs ++ [b]) = ofOctets bs * 256 + b.toNat := by
  unfold ofOctets
  rw [List.foldl_append]
  rfl

/-! ### Writing -/

/-- What is left of `v` behind its octets: nothing, or the sign. -/
def signPart (v : Int) (length : Nat) : Int := if v < 0 then -(256 ^ length) else 0

theorem octetLoop_spec {fuel : Nat} {v : Int} (hfuel : v.natAbs ≤ fuel) (tail : Bytes) :
    ∃ body, octetLoop fuel v tail = body ++ tail ∧
      v = ofOctets body + signPart v body.length := by
  induction fuel generalizing v tail with
  | zero =>
    have hv : v = 0 := by omega
    subst hv
    exact ⟨[], rfl, rfl⟩
  | succ fuel ih =>
    unfold octetLoop
    by_cases hdone : v = 0 ∨ v = -1
    · rw [if_pos hdone]
      refine ⟨[], rfl, ?_⟩
      rcases hdone with rfl | rfl
      · rfl
      · rfl
    · rw [if_neg hdone]
      obtain ⟨body, hbody, hv⟩ :=
        ih (v := v / 256) (by omega) (UInt8.ofNat (v % 256).toNat :: tail)
      refine ⟨body ++ [UInt8.ofNat (v % 256).toNat], ?_, ?_⟩
      · rw [hbody, List.append_assoc]
        rfl
      · have hoctet : ((UInt8.ofNat (v % 256).toNat).toNat : Int) = v % 256 := by
          rw [UInt8.toNat_ofNat']
          omega
        have hsign : signPart v (body.length + 1) = 256 * signPart (v / 256) body.length := by
          unfold signPart
          by_cases hneg : v < 0
          · rw [if_pos hneg, if_pos (by omega), pow_succ]
            ring
          · rw [if_neg hneg, if_neg (by omega), mul_zero]
        rw [ofOctets_append_singleton, List.length_append, List.length_singleton, hsign]
        push_cast
        rw [hoctet]
        have hdiv := Int.mul_ediv_add_emod v 256
        linarith

/-- The octets of a number, and its sign in front of them, are the number. -/
theorem octets_spec (v : Int) : v = ofOctets (octets v) + signPart v (octets v).length := by
  obtain ⟨body, hbody, hv⟩ := octetLoop_spec (le_refl v.natAbs) []
  unfold octets
  rw [hbody, List.append_nil]
  exact hv

theorem ofOctets_octets (n : Nat) : ofOctets (octets n) = n := by
  have h := octets_spec n
  have hsign : signPart n (octets n).length = 0 := if_neg (by omega)
  rw [hsign, add_zero] at h
  exact_mod_cast h.symm

theorem length_octetLoop_le {fuel k n : Nat} (h : n < 256 ^ k) (tail : Bytes) :
    (octetLoop fuel n tail).length ≤ k + tail.length := by
  induction fuel generalizing n k tail with
  | zero =>
    unfold octetLoop
    omega
  | succ fuel ih =>
    unfold octetLoop
    split
    · omega
    · rename_i hdone
      cases k with
      | zero =>
        rw [Nat.pow_zero] at h
        omega
      | succ k =>
        have hdiv : n / 256 < 256 ^ k := by
          rw [Nat.pow_succ] at h
          exact Nat.div_lt_of_lt_mul (by rwa [Nat.mul_comm] at h)
        have hcast : (n : Int) / 256 = ((n / 256 : Nat) : Int) := by omega
        rw [hcast]
        have hrest := ih hdiv (UInt8.ofNat ((n : Int) % 256).toNat :: tail)
        rw [List.length_cons] at hrest
        omega

theorem length_octets_le {k n : Nat} (h : n < 256 ^ k) : (octets n).length ≤ k :=
  length_octetLoop_le h []

/-- The two's-complement octets of `v`: the sign is written out where the first octet does not
    show it. -/
def signedOctets (v : Int) : Bytes :=
  match octets v with
  | [] => [if v < 0 then 0xFF else 0]
  | b :: bs =>
    if 0 ≤ v ∧ 0x80 ≤ b.toNat then 0 :: b :: bs
    else if v < 0 ∧ b.toNat < 0x80 then 0xFF :: b :: bs
    else b :: bs

theorem ofOctetsSigned_signedOctets (v : Int) : ofOctetsSigned (signedOctets v) = v := by
  have hv := octets_spec v
  unfold signedOctets
  cases hoctets : octets v with
  | nil =>
    rw [hoctets] at hv
    simp only [ofOctets, List.foldl_nil, List.length_nil, signPart, pow_zero] at hv
    by_cases hneg : v < 0
    · rw [if_pos hneg] at hv
      simp [ofOctetsSigned, ofOctets, hv]
    · rw [if_neg hneg] at hv
      simp [ofOctetsSigned, ofOctets, hv]
  | cons b bs =>
    rw [hoctets, List.length_cons] at hv
    unfold signPart at hv
    dsimp only
    by_cases hneg : v < 0
    · rw [if_pos hneg] at hv
      rw [if_neg fun h => absurd h.1 (by omega)]
      by_cases hlow : b.toNat < 0x80
      · rw [if_pos ⟨hneg, hlow⟩]
        simp only [ofOctetsSigned]
        rw [if_neg (by decide), ofOctets_cons, List.length_cons]
        have hff : (0xFF : UInt8).toNat = 255 := rfl
        rw [hff, pow_succ (256 : Int) (bs.length + 1)]
        push_cast
        linarith
      · rw [if_neg fun h => hlow h.2]
        simp only [ofOctetsSigned, if_neg hlow]
        linarith
    · rw [if_neg hneg, add_zero] at hv
      by_cases hhigh : 0x80 ≤ b.toNat
      · rw [if_pos ⟨by omega, hhigh⟩]
        simp only [ofOctetsSigned]
        rw [if_pos (by decide), ofOctets_cons]
        simpa using hv.symm
      · rw [if_neg fun h => hhigh h.2, if_neg fun h => hneg h.1]
        simp only [ofOctetsSigned]
        rw [if_pos (by omega)]
        exact hv.symm

theorem length_octetLoop_le_fuel (fuel : Nat) (v : Int) (body : Bytes) :
    (octetLoop fuel v body).length ≤ body.length + fuel := by
  induction fuel generalizing v body with
  | zero => exact le_rfl
  | succ fuel ih =>
    unfold octetLoop
    split
    · omega
    · have hrest := ih (v / 256) (UInt8.ofNat (v % 256).toNat :: body)
      rw [List.length_cons] at hrest
      omega

theorem length_signedOctets_le (v : Int) : (signedOctets v).length ≤ v.natAbs + 1 := by
  have hoctets := length_octetLoop_le_fuel v.natAbs v []
  rw [List.length_nil, Nat.zero_add] at hoctets
  unfold signedOctets octets
  split
  · split <;> simp
  · rename_i b bs hbs
    rw [hbs, List.length_cons] at hoctets
    split
    · simp only [List.length_cons]
      omega
    · split <;> simp only [List.length_cons] <;> omega

/-! ### Base 128 -/

/-- `while n > 0: chunk.insert(0, (n & 0x7F) | 0x80); n >>= 7`. -/
def sevenLoop : Nat → Nat → Bytes → Bytes
  | 0, _, chunk => chunk
  | fuel + 1, n, chunk =>
    if n = 0 then chunk else sevenLoop fuel (n / 128) (UInt8.ofNat (n % 128 + 0x80) :: chunk)

def sevenBits (n : Nat) : Bytes := sevenLoop n (n / 128) [UInt8.ofNat (n % 128)]

/-- The numbers of a series in base 128; one that does not end is left out. -/
def ofSevenBits : Nat → Bytes → List Nat
  | _, [] => []
  | value, b :: bs =>
    if b.toNat < 0x80 then (value * 128 + b.toNat % 128) :: ofSevenBits 0 bs
    else ofSevenBits (value * 128 + b.toNat % 128) bs

theorem ofSevenBits_sevenLoop {fuel n : Nat} (hfuel : n ≤ fuel) (chunk : Bytes) :
    ofSevenBits 0 (sevenLoop fuel n chunk) = ofSevenBits n chunk := by
  induction fuel generalizing n chunk with
  | zero =>
    obtain rfl : n = 0 := by omega
    rfl
  | succ fuel ih =>
    unfold sevenLoop
    by_cases hn : n = 0
    · rw [if_pos hn, hn]
    · have hoctet : (UInt8.ofNat (n % 128 + 0x80)).toNat = n % 128 + 128 := by
        rw [UInt8.toNat_ofNat']
        omega
      have hvalue : n / 128 * 128 + (n % 128 + 128) % 128 = n := by omega
      rw [if_neg hn, ih (by omega)]
      simp only [ofSevenBits, hoctet]
      rw [if_neg (by omega), hvalue]

theorem sevenLoop_append (fuel n : Nat) (chunk rest : Bytes) :
    sevenLoop fuel n chunk ++ rest = sevenLoop fuel n (chunk ++ rest) := by
  induction fuel generalizing n chunk with
  | zero => rfl
  | succ fuel ih =>
    unfold sevenLoop
    split
    · rfl
    · exact ih _ _

theorem ofSevenBits_sevenBits (n : Nat) (rest : Bytes) :
    ofSevenBits 0 (sevenBits n ++ rest) = n :: ofSevenBits 0 rest := by
  have hoctet : (UInt8.ofNat (n % 128)).toNat = n % 128 := by
    rw [UInt8.toNat_ofNat']
    omega
  have hvalue : n / 128 * 128 + n % 128 % 128 = n := by omega
  unfold sevenBits
  rw [sevenLoop_append, ofSevenBits_sevenLoop (Nat.div_le_self n 128), List.singleton_append]
  simp only [ofSevenBits, hoctet]
  rw [if_pos (by omega), hvalue]

theorem ofSevenBits_flatMap (ns : List Nat) : ofSevenBits 0 (ns.flatMap sevenBits) = ns := by
  induction ns with
  | nil => rfl
  | cons n ns ih => rw [List.flatMap_cons, ofSevenBits_sevenBits, ih]

theorem length_sevenLoop_le (fuel n : Nat) (chunk : Bytes) :
    (sevenLoop fuel n chunk).length ≤ chunk.length + fuel := by
  induction fuel generalizing n chunk with
  | zero => exact le_rfl
  | succ fuel ih =>
    unfold sevenLoop
    split
    · omega
    · have hrest := ih (n / 128) (UInt8.ofNat (n % 128 + 0x80) :: chunk)
      rw [List.length_cons] at hrest
      omega

theorem length_sevenBits_le (n : Nat) : (sevenBits n).length ≤ n + 1 := by
  have hloop := length_sevenLoop_le n (n / 128) [UInt8.ofNat (n % 128)]
  rw [List.length_singleton] at hloop
  rw [sevenBits]
  omega

theorem length_ofSevenBits_le (value : Nat) (bs : Bytes) :
    (ofSevenBits value bs).length ≤ bs.length := by
  induction bs generalizing value with
  | nil => exact le_rfl
  | cons b bs ih =>
    rw [ofSevenBits]
    split
    · exact Nat.succ_le_succ (ih 0)
    · exact (ih _).trans (Nat.le_succ _)

theorem lt_of_mem_ofSevenBits {bs : Bytes} {value n : Nat} (h : n ∈ ofSevenBits value bs) :
    n < (value + 1) * 128 ^ bs.length := by
  induction bs generalizing value with
  | nil => cases h
  | cons b bs ih =>
    have hlow : b.toNat % 128 < 128 := Nat.mod_lt _ (by decide)
    have hpos : 1 ≤ 128 ^ bs.length := Nat.one_le_pow _ _ (by decide)
    rw [List.length_cons, Nat.pow_succ, Nat.mul_comm (128 ^ bs.length), ← Nat.mul_assoc]
    rw [ofSevenBits] at h
    split at h
    · rcases List.mem_cons.mp h with rfl | h
      · calc value * 128 + b.toNat % 128 < (value + 1) * 128 := by omega
          _ = (value + 1) * 128 * 1 := (Nat.mul_one _).symm
          _ ≤ (value + 1) * 128 * 128 ^ bs.length := Nat.mul_le_mul_left _ hpos
      · calc n < (0 + 1) * 128 ^ bs.length := ih h
          _ ≤ (value + 1) * 128 * 128 ^ bs.length := Nat.mul_le_mul_right _ (by omega)
    · calc n < (value * 128 + b.toNat % 128 + 1) * 128 ^ bs.length := ih h
        _ ≤ (value + 1) * 128 * 128 ^ bs.length := Nat.mul_le_mul_right _ (by omega)

end Srp.Lib.Octets
