/-
  Srp/Printers/Ber.lean
  =====================
  **The BER codec of the SNMP poller** (`server/printers/ber.py`).

  A position in a buffer is the list of the octets from there on; an exception
  is `none`.  What the decoders accept is compared with the definite forms of
  the encoding rules (`IsTlv`, `IsItems`), in which lengths may be short or long
  and long ones may carry leading zeros.
-/
import Srp.Lib.Dotted
import Srp.Lib.Lines
import Srp.Lib.Octets
import Srp.Lib.PyInt

namespace Srp.Printers

open Srp.Lib Srp.Lib.Lines Srp.Lib.Octets Srp.Lib.PyInt

/-! ### The encoders -/

/-- `_MAX_OID_BYTES`. -/
def maxOidBytes : Nat := 128

/-- One element of `bytes([...])`. -/
def byteOf (v : Int) : Option UInt8 :=
  if 0 ≤ v ∧ v < 256 then some (UInt8.ofNat v.toNat) else none

/-- `encode_length`. -/
def encodeLength (n : Nat) : Option Bytes :=
  if n < 0x80 then some [UInt8.ofNat n]
  else do
    let first ← byteOf (0x80 ||| (octets n).length : Nat)
    return first :: octets n

/-- `encode_tlv`. -/
def encodeTlv (tag : UInt8) (body : Bytes) : Option Bytes := do
  let length ← encodeLength body.length
  return tag :: (length ++ body)

/-- `encode_integer`. -/
def encodeInteger (value : Int) : Option Bytes := encodeTlv 0x02 (signedOctets value)

/-- `encode_octet_string`. -/
def encodeOctetString (value : Bytes) : Option Bytes := encodeTlv 0x04 value

/-- `encode_null`. -/
def encodeNull : Option Bytes := encodeTlv 0x05 []

/-- The octets of one arc behind the first two; below 128 it is its own octet. -/
def arcOctets (arc : Int) : Option Bytes :=
  if arc < 0 then none else some (sevenBits arc.toNat)

variable (C : PyChars)

/-- `encode_oid`. -/
def encodeOid (oid : Text) : Option Bytes := do
  let arcs ← (oid.splitOn '.').mapM (pyInt C)
  match arcs with
  | a :: b :: rest => do
    let first ← byteOf (40 * a + b)
    let body ← rest.mapM arcOctets
    encodeTlv 0x06 (first :: body.flatten)
  | _ => none

/-! ### The decoders -/

/-- `decode_length`, with the octets behind it. -/
def decodeLength : Bytes → Option (Nat × Bytes)
  | [] => none
  | first :: rest =>
    if first.toNat < 0x80 then some (first.toNat, rest)
    else
      let num := first.toNat % 128
      if rest.length < num then none else some (ofOctets (rest.take num), rest.drop num)

/-- `decode_tlv`, with the octets behind it. -/
def decodeTlv : Bytes → Option (UInt8 × Bytes × Bytes)
  | [] => none
  | tag :: rest =>
    match decodeLength rest with
    | none => none
    | some (length, rest) =>
      if rest.length < length then none else some (tag, rest.take length, rest.drop length)

/-- The loop of `decode_sequence`. -/
def decodeItems : Nat → Bytes → Option (List (UInt8 × Bytes))
  | _, [] => some []
  | 0, _ :: _ => none
  | fuel + 1, b :: body =>
    match decodeTlv (b :: body) with
    | none => none
    | some (tag, value, rest) => (decodeItems fuel rest).map fun items => (tag, value) :: items

/-- `decode_sequence`: an item takes an octet at least. -/
def decodeSequence (body : Bytes) : Option (List (UInt8 × Bytes)) := decodeItems body.length body

/-- `decode_oid`. -/
def decodeOid (body : Bytes) : Text :=
  match body with
  | [] => []
  | first :: rest =>
    if maxOidBytes < body.length then []
    else dotted (first.toNat / 40 :: first.toNat % 40 :: ofSevenBits 0 rest)

/-! ### The encoding rules -/

/-- The definite forms of a length. -/
def IsLength (n : Nat) (header : Bytes) : Prop :=
  (n < 0x80 ∧ header = [UInt8.ofNat n]) ∨
    ∃ digits : Bytes, digits.length < 0x80 ∧ ofOctets digits = n ∧
      header = UInt8.ofNat (0x80 + digits.length) :: digits

def IsTlv (tag : UInt8) (body bytes : Bytes) : Prop :=
  ∃ header, IsLength body.length header ∧ bytes = tag :: (header ++ body)

/-- One item behind the other. -/
inductive IsItems : List (UInt8 × Bytes) → Bytes → Prop
  | nil : IsItems [] []
  | cons {tag : UInt8} {body bytes rest : Bytes} {items : List (UInt8 × Bytes)}
      (first : IsTlv tag body bytes) (others : IsItems items rest) :
      IsItems ((tag, body) :: items) (bytes ++ rest)

theorem IsTlv.items {tag : UInt8} {body bytes : Bytes} (h : IsTlv tag body bytes) :
    IsItems [(tag, body)] bytes := by
  have hone := IsItems.cons h IsItems.nil
  rwa [List.append_nil] at hone

theorem IsItems.append {xs ys : List (UInt8 × Bytes)} {as bs : Bytes} (hxs : IsItems xs as)
    (hys : IsItems ys bs) : IsItems (xs ++ ys) (as ++ bs) := by
  induction hxs with
  | nil => exact hys
  | cons first _ ih =>
    rw [List.cons_append, List.append_assoc]
    exact IsItems.cons first ih

/-! ### The encoders follow the rules -/

/-- The longest body whose length has at most 127 octets. -/
def maxLength : Nat := 256 ^ 127

theorem or_0x80 {k : Nat} (h : k < 0x80) : 0x80 ||| k = 0x80 + k :=
  (Nat.two_pow_add_eq_or_of_lt (i := 7) h 1).symm

theorem isLength_of_encodeLength {n : Nat} {header : Bytes} (hn : n < maxLength)
    (h : encodeLength n = some header) : IsLength n header := by
  unfold encodeLength at h
  split at h
  · rename_i hshort
    cases h
    exact Or.inl ⟨hshort, rfl⟩
  · right
    have hk : (octets n).length < 0x80 := by
      have hle := length_octets_le hn
      omega
    have hbyte : byteOf ((0x80 ||| (octets n).length : Nat) : Int) =
        some (UInt8.ofNat (0x80 + (octets n).length)) := by
      unfold byteOf
      rw [or_0x80 hk, if_pos (by omega)]
      rfl
    rw [hbyte] at h
    cases h
    exact ⟨octets n, hk, ofOctets_octets n, rfl⟩

theorem length_of_encodeTlv {tag : UInt8} {body bytes : Bytes}
    (h : encodeTlv tag body = some bytes) : body.length < bytes.length := by
  unfold encodeTlv at h
  obtain ⟨header, _, hbytes⟩ := Option.bind_eq_some_iff.mp h
  cases hbytes
  simp only [List.length_cons, List.length_append]
  omega

theorem byteOf_lt {n : Nat} (h : n < 256) : byteOf (n : Int) = some (UInt8.ofNat n) := by
  rw [byteOf, if_pos (by omega)]
  rfl

/-- The encoder writes every body whose length it can write. -/
theorem encodeTlv_of_lt (tag : UInt8) {body : Bytes} (hlen : body.length < maxLength) :
    ∃ bytes, encodeTlv tag body = some bytes ∧ bytes.length ≤ body.length + 129 := by
  obtain ⟨header, hheader, hle⟩ : ∃ header, encodeLength body.length = some header ∧
      header.length ≤ 128 := by
    have hdigits := length_octets_le hlen
    unfold encodeLength
    split
    · exact ⟨_, rfl, by simp⟩
    · rw [or_0x80 (by omega), byteOf_lt (by omega)]
      exact ⟨_, rfl, by simp only [List.length_cons]; omega⟩
  refine ⟨tag :: (header ++ body), ?_, ?_⟩
  · rw [encodeTlv, hheader]
    rfl
  · simp only [List.length_cons, List.length_append]
    omega

theorem isTlv_of_encodeTlv {tag : UInt8} {body bytes : Bytes} (hlen : body.length < maxLength)
    (h : encodeTlv tag body = some bytes) : IsTlv tag body bytes := by
  unfold encodeTlv at h
  obtain ⟨header, hheader, hbytes⟩ := Option.bind_eq_some_iff.mp h
  cases hbytes
  exact ⟨header, isLength_of_encodeLength hlen hheader, rfl⟩

/-! ### The decoders read them -/

theorem decodeLength_of_isLength {n : Nat} {header : Bytes} (h : IsLength n header)
    (rest : Bytes) : decodeLength (header ++ rest) = some (n, rest) := by
  rcases h with ⟨hshort, rfl⟩ | ⟨digits, hlen, hvalue, rfl⟩
  · have hoctet : (UInt8.ofNat n).toNat = n := by
      rw [UInt8.toNat_ofNat']
      omega
    simp only [List.singleton_append, decodeLength, hoctet]
    rw [if_pos hshort]
  · have hoctet : (UInt8.ofNat (0x80 + digits.length)).toNat = 128 + digits.length := by
      rw [UInt8.toNat_ofNat']
      omega
    have hnum : (128 + digits.length) % 128 = digits.length := by omega
    simp only [List.cons_append, decodeLength, hoctet, hnum]
    rw [if_neg (by omega), if_neg (by simp), List.take_left' rfl, List.drop_left' rfl, hvalue]

theorem decodeTlv_of_isTlv {tag : UInt8} {body bytes : Bytes} (h : IsTlv tag body bytes)
    (rest : Bytes) : decodeTlv (bytes ++ rest) = some (tag, body, rest) := by
  obtain ⟨header, hheader, rfl⟩ := h
  rw [List.cons_append, List.append_assoc]
  simp only [decodeTlv, decodeLength_of_isLength hheader]
  rw [if_neg (by simp), List.take_left' rfl, List.drop_left' rfl]

theorem decodeItems_of_isItems {items : List (UInt8 × Bytes)} {bytes : Bytes}
    (h : IsItems items bytes) {fuel : Nat} (hfuel : bytes.length ≤ fuel) :
    decodeItems fuel bytes = some items := by
  induction h generalizing fuel with
  | nil => cases fuel <;> rfl
  | @cons tag body bytes rest items first others ih =>
    have hread := decodeTlv_of_isTlv first rest
    obtain ⟨header, hheader, rfl⟩ := first
    cases fuel with
    | zero =>
      simp only [List.length_append, List.length_cons] at hfuel
      omega
    | succ fuel =>
      rw [List.cons_append] at hread hfuel ⊢
      simp only [decodeItems, hread]
      rw [ih]
      · rfl
      · simp only [List.length_append, List.length_cons] at hfuel
        omega

theorem decodeSequence_of_isItems {items : List (UInt8 × Bytes)} {bytes : Bytes}
    (h : IsItems items bytes) : decodeSequence bytes = some items :=
  decodeItems_of_isItems h le_rfl

/-! ### Truncation -/

theorem length_lt_of_cut {α : Type} {cut full : List α} (hcut : cut <+: full)
    (hne : cut ≠ full) : cut.length < full.length :=
  lt_of_le_of_ne hcut.length_le fun hlen => hne (hcut.eq_of_length hlen)

/-- A length that is cut off is not read. -/
theorem decodeLength_of_cut {n : Nat} {header cut : Bytes} (h : IsLength n header)
    (hcut : cut <+: header) (hne : cut ≠ header) : decodeLength cut = none := by
  have hlt := length_lt_of_cut hcut hne
  cases cut with
  | nil => rfl
  | cons first cut =>
    rcases h with ⟨_, rfl⟩ | ⟨digits, hlen, _, rfl⟩
    · simp at hlt
    · obtain ⟨rfl, hdigits⟩ := List.cons_prefix_cons.mp hcut
      have hoctet : (UInt8.ofNat (0x80 + digits.length)).toNat = 128 + digits.length := by
        rw [UInt8.toNat_ofNat']
        omega
      have hnum : (128 + digits.length) % 128 = digits.length := by omega
      simp only [decodeLength, hoctet, hnum]
      rw [if_neg (by omega), if_pos (by simpa using hlt)]

/-- **Of a value that is cut off nothing is read.** -/
theorem decodeTlv_of_cut {tag : UInt8} {body bytes cut : Bytes} (h : IsTlv tag body bytes)
    (hcut : cut <+: bytes) (hne : cut ≠ bytes) : decodeTlv cut = none := by
  have hlt := length_lt_of_cut hcut hne
  obtain ⟨header, hheader, rfl⟩ := h
  cases cut with
  | nil => rfl
  | cons first cut =>
    obtain ⟨rfl, hbehind⟩ := List.cons_prefix_cons.mp hcut
    by_cases hwhole : header <+: cut
    · obtain ⟨rest, rfl⟩ := hwhole
      simp only [decodeTlv, decodeLength_of_isLength hheader]
      rw [if_pos]
      simpa using hlt
    · have hshort : cut <+: header :=
        (List.prefix_or_prefix_of_prefix hbehind (List.prefix_append header body)).resolve_right
          hwhole
      have hnone := decodeLength_of_cut hheader hshort fun heq =>
        hwhole (heq ▸ List.prefix_rfl)
      simp only [decodeTlv, hnone]

/-! ### Object identifiers -/

/-- The octets of an identifier, its first two arcs in one. -/
def oidBody : List Nat → Bytes
  | a :: b :: rest => UInt8.ofNat (40 * a + b) :: rest.flatMap sevenBits
  | _ => []

/-- The identifiers whose first two arcs fit one octet and come apart again. -/
def Written : List Nat → Prop
  | a :: b :: _ => a ≤ 2 ∧ b < 40
  | _ => False

instance Written.decidable : ∀ arcs, Decidable (Written arcs)
  | a :: b :: _ => inferInstanceAs (Decidable (a ≤ 2 ∧ b < 40))
  | [] => inferInstanceAs (Decidable False)
  | [_] => inferInstanceAs (Decidable False)

/-- The identifiers that are not too long for the decoder. -/
def Carried (arcs : List Nat) : Prop := (oidBody arcs).length ≤ maxOidBytes

instance Carried.decidable (arcs : List Nat) : Decidable (Carried arcs) :=
  inferInstanceAs (Decidable ((oidBody arcs).length ≤ maxOidBytes))

theorem Written.ne_nil {arcs : List Nat} (h : Written arcs) : arcs ≠ [] := by
  rintro rfl
  exact h

theorem decodeOid_oidBody {arcs : List Nat} (h : Written arcs) :
    decodeOid (oidBody arcs) = if Carried arcs then dotted arcs else [] := by
  match arcs, h with
  | a :: b :: rest, ⟨ha, hb⟩ =>
    have hoctet : (UInt8.ofNat (40 * a + b)).toNat = 40 * a + b := by
      rw [UInt8.toNat_ofNat']
      omega
    have hdiv : (40 * a + b) / 40 = a := by omega
    have hmod : (40 * a + b) % 40 = b := by omega
    simp only [oidBody, decodeOid, hoctet, hdiv, hmod, ofSevenBits_flatMap]
    by_cases hcarried : Carried (a :: b :: rest)
    · rw [if_pos hcarried]
      exact if_neg (not_lt.mpr hcarried)
    · rw [if_neg hcarried]
      exact if_pos (not_le.mp hcarried)

theorem mapM_pyInt {C : PyChars} (hC : C.ReadsDigits) {arcs : List Nat} {values : List Int}
    (h : (arcs.map (Nat.toDigits 10)).mapM (pyInt C) = some values) :
    values = arcs.map fun n : Nat => (n : Int) := by
  induction arcs generalizing values with
  | nil =>
    cases h
    rfl
  | cons n arcs ih =>
    rw [List.map_cons, List.mapM_cons, pyInt_toDigits hC] at h
    obtain ⟨v, hv, h⟩ := Option.bind_eq_some_iff.mp h
    obtain ⟨vs, hvs, h⟩ := Option.bind_eq_some_iff.mp h
    cases h
    split at hv
    · cases hv
    · cases hv
      rw [ih hvs, List.map_cons]

theorem mapM_arcOctets (arcs : List Nat) :
    (arcs.map fun n : Nat => (n : Int)).mapM arcOctets = some (arcs.map sevenBits) := by
  induction arcs with
  | nil => rfl
  | cons n arcs ih =>
    have hone : arcOctets n = some (sevenBits n) := by
      unfold arcOctets
      rw [if_neg (by omega)]
      rfl
    rw [List.map_cons, List.mapM_cons, hone, ih]
    rfl

/-- The encoder writes the octets of the identifier that the text names. -/
theorem encodeOid_dotted {C : PyChars} (hC : C.ReadsDigits) {arcs : List Nat}
    (harcs : Written arcs) {bytes : Bytes} (h : encodeOid C (dotted arcs) = some bytes) :
    encodeTlv 0x06 (oidBody arcs) = some bytes := by
  unfold encodeOid at h
  rw [splitOn_dotted harcs.ne_nil] at h
  obtain ⟨values, hvalues, h⟩ := Option.bind_eq_some_iff.mp h
  obtain rfl := mapM_pyInt hC hvalues
  cases arcs with
  | nil => exact absurd rfl harcs.ne_nil
  | cons a arcs =>
    cases arcs with
    | nil => exact harcs.elim
    | cons b rest =>
      simp only [List.map_cons] at h
      obtain ⟨first, hfirst, h⟩ := Option.bind_eq_some_iff.mp h
      obtain ⟨body, hbody, h⟩ := Option.bind_eq_some_iff.mp h
      rw [mapM_arcOctets] at hbody
      cases hbody
      unfold byteOf at hfirst
      split at hfirst
      · cases hfirst
        exact h
      · cases hfirst

end Srp.Printers
