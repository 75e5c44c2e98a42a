/-
  Srp/Lib/PyEncode.lean
  =====================
  **`str.encode`, and strict UTF-8.**

  UTF-8 text has at least as many octets as characters, and as many only if it is
  ASCII (`ascii_of_length_eq`).  Latin-1 gives every octet string back.
-/
import Srp.Lib.Lines
import Srp.Lib.Octets

namespace Srp.Lib.PyEncode

open Srp.Lib.Lines Srp.Lib.Octets

/-! ### UTF-8 -/

/-- `t.encode("utf-8")`. -/
def encodeUtf8 (t : Text) : Bytes := t.flatMap String.utf8EncodeChar

theorem fromUTF8?_encodeUtf8 (t : Text) :
    String.fromUTF8? ⟨(encodeUtf8 t).toArray⟩ = some (String.ofList t) := by
  have hbytes : (⟨(encodeUtf8 t).toArray⟩ : ByteArray) = t.utf8Encode := by
    rw [List.utf8Encode]
    ext1
    simp [encodeUtf8]
  unfold String.fromUTF8?
  rw [hbytes, dif_pos ByteArray.isValidUTF8_utf8Encode]
  rfl

theorem encodeUtf8_of_fromUTF8? {body : Bytes} {s : String}
    (h : String.fromUTF8? ⟨body.toArray⟩ = some s) : encodeUtf8 s.toList = body := by
  unfold String.fromUTF8? at h
  by_cases hvalid : ByteArray.IsValidUTF8 ⟨body.toArray⟩
  · rw [dif_pos hvalid] at h
    have hbytes : s.toByteArray = ⟨body.toArray⟩ := by
      rw [← Option.some.inj h]
      rfl
    rw [← String.utf8Encode_toList, List.utf8Encode] at hbytes
    have hlist := congrArg (fun b : ByteArray => b.data.toList) hbytes
    simpa [encodeUtf8] using hlist
  · rw [dif_neg hvalid] at h
    cases h

/-- An ASCII character is its own octet in UTF-8; no other character has just one. -/
theorem length_utf8EncodeChar (c : Char) :
    1 ≤ (String.utf8EncodeChar c).length ∧
      ((String.utf8EncodeChar c).length = 1 ↔ c.toNat < 0x80) := by
  rw [String.length_utf8EncodeChar, Char.utf8Size_eq_one_iff]
  refine ⟨c.utf8Size_pos, ?_⟩
  rw [UInt32.le_iff_toNat_le]
  exact Nat.lt_succ_iff.symm

theorem utf8EncodeChar_ascii {c : Char} (h : c.toNat < 0x80) :
    String.utf8EncodeChar c = [UInt8.ofNat c.toNat] := by
  have hsize : c.utf8Size = 1 := by
    rw [← String.length_utf8EncodeChar]
    exact (length_utf8EncodeChar c).2.mpr h
  rw [String.utf8EncodeChar_eq_singleton hsize]
  rfl

theorem length_le_encodeUtf8 (t : Text) : t.length ≤ (encodeUtf8 t).length := by
  induction t with
  | nil => exact le_rfl
  | cons c t ih =>
    have hc := (length_utf8EncodeChar c).1
    rw [encodeUtf8, List.flatMap_cons, List.length_append, List.length_cons, ← encodeUtf8]
    omega

/-- Text with as many octets as characters is ASCII. -/
theorem ascii_of_length_eq {t : Text} (h : (encodeUtf8 t).length = t.length) :
    ∀ c ∈ t, c.toNat < 0x80 := by
  induction t with
  | nil => exact fun c hc => by cases hc
  | cons c t ih =>
    have hc := length_utf8EncodeChar c
    have ht := length_le_encodeUtf8 t
    rw [encodeUtf8, List.flatMap_cons, List.length_append, List.length_cons, ← encodeUtf8] at h
    rw [List.forall_mem_cons]
    exact ⟨hc.2.mp (by omega), ih (by omega)⟩

theorem encodeUtf8_ascii {t : Text} (h : ∀ c ∈ t, c.toNat < 0x80) :
    encodeUtf8 t = t.map fun c => UInt8.ofNat c.toNat := by
  induction t with
  | nil => rfl
  | cons c t ih =>
    rw [List.forall_mem_cons] at h
    rw [encodeUtf8, List.flatMap_cons, utf8EncodeChar_ascii h.1, ← encodeUtf8, ih h.2]
    rfl

/-! ### Latin-1 -/

/-- `t.encode("latin-1")`, `none` where it raises. -/
def encodeLatin1 (t : Text) : Option Bytes :=
  t.mapM fun c => if c.toNat ≤ 0xFF then some (UInt8.ofNat c.toNat) else none

theorem encodeLatin1_cons (c : Char) (t : Text) : encodeLatin1 (c :: t) =
    if c.toNat ≤ 0xFF then (encodeLatin1 t).map (UInt8.ofNat c.toNat :: ·) else none := by
  rw [encodeLatin1, List.mapM_cons, ← encodeLatin1]
  by_cases hc : c.toNat ≤ 0xFF
  · rw [if_pos hc, if_pos hc]
    cases encodeLatin1 t <;> rfl
  · rw [if_neg hc, if_neg hc]
    rfl

theorem encodeLatin1_of_le {t : Text} (h : ∀ c ∈ t, c.toNat ≤ 0xFF) :
    encodeLatin1 t = some (t.map fun c => UInt8.ofNat c.toNat) := by
  induction t with
  | nil => rfl
  | cons c t ih =>
    rw [List.forall_mem_cons] at h
    rw [encodeLatin1_cons, if_pos h.1, ih h.2]
    rfl

theorem encodeLatin1_of_not_le {t : Text} (h : ¬ ∀ c ∈ t, c.toNat ≤ 0xFF) :
    encodeLatin1 t = none := by
  induction t with
  | nil => exact absurd (fun c hc => by cases hc) h
  | cons c t ih =>
    rw [encodeLatin1_cons]
    by_cases hc : c.toNat ≤ 0xFF
    · have ht : ¬ ∀ c ∈ t, c.toNat ≤ 0xFF := by
        intro ht
        rw [List.forall_mem_cons] at h
        exact h ⟨hc, ht⟩
      rw [if_pos hc, ih ht]
      rfl
    · exact if_neg hc

theorem encodeLatin1_octets (body : Bytes) :
    encodeLatin1 (body.map fun b => Char.ofNat b.toNat) = some body := by
  have htoNat : ∀ b : UInt8, (Char.ofNat b.toNat).toNat = b.toNat := by
    intro b
    have hb := b.toNat_lt
    have hvalid : b.toNat.isValidChar := Or.inl (by omega)
    rw [Char.ofNat, dif_pos hvalid]
    rfl
  rw [encodeLatin1_of_le]
  · rw [List.map_map]
    refine congrArg some ((List.map_congr_left fun b _ => ?_).trans (List.map_id body))
    simp [htoNat]
  · intro c hc
    obtain ⟨b, _, rfl⟩ := List.mem_map.mp hc
    have hb := b.toNat_lt
    rw [htoNat]
    omega

end Srp.Lib.PyEncode
