/-
  Srp/Printers/WalkAgent.lean
  ===========================
  **An agent that answers as the walk expects.**

  `Mib.answer` reads the name in a request and writes the rows of its answer by
  the encoding rules.  It conforms where the values of the rows fit a datagram
  (`conforming_answer`), so every such agent can be walked.
-/
import Srp.Printers.WalkRows

namespace Srp.Printers

open Srp.Lib Srp.Lib.Lines Srp.Lib.Octets Srp.Lib.PyInt

/-! ### Writing a message -/

def tlv (tag : UInt8) (body : Bytes) : Bytes := (encodeTlv tag body).getD []

def tlvVarbind (vb : Varbind) : Bytes :=
  tlv sequenceTag (tlv 0x06 (oidBody vb.name) ++ tlv vb.valueTag vb.value)

/-- A response of version 2c to the community `public`. -/
def response (requestId : Int) (vbs : List Varbind) : Bytes :=
  tlv sequenceTag (tlv 0x02 [1] ++ tlv 0x04 "public".toUTF8.data.toList ++
    tlv getResponseTag (tlv 0x02 (signedOctets requestId) ++ tlv 0x02 [0] ++ tlv 0x02 [0] ++
      tlv sequenceTag (vbs.flatMap tlvVarbind)))

/-- The name in a request. -/
def nameOf (oid : Text) : List Nat :=
  (oid.splitOn '.').map fun digits => Nat.ofDigitChars 10 digits 0

/-- The agent with the rows of `mib`. -/
def Mib.answer (mib : Mib) (repetitions : List Nat → Nat → Nat) : Agent := fun _ _ pkt =>
  let name := nameOf pkt.oid
  some (response pkt.requestId
    (if pkt.pduType = getBulkTag then mib.getBulk name (repetitions name pkt.maxRepetitions)
    else mib.getNext name))

theorem nameOf_dotted {name : List Nat} (h : name ≠ []) : nameOf (dotted name) = name := by
  rw [nameOf, splitOn_dotted h, List.map_map]
  conv_rhs => rw [← List.map_id name]
  apply List.map_congr_left
  intro n _
  exact Nat.ofDigitChars_ten_toDigits

/-! ### Lengths -/

theorem tlv_spec (tag : UInt8) {body : Bytes} (hlen : body.length < maxLength) :
    IsTlv tag body (tlv tag body) ∧ (tlv tag body).length ≤ body.length + 129 := by
  obtain ⟨bytes, hbytes, hle⟩ := encodeTlv_of_lt tag hlen
  rw [tlv, hbytes, Option.getD_some]
  exact ⟨isTlv_of_encodeTlv hlen hbytes, hle⟩

theorem length_oidBody_le {name : List Nat} (h : IsOid name) : (oidBody name).length ≤ 2 ^ 40 := by
  have hflat : ∀ arcs : List Nat, (∀ n ∈ arcs, n < 2 ^ 32) →
      (arcs.flatMap sevenBits).length ≤ arcs.length * (2 ^ 32 + 1) := by
    intro arcs harcs
    induction arcs with
    | nil => simp
    | cons n arcs ih =>
      have hone := length_sevenBits_le n
      have hn := harcs n List.mem_cons_self
      have hrest := ih fun m hm => harcs m (List.mem_cons_of_mem n hm)
      rw [List.flatMap_cons, List.length_append, List.length_cons]
      omega
  obtain ⟨hwritten, hlength, hnumbers⟩ := h
  match name, hwritten with
  | a :: b :: rest, _ =>
    have hrest := hflat rest fun n hn => hnumbers n (by simp [hn])
    rw [oidBody, List.length_cons]
    rw [List.length_cons, List.length_cons] at hlength
    have hmul : rest.length * (2 ^ 32 + 1) ≤ 126 * (2 ^ 32 + 1) := Nat.mul_le_mul_right _ (by omega)
    omega

theorem lt_maxLength {n : Nat} (h : n < 2 ^ 64) : n < maxLength := by
  have hpow : (2 : Nat) ^ 64 ≤ maxLength := by
    calc (2 : Nat) ^ 64 = 256 ^ 8 := by decide
      _ ≤ maxLength := Nat.pow_le_pow_right (by decide) (by decide)
  exact h.trans_le hpow

/-! ### The answers follow the rules -/

/-- A binding that fits a datagram. -/
structure Fits (vb : Varbind) : Prop where
  oid : IsOid vb.name
  value : vb.value.length < 2 ^ 16

theorem isVarbind_tlvVarbind {vb : Varbind} (h : Fits vb) :
    IsVarbind vb (tlvVarbind vb) ∧ (tlvVarbind vb).length ≤ 2 ^ 41 := by
  have hbody := length_oidBody_le h.oid
  have hvalue := h.value
  obtain ⟨hname, hnameLen⟩ := tlv_spec 0x06
    (lt_maxLength (show (oidBody vb.name).length < 2 ^ 64 by omega))
  obtain ⟨hval, hvalLen⟩ := tlv_spec vb.valueTag
    (lt_maxLength (show vb.value.length < 2 ^ 64 by omega))
  have hboth : (tlv 0x06 (oidBody vb.name) ++ tlv vb.valueTag vb.value).length < 2 ^ 64 := by
    rw [List.length_append]
    omega
  obtain ⟨hwhole, hwholeLen⟩ := tlv_spec sequenceTag (lt_maxLength hboth)
  refine ⟨⟨_, hname.items.append hval.items, hwhole⟩, ?_⟩
  rw [List.length_append] at hwholeLen
  exact hwholeLen.trans (by omega)

theorem areVarbinds_flatMap {vbs : List Varbind} (h : ∀ vb ∈ vbs, Fits vb) :
    AreVarbinds vbs (vbs.flatMap tlvVarbind) ∧
      (vbs.flatMap tlvVarbind).length ≤ vbs.length * 2 ^ 41 := by
  induction vbs with
  | nil => exact ⟨AreVarbinds.nil, by simp⟩
  | cons vb vbs ih =>
    obtain ⟨hone, honeLen⟩ := isVarbind_tlvVarbind (h vb List.mem_cons_self)
    obtain ⟨hrest, hrestLen⟩ := ih fun vb' hvb' => h vb' (List.mem_cons_of_mem vb hvb')
    rw [List.flatMap_cons]
    refine ⟨AreVarbinds.cons hone hrest, ?_⟩
    rw [List.length_append, List.length_cons]
    omega

theorem isMessage_response (requestId : RequestId) {vbs : List Varbind} (h : ∀ vb ∈ vbs, Fits vb)
    (hlen : vbs.length < 2 ^ 16) :
    IsMessage getResponseTag requestId vbs (response requestId vbs) := by
  have hid := length_signedOctets_le requestId
  have hrange := requestId.2
  obtain ⟨hvbs, hvbsLen⟩ := areVarbinds_flatMap h
  have hcommunity : ("public".toUTF8.data.toList).length = 6 := by decide
  obtain ⟨hidTlv, hidLen⟩ := tlv_spec 0x02
    (lt_maxLength (show (signedOctets requestId).length < 2 ^ 64 by omega))
  obtain ⟨hzeroTlv, hzeroLen⟩ := tlv_spec 0x02
    (lt_maxLength (show ([0] : Bytes).length < 2 ^ 64 by simp))
  obtain ⟨honeTlv, honeLen⟩ := tlv_spec 0x02
    (lt_maxLength (show ([1] : Bytes).length < 2 ^ 64 by simp))
  obtain ⟨hnameTlv, hnameLen⟩ := tlv_spec 0x04
    (lt_maxLength (show ("public".toUTF8.data.toList).length < 2 ^ 64 by omega))
  obtain ⟨hvbsTlv, hvbsTlvLen⟩ := tlv_spec sequenceTag
    (lt_maxLength (show (vbs.flatMap tlvVarbind).length < 2 ^ 64 by omega))
  rw [List.length_singleton] at hzeroLen honeLen
  have hpduLen : (tlv 0x02 (signedOctets requestId) ++ tlv 0x02 [0] ++ tlv 0x02 [0] ++
      tlv sequenceTag (vbs.flatMap tlvVarbind)).length < 2 ^ 60 := by
    simp only [List.length_append]
    omega
  obtain ⟨hpduTlv, hpduTlvLen⟩ := tlv_spec getResponseTag
    (lt_maxLength (hpduLen.trans (by decide)))
  have hbodyLen : (tlv 0x02 [1] ++ tlv 0x04 "public".toUTF8.data.toList ++
      tlv getResponseTag (tlv 0x02 (signedOctets requestId) ++ tlv 0x02 [0] ++ tlv 0x02 [0] ++
        tlv sequenceTag (vbs.flatMap tlvVarbind))).length < 2 ^ 64 := by
    rw [List.length_append, List.length_append]
    omega
  obtain ⟨hwhole, _⟩ := tlv_spec sequenceTag (lt_maxLength hbodyLen)
  exact ⟨_, _, _, _, _, _, _, _, ofOctetsSigned_signedOctets requestId, hvbs,
    ((hidTlv.items.append hzeroTlv.items).append hzeroTlv.items).append hvbsTlv.items,
    (honeTlv.items.append hnameTlv.items).append hpduTlv.items, hwhole⟩

theorem fits_endOfMibView {name : List Nat} (h : IsOid name) : Fits (endOfMibView name) :=
  ⟨h, Nat.two_pow_pos 16⟩

theorem isOid_lastName {mib : Mib} {name : List Nat} (h : IsOid name) {rows : List Varbind}
    (hrows : ∀ r ∈ rows, r ∈ mib.rows) : IsOid (lastName name rows) := by
  rcases List.eq_nil_or_concat' rows with rfl | ⟨init, last, rfl⟩
  · exact h
  · rw [lastName_append]
    exact mib.oids last (hrows last (by simp))

/-- **Every agent whose values fit a datagram has conforming answers.** -/
theorem conforming_answer {mib : Mib} (hvalues : ∀ r ∈ mib.rows, r.value.length < 2 ^ 16)
    {repetitions : List Nat → Nat → Nat} (hmost : ∀ name n, repetitions name n ≤ n)
    (hfit : ∀ name n, repetitions name n < 2 ^ 16) :
    Conforming mib repetitions (mib.answer repetitions) := by
  have hafter : ∀ name, ∀ r ∈ mib.after name, r ∈ mib.rows :=
    fun name r hr => (List.mem_filter.mp hr).1
  have hrow : ∀ r ∈ mib.rows, Fits r := fun r hr => ⟨mib.oids r hr, hvalues r hr⟩
  refine ⟨?_, ?_, hmost⟩
  · intro _ _ name requestId hname
    refine ⟨response requestId (mib.getNext name), ?_, ?_⟩
    · have htag : getNextTag ≠ getBulkTag := by decide
      simp only [Mib.answer, nameOf_dotted hname.written.ne_nil, if_neg htag]
    · apply isMessage_response
      · intro vb hvb
        rw [Mib.getNext] at hvb
        split at hvb
        · rw [List.mem_singleton.mp hvb]
          exact fits_endOfMibView hname
        · rename_i r rest hrest
          rw [List.mem_singleton.mp hvb]
          exact hrow r (hafter name r (by rw [hrest]; exact List.mem_cons_self))
      · rw [Mib.getNext]
        split <;> simp
  · intro _ _ name requestId n hname
    refine ⟨response requestId (mib.getBulk name (repetitions name n)), ?_, ?_⟩
    · simp only [Mib.answer, nameOf_dotted hname.written.ne_nil, if_true]
    · apply isMessage_response
      · intro vb hvb
        rcases List.mem_append.mp (List.mem_of_mem_take hvb) with hold | hfiller
        · exact hrow vb (hafter name vb hold)
        · rw [List.eq_of_mem_replicate hfiller]
          exact fits_endOfMibView (isOid_lastName hname (hafter name))
      · exact (List.length_take_le _ _).trans_lt (hfit name n)

end Srp.Printers
