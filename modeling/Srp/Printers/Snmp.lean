/-
  Srp/Printers/Snmp.lean
  ======================
  **SNMP messages** (`build_request` and `_parse_message` in
  `server/printers/snmp.py`).

  The parser reads every message that follows the encoding rules (`IsMessage`),
  whichever form its lengths have, and `build_request` writes such messages.  A
  message that is cut off has no bindings.
-/
import Srp.Lib.Table
import Srp.Printers.Ber

namespace Srp.Printers

open Srp.Lib Srp.Lib.Lines Srp.Lib.Octets Srp.Lib.PyInt

/-! ### `build_request` -/

/-- `GET`. -/
def getTag : UInt8 := 0xA0
/-- `GETNEXT`. -/
def getNextTag : UInt8 := 0xA1
/-- `GETRESPONSE`. -/
def getResponseTag : UInt8 := 0xA2
/-- `GETBULK`. -/
def getBulkTag : UInt8 := 0xA5
/-- `_SEQUENCE`. -/
def sequenceTag : UInt8 := 0x30

def pduTags : List UInt8 := [getTag, getNextTag, getResponseTag, getBulkTag]

variable (C : PyChars)

/-- A binding of the identifier to null. -/
def encodeVarbind (oid : Text) : Option Bytes := do
  let name ← encodeOid C oid
  let value ← encodeNull
  encodeTlv sequenceTag (name ++ value)

/-- The two integers between the request id and the bindings. -/
def pduParameters (pduType : UInt8) (nonRepeaters maxRepetitions : Int) : Int × Int :=
  if pduType = getBulkTag then (nonRepeaters, maxRepetitions) else (0, 0)

/-- `build_request`. -/
def buildRequest (pduType : UInt8) (oids : List Text) (community : String)
    (version requestId nonRepeaters maxRepetitions : Int) : Option Bytes := do
  let varbinds ← oids.mapM (encodeVarbind C)
  let vbSeq ← encodeTlv sequenceTag varbinds.flatten
  let parameters := pduParameters pduType nonRepeaters maxRepetitions
  let id ← encodeInteger requestId
  let first ← encodeInteger parameters.1
  let second ← encodeInteger parameters.2
  let pdu ← encodeTlv pduType (id ++ first ++ second ++ vbSeq)
  let versionBytes ← encodeInteger version
  let communityBytes ← encodeOctetString community.toUTF8.data.toList
  encodeTlv sequenceTag (versionBytes ++ communityBytes ++ pdu)

/-! ### `_parse_message` -/

inductive SnmpValue where
  | int (n : Int)
  | str (t : Text)
  | null
deriving DecidableEq, Repr

/-- UTF-8 where it is that, latin-1 otherwise. -/
def decodeText (body : Bytes) : Text :=
  match String.fromUTF8? ⟨body.toArray⟩ with
  | some s => s.toList
  | none => body.map fun b => Char.ofNat b.toNat

/-- `_decode_value`. -/
def decodeValue (tag : UInt8) (body : Bytes) : SnmpValue :=
  if tag = 0x02 then .int (ofOctetsSigned body)
  else if tag ∈ [0x41, 0x42, 0x43, 0x46] then .int (ofOctets body)
  else if tag = 0x04 then .str (decodeText body)
  else if tag = 0x06 then .str (decodeOid body)
  else if tag = 0x40 then .str (dotted (body.map (·.toNat)))
  else .null

/-- A dictionary from identifiers to values, in the order in which they were set first. -/
abbrev Bindings := List (Text × SnmpValue)

/-- `result[oid] = value`. -/
def setItem (result : Bindings) (oid : Text) (value : SnmpValue) : Bindings :=
  Table.upsert Prod.fst (fun _ new => new) (oid, value) result

/-- `_find_first`. -/
def findFirst (items : List (UInt8 × Bytes)) (wanted : List UInt8) : Bytes :=
  ((items.find? fun item => item.1 ∈ wanted).map (·.2)).getD []

/-- The loop body over the bindings. -/
def readVarbind (result : Bindings) (item : UInt8 × Bytes) : Option Bindings :=
  if item.1 ≠ sequenceTag then some result
  else match decodeSequence item.2 with
    | none => none
    | some ((nameTag, name) :: (valueTag, value) :: _) =>
      if nameTag ≠ 0x06 then some result
      else if decodeOid name = [] then some result
      else some (setItem result (decodeOid name) (decodeValue valueTag value))
    | some _ => some result

def readRequestId : List (UInt8 × Bytes) → Option Int
  | (tag, body) :: _ => if tag = 0x02 then some (ofOctetsSigned body) else none
  | [] => none

/-- What the `try` block returns, once the items of the PDU are there. -/
def parseItems (items : List (UInt8 × Bytes)) : Option (Option Int × Bindings) :=
  if findFirst items [sequenceTag] = [] then some (readRequestId items, [])
  else do
    let varbinds ← decodeSequence (findFirst items [sequenceTag])
    let bindings ← varbinds.foldlM readVarbind []
    return (readRequestId items, bindings)

/-- The `try` block of `_parse_message`. -/
def parseBody (data : Bytes) : Option (Option Int × Bindings) :=
  match decodeTlv data with
  | none => none
  | some (tag, body, _) =>
    if tag ≠ sequenceTag then some (none, [])
    else do
      let items ← decodeSequence body
      if findFirst items pduTags = [] then some (none, [])
      else do
        let pduItems ← decodeSequence (findFirst items pduTags)
        parseItems pduItems

/-- `_parse_message`. -/
def parseMessage (data : Bytes) : Option Int × Bindings := (parseBody data).getD (none, [])

/-! ### Messages -/

structure Varbind where
  name : List Nat
  valueTag : UInt8
  value : Bytes
deriving DecidableEq, Repr

/-- The binding, as the rules encode it. -/
def IsVarbind (vb : Varbind) (bytes : Bytes) : Prop :=
  ∃ body, IsItems [(0x06, oidBody vb.name), (vb.valueTag, vb.value)] body ∧
    IsTlv sequenceTag body bytes

inductive AreVarbinds : List Varbind → Bytes → Prop
  | nil : AreVarbinds [] []
  | cons {vb : Varbind} {vbs : List Varbind} {bytes rest : Bytes} (first : IsVarbind vb bytes)
      (others : AreVarbinds vbs rest) : AreVarbinds (vb :: vbs) (bytes ++ rest)

/-- A message of an exchange: the identifier of the request and the bindings. -/
def IsMessage (pduType : UInt8) (requestId : Int) (vbs : List Varbind) (data : Bytes) : Prop :=
  ∃ id first second varbinds pdu version community body, ofOctetsSigned id = requestId ∧
    AreVarbinds vbs varbinds ∧
    IsItems [(0x02, id), (0x02, first), (0x02, second), (sequenceTag, varbinds)] pdu ∧
    IsItems [(0x02, version), (0x04, community), (pduType, pdu)] body ∧
    IsTlv sequenceTag body data

/-- The dictionary of the bindings. -/
def bindingsOf (vbs : List Varbind) : Bindings :=
  vbs.foldl (fun result vb => setItem result (dotted vb.name) (decodeValue vb.valueTag vb.value))
    []

/-! ### The parser reads messages -/

/-- The bindings that the parser keeps: the others have names too long for it. -/
def keptVarbinds (vbs : List Varbind) : List Varbind := vbs.filter fun vb => Carried vb.name

theorem readVarbind_of_isItems {vb : Varbind} (hvb : Written vb.name) {body : Bytes}
    (hitems : IsItems [(0x06, oidBody vb.name), (vb.valueTag, vb.value)] body)
    (result : Bindings) : readVarbind result (sequenceTag, body) =
      some (if Carried vb.name then
        setItem result (dotted vb.name) (decodeValue vb.valueTag vb.value) else result) := by
  simp only [readVarbind, decodeSequence_of_isItems hitems, decodeOid_oidBody hvb]
  rw [if_neg (by simp), if_neg (by simp)]
  by_cases hcarried : Carried vb.name
  · simp only [if_pos hcarried]
    rw [if_neg (dotted_ne_nil hvb.ne_nil)]
  · simp only [if_neg hcarried, if_true]

/-- The bindings of a message are items whose bodies the loop reads one by one. -/
theorem foldlM_readVarbind {vbs : List Varbind} {bytes : Bytes} (h : AreVarbinds vbs bytes)
    (hwritten : ∀ vb ∈ vbs, Written vb.name) :
    ∃ items, IsItems items bytes ∧ ∀ result : Bindings, items.foldlM readVarbind result =
      some ((keptVarbinds vbs).foldl (fun result vb =>
        setItem result (dotted vb.name) (decodeValue vb.valueTag vb.value)) result) := by
  induction h with
  | nil => exact ⟨[], IsItems.nil, fun _ => rfl⟩
  | @cons vb vbs bytes rest first _ ih =>
    obtain ⟨body, hitems, htlv⟩ := first
    obtain ⟨items, hothers, hfold⟩ := ih fun vb' hvb' => hwritten vb' (List.mem_cons_of_mem vb hvb')
    refine ⟨(sequenceTag, body) :: items, IsItems.cons htlv hothers, ?_⟩
    intro result
    rw [List.foldlM_cons, readVarbind_of_isItems (hwritten vb List.mem_cons_self) hitems,
      Option.bind_eq_bind, Option.bind_some, hfold]
    by_cases hcarried : Carried vb.name
    · rw [if_pos hcarried, keptVarbinds, keptVarbinds,
        List.filter_cons_of_pos (by simpa using hcarried), List.foldl_cons]
    · rw [if_neg hcarried, keptVarbinds, keptVarbinds,
        List.filter_cons_of_neg (by simpa using hcarried)]

theorem areVarbinds_nil {vbs : List Varbind} (h : AreVarbinds vbs []) : vbs = [] := by
  cases vbs with
  | nil => rfl
  | cons vb vbs =>
    generalize hbytes : ([] : Bytes) = bytes at h
    cases h with
    | cons first others =>
      obtain ⟨body, _, header, _, rfl⟩ := first
      cases hbytes

theorem isItems_ne_nil {item : UInt8 × Bytes} {items : List (UInt8 × Bytes)} {bytes : Bytes}
    (h : IsItems (item :: items) bytes) : bytes ≠ [] := by
  cases h with
  | cons first others =>
    obtain ⟨header, _, rfl⟩ := first
    simp

/-- **The parser reads every message, but for the bindings whose names are too long.** -/
theorem parseMessage_of_isMessage {pduType : UInt8} (hpdu : pduType ∈ pduTags) {requestId : Int}
    {vbs : List Varbind} (hwritten : ∀ vb ∈ vbs, Written vb.name) {data : Bytes}
    (h : IsMessage pduType requestId vbs data) :
    parseMessage data = (some requestId, bindingsOf (keptVarbinds vbs)) := by
  obtain ⟨id, first, second, varbinds, pdu, version, community, body, hid, hvbs, hpduItems,
    hitems, htlv⟩ := h
  have hread := decodeTlv_of_isTlv htlv []
  rw [List.append_nil] at hread
  have hfind : findFirst [(0x02, version), (0x04, community), (pduType, pdu)] pduTags = pdu := by
    have hint : (0x02 : UInt8) ∉ pduTags := by decide
    have hstring : (0x04 : UInt8) ∉ pduTags := by decide
    simp [findFirst, hint, hstring, hpdu]
  have hvarbinds : findFirst [(0x02, id), (0x02, first), (0x02, second), (sequenceTag, varbinds)]
      [sequenceTag] = varbinds := by
    have hint : (0x02 : UInt8) ≠ sequenceTag := by decide
    simp [findFirst, hint]
  have hrequest : readRequestId [(0x02, id), (0x02, first), (0x02, second),
      (sequenceTag, varbinds)] = some requestId := by
    simp only [readRequestId, if_true, hid]
  have hparse : parseItems [(0x02, id), (0x02, first), (0x02, second), (sequenceTag, varbinds)] =
      some (some requestId, bindingsOf (keptVarbinds vbs)) := by
    unfold parseItems
    rw [hvarbinds, hrequest]
    split
    · rename_i hnone
      rw [hnone] at hvbs
      rw [areVarbinds_nil hvbs]
      rfl
    · obtain ⟨items, hall, hfold⟩ := foldlM_readVarbind hvbs hwritten
      rw [decodeSequence_of_isItems hall, Option.bind_eq_bind, Option.bind_some, hfold]
      rfl
  unfold parseMessage parseBody
  rw [hread]
  simp only [decodeSequence_of_isItems hitems, Option.bind_eq_bind, Option.bind_some, hfind]
  rw [if_neg (by simp), if_neg (isItems_ne_nil hpduItems), decodeSequence_of_isItems hpduItems,
    Option.bind_some, hparse]
  rfl

/-- **A message that is cut off has no bindings.** -/
theorem parseMessage_of_cut {pduType : UInt8} {requestId : Int} {vbs : List Varbind}
    {data cut : Bytes} (h : IsMessage pduType requestId vbs data) (hcut : cut <+: data)
    (hne : cut ≠ data) : parseMessage cut = (none, []) := by
  obtain ⟨_, _, _, _, _, _, _, body, _, _, _, _, htlv⟩ := h
  unfold parseMessage parseBody
  rw [decodeTlv_of_cut htlv hcut hne]
  rfl

/-! ### Requests are messages -/

/-- The binding of an identifier to null. -/
def nullVarbind (arcs : List Nat) : Varbind := { name := arcs, valueTag := 0x05, value := [] }

variable {C}

theorem isVarbind_of_encodeVarbind (hC : C.ReadsDigits) {arcs : List Nat} (harcs : Written arcs)
    {bytes : Bytes} (hlen : bytes.length < maxLength)
    (h : encodeVarbind C (dotted arcs) = some bytes) : IsVarbind (nullVarbind arcs) bytes := by
  unfold encodeVarbind at h
  obtain ⟨name, hname, h⟩ := Option.bind_eq_some_iff.mp h
  obtain ⟨value, hvalue, h⟩ := Option.bind_eq_some_iff.mp h
  have hoid := encodeOid_dotted hC harcs hname
  have hbody := length_of_encodeTlv h
  have hnameLen := length_of_encodeTlv hoid
  rw [List.length_append] at hbody
  have hnameTlv : IsTlv 0x06 (oidBody arcs) name := isTlv_of_encodeTlv (by omega) hoid
  have hvalueTlv : IsTlv 0x05 [] value :=
    isTlv_of_encodeTlv (by rw [List.length_nil]; omega) hvalue
  refine ⟨name ++ value, hnameTlv.items.append hvalueTlv.items, ?_⟩
  exact isTlv_of_encodeTlv (by rw [List.length_append]; omega) h

theorem areVarbinds_of_mapM (hC : C.ReadsDigits) {oids : List (List Nat)}
    (hoids : ∀ arcs ∈ oids, Written arcs) {parts : List Bytes}
    (hlen : parts.flatten.length < maxLength)
    (h : (oids.map dotted).mapM (encodeVarbind C) = some parts) :
    AreVarbinds (oids.map nullVarbind) parts.flatten := by
  induction oids generalizing parts with
  | nil =>
    cases h
    exact AreVarbinds.nil
  | cons arcs oids ih =>
    rw [List.map_cons, List.mapM_cons] at h
    obtain ⟨part, hpart, h⟩ := Option.bind_eq_some_iff.mp h
    obtain ⟨rest, hrest, h⟩ := Option.bind_eq_some_iff.mp h
    cases h
    rw [List.flatten_cons, List.length_append] at hlen
    rw [List.map_cons, List.flatten_cons]
    apply AreVarbinds.cons
    · exact isVarbind_of_encodeVarbind hC (hoids arcs List.mem_cons_self) (by omega) hpart
    · exact ih (fun a ha => hoids a (List.mem_cons_of_mem arcs ha)) (by omega) hrest

/-- **What `build_request` writes is a message.** -/
theorem isMessage_of_buildRequest (hC : C.ReadsDigits) {pduType : UInt8}
    {oids : List (List Nat)} (hoids : ∀ arcs ∈ oids, Written arcs) {community : String}
    {version requestId nonRepeaters maxRepetitions : Int} {data : Bytes}
    (hlen : data.length < maxLength)
    (h : buildRequest C pduType (oids.map dotted) community version requestId nonRepeaters
      maxRepetitions = some data) :
    IsMessage pduType requestId (oids.map nullVarbind) data := by
  unfold buildRequest at h
  obtain ⟨parts, hparts, h⟩ := Option.bind_eq_some_iff.mp h
  obtain ⟨vbSeq, hvbSeq, h⟩ := Option.bind_eq_some_iff.mp h
  obtain ⟨id, hid, h⟩ := Option.bind_eq_some_iff.mp h
  obtain ⟨first, hfirst, h⟩ := Option.bind_eq_some_iff.mp h
  obtain ⟨second, hsecond, h⟩ := Option.bind_eq_some_iff.mp h
  obtain ⟨pdu, hpdu, h⟩ := Option.bind_eq_some_iff.mp h
  obtain ⟨versionBytes, hversion, h⟩ := Option.bind_eq_some_iff.mp h
  obtain ⟨communityBytes, hcommunity, h⟩ := Option.bind_eq_some_iff.mp h
  -- every part is shorter than the whole
  have hbodyLen := length_of_encodeTlv h
  have hpduLen := length_of_encodeTlv hpdu
  have hvbsLen := length_of_encodeTlv hvbSeq
  have hidLen := length_of_encodeTlv hid
  have hfirstLen := length_of_encodeTlv hfirst
  have hsecondLen := length_of_encodeTlv hsecond
  have hversionLen := length_of_encodeTlv hversion
  have hcommunityLen := length_of_encodeTlv hcommunity
  simp only [List.length_append] at hbodyLen hpduLen
  have hidTlv := isTlv_of_encodeTlv (by omega) hid
  have hfirstTlv := isTlv_of_encodeTlv (by omega) hfirst
  have hsecondTlv := isTlv_of_encodeTlv (by omega) hsecond
  have hvbsTlv := isTlv_of_encodeTlv (by omega) hvbSeq
  have hversionTlv := isTlv_of_encodeTlv (by omega) hversion
  have hcommunityTlv := isTlv_of_encodeTlv (by omega) hcommunity
  have hpduTlv := isTlv_of_encodeTlv (by simp only [List.length_append]; omega) hpdu
  exact ⟨_, _, _, parts.flatten, _, _, _, _, ofOctetsSigned_signedOctets requestId,
    areVarbinds_of_mapM hC hoids (by omega) hparts,
    ((hidTlv.items.append hfirstTlv.items).append hsecondTlv.items).append hvbsTlv.items,
    (hversionTlv.items.append hcommunityTlv.items).append hpduTlv.items,
    isTlv_of_encodeTlv (by simp only [List.length_append]; omega) h⟩

/-! ### The round trip -/

theorem bindingsOf_eq (vbs : List Varbind) : bindingsOf vbs =
    Table.upsertAll Prod.fst (fun _ new => new)
      (vbs.map fun vb => (dotted vb.name, decodeValue vb.valueTag vb.value)) [] := by
  unfold bindingsOf Table.upsertAll
  rw [List.foldl_map]
  rfl

theorem mem_upsertAll_new {news rows : Bindings} {r : Text × SnmpValue}
    (h : r ∈ Table.upsertAll Prod.fst (fun _ new => new) news rows) : r ∈ rows ∨ r ∈ news := by
  induction news generalizing rows with
  | nil => exact Or.inl h
  | cons new news ih =>
    rw [Table.upsertAll_cons] at h
    rcases ih h with hrow | hnew
    · rcases Table.mem_upsert hrow with hold | rfl | ⟨_, _, rfl⟩
      · exact Or.inl hold
      · exact Or.inr List.mem_cons_self
      · exact Or.inr List.mem_cons_self
    · exact Or.inr (List.mem_cons_of_mem new hnew)

theorem nodup_upsertAll_new {news rows : Bindings} (h : (rows.map Prod.fst).Nodup) :
    ((Table.upsertAll Prod.fst (fun _ new => new) news rows).map Prod.fst).Nodup := by
  induction news generalizing rows with
  | nil => exact h
  | cons new news ih =>
    rw [Table.upsertAll_cons]
    exact ih (Table.nodup_keys_upsert (fun _ _ => rfl) h)

theorem nodup_bindingsOf (vbs : List Varbind) : ((bindingsOf vbs).map Prod.fst).Nodup := by
  rw [bindingsOf_eq]
  exact nodup_upsertAll_new List.nodup_nil

/-- Names bound to null: each is there, with nothing else. -/
theorem mem_bindingsOf_null {oids : List (List Nat)} {oid : Text} {value : SnmpValue} :
    (oid, value) ∈ bindingsOf (keptVarbinds (oids.map nullVarbind)) ↔
      (∃ arcs ∈ oids, Carried arcs ∧ oid = dotted arcs) ∧ value = .null := by
  have hnews : (keptVarbinds (oids.map nullVarbind)).map
      (fun vb => (dotted vb.name, decodeValue vb.valueTag vb.value)) =
      (oids.filter fun arcs => Carried arcs).map fun arcs => (dotted arcs, SnmpValue.null) := by
    unfold keptVarbinds
    rw [List.filter_map, List.map_map]
    rfl
  rw [bindingsOf_eq, hnews]
  constructor
  · intro h
    rcases mem_upsertAll_new h with hnil | hnew
    · cases hnil
    · obtain ⟨arcs, harcs, heq⟩ := List.mem_map.mp hnew
      obtain ⟨hmem, hcarried⟩ := List.mem_filter.mp harcs
      cases heq
      exact ⟨⟨arcs, hmem, by simpa using hcarried, rfl⟩, rfl⟩
  · rintro ⟨⟨arcs, hmem, hcarried, rfl⟩, rfl⟩
    have hkey : dotted arcs ∈ (Table.upsertAll Prod.fst (fun _ new => new)
        ((oids.filter fun arcs => Carried arcs).map fun arcs => (dotted arcs, SnmpValue.null))
        ([] : Bindings)).map Prod.fst := by
      rw [Table.mem_keys_upsertAll fun _ _ _ => rfl]
      right
      rw [List.map_map]
      exact List.mem_map.mpr ⟨arcs, List.mem_filter.mpr ⟨hmem, by simpa using hcarried⟩, rfl⟩
    obtain ⟨⟨oid, value⟩, hrow, hoid⟩ := List.mem_map.mp hkey
    obtain rfl : oid = dotted arcs := hoid
    rcases mem_upsertAll_new hrow with hnil | hnew
    · cases hnil
    · obtain ⟨_, _, heq⟩ := List.mem_map.mp hnew
      obtain rfl : SnmpValue.null = value := congrArg Prod.snd heq
      exact hrow

/-- **A request reads back.**  The parser gives the identifier of the request and binds every OID
    of at most 128 octets to null, and nothing else; of a request that is cut off it gives no
    binding. -/
theorem request_round_trip (C : PyChars) (hC : C.ReadsDigits) (pduType : UInt8)
    (hpdu : pduType ∈ [getTag, getNextTag, getBulkTag]) (oids : List (List Nat))
    (hoids : ∀ arcs ∈ oids, Written arcs) (community : String)
    (version requestId nonRepeaters maxRepetitions : Int) (data : Bytes)
    (hlen : data.length < maxLength)
    (h : buildRequest C pduType (oids.map dotted) community version requestId nonRepeaters
      maxRepetitions = some data) :
    (∃ bindings, parseMessage data = (some requestId, bindings) ∧
      (bindings.map Prod.fst).Nodup ∧
      ∀ oid value, (oid, value) ∈ bindings ↔
        (∃ arcs ∈ oids, Carried arcs ∧ oid = dotted arcs) ∧ value = .null) ∧
    ∀ cut, cut <+: data → cut ≠ data → parseMessage cut = (none, []) := by
  have hmessage := isMessage_of_buildRequest hC hoids hlen h
  constructor
  · have htag : pduType ∈ pduTags := by
      simp only [List.mem_cons, List.not_mem_nil, or_false] at hpdu
      rcases hpdu with rfl | rfl | rfl <;> decide
    have hwritten : ∀ vb ∈ oids.map nullVarbind, Written vb.name := by
      intro vb hvb
      obtain ⟨arcs, harcs, rfl⟩ := List.mem_map.mp hvb
      exact hoids arcs harcs
    exact ⟨_, parseMessage_of_isMessage htag hwritten hmessage, nodup_bindingsOf _,
      fun _ _ => mem_bindingsOf_null⟩
  · exact fun cut hcut hne => parseMessage_of_cut hmessage hcut hne

theorem request_round_trip_pages : ∃ data,
    buildRequest .ascii getTag [dotted [1, 3, 6, 1, 2, 1, 43, 10, 2, 1, 4, 1, 18334]] "public" 1
      (-7) 0 0 = some data ∧
    ∃ bindings, parseMessage data = (some (-7), bindings) ∧
      (dotted [1, 3, 6, 1, 2, 1, 43, 10, 2, 1, 4, 1, 18334], SnmpValue.null) ∈ bindings := by
  have hsome : (buildRequest .ascii getTag
      ([[1, 3, 6, 1, 2, 1, 43, 10, 2, 1, 4, 1, 18334]].map dotted) "public" 1 (-7) 0 0).any
        (fun data => data.length < maxLength) = true := by decide +kernel
  obtain ⟨data, hdata, hlen⟩ := (Option.any_eq_true _ _).mp hsome
  obtain ⟨⟨bindings, hparse, _, hmem⟩, _⟩ := request_round_trip .ascii readsDigits_ascii getTag
    (by decide) [[1, 3, 6, 1, 2, 1, 43, 10, 2, 1, 4, 1, 18334]] (by decide) "public" 1 (-7) 0 0 data
    (of_decide_eq_true hlen) hdata
  exact ⟨data, hdata, bindings, hparse,
    (hmem _ _).mpr ⟨⟨_, List.mem_cons_self, by decide +kernel, rfl⟩, rfl⟩⟩

/-- An identifier of 129 octets. -/
def longOid : List Nat := 1 :: 3 :: List.replicate 128 0

/-- The parser drops an identifier that `build_request` writes. -/
theorem long_oid_dropped : Written longOid ∧
    (buildRequest .ascii getTag [dotted longOid] "public" 1 1 0 0).map parseMessage =
      some (some 1, []) := by decide +kernel

end Srp.Printers
