/-
  Srp/Netdisco/SnmpMac.lean
  =========================
  **MAC addresses out of SNMP values** (`_mac` and `_build_interfaces` of
  `server/netdisco/snmp_probe.py`, `harvest_arp` of `server/netdisco/harvest.py`).

  The SNMP decoder hands an OCTET STRING over as text, read as UTF-8 where it is
  that; `_mac` takes the code points of the text for the octets.  The six octets
  of an address come back unchanged, since UTF-8 text of six octets has six
  characters only where each of them is ASCII.  Longer octet strings are taken
  for an address if they are UTF-8 and have six characters below U+0100
  (`Widened`).
-/
import Srp.Lib.PyEncode
import Srp.Lib.PySet
import Srp.Netdisco.Identity
import Srp.Printers.Snmp

namespace Srp.Netdisco

open Srp.Lib Srp.Lib.Lines Srp.Lib.Octets Srp.Lib.PyEncode Srp.Lib.PyInt Srp.Printers

/-! ### `_mac` -/

/-- `_MAC_OCTETS`. -/
def macOctets : Nat := 6

/-- `f"{b:02x}"`. -/
def hexText (b : UInt8) : Text := [Nat.digitChar (b.toNat / 16), Nat.digitChar (b.toNat % 16)]

/-- `":".join(f"{b:02x}" for b in raw)`. -/
def colonHex (raw : Bytes) : Text := [':'].intercalate (raw.map hexText)

section Code

variable (T : PyText)

/-- `_mac`. -/
def macOf (value : SnmpValue) : Option String :=
  match value with
  | .str t =>
    if t = [] then none
    else match encodeLatin1 t with
      | none => none
      | some raw =>
        if raw.length ≠ macOctets then none
        else normalizeMac T (some (String.ofList (colonHex raw)))
  | _ => none

/-! ### `harvest_arp` -/

/-- What the probe needs of an SNMP session: the rows below an identifier, so many at most. -/
structure Session where
  walk : Text → Nat → Bindings

/-- `oids.IP_NET_TO_MEDIA_PHYS`. -/
def ipNetToMediaPhys : Text := "1.3.6.1.2.1.4.22.1.2".toList

/-- `_ARP_IDX_MIN`. -/
def arpIdxMin : Nat := 5

/-- `str` of an IPv4 address. -/
def ipv4Text (n : Nat) : Text := Lib.dotted [n / 2 ^ 24, n / 2 ^ 16 % 256, n / 2 ^ 8 % 256, n % 256]

/-- `_ip_from_octets`. -/
def ipFromOctets (parts : List Text) : Option Text :=
  if parts.length ≠ 4 then none
  else match T.ipAddress (String.ofList (['.'].intercalate parts)) with
    | some (.v4 n) => some (ipv4Text n)
    | _ => none

/-- The address in the index of a row of the table. -/
def arpIp (oid : Text) : Option Text :=
  if (ipNetToMediaPhys ++ ['.']).isPrefixOf oid then
    let parts := (oid.drop (ipNetToMediaPhys.length + 1)).splitOn '.'
    if parts.length < arpIdxMin then none else ipFromOctets T (parts.drop (parts.length - 4))
  else none

/-- The loop over the rows; `seen` holds the addresses of `out`. -/
def arpStep (out : List (Text × Option String)) (row : Text × SnmpValue) :
    List (Text × Option String) :=
  match arpIp T row.1 with
  | none => out
  | some ip =>
    if ip ∈ out.map Prod.fst ∨ isRfc1918 T (String.ofList ip) = false then out
    else out ++ [(ip, macOf T row.2)]

/-- `harvest_arp`. -/
def harvestArp (session : Session) (maxRows : Nat) : List (Text × Option String) :=
  (session.walk ipNetToMediaPhys maxRows).foldl (arpStep T) []

/-! ### `_build_interfaces` -/

structure NetInterface where
  ifIndex : Int
  name : Option Text
  ifType : Option Int
  speedMbps : Option ℚ
  operUp : Option Bool
  physMac : Option String
  ifAlias : Option Text
deriving DecidableEq

def ifDescr : Text := "1.3.6.1.2.1.2.2.1.2".toList
def ifTypeOid : Text := "1.3.6.1.2.1.2.2.1.3".toList
def ifSpeed : Text := "1.3.6.1.2.1.2.2.1.5".toList
def ifPhysAddress : Text := "1.3.6.1.2.1.2.2.1.6".toList
def ifOperStatus : Text := "1.3.6.1.2.1.2.2.1.8".toList
def ifName : Text := "1.3.6.1.2.1.31.1.1.1.1".toList
def ifAliasOid : Text := "1.3.6.1.2.1.31.1.1.1.18".toList

/-- `_IF_ALIAS_MAX`. -/
def ifAliasMax : Nat := 64
/-- `_IF_SPEED_UNKNOWN`. -/
def ifSpeedUnknown : Int := 0xFFFFFFFF
/-- `_BPS_PER_MBPS`. -/
def bpsPerMbps : ℚ := 1000000
/-- The default of `max_rows`. -/
def walkRows : Nat := 512

/-- `_str`. -/
def strOf : SnmpValue → Option Text
  | .str t => if t = [] then none else some t
  | _ => none

/-- `_int`. -/
def intOf : SnmpValue → Option Int
  | .int n => some n
  | _ => none

/-- `_oper_up`. -/
def operUp (value : SnmpValue) : Option Bool :=
  if intOf value = some 1 then some true else if intOf value = some 2 then some false else none

/-- `_by_index`. -/
def byIndex (walked : Bindings) (base : Text) : Bindings :=
  (walked.filter fun row => (base ++ ['.']).isPrefixOf row.1).map fun row =>
    (row.1.drop (base.length + 1), row.2)

/-- `_by_index(session.walk(base), base)`. -/
def column (session : Session) (base : Text) : Bindings := byIndex (session.walk base walkRows) base

/-- `col.get(idx)`. -/
def cell (col : Bindings) (idx : Text) : SnmpValue := (col.lookup idx).getD .null

variable (C : PyChars) (isDigit isPrintable : Char → Bool)

/-- The name of an interface: the short label before the description. -/
def interfaceName (session : Session) (idx : Text) : Option Text :=
  (strOf (cell (column session ifName) idx)).or (strOf (cell (column session ifDescr) idx))

def interfaceSpeed (session : Session) (idx : Text) : Option ℚ :=
  ((intOf (cell (column session ifSpeed) idx)).filter (· ≠ ifSpeedUnknown)).map fun bps =>
    bps / bpsPerMbps

def interfaceAlias (session : Session) (idx : Text) : Option Text :=
  ((strOf (cell (column session ifAliasOid) idx)).map (·.take ifAliasMax)).filter fun t =>
    t.all isPrintable

def interfaceOf (session : Session) (idx : Text × Int) : NetInterface where
  ifIndex := idx.2
  name := interfaceName session idx.1
  ifType := intOf (cell (column session ifTypeOid) idx.1)
  speedMbps := interfaceSpeed session idx.1
  operUp := operUp (cell (column session ifOperStatus) idx.1)
  physMac := macOf T (cell (column session ifPhysAddress) idx.1)
  ifAlias := interfaceAlias isPrintable session idx.1

/-- The set of the indices of all columns. -/
def interfaceIndices (session : Session) : Finset Text :=
  (([ifDescr, ifName, ifAliasOid, ifTypeOid, ifSpeed, ifPhysAddress, ifOperStatus].flatMap
    fun base => (column session base).map Prod.fst).filter fun k =>
      decide (k ≠ []) && k.all isDigit).toFinset

/-- `_build_interfaces`, for a set that is iterated as the order says; `none` where `int` raises. -/
def buildInterfaces (order : Lib.SetOrder Text) (session : Session) : Option (List NetInterface) := do
  let indices ← (order.elements (interfaceIndices isDigit session)).mapM fun k =>
    (pyInt C k).map fun n => (k, n)
  let sorted := indices.mergeSort fun x y => decide (x.2 ≤ y.2)
  return sorted.map (interfaceOf T isPrintable session)

end Code

/-! ### What an address looks like -/

def upperHex (b : UInt8) : Text := (hexText b).map Char.toUpper

/-- The normalized form of the address with these octets. -/
def macForm (raw : Bytes) : String := String.ofList (['-'].intercalate (raw.map upperHex))

/-- `str.upper` does to a colon and to hexadecimal digits what it does to them in ASCII. -/
def PyText.UppersHex (T : PyText) : Prop :=
  T.upper ':' = [':'] ∧ ∀ n < 16, T.upper (Nat.digitChar n) = [(Nat.digitChar n).toUpper]

section Form

variable {T : PyText}

theorem PyText.UppersHex.hexText (hT : T.UppersHex) (b : UInt8) :
    (hexText b).flatMap T.upper = upperHex b := by
  have hlow := hT.2 (b.toNat % 16) (Nat.mod_lt _ (by decide))
  have hhigh := hT.2 (b.toNat / 16) (Nat.div_lt_of_lt_mul b.toNat_lt)
  simp [Netdisco.hexText, upperHex, hlow, hhigh]

theorem filter_upperHex (b : UInt8) : (upperHex b).filter isHexDigit = upperHex b := by
  have hall : ∀ n < 16, isHexDigit (Nat.digitChar n).toUpper = true := by decide
  have hlow := hall (b.toNat % 16) (Nat.mod_lt _ (by decide))
  have hhigh := hall (b.toNat / 16) (Nat.div_lt_of_lt_mul b.toNat_lt)
  simp [upperHex, hexText, hlow, hhigh]

/-- The colons fall away. -/
theorem digits_colonHex (hT : T.UppersHex) (raw : Bytes) :
    ((colonHex raw).flatMap T.upper).filter isHexDigit = raw.flatMap upperHex := by
  unfold colonHex
  induction raw with
  | nil => rfl
  | cons b raw ih =>
    cases raw with
    | nil => simp [hT.hexText, filter_upperHex]
    | cons b' raw =>
      have hcolon : isHexDigit ':' = false := by decide
      rw [List.map_cons, List.intercalate_cons_of_ne_nil (by simp), List.flatMap_append,
        List.flatMap_append, List.filter_append, List.filter_append, hT.hexText, filter_upperHex,
        List.flatMap_cons, ih]
      simp [hT.1, hcolon]

theorem joinPairs_upperHex (raw : Bytes) :
    joinPairs (raw.flatMap upperHex) = ['-'].intercalate (raw.map upperHex) := by
  induction raw with
  | nil => rfl
  | cons b raw ih =>
    cases raw with
    | nil => rfl
    | cons b' raw =>
      rw [List.map_cons, List.intercalate_cons_of_ne_nil (by simp), ← ih]
      rfl

theorem length_flatMap_upperHex (raw : Bytes) : (raw.flatMap upperHex).length = 2 * raw.length := by
  induction raw with
  | nil => rfl
  | cons b raw ih =>
    rw [List.flatMap_cons, List.length_append, ih, List.length_cons]
    simp only [upperHex, hexText, List.map_cons, List.map_nil, List.length_cons, List.length_nil]
    omega

theorem normalizeMac_colonHex (hT : T.UppersHex) {raw : Bytes} (h : raw.length = macOctets) :
    normalizeMac T (some (String.ofList (colonHex raw))) = some (macForm raw) := by
  have hdigits := digits_colonHex hT raw
  rw [normalizeMac, String.toList_ofList]
  simp only [hdigits, length_flatMap_upperHex, h, macOctets, joinPairs_upperHex]
  rfl

end Form

/-! ### Octet strings as text -/

theorem decodeText_encodeUtf8 (t : Text) : decodeText (encodeUtf8 t) = t := by
  rw [decodeText, fromUTF8?_encodeUtf8]
  exact String.toList_ofList

theorem decodeText_of_not_utf8 {body : Bytes} (h : ∀ t, encodeUtf8 t ≠ body) :
    decodeText body = body.map fun b => Char.ofNat b.toNat := by
  unfold decodeText
  cases hs : String.fromUTF8? ⟨body.toArray⟩ with
  | none => rfl
  | some s => exact absurd (encodeUtf8_of_fromUTF8? hs) (h s.toList)

/-! ### Which octet strings are taken for an address -/

/-- UTF-8 of six characters below U+0100, not all of them ASCII: between 7 and 12 octets. -/
def Widened (body : Bytes) : Prop :=
  ∃ t, body = encodeUtf8 t ∧ t.length = macOctets ∧ (∀ c ∈ t, c.toNat ≤ 0xFF) ∧
    ∃ c ∈ t, 0x80 ≤ c.toNat

/-- The value is no address, or that of the six octets of the body. -/
def HonestMac (T : PyText) (tag : UInt8) (body : Bytes) : Prop :=
  macOf T (decodeValue tag body) = none ∨
    body.length = macOctets ∧ macOf T (decodeValue tag body) = some (macForm body)

section Honest

variable {T : PyText} {body : Bytes}

theorem decodeValue_octetString (body : Bytes) : decodeValue 0x04 body = .str (decodeText body) := by
  rfl

/-- The address of a text, told by its octets in latin-1. -/
theorem macOf_str (hT : T.UppersHex) {t : Text} {raw : Bytes} (h : encodeLatin1 t = some raw) :
    macOf T (.str t) = if raw.length = macOctets then some (macForm raw) else none := by
  by_cases ht : t = []
  · subst ht
    obtain rfl : [] = raw := Option.some.inj h
    rfl
  · rw [macOf]
    simp only [if_neg ht, h]
    by_cases hlength : raw.length = macOctets
    · rw [if_neg (by simpa using hlength), if_pos hlength, normalizeMac_colonHex hT hlength]
    · rw [if_pos hlength, if_neg hlength]

theorem macOf_str_none {t : Text} (h : encodeLatin1 t = none) : macOf T (.str t) = none := by
  rw [macOf]
  simp only [h]
  exact ite_self none

theorem not_widened_of_length (h : body.length = macOctets) : ¬ Widened body := by
  rintro ⟨t, rfl, ht, -, c, hc, hwide⟩
  have hascii := ascii_of_length_eq (h.trans ht.symm) c hc
  omega

theorem honestMac_iff (hT : T.UppersHex) (body : Bytes) :
    HonestMac T 0x04 body ↔ ¬ Widened body := by
  rw [HonestMac, decodeValue_octetString]
  by_cases hutf : ∃ t, encodeUtf8 t = body
  · obtain ⟨t, rfl⟩ := hutf
    rw [decodeText_encodeUtf8]
    by_cases hle : ∀ c ∈ t, c.toNat ≤ 0xFF
    · rw [macOf_str hT (encodeLatin1_of_le hle), List.length_map]
      by_cases hlength : t.length = macOctets
      · rw [if_pos hlength]
        by_cases hascii : ∀ c ∈ t, c.toNat < 0x80
        · have hbody := encodeUtf8_ascii hascii
          have hsix : (encodeUtf8 t).length = macOctets := by
            rw [hbody, List.length_map, hlength]
          rw [hbody] at hsix ⊢
          exact iff_of_true (Or.inr ⟨hsix, rfl⟩) (not_widened_of_length hsix)
        · -- a character of two octets: the body is longer than what is made of it
          have hwide : ∃ c ∈ t, 0x80 ≤ c.toNat := by
            simpa using hascii
          refine iff_of_false ?_ (not_not_intro ⟨t, rfl, hlength, hle, hwide⟩)
          rintro (hnone | ⟨hsix, -⟩)
          · cases hnone
          · exact hascii (ascii_of_length_eq (hsix.trans hlength.symm))
      · rw [if_neg hlength]
        refine iff_of_true (Or.inl rfl) ?_
        rintro ⟨t', ht', hlength', -⟩
        rw [← decodeText_encodeUtf8 t, ht', decodeText_encodeUtf8] at hlength
        exact hlength hlength'
    · rw [macOf_str_none (encodeLatin1_of_not_le hle)]
      refine iff_of_true (Or.inl rfl) ?_
      rintro ⟨t', ht', -, hle', -⟩
      rw [← decodeText_encodeUtf8 t, ht', decodeText_encodeUtf8] at hle
      exact hle hle'
  · have hnot : ∀ t, encodeUtf8 t ≠ body := fun t ht => hutf ⟨t, ht⟩
    rw [decodeText_of_not_utf8 hnot, macOf_str hT (encodeLatin1_octets body)]
    refine iff_of_true ?_ fun ⟨t, ht, _⟩ => hnot t ht.symm
    by_cases hlength : body.length = macOctets
    · exact Or.inr ⟨hlength, if_pos hlength⟩
    · exact Or.inl (if_neg hlength)

end Honest

/-! ### What is recorded of an agent's answers -/

/-- A row of an answer as it came over the wire. -/
structure WireRow where
  oid : Text
  tag : UInt8
  body : Bytes

def WireRow.decoded (r : WireRow) : Text × SnmpValue := (r.oid, decodeValue r.tag r.body)

/-- The session with an agent that answers with these rows. -/
def Session.ofWire (rows : Text → Nat → List WireRow) : Session where
  walk base maxRows := (rows base maxRows).map WireRow.decoded

/-- The value is an OCTET STRING that is not taken for a shorter one, or no text. -/
def WireRow.Clean (r : WireRow) : Prop :=
  (r.tag = 0x04 → ¬ Widened r.body) ∧ r.tag ≠ 0x06 ∧ r.tag ≠ 0x40

/-- The address is that of six octets which one of the rows holds. -/
def Sent (rows : List WireRow) (mac : String) : Prop :=
  ∃ r ∈ rows, r.tag = 0x04 ∧ r.body.length = macOctets ∧ mac = macForm r.body

section Recorded

variable {T : PyText} {rows : List WireRow}

theorem macOf_decodeValue_of_tag {r : WireRow} (h04 : r.tag ≠ 0x04) (h06 : r.tag ≠ 0x06)
    (h40 : r.tag ≠ 0x40) : macOf T (decodeValue r.tag r.body) = none := by
  unfold decodeValue
  split_ifs <;> rfl

theorem sent_of_clean (hT : T.UppersHex) (hclean : ∀ r ∈ rows, r.Clean) {row : Text × SnmpValue}
    (hrow : row ∈ rows.map WireRow.decoded) {mac : String} (hmac : macOf T row.2 = some mac) :
    Sent rows mac := by
  obtain ⟨r, hr, rfl⟩ := List.mem_map.mp hrow
  have hr' := hclean r hr
  by_cases h04 : r.tag = 0x04
  · have hhonest := (honestMac_iff hT r.body).mpr (hr'.1 h04)
    rw [HonestMac, ← h04] at hhonest
    rcases hhonest with hnone | ⟨hlength, hsome⟩
    · cases hnone.symm.trans hmac
    · exact ⟨r, hr, h04, hlength, Option.some.inj (hmac.symm.trans hsome)⟩
  · cases (macOf_decodeValue_of_tag h04 hr'.2.1 hr'.2.2).symm.trans hmac

/-- Every address of the harvest was read from one of the rows. -/
theorem mem_harvestArp {bindings : Bindings} {out : List (Text × Option String)}
    {e : Text × Option String} (he : e ∈ bindings.foldl (arpStep T) out) :
    e ∈ out ∨ ∃ row ∈ bindings, e.2 = macOf T row.2 := by
  induction bindings generalizing out with
  | nil => exact Or.inl he
  | cons row bindings ih =>
    rcases ih he with hout | ⟨row', hrow', heq⟩
    · have hstep : e ∈ out ∨ e.2 = macOf T row.2 := by
        unfold arpStep at hout
        cases hip : arpIp T row.1 with
        | none =>
          rw [hip] at hout
          exact Or.inl hout
        | some ip =>
          simp only [hip] at hout
          split_ifs at hout with hseen
          · exact Or.inl hout
          · rcases List.mem_append.mp hout with hout | hnew
            · exact Or.inl hout
            · rw [List.mem_singleton.mp hnew]
              exact Or.inr rfl
      rcases hstep with hout | heq
      · exact Or.inl hout
      · exact Or.inr ⟨row, List.mem_cons_self, heq⟩
    · exact Or.inr ⟨row', List.mem_cons_of_mem _ hrow', heq⟩

/-- The cell of a column is a value of the walk, or empty. -/
theorem cell_column {session : Session} {base idx : Text} {mac : String}
    (h : macOf T (cell (column session base) idx) = some mac) :
    ∃ row ∈ session.walk base walkRows, macOf T row.2 = some mac := by
  unfold cell at h
  cases hlookup : (column session base).lookup idx with
  | none =>
    rw [hlookup] at h
    cases h
  | some value =>
    rw [hlookup] at h
    obtain ⟨before, behind, hsplit, -⟩ := List.lookup_eq_some_iff.mp hlookup
    have hmem : (idx, value) ∈ column session base := by
      rw [hsplit]
      simp
    obtain ⟨row, hrow, hvalue⟩ := List.mem_map.mp hmem
    refine ⟨row, (List.mem_filter.mp hrow).1, ?_⟩
    rw [(Prod.mk.inj hvalue).2]
    exact h

theorem mem_buildInterfaces {C : PyChars} {isDigit isPrintable : Char → Bool}
    {order : Lib.SetOrder Text} {session : Session} {interfaces : List NetInterface}
    (h : buildInterfaces T C isDigit isPrintable order session = some interfaces)
    {i : NetInterface} (hi : i ∈ interfaces) :
    ∃ idx, i = interfaceOf T isPrintable session idx := by
  unfold buildInterfaces at h
  obtain ⟨indices, -, hrest⟩ := Option.bind_eq_some_iff.mp h
  obtain rfl := Option.some.inj hrest
  obtain ⟨idx, -, rfl⟩ := List.mem_map.mp hi
  exact ⟨idx, rfl⟩

end Recorded

/-- An address read from an OCTET STRING is that of its six octets, and there is none unless it has
six, exactly if it is not UTF-8 of six characters below U+0100 with one above ASCII among them; and
where the address columns hold nothing but such strings, the harvest and the interface probe record
addresses that the agent has sent. -/
theorem snmpMac_honest_iff {T : PyText} (hT : T.UppersHex) :
    (∀ body, HonestMac T 0x04 body ↔ ¬ Widened body) ∧
    ∀ rows : Text → Nat → List WireRow,
      (∀ maxRows, (∀ r ∈ rows ipNetToMediaPhys maxRows, r.Clean) →
        ∀ e ∈ harvestArp T (.ofWire rows) maxRows, ∀ mac, e.2 = some mac →
          Sent (rows ipNetToMediaPhys maxRows) mac) ∧
      ((∀ r ∈ rows ifPhysAddress walkRows, r.Clean) →
        ∀ C isDigit isPrintable order interfaces,
          buildInterfaces T C isDigit isPrintable order (.ofWire rows) = some interfaces →
          ∀ i ∈ interfaces, ∀ mac, i.physMac = some mac →
            Sent (rows ifPhysAddress walkRows) mac) := by
  refine ⟨honestMac_iff hT, fun rows => ⟨?_, ?_⟩⟩
  · intro maxRows hclean e he mac hmac
    rcases mem_harvestArp he with hnil | ⟨row, hrow, heq⟩
    · cases hnil
    · exact sent_of_clean hT hclean hrow (heq.symm.trans hmac)
  · intro hclean C isDigit isPrintable order interfaces hbuild i hi mac hmac
    obtain ⟨idx, rfl⟩ := mem_buildInterfaces hbuild hi
    obtain ⟨row, hrow, hvalue⟩ := cell_column hmac
    exact sent_of_clean hT hclean hrow hvalue

private theorem uppersHex_ascii : (PyText.ascii fun _ => none).UppersHex := by
  refine ⟨rfl, fun n hn => ?_⟩
  rfl

theorem snmpMac_honest_six :
    HonestMac (.ascii fun _ => none) 0x04 [0x00, 0x1A, 0x2B, 0x3C, 0x4D, 0x5E] :=
  ((snmpMac_honest_iff uppersHex_ascii).1 _).mpr (not_widened_of_length rfl)

/-- Seven octets, of which an address of six is made. -/
theorem seven_octets_recorded :
    ¬ HonestMac (.ascii fun _ => none) 0x04 [0xC3, 0xA9, 0x41, 0x42, 0x43, 0x44, 0x45] := by
  intro h
  refine (honestMac_iff uppersHex_ascii _).mp h ?_
  exact ⟨['é', 'A', 'B', 'C', 'D', 'E'], by decide, rfl, by simp, 'é', List.mem_cons_self,
    by decide⟩

end Srp.Netdisco
