/-
  Srp/Netdisco/Evidence.lean
  ==========================
  **The evidence of one switch** (`server/netdisco/evidence.py`).

  Neighbour tables and forwarding tables are read row by row out of the indices
  of SNMP identifiers; a row that does not parse is skipped.  A row of the
  VLAN forwarding table holds a VLAN and the six octets of an address in its
  index and the bridge port in its value.  `fdb_evidence` says what a switch that
  answers with its own table is taken to say.
-/
import Srp.Lib.Dotted
import Srp.Netdisco.LinkInference
import Srp.Netdisco.SnmpMac

namespace Srp.Netdisco

open Srp.Lib Srp.Lib.Lines Srp.Lib.Octets Srp.Lib.PyInt Srp.Printers

/-! ### The collectors -/

/-- `oids.LLDP_REM_CHASSIS_ID`. -/
def lldpRemChassisId : Text := "1.0.8802.1.1.2.1.4.1.1.5".toList
/-- `oids.LLDP_REM_PORT_ID`. -/
def lldpRemPortId : Text := "1.0.8802.1.1.2.1.4.1.1.7".toList
/-- `oids.LLDP_LOC_PORT_DESC`. -/
def lldpLocPortDesc : Text := "1.0.8802.1.1.2.1.3.7.1.4".toList
/-- `oids.CDP_CACHE_DEVICE_ID`. -/
def cdpCacheDeviceId : Text := "1.3.6.1.4.1.9.9.23.1.2.1.1.6".toList
/-- `oids.DOT1D_BASE_PORT_IF_INDEX`. -/
def dot1dBasePortIfIndex : Text := "1.3.6.1.2.1.17.1.4.1.2".toList
/-- `oids.DOT1D_TP_FDB_PORT`. -/
def dot1dTpFdbPort : Text := "1.3.6.1.2.1.17.4.3.1.2".toList
/-- `oids.DOT1Q_TP_FDB_PORT`. -/
def dot1qTpFdbPort : Text := "1.3.6.1.2.1.17.7.1.2.2.1.2".toList

/-- `_LLDP_IDX_MIN`. -/
def lldpIdxMin : Nat := 3
/-- `_CDP_IDX_MIN`. -/
def cdpIdxMin : Nat := 2
/-- `_OCTET_MAX`. -/
def octetMax : Int := 255

/-- `_suffix_parts`. -/
def suffixParts (oid base : Text) : Option (List Text) :=
  if (base ++ ['.']).isPrefixOf oid then some ((oid.drop (base.length + 1)).splitOn '.') else none

section Code

variable (T : PyText) (C : PyChars) (isDigit isPrintable : Char → Bool)

/-- `str.isdigit`. -/
def isDigits (t : Text) : Bool := decide (t ≠ []) && t.all isDigit

/-- `int(part) if part.isdigit() else None`; the outer `none` where `int` raises. -/
def digitIndex (part : Text) : Option (Option Int) :=
  if isDigits isDigit part then (pyInt C part).map some else some none

/-- `_device_id_text`. -/
def deviceIdText : SnmpValue → Option Text
  | .str t =>
    let text := strip T (String.ofList t)
    if text ≠ [] ∧ text.all (·.toNat < 128) ∧ text.all isPrintable then some text else none
  | _ => none

/-- `_chassis_id`. -/
def chassisId (value : SnmpValue) : Option String :=
  (macOf T value).or ((deviceIdText T isPrintable value).map String.ofList)

/-- The octets in an index: `none` inside where one is no octet, and outside where `int` raises. -/
def oidOctets : List Text → Option (Option Bytes)
  | [] => some (some [])
  | part :: parts =>
    if ¬ isDigits isDigit part then some none
    else match pyInt C part with
      | none => none
      | some num =>
        if octetMax < num then some none
        else (oidOctets parts).map (·.map (UInt8.ofNat num.toNat :: ·))

/-- `_mac_from_oid_octets`. -/
def macFromOidOctets (parts : List Text) : Option (Option String) :=
  if parts.length ≠ macOctets then some none
  else (oidOctets C isDigit parts).map (·.bind fun raw =>
    normalizeMac T (some (String.ofList (colonHex raw))))

/-- One row of a table with one number for its index; the last row of an index stays. -/
def indexedStep {β : Type} (base : Text) (read : SnmpValue → Option β) (out : List (Int × β))
    (row : Text × SnmpValue) : Option (List (Int × β)) :=
  match suffixParts row.1 base with
  | some [part] =>
    if isDigits isDigit part then
      match read row.2 with
      | none => some out
      | some value =>
        (pyInt C part).map fun i => Table.upsert Prod.fst (fun _ new => new) (i, value) out
    else some out
  | _ => some out

/-- `lldp_loc_port_ifnames`. -/
def lldpLocPortIfnames (session : Session) : Option (List (Int × Text)) :=
  (session.walk lldpLocPortDesc walkRows).foldlM
    (indexedStep C isDigit lldpLocPortDesc (deviceIdText T isPrintable)) []

/-- `_read_port_ifindex`. -/
def readPortIfindex (session : Session) : Option (List (Int × Int)) :=
  (session.walk dot1dBasePortIfIndex walkRows).foldlM
    (indexedStep C isDigit dot1dBasePortIfIndex intOf) []

/-- The labels of the remote ports by their index. -/
def remPorts (session : Session) : List (Text × Text) :=
  (session.walk lldpRemPortId walkRows).foldl (fun out row =>
    match suffixParts row.1 lldpRemPortId, deviceIdText T isPrintable row.2 with
    | some suffix, some label =>
      Table.upsert Prod.fst (fun _ new => new) (['.'].intercalate suffix, label) out
    | _, _ => out) []

def lldpRow (nid : String) (locPorts : List (Int × Text)) (rem : List (Text × Text))
    (row : Text × SnmpValue) : Option (Option LinkEvidence) :=
  match suffixParts row.1 lldpRemChassisId with
  | none => some none
  | some parts =>
    if parts.length < lldpIdxMin then some none
    else match chassisId T isPrintable row.2 with
      | none => some none
      | some remote => (digitIndex C isDigit (parts.getD 1 [])).map fun localIf => some
        { a := nid, b := remote, source := "lldp", confidence := "high", localIf := localIf
          aPort := (localIf.bind fun i => locPorts.lookup i).map String.ofList
          bPort := (rem.lookup (['.'].intercalate parts)).map String.ofList
          portSpace := "lldp" }

/-- `collect_lldp`. -/
def collectLldp (nid : String) (session : Session) (locPorts : List (Int × Text)) :
    Option (List LinkEvidence) :=
  ((session.walk lldpRemChassisId walkRows).mapM
    (lldpRow T C isDigit isPrintable nid locPorts (remPorts T isPrintable session))).map
      List.reduceOption

def cdpRow (nid : String) (row : Text × SnmpValue) : Option (Option LinkEvidence) :=
  match suffixParts row.1 cdpCacheDeviceId with
  | none => some none
  | some parts =>
    if parts.length < cdpIdxMin then some none
    else match deviceIdText T isPrintable row.2 with
      | none => some none
      | some remote => (digitIndex C isDigit (parts.getD 0 [])).map fun localIf => some
        { a := nid, b := String.ofList remote, source := "cdp", confidence := "high"
          localIf := localIf }

/-- `collect_cdp`. -/
def collectCdp (nid : String) (session : Session) : Option (List LinkEvidence) :=
  ((session.walk cdpCacheDeviceId walkRows).mapM
    (cdpRow T C isDigit isPrintable nid)).map List.reduceOption

/-! ### The forwarding tables -/

/-- `port_macs[port].add(mac)`. -/
def addMac (port : Int) (mac : String) (portMacs : List (Int × Finset String)) :
    List (Int × Finset String) :=
  Table.upsert Prod.fst (fun old new => (old.1, old.2 ∪ new.2)) (port, {mac}) portMacs

/-- The address and the port that a row names; ports begin at 1. -/
def learned (mac : Option String) (value : SnmpValue) : Option (String × Int) :=
  match mac, intOf value with
  | some mac, some port => if port < 1 then none else some (mac, port)
  | _, _ => none

def fdbStep (portMacs : List (Int × Finset String)) (row : Text × SnmpValue) :
    Option (List (Int × Finset String)) :=
  match suffixParts row.1 dot1dTpFdbPort with
  | none => some portMacs
  | some parts => (macFromOidOctets T C isDigit parts).map fun mac =>
    match learned mac row.2 with
    | none => portMacs
    | some (mac, port) => addMac port mac portMacs

/-- `read_fdb`. -/
def readFdb (session : Session) : Option (List (Int × Finset String) × List (Int × Int)) := do
  let portMacs ← (session.walk dot1dTpFdbPort walkRows).foldlM (fdbStep T C isDigit) []
  let portIf ← readPortIfindex C isDigit session
  return (portMacs, portIf)

/-- What is read of a VLAN table: the addresses by port, and the last VLAN of each address. -/
structure VlanFdb where
  portMacs : List (Int × Finset String) := []
  macVlan : List (String × Int) := []

def vlanFdbStep (out : VlanFdb) (row : Text × SnmpValue) : Option VlanFdb :=
  match suffixParts row.1 dot1qTpFdbPort with
  | none => some out
  | some parts =>
    if parts.length < 1 + macOctets ∨ ¬ isDigits isDigit (parts.getD 0 []) then some out
    else do
      let mac ← macFromOidOctets T C isDigit ((parts.drop 1).take macOctets)
      match learned mac row.2 with
      | none => return out
      | some (mac, port) =>
        let vlan ← pyInt C (parts.getD 0 [])
        return { portMacs := addMac port mac out.portMacs
                 macVlan := Table.upsert Prod.fst (fun _ new => new) (mac, vlan) out.macVlan }

/-- `read_fdb_dot1q`. -/
def readFdbDot1q (session : Session) : Option VlanFdb :=
  (session.walk dot1qTpFdbPort walkRows).foldlM (vlanFdbStep T C isDigit) {}

/-- `_own_macs`. -/
def ownMacs (mac : Option String) (physMacs : List (Option String)) : Finset String :=
  ((mac :: physMacs).filterMap (normalizeMac T)).toFinset

variable (order : Lib.SetOrder String)

/-- `replace(e, vlan=mac_vlan[e.b]) if e.b in mac_vlan else e`. -/
def tagVlan (macVlan : List (String × Int)) (e : LinkEvidence) : LinkEvidence :=
  match macVlan.lookup e.b with
  | some vlan => { e with vlan := some vlan }
  | none => e

/-- The edges of `collect_evidence`: those of the VLAN table if it has any row, with the VLAN of
    each address, and those of the plain table otherwise. -/
def fdbEvidence (V : SwitchView) (session : Session) : Option (List LinkEvidence) := do
  let fdb ← readFdbDot1q T C isDigit session
  if fdb.portMacs ≠ [] then
    let portIf ← readPortIfindex C isDigit session
    return (inferEdges C { V with portIfindex := portIf } order fdb.portMacs).map
      (tagVlan fdb.macVlan)
  else
    let (portMacs, portIf) ← readFdb T C isDigit session
    return inferEdges C { V with portIfindex := portIf } order portMacs

/-- `collect_evidence`. -/
def collectEvidence (V : SwitchView) (session : Session) : Option (List LinkEvidence) := do
  let locPorts ← lldpLocPortIfnames T C isDigit isPrintable session
  let lldp ← collectLldp T C isDigit isPrintable V.nid session locPorts
  let cdp ← collectCdp T C isDigit isPrintable V.nid session
  let edges ← fdbEvidence T C isDigit order V session
  return lldp ++ cdp ++ edges

end Code

/-! ### Indices -/

theorem suffixParts_append (base rest : Text) :
    suffixParts (base ++ '.' :: rest) base = some (rest.splitOn '.') := by
  unfold suffixParts
  have hprefix : (base ++ ['.']).isPrefixOf (base ++ '.' :: rest) = true := by
    rw [List.isPrefixOf_iff_prefix]
    exact ⟨rest, by simp⟩
  rw [if_pos hprefix]
  simp

section Digits

variable {T : PyText} {C : PyChars} {isDigit : Char → Bool}

theorem isDigits_toDigits (hdigit : ∀ c, c.isDigit = true → isDigit c = true) (n : Nat) :
    isDigits isDigit (Nat.toDigits 10 n) = true := by
  unfold isDigits
  rw [Bool.and_eq_true, decide_eq_true_eq, List.all_eq_true]
  exact ⟨Nat.toDigits_ne_nil, fun c hc =>
    hdigit c (Nat.isDigit_of_mem_toDigits (by decide) (by decide) hc)⟩

theorem pyInt_index (hC : C.ReadsDigits) {n : Nat} (hn : n < 2 ^ 32) :
    pyInt C (Nat.toDigits 10 n) = some (n : Int) := by
  rw [pyInt_toDigits hC, if_neg]
  rw [not_lt]
  have hlength : (Nat.toDigits 10 n).length ≤ 10 := by
    rw [Nat.length_toDigits_le_iff (by decide) (by decide)]
    omega
  exact hlength.trans (by decide)

theorem oidOctets_toDigits (hC : C.ReadsDigits)
    (hdigit : ∀ c, c.isDigit = true → isDigit c = true) (raw : Bytes) :
    oidOctets C isDigit (raw.map fun b => Nat.toDigits 10 b.toNat) = some (some raw) := by
  induction raw with
  | nil => rfl
  | cons b raw ih =>
    have hb := b.toNat_lt
    have hnum : pyInt C (Nat.toDigits 10 b.toNat) = some (b.toNat : Int) :=
      pyInt_index hC (by omega)
    have hoctet : ¬ octetMax < (b.toNat : Int) := by
      unfold octetMax
      omega
    rw [List.map_cons, oidOctets, if_neg (by simp [isDigits_toDigits hdigit]), hnum]
    simp only [if_neg hoctet, ih]
    simp

theorem macFromOidOctets_toDigits (hT : T.UppersHex) (hC : C.ReadsDigits)
    (hdigit : ∀ c, c.isDigit = true → isDigit c = true) {raw : Bytes}
    (hraw : raw.length = macOctets) :
    macFromOidOctets T C isDigit (raw.map fun b => Nat.toDigits 10 b.toNat) =
      some (some (macForm raw)) := by
  unfold macFromOidOctets
  rw [if_neg (by simpa using hraw), oidOctets_toDigits hC hdigit]
  simp [normalizeMac_colonHex hT hraw]

end Digits

/-! ### Group addresses -/

section Group

variable {C : PyChars}

/-- The database knows the digits, and no capital letter of hexadecimal is a blank. -/
structure ReadsHex (C : PyChars) : Prop where
  digits : C.ReadsDigits
  letters : ∀ c ∈ ['A', 'B', 'C', 'D', 'E', 'F'], C.isSpace c = false

theorem upper_digit : ∀ n < 10, (Nat.digitChar n).toUpper.isDigit = true ∧
    (Nat.digitChar n).toUpper.toNat - '0'.toNat = n ∧
    ¬ ('a' ≤ (Nat.digitChar n).toUpper ∧ (Nat.digitChar n).toUpper ≤ 'f') ∧
    ¬ ('A' ≤ (Nat.digitChar n).toUpper ∧ (Nat.digitChar n).toUpper ≤ 'F') := by
  decide

theorem upper_letter : ∀ n < 16, 10 ≤ n →
    (Nat.digitChar n).toUpper ∈ ['A', 'B', 'C', 'D', 'E', 'F'] ∧
    (Nat.digitChar n).toUpper.toNat - 'A'.toNat + 10 = n ∧
    ¬ ('a' ≤ (Nat.digitChar n).toUpper ∧ (Nat.digitChar n).toUpper ≤ 'f') ∧
    ('A' ≤ (Nat.digitChar n).toUpper ∧ (Nat.digitChar n).toUpper ≤ 'F') := by
  decide

theorem upper_no_sign : ∀ n < 16, (Nat.digitChar n).toUpper ∉ ['-', '+', '_', 'x', 'X'] := by
  decide

theorem hexDigit_upper (hC : ReadsHex C) {n : Nat} (hn : n < 16) :
    hexDigit C (Nat.digitChar n).toUpper = some n ∧
      C.isSpace (Nat.digitChar n).toUpper = false := by
  unfold hexDigit
  by_cases hten : n < 10
  · obtain ⟨hdigit, hvalue, hlow, hup⟩ := upper_digit n hten
    obtain ⟨hdecimal, hspace⟩ := hC.digits _ hdigit
    rw [if_neg hlow, if_neg hup, hdecimal, hvalue]
    exact ⟨rfl, hspace⟩
  · obtain ⟨hletter, hvalue, hlow, hup⟩ := upper_letter n hn (by omega)
    rw [if_neg hlow, if_pos hup, hvalue]
    exact ⟨rfl, hC.letters _ hletter⟩

/-- The two capital digits of an octet read back. -/
theorem pyIntHex_upperHex (hC : ReadsHex C) (b : UInt8) :
    pyIntHex C (upperHex b) = some (b.toNat : Int) := by
  have hb := b.toNat_lt
  have hhigh : b.toNat / 16 < 16 := by omega
  have hlow : b.toNat % 16 < 16 := Nat.mod_lt _ (by decide)
  obtain ⟨hdigit, hspace⟩ := hexDigit_upper hC hhigh
  obtain ⟨hdigit', hspace'⟩ := hexDigit_upper hC hlow
  have hsign := upper_no_sign _ hhigh
  have hsign' := upper_no_sign _ hlow
  have hvalue : b.toNat / 16 * 16 + b.toNat % 16 = b.toNat := by omega
  unfold upperHex hexText
  rw [List.map_cons, List.map_cons, List.map_nil]
  generalize (Nat.digitChar (b.toNat / 16)).toUpper = c at *
  generalize (Nat.digitChar (b.toNat % 16)).toUpper = d at *
  simp only [List.mem_cons, List.not_mem_nil, or_false, not_or] at hsign hsign'
  have hrun : digitRun (hexDigit C) 16 false 0 [c, d] = some b.toNat := by
    simp [digitRun, hsign.2.2.1, hsign'.2.2.1, hdigit, hdigit', hvalue]
  have hbody : hexBody C [c, d] = some b.toNat := by
    unfold hexBody
    dsimp only
    split
    · rename_i heq
      simp at heq
    · rename_i x t _ heq
      obtain ⟨rfl, rfl, rfl⟩ : c = '0' ∧ d = x ∧ t = [] := by simpa using heq
      rw [if_neg (by simp [hsign'])]
      exact hrun
    · exact hrun
  unfold pyIntHex
  rw [Lib.PyInt.strip_eq_self (by simp [hspace, hspace'])]
  unfold signed
  split
  · rename_i heq
    exact absurd (List.cons.inj heq).1 hsign.1
  · rename_i heq
    exact absurd (List.cons.inj heq).1 hsign.2.1
  · rw [hbody]
    rfl

theorem isMulticast_macForm (hC : ReadsHex C) {raw : Bytes} (hraw : raw ≠ []) :
    isMulticast C (macForm raw) = decide ((raw.headD 0).toNat % 2 = 1) := by
  obtain ⟨b, rest, rfl⟩ := List.exists_cons_of_ne_nil hraw
  have htake : (macForm (b :: rest)).toList.take 2 = upperHex b := by
    unfold macForm
    rw [String.toList_ofList]
    cases rest with
    | nil => rfl
    | cons b' rest =>
      rw [List.map_cons, List.intercalate_cons_of_ne_nil (by simp)]
      rfl
  unfold isMulticast
  rw [htake, pyIntHex_upperHex hC]
  change decide ((b.toNat : Int) % 2 = 1) = decide (b.toNat % 2 = 1)
  rw [decide_eq_decide]
  omega

end Group

/-! ### A switch that answers with its tables -/

/-- An entry of the VLAN forwarding table: the address was learned at the port. -/
structure FdbEntry where
  vlan : Nat
  mac : Bytes
  port : Int

/-- The row of the entry: VLAN and address in the index, the port as the value. -/
def FdbEntry.row (e : FdbEntry) : Text × SnmpValue :=
  (dot1qTpFdbPort ++ '.' :: Lib.dotted (e.vlan :: e.mac.map UInt8.toNat), .int e.port)

/-- The tables of a switch; `ports` numbers the interfaces of its bridge ports. -/
structure Bridge where
  entries : List FdbEntry
  ports : List (Nat × Int)
  macs : ∀ e ∈ entries, e.mac.length = macOctets
  vlans : ∀ e ∈ entries, e.vlan < 2 ^ 32
  portNumbers : ∀ p ∈ ports, p.1 < 2 ^ 32
  portsNodup : (ports.map Prod.fst).Nodup

/-- The session answers the two walks with the tables of the switch. -/
structure Bridge.Answers (B : Bridge) (session : Session) : Prop where
  fdb : session.walk dot1qTpFdbPort walkRows = B.entries.map FdbEntry.row
  ports : session.walk dot1dBasePortIfIndex walkRows =
    B.ports.map fun p => (dot1dBasePortIfIndex ++ '.' :: Lib.dotted [p.1], .int p.2)

/-- The entries at real ports. -/
def Bridge.learned (B : Bridge) : List FdbEntry := B.entries.filter fun e => 1 ≤ e.port

/-- The hosts behind a port: their addresses are no group addresses, and not the switch's own. -/
def Bridge.hosts (B : Bridge) (own : Finset String) (port : Int) : Finset String :=
  ((B.learned.filter fun e => e.port = port ∧ (e.mac.headD 0).toNat % 2 = 0 ∧
    macForm e.mac ∉ own).map fun e => macForm e.mac).toFinset

/-- The VLAN of the last entry for the address. -/
def Bridge.lastVlan (B : Bridge) (mac : String) : Option Int :=
  ((B.learned.filter fun e => macForm e.mac = mac).getLast?).map fun e => e.vlan

def Bridge.portIfindex (B : Bridge) : List (Int × Int) := B.ports.map fun p => ((p.1 : Int), p.2)

/-! ### Reading the tables back -/

section Reading

variable {T : PyText} {C : PyChars} {isDigit : Char → Bool} {B : Bridge} {session : Session}

/-- What an entry does to what was read before it. -/
def VlanFdb.learn (out : VlanFdb) (e : FdbEntry) : VlanFdb :=
  { portMacs := addMac e.port (macForm e.mac) out.portMacs
    macVlan := Table.upsert Prod.fst (fun _ new => new) (macForm e.mac, (e.vlan : Int)) out.macVlan }

theorem vlanFdbStep_row (hT : T.UppersHex) (hC : C.ReadsDigits)
    (hdigit : ∀ c, c.isDigit = true → isDigit c = true) {e : FdbEntry}
    (hmac : e.mac.length = macOctets) (hvlan : e.vlan < 2 ^ 32) (out : VlanFdb) :
    vlanFdbStep T C isDigit out e.row = some (if 1 ≤ e.port then out.learn e else out) := by
  have hparts : (e.vlan :: e.mac.map UInt8.toNat).map (Nat.toDigits 10) =
      Nat.toDigits 10 e.vlan :: e.mac.map fun b => Nat.toDigits 10 b.toNat := by
    simp [Function.comp_def]
  have hlength : (e.mac.map fun b => Nat.toDigits 10 b.toNat).length = macOctets := by
    rw [List.length_map, hmac]
  unfold vlanFdbStep FdbEntry.row
  rw [suffixParts_append, Lib.splitOn_dotted (by simp), hparts]
  dsimp only
  rw [if_neg]
  · rw [List.drop_one, List.tail_cons, List.take_of_length_le hlength.le,
      macFromOidOctets_toDigits hT hC hdigit hmac]
    by_cases hport : 1 ≤ e.port
    · simp only [Option.bind_eq_bind, Option.bind_some, Netdisco.learned, intOf,
        if_neg (not_lt.mpr hport), if_pos hport, List.getD_cons_zero, pyInt_index hC hvlan]
      rfl
    · simp only [Option.bind_eq_bind, Option.bind_some, Netdisco.learned, intOf,
        if_pos (not_le.mp hport), if_neg hport]
      rfl
  · rw [not_or, not_not, List.getD_cons_zero, isDigits_toDigits hdigit, List.length_cons, hlength]
    exact ⟨by omega, rfl⟩

theorem readFdbDot1q_eq (hT : T.UppersHex) (hC : C.ReadsDigits)
    (hdigit : ∀ c, c.isDigit = true → isDigit c = true) (h : B.Answers session) :
    readFdbDot1q T C isDigit session = some (B.learned.foldl VlanFdb.learn {}) := by
  unfold readFdbDot1q Bridge.learned
  rw [h.fdb]
  have hfold : ∀ (entries : List FdbEntry) (out : VlanFdb), (∀ e ∈ entries, e ∈ B.entries) →
      (entries.map FdbEntry.row).foldlM (vlanFdbStep T C isDigit) out =
        some ((entries.filter fun e => 1 ≤ e.port).foldl VlanFdb.learn out) := by
    intro entries
    induction entries with
    | nil => intro out _; rfl
    | cons e entries ih =>
      intro out hmem
      have he := hmem e List.mem_cons_self
      rw [List.map_cons, List.foldlM_cons, vlanFdbStep_row hT hC hdigit (B.macs e he) (B.vlans e he)]
      by_cases hport : 1 ≤ e.port
      · rw [if_pos hport, List.filter_cons_of_pos (by simpa using hport)]
        exact ih _ fun x hx => hmem x (List.mem_cons_of_mem e hx)
      · rw [if_neg hport, List.filter_cons_of_neg (by simpa using hport)]
        exact ih _ fun x hx => hmem x (List.mem_cons_of_mem e hx)
  exact hfold B.entries {} fun e he => he

/-- The addresses learned at a port. -/
def macsAt (entries : List FdbEntry) (port : Int) : Finset String :=
  ((entries.filter fun e => e.port = port).map fun e => macForm e.mac).toFinset

theorem macsAt_concat (entries : List FdbEntry) (e : FdbEntry) (port : Int) :
    macsAt (entries ++ [e]) port =
      if port = e.port then macsAt entries port ∪ {macForm e.mac} else macsAt entries port := by
  unfold macsAt
  rw [List.filter_append]
  by_cases hport : port = e.port
  · simp [hport, List.toFinset_append]
  · simp [hport, Ne.symm hport]

/-- The row of a port, after some entries. -/
theorem row_portMacs (entries : List FdbEntry) (port : Int) :
    Table.row Prod.fst (entries.foldl VlanFdb.learn {}).portMacs port =
      if macsAt entries port = ∅ then none else some (port, macsAt entries port) := by
  induction entries using List.reverseRecOn with
  | nil => rfl
  | append_singleton entries e ih =>
    rw [List.foldl_append, macsAt_concat]
    change Table.row Prod.fst (addMac e.port (macForm e.mac) _) port = _
    unfold addMac
    rw [Table.row_upsert fun old h => h]
    dsimp only
    by_cases hport : port = e.port
    · have hne : macsAt entries port ∪ {macForm e.mac} ≠ ∅ := by simp
      rw [if_pos hport, if_pos hport, ← hport, ih, if_neg hne]
      by_cases hempty : macsAt entries port = ∅
      · simp [hempty]
      · simp [if_neg hempty]
    · rw [if_neg hport, if_neg hport, ih]

theorem nodup_portMacs (entries : List FdbEntry) :
    ((entries.foldl VlanFdb.learn {}).portMacs.map Prod.fst).Nodup := by
  induction entries using List.reverseRecOn with
  | nil => exact List.nodup_nil
  | append_singleton entries e ih =>
    rw [List.foldl_append]
    exact Table.nodup_keys_upsert (fun old h => h) ih

theorem mem_portMacs {entries : List FdbEntry} {row : Int × Finset String} :
    row ∈ (entries.foldl VlanFdb.learn {}).portMacs ↔
      row.2 = macsAt entries row.1 ∧ macsAt entries row.1 ≠ ∅ := by
  have hrow := row_portMacs entries row.1
  constructor
  · intro hmem
    rw [Table.row_of_mem (nodup_portMacs entries) hmem] at hrow
    split at hrow
    · cases hrow
    · rename_i hne
      exact ⟨congrArg Prod.snd (Option.some.inj hrow), hne⟩
  · rintro ⟨hmacs, hne⟩
    rw [if_neg hne] at hrow
    have hmem := (Table.row_eq_some hrow).1
    rwa [← hmacs] at hmem

/-- The VLAN that is kept for an address is that of its last entry. -/
theorem lookup_macVlan (entries : List FdbEntry) (mac : String) :
    (entries.foldl VlanFdb.learn {}).macVlan.lookup mac =
      ((entries.filter fun e => macForm e.mac = mac).getLast?).map fun e => (e.vlan : Int) := by
  rw [Table.lookup_eq_row]
  induction entries using List.reverseRecOn with
  | nil => rfl
  | append_singleton entries e ih =>
    rw [List.foldl_append, List.filter_append]
    change (Table.row Prod.fst (Table.upsert Prod.fst (fun _ new => new)
      (macForm e.mac, (e.vlan : Int)) _) mac).map Prod.snd = _
    rw [Table.row_upsert fun old h => rfl]
    dsimp only
    by_cases hmac : mac = macForm e.mac
    · rw [if_pos hmac, List.filter_cons_of_pos (by simp [hmac])]
      cases Table.row Prod.fst (entries.foldl VlanFdb.learn {}).macVlan mac with
      | none => simp
      | some old => simp
    · rw [if_neg hmac, ih, List.filter_cons_of_neg (by simpa using Ne.symm hmac)]
      simp

theorem readPortIfindex_eq (hC : C.ReadsDigits)
    (hdigit : ∀ c, c.isDigit = true → isDigit c = true) (h : B.Answers session) :
    readPortIfindex C isDigit session = some B.portIfindex := by
  unfold readPortIfindex
  rw [h.ports]
  have hstep : ∀ (p : Nat × Int) (out : List (Int × Int)), p.1 < 2 ^ 32 →
      indexedStep C isDigit dot1dBasePortIfIndex intOf out
        (dot1dBasePortIfIndex ++ '.' :: Lib.dotted [p.1], .int p.2) =
        some (Table.upsert Prod.fst (fun _ new => new) ((p.1 : Int), p.2) out) := by
    intro p out hp
    unfold indexedStep
    rw [suffixParts_append, Lib.splitOn_dotted (by simp)]
    simp [isDigits_toDigits hdigit, pyInt_index hC hp, intOf]
  have hfold : ∀ (ports : List (Nat × Int)) (out : List (Int × Int)),
      (∀ p ∈ ports, p.1 < 2 ^ 32) →
      (ports.map fun p => (dot1dBasePortIfIndex ++ '.' :: Lib.dotted [p.1], SnmpValue.int p.2)).foldlM
        (indexedStep C isDigit dot1dBasePortIfIndex intOf) out =
        some (Table.upsertAll Prod.fst (fun _ new => new)
          (ports.map fun p => ((p.1 : Int), p.2)) out) := by
    intro ports
    induction ports with
    | nil => intro out _; rfl
    | cons p ports ih =>
      intro out hports
      rw [List.map_cons, List.foldlM_cons, hstep p out (hports p List.mem_cons_self)]
      exact ih _ fun q hq => hports q (List.mem_cons_of_mem p hq)
  rw [hfold B.ports [] B.portNumbers, Table.upsertAll_of_fresh]
  · rfl
  · have hkeys := B.portsNodup.map (f := fun n : Nat => (n : Int)) Nat.cast_injective
    simpa [Function.comp_def] using hkeys

theorem hostMacs_macsAt (hC : ReadsHex C) (V : SwitchView) (port : Int) :
    hostMacs C V (macsAt B.learned port) = B.hosts V.ownMacs port := by
  ext mac
  unfold hostMacs macsAt Bridge.hosts
  rw [Finset.mem_filter, List.mem_toFinset, List.mem_toFinset, List.mem_map, List.mem_map]
  have hgroup : ∀ e ∈ B.learned, (isMulticast C (macForm e.mac) = false ↔
      (e.mac.headD 0).toNat % 2 = 0) := by
    intro e he
    have hraw : e.mac ≠ [] := by
      intro hnil
      have hlength := B.macs e (List.mem_of_mem_filter he)
      rw [hnil] at hlength
      exact absurd hlength (by decide)
    rw [isMulticast_macForm hC hraw, decide_eq_false_iff_not]
    omega
  constructor
  · rintro ⟨⟨e, he, rfl⟩, hmulti, hown⟩
    obtain ⟨hmem, hport⟩ := List.mem_filter.mp he
    refine ⟨e, List.mem_filter.mpr ⟨hmem, decide_eq_true ⟨of_decide_eq_true hport, ?_, hown⟩⟩, rfl⟩
    exact (hgroup e hmem).mp hmulti
  · rintro ⟨e, he, rfl⟩
    obtain ⟨hmem, hcond⟩ := List.mem_filter.mp he
    obtain ⟨hport, heven, hown⟩ := of_decide_eq_true hcond
    exact ⟨⟨e, List.mem_filter.mpr ⟨hmem, decide_eq_true hport⟩, rfl⟩,
      (hgroup e hmem).mpr heven, hown⟩

theorem tagVlan_fdbClaim (V : SwitchView) (source confidence : String) (port : Int)
    (mac : String) : tagVlan (B.learned.foldl VlanFdb.learn {}).macVlan
      (fdbClaim V source confidence port mac) =
        { fdbClaim V source confidence port mac with vlan := B.lastVlan mac } := by
  have hlookup := lookup_macVlan B.learned mac
  change _ = B.lastVlan mac at hlookup
  have hb : (fdbClaim V source confidence port mac).b = mac := rfl
  unfold tagVlan
  rw [hb, hlookup]
  cases B.lastVlan mac with
  | none => rfl
  | some vlan => rfl

end Reading

/-- **A switch that answers with its forwarding table.**  The evidence made of the answers is what
    the hosts behind each port say, each address with the interface of its port and with the VLAN
    of its last entry.  The hosts are told from the octets: no group addresses, and none of the
    switch's own. -/
theorem fdb_evidence {T : PyText} (hT : T.UppersHex) {C : PyChars} (hC : ReadsHex C)
    {isDigit : Char → Bool} (hdigit : ∀ c, c.isDigit = true → isDigit c = true)
    (order : Lib.SetOrder String) (V : SwitchView) (B : Bridge) (session : Session)
    (h : B.Answers session) (hlearned : B.learned ≠ []) :
    ∃ es, fdbEvidence T C isDigit order V session = some es ∧ ∀ e, e ∈ es ↔
      ∃ port mac source confidence, Says V.infraMacs (B.hosts V.ownMacs port) mac source confidence ∧
        e = { fdbClaim { V with portIfindex := B.portIfindex } source confidence port mac with
              vlan := B.lastVlan mac } := by
  have hfull : (B.learned.foldl VlanFdb.learn {}).portMacs ≠ [] := by
    obtain ⟨e, rest, hsplit⟩ := List.exists_cons_of_ne_nil hlearned
    have hmem : macForm e.mac ∈ macsAt B.learned e.port := by
      unfold macsAt
      rw [List.mem_toFinset]
      exact List.mem_map.mpr ⟨e, List.mem_filter.mpr ⟨by simp [hsplit], by simp⟩, rfl⟩
    have hrow : (e.port, macsAt B.learned e.port) ∈
        (B.learned.foldl VlanFdb.learn {}).portMacs :=
      mem_portMacs.mpr ⟨rfl, Finset.ne_empty_of_mem hmem⟩
    exact List.ne_nil_of_mem hrow
  have heq : fdbEvidence T C isDigit order V session =
      some ((inferEdges C { V with portIfindex := B.portIfindex } order
        (B.learned.foldl VlanFdb.learn {}).portMacs).map
          (tagVlan (B.learned.foldl VlanFdb.learn {}).macVlan)) := by
    unfold fdbEvidence
    rw [readFdbDot1q_eq hT hC.digits hdigit h, readPortIfindex_eq hC.digits hdigit h]
    simp only [Option.bind_eq_bind, Option.bind_some]
    rw [if_pos hfull]
    rfl
  refine ⟨_, heq, fun e => ?_⟩
  rw [List.mem_map]
  constructor
  · rintro ⟨e, he, rfl⟩
    obtain ⟨row, hrow, mac, source, confidence, hsays, rfl⟩ := mem_inferEdges.mp he
    rw [(mem_portMacs.mp hrow).1, hostMacs_macsAt hC] at hsays
    exact ⟨row.1, mac, source, confidence, hsays, tagVlan_fdbClaim _ _ _ _ _⟩
  · rintro ⟨port, mac, source, confidence, hsays, rfl⟩
    have hmem : mac ∈ hostMacs C { V with portIfindex := B.portIfindex }
        (macsAt B.learned port) := by
      rw [hostMacs_macsAt hC]
      exact hsays.mem
    have hrow : (port, macsAt B.learned port) ∈
        (B.learned.foldl VlanFdb.learn {}).portMacs :=
      mem_portMacs.mpr ⟨rfl, Finset.ne_empty_of_mem (Finset.mem_of_mem_filter mac hmem)⟩
    refine ⟨_, mem_inferEdges.mpr ⟨_, hrow, mac, source, confidence, ?_, rfl⟩,
      tagVlan_fdbClaim _ _ _ _ _⟩
    rw [hostMacs_macsAt hC]
    exact hsays

/-! ### A switch with one host -/

theorem readsHex_ascii : ReadsHex PyChars.ascii where
  digits := readsDigits_ascii
  letters := by simp [PyChars.ascii]

private def deskMac : Bytes := [0x00, 0x1A, 0x2B, 0x3C, 0x4D, 0x5E]

private def deskBridge : Bridge where
  entries := [{ vlan := 10, mac := deskMac, port := 3 },
    { vlan := 10, mac := [0x01, 0x00, 0x5E, 0x00, 0x00, 0x01], port := 3 }]
  ports := [(3, 10103)]
  macs := by decide
  vlans := by decide
  portNumbers := by decide
  portsNodup := by decide

private def deskSession : Session where
  walk base _ :=
    if base = dot1qTpFdbPort then deskBridge.entries.map FdbEntry.row
    else deskBridge.ports.map fun p => (dot1dBasePortIfIndex ++ '.' :: Lib.dotted [p.1], .int p.2)

theorem fdb_evidence_desk :
    ∃ es, fdbEvidence (.ascii fun _ => none) .ascii Char.isDigit (.sorted (.refl String))
        { nid := "nd-chassis-SW1" } deskSession = some es ∧
      { a := "nd-chassis-SW1", b := macForm deskMac, source := "fdb_edge", confidence := "high",
        localIf := some 10103, vlan := some 10 : LinkEvidence } ∈ es := by
  have hbases : dot1dBasePortIfIndex ≠ dot1qTpFdbPort := by decide
  have hwalk : ∀ base maxRows, deskSession.walk base maxRows =
      if base = dot1qTpFdbPort then deskBridge.entries.map FdbEntry.row
      else deskBridge.ports.map fun p => (dot1dBasePortIfIndex ++ '.' :: Lib.dotted [p.1], .int p.2) :=
    fun _ _ => rfl
  have hanswers : deskBridge.Answers deskSession := {
    fdb := (hwalk _ _).trans (if_pos rfl)
    ports := (hwalk _ _).trans (if_neg hbases) }
  have hlearned : deskBridge.learned ≠ [] := by decide
  have hT : (PyText.ascii fun _ => none).UppersHex := ⟨rfl, by decide⟩
  obtain ⟨es, heq, hmem⟩ := fdb_evidence hT readsHex_ascii (fun _ h => h)
    (.sorted (.refl String)) { nid := "nd-chassis-SW1" } deskBridge deskSession hanswers hlearned
  refine ⟨es, heq, (hmem _).mpr ⟨3, macForm deskMac, _, _, .edge ?_ (Finset.notMem_empty _), ?_⟩⟩
  · decide
  · decide

end Srp.Netdisco
