/-
  Srp/Netdisco/Passive.lean
  =========================
  **The mDNS parser** (`server/netdisco/passive.py`) and the captures it is given
  by the agents (`client/collectors/lan_discovery.py`).

  `_read_name` follows labels and pointers as long as there are octets, however
  few of a label there are, and says where the next field begins only at a root
  or at a pointer.  Names are decoded as ASCII, so that case is that of ASCII.
-/
import Srp.Lib.DnsName
import Srp.Lib.PyDecode

namespace Srp.Netdisco

open Srp.Lib Srp.Lib.Lines Srp.Lib.Octets Srp.Lib.PyDecode Srp.Lib.DnsName

structure PassiveHint where
  ip : Text
  source : Text
  hostname : Option Text
  subtype : Option Text
  model : Option Text
deriving DecidableEq, Repr

/-! ### `_clean_host` -/

/-- `t.lower()`, on ASCII. -/
def lower (t : Text) : Text := t.map Char.toLower

/-- `_MAX_NAME`. -/
def maxName : Nat := 253

/-- `name.strip().rstrip(".")`. -/
def strippedHost (name : Text) : Text :=
  ((((name.dropWhile isSpaceChar).reverse.dropWhile isSpaceChar).dropWhile (· = '.'))).reverse

/-- `c.isalnum() or c in "-._"`, on ASCII. -/
def isHostChar (c : Char) : Bool := c.isAlphanum || c ∈ ['-', '.', '_']

/-- `_clean_host`. -/
def cleanHost (name : Text) : Option Text :=
  let host := strippedHost name
  if host = [] ∨ maxName < host.length ∨ '*' ∈ host then none
  else if host.all isHostChar then some host
  else none

/-! ### `_read_name` -/

/-- `int.from_bytes(data[off : off + 2], "big")`. -/
def u16 (data : Bytes) (off : Nat) : Nat := ofOctets (slice data off 2)

/-- `while hops < 32 and 0 <= cur < len(data)`: the labels, and where the next field begins. -/
def readNameLoop (data : Bytes) :
    Nat → Nat → Nat → Bool → Nat → List Text → List Text × Nat
  | 0, _, _, _, nextOff, labels => (labels, nextOff)
  | fuel + 1, cur, hops, jumped, nextOff, labels =>
    if hops < 32 then
      match data[cur]? with
      | none => (labels, nextOff)
      | some length =>
        if length = 0 then (labels, if jumped then nextOff else cur + 1)
        else if length &&& 0xC0 = 0xC0 then
          match data[cur + 1]? with
          | none => (labels, nextOff)
          | some low =>
            readNameLoop data fuel (pointerOf length low) (hops + 1) true
              (if jumped then nextOff else cur + 2) labels
        else readNameLoop data fuel (cur + 1 + length.toNat) hops jumped nextOff
          (labels ++ [decodeAscii (slice data (cur + 1) length.toNat)])
    else (labels, nextOff)

/-- `".".join(labels)`. -/
def dotted (labels : List Text) : Text := ['.'].intercalate labels

/-- `_read_name`. -/
def readName (data : Bytes) (off : Nat) : Text × Nat :=
  let (labels, nextOff) := readNameLoop data (33 * (data.length + 1)) off 0 false off []
  (dotted labels, nextOff)

/-! ### `parse_mdns` -/

/-- `_MDNS_SERVICE_SUBTYPE`. -/
def mdnsServiceSubtype : List (Text × Text) :=
  [("_ipp".toList, "printer".toList), ("_ipps".toList, "printer".toList),
   ("_printer".toList, "printer".toList), ("_pdl-datastream".toList, "printer".toList),
   ("_scanner".toList, "printer".toList), ("_uscan".toList, "printer".toList),
   ("_airplay".toList, "media".toList), ("_raop".toList, "media".toList),
   ("_googlecast".toList, "media".toList), ("_spotify-connect".toList, "media".toList),
   ("_smb".toList, "workstation".toList), ("_workstation".toList, "workstation".toList),
   ("_afpovertcp".toList, "workstation".toList), ("_device-info".toList, "workstation".toList)]

/-- `_MDNS_RESERVED_LABELS`. -/
def mdnsReservedLabels : List Text :=
  ["_services".toList, "_tcp".toList, "_udp".toList, "_dns-sd".toList, "local".toList]

/-- The loop over the questions. -/
def readQuestions (data : Bytes) : Nat → Nat → List Text × Nat
  | 0, off => ([], off)
  | n + 1, off =>
    let (name, off) := readName data off
    let (names, off) := readQuestions data n (off + 4)
    (name :: names, off)

/-- The rdata of PTR and of SRV records holds a name, behind so many octets. -/
def targetOffset (rtype : Nat) : Option Nat :=
  if rtype = 12 then some 0 else if rtype = 33 then some 6 else none

/-- The name in the rdata, unless it is empty. -/
def readTarget (data : Bytes) (rtype off : Nat) : List Text :=
  match targetOffset rtype with
  | none => []
  | some k => if (readName data (off + k)).1 = [] then [] else [(readName data (off + k)).1]

/-- The loop over the records of all three sections. -/
def readRecords (data : Bytes) : Nat → Nat → List Text
  | 0, _ => []
  | n + 1, off =>
    let (name, off) := readName data off
    let rtype := u16 data off
    let rdlen := u16 data (off + 8)
    name :: (readTarget data rtype (off + 10) ++ readRecords data n (off + 10 + rdlen))

def questionCount (data : Bytes) : Nat := u16 data 4

def recordCount (data : Bytes) : Nat := u16 data 6 + u16 data 8 + u16 data 10

def readNames (data : Bytes) : List Text :=
  let (names, off) := readQuestions data (questionCount data) 12
  names ++ readRecords data (recordCount data) off

/-- The first entry of the table whose token is a label of the name. -/
def serviceOf (nm : Text) : Option Text :=
  mdnsServiceSubtype.findSome? fun entry =>
    if entry.1 ∈ (lower nm).splitOn '.' then some entry.2 else none

/-- The host of a name of two labels under `local`. -/
def hostOf (nm : Text) : Option Text :=
  if ".local".toList <:+ lower nm ∧ nm.count '.' = 1 ∧ nm.head? ≠ some '_' then
    (cleanHost ((nm.splitOn '.').headD [])).filter fun cand => lower cand ∉ mdnsReservedLabels
  else none

/-- The loop over the names. -/
def identify (names : List Text) : Option Text × Option Text :=
  names.foldl (fun found nm => (found.1.or (serviceOf nm), found.2.or (hostOf nm))) (none, none)

/-- `parse_mdns`. -/
def parseMdns (data : Bytes) (srcIp : Text) : Option PassiveHint :=
  if data.length < 12 then none
  else
    let (subtype, hostname) := identify (readNames data)
    if subtype = none ∧ hostname = none then none
    else some { ip := srcIp, source := "mdns".toList, hostname, subtype, model := none }

/-! ### Captures relayed by an agent -/

/-- `_MAX_HINT_RAW_BYTES`. -/
def maxHintRawBytes : Nat := 768

/-- What an agent relays of a message it has heard. -/
def relayed (message : Bytes) : Bytes := message.take maxHintRawBytes

/-- The record of a capture; a field is `none` where it is no string. -/
structure RelayedRecord where
  source : Option Text
  ip : Option Text
  dataB64 : Option Text

/-- The record that `_capture` makes of a message. -/
def captureRecord (b64encode : Bytes → Text) (source ip : Text) (message : Bytes) :
    RelayedRecord where
  source := some source
  ip := some ip
  dataB64 := some (b64encode (relayed message))

/-- `parse_relayed_hint`, with `_RELAYED_PARSERS`, `_is_local` and the strict base64 decoder. -/
def parseRelayedHint (parsers : Text → Option (Bytes → Text → Option PassiveHint))
    (isLocal : Text → Bool) (b64decode : Text → Option Bytes) (record : RelayedRecord) :
    Option PassiveHint := do
  let parser ← record.source.bind parsers
  let ip ← record.ip
  let b64 ← record.dataB64
  if isLocal ip then
    let data ← b64decode b64
    parser data ip
  else none

/-- The server parses what the agent has left of the message. -/
theorem parseRelayedHint_capture {parsers : Text → Option (Bytes → Text → Option PassiveHint)}
    {isLocal : Text → Bool} {b64encode : Bytes → Text} {b64decode : Text → Option Bytes}
    (hb64 : ∀ data, b64decode (b64encode data) = some data) {source ip : Text}
    {parser : Bytes → Text → Option PassiveHint} (hparser : parsers source = some parser)
    (hip : isLocal ip = true) (message : Bytes) :
    parseRelayedHint parsers isLocal b64decode (captureRecord b64encode source ip message) =
      parser (relayed message) ip := by
  simp [parseRelayedHint, captureRecord, hparser, hip, hb64]

/-! ### The loop of `_read_name` -/

section Loop

variable {data : Bytes}

/-- How many turns of the loop there may still be. -/
def turnsLeft (data : Bytes) (cur hops : Nat) : Nat :=
  (32 - hops) * (data.length + 1) + (data.length - cur)

theorem lt_length_of_getElem? {cur : Nat} {b : UInt8} (h : data[cur]? = some b) :
    cur < data.length := (List.getElem?_eq_some_iff.mp h).1

theorem turns_label {cur hops fuel : Nat} {length : UInt8} (h : data[cur]? = some length)
    (hturns : turnsLeft data cur hops < fuel + 1) :
    turnsLeft data (cur + 1 + length.toNat) hops < fuel := by
  have hcur := lt_length_of_getElem? h
  rw [turnsLeft] at hturns ⊢
  omega

theorem turns_jump {cur hops fuel : Nat} (hhops : hops < 32) (target : Nat)
    (hturns : turnsLeft data cur hops < fuel + 1) : turnsLeft data target (hops + 1) < fuel := by
  obtain ⟨k, hk⟩ : ∃ k, 32 - hops = k + 1 := ⟨31 - hops, by omega⟩
  have hk' : 32 - (hops + 1) = k := by omega
  rw [turnsLeft, hk, Nat.add_mul] at hturns
  rw [turnsLeft, hk']
  omega

end Loop

end Srp.Netdisco
