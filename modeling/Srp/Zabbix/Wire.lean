/-
  Srp/Zabbix/Wire.lean
  ====================
  **The trapper protocol on the wire** (`server/zabbix/protocol.py`, and
  `_recv_exactly`, `_read_response` of `server/zabbix/sender.py`).

  A frame is `ZBXD`, one octet of flags, the length of the body and a reserved
  word, both in four octets from the lowest on, and then the body.  The reply of
  Zabbix is read in two steps, its header and as many bytes as the header
  declares, and the declared length is checked in between.  So a reply is decided
  by its bytes alone and as soon as they are there (`read_response`): it does not
  matter in what chunks they come, what follows them, or how the connection ends.

  `json.loads`, `zlib` and the Unicode database are parameters (`Codec`).  The
  texts of errors are left out.
-/
import Srp.Lib.Framing
import Srp.Lib.PyUnicode
import Srp.Zabbix.Export

namespace Srp.Zabbix.Wire

open Srp.Lib Srp.Lib.Framing Srp.Lib.Lines Srp.Lib.Octets Srp.Lib.PyInt Srp.Lib.PyUnicode

/-! ### What the reader is given -/

/-- What `decompress(body, max_length)` of a fresh `zlib.decompressobj` gives: the bytes, and
    whether the stream ended with them and left nothing behind. -/
structure Unpacked where
  out : Bytes
  whole : Bool

/-- The parts of the interpreter that a reply goes through: `json.loads` of a text (which makes
    halves of surrogate pairs of some escapes), `zlib`, each `none` where it raises, and
    `str.isprintable` of a character. -/
structure Codec extends Interpreter where
  loads : Text → Option Value
  unpack : Bytes → Nat → Option Unpacked
  isPrintable : Char → Bool

/-- `ProtocolError`, by what it complains of. -/
inductive ProtocolError where
  | noHeader
  | declaredLength (length : Nat)
  | tooShort
  | unpack
  | unpackedSize
  | notJson
  | notObject
deriving DecidableEq, Repr

/-- `Response`, with the text of its `info`. -/
structure Response extends Zabbix.Response where
  info : Text
deriving DecidableEq, Repr

/-! ### The header -/

/-- `ZBXD`. -/
def headerTag : Bytes := [0x5A, 0x42, 0x58, 0x44]

def headerLen : Nat := 13
def flagZabbix : UInt8 := 1
def flagCompressed : UInt8 := 2
def maxResponseBytes : Nat := 1024 * 1024
def maxInfoChars : Nat := 512

structure Header where
  flags : UInt8
  length : Nat
  reserved : Nat
deriving DecidableEq, Repr

def checkDeclaredLength (length : Nat) : Except ProtocolError Unit :=
  if length > maxResponseBytes then .error (.declaredLength length) else .ok ()

def decodeHeader (raw : Bytes) : Except ProtocolError Header :=
  if raw.length < headerLen ∨ raw.take 4 ≠ headerTag then .error .noHeader
  else
    let length := ofLe ((raw.drop 5).take 4)
    (checkDeclaredLength length).map fun _ =>
      ⟨raw.getD 4 0, length, ofLe ((raw.drop 9).take 4)⟩

/-- A frame.  The reserved word is zero in a packet and in a plain reply; a compressed reply has
    the length of what it unpacks to there, which is not read. -/
def frame (flags : UInt8) (reserved : UInt32) (body : Bytes) : Bytes :=
  headerTag ++ [flags] ++ le32 body.length ++ le32 reserved.toNat ++ body

/-! ### The body -/

variable (C : Codec)

def decompress (body : Bytes) : Except ProtocolError Bytes :=
  match C.unpack body maxResponseBytes with
  | none => .error .unpack
  | some r => if r.whole then .ok r.out else .error .unpackedSize

/-- The groups of a match of `_INFO_RE`. -/
structure Groups where
  processed : Text
  failed : Option Text
  total : Option Text
deriving DecidableEq, Repr

def isDecimal (c : Char) : Bool := (C.chars.decimal c).isSome

def processedName : Text := "processed:".toList
def failedName : Text := "failed:".toList
def totalName : Text := "total:".toList

/-- `name:\s*(\d+)` at the front of a text: the digits, and what follows them. -/
def matchField (name : Text) (t : Text) : Option (Text × Text) :=
  if name.isPrefixOf t then
    let t := (t.drop name.length).dropWhile C.chars.isSpace
    let digits := t.takeWhile (isDecimal C)
    if digits = [] then none else some (digits, t.dropWhile (isDecimal C))
  else none

/-- `(?:;\s*name:\s*(\d+))?`: the digits if it is there, and what follows. -/
def matchOptional (name : Text) : Text → Option Text × Text
  | ';' :: t =>
    match matchField C name (t.dropWhile C.chars.isSpace) with
    | some (digits, rest) => (some digits, rest)
    | none => (none, ';' :: t)
  | t => (none, t)

/-- `_INFO_RE` at the front of a text. -/
def matchInfo (t : Text) : Option Groups :=
  match matchField C processedName t with
  | none => none
  | some (processed, t) =>
    let failed := matchOptional C failedName t
    let total := matchOptional C totalName failed.2
    some ⟨processed, failed.1, total.1⟩

/-- `_INFO_RE.search`: the first place where it matches. -/
def searchInfo : Text → Option Groups
  | [] => matchInfo C []
  | c :: t =>
    match matchInfo C (c :: t) with
    | some groups => some groups
    | none => searchInfo t

/-- `_count`. -/
def count (raw : Text) : Option Nat :=
  if raw = [] ∨ raw.length > 12 then none else (pyInt C.chars raw).map Int.toNat

/-- `"".join(c for c in s if c.isprintable())`; half a pair never is. -/
def printable (s : PyStr) : Text :=
  (scalars s).filter C.isPrintable

/-- The text of `info`: `str(info or "")`, what is printable of it, and not more than the cap. -/
def infoText (info : Value) : Text :=
  (printable C (if truthy C.toInterpreter info then pyStr C.toInterpreter info else [])).take
    maxInfoChars

def isSuccess : Value → Bool
  | .str s => s = ofText "success".toList
  | _ => false

/-- What `parse_body` makes of an object. -/
def readObject (fields : List (PyStr × Value)) : Response :=
  let info := infoText C (Value.get fields "info")
  let ok := isSuccess (Value.get fields "response")
  match searchInfo C info with
  | none => ⟨⟨ok, none, none, none⟩, info⟩
  | some groups =>
    ⟨⟨ok, count C groups.processed, groups.failed.bind (count C), groups.total.bind (count C)⟩,
      info⟩

def parseBody (body : Bytes) : Except ProtocolError Response :=
  match (String.fromUTF8? ⟨body.toArray⟩).bind fun s => C.loads s.toList with
  | none => .error .notJson
  | some (.obj fields) => .ok (readObject C fields)
  | some _ => .error .notObject

def parseResponse (raw : Bytes) : Except ProtocolError Response := do
  let header ← decodeHeader raw
  let body := (raw.drop headerLen).take header.length
  if body.length < header.length then .error .tooShort
  else if header.flags &&& flagCompressed ≠ 0 then parseBody C (← decompress C body)
  else parseBody C body

/-! ### Reading a reply -/

/-- What `send_batch` makes of a reply that does not parse. -/
def protocolKind {α : Type} : Except ProtocolError α → Except ErrorKind α
  | .ok a => .ok a
  | .error _ => .error .protocol

def readResponse (ending : ErrorKind) (chunks : List Chunk) : Except ErrorKind Response := do
  let (header, chunks) ← recvExactly ending chunks headerLen
  let h ← protocolKind (decodeHeader header)
  let (body, _) ← recvExactly ending chunks h.length
  protocolKind (parseResponse C (header ++ body))

/-! ### A reply as a string of bytes -/

/-- More bytes than any reply has. -/
def replyCap : Nat := headerLen + maxResponseBytes

/-- The reply at the front of `bs`; a connection that hands over no more than `bs` ends with
    `ending`. -/
def replyOf (ending : ErrorKind) (bs : Bytes) : Except ErrorKind Response :=
  if bs.length < headerLen then .error ending
  else
    match decodeHeader (bs.take headerLen) with
    | .error _ => .error .protocol
    | .ok h =>
      if bs.length < headerLen + h.length then .error ending
      else protocolKind (parseResponse C (bs.take (headerLen + h.length)))

/-- The bytes are the beginning of a reply and not yet all of it. -/
def Unfinished (bs : Bytes) : Prop :=
  bs.length < headerLen ∨
    ∃ h, decodeHeader (bs.take headerLen) = .ok h ∧ bs.length < headerLen + h.length

variable {C}

theorem readResponse_eq (ending : ErrorKind) (chunks : List Chunk) :
    readResponse C ending chunks = replyOf C ending (bytesOf chunks) := by
  unfold readResponse replyOf
  by_cases hshort : (bytesOf chunks).length < headerLen
  · rw [if_pos hshort, recvExactly_error ending hshort]
    rfl
  · rw [if_neg hshort]
    obtain ⟨rest, hheader, hrest⟩ := recvExactly_ok ending (not_lt.mp hshort)
    rw [hheader]
    cases hdecode : decodeHeader ((bytesOf chunks).take headerLen) with
    | error e => simp only [bind, Except.bind, hdecode, protocolKind]
    | ok h =>
      simp only [bind, Except.bind, hdecode, protocolKind]
      have hlength : (bytesOf rest).length = (bytesOf chunks).length - headerLen := by
        rw [hrest, List.length_drop]
      by_cases hcut : (bytesOf chunks).length < headerLen + h.length
      · rw [if_pos hcut, recvExactly_error ending (by omega)]
      · rw [if_neg hcut]
        have hwhole : h.length ≤ (bytesOf rest).length := by omega
        obtain ⟨behind, hbody, _⟩ := recvExactly_ok ending hwhole
        rw [List.take_add, hbody, hrest]

/-! ### When a reply is decided -/

theorem length_le_of_decodeHeader {raw : Bytes} {h : Header} (hd : decodeHeader raw = .ok h) :
    h.length ≤ maxResponseBytes := by
  unfold decodeHeader at hd
  by_cases hbad : raw.length < headerLen ∨ raw.take 4 ≠ headerTag
  · rw [if_pos hbad] at hd
    cases hd
  · rw [if_neg hbad] at hd
    by_cases hcap : ofLe ((raw.drop 5).take 4) > maxResponseBytes
    · simp only [checkDeclaredLength, if_pos hcap, Except.map] at hd
      cases hd
    · simp only [checkDeclaredLength, if_neg hcap, Except.map] at hd
      cases hd
      exact not_lt.mp hcap

theorem Unfinished.length_lt {bs : Bytes} (h : Unfinished bs) : bs.length < replyCap := by
  rcases h with hshort | ⟨header, hdecode, hcut⟩
  · exact lt_of_lt_of_le hshort (Nat.le_add_right _ _)
  · have hcap := length_le_of_decodeHeader hdecode
    exact lt_of_lt_of_le hcut (Nat.add_le_add_left hcap _)

theorem replyOf_unfinished {bs : Bytes} (h : Unfinished bs) (ending : ErrorKind) :
    replyOf C ending bs = .error ending := by
  unfold replyOf
  by_cases hshort : bs.length < headerLen
  · rw [if_pos hshort]
  · rw [if_neg hshort]
    obtain ⟨header, hdecode, hcut⟩ := h.resolve_left hshort
    rw [hdecode]
    exact if_pos hcut

theorem replyOf_append {bs : Bytes} (h : ¬ Unfinished bs) (ending ending' : ErrorKind)
    (more : Bytes) : replyOf C ending' (bs ++ more) = replyOf C ending bs := by
  have hlong : headerLen ≤ bs.length := not_lt.mp fun hshort => h (.inl hshort)
  have hheader : (bs ++ more).take headerLen = bs.take headerLen :=
    List.take_append_of_le_length hlong
  unfold replyOf
  rw [hheader, if_neg (not_lt.mpr hlong), if_neg (by rw [List.length_append]; omega)]
  cases hdecode : decodeHeader (bs.take headerLen) with
  | error e => rfl
  | ok header =>
    have hwhole : headerLen + header.length ≤ bs.length :=
      not_lt.mp fun hcut => h (.inr ⟨header, hdecode, hcut⟩)
    simp only
    rw [if_neg (not_lt.mpr hwhole), if_neg (by rw [List.length_append]; omega),
      List.take_append_of_le_length hwhole]

/-- **A reply is decided by its bytes.**  While they are the beginning of a frame, the connection's
    end is what comes of it; from then on neither the chunks nor the end nor anything behind
    changes the answer, which is there before `replyCap` bytes are read. -/
theorem read_response (C : Codec) (chunks : List Chunk) :
    (Unfinished (bytesOf chunks) → ∀ chunks' ending, bytesOf chunks' = bytesOf chunks →
      readResponse C ending chunks' = .error ending) ∧
    (¬ Unfinished (bytesOf chunks) → ∀ chunks' more ending ending',
      bytesOf chunks' = bytesOf chunks ++ more →
        readResponse C ending' chunks' = readResponse C ending chunks) ∧
    (replyCap ≤ (bytesOf chunks).length → ¬ Unfinished (bytesOf chunks)) := by
  refine ⟨?_, ?_, ?_⟩
  · intro h chunks' ending hbytes
    rw [readResponse_eq, hbytes]
    exact replyOf_unfinished h ending
  · intro h chunks' more ending ending' hbytes
    rw [readResponse_eq, readResponse_eq, hbytes]
    exact replyOf_append h ending ending' more
  · intro hcap h
    exact absurd h.length_lt (not_lt.mpr hcap)

end Srp.Zabbix.Wire
