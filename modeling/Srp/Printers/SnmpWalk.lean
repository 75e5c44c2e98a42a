/-
  Srp/Printers/SnmpWalk.lean
  ==========================
  **The table walk of the poller** (`_transact`, `_walk_pdu` and `snmp_walk` in
  `server/printers/snmp.py`), and the agents it talks to.

  An agent answers a request with the octets of a datagram.  A conforming one
  keeps its rows in the order of their names and answers with messages of the
  encoding rules: GETNEXT with the successor of the name asked, GETBULK with as
  many successors as it cares to send, up to the number asked, and fillers behind
  the last row.
-/
import Mathlib.Data.List.Lex
import Srp.Printers.Snmp

namespace Srp.Printers

open Srp.Lib Srp.Lib.Lines Srp.Lib.Octets Srp.Lib.PyInt

/-! ### Requests and answers -/

/-- What `_new_request_id` draws. -/
abbrev RequestId := {id : Int // 1 ≤ id ∧ id ≤ 0x7FFFFFFF}

theorem one_inRange : (1 : Int) ≤ 1 ∧ (1 : Int) ≤ 0x7FFFFFFF := by decide

/-- A source that draws 1 for every request. -/
def firstRequestIds (_ : Nat) : RequestId := ⟨1, one_inRange⟩

/-- What `build_request` puts into a request for one name; `max_repetitions` is no part of a
    GETNEXT. -/
structure Request where
  pduType : UInt8
  oid : Text
  requestId : RequestId
  maxRepetitions : Nat

/-- The datagram that comes back in an exchange to an attempt at a request, `none` where `recvfrom`
    raises or another host answers. -/
abbrev Agent := Nat → Nat → Request → Option Bytes

/-- `_GETBULK_MAX_REPETITIONS`. -/
def getbulkMaxRepetitions : Nat := 25

/-- `_walk_pdu`. -/
def walkPdu (current : Text) (requestId : RequestId) (useGetbulk : Bool) (remaining : Nat) : Request :=
  if useGetbulk then
    { pduType := getBulkTag, oid := current, requestId,
      maxRepetitions := min getbulkMaxRepetitions remaining }
  else { pduType := getNextTag, oid := current, requestId, maxRepetitions := 0 }

/-- `_transact`, with the number of attempts that are left. -/
def transact (replies : Nat → Request → Option Bytes) (pkt : Request) : Nat → Bindings
  | 0 => []
  | attempts + 1 =>
    match replies attempts pkt with
    | none => transact replies pkt attempts
    | some data =>
      match (parseMessage data).1 with
      | some rid =>
        if rid ≠ pkt.requestId then transact replies pkt attempts else (parseMessage data).2
      | none => (parseMessage data).2

/-! ### `snmp_walk` -/

section Walk

variable (C : PyChars)

/-- `_oid_key`, `none` where it raises. -/
def oidKey (o : Text) : Option (List Int) := (o.splitOn '.').mapM (pyInt C)

/-- `next_current is None or _oid_key(oid) > _oid_key(next_current)`. -/
def isNewer (oid : Text) (nextCurrent : Option Text) : Bool :=
  match nextCurrent with
  | none => true
  | some next =>
    match oidKey C oid, oidKey C next with
    | some a, some b => decide (b < a)
    | _, _ => false

structure Scan where
  result : Bindings
  nextCurrent : Option Text
  leftSubtree : Bool

/-- The loop body over the parsed bindings. -/
def scanItem (base : Text) (maxRows : Nat) (s : Scan) (item : Text × SnmpValue) : Scan :=
  if maxRows ≤ s.result.length then s
  else if item.1 = base ∨ (base ++ ['.']).isPrefixOf item.1 then
    if item.1 ∈ s.result.map Prod.fst then s
    else
      { s with
        result := setItem s.result item.1 item.2
        nextCurrent := if isNewer C item.1 s.nextCurrent then some item.1 else s.nextCurrent }
  else { s with leftSubtree := true }

def scan (base : Text) (maxRows : Nat) (result parsed : Bindings) : Scan :=
  parsed.foldl (scanItem C base maxRows) ⟨result, none, false⟩

/-- `build_request` can write the name. -/
def Askable (oid : Text) : Prop := (encodeOid C oid).isSome

instance Askable.decidable (oid : Text) : Decidable (Askable C oid) :=
  inferInstanceAs (Decidable ((encodeOid C oid).isSome = true))

/-- The loop of `snmp_walk`, `none` where a request raises or the fuel, an exchange a unit, is
    used up; `ids` are the request ids that it draws. -/
def walkLoop (agent : Agent) (ids : Nat → RequestId) (base : Text) (maxRows attempts : Nat) :
    Nat → Nat → Bool → Text → Bindings → Option Bindings
  | 0, _, _, _, _ => none
  | fuel + 1, round, useGetbulk, current, result =>
    if maxRows ≤ result.length then some result
    else if ¬ Askable C current then none
    else
      let pkt := walkPdu current (ids round) useGetbulk (maxRows - result.length)
      let parsed := transact (agent round) pkt attempts
      if parsed = [] then
        if useGetbulk then
          walkLoop agent ids base maxRows attempts fuel (round + 1) false current result
        else some result
      else
        let s := scan C base maxRows result parsed
        match s.nextCurrent with
        | none => some s.result
        | some next =>
          if s.leftSubtree ∨ next = current then some s.result
          else
            walkLoop agent ids base maxRows attempts fuel (round + 1) useGetbulk next s.result

/-- `snmp_walk`.  A step that goes on adds a row, and GETBULK is given up once. -/
def snmpWalk (agent : Agent) (ids : Nat → RequestId) (base : Text) (version : Int)
    (retries maxRows : Nat) : Option Bindings :=
  walkLoop C agent ids base maxRows (retries + 1) (maxRows + 2) 0 (version ≠ 0) base []

/-! ### One step of the loop -/

section Step

variable {C}

variable {agent : Agent} {ids : Nat → RequestId} {base current : Text}
  {maxRows attempts fuel round : Nat} {bulk : Bool} {result : Bindings}

theorem walkLoop_full (hfull : maxRows ≤ result.length) :
    walkLoop C agent ids base maxRows attempts (fuel + 1) round bulk current result =
      some result := by
  rw [walkLoop, if_pos hfull]

theorem walkLoop_silent (hroom : result.length < maxRows) (hask : Askable C current)
    (hparsed : transact (agent round)
      (walkPdu current (ids round) bulk (maxRows - result.length)) attempts = []) :
    walkLoop C agent ids base maxRows attempts (fuel + 1) round bulk current result =
      if bulk then
        walkLoop C agent ids base maxRows attempts fuel (round + 1) false current result
      else some result := by
  simp only [walkLoop, if_neg (not_le.mpr hroom), hask, not_true_eq_false, if_false, if_pos hparsed]

theorem walkLoop_answered {parsed : Bindings} {s : Scan} (hroom : result.length < maxRows)
    (hask : Askable C current)
    (hparsed : transact (agent round)
      (walkPdu current (ids round) bulk (maxRows - result.length)) attempts = parsed)
    (hne : parsed ≠ []) (hs : scan C base maxRows result parsed = s) :
    walkLoop C agent ids base maxRows attempts (fuel + 1) round bulk current result =
      match s.nextCurrent with
      | none => some s.result
      | some next =>
        if s.leftSubtree ∨ next = current then some s.result
        else
          walkLoop C agent ids base maxRows attempts fuel (round + 1) bulk next s.result := by
  simp only [walkLoop, if_neg (not_le.mpr hroom), hask, not_true_eq_false, if_false, hparsed,
    if_neg hne, hs]

theorem walkLoop_raises (hroom : result.length < maxRows) (hask : ¬ Askable C current) :
    walkLoop C agent ids base maxRows attempts (fuel + 1) round bulk current result = none := by
  simp only [walkLoop, if_neg (not_le.mpr hroom), hask, not_false_eq_true, if_true]

end Step

end Walk

/-! ### Conforming agents -/

/-- The object identifiers of SNMP: at most 128 numbers below 2^32. -/
structure IsOid (name : List Nat) : Prop where
  written : Written name
  length : name.length ≤ 128
  numbers : ∀ n ∈ name, n < 2 ^ 32

/-- The rows of an agent, in the order of their names. -/
structure Mib where
  rows : List Varbind
  sorted : rows.Pairwise (·.name < ·.name)
  oids : ∀ r ∈ rows, IsOid r.name

namespace Mib

variable (mib : Mib)

/-- The rows behind a name. -/
def after (name : List Nat) : List Varbind := mib.rows.filter fun r => name < r.name

end Mib

/-- The exception in place of a value, under the last name. -/
def endOfMibView (name : List Nat) : Varbind := { name, valueTag := 0x82, value := [] }

/-- The last name of the rows, or the name asked. -/
def lastName (name : List Nat) (rows : List Varbind) : List Nat :=
  (rows.getLast?.map (·.name)).getD name

def Mib.getNext (mib : Mib) (name : List Nat) : List Varbind :=
  match mib.after name with
  | [] => [endOfMibView name]
  | r :: _ => [r]

/-- The first `n` repetitions. -/
def Mib.getBulk (mib : Mib) (name : List Nat) (n : Nat) : List Varbind :=
  (mib.after name ++ List.replicate n (endOfMibView (lastName name (mib.after name)))).take n

/-- The agent answers every attempt with the rows of `mib`; of the repetitions asked it sends the
    first `repetitions`. -/
structure Conforming (mib : Mib) (repetitions : List Nat → Nat → Nat) (agent : Agent) : Prop where
  getNext : ∀ round attempt name requestId, IsOid name → ∃ data,
    agent round attempt ⟨getNextTag, dotted name, requestId, 0⟩ = some data ∧
      IsMessage getResponseTag requestId (mib.getNext name) data
  getBulk : ∀ round attempt name requestId n, IsOid name → ∃ data,
    agent round attempt ⟨getBulkTag, dotted name, requestId, n⟩ = some data ∧
      IsMessage getResponseTag requestId (mib.getBulk name (repetitions name n)) data
  atMost : ∀ name n, repetitions name n ≤ n

end Srp.Printers
