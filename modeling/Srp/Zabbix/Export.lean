/-
  Srp/Zabbix/Export.lean
  ======================
  **One export cycle** (`server/zabbix/export.py`, `send` of `server/zabbix/sender.py`,
  `chunks` of `server/zabbix/protocol.py`, `BackoffStore` of `server/zabbix/status.py`).

  The cycle sends the packet of the fleet in batches; when Zabbix refuses some of the
  values it looks for the culprits, first with one value for each host and then with one
  value for each key of the first host that was not refused; at the end it sends the
  heartbeat.  `Cycle` is what surrounds one cycle: the readings of the monotonic clock
  and the answers of the other side, each under the batch, host or key it belongs to, so
  that any sequence of readings and answers is one of them.

  Logging, the status card and the texts of errors are left out.
-/
import Mathlib.Algebra.Order.Ring.Rat
import Srp.Zabbix.Items

namespace Srp.Zabbix

open Srp.Lib Srp.Lib.IsoTime Srp.Lib.PyNum

/-! ### Sending -/

inductive ErrorKind where
  | dns
  | refused
  | timeout
  | closed
  | protocol
  | network
  | rejected
  | budget
deriving DecidableEq, Repr

structure Response where
  ok : Bool
  processed : Option Nat
  failed : Option Nat
  total : Option Nat
deriving DecidableEq, Repr

/-- What becomes of one batch. -/
inductive Answer where
  /-- no connection: nothing was sent -/
  | unreached (kind : ErrorKind)
  /-- the batch was sent, and no usable response came back -/
  | lost (kind : ErrorKind)
  | response (r : Response)
deriving DecidableEq, Repr

def Answer.reached : Answer → Bool
  | .unreached _ => false
  | .lost _ => true
  | .response _ => true

structure SendResult where
  processed : Nat
  failed : Nat
  total : Nat
  error : Option ErrorKind
deriving DecidableEq, Repr

def sendBatch (items : List Item) : Answer → SendResult
  | .unreached kind => ⟨0, 0, items.length, some kind⟩
  | .lost kind => ⟨0, 0, items.length, some kind⟩
  | .response r =>
    if r.ok then
      ⟨r.processed.getD items.length, r.failed.getD 0, r.total.getD items.length, none⟩
    else ⟨0, 0, items.length, some .rejected⟩

def batchSize : Nat := 250
def maxTotalSec : ℚ := 60

def chunks (items : List Item) (size : Nat) : List (List Item) :=
  let step := max 1 size
  (List.range ((items.length + step - 1) / step)).map fun i => (items.drop (i * step)).take step

/-- One call of `send`: the clock when it starts and before each batch, and the answers. -/
structure Channel where
  start : ℚ
  now : Nat → ℚ
  answer : Nat → Answer

/-- The batches from number `i` on: what is sent, and the result. -/
def sendFrom (c : Channel) (i : Nat) (acc : SendResult) :
    List (List Item) → List Item × SendResult
  | [] => ([], acc)
  | batch :: batches =>
    if c.now i > c.start + maxTotalSec then ([], { acc with error := some .budget })
    else
      let result := sendBatch batch (c.answer i)
      let sent := if (c.answer i).reached then batch else []
      let acc := ⟨acc.processed + result.processed, acc.failed + result.failed,
        acc.total + result.total, result.error⟩
      if result.error.isSome then (sent, acc)
      else
        let rest := sendFrom c (i + 1) acc batches
        (sent ++ rest.1, rest.2)

def send (c : Channel) (items : List Item) : List Item × SendResult :=
  sendFrom c 0 ⟨0, 0, 0, none⟩ (chunks items batchSize)

/-! ### The state between cycles -/

structure ExportState where
  lastDiagnoseAt : Option ℚ
  lastForceAt : Option ℚ
  /-- the backoff store: the time until which a host is left out -/
  heldUntil : List (String × ℚ)

def backoffSec : ℚ := 6 * 3600

def backoffActive (store : List (String × ℚ)) (now : ℚ) : List (String × ℚ) :=
  store.filter fun e => e.2 > now

def backoffAdd (store : List (String × ℚ)) (hosts : List String) (now : ℚ) :
    List (String × ℚ) :=
  store.filter (fun e => e.1 ∉ hosts) ++ hosts.map fun h => (h, now + backoffSec)

/-- What surrounds one cycle. -/
structure Cycle where
  lockFree : Bool
  forceAt : ℚ
  activeAt : ℚ
  now : Instant
  fleet : Channel
  diagnoseAt : ℚ
  hostAt : String → ℚ
  hostProbe : String → Channel
  keyAt : String → ℚ
  keyProbe : String → Channel
  addAt : ℚ
  unixTime : Int
  heartbeat : Channel

/-! ### The diagnosis of a partial refusal -/

def diagnoseCooldownSec : ℚ := 3600
def diagnoseHostCap : Nat := 50
def diagnoseBudgetSec : ℚ := 120

/-- Pass A: one value for each host.  What is sent, and the hosts that were refused. -/
def probeHosts (env : Cycle) (budget : ℚ) : List String → List Item × List String
  | [] => ([], [])
  | host :: hosts =>
    if env.hostAt host > budget then ([], [])
    else
      let (sent, result) := send (env.hostProbe host) [⟨host, "srp.state", "unknown"⟩]
      if result.error.isSome then (sent, [])
      else
        let rest := probeHosts env budget hosts
        (sent ++ rest.1, if result.failed ≠ 0 then host :: rest.2 else rest.2)

/-- Pass B: one value for each key of a host. -/
def probeKeys (env : Cycle) (budget : ℚ) (host : String) : List String → List Item
  | [] => []
  | key :: keys =>
    if env.keyAt key > budget then []
    else
      let (sent, result) := send (env.keyProbe key) [⟨host, key, "0"⟩]
      if result.error.isSome then sent else sent ++ probeKeys env budget host keys

/-- `sorted({i.key for i in packet.items if i.host == host})`. -/
def keysOf (packet : Packet) (host : String) : List String :=
  ((packet.items.filter fun i => i.host = host).map (·.key)).eraseDups.insertionSort (· ≤ ·)

def diagnoseKeys (env : Cycle) (packet : Packet) (unknownHosts : List String) (budget : ℚ) :
    List Item :=
  match (packet.hosts.map (·.1)).find? fun h => h ∉ unknownHosts with
  | none => []
  | some host => probeKeys env budget host (keysOf packet host)

structure Diagnosis where
  sent : List Item
  unknownHosts : List String
  state : ExportState

def diagnose (env : Cycle) (packet : Packet) (s : ExportState) : Diagnosis :=
  if (s.lastDiagnoseAt.any fun last => env.diagnoseAt - last < diagnoseCooldownSec) = true then
    ⟨[], [], s⟩
  else
    let budget := env.diagnoseAt + diagnoseBudgetSec
    let passA := probeHosts env budget ((packet.hosts.map (·.1)).take diagnoseHostCap)
    let passB := diagnoseKeys env packet passA.2 budget
    ⟨passA.1 ++ passB, passA.2,
      { s with
        lastDiagnoseAt := some env.diagnoseAt
        heldUntil := if passA.2 = [] then s.heldUntil else backoffAdd s.heldUntil passA.2 env.addAt }⟩

/-! ### The cycle -/

def forceMinIntervalSec : ℚ := 30

inductive Outcome where
  | notConfigured
  | throttled
  | busy
  | raised (e : PyError)
  | done (devices : Nat) (result : SendResult) (skipped unknown : Nat)
      (rejectedHosts : List String)
deriving DecidableEq, Repr

structure CycleResult where
  sent : List Item
  state : ExportState
  outcome : Outcome

variable (U : UnicodeData)

/-- `_run`, on the state in which the backoffs that have ended are forgotten. -/
def run (rows : List VerdictRow) (cfg : ZabbixConfig) (env : Cycle) (s : ExportState) :
    CycleResult :=
  let s := { s with heldUntil := backoffActive s.heldUntil env.activeAt }
  match buildPacket U rows cfg env.now (s.heldUntil.map (·.1)) with
  | .error e => ⟨[], s, .raised e⟩
  | .ok packet =>
    let (sent, result) := send env.fleet packet.items
    let diagnosis :=
      if result.error.isNone ∧ result.failed ≠ 0 then diagnose env packet s else ⟨[], [], s⟩
    let beat :=
      if result.error.isNone then (send env.heartbeat (heartbeatItems cfg env.unixTime)).1 else []
    ⟨sent ++ diagnosis.sent ++ beat, diagnosis.state,
      .done packet.hosts.length result packet.skipped.length packet.unknown
        diagnosis.unknownHosts⟩

def forceAllowed (env : Cycle) (s : ExportState) : Bool :=
  ¬ s.lastForceAt.any fun last => env.forceAt - last < forceMinIntervalSec

def runExportCycle (rows : List VerdictRow) (cfg : ZabbixConfig) (force : Bool) (env : Cycle)
    (s : ExportState) : CycleResult :=
  if cfg.server = "" then ⟨[], s, .notConfigured⟩
  else if force ∧ ¬ forceAllowed env s then ⟨[], s, .throttled⟩
  else
    let s := if force then { s with lastForceAt := some env.forceAt } else s
    if ¬ env.lockFree then ⟨[], s, .busy⟩
    else run U rows cfg env (if force then { s with heldUntil := [] } else s)

end Srp.Zabbix
