/-
  Srp/Db/DiskReadings.lean
  ========================
  **One SMART series for each disk (`store_disk_readings` of `server/db.py`).**

  A call appends a reading for each disk of an envelope.  Of the keys that are not
  active on the device it admits as many as there is room for, cuts the series it
  has written to the newest `_retain_disk` readings, and, when it saw a new key,
  drops the keys that have become inactive.

  `disk_readings` is the list of its rows in `id` order (the column is
  `AUTOINCREMENT`).
-/
import Mathlib.Data.Finset.Card
import Mathlib.Data.List.Sort
import Srp.Lib.IsoTime
import Srp.Lib.Machine
import Srp.Lib.PyUnicode
import Srp.Lib.Window

namespace Srp.Db

open Srp.Lib Srp.Lib.IsoTime Srp.Lib.Lines Srp.Lib.PyUnicode Srp.Lib.Window

/-! ### Rows -/

structure DiskReading where
  deviceId : String
  diskKey : PyStr
  ts : Option PyStr
  receivedAt : String
  mediaType : Value
  payload : PyStr

/-- What `sqlite3` binds to a column that is not `payload`; for the rest it raises. -/
def bindsValue : Value → Bool
  | .str s => Encodes s
  | .int n => -2 ^ 63 ≤ n ∧ n < 2 ^ 63
  | .arr _ => false
  | .obj _ => false
  | _ => true

def DiskReading.binds (r : DiskReading) : Bool :=
  Encodes r.diskKey && r.ts.all (fun ts => Encodes ts) && bindsValue r.mediaType &&
    Encodes r.payload

/-- The arguments of one call. -/
structure DiskCall where
  deviceId : String
  storage : Value
  ts : Option PyStr
  time : Instant

/-- The receipt stamp is the server time of the call. -/
def DiskCall.receivedAt (c : DiskCall) : String := isoformat c.time

/-! ### Keys -/

section Keys

variable (I : Interpreter) (sha256Hex : Text → Text)

/-- `value or ''`. -/
def orEmpty (v : Value) : Value := if truthy I v then v else .str []

/-- `_disk_key`; `none` where the fallback has no UTF-8 octets to hash. -/
def diskKey (disk : List (PyStr × Value)) (index : Nat) : Option PyStr :=
  let serialHash := Value.get disk "serial_hash"
  if truthy I serialHash then some (pyStr I serialHash)
  else
    let raw := pyStr I (orEmpty I (Value.get disk "disk")) ++ ofText ['|'] ++
      pyStr I (orEmpty I (Value.get disk "media_type")) ++ ofText ('|' :: Nat.toDigits 10 index)
    (encode raw).map fun text => ofText ((sha256Hex text).take 16)

/-- The loop over `enumerate(storage)`; what is no dictionary is passed over. -/
def diskRows (c : DiskCall) : List Value → Nat → Option (List DiskReading)
  | [], _ => some []
  | .obj disk :: disks, i => do
    let key ← diskKey I sha256Hex disk i
    let rows ← diskRows c disks (i + 1)
    return { deviceId := c.deviceId, diskKey := key, ts := c.ts, receivedAt := c.receivedAt,
             mediaType := Value.get disk "media_type", payload := dumps 0 (.obj disk) } :: rows
  | _ :: disks, i => diskRows c disks (i + 1)

/-- The rows that a call offers; none for a call without a device or without a list. -/
def callRows (c : DiskCall) : Option (List DiskReading) :=
  if c.deviceId = "" then some []
  else match c.storage with
    | .arr disks => diskRows I sha256Hex c disks 0
    | _ => some []

end Keys

def maxDiskKeysPerDevice : Nat := 32

def diskKeyActiveDays : Nat := 90

def DiskCall.activeSince (c : DiskCall) : String := isoformat (c.time.minus (days diskKeyActiveDays))

/-- `SELECT DISTINCT disk_key ... WHERE device_id=? AND received_at >= ?`. -/
def existingKeys (c : DiskCall) (table : List DiskReading) : List PyStr :=
  ((table.filter fun r => r.deviceId = c.deviceId ∧ c.activeSince ≤ r.receivedAt).map
    (·.diskKey)).dedup

def newDiskKeys (c : DiskCall) (table rows : List DiskReading) : List PyStr :=
  (rows.map (·.diskKey)).dedup.filter (· ∉ existingKeys c table)

/-- `sorted` of strings: by their code points. -/
def sortedKeys (keys : List PyStr) : List PyStr :=
  keys.insertionSort fun a b => a.map PyChar.ord ≤ b.map PyChar.ord

def allowedNew (c : DiskCall) (table : List DiskReading) : Nat :=
  maxDiskKeysPerDevice - (existingKeys c table).length

def blockedKeys (c : DiskCall) (table rows : List DiskReading) : List PyStr :=
  (sortedKeys (newDiskKeys c table rows)).drop (allowedNew c table)

def filteredRows (c : DiskCall) (table rows : List DiskReading) : List DiskReading :=
  rows.filter fun r => r.diskKey ∉ blockedKeys c table rows

/-! ### The table -/

def isReading (deviceId : String) (key : PyStr) (r : DiskReading) : Bool :=
  r.deviceId = deviceId ∧ r.diskKey = key

/-- The readings of one disk of a device, in `id` order. -/
def diskSeries (deviceId : String) (key : PyStr) (table : List DiskReading) : List DiskReading :=
  table.filter (isReading deviceId key)

/-- One `DELETE` for each key that has been written. -/
def pruneKeys (retain : Int) (deviceId : String) (keys : List PyStr) (table : List DiskReading) :
    List DiskReading :=
  keys.foldl (fun table key => prune (isReading deviceId key) retain table) table

/-- `HAVING MAX(received_at) < ?`. -/
def Inactive (deviceId since : String) (table : List DiskReading) (key : PyStr) : Prop :=
  ∀ r ∈ diskSeries deviceId key table, r.receivedAt < since

instance (deviceId since : String) (table : List DiskReading) (key : PyStr) :
    Decidable (Inactive deviceId since table key) :=
  inferInstanceAs (Decidable (∀ r ∈ diskSeries deviceId key table, r.receivedAt < since))

/-- `_evict_inactive_disk_keys`. -/
def evictInactiveDiskKeys (deviceId since : String) (table : List DiskReading) :
    List DiskReading :=
  table.filter fun r => ¬ (r.deviceId = deviceId ∧ Inactive deviceId since table r.diskKey)

/-- The table after the rows of a call have been written and the old ones deleted. -/
def settle (retain : Int) (c : DiskCall) (table rows : List DiskReading) : List DiskReading :=
  let filtered := filteredRows c table rows
  let written := pruneKeys retain c.deviceId (filtered.map (·.diskKey)).dedup (table ++ filtered)
  if newDiskKeys c table rows = [] then written
  else evictInactiveDiskKeys c.deviceId c.activeSince written

/-- `store_disk_readings` with `_retain_disk = retain`; `none` where it raises. -/
def storeDiskReadings (I : Interpreter) (sha256Hex : Text → Text) (retain : Int) (c : DiskCall)
    (table : List DiskReading) : Option (List DiskReading) := do
  let rows ← callRows I sha256Hex c
  if rows.isEmpty then return table
  if (filteredRows c table rows).all DiskReading.binds then return settle retain c table rows
  else none

/-- Runs of calls; what raises is rolled back. -/
def diskStore (I : Interpreter) (sha256Hex : Text → Text) (retain : Int) :
    Machine (List DiskReading) DiskCall Bool where
  next table c := (storeDiskReadings I sha256Hex retain c table).getD table
  out table c := (storeDiskReadings I sha256Hex retain c table).isSome

/-- The distinct keys of a device. -/
def deviceKeys (deviceId : String) (table : List DiskReading) : List PyStr :=
  ((table.filter fun r => r.deviceId = deviceId).map (·.diskKey)).dedup

end Srp.Db
