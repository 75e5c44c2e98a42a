/-
  Srp/Server/Readings.lean
  ========================
  **The readings of a device on the server** (`ingest` of `server/api.py`,
  `ingest_envelope` of `server/pipeline.py`, the stores of `server/db.py`).

  An envelope that comes in is checked against the remembered idempotency keys,
  stored by its type, and its key is remembered.  The inventory of a device is
  one row that is overwritten; historical readings and heartbeats are rows in
  arrival order, of which the newest are kept.  The receipt time and the clock
  drift of a row are left out: nothing here reads them.
-/
import Mathlib
import Srp.Lib.Lines
import Srp.Lib.PyJson
import Srp.Lib.Table
import Srp.Lib.Window

namespace Srp.Server

open Srp.Lib Srp.Lib.Lines Srp.Lib.PyJson

/-! ### Envelopes -/

/-- The fields of `Envelope` that the stores read. -/
structure Envelope where
  deviceId : Text
  msgType : Text
  ts : Text
  payload : List (Text × Json) := []
  idempotencyKey : Option Text := none

def asStr : Json → Option Text
  | .str t => some t
  | _ => none

def asDict : Json → Option (List (Text × Json))
  | .obj fields => some fields
  | _ => none

/-- An optional string field: missing and null are `None`. -/
def optStr : Option Json → Option (Option Text)
  | none => some none
  | some .null => some none
  | some j => (asStr j).map some

/-- The body of a request as an `Envelope`.  The agent stamps every body with its `ts`; one
    without it, which the server would stamp itself, is not read here. -/
def readEnvelope : Json → Option Envelope
  | .obj fields => do
    let deviceId ← fields.lookup "device_id".toList >>= asStr
    let msgType ← fields.lookup "msg_type".toList >>= asStr
    let ts ← fields.lookup "ts".toList >>= asStr
    let payload ← ((fields.lookup "payload".toList).map asDict).getD (some [])
    let idempotencyKey ← optStr (fields.lookup "idempotency_key".toList)
    return { deviceId, msgType, ts, payload, idempotencyKey }
  | _ => none

/-! ### Tables -/

/-- A row of `inventory`, `historical` or `heartbeats`. -/
structure ReadingRow where
  deviceId : Text
  ts : Text
  payload : Text

/-- `_retain_hb` and `_retain_hist`; with 0 rows retained there would be no reading at all. -/
structure Retention where
  heartbeats : Int := 500
  historical : Int := 500
  heartbeats_ne : heartbeats ≠ 0 := by decide
  historical_ne : historical ≠ 0 := by decide

structure ServerDb where
  inventory : List ReadingRow := []
  historical : List ReadingRow := []
  heartbeats : List ReadingRow := []
  seenKeys : List Text := []

/-- `_json_c(payload)` under the device and its time. -/
def Envelope.row (e : Envelope) : ReadingRow where
  deviceId := e.deviceId
  ts := e.ts
  payload := dumps 0 (.obj e.payload)

/-! ### Storing -/

def storeInventory (row : ReadingRow) (db : ServerDb) : ServerDb :=
  { db with inventory := Table.upsert ReadingRow.deviceId (fun _ new => new) row db.inventory }

/-- An insert, and the deletion of all but the newest rows of the device. -/
def insertReading (cap : Int) (row : ReadingRow) (rows : List ReadingRow) : List ReadingRow :=
  Window.prune (fun r => r.deviceId = row.deviceId) cap (rows ++ [row])

def storeHistorical (caps : Retention) (row : ReadingRow) (db : ServerDb) : ServerDb :=
  { db with historical := insertReading caps.historical row db.historical }

def storeHeartbeat (caps : Retention) (row : ReadingRow) (db : ServerDb) : ServerDb :=
  { db with heartbeats := insertReading caps.heartbeats row db.heartbeats }

/-- `ingest_envelope`; the other types store no reading. -/
def ingestEnvelope (caps : Retention) (e : Envelope) (db : ServerDb) : ServerDb :=
  if e.msgType = "inventory".toList then storeInventory e.row db
  else if e.msgType = "historical".toList then storeHistorical caps e.row db
  else if e.msgType = "heartbeat".toList then storeHeartbeat caps e.row db
  else db

/-- `has_seen`. -/
def hasSeen (key : Option Text) (db : ServerDb) : Bool :=
  match key with
  | none => false
  | some key => key ≠ [] && key ∈ db.seenKeys

/-- `mark_seen`. -/
def markSeen (key : Option Text) (db : ServerDb) : ServerDb :=
  match key with
  | none => db
  | some key => if key = [] then db else { db with seenKeys := key :: db.seenKeys }

/-- `ingest`, for a request that it answers with success. -/
def ingest (caps : Retention) (db : ServerDb) (body : Json) : ServerDb :=
  match readEnvelope body with
  | none => db
  | some e =>
    if hasSeen e.idempotencyKey db then db
    else markSeen e.idempotencyKey (ingestEnvelope caps e db)

/-! ### Reading -/

/-- `{"ts": row["ts"], **json.loads(row["payload"])}`. -/
def ReadingRow.reading (r : ReadingRow) : List (Text × Json) :=
  dictOf (("ts".toList, .str r.ts) :: ((loads r.payload).bind asDict).getD [])

/-- `get_inventory`. -/
def getInventory (deviceId : Text) (db : ServerDb) : Option (List (Text × Json)) :=
  (Table.row ReadingRow.deviceId db.inventory deviceId).map (·.reading)

/-- `get_historical`: `ORDER BY id DESC LIMIT 1`. -/
def getHistorical (deviceId : Text) (db : ServerDb) : Option (List (Text × Json)) :=
  ((db.historical.filter fun r => r.deviceId = deviceId).getLast?).map (·.reading)

/-- `get_recent_heartbeats`: `ORDER BY id DESC LIMIT ?`, newest first. -/
def getRecentHeartbeats (deviceId : Text) (limit : Int) (db : ServerDb) :
    List (List (Text × Json)) :=
  ((Window.newest limit (db.heartbeats.filter fun r => r.deviceId = deviceId)).map
    (·.reading)).reverse

/-! ### Kinds of readings -/

inductive ReadingKind where
  | inventory
  | historical
  | heartbeat
deriving DecidableEq, Repr

namespace ReadingKind

/-- The `msg_type` of a reading. -/
def name : ReadingKind → Text
  | .inventory => "inventory".toList
  | .historical => "historical".toList
  | .heartbeat => "heartbeat".toList

def table : ReadingKind → ServerDb → List ReadingRow
  | .inventory, db => db.inventory
  | .historical, db => db.historical
  | .heartbeat, db => db.heartbeats

/-- What storing a row does to the table of its kind. -/
def store (caps : Retention) : ReadingKind → ReadingRow → List ReadingRow → List ReadingRow
  | .inventory => Table.upsert ReadingRow.deviceId fun _ new => new
  | .historical => insertReading caps.historical
  | .heartbeat => insertReading caps.heartbeats

/-- The reading of a kind that the server treats as current. -/
def current (deviceId : Text) : ReadingKind → ServerDb → Option (List (Text × Json))
  | .inventory, db => getInventory deviceId db
  | .historical, db => getHistorical deviceId db
  | .heartbeat, db => (getRecentHeartbeats deviceId 1 db).head?

/-- The table holds, of one device, what filing the rows one after another leaves. -/
def Holds (caps : Retention) (deviceId : Text) (rows table : List ReadingRow) :
    ReadingKind → Prop
  | .inventory => Table.row ReadingRow.deviceId table deviceId = rows.getLast?
  | .historical =>
    (table.filter fun r => r.deviceId = deviceId) = Window.newest caps.historical rows
  | .heartbeat =>
    (table.filter fun r => r.deviceId = deviceId) = Window.newest caps.heartbeats rows

end ReadingKind

theorem name_injective : Function.Injective ReadingKind.name := by
  intro k l h
  cases k <;> cases l <;> first | rfl | exact absurd h (by decide)

/-- An envelope changes the table of its own kind and no other. -/
theorem table_ingestEnvelope (caps : Retention) (e : Envelope) (db : ServerDb)
    (kind : ReadingKind) : kind.table (ingestEnvelope caps e db) =
      if e.msgType = kind.name then kind.store caps e.row (kind.table db) else kind.table db := by
  unfold ingestEnvelope
  have hother : ∀ k : ReadingKind, e.msgType = k.name → (e.msgType = kind.name ↔ k = kind) := by
    intro k hk
    rw [hk]
    exact name_injective.eq_iff
  split
  · rename_i h
    simp only [hother .inventory h]
    cases kind <;> rfl
  · split
    · rename_i h
      simp only [hother .historical h]
      cases kind <;> rfl
    · split
      · rename_i h
        simp only [hother .heartbeat h]
        cases kind <;> rfl
      · rename_i hinv hhist hhb
        cases kind with
        | inventory => exact (if_neg hinv).symm
        | historical => exact (if_neg hhist).symm
        | heartbeat => exact (if_neg hhb).symm

@[simp] theorem table_markSeen (key : Option Text) (db : ServerDb) (kind : ReadingKind) :
    kind.table (markSeen key db) = kind.table db := by
  unfold markSeen
  cases key with
  | none => rfl
  | some key =>
    dsimp only
    split
    · rfl
    · cases kind <;> rfl

section Holds

variable {caps : Retention} {deviceId : Text} {rows table : List ReadingRow}

theorem filter_insertReading (cap : Int) {row : ReadingRow} (hrow : row.deviceId = deviceId)
    (h : (table.filter fun r => r.deviceId = deviceId) = Window.newest cap rows) :
    ((insertReading cap row table).filter fun r => r.deviceId = deviceId) =
      Window.newest cap (rows ++ [row]) := by
  subst hrow
  unfold insertReading
  rw [Window.filter_prune, List.filter_append, h, List.filter_singleton]
  simp only [decide_true]
  exact Window.newest_append_newest cap rows [row]

/-- Storing a row of the device files it. -/
theorem ReadingKind.Holds.store {kind : ReadingKind} (h : kind.Holds caps deviceId rows table)
    {row : ReadingRow} (hrow : row.deviceId = deviceId) :
    kind.Holds caps deviceId (rows ++ [row]) (kind.store caps row table) := by
  cases kind with
  | inventory =>
    unfold ReadingKind.Holds ReadingKind.store
    rw [Table.row_upsert fun _ _ => rfl, if_pos hrow.symm, List.getLast?_append,
      List.getLast?_singleton]
    cases Table.row ReadingRow.deviceId table deviceId <;> rfl
  | historical => exact filter_insertReading caps.historical hrow h
  | heartbeat => exact filter_insertReading caps.heartbeats hrow h

/-- The current reading is the one that was filed last. -/
theorem ReadingKind.Holds.current {kind : ReadingKind} {db : ServerDb}
    (h : kind.Holds caps deviceId rows (kind.table db)) :
    kind.current deviceId db = rows.getLast?.map ReadingRow.reading := by
  cases kind with
  | inventory => exact congrArg (Option.map ReadingRow.reading) h
  | historical =>
    have hlast := congrArg List.getLast? h
    rw [Window.getLast?_newest caps.historical_ne] at hlast
    exact congrArg (Option.map ReadingRow.reading) hlast
  | heartbeat =>
    have hlast := congrArg List.getLast? h
    rw [Window.getLast?_newest caps.heartbeats_ne] at hlast
    show (getRecentHeartbeats deviceId 1 db).head? = _
    unfold getRecentHeartbeats
    rw [List.head?_reverse, List.getLast?_map, Window.getLast?_newest (by decide)]
    exact congrArg (Option.map ReadingRow.reading) hlast

end Holds

end Srp.Server
