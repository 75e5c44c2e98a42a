/-
  Srp/Db/RawArchive.lean
  ======================
  **The archive of aged raw rows** (`_archive_aged_rows`, `prune_aged`,
  `get_raw_archive` of `server/db.py`).

  Before `prune_aged` deletes the rows of a table that are older than a cutoff,
  it files them by device and UTC day as compressed JSON lines; a day that ages
  in pieces is unpacked, extended and packed again.  Over the code stands what it
  is for, an archive that holds a list of rows under each key: `Represents` says
  that the blobs are that archive, and `archived_conserved` that no row is lost
  or filed twice.
-/
import Mathlib.Data.List.Perm.Basic
import Srp.Lib.GroupBy
import Srp.Lib.IsoTime
import Srp.Lib.Lines
import Srp.Lib.Machine
import Srp.Lib.PyJson
import Srp.Lib.Table

namespace Srp.Db

open Srp.Lib Srp.Lib.GroupBy Srp.Lib.IsoTime Srp.Lib.Lines Srp.Lib.PyJson Srp.Lib.Table

/-! ### Raw rows -/

inductive ArchiveKind where
  | heartbeats
  | events
deriving DecidableEq, Repr

structure RawHeartbeat where
  id : Int
  deviceId : Option Text := none
  ts : Option Text := none
  payload : Option Text := none
  receivedAt : Option Text := none
  clockDriftSec : Option FloatText := none
deriving DecidableEq

structure RawEvent where
  id : Int
  deviceId : Option Text := none
  ts : Option Text := none
  log : Option Text := none
  source : Option Text := none
  eventId : Option Int := none
  level : Option Text := none
  message : Option Text := none
  receivedAt : Option Text := none
  clockDriftSec : Option FloatText := none
deriving DecidableEq

/-- A row of one of the two raw tables. -/
inductive RawRow where
  | heartbeat (r : RawHeartbeat)
  | event (r : RawEvent)
deriving DecidableEq

def RawRow.kind : RawRow → ArchiveKind
  | .heartbeat _ => .heartbeats
  | .event _ => .events

def RawRow.deviceId : RawRow → Option Text
  | .heartbeat r => r.deviceId
  | .event r => r.deviceId

def RawRow.receivedAt : RawRow → Option Text
  | .heartbeat r => r.receivedAt
  | .event r => r.receivedAt

def textColumn : Option Text → Json
  | none => .null
  | some t => .str t

def intColumn : Option Int → Json
  | none => .null
  | some n => .int n

def realColumn : Option FloatText → Json
  | none => .null
  | some x => .float x

/-- `dict(row)`, with the keys sorted. -/
def RawRow.items : RawRow → List (Text × Json)
  | .heartbeat r =>
    [("clock_drift_sec".toList, realColumn r.clockDriftSec),
     ("device_id".toList, textColumn r.deviceId),
     ("id".toList, .int r.id),
     ("payload".toList, textColumn r.payload),
     ("received_at".toList, textColumn r.receivedAt),
     ("ts".toList, textColumn r.ts)]
  | .event r =>
    [("clock_drift_sec".toList, realColumn r.clockDriftSec),
     ("device_id".toList, textColumn r.deviceId),
     ("event_id".toList, intColumn r.eventId),
     ("id".toList, .int r.id),
     ("level".toList, textColumn r.level),
     ("log".toList, textColumn r.log),
     ("message".toList, textColumn r.message),
     ("received_at".toList, textColumn r.receivedAt),
     ("source".toList, textColumn r.source),
     ("ts".toList, textColumn r.ts)]

def RawRow.json (r : RawRow) : Json := .obj r.items

/-- `json.dumps(row, ensure_ascii=False, sort_keys=True, separators=(",", ":"))`. -/
def RawRow.line (r : RawRow) : Text := dumps 0 r.json

theorem distinct_textColumn (t : Option Text) : Distinct (textColumn t) := by
  cases t <;> constructor

theorem distinct_intColumn (n : Option Int) : Distinct (intColumn n) := by
  cases n <;> constructor

theorem distinct_realColumn (x : Option FloatText) : Distinct (realColumn x) := by
  cases x <;> constructor

theorem RawRow.distinct_json (r : RawRow) : Distinct r.json := by
  cases r with
  | heartbeat r =>
    apply Distinct.obj
    · simp only [RawRow.items, List.map_cons, List.map_nil]
      decide
    · simp only [RawRow.items, List.forall_mem_cons]
      exact ⟨distinct_realColumn _, distinct_textColumn _, .int _, distinct_textColumn _,
        distinct_textColumn _, distinct_textColumn _, by simp⟩
  | event r =>
    apply Distinct.obj
    · simp only [RawRow.items, List.map_cons, List.map_nil]
      decide
    · simp only [RawRow.items, List.forall_mem_cons]
      exact ⟨distinct_realColumn _, distinct_textColumn _, distinct_intColumn _, .int _,
        distinct_textColumn _, distinct_textColumn _, distinct_textColumn _,
        distinct_textColumn _, distinct_textColumn _, distinct_textColumn _, by simp⟩

/-! ### Tables -/

/-- `zlib.compress(text.encode("utf-8"))` and its inverse. -/
structure Zlib (β : Type) where
  compress : Text → β
  decompress : β → Text
  decompress_compress : ∀ t, decompress (compress t) = t

/-- The primary key of `raw_archive`: device, UTC day, kind. -/
abbrev ArchiveKey := Text × Text × ArchiveKind

structure ArchiveRow (β : Type) where
  deviceId : Text
  day : Text
  kind : ArchiveKind
  rowsN : Nat
  blob : β
  createdAt : Text

def ArchiveRow.key {β : Type} (r : ArchiveRow β) : ArchiveKey := (r.deviceId, r.day, r.kind)

/-- The raw rows of both tables, each table in insertion order, and the archive. -/
structure RawDb (β : Type) where
  rows : List RawRow
  rawArchive : List (ArchiveRow β)

variable {β : Type} (Z : Zlib β)

/-- `COALESCE(device_id,'')` and `substr(received_at,1,10)`, with the table of the row. -/
def RawRow.archiveKey (r : RawRow) : ArchiveKey :=
  (r.deviceId.getD [], (r.receivedAt.getD []).take 10, r.kind)

/-- `received_at < cutoff`; NULL is not. -/
def RawRow.before (cutoff : Text) (r : RawRow) : Bool := r.receivedAt.any (· < cutoff)

/-! ### Archiving -/

/-- The lines of the existing blob, none when there is no row. -/
def existingLines (archive : List (ArchiveRow β)) (key : ArchiveKey) : List Text :=
  match row ArchiveRow.key archive key with
  | some old => (Z.decompress old.blob).splitOn '\n'
  | none => []

/-- One group of the loop: its lines are appended to those of the existing blob. -/
def archiveGroup (rows : List RawRow) (cutoff now : Text) (archive : List (ArchiveRow β))
    (key : ArchiveKey) : List (ArchiveRow β) :=
  let items := rows.filter fun r => r.archiveKey = key ∧ r.before cutoff
  if items = [] then archive
  else
    let lines := existingLines Z archive key ++ items.map (·.line)
    upsert ArchiveRow.key (fun _ new => new)
      { deviceId := key.1, day := key.2.1, kind := key.2.2, rowsN := lines.length,
        blob := Z.compress (joinLines lines), createdAt := now } archive

/-- `_archive_aged_rows` on one table. -/
def archiveAgedRows (kind : ArchiveKind) (cutoff now : Text) (db : RawDb β) :
    List (ArchiveRow β) :=
  let table := db.rows.filter fun r => r.kind = kind
  (keys RawRow.archiveKey (table.filter (·.before cutoff))).foldl
    (archiveGroup Z table cutoff now) db.rawArchive

/-- One leg of `prune_aged`: archive, then `DELETE ... WHERE received_at < cutoff`. -/
def pruneLeg (kind : ArchiveKind) (cutoff now : Text) (db : RawDb β) : RawDb β where
  rows := db.rows.filter fun r => ¬ (r.kind = kind ∧ r.before cutoff)
  rawArchive := archiveAgedRows Z kind cutoff now db

/-- `_cutoff_iso(days=...)`. -/
def cutoffIso (now : Instant) (n : Nat) : Text := (isoformat (now.minus (days n))).toList

/-- `prune_aged` at `now`, with the legs of the raw tables; a leg of 0 days is off. -/
def pruneAged (heartbeatRawDays eventsRawDays : Nat) (now : Instant) (db : RawDb β) : RawDb β :=
  let nowIso := (isoformat now).toList
  let db := if 0 < heartbeatRawDays then
      pruneLeg Z .heartbeats (cutoffIso now heartbeatRawDays) nowIso db
    else db
  if 0 < eventsRawDays then pruneLeg Z .events (cutoffIso now eventsRawDays) nowIso db else db

/-- What `get_raw_archive` reads of one blob: every line through `json.loads`. -/
def decodeArchive (archive : List (ArchiveRow β)) (key : ArchiveKey) : List (Option Json) :=
  (existingLines Z archive key).map loads

/-! ### Runs -/

inductive RawStep where
  | insert (r : RawRow)
  | pruneAged (heartbeatRawDays eventsRawDays : Nat) (now : Instant)

def rawTables : Machine (RawDb β) RawStep Unit where
  next db
    | .insert r => { db with rows := db.rows ++ [r] }
    | .pruneAged heartbeatRawDays eventsRawDays now =>
      pruneAged Z heartbeatRawDays eventsRawDays now db
  out _ _ := ()

def RawStep.inserted : RawStep → Option RawRow
  | .insert r => some r
  | .pruneAged _ _ _ => none

/-- The rows of one archive key, those with a NULL `received_at` apart. -/
def rawRowsOf (key : ArchiveKey) (rows : List RawRow) : List RawRow :=
  rows.filter fun r => r.receivedAt.isSome ∧ r.archiveKey = key

/-! ### The archive as what it is for -/

/-- An archive: the rows that are filed under each key. -/
abbrev Filed := ArchiveKey → List RawRow

/-- The blobs hold exactly the filed rows, one line each. -/
def Represents (archive : List (ArchiveRow β)) (filed : Filed) : Prop := ∀ key,
  match row ArchiveRow.key archive key with
  | some r => filed key ≠ [] ∧ Z.decompress r.blob = joinLines ((filed key).map (·.line))
  | none => filed key = []

section Refinement

variable {Z} {archive : List (ArchiveRow β)} {filed : Filed}

theorem newline_not_mem_line (r : RawRow) : '\n' ∉ r.line := by
  intro h
  exact absurd (printable_dumps 0 r.json _ h) (by decide)

/-- The split undoes the join, whatever the payloads contain. -/
theorem splitOn_joinLines {rows : List RawRow} (h : rows ≠ []) :
    (joinLines (rows.map (·.line))).splitOn '\n' = rows.map (·.line) := by
  apply List.splitOn_intercalate
  · intro line hline
    obtain ⟨r, _, rfl⟩ := List.mem_map.mp hline
    exact newline_not_mem_line r
  · simpa using h

theorem Represents.existingLines (h : Represents Z archive filed) (key : ArchiveKey) :
    existingLines Z archive key = (filed key).map (·.line) := by
  have hkey := h key
  unfold Db.existingLines
  cases hrow : row ArchiveRow.key archive key with
  | none =>
    rw [hrow] at hkey
    rw [hkey]
    rfl
  | some r =>
    rw [hrow] at hkey
    dsimp only
    rw [hkey.2, splitOn_joinLines hkey.1]

/-- A represented archive is read back row by row. -/
theorem Represents.decode (h : Represents Z archive filed) (key : ArchiveKey) :
    decodeArchive Z archive key = (filed key).map fun r => some r.json := by
  unfold decodeArchive
  rw [h.existingLines, List.map_map]
  apply List.map_congr_left
  intro r _
  exact loads_dumps 0 r.distinct_json

/-- One group extends one key. -/
theorem Represents.archiveGroup (h : Represents Z archive filed) (rows : List RawRow)
    (cutoff now : Text) (key : ArchiveKey) :
    Represents Z (archiveGroup Z rows cutoff now archive key)
      (Function.update filed key
        (filed key ++ rows.filter fun r => r.archiveKey = key ∧ r.before cutoff)) := by
  simp only [Db.archiveGroup, h.existingLines]
  by_cases hitems : (rows.filter fun r => r.archiveKey = key ∧ r.before cutoff) = []
  · rw [if_pos hitems, hitems, List.append_nil, Function.update_eq_self]
    exact h
  · rw [if_neg hitems, ← List.map_append]
    intro k
    rw [row_upsert fun _ _ => rfl]
    by_cases hk : k = key
    · subst hk
      rw [if_pos (by rfl), Function.update_self]
      cases row ArchiveRow.key archive k <;>
        exact ⟨fun hnil => hitems (List.append_eq_nil_iff.mp hnil).2, Z.decompress_compress _⟩
    · rw [Function.update_of_ne hk, if_neg]
      · exact h k
      · exact hk

/-- The groups of one pass, each once. -/
theorem Represents.foldGroups (rows : List RawRow) (cutoff now : Text) (groups : List ArchiveKey)
    (hgroups : groups.Nodup) {archive : List (ArchiveRow β)} {filed : Filed}
    (h : Represents Z archive filed) :
    Represents Z (groups.foldl (Db.archiveGroup Z rows cutoff now) archive) fun key =>
      if key ∈ groups then
        filed key ++ rows.filter fun r => r.archiveKey = key ∧ r.before cutoff
      else filed key := by
  induction groups generalizing archive filed with
  | nil => simpa using h
  | cons g groups ih =>
    obtain ⟨hg, hgroups⟩ := List.nodup_cons.mp hgroups
    have hrest := ih hgroups (h.archiveGroup rows cutoff now g)
    rw [List.foldl_cons]
    convert hrest using 2 with key
    by_cases hkey : key = g
    · subst hkey
      simp [hg]
    · simp [hkey]

/-- A pass files every aged row of its table under the row's own key. -/
theorem Represents.archiveAgedRows {db : RawDb β} (h : Represents Z db.rawArchive filed)
    (kind : ArchiveKind) (cutoff now : Text) :
    Represents Z (archiveAgedRows Z kind cutoff now db) fun key =>
      filed key ++ db.rows.filter fun r =>
        (r.kind = kind ∧ r.before cutoff) ∧ r.archiveKey = key := by
  have hpass := Represents.foldGroups (db.rows.filter fun r => r.kind = kind) cutoff now
    (keys RawRow.archiveKey ((db.rows.filter fun r => r.kind = kind).filter (·.before cutoff)))
    (keys_nodup _ _) h
  unfold Db.archiveAgedRows
  convert hpass using 2 with key
  have hrows : (db.rows.filter fun r => (r.kind = kind ∧ r.before cutoff) ∧ r.archiveKey = key) =
      (db.rows.filter fun r => r.kind = kind).filter
        fun r => r.archiveKey = key ∧ r.before cutoff := by
    rw [List.filter_filter]
    apply List.filter_congr
    intro r _
    simp only [Bool.decide_and, Bool.decide_eq_true]
    cases decide (r.kind = kind) <;> cases r.before cutoff <;>
      cases decide (r.archiveKey = key) <;> rfl
  rw [hrows]
  split
  · rfl
  · rename_i hkey
    rw [List.filter_eq_nil_iff.mpr, List.append_nil]
    intro r hr hitem
    rw [decide_eq_true_eq] at hitem
    exact hkey (mem_keys.mpr ⟨r, List.mem_filter.mpr ⟨hr, hitem.2⟩, hitem.1⟩)

end Refinement

/-! ### Conservation -/

/-- Under every key, the filed rows and the live rows are together the inserted ones. -/
def Conserved (db : RawDb β) (inserted : List RawRow) : Prop :=
  ∃ filed, Represents Z db.rawArchive filed ∧
    ∀ key, (filed key ++ rawRowsOf key db.rows).Perm (rawRowsOf key inserted)

section Steps

variable {Z} {db : RawDb β} {inserted : List RawRow}

theorem Conserved.insert (h : Conserved Z db inserted) (r : RawRow) :
    Conserved Z { db with rows := db.rows ++ [r] } (inserted ++ [r]) := by
  obtain ⟨filed, hrep, hperm⟩ := h
  refine ⟨filed, hrep, fun key => ?_⟩
  simp only [rawRowsOf, List.filter_append, ← List.append_assoc]
  exact (hperm key).append_right _

theorem RawRow.isSome_of_before {cutoff : Text} {r : RawRow} (h : r.before cutoff = true) :
    r.receivedAt.isSome = true := by
  unfold RawRow.before at h
  cases hrec : r.receivedAt with
  | none =>
    rw [hrec] at h
    cases h
  | some t => rfl

/-- Aged rows move from the table to the archive, under the key they have. -/
theorem Conserved.pruneLeg (h : Conserved Z db inserted) (kind : ArchiveKind)
    (cutoff now : Text) : Conserved Z (pruneLeg Z kind cutoff now db) inserted := by
  obtain ⟨filed, hrep, hperm⟩ := h
  refine ⟨_, hrep.archiveAgedRows kind cutoff now, fun key => ?_⟩
  have haged : (db.rows.filter fun r => (r.kind = kind ∧ r.before cutoff) ∧ r.archiveKey = key) =
      (rawRowsOf key db.rows).filter fun r => r.kind = kind ∧ r.before cutoff := by
    rw [rawRowsOf, List.filter_filter]
    apply List.filter_congr
    intro r _
    rw [Bool.eq_iff_iff]
    simp only [decide_eq_true_eq, Bool.and_eq_true]
    constructor
    · rintro ⟨haged, hkey⟩
      exact ⟨haged, RawRow.isSome_of_before haged.2, hkey⟩
    · rintro ⟨haged, _, hkey⟩
      exact ⟨haged, hkey⟩
  have hlive : rawRowsOf key (Db.pruneLeg Z kind cutoff now db).rows =
      (rawRowsOf key db.rows).filter fun r => !decide (r.kind = kind ∧ r.before cutoff) := by
    simp only [Db.pruneLeg, rawRowsOf, List.filter_filter, Bool.and_comm, decide_not]
  calc (filed key ++ db.rows.filter fun r => (r.kind = kind ∧ r.before cutoff) ∧
        r.archiveKey = key) ++ rawRowsOf key (Db.pruneLeg Z kind cutoff now db).rows
      = filed key ++ ((rawRowsOf key db.rows).filter (fun r => r.kind = kind ∧ r.before cutoff) ++
          (rawRowsOf key db.rows).filter
            fun r => !decide (r.kind = kind ∧ r.before cutoff)) := by
        rw [List.append_assoc, haged, hlive]
    _ |>.Perm (filed key ++ rawRowsOf key db.rows) :=
        (List.filter_append_perm _ _).append_left _
    _ |>.Perm (rawRowsOf key inserted) := hperm key

theorem Conserved.pruneAged (h : Conserved Z db inserted)
    (heartbeatRawDays eventsRawDays : Nat) (now : Instant) :
    Conserved Z (pruneAged Z heartbeatRawDays eventsRawDays now db) inserted := by
  simp only [Db.pruneAged]
  by_cases hhb : 0 < heartbeatRawDays
  · rw [if_pos hhb]
    split
    · exact (h.pruneLeg _ _ _).pruneLeg _ _ _
    · exact h.pruneLeg _ _ _
  · rw [if_neg hhb]
    split
    · exact h.pruneLeg _ _ _
    · exact h

/-- Conservation along a run, from any conserved state. -/
theorem Conserved.run (h : Conserved Z db inserted) (steps : List RawStep) :
    Conserved Z ((rawTables Z).stateAfter db steps)
      (inserted ++ steps.filterMap RawStep.inserted) := by
  induction steps generalizing db inserted with
  | nil => simpa using h
  | cons step steps ih =>
    cases step with
    | insert r =>
      have hrest := ih (h.insert r)
      rw [List.append_assoc] at hrest
      exact hrest
    | pruneAged heartbeatRawDays eventsRawDays now =>
      exact ih (h.pruneAged heartbeatRawDays eventsRawDays now)

end Steps

/-- **No raw row is lost or archived twice.**  For every key the decoded archive and the live
    rows are together the rows ever inserted, each once. -/
theorem archive_conserved (steps : List RawStep) (key : ArchiveKey) :
    let db := (rawTables Z).stateAfter { rows := [], rawArchive := [] } steps
    (decodeArchive Z db.rawArchive key ++
      (rawRowsOf key db.rows).map fun r => some r.json).Perm
        ((rawRowsOf key (steps.filterMap RawStep.inserted)).map fun r => some r.json) := by
  have hempty : Conserved Z { rows := [], rawArchive := [] } [] :=
    ⟨fun _ => [], fun _ => rfl, fun _ => List.Perm.refl _⟩
  obtain ⟨filed, hrep, hperm⟩ := hempty.run steps
  intro db
  rw [hrep.decode key, ← List.map_append]
  exact (hperm key).map _

/-- The codec that stores the text as it is. -/
def storedText : Zlib Text where
  compress := id
  decompress := id
  decompress_compress _ := rfl

private def beatAt (n : Int) (time : String) : RawRow :=
  .heartbeat
    { id := n, deviceId := some "pc-1".toList, payload := some "{}".toList,
      receivedAt := some ("2026-01-01T" ++ time ++ "+00:00").toList }

/-- Noon of that day and one day. -/
private def noonAfter : Instant := ⟨739617 * usPerDay + 12 * 3600000000, by decide⟩

/-- The morning of a day is archived a day later at noon, its evening at the end of that day. -/
private def twoPortions : List RawStep :=
  [.insert (beatAt 1 "08:00:00.000000"), .insert (beatAt 2 "20:00:00.000000"),
   .pruneAged 1 1 noonAfter, .pruneAged 1 1 ⟨739618 * usPerDay, by decide⟩]

private def janFirst : ArchiveKey := ("pc-1".toList, "2026-01-01".toList, .heartbeats)

theorem archive_conserved_two_portions :
    let half := (rawTables storedText).stateAfter { rows := [], rawArchive := [] }
      (twoPortions.take 3)
    let db := (rawTables storedText).stateAfter { rows := [], rawArchive := [] } twoPortions
    (half.rows, half.rawArchive.map (·.rowsN)) = ([beatAt 2 "20:00:00.000000"], [1]) ∧
      (db.rows, db.rawArchive.map (·.rowsN)) = ([], [2]) ∧
      (decodeArchive storedText db.rawArchive janFirst).Perm
        [some (beatAt 1 "08:00:00.000000").json, some (beatAt 2 "20:00:00.000000").json] := by
  intro half db
  have hhalf : (half.rows, half.rawArchive.map (·.rowsN)) =
      ([beatAt 2 "20:00:00.000000"], [1]) := by decide +kernel
  have hdb : (db.rows, db.rawArchive.map (·.rowsN)) = ([], [2]) := by decide +kernel
  refine ⟨hhalf, hdb, ?_⟩
  have hconserved := archive_conserved storedText twoPortions janFirst
  have hrows : db.rows = [] := (Prod.mk.inj hdb).1
  have hinserted : rawRowsOf janFirst (twoPortions.filterMap RawStep.inserted) =
      [beatAt 1 "08:00:00.000000", beatAt 2 "20:00:00.000000"] := by decide +kernel
  rw [hinserted] at hconserved
  dsimp only at hconserved
  rw [show ((rawTables storedText).stateAfter { rows := [], rawArchive := [] } twoPortions).rows = []
    from hrows] at hconserved
  simpa [rawRowsOf] using hconserved

end Srp.Db
