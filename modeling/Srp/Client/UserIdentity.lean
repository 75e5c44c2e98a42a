/-
  Srp/Client/UserIdentity.lean
  ============================
  **The tray's spool of the owner's personal data**
  (`client/collectors/user_identity.py`).

  The newest record wins, and among equally new ones the file that comes first.
  The reader never raises (`readOwnerIdentity_eq`): the stamp is compared with the
  clock as an integer, and one that has passed that comparison is small enough for
  the float arithmetic behind it.
-/
import Srp.Client.UserCerts

namespace Srp.Client

open Srp.Lib Srp.Lib.PyNum Srp.Lib.PyUnicode

def maxOwnerFileBytes : Nat := 16 * 1024
def futureSlackSec : ℚ := 86400
def fullNameMax : Nat := 140
def positionMax : Nat := 140
def phoneMax : Nat := 32

/-- `time.time()`: a finite double. -/
structure Clock where
  time : ℚ
  finite : time ≤ maxDouble

structure OwnerIdentity where
  fullName : Option PyStr := none
  position : Option PyStr := none
  phone : Option PyStr := none
deriving DecidableEq

section Reader

variable (I : Interpreter)

/-- `_clip`. -/
def clipText (value : Value) (limit : Nat) : Option PyStr :=
  match value with
  | .str s => if (strip I s).take limit = [] then none else some ((strip I s).take limit)
  | _ => none

/-- `_candidates`.  A file whose `stat` raises is passed over. -/
def candidates (dir : SpoolDir) : List SpoolFile :=
  let rows := (dir.getD []).filter (·.regular = some true)
  (rows.insertionSort fun f g => g.mtime < f.mtime ∨
    (f.mtime = g.mtime ∧ f.name.map PyChar.ord ≤ g.name.map PyChar.ord)).take maxFiles

/-- The record of a document whose stamp is fresh. -/
def ownerFields (data : List (PyStr × Value)) (writtenAt : Int) : Option (Int × OwnerIdentity) :=
  let fields : OwnerIdentity :=
    { fullName := clipText I (Value.get data "full_name") fullNameMax
      position := clipText I (Value.get data "position") positionMax
      phone := clipText I (Value.get data "phone") phoneMax }
  if fields = {} then none else some (writtenAt, fields)

/-- `int(data.get("written_at") or 0)`. -/
def ownerStamp (data : List (PyStr × Value)) : Except PyError Int :=
  let raw := Value.get data "written_at"
  intOf I (if truthy I raw then raw else .int 0)

/-- `(now - written_at) > _FRESH_SEC`. -/
def isExpired (now : ℚ) (writtenAt : Int) : Except PyError Bool :=
  (floatOfInt writtenAt).map fun written => freshSec < now - written

/-- `_load`. -/
def loadOwner (now : ℚ) (f : SpoolFile) : Except PyError (Option (Int × OwnerIdentity)) :=
  match f.load maxOwnerFileBytes with
  | some (.obj data) =>
    match ownerStamp I data with
    | .error _ => .ok none
    | .ok writtenAt =>
      if writtenAt ≤ 0 ∨ now + futureSlackSec < writtenAt then .ok none
      else (isExpired now writtenAt).map fun expired =>
        if expired then none else ownerFields I data writtenAt
  | _ => .ok none

/-- `if best is None or loaded[0] > best[0]: best = loaded`. -/
def newer (best : Option (Int × OwnerIdentity)) (loaded : Int × OwnerIdentity) :
    Option (Int × OwnerIdentity) :=
  if best.all fun b => decide (b.1 < loaded.1) then some loaded else best

/-- The loop of `read_owner_identity`. -/
def bestOwner (now : ℚ) : List SpoolFile → Option (Int × OwnerIdentity) →
    Except PyError (Option (Int × OwnerIdentity))
  | [], best => .ok best
  | f :: fs, best =>
    match loadOwner I now f with
    | .error e => .error e
    | .ok none => bestOwner now fs best
    | .ok (some loaded) => bestOwner now fs (newer best loaded)

/-- `read_owner_identity`. -/
def readOwnerIdentity (now : ℚ) (dir : SpoolDir) : Except PyError OwnerIdentity :=
  (bestOwner I now (candidates dir) none).map fun best => (best.map (·.2)).getD {}

/-! ### The reader returns -/

/-- A stamp that the future bound lets through fits a float. -/
theorem isExpired_eq (now : Clock) {writtenAt : Int} (hpos : ¬ writtenAt ≤ 0)
    (hfuture : ¬ now.time + futureSlackSec < writtenAt) :
    isExpired now.time writtenAt = .ok (freshSec < now.time - writtenAt) := by
  have hbound : maxDouble + 86400 < floatLimit := by decide +kernel
  have hcast : (maxDouble : ℚ) + 86400 < floatLimit := by exact_mod_cast hbound
  have hclock : (writtenAt : ℚ) ≤ now.time + 86400 := not_lt.mp hfuture
  have hlt : (writtenAt : ℚ) < floatLimit := by linarith [now.finite]
  have hlimit : writtenAt < (floatLimit : Int) := by exact_mod_cast hlt
  have hfits : writtenAt.natAbs < floatLimit := by omega
  rw [isExpired, floatOfInt, if_pos hfits]
  rfl

/-- The record of a file, where it has a fresh one. -/
def ownerRecord (now : ℚ) (f : SpoolFile) : Option (Int × OwnerIdentity) :=
  match f.load maxOwnerFileBytes with
  | some (.obj data) =>
    match ownerStamp I data with
    | .error _ => none
    | .ok writtenAt =>
      if writtenAt ≤ 0 ∨ now + futureSlackSec < writtenAt ∨ freshSec < now - writtenAt then none
      else ownerFields I data writtenAt
  | _ => none

theorem loadOwner_eq (now : Clock) (f : SpoolFile) :
    loadOwner I now.time f = .ok (ownerRecord I now.time f) := by
  unfold loadOwner ownerRecord
  cases f.load maxOwnerFileBytes with
  | none => rfl
  | some v =>
    cases v with
    | obj data =>
      dsimp only
      cases ownerStamp I data with
      | error e => rfl
      | ok writtenAt =>
        dsimp only
        by_cases hpos : writtenAt ≤ 0
        · rw [if_pos (.inl hpos), if_pos (.inl hpos)]
        · by_cases hfuture : now.time + futureSlackSec < writtenAt
          · rw [if_pos (.inr hfuture), if_pos (.inr (.inl hfuture))]
          · rw [if_neg (not_or.mpr ⟨hpos, hfuture⟩), isExpired_eq now hpos hfuture]
            by_cases hold : freshSec < now.time - writtenAt
            · rw [if_pos (.inr (.inr hold))]
              simp [Except.map, hold]
            · rw [if_neg (by simp [hpos, hfuture, hold])]
              simp [Except.map, hold]
    | _ => rfl

theorem bestOwner_eq (now : Clock) (fs : List SpoolFile) (best : Option (Int × OwnerIdentity)) :
    bestOwner I now.time fs best =
      .ok ((fs.filterMap (ownerRecord I now.time)).foldl newer best) := by
  induction fs generalizing best with
  | nil => rfl
  | cons f fs ih =>
    rw [bestOwner, loadOwner_eq]
    cases hf : ownerRecord I now.time f with
    | none =>
      rw [List.filterMap_cons_none hf]
      exact ih best
    | some loaded =>
      rw [List.filterMap_cons_some hf, List.foldl_cons]
      exact ih (newer best loaded)

/-- The first of the newest records of the spool. -/
def ownerOf (now : ℚ) (dir : SpoolDir) : OwnerIdentity :=
  ((((candidates dir).filterMap (ownerRecord I now)).foldl newer none).map (·.2)).getD {}

theorem readOwnerIdentity_eq (now : Clock) (dir : SpoolDir) :
    readOwnerIdentity I now.time dir = .ok (ownerOf I now.time dir) := by
  rw [readOwnerIdentity, bestOwner_eq]
  rfl

end Reader

end Srp.Client
