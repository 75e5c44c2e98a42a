/-
  Srp/Db/AgentVersion.lean
  ========================
  **The agent version of a device** (`_resolve_agent_version`, `upsert_device` and
  `touch_device` of `server/db.py`).

  An agent sends its fresh envelope first and then the ones it had buffered, which
  still name the version of their day.  A version that is not lower than the stored
  one is always taken.  A lower one is taken when its envelope is younger than the
  last change of version, or when that change is more than an hour old.

  A stamp is the instant, in microseconds, that `_parse_iso` reads in its text
  (`none` where it reads none).
-/
import Mathlib.Data.Prod.Lex
import Mathlib.Data.Rat.Defs
import Srp.Lib.IsoTime
import Srp.Lib.Lines
import Srp.Lib.PyInt
import Srp.Lib.Table

namespace Srp.Db

open Srp.Lib.IsoTime Srp.Lib.Lines Srp.Lib.PyInt Srp.Lib.Table

/-! ### Versions -/

/-- `MAJOR.MINOR.PATCH`; tuples compare from the left. -/
abbrev Version := Int ×ₗ Int ×ₗ Int

/-- `parse_version`. -/
def parseVersion (C : PyChars) (value : Option Text) : Option Version :=
  match (value.getD []).splitOn '.' with
  | [major, minor, patch] => do
    return toLex (← pyInt C major, toLex (← pyInt C minor, ← pyInt C patch))
  | _ => none

/-- `_VERSION_STALENESS_ESCAPE`. -/
def versionStalenessEscape : Int := usPerHour

/-- `envelope_dt > changed_dt`, when both are stamps. -/
def createdAfter (envelopeTs changedAt : Option Int) : Bool :=
  envelopeTs.any fun envelope => changedAt.any fun changed => changed < envelope

/-- `now - changed_dt > _VERSION_STALENESS_ESCAPE`. -/
def changedLongAgo (now : Int) (changedAt : Option Int) : Bool :=
  changedAt.any fun changed => versionStalenessEscape < now - changed

/-- `_resolve_agent_version`, at the server time `now`. -/
def resolveAgentVersion (C : PyChars) (storedVersion : Option Text) (storedChangedAt : Option Int)
    (incomingVersion : Text) (envelopeTs : Option Int) (now : Int) : Text :=
  match parseVersion C (some incomingVersion) with
  | none => storedVersion.getD incomingVersion
  | some incoming =>
    match parseVersion C storedVersion with
    | none => incomingVersion
    | some stored =>
      if stored ≤ incoming then incomingVersion
      else if createdAfter envelopeTs storedChangedAt then incomingVersion
      else if changedLongAgo now storedChangedAt then incomingVersion
      else storedVersion.getD incomingVersion

/-! ### Devices -/

/-- The columns that an envelope fills and never empties. -/
structure DeviceInfo where
  hostname : Option Text := none
  manufacturer : Option Text := none
  model : Option Text := none
  chassis : Option Text := none
  siteCode : Option Text := none
  siteName : Option Text := none
  orgCode : Option Text := none
  deptCode : Option Text := none
  comment : Option Text := none
  ownerFullName : Option Text := none
  ownerPosition : Option Text := none
  ownerPhone : Option Text := none
deriving DecidableEq, Repr

/-- `COALESCE(excluded.c, devices.c)` in each of the columns. -/
def DeviceInfo.coalesce (new old : DeviceInfo) : DeviceInfo where
  hostname := new.hostname <|> old.hostname
  manufacturer := new.manufacturer <|> old.manufacturer
  model := new.model <|> old.model
  chassis := new.chassis <|> old.chassis
  siteCode := new.siteCode <|> old.siteCode
  siteName := new.siteName <|> old.siteName
  orgCode := new.orgCode <|> old.orgCode
  deptCode := new.deptCode <|> old.deptCode
  comment := new.comment <|> old.comment
  ownerFullName := new.ownerFullName <|> old.ownerFullName
  ownerPosition := new.ownerPosition <|> old.ownerPosition
  ownerPhone := new.ownerPhone <|> old.ownerPhone

structure DeviceRow where
  deviceId : Text
  info : DeviceInfo
  agentVersion : Option Text
  firstSeen : Int
  lastSeen : Int
  lastReportedTs : Text
  clockDriftSec : Option ℚ
  versionChangedAt : Option Int
deriving DecidableEq, Repr

/-- What the pipeline hands over of an envelope, and the server time at which its version is
    resolved. -/
structure Contact where
  deviceId : Text
  ts : Text
  agentVersion : Text
  info : DeviceInfo := {}
  receivedAt : Int
  lastReportedTs : Option Text := none
  clockDriftSec : Option ℚ := none
  envelopeTs : Option Int := none
  now : Int
deriving DecidableEq, Repr

/-- `last_reported_ts or ts`. -/
def Contact.reported (c : Contact) : Text :=
  match c.lastReportedTs with
  | none => c.ts
  | some text => if text = [] then c.ts else text

/-- The `DO UPDATE` part. -/
def mergeDeviceRow (old new : DeviceRow) : DeviceRow :=
  { old with
    info := new.info.coalesce old.info
    agentVersion := new.agentVersion
    lastSeen := new.lastSeen
    lastReportedTs := new.lastReportedTs
    clockDriftSec := new.clockDriftSec
    versionChangedAt :=
      if new.agentVersion ≠ old.agentVersion then some new.lastSeen else old.versionChangedAt }

/-- The stored version of a device. -/
def agentVersionOf (table : List DeviceRow) (deviceId : Text) : Option Text :=
  (row DeviceRow.deviceId table deviceId).bind (·.agentVersion)

def versionChangedAtOf (table : List DeviceRow) (deviceId : Text) : Option Int :=
  (row DeviceRow.deviceId table deviceId).bind (·.versionChangedAt)

section Writers

variable (C : PyChars)

/-- The version that a contact leaves in the table. -/
def resolvedVersion (table : List DeviceRow) (c : Contact) : Text :=
  resolveAgentVersion C (agentVersionOf table c.deviceId) (versionChangedAtOf table c.deviceId)
    c.agentVersion c.envelopeTs c.now

/-- `upsert_device`. -/
def upsertDevice (table : List DeviceRow) (c : Contact) : List DeviceRow :=
  upsert DeviceRow.deviceId mergeDeviceRow
    { deviceId := c.deviceId
      info := c.info
      agentVersion := some (resolvedVersion C table c)
      firstSeen := c.receivedAt
      lastSeen := c.receivedAt
      lastReportedTs := c.reported
      clockDriftSec := c.clockDriftSec
      versionChangedAt := some c.receivedAt }
    table

/-- `touch_device` does not name the columns of the hardware. -/
def touchDevice (table : List DeviceRow) (c : Contact) : List DeviceRow :=
  upsertDevice C table
    { c with info := { c.info with manufacturer := none, model := none, chassis := none } }

/-- An inventory goes to `upsert_device`, every other envelope to `touch_device`. -/
def ingestDevice (inventory : Bool) (table : List DeviceRow) (c : Contact) : List DeviceRow :=
  if inventory then upsertDevice C table c else touchDevice C table c

/-! ### What a contact leaves behind -/

theorem key_mergeDeviceRow (old new : DeviceRow) (h : old.deviceId = new.deviceId) :
    (mergeDeviceRow old new).deviceId = new.deviceId := h

theorem row_upsertDevice (table : List DeviceRow) (c : Contact) :
    ∃ r, row DeviceRow.deviceId (upsertDevice C table c) c.deviceId = some r ∧
      r.agentVersion = some (resolvedVersion C table c) ∧
      r.versionChangedAt = if agentVersionOf table c.deviceId = some (resolvedVersion C table c)
        then versionChangedAtOf table c.deviceId else some c.receivedAt := by
  unfold upsertDevice
  rw [row_upsert fun old => key_mergeDeviceRow old _, if_pos rfl]
  refine ⟨_, rfl, ?_⟩
  unfold agentVersionOf versionChangedAtOf
  cases row DeviceRow.deviceId table c.deviceId with
  | none => simp
  | some old =>
    simp only [Option.map_some, Option.getD_some, Option.bind_some, mergeDeviceRow, true_and]
    by_cases hsame : old.agentVersion = some (resolvedVersion C table c)
    · rw [if_pos hsame, if_neg (fun h => h hsame.symm)]
    · rw [if_neg hsame, if_pos (Ne.symm hsame)]

/-- Both writers keep the same books about the version. -/
theorem ingestDevice_spec (inventory : Bool) (table : List DeviceRow) (c : Contact) :
    agentVersionOf (ingestDevice C inventory table c) c.deviceId =
        some (resolvedVersion C table c) ∧
      versionChangedAtOf (ingestDevice C inventory table c) c.deviceId =
        if agentVersionOf table c.deviceId = some (resolvedVersion C table c)
        then versionChangedAtOf table c.deviceId else some c.receivedAt := by
  unfold ingestDevice
  split
  · obtain ⟨r, hr, hversion, hchanged⟩ := row_upsertDevice C table c
    rw [agentVersionOf, hr, Option.bind_some, hversion, versionChangedAtOf, hr, Option.bind_some,
      hchanged]
    exact ⟨rfl, rfl⟩
  · obtain ⟨r, hr, hversion, hchanged⟩ := row_upsertDevice C table
      { c with info := { c.info with manufacturer := none, model := none, chassis := none } }
    have hrow : row DeviceRow.deviceId (touchDevice C table c) c.deviceId = some r := hr
    rw [agentVersionOf, hrow, Option.bind_some, hversion, versionChangedAtOf, hrow,
      Option.bind_some, hchanged]
    exact ⟨rfl, rfl⟩

end Writers

/-! ### A fresh envelope and a buffered one -/

theorem resolveAgentVersion_of_le {C : PyChars} {stored : Option Text} {changedAt : Option Int}
    {incoming : Text} {envelopeTs : Option Int} {now : Int} {old new : Version}
    (hnew : parseVersion C (some incoming) = some new) (hold : parseVersion C stored = some old)
    (hle : old ≤ new) :
    resolveAgentVersion C stored changedAt incoming envelopeTs now = incoming := by
  simp only [resolveAgentVersion, hnew, hold, if_pos hle]

theorem resolveAgentVersion_of_lt {C : PyChars} {stored incoming : Text} {changedAt : Option Int}
    {envelopeTs : Option Int} {now : Int} {old new : Version}
    (hnew : parseVersion C (some incoming) = some new)
    (hold : parseVersion C (some stored) = some old) (hlt : new < old) :
    resolveAgentVersion C (some stored) changedAt incoming envelopeTs now =
      if createdAfter envelopeTs changedAt ∨ changedLongAgo now changedAt then incoming
      else stored := by
  simp only [resolveAgentVersion, hnew, hold, if_neg (not_le.mpr hlt), Option.getD_some]
  by_cases hafter : createdAfter envelopeTs changedAt = true
  · rw [if_pos hafter, if_pos (Or.inl hafter)]
  · rw [if_neg hafter]
    by_cases hago : changedLongAgo now changedAt = true
    · rw [if_pos hago, if_pos (Or.inr hago)]
    · rw [if_neg hago, if_neg (not_or.mpr ⟨hafter, hago⟩)]

/-- A fresh envelope whose version is taken, and a buffered one that is older and is resolved
    within an hour of the receipt of the first. -/
structure Replay (C : PyChars) (inventory : Bool) (table : List DeviceRow)
    (fresh buffered : Contact) where
  device : buffered.deviceId = fresh.deviceId
  freshVersion : Version
  parsesFresh : parseVersion C (some fresh.agentVersion) = some freshVersion
  bufferedVersion : Version
  parsesBuffered : parseVersion C (some buffered.agentVersion) = some bufferedVersion
  freshTs : Int
  readsFresh : fresh.envelopeTs = some freshTs
  bufferedTs : Int
  readsBuffered : buffered.envelopeTs = some bufferedTs
  older : bufferedTs < freshTs
  clock : freshTs ≤ fresh.receivedAt
  withinHour : buffered.now - fresh.receivedAt ≤ versionStalenessEscape
  accepted :
    agentVersionOf (ingestDevice C inventory table fresh) fresh.deviceId = some fresh.agentVersion

namespace Replay

variable {C : PyChars} {inventory : Bool} {table : List DeviceRow} {fresh buffered : Contact}

theorem resolved_fresh (w : Replay C inventory table fresh buffered) :
    resolvedVersion C table fresh = fresh.agentVersion := by
  have h := w.accepted
  rw [(ingestDevice_spec C inventory table fresh).1] at h
  exact Option.some.inj h

/-- The version after both envelopes, as the second one is resolved. -/
theorem agentVersionOf_both (w : Replay C inventory table fresh buffered) (inventory' : Bool) :
    agentVersionOf (ingestDevice C inventory' (ingestDevice C inventory table fresh) buffered)
        fresh.deviceId =
      some (resolveAgentVersion C (some fresh.agentVersion)
        (if agentVersionOf table fresh.deviceId = some fresh.agentVersion
          then versionChangedAtOf table fresh.deviceId else some fresh.receivedAt)
        buffered.agentVersion buffered.envelopeTs buffered.now) := by
  have hspec := ingestDevice_spec C inventory table fresh
  rw [w.resolved_fresh] at hspec
  rw [← w.device, (ingestDevice_spec C inventory' _ buffered).1, resolvedVersion, w.device, hspec.1,
    hspec.2]

theorem of_le (w : Replay C inventory table fresh buffered) (inventory' : Bool)
    (hle : w.freshVersion ≤ w.bufferedVersion) :
    agentVersionOf (ingestDevice C inventory' (ingestDevice C inventory table fresh) buffered)
      fresh.deviceId = some buffered.agentVersion := by
  rw [w.agentVersionOf_both, resolveAgentVersion_of_le w.parsesBuffered w.parsesFresh hle]

/-- The change is younger than the buffered envelope, and less than an hour old. -/
theorem of_lt_of_changed (w : Replay C inventory table fresh buffered) (inventory' : Bool)
    (hlt : w.bufferedVersion < w.freshVersion)
    (hchanged : agentVersionOf table fresh.deviceId ≠ some fresh.agentVersion) :
    agentVersionOf (ingestDevice C inventory' (ingestDevice C inventory table fresh) buffered)
      fresh.deviceId = some fresh.agentVersion := by
  rw [w.agentVersionOf_both, if_neg hchanged,
    resolveAgentVersion_of_lt w.parsesBuffered w.parsesFresh hlt, if_neg]
  have holder := w.older
  have hclock := w.clock
  have hhour := w.withinHour
  simp only [createdAfter, w.readsBuffered, changedLongAgo, Option.any_some, decide_eq_true_eq]
  omega

theorem of_lt_of_same (w : Replay C inventory table fresh buffered) (inventory' : Bool)
    (hlt : w.bufferedVersion < w.freshVersion)
    (hsame : agentVersionOf table fresh.deviceId = some fresh.agentVersion) :
    agentVersionOf (ingestDevice C inventory' (ingestDevice C inventory table fresh) buffered)
        fresh.deviceId =
      if createdAfter buffered.envelopeTs (versionChangedAtOf table fresh.deviceId) ∨
          changedLongAgo buffered.now (versionChangedAtOf table fresh.deviceId)
        then some buffered.agentVersion else some fresh.agentVersion := by
  rw [w.agentVersionOf_both, if_pos hsame,
    resolveAgentVersion_of_lt w.parsesBuffered w.parsesFresh hlt, apply_ite some]

end Replay

/-- A buffered envelope leaves the version of a fresh one in place when it names a lower one
    and the fresh one changed the version, and also when the fresh one did not but the last
    change is younger than the buffered envelope and at most an hour old.  A version that is
    not lower is always taken. -/
theorem replay_outcome {C : PyChars} {inventory : Bool} {table : List DeviceRow}
    {fresh buffered : Contact} (w : Replay C inventory table fresh buffered)
    (inventory' : Bool) :
    let after := agentVersionOf
      (ingestDevice C inventory' (ingestDevice C inventory table fresh) buffered) fresh.deviceId
    let changedAt := versionChangedAtOf table fresh.deviceId
    (w.freshVersion ≤ w.bufferedVersion → after = some buffered.agentVersion) ∧
      (w.bufferedVersion < w.freshVersion →
        agentVersionOf table fresh.deviceId ≠ some fresh.agentVersion →
        after = some fresh.agentVersion) ∧
      (w.bufferedVersion < w.freshVersion →
        agentVersionOf table fresh.deviceId = some fresh.agentVersion →
        after = if createdAfter buffered.envelopeTs changedAt ∨
            changedLongAgo buffered.now changedAt
          then some buffered.agentVersion else some fresh.agentVersion) := by
  exact ⟨w.of_le inventory', w.of_lt_of_changed inventory', w.of_lt_of_same inventory'⟩

/-! ### After a downgrade -/

private def stamped (version : String) (ts receivedAt : Int) : Contact where
  deviceId := "d1".toList
  ts := []
  agentVersion := version.toList
  receivedAt := receivedAt
  envelopeTs := some ts
  now := receivedAt

/-- A device that reported 2.0.0. -/
private def upgraded : List DeviceRow := ingestDevice .ascii false [] (stamped "2.0.0" 5 10)

/-- It goes back to 1.0.0, and then an envelope comes that it had buffered before. -/
private def afterDowngrade :
    Replay .ascii false upgraded (stamped "1.0.0" 30 40) (stamped "2.0.0" 20 50) where
  device := rfl
  freshVersion := toLex (1, toLex (0, 0))
  parsesFresh := by decide
  bufferedVersion := toLex (2, toLex (0, 0))
  parsesBuffered := by decide
  freshTs := 30
  readsFresh := rfl
  bufferedTs := 20
  readsBuffered := rfl
  older := by decide
  clock := by decide
  withinHour := by decide
  accepted := by decide

/-- The envelope of before the update. -/
private def afterUpgrade :
    Replay .ascii false upgraded (stamped "3.0.0" 30 40) (stamped "2.0.0" 20 50) where
  device := rfl
  freshVersion := toLex (3, toLex (0, 0))
  parsesFresh := by decide
  bufferedVersion := toLex (2, toLex (0, 0))
  parsesBuffered := by decide
  freshTs := 30
  readsFresh := rfl
  bufferedTs := 20
  readsBuffered := rfl
  older := by decide
  clock := by decide
  withinHour := by decide
  accepted := by decide

theorem replay_outcome_upgrade :
    agentVersionOf (ingestDevice .ascii true
      (ingestDevice .ascii false upgraded (stamped "3.0.0" 30 40)) (stamped "2.0.0" 20 50))
      "d1".toList = some "3.0.0".toList :=
  (replay_outcome afterUpgrade true).2.1 (by decide) (by decide)

theorem replay_reverts_downgrade :
    ¬ ∀ (C : PyChars) (inventory inventory' : Bool) (table : List DeviceRow)
      (fresh buffered : Contact), Replay C inventory table fresh buffered →
        agentVersionOf (ingestDevice C inventory' (ingestDevice C inventory table fresh) buffered)
          fresh.deviceId = some fresh.agentVersion := by
  intro h
  have hkept := h .ascii false false upgraded _ _ afterDowngrade
  revert hkept
  decide

end Srp.Db
