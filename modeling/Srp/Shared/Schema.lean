/-
  Srp/Shared/Schema.lean
  ======================
  **Wire payloads** (`shared/schema.py`), with the fields that the modelled
  engines read.  Counters are Python integers of any size; `wear_pct` and the
  latencies are floats.
-/
import Mathlib.Data.Rat.Defs

namespace Srp.Shared

/-- One `StorageReliability` row: the SMART reading of a physical disk. -/
structure StorageReliability where
  disk : Option String := none
  serialHash : Option String := none
  wearPct : Option ℚ := none
  powerOnHours : Option Int := none
  reallocatedSectors : Option Int := none
  readErrorsTotal : Option Int := none
  writeErrorsTotal : Option Int := none
  temperatureC : Option Int := none
  readErrorsUncorrected : Option Int := none
  writeErrorsUncorrected : Option Int := none
  smartPredictFail : Option Bool := none
  smartAttrs : List (String × Int) := []
  nvmeCriticalWarning : Option Int := none
  nvmeSparePct : Option Int := none
  nvmeSpareThresholdPct : Option Int := none
  nvmePercentageUsed : Option Int := none
  nvmeMediaErrors : Option Int := none
  nvmeUnsafeShutdowns : Option Int := none
  nvmePowerCycles : Option Int := none
deriving DecidableEq, Repr

/-- A stored row of one disk's series.  `whenUs` is the instant that `_parse_iso`
    reads off `received_at or ts`, in microseconds; `none` when it does not parse. -/
structure DiskReading extends StorageReliability where
  whenUs : Option Int := none
deriving DecidableEq, Repr

structure NetAdapter where
  name : Option String := none
  kind : Option String := none
  up : Option Bool := none
  ipv4 : List String := []
  signalPct : Option Int := none
deriving DecidableEq, Repr

structure NetQuality where
  targetKind : Option String := none
  target : Option String := none
  latencyMs : Option ℚ := none
  lossPct : Option ℚ := none
deriving DecidableEq, Repr

structure HistoricalPayload where
  storage : List StorageReliability := []
  reliabilityStabilityIndex : Option ℚ := none
  kernelPower41_30d : Option Int := none
  dirtyShutdowns30d : Option Int := none
  bugchecks30d : Option Int := none
  appCrashes30d : Option Int := none
  avgBootMs : Option Int := none
  networkAdapters : List NetAdapter := []
  networkQuality : List NetQuality := []
deriving DecidableEq, Repr

structure HeartbeatPayload where
  diskReadSec : Option ℚ := none
  diskWriteSec : Option ℚ := none
  cpuPerfPct : Option ℚ := none
  memAvailMb : Option ℚ := none
  pagefilePct : Option ℚ := none
  freeSpacePct : Option ℚ := none
  handleCountTotal : Option Int := none
  nicErrors : Option Int := none
  uptimeHours : Option ℚ := none
  diskReadMsP50 : Option ℚ := none
  diskReadMsP95 : Option ℚ := none
  diskLatSamples : Option Int := none
deriving DecidableEq, Repr

/-- The two dates are the instants that `_parse_date` reads, in microseconds. -/
structure InventoryPayload where
  biosReleaseUs : Option Int := none
  osInstallUs : Option Int := none
  driverProblemCount : Option Int := none
  pendingReboot : Option Bool := none
deriving DecidableEq, Repr

/-! ### Stored rows

A row of a series is its payload with the columns of the table. -/

structure HistoricalRow extends HistoricalPayload where
  whenUs : Option Int := none
deriving DecidableEq, Repr

structure HeartbeatRow extends HeartbeatPayload where
  whenUs : Option Int := none
  clockDriftSec : Option ℚ := none
deriving DecidableEq, Repr

structure EventItem where
  source : Option String := none
  eventId : Option Int := none
deriving DecidableEq, Repr

end Srp.Shared
