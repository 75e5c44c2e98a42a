/-
  Srp/Trust/Domains.lean
  ======================
  **The stored trust of a device** (`server/trust/states.py`,
  `server/trust/domains.py`), as the scoring chain reads it back.

  A scoring domain is trusted, unknown or not applicable; a source is in one of
  six states, of which two pass the gate.  A device is untrusted when its
  identity source fails the gate.
-/
import Srp.Analytics.StorageRisk

namespace Srp.Trust

open Srp.Analytics.Storage (DeviceTrust DomainTrustState)

/-- The keys of `DOMAIN_SOURCES`. -/
inductive DomainName where
  | storage
  | diskFill
  | osStability
  | boot
  | thermal
  | network
deriving DecidableEq, Repr

def DomainName.all : List DomainName :=
  [.storage, .diskFill, .osStability, .boot, .thermal, .network]

def DomainName.key : DomainName → String
  | .storage => "storage"
  | .diskFill => "disk_fill"
  | .osStability => "os_stability"
  | .boot => "boot"
  | .thermal => "thermal"
  | .network => "network"

inductive SourceState where
  | ok
  | degraded
  | stale
  | unavailable
  | suspect
  | notApplicable
deriving DecidableEq, Repr

/-- `GATE_PASS`. -/
def gatePass : List SourceState := [.ok, .degraded]

/-- A stored source: a state that is no `SourceState` reads as `none`. -/
structure SourceEntry where
  state : Option SourceState := none
  regressed : Bool := false
deriving DecidableEq, Repr

/-- The result column of the `trust` table. -/
structure Trust where
  domains : DomainName → Option DomainTrustState := fun _ => none
  sources : List (String × SourceEntry) := []

/-- `_device_trust`. -/
def deviceTrust (trust : Trust) : DeviceTrust :=
  match (trust.sources.lookup "identity").bind (·.state) with
  | none => .ok
  | some state => if state ∈ gatePass then .ok else .untrusted

/-- A domain that was evaluated and is neither trusted nor absent from the hardware. -/
def gateFailed : Option DomainTrustState → Bool
  | some .unknown => true
  | _ => false

end Srp.Trust
