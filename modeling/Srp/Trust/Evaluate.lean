/-
  Srp/Trust/Evaluate.lean
  =======================
  **The trust of the sources a message reports** (`evaluate_trust` in
  `server/pipeline.py`, `resolve_domain_trust` in `server/trust/domains.py`).

  Every source that the message reports is assessed and its row written, one
  source after the other; then the rows of the device give the stored result.
  A source whose validator raises ends the call, with the rows of the sources
  before it already written.
-/
import Srp.Lib.IsoTime
import Srp.Lib.Table
import Srp.Trust.Validators

namespace Srp.Trust

open Srp.Lib Srp.Lib.Lines Srp.Lib.PyJson Srp.Lib.IsoTime
open Srp.Analytics.Storage (DomainTrustState)

/-! ### Sources and domains -/

structure DomainSpec where
  required : List String
  optional : List String := []
deriving DecidableEq, Repr

/-- `DOMAIN_SOURCES`. -/
def domainSources : DomainName → DomainSpec
  | .storage => { required := ["storage_reliability"], optional := ["disk_latency", "smart"] }
  | .diskFill => { required := ["free_space"] }
  | .osStability => { required := ["reliability"] }
  | .boot => { required := ["boot_time"] }
  | .thermal => { required := ["throttle"] }
  | .network => { required := ["network"] }

/-- `DOMAIN_GATING_SOURCES`. -/
def domainGatingSources : List String :=
  DomainName.all.flatMap fun d => (domainSources d).required ++ (domainSources d).optional

/-- `_KNOWN_TRUST_SOURCES`. -/
def knownTrustSources : List String :=
  domainGatingSources ++ materialSources ++ ["identity", "events", "certificates", "print_jobs"]

/-- `_EMPTY_COERCIBLE_SOURCES`. -/
def emptyCoercibleSources : List String :=
  domainGatingSources.filter fun source => source ∈ materialSources

/-! ### The reading of a source -/

variable (P : PyValues)

/-- The first of `payload.get("storage") or [{}]`; `none` where the code raises, here or at the
    first `.get` on what is no dictionary. -/
def firstDisk (payload : Fields) : Option Fields :=
  if !truthy P (getField payload "storage") then some []
  else match getField payload "storage" with
    | .arr (.obj item :: _) => some item
    | _ => none

def scalarReading (payload : Fields) (key : String) : Fields :=
  [("value".toList, getField payload key)]

/-- The fields of the disk that `smart` keeps as they are. -/
def smartFields : List String :=
  ["serial_hash", "temperature_c", "power_on_hours", "nvme_spare_pct",
    "nvme_spare_threshold_pct", "nvme_percentage_used", "nvme_media_errors",
    "nvme_unsafe_shutdowns"]

/-- `item.get("smart_attrs") or {}`. -/
def smartAttrs (item : Fields) : Json :=
  if truthy P (getField item "smart_attrs") then getField item "smart_attrs" else .obj []

/-- `a.get("signal_pct")` of the adapters that are dictionaries and have one. -/
def signalPct : Json → Option Json
  | .obj a => match getField a "signal_pct" with
    | .null => none
    | pct => some pct
  | _ => none

/-- `_extract_reading`. -/
def extractReading (source : String) (payload : Fields) : Option Fields :=
  match source with
  | "storage_reliability" => firstDisk P payload
  | "smart" => do
    let item ← firstDisk P payload
    return smartFields.map (fun key => (key.toList, getField item key)) ++
      [("smart_attrs".toList, smartAttrs P item)]
  | "free_space" => some (scalarReading payload "free_space_pct")
  | "throttle" => some (scalarReading payload "cpu_perf_pct")
  | "reliability" => some (scalarReading payload "reliability_stability_index")
  | "boot_time" => some (scalarReading payload "avg_boot_ms")
  | "network" => do
    let adapters ← iterate P (getField payload "network_adapters")
    let quality := getField payload "network_quality"
    return [("quality".toList, if truthy P quality then quality else .arr []),
      ("adapters_count".toList, .int adapters.length),
      ("signal_pcts".toList, .arr (adapters.filterMap signalPct))]
  | _ => some []

/-- `_reading_is_empty`. -/
def readingIsEmpty (reading : Fields) : Bool :=
  reading.isEmpty ||
    (reading.all fun f => f.1 = "value".toList) &&
      match getField reading "value" with
      | .null => true
      | _ => false

/-! ### The verdict on one source -/

structure Verdict where
  collectorStatus : CollectorStatus
  semanticStatus : SemanticStatus
  reason : Text
  reading : Fields

/-- A collector that says ok of an empty reading has delivered nothing. -/
def coerceStatus (source : String) (status : CollectorStatus) (reading : Fields) :
    CollectorStatus :=
  if status = .ok ∧ readingIsEmpty reading ∧ source ∈ emptyCoercibleSources then .empty
  else status

def assess (source : String) (status : CollectorStatus) (payload : Fields)
    (lastGood : Option Fields) : Option Verdict := do
  let reading ← extractReading P source payload
  let result ← validateSource P source reading lastGood
  return { collectorStatus := coerceStatus source status reading, semanticStatus := result.1,
           reason := result.2.getD [], reading }

/-- The state that an ingest writes: no age is known to it. -/
def Verdict.state (v : Verdict) : SourceState := baseState v.collectorStatus v.semanticStatus

/-! ### The tables -/

/-- A row of `device_source_trust`; a stamp of the server is the instant that its text denotes. -/
structure SourceTrustRow where
  deviceId : String
  source : String
  state : SourceState
  weight : ℚ
  collectorStatus : CollectorStatus
  semanticStatus : SemanticStatus
  reason : Text
  ts : String
  evidenceSeenAt : Option Instant
deriving DecidableEq, Repr

abbrev SourceKey := String × String

def SourceTrustRow.key (r : SourceTrustRow) : SourceKey := (r.deviceId, r.source)

/-- The state that the stored statuses give without an age. -/
def SourceTrustRow.base (r : SourceTrustRow) : SourceState :=
  baseState r.collectorStatus r.semanticStatus

structure LastGoodRow where
  deviceId : String
  source : String
  reading : Fields
  ts : String

def LastGoodRow.key (r : LastGoodRow) : SourceKey := (r.deviceId, r.source)

/-- `SourceTrust`. -/
structure SourceTrust where
  state : SourceState
  weight : ℚ
  collectorStatus : CollectorStatus
  semanticStatus : SemanticStatus
  reason : Option Text

/-- `DomainTrust`. -/
structure DomainTrust where
  state : DomainTrustState
  weight : ℚ
  contributing : List String := []
  dropped : List String := []
  reason : Text := []

/-- An entry of `sources` in a stored result. -/
structure SourceResult where
  trust : SourceTrust
  regressed : Bool

/-- What `build_trust_blob` returns. -/
structure TrustBlob where
  domains : DomainName → DomainTrust
  sources : List (String × SourceResult)

structure TrustResultRow where
  deviceId : String
  ts : String
  result : TrustBlob

structure TrustDb where
  sourceTrust : List SourceTrustRow := []
  lastGood : List LastGoodRow := []
  trust : List TrustResultRow := []

/-! ### `upsert_source_trust` and its siblings -/

/-- The update on conflict: all columns but the key, and a stamp only if there is one. -/
def mergeSourceTrust (old new : SourceTrustRow) : SourceTrustRow :=
  { new with
    deviceId := old.deviceId
    source := old.source
    evidenceSeenAt := new.evidenceSeenAt.or old.evidenceSeenAt }

@[simp] theorem base_mergeSourceTrust (old new : SourceTrustRow) :
    (mergeSourceTrust old new).base = new.base := rfl

def upsertSourceTrust (new : SourceTrustRow) (db : TrustDb) : TrustDb :=
  { db with
    sourceTrust := Table.upsert SourceTrustRow.key mergeSourceTrust new db.sourceTrust }

def setLastGood (new : LastGoodRow) (db : TrustDb) : TrustDb :=
  { db with
    lastGood := Table.upsert LastGoodRow.key
      (fun old new => { new with deviceId := old.deviceId, source := old.source }) new
      db.lastGood }

def getLastGood (db : TrustDb) (key : SourceKey) : Option Fields :=
  (Table.row LastGoodRow.key db.lastGood key).map (·.reading)

/-- `get_last_good_sources`. -/
def getLastGoodSources (db : TrustDb) (deviceId : String) : List String :=
  (db.lastGood.filter fun r => r.deviceId = deviceId).map (·.source)

def storeTrust (new : TrustResultRow) (db : TrustDb) : TrustDb :=
  { db with
    trust := Table.upsert TrustResultRow.deviceId
      (fun old new => { new with deviceId := old.deviceId }) new db.trust }

/-! ### The trust of a domain -/

/-- `_build_source_trust_map`. -/
def buildSourceTrustMap (db : TrustDb) (deviceId : String) : List (String × SourceTrust) :=
  (db.sourceTrust.filter fun r => r.deviceId = deviceId).map fun r =>
    (r.source, { state := r.state, weight := r.weight, collectorStatus := r.collectorStatus,
                 semanticStatus := r.semanticStatus,
                 reason := if r.reason = [] then none else some r.reason })

def SourceState.value : SourceState → String
  | .ok => "ok"
  | .degraded => "degraded"
  | .stale => "stale"
  | .unavailable => "unavailable"
  | .suspect => "suspect"
  | .notApplicable => "not_applicable"

/-- The loop over the required sources: the weights so far, or the state that ends it. -/
def requiredWeights (sources : List (String × SourceTrust)) :
    List String → Except DomainTrust (List ℚ)
  | [] => .ok []
  | name :: names =>
    match sources.lookup name with
    | none => .error
      { state := .unknown, weight := 0,
        reason := ("required source " ++ name ++ " not reported").toList }
    | some st =>
      if st.state = .notApplicable then .error
        { state := .notApplicable, weight := 0, reason := (name ++ " not applicable").toList }
      else if st.state ∉ gatePass then .error
        { state := .unknown, weight := 0,
          reason := ("required source " ++ name ++ " is " ++ st.state.value).toList }
      else (requiredWeights sources names).map fun weights => st.weight :: weights

/-- `min` of the weights; of none it is 0. -/
def leastWeight : List ℚ → ℚ
  | [] => 0
  | w :: ws => ws.foldl min w

def passes (sources : List (String × SourceTrust)) (name : String) : Bool :=
  (sources.lookup name).any fun st => decide (st.state ∈ gatePass)

/-- `resolve_domain_trust`, of a known domain. -/
def resolveDomainTrust (domain : DomainName) (sources : List (String × SourceTrust)) :
    DomainTrust :=
  match requiredWeights sources (domainSources domain).required with
  | .error trust => trust
  | .ok weights =>
    { state := .trusted, weight := leastWeight weights,
      contributing := (domainSources domain).required ++
        (domainSources domain).optional.filter (passes sources),
      dropped := (domainSources domain).optional.filter fun name =>
        (sources.lookup name).isSome && !passes sources name }

/-- `build_trust_blob`. -/
def buildTrustBlob (sources : List (String × SourceTrust)) (haveLastGood : List String) :
    TrustBlob where
  domains domain := resolveDomainTrust domain sources
  sources := sources.map fun s =>
    (s.1, { trust := s.2
            regressed := decide (s.2.collectorStatus ∈ collectorFail ∧ s.1 ∈ haveLastGood) })

/-- What the scoring chain reads of a stored result. -/
def TrustBlob.read (blob : TrustBlob) : Trust where
  domains domain := some (blob.domains domain).state
  sources := blob.sources.map fun s =>
    (s.1, { state := some s.2.trust.state, regressed := s.2.regressed })

/-- The result that the rows of a device give now. -/
def currentBlob (db : TrustDb) (deviceId : String) : TrustBlob :=
  buildTrustBlob (buildSourceTrustMap db deviceId) (getLastGoodSources db deviceId)

/-! ### `evaluate_trust` -/

/-- One entry of `source_health`, with what its message carries. -/
structure SourceReport where
  deviceId : String
  source : String
  status : CollectorStatus
  payload : Fields
  ts : String

def SourceReport.key (r : SourceReport) : SourceKey := (r.deviceId, r.source)

/-- The verdict on a report over the stored readings; `none` for a source that is not known, and
    where the code raises. -/
def verdictOf (db : TrustDb) (report : SourceReport) : Option Verdict :=
  if report.source ∉ knownTrustSources then none
  else assess P report.source report.status report.payload (getLastGood db report.key)

/-- The row that a verdict writes.  Only a working collector stamps it. -/
def verdictRow (report : SourceReport) (v : Verdict) (receivedAt : Instant) : SourceTrustRow where
  deviceId := report.deviceId
  source := report.source
  state := v.state
  weight := computeWeight v.state
  collectorStatus := v.collectorStatus
  semanticStatus := v.semanticStatus
  reason := v.reason
  ts := report.ts
  evidenceSeenAt := if v.collectorStatus = .ok then some receivedAt else none

def recordVerdict (report : SourceReport) (v : Verdict) (receivedAt : Instant) (db : TrustDb) :
    TrustDb :=
  let db := upsertSourceTrust (verdictRow report v receivedAt) db
  if v.collectorStatus = .ok ∧ v.reading ≠ [] then
    setLastGood { deviceId := report.deviceId, source := report.source, reading := v.reading,
                  ts := report.ts } db
  else db

/-- One round of the loop. -/
def evaluateSource (report : SourceReport) (receivedAt : Instant) (db : TrustDb) : TrustDb :=
  match verdictOf P db report with
  | some v => recordVerdict report v receivedAt db
  | none => db

/-- The round raises. -/
def raises (report : SourceReport) (db : TrustDb) : Bool :=
  decide (report.source ∈ knownTrustSources) && (verdictOf P db report).isNone

/-- The loop; whether it came to its end. -/
def evaluateSources (receivedAt : Instant) (db : TrustDb) : List SourceReport → TrustDb × Bool
  | [] => (db, true)
  | report :: reports =>
    if raises P report db then (db, false)
    else evaluateSources receivedAt (evaluateSource P report receivedAt db) reports

/-- `evaluate_trust` for the reports of one message. -/
def evaluateTrust (deviceId : String) (payload : Fields)
    (sourceHealth : List (String × CollectorStatus)) (ts : String) (receivedAt : Instant)
    (db : TrustDb) : TrustDb × Option TrustBlob :=
  let reports := sourceHealth.map fun h => SourceReport.mk deviceId h.1 h.2 payload ts
  match evaluateSources P receivedAt db reports with
  | (db, false) => (db, none)
  | (db, true) =>
    let result := currentBlob db deviceId
    (storeTrust { deviceId, ts, result } db, some result)

/-! ### What a round does to the rows -/

@[simp] theorem sourceTrust_storeTrust (new : TrustResultRow) (db : TrustDb) :
    (storeTrust new db).sourceTrust = db.sourceTrust := rfl

theorem sourceTrust_recordVerdict (report : SourceReport) (v : Verdict) (receivedAt : Instant)
    (db : TrustDb) : (recordVerdict report v receivedAt db).sourceTrust =
      Table.upsert SourceTrustRow.key mergeSourceTrust (verdictRow report v receivedAt)
        db.sourceTrust := by
  unfold recordVerdict
  split
  · rfl
  · rfl

@[simp] theorem key_verdictRow (report : SourceReport) (v : Verdict) (receivedAt : Instant) :
    (verdictRow report v receivedAt).key = report.key := rfl

@[simp] theorem base_verdictRow (report : SourceReport) (v : Verdict) (receivedAt : Instant) :
    (verdictRow report v receivedAt).base = v.state := rfl

/-- The row that a report finds is replaced, but for its stamp. -/
theorem row_recordVerdict (report : SourceReport) (v : Verdict) (receivedAt : Instant)
    (db : TrustDb) (key : SourceKey) :
    Table.row SourceTrustRow.key (recordVerdict report v receivedAt db).sourceTrust key =
      if key = report.key then
        some (((Table.row SourceTrustRow.key db.sourceTrust key).map fun old =>
          mergeSourceTrust old (verdictRow report v receivedAt)).getD
            (verdictRow report v receivedAt))
      else Table.row SourceTrustRow.key db.sourceTrust key := by
  rw [sourceTrust_recordVerdict, Table.row_upsert]
  · rfl
  · intro old hold
    exact hold

theorem nodup_recordVerdict {db : TrustDb} (h : (db.sourceTrust.map SourceTrustRow.key).Nodup)
    (report : SourceReport) (v : Verdict) (receivedAt : Instant) :
    ((recordVerdict report v receivedAt db).sourceTrust.map SourceTrustRow.key).Nodup := by
  rw [sourceTrust_recordVerdict]
  apply Table.nodup_keys_upsert _ h
  intro old hold
  exact hold

end Srp.Trust
