/-
  Srp/Zabbix/Items.lean
  =====================
  **The verdicts of the fleet as Zabbix values** (`server/zabbix/items.py`, `fmt_value`
  of `server/zabbix/protocol.py`, `display_name` of `server/db.py` and the staleness
  overlay of `server/analytics/health.py`).

  `buildPacket` selects the machines, names them, drops the names that two machines
  share and the hosts on backoff, and computes the values of the rest.  Unknown numbers
  are left out of a machine's values; its state is always among them.

  Which characters are printable or blank is the Unicode database's to say
  (`UnicodeData`); the age of a verdict is taken from the instant its time stamp
  denotes, and there is none when the text is missing or unreadable.
-/
import Mathlib.Data.List.Basic
import Srp.Lib.GroupBy
import Srp.Lib.IsoTime
import Srp.Lib.PyFloat
import Srp.Lib.PyInt
import Srp.Lib.PyNum

namespace Srp.Zabbix

open Srp.Lib Srp.Lib.GroupBy Srp.Lib.IsoTime Srp.Lib.PyInt Srp.Lib.PyNum

/-! ### Values -/

structure Item where
  host : String
  key : String
  value : String
deriving DecidableEq, Repr

def maxValueChars : Nat := 255
def maxHostChars : Nat := 128

/-- `text.rstrip(c)`. -/
def rstripChar (c : Char) (text : List Char) : List Char :=
  (text.reverse.dropWhile (· = c)).reverse

/-- `fmt_value` of a float: two decimals, none when they are zero. -/
def fmtFloat : PyFloat → Except PyError String
  | .nan => .error .valueError
  | .posInf | .negInf => .error .overflowError
  | .finite q =>
    let rounded : ℚ := roundHalfEven (q * 100) / 100
    .ok (if rounded = trunc rounded then toString (trunc rounded)
      else String.ofList (rstripChar '.' (rstripChar '0' (fmtFixed 2 rounded).toList)))

def fmtInt (n : Int) : String := toString n

/-- `fmt_value` of a text. -/
def fmtText (text : String) : String := String.ofList (text.toList.take maxValueChars)

/-! ### The age of a verdict -/

/-- What `health_staleness` says of a verdict, when it is not fresh. -/
inductive Staleness where
  | stale (days : Int)
  | unreliable
deriving DecidableEq, Repr

def healthStaleness (scoreAt now : Instant) : Option Staleness :=
  let age : Int := (now.us : Int) - scoreAt.us
  if age > days 10 then some .unreliable
  else if age > days 3 then some (.stale (age / usPerDay))
  else none

def Staleness.text : Staleness → String
  | .stale days => "данные устарели (" ++ toString days ++ " дн.)"
  | .unreliable => "проверка недостоверна: данные старше 10 дней"

/-- The fields of a verdict that the overlay reads or writes. -/
structure HealthView where
  state : String
  band : Option String
  confidence : Option String
  blindSpots : List String
  missingEvidence : List String
deriving DecidableEq, Repr

def applyHealthStaleness (health : HealthView) (scoreAt : Option Instant) (now : Instant) :
    HealthView :=
  match scoreAt.bind fun t => healthStaleness t now with
  | none => health
  | some .unreliable =>
    { health with
      state := "unknown"
      band := some "unknown"
      confidence := some "unknown"
      blindSpots := health.blindSpots ++ [Staleness.unreliable.text] }
  | some (.stale n) =>
    { health with
      confidence := some "low"
      missingEvidence := health.missingEvidence ++ [(Staleness.stale n).text] }

/-! ### Host names -/

structure UnicodeData extends PyChars where
  isPrintable : Char → Bool

/-- The database on ASCII text. -/
def UnicodeData.ascii : UnicodeData :=
  { PyChars.ascii with isPrintable := fun c => decide (32 ≤ c.toNat ∧ c.toNat < 127) }

inductive HostField where
  | hostname
  | deviceId
  | displayName
deriving DecidableEq, Repr

structure ZabbixConfig where
  server : String
  hostField : HostField
  hostSuffix : String
  exportHost : String
  orgCodes : List String
  hostMap : List (String × String)

/-- A row of `get_fleet_verdicts`. -/
structure VerdictRow where
  deviceId : Option String
  hostname : Option String
  model : Option String
  chassis : Option String
  orgCode : Option String
  scoreAt : Option Instant
  state : Option String
  risk : Option PyFloat
  daysLeft : Option Int
  dominantLabel : Option String
  action : Option String
deriving DecidableEq, Repr

variable (U : UnicodeData)

def stripText (text : String) : String := String.ofList (strip U.toPyChars text.toList)

def neutralName : String := "Без названия"

/-- `display_name` in the mode for lists, where machines without a name stay apart. -/
def displayName (hostname model chassis ip : Option String) (deviceId : String) : String :=
  match [hostname, model, chassis, ip].find? fun c => stripText U (c.getD "") ≠ "" with
  | some candidate => stripText U (candidate.getD "")
  | none =>
    if deviceId = "" then neutralName
    else
      let chars := deviceId.toList
      neutralName ++ " (" ++ String.ofList (chars.drop (chars.length - 6)) ++ ")"

def sanitizeHost (name : String) : Option String :=
  let cleaned := strip U.toPyChars (name.toList.filter U.isPrintable)
  if cleaned = [] then none else some (String.ofList (cleaned.take maxHostChars))

def VerdictRow.device (row : VerdictRow) : String := row.deviceId.getD ""

def resolveHost (row : VerdictRow) (cfg : ZabbixConfig) : Option String :=
  let mapped := (cfg.hostMap.lookup row.device).getD ""
  if mapped ≠ "" then sanitizeHost U mapped
  else
    let base := match cfg.hostField with
      | .deviceId => row.device
      | .displayName => displayName U row.hostname row.model row.chassis none row.device
      | .hostname => stripText U (row.hostname.getD "")
    match sanitizeHost U base with
    | none => none
    | some clean =>
      if cfg.hostSuffix = "" then some clean
      else
        -- room for the suffix is made at the expense of the base
        let suffix := (sanitizeHost U cfg.hostSuffix).getD ""
        let room := maxHostChars - suffix.length
        sanitizeHost U (String.ofList (clean.toList.take room) ++ suffix)

/-! ### The values of one machine -/

def freshState (row : VerdictRow) (now : Instant) : String :=
  let stored := row.state.getD ""
  let overlaid := applyHealthStaleness
    ⟨if stored = "" then "unknown" else stored, none, none, [], []⟩ row.scoreAt now
  if overlaid.state = "" then "unknown" else overlaid.state

def reason (row : VerdictRow) (state : String) : String :=
  if state = "unknown" then "нет видимости: SRP не получает достаточно данных об этой машине"
  else
    let parts := [stripText U (row.dominantLabel.getD ""), stripText U (row.action.getD "")]
    let text := ": ".intercalate (parts.filter (· ≠ ""))
    if text = "" then "данных недостаточно для вывода" else text

def numericItems (row : VerdictRow) (host : String) : Except PyError (List Item) := do
  let risk ← row.risk.toList.mapM fun risk =>
    (fmtFloat risk).map fun v => (⟨host, "srp.risk", v⟩ : Item)
  let daysLeft := row.daysLeft.toList.map fun n => (⟨host, "srp.days_left", fmtInt n⟩ : Item)
  .ok (risk ++ daysLeft)

/-- The numbers of a machine whose state is unknown are not sent. -/
def knownNumbers (row : VerdictRow) (host state : String) : Except PyError (List Item) :=
  if state = "unknown" then .ok [] else numericItems row host

def buildItems (row : VerdictRow) (host : String) (now : Instant) :
    Except PyError (List Item) := do
  let state := freshState row now
  let numbers ← knownNumbers row host state
  .ok (⟨host, "srp.state", fmtText state⟩ :: numbers ++
    [⟨host, "srp.reason", fmtText (reason U row state)⟩])

/-! ### The packet of the fleet -/

inductive SkipReason where
  | noName
  | duplicateName
  | unknownToZabbix
deriving DecidableEq, Repr

structure Skipped where
  deviceId : String
  host : String
  reason : SkipReason
deriving DecidableEq, Repr

structure Packet where
  items : List Item
  hosts : List (String × String)
  skipped : List Skipped
  unknown : Nat
deriving DecidableEq, Repr

/-- The machines of the pilot organisations; without any, the whole fleet. -/
def selectedRows (rows : List VerdictRow) (cfg : ZabbixConfig) : List VerdictRow :=
  rows.filter fun r => cfg.orgCodes = [] ∨ r.orgCode.getD "" ∈ cfg.orgCodes

/-- The selected machines with a name, each with it. -/
def namedRows (rows : List VerdictRow) (cfg : ZabbixConfig) : List (String × VerdictRow) :=
  (selectedRows rows cfg).filterMap fun r => (resolveHost U r cfg).map fun host => (host, r)

/-- One group of the `seen` dictionary: the machine that represents the host, or the reason why
    none does. -/
def admitHost (backoff : List String) (host : String) (group : List (String × VerdictRow)) :
    List (String × VerdictRow) × List Skipped :=
  match group with
  | [(_, row)] =>
    if host ∈ backoff then ([], [⟨row.device, host, .unknownToZabbix⟩]) else ([(host, row)], [])
  | group => ([], group.map fun e => ⟨e.2.device, host, .duplicateName⟩)

def admitted (rows : List VerdictRow) (cfg : ZabbixConfig) (backoff : List String) :
    List (List (String × VerdictRow) × List Skipped) :=
  let named := namedRows U rows cfg
  (keys (·.1) named).map fun host => admitHost backoff host (group (·.1) named host)

/-- The machines of the packet, each with its host name. -/
def exported (rows : List VerdictRow) (cfg : ZabbixConfig) (backoff : List String) :
    List (String × VerdictRow) :=
  (admitted U rows cfg backoff).flatMap (·.1)

def buildPacket (rows : List VerdictRow) (cfg : ZabbixConfig) (now : Instant)
    (backoff : List String) : Except PyError Packet := do
  let noName := ((selectedRows rows cfg).filter fun r => (resolveHost U r cfg).isNone).map fun r =>
    (⟨r.device, "", .noName⟩ : Skipped)
  let named := exported U rows cfg backoff
  let built ← named.mapM fun e => buildItems U e.2 e.1 now
  .ok {
    items := built.flatten
    hosts := named.map fun e => (e.1, e.2.device)
    skipped := noName ++ (admitted U rows cfg backoff).flatMap (·.2)
    unknown := built.countP fun items =>
      items.any fun i => i.key = "srp.state" ∧ i.value = "unknown" }

/-- The one service value: when the last cycle ran, in seconds of Unix time. -/
def heartbeatItems (cfg : ZabbixConfig) (unixTime : Int) : List Item :=
  if cfg.exportHost = "" then [] else [⟨cfg.exportHost, "srp.last_run", fmtInt unixTime⟩]

/-! ### What is in a packet -/

def coreKeys : List String := ["srp.state", "srp.risk", "srp.days_left", "srp.reason"]

variable {U}

theorem numericItems_spec {row : VerdictRow} {host : String} {items : List Item}
    (h : numericItems row host = .ok items) {i : Item} (hi : i ∈ items) :
    i.host = host ∧ (i.key = "srp.risk" ∨ i.key = "srp.days_left") := by
  unfold numericItems at h
  obtain ⟨risk, hrisk, h⟩ := bind_eq_ok.mp h
  obtain rfl := Except.ok.inj h
  rcases List.mem_append.mp hi with hi | hi
  · cases hrow : row.risk with
    | none =>
      rw [hrow] at hrisk
      obtain rfl := Except.ok.inj hrisk
      cases hi
    | some q =>
      rw [hrow, Option.toList_some, List.mapM_cons] at hrisk
      obtain ⟨item, hitem, hrisk⟩ := bind_eq_ok.mp hrisk
      obtain rfl := Except.ok.inj hrisk
      obtain rfl := List.mem_singleton.mp hi
      cases hq : fmtFloat q with
      | error e =>
        rw [hq] at hitem
        cases hitem
      | ok v =>
        rw [hq] at hitem
        obtain rfl := Except.ok.inj hitem
        exact ⟨rfl, Or.inl rfl⟩
  · obtain ⟨n, _, rfl⟩ := List.mem_map.mp hi
    exact ⟨rfl, Or.inr rfl⟩

/-- The values of a machine carry its host name and one of the four keys. -/
theorem buildItems_spec {row : VerdictRow} {host : String} {now : Instant} {items : List Item}
    (h : buildItems U row host now = .ok items) {i : Item} (hi : i ∈ items) :
    i.host = host ∧ i.key ∈ coreKeys := by
  unfold buildItems at h
  obtain ⟨numbers, hnumbers, h⟩ := bind_eq_ok.mp h
  obtain rfl := Except.ok.inj h
  rw [List.mem_append, List.mem_cons, List.mem_singleton] at hi
  rcases hi with (rfl | hi) | rfl
  · exact ⟨rfl, by simp [coreKeys]⟩
  · unfold knownNumbers at hnumbers
    by_cases hstate : freshState row now = "unknown"
    · rw [if_pos hstate] at hnumbers
      obtain rfl := Except.ok.inj hnumbers
      cases hi
    · rw [if_neg hstate] at hnumbers
      obtain ⟨hhost, hkey⟩ := numericItems_spec hnumbers hi
      refine ⟨hhost, ?_⟩
      rcases hkey with hkey | hkey <;> simp [coreKeys, hkey]
  · exact ⟨rfl, by simp [coreKeys]⟩

variable {rows : List VerdictRow} {cfg : ZabbixConfig} {now : Instant} {backoff : List String}
  {packet : Packet}

/-- A host is represented by one machine or by none. -/
theorem admit_sublist (host : String) (group : List (String × VerdictRow))
    (hgroup : ∀ e ∈ group, e.1 = host) :
    ((admitHost backoff host group).1.map (·.1)).Sublist [host] := by
  unfold admitHost
  split
  · split
    · exact List.nil_sublist _
    · exact List.Sublist.refl _
  · exact List.nil_sublist _

theorem group_host {named : List (String × VerdictRow)} {host : String} :
    ∀ e ∈ group (·.1) named host, e.1 = host :=
  fun _ he => (mem_group.mp he).2

/-- No two machines of the packet have the same host name. -/
theorem exported_nodup : ((exported U rows cfg backoff).map (·.1)).Nodup := by
  have hsub : ∀ hosts : List String, (((hosts.map fun host => admitHost backoff host
      (group (·.1) (namedRows U rows cfg) host)).flatMap (·.1)).map (·.1)).Sublist hosts := by
    intro hosts
    induction hosts with
    | nil => exact List.Sublist.refl _
    | cons host hosts ih =>
      rw [List.map_cons, List.flatMap_cons, List.map_append]
      exact (admit_sublist host _ group_host).append ih
  exact (keys_nodup _ _).sublist (hsub _)

theorem buildPacket_spec (h : buildPacket U rows cfg now backoff = .ok packet) :
    packet.hosts = (exported U rows cfg backoff).map (fun e => (e.1, e.2.device)) ∧
      ∀ i, i ∈ packet.items ↔ ∃ e ∈ exported U rows cfg backoff, ∃ built,
        buildItems U e.2 e.1 now = .ok built ∧ i ∈ built := by
  unfold buildPacket at h
  obtain ⟨built, hbuilt, h⟩ := bind_eq_ok.mp h
  obtain rfl := Except.ok.inj h
  refine ⟨rfl, ?_⟩
  intro i
  simp only [List.mem_flatten, mapM_ok_mem hbuilt]
  constructor
  · rintro ⟨items, ⟨e, he, hitems⟩, hi⟩
    exact ⟨e, he, items, hitems, hi⟩
  · rintro ⟨e, he, items, hitems, hi⟩
    exact ⟨items, ⟨e, he, hitems⟩, hi⟩

theorem hosts_eq (h : buildPacket U rows cfg now backoff = .ok packet) :
    packet.hosts.map (·.1) = (exported U rows cfg backoff).map (·.1) := by
  rw [(buildPacket_spec h).1, List.map_map]
  rfl

/-- The values of the packet that carry the name of one machine are the values computed for it. -/
theorem mem_items_iff (h : buildPacket U rows cfg now backoff = .ok packet)
    {e : String × VerdictRow} (he : e ∈ exported U rows cfg backoff) {i : Item}
    (hi : i.host = e.1) :
    i ∈ packet.items ↔ ∃ built, buildItems U e.2 e.1 now = .ok built ∧ i ∈ built := by
  rw [(buildPacket_spec h).2]
  constructor
  · rintro ⟨e', he', built, hbuilt, hmem⟩
    have hhost : e'.1 = e.1 := (buildItems_spec hbuilt hmem).1.symm.trans hi
    obtain rfl : e' = e := List.inj_on_of_nodup_map exported_nodup he' he hhost
    exact ⟨built, hbuilt, hmem⟩
  · rintro ⟨built, hbuilt, hmem⟩
    exact ⟨e, he, built, hbuilt, hmem⟩

end Srp.Zabbix
