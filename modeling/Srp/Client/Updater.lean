/-
  Srp/Client/Updater.lean
  =======================
  **Agent self-update** (`client/updater.py`).

  A cycle fetches the manifest, compares versions, checks the signature, notes the
  attempt in `state.json`, downloads and verifies the package, unpacks it into the
  staging directory and registers the task that installs it.  What the server
  answers, the results of `schtasks` and of the file system, and the clock are
  inputs of a cycle.  An exception that no handler of the module catches ends the
  cycle where it is raised.  The field `log` is no part of the program.
-/
import Srp.Lib.Lines
import Srp.Lib.Machine
import Srp.Lib.PyInt
import Srp.Lib.PyJson

namespace Srp.Client

open Srp.Lib Srp.Lib.Lines Srp.Lib.PyInt Srp.Lib.PyJson

/-! ### Limits -/

def maxPackageSize : Nat := 200 * 1024 * 1024
def maxUncompressedSize : Nat := maxPackageSize * 10
def maxAttempts : Int := 3
def requiredMembers : List Text := ["setup.exe".toList, "payload/srp-agent.exe".toList]

/-! ### Python and Windows -/

/-- An entry of `ZipFile.infolist()`. -/
structure ZipInfo where
  filename : Text
  fileSize : Nat
deriving DecidableEq, Repr

/-- The standard library, as far as its results are not computed here: the Unicode database,
    `str.lower`, `str()` and `bool()` of a decoded value, `int()` of a float (`none` for NaN), the
    two digests in hexadecimal, and the zip reader (`none` where it raises `BadZipFile`). -/
structure PyLib extends PyChars where
  lower : Text → Text
  strOf : Json → Text
  isZero : FloatText → Bool
  isInfinite : FloatText → Bool
  intOfFloat : FloatText → Option Int
  hmacSha256 : Text → Text → Text
  sha256 : List UInt8 → Text
  infolist : List UInt8 → Option (List ZipInfo)

variable (P : PyLib)

/-- `str(value)`. -/
def PyLib.str : Json → Text
  | .str t => t
  | j => P.strOf j

/-- `bool(value)`. -/
def PyLib.isTruthy : Json → Bool
  | .null => false
  | .bool b => b
  | .int n => n ≠ 0
  | .float x => !P.isZero x
  | .str t => t ≠ []
  | .arr xs => !xs.isEmpty
  | .obj fields => !fields.isEmpty

/-! ### Manifests -/

abbrev Dict := List (Text × Json)

abbrev Version := Int × Int × Int

/-- `a < b` of two tuples. -/
def Version.lt (a b : Version) : Bool :=
  decide (a.1 < b.1 ∨ a.1 = b.1 ∧ (a.2.1 < b.2.1 ∨ a.2.1 = b.2.1 ∧ a.2.2 < b.2.2))

/-- `_parse_version` of a string. -/
def parseVersion (t : Text) : Option Version :=
  match t.splitOn '.' with
  | [a, b, c] => do return (← pyInt P.toPyChars a, ← pyInt P.toPyChars b, ← pyInt P.toPyChars c)
  | _ => none

/-- `compute_hmac`. -/
def computeHmac (token version sha256Hex : Text) : Text :=
  P.hmacSha256 token (version ++ '|' :: sha256Hex)

/-- `_is_sha256_hex`. -/
def isSha256Hex (t : Text) : Bool :=
  t.length == 64 && decide (t = P.lower t) && (pyIntHex P.toPyChars t).isSome

/-- What `select_update` has checked of a manifest. -/
structure Update where
  version : Text
  sha256 : Text
  size : Nat
  hmac : Json

/-- `select_update`: the fields of the manifest that the rest of the cycle reads. -/
def selectUpdate (manifest : Dict) (currentVersion : Text) (hasToken : Bool) : Option Update :=
  match manifest.lookup "version".toList, manifest.lookup "sha256".toList,
      manifest.lookup "size".toList with
  | some (.str version), some (.str sha256), some (.int size) =>
    match parseVersion P version, parseVersion P currentVersion with
    | some remote, some current =>
      let hmac := (manifest.lookup "hmac".toList).getD .null
      if !isSha256Hex P sha256 then none
      else if ¬ (0 < size ∧ size ≤ maxPackageSize) then none
      else if hasToken && !P.isTruthy hmac then none
      else if !Version.lt current remote then none
      else some { version := version, sha256 := sha256, size := size.toNat, hmac := hmac }
    | _, _ => none
  | _, _, _ => none

/-! ### Configuration, state and inputs -/

/-- The fields of `ClientConfig` that the updater reads. -/
structure UpdateConfig where
  offlineMode : Bool := false
  updateChannel : Text := "server".toList
  updateHmacSecret : Text := []
  ingestToken : Text := []
deriving DecidableEq, Repr

/-- `_signing_secret`. -/
def signingSecret (cfg : UpdateConfig) : Text :=
  if cfg.updateHmacSecret ≠ [] then cfg.updateHmacSecret else cfg.ingestToken

/-- `state.json`.  Text that is no JSON reads as no state; bytes that are no UTF-8 raise. -/
inductive StateFile where
  | missing
  | undecodable
  | json (j : Json)

inductive ManifestReply where
  | error
  | notFound
  | json (j : Json)
  /-- an exception that `_fetch_manifest` does not catch -/
  | raises

/-- How a transfer goes on behind its last chunk. -/
inductive TransferEnd where
  | complete
  /-- an exception that `_download` catches -/
  | broken
  /-- any other exception -/
  | raised
deriving DecidableEq, Repr

/-- The chunks that `resp.read` returns, and what comes after them. -/
structure PackageReply where
  chunks : List (List UInt8) := []
  ending : TransferEnd := .complete
deriving DecidableEq, Repr

inductive Extraction where
  | done
  /-- `ValueError` or `OSError` -/
  | failed
  /-- any other exception, such as `BadZipFile` -/
  | raised
deriving DecidableEq, Repr

/-- What one `check` meets. -/
structure CheckInput where
  cfg : UpdateConfig
  currentVersion : Text
  frozen : Bool := true
  manifest : ManifestReply
  package : PackageReply := {}
  clock : FloatText
  /-- whether `state.json` can be written -/
  stateWritable : Bool := true
  /-- what `extractall` does, and which paths exist after it -/
  extraction : Extraction := .done
  onDisk : Text → Bool := fun _ => true
  createRc : Int := 0
  runRc : Int := 0

inductive StatusState where
  | ok
  | failed
  | updating
deriving DecidableEq, Repr

/-- The payload of an `update_status` envelope, without its `checked_at`. -/
structure Status where
  state : StatusState
  error : Option Text := none
  availableVersion : Option Json := none

inductive UpdateEvent where
  /-- `_download` was called for the version -/
  | downloading (remote : Text)
  /-- `schtasks /create` was called while this package was staged -/
  | scheduled (input : CheckInput) (manifest : Dict) (staged : List UInt8)
  /-- a restart found the version running -/
  | installed (version : Text)

structure Updater where
  stateFile : StateFile := .missing
  staging : Option (List UInt8) := none
  lastStatus : Option (StatusState × Option Text) := none
  log : List UpdateEvent := []

def Updater.record (u : Updater) (e : UpdateEvent) : Updater := { u with log := u.log ++ [e] }

inductive CheckResult where
  | returned (payload : Option Status) (restartPending : Bool)
  | raised

/-! ### `state.json` -/

/-- `_read_state`; `none` where it raises. -/
def readState (u : Updater) : Option (Option Dict) :=
  match u.stateFile with
  | .missing => some none
  | .undecodable => none
  | .json (.obj fields) => some (some fields)
  | .json _ => some none

/-- `_write_state`, of the dictionary that `_apply` builds. -/
def writeState (u : Updater) (remote : Text) (attempts : Int) (x : CheckInput) : Updater :=
  if x.stateWritable then
    { u with stateFile := .json (.obj [("target_version".toList, .str remote),
        ("attempts".toList, .int attempts), ("staged_at".toList, .float x.clock)]) }
  else u

/-- `int(value)` of a decoded value, and 0 where that raises `TypeError` or `ValueError`; `none`
    where it raises `OverflowError`. -/
def PyLib.intOrZero : Json → Option Int
  | .int n => some n
  | .bool b => some (if b then 1 else 0)
  | .float x => if P.isInfinite x then none else some ((P.intOfFloat x).getD 0)
  | .str t => some ((pyInt P.toPyChars t).getD 0)
  | _ => some 0

/-- `_attempts_for`; `none` where it raises. -/
def attemptsFor (u : Updater) (target : Text) : Option Int :=
  match readState u with
  | none => none
  | some none => some 0
  | some (some fields) =>
    match fields.lookup "target_version".toList with
    | some (.str t) =>
      if t = target then P.intOrZero ((fields.lookup "attempts".toList).getD (.int 0)) else some 0
    | _ => some 0

/-! ### Status -/

/-- `_gate`, of the payload with these fields. -/
def gate (state : StatusState) (error : Option Text) (version : Option Text) (u : Updater) :
    Option Status × Updater :=
  if state ≠ .failed ∧ u.lastStatus = some (state, version) then (none, u)
  else (some { state := state, error := error, availableVersion := version.map .str },
    { u with lastStatus := some (state, version) })

def gateFailed (remote : Text) (error : String) (u : Updater) : CheckResult × Updater :=
  let (payload, u) := gate .failed (some (error.toList.take 500)) (some remote) u
  (.returned payload false, u)

def gateGood (state : StatusState) (version : Option Text) (restart : Bool) (u : Updater) :
    CheckResult × Updater :=
  let (payload, u) := gate state none version u
  (.returned payload restart, u)

/-! ### Downloading and unpacking -/

inductive Download where
  | verified (package : List UInt8)
  | rejected
  | raised
deriving DecidableEq, Repr

/-- What `_download` makes of the bytes it has written. -/
def verify (expectedSha256 : Text) (expectedSize : Nat) (written : List UInt8) : Download :=
  if written.length ≠ expectedSize ∨ P.sha256 written ≠ expectedSha256 then .rejected
  else .verified written

/-- The loop of `_download` and what follows it, over the chunks that are left. -/
def readChunks (ending : TransferEnd) (expectedSha256 : Text) (expectedSize : Nat)
    (written : List UInt8) : List (List UInt8) → Download
  | [] =>
    match ending with
    | .complete => verify P expectedSha256 expectedSize written
    | .broken => .rejected
    | .raised => .raised
  | [] :: _ => verify P expectedSha256 expectedSize written
  | chunk :: chunks =>
    if expectedSize < (written ++ chunk).length then .rejected
    else readChunks ending expectedSha256 expectedSize (written ++ chunk) chunks

/-- `_download`. -/
def download (reply : PackageReply) (expectedSha256 : Text) (expectedSize : Nat) : Download :=
  readChunks P reply.ending expectedSha256 expectedSize [] reply.chunks

/-- `_check_member_name`: whether the name passes. -/
def checkMemberName (name : Text) : Bool :=
  name ≠ [] && name.head? ≠ some '/' && name.head? ≠ some '\\' && !name.contains ':' &&
    ((name.map fun c => if c = '\\' then '/' else c).splitOn '/').all fun segment =>
      decide (segment ≠ ['.', '.'])

/-- `safe_extract`. -/
def safeExtract (x : CheckInput) (package : List UInt8) (u : Updater) : Extraction × Updater :=
  match P.infolist package with
  | none => (.raised, u)
  | some infos =>
    if !infos.all fun info => checkMemberName info.filename then (.failed, u)
    else if maxUncompressedSize < (infos.map (·.fileSize)).sum then (.failed, u)
    else
      let u := { u with staging := some package }
      match x.extraction with
      | .done => if requiredMembers.all x.onDisk then (.done, u) else (.failed, u)
      | outcome => (outcome, u)

/-! ### `check` -/

/-- `_apply`, behind the signature check. -/
def applyVerified (x : CheckInput) (manifest : Dict) (update : Update) (attempts : Int)
    (u : Updater) : CheckResult × Updater :=
  let u := writeState u update.version (attempts + 1) x
  let u := u.record (.downloading update.version)
  match download P x.package update.sha256 update.size with
  | .raised => (.raised, u)
  | .rejected => gateFailed update.version "не удалось скачать пакет обновления" u
  | .verified package =>
    match safeExtract P x package u with
    | (.raised, u) => (.raised, u)
    | (.failed, u) => gateFailed update.version "пакет обновления повреждён" u
    | (.done, u) =>
      let u := u.record (.scheduled x manifest (u.staging.getD []))
      if x.createRc ≠ 0 then gateFailed update.version "не удалось создать задачу обновления" u
      else if x.runRc ≠ 0 then gateFailed update.version "не удалось запустить задачу обновления" u
      else gateGood .updating (some update.version) true u

/-- `_apply`.  `compare_digest` raises on a signature that is no ASCII text. -/
def apply (x : CheckInput) (manifest : Dict) (update : Update) (attempts : Int) (u : Updater) :
    CheckResult × Updater :=
  let token := signingSecret x.cfg
  if token ≠ [] then
    let expected := computeHmac P token update.version update.sha256
    let given := P.str update.hmac
    if !given.all fun c => decide (c.toNat < 128) then (.raised, u)
    else if expected ≠ given then gateFailed update.version "подпись пакета не сошлась" u
    else applyVerified P x manifest update attempts u
  else applyVerified P x manifest update attempts u

/-- `check`, from the manifest on. -/
def checkManifest (x : CheckInput) (manifest : Dict) (u : Updater) : CheckResult × Updater :=
  match selectUpdate P manifest x.currentVersion (signingSecret x.cfg ≠ []) with
  | none => gateGood .ok none false u
  | some update =>
    if !x.frozen then gateGood .ok (some update.version) false u
    else if signingSecret x.cfg = [] then gateGood .ok (some update.version) false u
    else
      match attemptsFor P u update.version with
      | none => (.raised, u)
      | some attempts =>
        if maxAttempts ≤ attempts then
          gateFailed update.version
            ("превышен лимит попыток обновления до " ++ String.ofList update.version) u
        else apply P x manifest update attempts u

/-- `check`. -/
def check (x : CheckInput) (u : Updater) : CheckResult × Updater :=
  if x.cfg.offlineMode || x.cfg.updateChannel == "none".toList then (.returned none false, u)
  else
    match x.manifest with
    | .error => (.returned none false, u)
    | .raises => (.raised, u)
    | .notFound => gateGood .ok none false u
    | .json (.obj manifest) => checkManifest P x manifest u
    | .json _ => checkManifest P x [] u

/-! ### `reconcile_after_restart` -/

/-- The agent process starts anew: nothing has been sent yet. -/
def restarted (u : Updater) : Updater := { u with lastStatus := none }

/-- `_failed` for a target that a restart does not find running. -/
def notApplied (target : Option Json) : Status where
  state := .failed
  error := some "обновление не применилось после перезапуска".toList
  availableVersion := target

/-- `reconcile_after_restart`; `stale` says whether `staged_at` is a number of more than 900
    seconds ago. -/
def reconcileAfterRestart (currentVersion : Text) (stale : Json → Bool) (u : Updater) :
    CheckResult × Updater :=
  let u := restarted u
  match readState u with
  | none => (.raised, u)
  | some none => (.returned none false, u)
  | some (some state) =>
    match state.lookup "target_version".toList with
    | some (.str target) =>
      if target = currentVersion then
        (.returned (some { state := .ok }) false,
          Updater.record { u with stateFile := .missing } (.installed target))
      else if stale ((state.lookup "staged_at".toList).getD .null) then
        (.returned (some (notApplied (some (.str target)))) false, u)
      else (.returned none false, u)
    | target =>
      if stale ((state.lookup "staged_at".toList).getD .null) then
        (.returned (some (notApplied target)) false, u)
      else (.returned none false, u)

/-! ### Runs -/

inductive UpdaterStep where
  | check (x : CheckInput)
  | restart (currentVersion : Text) (stale : Json → Bool)

def updater : Machine Updater UpdaterStep CheckResult where
  next u step :=
    match step with
    | .check x => (check P x u).2
    | .restart currentVersion stale => (reconcileAfterRestart currentVersion stale u).2
  out u step :=
    match step with
    | .check x => (check P x u).1
    | .restart currentVersion stale => (reconcileAfterRestart currentVersion stale u).1

/-! ### What a cycle does -/

/-- The fields that `select_update` has passed. -/
structure Selected (manifest : Dict) (currentVersion : Text) (hasToken : Bool) (update : Update) :
    Prop where
  version : manifest.lookup "version".toList = some (.str update.version)
  sha256 : manifest.lookup "sha256".toList = some (.str update.sha256)
  size : manifest.lookup "size".toList = some (.int update.size)
  hmac : hasToken = true → manifest.lookup "hmac".toList = some update.hmac
  newer : ∃ current remote, parseVersion P currentVersion = some current ∧
    parseVersion P update.version = some remote ∧ Version.lt current remote = true

theorem selectUpdate_selected {manifest : Dict} {currentVersion : Text} {hasToken : Bool}
    {update : Update} (h : selectUpdate P manifest currentVersion hasToken = some update) :
    Selected P manifest currentVersion hasToken update := by
  unfold selectUpdate at h
  split at h
  · rename_i version sha256 size hversion hsha hsize
    split at h
    · rename_i remote current hremote hcurrent
      simp only at h
      split at h
      · cases h
      split at h
      · cases h
      rename_i hrange
      split at h
      · cases h
      rename_i htoken
      split at h
      · cases h
      rename_i hlt
      cases h
      refine ⟨hversion, hsha, ?_, ?_, current, remote, hcurrent, hremote, by simpa using hlt⟩
      · have hpos : 0 < size := (not_not.mp hrange).1
        rw [hsize, Int.toNat_of_nonneg hpos.le]
      · intro hhas
        cases hhmac : manifest.lookup "hmac".toList with
        | some j => rfl
        | none =>
          rw [hhas, hhmac] at htoken
          exact absurd rfl htoken
    · cases h
  · cases h

@[simp] theorem gateFailed_log (remote : Text) (error : String) (u : Updater) :
    (gateFailed remote error u).2.log = u.log := rfl

@[simp] theorem gateFailed_stateFile (remote : Text) (error : String) (u : Updater) :
    (gateFailed remote error u).2.stateFile = u.stateFile := rfl

@[simp] theorem gateGood_log (state : StatusState) (version : Option Text) (restart : Bool)
    (u : Updater) : (gateGood state version restart u).2.log = u.log := by
  simp only [gateGood, gate]
  split <;> rfl

@[simp] theorem gateGood_stateFile (state : StatusState) (version : Option Text) (restart : Bool)
    (u : Updater) : (gateGood state version restart u).2.stateFile = u.stateFile := by
  simp only [gateGood, gate]
  split <;> rfl

/-- The signature check of `_apply`. -/
def Signed (cfg : UpdateConfig) (update : Update) : Prop :=
  computeHmac P (signingSecret cfg) update.version update.sha256 = P.str update.hmac

instance (cfg : UpdateConfig) (update : Update) : Decidable (Signed P cfg update) :=
  inferInstanceAs (Decidable (_ = _))

/-- A check that gets as far as the download: it has a secret, the manifest names a newer version
    and is signed. -/
structure Attempts (x : CheckInput) (manifest : Dict) (update : Update) : Prop where
  received : x.manifest = .json (.obj manifest)
  selected : selectUpdate P manifest x.currentVersion true = some update
  secret : signingSecret x.cfg ≠ []
  signed : Signed P x.cfg update

theorem safeExtract_cases (x : CheckInput) (package : List UInt8) (u : Updater) :
    (safeExtract P x package u).2.log = u.log ∧
      (safeExtract P x package u).2.stateFile = u.stateFile ∧
      ((safeExtract P x package u).1 = .done →
        (safeExtract P x package u).2.staging = some package) := by
  simp only [safeExtract]
  split
  · exact ⟨rfl, rfl, fun h => nomatch h⟩
  · split
    · exact ⟨rfl, rfl, fun h => nomatch h⟩
    · split
      · exact ⟨rfl, rfl, fun h => nomatch h⟩
      · split
        · split <;> exact ⟨rfl, rfl, fun _ => rfl⟩
        · exact ⟨rfl, rfl, fun _ => rfl⟩

/-- Behind the signature check, one download is started, and what is scheduled is what the
    download has verified. -/
theorem applyVerified_cases (x : CheckInput) (manifest : Dict) (update : Update) (attempts : Int)
    (u : Updater) :
    (applyVerified P x manifest update attempts u).2.stateFile =
        (writeState u update.version (attempts + 1) x).stateFile ∧
      ((applyVerified P x manifest update attempts u).2.log =
          u.log ++ [.downloading update.version] ∨
        ∃ package, download P x.package update.sha256 update.size = .verified package ∧
          (applyVerified P x manifest update attempts u).2.log =
            u.log ++ [.downloading update.version, .scheduled x manifest package]) := by
  have hlog : (writeState u update.version (attempts + 1) x).log = u.log := by
    unfold writeState
    split <;> rfl
  simp only [applyVerified]
  split
  · exact ⟨rfl, Or.inl (by simp [Updater.record, hlog])⟩
  · exact ⟨rfl, Or.inl (by simp [Updater.record, hlog])⟩
  · rename_i package hdownload
    obtain ⟨hslog, hsfile, hstaged⟩ := safeExtract_cases P x package
      ((writeState u update.version (attempts + 1) x).record (.downloading update.version))
    split
    · rename_i hs
      rw [hs] at hslog hsfile
      simp only [Updater.record, hlog] at hslog hsfile
      exact ⟨hsfile, Or.inl hslog⟩
    · rename_i hs
      rw [hs] at hslog hsfile
      simp only [Updater.record, hlog] at hslog hsfile
      exact ⟨hsfile, Or.inl hslog⟩
    · rename_i after hs
      rw [hs] at hslog hsfile hstaged
      have hpackage : after.staging.getD [] = package := by rw [hstaged rfl]; rfl
      simp only [Updater.record, hlog] at hslog hsfile
      refine ⟨?_, Or.inr ⟨package, hdownload, ?_⟩⟩
      · split
        · simp [Updater.record, hsfile]
        · split <;> simp [Updater.record, hsfile]
      · split
        · simp [Updater.record, hslog, hpackage]
        · split <;> simp [Updater.record, hslog, hpackage]

/-- A check either leaves the state file and the log alone, or makes an attempt that the state
    file still allows and notes it there. -/
theorem check_cases (x : CheckInput) (u : Updater) :
    ((check P x u).2.stateFile = u.stateFile ∧ (check P x u).2.log = u.log) ∨
      ∃ manifest update attempts, Attempts P x manifest update ∧
        attemptsFor P u update.version = some attempts ∧ attempts < maxAttempts ∧
        (check P x u).2 = (applyVerified P x manifest update attempts u).2 := by
  simp only [check]
  split
  · exact Or.inl ⟨rfl, rfl⟩
  · split
    · exact Or.inl ⟨rfl, rfl⟩
    · exact Or.inl ⟨rfl, rfl⟩
    · exact Or.inl ⟨gateGood_stateFile .., gateGood_log ..⟩
    · rename_i manifest hmanifest
      simp only [checkManifest]
      split
      · exact Or.inl ⟨gateGood_stateFile .., gateGood_log ..⟩
      · rename_i update hselect
        split
        · exact Or.inl ⟨gateGood_stateFile .., gateGood_log ..⟩
        · split
          · exact Or.inl ⟨gateGood_stateFile .., gateGood_log ..⟩
          · rename_i hsecret
            split
            · exact Or.inl ⟨rfl, rfl⟩
            · rename_i attempts hattempts
              split
              · exact Or.inl ⟨rfl, rfl⟩
              · rename_i hfew
                simp only [apply, if_pos hsecret]
                split
                · exact Or.inl ⟨rfl, rfl⟩
                · split
                  · exact Or.inl ⟨rfl, rfl⟩
                  · rename_i hsigned
                    rw [decide_eq_true hsecret] at hselect
                    exact Or.inr ⟨manifest, update, attempts, ⟨hmanifest, hselect, hsecret,
                      not_not.mp hsigned⟩, hattempts, not_le.mp hfew, rfl⟩
    · left
      have hselect : selectUpdate P [] x.currentVersion (signingSecret x.cfg ≠ []) = none := rfl
      simp only [checkManifest, hselect]
      exact ⟨gateGood_stateFile .., gateGood_log ..⟩

/-- A restart starts and schedules nothing; it clears the state file of the version it finds
    running. -/
theorem restart_cases (currentVersion : Text) (stale : Json → Bool) (u : Updater) :
    let u' := (reconcileAfterRestart currentVersion stale u).2
    (u'.stateFile = u.stateFile ∧ u'.log = u.log) ∨
      (u'.stateFile = .missing ∧ u'.log = u.log ++ [.installed currentVersion] ∧
        ∃ fields, u.stateFile = .json (.obj fields) ∧
          fields.lookup "target_version".toList = some (.str currentVersion)) := by
  simp only [reconcileAfterRestart]
  split
  · exact Or.inl ⟨rfl, rfl⟩
  · exact Or.inl ⟨rfl, rfl⟩
  · rename_i state hstate
    split
    · rename_i target htarget
      split
      · rename_i hcurrent
        subst hcurrent
        refine Or.inr ⟨rfl, rfl, state, ?_, htarget⟩
        revert hstate
        simp only [readState, restarted]
        split
        · intro h; cases h
        · intro h; cases h
        · rename_i fields hfile
          intro h
          cases h
          exact hfile
        · intro h; cases h
      · split <;> exact Or.inl ⟨rfl, rfl⟩
    · split <;> exact Or.inl ⟨rfl, rfl⟩

/-! ### A library for sample runs -/

/-- The library on ASCII text, with the digests under the secret `s` of a package that holds two
    empty files. -/
def PyLib.sample : PyLib where
  toPyChars := .ascii
  lower := List.map Char.toLower
  strOf _ := []
  isZero _ := false
  isInfinite _ := false
  intOfFloat _ := none
  hmacSha256 _ message :=
    if message.take 5 = "1.0.1".toList then
      "1c9d05c8a18c406316f34c08680b9d127ba4e96d54145b1efc07d1d10687ed50".toList
    else "001e009ba324e99c4c71125d49f0cf207e6024ae54ec6e7610ac3f50e720592f".toList
  sha256 _ := "d5a4e4dffdd7b7dbac2aa79936c28f2a69768fd29f8aaf9e06ae9c9ec2c8de84".toList
  infolist _ := some [⟨"setup.exe".toList, 0⟩, ⟨"payload/srp-agent.exe".toList, 0⟩]

/-- The manifest of that package under a version, with its signature. -/
def sampleManifest (version hmac : String) : Dict :=
  [("version".toList, .str version.toList),
    ("sha256".toList,
      .str "d5a4e4dffdd7b7dbac2aa79936c28f2a69768fd29f8aaf9e06ae9c9ec2c8de84".toList),
    ("size".toList, .int 234), ("hmac".toList, .str hmac.toList)]

theorem isFloatToken_zero : isFloatToken "0.0".toList = true := by decide

/-- A check of the version 1.0.0, under the secret `s`. -/
def sampleCheck (manifest : Dict) (package : PackageReply) : CheckInput where
  cfg := { updateHmacSecret := "s".toList }
  currentVersion := "1.0.0".toList
  manifest := .json (.obj manifest)
  package := package
  clock := ⟨"0.0".toList, isFloatToken_zero⟩

end Srp.Client
