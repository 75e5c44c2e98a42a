/-
  Srp/Client/UserCerts.lean
  =========================
  **The tray's spool of personal certificates** (`client/collectors/user_certs.py`).

  Any user of the machine can write the spool.  A file is what the reader can learn
  of it: the answers of the calls that raise `OSError` are optional, and so is the
  document, which is absent where `read_text` or `json.loads` raise.  What comes
  out of the reader does so unless it meets a `written_at` that is an integer no
  float can hold (`readUserCerts_eq_ok_iff`).
-/
import Mathlib
import Srp.Lib.GroupBy
import Srp.Lib.IsoTime
import Srp.Lib.PyUnicode

namespace Srp.Client

open Srp.Lib Srp.Lib.IsoTime Srp.Lib.Lines Srp.Lib.PyNum Srp.Lib.PyUnicode

/-! ### Limits -/

def maxTotal : Nat := 64
def maxFiles : Nat := 50
def maxFileBytes : Nat := 64 * 1024
def maxPerFile : Nat := 64
def maxStr : Nat := 256
def maxThumb : Nat := 80
def maxOwner : Nat := 64
def freshSec : ℚ := 30 * 86400

/-! ### Files -/

structure SpoolFile where
  name : PyStr
  /-- whether it is a regular file, `none` where `stat` raises -/
  regular : Option Bool := some true
  mtime : ℚ := 0
  size : Option Nat
  /-- `json.loads(path.read_text(encoding="utf-8"))` -/
  doc : Option Value

/-- The files that match the pattern, in the order of `glob`; `none` where it raises. -/
abbrev SpoolDir := Option (List SpoolFile)

/-- The document of a file of at most `cap` octets. -/
def SpoolFile.load (f : SpoolFile) (cap : Nat) : Option Value :=
  match f.size with
  | none => none
  | some n => if cap < n then none else f.doc

/-! ### One file -/

/-- `datetime.fromtimestamp(n, tz=timezone.utc).strftime(...)`, for the years 1 to 9999. -/
def utcText (n : Int) : Option Text :=
  let us := (n + 62135596800).toNat * usPerSec
  if h : us < 3652059 * usPerDay then
    if -62135596800 ≤ n then some (isoformat ⟨us, h⟩).toList else none
  else none

structure Cert where
  subject : PyStr
  issuer : PyStr
  thumbprint : PyStr
  notAfter : Text
  notBefore : Option Text
  owner : PyStr
deriving DecidableEq

def Cert.key (c : Cert) : PyStr × PyStr := (c.owner, c.thumbprint)

section Reader

variable (I : Interpreter)

/-- `_iso`. -/
def isoEpoch (epoch : Value) : Option Text :=
  match intOf I epoch with
  | .ok n => if I.gmtime n then utcText n else none
  | .error _ => none

/-- `_clip`. -/
def clip (value : Value) (limit : Nat) : PyStr :=
  match value with
  | .null => []
  | v => (pyStr I v).take limit

/-- `_valid_cert`. -/
def validCert (owner : PyStr) : Value → Option Cert
  | .obj entry =>
    match Value.get entry "thumbprint" with
    | .str thumb =>
      if strip I thumb = [] then none
      else
        match isoEpoch I (Value.get entry "not_after") with
        | none => none
        | some notAfter =>
          some
            { subject := clip I (Value.get entry "subject") maxStr
              issuer := clip I (Value.get entry "issuer") maxStr
              thumbprint := clip I (.str thumb) maxThumb
              notAfter
              notBefore := match Value.get entry "not_before" with
                | .null => none
                | v => isoEpoch I v
              owner }
    | _ => none
  | _ => none

/-- `isinstance(written, (int, float)) and now - float(written) > _FRESH_SEC`. -/
def isStale (now : ℚ) : Value → Except PyError Bool
  | .bool b => .ok (freshSec < now - if b then 1 else 0)
  | .int n => (floatOfInt n).map fun written => freshSec < now - written
  | .float x =>
    match I.ofToken x with
    | .finite written => .ok (freshSec < now - written)
    | .negInf => .ok true
    | _ => .ok false
  | _ => .ok false

/-- The certificates of a fresh document. -/
def certsIn (doc : List (PyStr × Value)) : List Cert :=
  let owner := clip I (Value.get doc "owner") maxOwner
  match Value.get doc "certs" with
  | .arr certs => (certs.take maxPerFile).filterMap (validCert I owner)
  | _ => []

/-- `_read_file`. -/
def readFile (now : ℚ) (f : SpoolFile) : Except PyError (List Cert) :=
  match f.load maxFileBytes with
  | some (.obj doc) =>
    (isStale I now (Value.get doc "written_at")).map fun stale =>
      if stale then [] else certsIn I doc
  | _ => .ok []

/-! ### The directory -/

/-- The loop over one file's certificates.  `seen` holds the keys of `out`, and the loop has
    returned from the function when `out` is full. -/
def addCerts : List Cert → List Cert → List Cert
  | [], out => out
  | c :: cs, out =>
    if c.key ∈ out.map Cert.key then addCerts cs out
    else if maxTotal ≤ (out ++ [c]).length then out ++ [c]
    else addCerts cs (out ++ [c])

/-- The loop over the files. -/
def readFiles (now : ℚ) : List SpoolFile → List Cert → Except PyError (List Cert)
  | [], out => .ok out
  | f :: fs, out =>
    match readFile I now f with
    | .error e => .error e
    | .ok cs =>
      if maxTotal ≤ (addCerts cs out).length then .ok (addCerts cs out)
      else readFiles now fs (addCerts cs out)

/-- `sorted(p for p in spool_dir.glob(SPOOL_GLOB) if p.is_file())`. -/
def certFiles (dir : SpoolDir) : List SpoolFile :=
  match dir with
  | none => []
  | some files =>
    if files.any (·.regular.isNone) then []
    else (files.filter (·.regular = some true)).insertionSort
      fun f g => I.pathKey f.name ≤ I.pathKey g.name

/-- `read_user_certs`. -/
def readUserCerts (now : ℚ) (dir : SpoolDir) : Except PyError (List Cert) :=
  readFiles I now ((certFiles I dir).take maxFiles) []

/-! ### When a file raises -/

/-- `written_at` is an integer beyond every float. -/
def StampOverflows (f : SpoolFile) : Prop :=
  ∃ doc n, f.load maxFileBytes = some (.obj doc) ∧ Value.get doc "written_at" = .int n ∧
    floatLimit ≤ n.natAbs

theorem isStale_eq_error_iff (now : ℚ) (written : Value) :
    (∃ e, isStale I now written = .error e) ↔
      ∃ n, written = .int n ∧ floatLimit ≤ n.natAbs := by
  constructor
  · rintro ⟨e, h⟩
    cases written with
    | int n =>
      rw [isStale, floatOfInt] at h
      refine ⟨n, rfl, ?_⟩
      by_contra hlt
      rw [if_pos (not_le.mp hlt)] at h
      cases h
    | float x =>
      rw [isStale] at h
      cases hx : I.ofToken x <;> rw [hx] at h <;> cases h
    | null => cases h
    | bool b => cases h
    | str s => cases h
    | arr xs => cases h
    | obj fields => cases h
  · rintro ⟨n, rfl, hn⟩
    refine ⟨.overflowError, ?_⟩
    rw [isStale, floatOfInt, if_neg (not_lt.mpr hn)]
    rfl

theorem readFile_eq_error_iff (now : ℚ) (f : SpoolFile) :
    (∃ e, readFile I now f = .error e) ↔ StampOverflows f := by
  rw [StampOverflows, readFile]
  cases hload : f.load maxFileBytes with
  | none => simp
  | some v =>
    cases v with
    | obj doc =>
      have hiff := isStale_eq_error_iff I now (Value.get doc "written_at")
      dsimp only
      constructor
      · rintro ⟨e, h⟩
        cases hstale : isStale I now (Value.get doc "written_at") with
        | error e' =>
          obtain ⟨n, hn, hbig⟩ := hiff.mp ⟨e', hstale⟩
          exact ⟨doc, n, rfl, hn, hbig⟩
        | ok stale =>
          rw [hstale] at h
          cases h
      · rintro ⟨doc', n, hdoc, hn, hbig⟩
        obtain rfl : doc = doc' := by simpa using hdoc
        obtain ⟨e, he⟩ := hiff.mpr ⟨n, hn, hbig⟩
        rw [he]
        exact ⟨e, rfl⟩
    | _ => simp

/-- What a file that does not raise yields. -/
def fileCerts (now : ℚ) (f : SpoolFile) : List Cert := ((readFile I now f).toOption).getD []

theorem readFile_of_fits {now : ℚ} {f : SpoolFile} (h : ¬ StampOverflows f) :
    readFile I now f = .ok (fileCerts I now f) := by
  rw [← readFile_eq_error_iff I now] at h
  unfold fileCerts
  cases hread : readFile I now f with
  | error e => exact absurd ⟨e, hread⟩ h
  | ok cs => rfl

end Reader

/-! ### Distinct certificates -/

def addNew (out : List Cert) (c : Cert) : List Cert :=
  if c.key ∈ out.map Cert.key then out else out ++ [c]

/-- The first certificate of every key, in order. -/
def distinctCerts (cs : List Cert) : List Cert := cs.foldl addNew []

theorem prefix_foldl_addNew (cs out : List Cert) : out <+: cs.foldl addNew out := by
  induction cs generalizing out with
  | nil => exact List.prefix_rfl
  | cons c cs ih =>
    rw [List.foldl_cons]
    refine List.IsPrefix.trans ?_ (ih _)
    unfold addNew
    split
    · exact List.prefix_rfl
    · exact List.prefix_append out [c]

theorem take_foldl_addNew {cs out : List Cert} (h : maxTotal ≤ out.length) :
    (cs.foldl addNew out).take maxTotal = out.take maxTotal := by
  obtain ⟨t, ht⟩ := prefix_foldl_addNew cs out
  rw [← ht, List.take_append_of_le_length h]

theorem addCerts_eq {cs out : List Cert} (h : out.length < maxTotal) :
    addCerts cs out = (cs.foldl addNew out).take maxTotal := by
  induction cs generalizing out with
  | nil => exact (List.take_of_length_le h.le).symm
  | cons c cs ih =>
    rw [addCerts, List.foldl_cons, addNew]
    by_cases hseen : c.key ∈ out.map Cert.key
    · rw [if_pos hseen, if_pos hseen]
      exact ih h
    · rw [if_neg hseen, if_neg hseen]
      by_cases hfull : maxTotal ≤ (out ++ [c]).length
      · rw [if_pos hfull, take_foldl_addNew hfull, List.take_of_length_le]
        rw [List.length_append, List.length_singleton]
        exact h
      · rw [if_neg hfull]
        exact ih (not_le.mp hfull)

section Directory

variable (I : Interpreter) (now : ℚ)

/-- The loop returns unless it comes to a file that raises before it is full, and then with the
    first certificates of the files. -/
theorem readFiles_eq_ok_iff {fs : List SpoolFile} {out certs : List Cert}
    (hout : out.length < maxTotal) :
    readFiles I now fs out = .ok certs ↔
      certs = ((fs.flatMap (fileCerts I now)).foldl addNew out).take maxTotal ∧
      ∀ before f after, fs = before ++ f :: after → StampOverflows f →
        maxTotal ≤ ((before.flatMap (fileCerts I now)).foldl addNew out).length := by
  induction fs generalizing out with
  | nil =>
    rw [readFiles, List.flatMap_nil, List.foldl_nil, List.take_of_length_le hout.le]
    constructor
    · intro h
      refine ⟨(Except.ok.inj h).symm, ?_⟩
      intro before f after hsplit
      exact absurd hsplit (by simp)
    · rintro ⟨rfl, _⟩
      rfl
  | cons f fs ih =>
    rw [readFiles]
    by_cases hf : StampOverflows f
    · obtain ⟨e, he⟩ := (readFile_eq_error_iff I now f).mpr hf
      rw [he]
      constructor
      · intro h
        cases h
      · rintro ⟨_, h⟩
        exact absurd (h [] f fs rfl hf) (not_le.mpr hout)
    · rw [readFile_of_fits I hf]
      dsimp only
      rw [addCerts_eq hout, List.flatMap_cons, List.foldl_append]
      have hlen : (((fileCerts I now f).foldl addNew out).take maxTotal).length =
          min maxTotal ((fileCerts I now f).foldl addNew out).length := List.length_take
      by_cases hfull : maxTotal ≤ ((fileCerts I now f).foldl addNew out).length
      · rw [if_pos (by rw [hlen]; omega), take_foldl_addNew hfull]
        constructor
        · intro h
          refine ⟨(Except.ok.inj h).symm, ?_⟩
          intro before g after hsplit hg
          cases before with
          | nil =>
            obtain rfl := (List.cons.inj hsplit).1
            exact absurd hg hf
          | cons b before =>
            obtain rfl := (List.cons.inj hsplit).1
            rw [List.flatMap_cons, List.foldl_append]
            exact hfull.trans (prefix_foldl_addNew _ _).length_le
        · rintro ⟨rfl, _⟩
          rfl
      · rw [if_neg (by rw [hlen]; omega), List.take_of_length_le (not_le.mp hfull).le,
          ih (not_le.mp hfull)]
        apply and_congr_right
        intro _
        constructor
        · intro h before g after hsplit hg
          cases before with
          | nil =>
            obtain rfl := (List.cons.inj hsplit).1
            exact absurd hg hf
          | cons b before =>
            obtain ⟨rfl, htail⟩ := List.cons.inj hsplit
            rw [List.flatMap_cons, List.foldl_append]
            exact h before g after htail hg
        · intro h before g after hsplit hg
          have hmore := h (f :: before) g after (by rw [hsplit]; rfl) hg
          rwa [List.flatMap_cons, List.foldl_append] at hmore

/-- Before the first file whose stamp overflows, the spool yields certificates enough. -/
def StampsFit (dir : SpoolDir) : Prop :=
  ∀ before f after, (certFiles I dir).take maxFiles = before ++ f :: after → StampOverflows f →
    maxTotal ≤ (distinctCerts (before.flatMap (fileCerts I now))).length

/-- The first certificates of the spool. -/
def keptCerts (dir : SpoolDir) : List Cert :=
  (distinctCerts (((certFiles I dir).take maxFiles).flatMap (fileCerts I now))).take maxTotal

theorem readUserCerts_eq_ok_iff {dir : SpoolDir} {certs : List Cert} :
    readUserCerts I now dir = .ok certs ↔ certs = keptCerts I now dir ∧ StampsFit I now dir :=
  readFiles_eq_ok_iff I now (by decide)

end Directory

end Srp.Client
