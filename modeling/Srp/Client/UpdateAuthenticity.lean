/-
  Srp/Client/UpdateAuthenticity.lean
  ==================================
  **What may be scheduled for installation.**

  The answers of the server are free inputs of every cycle and the updater may
  start in any state.  `scheduled_authentic` says what stands behind an
  installation: a secret, a manifest signed under it, a package of the size and
  digest that the manifest gives, and a version newer than the running one.
-/
import Srp.Client.Updater

namespace Srp.Client

open Srp.Lib Srp.Lib.Lines Srp.Lib.PyInt Srp.Lib.PyJson

variable (P : PyLib)

/-! ### What a download has verified -/

/-- The bytes are those received, as far as the transfer went, and have the promised size and
    digest. -/
structure Verified (reply : PackageReply) (expectedSha256 : Text) (expectedSize : Nat)
    (package : List UInt8) : Prop where
  size : package.length = expectedSize
  sha256 : P.sha256 package = expectedSha256
  received : ∃ n, package = (reply.chunks.take n).flatten

theorem verify_verified {expectedSha256 : Text} {expectedSize : Nat} {written package : List UInt8}
    (h : verify P expectedSha256 expectedSize written = .verified package) :
    package = written ∧ written.length = expectedSize ∧ P.sha256 written = expectedSha256 := by
  unfold verify at h
  split at h
  · cases h
  · rename_i hgood
    cases h
    rw [not_or, not_not, not_not] at hgood
    exact ⟨rfl, hgood⟩

theorem readChunks_verified {ending : TransferEnd} {expectedSha256 : Text} {expectedSize : Nat}
    {written package : List UInt8} {chunks : List (List UInt8)}
    (h : readChunks P ending expectedSha256 expectedSize written chunks = .verified package) :
    package.length = expectedSize ∧ P.sha256 package = expectedSha256 ∧
      ∃ n, package = written ++ (chunks.take n).flatten := by
  induction chunks generalizing written with
  | nil =>
    cases ending with
    | complete =>
      obtain ⟨rfl, hsize, hsha⟩ := verify_verified P h
      exact ⟨hsize, hsha, 0, by simp⟩
    | broken => cases h
    | raised => cases h
  | cons chunk chunks ih =>
    cases chunk with
    | nil =>
      obtain ⟨rfl, hsize, hsha⟩ := verify_verified P h
      exact ⟨hsize, hsha, 0, by simp⟩
    | cons b bs =>
      simp only [readChunks] at h
      split at h
      · cases h
      · obtain ⟨hsize, hsha, n, hn⟩ := ih h
        exact ⟨hsize, hsha, n + 1, by simp [hn]⟩

theorem download_verified {reply : PackageReply} {expectedSha256 : Text} {expectedSize : Nat}
    {package : List UInt8} (h : download P reply expectedSha256 expectedSize = .verified package) :
    Verified P reply expectedSha256 expectedSize package := by
  obtain ⟨hsize, hsha, n, hn⟩ := readChunks_verified P h
  exact ⟨hsize, hsha, n, by simpa using hn⟩

/-! ### Authenticity -/

/-- What stands behind an installation of the staged bytes. -/
structure Authentic (x : CheckInput) (manifest : Dict) (staged : List UInt8)
    (version sha256 : Text) : Prop where
  secret : signingSecret x.cfg ≠ []
  received : x.manifest = .json (.obj manifest)
  versionField : manifest.lookup "version".toList = some (.str version)
  sha256Field : manifest.lookup "sha256".toList = some (.str sha256)
  signature : ∃ hmac, manifest.lookup "hmac".toList = some hmac ∧
    P.str hmac = computeHmac P (signingSecret x.cfg) version sha256
  size : manifest.lookup "size".toList = some (.int staged.length)
  digest : P.sha256 staged = sha256
  downloaded : ∃ n, staged = (x.package.chunks.take n).flatten
  newer : ∃ current remote, parseVersion P x.currentVersion = some current ∧
    parseVersion P version = some remote ∧ Version.lt current remote = true

theorem authentic_of_attempts {x : CheckInput} {manifest : Dict} {update : Update}
    (h : Attempts P x manifest update) {package : List UInt8}
    (hpackage : download P x.package update.sha256 update.size = .verified package) :
    Authentic P x manifest package update.version update.sha256 := by
  have hselected := selectUpdate_selected P h.selected
  have hverified := download_verified P hpackage
  exact
    { secret := h.secret
      received := h.received
      versionField := hselected.version
      sha256Field := hselected.sha256
      signature := ⟨update.hmac, hselected.hmac rfl, h.signed.symm⟩
      size := by rw [hverified.size]; exact hselected.size
      digest := hverified.sha256
      downloaded := hverified.received
      newer := hselected.newer }

/-- The installations that one step schedules are authentic. -/
theorem next_scheduled {u : Updater} {step : UpdaterStep} {x : CheckInput} {manifest : Dict}
    {staged : List UInt8} (h : .scheduled x manifest staged ∈ ((updater P).next u step).log) :
    .scheduled x manifest staged ∈ u.log ∨
      step = .check x ∧ ∃ version sha256, Authentic P x manifest staged version sha256 := by
  cases step with
  | check y =>
    have h : .scheduled x manifest staged ∈ (check P y u).2.log := h
    rcases check_cases P y u with ⟨-, hlog⟩ | ⟨m, update, attempts, hattempts, -, -, hnext⟩
    · rw [hlog] at h
      exact Or.inl h
    · rw [hnext] at h
      obtain ⟨-, hlog | ⟨package, hpackage, hlog⟩⟩ :=
        applyVerified_cases P y m update attempts u
      · rw [hlog, List.mem_append, List.mem_singleton] at h
        exact Or.inl (h.resolve_right fun heq => nomatch heq)
      · rw [hlog, List.mem_append] at h
        rcases h with h | h
        · exact Or.inl h
        · have heq : UpdateEvent.scheduled x manifest staged = .scheduled y m package := by
            simpa using h
          cases heq
          exact Or.inr ⟨rfl, update.version, update.sha256,
            authentic_of_attempts P hattempts hpackage⟩
  | restart currentVersion stale =>
    left
    have h : .scheduled x manifest staged ∈ (reconcileAfterRestart currentVersion stale u).2.log := h
    rcases restart_cases currentVersion stale u with ⟨-, hlog⟩ | ⟨-, hlog, -⟩
    · rwa [hlog] at h
    · rw [hlog, List.mem_append, List.mem_singleton] at h
      exact h.resolve_right fun heq => nomatch heq

/-- Whatever the server answers and whatever state the updater starts in, an installation is only
    scheduled by a check that met a secret, a manifest signed under it, a package of the size and
    digest it gives, and a version newer than the running one. -/
theorem scheduled_authentic (u : Updater) (steps : List UpdaterStep) (x : CheckInput)
    (manifest : Dict) (staged : List UInt8)
    (h : .scheduled x manifest staged ∈ ((updater P).stateAfter { u with log := [] } steps).log) :
    .check x ∈ steps ∧ ∃ version sha256, Authentic P x manifest staged version sha256 := by
  induction steps using List.reverseRecOn with
  | nil => cases h
  | append_singleton steps step ih =>
    rw [Machine.stateAfter_append] at h
    rcases next_scheduled P h with hearlier | ⟨rfl, hauthentic⟩
    · obtain ⟨hmem, hauthentic⟩ := ih hearlier
      exact ⟨List.mem_append_left _ hmem, hauthentic⟩
    · exact ⟨List.mem_append_right _ (List.mem_singleton.mpr rfl), hauthentic⟩

/-- Two empty files in a zip archive. -/
def samplePackage : List UInt8 :=
  [80, 75, 3, 4, 20, 0, 0, 0, 0, 0, 0, 0, 33, 0, 0, 0, 0, 0, 0, 0, 0, 0, 0, 0, 0, 0, 9, 0, 0, 0,
    115, 101, 116, 117, 112, 46, 101, 120, 101, 80, 75, 3, 4, 20, 0, 0, 0, 0, 0, 0, 0, 33, 0, 0,
    0, 0, 0, 0, 0, 0, 0, 0, 0, 0, 0, 21, 0, 0, 0, 112, 97, 121, 108, 111, 97, 100, 47, 115, 114,
    112, 45, 97, 103, 101, 110, 116, 46, 101, 120, 101, 80, 75, 1, 2, 20, 0, 20, 0, 0, 0, 0, 0, 0,
    0, 33, 0, 0, 0, 0, 0, 0, 0, 0, 0, 0, 0, 0, 0, 9, 0, 0, 0, 0, 0, 0, 0, 0, 0, 0, 0, 128, 1, 0,
    0, 0, 0, 115, 101, 116, 117, 112, 46, 101, 120, 101, 80, 75, 1, 2, 20, 0, 20, 0, 0, 0, 0, 0,
    0, 0, 33, 0, 0, 0, 0, 0, 0, 0, 0, 0, 0, 0, 0, 0, 21, 0, 0, 0, 0, 0, 0, 0, 0, 0, 0, 0, 128, 1,
    39, 0, 0, 0, 112, 97, 121, 108, 111, 97, 100, 47, 115, 114, 112, 45, 97, 103, 101, 110, 116,
    46, 101, 120, 101, 80, 75, 5, 6, 0, 0, 0, 0, 2, 0, 2, 0, 122, 0, 0, 0, 90, 0, 0, 0, 0, 0]

def UpdateEvent.staged? : UpdateEvent → Option (List UInt8)
  | .scheduled _ _ staged => some staged
  | _ => none

/-- A signed manifest and its package, in two chunks, do get scheduled. -/
theorem scheduled_authentic_sample :
    let x := sampleCheck (sampleManifest "1.0.1"
      "1c9d05c8a18c406316f34c08680b9d127ba4e96d54145b1efc07d1d10687ed50")
      { chunks := [samplePackage.take 100, samplePackage.drop 100] }
    ∃ y manifest version sha256, .check y ∈ [UpdaterStep.check x] ∧
      Authentic PyLib.sample y manifest samplePackage version sha256 := by
  intro x
  have hstaged : (((updater .sample).stateAfter { ({} : Updater) with log := [] }
      [.check x]).log.filterMap UpdateEvent.staged?) = [samplePackage] := by decide +kernel
  obtain ⟨event, hmem, hevent⟩ := List.mem_filterMap.mp
    (hstaged ▸ List.mem_singleton.mpr rfl : samplePackage ∈ _)
  cases event with
  | scheduled y manifest staged =>
    cases hevent
    obtain ⟨hx, version, sha256, hauthentic⟩ :=
      scheduled_authentic .sample {} [.check x] y manifest samplePackage hmem
    exact ⟨y, manifest, version, sha256, hx, hauthentic⟩
  | downloading remote => cases hevent
  | installed version => cases hevent

end Srp.Client
