/-
  Srp/Client/UpdateAttempts.lean
  ==============================
  **How often one version is downloaded.**

  `state.json` counts the attempts of one target version and starts again when
  the target changes, so the ceiling holds for a version only while no other one
  comes in between (`attempts_alternating`).  `attempts_bounded` is the ceiling
  for the runs in which no version comes back.
-/
import Srp.Client.Updater

namespace Srp.Client

open Srp.Lib Srp.Lib.Lines Srp.Lib.PyInt Srp.Lib.PyJson

variable (P : PyLib)

/-! ### The account of a run -/

def UpdateEvent.downloading? : UpdateEvent → Option Text
  | .downloading version => some version
  | _ => none

def UpdateEvent.installed? : UpdateEvent → Option Text
  | .installed version => some version
  | _ => none

/-- The versions whose packages were downloaded, in order. -/
def Updater.downloads (u : Updater) : List Text := u.log.filterMap UpdateEvent.downloading?

/-- The versions that a restart found running. -/
def Updater.installs (u : Updater) : List Text := u.log.filterMap UpdateEvent.installed?

/-- No version was downloaded more than three times before an installation of it succeeded. -/
def AttemptsBounded (u : Updater) : Prop :=
  ∀ version, version ∉ u.installs → (u.downloads.count version : Int) ≤ maxAttempts

/-- The step can write `state.json`. -/
def UpdaterStep.Writes : UpdaterStep → Prop
  | .check x => x.stateWritable = true
  | .restart _ _ => True

/-- When a check attempts a version that was downloaded before, no other one was downloaded
    since. -/
def NoComeback (u : Updater) : UpdaterStep → Prop
  | .check x => ∀ manifest update, Attempts P x manifest update →
      update.version ∈ u.downloads → u.downloads.getLast? = some update.version
  | .restart _ _ => True

/-! ### The ceiling -/

/-- The content of `state.json` after an attempt. -/
def notedFields (version : Text) (attempts : Int) (clock : FloatText) : Dict :=
  [("target_version".toList, .str version), ("attempts".toList, .int attempts),
    ("staged_at".toList, .float clock)]

def noted (version : Text) (attempts : Int) (clock : FloatText) : StateFile :=
  .json (.obj (notedFields version attempts clock))

@[simp] theorem lookup_target (version : Text) (attempts : Int) (clock : FloatText) :
    (notedFields version attempts clock).lookup "target_version".toList = some (.str version) := by
  simp [notedFields]

@[simp] theorem lookup_attempts (version : Text) (attempts : Int) (clock : FloatText) :
    (notedFields version attempts clock).lookup "attempts".toList = some (.int attempts) := by
  simp [notedFields, List.lookup]

/-- The file of a run counts the attempts of the version downloaded last. -/
structure Counted (u : Updater) : Prop where
  written : u.stateFile = .missing ∨
    ∃ version attempts clock, u.stateFile = noted version attempts clock ∧ 0 ≤ attempts
  last : ∀ version, u.downloads.getLast? = some version → version ∉ u.installs →
    ∃ attempts clock, u.stateFile = noted version attempts clock ∧
      (u.downloads.count version : Int) ≤ attempts
  bounded : AttemptsBounded u

theorem counted_fresh : Counted {} :=
  { written := Or.inl rfl
    last := by intro version h; cases h
    bounded := by intro version _; exact (by decide : (0 : Int) ≤ maxAttempts) }

theorem attemptsFor_noted {u : Updater} {version : Text} {attempts : Int} {clock : FloatText}
    (h : u.stateFile = noted version attempts clock) (target : Text) :
    attemptsFor P u target = some (if version = target then attempts else 0) := by
  simp only [attemptsFor, readState, h, noted, lookup_target, lookup_attempts]
  split <;> rfl

theorem attemptsFor_nonneg {u : Updater} (h : Counted u) {target : Text} {attempts : Int}
    (hattempts : attemptsFor P u target = some attempts) : 0 ≤ attempts := by
  rcases h.written with hfile | ⟨version, n, clock, hfile, hn⟩
  · simp only [attemptsFor, readState, hfile] at hattempts
    cases hattempts
    exact le_refl 0
  · rw [attemptsFor_noted P hfile] at hattempts
    cases hattempts
    split
    · exact hn
    · exact le_refl 0

/-- What the file says of a version that may be attempted covers its downloads so far. -/
theorem count_le_attempts {u : Updater} (h : Counted u) {version : Text} {attempts : Int}
    (hback : version ∈ u.downloads → u.downloads.getLast? = some version)
    (hnot : version ∉ u.installs) (hattempts : attemptsFor P u version = some attempts) :
    (u.downloads.count version : Int) ≤ attempts := by
  by_cases hmem : version ∈ u.downloads
  · obtain ⟨n, clock, hfile, hcount⟩ := h.last version (hback hmem) hnot
    rw [attemptsFor_noted P hfile, if_pos rfl] at hattempts
    cases hattempts
    exact hcount
  · rw [List.count_eq_zero_of_not_mem hmem]
    exact attemptsFor_nonneg P h hattempts

/-- What `applyVerified` adds to the downloads and to the installations. -/
theorem applyVerified_account (x : CheckInput) (manifest : Dict) (update : Update) (attempts : Int)
    (u : Updater) :
    (applyVerified P x manifest update attempts u).2.downloads = u.downloads ++ [update.version] ∧
      (applyVerified P x manifest update attempts u).2.installs = u.installs := by
  obtain ⟨-, hlog | ⟨package, -, hlog⟩⟩ := applyVerified_cases P x manifest update attempts u
  · simp [Updater.downloads, Updater.installs, hlog, UpdateEvent.downloading?,
      UpdateEvent.installed?]
  · simp [Updater.downloads, Updater.installs, hlog, UpdateEvent.downloading?,
      UpdateEvent.installed?]

theorem counted_attempt {u : Updater} (h : Counted u) {x : CheckInput} (manifest : Dict)
    {update : Update} {attempts : Int} (hwritable : x.stateWritable = true)
    (hback : update.version ∈ u.downloads → u.downloads.getLast? = some update.version)
    (hattempts : attemptsFor P u update.version = some attempts) (hfew : attempts < maxAttempts) :
    Counted (applyVerified P x manifest update attempts u).2 := by
  obtain ⟨hdownloads, hinstalls⟩ := applyVerified_account P x manifest update attempts u
  have hfile : (applyVerified P x manifest update attempts u).2.stateFile =
      noted update.version (attempts + 1) x.clock := by
    rw [(applyVerified_cases P x manifest update attempts u).1, writeState, if_pos hwritable]
    rfl
  have hcount : update.version ∉ u.installs →
      ((u.downloads ++ [update.version]).count update.version : Int) ≤ attempts + 1 := by
    intro hnot
    have hold := count_le_attempts P h hback hnot hattempts
    rw [List.count_append, List.count_singleton_self]
    omega
  constructor
  · have hnonneg := attemptsFor_nonneg P h hattempts
    exact Or.inr ⟨_, _, _, hfile, by omega⟩
  · intro version hlast hnot
    rw [hdownloads, List.getLast?_concat] at hlast
    cases hlast
    rw [hinstalls] at hnot
    rw [hdownloads]
    exact ⟨_, _, hfile, hcount hnot⟩
  · intro version hnot
    rw [hinstalls] at hnot
    rw [hdownloads]
    by_cases heq : version = update.version
    · subst heq
      exact (hcount hnot).trans (by omega)
    · rw [List.count_append, List.count_singleton, if_neg (by simpa using Ne.symm heq), add_zero]
      exact h.bounded version hnot

/-- A step that leaves the file and the log alone. -/
theorem counted_of_unchanged {u u' : Updater} (h : Counted u) (hfile : u'.stateFile = u.stateFile)
    (hlog : u'.log = u.log) : Counted u' := by
  have hdownloads : u'.downloads = u.downloads := by simp only [Updater.downloads, hlog]
  have hinstalls : u'.installs = u.installs := by simp only [Updater.installs, hlog]
  constructor
  · rw [hfile]
    exact h.written
  · rw [hfile, hdownloads, hinstalls]
    exact h.last
  · intro version
    rw [hdownloads, hinstalls]
    exact h.bounded version

theorem counted_restart {u : Updater} (h : Counted u) (currentVersion : Text)
    (stale : Json → Bool) : Counted (reconcileAfterRestart currentVersion stale u).2 := by
  rcases restart_cases currentVersion stale u with
    ⟨hfile, hlog⟩ | ⟨hfile, hlog, fields, hold, htarget⟩
  · exact counted_of_unchanged h hfile hlog
  · have hdownloads : (reconcileAfterRestart currentVersion stale u).2.downloads = u.downloads := by
      simp [Updater.downloads, hlog, UpdateEvent.downloading?]
    have hinstalls : (reconcileAfterRestart currentVersion stale u).2.installs =
        u.installs ++ [currentVersion] := by
      simp [Updater.installs, hlog, UpdateEvent.installed?]
    constructor
    · exact Or.inl hfile
    · intro version hlast hnot
      rw [hinstalls, List.mem_append, not_or] at hnot
      rw [hdownloads] at hlast
      obtain ⟨n, clock, hnoted, -⟩ := h.last version hlast hnot.1
      -- the file named the version that was found running
      rw [hold] at hnoted
      cases hnoted
      rw [lookup_target] at htarget
      have heq : version = currentVersion := by simpa using htarget
      exact absurd (List.mem_singleton.mpr heq) hnot.2
    · intro version hnot
      rw [hinstalls, List.mem_append, not_or] at hnot
      rw [hdownloads]
      exact h.bounded version hnot.1

theorem counted_next {u : Updater} (h : Counted u) (step : UpdaterStep) (hwrites : step.Writes)
    (hback : NoComeback P u step) : Counted ((updater P).next u step) := by
  cases step with
  | check x =>
    change Counted (check P x u).2
    rcases check_cases P x u with
      ⟨hfile, hlog⟩ | ⟨m, update, attempts, hgates, hattempts, hfew, hnext⟩
    · exact counted_of_unchanged h hfile hlog
    · rw [hnext]
      exact counted_attempt P h m hwrites (hback m update hgates) hattempts hfew
  | restart currentVersion stale => exact counted_restart h currentVersion stale

/-- In a run of a fresh updater in which `state.json` can be written and no version comes back, no
    version is downloaded more than three times before an installation of it succeeds. -/
theorem attempts_bounded (steps : List UpdaterStep) (hwrites : ∀ step ∈ steps, step.Writes)
    (hback : (updater P).Along (NoComeback P) {} steps) :
    AttemptsBounded ((updater P).stateAfter {} steps) := by
  have halong := (Machine.along_iff_forall (M := updater P) (s := {})).mpr hwrites
  have hstep : ∀ u step, Counted u → step.Writes ∧ NoComeback P u step →
      Counted ((updater P).next u step) :=
    fun _ step h hstep => counted_next P h step hstep.1 hstep.2
  exact (Machine.stateAfter_invariant_along hstep counted_fresh (halong.and hback)).bounded

/-- The signed manifests of two versions, offered while the package cannot be fetched. -/
def offered : Bool → UpdaterStep
  | true => .check (sampleCheck (sampleManifest "1.0.1"
      "1c9d05c8a18c406316f34c08680b9d127ba4e96d54145b1efc07d1d10687ed50") { ending := .broken })
  | false => .check (sampleCheck (sampleManifest "1.0.2"
      "001e009ba324e99c4c71125d49f0cf207e6024ae54ec6e7610ac3f50e720592f") { ending := .broken })

theorem offered_writes (first : Bool) : (offered first).Writes := by
  cases first <;> rfl

/-- A second version in between resets the count of the first: its package is downloaded four
    times. -/
theorem attempts_alternating :
    let steps := [true, false, true, true, true].map offered
    (∀ step ∈ steps, step.Writes) ∧
      ¬ AttemptsBounded ((updater .sample).stateAfter {} steps) := by
  intro steps
  constructor
  · intro step hstep
    obtain ⟨first, -, rfl⟩ := List.mem_map.mp hstep
    exact offered_writes first
  · intro hbounded
    have hrun : ((updater .sample).stateAfter {} steps).installs = [] ∧
        ((updater .sample).stateAfter {} steps).downloads.count "1.0.1".toList = 4 := by
      decide +kernel
    have hcount := hbounded "1.0.1".toList (by rw [hrun.1]; exact List.not_mem_nil)
    rw [hrun.2] at hcount
    exact absurd hcount (by decide)

theorem offered_version {x : CheckInput} (first : Bool) (hx : offered first = .check x)
    {manifest : Dict} {update : Update} (h : Attempts P x manifest update) :
    update.version = if first then "1.0.1".toList else "1.0.2".toList := by
  have hversion := (selectUpdate_selected P h.selected).version
  have hreceived := h.received
  cases first <;> cases hx <;> cases hreceived
  · simpa [sampleManifest, eq_comm] using hversion
  · simpa [sampleManifest, eq_comm] using hversion

/-- Two versions, one after the other, in a run along the condition. -/
theorem attempts_bounded_successive :
    AttemptsBounded ((updater .sample).stateAfter {} ([true, true, false].map offered)) := by
  apply attempts_bounded
  · intro step hstep
    obtain ⟨first, -, rfl⟩ := List.mem_map.mp hstep
    exact offered_writes first
  · refine ⟨?_, ?_, ?_, True.intro⟩
    · intro manifest update h hmem
      cases hmem
    · intro manifest update h hmem
      rw [offered_version .sample true rfl h]
      decide +kernel
    · intro manifest update h hmem
      rw [offered_version .sample false rfl h] at hmem ⊢
      revert hmem
      decide +kernel

end Srp.Client
