/-
  Srp/Analytics/StorageOverflow.lean
  ==================================
  **When the storage engine raises.**

  The engine reads a fixed list of integers off a disk row, and `float()` of one
  that is too large raises.  A disk is read by the axis when it has SMART data,
  and by the pre-pass when it has a serial hash.
-/
import Srp.Analytics.StorageMonotone
import Srp.Analytics.StorageRisk

namespace Srp.Analytics.Storage

open Srp.Lib.PyNum Srp.Scoring Srp.Shared

section Rounded

variable {fl : ℚ → ℚ}

/-! ### One read -/

/-- `float()` of the reading does not raise. -/
def Fits (x : Option Int) : Prop := ∀ n, x = some n → n.natAbs < floatLimit

theorem num_of_fits {x : Option Int} (h : Fits x) : num x = .ok (asNum id x) := by
  cases x with
  | none => rfl
  | some n =>
    have hfloat : floatOfInt n = .ok (n : ℚ) := if_pos (h n rfl)
    simp only [num, hfloat]
    rfl

theorem floatNum_of_fits {x : Option Int} (h : Fits x) : floatNum fl x = .ok (asNum fl x) := by
  rw [floatNum, num_of_fits h]
  cases x <;> rfl

theorem fits_of_floatNum {x : Option Int} {y : Option ℚ} (h : floatNum fl x = .ok y) :
    Fits x := by
  rintro n rfl
  by_contra hbig
  have hfloat : floatOfInt n = .error .overflowError := if_neg hbig
  simp only [floatNum, num, hfloat] at h
  cases h

/-! ### One disk -/

def Readable (d : StorageReliability) : Prop := ∀ x ∈ scoredInts d, Fits x

/-- What the scoring of a disk reads off the series, when it reads it. -/
structure SeriesReadable (fl : ℚ → ℚ) (d : StorageReliability) (series : List DiskReading) : Prop where
  temps : exceeds (asNum fl d.temperatureC) 70 = true → ∃ b, tempSustainedHigh fl d series = .ok b
  recurrence : isTargetDisk d series = true → ∃ b, hasRecurrence fl series = .ok b

theorem SeriesReadable.nil (d : StorageReliability) : SeriesReadable fl d [] := {
  temps := fun _ => ⟨false, rfl⟩
  recurrence := fun h => by cases h
}

theorem readDisk_ok_iff {d : StorageReliability} {series : List DiskReading} :
    (∃ r, readDisk fl d series = .ok r) ↔ Readable d ∧ SeriesReadable fl d series := by
  constructor
  · rintro ⟨r, h⟩
    obtain ⟨hints, temp, recurrent, hstable, hrec, -⟩ := readDisk_ok h
    constructor
    · intro x hx
      obtain ⟨y, hy⟩ := hints x hx
      exact fits_of_floatNum hy
    · constructor
      · intro hhot
        rw [if_pos hhot] at hstable
        exact ⟨temp, hstable⟩
      · intro htarget
        rw [if_pos htarget] at hrec
        exact ⟨recurrent, hrec⟩
  · rintro ⟨hread, hseries⟩
    unfold Readable scoredInts at hread
    simp only [List.forall_mem_cons, List.not_mem_nil, false_implies, implies_true, and_true]
      at hread
    obtain ⟨h1, h2, h3, h4, h5, h6, h7, h8, h9, h10, h11, h12, h13, h14, h15, h16, h17, h18,
      h19⟩ := hread
    obtain ⟨stable, hstable⟩ : ∃ b, (if exceeds (asNum fl d.temperatureC) 70 then
        tempSustainedHigh fl d series else pure false) = .ok b := by
      split
      · exact hseries.temps ‹_›
      · exact ⟨false, rfl⟩
    obtain ⟨recurrent, hrec⟩ : ∃ b, (if isTargetDisk d series then hasRecurrence fl series
        else pure false) = .ok b := by
      split
      · exact hseries.recurrence ‹_›
      · exact ⟨false, rfl⟩
    simp only [readDisk, ite_bind, floatNum_of_fits h1, floatNum_of_fits h2, floatNum_of_fits h3,
      floatNum_of_fits h4, hstable, floatNum_of_fits h5, floatNum_of_fits h6, floatNum_of_fits h7, floatNum_of_fits h8,
      floatNum_of_fits h9, floatNum_of_fits h10, floatNum_of_fits h11, floatNum_of_fits h12, floatNum_of_fits h13,
      floatNum_of_fits h14, floatNum_of_fits h15, floatNum_of_fits h16, floatNum_of_fits h17, floatNum_of_fits h18, hrec,
      floatNum_of_fits h19, ok_bind]
    exact ⟨_, rfl⟩

theorem scoreDisk_ok_iff {ctx : Context} {d : StorageReliability} :
    (∃ s, scoreDisk fl ctx d = .ok s) ↔ Readable d ∧ SeriesReadable fl d ctx.diskSeries := by
  rw [← readDisk_ok_iff]
  exact map_ok_iff

/-! ### All disks -/

/-- The pre-pass scores the disk: `if not key` skips an absent and an empty serial hash. -/
def HasKey (d : StorageReliability) : Prop := ∃ key, d.serialHash = some key ∧ key ≠ ""

/-- The loop body of `worst_disk_key`. -/
def keyStep (fl : ℚ → ℚ) (best : Option (String × ℚ)) (disk : StorageReliability) :
    Except PyError (Option (String × ℚ)) :=
  match disk.serialHash with
  | none => .ok best
  | some key =>
    if key = "" then .ok best
    else (scoreDisk fl {} disk).map fun score =>
      match best with
      | none => some (key, score.coords.damage)
      | some (_, damage) =>
        if damage < score.coords.damage then some (key, score.coords.damage) else best

theorem worstDiskKey_eq (historical : Option HistoricalPayload) :
    worstDiskKey fl historical =
      ((storageDisks historical).foldlM (keyStep fl) none).map (·.map (·.1)) := by
  unfold worstDiskKey
  have hstep : (fun (best : Option (String × ℚ)) (disk : StorageReliability) =>
      (match disk.serialHash with
      | none => pure best
      | some key =>
        if key = "" then pure best
        else do
          let score ← scoreDisk fl {} disk
          match best with
          | none => pure (some (key, score.coords.damage))
          | some (_, damage) =>
            pure (if damage < score.coords.damage then some (key, score.coords.damage)
              else best) : Except PyError (Option (String × ℚ)))) = keyStep fl := by
    funext best disk
    unfold keyStep
    cases disk.serialHash with
    | none => rfl
    | some key =>
      by_cases hempty : key = ""
      · simp only [hempty, if_true]
        rfl
      · simp only [hempty, if_false]
        cases scoreDisk fl {} disk with
        | error e => rfl
        | ok score => cases best <;> rfl
  rw [← hstep]
  rfl

theorem keyStep_ok_iff (best : Option (String × ℚ)) (d : StorageReliability) :
    (∃ best', keyStep fl best d = .ok best') ↔ (HasKey d → Readable d) := by
  unfold keyStep
  cases hkey : d.serialHash with
  | none =>
    refine ⟨fun _ hk => ?_, fun _ => ⟨best, rfl⟩⟩
    obtain ⟨key, hsome, _⟩ := hk
    rw [hkey] at hsome
    cases hsome
  | some key =>
    by_cases hempty : key = ""
    · refine ⟨fun _ hk => ?_, fun _ => ⟨best, if_pos hempty⟩⟩
      obtain ⟨key', hsome, hne⟩ := hk
      exact absurd ((Option.some.inj (hsome.symm.trans hkey)).trans hempty) hne
    · have hscore : (∃ s, scoreDisk fl {} d = .ok s) ↔ Readable d ∧ SeriesReadable fl d [] :=
        scoreDisk_ok_iff
      simp only [SeriesReadable.nil, and_true] at hscore
      rw [forall_prop_of_true ⟨key, hkey, hempty⟩, ← hscore]
      simp only [hempty, if_false]
      exact map_ok_iff

theorem worstDiskKey_ok_iff {historical : Option HistoricalPayload} :
    (∃ key, worstDiskKey fl historical = .ok key) ↔
      ∀ d ∈ storageDisks historical, HasKey d → Readable d := by
  rw [worstDiskKey_eq, map_ok_iff]
  exact foldlM_ok_iff keyStep_ok_iff none _

theorem scanDisks_ok_iff {ctx : Context} {disks : List StorageReliability} :
    (∃ scan, scanDisks fl ctx disks = .ok scan) ↔
      ∀ d ∈ disks, hasSmart d = true → Readable d ∧ SeriesReadable fl d ctx.diskSeries := by
  unfold scanDisks
  apply foldlM_ok_iff
  intro scan d
  rw [← scoreDisk_ok_iff]
  unfold scanDisk
  by_cases hsm : hasSmart d = true
  · rw [if_pos hsm, forall_prop_of_true hsm]
    constructor
    · rintro ⟨scan', h⟩
      obtain ⟨s, hs, _⟩ := bind_eq_ok.mp h
      exact ⟨s, hs⟩
    · rintro ⟨s, hs⟩
      rw [hs]
      exact ⟨_, rfl⟩
  · rw [if_neg hsm]
    exact ⟨fun _ h => absurd h hsm, fun _ => ⟨scan, rfl⟩⟩

/-- On a device whose identity is trusted the engine completes exactly when every
    SMART-bearing disk can be read. -/
theorem computeStorageRisk_ok_iff {historical : Option HistoricalPayload} {ctx : Context}
    {domainState : Option DomainTrustState} :
    (∃ score, computeStorageRisk fl historical ctx .ok domainState = .ok score) ↔
      ∀ d ∈ storageDisks historical, hasSmart d = true →
        Readable d ∧ SeriesReadable fl d ctx.diskSeries := by
  rw [← scanDisks_ok_iff]
  unfold computeStorageRisk
  rw [if_neg (by decide)]
  constructor
  · rintro ⟨score, h⟩
    obtain ⟨scan, hscan, _⟩ := bind_eq_ok.mp h
    exact ⟨scan, hscan⟩
  · rintro ⟨scan, hscan⟩
    simp only [hscan, ok_bind]
    cases scan.worst with
    | none => exact ⟨_, rfl⟩
    | some w =>
      by_cases hdom : domainState = some .unknown
      · exact ⟨_, if_pos hdom⟩
      · exact ⟨_, if_neg hdom⟩

end Rounded

end Srp.Analytics.Storage
