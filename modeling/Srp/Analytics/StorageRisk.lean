/-
  Srp/Analytics/StorageRisk.lean
  ==============================
  **The storage axis of a device** (`compute_storage_risk`, `worst_disk_key`).

  The axis keeps the result of one disk only: the loop over the disks replaces
  its candidate when the next value is strictly greater, so it ends with the
  first disk of maximal value.  `scanDisks_spec` states this once, and every
  later fact about the axis goes through `IsWorst`.
-/
import Mathlib.Data.List.Induction
import Srp.Analytics.Storage

namespace Srp.Analytics.Storage

open Srp.Lib.PyNum Srp.Scoring Srp.Shared

section Rounded

variable (fl : ℚ → ℚ)

def storageDisks (historical : Option HistoricalPayload) : List StorageReliability :=
  (historical.map (·.storage)).getD []

/-! ### The pre-pass pick -/

/-- `worst_disk_key`: the serial hash with the most damage points of the latest reading
    alone, without series, chain or trends. -/
def worstDiskKey (historical : Option HistoricalPayload) : Except PyError (Option String) := do
  let best ← (storageDisks historical).foldlM
    (fun (best : Option (String × ℚ)) disk =>
      match disk.serialHash with
      | none => pure best
      | some key =>
        if key = "" then pure best
        else do
          let score ← scoreDisk fl {} disk
          match best with
          | none => pure (some (key, score.coords.damage))
          | some (_, damage) =>
            pure (if damage < score.coords.damage then some (key, score.coords.damage)
              else best)) none
  return best.map (·.1)

/-! ### The axis -/

inductive DeviceTrust where
  | ok
  | untrusted
deriving DecidableEq, Repr

inductive DomainTrustState where
  | trusted
  | unknown
  | notApplicable
deriving DecidableEq, Repr

/-- High confidence needs the worst disk's temperature reading to be a stable one. -/
def storageConfidence (coords : Coords) : ScoreConfidence :=
  if .tempUnstable ∈ coords.flags then .medium else .high

structure DiskScan where
  worst : Option (Option String × DiskScore) := none
  smartDisks : Nat := 0

def scanDisk (ctx : Context) (s : DiskScan) (disk : StorageReliability) :
    Except PyError DiskScan :=
  if hasSmart disk then do
    let score ← scoreDisk fl ctx disk
    let replaces := match s.worst with
      | none => true
      | some w => decide (w.2.value < score.value)
    return { worst := if replaces then some (disk.disk, score) else s.worst
             smartDisks := s.smartDisks + 1 }
  else return s

def scanDisks (ctx : Context) (disks : List StorageReliability) : Except PyError DiskScan :=
  disks.foldlM (scanDisk fl ctx) {}

def computeStorageRisk (historical : Option HistoricalPayload) (ctx : Context)
    (deviceTrust : DeviceTrust) (domainState : Option DomainTrustState) :
    Except PyError Score100 :=
  if deviceTrust = .untrusted then
    return { value := none, direction := .higherIsWorse, band := .unknown,
             confidence := .unknown, missingEvidence := ["идентификация не подтверждена"],
             sourceLineage := { identity := some "untrusted" },
             reason := "идентификатор устройства не подтверждён (контракт §7)" }
  else do
    let disks := storageDisks historical
    let scan ← scanDisks fl ctx disks
    match scan.worst with
    | none =>
      return { value := none, direction := .higherIsWorse, band := .unknown,
               confidence := .unknown,
               missingEvidence :=
                 ["нет данных SMART / StorageReliability ни для одного диска"],
               reason :=
                 "нет телеметрии SMART хранилища (UNKNOWN — ложная уверенность недопустима)" }
    | some (name, score) =>
      if domainState = some .unknown then
        return { value := none, direction := .higherIsWorse, band := .unknown,
                 confidence := .unknown,
                 missingEvidence := ["источник storage не прошёл проверку доверия"],
                 sourceLineage := { storageDomain := some "unknown" },
                 reason := "источник хранилища не прошёл гейт доверия — оценка скрыта" }
      else
        return { value := some score.value, direction := .higherIsWorse,
                 band := bandForRiskScore (some score.value),
                 confidence := storageConfidence score.coords,
                 factors := score.factors,
                 sourceLineage := { worstDisk := name, disksWithSmart := some scan.smartDisks,
                                    disksTotal := some disks.length,
                                    coords := some score.coords },
                 reason := if 0 < score.value then ""
                   else "SMART в норме на всех отчитывающихся дисках" }

/-! ### Which disk the axis reports -/

/-- Disk `i` is the first SMART-bearing disk of maximal value, and `s` is its score. -/
structure IsWorst (ctx : Context) (disks : List StorageReliability) (i : Nat)
    (d : StorageReliability) (s : DiskScore) : Prop where
  disk : disks[i]? = some d
  smart : hasSmart d = true
  score : scoreDisk fl ctx d = .ok s
  before : ∀ j e t, j < i → disks[j]? = some e → hasSmart e = true →
    scoreDisk fl ctx e = .ok t → t.value < s.value
  after : ∀ j e t, i ≤ j → disks[j]? = some e → hasSmart e = true →
    scoreDisk fl ctx e = .ok t → t.value ≤ s.value

variable {fl}

theorem IsWorst.unique {ctx : Context} {disks : List StorageReliability} {i j : Nat}
    {d e : StorageReliability} {s t : DiskScore} (hd : IsWorst fl ctx disks i d s)
    (he : IsWorst fl ctx disks j e t) : d = e ∧ s = t := by
  have hij : i = j := by
    rcases Nat.lt_trichotomy i j with hlt | heq | hlt
    · have h1 := he.before i d s hlt hd.disk hd.smart hd.score
      have h2 := hd.after j e t hlt.le he.disk he.smart he.score
      exact absurd h1 (not_lt.mpr h2)
    · exact heq
    · have h1 := hd.before j e t hlt he.disk he.smart he.score
      have h2 := he.after i d s hlt.le hd.disk hd.smart hd.score
      exact absurd h1 (not_lt.mpr h2)
  subst hij
  obtain rfl : d = e := Option.some.inj (hd.disk.symm.trans he.disk)
  exact ⟨rfl, Except.ok.inj (hd.score.symm.trans he.score)⟩

variable (fl) in
/-- What the loop variables say about the disks seen so far. -/
def ScanInv (ctx : Context) (disks : List StorageReliability) (scan : DiskScan) : Prop :=
  match scan.worst with
  | none => ∀ e ∈ disks, hasSmart e = false
  | some (name, s) => ∃ i d, IsWorst fl ctx disks i d s ∧ d.disk = name

theorem IsWorst.skip {ctx : Context} {disks : List StorageReliability} {i : Nat}
    {d e : StorageReliability} {s : DiskScore} (h : IsWorst fl ctx disks i d s)
    (he : hasSmart e = true → ∀ t, scoreDisk fl ctx e = .ok t → t.value ≤ s.value) :
    IsWorst fl ctx (disks ++ [e]) i d s := by
  have hi : i < disks.length := (List.getElem?_eq_some_iff.mp h.disk).1
  refine ⟨by rw [List.getElem?_append_left hi]; exact h.disk, h.smart, h.score, ?_, ?_⟩
  · intro j e' t hj he'
    rw [List.getElem?_append_left (by omega)] at he'
    exact h.before j e' t hj he'
  · intro j e' t hj he' hsm hsc
    by_cases hlt : j < disks.length
    · rw [List.getElem?_append_left hlt] at he'
      exact h.after j e' t hj he' hsm hsc
    · obtain rfl : e = e' := by
        rw [List.getElem?_append_right (by omega)] at he'
        exact (List.mem_singleton.mp (List.mem_of_getElem? he')).symm
      exact he hsm t hsc

theorem IsWorst.last {ctx : Context} {disks : List StorageReliability}
    {e : StorageReliability} {t : DiskScore} (hsm : hasSmart e = true)
    (hsc : scoreDisk fl ctx e = .ok t)
    (hbeats : ∀ (j : Nat) e' t', disks[j]? = some e' → hasSmart e' = true →
      scoreDisk fl ctx e' = .ok t' → t'.value < t.value) :
    IsWorst fl ctx (disks ++ [e]) disks.length e t := by
  refine ⟨by simp, hsm, hsc, ?_, ?_⟩
  · intro j e' t' hj he'
    rw [List.getElem?_append_left hj] at he'
    exact hbeats j e' t' he'
  · intro j e' t' hj he' _ hsc'
    obtain rfl : e = e' := by
      rw [List.getElem?_append_right hj] at he'
      exact (List.mem_singleton.mp (List.mem_of_getElem? he')).symm
    rw [Except.ok.inj (hsc.symm.trans hsc')]

theorem scanDisk_spec {ctx : Context} {disks : List StorageReliability} {scan scan' : DiskScan}
    {e : StorageReliability} (hinv : ScanInv fl ctx disks scan)
    (hstep : scanDisk fl ctx scan e = .ok scan') : ScanInv fl ctx (disks ++ [e]) scan' := by
  unfold scanDisk at hstep
  by_cases hsm : hasSmart e = true
  · rw [if_pos hsm] at hstep
    cases hsc : scoreDisk fl ctx e with
    | error err =>
      rw [hsc] at hstep
      cases hstep
    | ok t =>
      rw [hsc] at hstep
      obtain rfl := Except.ok.inj hstep
      unfold ScanInv at hinv ⊢
      rcases hw : scan.worst with _ | ⟨name, s⟩
      · rw [hw] at hinv
        refine ⟨_, e, IsWorst.last hsm hsc ?_, rfl⟩
        intro j e' t' he' hsm'
        rw [hinv e' (List.mem_of_getElem? he')] at hsm'
        cases hsm'
      · rw [hw] at hinv
        obtain ⟨i, d, hworst, hname⟩ := hinv
        by_cases hlt : s.value < t.value
        · simp only [hlt, decide_true, if_true]
          refine ⟨_, e, IsWorst.last hsm hsc ?_, rfl⟩
          intro j e' t' he' hsm' hsc'
          -- everything before is at most the old candidate, which `e` beats
          have hle : t'.value ≤ s.value := by
            rcases Nat.lt_or_ge j i with hji | hij
            · exact (hworst.before j e' t' hji he' hsm' hsc').le
            · exact hworst.after j e' t' hij he' hsm' hsc'
          exact lt_of_le_of_lt hle hlt
        · simp only [hlt, decide_false, Bool.false_eq_true, if_false]
          refine ⟨i, d, hworst.skip ?_, hname⟩
          intro _ t' ht'
          rw [← Except.ok.inj (hsc.symm.trans ht')]
          exact not_lt.mp hlt
  · rw [if_neg hsm] at hstep
    obtain rfl := Except.ok.inj hstep
    unfold ScanInv at hinv ⊢
    rcases hw : scan.worst with _ | ⟨name, s⟩
    · rw [hw] at hinv
      intro e' he'
      rcases List.mem_append.mp he' with h | h
      · exact hinv e' h
      · rw [List.mem_singleton.mp h]
        exact Bool.eq_false_iff.mpr hsm
    · rw [hw] at hinv
      obtain ⟨i, d, hworst, hname⟩ := hinv
      exact ⟨i, d, hworst.skip fun h => absurd h hsm, hname⟩

/-- The loop ends with the first disk of maximal value, if any disk has SMART data. -/
theorem scanDisks_spec {ctx : Context} {disks : List StorageReliability} {scan : DiskScan}
    (h : scanDisks fl ctx disks = .ok scan) : ScanInv fl ctx disks scan := by
  unfold scanDisks at h
  induction disks using List.reverseRecOn generalizing scan with
  | nil =>
    obtain rfl := Except.ok.inj h
    intro e he
    cases he
  | append_singleton disks e ih =>
    rw [List.foldlM_append] at h
    cases hpre : disks.foldlM (scanDisk fl ctx) {} with
    | error err =>
      rw [hpre] at h
      cases h
    | ok mid =>
      rw [hpre] at h
      simp only [List.foldlM_cons, List.foldlM_nil, bind_pure] at h
      exact scanDisk_spec (ih hpre) h

/-- The two gates that withhold the storage axis. -/
def ShowsStorage (deviceTrust : DeviceTrust) (domainState : Option DomainTrustState) : Prop :=
  deviceTrust ≠ .untrusted ∧ domainState ≠ some .unknown

/-- What the axis can be: withheld, or the result of the worst disk. -/
theorem computeStorageRisk_cases {historical : Option HistoricalPayload} {ctx : Context}
    {deviceTrust : DeviceTrust} {domainState : Option DomainTrustState} {score : Score100}
    (h : computeStorageRisk fl historical ctx deviceTrust domainState = .ok score) :
    ((¬ ShowsStorage deviceTrust domainState ∨
        ∀ e ∈ storageDisks historical, hasSmart e = false) ∧
      score.value = none ∧ score.sourceLineage.worstDisk = none) ∨
    (ShowsStorage deviceTrust domainState ∧
      ∃ i d s, IsWorst fl ctx (storageDisks historical) i d s ∧ score.value = some s.value ∧
        score.sourceLineage.worstDisk = d.disk ∧ score.sourceLineage.coords = some s.coords) := by
  unfold computeStorageRisk at h
  by_cases htrust : deviceTrust = .untrusted
  · rw [if_pos htrust] at h
    obtain rfl := Except.ok.inj h
    exact Or.inl ⟨Or.inl fun hs => hs.1 htrust, rfl, rfl⟩
  · rw [if_neg htrust] at h
    obtain ⟨scan, hscan, h⟩ := bind_eq_ok.mp h
    have hinv := scanDisks_spec hscan
    unfold ScanInv at hinv
    rcases hw : scan.worst with _ | ⟨name, s⟩
    · rw [hw] at hinv h
      obtain rfl := Except.ok.inj h
      exact Or.inl ⟨Or.inr hinv, rfl, rfl⟩
    · rw [hw] at hinv h
      by_cases hdom : domainState = some .unknown
      · simp only [hdom, if_true] at h
        obtain rfl := Except.ok.inj h
        exact Or.inl ⟨Or.inl fun hs => hs.2 hdom, rfl, rfl⟩
      · simp only [hdom, if_false] at h
        obtain rfl := Except.ok.inj h
        obtain ⟨i, d, hworst, hname⟩ := hinv
        exact Or.inr ⟨⟨htrust, hdom⟩, i, d, s, hworst, rfl, hname.symm, rfl⟩

theorem computeStorageRisk_of_isWorst {historical : Option HistoricalPayload} {ctx : Context}
    {deviceTrust : DeviceTrust} {domainState : Option DomainTrustState} {score : Score100}
    (h : computeStorageRisk fl historical ctx deviceTrust domainState = .ok score)
    (hshow : ShowsStorage deviceTrust domainState) {i : Nat} {d : StorageReliability}
    {s : DiskScore} (hw : IsWorst fl ctx (storageDisks historical) i d s) :
    score.value = some s.value ∧ score.sourceLineage.worstDisk = d.disk ∧
      score.sourceLineage.coords = some s.coords := by
  rcases computeStorageRisk_cases h with ⟨hhid | hnone, _⟩ | ⟨_, j, e, t, ht, hval, hname, hcoords⟩
  · exact absurd hshow hhid
  · have hsmart := hnone d (List.mem_of_getElem? hw.disk)
    rw [hw.smart] at hsmart
    cases hsmart
  · obtain ⟨rfl, rfl⟩ := ht.unique hw
    exact ⟨hval, hname, hcoords⟩

end Rounded

end Srp.Analytics.Storage
