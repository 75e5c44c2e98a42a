/-
  Srp/Analytics/SlimVerdicts.lean
  ===============================
  **Slim verdicts and their readers** (`_slim_risk` of `server/db.py`, `scan_device` of
  `server/analytics/rulestats.py`, `_health_delta_7d` of `server/pipeline.py`).

  A verdict of the history is a decoded dictionary.  A reader goes down its levels with
  `(d.get(key) or {})`: a level that is missing or empty reads as an empty dictionary, and
  one that is neither a dictionary nor empty makes the next `.get` raise.  `_slim_risk`
  keeps what the readers read, and replaces every level that is no dictionary by an empty
  one, so it only ever takes an exception away (`slimming_invisible`).
-/
import Srp.Analytics.RuleStats
import Srp.Trust.Validators

namespace Srp.Analytics

open Srp.Lib Srp.Lib.IsoTime Srp.Lib.Lines Srp.Lib.PyJson
open Srp.Trust (PyValues Fields getField truthy)

/-! ### Rows and the slim verdict -/

/-- What `_parse_ts` reads in a stamp: the instant in microseconds, and its own text. -/
structure ParsedTs where
  us : Int
  isoformat : String
deriving DecidableEq, Repr

structure VerdictRow where
  ts : Option ParsedTs
  risk : Fields

/-- `d.get(key, default)`. -/
def getDefault (d : Fields) (key : String) (default : Json) : Json :=
  (d.lookup key.toList).getD default

/-- `_d`. -/
def dictOr : Json → Fields
  | .obj fields => fields
  | _ => []

def slimRisk (risk : Fields) : Fields :=
  let score100 := dictOr (getField risk "score100")
  let storage := dictOr (getField score100 "storage_risk")
  [("slim".toList, .int 1),
   ("health".toList, getField risk "health"),
   ("score100".toList, .obj
     [("storage_risk".toList, .obj
       [("band".toList, getField storage "band"),
        ("coords".toList, .obj
          [("flags".toList, getField (dictOr (getField storage "coords")) "flags")])])]),
   ("errchain".toList, .obj
     [("stage".toList, getDefault (dictOr (getField risk "errchain")) "stage" (.int 0))])]

def VerdictRow.slim (row : VerdictRow) : VerdictRow := { row with risk := slimRisk row.risk }

/-- The row itself, or its slim form. -/
def MaySlim (row row' : VerdictRow) : Prop := row' = row ∨ row' = row.slim

/-! ### The readers -/

section Readers

variable (P : PyValues)

/-- `d.get(key) or {}`, for a value that is then asked for a key; `none` where that raises. -/
def level (d : Fields) (key : String) : Option Fields :=
  match getField d key with
  | .obj fields => some fields
  | value => if truthy P value then none else some []

/-- `value == text`. -/
def isText (text : String) : Json → Bool
  | .str t => t = text.toList
  | _ => false

/-- `isinstance(stage, (int, float)) and stage >= 2`; a `bool` is an `int` below 2. -/
def stageOk : Json → Bool
  | .int n => 2 ≤ n
  | .float x => PyFloat.lt (.finite 2) (P.ofToken x) || PyFloat.eq (P.ofToken x) (.finite 2)
  | _ => false

/-- `_row_flags`. -/
def rowFlags (row : VerdictRow) : Option (List Json) := do
  let score100 ← level P row.risk "score100"
  let storage ← level P score100 "storage_risk"
  let coords ← level P storage "coords"
  match getField coords "flags" with
  | .arr flags => return flags
  | _ => return []

/-- `flag in _row_flags(row)`. -/
def hasFlag (flag : String) (row : VerdictRow) : Option Bool :=
  (rowFlags P row).map fun flags => flags.any (isText flag)

/-- `_confirms`. -/
def rowConfirms (row : VerdictRow) : Option Bool := do
  let errchain ← level P row.risk "errchain"
  let score100 ← level P row.risk "score100"
  if stageOk P (getDefault errchain "stage" (.int 0)) then return true
  else
    let storage ← level P score100 "storage_risk"
    return isText "bad" (getField storage "band")

/-- `_has_row_in_window`. -/
def rowInWindow (endTs : Int) (window : Nat) (predicate : VerdictRow → Option Bool) :
    List VerdictRow → Option Bool
  | [] => some false
  | row :: rows =>
    match row.ts with
    | none => rowInWindow endTs window predicate rows
    | some ts =>
      if endTs < ts.us ∧ ts.us ≤ endTs + window then
        (predicate row).bind fun found =>
          if found then some true else rowInWindow endTs window predicate rows
      else rowInWindow endTs window predicate rows

/-- `_confirms(r) or flag in _row_flags(r)`. -/
def blocks (flag : String) (row : VerdictRow) : Option Bool :=
  (rowConfirms P row).bind fun confirmed => if confirmed then some true else hasFlag P flag row

/-- `_resolve_episode`. -/
def resolveRun (rows : List VerdictRow) (endTs : Int) (flag : String) (now : Int) :
    Option (Option RuleOutcome) :=
  (rowInWindow endTs confirmWindow (rowConfirms P) rows).bind fun confirmed =>
    if confirmed then some (some .confirmed)
    else if refuteWindow ≤ now - endTs then
      (rowInWindow endTs refuteWindow (blocks P flag) rows).map fun blocked =>
        if blocked then none else some .refuted
    else some none

/-- The flags as the verdicts name them. -/
def flagText : RuleKey → String
  | .pendingHigh => "pending_gt10"
  | .mediaRecurrence => "recurrence"
  | .earlyChain => "early_events"

/-- The loop of `_scan_rule` over the remaining rows; `runEnd` is the last row of the run in
    progress. -/
def scanVerdicts (rows : List VerdictRow) (ruleKey : RuleKey) (now : Int) :
    Option ParsedTs → List VerdictRow → Option (List (RuleKey × RuleOutcome × String))
  | _, [] => some []
  | runEnd, row :: rest =>
    let present := match row.ts with
      | none => some false
      | some _ => hasFlag P (flagText ruleKey) row
    present.bind fun present =>
      if present then scanVerdicts rows ruleKey now row.ts rest
      else
        match runEnd with
        | none => scanVerdicts rows ruleKey now none rest
        | some endTs =>
          (resolveRun P rows endTs.us (flagText ruleKey) now).bind fun outcome =>
            (scanVerdicts rows ruleKey now none rest).map fun outcomes =>
              match outcome with
              | none => outcomes
              | some outcome => (ruleKey, outcome, endTs.isoformat) :: outcomes

/-- `scan_device` over verdicts, old to new; `none` where it raises. -/
def scanDeviceVerdicts (rows : List VerdictRow) (now : Int) :
    Option (List (RuleKey × RuleOutcome × String)) := do
  let outcomes ← RuleKey.all.mapM fun ruleKey => scanVerdicts P rows ruleKey now none rows
  return outcomes.flatten

def trendHistoryLimit : Nat := 200

/-- The loop of `_health_delta_7d`: the index of the first row before the cutoff. -/
def olderIndex (cutoff : Int) : List VerdictRow → Option Json
  | [] => some .null
  | row :: rows =>
    match row.ts with
    | none => olderIndex cutoff rows
    | some ts =>
      if cutoff ≤ ts.us then olderIndex cutoff rows
      else (level P row.risk "health").map fun health => getField health "index"

/-- `_health_delta_7d` over the series of a device, newest first, where `roundDelta older` is
    `round(index - older, 1)` (`none` where that raises). -/
def healthDelta7d (roundDelta : PyFloat → Json → Option PyFloat) (cutoff : Int)
    (index : Option PyFloat) (series : List VerdictRow) : Option (Option PyFloat) :=
  match index with
  | none => some none
  | some index =>
    (olderIndex P cutoff (series.take trendHistoryLimit)).bind fun older =>
      match older with
      | .null => some none
      | older => (roundDelta index older).map some

end Readers

section Slim

variable {P : PyValues}

/-! ### Reading a slim row -/

/-- A reader of rows that slimming takes no result from. -/
def Keeps {α : Type} (reader : VerdictRow → Option α) : Prop :=
  ∀ row a, reader row = some a → reader row.slim = some a

theorem dictOr_of_level {d fields : Fields} {key : String} (h : level P d key = some fields) :
    dictOr (getField d key) = fields := by
  unfold level at h
  split at h
  · rename_i value hvalue
    rw [hvalue]
    exact Option.some.inj h
  · rename_i value hvalue
    split at h
    · cases h
    · rw [← Option.some.inj h]
      unfold dictOr
      split
      · rename_i fields' hobj
        exact absurd hobj (hvalue fields')
      · rfl

theorem keeps_rowFlags : Keeps (rowFlags P) := by
  intro row flags h
  unfold rowFlags at h
  simp only [Option.bind_eq_bind, Option.bind_eq_some_iff] at h
  obtain ⟨score100, hscore, storage, hstorage, coords, hcoords, h⟩ := h
  have hslim : rowFlags P row.slim =
      match getField (dictOr (getField (dictOr (getField (dictOr (getField row.risk "score100"))
        "storage_risk")) "coords")) "flags" with
      | .arr flags => some flags
      | _ => some [] := rfl
  rw [hslim, dictOr_of_level hscore, dictOr_of_level hstorage, dictOr_of_level hcoords]
  exact h

theorem keeps_hasFlag (flag : String) : Keeps (hasFlag P flag) := by
  intro row b h
  obtain ⟨flags, hflags, rfl⟩ := Option.map_eq_some_iff.mp h
  rw [hasFlag, keeps_rowFlags row flags hflags, Option.map_some]

theorem keeps_rowConfirms : Keeps (rowConfirms P) := by
  intro row b h
  unfold rowConfirms at h
  simp only [Option.bind_eq_bind, Option.bind_eq_some_iff, Option.pure_def] at h
  obtain ⟨errchain, herr, score100, hscore, h⟩ := h
  have hslim : rowConfirms P row.slim =
      if stageOk P (getDefault (dictOr (getField row.risk "errchain")) "stage" (.int 0)) then
        some true
      else some (isText "bad" (getField (dictOr (getField (dictOr (getField row.risk "score100"))
        "storage_risk")) "band")) := rfl
  rw [hslim, dictOr_of_level herr, dictOr_of_level hscore]
  split at h
  · rename_i hstage
    rw [if_pos hstage]
    exact h
  · rename_i hstage
    obtain ⟨storage, hstorage, h⟩ := Option.bind_eq_some_iff.mp h
    rw [if_neg hstage, dictOr_of_level hstorage]
    exact h

theorem keeps_blocks (flag : String) : Keeps (blocks P flag) := by
  intro row b h
  obtain ⟨confirmed, hconfirmed, h⟩ := Option.bind_eq_some_iff.mp h
  rw [blocks, keeps_rowConfirms row confirmed hconfirmed, Option.bind_some]
  cases confirmed with
  | true => exact h
  | false => exact keeps_hasFlag flag row b h

/-- Slimming a slim verdict changes nothing. -/
theorem slimRisk_slimRisk (risk : Fields) : slimRisk (slimRisk risk) = slimRisk risk := rfl

/-! ### Scanning slim rows -/

theorem Keeps.of_maySlim {α : Type} {reader : VerdictRow → Option α} (hreader : Keeps reader)
    {row row' : VerdictRow} (h : MaySlim row row') {a : α} (ha : reader row = some a) :
    reader row' = some a := by
  rcases h with rfl | rfl
  · exact ha
  · exact hreader row a ha

theorem ts_of_maySlim {row row' : VerdictRow} (h : MaySlim row row') : row'.ts = row.ts := by
  rcases h with rfl | rfl
  · rfl
  · rfl

variable {rows rows' : List VerdictRow}

theorem rowInWindow_slim {endTs : Int} {window : Nat} {predicate : VerdictRow → Option Bool}
    (hpredicate : Keeps predicate) (hslim : List.Forall₂ MaySlim rows rows') {b : Bool}
    (h : rowInWindow endTs window predicate rows = some b) :
    rowInWindow endTs window predicate rows' = some b := by
  induction hslim with
  | nil => exact h
  | @cons row row' rows rows' hrow _ ih =>
    rw [rowInWindow] at h ⊢
    rw [ts_of_maySlim hrow]
    cases hts : row.ts with
    | none =>
      rw [hts] at h
      exact ih h
    | some ts =>
      rw [hts] at h
      dsimp only at h ⊢
      by_cases hin : endTs < ts.us ∧ ts.us ≤ endTs + window
      · rw [if_pos hin] at h ⊢
        obtain ⟨found, hfound, h⟩ := Option.bind_eq_some_iff.mp h
        rw [hpredicate.of_maySlim hrow hfound, Option.bind_some]
        cases found with
        | true => exact h
        | false => exact ih h
      · rw [if_neg hin] at h ⊢
        exact ih h

theorem resolveRun_slim {endTs now : Int} {flag : String}
    (hslim : List.Forall₂ MaySlim rows rows') {outcome : Option RuleOutcome}
    (h : resolveRun P rows endTs flag now = some outcome) :
    resolveRun P rows' endTs flag now = some outcome := by
  obtain ⟨confirmed, hconfirmed, h⟩ := Option.bind_eq_some_iff.mp h
  rw [resolveRun, rowInWindow_slim keeps_rowConfirms hslim hconfirmed,
    Option.bind_some]
  cases confirmed with
  | true => exact h
  | false =>
    by_cases hlate : (refuteWindow : Int) ≤ now - endTs
    · rw [if_neg Bool.false_ne_true, if_pos hlate] at h ⊢
      obtain ⟨blocked, hblocked, rfl⟩ := Option.map_eq_some_iff.mp h
      rw [rowInWindow_slim (keeps_blocks flag) hslim hblocked, Option.map_some]
    · rw [if_neg Bool.false_ne_true, if_neg hlate] at h ⊢
      exact h

theorem scanVerdicts_slim {ruleKey : RuleKey} {now : Int} {runEnd : Option ParsedTs}
    {rest rest' : List VerdictRow} (hslim : List.Forall₂ MaySlim rows rows')
    (hrest : List.Forall₂ MaySlim rest rest') {outcomes : List (RuleKey × RuleOutcome × String)}
    (h : scanVerdicts P rows ruleKey now runEnd rest = some outcomes) :
    scanVerdicts P rows' ruleKey now runEnd rest' = some outcomes := by
  induction hrest generalizing runEnd outcomes with
  | nil => exact h
  | @cons row row' rest rest' hrow _ ih =>
    simp only [scanVerdicts] at h ⊢
    obtain ⟨present, hpresent, h⟩ := Option.bind_eq_some_iff.mp h
    have hpresent' : (match row'.ts with
        | none => some false
        | some _ => hasFlag P (flagText ruleKey) row') = some present := by
      rw [ts_of_maySlim hrow]
      cases hts : row.ts with
      | none =>
        rw [hts] at hpresent
        exact hpresent
      | some ts =>
        rw [hts] at hpresent
        exact (keeps_hasFlag _).of_maySlim hrow hpresent
    rw [hpresent', Option.bind_some, ts_of_maySlim hrow]
    cases present with
    | true =>
      rw [if_pos rfl] at h ⊢
      exact ih h
    | false =>
      rw [if_neg Bool.false_ne_true] at h ⊢
      cases runEnd with
      | none => exact ih h
      | some endTs =>
        dsimp only at h ⊢
        obtain ⟨outcome, houtcome, h⟩ := Option.bind_eq_some_iff.mp h
        obtain ⟨later, hlater, rfl⟩ := Option.map_eq_some_iff.mp h
        rw [resolveRun_slim hslim houtcome, Option.bind_some, ih hlater, Option.map_some]

theorem scanDeviceVerdicts_slim {now : Int} (hslim : List.Forall₂ MaySlim rows rows')
    {outcomes : List (RuleKey × RuleOutcome × String)}
    (h : scanDeviceVerdicts P rows now = some outcomes) :
    scanDeviceVerdicts P rows' now = some outcomes := by
  simp only [scanDeviceVerdicts, RuleKey.all, List.mapM_cons, List.mapM_nil, Option.bind_eq_bind,
    Option.bind_eq_some_iff, Option.pure_def, Option.some.injEq] at h ⊢
  obtain ⟨all, ⟨pending, hpending, tail, ⟨media, hmedia, tail', ⟨early, hearly, _, rfl, rfl⟩,
    rfl⟩, rfl⟩, rfl⟩ := h
  exact ⟨_, ⟨pending, scanVerdicts_slim hslim hslim hpending, _,
    ⟨media, scanVerdicts_slim hslim hslim hmedia, _,
      ⟨early, scanVerdicts_slim hslim hslim hearly, [], rfl, rfl⟩, rfl⟩, rfl⟩, rfl⟩

theorem olderIndex_slim {cutoff : Int} (hslim : List.Forall₂ MaySlim rows rows') :
    olderIndex P cutoff rows' = olderIndex P cutoff rows := by
  induction hslim with
  | nil => rfl
  | @cons row row' rows rows' hrow _ ih =>
    rw [olderIndex, olderIndex, ts_of_maySlim hrow, ih]
    have hhealth : level P row'.risk "health" = level P row.risk "health" := by
      rcases hrow with rfl | rfl
      · rfl
      · rfl
    rw [hhealth]

/-! ### Verdicts that no reader raises on -/

/-- Every level that a reader goes down is a dictionary, or missing or empty. -/
def Shaped (P : PyValues) (risk : Fields) : Prop :=
  (level P risk "errchain").isSome ∧
    ∃ score100 ∈ level P risk "score100", ∃ storage ∈ level P score100 "storage_risk",
      (level P storage "coords").isSome

/-- A reader returns on every row whose verdict is shaped. -/
def Total {α : Type} (P : PyValues) (reader : VerdictRow → Option α) : Prop :=
  ∀ row, Shaped P row.risk → ∃ a, reader row = some a

theorem total_hasFlag (flag : String) : Total P (hasFlag P flag) := by
  rintro row ⟨_, score100, hscore, storage, hstorage, hcoords⟩
  obtain ⟨coords, hcoords⟩ := Option.isSome_iff_exists.mp hcoords
  have hflags : ∃ flags, rowFlags P row = some flags := by
    simp only [rowFlags, Option.mem_def.mp hscore, Option.mem_def.mp hstorage, hcoords,
      Option.bind_eq_bind, Option.bind_some]
    split
    · exact ⟨_, rfl⟩
    · exact ⟨_, rfl⟩
  obtain ⟨flags, hflags⟩ := hflags
  exact ⟨_, by rw [hasFlag, hflags, Option.map_some]⟩

theorem total_rowConfirms : Total P (rowConfirms P) := by
  rintro row ⟨herr, score100, hscore, storage, hstorage, _⟩
  obtain ⟨errchain, herr⟩ := Option.isSome_iff_exists.mp herr
  simp only [rowConfirms, herr, Option.mem_def.mp hscore, Option.mem_def.mp hstorage,
    Option.bind_eq_bind, Option.bind_some]
  split
  · exact ⟨_, rfl⟩
  · exact ⟨_, rfl⟩

theorem total_blocks (flag : String) : Total P (blocks P flag) := by
  intro row hrow
  obtain ⟨confirmed, hconfirmed⟩ := total_rowConfirms row hrow
  rw [blocks, hconfirmed, Option.bind_some]
  cases confirmed with
  | true => exact ⟨true, rfl⟩
  | false => exact total_hasFlag flag row hrow

theorem rowInWindow_total (endTs : Int) (window : Nat) {predicate : VerdictRow → Option Bool}
    (hpredicate : Total P predicate) (hrows : ∀ row ∈ rows, Shaped P row.risk) :
    ∃ b, rowInWindow endTs window predicate rows = some b := by
  induction rows with
  | nil => exact ⟨false, rfl⟩
  | cons row rows ih =>
    obtain ⟨hrow, hrows⟩ := List.forall_mem_cons.mp hrows
    rw [rowInWindow]
    split
    · exact ih hrows
    · split
      · obtain ⟨found, hfound⟩ := hpredicate row hrow
        rw [hfound, Option.bind_some]
        cases found with
        | true => exact ⟨true, rfl⟩
        | false => exact ih hrows
      · exact ih hrows

theorem resolveRun_total (endTs now : Int) (flag : String)
    (hrows : ∀ row ∈ rows, Shaped P row.risk) :
    ∃ outcome, resolveRun P rows endTs flag now = some outcome := by
  obtain ⟨confirmed, hconfirmed⟩ :=
    rowInWindow_total endTs confirmWindow total_rowConfirms hrows
  obtain ⟨blocked, hblocked⟩ :=
    rowInWindow_total endTs refuteWindow (total_blocks flag) hrows
  rw [resolveRun, hconfirmed, Option.bind_some, hblocked, Option.map_some]
  split
  · exact ⟨_, rfl⟩
  · split
    · exact ⟨_, rfl⟩
    · exact ⟨_, rfl⟩

theorem scanVerdicts_total (ruleKey : RuleKey) (now : Int) (runEnd : Option ParsedTs)
    {rest : List VerdictRow} (hrows : ∀ row ∈ rows, Shaped P row.risk)
    (hrest : ∀ row ∈ rest, Shaped P row.risk) :
    ∃ outcomes, scanVerdicts P rows ruleKey now runEnd rest = some outcomes := by
  induction rest generalizing runEnd with
  | nil => exact ⟨[], rfl⟩
  | cons row rest ih =>
    obtain ⟨hrow, hrest⟩ := List.forall_mem_cons.mp hrest
    simp only [scanVerdicts]
    obtain ⟨b, hb⟩ := total_hasFlag (flagText ruleKey) row hrow
    have hpresent : ∃ present, (match row.ts with
        | none => some false
        | some _ => hasFlag P (flagText ruleKey) row) = some present := by
      cases row.ts with
      | none => exact ⟨false, rfl⟩
      | some _ => exact ⟨b, hb⟩
    obtain ⟨present, hpresent⟩ := hpresent
    rw [hpresent, Option.bind_some]
    cases present with
    | true => exact ih row.ts hrest
    | false =>
      rw [if_neg Bool.false_ne_true]
      obtain ⟨later, hlater⟩ := ih none hrest
      cases runEnd with
      | none => exact ⟨later, hlater⟩
      | some endTs =>
        obtain ⟨outcome, houtcome⟩ := resolveRun_total endTs.us now (flagText ruleKey) hrows
        dsimp only
        rw [houtcome, Option.bind_some, hlater, Option.map_some]
        exact ⟨_, rfl⟩

theorem scanDeviceVerdicts_total (now : Int) (hrows : ∀ row ∈ rows, Shaped P row.risk) :
    ∃ outcomes, scanDeviceVerdicts P rows now = some outcomes := by
  obtain ⟨pending, hpending⟩ := scanVerdicts_total .pendingHigh now none hrows hrows
  obtain ⟨media, hmedia⟩ := scanVerdicts_total .mediaRecurrence now none hrows hrows
  obtain ⟨early, hearly⟩ := scanVerdicts_total .earlyChain now none hrows hrows
  simp only [scanDeviceVerdicts, RuleKey.all, List.mapM_cons, List.mapM_nil, hpending, hmedia,
    hearly, Option.bind_eq_bind, Option.bind_some, Option.pure_def]
  exact ⟨_, rfl⟩

end Slim

/-! ### The scan of what the verdicts say -/

section Reads

variable {P : PyValues} {rows : List VerdictRow} {scoreRows : List ScoreRow}

/-- The readers find in the verdict what the score row holds. -/
structure Reads (P : PyValues) (row : VerdictRow) (r : ScoreRow) : Prop where
  ts : row.ts = some ⟨r.ts.us, isoformat r.ts⟩
  flags : ∀ ruleKey,
    hasFlag P (flagText ruleKey) row = some (decide (flagForRule ruleKey ∈ r.flags))
  confirms : rowConfirms P row = some (confirms r)

theorem Reads.blocks {row : VerdictRow} {r : ScoreRow} (h : Reads P row r) (ruleKey : RuleKey) :
    blocks P (flagText ruleKey) row =
      some (Analytics.confirms r || decide (flagForRule ruleKey ∈ r.flags)) := by
  rw [Analytics.blocks, h.confirms, Option.bind_some]
  cases Analytics.confirms r with
  | true => rfl
  | false => exact h.flags ruleKey

theorem rowInWindow_of_reads {endTs : Instant} {window : Nat}
    {predicate : VerdictRow → Option Bool} {predicate' : ScoreRow → Bool}
    (hpredicate : ∀ row r, Reads P row r → predicate row = some (predicate' r))
    (h : List.Forall₂ (Reads P) rows scoreRows) :
    rowInWindow endTs.us window predicate rows =
      some (hasRowInWindow scoreRows endTs window predicate') := by
  induction h with
  | nil => rfl
  | @cons row r rows scoreRows hrow _ ih =>
    have hany : hasRowInWindow (r :: scoreRows) endTs window predicate' =
        (decide (endTs < r.ts) && decide (r.ts.us ≤ endTs.us + window) && predicate' r ||
          hasRowInWindow scoreRows endTs window predicate') := rfl
    have hbounds : (endTs.us : Int) < r.ts.us ∧ (r.ts.us : Int) ≤ endTs.us + window ↔
        endTs < r.ts ∧ r.ts.us ≤ endTs.us + window := by
      rw [Instant.lt_iff]
      omega
    rw [rowInWindow, hrow.ts, hany]
    dsimp only
    by_cases hin : endTs < r.ts ∧ r.ts.us ≤ endTs.us + window
    · rw [if_pos (hbounds.mpr hin), hpredicate row r hrow, Option.bind_some,
        decide_eq_true hin.1, decide_eq_true hin.2]
      cases predicate' r with
      | true => rfl
      | false => exact ih
    · rw [if_neg fun h => hin (hbounds.mp h), ← Bool.decide_and, decide_eq_false hin]
      exact ih

theorem resolveRun_of_reads {endTs now : Instant} (ruleKey : RuleKey)
    (h : List.Forall₂ (Reads P) rows scoreRows) :
    resolveRun P rows endTs.us (flagText ruleKey) now.us =
      some (resolveEpisode scoreRows endTs (flagForRule ruleKey) now) := by
  rw [resolveRun, rowInWindow_of_reads (fun _ _ hrow => hrow.confirms) h, Option.bind_some,
    rowInWindow_of_reads (fun _ _ hrow => hrow.blocks ruleKey) h, resolveEpisode]
  have hlate : (refuteWindow : Int) ≤ now.us - endTs.us ↔ endTs.us + refuteWindow ≤ now.us := by
    omega
  split
  · rfl
  · by_cases hend : endTs.us + refuteWindow ≤ now.us
    · rw [if_pos (hlate.mpr hend), Option.map_some]
      cases hasRowInWindow scoreRows endTs refuteWindow
        (fun r => confirms r || decide (flagForRule ruleKey ∈ r.flags)) with
      | true => simp
      | false => simp [hend]
    · rw [if_neg fun h => hend (hlate.mp h), if_neg fun h => hend h.1]

theorem scanVerdicts_of_reads {now : Instant} (ruleKey : RuleKey) (runEnd : Option Instant)
    {rest : List VerdictRow} {scoreRest : List ScoreRow}
    (h : List.Forall₂ (Reads P) rows scoreRows) (hrest : List.Forall₂ (Reads P) rest scoreRest) :
    scanVerdicts P rows ruleKey now.us (runEnd.map fun ts => ⟨ts.us, isoformat ts⟩) rest =
      some (scanLoop scoreRows ruleKey (flagForRule ruleKey) now runEnd scoreRest) := by
  induction hrest generalizing runEnd with
  | nil => rfl
  | @cons row r rest scoreRest hrow _ ih =>
    simp only [scanVerdicts, scanLoop, hrow.ts, hrow.flags, Option.bind_some, decide_eq_true_eq]
    by_cases hflag : flagForRule ruleKey ∈ r.flags
    · rw [if_pos hflag, if_pos hflag]
      exact ih (some r.ts)
    · rw [if_neg hflag, if_neg hflag]
      cases runEnd with
      | none => exact ih none
      | some endTs =>
        have hlater := ih none
        rw [Option.map_none] at hlater
        dsimp only [Option.map_some]
        rw [resolveRun_of_reads ruleKey h, Option.bind_some, hlater, Option.map_some]
        cases resolveEpisode scoreRows endTs (flagForRule ruleKey) now with
        | none => rfl
        | some outcome => rfl

/-- The scan of the verdicts is the scan of the rows that they are read as. -/
theorem scanDeviceVerdicts_of_reads {now : Instant} (h : List.Forall₂ (Reads P) rows scoreRows) :
    scanDeviceVerdicts P rows now.us = some (scanDevice scoreRows now) := by
  have hscan : ∀ ruleKey, scanVerdicts P rows ruleKey now.us none rows =
      some (scanRule scoreRows ruleKey (flagForRule ruleKey) now) :=
    fun ruleKey => scanVerdicts_of_reads ruleKey none h h
  simp only [scanDeviceVerdicts, scanDevice, RuleKey.all, List.mapM_cons, List.mapM_nil, hscan,
    Option.bind_eq_bind, Option.bind_some, Option.pure_def, List.flatMap_cons, List.flatMap_nil,
    List.flatten_cons, List.flatten_nil]

end Reads

/-! ### The history of a device -/

/-- Whatever rows of a history are slimmed: where the scan returns, it returns the same
    outcomes, and it returns on every history of shaped verdicts; the delta of the index is
    the same in any case, and slimming twice is slimming once. -/
theorem slimming_invisible (P : PyValues) (rows rows' : List VerdictRow)
    (hslim : List.Forall₂ MaySlim rows rows') (now : Int) :
    (∀ outcomes, scanDeviceVerdicts P rows now = some outcomes →
        scanDeviceVerdicts P rows' now = some outcomes) ∧
      ((∀ row ∈ rows, Shaped P row.risk) →
        ∃ outcomes, scanDeviceVerdicts P rows now = some outcomes) ∧
      (∀ roundDelta cutoff index,
        healthDelta7d P roundDelta cutoff index rows' =
          healthDelta7d P roundDelta cutoff index rows) ∧
      ∀ risk, slimRisk (slimRisk risk) = slimRisk risk := by
  refine ⟨fun outcomes h => scanDeviceVerdicts_slim hslim h, scanDeviceVerdicts_total now, ?_,
    slimRisk_slimRisk⟩
  intro roundDelta cutoff index
  cases index with
  | none => rfl
  | some index =>
    have htake : List.Forall₂ MaySlim (rows.take trendHistoryLimit)
        (rows'.take trendHistoryLimit) := List.forall₂_take _ hslim
    simp only [healthDelta7d, olderIndex_slim htake]

private def tokens : PyValues where
  ofToken _ := .nan
  ofText _ := none
  reprOf _ := []
  strOf _ := []

private def verdict (risk : Fields) : VerdictRow := ⟨some ⟨0, "1970-01-01T00:00:00+00:00"⟩, risk⟩

private def flagged : VerdictRow :=
  verdict [("score100".toList, .obj [("storage_risk".toList, .obj [("coords".toList,
    .obj [("flags".toList, .arr [.str "recurrence".toList])])])]),
    ("domains".toList, .arr [])]

/-- A day later the error chain is at its second stage. -/
private def confirming : VerdictRow :=
  ⟨some ⟨86400000000, "1970-01-02T00:00:00+00:00"⟩,
    [("errchain".toList, .obj [("stage".toList, .int 2)]), ("domains".toList, .arr [])]⟩

private theorem maySlim_flagged : List.Forall₂ MaySlim [flagged, confirming]
    [flagged.slim, confirming.slim] := .cons (Or.inr rfl) (.cons (Or.inr rfl) .nil)

private theorem scan_flagged : scanDeviceVerdicts tokens [flagged, confirming] 0 =
    some [(.mediaRecurrence, .confirmed, "1970-01-01T00:00:00+00:00")] := by rfl

theorem slimming_invisible_flagged :
    scanDeviceVerdicts tokens [flagged.slim, confirming.slim] 0 =
      some [(.mediaRecurrence, .confirmed, "1970-01-01T00:00:00+00:00")] :=
  (slimming_invisible tokens [flagged, confirming] [flagged.slim, confirming.slim]
    maySlim_flagged 0).1 _ scan_flagged

/-- A level that holds a text: the scan of the full verdict raises, that of the slim one does
    not. -/
private def mistyped : VerdictRow := verdict [("score100".toList, .str "lost".toList)]

theorem slimming_silences_scan :
    ¬ ∀ (P : PyValues) (rows rows' : List VerdictRow), List.Forall₂ MaySlim rows rows' →
      ∀ now, scanDeviceVerdicts P rows' now = scanDeviceVerdicts P rows now := by
  intro h
  have hsame := h tokens [mistyped] [mistyped.slim] (.cons (Or.inr rfl) .nil) 0
  have hraises : scanDeviceVerdicts tokens [mistyped] 0 = none := by rfl
  have hreturns : scanDeviceVerdicts tokens [mistyped.slim] 0 = some [] := by rfl
  rw [hraises, hreturns] at hsame
  cases hsame

end Srp.Analytics
