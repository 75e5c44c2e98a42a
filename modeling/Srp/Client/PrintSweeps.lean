/-
  Srp/Client/PrintSweeps.lean
  ===========================
  **Event sweeps lose no job** (`_collect_via_events` and `_cap_sweep` of
  `client/collectors/print_jobs.py`).

  The mark of a sweep is the moment of its query or, when the sweep was too big,
  the newest job that was kept.  A query answers with the newest entries first,
  so that what a cut drops is not older than the mark.  The mark moves, because a
  sweep that is cut holds more jobs than one moment has.  The clock of the machine
  never goes back.
-/
import Srp.Client.PrintSwitch
import Srp.Lib.IsoTime

namespace Srp.Client

open Srp.Lib Srp.Lib.Lines Srp.Lib.PyJson Srp.Lib.Table

/-! ### Sizes of texts -/

@[simp] theorem utf8Len_nil : utf8Len [] = 0 := rfl

@[simp] theorem utf8Len_cons (c : Char) (t : Text) :
    utf8Len (c :: t) = c.utf8Size + utf8Len t := by
  simp [utf8Len]

@[simp] theorem utf8Len_append (s t : Text) : utf8Len (s ++ t) = utf8Len s + utf8Len t := by
  simp [utf8Len]

theorem utf8Size_digitChar {n : Nat} (h : n < 16) : (hexDigit n).utf8Size = 1 := by
  unfold hexDigit
  revert n
  decide

/-- A control character takes six octets, and no other one takes more. -/
theorem utf8Len_escapeChar (c : Char) : utf8Len (escapeChar c) ≤ 6 := by
  have hchar := Char.utf8Size_le_four c
  unfold escapeChar
  split_ifs with _ _ _ _ _ _ _ hcontrol
  any_goals decide
  · simp only [utf8Len_cons, utf8Len_nil]
    rw [utf8Size_digitChar (by omega), utf8Size_digitChar (by omega)]
    decide
  · simp only [utf8Len_cons, utf8Len_nil]
    omega

theorem utf8Len_stringBody (s : Text) : utf8Len (stringBody s) ≤ 6 * s.length + 1 := by
  unfold stringBody
  have hquote : utf8Len ['"'] = 1 := by decide
  rw [utf8Len_append, hquote]
  induction s with
  | nil => simp
  | cons c s ih =>
    have hc := utf8Len_escapeChar c
    rw [List.flatMap_cons, utf8Len_append, List.length_cons]
    omega

theorem utf8Len_toDigits {n k : Nat} (hk : 0 < k) (hn : n < 10 ^ k) :
    utf8Len (Nat.toDigits 10 n) ≤ k := by
  have hdigits : ∀ c ∈ Nat.toDigits 10 n, c.utf8Size = 1 := by
    intro c hc
    have hdigit := isDigit_of_mem_toDigits hc
    simp only [Char.isDigit, Bool.and_eq_true, decide_eq_true_eq] at hdigit
    have hnine : c.val.toNat ≤ 57 := UInt32.le_iff_toNat_le.mp hdigit.2
    apply Char.utf8Size_eq_one_iff.mpr
    apply UInt32.le_iff_toNat_le.mpr
    exact hnine.trans (by decide)
  have hlen : utf8Len (Nat.toDigits 10 n) = (Nat.toDigits 10 n).length := by
    unfold utf8Len
    rw [List.map_congr_left hdigits]
    simp
  rw [hlen]
  exact Nat.toDigits_length 10 n k hk hn

theorem utf8Len_intText {n : Int} {k : Nat} (hk : 0 < k) (hn : n.natAbs < 10 ^ k) :
    utf8Len (intText n) ≤ k + 1 := by
  have hdigits := utf8Len_toDigits hk hn
  have hminus : ('-' : Char).utf8Size = 1 := by decide
  unfold intText
  split
  · rw [utf8Len_cons, hminus]
    omega
  · omega

theorem utf8Len_dumpsElems {k : Nat} {xs : List Json} (h : ∀ x ∈ xs, utf8Len (dumps 1 x) ≤ k) :
    utf8Len (dumpsElems 1 xs) ≤ xs.length * (k + 2) + 1 := by
  have hclose : utf8Len [']'] = 1 := by decide
  induction xs with
  | nil => simp [dumpsElems, hclose]
  | cons x xs ih =>
    have hx := h x List.mem_cons_self
    cases xs with
    | nil =>
      rw [dumpsElems, utf8Len_append, hclose, List.length_singleton]
      omega
    | cons y ys =>
      have hrest := ih fun z hz => h z (List.mem_cons_of_mem x hz)
      have hcomma : (',' : Char).utf8Size = 1 := by decide
      have hblank : utf8Len (blanks 1) = 1 := by decide
      rw [dumpsElems, utf8Len_append, utf8Len_cons, utf8Len_append, hcomma, hblank,
        List.length_cons, Nat.succ_mul]
      omega

/-- The members of an object, from bounds on a key with its value. -/
theorem utf8Len_dumpsFields {fields : List (Text × Json)} {bounds : List Nat}
    (h : List.Forall₂ (fun f b => utf8Len (stringBody f.1) + utf8Len (dumps 1 f.2) ≤ b)
      fields bounds) : utf8Len (dumpsFields 1 fields) ≤ (bounds.map (· + 5)).sum + 1 := by
  have hclose : utf8Len ['}'] = 1 := by decide
  have hquote : ('"' : Char).utf8Size = 1 := by decide
  have hcolon : (':' : Char).utf8Size = 1 := by decide
  have hcomma : (',' : Char).utf8Size = 1 := by decide
  have hblank : utf8Len (blanks 1) = 1 := by decide
  induction h with
  | nil => simp [dumpsFields, hclose]
  | @cons f b fields bounds hf _ ih =>
    obtain ⟨k, v⟩ := f
    dsimp only at hf
    cases fields with
    | nil =>
      simp only [dumpsFields, utf8Len_cons, utf8Len_append, hquote, hcolon, hblank, hclose,
        List.map_cons, List.sum_cons] at ih ⊢
      omega
    | cons g gs =>
      rw [dumpsFields, List.map_cons, List.sum_cons]
      simp only [utf8Len_cons, utf8Len_append, hquote, hcolon, hblank, hcomma]
      omega

theorem member_le {k : Text} {v : Json} {a b : Nat} (hk : utf8Len (stringBody k) ≤ a)
    (hv : utf8Len (dumps 1 v) ≤ b) :
    utf8Len (stringBody (k, v).1) + utf8Len (dumps 1 (k, v).2) ≤ a + b :=
  Nat.add_le_add hk hv

/-! ### The size of a job -/

variable (L : PrintLib)

/-- The integers that the casts of the script let through (`[int]` and `[long]`). -/
structure PrintEvent.Cast (e : PrintEvent) : Prop where
  jobId : ∀ jobId ∈ e.jobId, jobId.natAbs < 10 ^ 10
  pages : e.pages < 10 ^ 10
  sizeBytes : ∀ size ∈ e.sizeBytes, size.natAbs < 10 ^ 19

/-- The text of a stamp is `2026-03-02T08:00:00.0000000Z`, or another one of that length. -/
def ShortStamps : Prop :=
  ∀ t, utf8Len (dumps 1 (.str (L.stampText (.powershell t)))) ≤ 30

/-- The most octets that a job takes. -/
def maxJobBytes : Nat := 3300

theorem utf8Len_optInt {n : Option Int} {k : Nat} (hk : 3 ≤ k)
    (h : ∀ v ∈ n, v.natAbs < 10 ^ k) : utf8Len (dumps 1 (optJson .int n)) ≤ k + 1 := by
  cases n with
  | none =>
    have hnull : utf8Len (dumps 1 (optJson .int none)) = 4 := by decide
    omega
  | some v =>
    have hint : dumps 1 (optJson .int (some v)) = intText v := by
      rw [optJson, dumps]
    rw [hint]
    exact utf8Len_intText (by omega) (h v rfl)

theorem utf8Len_optName {name : Option Text} (h : ∀ t ∈ name, t.length ≤ maxNameLen) :
    utf8Len (dumps 1 (optJson .str name)) ≤ 1538 := by
  cases name with
  | none => decide
  | some t =>
    have hstr : dumps 1 (optJson .str (some t)) = '"' :: stringBody t := by
      rw [optJson, dumps]
    have hquote : ('"' : Char).utf8Size = 1 := by decide
    have hbody := utf8Len_stringBody t
    have hlen : t.length ≤ 256 := h t rfl
    rw [hstr, utf8Len_cons, hquote]
    omega

theorem length_names {e : PrintEvent} {j : PrintJob} (h : parseJob L e = some j) :
    (∀ t ∈ j.printer, t.length ≤ maxNameLen) ∧ ∀ t ∈ j.userName, t.length ≤ maxNameLen := by
  simp only [parseJob] at h
  split at h
  · cases h
  · split at h
    · cases h
    · cases h
      constructor
      · intro t ht
        split at ht
        · cases ht
        · cases ht
          exact List.length_take_le _ _
      · intro t ht
        cases huser : e.userName with
        | none => simp [huser] at ht
        | some name =>
          simp only [huser] at ht
          split at ht
          · cases ht
          · cases ht
            exact List.length_take_le _ _

theorem utf8Len_jobJson (hstamps : ShortStamps L) {e : PrintEvent} (he : e.Cast) {j : PrintJob}
    (h : parseJob L e = some j) : utf8Len (dumps 1 (jobJson L j)) ≤ maxJobBytes := by
  obtain ⟨hprinter, huser⟩ := length_names L h
  have hnumbers : j.jobId = e.jobId ∧ j.pages = e.pages ∧ j.sizeBytes = e.sizeBytes ∧
      j.ts = .powershell e.time ∧ j.source = .events := by
    simp only [parseJob] at h
    split at h
    · cases h
    · split at h
      · cases h
      · cases h
        exact ⟨rfl, rfl, rfl, rfl, rfl⟩
  obtain ⟨hid, hpages, hsize, hts, hsource⟩ := hnumbers
  have h1 := utf8Len_optInt (by decide) he.jobId
  have h2 := hstamps e.time
  have h3 := utf8Len_optName hprinter
  have h4 : utf8Len (dumps 1 (.int j.pages)) ≤ 11 := by
    rw [dumps, hpages]
    exact utf8Len_intText (by decide) he.pages
  have h5 := utf8Len_optInt (by decide) he.sizeBytes
  have h6 := utf8Len_optName huser
  have h7 : utf8Len (dumps 1 (.str j.source.text)) ≤ 8 := by
    rw [hsource]
    decide
  rw [← hid] at h1
  rw [← hsize] at h5
  rw [← hts] at h2
  have hfields : List.Forall₂ (fun f b => utf8Len (stringBody f.1) + utf8Len (dumps 1 f.2) ≤ b)
      [("job_id".toList, optJson .int j.jobId), ("ts".toList, .str (L.stampText j.ts)),
        ("printer".toList, optJson .str j.printer), ("pages".toList, .int j.pages),
        ("size_bytes".toList, optJson .int j.sizeBytes),
        ("user_name".toList, optJson .str j.userName), ("source".toList, .str j.source.text)]
      [18, 33, 1546, 17, 31, 1548, 15] :=
    .cons (member_le (by decide) h1) <| .cons (member_le (by decide) h2) <|
    .cons (member_le (by decide) h3) <| .cons (member_le (by decide) h4) <|
    .cons (member_le (by decide) h5) <| .cons (member_le (by decide) h6) <|
    .cons (member_le (by decide) h7) .nil
  have htotal := utf8Len_dumpsFields hfields
  have hopen : ('{' : Char).utf8Size = 1 := by decide
  rw [jobJson, dumps, utf8Len_cons, hopen]
  exact (Nat.add_le_add_left htotal 1).trans (by decide)

/-- A sweep that exceeds the budget has many jobs. -/
theorem length_of_sweepBytes {jobs : List PrintJob}
    (hsize : ∀ j ∈ jobs, utf8Len (dumps 1 (jobJson L j)) ≤ maxJobBytes)
    (h : sweepBudgetBytes < sweepBytes L jobs) : 136 ≤ jobs.length := by
  have helems : utf8Len (dumpsElems 1 (jobs.map (jobJson L))) ≤
      (jobs.map (jobJson L)).length * (maxJobBytes + 2) + 1 := by
    apply utf8Len_dumpsElems
    intro x hx
    obtain ⟨j, hj, rfl⟩ := List.mem_map.mp hx
    exact hsize j hj
  have hkey : utf8Len (stringBody "jobs".toList) = 5 := by decide
  have hopen : ('{' : Char).utf8Size = 1 := by decide
  have hbracket : ('[' : Char).utf8Size = 1 := by decide
  have hquote : ('"' : Char).utf8Size = 1 := by decide
  have hcolon : (':' : Char).utf8Size = 1 := by decide
  have hblank : utf8Len (blanks 1) = 1 := by decide
  have hclose : utf8Len ['}'] = 1 := by decide
  rw [List.length_map] at helems
  simp only [sweepBytes, sweepBudgetBytes, dumps, dumpsFields, utf8Len_cons, utf8Len_append, hopen,
    hbracket, hquote, hcolon, hblank, hclose, hkey, maxJobBytes] at h helems
  omega

/-! ### The cut -/

/-- A list that was halved is the older half of one that exceeded the budget. -/
theorem trimSweep_cases (fuel : Nat) (jobs : List PrintJob) : trimSweep L fuel jobs = jobs ∨
    ∃ l, l <:+ jobs ∧ sweepBudgetBytes < sweepBytes L l ∧
      trimSweep L fuel jobs = l.drop (l.length / 2) := by
  induction fuel generalizing jobs with
  | zero => exact Or.inl rfl
  | succ fuel ih =>
    simp only [trimSweep]
    split
    · next hbig =>
      right
      rcases ih (jobs.drop (jobs.length / 2)) with hsame | ⟨l, hl, hbudget, hkept⟩
      · exact ⟨jobs, List.suffix_rfl, hbig.2, hsame⟩
      · exact ⟨l, hl.trans (List.drop_suffix _ jobs), hbudget, hkept⟩
    · exact Or.inl rfl

theorem trimSweep_suffix (fuel : Nat) (jobs : List PrintJob) : trimSweep L fuel jobs <:+ jobs := by
  rcases trimSweep_cases L fuel jobs with hsame | ⟨l, hl, -, hkept⟩
  · rw [hsame]
  · rw [hkept]
    exact (List.drop_suffix _ l).trans hl

theorem capSweep_fst (jobs : List PrintJob) (sweepTs : Stamp) (lastTs : Option Stamp) :
    (capSweep L jobs sweepTs lastTs).1 = trimSweep L jobs.length jobs := by
  simp only [capSweep]
  split
  · next hlen => exact ((trimSweep_suffix L jobs.length jobs).eq_of_length hlen).symm
  · split
    · rfl
    · split <;> rfl

/-- What `_cap_sweep` returns: the whole sweep, or the older half of a list that exceeded the
    budget with a mark on its newest job. -/
theorem capSweep_cases (jobs : List PrintJob) (sweepTs : Stamp) (lastTs : Option Stamp) :
    capSweep L jobs sweepTs lastTs = (jobs, sweepTs) ∨
      ∃ l newest, l <:+ jobs ∧ sweepBudgetBytes < sweepBytes L l ∧
        ((l.drop (l.length / 2)).map (·.ts.instant)).max? = some newest ∧
        capSweep L jobs sweepTs lastTs = (l.drop (l.length / 2),
          if some (Stamp.powershell newest) = lastTs then sweepTs else .powershell newest) := by
  simp only [capSweep]
  rcases trimSweep_cases L jobs.length jobs with hsame | ⟨l, hl, hbudget, hkept⟩
  · rw [hsame, if_pos rfl]
    exact Or.inl rfl
  · rw [hkept]
    split
    · exact Or.inl rfl
    · right
      have hne : l ≠ [] := by
        rintro rfl
        have hmany := length_of_sweepBytes L (fun _ hj => absurd hj List.not_mem_nil) hbudget
        rw [List.length_nil] at hmany
        omega
      have hpos := List.length_pos_iff.mpr hne
      cases hmax : ((l.drop (l.length / 2)).map (·.ts.instant)).max? with
      | none =>
        rw [List.max?_eq_none_iff, List.map_eq_nil_iff, List.drop_eq_nil_iff] at hmax
        omega
      | some newest =>
        refine ⟨l, newest, hl, hbudget, hmax, ?_⟩
        dsimp only
        split <;> rfl

/-- Newest first. -/
abbrev Descending (jobs : List PrintJob) : Prop :=
  jobs.Pairwise fun j k => k.ts.instant ≤ j.ts.instant

/-- What a cut drops is not older than the newest job that it keeps. -/
theorem mem_kept {jobs kept : List PrintJob} (hdesc : Descending jobs) (hkept : kept <:+ jobs)
    {newest : Nat} (hnewest : (kept.map (·.ts.instant)).max? = some newest) {j : PrintJob}
    (hj : j ∈ jobs) (hold : j.ts.instant < newest) : j ∈ kept := by
  obtain ⟨front, rfl⟩ := hkept
  rcases List.mem_append.mp hj with hfront | hj
  · obtain ⟨k, hk, hts⟩ := List.mem_map.mp (List.max?_mem hnewest)
    have hle := (List.pairwise_append.mp hdesc).2.2 j hfront k hk
    omega
  · exact hj

/-! ### Sweeps -/

/-- The payload of a step; only a sweep that has read its events has one. -/
def payload (w : World) : PrintStep → List PrintJob
  | .readEvents true =>
    match w.phase with
    | .queried queriedAt =>
      (capSweep L ((w.entries L).filterMap (parseJob L)) (.powershell queriedAt)
        w.state.lastSweepTs).1
    | _ => []
  | _ => []

def eventSweeps : Machine World PrintStep (List PrintJob) where
  next w step := w.step L step
  out w step := payload L w step

/-- A job that the collector is to report. -/
def Wanted (e : PrintEvent) : Prop :=
  testVirtual L e.printer = false ∧ isVirtual L (e.printer.take maxNameLen) = false ∧ 0 < e.pages

instance Wanted.decidable (e : PrintEvent) : Decidable (Wanted L e) :=
  inferInstanceAs (Decidable (_ ∧ _ ∧ _))

/-- A step of the spooler or of an event sweep. -/
def EventStep : PrintStep → Prop
  | .readCounters (.seen _) => False
  | _ => True

instance EventStep.decidable : ∀ step, Decidable (EventStep step)
  | .readCounters (.seen _) => inferInstanceAs (Decidable False)
  | .readCounters .failed | .wait _ | .print _ _ _ | .addQueue _ | .removeQueue _ | .restartSpooler
  | .setLog _ | .restartAgent | .begin _ | .detect _ | .stamp | .enable _ | .stampQuery
  | .readEvents _ => inferInstanceAs (Decidable True)

/-- A step of a run of event sweeps: no counter sweep, numbers of the types that the script casts
    to, fewer entries than the query's limit and at most sixty jobs of one moment. -/
def Orderly (w : World) : PrintStep → Prop
  | .print queue pages details =>
    PrintEvent.Cast { recordId := w.log.length, time := w.now, printer := queue, pages := pages,
                      jobId := details.jobId, sizeBytes := details.sizeBytes }
  | .readCounters (.seen _) => False
  | .readEvents true => (w.log.filter w.state.reads).length < 5000 ∧
      ∀ t, w.log.countP (fun e => decide (Wanted L e ∧ e.time = t)) ≤ 60
  | _ => True

theorem Orderly.eventStep {w : World} {step : PrintStep} (h : Orderly L w step) :
    EventStep step := by
  cases step with
  | readCounters answer =>
    cases answer with
    | failed => exact True.intro
    | seen readable => exact h
  | _ => exact True.intro

/-- The job is in a payload. -/
def Reported (payloads : List (List PrintJob)) (e : PrintEvent) : Prop :=
  ∃ payload ∈ payloads, ∃ j ∈ payload, parseJob L e = some j

/-- The log is in order, no mark lies ahead, and all jobs before the mark are reported. -/
structure Swept (w : World) (payloads : List (List PrintJob)) : Prop where
  sorted : w.log.Pairwise fun a b => a.time ≤ b.time
  past : ∀ e ∈ w.log, e.time ≤ w.now
  cast : ∀ e ∈ w.log, e.Cast
  lastPast : ∀ last ∈ w.state.lastSweepTs, last.instant ≤ w.now
  stamped : ∀ queriedAt, w.phase = .queried queriedAt → queriedAt ≤ w.now
  done : ∀ last ∈ w.state.lastSweepTs, ∀ e ∈ w.log, Wanted L e → e.time < last.instant →
    Reported L payloads e

/-- The log and the state file are as before, and a query is stamped only now. -/
structure World.Moved (w w' : World) : Prop where
  log : w'.log = w.log
  state : w'.state = w.state
  now : w.now ≤ w'.now
  queried : ∀ q, w'.phase = .queried q → w.phase = .queried q ∨ q = w.now

theorem World.Moved.refl (w : World) : w.Moved w := ⟨rfl, rfl, le_rfl, fun _ hq => Or.inl hq⟩

/-- Every step of an event sweep but the printing of a job and a successful reading of the log
    leaves the log and the state file alone. -/
theorem eventStep_cases (w : World) (step : PrintStep) (hevent : EventStep step) :
    (∃ queue pages details, step = .print queue pages details) ∨
    (∃ q, step = .readEvents true ∧ w.phase = .queried q ∧
      w.step L step = w.collectEvents L q) ∨
    (w.Moved (w.step L step) ∧ ∀ q, w.phase = .queried q → step ≠ .readEvents true) := by
  -- a step that leads to a phase in which no query is stamped
  have hquiet : ∀ w' : World, w'.log = w.log → w'.state = w.state → w.now ≤ w'.now →
      (∀ q, w'.phase ≠ .queried q) → w.Moved w' :=
    fun w' hlog hstate hnow hphase => ⟨hlog, hstate, hnow, fun q hq => absurd hq (hphase q)⟩
  cases step with
  | print queue pages details => exact Or.inl ⟨queue, pages, details, rfl⟩
  | wait ticks =>
    exact Or.inr (Or.inr ⟨⟨rfl, rfl, Nat.le_add_right _ _, fun _ hq => Or.inl hq⟩, by simp⟩)
  | addQueue name =>
    refine Or.inr (Or.inr ⟨?_, by simp⟩)
    simp only [World.step]
    split
    · exact ⟨rfl, rfl, le_rfl, fun _ hq => Or.inl hq⟩
    · exact World.Moved.refl w
  | removeQueue name =>
    exact Or.inr (Or.inr ⟨⟨rfl, rfl, le_rfl, fun _ hq => Or.inl hq⟩, by simp⟩)
  | restartSpooler =>
    exact Or.inr (Or.inr ⟨⟨rfl, rfl, le_rfl, fun _ hq => Or.inl hq⟩, by simp⟩)
  | setLog enabled =>
    exact Or.inr (Or.inr ⟨⟨rfl, rfl, le_rfl, fun _ hq => Or.inl hq⟩, by simp⟩)
  | restartAgent =>
    exact Or.inr (Or.inr ⟨hquiet _ rfl rfl le_rfl (fun _ => by simp [World.step]), by simp⟩)
  | «begin» autoenable =>
    refine Or.inr (Or.inr ⟨?_, by simp⟩)
    simp only [World.step]
    split
    · exact hquiet _ rfl rfl le_rfl (fun _ => by simp)
    · exact World.Moved.refl w
  | detect answer =>
    refine Or.inr (Or.inr ⟨?_, by simp⟩)
    simp only [World.step]
    split
    · split
      · exact hquiet _ rfl rfl le_rfl (fun _ => by simp)
      · exact hquiet _ rfl rfl le_rfl (fun _ => by simp)
    · exact World.Moved.refl w
  | stamp =>
    refine Or.inr (Or.inr ⟨?_, by simp⟩)
    simp only [World.step]
    split
    · exact hquiet _ rfl rfl le_rfl (fun _ => by simp)
    · exact World.Moved.refl w
  | enable succeeds =>
    refine Or.inr (Or.inr ⟨?_, by simp⟩)
    simp only [World.step]
    split
    · split
      · exact hquiet _ rfl rfl le_rfl (fun _ => by simp)
      · exact hquiet _ rfl rfl le_rfl (fun _ => by simp)
    · exact World.Moved.refl w
  | readCounters answer =>
    cases answer with
    | failed =>
      refine Or.inr (Or.inr ⟨?_, by simp⟩)
      simp only [World.step]
      split
      · exact hquiet _ rfl rfl le_rfl (fun _ => by simp)
      · next hanswer => cases hanswer
      · exact World.Moved.refl w
    | seen readable => exact hevent.elim
  | stampQuery =>
    refine Or.inr (Or.inr ⟨?_, by simp⟩)
    simp only [World.step]
    split
    · refine ⟨rfl, rfl, le_rfl, fun q hq => Or.inr ?_⟩
      cases hq
      rfl
    · exact World.Moved.refl w
  | readEvents works =>
    cases works with
    | false =>
      refine Or.inr (Or.inr ⟨?_, by simp⟩)
      simp only [World.step]
      split
      · exact hquiet _ rfl rfl le_rfl (fun _ => by simp)
      · exact World.Moved.refl w
    | true =>
      cases hphase : w.phase with
      | queried q => exact Or.inr (Or.inl ⟨q, rfl, rfl, by simp only [World.step, hphase, if_true]⟩)
      | _ =>
        refine Or.inr (Or.inr ⟨?_, by simp⟩)
        simp only [World.step, hphase]
        exact World.Moved.refl w

section Sweeps

variable {w w' : World} {payloads : List (List PrintJob)}

theorem Reported.append {e : PrintEvent} (h : Reported L payloads e)
    (more : List (List PrintJob)) : Reported L (payloads ++ more) e := by
  obtain ⟨payload, hpayload, hj⟩ := h
  exact ⟨payload, List.mem_append_left more hpayload, hj⟩

/-- A step that leaves the log and the state file alone. -/
theorem Swept.moved (h : Swept L w payloads) (hlog : w'.log = w.log) (hstate : w'.state = w.state)
    (hnow : w.now ≤ w'.now)
    (hphase : ∀ queriedAt, w'.phase = .queried queriedAt → queriedAt ≤ w'.now)
    (more : List (List PrintJob)) : Swept L w' (payloads ++ more) where
  sorted := hlog ▸ h.sorted
  past e he := (h.past e (hlog ▸ he)).trans hnow
  cast e he := h.cast e (hlog ▸ he)
  lastPast last hlast := (h.lastPast last (hstate ▸ hlast)).trans hnow
  stamped := hphase
  done last hlast e he hwanted hlt :=
    (h.done last (hstate ▸ hlast) e (hlog ▸ he) hwanted hlt).append L more

theorem Swept.print (h : Swept L w payloads) {queue : Text} {pages : Nat} {details : JobDetails}
    (hcast : Orderly L w (.print queue pages details)) (more : List (List PrintJob)) :
    Swept L (w.print queue pages details) (payloads ++ more) := by
  unfold World.print
  split
  · by_cases hlog : w.logEnabled = true
    · simp only [hlog, if_true]
      refine ⟨?_, ?_, ?_, h.lastPast, h.stamped, ?_⟩
      · apply List.pairwise_append.mpr
        refine ⟨h.sorted, List.pairwise_singleton _ _, ?_⟩
        intro a ha b hb
        rw [List.mem_singleton.mp hb]
        exact h.past a ha
      · intro e he
        rcases List.mem_append.mp he with he | he
        · exact h.past e he
        · rw [List.mem_singleton.mp he]
      · intro e he
        rcases List.mem_append.mp he with he | he
        · exact h.cast e he
        · rw [List.mem_singleton.mp he]
          exact ⟨hcast.jobId, hcast.pages, hcast.sizeBytes⟩
      · intro last hlast e he hwanted hlt
        rcases List.mem_append.mp he with he | he
        · exact (h.done last hlast e he hwanted hlt).append L more
        · -- no mark lies ahead of the job that is printed now
          rw [List.mem_singleton.mp he] at hlt
          exact absurd hlt (not_lt.mpr (h.lastPast last hlast))
    · simp only [hlog, Bool.false_eq_true, if_false]
      apply Swept.moved L h
      · rfl
      · rfl
      · exact le_rfl
      · exact h.stamped
  · exact h.moved L rfl rfl le_rfl h.stamped more

theorem parseJob_of_wanted {e : PrintEvent} (h : Wanted L e) : ∃ j, parseJob L e = some j := by
  obtain ⟨_, hvirtual, hpages⟩ := h
  simp only [parseJob, hvirtual, hpages.ne', Bool.false_eq_true, if_false]
  exact ⟨_, rfl⟩

theorem descending_entries (h : w.log.Pairwise fun a b => a.time ≤ b.time) :
    (w.entries L).Pairwise fun a b => b.time ≤ a.time :=
  (((List.pairwise_reverse.mpr h).filter _).take).filter _

theorem descending_jobs (h : w.log.Pairwise fun a b => a.time ≤ b.time) :
    Descending ((w.entries L).filterMap (parseJob L)) := by
  apply List.pairwise_filterMap.mpr
  refine (descending_entries L h).imp ?_
  intro a b hle j hj k hk
  obtain ⟨_, hjts, _⟩ := parseJob_spec L (Option.mem_def.mp hj)
  obtain ⟨_, hkts, _⟩ := parseJob_spec L (Option.mem_def.mp hk)
  rw [hjts, hkts]
  exact hle

/-- A query below its limit answers with every entry that is not older than the mark. -/
theorem mem_entries (hfew : (w.log.filter w.state.reads).length < 5000) {e : PrintEvent}
    (he : e ∈ w.log) (hreads : w.state.reads e = true)
    (hvirtual : testVirtual L e.printer = false) : e ∈ w.entries L := by
  have hall : (w.log.reverse.filter w.state.reads).take 5000 =
      w.log.reverse.filter w.state.reads := by
    apply List.take_of_length_le
    rw [List.filter_reverse, List.length_reverse]
    exact hfew.le
  unfold World.entries
  rw [hall]
  simp [List.mem_filter, he, hreads, hvirtual]

theorem jobs_size (hstamps : ShortStamps L) (hcast : ∀ e ∈ w.log, e.Cast) :
    ∀ j ∈ (w.entries L).filterMap (parseJob L),
      utf8Len (dumps 1 (jobJson L j)) ≤ maxJobBytes := by
  intro j hj
  obtain ⟨e, he, hparse⟩ := List.mem_filterMap.mp hj
  have hmem := List.mem_of_mem_take (List.mem_of_mem_filter he)
  rw [List.mem_filter, List.mem_reverse] at hmem
  exact utf8Len_jobJson L hstamps (hcast e hmem.1) hparse

theorem countP_filterMap_le {α β : Type} {f : α → Option β} {p : β → Bool} {q : α → Bool}
    {xs : List α} (h : ∀ x ∈ xs, ∀ y ∈ f x, p y = true → q x = true) :
    (xs.filterMap f).countP p ≤ xs.countP q := by
  induction xs with
  | nil => exact le_rfl
  | cons x xs ih =>
    have ih := ih fun x' hx' => h x' (List.mem_cons_of_mem x hx')
    rw [List.countP_cons]
    cases hx : f x with
    | none =>
      rw [List.filterMap_cons_none hx]
      omega
    | some y =>
      rw [List.filterMap_cons_some hx, List.countP_cons]
      have hxy := h x List.mem_cons_self y hx
      by_cases hy : p y = true
      · simp only [hy, hxy hy, if_true]
        omega
      · simp only [hy, Bool.false_eq_true, if_false]
        omega

theorem wanted_of_entry {e : PrintEvent} (he : e ∈ w.entries L) {j : PrintJob}
    (h : parseJob L e = some j) : Wanted L e := by
  have hvirtual : testVirtual L e.printer = false := by
    simpa using (List.mem_filter.mp he).2
  simp only [parseJob] at h
  split at h
  · cases h
  · next hname =>
    split at h
    · cases h
    · next hpages => exact ⟨hvirtual, by simpa using hname, Nat.pos_of_ne_zero hpages⟩

/-- Sixty jobs of one moment do not exceed the budget. -/
theorem kept_not_one_moment (hstamps : ShortStamps L) (hcast : ∀ e ∈ w.log, e.Cast) {t : Nat}
    (hshared : w.log.countP (fun e => decide (Wanted L e ∧ e.time = t)) ≤ 60) {l : List PrintJob}
    (hl : l <:+ (w.entries L).filterMap (parseJob L)) (hbudget : sweepBudgetBytes < sweepBytes L l) :
    ∃ j ∈ l.drop (l.length / 2), j.ts.instant ≠ t := by
  by_contra hall
  push Not at hall
  have hmany := length_of_sweepBytes L
    (fun j hj => jobs_size L hstamps hcast j (hl.subset hj)) hbudget
  have hkept : (l.drop (l.length / 2)).countP (fun j => j.ts.instant = t) =
      l.length - l.length / 2 := by
    rw [List.countP_eq_length.mpr (by simpa using hall), List.length_drop]
  have hjobs : (l.drop (l.length / 2)).countP (fun j => j.ts.instant = t) ≤
      ((w.entries L).filterMap (parseJob L)).countP (fun j => j.ts.instant = t) :=
    ((List.drop_sublist _ l).trans hl.sublist).countP_le
  have hentries : ((w.entries L).filterMap (parseJob L)).countP (fun j => j.ts.instant = t) ≤
      (w.entries L).countP (fun e => decide (Wanted L e ∧ e.time = t)) := by
    apply countP_filterMap_le
    intro e he j hj hts
    obtain ⟨_, htime, _⟩ := parseJob_spec L (Option.mem_def.mp hj)
    simp only [decide_eq_true_eq] at hts ⊢
    exact ⟨wanted_of_entry L he (Option.mem_def.mp hj), htime.symm.trans hts⟩
  have hsub : (w.entries L).Sublist w.log.reverse :=
    List.filter_sublist.trans ((List.take_sublist _ _).trans List.filter_sublist)
  have hlog := hsub.countP_le (p := fun e => decide (Wanted L e ∧ e.time = t))
  rw [List.countP_reverse] at hlog
  omega

/-- What a sweep reports: the jobs of its query that are older than the mark it sets. -/
theorem reported_by_sweep (h : Swept L w payloads) (hstamps : ShortStamps L) {queriedAt : Nat}
    (hfew : (w.log.filter w.state.reads).length < 5000)
    (hshared : ∀ t, w.log.countP (fun e => decide (Wanted L e ∧ e.time = t)) ≤ 60)
    {e : PrintEvent} (he : e ∈ w.log) (hwanted : Wanted L e) (hreads : w.state.reads e = true)
    (hold : e.time < (capSweep L ((w.entries L).filterMap (parseJob L)) (.powershell queriedAt)
      w.state.lastSweepTs).2.instant) :
    ∃ j ∈ (capSweep L ((w.entries L).filterMap (parseJob L)) (.powershell queriedAt)
      w.state.lastSweepTs).1, parseJob L e = some j := by
  obtain ⟨j, hparse⟩ := parseJob_of_wanted L hwanted
  obtain ⟨_, hts, _⟩ := parseJob_spec L hparse
  have hjob : j ∈ (w.entries L).filterMap (parseJob L) :=
    List.mem_filterMap.mpr ⟨e, mem_entries L hfew he hreads hwanted.1, hparse⟩
  refine ⟨j, ?_, hparse⟩
  rcases capSweep_cases L ((w.entries L).filterMap (parseJob L)) (.powershell queriedAt)
    w.state.lastSweepTs with hall | ⟨l, newest, hl, hbudget, hmax, hcut⟩
  · rw [hall]
    exact hjob
  · rw [hcut] at hold ⊢
    -- the mark moves: the kept jobs are not all of the moment of the last mark
    have hmoves : some (Stamp.powershell newest) ≠ w.state.lastSweepTs := by
      intro hstill
      obtain ⟨k, hk, hne⟩ := kept_not_one_moment L hstamps h.cast (hshared newest) hl hbudget
      apply hne
      apply le_antisymm
      · exact (List.max?_eq_some_iff.mp hmax).2 _ (List.mem_map_of_mem hk)
      · obtain ⟨e', he', hparse'⟩ := List.mem_filterMap.mp (hl.subset (List.drop_subset _ l hk))
        obtain ⟨_, hts', _⟩ := parseJob_spec L hparse'
        have hmem := List.mem_of_mem_take (List.mem_of_mem_filter he')
        have hread := (List.mem_filter.mp hmem).2
        rw [PrintState.reads, ← hstill] at hread
        rw [hts']
        exact of_decide_eq_true hread
    rw [if_neg hmoves] at hold
    exact mem_kept (descending_jobs L h.sorted) ((List.drop_suffix _ l).trans hl) hmax hjob
      (by rw [hts]; exact hold)

theorem Swept.collectEvents (h : Swept L w payloads) (hstamps : ShortStamps L) {queriedAt : Nat}
    (hphase : w.phase = .queried queriedAt) (ho : Orderly L w (.readEvents true)) :
    Swept L (w.collectEvents L queriedAt)
      (payloads ++ [(capSweep L ((w.entries L).filterMap (parseJob L)) (.powershell queriedAt)
        w.state.lastSweepTs).1]) := by
  obtain ⟨hfew, hshared⟩ := ho
  refine ⟨h.sorted, h.past, h.cast, ?_, ?_, ?_⟩
  · intro last hlast
    obtain rfl : (capSweep L ((w.entries L).filterMap (parseJob L)) (.powershell queriedAt)
        w.state.lastSweepTs).2 = last := Option.some.inj hlast
    rcases capSweep_instant L ((w.entries L).filterMap (parseJob L)) (.powershell queriedAt)
      w.state.lastSweepTs with hquery | ⟨j, hj, hjob⟩
    · rw [hquery]
      exact h.stamped queriedAt hphase
    · obtain ⟨e, he, hparse⟩ := List.mem_filterMap.mp hj
      obtain ⟨_, hts, _⟩ := parseJob_spec L hparse
      have hmem := List.mem_of_mem_take (List.mem_of_mem_filter he)
      rw [List.mem_filter, List.mem_reverse] at hmem
      rw [hjob, hts]
      exact h.past e hmem.1
  · intro q hq
    cases hq
  · intro last hlast e he hwanted hlt
    obtain rfl : (capSweep L ((w.entries L).filterMap (parseJob L)) (.powershell queriedAt)
        w.state.lastSweepTs).2 = last := Option.some.inj hlast
    by_cases hreads : w.state.reads e = true
    · obtain ⟨j, hj, hparse⟩ :=
        reported_by_sweep L h hstamps hfew hshared he hwanted hreads hlt
      exact ⟨_, List.mem_append_right _ (List.mem_singleton_self _), j, hj, hparse⟩
    · -- an entry that the query leaves out is older than the last mark
      cases hmark : w.state.lastSweepTs with
      | none =>
        rw [PrintState.reads, hmark] at hreads
        exact absurd rfl hreads
      | some mark =>
        have hbefore : e.time < mark.instant := by
          rw [PrintState.reads, hmark] at hreads
          simpa using hreads
        exact (h.done mark hmark e he hwanted hbefore).append L _

/-- Every step of a run of event sweeps keeps the account. -/
theorem swept_step (hstamps : ShortStamps L) (h : Swept L w payloads) (step : PrintStep)
    (ho : Orderly L w step) :
    Swept L ((eventSweeps L).next w step) (payloads ++ [(eventSweeps L).out w step]) := by
  change Swept L (w.step L step) _
  rcases eventStep_cases L w step (Orderly.eventStep L ho) with
    ⟨queue, pages, details, rfl⟩ | ⟨q, rfl, hphase, hstep⟩ | ⟨hmoved, -⟩
  · exact h.print L ho _
  · have hout : (eventSweeps L).out w (.readEvents true) =
        (capSweep L ((w.entries L).filterMap (parseJob L)) (.powershell q)
          w.state.lastSweepTs).1 := by
      simp only [eventSweeps, payload, hphase]
    rw [hstep, hout]
    exact h.collectEvents L hstamps hphase ho
  · refine h.moved L hmoved.log hmoved.state hmoved.now ?_ _
    intro q hq
    rcases hmoved.queried q hq with hbefore | rfl
    · exact (h.stamped q hbefore).trans hmoved.now
    · exact hmoved.now

end Sweeps

theorem swept_start (s : Spooler) : Swept L (World.start s) [] := by
  refine ⟨List.Pairwise.nil, ?_, ?_, ?_, ?_, ?_⟩
  · exact fun e he => absurd he List.not_mem_nil
  · exact fun e he => absurd he List.not_mem_nil
  · intro last hlast
    cases hlast
  · intro q hq
    cases hq
  · intro last hlast
    cases hlast

/-- **No job is lost between sweeps.**  A job that was printed before the mark of the last sweep
    is in the payload of one of the sweeps. -/
theorem sweeps_lose_no_job (hstamps : ShortStamps L) (s : Spooler) (steps : List PrintStep)
    (h : (eventSweeps L).Along (Orderly L) (World.start s) steps) (mark : Stamp)
    (hmark : ((eventSweeps L).stateAfter (World.start s) steps).state.lastSweepTs = some mark)
    (e : PrintEvent) (he : e ∈ ((eventSweeps L).stateAfter (World.start s) steps).log)
    (hwanted : Wanted L e) (hbefore : e.time < mark.instant) :
    Reported L ((eventSweeps L).outputs (World.start s) steps) e := by
  have hstep : ∀ w payloads step, Swept L w payloads → Orderly L w step →
      Swept L ((eventSweeps L).next w step) (payloads ++ [(eventSweeps L).out w step]) :=
    fun w payloads step hw ho => swept_step L hstamps hw step ho
  have hswept := Machine.trace_invariant_along hstep (swept_start L s) h
  rw [List.nil_append] at hswept
  exact hswept.done mark hmark e he hwanted hbefore

/-! ### Stamps of PowerShell -/

/-- A character that is its own octet in JSON. -/
def Plain (c : Char) : Prop := escapeChar c = [c] ∧ c.utf8Size = 1

instance Plain.decidable (c : Char) : Decidable (Plain c) := inferInstanceAs (Decidable (_ ∧ _))

theorem plain_digits (w n : Nat) : ∀ c ∈ IsoTime.digits w n, Plain c := by
  have hdigit : ∀ d < 10, Plain (IsoTime.digitChar d) := by decide
  induction w generalizing n with
  | zero => exact fun c hc => absurd hc List.not_mem_nil
  | succ w ih =>
    intro c hc
    rcases List.mem_append.mp hc with hc | hc
    · exact ih (n / 10) c hc
    · rw [List.mem_singleton.mp hc]
      exact hdigit _ (Nat.mod_lt _ (by decide))

theorem plain_monthDay (lengths : List Nat) (month n : Nat) :
    ∀ c ∈ IsoTime.monthDay lengths month n, Plain c := by
  have hdash : Plain '-' := by decide
  induction lengths generalizing month n with
  | nil =>
    simp only [IsoTime.monthDay, List.forall_mem_cons, List.forall_mem_append]
    exact ⟨hdash, plain_digits _ _, hdash, plain_digits _ _⟩
  | cons len lengths ih =>
    simp only [IsoTime.monthDay]
    split
    · simp only [List.forall_mem_cons, List.forall_mem_append]
      exact ⟨hdash, plain_digits _ _, hdash, plain_digits _ _⟩
    · exact ih _ _

theorem utf8Len_str_of_plain {t : Text} (h : ∀ c ∈ t, Plain c) :
    utf8Len (dumps 1 (.str t)) = t.length + 2 := by
  have hquote : ('"' : Char).utf8Size = 1 := by decide
  have hbody : utf8Len (stringBody t) = t.length + 1 := by
    unfold stringBody
    rw [utf8Len_append]
    induction t with
    | nil => decide
    | cons c t ih =>
      obtain ⟨hescape, hsize⟩ := h c List.mem_cons_self
      have ih := ih fun d hd => h d (List.mem_cons_of_mem c hd)
      rw [List.flatMap_cons, hescape, utf8Len_append, utf8Len_cons, utf8Len_nil, hsize,
        List.length_cons]
      omega
  rw [dumps, utf8Len_cons, hquote, hbody]
  omega

def ticksPerSec : Nat := 10000000

/-- `ToString('o')` of a moment in UTC, in ticks since 0001-01-01. -/
def roundTripText (t : Nat) : Text :=
  let sec := t / ticksPerSec
  IsoTime.dateText (sec / 86400) ++ 'T' :: (IsoTime.digits 2 (sec / 3600 % 24) ++
    ':' :: (IsoTime.digits 2 (sec / 60 % 60) ++ ':' :: (IsoTime.digits 2 (sec % 60) ++
      '.' :: (IsoTime.digits 7 (t % ticksPerSec) ++ ['Z']))))

/-- The functions of Python and .NET on ASCII text, and the stamps of PowerShell. -/
def PrintLib.windows : PrintLib where
  lower := List.map Char.toLower
  psLower := List.map Char.toLower
  stampText s := roundTripText s.instant

theorem shortStamps_windows : ShortStamps .windows := by
  intro t
  have hplain : ∀ c ∈ roundTripText t, Plain c := by
    simp only [roundTripText, IsoTime.dateText, List.forall_mem_append, List.forall_mem_cons]
    exact ⟨⟨plain_digits _ _, plain_monthDay _ _ _⟩, by decide, plain_digits _ _, by decide,
      plain_digits _ _, by decide, plain_digits _ _, by decide, plain_digits _ _, by decide,
      List.forall_mem_nil _⟩
  have hlength : (roundTripText t).length = 28 := by
    simp [roundTripText, IsoTime.length_dateText]
  change utf8Len (dumps 1 (.str (roundTripText t))) ≤ 30
  rw [utf8Len_str_of_plain hplain, hlength]

/-- A job, and while the sweep runs a second one. -/
def twoJobs : List PrintStep :=
  [.setLog true, .print "HP".toList 3 { jobId := some 2 }, .wait 1, .begin true,
    .detect .listed, .stampQuery, .wait 1, .print "HP".toList 4 { jobId := some 3 },
    .readEvents true]

theorem twoJobs_lose_no_job :
    Reported .windows ((eventSweeps .windows).outputs (World.start onePrinter) twoJobs)
      { recordId := 0, time := 0, printer := "HP".toList, pages := 3, jobId := some 2 } := by
  refine sweeps_lose_no_job .windows shortStamps_windows onePrinter twoJobs ?_ (.powershell 1) ?_ _
    ?_ ?_ ?_
  · refine ⟨True.intro, ?_, True.intro, True.intro, True.intro, True.intro, True.intro, ?_, ?_,
      True.intro⟩
    · constructor <;> decide
    · constructor <;> decide
    · refine ⟨by decide, fun t => ?_⟩
      exact (List.countP_le_length).trans (by decide)
  · decide +kernel
  · decide +kernel
  · decide +kernel
  · decide

end Srp.Client
