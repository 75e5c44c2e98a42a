/-
  Srp/Zabbix/Journal.lean
  =======================
  **What the export writes to its log** (`StatusStore` of `server/zabbix/status.py`,
  `_log_outcome` of `server/zabbix/export.py`).

  An unreachable Zabbix would write one and the same line every five minutes.  The
  store keeps lines back: the first failure and every change of its kind are written,
  repeats once an hour, and the end of an outage always.  `outage_journal` says over
  every history of attempts that this loses nothing: a failure that is not written
  follows a line of its own kind within the hour, and the numbers on the lines, how
  long the outage lasts and how many attempts it took, are those of the history.

  The status card, the texts of the lines and `reset`, which the tests call, are left
  out.
-/
import Mathlib.Data.List.DropRight
import Srp.Lib.Suppress
import Srp.Zabbix.Export

namespace Srp.Zabbix

open Srp.Lib Srp.Lib.Suppress

/-! ### The store -/

def repeatLogIntervalSec : ℚ := 3600

/-- What `StatusStore` keeps for the log. -/
structure StatusStore where
  lastLoggedKind : Option ErrorKind := none
  lastLoggedAt : ℚ := 0
  failingSinceMono : Option ℚ := none
  failedAttempts : Nat := 0
  lastSuccessSig : Option String := none
  lastSuccessLogAt : ℚ := 0
deriving DecidableEq, Repr

def shouldLogError (kind : ErrorKind) (now : ℚ) (s : StatusStore) : Bool × StatusStore :=
  let s := { s with
    failingSinceMono := some (s.failingSinceMono.getD now)
    failedAttempts := s.failedAttempts + 1 }
  let firstOrChanged := some kind ≠ s.lastLoggedKind
  let due := now - s.lastLoggedAt ≥ repeatLogIntervalSec
  if firstOrChanged ∨ due then (true, { s with lastLoggedKind := some kind, lastLoggedAt := now })
  else (false, s)

def outageSeconds (now : ℚ) (s : StatusStore) : Option ℚ :=
  s.failingSinceMono.map fun since => now - since

def shouldLogSuccess (signature : String) (now : ℚ) (s : StatusStore) : Bool × StatusStore :=
  let changed := some signature ≠ s.lastSuccessSig
  let due := now - s.lastSuccessLogAt ≥ repeatLogIntervalSec
  if changed ∨ due then
    (true, { s with lastSuccessSig := some signature, lastSuccessLogAt := now })
  else (false, s)

/-- `clear_error`, with the length of the outage that ends. -/
def clearError (now : ℚ) (s : StatusStore) : Option ℚ × StatusStore :=
  (outageSeconds now s, { s with
    failingSinceMono := none
    failedAttempts := 0
    lastLoggedKind := none
    lastLoggedAt := 0 })

/-! ### Attempts -/

/-- How a cycle went, a success by its signature (`total/processed/hosts/skipped`), and the two
    readings of the monotonic clock that its report makes: at the change of the store, and for the
    length of the outage or the line of success. -/
structure Attempt where
  outcome : Except ErrorKind String
  first : ℚ
  second : ℚ

inductive Line where
  /-- with the length of the outage and the number of attempts, from the second one on -/
  | failure (kind : ErrorKind) (suffix : Option (ℚ × Nat))
  | recovered (outage : ℚ)
  | sent (signature : String)
deriving DecidableEq, Repr

def logOutcome (a : Attempt) (s : StatusStore) : List Line × StatusStore :=
  match a.outcome with
  | .error kind =>
    let (shown, s) := shouldLogError kind a.first s
    let attempts := s.failedAttempts
    let suffix :=
      if attempts > 1 then some ((outageSeconds a.second s).getD 0, attempts) else none
    (if shown then [.failure kind suffix] else [], s)
  | .ok sig =>
    let (recovered, s) := clearError a.first s
    let (shown, s) := shouldLogSuccess sig a.second s
    (recovered.toList.map .recovered ++ if shown then [.sent sig] else [], s)

/-- The log of the export over its attempts. -/
def journal : Machine StatusStore Attempt (List Line) where
  next s a := (logOutcome a s).2
  out s a := (logOutcome a s).1

/-- The lines that an attempt writes after a history. -/
def linesAfter (history : List Attempt) (a : Attempt) : List Line :=
  journal.out (journal.stateAfter {} history) a

/-! ### What the store remembers of a history -/

def Attempt.failed (a : Attempt) : Bool :=
  match a.outcome with
  | .error _ => true
  | .ok _ => false

/-- The failures since the last success. -/
def outage (history : List Attempt) : List Attempt := history.rtakeWhile Attempt.failed

/-- An attempt, for the lines of failures: a success forgets what was written. -/
def errorEvent (a : Attempt) : Event ErrorKind ℚ :=
  match a.outcome with
  | .error kind => .offer a.first kind
  | .ok _ => .reset

/-- An attempt, for the lines of successes. -/
def sentEvent (a : Attempt) : Event String ℚ :=
  match a.outcome with
  | .error _ => .pass
  | .ok sig => .offer a.second sig

def errorLog (history : List Attempt) : Option (Mark ErrorKind ℚ) :=
  (Suppress.log repeatLogIntervalSec).stateAfter none (history.map errorEvent)

def sentLog (history : List Attempt) : Option (Mark String ℚ) :=
  (Suppress.log repeatLogIntervalSec).stateAfter none (history.map sentEvent)

/-- What the store keeps is what the history says. -/
structure Describes (history : List Attempt) (s : StatusStore) : Prop where
  failingSince : s.failingSinceMono = (outage history).head?.map (·.first)
  failedAttempts : s.failedAttempts = (outage history).length
  errorKey : s.lastLoggedKind = (errorLog history).map (·.key)
  errorTime : ∀ m ∈ errorLog history, s.lastLoggedAt = m.time
  sentKey : s.lastSuccessSig = (sentLog history).map (·.key)
  sentTime : ∀ m ∈ sentLog history, s.lastSuccessLogAt = m.time

variable {history : List Attempt} {s : StatusStore} {a : Attempt}

theorem outage_failed {kind : ErrorKind} (h : a.outcome = .error kind) (history : List Attempt) :
    outage (history ++ [a]) = outage history ++ [a] :=
  List.rtakeWhile_concat_pos _ _ _ (by simp [Attempt.failed, h])

theorem outage_ok {sig : String} (h : a.outcome = .ok sig) (history : List Attempt) :
    outage (history ++ [a]) = [] :=
  List.rtakeWhile_concat_neg _ _ _ (by simp [Attempt.failed, h])

/-- A message is new to the two fields of the store when it is new to the log. -/
theorem new_iff_shows {α : Type} [DecidableEq α] {log : Option (Mark α ℚ)} {key : Option α}
    {time : ℚ} (hkey : key = log.map (·.key)) (htime : ∀ m ∈ log, time = m.time) (now : ℚ) (k : α) :
    (some k ≠ key ∨ now - time ≥ repeatLogIntervalSec) ↔
      shows repeatLogIntervalSec log now k = true := by
  subst hkey
  cases log with
  | none => simp [shows]
  | some m =>
    have hne : some k ≠ (some m).map (·.key) ↔ m.key ≠ k := by
      rw [Option.map_some, ne_eq, Option.some_inj]
      exact not_congr eq_comm
    rw [htime m rfl, hne, shows, decide_eq_true_eq]

theorem errorLog_error {kind : ErrorKind} (h : a.outcome = .error kind) (history : List Attempt) :
    errorLog (history ++ [a]) =
      if shows repeatLogIntervalSec (errorLog history) a.first kind then some ⟨kind, a.first⟩
      else errorLog history := by
  have hevent : errorEvent a = .offer a.first kind := by rw [errorEvent, h]
  rw [errorLog, List.map_append, Machine.stateAfter_append, List.map_singleton, hevent]
  rfl

theorem errorLog_ok {sig : String} (h : a.outcome = .ok sig) (history : List Attempt) :
    errorLog (history ++ [a]) = none := by
  have hevent : errorEvent a = .reset := by rw [errorEvent, h]
  rw [errorLog, List.map_append, Machine.stateAfter_append, List.map_singleton, hevent]
  rfl

theorem sentLog_error {kind : ErrorKind} (h : a.outcome = .error kind) (history : List Attempt) :
    sentLog (history ++ [a]) = sentLog history := by
  have hevent : sentEvent a = .pass := by rw [sentEvent, h]
  rw [sentLog, List.map_append, Machine.stateAfter_append, List.map_singleton, hevent]
  rfl

theorem sentLog_ok {sig : String} (h : a.outcome = .ok sig) (history : List Attempt) :
    sentLog (history ++ [a]) =
      if shows repeatLogIntervalSec (sentLog history) a.second sig then some ⟨sig, a.second⟩
      else sentLog history := by
  have hevent : sentEvent a = .offer a.second sig := by rw [sentEvent, h]
  rw [sentLog, List.map_append, Machine.stateAfter_append, List.map_singleton, hevent]
  rfl

/-- The store after a failure, with whatever it then remembers of the lines. -/
theorem describes_failure {kind : ErrorKind} (h : a.outcome = .error kind)
    (hs : Describes history s) {key : Option ErrorKind} {time : ℚ}
    (hkey : key = (errorLog (history ++ [a])).map (·.key))
    (htime : ∀ m ∈ errorLog (history ++ [a]), time = m.time) :
    Describes (history ++ [a])
      { s with
        failingSinceMono := some (s.failingSinceMono.getD a.first)
        failedAttempts := s.failedAttempts + 1
        lastLoggedKind := key
        lastLoggedAt := time } where
  failingSince := by
    rw [outage_failed h, hs.failingSince]
    cases outage history <;> rfl
  failedAttempts := by
    rw [outage_failed h, List.length_append, hs.failedAttempts]
    rfl
  errorKey := hkey
  errorTime := htime
  sentKey := by
    rw [sentLog_error h]
    exact hs.sentKey
  sentTime := by
    rw [sentLog_error h]
    exact hs.sentTime

theorem suffix_eq (hs : Describes history s) (a : Attempt) :
    (if s.failedAttempts + 1 > 1 then
      some (((some (s.failingSinceMono.getD a.first)).map fun since => a.second - since).getD 0,
        s.failedAttempts + 1)
    else none) =
    if outage history = [] then none else
      some (a.second - ((outage history).head?.getD a).first, (outage history).length + 1) := by
  rw [hs.failedAttempts, hs.failingSince]
  cases outage history with
  | nil => rfl
  | cons f fs => simp

theorem logOutcome_error {kind : ErrorKind} (h : a.outcome = .error kind)
    (hs : Describes history s) :
    (journal.out s a =
      if shows repeatLogIntervalSec (errorLog history) a.first kind then
        [.failure kind (if outage history = [] then none else
          some (a.second - ((outage history).head?.getD a).first, (outage history).length + 1))]
      else []) ∧
    Describes (history ++ [a]) (journal.next s a) := by
  have hnew := new_iff_shows hs.errorKey hs.errorTime a.first kind
  have hlog := errorLog_error h history
  by_cases hshow : shows repeatLogIntervalSec (errorLog history) a.first kind = true
  · rw [if_pos hshow] at hlog ⊢
    simp only [journal, logOutcome, h, shouldLogError, if_pos (hnew.mpr hshow)]
    refine ⟨?_, describes_failure h hs (by rw [hlog]; rfl) ?_⟩
    · rw [← suffix_eq hs a]
      rfl
    · rw [hlog]
      rintro _ ⟨⟩
      rfl
  · rw [if_neg hshow] at hlog ⊢
    simp only [journal, logOutcome, h, shouldLogError, if_neg (hnew.not.mpr hshow)]
    refine ⟨rfl, describes_failure h hs ?_ ?_⟩
    · rw [hlog]
      exact hs.errorKey
    · rw [hlog]
      exact hs.errorTime

/-- The store after a success, with whatever it then remembers of the lines. -/
theorem describes_success {sig : String} (h : a.outcome = .ok sig) {key : Option String} {time : ℚ}
    (hkey : key = (sentLog (history ++ [a])).map (·.key))
    (htime : ∀ m ∈ sentLog (history ++ [a]), time = m.time) :
    Describes (history ++ [a])
      { lastSuccessSig := key
        lastSuccessLogAt := time } where
  failingSince := by
    rw [outage_ok h]
    rfl
  failedAttempts := by
    rw [outage_ok h]
    rfl
  errorKey := by
    rw [errorLog_ok h]
    rfl
  errorTime := by
    rw [errorLog_ok h]
    exact nofun
  sentKey := hkey
  sentTime := htime

theorem logOutcome_ok {sig : String} (h : a.outcome = .ok sig) (hs : Describes history s) :
    (journal.out s a =
      (outage history).head?.toList.map (fun f => .recovered (a.first - f.first)) ++
        if shows repeatLogIntervalSec (sentLog history) a.second sig then [.sent sig] else []) ∧
    Describes (history ++ [a]) (journal.next s a) := by
  have hnew := new_iff_shows hs.sentKey hs.sentTime a.second sig
  have hlog := sentLog_ok h history
  have hrecovered : (outageSeconds a.first s).toList.map Line.recovered =
      (outage history).head?.toList.map fun f => .recovered (a.first - f.first) := by
    rw [outageSeconds, hs.failingSince]
    cases outage history <;> rfl
  by_cases hshow : shows repeatLogIntervalSec (sentLog history) a.second sig = true
  · have hwrite : shouldLogSuccess sig a.second (clearError a.first s).2 =
        (true, { lastSuccessSig := some sig, lastSuccessLogAt := a.second }) :=
      if_pos (hnew.mpr hshow)
    have hstep : logOutcome a s = ((outageSeconds a.first s).toList.map .recovered ++ [.sent sig],
        { lastSuccessSig := some sig, lastSuccessLogAt := a.second }) := by
      unfold logOutcome
      rw [h]
      simp only [hwrite]
      rfl
    rw [if_pos hshow] at hlog ⊢
    simp only [journal, hstep]
    refine ⟨by rw [hrecovered], describes_success h (by rw [hlog]; rfl) ?_⟩
    rw [hlog]
    rintro _ ⟨⟩
    rfl
  · have hkeep : shouldLogSuccess sig a.second (clearError a.first s).2 =
        (false, { lastSuccessSig := s.lastSuccessSig, lastSuccessLogAt := s.lastSuccessLogAt }) :=
      if_neg (hnew.not.mpr hshow)
    have hstep : logOutcome a s = ((outageSeconds a.first s).toList.map .recovered ++ [],
        { lastSuccessSig := s.lastSuccessSig, lastSuccessLogAt := s.lastSuccessLogAt }) := by
      unfold logOutcome
      rw [h]
      simp only [hkeep]
      rfl
    rw [if_neg hshow] at hlog ⊢
    simp only [journal, hstep]
    refine ⟨by rw [hrecovered], describes_success h ?_ ?_⟩
    · rw [hlog]
      exact hs.sentKey
    · rw [hlog]
      exact hs.sentTime

theorem describes_init : Describes [] {} :=
  ⟨rfl, rfl, rfl, nofun, rfl, nofun⟩

theorem describes_stateAfter (history : List Attempt) :
    Describes history (journal.stateAfter {} history) := by
  induction history using List.reverseRecOn with
  | nil => exact describes_init
  | append_singleton history a ih =>
    rw [Machine.stateAfter_append]
    cases h : a.outcome with
    | error kind => exact (logOutcome_error h ih).2
    | ok sig => exact (logOutcome_ok h ih).2

/-! ### The lines of a history -/

theorem linesAfter_error {kind : ErrorKind} (h : a.outcome = .error kind) (history : List Attempt) :
    linesAfter history a =
      if shows repeatLogIntervalSec (errorLog history) a.first kind then
        [.failure kind (if outage history = [] then none else
          some (a.second - ((outage history).head?.getD a).first, (outage history).length + 1))]
      else [] :=
  (logOutcome_error h (describes_stateAfter history)).1

theorem linesAfter_ok {sig : String} (h : a.outcome = .ok sig) (history : List Attempt) :
    linesAfter history a =
      (outage history).head?.toList.map (fun f => .recovered (a.first - f.first)) ++
        if shows repeatLogIntervalSec (sentLog history) a.second sig then [.sent sig] else [] :=
  (logOutcome_ok h (describes_stateAfter history)).1

theorem errorEvent_repeats {kind : ErrorKind} :
    (errorEvent a).Repeats kind ↔ a.outcome = .error kind := by
  unfold errorEvent
  cases a.outcome with
  | error k => simp [Event.Repeats]
  | ok sig => simp [Event.Repeats]

theorem sentEvent_repeats {sig : String} :
    (sentEvent a).Repeats sig ↔ ∀ other, a.outcome = .ok other → other = sig := by
  unfold sentEvent
  cases a.outcome with
  | error k => simp [Event.Repeats]
  | ok other => simp [Event.Repeats]

theorem errorEvent_eq_offer {t : ℚ} {kind : ErrorKind} (h : errorEvent a = .offer t kind) :
    a.outcome = .error kind ∧ a.first = t := by
  unfold errorEvent at h
  cases hout : a.outcome with
  | error k =>
    rw [hout] at h
    cases h
    exact ⟨rfl, rfl⟩
  | ok sig =>
    rw [hout] at h
    cases h

theorem sentEvent_eq_offer {t : ℚ} {sig : String} (h : sentEvent a = .offer t sig) :
    a.outcome = .ok sig ∧ a.second = t := by
  unfold sentEvent at h
  cases hout : a.outcome with
  | error k =>
    rw [hout] at h
    cases h
  | ok other =>
    rw [hout] at h
    cases h
    exact ⟨rfl, rfl⟩

theorem failure_covered {kind : ErrorKind}
    (h : shows repeatLogIntervalSec (errorLog history) a.first kind = false) :
    ∃ ys b zs, history = ys ++ b :: zs ∧ linesAfter ys b ≠ [] ∧
      a.first - b.first < repeatLogIntervalSec ∧ ∀ c ∈ b :: zs, c.outcome = .error kind := by
  obtain ⟨ys', t, zs', hsplit, hshow, hrecent, hrepeats⟩ := covered h
  obtain ⟨ys, tail, rfl, rfl, htail⟩ := List.map_eq_append_iff.mp hsplit
  obtain ⟨b, zs, rfl, hb, rfl⟩ := List.map_eq_cons_iff.mp htail
  obtain ⟨hkind, rfl⟩ := errorEvent_eq_offer hb
  have hshow : shows repeatLogIntervalSec (errorLog ys) b.first kind = true := hshow
  refine ⟨ys, b, zs, rfl, ?_, hrecent, ?_⟩
  · rw [linesAfter_error hkind, if_pos hshow]
    exact List.cons_ne_nil _ _
  · rw [List.forall_mem_cons]
    exact ⟨hkind, fun c hc => errorEvent_repeats.mp (hrepeats _ (List.mem_map_of_mem hc))⟩

theorem success_covered {sig : String}
    (h : shows repeatLogIntervalSec (sentLog history) a.second sig = false) :
    ∃ ys b zs, history = ys ++ b :: zs ∧ b.outcome = .ok sig ∧ .sent sig ∈ linesAfter ys b ∧
      a.second - b.second < repeatLogIntervalSec ∧
      ∀ c ∈ zs, ∀ other, c.outcome = .ok other → other = sig := by
  obtain ⟨ys', t, zs', hsplit, hshow, hrecent, hrepeats⟩ := covered h
  obtain ⟨ys, tail, rfl, rfl, htail⟩ := List.map_eq_append_iff.mp hsplit
  obtain ⟨b, zs, rfl, hb, rfl⟩ := List.map_eq_cons_iff.mp htail
  obtain ⟨hsig, rfl⟩ := sentEvent_eq_offer hb
  have hshow : shows repeatLogIntervalSec (sentLog ys) b.second sig = true := hshow
  refine ⟨ys, b, zs, rfl, hsig, ?_, hrecent, ?_⟩
  · rw [linesAfter_ok hsig, if_pos hshow]
    exact List.mem_append_right _ List.mem_cons_self
  · intro c hc
    exact sentEvent_repeats.mp (hrepeats _ (List.mem_map_of_mem hc))

/-- The monotonic clock does not go back from one attempt to a later one. -/
def InOrder (history : List Attempt) : Prop :=
  history.Pairwise fun a b => a.first ≤ b.first ∧ a.second ≤ b.second

theorem failure_spaced (hclock : InOrder history) {kind : ErrorKind}
    (h : shows repeatLogIntervalSec (errorLog history) a.first kind = true) {ys zs : List Attempt}
    {b : Attempt} (hsplit : history = ys ++ b :: zs) (hwritten : linesAfter ys b ≠ [])
    (hzs : ∀ c ∈ b :: zs, c.outcome = .error kind) :
    repeatLogIntervalSec ≤ a.first - b.first := by
  subst hsplit
  obtain ⟨hb, hzs⟩ := List.forall_mem_cons.mp hzs
  have hbehind : ∀ c ∈ zs, b.first ≤ c.first ∧ b.second ≤ c.second := fun c hc =>
    List.rel_of_pairwise_cons (List.pairwise_append.mp hclock).2.1 hc
  have hshown : shows repeatLogIntervalSec (errorLog ys) b.first kind = true := by
    by_contra hnot
    rw [linesAfter_error hb, if_neg hnot] at hwritten
    exact hwritten rfl
  have hevent : errorEvent b = .offer b.first kind := by rw [errorEvent, hb]
  rw [errorLog, List.map_append, List.map_cons, hevent] at h
  refine spaced hshown ?_ h
  intro e he
  obtain ⟨c, hc, rfl⟩ := List.mem_map.mp he
  refine ⟨errorEvent_repeats.mpr (hzs c hc), ?_⟩
  rw [errorEvent, hzs c hc]
  exact (hbehind c hc).1

theorem success_spaced (hclock : InOrder history) {sig : String}
    (h : shows repeatLogIntervalSec (sentLog history) a.second sig = true) {ys zs : List Attempt}
    {b : Attempt} (hsplit : history = ys ++ b :: zs) (hb : b.outcome = .ok sig)
    (hwritten : .sent sig ∈ linesAfter ys b)
    (hzs : ∀ c ∈ zs, ∀ other, c.outcome = .ok other → other = sig) :
    repeatLogIntervalSec ≤ a.second - b.second := by
  subst hsplit
  have hbehind : ∀ c ∈ zs, b.first ≤ c.first ∧ b.second ≤ c.second := fun c hc =>
    List.rel_of_pairwise_cons (List.pairwise_append.mp hclock).2.1 hc
  have hshown : shows repeatLogIntervalSec (sentLog ys) b.second sig = true := by
    by_contra hnot
    rw [linesAfter_ok hb, if_neg hnot, List.append_nil] at hwritten
    obtain ⟨f, _, hf⟩ := List.mem_map.mp hwritten
    cases hf
  have hevent : sentEvent b = .offer b.second sig := by rw [sentEvent, hb]
  rw [sentLog, List.map_append, List.map_cons, hevent] at h
  refine spaced hshown ?_ h
  intro e he
  obtain ⟨c, hc, rfl⟩ := List.mem_map.mp he
  refine ⟨sentEvent_repeats.mpr (hzs c hc), ?_⟩
  unfold sentEvent
  cases c.outcome with
  | error k => trivial
  | ok other => exact (hbehind c hc).2

/-- **The log of the export tells every outage.**  A failure writes nothing only within an hour
    after a line of its own kind with nothing but failures of this kind since, and a line repeats
    such a line only after the hour; it carries the length of the outage so far and its number of
    attempts.  A success ends an outage with a line of its whole length, and its own line is kept
    back only within an hour while the signature stays the same. -/
theorem outage_journal (history : List Attempt) (hclock : InOrder history) (a : Attempt) :
    (∀ kind, a.outcome = .error kind →
      (linesAfter history a = [] ∧ ∃ ys b zs, history = ys ++ b :: zs ∧ linesAfter ys b ≠ [] ∧
        a.first - b.first < repeatLogIntervalSec ∧ ∀ c ∈ b :: zs, c.outcome = .error kind) ∨
      (linesAfter history a = [.failure kind (if outage history = [] then none else
          some (a.second - ((outage history).head?.getD a).first, (outage history).length + 1))] ∧
        ∀ ys b zs, history = ys ++ b :: zs → linesAfter ys b ≠ [] →
          (∀ c ∈ b :: zs, c.outcome = .error kind) →
          repeatLogIntervalSec ≤ a.first - b.first)) ∧
    (∀ sig, a.outcome = .ok sig → ∃ sent, linesAfter history a =
        (outage history).head?.toList.map (fun f => .recovered (a.first - f.first)) ++ sent ∧
      ((sent = [] ∧ ∃ ys b zs, history = ys ++ b :: zs ∧ b.outcome = .ok sig ∧
          .sent sig ∈ linesAfter ys b ∧ a.second - b.second < repeatLogIntervalSec ∧
          ∀ c ∈ zs, ∀ other, c.outcome = .ok other → other = sig) ∨
        (sent = [.sent sig] ∧ ∀ ys b zs, history = ys ++ b :: zs → b.outcome = .ok sig →
          .sent sig ∈ linesAfter ys b → (∀ c ∈ zs, ∀ other, c.outcome = .ok other → other = sig) →
          repeatLogIntervalSec ≤ a.second - b.second))) := by
  refine ⟨?_, ?_⟩
  · intro kind hkind
    rw [linesAfter_error hkind]
    cases hshow : shows repeatLogIntervalSec (errorLog history) a.first kind with
    | false => exact .inl ⟨rfl, failure_covered hshow⟩
    | true => exact .inr ⟨rfl, fun _ _ _ => failure_spaced hclock hshow⟩
  · intro sig hsig
    rw [linesAfter_ok hsig]
    refine ⟨_, rfl, ?_⟩
    cases hshow : shows repeatLogIntervalSec (sentLog history) a.second sig with
    | false => exact .inl ⟨rfl, success_covered hshow⟩
    | true => exact .inr ⟨rfl, fun _ _ _ => success_spaced hclock hshow⟩

private def refusedAt (t : ℚ) : Attempt := ⟨.error .refused, t, t⟩

theorem outage_journal_refused :
    linesAfter [refusedAt 0, refusedAt 300] (refusedAt 3600) =
      [.failure .refused (some (3600, 3))] := by
  have hclock : InOrder [refusedAt 0, refusedAt 300] := by
    simp [InOrder, refusedAt]
  rcases (outage_journal _ hclock (refusedAt 3600)).1 .refused rfl with
    ⟨_, ys, b, zs, hsplit, hwritten, hrecent, _⟩ | ⟨hlines, _⟩
  · cases ys with
    | nil =>
      cases hsplit
      exact absurd hrecent (by decide +kernel)
    | cons y ys =>
      cases ys with
      | nil =>
        cases hsplit
        exact absurd hwritten (by decide +kernel)
      | cons y' ys => simp at hsplit
  · rw [hlines]
    decide +kernel

end Srp.Zabbix
