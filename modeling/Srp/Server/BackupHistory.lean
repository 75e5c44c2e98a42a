/-
  Srp/Server/BackupHistory.lean
  =============================
  **Copies and restores over the life of a server.**

  A site is one database and one directory of copies.  In any order the server and
  its operator change files, copies are taken and copies are restored, and any of
  the calls may fail.  A restore is one from a copy with no journal beside it; what
  closing a connection makes of the live files is a change of theirs.

  * `restore_history`: what a restore set aside stays there for good.
  * `never_without_copy`: once there is a checked copy there always is one.
  * `copy_comes_back`: a copy that the pruning has not taken restores the database as
    it was when the copy was made.
-/
import Srp.Server.BackupRuns
import Srp.Server.Restore

namespace Srp.Server.Backup

open Srp.Lib

variable {β : Type}

inductive Event (β : Type) where
  | change (p : Path) (f : Option (File β))
  | backup (calls : RunCalls β) (keep : Int) (extras : List Path)
  | restore (calls : RestoreCalls β) (copy : Path)

/-- The files under the events. -/
def site (D : Digits) (S : Sqlite β) (database : Path) (directory : List Char) :
    Machine (Files β) (Event β) Unit where
  next d
    | .change p (some f) => d.write p f
    | .change p none => d.remove p
    | .backup calls keep extras => (run D S calls database directory keep extras d).1
    | .restore calls copy => (restore S calls copy database d).1
  out _ _ := ()

/-- `p` is a file set aside by a restore, or a copy or what lies beside one. -/
def Guarded (D : Digits) (database : Path) (directory : List Char) (p : Path) : Prop :=
  (∃ rest, p = database.withName (database.name ++ ".before-restore-".toList ++ rest)) ∨
    ∃ u, isStampText D u = true ∧ Belongs ⟨directory, copyName (stem database.name) u⟩ p

/-- Others leave the guarded files alone, and no name has a line break. -/
def Quiet (D : Digits) (database : Path) (directory : List Char) : Event β → Prop
  | .change p _ => ¬ Guarded D database directory p ∧ '\n' ∉ p.name
  | .backup _ _ extras => ∀ e ∈ extras, '\n' ∉ e.name ∧ e.name ≠ "db".toList
  | .restore _ _ => True

/-- What a restore copies has no journal beside it. -/
def FromBare (d : Files β) : Event β → Prop
  | .restore _ copy => Bare d copy
  | .change _ _ => True
  | .backup _ _ _ => True

/-- No name has a line break. -/
def OneLine (d : Files β) : Prop := ∀ p, d.has p = true → '\n' ∉ p.name

section

variable {D : Digits} {S : Sqlite β} {database : Path} {directory : List Char} {d : Files β}

/-! ### Names have no line breaks -/

theorem line_not_mem_numbered {name : List Char} (h : '\n' ∉ name) (k : Nat) :
    '\n' ∉ numbered name k := by
  unfold numbered
  split
  · exact h
  · intro hmem
    rcases List.mem_append.mp hmem with hmem | hmem
    · exact h hmem
    · rcases List.mem_cons.mp hmem with hmem | hmem
      · exact absurd hmem (by decide)
      · exact absurd (Nat.isDigit_of_mem_toDigits (by decide) (by decide) hmem) (by decide)

theorem line_not_mem_stamp (now : Stamp) : '\n' ∉ now.text := by
  obtain ⟨day, time, htext, _, _, hd, ht⟩ := isStamp_iff.mp now.wellFormed
  rw [htext]
  intro hmem
  rcases List.mem_append.mp hmem with hmem | hmem
  · exact absurd (hd _ hmem) (by decide)
  · rcases List.mem_cons.mp hmem with hmem | hmem
    · exact absurd hmem (by decide)
    · exact absurd (ht _ hmem) (by decide)

theorem line_not_mem_append {a b : List Char} (ha : '\n' ∉ a) (hb : '\n' ∉ b) : '\n' ∉ a ++ b :=
  fun h => (List.mem_append.mp h).elim ha hb

theorem line_not_mem_suffix {s : List Char} (hs : s ∈ suffixes) : '\n' ∉ s := by
  simp only [suffixes, List.mem_cons, List.not_mem_nil, or_false] at hs
  rcases hs with rfl | rfl | rfl <;> decide

theorem line_not_mem_staged (hdb : '\n' ∉ database.name) (calls : RestoreCalls β) :
    '\n' ∉ (stagedPath calls database).name := by
  have hpid : '\n' ∉ Nat.toDigits 10 calls.pid := fun h =>
    absurd (Nat.isDigit_of_mem_toDigits (by decide) (by decide) h) (by decide)
  have htail : '\n' ∉ '.' :: Nat.toDigits 10 calls.pid := by
    intro h
    rcases List.mem_cons.mp h with h | h
    · exact absurd h (by decide)
    · exact hpid h
  exact line_not_mem_append (line_not_mem_append (fun h => hdb (mem_stem h)) htail) (by decide)

theorem line_not_mem_aside (hdb : '\n' ∉ database.name) (calls : RestoreCalls β) (k : Nat)
    {s : List Char} (hs : s ∈ suffixes) : '\n' ∉ (aside calls database k s).name :=
  line_not_mem_append (line_not_mem_numbered (line_not_mem_append (line_not_mem_append hdb
    (by decide)) (line_not_mem_stamp _)) k) (line_not_mem_suffix hs)

theorem plainNames_of_quiet (hdb : '\n' ∉ database.name) (hd : OneLine d) {calls : RunCalls β}
    {keep : Int} {extras : List Path}
    (hquiet : Quiet D database directory (.backup calls keep extras)) :
    PlainNames database extras d := ⟨hd, hdb, hquiet⟩

/-- No event makes a name with a line break. -/
theorem oneLine_next (hdb : '\n' ∉ database.name) (hd : OneLine d) {e : Event β}
    (hquiet : Quiet D database directory e) :
    OneLine ((site D S database directory).next d e) := by
  intro p hp
  cases e with
  | change q f =>
    cases f with
    | none =>
      apply hd p
      unfold Directory.has at hp ⊢
      simp only [site, Directory.read_remove] at hp
      split at hp
      · cases hp
      · exact hp
    | some f =>
      unfold Directory.has at hp
      simp only [site, Directory.read_write] at hp
      split at hp
      · rename_i heq
        rw [heq]
        exact hquiet.2
      · exact hd p hp
  | backup calls keep extras =>
    have hplain := plainNames_of_quiet hdb hd hquiet
    rcases run_frame D S calls database directory keep hplain p with h | h | ⟨_, h⟩
    · apply hd p
      unfold Directory.has at hp ⊢
      rw [← h]
      exact hp
    · exact written_plain hplain h
    · unfold Directory.has at hp
      simp only [site, h] at hp
      cases hp
  | restore calls copy =>
    intro hline
    obtain ⟨k, _, _, hframe⟩ := restore_frame S calls copy database d
    have hlive : ∀ s ∈ suffixes, p ≠ live database s := by
      rintro s hs rfl
      exact line_not_mem_append hdb (line_not_mem_suffix hs) hline
    have hsame := hframe p (fun h => line_not_mem_staged hdb calls (h ▸ hline)) hlive
      fun s hs h => line_not_mem_aside hdb calls k hs (h ▸ hline)
    refine hd p ?_ hline
    unfold Directory.has at hp ⊢
    rw [← hsame]
    exact hp

/-! ### Files set aside -/

theorem aside_guarded (calls : RestoreCalls β) (k : Nat) (s : List Char) :
    Guarded D database directory (aside calls database k s) := by
  left
  unfold aside asideBase numbered
  split
  · exact ⟨calls.now.text ++ s, by simp⟩
  · exact ⟨calls.now.text ++ '-' :: Nat.toDigits 10 k ++ s, by simp⟩

/-- A file set aside lies beside no copy: behind the stem comes a dot, not a dash. -/
theorem aside_not_belongs (calls : RestoreCalls β) (k : Nat) (s u : List Char) :
    ¬ Belongs ⟨directory, copyName (stem database.name) u⟩ (aside calls database k s) := by
  rintro ⟨_, rest, hrest⟩
  obtain ⟨tail, htail⟩ := asideBase_eq calls database k
  simp only [aside, Path.withName, stem_copyName, htail] at hrest
  have hstem := stem_eq_or database.name
  generalize stem database.name = st at hrest hstem
  generalize extension database.name = ext at hstem
  generalize database.name = name at hrest hstem
  rcases hstem with rfl | rfl <;> simp at hrest

/-- No event takes a file set aside with its database. -/
theorem aside_next (hdb : '\n' ∉ database.name) (hd : OneLine d) {e : Event β}
    (hquiet : Quiet D database directory e) {calls : RestoreCalls β} {k : Nat}
    (hbase : d.has (aside calls database k []) = true) {s : List Char} (hs : s ∈ suffixes) :
    ((site D S database directory).next d e).read (aside calls database k s) =
      d.read (aside calls database k s) := by
  cases e with
  | change q f =>
    have hne : aside calls database k s ≠ q := by
      rintro rfl
      exact hquiet.1 (aside_guarded calls k s)
    cases f with
    | none => exact (d.read_remove q _).trans (if_neg hne)
    | some f => exact (d.read_write q _ f).trans (if_neg hne)
  | backup calls' keep extras =>
    have hplain := plainNames_of_quiet hdb hd hquiet
    obtain ⟨u, _, _, heq, _⟩ := freshPath_eq (D := D) calls' database directory d
    rcases run_frame D S calls' database directory keep hplain (aside calls database k s) with
      h | h | ⟨⟨c, hold, hc⟩, _⟩
    · exact h
    · have hbelongs := written_belongs h
      rw [heq] at hbelongs
      exact absurd hbelongs (aside_not_belongs calls k s u)
    · obtain ⟨v, _, rfl, _⟩ := hold.copy hplain
      exact absurd hc (aside_not_belongs calls k s v)
  | restore calls' copy =>
    have hdigit := getLast_asideBase calls database k
    obtain ⟨k', _, hfree, hframe⟩ := restore_frame S calls' copy database d
    apply hframe
    · intro h
      exact staged_ne_append calls' database hs (Or.inr hdigit) (congrArg Path.name h).symm
    · intro r hr h
      exact live_ne_aside calls database k hr (congrArg Path.name h).symm
    · intro r hr h
      obtain ⟨hsame, _⟩ := append_suffix_inj hs hr hdigit (getLast_asideBase calls' database k')
        (congrArg Path.name h)
      have hbase' : aside calls database k [] = aside calls' database k' [] :=
        Path.withName_inj.mpr (by rw [hsame])
      rw [hbase'] at hbase
      simp [Directory.has, hfree] at hbase

theorem oneLine_run (hdb : '\n' ∉ database.name) (hd : OneLine d) {events : List (Event β)}
    (hquiet : ∀ e ∈ events, Quiet D database directory e) :
    OneLine ((site D S database directory).stateAfter d events) := by
  refine Machine.stateAfter_invariant_along (C := fun _ e => Quiet D database directory e) ?_ hd
    (Machine.along_iff_forall.mpr hquiet)
  exact fun d e hd he => oneLine_next hdb hd he

/-- What a restore set aside together with the database is there for good: no later restore, copy
    or failure of either takes it. -/
theorem restore_history (D : Digits) (S : Sqlite β) (database : Path) (directory : List Char)
    (d : Files β) (events : List (Event β)) (hdb : '\n' ∉ database.name) (hd : OneLine d)
    (hevents : (site D S database directory).Along
      (fun d e => Quiet D database directory e ∧ FromBare d e) d events) {i : Nat}
    {calls : RestoreCalls β} {copy : Path} (hi : events[i]? = some (.restore calls copy)) {res : RestoreResult}
    (hres : (restore S calls copy database
      ((site D S database directory).stateAfter d (events.take i))).2 = .ok res)
    (hhas : ((site D S database directory).stateAfter d (events.take i)).has database = true) :
    ∃ k, res.previous = some (aside calls database k []) ∧ ∀ s ∈ suffixes, ∀ f,
      ((site D S database directory).stateAfter d (events.take i)).read (live database s) = some f →
        ((site D S database directory).stateAfter d events).read (aside calls database k s) =
          some f := by
  have hstep : ∀ (d : Files β) (e : Event β), True → Quiet D database directory e ∧ FromBare d e →
      Quiet D database directory e ∧ True := fun _ _ _ h => ⟨h.1, True.intro⟩
  have hquiet : ∀ e ∈ events, Quiet D database directory e :=
    Machine.along_iff_forall.mp (hevents.imp_of_invariant hstep True.intro)
  have hlines : ∀ n, OneLine ((site D S database directory).stateAfter d (events.take n)) := by
    intro n
    apply oneLine_run hdb hd
    exact fun e he => hquiet e (List.mem_of_mem_take he)
  obtain ⟨k, _, hk, _, _, _, _, hprevious, hrestored⟩ := restore_ok S calls copy database _ hres
  rw [if_pos hhas] at hprevious
  refine ⟨k, hprevious, ?_⟩
  have hsplit : events = events.take (i + 1) ++ events.drop (i + 1) :=
    (List.take_append_drop (i + 1) events).symm
  have hstep := (site D S database directory).stateAfter_take_succ d hi
  have hkept := hrestored.kept
  rw [show (restore S calls copy database
    ((site D S database directory).stateAfter d (events.take i))).1 =
      (site D S database directory).stateAfter d (events.take (i + 1)) from hstep.symm] at hkept
  let Kept (d' : Files β) : Prop := OneLine d' ∧ ∀ s ∈ suffixes,
    d'.read (aside calls database k s) =
      ((site D S database directory).stateAfter d (events.take (i + 1))).read
        (aside calls database k s)
  have hrest : Kept ((site D S database directory).stateAfter
      ((site D S database directory).stateAfter d (events.take (i + 1))) (events.drop (i + 1))) := by
    refine Machine.stateAfter_invariant_along (C := fun _ e => Quiet D database directory e) ?_
      ⟨hlines (i + 1), fun _ _ => rfl⟩
      (Machine.along_iff_forall.mpr fun e he => hquiet e (List.mem_of_mem_drop he))
    intro d' e ⟨hd', hsame⟩ he
    have hnil : ([] : List Char) ∈ suffixes := by simp [suffixes]
    have hbase : d'.has (aside calls database k []) = true := by
      have hlive := hkept [] hnil
      rw [live_nil, if_pos hhas] at hlive
      unfold Directory.has at hhas ⊢
      rw [hsame [] hnil, hlive]
      exact hhas
    refine ⟨oneLine_next hdb hd' he, ?_⟩
    intro s hs
    exact (aside_next hdb hd' he hbase hs).trans (hsame s hs)
  intro s hs f hf
  have hlive : ((site D S database directory).stateAfter d (events.take i)).has
      (live database s) = true := by
    simp [Directory.has, hf]
  rw [hsplit, Machine.stateAfter_append, hrest.2 s hs, hkept s hs, if_pos hlive, hf]

/-! The sample database, restored twice from its copy. -/

def allDone : RestoreCalls Nat := sampleRestore fun _ _ => .done

def sampleEvents : List (Event Nat) :=
  [.restore allDone sampleCopy, .restore allDone sampleCopy]

theorem sampleFiles_oneLine : OneLine sampleFiles := sampleFiles_plain.entries

theorem restore_history_twice :
    ∃ k, some (sampleDatabase.withName "srp.db.before-restore-20250102-000000".toList) =
        some (aside allDone sampleDatabase k []) ∧
      ∀ s ∈ suffixes, ∀ f, sampleFiles.read (live sampleDatabase s) = some f →
        ((site sampleDigits sampleSqlite sampleDatabase "backups".toList).stateAfter sampleFiles
          sampleEvents).read (aside allDone sampleDatabase k s) = some f :=
  restore_history sampleDigits sampleSqlite sampleDatabase "backups".toList sampleFiles sampleEvents
    (by decide) sampleFiles_oneLine
    ⟨⟨True.intro, sampleCopy_bare⟩, ⟨True.intro, by unfold FromBare; decide +kernel⟩, True.intro⟩
    (show sampleEvents[0]? = some (.restore allDone sampleCopy) from rfl)
    (show _ = Except.ok (RestoreResult.mk sampleDatabase
      (some (sampleDatabase.withName "srp.db.before-restore-20250102-000000".toList))) from rfl) rfl

/-! ### Copies -/

theorem copyName_getLast (st u : List Char) : (copyName st u).getLast? = some 'b' := by
  simp [copyName, List.getLast?_append, List.getLast?_cons]

/-- A restore does not touch the copies. -/
theorem copy_restore (S : Sqlite β) (calls : RestoreCalls β) (copy : Path) (u : List Char) :
    (restore S calls copy database d).1.read ⟨directory, copyName (stem database.name) u⟩ =
      d.read ⟨directory, copyName (stem database.name) u⟩ := by
  obtain ⟨k, _, _, hframe⟩ := restore_frame S calls copy database d
  have hlast := copyName_getLast (stem database.name) u
  apply hframe
  · intro h
    exact ne_of_getLast hlast (getLast_staged calls database) (by decide) (congrArg Path.name h)
  · intro s hs h
    have hname : copyName (stem database.name) u = database.name ++ s := congrArg Path.name h
    rcases getLast_append_suffix (t := database.name) hs with ⟨rfl, _⟩ | hl | hm
    · -- the database's own name would be its stem and more
      rw [List.append_nil] at hname
      have hstem := stem_copyName (stem database.name) u
      rw [hname] at hstem
      have hlen := congrArg List.length hstem
      simp at hlen
    · exact ne_of_getLast hlast hl (by decide) hname
    · exact ne_of_getLast hlast hm (by decide) hname
  · intro s hs h
    have hname : copyName (stem database.name) u = asideBase calls database k ++ s :=
      congrArg Path.name h
    obtain ⟨c, hc, hdigit⟩ := getLast_asideBase calls database k
    rcases getLast_append_suffix (t := asideBase calls database k) hs with ⟨rfl, hl⟩ | hl | hm
    · refine ne_of_getLast hlast (hl.trans hc) ?_ hname
      rintro rfl
      exact absurd hdigit (by decide)
    · exact ne_of_getLast hlast hl (by decide) hname
    · exact ne_of_getLast hlast hm (by decide) hname

/-- A copy outlives every event but a run that finds it old. -/
theorem copy_next (hdb : '\n' ∉ database.name) (hd : OneLine d) {e : Event β}
    (hquiet : Quiet D database directory e) {u : List Char} (hu : isStampText D u = true)
    {f : File β} (hf : d.read ⟨directory, copyName (stem database.name) u⟩ = some f)
    (hold : ∀ calls keep extras, e = .backup calls keep extras →
      ¬ Old D calls database directory keep d ⟨directory, copyName (stem database.name) u⟩) :
    ((site D S database directory).next d e).read ⟨directory, copyName (stem database.name) u⟩ =
      some f := by
  cases e with
  | change q g =>
    have hne : (⟨directory, copyName (stem database.name) u⟩ : Path) ≠ q := by
      rintro rfl
      exact hquiet.1 (Or.inr ⟨u, hu, belongs_self _ _ _⟩)
    cases g with
    | none => exact ((d.read_remove q _).trans (if_neg hne)).trans hf
    | some g => exact ((d.read_write q _ g).trans (if_neg hne)).trans hf
  | backup calls keep extras =>
    have hplain := plainNames_of_quiet hdb hd hquiet
    rcases run_frame D S calls database directory keep hplain
      ⟨directory, copyName (stem database.name) u⟩ with h | h | ⟨⟨c, hc, hbelongs⟩, _⟩
    · exact h.trans hf
    · have hline := written_plain hplain h
      have heq := eq_fresh_of_written hplain h ((isCopyName_iff (D := D) hline).mpr ⟨u, hu, rfl⟩)
      obtain ⟨_, _, _, _, hfree⟩ := freshPath_eq (D := D) calls database directory d
      rw [heq, hfree] at hf
      cases hf
    · obtain ⟨v, hv, rfl, _⟩ := hc.copy hplain
      rw [belongs_unique hv hu hbelongs (belongs_self _ _ _)] at hc
      exact absurd hc (hold calls keep extras rfl)
  | restore calls copy => exact (copy_restore S calls copy u).trans hf

/-- There is a copy that passes the check. -/
def HasCopy (D : Digits) (S : Sqlite β) (database : Path) (directory : List Char) (d : Files β) :
    Prop :=
  ∃ u f, isStampText D u = true ∧ d.read ⟨directory, copyName (stem database.name) u⟩ = some f ∧
    f.isFile = true ∧ verify S f.content = none

/-- A run that finds a copy old leaves a new one, or leaves the old one. -/
theorem hasCopy_run (hdb : '\n' ∉ database.name) (hd : OneLine d) {calls : RunCalls β} {keep : Int}
    {extras : List Path} (hquiet : Quiet D database directory (.backup calls keep extras))
    (hcopy : HasCopy D S database directory d) :
    HasCopy D S database directory (run D S calls database directory keep extras d).1 := by
  have hplain := plainNames_of_quiet hdb hd hquiet
  obtain ⟨u, f, hu, hf, hfile, hverify⟩ := hcopy
  have hkeep : ∀ d' : Files β, d'.read ⟨directory, copyName (stem database.name) u⟩ =
      d.read ⟨directory, copyName (stem database.name) u⟩ → HasCopy D S database directory d' :=
    fun d' h => ⟨u, f, hu, h.trans hf, hfile, hverify⟩
  have htouch : ¬ Touches calls database directory extras d
      ⟨directory, copyName (stem database.name) u⟩ := by
    intro h
    have hline := written_plain hplain h
    have heq := eq_fresh_of_written hplain h ((isCopyName_iff (D := D) hline).mpr ⟨u, hu, rfl⟩)
    obtain ⟨_, _, _, _, hfree⟩ := freshPath_eq (D := D) calls database directory d
    rw [heq, hfree] at hf
    cases hf
  rcases run_cases D S calls database directory keep extras d with ⟨heq, _⟩ | ⟨db, _, hrest⟩
  · exact hkeep _ (by rw [heq])
  obtain ⟨hread, hchecked, hsecond, hdone⟩ :=
    read_before_prune S calls database directory hplain db.content
  rcases hrest with ⟨heq, _⟩ | ⟨hfirst, ⟨heq, _⟩ | ⟨heq, _⟩⟩
  · exact hkeep _ (heq ▸ (hread _ htouch).1)
  · exact hkeep _ (heq ▸ (hread _ htouch).2)
  · -- pruning starts when the new copy is in place
    obtain ⟨v, hv, _, hfresh, _⟩ := freshPath_eq (D := D) calls database directory d
    have hnew := (read_prune_fresh D keep hplain fun n hn =>
      (hread n hn).2).trans (hsecond.trans (hdone hfirst))
    refine ⟨v, newCopy S calls database db.content d, hv, ?_, rfl, hchecked _ (hdone hfirst)⟩
    rw [← hfresh, heq]
    exact hnew

theorem hasCopy_next (hdb : '\n' ∉ database.name) (hd : OneLine d) {e : Event β}
    (hquiet : Quiet D database directory e) (hcopy : HasCopy D S database directory d) :
    HasCopy D S database directory ((site D S database directory).next d e) := by
  cases e with
  | backup calls keep extras => exact hasCopy_run hdb hd hquiet hcopy
  | change q g =>
    obtain ⟨u, f, hu, hf, hfile, hverify⟩ := hcopy
    exact ⟨u, f, hu, copy_next hdb hd hquiet hu hf (by simp), hfile, hverify⟩
  | restore calls copy =>
    obtain ⟨u, f, hu, hf, hfile, hverify⟩ := hcopy
    exact ⟨u, f, hu, copy_next hdb hd hquiet hu hf (by simp), hfile, hverify⟩

/-- Whatever fails, a directory that has a checked copy keeps having one: a run prunes only when
    its own copy is in place. -/
theorem never_without_copy (D : Digits) (S : Sqlite β) (database : Path) (directory : List Char)
    (d : Files β) (events : List (Event β)) (hdb : '\n' ∉ database.name) (hd : OneLine d)
    (hquiet : ∀ e ∈ events, Quiet D database directory e)
    (hcopy : HasCopy D S database directory d) :
    HasCopy D S database directory ((site D S database directory).stateAfter d events) := by
  let Kept (d : Files β) : Prop := OneLine d ∧ HasCopy D S database directory d
  have hkept : Kept ((site D S database directory).stateAfter d events) := by
    refine Machine.stateAfter_invariant_along (C := fun _ e => Quiet D database directory e) ?_
      ⟨hd, hcopy⟩ (Machine.along_iff_forall.mpr hquiet)
    intro d e ⟨hd, hcopy⟩ he
    exact ⟨oneLine_next hdb hd he, hasCopy_next hdb hd he hcopy⟩
  exact hkept.2

theorem never_without_copy_sample :
    HasCopy sampleDigits sampleSqlite sampleDatabase "backups".toList
      ((site sampleDigits sampleSqlite sampleDatabase "backups".toList).stateAfter sampleFiles
        [.backup (sampleRun fun _ => .done) 1 [], .restore allDone sampleCopy]) :=
  never_without_copy sampleDigits sampleSqlite sampleDatabase "backups".toList sampleFiles _
    (by decide) sampleFiles_oneLine (by simp [Quiet])
    ⟨"20250101-000000".toList, { content := 3, mtime := 0 }, by decide, rfl, rfl, rfl⟩

/-- A run does not find the copy `c` old. -/
def Spares (D : Digits) (database : Path) (directory : List Char) (c : Path) (d : Files β) :
    Event β → Prop
  | .backup calls keep _ => ¬ Old D calls database directory keep d c
  | .change _ _ => True
  | .restore _ _ => True

/-- A copy that a run returned, and that no later run found old, restores the database and its
    journal as they were when the copy was made, whatever came in between. -/
theorem copy_comes_back (D : Digits) (S : Sqlite β) (database : Path) (directory : List Char)
    (d : Files β) (hdb : '\n' ∉ database.name) (hd : OneLine d) {calls : RunCalls β} {keep : Int}
    {extras : List Path} (hquiet : Quiet D database directory (.backup calls keep extras))
    {res : BackupResult}
    (hres : (run D S calls database directory keep extras d).2 = .ok res) (events : List (Event β))
    (halong : (site D S database directory).Along
      (fun d e => Quiet D database directory e ∧ Spares D database directory res.path d e)
      (run D S calls database directory keep extras d).1 events)
    {restoring : RestoreCalls β} (hcopy : restoring.copy2 = .done)
    (hdone : ∀ src dst, restoring.replace src dst = .done) :
    ∃ db, d.read database = some db ∧
      (restore S restoring res.path database ((site D S database directory).stateAfter
        (run D S calls database directory keep extras d).1 events)).1.read database =
          some (newCopy S calls database db.content d) := by
  have hplain := plainNames_of_quiet hdb hd hquiet
  obtain ⟨db, _, hsource, hpath, _, hnew, hverify, _⟩ :=
    run_new D S calls database directory keep hplain hres
  obtain ⟨u, hu, _, hfresh, _⟩ := freshPath_eq (D := D) calls database directory d
  rw [hfresh] at hpath
  rw [hpath] at hnew halong
  let Kept (d' : Files β) : Prop := OneLine d' ∧
    d'.read ⟨directory, copyName (stem database.name) u⟩ =
      some (newCopy S calls database db.content d)
  have hkept : Kept ((site D S database directory).stateAfter
      (run D S calls database directory keep extras d).1 events) := by
    refine Machine.stateAfter_invariant_along ?_ ⟨oneLine_next (S := S) hdb hd hquiet, hnew⟩ halong
    intro d' e ⟨hd', hread⟩ ⟨he, hspares⟩
    refine ⟨oneLine_next hdb hd' he, copy_next hdb hd' he hu hread ?_⟩
    rintro calls keep extras rfl
    exact hspares
  refine ⟨db, hsource, ?_⟩
  rw [hpath]
  obtain ⟨back, hback⟩ := restore_done database hkept.2 rfl hverify hcopy hdone
  obtain ⟨_, copy, _, _, hread, _, _, _, hrestored⟩ := restore_ok S restoring _ database _ hback
  rw [hrestored.replaced, ← hread, hkept.2]

theorem copy_comes_back_sample :
    ∃ db, sampleFiles.read sampleDatabase = some db ∧
      (restore sampleSqlite allDone ⟨"backups".toList, "srp-20250102-000000.db".toList⟩
        sampleDatabase ((site sampleDigits sampleSqlite sampleDatabase "backups".toList).stateAfter
          (run sampleDigits sampleSqlite (sampleRun fun _ => .done) sampleDatabase "backups".toList 2 []
            sampleFiles).1 [.restore allDone sampleCopy])).1.read sampleDatabase =
        some (newCopy sampleSqlite (sampleRun fun _ => .done) sampleDatabase db.content sampleFiles) :=
  copy_comes_back sampleDigits sampleSqlite sampleDatabase "backups".toList sampleFiles (by decide)
    sampleFiles_oneLine (by simp [Quiet])
    (show _ = Except.ok (BackupResult.mk ⟨"backups".toList, "srp-20250102-000000.db".toList⟩ 0 [])
      from rfl)
    [.restore allDone sampleCopy] ⟨⟨True.intro, True.intro⟩, True.intro⟩ rfl fun _ _ => rfl

end

end Srp.Server.Backup
