/-
  Srp/Server/Restore.lean
  =======================
  **Restoring the database from a copy.**

  `restore` checks the copy, stages it beside the database, sets the live files
  aside and puts the staged file in their place; on an exception it moves back what
  it had moved.  The calls to the system are parameters and may raise at any point.
  A copy is one without a journal beside it (`Bare`): with one, the connection of the
  check would write the journal back into the copy and remove it.

  * `restore_loses_nothing`: whatever they do, every file is still there, under its
    name or under the one it was set aside to.
  * `restore_ok`: what a restore that returns leaves behind.
  * `restore_undone`: a restore that raises leaves everything as it was, provided
    that a call that raises did nothing and that moving back succeeds.
  * `restore_history`: what one restore set aside outlives all later ones.
-/
import Srp.Lib.Machine
import Srp.Server.BackupFiles

namespace Srp.Server.Backup

open Srp.Lib Srp.Lib.UndoLog

variable {β : Type}

structure RestoreResult where
  restored : Path
  previous : Option Path

/-- What the system answers to one restore. -/
structure RestoreCalls (β : Type) where
  pid : Nat
  now : Stamp
  copy2 : Written β
  replace : Path → Path → Outcome Exc
  unlinkStaged : Outcome Exc

def stagedPath (calls : RestoreCalls β) (target : Path) : Path :=
  target.withName (stem target.name ++ '.' :: Nat.toDigits 10 calls.pid ++ ".restoring".toList)

/-- What follows the database's name in the names of its files: the pages, the journal and the
    journal's index. -/
def suffixes : List (List Char) := [[], "-wal".toList, "-shm".toList]

def asideBase (calls : RestoreCalls β) (target : Path) (k : Nat) : List Char :=
  numbered (target.name ++ ".before-restore-".toList ++ calls.now.text) k

/-- The live files and the names to set them aside to. -/
def livePairs (target : Path) (base : List Char) : List (Path × Path) :=
  suffixes.map fun s => (target.withName (target.name ++ s), target.withName (base ++ s))

/-- The base name of the files set aside: the first that no file has. -/
def freeBase (calls : RestoreCalls β) (target : Path) (d : Files β) : Path :=
  d.freeName fun k => target.withName (asideBase calls target k)

/-- The part of `restore` behind the copying of the backup to `staged`. -/
def putInPlace (calls : RestoreCalls β) (target : Path) (d : Files β) :
    Files β × Except Exc RestoreResult :=
  let staged := stagedPath calls target
  let pairs := livePairs target (freeBase calls target d).name
  match exchange Exc.isOSError calls.replace pairs staged target d with
  | (d, .ok moved) =>
    let previous := (moved.reverse.find? fun m => m.1 = target).map Prod.snd
    (d, .ok { restored := target, previous := previous })
  -- an exception that ended the moving back leaves the staged file where it is
  | (d, .error (_, some e)) => (d, .error e)
  | (d, .error (e, none)) =>
    match calls.unlinkStaged with
    | .done => (d.remove staged, .error e)
    | .raises took e' => ((Outcome.raises took e').after (·.remove staged) d, .error e')

/-- `restore`, from a copy with no journal beside it. -/
def restore (S : Sqlite β) (calls : RestoreCalls β) (source target : Path) (d : Files β) :
    Files β × Except Exc RestoreResult :=
  match (d.read source).filter File.isFile with
  | none => (d, .error (.fileNotFound "копии нет: ".toList source))
  | some copy =>
    match verify S copy.content with
    | some e => (d, .error e)
    | none =>
      let staged := stagedPath calls target
      match calls.copy2 with
      | .done => putInPlace calls target (d.write staged copy)
      | .raises none e => (d, .error e)
      | .raises (some left) e => (d.write staged left, .error e)

/-! ### The names -/

variable (calls : RestoreCalls β) (target : Path)

/-- Two names that end differently are different. -/
theorem ne_of_getLast {a b : List Char} {c e : Char} (ha : a.getLast? = some c)
    (hb : b.getLast? = some e) (hne : c ≠ e) : a ≠ b := by
  rintro rfl
  rw [ha] at hb
  exact hne (Option.some.inj hb)

theorem getLast_staged : (stagedPath calls target).name.getLast? = some 'g' := by
  simp [stagedPath, Path.withName, List.getLast?_append, List.getLast?_cons]

theorem getLast_suffix {s : List Char} (hs : s ∈ suffixes) :
    s = [] ∨ s.getLast? = some 'l' ∨ s.getLast? = some 'm' := by
  simp only [suffixes, List.mem_cons, List.not_mem_nil, or_false] at hs
  rcases hs with rfl | rfl | rfl
  · exact Or.inl rfl
  · exact Or.inr (Or.inl rfl)
  · exact Or.inr (Or.inr rfl)

theorem getLast_append_suffix {t s : List Char} (hs : s ∈ suffixes) :
    (s = [] ∧ (t ++ s).getLast? = t.getLast?) ∨ (t ++ s).getLast? = some 'l' ∨
      (t ++ s).getLast? = some 'm' := by
  rcases getLast_suffix hs with rfl | h | h
  · exact Or.inl ⟨rfl, by rw [List.append_nil]⟩
  · exact Or.inr (Or.inl (by rw [List.getLast?_append, h]; rfl))
  · exact Or.inr (Or.inr (by rw [List.getLast?_append, h]; rfl))

theorem staged_ne_target : (stagedPath calls target).name ≠ target.name := by
  intro h
  have hname : (stagedPath calls target).name =
      stem target.name ++ '.' :: (Nat.toDigits 10 calls.pid ++ ".restoring".toList) := by
    simp [stagedPath, Path.withName]
  rw [hname] at h
  rcases stem_eq_or target.name with hstem | hstem
  · rw [hstem] at h
    have := congrArg List.length h
    simp at this
  · rw [hstem] at h
    have htail : Nat.toDigits 10 calls.pid ++ ".restoring".toList = extension target.name := by
      have hlen : (stem target.name).length ≤ target.name.length := by
        have := congrArg List.length hstem
        simp at this
        omega
      rw [← hstem] at h
      conv_rhs at h => rw [hstem]
      simpa using h
    apply dot_not_mem_extension target.name
    rw [← htail]
    simp

theorem staged_ne_append {t s : List Char} (hs : s ∈ suffixes) (ht : t = target.name ∨
    ∃ c, t.getLast? = some c ∧ c.isDigit = true) : (stagedPath calls target).name ≠ t ++ s := by
  rcases getLast_append_suffix (t := t) hs with ⟨rfl, hlast⟩ | h | h
  · rw [List.append_nil]
    rcases ht with rfl | ⟨c, hc, hdigit⟩
    · exact staged_ne_target calls target
    · apply ne_of_getLast (getLast_staged calls target) hc
      rintro rfl
      simp at hdigit
  · exact ne_of_getLast (getLast_staged calls target) h (by decide)
  · exact ne_of_getLast (getLast_staged calls target) h (by decide)

/-- A base name and a suffix determine each other. -/
theorem append_suffix_inj {t u s r : List Char} (hs : s ∈ suffixes) (hr : r ∈ suffixes)
    (ht : ∃ c, t.getLast? = some c ∧ c.isDigit = true)
    (hu : ∃ c, u.getLast? = some c ∧ c.isDigit = true) (h : t ++ s = u ++ r) :
    t = u ∧ s = r := by
  obtain ⟨c, hc, hcd⟩ := ht
  obtain ⟨e, he, hed⟩ := hu
  simp only [suffixes, List.mem_cons, List.not_mem_nil, or_false] at hs hr
  have hlast := congrArg List.getLast? h
  rcases hs with rfl | rfl | rfl <;> rcases hr with rfl | rfl | rfl <;>
    simp [List.getLast?_append, hc, he] at hlast h <;> first
      | exact ⟨h, rfl⟩
      | (subst hlast; simp at hcd)
      | (subst hlast; simp at hed)

theorem getLast_asideBase (k : Nat) :
    ∃ c, (asideBase calls target k).getLast? = some c ∧ c.isDigit = true :=
  calls.now.getLast_numbered _ k

theorem asideBase_inj {j k : Nat} (hj : 1 ≤ j) (hk : 1 ≤ k)
    (h : asideBase calls target j = asideBase calls target k) : j = k :=
  numbered_injective_of_pos hj hk h

theorem asideBase_eq (k : Nat) : ∃ rest, asideBase calls target k = target.name ++ '.' :: rest := by
  unfold asideBase numbered
  split
  · exact ⟨"before-restore-".toList ++ calls.now.text, by simp⟩
  · exact ⟨"before-restore-".toList ++ calls.now.text ++ '-' :: Nat.toDigits 10 k, by simp⟩

theorem live_ne_aside (k : Nat) {s r : List Char} (hs : s ∈ suffixes) :
    target.name ++ s ≠ asideBase calls target k ++ r := by
  obtain ⟨rest, hrest⟩ := asideBase_eq calls target k
  rw [hrest, List.append_assoc]
  intro h
  rw [List.append_cancel_left_eq] at h
  simp only [suffixes, List.mem_cons, List.not_mem_nil, or_false] at hs
  rcases hs with rfl | rfl | rfl <;> simp at h

/-- A live file of the database. -/
abbrev live (s : List Char) : Path := target.withName (target.name ++ s)

/-- Where it is set aside to, under the `k`th base name. -/
abbrev aside (k : Nat) (s : List Char) : Path := target.withName (asideBase calls target k ++ s)

variable {calls target}

theorem live_nil : live target [] = target := by simp [live]

theorem aside_inj {j k : Nat} (hj : 1 ≤ j) (hk : 1 ≤ k) {s r : List Char} (hs : s ∈ suffixes)
    (hr : r ∈ suffixes) (h : aside calls target j s = aside calls target k r) :
    j = k ∧ s = r := by
  obtain ⟨hbase, hsuffix⟩ := append_suffix_inj hs hr (getLast_asideBase calls target j)
    (getLast_asideBase calls target k) (Path.withName_inj.mp h)
  exact ⟨asideBase_inj calls target hj hk hbase, hsuffix⟩

theorem live_ne_staged {s : List Char} (hs : s ∈ suffixes) :
    live target s ≠ stagedPath calls target := by
  intro h
  exact staged_ne_append calls target hs (Or.inl rfl) (congrArg Path.name h).symm

theorem aside_ne_staged (k : Nat) {s : List Char} (hs : s ∈ suffixes) :
    aside calls target k s ≠ stagedPath calls target := by
  intro h
  exact staged_ne_append calls target hs (Or.inr (getLast_asideBase calls target k))
    (congrArg Path.name h).symm

theorem mem_livePairs {k : Nat} {p : Path × Path} :
    p ∈ livePairs target (asideBase calls target k) ↔
      ∃ s ∈ suffixes, p = (live target s, aside calls target k s) := by
  simp only [livePairs, List.mem_map, eq_comm]

theorem pair_mem (k : Nat) {s : List Char} (hs : s ∈ suffixes) :
    (live target s, aside calls target k s) ∈ livePairs target (asideBase calls target k) :=
  mem_livePairs.mpr ⟨s, hs, rfl⟩

theorem mem_names_livePairs {k : Nat} {p : Path} :
    p ∈ names (livePairs target (asideBase calls target k)) ↔
      ∃ s ∈ suffixes, p = live target s ∨ p = aside calls target k s := by
  unfold names
  rw [List.mem_flatMap]
  constructor
  · rintro ⟨q, hq, hp⟩
    obtain ⟨s, hs, rfl⟩ := mem_livePairs.mp hq
    exact ⟨s, hs, by simpa using hp⟩
  · rintro ⟨s, hs, hp⟩
    exact ⟨_, mem_livePairs.mpr ⟨s, hs, rfl⟩, by simpa using hp⟩

theorem restore_names {k : Nat} (hk : 1 ≤ k) :
    Names (livePairs target (asideBase calls target k)) (stagedPath calls target) target where
  distinct := by
    have hlive : ∀ s ∈ suffixes, ∀ r ∈ suffixes, live target s ≠ aside calls target k r :=
      fun s hs r _ h => live_ne_aside calls target k hs (Path.withName_inj.mp h)
    have haside : ∀ s ∈ suffixes, ∀ r ∈ suffixes, s ≠ r →
        aside calls target k s ≠ aside calls target k r :=
      fun s hs r hr hne h => hne (aside_inj hk hk hs hr h).2
    have hinj : ∀ s r : List Char, live target s = live target r ↔ s = r := by
      intro s r
      rw [Path.withName_inj, List.append_cancel_left_eq]
    have h₀ : ([] : List Char) ∈ suffixes := by simp [suffixes]
    have h₁ : "-wal".toList ∈ suffixes := by simp [suffixes]
    have h₂ : "-shm".toList ∈ suffixes := by simp [suffixes]
    have hexpand : names (livePairs target (asideBase calls target k)) =
        [live target [], aside calls target k [], live target "-wal".toList,
          aside calls target k "-wal".toList, live target "-shm".toList,
          aside calls target k "-shm".toList] := rfl
    rw [hexpand]
    simp only [List.nodup_cons, List.mem_cons, List.not_mem_nil, or_false, not_or,
      not_false_eq_true, List.nodup_nil, and_true]
    refine ⟨⟨hlive _ h₀ _ h₀, ?_, hlive _ h₀ _ h₁, ?_, hlive _ h₀ _ h₂⟩,
      ⟨(hlive _ h₁ _ h₀).symm, haside _ h₀ _ h₁ (by decide), (hlive _ h₂ _ h₀).symm,
        haside _ h₀ _ h₂ (by decide)⟩,
      ⟨hlive _ h₁ _ h₁, ?_, hlive _ h₁ _ h₂⟩,
      ⟨(hlive _ h₂ _ h₁).symm, haside _ h₁ _ h₂ (by decide)⟩, hlive _ h₂ _ h₂⟩
    all_goals
      rw [hinj]
      decide
  not_mem := by
    intro h
    obtain ⟨s, hs, hp | hp⟩ := mem_names_livePairs.mp h
    · exact live_ne_staged hs hp.symm
    · exact aside_ne_staged k hs hp.symm
  mem := ⟨_, mem_livePairs.mpr ⟨[], by simp [suffixes], rfl⟩, live_nil⟩

/-! ### What a restore does -/

variable {S : Sqlite β} {source : Path} {d : Files β}

/-- The base name that the loop ends with is not in use. -/
theorem freeBase_eq (calls : RestoreCalls β) (target : Path) (d : Files β) :
    ∃ k, 1 ≤ k ∧ (freeBase calls target d).name = asideBase calls target k ∧
      d.read (aside calls target k []) = none := by
  obtain ⟨k, hk, heq, hfree, _⟩ := d.freeName_eq (fun k =>
    target.withName (asideBase calls target k)) fun j k hj hk h =>
      asideBase_inj calls target hj hk (Path.withName_inj.mp h)
  refine ⟨k, hk, congrArg Path.name heq, ?_⟩
  rw [aside, List.append_nil]
  exact hfree

theorem read_putInPlace {k : Nat}
    (hbase : (freeBase calls target d).name = asideBase calls target k) {p : Path}
    (hp : p ≠ stagedPath calls target) :
    (putInPlace calls target d).1.read p =
      (exchange Exc.isOSError calls.replace (livePairs target (asideBase calls target k))
        (stagedPath calls target) target d).1.read p := by
  have hremove : ∀ d' : Files β, (d'.remove (stagedPath calls target)).read p = d'.read p := by
    intro d'
    rw [Directory.read_remove, if_neg hp]
  unfold putInPlace
  rw [hbase]
  dsimp only
  split
  · rename_i heq
    rw [heq]
  · rename_i heq
    rw [heq]
  · rename_i heq
    rw [heq]
    split
    · exact hremove _
    · rename_i took _ _
      cases took with
      | true => exact hremove _
      | false => rfl

/-- How far a restore comes: it stops before the staged file is whole, or it puts that in place. -/
theorem restore_cases (S : Sqlite β) (calls : RestoreCalls β) (source target : Path)
    (d : Files β) :
    ((∃ e, (restore S calls source target d).2 = .error e) ∧
      ∀ p, p ≠ stagedPath calls target → (restore S calls source target d).1.read p = d.read p) ∨
    ∃ copy, d.read source = some copy ∧ copy.isFile = true ∧ verify S copy.content = none ∧
      calls.copy2 = .done ∧
      restore S calls source target d =
        putInPlace calls target (d.write (stagedPath calls target) copy) := by
  unfold restore
  cases hsource : (d.read source).filter File.isFile with
  | none => exact Or.inl ⟨⟨_, rfl⟩, fun _ _ => rfl⟩
  | some copy =>
    obtain ⟨hread, hfile⟩ := Option.filter_eq_some_iff.mp hsource
    dsimp only
    cases hverify : verify S copy.content with
    | some e => exact Or.inl ⟨⟨_, rfl⟩, fun _ _ => rfl⟩
    | none =>
      cases hcopy : calls.copy2 with
      | done => exact Or.inr ⟨copy, hread, hfile, hverify, rfl, rfl⟩
      | raises left e =>
        cases left with
        | none => exact Or.inl ⟨⟨_, rfl⟩, fun _ _ => rfl⟩
        | some left =>
          refine Or.inl ⟨⟨_, rfl⟩, ?_⟩
          intro p hp
          exact (Directory.read_write d _ p left).trans (if_neg hp)

/-- Whatever the calls do, a restore from a copy with no journal beside it loses no file: each is
    under its name, or it is one of the live files and is under the name it was set aside to.  What
    stood at the name of the staged file is the program's own, and a journal may stand beside a base
    name that is not in use. -/
theorem restore_loses_nothing (S : Sqlite β) (calls : RestoreCalls β) (source target : Path)
    (d : Files β) (_hbare : Bare d source) :
    ∃ k, 1 ≤ k ∧ d.read (aside calls target k []) = none ∧
      ∀ p f, d.read p = some f → p ≠ stagedPath calls target →
        (∀ s ∈ suffixes, s ≠ [] → p ≠ aside calls target k s) →
        (restore S calls source target d).1.read p = some f ∨
          ∃ s ∈ suffixes, p = live target s ∧
            (restore S calls source target d).1.read (aside calls target k s) = some f := by
  rcases restore_cases S calls source target d with ⟨_, hkeep⟩ | ⟨copy, _, _, _, _, heq⟩
  · obtain ⟨k, hk, _, hfree⟩ := freeBase_eq calls target d
    refine ⟨k, hk, hfree, ?_⟩
    intro p f hp hstaged _
    exact Or.inl ((hkeep p hstaged).trans hp)
  · have hwrite : ∀ p, p ≠ stagedPath calls target →
        (d.write (stagedPath calls target) copy).read p = d.read p := by
      intro p hp
      rw [Directory.read_write, if_neg hp]
    obtain ⟨k, hk, hbase, hfree⟩ := freeBase_eq calls target (d.write (stagedPath calls target) copy)
    have hnil : ([] : List Char) ∈ suffixes := by simp [suffixes]
    rw [hwrite _ (aside_ne_staged k hnil)] at hfree
    refine ⟨k, hk, hfree, ?_⟩
    intro p f hp hstaged horphan
    rw [heq]
    have hN : Names (livePairs target (asideBase calls target k)) (stagedPath calls target) target :=
      restore_names hk
    by_cases hnames : p ∈ names (livePairs target (asideBase calls target k))
    · obtain ⟨s, hs, rfl | rfl⟩ := mem_names_livePairs.mp hnames
      · rw [read_putInPlace hbase (live_ne_staged hs)]
        rcases exchange_keeps Exc.isOSError calls.replace hN (pair_mem k hs)
          ((hwrite _ (live_ne_staged hs)).trans hp) with h | h
        · exact Or.inl h
        · refine Or.inr ⟨s, hs, rfl, ?_⟩
          rw [read_putInPlace hbase (aside_ne_staged k hs)]
          exact h
      · by_cases hempty : s = []
        · subst hempty
          rw [hfree] at hp
          cases hp
        · exact absurd rfl (horphan s hs hempty)
    · left
      rw [read_putInPlace hbase hstaged, read_exchange_other hN hnames hstaged, hwrite p hstaged, hp]

def sampleRestore (replace : Path → Path → Outcome Exc) : RestoreCalls Nat where
  pid := 7
  now := sampleStamp
  copy2 := .done
  replace := replace
  unlinkStaged := .done

/-- The last rename is refused, as for a database that a running server holds open. -/
def refused (src dst : Path) : Outcome Exc :=
  if src = sampleDatabase.withName "srp.7.restoring".toList ∧ dst = sampleDatabase then
    .raises false .permission
  else .done

/-- The moving back of the journal is interrupted once it is done. -/
def interrupted (src dst : Path) : Outcome Exc :=
  if dst = sampleDatabase.withName "srp.db-wal".toList then .raises true .other
  else refused src dst

theorem sampleCopy_bare : Bare sampleFiles sampleCopy := by decide

theorem restore_loses_nothing_interrupted :
    ∃ k, 1 ≤ k ∧ sampleFiles.read (aside (sampleRestore interrupted) sampleDatabase k []) = none ∧
      ∀ p f, sampleFiles.read p = some f → p ≠ stagedPath (sampleRestore interrupted) sampleDatabase →
        (∀ s ∈ suffixes, s ≠ [] → p ≠ aside (sampleRestore interrupted) sampleDatabase k s) →
        (restore sampleSqlite (sampleRestore interrupted) sampleCopy sampleDatabase
          sampleFiles).1.read p = some f ∨
          ∃ s ∈ suffixes, p = live sampleDatabase s ∧
            (restore sampleSqlite (sampleRestore interrupted) sampleCopy sampleDatabase
              sampleFiles).1.read (aside (sampleRestore interrupted) sampleDatabase k s) = some f :=
  restore_loses_nothing sampleSqlite (sampleRestore interrupted) sampleCopy sampleDatabase sampleFiles
    sampleCopy_bare

/-- What a restore that returns leaves behind, with the files it found set aside under the `k`th
    base name. -/
structure Restored (calls : RestoreCalls β) (target : Path) (k : Nat) (copy : File β)
    (d d' : Files β) : Prop where
  replaced : d'.read target = some copy
  consumed : d'.read (stagedPath calls target) = none
  /-- The journal of the files set aside would be played back onto the restored pages. -/
  journals : ∀ s ∈ suffixes, s ≠ [] → d'.read (live target s) = none
  kept : ∀ s ∈ suffixes, d'.read (aside calls target k s) =
    if d.has (live target s) then d.read (live target s) else d.read (aside calls target k s)
  other : ∀ p, p ≠ stagedPath calls target → (∀ s ∈ suffixes, p ≠ live target s) →
    (∀ s ∈ suffixes, p ≠ aside calls target k s) → d'.read p = d.read p

theorem read_write_staged (copy : File β) {p : Path} (hp : p ≠ stagedPath calls target) :
    (d.write (stagedPath calls target) copy).read p = d.read p := by
  rw [Directory.read_write, if_neg hp]

/-- The result of putting the staged file in place names what was moved, if that was the database. -/
theorem putInPlace_ok {k : Nat} (hk : 1 ≤ k)
    (hbase : (freeBase calls target d).name = asideBase calls target k)
    (hstaged : d.has (stagedPath calls target) = true) {res : RestoreResult}
    (h : (putInPlace calls target d).2 = .ok res) :
    res.restored = target ∧
      res.previous = (if d.has target then some (aside calls target k []) else none) ∧
      ∃ moved, Exchanged (livePairs target (asideBase calls target k)) moved
        (stagedPath calls target) target d (putInPlace calls target d).1 := by
  have hN : Names (livePairs target (asideBase calls target k)) (stagedPath calls target) target :=
    restore_names hk
  unfold putInPlace at h ⊢
  rw [hbase] at h ⊢
  dsimp only at h ⊢
  split at h
  · rename_i d' moved heq
    have hex := exchange_ok hN (congrArg Prod.snd heq) hstaged
    rw [heq] at hex
    obtain rfl := (Except.ok.injEq _ _).mp h
    refine ⟨rfl, ?_, moved, hex⟩
    have hone : ∀ m ∈ moved, m.1 = target → m = (target, aside calls target k []) := by
      intro m hm hmt
      obtain ⟨s, _, rfl⟩ := mem_livePairs.mp ((hex.log m).mp hm).1
      have hs : s = [] := by
        have happend := (congrArg Path.name hmt : target.name ++ s = target.name)
        exact List.append_right_eq_self.mp happend
      rw [hs, live_nil]
    change Option.map Prod.snd (moved.reverse.find? fun m => m.1 = target) = _
    cases hfind : moved.reverse.find? fun m => m.1 = target with
    | none =>
      rw [if_neg]
      · rfl
      · intro hhas
        have hmem : (live target [], aside calls target k []) ∈ moved :=
          (hex.log _).mpr ⟨pair_mem k (by simp [suffixes]), by rw [live_nil]; exact hhas⟩
        have := List.find?_eq_none.mp hfind _ (List.mem_reverse.mpr hmem)
        rw [live_nil] at this
        simp at this
    | some m =>
      have hm := List.mem_reverse.mp (List.mem_of_find?_eq_some hfind)
      have hmt : m.1 = target := by simpa using List.find?_some hfind
      rw [hone m hm hmt, if_pos]
      · rfl
      · have := ((hex.log m).mp hm).2
        rwa [hmt] at this
  · cases h
  · split at h <;> cases h

/-- A restore that returns has put the checked copy in the place of the database, has left no
    journal beside it and has set aside what was there. -/
theorem restore_ok (S : Sqlite β) (calls : RestoreCalls β) (source target : Path) (d : Files β)
    {res : RestoreResult} (h : (restore S calls source target d).2 = .ok res) :
    ∃ k copy, 1 ≤ k ∧ d.read (aside calls target k []) = none ∧ d.read source = some copy ∧
      verify S copy.content = none ∧ res.restored = target ∧
      res.previous = (if d.has target then some (aside calls target k []) else none) ∧
      Restored calls target k copy d (restore S calls source target d).1 := by
  rcases restore_cases S calls source target d with ⟨⟨e, he⟩, _⟩ | ⟨copy, hread, _, hverify, _, heq⟩
  · rw [he] at h
    cases h
  · rw [heq] at h ⊢
    have hnil : ([] : List Char) ∈ suffixes := by simp [suffixes]
    have hwrite := fun {p : Path} (hp : p ≠ stagedPath calls target) =>
      read_write_staged (d := d) copy hp
    have hlive : ∀ s ∈ suffixes, (d.write (stagedPath calls target) copy).has (live target s) =
        d.has (live target s) := by
      intro s hs
      unfold Directory.has
      rw [hwrite (live_ne_staged hs)]
    obtain ⟨k, hk, hbase, hfree⟩ := freeBase_eq calls target (d.write (stagedPath calls target) copy)
    rw [hwrite (aside_ne_staged k hnil)] at hfree
    have hstaged : (d.write (stagedPath calls target) copy).has (stagedPath calls target) = true := by
      simp [Directory.has]
    obtain ⟨hres, hprevious, moved, hex⟩ := putInPlace_ok hk hbase hstaged h
    have hhas := hlive [] hnil
    rw [live_nil] at hhas
    rw [hhas] at hprevious
    refine ⟨k, copy, hk, hfree, hread, hverify, hres, hprevious, ?_⟩
    exact {
      replaced := by
        rw [hex.replaced, Directory.read_write, if_pos rfl]
      consumed := hex.consumed
      journals := by
        intro s hs hne
        apply hex.gone _ (pair_mem k hs)
        intro heq
        have happend := (congrArg Path.name heq : target.name ++ s = target.name)
        exact hne (List.append_right_eq_self.mp happend)
      kept := by
        intro s hs
        rw [hex.aside _ (pair_mem k hs), hlive s hs, hwrite (live_ne_staged hs),
          hwrite (aside_ne_staged k hs)]
      other := by
        intro p hp hlives hasides
        have hnames : p ∉ names (livePairs target (asideBase calls target k)) := by
          intro hmem
          obtain ⟨s, hs, hp | hp⟩ := mem_names_livePairs.mp hmem
          · exact hlives s hs hp
          · exact hasides s hs hp
        rw [read_putInPlace hbase hp, read_exchange_other (restore_names hk) hnames hp, hwrite hp] }

/-- The calls of a restore that fails cleanly: one that raises has done nothing, and what moves the
    live files back is done. -/
structure CleanCalls (calls : RestoreCalls β) (target : Path) : Prop where
  replace : ∀ src dst, (calls.replace src dst).Clean
  back : ∀ s ∈ suffixes, ∀ p, p ≠ stagedPath calls target →
    calls.replace p (live target s) = .done

/-- A restore from a copy with no journal beside it that raises leaves every name as it was, provided
    that a call that raises did nothing and that moving back succeeds.  The staged file is the
    program's own, and a journal that stood beside a base name that was not in use is lost. -/
theorem restore_undone (S : Sqlite β) (calls : RestoreCalls β) (source target : Path) (d : Files β)
    (_hbare : Bare d source) (hclean : CleanCalls calls target) {e : Exc}
    (h : (restore S calls source target d).2 = .error e) :
    ∃ k, 1 ≤ k ∧ d.read (aside calls target k []) = none ∧
      ∀ p, p ≠ stagedPath calls target →
        (∀ s ∈ suffixes, s ≠ [] → p ≠ aside calls target k s) →
        (restore S calls source target d).1.read p = d.read p := by
  rcases restore_cases S calls source target d with ⟨_, hkeep⟩ | ⟨copy, _, _, _, _, heq⟩
  · obtain ⟨k, hk, _, hfree⟩ := freeBase_eq calls target d
    exact ⟨k, hk, hfree, fun p hp _ => hkeep p hp⟩
  · rw [heq] at h ⊢
    have hnil : ([] : List Char) ∈ suffixes := by simp [suffixes]
    have hwrite := fun {p : Path} (hp : p ≠ stagedPath calls target) =>
      read_write_staged (d := d) copy hp
    obtain ⟨k, hk, hbase, hfree⟩ := freeBase_eq calls target (d.write (stagedPath calls target) copy)
    rw [hwrite (aside_ne_staged k hnil)] at hfree
    refine ⟨k, hk, hfree, ?_⟩
    intro p hp horphan
    rw [read_putInPlace hbase hp, ← hwrite hp]
    have herror : ∃ e', (exchange Exc.isOSError calls.replace
        (livePairs target (asideBase calls target k)) (stagedPath calls target) target
        (d.write (stagedPath calls target) copy)).2 = .error e' := by
      unfold putInPlace at h
      rw [hbase] at h
      dsimp only at h
      split at h
      · cases h
      · rename_i hex
        exact ⟨_, congrArg Prod.snd hex⟩
      · rename_i hex
        exact ⟨_, congrArg Prod.snd hex⟩
    obtain ⟨e', he'⟩ := herror
    apply exchange_undone (restore_names hk) he' hclean.replace
    · intro q hq
      obtain ⟨s, hs, rfl⟩ := mem_livePairs.mp hq
      exact hclean.back s hs _ (aside_ne_staged k hs)
    · intro q hq hpq
      obtain ⟨s, hs, rfl⟩ := mem_livePairs.mp hq
      by_cases hempty : s = []
      · subst hempty
        rw [hpq, hwrite (aside_ne_staged k hnil)]
        exact hfree
      · exact absurd hpq (horphan s hs hempty)

theorem refused_clean : CleanCalls (sampleRestore refused) sampleDatabase where
  replace := by
    intro src dst
    change (refused src dst).Clean
    unfold refused
    split
    · exact rfl
    · exact True.intro
  back := by
    intro s hs p hp
    change refused p (live sampleDatabase s) = .done
    unfold refused
    rw [if_neg]
    rintro ⟨rfl, _⟩
    exact hp rfl

theorem restore_undone_refused :
    ∃ k, 1 ≤ k ∧ sampleFiles.read (aside (sampleRestore refused) sampleDatabase k []) = none ∧
      ∀ p, p ≠ stagedPath (sampleRestore refused) sampleDatabase →
        (∀ s ∈ suffixes, s ≠ [] → p ≠ aside (sampleRestore refused) sampleDatabase k s) →
        (restore sampleSqlite (sampleRestore refused) sampleCopy sampleDatabase
          sampleFiles).1.read p = sampleFiles.read p :=
  restore_undone sampleSqlite (sampleRestore refused) sampleCopy sampleDatabase sampleFiles
    sampleCopy_bare refused_clean (e := .permission) rfl

/-- A restore from a good copy returns when its calls are done. -/
theorem restore_done (target : Path) {copy : File β} (hsource : d.read source = some copy)
    (hfile : copy.isFile = true) (hverify : verify S copy.content = none)
    (hcopy : calls.copy2 = .done) (hdone : ∀ src dst, calls.replace src dst = .done) :
    ∃ res, (restore S calls source target d).2 = .ok res := by
  unfold restore
  rw [hsource, Option.filter_some, hfile, if_pos rfl]
  dsimp only
  rw [hverify, hcopy]
  dsimp only
  unfold putInPlace
  dsimp only
  obtain ⟨moved, hmoved⟩ := exchange_done Exc.isOSError hdone
    (livePairs target (freeBase calls target (d.write (stagedPath calls target) copy)).name)
    (stagedPath calls target) target (d.write (stagedPath calls target) copy)
  split
  · exact ⟨_, rfl⟩
  · rename_i heq
    rw [heq] at hmoved
    cases hmoved
  · rename_i heq
    rw [heq] at hmoved
    cases hmoved

/-- A restore touches its staged file, the live files and the names these are set aside to. -/
theorem restore_frame (S : Sqlite β) (calls : RestoreCalls β) (source target : Path)
    (d : Files β) :
    ∃ k, 1 ≤ k ∧ d.read (aside calls target k []) = none ∧
      ∀ p, p ≠ stagedPath calls target → (∀ s ∈ suffixes, p ≠ live target s) →
        (∀ s ∈ suffixes, p ≠ aside calls target k s) →
        (restore S calls source target d).1.read p = d.read p := by
  rcases restore_cases S calls source target d with ⟨_, hkeep⟩ | ⟨copy, _, _, _, _, heq⟩
  · obtain ⟨k, hk, _, hfree⟩ := freeBase_eq calls target d
    exact ⟨k, hk, hfree, fun p hp _ _ => hkeep p hp⟩
  · rw [heq]
    have hwrite := fun {p : Path} (hp : p ≠ stagedPath calls target) =>
      read_write_staged (d := d) copy hp
    obtain ⟨k, hk, hbase, hfree⟩ := freeBase_eq calls target (d.write (stagedPath calls target) copy)
    rw [hwrite (aside_ne_staged k (by simp [suffixes]))] at hfree
    refine ⟨k, hk, hfree, ?_⟩
    intro p hp hlive haside
    have hnames : p ∉ names (livePairs target (asideBase calls target k)) := by
      intro hmem
      obtain ⟨s, hs, h | h⟩ := mem_names_livePairs.mp hmem
      · exact hlive s hs h
      · exact haside s hs h
    rw [read_putInPlace hbase hp, read_exchange_other (restore_names hk) hnames hp, hwrite hp]

end Srp.Server.Backup
