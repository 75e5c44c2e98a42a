/-
  Srp/Server/Backup.lean
  ======================
  **Taking a copy of the database and pruning the old ones.**

  `run` writes the copy under a temporary name, checks it, renames it, lays the
  settings beside it and prunes.  Every call to the system may raise.  The second
  part of the file is about the names: a name matches the pattern of the copies
  exactly if it is one that `run` could have given (`isCopyName_iff`), and what lies
  beside one copy does not lie beside another (`belongs_unique`).
-/
import Srp.Server.BackupFiles
import Mathlib.Data.List.Sort

namespace Srp.Server.Backup

open Srp.Lib

variable {β : Type}

/-! ### Names of copies -/

/-- `\d`, which takes the decimal digits of every script. -/
structure Digits where
  digit : Char → Bool
  ascii : ∀ c, c.toNat < 128 → digit c = c.isDigit

variable (D : Digits)

/-- `(?:-\d+)?` up to the end. -/
def isNumber (t : List Char) : Bool :=
  match t with
  | [] => true
  | '-' :: rest => !rest.isEmpty && rest.all D.digit
  | _ => false

/-- `\d{8}-\d{6}(?:-\d+)?` -/
def isStampText (t : List Char) : Bool :=
  isStamp D.digit (t.take 15) && isNumber D (t.drop 15)

/-- `^<stem>-\d{8}-\d{6}(?:-\d+)?\.db$`, where `$` also stands before a line break at the end. -/
def isCopyName (stem name : List Char) : Bool :=
  let head := stem ++ ['-']
  let line := if name.getLast? = some '\n' then name.dropLast else name
  let body (t : List Char) : Bool :=
    head.isPrefixOf t && ".db".toList.isSuffixOf (t.drop head.length) &&
      isStampText D ((t.drop head.length).dropLast.dropLast.dropLast)
  body name || body line

/-- `str.__lt__` -/
def nameLt : List Char → List Char → Bool
  | _, [] => false
  | [], _ :: _ => true
  | a :: s, b :: t => a.toNat < b.toNat || (a.toNat == b.toNat && nameLt s t)

/-- The order of the pruning: by time and then by name, the newest first. -/
def noOlder (e f : Path × Int) : Bool :=
  f.2 < e.2 || (f.2 == e.2 && !nameLt e.1.name f.1.name)

/-! ### The run -/

structure BackupResult where
  path : Path
  removed : Nat
  extras : List Path

/-- What the system answers to one run. -/
structure RunCalls (β : Type) where
  now : Stamp
  /-- the modification time of the new file -/
  clock : Int
  mkdir : Option Exc
  backup : Written β
  replace : Outcome Exc
  unlinkPart : Outcome Exc
  copyExtra : Path → Written β
  unlink : Path → Outcome Exc

/-- The name of the `k`th copy of this second, without `.db`. -/
def copyStem (stem : List Char) (now : Stamp) (k : Nat) : List Char :=
  numbered (stem ++ '-' :: now.text) k

/-- `_target` -/
def target (directory stem : List Char) (now : Stamp) (d : Files β) : Path :=
  d.freeName fun k => ⟨directory, copyStem stem now k ++ ".db".toList⟩

/-- `Path.with_suffix` -/
def withSuffix (p : Path) (suffix : List Char) : Path := p.withName (stem p.name ++ suffix)

def companion (p : Path) (name : List Char) : Path := p.withName (stem p.name ++ '.' :: name)

/-- `_copy_extras` -/
def copyExtras (calls : RunCalls β) (final : Path) :
    List Path → Files β → List Path → Files β × Except Exc (List Path)
  | [], d, saved => (d, .ok saved)
  | extra :: rest, d, saved =>
    match (d.read extra).filter File.isFile with
    | none => copyExtras calls final rest d saved
    | some file =>
      let dest := companion final extra.name
      match calls.copyExtra dest with
      | .done => copyExtras calls final rest (d.write dest file) (saved ++ [dest])
      | .raises left e =>
        let d := left.elim d (d.write dest)
        if e.isOSError then copyExtras calls final rest d saved else (d, .error e)

/-- The copies that the pruning may remove, with their times. -/
def mine (directory stem : List Char) (fresh : Path) (d : Files β) : List (Path × Int) :=
  (d.entries.filter fun e => e.1.parent = directory && e.2.isFile && isCopyName D stem e.1.name &&
    e.1.name ≠ fresh.name).map fun e => (e.1, e.2.mtime)

def companions (stale : Path) (d : Files β) : List Path :=
  (d.entries.map Prod.fst).filter fun p =>
    p.parent = stale.parent && (stem stale.name ++ ['.']).isPrefixOf p.name && p ≠ stale

/-- `unlink` under `suppress(OSError)`, one path after the other. -/
def unlinkAll (calls : RunCalls β) : List Path → Files β → Files β × Option Exc
  | [], d => (d, none)
  | p :: rest, d =>
    let d' := (calls.unlink p).after (·.remove p) d
    match calls.unlink p with
    | .done => unlinkAll calls rest d'
    | .raises _ e => if e.isOSError then unlinkAll calls rest d' else (d', some e)

/-- The loop of `_prune`. -/
def pruneAll (calls : RunCalls β) : List Path → Files β → Nat → Files β × Except Exc Nat
  | [], d, removed => (d, .ok removed)
  | stale :: rest, d, removed =>
    match unlinkAll calls (companions stale d) d with
    | (d, some e) => (d, .error e)
    | (d, none) =>
      let d' := (calls.unlink stale).after (·.remove stale) d
      match calls.unlink stale with
      | .done => pruneAll calls rest d' (removed + 1)
      | .raises _ e => if e.isOSError then pruneAll calls rest d' removed else (d', .error e)

def staleCopies (directory stem : List Char) (keep : Nat) (fresh : Path) (d : Files β) :
    List Path :=
  (((mine D directory stem fresh d).insertionSort fun e f => noOlder e f).drop (keep - 1)).map
    Prod.fst

/-- `_prune` -/
def prune (calls : RunCalls β) (directory stem : List Char) (keep : Nat) (fresh : Path)
    (d : Files β) : Files β × Except Exc Nat :=
  pruneAll calls (staleCopies D directory stem keep fresh d) d 0

/-- What `_copy` writes: the database with its journal. -/
def newCopy (S : Sqlite β) (calls : RunCalls β) (source : Path) (db : β) (d : Files β) : File β where
  content := S.snapshot db ((d.read (source.withName (source.name ++ "-wal".toList))).map
    File.content)
  mtime := calls.clock

/-- The `except` branch of `run`. -/
def dropPart (calls : RunCalls β) (part : Path) (e : Exc) (d : Files β) : Files β × Option Exc :=
  match calls.unlinkPart with
  | .done => (d.remove part, some e)
  | .raises took e' => ((Outcome.raises took e').after (·.remove part) d, some e')

/-- The `try` statement of `run`: the copy, its check and the rename. -/
def takeCopy (S : Sqlite β) (calls : RunCalls β) (source part final : Path) (db : β)
    (d : Files β) : Files β × Option Exc :=
  match calls.backup with
  | .raises left e => dropPart calls part e (left.elim d (d.write part))
  | .done =>
    let copy := newCopy S calls source db d
    match verify S copy.content with
    | some e => dropPart calls part e (d.write part copy)
    | none =>
      match calls.replace with
      | .done => ((d.write part copy).rename part final, none)
      | .raises took e =>
        dropPart calls part e ((Outcome.raises took e).after (·.rename part final) (d.write part copy))

/-- `run`, with the directory of the copies given. -/
def run (S : Sqlite β) (calls : RunCalls β) (source : Path) (directory : List Char) (keep : Int)
    (extras : List Path) (d : Files β) : Files β × Except Exc BackupResult :=
  if keep < 1 then (d, .error (.value "keep должен быть не меньше 1: без копий обновляться нельзя".toList))
  else match (d.read source).filter File.isFile with
  | none => (d, .error (.fileNotFound "базы нет: ".toList source))
  | some db =>
    match calls.mkdir with
    | some e => (d, .error e)
    | none =>
      let final := target directory (stem source.name) calls.now d
      let part := withSuffix final ".part".toList
      match takeCopy S calls source part final db.content d with
      | (d, some e) => (d, .error e)
      | (d, none) =>
        match copyExtras calls final extras d [] with
        | (d, .error e) => (d, .error e)
        | (d, .ok saved) =>
          match prune D calls directory (stem source.name) keep.toNat final d with
          | (d, .error e) => (d, .error e)
          | (d, .ok removed) => (d, .ok { path := final, removed := removed, extras := saved })

/-! ### Names of copies -/

variable {D}

theorem digit_of_isDigit {c : Char} (h : c.isDigit = true) : D.digit c = true := by
  have hrange : 48 ≤ c.toNat ∧ c.toNat ≤ 57 := by
    simp only [Char.isDigit, Bool.and_eq_true, decide_eq_true_eq] at h
    exact h
  rw [D.ascii c (by omega), h]

theorem isStamp_mono {t : List Char} (h : isStamp Char.isDigit t = true) :
    isStamp D.digit t = true := by
  obtain ⟨day, time, rfl, hday, htime, hd, ht⟩ := isStamp_iff.mp h
  exact isStamp_iff.mpr ⟨day, time, rfl, hday, htime, fun c hc => digit_of_isDigit (hd c hc),
    fun c hc => digit_of_isDigit (ht c hc)⟩

theorem mem_stampText {u : List Char} (h : isStampText D u = true) {c : Char} (hc : c ∈ u) :
    D.digit c = true ∨ c = '-' := by
  unfold isStampText at h
  rw [Bool.and_eq_true] at h
  obtain ⟨day, time, htext, _, _, hd, ht⟩ := isStamp_iff.mp h.1
  rw [← List.take_append_drop 15 u, htext] at hc
  rcases List.mem_append.mp hc with hc | hc
  · rcases List.mem_append.mp hc with hc | hc
    · exact Or.inl (hd c hc)
    · rcases List.mem_cons.mp hc with rfl | hc
      · exact Or.inr rfl
      · exact Or.inl (ht c hc)
  · have hnumber := h.2
    unfold isNumber at hnumber
    split at hnumber
    · rename_i hnil
      rw [hnil] at hc
      cases hc
    · rename_i rest hrest
      rw [hrest] at hc
      rcases List.mem_cons.mp hc with rfl | hc
      · exact Or.inr rfl
      · rw [Bool.and_eq_true, List.all_eq_true] at hnumber
        exact Or.inl (hnumber.2 c hc)
    · cases hnumber

theorem dot_not_mem_stampText {u : List Char} (h : isStampText D u = true) : '.' ∉ u := by
  intro hdot
  rcases mem_stampText h hdot with hdigit | heq
  · rw [D.ascii '.' (by decide)] at hdigit
    exact absurd hdigit (by decide)
  · exact absurd heq (by decide)

theorem isStampText_numbered (now : Stamp) (k : Nat) :
    isStampText D (numbered now.text k) = true := by
  have hlen : now.text.length = 15 := by
    obtain ⟨day, time, htext, hday, htime, _, _⟩ := isStamp_iff.mp now.wellFormed
    rw [htext, List.length_append, List.length_cons, hday, htime]
  have htake : (numbered now.text k).take 15 = now.text := by
    unfold numbered
    split
    · rw [← hlen, List.take_length]
    · rw [← hlen, List.take_left]
  unfold isStampText
  rw [htake, isStamp_mono now.wellFormed, Bool.true_and]
  unfold numbered
  split
  · rw [← hlen, List.drop_length]
    rfl
  · rw [← hlen, List.drop_left]
    change (!(Nat.toDigits 10 k).isEmpty && (Nat.toDigits 10 k).all D.digit) = true
    have hne : (Nat.toDigits 10 k).isEmpty = false := by
      rw [List.isEmpty_eq_false_iff]
      exact Nat.toDigits_ne_nil
    rw [hne, Bool.not_false, Bool.true_and, List.all_eq_true]
    intro c hc
    exact digit_of_isDigit (Nat.isDigit_of_mem_toDigits (by decide) (by decide) hc)

/-- The name that a text behind the dash makes. -/
def copyName (st u : List Char) : List Char := st ++ '-' :: u ++ ".db".toList

theorem copyStem_eq (st : List Char) (now : Stamp) (k : Nat) :
    copyStem st now k = st ++ '-' :: numbered now.text k := by
  unfold copyStem numbered
  split
  · rfl
  · simp

theorem stem_copyName (st u : List Char) : stem (copyName st u) = st ++ '-' :: u := by
  have h := @stem_append (st ++ '-' :: u) "db".toList (by simp) (by decide) (by decide)
  exact h

theorem isCopyName_iff {st name : List Char} (hline : '\n' ∉ name) :
    isCopyName D st name = true ↔ ∃ u, isStampText D u = true ∧ name = copyName st u := by
  have hlast : name.getLast? ≠ some '\n' := fun h => hline (List.mem_of_getLast? h)
  unfold isCopyName copyName
  dsimp only
  rw [if_neg hlast, Bool.or_self]
  simp only [Bool.and_eq_true, List.isPrefixOf_iff_prefix, List.isSuffixOf_iff_suffix]
  constructor
  · rintro ⟨⟨⟨r, rfl⟩, hsuffix⟩, htext⟩
    rw [List.drop_left] at hsuffix htext
    obtain ⟨u, rfl⟩ := hsuffix
    have hcut : (u ++ ".db".toList).dropLast.dropLast.dropLast = u := by
      have hthree : ".db".toList = ['.', 'd', 'b'] := rfl
      rw [hthree, show u ++ ['.', 'd', 'b'] = ((u ++ ['.']) ++ ['d']) ++ ['b'] by simp,
        List.dropLast_concat, List.dropLast_concat, List.dropLast_concat]
    rw [hcut] at htext
    exact ⟨u, htext, by simp⟩
  · rintro ⟨u, htext, rfl⟩
    have hsplit : st ++ '-' :: u ++ ".db".toList = (st ++ ['-']) ++ (u ++ ".db".toList) := by simp
    have hcut : (u ++ ".db".toList).dropLast.dropLast.dropLast = u := by
      have hthree : ".db".toList = ['.', 'd', 'b'] := rfl
      rw [hthree, show u ++ ['.', 'd', 'b'] = ((u ++ ['.']) ++ ['d']) ++ ['b'] by simp,
        List.dropLast_concat, List.dropLast_concat, List.dropLast_concat]
    rw [hsplit, List.drop_left, hcut]
    exact ⟨⟨⟨_, rfl⟩, ⟨u, rfl⟩⟩, htext⟩

/-- A text without dots up to the first dot is determined by the whole. -/
theorem append_dot_inj {u v r s : List Char} (hu : '.' ∉ u) (hv : '.' ∉ v)
    (h : u ++ '.' :: r = v ++ '.' :: s) : u = v ∧ r = s := by
  induction u generalizing v with
  | nil =>
    cases v with
    | nil => exact ⟨rfl, (List.cons.inj h).2⟩
    | cons c v =>
      obtain ⟨rfl, _⟩ := List.cons.inj h
      exact absurd List.mem_cons_self hv
  | cons c u ih =>
    cases v with
    | nil =>
      obtain ⟨rfl, _⟩ := List.cons.inj h
      exact absurd List.mem_cons_self hu
    | cons e v =>
      obtain ⟨rfl, hrest⟩ := List.cons.inj h
      obtain ⟨rfl, rfl⟩ := ih (fun hc => hu (List.mem_cons_of_mem _ hc))
        (fun hc => hv (List.mem_cons_of_mem _ hc)) hrest
      exact ⟨rfl, rfl⟩

/-- `n` is the copy `c`, its temporary file or one of the files beside it. -/
def Belongs (c n : Path) : Prop := n.parent = c.parent ∧ ∃ rest, n.name = stem c.name ++ '.' :: rest

theorem belongs_self (directory st u : List Char) :
    Belongs ⟨directory, copyName st u⟩ ⟨directory, copyName st u⟩ := by
  refine ⟨rfl, "db".toList, ?_⟩
  rw [stem_copyName]
  rfl

/-- Files of one name belong to one copy. -/
theorem belongs_unique {directory st u v : List Char} (hu : isStampText D u = true)
    (hv : isStampText D v = true) {n : Path} (h : Belongs ⟨directory, copyName st u⟩ n)
    (h' : Belongs ⟨directory, copyName st v⟩ n) : u = v := by
  obtain ⟨_, r, hr⟩ := h
  obtain ⟨_, s, hs⟩ := h'
  rw [stem_copyName] at hr hs
  rw [hr] at hs
  have hcut : u ++ '.' :: r = v ++ '.' :: s := by simpa using hs
  exact (append_dot_inj (dot_not_mem_stampText hu) (dot_not_mem_stampText hv) hcut).1

theorem target_eq (directory st : List Char) (now : Stamp) (d : Files β) :
    ∃ k, 1 ≤ k ∧ target directory st now d = ⟨directory, copyName st (numbered now.text k)⟩ ∧
      d.read (target directory st now d) = none := by
  obtain ⟨k, hk, heq, hfree, _⟩ := d.freeName_eq (fun k =>
    (⟨directory, copyStem st now k ++ ".db".toList⟩ : Path)) (by
      intro j k hj hk h
      have hname := congrArg Path.name h
      exact numbered_injective_of_pos hj hk (List.append_cancel_right hname))
  unfold target
  rw [heq]
  refine ⟨k, hk, ?_, hfree⟩
  rw [copyStem_eq]
  rfl

end Srp.Server.Backup
