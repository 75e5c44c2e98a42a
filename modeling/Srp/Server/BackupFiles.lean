/-
  Srp/Server/BackupFiles.lean
  ===========================
  **Paths, names and copies of the database file.**

  What taking a copy and restoring one have in common: the parts of a file name as
  `pathlib` reads them, the time stamp in a name, the two loops that look for a name
  not in use, and the check of a copy.  SQLite itself is a parameter.  A connection that
  finds a journal beside its file writes it back and removes it on closing; the check of a
  copy is modelled for files without one (`Bare`).
-/
import Srp.Lib.UndoLog
import Srp.Lib.Dotted
import Mathlib.Data.List.TakeWhile

namespace Srp.Server.Backup

open Srp.Lib

/-! ### Paths -/

structure Path where
  parent : List Char
  name : List Char
deriving DecidableEq

def Path.withName (p : Path) (name : List Char) : Path := { p with name := name }

@[simp] theorem Path.withName_inj {p : Path} {a b : List Char} :
    p.withName a = p.withName b ↔ a = b := by
  simp [Path.withName]

@[simp] theorem Path.withName_name (p : Path) : p.withName p.name = p := rfl

/-- The characters behind the last dot, all of them if there is none. -/
def extension (name : List Char) : List Char := (name.reverse.takeWhile (· ≠ '.')).reverse

/-- `PurePath.stem`: a dot in front or at the end of a name is no suffix. -/
def stem (name : List Char) : List Char :=
  let i := name.length - (extension name).length - 1
  if 0 < i ∧ 0 < (extension name).length then name.take i else name

theorem append_extension (name : List Char) :
    (name.reverse.dropWhile (· ≠ '.')).reverse ++ extension name = name := by
  unfold extension
  rw [← List.reverse_append, List.takeWhile_append_dropWhile, List.reverse_reverse]

theorem dot_not_mem_extension (name : List Char) : '.' ∉ extension name := by
  unfold extension
  rw [List.mem_reverse]
  intro h
  have := List.mem_takeWhile_imp h
  simp at this

/-- A name is its stem, or its stem and an extension without dots. -/
theorem stem_eq_or (name : List Char) :
    stem name = name ∨ name = stem name ++ '.' :: extension name := by
  unfold stem
  dsimp only
  split
  · rename_i h
    right
    have hsplit := (append_extension name).symm
    have hlen := congrArg List.length hsplit
    rw [List.length_append] at hlen
    cases hrest : name.reverse.dropWhile (· ≠ '.') with
    | nil =>
      rw [hrest] at hlen
      simp only [List.reverse_nil, List.length_nil] at hlen
      omega
    | cons c rest =>
      have hc : c = '.' := by
        have := List.head?_dropWhile_not (fun c : Char => decide (c ≠ '.')) name.reverse
        rw [hrest] at this
        simpa using this
      rw [hrest, hc, List.reverse_cons] at hsplit
      rw [hrest, List.length_reverse, List.length_cons] at hlen
      have htake : name.take (name.length - (extension name).length - 1) = rest.reverse := by
        have hi : name.length - (extension name).length - 1 = rest.reverse.length := by
          rw [List.length_reverse]
          omega
        rw [hi]
        conv_lhs => rw [hsplit]
        rw [List.append_assoc, List.take_left]
      rw [htake]
      conv_lhs => rw [hsplit]
      simp
  · exact Or.inl rfl

/-- The stem of a name with an extension of its own. -/
theorem stem_append {t ext : List Char} (ht : t ≠ []) (hext : ext ≠ []) (hdot : '.' ∉ ext) :
    stem (t ++ '.' :: ext) = t := by
  have hextension : extension (t ++ '.' :: ext) = ext := by
    unfold extension
    have hrev : (t ++ '.' :: ext).reverse = ext.reverse ++ '.' :: t.reverse := by simp
    rw [hrev, List.takeWhile_append_of_pos]
    · simp
    · intro c hc
      have : c ≠ '.' := fun h => hdot (h ▸ List.mem_reverse.mp hc)
      simpa using this
  have hi : (t ++ '.' :: ext).length - ext.length - 1 = t.length := by
    rw [List.length_append, List.length_cons]
    omega
  unfold stem
  dsimp only
  rw [hextension, hi, if_pos ⟨List.length_pos_of_ne_nil ht, List.length_pos_of_ne_nil hext⟩,
    List.take_left]

/-! ### Time stamps -/

/-- `%Y%m%d-%H%M%S`, of digits that `digit` takes for such. -/
def isStamp (digit : Char → Bool) (t : List Char) : Bool :=
  t.length == 15 && (t.take 8).all digit && (t.drop 8).head? == some '-' && (t.drop 9).all digit

/-- A moment as the names spell it. -/
structure Stamp where
  text : List Char
  wellFormed : isStamp Char.isDigit text = true

theorem isStamp_iff {digit : Char → Bool} {t : List Char} :
    isStamp digit t = true ↔ ∃ day time, t = day ++ '-' :: time ∧ day.length = 8 ∧
      time.length = 6 ∧ (∀ c ∈ day, digit c = true) ∧ ∀ c ∈ time, digit c = true := by
  unfold isStamp
  simp only [Bool.and_eq_true, beq_iff_eq, List.all_eq_true]
  constructor
  · rintro ⟨⟨⟨hlen, hday⟩, hdash⟩, htime⟩
    refine ⟨t.take 8, t.drop 9, ?_, ?_, ?_, hday, htime⟩
    · conv_lhs => rw [← List.take_append_drop 8 t]
      cases hdrop : t.drop 8 with
      | nil => rw [hdrop] at hdash; cases hdash
      | cons c rest =>
        rw [hdrop] at hdash
        obtain rfl : c = '-' := by simpa using hdash
        have hnine : t.drop 9 = rest := by
          rw [show (9 : Nat) = 8 + 1 from rfl, ← List.drop_drop, hdrop]
          rfl
        rw [hnine]
    · rw [List.length_take]
      omega
    · rw [List.length_drop]
      omega
  · rintro ⟨day, time, rfl, hday, htime, hd, ht⟩
    have htake : (day ++ '-' :: time).take 8 = day := by rw [← hday, List.take_left]
    have hdrop : (day ++ '-' :: time).drop 8 = '-' :: time := by rw [← hday, List.drop_left]
    have hnine : (day ++ '-' :: time).drop 9 = time := by
      rw [show (9 : Nat) = 8 + 1 from rfl, ← List.drop_drop, hdrop]
      rfl
    refine ⟨⟨⟨?_, ?_⟩, ?_⟩, ?_⟩
    · rw [List.length_append, List.length_cons, hday, htime]
    · rw [htake]
      exact hd
    · rw [hdrop]
      rfl
    · rw [hnine]
      exact ht

/-- A name and its later versions: `name`, `name-2`, `name-3`, … -/
def numbered (name : List Char) (k : Nat) : List Char :=
  if k ≤ 1 then name else name ++ '-' :: Nat.toDigits 10 k

theorem numbered_injective_of_pos {name : List Char} {j k : Nat} (hj : 1 ≤ j) (hk : 1 ≤ k)
    (h : numbered name j = numbered name k) : j = k := by
  unfold numbered at h
  split at h <;> split at h
  · omega
  · have := congrArg List.length h
    simp at this
  · have := congrArg List.length h
    simp at this
  · rw [List.append_cancel_left_eq, List.cons.injEq] at h
    exact toDigits_injective h.2

/-- A stamp, with its number if it has one, ends with a digit. -/
theorem Stamp.getLast_numbered (t : List Char) (now : Stamp) (k : Nat) :
    ∃ c, (numbered (t ++ now.text) k).getLast? = some c ∧ c.isDigit = true := by
  obtain ⟨day, time, htext, _, hlen, _, htime⟩ := isStamp_iff.mp now.wellFormed
  unfold numbered
  split
  · have hne : time ≠ [] := List.ne_nil_of_length_pos (by omega)
    refine ⟨time.getLast hne, ?_, htime _ (List.getLast_mem hne)⟩
    rw [htext]
    simp [List.getLast?_append, List.getLast?_cons, List.getLast?_eq_getLast_of_ne_nil hne]
  · have hne : Nat.toDigits 10 k ≠ [] := Nat.toDigits_ne_nil
    refine ⟨(Nat.toDigits 10 k).getLast hne, ?_,
      Nat.isDigit_of_mem_toDigits (by decide) (by decide) (List.getLast_mem hne)⟩
    simp [List.getLast?_append, List.getLast?_cons, List.getLast?_eq_getLast_of_ne_nil hne]

/-! ### Files -/

/-- What the calls raise, as far as the code tells it apart.  The text of a `fileNotFound` ends with
    its path. -/
inductive Exc where
  | fileNotFound (message : List Char) (path : Path)
  | permission
  | os
  | sqlite (message : List Char)
  | value (message : List Char)
  | other
deriving DecidableEq

/-- `OSError` and the classes below it. -/
def Exc.isOSError : Exc → Bool
  | .fileNotFound _ _ | .permission | .os => true
  | .sqlite _ | .value _ | .other => false

structure File (β : Type) where
  content : β
  mtime : Int
  isFile : Bool := true

abbrev Files (β : Type) := Directory Path (File β)

/-- What the code asks of SQLite: the first field of the row that `PRAGMA quick_check` returns, and
    the contents that `Connection.backup` makes of a database file and its journal. -/
structure Sqlite (β : Type) where
  quickCheck : β → Except Exc (Option (List Char))
  snapshot : β → Option β → β

/-- What follows the name of a database in the names of its journals and of a journal's index. -/
def journals : List (List Char) := ["-wal".toList, "-shm".toList, "-journal".toList]

/-- No journal lies beside a file: opening it as a database changes nothing. -/
def Bare {β : Type} (d : Files β) (p : Path) : Prop :=
  ∀ s ∈ journals, d.has (p.withName (p.name ++ s)) = false

instance {β : Type} (d : Files β) (p : Path) : Decidable (Bare d p) := by
  unfold Bare
  infer_instance

/-- The exception of `_verify` on a file with no journal beside it. -/
def verify {β : Type} (S : Sqlite β) (content : β) : Option Exc :=
  match S.quickCheck content with
  | .error e => some e
  | .ok (some row) =>
    if row = "ok".toList then none
    else some (.sqlite ("копия не прошла quick_check: ".toList ++ row))
  | .ok none => some (.sqlite "копия не прошла quick_check: нет ответа".toList)

/-- `Path.is_file` -/
def isFile {β : Type} (d : Files β) (p : Path) : Bool :=
  match d.read p with
  | some f => f.isFile
  | none => false

/-- How a call ends that writes a file: it is done, or it raises and may leave something there. -/
inductive Written (β : Type) where
  | done
  | raises (left : Option (File β)) (e : Exc)

/-! ### A database with a journal, and a copy of it -/

def sampleSqlite : Sqlite Nat where
  quickCheck _ := .ok (some "ok".toList)
  snapshot db journal := db + journal.getD 0

def sampleDatabase : Path := ⟨"srp".toList, "srp.db".toList⟩

def sampleCopy : Path := ⟨"backups".toList, "srp-20250101-000000.db".toList⟩

def sampleEntries : List (Path × File Nat) :=
  [(sampleDatabase, { content := 1, mtime := 0 }),
    (sampleDatabase.withName "srp.db-wal".toList, { content := 2, mtime := 0 }),
    (sampleCopy, { content := 3, mtime := 0 })]

theorem sampleEntries_nodup : (sampleEntries.map Prod.fst).Nodup := by decide

def sampleFiles : Files Nat := ⟨sampleEntries, sampleEntries_nodup⟩

theorem sampleStamp_wellFormed : isStamp Char.isDigit "20250102-000000".toList = true := by decide

def sampleStamp : Stamp := ⟨"20250102-000000".toList, sampleStamp_wellFormed⟩

end Srp.Server.Backup
