/-
  Srp/Lib/Directory.lean
  ======================
  **Directories: files under distinct names.**

  A directory is the list of its entries, in the order in which the system would
  list them, with no name twice.  The operations are the ones a program has on
  names: read, write, remove and the rename that replaces its target.  Each comes
  with the lemma that computes what may be read afterwards.

  `freeName` is the loop that counts up until a name is not in use.  It ends within
  as many turns as the directory has entries (`freeName_eq`).
-/
import Mathlib.Data.List.Nodup
import Mathlib.Data.List.Perm.Subperm

namespace Srp.Lib

structure Directory (ν β : Type) where
  entries : List (ν × β)
  distinct : (entries.map Prod.fst).Nodup

namespace Directory

variable {ν β : Type}

theorem distinct_filter (d : Directory ν β) (p : ν × β → Bool) :
    ((d.entries.filter p).map Prod.fst).Nodup :=
  d.distinct.sublist (List.filter_sublist.map Prod.fst)

variable [DecidableEq ν]

/-- The file of that name. -/
def read (d : Directory ν β) (n : ν) : Option β :=
  (d.entries.find? fun e => e.1 = n).map Prod.snd

def has (d : Directory ν β) (n : ν) : Bool := (d.read n).isSome

def remove (d : Directory ν β) (n : ν) : Directory ν β :=
  ⟨d.entries.filter fun e => e.1 ≠ n, d.distinct_filter _⟩

theorem not_mem_remove (d : Directory ν β) (n : ν) : n ∉ (d.remove n).entries.map Prod.fst := by
  intro hn
  obtain ⟨e, he, heq⟩ := List.mem_map.mp hn
  have hne := (List.mem_filter.mp he).2
  simp [heq] at hne

/-- The file takes the place of what had that name. -/
def write (d : Directory ν β) (n : ν) (b : β) : Directory ν β :=
  ⟨(n, b) :: (d.remove n).entries, List.nodup_cons.mpr ⟨d.not_mem_remove n, (d.remove n).distinct⟩⟩

/-- The file `src` under the name `dst`; without such a file nothing happens. -/
def rename (d : Directory ν β) (src dst : ν) : Directory ν β :=
  match d.read src with
  | none => d
  | some b => (d.remove src).write dst b

/-! ### What may be read -/

theorem read_eq_some_iff {d : Directory ν β} {n : ν} {b : β} :
    d.read n = some b ↔ (n, b) ∈ d.entries := by
  unfold read
  constructor
  · intro h
    obtain ⟨e, he, rfl⟩ := Option.map_eq_some_iff.mp h
    have hname : e.1 = n := by simpa using List.find?_some he
    have hmem := List.mem_of_find?_eq_some he
    rwa [← hname]
  · intro h
    cases hfind : d.entries.find? fun e => e.1 = n with
    | none =>
      have := List.find?_eq_none.mp hfind _ h
      simp at this
    | some e =>
      have hname : e.1 = n := by simpa using List.find?_some hfind
      have hmem := List.mem_of_find?_eq_some hfind
      have heq : e = (n, b) := List.inj_on_of_nodup_map d.distinct hmem h hname
      rw [heq]
      rfl

theorem has_iff_mem {d : Directory ν β} {n : ν} :
    d.has n = true ↔ n ∈ d.entries.map Prod.fst := by
  unfold has
  rw [Option.isSome_iff_exists, List.mem_map]
  constructor
  · rintro ⟨b, hb⟩
    exact ⟨(n, b), read_eq_some_iff.mp hb, rfl⟩
  · rintro ⟨⟨_, b⟩, hmem, rfl⟩
    exact ⟨b, read_eq_some_iff.mpr hmem⟩

theorem has_eq_false {d : Directory ν β} {n : ν} : d.has n = false ↔ d.read n = none := by
  simp [has]

@[simp] theorem read_remove (d : Directory ν β) (n m : ν) :
    (d.remove n).read m = if m = n then none else d.read m := by
  apply Option.ext
  intro b
  rw [read_eq_some_iff]
  by_cases h : m = n
  · simp [remove, h]
  · simp [remove, h, read_eq_some_iff]

@[simp] theorem read_write (d : Directory ν β) (n m : ν) (b : β) :
    (d.write n b).read m = if m = n then some b else d.read m := by
  by_cases h : m = n
  · subst h
    simp [read, write]
  · have hne : ¬ n = m := fun heq => h heq.symm
    have hrest := d.read_remove n m
    rw [if_neg h] at hrest
    rw [if_neg h, ← hrest]
    simp [read, write, hne]

theorem read_rename (d : Directory ν β) (src dst m : ν) :
    (d.rename src dst).read m =
      match d.read src with
      | none => d.read m
      | some b => if m = dst then some b else if m = src then none else d.read m := by
  unfold rename
  cases d.read src with
  | none => rfl
  | some b => simp only [read_write, read_remove]

theorem read_rename_of_read {d : Directory ν β} {src : ν} {b : β} (h : d.read src = some b)
    (dst m : ν) :
    (d.rename src dst).read m =
      if m = dst then some b else if m = src then none else d.read m := by
  rw [read_rename, h]

/-- A rename touches its two names only. -/
theorem read_rename_other (d : Directory ν β) {src dst m : ν} (hsrc : m ≠ src) (hdst : m ≠ dst) :
    (d.rename src dst).read m = d.read m := by
  rw [read_rename]
  cases d.read src with
  | none => rfl
  | some b => simp only [if_neg hdst, if_neg hsrc]

/-! ### Names not in use -/

/-- The first name of `name i`, `name (i + 1)`, … that is not in use, among `k` of them and the
    one after. -/
def seek (d : Directory ν β) (name : Nat → ν) : Nat → Nat → ν
  | 0, i => name i
  | k + 1, i => if d.has (name i) then seek d name k (i + 1) else name i

def freeName (d : Directory ν β) (name : Nat → ν) : ν := d.seek name d.entries.length 1

variable {d : Directory ν β} {name : Nat → ν}

theorem seek_eq (d : Directory ν β) (name : Nat → ν) (k i : Nat) :
    ∃ j, i ≤ j ∧ j ≤ i + k ∧ d.seek name k i = name j ∧
      (∀ l, i ≤ l → l < j → d.has (name l) = true) ∧ (d.has (name j) = true → j = i + k) := by
  induction k generalizing i with
  | zero =>
    refine ⟨i, Nat.le_refl i, Nat.le_refl i, rfl, ?_, fun _ => rfl⟩
    intro l hl hlt
    exact absurd hl (Nat.not_le.mpr hlt)
  | succ k ih =>
    by_cases h : d.has (name i) = true
    · obtain ⟨j, hij, hj, heq, htaken, hlast⟩ := ih (i + 1)
      refine ⟨j, by omega, by omega, ?_, ?_, ?_⟩
      · rw [seek, if_pos h, heq]
      · intro l hl hlt
        rcases Nat.lt_or_eq_of_le hl with hil | rfl
        · exact htaken l hil hlt
        · exact h
      · intro hj'
        have := hlast hj'
        omega
    · refine ⟨i, Nat.le_refl i, Nat.le_add_right i _, ?_, ?_, fun h' => absurd h' h⟩
      · rw [seek, if_neg h]
      · intro l hl hlt
        exact absurd hl (Nat.not_le.mpr hlt)

/-- Among one more distinct name than there are entries one is not in use. -/
theorem not_all_taken {i : Nat}
    (hinj : ∀ j k, i ≤ j → i ≤ k → name j = name k → j = k) :
    ¬ ∀ l, i ≤ l → l ≤ i + d.entries.length → d.has (name l) = true := by
  intro hall
  have hnodup : ((List.range' i (d.entries.length + 1)).map name).Nodup := by
    refine List.Nodup.map_on ?_ List.nodup_range'
    intro j hj k hk heq
    exact hinj j k (List.mem_range'_1.mp hj).1 (List.mem_range'_1.mp hk).1 heq
  have hsub : (List.range' i (d.entries.length + 1)).map name ⊆ d.entries.map Prod.fst := by
    intro n hn
    obtain ⟨l, hl, rfl⟩ := List.mem_map.mp hn
    have hbounds := List.mem_range'_1.mp hl
    exact has_iff_mem.mp (hall l hbounds.1 (by omega))
  have hlen := (hnodup.subperm hsub).length_le
  simp only [List.length_map, List.length_range'] at hlen
  omega

/-- The loop ends with a name that is not in use; the ones it passed over are. -/
theorem freeName_eq (d : Directory ν β) (name : Nat → ν)
    (hinj : ∀ j k, 1 ≤ j → 1 ≤ k → name j = name k → j = k) :
    ∃ j, 1 ≤ j ∧ d.freeName name = name j ∧ d.read (name j) = none ∧
      ∀ l, 1 ≤ l → l < j → d.has (name l) = true := by
  obtain ⟨j, hj, hle, heq, htaken, hlast⟩ := d.seek_eq name d.entries.length 1
  refine ⟨j, hj, heq, ?_, htaken⟩
  cases hhas : d.has (name j) with
  | false => exact has_eq_false.mp hhas
  | true =>
    have hend := hlast hhas
    refine absurd ?_ (not_all_taken (d := d) hinj)
    intro l hl hl'
    rcases Nat.lt_or_eq_of_le (hend ▸ hl' : l ≤ j) with hlt | rfl
    · exact htaken l hl hlt
    · exact hhas

end Directory

end Srp.Lib
