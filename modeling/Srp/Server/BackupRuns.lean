/-
  Srp/Server/BackupRuns.lean
  ==========================
  **What a run of the backup does to its directory.**

  * `run_frame`: what a run may change at all, whatever the calls do: its own new
    name, and the copies that have `keep - 1` newer ones beside them.
  * `run_verified`: no file ever stands under a copy's name without having passed the
    check.
  * `run_keeps_newest`: exactly which copies are left when a run returns.
-/
import Srp.Lib.GroupBy
import Srp.Server.BackupSteps

namespace Srp.Server.Backup

open Srp.Lib Srp.Lib.GroupBy

variable {β : Type} {D : Digits}

/-! ### Which copies are old -/

theorem nameLt_irrefl (s : List Char) : nameLt s s = false := by
  induction s with
  | nil => rfl
  | cons c s ih => simp [nameLt, ih]

theorem nameLt_trans {s t u : List Char} (h₁ : nameLt s t = true) (h₂ : nameLt t u = true) :
    nameLt s u = true := by
  induction s generalizing t u with
  | nil =>
    cases u with
    | nil => cases t <;> cases h₂
    | cons _ _ => rfl
  | cons a s ih =>
    cases t with
    | nil => cases h₁
    | cons b t =>
      cases u with
      | nil => cases h₂
      | cons c u =>
        simp only [nameLt, Bool.or_eq_true, decide_eq_true_eq, Bool.and_eq_true, beq_iff_eq]
          at h₁ h₂ ⊢
        rcases h₁ with h₁ | ⟨h₁, hs⟩ <;> rcases h₂ with h₂ | ⟨h₂, ht⟩
        · exact Or.inl (by omega)
        · exact Or.inl (by omega)
        · exact Or.inl (by omega)
        · exact Or.inr ⟨by omega, ih hs ht⟩

theorem nameLt_trichotomy (s t : List Char) :
    nameLt s t = true ∨ s = t ∨ nameLt t s = true := by
  induction s generalizing t with
  | nil =>
    cases t with
    | nil => exact Or.inr (Or.inl rfl)
    | cons _ _ => exact Or.inl rfl
  | cons a s ih =>
    cases t with
    | nil => exact Or.inr (Or.inr rfl)
    | cons b t =>
      simp only [nameLt, Bool.or_eq_true, decide_eq_true_eq, Bool.and_eq_true, beq_iff_eq]
      rcases Nat.lt_trichotomy a.toNat b.toNat with h | h | h
      · exact Or.inl (Or.inl h)
      · obtain rfl := Char.toNat_inj.mp h
        rcases ih t with h | rfl | h
        · exact Or.inl (Or.inr ⟨rfl, h⟩)
        · exact Or.inr (Or.inl rfl)
        · exact Or.inr (Or.inr (Or.inr ⟨rfl, h⟩))
      · exact Or.inr (Or.inr (Or.inl h))

theorem noOlder_iff {e f : Path × Int} :
    noOlder e f = true ↔ f.2 < e.2 ∨ f.2 = e.2 ∧ nameLt e.1.name f.1.name = false := by
  simp [noOlder]

instance : Std.Total fun e f : Path × Int => noOlder e f = true where
  total := by
    intro e f
    simp only [noOlder_iff]
    rcases lt_trichotomy e.2 f.2 with h | h | h
    · exact Or.inr (Or.inl h)
    · cases hlt : nameLt e.1.name f.1.name with
      | false => exact Or.inl (Or.inr ⟨h.symm, rfl⟩)
      | true =>
        refine Or.inr (Or.inr ⟨h, ?_⟩)
        cases hgt : nameLt f.1.name e.1.name with
        | false => rfl
        | true =>
          have := nameLt_trans hlt hgt
          rw [nameLt_irrefl] at this
          cases this
    · exact Or.inl (Or.inl h)

instance : IsTrans (Path × Int) fun e f => noOlder e f = true where
  trans := by
    intro e f g hef hfg
    rw [noOlder_iff] at hef hfg ⊢
    rcases hef with h₁ | ⟨h₁, hs⟩ <;> rcases hfg with h₂ | ⟨h₂, ht⟩
    · exact Or.inl (h₂.trans h₁)
    · exact Or.inl (h₂ ▸ h₁)
    · exact Or.inl (h₁ ▸ h₂)
    · refine Or.inr ⟨h₂.trans h₁, ?_⟩
      cases hlt : nameLt e.1.name g.1.name with
      | false => rfl
      | true =>
        rcases nameLt_trichotomy f.1.name e.1.name with h | h | h
        · rw [nameLt_trans h hlt] at ht
          cases ht
        · rw [h, hlt] at ht
          cases ht
        · rw [h] at hs
          cases hs

/-- Copies of one directory that are no older than each other are one. -/
theorem noOlder_antisymm {e f : Path × Int} (hparent : e.1.parent = f.1.parent)
    (h : noOlder e f = true) (h' : noOlder f e = true) : e = f := by
  rw [noOlder_iff] at h h'
  have htime : e.2 = f.2 := by
    rcases h with h | h <;> rcases h' with h' | h' <;> omega
  have hname : e.1.name = f.1.name := by
    rcases nameLt_trichotomy e.1.name f.1.name with hlt | heq | hlt
    · rcases h with h | ⟨_, h⟩
      · omega
      · rw [h] at hlt
        cases hlt
    · exact heq
    · rcases h' with h' | ⟨_, h'⟩
      · omega
      · rw [h'] at hlt
        cases hlt
  obtain ⟨⟨_, _⟩, _⟩ := e
  obtain ⟨⟨_, _⟩, _⟩ := f
  simp_all

section Mine

variable {directory st : List Char} {fresh : Path} {d d' : Files β} {keep : Nat}

theorem mem_mine {e : Path × Int} : e ∈ mine D directory st fresh d ↔
    ∃ f, d.read e.1 = some f ∧ e.2 = f.mtime ∧ e.1.parent = directory ∧ f.isFile = true ∧
      isCopyName D st e.1.name = true ∧ e.1.name ≠ fresh.name := by
  unfold mine
  rw [List.mem_map]
  constructor
  · rintro ⟨⟨p, f⟩, hmem, rfl⟩
    obtain ⟨hentry, hcond⟩ := List.mem_filter.mp hmem
    simp only [Bool.and_eq_true, decide_eq_true_eq] at hcond
    obtain ⟨⟨⟨hparent, hfile⟩, hname⟩, hne⟩ := hcond
    exact ⟨f, Directory.read_eq_some_iff.mpr hentry, rfl, hparent, hfile, hname, hne⟩
  · rintro ⟨f, hread, htime, hparent, hfile, hname, hne⟩
    refine ⟨(e.1, f), ?_, by rw [← htime]⟩
    rw [List.mem_filter]
    refine ⟨Directory.read_eq_some_iff.mp hread, ?_⟩
    simp only [Bool.and_eq_true, decide_eq_true_eq]
    exact ⟨⟨⟨hparent, hfile⟩, hname⟩, hne⟩

theorem mine_nodup : (mine D directory st fresh d).Nodup := by
  have hnames : ((mine D directory st fresh d).map Prod.fst).Nodup := by
    unfold mine
    rw [List.map_map]
    exact d.distinct_filter _
  exact hnames.of_map

/-- Directories that agree on the other copies have the same copies to prune. -/
theorem mine_perm (h : ∀ p : Path, p.parent = directory → isCopyName D st p.name = true →
    p.name ≠ fresh.name → d'.read p = d.read p) :
    (mine D directory st fresh d').Perm (mine D directory st fresh d) := by
  rw [List.perm_ext_iff_of_nodup mine_nodup mine_nodup]
  intro e
  rw [mem_mine, mem_mine]
  constructor <;>
  · rintro ⟨f, hread, htime, hparent, hfile, hname, hne⟩
    refine ⟨f, ?_, htime, hparent, hfile, hname, hne⟩
    first
      | rw [← h e.1 hparent hname hne, hread]
      | rw [h e.1 hparent hname hne, hread]

/-- How many other copies are newer. -/
def newer (D : Digits) (directory st : List Char) (fresh : Path) (d : Files β) (e : Path × Int) :
    Nat :=
  (mine D directory st fresh d).countP fun f => noOlder f e && f ≠ e

theorem newer_eq (h : ∀ p : Path, p.parent = directory → isCopyName D st p.name = true →
    p.name ≠ fresh.name → d'.read p = d.read p) (e : Path × Int) :
    newer D directory st fresh d' e = newer D directory st fresh d e := (mine_perm h).countP_eq _

/-- The pruning takes the copies with at least `keep - 1` newer ones. -/
theorem mem_staleCopies {p : Path} : p ∈ staleCopies D directory st keep fresh d ↔
    ∃ t, (p, t) ∈ mine D directory st fresh d ∧
      keep - 1 ≤ newer D directory st fresh d (p, t) := by
  have hmine : (mine D directory st fresh d).Nodup := mine_nodup
  have hperm := List.perm_insertionSort (fun e f => noOlder e f = true)
    (mine D directory st fresh d)
  have hsorted := hperm.nodup_iff.mpr hmine
  have hahead : ∀ e ∈ mine D directory st fresh d, ((mine D directory st fresh d).countP fun f =>
      Ahead (fun e f => noOlder e f = true) (mine D directory st fresh d) f e) =
        newer D directory st fresh d e := by
    intro e he
    unfold newer
    apply List.countP_congr
    intro f hf
    simp only [Bool.and_eq_true, decide_eq_true_eq]
    constructor
    · intro h
      refine ⟨h.1, ?_⟩
      rintro rfl
      exact h.asymm hmine h
    · rintro ⟨hle, hne⟩
      refine ⟨hle, fun hge => absurd ?_ hne⟩
      obtain ⟨_, _, _, hpf, _⟩ := mem_mine.mp hf
      obtain ⟨_, _, _, hpe, _⟩ := mem_mine.mp he
      exact noOlder_antisymm (hpf.trans hpe.symm) hle hge
  have hdrop : ∀ e, e ∈ ((mine D directory st fresh d).insertionSort
      fun e f => noOlder e f = true).drop (keep - 1) ↔ e ∈ mine D directory st fresh d ∧
        keep - 1 ≤ newer D directory st fresh d e := by
    intro e
    have htake := mem_take_insertionSort (r := fun e f => noOlder e f = true) (x := e) hmine
      (n := keep - 1)
    rw [← List.take_append_drop (keep - 1) ((mine D directory st fresh d).insertionSort
      fun e f => noOlder e f = true), List.nodup_append] at hsorted
    have hmem := hperm.mem_iff (a := e)
    rw [← List.take_append_drop (keep - 1) ((mine D directory st fresh d).insertionSort
      fun e f => noOlder e f = true), List.mem_append] at hmem
    constructor
    · intro h
      have he := hmem.mp (Or.inr h)
      refine ⟨he, ?_⟩
      rw [← hahead e he]
      by_contra hlt
      have htaken := htake.mpr ⟨he, Nat.lt_of_not_le hlt⟩
      exact hsorted.2.2 e htaken e h rfl
    · rintro ⟨he, hle⟩
      refine (hmem.mpr he).resolve_left fun htaken => ?_
      have := (htake.mp htaken).2
      rw [hahead e he] at this
      omega
  unfold staleCopies
  rw [List.mem_map]
  constructor
  · rintro ⟨⟨q, t⟩, hq, rfl⟩
    exact ⟨t, (hdrop _).mp hq⟩
  · rintro ⟨t, ht⟩
    exact ⟨(p, t), (hdrop _).mpr ht, rfl⟩

end Mine

/-! ### Runs -/

section Runs

variable {S : Sqlite β} {calls : RunCalls β} {source : Path} {directory : List Char} {keep : Int}
  {extras : List Path} {d : Files β}

/-- The name that a run gives its copy. -/
abbrev freshPath (calls : RunCalls β) (source : Path) (directory : List Char) (d : Files β) : Path :=
  target directory (stem source.name) calls.now d

/-- No name has a line break, which `$` would overlook, and no extra file is called `db`, which
    would be laid over the copy. -/
structure PlainNames (source : Path) (extras : List Path) (d : Files β) : Prop where
  entries : ∀ p, d.has p = true → '\n' ∉ p.name
  source : '\n' ∉ source.name
  extras : ∀ e ∈ extras, '\n' ∉ e.name ∧ e.name ≠ "db".toList

/-- The paths that a run writes. -/
def Touches (calls : RunCalls β) (source : Path) (directory : List Char) (extras : List Path)
    (d : Files β) (n : Path) : Prop :=
  n = freshPath calls source directory d ∨
    n = withSuffix (freshPath calls source directory d) ".part".toList ∨
    ∃ e ∈ extras, n = companion (freshPath calls source directory d) e.name

theorem freshPath_eq (calls : RunCalls β) (source : Path) (directory : List Char) (d : Files β) :
    ∃ u, isStampText D u = true ∧ (∀ c ∈ u, c.isDigit = true ∨ c = '-') ∧
      freshPath calls source directory d = ⟨directory, copyName (stem source.name) u⟩ ∧
      d.read (freshPath calls source directory d) = none := by
  obtain ⟨k, _, heq, hfree⟩ := target_eq directory (stem source.name) calls.now d
  have hascii : isStampText { digit := Char.isDigit, ascii := fun _ _ => rfl }
      (numbered calls.now.text k) = true := isStampText_numbered calls.now k
  exact ⟨_, isStampText_numbered calls.now k, fun c hc => mem_stampText hascii hc, heq, hfree⟩

theorem written_belongs {n : Path} (h : Touches calls source directory extras d n) :
    Belongs (freshPath calls source directory d) n := by
  obtain ⟨k, _, heq, _⟩ := target_eq directory (stem source.name) calls.now d
  rw [Touches, freshPath, heq] at h
  rw [freshPath, heq]
  rcases h with rfl | rfl | ⟨e, _, rfl⟩
  · exact belongs_self _ _ _
  · exact part_belongs _ _ _
  · exact ⟨rfl, e.name, rfl⟩

theorem mem_stem {name : List Char} {c : Char} (h : c ∈ stem name) : c ∈ name := by
  unfold stem at h
  dsimp only at h
  split at h
  · exact List.mem_of_mem_take h
  · exact h

theorem written_plain (hplain : PlainNames source extras d) {n : Path}
    (h : Touches calls source directory extras d n) : '\n' ∉ n.name := by
  obtain ⟨u, _, hu, heq, _⟩ :=
    freshPath_eq (D := ⟨Char.isDigit, fun _ _ => rfl⟩) calls source directory d
  have hhead : '\n' ∉ stem source.name ++ '-' :: u := by
    intro hmem
    rcases List.mem_append.mp hmem with hmem | hmem
    · exact hplain.source (mem_stem hmem)
    · rcases List.mem_cons.mp hmem with hmem | hmem
      · exact absurd hmem (by decide)
      · rcases hu _ hmem with h | h
        · exact absurd h (by decide)
        · exact absurd h (by decide)
  have htail : ∀ ext : List Char, '\n' ∉ ext → '\n' ∉ stem source.name ++ '-' :: u ++ ext := by
    intro ext hext hmem
    exact (List.mem_append.mp hmem).elim hhead hext
  rw [Touches, heq] at h
  rcases h with rfl | rfl | ⟨e, he, rfl⟩
  · exact htail _ (by decide)
  · simp only [withSuffix, Path.withName, stem_copyName]
    exact htail _ (by decide)
  · simp only [companion, Path.withName, stem_copyName]
    apply htail
    intro hmem
    rcases List.mem_cons.mp hmem with hmem | hmem
    · exact absurd hmem (by decide)
    · exact (hplain.extras e he).1 hmem

/-- Of the paths that a run writes only its own copy has a copy's name. -/
theorem eq_fresh_of_written (hplain : PlainNames source extras d) {n : Path}
    (h : Touches calls source directory extras d n)
    (hname : isCopyName D (stem source.name) n.name = true) :
    n = freshPath calls source directory d := by
  obtain ⟨u, hu, _, heq, _⟩ := freshPath_eq (D := D) calls source directory d
  have hbelongs := written_belongs h
  obtain ⟨v, hv, hcopy⟩ := (isCopyName_iff (written_plain hplain h)).mp hname
  have hparent := hbelongs.1
  rw [heq] at hbelongs hparent ⊢
  have hn : n = ⟨directory, copyName (stem source.name) v⟩ := by
    obtain ⟨_, _⟩ := n
    simp_all
  have hself := belongs_self directory (stem source.name) v
  rw [← hn] at hself
  rw [hn, belongs_unique hv hu (hn ▸ hself) hbelongs]

/-- A run stops before it writes anything, or what it does is taking the copy, laying the extra
    files beside it and pruning, as far as each lets it come. -/
theorem run_cases (D : Digits) (S : Sqlite β) (calls : RunCalls β) (source : Path)
    (directory : List Char) (keep : Int) (extras : List Path) (d : Files β) :
    ((run D S calls source directory keep extras d).1 = d ∧
      ∃ e, (run D S calls source directory keep extras d).2 = .error e) ∨
    ∃ db, d.read source = some db ∧
      let final := freshPath calls source directory d
      let first := takeCopy S calls source (withSuffix final ".part".toList) final db.content d
      let second := copyExtras calls final extras first.1 []
      let third := prune D calls directory (stem source.name) keep.toNat final second.1
      ((run D S calls source directory keep extras d).1 = first.1 ∧
        ∃ e, (run D S calls source directory keep extras d).2 = .error e) ∨
      first.2 = none ∧
        (((run D S calls source directory keep extras d).1 = second.1 ∧
          ∃ e, (run D S calls source directory keep extras d).2 = .error e) ∨
        (run D S calls source directory keep extras d).1 = third.1 ∧
          ∀ res, (run D S calls source directory keep extras d).2 = .ok res →
            1 ≤ keep ∧ res.path = final ∧ third.2 = .ok res.removed) := by
  unfold run
  split
  · exact Or.inl ⟨rfl, _, rfl⟩
  · rename_i hkeep
    split
    · exact Or.inl ⟨rfl, _, rfl⟩
    · rename_i db hsource
      split
      · exact Or.inl ⟨rfl, _, rfl⟩
      · refine Or.inr ⟨db, (Option.filter_eq_some_iff.mp hsource).1, ?_⟩
        dsimp only
        split
        · rename_i heq
          exact Or.inl ⟨by rw [heq], _, rfl⟩
        · rename_i heq
          refine Or.inr ⟨by rw [heq], ?_⟩
          rw [heq]
          dsimp only
          split
          · rename_i heq₂
            exact Or.inl ⟨by rw [heq₂], _, rfl⟩
          · rename_i heq₂
            rw [heq₂]
            dsimp only
            split
            · rename_i heq₃
              refine Or.inr ⟨by rw [heq₃], ?_⟩
              intro res hres
              cases hres
            · rename_i heq₃
              refine Or.inr ⟨by rw [heq₃], ?_⟩
              intro res hres
              obtain rfl := (Except.ok.injEq _ _).mp hres
              exact ⟨by omega, rfl, by rw [heq₃]⟩

/-- Up to the pruning a run changes only what it writes; its own name is free or holds a file that
    passed the check. -/
theorem read_before_prune (S : Sqlite β) (calls : RunCalls β) (source : Path)
    (directory : List Char) {extras : List Path} {d : Files β} (hplain : PlainNames source extras d)
    (db : β) :
    let final := freshPath calls source directory d
    let first := takeCopy S calls source (withSuffix final ".part".toList) final db d
    let second := copyExtras calls final extras first.1 []
    (∀ n, ¬ Touches calls source directory extras d n →
      first.1.read n = d.read n ∧ second.1.read n = d.read n) ∧
      (∀ f, first.1.read final = some f → verify S f.content = none) ∧
      second.1.read final = first.1.read final ∧
      (first.2 = none → first.1.read final = some (newCopy S calls source db d)) := by
  dsimp only
  obtain ⟨k, _, heq, hfree⟩ := target_eq directory (stem source.name) calls.now d
  have hne : withSuffix (freshPath calls source directory d) ".part".toList ≠
      freshPath calls source directory d := by
    rw [freshPath, heq]
    exact part_ne _ _ _
  obtain ⟨hcareful, hdone⟩ := takeCopy_careful S calls source hne db hfree
  refine ⟨?_, hcareful.checked, ?_, hdone⟩
  · intro n hn
    have hfirst := hcareful.other n (fun h => hn (Or.inr (Or.inl h))) fun h => hn (Or.inl h)
    refine ⟨hfirst, (read_copyExtras extras ?_).trans hfirst⟩
    intro e he h
    exact hn (Or.inr (Or.inr ⟨e, he, h⟩))
  · apply read_copyExtras
    intro e he h
    rw [freshPath, heq] at h
    exact companion_ne (hplain.extras e he).2 h.symm

/-- The copies that a run finds old: those with at least `keep - 1` newer ones beside them. -/
def Old (D : Digits) (calls : RunCalls β) (source : Path) (directory : List Char) (keep : Int)
    (d : Files β) (c : Path) : Prop :=
  ∃ t, (c, t) ∈ mine D directory (stem source.name) (freshPath calls source directory d) d ∧
    keep.toNat - 1 ≤ newer D directory (stem source.name) (freshPath calls source directory d) d (c, t)

theorem Old.copy (hplain : PlainNames source extras d) {c : Path}
    (h : Old D calls source directory keep d c) :
    ∃ u, isStampText D u = true ∧ c = ⟨directory, copyName (stem source.name) u⟩ ∧
      c ≠ freshPath calls source directory d := by
  obtain ⟨t, hmem, _⟩ := h
  obtain ⟨f, hread, _, hparent, _, hname, hne⟩ := mem_mine.mp hmem
  have hhas : d.has c = true := by simp [Directory.has, hread]
  obtain ⟨u, hu, hcopy⟩ := (isCopyName_iff (hplain.entries c hhas)).mp hname
  refine ⟨u, hu, ?_, fun h => hne (congrArg Path.name h)⟩
  obtain ⟨_, _⟩ := c
  simp_all

/-- What lies beside the new copy does not lie beside an old one. -/
theorem Old.not_belongs (hplain : PlainNames source extras d) {c n : Path}
    (h : Old D calls source directory keep d c)
    (hn : Belongs (freshPath calls source directory d) n) : ¬ Belongs c n := by
  intro hc
  obtain ⟨u, hu, rfl, hne⟩ := h.copy hplain
  obtain ⟨v, hv, _, heq, _⟩ := freshPath_eq (D := D) calls source directory d
  rw [heq] at hn hne
  exact hne (by rw [belongs_unique hu hv hc hn])

/-- Pruning after the writing finds the same old copies as before it. -/
theorem stale_iff_old (hplain : PlainNames source extras d) {d₂ : Files β}
    (hread : ∀ n, ¬ Touches calls source directory extras d n → d₂.read n = d.read n) {c : Path} :
    c ∈ staleCopies D directory (stem source.name) keep.toNat
        (freshPath calls source directory d) d₂ ↔
      Old D calls source directory keep d c := by
  have hagree : ∀ p : Path, p.parent = directory →
      isCopyName D (stem source.name) p.name = true →
      p.name ≠ (freshPath calls source directory d).name → d₂.read p = d.read p := by
    intro p _ hname hne
    apply hread
    intro htouch
    exact hne (congrArg Path.name (eq_fresh_of_written hplain htouch hname))
  rw [mem_staleCopies]
  unfold Old
  simp only [(mine_perm hagree).mem_iff, newer_eq hagree]

/-- What a run may change, whatever its calls do: what it writes, and the old copies with what lies
    beside them, which it can only remove. -/
theorem run_frame (D : Digits) (S : Sqlite β) (calls : RunCalls β) (source : Path)
    (directory : List Char) (keep : Int) {extras : List Path} {d : Files β}
    (hplain : PlainNames source extras d) (n : Path) :
    (run D S calls source directory keep extras d).1.read n = d.read n ∨
      Touches calls source directory extras d n ∨
      (∃ c, Old D calls source directory keep d c ∧ Belongs c n) ∧
        (run D S calls source directory keep extras d).1.read n = none := by
  by_cases htouch : Touches calls source directory extras d n
  · exact Or.inr (Or.inl htouch)
  rcases run_cases D S calls source directory keep extras d with ⟨hkeep, _⟩ | ⟨db, _, hrest⟩
  · exact Or.inl (by rw [hkeep])
  obtain ⟨hread, _, _, _⟩ := read_before_prune S calls source directory hplain db.content
  rcases hrest with ⟨heq, _⟩ | ⟨_, ⟨heq, _⟩ | ⟨heq, _⟩⟩
  · exact Or.inl (heq ▸ (hread n htouch).1)
  · exact Or.inl (heq ▸ (hread n htouch).2)
  · rw [heq]
    rcases read_pruneAll calls _ _ _ n with h | ⟨⟨c, hc, hn⟩, hnone⟩
    · exact Or.inl (h.trans (hread n htouch).2)
    · have hold := (stale_iff_old hplain fun n hn => (hread n hn).2).mp hc
      refine Or.inr (Or.inr ⟨⟨c, hold, ?_⟩, hnone⟩)
      rcases hn with rfl | hn
      · obtain ⟨u, _, heq, _⟩ := hold.copy hplain
        rw [heq]
        exact belongs_self _ _ _
      · exact hn

def sampleDigits : Digits := ⟨Char.isDigit, fun _ _ => rfl⟩

def sampleRun (unlink : Path → Outcome Exc) : RunCalls Nat where
  now := sampleStamp
  clock := 5
  mkdir := none
  backup := .done
  replace := .done
  unlinkPart := .done
  copyExtra _ := .done
  unlink := unlink

theorem sampleFiles_plain : PlainNames sampleDatabase [] sampleFiles where
  entries := by
    intro p hp
    have hmem := Directory.has_iff_mem.mp hp
    simp only [sampleFiles, sampleEntries, List.map_cons, List.map_nil, List.mem_cons,
      List.not_mem_nil, or_false] at hmem
    rcases hmem with rfl | rfl | rfl <;> decide
  source := by decide
  extras := by simp

/-- Pruning leaves the new copy alone. -/
theorem read_prune_fresh (D : Digits) (keep : Int) (hplain : PlainNames source extras d) {d₂ : Files β}
    (hread : ∀ n, ¬ Touches calls source directory extras d n → d₂.read n = d.read n) :
    (prune D calls directory (stem source.name) keep.toNat (freshPath calls source directory d)
      d₂).1.read (freshPath calls source directory d) =
        d₂.read (freshPath calls source directory d) := by
  rcases read_pruneAll calls (staleCopies D directory (stem source.name) keep.toNat
      (freshPath calls source directory d) d₂) d₂ 0 (freshPath calls source directory d) with h | ⟨⟨c, hc, hn⟩, _⟩
  · exact h
  · have hold := (stale_iff_old hplain hread).mp hc
    obtain ⟨u, hu, hcopy, hne⟩ := hold.copy hplain
    rcases hn with heq | hn
    · exact absurd heq.symm hne
    · have htouch : Touches calls source directory extras d (freshPath calls source directory d) :=
        Or.inl rfl
      exact absurd hn (hold.not_belongs hplain (written_belongs htouch))

/-- Whatever the calls of a run do, a file that stands under a copy's name afterwards stood there
    before or passed the check. -/
theorem run_verified (D : Digits) (S : Sqlite β) (calls : RunCalls β) (source : Path)
    (directory : List Char) (keep : Int) {extras : List Path} {d : Files β}
    (hplain : PlainNames source extras d) {n : Path}
    (hname : isCopyName D (stem source.name) n.name = true) {f : File β}
    (h : (run D S calls source directory keep extras d).1.read n = some f) :
    d.read n = some f ∨ d.read n = none ∧ verify S f.content = none := by
  rcases run_frame D S calls source directory keep hplain n with hframe | htouch | ⟨_, hnone⟩
  · exact Or.inl (hframe ▸ h)
  · obtain rfl := eq_fresh_of_written hplain htouch hname
    obtain ⟨_, _, heq, hfree⟩ := target_eq directory (stem source.name) calls.now d
    refine Or.inr ⟨hfree, ?_⟩
    rcases run_cases D S calls source directory keep extras d with ⟨hkeep, _⟩ | ⟨db, _, hrest⟩
    · rw [hkeep, hfree] at h
      cases h
    obtain ⟨hread, hchecked, hsecond, _⟩ :=
      read_before_prune S calls source directory hplain db.content
    rcases hrest with ⟨heq, _⟩ | ⟨_, ⟨heq, _⟩ | ⟨heq, _⟩⟩
    · exact hchecked f (heq ▸ h)
    · exact hchecked f (hsecond ▸ heq ▸ h)
    · rw [heq, read_prune_fresh D keep hplain fun n hn => (hread n hn).2, hsecond] at h
      exact hchecked f h
  · rw [hnone] at h
    cases h

theorem run_verified_sample :
    sampleFiles.read ⟨"backups".toList, "srp-20250102-000000.db".toList⟩ =
        some { content := 3, mtime := 5 } ∨
      sampleFiles.read ⟨"backups".toList, "srp-20250102-000000.db".toList⟩ = none ∧
        verify sampleSqlite 3 = none :=
  run_verified sampleDigits sampleSqlite (sampleRun fun _ => .done) sampleDatabase
    "backups".toList 1 sampleFiles_plain (by decide) (f := { content := 3, mtime := 5 }) rfl

/-- The copy that a run returns is new, passed the check and holds the database; what happened
    after the writing is the pruning. -/
theorem run_new (D : Digits) (S : Sqlite β) (calls : RunCalls β) (source : Path)
    (directory : List Char) (keep : Int) {extras : List Path} {d : Files β}
    (hplain : PlainNames source extras d) {res : BackupResult}
    (h : (run D S calls source directory keep extras d).2 = .ok res) :
    ∃ db d₂, d.read source = some db ∧ res.path = freshPath calls source directory d ∧
      d.read res.path = none ∧
      (run D S calls source directory keep extras d).1.read res.path =
        some (newCopy S calls source db.content d) ∧
      verify S (newCopy S calls source db.content d).content = none ∧
      (∀ n, ¬ Touches calls source directory extras d n → d₂.read n = d.read n) ∧
      (run D S calls source directory keep extras d).1 =
        (prune D calls directory (stem source.name) keep.toNat res.path d₂).1 ∧
      (prune D calls directory (stem source.name) keep.toNat res.path d₂).2 = .ok res.removed := by
  rcases run_cases D S calls source directory keep extras d with ⟨_, e, he⟩ | ⟨db, hsource, hrest⟩
  · rw [he] at h
    cases h
  obtain ⟨hread, hchecked, hsecond, hdone⟩ :=
    read_before_prune S calls source directory hplain db.content
  obtain ⟨_, _, _, hfree⟩ := target_eq directory (stem source.name) calls.now d
  rcases hrest with ⟨_, e, he⟩ | ⟨hfirst, ⟨_, e, he⟩ | ⟨heq, hok⟩⟩
  · rw [he] at h
    cases h
  · rw [he] at h
    cases h
  · obtain ⟨_, hpath, hthird⟩ := hok res h
    have hnew := (read_prune_fresh D keep hplain fun n hn =>
      (hread n hn).2).trans (hsecond.trans (hdone hfirst))
    rw [hpath, heq]
    exact ⟨db, _, hsource, rfl, hfree, hnew, hchecked _ (hdone hfirst), fun n hn => (hread n hn).2,
      rfl, hthird⟩

/-- An old copy that a pruning reaches is the copy itself. -/
theorem old_of_pruned (keep : Int) (hplain : PlainNames source extras d) {d₂ : Files β}
    (hread : ∀ n, ¬ Touches calls source directory extras d n → d₂.read n = d.read n) {u : List Char}
    (hu : isStampText D u = true)
    (h : Pruned (staleCopies D directory (stem source.name) keep.toNat
      (freshPath calls source directory d) d₂) ⟨directory, copyName (stem source.name) u⟩) :
    Old D calls source directory keep d ⟨directory, copyName (stem source.name) u⟩ := by
  obtain ⟨c, hc, hn⟩ := h
  have hold := (stale_iff_old hplain hread).mp hc
  rcases hn with rfl | hn
  · exact hold
  · obtain ⟨v, hv, rfl, _⟩ := hold.copy hplain
    rw [belongs_unique hv hu hn (belongs_self _ _ _)] at hold
    exact hold

/-- When a run returns and the pruning is let do, the copies left beside the new one are exactly the
    `keep - 1` newest, as they were, and the others are counted and gone. -/
theorem run_keeps_newest (D : Digits) (S : Sqlite β) (calls : RunCalls β) (source : Path)
    (directory : List Char) (keep : Int) {extras : List Path} {d : Files β}
    (hplain : PlainNames source extras d) {res : BackupResult}
    (h : (run D S calls source directory keep extras d).2 = .ok res)
    (hunlink : ∀ p, calls.unlink p = .done) :
    res.removed = (mine D directory (stem source.name) res.path d).length - (keep.toNat - 1) ∧
      ∀ e ∈ mine D directory (stem source.name) res.path d,
        (run D S calls source directory keep extras d).1.read e.1 =
          if newer D directory (stem source.name) res.path d e < keep.toNat - 1
            then d.read e.1 else none := by
  obtain ⟨db, d₂, _, hpath, _, _, _, hread, heq, hremoved⟩ :=
    run_new D S calls source directory keep hplain h
  rw [hpath] at heq hremoved ⊢
  have hagree : ∀ p : Path, p.parent = directory → isCopyName D (stem source.name) p.name = true →
      p.name ≠ (freshPath calls source directory d).name → d₂.read p = d.read p := by
    intro p _ hname hne
    apply hread
    intro htouch
    exact hne (congrArg Path.name (eq_fresh_of_written hplain htouch hname))
  constructor
  · have hcount := (pruneAll_done hunlink (staleCopies D directory (stem source.name)
      keep.toNat (freshPath calls source directory d) d₂) d₂ 0).1
    have hlen : (staleCopies D directory (stem source.name) keep.toNat
        (freshPath calls source directory d) d₂).length =
          (mine D directory (stem source.name) (freshPath calls source directory d) d).length -
            (keep.toNat - 1) := by
      unfold staleCopies
      rw [List.length_map, List.length_drop, List.length_insertionSort, (mine_perm hagree).length_eq]
    rw [← hlen]
    have hsame := hremoved.symm.trans hcount
    simpa using (Except.ok.injEq _ _).mp hsame
  · intro e he
    obtain ⟨f, hf, htime, hparent, _, hname, hne⟩ := mem_mine.mp he
    have hhas : d.has e.1 = true := by simp [Directory.has, hf]
    obtain ⟨u, hu, hcopy⟩ := (isCopyName_iff (hplain.entries _ hhas)).mp hname
    have hself : e.1 = ⟨directory, copyName (stem source.name) u⟩ := by
      obtain ⟨⟨_, _⟩, _⟩ := e
      simp_all
    rw [heq]
    split
    · rename_i hfew
      rw [← hagree e.1 hparent hname hne]
      refine (read_pruneAll _ _ _ _ _).resolve_right ?_
      rintro ⟨hpruned, _⟩
      rw [hself] at hpruned
      obtain ⟨t, hmem, hle⟩ := old_of_pruned keep hplain hread hu hpruned
      rw [← hself] at hmem hle
      obtain ⟨f', hf', htime', _⟩ := mem_mine.mp hmem
      have ht : t = e.2 := by
        rw [hf] at hf'
        obtain rfl := Option.some.inj hf'
        exact htime'.trans htime.symm
      rw [ht] at hle
      exact absurd hfew (Nat.not_lt.mpr hle)
    · rename_i hmany
      apply (pruneAll_done hunlink _ _ _).2
      exact (stale_iff_old hplain hread).mpr ⟨e.2, he, Nat.not_lt.mp hmany⟩

theorem run_keeps_newest_sample :
    0 = (mine sampleDigits "backups".toList (stem sampleDatabase.name)
        ⟨"backups".toList, "srp-20250102-000000.db".toList⟩ sampleFiles).length - ((2 : Int).toNat - 1) ∧
      ∀ e ∈ mine sampleDigits "backups".toList (stem sampleDatabase.name)
          ⟨"backups".toList, "srp-20250102-000000.db".toList⟩ sampleFiles,
        (run sampleDigits sampleSqlite (sampleRun fun _ => .done) sampleDatabase
            "backups".toList 2 [] sampleFiles).1.read e.1 =
          if newer sampleDigits "backups".toList (stem sampleDatabase.name)
              ⟨"backups".toList, "srp-20250102-000000.db".toList⟩ sampleFiles e <
            (2 : Int).toNat - 1 then sampleFiles.read e.1 else none :=
  run_keeps_newest sampleDigits sampleSqlite (sampleRun fun _ => .done) sampleDatabase
    "backups".toList 2 sampleFiles_plain
    (show _ = Except.ok (BackupResult.mk ⟨"backups".toList, "srp-20250102-000000.db".toList⟩ 0 [])
      from rfl) fun _ => rfl

end Runs

end Srp.Server.Backup
