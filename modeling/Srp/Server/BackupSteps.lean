/-
  Srp/Server/BackupSteps.lean
  ===========================
  **The steps of a run, one by one.**

  For each step what it may change in the directory, whatever its calls raise, and
  what it has done when they raise nothing.
-/
import Srp.Server.Backup

namespace Srp.Server.Backup

open Srp.Lib

variable {β : Type} {D : Digits}

section Steps

variable {S : Sqlite β} {calls : RunCalls β} {d : Files β} {n : Path}

/-- The temporary file and the files beside a copy belong to it, and none of them is the copy. -/
theorem part_belongs (directory st u : List Char) :
    Belongs ⟨directory, copyName st u⟩ (withSuffix ⟨directory, copyName st u⟩ ".part".toList) :=
  ⟨rfl, "part".toList, rfl⟩

theorem part_ne (directory st u : List Char) :
    withSuffix ⟨directory, copyName st u⟩ ".part".toList ≠ ⟨directory, copyName st u⟩ := by
  intro h
  have hname := congrArg Path.name h
  simp only [withSuffix, Path.withName, stem_copyName] at hname
  rw [copyName, List.append_cancel_left_eq] at hname
  exact absurd hname (by decide)

theorem companion_ne {directory st u extra : List Char} (h : extra ≠ "db".toList) :
    companion ⟨directory, copyName st u⟩ extra ≠ ⟨directory, copyName st u⟩ := by
  intro heq
  have hname := congrArg Path.name heq
  simp only [companion, Path.withName, stem_copyName] at hname
  rw [copyName, List.append_cancel_left_eq] at hname
  exact h (List.cons.inj hname).2

theorem after_remove_read (o : Outcome Exc) (p : Path) :
    (o.after (fun d => Directory.remove d p) d).read n = d.read n ∨
      n = p ∧ (o.after (fun d => Directory.remove d p) d).read n = none := by
  rcases o.after_eq (fun d => Directory.remove d p) d with h | h
  · rw [h, Directory.read_remove]
    by_cases hn : n = p
    · exact Or.inr ⟨hn, if_pos hn⟩
    · exact Or.inl (if_neg hn)
  · exact Or.inl (by rw [h])

/-- The state between the calls of the `try` statement: the rest is as it was, and what stands
    under the copy's name has passed the check. -/
structure Careful (S : Sqlite β) (part final : Path) (d d' : Files β) : Prop where
  other : ∀ n, n ≠ part → n ≠ final → d'.read n = d.read n
  checked : ∀ f, d'.read final = some f → verify S f.content = none

theorem careful_write {part final : Path} (hne : part ≠ final) (hfree : d.read final = none)
    (f : File β) : Careful S part final d (d.write part f) where
  other := by
    intro n hn _
    rw [Directory.read_write, if_neg hn]
  checked := by
    intro f hf
    rw [Directory.read_write, if_neg hne.symm, hfree] at hf
    cases hf

theorem Careful.dropPart {part final : Path} {d' : Files β} (h : Careful S part final d d')
    (hne : part ≠ final) (e : Exc) :
    Careful S part final d (dropPart calls part e d').1 ∧
      (Backup.dropPart calls part e d').2 ≠ none := by
  have hread : ∀ (o : Outcome Exc) n, n ≠ part →
      (o.after (fun d => Directory.remove d part) d').read n = d'.read n := by
    intro o n hn
    exact (after_remove_read o part).resolve_right fun h => hn h.1
  have hcareful : ∀ o : Outcome Exc,
      Careful S part final d (o.after (fun d => Directory.remove d part) d') := by
    intro o
    exact {
      other := fun n hp hf => (hread o n hp).trans (h.other n hp hf)
      checked := fun f hf => h.checked f ((hread o final hne.symm).symm.trans hf) }
  unfold Backup.dropPart
  cases calls.unlinkPart with
  | done => exact ⟨hcareful .done, by simp⟩
  | raises took e' => exact ⟨hcareful (.raises took e'), by simp⟩

theorem careful_rename (d : Files β) (part final : Path) {f : File β}
    (hf : verify S f.content = none) :
    Careful S part final d ((d.write part f).rename part final) ∧
      ((d.write part f).rename part final).read final = some f := by
  have hpart := (d.read_write part part f).trans (if_pos rfl)
  have hread := Directory.read_rename_of_read hpart final
  refine ⟨⟨?_, ?_⟩, ?_⟩
  · intro n hp hfinal
    rw [hread, if_neg hfinal, if_neg hp, Directory.read_write, if_neg hp]
  · intro f' hf'
    rw [hread, if_pos rfl] at hf'
    rw [← Option.some.inj hf']
    exact hf
  · rw [hread, if_pos rfl]

/-- Taking the copy touches its temporary file and its own name.  Whatever it raises, the latter is
    free or holds a file that passed the check; without an exception it holds the copy. -/
theorem takeCopy_careful (S : Sqlite β) (calls : RunCalls β) (source : Path) {part final : Path}
    (hne : part ≠ final) (db : β) {d : Files β} (hfree : d.read final = none) :
    Careful S part final d (takeCopy S calls source part final db d).1 ∧
      ((takeCopy S calls source part final db d).2 = none →
        (takeCopy S calls source part final db d).1.read final =
          some (newCopy S calls source db d)) := by
  have hfail : ∀ {d' : Files β} (e : Exc), Careful S part final d d' →
      Careful S part final d (dropPart calls part e d').1 ∧
        ((dropPart calls part e d').2 = none → (dropPart calls part e d').1.read final =
          some (newCopy S calls source db d)) := by
    intro d' e h
    exact ⟨(h.dropPart hne e).1, fun hnone => absurd hnone (h.dropPart hne e).2⟩
  unfold takeCopy
  dsimp only
  split
  · rename_i left e _
    apply hfail
    cases left with
    | none => exact ⟨fun _ _ _ => rfl, fun f hf => by simp [hfree] at hf⟩
    | some f => exact careful_write hne hfree f
  · split
    · exact hfail _ (careful_write hne hfree _)
    · rename_i hverify
      have hrenamed := careful_rename d part final hverify
      split
      · exact ⟨hrenamed.1, fun _ => hrenamed.2⟩
      · rename_i took e _
        apply hfail
        cases took with
        | true => exact hrenamed.1
        | false => exact careful_write hne hfree _

/-- Laying the extra files beside the copy touches nothing else. -/
theorem read_copyExtras {final : Path} (extras : List Path) {saved : List Path}
    (hn : ∀ extra ∈ extras, n ≠ companion final extra.name) :
    (copyExtras calls final extras d saved).1.read n = d.read n := by
  induction extras generalizing d saved with
  | nil => rfl
  | cons extra rest ih =>
    have hrest := fun e he => hn e (List.mem_cons_of_mem extra he)
    have hwrite : ∀ f : File β, (d.write (companion final extra.name) f).read n = d.read n := by
      intro f
      rw [Directory.read_write, if_neg (hn extra List.mem_cons_self)]
    have hleft : ∀ left : Option (File β),
        (left.elim d (d.write (companion final extra.name))).read n = d.read n := by
      intro left
      cases left with
      | none => rfl
      | some f => exact hwrite f
    unfold copyExtras
    split
    · exact ih hrest
    · dsimp only
      split
      · exact (ih hrest).trans (hwrite _)
      · split
        · exact (ih hrest).trans (hleft _)
        · exact hleft _

theorem read_unlinkAll (calls : RunCalls β) (ps : List Path) (d : Files β) (n : Path) :
    (unlinkAll calls ps d).1.read n = d.read n ∨
      n ∈ ps ∧ (unlinkAll calls ps d).1.read n = none := by
  induction ps generalizing d with
  | nil => exact Or.inl rfl
  | cons p rest ih =>
    have hone := after_remove_read (d := d) (n := n) (calls.unlink p) p
    have hboth : ∀ d' : Files β, (d'.read n = ((calls.unlink p).after
          (fun d => Directory.remove d p) d).read n ∨ n ∈ rest ∧ d'.read n = none) →
        (d'.read n = d.read n ∨ n ∈ p :: rest ∧ d'.read n = none) := by
      intro d' h
      rcases h with h | ⟨hmem, h⟩
      · rcases hone with hone | ⟨rfl, hone⟩
        · exact Or.inl (h.trans hone)
        · exact Or.inr ⟨List.mem_cons_self, h.trans hone⟩
      · exact Or.inr ⟨List.mem_cons_of_mem p hmem, h⟩
    unfold unlinkAll
    dsimp only
    split
    · exact hboth _ (ih _)
    · split
      · exact hboth _ (ih _)
      · exact hboth _ (Or.inl rfl)

/-- `n` is one of the stale copies or a file beside one. -/
def Pruned (stale : List Path) (n : Path) : Prop := ∃ c ∈ stale, n = c ∨ Belongs c n

theorem mem_companions {stale n : Path} (h : n ∈ companions stale d) : Belongs stale n := by
  have hname := (List.mem_filter.mp h).2
  simp only [Bool.and_eq_true, decide_eq_true_eq, List.isPrefixOf_iff_prefix] at hname
  obtain ⟨⟨hparent, rest, hrest⟩, _⟩ := hname
  exact ⟨hparent, rest, by rw [← hrest]; simp⟩

/-- Pruning removes stale copies and what lies beside them, and nothing else. -/
theorem read_pruneAll (calls : RunCalls β) (stale : List Path) (d : Files β) (removed : Nat)
    (n : Path) :
    (pruneAll calls stale d removed).1.read n = d.read n ∨
      Pruned stale n ∧ (pruneAll calls stale d removed).1.read n = none := by
  induction stale generalizing d removed with
  | nil => exact Or.inl rfl
  | cons c rest ih =>
    have hcompanions : ∀ d₁ : Files β, unlinkAll calls (companions c d) d = (d₁, none) ∨
        (∃ e, unlinkAll calls (companions c d) d = (d₁, some e)) →
        (d₁.read n = d.read n ∨ Pruned (c :: rest) n ∧ d₁.read n = none) := by
      intro d₁ h
      have hread := read_unlinkAll calls (companions c d) d n
      have hfst : (unlinkAll calls (companions c d) d).1 = d₁ := by
        rcases h with h | ⟨e, h⟩ <;> rw [h]
      rw [hfst] at hread
      exact hread.imp_right fun h =>
        ⟨⟨c, List.mem_cons_self, Or.inr (mem_companions h.1)⟩, h.2⟩
    have hself : ∀ (o : Outcome Exc) (d₁ : Files β),
        (d₁.read n = d.read n ∨ Pruned (c :: rest) n ∧ d₁.read n = none) →
        ((o.after (fun d => Directory.remove d c) d₁).read n = d.read n ∨
          Pruned (c :: rest) n ∧ (o.after (fun d => Directory.remove d c) d₁).read n = none) := by
      intro o d₁ h
      rcases after_remove_read (d := d₁) (n := n) o c with h' | ⟨rfl, h'⟩
      · rw [h']
        exact h
      · exact Or.inr ⟨⟨_, List.mem_cons_self, Or.inl rfl⟩, h'⟩
    have hrest : ∀ (d₁ d₂ : Files β),
        (d₁.read n = d.read n ∨ Pruned (c :: rest) n ∧ d₁.read n = none) →
        (d₂.read n = d₁.read n ∨ Pruned rest n ∧ d₂.read n = none) →
        (d₂.read n = d.read n ∨ Pruned (c :: rest) n ∧ d₂.read n = none) := by
      intro d₁ d₂ h h'
      rcases h' with h' | ⟨⟨c', hc', hn⟩, h'⟩
      · rw [h']
        exact h
      · exact Or.inr ⟨⟨c', List.mem_cons_of_mem c hc', hn⟩, h'⟩
    unfold pruneAll
    split
    · rename_i d₁ e heq
      exact hcompanions d₁ (Or.inr ⟨e, heq⟩)
    · rename_i d₁ heq
      have h₁ := hcompanions d₁ (Or.inl heq)
      dsimp only
      split
      · exact hrest _ _ (hself _ _ h₁) (ih _ _)
      · split
        · exact hrest _ _ (hself _ _ h₁) (ih _ _)
        · exact hself _ _ h₁

theorem pruneAll_done (hdone : ∀ p, calls.unlink p = .done) (stale : List Path) (d : Files β)
    (removed : Nat) :
    (pruneAll calls stale d removed).2 = .ok (removed + stale.length) ∧
      ∀ c ∈ stale, (pruneAll calls stale d removed).1.read c = none := by
  have hunlink : ∀ (ps : List Path) (d : Files β), (unlinkAll calls ps d).2 = none := by
    intro ps
    induction ps with
    | nil => exact fun _ => rfl
    | cons p rest ih =>
      intro d
      unfold unlinkAll
      simp only [hdone p]
      exact ih _
  induction stale generalizing d removed with
  | nil => exact ⟨rfl, by simp⟩
  | cons c rest ih =>
    unfold pruneAll
    split
    · rename_i e heq
      have := hunlink (companions c d) d
      rw [heq] at this
      cases this
    · rename_i d₁ heq
      simp only [hdone c]
      obtain ⟨hcount, hgone⟩ := ih (d₁.remove c) (removed + 1)
      refine ⟨?_, ?_⟩
      · refine hcount.trans ?_
        rw [List.length_cons, Nat.add_assoc, Nat.add_comm 1]
      · intro p hp
        rcases List.mem_cons.mp hp with rfl | hp
        · have hfirst : (d₁.remove p).read p = none := by
            rw [Directory.read_remove, if_pos rfl]
          rcases read_pruneAll calls rest (d₁.remove p) (removed + 1) p with h | ⟨_, h⟩
          · exact h.trans hfirst
          · exact h
        · exact hgone p hp

end Steps

end Srp.Server.Backup
