/-
  Srp/Lib/UndoLog.lean
  ====================
  **Replacing files behind an undo log.**

  `exchange` sets files aside one after the other, puts a staged file in the place
  of one of them, and on the first exception moves back what it had set aside,
  newest first.  Any call may raise, and a call that raises may have taken effect
  all the same (an interrupt right after a rename).  Such a move is not in the log
  and is not undone, so undoing is exact only when a call that raises did nothing
  (`exchange_undone`); that no file is lost holds for every pattern of exceptions
  (`exchange_keeps`).
-/
import Srp.Lib.Directory

namespace Srp.Lib

/-- How a call to the system ends: it is done, or it raises, with or without having taken
    effect. -/
inductive Outcome (ε : Type) where
  | done
  | raises (took : Bool) (e : ε)

namespace Outcome

variable {ε σ : Type}

/-- The state after a call that should do `f`. -/
def after (f : σ → σ) : Outcome ε → σ → σ
  | .done, s => f s
  | .raises took _, s => if took then f s else s

/-- A call that raises has not taken effect. -/
def Clean : Outcome ε → Prop
  | .done => True
  | .raises took _ => took = false

instance (o : Outcome ε) : Decidable o.Clean := by
  cases o <;> unfold Clean <;> infer_instance

theorem after_eq (f : σ → σ) (o : Outcome ε) (s : σ) : o.after f s = f s ∨ o.after f s = s := by
  cases o with
  | done => exact Or.inl rfl
  | raises took e =>
    cases took with
    | true => exact Or.inl rfl
    | false => exact Or.inr rfl

theorem after_of_clean {f : σ → σ} {took : Bool} {e : ε} (h : (raises took e).Clean) (s : σ) :
    (raises took e).after f s = s := by
  obtain rfl : took = false := h
  rfl

end Outcome

namespace UndoLog

variable {ν β ε : Type} [DecidableEq ν]

/-- How far the moves came: the files, the log with the newest move first, and what was raised. -/
structure Moves (ν β ε : Type) where
  dir : Directory ν β
  moved : List (ν × ν)
  raised : Option ε

/-- Sets aside what is there of the pairs (name, name aside), in order. -/
def moveAll (call : ν → ν → Outcome ε) : List (ν × ν) → Directory ν β → Moves ν β ε
  | [], d => ⟨d, [], none⟩
  | (src, dst) :: rest, d =>
    if d.has src then
      match call src dst with
      | .done =>
        let r := moveAll call rest (d.rename src dst)
        ⟨r.dir, r.moved ++ [(src, dst)], r.raised⟩
      | .raises took e => ⟨(Outcome.raises took e).after (·.rename src dst) d, [], some e⟩
    else moveAll call rest d

/-- Moves back what the log names; an exception that `suppressed` does not cover ends this too. -/
def moveBack (suppressed : ε → Bool) (call : ν → ν → Outcome ε) :
    List (ν × ν) → Directory ν β → Directory ν β × Option ε
  | [], d => (d, none)
  | (src, dst) :: rest, d =>
    let d' := (call dst src).after (·.rename dst src) d
    match call dst src with
    | .done => moveBack suppressed call rest d'
    | .raises _ e => if suppressed e then moveBack suppressed call rest d' else (d', some e)

/-- Sets the pairs aside and puts `staged` in the place of `target`, or undoes what it did; the
    error is what made it undo and what ended that. -/
def exchange (suppressed : ε → Bool) (call : ν → ν → Outcome ε) (pairs : List (ν × ν))
    (staged target : ν) (d : Directory ν β) :
    Directory ν β × Except (ε × Option ε) (List (ν × ν)) :=
  let r := moveAll call pairs d
  let undo (e : ε) (d : Directory ν β) : Directory ν β × Except (ε × Option ε) (List (ν × ν)) :=
    let back := moveBack suppressed call r.moved d
    (back.1, .error (e, back.2))
  match r.raised with
  | some e => undo e r.dir
  | none =>
    match call staged target with
    | .done => (r.dir.rename staged target, .ok r.moved)
    | .raises took e => undo e ((Outcome.raises took e).after (·.rename staged target) r.dir)

/-! ### Names -/

def names (pairs : List (ν × ν)) : List ν := pairs.flatMap fun p => [p.1, p.2]

omit [DecidableEq ν] in
theorem mem_names_of_mem {pairs : List (ν × ν)} {p : ν × ν} (h : p ∈ pairs) :
    p.1 ∈ names pairs ∧ p.2 ∈ names pairs := by
  unfold names
  exact ⟨List.mem_flatMap.mpr ⟨p, h, by simp⟩, List.mem_flatMap.mpr ⟨p, h, by simp⟩⟩

omit [DecidableEq ν] in
/-- What distinct names say of a first pair and the rest. -/
theorem nodup_names_cons {p : ν × ν} {pairs : List (ν × ν)} (h : (names (p :: pairs)).Nodup) :
    p.1 ≠ p.2 ∧ p.1 ∉ names pairs ∧ p.2 ∉ names pairs ∧ (names pairs).Nodup := by
  have hcons : names (p :: pairs) = p.1 :: p.2 :: names pairs := rfl
  rw [hcons, List.nodup_cons, List.nodup_cons, List.mem_cons, not_or] at h
  exact ⟨h.1.1, h.1.2, h.2.1, h.2.2⟩

omit [DecidableEq ν] in
theorem ne_of_mem_names {pairs : List (ν × ν)} {n : ν} (hn : n ∉ names pairs) {p : ν × ν}
    (hp : p ∈ pairs) : p.1 ≠ n ∧ p.2 ≠ n :=
  ⟨fun h => hn (h ▸ (mem_names_of_mem hp).1), fun h => hn (h ▸ (mem_names_of_mem hp).2)⟩

/-! ### Setting aside -/

variable {call : ν → ν → Outcome ε} {pairs : List (ν × ν)} {d d₀ : Directory ν β}

/-- The file of the pair is where it was. -/
def Still (d₀ d : Directory ν β) (p : ν × ν) : Prop :=
  d.read p.1 = d₀.read p.1 ∧ d.read p.2 = d₀.read p.2

/-- The file of the pair is aside. -/
def Aside (d₀ d : Directory ν β) (p : ν × ν) : Prop :=
  (d₀.read p.1).isSome = true ∧ d.read p.1 = none ∧ d.read p.2 = d₀.read p.1

theorem aside_rename {src dst : ν} (hne : src ≠ dst) (hsome : d.has src = true) :
    Aside d (d.rename src dst) (src, dst) := by
  obtain ⟨b, hb⟩ := Option.isSome_iff_exists.mp hsome
  refine ⟨hsome, ?_, ?_⟩
  · rw [Directory.read_rename_of_read hb, if_neg hne, if_pos rfl]
  · rw [Directory.read_rename_of_read hb, if_pos rfl, hb]

theorem Still.congr {d₁ : Directory ν β} {p : ν × ν} (h : Still d₁ d p)
    (h₁ : d₁.read p.1 = d₀.read p.1) (h₂ : d₁.read p.2 = d₀.read p.2) : Still d₀ d p :=
  ⟨h.1.trans h₁, h.2.trans h₂⟩

theorem Aside.congr {d₁ : Directory ν β} {p : ν × ν} (h : Aside d₁ d p)
    (h₁ : d₁.read p.1 = d₀.read p.1) : Aside d₀ d p :=
  ⟨h₁ ▸ h.1, h.2.1, h.2.2.trans h₁⟩

theorem after_rename_other (o : Outcome ε) {src dst n : ν} (hsrc : n ≠ src) (hdst : n ≠ dst) :
    (o.after (fun d => Directory.rename d src dst) d).read n = d.read n := by
  rcases o.after_eq (fun d => Directory.rename d src dst) d with h | h
  · rw [h, Directory.read_rename_other d hsrc hdst]
  · rw [h]

/-- What moving the pairs of `d` aside comes to. -/
structure Moved (call : ν → ν → Outcome ε) (pairs : List (ν × ν)) (d : Directory ν β)
    (r : Moves ν β ε) : Prop where
  other : ∀ n, n ∉ names pairs → r.dir.read n = d.read n
  each : ∀ p ∈ pairs, Still d r.dir p ∨ Aside d r.dir p
  logged : ∀ p ∈ r.moved, p ∈ pairs ∧ Aside d r.dir p
  /-- Without an exception everything that was there is in the log. -/
  complete : r.raised = none → ∀ p ∈ pairs, d.has p.1 = true → p ∈ r.moved
  /-- Where a call that raises does nothing, what is not in the log is where it was. -/
  exact : (∀ src dst, (call src dst).Clean) → ∀ p ∈ pairs, p ∉ r.moved → Still d r.dir p
  distinct : (names r.moved).Nodup

theorem moved_nil : Moved call [] d ⟨d, [], none⟩ :=
  { other := fun _ _ => rfl
    each := by simp
    logged := by simp
    complete := by simp
    exact := by simp
    distinct := List.nodup_nil }

section Cons

variable {q : ν × ν} {r : Moves ν β ε}

omit [DecidableEq ν] in
theorem not_mem_names_cons {n : ν} :
    n ∉ names (q :: pairs) ↔ n ≠ q.1 ∧ n ≠ q.2 ∧ n ∉ names pairs := by
  have hcons : names (q :: pairs) = q.1 :: q.2 :: names pairs := rfl
  rw [hcons, List.mem_cons, List.mem_cons, not_or, not_or]

/-- A pair of the rest is out of the way of the first one. -/
theorem still_rename (hnames : (names (q :: pairs)).Nodup) {p : ν × ν} (hp : p ∈ pairs) :
    Still d (d.rename q.1 q.2) p := by
  obtain ⟨_, hq₁, hq₂, _⟩ := nodup_names_cons hnames
  obtain ⟨h₁, h₂⟩ := ne_of_mem_names hq₁ hp
  obtain ⟨h₃, h₄⟩ := ne_of_mem_names hq₂ hp
  exact ⟨Directory.read_rename_other d h₁ h₃, Directory.read_rename_other d h₂ h₄⟩

theorem Moved.skip (hnames : (names (q :: pairs)).Nodup) (habsent : d.has q.1 = false)
    (h : Moved call pairs d r) : Moved call (q :: pairs) d r := by
  obtain ⟨_, hq₁, hq₂, _⟩ := nodup_names_cons hnames
  have hstill : Still d r.dir q := ⟨h.other _ hq₁, h.other _ hq₂⟩
  exact {
    other := fun n hn => h.other n (not_mem_names_cons.mp hn).2.2
    each := by
      intro p hp
      rcases List.mem_cons.mp hp with rfl | hp
      · exact Or.inl hstill
      · exact h.each p hp
    logged := fun p hp => ⟨List.mem_cons_of_mem _ (h.logged p hp).1, (h.logged p hp).2⟩
    complete := by
      intro hok p hp hsome
      rcases List.mem_cons.mp hp with rfl | hp
      · rw [habsent] at hsome
        cases hsome
      · exact h.complete hok p hp hsome
    exact := by
      intro hclean p hp hnot
      rcases List.mem_cons.mp hp with rfl | hp
      · exact hstill
      · exact h.exact hclean p hp hnot
    distinct := h.distinct }

theorem Moved.move (hnames : (names (q :: pairs)).Nodup) (hhas : d.has q.1 = true)
    (h : Moved call pairs (d.rename q.1 q.2) r) :
    Moved call (q :: pairs) d ⟨r.dir, r.moved ++ [q], r.raised⟩ := by
  obtain ⟨hne, hq₁, hq₂, _⟩ := nodup_names_cons hnames
  have hstart := aside_rename hne hhas
  have haside : Aside d r.dir q :=
    ⟨hstart.1, (h.other _ hq₁).trans hstart.2.1, (h.other _ hq₂).trans hstart.2.2⟩
  exact {
    other := by
      intro n hn
      obtain ⟨h₁, h₂, hrest⟩ := not_mem_names_cons.mp hn
      exact (h.other n hrest).trans (Directory.read_rename_other d h₁ h₂)
    each := by
      intro p hp
      rcases List.mem_cons.mp hp with rfl | hp
      · exact Or.inr haside
      · have hstill := still_rename (d := d) hnames hp
        exact (h.each p hp).imp (fun h => h.congr hstill.1 hstill.2) fun h => h.congr hstill.1
    logged := by
      intro p hp
      rcases List.mem_append.mp hp with hp | hp
      · obtain ⟨hmem, hp⟩ := h.logged p hp
        exact ⟨List.mem_cons_of_mem _ hmem, hp.congr (still_rename (d := d) hnames hmem).1⟩
      · obtain rfl := List.mem_singleton.mp hp
        exact ⟨List.mem_cons_self, haside⟩
    complete := by
      intro hok p hp hsome
      rcases List.mem_cons.mp hp with rfl | hp
      · exact List.mem_append_right _ (List.mem_singleton_self _)
      · apply List.mem_append_left
        apply h.complete hok p hp
        unfold Directory.has at hsome ⊢
        rw [(still_rename (d := d) hnames hp).1]
        exact hsome
    exact := by
      intro hclean p hp hnot
      rw [List.mem_append, not_or] at hnot
      rcases List.mem_cons.mp hp with rfl | hp
      · exact absurd (List.mem_singleton_self _) hnot.2
      · have hstill := still_rename (d := d) hnames hp
        exact (h.exact hclean p hp hnot.1).congr hstill.1 hstill.2
    distinct := by
      have hapart : ∀ n ∈ names r.moved, n ≠ q.1 ∧ n ≠ q.2 := by
        intro n hn
        obtain ⟨p, hp, hnp⟩ := List.mem_flatMap.mp hn
        have hmem := (h.logged p hp).1
        obtain ⟨h₁, h₂⟩ := ne_of_mem_names hq₁ hmem
        obtain ⟨h₃, h₄⟩ := ne_of_mem_names hq₂ hmem
        rcases List.mem_pair.mp hnp with rfl | rfl
        · exact ⟨h₁, h₃⟩
        · exact ⟨h₂, h₄⟩
      have happend : names (r.moved ++ [q]) = names r.moved ++ [q.1, q.2] := by simp [names]
      rw [happend, List.nodup_append]
      refine ⟨h.distinct, by simpa using hne, ?_⟩
      intro n hn m hm
      rcases List.mem_pair.mp hm with rfl | rfl
      · exact (hapart n hn).1
      · exact (hapart n hn).2 }

theorem Moved.stop (hnames : (names (q :: pairs)).Nodup) (hhas : d.has q.1 = true) {took : Bool}
    {e : ε} (hcall : call q.1 q.2 = .raises took e) :
    Moved call (q :: pairs) d
      ⟨(Outcome.raises took e).after (·.rename q.1 q.2) d, [], some e⟩ := by
  obtain ⟨hne, _, _, _⟩ := nodup_names_cons hnames
  exact {
    other := by
      intro n hn
      obtain ⟨h₁, h₂, _⟩ := not_mem_names_cons.mp hn
      exact after_rename_other _ h₁ h₂
    each := by
      intro p hp
      cases took with
      | false => exact Or.inl ⟨rfl, rfl⟩
      | true =>
        rcases List.mem_cons.mp hp with rfl | hp
        · exact Or.inr (aside_rename hne hhas)
        · exact Or.inl (still_rename hnames hp)
    logged := by simp
    complete := by simp
    exact := by
      intro hclean p _ _
      rw [Outcome.after_of_clean (hcall ▸ hclean q.1 q.2)]
      exact ⟨rfl, rfl⟩
    distinct := List.nodup_nil }

end Cons

theorem moveAll_moved (hnames : (names pairs).Nodup) :
    Moved call pairs d (moveAll call pairs d) := by
  induction pairs generalizing d with
  | nil => exact moved_nil
  | cons q rest ih =>
    have hrest := (nodup_names_cons hnames).2.2.2
    unfold moveAll
    split
    · rename_i hhas
      split
      · exact (ih hrest).move hnames hhas
      · rename_i took e hcall
        exact Moved.stop hnames hhas hcall
    · rename_i hhas
      exact (ih hrest).skip hnames (by simpa using hhas)

/-! ### Moving back -/

theorem read_moveBack_other {suppressed : ε → Bool} {n : ν} (hn : n ∉ names pairs) :
    (moveBack suppressed call pairs d).1.read n = d.read n := by
  induction pairs generalizing d with
  | nil => rfl
  | cons q rest ih =>
    obtain ⟨h₁, h₂, hrest⟩ := not_mem_names_cons.mp hn
    have hone := after_rename_other (d := d) (call q.2 q.1) h₂ h₁
    unfold moveBack
    split
    · exact (ih hrest).trans hone
    · split
      · exact (ih hrest).trans hone
      · exact hone

/-- A file that was aside is in one of the two places, whatever the calls did. -/
theorem moveBack_keeps {suppressed : ε → Bool} (hnames : (names pairs).Nodup) {p : ν × ν}
    (hp : p ∈ pairs) {b : β} (hb : d.read p.2 = some b) :
    (moveBack suppressed call pairs d).1.read p.1 = some b ∨
      (moveBack suppressed call pairs d).1.read p.2 = some b := by
  induction pairs generalizing d with
  | nil => cases hp
  | cons q rest ih =>
    obtain ⟨hne, hq₁, hq₂, hrest⟩ := nodup_names_cons hnames
    rcases List.mem_cons.mp hp with rfl | hp
    · have hone : ((call p.2 p.1).after (·.rename p.2 p.1) d).read p.1 = some b ∨
          ((call p.2 p.1).after (·.rename p.2 p.1) d).read p.2 = some b := by
        rcases (call p.2 p.1).after_eq (fun d => Directory.rename d p.2 p.1) d with h | h
        · left
          rw [h, Directory.read_rename_of_read hb, if_pos rfl]
        · right
          rw [h, hb]
      unfold moveBack
      split
      · rw [read_moveBack_other hq₁, read_moveBack_other hq₂]
        exact hone
      · split
        · rw [read_moveBack_other hq₁, read_moveBack_other hq₂]
          exact hone
        · exact hone
    · have hthere : ((call q.2 q.1).after (·.rename q.2 q.1) d).read p.2 = some b := by
        have h₁ := (ne_of_mem_names hq₁ hp).2
        have h₂ := (ne_of_mem_names hq₂ hp).2
        rw [after_rename_other _ h₂ h₁, hb]
      unfold moveBack
      split
      · exact ih hrest hp hthere
      · split
        · exact ih hrest hp hthere
        · exact Or.inr hthere

/-- Calls that are done bring everything back. -/
theorem moveBack_done (suppressed : ε → Bool) (hnames : (names pairs).Nodup)
    (hdone : ∀ p ∈ pairs, call p.2 p.1 = .done) {p : ν × ν} (hp : p ∈ pairs) {b : β}
    (hb : d.read p.2 = some b) :
    (moveBack suppressed call pairs d).1.read p.1 = some b ∧
      (moveBack suppressed call pairs d).1.read p.2 = none := by
  induction pairs generalizing d with
  | nil => cases hp
  | cons q rest ih =>
    obtain ⟨hne, hq₁, hq₂, hrest⟩ := nodup_names_cons hnames
    have hq : call q.2 q.1 = .done := hdone q List.mem_cons_self
    unfold moveBack
    simp only [hq]
    rcases List.mem_cons.mp hp with rfl | hp
    · rw [read_moveBack_other hq₁, read_moveBack_other hq₂]
      constructor
      · change (d.rename p.2 p.1).read p.1 = some b
        rw [Directory.read_rename_of_read hb, if_pos rfl]
      · change (d.rename p.2 p.1).read p.2 = none
        rw [Directory.read_rename_of_read hb, if_neg hne.symm, if_pos rfl]
    · apply ih hrest (fun p hp => hdone p (List.mem_cons_of_mem _ hp)) hp
      have h₁ := (ne_of_mem_names hq₁ hp).2
      have h₂ := (ne_of_mem_names hq₂ hp).2
      exact (Directory.read_rename_other d h₂ h₁).trans hb

/-! ### The exchange -/

omit [DecidableEq ν] in
/-- Different pairs share no name, and no name to set aside is one to move to. -/
theorem apart_of_nodup (hnames : (names pairs).Nodup) {p q : ν × ν} (hp : p ∈ pairs)
    (hq : q ∈ pairs) : p.1 ≠ q.2 ∧ (p ≠ q → p.1 ≠ q.1 ∧ p.2 ≠ q.2) := by
  induction pairs with
  | nil => cases hp
  | cons r rest ih =>
    obtain ⟨hne, hr₁, hr₂, hrest⟩ := nodup_names_cons hnames
    rcases List.mem_cons.mp hp with rfl | hp' <;> rcases List.mem_cons.mp hq with rfl | hq'
    · exact ⟨hne, fun h => absurd rfl h⟩
    · exact ⟨(ne_of_mem_names hr₁ hq').2.symm,
        fun _ => ⟨(ne_of_mem_names hr₁ hq').1.symm, (ne_of_mem_names hr₂ hq').2.symm⟩⟩
    · exact ⟨(ne_of_mem_names hr₂ hp').1,
        fun _ => ⟨(ne_of_mem_names hr₁ hp').1, (ne_of_mem_names hr₂ hp').2⟩⟩
    · exact ih hrest hp' hq'

section Exchange

variable {suppressed : ε → Bool} {staged target : ν} {r : Moves ν β ε}

theorem Moved.not_mem_names (hnames : (names pairs).Nodup) (h : Moved call pairs d r)
    {p : ν × ν} (hp : p ∈ pairs) (hnot : p ∉ r.moved) :
    p.1 ∉ names r.moved ∧ p.2 ∉ names r.moved := by
  constructor <;>
  · intro hn
    obtain ⟨q, hq, hnq⟩ := List.mem_flatMap.mp hn
    have hqp := (h.logged q hq).1
    have hne : p ≠ q := fun heq => hnot (heq ▸ hq)
    obtain ⟨h₁, h₂⟩ := apart_of_nodup hnames hp hqp
    obtain ⟨h₃, _⟩ := apart_of_nodup hnames hqp hp
    rcases List.mem_pair.mp hnq with heq | heq
    · first | exact (h₂ hne).1 heq | exact h₃ heq.symm
    · first | exact h₁ heq | exact (h₂ hne).2 heq

/-- Undoing keeps every file of the pairs, under one of its two names. -/
theorem Moved.keeps_undo (hnames : (names pairs).Nodup) (h : Moved call pairs d r)
    {d' : Directory ν β} (haside : ∀ p ∈ r.moved, d'.read p.2 = r.dir.read p.2)
    (hrest : ∀ p ∈ pairs, p ∉ r.moved → Still r.dir d' p) {p : ν × ν} (hp : p ∈ pairs) {b : β}
    (hb : d.read p.1 = some b) :
    (moveBack suppressed call r.moved d').1.read p.1 = some b ∨
      (moveBack suppressed call r.moved d').1.read p.2 = some b := by
  by_cases hmoved : p ∈ r.moved
  · apply moveBack_keeps h.distinct hmoved
    rw [haside p hmoved, (h.logged p hmoved).2.2.2, hb]
  · obtain ⟨hn₁, hn₂⟩ := h.not_mem_names hnames hp hmoved
    obtain ⟨hr₁, hr₂⟩ := hrest p hp hmoved
    rw [read_moveBack_other hn₁, read_moveBack_other hn₂, hr₁, hr₂]
    rcases h.each p hp with hstill | haside
    · exact Or.inl (hstill.1.trans hb)
    · exact Or.inr (haside.2.2.trans hb)

/-- The names of an exchange: those of the pairs and the staged file are distinct, and one of the
    pairs sets the target aside. -/
structure Names (pairs : List (ν × ν)) (staged target : ν) : Prop where
  distinct : (names pairs).Nodup
  not_mem : staged ∉ names pairs
  mem : ∃ p ∈ pairs, p.1 = target

variable (hN : Names pairs staged target)

include hN in
omit [DecidableEq ν] in
theorem Names.snd_ne {p : ν × ν} (hp : p ∈ pairs) : p.2 ≠ staged ∧ p.2 ≠ target := by
  obtain ⟨q, hq, rfl⟩ := hN.mem
  exact ⟨(ne_of_mem_names hN.not_mem hp).2, (apart_of_nodup hN.distinct hq hp).1.symm⟩

include hN in
omit [DecidableEq ν] in
theorem Names.target_ne {n : ν} (hn : n ∉ names pairs) : n ≠ target := by
  obtain ⟨q, hq, rfl⟩ := hN.mem
  intro h
  exact hn (h ▸ (mem_names_of_mem hq).1)

include hN in
theorem read_exchange_other {n : ν} (hn : n ∉ names pairs) (hstaged : n ≠ staged) :
    (exchange suppressed call pairs staged target d).1.read n = d.read n := by
  have hmoves : Moved call pairs d (moveAll call pairs d) := moveAll_moved hN.distinct
  have hlog : n ∉ names (moveAll call pairs d).moved := by
    intro hmem
    obtain ⟨q, hq, hnq⟩ := List.mem_flatMap.mp hmem
    exact hn (List.mem_flatMap.mpr ⟨q, (hmoves.logged q hq).1, hnq⟩)
  have hafter := fun o => after_rename_other (d := (moveAll call pairs d).dir) (ε := ε) o hstaged
    (hN.target_ne hn)
  unfold exchange
  dsimp only
  split
  · exact (read_moveBack_other hlog).trans (hmoves.other n hn)
  · split
    · exact (hafter .done).trans (hmoves.other n hn)
    · exact ((read_moveBack_other hlog).trans (hafter _)).trans (hmoves.other n hn)

/-- Whatever the calls do, a file that was to be set aside is under its name or aside. -/
theorem exchange_keeps (suppressed : ε → Bool) (call : ν → ν → Outcome ε)
    (hN : Names pairs staged target) {p : ν × ν} (hp : p ∈ pairs) {b : β} (hb : d.read p.1 = some b) :
    (exchange suppressed call pairs staged target d).1.read p.1 = some b ∨
      (exchange suppressed call pairs staged target d).1.read p.2 = some b := by
  have hmoves : Moved call pairs d (moveAll call pairs d) := moveAll_moved hN.distinct
  have hhas : d.has p.1 = true := by simp [Directory.has, hb]
  unfold exchange
  dsimp only
  split
  · exact hmoves.keeps_undo hN.distinct (fun _ _ => rfl) (fun _ _ _ => ⟨rfl, rfl⟩) hp hb
  · rename_i hok
    have hall := fun q hq => hmoves.complete hok q hq
    have hsnd : ∀ (o : Outcome ε), ∀ q ∈ pairs,
        (o.after (·.rename staged target) (moveAll call pairs d).dir).read q.2 =
          (moveAll call pairs d).dir.read q.2 := by
      intro o q hq
      exact after_rename_other o (hN.snd_ne hq).1 (hN.snd_ne hq).2
    split
    · right
      rw [← hb, ← (hmoves.logged p (hall p hp hhas)).2.2.2]
      exact hsnd .done p hp
    · apply moveBack_keeps hmoves.distinct (hall p hp hhas)
      rw [hsnd _ p hp, (hmoves.logged p (hall p hp hhas)).2.2.2, hb]

/-- What an exchange that returns has done. -/
structure Exchanged (pairs moved : List (ν × ν)) (staged target : ν) (d d' : Directory ν β) :
    Prop where
  log : ∀ p, p ∈ moved ↔ p ∈ pairs ∧ d.has p.1 = true
  replaced : d'.read target = d.read staged
  consumed : d'.read staged = none
  gone : ∀ p ∈ pairs, p.1 ≠ target → d'.read p.1 = none
  aside : ∀ p ∈ pairs, d'.read p.2 = if d.has p.1 then d.read p.1 else d.read p.2

include hN in
theorem exchange_ok {moved : List (ν × ν)}
    (h : (exchange suppressed call pairs staged target d).2 = .ok moved)
    (hstaged : d.has staged = true) :
    Exchanged pairs moved staged target d (exchange suppressed call pairs staged target d).1 := by
  have hmoves : Moved call pairs d (moveAll call pairs d) := moveAll_moved hN.distinct
  obtain ⟨b, hb⟩ := Option.isSome_iff_exists.mp hstaged
  unfold exchange at h ⊢
  dsimp only at h ⊢
  split at h
  · cases h
  · rename_i hok
    split at h
    · obtain rfl : (moveAll call pairs d).moved = moved := by simpa using h
      have hread := Directory.read_rename_of_read ((hmoves.other _ hN.not_mem).trans hb) target
      have hpair : ∀ p ∈ pairs, d.has p.1 = true ∧ Aside d (moveAll call pairs d).dir p ∨
          d.has p.1 = false ∧ Still d (moveAll call pairs d).dir p := by
        intro p hp
        cases hhas : d.has p.1 with
        | true => exact Or.inl ⟨rfl, (hmoves.logged p (hmoves.complete hok p hp hhas)).2⟩
        | false =>
          right
          rcases hmoves.each p hp with hstill | haside
          · exact ⟨rfl, hstill⟩
          · exact absurd haside.1 (by rw [Directory.has_eq_false.mp hhas]; simp)
      have hne : staged ≠ target := hN.target_ne hN.not_mem
      exact {
        log := fun p => ⟨fun hp => ⟨(hmoves.logged p hp).1, (hmoves.logged p hp).2.1⟩,
          fun hp => hmoves.complete hok p hp.1 hp.2⟩
        replaced := by rw [hread, if_pos rfl, hb]
        consumed := by rw [hread, if_neg hne, if_pos rfl]
        gone := by
          intro p hp hpt
          rw [hread, if_neg hpt, if_neg (ne_of_mem_names hN.not_mem hp).1]
          rcases hpair p hp with ⟨_, haside⟩ | ⟨hhas, hstill⟩
          · exact haside.2.1
          · exact hstill.1.trans (Directory.has_eq_false.mp hhas)
        aside := by
          intro p hp
          rw [hread, if_neg (hN.snd_ne hp).2, if_neg (hN.snd_ne hp).1]
          rcases hpair p hp with ⟨hhas, haside⟩ | ⟨hhas, hstill⟩
          · rw [if_pos hhas, haside.2.2]
          · rw [hhas, if_neg Bool.false_ne_true, hstill.2] }
    · cases h

include hN in
/-- Where a call that raises does nothing and moving back succeeds, an exchange that raises leaves
    every name as it was, but for files that stood where the others were to be set aside. -/
theorem exchange_undone {e : ε × Option ε}
    (h : (exchange suppressed call pairs staged target d).2 = .error e)
    (hclean : ∀ src dst, (call src dst).Clean) (hback : ∀ p ∈ pairs, call p.2 p.1 = .done) {n : ν}
    (hn : ∀ p ∈ pairs, n = p.2 → d.read n = none) :
    (exchange suppressed call pairs staged target d).1.read n = d.read n := by
  have hmoves : Moved call pairs d (moveAll call pairs d) := moveAll_moved hN.distinct
  have hundo : (moveBack suppressed call (moveAll call pairs d).moved
      (moveAll call pairs d).dir).1.read n = d.read n := by
    by_cases hnames : n ∈ names pairs
    · obtain ⟨p, hp, hnp⟩ := List.mem_flatMap.mp hnames
      by_cases hmoved : p ∈ (moveAll call pairs d).moved
      · obtain ⟨hsome, _, haside⟩ := (hmoves.logged p hmoved).2
        obtain ⟨b, hb⟩ := Option.isSome_iff_exists.mp hsome
        have hdone := moveBack_done suppressed hmoves.distinct
          (fun q hq => hback q (hmoves.logged q hq).1) hmoved (haside.trans hb)
        rcases List.mem_pair.mp hnp with rfl | rfl
        · exact hdone.1.trans hb.symm
        · exact hdone.2.trans (hn p hp rfl).symm
      · obtain ⟨hn₁, hn₂⟩ := hmoves.not_mem_names hN.distinct hp hmoved
        have hstill := hmoves.exact hclean p hp hmoved
        rcases List.mem_pair.mp hnp with rfl | rfl
        · exact (read_moveBack_other hn₁).trans hstill.1
        · exact (read_moveBack_other hn₂).trans hstill.2
    · have hlog : n ∉ names (moveAll call pairs d).moved := by
        intro hmem
        obtain ⟨q, hq, hnq⟩ := List.mem_flatMap.mp hmem
        exact hnames (List.mem_flatMap.mpr ⟨q, (hmoves.logged q hq).1, hnq⟩)
      exact (read_moveBack_other hlog).trans (hmoves.other n hnames)
  unfold exchange at h ⊢
  dsimp only at h ⊢
  split
  · exact hundo
  · split
    · rename_i hok _ hcall
      simp only [hok, hcall] at h
      cases h
    · rename_i took e' hcall
      rw [Outcome.after_of_clean (hcall ▸ hclean staged target)]
      exact hundo

/-- Calls that are all done make an exchange that returns. -/
theorem exchange_done (suppressed : ε → Bool) (hdone : ∀ src dst, call src dst = .done)
    (pairs : List (ν × ν)) (staged target : ν) (d : Directory ν β) :
    ∃ moved, (exchange suppressed call pairs staged target d).2 = .ok moved := by
  have hmoves : ∀ (pairs : List (ν × ν)) (d : Directory ν β),
      (moveAll call pairs d).raised = none := by
    intro pairs
    induction pairs with
    | nil => exact fun _ => rfl
    | cons q rest ih =>
      intro d
      unfold moveAll
      simp only [hdone]
      split
      · exact ih _
      · exact ih _
  unfold exchange
  simp only [hmoves, hdone]
  exact ⟨_, rfl⟩

end Exchange

end UndoLog

end Srp.Lib
