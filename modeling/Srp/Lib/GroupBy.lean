/-
  Srp/Lib/GroupBy.lean
  ====================
  **Grouping by a key, resolving each group, sorting the results.**

  A dictionary of lists filled in a loop keeps its keys in order of first
  appearance and each group in order of arrival.  The lemmas say what such a
  pipeline does to a permuted input: the keys are permuted, the groups are
  permuted, and a sort whose order separates the results forgets both.  A stable
  sort cut to a length keeps the elements that have few others ahead of them.
-/
import Mathlib.Data.List.Dedup
import Mathlib.Data.List.MinMax
import Mathlib.Data.List.Pairwise
import Mathlib.Data.List.Sort

namespace Srp.Lib.GroupBy

variable {α β κ : Type}

/-! ### Keys and groups -/

section Groups

variable [DecidableEq κ]

/-- The distinct keys of `l`, in order of first appearance. -/
def keys (key : α → κ) (l : List α) : List κ := (l.map key).eraseDups

/-- The elements of `l` with key `k`, in order of arrival. -/
def group (key : α → κ) (l : List α) (k : κ) : List α := l.filter fun x => key x = k

theorem mem_keys {key : α → κ} {l : List α} {k : κ} :
    k ∈ keys key l ↔ ∃ x ∈ l, key x = k := by
  simp [keys]

theorem mem_group {key : α → κ} {l : List α} {k : κ} {x : α} :
    x ∈ group key l k ↔ x ∈ l ∧ key x = k := by
  simp [group]

theorem nodup_eraseDups (l : List κ) : l.eraseDups.Nodup := by
  induction hn : l.length using Nat.strong_induction_on generalizing l with
  | _ n ih =>
    cases l with
    | nil => exact List.nodup_nil
    | cons a l =>
      rw [List.eraseDups_cons, List.nodup_cons]
      constructor
      · simp
      · refine ih _ ?_ _ rfl
        rw [← hn]
        exact Nat.lt_succ_of_le (List.length_filter_le _ _)

theorem keys_nodup (key : α → κ) (l : List α) : (keys key l).Nodup := nodup_eraseDups _

theorem keys_perm {key : α → κ} {l l' : List α} (h : l.Perm l') :
    (keys key l).Perm (keys key l') := by
  rw [List.perm_ext_iff_of_nodup (keys_nodup key l) (keys_nodup key l')]
  intro k
  simp only [mem_keys, h.mem_iff]

theorem group_perm {key : α → κ} {l l' : List α} (h : l.Perm l') (k : κ) :
    (group key l k).Perm (group key l' k) := h.filter _

theorem lookup_map_pair {f : κ → β} {l : List κ} {k : κ} {v : β} :
    (l.map fun x => (x, f x)).lookup k = some v ↔ k ∈ l ∧ v = f k := by
  induction l with
  | nil => simp
  | cons x l ih =>
    rw [List.map_cons, List.lookup_cons]
    by_cases h : k = x
    · rw [h, beq_self_eq_true]
      simp [eq_comm]
    · rw [beq_eq_false_iff_ne.mpr h, List.mem_cons]
      simp only [ih, h, false_or]

/-- The groups of all keys are the list. -/
theorem flatMap_group_perm {key : α → κ} {ks : List κ} (hks : ks.Nodup) {l : List α}
    (h : ∀ x ∈ l, key x ∈ ks) : (ks.flatMap (group key l)).Perm l := by
  induction ks generalizing l with
  | nil =>
    have hl : l = [] := List.eq_nil_iff_forall_not_mem.mpr fun x hx => by simpa using h x hx
    rw [hl]
    exact List.Perm.nil
  | cons k ks ih =>
    obtain ⟨hk, hks⟩ := List.nodup_cons.mp hks
    have hrest : ∀ k' ∈ ks, group key l k' = group key (l.filter fun x => ¬ key x = k) k' := by
      intro k' hk'
      rw [group, group, List.filter_filter]
      refine List.filter_congr fun x _ => ?_
      by_cases hx : key x = k'
      · have hne : key x ≠ k := fun hxk => hk (hxk ▸ hx ▸ hk')
        simp [hx, hx ▸ hne]
      · simp [hx]
    have hmem : ∀ x ∈ l.filter fun x => ¬ key x = k, key x ∈ ks := by
      intro x hx
      obtain ⟨hx, hne⟩ := List.mem_filter.mp hx
      exact (List.mem_cons.mp (h x hx)).resolve_left (by simpa using hne)
    rw [List.flatMap_cons, List.flatMap_congr hrest]
    refine ((ih hks hmem).append_left _).trans ?_
    simpa [group] using List.filter_append_perm (fun x => key x = k) l

theorem flatMap_keys_perm (key : α → κ) (l : List α) :
    ((keys key l).flatMap (group key l)).Perm l :=
  flatMap_group_perm (keys_nodup key l) fun x hx => mem_keys.mpr ⟨x, hx, rfl⟩

end Groups

/-! ### Sorting -/

/-- A sort forgets the order of its input when its relation separates the elements. -/
theorem insertionSort_eq_of_perm {r : α → α → Prop} [DecidableRel r] [Std.Total r]
    [IsTrans α r] {l l' : List α} (h : l.Perm l')
    (hsep : ∀ a ∈ l, ∀ b ∈ l, r a b → r b a → a = b) :
    l.insertionSort r = l'.insertionSort r := by
  refine List.Perm.eq_of_pairwise ?_ (List.pairwise_insertionSort r l)
    (List.pairwise_insertionSort r l') ?_
  · intro a b ha hb hab hba
    have ha' : a ∈ l := (List.perm_insertionSort r l).mem_iff.mp ha
    have hb' : b ∈ l := h.mem_iff.mpr ((List.perm_insertionSort r l').mem_iff.mp hb)
    exact hsep a ha' b hb' hab hba
  · exact ((List.perm_insertionSort r l).trans h).trans (List.perm_insertionSort r l').symm

/-- A list in strictly increasing order is the set of its elements. -/
theorem eq_of_pairwise_lt [LinearOrder β] {f : α → β} {l l' : List α}
    (h : l.Pairwise fun a b => f a < f b) (h' : l'.Pairwise fun a b => f a < f b)
    (hmem : ∀ a, a ∈ l ↔ a ∈ l') : l = l' := by
  have hnodup : ∀ {l : List α}, l.Pairwise (fun a b => f a < f b) → l.Nodup :=
    fun h => h.imp fun hlt heq => absurd (congrArg f heq) (ne_of_lt hlt)
  have hperm : l.Perm l' := (List.perm_ext_iff_of_nodup (hnodup h) (hnodup h')).mpr hmem
  exact hperm.eq_of_pairwise (fun a b _ _ hab hba => absurd hba (not_lt.mpr hab.le)) h h'

/-! ### Ranks in a stable sort -/

section Ranks

variable {r : α → α → Prop} {l : List α} {x y : α}

theorem not_pair_sublist_swap (hl : l.Nodup) (h : [x, y].Sublist l) : ¬ [y, x].Sublist l := by
  induction l with
  | nil => exact absurd h (by simp)
  | cons a l ih =>
    obtain ⟨ha, hl⟩ := List.nodup_cons.mp hl
    rw [List.cons_sublist_cons'] at h ⊢
    have hne : x ≠ y := by
      rintro rfl
      rcases h with h | ⟨rfl, h⟩
      · exact absurd (hl.sublist h) (by simp)
      · exact ha (List.singleton_sublist.mp h)
    rintro (hswap | ⟨rfl, hswap⟩)
    · rcases h with h | ⟨rfl, h⟩
      · exact ih hl h hswap
      · exact ha (hswap.subset (by simp))
    · rcases h with h | ⟨hxy, h⟩
      · exact ha (h.subset (by simp))
      · exact hne hxy

theorem pair_sublist_or (hx : x ∈ l) (hy : y ∈ l) (hne : x ≠ y) :
    [x, y].Sublist l ∨ [y, x].Sublist l := by
  have hsymm : Std.Symm fun x y => [x, y].Sublist l ∨ [y, x].Sublist l := ⟨fun _ _ => Or.symm⟩
  have hpairs : l.Pairwise fun x y => [x, y].Sublist l ∨ [y, x].Sublist l :=
    List.pairwise_iff_forall_sublist.mpr Or.inl
  exact hpairs.forall hx hy hne

/-- `x` comes before `y` in a stable sort of `l`: ties keep the order of `l`. -/
def Ahead (r : α → α → Prop) (l : List α) (x y : α) : Prop := r x y ∧ (r y x → [x, y].Sublist l)

instance [DecidableEq α] [DecidableRel r] : DecidableRel (Ahead r l) :=
  fun _ _ => inferInstanceAs (Decidable (_ ∧ (_ → _)))

theorem Ahead.asymm (hl : l.Nodup) (h : Ahead r l x y) : ¬ Ahead r l y x :=
  fun h' => not_pair_sublist_swap hl (h.2 h'.1) (h'.2 h.1)

variable [DecidableRel r] [Std.Total r] [IsTrans α r]

theorem pairwise_ahead_insertionSort (hl : l.Nodup) :
    (l.insertionSort r).Pairwise (Ahead r l) := by
  have hperm := List.perm_insertionSort r l
  have hsorted : (l.insertionSort r).Nodup := hperm.nodup_iff.mpr hl
  rw [List.pairwise_iff_forall_sublist]
  intro x y hxy
  refine ⟨List.pairwise_iff_forall_sublist.mp (List.pairwise_insertionSort r l) hxy,
    fun hyx => ?_⟩
  have hne : x ≠ y := by
    rintro rfl
    exact absurd (hsorted.sublist hxy) (by simp)
  have hx : x ∈ l := hperm.subset (hxy.subset (by simp))
  have hy : y ∈ l := hperm.subset (hxy.subset (by simp))
  refine (pair_sublist_or hx hy hne).resolve_right fun hswap => ?_
  exact not_pair_sublist_swap hsorted hxy (List.pair_sublist_insertionSort hyx hswap)

/-- The first `n` elements are those with fewer than `n` others before them. -/
theorem mem_take_iff_countP_lt {R : α → α → Prop} [DecidableRel R] (hl : l.Pairwise R)
    (hasymm : ∀ a b, R a b → ¬ R b a) {n : Nat} :
    x ∈ l.take n ↔ x ∈ l ∧ l.countP (fun y => R y x) < n := by
  induction l generalizing n with
  | nil => simp
  | cons a l ih =>
    obtain ⟨ha, hl⟩ := List.pairwise_cons.mp hl
    cases n with
    | zero => simp
    | succ n =>
      rw [List.take_succ_cons, List.mem_cons, List.mem_cons, ih hl, List.countP_cons]
      by_cases hxa : x = a
      · have hirrefl : ¬ R a a := fun h => hasymm a a h h
        have hnone : l.countP (fun y => R y a) = 0 :=
          List.countP_eq_zero.mpr fun b hb => by simpa using hasymm a b (ha b hb)
        simp [hxa, hirrefl, hnone]
      · by_cases hx : x ∈ l
        · simp [hxa, hx, ha x hx]
        · simp [hxa, hx]

theorem mem_take_insertionSort [DecidableEq α] (hl : l.Nodup) {n : Nat} :
    x ∈ (l.insertionSort r).take n ↔ x ∈ l ∧ l.countP (fun y => Ahead r l y x) < n := by
  have hperm := List.perm_insertionSort r l
  rw [mem_take_iff_countP_lt (pairwise_ahead_insertionSort hl) fun a b h => h.asymm hl,
    hperm.mem_iff, hperm.countP_eq]

end Ranks

/-! ### The first maximal element -/

section FirstMax

variable [LinearOrder β]

/-- An element at the front that nothing beats is the maximum found. -/
theorem argmax_cons_of_le {f : α → β} {a : α} {l : List α} (h : ∀ b ∈ l, f b ≤ f a) :
    List.argmax f (a :: l) = some a := by
  rw [List.argmax_cons]
  cases hl : List.argmax f l with
  | none => rfl
  | some c => exact if_neg (not_lt.mpr (h c (List.argmax_mem hl)))

/-- The maxima found in two orders of one list are tied. -/
theorem argmax_perm_key {f : α → β} {l l' : List α} (h : l.Perm l') {a b : α}
    (ha : a ∈ List.argmax f l) (hb : b ∈ List.argmax f l') : f a = f b := by
  apply le_antisymm
  · exact List.le_of_mem_argmax (h.mem_iff.mp (List.argmax_mem ha)) hb
  · exact List.le_of_mem_argmax (h.mem_iff.mpr (List.argmax_mem hb)) ha

theorem argmax_isSome {f : α → β} {l : List α} (h : l ≠ []) : ∃ a, List.argmax f l = some a :=
  Option.ne_none_iff_exists'.mp fun hn => h (List.argmax_eq_none.mp hn)

/-- The first of greatest value of two. -/
def better (f : α → β) : Option α → Option α → Option α
  | none, y => y
  | some a, none => some a
  | some a, some b => if f a < f b then some b else some a

theorem better_left {f : α → β} {a b : α} (h : f b ≤ f a) : better f (some a) (some b) = some a :=
  if_neg (not_lt.mpr h)

theorem better_right {f : α → β} {a b : α} (h : f a < f b) : better f (some a) (some b) = some b :=
  if_pos h

theorem better_assoc (f : α → β) (x y z : Option α) :
    better f (better f x y) z = better f x (better f y z) := by
  cases x with
  | none => rfl
  | some a =>
    cases y with
    | none => rfl
    | some b =>
      cases z with
      | none => by_cases hab : f a < f b <;> simp [better, hab]
      | some c => grind [better]

theorem argmax_append (f : α → β) (xs ys : List α) :
    (xs ++ ys).argmax f = better f (xs.argmax f) (ys.argmax f) := by
  have hcons : ∀ (a : α) (l : List α), (a :: l).argmax f = better f (some a) (l.argmax f) := by
    intro a l
    rw [List.argmax_cons]
    cases l.argmax f <;> rfl
  induction xs with
  | nil => rfl
  | cons x xs ih => rw [List.cons_append, hcons, hcons, ih, better_assoc]

end FirstMax

/-! ### The first hit -/

/-- When all hits agree, the first hit does not depend on the order. -/
theorem findSome?_perm {f : α → Option β} {l l' : List α} (h : l.Perm l')
    (hagree : ∀ a ∈ l, ∀ b ∈ l, ∀ x y, f a = some x → f b = some y → x = y) :
    l.findSome? f = l'.findSome? f := by
  cases hx : l.findSome? f with
  | none =>
    symm
    rw [List.findSome?_eq_none_iff] at hx ⊢
    intro a ha
    exact hx a (h.mem_iff.mpr ha)
  | some x =>
    obtain ⟨a, ha, hfa⟩ := List.exists_of_findSome?_eq_some hx
    cases hy : l'.findSome? f with
    | none =>
      have := List.findSome?_eq_none_iff.mp hy a (h.mem_iff.mp ha)
      rw [hfa] at this
      cases this
    | some y =>
      obtain ⟨b, hb, hfb⟩ := List.exists_of_findSome?_eq_some hy
      rw [hagree a ha b (h.mem_iff.mpr hb) x y hfa hfb]

end Srp.Lib.GroupBy
