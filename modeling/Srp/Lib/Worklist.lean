/-
  Srp/Lib/Worklist.lean
  =====================
  **Worklist search over a successor function.**

  A queue of marked elements; each round takes the first one and appends its
  unmarked successors to the queue and to the marks.  `reach` returns the marks,
  `search` stops at the first element of a target set and returns the marks with
  their parents, and `chain` follows the parents back to the start.  Both loops
  keep the invariant `Frontier`, and a bound on what can be reached is enough fuel.
-/
import Mathlib.Data.List.Chain
import Mathlib.Data.List.Dedup
import Mathlib.Data.List.Perm.Subperm
import Mathlib.Logic.Relation

namespace Srp.Lib.Worklist

open Relation

variable {α : Type}

/-! ### The frontier invariant -/

/-- `x` is reached from a start element by successor steps. -/
def Reached (next : α → List α) (start : List α) (x : α) : Prop :=
  ∃ r ∈ start, ReflTransGen (fun a b => b ∈ next a) r x

/-- The marks are reached elements, and the successors of every mark that has left the
    queue are marked. -/
structure Frontier (next : α → List α) (start queue seen : List α) : Prop where
  queue_subset : ∀ x ∈ queue, x ∈ seen
  start_subset : ∀ r ∈ start, r ∈ seen
  nodup : seen.Nodup
  reached : ∀ x ∈ seen, Reached next start x
  closed : ∀ x ∈ seen, x ∉ queue → ∀ y ∈ next x, y ∈ seen

variable {next : α → List α} {start queue seen : List α}

theorem Frontier.init (h : start.Nodup) : Frontier next start start start where
  queue_subset _ hx := hx
  start_subset _ hr := hr
  nodup := h
  reached x hx := ⟨x, hx, ReflTransGen.refl⟩
  closed _ hx hn := absurd hx hn

/-- With an empty queue the marks are exactly the reached elements. -/
theorem Frontier.mem_iff (h : Frontier next start [] seen) {y : α} :
    y ∈ seen ↔ Reached next start y := by
  refine ⟨h.reached y, ?_⟩
  rintro ⟨r, hr, hry⟩
  induction hry with
  | refl => exact h.start_subset r hr
  | tail _ hbc ih => exact h.closed _ ih List.not_mem_nil _ hbc

theorem Frontier.length_le (h : Frontier next start queue seen) {bound : List α}
    (hbound : ∀ x, Reached next start x → x ∈ bound) : seen.length ≤ bound.length :=
  (h.nodup.subperm fun x hx => hbound x (h.reached x hx)).length_le

/-! ### The loops -/

variable [DecidableEq α]

/-- The elements of a list that are neither marked nor repeated, in order. -/
def fresh : List α → List α → List α
  | _, [] => []
  | seen, x :: xs => if x ∈ seen then fresh seen xs else x :: fresh (seen ++ [x]) xs

def reach (next : α → List α) : Nat → List α → List α → List α
  | 0, _, seen => seen
  | _ + 1, [], seen => seen
  | fuel + 1, x :: queue, seen =>
    let new := fresh seen (next x)
    reach next fuel (queue ++ new) (seen ++ new)

def search (next : α → List α) (stop : α → Bool) :
    Nat → List α → List (α × Option α) → Option (α × List (α × Option α))
  | 0, _, _ => none
  | _ + 1, [], _ => none
  | fuel + 1, x :: queue, prev =>
    if stop x then some (x, prev)
    else
      let new := fresh (prev.map (·.1)) (next x)
      search next stop fuel (queue ++ new) (prev ++ new.map fun y => (y, some x))

/-- The parents of an element, itself first. -/
def chain : Nat → List (α × Option α) → Option α → List α
  | 0, _, _ => []
  | _ + 1, _, none => []
  | fuel + 1, prev, some x => x :: chain fuel prev (prev.lookup x).join

/-! ### New elements -/

theorem mem_fresh {seen xs : List α} {y : α} : y ∈ fresh seen xs ↔ y ∈ xs ∧ y ∉ seen := by
  induction xs generalizing seen with
  | nil => simp [fresh]
  | cons x xs ih =>
    unfold fresh
    by_cases hx : x ∈ seen
    · rw [if_pos hx, ih, List.mem_cons]
      constructor
      · rintro ⟨h, hn⟩
        exact ⟨Or.inr h, hn⟩
      · rintro ⟨rfl | h, hn⟩
        · exact absurd hx hn
        · exact ⟨h, hn⟩
    · rw [if_neg hx, List.mem_cons, ih, List.mem_cons, List.mem_append, List.mem_singleton]
      constructor
      · rintro (rfl | ⟨h, hn⟩)
        · exact ⟨Or.inl rfl, hx⟩
        · exact ⟨Or.inr h, fun hs => hn (Or.inl hs)⟩
      · rintro ⟨rfl | h, hn⟩
        · exact Or.inl rfl
        · by_cases hyx : y = x
          · exact Or.inl hyx
          · exact Or.inr ⟨h, fun hs => hs.elim hn hyx⟩

theorem nodup_append_fresh {seen : List α} (xs : List α) (h : seen.Nodup) :
    (seen ++ fresh seen xs).Nodup := by
  induction xs generalizing seen with
  | nil => simpa [fresh] using h
  | cons x xs ih =>
    unfold fresh
    by_cases hx : x ∈ seen
    · rw [if_pos hx]
      exact ih h
    · rw [if_neg hx]
      have hcons : (seen ++ [x]).Nodup := by
        rw [List.nodup_append]
        refine ⟨h, List.nodup_singleton x, ?_⟩
        rintro a ha b hb rfl
        exact hx (List.mem_singleton.mp hb ▸ ha)
      have := ih hcons
      rwa [List.append_assoc] at this

/-! ### One round -/

theorem Frontier.step {x : α} (h : Frontier next start (x :: queue) seen) :
    Frontier next start (queue ++ fresh seen (next x)) (seen ++ fresh seen (next x)) := by
  have hx : x ∈ seen := h.queue_subset x List.mem_cons_self
  refine ⟨?_, ?_, nodup_append_fresh _ h.nodup, ?_, ?_⟩
  · intro y hy
    rcases List.mem_append.mp hy with hy | hy
    · exact List.mem_append_left _ (h.queue_subset y (List.mem_cons_of_mem x hy))
    · exact List.mem_append_right _ hy
  · intro r hr
    exact List.mem_append_left _ (h.start_subset r hr)
  · intro y hy
    rcases List.mem_append.mp hy with hy | hy
    · exact h.reached y hy
    · obtain ⟨r, hr, hrx⟩ := h.reached x hx
      exact ⟨r, hr, hrx.tail (mem_fresh.mp hy).1⟩
  · intro y hy hyq z hz
    rw [List.mem_append, not_or] at hyq
    have hyseen : y ∈ seen := (List.mem_append.mp hy).resolve_right hyq.2
    by_cases hyx : y = x
    · subst hyx
      by_cases hzs : z ∈ seen
      · exact List.mem_append_left _ hzs
      · exact List.mem_append_right _ (mem_fresh.mpr ⟨hz, hzs⟩)
    · refine List.mem_append_left _ (h.closed y hyseen ?_ z hz)
      intro hq
      rcases List.mem_cons.mp hq with hq | hq
      · exact hyx hq
      · exact hyq.1 hq

/-! ### `reach` -/

theorem mem_reach {bound : List α} (hbound : ∀ x, Reached next start x → x ∈ bound) {fuel : Nat}
    (h : Frontier next start queue seen)
    (hfuel : bound.length + queue.length ≤ fuel + seen.length) {y : α} :
    y ∈ reach next fuel queue seen ↔ Reached next start y := by
  induction fuel generalizing queue seen with
  | zero =>
    have hlen := h.length_le hbound
    have hnil : queue = [] := List.eq_nil_of_length_eq_zero (by omega)
    subst hnil
    exact h.mem_iff
  | succ fuel ih =>
    cases queue with
    | nil => exact h.mem_iff
    | cons x queue =>
      apply ih h.step
      simp only [List.length_append, List.length_cons] at hfuel ⊢
      omega

/-! ### `search` and the parents -/

/-- A parent map: every element but the start was marked as a successor of an element
    marked before it. -/
inductive Marks (next : α → List α) (s : α) : List (α × Option α) → Prop where
  | start : Marks next s [(s, none)]
  | mark {prev : List (α × Option α)} {x p : α} : Marks next s prev → p ∈ prev.map (·.1) →
      x ∉ prev.map (·.1) → x ∈ next p → Marks next s (prev ++ [(x, some p)])

theorem Marks.append_fresh {s p : α} {prev : List (α × Option α)} {xs : List α}
    (h : Marks next s prev) (hp : p ∈ prev.map (·.1)) (hxs : ∀ x ∈ xs, x ∈ next p) :
    Marks next s (prev ++ (fresh (prev.map (·.1)) xs).map fun y => (y, some p)) := by
  induction xs generalizing prev with
  | nil => simpa [fresh] using h
  | cons x xs ih =>
    have hrest : ∀ y ∈ xs, y ∈ next p := fun y hy => hxs y (List.mem_cons_of_mem x hy)
    unfold fresh
    by_cases hx : x ∈ prev.map (·.1)
    · rw [if_pos hx]
      exact ih h hp hrest
    · rw [if_neg hx]
      have hmark := Marks.mark h hp hx (hxs x List.mem_cons_self)
      have := ih hmark (by simp only [List.map_append, List.mem_append, hp, true_or]) hrest
      simpa [List.append_assoc] using this

/-- `path` leads from `x` back to `s`: each element is a successor of the one after it. -/
structure IsChain (next : α → List α) (s x : α) (path : List α) : Prop where
  head : path.head? = some x
  last : path.getLast? = some s
  steps : List.IsChain (fun b a => b ∈ next a) path
  nodup : path.Nodup

theorem lookup_append_of_mem {prev post : List (α × Option α)} {x : α}
    (h : x ∈ prev.map (·.1)) : (prev ++ post).lookup x = prev.lookup x := by
  induction prev with
  | nil => cases h
  | cons e prev ih =>
    rw [List.cons_append, List.lookup_cons, List.lookup_cons]
    by_cases hx : x = e.1
    · rw [hx, beq_self_eq_true]
    · rw [beq_eq_false_iff_ne.mpr hx]
      exact ih ((List.mem_cons.mp h).resolve_left hx)

theorem lookup_append_singleton {prev : List (α × Option α)} {x : α} {p : Option α}
    (h : x ∉ prev.map (·.1)) : (prev ++ [(x, p)]).lookup x = some p := by
  induction prev with
  | nil => simp
  | cons e prev ih =>
    rw [List.map_cons, List.mem_cons, not_or] at h
    rw [List.cons_append, List.lookup_cons, beq_eq_false_iff_ne.mpr h.1]
    exact ih h.2

/-- Following the parents gives a path back to the start, whatever was marked later. -/
theorem Marks.chain {s : α} {prev : List (α × Option α)} (h : Marks next s prev)
    (post : List (α × Option α)) {fuel : Nat} (hfuel : prev.length ≤ fuel) {x : α}
    (hx : x ∈ prev.map (·.1)) :
    IsChain next s x (chain fuel (prev ++ post) (some x)) ∧
      ∀ y ∈ Worklist.chain fuel (prev ++ post) (some x), y ∈ prev.map (·.1) := by
  induction h generalizing post fuel x with
  | start =>
    obtain rfl : x = s := by simpa using hx
    obtain ⟨fuel, rfl⟩ : ∃ k, fuel = k + 1 := ⟨fuel - 1, by simp at hfuel; omega⟩
    have hnil : ∀ k, Worklist.chain k ([(x, none)] ++ post) none = [] := by
      intro k
      cases k <;> rfl
    have hchain : Worklist.chain (fuel + 1) ([(x, none)] ++ post) (some x) = [x] := by
      simpa [Worklist.chain] using hnil fuel
    rw [hchain]
    exact ⟨⟨rfl, rfl, List.isChain_singleton x, List.nodup_singleton x⟩, by simp⟩
  | @mark prev x' p hprev hp hx' hstep ih =>
    rw [List.append_assoc]
    by_cases hold : x ∈ prev.map (·.1)
    · have hlen : prev.length ≤ fuel := by
        rw [List.length_append] at hfuel
        omega
      obtain ⟨hchain, hsub⟩ := ih ([(x', some p)] ++ post) hlen hold
      refine ⟨hchain, ?_⟩
      intro y hy
      rw [List.map_append]
      exact List.mem_append_left _ (hsub y hy)
    · obtain rfl : x = x' := by
        rw [List.map_append, List.mem_append] at hx
        simpa using hx.resolve_left hold
      rw [List.length_append, List.length_singleton] at hfuel
      obtain ⟨fuel, rfl⟩ : ∃ k, fuel = k + 1 := ⟨fuel - 1, by omega⟩
      obtain ⟨hchain, hsub⟩ := ih ([(x, some p)] ++ post) (Nat.le_of_succ_le_succ hfuel) hp
      have hlookup : (prev ++ ([(x, some p)] ++ post)).lookup x = some (some p) := by
        rw [← List.append_assoc, lookup_append_of_mem (by simp), lookup_append_singleton hold]
      have hcons : Worklist.chain (fuel + 1) (prev ++ ([(x, some p)] ++ post)) (some x) =
          x :: Worklist.chain fuel (prev ++ ([(x, some p)] ++ post)) (some p) := by
        simp only [Worklist.chain, hlookup, Option.join_some]
      rw [hcons]
      refine ⟨⟨rfl, ?_, ?_, ?_⟩, ?_⟩
      · rw [List.getLast?_cons, hchain.last]
        rfl
      · rw [List.isChain_cons]
        refine ⟨?_, hchain.steps⟩
        intro y hy
        rw [hchain.head] at hy
        rw [← Option.some.inj hy]
        exact hstep
      · rw [List.nodup_cons]
        exact ⟨fun hmem => hold (hsub x hmem), hchain.nodup⟩
      · intro y hy
        rw [List.map_append, List.mem_append]
        rcases List.mem_cons.mp hy with rfl | hy
        · exact Or.inr (by simp)
        · exact Or.inl (hsub y hy)

/-- What a search returns: a target with a parent map that leads to it, or nothing when no
    target is reached. -/
theorem search_spec {stop : α → Bool} {s : α} {bound : List α}
    (hbound : ∀ x, Reached next [s] x → x ∈ bound) {fuel : Nat} {prev : List (α × Option α)}
    (h : Frontier next [s] queue (prev.map (·.1))) (hmarks : Marks next s prev)
    (hstop : ∀ x ∈ prev.map (·.1), x ∉ queue → stop x = false)
    (hfuel : bound.length + queue.length < fuel + prev.length) :
    match search next stop fuel queue prev with
    | some (r, prev') => stop r = true ∧ Marks next s prev' ∧ r ∈ prev'.map (·.1)
    | none => ∀ y, Reached next [s] y → stop y = false := by
  induction fuel generalizing queue prev with
  | zero =>
    have hlen := h.length_le hbound
    simp only [List.length_map] at hlen
    omega
  | succ fuel ih =>
    cases queue with
    | nil =>
      intro y hy
      exact hstop y (h.mem_iff.mpr hy) List.not_mem_nil
    | cons x queue =>
      have hx : x ∈ prev.map (·.1) := h.queue_subset x List.mem_cons_self
      unfold search
      by_cases hsx : stop x = true
      · rw [if_pos hsx]
        exact ⟨hsx, hmarks, hx⟩
      · rw [if_neg hsx]
        have hkeys : (prev ++ (fresh (prev.map (·.1)) (next x)).map fun y => (y, some x)).map
            (·.1) = prev.map (·.1) ++ fresh (prev.map (·.1)) (next x) := by
          simp [Function.comp_def]
        apply ih
        · rw [hkeys]
          exact h.step
        · exact hmarks.append_fresh hx fun _ hy => hy
        · intro y hy hyq
          rw [hkeys] at hy
          rw [List.mem_append, not_or] at hyq
          by_cases hyx : y = x
          · rw [hyx]
            exact Bool.eq_false_iff.mpr hsx
          · refine hstop y ((List.mem_append.mp hy).resolve_right hyq.2) ?_
            intro hq
            rcases List.mem_cons.mp hq with hq | hq
            · exact hyx hq
            · exact hyq.1 hq
        · simp only [List.length_append, List.length_map, List.length_cons] at hfuel ⊢
          omega

end Srp.Lib.Worklist
