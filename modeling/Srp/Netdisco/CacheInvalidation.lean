/-
  Srp/Netdisco/CacheInvalidation.lean
  ===================================
  **What an invalidation guarantees (`GraphCache.invalidate`).**

  A rebuild clears `_forced_stale` before it calls the loader and publishes after,
  so between the two a read takes the fresh path with the graph from before the
  invalidation; the cache accepts that window, which is one rebuild long.  Outside
  of it no invalidation is lost: from an `invalidate()` on, either the flag is still
  set, or a rebuild that loads after it is in flight, or the cached graph was loaded
  after it.
-/
import Srp.Netdisco.Cache

namespace Srp.Netdisco.GraphCache

open Srp.Lib

variable {G : Type}

/-- Along the interleaving every fresh-path read that begins after an `invalidate()`
    returns a graph whose loader call started after it. -/
def NoLostInvalidation (ttl : ℚ) (xs : List (Act G)) : Prop :=
  ∀ (i j : Nat) (r : Stamped G), j < i →
    ((machine G ttl).outputs init xs)[j]? = some (some Event.invalidated) →
    ((machine G ttl).outputs init xs)[i]? = some (some (Event.served .fresh r)) →
    j < r.loadStarted

def loaderReturns (s : State G) : Act G → Bool
  | .resume t env =>
    match s.pc t with
    | .loading _ _ _ => env.loaded.isSome
    | _ => true
  | _ => true

/-! ### Rebuilds load one after the other -/

/-- When the loader call of the rebuild that the thread runs started. -/
def Pc.loadStart : Pc G → Option Nat
  | .loading _ _ started | .publish _ _ started _ => some started
  | _ => none

theorem Pc.holds_of_loadStart {p : Pc G} {started : Nat} (h : p.loadStart = some started) :
    p.Holds := by
  cases p with
  | loading | publish => exact True.intro
  | _ => cases h

/-- A rebuild in flight loads after the cached graph was loaded. -/
structure LoadInv (s : State G) : Prop where
  lock : LockInv s
  cached : s.cached.loadStarted ≤ s.tick
  started : ∀ t started, (s.pc t).loadStart = some started →
    s.cached.loadStarted ≤ started ∧ started ≤ s.tick

theorem loadInv_init : LoadInv (init : State G) where
  lock := lockInv_init
  cached := le_refl 0
  started _ _ h := by cases h

theorem started_goto {s : State G} {t : Thread} {p : Pc G}
    (h : ∀ u started, (s.pc u).loadStart = some started →
      s.cached.loadStarted ≤ started ∧ started ≤ s.tick)
    (hp : ∀ started, p.loadStart = some started →
      s.cached.loadStarted ≤ started ∧ started ≤ s.tick) :
    ∀ u started, ((s.goto t p).pc u).loadStart = some started →
      s.cached.loadStarted ≤ started ∧ started ≤ s.tick := by
  intro u started hu
  rcases goto_pc_cases s t p u with ⟨-, hpc⟩ | ⟨-, hpc⟩
  · rw [hpc] at hu
    exact hp started hu
  · rw [hpc] at hu
    exact h u started hu

theorem started_goto_none {s : State G} {t : Thread} {p : Pc G}
    (h : ∀ u started, (s.pc u).loadStart = some started →
      s.cached.loadStarted ≤ started ∧ started ≤ s.tick) (hp : p.loadStart = none) :
    ∀ u started, ((s.goto t p).pc u).loadStart = some started →
      s.cached.loadStarted ≤ started ∧ started ≤ s.tick := by
  refine started_goto h fun started hstarted => ?_
  rw [hp] at hstarted
  cases hstarted

theorem LoadInv.moves {ttl : ℚ} {s s' : State G} {a : Act G} {e : Option (Event G)}
    (h : LoadInv s) (hm : Moves ttl s a s' e) : LoadInv s' := by
  have hlock := h.lock.moves hm
  cases hm with
  | blocked | fresh => exact h
  | invalidate => exact ⟨hlock, h.cached, h.started⟩
  | started t env served hpc hchild =>
    exact ⟨hlock, h.cached, started_goto_none (started_goto_none h.started rfl) rfl⟩
  | released t env caller result p e hpc hp he =>
    refine ⟨hlock, h.cached, started_goto_none h.started ?_⟩
    rcases hp with rfl | rfl <;> rfl
  | called t env caller cleared hpc =>
    refine ⟨hlock, h.cached, started_goto h.started fun started hp => ?_⟩
    obtain rfl := Option.some.inj hp
    exact ⟨h.cached, le_refl _⟩
  | loaded t env caller cleared started value hpc hloaded =>
    refine ⟨hlock, h.cached, started_goto h.started fun started' hp => ?_⟩
    exact h.started t started' (by simpa [hpc, Pc.loadStart] using hp)
  | published t env caller cleared started value hpc =>
    have hstarted := h.started t started (by simp [hpc, Pc.loadStart])
    refine ⟨hlock, hstarted.2, fun u started' hu => ?_⟩
    rcases goto_pc_cases (s.store _) t _ u with ⟨-, hpc'⟩ | ⟨hut, hpc'⟩
    · rw [hpc'] at hu
      cases hu
    · -- no other rebuild is in flight
      rw [hpc'] at hu
      exact absurd (h.lock.unique (Pc.holds_of_loadStart hu) (by simp [hpc, Pc.Holds])) hut
  | _ => exact ⟨hlock, h.cached, started_goto_none h.started rfl⟩

/-! ### An invalidation is remembered -/

/-- The thread runs a rebuild that cleared `_forced_stale` after time `j`, so that its loader call
    starts after `j` too, and that has not published yet. -/
def Pc.LoadsAfter (j : Nat) : Pc G → Prop
  | .callLoader _ cleared => j < cleared
  | .loading _ cleared started | .publish _ cleared started _ => j < cleared ∧ j < started
  | _ => False

/-- What an `invalidate()` at time `j` guarantees. -/
def Remembered (j : Nat) (s : State G) : Prop :=
  s.forcedStale = true ∨ j < s.cached.loadStarted ∨ ∃ t, (s.pc t).LoadsAfter j

theorem Remembered.goto {j : Nat} {s : State G} (h : Remembered j s) {t : Thread} {p : Pc G}
    (hp : (s.pc t).LoadsAfter j → p.LoadsAfter j) : Remembered j (s.goto t p) := by
  rcases h with h | h | ⟨u, hu⟩
  · exact .inl h
  · exact .inr (.inl h)
  · refine .inr (.inr ⟨u, ?_⟩)
    rcases goto_pc_cases s t p u with ⟨rfl, hpc⟩ | ⟨-, hpc⟩
    · rw [hpc]
      exact hp hu
    · rw [hpc]
      exact hu

theorem Remembered.moves {j : Nat} {ttl : ℚ} {s s' : State G} {a : Act G}
    {e : Option (Event G)} (h : Remembered j s) (hinv : LoadInv s) (hj : j < s.tick)
    (hm : Moves ttl s a s' e) (hreturns : loaderReturns s a = true) : Remembered j s' := by
  cases hm with
  | blocked | fresh => exact h
  | invalidate | refresh | markedAgain => exact .inl rfl
  | stale t now hpc | cold t now hpc | lostRace t env served hpc | foundWarm t env hpc
  | foundCold t env hpc => exact h.goto (by simp [hpc, Pc.LoadsAfter])
  | wonRace t env served hpc | coldLocked t env hpc | refreshLocked t env hpc =>
    exact Remembered.goto (s := s.acquire t) h (by simp [hpc, Pc.LoadsAfter])
  | started t env served hpc hchild =>
    refine Remembered.goto (Remembered.goto (s := s.acquire env.child) h ?_) ?_
    · simp [hpc, Pc.LoadsAfter]
    · by_cases hct : env.child = t
      · simp [hct, Pc.LoadsAfter]
      · simp [Function.update_of_ne hct, hchild, Pc.LoadsAfter]
  | reused t env warmed hpc | built t env r hpc | released t env caller result p e hpc =>
    exact Remembered.goto (s := s.unlock) h (by simp [hpc, Pc.LoadsAfter])
  | cleared t env caller hpc => exact .inr (.inr ⟨t, by simpa [Pc.LoadsAfter] using hj⟩)
  | called t env caller cleared hpc =>
    refine h.goto fun hcleared => ⟨?_, hj⟩
    rw [hpc] at hcleared
    exact hcleared
  | loaded t env caller cleared started value hpc hloaded =>
    exact h.goto (by simp [hpc, Pc.LoadsAfter])
  | raised t env caller cleared started hpc hloaded => simp [loaderReturns, hpc, hloaded] at hreturns
  | published t env caller cleared started value hpc =>
    rcases h with h | h | ⟨u, hu⟩
    · exact .inl h
    · -- this rebuild loaded after the graph that it replaces
      have hstarted := hinv.started t started (by simp [hpc, Pc.loadStart])
      exact .inr (.inl (h.trans_le hstarted.1))
    · rcases goto_pc_cases (s.store ⟨value, some env.now, started⟩) t
        (.release caller (some ⟨value, some env.now, started⟩)) u with ⟨rfl, -⟩ | ⟨-, hpc'⟩
      · rw [hpc] at hu
        exact .inr (.inl hu.2)
      · refine .inr (.inr ⟨u, ?_⟩)
        rw [hpc']
        exact hu

structure Invalidations (s : State G) (events : List (Option (Event G))) : Prop where
  loads : LoadInv s
  tick : s.tick = events.length
  remembered : ∀ j, events[j]? = some (some Event.invalidated) → Remembered j s

theorem invalidations_init : Invalidations (init : State G) [] where
  loads := loadInv_init
  tick := rfl
  remembered _ h := by cases h

theorem Moves.invalidated {ttl : ℚ} {s s' : State G} {a : Act G}
    (hm : Moves ttl s a s' (some .invalidated)) : s'.forcedStale = true := by
  cases hm with
  | invalidate => rfl
  | released t env caller result p _ hpc hp he => simp at he

theorem Moves.tick {ttl : ℚ} {s s' : State G} {a : Act G} {e : Option (Event G)}
    (hm : Moves ttl s a s' e) : s'.tick = s.tick := by
  cases hm <;> rfl

theorem machine_tick (ttl : ℚ) (s : State G) (a : Act G) :
    ((machine G ttl).next s a).tick = s.tick + 1 :=
  congrArg (· + 1) (step_moves ttl s a).tick

theorem LoadInv.advance {s : State G} (h : LoadInv s) : LoadInv s.advance where
  lock := h.lock
  cached := h.cached.trans (Nat.le_succ _)
  started t started ht :=
    ⟨(h.started t started ht).1, (h.started t started ht).2.trans (Nat.le_succ _)⟩

theorem Invalidations.next {ttl : ℚ} {s : State G} {events : List (Option (Event G))}
    (h : Invalidations s events) (a : Act G) (hreturns : loaderReturns s a = true) :
    Invalidations ((machine G ttl).next s a) (events ++ [(machine G ttl).out s a]) := by
  have hm := step_moves ttl s a
  refine ⟨(h.loads.moves hm).advance, ?_, fun j hj => ?_⟩
  · rw [machine_tick, h.tick]
    simp
  · rcases Nat.lt_or_ge j events.length with hlt | hge
    · rw [List.getElem?_append_left hlt] at hj
      have hnext : Remembered j (step ttl s a).1 :=
        (h.remembered j hj).moves h.loads (h.tick ▸ hlt) hm hreturns
      exact hnext
    · rw [List.getElem?_append_right hge] at hj
      have hout : (step ttl s a).2 = some Event.invalidated :=
        (List.mem_singleton.mp (List.mem_of_getElem? hj)).symm
      rw [hout] at hm
      exact .inl hm.invalidated

theorem invalidations (ttl : ℚ) {xs : List (Act G)}
    (hreturns : (machine G ttl).Along (fun s a => loaderReturns s a = true) init xs) :
    Invalidations ((machine G ttl).stateAfter init xs) ((machine G ttl).outputs init xs) := by
  have hstep : ∀ s events a, Invalidations s events → loaderReturns s a = true →
      Invalidations ((machine G ttl).next s a) (events ++ [(machine G ttl).out s a]) :=
    fun s events a hs hc => hs.next a hc
  exact Machine.trace_invariant_along hstep invalidations_init hreturns

theorem Moves.freshRead {ttl : ℚ} {s s' : State G} {a : Act G} {r : Stamped G}
    (hm : Moves ttl s a s' (some (.served .fresh r))) : r = s.cached ∧ s.forcedStale = false := by
  cases hm with
  | fresh t now hfresh hflag => exact ⟨rfl, hflag⟩
  | released t env caller result p _ hpc hp he => simp at he

/-- **No invalidation is lost outside of a rebuild.**  A fresh-path read that begins after
      an `invalidate()` returns a graph whose loader call started after it, unless a rebuild
    that cleared the flag after it is in flight: it loads after it too, and has still to
    publish. -/
theorem fresh_read_after_invalidate (ttl : ℚ) (xs : List (Act G))
    (hreturns : (machine G ttl).Along (fun s a => loaderReturns s a = true) init xs)
    (i j : Nat) (r : Stamped G) (hji : j < i)
    (hinvalidated : ((machine G ttl).outputs init xs)[j]? = some (some Event.invalidated))
    (hread : ((machine G ttl).outputs init xs)[i]? = some (some (Event.served .fresh r))) :
    j < r.loadStarted ∨
      ∃ t, (((machine G ttl).stateAfter init (xs.take i)).pc t).LoadsAfter j := by
  have hinv := invalidations ttl (hreturns.take i)
  rw [Machine.outputs_take] at hinv
  have hremembered := hinv.remembered j (by rw [List.getElem?_take_of_lt hji]; exact hinvalidated)
  rw [Machine.outputs_getElem?, Option.map_eq_some_iff] at hread
  obtain ⟨a, -, hout⟩ := hread
  have hm := step_moves ttl ((machine G ttl).stateAfter init (xs.take i)) a
  have hout' : (step ttl ((machine G ttl).stateAfter init (xs.take i)) a).2 =
      some (.served .fresh r) := hout
  rw [hout'] at hm
  obtain ⟨rfl, hflag⟩ := hm.freshRead
  rcases hremembered with h | h
  · rw [hflag] at h
    cases h
  · exact h

/-! ### A read during the rebuild -/

/-- Graph 1 is published; after an invalidation a stale read starts the rebuild, and while
    its loader runs another read comes in. -/
def readDuringRebuild : List (Act ℕ) :=
  [.getWithStamp 0 10, .resume 0 ⟨10, none, 2⟩, .resume 0 ⟨10, none, 2⟩]
    ++ List.replicate 5 (.resume 0 ⟨10, some (some 1), 2⟩)
    ++ [.invalidate, .getWithStamp 1 11]
    ++ List.replicate 2 (.resume 1 ⟨11, none, 2⟩)
    ++ List.replicate 2 (.resume 2 ⟨11, none, 2⟩)
    ++ [.getWithStamp 3 12]

theorem readDuringRebuild_old_graph :
    (machine ℕ 45).Along (fun s a => loaderReturns s a = true) init readDuringRebuild ∧
      ¬ NoLostInvalidation 45 readDuringRebuild := by
  refine ⟨by decide +kernel, fun h => ?_⟩
  exact absurd (h 14 8 ⟨some 1, some 10, 4⟩ (by decide) (by decide +kernel) (by decide +kernel))
    (by decide)

theorem readDuringRebuild_in_flight :
    8 < 4 ∨ ∃ t, (((machine ℕ 45).stateAfter init (readDuringRebuild.take 14)).pc t).LoadsAfter 8 :=
  fresh_read_after_invalidate 45 readDuringRebuild (by decide +kernel) 14 8
    ⟨some 1, some 10, 4⟩ (by decide) (by decide +kernel) (by decide +kernel)

end Srp.Netdisco.GraphCache
