/-
  Srp/Netdisco/Cache.lean
  =======================
  **The read-through cache of the network map (`netdisco/cache.py`).**

  `GraphCache` is shared by request threads, background rebuilds and the "collect
  now" button.  Its fields are guarded by `_lock`, and `_rebuild_lock` is held for
  the whole of a rebuild, loader call included.  One step of the model is one
  critical section of `_lock`, one operation on `_rebuild_lock`, or one end of the
  loader call; an action names the thread that moves, so a list of actions is an
  interleaving.  A call begins with its first critical section.

  The clock readings, the loader's results and the identity of a new thread come
  with the action.  The clock may read anything; what a result needs of it is a
  hypothesis of that result.
-/
import Mathlib.Data.Rat.Defs
import Mathlib.Logic.Function.Basic
import Mathlib.Tactic.Simps.Basic
import Srp.Lib.Machine
import Srp.Lib.PyNum

namespace Srp.Netdisco.GraphCache

open Srp.Lib

/-! ### State -/

abbrev Thread := Nat

/-- `_value` and `_loaded_at`, always read together.  `loadStarted` is a ghost: the
    time at which the loader call that built the graph began. -/
structure Stamped (G : Type) where
  value : Option G
  loadedAt : Option ℚ
  loadStarted : Nat
deriving DecidableEq, Repr

inductive Caller where
  | coldGet
  | background
  | refresh
deriving DecidableEq, Repr

/-- The next step of a thread.  `cleared` is a ghost: the time at which its rebuild cleared
    `_forced_stale`. -/
inductive Pc (G : Type) where
  | idle
  -- `get_with_stamp`, a stale graph in hand
  | tryRebuild (served : Stamped G)
  | startThread (served : Stamped G)
  -- `get_with_stamp`, nothing cached yet
  | coldStart
  | recheck
  | reuseWarmed (warmed : Stamped G)
  -- `_rebuild_and_release`
  | clearFlag (caller : Caller)
  | callLoader (caller : Caller) (cleared : Nat)
  | loading (caller : Caller) (cleared started : Nat)
  | publish (caller : Caller) (cleared started : Nat) (value : Option G)
  | release (caller : Caller) (result : Option (Stamped G))
  -- `refresh`
  | refreshWaits
  | refreshFailed
deriving DecidableEq, Repr

/-- The cache and its threads; `rebuildLock` names the thread that has to release
    the lock, and `tick` counts the steps. -/
structure State (G : Type) where
  cached : Stamped G
  forcedStale : Bool
  rebuildLock : Option Thread
  pc : Thread → Pc G
  tick : Nat

variable {G : Type}

def init : State G where
  cached := ⟨none, none, 0⟩
  forcedStale := false
  rebuildLock := none
  pc := fun _ => .idle
  tick := 0

@[simps] def State.goto (s : State G) (t : Thread) (p : Pc G) : State G :=
  { s with pc := Function.update s.pc t p }

@[simps] def State.acquire (s : State G) (t : Thread) : State G :=
  { s with rebuildLock := some t }

@[simps] def State.unlock (s : State G) : State G := { s with rebuildLock := none }

@[simps] def State.setForcedStale (s : State G) (flag : Bool) : State G :=
  { s with forcedStale := flag }

@[simps] def State.store (s : State G) (new : Stamped G) : State G := { s with cached := new }

@[simps] def State.advance (s : State G) : State G := { s with tick := s.tick + 1 }

theorem goto_pc_cases (s : State G) (t : Thread) (p : Pc G) (u : Thread) :
    (u = t ∧ (s.goto t p).pc u = p) ∨ (u ≠ t ∧ (s.goto t p).pc u = s.pc u) := by
  by_cases hut : u = t
  · subst hut
    exact .inl ⟨rfl, Function.update_self ..⟩
  · exact .inr ⟨hut, Function.update_of_ne hut ..⟩

/-! ### Steps -/

/-- What the environment answers to a step: the clock, the loader (`none` when it
    raises), the thread that `threading.Thread` makes. -/
structure Env (G : Type) where
  now : ℚ
  loaded : Option (Option G)
  child : Thread
deriving Repr

inductive Act (G : Type) where
  | getWithStamp (t : Thread) (now : ℚ)
  | invalidate
  | refresh (t : Thread)
  | resume (t : Thread) (env : Env G)
deriving Repr

/-- How `get_with_stamp` came by what it returns. -/
inductive Path where
  | fresh
  | stale
  | warmed
  | built
deriving DecidableEq, Repr

inductive Event (G : Type) where
  | served (path : Path) (returned : Stamped G)
  | getFailed
  | invalidated
  | refreshed (value : Option G)
  | published (value : Stamped G)
deriving DecidableEq, Repr

/-- `now - _loaded_at < _ttl`. -/
def isFresh (ttl now : ℚ) (cached : Stamped G) : Bool :=
  match cached.loadedAt with
  | some loadedAt => now - loadedAt < ttl
  | none => false

/-- The first critical section of `get_with_stamp`. -/
def beginGet (ttl : ℚ) (s : State G) (t : Thread) (now : ℚ) : State G × Option (Event G) :=
  if isFresh ttl now s.cached && !s.forcedStale then (s, some (.served .fresh s.cached))
  else if s.cached.value.isSome then (s.goto t (.tryRebuild s.cached), none)
  else (s.goto t .coldStart, none)

/-- The end of `_rebuild_and_release`: the lock is free and the caller goes on. -/
def finishRebuild (s : State G) (t : Thread) (caller : Caller) (result : Option (Stamped G)) :
    State G × Option (Event G) :=
  match caller, result with
  | .coldGet, some r => (s.unlock.goto t .idle, some (.served .built r))
  | .coldGet, none => (s.unlock.goto t .idle, some .getFailed)
  | .background, _ => (s.unlock.goto t .idle, none)
  | .refresh, some r => (s.unlock.goto t .idle, some (.refreshed r.value))
  | .refresh, none => (s.unlock.goto t .refreshFailed, none)

/-- The step of thread `t`; a thread that waits for a lock does not move. -/
def resume (s : State G) (t : Thread) (env : Env G) : State G × Option (Event G) :=
  match s.pc t with
  | .idle => (s, none)
  | .tryRebuild served =>
    if s.rebuildLock = none then ((s.acquire t).goto t (.startThread served), none)
    else (s.goto t .idle, some (.served .stale served))
  | .startThread served =>
    match s.pc env.child with
    | .idle =>
      (((s.acquire env.child).goto t .idle).goto env.child (.clearFlag .background),
        some (.served .stale served))
    | _ => (s, none)
  | .coldStart =>
    if s.rebuildLock = none then ((s.acquire t).goto t .recheck, none)
    else (s, none)
  | .recheck =>
    if s.cached.value.isSome then (s.goto t (.reuseWarmed s.cached), none)
    else (s.goto t (.clearFlag .coldGet), none)
  | .reuseWarmed warmed => (s.unlock.goto t .idle, some (.served .warmed warmed))
  | .clearFlag caller => ((s.setForcedStale false).goto t (.callLoader caller s.tick), none)
  | .callLoader caller cleared => (s.goto t (.loading caller cleared s.tick), none)
  | .loading caller cleared started =>
    match env.loaded with
    | some value => (s.goto t (.publish caller cleared started value), none)
    | none => (s.goto t (.release caller none), none)
  | .publish caller _ started value =>
    ((s.store ⟨value, some env.now, started⟩).goto t
        (.release caller (some ⟨value, some env.now, started⟩)),
      some (.published ⟨value, some env.now, started⟩))
  | .release caller result => finishRebuild s t caller result
  | .refreshWaits =>
    if s.rebuildLock = none then ((s.acquire t).goto t (.clearFlag .refresh), none)
    else (s, none)
  | .refreshFailed =>
    ((s.setForcedStale true).goto t .idle, some (.refreshed s.cached.value))

def step (ttl : ℚ) (s : State G) : Act G → State G × Option (Event G)
  | .getWithStamp t now =>
    match s.pc t with
    | .idle => beginGet ttl s t now
    | _ => (s, none)
  | .invalidate => (s.setForcedStale true, some .invalidated)
  | .refresh t =>
    match s.pc t with
    | .idle => ((s.setForcedStale true).goto t .refreshWaits, none)
    | _ => (s, none)
  | .resume t env => resume s t env

/-- The cache with time-to-live `ttl`, as a machine that reads an interleaving. -/
def machine (G : Type) (ttl : ℚ) : Machine (State G) (Act G) (Option (Event G)) where
  next s a := (step ttl s a).1.advance
  out s a := (step ttl s a).2

/-! ### What a step can do -/

/-- The moves of the cache: `Moves ttl s a s' e` says that action `a` takes `s` to `s'`
    and emits `e`. -/
inductive Moves (ttl : ℚ) (s : State G) : Act G → State G → Option (Event G) → Prop where
  | blocked (a : Act G) : Moves ttl s a s none
  | fresh (t : Thread) (now : ℚ) (hfresh : isFresh ttl now s.cached = true)
      (hflag : s.forcedStale = false) :
      Moves ttl s (.getWithStamp t now) s (some (.served .fresh s.cached))
  | stale (t : Thread) (now : ℚ) (hpc : s.pc t = .idle) (hvalue : s.cached.value.isSome) :
      Moves ttl s (.getWithStamp t now) (s.goto t (.tryRebuild s.cached)) none
  | cold (t : Thread) (now : ℚ) (hpc : s.pc t = .idle) (hvalue : s.cached.value = none) :
      Moves ttl s (.getWithStamp t now) (s.goto t .coldStart) none
  | invalidate : Moves ttl s .invalidate (s.setForcedStale true) (some .invalidated)
  | refresh (t : Thread) (hpc : s.pc t = .idle) :
      Moves ttl s (.refresh t) ((s.setForcedStale true).goto t .refreshWaits) none
  | lostRace (t : Thread) (env : Env G) (served : Stamped G) (hpc : s.pc t = .tryRebuild served)
      (hlock : s.rebuildLock ≠ none) :
      Moves ttl s (.resume t env) (s.goto t .idle) (some (.served .stale served))
  | wonRace (t : Thread) (env : Env G) (served : Stamped G) (hpc : s.pc t = .tryRebuild served)
      (hlock : s.rebuildLock = none) :
      Moves ttl s (.resume t env) ((s.acquire t).goto t (.startThread served)) none
  | started (t : Thread) (env : Env G) (served : Stamped G)
      (hpc : s.pc t = .startThread served) (hchild : s.pc env.child = .idle) :
      Moves ttl s (.resume t env)
        (((s.acquire env.child).goto t .idle).goto env.child (.clearFlag .background))
        (some (.served .stale served))
  | coldLocked (t : Thread) (env : Env G) (hpc : s.pc t = .coldStart)
      (hlock : s.rebuildLock = none) :
      Moves ttl s (.resume t env) ((s.acquire t).goto t .recheck) none
  | foundWarm (t : Thread) (env : Env G) (hpc : s.pc t = .recheck)
      (hvalue : s.cached.value.isSome) :
      Moves ttl s (.resume t env) (s.goto t (.reuseWarmed s.cached)) none
  | foundCold (t : Thread) (env : Env G) (hpc : s.pc t = .recheck)
      (hvalue : s.cached.value = none) :
      Moves ttl s (.resume t env) (s.goto t (.clearFlag .coldGet)) none
  | reused (t : Thread) (env : Env G) (warmed : Stamped G) (hpc : s.pc t = .reuseWarmed warmed) :
      Moves ttl s (.resume t env) (s.unlock.goto t .idle) (some (.served .warmed warmed))
  | cleared (t : Thread) (env : Env G) (caller : Caller) (hpc : s.pc t = .clearFlag caller) :
      Moves ttl s (.resume t env)
        ((s.setForcedStale false).goto t (.callLoader caller s.tick)) none
  | called (t : Thread) (env : Env G) (caller : Caller) (cleared : Nat)
      (hpc : s.pc t = .callLoader caller cleared) :
      Moves ttl s (.resume t env) (s.goto t (.loading caller cleared s.tick)) none
  | loaded (t : Thread) (env : Env G) (caller : Caller) (cleared started : Nat)
      (value : Option G) (hpc : s.pc t = .loading caller cleared started)
      (hloaded : env.loaded = some value) :
      Moves ttl s (.resume t env) (s.goto t (.publish caller cleared started value)) none
  | raised (t : Thread) (env : Env G) (caller : Caller) (cleared started : Nat)
      (hpc : s.pc t = .loading caller cleared started) (hloaded : env.loaded = none) :
      Moves ttl s (.resume t env) (s.goto t (.release caller none)) none
  | published (t : Thread) (env : Env G) (caller : Caller) (cleared started : Nat)
      (value : Option G) (hpc : s.pc t = .publish caller cleared started value) :
      Moves ttl s (.resume t env)
        ((s.store ⟨value, some env.now, started⟩).goto t
          (.release caller (some ⟨value, some env.now, started⟩)))
        (some (.published ⟨value, some env.now, started⟩))
  | built (t : Thread) (env : Env G) (r : Stamped G) (hpc : s.pc t = .release .coldGet (some r)) :
      Moves ttl s (.resume t env) (s.unlock.goto t .idle) (some (.served .built r))
  | released (t : Thread) (env : Env G) (caller : Caller) (result : Option (Stamped G))
      (p : Pc G) (e : Option (Event G)) (hpc : s.pc t = .release caller result)
      (hp : p = .idle ∨ p = .refreshFailed)
      (he : e = none ∨ e = some .getFailed ∨ ∃ v, e = some (.refreshed v)) :
      Moves ttl s (.resume t env) (s.unlock.goto t p) e
  | refreshLocked (t : Thread) (env : Env G) (hpc : s.pc t = .refreshWaits)
      (hlock : s.rebuildLock = none) :
      Moves ttl s (.resume t env) ((s.acquire t).goto t (.clearFlag .refresh)) none
  | markedAgain (t : Thread) (env : Env G) (hpc : s.pc t = .refreshFailed) :
      Moves ttl s (.resume t env) ((s.setForcedStale true).goto t .idle)
        (some (.refreshed s.cached.value))

theorem beginGet_moves (ttl : ℚ) (s : State G) (t : Thread) (now : ℚ) (hpc : s.pc t = .idle) :
    Moves ttl s (.getWithStamp t now) (beginGet ttl s t now).1 (beginGet ttl s t now).2 := by
  unfold beginGet
  split
  case isTrue h =>
    obtain ⟨hfresh, hflag⟩ : isFresh ttl now s.cached = true ∧ s.forcedStale = false := by
      simpa using h
    exact .fresh t now hfresh hflag
  case isFalse h =>
    split
    case isTrue hvalue => exact .stale t now hpc hvalue
    case isFalse hvalue => exact .cold t now hpc (by simpa using hvalue)

theorem finishRebuild_moves (ttl : ℚ) (s : State G) (t : Thread) (env : Env G) (caller : Caller)
    (result : Option (Stamped G)) (hpc : s.pc t = .release caller result) :
    Moves ttl s (.resume t env) (finishRebuild s t caller result).1
      (finishRebuild s t caller result).2 := by
  cases caller with
  | coldGet =>
    cases result with
    | some r => exact .built t env r hpc
    | none => exact .released t env _ _ _ _ hpc (.inl rfl) (.inr (.inl rfl))
  | background => exact .released t env _ _ _ _ hpc (.inl rfl) (.inl rfl)
  | refresh =>
    cases result with
    | some r => exact .released t env _ _ _ _ hpc (.inl rfl) (.inr (.inr ⟨_, rfl⟩))
    | none => exact .released t env _ _ _ _ hpc (.inr rfl) (.inl rfl)

theorem resume_moves (ttl : ℚ) (s : State G) (t : Thread) (env : Env G) :
    Moves ttl s (.resume t env) (resume s t env).1 (resume s t env).2 := by
  unfold resume
  cases hpc : s.pc t with
  | idle => exact .blocked _
  | tryRebuild served =>
    dsimp only
    split
    case isTrue hlock => exact .wonRace t env served hpc hlock
    case isFalse hlock => exact .lostRace t env served hpc hlock
  | startThread served =>
    dsimp only
    split
    case h_1 hchild => exact .started t env served hpc hchild
    case h_2 => exact .blocked _
  | coldStart =>
    dsimp only
    split
    case isTrue hlock => exact .coldLocked t env hpc hlock
    case isFalse => exact .blocked _
  | recheck =>
    dsimp only
    split
    case isTrue hvalue => exact .foundWarm t env hpc hvalue
    case isFalse hvalue => exact .foundCold t env hpc (by simpa using hvalue)
  | reuseWarmed warmed => exact .reused t env warmed hpc
  | clearFlag caller => exact .cleared t env caller hpc
  | callLoader caller cleared => exact .called t env caller cleared hpc
  | loading caller cleared started =>
    dsimp only
    cases hloaded : env.loaded with
    | some value => exact .loaded t env caller cleared started value hpc hloaded
    | none => exact .raised t env caller cleared started hpc hloaded
  | publish caller cleared started value => exact .published t env caller cleared started value hpc
  | release caller result => exact finishRebuild_moves ttl s t env caller result hpc
  | refreshWaits =>
    dsimp only
    split
    case isTrue hlock => exact .refreshLocked t env hpc hlock
    case isFalse => exact .blocked _
  | refreshFailed => exact .markedAgain t env hpc

theorem step_moves (ttl : ℚ) (s : State G) (a : Act G) :
    Moves ttl s a (step ttl s a).1 (step ttl s a).2 := by
  cases a with
  | getWithStamp t now =>
    dsimp only [step]
    cases hpc : s.pc t with
    | idle => exact beginGet_moves ttl s t now hpc
    | _ => exact .blocked _
  | invalidate => exact .invalidate
  | refresh t =>
    dsimp only [step]
    cases hpc : s.pc t with
    | idle => exact .refresh t hpc
    | _ => exact .blocked _
  | resume t env => exact resume_moves ttl s t env

/-! ### The rebuild lock -/

/-- The thread has `_rebuild_lock` and has to release it. -/
def Pc.Holds : Pc G → Prop
  | .startThread _ | .recheck | .reuseWarmed _ | .clearFlag _ | .callLoader _ _ | .loading _ _ _
  | .publish _ _ _ _ | .release _ _ => True
  | .idle | .tryRebuild _ | .coldStart | .refreshWaits | .refreshFailed => False

/-- Every thread in a critical section of `_rebuild_lock` is the one the lock names. -/
def LockInv (s : State G) : Prop := ∀ t, (s.pc t).Holds → s.rebuildLock = some t

/-- **Rebuilds exclude each other.** -/
theorem LockInv.unique {s : State G} (h : LockInv s) {t u : Thread} (ht : (s.pc t).Holds)
    (hu : (s.pc u).Holds) : t = u :=
  Option.some.inj ((h t ht).symm.trans (h u hu))

theorem lockInv_init : LockInv (init : State G) := fun _ h => h.elim

theorem LockInv.not_holds {s : State G} (h : LockInv s) (hlock : s.rebuildLock = none)
    (t : Thread) : ¬ (s.pc t).Holds := by
  intro ht
  simp [h t ht] at hlock

theorem LockInv.goto {s : State G} (h : LockInv s) {t : Thread} {p : Pc G}
    (hp : p.Holds → (s.pc t).Holds) : LockInv (s.goto t p) := by
  intro u hu
  rcases goto_pc_cases s t p u with ⟨rfl, hpc⟩ | ⟨-, hpc⟩
  · rw [hpc] at hu
    exact h u (hp hu)
  · rw [hpc] at hu
    exact h u hu

theorem LockInv.acquire {s : State G} (h : LockInv s) (hlock : s.rebuildLock = none)
    (t : Thread) (p : Pc G) : LockInv ((s.acquire t).goto t p) := by
  intro u hu
  rcases goto_pc_cases (s.acquire t) t p u with ⟨rfl, -⟩ | ⟨-, hpc⟩
  · rfl
  · rw [hpc] at hu
    exact absurd hu (h.not_holds hlock u)

/-- The lock is handed on: `t` leaves and `u` is the only thread inside. -/
theorem LockInv.handOver {s : State G} (h : LockInv s) {t u : Thread} (ht : (s.pc t).Holds)
    (p : Pc G) : LockInv (((s.acquire u).goto t .idle).goto u p) := by
  intro v hv
  rcases goto_pc_cases ((s.acquire u).goto t .idle) u p v with ⟨rfl, -⟩ | ⟨-, hpc⟩
  · rfl
  · rw [hpc] at hv
    rcases goto_pc_cases (s.acquire u) t .idle v with ⟨rfl, hidle⟩ | ⟨hvt, hpc'⟩
    · rw [hidle] at hv
      exact hv.elim
    · rw [hpc'] at hv
      exact absurd (h.unique hv ht) hvt

theorem LockInv.unlock {s : State G} (h : LockInv s) {t : Thread} (ht : (s.pc t).Holds)
    {p : Pc G} (hp : ¬ p.Holds) : LockInv (s.unlock.goto t p) := by
  intro u hu
  rcases goto_pc_cases s.unlock t p u with ⟨rfl, hpc⟩ | ⟨hut, hpc⟩
  · rw [hpc] at hu
    exact absurd hu hp
  · rw [hpc] at hu
    exact absurd (h.unique hu ht) hut

theorem LockInv.moves {ttl : ℚ} {s s' : State G} {a : Act G} {e : Option (Event G)}
    (h : LockInv s) (hm : Moves ttl s a s' e) : LockInv s' := by
  cases hm with
  | blocked | fresh | invalidate => exact h
  | stale t now hpc | cold t now hpc => exact h.goto fun hp => hp.elim
  | refresh t hpc => exact LockInv.goto (s := s.setForcedStale true) h fun hp => hp.elim
  | lostRace t env served hpc => exact h.goto fun hp => hp.elim
  | wonRace t env served hpc hlock | coldLocked t env hpc hlock
  | refreshLocked t env hpc hlock => exact h.acquire hlock t _
  | started t env served hpc hchild => exact h.handOver (by simp [hpc, Pc.Holds]) _
  | foundWarm t env hpc | foundCold t env hpc => exact h.goto fun _ => by simp [hpc, Pc.Holds]
  | reused t env warmed hpc | built t env r hpc =>
    exact h.unlock (by simp [hpc, Pc.Holds]) fun hp => hp
  | released t env caller result p e hpc hp he =>
    refine h.unlock (by simp [hpc, Pc.Holds]) ?_
    rcases hp with rfl | rfl <;> exact fun hp => hp
  | cleared t env caller hpc =>
    exact LockInv.goto (s := s.setForcedStale false) h fun _ => by simp [hpc, Pc.Holds]
  | called t env caller cleared hpc => exact h.goto fun _ => by simp [hpc, Pc.Holds]
  | loaded t env caller cleared started value hpc | raised t env caller cleared started hpc =>
    exact h.goto fun _ => by simp [hpc, Pc.Holds]
  | published t env caller cleared started value hpc =>
    exact LockInv.goto (s := s.store _) h fun _ => by simp [hpc, Pc.Holds]
  | markedAgain t env hpc =>
    exact LockInv.goto (s := s.setForcedStale true) h fun hp => hp.elim

end Srp.Netdisco.GraphCache
