/-
  Srp/Netdisco/CacheEtag.lean
  ===========================
  **The ETag of the network map (`api.py`, `network_map_graph`).**

  The tag is `int()` of the publication stamp that `get_with_stamp` returns with
  the graph.  Every graph served was published with its stamp, and stamps increase
  from one publication to the next; so two responses with one tag come from
  publications within one whole second of the clock.  The tag is sound as long as
  no publication within the second of the one before changes the graph.
-/
import Mathlib
import Srp.Netdisco.Cache

namespace Srp.Netdisco.GraphCache

open Srp.Lib Srp.Lib.PyNum

variable {G : Type}

/-! ### The endpoint -/

def defaultTtlSec : ℚ := 45

inductive Reply (G : Type) where
  | notModified
  | ok (etag cacheControl : String) (graph : G)
deriving DecidableEq, Repr

/-- `W/"{int(stamp or 0)}"`. -/
def etag (r : Stamped G) : String := "W/\"" ++ fmtInt (r.loadedAt.getD 0) ++ "\""

/-- `graph or {}`. -/
def body (empty : G) (r : Stamped G) : G := r.value.getD empty

/-- `network_map_graph` without `at`, after `get_with_stamp` returned `r`. -/
def networkMapGraph (empty : G) (ifNoneMatch : Option String) (r : Stamped G) : Reply G :=
  if ifNoneMatch = some (etag r) then .notModified
  else .ok (etag r) ("private, max-age=" ++ fmtInt defaultTtlSec) (body empty r)

theorem networkMapGraph_notModified {empty : G} {tag : String} {r : Stamped G} :
    networkMapGraph empty (some tag) r = .notModified ↔ tag = etag r := by
  unfold networkMapGraph
  split <;> simp_all

theorem trunc_eq_of_etag_eq {r r' : Stamped G} (h : etag r = etag r') :
    trunc (r.loadedAt.getD 0) = trunc (r'.loadedAt.getD 0) := by
  unfold etag at h
  rw [String.append_left_inj, String.append_right_inj] at h
  exact Int.repr_injective h

/-! ### What the responses of a run carry -/

/-- Along the interleaving `xs` some `get_with_stamp` returns `r`. -/
def Serves (ttl : ℚ) (xs : List (Act G)) (r : Stamped G) : Prop :=
  ∃ path, some (.served path r) ∈ (machine G ttl).outputs init xs

/-- Responses with one tag carry one graph, and a client that sends back the tag of a
    response gets a 304 only while the graph is the one it has. -/
structure EtagSound (ttl : ℚ) (empty : G) (xs : List (Act G)) : Prop where
  sameTag : ∀ r r', Serves ttl xs r → Serves ttl xs r' → etag r = etag r' →
    body empty r = body empty r'
  notModified : ∀ r r', Serves ttl xs r → Serves ttl xs r' →
    networkMapGraph empty (some (etag r)) r' = .notModified → body empty r = body empty r'

def publication (s : State G) : Act G → Option (Option G × ℚ)
  | .resume t env =>
    match s.pc t with
    | .publish _ _ _ value => some (value, env.now)
    | _ => none
  | _ => none

/-- The clock has moved on since the last publication. -/
def ClockIncreases (s : State G) (a : Act G) : Prop :=
  ∀ new ∈ publication s a, ∀ last ∈ s.cached.loadedAt, last < new.2

/-- A publication in the same whole second as the last one publishes the same graph. -/
def SecondKeepsGraph (empty : G) (s : State G) (a : Act G) : Prop :=
  ∀ new ∈ publication s a, ∀ last ∈ s.cached.loadedAt, trunc last = trunc new.2 →
    body empty s.cached = new.1.getD empty

instance (s : State G) (a : Act G) : Decidable (ClockIncreases s a) :=
  inferInstanceAs (Decidable (∀ new ∈ publication s a, ∀ last ∈ s.cached.loadedAt, last < new.2))

instance [DecidableEq G] (empty : G) (s : State G) (a : Act G) :
    Decidable (SecondKeepsGraph empty s a) :=
  inferInstanceAs (Decidable (∀ new ∈ publication s a, ∀ last ∈ s.cached.loadedAt,
    trunc last = trunc new.2 → body empty s.cached = new.1.getD empty))

/-! ### Every graph served was published -/

/-- What a thread returns later without reading the cache again. -/
def Pc.held : Pc G → Option (Stamped G)
  | .tryRebuild r | .startThread r | .reuseWarmed r => some r
  | .release _ result => result
  | _ => none

def Visible (s : State G) (r : Stamped G) : Prop :=
  (r = s.cached ∧ (r.value.isSome ∨ r.loadedAt.isSome)) ∨ ∃ t, (s.pc t).held = some r

theorem not_visible_init (r : Stamped G) : ¬ Visible init r := by
  rintro (⟨rfl, h⟩ | ⟨t, h⟩)
  · simp [init] at h
  · simp [init, Pc.held] at h

theorem Visible.of_goto {s : State G} {t : Thread} {p : Pc G} {r : Stamped G}
    (h : Visible (s.goto t p) r) : Visible s r ∨ p.held = some r := by
  rcases h with h | ⟨u, hu⟩
  · exact .inl (.inl h)
  · rcases goto_pc_cases s t p u with ⟨-, hpc⟩ | ⟨-, hpc⟩
    · rw [hpc] at hu
      exact .inr hu
    · rw [hpc] at hu
      exact .inl (.inr ⟨u, hu⟩)

theorem Visible.of_goto_idle {s : State G} {t : Thread} {p : Pc G} {r : Stamped G}
    (h : Visible (s.goto t p) r) (hp : p.held = none) : Visible s r := by
  rcases h.of_goto with h | h
  · exact h
  · simp [hp] at h

theorem isFresh_isSome {ttl now : ℚ} {r : Stamped G} (h : isFresh ttl now r = true) :
    r.loadedAt.isSome := by
  unfold isFresh at h
  split at h
  case h_1 hr => simp [hr]
  case h_2 => cases h

theorem Moves.served_visible {ttl : ℚ} {s s' : State G} {a : Act G} {path : Path}
    {r : Stamped G} (hm : Moves ttl s a s' (some (.served path r))) : Visible s r := by
  cases hm with
  | fresh t now hfresh hflag => exact .inl ⟨rfl, .inr (isFresh_isSome hfresh)⟩
  | lostRace t env _ hpc | started t env _ hpc | reused t env _ hpc | built t env _ hpc =>
    exact .inr ⟨t, by simp [hpc, Pc.held]⟩
  | released t env caller result p _ hpc hp he => simp at he

theorem Moves.visible {ttl : ℚ} {s s' : State G} {a : Act G} {e : Option (Event G)}
    (hm : Moves ttl s a s' e) {r : Stamped G} (hr : Visible s' r) :
    Visible s r ∨ e = some (.published r) := by
  cases hm with
  | blocked | fresh | invalidate => exact .inl hr
  | stale t now hpc hvalue =>
    rcases hr.of_goto with h | h
    · exact .inl h
    · exact .inl (.inl ⟨(Option.some.inj h).symm, .inl (Option.some.inj h ▸ hvalue)⟩)
  | foundWarm t env hpc hvalue =>
    rcases hr.of_goto with h | h
    · exact .inl h
    · exact .inl (.inl ⟨(Option.some.inj h).symm, .inl (Option.some.inj h ▸ hvalue)⟩)
  | wonRace t env served hpc hlock =>
    rcases hr.of_goto with h | h
    · exact .inl h
    · exact .inl (.inr ⟨t, by simpa [hpc, Pc.held] using h⟩)
  | started t env served hpc hchild =>
    exact .inl ((hr.of_goto_idle rfl).of_goto_idle rfl)
  | released t env caller result p e hpc hp he =>
    refine .inl (hr.of_goto_idle ?_)
    rcases hp with rfl | rfl <;> rfl
  | published t env caller cleared started value hpc =>
    rcases hr with ⟨rfl, -⟩ | ⟨u, hu⟩
    · exact .inr rfl
    · rcases goto_pc_cases (s.store _) t _ u with ⟨-, hpc'⟩ | ⟨-, hpc'⟩
      · rw [hpc'] at hu
        exact .inr (congrArg _ (congrArg _ (Option.some.inj hu)))
      · rw [hpc'] at hu
        exact .inl (.inr ⟨u, hu⟩)
  | _ => exact .inl (hr.of_goto_idle rfl)

/-- The cached graph changes by a publication only, and then to what is published. -/
theorem Moves.cached {ttl : ℚ} {s s' : State G} {a : Act G} {e : Option (Event G)}
    (hm : Moves ttl s a s' e) :
    (s'.cached = s.cached ∧ ∀ r, e ≠ some (.published r)) ∨
      ∃ now, s'.cached.loadedAt = some now ∧ publication s a = some (s'.cached.value, now) ∧
        e = some (.published s'.cached) := by
  cases hm with
  | published t env caller cleared started value hpc =>
    exact .inr ⟨env.now, rfl, by simp [publication, hpc], rfl⟩
  | released t env caller result p e hpc hp he =>
    refine .inl ⟨rfl, fun r => ?_⟩
    rcases he with rfl | rfl | ⟨v, rfl⟩ <;> simp
  | _ => exact .inl ⟨rfl, fun r => by simp⟩

/-! ### The history of publications -/

/-- `r` is not younger than `cur`, and carries its graph if the two share a second. -/
def Older (empty : G) (r cur : Stamped G) : Prop :=
  ∃ p q, r.loadedAt = some p ∧ cur.loadedAt = some q ∧ p ≤ q ∧
    (trunc p = trunc q → body empty r = body empty cur)

/-- A publication in a new second, or of the same graph, leaves the older ones older. -/
theorem Older.publish {empty : G} {r cur new : Stamped G} {q now : ℚ} (h : Older empty r cur)
    (hq : cur.loadedAt = some q) (hnow : new.loadedAt = some now) (hlt : q < now)
    (hsame : trunc q = trunc now → body empty cur = body empty new) : Older empty r new := by
  obtain ⟨p, q', hp, hq', hle, hbody⟩ := h
  obtain rfl := Option.some.inj (hq'.symm.trans hq)
  refine ⟨p, now, hp, hnow, hle.trans hlt.le, fun hsec => ?_⟩
  -- the second of `q` lies between two equal ones
  have hpq : trunc p = trunc q' :=
    le_antisymm (trunc_mono hle) (hsec ▸ trunc_mono hlt.le)
  exact (hbody hpq).trans (hsame (hpq.symm.trans hsec))

structure History (empty : G) (s : State G) (trace : List (Option (Event G))) : Prop where
  visible : ∀ r, Visible s r → some (.published r) ∈ trace
  served : ∀ path r, some (.served path r) ∈ trace → some (.published r) ∈ trace
  older : ∀ r, some (.published r) ∈ trace → Older empty r s.cached
  oneGraph : ∀ r r', some (.published r) ∈ trace → some (.published r') ∈ trace →
    trunc (r.loadedAt.getD 0) = trunc (r'.loadedAt.getD 0) → body empty r = body empty r'

theorem history_init (empty : G) : History empty init [] where
  visible r h := absurd h (not_visible_init r)
  served _ _ h := by cases h
  older _ h := by cases h
  oneGraph _ _ h := by cases h

theorem Older.oneGraph {empty : G} {r cur : Stamped G} (h : Older empty r cur)
    (hsec : trunc (r.loadedAt.getD 0) = trunc (cur.loadedAt.getD 0)) :
    body empty r = body empty cur := by
  obtain ⟨p, q, hp, hq, -, hbody⟩ := h
  rw [hp, hq] at hsec
  exact hbody hsec

theorem History.step {ttl : ℚ} {empty : G} {s s' : State G} {a : Act G}
    {e : Option (Event G)} {trace : List (Option (Event G))} (h : History empty s trace)
    (hm : Moves ttl s a s' e) (hclock : ClockIncreases s a)
    (hkeeps : SecondKeepsGraph empty s a) : History empty s' (trace ++ [e]) := by
  have hvisible : ∀ r, Visible s' r → some (.published r) ∈ trace ++ [e] := by
    intro r hr
    rcases hm.visible hr with hr | rfl
    · exact List.mem_append_left _ (h.visible r hr)
    · simp
  have hserved : ∀ path r, some (.served path r) ∈ trace ++ [e] →
      some (.published r) ∈ trace ++ [e] := by
    intro path r hr
    rcases List.mem_append.mp hr with hr | hr
    · exact List.mem_append_left _ (h.served path r hr)
    · obtain rfl := List.mem_singleton.mp hr
      exact List.mem_append_left _ (h.visible r hm.served_visible)
  rcases hm.cached with ⟨hcached, hquiet⟩ | ⟨now, hnow, hpub, rfl⟩
  · -- nothing is published
    have hold : ∀ r, some (.published r) ∈ trace ++ [e] → some (.published r) ∈ trace := by
      intro r hr
      rcases List.mem_append.mp hr with hr | hr
      · exact hr
      · exact absurd (List.mem_singleton.mp hr).symm (hquiet r)
    exact ⟨hvisible, hserved, fun r hr => hcached ▸ h.older r (hold r hr),
      fun r r' hr hr' => h.oneGraph r r' (hold r hr) (hold r' hr')⟩
  · have holder : ∀ r, some (.published r) ∈ trace → Older empty r s'.cached := by
      intro r hr
      have hr' := h.older r hr
      obtain ⟨p, q, -, hq, -, -⟩ := h.older r hr
      exact hr'.publish hq hnow (hclock _ hpub q hq) (hkeeps _ hpub q hq)
    have hnew : ∀ r, some (.published r) ∈ trace ++ [some (.published s'.cached)] →
        some (.published r) ∈ trace ∨ r = s'.cached := by
      intro r hr
      simpa using hr
    refine ⟨hvisible, hserved, fun r hr => ?_, fun r r' hr hr' hsec => ?_⟩
    · rcases hnew r hr with hr | rfl
      · exact holder r hr
      · exact ⟨now, now, hnow, hnow, le_refl _, fun _ => rfl⟩
    · rcases hnew r hr with hr | rfl
      · rcases hnew r' hr' with hr' | rfl
        · exact h.oneGraph r r' hr hr' hsec
        · exact (holder r hr).oneGraph hsec
      · rcases hnew r' hr' with hr' | rfl
        · exact ((holder r' hr').oneGraph hsec.symm).symm
        · rfl

theorem History.advance {empty : G} {s : State G} {trace : List (Option (Event G))}
    (h : History empty s trace) : History empty s.advance trace :=
  ⟨h.visible, h.served, h.older, h.oneGraph⟩

theorem history (ttl : ℚ) (empty : G) (xs : List (Act G))
    (hclock : (machine G ttl).Along ClockIncreases init xs)
    (hkeeps : (machine G ttl).Along (SecondKeepsGraph empty) init xs) :
    History empty ((machine G ttl).stateAfter init xs) ((machine G ttl).outputs init xs) := by
  have hstep : ∀ s trace a, History empty s trace →
      ClockIncreases s a ∧ SecondKeepsGraph empty s a →
      History empty ((machine G ttl).next s a) (trace ++ [(machine G ttl).out s a]) := by
    intro s trace a hs hc
    exact (hs.step (step_moves ttl s a) hc.1 hc.2).advance
  exact Machine.trace_invariant_along hstep (history_init empty) (hclock.and hkeeps)

/-- **The ETag of the network map is sound** in every interleaving in which no rebuild
    publishes a different graph within the whole second of the publication before it. -/
theorem etag_sound (ttl : ℚ) (empty : G) (xs : List (Act G))
    (hclock : (machine G ttl).Along ClockIncreases init xs)
    (hkeeps : (machine G ttl).Along (SecondKeepsGraph empty) init xs) :
    EtagSound ttl empty xs := by
  have h := history ttl empty xs hclock hkeeps
  have hsame : ∀ r r', Serves ttl xs r → Serves ttl xs r' → etag r = etag r' →
      body empty r = body empty r' := by
    rintro r r' ⟨path, hr⟩ ⟨path', hr'⟩ htag
    exact h.oneGraph r r' (h.served path r hr) (h.served path' r' hr') (trunc_eq_of_etag_eq htag)
  refine ⟨hsame, fun r r' hr hr' h304 => ?_⟩
  exact hsame r r' hr hr' (networkMapGraph_notModified.mp h304)

/-! ### Two rebuilds in one second -/

/-- The steps of a rebuild from the flag to the release: `value` published at `now`. -/
def rebuildSteps (t : Thread) (value : ℕ) (now : ℚ) : List (Act ℕ) :=
  List.replicate 5 (.resume t ⟨now, some (some value), 2⟩)

/-- A cold read at 10 s publishes graph 1 at 10.2 s; after an invalidation a stale read
    starts the rebuild that publishes graph 2 at `second`; then one more read. -/
def twoRebuilds (second : ℚ) : List (Act ℕ) :=
  [.getWithStamp 0 10, .resume 0 ⟨10, none, 2⟩, .resume 0 ⟨10, none, 2⟩]
    ++ rebuildSteps 0 1 (102 / 10)
    ++ [.invalidate, .getWithStamp 1 (103 / 10), .resume 1 ⟨10, none, 2⟩, .resume 1 ⟨10, none, 2⟩]
    ++ rebuildSteps 2 2 second
    ++ [.getWithStamp 0 (second + 1 / 10)]

theorem twoRebuilds_share_tag :
    (machine ℕ 45).Along ClockIncreases init (twoRebuilds (107 / 10)) ∧
      ¬ EtagSound 45 0 (twoRebuilds (107 / 10)) := by
  refine ⟨by decide +kernel, fun h => ?_⟩
  have hfirst : Serves 45 (twoRebuilds (107 / 10)) ⟨some 1, some (51 / 5), 4⟩ :=
    ⟨.built, by decide +kernel⟩
  have hsecond : Serves 45 (twoRebuilds (107 / 10)) ⟨some 2, some (107 / 10), 13⟩ :=
    ⟨.fresh, by decide +kernel⟩
  exact absurd (h.sameTag _ _ hfirst hsecond (by decide +kernel)) (by decide)

theorem twoRebuilds_sound :
    (machine ℕ 45).Along ClockIncreases init (twoRebuilds (117 / 10)) ∧
      EtagSound 45 0 (twoRebuilds (117 / 10)) := by
  have hclock : (machine ℕ 45).Along ClockIncreases init (twoRebuilds (117 / 10)) := by
    decide +kernel
  exact ⟨hclock, etag_sound 45 0 _ hclock (by decide +kernel)⟩

end Srp.Netdisco.GraphCache
