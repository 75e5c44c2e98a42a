/-
  Srp/Netdisco/Correlation.lean
  =============================
  **Reachability correlation** (`server/netdisco/correlation.py`): a down node is
  DOWN when a root reaches it without crossing another down node, and otherwise
  UNREACHABLE, with the first root cause on its shortest path as the reason.

  `correlate_spec` states this for the paths of the graph: which verdict a node
  gets does not mention the searches, and the cause that the particular shortest
  path yields exists whenever the graph connects the node to a root at all.
-/
import Srp.Lib.GroupBy
import Srp.Netdisco.Graph

namespace Srp.Netdisco

open Srp.Lib.GroupBy Srp.Lib.Worklist Relation

/-! ### Verdicts -/

inductive Status where
  | down
  | unreachable
deriving DecidableEq, Repr

structure Verdict where
  status : Status
  rootCause : Option String := none
  suppressed : Bool := false
deriving DecidableEq, Repr

def upstreamCause (g : Graph) (node : String) (roots causes : List String) : Option String :=
  match pathToRoot g node roots with
  | none => none
  | some path => path.tail.find? (· ∈ causes)

def correlate (S : SetOrder) (g : Graph) (downSet roots : List String) :
    List (String × Verdict) :=
  let downs := S.set downSet
  let rootSet := S.set roots
  let causes := findRootCause S g downs rootSet
  downs.map fun node =>
    (node,
     if node ∈ causes then { status := .down, rootCause := some node, suppressed := false }
     else { status := .unreachable, rootCause := upstreamCause g node rootSet causes,
            suppressed := true })

variable {g : Graph} {S : SetOrder} {downSet roots : List String}

/-! ### Blocked reachability -/

theorem reached_iff_walk {blocked : List String} {r y : String} (hr : r ∉ blocked) :
    ReflTransGen (fun a b => b ∈ (neighbors g a).filter (· ∉ blocked)) r y ↔
      ∃ p : g.toSimpleGraph.Walk r y, ∀ x ∈ p.support, x ∉ blocked := by
  constructor
  · intro h
    induction h with
    | refl => exact ⟨.nil, by simpa using hr⟩
    | tail _ hstep ih =>
      obtain ⟨p, hp⟩ := ih
      obtain ⟨hmem, hclear⟩ := List.mem_filter.mp hstep
      refine ⟨p.concat (adj_iff.mpr hmem), ?_⟩
      intro x hx
      rw [SimpleGraph.Walk.support_concat, List.mem_append, List.mem_singleton] at hx
      rcases hx with hx | rfl
      · exact hp x hx
      · simpa using hclear
  · rintro ⟨p, hp⟩
    induction p with
    | nil => exact .refl
    | cons hadj q ih =>
      have hq : ∀ x ∈ q.support, x ∉ blocked := fun x hx => hp x (List.mem_cons_of_mem _ hx)
      have hstart := hq _ q.start_mem_support
      refine .head (List.mem_filter.mpr ⟨hadj, ?_⟩) (ih hstart hq)
      simpa using hstart

theorem mem_nodes_of_reached {next : String → List String} {start : List String} {x : String}
    (hnext : ∀ a b, b ∈ next a → b ∈ neighbors g a) (hstart : ∀ r ∈ start, r ∈ g.nodes)
    (h : Reached next start x) : x ∈ g.nodes := by
  obtain ⟨r, hr, hrx⟩ := h
  cases hrx with
  | refl => exact hstart _ hr
  | tail _ hstep => exact (mem_nodes_of_adj (hnext _ _ hstep)).2

/-- `reachable_from` is reachability by walks that avoid the blocked nodes. -/
theorem mem_reachableFrom {blocked : List String} {y : String} :
    y ∈ reachableFrom g roots blocked ↔ ∃ r ∈ roots, r ∈ g.nodes ∧
      ∃ p : g.toSimpleGraph.Walk r y, ∀ x ∈ p.support, x ∉ blocked := by
  have hstart : ∀ r, r ∈ fresh [] (roots.filter fun r => r ∈ g.nodes ∧ r ∉ blocked) ↔
      r ∈ roots ∧ r ∈ g.nodes ∧ r ∉ blocked := by
    intro r
    simp [mem_fresh]
  have hnext : ∀ a b, b ∈ (neighbors g a).filter (· ∉ blocked) → b ∈ neighbors g a :=
    fun _ _ h => List.mem_of_mem_filter h
  unfold reachableFrom
  rw [mem_reach (fun x => mem_nodes_of_reached hnext fun r hr => ((hstart r).mp hr).2.1)
    (Frontier.init (nodup_append_fresh _ List.nodup_nil)) le_rfl]
  constructor
  · rintro ⟨r, hr, hry⟩
    obtain ⟨hroot, hnode, hclear⟩ := (hstart r).mp hr
    exact ⟨r, hroot, hnode, (reached_iff_walk hclear).mp hry⟩
  · rintro ⟨r, hroot, hnode, p, hp⟩
    have hclear := hp r p.start_mem_support
    exact ⟨r, (hstart r).mpr ⟨hroot, hnode, hclear⟩, (reached_iff_walk hclear).mpr ⟨p, hp⟩⟩

/-! ### Root causes -/

/-- A walk from `n` to a root that meets no other down node. -/
def ClearWalk (g : Graph) (downSet roots : List String) (n : String) : Prop :=
  ∃ r ∈ roots, ∃ p : g.toSimpleGraph.Walk n r, ∀ x ∈ p.support, x ∈ downSet → x = n

theorem clearWalk_iff_path {n : String} : ClearWalk g downSet roots n ↔
    ∃ r ∈ roots, ∃ p : g.toSimpleGraph.Walk n r,
      p.IsPath ∧ ∀ x ∈ p.support, x ∈ downSet → x = n := by
  constructor
  · rintro ⟨r, hr, p, hp⟩
    exact ⟨r, hr, p.toPath, p.toPath.property,
      fun x hx => hp x (p.support_toPath_subset_support hx)⟩
  · rintro ⟨r, hr, p, _, hp⟩
    exact ⟨r, hr, p, hp⟩

theorem mem_nodes_of_walk {a b : String} (p : g.toSimpleGraph.Walk a b) (ha : a ∈ g.nodes) :
    b ∈ g.nodes := by
  induction p with
  | nil => exact ha
  | cons hadj _ ih => exact ih (mem_nodes_of_adj hadj).2

theorem mem_findRootCause {n : String} :
    n ∈ findRootCause S g downSet roots ↔ n ∈ downSet ∧ ClearWalk g downSet roots n := by
  unfold findRootCause
  simp only [List.mem_filter, SetOrder.mem_set, decide_eq_true_eq, List.any_eq_true,
    mem_reachableFrom]
  refine and_congr_right fun hdown => ?_
  constructor
  · rintro (hroot | ⟨b, hb, r, hr, _, q, hq⟩)
    · exact ⟨n, hroot, .nil, by simp⟩
    · refine ⟨r, hr, .cons (adj_iff.mpr hb) q.reverse, ?_⟩
      intro x hx hxdown
      rw [SimpleGraph.Walk.support_cons, SimpleGraph.Walk.support_reverse, List.mem_cons,
        List.mem_reverse] at hx
      exact hx.resolve_right fun hxq => hq x hxq hxdown
  · intro h
    obtain ⟨r, hr, p, hpath, hp⟩ := clearWalk_iff_path.mp h
    cases p with
    | nil => exact Or.inl hr
    | @cons _ b _ hadj q =>
      have hnq := (SimpleGraph.Walk.cons_isPath_iff hadj q).mp hpath
      right
      refine ⟨b, hadj, r, hr, mem_nodes_of_walk q (mem_nodes_of_adj hadj).2, q.reverse, ?_⟩
      intro x hx hxdown
      rw [SimpleGraph.Walk.support_reverse, List.mem_reverse] at hx
      exact hnq.2 (hp x (List.mem_cons_of_mem _ hx) hxdown ▸ hx)

/-- Any walk to a root that meets a down node meets a root cause: the last down node on
    it is one. -/
theorem exists_cause_on_walk {a r : String} (p : g.toSimpleGraph.Walk a r) (hr : r ∈ roots)
    (h : ∃ x ∈ p.support, x ∈ downSet) :
    ∃ c ∈ p.support, c ∈ findRootCause S g downSet roots := by
  induction p with
  | @nil u =>
    obtain ⟨x, hx, hdown⟩ := h
    obtain rfl : x = u := by simpa using hx
    exact ⟨x, hx, mem_findRootCause.mpr ⟨hdown, x, hr, .nil, by simp⟩⟩
  | @cons u b r hadj q ih =>
    by_cases hq : ∃ x ∈ q.support, x ∈ downSet
    · obtain ⟨c, hc, hcause⟩ := ih hr hq
      exact ⟨c, List.mem_cons_of_mem _ hc, hcause⟩
    · obtain ⟨x, hx, hdown⟩ := h
      rw [SimpleGraph.Walk.support_cons, List.mem_cons] at hx
      obtain rfl : x = u := hx.resolve_right fun hxq => hq ⟨x, hxq, hdown⟩
      refine ⟨x, List.mem_cons_self, mem_findRootCause.mpr ⟨hdown, r, hr, .cons hadj q, ?_⟩⟩
      intro y hy hydown
      rw [SimpleGraph.Walk.support_cons, List.mem_cons] at hy
      exact hy.resolve_right fun hyq => hq ⟨y, hyq, hydown⟩

/-! ### The path to a root -/

theorem exists_walk_of_isChain {V : Type} {G : SimpleGraph V} {u v : V} {l : List V}
    (hchain : l.IsChain G.Adj) (hhead : l.head? = some u) (hlast : l.getLast? = some v) :
    ∃ p : G.Walk u v, p.support = l := by
  have hne : l ≠ [] := by
    rintro rfl
    cases hhead
  have hu : l.head hne = u := by
    rw [List.head?_eq_some_head hne] at hhead
    exact Option.some.inj hhead
  have hv : l.getLast hne = v := by
    rw [List.getLast?_eq_some_getLast hne] at hlast
    exact Option.some.inj hlast
  exact ⟨(SimpleGraph.Walk.ofSupport l hne hchain).copy hu hv, by simp⟩

/-- What `path_to_root` returns: a path to a root, or nothing when no root is connected. -/
theorem pathToRoot_spec (g : Graph) (node : String) (roots : List String) :
    match pathToRoot g node roots with
    | some path => ∃ r ∈ roots, ∃ p : g.toSimpleGraph.Walk node r, p.IsPath ∧ p.support = path
    | none => ∀ r ∈ roots, ¬ g.toSimpleGraph.Reachable node r := by
  unfold pathToRoot
  by_cases hnode : node ∈ roots
  · rw [if_pos hnode]
    exact ⟨node, hnode, .nil, .nil, rfl⟩
  · rw [if_neg hnode]
    have hsteps : ∀ y, Reached (fun n => (neighbors g n).insertionSort (· ≤ ·)) [node] y ↔
        g.toSimpleGraph.Reachable node y := by
      intro y
      have hrel : (fun a b => b ∈ (neighbors g a).insertionSort (· ≤ ·)) =
          g.toSimpleGraph.Adj := by
        funext a b
        exact propext (List.perm_insertionSort _ _).mem_iff
      unfold Reached
      rw [hrel, SimpleGraph.reachable_iff_reflTransGen]
      simp
    have hbound : ∀ x, Reached (fun n => (neighbors g n).insertionSort (· ≤ ·)) [node] x →
        x ∈ node :: g.nodes := by
      intro x hx
      obtain ⟨p⟩ := (hsteps x).mp hx
      cases p with
      | nil => exact List.mem_cons_self
      | cons hadj q =>
        exact List.mem_cons_of_mem _ (mem_nodes_of_walk q (mem_nodes_of_adj hadj).2)
    have hspec := @search_spec String _ [node] _ (fun n => decide (n ∈ roots)) node _
      hbound (g.nodes.length + 2) [(node, none)] (Frontier.init (List.nodup_singleton node)) .start
      (by simp) (by simp)
    cases hs : search (fun n => (neighbors g n).insertionSort (· ≤ ·))
        (fun n => decide (n ∈ roots)) (g.nodes.length + 2) [node] [(node, none)] with
    | none =>
      rw [hs] at hspec
      intro r hr hreach
      exact of_decide_eq_false (hspec r ((hsteps r).mpr hreach)) hr
    | some found =>
      obtain ⟨r, prev⟩ := found
      rw [hs] at hspec
      obtain ⟨hr, hmarks, hmem⟩ := hspec
      obtain ⟨hchain, _⟩ := hmarks.chain [] le_rfl hmem
      rw [List.append_nil] at hchain
      have hadj : (chain prev.length prev (some r)).reverse.IsChain g.toSimpleGraph.Adj := by
        rw [List.isChain_reverse]
        refine hchain.steps.imp ?_
        intro b a hstep
        exact (List.perm_insertionSort _ _).mem_iff.mp hstep
      obtain ⟨p, hp⟩ := exists_walk_of_isChain hadj (by rw [List.head?_reverse]; exact hchain.last)
        (by rw [List.getLast?_reverse]; exact hchain.head)
      refine ⟨r, of_decide_eq_true hr, p, ?_, hp⟩
      rw [SimpleGraph.Walk.isPath_def, hp]
      exact List.nodup_reverse.mpr hchain.nodup

/-! ### The verdicts -/

theorem correlate_lookup {n : String} {v : Verdict} :
    (correlate S g downSet roots).lookup n = some v ↔ n ∈ downSet ∧
      v = if n ∈ findRootCause S g (S.set downSet) (S.set roots) then
          { status := .down, rootCause := some n, suppressed := false }
        else
          { status := .unreachable,
            rootCause := upstreamCause g n (S.set roots)
              (findRootCause S g (S.set downSet) (S.set roots)),
            suppressed := true } := by
  unfold correlate
  rw [lookup_map_pair, SetOrder.mem_set]

theorem mem_causes {n : String} :
    n ∈ findRootCause S g (S.set downSet) (S.set roots) ↔
      n ∈ downSet ∧ ClearWalk g downSet roots n := by
  rw [mem_findRootCause]
  unfold ClearWalk
  simp only [SetOrder.mem_set]

/-- The cause found on the shortest path: there is one as soon as there is a path. -/
theorem upstreamCause_spec {n : String} (hdown : n ∈ downSet)
    (hn : n ∉ findRootCause S g (S.set downSet) (S.set roots)) :
    match upstreamCause g n (S.set roots) (findRootCause S g (S.set downSet) (S.set roots)) with
    | some c => c ∈ findRootCause S g (S.set downSet) (S.set roots) ∧
        ∃ r ∈ roots, ∃ p : g.toSimpleGraph.Walk n r, p.IsPath ∧ c ∈ p.support
    | none => ∀ r ∈ roots, ¬ g.toSimpleGraph.Reachable n r := by
  have hpath := pathToRoot_spec g n (S.set roots)
  cases hp : pathToRoot g n (S.set roots) with
  | none =>
    rw [hp] at hpath
    have hup : upstreamCause g n (S.set roots)
        (findRootCause S g (S.set downSet) (S.set roots)) = none := by
      unfold upstreamCause
      rw [hp]
    rw [hup]
    intro r hr
    exact hpath r (SetOrder.mem_set.mpr hr)
  | some path =>
    rw [hp] at hpath
    have hup : upstreamCause g n (S.set roots)
        (findRootCause S g (S.set downSet) (S.set roots)) =
          path.tail.find? (· ∈ findRootCause S g (S.set downSet) (S.set roots)) := by
      unfold upstreamCause
      rw [hp]
    rw [hup]
    obtain ⟨r, hr, p, hispath, hsupport⟩ := hpath
    obtain ⟨c, hc, hcause⟩ := exists_cause_on_walk (S := S) p hr
      ⟨n, p.start_mem_support, (SetOrder.mem_set (S := S)).mpr hdown⟩
    have htail : path = n :: path.tail := by
      rw [← hsupport]
      exact p.cons_tail_support.symm
    have hctail : c ∈ path.tail := by
      rw [hsupport, htail, List.mem_cons] at hc
      refine hc.resolve_left ?_
      rintro rfl
      exact hn hcause
    cases hfind : path.tail.find? (· ∈ findRootCause S g (S.set downSet) (S.set roots)) with
    | none =>
      have := List.find?_eq_none.mp hfind c hctail
      exact absurd (decide_eq_true hcause) this
    | some c' =>
      have hc' := List.find?_some hfind
      refine ⟨by simpa only [decide_eq_true_eq] using hc', r, SetOrder.mem_set.mp hr, p, hispath,
          ?_⟩
      rw [hsupport, htail]
      exact List.mem_cons_of_mem n (List.mem_of_find?_eq_some hfind)

/-- **Root-cause correlation.**  Exactly the down nodes get a verdict.  A down node is DOWN
    iff it is a root or some path to a root meets no other down node; any other one is
    UNREACHABLE and suppressed, it has a root cause iff the graph connects it to a root, and
    the cause is itself DOWN and lies on a path to a root. -/
theorem correlate_spec (S : SetOrder) (devices : List (Option String))
    (links : List (Option String × Option String)) (downSet roots : List String) :
    let g := buildGraph S devices links
    let verdict := fun n => (correlate S g downSet roots).lookup n
    (∀ n, (verdict n).isSome ↔ n ∈ downSet) ∧
    ∀ n v, verdict n = some v →
      (v.status = .down ↔ n ∈ roots ∨ ∃ r ∈ roots, ∃ p : g.toSimpleGraph.Walk n r,
        p.IsPath ∧ ∀ x ∈ p.support, x ∈ downSet → x = n) ∧
      (v.status ≠ .down → v.status = .unreachable ∧ v.suppressed = true ∧
        (v.rootCause.isSome ↔ ∃ r ∈ roots, g.toSimpleGraph.Reachable n r) ∧
        ∀ c, v.rootCause = some c →
          (∃ w, verdict c = some w ∧ w.status = .down) ∧
          ∃ r ∈ roots, ∃ p : g.toSimpleGraph.Walk n r, p.IsPath ∧ c ∈ p.support) := by
  intro g verdict
  constructor
  · intro n
    rw [Option.isSome_iff_exists]
    constructor
    · rintro ⟨v, hv⟩
      exact (correlate_lookup.mp hv).1
    · intro hn
      exact ⟨_, correlate_lookup.mpr ⟨hn, rfl⟩⟩
  · intro n v hv
    obtain ⟨hdown, hval⟩ := correlate_lookup.mp hv
    have hroot : n ∈ roots → ClearWalk g downSet roots n := fun h => ⟨n, h, .nil, by simp⟩
    by_cases hcause : n ∈ findRootCause S g (S.set downSet) (S.set roots)
    · rw [if_pos hcause] at hval
      subst hval
      refine ⟨⟨fun _ => Or.inr (clearWalk_iff_path.mp (mem_causes.mp hcause).2), fun _ => rfl⟩, ?_⟩
      intro hne
      exact absurd rfl hne
    · rw [if_neg hcause] at hval
      have hspec := upstreamCause_spec hdown hcause
      subst hval
      refine ⟨⟨?_, ?_⟩, fun _ => ⟨rfl, rfl, ?_, ?_⟩⟩
      · intro h
        cases h
      · intro h
        refine absurd (mem_causes.mpr ⟨hdown, ?_⟩) hcause
        rcases h with h | h
        · exact hroot h
        · exact clearWalk_iff_path.mpr h
      · cases hup : upstreamCause g n (S.set roots)
            (findRootCause S g (S.set downSet) (S.set roots)) with
        | none =>
          rw [hup] at hspec
          constructor
          · intro h
            cases h
          · rintro ⟨r, hr, hreach⟩
            exact absurd hreach (hspec r hr)
        | some c =>
          rw [hup] at hspec
          obtain ⟨_, r, hr, p, _⟩ := hspec
          exact ⟨fun _ => ⟨r, hr, ⟨p⟩⟩, fun _ => rfl⟩
      · intro c hc
        have hup : upstreamCause g n (S.set roots)
            (findRootCause S g (S.set downSet) (S.set roots)) = some c := hc
        rw [hup] at hspec
        obtain ⟨hccause, hpath⟩ := hspec
        refine ⟨⟨_, correlate_lookup.mpr ⟨(mem_causes.mp hccause).1, rfl⟩, ?_⟩, hpath⟩
        rw [if_pos hccause]

end Srp.Netdisco
