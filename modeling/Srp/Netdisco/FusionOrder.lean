/-
  Srp/Netdisco/FusionOrder.lean
  =============================
  **When fusion is independent of the order of its evidence.**

  Two choices of `fuse` look at the order in which evidence arrives: the winner
  among evidence tied in (priority, freshness, source), and the VLAN, taken from
  the first evidence that has one.  `fuse_perm_iff` says that nothing else does:
  the output is the same for every permutation exactly when tied winners carry
  the same labels and all VLANs of a pair agree.
-/
import Srp.Netdisco.Fusion

namespace Srp.Netdisco

open Srp.Lib.GroupBy

variable {T : PyText}

/-! ### What does not depend on the order -/

theorem edges_perm {evs evs' : List LinkEvidence} (h : evs.Perm evs') :
    (edges T evs).Perm (edges T evs') := h.filter _

theorem portTop_perm {evs evs' : List LinkEvidence} (h : evs.Perm evs') :
    (portTop evs).Perm (portTop evs') := by
  have htop : (fun e : LinkEvidence => evs.all fun e' => priority e'.source ≤ priority e.source) =
      fun e => evs'.all fun e' => priority e'.source ≤ priority e.source := by
    funext e
    exact h.all_eq
  unfold portTop
  rw [htop]
  exact h.filter _

theorem mem_conflictedPorts_perm {evs evs' : List LinkEvidence} (h : evs.Perm evs')
    (port : Port) : port ∈ conflictedPorts T evs ↔ port ∈ conflictedPorts T evs' := by
  have hports : port ∈ (edges T evs).filterMap (portOf T) ↔
      port ∈ (edges T evs').filterMap (portOf T) :=
    ((edges_perm h).filterMap _).mem_iff
  have hremotes := ((portTop_perm ((edges_perm (T := T) h).filter
    fun e => portOf T e = some port)).map fun e => nodeId T e.b).dedup.length_eq
  unfold conflictedPorts
  simp only [List.mem_filter, List.mem_eraseDups, hports, hremotes]

theorem isAmbiguous_perm {c c' : List Port} {evs evs' : List LinkEvidence}
    (hc : ∀ port, port ∈ c ↔ port ∈ c') (h : evs.Perm evs') :
    isAmbiguous T c evs = isAmbiguous T c' evs' := by
  unfold isAmbiguous
  rw [h.any_eq]
  simp only [hc]

theorem freshest_perm {evs evs' : List LinkEvidence} (h : evs.Perm evs') :
    freshest evs = freshest evs' := by
  have hp := (h.filterMap (·.observedAt)).filter (· ≠ "")
  unfold freshest
  cases hx : ((evs.filterMap (·.observedAt)).filter (· ≠ "")).argmax id with
  | none =>
    rw [List.argmax_eq_none] at hx
    rw [hx] at hp
    rw [← hp.nil_eq]
    rfl
  | some x =>
    have hne : (evs'.filterMap (·.observedAt)).filter (· ≠ "") ≠ [] := by
      intro hnil
      rw [hnil] at hp
      rw [hp.eq_nil] at hx
      cases hx
    obtain ⟨y, hy⟩ := argmax_isSome (f := id) hne
    rw [hy, show x = y from argmax_perm_key hp hx hy]

/-! ### Links of the output -/

section LinkOf

variable {c : List Port} {pair : String × String} {evs : List LinkEvidence} {w : LinkEvidence}

theorem linkOf_confidence : (linkOf T c pair evs w).confidence =
    if isAmbiguous T c evs then "low" else w.confidence := rfl

theorem linkOf_medium : (linkOf T c pair evs w).medium = w.medium := rfl

theorem linkOf_vlan : (linkOf T c pair evs w).vlan = evs.findSome? (·.vlan) := rfl

theorem linkOf_labels : ((linkOf T c pair evs w).aPort, (linkOf T c pair evs w).bPort,
    (linkOf T c pair evs w).aIf, (linkOf T c pair evs w).bIf) = portLabels T w pair.1 := rfl

end LinkOf

theorem resolve_pair {evs : List LinkEvidence} {pair : String × String} {link : ResolvedLink}
    (h : resolve T evs pair = some link) : (link.a, link.b) = pair := by
  obtain ⟨w, _, rfl⟩ := Option.map_eq_some_iff.mp h
  rfl

theorem mem_fuse {evs : List LinkEvidence} {link : ResolvedLink} :
    link ∈ fuse T evs ↔
      ∃ pair ∈ keys (pairOf T) (edges T evs), resolve T evs pair = some link := by
  unfold fuse
  rw [(List.perm_insertionSort _ _).mem_iff, List.mem_filterMap]

theorem fuse_pair_unique {evs : List LinkEvidence} {l l' : ResolvedLink} (h : l ∈ fuse T evs)
    (h' : l' ∈ fuse T evs) (hpair : (l.a, l.b) = (l'.a, l'.b)) : l = l' := by
  obtain ⟨p, _, hp⟩ := mem_fuse.mp h
  obtain ⟨p', _, hp'⟩ := mem_fuse.mp h'
  rw [resolve_pair hp, resolve_pair hp'] at hpair
  rw [hpair] at hp
  exact Option.some.inj (hp.symm.trans hp')

/-- Resolving every pair alike is enough: the sort forgets the rest. -/
theorem fuse_eq_of_resolve_eq {evs evs' : List LinkEvidence} (h : evs.Perm evs')
    (hres : ∀ pair, resolve T evs pair = resolve T evs' pair) : fuse T evs = fuse T evs' := by
  have htotal : Std.Total fun l l' : ResolvedLink => linkKey l ≤ linkKey l' :=
    ⟨fun l l' => le_total (linkKey l) (linkKey l')⟩
  have htrans : IsTrans ResolvedLink fun l l' => linkKey l ≤ linkKey l' :=
    ⟨fun _ _ _ h₁ h₂ => le_trans h₁ h₂⟩
  unfold fuse
  rw [← funext hres]
  apply insertionSort_eq_of_perm ((keys_perm (edges_perm h)).filterMap _)
  intro l hl l' hl' hle hge
  obtain ⟨p, _, hp⟩ := List.mem_filterMap.mp hl
  obtain ⟨p', _, hp'⟩ := List.mem_filterMap.mp hl'
  have hkey : linkKey l = linkKey l' := le_antisymm hle hge
  have hpair : (l.a, l.b) = (l'.a, l'.b) := by
    have := congrArg ofLex hkey
    simp only [linkKey, ofLex_toLex, Prod.mk.injEq] at this
    obtain ⟨ha, hrest⟩ := this
    have := congrArg ofLex hrest
    simp only [ofLex_toLex, Prod.mk.injEq] at this
    rw [ha, this.1]
  rw [resolve_pair hp, resolve_pair hp'] at hpair
  rw [hpair] at hp
  exact Option.some.inj (hp.symm.trans hp')

/-! ### The two conditions -/

/-- No evidence of the pair of `e` has a larger key. -/
def IsWinner (T : PyText) (evs : List LinkEvidence) (e : LinkEvidence) : Prop :=
  e ∈ edges T evs ∧ ∀ e' ∈ edges T evs, pairOf T e' = pairOf T e → winnerKey e' ≤ winnerKey e

def PairAmbiguous (T : PyText) (evs : List LinkEvidence) (e : LinkEvidence) : Prop :=
  isAmbiguous T (conflictedPorts T evs) (group (pairOf T) (edges T evs) (pairOf T e)) = true

def SameLabels (T : PyText) (evs : List LinkEvidence) (e₁ e₂ : LinkEvidence) : Prop :=
  (PairAmbiguous T evs e₁ ∨ e₁.confidence = e₂.confidence) ∧ e₁.medium = e₂.medium ∧
    portLabels T e₁ (pairOf T e₁).1 = portLabels T e₂ (pairOf T e₂).1

/-- Evidence tied for one pair agrees on what the winner decides. -/
def TiesAgree (T : PyText) (evs : List LinkEvidence) : Prop :=
  ∀ e₁ e₂, IsWinner T evs e₁ → IsWinner T evs e₂ → pairOf T e₁ = pairOf T e₂ →
    SameLabels T evs e₁ e₂

/-- All evidence of one pair that reports a VLAN reports the same one. -/
def VlansAgree (T : PyText) (evs : List LinkEvidence) : Prop :=
  ∀ e₁ ∈ edges T evs, ∀ e₂ ∈ edges T evs, pairOf T e₁ = pairOf T e₂ →
    ∀ v₁ v₂, e₁.vlan = some v₁ → e₂.vlan = some v₂ → v₁ = v₂

theorem winnerKey_source {e₁ e₂ : LinkEvidence} (h : winnerKey e₁ = winnerKey e₂) :
    e₁.source = e₂.source := by
  have h₁ := congrArg (fun k => (ofLex (ofLex k).2).2) h
  exact h₁

/-! ### Sufficiency -/

theorem argmax_isWinner {evs : List LinkEvidence} {pair : String × String} {w : LinkEvidence}
    (h : (group (pairOf T) (edges T evs) pair).argmax winnerKey = some w) :
    IsWinner T evs w ∧ pairOf T w = pair := by
  obtain ⟨hw, hpair⟩ := mem_group.mp (List.argmax_mem h)
  refine ⟨⟨hw, ?_⟩, hpair⟩
  intro e' he' hp
  exact List.le_of_mem_argmax (mem_group.mpr ⟨he', hp.trans hpair⟩) h

theorem IsWinner.perm {evs evs' : List LinkEvidence} (h : evs.Perm evs') {e : LinkEvidence}
    (hw : IsWinner T evs' e) : IsWinner T evs e :=
  ⟨(edges_perm h).mem_iff.mpr hw.1, fun e' he' => hw.2 e' ((edges_perm h).mem_iff.mp he')⟩

theorem resolve_perm {evs evs' : List LinkEvidence} (h : evs.Perm evs')
    (hties : TiesAgree T evs) (hvlans : VlansAgree T evs) (pair : String × String) :
    resolve T evs pair = resolve T evs' pair := by
  have hgroup : (group (pairOf T) (edges T evs) pair).Perm (group (pairOf T) (edges T evs') pair) :=
    group_perm (edges_perm h) pair
  unfold resolve
  cases hw : (group (pairOf T) (edges T evs) pair).argmax winnerKey with
  | none =>
    rw [List.argmax_eq_none] at hw
    rw [hw] at hgroup
    simp only [hgroup.symm.eq_nil, hw, List.argmax_nil, Option.map_none]
  | some w =>
    have hne : group (pairOf T) (edges T evs') pair ≠ [] := by
      intro hnil
      rw [hnil] at hgroup
      rw [hgroup.eq_nil] at hw
      cases hw
    obtain ⟨w', hw'⟩ := argmax_isSome (f := winnerKey) hne
    obtain ⟨hwin, hpw⟩ := argmax_isWinner hw
    obtain ⟨hwin', hpw'⟩ := argmax_isWinner hw'
    obtain ⟨hconf, hmedium, hlabels⟩ :=
      hties w w' hwin (hwin'.perm h) (hpw.trans hpw'.symm)
    have hsource := winnerKey_source (argmax_perm_key hgroup hw hw')
    have hambiguous := isAmbiguous_perm (T := T) (mem_conflictedPorts_perm (T := T) h) hgroup
    have hfresh := freshest_perm hgroup
    have hvlan : (group (pairOf T) (edges T evs) pair).findSome? (·.vlan) =
        (group (pairOf T) (edges T evs') pair).findSome? (·.vlan) := by
      apply findSome?_perm hgroup
      intro a ha b hb v₁ v₂ hv₁ hv₂
      obtain ⟨ha, hpa⟩ := mem_group.mp ha
      obtain ⟨hb, hpb⟩ := mem_group.mp hb
      exact hvlans a ha b hb (hpa.trans hpb.symm) v₁ v₂ hv₁ hv₂
    rw [hpw, hpw'] at hlabels
    unfold PairAmbiguous at hconf
    rw [hpw] at hconf
    simp only [hw, hw', Option.map_some, linkOf, ← hambiguous, hfresh, hvlan, hlabels, hmedium,
      hsource]
    rcases hconf with hamb | hsame
    · simp only [hamb, if_true]
    · rw [hsame]

/-! ### Necessity: every evidence of a pair can be made to come first -/

/-- With `e` moved to the front, the pair of `e` is resolved over a group headed by `e`. -/
theorem resolve_front {evs : List LinkEvidence} {e : LinkEvidence} (he : e ∈ edges T evs) :
    ∃ g w, (group (pairOf T) (edges T (e :: evs.erase e)) (pairOf T e)) = e :: g ∧
      (e :: g).argmax winnerKey = some w ∧
      linkOf T (conflictedPorts T (e :: evs.erase e)) (pairOf T e) (e :: g) w ∈
        fuse T (e :: evs.erase e) := by
  have hself : nodeId T e.a ≠ nodeId T e.b := by
    simpa [edges] using (List.mem_filter.mp he).2
  have hgroup : ∃ g, group (pairOf T) (edges T (e :: evs.erase e)) (pairOf T e) = e :: g := by
    refine ⟨group (pairOf T) (edges T (evs.erase e)) (pairOf T e), ?_⟩
    simp [group, edges, hself]
  obtain ⟨g, hg⟩ := hgroup
  obtain ⟨w, hw⟩ := argmax_isSome (f := winnerKey) (List.cons_ne_nil e g)
  refine ⟨g, w, hg, hw, mem_fuse.mpr ⟨pairOf T e, ?_, ?_⟩⟩
  · have he' : e ∈ group (pairOf T) (edges T (e :: evs.erase e)) (pairOf T e) := by
      rw [hg]
      exact List.mem_cons_self
    exact mem_keys.mpr ⟨e, (mem_group.mp he').1, rfl⟩
  · simp only [resolve, hg, hw, Option.map_some]

theorem front_perm {evs : List LinkEvidence} {e : LinkEvidence} (he : e ∈ edges T evs) :
    evs.Perm (e :: evs.erase e) := List.perm_cons_erase (List.mem_of_mem_filter he)

theorem winner_front {evs : List LinkEvidence} {e : LinkEvidence} (hw : IsWinner T evs e) :
    ∃ l ∈ fuse T (e :: evs.erase e), (l.a, l.b) = pairOf T e ∧
      l.confidence = (if isAmbiguous T (conflictedPorts T evs)
        (group (pairOf T) (edges T evs) (pairOf T e)) then "low" else e.confidence) ∧
      l.medium = e.medium ∧ (l.aPort, l.bPort, l.aIf, l.bIf) = portLabels T e (pairOf T e).1 := by
  obtain ⟨g, w, hg, hargmax, hmem⟩ := resolve_front hw.1
  have hperm := front_perm hw.1
  have hgroup : (group (pairOf T) (edges T evs) (pairOf T e)).Perm
      (group (pairOf T) (edges T (e :: evs.erase e)) (pairOf T e)) :=
    group_perm (edges_perm hperm) (pairOf T e)
  have hle : ∀ e' ∈ g, winnerKey e' ≤ winnerKey e := by
    intro e' he'
    have he'' : e' ∈ group (pairOf T) (edges T evs) (pairOf T e) := by
      rw [hgroup.mem_iff, hg]
      exact List.mem_cons_of_mem e he'
    obtain ⟨hedge, hpair⟩ := mem_group.mp he''
    exact hw.2 e' hedge hpair
  rw [argmax_cons_of_le hle] at hargmax
  obtain rfl := Option.some.inj hargmax
  rw [hg] at hgroup
  have hambiguous := isAmbiguous_perm (T := T) (mem_conflictedPorts_perm (T := T) hperm) hgroup
  refine ⟨_, hmem, rfl, ?_, linkOf_medium, linkOf_labels⟩
  rw [linkOf_confidence, hambiguous]

/-- **Order independence of fusion, exactly.**  `fuse` returns the same links for every
    permutation of its evidence if and only if tied winners agree on their labels and all
    VLANs of a pair agree. -/
theorem fuse_perm_iff (T : PyText) (evidence : List LinkEvidence) :
    (∀ evidence', evidence.Perm evidence' → fuse T evidence' = fuse T evidence) ↔
      TiesAgree T evidence ∧ VlansAgree T evidence := by
  constructor
  · intro h
    -- the links obtained with `e₁` or `e₂` in front are one link of the output
    have hfront : ∀ e₁ ∈ edges T evidence, ∀ e₂ ∈ edges T evidence,
        ∀ l₁ ∈ fuse T (e₁ :: evidence.erase e₁), ∀ l₂ ∈ fuse T (e₂ :: evidence.erase e₂),
          (l₁.a, l₁.b) = (l₂.a, l₂.b) → l₁ = l₂ := by
      intro e₁ he₁ e₂ he₂ l₁ hl₁ l₂ hl₂ hpair
      rw [h _ (front_perm he₁)] at hl₁
      rw [h _ (front_perm he₂)] at hl₂
      exact fuse_pair_unique hl₁ hl₂ hpair
    constructor
    · intro e₁ e₂ hw₁ hw₂ hpair
      obtain ⟨l₁, hl₁, hp₁, hc₁, hm₁, ht₁⟩ := winner_front hw₁
      obtain ⟨l₂, hl₂, hp₂, hc₂, hm₂, ht₂⟩ := winner_front hw₂
      obtain rfl := hfront e₁ hw₁.1 e₂ hw₂.1 l₁ hl₁ l₂ hl₂ (hp₁.trans (hpair.trans hp₂.symm))
      rw [← hpair] at hc₂
      refine ⟨?_, hm₁.symm.trans hm₂, ht₁.symm.trans ht₂⟩
      by_cases hamb : PairAmbiguous T evidence e₁
      · exact Or.inl hamb
      · right
        unfold PairAmbiguous at hamb
        rw [if_neg hamb] at hc₁ hc₂
        exact hc₁.symm.trans hc₂
    · intro e₁ he₁ e₂ he₂ hpair v₁ v₂ hv₁ hv₂
      obtain ⟨g₁, w₁, _, _, hl₁⟩ := resolve_front he₁
      obtain ⟨g₂, w₂, _, _, hl₂⟩ := resolve_front he₂
      have heq := congrArg ResolvedLink.vlan (hfront e₁ he₁ e₂ he₂ _ hl₁ _ hl₂ hpair)
      simpa only [linkOf_vlan, List.findSome?_cons, hv₁, hv₂, Option.some.injEq] using heq
  · rintro ⟨hties, hvlans⟩ evidence' hperm
    exact (fuse_eq_of_resolve_eq hperm (resolve_perm hperm hties hvlans)).symm

/-! ### Two ends of one cable

Each switch reports the other over LLDP in the same cycle and names only its own
port, so the two reports are tied. -/

private def endOf (here remote port : String) : LinkEvidence :=
  { a := here, b := remote, source := "lldp", confidence := "high", localIf := some 1,
    aPort := some port, portSpace := "lldp" }

private def end₁ : LinkEvidence := endOf "nd-chassis-SW1" "nd-chassis-SW2" "Gi0/1"

private def end₂ : LinkEvidence := endOf "nd-chassis-SW2" "nd-chassis-SW1" "Te1/1"

/-- The link carries the port label of the end that was reported first. -/
theorem fuse_depends_on_order :
    [end₁, end₂].Perm [end₂, end₁] ∧
      fuse (.ascii fun _ => none) [end₁, end₂] ≠ fuse (.ascii fun _ => none) [end₂, end₁] := by
  refine ⟨List.Perm.swap _ _ _, ?_⟩
  intro h
  have hports := congrArg (List.map fun l => l.aPort) h
  revert hports
  decide +kernel

end Srp.Netdisco
