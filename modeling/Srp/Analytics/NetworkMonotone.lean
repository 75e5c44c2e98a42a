/-
  Srp/Analytics/NetworkMonotone.lean
  ==================================
  **What the network risk owes to the order of the probes, and what a worse probe
  does to it.**

  One gateway probe is picked by its loss alone, the first of the greatest, and
  then graded by loss and latency together (`probePts`).  The other findings do
  not depend on the order.  So the order matters where the probes of greatest
  loss are graded differently, and a risk sinks where a probe that gets worse
  takes the place of one that is graded higher.
-/
import Srp.Analytics.NetworkRisk
import Srp.Lib.GroupBy

namespace Srp.Analytics.NetworkRisk

open Srp.Analytics.Storage (DeviceTrust DomainTrustState num)
open Srp.Lib.GroupBy Srp.Lib.PyNum Srp.Scoring Srp.Shared

/-! ### Points -/

def lossPts (l : ℚ) : ℚ :=
  if gwLossHeavyPct ≤ l then gwLossHeavyPts else if gwLossLightPct ≤ l then gwLossLightPts else 0

def latencyPts : Option ℚ → ℚ
  | some lat =>
    if gwLatHighMs ≤ lat then gwLatHighPts else if gwLatWarnMs ≤ lat then gwLatWarnPts else 0
  | none => 0

/-- What a gateway probe adds to the risk when it is the one that is picked. -/
def probePts (q : NetQuality) : ℚ :=
  if q.lossPct.isNone then 0
  else if 100 ≤ loss q then gwLossFullPts
  else lossPts (loss q) + latencyPts q.latencyMs

def isDnsPartial (q : NetQuality) : Bool := decide (5 ≤ loss q) && decide (loss q < 100)

def dnsPts (dnsRows : List NetQuality) : ℚ := if dnsRows.any isDnsPartial then dnsPartialPts else 0

def apipaPtsOf (a : NetAdapter) : ℚ := if isApipa a then apipaPts else 0

def wifiPtsOf (a : NetAdapter) : Except PyError ℚ := do
  let signal ← num a.signalPct
  match signal with
  | some sig =>
    if a.up.getD false && a.kind == some "wifi" then
      return if sig < 30 then wifiWeakPts else if sig < 50 then wifiLowPts else 0
    else return 0
  | none => return 0

/-- What the adapters add. -/
def adapterPts (adapters : List NetAdapter) : Except PyError ℚ :=
  adapters.foldlM (fun sum a => (wifiPtsOf a).map (sum + ·)) (adapters.map apipaPtsOf).sum

/-- The probes that are used, of one kind. -/
def rowsOf (kind : String) (quality : List NetQuality) : List NetQuality :=
  (if icmpFiltered quality then [] else quality).filter (·.targetKind = some kind)

/-- What everything but the gateway adds. -/
def otherPts (h : HistoricalPayload) : Except PyError ℚ :=
  (adapterPts h.networkAdapters).map (dnsPts (rowsOf "dns" h.networkQuality) + ·)

/-- The gateway probe that is graded. -/
def picked (quality : List NetQuality) : Option NetQuality := worstProbe (rowsOf "gateway" quality)

def pickedPts (quality : List NetQuality) : ℚ := ((picked quality).map probePts).getD 0

def isMeasured (quality : List NetQuality) : Bool := (picked quality).any (·.lossPct.isSome)

section Rules

theorem gatewayRule_val {q : NetQuality} (hq : q.lossPct.isSome) (t : Tally) :
    (gatewayRule q t).val = t.val + probePts q := by
  have hnone : ¬ q.lossPct.isNone := by simpa using Option.isSome_iff_ne_none.mp hq
  unfold gatewayRule probePts
  rw [if_neg hnone]
  by_cases hfull : 100 ≤ loss q
  · rw [if_pos hfull, if_pos hfull]
    rfl
  · rw [if_neg hfull, if_neg hfull]
    unfold lossPts latencyPts
    cases q.latencyMs with
    | none => split_ifs <;> simp [Tally.hit]
    | some lat =>
      by_cases hhigh : gwLatHighMs ≤ lat
      · split_ifs <;> simp [Tally.hit, hhigh, add_assoc]
      · by_cases hwarn : gwLatWarnMs ≤ lat
        · split_ifs <;> simp [Tally.hit, hhigh, hwarn, add_assoc]
        · split_ifs <;> simp [Tally.hit, hhigh, hwarn]

theorem dnsRule_val (dnsRows : List NetQuality) (t : Tally) :
    (dnsRule dnsRows t).val = t.val + dnsPts dnsRows := by
  unfold dnsRule dnsPts
  cases hworst : worstProbe (dnsRows.filter fun q => decide (5 ≤ loss q) && decide (loss q < 100))
    with
  | none =>
    have hnil := List.argmax_eq_none.mp hworst
    have hany : dnsRows.any isDnsPartial = false := by
      rw [List.any_eq_false]
      exact List.filter_eq_nil_iff.mp hnil
    rw [hany]
    simp
  | some q =>
    have hmem := List.mem_filter.mp (List.argmax_mem hworst)
    have hany : dnsRows.any isDnsPartial = true := List.any_eq_true.mpr ⟨q, hmem⟩
    rw [hany]
    rfl

theorem apipaRule_val (t : Tally) (a : NetAdapter) :
    (apipaRule t a).val = t.val + apipaPtsOf a := by
  unfold apipaRule apipaPtsOf
  split_ifs <;> simp [Tally.hit]

theorem foldl_apipaRule_val (adapters : List NetAdapter) (t : Tally) :
    (adapters.foldl apipaRule t).val = t.val + (adapters.map apipaPtsOf).sum := by
  induction adapters generalizing t with
  | nil => simp
  | cons a adapters ih =>
    rw [List.foldl_cons, ih, apipaRule_val, List.map_cons, List.sum_cons, add_assoc]

theorem wifiRule_val (t : Tally) (a : NetAdapter) :
    (wifiRule t a).map (·.val) = (wifiPtsOf a).map (t.val + ·) := by
  unfold wifiRule wifiPtsOf
  cases num a.signalPct with
  | error e => rfl
  | ok signal =>
    cases signal with
    | none => simp [Except.map, bind, Except.bind, pure, Except.pure]
    | some sig =>
      simp only [bind, Except.bind, pure, Except.pure]
      split_ifs <;> simp [Except.map, Tally.hit]

/-- What a fold keeps of its states may be folded instead. -/
theorem foldlM_map {α β γ ε : Type} {f : β → α → Except ε β} {g : β → γ} {k : γ → α → Except ε γ}
    (hstep : ∀ b a, (f b a).map g = k (g b) a) (xs : List α) (b : β) :
    (xs.foldlM f b).map g = xs.foldlM k (g b) := by
  induction xs generalizing b with
  | nil => rfl
  | cons x xs ih =>
    rw [List.foldlM_cons, List.foldlM_cons, ← hstep]
    cases f b x with
    | error e => rfl
    | ok b' => exact ih b'

theorem foldlM_add {α ε : Type} (f : α → Except ε ℚ) (xs : List α) (c s : ℚ) :
    xs.foldlM (fun sum a => (f a).map (sum + ·)) (c + s) =
      (xs.foldlM (fun sum a => (f a).map (sum + ·)) s).map (c + ·) := by
  refine (foldlM_map (fun b a => ?_) xs s).symm
  cases f a with
  | error e => rfl
  | ok x => simp [Except.map, add_assoc]

/-- The adapters add the same to every tally. -/
theorem adapters_val (adapters : List NetAdapter) (t : Tally) :
    ((adapters.foldlM wifiRule (adapters.foldl apipaRule t)).map (·.val)) =
      (adapterPts adapters).map (t.val + ·) := by
  rw [adapterPts, ← foldlM_add, ← foldl_apipaRule_val]
  exact foldlM_map (fun t a => wifiRule_val t a) _ _

end Rules

/-! ### The value -/

/-- The tally behind the gateway rule. -/
def gatewayTally (quality : List NetQuality) : Tally :=
  match (worstProbe (rowsOf "gateway" quality)).filter (·.lossPct.isSome) with
  | some q => gatewayRule q { val := 0 }
  | none => { val := 0 }

theorem gatewayTally_val (quality : List NetQuality) :
    (gatewayTally quality).val = pickedPts quality := by
  unfold gatewayTally pickedPts picked
  cases worstProbe (rowsOf "gateway" quality) with
  | none => rfl
  | some q =>
    by_cases hq : q.lossPct.isSome
    · simp only [Option.filter, hq, if_true]
      rw [gatewayRule_val hq]
      simp
    · have hnone : q.lossPct.isNone := by simpa using hq
      simp [Option.filter, hq, probePts, hnone]

/-- The engine does not withhold its verdict. -/
def Graded (h : HistoricalPayload) (deviceTrust : DeviceTrust)
    (domainState : Option DomainTrustState) : Prop :=
  deviceTrust ≠ .untrusted ∧ ¬ (h.networkAdapters = [] ∧ h.networkQuality = []) ∧
    domainState ≠ some .unknown

/-- Value and confidence. -/
def riskOf (h : HistoricalPayload) (deviceTrust : DeviceTrust)
    (domainState : Option DomainTrustState) : Except PyError (Option ℚ × ScoreConfidence) :=
  (computeNetworkRisk (some h) deviceTrust domainState).map fun s =>
    (s.score.value, s.score.confidence)

section Value

variable {h : HistoricalPayload} {deviceTrust : DeviceTrust}
  {domainState : Option DomainTrustState}

theorem riskOf_withheld (hg : ¬ Graded h deviceTrust domainState) :
    riskOf h deviceTrust domainState = .ok (none, .unknown) := by
  unfold riskOf computeNetworkRisk
  by_cases htrust : deviceTrust = .untrusted
  · rw [if_pos htrust]
    rfl
  rw [if_neg htrust]
  by_cases hnone : h.networkAdapters = [] ∧ h.networkQuality = []
  · rw [if_pos (by simp [hnone.1, hnone.2])]
    rfl
  rw [if_neg (by simpa using hnone)]
  by_cases hdomain : domainState = some .unknown
  · rw [if_pos hdomain]
    rfl
  · exact absurd ⟨htrust, hnone, hdomain⟩ hg

theorem riskOf_graded (hg : Graded h deviceTrust domainState) :
    riskOf h deviceTrust domainState = (otherPts h).map fun other =>
      (some (clamp (pickedPts h.networkQuality + other)),
        if isMeasured h.networkQuality then .medium else .low) := by
  obtain ⟨htrust, hnone, hdomain⟩ := hg
  unfold riskOf computeNetworkRisk
  rw [if_neg htrust, if_neg (by simpa using hnone), if_neg hdomain]
  have hval := adapters_val h.networkAdapters
    (dnsRule (rowsOf "dns" h.networkQuality) (gatewayTally h.networkQuality))
  rw [dnsRule_val, gatewayTally_val] at hval
  have hmeasured : isMeasured h.networkQuality =
      ((worstProbe (rowsOf "gateway" h.networkQuality)).filter (·.lossPct.isSome)).isSome := by
    unfold isMeasured picked
    cases worstProbe (rowsOf "gateway" h.networkQuality) with
    | none => rfl
    | some q => by_cases hq : q.lossPct.isSome <;> simp [Option.filter, hq]
  rw [otherPts, hmeasured]
  change Except.map _ (h.networkAdapters.foldlM wifiRule (h.networkAdapters.foldl apipaRule
    (dnsRule (rowsOf "dns" h.networkQuality) (gatewayTally h.networkQuality))) >>= fun t => _) = _
  generalize h.networkAdapters.foldlM wifiRule (h.networkAdapters.foldl apipaRule
    (dnsRule (rowsOf "dns" h.networkQuality) (gatewayTally h.networkQuality))) = run at hval ⊢
  cases run with
  | error e =>
    cases hother : adapterPts h.networkAdapters with
    | error e' =>
      rw [hother] at hval
      rw [Except.error.inj hval]
      rfl
    | ok other =>
      rw [hother] at hval
      cases hval
  | ok t =>
    cases hother : adapterPts h.networkAdapters with
    | error e' =>
      rw [hother] at hval
      cases hval
    | ok other =>
      rw [hother] at hval
      have ht : t.val = pickedPts h.networkQuality +
          dnsPts (rowsOf "dns" h.networkQuality) + other := by
        simpa [add_assoc] using Except.ok.inj hval
      simp only [bind, Except.bind, pure, Except.pure, Except.map, ht, add_assoc]
      rfl

end Value

/-! ### The order of the probes -/

/-- A probe of greatest loss, where a missing loss counts as none. -/
def IsWorst (rows : List NetQuality) (q : NetQuality) : Prop := q ∈ rows ∧ ∀ r ∈ rows, loss r ≤ loss q

/-- Value and confidence are the same for every order of the probes. -/
def OrderFree (h : HistoricalPayload) (deviceTrust : DeviceTrust)
    (domainState : Option DomainTrustState) : Prop :=
  ∀ quality, quality.Perm h.networkQuality →
    riskOf { h with networkQuality := quality } deviceTrust domainState =
      riskOf h deviceTrust domainState

/-- The gateway probes of greatest loss agree in whether their loss was measured, and in what they
add to the other findings, up to the limit of 100. -/
def WorstAgree (h : HistoricalPayload) : Prop :=
  ∀ other, otherPts h = .ok other →
    ∀ q q', IsWorst (rowsOf "gateway" h.networkQuality) q →
      IsWorst (rowsOf "gateway" h.networkQuality) q' →
      q.lossPct.isSome = q'.lossPct.isSome ∧
        clamp (probePts q + other) = clamp (probePts q' + other)

section Order

variable {h : HistoricalPayload} {deviceTrust : DeviceTrust}
  {domainState : Option DomainTrustState} {quality quality' : List NetQuality}

theorem icmpFiltered_perm (hp : quality.Perm quality') :
    icmpFiltered quality = icmpFiltered quality' := by
  rw [icmpFiltered, icmpFiltered, hp.all_eq, hp.isEmpty_eq]

theorem rowsOf_perm (kind : String) (hp : quality.Perm quality') :
    (rowsOf kind quality).Perm (rowsOf kind quality') := by
  rw [rowsOf, rowsOf, icmpFiltered_perm hp]
  by_cases hfiltered : icmpFiltered quality' = true
  · rw [if_pos hfiltered, if_pos hfiltered]
  · rw [if_neg hfiltered, if_neg hfiltered]
    exact hp.filter _

theorem otherPts_perm (hp : quality.Perm h.networkQuality) :
    otherPts { h with networkQuality := quality } = otherPts h := by
  have hdns : dnsPts (rowsOf "dns" quality) = dnsPts (rowsOf "dns" h.networkQuality) := by
    rw [dnsPts, dnsPts, (rowsOf_perm "dns" hp).any_eq]
  simp only [otherPts, hdns]

theorem graded_perm (hp : quality.Perm h.networkQuality) :
    Graded { h with networkQuality := quality } deviceTrust domainState ↔
      Graded h deviceTrust domainState := by
  have hnil : quality = [] ↔ h.networkQuality = [] :=
    ⟨fun hq => List.nil_perm.mp (hq ▸ hp), fun hq => List.perm_nil.mp (hq ▸ hp)⟩
  simp only [Graded, hnil]

theorem isWorst_of_picked {q : NetQuality} (hq : picked quality = some q) :
    IsWorst (rowsOf "gateway" quality) q :=
  ⟨List.argmax_mem hq, fun _ hr => List.le_of_mem_argmax hr hq⟩

theorem worstProbe_cons {q : NetQuality} {rows : List NetQuality}
    (hle : ∀ r ∈ rows, loss r ≤ loss q) : worstProbe (q :: rows) = some q :=
  argmax_cons_of_le hle

/-- Some order has the probe picked. -/
theorem exists_perm_picked {q : NetQuality} (hq : IsWorst (rowsOf "gateway" quality) q) :
    ∃ quality', quality'.Perm quality ∧ picked quality' = some q := by
  obtain ⟨hmem, hle⟩ := hq
  have hopen : ¬ icmpFiltered quality = true := by
    intro hfiltered
    rw [rowsOf, if_pos hfiltered] at hmem
    cases hmem
  have hrows : rowsOf "gateway" quality = quality.filter (·.targetKind = some "gateway") := by
    rw [rowsOf, if_neg hopen]
  rw [hrows] at hmem hle
  obtain ⟨hquality, hkind⟩ := List.mem_filter.mp hmem
  have hperm : (q :: quality.erase q).Perm quality := (List.perm_cons_erase hquality).symm
  refine ⟨q :: quality.erase q, hperm, ?_⟩
  have hcons : (q :: quality.erase q).filter (·.targetKind = some "gateway") =
      q :: (quality.erase q).filter (·.targetKind = some "gateway") :=
    List.filter_cons_of_pos hkind
  rw [picked, rowsOf, icmpFiltered_perm hperm, if_neg hopen, hcons]
  refine worstProbe_cons fun r hr => hle r ?_
  obtain ⟨hr, hrkind⟩ := List.mem_filter.mp hr
  exact List.mem_filter.mpr ⟨List.mem_of_mem_erase hr, hrkind⟩

theorem picked_eq_none_iff : picked quality = none ↔ rowsOf "gateway" quality = [] :=
  List.argmax_eq_none

/-- Where the probes of greatest loss agree, it does not matter which of them is picked. -/
theorem picked_agree {other : ℚ} (hp : quality.Perm h.networkQuality)
    (hother : otherPts h = .ok other) (hagree : WorstAgree h) :
    isMeasured quality = isMeasured h.networkQuality ∧
      clamp (pickedPts quality + other) = clamp (pickedPts h.networkQuality + other) := by
  have hrows := rowsOf_perm "gateway" hp
  unfold isMeasured pickedPts
  cases hpicked : picked h.networkQuality with
  | none =>
    have hnil := picked_eq_none_iff.mp hpicked
    have hnone : picked quality = none :=
      picked_eq_none_iff.mpr (List.perm_nil.mp (hnil ▸ hrows))
    rw [hnone]
    exact ⟨rfl, rfl⟩
  | some q =>
    have hworst := isWorst_of_picked hpicked
    cases hpicked' : picked quality with
    | none =>
      have hnil := picked_eq_none_iff.mp hpicked'
      have hmem := hrows.mem_iff.mpr hworst.1
      rw [hnil] at hmem
      cases hmem
    | some q' =>
      have hworst' := isWorst_of_picked hpicked'
      exact hagree other hother q' q
        ⟨hrows.mem_iff.mp hworst'.1, fun r hr => hworst'.2 r (hrows.mem_iff.mpr hr)⟩ hworst

theorem orderFree_iff :
    OrderFree h deviceTrust domainState ↔ (Graded h deviceTrust domainState → WorstAgree h) := by
  constructor
  · intro hfree hg other hother q q' hq hq'
    -- two orders, each with one of the probes picked
    have hrisk : ∀ p, IsWorst (rowsOf "gateway" h.networkQuality) p →
        riskOf h deviceTrust domainState = .ok (some (clamp (probePts p + other)),
          if p.lossPct.isSome then .medium else .low) := by
      intro p hp
      obtain ⟨quality, hperm, hpicked⟩ := exists_perm_picked hp
      rw [← hfree quality hperm, riskOf_graded ((graded_perm hperm).mpr hg), otherPts_perm hperm,
        hother]
      simp [Except.map, pickedPts, isMeasured, hpicked]
    have heq := Except.ok.inj ((hrisk q hq).symm.trans (hrisk q' hq'))
    have hvalue := Option.some.inj (Prod.mk.inj heq).1
    have hconf := (Prod.mk.inj heq).2
    refine ⟨?_, hvalue⟩
    cases hs : q.lossPct.isSome <;> cases hs' : q'.lossPct.isSome <;> simp_all
  · intro hagree quality hperm
    by_cases hg : Graded h deviceTrust domainState
    · rw [riskOf_graded hg, riskOf_graded ((graded_perm hperm).mpr hg), otherPts_perm hperm]
      cases hother : otherPts h with
      | error e => rfl
      | ok other =>
        have hgraded := picked_agree hperm hother (hagree hg)
        simp only [Except.map, hgraded.1, hgraded.2]
    · rw [riskOf_withheld hg, riskOf_withheld (mt (graded_perm hperm).mp hg)]

end Order

/-! ### A probe that gets worse -/

/-- One gateway probe `q` of the payload is replaced by `worse`; not every probe has lost everything
without a reply, neither before nor after. -/
structure Replaces (h h' : HistoricalPayload) (before behind : List NetQuality)
    (q worse : NetQuality) : Prop where
  old : h.networkQuality = before ++ q :: behind
  new : h' = { h with networkQuality := before ++ worse :: behind }
  kind : q.targetKind = some "gateway"
  kind' : worse.targetKind = some "gateway"
  open_ : icmpFiltered h.networkQuality = false
  open_' : icmpFiltered h'.networkQuality = false

/-- A value of the first is not lowered in the second. -/
def NotLowered (h h' : HistoricalPayload) (deviceTrust : DeviceTrust)
    (domainState : Option DomainTrustState) : Prop :=
  ∀ v c, riskOf h deviceTrust domainState = .ok (some v, c) →
    ∃ v' c', riskOf h' deviceTrust domainState = .ok (some v', c') ∧ v ≤ v'

/-- The gateway probes of a list. -/
def gatewaysOf (rows : List NetQuality) : List NetQuality :=
  rows.filter (·.targetKind = some "gateway")

/-- The probe is the first of greatest loss between these. -/
def Overtakes (before behind : List NetQuality) (q : NetQuality) : Prop :=
  (∀ r ∈ gatewaysOf before, loss r < loss q) ∧ ∀ r ∈ gatewaysOf behind, loss r ≤ loss q

/-- The probe, with its new loss, takes the place of another one that adds more, up to the limit. -/
def OvertakesHigher (h : HistoricalPayload) (before behind : List NetQuality)
    (q worse : NetQuality) : Prop :=
  Overtakes before behind worse ∧ ∃ other w, otherPts h = .ok other ∧
    picked h.networkQuality = some w ∧ w ≠ q ∧
      clamp (probePts worse + other) < clamp (probePts w + other)

theorem worstProbe_around (before behind : List NetQuality) (q : NetQuality) :
    worstProbe (before ++ q :: behind) =
      better loss (worstProbe before) (better loss (some q) (worstProbe behind)) := by
  have hcons := argmax_append loss [q] behind
  rw [List.argmax_singleton] at hcons
  rw [worstProbe, argmax_append]
  exact congrArg _ hcons

theorem le_of_worstProbe {rows : List NetQuality} {w : NetQuality} (h : worstProbe rows = some w) :
    w ∈ rows ∧ ∀ r ∈ rows, loss r ≤ loss w :=
  ⟨List.argmax_mem h, fun _ hr => List.le_of_mem_argmax hr h⟩

theorem nil_of_worstProbe {rows : List NetQuality} (h : worstProbe rows = none) : rows = [] :=
  List.argmax_eq_none.mp h

/-- A probe that no other one holds back is picked. -/
theorem worstProbe_around_self {before behind : List NetQuality} {q : NetQuality}
    (hbefore : ∀ r ∈ before, loss r < loss q) (hbehind : ∀ r ∈ behind, loss r ≤ loss q) :
    worstProbe (before ++ q :: behind) = some q := by
  have hinner : better loss (some q) (worstProbe behind) = some q := by
    cases hb : worstProbe behind with
    | none => rfl
    | some b => exact better_left (hbehind b (le_of_worstProbe hb).1)
  rw [worstProbe_around, hinner]
  cases ha : worstProbe before with
  | none => rfl
  | some a => exact better_right (hbefore a (le_of_worstProbe ha).1)

/-- Behind a probe that holds both back, the one and the other leave the pick as it is. -/
theorem worstProbe_around_other {before behind : List NetQuality} {q worse : NetQuality}
    (hle : loss q ≤ loss worse)
    (hnot : ¬ ((∀ r ∈ before, loss r < loss worse) ∧ ∀ r ∈ behind, loss r ≤ loss worse)) :
    worstProbe (before ++ worse :: behind) = worstProbe (before ++ q :: behind) := by
  rw [worstProbe_around, worstProbe_around]
  cases hb : worstProbe behind with
  | none =>
    obtain rfl := nil_of_worstProbe hb
    have hheld : ∃ r ∈ before, loss worse ≤ loss r := by simpa using hnot
    obtain ⟨r, hr, hworse⟩ := hheld
    cases ha : worstProbe before with
    | none =>
      rw [nil_of_worstProbe ha] at hr
      cases hr
    | some a =>
      have hra := (le_of_worstProbe ha).2 r hr
      exact (better_left (by linarith)).trans (better_left (by linarith)).symm
  | some b =>
    by_cases hworseb : loss worse < loss b
    · have hinner : better loss (some worse) (some b) = better loss (some q) (some b) :=
        (better_right hworseb).trans (better_right (hle.trans_lt hworseb)).symm
      rw [hinner]
    · have hbehind : ∀ r ∈ behind, loss r ≤ loss worse := fun r hr =>
        ((le_of_worstProbe hb).2 r hr).trans (not_lt.mp hworseb)
      have hheld : ∃ r ∈ before, loss worse ≤ loss r := by
        by_contra hno
        refine hnot ⟨fun r hr => ?_, hbehind⟩
        by_contra hr'
        exact hno ⟨r, hr, not_lt.mp hr'⟩
      obtain ⟨r, hr, hworse⟩ := hheld
      cases ha : worstProbe before with
      | none =>
        rw [nil_of_worstProbe ha] at hr
        cases hr
      | some a =>
        have hra := (le_of_worstProbe ha).2 r hr
        -- the probe before them is at least as bad as whatever is behind
        rw [better_left (not_lt.mp hworseb), better_left (hworse.trans hra)]
        by_cases hqb : loss q < loss b
        · rw [better_right hqb, better_left (by linarith)]
        · rw [better_left (not_lt.mp hqb), better_left (by linarith)]

section Replacing

variable {h h' : HistoricalPayload} {before behind : List NetQuality} {q worse : NetQuality}
  {deviceTrust : DeviceTrust} {domainState : Option DomainTrustState}

theorem rowsOf_around {kind : String} {quality : List NetQuality}
    (hopen : icmpFiltered quality = false) (hquality : quality = before ++ q :: behind) :
    rowsOf kind quality = before.filter (·.targetKind = some kind) ++
      (if q.targetKind = some kind then [q] else []) ++
      behind.filter (·.targetKind = some kind) := by
  rw [rowsOf, if_neg (by simp [hopen]), hquality, List.filter_append, List.filter_cons]
  by_cases hkind : q.targetKind = some kind
  · simp [hkind]
  · simp [hkind]

theorem Replaces.picked_old (hr : Replaces h h' before behind q worse) :
    picked h.networkQuality = worstProbe (gatewaysOf before ++ q :: gatewaysOf behind) := by
  rw [picked, rowsOf_around hr.open_ hr.old, if_pos hr.kind, List.append_assoc]
  rfl

theorem Replaces.quality_new (hr : Replaces h h' before behind q worse) :
    h'.networkQuality = before ++ worse :: behind := by
  rw [hr.new]

theorem Replaces.picked_new (hr : Replaces h h' before behind q worse) :
    picked h'.networkQuality = worstProbe (gatewaysOf before ++ worse :: gatewaysOf behind) := by
  rw [picked, rowsOf_around hr.open_' hr.quality_new, if_pos hr.kind', List.append_assoc]
  rfl

theorem Replaces.otherPts_eq (hr : Replaces h h' before behind q worse) :
    otherPts h' = otherPts h := by
  have hadapters : h'.networkAdapters = h.networkAdapters := by rw [hr.new]
  have hdns : rowsOf "dns" h'.networkQuality = rowsOf "dns" h.networkQuality := by
    rw [rowsOf_around hr.open_' hr.quality_new, rowsOf_around hr.open_ hr.old, hr.kind, hr.kind']
    rfl
  rw [otherPts, otherPts, hadapters, hdns]

theorem Replaces.graded_iff (hr : Replaces h h' before behind q worse) :
    Graded h' deviceTrust domainState ↔ Graded h deviceTrust domainState := by
  simp [Graded, hr.quality_new, hr.old]

/-- A probe is picked where there is a gateway probe. -/
theorem Replaces.exists_picked (hr : Replaces h h' before behind q worse) :
    ∃ w, picked h.networkQuality = some w := by
  rw [hr.picked_old]
  refine Option.ne_none_iff_exists'.mp fun hnone => ?_
  simpa using nil_of_worstProbe hnone

/-- The value with the pick and the other findings. -/
theorem riskOf_of_picked (hg : Graded h deviceTrust domainState) {w : NetQuality} {other : ℚ}
    (hw : picked h.networkQuality = some w) (hother : otherPts h = .ok other) :
    ∃ c, riskOf h deviceTrust domainState = .ok (some (clamp (probePts w + other)), c) := by
  rw [riskOf_graded hg, hother]
  simp only [Except.map, pickedPts, hw]
  exact ⟨_, rfl⟩

theorem notLowered_iff (hr : Replaces h h' before behind q worse) (hloss : loss q ≤ loss worse)
    (hpts : probePts q ≤ probePts worse) :
    NotLowered h h' deviceTrust domainState ↔
      (Graded h deviceTrust domainState → ¬ OvertakesHigher h before behind q worse) := by
  constructor
  · rintro hnot hg ⟨hover, other, w, hother, hw, -, hlt⟩
    obtain ⟨c, hrisk⟩ := riskOf_of_picked hg hw hother
    have hnew : picked h'.networkQuality = some worse := by
      rw [hr.picked_new]
      exact worstProbe_around_self hover.1 hover.2
    obtain ⟨c', hrisk'⟩ := riskOf_of_picked (hr.graded_iff.mpr hg) hnew
      (hr.otherPts_eq.trans hother)
    obtain ⟨v', c'', hv', hle⟩ := hnot _ _ hrisk
    rw [hrisk'] at hv'
    obtain rfl := Option.some.inj (Prod.mk.inj (Except.ok.inj hv')).1
    exact absurd hlt (not_lt.mpr hle)
  · intro hover v c hrisk
    by_cases hg : Graded h deviceTrust domainState
    · obtain ⟨w, hw⟩ := hr.exists_picked
      cases hother : otherPts h with
      | error e =>
        rw [riskOf_graded hg, hother] at hrisk
        cases hrisk
      | ok other =>
        obtain ⟨c₀, hold⟩ := riskOf_of_picked hg hw hother
        rw [hold] at hrisk
        obtain rfl := Option.some.inj (Prod.mk.inj (Except.ok.inj hrisk)).1
        have hg' := hr.graded_iff.mpr hg
        have hother' := hr.otherPts_eq.trans hother
        by_cases hfirst : Overtakes before behind worse
        · have hnew : picked h'.networkQuality = some worse := by
            rw [hr.picked_new]
            exact worstProbe_around_self hfirst.1 hfirst.2
          obtain ⟨c', hrisk'⟩ := riskOf_of_picked hg' hnew hother'
          refine ⟨_, c', hrisk', ?_⟩
          by_cases hwq : w = q
          · rw [hwq]
            exact clamp_mono (by linarith)
          · refine not_lt.mp fun hlt => hover hg ⟨hfirst, other, w, hother, hw, hwq, hlt⟩
        · have hnew : picked h'.networkQuality = some w := by
            rw [hr.picked_new, worstProbe_around_other hloss hfirst, ← hr.picked_old, hw]
          obtain ⟨c', hrisk'⟩ := riskOf_of_picked hg' hnew hother'
          exact ⟨_, c', hrisk', le_rfl⟩
    · rw [riskOf_withheld hg] at hrisk
      cases hrisk

/-! ### Worse losses and worse latencies -/

theorem lossPts_mono {x y : ℚ} (hxy : x ≤ y) : lossPts x ≤ lossPts y := by
  unfold lossPts gwLossHeavyPct gwLossLightPct gwLossHeavyPts gwLossLightPts
  split_ifs <;> linarith

theorem latencyPts_mono {y : ℚ} {lat : Option ℚ} (hlat : ∀ x, lat = some x → x ≤ y) :
    latencyPts lat ≤ latencyPts (some y) := by
  unfold latencyPts gwLatHighPts gwLatWarnPts gwLatHighMs gwLatWarnMs
  cases lat with
  | none => dsimp only; split_ifs <;> linarith
  | some x =>
    have hxy := hlat x rfl
    dsimp only
    split_ifs <;> linarith

theorem lossPts_range (l : ℚ) : 0 ≤ lossPts l ∧ lossPts l ≤ 30 := by
  unfold lossPts gwLossHeavyPts gwLossLightPts
  constructor <;> split_ifs <;> norm_num

theorem latencyPts_range (lat : Option ℚ) : 0 ≤ latencyPts lat ∧ latencyPts lat ≤ 15 := by
  unfold latencyPts gwLatHighPts gwLatWarnPts
  cases lat with
  | none => norm_num
  | some x => constructor <;> dsimp only <;> split_ifs <;> norm_num

/-- Full loss adds as much as the heaviest loss and the highest latency together. -/
theorem probePts_loss {y : ℚ} (hy : loss q ≤ y) :
    probePts q ≤ probePts { q with lossPct := some y } := by
  have hl := lossPts_range (loss q)
  have hl' := lossPts_range y
  have hlat := latencyPts_range q.latencyMs
  have hmono := lossPts_mono hy
  have hnew : probePts { q with lossPct := some y } =
      if 100 ≤ y then gwLossFullPts else lossPts y + latencyPts q.latencyMs := rfl
  rw [hnew]
  unfold probePts gwLossFullPts
  split_ifs <;> linarith

theorem probePts_latency {y : ℚ} (hy : ∀ x, q.latencyMs = some x → x ≤ y) :
    probePts q ≤ probePts { q with latencyMs := some y } := by
  have hmono := latencyPts_mono hy
  have hnew : probePts { q with latencyMs := some y } =
      if q.lossPct.isNone then 0
      else if 100 ≤ loss q then gwLossFullPts else lossPts (loss q) + latencyPts (some y) := rfl
  rw [hnew]
  unfold probePts
  split_ifs <;> linarith

end Replacing

/-- Value and confidence do not depend on the order of the probes exactly if the gateway probes of
greatest loss are graded alike; a greater loss of one gateway probe lowers the value exactly if the
probe thereby takes the place of another one that is graded higher; a greater latency never does. -/
theorem networkRisk_fair_iff (deviceTrust : DeviceTrust) (domainState : Option DomainTrustState) :
    (∀ h, OrderFree h deviceTrust domainState ↔
      (Graded h deviceTrust domainState → WorstAgree h)) ∧
    (∀ h h' before behind q y,
      Replaces h h' before behind q { q with lossPct := some y } → loss q < y →
      (NotLowered h h' deviceTrust domainState ↔ (Graded h deviceTrust domainState →
        ¬ OvertakesHigher h before behind q { q with lossPct := some y }))) ∧
    ∀ h h' before behind q y,
      Replaces h h' before behind q { q with latencyMs := some y } →
      (∀ x, q.latencyMs = some x → x < y) → NotLowered h h' deviceTrust domainState := by
  refine ⟨fun h => orderFree_iff, ?_, ?_⟩
  · intro h h' before behind q y hr hy
    exact notLowered_iff hr hy.le (probePts_loss hy.le)
  · intro h h' before behind q y hr hy
    have hpts := probePts_latency fun x hx => (hy x hx).le
    refine (notLowered_iff hr le_rfl hpts).mpr fun _ hover => ?_
    obtain ⟨hfirst, other, w, -, hw, hwq, -⟩ := hover
    have hfirst' : Overtakes before behind q := hfirst
    rw [hr.picked_old, worstProbe_around_self hfirst'.1 hfirst'.2] at hw
    exact hwq (Option.some.inj hw).symm

private def fastGateway (lossPct : ℚ) : NetQuality :=
  { targetKind := some "gateway", target := some "10.0.0.1", latencyMs := some 5,
    lossPct := some lossPct }

private def slowGateway : NetQuality :=
  { targetKind := some "gateway", target := some "10.0.1.1", latencyMs := some 200,
    lossPct := some 0 }

private def probed (quality : List NetQuality) : HistoricalPayload := { networkQuality := quality }

/-- A greater loss of the worst probe, and a greater latency of one that is not. -/
theorem networkRisk_fair_slower :
    NotLowered (probed [slowGateway, fastGateway 2]) (probed [slowGateway, fastGateway 60])
      .ok none ∧
    NotLowered (probed [slowGateway, fastGateway 0])
      (probed [slowGateway, { fastGateway 0 with latencyMs := some 40 }]) .ok none := by
  constructor
  · refine ((networkRisk_fair_iff .ok none).2.1 _ _ [slowGateway] [] (fastGateway 2) 60
      ⟨rfl, rfl, rfl, rfl, by decide +kernel, by decide +kernel⟩ (by decide +kernel)).mpr ?_
    rintro - ⟨-, other, w, -, hw, hwq, -⟩
    have hpicked : picked [slowGateway, fastGateway 2] = some (fastGateway 2) := by decide +kernel
    exact hwq (Option.some.inj (hw.symm.trans hpicked))
  · exact (networkRisk_fair_iff .ok none).2.2 _ _ [slowGateway] [] (fastGateway 0) 40
      ⟨rfl, rfl, rfl, rfl, by decide +kernel, by decide +kernel⟩
      (fun x hx => by rw [← Option.some.inj hx]; decide +kernel)

/-- The slow gateway counts only where it is listed first; and one percent of loss to the fast one
hides its latency. -/
theorem networkRisk_unfair :
    ¬ OrderFree (probed [slowGateway, fastGateway 0]) .ok none ∧
    ¬ NotLowered (probed [slowGateway, fastGateway 0]) (probed [slowGateway, fastGateway 1])
      .ok none := by
  have hslow : riskOf (probed [slowGateway, fastGateway 0]) .ok none = .ok (some 15, .medium) := by
    decide +kernel
  have hfast : riskOf (probed [fastGateway 0, slowGateway]) .ok none = .ok (some 0, .medium) := by
    decide +kernel
  have hlossy : riskOf (probed [slowGateway, fastGateway 1]) .ok none = .ok (some 0, .medium) := by
    decide +kernel
  constructor
  · intro hfree
    have heq := hfree [fastGateway 0, slowGateway] (List.Perm.swap _ _ _)
    have hcontra := hfast.symm.trans (heq.trans hslow)
    exact absurd hcontra (by decide +kernel)
  · intro hnot
    obtain ⟨v', c', hv', hle⟩ := hnot _ _ hslow
    rw [hlossy] at hv'
    obtain rfl := Option.some.inj (Prod.mk.inj (Except.ok.inj hv')).1
    exact absurd hle (by decide +kernel)

end Srp.Analytics.NetworkRisk
