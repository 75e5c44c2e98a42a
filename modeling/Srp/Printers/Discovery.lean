/-
  Srp/Printers/Discovery.lean
  ===========================
  **Silent discovery** (`server/printers/discovery.py`).

  The spooler hints of the agents, the ARP snapshots, the static list and the scan
  are read as one list of sightings.  Sightings of one address make one record;
  records with one MAC make one candidate, under the address that was seen last.
  `merge_spec` describes the result without the loops: which candidates there are,
  what each stands for, and that no sighting of a private address is lost.
  `merge_perm` says that the order of the sightings matters only where two of them
  contradict each other on the MAC of an address, or for a name.

  An entry of a source that is no dictionary is skipped by the code and no part of
  the lists here.
-/
import Mathlib.Data.List.Perm.Basic
import Mathlib.Order.Defs.LinearOrder
import Srp.Lib.GroupBy
import Srp.Lib.Table
import Srp.Netdisco.Identity

namespace Srp.Printers.Discovery

open Srp.Lib Srp.Netdisco

/-! ### What is read -/

/-- A spooler-port hint of an agent. -/
structure Hint where
  ip : Option String
  name : Option String

/-- An ARP neighbour. -/
structure Neighbor where
  ip : Option String
  mac : Option String

structure Snapshot where
  lastSeen : Option String
  neighbors : List Neighbor

/-- The arguments of one call of `add`. -/
structure Sighting where
  ip : Option String
  mac : Option String
  name : Option String
  source : String
  lastSeen : Option String
deriving DecidableEq, Repr

/-- The calls of `add`, in their order. -/
def sightings (agentHints : List Hint) (arpSnapshots : List Snapshot)
    (staticIps scanIps : List String) : List Sighting :=
  (agentHints.map fun h => ⟨h.ip, none, h.name, "spooler", none⟩) ++
  (arpSnapshots.flatMap fun snap => snap.neighbors.map fun n =>
    ⟨n.ip, n.mac, none, "arp", snap.lastSeen⟩) ++
  (staticIps.map fun ip => ⟨some ip, none, none, "config", none⟩) ++
  (scanIps.map fun ip => ⟨some ip, none, none, "scan", none⟩)

/-! ### Records by address -/

/-- What is known of one address; the sources are a set. -/
structure Rec where
  ip : String
  mac : Option String
  name : Option String
  sources : List String
  lastSeen : Option String
deriving DecidableEq, Repr

variable (T : PyText)

/-- `_norm_mac`. -/
def normMac (mac : String) : Option String :=
  let cleaned := String.ofList ((strip T mac).flatMap T.upper)
  if cleaned = "" then none else some cleaned

/-- The address that a sighting counts for, if it is a private one. -/
def keyOf (s : Sighting) : Option String :=
  match s.ip with
  | none => none
  | some ip => if isRfc1918 T ip then some (String.ofList (strip T ip)) else none

/-- A record with one more sighting: the first MAC and the first name stay, the last time wins. -/
def seen (rec : Rec) (s : Sighting) : Rec :=
  { rec with
    sources := if s.source ∈ rec.sources then rec.sources else rec.sources ++ [s.source]
    mac := rec.mac.or (s.mac.bind (normMac T))
    name := rec.name.or (s.name.filter (· ≠ ""))
    lastSeen :=
      match s.lastSeen with
      | none => rec.lastSeen
      | some t => if t ≠ "" ∧ rec.lastSeen.getD "" < t then some t else rec.lastSeen }

def blank (ip : String) : Rec := ⟨ip, none, none, [], none⟩

def add (byIp : List Rec) (s : Sighting) : List Rec :=
  match keyOf T s with
  | none => byIp
  | some key => Table.upsert Rec.ip (fun old _ => seen T old s) (seen T (blank key) s) byIp

def byIp (ss : List Sighting) : List Rec := ss.foldl (add T) []

/-! ### One candidate for each MAC -/

structure Candidate where
  ip : String
  mac : Option String
  name : Option String
  sources : List String
deriving DecidableEq, Repr

def Rec.seenAt (r : Rec) : String := r.lastSeen.getD ""

/-- The record seen last, of several the one with the lowest address. -/
def winner (recs : List Rec) : Option Rec :=
  let bestLastSeen := (recs.map (·.seenAt)).foldr max ""
  (recs.filter fun r => r.seenAt = bestLastSeen).argmin (·.ip)

/-- `tuple(sorted(sources))`. -/
def sortedSources (sources : List String) : List String :=
  sources.eraseDups.insertionSort (· ≤ ·)

def candidate (w : Rec) (recs : List Rec) : Candidate where
  ip := w.ip
  mac := w.mac
  name := (w :: recs.filter fun r => r.ip ≠ w.ip).findSome? (·.name)
  sources := sortedSources (recs.flatMap (·.sources))

/-- The records with MAC `m`. -/
def withMac (recs : List Rec) (m : String) : List Rec := recs.filter fun r => r.mac = some m

def macs (recs : List Rec) : List String := (recs.filterMap (·.mac)).eraseDups

def collapseByMac (recs : List Rec) : List Candidate :=
  let standalone := (recs.filter fun r => r.mac = none).map fun r => candidate r [r]
  let merged := (macs recs).filterMap fun m =>
    (winner (withMac recs m)).map fun w => candidate w (withMac recs m)
  (standalone ++ merged).insertionSort fun a b => a.ip ≤ b.ip

def mergeSightings (ss : List Sighting) : List Candidate := collapseByMac (byIp T ss)

def merge (agentHints : List Hint) (arpSnapshots : List Snapshot)
    (staticIps scanIps : List String) : List Candidate :=
  mergeSightings T (sightings agentHints arpSnapshots staticIps scanIps)

/-! ### What the sightings say of an address -/

/-- The sightings that count for `k`. -/
def at_ (ss : List Sighting) (k : String) : List Sighting := ss.filter fun s => keyOf T s = some k

/-- The first MAC that an address is seen with. -/
def macAt (ss : List Sighting) (k : String) : Option String :=
  (at_ T ss k).findSome? fun s => s.mac.bind (normMac T)

/-- The last time that an address is seen, `""` for never. -/
def seenAt (ss : List Sighting) (k : String) : String :=
  ((at_ T ss k).map fun s => s.lastSeen.getD "").foldr max ""

variable {T} {ss : List Sighting} {k : String}

theorem empty_le (t : String) : "" ≤ t := by
  rw [← not_lt, String.lt_iff_toList_lt]
  exact List.not_lt_nil _

theorem seen_seenAt (r : Rec) (s : Sighting) :
    (seen T r s).seenAt = max r.seenAt (s.lastSeen.getD "") := by
  unfold seen Rec.seenAt
  cases s.lastSeen with
  | none => exact (max_eq_left (empty_le _)).symm
  | some t =>
    simp only [Option.getD_some]
    by_cases hlt : r.lastSeen.getD "" < t
    · have hne : t ≠ "" := by
        rintro rfl
        exact absurd hlt (not_lt.mpr (empty_le _))
      rw [if_pos ⟨hne, hlt⟩, max_eq_right hlt.le]
      rfl
    · rw [if_neg fun h => hlt h.2, max_eq_left (not_lt.mp hlt)]

theorem mem_seen_sources (r : Rec) (s : Sighting) (x : String) :
    x ∈ (seen T r s).sources ↔ x ∈ r.sources ∨ s.source = x := by
  unfold seen
  by_cases hmem : s.source ∈ r.sources
  · simp only [if_pos hmem]
    constructor
    · exact .inl
    · rintro (h | rfl)
      · exact h
      · exact hmem
  · simp only [if_neg hmem, List.mem_append, List.mem_singleton, eq_comm]

theorem foldl_seen (l : List Sighting) (r : Rec) :
    (l.foldl (seen T) r).ip = r.ip ∧
    (l.foldl (seen T) r).mac = r.mac.or (l.findSome? fun s => s.mac.bind (normMac T)) ∧
    (l.foldl (seen T) r).seenAt = max r.seenAt ((l.map fun s => s.lastSeen.getD "").foldr max "") ∧
    (∀ x, x ∈ (l.foldl (seen T) r).sources ↔ x ∈ r.sources ∨ ∃ s ∈ l, s.source = x) := by
  induction l generalizing r with
  | nil => exact ⟨rfl, by simp, (max_eq_left (empty_le _)).symm, by simp⟩
  | cons s l ih =>
    obtain ⟨hip, hmac, hseen, hsources⟩ := ih (seen T r s)
    rw [List.foldl_cons]
    refine ⟨hip, ?_, ?_, ?_⟩
    · rw [hmac, List.findSome?_cons]
      cases hs : s.mac.bind (normMac T) with
      | none => simp [seen, hs]
      | some m => simp [seen, hs]
    · rw [hseen, seen_seenAt, List.map_cons, List.foldr_cons, max_assoc]
    · intro x
      rw [hsources x, mem_seen_sources, List.exists_mem_cons_iff, or_assoc]

/-! ### The records -/

/-- The record of an address that is seen. -/
def recAt (T : PyText) (ss : List Sighting) (k : String) : Rec :=
  (at_ T ss k).foldl (seen T) (blank k)

theorem recAt_spec (ss : List Sighting) (k : String) :
    (recAt T ss k).ip = k ∧ (recAt T ss k).mac = macAt T ss k ∧
    (recAt T ss k).seenAt = seenAt T ss k ∧
    ∀ x, x ∈ (recAt T ss k).sources ↔ ∃ s ∈ ss, keyOf T s = some k ∧ s.source = x := by
  obtain ⟨hip, hmac, hseen, hsources⟩ := foldl_seen (at_ T ss k) (blank k)
  refine ⟨hip, hmac, ?_, ?_⟩
  · rw [recAt, hseen]
    exact max_eq_right (empty_le _)
  · intro x
    rw [recAt, hsources x]
    simp [blank, at_, and_assoc]

theorem keyed_add (rows : List Rec) (s : Sighting) (k : String) :
    Table.row Rec.ip (add T rows s) k =
      if keyOf T s = some k then some (seen T ((Table.row Rec.ip rows k).getD (blank k)) s)
      else Table.row Rec.ip rows k := by
  unfold add
  cases hkey : keyOf T s with
  | none => simp
  | some key =>
    simp only
    rw [Table.row_upsert (fun _ h => h)]
    by_cases hk : k = key
    · subst hk
      have hk' : k = (seen T (blank k) s).ip := rfl
      rw [if_pos hk', if_pos rfl]
      cases Table.row Rec.ip rows k <;> rfl
    · have hk' : ¬ k = (seen T (blank key) s).ip := hk
      rw [if_neg hk', if_neg fun h => hk (Option.some.inj h).symm]

theorem byIp_concat (ss : List Sighting) (s : Sighting) :
    byIp T (ss ++ [s]) = add T (byIp T ss) s := List.foldl_concat _ _ _ _

theorem row_byIp (ss : List Sighting) (k : String) :
    Table.row Rec.ip (byIp T ss) k =
      if at_ T ss k = [] then none else some (recAt T ss k) := by
  induction ss using List.reverseRecOn with
  | nil => rfl
  | append_singleton ss s ih =>
    rw [byIp_concat, keyed_add, ih]
    by_cases hkey : keyOf T s = some k
    · have hat : at_ T (ss ++ [s]) k = at_ T ss k ++ [s] := by simp [at_, hkey]
      have hrec : recAt T (ss ++ [s]) k = seen T (recAt T ss k) s := by
        rw [recAt, hat]
        exact List.foldl_concat _ _ _ _
      have hne : at_ T ss k ++ [s] ≠ [] := by simp
      rw [if_pos hkey, hat, if_neg hne, hrec]
      by_cases hnone : at_ T ss k = []
      · rw [if_pos hnone, recAt, hnone]
        rfl
      · rw [if_neg hnone]
        rfl
    · have hat : at_ T (ss ++ [s]) k = at_ T ss k := by simp [at_, hkey]
      rw [if_neg hkey, hat, recAt, recAt, hat]

theorem nodup_byIp (ss : List Sighting) : ((byIp T ss).map (·.ip)).Nodup := by
  induction ss using List.reverseRecOn with
  | nil => exact List.nodup_nil
  | append_singleton ss s ih =>
    rw [byIp_concat]
    unfold add
    cases keyOf T s with
    | none => exact ih
    | some key => exact Table.nodup_keys_upsert (fun _ h => h) ih

/-- An address with a sighting that counts for it. -/
def Known (T : PyText) (ss : List Sighting) (k : String) : Prop := ∃ s ∈ ss, keyOf T s = some k

theorem at_eq_nil_iff : at_ T ss k = [] ↔ ¬ Known T ss k := by
  simp [at_, Known, List.filter_eq_nil_iff]

theorem mem_byIp {r : Rec} : r ∈ byIp T ss ↔ ∃ k, Known T ss k ∧ r = recAt T ss k := by
  constructor
  · intro h
    have hrow := Table.row_of_mem (nodup_byIp ss) h
    rw [row_byIp] at hrow
    by_cases hnone : at_ T ss r.ip = []
    · rw [if_pos hnone] at hrow
      cases hrow
    · rw [if_neg hnone] at hrow
      exact ⟨r.ip, not_not.mp (at_eq_nil_iff.not.mp hnone), (Option.some.inj hrow).symm⟩
  · rintro ⟨k, hk, rfl⟩
    have hrow := row_byIp (T := T) ss k
    rw [if_neg (at_eq_nil_iff.not.mpr (not_not.mpr hk))] at hrow
    exact (Table.row_eq_some hrow).1

/-! ### Classes of records -/

/-- A candidate stands for records: it has the address seen last among them, the lowest if there
    are several, and the sources of all of them. -/
structure StandsFor (recs : List Rec) (c : Candidate) : Prop where
  winner : ∃ w ∈ recs, c.ip = w.ip ∧ c.mac = w.mac
  latest : ∀ w ∈ recs, c.ip = w.ip → ∀ r ∈ recs,
    r.seenAt < w.seenAt ∨ (r.seenAt = w.seenAt ∧ w.ip ≤ r.ip)
  sources : ∀ x, x ∈ c.sources ↔ ∃ r ∈ recs, x ∈ r.sources
  sorted : c.sources.Pairwise (· < ·)

theorem le_foldr_max {l : List String} {t : String} (h : t ∈ l) : t ≤ l.foldr max "" := by
  induction l with
  | nil => cases h
  | cons a l ih =>
    rcases List.mem_cons.mp h with rfl | h
    · exact le_max_left _ _
    · exact (ih h).trans (le_max_right _ _)

theorem foldr_max_mem {l : List String} (h : l ≠ []) : l.foldr max "" ∈ l := by
  induction l with
  | nil => exact absurd rfl h
  | cons a l ih =>
    by_cases hl : l = []
    · subst hl
      rw [List.foldr_cons, List.foldr_nil, max_eq_left (empty_le a)]
      exact List.mem_cons_self
    · rw [List.foldr_cons]
      rcases max_choice a (l.foldr max "") with hmax | hmax
      · rw [hmax]
        exact List.mem_cons_self
      · rw [hmax]
        exact List.mem_cons_of_mem a (ih hl)

theorem winner_spec {recs : List Rec} {w : Rec} (h : winner recs = some w) :
    w ∈ recs ∧ ∀ r ∈ recs, r.seenAt < w.seenAt ∨ (r.seenAt = w.seenAt ∧ w.ip ≤ r.ip) := by
  unfold winner at h
  have hmem := List.mem_filter.mp (List.argmin_mem h)
  have hbest : w.seenAt = (recs.map (·.seenAt)).foldr max "" := of_decide_eq_true hmem.2
  refine ⟨hmem.1, ?_⟩
  intro r hr
  have hle : r.seenAt ≤ w.seenAt := by
    rw [hbest]
    exact le_foldr_max (List.mem_map_of_mem hr)
  rcases lt_or_eq_of_le hle with hlt | heq
  · exact .inl hlt
  · refine .inr ⟨heq, ?_⟩
    have htied : r ∈ recs.filter fun r => r.seenAt = (recs.map (·.seenAt)).foldr max "" :=
      List.mem_filter.mpr ⟨hr, decide_eq_true (heq.trans hbest)⟩
    exact List.le_of_mem_argmin htied h

theorem winner_isSome {recs : List Rec} (h : recs ≠ []) : ∃ w, winner recs = some w := by
  have hne : recs.map (·.seenAt) ≠ [] := by simpa using h
  obtain ⟨r, hr, hseen⟩ := List.mem_map.mp (foldr_max_mem hne)
  have htied : r ∈ recs.filter fun r => r.seenAt = (recs.map (·.seenAt)).foldr max "" :=
    List.mem_filter.mpr ⟨hr, decide_eq_true hseen⟩
  unfold winner
  apply Option.ne_none_iff_exists'.mp
  intro hnone
  rw [List.argmin_eq_none.mp hnone] at htied
  cases htied

theorem mem_sortedSources {sources : List String} {x : String} :
    x ∈ sortedSources sources ↔ x ∈ sources := by
  rw [sortedSources, (List.perm_insertionSort _ _).mem_iff, List.mem_eraseDups]

theorem pairwise_sortedSources (sources : List String) :
    (sortedSources sources).Pairwise (· < ·) := by
  have hnodup : (sortedSources sources).Nodup :=
    (List.perm_insertionSort _ _).nodup_iff.mpr (GroupBy.nodup_eraseDups sources)
  exact (List.Pairwise.and (List.pairwise_insertionSort _ _) hnodup).imp fun h =>
    lt_of_le_of_ne h.1 h.2

theorem standsFor_candidate {recs : List Rec} (hnodup : (recs.map (·.ip)).Nodup) {w : Rec}
    (hw : w ∈ recs)
    (hlatest : ∀ r ∈ recs, r.seenAt < w.seenAt ∨ (r.seenAt = w.seenAt ∧ w.ip ≤ r.ip)) :
    StandsFor recs (candidate w recs) where
  winner := ⟨w, hw, rfl, rfl⟩
  latest := by
    intro w' hw' hip r hr
    rw [← List.inj_on_of_nodup_map hnodup hw hw' hip]
    exact hlatest r hr
  sources := by
    intro x
    show x ∈ sortedSources _ ↔ _
    rw [mem_sortedSources, List.mem_flatMap]
  sorted := pairwise_sortedSources _

/-! ### The candidates -/

theorem mem_macs {recs : List Rec} {m : String} : m ∈ macs recs ↔ ∃ r ∈ recs, r.mac = some m := by
  rw [macs, List.mem_eraseDups, List.mem_filterMap]

theorem mem_withMac {recs : List Rec} {m : String} {r : Rec} :
    r ∈ withMac recs m ↔ r ∈ recs ∧ r.mac = some m := by
  simp [withMac]

/-- The records that the candidates take their addresses from. -/
def chosen (recs : List Rec) : List Rec :=
  (recs.filter fun r => r.mac = none) ++ (macs recs).filterMap fun m => winner (withMac recs m)

theorem mem_chosen {recs : List Rec} {w : Rec} (h : w ∈ chosen recs) : w ∈ recs := by
  rcases List.mem_append.mp h with h | h
  · exact (List.mem_filter.mp h).1
  · obtain ⟨m, _, hw⟩ := List.mem_filterMap.mp h
    exact (mem_withMac.mp (winner_spec hw).1).1

theorem nodup_chosen {recs : List Rec} (hnodup : recs.Nodup) : (chosen recs).Nodup := by
  unfold chosen
  rw [List.nodup_append]
  refine ⟨hnodup.filter _, ?_, ?_⟩
  · apply List.Nodup.filterMap
    · intro m m' w hw hw'
      have hm := (mem_withMac.mp (winner_spec hw).1).2
      have hm' := (mem_withMac.mp (winner_spec hw').1).2
      exact Option.some.inj (hm.symm.trans hm')
    · exact GroupBy.nodup_eraseDups _
  · rintro w hw w' hw' rfl
    have hnone : w.mac = none := of_decide_eq_true (List.mem_filter.mp hw).2
    obtain ⟨m, _, hwin⟩ := List.mem_filterMap.mp hw'
    rw [(mem_withMac.mp (winner_spec hwin).1).2] at hnone
    cases hnone

theorem pairwise_collapseByMac {recs : List Rec} (hnodup : (recs.map (·.ip)).Nodup) :
    ((collapseByMac recs).map (·.ip)).Pairwise (· < ·) := by
  have hperm : ((collapseByMac recs).map (·.ip)).Perm ((chosen recs).map (·.ip)) := by
    refine ((List.perm_insertionSort _ _).map _).trans (List.Perm.of_eq ?_)
    unfold chosen
    simp only [List.map_append, List.map_map, List.map_filterMap, Option.map_map]
    rfl
  have hdistinct : ((collapseByMac recs).map (·.ip)).Nodup := by
    rw [hperm.nodup_iff]
    refine (nodup_chosen (List.Nodup.of_map _ hnodup)).map_on ?_
    intro w hw w' hw' hip
    exact List.inj_on_of_nodup_map hnodup (mem_chosen hw) (mem_chosen hw') hip
  have hsorted : ((collapseByMac recs).map (·.ip)).Pairwise (· ≤ ·) :=
    List.pairwise_map.mpr (List.pairwise_insertionSort _ _)
  exact (hsorted.and hdistinct).imp fun h => lt_of_le_of_ne h.1 h.2

theorem mem_collapseByMac {recs : List Rec} {c : Candidate} :
    c ∈ collapseByMac recs ↔ (∃ r ∈ recs, r.mac = none ∧ c = candidate r [r]) ∨
      ∃ m w, winner (withMac recs m) = some w ∧ c = candidate w (withMac recs m) := by
  unfold collapseByMac
  rw [(List.perm_insertionSort _ _).mem_iff, List.mem_append, List.mem_map, List.mem_filterMap]
  constructor
  · rintro (⟨r, hr, rfl⟩ | ⟨m, _, hm⟩)
    · obtain ⟨hin, hmac⟩ := List.mem_filter.mp hr
      exact .inl ⟨r, hin, of_decide_eq_true hmac, rfl⟩
    · obtain ⟨w, hw, rfl⟩ := Option.map_eq_some_iff.mp hm
      exact .inr ⟨m, w, hw, rfl⟩
  · rintro (⟨r, hr, hmac, rfl⟩ | ⟨m, w, hw, rfl⟩)
    · exact .inl ⟨r, List.mem_filter.mpr ⟨hr, decide_eq_true hmac⟩, rfl⟩
    · obtain ⟨hin, hmac⟩ := mem_withMac.mp (winner_spec hw).1
      exact .inr ⟨m, mem_macs.mpr ⟨w, hin, hmac⟩, Option.map_eq_some_iff.mpr ⟨w, hw, rfl⟩⟩

/-- The records that share the address or the MAC of a candidate. -/
def Shares (recs : List Rec) (c : Candidate) (r : Rec) : Prop :=
  r ∈ recs ∧ (r.ip = c.ip ∨ (c.mac ≠ none ∧ r.mac = c.mac))

theorem standsFor_alone (r : Rec) : StandsFor [r] (candidate r [r]) := by
  apply standsFor_candidate (by simp) List.mem_cons_self
  intro r' hr'
  rw [List.mem_singleton.mp hr']
  exact .inr ⟨rfl, le_rfl⟩

theorem shares_alone {recs : List Rec} (hnodup : (recs.map (·.ip)).Nodup) {r : Rec}
    (hr : r ∈ recs) (hmac : r.mac = none) (r' : Rec) :
    r' ∈ [r] ↔ Shares recs (candidate r [r]) r' := by
  rw [List.mem_singleton]
  constructor
  · rintro rfl
    exact ⟨hr, .inl rfl⟩
  · rintro ⟨hr', hip | ⟨hsome, _⟩⟩
    · exact List.inj_on_of_nodup_map hnodup hr' hr hip
    · exact absurd hmac hsome

theorem shares_withMac {recs : List Rec} (hnodup : (recs.map (·.ip)).Nodup) {m : String} {w : Rec}
    (hw : w ∈ withMac recs m) (r : Rec) :
    r ∈ withMac recs m ↔ Shares recs (candidate w (withMac recs m)) r := by
  obtain ⟨hin, hmac⟩ := mem_withMac.mp hw
  rw [mem_withMac]
  constructor
  · rintro ⟨hr, hrmac⟩
    have hsome : w.mac ≠ none := by simp [hmac]
    exact ⟨hr, .inr ⟨hsome, hrmac.trans hmac.symm⟩⟩
  · rintro ⟨hr, hip | ⟨_, hrmac⟩⟩
    · rw [List.inj_on_of_nodup_map hnodup hr hin hip]
      exact ⟨hin, hmac⟩
    · exact ⟨hr, hrmac.trans hmac⟩

/-- A candidate stands for the records that share its address or its MAC. -/
theorem standsFor_of_mem {recs : List Rec} (hnodup : (recs.map (·.ip)).Nodup) {c : Candidate}
    (hc : c ∈ collapseByMac recs) : ∃ rs, StandsFor rs c ∧ ∀ r, r ∈ rs ↔ Shares recs c r := by
  rcases mem_collapseByMac.mp hc with ⟨r, hr, hmac, rfl⟩ | ⟨m, w, hw, rfl⟩
  · exact ⟨[r], standsFor_alone r, shares_alone hnodup hr hmac⟩
  · obtain ⟨hin, hlatest⟩ := winner_spec hw
    have hsub : ((withMac recs m).map (·.ip)).Nodup := hnodup.sublist (List.filter_sublist.map _)
    exact ⟨withMac recs m, standsFor_candidate hsub hin hlatest, shares_withMac hnodup hin⟩

/-- Every record is stood for. -/
theorem exists_candidate {recs : List Rec} {r : Rec} (hr : r ∈ recs) :
    ∃ c ∈ collapseByMac recs, Shares recs c r := by
  cases hmac : r.mac with
  | none => exact ⟨candidate r [r], mem_collapseByMac.mpr (.inl ⟨r, hr, hmac, rfl⟩), hr, .inl rfl⟩
  | some m =>
    have hin : r ∈ withMac recs m := mem_withMac.mpr ⟨hr, hmac⟩
    obtain ⟨w, hw⟩ := winner_isSome (List.ne_nil_of_mem hin)
    have hwmac := (mem_withMac.mp (winner_spec hw).1).2
    have hsome : w.mac ≠ none := by simp [hwmac]
    exact ⟨candidate w (withMac recs m), mem_collapseByMac.mpr (.inr ⟨m, w, hw, rfl⟩), hr,
      .inr ⟨hsome, hmac.trans hwmac.symm⟩⟩

/-! ### What discovery finds -/

/-- The candidate stands for the address: it has it, or the MAC that the address is seen with. -/
def Covers (T : PyText) (ss : List Sighting) (c : Candidate) (k : String) : Prop :=
  k = c.ip ∨ (c.mac ≠ none ∧ macAt T ss k = c.mac)

/-- A candidate in terms of the sightings. -/
structure Found (T : PyText) (ss : List Sighting) (c : Candidate) : Prop where
  known : Known T ss c.ip
  mac : macAt T ss c.ip = c.mac
  sources : ∀ x, x ∈ c.sources ↔
    ∃ s ∈ ss, ∃ k, keyOf T s = some k ∧ Covers T ss c k ∧ s.source = x
  sorted : c.sources.Pairwise (· < ·)
  latest : ∀ k, Known T ss k → Covers T ss c k →
    seenAt T ss k < seenAt T ss c.ip ∨ (seenAt T ss k = seenAt T ss c.ip ∧ c.ip ≤ k)

theorem found_of_mem {c : Candidate} (hc : c ∈ mergeSightings T ss) : Found T ss c := by
  obtain ⟨rs, hstands, hmem⟩ := standsFor_of_mem (nodup_byIp ss) hc
  have hclass : ∀ k, Known T ss k → (recAt T ss k ∈ rs ↔ Covers T ss c k) := by
    intro k hk
    obtain ⟨hip, hmac, _, _⟩ := recAt_spec (T := T) ss k
    rw [hmem, Shares, hip, hmac]
    exact and_iff_right (mem_byIp.mpr ⟨k, hk, rfl⟩)
  have hrecs : ∀ r ∈ rs, ∃ k, Known T ss k ∧ r = recAt T ss k :=
    fun r hr => mem_byIp.mp ((hmem r).mp hr).1
  obtain ⟨w, hw, hip, hmac⟩ := hstands.winner
  obtain ⟨k, hk, rfl⟩ := hrecs w hw
  obtain ⟨hwip, hwmac, hwseen, _⟩ := recAt_spec (T := T) ss k
  have hck : c.ip = k := hip.trans hwip
  subst hck
  refine ⟨hk, (hmac.trans hwmac).symm, ?_, hstands.sorted, ?_⟩
  · intro x
    rw [hstands.sources x]
    constructor
    · rintro ⟨r, hr, hx⟩
      obtain ⟨k, hk, rfl⟩ := hrecs r hr
      obtain ⟨s, hs, hkey, hsource⟩ := ((recAt_spec ss k).2.2.2 x).mp hx
      exact ⟨s, hs, k, hkey, (hclass k hk).mp hr, hsource⟩
    · rintro ⟨s, hs, k, hkey, hcovers, hsource⟩
      have hk : Known T ss k := ⟨s, hs, hkey⟩
      exact ⟨recAt T ss k, (hclass k hk).mpr hcovers,
        ((recAt_spec ss k).2.2.2 x).mpr ⟨s, hs, hkey, hsource⟩⟩
  · intro k hk hcovers
    have hlatest := hstands.latest _ hw hwip.symm _ ((hclass k hk).mpr hcovers)
    obtain ⟨hkip, _, hkseen, _⟩ := recAt_spec (T := T) ss k
    rw [hkseen, hwseen, hkip, hwip] at hlatest
    exact hlatest

theorem nodup_mergeSightings (ss : List Sighting) :
    ((mergeSightings T ss).map (·.ip)).Nodup :=
  (pairwise_collapseByMac (nodup_byIp ss)).imp fun h => ne_of_lt h

theorem Found.mac_of_covers {c : Candidate} (h : Found T ss c) (hk : Covers T ss c k) :
    macAt T ss k = c.mac := by
  rcases hk with rfl | ⟨_, hmac⟩
  · exact h.mac
  · exact hmac

/-- Two candidates that stand for one address have one address, in any order of the sightings. -/
theorem Found.ip_eq {ss' : List Sighting} {c c' : Candidate} (h : Found T ss c)
    (h' : Found T ss' c') (hknown : ∀ k, Known T ss k ↔ Known T ss' k)
    (hmac : ∀ k, macAt T ss k = macAt T ss' k) (hseen : ∀ k, seenAt T ss k = seenAt T ss' k)
    (hk : Covers T ss c k) (hk' : Covers T ss' c' k) : c.ip = c'.ip := by
  have heq : c.mac = c'.mac := by
    rw [← h.mac_of_covers hk, hmac, h'.mac_of_covers hk']
  cases hm : c.mac with
  | none =>
    have hip : k = c.ip := hk.resolve_right fun h => h.1 hm
    have hip' : k = c'.ip := hk'.resolve_right fun h => h.1 (heq.symm.trans hm)
    exact hip.symm.trans hip'
  | some m =>
    have hsome : c.mac ≠ none := by simp [hm]
    have hcover : Covers T ss c c'.ip := .inr ⟨hsome, by rw [hmac, h'.mac, heq]⟩
    have hcover' : Covers T ss' c' c.ip := .inr ⟨heq ▸ hsome, by rw [← hmac, h.mac, heq]⟩
    have hle := h.latest c'.ip ((hknown _).mpr h'.known) hcover
    have hle' := h'.latest c.ip ((hknown _).mp h.known) hcover'
    rw [← hseen, ← hseen] at hle'
    rcases hle with hlt | ⟨hsame, hle⟩
    · rcases hle' with hlt' | ⟨hsame', _⟩
      · exact absurd hlt' (not_lt.mpr hlt.le)
      · exact absurd hsame' hlt.ne'
    · rcases hle' with hlt' | ⟨_, hle'⟩
      · exact absurd hsame hlt'.ne'
      · exact le_antisymm hle hle'

/-- A sighting is among the sources of the one candidate that stands for its address. -/
theorem exists_covering {s : Sighting} (hs : s ∈ ss) (hkey : keyOf T s = some k) :
    ∃ c ∈ mergeSightings T ss, Covers T ss c k ∧ s.source ∈ c.sources ∧
      ∀ c' ∈ mergeSightings T ss, Covers T ss c' k → c' = c := by
  have hk : Known T ss k := ⟨s, hs, hkey⟩
  obtain ⟨hip, hmac, _, _⟩ := recAt_spec (T := T) ss k
  obtain ⟨c, hc, _, hcovers⟩ := exists_candidate (mem_byIp.mpr ⟨k, hk, rfl⟩)
  rw [hip, hmac] at hcovers
  have hfound := found_of_mem hc
  refine ⟨c, hc, hcovers, (hfound.sources _).mpr ⟨s, hs, k, hkey, hcovers, rfl⟩, ?_⟩
  intro c' hc' hcovers'
  have heq := (found_of_mem hc').ip_eq hfound (fun _ => Iff.rfl) (fun _ => rfl) (fun _ => rfl)
    hcovers' hcovers
  exact List.inj_on_of_nodup_map (nodup_mergeSightings ss) hc' hc heq

/-- **Discovery loses no sighting and splits no device.**  The candidates come in the order of
    their addresses, each once; every sighting of a private address is among the sources of the
    one candidate that stands for it; and a candidate has an address that was seen, with the MAC
    it is seen with, no address of its MAC was seen later, and no source without a sighting. -/
theorem merge_spec (T : PyText) (ss : List Sighting) :
    ((mergeSightings T ss).map (·.ip)).Pairwise (· < ·) ∧
    (∀ s ∈ ss, ∀ k, keyOf T s = some k → ∃ c ∈ mergeSightings T ss,
      Covers T ss c k ∧ s.source ∈ c.sources ∧
        ∀ c' ∈ mergeSightings T ss, Covers T ss c' k → c' = c) ∧
    (∀ c ∈ mergeSightings T ss, Found T ss c) :=
  ⟨pairwise_collapseByMac (nodup_byIp ss), fun _ hs _ hkey => exists_covering hs hkey,
    fun _ hc => found_of_mem hc⟩

/-! ### The order of the sightings -/

/-- No address is seen with two MACs. -/
def Consistent (T : PyText) (ss : List Sighting) : Prop :=
  ∀ k, ∀ s ∈ at_ T ss k, ∀ s' ∈ at_ T ss k, ∀ m m',
    s.mac.bind (normMac T) = some m → s'.mac.bind (normMac T) = some m' → m = m'

/-- A candidate without its name. -/
def Candidate.nameless (c : Candidate) : String × Option String × List String :=
  (c.ip, c.mac, c.sources)

theorem at_perm {ss' : List Sighting} (h : ss.Perm ss') (k : String) :
    (at_ T ss k).Perm (at_ T ss' k) := h.filter _

theorem seenAt_perm {ss' : List Sighting} (h : ss.Perm ss') (k : String) :
    seenAt T ss k = seenAt T ss' k := ((at_perm h k).map _).foldr_eq _

theorem macAt_perm {ss' : List Sighting} (h : ss.Perm ss') (hmacs : Consistent T ss) (k : String) :
    macAt T ss k = macAt T ss' k :=
  GroupBy.findSome?_perm (at_perm h k) (hmacs k)

theorem known_perm {ss' : List Sighting} (h : ss.Perm ss') (k : String) :
    Known T ss k ↔ Known T ss' k := by
  simp only [Known, h.mem_iff]

/-- A candidate of one order is, but for its name, one of the other. -/
theorem nameless_mem {ss' : List Sighting} (h : ss.Perm ss')
    (hmac : ∀ k, macAt T ss k = macAt T ss' k) {c : Candidate} (hc : c ∈ mergeSightings T ss) :
    ∃ c' ∈ mergeSightings T ss', c'.nameless = c.nameless := by
  have hfound := found_of_mem hc
  obtain ⟨s, hs, hkey⟩ := hfound.known
  obtain ⟨c', hc', hcovers', _, _⟩ := exists_covering (h.mem_iff.mp hs) hkey
  have hfound' := found_of_mem hc'
  have hip : c.ip = c'.ip := hfound.ip_eq hfound' (known_perm h) hmac (seenAt_perm h) (.inl rfl)
    hcovers'
  have hcmac : c.mac = c'.mac := by
    rw [← hfound.mac, hmac, hfound'.mac_of_covers hcovers']
  have hcovers : ∀ k, Covers T ss c k ↔ Covers T ss' c' k := by
    intro k
    rw [Covers, Covers, hip, hcmac, hmac]
  have hsources : c'.sources = c.sources := by
    apply GroupBy.eq_of_pairwise_lt hfound'.sorted hfound.sorted
    intro x
    rw [hfound.sources, hfound'.sources]
    simp only [hcovers, h.mem_iff]
  exact ⟨c', hc', by rw [Candidate.nameless, Candidate.nameless, hip, hcmac, hsources]⟩

/-- **The order of the sightings does not matter** where no address is seen with two MACs: the
    candidates come out the same but for their names. -/
theorem merge_perm {T : PyText} {ss ss' : List Sighting} (h : ss.Perm ss')
    (hmacs : Consistent T ss) :
    (mergeSightings T ss).map (·.nameless) = (mergeSightings T ss').map (·.nameless) := by
  have hmac : ∀ k, macAt T ss k = macAt T ss' k := macAt_perm h hmacs
  have hsorted : ∀ ss, ((mergeSightings T ss).map (·.nameless)).Pairwise
      fun a b : String × Option String × List String => a.1 < b.1 := fun ss =>
    List.pairwise_map.mpr (List.pairwise_map.mp (pairwise_collapseByMac (nodup_byIp ss)))
  apply GroupBy.eq_of_pairwise_lt (hsorted ss) (hsorted ss')
  intro x
  constructor
  · intro hx
    obtain ⟨c, hc, rfl⟩ := List.mem_map.mp hx
    obtain ⟨c', hc', heq⟩ := nameless_mem h hmac hc
    exact List.mem_map.mpr ⟨c', hc', heq⟩
  · intro hx
    obtain ⟨c, hc, rfl⟩ := List.mem_map.mp hx
    obtain ⟨c', hc', heq⟩ := nameless_mem h.symm (fun k => (hmac k).symm) hc
    exact List.mem_map.mpr ⟨c', hc', heq⟩

private def twoHosts : PyText := .ascii fun t =>
  if t = "10.0.0.1" then some (.v4 (10 * 2 ^ 24 + 1))
  else if t = "10.0.0.2" then some (.v4 (10 * 2 ^ 24 + 2))
  else none

/-- One printer before and after it was given another address, and the static list. -/
private def movedPrinter : List Sighting :=
  [⟨some "10.0.0.1", some "aa", none, "arp", some "2025-01-01"⟩,
    ⟨some "10.0.0.2", some "AA", none, "arp", some "2025-01-02"⟩,
    ⟨some "10.0.0.1", none, none, "config", none⟩]

theorem merge_perm_moved :
    (mergeSightings twoHosts movedPrinter).map (·.nameless) =
        (mergeSightings twoHosts movedPrinter.reverse).map (·.nameless) ∧
      (mergeSightings twoHosts movedPrinter).map (·.nameless) =
        [("10.0.0.2", some "AA", ["arp", "config"])] := by
  have hmacs : Consistent twoHosts movedPrinter := by
    have hone : ∀ s ∈ movedPrinter, ∀ m, s.mac.bind (normMac twoHosts) = some m → m = "AA" := by
      intro s hs m hm
      simp only [movedPrinter, List.mem_cons, List.not_mem_nil, or_false] at hs
      rcases hs with rfl | rfl | rfl
      · exact (Option.some.inj hm).symm.trans (by decide +kernel)
      · exact (Option.some.inj hm).symm.trans (by decide +kernel)
      · cases hm
    intro k s hs s' hs' m m' hm hm'
    rw [hone s (List.mem_of_mem_filter hs) m hm, hone s' (List.mem_of_mem_filter hs') m' hm']
  exact ⟨merge_perm (List.reverse_perm _).symm hmacs, by decide +kernel⟩

end Srp.Printers.Discovery
