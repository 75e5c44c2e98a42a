/-
  Srp/Db/LinkReplacement.lean
  ===========================
  **Replacing the links of the probed nodes** (`replace_net_links` of
  `server/db.py`) as an operation on the set of keys.

  The links of a call are merged into the stored ones by an operation that is
  associative and idempotent (`mergeLink_assoc`, `mergeLink_self`), so a batch
  with duplicates acts like one link for each key, and acting twice is acting
  once.
-/
import Srp.Db.NetTables

namespace Srp.Db

open Srp.Lib.Table

/-- A table of links between named nodes, each once and in canonical direction, with a kind. -/
structure CanonicalLinks (rows : List NetLinkRow) : Prop where
  keys : (rows.map (·.key)).Nodup
  direction : ∀ r ∈ rows, r.aNid < r.bNid
  named : ∀ r ∈ rows, r.aNid ≠ ""
  kinds : ∀ r ∈ rows, r.linkKind ≠ none

/-- The canonical key of a link with two distinct ends. -/
def canonicalKey (link : LinkDict) : Option (String × String × Option String) :=
  match link.aNid, link.bNid with
  | some a, some b =>
    if a = "" ∨ b = "" ∨ a = b then none else some (min a b, max a b, link.linkKind)
  | _, _ => none

def newLinkKeys (links : List LinkDict) : List (String × String × Option String) :=
  links.filterMap canonicalKey

/-! ### Merging -/

theorem mergeLink_assoc (a b c : NetLinkRow) :
    mergeLink (mergeLink a b) c = mergeLink a (mergeLink b c) := by
  simp only [mergeLink, Option.orElse_eq_orElse, Option.orElse_eq_or, Option.or_assoc]

theorem mergeLink_self (a : NetLinkRow) : mergeLink a a = a := by
  simp only [mergeLink, Option.orElse_eq_orElse, Option.orElse_eq_or, Option.or_self]

/-- A batch acts like one link. -/
theorem foldl_mergeLink (x n : NetLinkRow) (ns : List NetLinkRow) :
    (n :: ns).foldl mergeLink x = mergeLink x (ns.foldl mergeLink n) := by
  induction ns generalizing n with
  | nil => rfl
  | cons m ns ih =>
    rw [List.foldl_cons, List.foldl_cons, mergeLink_assoc]
    exact ih (mergeLink n m)

/-- The row as another call would write it. -/
def NetLinkRow.retime (recv : String) (r : NetLinkRow) : NetLinkRow :=
  { r with firstSeen := some recv, lastSeen := some recv }

theorem canonLink_retime (recv recv' : String) (link : LinkDict) :
    canonLink recv' link = (canonLink recv link).map (NetLinkRow.retime recv') := by
  unfold canonLink
  split
  · split
    · rfl
    · dsimp only
      split <;> rfl
  · rfl

theorem foldl_retime (recv : String) (n : NetLinkRow) (ns : List NetLinkRow) :
    (ns.map (NetLinkRow.retime recv)).foldl mergeLink (n.retime recv) =
      (ns.foldl mergeLink n).retime recv := by
  induction ns generalizing n with
  | nil => rfl
  | cons m ns ih =>
    rw [List.map_cons, List.foldl_cons, List.foldl_cons, ← ih]
    rfl

/-- Merged once more, a link that is already in the row changes nothing but `last_seen`. -/
theorem mergeLink_again (recv : String) (x n : NetLinkRow) :
    mergeLink (mergeLink x n) (n.retime recv) = { mergeLink x n with lastSeen := some recv } := by
  simp [mergeLink, NetLinkRow.retime, Option.orElse_eq_orElse, Option.orElse_eq_or, ← Option.or_assoc]

/-- The key of a link that is not skipped is its canonical key. -/
theorem key_canonLink (recv : String) (link : LinkDict) :
    (canonLink recv link).map (·.key) = canonicalKey link := by
  cases ha : link.aNid with
  | none => simp only [canonLink, canonicalKey, ha, Option.map_none]
  | some a =>
    cases hb : link.bNid with
    | none => simp only [canonLink, canonicalKey, ha, hb, Option.map_none]
    | some b =>
      simp only [canonLink, canonicalKey, ha, hb]
      by_cases hskip : a = "" ∨ b = "" ∨ a = b
      · rw [if_pos hskip, if_pos hskip, Option.map_none]
      · rw [if_neg hskip, if_neg hskip, Option.map_some]
        by_cases hba : b < a
        · rw [if_pos hba, min_eq_right hba.le, max_eq_left hba.le]
          rfl
        · rw [if_neg hba, min_eq_left (not_lt.mp hba), max_eq_right (not_lt.mp hba)]
          rfl

theorem keys_canonLinks (recv : String) (links : List LinkDict) :
    (links.filterMap (canonLink recv)).map (·.key) = newLinkKeys links := by
  rw [newLinkKeys, List.map_filterMap]
  simp only [key_canonLink]

/-- A row that a link is turned into is canonical. -/
theorem canonLink_canonical {recv : String} {link : LinkDict} {r : NetLinkRow}
    (h : canonLink recv link = some r) :
    r.aNid < r.bNid ∧ r.aNid ≠ "" ∧ r.linkKind = link.linkKind := by
  unfold canonLink at h
  split at h
  · rename_i a b _ _
    split at h
    · cases h
    · rename_i hskip
      rw [not_or, not_or] at hskip
      obtain ⟨ha, hb, hne⟩ := hskip
      cases h
      dsimp only
      by_cases hba : b < a
      · rw [if_pos hba]
        exact ⟨hba, hb, rfl⟩
      · rw [if_neg hba]
        exact ⟨lt_of_le_of_ne (not_lt.mp hba) hne, ha, rfl⟩
  · cases h

/-! ### One call as an `executemany` -/

theorem key_mergeLink (old new : NetLinkRow) (hkey : old.key = new.key) :
    (mergeLink old new).key = new.key := hkey

theorem foldl_insertLink {canon : List NetLinkRow} (hkinds : ∀ r ∈ canon, r.linkKind ≠ none)
    (rows : List NetLinkRow) :
    canon.foldl insertLink rows = upsertAll NetLinkRow.key mergeLink canon rows := by
  induction canon generalizing rows with
  | nil => rfl
  | cons new canon ih =>
    obtain ⟨hnew, hkinds⟩ := List.forall_mem_cons.mp hkinds
    rw [List.foldl_cons, ih hkinds, upsertAll_cons, insertLink, if_neg hnew]

section Replacement

variable {links : List LinkDict} {nodeNids : List String} {rows : List NetLinkRow}

instance lawfulBEqLinkKey : LawfulBEq (String × String × Option String) := inferInstance

/-- The rows that a call does not delete. -/
def keptRows (links : List LinkDict) (nodeNids : List String) (rows : List NetLinkRow) :
    List NetLinkRow :=
  rows.filter fun r => ¬ (Incident (nodeNids.filter (· ≠ "")) r ∧ r.key ∉ newLinkKeys links)

theorem canonLinks_canonical (hkinds : ∀ link ∈ links, link.linkKind ≠ none) (recv : String) :
    ∀ r ∈ links.filterMap (canonLink recv),
      r.aNid < r.bNid ∧ r.aNid ≠ "" ∧ r.linkKind ≠ none := by
  intro r hr
  obtain ⟨link, hlink, hrow⟩ := List.mem_filterMap.mp hr
  obtain ⟨hlt, ha, hkind⟩ := canonLink_canonical hrow
  exact ⟨hlt, ha, hkind ▸ hkinds link hlink⟩

theorem incident_of_key_eq {nodes : List String} {r s : NetLinkRow} (h : r.key = s.key) :
    Incident nodes r ↔ Incident nodes s := by
  have ha : r.aNid = s.aNid := congrArg (·.1) h
  have hb : r.bNid = s.bNid := congrArg (·.2.1) h
  rw [Incident, Incident, ha, hb]

theorem replaceNetLinks_eq (hkinds : ∀ link ∈ links, link.linkKind ≠ none) (recv : String) :
    replaceNetLinks links nodeNids recv rows =
      upsertAll NetLinkRow.key mergeLink (links.filterMap (canonLink recv))
        (keptRows links nodeNids rows) := by
  unfold replaceNetLinks keptRows
  rw [foldl_insertLink fun r hr => (canonLinks_canonical hkinds recv r hr).2.2, keys_canonLinks]
  congr 1
  refine List.filter_congr fun r hr => decide_eq_decide.mpr (not_congr ?_)
  simp only [List.mem_filter, List.mem_map, decide_eq_true_eq]
  constructor
  · rintro ⟨⟨s, ⟨_, hinc⟩, hkey⟩, hnew⟩
    exact ⟨(incident_of_key_eq hkey).mp hinc, hnew⟩
  · rintro ⟨hinc, hnew⟩
    exact ⟨⟨r, ⟨hr, hinc⟩, rfl⟩, hnew⟩

theorem nodup_keptRows (h : (rows.map (·.key)).Nodup) :
    ((keptRows links nodeNids rows).map (·.key)).Nodup :=
  h.sublist (List.Sublist.map _ List.filter_sublist)

theorem nodup_keys_replaceNetLinks (hkinds : ∀ link ∈ links, link.linkKind ≠ none)
    (recv : String) (h : (rows.map (·.key)).Nodup) :
    ((replaceNetLinks links nodeNids recv rows).map (·.key)).Nodup := by
  rw [replaceNetLinks_eq hkinds]
  exact nodup_keys_upsertAll key_mergeLink _ (nodup_keptRows h)

theorem canonicalLinks_replaceNetLinks (hkinds : ∀ link ∈ links, link.linkKind ≠ none)
    (recv : String) (hrows : CanonicalLinks rows) :
    CanonicalLinks (replaceNetLinks links nodeNids recv rows) := by
  -- the invariant of a single row is a property of its key
  have hrow : ∀ r ∈ replaceNetLinks links nodeNids recv rows,
      r.aNid < r.bNid ∧ r.aNid ≠ "" ∧ r.linkKind ≠ none := by
    intro r hr
    have hkey := mem_keys_replaceNetLinks.mp (List.mem_map_of_mem hr)
    have hof : ∃ s : NetLinkRow,
        (s.aNid < s.bNid ∧ s.aNid ≠ "" ∧ s.linkKind ≠ none) ∧ s.key = r.key := by
      rcases hkey with hnew | ⟨hold, _⟩
      · obtain ⟨s, hs, hkey⟩ := List.mem_map.mp hnew
        exact ⟨s, canonLinks_canonical hkinds recv s hs, hkey⟩
      · obtain ⟨s, hs, hkey⟩ := List.mem_map.mp hold
        exact ⟨s, ⟨hrows.direction s hs, hrows.named s hs, hrows.kinds s hs⟩, hkey⟩
    obtain ⟨s, hs, hkey⟩ := hof
    have ha : s.aNid = r.aNid := congrArg (·.1) hkey
    have hb : s.bNid = r.bNid := congrArg (·.2.1) hkey
    have hkind : s.linkKind = r.linkKind := congrArg (·.2.2) hkey
    rwa [ha, hb, hkind] at hs
  constructor
  · exact nodup_keys_replaceNetLinks hkinds recv hrows.keys
  · exact fun r hr => (hrow r hr).1
  · exact fun r hr => (hrow r hr).2.1
  · exact fun r hr => (hrow r hr).2.2

/-- The row of a key after a call, from the merged links of that key. -/
theorem row_replaceNetLinks (hkinds : ∀ link ∈ links, link.linkKind ≠ none) (recv : String)
    (k : String × String × Option String) :
    row NetLinkRow.key (replaceNetLinks links nodeNids recv rows) k =
      ((links.filterMap (canonLink recv)).filter fun new => new.key = k).foldl
        (fun old new => some ((old.map fun old => mergeLink old new).getD new))
        (row NetLinkRow.key (keptRows links nodeNids rows) k) := by
  rw [replaceNetLinks_eq hkinds]
  exact row_upsertAll key_mergeLink _ _ k

theorem firstSeen_foldl_mergeLink (x : NetLinkRow) (ns : List NetLinkRow) :
    (ns.foldl mergeLink x).firstSeen = x.firstSeen := by
  induction ns generalizing x with
  | nil => rfl
  | cons n ns ih => exact ih (mergeLink x n)

/-- A key that was there and still is keeps its `first_seen`. -/
theorem firstSeen_replaceNetLinks (hkinds : ∀ link ∈ links, link.linkKind ≠ none)
    (recv : String) (hrows : (rows.map (·.key)).Nodup) {r s : NetLinkRow} (hr : r ∈ rows)
    (hs : s ∈ replaceNetLinks links nodeNids recv rows) (hkey : s.key = r.key) :
    s.firstSeen = r.firstSeen := by
  have hnodup : ((replaceNetLinks links nodeNids recv rows).map (·.key)).Nodup :=
    nodup_keys_replaceNetLinks hkinds recv hrows
  have hkept : r ∈ keptRows links nodeNids rows := by
    refine List.mem_filter.mpr ⟨hr, decide_eq_true ?_⟩
    rintro ⟨hinc, hnew⟩
    have hmem := mem_keys_replaceNetLinks.mp (List.mem_map_of_mem hs)
    rw [keys_canonLinks, hkey] at hmem
    rcases hmem with hmem | ⟨_, ha, hb⟩
    · exact hnew hmem
    · exact hinc.elim ha hb
  have hrow := row_of_mem hnodup hs
  rw [row_replaceNetLinks hkinds, hkey, row_of_mem (nodup_keptRows hrows) hkept,
    foldl_merge_some] at hrow
  rw [← Option.some.inj hrow, firstSeen_foldl_mergeLink]

/-! ### The second call -/

/-- A row of the result whose key is new is one into which the whole batch of that key has been
    merged. -/
theorem absorbed_replaceNetLinks (hkinds : ∀ link ∈ links, link.linkKind ≠ none)
    (recv : String) (hrows : (rows.map (·.key)).Nodup) {r n : NetLinkRow}
    {ns : List NetLinkRow} (hr : r ∈ replaceNetLinks links nodeNids recv rows)
    (hbatch : (links.filterMap (canonLink recv)).filter (fun new => new.key = r.key) = n :: ns) :
    ∃ x, r = mergeLink x (ns.foldl mergeLink n) := by
  have hnodup : ((replaceNetLinks links nodeNids recv rows).map (·.key)).Nodup :=
    nodup_keys_replaceNetLinks hkinds recv hrows
  have hrow := row_of_mem hnodup hr
  rw [row_replaceNetLinks hkinds, hbatch, List.foldl_cons, foldl_merge_some] at hrow
  cases hold : row NetLinkRow.key (keptRows links nodeNids rows) r.key with
  | none =>
    rw [hold, Option.map_none, Option.getD_none] at hrow
    refine ⟨ns.foldl mergeLink n, ?_⟩
    rw [mergeLink_self]
    exact (Option.some.inj hrow).symm
  | some x =>
    rw [hold, Option.map_some, Option.getD_some] at hrow
    refine ⟨x, ?_⟩
    rw [← foldl_mergeLink, List.foldl_cons]
    exact (Option.some.inj hrow).symm

/-- The refreshed row of a second call: a link that is reported again is seen again. -/
def NetLinkRow.seenAgain (links : List LinkDict) (recv : String) (r : NetLinkRow) : NetLinkRow :=
  if r.key ∈ newLinkKeys links then { r with lastSeen := some recv } else r

theorem canonLinks_retime (recv recv' : String) (links : List LinkDict) :
    links.filterMap (canonLink recv') =
      (links.filterMap (canonLink recv)).map (NetLinkRow.retime recv') := by
  rw [List.map_filterMap]
  simp only [← canonLink_retime]

/-- After a call nothing at the probed nodes is stale. -/
theorem keptRows_replaceNetLinks (recv : String) :
    keptRows links nodeNids (replaceNetLinks links nodeNids recv rows) =
      replaceNetLinks links nodeNids recv rows := by
  rw [keptRows, List.filter_eq_self]
  intro r hr
  refine decide_eq_true ?_
  rintro ⟨hinc, hnew⟩
  have hmem := mem_keys_replaceNetLinks.mp (List.mem_map_of_mem hr)
  rw [keys_canonLinks] at hmem
  rcases hmem with hmem | ⟨_, ha, hb⟩
  · exact hnew hmem
  · exact hinc.elim ha hb

theorem replaceNetLinks_again (hkinds : ∀ link ∈ links, link.linkKind ≠ none)
    (recv recv' : String) (hrows : (rows.map (·.key)).Nodup) :
    replaceNetLinks links nodeNids recv' (replaceNetLinks links nodeNids recv rows) =
      (replaceNetLinks links nodeNids recv rows).map (NetLinkRow.seenAgain links recv') := by
  have hnodup : ((replaceNetLinks links nodeNids recv rows).map (·.key)).Nodup :=
    nodup_keys_replaceNetLinks hkinds recv hrows
  have hkeys : ∀ new ∈ links.filterMap (canonLink recv'),
      new.key ∈ (replaceNetLinks links nodeNids recv rows).map (·.key) := by
    intro new hnew
    rw [mem_keys_replaceNetLinks, keys_canonLinks, ← keys_canonLinks recv']
    exact Or.inl (List.mem_map_of_mem hnew)
  rw [replaceNetLinks_eq hkinds recv', keptRows_replaceNetLinks,
    upsertAll_of_mem key_mergeLink hnodup hkeys]
  refine List.map_congr_left fun r hr => ?_
  rw [canonLinks_retime recv recv', List.filter_map]
  cases hbatch : (links.filterMap (canonLink recv)).filter (fun new => new.key = r.key) with
  | nil =>
    have hnew : r.key ∉ newLinkKeys links := by
      rw [← keys_canonLinks recv]
      intro hmem
      obtain ⟨s, hs, hkey⟩ := List.mem_map.mp hmem
      have : s ∈ (links.filterMap (canonLink recv)).filter (fun new => new.key = r.key) :=
        List.mem_filter.mpr ⟨hs, decide_eq_true hkey⟩
      rw [hbatch] at this
      cases this
    rw [NetLinkRow.seenAgain, if_neg hnew]
    exact congrArg (fun ns => (ns.map (NetLinkRow.retime recv')).foldl mergeLink r) hbatch
  | cons n ns =>
    have hnew : r.key ∈ newLinkKeys links := by
      have hn : n ∈ (links.filterMap (canonLink recv)).filter (fun new => new.key = r.key) :=
        hbatch ▸ List.mem_cons_self
      obtain ⟨hn, hkey⟩ := List.mem_filter.mp hn
      rw [← keys_canonLinks recv, ← of_decide_eq_true hkey]
      exact List.mem_map_of_mem hn
    obtain ⟨x, hx⟩ := absorbed_replaceNetLinks hkinds recv hrows hr hbatch
    rw [NetLinkRow.seenAgain, if_pos hnew]
    calc _ = ((n :: ns).map (NetLinkRow.retime recv')).foldl mergeLink r :=
          congrArg (fun ns => (ns.map (NetLinkRow.retime recv')).foldl mergeLink r) hbatch
      _ = mergeLink r ((ns.foldl mergeLink n).retime recv') := by
          rw [List.map_cons, foldl_mergeLink, foldl_retime]
      _ = { r with lastSeen := some recv' } := by
          rw [hx, mergeLink_again]

end Replacement

/-! ### The refinement -/

/-- A call replaces the set of keys at the probed nodes by the new keys; a key that stays keeps
    its `first_seen`, a row that the call is not about stays as it is, and a second identical
    call only moves `last_seen`. -/
theorem replaceNetLinks_refines (links : List LinkDict) (nodeNids : List String)
    (recv recv' : String) (rows : List NetLinkRow) (hrows : CanonicalLinks rows)
    (hkinds : ∀ link ∈ links, link.linkKind ≠ none) :
    let after := replaceNetLinks links nodeNids recv rows
    CanonicalLinks after ∧
      (∀ k, k ∈ after.map (·.key) ↔
        (k ∈ rows.map (·.key) ∧ k.1 ∉ nodeNids ∧ k.2.1 ∉ nodeNids) ∨ k ∈ newLinkKeys links) ∧
      (∀ r ∈ rows, ∀ s ∈ after, s.key = r.key → s.firstSeen = r.firstSeen) ∧
      (∀ r ∈ rows, ¬ Incident nodeNids r → r.key ∉ newLinkKeys links → r ∈ after) ∧
      replaceNetLinks links nodeNids recv' after =
        after.map fun r =>
          if r.key ∈ newLinkKeys links then { r with lastSeen := some recv' } else r := by
  intro after
  refine ⟨canonicalLinks_replaceNetLinks hkinds recv hrows, fun k => ?_, ?_, ?_,
    replaceNetLinks_again hkinds recv recv' hrows.keys⟩
  · rw [mem_keys_replaceNetLinks, keys_canonLinks, or_comm]
    refine or_congr_left (and_congr_right fun hold => ?_)
    obtain ⟨r, hr, rfl⟩ := List.mem_map.mp hold
    -- an end of a stored link is never the empty text that `node_nids` drops
    have ha : r.key.1 ≠ "" := hrows.named r hr
    have hb : r.key.2.1 ≠ "" := by
      intro hb
      have hlt := hrows.direction r hr
      have hbNid : r.bNid = "" := hb
      rw [hbNid, String.lt_iff_toList_lt] at hlt
      exact List.not_lt_nil _ hlt
    simp [List.mem_filter, ha, hb]
  · intro r hr s hs hkey
    exact firstSeen_replaceNetLinks hkinds recv hrows.keys hr hs hkey
  · intro r hr hfree hnew
    refine mem_replaceNetLinks hr (by rwa [keys_canonLinks]) ?_
    rintro (ha | hb)
    · exact hfree (Or.inl (List.mem_filter.mp ha).1)
    · exact hfree (Or.inr (List.mem_filter.mp hb).1)

def storedLinks : List NetLinkRow :=
  [{ aNid := "n1", bNid := "n2", aIf := some 7, linkKind := some "lldp", medium := some "wired",
     firstSeen := some "t0", lastSeen := some "t0" },
   { aNid := "n1", bNid := "n3", linkKind := some "fdb", firstSeen := some "t0" },
   { aNid := "n3", bNid := "n4", linkKind := some "fdb", firstSeen := some "t0" }]

theorem storedLinks_canonical : CanonicalLinks storedLinks where
  keys := by decide
  direction := by decide
  named := by decide
  kinds := by decide

/-- The link of the probed node, reported from its other end and twice. -/
def reportedLinks : List LinkDict :=
  [{ aNid := some "n2", bNid := some "n1", bPort := some "Gi1", linkKind := some "lldp" },
   { aNid := some "n1", bNid := some "n2", bIf := some 9, linkKind := some "lldp" }]

theorem reportedLinks_kinds : ∀ link ∈ reportedLinks, link.linkKind ≠ none := by decide

theorem replaceNetLinks_refines_reported :
    CanonicalLinks (replaceNetLinks reportedLinks ["n1"] "t1" storedLinks) ∧
      ∀ r ∈ storedLinks, ∀ s ∈ replaceNetLinks reportedLinks ["n1"] "t1" storedLinks,
        s.key = r.key → s.firstSeen = r.firstSeen :=
  have h := replaceNetLinks_refines reportedLinks ["n1"] "t1" "t2" storedLinks
    storedLinks_canonical reportedLinks_kinds
  ⟨h.1, h.2.2.1⟩

end Srp.Db
