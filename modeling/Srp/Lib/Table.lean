/-
  Srp/Lib/Table.lean
  ==================
  **Keyed tables as lists of rows.**

  `upsert` is `INSERT ... ON CONFLICT (key) DO UPDATE`: the row with the key of
  the new one is merged with it, and when there is none the new row is appended.
  `row` is the lookup by key.  As long as a merge keeps the key, a table with
  distinct keys is a finite map, and the lemmas compute that map.
-/
import Mathlib.Data.List.Basic
import Mathlib.Data.List.Nodup

namespace Srp.Lib.Table

variable {ρ κ : Type} [DecidableEq κ] (key : ρ → κ)

def upsert (merge : ρ → ρ → ρ) (new : ρ) : List ρ → List ρ
  | [] => [new]
  | r :: rows => if key r = key new then merge r new :: rows else r :: upsert merge new rows

def row (rows : List ρ) (k : κ) : Option ρ := rows.find? fun r => key r = k

variable {key}

theorem row_eq_some {rows : List ρ} {k : κ} {r : ρ} (h : row key rows k = some r) :
    r ∈ rows ∧ key r = k := by
  unfold row at h
  exact ⟨List.mem_of_find?_eq_some h, by simpa using List.find?_some h⟩

/-- With distinct keys every row is found under its key. -/
theorem row_of_mem {rows : List ρ} (hnodup : (rows.map key).Nodup) {r : ρ} (hr : r ∈ rows) :
    row key rows (key r) = some r := by
  cases hrow : row key rows (key r) with
  | none =>
    have := List.find?_eq_none.mp hrow r hr
    simp at this
  | some r' =>
    obtain ⟨hr', hkey⟩ := row_eq_some hrow
    rw [List.inj_on_of_nodup_map hnodup hr' hr hkey]

theorem row_eq_none {rows : List ρ} {k : κ} : row key rows k = none ↔ k ∉ rows.map key := by
  unfold row
  simp

/-- A filter that takes every row of a key does not change what stands under the key. -/
theorem row_filter {p : ρ → Bool} {k : κ} (hp : ∀ r, key r = k → p r = true) (rows : List ρ) :
    row key (rows.filter p) k = row key rows k := by
  unfold row
  rw [List.find?_filter]
  congr 1
  funext r
  by_cases hr : key r = k
  · simp [hr, hp r hr]
  · simp [hr]

/-- `List.lookup` looks a dictionary up by its keys. -/
theorem lookup_eq_row {β : Type} (entries : List (κ × β)) (k : κ) :
    entries.lookup k = (row Prod.fst entries k).map Prod.snd := by
  unfold row
  induction entries with
  | nil => rfl
  | cons e entries ih =>
    rw [List.lookup_cons, List.find?_cons]
    by_cases hk : e.1 = k
    · simp [hk]
    · rw [beq_eq_false_iff_ne.mpr (Ne.symm hk), ih]
      simp [hk]

theorem row_map {f : ρ → ρ} (hkey : ∀ r, key (f r) = key r) (rows : List ρ) (k : κ) :
    row key (rows.map f) k = (row key rows k).map f := by
  unfold row
  rw [List.find?_map]
  simp only [Function.comp_def, hkey]

/-- An update that stays within the rows outside `p` does not show in those of `p`. -/
theorem filter_map_of_fixed {f : ρ → ρ} {p : ρ → Bool} {rows : List ρ}
    (hp : ∀ r ∈ rows, p (f r) = p r) (hfix : ∀ r ∈ rows, p r = true → f r = r) :
    (rows.map f).filter p = rows.filter p := by
  induction rows with
  | nil => rfl
  | cons r rows ih =>
    have ih := ih (fun s hs => hp s (List.mem_cons_of_mem r hs))
      fun s hs => hfix s (List.mem_cons_of_mem r hs)
    rw [List.map_cons, List.filter_cons, List.filter_cons, hp r List.mem_cons_self, ih]
    split
    · rename_i hkeep
      rw [hfix r List.mem_cons_self hkeep]
    · rfl

/-! ### `upsert` -/

section Upsert

variable {merge : ρ → ρ → ρ} {new : ρ}

theorem row_upsert (hmerge : ∀ old, key old = key new → key (merge old new) = key new)
    (rows : List ρ) (k : κ) :
    row key (upsert key merge new rows) k =
      if k = key new then some (((row key rows k).map fun old => merge old new).getD new)
      else row key rows k := by
  induction rows with
  | nil =>
    by_cases hk : k = key new
    · simp [upsert, row, hk]
    · have hk' : ¬ key new = k := fun h => hk h.symm
      simp [upsert, row, hk, hk']
  | cons r rows ih =>
    unfold upsert
    unfold row at ih ⊢
    by_cases hr : key r = key new
    · rw [if_pos hr]
      by_cases hk : k = key new
      · simp [hk, hr, hmerge r hr]
      · have hk' : ¬ key new = k := fun h => hk h.symm
        simp [hk, hk', hr, hmerge r hr]
    · rw [if_neg hr]
      by_cases hrk : key r = k
      · have hk : ¬ k = key new := fun h => hr (hrk.trans h)
        simp [hrk, hk]
      · simp only [List.find?_cons, hrk, decide_false]
        exact ih

theorem keys_upsert (hmerge : ∀ old, key old = key new → key (merge old new) = key new)
    (rows : List ρ) : (upsert key merge new rows).map key =
      if key new ∈ rows.map key then rows.map key else rows.map key ++ [key new] := by
  induction rows with
  | nil => simp [upsert]
  | cons r rows ih =>
    unfold upsert
    by_cases hr : key r = key new
    · simp [hr, hmerge r hr]
    · rw [if_neg hr, List.map_cons, ih, List.map_cons]
      have hr' : ¬ key new = key r := fun h => hr h.symm
      by_cases hmem : key new ∈ rows.map key
      · rw [if_pos hmem, if_pos (List.mem_cons_of_mem _ hmem)]
      · rw [if_neg hmem, if_neg]
        · rfl
        · rw [List.mem_cons]
          exact not_or.mpr ⟨hr', hmem⟩

theorem mem_keys_upsert (hmerge : ∀ old, key old = key new → key (merge old new) = key new)
    {rows : List ρ} {k : κ} :
    k ∈ (upsert key merge new rows).map key ↔ k = key new ∨ k ∈ rows.map key := by
  rw [keys_upsert hmerge]
  by_cases hmem : key new ∈ rows.map key
  · rw [if_pos hmem]
    constructor
    · exact Or.inr
    · rintro (rfl | h)
      · exact hmem
      · exact h
  · rw [if_neg hmem, List.mem_append, List.mem_singleton, or_comm]

theorem nodup_keys_upsert (hmerge : ∀ old, key old = key new → key (merge old new) = key new)
    {rows : List ρ} (h : (rows.map key).Nodup) :
    ((upsert key merge new rows).map key).Nodup := by
  rw [keys_upsert hmerge]
  by_cases hmem : key new ∈ rows.map key
  · rw [if_pos hmem]
    exact h
  · rw [if_neg hmem, List.nodup_append]
    refine ⟨h, List.nodup_singleton _, ?_⟩
    rintro a ha b hb rfl
    rw [List.mem_singleton] at hb
    exact hmem (hb ▸ ha)

theorem mem_upsert_of_ne {rows : List ρ} {r : ρ} (hr : r ∈ rows) (hne : key r ≠ key new) :
    r ∈ upsert key merge new rows := by
  induction rows with
  | nil => cases hr
  | cons old rows ih =>
    simp only [upsert]
    rcases List.mem_cons.mp hr with rfl | hr
    · rw [if_neg hne]
      exact List.mem_cons_self
    · split
      · exact List.mem_cons_of_mem _ hr
      · exact List.mem_cons_of_mem _ (ih hr)

/-- A row of the new table is an old one, the new one, or the new one merged into an old one. -/
theorem mem_upsert {rows : List ρ} {r : ρ} (h : r ∈ upsert key merge new rows) :
    r ∈ rows ∨ r = new ∨ ∃ old ∈ rows, r = merge old new := by
  induction rows with
  | nil => exact Or.inr (Or.inl (List.mem_singleton.mp h))
  | cons old rows ih =>
    simp only [upsert] at h
    split at h
    · rcases List.mem_cons.mp h with rfl | hr
      · exact Or.inr (Or.inr ⟨old, List.mem_cons_self, rfl⟩)
      · exact Or.inl (List.mem_cons_of_mem old hr)
    · rcases List.mem_cons.mp h with rfl | hr
      · exact Or.inl List.mem_cons_self
      · rcases ih hr with hr | rfl | ⟨old', hold, rfl⟩
        · exact Or.inl (List.mem_cons_of_mem old hr)
        · exact Or.inr (Or.inl rfl)
        · exact Or.inr (Or.inr ⟨old', List.mem_cons_of_mem old hold, rfl⟩)

theorem upsert_of_not_mem {rows : List ρ} (h : key new ∉ rows.map key) :
    upsert key merge new rows = rows ++ [new] := by
  induction rows with
  | nil => rfl
  | cons r rows ih =>
    rw [List.map_cons, List.mem_cons, not_or] at h
    simp only [upsert]
    rw [if_neg (Ne.symm h.1), ih h.2, List.cons_append]

theorem upsert_of_mem {rows : List ρ} (hnodup : (rows.map key).Nodup)
    (hnew : key new ∈ rows.map key) :
    upsert key merge new rows = rows.map fun r => if key r = key new then merge r new else r := by
  induction rows with
  | nil => cases hnew
  | cons r rows ih =>
    rw [List.map_cons, List.nodup_cons] at hnodup
    simp only [upsert, List.map_cons]
    by_cases hr : key r = key new
    · rw [if_pos hr, if_pos hr]
      congr 1
      -- no later row has the key of `new`
      refine (List.map_id' rows).symm.trans (List.map_congr_left fun s hs => ?_)
      rw [if_neg]
      intro hs'
      exact hnodup.1 (hr.trans hs'.symm ▸ List.mem_map_of_mem hs)
    · rw [if_neg hr, if_neg hr]
      congr 1
      apply ih hnodup.2
      rw [List.map_cons, List.mem_cons] at hnew
      exact hnew.resolve_left (Ne.symm hr)

/-- A projection that keeps the key and the merge commutes with an upsert. -/
theorem map_upsert {ρ' : Type} {key' : ρ' → κ} {merge' : ρ' → ρ' → ρ'} (f : ρ → ρ')
    (hkey : ∀ r, key' (f r) = key r) (hmerge : ∀ a b, f (merge a b) = merge' (f a) (f b))
    (new : ρ) (rows : List ρ) :
    (upsert key merge new rows).map f = upsert key' merge' (f new) (rows.map f) := by
  induction rows with
  | nil => rfl
  | cons r rows ih =>
    simp only [upsert, List.map_cons, hkey]
    split
    · rw [List.map_cons, hmerge]
    · rw [List.map_cons, ih]

/-- An upsert leaves the rows of the other keys in place. -/
theorem filter_upsert (hmerge : ∀ old, key old = key new → key (merge old new) = key new)
    {p : ρ → Bool} (hp : ∀ r, key r = key new → p r = false) (rows : List ρ) :
    (upsert key merge new rows).filter p = rows.filter p := by
  induction rows with
  | nil => simp [upsert, hp new rfl]
  | cons r rows ih =>
    simp only [upsert]
    split
    · rename_i hr
      rw [List.filter_cons_of_neg (by simp [hp _ (hmerge r hr)]),
        List.filter_cons_of_neg (by simp [hp r hr])]
    · rw [List.filter_cons, List.filter_cons, ih]

end Upsert

/-! ### `INSERT OR IGNORE` -/

section InsertOrIgnore

variable {key? : ρ → Option κ}

/-- `INSERT OR IGNORE`; a row without a key (one with a NULL in it) conflicts with none. -/
def insertOrIgnore (key? : ρ → Option κ) (rows : List ρ) (new : ρ) : List ρ :=
  match key? new with
  | some k => if k ∈ rows.filterMap key? then rows else rows ++ [new]
  | none => rows ++ [new]

/-- The row conflicts with none of `rows`. -/
def Fresh (key? : ρ → Option κ) (rows : List ρ) (r : ρ) : Prop :=
  ∀ k ∈ key? r, k ∉ rows.filterMap key?

instance Fresh.decidable (rows : List ρ) (r : ρ) : Decidable (Fresh key? rows r) :=
  inferInstanceAs (Decidable (∀ k ∈ key? r, k ∉ rows.filterMap key?))

theorem insertOrIgnore_of_fresh {rows : List ρ} {new : ρ} (h : Fresh key? rows new) :
    insertOrIgnore key? rows new = rows ++ [new] := by
  unfold insertOrIgnore
  split
  · rename_i k hk
    rw [if_neg (h k hk)]
  · rfl

theorem insertOrIgnore_of_not_fresh {rows : List ρ} {new : ρ} (h : ¬ Fresh key? rows new) :
    insertOrIgnore key? rows new = rows := by
  unfold insertOrIgnore
  split
  · rename_i k hk
    rw [if_pos]
    by_contra hfree
    apply h
    intro k' hk'
    rw [hk] at hk'
    cases hk'
    exact hfree
  · rename_i hnone
    refine absurd ?_ h
    intro k hk
    rw [hnone] at hk
    cases hk

/-- New rows that do not conflict with each other: those that conflict with no old one are
    appended. -/
theorem foldl_insertOrIgnore {news : List ρ} (hnews : (news.filterMap key?).Nodup)
    (rows : List ρ) : news.foldl (insertOrIgnore key?) rows =
      rows ++ news.filter fun r => decide (Fresh key? rows r) := by
  induction news generalizing rows with
  | nil => simp
  | cons new news ih =>
    have htail : (news.filterMap key?).Nodup :=
      hnews.sublist ((List.sublist_cons_self new news).filterMap key?)
    rw [List.foldl_cons]
    by_cases hfresh : Fresh key? rows new
    · rw [insertOrIgnore_of_fresh hfresh, ih htail, List.filter_cons_of_pos (by simpa using hfresh),
        List.append_assoc, List.singleton_append]
      congr 2
      -- the row just added takes a key that none of the later ones has
      refine List.filter_congr fun r hr => ?_
      rw [decide_eq_decide]
      simp only [Fresh, List.filterMap_append, List.mem_append, not_or]
      constructor
      · intro h k hk
        exact (h k hk).1
      · intro h k hk
        refine ⟨h k hk, ?_⟩
        intro hnew
        have hkey : key? new = some k := by simpa [List.mem_filterMap] using hnew
        rw [List.filterMap_cons_some hkey, List.nodup_cons] at hnews
        exact hnews.1 (List.mem_filterMap.mpr ⟨r, hr, hk⟩)
    · rw [insertOrIgnore_of_not_fresh hfresh, ih htail,
        List.filter_cons_of_neg (by simpa using hfresh)]

theorem nodup_foldl_insertOrIgnore {rows : List ρ} (h : (rows.filterMap key?).Nodup)
    (news : List ρ) : ((news.foldl (insertOrIgnore key?) rows).filterMap key?).Nodup := by
  induction news generalizing rows with
  | nil => exact h
  | cons new news ih =>
    apply ih
    by_cases hfresh : Fresh key? rows new
    · rw [insertOrIgnore_of_fresh hfresh, List.filterMap_append]
      cases hk : key? new with
      | none =>
        rw [List.filterMap_cons_none hk, List.filterMap_nil, List.append_nil]
        exact h
      | some k =>
        rw [List.filterMap_cons_some hk, List.filterMap_nil, List.nodup_append]
        refine ⟨h, List.nodup_singleton k, ?_⟩
        rintro a ha b hb rfl
        rw [List.mem_singleton] at hb
        subst hb
        exact hfresh a hk ha
    · rw [insertOrIgnore_of_not_fresh hfresh]
      exact h

theorem mem_keys_insertOrIgnore {rows : List ρ} {new : ρ} {k : κ} :
    k ∈ (insertOrIgnore key? rows new).filterMap key? ↔
      k ∈ rows.filterMap key? ∨ key? new = some k := by
  by_cases hfresh : Fresh key? rows new
  · rw [insertOrIgnore_of_fresh hfresh, List.filterMap_append, List.mem_append]
    simp [List.mem_filterMap]
  · rw [insertOrIgnore_of_not_fresh hfresh]
    refine ⟨Or.inl, fun h => h.elim id fun hk => ?_⟩
    by_contra hfree
    apply hfresh
    intro k' hk'
    rw [hk] at hk'
    cases hk'
    exact hfree

theorem mem_keys_foldl_insertOrIgnore {news rows : List ρ} {k : κ} :
    k ∈ (news.foldl (insertOrIgnore key?) rows).filterMap key? ↔
      k ∈ rows.filterMap key? ∨ k ∈ news.filterMap key? := by
  induction news generalizing rows with
  | nil => simp
  | cons new news ih =>
    rw [List.foldl_cons, ih, mem_keys_insertOrIgnore, or_assoc]
    simp only [List.mem_filterMap, List.exists_mem_cons_iff]

theorem mem_foldl_insertOrIgnore {news rows : List ρ} {r : ρ}
    (h : r ∈ news.foldl (insertOrIgnore key?) rows) : r ∈ rows ∨ r ∈ news := by
  induction news generalizing rows with
  | nil => exact Or.inl h
  | cons new news ih =>
    rcases ih h with hrow | hnew
    · by_cases hfresh : Fresh key? rows new
      · rw [insertOrIgnore_of_fresh hfresh, List.mem_append, List.mem_singleton] at hrow
        rcases hrow with hrow | rfl
        · exact Or.inl hrow
        · exact Or.inr List.mem_cons_self
      · rw [insertOrIgnore_of_not_fresh hfresh] at hrow
        exact Or.inl hrow
    · exact Or.inr (List.mem_cons_of_mem new hnew)

end InsertOrIgnore

/-! ### `executemany` -/

section UpsertAll

variable {merge : ρ → ρ → ρ}

/-- One upsert for each of `news`, in order. -/
def upsertAll (key : ρ → κ) (merge : ρ → ρ → ρ) (news rows : List ρ) : List ρ :=
  news.foldl (fun rows new => upsert key merge new rows) rows

@[simp] theorem upsertAll_cons (new : ρ) (news rows : List ρ) :
    upsertAll key merge (new :: news) rows = upsertAll key merge news (upsert key merge new rows) :=
  rfl

/-- New rows with distinct keys, none of them in the table, are appended. -/
theorem upsertAll_of_fresh {news rows : List ρ} (h : ((rows ++ news).map key).Nodup) :
    upsertAll key merge news rows = rows ++ news := by
  induction news generalizing rows with
  | nil => simp [upsertAll]
  | cons new news ih =>
    have hnew : key new ∉ rows.map key := by
      rw [List.map_append, List.nodup_append] at h
      intro hmem
      exact h.2.2 _ hmem _ List.mem_cons_self rfl
    rw [upsertAll_cons, upsert_of_not_mem hnew, ih (by simpa using h), List.append_assoc,
      List.singleton_append]

/-- New rows with distinct keys: the ones whose key is not in the table are added. -/
theorem keys_upsertAll
    (hmerge : ∀ old new, key old = key new → key (merge old new) = key new)
    {news : List ρ} (hnews : (news.map key).Nodup) (rows : List ρ) :
    (upsertAll key merge news rows).map key =
      rows.map key ++ (news.map key).filter fun k => k ∉ rows.map key := by
  induction news generalizing rows with
  | nil => simp [upsertAll]
  | cons new news ih =>
    rw [List.map_cons, List.nodup_cons] at hnews
    rw [upsertAll_cons, ih hnews.2, keys_upsert fun old => hmerge old new, List.map_cons]
    by_cases hmem : key new ∈ rows.map key
    · rw [if_pos hmem, List.filter_cons_of_neg (by simpa using hmem)]
    · rw [if_neg hmem, List.filter_cons_of_pos (by simpa using hmem), List.append_assoc,
        List.singleton_append]
      congr 2
      refine List.filter_congr fun k hk => ?_
      have hne : k ≠ key new := fun h => hnews.1 (h ▸ hk)
      simp [hne]

theorem mem_keys_upsertAll
    (hmerge : ∀ old new, key old = key new → key (merge old new) = key new)
    {news rows : List ρ} {k : κ} :
    k ∈ (upsertAll key merge news rows).map key ↔ k ∈ rows.map key ∨ k ∈ news.map key := by
  induction news generalizing rows with
  | nil => simp [upsertAll]
  | cons new news ih =>
    rw [upsertAll_cons, ih, mem_keys_upsert fun old => hmerge old new, List.map_cons,
      List.mem_cons]
    tauto

/-- The row of a key: the new rows of that key are merged into it, in order. -/
theorem row_upsertAll
    (hmerge : ∀ old new, key old = key new → key (merge old new) = key new)
    (news rows : List ρ) (k : κ) :
    row key (upsertAll key merge news rows) k =
      (news.filter fun new => key new = k).foldl
        (fun old new => some ((old.map fun old => merge old new).getD new)) (row key rows k) := by
  induction news generalizing rows with
  | nil => rfl
  | cons new news ih =>
    rw [upsertAll_cons, ih, row_upsert fun old => hmerge old new]
    by_cases hk : key new = k
    · rw [if_pos hk.symm, List.filter_cons_of_pos (by simpa using hk), List.foldl_cons]
    · rw [if_neg (Ne.symm hk), List.filter_cons_of_neg (by simpa using hk)]

theorem foldl_merge_some (news : List ρ) (old : ρ) :
    news.foldl (fun old new => some ((old.map fun old => merge old new).getD new)) (some old) =
      some (news.foldl merge old) := by
  induction news generalizing old with
  | nil => rfl
  | cons new news ih => exact ih (merge old new)

theorem nodup_keys_upsertAll
    (hmerge : ∀ old new, key old = key new → key (merge old new) = key new)
    (news : List ρ) {rows : List ρ} (h : (rows.map key).Nodup) :
    ((upsertAll key merge news rows).map key).Nodup := by
  induction news generalizing rows with
  | nil => exact h
  | cons new news ih => exact ih (nodup_keys_upsert (fun old => hmerge old new) h)

/-- When every key is there already, no row is added. -/
theorem upsertAll_of_mem
    (hmerge : ∀ old new, key old = key new → key (merge old new) = key new)
    {news rows : List ρ} (hnodup : (rows.map key).Nodup)
    (hnews : ∀ new ∈ news, key new ∈ rows.map key) :
    upsertAll key merge news rows =
      rows.map fun r => (news.filter fun new => key new = key r).foldl merge r := by
  induction news generalizing rows with
  | nil => simp [upsertAll]
  | cons new news ih =>
    obtain ⟨hnew, hnews⟩ := List.forall_mem_cons.mp hnews
    have hkeys := keys_upsert (fun old => hmerge old new) rows
    rw [if_pos hnew] at hkeys
    rw [upsertAll_cons, ih (by rwa [hkeys]) (by rwa [hkeys]),
      upsert_of_mem hnodup hnew, List.map_map]
    refine List.map_congr_left fun r _ => ?_
    simp only [Function.comp_apply]
    by_cases hr : key r = key new
    · rw [if_pos hr, hmerge r new hr, List.filter_cons_of_pos (by simpa using hr.symm),
        List.foldl_cons]
      simp only [hr]
    · rw [if_neg hr, List.filter_cons_of_neg (by simpa using Ne.symm hr)]

end UpsertAll

end Srp.Lib.Table
