/-
  Srp/Printers/WalkEquiv.lean
  ===========================
  **The walk by GETBULK against the walk by GETNEXT.**

  GETBULK takes the rows of the subtree in blocks.  The result is that of GETNEXT
  unless a block goes past these rows: then a filler may replace the value of the
  last row, or a row behind one that the parser drops may come in (`Spoiled`).
-/
import Srp.Printers.WalkAgent
import Srp.Printers.WalkExchange

namespace Srp.Printers

open Srp.Lib Srp.Lib.Lines Srp.Lib.Octets Srp.Lib.PyInt

variable {C : PyChars}

section Exchange

variable {mib : Mib} {repetitions : List Nat → Nat → Nat} {agent : Agent} {base : List Nat}
  {done todo : List Varbind} {maxRows attempts fuel : Nat} {ids : Nat → RequestId} {round : Nat}
  {bulk : Bool}

/-! ### The walk by GETBULK -/

/-- The block goes past the last row, and the filler takes the place of its value. -/
def LosesValue (base : List Nat) (n : Nat) (todo : List Varbind) : Prop :=
  todo.length < n ∧
    ∃ r ∈ todo.getLast?, wanted base r = true ∧ decodeValue r.valueTag r.value ≠ .null

/-- A row of the subtree stands in the block behind one that the parser drops. -/
def SkipsRow (base : List Nat) (n : Nat) (todo : List Varbind) : Prop :=
  (todo.take n).takeWhile (wanted base) ≠ (todo.take n).filter (wanted base)

/-- Some block on the way loses a value or skips a row; the next block begins behind the rows that
    the one before brought. -/
inductive Spoiled (repetitions : List Nat → Nat → Nat) (base : List Nat) (maxRows : Nat) :
    List Varbind → List Varbind → Prop
  | value {done todo : List Varbind}
      (loses : LosesValue base (blockSize repetitions base maxRows done) todo) :
      Spoiled repetitions base maxRows done todo
  | row {done todo : List Varbind}
      (skips : SkipsRow base (blockSize repetitions base maxRows done) todo) :
      Spoiled repetitions base maxRows done todo
  | later {done taken rest : List Varbind} (ne_nil : taken ≠ [])
      (block : taken = ((taken ++ rest).take
        (blockSize repetitions base maxRows done)).takeWhile (wanted base))
      (spoiled : Spoiled repetitions base maxRows (done ++ taken) rest) :
      Spoiled repetitions base maxRows done (taken ++ rest)

theorem wanted_of_mem_takeWhile {rows : List Varbind} {r : Varbind}
    (h : r ∈ rows.takeWhile (wanted base)) : wanted base r = true :=
  List.mem_takeWhile_imp h

theorem not_spoiled_of_unwanted
    (h : ∀ r ∈ todo.take (blockSize repetitions base maxRows done), wanted base r = false) :
    ¬ Spoiled repetitions base maxRows done todo := by
  intro hspoiled
  cases hspoiled with
  | value loses =>
    obtain ⟨hshort, r, hr, hwanted, _⟩ := loses
    have hmem : r ∈ todo.take (blockSize repetitions base maxRows done) := by
      rw [List.take_of_length_le hshort.le]
      exact List.mem_of_getLast? hr
    rw [h r hmem] at hwanted
    cases hwanted
  | row skips =>
    apply skips
    have hfilter : (todo.take (blockSize repetitions base maxRows done)).filter (wanted base) =
        [] := by
      rw [List.filter_eq_nil_iff]
      intro r hr
      simp [h r hr]
    rw [hfilter]
    cases hblock : todo.take (blockSize repetitions base maxRows done) with
    | nil => rfl
    | cons r rest =>
      apply List.takeWhile_cons_of_neg
      simp [h r (by rw [hblock]; exact List.mem_cons_self)]
  | @later _ taken rest ne_nil block _ =>
    obtain ⟨r, hr⟩ := List.exists_mem_of_ne_nil taken ne_nil
    rw [block] at hr
    have hwanted := wanted_of_mem_takeWhile hr
    rw [h r ((List.takeWhile_prefix _).subset hr)] at hwanted
    cases hwanted

/-- Where this block does no harm, a later one may. -/
theorem spoiled_iff_later {taken rest : List Varbind}
    (hvalue : ¬ LosesValue base (blockSize repetitions base maxRows done) (taken ++ rest))
    (hrow : ¬ SkipsRow base (blockSize repetitions base maxRows done) (taken ++ rest))
    (hne : taken ≠ [])
    (htaken : taken = ((taken ++ rest).take
      (blockSize repetitions base maxRows done)).takeWhile (wanted base)) :
    Spoiled repetitions base maxRows done (taken ++ rest) ↔
      Spoiled repetitions base maxRows (done ++ taken) rest := by
  constructor
  · intro hspoiled
    generalize hall : taken ++ rest = all at hspoiled
    cases hspoiled with
    | value loses => exact absurd (hall ▸ loses) hvalue
    | row skips => exact absurd (hall ▸ skips) hrow
    | @later _ taken' rest' _ block spoiled =>
      obtain rfl : taken = taken' := by
        rw [htaken, block, hall]
      obtain rfl : rest = rest' := List.append_cancel_left hall
      exact spoiled
  · exact Spoiled.later hne htaken

theorem takeWhile_take {α : Type} {p : α → Bool} {rows : List α} {n : Nat} {r : α}
    (hr : r ∈ rows.take n) (hp : p r = false) :
    rows.takeWhile p = (rows.take n).takeWhile p := by
  conv_lhs => rw [← List.take_append_drop n rows, List.takeWhile_append]
  rw [if_neg]
  intro hlen
  have hall := (List.takeWhile_prefix p).eq_of_length hlen
  have hpr := List.takeWhile_eq_self_iff.mp hall r hr
  rw [hp] at hpr
  cases hpr

theorem dict_replied (hne : todo ≠ []) {n : Nat} (hvalue : ¬ LosesValue base n todo) :
    dict ((keptVarbinds (replied n todo)).filter (inside base)) =
      dict ((todo.take n).filter (wanted base)) := by
  rw [filter_kept]
  by_cases hshort : todo.length < n
  · obtain ⟨init, last, rfl⟩ := (List.eq_nil_or_concat' todo).resolve_left hne
    have hlen := hshort
    rw [List.length_append, List.length_singleton] at hlen
    rw [replied_append hlen, List.take_of_length_le hshort.le, List.filter_append,
      List.filter_append, dict_append, dict_append]
    congr 1
    have hsame : wanted base (endOfMibView last.name) = wanted base last := rfl
    by_cases hwanted : wanted base last = true
    · rw [List.filter_cons_of_pos (by rwa [hsame]), List.filter_cons_of_pos hwanted]
      have hnull : decodeValue last.valueTag last.value = .null := by
        by_contra hvalue'
        exact hvalue ⟨hshort, last, by simp, hwanted, hvalue'⟩
      simp only [List.filter_nil, dict, List.map_cons, List.map_nil, binding, hnull]
      rfl
    · rw [List.filter_cons_of_neg (by rwa [hsame]), List.filter_cons_of_neg hwanted]
  · rw [replied, if_neg hshort]

theorem names_filter {p : Varbind → Bool} (q : List Nat → Bool) (hp : ∀ r, p r = q r.name)
    {xs ys : List Varbind} (h : xs.map (·.name) = ys.map (·.name)) :
    (xs.filter p).map (·.name) = (ys.filter p).map (·.name) := by
  have hcomp : p = q ∘ fun r : Varbind => r.name := funext hp
  rw [hcomp, ← List.filter_map, ← List.filter_map, h]

/-- The answer to GETBULK with rows behind the cursor. -/
def bulkBlock (repetitions : List Nat → Nat → Nat) (base : List Nat) (maxRows : Nat)
    (done todo : List Varbind) : List Varbind :=
  keptVarbinds (replied (blockSize repetitions base maxRows done) todo)

theorem names_block (repetitions : List Nat → Nat → Nat) (base : List Nat) (maxRows : Nat)
    (done : List Varbind) (hne : todo ≠ []) :
    (bulkBlock repetitions base maxRows done todo).map (·.name) =
      (keptVarbinds (todo.take (blockSize repetitions base maxRows done))).map (·.name) :=
  names_filter (fun name => decide (Carried name)) (fun _ => rfl) (names_replied hne)

theorem names_block_sublist (repetitions : List Nat → Nat → Nat) (base : List Nat) (maxRows : Nat)
    (done : List Varbind) (hne : todo ≠ []) :
    ((bulkBlock repetitions base maxRows done todo).map (·.name)).Sublist (todo.map (·.name)) := by
  rw [names_block repetitions base maxRows done hne]
  exact (List.filter_sublist.trans (List.take_sublist _ _)).map _

theorem walkLoop_bulk_silent (hC : C.ReadsDigits) (hagent : Conforming mib repetitions agent)
    (h : Facing mib base done todo) (hroom : done.length < maxRows) (hne : todo ≠ [])
    (hblock : bulkBlock repetitions base maxRows done todo = []) :
    walkLoop C agent ids (dotted base) maxRows (attempts + 1) (fuel + 1) round true
        (dotted (lastName base done)) (dict done) =
      walkLoop C agent ids (dotted base) maxRows (attempts + 1) fuel (round + 1) false
        (dotted (lastName base done)) (dict done) := by
  have hordered : Ordered todo := h.ordered.sublist (List.sublist_append_right done todo)
  apply walkLoop_silent (by rwa [length_dict]) (h.askable hC)
  rw [transact_getBulk hagent h, bindingsOf_getBulk hne hordered]
  exact congrArg dict hblock

theorem walkLoop_bulk_block (hC : C.ReadsDigits) (hagent : Conforming mib repetitions agent)
    (h : Facing mib base done todo) (hroom : done.length < maxRows) (hne : todo ≠ [])
    (hblock : bulkBlock repetitions base maxRows done todo ≠ []) :
    walkLoop C agent ids (dotted base) maxRows (attempts + 1) (fuel + 1) round true
        (dotted (lastName base done)) (dict done) =
      let found := (bulkBlock repetitions base maxRows done todo).filter (inside base)
      if found = [] ∨ ∃ r ∈ bulkBlock repetitions base maxRows done todo, inside base r = false then
        some (dict (done ++ found))
      else
        walkLoop C agent ids (dotted base) maxRows (attempts + 1) fuel (round + 1) true
          (dotted (lastName base (done ++ found))) (dict (done ++ found)) := by
  have hordered : Ordered todo := h.ordered.sublist (List.sublist_append_right done todo)
  apply walkLoop_block hC h hroom
  · have hlen := congrArg List.length (names_block repetitions base maxRows done hne)
    have hkept : (keptVarbinds (todo.take (blockSize repetitions base maxRows done))).length ≤
        (todo.take (blockSize repetitions base maxRows done)).length := List.length_filter_le _ _
    have hsize := blockSize_le hagent base maxRows done
    rw [List.length_take] at hkept
    rw [List.length_map, List.length_map] at hlen
    omega
  · exact names_block_sublist repetitions base maxRows done hne
  · intro r hr
    exact of_decide_eq_true (List.mem_filter.mp hr).2
  · exact hblock
  · rw [transact_getBulk hagent h, bindingsOf_getBulk hne hordered]
    rfl

/-- What a block brings stays. -/
theorem prefix_bulk (hC : C.ReadsDigits) (hagent : Conforming mib repetitions agent)
    (h : Facing mib base done todo) (hroom : done.length < maxRows) (hne : todo ≠ [])
    {final : Bindings}
    (hfinal : walkLoop C agent ids (dotted base) maxRows (attempts + 1) (fuel + 1) round true
      (dotted (lastName base done)) (dict done) = some final) :
    dict (done ++ (bulkBlock repetitions base maxRows done todo).filter (inside base)) <+:
      final := by
  by_cases hblock : bulkBlock repetitions base maxRows done todo = []
  · rw [walkLoop_bulk_silent hC hagent h hroom hne hblock] at hfinal
    rw [hblock, List.filter_nil, List.append_nil]
    exact prefix_walkLoop hfinal
  · rw [walkLoop_bulk_block hC hagent h hroom hne hblock] at hfinal
    dsimp only at hfinal
    split at hfinal
    · cases hfinal
      exact List.prefix_rfl
    · exact prefix_walkLoop hfinal

theorem lookup_of_prefix {result final : Bindings} (hpre : result <+: final) {oid : Text}
    {value : SnmpValue} (h : result.lookup oid = some value) : final.lookup oid = some value := by
  obtain ⟨rest, rfl⟩ := hpre
  rw [List.lookup_append, h]
  rfl

theorem lookup_dict {rows : List Varbind} (h : Ordered rows) {r : Varbind} (hr : r ∈ rows) :
    (dict rows).lookup (dotted r.name) = some (decodeValue r.valueTag r.value) := by
  obtain ⟨before, behind, rfl⟩ := List.append_of_mem hr
  rw [List.lookup_eq_some_iff]
  refine ⟨dict before, dict behind, List.map_append, ?_⟩
  rintro ⟨oid, value⟩ hitem
  have hfresh := h.not_mem_keys (List.mem_cons_self : r ∈ r :: behind)
  simp only [bne_iff_ne, ne_eq]
  rintro rfl
  exact hfresh (List.mem_map_of_mem hitem)

theorem mem_of_lookup_dict {rows : List Varbind} {oid : Text} {value : SnmpValue}
    (h : (dict rows).lookup oid = some value) :
    ∃ r ∈ rows, dotted r.name = oid ∧ decodeValue r.valueTag r.value = value := by
  obtain ⟨before, behind, hsplit, _⟩ := List.lookup_eq_some_iff.mp h
  have hmem : (oid, value) ∈ dict rows := by simp [hsplit]
  obtain ⟨r, hr, heq⟩ := List.mem_map.mp hmem
  cases heq
  exact ⟨r, hr, rfl, rfl⟩

theorem nextRows_sublist (base : List Nat) (maxRows : Nat) (done todo : List Varbind) :
    (nextRows base maxRows done todo).Sublist todo :=
  (List.take_sublist _ _).trans (List.takeWhile_sublist _)

theorem ordered_found (h : Facing mib base done todo) (repetitions : List Nat → Nat → Nat)
    (maxRows : Nat) (hne : todo ≠ []) :
    Ordered (done ++ (bulkBlock repetitions base maxRows done todo).filter (inside base)) := by
  apply h.ordered.of_names
  rw [List.map_append, List.map_append]
  exact (List.Sublist.refl _).append
    ((List.filter_sublist.map _).trans (names_block_sublist repetitions base maxRows done hne))

/-- A row of the expected dictionary with the name of a row of the agent is that row. -/
theorem eq_of_lookup_next (h : Facing mib base done todo) {r : Varbind} (hr : r ∈ todo)
    {value : SnmpValue}
    (hlookup : (dict (done ++ nextRows base maxRows done todo)).lookup (dotted r.name) =
      some value) :
    r ∈ nextRows base maxRows done todo ∧ decodeValue r.valueTag r.value = value := by
  obtain ⟨s, hs, hname, hvalue⟩ := mem_of_lookup_dict hlookup
  have hsub := (List.Sublist.refl done).append (nextRows_sublist base maxRows done todo)
  obtain rfl := h.ordered.eq_of_dotted (hsub.subset hs) (List.mem_append_right done hr) hname
  rcases List.mem_append.mp hs with hdone | hnext
  · exact absurd (h.ordered.lt hdone hr) (lt_irrefl _)
  · exact ⟨hnext, hvalue⟩

/-- The walk that loses a value binds the last row to null, the other one does not. -/
theorem differs_of_losesValue (h : Facing mib base done todo)
    (hloses : LosesValue base (blockSize repetitions base maxRows done) todo) {final : Bindings}
    (hpre : dict (done ++ (bulkBlock repetitions base maxRows done todo).filter (inside base)) <+:
      final) :
    ∃ oid, final.lookup oid ≠ (dict (done ++ nextRows base maxRows done todo)).lookup oid := by
  obtain ⟨hshort, r, hr, hwanted, hvalue⟩ := hloses
  obtain ⟨init, rfl⟩ := List.getLast?_eq_some_iff.mp hr
  have hlen := hshort
  rw [List.length_append, List.length_singleton] at hlen
  refine ⟨dotted r.name, ?_⟩
  have hordered := ordered_found h repetitions maxRows (by simp)
  have hmem : endOfMibView r.name ∈ done ++
      (bulkBlock repetitions base maxRows done (init ++ [r])).filter (inside base) := by
    rw [bulkBlock, filter_kept, replied_append hlen]
    apply List.mem_append_right
    exact List.mem_filter.mpr ⟨by simp, hwanted⟩
  have hnull : final.lookup (dotted r.name) = some .null :=
    lookup_of_prefix hpre (lookup_dict hordered hmem)
  rw [hnull]
  intro heq
  exact hvalue (eq_of_lookup_next h (by simp) heq.symm).2

/-- Where the wanted rows are not the first ones, one stands behind a row that is not wanted. -/
theorem exists_wanted_behind {rows : List Varbind}
    (h : ¬ rows.takeWhile (wanted base) = rows.filter (wanted base)) :
    ∃ c ∈ rows.dropWhile (wanted base), wanted base c = true := by
  by_contra hnone
  apply h
  have hsplit : rows.takeWhile (wanted base) ++ rows.dropWhile (wanted base) = rows :=
    List.takeWhile_append_dropWhile
  have hdrop : (rows.dropWhile (wanted base)).filter (wanted base) = [] :=
    List.filter_eq_nil_iff.mpr fun c hc hwanted => hnone ⟨c, hc, hwanted⟩
  have htake : (rows.takeWhile (wanted base)).filter (wanted base) =
      rows.takeWhile (wanted base) :=
    List.filter_eq_self.mpr fun r hr => wanted_of_mem_takeWhile hr
  calc rows.takeWhile (wanted base) =
      (rows.takeWhile (wanted base) ++ rows.dropWhile (wanted base)).filter (wanted base) := by
        rw [List.filter_append, hdrop, htake, List.append_nil]
    _ = rows.filter (wanted base) := by rw [hsplit]

theorem exists_unwanted {rows : List Varbind} {c : Varbind}
    (hc : c ∈ rows.dropWhile (wanted base)) : ∃ r ∈ rows, wanted base r = false := by
  by_contra hnone
  have hdrop : rows.dropWhile (wanted base) = [] := by
    rw [List.dropWhile_eq_nil_iff]
    intro r hr
    by_contra hr'
    exact hnone ⟨r, hr, Bool.eq_false_iff.mpr hr'⟩
  rw [hdrop] at hc
  cases hc

/-- The walk that skips a row collects one that the other walk does not reach. -/
theorem differs_of_skipsRow (h : Facing mib base done todo) (hne : todo ≠ [])
    (hskips : SkipsRow base (blockSize repetitions base maxRows done) todo) {final : Bindings}
    (hpre : dict (done ++ (bulkBlock repetitions base maxRows done todo).filter (inside base)) <+:
      final) :
    ∃ oid, final.lookup oid ≠ (dict (done ++ nextRows base maxRows done todo)).lookup oid := by
  have hrows : Ordered (todo.take (blockSize repetitions base maxRows done)) :=
    h.ordered.sublist ((List.take_sublist _ _).trans (List.sublist_append_right done todo))
  have hnames := names_block repetitions base maxRows done hne
  unfold SkipsRow at hskips
  generalize hall : todo.take (blockSize repetitions base maxRows done) = rows
    at hskips hrows hnames
  have hsplit : rows.takeWhile (wanted base) ++ rows.dropWhile (wanted base) = rows :=
    List.takeWhile_append_dropWhile
  -- a wanted row behind the first that is not wanted
  obtain ⟨c, hc, hwanted⟩ := exists_wanted_behind hskips
  have hcrows : c ∈ rows := (List.dropWhile_sublist _).subset hc
  have hctodo : c ∈ todo := by
    rw [← hall] at hcrows
    exact List.mem_of_mem_take hcrows
  have hbehind : c ∉ todo.takeWhile (wanted base) := by
    obtain ⟨r, hr, hunwanted⟩ := exists_unwanted hc
    rw [← hall] at hr
    rw [takeWhile_take hr hunwanted, hall]
    intro hmem
    rw [← hsplit] at hrows
    exact lt_irrefl _ (hrows.lt hmem hc)
  -- the answer has a row of its name
  have hkept : c.name ∈ (keptVarbinds rows).map (·.name) := by
    apply List.mem_map_of_mem
    rw [wanted, Bool.and_eq_true] at hwanted
    exact List.mem_filter.mpr ⟨hcrows, hwanted.1⟩
  rw [← hnames] at hkept
  obtain ⟨b, hb, hname⟩ := List.mem_map.mp hkept
  have hfound : b ∈ done ++
      (bulkBlock repetitions base maxRows done todo).filter (inside base) := by
    apply List.mem_append_right
    rw [wanted, Bool.and_eq_true] at hwanted
    refine List.mem_filter.mpr ⟨hb, ?_⟩
    rw [inside, hname]
    exact hwanted.2
  refine ⟨dotted c.name, ?_⟩
  have hsome := lookup_of_prefix hpre (lookup_dict (ordered_found h repetitions maxRows hne) hfound)
  rw [hname] at hsome
  rw [hsome]
  intro heq
  exact hbehind (List.mem_of_mem_take (eq_of_lookup_next h hctodo heq.symm).1)

/-- Where the walk stops at a block, all that GETNEXT collects is there. -/
theorem nextRows_of_stop (hagent : Conforming mib repetitions agent) {r : Varbind}
    (hr : r ∈ todo.take (blockSize repetitions base maxRows done))
    (hwanted : wanted base r = false) :
    nextRows base maxRows done todo =
      (todo.take (blockSize repetitions base maxRows done)).takeWhile (wanted base) := by
  have hsize := blockSize_le hagent base maxRows done
  rw [nextRows, takeWhile_take hr hwanted, List.take_of_length_le]
  have hlen := (List.takeWhile_prefix (wanted base) :
    _ <+: todo.take (blockSize repetitions base maxRows done)).length_le
  rw [List.length_take] at hlen
  omega

theorem nextRows_append {taken rest : List Varbind} (htaken : ∀ r ∈ taken, wanted base r = true)
    (hlen : taken.length ≤ maxRows - done.length) :
    nextRows base maxRows done (taken ++ rest) =
      taken ++ nextRows base maxRows (done ++ taken) rest := by
  rw [nextRows, nextRows, List.takeWhile_append_of_pos htaken, List.take_append,
    List.take_of_length_le hlen, List.length_append, Nat.sub_sub]

theorem names_found (repetitions : List Nat → Nat → Nat) (base : List Nat) (maxRows : Nat)
    (done : List Varbind) (hne : todo ≠ []) :
    ((bulkBlock repetitions base maxRows done todo).filter (inside base)).map (·.name) =
      ((todo.take (blockSize repetitions base maxRows done)).filter
        (wanted base)).map (·.name) := by
  rw [bulkBlock, filter_kept]
  exact names_filter (fun name => decide (Carried name) && base.isPrefixOf name) (fun _ => rfl)
    (names_replied hne)

theorem lastName_congr {xs ys : List Varbind} (h : xs.map (·.name) = ys.map (·.name))
    (name : List Nat) : lastName name xs = lastName name ys := by
  rw [lastName, lastName, ← List.getLast?_map, ← List.getLast?_map, h]

theorem unwanted_of_silent (hne : todo ≠ [])
    (hblock : bulkBlock repetitions base maxRows done todo = []) :
    ∀ r ∈ todo.take (blockSize repetitions base maxRows done), wanted base r = false := by
  intro r hr
  by_contra hwanted
  rw [Bool.not_eq_false, wanted, Bool.and_eq_true] at hwanted
  have hnames := names_block repetitions base maxRows done hne
  rw [hblock, List.map_nil] at hnames
  have hkept := List.map_eq_nil_iff.mp hnames.symm
  have hmem : r ∈ keptVarbinds (todo.take (blockSize repetitions base maxRows done)) :=
    List.mem_filter.mpr ⟨hr, hwanted.1⟩
  rw [hkept] at hmem
  cases hmem

/-- A row of the agent that a row of the block stands for. -/
theorem exists_of_mem_block (hne : todo ≠ []) {b : Varbind}
    (hb : b ∈ bulkBlock repetitions base maxRows done todo) :
    ∃ r ∈ todo.take (blockSize repetitions base maxRows done), r.name = b.name := by
  have hmem : b.name ∈ (bulkBlock repetitions base maxRows done todo).map (·.name) :=
    List.mem_map_of_mem hb
  rw [names_block repetitions base maxRows done hne] at hmem
  obtain ⟨r, hr, hname⟩ := List.mem_map.mp hmem
  exact ⟨r, (List.mem_filter.mp hr).1, hname⟩

/-- Behind a block that leaves the subtree there is nothing more to collect. -/
theorem unwanted_of_left (h : Facing mib base done todo) {n : Nat} {taken rest : List Varbind}
    (hsplit : taken ++ rest = todo) (htaken : (todo.take n).filter (wanted base) = taken)
    {s : Varbind} (hs : s ∈ todo.take n) (hleft : inside base s = false) :
    ∀ r ∈ rest, wanted base r = false := by
  intro r hr
  by_contra hwanted
  rw [Bool.not_eq_false] at hwanted
  have hordered := h.ordered.sublist (List.sublist_append_right done todo)
  have hrtodo : r ∈ todo := by
    rw [← hsplit]
    exact List.mem_append_right taken hr
  have hcases := hrtodo
  rw [← List.take_append_drop n todo, List.mem_append] at hcases
  rcases hcases with htake | hdrop
  · have hmem : r ∈ taken := by
      rw [← htaken]
      exact List.mem_filter.mpr ⟨htake, hwanted⟩
    rw [← hsplit] at hordered
    exact lt_irrefl _ (hordered.lt hmem hr)
  · rw [← List.take_append_drop n todo] at hordered
    rw [wanted, Bool.and_eq_true, inside_iff] at hwanted
    have hbetween := prefix_of_between
      (h.base_lt (List.mem_append_right done (List.mem_of_mem_take hs))) (hordered.lt hs hdrop)
      hwanted.2
    rw [← inside_iff, hleft] at hbetween
    cases hbetween

/-- **A walk by GETBULK that stops at a harmless block.** -/
theorem bulk_stops (hagent : Conforming mib repetitions agent) (h : Facing mib base done todo)
    (hne : todo ≠ [])
    (hvalue : ¬ LosesValue base (blockSize repetitions base maxRows done) todo)
    (hrow : ¬ SkipsRow base (blockSize repetitions base maxRows done) todo) {b : Varbind}
    (hb : b ∈ bulkBlock repetitions base maxRows done todo) (hleft : inside base b = false) :
    nextRows base maxRows done todo =
        (todo.take (blockSize repetitions base maxRows done)).takeWhile (wanted base) ∧
      ¬ Spoiled repetitions base maxRows done todo := by
  obtain ⟨s, hs, hname⟩ := exists_of_mem_block hne hb
  have houtside : inside base s = false := by
    rw [inside, hname]
    exact hleft
  have hunwanted : wanted base s = false := by rw [wanted, houtside, Bool.and_false]
  refine ⟨nextRows_of_stop hagent hs hunwanted, ?_⟩
  have hfilter := not_not.mp hrow
  generalize htaken : (todo.take (blockSize repetitions base maxRows done)).takeWhile
    (wanted base) = taken at hfilter
  by_cases hempty : taken = []
  · apply not_spoiled_of_unwanted
    intro r hr
    by_contra hwanted
    rw [Bool.not_eq_false] at hwanted
    have hmem := List.mem_filter.mpr ⟨hr, hwanted⟩
    rw [← hfilter, hempty] at hmem
    cases hmem
  · obtain ⟨rest, hsplit⟩ : taken <+: todo := by
      rw [← htaken]
      exact (List.takeWhile_prefix _).trans (List.take_prefix _ _)
    have hrest := unwanted_of_left h hsplit hfilter.symm hs houtside
    subst hsplit
    rw [spoiled_iff_later hvalue hrow hempty htaken.symm]
    exact not_spoiled_of_unwanted fun r hr => hrest r (List.mem_of_mem_take hr)

/-- **A walk by GETBULK that goes on behind a harmless block.** -/
theorem bulk_goes_on (hagent : Conforming mib repetitions agent) (h : Facing mib base done todo)
    (hvalue : ¬ LosesValue base (blockSize repetitions base maxRows done) todo)
    (hrow : ¬ SkipsRow base (blockSize repetitions base maxRows done) todo)
    (hne : (todo.take (blockSize repetitions base maxRows done)).takeWhile (wanted base) ≠ []) :
    ∃ taken rest, (todo.take (blockSize repetitions base maxRows done)).takeWhile (wanted base) =
        taken ∧ Facing mib base (done ++ taken) rest ∧
      nextRows base maxRows done todo = taken ++ nextRows base maxRows (done ++ taken) rest ∧
      (Spoiled repetitions base maxRows done todo ↔
        Spoiled repetitions base maxRows (done ++ taken) rest) := by
  generalize htaken : (todo.take (blockSize repetitions base maxRows done)).takeWhile
    (wanted base) = taken at hne
  have hall : ∀ r ∈ taken, wanted base r = true := by
    rw [← htaken]
    exact fun r hr => wanted_of_mem_takeWhile hr
  have hlen : taken.length ≤ maxRows - done.length := by
    have hsize := blockSize_le hagent base maxRows done
    have hprefix := (List.takeWhile_prefix (wanted base) :
      _ <+: todo.take (blockSize repetitions base maxRows done)).length_le
    rw [htaken, List.length_take] at hprefix
    omega
  obtain ⟨rest, rfl⟩ : taken <+: todo := by
    rw [← htaken]
    exact (List.takeWhile_prefix _).trans (List.take_prefix _ _)
  refine ⟨taken, rest, rfl, h.later rfl ?_, nextRows_append hall hlen,
    spoiled_iff_later hvalue hrow hne htaken.symm⟩
  intro r hr
  have hwanted := hall r hr
  rw [wanted, Bool.and_eq_true] at hwanted
  exact of_decide_eq_true hwanted.1

/-- **The walk by GETBULK collects what the walk by GETNEXT does, unless a block spoils it.** -/
theorem walkLoop_getBulk (hC : C.ReadsDigits) (hagent : Conforming mib repetitions agent)
    (h : Facing mib base done todo) (hne : done ++ todo ≠ []) {final : Bindings}
    (hfinal : walkLoop C agent ids (dotted base) maxRows (attempts + 1) fuel round true
      (dotted (lastName base done)) (dict done) = some final) :
    (∀ oid, final.lookup oid = (dict (done ++ nextRows base maxRows done todo)).lookup oid) ↔
      ¬ Spoiled repetitions base maxRows done todo := by
  induction fuel generalizing done todo round with
  | zero => cases hfinal
  | succ fuel ih =>
    rcases Nat.lt_or_ge done.length maxRows with hroom | hfull
    · by_cases htodo : todo = []
      · subst htodo
        rw [walkLoop_ended hC hagent h hroom hfinal, ended_of_ne_nil (by simpa using hne)]
        simp only [nextRows, List.takeWhile_nil, List.take_nil, List.append_nil, implies_true,
          true_iff]
        exact not_spoiled_of_unwanted (by simp)
      have hpre := prefix_bulk hC hagent h hroom htodo hfinal
      by_cases hvalue : LosesValue base (blockSize repetitions base maxRows done) todo
      · obtain ⟨oid, hdiffers⟩ := differs_of_losesValue h hvalue hpre
        exact iff_of_false (fun hall => hdiffers (hall oid)) (not_not.mpr (Spoiled.value hvalue))
      by_cases hrow : SkipsRow base (blockSize repetitions base maxRows done) todo
      · obtain ⟨oid, hdiffers⟩ := differs_of_skipsRow h htodo hrow hpre
        exact iff_of_false (fun hall => hdiffers (hall oid)) (not_not.mpr (Spoiled.row hrow))
      have hfilter := not_not.mp hrow
      have hfound : dict ((bulkBlock repetitions base maxRows done todo).filter (inside base)) =
          dict ((todo.take (blockSize repetitions base maxRows done)).takeWhile (wanted base)) := by
        rw [hfilter]
        exact dict_replied htodo hvalue
      by_cases hblock : bulkBlock repetitions base maxRows done todo = []
      · rw [walkLoop_bulk_silent hC hagent h hroom htodo hblock] at hfinal
        rw [walkLoop_getNext hC hagent h hne hfinal]
        exact iff_of_true (fun _ => rfl)
          (not_spoiled_of_unwanted (unwanted_of_silent htodo hblock))
      · rw [walkLoop_bulk_block hC hagent h hroom htodo hblock] at hfinal
        dsimp only at hfinal
        split at hfinal
        · rename_i hstop
          obtain ⟨b, hb, hleft⟩ : ∃ b ∈ bulkBlock repetitions base maxRows done todo,
              inside base b = false := by
            rcases hstop with hnone | hleft
            · obtain ⟨b, hb⟩ := List.exists_mem_of_ne_nil _ hblock
              refine ⟨b, hb, ?_⟩
              by_contra hinside
              exact List.filter_eq_nil_iff.mp hnone b hb (Bool.not_eq_false _ ▸ hinside)
            · exact hleft
          obtain ⟨hnext, hunspoiled⟩ := bulk_stops hagent h htodo hvalue hrow hb hleft
          cases hfinal
          rw [dict_append, hfound, hnext, dict_append]
          exact iff_of_true (fun _ => rfl) hunspoiled
        · rename_i hgo
          rw [not_or] at hgo
          have hne' : (todo.take (blockSize repetitions base maxRows done)).takeWhile
              (wanted base) ≠ [] := by
            intro hnil
            rw [hnil] at hfound
            exact hgo.1 (List.map_eq_nil_iff.mp hfound)
          have hcursor := names_found repetitions base maxRows done htodo
          obtain ⟨taken, rest, htaken, hlater, hnext, hspoiled⟩ :=
            bulk_goes_on hagent h hvalue hrow hne'
          rw [htaken] at hfound hne'
          rw [← hfilter, htaken] at hcursor
          have hnames : (done ++ (bulkBlock repetitions base maxRows done todo).filter
              (inside base)).map (·.name) = (done ++ taken).map (·.name) := by
            rw [List.map_append, List.map_append, hcursor]
          rw [dict_append, hfound, ← dict_append, lastName_congr hnames] at hfinal
          rw [hnext, hspoiled, ← List.append_assoc]
          exact ih hlater (by simp [hne']) hfinal
    · rw [walkLoop_full (by rwa [length_dict])] at hfinal
      cases hfinal
      have hnone := Nat.sub_eq_zero_of_le hfull
      have hsize := blockSize_le hagent base maxRows done
      rw [hnone, Nat.le_zero] at hsize
      rw [nextRows, hnone, List.take_zero, List.append_nil]
      refine iff_of_true (fun _ => rfl) (not_spoiled_of_unwanted ?_)
      rw [hsize]
      simp

theorem facing_start (mib : Mib) (h : IsOid base) : Facing mib base [] (mib.after base) :=
  ⟨rfl, h, by simp⟩

/-- Both walks give the same where the agent has nothing behind the base. -/
theorem walkLoop_nothing (hC : C.ReadsDigits) (hagent : Conforming mib repetitions agent)
    (hbase : IsOid base)
    (hnone : mib.after base = []) {final : Bindings}
    (hfinal : walkLoop C agent ids (dotted base) maxRows (attempts + 1) fuel round bulk
      (dotted base) [] = some final) : final = if maxRows = 0 then [] else ended base [] := by
  have hfacing := facing_start mib hbase
  rw [hnone] at hfacing
  by_cases hzero : maxRows = 0
  · rw [if_pos hzero]
    cases fuel with
    | zero => cases hfinal
    | succ fuel =>
      rw [walkLoop_full (by simp [hzero])] at hfinal
      cases hfinal
      rfl
  · rw [if_neg hzero]
    have hroom : ([] : List Varbind).length < maxRows := Nat.pos_of_ne_zero hzero
    exact walkLoop_ended hC hagent hfacing hroom hfinal

end Exchange

/-! ### Two page counters -/

def pageRows : List Varbind :=
  [⟨[1, 3, 6, 1, 2, 1, 43, 10, 2, 1, 4, 1, 1], 0x41, [0x47, 0x9E]⟩,
    ⟨[1, 3, 6, 1, 2, 1, 43, 10, 2, 1, 5, 1, 1], 0x41, [0x2A]⟩]

theorem pageRows_sorted : pageRows.Pairwise (·.name < ·.name) := by decide

theorem pageRows_oids : ∀ r ∈ pageRows, IsOid r.name := by
  intro r hr
  have hall : ∀ r ∈ pageRows, Written r.name ∧ r.name.length ≤ 128 ∧ ∀ n ∈ r.name, n < 2 ^ 32 := by
    decide
  exact ⟨(hall r hr).1, (hall r hr).2.1, (hall r hr).2.2⟩

def pages : Mib := ⟨pageRows, pageRows_sorted, pageRows_oids⟩

/-- As many repetitions as are asked, up to those of a block. -/
def fullBlocks (_ : List Nat) (n : Nat) : Nat := min n getbulkMaxRepetitions

theorem conforming_pages : Conforming pages fullBlocks (pages.answer fullBlocks) := by
  apply conforming_answer
  · decide
  · exact fun _ n => min_le_left n _
  · exact fun _ n => (min_le_right n _).trans_lt (by decide)

/-! ### Both walks -/

theorem isSome_snmpWalk (hC : C.ReadsDigits) (agent : Agent) (ids : Nat → RequestId)
    {base : List Nat} (hbase : IsOid base) (version : Int) (retries maxRows : Nat) :
    (snmpWalk C agent ids (dotted base) version retries maxRows).isSome := by
  apply isSome_walkLoop hC (askable_of_isOid hC hbase)
  rw [List.length_nil]
  split <;> omega

/-- **GETBULK against GETNEXT.**  Both walks end, and they give the same map exactly where no
    block on the way loses the value of the last row or skips a row that the parser drops. -/
theorem walks_agree_iff (hC : C.ReadsDigits) (mib : Mib) (repetitions : List Nat → Nat → Nat)
    (agent : Agent) (hagent : Conforming mib repetitions agent) (base : List Nat)
    (hbase : IsOid base) (version : Int) (hversion : version ≠ 0) (retries maxRows : Nat)
    (ids ids' : Nat → RequestId) :
    (∃ bulk next, snmpWalk C agent ids (dotted base) version retries maxRows = some bulk ∧
      snmpWalk C agent ids' (dotted base) 0 retries maxRows = some next ∧
      ∀ oid, bulk.lookup oid = next.lookup oid) ↔
      ¬ Spoiled repetitions base maxRows [] (mib.after base) := by
  obtain ⟨bulk, hbulk⟩ := Option.isSome_iff_exists.mp
    (isSome_snmpWalk hC agent ids hbase version retries maxRows)
  obtain ⟨next, hnext⟩ := Option.isSome_iff_exists.mp
    (isSome_snmpWalk hC agent ids' hbase 0 retries maxRows)
  have hagree : (∀ oid, bulk.lookup oid = next.lookup oid) ↔
      ¬ Spoiled repetitions base maxRows [] (mib.after base) := by
    have hbulkLoop := hbulk
    have hnextLoop := hnext
    rw [snmpWalk, decide_eq_true hversion] at hbulkLoop
    rw [snmpWalk, decide_eq_false (not_not.mpr rfl)] at hnextLoop
    by_cases hnone : mib.after base = []
    · rw [walkLoop_nothing hC hagent hbase hnone hbulkLoop,
        walkLoop_nothing hC hagent hbase hnone hnextLoop, hnone]
      exact iff_of_true (fun _ => rfl) (not_spoiled_of_unwanted (by simp))
    · have hfacing := facing_start mib hbase
      rw [walkLoop_getNext hC hagent hfacing hnone hnextLoop]
      exact walkLoop_getBulk hC hagent hfacing hnone hbulkLoop
  rw [← hagree]
  constructor
  · rintro ⟨bulk', next', hbulk', hnext', hall⟩
    rw [hbulk] at hbulk'
    rw [hnext] at hnext'
    cases hbulk'
    cases hnext'
    exact hall
  · exact fun hall => ⟨bulk, next, hbulk, hnext, hall⟩

/-- The counter of the first table, with the second table behind it. -/
theorem walks_agree_firstTable : ∃ bulk next,
    snmpWalk .ascii (pages.answer fullBlocks) firstRequestIds
      (dotted [1, 3, 6, 1, 2, 1, 43, 10, 2, 1, 4, 1]) 1 1 512 = some bulk ∧
    snmpWalk .ascii (pages.answer fullBlocks) firstRequestIds
      (dotted [1, 3, 6, 1, 2, 1, 43, 10, 2, 1, 4, 1]) 0 1 512 = some next ∧
    ∀ oid, bulk.lookup oid = next.lookup oid := by
  have hbase : IsOid [1, 3, 6, 1, 2, 1, 43, 10, 2, 1, 4, 1] :=
    ⟨by decide, by decide, by decide⟩
  apply (walks_agree_iff readsDigits_ascii pages fullBlocks (pages.answer fullBlocks)
    conforming_pages [1, 3, 6, 1, 2, 1, 43, 10, 2, 1, 4, 1] hbase 1 (by decide) 1 512
    firstRequestIds firstRequestIds).mpr
  intro hspoiled
  have hafter : pages.after [1, 3, 6, 1, 2, 1, 43, 10, 2, 1, 4, 1] =
      pageRows.take 1 ++ pageRows.drop 1 := by decide +kernel
  rw [hafter, spoiled_iff_later] at hspoiled
  · exact not_spoiled_of_unwanted (by decide +kernel) hspoiled
  · rintro ⟨_, r, hr, hwanted, _⟩
    have hlast : (pageRows.take 1 ++ pageRows.drop 1).getLast? = pageRows[1]? := by decide +kernel
    rw [hlast] at hr
    cases hr
    revert hwanted
    decide +kernel
  · rw [SkipsRow, not_not]
    decide +kernel
  · decide
  · decide +kernel

/-- The counter of the last table is lost by GETBULK. -/
theorem lastTable_loses_value : ¬ ∀ (mib : Mib) (repetitions : List Nat → Nat → Nat)
    (agent : Agent),
    Conforming mib repetitions agent → ∀ base, IsOid base → ∀ (maxRows : Nat)
      (ids : Nat → RequestId), ∃ bulk next,
        snmpWalk .ascii agent ids (dotted base) 1 1 maxRows = some bulk ∧
        snmpWalk .ascii agent ids (dotted base) 0 1 maxRows = some next ∧
        ∀ oid, bulk.lookup oid = next.lookup oid := by
  intro hall
  have hbase : IsOid [1, 3, 6, 1, 2, 1, 43, 10, 2, 1, 5, 1] :=
    ⟨by decide, by decide, by decide⟩
  obtain ⟨bulk, next, hbulk, hnext, hsame⟩ := hall pages fullBlocks (pages.answer fullBlocks)
    conforming_pages _ hbase 512 firstRequestIds
  have hnull : snmpWalk .ascii (pages.answer fullBlocks) firstRequestIds
      (dotted [1, 3, 6, 1, 2, 1, 43, 10, 2, 1, 5, 1]) 1 1 512 =
      some [(dotted [1, 3, 6, 1, 2, 1, 43, 10, 2, 1, 5, 1, 1], .null)] := by decide +kernel
  have hpages : snmpWalk .ascii (pages.answer fullBlocks) firstRequestIds
      (dotted [1, 3, 6, 1, 2, 1, 43, 10, 2, 1, 5, 1]) 0 1 512 =
      some [(dotted [1, 3, 6, 1, 2, 1, 43, 10, 2, 1, 5, 1, 1], .int 42)] := by decide +kernel
  rw [hnull] at hbulk
  rw [hpages] at hnext
  cases hbulk
  cases hnext
  have hvalue := hsame (dotted [1, 3, 6, 1, 2, 1, 43, 10, 2, 1, 5, 1, 1])
  simp at hvalue

end Srp.Printers
