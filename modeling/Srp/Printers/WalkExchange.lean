/-
  Srp/Printers/WalkExchange.lean
  ==============================
  **A walk over a conforming agent.**

  A walk keeps the rows collected so far (`done`) and faces the rows of the agent
  behind the last of them (`todo`).  One answer brings a block of the latter
  (`walkLoop_block`), and GETNEXT takes the rows of the subtree one by one until
  the parser drops one (`walkLoop_getNext`).
-/
import Mathlib.Data.List.TakeWhile
import Srp.Printers.WalkRows

namespace Srp.Printers

open Srp.Lib Srp.Lib.Lines Srp.Lib.Octets Srp.Lib.PyInt

variable {C : PyChars}

/-! ### The exchange with a conforming agent -/

theorem transact_of_isMessage {replies : Nat → Request → Option Bytes} {pkt : Request}
    {data : Bytes} {vbs : List Varbind} {attempts : Nat} (hdata : replies attempts pkt = some data)
    (h : IsMessage getResponseTag pkt.requestId vbs data)
    (hwritten : ∀ vb ∈ vbs, Written vb.name) :
    transact replies pkt (attempts + 1) = bindingsOf (keptVarbinds vbs) := by
  have hparse := parseMessage_of_isMessage (by decide) hwritten h
  simp only [transact, hdata, hparse, ne_eq, not_true_eq_false, if_false]

/-- The rows collected are those behind the base; the rest is still there. -/
structure Facing (mib : Mib) (base : List Nat) (done todo : List Varbind) : Prop where
  after : mib.after base = done ++ todo
  oid : IsOid base
  carried : ∀ r ∈ done, Carried r.name

section Exchange

variable {mib : Mib} {repetitions : List Nat → Nat → Nat} {agent : Agent} {base : List Nat}
  {done todo : List Varbind} {maxRows attempts fuel : Nat} {ids : Nat → RequestId} {round : Nat}
  {bulk : Bool}

theorem Facing.ordered (h : Facing mib base done todo) : Ordered (done ++ todo) := by
  rw [← h.after]
  exact ⟨mib.sorted.sublist List.filter_sublist,
    fun r hr => (mib.oids r (List.mem_filter.mp hr).1).written⟩

theorem Facing.base_lt (h : Facing mib base done todo) {r : Varbind} (hr : r ∈ done ++ todo) :
    base < r.name := by
  rw [← h.after] at hr
  exact of_decide_eq_true (List.mem_filter.mp hr).2

theorem Facing.oid_cursor (h : Facing mib base done todo) : IsOid (lastName base done) := by
  rcases List.eq_nil_or_concat' done with rfl | ⟨init, last, rfl⟩
  · exact h.oid
  · rw [lastName_append]
    have hmem : last ∈ mib.after base := by rw [h.after]; simp
    exact mib.oids last (List.mem_filter.mp hmem).1

theorem Facing.cursor_lt (h : Facing mib base done todo) {r : Varbind} (hr : r ∈ todo) :
    lastName base done < r.name := by
  rcases List.eq_nil_or_concat' done with rfl | ⟨init, last, rfl⟩
  · exact h.base_lt hr
  · rw [lastName_append]
    exact h.ordered.lt (by simp) hr

theorem Facing.askable (hC : C.ReadsDigits) (h : Facing mib base done todo) :
    Askable C (dotted (lastName base done)) :=
  askable_of_isOid hC h.oid_cursor

/-- What the agent has behind the cursor is what the walk has yet to collect. -/
theorem Facing.after_cursor (h : Facing mib base done todo) :
    mib.after (lastName base done) = todo := by
  rcases List.eq_nil_or_concat' done with rfl | ⟨init, last, rfl⟩
  · exact h.after
  · have hlast : base < last.name := h.base_lt (by simp)
    have hnarrow : mib.after last.name =
        (mib.after base).filter fun r => decide (last.name < r.name) := by
      unfold Mib.after
      rw [List.filter_filter]
      apply List.filter_congr
      intro r _
      by_cases hr : last.name < r.name
      · simp [hr, hlast.trans hr]
      · simp [hr]
    have hsorted := h.ordered
    rw [lastName_append, hnarrow, h.after, List.filter_append]
    have hbefore : (init ++ [last]).filter (fun r => decide (last.name < r.name)) = [] := by
      rw [List.filter_eq_nil_iff]
      intro r hr hlt
      have hlt := of_decide_eq_true hlt
      rcases List.mem_append.mp hr with hinit | hlast
      · rw [List.append_assoc] at hsorted
        exact lt_asymm hlt (hsorted.lt hinit (by simp))
      · rw [List.mem_singleton.mp hlast] at hlt
        exact lt_irrefl _ hlt
    have hbehind : todo.filter (fun r => decide (last.name < r.name)) = todo := by
      rw [List.filter_eq_self]
      exact fun r hr => decide_eq_true (hsorted.lt (by simp) hr)
    rw [hbefore, hbehind, List.nil_append]

theorem Facing.later {taken rest : List Varbind} (h : Facing mib base done todo)
    (hsplit : todo = taken ++ rest) (htaken : ∀ r ∈ taken, Carried r.name) :
    Facing mib base (done ++ taken) rest := by
  refine ⟨?_, h.oid, ?_⟩
  · rw [h.after, hsplit, List.append_assoc]
  · intro r hr
    rcases List.mem_append.mp hr with hold | hnew
    · exact h.carried r hold
    · exact htaken r hnew

/-- The rows that come in an answer to GETBULK. -/
def blockSize (repetitions : List Nat → Nat → Nat) (base : List Nat) (maxRows : Nat)
    (done : List Varbind) : Nat :=
  repetitions (lastName base done) (min getbulkMaxRepetitions (maxRows - done.length))

theorem transact_getNext (hagent : Conforming mib repetitions agent)
    (h : Facing mib base done todo) (maxRows attempts : Nat) (ids : Nat → RequestId) (round : Nat) :
    transact (agent round) (walkPdu (dotted (lastName base done)) (ids round) false
      (maxRows - (dict done).length)) (attempts + 1) =
      bindingsOf (keptVarbinds
        (match todo with
        | [] => [endOfMibView (lastName base done)]
        | r :: _ => [r])) := by
  obtain ⟨data, hdata, hmsg⟩ := hagent.getNext round attempts _ (ids round) h.oid_cursor
  have hanswer : mib.getNext (lastName base done) = match todo with
      | [] => [endOfMibView (lastName base done)]
      | r :: _ => [r] := by
    rw [Mib.getNext, h.after_cursor]
    cases todo <;> rfl
  rw [hanswer] at hmsg
  apply transact_of_isMessage hdata hmsg
  cases todo with
  | nil =>
    intro vb hvb
    rw [List.mem_singleton.mp hvb]
    exact h.oid_cursor.written
  | cons r rest =>
    intro vb hvb
    rw [List.mem_singleton.mp hvb]
    exact h.ordered.written r (by simp)

theorem transact_getBulk (hagent : Conforming mib repetitions agent)
    (h : Facing mib base done todo) (maxRows attempts : Nat) (ids : Nat → RequestId) (round : Nat) :
    transact (agent round) (walkPdu (dotted (lastName base done)) (ids round) true
      (maxRows - (dict done).length)) (attempts + 1) =
      bindingsOf (keptVarbinds ((todo ++ List.replicate (blockSize repetitions base maxRows done)
        (endOfMibView (lastName (lastName base done) todo))).take
          (blockSize repetitions base maxRows done))) := by
  rw [length_dict]
  obtain ⟨data, hdata, hmsg⟩ := hagent.getBulk round attempts _ (ids round)
    (min getbulkMaxRepetitions (maxRows - done.length)) h.oid_cursor
  rw [Mib.getBulk, h.after_cursor] at hmsg
  apply transact_of_isMessage hdata hmsg
  intro vb hvb
  rcases List.mem_append.mp (List.mem_of_mem_take hvb) with hrow | hfiller
  · exact h.ordered.written vb (List.mem_append_right done hrow)
  · rw [List.eq_of_mem_replicate hfiller]
    rcases List.eq_nil_or_concat' todo with rfl | ⟨init, last, rfl⟩
    · exact h.oid_cursor.written
    · rw [lastName_append]
      exact h.ordered.written last (by simp)

theorem blockSize_le (hagent : Conforming mib repetitions agent) (base : List Nat) (maxRows : Nat)
    (done : List Varbind) :
    blockSize repetitions base maxRows done ≤ maxRows - done.length :=
  (hagent.atMost _ _).trans (min_le_right _ _)

/-! ### Behind the last row -/

theorem bindingsOf_endOfMibView (n : Nat) (name : List Nat) :
    bindingsOf (keptVarbinds (List.replicate n (endOfMibView name))) =
      if 0 < n ∧ Carried name then [(dotted name, .null)] else [] := by
  rw [keptVarbinds_replicate]
  by_cases hcarried : Carried name
  · have hfiller : Carried (endOfMibView name).name := hcarried
    rw [if_pos hfiller]
    cases n with
    | zero => rfl
    | succ n =>
      rw [if_pos ⟨Nat.succ_pos n, hcarried⟩]
      induction n with
      | zero => rfl
      | succ n ih =>
        rw [List.replicate_succ', bindingsOf_append_singleton, ih]
        have hfresh : dotted name ∉ ([] : Bindings).map Prod.fst := List.not_mem_nil
        exact setItem_last hfresh _ _
  · have hfiller : ¬ Carried (endOfMibView name).name := hcarried
    rw [if_neg hfiller, if_neg fun h => hcarried h.2]
    rfl

/-- The walk behind the last row: with nothing collected the base itself is bound to null. -/
def ended (base : List Nat) (done : List Varbind) : Bindings :=
  if done = [] ∧ Carried base then [(dotted base, .null)] else dict done

theorem walkLoop_filler {cursor : List Nat} (hcursor : lastName base done = cursor)
    (hask : Askable C (dotted cursor))
    (hroom : done.length < maxRows) (hcarried : Carried cursor)
    (hparsed : transact (agent round) (walkPdu (dotted cursor) (ids round) bulk
      (maxRows - (dict done).length)) attempts = [(dotted cursor, .null)]) :
    walkLoop C agent ids (dotted base) maxRows attempts (fuel + 1) round bulk (dotted cursor)
      (dict done) = some (ended base done) := by
  have hlen : (dict done).length < maxRows := by rwa [length_dict]
  rw [walkLoop_answered hlen hask hparsed (List.cons_ne_nil _ _) rfl]
  rcases List.eq_nil_or_concat' done with rfl | ⟨init, last, rfl⟩
  · obtain rfl : base = cursor := hcursor
    have hscan : scan C (dotted base) maxRows (dict []) [(dotted base, .null)] =
        ⟨[(dotted base, .null)], some (dotted base), false⟩ := by
      have hpos : maxRows ≠ 0 := Nat.ne_of_gt hroom
      simp [scan, scanItem, dict, isNewer, setItem, Table.upsert, hpos]
    rw [hscan, ended, if_pos ⟨rfl, hcarried⟩]
    simp
  · -- the name of the last row is there: nothing is set
    rw [lastName_append] at hcursor
    have hseen : dotted cursor ∈ (dict (init ++ [last])).map Prod.fst := by
      rw [mem_keys_dict]
      exact ⟨last, by simp, by rw [hcursor]⟩
    have hscan : (scan C (dotted base) maxRows (dict (init ++ [last]))
        [(dotted cursor, .null)]).nextCurrent = none ∧
        (scan C (dotted base) maxRows (dict (init ++ [last]))
          [(dotted cursor, .null)]).result = dict (init ++ [last]) := by
      simp only [scan, List.foldl_cons, List.foldl_nil, scanItem, if_neg (not_le.mpr hlen),
        if_pos hseen]
      split <;> exact ⟨rfl, rfl⟩
    rw [ended, if_neg (by simp)]
    split
    · rw [hscan.2]
    · rename_i hnext
      rw [hscan.1] at hnext
      cases hnext

theorem transact_ended (hagent : Conforming mib repetitions agent) (h : Facing mib base done [])
    (ids : Nat → RequestId) (round : Nat) (bulk : Bool) :
    let parsed := transact (agent round) (walkPdu (dotted (lastName base done)) (ids round) bulk
      (maxRows - (dict done).length)) (attempts + 1)
    parsed = [] ∧ (bulk = true ∨ ¬ Carried (lastName base done)) ∨
      parsed = [(dotted (lastName base done), .null)] ∧ Carried (lastName base done) := by
  have hfillers := fun n => bindingsOf_endOfMibView n (lastName base done)
  cases bulk with
  | false =>
    rw [transact_getNext hagent h maxRows attempts ids round]
    have hone := hfillers 1
    by_cases hcarried : Carried (lastName base done)
    · rw [if_pos ⟨Nat.one_pos, hcarried⟩] at hone
      exact Or.inr ⟨hone, hcarried⟩
    · rw [if_neg fun h => hcarried h.2] at hone
      exact Or.inl ⟨hone, Or.inr hcarried⟩
  | true =>
    rw [transact_getBulk hagent h maxRows attempts ids round, List.nil_append,
      List.take_replicate, Nat.min_self]
    have hall := hfillers (blockSize repetitions base maxRows done)
    by_cases hsome : 0 < blockSize repetitions base maxRows done ∧ Carried (lastName base done)
    · rw [if_pos hsome] at hall
      exact Or.inr ⟨hall, hsome.2⟩
    · rw [if_neg hsome] at hall
      exact Or.inl ⟨hall, Or.inl rfl⟩

theorem walkLoop_ended (hC : C.ReadsDigits) (hagent : Conforming mib repetitions agent)
    (h : Facing mib base done [])
    (hroom : done.length < maxRows) {final : Bindings}
    (hfinal : walkLoop C agent ids (dotted base) maxRows (attempts + 1) fuel round bulk
      (dotted (lastName base done)) (dict done) = some final) : final = ended base done := by
  have hlen : (dict done).length < maxRows := by rwa [length_dict]
  induction fuel generalizing round bulk with
  | zero => cases hfinal
  | succ fuel ih =>
    rcases transact_ended hagent h ids round bulk with ⟨hsilent, hwhy⟩ | ⟨hfiller, hcarried⟩
    · rw [walkLoop_silent hlen (h.askable hC) hsilent] at hfinal
      cases bulk with
      | true => exact ih hfinal
      | false =>
        cases hfinal
        rw [ended, if_neg]
        rintro ⟨rfl, hcarried⟩
        exact hwhy.elim Bool.noConfusion fun hlong => hlong hcarried
    · rw [walkLoop_filler rfl (h.askable hC) hroom hcarried hfiller] at hfinal
      cases hfinal
      rfl

/-! ### A block of rows -/

/-- A row of the subtree that the parser keeps. -/
def wanted (base : List Nat) (r : Varbind) : Bool := decide (Carried r.name) && inside base r

theorem filter_kept (base : List Nat) (rows : List Varbind) :
    (keptVarbinds rows).filter (inside base) = rows.filter (wanted base) := by
  rw [keptVarbinds, List.filter_filter]
  apply List.filter_congr
  intro r _
  rw [wanted, Bool.and_comm]

/-- **One answer with rows.**  The rows of the subtree are collected; the walk goes on behind the
    last of them, unless there is none or the block leaves the subtree. -/
theorem walkLoop_block (hC : C.ReadsDigits) (h : Facing mib base done todo) {block : List Varbind}
    (hroom : done.length < maxRows) (hfit : done.length + block.length ≤ maxRows)
    (hnames : (block.map (·.name)).Sublist (todo.map (·.name)))
    (hcarried : ∀ r ∈ block, Carried r.name) (hne : block ≠ [])
    (hparsed : transact (agent round) (walkPdu (dotted (lastName base done)) (ids round) bulk
      (maxRows - (dict done).length)) attempts = dict block) :
    walkLoop C agent ids (dotted base) maxRows attempts (fuel + 1) round bulk
        (dotted (lastName base done)) (dict done) =
      if block.filter (inside base) = [] ∨ ∃ r ∈ block, inside base r = false then
        some (dict (done ++ block.filter (inside base)))
      else
        walkLoop C agent ids (dotted base) maxRows attempts fuel (round + 1) bulk
          (dotted (lastName base (done ++ block.filter (inside base))))
          (dict (done ++ block.filter (inside base))) := by
  have hlen : (dict done).length < maxRows := by rwa [length_dict]
  have hordered : Ordered (done ++ block) := by
    apply h.ordered.of_names
    rw [List.map_append, List.map_append]
    exact (List.Sublist.refl _).append hnames
  have hscan := scan_dict hC h.oid.written hordered hcarried hfit
  have hdict : dict block ≠ [] := by simpa [dict] using hne
  rw [walkLoop_answered hlen (h.askable hC) hparsed hdict hscan]
  rcases List.eq_nil_or_concat' (block.filter (inside base)) with hnil | ⟨init, last, hlast⟩
  · rw [hnil, if_pos (Or.inl rfl)]
    rfl
  · have hmem : last ∈ block := (List.mem_filter.mp (by rw [hlast]; simp)).1
    have hprogress : dotted last.name ≠ dotted (lastName base done) := by
      intro heq
      have hname : last.name = lastName base done := by
        apply dotted_inj _ h.oid_cursor.written.ne_nil heq
        exact (hordered.written last (List.mem_append_right done hmem)).ne_nil
      obtain ⟨r, hr, hrname⟩ := List.mem_map.mp (hnames.subset (List.mem_map_of_mem hmem))
      have hlt := h.cursor_lt hr
      rw [hrname, hname] at hlt
      exact lt_irrefl _ hlt
    rw [hlast, List.getLast?_append_cons, List.getLast?_singleton, ← List.append_assoc,
      lastName_append]
    simp only [Option.map_some, hprogress, or_false, List.any_eq_true, Bool.not_eq_true',
      List.append_eq_nil_iff, List.cons_ne_nil, and_false, false_or]

/-! ### The walk by GETNEXT -/

/-- The rows that the walk by GETNEXT has yet to collect. -/
def nextRows (base : List Nat) (maxRows : Nat) (done todo : List Varbind) : List Varbind :=
  (todo.takeWhile (wanted base)).take (maxRows - done.length)

theorem ended_of_ne_nil (h : done ≠ []) : ended base done = dict done :=
  if_neg fun hnil => h hnil.1

theorem walkLoop_getNext (hC : C.ReadsDigits) (hagent : Conforming mib repetitions agent)
    (h : Facing mib base done todo) (hne : done ++ todo ≠ []) {final : Bindings}
    (hfinal : walkLoop C agent ids (dotted base) maxRows (attempts + 1) fuel round false
      (dotted (lastName base done)) (dict done) = some final) :
    final = dict (done ++ nextRows base maxRows done todo) := by
  induction fuel generalizing done todo round with
  | zero => cases hfinal
  | succ fuel ih =>
    rcases Nat.lt_or_ge done.length maxRows with hroom | hfull
    · have hlen : (dict done).length < maxRows := by rwa [length_dict]
      cases todo with
      | nil =>
        rw [walkLoop_ended hC hagent h hroom hfinal, ended_of_ne_nil (by simpa using hne)]
        simp [nextRows]
      | cons r rest =>
        have hparsed := transact_getNext hagent h maxRows attempts ids round
        have hone : Ordered [r] := h.ordered.sublist (by simp)
        by_cases hcarried : Carried r.name
        · have hwanted : wanted base r = inside base r := by
            rw [wanted, decide_eq_true hcarried, Bool.true_and]
          rw [keptVarbinds_singleton, if_pos hcarried, bindingsOf_of_ordered hone] at hparsed
          have hfit : done.length + [r].length ≤ maxRows := hroom
          rw [walkLoop_block hC h hroom hfit (by simp) (by simpa using hcarried) (by simp) hparsed]
            at hfinal
          by_cases hinside : inside base r = true
          · rw [List.filter_cons_of_pos hinside, List.filter_nil,
              if_neg (by simp [hinside])] at hfinal
            have hlater : Facing mib base (done ++ [r]) rest :=
              h.later rfl (by simpa using hcarried)
            rw [ih hlater (by simp) hfinal, nextRows, nextRows,
              List.takeWhile_cons_of_pos (by rw [hwanted]; exact hinside), List.append_assoc]
            obtain ⟨left, hleft⟩ : ∃ left, maxRows - done.length = left + 1 :=
              ⟨maxRows - done.length - 1, by omega⟩
            have hleft' : maxRows - (done ++ [r]).length = left := by
              rw [List.length_append, List.length_singleton]
              omega
            rw [hleft, hleft', List.take_succ_cons, List.singleton_append]
          · rw [List.filter_cons_of_neg hinside, List.filter_nil, if_pos (Or.inl rfl)] at hfinal
            cases hfinal
            rw [nextRows, List.takeWhile_cons_of_neg (by rwa [hwanted]), List.take_nil]
        · rw [keptVarbinds_singleton, if_neg hcarried] at hparsed
          rw [walkLoop_silent hlen (h.askable hC) hparsed] at hfinal
          cases hfinal
          have hunwanted : ¬ wanted base r = true := by simp [wanted, hcarried]
          rw [nextRows, List.takeWhile_cons_of_neg hunwanted, List.take_nil, List.append_nil]
    · rw [walkLoop_full (by rwa [length_dict])] at hfinal
      cases hfinal
      rw [nextRows, Nat.sub_eq_zero_of_le hfull, List.take_zero, List.append_nil]

end Exchange

end Srp.Printers
