/-
  Srp/Printers/WalkRows.lean
  ==========================
  **One step of a table walk.**

  The texts of names are compared as the numbers in them are (`oidKey_dotted`,
  `in_subtree_iff`).  The parser makes a dictionary of the rows that an answer
  brings, in which a filler takes the place of the last value
  (`bindingsOf_getBulk`); a scan of rows in order collects those of the subtree
  (`scan_dict`).  A walk never takes back a row, and it ends
  (`isSome_walkLoop`).
-/
import Srp.Printers.SnmpWalk

namespace Srp.Printers

open Srp.Lib Srp.Lib.Lines Srp.Lib.Octets Srp.Lib.PyInt

/-! ### Names -/

/-- What lies between a name and one that it begins is begun by it too. -/
theorem prefix_of_between {base x y : List Nat} (hx : base < x) (hxy : x < y) (hy : base <+: y) :
    base <+: x := by
  induction base generalizing x y with
  | nil => exact List.nil_prefix
  | cons b base ih =>
    obtain ⟨rest, rfl⟩ := hy
    cases x with
    | nil => exact absurd hx (by simp)
    | cons a x =>
      rw [List.cons_append] at hxy
      rcases List.cons_lt_cons_iff.mp hx with hlt | ⟨rfl, hbehind⟩
      · rcases List.cons_lt_cons_iff.mp hxy with hgt | ⟨rfl, _⟩
        · exact absurd (hlt.trans hgt) (lt_irrefl b)
        · exact absurd hlt (lt_irrefl a)
      · rcases List.cons_lt_cons_iff.mp hxy with hgt | ⟨_, hbefore⟩
        · exact absurd hgt (lt_irrefl b)
        · exact List.cons_prefix_cons.mpr ⟨rfl, ih hbehind hbefore (List.prefix_append base rest)⟩

theorem map_cast_lt {x y : List Nat} (h : x < y) :
    x.map (fun n : Nat => (n : Int)) < y.map fun n : Nat => (n : Int) := by
  induction x generalizing y with
  | nil =>
    cases y with
    | nil => exact absurd h (lt_irrefl _)
    | cons b y => exact List.nil_lt_cons _ _
  | cons a x ih =>
    cases y with
    | nil => exact absurd h (by simp)
    | cons b y =>
      rw [List.map_cons, List.map_cons, List.cons_lt_cons_iff]
      rcases List.cons_lt_cons_iff.mp h with hlt | ⟨rfl, hlt⟩
      · exact Or.inl (by exact_mod_cast hlt)
      · exact Or.inr ⟨rfl, ih hlt⟩

/-- No number of a name that the parser gives is too long for `int()`. -/
theorem lt_of_mem_carried {name : List Nat} (hname : Written name) (h : Carried name) {n : Nat}
    (hn : n ∈ name) : n < 10 ^ maxStrDigits := by
  have hpow : ∀ k, k ≤ maxStrDigits → 10 ^ k ≤ 10 ^ maxStrDigits :=
    fun k hk => Nat.pow_le_pow_right (by decide) hk
  match name, hname with
  | a :: b :: rest, ⟨ha, hb⟩ =>
    have hsmall := hpow 2 (by decide)
    rcases List.mem_cons.mp hn with rfl | hn
    · omega
    rcases List.mem_cons.mp hn with rfl | hn
    · omega
    have hlen : 3 * (rest.flatMap sevenBits).length ≤ maxStrDigits := by
      simp only [Carried, oidBody, List.length_cons, maxOidBytes] at h
      simp only [maxStrDigits]
      omega
    rw [← ofSevenBits_flatMap rest] at hn
    calc n < (0 + 1) * 128 ^ (rest.flatMap sevenBits).length := lt_of_mem_ofSevenBits hn
      _ = 128 ^ (rest.flatMap sevenBits).length := by rw [Nat.zero_add, Nat.one_mul]
      _ ≤ (10 ^ 3) ^ (rest.flatMap sevenBits).length := Nat.pow_le_pow_left (by decide) _
      _ = 10 ^ (3 * (rest.flatMap sevenBits).length) := (Nat.pow_mul 10 3 _).symm
      _ ≤ 10 ^ maxStrDigits := hpow _ hlen

variable {C : PyChars}

theorem mapM_pyInt_of_short {arcs : List Nat}
    (h : ∀ n ∈ arcs, pyInt C (Nat.toDigits 10 n) = some (n : Int)) :
    (arcs.map (Nat.toDigits 10)).mapM (pyInt C) = some (arcs.map fun n : Nat => (n : Int)) := by
  induction arcs with
  | nil => rfl
  | cons n arcs ih =>
    rw [List.map_cons, List.mapM_cons, h n List.mem_cons_self,
      ih fun m hm => h m (List.mem_cons_of_mem n hm)]
    rfl

/-- The key of a name that the parser gives. -/
theorem oidKey_dotted (hC : C.ReadsDigits) {name : List Nat} (hname : Written name)
    (h : Carried name) : oidKey C (dotted name) = some (name.map fun n : Nat => (n : Int)) := by
  unfold oidKey
  rw [splitOn_dotted hname.ne_nil]
  apply mapM_pyInt_of_short
  intro n hn
  rw [pyInt_toDigits hC, if_neg]
  rw [not_lt, Nat.length_toDigits_le_iff (by decide) (by decide)]
  exact lt_of_mem_carried hname h hn

/-! ### Names that can be asked -/

theorem length_flatMap_sevenBits_le {k : Nat} {arcs : List Nat} (h : ∀ n ∈ arcs, n < 128 ^ k) :
    (arcs.flatMap sevenBits).length ≤ arcs.length * 128 ^ k := by
  induction arcs with
  | nil => simp
  | cons n arcs ih =>
    have hone := length_sevenBits_le n
    have hn := h n List.mem_cons_self
    have hrest := ih fun m hm => h m (List.mem_cons_of_mem n hm)
    rw [List.flatMap_cons, List.length_append, List.length_cons, Nat.succ_mul]
    omega

/-- `encode_oid` writes every identifier whose first two numbers share an octet, if it has at most
    128 others and none of more than 128 digits in base 128. -/
theorem askable_dotted (hC : C.ReadsDigits) {a b : Nat} {rest : List Nat} (k : Nat)
    (hfirst : 40 * a + b < 256) (hlength : rest.length ≤ 128) (hk : k ≤ 128)
    (hnumbers : ∀ n ∈ a :: b :: rest, n < 128 ^ k) :
    Askable C (dotted (a :: b :: rest)) := by
  have hdigits : ∀ n ∈ a :: b :: rest, pyInt C (Nat.toDigits 10 n) = some (n : Int) := by
    intro n hn
    rw [pyInt_toDigits hC, if_neg]
    rw [not_lt, Nat.length_toDigits_le_iff (by decide) (by decide)]
    calc n < 128 ^ k := hnumbers n hn
      _ ≤ (10 ^ 3) ^ k := Nat.pow_le_pow_left (by decide) k
      _ = 10 ^ (3 * k) := (Nat.pow_mul 10 3 k).symm
      _ ≤ 10 ^ maxStrDigits := Nat.pow_le_pow_right (by decide) (by rw [maxStrDigits]; omega)
  have hvalues := mapM_pyInt_of_short hdigits
  have hoctet : byteOf (40 * (a : Int) + b) = some (UInt8.ofNat (40 * a + b)) := by
    have hbyte := byteOf_lt hfirst
    push_cast at hbyte
    exact hbyte
  have hlen : (UInt8.ofNat (40 * a + b) :: (rest.map sevenBits).flatten).length < maxLength := by
    have hrest : ∀ n ∈ rest, n < 128 ^ k := fun n hn => hnumbers n (by simp [hn])
    have hflat := length_flatMap_sevenBits_le hrest
    have hmul : rest.length * 128 ^ k ≤ 128 * 128 ^ k := Nat.mul_le_mul_right _ hlength
    have hpow : 128 ^ (k + 2) ≤ maxLength := by
      calc 128 ^ (k + 2) = (2 ^ 7) ^ (k + 2) := rfl
        _ = 2 ^ (7 * (k + 2)) := (Nat.pow_mul 2 7 (k + 2)).symm
        _ ≤ 2 ^ (8 * 127) := Nat.pow_le_pow_right (by decide) (by omega)
        _ = maxLength := Nat.pow_mul 2 8 127
    have hone : 1 ≤ 128 ^ k := Nat.one_le_pow _ _ (by decide)
    rw [Nat.pow_succ, Nat.pow_succ] at hpow
    rw [List.length_cons, ← List.flatMap_def]
    omega
  obtain ⟨bytes, hbytes, _⟩ := encodeTlv_of_lt 0x06 hlen
  have hwhole : encodeOid C (dotted (a :: b :: rest)) = some bytes := by
    rw [encodeOid, splitOn_dotted (by simp), hvalues]
    simp only [List.map_cons, Option.bind_eq_bind, Option.bind_some, hoctet, mapM_arcOctets, hbytes]
  rw [Askable, hwhole]
  rfl

/-- `oid == base_oid or oid.startswith(prefix)`. -/
theorem in_subtree_iff {base name : List Nat} (hbase : base ≠ []) (hname : name ≠ []) :
    dotted name = dotted base ∨ (dotted base ++ ['.']).isPrefixOf (dotted name) ↔
      base <+: name := by
  rw [List.isPrefixOf_iff_prefix, dotted_prefix_iff hbase hname]
  constructor
  · rintro (heq | ⟨hbelow, _⟩)
    · rw [dotted_inj hname hbase heq]
    · exact hbelow
  · intro hbelow
    by_cases heq : base = name
    · exact Or.inl (by rw [heq])
    · exact Or.inr ⟨hbelow, heq⟩

/-! ### Dictionaries of rows -/

def binding (r : Varbind) : Text × SnmpValue := (dotted r.name, decodeValue r.valueTag r.value)

def dict (rows : List Varbind) : Bindings := rows.map binding

@[simp] theorem dict_append (xs ys : List Varbind) : dict (xs ++ ys) = dict xs ++ dict ys :=
  List.map_append

@[simp] theorem length_dict (rows : List Varbind) : (dict rows).length = rows.length :=
  List.length_map _

theorem mem_keys_dict {rows : List Varbind} {oid : Text} :
    oid ∈ (dict rows).map Prod.fst ↔ ∃ r ∈ rows, dotted r.name = oid := by
  rw [dict, List.map_map]
  exact List.mem_map

/-- Rows with names that `build_request` can write, each behind the one before. -/
structure Ordered (rows : List Varbind) : Prop where
  sorted : rows.Pairwise (·.name < ·.name)
  written : ∀ r ∈ rows, Written r.name

theorem Ordered.sublist {xs ys : List Varbind} (h : Ordered ys) (hsub : xs.Sublist ys) :
    Ordered xs :=
  ⟨h.sorted.sublist hsub, fun r hr => h.written r (hsub.subset hr)⟩

theorem Ordered.lt {xs ys : List Varbind} (h : Ordered (xs ++ ys)) {r s : Varbind} (hr : r ∈ xs)
    (hs : s ∈ ys) : r.name < s.name :=
  (List.pairwise_append.mp h.sorted).2.2 r hr s hs

theorem Ordered.nodup {rows : List Varbind} (h : Ordered rows) :
    ((dict rows).map Prod.fst).Nodup := by
  rw [dict, List.map_map, List.Nodup, List.pairwise_map]
  apply h.sorted.imp_of_mem
  intro r s hr hs hlt hrs
  rw [dotted_inj (h.written r hr).ne_nil (h.written s hs).ne_nil hrs] at hlt
  exact lt_irrefl _ hlt

theorem Ordered.eq_of_dotted {rows : List Varbind} (h : Ordered rows) {r s : Varbind}
    (hr : r ∈ rows) (hs : s ∈ rows) (heq : dotted r.name = dotted s.name) : r = s := by
  have hnodup := h.nodup
  rw [dict, List.map_map] at hnodup
  exact List.inj_on_of_nodup_map hnodup hr hs heq

theorem Ordered.not_mem_keys {xs ys : List Varbind} (h : Ordered (xs ++ ys)) {s : Varbind}
    (hs : s ∈ ys) : dotted s.name ∉ (dict xs).map Prod.fst := by
  intro hmem
  obtain ⟨r, hr, heq⟩ := mem_keys_dict.mp hmem
  have hname : r.name = s.name := by
    apply dotted_inj _ _ heq
    · exact (h.written r (List.mem_append_left ys hr)).ne_nil
    · exact (h.written s (List.mem_append_right xs hs)).ne_nil
  have hlt := h.lt hr hs
  rw [hname] at hlt
  exact lt_irrefl _ hlt

theorem Ordered.of_names {xs ys : List Varbind} (h : Ordered ys)
    (hnames : (xs.map (·.name)).Sublist (ys.map (·.name))) : Ordered xs := by
  have hsorted : (ys.map (·.name)).Pairwise (· < ·) := List.pairwise_map.mpr h.sorted
  refine ⟨List.pairwise_map.mp (hsorted.sublist hnames), ?_⟩
  intro r hr
  obtain ⟨s, hs, heq⟩ := List.mem_map.mp (hnames.subset (List.mem_map_of_mem hr))
  rw [← heq]
  exact h.written s hs

/-! ### What the parser makes of an answer -/

@[simp] theorem endOfMibView_name (name : List Nat) : (endOfMibView name).name = name := rfl

theorem setItem_fresh {result : Bindings} {oid : Text} (h : oid ∉ result.map Prod.fst)
    (value : SnmpValue) : setItem result oid value = result ++ [(oid, value)] :=
  Table.upsert_of_not_mem h

theorem setItem_last {result : Bindings} {oid : Text} (h : oid ∉ result.map Prod.fst)
    (old value : SnmpValue) :
    setItem (result ++ [(oid, old)]) oid value = result ++ [(oid, value)] := by
  unfold setItem
  induction result with
  | nil => simp [Table.upsert]
  | cons item result ih =>
    rw [List.map_cons, List.mem_cons, not_or] at h
    rw [List.cons_append, Table.upsert, if_neg (Ne.symm h.1), ih h.2, List.cons_append]

theorem bindingsOf_append_singleton (vbs : List Varbind) (vb : Varbind) : bindingsOf (vbs ++ [vb]) =
    setItem (bindingsOf vbs) (dotted vb.name) (decodeValue vb.valueTag vb.value) := by
  rw [bindingsOf, List.foldl_append]
  rfl

theorem bindingsOf_of_ordered {rows : List Varbind} (h : Ordered rows) :
    bindingsOf rows = dict rows := by
  rw [bindingsOf_eq]
  exact Table.upsertAll_of_fresh h.nodup

@[simp] theorem keptVarbinds_append (xs ys : List Varbind) :
    keptVarbinds (xs ++ ys) = keptVarbinds xs ++ keptVarbinds ys := List.filter_append xs ys

theorem keptVarbinds_replicate (n : Nat) (vb : Varbind) :
    keptVarbinds (List.replicate n vb) = if Carried vb.name then List.replicate n vb else [] := by
  rw [keptVarbinds, List.filter_replicate]
  simp only [decide_eq_true_eq]

theorem keptVarbinds_singleton (vb : Varbind) :
    keptVarbinds [vb] = if Carried vb.name then [vb] else [] := keptVarbinds_replicate 1 vb

/-- Fillers behind the last row put their null in the place of its value. -/
theorem bindingsOf_fillers {init : List Varbind} {last : Varbind} (h : Ordered (init ++ [last]))
    (m : Nat) :
    bindingsOf (init ++ [last] ++ List.replicate (m + 1) (endOfMibView last.name)) =
      dict (init ++ [endOfMibView last.name]) := by
  have hfresh := h.not_mem_keys (List.mem_singleton_self last)
  have hinit := bindingsOf_of_ordered h
  induction m with
  | zero =>
    rw [List.replicate_one, bindingsOf_append_singleton, hinit, dict_append, dict_append]
    exact setItem_last hfresh _ _
  | succ m ih =>
    rw [List.replicate_succ', ← List.append_assoc, bindingsOf_append_singleton, ih, dict_append]
    exact setItem_last hfresh _ _

/-- The `n` repetitions behind which there is a row, or the last row closed by fillers. -/
def replied (n : Nat) (rows : List Varbind) : List Varbind :=
  if rows.length < n then rows.dropLast ++ [endOfMibView (lastName [] rows)] else rows.take n

theorem lastName_append (name : List Nat) (init : List Varbind) (last : Varbind) :
    lastName name (init ++ [last]) = last.name := by
  unfold lastName
  rw [List.getLast?_append_cons, List.getLast?_singleton]
  rfl

theorem replied_append {n : Nat} {init : List Varbind} {last : Varbind} (h : init.length + 1 < n) :
    replied n (init ++ [last]) = init ++ [endOfMibView last.name] := by
  rw [replied, lastName_append, List.dropLast_concat, if_pos]
  rwa [List.length_append, List.length_singleton]

/-- The names are those of the block of rows. -/
theorem names_replied {n : Nat} {rows : List Varbind} (hrows : rows ≠ []) :
    (replied n rows).map (·.name) = (rows.take n).map (·.name) := by
  by_cases hshort : rows.length < n
  · obtain ⟨init, last, rfl⟩ := (List.eq_nil_or_concat' rows).resolve_left hrows
    rw [List.length_append, List.length_singleton] at hshort
    rw [replied_append hshort, List.take_of_length_le (by simp; omega), List.map_append,
      List.map_append]
    rfl
  · rw [replied, if_neg hshort]

/-- **What the parser makes of an answer to GETBULK.** -/
theorem bindingsOf_getBulk {n : Nat} {name : List Nat} {rows : List Varbind} (hrows : rows ≠ [])
    (h : Ordered rows) :
    bindingsOf (keptVarbinds
      ((rows ++ List.replicate n (endOfMibView (lastName name rows))).take n)) =
      dict (keptVarbinds (replied n rows)) := by
  by_cases hshort : rows.length < n
  · obtain ⟨init, last, rfl⟩ := (List.eq_nil_or_concat' rows).resolve_left hrows
    rw [List.length_append, List.length_singleton] at hshort
    obtain ⟨m, hm⟩ : ∃ m, n - (init.length + 1) = m + 1 := ⟨n - (init.length + 1) - 1, by omega⟩
    have htake : (init ++ [last] ++ List.replicate n (endOfMibView last.name)).take n =
        init ++ [last] ++ List.replicate (m + 1) (endOfMibView last.name) := by
      rw [List.take_append, List.take_of_length_le (by simp; omega), List.take_replicate,
        List.length_append, List.length_singleton, hm, min_eq_left (by omega)]
    rw [lastName_append, htake, replied_append hshort]
    simp only [keptVarbinds_append, keptVarbinds_singleton, keptVarbinds_replicate]
    have hinit : Ordered (keptVarbinds init ++ [last]) :=
      h.sublist (List.filter_sublist.append (List.Sublist.refl _))
    by_cases hcarried : Carried last.name
    · have hfiller : Carried (endOfMibView last.name).name := hcarried
      simp only [if_pos hcarried, if_pos hfiller]
      exact bindingsOf_fillers hinit m
    · have hfiller : ¬ Carried (endOfMibView last.name).name := hcarried
      simp only [if_neg hcarried, if_neg hfiller, List.append_nil]
      exact bindingsOf_of_ordered (hinit.sublist (List.sublist_append_left _ _))
  · rw [replied, if_neg hshort, List.take_append_of_le_length (not_lt.mp hshort)]
    exact bindingsOf_of_ordered (h.sublist (List.filter_sublist.trans (List.take_sublist n rows)))

/-! ### The scan of a block -/

/-- The row is in the subtree. -/
def inside (base : List Nat) (r : Varbind) : Bool := base.isPrefixOf r.name

theorem inside_iff {base : List Nat} {r : Varbind} : inside base r = true ↔ base <+: r.name :=
  List.isPrefixOf_iff_prefix

theorem isNewer_dotted (hC : C.ReadsDigits) {name : List Nat} {next : Option (List Nat)}
    (hname : Written name) (hcarried : Carried name)
    (hnext : ∀ m ∈ next, Written m ∧ Carried m ∧ m < name) :
    isNewer C (dotted name) (next.map dotted) = true := by
  cases next with
  | none => rfl
  | some m =>
    obtain ⟨hm, hmcarried, hlt⟩ := hnext m rfl
    rw [Option.map_some, isNewer, oidKey_dotted hC hname hcarried, oidKey_dotted hC hm hmcarried]
    exact decide_eq_true (map_cast_lt hlt)

theorem foldl_scanItem (hC : C.ReadsDigits) {base : List Nat} (hbase : Written base) {maxRows : Nat}
    {done block : List Varbind} (h : Ordered (done ++ block))
    (hcarried : ∀ r ∈ block, Carried r.name) (hroom : done.length + block.length ≤ maxRows)
    (next : Option (List Nat))
    (hnext : ∀ m ∈ next, Written m ∧ Carried m ∧ ∀ r ∈ block, m < r.name) (left : Bool) :
    (dict block).foldl (scanItem C (dotted base) maxRows) ⟨dict done, next.map dotted, left⟩ =
      ⟨dict (done ++ block.filter (inside base)),
        (((block.filter (inside base)).getLast?.map (·.name)).or next).map dotted,
        left || block.any fun r => !inside base r⟩ := by
  induction block generalizing done next left with
  | nil => simp [dict]
  | cons r block ih =>
    have hwritten : Written r.name := h.written r (by simp)
    have hfresh : dotted r.name ∉ (dict done).map Prod.fst := h.not_mem_keys List.mem_cons_self
    have hsub : ((dotted r.name = dotted base ∨
        (dotted base ++ ['.']).isPrefixOf (dotted r.name)) ↔ inside base r = true) :=
      (in_subtree_iff hbase.ne_nil hwritten.ne_nil).trans inside_iff.symm
    have hbehind : ∀ s ∈ block, r.name < s.name :=
      (List.pairwise_cons.mp (List.pairwise_append.mp h.sorted).2.1).1
    rw [List.length_cons] at hroom
    have hitem : scanItem C (dotted base) maxRows ⟨dict done, next.map dotted, left⟩ (binding r) =
        if inside base r then ⟨dict (done ++ [r]), some (dotted r.name), left⟩
        else ⟨dict done, next.map dotted, true⟩ := by
      have hnewer : isNewer C (dotted r.name) (next.map dotted) = true := by
        apply isNewer_dotted hC hwritten (hcarried r List.mem_cons_self)
        exact fun m hm => ⟨(hnext m hm).1, (hnext m hm).2.1, (hnext m hm).2.2 r List.mem_cons_self⟩
      unfold scanItem
      rw [if_neg (by simp; omega)]
      simp only [binding, hsub, hfresh, hnewer, if_false, if_true, setItem_fresh hfresh,
        dict_append]
      rfl
    have hdict : dict (r :: block) = binding r :: dict block := rfl
    rw [hdict, List.foldl_cons, hitem]
    by_cases hinside : inside base r = true
    · rw [if_pos hinside, List.filter_cons_of_pos hinside]
      have hsplit : Ordered (done ++ [r] ++ block) := by
        rwa [List.append_assoc, List.singleton_append]
      have hrest := ih hsplit (fun s hs => hcarried s (List.mem_cons_of_mem r hs))
        (by simp; omega) (some r.name)
        (by
          intro m hm
          cases hm
          exact ⟨hwritten, hcarried r List.mem_cons_self, hbehind⟩) left
      rw [Option.map_some] at hrest
      rw [hrest, List.append_assoc, List.singleton_append, List.any_cons, hinside,
        List.getLast?_cons]
      cases (block.filter (inside base)).getLast? <;> rfl
    · rw [if_neg hinside, List.filter_cons_of_neg hinside]
      have hsplit : Ordered (done ++ block) :=
        h.sublist ((List.Sublist.refl done).append (List.sublist_cons_self r block))
      rw [ih hsplit (fun s hs => hcarried s (List.mem_cons_of_mem r hs)) (by omega) next
        (fun m hm => ⟨(hnext m hm).1, (hnext m hm).2.1,
          fun s hs => (hnext m hm).2.2 s (List.mem_cons_of_mem r hs)⟩) true]
      simp [hinside]

theorem scan_dict (hC : C.ReadsDigits) {base : List Nat} (hbase : Written base) {maxRows : Nat}
    {done block : List Varbind} (h : Ordered (done ++ block))
    (hcarried : ∀ r ∈ block, Carried r.name) (hroom : done.length + block.length ≤ maxRows) :
    scan C (dotted base) maxRows (dict done) (dict block) =
      ⟨dict (done ++ block.filter (inside base)),
        (block.filter (inside base)).getLast?.map fun r => dotted r.name,
        block.any fun r => !inside base r⟩ := by
  have hfold := foldl_scanItem hC hbase h hcarried hroom none (by simp) false
  rw [Option.map_none, Option.or_none, Option.map_map, Bool.false_or] at hfold
  exact hfold

/-! ### A walk never takes back a row -/

theorem scanItem_grows (C : PyChars) (base : Text) (maxRows : Nat) (s : Scan)
    (item : Text × SnmpValue) :
    s.result <+: (scanItem C base maxRows s item).result ∧
      ((scanItem C base maxRows s item).nextCurrent ≠ s.nextCurrent →
        s.result.length < (scanItem C base maxRows s item).result.length) := by
  unfold scanItem
  split
  · exact ⟨List.prefix_rfl, fun h => absurd rfl h⟩
  · split
    · split
      · exact ⟨List.prefix_rfl, fun h => absurd rfl h⟩
      · rename_i hfresh
        rw [setItem_fresh hfresh]
        exact ⟨List.prefix_append _ _, fun _ => by simp⟩
    · exact ⟨List.prefix_rfl, fun h => absurd rfl h⟩

theorem foldl_scanItem_grows (base : Text) (maxRows : Nat) (parsed : Bindings) (s : Scan) :
    s.result <+: (parsed.foldl (scanItem C base maxRows) s).result ∧
      ((parsed.foldl (scanItem C base maxRows) s).nextCurrent ≠ s.nextCurrent →
        s.result.length < (parsed.foldl (scanItem C base maxRows) s).result.length) := by
  induction parsed generalizing s with
  | nil => exact ⟨List.prefix_rfl, fun h => absurd rfl h⟩
  | cons item parsed ih =>
    obtain ⟨hone, hnext⟩ := scanItem_grows C base maxRows s item
    obtain ⟨hrest, hlater⟩ := ih (scanItem C base maxRows s item)
    rw [List.foldl_cons]
    refine ⟨hone.trans hrest, fun hchange => ?_⟩
    by_cases hsame : (scanItem C base maxRows s item).nextCurrent = s.nextCurrent
    · rw [← hsame] at hchange
      exact hone.length_le.trans_lt (hlater hchange)
    · exact (hnext hsame).trans_le hrest.length_le

theorem prefix_scan (C : PyChars) (base : Text) (maxRows : Nat) (result parsed : Bindings) :
    result <+: (scan C base maxRows result parsed).result :=
  (foldl_scanItem_grows base maxRows parsed ⟨result, none, false⟩).1

/-- A walk that goes on has a new row. -/
theorem lt_scan_of_next {base : Text} {maxRows : Nat} {result parsed : Bindings} {next : Text}
    (h : (scan C base maxRows result parsed).nextCurrent = some next) :
    result.length < (scan C base maxRows result parsed).result.length := by
  apply (foldl_scanItem_grows base maxRows parsed ⟨result, none, false⟩).2
  intro hnone
  rw [scan, hnone] at h
  cases h

/-- The cursor of the next request is a name that the answer brought. -/
theorem foldl_scanItem_next (base : Text) (maxRows : Nat) (parsed : Bindings) (s : Scan)
    {next : Text} (h : (parsed.foldl (scanItem C base maxRows) s).nextCurrent = some next) :
    s.nextCurrent = some next ∨ ∃ value, (next, value) ∈ parsed := by
  induction parsed generalizing s with
  | nil => exact Or.inl h
  | cons item parsed ih =>
    rw [List.foldl_cons] at h
    rcases ih (scanItem C base maxRows s item) h with hone | ⟨value, hlater⟩
    · have hitem : (scanItem C base maxRows s item).nextCurrent = s.nextCurrent ∨
          (scanItem C base maxRows s item).nextCurrent = some item.1 := by
        unfold scanItem
        split
        · exact Or.inl rfl
        · split
          · split
            · exact Or.inl rfl
            · dsimp only
              split
              · exact Or.inr rfl
              · exact Or.inl rfl
          · exact Or.inl rfl
      rcases hitem with hsame | hnew
      · rw [hsame] at hone
        exact Or.inl hone
      · rw [hnew] at hone
        cases hone
        exact Or.inr ⟨item.2, List.mem_cons_self⟩
    · exact Or.inr ⟨value, List.mem_cons_of_mem item hlater⟩

theorem mem_of_nextCurrent {base : Text} {maxRows : Nat} {result parsed : Bindings} {next : Text}
    (h : (scan C base maxRows result parsed).nextCurrent = some next) :
    ∃ value, (next, value) ∈ parsed := by
  rcases foldl_scanItem_next base maxRows parsed ⟨result, none, false⟩ h with hnone | hmem
  · cases hnone
  · exact hmem

/-! ### Every name that the parser gives can be asked -/

theorem askable_decodeOid (hC : C.ReadsDigits) {body : Bytes} (h : decodeOid body ≠ []) :
    Askable C (decodeOid body) := by
  cases body with
  | nil => exact absurd rfl h
  | cons first rest =>
    by_cases hlong : maxOidBytes < (first :: rest).length
    · rw [decodeOid, if_pos hlong] at h
      exact absurd rfl h
    · rw [decodeOid, if_neg hlong]
      rw [List.length_cons, maxOidBytes] at hlong
      have hbyte := first.toNat_lt
      have hpow : 128 ≤ 128 ^ (rest.length + 1) := Nat.le_self_pow (by omega) 128
      have hlength : (ofSevenBits 0 rest).length ≤ rest.length := length_ofSevenBits_le 0 rest
      apply askable_dotted hC (rest.length + 1)
      · omega
      · omega
      · omega
      · intro n hn
        rcases List.mem_cons.mp hn with rfl | hn
        · omega
        rcases List.mem_cons.mp hn with rfl | hn
        · omega
        calc n < (0 + 1) * 128 ^ rest.length := lt_of_mem_ofSevenBits hn
          _ = 128 ^ rest.length := by rw [Nat.zero_add, Nat.one_mul]
          _ ≤ 128 ^ (rest.length + 1) := Nat.pow_le_pow_right (by decide) (Nat.le_succ _)

theorem askable_of_isOid (hC : C.ReadsDigits) {name : List Nat} (h : IsOid name) :
    Askable C (dotted name) := by
  obtain ⟨hwritten, hlength, hnumbers⟩ := h
  match name, hwritten with
  | a :: b :: rest, ⟨ha, hb⟩ =>
    rw [List.length_cons, List.length_cons] at hlength
    apply askable_dotted hC 5
    · omega
    · omega
    · omega
    · exact fun n hn => (hnumbers n hn).trans (by decide)

/-- The names come from the decoder. -/
def Decoded (result : Bindings) : Prop :=
  ∀ item ∈ result, ∃ body, item.1 = decodeOid body ∧ decodeOid body ≠ []

theorem decoded_readVarbind {result result' : Bindings} {item : UInt8 × Bytes}
    (h : readVarbind result item = some result') (hresult : Decoded result) : Decoded result' := by
  unfold readVarbind at h
  split at h
  · cases h
    exact hresult
  · split at h
    · cases h
    · rename_i name _ _ _ _
      split at h
      · cases h
        exact hresult
      · split at h
        · cases h
          exact hresult
        · rename_i hne
          cases h
          intro item hitem
          rcases Table.mem_upsert hitem with hold | rfl | ⟨_, _, rfl⟩
          · exact hresult item hold
          · exact ⟨name, rfl, hne⟩
          · exact ⟨name, rfl, hne⟩
    · cases h
      exact hresult

theorem decoded_foldlM {items : List (UInt8 × Bytes)} {result result' : Bindings}
    (h : items.foldlM readVarbind result = some result') (hresult : Decoded result) :
    Decoded result' := by
  induction items generalizing result with
  | nil =>
    cases h
    exact hresult
  | cons item items ih =>
    rw [List.foldlM_cons] at h
    obtain ⟨next, hnext, hrest⟩ := Option.bind_eq_some_iff.mp h
    exact ih hrest (decoded_readVarbind hnext hresult)

theorem decoded_nil : Decoded [] := by
  intro item hitem
  cases hitem

theorem decoded_parseItems {items : List (UInt8 × Bytes)} {parsed : Option Int × Bindings}
    (h : parseItems items = some parsed) : Decoded parsed.2 := by
  unfold parseItems at h
  split at h
  · cases h
    exact decoded_nil
  · obtain ⟨varbinds, _, h⟩ := Option.bind_eq_some_iff.mp h
    obtain ⟨bindings, hbindings, h⟩ := Option.bind_eq_some_iff.mp h
    cases h
    exact decoded_foldlM hbindings decoded_nil

theorem decoded_parseBody {data : Bytes} {parsed : Option Int × Bindings}
    (h : parseBody data = some parsed) : Decoded parsed.2 := by
  unfold parseBody at h
  split at h
  · cases h
  · split at h
    · cases h
      exact decoded_nil
    · obtain ⟨items, _, h⟩ := Option.bind_eq_some_iff.mp h
      split at h
      · cases h
        exact decoded_nil
      · obtain ⟨pduItems, _, h⟩ := Option.bind_eq_some_iff.mp h
        exact decoded_parseItems h

/-- **Whatever the octets, the names that `_parse_message` gives come from the decoder.** -/
theorem decoded_parseMessage (data : Bytes) : Decoded (parseMessage data).2 := by
  unfold parseMessage
  cases h : parseBody data with
  | none => exact decoded_nil
  | some parsed => exact decoded_parseBody h

theorem decoded_transact (replies : Nat → Request → Option Bytes) (pkt : Request)
    (attempts : Nat) : Decoded (transact replies pkt attempts) := by
  induction attempts with
  | zero => exact decoded_nil
  | succ attempts ih =>
    rw [transact]
    split
    · exact ih
    · split
      · split
        · exact ih
        · exact decoded_parseMessage _
      · exact decoded_parseMessage _

theorem askable_of_transact (hC : C.ReadsDigits) {replies : Nat → Request → Option Bytes}
    {pkt : Request} {attempts : Nat} {oid : Text} {value : SnmpValue}
    (h : (oid, value) ∈ transact replies pkt attempts) : Askable C oid := by
  obtain ⟨body, rfl, hne⟩ := decoded_transact replies pkt attempts _ h
  exact askable_decodeOid hC hne

/-! ### The walk ends -/

section Step

variable {agent : Agent} {ids : Nat → RequestId} {base current : Text}
  {maxRows attempts fuel round : Nat} {bulk : Bool} {result : Bindings}

theorem prefix_walkLoop {final : Bindings}
    (h : walkLoop C agent ids base maxRows attempts fuel round bulk current result = some final) :
    result <+: final := by
  induction fuel generalizing round bulk current result with
  | zero => cases h
  | succ fuel ih =>
    rcases Nat.lt_or_ge result.length maxRows with hroom | hfull
    · by_cases hask : Askable C current
      · by_cases hparsed :
            transact (agent round) (walkPdu current (ids round) bulk (maxRows - result.length))
              attempts = []
        · rw [walkLoop_silent hroom hask hparsed] at h
          cases bulk with
          | true => exact ih h
          | false =>
            cases h
            exact List.prefix_rfl
        · rw [walkLoop_answered hroom hask rfl hparsed rfl] at h
          have hscan := prefix_scan C base maxRows result
          split at h
          · cases h
            exact hscan _
          · split at h
            · cases h
              exact hscan _
            · exact (hscan _).trans (ih h)
      · rw [walkLoop_raises hroom hask] at h
        cases h
    · rw [walkLoop_full hfull] at h
      cases h
      exact List.prefix_rfl

/-- **The walk ends.**  A step that goes on adds a row, and GETBULK is given up once. -/
theorem isSome_walkLoop (hC : C.ReadsDigits) (hask : Askable C current)
    (hfuel : maxRows - result.length + (if bulk then 2 else 1) ≤ fuel) :
    (walkLoop C agent ids base maxRows attempts fuel round bulk current result).isSome := by
  induction fuel generalizing round bulk current result with
  | zero => cases bulk <;> simp at hfuel
  | succ fuel ih =>
    rcases Nat.lt_or_ge result.length maxRows with hroom | hfull
    · by_cases hparsed :
          transact (agent round) (walkPdu current (ids round) bulk (maxRows - result.length))
            attempts = []
      · rw [walkLoop_silent hroom hask hparsed]
        cases bulk with
        | true =>
          apply ih hask
          simpa using hfuel
        | false => rfl
      · rw [walkLoop_answered hroom hask rfl hparsed rfl]
        split
        · rfl
        · rename_i next hnext
          have hgrow := lt_scan_of_next hnext
          split
          · rfl
          · apply ih
            · obtain ⟨value, hitem⟩ := mem_of_nextCurrent hnext
              exact askable_of_transact hC hitem
            · omega
    · rw [walkLoop_full hfull]
      rfl

end Step

end Srp.Printers
