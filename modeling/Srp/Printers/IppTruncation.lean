/-
  Srp/Printers/IppTruncation.lean
  ===============================
  **An IPP response that breaks off.**

  The lengths in front of a name and of a value are read with `unpack_from`,
  which fails past the end; the name and the value themselves are slices, which
  do not.  A cut before the end of the value length therefore drops the
  attribute, and so does a cut inside a number, whose width is checked; a cut
  inside a text stores what there is of it (`scan_take`).  From that follows
  exactly when a response that breaks off reads as its complete attributes do.
-/
import Srp.Printers.Ipp
import Mathlib.Data.List.DropRight

namespace Srp.Printers.Ipp

open Srp.Lib Srp.Lib.Lines Srp.Lib.Octets Srp.Lib.PyDecode

/-! ### Well-formed responses -/

/-- A length of two octets. -/
def word (n : Nat) : Bytes := [UInt8.ofNat (n / 256), UInt8.ofNat (n % 256)]

structure Attribute where
  tag : UInt8
  name : Bytes
  value : Bytes
  tag_value : tag ∉ groupTags ∧ tag ≠ endTag
  name_length : name.length < 65536
  value_length : value.length < 65536
  integer_width : tag ∈ intTags → value.length = 4

namespace Attribute

def bytes (a : Attribute) : Bytes :=
  a.tag :: (word a.name.length ++ (a.name ++ (word a.value.length ++ a.value)))

/-- How many octets stand before the value. -/
def valueStart (a : Attribute) : Nat := 5 + a.name.length

/-- The key it is stored under; without a name of its own it is one more value of the last. -/
def key (a : Attribute) (lastName : Text) : Text :=
  if decodeAscii a.name = [] then lastName else decodeAscii a.name

theorem length_bytes (a : Attribute) : a.bytes.length = a.valueStart + a.value.length := by
  simp only [bytes, word, valueStart, List.length_cons, List.length_append, List.length_nil]
  omega

end Attribute

inductive Item where
  | group (tag : UInt8) (h : tag ∈ groupTags)
  | attr (a : Attribute)

namespace Item

def bytes : Item → Bytes
  | .group tag _ => [tag]
  | .attr a => a.bytes

/-- An item cut off inside its value, and what there is of the value. -/
def cutAt : Item → Nat → Option (Attribute × Bytes)
  | .group _ _, _ => none
  | .attr a, k => if a.valueStart ≤ k then some (a, a.value.take (k - a.valueStart)) else none

def isGroup : Item → Bool
  | .group _ _ => true
  | .attr _ => false

def isJobGroup : Item → Bool
  | .group tag _ => tag = jobAttrsTag
  | .attr _ => false

end Item

/-- Version, status code and request id; groups and their attributes; the end tag; data. -/
structure Response where
  header : Bytes
  header_length : header.length = 8
  items : List Item
  data : Bytes

def Response.bytes (m : Response) : Bytes :=
  m.header ++ (m.items.flatMap Item.bytes ++ endTag :: m.data)

/-! ### What the first octets of the items hold -/

/-- The items that lie whole within the first `k` octets. -/
def complete : List Item → Nat → List Item
  | [], _ => []
  | i :: items, k =>
    if i.bytes.length ≤ k then i :: complete items (k - i.bytes.length) else []

/-- The attribute inside whose value the first `k` octets end, and what there is of the value. -/
def shortened : List Item → Nat → Option (Attribute × Bytes)
  | [], _ => none
  | i :: items, k =>
    if i.bytes.length ≤ k then shortened items (k - i.bytes.length) else i.cutAt k

/-- The octets among the first `k` behind the complete items. -/
def leftover (tail : Bytes) : List Item → Nat → Bytes
  | [], k => tail.take k
  | i :: items, k =>
    if i.bytes.length ≤ k then leftover tail items (k - i.bytes.length) else i.bytes.take k

theorem take_items (tail : Bytes) (items : List Item) (k : Nat) :
    (items.flatMap Item.bytes ++ tail).take k =
      (complete items k).flatMap Item.bytes ++ leftover tail items k := by
  induction items generalizing k with
  | nil => rfl
  | cons i items ih =>
    rw [List.flatMap_cons, List.append_assoc, complete, leftover]
    by_cases hi : i.bytes.length ≤ k
    · rw [if_pos hi, if_pos hi, List.take_append, List.take_of_length_le hi, ih,
        List.flatMap_cons, List.append_assoc]
    · rw [if_neg hi, if_neg hi, List.take_append_of_le_length (by omega)]
      rfl

/-! ### One item -/

theorem unpackH_word {n : Nat} (hn : n < 65536) (rest : Bytes) :
    unpackH (word n ++ rest) = some (n, rest) := by
  have hhigh : n / 256 % 256 = n / 256 := Nat.mod_eq_of_lt (by omega)
  simp only [word, List.cons_append, List.nil_append, unpackH, ofOctets, List.foldl_cons,
    List.foldl_nil, UInt8.toNat_ofNat', Option.some.injEq, Prod.mk.injEq, and_true]
  omega

theorem unpackH_eq_none {data : Bytes} (h : data.length < 2) : unpackH data = none := by
  match data, h with
  | [], _ => rfl
  | [_], _ => rfl

theorem readAttribute_word {name data : Bytes} {valLen : Nat} (hname : name.length < 65536)
    (hval : valLen < 65536) :
    readAttribute (word name.length ++ (name ++ (word valLen ++ data))) =
      some (name, data.take valLen, data.drop valLen) := by
  simp only [readAttribute, unpackH_word hname, Option.bind_eq_bind, Option.bind_some,
    List.drop_left, List.take_left, unpackH_word hval, Option.pure_def]

/-- An attribute of which the value length is not all there is not read. -/
theorem readAttribute_cut (a : Attribute) {k : Nat} (hk : k + 1 < a.valueStart) :
    readAttribute (a.bytes.tail.take k) = none := by
  rw [Attribute.valueStart] at hk
  simp only [Attribute.bytes, List.tail_cons]
  by_cases htwo : k < 2
  · have hshort : unpackH ((word a.name.length ++
        (a.name ++ (word a.value.length ++ a.value))).take k) = none := by
      apply unpackH_eq_none
      rw [List.length_take]
      omega
    simp only [readAttribute, hshort, Option.bind_eq_bind, Option.bind_none]
  · obtain ⟨k, rfl⟩ : ∃ k', k = 2 + k' := ⟨k - 2, by omega⟩
    have hword : (word a.name.length).length = 2 := rfl
    rw [← hword, List.take_length_add_append]
    have hshort : unpackH (((a.name ++ (word a.value.length ++ a.value)).take k).drop
        a.name.length) = none := by
      apply unpackH_eq_none
      rw [List.length_drop, List.length_take]
      omega
    simp only [readAttribute, unpackH_word a.name_length, hshort, Option.bind_eq_bind,
      Option.bind_some, Option.bind_none]

theorem take_value (a : Attribute) {k : Nat} (hk : a.valueStart ≤ k) :
    a.bytes.take k = a.tag :: (word a.name.length ++
      (a.name ++ (word a.value.length ++ a.value.take (k - a.valueStart)))) := by
  obtain ⟨j, rfl⟩ : ∃ j, k = a.valueStart + j := ⟨k - a.valueStart, by omega⟩
  rw [Nat.add_sub_cancel_left]
  have hsplit : a.bytes = (a.tag :: (word a.name.length ++ (a.name ++ word a.value.length))) ++
      a.value := by simp [Attribute.bytes]
  have hlength : (a.tag :: (word a.name.length ++ (a.name ++ word a.value.length))).length =
      a.valueStart := by
    simp only [word, Attribute.valueStart, List.length_cons, List.length_append, List.length_nil]
    omega
  rw [hsplit, ← hlength, List.take_length_add_append]
  simp

/-! ### The walk over items -/

section Walk

variable {σ : Type} (visitor : Visitor σ)

/-- The loop with the steps it needs. -/
def scan (data : Bytes) (lastName : Text) (s : σ) : σ := walk visitor data.length data lastName s

theorem parse_eq_scan {data : Bytes} (s : σ) :
    parse visitor data s = scan visitor (data.drop 8) [] s :=
  walk_fuel visitor (by rw [List.length_drop]; omega) le_rfl [] s

theorem scan_nil (lastName : Text) (s : σ) : scan visitor [] lastName s = s := rfl

theorem scan_end (data : Bytes) (lastName : Text) (s : σ) :
    scan visitor (endTag :: data) lastName s = s := by
  simp [scan, walk]

/-- One turn of the loop over an item: its state behind it, or the state at the `break`. -/
def itemStep (st : Text × σ) : Item → Except σ (Text × σ)
  | .group tag _ => match visitor.onGroup tag st.2 with
    | none => .error st.2
    | some s => .ok (st.1, s)
  | .attr a =>
    .ok (a.key st.1, visitor.onAttribute (a.key st.1) (valueOf a.tag a.value) st.2)

def runItems (items : List Item) (st : Text × σ) : Except σ (Text × σ) :=
  items.foldlM (itemStep visitor) st

/-- The state that the loop returns, where `k` says what it makes of the octets left. -/
def resume (r : Except σ (Text × σ)) (k : Text → σ → σ) : σ :=
  match r with
  | .error s => s
  | .ok (lastName, s) => k lastName s

theorem runItems_cons (i : Item) (items : List Item) (st : Text × σ) :
    runItems visitor (i :: items) st = itemStep visitor st i >>= runItems visitor items := rfl

theorem runItems_append (items items' : List Item) (st : Text × σ) :
    runItems visitor (items ++ items') st =
      runItems visitor items st >>= runItems visitor items' := by
  rw [runItems, List.foldlM_append]
  rfl

theorem resume_bind (r : Except σ (Text × σ)) (f : Text × σ → Except σ (Text × σ))
    (k : Text → σ → σ) :
    resume (r >>= f) k = resume r fun lastName s => resume (f (lastName, s)) k := by
  cases r <;> rfl

variable {visitor}

theorem scan_of_read {tag : UInt8} {data name raw rest : Bytes}
    (htag : tag ∉ groupTags ∧ tag ≠ endTag) (h : readAttribute data = some (name, raw, rest))
    (lastName : Text) (s : σ) :
    scan visitor (tag :: data) lastName s =
      scan visitor rest (if decodeAscii name = [] then lastName else decodeAscii name)
        (visitor.onAttribute (if decodeAscii name = [] then lastName else decodeAscii name)
          (valueOf tag raw) s) := by
  have hrest := length_lt_of_readAttribute h
  simp only [scan, List.length_cons, walk, if_neg htag.1, if_neg htag.2, h]
  exact walk_fuel visitor (Nat.le_of_lt hrest) le_rfl _ _

theorem scan_of_not_read {tag : UInt8} {data : Bytes} (htag : tag ∉ groupTags ∧ tag ≠ endTag)
    (h : readAttribute data = none) (lastName : Text) (s : σ) :
    scan visitor (tag :: data) lastName s = s := by
  simp only [scan, List.length_cons, walk, if_neg htag.1, if_neg htag.2, h]

theorem scan_item (i : Item) (rest : Bytes) (lastName : Text) (s : σ) :
    scan visitor (i.bytes ++ rest) lastName s =
      resume (itemStep visitor (lastName, s) i) (scan visitor rest) := by
  cases i with
  | group tag hgroup =>
    have hend : tag ≠ endTag := by
      rintro rfl
      exact absurd hgroup (by decide)
    simp only [Item.bytes, List.singleton_append, scan, List.length_cons, walk, if_neg hend,
      if_pos hgroup, itemStep]
    cases visitor.onGroup tag s <;> rfl
  | attr a =>
    have hread : readAttribute (word a.name.length ++
        (a.name ++ (word a.value.length ++ (a.value ++ rest)))) = some (a.name, a.value, rest) := by
      rw [readAttribute_word a.name_length a.value_length, List.take_left, List.drop_left]
    have hbytes : Item.bytes (.attr a) ++ rest = a.tag :: (word a.name.length ++
        (a.name ++ (word a.value.length ++ (a.value ++ rest)))) := by
      simp [Item.bytes, Attribute.bytes]
    rw [hbytes, scan_of_read a.tag_value hread]
    rfl

theorem scan_items (items : List Item) (rest : Bytes) (lastName : Text) (s : σ) :
    scan visitor (items.flatMap Item.bytes ++ rest) lastName s =
      resume (runItems visitor items (lastName, s)) (scan visitor rest) := by
  induction items generalizing lastName s with
  | nil => rfl
  | cons i items ih =>
    rw [List.flatMap_cons, List.append_assoc, scan_item, runItems_cons, resume_bind]
    congr 1
    funext lastName s
    exact ih lastName s

/-- What the loop makes of an attribute that is cut off inside its value. -/
def cutStep (visitor : Visitor σ) (cut : Option (Attribute × Bytes)) (lastName : Text) (s : σ) :
    σ :=
  match cut with
  | none => s
  | some (a, raw) => visitor.onAttribute (a.key lastName) (valueOf a.tag raw) s

/-- An attribute cut off before its value is passed over; of one cut off behind that, what there
is of the value is taken for it. -/
theorem scan_leftover (data : Bytes) (items : List Item) (k : Nat) (lastName : Text) (s : σ) :
    scan visitor (leftover (endTag :: data) items k) lastName s =
      cutStep visitor (shortened items k) lastName s := by
  induction items generalizing k with
  | nil =>
    cases k with
    | zero => rfl
    | succ k => exact scan_end visitor (data.take k) lastName s
  | cons i items ih =>
    rw [leftover, shortened]
    by_cases hi : i.bytes.length ≤ k
    · rw [if_pos hi, if_pos hi, ih]
    · rw [if_neg hi, if_neg hi]
      cases i with
      | group tag hgroup =>
        rw [Item.bytes, List.length_singleton, Nat.not_le, Nat.lt_one_iff] at hi
        rw [hi]
        rfl
      | attr a =>
        simp only [Item.bytes, Item.cutAt] at hi ⊢
        rw [a.length_bytes] at hi
        by_cases hvalue : a.valueStart ≤ k
        · rw [if_pos hvalue, take_value a hvalue]
          have hshort : (a.value.take (k - a.valueStart)).length ≤ a.value.length :=
            List.length_take_le' _ _
          have hread : readAttribute (word a.name.length ++ (a.name ++ (word a.value.length ++
              a.value.take (k - a.valueStart)))) =
              some (a.name, a.value.take (k - a.valueStart), []) := by
            rw [readAttribute_word a.name_length a.value_length, List.take_of_length_le hshort,
              List.drop_eq_nil_of_le hshort]
          rw [scan_of_read a.tag_value hread, scan_nil]
          rfl
        · rw [if_neg hvalue]
          cases k with
          | zero => rfl
          | succ k =>
            have hbytes : a.bytes.take (k + 1) = a.tag :: a.bytes.tail.take k := rfl
            rw [hbytes, scan_of_not_read a.tag_value (readAttribute_cut a (by omega))]
            rfl

theorem scan_take (data : Bytes) (items : List Item) (k : Nat) (lastName : Text) (s : σ) :
    scan visitor ((items.flatMap Item.bytes ++ endTag :: data).take k) lastName s =
      resume (runItems visitor (complete items k) (lastName, s))
        (cutStep visitor (shortened items k)) := by
  rw [take_items, scan_items]
  congr 1
  funext lastName s
  exact scan_leftover data items k lastName s

end Walk

/-! ### What the complete items say -/

/-- The name that an attribute without one continues. -/
def lastKey (lastName : Text) (items : List Item) : Text :=
  items.foldl (fun lastName i => match i with
    | .group _ _ => lastName
    | .attr a => a.key lastName) lastName

/-- The value that the last attribute of a key carries, if `held` stands before the items;
`perGroup` counts what stands in the last group alone. -/
def lastValue (perGroup : Bool) (key : Text) :
    Text → Option IppValue → List Item → Option IppValue
  | _, held, [] => held
  | lastName, held, .group _ _ :: items =>
    lastValue perGroup key lastName (if perGroup then none else held) items
  | lastName, held, .attr a :: items =>
    lastValue perGroup key (a.key lastName)
      (if a.key lastName = key then (valueOf a.tag a.value).or held else held) items

/-- How many job groups the items begin. -/
def jobCount (items : List Item) : Nat := items.countP Item.isJobGroup

/-- Whether the last group of the items is a job group. -/
def inJobGroup (before : Bool) (items : List Item) : Bool :=
  items.foldl (fun before i => if i.isGroup then i.isJobGroup else before) before

namespace Response

/-- The items that lie whole within the first `n` octets of the response. -/
def whole (m : Response) (n : Nat) : List Item := complete m.items (n - 8)

/-- Those of them up to the last attribute. -/
def throughLast (m : Response) (n : Nat) : List Item := (m.whole n).rdropWhile Item.isGroup

/-- The groups begun behind it. -/
def groupsBehind (m : Response) (n : Nat) : List Item := (m.whole n).rtakeWhile Item.isGroup

/-- A beginning of the response, cut back to the end of its last complete attribute. -/
def cutBack (m : Response) (p : Bytes) : Bytes :=
  p.take (8 + ((m.throughLast p.length).flatMap Item.bytes).length)

/-- The key of the text inside which the first `n` octets end, and what they leave of it. -/
def cutText (m : Response) (n : Nat) : Option (Text × Text) :=
  match shortened m.items (n - 8) with
  | some (a, raw) =>
    if a.tag ∈ textTags then some (a.key (lastKey [] (m.whole n)), decodeUtf8 raw) else none
  | none => none

/-- The cut is not inside a text, or the last complete attribute of the same key already carries
the very text that is left. -/
def AttributesStand (m : Response) (n : Nat) : Prop :=
  ∀ key text, m.cutText n = some (key, text) →
    lastValue false key [] none (m.whole n) = some (.str text)

/-- No job group below the limit is begun behind the last complete attribute; and if the cut is
inside a text of a job, the last complete attribute of the job with that key already carries what
is left of it. -/
def JobsStand (m : Response) (n : Nat) : Prop :=
  (jobCount (m.throughLast n) < maxJobGroups → jobCount (m.groupsBehind n) = 0) ∧
  (jobCount (m.whole n) ≤ maxJobGroups → inJobGroup false (m.whole n) = true →
    ∀ key text, m.cutText n = some (key, text) →
      lastValue true key [] none (m.whole n) = some (.str text))

theorem drop_bytes (m : Response) {p : Bytes} (h : p <+: m.bytes) :
    p.drop 8 = (m.items.flatMap Item.bytes ++ endTag :: m.data).take (p.length - 8) := by
  have htake := List.prefix_iff_eq_take.mp h
  calc p.drop 8 = (m.bytes.take p.length).drop 8 := by rw [← htake]
    _ = (m.bytes.drop 8).take (p.length - 8) := List.drop_take
    _ = _ := by rw [bytes, ← m.header_length, List.drop_left]

theorem throughLast_append (m : Response) (n : Nat) :
    m.throughLast n ++ m.groupsBehind n = m.whole n :=
  List.rdropWhile_append_rtakeWhile

section Parse

variable {σ : Type} (visitor : Visitor σ)

theorem parse_cut (m : Response) {p : Bytes} (h : p <+: m.bytes) (s : σ) :
    parse visitor p s = resume (runItems visitor (m.whole p.length) ([], s))
      (cutStep visitor (shortened m.items (p.length - 8))) := by
  rw [parse_eq_scan, m.drop_bytes h, scan_take]
  rfl

theorem parse_cutBack (m : Response) {p : Bytes} (h : p <+: m.bytes) (s : σ) :
    parse visitor (m.cutBack p) s =
      resume (runItems visitor (m.throughLast p.length) ([], s)) fun _ s => s := by
  have hdrop : (m.cutBack p).drop 8 = (m.throughLast p.length).flatMap Item.bytes := by
    rw [cutBack, List.drop_take, Nat.add_sub_cancel_left, m.drop_bytes h, take_items]
    change (List.flatMap Item.bytes (m.whole p.length) ++ _).take _ = _
    rw [← m.throughLast_append, List.flatMap_append, List.append_assoc, List.take_left]
  have hscan : scan visitor ((m.throughLast p.length).flatMap Item.bytes ++ []) [] s = _ :=
    scan_items (m.throughLast p.length) [] [] s
  rw [List.append_nil] at hscan
  rw [parse_eq_scan, hdrop, hscan]
  rfl

end Parse

end Response

/-! ### One store -/

theorem store_eq_self_iff {key : Text} {value : Option IppValue} {out : Attributes} :
    store key value out = out ↔ ∀ v, value = some v → out key = some v := by
  cases value with
  | none => simp [store]
  | some v => simp [store, eq_comm]

theorem store_apply (key : Text) (value : Option IppValue) (out : Attributes) (x : Text) :
    store key value out x = if key = x then value.or (out x) else out x := by
  cases value with
  | none => simp [store]
  | some v =>
    by_cases hx : key = x
    · simp [store, hx]
    · rw [if_neg hx, store, Function.update_of_ne (Ne.symm hx)]

/-- A number cut short is not read; a text cut short is. -/
theorem valueOf_shortened {items : List Item} {k : Nat} {a : Attribute} {raw : Bytes}
    (h : shortened items k = some (a, raw)) :
    valueOf a.tag raw = if a.tag ∈ textTags then some (.str (decodeUtf8 raw)) else none := by
  induction items generalizing k with
  | nil => cases h
  | cons i items ih =>
    rw [shortened] at h
    by_cases hi : i.bytes.length ≤ k
    · rw [if_pos hi] at h
      exact ih h
    · rw [if_neg hi] at h
      cases i with
      | group tag hgroup => cases h
      | attr b =>
        simp only [Item.bytes, Item.cutAt] at hi h
        rw [b.length_bytes] at hi
        split at h
        · rw [Option.some.injEq, Prod.mk.injEq] at h
          obtain ⟨rfl, rfl⟩ := h
          have hint : ¬ (b.tag ∈ intTags ∧ (b.value.take (k - b.valueStart)).length = 4) := by
            rintro ⟨htag, hlength⟩
            have hfour := b.integer_width htag
            rw [List.length_take] at hlength
            omega
          rw [valueOf, if_neg hint]
        · cases h

theorem store_cut_iff (m : Response) (n : Nat) (out : Attributes) :
    (∀ a raw, shortened m.items (n - 8) = some (a, raw) →
      store (a.key (lastKey [] (m.whole n))) (valueOf a.tag raw) out = out) ↔
    ∀ key text, m.cutText n = some (key, text) → out key = some (.str text) := by
  rw [Response.cutText]
  cases hcut : shortened m.items (n - 8) with
  | none => simp
  | some cut =>
    obtain ⟨a, raw⟩ := cut
    by_cases htag : a.tag ∈ textTags
    · simp [store_eq_self_iff, valueOf_shortened hcut, htag]
    · simp [store_eq_self_iff, valueOf_shortened hcut, htag]

/-! ### The runs of the two parsers -/

theorem run_attributes (items : List Item) (lastName : Text) (out : Attributes) :
    runItems attributesVisitor items (lastName, out) =
      .ok (lastKey lastName items, fun key => lastValue false key lastName (out key) items) := by
  induction items generalizing lastName out with
  | nil => rfl
  | cons i items ih =>
    rw [runItems_cons]
    cases i with
    | group tag hgroup => exact ih lastName out
    | attr a =>
      refine (ih (a.key lastName) (store (a.key lastName) (valueOf a.tag a.value) out)).trans ?_
      congr 2
      funext key
      rw [store_apply]
      rfl

theorem run_attributes_groups {items : List Item} (h : ∀ i ∈ items, i.isGroup = true)
    (lastName : Text) (out : Attributes) :
    runItems attributesVisitor items (lastName, out) = .ok (lastName, out) := by
  induction items with
  | nil => rfl
  | cons i items ih =>
    rw [List.forall_mem_cons] at h
    cases i with
    | attr a => cases h.1
    | group tag hgroup => exact ih h.2

theorem itemStep_job {tag : UInt8} (hgroup : tag ∈ groupTags) (htag : tag = jobAttrsTag)
    (lastName : Text) {s : JobState} (h : s.jobs.length < maxJobGroups) :
    itemStep jobsVisitor (lastName, s) (.group tag hgroup) =
      .ok (lastName, ⟨s.jobs, some noAttributes⟩) := by
  simp [itemStep, jobsVisitor, htag, Nat.not_le.mpr h]

theorem itemStep_full {tag : UInt8} (hgroup : tag ∈ groupTags) (htag : tag = jobAttrsTag)
    (lastName : Text) {s : JobState} (h : maxJobGroups ≤ s.jobs.length) :
    itemStep jobsVisitor (lastName, s) (.group tag hgroup) = .error s := by
  simp [itemStep, jobsVisitor, htag, h]

theorem itemStep_other {tag : UInt8} (hgroup : tag ∈ groupTags) (htag : tag ≠ jobAttrsTag)
    (lastName : Text) (s : JobState) :
    itemStep jobsVisitor (lastName, s) (.group tag hgroup) = .ok (lastName, ⟨s.jobs, none⟩) := by
  simp [itemStep, jobsVisitor, htag]

@[simp] theorem jobs_none (jobs : List Attributes) : (JobState.mk jobs none).jobs = jobs := by
  simp [JobState.jobs]

@[simp] theorem length_jobs_some (jobs : List Attributes) (d : Attributes) :
    (JobState.mk jobs (some d)).jobs.length = jobs.length + 1 := by
  simp [JobState.jobs]

@[simp] theorem length_jobs_onAttribute (key : Text) (value : Option IppValue) (s : JobState) :
    (jobsVisitor.onAttribute key value s).jobs.length = s.jobs.length := by
  cases hcur : s.cur <;> simp [JobState.jobs, jobsVisitor, hcur]

@[simp] theorem jobCount_nil : jobCount [] = 0 := rfl

theorem jobCount_job {tag : UInt8} (hgroup : tag ∈ groupTags) (htag : tag = jobAttrsTag)
    (items : List Item) : jobCount (.group tag hgroup :: items) = jobCount items + 1 :=
  List.countP_cons_of_pos (by simpa [Item.isJobGroup] using htag)

theorem jobCount_other {tag : UInt8} (hgroup : tag ∈ groupTags) (htag : tag ≠ jobAttrsTag)
    (items : List Item) : jobCount (.group tag hgroup :: items) = jobCount items :=
  List.countP_cons_of_neg (by simpa [Item.isJobGroup] using htag)

theorem jobCount_attr (a : Attribute) (items : List Item) :
    jobCount (.attr a :: items) = jobCount items :=
  List.countP_cons_of_neg (by simp [Item.isJobGroup])

theorem inJobGroup_job {tag : UInt8} (hgroup : tag ∈ groupTags) (htag : tag = jobAttrsTag)
    (before : Bool) (items : List Item) :
    inJobGroup before (.group tag hgroup :: items) = inJobGroup true items := by
  simp [inJobGroup, Item.isGroup, Item.isJobGroup, htag]

theorem inJobGroup_other {tag : UInt8} (hgroup : tag ∈ groupTags) (htag : tag ≠ jobAttrsTag)
    (before : Bool) (items : List Item) :
    inJobGroup before (.group tag hgroup :: items) = inJobGroup false items := by
  simp [inJobGroup, Item.isGroup, Item.isJobGroup, htag]

/-- As long as there are not too many groups the run goes through all items; `held` is what the
job that is open holds. -/
theorem run_jobs {items : List Item} {s : JobState}
    (h : s.jobs.length + jobCount items ≤ maxJobGroups) (lastName : Text) {held : Attributes}
    (hheld : ∀ d, s.cur = some d → d = held) :
    ∃ s', runItems jobsVisitor items (lastName, s) = .ok (lastKey lastName items, s') ∧
      s'.jobs.length = s.jobs.length + jobCount items ∧
      s'.cur = if inJobGroup s.cur.isSome items = true then
        some fun key => lastValue true key lastName (held key) items else none := by
  induction items generalizing s lastName held with
  | nil =>
    refine ⟨s, rfl, rfl, ?_⟩
    cases hcur : s.cur with
    | none => rfl
    | some d => exact congrArg some (hheld d hcur)
  | cons i items ih =>
    rw [runItems_cons]
    cases i with
    | group tag hgroup =>
      by_cases htag : tag = jobAttrsTag
      · rw [jobCount_job hgroup htag] at h ⊢
        rw [itemStep_job hgroup htag lastName (by omega)]
        have hlength' : (JobState.mk s.jobs (some noAttributes)).jobs.length + jobCount items ≤
            maxJobGroups := by
          rw [length_jobs_some]
          omega
        have hheld' : ∀ d, (JobState.mk s.jobs (some noAttributes)).cur = some d →
            d = noAttributes := fun d hd => (Option.some.inj hd).symm
        obtain ⟨s', hrun, hlength, hcur⟩ := ih hlength' lastName hheld'
        refine ⟨s', hrun, by rw [hlength, length_jobs_some]; omega, ?_⟩
        rw [hcur, inJobGroup_job hgroup htag]
        rfl
      · rw [jobCount_other hgroup htag] at h ⊢
        rw [itemStep_other hgroup htag]
        have hlength' : (JobState.mk s.jobs none).jobs.length + jobCount items ≤
            maxJobGroups := by
          rw [jobs_none]
          exact h
        have hheld' : ∀ d, (JobState.mk s.jobs none).cur = some d → d = noAttributes :=
          fun d hd => nomatch hd
        obtain ⟨s', hrun, hlength, hcur⟩ := ih hlength' lastName hheld'
        refine ⟨s', hrun, by rw [hlength, jobs_none], ?_⟩
        rw [hcur, inJobGroup_other hgroup htag]
        rfl
    | attr a =>
      rw [jobCount_attr] at h ⊢
      have hsame := length_jobs_onAttribute (a.key lastName) (valueOf a.tag a.value) s
      have hheld' : ∀ d, (jobsVisitor.onAttribute (a.key lastName) (valueOf a.tag a.value) s).cur =
          some d → d = store (a.key lastName) (valueOf a.tag a.value) held := by
        intro d hd
        obtain ⟨d', hd', rfl⟩ := Option.map_eq_some_iff.mp hd
        rw [hheld d' hd']
      obtain ⟨s', hrun, hlength, hcur⟩ := ih (by rw [hsame]; exact h) (a.key lastName) hheld'
      refine ⟨s', hrun, by rw [hlength, hsame], ?_⟩
      rw [hcur]
      simp only [jobsVisitor, Option.isSome_map, store_apply]
      rfl

theorem run_jobs_break {items : List Item} {s : JobState} (hs : s.jobs.length ≤ maxJobGroups)
    (h : maxJobGroups < s.jobs.length + jobCount items) (lastName : Text) :
    ∃ s', runItems jobsVisitor items (lastName, s) = .error s' ∧
      s'.jobs.length = maxJobGroups := by
  induction items generalizing s lastName with
  | nil => rw [jobCount_nil] at h; omega
  | cons i items ih =>
    rw [runItems_cons]
    cases i with
    | group tag hgroup =>
      by_cases htag : tag = jobAttrsTag
      · rw [jobCount_job hgroup htag] at h
        by_cases hfull : maxJobGroups ≤ s.jobs.length
        · rw [itemStep_full hgroup htag lastName hfull]
          exact ⟨s, rfl, by omega⟩
        · rw [itemStep_job hgroup htag lastName (by omega)]
          have hbegun := length_jobs_some s.jobs noAttributes
          exact ih (hbegun.trans_le (by omega)) (by rw [hbegun]; omega) lastName
      · rw [jobCount_other hgroup htag] at h
        rw [itemStep_other hgroup htag]
        have hclosed := congrArg List.length (jobs_none s.jobs)
        exact ih (hclosed.trans_le hs) (by rw [hclosed]; exact h) lastName
    | attr a =>
      rw [jobCount_attr] at h
      have hsame := length_jobs_onAttribute (a.key lastName) (valueOf a.tag a.value) s
      exact ih (hsame.trans_le hs) (by rw [hsame]; exact h) (a.key lastName)

/-- Groups without attributes leave the jobs there are, unless they begin one. -/
theorem run_groups {items : List Item} {s : JobState} (hgroups : ∀ i ∈ items, i.isGroup = true)
    (h : maxJobGroups ≤ s.jobs.length ∨ jobCount items = 0) (lastName : Text) :
    (resume (runItems jobsVisitor items (lastName, s)) fun _ s => s).jobs = s.jobs := by
  induction items generalizing s lastName with
  | nil => rfl
  | cons i items ih =>
    rw [runItems_cons]
    cases i with
    | attr a => cases hgroups _ List.mem_cons_self
    | group tag hgroup =>
      by_cases htag : tag = jobAttrsTag
      · rw [jobCount_job hgroup htag] at h
        rw [itemStep_full hgroup htag lastName (h.resolve_right (by omega))]
        rfl
      · rw [jobCount_other hgroup htag] at h
        rw [itemStep_other hgroup htag]
        have hclosed : maxJobGroups ≤ (JobState.mk s.jobs none).jobs.length ∨
            jobCount items = 0 := by
          rw [jobs_none]
          exact h
        refine (ih (fun i hi => hgroups i (List.mem_cons_of_mem _ hi)) hclosed lastName).trans ?_
        rw [jobs_none]

/-! ### Cut back to the last complete attribute -/

theorem parseAttributes_cutBack_iff (m : Response) {p : Bytes} (h : p <+: m.bytes) :
    parseAttributes p = parseAttributes (m.cutBack p) ↔ m.AttributesStand p.length := by
  -- the groups behind the last attribute change nothing
  have hbefore : runItems attributesVisitor (m.throughLast p.length) ([], noAttributes) =
      runItems attributesVisitor (m.whole p.length) ([], noAttributes) := by
    rw [← m.throughLast_append, runItems_append, run_attributes (m.throughLast p.length)]
    exact (run_attributes_groups (fun i hi => List.mem_rtakeWhile_imp hi) _ _).symm
  rw [parseAttributes, parseAttributes, m.parse_cut _ h, m.parse_cutBack _ h, hbefore,
    run_attributes]
  simp only [resume]
  rw [Response.AttributesStand, ← store_cut_iff]
  cases hcut : shortened m.items (p.length - 8) with
  | none => simp [cutStep]
  | some cut =>
    obtain ⟨a, raw⟩ := cut
    simp [cutStep, attributesVisitor, noAttributes]

theorem length_jobs_cutStep (cut : Option (Attribute × Bytes)) (lastName : Text) (s : JobState) :
    (cutStep jobsVisitor cut lastName s).jobs.length = s.jobs.length := by
  cases cut with
  | none => rfl
  | some cut => exact length_jobs_onAttribute _ _ s

theorem jobs_onAttribute_eq_iff (key : Text) (value : Option IppValue) (s : JobState) :
    (jobsVisitor.onAttribute key value s).jobs = s.jobs ↔
      ∀ d, s.cur = some d → store key value d = d := by
  cases hcur : s.cur with
  | none => simp [JobState.jobs, jobsVisitor, hcur]
  | some d => simp [JobState.jobs, jobsVisitor, hcur]

/-- Where the run went through all items, the cut changes the jobs only inside a text of one. -/
theorem jobs_cutStep_eq_iff (m : Response) (n : Nat) {s : JobState}
    (hcur : s.cur = if inJobGroup false (m.whole n) = true then
      some fun key => lastValue true key [] none (m.whole n) else none) :
    (cutStep jobsVisitor (shortened m.items (n - 8)) (lastKey [] (m.whole n)) s).jobs = s.jobs ↔
      (inJobGroup false (m.whole n) = true → ∀ key text, m.cutText n = some (key, text) →
        lastValue true key [] none (m.whole n) = some (.str text)) := by
  have hstep : (cutStep jobsVisitor (shortened m.items (n - 8)) (lastKey [] (m.whole n)) s).jobs =
      s.jobs ↔ ∀ d, s.cur = some d → ∀ a raw, shortened m.items (n - 8) = some (a, raw) →
        store (a.key (lastKey [] (m.whole n))) (valueOf a.tag raw) d = d := by
    cases shortened m.items (n - 8) with
    | none => simp [cutStep]
    | some cut =>
      obtain ⟨a, raw⟩ := cut
      simp [cutStep, jobs_onAttribute_eq_iff]
  rw [hstep, hcur]
  by_cases hjob : inJobGroup false (m.whole n) = true
  · rw [if_pos hjob]
    simp only [Option.some.injEq, forall_eq', hjob, forall_true_left]
    exact store_cut_iff m n _
  · rw [if_neg hjob]
    simp [hjob]

section Jobs

variable {m : Response} {p : Bytes}

theorem jobCount_split (m : Response) (n : Nat) :
    jobCount (m.throughLast n) + jobCount (m.groupsBehind n) = jobCount (m.whole n) := by
  rw [← m.throughLast_append, jobCount, jobCount, jobCount, List.countP_append]

theorem run_behind (m : Response) (n : Nat) {s : JobState}
    (h : maxJobGroups ≤ s.jobs.length ∨ jobCount (m.groupsBehind n) = 0) (lastName : Text) :
    (resume (runItems jobsVisitor (m.groupsBehind n) (lastName, s)) fun _ s => s).jobs = s.jobs :=
  run_groups (fun _ hi => List.mem_rtakeWhile_imp hi) h lastName

theorem run_split (m : Response) (n : Nat) (s : JobState) :
    runItems jobsVisitor (m.whole n) ([], s) =
      runItems jobsVisitor (m.throughLast n) ([], s) >>=
        runItems jobsVisitor (m.groupsBehind n) := by
  rw [← m.throughLast_append, runItems_append]

theorem noJobs_length : (JobState.mk [] none).jobs.length = 0 := rfl

theorem noJobs_cur : ∀ d, (JobState.mk [] none).cur = some d → d = noAttributes :=
  fun _ hd => nomatch hd

/-- The loop ends at the limit before the last complete attribute. -/
theorem parseJobGroups_of_many (h : p <+: m.bytes)
    (hmany : maxJobGroups < jobCount (m.throughLast p.length)) :
    parseJobGroups p = parseJobGroups (m.cutBack p) := by
  obtain ⟨s, hrun, _⟩ := run_jobs_break (noJobs_length.trans_le (Nat.zero_le _))
    (by rw [noJobs_length, Nat.zero_add]; exact hmany) []
  rw [parseJobGroups, parseJobGroups, m.parse_cut _ h, m.parse_cutBack _ h, run_split, hrun]
  rfl

/-- The loop ends at the limit among the groups behind it. -/
theorem parseJobGroups_of_manyBehind (h : p <+: m.bytes)
    (hfew : jobCount (m.throughLast p.length) ≤ maxJobGroups)
    (hmany : maxJobGroups < jobCount (m.whole p.length)) :
    parseJobGroups p = parseJobGroups (m.cutBack p) ↔
      maxJobGroups ≤ jobCount (m.throughLast p.length) := by
  obtain ⟨s, hrun, hlength, -⟩ :=
    run_jobs (by rw [noJobs_length, Nat.zero_add]; exact hfew) [] noJobs_cur
  rw [noJobs_length, Nat.zero_add] at hlength
  obtain ⟨s', hrun', hlength'⟩ := run_jobs_break (hlength.trans_le hfew)
    (by rw [hlength, jobCount_split]; exact hmany) (lastKey [] (m.throughLast p.length))
  have hbind : runItems jobsVisitor (m.whole p.length) ([], ⟨[], none⟩) = .error s' := by
    rw [run_split, hrun]
    exact hrun'
  rw [parseJobGroups, parseJobGroups, m.parse_cut _ h, m.parse_cutBack _ h, hbind, hrun]
  change s'.jobs = s.jobs ↔ _
  constructor
  · intro heq
    rw [← hlength, ← heq, hlength']
  · intro hfull
    rw [← hlength] at hfull
    have hsame := run_behind m p.length (Or.inl hfull) (lastKey [] (m.throughLast p.length))
    rw [hrun'] at hsame
    exact hsame

/-- The loop comes to the end of the octets. -/
theorem parseJobGroups_of_few (h : p <+: m.bytes)
    (hall : jobCount (m.whole p.length) ≤ maxJobGroups) :
    parseJobGroups p = parseJobGroups (m.cutBack p) ↔
      jobCount (m.groupsBehind p.length) = 0 ∧
      (inJobGroup false (m.whole p.length) = true → ∀ key text,
        m.cutText p.length = some (key, text) →
        lastValue true key [] none (m.whole p.length) = some (.str text)) := by
  have hsplit := jobCount_split m p.length
  have hfew : jobCount (m.throughLast p.length) ≤ maxJobGroups := by omega
  obtain ⟨s, hrun, hlength, -⟩ :=
    run_jobs (by rw [noJobs_length, Nat.zero_add]; exact hfew) [] noJobs_cur
  obtain ⟨s', hrun', hlength', hcur'⟩ :=
    run_jobs (by rw [noJobs_length, Nat.zero_add]; exact hall) [] noJobs_cur
  rw [noJobs_length, Nat.zero_add] at hlength hlength'
  have hcut := jobs_cutStep_eq_iff m p.length hcur'
  rw [parseJobGroups, parseJobGroups, m.parse_cut _ h, m.parse_cutBack _ h, hrun, hrun']
  change (cutStep jobsVisitor (shortened m.items (p.length - 8))
    (lastKey [] (m.whole p.length)) s').jobs = s.jobs ↔ _
  by_cases hbehind : jobCount (m.groupsBehind p.length) = 0
  · have hfull : maxJobGroups ≤ s.jobs.length ∨ jobCount (m.groupsBehind p.length) = 0 :=
      Or.inr hbehind
    have hsame := run_behind m p.length hfull (lastKey [] (m.throughLast p.length))
    have hbind := run_split m p.length ⟨[], none⟩
    rw [hrun] at hbind
    change _ = runItems jobsVisitor (m.groupsBehind p.length)
      (lastKey [] (m.throughLast p.length), s) at hbind
    rw [← hbind, hrun'] at hsame
    change s'.jobs = s.jobs at hsame
    rw [← hsame, hcut]
    exact (and_iff_right hbehind).symm
  · -- a job begun behind the last complete attribute stays in the list
    refine iff_of_false (fun heq => ?_) fun hstand => hbehind hstand.1
    have hlonger := congrArg List.length heq
    rw [length_jobs_cutStep, hlength', hlength] at hlonger
    omega

theorem parseJobGroups_cutBack_iff (m : Response) {p : Bytes} (h : p <+: m.bytes) :
    parseJobGroups p = parseJobGroups (m.cutBack p) ↔ m.JobsStand p.length := by
  have hsplit := jobCount_split m p.length
  rw [Response.JobsStand]
  rcases Nat.lt_or_ge maxJobGroups (jobCount (m.throughLast p.length)) with hmany | hfew
  · exact iff_of_true (parseJobGroups_of_many h hmany)
      ⟨fun hlt => absurd hlt (by omega), fun hle => absurd hle (by omega)⟩
  rcases Nat.lt_or_ge maxJobGroups (jobCount (m.whole p.length)) with hmany | hall
  · rw [parseJobGroups_of_manyBehind h hfew hmany]
    constructor
    · intro hfull
      exact ⟨fun hlt => absurd hlt (by omega), fun hle => absurd hle (by omega)⟩
    · rintro ⟨hfirst, -⟩
      by_contra hlt
      have hnone := hfirst (by omega)
      omega
  · rw [parseJobGroups_of_few h hall]
    constructor
    · rintro ⟨hbehind, hcut⟩
      exact ⟨fun _ => hbehind, fun _ => hcut⟩
    · rintro ⟨hfirst, hcut⟩
      refine ⟨?_, hcut hall⟩
      by_contra hbehind
      exact hbehind (hfirst (by omega))

end Jobs

/-- The parsers of a response that breaks off return what they return for its complete attributes
exactly when the cut leaves no beginning of a text behind, and no job just begun. -/
theorem truncated_parse_iff (m : Response) {p : Bytes} (h : p <+: m.bytes) :
    (parseAttributes p = parseAttributes (m.cutBack p) ↔ m.AttributesStand p.length) ∧
    (parseJobGroups p = parseJobGroups (m.cutBack p) ↔ m.JobsStand p.length) :=
  ⟨parseAttributes_cutBack_iff m h, parseJobGroups_cutBack_iff m h⟩

/-! ### A response with one job -/

def jobIdName : Bytes := ['j', 'o', 'b', '-', 'i', 'd'].map fun c => UInt8.ofNat c.toNat

theorem jobId_wellFormed : ((0x21 : UInt8) ∉ groupTags ∧ (0x21 : UInt8) ≠ endTag) ∧
    jobIdName.length < 65536 ∧ ([0, 0, 0, 7] : Bytes).length < 65536 ∧
    ((0x21 : UInt8) ∈ intTags → ([0, 0, 0, 7] : Bytes).length = 4) := by decide

/-- `job-id`, 7. -/
def jobId : Attribute where
  tag := 0x21
  name := jobIdName
  value := [0, 0, 0, 7]
  tag_value := jobId_wellFormed.1
  name_length := jobId_wellFormed.2.1
  value_length := jobId_wellFormed.2.2.1
  integer_width := jobId_wellFormed.2.2.2

def jobNameName : Bytes := ['j', 'o', 'b', '-', 'n', 'a', 'm', 'e'].map fun c => UInt8.ofNat c.toNat

def jobNameValue : Bytes := ['d', 'o', 'c', '-', 'A'].map fun c => UInt8.ofNat c.toNat

theorem jobName_wellFormed : ((0x42 : UInt8) ∉ groupTags ∧ (0x42 : UInt8) ≠ endTag) ∧
    jobNameName.length < 65536 ∧ jobNameValue.length < 65536 ∧
    ((0x42 : UInt8) ∈ intTags → jobNameValue.length = 4) := by decide

/-- `job-name`, "doc-A". -/
def jobName : Attribute where
  tag := 0x42
  name := jobNameName
  value := jobNameValue
  tag_value := jobName_wellFormed.1
  name_length := jobName_wellFormed.2.1
  value_length := jobName_wellFormed.2.2.1
  integer_width := jobName_wellFormed.2.2.2

theorem jobAttrsTag_mem_groupTags : jobAttrsTag ∈ groupTags := by decide

theorem length_oneJobHeader : ([1, 1, 0, 0, 0, 0, 0, 1] : Bytes).length = 8 := rfl

def oneJob : Response where
  header := [1, 1, 0, 0, 0, 0, 0, 1]
  header_length := length_oneJobHeader
  items := [.group jobAttrsTag jobAttrsTag_mem_groupTags, .attr jobId, .attr jobName]
  data := []

/-- Cut inside the name of its second attribute, the response reads as its first alone. -/
theorem truncated_parse_iff_name :
    parseAttributes (oneJob.bytes.take 30) =
      parseAttributes (oneJob.cutBack (oneJob.bytes.take 30)) ∧
    parseJobGroups (oneJob.bytes.take 30) =
      parseJobGroups (oneJob.cutBack (oneJob.bytes.take 30)) := by
  have h := truncated_parse_iff oneJob (List.take_prefix 30 oneJob.bytes)
  have hlength : (oneJob.bytes.take 30).length = 30 := by decide
  have hcut : oneJob.cutText 30 = none := by decide
  rw [hlength] at h
  refine ⟨h.1.mpr fun key text htext => ?_,
    h.2.mpr ⟨fun _ => by decide, fun _ _ key text htext => ?_⟩⟩
  · cases hcut.symm.trans htext
  · cases hcut.symm.trans htext

/-- Cut two octets before the end of the name of its job, it reads as a job named "doc". -/
theorem truncated_text_read :
    oneJob.bytes.take 40 <+: oneJob.bytes ∧
    parseAttributes (oneJob.bytes.take 40) ≠
      parseAttributes (oneJob.cutBack (oneJob.bytes.take 40)) ∧
    parseJobGroups (oneJob.bytes.take 40) ≠
      parseJobGroups (oneJob.cutBack (oneJob.bytes.take 40)) := by
  have hread : parseAttributes (oneJob.bytes.take 40) (decodeAscii jobNameName) =
      some (.str ['d', 'o', 'c']) := by decide +kernel
  have hback : parseAttributes (oneJob.cutBack (oneJob.bytes.take 40)) (decodeAscii jobNameName) =
      none := by decide
  have hjobs : (parseJobGroups (oneJob.bytes.take 40)).map (· (decodeAscii jobNameName)) =
      [some (.str ['d', 'o', 'c'])] := by decide +kernel
  have hjobsBack : (parseJobGroups (oneJob.cutBack (oneJob.bytes.take 40))).map
      (· (decodeAscii jobNameName)) = [none] := by decide
  refine ⟨List.take_prefix 40 oneJob.bytes, fun h => ?_, fun h => ?_⟩
  · rw [h, hback] at hread
    cases hread
  · rw [h, hjobsBack] at hjobs
    cases hjobs

end Srp.Printers.Ipp
