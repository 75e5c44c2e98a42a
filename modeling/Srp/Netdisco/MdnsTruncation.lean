/-
  Srp/Netdisco/MdnsTruncation.lean
  ================================
  **An mDNS message that breaks off.**

  Up to the first name that the cut runs through, the walk over a beginning of a
  message reads the names of the message (`heard_readNames`).  That name it
  reads as if its last label ended at the cut, and if it belongs to a question
  or owns a record, it takes the octets of the name for the fields behind it.
  What the hint then says is of the message exactly when the names it rests on
  are.
-/
import Srp.Lib.Base64
import Srp.Netdisco.ReadName

namespace Srp.Netdisco

open Srp.Lib Srp.Lib.Lines Srp.Lib.Octets Srp.Lib.PyDecode Srp.Lib.DnsName

/-! ### Well-formed messages -/

/-- A name where it stands in a message. -/
structure NameSpan where
  start : Nat
  labels : List Label
  stop : Nat
  jumps : Nat

def NameSpan.In (s : NameSpan) (data : Bytes) : Prop :=
  NameAt data s.start s.labels s.stop s.jumps

/-- A record, its type and the names in its rdata. -/
structure MdnsRecord where
  owner : NameSpan
  rtype : Nat
  targets : List NameSpan

/-- The names of `rdlen` octets of rdata: the one of a PTR or SRV record stands where it has to;
in the rdata of other types there may be any. -/
def RdataNames (data : Bytes) (r : MdnsRecord) (start rdlen : Nat) : Prop :=
  (∀ s ∈ r.targets, s.In data ∧ start ≤ s.start ∧ s.stop ≤ start + rdlen) ∧
  ∀ k, targetOffset r.rtype = some k → ∃ s, r.targets = [s] ∧ s.start = start + k

inductive QuestionsAt (data : Bytes) : Nat → List NameSpan → Nat → Prop where
  | nil (off : Nat) : QuestionsAt data off [] off
  | cons {stop : Nat} {q : NameSpan} {qs : List NameSpan} (name : q.In data)
      (rest : QuestionsAt data (q.stop + 4) qs stop) : QuestionsAt data q.start (q :: qs) stop

inductive RecordsAt (data : Bytes) : Nat → List MdnsRecord → Nat → Prop where
  | nil (off : Nat) : RecordsAt data off [] off
  | cons {stop : Nat} {r : MdnsRecord} {rs : List MdnsRecord} (name : r.owner.In data)
      (rtype : r.rtype = u16 data r.owner.stop)
      (rdata : RdataNames data r (r.owner.stop + 10) (u16 data (r.owner.stop + 8)))
      (rest : RecordsAt data (r.owner.stop + 10 + u16 data (r.owner.stop + 8)) rs stop) :
      RecordsAt data r.owner.start (r :: rs) stop

structure MdnsMessage where
  bytes : Bytes
  questions : List NameSpan
  records : List MdnsRecord
  middle : Nat
  stop : Nat
  question_count : questions.length = questionCount bytes
  record_count : records.length = recordCount bytes
  questions_at : QuestionsAt bytes 12 questions middle
  records_at : RecordsAt bytes middle records stop
  stop_le : stop ≤ bytes.length

/-- All names of the message. -/
def MdnsMessage.names (m : MdnsMessage) : List (List Label) :=
  m.questions.map (·.labels) ++
    m.records.flatMap fun r => r.owner.labels :: r.targets.map (·.labels)

/-! ### What a hint may say -/

def labelText (l : Label) : Text := decodeAscii l

namespace MdnsMessage

/-- The subtype is the one assigned to a label of some name, whatever the case of the label. -/
def Assigns (m : MdnsMessage) (subtype : Text) : Prop :=
  ∃ labels ∈ m.names, ∃ l ∈ labels, (lower (labelText l), subtype) ∈ mdnsServiceSubtype

/-- The host is the host label of some name, trimmed as the parser does. -/
def Hosts (m : MdnsMessage) (host : Text) : Prop :=
  ∃ h l, [h, l] ∈ m.names ∧ lower (labelText l) = "local".toList ∧
    cleanHost (labelText h) = some host

/-- The hint says nothing that the message does not. -/
def Backs (m : MdnsMessage) (hint : Option PassiveHint) : Prop :=
  ∀ found, hint = some found →
    (∀ subtype, found.subtype = some subtype → m.Assigns subtype) ∧
    (∀ host, found.hostname = some host → m.Hosts host)

end MdnsMessage

/-! ### Names that lie whole in the octets there are -/

/-- The names of the records that the walk reads and that lie whole within `n` octets, up to the
first that does not. -/
def wholeRecords (n : Nat) : List MdnsRecord → List NameSpan
  | [] => []
  | r :: rs =>
    if r.owner.stop ≤ n then
      r.owner :: match targetOffset r.rtype, r.targets with
        | some _, s :: _ => if s.stop ≤ n then s :: wholeRecords n rs else []
        | _, _ => wholeRecords n rs
    else []

/-- What the walk reads of the records from there on. -/
def strayRecords (p : Bytes) : List MdnsRecord → List Text
  | [] => []
  | r :: rs =>
    if r.owner.stop ≤ p.length then
      match targetOffset r.rtype, r.targets with
      | some _, s :: _ => if s.stop ≤ p.length then strayRecords p rs else [(readName p s.start).1]
      | _, _ => strayRecords p rs
    else readRecords p (rs.length + 1) r.owner.start

def wholeQuestions (n : Nat) (behind : List NameSpan) : List NameSpan → List NameSpan
  | [] => behind
  | q :: qs => if q.stop ≤ n then q :: wholeQuestions n behind qs else []

/-- The walk over so many questions and records. -/
def walkNames (p : Bytes) (questions records off : Nat) : List Text :=
  (readQuestions p questions off).1 ++ readRecords p records (readQuestions p questions off).2

def strayQuestions (p : Bytes) (records : Nat) (behind : List Text) : List NameSpan → List Text
  | [] => behind
  | q :: qs =>
    if q.stop ≤ p.length then strayQuestions p records behind qs
    else walkNames p (qs.length + 1) records q.start

/-! ### `_read_name` on a name of the grammar -/

section Reading

variable {data p : Bytes}

/-- A name is read up to its stop; all of its labels are, unless there are too many pointers. -/
theorem readName_name {off stop jumps : Nat} {labels : List Label}
    (h : NameAt data off labels stop jumps) :
    (readName data off).2 = stop ∧
      (jumps < 32 → (readName data off).1 = dotted (labels.map labelText)) :=
  readName_laidOut h.laidOut

/-- Past the end there is no name. -/
theorem readName_past {off : Nat} (h : data.length ≤ off) : readName data off = ([], off) := by
  obtain ⟨fuel, hfuel⟩ : ∃ n, 33 * (data.length + 1) = n + 1 := ⟨33 * data.length + 32, by omega⟩
  have hnone : data[off]? = none := List.getElem?_eq_none h
  simp [readName, hfuel, readNameLoop, hnone, dotted]

theorem readTarget_past {off : Nat} (h : data.length ≤ off) (rtype : Nat) :
    readTarget data rtype off = [] := by
  rw [readTarget]
  cases targetOffset rtype with
  | none => rfl
  | some k => simp [readName_past (show data.length ≤ off + k by omega)]

theorem readRecords_past {off : Nat} (h : data.length ≤ off) (n : Nat) :
    ∀ t ∈ readRecords data n off, t = [] := by
  induction n generalizing off with
  | zero => simp [readRecords]
  | succ n ih =>
    intro t ht
    simp only [readRecords, readName_past h,
      readTarget_past (show data.length ≤ off + 10 by omega), List.nil_append,
      List.mem_cons] at ht
    rcases ht with rfl | ht
    · rfl
    · exact ih (by omega) t ht

theorem walkNames_past {off : Nat} (h : data.length ≤ off) (questions records : Nat) :
    ∀ t ∈ walkNames data questions records off, t = [] := by
  induction questions generalizing off with
  | zero =>
    intro t ht
    exact readRecords_past h records t (by simpa [walkNames, readQuestions] using ht)
  | succ n ih =>
    intro t ht
    have hcons : walkNames data (n + 1) records off = [] :: walkNames data n records (off + 4) := by
      simp [walkNames, readQuestions, readName_past h]
    rw [hcons, List.mem_cons] at ht
    rcases ht with rfl | ht
    · rfl
    · exact ih (by omega) t ht

end Reading

/-! ### The walk over a beginning of a message -/

/-- The names that are not empty; the others say nothing. -/
def heard (names : List Text) : List Text := names.filter fun t => !t.isEmpty

theorem heard_append (names names' : List Text) :
    heard (names ++ names') = heard names ++ heard names' :=
  List.filter_append names names'

theorem heard_eq_nil {names : List Text} (h : ∀ t ∈ names, t = []) : heard names = [] :=
  List.filter_eq_nil_iff.mpr fun t ht => by simp [h t ht]

theorem heard_cons_congr (t : Text) {names names' : List Text} (h : heard names = heard names') :
    heard (t :: names) = heard (t :: names') := by
  rw [heard, heard, List.filter_cons, List.filter_cons, ← heard, ← heard, h]

theorem u16_cut {p data : Bytes} (h : p <+: data) {off : Nat} (hoff : off + 2 ≤ p.length) :
    u16 p off = u16 data off := by
  rw [u16, u16, slice_cut h hoff]

section Walk

variable {data p : Bytes}

theorem QuestionsAt.le {off stop : Nat} {qs : List NameSpan} (h : QuestionsAt data off qs stop) :
    off ≤ stop := by
  induction h with
  | nil => exact le_rfl
  | cons name rest ih =>
    have hlt := NameAt.lt_stop name
    omega

/-- Where the records begin past the end there are none. -/
theorem RecordsAt.past {off stop : Nat} {rs : List MdnsRecord} (h : RecordsAt data off rs stop)
    (hoff : p.length ≤ off) :
    wholeRecords p.length rs = [] ∧ ∀ t ∈ strayRecords p rs, t = [] := by
  cases h with
  | nil => simp [wholeRecords, strayRecords]
  | @cons stop r rs name rtype rdata rest =>
    have hlt : ¬ r.owner.stop ≤ p.length := by
      have := NameAt.lt_stop name
      omega
    rw [wholeRecords, strayRecords, if_neg hlt, if_neg hlt]
    exact ⟨rfl, readRecords_past hoff _⟩

theorem heard_readTarget {rtype k : Nat} (h : targetOffset rtype = some k) (off : Nat) :
    heard (readTarget p rtype off) = heard [(readName p (off + k)).1] := by
  simp only [readTarget, h]
  by_cases hempty : (readName p (off + k)).1 = []
  · rw [if_pos hempty, hempty]
    rfl
  · rw [if_neg hempty]

/-- What is read of the names of the records, in the order of the walk. -/
def recordTexts (p : Bytes) (rs : List MdnsRecord) : List Text :=
  (wholeRecords p.length rs).map (fun s => (readName p s.start).1) ++ strayRecords p rs

theorem recordTexts_none {r : MdnsRecord} (hr : r.owner.stop ≤ p.length)
    (h : targetOffset r.rtype = none) (rs : List MdnsRecord) :
    recordTexts p (r :: rs) = (readName p r.owner.start).1 :: recordTexts p rs := by
  simp [recordTexts, wholeRecords, strayRecords, hr, h]

theorem recordTexts_target {k : Nat} {r : MdnsRecord} {s : NameSpan}
    (hr : r.owner.stop ≤ p.length) (h : targetOffset r.rtype = some k)
    (htargets : r.targets = [s]) (rs : List MdnsRecord) :
    recordTexts p (r :: rs) = (readName p r.owner.start).1 :: (readName p s.start).1 ::
      if s.stop ≤ p.length then recordTexts p rs else [] := by
  by_cases hs : s.stop ≤ p.length
  · simp [recordTexts, wholeRecords, strayRecords, hr, h, htargets, hs]
  · simp [recordTexts, wholeRecords, strayRecords, hr, h, htargets, hs]

theorem recordTexts_past {off stop : Nat} {rs : List MdnsRecord} (h : RecordsAt data off rs stop)
    (hoff : p.length ≤ off) : heard (recordTexts p rs) = [] := by
  obtain ⟨hwhole, hstray⟩ := h.past hoff
  rw [recordTexts, hwhole]
  exact heard_eq_nil hstray

/-- Of a record whose fixed part is cut, nothing is read but the owner. -/
theorem recordTexts_fixedCut {stop : Nat} {r : MdnsRecord} {rs : List MdnsRecord}
    (hr : r.owner.stop ≤ p.length) (hfixed : p.length < r.owner.stop + 10)
    (rdata : RdataNames data r (r.owner.stop + 10) (u16 data (r.owner.stop + 8)))
    (rest : RecordsAt data (r.owner.stop + 10 + u16 data (r.owner.stop + 8)) rs stop) :
    heard (recordTexts p (r :: rs)) = heard [(readName p r.owner.start).1] := by
  cases htarget : targetOffset r.rtype with
  | none =>
    rw [recordTexts_none hr htarget]
    exact heard_cons_congr _ (recordTexts_past rest (by omega))
  | some k =>
    obtain ⟨s, htargets, hstart⟩ := rdata.2 k htarget
    obtain ⟨hs, -, -⟩ := rdata.1 s (by rw [htargets]; exact List.mem_singleton_self s)
    have hlt := NameAt.lt_stop hs
    rw [recordTexts_target hr htarget htargets, if_neg (by omega),
      readName_past (show p.length ≤ s.start by omega)]
    exact heard_cons_congr _ rfl

theorem readRecords_cut {off stop : Nat} {rs : List MdnsRecord}
    (h : RecordsAt data off rs stop) (hp : p <+: data) :
    heard (readRecords p rs.length off) = heard (recordTexts p rs) := by
  induction h with
  | nil => rfl
  | @cons stop r rs name rtype rdata rest ih =>
    by_cases hr : r.owner.stop ≤ p.length
    · have hname := (readName_name (name.of_cut hp hr)).1
      have hread : readRecords p (rs.length + 1) r.owner.start =
          (readName p r.owner.start).1 :: (readTarget p (u16 p r.owner.stop) (r.owner.stop + 10) ++
            readRecords p rs.length (r.owner.stop + 10 + u16 p (r.owner.stop + 8))) := by
        simp only [readRecords, ← hname]
      rw [List.length_cons, hread]
      by_cases hfixed : r.owner.stop + 10 ≤ p.length
      · rw [u16_cut hp (by omega), u16_cut hp (by omega), ← rtype]
        cases htarget : targetOffset r.rtype with
        | none =>
          rw [recordTexts_none hr htarget, readTarget, htarget]
          exact heard_cons_congr _ ih
        | some k =>
          obtain ⟨s, htargets, hstart⟩ := rdata.2 k htarget
          obtain ⟨-, -, hstop⟩ := rdata.1 s (by rw [htargets]; exact List.mem_singleton_self s)
          rw [recordTexts_target hr htarget htargets]
          apply heard_cons_congr
          rw [heard_append, heard_readTarget htarget, ← hstart]
          by_cases hs : s.stop ≤ p.length
          · rw [if_pos hs, ih, ← heard_append, List.singleton_append]
          · rw [if_neg hs, heard_eq_nil (readRecords_past (by omega) rs.length), List.append_nil]
      · rw [recordTexts_fixedCut hr (by omega) rdata rest, readTarget_past (by omega),
          List.nil_append]
        exact heard_cons_congr _ (heard_eq_nil (readRecords_past (by omega) rs.length))
    · rw [recordTexts, wholeRecords, strayRecords, if_neg hr, if_neg hr]
      rfl

/-- What is read of the names of the questions and of the records behind them. -/
def questionTexts (p : Bytes) (rs : List MdnsRecord) (qs : List NameSpan) : List Text :=
  (wholeQuestions p.length (wholeRecords p.length rs) qs).map (fun s => (readName p s.start).1) ++
    strayQuestions p rs.length (strayRecords p rs) qs

theorem walkNames_cut {off middle stop : Nat} {qs : List NameSpan} {rs : List MdnsRecord}
    (h : QuestionsAt data off qs middle) (hrs : RecordsAt data middle rs stop) (hp : p <+: data) :
    heard (walkNames p qs.length rs.length off) = heard (questionTexts p rs qs) := by
  induction h with
  | nil => exact readRecords_cut hrs hp
  | @cons middle q qs name rest ih =>
    by_cases hq : q.stop ≤ p.length
    · have hname := (readName_name (name.of_cut hp hq)).1
      have hwalk : walkNames p (qs.length + 1) rs.length q.start =
          (readName p q.start).1 :: walkNames p qs.length rs.length (q.stop + 4) := by
        simp only [walkNames, readQuestions, ← hname, List.cons_append]
      rw [List.length_cons, hwalk, questionTexts, wholeQuestions, strayQuestions, if_pos hq,
        if_pos hq, List.map_cons, List.cons_append]
      exact heard_cons_congr _ (ih hrs)
    · rw [questionTexts, wholeQuestions, strayQuestions, if_neg hq, if_neg hq]
      rfl

end Walk

/-! ### What the names say -/

@[simp] theorem serviceOf_nil : serviceOf [] = none := by decide

@[simp] theorem hostOf_nil : hostOf [] = none := by decide

theorem identify_eq (names : List Text) :
    identify names = (names.findSome? serviceOf, names.findSome? hostOf) := by
  have hfold : ∀ found : Option Text × Option Text,
      names.foldl (fun found nm => (found.1.or (serviceOf nm), found.2.or (hostOf nm))) found =
        (found.1.or (names.findSome? serviceOf), found.2.or (names.findSome? hostOf)) := by
    induction names with
    | nil => intro found; simp
    | cons nm names ih =>
      intro found
      rw [List.foldl_cons, ih, List.findSome?_cons, List.findSome?_cons]
      cases found.1 <;> cases found.2 <;> cases serviceOf nm <;> cases hostOf nm <;> rfl
  exact hfold (none, none)

theorem findSome?_heard {f : Text → Option Text} (hf : f [] = none) (names : List Text) :
    (heard names).findSome? f = names.findSome? f := by
  induction names with
  | nil => rfl
  | cons nm names ih =>
    cases nm with
    | nil => exact ih.trans (by rw [List.findSome?_cons, hf])
    | cons c nm =>
      have hcons : heard ((c :: nm) :: names) = (c :: nm) :: heard names := rfl
      rw [hcons, List.findSome?_cons, List.findSome?_cons, ih]

theorem toLower_eq_dot {c : Char} : c.toLower = '.' ↔ c = '.' := by
  by_cases hupper : c.val ≥ 'A'.val ∧ c.val ≤ 'Z'.val
  · have hlow : 65 ≤ c.val.toNat := hupper.1
    have hhigh : c.val.toNat ≤ 90 := hupper.2
    have hval : c.toLower.val = c.val + 32 := congrArg Char.val (dif_pos hupper)
    have hlower : c.toLower.val.toNat = c.val.toNat + 32 := by
      rw [hval, UInt32.toNat_add]
      have h32 : (32 : UInt32).toNat = 32 := rfl
      rw [h32]
      omega
    refine iff_of_false (fun h => ?_) (fun h => ?_)
    · rw [h] at hlower
      have hdot : '.'.val.toNat = 46 := rfl
      omega
    · rw [h] at hlow
      exact absurd hlow (by decide)
  · have hsame : c.toLower = c := dif_neg hupper
    rw [hsame]

theorem dot_mem_lower {t : Text} : '.' ∈ lower t ↔ '.' ∈ t := by
  simp [lower, toLower_eq_dot]

theorem lower_dotted (labels : List Text) : lower (dotted labels) = dotted (labels.map lower) := by
  induction labels with
  | nil => rfl
  | cons t labels ih =>
    cases labels with
    | nil => simp [dotted, lower]
    | cons t' labels =>
      simp only [dotted, lower, List.map_cons, List.intercalate_cons_cons, List.map_append] at ih ⊢
      rw [ih]
      rfl

theorem splitOn_dotted {labels : List Text} (h : ∀ t ∈ labels, '.' ∉ t) (hne : labels ≠ []) :
    (dotted labels).splitOn '.' = labels :=
  List.splitOn_intercalate '.' h hne

/-- Among labels without dots the parser finds no service but of a label. -/
theorem serviceOf_dotted {labels : List Text} (hdots : ∀ t ∈ labels, '.' ∉ t) {subtype : Text}
    (h : serviceOf (dotted labels) = some subtype) :
    ∃ t ∈ labels, (lower t, subtype) ∈ mdnsServiceSubtype := by
  have hne : labels ≠ [] := by
    rintro rfl
    cases serviceOf_nil.symm.trans h
  have hsplit : (lower (dotted labels)).splitOn '.' = labels.map lower := by
    rw [lower_dotted]
    refine splitOn_dotted (fun t ht => ?_) (by simpa using hne)
    obtain ⟨t', ht', rfl⟩ := List.mem_map.mp ht
    rw [dot_mem_lower]
    exact hdots t' ht'
  obtain ⟨entry, hentry, hfound⟩ := List.exists_of_findSome?_eq_some h
  rw [hsplit] at hfound
  split at hfound
  · next hmem =>
    obtain ⟨t, ht, htoken⟩ := List.mem_map.mp hmem
    refine ⟨t, ht, ?_⟩
    rw [htoken, ← Option.some.inj hfound]
    exact hentry
  · cases hfound

theorem labels_of_count {labels : List Text} (hdots : ∀ t ∈ labels, '.' ∉ t)
    (h : (dotted labels).count '.' = 1) : ∃ t u, labels = [t, u] := by
  match labels, hdots, h with
  | [], _, h => cases h
  | [t], hdots, h =>
    have hcount : t.count '.' = 0 := List.count_eq_zero.mpr (hdots t List.mem_cons_self)
    rw [dotted, List.intercalate_singleton, hcount] at h
    cases h
  | [t, u], _, _ => exact ⟨t, u, rfl⟩
  | t :: u :: v :: rest, _, h =>
    simp only [dotted, List.intercalate_cons_cons, List.count_append,
      List.count_singleton_self] at h
    omega

/-- Among labels without dots the parser finds no host but the first of two. -/
theorem hostOf_dotted {labels : List Text} (hdots : ∀ t ∈ labels, '.' ∉ t) {host : Text}
    (h : hostOf (dotted labels) = some host) :
    ∃ t u, labels = [t, u] ∧ lower u = "local".toList ∧ cleanHost t = some host := by
  rw [hostOf] at h
  split at h
  · next hcond =>
    obtain ⟨hlocal, hcount, -⟩ := hcond
    obtain ⟨t, u, rfl⟩ := labels_of_count hdots hcount
    rw [splitOn_dotted hdots (by simp)] at h
    refine ⟨t, u, rfl, ?_, (Option.filter_eq_some_iff.mp h).1⟩
    obtain ⟨before, hbefore⟩ := hlocal
    have hdot : ".local".toList = '.' :: "local".toList := by decide
    have htwo : lower t ++ '.' :: lower u = before ++ '.' :: "local".toList := by
      rw [lower_dotted, hdot] at hbefore
      simpa [dotted] using hbefore.symm
    have hsplit := (List.append_cons_inj_of_notMem
      (fun hmem => hdots t (by simp) (dot_mem_lower.mp hmem))
      (fun hmem => hdots u (by simp) (dot_mem_lower.mp hmem))).mp htwo
    exact hsplit.2.2
  · cases h

/-! ### What a hint rests on -/

/-- The parser reads the name to its end and takes it apart into its labels. -/
def NameSpan.Sound (s : NameSpan) : Prop := s.jumps < 32 ∧ ∀ l ∈ s.labels, '.' ∉ labelText l

/-- The names of a record that the walk reads. -/
def MdnsRecord.walked (r : MdnsRecord) : List NameSpan :=
  r.owner :: if (targetOffset r.rtype).isSome then r.targets else []

instance : DecidablePred NameSpan.Sound := fun s =>
  inferInstanceAs (Decidable (s.jumps < 32 ∧ ∀ l ∈ s.labels, '.' ∉ labelText l))

/-- The first of the names that says something, with its flag. -/
def firstOf (f : Text → Option Text) (reads : List (Text × Bool)) : Option (Text × Bool) :=
  reads.findSome? fun read => (f read.1).map fun found => (found, read.2)

namespace MdnsMessage

/-- The names of the message that the walk reads and that lie whole within `n` octets, up to the
first that does not. -/
def whole (m : MdnsMessage) (n : Nat) : List NameSpan :=
  wholeQuestions n (wholeRecords n m.records) m.questions

/-- What the walk over a beginning of the message reads from there on. -/
def strays (m : MdnsMessage) (p : Bytes) : List Text :=
  strayQuestions p m.records.length (strayRecords p m.records) m.questions

/-- The names read, and whether each is a sound one of the message. -/
def reads (m : MdnsMessage) (p : Bytes) : List (Text × Bool) :=
  (m.whole p.length).map (fun s => ((readName p s.start).1, decide s.Sound)) ++
    (m.strays p).map fun t => (t, false)

/-- The first name with a service label is a sound one, or its subtype is that of a label anyway;
and so is the first name under `local`. -/
def Stands (m : MdnsMessage) (p : Bytes) : Prop :=
  12 ≤ p.length →
    (∀ subtype, firstOf serviceOf (m.reads p) = some (subtype, false) → m.Assigns subtype) ∧
    (∀ host, firstOf hostOf (m.reads p) = some (host, false) → m.Hosts host)

/-- The names that the walk over the whole message reads. -/
def walked (m : MdnsMessage) : List NameSpan :=
  m.questions ++ m.records.flatMap MdnsRecord.walked

/-- `f` finds something in the name, or the parser does not take it apart into its labels. -/
def counts (f : Text → Option Text) (s : NameSpan) : Bool :=
  !decide s.Sound || (f (dotted (s.labels.map labelText))).isSome

/-- What `f` finds in the names is decided before a cut after `n` octets: the first of the whole
names to count is a sound one, or there is none and the cut is inside no name. -/
def Decided (m : MdnsMessage) (f : Text → Option Text) (n : Nat) : Prop :=
  match (m.whole n).find? (counts f) with
  | some s => s.Sound
  | none => ∀ s ∈ m.walked, s.stop ≤ n ∨ n ≤ s.start

instance (m : MdnsMessage) (f : Text → Option Text) (n : Nat) : Decidable (m.Decided f n) := by
  unfold Decided
  cases (m.whole n).find? (counts f) with
  | some s => exact inferInstanceAs (Decidable s.Sound)
  | none => exact inferInstanceAs (Decidable (∀ s ∈ m.walked, s.stop ≤ n ∨ n ≤ s.start))

end MdnsMessage

/-! ### The names of a message -/

section Names

variable {data p : Bytes}

theorem QuestionsAt.mem {off stop : Nat} {qs : List NameSpan} (h : QuestionsAt data off qs stop)
    {s : NameSpan} (hs : s ∈ qs) : s.In data := by
  induction h with
  | nil => cases hs
  | cons name rest ih =>
    rcases List.mem_cons.mp hs with rfl | hs
    · exact name
    · exact ih hs

theorem RecordsAt.mem {off stop : Nat} {rs : List MdnsRecord} (h : RecordsAt data off rs stop)
    {r : MdnsRecord} (hr : r ∈ rs) : r.owner.In data ∧ ∀ s ∈ r.targets, s.In data := by
  induction h with
  | nil => cases hr
  | cons name rtype rdata rest ih =>
    rcases List.mem_cons.mp hr with rfl | hr
    · exact ⟨name, fun s hs => (rdata.1 s hs).1⟩
    · exact ih hr

theorem MdnsRecord.mem_walked {r : MdnsRecord} {s : NameSpan} (h : s ∈ r.walked) :
    s = r.owner ∨ s ∈ r.targets := by
  rw [MdnsRecord.walked, List.mem_cons] at h
  refine h.imp_right fun h => ?_
  split at h
  · exact h
  · cases h

theorem MdnsMessage.in_of_walked {m : MdnsMessage} {s : NameSpan} (h : s ∈ m.walked) :
    s.In m.bytes := by
  rw [walked, List.mem_append, List.mem_flatMap] at h
  rcases h with h | ⟨r, hr, h⟩
  · exact m.questions_at.mem h
  · rcases r.mem_walked h with rfl | h
    · exact (m.records_at.mem hr).1
    · exact (m.records_at.mem hr).2 s h

theorem MdnsMessage.labels_mem {m : MdnsMessage} {s : NameSpan} (h : s ∈ m.walked) :
    s.labels ∈ m.names := by
  rw [walked, List.mem_append, List.mem_flatMap] at h
  rw [names, List.mem_append, List.mem_flatMap]
  rcases h with h | ⟨r, hr, h⟩
  · exact Or.inl (List.mem_map_of_mem h)
  · refine Or.inr ⟨r, hr, ?_⟩
    rcases r.mem_walked h with rfl | h
    · exact List.mem_cons_self
    · exact List.mem_cons_of_mem _ (List.mem_map_of_mem h)

theorem mem_wholeRecords {n : Nat} {rs : List MdnsRecord} {s : NameSpan}
    (h : s ∈ wholeRecords n rs) : s ∈ rs.flatMap MdnsRecord.walked ∧ s.stop ≤ n := by
  induction rs with
  | nil => cases h
  | cons r rs ih =>
    rw [List.flatMap_cons, List.mem_append]
    have hrest (h : s ∈ wholeRecords n rs) :
        (s ∈ r.walked ∨ s ∈ rs.flatMap MdnsRecord.walked) ∧ s.stop ≤ n :=
      (ih h).imp_left Or.inr
    rw [wholeRecords] at h
    by_cases hr : r.owner.stop ≤ n
    · rw [if_pos hr, List.mem_cons] at h
      rcases h with rfl | h
      · exact ⟨Or.inl List.mem_cons_self, hr⟩
      · split at h
        · next k t ts htarget htargets =>
          split at h
          · next hstop =>
            rcases List.mem_cons.mp h with rfl | h
            · refine ⟨Or.inl (List.mem_cons_of_mem _ ?_), hstop⟩
              rw [htarget, htargets]
              exact List.mem_cons_self
            · exact hrest h
          · cases h
        · exact hrest h
    · rw [if_neg hr] at h
      cases h

theorem MdnsMessage.mem_whole {m : MdnsMessage} {n : Nat} {s : NameSpan} (h : s ∈ m.whole n) :
    s ∈ m.walked ∧ s.stop ≤ n := by
  have hquestions : ∀ qs : List NameSpan, s ∈ wholeQuestions n (wholeRecords n m.records) qs →
      (s ∈ qs ∨ s ∈ m.records.flatMap MdnsRecord.walked) ∧ s.stop ≤ n := by
    intro qs
    induction qs with
    | nil => exact fun h => (mem_wholeRecords h).imp_left Or.inr
    | cons q qs ih =>
      intro h
      rw [wholeQuestions] at h
      split at h
      · next hq =>
        rcases List.mem_cons.mp h with rfl | h
        · exact ⟨Or.inl List.mem_cons_self, hq⟩
        · exact (ih h).imp_left (Or.imp_left (List.mem_cons_of_mem q))
      · cases h
  rw [walked, List.mem_append]
  exact hquestions m.questions h

/-- A sound name that lies whole in the octets is read as its labels. -/
theorem MdnsMessage.readName_sound {m : MdnsMessage} (hp : p <+: m.bytes) {s : NameSpan}
    (hs : s ∈ m.whole p.length) (hsound : s.Sound) :
    (readName p s.start).1 = dotted (s.labels.map labelText) := by
  obtain ⟨hwalked, hstop⟩ := mem_whole hs
  exact (readName_name ((in_of_walked hwalked).of_cut hp hstop)).2 hsound.1

/-- Where no name is cut, what is read behind the whole names is empty. -/
theorem strayRecords_of_clear {rs : List MdnsRecord}
    (h : ∀ s ∈ rs.flatMap MdnsRecord.walked, s.stop ≤ p.length ∨ p.length ≤ s.start) :
    ∀ t ∈ strayRecords p rs, t = [] := by
  induction rs with
  | nil => simp [strayRecords]
  | cons r rs ih =>
    rw [List.flatMap_cons, List.forall_mem_append] at h
    rw [strayRecords]
    by_cases hr : r.owner.stop ≤ p.length
    · rw [if_pos hr]
      split
      · next k s ss htarget htargets =>
        have hs : s ∈ r.walked := by
          rw [MdnsRecord.walked, htarget, htargets]
          simp
        split
        · exact ih h.2
        · next hstop =>
          intro t ht
          rw [List.mem_singleton.mp ht, readName_past ((h.1 s hs).resolve_left hstop)]
      · exact ih h.2
    · rw [if_neg hr]
      exact readRecords_past ((h.1 r.owner List.mem_cons_self).resolve_left hr) _

theorem MdnsMessage.strays_of_clear {m : MdnsMessage}
    (hclear : ∀ s ∈ m.walked, s.stop ≤ p.length ∨ p.length ≤ s.start) :
    ∀ t ∈ m.strays p, t = [] := by
  rw [walked, List.forall_mem_append] at hclear
  have hrecords := strayRecords_of_clear hclear.2
  have hquestions : ∀ qs : List NameSpan,
      (∀ s ∈ qs, s.stop ≤ p.length ∨ p.length ≤ s.start) →
      ∀ t ∈ strayQuestions p m.records.length (strayRecords p m.records) qs, t = [] := by
    intro qs
    induction qs with
    | nil => exact fun _ => hrecords
    | cons q qs ih =>
      intro hqs
      rw [List.forall_mem_cons] at hqs
      rw [strayQuestions]
      by_cases hq : q.stop ≤ p.length
      · rw [if_pos hq]
        exact ih hqs.2
      · rw [if_neg hq]
        exact walkNames_past (hqs.1.resolve_left hq) _ _
  exact hquestions m.questions hclear.1

end Names

/-! ### The hint of a message that breaks off -/

theorem firstOf_findSome? (f : Text → Option Text) (reads : List (Text × Bool)) :
    (firstOf f reads).map (·.1) = (reads.map (·.1)).findSome? f := by
  induction reads with
  | nil => rfl
  | cons read reads ih =>
    rw [List.map_cons, List.findSome?_cons, ← ih, firstOf, List.findSome?_cons]
    cases f read.1 <;> rfl

theorem mem_of_firstOf {f : Text → Option Text} {reads : List (Text × Bool)} {found : Text}
    {flag : Bool} (h : firstOf f reads = some (found, flag)) :
    ∃ text, (text, flag) ∈ reads ∧ f text = some found := by
  obtain ⟨⟨text, flag'⟩, hmem, hread⟩ := List.exists_of_findSome?_eq_some h
  obtain ⟨found', hfound, heq⟩ := Option.map_eq_some_iff.mp hread
  cases heq
  exact ⟨text, hmem, hfound⟩

/-- What the names say holds if it does where the first to say it is not sound. -/
theorem forall_findSome?_iff {f : Text → Option Text} {reads : List (Text × Bool)}
    {P : Text → Prop} (hsound : ∀ found, firstOf f reads = some (found, true) → P found) :
    (∀ found, (reads.map (·.1)).findSome? f = some found → P found) ↔
      ∀ found, firstOf f reads = some (found, false) → P found := by
  rw [← firstOf_findSome?]
  constructor
  · intro h found hfound
    exact h found (by rw [hfound]; rfl)
  · intro h found hfound
    obtain ⟨⟨found', flag⟩, hfirst, rfl⟩ := Option.map_eq_some_iff.mp hfound
    cases flag with
    | true => exact hsound found' hfirst
    | false => exact h found' hfirst

namespace MdnsMessage

variable {m : MdnsMessage} {p : Bytes}

theorem heard_readNames (hp : p <+: m.bytes) (h12 : 12 ≤ p.length) :
    heard (readNames p) = heard ((m.reads p).map (·.1)) := by
  have hquestions : questionCount p = m.questions.length := by
    rw [m.question_count, questionCount, questionCount, u16_cut hp (by omega)]
  have hrecords : recordCount p = m.records.length := by
    rw [m.record_count, recordCount, recordCount, u16_cut hp (by omega),
      u16_cut hp (by omega), u16_cut hp (by omega)]
  have hwalk : readNames p = walkNames p m.questions.length m.records.length 12 := by
    rw [readNames, hquestions, hrecords]
    rfl
  have hreads : (m.reads p).map (·.1) = questionTexts p m.records m.questions := by
    rw [reads, List.map_append, List.map_map, List.map_map]
    exact congrArg _ (List.map_id' _)
  rw [hwalk, hreads]
  exact walkNames_cut m.questions_at m.records_at hp

theorem sound_of_mem_reads (hp : p <+: m.bytes) {text : Text} (h : (text, true) ∈ m.reads p) :
    ∃ s ∈ m.walked, s.Sound ∧ text = dotted (s.labels.map labelText) := by
  rcases List.mem_append.mp h with h | h
  · obtain ⟨s, hs, heq⟩ := List.mem_map.mp h
    obtain ⟨rfl, hsound⟩ := Prod.mk.inj heq
    have hsound := of_decide_eq_true hsound
    exact ⟨s, (mem_whole hs).1, hsound, readName_sound hp hs hsound⟩
  · obtain ⟨t, -, heq⟩ := List.mem_map.mp h
    cases heq

theorem assigns_of_sound (hp : p <+: m.bytes) {subtype : Text}
    (h : firstOf serviceOf (m.reads p) = some (subtype, true)) : m.Assigns subtype := by
  obtain ⟨text, hmem, hservice⟩ := mem_of_firstOf h
  obtain ⟨s, hs, hsound, rfl⟩ := sound_of_mem_reads hp hmem
  have hdots : ∀ t ∈ s.labels.map labelText, '.' ∉ t := by
    intro t ht
    obtain ⟨l, hl, rfl⟩ := List.mem_map.mp ht
    exact hsound.2 l hl
  obtain ⟨t, ht, hentry⟩ := serviceOf_dotted hdots hservice
  obtain ⟨l, hl, rfl⟩ := List.mem_map.mp ht
  exact ⟨s.labels, labels_mem hs, l, hl, hentry⟩

theorem hosts_of_sound (hp : p <+: m.bytes) {host : Text}
    (h : firstOf hostOf (m.reads p) = some (host, true)) : m.Hosts host := by
  obtain ⟨text, hmem, hhost⟩ := mem_of_firstOf h
  obtain ⟨s, hs, hsound, rfl⟩ := sound_of_mem_reads hp hmem
  have hdots : ∀ t ∈ s.labels.map labelText, '.' ∉ t := by
    intro t ht
    obtain ⟨l, hl, rfl⟩ := List.mem_map.mp ht
    exact hsound.2 l hl
  obtain ⟨t, u, hlabels, hlocal, hclean⟩ := hostOf_dotted hdots hhost
  obtain ⟨l, labels, hl, rfl, hrest⟩ := List.map_eq_cons_iff.mp hlabels
  obtain ⟨l', labels', hl', rfl, hnil⟩ := List.map_eq_cons_iff.mp hrest
  rw [List.map_eq_nil_iff.mp hnil] at hl'
  refine ⟨l, l', ?_, hlocal, hclean⟩
  rw [← hl', ← hl]
  exact labels_mem hs

theorem backs_iff (h12 : 12 ≤ p.length) (srcIp : Text) :
    m.Backs (parseMdns p srcIp) ↔
      (∀ subtype, (identify (readNames p)).1 = some subtype → m.Assigns subtype) ∧
      (∀ host, (identify (readNames p)).2 = some host → m.Hosts host) := by
  rw [Backs, parseMdns, if_neg (Nat.not_lt.mpr h12)]
  obtain ⟨subtype, hostname⟩ := identify (readNames p)
  cases subtype <;> cases hostname <;> simp

theorem backs_iff_stands (hp : p <+: m.bytes) (srcIp : Text) :
    m.Backs (parseMdns p srcIp) ↔ m.Stands p := by
  by_cases h12 : 12 ≤ p.length
  · rw [backs_iff h12, identify_eq, Stands, ← findSome?_heard serviceOf_nil,
      ← findSome?_heard hostOf_nil, heard_readNames hp h12, findSome?_heard serviceOf_nil,
      findSome?_heard hostOf_nil, forall_findSome?_iff fun _ => assigns_of_sound hp,
      forall_findSome?_iff fun _ => hosts_of_sound hp]
    exact ⟨fun h _ => h, fun h => h h12⟩
  · -- without a header there is no hint
    refine iff_of_true ?_ fun h => absurd h h12
    intro found hfound
    rw [parseMdns, if_pos (Nat.lt_of_not_le h12)] at hfound
    cases hfound

/-- Where the first of the whole names to count is sound, no other name speaks first. -/
theorem firstOf_whole {f : Text → Option Text} {spans : List NameSpan} {strays : List Text}
    (hread : ∀ s ∈ spans, s.Sound → (readName p s.start).1 = dotted (s.labels.map labelText))
    {found : Text}
    (h : match spans.find? (counts f) with
      | some s => s.Sound
      | none => firstOf f (strays.map fun t => (t, false)) ≠ some (found, false)) :
    firstOf f (spans.map (fun s => ((readName p s.start).1, decide s.Sound)) ++
      strays.map fun t => (t, false)) ≠ some (found, false) := by
  induction spans with
  | nil => exact h
  | cons s spans ih =>
    rw [List.forall_mem_cons] at hread
    rw [List.map_cons, List.cons_append, firstOf, List.findSome?_cons]
    by_cases hcounts : counts f s = true
    · -- the name is sound, so that it counts for what it says
      rw [List.find?_cons_of_pos hcounts] at h
      have hsays : (f (dotted (s.labels.map labelText))).isSome = true := by
        simpa [counts, h] using hcounts
      obtain ⟨value, hvalue⟩ := Option.isSome_iff_exists.mp hsays
      simp [hread.1 h, hvalue, h]
    · rw [List.find?_cons_of_neg hcounts] at h
      simp only [counts, Bool.or_eq_true, Bool.not_eq_true', decide_eq_false_iff_not, not_or,
        not_not, Bool.not_eq_true, Option.isSome_eq_false_iff, Option.isNone_iff_eq_none] at hcounts
      simp only [hread.1 hcounts.1, hcounts.2, Option.map_none]
      exact ih hread.2 h

theorem firstOf_of_decided (hp : p <+: m.bytes) {f : Text → Option Text} (hf : f [] = none)
    (h : m.Decided f p.length) (found : Text) : firstOf f (m.reads p) ≠ some (found, false) := by
  refine firstOf_whole (fun s hs hsound => readName_sound hp hs hsound) ?_
  unfold Decided at h
  split
  · next s hfind =>
    rw [hfind] at h
    exact h
  · next hfind =>
    rw [hfind] at h
    intro hfirst
    obtain ⟨text, hmem, hfound⟩ := mem_of_firstOf hfirst
    obtain ⟨t, ht, heq⟩ := List.mem_map.mp hmem
    cases heq
    rw [strays_of_clear h text ht, hf] at hfound
    cases hfound

theorem stands_of_decided (hp : p <+: m.bytes) (hservice : m.Decided serviceOf p.length)
    (hhost : m.Decided hostOf p.length) : m.Stands p :=
  fun _ => ⟨fun subtype hfirst =>
      absurd hfirst (firstOf_of_decided hp serviceOf_nil hservice subtype),
    fun host hfirst => absurd hfirst (firstOf_of_decided hp hostOf_nil hhost host)⟩

/-- Where the service and the host are decided before the cut, a hint from a beginning of a message
says nothing that the message does not; and so does the hint that the server makes of a message an
agent has relayed. -/
theorem truncated_hint_backed (m : MdnsMessage)
    (parsers : Text → Option (Bytes → Text → Option PassiveHint)) (isLocal : Text → Bool)
    {b64encode : Bytes → Text} {b64decode : Text → Option Bytes}
    (hb64 : ∀ data, b64decode (b64encode data) = some data)
    (hmdns : parsers "mdns".toList = some parseMdns) :
    (∀ p, p <+: m.bytes → m.Decided serviceOf p.length → m.Decided hostOf p.length →
      ∀ srcIp, m.Backs (parseMdns p srcIp)) ∧
    (m.Decided serviceOf (relayed m.bytes).length → m.Decided hostOf (relayed m.bytes).length →
      ∀ ip, isLocal ip = true → m.Backs (parseRelayedHint parsers isLocal b64decode
        (captureRecord b64encode "mdns".toList ip m.bytes))) := by
  constructor
  · intro p hp hservice hhost srcIp
    exact (backs_iff_stands hp srcIp).mpr (stands_of_decided hp hservice hhost)
  · intro hservice hhost ip hip
    have hp : relayed m.bytes <+: m.bytes := List.take_prefix _ _
    rw [parseRelayedHint_capture hb64 hmdns hip]
    exact (backs_iff_stands hp ip).mpr (stands_of_decided hp hservice hhost)

end MdnsMessage

/-! ### A message that an agent cuts -/

def octetsOf (t : Text) : Bytes := t.map fun c => UInt8.ofNat c.toNat

/-- Type TXT, class IN and a time to live of two minutes, before the length of the rdata. -/
def txtFields : Bytes := [0, 16, 0, 1, 0, 0, 0, 120]

/-- A TXT record of `nas.local`, and behind it one of `_smbdirect._tcp.local`. -/
def nasBytes : Bytes :=
  [0, 0, 0x84, 0, 0, 0, 0, 2, 0, 0, 0, 0] ++
    (3 :: octetsOf ['n', 'a', 's'] ++ (5 :: octetsOf ['l', 'o', 'c', 'a', 'l'] ++ [0])) ++
    (txtFields ++ [2, 218] ++ List.replicate 730 0) ++
    (10 :: octetsOf ['_', 's', 'm', 'b', 'd', 'i', 'r', 'e', 'c', 't'] ++
      (4 :: octetsOf ['_', 't', 'c', 'p'] ++ (5 :: octetsOf ['l', 'o', 'c', 'a', 'l'] ++ [0]))) ++
    (txtFields ++ [0, 0])

def localLabel : Label := octetsOf ['l', 'o', 'c', 'a', 'l']

def nasName : NameSpan := ⟨12, [octetsOf ['n', 'a', 's'], localLabel], 23, 0⟩

def smbName : NameSpan :=
  ⟨763, [octetsOf ['_', 's', 'm', 'b', 'd', 'i', 'r', 'e', 'c', 't'],
    octetsOf ['_', 't', 'c', 'p'], localLabel], 786, 0⟩

theorem nasName_in : nasName.In nasBytes := by
  have hnas : nasBytes[12]? = some 3 := by decide +kernel
  have hlocal : nasBytes[16]? = some 5 := by decide +kernel
  have hroot : nasBytes[22]? = some 0 := by decide +kernel
  have hlast : NameAt nasBytes 16 [localLabel] 23 0 :=
    .label_of hlocal (by decide) (by decide) (by decide +kernel) (by decide) (.root hroot)
  exact .label_of hnas (by decide) (by decide) (by decide +kernel) (by decide) hlast

theorem smbName_in : smbName.In nasBytes := by
  have hsmb : nasBytes[763]? = some 10 := by decide +kernel
  have htcp : nasBytes[774]? = some 4 := by decide +kernel
  have hlocal : nasBytes[779]? = some 5 := by decide +kernel
  have hroot : nasBytes[785]? = some 0 := by decide +kernel
  have hlast : NameAt nasBytes 779 [localLabel] 786 0 :=
    .label_of hlocal (by decide) (by decide) (by decide +kernel) (by decide) (.root hroot)
  have hrest : NameAt nasBytes 774 [octetsOf ['_', 't', 'c', 'p'], localLabel] 786 0 :=
    .label_of htcp (by decide) (by decide) (by decide +kernel) (by decide) hlast
  exact .label_of hsmb (by decide) (by decide) (by decide +kernel) (by decide) hrest

/-- A TXT record. -/
def txtRecord (s : NameSpan) : MdnsRecord := ⟨s, 16, []⟩

def nasRecords : List MdnsRecord := [txtRecord nasName, txtRecord smbName]

theorem rdataNames_txt (s : NameSpan) (start rdlen : Nat) :
    RdataNames nasBytes (txtRecord s) start rdlen := by
  have hnone : targetOffset 16 = none := by decide
  refine ⟨fun s hs => absurd hs List.not_mem_nil, fun k hk => ?_⟩
  cases hnone.symm.trans hk

theorem nasRecords_at : RecordsAt nasBytes 12 nasRecords 796 := by
  have hnil : RecordsAt nasBytes ((txtRecord smbName).owner.stop + 10 +
      u16 nasBytes ((txtRecord smbName).owner.stop + 8)) [] 796 := by
    have hstop : (txtRecord smbName).owner.stop + 10 +
        u16 nasBytes ((txtRecord smbName).owner.stop + 8) = 796 := by decide +kernel
    rw [hstop]
    exact .nil 796
  have hsmb : RecordsAt nasBytes ((txtRecord nasName).owner.stop + 10 +
      u16 nasBytes ((txtRecord nasName).owner.stop + 8)) [txtRecord smbName] 796 := by
    have hstart : (txtRecord nasName).owner.stop + 10 +
        u16 nasBytes ((txtRecord nasName).owner.stop + 8) = (txtRecord smbName).owner.start := by
      decide +kernel
    rw [hstart]
    exact .cons smbName_in (by decide +kernel) (rdataNames_txt _ _ _) hnil
  exact .cons nasName_in (by decide +kernel) (rdataNames_txt _ _ _) hsmb

theorem nasCounts : 0 = questionCount nasBytes ∧ nasRecords.length = recordCount nasBytes ∧
    796 ≤ nasBytes.length := by decide +kernel

def nasMessage : MdnsMessage where
  bytes := nasBytes
  questions := []
  records := nasRecords
  middle := 12
  stop := 796
  question_count := nasCounts.1
  record_count := nasCounts.2.1
  questions_at := .nil 12
  records_at := nasRecords_at
  stop_le := nasCounts.2.2

/-- Cut between its records, the message gives no hint that it does not back. -/
theorem truncated_hint_backed_between :
    nasMessage.Backs (parseMdns (nasMessage.bytes.take 763) "10.0.0.9".toList) := by
  have hlength : (nasMessage.bytes.take 763).length = 763 := by decide +kernel
  have h := MdnsMessage.truncated_hint_backed nasMessage
    (fun source => if source = "mdns".toList then some parseMdns else none)
    (fun ip => "10.".toList.isPrefixOf ip) Base64.decode_encode rfl
  refine h.1 _ (List.take_prefix 763 nasMessage.bytes) ?_ ?_ _
  · rw [hlength]
    decide +kernel
  · rw [hlength]
    decide +kernel

/-- An agent cuts it behind the fourth character of `_smbdirect`, and the server takes the sender
for a workstation. -/
theorem relayed_hint_not_backed :
    relayed nasMessage.bytes <+: nasMessage.bytes ∧
    ¬ nasMessage.Backs (parseMdns (relayed nasMessage.bytes) "10.0.0.9".toList) := by
  have hhint : parseMdns (relayed nasMessage.bytes) "10.0.0.9".toList =
      some ⟨"10.0.0.9".toList, "mdns".toList, some "nas".toList, some "workstation".toList,
        none⟩ := by
    decide +kernel
  have hnames : ¬ nasMessage.Assigns "workstation".toList := by
    rw [MdnsMessage.Assigns]
    decide +kernel
  exact ⟨List.take_prefix _ _, fun h => hnames ((h _ hhint).1 _ rfl)⟩

end Srp.Netdisco
