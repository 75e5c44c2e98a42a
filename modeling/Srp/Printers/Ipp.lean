/-
  Srp/Printers/Ipp.lean
  =====================
  **The IPP response parsers** (`server/printers/ipp.py`).

  `parse_attributes` and `parse_job_groups` walk the same stream: group tags
  stand alone, everything else is a tag, a name and a value, the two with a
  length in front of them.  A position is the list of the octets from there on,
  and `walk` is the loop that both share.  A dictionary is its lookup.
-/
import Srp.Lib.PyDecode
import Mathlib.Logic.Function.Basic

namespace Srp.Printers.Ipp

open Srp.Lib Srp.Lib.Lines Srp.Lib.Octets Srp.Lib.PyDecode

/-! ### Tags -/

/-- `_JOB_ATTRS_TAG`. -/
def jobAttrsTag : UInt8 := 0x02

/-- `_END_TAG`. -/
def endTag : UInt8 := 0x03

/-- `_INT_TAGS`. -/
def intTags : List UInt8 := [0x21, 0x23]

/-- `_TEXT_TAGS`. -/
def textTags : List UInt8 := [0x41, 0x42, 0x44, 0x45, 0x47, 0x48, 0x49]

/-- `_GROUP_TAGS`. -/
def groupTags : List UInt8 := [0x00, 0x01, 0x02, 0x04, 0x05]

/-- `_MAX_JOB_GROUPS`. -/
def maxJobGroups : Nat := 200

/-! ### One attribute -/

inductive IppValue where
  | int (n : Int)
  | str (t : Text)
deriving DecidableEq, Repr

/-- `struct.unpack_from(">H", data, pos)`, with the octets behind it. -/
def unpackH : Bytes → Option (Nat × Bytes)
  | a :: b :: rest => some (ofOctets [a, b], rest)
  | _ => none

/-- Name, value and the octets behind them; a slice past the end is a shorter slice. -/
def readAttribute (data : Bytes) : Option (Bytes × Bytes × Bytes) := do
  let (nameLen, data) ← unpackH data
  let (valLen, rest) ← unpackH (data.drop nameLen)
  return (data.take nameLen, rest.take valLen, rest.drop valLen)

/-- What is stored under the key, if anything is. -/
def valueOf (tag : UInt8) (raw : Bytes) : Option IppValue :=
  if tag ∈ intTags ∧ raw.length = 4 then some (.int (ofOctetsSigned raw))
  else if tag ∈ textTags then some (.str (decodeUtf8 raw))
  else none

abbrev Attributes := Text → Option IppValue

def noAttributes : Attributes := fun _ => none

/-- `out[key] = ...`, where there is something to store. -/
def store (key : Text) (value : Option IppValue) (out : Attributes) : Attributes :=
  match value with
  | some v => Function.update out key (some v)
  | none => out

/-! ### The loop -/

/-- What a parser does with a group tag, where `none` is `break`, and with an attribute. -/
structure Visitor (σ : Type) where
  onGroup : UInt8 → σ → Option σ
  onAttribute : Text → Option IppValue → σ → σ

/-- `while pos < n`; an exception ends it as the end of the data does. -/
def walk {σ : Type} (visitor : Visitor σ) : Nat → Bytes → Text → σ → σ
  | 0, _, _, s => s
  | _ + 1, [], _, s => s
  | fuel + 1, tag :: data, lastName, s =>
    if tag = endTag then s
    else if tag ∈ groupTags then
      match visitor.onGroup tag s with
      | none => s
      | some s => walk visitor fuel data lastName s
    else match readAttribute data with
      | none => s
      | some (name, raw, rest) =>
        let name := decodeAscii name
        let key := if name = [] then lastName else name
        let lastName := if name = [] then lastName else name
        walk visitor fuel rest lastName (visitor.onAttribute key (valueOf tag raw) s)

/-- The loop from the first octet behind version, status code and request id. -/
def parse {σ : Type} (visitor : Visitor σ) (data : Bytes) (s : σ) : σ :=
  walk visitor data.length (data.drop 8) [] s

/-! ### `parse_attributes` -/

def attributesVisitor : Visitor Attributes where
  onGroup _ out := some out
  onAttribute := store

/-- `parse_attributes`. -/
def parseAttributes (data : Bytes) : Attributes := parse attributesVisitor data noAttributes

/-! ### `parse_job_groups` -/

/-- The list `jobs`, whose last element is `cur` where that is not `None`. -/
structure JobState where
  closed : List Attributes
  cur : Option Attributes

def JobState.jobs (s : JobState) : List Attributes := s.closed ++ s.cur.toList

def jobsVisitor : Visitor JobState where
  onGroup tag s :=
    if tag = jobAttrsTag then
      if maxJobGroups ≤ s.jobs.length then none else some ⟨s.jobs, some noAttributes⟩
    else some ⟨s.jobs, none⟩
  onAttribute key value s := { s with cur := s.cur.map (store key value) }

/-- `parse_job_groups`. -/
def parseJobGroups (data : Bytes) : List Attributes := (parse jobsVisitor data ⟨[], none⟩).jobs

/-! ### The length of the walk -/

theorem length_lt_of_unpackH {data rest : Bytes} {n : Nat} (h : unpackH data = some (n, rest)) :
    rest.length < data.length := by
  match data, h with
  | a :: b :: rest', h =>
    simp only [unpackH, Option.some.injEq, Prod.mk.injEq] at h
    rw [← h.2, List.length_cons, List.length_cons]
    omega

theorem length_lt_of_readAttribute {data name raw rest : Bytes}
    (h : readAttribute data = some (name, raw, rest)) : rest.length < data.length := by
  simp only [readAttribute, Option.bind_eq_bind, Option.bind_eq_some_iff, Prod.exists] at h
  obtain ⟨nameLen, data', hname, valLen, rest', hval, h⟩ := h
  simp only [Option.pure_def, Option.some.injEq, Prod.mk.injEq] at h
  have hdata' := length_lt_of_unpackH hname
  have hrest' := length_lt_of_unpackH hval
  rw [List.length_drop] at hrest'
  rw [← h.2.2, List.length_drop]
  omega

/-- The walk never runs out of steps. -/
theorem walk_fuel {σ : Type} (visitor : Visitor σ) {fuel fuel' : Nat} {data : Bytes}
    (h : data.length ≤ fuel) (h' : data.length ≤ fuel') (lastName : Text) (s : σ) :
    walk visitor fuel data lastName s = walk visitor fuel' data lastName s := by
  induction fuel generalizing fuel' data lastName s with
  | zero =>
    rw [Nat.le_zero, List.length_eq_zero_iff] at h
    subst h
    cases fuel' <;> rfl
  | succ fuel ih =>
    match data, fuel', h, h' with
    | [], 0, _, _ => rfl
    | [], _ + 1, _, _ => rfl
    | tag :: data, fuel' + 1, h, h' =>
      rw [List.length_cons, Nat.succ_le_succ_iff] at h h'
      simp only [walk]
      by_cases hend : tag = endTag
      · rw [if_pos hend, if_pos hend]
      · rw [if_neg hend, if_neg hend]
        by_cases hgroup : tag ∈ groupTags
        · rw [if_pos hgroup, if_pos hgroup]
          cases visitor.onGroup tag s with
          | none => rfl
          | some s' => exact ih h h' lastName s'
        · rw [if_neg hgroup, if_neg hgroup]
          cases hread : readAttribute data with
          | none => rfl
          | some read =>
            obtain ⟨name, raw, rest⟩ := read
            have hrest := length_lt_of_readAttribute hread
            exact ih (by omega) (by omega) _ _

end Srp.Printers.Ipp
