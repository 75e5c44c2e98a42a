/-
  Srp/Lib/DnsName.lean
  ====================
  **Domain names in a DNS message.**

  A name is a run of labels, each behind its length, that ends with the root or
  with a pointer to an earlier name of the message.  `NameAt` is that grammar: it
  holds of the labels, of where the octets of the name itself stop and of the
  number of pointers on the way.  A message that breaks off behind a name has the
  same name there (`NameAt.of_cut`).  `LaidOut` is the grammar of a reader that
  follows a pointer wherever it leads.
-/
import Srp.Lib.Octets

namespace Srp.Lib.DnsName

open Srp.Lib.Octets

abbrev Label := Bytes

/-- The offset that a pointer holds in its lower fourteen bits. -/
def pointerOf (high low : UInt8) : Nat := (high &&& 0x3F).toNat <<< 8 ||| low.toNat

/-- `data[a:b]`. -/
def slice (data : Bytes) (start length : Nat) : Bytes := (data.drop start).take length

/-- The labels of the name at an offset, where its octets stop, and how many pointers lead to its
end; a pointer leads to a name that stops before it. -/
inductive NameAt (data : Bytes) : Nat → List Label → Nat → Nat → Prop where
  | root {off : Nat} (h : data[off]? = some 0) : NameAt data off [] (off + 1) 0
  | label {off stop jumps : Nat} {len : UInt8} {labels : List Label} (h : data[off]? = some len)
      (hlen : len ≠ 0) (htop : len &&& 0xC0 = 0)
      (rest : NameAt data (off + 1 + len.toNat) labels stop jumps) :
      NameAt data off (slice data (off + 1) len.toNat :: labels) stop jumps
  | jump {off stop jumps : Nat} {high low : UInt8} {labels : List Label}
      (hhigh : data[off]? = some high) (htop : high &&& 0xC0 = 0xC0)
      (hlow : data[off + 1]? = some low)
      (target : NameAt data (pointerOf high low) labels stop jumps) (hprior : stop ≤ off) :
      NameAt data off labels (off + 2) (jumps + 1)

/-- The same, but that a pointer may lead anywhere. -/
inductive LaidOut (data : Bytes) : Nat → List Label → Nat → Nat → Prop where
  | root {off : Nat} (h : data[off]? = some 0) : LaidOut data off [] (off + 1) 0
  | label {off stop jumps : Nat} {len : UInt8} {labels : List Label} (h : data[off]? = some len)
      (hlen : len ≠ 0) (htop : len &&& 0xC0 = 0)
      (rest : LaidOut data (off + 1 + len.toNat) labels stop jumps) :
      LaidOut data off (slice data (off + 1) len.toNat :: labels) stop jumps
  | jump {off stop jumps : Nat} {high low : UInt8} {labels : List Label}
      (hhigh : data[off]? = some high) (htop : high &&& 0xC0 = 0xC0)
      (hlow : data[off + 1]? = some low)
      (target : LaidOut data (pointerOf high low) labels stop jumps) :
      LaidOut data off labels (off + 2) (jumps + 1)

theorem slice_cut {p data : Bytes} (h : p <+: data) {start length : Nat}
    (hstop : start + length ≤ p.length) : slice p start length = slice data start length := by
  obtain ⟨rest, rfl⟩ := h
  rw [slice, slice, List.drop_append_of_le_length (by omega),
    List.take_append_of_le_length (by rw [List.length_drop]; omega)]

theorem getElem?_cut {p data : Bytes} (h : p <+: data) {off : Nat} (hoff : off < p.length) :
    p[off]? = data[off]? := by
  obtain ⟨rest, rfl⟩ := h
  exact (List.getElem?_append_left hoff).symm

namespace NameAt

variable {data p : Bytes} {off stop jumps : Nat} {labels : List Label}

theorem lt_stop (h : NameAt data off labels stop jumps) : off < stop := by
  induction h with
  | root => omega
  | label => omega
  | jump => omega

theorem label_of {len : UInt8} {label : Label} {next : Nat} (h : data[off]? = some len)
    (hlen : len ≠ 0) (htop : len &&& 0xC0 = 0) (hlabel : slice data (off + 1) len.toNat = label)
    (hnext : off + 1 + len.toNat = next) (rest : NameAt data next labels stop jumps) :
    NameAt data off (label :: labels) stop jumps :=
  hlabel ▸ .label h hlen htop (hnext ▸ rest)

theorem of_cut (h : NameAt data off labels stop jumps) (hp : p <+: data)
    (hstop : stop ≤ p.length) : NameAt p off labels stop jumps := by
  induction h with
  | root h => exact .root ((getElem?_cut hp (by omega)).trans h)
  | label h hlen htop rest ih =>
    have hlt := rest.lt_stop
    rw [← slice_cut hp (by omega)]
    exact .label ((getElem?_cut hp (by omega)).trans h) hlen htop (ih hstop)
  | jump hhigh htop hlow target hprior ih =>
    exact .jump ((getElem?_cut hp (by omega)).trans hhigh) htop
      ((getElem?_cut hp (by omega)).trans hlow) (ih (by omega)) hprior

theorem laidOut (h : NameAt data off labels stop jumps) : LaidOut data off labels stop jumps := by
  induction h with
  | root h => exact .root h
  | label h hlen htop rest ih => exact .label h hlen htop ih
  | jump hhigh htop hlow target hprior ih => exact .jump hhigh htop hlow ih

end NameAt

end Srp.Lib.DnsName
