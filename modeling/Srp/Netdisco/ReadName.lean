/-
  Srp/Netdisco/ReadName.lean
  ==========================
  **What `_read_name` makes of the octets at an offset.**

  A name of the grammar is read to its end and the next field begins behind its
  own octets, wherever its pointers lead (`readName_laidOut`).  On any octets the
  loop is left: a turn takes one of 32 pointers, or goes forward.
-/
import Srp.Lib.Loop
import Srp.Netdisco.Passive

namespace Srp.Netdisco

open Srp.Lib Srp.Lib.Lines Srp.Lib.Octets Srp.Lib.PyDecode Srp.Lib.DnsName

/-! ### The loop, turn by turn -/

/-- The variables of the loop. -/
structure ReadState where
  cur : Nat
  hops : Nat := 0
  jumped : Bool := false
  nextOff : Nat
  labels : List Text := []
deriving DecidableEq, Repr

/-- A turn of `while hops < 32 and 0 <= cur < len(data)`, or what the loop is left with. -/
def readTurn (data : Bytes) (s : ReadState) : ReadState ⊕ (List Text × Nat) :=
  if s.hops < 32 then
    match data[s.cur]? with
    | none => .inr (s.labels, s.nextOff)
    | some length =>
      if length = 0 then .inr (s.labels, if s.jumped then s.nextOff else s.cur + 1)
      else if length &&& 0xC0 = 0xC0 then
        match data[s.cur + 1]? with
        | none => .inr (s.labels, s.nextOff)
        | some low =>
          .inl { s with cur := pointerOf length low, hops := s.hops + 1, jumped := true,
                        nextOff := if s.jumped then s.nextOff else s.cur + 2 }
      else
        .inl { s with cur := s.cur + 1 + length.toNat,
                      labels := s.labels ++
                        [decodeAscii (slice data (s.cur + 1) length.toNat)] }
  else .inr (s.labels, s.nextOff)

def ReadState.start (off : Nat) : ReadState := { cur := off, nextOff := off }

section Loop

variable {data : Bytes}

/-- A turn that does not leave the loop follows a pointer or passes a label. -/
theorem readTurn_turnsLeft (s s' : ReadState) (h : readTurn data s = .inl s') :
    turnsLeft data s'.cur s'.hops < turnsLeft data s.cur s.hops := by
  unfold readTurn at h
  by_cases hhops : s.hops < 32
  · rw [if_pos hhops] at h
    cases hlength : data[s.cur]? with
    | none => rw [hlength] at h; cases h
    | some length =>
      simp only [hlength] at h
      by_cases hroot : length = 0
      · rw [if_pos hroot] at h; cases h
      rw [if_neg hroot] at h
      by_cases hjump : length &&& 0xC0 = 0xC0
      · rw [if_pos hjump] at h
        cases hlow : data[s.cur + 1]? with
        | none => rw [hlow] at h; cases h
        | some low =>
          simp only [hlow] at h
          obtain rfl := Sum.inl.inj h
          exact turns_jump hhops _ (Nat.lt_succ_self _)
      · rw [if_neg hjump] at h
        obtain rfl := Sum.inl.inj h
        exact turns_label hlength (Nat.lt_succ_self _)
  · rw [if_neg hhops] at h
    cases h

theorem readNameLoop_turn (fuel : Nat) (s : ReadState) :
    readNameLoop data (fuel + 1) s.cur s.hops s.jumped s.nextOff s.labels =
      (readTurn data s).elim
        (fun s' => readNameLoop data fuel s'.cur s'.hops s'.jumped s'.nextOff s'.labels) id := by
  rw [readNameLoop, readTurn]
  by_cases hhops : s.hops < 32
  · rw [if_pos hhops, if_pos hhops]
    cases data[s.cur]? with
    | none => rfl
    | some length =>
      by_cases hroot : length = 0
      · simp only [if_pos hroot, Sum.elim_inr, id]
      by_cases hjump : length &&& 0xC0 = 0xC0
      · simp only [if_neg hroot, if_pos hjump]
        cases data[s.cur + 1]? with
        | none => rfl
        | some low => rfl
      · simp only [if_neg hroot, if_neg hjump, Sum.elim_inl]
  · rw [if_neg hhops, if_neg hhops]
    rfl

/-- As many turns as it takes give what the loop is left with. -/
theorem readNameLoop_of_ends {s : ReadState} {n : Nat} {r : List Text × Nat}
    (h : Loop.Ends (readTurn data) s n r) {fuel : Nat} (hfuel : n ≤ fuel) :
    readNameLoop data fuel s.cur s.hops s.jumped s.nextOff s.labels = r := by
  induction h generalizing fuel with
  | leave h =>
    obtain ⟨fuel, rfl⟩ : ∃ k, fuel = k + 1 := ⟨fuel - 1, by omega⟩
    rw [readNameLoop_turn, h]
    rfl
  | next h rest ih =>
    obtain ⟨fuel, rfl⟩ : ∃ k, fuel = k + 1 := ⟨fuel - 1, by omega⟩
    rw [readNameLoop_turn, h]
    exact ih (Nat.le_of_succ_le_succ hfuel)

/-- The loop is left, whatever the octets are. -/
theorem readTurn_ends (off : Nat) : ∃ turns r, turns ≤ 33 * (data.length + 1) ∧
    Loop.Ends (readTurn data) (.start off) turns r := by
  obtain ⟨turns, r, hturns, hends⟩ := Loop.ends_of_measure
    (fun s : ReadState => turnsLeft data s.cur s.hops) readTurn_turnsLeft (.start off)
  have hleft : turnsLeft data (ReadState.start off).cur (ReadState.start off).hops + 1 ≤
      33 * (data.length + 1) := by
    simp only [ReadState.start, turnsLeft]
    omega
  exact ⟨turns, r, hturns.trans hleft, hends⟩

theorem readName_of_ends {off turns : Nat} {labels : List Text} {next : Nat}
    (hturns : turns ≤ 33 * (data.length + 1))
    (h : Loop.Ends (readTurn data) (.start off) turns (labels, next)) :
    readName data off = (dotted labels, next) := by
  have hloop := readNameLoop_of_ends h hturns
  simp only [ReadState.start] at hloop
  rw [readName, hloop]

/-! ### Names of the grammar -/

/-- The loop on a name: the labels that it reads are the first ones, and all of them unless there
are too many pointers. -/
theorem readNameLoop_laidOut {off stop jumps : Nat} {labels : List Label}
    (h : LaidOut data off labels stop jumps) {fuel hops : Nat} {jumped : Bool}
    (hfuel : turnsLeft data off hops < fuel) (hhops : hops < 32 ∨ jumped = true) (nextOff : Nat)
    (read : List Text) :
    ∃ k, readNameLoop data fuel off hops jumped nextOff read =
        (read ++ (labels.take k).map decodeAscii, if jumped then nextOff else stop) ∧
      (hops + jumps < 32 → labels.take k = labels) := by
  induction h generalizing fuel hops jumped nextOff read with
  | root h =>
    obtain ⟨fuel, rfl⟩ : ∃ n, fuel = n + 1 := ⟨fuel - 1, by omega⟩
    refine ⟨0, ?_, fun _ => rfl⟩
    by_cases hlt : hops < 32
    · simp [readNameLoop, hlt, h]
    · simp [readNameLoop, hlt, hhops.resolve_left hlt]
  | @label off stop jumps len labels h hlen htop rest ih =>
    obtain ⟨fuel, rfl⟩ : ∃ n, fuel = n + 1 := ⟨fuel - 1, by omega⟩
    by_cases hlt : hops < 32
    · have hjump : ¬ len &&& 0xC0 = 0xC0 := by
        rw [htop]
        decide
      obtain ⟨k, hloop, hall⟩ := ih (turns_label h hfuel) hhops nextOff
        (read ++ [decodeAscii (slice data (off + 1) len.toNat)])
      refine ⟨k + 1, ?_, fun hjumps => by rw [List.take_succ_cons, hall hjumps]⟩
      simp only [readNameLoop, if_pos hlt, h, if_neg hlen, if_neg hjump]
      refine hloop.trans ?_
      rw [List.take_succ_cons, List.map_cons, List.append_assoc, List.singleton_append]
    · refine ⟨0, ?_, fun hjumps => absurd hjumps (by omega)⟩
      simp [readNameLoop, hlt, hhops.resolve_left hlt]
  | @jump off stop jumps high low labels hhigh htop hlow target ih =>
    obtain ⟨fuel, rfl⟩ : ∃ n, fuel = n + 1 := ⟨fuel - 1, by omega⟩
    by_cases hlt : hops < 32
    · have hroot : ¬ high = 0 := by
        rintro rfl
        exact absurd htop (by decide)
      obtain ⟨k, hloop, hall⟩ := ih (turns_jump hlt _ hfuel) (Or.inr rfl)
        (if jumped then nextOff else off + 2) read
      refine ⟨k, ?_, fun hjumps => hall (by omega)⟩
      simp only [readNameLoop, if_pos hlt, hhigh, if_neg hroot, if_pos htop, hlow]
      exact hloop
    · refine ⟨0, ?_, fun hjumps => absurd hjumps (by omega)⟩
      simp [readNameLoop, hlt, hhops.resolve_left hlt]

/-- A name is read up to its stop; all of its labels are, unless there are too many pointers. -/
theorem readName_laidOut {off stop jumps : Nat} {labels : List Label}
    (h : LaidOut data off labels stop jumps) :
    (readName data off).2 = stop ∧
      (jumps < 32 → (readName data off).1 = dotted (labels.map decodeAscii)) := by
  have hfuel : turnsLeft data off 0 < 33 * (data.length + 1) := by
    rw [turnsLeft]
    omega
  have hstart : 0 < 32 ∨ false = true := Or.inl (by decide)
  obtain ⟨k, hloop, hall⟩ := readNameLoop_laidOut h hfuel hstart off []
  refine ⟨by simp [readName, hloop], fun hjumps => ?_⟩
  rw [hall (by omega)] at hloop
  simp [readName, hloop]

end Loop

/-- A label of ASCII octets, none of them a dot. -/
def PlainLabel (l : Label) : Prop := ∀ b ∈ l, b.toNat < 0x80 ∧ b.toNat ≠ 0x2E

instance (l : Label) : Decidable (PlainLabel l) := List.decidableBAll _ l

/-- ASCII octets as text. -/
def spelled (l : Label) : Text := l.map fun b => Char.ofNat b.toNat

theorem decodeAscii_plain {l : Label} (h : PlainLabel l) : decodeAscii l = spelled l := by
  refine List.map_congr_left fun b hb => ?_
  rw [asciiChar, if_pos (h b hb).1]

theorem dot_not_mem_spelled {l : Label} (h : PlainLabel l) : '.' ∉ spelled l := by
  intro hdot
  obtain ⟨b, hb, hchar⟩ := List.mem_map.mp hdot
  have hall : ∀ n < 0x80, Char.ofNat n = '.' → n = 0x2E := by decide
  exact (h b hb).2 (hall b.toNat (h b hb).1 hchar)

/-- A name of plain labels whose pointers lead anywhere is decoded to its dotted form, which has
these labels and no others; and on any octets the loop is left. -/
theorem readName_decodes (data : Bytes) :
    (∀ off labels stop jumps, LaidOut data off labels stop jumps →
      (∀ l ∈ labels, PlainLabel l) → jumps ≤ 31 →
      readName data off = (dotted (labels.map spelled), stop) ∧
      (labels ≠ [] → (dotted (labels.map spelled)).splitOn '.' = labels.map spelled)) ∧
    ∀ off, ∃ turns labels next, turns ≤ 33 * (data.length + 1) ∧
      Loop.Ends (readTurn data) (.start off) turns (labels, next) ∧
      readName data off = (dotted labels, next) := by
  constructor
  · intro off labels stop jumps h hplain hjumps
    have hread := readName_laidOut h
    have htexts : labels.map decodeAscii = labels.map spelled :=
      List.map_congr_left fun l hl => decodeAscii_plain (hplain l hl)
    refine ⟨Prod.ext ?_ hread.1, fun hne => ?_⟩
    · rw [hread.2 (by omega), htexts]
    · refine List.splitOn_intercalate '.' ?_ (by simpa using hne)
      intro t ht
      obtain ⟨l, hl, rfl⟩ := List.mem_map.mp ht
      exact dot_not_mem_spelled (hplain l hl)
  · intro off
    obtain ⟨turns, ⟨labels, next⟩, hturns, hends⟩ := @readTurn_ends data off
    exact ⟨turns, labels, next, hturns, hends, readName_of_ends hturns hends⟩

/-- The name `ab.c`, whose pointer leads forward, and behind it a pointer to itself. -/
private def forwardName : Bytes :=
  [2, 97, 98, 0xC0, 7, 0xC0, 5, 1, 99, 0]

private theorem forwardName_laidOut :
    LaidOut forwardName 0 [[97, 98], [99]] 5 1 :=
  .label rfl (show (2 : UInt8) ≠ 0 by decide) rfl
    (.jump rfl rfl rfl (.label rfl (show (1 : UInt8) ≠ 0 by decide) rfl (.root rfl)))

theorem readName_decodes_forward :
    readName forwardName 0 = ("ab.c".toList, 5) ∧ "ab.c".toList.splitOn '.' = [['a', 'b'], ['c']] ∧
      ∃ turns labels next, turns ≤ 33 * (forwardName.length + 1) ∧
        Loop.Ends (readTurn forwardName) (.start 5) turns (labels, next) ∧
        readName forwardName 5 = (dotted labels, next) := by
  obtain ⟨hread, hlabels⟩ := (readName_decodes forwardName).1 0 _ 5 1 forwardName_laidOut
    (by decide) (by decide)
  exact ⟨hread, hlabels (by decide), (readName_decodes forwardName).2 5⟩

end Srp.Netdisco
