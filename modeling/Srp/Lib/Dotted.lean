/-
  Srp/Lib/Dotted.lean
  ===================
  **Lists of numbers as dotted texts** (`".".join(str(n) for n in ns)`).

  The text of a list is split at its dots into the texts of the numbers, so
  different lists have different texts, and a list begins another one exactly
  where its text with a dot behind it begins the other text.
-/
import Mathlib.Data.List.Basic
import Mathlib.Data.List.Infix

namespace Srp.Lib

def dotted (ns : List Nat) : List Char := ['.'].intercalate (ns.map (Nat.toDigits 10))

theorem dot_not_mem_toDigits (n : Nat) : '.' ∉ Nat.toDigits 10 n := by
  intro h
  have hdigit := Nat.isDigit_of_mem_toDigits (by decide) (by decide) h
  exact absurd hdigit (by decide)

theorem toDigits_injective : Function.Injective (Nat.toDigits 10) := by
  intro n m h
  have hn := @Nat.ofDigitChars_ten_toDigits n
  rw [h, Nat.ofDigitChars_ten_toDigits] at hn
  exact hn.symm

theorem splitOn_dotted {ns : List Nat} (h : ns ≠ []) :
    (dotted ns).splitOn '.' = ns.map (Nat.toDigits 10) := by
  apply List.splitOn_intercalate
  · intro t ht
    obtain ⟨n, _, rfl⟩ := List.mem_map.mp ht
    exact dot_not_mem_toDigits n
  · simpa using h

theorem dotted_inj {ns ms : List Nat} (hns : ns ≠ []) (hms : ms ≠ [])
    (h : dotted ns = dotted ms) : ns = ms := by
  have hsplit := splitOn_dotted hns
  rw [h, splitOn_dotted hms] at hsplit
  exact (List.map_injective_iff.mpr toDigits_injective hsplit).symm

theorem dotted_cons {ns : List Nat} (h : ns ≠ []) (n : Nat) :
    dotted (n :: ns) = Nat.toDigits 10 n ++ '.' :: dotted ns := by
  unfold dotted
  rw [List.map_cons, List.intercalate_cons_of_ne_nil (by simpa using h)]
  simp

theorem dotted_ne_nil {ns : List Nat} (h : ns ≠ []) : dotted ns ≠ [] := by
  cases ns with
  | nil => exact absurd rfl h
  | cons n ns =>
    cases ns with
    | nil =>
      unfold dotted
      rw [List.map_singleton, List.intercalate_singleton]
      exact Nat.toDigits_ne_nil
    | cons m ns =>
      rw [dotted_cons (by simp)]
      simp

theorem dotted_append {ns ms : List Nat} (hns : ns ≠ []) (hms : ms ≠ []) :
    dotted (ns ++ ms) = dotted ns ++ '.' :: dotted ms := by
  induction ns with
  | nil => exact absurd rfl hns
  | cons n ns ih =>
    cases ns with
    | nil =>
      have hone : dotted [n] = Nat.toDigits 10 n := by
        unfold dotted
        rw [List.map_singleton, List.intercalate_singleton]
      rw [List.singleton_append, dotted_cons hms, hone]
    | cons m ns =>
      rw [List.cons_append, dotted_cons (by simp), ih (by simp),
        dotted_cons (List.cons_ne_nil m ns), List.append_assoc, List.cons_append]

/-- The text of a list and a dot begin the text of the longer lists that the list begins. -/
theorem dotted_prefix_iff {base ns : List Nat} (hbase : base ≠ []) (hns : ns ≠ []) :
    dotted base ++ ['.'] <+: dotted ns ↔ base <+: ns ∧ base ≠ ns := by
  constructor
  · rintro ⟨rest, hrest⟩
    rw [List.append_assoc, List.singleton_append] at hrest
    have hsplit := splitOn_dotted hns
    rw [← hrest, List.splitOn_append_cons_self, splitOn_dotted hbase] at hsplit
    have hprefix : base.map (Nat.toDigits 10) <+: ns.map (Nat.toDigits 10) :=
      ⟨_, hsplit⟩
    obtain ⟨tail, htail⟩ := hprefix
    have hlen := congrArg List.length hsplit
    have hpos := List.length_pos_of_ne_nil (List.splitOn_ne_nil '.' rest)
    simp only [List.length_append, List.length_map] at hlen
    have htake : ns.take base.length = base := by
      apply List.map_injective_iff.mpr toDigits_injective
      rw [List.map_take, ← htail, List.take_left' (by simp)]
    constructor
    · rw [← htake]
      exact List.take_prefix _ _
    · rintro rfl
      omega
  · rintro ⟨⟨tail, rfl⟩, hne⟩
    have htail : tail ≠ [] := by
      rintro rfl
      simp at hne
    rw [dotted_append hbase htail]
    exact ⟨dotted tail, by simp⟩

end Srp.Lib
