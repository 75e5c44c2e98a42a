/-
  Srp/Lib/Lines.lean
  ==================
  **Lines of a text**, as Python's `str` joins and splits them.

  `"\n".join` is undone by `split("\n")` as soon as no line holds a newline.
  `splitlines` has more separators than that, among them three that are no
  control characters, and `splitlines_unlines` asks for lines without any.
-/
import Mathlib.Data.List.Basic
import Mathlib.Data.String.Basic

namespace Srp.Lib.Lines

abbrev Text := List Char

instance lawfulBEqText : LawfulBEq Text := inferInstance

/-! ### Joining -/

/-- `"\n".join(lines)`. -/
def joinLines (lines : List Text) : Text := ['\n'].intercalate lines

/-- Each line with a newline behind it. -/
def unlines (lines : List Text) : Text := lines.flatMap fun l => l ++ ['\n']

theorem joinLines_append_newline {lines : List Text} (h : lines ≠ []) :
    joinLines lines ++ ['\n'] = unlines lines := by
  induction lines with
  | nil => exact absurd rfl h
  | cons l lines ih =>
    cases lines with
    | nil => simp [joinLines, unlines]
    | cons m lines =>
      have hrest := ih (by simp)
      rw [unlines, List.flatMap_cons, ← unlines, ← hrest]
      simp [joinLines, List.intercalate]

/-! ### Splitting -/

/-- The line boundaries of `str.splitlines`. -/
def isLineBreak (c : Char) : Bool :=
  decide (10 ≤ c.toNat ∧ c.toNat ≤ 13) || decide (28 ≤ c.toNat ∧ c.toNat ≤ 30) ||
    c.toNat == 0x85 || c.toNat == 0x2028 || c.toNat == 0x2029

/-- `str.splitlines()`. -/
def splitlines : Text → List Text
  | [] => []
  | '\r' :: '\n' :: t => [] :: splitlines t
  | c :: t =>
    if isLineBreak c then [] :: splitlines t
    else match splitlines t with
      | [] => [[c]]
      | l :: ls => (c :: l) :: ls

/-- No line boundary in the text. -/
def OneLine (t : Text) : Prop := ∀ c ∈ t, isLineBreak c = false

instance (t : Text) : Decidable (OneLine t) :=
  List.decidableBAll (fun c => isLineBreak c = false) t

theorem splitlines_cons_of_break {c : Char} (hc : isLineBreak c = true) {t : Text}
    (hpair : c = '\r' → t.head? ≠ some '\n') : splitlines (c :: t) = [] :: splitlines t := by
  rw [splitlines.eq_def]
  split
  · rename_i heq
    cases heq
  · rename_i heq
    obtain ⟨rfl, rfl⟩ := List.cons.inj heq
    exact absurd rfl (hpair rfl)
  · rename_i heq
    obtain ⟨rfl, rfl⟩ := List.cons.inj heq
    rw [if_pos hc]

theorem splitlines_cons_of_not_break {c : Char} (hc : isLineBreak c = false) (t : Text) :
    splitlines (c :: t) = match splitlines t with
      | [] => [[c]]
      | l :: ls => (c :: l) :: ls := by
  rw [splitlines.eq_def]
  split
  · rename_i heq
    cases heq
  · rename_i heq
    rw [(List.cons.inj heq).1] at hc
    exact absurd hc (by decide)
  · rename_i heq
    obtain ⟨rfl, rfl⟩ := List.cons.inj heq
    rw [hc]
    rfl

/-- A line ends at its first boundary. -/
theorem splitlines_append_break {l : Text} (hl : OneLine l) {c : Char}
    (hc : isLineBreak c = true) (hr : c ≠ '\r') (t : Text) :
    splitlines (l ++ c :: t) = l :: splitlines t := by
  induction l with
  | nil => exact splitlines_cons_of_break hc fun h => absurd h hr
  | cons d l ih =>
    have hrest := ih fun e he => hl e (List.mem_cons_of_mem d he)
    rw [List.cons_append, splitlines_cons_of_not_break (hl d List.mem_cons_self), hrest]

/-- Lines without a boundary are read back. -/
theorem splitlines_unlines {lines : List Text} (h : ∀ l ∈ lines, OneLine l) :
    splitlines (unlines lines) = lines := by
  induction lines with
  | nil => rfl
  | cons l lines ih =>
    rw [unlines, List.flatMap_cons, List.append_assoc, List.singleton_append,
      splitlines_append_break (h l List.mem_cons_self) (by decide) (by decide), ← unlines,
      ih fun m hm => h m (List.mem_cons_of_mem l hm)]

theorem splitlines_ne_nil {t : Text} (h : t ≠ []) : splitlines t ≠ [] := by
  fun_cases splitlines t with
  | case1 => exact absurd rfl h
  | case2 => simp
  | case3 => simp
  | case4 => simp
  | case5 => simp

/-- A character that ends no line only lengthens the first one. -/
theorem splitlines_cons_append {c : Char} (hc : isLineBreak c = false) {s t : Text} {ls : List Text}
    (hs : s ≠ []) (h : splitlines t = splitlines s ++ ls) :
    splitlines (c :: t) = splitlines (c :: s) ++ ls := by
  obtain ⟨m, ms, hm⟩ := List.exists_cons_of_ne_nil (splitlines_ne_nil hs)
  rw [splitlines_cons_of_not_break hc, splitlines_cons_of_not_break hc, h, hm]
  rfl

/-- What follows a newline is split on its own. -/
theorem splitlines_append_newline (s t : Text) :
    splitlines (s ++ '\n' :: t) = splitlines (s ++ ['\n']) ++ splitlines t := by
  fun_induction splitlines s with
  | case1 => rfl
  | case2 s ih => simp only [List.cons_append, splitlines, ih]
  | case3 c s hne hc ih =>
    cases s with
    | nil =>
      by_cases hr : c = '\r'
      · rw [hr]
        rfl
      · have hpair : ∀ u : Text, c = '\r' → u.head? ≠ some '\n' := fun u h => absurd h hr
        simp only [List.cons_append, splitlines_cons_of_break hc (hpair _)]
        exact congrArg _ ih
    | cons d s =>
      -- the newline is not the second half of a pair that `c` opens
      have hpair : ∀ u : Text, c = '\r' → (d :: u).head? ≠ some '\n' := by
        rintro u rfl hd
        rw [Option.some.inj hd] at hne
        exact hne s rfl rfl
      simp only [List.cons_append] at ih ⊢
      rw [splitlines_cons_of_break hc (hpair _), splitlines_cons_of_break hc (hpair _), ih]
      rfl
  | case4 c s hne hc hs ih =>
    apply splitlines_cons_append _ (by simp) ih
    simpa using hc
  | case5 c s hne hc l ls hs ih =>
    apply splitlines_cons_append _ (by simp) ih
    simpa using hc

theorem oneLine_of_mem_splitlines {t l : Text} (h : l ∈ splitlines t) : OneLine l := by
  fun_induction splitlines t generalizing l with
  | case1 => cases h
  | case2 t ih =>
    rcases List.mem_cons.mp h with rfl | h
    · intro c hc
      cases hc
    · exact ih h
  | case3 c t hne hc ih =>
    rcases List.mem_cons.mp h with rfl | h
    · intro d hd
      cases hd
    · exact ih h
  | case4 c t hne hc hs ih =>
    rw [List.mem_singleton.mp h]
    intro d hd
    rw [List.mem_singleton.mp hd]
    simpa using hc
  | case5 c t hne hc m ms hs ih =>
    rw [hs] at ih
    rcases List.mem_cons.mp h with rfl | h
    · intro d hd
      rcases List.mem_cons.mp hd with rfl | hd
      · simpa using hc
      · exact ih List.mem_cons_self d hd
    · exact ih (List.mem_cons_of_mem m h)

/-! ### Blank lines -/

/-- `c.isspace()`. -/
def isSpaceChar (c : Char) : Bool :=
  decide (9 ≤ c.toNat ∧ c.toNat ≤ 13) || decide (28 ≤ c.toNat ∧ c.toNat ≤ 32) ||
    decide (0x2000 ≤ c.toNat ∧ c.toNat ≤ 0x200A) ||
    c.toNat ∈ [0x85, 0xA0, 0x1680, 0x2028, 0x2029, 0x202F, 0x205F, 0x3000]

/-- `not t.strip()`. -/
def isBlank (t : Text) : Bool := t.all isSpaceChar

/-- `[ln for ln in t.splitlines() if ln.strip()]`. -/
def nonblankLines (t : Text) : List Text := (splitlines t).filter fun l => !isBlank l

/-- Empty, or ending in a newline: a text to which lines can be appended. -/
def Terminated (t : Text) : Prop := t = [] ∨ ∃ s, t = s ++ ['\n']

theorem terminated_unlines (lines : List Text) : Terminated (unlines lines) := by
  rcases List.eq_nil_or_concat lines with rfl | ⟨init, l, rfl⟩
  · exact .inl rfl
  · exact .inr ⟨unlines init ++ l, by simp [unlines]⟩

theorem nonblankLines_append {s : Text} (hs : Terminated s) (t : Text) :
    nonblankLines (s ++ t) = nonblankLines s ++ nonblankLines t := by
  rcases hs with rfl | ⟨s, rfl⟩
  · rfl
  · unfold nonblankLines
    rw [List.append_assoc, List.singleton_append, splitlines_append_newline, List.filter_append]

theorem nonblankLines_unlines {lines : List Text} (hone : ∀ l ∈ lines, OneLine l)
    (hfull : ∀ l ∈ lines, isBlank l = false) : nonblankLines (unlines lines) = lines := by
  unfold nonblankLines
  rw [splitlines_unlines hone, List.filter_eq_self]
  intro l hl
  rw [hfull l hl]
  rfl

theorem oneLine_of_mem_nonblankLines {t l : Text} (h : l ∈ nonblankLines t) : OneLine l :=
  oneLine_of_mem_splitlines (List.mem_filter.mp h).1

theorem isBlank_of_mem_nonblankLines {t l : Text} (h : l ∈ nonblankLines t) :
    isBlank l = false := by
  simpa using (List.mem_filter.mp h).2

theorem isBlank_eq_false_of_mem {t : Text} {c : Char} (hc : c ∈ t)
    (hspace : isSpaceChar c = false) : isBlank t = false := by
  unfold isBlank
  rw [List.all_eq_false]
  exact ⟨c, hc, by simpa using hspace⟩

/-- Whatever is no boundary stands in a line. -/
theorem exists_line_of_mem {t : Text} {c : Char} (hc : c ∈ t) (hbreak : isLineBreak c = false) :
    ∃ l ∈ splitlines t, c ∈ l := by
  fun_induction splitlines t with
  | case1 => cases hc
  | case2 t ih =>
    rcases List.mem_cons.mp hc with rfl | hc
    · exact absurd hbreak (by decide)
    · rcases List.mem_cons.mp hc with rfl | hc
      · exact absurd hbreak (by decide)
      · obtain ⟨l, hl, hcl⟩ := ih hc
        exact ⟨l, List.mem_cons_of_mem _ hl, hcl⟩
  | case3 d t hne hd ih =>
    rcases List.mem_cons.mp hc with rfl | hc
    · rw [hbreak] at hd
      cases hd
    · obtain ⟨l, hl, hcl⟩ := ih hc
      exact ⟨l, List.mem_cons_of_mem _ hl, hcl⟩
  | case4 d t hne hd hs ih =>
    rcases List.mem_cons.mp hc with rfl | hc
    · exact ⟨[c], List.mem_singleton_self _, List.mem_singleton_self _⟩
    · obtain ⟨l, hl, _⟩ := ih hc
      rw [hs] at hl
      cases hl
  | case5 d t hne hd m ms hs ih =>
    rcases List.mem_cons.mp hc with rfl | hc
    · exact ⟨c :: m, List.mem_cons_self, List.mem_cons_self⟩
    · obtain ⟨l, hl, hcl⟩ := ih hc
      rw [hs] at hl
      rcases List.mem_cons.mp hl with rfl | hl
      · exact ⟨d :: l, List.mem_cons_self, List.mem_cons_of_mem d hcl⟩
      · exact ⟨l, List.mem_cons_of_mem _ hl, hcl⟩

theorem isSpaceChar_of_isLineBreak {c : Char} (h : isLineBreak c = true) :
    isSpaceChar c = true := by
  unfold isLineBreak at h
  unfold isSpaceChar
  simp only [Bool.or_eq_true, decide_eq_true_eq, beq_iff_eq] at h ⊢
  simp only [List.mem_cons]
  omega

/-- A text that is no line is a line and a boundary, with a text behind them. -/
theorem exists_first_break {t : Text} (h : ¬ OneLine t) :
    ∃ l c s, t = l ++ c :: s ∧ OneLine l ∧ isLineBreak c = true := by
  induction t with
  | nil =>
    refine absurd ?_ h
    intro c hc
    cases hc
  | cons d t ih =>
    cases hd : isLineBreak d with
    | true =>
      refine ⟨[], d, t, rfl, ?_, hd⟩
      intro c hc
      cases hc
    | false =>
      obtain ⟨l, c, s, rfl, hl, hc⟩ := ih fun ht => h (List.forall_mem_cons.mpr ⟨hd, ht⟩)
      exact ⟨d :: l, c, s, rfl, List.forall_mem_cons.mpr ⟨hd, hl⟩, hc⟩

/-- A boundary between two characters that are no space leaves two lines at least. -/
theorem one_lt_length_nonblankLines {c d : Char} {t : Text} (hc : isSpaceChar c = false)
    (hd : isSpaceChar d = false) (hr : '\r' ∉ t) (ht : ¬ OneLine t) (s : Text) :
    1 < (nonblankLines (c :: (t ++ d :: s))).length := by
  have hbreak : ∀ e, isSpaceChar e = false → isLineBreak e = false := by
    intro e he
    by_contra h
    rw [isSpaceChar_of_isLineBreak (by simpa using h)] at he
    cases he
  obtain ⟨l, b, u, rfl, hl, hb⟩ := exists_first_break ht
  have hsplit : splitlines (c :: (l ++ b :: u ++ d :: s)) =
      (c :: l) :: splitlines (u ++ d :: s) := by
    rw [List.append_assoc, List.cons_append, ← List.cons_append]
    apply splitlines_append_break (List.forall_mem_cons.mpr ⟨hbreak c hc, hl⟩) hb
    rintro rfl
    exact hr (by simp)
  obtain ⟨m, hm, hdm⟩ := exists_line_of_mem
    (show d ∈ u ++ d :: s by simp) (hbreak d hd)
  have hfirst : isBlank (c :: l) = false := isBlank_eq_false_of_mem List.mem_cons_self hc
  have hsecond : m ∈ nonblankLines (u ++ d :: s) :=
    List.mem_filter.mpr ⟨hm, by rw [isBlank_eq_false_of_mem hdm hd]; rfl⟩
  have hpos := List.length_pos_of_mem hsecond
  unfold nonblankLines at hpos ⊢
  rw [hsplit, List.filter_cons_of_pos (by rw [hfirst]; rfl), List.length_cons]
  omega

end Srp.Lib.Lines
