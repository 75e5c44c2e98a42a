/-
  Srp/Lib/PyJson.lean
  ===================
  **JSON values and their texts** (`json.dumps(..., ensure_ascii=False)` and
  `json.loads` of Python).

  `dumps` escapes the quote, the backslash and the control characters below
  U+0020, and writes every other character as it is.  `loads` is the recursive
  descent parser, with the length of the text as its fuel.  A float is
  represented by the text that `float.__repr__` gives it, and a dictionary by the
  list of its items.  `loads_dumps` is the round trip; it needs no side condition
  on the strings.
-/
import Mathlib
import Srp.Lib.Lines

namespace Srp.Lib.PyJson

/-! ### Number tokens -/

/-- The characters of numbers and of the constants. -/
def isTokenChar (c : Char) : Bool := c.isAlphanum || c == '+' || c == '-' || c == '.'

/-- Digits without a superfluous leading zero. -/
def isWhole (ds : List Char) : Bool :=
  ds.all Char.isDigit && Nat.toDigits 10 (Nat.ofDigitChars 10 ds 0) == ds

def dropMinus : List Char → List Char
  | '-' :: t => t
  | t => t

def isExponent : List Char → Bool
  | c :: t =>
    let ds := match t with
      | '+' :: ds => ds
      | t => dropMinus t
    (c == 'e' || c == 'E') && ds != [] && ds.all Char.isDigit
  | [] => false

/-- A fraction, an exponent, or both. -/
def isFraction : List Char → Bool
  | '.' :: t =>
    let rest := t.dropWhile Char.isDigit
    t.takeWhile Char.isDigit != [] && (rest == [] || isExponent rest)
  | t => isExponent t

def floatConstants : List (List Char) :=
  ["NaN".toList, "Infinity".toList, "-Infinity".toList]

def isFloatToken (t : List Char) : Bool :=
  t.all isTokenChar && (t ∈ floatConstants ||
    (isWhole ((dropMinus t).takeWhile Char.isDigit) &&
      isFraction ((dropMinus t).dropWhile Char.isDigit)))

/-- A float, by its `repr`. -/
def FloatText : Type := { t : List Char // isFloatToken t = true }

instance : DecidableEq FloatText := inferInstanceAs (DecidableEq (Subtype _))

def intText (n : Int) : List Char :=
  if n < 0 then '-' :: Nat.toDigits 10 n.natAbs else Nat.toDigits 10 n.natAbs

/-! ### Values -/

inductive Json where
  | null
  | bool (b : Bool)
  | int (n : Int)
  | float (x : FloatText)
  | str (s : List Char)
  | arr (xs : List Json)
  | obj (fields : List (List Char × Json))

/-- In every object of the value the keys are distinct, as in a dictionary. -/
inductive Distinct : Json → Prop where
  | null : Distinct .null
  | bool (b : Bool) : Distinct (.bool b)
  | int (n : Int) : Distinct (.int n)
  | float (x : FloatText) : Distinct (.float x)
  | str (s : List Char) : Distinct (.str s)
  | arr {xs : List Json} (elems : ∀ x ∈ xs, Distinct x) : Distinct (.arr xs)
  | obj {fields : List (List Char × Json)} (keys : (fields.map (·.1)).Nodup)
      (values : ∀ f ∈ fields, Distinct f.2) : Distinct (.obj fields)

/-! ### Writing -/

def hexDigit (n : Nat) : Char := Nat.digitChar n

def escapeChar (c : Char) : List Char :=
  if c = '"' then ['\\', '"']
  else if c = '\\' then ['\\', '\\']
  else if c = '\n' then ['\\', 'n']
  else if c = '\r' then ['\\', 'r']
  else if c = '\t' then ['\\', 't']
  else if c.toNat = 8 then ['\\', 'b']
  else if c.toNat = 12 then ['\\', 'f']
  else if c.toNat < 0x20 then
    ['\\', 'u', '0', '0', hexDigit (c.toNat / 16), hexDigit (c.toNat % 16)]
  else [c]

/-- The body of a string and its closing quote. -/
def stringBody (s : List Char) : List Char := s.flatMap escapeChar ++ ['"']

/-- The number of blanks after `,` and `:` (1 by default, 0 for `separators=(",", ":")`). -/
abbrev Blanks := Nat

def blanks (b : Blanks) : List Char := List.replicate b ' '

mutual

def dumps (b : Blanks) : Json → List Char
  | .null => "null".toList
  | .bool true => "true".toList
  | .bool false => "false".toList
  | .int n => intText n
  | .float x => x.1
  | .str s => '"' :: stringBody s
  | .arr xs => '[' :: dumpsElems b xs
  | .obj fields => '{' :: dumpsFields b fields

/-- The elements of an array and its closing bracket. -/
def dumpsElems (b : Blanks) : List Json → List Char
  | [] => [']']
  | [x] => dumps b x ++ [']']
  | x :: y :: ys => dumps b x ++ ',' :: (blanks b ++ dumpsElems b (y :: ys))

/-- The members of an object and its closing brace. -/
def dumpsFields (b : Blanks) : List (List Char × Json) → List Char
  | [] => ['}']
  | [(k, v)] => '"' :: (stringBody k ++ ':' :: (blanks b ++ (dumps b v ++ ['}'])))
  | (k, v) :: f :: fs => '"' :: (stringBody k ++ ':' :: (blanks b ++ (dumps b v ++
      ',' :: (blanks b ++ dumpsFields b (f :: fs)))))

end

/-! ### Reading -/

def isSpace (c : Char) : Bool := c == ' ' || c == '\t' || c == '\n' || c == '\r'

def skipSpace (t : List Char) : List Char := t.dropWhile isSpace

def hexVal (c : Char) : Option Nat :=
  if c.isDigit then some (c.toNat - '0'.toNat)
  else if 'a' ≤ c ∧ c ≤ 'f' then some (c.toNat - 'a'.toNat + 10)
  else if 'A' ≤ c ∧ c ≤ 'F' then some (c.toNat - 'A'.toNat + 10)
  else none

def hex4 (a b c d : Char) : Option Nat := do
  return 4096 * (← hexVal a) + 256 * (← hexVal b) + 16 * (← hexVal c) + (← hexVal d)

/-- The character of a one-letter escape. -/
def unescape : Char → Option Char
  | '"' => some '"'
  | '\\' => some '\\'
  | '/' => some '/'
  | 'b' => some (Char.ofNat 8)
  | 'f' => some (Char.ofNat 12)
  | 'n' => some '\n'
  | 'r' => some '\r'
  | 't' => some '\t'
  | _ => none

/-- A string up to its closing quote.  A raw control character is refused, and so is an escape
    of a surrogate half, which no text read here contains. -/
def parseString : List Char → Option (List Char × List Char)
  | [] => none
  | '"' :: t => some ([], t)
  | '\\' :: 'u' :: a :: b :: c :: d :: t =>
    match hex4 a b c d with
    | some n =>
      if n.isValidChar then (parseString t).map fun p => (Char.ofNat n :: p.1, p.2) else none
    | none => none
  | '\\' :: c :: t =>
    match unescape c with
    | some c => (parseString t).map fun p => (c :: p.1, p.2)
    | none => none
  | c :: t =>
    if c.toNat < 0x20 ∨ c = '\\' then none else (parseString t).map fun p => (c :: p.1, p.2)

def parseInt (t : List Char) : Option Int :=
  if isWhole (dropMinus t) then
    some (if t.head? = some '-' then -(Nat.ofDigitChars 10 (dropMinus t) 0 : Int)
      else Nat.ofDigitChars 10 (dropMinus t) 0)
  else none

def parseToken (t : List Char) : Option Json :=
  if t = "null".toList then some .null
  else if t = "true".toList then some (.bool true)
  else if t = "false".toList then some (.bool false)
  else
    match parseInt t with
    | some n => some (.int n)
    | none => if h : isFloatToken t = true then some (.float ⟨t, h⟩) else none

/-- `dict(pairs)`: the last value of a key, at the place of the first. -/
def dictOf : List (List Char × Json) → List (List Char × Json)
  | [] => []
  | (k, v) :: pairs =>
    let rest := dictOf pairs
    match rest.lookup k with
    | some w => (k, w) :: rest.filter fun f => f.1 ≠ k
    | none => (k, v) :: rest

mutual

def parseValue : Nat → List Char → Option (Json × List Char)
  | 0, _ => none
  | _ + 1, '"' :: t => (parseString t).map fun p => (.str p.1, p.2)
  | n + 1, '[' :: t =>
    match skipSpace t with
    | ']' :: r => some (.arr [], r)
    | t => (parseElems n t).map fun p => (.arr p.1, p.2)
  | n + 1, '{' :: t =>
    match skipSpace t with
    | '}' :: r => some (.obj [], r)
    | t => (parseFields n t).map fun p => (.obj (dictOf p.1), p.2)
  | _ + 1, t =>
    (parseToken (t.takeWhile isTokenChar)).map fun j => (j, t.dropWhile isTokenChar)

def parseElems : Nat → List Char → Option (List Json × List Char)
  | 0, _ => none
  | n + 1, t =>
    match parseValue n t with
    | none => none
    | some (x, t) =>
      match skipSpace t with
      | ']' :: r => some ([x], r)
      | ',' :: t => (parseElems n (skipSpace t)).map fun p => (x :: p.1, p.2)
      | _ => none

def parseFields : Nat → List Char → Option (List (List Char × Json) × List Char)
  | 0, _ => none
  | n + 1, '"' :: t =>
    match parseString t with
    | none => none
    | some (k, t) =>
      match skipSpace t with
      | ':' :: t =>
        match parseValue n (skipSpace t) with
        | none => none
        | some (v, t) =>
          match skipSpace t with
          | '}' :: r => some ([(k, v)], r)
          | ',' :: t => (parseFields n (skipSpace t)).map fun p => ((k, v) :: p.1, p.2)
          | _ => none
      | _ => none
  | _ + 1, _ => none

end

/-- `json.loads`, `none` where it raises. -/
def loads (text : List Char) : Option Json :=
  match parseValue (text.length + 1) (skipSpace text) with
  | some (j, t) => if skipSpace t = [] then some j else none
  | none => none

/-! ### Tokens -/

theorem isTokenChar_of_isDigit {c : Char} (h : c.isDigit = true) : isTokenChar c = true := by
  simp [isTokenChar, Char.isAlphanum, h]

theorem isDigit_of_mem_toDigits {n : Nat} {c : Char} (h : c ∈ Nat.toDigits 10 n) :
    c.isDigit = true := Nat.isDigit_of_mem_toDigits (by decide) (by decide) h

theorem isWhole_toDigits (n : Nat) : isWhole (Nat.toDigits 10 n) = true := by
  have hdigits : (Nat.toDigits 10 n).all Char.isDigit = true :=
    List.all_eq_true.mpr fun c hc => isDigit_of_mem_toDigits hc
  simp [isWhole, hdigits, Nat.ofDigitChars_ten_toDigits]

theorem head_toDigits_ne_minus (n : Nat) : (Nat.toDigits 10 n).head? ≠ some '-' := by
  intro h
  have hdigit := isDigit_of_mem_toDigits (List.mem_of_head? h)
  exact absurd hdigit (by decide)

theorem dropMinus_of_head_ne {t : List Char} (h : t.head? ≠ some '-') : dropMinus t = t := by
  unfold dropMinus
  split
  · simp at h
  · rfl

theorem parseInt_intText (n : Int) : parseInt (intText n) = some n := by
  unfold parseInt intText
  split
  · simp only [dropMinus, isWhole_toDigits, if_true, List.head?_cons,
      Nat.ofDigitChars_ten_toDigits]
    congr 1
    omega
  · have hhead := head_toDigits_ne_minus n.natAbs
    simp only [dropMinus_of_head_ne hhead, isWhole_toDigits, if_true, if_neg hhead,
      Nat.ofDigitChars_ten_toDigits]
    congr 1
    omega

theorem isTokenChar_intText (n : Int) : ∀ c ∈ intText n, isTokenChar c = true := by
  intro c hc
  unfold intText at hc
  split at hc
  · rcases List.mem_cons.mp hc with rfl | hc
    · decide
    · exact isTokenChar_of_isDigit (isDigit_of_mem_toDigits hc)
  · exact isTokenChar_of_isDigit (isDigit_of_mem_toDigits hc)

theorem intText_ne_nil (n : Int) : intText n ≠ [] := by
  unfold intText
  split
  · simp
  · exact Nat.toDigits_ne_nil

/-- The text of a number is none of the three words. -/
theorem parseToken_intText (n : Int) : parseToken (intText n) = some (.int n) := by
  have hword : ∀ w, parseInt w = none → intText n ≠ w := by
    rintro w hw rfl
    rw [parseInt_intText] at hw
    cases hw
  unfold parseToken
  rw [if_neg (hword _ (by decide)), if_neg (hword _ (by decide)), if_neg (hword _ (by decide)),
    parseInt_intText]

/-- A fraction or an exponent keeps a number from being whole. -/
theorem parseInt_floatToken {t : List Char} (h : isFloatToken t = true) : parseInt t = none := by
  unfold isFloatToken at h
  rw [Bool.and_eq_true, Bool.or_eq_true] at h
  rcases h.2 with hconst | hnum
  · have hconst : t ∈ floatConstants := by simpa using hconst
    rcases List.mem_cons.mp hconst with rfl | hconst
    · decide
    · rcases List.mem_cons.mp hconst with rfl | hconst
      · decide
      · rw [List.mem_singleton.mp hconst]
        decide
  · rw [Bool.and_eq_true] at hnum
    unfold parseInt
    rw [if_neg]
    intro hwhole
    unfold isWhole at hwhole
    rw [Bool.and_eq_true] at hwhole
    have hall := List.all_eq_true.mp hwhole.1
    have hdrop : (dropMinus t).dropWhile Char.isDigit = [] := List.dropWhile_eq_nil_iff.mpr hall
    rw [hdrop] at hnum
    exact absurd hnum.2 (by decide)

theorem parseToken_floatText (x : FloatText) : parseToken x.1 = some (.float x) := by
  obtain ⟨t, h⟩ := x
  have hword : ∀ w, isFloatToken w = false → t ≠ w := by
    rintro w hw rfl
    rw [h] at hw
    cases hw
  unfold parseToken
  rw [if_neg (hword _ (by decide)), if_neg (hword _ (by decide)), if_neg (hword _ (by decide)),
    parseInt_floatToken h]
  simp [h]

theorem isTokenChar_floatText (x : FloatText) : ∀ c ∈ x.1, isTokenChar c = true := by
  have h := x.2
  unfold isFloatToken at h
  rw [Bool.and_eq_true] at h
  exact List.all_eq_true.mp h.1

theorem floatText_ne_nil (x : FloatText) : x.1 ≠ [] := by
  intro h
  have := x.2
  rw [h] at this
  exact absurd this (by decide)

/-! ### Strings -/

theorem hexVal_hexDigit : ∀ n < 16, hexVal (hexDigit n) = some n := by decide

theorem parseString_escapeChar (c : Char) (t : List Char) :
    parseString (escapeChar c ++ t) = (parseString t).map fun p => (c :: p.1, p.2) := by
  unfold escapeChar
  split_ifs with hq hb hn hr ht h8 h12 hctl
  · rw [hq]
    rfl
  · rw [hb]
    rfl
  · rw [hn]
    rfl
  · rw [hr]
    rfl
  · rw [ht]
    rfl
  · have hc : c = Char.ofNat 8 := by rw [← h8, Char.ofNat_toNat]
    rw [hc]
    rfl
  · have hc : c = Char.ofNat 12 := by rw [← h12, Char.ofNat_toNat]
    rw [hc]
    rfl
  · -- `\u00XX`: the two hex digits give the character back
    have hhex : hex4 '0' '0' (hexDigit (c.toNat / 16)) (hexDigit (c.toNat % 16)) =
        some c.toNat := by
      have hzero : hexVal '0' = some 0 := by decide
      simp only [hex4, hzero, hexVal_hexDigit _ (show c.toNat / 16 < 16 by omega),
        hexVal_hexDigit _ (show c.toNat % 16 < 16 by omega)]
      simp only [Option.bind_eq_bind, Option.bind_some, Option.pure_def]
      congr 1
      omega
    have hvalid : c.toNat.isValidChar := c.valid
    simp only [List.cons_append, List.nil_append, parseString, hhex, if_pos hvalid,
      Char.ofNat_toNat]
  · simp only [List.cons_append, List.nil_append]
    rw [parseString.eq_def]
    split <;> simp_all

theorem parseString_stringBody (s r : List Char) :
    parseString (stringBody s ++ r) = some (s, r) := by
  unfold stringBody
  induction s with
  | nil => rfl
  | cons c s ih =>
    rw [List.flatMap_cons, List.append_assoc, List.append_assoc, parseString_escapeChar,
      ← List.append_assoc, ih]
    rfl

/-! ### Values -/

/-- What follows a value: nothing that would lengthen a token. -/
def Boundary (r : List Char) : Prop := ∀ c t, r = c :: t → isTokenChar c = false

theorem boundary_nil : Boundary [] := by
  intro c t h
  cases h

theorem boundary_cons {c : Char} {t : List Char} (h : isTokenChar c = false) :
    Boundary (c :: t) := by
  intro c' t' heq
  cases heq
  exact h

theorem takeWhile_token {t r : List Char} (ht : ∀ c ∈ t, isTokenChar c = true)
    (hr : Boundary r) : (t ++ r).takeWhile isTokenChar = t := by
  rw [List.takeWhile_append_of_pos ht]
  cases r with
  | nil => simp
  | cons c r => simp [hr c r rfl]

theorem dropWhile_token {t r : List Char} (ht : ∀ c ∈ t, isTokenChar c = true)
    (hr : Boundary r) : (t ++ r).dropWhile isTokenChar = r := by
  rw [List.dropWhile_append_of_pos ht]
  cases r with
  | nil => simp
  | cons c r => simp [hr c r rfl]

theorem parseValue_token {t r : List Char} {j : Json} (hne : t ≠ [])
    (ht : ∀ c ∈ t, isTokenChar c = true) (hj : parseToken t = some j) (hr : Boundary r)
    (n : Nat) : parseValue (n + 1) (t ++ r) = some (j, r) := by
  have htake := takeWhile_token ht hr
  have hdrop := dropWhile_token ht hr
  cases t with
  | nil => exact absurd rfl hne
  | cons c t =>
    have hc := ht c List.mem_cons_self
    have hopen : c ≠ '"' ∧ c ≠ '[' ∧ c ≠ '{' := by
      refine ⟨?_, ?_, ?_⟩ <;>
        · rintro rfl
          exact absurd hc (by decide)
    rw [List.cons_append] at htake hdrop ⊢
    rw [parseValue.eq_def]
    split
    · rename_i heq
      cases heq
    · rename_i heq
      exact absurd (List.cons.inj heq).1 hopen.1
    · rename_i heq
      exact absurd (List.cons.inj heq).1 hopen.2.1
    · rename_i heq
      exact absurd (List.cons.inj heq).1 hopen.2.2
    · rw [htake, hdrop, hj]
      rfl

theorem skipSpace_cons {c : Char} (h : isSpace c = false) (t : List Char) :
    skipSpace (c :: t) = c :: t := by
  simp [skipSpace, h]

theorem skipSpace_blanks (b : Blanks) (t : List Char) :
    skipSpace (blanks b ++ t) = skipSpace t := by
  unfold skipSpace blanks
  rw [List.dropWhile_append_of_pos]
  intro c hc
  rw [List.eq_of_mem_replicate hc]
  decide

/-- A value starts with no blank and with no closing bracket. -/
theorem dumps_cons (b : Blanks) (j : Json) :
    ∃ c t, dumps b j = c :: t ∧ isSpace c = false ∧ c ≠ ']' := by
  have htoken : ∀ t : List Char, t ≠ [] → (∀ c ∈ t, isTokenChar c = true) →
      ∃ c t', t = c :: t' ∧ isSpace c = false ∧ c ≠ ']' := by
    intro t hne ht
    cases t with
    | nil => exact absurd rfl hne
    | cons c t =>
      have hc := ht c List.mem_cons_self
      refine ⟨c, t, rfl, ?_, ?_⟩
      · by_contra hspace
        simp only [isSpace, Bool.not_eq_false, Bool.or_eq_true, beq_iff_eq] at hspace
        rcases hspace with ((rfl | rfl) | rfl) | rfl <;> exact absurd hc (by decide)
      · rintro rfl
        exact absurd hc (by decide)
  cases j with
  | null =>
    rw [dumps]
    exact htoken _ (by decide) (List.all_eq_true.mp (by decide))
  | bool v =>
    cases v <;> rw [dumps] <;> exact htoken _ (by decide) (List.all_eq_true.mp (by decide))
  | int n =>
    rw [dumps]
    exact htoken _ (intText_ne_nil n) (isTokenChar_intText n)
  | float x =>
    rw [dumps]
    exact htoken _ (floatText_ne_nil x) (isTokenChar_floatText x)
  | str s => exact ⟨'"', _, by rw [dumps], by decide, by decide⟩
  | arr xs => exact ⟨'[', _, by rw [dumps], by decide, by decide⟩
  | obj fields => exact ⟨'{', _, by rw [dumps], by decide, by decide⟩

theorem skipSpace_dumps (b : Blanks) (j : Json) (r : List Char) :
    skipSpace (dumps b j ++ r) = dumps b j ++ r := by
  obtain ⟨c, t, h, hspace, _⟩ := dumps_cons b j
  rw [h, List.cons_append, skipSpace_cons hspace]

theorem lookup_eq_none_of_not_mem {k : List Char} {fields : List (List Char × Json)}
    (h : k ∉ fields.map (·.1)) : fields.lookup k = none := by
  rw [List.lookup_eq_none_iff]
  intro f hf
  have hne : k ≠ f.1 := fun heq => h (heq ▸ List.mem_map_of_mem hf)
  simpa using hne

theorem dictOf_of_nodup {fields : List (List Char × Json)} (h : (fields.map (·.1)).Nodup) :
    dictOf fields = fields := by
  induction fields with
  | nil => rfl
  | cons f fields ih =>
    obtain ⟨hf, hfields⟩ := List.nodup_cons.mp h
    simp only [dictOf, ih hfields, lookup_eq_none_of_not_mem hf]

/-! ### The round trip

The induction is on the fuel, for values, elements and members at once; the text of a value
is longer than that of each of its parts. -/

structure ReadsBack (b : Blanks) (n : Nat) : Prop where
  value : ∀ j r, Distinct j → (dumps b j).length ≤ n → Boundary r →
    parseValue n (dumps b j ++ r) = some (j, r)
  elems : ∀ xs r, xs ≠ [] → (∀ x ∈ xs, Distinct x) → (dumpsElems b xs).length ≤ n →
    parseElems n (dumpsElems b xs ++ r) = some (xs, r)
  fields : ∀ fs r, fs ≠ [] → (∀ f ∈ fs, Distinct f.2) → (dumpsFields b fs).length ≤ n →
    parseFields n (dumpsFields b fs ++ r) = some (fs, r)

theorem length_dumps_pos (b : Blanks) (j : Json) : 0 < (dumps b j).length := by
  obtain ⟨c, t, h, _⟩ := dumps_cons b j
  rw [h]
  exact Nat.succ_pos _

theorem dumpsElems_cons (b : Blanks) (x : Json) (xs : List Json) :
    ∃ t, dumpsElems b (x :: xs) = dumps b x ++ t := by
  cases xs with
  | nil => exact ⟨_, by rw [dumpsElems]⟩
  | cons y ys => exact ⟨_, by rw [dumpsElems]⟩

theorem dumpsFields_cons (b : Blanks) (f : List Char × Json) (fs : List (List Char × Json)) :
    ∃ t, dumpsFields b (f :: fs) = '"' :: t := by
  obtain ⟨k, v⟩ := f
  cases fs with
  | nil => exact ⟨_, by rw [dumpsFields]⟩
  | cons g gs => exact ⟨_, by rw [dumpsFields]⟩

/-- The members of an object end in the closing brace. -/
theorem dumpsFields_eq_append (b : Blanks) (fs : List (List Char × Json)) :
    ∃ t, dumpsFields b fs = t ++ ['}'] := by
  induction fs with
  | nil => exact ⟨[], by rw [dumpsFields]; rfl⟩
  | cons f fs ih =>
    obtain ⟨k, v⟩ := f
    cases fs with
    | nil =>
      refine ⟨'"' :: (stringBody k ++ ':' :: (blanks b ++ dumps b v)), ?_⟩
      simp [dumpsFields]
    | cons g gs =>
      obtain ⟨t, ht⟩ := ih
      refine ⟨'"' :: (stringBody k ++ ':' :: (blanks b ++ (dumps b v ++
        ',' :: (blanks b ++ t)))), ?_⟩
      simp [dumpsFields, ht]

section Step

variable {b : Blanks} {n : Nat}

theorem ReadsBack.value_succ (ih : ReadsBack b n) (j : Json) (r : List Char) (hj : Distinct j)
    (hlen : (dumps b j).length ≤ n + 1) (hr : Boundary r) :
    parseValue (n + 1) (dumps b j ++ r) = some (j, r) := by
  cases hj with
  | null =>
    rw [dumps]
    exact parseValue_token (by decide) (List.all_eq_true.mp (by decide)) rfl hr n
  | bool v =>
    cases v <;> rw [dumps] <;>
      exact parseValue_token (by decide) (List.all_eq_true.mp (by decide)) rfl hr n
  | int k =>
    rw [dumps]
    exact parseValue_token (intText_ne_nil k) (isTokenChar_intText k) (parseToken_intText k) hr n
  | float x =>
    rw [dumps]
    exact parseValue_token (floatText_ne_nil x) (isTokenChar_floatText x)
      (parseToken_floatText x) hr n
  | str s =>
    rw [dumps, List.cons_append, parseValue, parseString_stringBody]
    rfl
  | @arr xs helems =>
    rw [dumps, List.cons_append]
    cases xs with
    | nil => rfl
    | cons x xs =>
      have hread := ih.elems (x :: xs) r (by simp) helems (by
        rw [dumps, List.length_cons] at hlen
        omega)
      obtain ⟨c, t, hx, hspace, hclose⟩ := dumps_cons b x
      obtain ⟨t', ht'⟩ := dumpsElems_cons b x xs
      have hopen : dumpsElems b (x :: xs) ++ r = c :: (t ++ t' ++ r) := by
        rw [ht', hx]
        rfl
      rw [hopen] at hread ⊢
      rw [parseValue, skipSpace_cons hspace]
      split
      · rename_i heq
        exact absurd (List.cons.inj heq).1 hclose
      · rw [hread]
        rfl
  | @obj fs hkeys hvalues =>
    rw [dumps, List.cons_append]
    cases fs with
    | nil => rfl
    | cons f fs =>
      have hread := ih.fields (f :: fs) r (by simp) hvalues (by
        rw [dumps, List.length_cons] at hlen
        omega)
      obtain ⟨t, ht⟩ := dumpsFields_cons b f fs
      have hopen : dumpsFields b (f :: fs) ++ r = '"' :: (t ++ r) := by
        rw [ht]
        rfl
      rw [hopen] at hread ⊢
      rw [parseValue, skipSpace_cons (by decide)]
      split
      · rename_i heq
        exact absurd (List.cons.inj heq).1 (by decide)
      · rw [hread]
        simp only [Option.map_some, dictOf_of_nodup hkeys]

theorem ReadsBack.elems_succ (ih : ReadsBack b n) (xs : List Json) (r : List Char)
    (hne : xs ≠ []) (hxs : ∀ x ∈ xs, Distinct x)
    (hlen : (dumpsElems b xs).length ≤ n + 1) :
    parseElems (n + 1) (dumpsElems b xs ++ r) = some (xs, r) := by
  match xs, hne with
  | [x], _ =>
    rw [dumpsElems, List.length_append, List.length_singleton] at hlen
    have hx := ih.value x (']' :: r) (hxs x List.mem_cons_self) (by omega)
      (boundary_cons (by decide))
    rw [dumpsElems, List.append_assoc, List.singleton_append, parseElems, hx]
    simp only [skipSpace_cons (show isSpace ']' = false by decide)]
  | x :: y :: ys, _ =>
    rw [dumpsElems, List.length_append, List.length_cons, List.length_append] at hlen
    have hpos := length_dumps_pos b x
    have hx := ih.value x (',' :: (blanks b ++ dumpsElems b (y :: ys)) ++ r)
      (hxs x List.mem_cons_self) (by omega) (boundary_cons (by decide))
    have hys := ih.elems (y :: ys) r (by simp) (fun z hz => hxs z (List.mem_cons_of_mem x hz))
      (by omega)
    obtain ⟨t, ht⟩ := dumpsElems_cons b y ys
    have hskip : skipSpace (dumpsElems b (y :: ys) ++ r) = dumpsElems b (y :: ys) ++ r := by
      rw [ht, List.append_assoc, skipSpace_dumps]
    rw [dumpsElems, List.append_assoc, parseElems, hx]
    simp only [List.cons_append, skipSpace_cons (show isSpace ',' = false by decide),
      List.append_assoc, skipSpace_blanks, hskip, hys, Option.map_some]

theorem ReadsBack.fields_succ (ih : ReadsBack b n) (fs : List (List Char × Json))
    (r : List Char) (hne : fs ≠ []) (hfs : ∀ f ∈ fs, Distinct f.2)
    (hlen : (dumpsFields b fs).length ≤ n + 1) :
    parseFields (n + 1) (dumpsFields b fs ++ r) = some (fs, r) := by
  match fs, hne with
  | [(k, v)], _ =>
    rw [dumpsFields] at hlen
    simp only [List.length_cons, List.length_append, List.length_nil] at hlen
    have hv := ih.value v ('}' :: r) (hfs _ List.mem_cons_self) (by omega)
      (boundary_cons (by decide))
    simp only [dumpsFields, List.cons_append, List.append_assoc, List.nil_append, parseFields,
      parseString_stringBody, skipSpace_cons (show isSpace ':' = false by decide),
      skipSpace_blanks, skipSpace_dumps, hv, skipSpace_cons (show isSpace '}' = false by decide)]
  | (k, v) :: f :: fs, _ =>
    rw [dumpsFields] at hlen
    simp only [List.length_cons, List.length_append] at hlen
    have hv := ih.value v (',' :: (blanks b ++ (dumpsFields b (f :: fs) ++ r)))
      (hfs _ List.mem_cons_self) (by omega) (boundary_cons (by decide))
    have htail := ih.fields (f :: fs) r (by simp)
      (fun g hg => hfs g (List.mem_cons_of_mem _ hg)) (by omega)
    obtain ⟨t, ht⟩ := dumpsFields_cons b f fs
    have hskip : skipSpace (dumpsFields b (f :: fs) ++ r) = dumpsFields b (f :: fs) ++ r := by
      rw [ht, List.cons_append, skipSpace_cons (by decide)]
    rw [dumpsFields]
    simp only [List.cons_append, List.append_assoc, parseFields, parseString_stringBody,
      skipSpace_cons (show isSpace ':' = false by decide), skipSpace_blanks, skipSpace_dumps, hv,
      skipSpace_cons (show isSpace ',' = false by decide), hskip, htail, Option.map_some]

end Step

theorem readsBack (b : Blanks) (n : Nat) : ReadsBack b n := by
  induction n with
  | zero =>
    refine ⟨?_, ?_, ?_⟩
    · intro j r _ hlen _
      have := length_dumps_pos b j
      omega
    · intro xs r hne _ hlen
      obtain ⟨x, xs, rfl⟩ := List.exists_cons_of_ne_nil hne
      obtain ⟨t, ht⟩ := dumpsElems_cons b x xs
      have := length_dumps_pos b x
      rw [ht, List.length_append] at hlen
      omega
    · intro fs r hne _ hlen
      obtain ⟨f, fs, rfl⟩ := List.exists_cons_of_ne_nil hne
      obtain ⟨t, ht⟩ := dumpsFields_cons b f fs
      rw [ht, List.length_cons] at hlen
      omega
  | succ n ih =>
    exact ⟨fun j r hj hlen hr => ih.value_succ j r hj hlen hr,
      fun xs r hne hxs hlen => ih.elems_succ xs r hne hxs hlen,
      fun fs r hne hfs hlen => ih.fields_succ fs r hne hfs hlen⟩

/-- **Reading undoes writing**, in either style of separators. -/
theorem loads_dumps (b : Blanks) {j : Json} (hj : Distinct j) : loads (dumps b j) = some j := by
  have hskip := skipSpace_dumps b j []
  have hread := (readsBack b ((dumps b j).length + 1)).value j [] hj (Nat.le_succ _)
    boundary_nil
  rw [List.append_nil] at hskip hread
  simp only [loads, hskip, hread]
  rfl

/-! ### No control characters -/

def Printable (t : List Char) : Prop := ∀ c ∈ t, 0x20 ≤ c.toNat

instance (t : List Char) : Decidable (Printable t) :=
  List.decidableBAll (fun c : Char => 0x20 ≤ c.toNat) t

theorem Printable.append {s t : List Char} (hs : Printable s) (ht : Printable t) :
    Printable (s ++ t) := by
  intro c hc
  rcases List.mem_append.mp hc with h | h
  · exact hs c h
  · exact ht c h

theorem Printable.cons {c : Char} {t : List Char} (hc : 0x20 ≤ c.toNat) (ht : Printable t) :
    Printable (c :: t) := by
  intro d hd
  rcases List.mem_cons.mp hd with rfl | h
  · exact hc
  · exact ht d h

theorem printable_token {t : List Char} (h : ∀ c ∈ t, isTokenChar c = true) : Printable t := by
  intro c hc
  have hclass := h c hc
  simp only [isTokenChar, Char.isAlphanum, Char.isAlpha, Char.isUpper, Char.isLower,
    Char.isDigit, Bool.or_eq_true, Bool.and_eq_true, decide_eq_true_eq, beq_iff_eq,
    UInt32.le_iff_toNat_le] at hclass
  change 0x20 ≤ c.val.toNat
  rcases hclass with ((((⟨hlow, _⟩ | ⟨hlow, _⟩) | ⟨hlow, _⟩) | rfl) | rfl) | rfl
  · exact le_trans (by decide) hlow
  · exact le_trans (by decide) hlow
  · exact le_trans (by decide) hlow
  · decide
  · decide
  · decide

theorem printable_escapeChar (c : Char) : Printable (escapeChar c) := by
  have hhex : ∀ n < 16, 0x20 ≤ (hexDigit n).toNat := by decide
  unfold escapeChar
  split_ifs with _ _ _ _ _ _ _ hctl
  · decide
  · decide
  · decide
  · decide
  · decide
  · decide
  · decide
  · refine .cons (by decide) (.cons (by decide) (.cons (by decide) (.cons (by decide)
      (.cons (hhex _ (by omega)) (.cons (hhex _ (by omega)) ?_)))))
    intro d hd
    cases hd
  · refine .cons (not_lt.mp hctl) ?_
    intro d hd
    cases hd

theorem printable_stringBody (s : List Char) : Printable (stringBody s) := by
  refine Printable.append ?_ (by decide)
  intro c hc
  obtain ⟨d, _, hd⟩ := List.mem_flatMap.mp hc
  exact printable_escapeChar d c hd

theorem printable_blanks (b : Blanks) : Printable (blanks b) := by
  intro c hc
  rw [List.eq_of_mem_replicate hc]
  decide

mutual

/-- No text of a value contains a control character, whatever its strings contain. -/
theorem printable_dumps (b : Blanks) : ∀ j, Printable (dumps b j)
  | .null => by rw [dumps]; exact printable_token (List.all_eq_true.mp (by decide))
  | .bool true => by rw [dumps]; exact printable_token (List.all_eq_true.mp (by decide))
  | .bool false => by rw [dumps]; exact printable_token (List.all_eq_true.mp (by decide))
  | .int n => by rw [dumps]; exact printable_token (isTokenChar_intText n)
  | .float x => by rw [dumps]; exact printable_token (isTokenChar_floatText x)
  | .str s => by rw [dumps]; exact .cons (by decide) (printable_stringBody s)
  | .arr xs => by rw [dumps]; exact .cons (by decide) (printable_dumpsElems b xs)
  | .obj fs => by rw [dumps]; exact .cons (by decide) (printable_dumpsFields b fs)

theorem printable_dumpsElems (b : Blanks) : ∀ xs, Printable (dumpsElems b xs)
  | [] => by rw [dumpsElems]; decide
  | [x] => by rw [dumpsElems]; exact (printable_dumps b x).append (by decide)
  | x :: y :: ys => by
    rw [dumpsElems]
    exact (printable_dumps b x).append
      (.cons (by decide) ((printable_blanks b).append (printable_dumpsElems b (y :: ys))))

theorem printable_dumpsFields (b : Blanks) : ∀ fs, Printable (dumpsFields b fs)
  | [] => by rw [dumpsFields]; decide
  | [(k, v)] => by
    rw [dumpsFields]
    exact .cons (by decide) ((printable_stringBody k).append (.cons (by decide)
      ((printable_blanks b).append ((printable_dumps b v).append (by decide)))))
  | (k, v) :: f :: fs => by
    rw [dumpsFields]
    exact .cons (by decide) ((printable_stringBody k).append (.cons (by decide)
      ((printable_blanks b).append ((printable_dumps b v).append (.cons (by decide)
        ((printable_blanks b).append (printable_dumpsFields b (f :: fs))))))))

end

/-! ### What is read has distinct keys -/

theorem dictOf_keys (pairs : List (List Char × Json)) : ((dictOf pairs).map (·.1)).Nodup := by
  induction pairs with
  | nil => exact List.nodup_nil
  | cons p pairs ih =>
    obtain ⟨k, v⟩ := p
    rw [dictOf]
    cases hk : (dictOf pairs).lookup k with
    | some w =>
      have hrest := (List.filter_sublist (p := fun f => decide (f.1 ≠ k))
        (l := dictOf pairs)).map (·.1)
      refine List.nodup_cons.mpr ⟨?_, hrest.nodup ih⟩
      simp
    | none =>
      refine List.nodup_cons.mpr ⟨?_, ih⟩
      intro hmem
      obtain ⟨f, hf, hfk⟩ := List.mem_map.mp hmem
      have hne := List.lookup_eq_none_iff.mp hk f hf
      simp [hfk] at hne

theorem mem_dictOf {pairs : List (List Char × Json)} {f : List Char × Json}
    (h : f ∈ dictOf pairs) : ∃ p ∈ pairs, p.2 = f.2 := by
  induction pairs generalizing f with
  | nil => cases h
  | cons p pairs ih =>
    obtain ⟨k, v⟩ := p
    have hrest : ∀ g ∈ dictOf pairs, ∃ p ∈ (k, v) :: pairs, p.2 = g.2 := by
      intro g hg
      obtain ⟨q, hq, heq⟩ := ih hg
      exact ⟨q, List.mem_cons_of_mem _ hq, heq⟩
    rw [dictOf] at h
    cases hk : (dictOf pairs).lookup k with
    | some w =>
      rw [hk] at h
      rcases List.mem_cons.mp h with rfl | hf
      · obtain ⟨l₁, l₂, heq, -⟩ := List.lookup_eq_some_iff.mp hk
        exact hrest (k, w) (heq ▸ List.mem_append_right l₁ List.mem_cons_self)
      · exact hrest f (List.mem_filter.mp hf).1
    | none =>
      rw [hk] at h
      rcases List.mem_cons.mp h with rfl | hf
      · exact ⟨(k, v), List.mem_cons_self, rfl⟩
      · exact hrest f hf

theorem distinct_dictOf {pairs : List (List Char × Json)} (h : ∀ p ∈ pairs, Distinct p.2) :
    Distinct (.obj (dictOf pairs)) := by
  refine .obj (dictOf_keys pairs) ?_
  intro f hf
  obtain ⟨p, hp, heq⟩ := mem_dictOf hf
  exact heq ▸ h p hp

theorem distinct_parseToken {t : List Char} {j : Json} (h : parseToken t = some j) :
    Distinct j := by
  unfold parseToken at h
  split_ifs at h
  · exact Option.some.inj h ▸ .null
  · exact Option.some.inj h ▸ .bool true
  · exact Option.some.inj h ▸ .bool false
  · cases hint : parseInt t with
    | some n =>
      rw [hint] at h
      exact Option.some.inj h ▸ .int n
    | none =>
      rw [hint] at h
      exact Option.some.inj h ▸ .float _
  · cases hint : parseInt t with
    | some n =>
      rw [hint] at h
      exact Option.some.inj h ▸ .int n
    | none =>
      rw [hint] at h
      cases h

/-- What is read with fuel `n`: values, elements and members. -/
structure ReadsDistinct (n : Nat) : Prop where
  value : ∀ t j r, parseValue n t = some (j, r) → Distinct j
  elems : ∀ t xs r, parseElems n t = some (xs, r) → ∀ x ∈ xs, Distinct x
  fields : ∀ t fs r, parseFields n t = some (fs, r) → ∀ f ∈ fs, Distinct f.2

section Step

variable {n : Nat}

theorem ReadsDistinct.value_succ (ih : ReadsDistinct n) (t : List Char) (j : Json)
    (r : List Char) (h : parseValue (n + 1) t = some (j, r)) : Distinct j := by
  unfold parseValue at h
  split at h
  · cases h
  · obtain ⟨p, -, hp⟩ := Option.map_eq_some_iff.mp h
    obtain ⟨rfl, -⟩ := Prod.mk.inj hp
    exact .str p.1
  · next hn =>
    obtain rfl := Nat.succ.inj hn
    split at h
    · obtain ⟨rfl, -⟩ := Prod.mk.inj (Option.some.inj h)
      exact .arr fun x hx => absurd hx List.not_mem_nil
    · obtain ⟨p, hparse, hp⟩ := Option.map_eq_some_iff.mp h
      obtain ⟨rfl, -⟩ := Prod.mk.inj hp
      exact .arr (ih.elems _ p.1 p.2 hparse)
  · next hn =>
    obtain rfl := Nat.succ.inj hn
    split at h
    · obtain ⟨rfl, -⟩ := Prod.mk.inj (Option.some.inj h)
      exact .obj List.nodup_nil fun f hf => absurd hf List.not_mem_nil
    · obtain ⟨p, hparse, hp⟩ := Option.map_eq_some_iff.mp h
      obtain ⟨rfl, -⟩ := Prod.mk.inj hp
      exact distinct_dictOf (ih.fields _ p.1 p.2 hparse)
  · obtain ⟨j', hj, hp⟩ := Option.map_eq_some_iff.mp h
    obtain ⟨rfl, -⟩ := Prod.mk.inj hp
    exact distinct_parseToken hj

theorem ReadsDistinct.elems_succ (ih : ReadsDistinct n) (t : List Char) (xs : List Json)
    (r : List Char) (h : parseElems (n + 1) t = some (xs, r)) : ∀ x ∈ xs, Distinct x := by
  rw [parseElems] at h
  split at h
  · cases h
  · next x t' hx =>
    have hdistinct := ih.value _ _ _ hx
    split at h
    · obtain ⟨rfl, -⟩ := Prod.mk.inj (Option.some.inj h)
      simpa using hdistinct
    · obtain ⟨p, hparse, hp⟩ := Option.map_eq_some_iff.mp h
      obtain ⟨rfl, -⟩ := Prod.mk.inj hp
      exact List.forall_mem_cons.mpr ⟨hdistinct, ih.elems _ p.1 p.2 hparse⟩
    · cases h

theorem ReadsDistinct.fields_succ (ih : ReadsDistinct n) (t : List Char)
    (fs : List (List Char × Json)) (r : List Char)
    (h : parseFields (n + 1) t = some (fs, r)) : ∀ f ∈ fs, Distinct f.2 := by
  unfold parseFields at h
  split at h
  · cases h
  · next hn =>
    obtain rfl := Nat.succ.inj hn
    split at h
    · cases h
    · split at h
      · split at h
        · cases h
        · next v t' hv =>
          have hdistinct := ih.value _ _ _ hv
          split at h
          · obtain ⟨rfl, -⟩ := Prod.mk.inj (Option.some.inj h)
            simpa using hdistinct
          · obtain ⟨p, hparse, hp⟩ := Option.map_eq_some_iff.mp h
            obtain ⟨rfl, -⟩ := Prod.mk.inj hp
            exact List.forall_mem_cons.mpr ⟨hdistinct, ih.fields _ p.1 p.2 hparse⟩
          · cases h
      · cases h
  · cases h

end Step

theorem readsDistinct (n : Nat) : ReadsDistinct n := by
  induction n with
  | zero =>
    refine ⟨?_, ?_, ?_⟩
    · intro t j r h
      rw [parseValue] at h
      cases h
    · intro t xs r h
      rw [parseElems] at h
      cases h
    · intro t fs r h
      rw [parseFields] at h
      cases h
  | succ n ih => exact ⟨ih.value_succ, ih.elems_succ, ih.fields_succ⟩

/-- In every object of a value that is read the keys are distinct. -/
theorem distinct_loads {t : List Char} {j : Json} (h : loads t = some j) : Distinct j := by
  unfold loads at h
  split at h
  · next j' r hparse =>
    split_ifs at h
    exact Option.some.inj h ▸ (readsDistinct _).value _ _ _ hparse
  · cases h

/-! ### How long a text is -/

theorem length_le_dumps_str (b : Blanks) (s : List Char) :
    s.length ≤ (dumps b (.str s)).length := by
  have hbody : s.length ≤ (s.flatMap escapeChar).length := by
    induction s with
    | nil => exact le_rfl
    | cons c s ih =>
      have hc : 1 ≤ (escapeChar c).length := by
        unfold escapeChar
        split_ifs <;> simp
      rw [List.flatMap_cons, List.length_append, List.length_cons]
      omega
  rw [dumps, stringBody]
  simp only [List.length_cons, List.length_append]
  omega

theorem length_dumps_le_fields (b : Blanks) {fields : List (List Char × Json)}
    {f : List Char × Json} (h : f ∈ fields) :
    (dumps b f.2).length ≤ (dumps b (.obj fields)).length := by
  have hfields : (dumps b f.2).length ≤ (dumpsFields b fields).length := by
    induction fields with
    | nil => cases h
    | cons g fields ih =>
      obtain ⟨k, v⟩ := g
      cases fields with
      | nil =>
        obtain rfl := List.mem_singleton.mp h
        rw [dumpsFields]
        simp only [List.length_cons, List.length_append]
        omega
      | cons g' fields =>
        rw [dumpsFields]
        simp only [List.length_cons, List.length_append]
        rcases List.mem_cons.mp h with rfl | h
        · change (dumps b v).length ≤ _
          omega
        · have := ih h
          omega
  rw [dumps, List.length_cons]
  omega

end Srp.Lib.PyJson
