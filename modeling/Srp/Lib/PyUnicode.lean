/-
  Srp/Lib/PyUnicode.lean
  ======================
  **Python strings, with the characters that UTF-8 has no octets for.**

  A `str` is a list of code points, and a code point may be half of a surrogate
  pair: `json.loads` makes one of the escape `"\ud800"`.  `encode("utf-8")`
  raises at the first of them.  `Value` is a decoded JSON document over such
  strings.  Its text `dumps` encodes iff no string of the value holds half a pair,
  and is then the text that `PyJson.dumps` gives the same value.
-/
import Mathlib
import Srp.Lib.PyFloat
import Srp.Lib.PyInt
import Srp.Lib.PyJson
import Srp.Lib.PyNum

namespace Srp.Lib.PyUnicode

open Srp.Lib.Lines Srp.Lib.PyInt Srp.Lib.PyNum
open Srp.Lib.PyJson (Json FloatText Blanks)

/-! ### Characters -/

inductive PyChar where
  | scalar (c : Char)
  | surrogate (half : Fin 2048)
deriving DecidableEq

abbrev PyStr := List PyChar

/-- The character of the escape `\ud800`. -/
def halfPair : PyChar := .surrogate 0

/-- `ord(c)`. -/
def PyChar.ord : PyChar → Nat
  | .scalar c => c.toNat
  | .surrogate half => 0xD800 + half

def PyChar.toChar? : PyChar → Option Char
  | .scalar c => some c
  | .surrogate _ => none

def ofText (t : Text) : PyStr := t.map .scalar

/-- `s.encode("utf-8")`, as the text that the octets stand for; `none` where it raises. -/
def encode (s : PyStr) : Option Text := s.mapM PyChar.toChar?

/-- The string without its surrogates; the same text where it encodes. -/
def scalars (s : PyStr) : Text := s.filterMap PyChar.toChar?

@[simp] theorem ofText_nil : ofText [] = [] := rfl

@[simp] theorem ofText_append (s t : Text) : ofText (s ++ t) = ofText s ++ ofText t :=
  List.map_append

@[simp] theorem scalars_ofText (t : Text) : scalars (ofText t) = t := by
  induction t with
  | nil => rfl
  | cons c t ih =>
    have hc : (PyChar.scalar c).toChar? = some c := rfl
    rw [ofText, List.map_cons, scalars, List.filterMap_cons_some hc]
    exact congrArg (c :: ·) ih

theorem encode_cons (c : PyChar) (s : PyStr) :
    encode (c :: s) = c.toChar?.bind fun d => (encode s).map (d :: ·) := by
  rw [encode, List.mapM_cons]
  cases c with
  | scalar c =>
    cases h : List.mapM PyChar.toChar? s with
    | none => simp [PyChar.toChar?, encode, h]
    | some t => simp [PyChar.toChar?, encode, h]
  | surrogate half => rfl

theorem encode_eq_some_iff {s : PyStr} {t : Text} : encode s = some t ↔ s = ofText t := by
  induction s generalizing t with
  | nil =>
    constructor
    · intro h
      obtain rfl := Option.some.inj h
      rfl
    · intro h
      obtain rfl := List.map_eq_nil_iff.mp h.symm
      rfl
  | cons c s ih =>
    rw [encode_cons]
    cases c with
    | surrogate half =>
      constructor
      · intro h
        cases h
      · intro h
        cases t with
        | nil => cases h
        | cons d t => cases (List.cons.inj h).1
    | scalar c =>
      constructor
      · intro h
        obtain ⟨u, hu, rfl⟩ := Option.map_eq_some_iff.mp h
        rw [ih.mp hu]
        rfl
      · intro h
        cases t with
        | nil => cases h
        | cons d t =>
          obtain ⟨hc, hs⟩ := List.cons.inj h
          obtain rfl := PyChar.scalar.inj hc
          exact Option.map_eq_some_iff.mpr ⟨t, ih.mpr hs, rfl⟩

@[simp] theorem encode_ofText (t : Text) : encode (ofText t) = some t :=
  encode_eq_some_iff.mpr rfl

/-- No character of the string is half of a surrogate pair. -/
def Encodes (s : PyStr) : Prop := ∀ c ∈ s, c.toChar?.isSome

instance (s : PyStr) : Decidable (Encodes s) := List.decidableBAll _ s

theorem encodes_ofText (t : Text) : Encodes (ofText t) := by
  intro c hc
  obtain ⟨d, _, rfl⟩ := List.mem_map.mp hc
  rfl

theorem Encodes.eq_ofText {s : PyStr} (h : Encodes s) : s = ofText (scalars s) := by
  induction s with
  | nil => rfl
  | cons c s ih =>
    cases c with
    | surrogate half => cases h _ List.mem_cons_self
    | scalar c =>
      have hs : Encodes s := fun d hd => h d (List.mem_cons_of_mem _ hd)
      have hc : (PyChar.scalar c).toChar? = some c := rfl
      rw [scalars, List.filterMap_cons_some hc, ofText, List.map_cons]
      exact congrArg (PyChar.scalar c :: ·) (ih hs)

theorem Encodes.scalars_eq_iff {s : PyStr} (h : Encodes s) {t : Text} :
    scalars s = t ↔ s = ofText t := by
  constructor
  · intro heq
    rw [h.eq_ofText, heq]
  · rintro rfl
    exact scalars_ofText t

theorem encode_eq_none_iff {s : PyStr} : encode s = none ↔ ¬ Encodes s := by
  rw [Option.eq_none_iff_forall_ne_some]
  constructor
  · intro h henc
    exact h _ (encode_eq_some_iff.mpr henc.eq_ofText)
  · intro h t ht
    apply h
    rw [encode_eq_some_iff.mp ht]
    exact encodes_ofText t

/-! ### Values -/

/-- A decoded document. -/
inductive Value where
  | null
  | bool (b : Bool)
  | int (n : Int)
  | float (x : FloatText)
  | str (s : PyStr)
  | arr (xs : List Value)
  | obj (fields : List (PyStr × Value))

namespace Value

/-- `d.get(key)`, with `None` for a key that is not there. -/
def get (fields : List (PyStr × Value)) (key : String) : Value :=
  (fields.lookup (ofText key.toList)).getD .null

mutual

/-- The value over texts, as one that holds no surrogate. -/
def ofJson : Json → Value
  | .null => .null
  | .bool b => .bool b
  | .int n => .int n
  | .float x => .float x
  | .str s => .str (ofText s)
  | .arr xs => .arr (ofElems xs)
  | .obj fields => .obj (ofFields fields)

def ofElems : List Json → List Value
  | [] => []
  | x :: xs => ofJson x :: ofElems xs

def ofFields : List (Text × Json) → List (PyStr × Value)
  | [] => []
  | (k, v) :: fields => (ofText k, ofJson v) :: ofFields fields

end

mutual

/-- The value with every string reduced to its scalars. -/
def toJson : Value → Json
  | .null => .null
  | .bool b => .bool b
  | .int n => .int n
  | .float x => .float x
  | .str s => .str (scalars s)
  | .arr xs => .arr (toElems xs)
  | .obj fields => .obj (toFields fields)

def toElems : List Value → List Json
  | [] => []
  | x :: xs => toJson x :: toElems xs

def toFields : List (PyStr × Value) → List (Text × Json)
  | [] => []
  | (k, v) :: fields => (scalars k, toJson v) :: toFields fields

end

mutual

@[simp] theorem toJson_ofJson : ∀ j, toJson (ofJson j) = j
  | .null => rfl
  | .bool _ => rfl
  | .int _ => rfl
  | .float _ => rfl
  | .str s => by rw [ofJson, toJson, scalars_ofText]
  | .arr xs => by rw [ofJson, toJson, toElems_ofElems xs]
  | .obj fields => by rw [ofJson, toJson, toFields_ofFields fields]

theorem toElems_ofElems : ∀ xs, toElems (ofElems xs) = xs
  | [] => rfl
  | x :: xs => by rw [ofElems, toElems, toJson_ofJson x, toElems_ofElems xs]

theorem toFields_ofFields : ∀ fields, toFields (ofFields fields) = fields
  | [] => rfl
  | (k, v) :: fields => by
    rw [ofFields, toFields, scalars_ofText, toJson_ofJson v, toFields_ofFields fields]

end

end Value

/-! ### Writing -/

/-- A surrogate is written as it is (`ensure_ascii=False`). -/
def escape : PyChar → PyStr
  | .scalar c => ofText (PyJson.escapeChar c)
  | .surrogate half => [.surrogate half]

def stringBody (s : PyStr) : PyStr := s.flatMap escape ++ ofText ['"']

mutual

/-- `json.dumps(value, ensure_ascii=False)`. -/
def dumps (b : Blanks) : Value → PyStr
  | .str s => ofText ['"'] ++ stringBody s
  | .arr xs => ofText ['['] ++ dumpsElems b xs
  | .obj fields => ofText ['\x7b'] ++ dumpsFields b fields
  | .null => ofText "null".toList
  | .bool true => ofText "true".toList
  | .bool false => ofText "false".toList
  | .int n => ofText (PyJson.intText n)
  | .float x => ofText x.1

/-- The elements of an array and its closing bracket. -/
def dumpsElems (b : Blanks) : List Value → PyStr
  | [] => ofText [']']
  | [x] => dumps b x ++ ofText [']']
  | x :: y :: ys =>
    dumps b x ++ (ofText (',' :: PyJson.blanks b) ++ dumpsElems b (y :: ys))

/-- The members of an object and its closing brace. -/
def dumpsFields (b : Blanks) : List (PyStr × Value) → PyStr
  | [] => ofText ['\x7d']
  | [(k, v)] => ofText ['"'] ++ (stringBody k ++ (ofText (':' :: PyJson.blanks b) ++
      (dumps b v ++ ofText ['\x7d'])))
  | (k, v) :: f :: fs => ofText ['"'] ++ (stringBody k ++ (ofText (':' :: PyJson.blanks b) ++
      (dumps b v ++ (ofText (',' :: PyJson.blanks b) ++ dumpsFields b (f :: fs)))))

end

theorem stringBody_ofText (t : Text) : stringBody (ofText t) = ofText (PyJson.stringBody t) := by
  rw [stringBody, PyJson.stringBody, ofText_append]
  congr 1
  induction t with
  | nil => rfl
  | cons c t ih =>
    rw [ofText, List.map_cons, List.flatMap_cons, List.flatMap_cons, ofText_append]
    exact congrArg (escape (.scalar c) ++ ·) ih

open Value

mutual

/-- A value without surrogates has the text that its texts give it. -/
theorem dumps_ofJson (b : Blanks) : ∀ j, dumps b (ofJson j) = ofText (PyJson.dumps b j)
  | .null => rfl
  | .bool true => rfl
  | .bool false => rfl
  | .int _ => rfl
  | .float _ => rfl
  | .str s => by
    rw [ofJson, dumps, PyJson.dumps, stringBody_ofText]
    rfl
  | .arr xs => by
    rw [ofJson, dumps, PyJson.dumps, dumpsElems_ofElems b xs]
    rfl
  | .obj fields => by
    rw [ofJson, dumps, PyJson.dumps, dumpsFields_ofFields b fields]
    rfl

theorem dumpsElems_ofElems (b : Blanks) :
    ∀ xs, dumpsElems b (ofElems xs) = ofText (PyJson.dumpsElems b xs)
  | [] => rfl
  | [x] => by
    rw [ofElems, ofElems, dumpsElems, PyJson.dumpsElems, dumps_ofJson b x, ofText_append]
  | x :: y :: ys => by
    have hrest := dumpsElems_ofElems b (y :: ys)
    rw [ofElems] at hrest
    rw [ofElems, ofElems, dumpsElems, PyJson.dumpsElems, dumps_ofJson b x, hrest, ofText_append,
      ← List.cons_append, ofText_append]

theorem dumpsFields_ofFields (b : Blanks) :
    ∀ fields, dumpsFields b (ofFields fields) = ofText (PyJson.dumpsFields b fields)
  | [] => rfl
  | [(k, v)] => by
    rw [ofFields, ofFields, dumpsFields, PyJson.dumpsFields, dumps_ofJson b v, stringBody_ofText]
    simp only [← ofText_append, List.cons_append, List.nil_append]
  | (k, v) :: f :: fs => by
    have hrest := dumpsFields_ofFields b (f :: fs)
    rw [ofFields] at hrest
    rw [ofFields, ofFields, dumpsFields, PyJson.dumpsFields, dumps_ofJson b v, stringBody_ofText,
      hrest]
    simp only [← ofText_append, List.cons_append, List.nil_append]

end

/-! ### Surrogates come through -/

@[simp] theorem encodes_append {s t : PyStr} : Encodes (s ++ t) ↔ Encodes s ∧ Encodes t :=
  List.forall_mem_append

theorem encodes_stringBody {s : PyStr} : Encodes (stringBody s) ↔ Encodes s := by
  rw [stringBody, encodes_append, and_iff_left (encodes_ofText _)]
  constructor
  · intro h c hc
    cases c with
    | scalar c => rfl
    | surrogate half =>
      exact h _ (List.mem_flatMap.mpr ⟨_, hc, List.mem_singleton.mpr rfl⟩)
  · intro h c hc
    obtain ⟨d, hd, hc⟩ := List.mem_flatMap.mp hc
    cases d with
    | scalar d => exact encodes_ofText _ c hc
    | surrogate half => cases h _ hd

theorem encodes_str_iff {b : Blanks} {s : PyStr} : Encodes (dumps b (.str s)) ↔ Encodes s := by
  rw [dumps, encodes_append, and_iff_right (encodes_ofText _), encodes_stringBody]

theorem encodes_arr_iff {b : Blanks} {xs : List Value} :
    Encodes (dumps b (.arr xs)) ↔ ∀ x ∈ xs, Encodes (dumps b x) := by
  rw [dumps, encodes_append, and_iff_right (encodes_ofText _)]
  induction xs with
  | nil => exact iff_of_true (encodes_ofText _) (by simp)
  | cons x xs ih =>
    cases xs with
    | nil => simp [dumpsElems, encodes_ofText]
    | cons y ys =>
      simp only [dumpsElems, encodes_append, encodes_ofText, true_and, ih, List.forall_mem_cons]

/-- The text of an object encodes iff its keys and the texts of its values do. -/
theorem encodes_obj_iff {b : Blanks} {fields : List (PyStr × Value)} :
    Encodes (dumps b (.obj fields)) ↔ ∀ f ∈ fields, Encodes f.1 ∧ Encodes (dumps b f.2) := by
  rw [dumps, encodes_append, and_iff_right (encodes_ofText _)]
  induction fields with
  | nil => exact iff_of_true (encodes_ofText _) (by simp)
  | cons f fields ih =>
    obtain ⟨k, v⟩ := f
    cases fields with
    | nil => simp [dumpsFields, encodes_ofText, encodes_stringBody]
    | cons g gs =>
      simp only [dumpsFields, encodes_append, encodes_stringBody, encodes_ofText, true_and, ih,
        List.forall_mem_cons, and_assoc]

/-! ### Texts and back -/

theorem toElems_eq_map (xs : List Value) : toElems xs = xs.map toJson := by
  induction xs with
  | nil => rfl
  | cons x xs ih => rw [toElems, ih, List.map_cons]

theorem toFields_eq_map (fields : List (PyStr × Value)) :
    toFields fields = fields.map fun f => (scalars f.1, toJson f.2) := by
  induction fields with
  | nil => rfl
  | cons f fields ih => rw [toFields, ih, List.map_cons]

mutual

/-- A value whose text encodes is one over texts. -/
theorem ofJson_toJson {b : Blanks} : ∀ v, Encodes (dumps b v) → ofJson (toJson v) = v
  | .null, _ => rfl
  | .bool _, _ => rfl
  | .int _, _ => rfl
  | .float _, _ => rfl
  | .str s, h => by rw [toJson, ofJson, ← (encodes_str_iff.mp h).eq_ofText]
  | .arr xs, h => by rw [toJson, ofJson, ofElems_toElems xs (encodes_arr_iff.mp h)]
  | .obj fields, h => by rw [toJson, ofJson, ofFields_toFields fields (encodes_obj_iff.mp h)]

theorem ofElems_toElems {b : Blanks} :
    ∀ xs, (∀ x ∈ xs, Encodes (dumps b x)) → ofElems (toElems xs) = xs
  | [], _ => rfl
  | x :: xs, h => by
    obtain ⟨hx, hxs⟩ := List.forall_mem_cons.mp h
    rw [toElems, ofElems, ofJson_toJson x hx, ofElems_toElems xs hxs]

theorem ofFields_toFields {b : Blanks} :
    ∀ fields, (∀ f ∈ fields, Encodes f.1 ∧ Encodes (dumps b f.2)) → ofFields (toFields fields) = fields
  | [], _ => rfl
  | (k, v) :: fields, h => by
    obtain ⟨⟨hk, hv⟩, hfields⟩ := List.forall_mem_cons.mp h
    rw [toFields, ofFields, ← hk.eq_ofText, ofJson_toJson v hv, ofFields_toFields fields hfields]

end

theorem encode_dumps {b : Blanks} {v : Value} (h : Encodes (dumps b v)) :
    encode (dumps b v) = some (PyJson.dumps b (toJson v)) := by
  rw [← ofJson_toJson v h, dumps_ofJson, encode_ofText, toJson_ofJson]

/-- In every object of the value the keys are distinct, as in a dictionary. -/
inductive Distinct : Value → Prop where
  | null : Distinct .null
  | bool (b : Bool) : Distinct (.bool b)
  | int (n : Int) : Distinct (.int n)
  | float (x : FloatText) : Distinct (.float x)
  | str (s : PyStr) : Distinct (.str s)
  | arr {xs : List Value} (elems : ∀ x ∈ xs, Distinct x) : Distinct (.arr xs)
  | obj {fields : List (PyStr × Value)} (keys : (fields.map (·.1)).Nodup)
      (values : ∀ f ∈ fields, Distinct f.2) : Distinct (.obj fields)

/-- Keys that encode stay distinct as texts. -/
theorem Distinct.toJson {b : Blanks} {v : Value} (hv : Distinct v) (h : Encodes (dumps b v)) :
    PyJson.Distinct (Value.toJson v) := by
  induction hv with
  | null => exact .null
  | bool _ => exact .bool _
  | int _ => exact .int _
  | float _ => exact .float _
  | str _ => exact .str _
  | @arr xs _ ih =>
    rw [Value.toJson, toElems_eq_map]
    apply PyJson.Distinct.arr
    intro j hj
    obtain ⟨x, hx, rfl⟩ := List.mem_map.mp hj
    exact ih x hx (encodes_arr_iff.mp h x hx)
  | @obj fields keys _ ih =>
    have hfields := encodes_obj_iff.mp h
    rw [Value.toJson, toFields_eq_map]
    apply PyJson.Distinct.obj
    · have hkeys : ∀ s ∈ fields.map (·.1), Encodes s := by
        intro s hs
        obtain ⟨f, hf, rfl⟩ := List.mem_map.mp hs
        exact (hfields f hf).1
      have hmap : (fields.map fun f => (scalars f.1, Value.toJson f.2)).map (·.1) =
          (fields.map (·.1)).map scalars := by
        rw [List.map_map, List.map_map]
        rfl
      rw [hmap]
      apply List.Nodup.map_on _ keys
      intro s hs t ht heq
      rw [(hkeys s hs).eq_ofText, (hkeys t ht).eq_ofText, heq]
    · intro f hf
      obtain ⟨g, hg, rfl⟩ := List.mem_map.mp hf
      exact ih g hg (hfields g hg).2

/-! ### What the readers ask of the interpreter -/

/-- The parts of the interpreter and its platform that the readers use: the Unicode database,
    the float of a token, `str()` of what is no string (whose `repr` escapes surrogates), the
    epochs that the platform's `gmtime` takes, and what paths are compared by (the code points
    of a name, lower-cased on Windows). -/
structure Interpreter where
  chars : PyChars
  ofToken : FloatText → PyFloat
  strOf : Value → Text
  gmtime : Int → Bool
  pathKey : PyStr → List Nat

variable (I : Interpreter)

def isSpace : PyChar → Bool
  | .scalar c => I.chars.isSpace c
  | .surrogate _ => false

/-- `s.strip()`. -/
def strip (s : PyStr) : PyStr :=
  ((s.dropWhile (isSpace I)).reverse.dropWhile (isSpace I)).reverse

/-- `str(value)`. -/
def pyStr : Value → PyStr
  | .str s => s
  | v => ofText (I.strOf v)

/-- `bool(value)`. -/
def truthy : Value → Bool
  | .null => false
  | .bool b => b
  | .int n => n ≠ 0
  | .float x => I.ofToken x ≠ .finite 0
  | .str s => s ≠ []
  | .arr xs => !xs.isEmpty
  | .obj fields => !fields.isEmpty

/-- `int(value)`, with `TypeError` and `ValueError` as one. -/
def intOf : Value → Except PyError Int
  | .bool b => .ok (if b then 1 else 0)
  | .int n => .ok n
  | .float x =>
    match I.ofToken x with
    | .finite q => .ok (trunc q)
    | .nan => .error .valueError
    | _ => .error .overflowError
  | .str s =>
    match (encode s).bind (pyInt I.chars) with
    | some n => .ok n
    | none => .error .valueError
  | _ => .error .valueError

end Srp.Lib.PyUnicode
