/-
  Srp/Zabbix/Reply.lean
  =====================
  **What the numbers of a reply come to.**

  Zabbix reports `processed: N; failed: M; total: T; seconds spent: X`, as one
  string in a JSON object, as it is or compressed.  `reply_counts` follows such a
  reply from the chunks of the connection to the result of its batch: the numbers
  arrive exactly, as long as they have twelve digits at most.
-/
import Srp.Zabbix.Packets

namespace Srp.Zabbix.Wire

open Srp.Lib Srp.Lib.Framing Srp.Lib.Lines Srp.Lib.Octets Srp.Lib.PyEncode Srp.Lib.PyInt
open Srp.Lib.PyUnicode

/-! ### Whole frames -/

variable {C : Codec}

theorem length_frame (flags : UInt8) (reserved : UInt32) (body : Bytes) :
    (frame flags reserved body).length = headerLen + body.length := by
  simp [frame, headerTag, headerLen]
  omega

theorem decodeHeader_header (flags : UInt8) (reserved : UInt32) {n : Nat}
    (h : n ≤ maxResponseBytes) (rest : Bytes) :
    decodeHeader (headerTag ++ [flags] ++ le32 n ++ le32 reserved.toNat ++ rest) =
      .ok ⟨flags, n, reserved.toNat⟩ := by
  have hfits : n < 2 ^ 32 := lt_of_le_of_lt h (by decide)
  generalize hraw : headerTag ++ [flags] ++ le32 n ++ le32 reserved.toNat ++ rest = raw
  have htag : raw.take 4 = headerTag := by rw [← hraw]; rfl
  have hflags : raw.getD 4 0 = flags := by rw [← hraw]; rfl
  have hlength : (raw.drop 5).take 4 = le32 n := by rw [← hraw]; rfl
  have hreserved : (raw.drop 9).take 4 = le32 reserved.toNat := by rw [← hraw]; rfl
  have hlong : ¬ raw.length < headerLen := by
    rw [← hraw]
    simp [headerTag, headerLen]
    omega
  have hok : checkDeclaredLength n = .ok () := if_neg (not_lt.mpr h)
  unfold decodeHeader
  rw [htag, hflags, hlength, hreserved, ofLe_le32 hfits, ofLe_le32 reserved.toNat_lt,
    if_neg (not_or.mpr ⟨hlong, not_not.mpr rfl⟩)]
  simp only [hok, Except.map]

/-- The bytes that the body of a frame stands for. -/
def plainBody (C : Codec) (flags : UInt8) (body : Bytes) : Except ProtocolError Bytes :=
  if flags &&& flagCompressed ≠ 0 then decompress C body else .ok body

theorem parseResponse_frame {flags : UInt8} (reserved : UInt32) {body text : Bytes}
    (hcap : body.length ≤ maxResponseBytes) (hplain : plainBody C flags body = .ok text) :
    parseResponse C (frame flags reserved body) = parseBody C text := by
  have hheader : decodeHeader (frame flags reserved body) =
      .ok ⟨flags, body.length, reserved.toNat⟩ := decodeHeader_header flags reserved hcap body
  have hbody : ((frame flags reserved body).drop headerLen).take body.length = body :=
    List.take_length
  unfold parseResponse
  rw [hheader]
  simp only [bind, Except.bind, hbody]
  rw [if_neg (lt_irrefl _)]
  unfold plainBody at hplain
  by_cases hflag : flags &&& flagCompressed ≠ 0
  · rw [if_pos hflag] at hplain ⊢
    rw [hplain]
  · rw [if_neg hflag] at hplain ⊢
    cases hplain
    rfl

theorem readResponse_frame {flags : UInt8} {reserved : UInt32} {body text : Bytes}
    (hcap : body.length ≤ maxResponseBytes) (hplain : plainBody C flags body = .ok text)
    {chunks : List Chunk} {more : Bytes}
    (hbytes : bytesOf chunks = frame flags reserved body ++ more) (ending : ErrorKind) :
    readResponse C ending chunks = protocolKind (parseBody C text) := by
  have hlength := length_frame flags reserved body
  have hheader : decodeHeader ((frame flags reserved body ++ more).take headerLen) =
      .ok ⟨flags, body.length, reserved.toNat⟩ := decodeHeader_header flags reserved hcap []
  rw [readResponse_eq, hbytes]
  unfold replyOf
  rw [hheader, if_neg (by rw [List.length_append]; omega)]
  simp only
  rw [if_neg (by rw [List.length_append]; omega),
    List.take_append_of_le_length (by omega), ← hlength, List.take_length,
    parseResponse_frame reserved hcap hplain]

/-! ### The numbers of `info` -/

/-- The database is Unicode's on ASCII. -/
structure Codec.ReadsAscii (C : Codec) : Prop where
  decimal : ∀ c, c.toNat < 128 → C.chars.decimal c = PyChars.ascii.decimal c
  isSpace : ∀ c, c.toNat < 128 → C.chars.isSpace c = PyChars.ascii.isSpace c
  isPrintable : ∀ c, c.toNat < 128 → C.isPrintable c = UnicodeData.ascii.isPrintable c

def digits (n : Nat) : Text := Nat.toDigits 10 n

theorem isDigit_of_mem_digits {n : Nat} {c : Char} (h : c ∈ digits n) : c.isDigit = true :=
  Nat.isDigit_of_mem_toDigits (by decide) (by decide) h

theorem toNat_of_isDigit {c : Char} (h : c.isDigit = true) : 48 ≤ c.toNat ∧ c.toNat ≤ 57 := by
  simp only [Char.isDigit, Bool.and_eq_true, decide_eq_true_eq] at h
  exact h

theorem length_digits_le {n : Nat} (h : n < 10 ^ 12) : (digits n).length ≤ 12 :=
  (Nat.length_toDigits_le_iff (by decide) (by decide)).mpr h

theorem Codec.ReadsAscii.readsDigits (hC : C.ReadsAscii) : C.chars.ReadsDigits := by
  intro c hc
  have hascii : c.toNat < 128 := by
    have := toNat_of_isDigit hc
    omega
  rw [hC.decimal c hascii, hC.isSpace c hascii]
  exact readsDigits_ascii c hc

theorem isDecimal_digit (hC : C.ReadsAscii) {c : Char} (h : c.isDigit = true) :
    isDecimal C c = true := by
  simp [isDecimal, (hC.readsDigits c h).1]

theorem count_digits (hC : C.ReadsAscii) {n : Nat} (h : n < 10 ^ 12) :
    count C (digits n) = some n := by
  have hlength := length_digits_le h
  have hne : digits n ≠ [] := Nat.toDigits_ne_nil
  have hread := pyInt_toDigits hC.readsDigits n
  rw [if_neg (by unfold digits at hlength; unfold maxStrDigits; omega)] at hread
  unfold count
  rw [if_neg (by simp [hne]; omega)]
  simp [digits, hread]

/-- A text at which a run of digits ends. -/
def EndsRun (C : Codec) (t : Text) : Prop := ∀ c ∈ t.head?, isDecimal C c = false

theorem takeWhile_digits (hC : C.ReadsAscii) (n : Nat) {rest : Text} (h : EndsRun C rest) :
    (digits n ++ rest).takeWhile (isDecimal C) = digits n ∧
      (digits n ++ rest).dropWhile (isDecimal C) = rest := by
  have hall : ∀ c ∈ digits n, isDecimal C c = true :=
    fun c hc => isDecimal_digit hC (isDigit_of_mem_digits hc)
  have hrest : rest.takeWhile (isDecimal C) = [] ∧ rest.dropWhile (isDecimal C) = rest := by
    cases rest with
    | nil => exact ⟨rfl, rfl⟩
    | cons c t =>
      have hc : isDecimal C c = false := h c rfl
      exact ⟨List.takeWhile_cons_of_neg (by simp [hc]), List.dropWhile_cons_of_neg (by simp [hc])⟩
  rw [List.takeWhile_append_of_pos hall, List.dropWhile_append_of_pos hall, hrest.1, hrest.2]
  exact ⟨List.append_nil _, rfl⟩

theorem matchField_digits (hC : C.ReadsAscii) (name : Text) (n : Nat) {rest : Text}
    (h : EndsRun C rest) :
    matchField C name (name ++ ' ' :: (digits n ++ rest)) = some (digits n, rest) := by
  have hblank : C.chars.isSpace ' ' = true := hC.isSpace ' ' (by decide)
  have hdigits : (digits n ++ rest).dropWhile C.chars.isSpace = digits n ++ rest := by
    cases hd : digits n with
    | nil => exact absurd hd Nat.toDigits_ne_nil
    | cons c t =>
      have hc := isDigit_of_mem_digits (n := n) (c := c) (by rw [hd]; exact List.mem_cons_self)
      exact List.dropWhile_cons_of_neg (by simp [(hC.readsDigits c hc).2])
  obtain ⟨htake, hdrop⟩ := takeWhile_digits hC n h
  unfold matchField
  rw [if_pos (List.isPrefixOf_iff_prefix.mpr (List.prefix_append _ _)), List.drop_left,
    List.dropWhile_cons_of_pos hblank, hdigits]
  simp only [htake, hdrop]
  exact if_neg Nat.toDigits_ne_nil

theorem matchOptional_digits (hC : C.ReadsAscii) {name : Text} (n : Nat) {rest : Text}
    (hname : ∀ c ∈ name.head?, C.chars.isSpace c = false) (hne : name ≠ [])
    (h : EndsRun C rest) :
    matchOptional C name (';' :: ' ' :: (name ++ ' ' :: (digits n ++ rest))) =
      (some (digits n), rest) := by
  have hblank : C.chars.isSpace ' ' = true := hC.isSpace ' ' (by decide)
  have hstart : (name ++ ' ' :: (digits n ++ rest)).dropWhile C.chars.isSpace =
      name ++ ' ' :: (digits n ++ rest) := by
    cases name with
    | nil => exact absurd rfl hne
    | cons c t =>
      have hc : C.chars.isSpace c = false := hname c rfl
      exact List.dropWhile_cons_of_neg (by simp [hc])
  simp only [matchOptional]
  rw [List.dropWhile_cons_of_pos hblank, hstart, matchField_digits hC name n h]

/-! ### The whole report -/

/-- `processed: p; failed: f; total: t`, and what follows. -/
def report (p f t : Nat) (rest : Text) : Text :=
  processedName ++ ' ' :: (digits p ++ ';' :: ' ' :: (failedName ++
    ' ' :: (digits f ++ ';' :: ' ' :: (totalName ++ ' ' :: (digits t ++ rest)))))

theorem endsRun_semicolon (hC : C.ReadsAscii) (t : Text) : EndsRun C (';' :: t) := by
  intro c hc
  obtain rfl : ';' = c := by simpa using hc
  rw [isDecimal, hC.decimal ';' (by decide)]
  rfl

theorem searchInfo_report (hC : C.ReadsAscii) (p f t : Nat) (rest : Text) :
    searchInfo C (report p f t (';' :: rest)) =
      some ⟨digits p, some (digits f), some (digits t)⟩ := by
  have hf : ∀ c ∈ failedName.head?, C.chars.isSpace c = false := by
    rintro c ⟨⟩
    exact hC.isSpace 'f' (by decide)
  have ht : ∀ c ∈ totalName.head?, C.chars.isSpace c = false := by
    rintro c ⟨⟩
    exact hC.isSpace 't' (by decide)
  have hmatch : matchInfo C (report p f t (';' :: rest)) =
      some ⟨digits p, some (digits f), some (digits t)⟩ := by
    unfold matchInfo report
    rw [matchField_digits hC processedName p (endsRun_semicolon hC _)]
    simp only
    rw [matchOptional_digits hC f hf (by decide) (endsRun_semicolon hC _)]
    simp only
    rw [matchOptional_digits hC t ht (by decide) (endsRun_semicolon hC _)]
  have hcons : report p f t (';' :: rest) = 'p' :: (report p f t (';' :: rest)).tail := rfl
  rw [hcons] at hmatch ⊢
  rw [searchInfo, hmatch]

theorem length_report {p f t : Nat} (hp : (digits p).length ≤ 12) (hf : (digits f).length ≤ 12)
    (ht : (digits t).length ≤ 12) (rest : Text) :
    (report p f t rest).length ≤ rest.length + 70 := by
  have hprocessed : processedName.length = 10 := rfl
  have hfailed : failedName.length = 7 := rfl
  have htotal : totalName.length = 6 := rfl
  unfold report
  simp only [List.length_append, List.length_cons, hprocessed, hfailed, htotal]
  omega

def isGraphic (c : Char) : Bool := 32 ≤ c.toNat && c.toNat < 127

theorem isPrintable_of_isGraphic (hC : C.ReadsAscii) {c : Char} (h : isGraphic c = true) :
    C.isPrintable c = true := by
  simp only [isGraphic, Bool.and_eq_true, decide_eq_true_eq] at h
  rw [hC.isPrintable c (by omega)]
  simp [UnicodeData.ascii, h.1, h.2]

theorem filter_graphic (hC : C.ReadsAscii) {word : Text} (h : word.all isGraphic = true) :
    word.filter C.isPrintable = word := by
  rw [List.filter_eq_self]
  intro c hc
  exact isPrintable_of_isGraphic hC (List.all_eq_true.mp h c hc)

theorem filter_digits (hC : C.ReadsAscii) (n : Nat) :
    (digits n).filter C.isPrintable = digits n := by
  apply filter_graphic hC
  rw [List.all_eq_true]
  intro c hc
  have hrange := toNat_of_isDigit (isDigit_of_mem_digits hc)
  simp only [isGraphic, Bool.and_eq_true, decide_eq_true_eq]
  omega

theorem filter_cons_graphic (hC : C.ReadsAscii) {c : Char} (h : isGraphic c = true) (t : Text) :
    (c :: t).filter C.isPrintable = c :: t.filter C.isPrintable :=
  List.filter_cons_of_pos (isPrintable_of_isGraphic hC h)

theorem filter_report (hC : C.ReadsAscii) (p f t : Nat) (rest : Text) :
    (report p f t rest).filter C.isPrintable = report p f t (rest.filter C.isPrintable) := by
  have hprocessed : processedName.filter C.isPrintable = processedName :=
    filter_graphic hC (by decide)
  have hfailed : failedName.filter C.isPrintable = failedName := filter_graphic hC (by decide)
  have htotal : totalName.filter C.isPrintable = totalName := filter_graphic hC (by decide)
  have hblank : isGraphic ' ' = true := by decide
  have hsemicolon : isGraphic ';' = true := by decide
  unfold report
  simp only [List.filter_append, filter_cons_graphic hC hblank, filter_cons_graphic hC hsemicolon,
    filter_digits hC, hprocessed, hfailed, htotal]

/-- The `info` of a reply: the numbers, and whatever is said of the time. -/
def infoValue (p f t : Nat) (x : PyStr) : Value := .str (ofText (report p f t [';']) ++ x)

theorem report_append (p f t : Nat) (s rest : Text) :
    report p f t s ++ rest = report p f t (s ++ rest) := by
  simp only [report, List.append_assoc, List.cons_append]

theorem infoText_report (hC : C.ReadsAscii) {p f t : Nat} (hp : p < 10 ^ 12) (hf : f < 10 ^ 12)
    (ht : t < 10 ^ 12) (x : PyStr) :
    ∃ rest, infoText C (infoValue p f t x) = report p f t (';' :: rest) := by
  have hlength := length_report (length_digits_le hp) (length_digits_le hf) (length_digits_le ht)
    [';']
  have htruthy : truthy C.toInterpreter (infoValue p f t x) = true := by
    simp [infoValue, truthy, report, ofText]
  have hscalars : scalars (ofText (report p f t [';']) ++ x) =
      report p f t (';' :: scalars x) := by
    have happend : scalars (ofText (report p f t [';']) ++ x) =
        scalars (ofText (report p f t [';'])) ++ scalars x := List.filterMap_append
    rw [happend, scalars_ofText, report_append]
    rfl
  have hprint : printable C (ofText (report p f t [';']) ++ x) =
      report p f t [';'] ++ (scalars x).filter C.isPrintable := by
    unfold printable
    rw [hscalars, filter_report hC, filter_cons_graphic hC (by decide), report_append]
    rfl
  unfold infoText
  rw [if_pos htruthy]
  refine ⟨((scalars x).filter C.isPrintable).take (maxInfoChars - (report p f t [';']).length), ?_⟩
  show (printable C (ofText (report p f t [';']) ++ x)).take maxInfoChars = _
  rw [hprint, List.take_append, List.take_of_length_le (by unfold maxInfoChars; simp at hlength; omega),
    report_append]
  rfl

theorem readObject_report (hC : C.ReadsAscii) {p f t : Nat} (hp : p < 10 ^ 12) (hf : f < 10 ^ 12)
    (ht : t < 10 ^ 12) {fields : List (PyStr × Value)} {x : PyStr}
    (hinfo : Value.get fields "info" = infoValue p f t x) :
    (readObject C fields).toResponse =
      ⟨isSuccess (Value.get fields "response"), some p, some f, some t⟩ := by
  obtain ⟨rest, htext⟩ := infoText_report hC hp hf ht x
  unfold readObject
  simp only [hinfo, htext, searchInfo_report hC, Option.bind_some, count_digits hC hp,
    count_digits hC hf, count_digits hC ht]

/-- **The numbers of a reply.**  A reply that reports its numbers, as a whole frame at the front of
    what the connection hands over, gives its batch just these numbers if it says `success`, and a
    refusal of the whole batch if it says anything else, whatever its reserved word says. -/
theorem reply_counts (hC : C.ReadsAscii) {p f t : Nat} (hp : p < 10 ^ 12) (hf : f < 10 ^ 12)
    (ht : t < 10 ^ 12) {text : Text} {fields : List (PyStr × Value)} {x : PyStr}
    (hload : C.loads text = some (.obj fields))
    (hinfo : Value.get fields "info" = infoValue p f t x) {flags : UInt8} {reserved : UInt32}
    {body : Bytes} (hcap : body.length ≤ maxResponseBytes)
    (hplain : plainBody C flags body = .ok (encodeUtf8 text)) {e : Exchange}
    (hreach : e.unreached = none) {more : Bytes}
    (hbytes : bytesOf e.chunks = frame flags reserved body ++ more) (items : List Item) :
    Zabbix.sendBatch items (e.answer C) =
      if isSuccess (Value.get fields "response") then ⟨p, f, t, none⟩
      else ⟨0, 0, items.length, some .rejected⟩ := by
  have hparse : parseBody C (encodeUtf8 text) = .ok (readObject C fields) := by
    unfold parseBody
    rw [fromUTF8?_encodeUtf8, Option.bind_some, String.toList_ofList, hload]
  have hanswer : e.answer C = .response (readObject C fields).toResponse := by
    unfold Exchange.answer
    rw [hreach, readResponse_frame hcap hplain hbytes e.ending, hparse]
    rfl
  rw [hanswer, readObject_report hC hp hf ht hinfo]
  cases isSuccess (Value.get fields "response") <;> rfl

/-- Adler-32, the checksum behind a `zlib` stream. -/
private def adler32 (bs : Bytes) : Nat :=
  let sums := bs.foldl (fun (s : Nat × Nat) b =>
    ((s.1 + b.toNat) % 65521, (s.2 + s.1 + b.toNat) % 65521)) (1, 0)
  sums.2 * 65536 + sums.1

/-- What `zlib` makes of a stream of one stored block: its two octets, the header of the block with
    the length and its complement, the bytes, and their checksum. -/
private def unpackStored (body : Bytes) (cap : Nat) : Option Unpacked :=
  let n := ofLe ((body.drop 3).take 2)
  let out := (body.drop 7).take n
  if body.take 3 = [0x78, 0x01, 0x01] ∧ ofLe ((body.drop 5).take 2) = 65535 - n ∧
      body.length = n + 11 ∧ ofOctets (body.drop (n + 7)) = adler32 out then
    some ⟨out.take cap, n ≤ cap⟩
  else none

private def storedCodec : Codec where
  chars := .ascii
  ofToken _ := .nan
  strOf _ := []
  gmtime _ := true
  pathKey name := name.map PyChar.ord
  loads t := (PyJson.loads t).map Value.ofJson
  unpack := unpackStored
  isPrintable := UnicodeData.ascii.isPrintable

/-- `{"response":"success","info":"processed: 2; failed: 1; total: 3;"}`. -/
private def successJson : PyJson.Json :=
  .obj [("response".toList, .str "success".toList), ("info".toList, .str (report 2 1 3 [';']))]

private def successBody : Bytes := encodeUtf8 (PyJson.dumps 0 successJson)

/-- The same, compressed. -/
private def successStream : Bytes :=
  [0x78, 0x01, 0x01, 0x42, 0x00, 0xBD, 0xFF] ++ successBody ++ [0xF6, 0xDC, 0x15, 0xA3]

/-- The reply in two chunks, with one octet more than there should be. -/
private def successExchange (flags : UInt8) (reserved : UInt32) (body : Bytes) : Exchange where
  unreached := none
  chunks := [⟨headerTag, by decide⟩, ⟨(frame flags reserved body).drop 4 ++ [0], by simp⟩]
  ending := .timeout

theorem reply_counts_success :
    Zabbix.sendBatch [⟨"PC-1", "srp.state", "ok"⟩]
        ((successExchange flagZabbix 0 successBody).answer storedCodec) = ⟨2, 1, 3, none⟩ ∧
      Zabbix.sendBatch [⟨"PC-1", "srp.state", "ok"⟩]
        ((successExchange (flagZabbix ||| flagCompressed) 66 successStream).answer storedCodec) =
          ⟨2, 1, 3, none⟩ := by
  have hC : storedCodec.ReadsAscii := ⟨fun _ _ => rfl, fun _ _ => rfl, fun _ _ => rfl⟩
  have hdistinct : PyJson.Distinct successJson := by
    apply PyJson.Distinct.obj
    · simp only [List.map_cons, List.map_nil]
      decide
    · simp only [List.forall_mem_cons]
      exact ⟨.str _, .str _, by simp⟩
  have hload : storedCodec.loads (PyJson.dumps 0 successJson) =
      some (Value.ofJson successJson) := by
    simp only [storedCodec, PyJson.loads_dumps 0 hdistinct, Option.map_some]
  have hinfo : Value.get [(ofText "response".toList, .str (ofText "success".toList)),
      (ofText "info".toList, .str (ofText (report 2 1 3 [';'])))] "info" = infoValue 2 1 3 [] := by
    rw [infoValue, List.append_nil]
    rfl
  have hbytes : ∀ flags reserved body,
      bytesOf (successExchange flags reserved body).chunks = frame flags reserved body ++ [0] := by
    intro flags reserved body
    simp [bytesOf, successExchange]
    rfl
  have hunpack : plainBody storedCodec (flagZabbix ||| flagCompressed) successStream =
      .ok successBody := by
    decide +kernel
  exact ⟨reply_counts hC (by decide) (by decide) (by decide) hload hinfo (by decide +kernel) rfl rfl
      (hbytes _ _ _) _,
    reply_counts hC (by decide) (by decide) (by decide) hload hinfo (by decide +kernel) hunpack rfl
      (hbytes _ _ _) _⟩

end Srp.Zabbix.Wire
