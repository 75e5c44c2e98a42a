/-
  Srp/Netdisco/Credentials.lean
  =============================
  **The credential store** (`server/netdisco/credentials.py`).

  The file holds a JSON object with two namespaces of names, each name with the Base64
  text of an encrypted secret.  A call that sets a name reads the whole file, changes the
  entry and writes the whole file.  Reading answers with an empty store when the file is
  larger than the cap; writing does not look at the cap.  So the store is a map as long
  as every file it writes is within the cap, and with the first file above it all names
  are lost (`store_map_iff`).

  The cipher and the JSON text of a file are parameters: the cipher may answer
  differently each time, and what is written can be read back.
-/
import Srp.Lib.Base64
import Srp.Lib.PyEncode
import Srp.Lib.PyJson
import Srp.Lib.Table

namespace Srp.Netdisco.Credentials

open Srp.Lib Srp.Lib.Lines Srp.Lib.Octets Srp.Lib.PyEncode Srp.Lib.PyJson

/-! ### What the store is given -/

/-- What `base64`, the cipher and the codec raise. -/
inductive StoreError where
  | valueError
  | typeError
  | osError
  | runtimeError
deriving DecidableEq, Repr

/-- `json.dumps` to the octets of a file, and `json.loads` of them, `none` where it raises.
A dictionary has distinct keys; what is written is read back. -/
structure JsonFile where
  dumps : Json → Bytes
  loads : Bytes → Option Json
  distinct_loads : ∀ {bytes : Bytes} {j : Json}, loads bytes = some j → Distinct j
  loads_dumps : ∀ {j : Json}, Distinct j → loads (dumps j) = some j

abbrev Dict := List (Text × Json)

/-- `d[k] = v`. -/
def Dict.set (d : Dict) (k : Text) (v : Json) : Dict :=
  Table.upsert Prod.fst (fun _ new => new) (k, v) d

/-- `d.get(k)`. -/
def Dict.get (d : Dict) (k : Text) : Option Json := (Table.row Prod.fst d k).map (·.2)

/-! ### The store -/

def maxStoreBytes : Nat := 1048576

/-- A `CredentialStore`: what it is built with. -/
structure Store where
  json : JsonFile
  unprotect : Bytes → Except StoreError Bytes
  available : Bool

inductive Section where
  | communities
  | secrets
deriving DecidableEq, Repr

def Section.key : Section → Text
  | .communities => "communities".toList
  | .secrets => "secrets".toList

variable (S : Store)

/-- `_load`; there may be no file. -/
def load (file : Option Bytes) : Dict :=
  match file with
  | none => []
  | some bytes =>
    if bytes.length > maxStoreBytes then []
    else
      match S.json.loads bytes with
      | some (.obj fields) => fields
      | _ => []

/-- `data.get(section)` where it is a dictionary. -/
def entries (data : Dict) (sec : Section) : Dict :=
  match data.get sec.key with
  | some (.obj fields) => fields
  | _ => []

/-- The data with one more blob. -/
def put (data : Dict) (sec : Section) (name : Text) (blob : Bytes) : Dict :=
  data.set sec.key (.obj ((entries data sec).set name (.str (Base64.encode blob))))

/-- The new content of the file; `protect` is the cipher as this call finds it. -/
def setIn (sec : Section) (protect : Bytes → Except StoreError Bytes) (name secret : Text)
    (file : Option Bytes) : Except StoreError (Option Bytes) :=
  if ¬ S.available then .error .runtimeError
  else
    (protect (encodeUtf8 secret)).map fun blob =>
      some (S.json.dumps (.obj (put (load S file) sec name blob)))

def setCommunity := setIn S .communities
def setSecret := setIn S .secrets

/-- `base64.b64decode(value, validate=True)` of a value of the file. -/
def b64decode : Json → Except StoreError Bytes
  | .str s =>
    match Base64.decode s with
    | some blob => .ok blob
    | none => .error .valueError
  | _ => .error .typeError

/-- `data.decode("utf-8")`. -/
def decodeUtf8 (data : Bytes) : Except StoreError Text :=
  match String.fromUTF8? ⟨data.toArray⟩ with
  | some s => .ok s.toList
  | none => .error .valueError

/-- `except (ValueError, OSError, RuntimeError): return None`. -/
def orNone (secret : Except StoreError Text) : Except StoreError (Option Text) :=
  match secret with
  | .ok secret => .ok (some secret)
  | .error .typeError => .error .typeError
  | .error _ => .ok none

/-- The secret that a value of the file stands for. -/
def reveal (value : Json) : Except StoreError (Option Text) :=
  orNone do
    let blob ← b64decode value
    let data ← S.unprotect blob
    decodeUtf8 data

/-- The secret under a name of the data. -/
def secretOf (data : Dict) (sec : Section) (name : Text) : Except StoreError (Option Text) :=
  match (entries data sec).get name with
  | none => .ok none
  | some value => reveal S value

def getIn (sec : Section) (name : Text) (file : Option Bytes) :
    Except StoreError (Option Text) :=
  if ¬ S.available then .ok none else secretOf S (load S file) sec name

def getCommunity := getIn S .communities
def getSecret := getIn S .secrets

/-! ### Dictionaries -/

section Dictionaries

variable {d : Dict} {k k' : Text} {v : Json}

theorem Dict.get_set : (d.set k v).get k' = if k' = k then some v else d.get k' := by
  unfold Dict.get Dict.set
  rw [Table.row_upsert fun _ _ => rfl]
  by_cases h : k' = k
  · cases hrow : Table.row Prod.fst d k' <;> simp [h]
  · simp [h]

theorem Dict.keys_set (h : (d.map (·.1)).Nodup) : ((d.set k v).map (·.1)).Nodup :=
  Table.nodup_keys_upsert (fun _ _ => rfl) h

theorem Dict.mem_set {f : Text × Json} (h : f ∈ d.set k v) : f ∈ d ∨ f.2 = v := by
  rcases Table.mem_upsert h with h | rfl | ⟨old, -, rfl⟩
  · exact .inl h
  · exact .inr rfl
  · exact .inr rfl

theorem Dict.get_mem (h : d.get k = some v) : ∃ f ∈ d, f.2 = v := by
  obtain ⟨f, hf, rfl⟩ := Option.map_eq_some_iff.mp h
  exact ⟨f, (Table.row_eq_some hf).1, rfl⟩

end Dictionaries

/-! ### What is written can be read -/

section Loading

variable {S : Store} {file : Option Bytes} {data : Dict} {sec sec' : Section}
  {name name' secret : Text} {blob : Bytes}

theorem distinct_set {d : Dict} {k : Text} {v : Json} (h : Distinct (.obj d)) (hv : Distinct v) :
    Distinct (.obj (d.set k v)) := by
  cases h with
  | obj hkeys hvalues =>
    refine .obj (Dict.keys_set hkeys) ?_
    intro f hf
    rcases Dict.mem_set hf with hf | heq
    · exact hvalues f hf
    · exact heq ▸ hv

theorem distinct_nil : Distinct (.obj []) :=
  .obj List.nodup_nil fun _ hf => absurd hf List.not_mem_nil

theorem distinct_load : Distinct (.obj (load S file)) := by
  unfold load
  split
  · exact distinct_nil
  · split_ifs
    · exact distinct_nil
    · split
      · next hloads => exact S.json.distinct_loads hloads
      · exact distinct_nil

theorem distinct_entries (h : Distinct (.obj data)) : Distinct (.obj (entries data sec)) := by
  unfold entries
  split
  · next fields hget =>
    obtain ⟨f, hf, heq⟩ := Dict.get_mem hget
    cases h with
    | obj hkeys hvalues => exact heq ▸ hvalues f hf
  · exact distinct_nil

theorem distinct_put (h : Distinct (.obj data)) : Distinct (.obj (put data sec name blob)) :=
  distinct_set h (distinct_set (distinct_entries h) (.str _))

/-- A file within the cap is read back; a larger one is an empty store. -/
theorem load_dumps (h : Distinct (.obj data)) :
    load S (some (S.json.dumps (.obj data))) =
      if (S.json.dumps (.obj data)).length ≤ maxStoreBytes then data else [] := by
  simp only [load, S.json.loads_dumps h]
  split_ifs with hlarge hsmall hsmall
  · omega
  · rfl
  · rfl
  · omega

theorem load_put (file : Option Bytes) (sec : Section) (name : Text) (blob : Bytes) :
    load S (some (S.json.dumps (.obj (put (load S file) sec name blob)))) =
      if (S.json.dumps (.obj (put (load S file) sec name blob))).length ≤ maxStoreBytes then
        put (load S file) sec name blob
      else [] :=
  load_dumps (distinct_put distinct_load)

end Loading

/-! ### One name -/

section Names

variable {S : Store} {file : Option Bytes} {data : Dict} {sec sec' : Section}
  {name name' secret : Text} {blob : Bytes}

theorem key_inj (h : sec.key = sec'.key) : sec = sec' := by
  revert h
  cases sec <;> cases sec' <;> decide

theorem entries_put : entries (put data sec name blob) sec' =
    if sec' = sec then (entries data sec).set name (.str (Base64.encode blob))
    else entries data sec' := by
  rw [entries, put, Dict.get_set]
  by_cases h : sec' = sec
  · simp [h]
  · rw [if_neg (mt key_inj h), if_neg h, entries]

theorem decodeUtf8_encodeUtf8 : decodeUtf8 (encodeUtf8 secret) = .ok secret := by
  rw [decodeUtf8, fromUTF8?_encodeUtf8]
  simp

theorem reveal_encode (h : S.unprotect blob = .ok (encodeUtf8 secret)) :
    reveal S (.str (Base64.encode blob)) = .ok (some secret) := by
  have hblob : b64decode (.str (Base64.encode blob)) = .ok blob := by
    rw [b64decode, Base64.decode_encode]
  rw [reveal, hblob]
  change orNone (S.unprotect blob >>= decodeUtf8) = _
  rw [h]
  change orNone (decodeUtf8 (encodeUtf8 secret)) = _
  rw [decodeUtf8_encodeUtf8, orNone]

/-- The entry that is put is found under its name; every other name keeps what it had. -/
theorem secretOf_put (h : S.unprotect blob = .ok (encodeUtf8 secret)) :
    secretOf S (put data sec name blob) sec' name' =
      if sec' = sec ∧ name' = name then .ok (some secret) else secretOf S data sec' name' := by
  unfold secretOf
  rw [entries_put]
  by_cases hsec : sec' = sec
  · subst hsec
    rw [if_pos rfl, Dict.get_set]
    by_cases hname : name' = name
    · simp [hname, reveal_encode h]
    · simp [hname]
  · simp [hsec]

theorem secretOf_nil : secretOf S [] sec name = .ok none := rfl

end Names

/-! ### Runs of calls -/

/-- A call of `set_community` or `set_secret`, with the cipher as it finds it: what that one
encrypts the store can decrypt. -/
structure SetCall (S : Store) where
  sec : Section
  name : Text
  secret : Text
  protect : Bytes → Except StoreError Bytes
  inverse : ∀ {data blob : Bytes}, protect data = .ok blob → S.unprotect blob = .ok data

section Runs

variable (S : Store)

def SetCall.run {S : Store} (c : SetCall S) : Option Bytes → Except StoreError (Option Bytes) :=
  match c.sec with
  | .communities => setCommunity S c.protect c.name c.secret
  | .secrets => setSecret S c.protect c.name c.secret

/-- The file after several calls, if they all return. -/
def setAll (file : Option Bytes) : List (SetCall S) → Except StoreError (Option Bytes)
  | [] => .ok file
  | c :: calls =>
    match c.run file with
    | .ok file => setAll file calls
    | .error e => .error e

/-- What `get_community` and `get_secret` answer. -/
def answers (file : Option Bytes) : Section → Text → Except StoreError (Option Text)
  | .communities => fun name => getCommunity S name file
  | .secrets => fun name => getSecret S name file

/-- What a map would answer after several calls: the last secret that was set under a name, and
for a name that was not set what it had before. -/
def expected (before : Section → Text → Except StoreError (Option Text)) :
    List (SetCall S) → Section → Text → Except StoreError (Option Text)
  | [] => before
  | c :: calls =>
    expected (fun sec name =>
      if sec = c.sec ∧ name = c.name then .ok (some c.secret) else before sec name) calls

/-- The data that the calls put together, one entry after the other, when nothing is lost. -/
def document (data : Dict) : List (SetCall S) → Dict
  | [] => data
  | c :: calls =>
    match c.protect (encodeUtf8 c.secret) with
    | .ok blob => document (put data c.sec c.name blob) calls
    | .error _ => document data calls

/-- Whatever the calls set so far, the file they write for it is within the cap. -/
def WithinCap (file : Option Bytes) (calls : List (SetCall S)) : Prop :=
  ∀ k, 0 < k → k ≤ calls.length →
    (S.json.dumps (.obj (document S (load S file) (calls.take k)))).length ≤ maxStoreBytes

/-- After each of the calls the store answers as a map would. -/
def AnswersAsMap (file : Option Bytes) (calls : List (SetCall S)) : Prop :=
  ∀ k f, setAll S file (calls.take k) = .ok f → ∀ sec name,
    answers S f sec name = expected S (answers S file) (calls.take k) sec name

variable {S} {file : Option Bytes} {c : SetCall S} {calls : List (SetCall S)}

theorem run_eq : c.run file = setIn S c.sec c.protect c.name c.secret file := by
  unfold SetCall.run
  cases c.sec <;> rfl

theorem answers_eq {sec : Section} {name : Text} :
    answers S file sec name = if ¬ S.available then .ok none
      else secretOf S (load S file) sec name := by
  cases sec <;> rfl

/-- A call that returns: the cipher answered, and the file is that of the data with the entry. -/
theorem run_ok {f : Option Bytes} (h : c.run file = .ok f) :
    S.available = true ∧ ∃ blob, c.protect (encodeUtf8 c.secret) = .ok blob ∧
      f = some (S.json.dumps (.obj (put (load S file) c.sec c.name blob))) := by
  rw [run_eq, setIn] at h
  split_ifs at h with havailable
  · cases hblob : c.protect (encodeUtf8 c.secret) with
    | error e =>
      rw [hblob] at h
      cases h
    | ok blob =>
      rw [hblob] at h
      exact ⟨havailable, blob, rfl, (Except.ok.inj h).symm⟩

/-- Within the cap, one call changes the answer under its name and no other. -/
theorem answers_run {f : Option Bytes} {blob : Bytes} (hrun : c.run file = .ok f)
    (hblob : c.protect (encodeUtf8 c.secret) = .ok blob)
    (hcap : (S.json.dumps (.obj (put (load S file) c.sec c.name blob))).length ≤ maxStoreBytes) :
    load S f = put (load S file) c.sec c.name blob ∧ ∀ sec name, answers S f sec name =
      if sec = c.sec ∧ name = c.name then .ok (some c.secret) else answers S file sec name := by
  obtain ⟨havailable, blob', hblob', rfl⟩ := run_ok hrun
  obtain rfl := Except.ok.inj (hblob.symm.trans hblob')
  have hload := load_put (S := S) file c.sec c.name blob
  rw [if_pos hcap] at hload
  refine ⟨hload, ?_⟩
  intro sec name
  rw [answers_eq, answers_eq, hload, secretOf_put (c.inverse hblob)]
  simp [havailable]

/-- Above the cap, what was just set is gone. -/
theorem answers_run_large {f : Option Bytes} {blob : Bytes} (hrun : c.run file = .ok f)
    (hblob : c.protect (encodeUtf8 c.secret) = .ok blob)
    (hcap : ¬ (S.json.dumps (.obj (put (load S file) c.sec c.name blob))).length ≤
      maxStoreBytes) (sec : Section) (name : Text) : answers S f sec name = .ok none := by
  obtain ⟨havailable, blob', hblob', rfl⟩ := run_ok hrun
  obtain rfl := Except.ok.inj (hblob.symm.trans hblob')
  have hload := load_put (S := S) file c.sec c.name blob
  rw [if_neg hcap] at hload
  rw [answers_eq, hload, secretOf_nil, ite_self]

theorem document_cons {data : Dict} {blob : Bytes}
    (hblob : c.protect (encodeUtf8 c.secret) = .ok blob) :
    document S data (c :: calls) = document S (put data c.sec c.name blob) calls := by
  rw [document, hblob]

theorem withinCap_cons {f : Option Bytes} {blob : Bytes} (hrun : c.run file = .ok f)
    (hblob : c.protect (encodeUtf8 c.secret) = .ok blob) :
    WithinCap S file (c :: calls) ↔
      (S.json.dumps (.obj (put (load S file) c.sec c.name blob))).length ≤ maxStoreBytes ∧
        WithinCap S f calls := by
  constructor
  · intro h
    have hfirst := h 1 Nat.one_pos (by simp)
    rw [List.take_succ_cons, List.take_zero, document_cons hblob, document] at hfirst
    refine ⟨hfirst, fun k hk hle => ?_⟩
    have hrest := h (k + 1) k.succ_pos (by simpa using hle)
    rw [List.take_succ_cons, document_cons hblob] at hrest
    rwa [(answers_run hrun hblob hfirst).1]
  · rintro ⟨hfirst, hrest⟩ k hk hle
    obtain ⟨j, rfl⟩ := Nat.exists_eq_succ_of_ne_zero hk.ne'
    rw [List.take_succ_cons, document_cons hblob]
    cases j with
    | zero => exact hfirst
    | succ j =>
      have h := hrest (j + 1) j.succ_pos (by simpa using hle)
      rwa [(answers_run hrun hblob hfirst).1] at h

theorem setAll_cons {f : Option Bytes} (hrun : c.run file = .ok f) :
    setAll S file (c :: calls) = setAll S f calls := by
  rw [setAll, hrun]

theorem answersAsMap_nil : AnswersAsMap S file [] := by
  intro k f h sec name
  rw [List.take_nil, setAll] at h
  obtain rfl := Except.ok.inj h
  rw [List.take_nil, expected]

theorem answersAsMap_cons {f : Option Bytes} {blob : Bytes} (hrun : c.run file = .ok f)
    (hblob : c.protect (encodeUtf8 c.secret) = .ok blob) :
    AnswersAsMap S file (c :: calls) ↔
      (S.json.dumps (.obj (put (load S file) c.sec c.name blob))).length ≤ maxStoreBytes ∧
        AnswersAsMap S f calls := by
  constructor
  · intro h
    have hfirst : (S.json.dumps (.obj (put (load S file) c.sec c.name blob))).length ≤
        maxStoreBytes := by
      by_contra hlarge
      have hgone := answers_run_large hrun hblob hlarge c.sec c.name
      have hkept := h 1 f (by simp [setAll, hrun]) c.sec c.name
      rw [hgone] at hkept
      simp [expected] at hkept
    refine ⟨hfirst, fun k f' hk sec name => ?_⟩
    have hanswers : answers S f = fun sec name => if sec = c.sec ∧ name = c.name then
        .ok (some c.secret) else answers S file sec name :=
      funext₂ (answers_run hrun hblob hfirst).2
    rw [hanswers]
    refine h (k + 1) f' ?_ sec name
    rw [List.take_succ_cons, setAll_cons hrun]
    exact hk
  · rintro ⟨hfirst, hrest⟩ k f' hk sec name
    have hanswers : answers S f = fun sec name => if sec = c.sec ∧ name = c.name then
        .ok (some c.secret) else answers S file sec name :=
      funext₂ (answers_run hrun hblob hfirst).2
    cases k with
    | zero => exact answersAsMap_nil 0 f' hk sec name
    | succ k =>
      rw [List.take_succ_cons, setAll_cons hrun] at hk
      rw [List.take_succ_cons, expected, ← hanswers]
      exact hrest k f' hk sec name

/-- The store answers as a map after each of several calls that return, under every name and in
both sections, exactly when the data put together so far are within the cap each time. -/
theorem store_map_iff (S : Store) (file : Option Bytes) (calls : List (SetCall S))
    {f : Option Bytes} (h : setAll S file calls = .ok f) :
    AnswersAsMap S file calls ↔ WithinCap S file calls := by
  induction calls generalizing file with
  | nil =>
    have hnone : WithinCap S file [] := fun k hk hle => absurd hle (by simp; omega)
    exact iff_of_true answersAsMap_nil hnone
  | cons c calls ih =>
    cases hrun : c.run file with
    | error e =>
      rw [setAll, hrun] at h
      cases h
    | ok f₁ =>
      obtain ⟨-, blob, hblob, -⟩ := run_ok hrun
      rw [setAll_cons hrun] at h
      rw [answersAsMap_cons hrun hblob, withinCap_cons hrun hblob, ih f₁ h]

end Runs

/-! ### Two stores -/

/-- JSON text as UTF-8; for ASCII strings this is what `json.dumps` writes. -/
def utf8Json : JsonFile where
  dumps j := encodeUtf8 (dumps 1 j)
  loads bytes := (String.fromUTF8? ⟨bytes.toArray⟩).bind fun s => loads s.toList
  distinct_loads h := by
    obtain ⟨s, -, hs⟩ := Option.bind_eq_some_iff.mp h
    exact distinct_loads hs
  loads_dumps h := by
    rw [fromUTF8?_encodeUtf8]
    simpa using PyJson.loads_dumps 1 h

/-- A cipher that puts one octet before the data. -/
def tagged (data : Bytes) : Except StoreError Bytes := .ok (1 :: data)

def untagged : Bytes → Except StoreError Bytes
  | 1 :: data => .ok data
  | _ => .error .osError

def taggedStore : Store := ⟨utf8Json, untagged, true⟩

theorem untagged_of_tagged {data blob : Bytes} (h : tagged data = .ok blob) :
    untagged blob = .ok data := by
  obtain rfl := Except.ok.inj h
  rfl

def setTagged (sec : Section) (name secret : Text) : SetCall taggedStore :=
  ⟨sec, name, secret, tagged, untagged_of_tagged⟩

/-- One name in both sections, and a second secret under it. -/
def threeCalls : List (SetCall taggedStore) :=
  [setTagged .communities "core".toList "s3cret".toList,
    setTagged .secrets "core".toList "pw".toList,
    setTagged .communities "core".toList "new".toList]

theorem store_map_three : AnswersAsMap taggedStore none threeCalls := by
  refine (store_map_iff taggedStore none threeCalls rfl).mpr ?_
  intro k hk hle
  have hle : k ≤ 3 := hle
  interval_cases k <;> decide +kernel

/-- A blob is not shorter in the file. -/
theorem length_le_put (data : Dict) (sec : Section) (name : Text) (blob : Bytes) :
    blob.length ≤ (utf8Json.dumps (.obj (put data sec name blob))).length := by
  have hentries : (put data sec name blob).get sec.key =
      some (.obj ((entries data sec).set name (.str (Base64.encode blob)))) := by
    rw [put, Dict.get_set, if_pos rfl]
  have hname : ((entries data sec).set name (.str (Base64.encode blob))).get name =
      some (.str (Base64.encode blob)) := by
    rw [Dict.get_set, if_pos rfl]
  obtain ⟨f, hf, hfv⟩ := Dict.get_mem hentries
  obtain ⟨g, hg, hgv⟩ := Dict.get_mem hname
  have hinner := length_dumps_le_fields 1 hg
  have houter := length_dumps_le_fields 1 hf
  rw [hgv] at hinner
  rw [hfv] at houter
  calc blob.length
      ≤ (Base64.encode blob).length := Base64.length_le_encode blob
    _ ≤ (dumps 1 (.str (Base64.encode blob))).length := length_le_dumps_str 1 _
    _ ≤ (dumps 1 (.obj ((entries data sec).set name (.str (Base64.encode blob))))).length := hinner
    _ ≤ (dumps 1 (.obj (put data sec name blob))).length := houter
    _ ≤ (utf8Json.dumps (.obj (put data sec name blob))).length := length_le_encodeUtf8 _

theorem run_tagged (file : Option Bytes) (sec : Section) (name secret : Text) :
    ∃ f, (setTagged sec name secret).run file = .ok f := by
  rw [run_eq]
  exact ⟨_, rfl⟩

theorem not_answersAsMap_of_large {file : Option Bytes} {calls : List (SetCall taggedStore)}
    {sec : Section} {name secret : Text} (h : maxStoreBytes ≤ secret.length) :
    ¬ AnswersAsMap taggedStore file (setTagged sec name secret :: calls) := by
  intro hmap
  obtain ⟨f, hrun⟩ := run_tagged file sec name secret
  have hcap := ((answersAsMap_cons hrun rfl).mp hmap).1
  have hput : (1 :: encodeUtf8 secret).length ≤ maxStoreBytes :=
    (length_le_put _ _ _ _).trans hcap
  have hsecret := length_le_encodeUtf8 secret
  rw [List.length_cons] at hput
  omega

/-- A community, and then a secret as long as the cap. -/
def bulkCalls : List (SetCall taggedStore) :=
  [setTagged .communities "core".toList "s3cret".toList,
    setTagged .secrets "bulk".toList (List.replicate maxStoreBytes 'x')]

/-- Both calls return, and the store does not answer as a map. -/
theorem bulk_secret_lost :
    (∃ f, setAll taggedStore none bulkCalls = .ok f) ∧
      ¬ AnswersAsMap taggedStore none bulkCalls := by
  obtain ⟨f₁, h₁⟩ := run_tagged none .communities "core".toList "s3cret".toList
  obtain ⟨f₂, h₂⟩ := run_tagged f₁ .secrets "bulk".toList (List.replicate maxStoreBytes 'x')
  constructor
  · exact ⟨f₂, by rw [bulkCalls, setAll_cons h₁, setAll_cons h₂, setAll]⟩
  · intro h
    have hrest := ((answersAsMap_cons h₁ rfl).mp h).2
    exact not_answersAsMap_of_large List.length_replicate.ge hrest

end Srp.Netdisco.Credentials