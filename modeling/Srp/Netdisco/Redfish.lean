/-
  Srp/Netdisco/Redfish.lean
  =========================
  **The Redfish adapter** (`server/netdisco/adapters/redfish.py`).

  A collect reads the listed systems, then walks from the managers to their interfaces,
  and gives every interface with a MAC address the identity of the one system there is.
  All requests share one budget, and each may fail on its own.

  The transport is a parameter.  A request is known by its path and by how many requests
  are left after it, so that the same path may be answered differently each time.  What
  fails is left out before the systems are counted; a chassis of several blades of which
  a single one answers looks like one server (`collect_identity_iff`).
-/
import Srp.Lib.Lines
import Srp.Lib.PyJson
import Srp.Netdisco.Identity

namespace Srp.Netdisco.Redfish

open Srp.Lib.Lines Srp.Lib.PyJson

/-! ### Limits and paths -/

def systemsPath : Text := "/redfish/v1/Systems".toList
def managersPath : Text := "/redfish/v1/Managers".toList
def maxMembers : Nat := 32
def maxRequests : Nat := 48
def maxName : Nat := 253
def maxText : Nat := 64
def maxPath : Nat := 256

/-! ### Fields of a payload -/

abbrev Fields := List (Text × Json)

variable (T : PyText)

def stripped (t : Text) : Text := strip T (String.ofList t)

/-- `name.strip().rstrip(".")`, if it is a safe host name. -/
def cleanHost : Option Json → Option Text
  | some (.str name) =>
    let host := ((stripped T name).reverse.dropWhile (· = '.')).reverse
    if host = [] ∨ maxName < host.length ∨ '*' ∈ host then none
    else if host.all fun c => T.isAlnum c || c ∈ "-._".toList then some host
    else none
  | _ => none

def cleanText : Option Json → Option Text
  | some (.str value) =>
    let text := stripped T value
    if text = [] ∨ maxText < text.length then none
    else if text.any fun c => decide (c.toNat < 0x20) || c.toNat == 0x7F then none
    else some text
  | _ => none

/-- A path below the server that is safe to ask for. -/
def safeOdata : Option Json → Option Text
  | some (.str value) =>
    let path := stripped T value
    if ¬ "/redfish/".toList <+: path ∨ maxPath < path.length ∨ ['.', '.'] <:+: path then none
    else if path.all fun c => T.isAlnum c || c ∈ "/_-.~".toList then some path
    else none
  | _ => none

/-- The safe path that one entry of a collection names. -/
def memberPath : Json → Option Text
  | .obj entry => safeOdata T (entry.lookup "@odata.id".toList)
  | _ => none

/-- `_members`: the safe paths of a collection, no more than the cap. -/
def members : Option Json → List Text
  | some (.obj payload) =>
    match payload.lookup "Members".toList with
    | some (.arr entries) => (entries.filterMap (memberPath T)).take maxMembers
    | _ => []
  | _ => []

/-- `_ref`: the safe path of a resource that the payload refers to. -/
def ref (payload : Option Json) (key : Text) : Option Text :=
  match payload with
  | some (.obj fields) =>
    match fields.lookup key with
    | some (.obj fields) => safeOdata T (fields.lookup "@odata.id".toList)
    | _ => none
  | _ => none

def privateAddress : Json → Option Text
  | .obj entry =>
    match entry.lookup "Address".toList with
    | some (.str addr) => if isRfc1918 T (String.ofList addr) then some addr else none
    | _ => none
  | _ => none

/-- `_first_rfc1918_ipv4`. -/
def firstRfc1918Ipv4 : Option Json → Option Text
  | some (.arr entries) => entries.findSome? (privateAddress T)
  | _ => none

/-! ### Identity and nodes -/

/-- What is known of the single system; nothing, when there is not exactly one. -/
structure Identity where
  model : Option Text := none
  serial : Option Text := none
  vendor : Option Text := none
  hostname : Option Text := none
deriving DecidableEq

def identityOf (payload : Fields) : Identity where
  model := cleanText T (payload.lookup "Model".toList)
  serial := cleanText T (payload.lookup "SerialNumber".toList)
  vendor := cleanText T (payload.lookup "Manufacturer".toList)
  hostname := cleanHost T (payload.lookup "HostName".toList)

structure AdapterNode where
  mac : Text
  ip : Option Text
  hostname : Option Text
  vendor : Option Text
  devType : Text
  model : Option Text
  serial : Option Text
deriving DecidableEq

def oobNode (nic : Option Json) (ident : Identity) : Option AdapterNode :=
  match nic with
  | some (.obj nic) =>
    match nic.lookup "MACAddress".toList with
    | some (.str mac) =>
      if mac = [] then none
      else some ⟨mac, firstRfc1918Ipv4 T (nic.lookup "IPv4Addresses".toList), ident.hostname,
        ident.vendor, "server".toList, ident.model, ident.serial⟩
    | _ => none
  | _ => none

/-! ### Requests -/

/-- The answer to a request, by how many are left after it and by its path; an error carries
the name of the exception's type. -/
abbrev Transport := Nat → Text → Except String Json

structure Walk where
  budget : Nat
  errors : List String

variable (transport : Transport)

/-- `_get`: one request within the budget. -/
def get (path : Text) (stage : String) (w : Walk) : Option Json × Walk :=
  if w.budget = 0 then (none, w)
  else
    let left := w.budget - 1
    match transport left path with
    | .ok payload => (some payload, { w with budget := left })
    | .error e => (none, ⟨left, w.errors ++ ["redfish " ++ stage ++ ": " ++ e]⟩)

/-- The loop over the member paths: the identity of each system that answers with an object. -/
def readSystems : List Text → Walk → List Identity × Walk
  | [], w => ([], w)
  | path :: paths, w =>
    let (payload, w) := get transport path "system" w
    let (systems, w) := readSystems paths w
    match payload with
    | some (.obj payload) => (identityOf T payload :: systems, w)
    | _ => (systems, w)

def readIdentity (w : Walk) : Identity × Walk :=
  let (coll, w) := get transport systemsPath "systems" w
  let (systems, w) := readSystems T transport (members T coll) w
  match systems with
  | [ident] => (ident, w)
  | _ => ({}, w)

/-- The interfaces of one manager. -/
def readNics (ident : Identity) : List Text → Walk → List AdapterNode × Walk
  | [], w => ([], w)
  | path :: paths, w =>
    let (nic, w) := get transport path "interface" w
    let (nodes, w) := readNics ident paths w
    ((oobNode T nic ident).toList ++ nodes, w)

def readManagers (ident : Identity) : List Text → Walk → List AdapterNode × Walk
  | [], w => ([], w)
  | path :: paths, w =>
    let (mgr, w) := get transport path "manager" w
    match ref T mgr "EthernetInterfaces".toList with
    | none => readManagers ident paths w
    | some path =>
      let (coll, w) := get transport path "interfaces" w
      let (nics, w) := readNics T transport ident (members T coll) w
      let (nodes, w) := readManagers ident paths w
      (nics ++ nodes, w)

def readOobMacs (ident : Identity) (w : Walk) : List AdapterNode × Walk :=
  let (coll, w) := get transport managersPath "managers" w
  readManagers T transport ident (members T coll) w

/-! ### One collect -/

structure AdapterResult where
  nodes : List AdapterNode
  errors : List String
deriving DecidableEq

/-- The body of `collect`; `session` is the transport that is injected or built, if it is. -/
def collectBody (session : Except String (Option Transport)) : Except String AdapterResult :=
  match session with
  | .error e => .error e
  | .ok none => .ok ⟨[], ["redfish: no usable session"]⟩
  | .ok (some transport) =>
    let (ident, w) := readIdentity T transport ⟨maxRequests, []⟩
    let (nodes, w) := readOobMacs T transport ident w
    .ok ⟨nodes, w.errors⟩

/-- `collect`: whatever is raised inside becomes an error of the result. -/
def collect (session : Except String (Option Transport)) : Except String AdapterResult :=
  match collectBody T session with
  | .ok result => .ok result
  | .error _ => .ok ⟨[], ["redfish: unexpected error"]⟩

/-! ### What a request leaves behind -/

section Requests

variable {T : PyText} {transport : Transport} {path : Text} {stage : String} {w : Walk}

theorem get_budget : (get transport path stage w).2.budget = w.budget - 1 := by
  unfold get
  split_ifs with h
  · simp [h]
  · dsimp only
    split <;> rfl

theorem get_of_pos (h : 0 < w.budget) :
    (get transport path stage w).1 = (transport (w.budget - 1) path).toOption := by
  unfold get
  rw [if_neg h.ne']
  dsimp only
  cases transport (w.budget - 1) path <;> rfl

/-- What is read depends on the budget of a walk, not on the errors before it. -/
def BudgetOnly {β : Type} (f : Walk → β × Walk) : Prop :=
  ∀ w w', w.budget = w'.budget → (f w).1 = (f w').1 ∧ (f w).2.budget = (f w').2.budget

theorem BudgetOnly.bind {β γ : Type} {f : Walk → β × Walk} {g : β → Walk → γ × Walk}
    (hf : BudgetOnly f) (hg : ∀ b, BudgetOnly (g b)) : BudgetOnly fun w => g (f w).1 (f w).2 := by
  intro w w' h
  obtain ⟨hvalue, hbudget⟩ := hf w w' h
  dsimp only
  rw [hvalue]
  exact hg _ _ _ hbudget

theorem BudgetOnly.map {β γ : Type} {f : Walk → β × Walk} (hf : BudgetOnly f) (g : β → γ) :
    BudgetOnly fun w => (g (f w).1, (f w).2) := by
  intro w w' h
  obtain ⟨hvalue, hbudget⟩ := hf w w' h
  exact ⟨congrArg g hvalue, hbudget⟩

theorem get_budgetOnly : BudgetOnly (get transport path stage) := by
  intro w w' h
  refine ⟨?_, by rw [get_budget, get_budget, h]⟩
  rcases Nat.eq_zero_or_pos w.budget with hzero | hpos
  · simp [get, hzero, h.symm.trans hzero]
  · rw [get_of_pos hpos, get_of_pos (h ▸ hpos), h]

theorem readNics_budgetOnly {ident : Identity} (paths : List Text) :
    BudgetOnly (readNics T transport ident paths) := by
  induction paths with
  | nil => exact fun w w' h => ⟨rfl, h⟩
  | cons path paths ih =>
    exact get_budgetOnly.bind fun nic => ih.map fun nodes => (oobNode T nic ident).toList ++ nodes

theorem readManagers_budgetOnly {ident : Identity} (paths : List Text) :
    BudgetOnly (readManagers T transport ident paths) := by
  induction paths with
  | nil => exact fun w w' h => ⟨rfl, h⟩
  | cons path paths ih =>
    refine get_budgetOnly.bind (g := fun mgr w =>
      match ref T mgr "EthernetInterfaces".toList with
      | none => readManagers T transport ident paths w
      | some path =>
        let (coll, w) := get transport path "interfaces" w
        let (nics, w) := readNics T transport ident (members T coll) w
        let (nodes, w) := readManagers T transport ident paths w
        (nics ++ nodes, w)) fun mgr => ?_
    cases ref T mgr "EthernetInterfaces".toList with
    | none => exact ih
    | some path =>
      exact get_budgetOnly.bind fun coll => (readNics_budgetOnly (members T coll)).bind fun nics =>
        ih.map fun nodes => nics ++ nodes

theorem readOobMacs_budgetOnly {ident : Identity} :
    BudgetOnly (readOobMacs T transport ident) :=
  get_budgetOnly.bind fun coll => readManagers_budgetOnly (members T coll)

end Requests

/-! ### The nodes carry the identity -/

section Nodes

variable {T : PyText} {transport : Transport} {ident : Identity} {w : Walk}

/-- The node of the same interface under another identity. -/
def AdapterNode.carrying (ident : Identity) (node : AdapterNode) : AdapterNode :=
  { node with
    hostname := ident.hostname
    vendor := ident.vendor
    model := ident.model
    serial := ident.serial }

/-- The node carries neither a model nor a serial, a vendor or a host name. -/
def AdapterNode.Anonymous (node : AdapterNode) : Prop :=
  node.model = none ∧ node.serial = none ∧ node.vendor = none ∧ node.hostname = none

theorem carrying_anonymous {node : AdapterNode} :
    (node.carrying ident).Anonymous ↔ ident = {} := by
  unfold AdapterNode.Anonymous AdapterNode.carrying
  rw [Identity.mk.injEq]

theorem oobNode_carrying (nic : Option Json) :
    oobNode T nic ident = (oobNode T nic {}).map (·.carrying ident) := by
  unfold oobNode
  split
  · split
    · split_ifs <;> rfl
    · rfl
  · rfl

theorem readNics_carrying (paths : List Text) : readNics T transport ident paths w =
    ((readNics T transport {} paths w).1.map (·.carrying ident),
      (readNics T transport {} paths w).2) := by
  induction paths generalizing w with
  | nil => rfl
  | cons path paths ih =>
    simp only [readNics]
    rw [ih, oobNode_carrying]
    cases oobNode T (get transport path "interface" w).1 {} <;> rfl

theorem readManagers_carrying (paths : List Text) : readManagers T transport ident paths w =
    ((readManagers T transport {} paths w).1.map (·.carrying ident),
      (readManagers T transport {} paths w).2) := by
  induction paths generalizing w with
  | nil => rfl
  | cons path paths ih =>
    simp only [readManagers]
    split
    · exact ih
    · rw [readNics_carrying]
      simp only [ih, List.map_append]

theorem readOobMacs_carrying : (readOobMacs T transport ident w).1 =
    (readOobMacs T transport {} w).1.map (·.carrying ident) :=
  congrArg Prod.fst (readManagers_carrying _)

/-- No node carries anything of an identity iff there is nothing to carry or no node. -/
theorem anonymous_iff : (∀ node ∈ (readOobMacs T transport ident w).1, node.Anonymous) ↔
    ident = {} ∨ (readOobMacs T transport {} w).1 = [] := by
  rw [readOobMacs_carrying]
  simp only [List.forall_mem_map, carrying_anonymous]
  constructor
  · intro h
    rcases List.eq_nil_or_concat (readOobMacs T transport {} w).1 with hnil | ⟨_, node, hnodes⟩
    · exact .inr hnil
    · exact .inl (h node (by simp [hnodes]))
  · rintro (h | hnil) node hnode
    · exact h
    · simp [hnil] at hnode

end Nodes

/-! ### The systems that answer -/

section Systems

variable (T : PyText) (transport : Transport)

/-- The objects with which the systems at these paths answer, the requests being numbered from
`budget` down; a system whose request fails, or whose answer is no object, has none. -/
def answering : List Text → Nat → List Fields
  | [], _ => []
  | path :: paths, budget =>
    match transport (budget - 1) path with
    | .ok (.obj payload) => payload :: answering paths (budget - 1)
    | _ => answering paths (budget - 1)

/-- The systems that the first request lists, as far as their paths are safe and within the cap. -/
def listedSystems : List Text := members T (transport (maxRequests - 1) systemsPath).toOption

/-- The objects of the listed systems that answer. -/
def answeringSystems : List Fields :=
  answering transport (listedSystems T transport) (maxRequests - 1)

/-- The walk over the managers, with the requests that the systems leave, finds an interface with
a MAC address. -/
def ReachesMac : Prop :=
  (readOobMacs T transport {} ⟨maxRequests - 1 - (listedSystems T transport).length, []⟩).1 ≠ []

variable {T transport}

theorem length_members (coll : Option Json) : (members T coll).length ≤ maxMembers := by
  unfold members
  split
  · split
    · exact List.length_take_le _ _
    · exact Nat.zero_le _
  · exact Nat.zero_le _

theorem readSystems_eq {paths : List Text} {w : Walk} (h : paths.length ≤ w.budget) :
    (readSystems T transport paths w).1 =
        (answering transport paths w.budget).map (identityOf T) ∧
      (readSystems T transport paths w).2.budget = w.budget - paths.length := by
  induction paths generalizing w with
  | nil => exact ⟨rfl, rfl⟩
  | cons path paths ih =>
    rw [List.length_cons] at h
    have hpos : 0 < w.budget := by omega
    have hrest : paths.length ≤ (get transport path "system" w).2.budget := by
      rw [get_budget]
      omega
    obtain ⟨hsystems, hbudget⟩ := ih hrest
    rw [get_budget] at hsystems hbudget
    have hleft : w.budget - 1 - paths.length = w.budget - (paths.length + 1) := by omega
    rw [hleft] at hbudget
    simp only [readSystems, answering, List.length_cons]
    rw [get_of_pos hpos]
    cases transport (w.budget - 1) path with
    | error e => exact ⟨hsystems, hbudget⟩
    | ok payload =>
      cases payload with
      | obj payload => exact ⟨congrArg (identityOf T payload :: ·) hsystems, hbudget⟩
      | null => exact ⟨hsystems, hbudget⟩
      | bool b => exact ⟨hsystems, hbudget⟩
      | int n => exact ⟨hsystems, hbudget⟩
      | float x => exact ⟨hsystems, hbudget⟩
      | str s => exact ⟨hsystems, hbudget⟩
      | arr xs => exact ⟨hsystems, hbudget⟩

/-- The identity of the one system that answers; nothing, when none or several do. -/
theorem readIdentity_eq :
    (readIdentity T transport ⟨maxRequests, []⟩).1 =
        (match answeringSystems T transport with
          | [payload] => identityOf T payload
          | _ => {}) ∧
      (readIdentity T transport ⟨maxRequests, []⟩).2.budget =
        maxRequests - 1 - (listedSystems T transport).length := by
  have hlisted : members T (get transport systemsPath "systems" ⟨maxRequests, []⟩).1 =
      listedSystems T transport := by
    rw [get_of_pos (by decide : 0 < maxRequests)]
    rfl
  have hbudget : (get transport systemsPath "systems" ⟨maxRequests, []⟩).2.budget =
      maxRequests - 1 := get_budget
  have hfit : (listedSystems T transport).length ≤
      (get transport systemsPath "systems" ⟨maxRequests, []⟩).2.budget := by
    rw [hbudget]
    exact (length_members _).trans (by decide)
  obtain ⟨hsystems, hrest⟩ := @readSystems_eq T transport _ _ hfit
  rw [hbudget] at hsystems hrest
  simp only [readIdentity, hlisted]
  generalize readSystems T transport (listedSystems T transport)
    (get transport systemsPath "systems" ⟨maxRequests, []⟩).2 = read at hsystems hrest ⊢
  rw [hsystems, answeringSystems]
  cases answering transport (listedSystems T transport) (maxRequests - 1) with
  | nil => exact ⟨rfl, hrest⟩
  | cons payload rest =>
    cases rest with
    | nil => exact ⟨rfl, hrest⟩
    | cons payload' rest => exact ⟨rfl, hrest⟩

/-- One of several systems passes for the only one: it alone answers, its answer has something of
an identity, and there is an interface to carry it. -/
def Inherits (T : PyText) (transport : Transport) : Prop :=
  ∃ payload, answeringSystems T transport = [payload] ∧ identityOf T payload ≠ {} ∧
    ReachesMac T transport

theorem identity_ne_nothing_iff : (readIdentity T transport ⟨maxRequests, []⟩).1 ≠ {} ↔
    ∃ payload, answeringSystems T transport = [payload] ∧ identityOf T payload ≠ {} := by
  rw [readIdentity_eq.1]
  cases hsystems : answeringSystems T transport with
  | nil => simp
  | cons payload rest =>
    cases rest with
    | nil => simp
    | cons payload' rest => simp

theorem inherits_iff : Inherits T transport ↔
    (readIdentity T transport ⟨maxRequests, []⟩).1 ≠ {} ∧
      (readOobMacs T transport {} (readIdentity T transport ⟨maxRequests, []⟩).2).1 ≠ [] := by
  have hnodes : (readOobMacs T transport {} (readIdentity T transport ⟨maxRequests, []⟩).2).1 =
      (readOobMacs T transport {}
        ⟨maxRequests - 1 - (listedSystems T transport).length, []⟩).1 :=
    (readOobMacs_budgetOnly _ _ readIdentity_eq.2).1
  rw [identity_ne_nothing_iff, hnodes, Inherits, ReachesMac]
  simp only [exists_and_right, ← and_assoc]

theorem collect_session (transport : Transport) : ∃ errors,
    collect T (.ok (some transport)) = .ok
      ⟨(readOobMacs T transport (readIdentity T transport ⟨maxRequests, []⟩).1
        (readIdentity T transport ⟨maxRequests, []⟩).2).1, errors⟩ :=
  ⟨_, rfl⟩

end Systems

/-- `collect` returns, whatever is raised inside; and with a session, no node of its result carries
a model, a serial, a vendor or a host name exactly when no single system passes for the only one. -/
theorem collect_identity_iff (T : PyText) (session : Except String (Option Transport)) :
    (∃ result, collect T session = .ok result) ∧
      ∀ transport result, session = .ok (some transport) → collect T session = .ok result →
        ((∀ node ∈ result.nodes, node.Anonymous) ↔ ¬ Inherits T transport) := by
  constructor
  · unfold collect
    cases collectBody T session with
    | ok result => exact ⟨result, rfl⟩
    | error e => exact ⟨_, rfl⟩
  · rintro transport result rfl hresult
    obtain ⟨errors, hcollect⟩ := collect_session (T := T) transport
    obtain rfl := Except.ok.inj (hcollect.symm.trans hresult)
    rw [anonymous_iff, inherits_iff, not_and_or, not_not, not_not]

/-! ### A chassis of two blades -/

private def plainText : PyText := .ascii fun _ => none

private def link (s : String) : Json := .obj [("@odata.id".toList, .str s.toList)]

private def collection (paths : List String) : Json :=
  .obj [("Members".toList, .arr (paths.map link))]

private def blade (serial : String) : Json :=
  .obj [("SerialNumber".toList, .str serial.toList), ("Model".toList, .str "X1".toList)]

/-- Two systems and one manager with one interface. -/
def chassis : List (Text × Json) :=
  [(systemsPath, collection ["/redfish/v1/Systems/1", "/redfish/v1/Systems/2"]),
    ("/redfish/v1/Systems/1".toList, blade "SN-1"),
    ("/redfish/v1/Systems/2".toList, blade "SN-2"),
    (managersPath, collection ["/redfish/v1/Managers/1"]),
    ("/redfish/v1/Managers/1".toList,
      .obj [("EthernetInterfaces".toList, link "/redfish/v1/Managers/1/Nics")]),
    ("/redfish/v1/Managers/1/Nics".toList, collection ["/redfish/v1/Managers/1/Nics/1"]),
    ("/redfish/v1/Managers/1/Nics/1".toList,
      .obj [("MACAddress".toList, .str "00:11:22:33:44:55".toList)])]

/-- The tree behind a transport on which the requests for some paths time out. -/
def timingOut (tree : List (Text × Json)) (failing : List Text) : Transport := fun _ path =>
  if path ∈ failing then .error "TimeoutError"
  else match tree.lookup path with
    | some payload => .ok payload
    | none => .error "HTTPError"

/-- Both systems answer, and the interface is anonymous. -/
theorem collect_identity_chassis :
    ∃ result, collect plainText (.ok (some (timingOut chassis []))) = .ok result ∧
      ∀ node ∈ result.nodes, node.Anonymous := by
  obtain ⟨⟨result, hresult⟩, hiff⟩ :=
    collect_identity_iff plainText (.ok (some (timingOut chassis [])))
  refine ⟨result, hresult, (hiff _ result rfl hresult).mpr ?_⟩
  rintro ⟨payload, hanswering, -⟩
  have htwo : (answeringSystems plainText (timingOut chassis [])).length = 2 := by decide +kernel
  rw [hanswering] at htwo
  cases htwo

/-- Two systems are listed and the request for one of them times out: the interface of the
chassis gets the model and the serial of the other. -/
theorem blade_identity_inherited :
    (listedSystems plainText (timingOut chassis ["/redfish/v1/Systems/2".toList])).length = 2 ∧
      ¬ ∀ result, collect plainText
          (.ok (some (timingOut chassis ["/redfish/v1/Systems/2".toList]))) = .ok result →
        ∀ node ∈ result.nodes, node.Anonymous := by
  have hcollect : collect plainText
      (.ok (some (timingOut chassis ["/redfish/v1/Systems/2".toList]))) =
      .ok ⟨[⟨"00:11:22:33:44:55".toList, none, none, none, "server".toList, some "X1".toList,
        some "SN-1".toList⟩], ["redfish system: TimeoutError"]⟩ := by decide +kernel
  refine ⟨by decide +kernel, fun h => ?_⟩
  have hmodel := (h _ hcollect _ List.mem_cons_self).1
  cases hmodel

end Srp.Netdisco.Redfish
