/-
  Srp/Netdisco/Identity.lean
  ==========================
  **Stable network-device identity** (`server/netdisco/identity.py`,
  `normalize_mac` of `server/analytics/oui.py`).

  The text functions that consult the Unicode database, and the address parser
  of the `ipaddress` module, are fields of `PyText`; everything built on them is
  defined here.
-/
import Mathlib.Data.String.Basic

namespace Srp.Netdisco

inductive IpAddress where
  | v4 (n : Nat)
  | v6 (n : Nat)
deriving DecidableEq, Repr

/-- What Python's `str` and `ipaddress` provide: `upper` of one character (which may be
    several), `isalnum`, `isspace`, and `ip_address`, `none` where it raises. -/
structure PyText where
  upper : Char → List Char
  isAlnum : Char → Bool
  isSpace : Char → Bool
  ipAddress : String → Option IpAddress

/-- The database on ASCII text, with the given address parser. -/
def PyText.ascii (ipAddress : String → Option IpAddress) : PyText where
  upper c := [c.toUpper]
  isAlnum c := c.isAlphanum
  isSpace c := c = ' ' ∨ (9 ≤ c.toNat ∧ c.toNat ≤ 13) ∨ (28 ≤ c.toNat ∧ c.toNat ≤ 31)
  ipAddress := ipAddress

variable (T : PyText)

def strip (s : String) : List Char :=
  ((s.toList.dropWhile T.isSpace).reverse.dropWhile T.isSpace).reverse

/-! ### MAC addresses -/

def isHexDigit (c : Char) : Bool := c.isDigit || (decide ('A' ≤ c) && decide (c ≤ 'F'))

def joinPairs : List Char → List Char
  | a :: b :: c :: rest => a :: b :: '-' :: joinPairs (c :: rest)
  | digits => digits

def normalizeMac (mac : Option String) : Option String :=
  match mac with
  | none => none
  | some mac =>
    let digits := (mac.toList.flatMap T.upper).filter isHexDigit
    if digits.length = 12 then some (String.ofList (joinPairs digits)) else none

/-! ### Device ids -/

def tokenMax : Nat := 48

/-- `_norm_token`: runs of non-alphanumerics become one dash, upper-cased, capped. -/
def normToken (raw : Option String) : Option String :=
  match raw with
  | none => none
  | some raw =>
    let slug := ((strip T raw).flatMap T.upper).map fun c => if T.isAlnum c then c else '-'
    let collapsed := List.intercalate ['-'] ((slug.splitOn '-').filter (· ≠ []))
    let token := String.ofList (collapsed.take tokenMax)
    if token = "" then none else some token

/-- The stable id for a network device, by descending identifier strength. -/
def deviceNid (chassisId serial mac ip : Option String) : String :=
  match normToken T chassisId with
  | some token => "nd-chassis-" ++ token
  | none =>
    match normToken T serial with
    | some token => "nd-sn-" ++ token
    | none =>
      match normalizeMac T mac with
      | some mac => "nd-mac-" ++ mac
      | none =>
        match ip with
        | some ip =>
          if (T.ipAddress (String.ofList (strip T ip))).isSome then
            "nd-ip-" ++ String.ofList (strip T ip)
          else "nd-unknown"
        | none => "nd-unknown"

/-- Evidence endpoint hint to node id; an id that is already formed passes through. -/
def nodeId (hint : String) : String :=
  if "nd-".toList.isPrefixOf hint.toList then hint
  else match normalizeMac T (some hint) with
    | some mac => "nd-mac-" ++ mac
    | none => deviceNid T (some hint) none none none

theorem append_ne_empty {p : String} (hp : p ≠ "") (s : String) : p ++ s ≠ "" := by
  intro h
  exact hp (String.append_eq_empty_iff.mp h).1

theorem deviceNid_ne_empty (chassisId serial mac ip : Option String) :
    deviceNid T chassisId serial mac ip ≠ "" := by
  unfold deviceNid
  split
  · exact append_ne_empty (by decide) _
  · split
    · exact append_ne_empty (by decide) _
    · split
      · exact append_ne_empty (by decide) _
      · split
        · split
          · exact append_ne_empty (by decide) _
          · decide
        · decide

theorem nodeId_ne_empty (hint : String) : nodeId T hint ≠ "" := by
  unfold nodeId
  by_cases h : "nd-".toList.isPrefixOf hint.toList
  · rw [if_pos h]
    rintro rfl
    simp at h
  · rw [if_neg h]
    split
    · exact append_ne_empty (by decide) _
    · exact deviceNid_ne_empty T _ _ _ _

/-! ### Private addresses -/

/-- 10/8, 172.16/12 and 192.168/16. -/
def inRfc1918 (n : Nat) : Bool :=
  n / 2 ^ 24 = 10 ∨ n / 2 ^ 20 = 172 * 16 + 1 ∨ n / 2 ^ 16 = 192 * 256 + 168

/-- `is_rfc1918`: a literal private IPv4 address, also as an IPv4-mapped IPv6 one. -/
def isRfc1918 (ip : String) : Bool :=
  match T.ipAddress (String.ofList (strip T ip)) with
  | some (.v4 n) => inRfc1918 n
  | some (.v6 n) => n / 2 ^ 32 = 0xFFFF ∧ inRfc1918 (n % 2 ^ 32)
  | none => false

end Srp.Netdisco
