import CloudSpells.Network.Cidr
import Mathlib.Data.BitVec

/-!
# Network/Ipv6 — networks of either address family

`ipaddress.ip_network` reads a CIDR as IPv4 first and as IPv6 where that fails.  This module is the
IPv6 half of the library, reading (`ipv6IntFromString`) and writing (`compressHextets`), and the
networks of both families with `subnets(new_prefix=…)`.
-/

namespace CloudSpells

open Machinery

/-! ## Reading -/

/-- `int(c, 16)`, of one digit. -/
def hexDigit (c : Char) : Option ℕ :=
  if '0' ≤ c ∧ c ≤ '9' then some (c.toNat - '0'.toNat)
  else if 'a' ≤ c ∧ c ≤ 'f' then some (c.toNat - 'a'.toNat + 10)
  else if 'A' ≤ c ∧ c ≤ 'F' then some (c.toNat - 'A'.toNat + 10)
  else none

/-- `_parse_hextet`: one to four hexadecimal digits. -/
def parseHextet (hextet : List Char) : Option (BitVec 128) := do
  let digits ← hextet.mapM hexDigit
  if digits = [] ∨ 4 < digits.length then none
  else some (BitVec.ofNat 128 (digits.foldl (fun n digit => n * 16 + digit) 0))

/-- The parts with an IPv4-style suffix converted to two hextets. -/
def convertIpv4Suffix (parts : List (List Char)) : Option (List (List Char)) :=
  match parts.getLast? with
  | none => some parts
  | some last =>
    if '.' ∈ last then do
      let ip ← ipIntFromString last
      some (parts.dropLast ++
        [Nat.toDigits 16 (ip.val / 2 ^ 16), Nat.toDigits 16 (ip.val % 2 ^ 16)])
    else some parts

/-- The positions of `::`, the endpoints disregarded. -/
def skipIndices (parts : List (List Char)) : List ℕ :=
  (List.range parts.length).filter fun i => 0 < i ∧ i + 1 < parts.length ∧ parts[i]? = some []

/-- `parts_hi` and `parts_lo`: how many parts stand before and after `::`. -/
def partsHiLo (parts : List (List Char)) : Option (ℕ × ℕ) :=
  let first := parts.head? = some []
  let last := parts.getLast? = some []
  match skipIndices parts with
  | [] => if parts.length = 8 ∧ ¬ first ∧ ¬ last then some (8, 0) else none
  | [skip] =>
    let hi := if first then skip - 1 else skip
    let lo := if last then parts.length - skip - 2 else parts.length - skip - 1
    if first ∧ hi ≠ 0 then none
    else if last ∧ lo ≠ 0 then none
    else if 8 < hi + lo + 1 then none
    else some (hi, lo)
  | _ => none

/-- Shift the hextets in, one after another. -/
def shiftIn (ip : BitVec 128) (hextets : List (BitVec 128)) : BitVec 128 :=
  hextets.foldl (fun ip hextet => ip <<< 16 ||| hextet) ip

/-- `_ip_int_from_string`. -/
def ipv6IntFromString (ipStr : List Char) : Option (BitVec 128) := do
  let parts := ipStr.splitOn ':'
  if parts.length < 3 then none
  else
    let parts ← convertIpv4Suffix parts
    if 9 < parts.length then none
    else
      let (hi, lo) ← partsHiLo parts
      let high ← (parts.take hi).mapM parseHextet
      let low ← (parts.drop (parts.length - lo)).mapM parseHextet
      some (shiftIn (shiftIn 0 high <<< (16 * (8 - (hi + lo)))) low)

/-- `_split_scope_id`. -/
def splitScopeId (ipStr : List Char) : Option (List Char × Option String) :=
  match ipStr.span (· ≠ '%') with
  | (addr, []) => some (addr, none)
  | (addr, _ :: scopeId) =>
    if scopeId = [] ∨ '%' ∈ scopeId then none else some (addr, some (String.ofList scopeId))

/-- `_prefix_from_prefix_string`. -/
def prefixFromPrefixString6 (s : List Char) : Option (Fin 129) :=
  if isDigits s = false then none
  else if h : intOf s < 129 then some ⟨intOf s, h⟩ else none

/-- The address, its scope and the prefix length of a CIDR; without a slash it is a single address.
-/
def splitAddrPrefix6 (address : List Char) : Option (BitVec 128 × Option String × Fin 129) :=
  match address.splitOn '/' with
  | [addr] => do
    let (addr, scopeId) ← splitScopeId addr
    return (← ipv6IntFromString addr, scopeId, ⟨128, by omega⟩)
  | [addr, mask] => do
    let (addr, scopeId) ← splitScopeId addr
    return (← ipv6IntFromString addr, scopeId, ← prefixFromPrefixString6 mask)
  | _ => none

/-! ## Writing -/

/-- The longest sequence of zeros so far, and the one being read. -/
structure DoubleColon where
  bestStart : ℕ := 0
  bestLen : ℕ := 0
  start : Option ℕ := none
  len : ℕ := 0

/-- The body of the loop of `_compress_hextets`. -/
def DoubleColon.step (st : DoubleColon) (index : ℕ) (hextet : String) : DoubleColon :=
  if hextet = "0" then
    let start := st.start.getD index
    let len := st.len + 1
    if st.bestLen < len then
      { bestStart := start, bestLen := len, start := some start, len := len }
    else { st with start := some start, len := len }
  else { st with start := none, len := 0 }

/-- `_compress_hextets`: the longest sequence of zeros becomes empty. -/
def compressHextets (hextets : List String) : List String :=
  let st := hextets.zipIdx.foldl (fun (st : DoubleColon) hextet => st.step hextet.2 hextet.1) {}
  if st.bestLen ≤ 1 then hextets
  else
    let stop := st.bestStart + st.bestLen
    (if st.bestStart = 0 then [""] else []) ++ hextets.take st.bestStart ++ [""] ++
      hextets.drop stop ++ if stop = hextets.length then [""] else []

/-- `_string_from_ip_int`. -/
def ipv6Str (ip : ℕ) : String :=
  ":".intercalate (compressHextets ((List.range 8).map fun i =>
    String.ofList (Nat.toDigits 16 (ip / 2 ^ (16 * (7 - i)) % 2 ^ 16))))

/-! ## Networks of either family -/

/-- The address families. -/
inductive IPVersion
  | v4
  | v6
  deriving DecidableEq, Repr

/-- `max_prefixlen`. -/
def IPVersion.maxPrefixlen : IPVersion → ℕ
  | .v4 => 32
  | .v6 => 128

/-- `ipaddress.IPv4Network` or `ipaddress.IPv6Network`; the scope is of an IPv6 address. -/
structure IPNetwork where
  version : IPVersion
  scopeId : Option String
  block : Block version.maxPrefixlen

namespace IPNetwork

/-- `str` of the network's address. -/
def addressStr (version : IPVersion) (scopeId : Option String) (ip : ℕ) : String :=
  match version, scopeId with
  | .v4, _ => ipStr ip
  | .v6, none => ipv6Str ip
  | .v6, some scopeId => ipv6Str ip ++ "%" ++ scopeId

/-- `str` of a network. -/
def str (net : IPNetwork) : String :=
  s!"{addressStr net.version net.scopeId net.block.base}/{net.block.len}"

/-- `subnets(new_prefix=…)`: a single address is not cut any further. -/
def subnets (net : IPNetwork) (newPrefix : ℕ) : Except PyError (List IPNetwork) :=
  if net.block.len = net.version.maxPrefixlen then .ok [net]
  else if newPrefix < net.block.len then .error (.valueError "new prefix must be longer")
  else if h : net.block.len + (newPrefix - net.block.len) ≤ net.version.maxPrefixlen then
    .ok ((net.block.split (newPrefix - net.block.len) h).map fun block =>
      { version := net.version, scopeId := none, block := block })
  else .error (.valueError
    s!"prefix length diff {newPrefix} is invalid for netblock {net.str}")

end IPNetwork

/-- `ipaddress.ip_network(address)`. -/
def anyNetwork (address : String) : Except PyError IPNetwork :=
  match splitAddrPrefix address.toList with
  | some _ => do return { version := .v4, scopeId := none, block := ← ipNetwork address }
  | none =>
    match splitAddrPrefix6 address.toList with
    | none => .error (.valueError
        s!"{pyRepr address} does not appear to be an IPv4 or IPv6 network")
    | some (ip, scopeId, len) =>
      if h : 2 ^ (128 - len.val) ∣ ip.toNat then
        .ok {
          version := .v6
          scopeId := scopeId
          block := {
            base := ip.toNat
            len := len
            len_le := by change len.val ≤ 128; omega
            base_lt := ip.isLt
            aligned := h } }
      else .error (.valueError
        s!"{IPNetwork.addressStr .v6 scopeId ip.toNat}/{len.val} has host bits set")

/-- **An IPv4 CIDR is read as IPv4.** -/
theorem anyNetwork_of_v4 {address : String} {net : IPv4Network} (h : ipNetwork address = .ok net) :
    anyNetwork address = .ok { version := .v4, scopeId := none, block := net } := by
  rcases hsplit : splitAddrPrefix address.toList with _ | ⟨ip, len⟩
  · rw [ipNetwork, hsplit] at h
    cases h
  · rw [anyNetwork, hsplit, h]
    rfl

end CloudSpells
