import CloudSpells.Network.Ipv6
import Mathlib.Order.Bounds.Basic

/-!
# Network/Helper — cutting a supernet into equal subnets

`Helper.calculate_subnets` searches for the smallest prefix increase that yields enough subnets, and
returns the first of them.  What it promises (`KeepsPromise`) it keeps on every supernet of more
than one address; a single address is never cut, and comes back alone however many subnets were
asked for.
-/

namespace CloudSpells

open Machinery

/-- The `while` loop, with `new_prefix_length = prefixlen + bits`: it ends, since the power outgrows
`num_subnets`. -/
def searchPrefix (prefixlen : ℕ) (numSubnets : ℤ) (bits : ℕ) : ℕ :=
  if 2 ^ bits < numSubnets then searchPrefix prefixlen numSubnets (bits + 1) else prefixlen + bits
termination_by (numSubnets - 2 ^ bits).toNat
decreasing_by
  have hpos : (0 : ℤ) < 2 ^ bits := Int.pow_pos (by decide)
  rw [pow_succ]
  omega

/-- `xs[:stop]`. -/
def takeTo {α : Type} (xs : List α) (stop : ℤ) : List α :=
  if 0 ≤ stop then xs.take stop.toNat else xs.take (xs.length - (-stop).toNat)

/-- `Helper.calculate_subnets`. -/
def calculateSubnets (cidr : String) (numSubnets : ℤ) : Except PyError (List String) := do
  let supernet ← anyNetwork cidr
  let subnets ← supernet.subnets (searchPrefix supernet.block.len numSubnets 0)
  return (takeTo subnets numSubnets).map IPNetwork.str

/-! ## The search -/

/-- The loop stops at the first sufficient increase from where it is. -/
private theorem searchPrefix_eq (prefixlen : ℕ) (numSubnets : ℤ) (bits : ℕ) :
    ∃ stop, searchPrefix prefixlen numSubnets bits = prefixlen + stop ∧ numSubnets ≤ 2 ^ stop ∧
      ∀ k, bits ≤ k → k < stop → 2 ^ k < numSubnets := by
  induction bits using searchPrefix.induct numSubnets with
  | case1 bits hlt ih =>
    obtain ⟨stop, heq, hle, hbelow⟩ := ih
    refine ⟨stop, by rw [searchPrefix, if_pos hlt, heq], hle, fun k hk hstop => ?_⟩
    rcases Nat.eq_or_lt_of_le hk with rfl | hk
    · exact hlt
    · exact hbelow k hk hstop
  | case2 bits hge =>
    refine ⟨bits, by rw [searchPrefix, if_neg hge], not_lt.mp hge, fun k hk hstop => ?_⟩
    exact absurd hk (Nat.not_le.mpr hstop)

/-- **The search finds the smallest prefix increase that yields enough subnets.** -/
theorem searchPrefix_isLeast (prefixlen n : ℕ) : ∃ bits,
    searchPrefix prefixlen n 0 = prefixlen + bits ∧ IsLeast {k | n ≤ 2 ^ k} bits := by
  obtain ⟨bits, heq, hle, hbelow⟩ := searchPrefix_eq prefixlen n 0
  refine ⟨bits, heq, by exact_mod_cast hle, fun k hk => ?_⟩
  by_contra hlt
  have hpow : (2 : ℤ) ^ k < n := hbelow k (Nat.zero_le k) (Nat.not_le.mp hlt)
  exact absurd hk (Nat.not_le.mpr (by exact_mod_cast hpow))

/-! ## What the method promises -/

/-- `n` blocks that subdivide `net` from its first address on, as coarsely as `n` blocks can. -/
structure Subdivides {w : ℕ} (net : Block w) (n : ℕ) (blocks : List (Block w)) : Prop where
  length : blocks.length = n
  disjoint : blocks.Pairwise fun b c => Disjoint b.addresses c.addresses
  equalSize : ∀ b ∈ blocks, ∀ c ∈ blocks, b.size = c.size
  inside : ∀ b ∈ blocks, b.addresses ⊆ net.addresses
  consecutive : ∀ i (h : i < blocks.length), blocks[i].base = net.base + i * blocks[i].size
  least : ∃ bits, IsLeast {k | n ≤ 2 ^ k} bits ∧ ∀ b ∈ blocks, b.len = net.len + bits

/-- The promise of `calculate_subnets`: a list it returns subdivides the supernet, it returns one
where the supernet is big enough, and it raises where it is too small. -/
structure KeepsPromise (net : IPNetwork) (n : ℕ) (result : Except PyError (List String)) :
    Prop where
  subdivides : ∀ cidrs, result = .ok cidrs → ∃ scopeId blocks, Subdivides net.block n blocks ∧
    cidrs = blocks.map fun block => IPNetwork.str ⟨net.version, scopeId, block⟩
  returns : n ≤ net.block.size → ∃ cidrs, result = .ok cidrs
  raises : net.block.size < n → ∃ e, result = .error e

/-- The first pieces of a block subdivide it. -/
theorem subdivides_of_take {w : ℕ} (net : Block w) {n bits : ℕ} (h : net.len + bits ≤ w)
    (hbits : IsLeast {k | n ≤ 2 ^ k} bits) : Subdivides net n ((net.split bits h).take n) := by
  have hpiece : ∀ b ∈ (net.split bits h).take n, ∃ i, b = net.piece bits h i := by
    intro b hb
    obtain ⟨i, -, rfl⟩ := List.mem_map.mp (List.mem_of_mem_take hb)
    exact ⟨i, rfl⟩
  refine ⟨?_, ?_, ?_, ?_, ?_, bits, hbits, ?_⟩
  · rw [List.length_take, Block.length_split]
    exact Nat.min_eq_left hbits.1
  · refine List.Pairwise.take (List.Pairwise.map _ (fun i j hij => ?_) (List.nodup_finRange _))
    exact Block.disjoint_of_piece net h hij
  · intro b hb c hc
    obtain ⟨i, rfl⟩ := hpiece b hb
    obtain ⟨j, rfl⟩ := hpiece c hc
    rfl
  · intro b hb a ha
    obtain ⟨i, rfl⟩ := hpiece b hb
    exact Block.contains_of_piece ha
  · intro i hi
    simp only [List.getElem_take, Block.split, List.getElem_map, List.getElem_finRange]
    rfl
  · intro b hb
    obtain ⟨i, rfl⟩ := hpiece b hb
    rfl

/-! ## When it keeps it -/

/-- A single address is one subnet. -/
theorem IPNetwork.subnets_of_single {net : IPNetwork} (h : net.block.len = net.version.maxPrefixlen)
    (newPrefix : ℕ) : net.subnets newPrefix = .ok [net] := if_pos h

/-- A network of more than one address is cut where the prefix still fits, and refused where it
does not. -/
theorem IPNetwork.subnets_of_lt {net : IPNetwork} (h : net.block.len < net.version.maxPrefixlen)
    (bits : ℕ) :
    net.subnets (net.block.len + bits) =
      if hfit : net.block.len + bits ≤ net.version.maxPrefixlen then
        .ok ((net.block.split bits hfit).map fun block => ⟨net.version, none, block⟩)
      else .error (.valueError
        s!"prefix length diff {net.block.len + bits} is invalid for netblock {net.str}") := by
  rw [IPNetwork.subnets, if_neg (Nat.ne_of_lt h), if_neg (by omega)]
  simp only [Nat.add_sub_cancel_left]

theorem calculateSubnets_of_ok {cidr : String} {net : IPNetwork} (hnet : anyNetwork cidr = .ok net)
    (n : ℕ) : calculateSubnets cidr n = (do
      let subnets ← net.subnets (searchPrefix net.block.len n 0)
      return (subnets.take n).map IPNetwork.str) := by
  have htake : ∀ subnets : List IPNetwork, takeTo subnets n = subnets.take n := fun subnets => by
    rw [takeTo, if_pos (Int.natCast_nonneg n), Int.toNat_natCast]
  simp only [calculateSubnets, hnet, ok_bind, htake]

/-- **Of more than one address, the promise is kept.** -/
theorem keepsPromise_of_lt {cidr : String} {net : IPNetwork} (hnet : anyNetwork cidr = .ok net)
    (h : net.block.len < net.version.maxPrefixlen) (n : ℕ) :
    KeepsPromise net n (calculateSubnets cidr n) := by
  obtain ⟨bits, hsearch, hbits⟩ := searchPrefix_isLeast net.block.len n
  rw [calculateSubnets_of_ok hnet, hsearch, IPNetwork.subnets_of_lt h]
  by_cases hfit : net.block.len + bits ≤ net.version.maxPrefixlen
  · rw [dif_pos hfit]
    refine ⟨fun cidrs hcidrs => ?_, fun _ => ⟨_, rfl⟩, fun hsmall => ?_⟩
    · refine ⟨none, _, subdivides_of_take net.block hfit hbits, ?_⟩
      obtain rfl := Except.ok.inj hcidrs
      rw [← List.map_take, List.map_map]
      rfl
    · have hroom : n ≤ net.block.size :=
        le_trans hbits.1 (Nat.pow_le_pow_right (by decide) (by omega))
      exact absurd hsmall (Nat.not_lt.mpr hroom)
  · rw [dif_neg hfit]
    refine ⟨fun cidrs hcidrs => absurd hcidrs (by simp), fun hroom => ?_, fun _ => ⟨_, rfl⟩⟩
    -- The bits left to the supernet would have been enough.
    have henough : bits ≤ net.version.maxPrefixlen - net.block.len := hbits.2 hroom
    omega

/-- A single address comes back alone, however many subnets were asked for. -/
theorem calculateSubnets_of_single {cidr : String} {net : IPNetwork}
    (hnet : anyNetwork cidr = .ok net) (h : net.block.len = net.version.maxPrefixlen) {n : ℕ}
    (hn : 1 ≤ n) : calculateSubnets cidr n = .ok [net.str] := by
  rw [calculateSubnets_of_ok hnet, IPNetwork.subnets_of_single h, ok_bind,
    List.take_of_length_le hn]
  rfl

/-- A single address subdivides itself. -/
theorem subdivides_single {w : ℕ} (net : Block w) : Subdivides net 1 [net] where
  length := rfl
  disjoint := List.pairwise_singleton _ _
  equalSize b hb c hc := by rw [List.mem_singleton.mp hb, List.mem_singleton.mp hc]
  inside b hb := by rw [List.mem_singleton.mp hb]
  consecutive i hi := by
    obtain rfl : i = 0 := by simpa using hi
    simp
  least := ⟨0, ⟨le_refl 1, fun k _ => Nat.zero_le k⟩, fun b hb => by
    rw [List.mem_singleton.mp hb, Nat.add_zero]⟩

/-- **`calculate_subnets` keeps its promise exactly on a supernet of more than one address, or for
one subnet.** -/
theorem keepsPromise_iff {cidr : String} {net : IPNetwork} (hnet : anyNetwork cidr = .ok net)
    {n : ℕ} (hn : 1 ≤ n) : KeepsPromise net n (calculateSubnets cidr n) ↔
      net.block.len < net.version.maxPrefixlen ∨ n = 1 := by
  constructor
  · rintro ⟨hsubdivides, -, -⟩
    rcases Nat.lt_or_eq_of_le net.block.len_le with hlt | hsingle
    · exact .inl hlt
    · obtain ⟨scopeId, blocks, hsub, hcidrs⟩ :=
        hsubdivides _ (calculateSubnets_of_single hnet hsingle hn)
      have hlen := congrArg List.length hcidrs
      rw [List.length_map, hsub.length] at hlen
      exact .inr hlen.symm
  · rintro (hlt | rfl)
    · exact keepsPromise_of_lt hnet hlt n
    · rcases Nat.lt_or_eq_of_le net.block.len_le with hlt | hsingle
      · exact keepsPromise_of_lt hnet hlt 1
      · rw [calculateSubnets_of_single hnet hsingle hn]
        refine ⟨fun cidrs hcidrs => ⟨net.scopeId, [net.block], subdivides_single net.block, ?_⟩,
          fun _ => ⟨_, rfl⟩, fun hsmall => ?_⟩
        · exact (Except.ok.inj hcidrs).symm
        · exact absurd hsmall (Nat.not_lt.mpr (Nat.two_pow_pos _))

/-- The network `10.0.0.0/16`. -/
def tenNet : IPNetwork where
  version := .v4
  scopeId := none
  block := {
    base := 167772160
    len := 16
    len_le := by decide
    base_lt := by decide
    aligned := by decide }

/-- Three subnets of it are the first three of its four quarters. -/
theorem keepsPromise_iff_three :
    calculateSubnets "10.0.0.0/16" 3 = .ok ["10.0.0.0/18", "10.0.64.0/18", "10.0.128.0/18"] ∧
      KeepsPromise tenNet 3 (calculateSubnets "10.0.0.0/16" 3) := by
  have hnet : anyNetwork "10.0.0.0/16" = .ok tenNet := anyNetwork_of_v4 (by decide)
  have hsearch : searchPrefix 16 3 0 = 18 := by
    rw [searchPrefix, if_pos (by decide), searchPrefix, if_pos (by decide), searchPrefix,
      if_neg (by decide)]
  refine ⟨?_, (keepsPromise_iff hnet (by decide)).mpr (.inl (by decide))⟩
  rw [calculateSubnets, hnet, ok_bind, show tenNet.block.len = 16 from rfl, hsearch]
  decide

/-- The single address `10.0.0.1/32`. -/
def singleAddress : IPNetwork where
  version := .v4
  scopeId := none
  block := {
    base := 167772161
    len := 32
    len_le := le_refl 32
    base_lt := by decide
    aligned := by decide }

private theorem anyNetwork_singleAddress : anyNetwork "10.0.0.1/32" = .ok singleAddress :=
  anyNetwork_of_v4 (by decide)

/-- Two subnets of a single address are one. -/
theorem singleAddress_notSplit : ¬ ∀ (cidr : String) (net : IPNetwork) (n : ℕ),
    anyNetwork cidr = .ok net → 1 ≤ n → KeepsPromise net n (calculateSubnets cidr n) := by
  intro hall
  obtain ⟨hsubdivides, -, -⟩ :=
    hall "10.0.0.1/32" singleAddress 2 anyNetwork_singleAddress (by decide)
  obtain ⟨scopeId, blocks, hsub, hcidrs⟩ :=
    hsubdivides _ (calculateSubnets_of_single anyNetwork_singleAddress rfl (by decide))
  have hlen := congrArg List.length hcidrs
  rw [List.length_map, hsub.length] at hlen
  exact absurd hlen (by decide)

end CloudSpells
