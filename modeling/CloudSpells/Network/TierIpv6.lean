import CloudSpells.Network.Helper
import CloudSpells.Network.Ipv6Text
import CloudSpells.Network.Tiers

/-!
# Network/TierIpv6 — the IPv6 networks of the tiers

Of a VCN with IPv6, every tier gets one of the `/64` networks of the block OCI assigned, by a fixed
slot (`ipv6Slot`).  **The tiers get four networks of their own exactly where the block is an IPv6
block of prefix 62 or shorter** (`dualStack_iff`): then the CIDRs, read back, are disjoint `/64`s
inside the block, in the order of the tiers' IPv4 networks.
-/

namespace CloudSpells

open Machinery

/-- `_compute_ipv6_subnet_cidr`, with the blocks that OCI assigned. -/
def computeIpv6SubnetCidr (ipv6Enabled : Bool) (ipv6cidrBlocks : List String) (idx : ℕ) :
    Except PyError String :=
  if ipv6Enabled = false then
    .error (.runtimeError
      "_compute_ipv6_subnet_cidr called when IPv6 is not enabled on this VCN")
  else do
    let net ← anyNetwork (← getItem ipv6cidrBlocks 0)
    let subnets ← net.subnets 64
    return (← getItem subnets idx).str

/-- The slot of a tier in `_create_subnets`. -/
def ipv6Slot : SubnetTier → ℕ
  | .priv => 0
  | .sec => 1
  | .pub => 2
  | .mgmt => 3

/-- The `ipv6_cidr` of a tier's `_SubnetConfig`. -/
def ipv6Cidr (ipv6Enabled : Bool) (ipv6cidrBlocks : List String) (tier : SubnetTier) :
    Except PyError (Option String) :=
  if ipv6Enabled then some <$> computeIpv6SubnetCidr ipv6Enabled ipv6cidrBlocks (ipv6Slot tier)
  else .ok none

/-! ## The order of the tiers -/

theorem ipv6Slot_injective : Function.Injective ipv6Slot := by decide

theorem not_before_of_before {w : ℕ} {b c : Block w} (h : b.Before c) : ¬ c.Before b := fun h' => by
  have hpos : 0 < b.size := Nat.two_pow_pos _
  have hself : b.base + b.size ≤ b.base := Block.Before.trans h h'
  omega

/-- Networks that lie in the order of the slots lie in no other. -/
theorem before_iff_of_slot {w : ℕ} {blocks : SubnetTier → Block w}
    (h : ∀ s t, ipv6Slot s < ipv6Slot t → (blocks s).Before (blocks t)) (s t : SubnetTier) :
    (blocks s).Before (blocks t) ↔ ipv6Slot s < ipv6Slot t := by
  refine ⟨fun hbefore => ?_, h s t⟩
  rcases lt_trichotomy (ipv6Slot s) (ipv6Slot t) with hlt | heq | hgt
  · exact hlt
  · obtain rfl := ipv6Slot_injective heq
    exact absurd hbefore (not_before_of_before hbefore)
  · exact absurd hbefore (not_before_of_before (h t s hgt))

/-- **The IPv4 networks of the tiers lie in the order of the slots.** -/
theorem tierBlock_before_of_slot (net : IPv4Network) (h : net.len + 3 ≤ 32) (s t : SubnetTier)
    (hlt : ipv6Slot s < ipv6Slot t) : (tierBlock net h s).Before (tierBlock net h t) := by
  obtain ⟨hps, hsu, hum⟩ := tierBlock_before net h
  cases s <;> cases t <;> first
    | exact absurd hlt (by decide)
    | assumption
    | exact hps.trans hsu
    | exact hsu.trans hum
    | exact hps.trans (hsu.trans hum)

/-! ## The networks of the slots -/

theorem getItem_split {w : ℕ} (b : Block w) {k : ℕ} (h : b.len + k ≤ w) {i : ℕ} (hi : i < 2 ^ k) :
    getItem (b.split k h) i = .ok (b.piece k h ⟨i, hi⟩) := by
  rw [getItem, List.getElem?_eq_getElem (by rwa [Block.length_split])]
  simp [Block.split]

theorem getItem_map {α β : Type} {xs : List α} {i : ℕ} {x : α} (h : getItem xs i = .ok x)
    (f : α → β) : getItem (xs.map f) i = .ok (f x) := by
  rw [getItem] at h
  split at h
  · next y hy =>
    rw [getItem, List.getElem?_map, hy, ← Except.ok.inj h]
    rfl
  · cases h

theorem lt_of_getItem {α : Type} {xs : List α} {i : ℕ} {x : α} (h : getItem xs i = .ok x) :
    i < xs.length := by
  rw [getItem] at h
  split at h
  · next hx => exact (List.getElem?_eq_some_iff.mp hx).1
  · cases h

variable {block cidr : String} {blocks : List String} {net : IPNetwork} {idx : ℕ}

/-- What a slot returns is one of the networks of the block. -/
theorem exists_getItem_of_compute (hnet : anyNetwork block = .ok net)
    (h : computeIpv6SubnetCidr true (block :: blocks) idx = .ok cidr) :
    ∃ subnets subnet, net.subnets 64 = .ok subnets ∧ getItem subnets idx = .ok subnet := by
  rw [computeIpv6SubnetCidr, if_neg (by decide), getItem_cons_zero, ok_bind, hnet, ok_bind] at h
  obtain ⟨subnets, hsubnets, h⟩ := bind_eq_ok.mp h
  obtain ⟨subnet, hsubnet, -⟩ := bind_eq_ok.mp h
  exact ⟨subnets, subnet, hsubnets, hsubnet⟩

/-- Only a block of at least four `/64` networks fills the last slot. -/
theorem le_of_compute (hnet : anyNetwork block = .ok net)
    (h : computeIpv6SubnetCidr true (block :: blocks) 3 = .ok cidr) :
    net.version = .v6 ∧ net.block.len ≤ 62 := by
  obtain ⟨subnets, subnet, hsubnets, hsubnet⟩ := exists_getItem_of_compute hnet h
  have hlt := lt_of_getItem hsubnet
  rw [IPNetwork.subnets] at hsubnets
  split_ifs at hsubnets with hsingle hlong hfit
  · obtain rfl := Except.ok.inj hsubnets
    simp at hlt
  · obtain rfl := Except.ok.inj hsubnets
    obtain ⟨version, scopeId, b⟩ := net
    cases version with
    | v4 => exact absurd hfit (by simp only [IPVersion.maxPrefixlen]; omega)
    | v6 =>
      refine ⟨rfl, ?_⟩
      by_contra hgt
      have hle : 64 - b.len ≤ 1 := by simp only at hgt; omega
      have hpow : 2 ^ (64 - b.len) ≤ 2 ^ 1 := Nat.pow_le_pow_right (by decide) hle
      rw [List.length_map, Block.length_split] at hlt
      have hlt' : 3 < 2 ^ (64 - b.len) := hlt
      omega

/-- **An IPv6 block of prefix 64 or shorter fills its slots** with its `/64` networks, in order. -/
theorem computeIpv6SubnetCidr_of_le {scopeId : Option String} {b : Block 128}
    (hnet : anyNetwork block = .ok ⟨.v6, scopeId, b⟩) (hfit : b.len + (64 - b.len) ≤ 128)
    (hlen : b.len ≤ 64) (hidx : idx < 2 ^ (64 - b.len)) :
    computeIpv6SubnetCidr true (block :: blocks) idx =
      .ok (IPNetwork.str ⟨.v6, none, b.piece (64 - b.len) hfit ⟨idx, hidx⟩⟩) := by
  have hsubnets : IPNetwork.subnets ⟨.v6, scopeId, b⟩ 64 =
      .ok ((b.split (64 - b.len) hfit).map fun block => ⟨.v6, none, block⟩) := by
    rw [IPNetwork.subnets, if_neg (by simp only [IPVersion.maxPrefixlen]; omega),
      if_neg (by simp only; omega)]
    exact dif_pos hfit
  have hitem : getItem ((b.split (64 - b.len) hfit).map fun block =>
      IPNetwork.mk .v6 none block) idx =
        .ok ⟨.v6, none, b.piece (64 - b.len) hfit ⟨idx, hidx⟩⟩ :=
    getItem_map (getItem_split b hfit hidx) _
  rw [computeIpv6SubnetCidr, if_neg (by decide), getItem_cons_zero, ok_bind, hnet, ok_bind,
    hsubnets, ok_bind, hitem, ok_bind]
  rfl

/-! ## Dual stack -/

/-- Every tier has an IPv6 network of its own: a `/64` inside the block assigned, disjoint from the
others and in the order of the tiers' IPv4 networks.  All of it is read off the CIDRs as written. -/
structure DualStack (cidrs : SubnetCidrs) (net : IPNetwork)
    (ipv6 : SubnetTier → Except PyError (Option String)) (subnets : SubnetTier → Block 128) :
    Prop where
  reads : ∀ t, ∃ cidr, ipv6 t = .ok (some cidr) ∧ anyNetwork cidr = .ok ⟨.v6, none, subnets t⟩
  len : ∀ t, (subnets t).len = 64
  inside : ∀ t, (subnets t).addresses ⊆ net.block.addresses
  disjoint : Pairwise fun s t => Disjoint (subnets s).addresses (subnets t).addresses
  order : ∀ s t m n, ipNetwork (cidrs.ofTier s) = .ok m → ipNetwork (cidrs.ofTier t) = .ok n →
    ((subnets s).Before (subnets t) ↔ m.Before n)

theorem ipv6Slot_lt {len : ℕ} (h : len ≤ 62) (t : SubnetTier) : ipv6Slot t < 2 ^ (64 - len) := by
  have hpow : 2 ^ 2 ≤ 2 ^ (64 - len) := Nat.pow_le_pow_right (by decide) (by omega)
  have hslot : ipv6Slot t < 4 := by cases t <;> decide
  omega

/-- The network of a slot. -/
def slotBlock (b : Block 128) (h : b.len ≤ 62) (t : SubnetTier) : Block 128 :=
  b.piece (64 - b.len) (by omega) ⟨ipv6Slot t, ipv6Slot_lt h t⟩

theorem slotBlock_before (b : Block 128) (h : b.len ≤ 62) (s t : SubnetTier)
    (hlt : ipv6Slot s < ipv6Slot t) : (slotBlock b h s).Before (slotBlock b h t) :=
  b.piece_before _ hlt

/-- The last tier gets its network only of an IPv6 block of prefix 62 or shorter. -/
theorem le_of_ipv6Cidr_mgmt (hnet : anyNetwork block = .ok net) {result : Option String}
    (h : ipv6Cidr true (block :: blocks) .mgmt = .ok result) :
    net.version = .v6 ∧ net.block.len ≤ 62 := by
  obtain ⟨cidr, hcidr, -⟩ := bind_eq_ok.mp h
  exact le_of_compute hnet hcidr

/-- **A VCN with IPv6 is dual-stack exactly where OCI assigned an IPv6 block of prefix 62 or
shorter**, whatever its IPv4 CIDR; of any other block, at least one tier raises. -/
theorem dualStack_iff {vcnCidr : String} {cidrs : SubnetCidrs}
    (hsplit : splitTiers vcnCidr = .ok cidrs) (hnet : anyNetwork block = .ok net) :
    ((∃ subnets, DualStack cidrs net (ipv6Cidr true (block :: blocks)) subnets) ↔
      net.version = .v6 ∧ net.block.len ≤ 62) ∧
    (¬ (net.version = .v6 ∧ net.block.len ≤ 62) →
      ∃ tier e, ipv6Cidr true (block :: blocks) tier = .error e) := by
  refine ⟨⟨?_, ?_⟩, fun hother => ?_⟩
  · rintro ⟨subnets, h⟩
    obtain ⟨cidr, hcidr, -⟩ := h.reads .mgmt
    exact le_of_ipv6Cidr_mgmt hnet hcidr
  · obtain ⟨version, scopeId, b⟩ := net
    rintro ⟨rfl, hlen⟩
    obtain ⟨vcn, -, hvcn, hcidrs⟩ := splitTiers_eq_ok.mp hsplit
    have hlen' : b.len ≤ 62 := hlen
    refine ⟨slotBlock b hlen', fun t => ⟨_, ?_, anyNetwork_str rfl⟩, fun t => ?_, fun t a ha => ?_,
      fun s t hst => ?_, fun s t m n hm hn => ?_⟩
    · rw [ipv6Cidr, if_pos rfl, computeIpv6SubnetCidr_of_le hnet (by omega) (by omega)
        (ipv6Slot_lt hlen' t)]
      rfl
    · change b.len + (64 - b.len) = 64
      omega
    · exact Block.contains_of_piece ha
    · exact b.disjoint_of_piece _ fun heq =>
        hst (ipv6Slot_injective (Fin.mk.inj heq))
    · rw [hcidrs s, ipNetwork_str] at hm
      rw [hcidrs t, ipNetwork_str] at hn
      obtain rfl := Except.ok.inj hm
      obtain rfl := Except.ok.inj hn
      rw [before_iff_of_slot (slotBlock_before b hlen') s t,
        before_iff_of_slot (tierBlock_before_of_slot vcn hvcn) s t]
  · cases hresult : ipv6Cidr true (block :: blocks) .mgmt with
    | error e => exact ⟨.mgmt, e, hresult⟩
    | ok result => exact absurd (le_of_ipv6Cidr_mgmt hnet hresult) hother

/-- A `/56`, as OCI assigns them. -/
def assignedBlock : Block 128 where
  base := 0x2603c020800012000000000000000000
  len := 56
  len_le := by decide
  base_lt := by decide
  aligned := by decide

/-- A `/63` of it, which has two `/64`s. -/
def smallBlock : Block 128 where
  base := 0x2603c020800012000000000000000000
  len := 63
  len_le := by decide
  base_lt := by decide
  aligned := by decide

theorem assignedBlock_str :
    IPNetwork.str ⟨.v6, none, assignedBlock⟩ = "2603:c020:8000:1200::/56" ∧
      IPNetwork.str ⟨.v6, none, smallBlock⟩ = "2603:c020:8000:1200::/63" := by decide +kernel

theorem dualStack_iff_default : (∃ subnets, DualStack
    ⟨"10.0.192.0/19", "10.0.0.0/17", "10.0.128.0/18", "10.0.224.0/19"⟩ ⟨.v6, none, assignedBlock⟩
    (ipv6Cidr true ["2603:c020:8000:1200::/56"]) subnets) ∧
    ∃ tier e, ipv6Cidr true ["2603:c020:8000:1200::/63"] tier = .error e := by
  have hsplit : splitTiers "10.0.0.0/16" = .ok
      ⟨"10.0.192.0/19", "10.0.0.0/17", "10.0.128.0/18", "10.0.224.0/19"⟩ := by decide +kernel
  have hnet : anyNetwork "2603:c020:8000:1200::/56" = .ok ⟨.v6, none, assignedBlock⟩ := by
    rw [← assignedBlock_str.1, anyNetwork_str rfl]
  have hsmall : anyNetwork "2603:c020:8000:1200::/63" = .ok ⟨.v6, none, smallBlock⟩ := by
    rw [← assignedBlock_str.2, anyNetwork_str rfl]
  exact ⟨(dualStack_iff hsplit hnet).1.mpr ⟨rfl, by decide⟩,
    (dualStack_iff hsplit hsmall).2 fun h => absurd h.2 (by decide)⟩

end CloudSpells
