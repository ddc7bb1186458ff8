import CloudSpells.Network.Cidr

/-!
# Network/Tiers — cutting the VCN's CIDR into its four tiers

`splitTiers` halves the VCN three times: the lower half is the private tier, the lower half of the
rest the secure one, and the remaining two pieces the public and the management tier.  `tierBlock`
is the network of each tier; the CIDRs `splitTiers` returns are these networks, written down
(`splitTiers_eq_ok`), and they partition the VCN (`splitTiers_partition`).
-/

namespace CloudSpells

open Machinery

/-- `IPv4Network.subnets(prefixlen_diff)`: a single address is not cut any further. -/
def subnets (net : IPv4Network) (prefixlenDiff : ℕ) : Except PyError (List IPv4Network) :=
  if net.len = 32 then .ok [net]
  else if h : net.len + prefixlenDiff ≤ 32 then .ok (net.split prefixlenDiff h)
  else .error (.valueError
    s!"prefix length diff {net.len + prefixlenDiff} is invalid for netblock {net.str}")

/-- `_SubnetCidrs`. -/
structure SubnetCidrs where
  pub : String
  priv : String
  sec : String
  mgmt : String
  deriving DecidableEq, Repr

/-- The CIDR of a tier: `get_public_subnet_cidr`, …, `get_management_subnet_cidr`. -/
def SubnetCidrs.ofTier (cidrs : SubnetCidrs) : SubnetTier → String
  | .pub => cidrs.pub
  | .priv => cidrs.priv
  | .sec => cidrs.sec
  | .mgmt => cidrs.mgmt

/-- `Vcn._split_tiers`. -/
def splitTiers (cidr : String) : Except PyError SubnetCidrs := do
  let net ← ipNetwork cidr
  let halves ← subnets net 1
  let priv ← getItem halves 0
  let quarters ← subnets (← getItem halves 1) 1
  let sec ← getItem quarters 0
  let eighths ← subnets (← getItem quarters 1) 1
  let pub ← getItem eighths 0
  let mgmt ← getItem eighths 1
  return { pub := pub.str, priv := priv.str, sec := sec.str, mgmt := mgmt.str }

/-! ## The four networks -/

/-- The half of a network, lower or upper. -/
def half (net : IPv4Network) (h : net.len + 1 ≤ 32) (i : Fin 2) : IPv4Network := net.piece 1 h i

@[simp] theorem half_len (net : IPv4Network) (h : net.len + 1 ≤ 32) (i : Fin 2) :
    (half net h i).len = net.len + 1 := rfl

/-- **A network that can be cut in two is cut in two.** -/
theorem subnets_of_le {net : IPv4Network} (h : net.len + 1 ≤ 32) :
    subnets net 1 = .ok [half net h 0, half net h 1] := by
  rw [subnets, if_neg (by omega), dif_pos h]
  rfl

/-- A single address is one piece. -/
theorem subnets_of_lt {net : IPv4Network} (h : ¬ net.len + 1 ≤ 32) :
    subnets net 1 = .ok [net] := by
  have := net.len_le
  rw [subnets, if_pos (by omega)]

/-- The network of a tier. -/
def tierBlock (net : IPv4Network) (h : net.len + 3 ≤ 32) : SubnetTier → IPv4Network :=
  let upper := half net (by omega) 1
  let upper' := half upper (by simp only [upper, half_len]; omega) 1
  fun
  | .priv => half net (by omega) 0
  | .sec => half upper (by simp only [upper, half_len]; omega) 0
  | .pub => half upper' (by simp only [upper', upper, half_len]; omega) 0
  | .mgmt => half upper' (by simp only [upper', upper, half_len]; omega) 1

/-- A canonical CIDR with fewer than three bits left runs out of pieces. -/
theorem splitTiers_of_lt {cidr : String} {net : IPv4Network} (hnet : ipNetwork cidr = .ok net)
    (h : ¬ net.len + 3 ≤ 32) : splitTiers cidr = .error .indexError := by
  rw [splitTiers, hnet]
  by_cases h1 : net.len + 1 ≤ 32
  · by_cases h2 : (half net h1 1).len + 1 ≤ 32
    · have h3 : ¬ (half (half net h1 1) h2 1).len + 1 ≤ 32 := by
        simp only [half_len]
        omega
      simp only [ok_bind, subnets_of_le h1, subnets_of_le h2, subnets_of_lt h3, getItem_cons_zero,
        getItem_cons_succ, getItem_nil, error_bind]
    · simp only [ok_bind, subnets_of_le h1, subnets_of_lt h2, getItem_cons_zero,
        getItem_cons_succ, getItem_nil, error_bind]
  · simp only [ok_bind, subnets_of_lt h1, getItem_cons_zero, getItem_cons_succ, getItem_nil,
      error_bind]

theorem splitTiers_of_le {cidr : String} {net : IPv4Network} (hnet : ipNetwork cidr = .ok net)
    (h : net.len + 3 ≤ 32) : splitTiers cidr = .ok
      { pub := (tierBlock net h .pub).str, priv := (tierBlock net h .priv).str,
        sec := (tierBlock net h .sec).str, mgmt := (tierBlock net h .mgmt).str } := by
  have h1 : net.len + 1 ≤ 32 := by omega
  have h2 : (half net h1 1).len + 1 ≤ 32 := by
    simp only [half_len]
    omega
  have h3 : (half (half net h1 1) h2 1).len + 1 ≤ 32 := by
    simp only [half_len]
    omega
  rw [splitTiers, hnet]
  simp only [ok_bind, subnets_of_le h1, subnets_of_le h2, subnets_of_le h3, getItem_cons_zero,
    getItem_cons_succ]
  rfl

/-- **What `_split_tiers` accepts and returns**: a canonical CIDR with at least three bits left, and
the networks of its four tiers. -/
theorem splitTiers_eq_ok {cidr : String} {cidrs : SubnetCidrs} :
    splitTiers cidr = .ok cidrs ↔ ∃ net, ipNetwork cidr = .ok net ∧
      ∃ h : net.len + 3 ≤ 32, ∀ t, cidrs.ofTier t = (tierBlock net h t).str := by
  constructor
  · intro hsplit
    cases hnet : ipNetwork cidr with
    | error e => rw [splitTiers, hnet] at hsplit; cases hsplit
    | ok net =>
      by_cases h : net.len + 3 ≤ 32
      · rw [splitTiers_of_le hnet h] at hsplit
        obtain rfl := Except.ok.inj hsplit
        exact ⟨net, rfl, h, fun t => by cases t <;> rfl⟩
      · rw [splitTiers_of_lt hnet h] at hsplit
        cases hsplit
  · rintro ⟨net, hnet, h, hcidrs⟩
    rw [splitTiers_of_le hnet h]
    obtain ⟨pub, priv, sec, mgmt⟩ := cidrs
    rw [← hcidrs .pub, ← hcidrs .priv, ← hcidrs .sec, ← hcidrs .mgmt]
    rfl

/-! ## Where the tiers lie -/

theorem contains_of_half {net : IPv4Network} {h : net.len + 1 ≤ 32} {i : Fin 2} {a : ℕ}
    (ha : (half net h i).Contains a) : net.Contains a := Block.contains_of_piece ha

/-- **Every tier lies inside the VCN.** -/
theorem contains_of_tierBlock {net : IPv4Network} {h : net.len + 3 ≤ 32} {t : SubnetTier} {a : ℕ}
    (ha : (tierBlock net h t).Contains a) : net.Contains a := by
  cases t with
  | priv => exact contains_of_half ha
  | sec => exact contains_of_half (contains_of_half ha)
  | pub => exact contains_of_half (contains_of_half (contains_of_half ha))
  | mgmt => exact contains_of_half (contains_of_half (contains_of_half ha))

/-- The bits a tier's network adds to the VCN's. -/
def tierBits : SubnetTier → ℕ
  | .priv => 1
  | .sec => 2
  | .pub => 3
  | .mgmt => 3

theorem tierBlock_len (net : IPv4Network) (h : net.len + 3 ≤ 32) (t : SubnetTier) :
    (tierBlock net h t).len = net.len + tierBits t := by cases t <;> rfl

/-- The public and the management tier are the two halves of one network. -/
private theorem tierBlock_pub_ne_mgmt (net : IPv4Network) (h : net.len + 3 ≤ 32) :
    tierBlock net h .pub ≠ tierBlock net h .mgmt := by
  intro heq
  have hbase := congrArg Block.base heq
  have hpos : 0 < 2 ^ (32 - (net.len + 1 + 1 + 1)) := Nat.two_pow_pos _
  simp only [tierBlock, half, Block.piece, Fin.val_zero, Fin.val_one] at hbase
  omega

/-- **No two tiers share a network.** -/
theorem tierBlock_injective (net : IPv4Network) (h : net.len + 3 ≤ 32) :
    Function.Injective (tierBlock net h) := by
  intro s t hst
  have hlen := congrArg Block.len hst
  rw [tierBlock_len, tierBlock_len] at hlen
  have hne := tierBlock_pub_ne_mgmt net h
  cases s <;> cases t <;> first
    | rfl
    | exact absurd hst hne
    | exact absurd hst.symm hne
    | (simp only [tierBits] at hlen; omega)

/-- **No tier is the whole address space** — a tier's CIDR is never `0.0.0.0/0`. -/
theorem tierBlock_str_ne (net : IPv4Network) (h : net.len + 3 ≤ 32) (t : SubnetTier) :
    (tierBlock net h t).str ≠ "0.0.0.0/0" := by
  intro heq
  have hzero : ipNetwork "0.0.0.0/0" = .ok ⟨0, 0, by decide, by decide, by decide⟩ := by
    decide
  rw [← heq, ipNetwork_str] at hzero
  have hlen := congrArg Block.len (Except.ok.inj hzero)
  rw [tierBlock_len] at hlen
  cases t <;> simp only [tierBits] at hlen <;> omega

/-! ## Addresses of a CIDR string -/

/-- An address of the network a CIDR string denotes; a string that is no CIDR has none. -/
def CidrContains (cidr : String) (a : ℕ) : Prop := ∃ net, ipNetwork cidr = .ok net ∧ net.Contains a

instance (cidr : String) (a : ℕ) : Decidable (CidrContains cidr a) :=
  match h : ipNetwork cidr with
  | .ok net => decidable_of_iff (net.Contains a) ⟨fun ha => ⟨net, h, ha⟩, fun ⟨net', h', ha⟩ => by
      obtain rfl := Except.ok.inj (h.symm.trans h')
      exact ha⟩
  | .error e => isFalse fun ⟨net', h', _⟩ => by rw [h] at h'; cases h'

theorem cidrContains_str {net : IPv4Network} {a : ℕ} :
    CidrContains net.str a ↔ net.Contains a := by
  constructor
  · rintro ⟨net', h, ha⟩
    rw [ipNetwork_str] at h
    obtain rfl := Except.ok.inj h
    exact ha
  · exact fun ha => ⟨net, ipNetwork_str net, ha⟩

/-- **An address of a tier is an address of the VCN**, read from the strings alone. -/
theorem cidrContains_of_tier {cidr : String} {cidrs : SubnetCidrs}
    (hsplit : splitTiers cidr = .ok cidrs) {t : SubnetTier} {a : ℕ}
    (ha : CidrContains (cidrs.ofTier t) a) : CidrContains cidr a := by
  obtain ⟨net, hnet, h, hcidrs⟩ := splitTiers_eq_ok.mp hsplit
  rw [hcidrs t, cidrContains_str] at ha
  exact ⟨net, hnet, contains_of_tierBlock ha⟩

/-- **The tiers' CIDRs tell the tiers apart.** -/
theorem ofTier_injective {cidr : String} {cidrs : SubnetCidrs}
    (hsplit : splitTiers cidr = .ok cidrs) : Function.Injective cidrs.ofTier := by
  obtain ⟨net, -, h, hcidrs⟩ := splitTiers_eq_ok.mp hsplit
  intro s t hst
  rw [hcidrs s, hcidrs t] at hst
  exact tierBlock_injective net h (str_injective hst)

/-- **A tier is not the internet.** -/
theorem ofTier_ne_internet {cidr : String} {cidrs : SubnetCidrs}
    (hsplit : splitTiers cidr = .ok cidrs) (t : SubnetTier) : cidrs.ofTier t ≠ "0.0.0.0/0" := by
  obtain ⟨net, -, h, hcidrs⟩ := splitTiers_eq_ok.mp hsplit
  rw [hcidrs t]
  exact tierBlock_str_ne net h t

/-! ## The tiers partition the VCN -/

/-- A network is its two halves. -/
theorem addresses_half (net : IPv4Network) (h : net.len + 1 ≤ 32) :
    (half net h 0).addresses ∪ (half net h 1).addresses = net.addresses := by
  ext a
  rw [← Block.iUnion_piece net h, Set.mem_iUnion, Set.mem_union]
  exact (Fin.exists_fin_two (p := fun i => a ∈ (half net h i).addresses)).symm

/-- The lower half ends before the upper one. -/
theorem half_before (net : IPv4Network) (h : net.len + 1 ≤ 32) :
    (half net h 0).Before (half net h 1) := Block.piece_before net h (by decide)

/-- A block before a network is before its halves. -/
theorem before_half {b net : IPv4Network} {h : net.len + 1 ≤ 32} {i : Fin 2} (hb : b.Before net) :
    b.Before (half net h i) := le_trans hb (Nat.le_add_right _ _)

/-- **The tiers lie in address order**: private, secure, public, management. -/
theorem tierBlock_before (net : IPv4Network) (h : net.len + 3 ≤ 32) :
    (tierBlock net h .priv).Before (tierBlock net h .sec) ∧
      (tierBlock net h .sec).Before (tierBlock net h .pub) ∧
      (tierBlock net h .pub).Before (tierBlock net h .mgmt) :=
  ⟨before_half (half_before _ _), before_half (half_before _ _), half_before _ _⟩

/-- **No two tiers share an address.** -/
theorem tierBlock_disjoint (net : IPv4Network) (h : net.len + 3 ≤ 32) :
    Pairwise fun s t => Disjoint (tierBlock net h s).addresses (tierBlock net h t).addresses := by
  obtain ⟨hps, hsu, hum⟩ := tierBlock_before net h
  have hpu := hps.trans hsu
  have hsm := hsu.trans hum
  intro s t hst
  cases s <;> cases t <;> first
    | exact absurd rfl hst
    | exact Block.Before.disjoint (by assumption)
    | exact (Block.Before.disjoint (by assumption)).symm
    | exact (hps.trans hsm).disjoint
    | exact (hps.trans hsm).disjoint.symm

/-- **Together the tiers are the VCN.** -/
theorem iUnion_tierBlock (net : IPv4Network) (h : net.len + 3 ≤ 32) :
    ⋃ t, (tierBlock net h t).addresses = net.addresses := by
  have h1 : net.len + 1 ≤ 32 := by omega
  have h2 : (half net h1 1).len + 1 ≤ 32 := by
    simp only [half_len]
    omega
  have h3 : (half (half net h1 1) h2 1).len + 1 ≤ 32 := by
    simp only [half_len]
    omega
  rw [← addresses_half net h1, ← addresses_half _ h2, ← addresses_half _ h3]
  ext a
  simp only [Set.mem_iUnion, Set.mem_union]
  constructor
  · rintro ⟨t, ha⟩
    cases t with
    | priv => exact .inl ha
    | sec => exact .inr (.inl ha)
    | pub => exact .inr (.inr (.inl ha))
    | mgmt => exact .inr (.inr (.inr ha))
  · rintro (ha | ha | ha | ha)
    · exact ⟨.priv, ha⟩
    · exact ⟨.sec, ha⟩
    · exact ⟨.pub, ha⟩
    · exact ⟨.mgmt, ha⟩

/-- Each tier's share of the VCN. -/
theorem size_tierBlock (net : IPv4Network) (h : net.len + 3 ≤ 32) (t : SubnetTier) :
    2 ^ tierBits t * (tierBlock net h t).size = net.size := by
  have hlen := (tierBlock net h t).len_le
  rw [tierBlock_len] at hlen
  rw [Block.size_eq_mul net hlen, Block.size, tierBlock_len]

/-- A CIDR whose address has a bit set beyond the prefix. -/
def HostBitsSet (cidr : String) : Prop :=
  ∃ ip len, splitAddrPrefix cidr.toList = some (ip, len) ∧ ¬ 2 ^ (32 - len.val) ∣ ip.val

/-- **`_split_tiers` partitions the VCN**: a canonical CIDR of prefix length at most 29 is cut into
aligned networks, disjoint and in address order, that make up the whole, of a half, a quarter and
two eighths of its size; a CIDR with host bits set is refused; and one with fewer than three bits
left never yields tiers. -/
theorem splitTiers_partition (cidr : String) :
    (∀ net, ipNetwork cidr = .ok net → net.len ≤ 29 →
      ∃ (cidrs : SubnetCidrs) (block : SubnetTier → IPv4Network), splitTiers cidr = .ok cidrs ∧
        (∀ t, ipNetwork (cidrs.ofTier t) = .ok (block t)) ∧
        (Pairwise fun s t => Disjoint (block s).addresses (block t).addresses) ∧
        ⋃ t, (block t).addresses = net.addresses ∧
        2 * (block .priv).size = net.size ∧ 4 * (block .sec).size = net.size ∧
        8 * (block .pub).size = net.size ∧ 8 * (block .mgmt).size = net.size ∧
        (block .priv).Before (block .sec) ∧ (block .sec).Before (block .pub) ∧
        (block .pub).Before (block .mgmt)) ∧
    (HostBitsSet cidr → ∃ message, splitTiers cidr = .error (.valueError message)) ∧
    ∀ net, ipNetwork cidr = .ok net → 30 ≤ net.len → ∀ cidrs, splitTiers cidr ≠ .ok cidrs := by
  refine ⟨fun net hnet hlen => ?_, ?_, fun net hnet hlen cidrs hsplit => ?_⟩
  · have h : net.len + 3 ≤ 32 := by omega
    obtain ⟨hps, hsu, hum⟩ := tierBlock_before net h
    refine ⟨_, tierBlock net h, splitTiers_of_le hnet h, fun t => ?_, tierBlock_disjoint net h,
      iUnion_tierBlock net h, size_tierBlock net h .priv, size_tierBlock net h .sec,
      size_tierBlock net h .pub, size_tierBlock net h .mgmt, hps, hsu, hum⟩
    cases t <;> exact ipNetwork_str _
  · rintro ⟨ip, len, hsplit, hbits⟩
    refine ⟨s!"{cidrStr ip len} has host bits set", ?_⟩
    have hnet : ipNetwork cidr = .error (.valueError s!"{cidrStr ip len} has host bits set") := by
      rw [ipNetwork, hsplit]
      exact dif_neg hbits
    rw [splitTiers, hnet]
    rfl
  · have hlt : ¬ net.len + 3 ≤ 32 := by omega
    rw [splitTiers_of_lt hnet hlt] at hsplit
    cases hsplit

end CloudSpells
