import CloudSpells.Network.Packet

/-!
# Network/Translate — cloud-neutral rules as security-list rules

`translateIngressRule` and `translateEgressRule` are the source's two translators.  They share the
protocol table and the port options and differ in the symbolic peers they resolve: both know
`"internet"`, only the egress one knows `"cloud-services"`.

A translated rule says what the neutral one said exactly when no port bound is dropped
(`BoundsKept`) and no ingress rule names the service network (`translateIngressRule_iff`,
`translateEgressRule_iff`).
-/

namespace CloudSpells

/-- `_PROTOCOL_MAP.get(protocol, protocol)`. -/
def protocolMap (protocol : String) : String :=
  if protocol = "tcp" then "6"
  else if protocol = "udp" then "17"
  else if protocol = "icmp" then "1"
  else if protocol = "all" then "all"
  else protocol

/-- The TCP options both translators write: for TCP only, a missing bound being filled in. -/
def translateTcpOptions (protocol : String) (portMin portMax : Option ℤ) : Option PortRange :=
  if protocol = "tcp" ∧ (portMin.isSome ∨ portMax.isSome) then
    some { min := portMin.getD 1, max := portMax.getD 65535 }
  else none

/-- `_translate_ingress_rule`. -/
def translateIngressRule (rule : IngressRule) : SecurityListRule where
  protocol := protocolMap rule.protocol
  peer := if rule.source = "internet" then "0.0.0.0/0" else rule.source
  peerType := .cidrBlock
  tcpOptions := translateTcpOptions rule.protocol rule.portMin rule.portMax
  description := rule.description

/-- `_translate_egress_rule`. -/
def translateEgressRule (svcCidrBlock : String) (rule : EgressRule) : SecurityListRule where
  protocol := protocolMap rule.protocol
  peer :=
    if rule.destination = "cloud-services" then svcCidrBlock
    else if rule.destination = "internet" then "0.0.0.0/0" else rule.destination
  peerType := if rule.destination = "cloud-services" then .serviceCidrBlock else .cidrBlock
  tcpOptions := translateTcpOptions rule.protocol rule.portMin rule.portMax
  description := rule.description

/-! ## Transports -/

/-- The protocols a cloud-neutral rule may name. -/
def IsProtocol (protocol : String) : Prop := protocol ∈ ["tcp", "udp", "icmp", "all"]

instance (protocol : String) : Decidable (IsProtocol protocol) :=
  inferInstanceAs (Decidable (_ ∈ _))

/-- No port bound is lost: the protocol is one whose bounds are translated, or has none, or the
bounds let every port through. -/
def BoundsKept (protocol : String) (portMin portMax : Option ℤ) : Prop :=
  protocol = "tcp" ∨ protocol = "icmp" ∨
    (∀ m, portMin = some m → m ≤ 1) ∧ ∀ m, portMax = some m → 65535 ≤ m

/-- Bounds that let every port through. -/
theorem inBounds_of_open {portMin portMax : Option ℤ}
    (h : (∀ m, portMin = some m → m ≤ 1) ∧ ∀ m, portMax = some m → 65535 ≤ m) (port : Port) :
    InBounds portMin portMax port := by
  obtain ⟨p, hlo, hhi⟩ := port
  refine ⟨fun m hm => ?_, fun m hm => ?_⟩
  · have := h.1 m hm
    push_cast
    omega
  · have := h.2 m hm
    push_cast
    omega

/-- …and they are the only ones: other bounds shut out the first port or the last. -/
theorem open_of_inBounds {portMin portMax : Option ℤ} (h : ∀ port, InBounds portMin portMax port) :
    (∀ m, portMin = some m → m ≤ 1) ∧ ∀ m, portMax = some m → 65535 ≤ m :=
  ⟨fun m hm => (h ⟨1, by omega⟩).1 m hm, fun m hm => (h ⟨65535, by omega⟩).2 m hm⟩

/-- **The TCP options are the bounds.** -/
theorem permits_translateTcpOptions {portMin portMax : Option ℤ} {port : Port} :
    PortRange.Permits (translateTcpOptions "tcp" portMin portMax) port ↔
      InBounds portMin portMax port := by
  obtain ⟨p, hlo, hhi⟩ := port
  cases portMin <;> cases portMax <;>
    simp only [translateTcpOptions, PortRange.Permits, InBounds, Option.isSome_none,
      Option.isSome_some, Option.getD_none, Option.getD_some, Bool.false_eq_true, or_self, or_true,
      true_or, and_false, and_true, if_true, if_false, reduceCtorEq, false_imp_iff, implies_true,
      Option.some.injEq, forall_eq', true_and] <;> omega

/-- A protocol number other than the three named ones is not written as one of them. -/
private theorem ne_repr_other (number : { n : ℕ // n ≠ 1 ∧ n ≠ 6 ∧ n ≠ 17 }) :
    "6" ≠ number.val.repr ∧ "17" ≠ number.val.repr ∧ "1" ≠ number.val.repr := by
  obtain ⟨n, h1, h6, h17⟩ := number
  have hne : ∀ k, n ≠ k → Nat.repr k ≠ n.repr := fun k hk h => hk (Nat.repr_injective h).symm
  exact ⟨hne 6 h6, hne 17 h17, hne 1 h1⟩

/-- Missing bounds let every port through. -/
theorem inBounds_none (port : Port) : InBounds none none port :=
  inBounds_of_open ⟨by simp, by simp⟩ port

section Transport

variable {r : SecurityListRule} {protocol : String} {portMin portMax : Option ℤ}

/-- The fields of a translated rule that say which transports it is about. -/
def TransportOf (r : SecurityListRule) (protocol : String) (portMin portMax : Option ℤ) : Prop :=
  r.protocol = protocolMap protocol ∧
    r.tcpOptions = translateTcpOptions protocol portMin portMax ∧
    r.udpOptions = none ∧ r.icmpOptions = none

private theorem permitsTransport_tcp (h : TransportOf r "tcp" portMin portMax) (t : Transport) :
    r.PermitsTransport t ↔ NeutralTransport "tcp" portMin portMax t := by
  obtain ⟨hproto, hopts, -, -⟩ := h
  cases t with
  | tcp port =>
    rw [SecurityListRule.PermitsTransport, hproto, hopts, permits_translateTcpOptions]
    simp [protocolMap, NeutralTransport]
  | udp port => simp [SecurityListRule.PermitsTransport, NeutralTransport, hproto, protocolMap]
  | icmp type code =>
    simp [SecurityListRule.PermitsTransport, NeutralTransport, hproto, protocolMap]
  | other number =>
    simp [SecurityListRule.PermitsTransport, NeutralTransport, hproto, protocolMap,
      (ne_repr_other number).1]

private theorem permitsTransport_icmp (h : TransportOf r "icmp" portMin portMax) (t : Transport) :
    r.PermitsTransport t ↔ NeutralTransport "icmp" portMin portMax t := by
  obtain ⟨hproto, -, -, hicmp⟩ := h
  cases t with
  | tcp port => simp [SecurityListRule.PermitsTransport, NeutralTransport, hproto, protocolMap]
  | udp port => simp [SecurityListRule.PermitsTransport, NeutralTransport, hproto, protocolMap]
  | icmp type code =>
    simp [SecurityListRule.PermitsTransport, NeutralTransport, hproto, hicmp, protocolMap,
      IcmpOptions.Permits]
  | other number =>
    simp [SecurityListRule.PermitsTransport, NeutralTransport, hproto, protocolMap,
      (ne_repr_other number).2.2]

/-- A UDP rule is translated without its bounds. -/
private theorem permitsTransport_udp (h : TransportOf r "udp" portMin portMax) (t : Transport) :
    r.PermitsTransport t ↔ NeutralTransport "udp" none none t := by
  obtain ⟨hproto, -, hudp, -⟩ := h
  cases t with
  | tcp port => simp [SecurityListRule.PermitsTransport, NeutralTransport, hproto, protocolMap]
  | udp port =>
    simp [SecurityListRule.PermitsTransport, NeutralTransport, hproto, hudp, protocolMap,
      PortRange.Permits, InBounds]
  | icmp type code =>
    simp [SecurityListRule.PermitsTransport, NeutralTransport, hproto, protocolMap]
  | other number =>
    simp [SecurityListRule.PermitsTransport, NeutralTransport, hproto, protocolMap,
      (ne_repr_other number).2.1]

/-- …and so is a rule about every protocol. -/
private theorem permitsTransport_all (h : TransportOf r "all" portMin portMax) (t : Transport) :
    r.PermitsTransport t ↔ NeutralTransport "all" none none t := by
  obtain ⟨hproto, -, -, -⟩ := h
  cases t <;>
    simp [SecurityListRule.PermitsTransport, NeutralTransport, hproto, protocolMap, InBounds]

/-- **A translated rule is about the transports of the neutral one iff no bound is lost.** -/
theorem permitsTransport_iff (hr : TransportOf r protocol portMin portMax)
    (hp : IsProtocol protocol) :
    (∀ t, r.PermitsTransport t ↔ NeutralTransport protocol portMin portMax t) ↔
      BoundsKept protocol portMin portMax := by
  have hcases : protocol = "tcp" ∨ protocol = "udp" ∨ protocol = "icmp" ∨ protocol = "all" := by
    simpa [IsProtocol] using hp
  rcases hcases with rfl | rfl | rfl | rfl
  · exact iff_of_true (permitsTransport_tcp hr) (Or.inl rfl)
  · simp only [permitsTransport_udp hr, BoundsKept]
    constructor
    · refine fun h => Or.inr (Or.inr (open_of_inBounds fun port => ?_))
      exact ((h (.udp port)).mp ⟨Or.inl rfl, inBounds_none port⟩).2
    · intro h t
      have hopen := (h.resolve_left (by decide)).resolve_left (by decide)
      cases t <;> simp [NeutralTransport, inBounds_none, inBounds_of_open hopen]
  · exact iff_of_true (permitsTransport_icmp hr) (Or.inr (Or.inl rfl))
  · simp only [permitsTransport_all hr, BoundsKept]
    constructor
    · refine fun h => Or.inr (Or.inr (open_of_inBounds fun port => ?_))
      exact ((h (.udp port)).mp ⟨Or.inr rfl, inBounds_none port⟩).2
    · intro h t
      have hopen := (h.resolve_left (by decide)).resolve_left (by decide)
      cases t <;> simp [NeutralTransport, inBounds_none, inBounds_of_open hopen]

end Transport

/-! ## Rules -/

/-- `0.0.0.0/0` is every address. -/
theorem cidrContains_internet (a : Fin (2 ^ 32)) : CidrContains "0.0.0.0/0" a := by
  have hzero : ipNetwork "0.0.0.0/0" = .ok ⟨0, 0, by decide, by decide, by decide⟩ := by
    decide +kernel
  refine ⟨_, hzero, Nat.zero_le _, ?_⟩
  simp [Machinery.Block.size]

section Rule

variable {cloud : Cloud}

/-- A rule says what a neutral one said: it lets the same packets through, and a peer that was the
service network is its label, as such. -/
def SameMeaning (cloud : Cloud) (permits : Packet → Prop) (peer : String) (r : SecurityListRule) :
    Prop :=
  (∀ p, r.Permits cloud p ↔ permits p) ∧
    (peer = "cloud-services" → r.peer = getSvcCidr cloud ∧ r.peerType = .serviceCidrBlock)

/-- Where the peers agree and there are any, the packets agree iff the transports do. -/
private theorem permits_iff_of_peer {r : SecurityListRule} {transport : Transport → Prop}
    {peer : Fin (2 ^ 32) → Prop} (hpeer : ∀ a, r.PermitsPeer cloud a ↔ peer a) (hex : ∃ a, peer a) :
    (∀ p, r.Permits cloud p ↔ transport p.transport ∧ peer p.peer) ↔
      ∀ t, r.PermitsTransport t ↔ transport t := by
  constructor
  · intro h t
    obtain ⟨a, ha⟩ := hex
    have := h ⟨t, a⟩
    simpa only [SecurityListRule.Permits, hpeer, ha, and_true] using this
  · intro h p
    rw [SecurityListRule.Permits, h, hpeer]

/-- The translated ingress rule has the neutral rule's peers, unless these are the services. -/
private theorem permitsPeer_ingress {rule : IngressRule} (h : rule.source ≠ "cloud-services")
    (a : Fin (2 ^ 32)) :
    (translateIngressRule rule).PermitsPeer cloud a ↔ NeutralPeer cloud rule.source a := by
  unfold SecurityListRule.PermitsPeer NeutralPeer translateIngressRule
  by_cases hi : rule.source = "internet"
  · simp only [hi, if_true, iff_true]
    exact cidrContains_internet a
  · simp only [if_neg hi, if_neg h]

/-- The translated egress rule has the neutral rule's peers. -/
private theorem permitsPeer_egress (rule : EgressRule) (a : Fin (2 ^ 32)) :
    (translateEgressRule (getSvcCidr cloud) rule).PermitsPeer cloud a ↔
      NeutralPeer cloud rule.destination a := by
  unfold SecurityListRule.PermitsPeer NeutralPeer translateEgressRule
  by_cases hs : rule.destination = "cloud-services"
  · simp [hs]
  · by_cases hi : rule.destination = "internet"
    · simp only [hi, if_true, iff_true]
      simpa using cidrContains_internet a
    · simp only [if_neg hi, if_neg hs]

/-- **A translated ingress rule says what the neutral one said iff** no bound is lost and its source
is not the service network. -/
theorem translateIngressRule_iff {rule : IngressRule} (hproto : IsProtocol rule.protocol)
    (hpeer : IsPeer rule.source) :
    SameMeaning cloud (rule.Permits cloud) rule.source (translateIngressRule rule) ↔
      BoundsKept rule.protocol rule.portMin rule.portMax ∧ rule.source ≠ "cloud-services" := by
  have hfields : TransportOf (translateIngressRule rule) rule.protocol rule.portMin rule.portMax :=
    ⟨rfl, rfl, rfl, rfl⟩
  by_cases hs : rule.source = "cloud-services"
  · refine iff_of_false (fun h => ?_) fun h => h.2 hs
    exact absurd (h.2 hs).2 (by simp [translateIngressRule])
  · have hpackets : (∀ p, (translateIngressRule rule).Permits cloud p ↔ rule.Permits cloud p) ↔ _ :=
      permits_iff_of_peer (permitsPeer_ingress hs) (exists_neutralPeer cloud hpeer)
    refine (and_iff_left fun h => absurd h hs).trans ?_
    exact (hpackets.trans (permitsTransport_iff hfields hproto)).trans (and_iff_left hs).symm

/-- **A translated egress rule says what the neutral one said iff** no bound is lost. -/
theorem translateEgressRule_iff {rule : EgressRule} (hproto : IsProtocol rule.protocol)
    (hpeer : IsPeer rule.destination) :
    SameMeaning cloud (rule.Permits cloud) rule.destination
        (translateEgressRule (getSvcCidr cloud) rule) ↔
      BoundsKept rule.protocol rule.portMin rule.portMax := by
  have hfields : TransportOf (translateEgressRule (getSvcCidr cloud) rule) rule.protocol
      rule.portMin rule.portMax := ⟨rfl, rfl, rfl, rfl⟩
  have hpackets : (∀ p, (translateEgressRule (getSvcCidr cloud) rule).Permits cloud p ↔
      rule.Permits cloud p) ↔ _ :=
    permits_iff_of_peer (permitsPeer_egress rule) (exists_neutralPeer cloud hpeer)
  refine (and_iff_left fun h => ?_).trans (hpackets.trans (permitsTransport_iff hfields hproto))
  simp only [translateEgressRule, h, if_true, and_self]

end Rule

end CloudSpells
