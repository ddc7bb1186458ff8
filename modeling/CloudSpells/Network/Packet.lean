import CloudSpells.Core.SecurityRules
import CloudSpells.Network.Rule
import CloudSpells.Network.Tiers

/-!
# Network/Packet — which packets a rule lets through

The meaning of both rule languages, as sets of packets: of the provider's rules
(`SecurityListRule.Permits`) and of the cloud-neutral ones (`IngressRule.Permits`,
`EgressRule.Permits`).  A packet has a transport, with the destination port where there is one, and
the address of its peer.

`Cloud` is what the provider answers: its services, one of which is the "All Services" bundle, and
the addresses behind the label of a service.
-/

namespace CloudSpells

/-- `s.startswith(stem)`. -/
def startsWith (stem s : String) : Bool := stem.toList.isPrefixOf s.toList

theorem startsWith_append (stem s : String) : startsWith stem (stem ++ s) = true := by
  rw [startsWith, String.toList_append, List.isPrefixOf_iff_prefix]
  exact List.prefix_append _ _

/-- A service, as `get_services` lists it. -/
structure Service where
  id : String
  cidrBlock : String
  deriving DecidableEq, Repr

/-- The provider: the services of the region, one of them an `all-*` bundle, and the addresses
behind the label of each. -/
structure Cloud where
  services : List Service
  hasAllServices : (services.find? fun s => startsWith "all-" s.cidrBlock).isSome = true
  serviceNetwork : String → ℕ → Bool
  inhabited : ∀ s ∈ services, ∃ a : Fin (2 ^ 32), serviceNetwork s.cidrBlock a = true

/-- A text that does not start with a stem is not the stem with something after it. -/
theorem ne_append_of_startsWith {stem s : String} (h : startsWith stem s = false) (t : String) :
    s ≠ stem ++ t := by
  rintro rfl
  rw [startsWith_append] at h
  cases h

/-- `get_svc_cidr`: the label of the first `all-*` service. -/
def getSvcCidr (cloud : Cloud) : String :=
  ((cloud.services.find? fun s => startsWith "all-" s.cidrBlock).get cloud.hasAllServices).cidrBlock

theorem startsWith_getSvcCidr (cloud : Cloud) : startsWith "all-" (getSvcCidr cloud) = true := by
  have hfind := (Option.some_get cloud.hasAllServices).symm
  have := List.find?_some hfind
  exact this

/-- **The service label is no CIDR of the internet**, and no symbolic peer. -/
theorem getSvcCidr_ne (cloud : Cloud) {s : String} (h : startsWith "all-" s = false) :
    getSvcCidr cloud ≠ s := by
  intro heq
  have := startsWith_getSvcCidr cloud
  rw [heq, h] at this
  cases this

theorem exists_service_address (cloud : Cloud) :
    ∃ a : Fin (2 ^ 32), cloud.serviceNetwork (getSvcCidr cloud) a = true :=
  cloud.inhabited _ (List.mem_of_find?_eq_some (Option.some_get cloud.hasAllServices).symm)

/-! ## Packets -/

/-- A TCP or UDP port. -/
abbrev Port := { p : ℕ // 1 ≤ p ∧ p ≤ 65535 }

/-- A transport, by what the rules look at; `other` is a protocol by its number. -/
inductive Transport
  | tcp (port : Port)
  | udp (port : Port)
  | icmp (type code : ℕ)
  | other (number : { n : ℕ // n ≠ 1 ∧ n ≠ 6 ∧ n ≠ 17 })
  deriving DecidableEq

/-- A packet, as a security list sees it. -/
structure Packet where
  transport : Transport
  peer : Fin (2 ^ 32)
  deriving DecidableEq

/-! ## The provider's rules -/

/-- A port a rule's options let through; without options it is any port. -/
def PortRange.Permits : Option PortRange → Port → Prop
  | none, _ => True
  | some range, port => range.min ≤ port.val ∧ (port.val : ℤ) ≤ range.max

instance : (range : Option PortRange) → (port : Port) → Decidable (PortRange.Permits range port)
  | none, _ => inferInstanceAs (Decidable True)
  | some _, _ => inferInstanceAs (Decidable (_ ∧ _))

/-- A message a rule's ICMP options let through. -/
def IcmpOptions.Permits : Option IcmpOptions → (type code : ℕ) → Prop
  | none, _, _ => True
  | some { type, code := none }, t, _ => type = t
  | some { type, code := some code }, t, c => type = t ∧ code = c

instance : (options : Option IcmpOptions) → (t c : ℕ) → Decidable (IcmpOptions.Permits options t c)
  | none, _, _ => inferInstanceAs (Decidable True)
  | some { code := none, .. }, _, _ => inferInstanceAs (Decidable (_ = _))
  | some { code := some _, .. }, _, _ => inferInstanceAs (Decidable (_ ∧ _))

namespace SecurityListRule

/-- The transports of a rule: options restrict the protocol they belong to. -/
def PermitsTransport (r : SecurityListRule) : Transport → Prop
  | .tcp port => r.protocol = "all" ∨ r.protocol = "6" ∧ PortRange.Permits r.tcpOptions port
  | .udp port => r.protocol = "all" ∨ r.protocol = "17" ∧ PortRange.Permits r.udpOptions port
  | .icmp type code =>
    r.protocol = "all" ∨ r.protocol = "1" ∧ IcmpOptions.Permits r.icmpOptions type code
  | .other number => r.protocol = "all" ∨ r.protocol = toString number.val

instance (r : SecurityListRule) : (t : Transport) → Decidable (r.PermitsTransport t)
  | .tcp _ => inferInstanceAs (Decidable (_ ∨ _))
  | .udp _ => inferInstanceAs (Decidable (_ ∨ _))
  | .icmp _ _ => inferInstanceAs (Decidable (_ ∨ _))
  | .other _ => inferInstanceAs (Decidable (_ ∨ _))

/-- The peers of a rule. -/
def PermitsPeer (cloud : Cloud) (r : SecurityListRule) (a : Fin (2 ^ 32)) : Prop :=
  match r.peerType with
  | .cidrBlock => CidrContains r.peer a
  | .serviceCidrBlock => cloud.serviceNetwork r.peer a = true
  | .networkSecurityGroup => False

instance (cloud : Cloud) (r : SecurityListRule) (a : Fin (2 ^ 32)) :
    Decidable (r.PermitsPeer cloud a) := by
  unfold PermitsPeer
  split <;> infer_instance

/-- The packets a rule lets through. -/
def Permits (cloud : Cloud) (r : SecurityListRule) (p : Packet) : Prop :=
  r.PermitsTransport p.transport ∧ r.PermitsPeer cloud p.peer

instance (cloud : Cloud) (r : SecurityListRule) (p : Packet) : Decidable (r.Permits cloud p) :=
  inferInstanceAs (Decidable (_ ∧ _))

/-- Descriptions do not matter. -/
theorem permits_of_erase_eq {cloud : Cloud} {r s : SecurityListRule} {p : Packet}
    (h : r.erase = s.erase) (hr : r.Permits cloud p) : s.Permits cloud p := by
  obtain ⟨_, _, _, _, _, _, _⟩ := r
  obtain ⟨_, _, _, _, _, _, _⟩ := s
  simp only [erase, mk.injEq, and_true] at h
  obtain ⟨rfl, rfl, rfl, rfl, rfl, rfl⟩ := h
  exact hr

end SecurityListRule

/-- **A security list lets a packet through iff one of its rules does.** -/
def ListPermits (cloud : Cloud) (rules : List SecurityListRule) (p : Packet) : Prop :=
  ∃ r ∈ rules, r.Permits cloud p

instance (cloud : Cloud) (rules : List SecurityListRule) (p : Packet) :
    Decidable (ListPermits cloud rules p) := inferInstanceAs (Decidable (∃ r ∈ rules, _))

/-! ## The cloud-neutral rules -/

/-- A port between two bounds, either of which may be missing. -/
def InBounds (portMin portMax : Option ℤ) (port : Port) : Prop :=
  (∀ m, portMin = some m → m ≤ port.val) ∧ ∀ m, portMax = some m → (port.val : ℤ) ≤ m

/-- The transports of a cloud-neutral rule: the bounds are about the TCP or UDP port. -/
def NeutralTransport (protocol : String) (portMin portMax : Option ℤ) : Transport → Prop
  | .tcp port => (protocol = "tcp" ∨ protocol = "all") ∧ InBounds portMin portMax port
  | .udp port => (protocol = "udp" ∨ protocol = "all") ∧ InBounds portMin portMax port
  | .icmp _ _ => protocol = "icmp" ∨ protocol = "all"
  | .other _ => protocol = "all"

/-- The peers of a cloud-neutral rule, its symbolic names resolved. -/
def NeutralPeer (cloud : Cloud) (peer : String) (a : Fin (2 ^ 32)) : Prop :=
  if peer = "internet" then True
  else if peer = "cloud-services" then cloud.serviceNetwork (getSvcCidr cloud) a = true
  else CidrContains peer a

/-- The packets an ingress rule is about. -/
def IngressRule.Permits (cloud : Cloud) (r : IngressRule) (p : Packet) : Prop :=
  NeutralTransport r.protocol r.portMin r.portMax p.transport ∧ NeutralPeer cloud r.source p.peer

/-- The packets an egress rule is about. -/
def EgressRule.Permits (cloud : Cloud) (r : EgressRule) (p : Packet) : Prop :=
  NeutralTransport r.protocol r.portMin r.portMax p.transport ∧
    NeutralPeer cloud r.destination p.peer

/-- The peers a cloud-neutral rule may name. -/
def IsPeer (peer : String) : Prop :=
  peer = "internet" ∨ peer = "cloud-services" ∨ ∃ net, ipNetwork peer = .ok net

theorem exists_neutralPeer (cloud : Cloud) {peer : String} (h : IsPeer peer) :
    ∃ a, NeutralPeer cloud peer a := by
  by_cases hi : peer = "internet"
  · exact ⟨0, by rw [NeutralPeer, if_pos hi]; trivial⟩
  · by_cases hs : peer = "cloud-services"
    · obtain ⟨a, ha⟩ := exists_service_address cloud
      exact ⟨a, by rw [NeutralPeer, if_neg hi, if_pos hs]; exact ha⟩
    · obtain ⟨net, hnet⟩ := (h.resolve_left hi).resolve_left hs
      refine ⟨⟨net.base, net.base_lt⟩, ?_⟩
      rw [NeutralPeer, if_neg hi, if_neg hs]
      exact ⟨net, hnet, le_refl _, Nat.lt_add_of_pos_right (Nat.two_pow_pos _)⟩

end CloudSpells
