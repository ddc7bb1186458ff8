import CloudSpells.Network.Translate
import CloudSpells.Spells.ClusterRules
import CloudSpells.Spells.Made

/-!
# Spells/Layers — the two layers of a cluster's security

What reaches a member of a cluster's groups passes two layers: the rules of the group and the
security list of its subnet.  They agree (`LayersAgree`) when the groups let each other through on
either side, the lists let through what the groups send and take across the boundary of their
subnet, and either layer admits the same clients to the API.

They do but for two kinds of flow: the API endpoint may reach the services over every protocol, and
the list of its subnet lets TCP out to them only; and what the list let in on the port of the API
before the cluster was there, it still lets in (`layersAgree_iff`).
-/

namespace CloudSpells

open Machinery Machinery.Exec

/-! ## Flows -/

/-- The addresses behind a peer: those of the subnet the group's members are in, of the CIDR, or of
the services. -/
def RulePeer.Addresses (cloud : Cloud) (base : VcnBase) (a : Fin (2 ^ 32)) : RulePeer → Prop
  | group g => CidrContains (base.subnetCidrs.ofTier g.tier) a
  | cidr s => CidrContains s a
  | services label => cloud.serviceNetwork label a = true

/-- The rules let a transport through, in a direction, from or to a peer they name. -/
def Channel (rules : List ClusterRule) (d : Direction) (peer : RulePeer) (t : Transport) : Prop :=
  ∃ r ∈ rules, r.direction = d ∧ r.peer = peer ∧ r.PermitsTransport t

/-- A rule of a group lets the packet through, and it leaves or enters the subnet of the group. -/
def ClusterRule.Crosses (cloud : Cloud) (base : VcnBase) (g : ClusterGroup) (r : ClusterRule)
    (p : Packet) : Prop :=
  r.PermitsTransport p.transport ∧ r.peer.Addresses cloud base p.peer ∧
    ¬ CidrContains (base.subnetCidrs.ofTier g.tier) p.peer

/-- A source CIDR that is not a network inside the VCN. -/
def VcnBase.External (base : VcnBase) (cidr : String) : Prop :=
  ¬ ∃ net, ipNetwork cidr = .ok net ∧ ∀ a, net.Contains a → CidrContains base.cidrBlock a

/-- The rules of a list admit a CIDR, by name, to the port of the API. -/
def AdmitsToApi (rules : List SecurityListRule) (cidr : String) : Prop :=
  ∃ r ∈ rules, r.peerType = .cidrBlock ∧ r.peer = cidr ∧
    r.PermitsTransport (.tcp ⟨6443, by decide⟩)

namespace OkeArgs

/-- `kubectl_allowed_cidrs` of the cluster. -/
def cidrs (args : OkeArgs) : List String := args.kubectlAllowedCidrs.getD []

/-- The rules of a group of the cluster; `_get_svc_cidr()` is what the VCN's `svc_cidr_block` is. -/
def groupRules (args : OkeArgs) (base : VcnBase) : ClusterGroup → List ClusterRule :=
  OkeCluster.groupRules { stackName := args.stackName, resourceName := args.name } args.cidrs
    base.svcCidrBlock

/-- The rules the cluster registers for a list. -/
def listRules (args : OkeArgs) (base : VcnBase) : RuleLists := fun t d =>
  (OkeCluster.ruleCalls base args.cidrs).flatMap fun c => c.rules t d

end OkeArgs

/-- **The two layers of a cluster agree.** -/
structure LayersAgree (cloud : Cloud) (args : OkeArgs) (v v' : Vcn) : Prop where
  /-- What a group sends to another, this takes from it, and conversely. -/
  mirrored : ∀ (g h : ClusterGroup) (t : Transport),
    Channel (args.groupRules v.toVcnBase g) .egress (.group h) t ↔
      Channel (args.groupRules v.toVcnBase h) .ingress (.group g) t
  /-- What a group sends or takes across the boundary of its subnet, the list lets through. -/
  covered : ∀ g, ∀ r ∈ args.groupRules v.toVcnBase g, ∀ p : Packet,
    r.Crosses cloud v.toVcnBase g p →
      ∃ sl, v'.securityList g.tier = some sl ∧ ListPermits cloud (sl.rules r.direction) p
  /-- What the cluster lets out of one of its subnets to the other, it lets into that. -/
  paired : ∀ s t : SubnetTier, (s = .pub ∧ t = .priv ∨ s = .priv ∧ t = .pub) →
    ∀ r ∈ args.listRules v.toVcnBase s .egress,
      r.peerType = .cidrBlock → r.peer = v.toVcnBase.subnetCidrs.ofTier t →
      ∀ transport, r.PermitsTransport transport →
        ∃ r' ∈ args.listRules v.toVcnBase t .ingress, r'.peerType = .cidrBlock ∧
          r'.peer = v.toVcnBase.subnetCidrs.ofTier s ∧ r'.PermitsTransport transport
  /-- The groups admit the clients of the cluster to the API, and no other CIDR… -/
  groupClients : ∀ cidr : String,
    (∃ g, Channel (args.groupRules v.toVcnBase g) .ingress (.cidr cidr) (.tcp ⟨6443, by decide⟩)) ↔
      cidr ∈ args.cidrs
  /-- …and so does the list: it admits them, and no other external CIDR. -/
  listClients : ∃ sl, v'.securityList .pub = some sl ∧
    (∀ cidr ∈ args.cidrs, AdmitsToApi sl.ingressSecurityRules cidr) ∧
    ∀ cidr, v.toVcnBase.External cidr → AdmitsToApi sl.ingressSecurityRules cidr →
      cidr ∈ args.cidrs

/-- The public list of a VCN lets everything but TCP out to the services, outside the subnets the
cluster is in. -/
def ServicesOpen (cloud : Cloud) (v : Vcn) : Prop :=
  ∀ p : Packet, (∀ port, p.transport ≠ .tcp port) →
    cloud.serviceNetwork v.svcCidrBlock p.peer = true →
    ¬ CidrContains (v.toVcnBase.subnetCidrs.ofTier .pub) p.peer →
    ¬ CidrContains (v.toVcnBase.subnetCidrs.ofTier .priv) p.peer →
    ListPermits cloud (v.rules .pub .egress) p

/-- The public list of a VCN admits no external CIDR to the port of the API but clients of the
cluster. -/
def ApiReserved (args : OkeArgs) (v : Vcn) : Prop :=
  ∀ cidr, v.toVcnBase.External cidr → AdmitsToApi (v.rules .pub .ingress) cidr → cidr ∈ args.cidrs

/-! ## The groups among themselves -/

/-- The protocols and ports on which the rules name a peer. -/
def scopes (rules : List ClusterRule) (d : Direction) (peer : RulePeer) :
    List (String × Option PortRange) :=
  (rules.filter fun r => decide (r.direction = d ∧ r.peer = peer)).map
    fun r => (r.protocol, r.tcpOptions)

/-- **A channel is a matter of its scopes.** -/
theorem channel_iff {rules : List ClusterRule} {d : Direction} {peer : RulePeer} {t : Transport} :
    Channel rules d peer t ↔ ∃ s ∈ scopes rules d peer, SecurityListRule.PermitsTransport
      { protocol := s.1, peer := "", peerType := .cidrBlock, tcpOptions := s.2 } t := by
  constructor
  · rintro ⟨r, hr, hd, hpeer, ht⟩
    exact ⟨_, List.mem_map.mpr ⟨r, List.mem_filter.mpr ⟨hr, decide_eq_true ⟨hd, hpeer⟩⟩, rfl⟩, ht⟩
  · rintro ⟨s, hs, ht⟩
    obtain ⟨r, hr, rfl⟩ := List.mem_map.mp hs
    obtain ⟨hr, hmatch⟩ := List.mem_filter.mp hr
    obtain ⟨hd, hpeer⟩ := of_decide_eq_true hmatch
    exact ⟨r, hr, hd, hpeer, ht⟩

section Mirror

variable {namer : ResourceNamer} {cidrs : List String} {svc : String}

/-- The rules for `kubectl` name no group. -/
theorem scopes_groupRules (g h : ClusterGroup) (d : Direction) :
    scopes (OkeCluster.groupRules namer cidrs svc g) d (.group h) =
      scopes (OkeCluster.groupRules namer [] svc g) d (.group h) := by
  have hnone : (OkeCluster.kubectlRules namer cidrs).filter
      (fun r => decide (r.direction = d ∧ r.peer = .group h)) = [] := by
    rw [List.filter_eq_nil_iff]
    intro r hr
    obtain ⟨i, hi, rfl⟩ := List.mem_mapIdx.mp hr
    simp [ClusterRule.tcpFrom]
  cases g with
  | api =>
    simp only [scopes, OkeCluster.groupRules, OkeCluster.apiNsgRules, List.filter_append, hnone]
    rfl
  | lb => rfl
  | worker => rfl
  | pod => rfl

/-- **What one group sends to another is what the other takes from it**, rule by rule. -/
theorem scopes_mirror (g h : ClusterGroup) :
    scopes (OkeCluster.groupRules namer cidrs svc g) .egress (.group h) =
      scopes (OkeCluster.groupRules namer cidrs svc h) .ingress (.group g) := by
  rw [scopes_groupRules g h, scopes_groupRules h g]
  cases g <;> cases h <;> rfl

end Mirror

/-! ## The lists of the VCN -/

section Lists

variable {cloud : Cloud} {args : OkeArgs} {v v' : Vcn} {cluster : OkeCluster} {base : VcnBase}

theorem listRules_pub_ingress :
    args.listRules base .pub .ingress = OkeCluster.publicIngress base args.cidrs :=
  List.append_nil _

theorem listRules_pub_egress : args.listRules base .pub .egress = OkeCluster.publicEgress base :=
  List.append_nil _

theorem listRules_priv_ingress :
    args.listRules base .priv .ingress = OkeCluster.privateIngress base := List.append_nil _

theorem listRules_priv_egress :
    args.listRules base .priv .egress = OkeCluster.privateEgress base := List.append_nil _

/-- **The lists a cluster leaves**: what was there, what it registered, and the baseline. -/
theorem OkeCluster.securityList_of_init (h : (OkeCluster.init args).run v = (.ok cluster, v'))
    (t : SubnetTier) : ∃ sl, v'.securityList t = some sl ∧ ∀ d, sl.rules d =
      v.rules t d ++ args.listRules v.toVcnBase t d ++ Vcn.baselineRules v.toVcnBase t d := by
  obtain ⟨cidrs, hcidrs, hreg⟩ :=
    registered_of_construct (fun cidrs base => OkeCluster.ruleCalls base cidrs) h
  have hopen : v.securityListsFinalized = false := hreg.open_of_plain List.mem_cons_self rfl
  obtain ⟨cidrs', hcidrs', -, hnet⟩ :=
    network_of_construct (fun cidrs base => OkeCluster.ruleCalls base cidrs) hopen h
  obtain rfl := Except.ok.inj hcidrs'
  refine ⟨_, congrFun (congrArg NetworkState.securityList hnet) t, fun d => ?_⟩
  cases d <;> rfl

end Lists

/-! ## The list of a subnet and the groups in it -/

section Covered

variable {cloud : Cloud} {args : OkeArgs} {base : VcnBase} {p : Packet}

/-- A rule for every protocol lets every packet of its peers through. -/
theorem SecurityListRule.permits_all {cidr description : String} (h : CidrContains cidr p.peer) :
    (SecurityListRule.all cidr .cidrBlock description).Permits cloud p := by
  refine ⟨?_, h⟩
  cases p.transport <;> exact Or.inl rfl

/-- The private list lets everything out. -/
theorem permits_baseline_priv : ListPermits cloud (Vcn.baselineRules base .priv .egress) p :=
  ⟨_, List.mem_cons_self, SecurityListRule.permits_all (cidrContains_internet p.peer)⟩

/-- The private list lets everything in from the public subnet… -/
theorem permits_privateIngress (h : CidrContains (base.subnetCidrs.ofTier .pub) p.peer) :
    ListPermits cloud (OkeCluster.privateIngress base) p := by
  exact ⟨_, List.mem_cons_of_mem _ (List.mem_cons_of_mem _ (List.mem_cons_of_mem _
    List.mem_cons_self)), SecurityListRule.permits_all h⟩

/-- …and the public one everything out to the private subnet. -/
theorem permits_publicEgress (h : CidrContains (base.subnetCidrs.ofTier .priv) p.peer) :
    ListPermits cloud (OkeCluster.publicEgress base) p := by
  exact ⟨_, List.mem_cons_of_mem _ (List.mem_cons_of_mem _ (List.mem_cons_of_mem _
    (List.mem_cons_of_mem _ List.mem_cons_self))), SecurityListRule.permits_all h⟩

/-- A group is in one of two subnets. -/
theorem ClusterGroup.tier_eq_priv (g : ClusterGroup) (h : g.tier ≠ .pub) : g.tier = .priv := by
  cases g <;> first | rfl | exact absurd rfl h

theorem ClusterGroup.tier_eq_pub (g : ClusterGroup) (h : g.tier ≠ .priv) : g.tier = .pub := by
  cases g <;> first | rfl | exact absurd rfl h

/-- The groups of the private subnet take from groups only. -/
theorem peer_of_ingress_priv {g : ClusterGroup} (hg : g.tier = .priv) {r : ClusterRule}
    (hr : r ∈ args.groupRules base g) (hd : r.direction = .ingress) : ∃ h, r.peer = .group h := by
  cases g with
  | api => cases hg
  | lb => cases hg
  | worker =>
    simp only [OkeArgs.groupRules, OkeCluster.groupRules, OkeCluster.workerNsgRules, List.mem_cons,
      List.not_mem_nil, or_false] at hr
    rcases hr with rfl | rfl | rfl | rfl | rfl | rfl | rfl | rfl | rfl | rfl | rfl | rfl
    all_goals first | exact ⟨_, rfl⟩ | cases hd
  | pod =>
    simp only [OkeArgs.groupRules, OkeCluster.groupRules, OkeCluster.podNsgRules, List.mem_cons,
      List.not_mem_nil, or_false] at hr
    rcases hr with rfl | rfl | rfl | rfl | rfl | rfl | rfl | rfl | rfl | rfl
    all_goals first | exact ⟨_, rfl⟩ | cases hd

/-- The rule of the API endpoint for the services. -/
def apiServicesRule (args : OkeArgs) (base : VcnBase) : ClusterRule :=
  .allTo (OkeCluster.fixedRule { stackName := args.stackName, resourceName := args.name }
    "api-nsg-egress-services") (.services base.svcCidrBlock)
    "Control plane sends telemetry and management traffic to OCI services"

/-- The groups of the public subnet send to groups only, the API endpoint to the services
besides. -/
theorem peer_of_egress_pub {g : ClusterGroup} (hg : g.tier = .pub) {r : ClusterRule}
    (hr : r ∈ args.groupRules base g) (hd : r.direction = .egress) :
    (∃ h, r.peer = .group h) ∨ r = apiServicesRule args base := by
  cases g with
  | api =>
    simp only [OkeArgs.groupRules, OkeCluster.groupRules, OkeCluster.apiNsgRules, List.mem_append,
      List.mem_cons, List.not_mem_nil, or_false] at hr
    rcases hr with ((rfl | rfl | rfl | rfl) | hr) | rfl | rfl | rfl
    · cases hd
    · cases hd
    · cases hd
    · cases hd
    · obtain ⟨i, hi, rfl⟩ := List.mem_mapIdx.mp hr
      cases hd
    · exact .inr rfl
    · exact .inl ⟨_, rfl⟩
    · exact .inl ⟨_, rfl⟩
  | lb =>
    simp only [OkeArgs.groupRules, OkeCluster.groupRules, OkeCluster.lbNsgRules, List.mem_cons,
      List.not_mem_nil, or_false] at hr
    rcases hr with rfl | rfl | rfl | rfl
    · cases hd
    · cases hd
    · exact .inl ⟨_, rfl⟩
    · exact .inl ⟨_, rfl⟩
  | worker => cases hg
  | pod => cases hg

/-- A rule of a list covers a rule of a group: it lets the same transports through, and its peers
are those of the CIDR. -/
theorem permits_of_tcp {rules : List SecurityListRule} {port : ℤ} {cidr description : String}
    (hmem : SecurityListRule.tcp port cidr description ∈ rules)
    (ht : SecurityListRule.PermitsTransport
      { protocol := "6", peer := "", peerType := .cidrBlock, tcpOptions := some (tcpPort port) }
      p.transport)
    (hpeer : CidrContains cidr p.peer) : ListPermits cloud rules p := by
  refine ⟨_, hmem, ?_, hpeer⟩
  cases h : p.transport <;> rw [h] at ht <;> exact ht

/-- **What the groups of the public subnet take, its list lets in.** -/
theorem permits_publicIngress {g : ClusterGroup} (hg : g.tier = .pub) {r : ClusterRule}
    (hr : r ∈ args.groupRules base g) (hd : r.direction = .ingress)
    (hcross : r.Crosses cloud base g p) :
    ListPermits cloud (OkeCluster.publicIngress base args.cidrs) p := by
  obtain ⟨ht, hpeer, -⟩ := hcross
  cases g with
  | api =>
    simp only [OkeArgs.groupRules, OkeCluster.groupRules, OkeCluster.apiNsgRules, List.mem_append,
      List.mem_cons, List.not_mem_nil, or_false] at hr
    rcases hr with ((rfl | rfl | rfl | rfl) | hr) | rfl | rfl | rfl
    · exact permits_of_tcp (List.mem_append_left _ List.mem_cons_self) ht hpeer
    · exact permits_of_tcp
        (List.mem_append_left _ (List.mem_cons_of_mem _ List.mem_cons_self)) ht hpeer
    · exact permits_of_tcp (List.mem_append_left _ List.mem_cons_self) ht hpeer
    · exact permits_of_tcp
        (List.mem_append_left _ (List.mem_cons_of_mem _ List.mem_cons_self)) ht hpeer
    · obtain ⟨i, hi, rfl⟩ := List.mem_mapIdx.mp hr
      exact permits_of_tcp (List.mem_append_right _
        (List.mem_map.mpr ⟨_, List.getElem_mem hi, rfl⟩)) ht hpeer
    · cases hd
    · cases hd
    · cases hd
  | lb =>
    simp only [OkeArgs.groupRules, OkeCluster.groupRules, OkeCluster.lbNsgRules, List.mem_cons,
      List.not_mem_nil, or_false] at hr
    rcases hr with rfl | rfl | rfl | rfl
    · exact permits_of_tcp (List.mem_append_left _ (List.mem_cons_of_mem _
        (List.mem_cons_of_mem _ List.mem_cons_self))) ht hpeer
    · exact permits_of_tcp (List.mem_append_left _ (List.mem_cons_of_mem _
        (List.mem_cons_of_mem _ (List.mem_cons_of_mem _ List.mem_cons_self)))) ht hpeer
    · cases hd
    · cases hd
  | worker => cases hg
  | pod => cases hg

end Covered

/-! ## When the layers agree -/

section Agree

variable {cloud : Cloud} {args : OkeArgs} {v v' : Vcn} {cluster : OkeCluster} {base : VcnBase}

/-- A list lets a packet through where a part of it does. -/
theorem ListPermits.append {rules rules' rules'' : List SecurityListRule} {p : Packet} :
    ListPermits cloud (rules ++ rules' ++ rules'') p ↔ ListPermits cloud rules p ∨
      ListPermits cloud rules' p ∨ ListPermits cloud rules'' p := by
  simp only [ListPermits, List.mem_append, or_assoc, or_and_right, exists_or]

/-- **TCP and the private subnet apart, the public list lets out what was there before.** -/
theorem not_permits_publicEgress {p : Packet} (ht : ∀ port, p.transport ≠ .tcp port)
    (hpriv : ¬ CidrContains (base.subnetCidrs.ofTier .priv) p.peer) :
    ¬ ListPermits cloud (OkeCluster.publicEgress base) p := by
  rintro ⟨r, hr, htransport, hpeer⟩
  have htcp : r.protocol = "6" → False := by
    intro hprotocol
    cases htr : p.transport with
    | tcp port => exact ht port htr
    | udp port =>
      rw [htr] at htransport
      simp [SecurityListRule.PermitsTransport, hprotocol] at htransport
    | icmp type code =>
      rw [htr] at htransport
      simp [SecurityListRule.PermitsTransport, hprotocol] at htransport
    | other number =>
      rw [htr] at htransport
      simp only [SecurityListRule.PermitsTransport, hprotocol] at htransport
      rcases htransport with h | h
      · exact absurd h (by decide)
      · have hsix : toString (6 : ℕ) = toString number.val := h
        exact number.2.2.1 (Nat.repr_injective hsix).symm
  simp only [OkeCluster.publicEgress, List.mem_cons, List.not_mem_nil, or_false] at hr
  rcases hr with rfl | rfl | rfl | rfl | rfl
  · exact htcp rfl
  · exact htcp rfl
  · exact htcp rfl
  · exact htcp rfl
  · exact hpriv hpeer

/-- **Where the services are open, what the groups of the public subnet send out of it**, its list
lets out, with the rules of the cluster or without. -/
theorem permits_egress_pub (hservices : ServicesOpen cloud v) {g : ClusterGroup}
    (hg : g.tier = .pub) {r : ClusterRule} (hr : r ∈ args.groupRules v.toVcnBase g)
    (hd : r.direction = .egress) {p : Packet} (hcross : r.Crosses cloud v.toVcnBase g p) :
    ListPermits cloud (v.rules .pub .egress) p ∨
      ListPermits cloud (OkeCluster.publicEgress v.toVcnBase) p := by
  obtain ⟨ht, hpeer, hleaves⟩ := hcross
  rw [hg] at hleaves
  rcases peer_of_egress_pub hg hr hd with ⟨g', hgroup⟩ | rfl
  · rw [hgroup] at hpeer
    have hpriv : g'.tier = .priv := g'.tier_eq_priv fun hpub => hleaves (hpub ▸ hpeer)
    rw [RulePeer.Addresses, hpriv] at hpeer
    exact .inr (permits_publicEgress hpeer)
  · by_cases htcp : ∃ port, p.transport = .tcp port
    · obtain ⟨port, htr⟩ := htcp
      refine .inr ⟨_, List.mem_cons_self, ?_, hpeer⟩
      rw [htr]
      exact .inr ⟨rfl, trivial⟩
    · by_cases hpriv : CidrContains (v.toVcnBase.subnetCidrs.ofTier .priv) p.peer
      · exact .inr (permits_publicEgress hpriv)
      · exact .inl (hservices p (not_exists.mp htcp) hpeer hleaves hpriv)

/-- **What the groups of the private subnet take from outside it**, its list lets in. -/
theorem permits_ingress_priv {g : ClusterGroup} (hg : g.tier = .priv) {r : ClusterRule}
    (hr : r ∈ args.groupRules base g) (hd : r.direction = .ingress) {p : Packet}
    (hcross : r.Crosses cloud base g p) : ListPermits cloud (OkeCluster.privateIngress base) p := by
  obtain ⟨-, hpeer, hleaves⟩ := hcross
  obtain ⟨g', hgroup⟩ := peer_of_ingress_priv hg hr hd
  rw [hgroup] at hpeer
  rw [hg] at hleaves
  have hpub : g'.tier = .pub := g'.tier_eq_pub fun hpriv => hleaves (hpriv ▸ hpeer)
  rw [RulePeer.Addresses, hpub] at hpeer
  exact permits_privateIngress hpeer

/-- **The lists cover the groups exactly where the services are open.** -/
theorem covered_iff (h : (OkeCluster.init args).run v = (.ok cluster, v')) :
    (∀ g, ∀ r ∈ args.groupRules v.toVcnBase g, ∀ p : Packet, r.Crosses cloud v.toVcnBase g p →
      ∃ sl, v'.securityList g.tier = some sl ∧ ListPermits cloud (sl.rules r.direction) p) ↔
      ServicesOpen cloud v := by
  constructor
  · intro hcovered p ht hservices hpub hpriv
    have hmem : apiServicesRule args v.toVcnBase ∈ args.groupRules v.toVcnBase .api :=
      List.mem_append_right _ List.mem_cons_self
    have hall : (apiServicesRule args v.toVcnBase).PermitsTransport p.transport := by
      cases p.transport <;> exact Or.inl rfl
    obtain ⟨sl, hsl, hpermits⟩ := hcovered .api _ hmem p ⟨hall, hservices, hpub⟩
    obtain ⟨sl', hsl', hrules⟩ := OkeCluster.securityList_of_init h .pub
    obtain rfl := Option.some.inj (hsl'.symm.trans hsl)
    have hpermits : ListPermits cloud (sl'.rules .egress) p := hpermits
    rw [hrules, ListPermits.append, listRules_pub_egress] at hpermits
    rcases hpermits with hpermits | hpermits | ⟨_, hnil, -⟩
    · exact hpermits
    · exact absurd hpermits (not_permits_publicEgress ht hpriv)
    · cases hnil
  · intro hservices g r hr p hcross
    obtain ⟨sl, hsl, hrules⟩ := OkeCluster.securityList_of_init h g.tier
    refine ⟨sl, hsl, ?_⟩
    rw [hrules, ListPermits.append]
    cases hg : g.tier with
    | pub =>
      cases hd : r.direction with
      | ingress =>
        rw [listRules_pub_ingress]
        exact .inr (.inl (permits_publicIngress hg hr hd hcross))
      | egress =>
        rw [listRules_pub_egress]
        exact (permits_egress_pub hservices hg hr hd hcross).imp_right .inl
    | priv =>
      cases hd : r.direction with
      | ingress =>
        rw [listRules_priv_ingress]
        exact .inr (.inl (permits_ingress_priv hg hr hd hcross))
      | egress => exact .inr (.inr permits_baseline_priv)
    | sec => cases g <;> cases hg
    | mgmt => cases g <;> cases hg

/-- **What goes out of one subnet to the other, goes in there.** -/
theorem paired (hbuilt : base.Built cloud) {s t : SubnetTier}
    (hst : s = .pub ∧ t = .priv ∨ s = .priv ∧ t = .pub) {r : SecurityListRule}
    (hr : r ∈ args.listRules base s .egress) (hcidr : r.peerType = .cidrBlock)
    (hpeer : r.peer = base.subnetCidrs.ofTier t) {transport : Transport}
    (ht : r.PermitsTransport transport) :
    ∃ r' ∈ args.listRules base t .ingress, r'.peerType = .cidrBlock ∧
      r'.peer = base.subnetCidrs.ofTier s ∧ r'.PermitsTransport transport := by
  rcases hst with ⟨rfl, rfl⟩ | ⟨rfl, rfl⟩
  · -- Everything goes into the private subnet from the public one.
    rw [listRules_priv_ingress]
    refine ⟨_, List.mem_cons_of_mem _ (List.mem_cons_of_mem _ (List.mem_cons_of_mem _
      List.mem_cons_self)), rfl, rfl, ?_⟩
    cases transport <;> exact Or.inl rfl
  · rw [listRules_priv_egress] at hr
    rw [listRules_pub_ingress]
    simp only [OkeCluster.privateEgress, List.mem_cons, List.not_mem_nil, or_false] at hr
    have hinternet := hbuilt.ofTier_ne .pub
    rcases hr with rfl | rfl | rfl | rfl | rfl
    · cases hcidr
    · exact ⟨_, List.mem_append_left _ List.mem_cons_self, rfl, rfl,
        by cases transport <;> exact ht⟩
    · exact ⟨_, List.mem_append_left _ (List.mem_cons_of_mem _ List.mem_cons_self), rfl, rfl,
        by cases transport <;> exact ht⟩
    · exact absurd hpeer.symm hinternet
    · exact absurd hpeer.symm hinternet

/-- A rule on one port admits to that port only. -/
private theorem eq_of_permits_tcp {port : ℤ} {q : Port}
    (h : SecurityListRule.PermitsTransport
      { protocol := "6", peer := "", peerType := .cidrBlock, tcpOptions := some (tcpPort port) }
      (.tcp q)) : (q.val : ℤ) = port := by
  have hall : ("6" : String) ≠ "all" := by decide
  rcases h with h | ⟨-, h₁, h₂⟩
  · exact absurd h hall
  · exact le_antisymm h₂ h₁

/-- **The groups admit the clients of the cluster to the API**, and no other CIDR. -/
theorem groupClients_iff {cidr : String} :
    (∃ g, Channel (args.groupRules base g) .ingress (.cidr cidr) (.tcp ⟨6443, by decide⟩)) ↔
      cidr ∈ args.cidrs := by
  constructor
  · rintro ⟨g, r, hr, hd, hpeer, ht⟩
    cases g with
    | api =>
      simp only [OkeArgs.groupRules, OkeCluster.groupRules, OkeCluster.apiNsgRules, List.mem_append,
        List.mem_cons, List.not_mem_nil, or_false] at hr
      rcases hr with ((rfl | rfl | rfl | rfl) | hr) | rfl | rfl | rfl
      · cases hpeer
      · cases hpeer
      · cases hpeer
      · cases hpeer
      · obtain ⟨i, hi, rfl⟩ := List.mem_mapIdx.mp hr
        obtain rfl := RulePeer.cidr.inj hpeer
        exact List.getElem_mem hi
      · cases hd
      · cases hd
      · cases hd
    | lb =>
      simp only [OkeArgs.groupRules, OkeCluster.groupRules, OkeCluster.lbNsgRules, List.mem_cons,
        List.not_mem_nil, or_false] at hr
      rcases hr with rfl | rfl | rfl | rfl
      · exact absurd (eq_of_permits_tcp ht) (by decide)
      · exact absurd (eq_of_permits_tcp ht) (by decide)
      · cases hd
      · cases hd
    | worker =>
      obtain ⟨_, hgroup⟩ := peer_of_ingress_priv (g := .worker) rfl hr hd
      cases hpeer.symm.trans hgroup
    | pod =>
      obtain ⟨_, hgroup⟩ := peer_of_ingress_priv (g := .pod) rfl hr hd
      cases hpeer.symm.trans hgroup
  · intro hcidr
    obtain ⟨i, hi, rfl⟩ := List.mem_iff_getElem.mp hcidr
    refine ⟨.api, _, List.mem_append_left _ (List.mem_append_right _
      (List.mem_mapIdx.mpr ⟨i, hi, rfl⟩)), rfl, rfl, Or.inr ⟨rfl, ?_, ?_⟩⟩
    · exact le_refl _
    · exact le_refl _

/-- The list of the public subnet: what was there, and what the cluster let in. -/
theorem publicList_of_init (h : (OkeCluster.init args).run v = (.ok cluster, v')) :
    ∃ sl, v'.securityList .pub = some sl ∧ sl.ingressSecurityRules =
      v.rules .pub .ingress ++ OkeCluster.publicIngress v.toVcnBase args.cidrs := by
  obtain ⟨sl, hsl, hrules⟩ := OkeCluster.securityList_of_init h .pub
  have hingress := hrules .ingress
  rw [listRules_pub_ingress] at hingress
  exact ⟨sl, hsl, hingress.trans (List.append_nil _)⟩

/-- **The cluster lets its clients in**… -/
theorem admitsToApi_of_mem {cidr : String} (hmem : cidr ∈ args.cidrs) :
    AdmitsToApi (OkeCluster.publicIngress base args.cidrs) cidr :=
  ⟨_, List.mem_append_right _ (List.mem_map.mpr ⟨cidr, hmem, rfl⟩), rfl, rfl,
    Or.inr ⟨rfl, le_refl _, le_refl _⟩⟩

/-- …**and no one else but the private subnet**. -/
theorem mem_of_admitsToApi {cidr : String} (hne : cidr ≠ base.subnetCidrs.ofTier .priv)
    (h : AdmitsToApi (OkeCluster.publicIngress base args.cidrs) cidr) : cidr ∈ args.cidrs := by
  obtain ⟨r, hr, -, hpeer, ht⟩ := h
  simp only [OkeCluster.publicIngress, List.mem_append, List.mem_cons, List.not_mem_nil,
    or_false, List.mem_map] at hr
  rcases hr with (rfl | rfl | rfl | rfl) | ⟨c, hc, rfl⟩
  · exact absurd hpeer.symm hne
  · exact absurd hpeer.symm hne
  · exact absurd (eq_of_permits_tcp ht) (by decide)
  · exact absurd (eq_of_permits_tcp ht) (by decide)
  · rwa [← show c = cidr from hpeer]

/-- A list admits what one of its parts admits. -/
theorem AdmitsToApi.append {rules rules' : List SecurityListRule} {cidr : String} :
    AdmitsToApi (rules ++ rules') cidr ↔ AdmitsToApi rules cidr ∨ AdmitsToApi rules' cidr := by
  simp only [AdmitsToApi, List.mem_append, or_and_right, exists_or]

/-- A subnet of the VCN is not outside of it. -/
theorem VcnBase.External.ne_ofTier {cidr : String} (hbuilt : base.Built cloud)
    (h : base.External cidr) (t : SubnetTier) : cidr ≠ base.subnetCidrs.ofTier t := by
  rintro rfl
  obtain ⟨net, hnet, hlen, hcidrs⟩ := splitTiers_eq_ok.mp hbuilt.splitTiers_eq
  refine h ⟨tierBlock net hlen t, ?_, fun a ha => ⟨net, hnet, contains_of_tierBlock ha⟩⟩
  rw [hcidrs t, ipNetwork_str]

/-- **The list admits the clients of the cluster alone exactly where the port of the API was
reserved for them.** -/
theorem listClients_iff (hbuilt : v.toVcnBase.Built cloud)
    (h : (OkeCluster.init args).run v = (.ok cluster, v')) :
    (∃ sl, v'.securityList .pub = some sl ∧
      (∀ cidr ∈ args.cidrs, AdmitsToApi sl.ingressSecurityRules cidr) ∧
      ∀ cidr, v.toVcnBase.External cidr → AdmitsToApi sl.ingressSecurityRules cidr →
        cidr ∈ args.cidrs) ↔ ApiReserved args v := by
  obtain ⟨sl, hsl, hrules⟩ := publicList_of_init h
  constructor
  · rintro ⟨sl', hsl', -, honly⟩ cidr hexternal hadmits
    obtain rfl := Option.some.inj (hsl.symm.trans hsl')
    refine honly cidr hexternal ?_
    rw [hrules]
    exact AdmitsToApi.append.mpr (.inl hadmits)
  · intro hreserved
    refine ⟨sl, hsl, fun cidr hmem => ?_, fun cidr hexternal hadmits => ?_⟩
    · rw [hrules]
      exact AdmitsToApi.append.mpr (.inr (admitsToApi_of_mem hmem))
    · rw [hrules] at hadmits
      rcases AdmitsToApi.append.mp hadmits with hbefore | hcluster
      · exact hreserved cidr hexternal hbefore
      · exact mem_of_admitsToApi (hexternal.ne_ofTier hbuilt .priv) hcluster

/-- **The two layers of a cluster agree exactly where the public list of the VCN already let
everything but TCP out to the services**, and had the port of the API reserved for the clients of
the cluster. -/
theorem layersAgree_iff (hbuilt : v.toVcnBase.Built cloud)
    (h : (OkeCluster.init args).run v = (.ok cluster, v')) :
    LayersAgree cloud args v v' ↔ ServicesOpen cloud v ∧ ApiReserved args v := by
  rw [← covered_iff h, ← listClients_iff hbuilt h]
  refine ⟨fun hagree => ⟨hagree.covered, hagree.listClients⟩,
    fun ⟨hcovered, hclients⟩ => ⟨fun g g' t => ?_, hcovered,
      fun s t hst r hr hcidr hpeer transport ht => paired hbuilt hst hr hcidr hpeer ht,
      fun _ => groupClients_iff, hclients⟩⟩
  rw [channel_iff, channel_iff, OkeArgs.groupRules, scopes_mirror]

end Agree

/-! ## A cluster on a new VCN -/

/-- A cluster that admits one CIDR to its API. -/
def officeClusterArgs : OkeArgs where
  name := "oke"
  stackName := "dev"
  nodePools := ["system"]
  kubectlAllowedCidrs := some ["203.0.113.0/24"]

/-- A group of the public subnet whose role may use the services. -/
def telemetryArgs : NsgArgs where
  name := "telemetry"
  stackName := "dev"
  role := some (.custom { name := "TELEMETRY", subnetTier := .pub, egressServices := true })

/-- With the services open to such a group first, the layers of the cluster agree. -/
theorem layersAgree_iff_office : ∃ nsg v cluster v',
    (Nsg.init telemetryArgs).run defaultBase.fresh = (.ok nsg, v) ∧
      (OkeCluster.init officeClusterArgs).run v = (.ok cluster, v') ∧
      LayersAgree bundleCloud officeClusterArgs v v' := by
  let v := (Nsg.init telemetryArgs).after defaultBase.fresh
  have hbuilt : v.toVcnBase.Built bundleCloud := (built_of_init init_default).1
  have hservices : ServicesOpen bundleCloud v := by
    intro p _ hservices _ _
    refine ⟨Nsg.slEgressAllServices defaultBase.svcCidrBlock, List.mem_singleton.mpr rfl, ?_,
      hservices⟩
    cases p.transport <;> exact Or.inl rfl
  have hreserved : ApiReserved officeClusterArgs v := by
    rintro cidr - ⟨r, hr, -, -, ht⟩
    -- The list lets ICMP in, and nothing else.
    have hicmp : r ∈ seedRules defaultBase .pub .ingress := hr
    rcases List.mem_pair.mp hicmp with rfl | rfl
    · rcases ht with h | ⟨h, -⟩ <;> exact absurd h (by decide)
    · rcases ht with h | ⟨h, -⟩ <;> exact absurd h (by decide)
  have hcluster : ∃ cluster v', (OkeCluster.init officeClusterArgs).run v = (.ok cluster, v') :=
    ⟨_, _, rfl⟩
  obtain ⟨cluster, v', hcluster⟩ := hcluster
  exact ⟨_, v, cluster, v', rfl, hcluster,
    (layersAgree_iff hbuilt hcluster).mpr ⟨hservices, hreserved⟩⟩

/-- UDP from the API endpoint to the services passes its group, and not the list of its subnet. -/
theorem layers_disagree : ¬ ∀ (cloud : Cloud) (args : OkeArgs) (cluster : OkeCluster) (v v' : Vcn),
    v.toVcnBase.Built cloud → (OkeCluster.init args).run v = (.ok cluster, v') →
    LayersAgree cloud args v v' := by
  intro hall
  have hagree := hall bundleCloud officeClusterArgs _ defaultBase.fresh _
    (built_of_init init_default).1 rfl
  let p : Packet := { transport := .udp ⟨123, by decide⟩, peer := 2248146944 }
  have hpub : ¬ CidrContains (defaultBase.subnetCidrs.ofTier .pub) p.peer := by decide
  have hpriv : ¬ CidrContains (defaultBase.subnetCidrs.ofTier .priv) p.peer := by decide
  obtain ⟨sl, hsl, hpermits⟩ := hagree.covered .api (apiServicesRule officeClusterArgs defaultBase)
    (List.mem_append_right _ List.mem_cons_self) p ⟨.inl rfl, rfl, hpub⟩
  cases hsl
  have hpermits : ListPermits bundleCloud ([] ++ OkeCluster.publicEgress defaultBase ++ []) p :=
    hpermits
  rw [List.nil_append, List.append_nil] at hpermits
  exact not_permits_publicEgress (fun _ h => by cases h) hpriv hpermits

end CloudSpells
