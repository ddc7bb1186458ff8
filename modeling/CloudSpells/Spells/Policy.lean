import CloudSpells.Spells.Presence
import CloudSpells.Spells.Serves

/-!
# Spells/Policy — what the groups and the lists let through, exactly

The meaning of a group's rules, as the packets they let through (`Nsg.Admits`), beside that of a
security list (`ListPermits`).  After a program of groups with roles and of relationships between
them, both are read off the program's text: a group admits what its role, its ports and its
relationships say (`admits_iff_of_program`), and the list of a tier what the roles of the tier's
groups, the relationships across its border and the fixed rules say (`listPermits_iff_of_program`).
So, where the peers of a group sit in the tiers of their roles, a list stops nothing that a group
admits (`consistent_of_program`).
-/

namespace CloudSpells

open Machinery Machinery.Exec

/-! ## Transports -/

/-- TCP on a port. -/
def Transport.OnTcp (q : Transport) (p : ℤ) : Prop :=
  ∃ port : Port, q = .tcp port ∧ (port.val : ℤ) = p

namespace SecurityListRule

/-- A rule for one TCP port is about that port. -/
theorem permitsTransport_of_tcp {r : SecurityListRule} {p : ℤ} (hproto : r.protocol = "6")
    (hopts : r.tcpOptions = some { min := p, max := p }) (q : Transport) :
    r.PermitsTransport q ↔ q.OnTcp p := by
  cases q with
  | tcp port =>
    simp only [PermitsTransport, hproto, hopts, PortRange.Permits, Transport.OnTcp]
    constructor
    · rintro (hall | ⟨-, hmin, hmax⟩)
      · exact absurd hall (by decide)
      · exact ⟨port, rfl, le_antisymm hmax hmin⟩
    · rintro ⟨port', heq, rfl⟩
      obtain rfl := Transport.tcp.inj heq
      exact Or.inr ⟨trivial, le_refl _, le_refl _⟩
  | udp port => simp [PermitsTransport, hproto, Transport.OnTcp]
  | icmp type code => simp [PermitsTransport, hproto, Transport.OnTcp]
  | other number =>
    have hsix : "6" ≠ number.val.repr := fun h =>
      number.property.2.1 (Nat.repr_injective (show (6 : ℕ).repr = _ from h)).symm
    simp [PermitsTransport, hproto, Transport.OnTcp, hsix]

/-- A rule for ICMP is about its messages. -/
theorem permitsTransport_of_icmp {r : SecurityListRule} (hproto : r.protocol = "1")
    (q : Transport) : r.PermitsTransport q ↔
      ∃ type code, q = .icmp type code ∧ IcmpOptions.Permits r.icmpOptions type code := by
  cases q with
  | tcp port => simp [PermitsTransport, hproto]
  | udp port => simp [PermitsTransport, hproto]
  | icmp type code => simp [PermitsTransport, hproto]
  | other number =>
    have hone : "1" ≠ number.val.repr := fun h =>
      number.property.1 (Nat.repr_injective (show (1 : ℕ).repr = _ from h)).symm
    simp [PermitsTransport, hproto, hone]

/-- A rule for every protocol is about every transport. -/
theorem permitsTransport_of_all {r : SecurityListRule} (hproto : r.protocol = "all")
    (q : Transport) : r.PermitsTransport q := by
  cases q <;> exact Or.inl hproto

theorem permits_tcp_iff {cloud : Cloud} {p : ℤ} {cidr description : String} {pkt : Packet} :
    (SecurityListRule.tcp p cidr description).Permits cloud pkt ↔
      pkt.transport.OnTcp p ∧ CidrContains cidr pkt.peer :=
  and_congr_left fun _ => permitsTransport_of_tcp rfl rfl _

theorem permits_all_iff {cloud : Cloud} {peer description : String} {type : PeerType}
    {pkt : Packet} : (SecurityListRule.all peer type description).Permits cloud pkt ↔
      (SecurityListRule.all peer type description).PermitsPeer cloud pkt.peer :=
  and_iff_right (permitsTransport_of_all rfl _)

end SecurityListRule

/-! ## The rules of a group -/

/-- The other end of a group's packet: its address, and the groups it is in. -/
structure Peer where
  address : Fin (2 ^ 32)
  nsgIds : List Resource

namespace NsgRuleArgs

/-- The transports of a rule, as those of a security-list rule: its protocol and its options. -/
def PermitsTransport (args : NsgRuleArgs) (q : Transport) : Prop :=
  SecurityListRule.PermitsTransport {
    protocol := args.protocol
    peer := ""
    peerType := .cidrBlock
    tcpOptions := args.tcpOptions
    udpOptions := args.udpOptions
    icmpOptions := args.icmpOptions } q

/-- The peers that `source` and `source_type`, or `destination` and `destination_type`, name. -/
def Names (cloud : Cloud) : Option Input → Option PeerType → Peer → Prop
  | some (.str cidr), some .cidrBlock, peer => CidrContains cidr peer.address
  | some (.str label), some .serviceCidrBlock, peer =>
    cloud.serviceNetwork label peer.address = true
  | some (.id nsg), some .networkSecurityGroup, peer => nsg ∈ peer.nsgIds
  | _, _, _ => False

/-- The peers of a rule. -/
def PermitsPeer (cloud : Cloud) (args : NsgRuleArgs) (peer : Peer) : Prop :=
  match args.direction with
  | .ingress => Names cloud args.source args.sourceType peer
  | .egress => Names cloud args.destination args.destinationType peer

/-- A rule lets a transport through in a direction, from or to a peer. -/
structure Permits (cloud : Cloud) (args : NsgRuleArgs) (d : Direction) (q : Transport)
    (peer : Peer) : Prop where
  direction : args.direction = d
  transport : args.PermitsTransport q
  peer : args.PermitsPeer cloud peer

end NsgRuleArgs

/-- **A group lets a packet through iff one of its rules does.** -/
def Nsg.Admits (cloud : Cloud) (nsg : Nsg) (d : Direction) (q : Transport) (peer : Peer) : Prop :=
  ∃ r ∈ nsg.rules, r.args.Permits cloud d q peer

section Decls

variable {cloud : Cloud} {d : Direction} {q : Transport} {peer : Peer} {label : String}

/-- A rule for one TCP port lets that port through. -/
theorem NsgRuleArgs.permits_of_tcp {args : NsgRuleArgs} {p : ℤ} (hproto : args.protocol = "6")
    (hopts : args.tcpOptions = some { min := p, max := p }) :
    args.Permits cloud d q peer ↔
      d = args.direction ∧ q.OnTcp p ∧ args.PermitsPeer cloud peer := by
  have htransport : args.PermitsTransport q ↔ q.OnTcp p :=
    SecurityListRule.permitsTransport_of_tcp hproto hopts q
  exact ⟨fun h => ⟨h.direction.symm, htransport.mp h.transport, h.peer⟩,
    fun h => ⟨h.1.symm, htransport.mpr h.2.1, h.2.2⟩⟩

/-- A rule for every protocol lets everything through. -/
theorem NsgRuleArgs.permits_of_all {args : NsgRuleArgs} (hproto : args.protocol = "all") :
    args.Permits cloud d q peer ↔ d = args.direction ∧ args.PermitsPeer cloud peer :=
  ⟨fun h => ⟨h.direction.symm, h.peer⟩,
    fun h => ⟨h.1.symm, SecurityListRule.permitsTransport_of_all hproto q, h.2⟩⟩

theorem permits_allowFromCidr {port : ℤ} {cidr : String} :
    (allowFromCidr label port cidr).2.Permits cloud d q peer ↔
      d = .ingress ∧ q.OnTcp port ∧ CidrContains cidr peer.address :=
  NsgRuleArgs.permits_of_tcp rfl rfl

theorem permits_allowFromNsg {port : ℤ} {source : Resource} :
    (allowFromNsg label source port).2.Permits cloud d q peer ↔
      d = .ingress ∧ q.OnTcp port ∧ source ∈ peer.nsgIds :=
  NsgRuleArgs.permits_of_tcp rfl rfl

theorem permits_allowToNsg {port : ℤ} {destination : Resource} :
    (allowToNsg label destination port).2.Permits cloud d q peer ↔
      d = .egress ∧ q.OnTcp port ∧ destination ∈ peer.nsgIds :=
  NsgRuleArgs.permits_of_tcp rfl rfl

theorem permits_allowToServices {svc : String} :
    (allowToServices label svc).2.Permits cloud d q peer ↔
      d = .egress ∧ cloud.serviceNetwork svc peer.address = true :=
  NsgRuleArgs.permits_of_all rfl

theorem permits_allowToCidr {cidr : String} :
    (allowToCidr label cidr).2.Permits cloud d q peer ↔
      d = .egress ∧ CidrContains cidr peer.address :=
  NsgRuleArgs.permits_of_all rfl

/-- **What the role and the ports of a group let through**: TCP from anywhere on the ports of a
public group, and everything to the services and the internet where the role has it. -/
theorem permits_decls_iff {svc : String} {args : NsgArgs} {role : RoleArg}
    (hrole : args.role = some role) :
    (∃ decl ∈ args.decls svc, decl.2.Permits cloud d q peer) ↔
      (d = .ingress ∧ role.role.subnetTier = .pub ∧ ∃ p ∈ args.ports, q.OnTcp p) ∨
      (d = .egress ∧ role.role.egressServices = true ∧
        cloud.serviceNetwork svc peer.address = true) ∨
      (d = .egress ∧ role.role.egressInternet = true) := by
  simp only [NsgArgs.decls, hrole, Nsg.ambientDecls, List.mem_append, List.mem_ite_nil_right,
    List.mem_map, List.mem_singleton, or_and_right, exists_or, and_assoc]
  rw [or_assoc]
  refine or_congr ?_ (or_congr ?_ ?_)
  · constructor
    · rintro ⟨_, hpub, ⟨p, hp, rfl⟩, hpermits⟩
      obtain ⟨hd, hq, -⟩ := permits_allowFromCidr.mp hpermits
      exact ⟨hd, hpub, p, hp, hq⟩
    · rintro ⟨hd, hpub, p, hp, hq⟩
      exact ⟨_, hpub, ⟨p, hp, rfl⟩,
        permits_allowFromCidr.mpr ⟨hd, hq, cidrContains_internet peer.address⟩⟩
  · constructor
    · rintro ⟨_, hservices, rfl, hpermits⟩
      obtain ⟨hd, hpeer⟩ := permits_allowToServices.mp hpermits
      exact ⟨hd, hservices, hpeer⟩
    · rintro ⟨hd, hservices, hpeer⟩
      exact ⟨_, hservices, rfl, permits_allowToServices.mpr ⟨hd, hpeer⟩⟩
  · constructor
    · rintro ⟨_, hinternet, rfl, hpermits⟩
      exact ⟨(permits_allowToCidr.mp hpermits).1, hinternet⟩
    · rintro ⟨hd, hinternet⟩
      exact ⟨_, hinternet, rfl,
        permits_allowToCidr.mpr ⟨hd, cidrContains_internet peer.address⟩⟩

/-- **What a relationship lets through at a group**: TCP on the ports it opens, out of its source
to its target and into its target from its source. -/
theorem permits_relationDecls_iff {src tgt g : String} {self target : Nsg} {port : ℤ}
    {withSsh : Bool} :
    (∃ decl, (g, decl) ∈ Nsg.relationDecls src tgt self target port withSsh ∧
      decl.2.Permits cloud d q peer) ↔
      ∃ p, q.OnTcp p ∧ Opens port (withSsh && target.acceptsSsh) p ∧
        (d = .egress ∧ g = src ∧ target.nsg ∈ peer.nsgIds ∨
          d = .ingress ∧ g = tgt ∧ self.nsg ∈ peer.nsgIds) := by
  simp only [Nsg.relationDecls, List.mem_append, List.mem_cons, List.not_mem_nil, or_false,
    List.mem_ite_nil_right, Prod.mk.injEq, Opens]
  constructor
  · rintro ⟨_, (⟨rfl, rfl⟩ | ⟨rfl, rfl⟩) | ⟨hssh, ⟨rfl, rfl⟩ | ⟨rfl, rfl⟩⟩, hpermits⟩
    · obtain ⟨hd, hq, hpeer⟩ := permits_allowToNsg.mp hpermits
      exact ⟨port, hq, Or.inl rfl, Or.inl ⟨hd, rfl, hpeer⟩⟩
    · obtain ⟨hd, hq, hpeer⟩ := permits_allowFromNsg.mp hpermits
      exact ⟨port, hq, Or.inl rfl, Or.inr ⟨hd, rfl, hpeer⟩⟩
    · obtain ⟨hd, hq, hpeer⟩ := permits_allowToNsg.mp hpermits
      exact ⟨SSH, hq, Or.inr ⟨hssh, rfl⟩, Or.inl ⟨hd, rfl, hpeer⟩⟩
    · obtain ⟨hd, hq, hpeer⟩ := permits_allowFromNsg.mp hpermits
      exact ⟨SSH, hq, Or.inr ⟨hssh, rfl⟩, Or.inr ⟨hd, rfl, hpeer⟩⟩
  · rintro ⟨p, hq, rfl | ⟨hssh, rfl⟩, ⟨hd, rfl, hpeer⟩ | ⟨hd, rfl, hpeer⟩⟩
    · exact ⟨_, Or.inl (Or.inl ⟨rfl, rfl⟩), permits_allowToNsg.mpr ⟨hd, hq, hpeer⟩⟩
    · exact ⟨_, Or.inl (Or.inr ⟨rfl, rfl⟩), permits_allowFromNsg.mpr ⟨hd, hq, hpeer⟩⟩
    · exact ⟨_, Or.inr ⟨hssh, Or.inl ⟨rfl, rfl⟩⟩, permits_allowToNsg.mpr ⟨hd, hq, hpeer⟩⟩
    · exact ⟨_, Or.inr ⟨hssh, Or.inr ⟨rfl, rfl⟩⟩, permits_allowFromNsg.mpr ⟨hd, hq, hpeer⟩⟩

end Decls

/-! ## What the program says of a group -/

section Groups

variable {family : String → NsgArgs} {v₀ : Vcn} {ops : List NsgOp} {w : World} {cloud : Cloud}
  {d : Direction} {q : Transport} {peer : Peer} {src tgt g : String}

/-- A peer in the group of a name. -/
def World.In (w : World) (peer : Peer) (g : String) : Prop :=
  ∃ nsg, w.nsgs g = some nsg ∧ nsg.nsg ∈ peer.nsgIds

/-- **A relationship of the program, at its groups.** -/
theorem Tracks.permits_serves_iff (h : Tracks family v₀ ops w)
    (hfamily : ∀ args, .build args ∈ ops → family args.name = args)
    (hroles : ∀ args, .build args ∈ ops → args.role.isSome) :
    (∃ decl, (∃ src tgt port withSsh, .serves src tgt port withSsh ∈ ops ∧ (g, decl) ∈
        Nsg.relationDecls src tgt (family src).empty (family tgt).empty port withSsh) ∧
      decl.2.Permits cloud d q peer) ↔ ∃ p g', q.OnTcp p ∧ w.In peer g' ∧
        (d = .egress ∧ Declares ops w g g' p ∨ d = .ingress ∧ Declares ops w g' g p) := by
  constructor
  · rintro ⟨decl, ⟨src, tgt, port, withSsh, hop, hdecl⟩, hpermits⟩
    obtain ⟨p, hq, hopens, hdir⟩ := permits_relationDecls_iff.mp ⟨decl, hdecl, hpermits⟩
    obtain ⟨self, target, hself, htarget⟩ := h.exists_group hop
    obtain ⟨role, hrole⟩ := h.exists_role hfamily hroles htarget
    rw [acceptsSsh_empty hrole] at hopens
    have hdeclares : Declares ops w src tgt p :=
      ⟨port, withSsh, _, hop, h.roleOf_eq htarget hrole, hopens⟩
    rcases hdir with ⟨hd, rfl, hpeer⟩ | ⟨hd, rfl, hpeer⟩
    · rw [← (h.group tgt target htarget).same.resource] at hpeer
      exact ⟨p, tgt, hq, ⟨target, htarget, hpeer⟩, Or.inl ⟨hd, hdeclares⟩⟩
    · rw [← (h.group src self hself).same.resource] at hpeer
      exact ⟨p, src, hq, ⟨self, hself, hpeer⟩, Or.inr ⟨hd, hdeclares⟩⟩
  · have hresource : ∀ g', w.In peer g' → (family g').empty.nsg ∈ peer.nsgIds := by
      rintro g' ⟨nsg, hnsg, hpeer⟩
      rwa [(h.group g' nsg hnsg).same.resource] at hpeer
    have hopens : ∀ {src tgt p port withSsh tgtRole}, .serves src tgt port withSsh ∈ ops →
        w.roleOf tgt = some tgtRole → Opens port (withSsh && tgtRole.acceptManagementSsh) p →
        Opens port (withSsh && (family tgt).empty.acceptsSsh) p := by
      intro src tgt p port withSsh tgtRole hop htgt hopens
      obtain ⟨-, target, -, htarget⟩ := h.exists_group hop
      obtain ⟨role, hrole⟩ := h.exists_role hfamily hroles htarget
      rw [h.roleOf_eq htarget hrole] at htgt
      obtain rfl := Option.some.inj htgt
      rwa [acceptsSsh_empty hrole]
    rintro ⟨p, g', hq, hin, ⟨hd, port, withSsh, role, hop, htgt, ho⟩ |
      ⟨hd, port, withSsh, role, hop, htgt, ho⟩⟩
    · obtain ⟨decl, hdecl, hpermits⟩ := permits_relationDecls_iff.mpr
        ⟨p, hq, hopens hop htgt ho, Or.inl ⟨hd, rfl, hresource g' hin⟩⟩
      exact ⟨decl, ⟨g, g', port, withSsh, hop, hdecl⟩, hpermits⟩
    · obtain ⟨decl, hdecl, hpermits⟩ := permits_relationDecls_iff.mpr
        ⟨p, hq, hopens hop htgt ho, Or.inr ⟨hd, rfl, hresource g' hin⟩⟩
      exact ⟨decl, ⟨g', g, port, withSsh, hop, hdecl⟩, hpermits⟩

/-- A declaration for a group comes from its construction or from a relationship. -/
theorem mem_declsOf_iff (hfamily : ∀ args, .build args ∈ ops → family args.name = args)
    {args : NsgArgs} (hbuild : .build args ∈ ops) {decl : RuleDecl} :
    (args.name, decl) ∈ declsOf family v₀ ops ↔ decl ∈ args.decls v₀.svcCidrBlock ∨
      ∃ src tgt port withSsh, .serves src tgt port withSsh ∈ ops ∧
        (args.name, decl) ∈
          Nsg.relationDecls src tgt (family src).empty (family tgt).empty port withSsh := by
  rw [declsOf, List.mem_flatMap]
  constructor
  · rintro ⟨op, hop, hdecl⟩
    cases op with
    | build args' =>
      obtain ⟨decl', hdecl', heq⟩ := List.mem_map.mp hdecl
      obtain ⟨hname, rfl⟩ := Prod.mk.inj heq
      -- The names of the groups tell them apart.
      obtain rfl : args' = args := by rw [← hfamily args' hop, hname, hfamily args hbuild]
      exact Or.inl hdecl'
    | serves src tgt port withSsh => exact Or.inr ⟨src, tgt, port, withSsh, hop, hdecl⟩
  · rintro (hdecl | ⟨src, tgt, port, withSsh, hop, hdecl⟩)
    · exact ⟨_, hbuild, List.mem_map.mpr ⟨decl, hdecl, rfl⟩⟩
    · exact ⟨_, hop, hdecl⟩

/-- What a group is to let through, by its arguments and the program it is in. -/
def NsgArgs.Lets (args : NsgArgs) (cloud : Cloud) (ops : List NsgOp) (w : World) (role : Role)
    (q : Transport) (peer : Peer) : Direction → Prop
  | .ingress => ∃ p, q.OnTcp p ∧ (role.subnetTier = .pub ∧ p ∈ args.ports ∨
      ∃ src, w.In peer src ∧ Declares ops w src args.name p)
  | .egress => role.egressInternet = true ∨
      role.egressServices = true ∧ cloud.serviceNetwork (getSvcCidr cloud) peer.address = true ∨
      ∃ p tgt, q.OnTcp p ∧ w.In peer tgt ∧ Declares ops w args.name tgt p

/-- **A group admits what its role, its ports and its relationships say.** -/
theorem Tracks.admits_iff (h : Tracks family v₀ ops w)
    (hbuilt : VcnBase.Built cloud v₀.toVcnBase)
    (hfamily : ∀ args, .build args ∈ ops → family args.name = args)
    (hroles : ∀ args, .build args ∈ ops → args.role.isSome) {args : NsgArgs}
    (hbuild : .build args ∈ ops) {role : RoleArg} (hrole : args.role = some role) {nsg : Nsg}
    (hnsg : w.nsgs args.name = some nsg) :
    nsg.Admits cloud d q peer ↔ args.Lets cloud ops w role.role q peer d := by
  have hdecls : nsg.Admits cloud d q peer ↔
      ∃ decl, (args.name, decl) ∈ declsOf family v₀ ops ∧ decl.2.Permits cloud d q peer :=
    h.exists_rule_iff (Q := fun args => args.Permits cloud d q peer) hnsg fun _ _ =>
      ⟨fun ⟨hd, ht, hp⟩ => ⟨hd, ht, hp⟩, fun ⟨hd, ht, hp⟩ => ⟨hd, ht, hp⟩⟩
  rw [hdecls]
  simp only [mem_declsOf_iff hfamily hbuild, or_and_right, exists_or]
  rw [permits_decls_iff hrole, h.permits_serves_iff hfamily hroles, hbuilt.svcCidrBlock_eq]
  cases d with
  | ingress =>
    simp only [reduceCtorEq, false_and, or_false, false_or, true_and, NsgArgs.Lets]
    constructor
    · rintro (⟨hpub, p, hp, hq⟩ | ⟨p, src, hq, hin, hdeclares⟩)
      · exact ⟨p, hq, Or.inl ⟨hpub, hp⟩⟩
      · exact ⟨p, hq, Or.inr ⟨src, hin, hdeclares⟩⟩
    · rintro ⟨p, hq, ⟨hpub, hp⟩ | ⟨src, hin, hdeclares⟩⟩
      · exact Or.inl ⟨hpub, p, hp, hq⟩
      · exact Or.inr ⟨p, src, hq, hin, hdeclares⟩
  | egress =>
    simp only [reduceCtorEq, false_and, or_false, false_or, true_and, NsgArgs.Lets]
    rw [or_comm (b := role.role.egressInternet = true), or_assoc]

end Groups

/-! ## What the program says of a tier -/

/-- A group of a tier that the program builds, with its role. -/
def BuildsIn (ops : List NsgOp) (t : SubnetTier) (args : NsgArgs) (role : Role) : Prop :=
  .build args ∈ ops ∧ args.role.map RoleArg.role = some role ∧ role.subnetTier = t

/-- The program is for the rule of a fingerprint: by a group's role or by a relationship between
groups of two tiers. -/
def Fingerprint.Raised (ops : List NsgOp) (w : World) : Fingerprint → Prop
  | publicIngress p => ∃ args role, BuildsIn ops .pub args role ∧ p ∈ args.ports
  | egressAllServices t => ∃ args role, BuildsIn ops t args role ∧ role.egressServices = true
  | egressAllInternet t => ∃ args role, BuildsIn ops t args role ∧ role.egressInternet = true
  | egressTo s p t => s ≠ t ∧ DeclaresBetween ops w s t p
  | ingressFrom t p s => s ≠ t ∧ DeclaresBetween ops w s t p
  | _ => False

/-- A fingerprint's rule has no description. -/
theorem Fingerprint.erase_rule {base : VcnBase} (f : Fingerprint) :
    (f.rule base).erase = f.rule base := by
  cases f <;> rfl

section Lists

variable {family : String → NsgArgs} {v₀ : Vcn} {ops : List NsgOp} {w : World} {cloud : Cloud}
  {base : VcnBase} {f f' : Fingerprint} {c : RuleCall}

theorem RuleCall.Carries.eq (h : c.Carries base f) (h' : c.Carries base f') : f = f' :=
  Fingerprint.render_injective (Option.some.inj (h.1.symm.trans h'.1))

/-- **The calls of a group's role**, the other way: every ambient rule has its call. -/
theorem exists_mem_ambientCalls {role : Role} {ports : List ℤ}
    (h : (∃ p ∈ ports, role.subnetTier = .pub ∧ f = .publicIngress p) ∨
      (role.egressServices = true ∧ f = .egressAllServices role.subnetTier) ∨
      (role.egressInternet = true ∧ f = .egressAllInternet role.subnetTier)) :
    ∃ c ∈ Nsg.ambientCalls base role ports, c.Carries base f := by
  simp only [Nsg.ambientCalls, List.mem_append, List.mem_ite_nil_right, List.mem_map,
    List.mem_singleton]
  rcases h with ⟨p, hp, hpub, rfl⟩ | ⟨hservices, rfl⟩ | ⟨hinternet, rfl⟩
  · exact ⟨_, Or.inl (Or.inl ⟨hpub, p, hp, rfl⟩), rfl, _, rfl, rfl⟩
  · exact ⟨_, Or.inl (Or.inr ⟨hservices, rfl⟩), rfl, _, rfl, rfl⟩
  · exact ⟨_, Or.inr ⟨hinternet, rfl⟩, rfl, _, rfl, rfl⟩

/-- A step that carries a fingerprint says so. -/
theorem Tracks.raised_of_carries (h : Tracks family v₀ ops w)
    {op : NsgOp} (hop : op ∈ ops) (hc : c ∈ op.calls base family)  :
    ∃ f, c.Carries base f ∧ f.Raised ops w := by
  cases op with
  | build args =>
    simp only [NsgOp.calls, NsgArgs.ruleCalls] at hc
    split at hc
    · cases hc
    · rename_i role hrole
      have hbuilds : BuildsIn ops role.role.subnetTier args role.role :=
        ⟨hop, by rw [hrole]; rfl, rfl⟩
      rcases carries_of_mem_ambientCalls hc with ⟨hpub, p, hp, hf⟩ | ⟨hrole, hf⟩ | ⟨hrole, hf⟩
      · exact ⟨_, hf, args, role.role, hpub ▸ hbuilds, hp⟩
      · exact ⟨_, hf, args, role.role, hbuilds, hrole⟩
      · exact ⟨_, hf, args, role.role, hbuilds, hrole⟩
  | serves src tgt port withSsh =>
    obtain ⟨srcRole, tgtRole, hsrc, htgt, hc⟩ := exists_roles_of_mem_relationCalls hc
    obtain ⟨self, target, hself, htarget⟩ := h.exists_group hop
    obtain ⟨hne, p, hopens, hf⟩ := carries_of_mem_servesCalls hc
    have htgtRole := h.roleOf_eq htarget htgt
    have hbetween : DeclaresBetween ops w srcRole.role.subnetTier tgtRole.role.subnetTier p :=
      ⟨src, tgt, _, _, h.roleOf_eq hself hsrc, htgtRole, rfl, rfl,
        port, withSsh, _, hop, htgtRole, hopens⟩
    rcases hf with hf | hf
    · exact ⟨_, hf, hne, hbetween⟩
    · exact ⟨_, hf, hne, hbetween⟩

/-- What the program builds in a tier is among its steps, with its calls. -/
private theorem exists_call_of_buildsIn {t : SubnetTier} {args : NsgArgs} {role : Role}
    (h : BuildsIn ops t args role)
    (hf : ∃ c ∈ Nsg.ambientCalls v₀.toVcnBase role args.ports, c.Carries v₀.toVcnBase f) :
    ∃ c ∈ callsOf family v₀ ops, c.Carries v₀.toVcnBase f := by
  obtain ⟨hop, hrole, -⟩ := h
  obtain ⟨r, hr, rfl⟩ := Option.map_eq_some_iff.mp hrole
  obtain ⟨c, hc, hf⟩ := hf
  refine ⟨c, List.mem_flatMap.mpr ⟨_, hop, ?_⟩, hf⟩
  change c ∈ args.ruleCalls v₀.toVcnBase
  rw [NsgArgs.ruleCalls, hr]
  exact hc

/-- What the program declares between two tiers is among its steps, with its calls. -/
private theorem Tracks.exists_call_of_declaresBetween (h : Tracks family v₀ ops w)
    (hfamily : ∀ args, .build args ∈ ops → family args.name = args)
    (hroles : ∀ args, .build args ∈ ops → args.role.isSome) {s t : SubnetTier} {p : ℤ}
    (hne : s ≠ t) (hbetween : DeclaresBetween ops w s t p)
    (hf : f = .egressTo s p t ∨ f = .ingressFrom t p s) :
    ∃ c ∈ callsOf family v₀ ops, c.Carries v₀.toVcnBase f := by
  obtain ⟨src, tgt, srcRole, tgtRole, hsrc, htgt, rfl, rfl, port, withSsh, role, hop, hrole, ho⟩ :=
    hbetween
  obtain rfl := Option.some.inj (htgt.symm.trans hrole)
  obtain ⟨self, target, hself, htarget⟩ := h.exists_group hop
  obtain ⟨srcArg, hsrcArg⟩ := h.exists_role hfamily hroles hself
  obtain ⟨tgtArg, htgtArg⟩ := h.exists_role hfamily hroles htarget
  obtain rfl := Option.some.inj ((h.roleOf_eq hself hsrcArg).symm.trans hsrc)
  obtain rfl := Option.some.inj ((h.roleOf_eq htarget htgtArg).symm.trans htgt)
  obtain ⟨⟨c, hc, hcarries⟩, c', hc', hcarries'⟩ := @exists_mem_servesCalls v₀.toVcnBase _ _ _ _ _
    hne ho
  rw [← relationCalls_empty hsrcArg htgtArg] at hc hc'
  rcases hf with rfl | rfl
  · exact ⟨c, List.mem_flatMap.mpr ⟨_, hop, hc⟩, hcarries⟩
  · exact ⟨c', List.mem_flatMap.mpr ⟨_, hop, hc'⟩, hcarries'⟩

/-- **The rules of a program are the ones it is for.** -/
theorem Tracks.carries_iff_raised (h : Tracks family v₀ ops w)
    (hfamily : ∀ args, .build args ∈ ops → family args.name = args)
    (hroles : ∀ args, .build args ∈ ops → args.role.isSome) :
    (∃ c ∈ callsOf family v₀ ops, c.Carries v₀.toVcnBase f) ↔ f.Raised ops w := by
  constructor
  · rintro ⟨c, hc, hf⟩
    obtain ⟨op, hop, hc⟩ := List.mem_flatMap.mp hc
    obtain ⟨f', hf', hraised⟩ := h.raised_of_carries hop hc
    rwa [hf.eq hf']
  · intro hraised
    cases f with
    | publicIngress p =>
      obtain ⟨args, role, hbuilds, hp⟩ := hraised
      exact exists_call_of_buildsIn hbuilds
        (exists_mem_ambientCalls (Or.inl ⟨p, hp, hbuilds.2.2, rfl⟩))
    | egressAllServices t =>
      obtain ⟨args, role, hbuilds, hservices⟩ := hraised
      exact exists_call_of_buildsIn hbuilds
        (exists_mem_ambientCalls (Or.inr (Or.inl ⟨hservices, by rw [hbuilds.2.2]⟩)))
    | egressAllInternet t =>
      obtain ⟨args, role, hbuilds, hinternet⟩ := hraised
      exact exists_call_of_buildsIn hbuilds
        (exists_mem_ambientCalls (Or.inr (Or.inr ⟨hinternet, by rw [hbuilds.2.2]⟩)))
    | egressTo s p t =>
      exact h.exists_call_of_declaresBetween hfamily hroles hraised.1 hraised.2 (Or.inl rfl)
    | ingressFrom t p s =>
      exact h.exists_call_of_declaresBetween hfamily hroles hraised.1 hraised.2 (Or.inr rfl)
    | _ => cases hraised

/-- **The list of a tier**: the fixed rules, and those the program is for. -/
theorem Tracks.listPermits_iff (h : Tracks family v₀ ops w)
    (hfamily : ∀ args, .build args ∈ ops → family args.name = args)
    (hroles : ∀ args, .build args ∈ ops → args.role.isSome)
    (hopen : v₀.securityListsFinalized = false) (hempty : v₀.appliedAmbientRuleFingerprints = ∅)
    (hrules : v₀.rules = seedRules v₀.toVcnBase) {t : SubnetTier} {d : Direction} {pkt : Packet} :
    ListPermits cloud (w.finalized.vcn.currentRules t d) pkt ↔
      ListPermits cloud (seedRules v₀.toVcnBase t d ++ Vcn.baselineRules v₀.toVcnBase t d) pkt ∨
      ∃ f : Fingerprint, f.Raised ops w ∧ f.tier = t ∧ f.dir = d ∧
        (f.rule v₀.toVcnBase).Permits cloud pkt := by
  obtain ⟨sl, hsl, hlist⟩ := h.securityList_finalized hopen t
  have hcurrent : w.finalized.vcn.currentRules t d = sl.rules d := by
    have hfinal : w.finalized.vcn.isFinalized = true :=
      (congrArg NetworkState.finalized w.network_finalized).trans
        (NetworkState.finalized_finalize _)
    rw [Vcn.currentRules, if_pos hfinal, hsl]
    rfl
  rw [hcurrent, hlist, hrules]
  constructor
  · rintro ⟨r, hr, hpermits⟩
    rw [List.mem_append, List.mem_append] at hr
    rcases hr with (hr | hr) | hr
    · exact Or.inl ⟨r, List.mem_append_left _ hr, hpermits⟩
    · obtain ⟨c, hc, hr⟩ := List.mem_flatMap.mp hr
      obtain ⟨op, hop, hc⟩ := List.mem_flatMap.mp (Ledger.mem_of_mem_written hc).1
      obtain ⟨f, hf, hraised⟩ := h.raised_of_carries hop hc
      obtain ⟨ht, hd, herase⟩ := hf.mem_rules.mp ⟨r, hr, rfl⟩
      exact Or.inr ⟨f, hraised, ht.symm, hd.symm,
        SecurityListRule.permits_of_erase_eq (herase.trans f.erase_rule.symm) hpermits⟩
    · exact Or.inl ⟨r, List.mem_append_right _ hr, hpermits⟩
  · rintro (⟨r, hr, hpermits⟩ | ⟨f, hraised, rfl, rfl, hpermits⟩)
    · rw [List.mem_append] at hr
      refine ⟨r, ?_, hpermits⟩
      rw [List.mem_append, List.mem_append]
      exact hr.imp_left Or.inl
    · obtain ⟨c, hc, hf⟩ := (h.carries_iff_raised hfamily hroles).mpr hraised
      obtain ⟨sl', hsl', r, hr, herase⟩ := h.exists_rule_of_carries hopen hempty hc hf
      obtain rfl := Option.some.inj (hsl.symm.trans hsl')
      rw [hlist, hrules] at hr
      exact ⟨r, hr, SecurityListRule.permits_of_erase_eq (f.erase_rule.trans herase.symm) hpermits⟩

end Lists

/-! ## Programs -/

/-- What the list of a tier is to let through, by the program. -/
def TierLets (cloud : Cloud) (base : VcnBase) (ops : List NsgOp) (w : World) (t : SubnetTier)
    (pkt : Packet) : Direction → Prop
  | .ingress =>
    (t = .pub ∧ ∃ code, pkt.transport = .icmp 3 code ∧
      (code = 4 ∨ CidrContains base.cidrBlock pkt.peer)) ∨
    (t = .pub ∧ ∃ args role p, BuildsIn ops .pub args role ∧ p ∈ args.ports ∧
      pkt.transport.OnTcp p) ∨
    ∃ s p, s ≠ t ∧ DeclaresBetween ops w s t p ∧ pkt.transport.OnTcp p ∧
      CidrContains (base.subnetCidrs.ofTier s) pkt.peer
  | .egress =>
    (t = .priv ∨ ∃ args role, BuildsIn ops t args role ∧ role.egressInternet = true) ∨
    ((t ≠ .pub ∨ ∃ args role, BuildsIn ops t args role ∧ role.egressServices = true) ∧
      cloud.serviceNetwork (getSvcCidr cloud) pkt.peer = true) ∨
    ∃ s p, t ≠ s ∧ DeclaresBetween ops w t s p ∧ pkt.transport.OnTcp p ∧
      CidrContains (base.subnetCidrs.ofTier s) pkt.peer

section Fixed

variable {cloud : Cloud} {base : VcnBase} {t : SubnetTier} {pkt : Packet}

/-- The fixed ingress rules: the public list has two over ICMP. -/
theorem listPermits_fixed_ingress :
    ListPermits cloud (seedRules base t .ingress ++ Vcn.baselineRules base t .ingress) pkt ↔
      t = .pub ∧ ∃ code, pkt.transport = .icmp 3 code ∧
        (code = 4 ∨ CidrContains base.cidrBlock pkt.peer) := by
  have hbaseline : Vcn.baselineRules base t .ingress = [] := by cases t <;> rfl
  rw [hbaseline, List.append_nil]
  simp only [ListPermits, seedRules, RuleLists.mem_single, List.mem_pair, true_and]
  constructor
  · rintro ⟨r, ⟨ht, rfl | rfl⟩, hq, ha⟩
    · obtain ⟨type, code, hq, htype, hcode⟩ :=
        (SecurityListRule.permitsTransport_of_icmp rfl _).mp hq
      obtain rfl : type = 3 := by exact_mod_cast htype.symm
      exact ⟨ht, code, hq, Or.inl (by exact_mod_cast hcode.symm)⟩
    · obtain ⟨type, code, hq, htype⟩ := (SecurityListRule.permitsTransport_of_icmp rfl _).mp hq
      obtain rfl : type = 3 := by exact_mod_cast htype.symm
      exact ⟨ht, code, hq, Or.inr ha⟩
  · rintro ⟨ht, code, hq, rfl | ha⟩
    · exact ⟨_, ⟨ht, Or.inl rfl⟩, (SecurityListRule.permitsTransport_of_icmp rfl _).mpr
        ⟨3, 4, hq, rfl, rfl⟩, cidrContains_internet pkt.peer⟩
    · exact ⟨_, ⟨ht, Or.inr rfl⟩, (SecurityListRule.permitsTransport_of_icmp rfl _).mpr
        ⟨3, code, hq, rfl⟩, ha⟩

/-- The fixed egress rules: the baseline. -/
theorem listPermits_fixed_egress (hbuilt : VcnBase.Built cloud base) :
    ListPermits cloud (seedRules base t .egress ++ Vcn.baselineRules base t .egress) pkt ↔
      t = .priv ∨ t ≠ .pub ∧ cloud.serviceNetwork (getSvcCidr cloud) pkt.peer = true := by
  have hseed : seedRules base t .egress = [] := if_neg fun h => by cases h.2
  rw [hseed, List.nil_append, ← hbuilt.svcCidrBlock_eq]
  have hsvc : ∀ description : String,
      (SecurityListRule.all base.svcCidrBlock .serviceCidrBlock description).Permits cloud pkt ↔
        cloud.serviceNetwork base.svcCidrBlock pkt.peer = true := fun _ =>
    SecurityListRule.permits_all_iff
  have hnet : ∀ description : String,
      (SecurityListRule.all "0.0.0.0/0" .cidrBlock description).Permits cloud pkt := fun _ =>
    SecurityListRule.permits_all_iff.mpr (cidrContains_internet pkt.peer)
  cases t with
  | pub => simp [ListPermits, Vcn.baselineRules]
  | priv => simp [ListPermits, Vcn.baselineRules, hnet]
  | sec => simp [ListPermits, Vcn.baselineRules, hsvc]
  | mgmt => simp [ListPermits, Vcn.baselineRules, hsvc]

end Fixed

section Raised

variable {cloud : Cloud} {base : VcnBase} {ops : List NsgOp} {w : World} {t : SubnetTier}
  {pkt : Packet}

/-- The ingress rules the program is for. -/
theorem raised_ingress : (∃ f : Fingerprint, f.Raised ops w ∧ f.tier = t ∧ f.dir = .ingress ∧
      (f.rule base).Permits cloud pkt) ↔
    (t = .pub ∧ ∃ args role p, BuildsIn ops .pub args role ∧ p ∈ args.ports ∧
      pkt.transport.OnTcp p) ∨
    ∃ s p, s ≠ t ∧ DeclaresBetween ops w s t p ∧ pkt.transport.OnTcp p ∧
      CidrContains (base.subnetCidrs.ofTier s) pkt.peer := by
  constructor
  · rintro ⟨f, hraised, rfl, hd, hpermits⟩
    cases f with
    | publicIngress p =>
      obtain ⟨args, role, hbuilds, hp⟩ := hraised
      exact Or.inl ⟨rfl, args, role, p, hbuilds, hp,
        (SecurityListRule.permits_tcp_iff.mp hpermits).1⟩
    | ingressFrom t p s =>
      obtain ⟨hq, ha⟩ := SecurityListRule.permits_tcp_iff.mp hpermits
      exact Or.inr ⟨s, p, hraised.1, hraised.2, hq, ha⟩
    | egressTo | egressAllServices | egressAllInternet => cases hd
    | _ => cases hraised
  · rintro (⟨rfl, args, role, p, hbuilds, hp, hq⟩ | ⟨s, p, hne, hbetween, hq, ha⟩)
    · exact ⟨.publicIngress p, ⟨args, role, hbuilds, hp⟩, rfl, rfl,
        SecurityListRule.permits_tcp_iff.mpr ⟨hq, cidrContains_internet pkt.peer⟩⟩
    · exact ⟨.ingressFrom t p s, ⟨hne, hbetween⟩, rfl, rfl,
        SecurityListRule.permits_tcp_iff.mpr ⟨hq, ha⟩⟩

/-- The egress rules the program is for. -/
theorem raised_egress (hbuilt : VcnBase.Built cloud base) :
    (∃ f : Fingerprint, f.Raised ops w ∧ f.tier = t ∧ f.dir = .egress ∧
      (f.rule base).Permits cloud pkt) ↔
    (∃ args role, BuildsIn ops t args role ∧ role.egressInternet = true) ∨
    ((∃ args role, BuildsIn ops t args role ∧ role.egressServices = true) ∧
      cloud.serviceNetwork (getSvcCidr cloud) pkt.peer = true) ∨
    ∃ s p, t ≠ s ∧ DeclaresBetween ops w t s p ∧ pkt.transport.OnTcp p ∧
      CidrContains (base.subnetCidrs.ofTier s) pkt.peer := by
  rw [← hbuilt.svcCidrBlock_eq]
  constructor
  · rintro ⟨f, hraised, rfl, hd, hpermits⟩
    cases f with
    | egressAllServices t =>
      exact Or.inr (Or.inl ⟨hraised, SecurityListRule.permits_all_iff.mp hpermits⟩)
    | egressAllInternet t => exact Or.inl hraised
    | egressTo t p s =>
      obtain ⟨hq, ha⟩ := SecurityListRule.permits_tcp_iff.mp hpermits
      exact Or.inr (Or.inr ⟨s, p, hraised.1, hraised.2, hq, ha⟩)
    | _ => cases hd
  · rintro (hraised | ⟨hraised, ha⟩ | ⟨s, p, hne, hbetween, hq, ha⟩)
    · exact ⟨.egressAllInternet t, hraised, rfl, rfl,
        SecurityListRule.permits_all_iff.mpr (cidrContains_internet pkt.peer)⟩
    · exact ⟨.egressAllServices t, hraised, rfl, rfl, SecurityListRule.permits_all_iff.mpr ha⟩
    · exact ⟨.egressTo t p s, ⟨hne, hbetween⟩, rfl, rfl,
        SecurityListRule.permits_tcp_iff.mpr ⟨hq, ha⟩⟩

end Raised

/-- **The list of a tier lets through what its groups, the relationships across its border and the
fixed rules say.** -/
theorem Tracks.tierLets_iff {cloud : Cloud} {family : String → NsgArgs} {v₀ : Vcn}
    {ops : List NsgOp} {w : World} (h : Tracks family v₀ ops w)
    (hbuilt : VcnBase.Built cloud v₀.toVcnBase)
    (hfamily : ∀ args, .build args ∈ ops → family args.name = args)
    (hroles : ∀ args, .build args ∈ ops → args.role.isSome)
    (hopen : v₀.securityListsFinalized = false) (hempty : v₀.appliedAmbientRuleFingerprints = ∅)
    (hrules : v₀.rules = seedRules v₀.toVcnBase) (t : SubnetTier) (d : Direction) (pkt : Packet) :
    ListPermits cloud (w.finalized.vcn.currentRules t d) pkt ↔
      TierLets cloud v₀.toVcnBase ops w t pkt d := by
  rw [h.listPermits_iff hfamily hroles hopen hempty hrules]
  cases d with
  | ingress => rw [listPermits_fixed_ingress, raised_ingress, TierLets]
  | egress =>
    rw [listPermits_fixed_egress hbuilt, raised_egress hbuilt, TierLets, or_and_right]
    -- The internet and the services are reached by the baseline or by a role.
    simp only [or_assoc, or_left_comm]

/-- **What every group lets through, in both directions.**  After a program of groups that carry
roles and of relationships between them, a packet is let into a group iff it is TCP on a port that
a relationship opens to the group from a group its sender is in, or on a port of a public group;
and let out of it iff it is TCP on a port a relationship opens from the group to one its receiver
is in, or the role sends to the services or the internet. -/
theorem admits_iff_of_program {cloud : Cloud} {vcnArgs : VcnArgs} {v₀ : Vcn}
    (h : Vcn.init cloud vcnArgs = .ok v₀) (ops : List NsgOp) (hnames : NamesDistinct ops)
    (hroles : ∀ args, .build args ∈ ops → args.role.isSome) {w : World}
    (hrun : (each NsgOp.exec ops).run (World.ofVcn v₀) = (.ok ⟨⟩, w)) :
    ∀ args, .build args ∈ ops → ∃ nsg role, w.nsgs args.name = some nsg ∧ args.role = some role ∧
      ∀ d q peer, nsg.Admits cloud d q peer ↔ args.Lets cloud ops w role.role q peer d := by
  obtain ⟨family, hfamily⟩ := exists_family hnames
  have htracks := tracks_of_run (open_of_init h) hnames hfamily hrun
  intro args hbuild
  obtain ⟨role, hrole⟩ := Option.isSome_iff_exists.mp (hroles args hbuild)
  obtain ⟨nsg, hnsg⟩ :=
    Option.isSome_iff_exists.mp ((htracks.isSome_iff args.name).mpr ⟨args, hbuild, rfl⟩)
  exact ⟨nsg, role, hnsg, hrole, fun d q peer =>
    htracks.admits_iff (built_of_init h).1 hfamily hroles hbuild hrole hnsg⟩

/-- **What every list of the finalised VCN lets through, in both directions.** -/
theorem listPermits_iff_of_program {cloud : Cloud} {vcnArgs : VcnArgs} {v₀ : Vcn}
    (h : Vcn.init cloud vcnArgs = .ok v₀) (ops : List NsgOp) (hnames : NamesDistinct ops)
    (hroles : ∀ args, .build args ∈ ops → args.role.isSome) {w : World}
    (hrun : (each NsgOp.exec ops).run (World.ofVcn v₀) = (.ok ⟨⟩, w)) (t : SubnetTier)
    (d : Direction) (pkt : Packet) :
    ListPermits cloud (w.finalized.vcn.currentRules t d) pkt ↔
      TierLets cloud v₀.toVcnBase ops w t pkt d := by
  obtain ⟨family, hfamily⟩ := exists_family hnames
  exact (tracks_of_run (open_of_init h) hnames hfamily hrun).tierLets_iff (built_of_init h).1
    hfamily hroles (open_of_init h) (fingerprints_of_init h) (rules_of_init h).1 t d pkt

/-- A peer whose address is in the tier of every group it is in. -/
def World.Placed (w : World) (base : VcnBase) (peer : Peer) : Prop :=
  ∀ g role, w.In peer g → w.roleOf g = some role →
    CidrContains (base.subnetCidrs.ofTier role.subnetTier) peer.address

/-- **Both layers are consistent**: what a group lets through to or from a peer that sits where its
groups' roles say, the list of the group's tier lets through too, except within the tier. -/
theorem consistent_of_program {cloud : Cloud} {vcnArgs : VcnArgs} {v₀ : Vcn}
    (h : Vcn.init cloud vcnArgs = .ok v₀) (ops : List NsgOp) (hnames : NamesDistinct ops)
    (hroles : ∀ args, .build args ∈ ops → args.role.isSome) {w : World}
    (hrun : (each NsgOp.exec ops).run (World.ofVcn v₀) = (.ok ⟨⟩, w)) {g : String} {nsg : Nsg}
    {role : Role} (hnsg : w.nsgs g = some nsg) (hrole : w.roleOf g = some role) {d : Direction}
    {q : Transport} {peer : Peer} (hplaced : w.Placed v₀.toVcnBase peer)
    (hadmits : nsg.Admits cloud d q peer) :
    ListPermits cloud (w.finalized.vcn.currentRules role.subnetTier d) ⟨q, peer.address⟩ ∨
      ∃ g' role', w.In peer g' ∧ w.roleOf g' = some role' ∧
        role'.subnetTier = role.subnetTier := by
  obtain ⟨family, hfamily⟩ := exists_family hnames
  have htracks := tracks_of_run (open_of_init h) hnames hfamily hrun
  obtain ⟨args, hbuild, rfl⟩ := (htracks.isSome_iff g).mp (by rw [hnsg]; rfl)
  obtain ⟨roleArg, hroleArg⟩ := Option.isSome_iff_exists.mp (hroles args hbuild)
  obtain rfl : roleArg.role = role := Option.some.inj ((htracks.roleOf_eq hnsg (by
    rw [hfamily args hbuild, hroleArg])).symm.trans hrole)
  have hbuilds : BuildsIn ops roleArg.role.subnetTier args roleArg.role :=
    ⟨hbuild, by rw [hroleArg]; rfl, rfl⟩
  have hroleOf : ∀ g', w.In peer g' → ∃ role', w.roleOf g' = some role' := by
    rintro g' ⟨nsg', hnsg', -⟩
    obtain ⟨role', hrole'⟩ := htracks.exists_role hfamily hroles hnsg'
    exact ⟨_, htracks.roleOf_eq hnsg' hrole'⟩
  rw [listPermits_iff_of_program h ops hnames hroles hrun]
  rw [htracks.admits_iff (built_of_init h).1 hfamily hroles hbuild hroleArg hnsg] at hadmits
  cases d with
  | ingress =>
    obtain ⟨p, hq, ⟨hpub, hp⟩ | ⟨src, hin, hdeclares⟩⟩ := hadmits
    · exact Or.inl (Or.inr (Or.inl ⟨hpub, args, _, p, hpub ▸ hbuilds, hp, hq⟩))
    · obtain ⟨srcRole, hsrc⟩ := hroleOf src hin
      by_cases htier : srcRole.subnetTier = roleArg.role.subnetTier
      · exact Or.inr ⟨src, srcRole, hin, hsrc, htier⟩
      · exact Or.inl (Or.inr (Or.inr ⟨_, p, htier,
          ⟨src, args.name, _, _, hsrc, hrole, rfl, rfl, hdeclares⟩, hq, hplaced src _ hin hsrc⟩))
  | egress =>
    obtain hinternet | ⟨hservices, ha⟩ | ⟨p, tgt, hq, hin, hdeclares⟩ := hadmits
    · exact Or.inl (Or.inl (Or.inr ⟨args, _, hbuilds, hinternet⟩))
    · exact Or.inl (Or.inr (Or.inl ⟨Or.inr ⟨args, _, hbuilds, hservices⟩, ha⟩))
    · obtain ⟨tgtRole, htgt⟩ := hroleOf tgt hin
      by_cases htier : tgtRole.subnetTier = roleArg.role.subnetTier
      · exact Or.inr ⟨tgt, tgtRole, hin, htgt, htier⟩
      · exact Or.inl (Or.inr (Or.inr ⟨_, p, Ne.symm htier,
          ⟨args.name, tgt, _, _, hrole, htgt, rfl, rfl, hdeclares⟩, hq, hplaced tgt _ hin htgt⟩))

/-! ## The two groups of `webApi` -/

private theorem namesDistinct_webApi : NamesDistinct webApi := by
  unfold NamesDistinct
  decide

private theorem roles_webApi : ∀ args, .build args ∈ webApi → args.role.isSome := by
  intro args hargs
  simp only [webApi, List.mem_cons, NsgOp.build.injEq, reduceCtorEq, List.not_mem_nil, or_false]
    at hargs
  rcases hargs with rfl | rfl
  · rfl
  · rfl

private theorem run_webApi : ∃ w,
    (each NsgOp.exec webApi).run (World.ofVcn defaultBase.fresh) = (.ok ⟨⟩, w) ∧
      w.roleOf "web" = some INTERNET_EDGE ∧ w.roleOf "api" = some APP_SERVER :=
  ⟨_, rfl, rfl, rfl⟩

/-- What the program declares. -/
private theorem declares_webApi {w : World} (hrole : w.roleOf "api" = some APP_SERVER)
    {src tgt : String} {p : ℤ} :
    Declares webApi w src tgt p ↔ src = "web" ∧ tgt = "api" ∧ (p = 8080 ∨ p = 22) := by
  constructor
  · rintro ⟨port, withSsh, role, hop, -, hp⟩
    simp only [webApi, List.mem_cons, NsgOp.serves.injEq, reduceCtorEq, List.not_mem_nil,
      or_false, false_or] at hop
    obtain ⟨rfl, rfl, rfl, -⟩ := hop
    exact ⟨rfl, rfl, hp.imp_right And.right⟩
  · rintro ⟨rfl, rfl, hp⟩
    exact ⟨8080, true, APP_SERVER, by decide, hrole, hp.imp_right fun hp => ⟨rfl, hp⟩⟩

/-- The application servers take TCP on two ports, from the group in front of them. -/
theorem admits_iff_of_program_default :
    ∃ w nsg, (each NsgOp.exec webApi).run (World.ofVcn defaultBase.fresh) = (.ok ⟨⟩, w) ∧
      w.nsgs "api" = some nsg ∧ ∀ q peer, nsg.Admits bundleCloud .ingress q peer ↔
        (q.OnTcp 8080 ∨ q.OnTcp 22) ∧ w.In peer "web" := by
  obtain ⟨w, hrun, -, hapi⟩ := run_webApi
  obtain ⟨nsg, role, hnsg, hrole, hiff⟩ := admits_iff_of_program init_default webApi
    namesDistinct_webApi roles_webApi hrun apiArgs (by decide)
  obtain rfl := Option.some.inj hrole
  refine ⟨w, nsg, hrun, hnsg, fun q peer => (hiff _ _ _).trans ?_⟩
  simp only [NsgArgs.Lets, declares_webApi hapi]
  constructor
  · rintro ⟨p, hq, ⟨hpub, -⟩ | ⟨src, hin, rfl, -, rfl | rfl⟩⟩
    · cases hpub
    · exact ⟨Or.inl hq, hin⟩
    · exact ⟨Or.inr hq, hin⟩
  · rintro ⟨hq | hq, hin⟩
    · exact ⟨8080, hq, Or.inr ⟨"web", hin, rfl, rfl, Or.inl rfl⟩⟩
    · exact ⟨22, hq, Or.inr ⟨"web", hin, rfl, rfl, Or.inr rfl⟩⟩

/-- Their list lets in the same ports, from the whole public subnet, and nothing over UDP. -/
theorem listPermits_iff_of_program_default :
    ∃ w, (each NsgOp.exec webApi).run (World.ofVcn defaultBase.fresh) = (.ok ⟨⟩, w) ∧
      ∀ q a, ListPermits bundleCloud (w.finalized.vcn.currentRules .priv .ingress) ⟨q, a⟩ ↔
        (q.OnTcp 8080 ∨ q.OnTcp 22) ∧ CidrContains "10.0.48.0/21" a := by
  obtain ⟨w, hrun, hweb, hapi⟩ := run_webApi
  refine ⟨w, hrun, fun q a => (listPermits_iff_of_program init_default webApi namesDistinct_webApi
    roles_webApi hrun .priv .ingress ⟨q, a⟩).trans ?_⟩
  simp only [TierLets, reduceCtorEq, false_and, false_or, DeclaresBetween, declares_webApi hapi]
  constructor
  · rintro ⟨s, p, -, ⟨_, _, srcRole, _, hsrc, -, rfl, -, rfl, rfl, hp⟩, hq, ha⟩
    obtain rfl := Option.some.inj (hweb.symm.trans hsrc)
    rcases hp with rfl | rfl
    · exact ⟨Or.inl hq, ha⟩
    · exact ⟨Or.inr hq, ha⟩
  · rintro ⟨hq | hq, ha⟩
    · exact ⟨.pub, 8080, by decide,
        ⟨"web", "api", _, _, hweb, hapi, rfl, rfl, rfl, rfl, Or.inl rfl⟩, hq, ha⟩
    · exact ⟨.pub, 22, by decide,
        ⟨"web", "api", _, _, hweb, hapi, rfl, rfl, rfl, rfl, Or.inr rfl⟩, hq, ha⟩

/-- A server of the first group, in the public subnet, is let through by both layers. -/
theorem consistent_of_program_default :
    ∃ w, (each NsgOp.exec webApi).run (World.ofVcn defaultBase.fresh) = (.ok ⟨⟩, w) ∧
      ListPermits bundleCloud (w.finalized.vcn.currentRules .priv .ingress)
        ⟨.tcp ⟨8080, by decide⟩, 167784453⟩ := by
  obtain ⟨w, hrun, hweb, hapi⟩ := run_webApi
  obtain ⟨family, hfamily⟩ := exists_family namesDistinct_webApi
  have htracks := tracks_of_run rfl namesDistinct_webApi hfamily hrun
  have hbuild : .build apiArgs ∈ webApi := by decide
  obtain ⟨nsg, hnsg⟩ :=
    Option.isSome_iff_exists.mp ((htracks.isSome_iff "api").mpr ⟨apiArgs, hbuild, rfl⟩)
  obtain ⟨web, hwebNsg⟩ :=
    Option.isSome_iff_exists.mp ((htracks.isSome_iff "web").mpr ⟨webArgs, by decide, rfl⟩)
  have hresource : ∀ args nsg, .build args ∈ webApi → w.nsgs args.name = some nsg →
      nsg.nsg = args.nsg := fun args nsg hargs hnsg => by
    rw [(htracks.group _ _ hnsg).same.resource, hfamily _ hargs]
    rfl
  let peer : Peer := { address := 167784453, nsgIds := [webArgs.nsg] }
  have hin : w.In peer "web" :=
    ⟨web, hwebNsg, List.mem_singleton.mpr (hresource webArgs _ (by decide) hwebNsg)⟩
  have honly : ∀ g, w.In peer g → w.roleOf g = some INTERNET_EDGE := by
    rintro g ⟨nsg', hnsg', hmem⟩
    obtain ⟨args, hargs, rfl⟩ := (htracks.isSome_iff g).mp (by rw [hnsg']; rfl)
    rw [hresource _ _ hargs hnsg', List.mem_singleton] at hmem
    have hname : args.name = "web" := congrArg (fun r => r.namer.resourceName) hmem
    rwa [hname]
  have hadmits : nsg.Admits bundleCloud .ingress (.tcp ⟨8080, by decide⟩) peer :=
    (htracks.admits_iff (built_of_init init_default).1 hfamily roles_webApi hbuild
      rfl hnsg).mpr ⟨8080, ⟨_, rfl, rfl⟩,
        Or.inr ⟨"web", hin, (declares_webApi hapi).mpr ⟨rfl, rfl, Or.inl rfl⟩⟩⟩
  refine ⟨w, hrun, (consistent_of_program init_default webApi namesDistinct_webApi roles_webApi hrun
    hnsg hapi (fun g role hg hrole => ?_) hadmits).resolve_right ?_⟩
  · obtain rfl := Option.some.inj (hrole.symm.trans (honly g hg))
    exact ⟨⟨167784448, 21, by decide, by decide, by decide⟩, by decide +kernel, by decide,
      by decide⟩
  · rintro ⟨g, role, hg, hrole, htier⟩
    obtain rfl := Option.some.inj (hrole.symm.trans (honly g hg))
    cases htier

end CloudSpells
