import CloudSpells.Spells.Relations

/-!
# Spells/Serves — a relationship is open at both layers, and nothing else is

Two groups are `Linked` on a port when the rules of both admit it and, where their tiers differ, the
security lists of both tiers do.  After a program of groups and relationships, two groups are linked
on exactly the ports the program declares between them, and a TCP rule between two tiers is there
only if the program declares a relationship between groups of these tiers (`linked_iff_of_program`).
-/

namespace CloudSpells

open Machinery Machinery.Exec

/-! ## Links -/

/-- The rule admits TCP on a port to a group. -/
def NsgRuleArgs.TcpTo (args : NsgRuleArgs) (nsg : Resource) (port : ℤ) : Prop :=
  args.direction = .egress ∧ args.protocol = "6" ∧ args.destination = some (.id nsg) ∧
    args.destinationType = some .networkSecurityGroup ∧
    args.tcpOptions = some { min := port, max := port }

/-- The rule admits TCP on a port from a group. -/
def NsgRuleArgs.TcpFrom (args : NsgRuleArgs) (nsg : Resource) (port : ℤ) : Prop :=
  args.direction = .ingress ∧ args.protocol = "6" ∧ args.source = some (.id nsg) ∧
    args.sourceType = some .networkSecurityGroup ∧
    args.tcpOptions = some { min := port, max := port }

/-- The security lists of two tiers admit TCP on a port from the one to the other. -/
structure Vcn.CrossTier (v : Vcn) (src tgt : SubnetTier) (port : ℤ) : Prop where
  egress : ∃ sl, v.securityList src = some sl ∧ ∃ r ∈ sl.egressSecurityRules,
    r.erase = .tcp port (v.subnetCidrs.ofTier tgt) ""
  ingress : ∃ sl, v.securityList tgt = some sl ∧ ∃ r ∈ sl.ingressSecurityRules,
    r.erase = .tcp port (v.subnetCidrs.ofTier src) ""

/-- The role of the group of a name. -/
def World.roleOf (w : World) (g : String) : Option Role :=
  (w.nsgs g).bind fun nsg => nsg.role.map RoleArg.role

/-- The four rules of a relationship — two, where the tiers are the same. -/
def World.Linked (w : World) (src tgt : String) (port : ℤ) : Prop :=
  ∃ self target srcRole tgtRole, w.nsgs src = some self ∧ w.nsgs tgt = some target ∧
    w.roleOf src = some srcRole ∧ w.roleOf tgt = some tgtRole ∧
    (∃ r ∈ self.rules, r.args.TcpTo target.nsg port) ∧
    (∃ r ∈ target.rules, r.args.TcpFrom self.nsg port) ∧
    (srcRole.subnetTier ≠ tgtRole.subnetTier →
      w.vcn.CrossTier srcRole.subnetTier tgtRole.subnetTier port)

/-- The program declares a relationship that opens the port. -/
def Declares (ops : List NsgOp) (w : World) (src tgt : String) (p : ℤ) : Prop :=
  ∃ port withSsh tgtRole, NsgOp.serves src tgt port withSsh ∈ ops ∧ w.roleOf tgt = some tgtRole ∧
    Opens port (withSsh && tgtRole.acceptManagementSsh) p

/-- …between groups of two tiers. -/
def DeclaresBetween (ops : List NsgOp) (w : World) (s t : SubnetTier) (p : ℤ) : Prop :=
  ∃ src tgt srcRole tgtRole, w.roleOf src = some srcRole ∧ w.roleOf tgt = some tgtRole ∧
    srcRole.subnetTier = s ∧ tgtRole.subnetTier = t ∧ Declares ops w src tgt p

/-! ## The rules of the groups -/

section Decls

variable {src tgt g : String} {self target : Nsg} {port p : ℤ} {withSsh : Bool} {decl : RuleDecl}
  {x : Resource}

theorem tcpTo_allowToNsg {label : String} {nsg : Resource} :
    (allowToNsg label nsg port).2.TcpTo x p ↔ x = nsg ∧ p = port := by
  simp [NsgRuleArgs.TcpTo, allowToNsg, eq_comm]

theorem tcpFrom_allowFromNsg {label : String} {nsg : Resource} :
    (allowFromNsg label nsg port).2.TcpFrom x p ↔ x = nsg ∧ p = port := by
  simp [NsgRuleArgs.TcpFrom, allowFromNsg, eq_comm]

/-- **A relationship's rules to a group** are on the ports it opens. -/
theorem tcpTo_of_mem_relationDecls
    (h : (g, decl) ∈ Nsg.relationDecls src tgt self target port withSsh) (hto : decl.2.TcpTo x p) :
    g = src ∧ x = target.nsg ∧ Opens port (withSsh && target.acceptsSsh) p := by
  simp only [Nsg.relationDecls, List.mem_append, List.mem_cons, List.not_mem_nil, or_false,
    List.mem_ite_nil_right, Prod.mk.injEq] at h
  rcases h with (⟨rfl, rfl⟩ | ⟨rfl, rfl⟩) | ⟨hssh, ⟨rfl, rfl⟩ | ⟨rfl, rfl⟩⟩
  · obtain ⟨rfl, rfl⟩ := tcpTo_allowToNsg.mp hto
    exact ⟨rfl, rfl, Or.inl rfl⟩
  · cases hto.1
  · obtain ⟨rfl, rfl⟩ := tcpTo_allowToNsg.mp hto
    exact ⟨rfl, rfl, Or.inr ⟨hssh, rfl⟩⟩
  · cases hto.1

/-- …and so are its rules from one. -/
theorem tcpFrom_of_mem_relationDecls
    (h : (g, decl) ∈ Nsg.relationDecls src tgt self target port withSsh)
    (hfrom : decl.2.TcpFrom x p) :
    g = tgt ∧ x = self.nsg ∧ Opens port (withSsh && target.acceptsSsh) p := by
  simp only [Nsg.relationDecls, List.mem_append, List.mem_cons, List.not_mem_nil, or_false,
    List.mem_ite_nil_right, Prod.mk.injEq] at h
  rcases h with (⟨rfl, rfl⟩ | ⟨rfl, rfl⟩) | ⟨hssh, ⟨rfl, rfl⟩ | ⟨rfl, rfl⟩⟩
  · cases hfrom.1
  · obtain ⟨rfl, rfl⟩ := tcpFrom_allowFromNsg.mp hfrom
    exact ⟨rfl, rfl, Or.inl rfl⟩
  · cases hfrom.1
  · obtain ⟨rfl, rfl⟩ := tcpFrom_allowFromNsg.mp hfrom
    exact ⟨rfl, rfl, Or.inr ⟨hssh, rfl⟩⟩

/-- It has a rule for either end on each of these ports. -/
theorem exists_mem_relationDecls (src tgt : String) (self target : Nsg)
    (hp : Opens port (withSsh && target.acceptsSsh) p) :
    (∃ decl, (src, decl) ∈ Nsg.relationDecls src tgt self target port withSsh ∧
      decl.2.TcpTo target.nsg p) ∧
    ∃ decl, (tgt, decl) ∈ Nsg.relationDecls src tgt self target port withSsh ∧
      decl.2.TcpFrom self.nsg p := by
  rcases hp with rfl | ⟨hssh, rfl⟩
  · exact ⟨⟨_, List.mem_append_left _ List.mem_cons_self, tcpTo_allowToNsg.mpr ⟨rfl, rfl⟩⟩,
      _, List.mem_append_left _ (List.mem_cons_of_mem _ List.mem_cons_self),
      tcpFrom_allowFromNsg.mpr ⟨rfl, rfl⟩⟩
  · rw [Nsg.relationDecls, if_pos hssh]
    exact ⟨⟨_, List.mem_append_right _ List.mem_cons_self, tcpTo_allowToNsg.mpr ⟨rfl, rfl⟩⟩,
      _, List.mem_append_right _ (List.mem_cons_of_mem _ List.mem_cons_self),
      tcpFrom_allowFromNsg.mpr ⟨rfl, rfl⟩⟩

/-- A group's own rules are not about groups. -/
theorem not_tcpTo_of_mem_decls {svcCidrBlock : String} {args : NsgArgs}
    (h : decl ∈ args.decls svcCidrBlock) : ¬ decl.2.TcpTo x p := by
  intro hto
  unfold NsgArgs.decls at h
  split at h
  · cases h
  · simp only [Nsg.ambientDecls, List.mem_append, List.mem_ite_nil_right, List.mem_map,
      List.mem_singleton] at h
    rcases h with (⟨-, port, -, rfl⟩ | ⟨-, rfl⟩) | ⟨-, rfl⟩
    · cases hto.1
    · cases hto.2.2.2.1
    · cases hto.2.2.2.1

theorem not_tcpFrom_of_mem_decls {svcCidrBlock : String} {args : NsgArgs}
    (h : decl ∈ args.decls svcCidrBlock) : ¬ decl.2.TcpFrom x p := by
  intro hfrom
  unfold NsgArgs.decls at h
  split at h
  · cases h
  · simp only [Nsg.ambientDecls, List.mem_append, List.mem_ite_nil_right, List.mem_map,
      List.mem_singleton] at h
    rcases h with (⟨-, port, -, rfl⟩ | ⟨-, rfl⟩) | ⟨-, rfl⟩
    · cases hfrom.2.2.2.1
    · cases hfrom.1
    · cases hfrom.1

end Decls

/-! ## What the program declares, the groups have -/

section Tracks

variable {family : String → NsgArgs} {v₀ : Vcn} {ops : List NsgOp} {w w' : World}
  {src tgt g : String} {port p : ℤ} {withSsh : Bool} {x : Resource}

/-- A group has a rule of some kind iff one was declared for it; descriptions do not count. -/
theorem Tracks.exists_rule_iff (h : Tracks family v₀ ops w) {nsg : Nsg} (hg : w.nsgs g = some nsg)
    {Q : NsgRuleArgs → Prop} (hQ : ∀ args d, Q { args with description := d } ↔ Q args) :
    (∃ r ∈ nsg.rules, Q r.args) ↔ ∃ decl, (g, decl) ∈ declsOf family v₀ ops ∧ Q decl.2 := by
  constructor
  · rintro ⟨r, hr, hq⟩
    obtain ⟨decl, hdecl, herase⟩ := (h.exists_erase_iff hg).mp ⟨r, hr, rfl⟩
    change Q r.erase.args at hq
    rw [← herase] at hq
    exact ⟨decl, hdecl, (hQ _ _).mp hq⟩
  · rintro ⟨decl, hdecl, hq⟩
    obtain ⟨r, hr, herase⟩ := (h.exists_erase_iff hg).mpr ⟨decl, hdecl, rfl⟩
    refine ⟨r, hr, ?_⟩
    change Q r.erase.args
    rw [herase]
    exact (hQ _ _).mpr hq

/-- The groups of a relationship have been built. -/
theorem Tracks.exists_group (h : Tracks family v₀ ops w)
    (hmem : .serves src tgt port withSsh ∈ ops) :
    ∃ self target, w.nsgs src = some self ∧ w.nsgs tgt = some target := by
  have hopens : Opens port (withSsh && (family tgt).empty.acceptsSsh) port := Or.inl rfl
  obtain ⟨⟨out, hout, -⟩, into, hinto, -⟩ :=
    exists_mem_relationDecls src tgt (family src).empty (family tgt).empty hopens
  have hdecls : ∀ a ∈ Nsg.relationDecls src tgt (family src).empty (family tgt).empty port withSsh,
      a ∈ declsOf family v₀ ops := fun a ha => List.mem_flatMap.mpr ⟨_, hmem, ha⟩
  have hbuilt : ∀ g decl, (g, decl) ∈ declsOf family v₀ ops → ∃ nsg, w.nsgs g = some nsg := by
    intro g decl hdecl
    cases hg : w.nsgs g with
    | some nsg => exact ⟨nsg, rfl⟩
    | none =>
      have hnone := mem_declsFor.mpr hdecl
      rw [h.absent g hg] at hnone
      cases hnone
  obtain ⟨self, hself⟩ := hbuilt src out (hdecls _ hout)
  obtain ⟨target, htarget⟩ := hbuilt tgt into (hdecls _ hinto)
  exact ⟨self, target, hself, htarget⟩

/-- The group of a name is the member of the family of that name. -/
theorem Tracks.family_name (h : Tracks family v₀ ops w)
    (hfamily : ∀ args, .build args ∈ ops → family args.name = args) {nsg : Nsg}
    (hg : w.nsgs g = some nsg) : (family g).name = g := by
  obtain ⟨args, hargs, rfl⟩ := (h.isSome_iff g).mp (by rw [hg]; rfl)
  rw [hfamily args hargs]

/-- …and has the role it was built with. -/
theorem Tracks.role_eq (h : Tracks family v₀ ops w) {nsg : Nsg} (hg : w.nsgs g = some nsg) :
    (family g).role = nsg.role := (h.group g nsg hg).same.role.symm

theorem Tracks.exists_role (h : Tracks family v₀ ops w)
    (hfamily : ∀ args, .build args ∈ ops → family args.name = args)
    (hroles : ∀ args, .build args ∈ ops → args.role.isSome) {nsg : Nsg}
    (hg : w.nsgs g = some nsg) : ∃ role, (family g).role = some role := by
  obtain ⟨args, hargs, rfl⟩ := (h.isSome_iff g).mp (by rw [hg]; rfl)
  rw [hfamily args hargs]
  exact Option.isSome_iff_exists.mp (hroles args hargs)

theorem Tracks.roleOf_eq (h : Tracks family v₀ ops w) {nsg : Nsg} (hg : w.nsgs g = some nsg)
    {role : RoleArg} (hrole : (family g).role = some role) : w.roleOf g = some role.role := by
  rw [World.roleOf, hg, Option.bind_some, ← h.role_eq hg, hrole]
  rfl

/-- A relationship accepts SSH as the role of its target says. -/
theorem acceptsSsh_empty {args : NsgArgs} {role : RoleArg} (h : args.role = some role) :
    args.empty.acceptsSsh = role.role.acceptManagementSsh := by
  have hrole : args.empty.role = some role := h
  rw [Nsg.acceptsSsh, hrole]

/-- …and its calls are those of a relationship between the tiers of the two roles. -/
theorem relationCalls_empty {self target : NsgArgs} {srcRole tgtRole : RoleArg}
    (hsrc : self.role = some srcRole) (htgt : target.role = some tgtRole) {base : VcnBase} :
    Nsg.relationCalls base self.empty target.empty port withSsh =
      Nsg.servesCalls base srcRole.role.subnetTier tgtRole.role.subnetTier port
        (withSsh && tgtRole.role.acceptManagementSsh) := by
  have hsrc' : self.empty.role = some srcRole := hsrc
  have htgt' : target.empty.role = some tgtRole := htgt
  rw [Nsg.relationCalls, hsrc', htgt', acceptsSsh_empty htgt]

theorem exists_roles_of_mem_relationCalls {self target : NsgArgs} {base : VcnBase} {c : RuleCall}
    (hc : c ∈ Nsg.relationCalls base self.empty target.empty port withSsh) :
    ∃ srcRole tgtRole, self.role = some srcRole ∧ target.role = some tgtRole ∧
      c ∈ Nsg.servesCalls base srcRole.role.subnetTier tgtRole.role.subnetTier port
        (withSsh && tgtRole.role.acceptManagementSsh) := by
  have hcopy := hc
  unfold Nsg.relationCalls at hcopy
  split at hcopy
  · rename_i srcRole tgtRole hsrc htgt
    rw [relationCalls_empty hsrc htgt] at hc
    exact ⟨srcRole, tgtRole, hsrc, htgt, hc⟩
  · cases hcopy

/-- Groups of one resource have one name. -/
theorem Tracks.eq_of_nsg_eq (h : Tracks family v₀ ops w)
    (hfamily : ∀ args, .build args ∈ ops → family args.name = args) {g' : String} {nsg nsg' : Nsg}
    (hg : w.nsgs g = some nsg) (hg' : w.nsgs g' = some nsg')
    (hnsg : nsg.nsg = (family g').empty.nsg) : g = g' := by
  rw [(h.group g nsg hg).same.resource] at hnsg
  rw [← h.family_name hfamily hg, ← h.family_name hfamily hg']
  exact congrArg (fun r => r.namer.resourceName) hnsg

/-- A relationship declares the ports it opens. -/
theorem Tracks.declares_of_opens (h : Tracks family v₀ ops w)
    (hfamily : ∀ args, .build args ∈ ops → family args.name = args)
    (hroles : ∀ args, .build args ∈ ops → args.role.isSome)
    (hop : .serves src tgt port withSsh ∈ ops) {target : Nsg} (htgt : w.nsgs tgt = some target)
    (hopens : Opens port (withSsh && (family tgt).empty.acceptsSsh) p) :
    Declares ops w src tgt p := by
  obtain ⟨role, hrole⟩ := h.exists_role hfamily hroles htgt
  rw [acceptsSsh_empty hrole] at hopens
  exact ⟨port, withSsh, role.role, hop, h.roleOf_eq htgt hrole, hopens⟩

/-- **Soundness at the first layer**: a rule to another group comes from a declared relationship. -/
theorem Tracks.declares_of_tcpTo (h : Tracks family v₀ ops w)
    (hfamily : ∀ args, .build args ∈ ops → family args.name = args)
    (hroles : ∀ args, .build args ∈ ops → args.role.isSome) {self target : Nsg}
    (hsrc : w.nsgs src = some self) (htgt : w.nsgs tgt = some target)
    (hto : ∃ r ∈ self.rules, r.args.TcpTo target.nsg p) : Declares ops w src tgt p := by
  obtain ⟨decl, hdecl, hto⟩ :=
    (h.exists_rule_iff (Q := fun args => args.TcpTo target.nsg p) hsrc fun _ _ => Iff.rfl).mp hto
  obtain ⟨op, hop, hdecl⟩ := List.mem_flatMap.mp hdecl
  cases op with
  | build args =>
    obtain ⟨decl', hdecl', heq⟩ := List.mem_map.mp hdecl
    obtain ⟨-, rfl⟩ := Prod.mk.inj heq
    exact absurd hto (not_tcpTo_of_mem_decls hdecl')
  | serves s t port withSsh =>
    obtain ⟨rfl, hnsg, hopens⟩ := tcpTo_of_mem_relationDecls hdecl hto
    obtain ⟨-, target', -, htgt'⟩ := h.exists_group hop
    obtain rfl := h.eq_of_nsg_eq hfamily htgt htgt' hnsg
    exact h.declares_of_opens hfamily hroles hop htgt hopens

/-- …and so does a rule from one. -/
theorem Tracks.declares_of_tcpFrom (h : Tracks family v₀ ops w)
    (hfamily : ∀ args, .build args ∈ ops → family args.name = args)
    (hroles : ∀ args, .build args ∈ ops → args.role.isSome) {self target : Nsg}
    (hsrc : w.nsgs src = some self) (htgt : w.nsgs tgt = some target)
    (hfrom : ∃ r ∈ target.rules, r.args.TcpFrom self.nsg p) : Declares ops w src tgt p := by
  obtain ⟨decl, hdecl, hfrom⟩ :=
    (h.exists_rule_iff (Q := fun args => args.TcpFrom self.nsg p) htgt fun _ _ => Iff.rfl).mp hfrom
  obtain ⟨op, hop, hdecl⟩ := List.mem_flatMap.mp hdecl
  cases op with
  | build args =>
    obtain ⟨decl', hdecl', heq⟩ := List.mem_map.mp hdecl
    obtain ⟨-, rfl⟩ := Prod.mk.inj heq
    exact absurd hfrom (not_tcpFrom_of_mem_decls hdecl')
  | serves s t port withSsh =>
    obtain ⟨rfl, hnsg, hopens⟩ := tcpFrom_of_mem_relationDecls hdecl hfrom
    obtain ⟨self', -, hsrc', -⟩ := h.exists_group hop
    obtain rfl := h.eq_of_nsg_eq hfamily hsrc hsrc' hnsg
    exact h.declares_of_opens hfamily hroles hop htgt hopens

/-- What the calls of a program carry is in the lists of the finalised VCN. -/
theorem Tracks.exists_rule_of_carries (h : Tracks family v₀ ops w)
    (hopen : v₀.securityListsFinalized = false) (hempty : v₀.appliedAmbientRuleFingerprints = ∅)
    {c : RuleCall} (hc : c ∈ callsOf family v₀ ops) {f : Fingerprint}
    (hf : c.Carries v₀.toVcnBase f) :
    ∃ sl, w.finalized.vcn.securityList f.tier = some sl ∧
      ∃ r ∈ sl.rules f.dir, r.erase = f.rule v₀.toVcnBase := by
  obtain ⟨r, hr, herase⟩ := hf.mem_rules.mpr ⟨rfl, rfl, rfl⟩
  have hkeyed : ∀ b ∈ callsOf family v₀ ops, b.Keyed v₀.toVcnBase := fun b hb => by
    obtain ⟨op, -, hb⟩ := List.mem_flatMap.mp hb
    exact (NsgOp.issued_of_mem_calls hb).keyed
  have hkept : v₀.network.Kept ∅ := NetworkState.kept_of_empty hempty
  obtain ⟨r', hr', herase'⟩ := holds_of_register hkept hkeyed (fun _ _ _ _ => Set.notMem_empty _)
    (run_register_of_open hopen _) hc hr
  obtain ⟨sl, hsl, hrules⟩ := h.securityList_finalized hopen f.tier
  refine ⟨sl, hsl, r', ?_, herase'.trans herase⟩
  rw [hrules]
  exact List.mem_append_left _ hr'

/-- **Completeness at the second layer**: a declared relationship between two tiers is in the lists
of both. -/
theorem Tracks.crossTier (h : Tracks family v₀ ops w)
    (hopen : v₀.securityListsFinalized = false) (hempty : v₀.appliedAmbientRuleFingerprints = ∅)
    (hmem : .serves src tgt port withSsh ∈ ops) {srcRole tgtRole : RoleArg}
    (hsrc : (family src).role = some srcRole) (htgt : (family tgt).role = some tgtRole)
    (htiers : srcRole.role.subnetTier ≠ tgtRole.role.subnetTier)
    (hopens : Opens port (withSsh && tgtRole.role.acceptManagementSsh) p) :
    w.finalized.vcn.CrossTier srcRole.role.subnetTier tgtRole.role.subnetTier p := by
  have hcidrs : w.finalized.vcn.subnetCidrs = v₀.subnetCidrs :=
    congrArg VcnBase.subnetCidrs h.base_finalized
  obtain ⟨⟨c, hc, hcarries⟩, c', hc', hcarries'⟩ := exists_mem_servesCalls htiers hopens
  rw [← relationCalls_empty hsrc htgt] at hc hc'
  refine ⟨?_, ?_⟩
  · rw [hcidrs]
    exact h.exists_rule_of_carries hopen hempty (List.mem_flatMap.mpr ⟨_, hmem, hc⟩) hcarries
  · rw [hcidrs]
    exact h.exists_rule_of_carries hopen hempty (List.mem_flatMap.mpr ⟨_, hmem, hc'⟩) hcarries'

/-- **Soundness of one step at the second layer**: what a step passes over TCP for a tier's CIDR is
for the tiers of a relationship. -/
theorem tiers_of_mem_calls {cloud : Cloud} {base : VcnBase} (hbuilt : base.Built cloud) {op : NsgOp}
    {c : RuleCall} (hc : c ∈ op.calls base family) {s t : SubnetTier} {d : Direction}
    {r : SecurityListRule} (hr : r ∈ c.rules s d) (hproto : r.protocol = "6")
    (hpeer : r.peer = base.subnetCidrs.ofTier t) :
    ∃ src tgt port withSsh srcRole tgtRole p, op = .serves src tgt port withSsh ∧
      (family src).role = some srcRole ∧ (family tgt).role = some tgtRole ∧
      Opens port (withSsh && tgtRole.role.acceptManagementSsh) p ∧
      r.erase = .tcp p (base.subnetCidrs.ofTier t) "" ∧
      (d = .egress ∧ srcRole.role.subnetTier = s ∧ tgtRole.role.subnetTier = t ∨
        d = .ingress ∧ srcRole.role.subnetTier = t ∧ tgtRole.role.subnetTier = s) := by
  cases op with
  | build args =>
    simp only [NsgOp.calls, NsgArgs.ruleCalls] at hc
    split at hc
    · cases hc
    · rcases carries_of_mem_ambientCalls hc with ⟨-, port, -, hf⟩ | ⟨-, hf⟩ | ⟨-, hf⟩
      · -- The public rule is for the internet, which is no tier.
        obtain ⟨-, -, herase⟩ := hf.mem_rules.mp ⟨r, hr, rfl⟩
        have hinternet : r.peer = "0.0.0.0/0" := congrArg SecurityListRule.peer herase
        exact absurd (hpeer.symm.trans hinternet) (hbuilt.ofTier_ne t)
      · obtain ⟨-, -, herase⟩ := hf.mem_rules.mp ⟨r, hr, rfl⟩
        have hall : r.protocol = "all" := congrArg SecurityListRule.protocol herase
        exact absurd (hproto.symm.trans hall) (by decide)
      · obtain ⟨-, -, herase⟩ := hf.mem_rules.mp ⟨r, hr, rfl⟩
        have hall : r.protocol = "all" := congrArg SecurityListRule.protocol herase
        exact absurd (hproto.symm.trans hall) (by decide)
  | serves src tgt port withSsh =>
    obtain ⟨srcRole, tgtRole, hsrc, htgt, hc⟩ := exists_roles_of_mem_relationCalls hc
    obtain ⟨-, p, hopens, hf | hf⟩ := carries_of_mem_servesCalls hc
    · obtain ⟨rfl, rfl, herase⟩ := hf.mem_rules.mp ⟨r, hr, rfl⟩
      have hcidr : r.peer = base.subnetCidrs.ofTier tgtRole.role.subnetTier :=
        congrArg SecurityListRule.peer herase
      obtain rfl := hbuilt.ofTier_injective (hcidr.symm.trans hpeer)
      exact ⟨src, tgt, port, withSsh, srcRole, tgtRole, p, rfl, hsrc, htgt, hopens, herase,
        Or.inl ⟨rfl, rfl, rfl⟩⟩
    · obtain ⟨rfl, rfl, herase⟩ := hf.mem_rules.mp ⟨r, hr, rfl⟩
      have hcidr : r.peer = base.subnetCidrs.ofTier srcRole.role.subnetTier :=
        congrArg SecurityListRule.peer herase
      obtain rfl := hbuilt.ofTier_injective (hcidr.symm.trans hpeer)
      exact ⟨src, tgt, port, withSsh, srcRole, tgtRole, p, rfl, hsrc, htgt, hopens, herase,
        Or.inr ⟨rfl, rfl, rfl⟩⟩

/-- What a new VCN has in its lists, and what finalisation adds, is not over TCP. -/
theorem not_tcp_of_mem_fixed {base : VcnBase} {t : SubnetTier} {d : Direction}
    {r : SecurityListRule} (hr : r ∈ seedRules base t d ∨ r ∈ Vcn.baselineRules base t d) :
    r.protocol ≠ "6" := by
  rcases hr with hr | hr
  · obtain ⟨-, -, hr⟩ := RuleLists.mem_single.mp hr
    have hicmp : r.protocol = "1" := by
      rcases List.mem_pair.mp hr with rfl | rfl
      · rfl
      · rfl
    rw [hicmp]
    decide
  · have hall : r.protocol = "all" := by
      unfold Vcn.baselineRules at hr
      split at hr
      · rcases List.mem_pair.mp hr with rfl | rfl
        · rfl
        · rfl
      · rw [List.mem_singleton.mp hr]
        rfl
      · rw [List.mem_singleton.mp hr]
        rfl
      · cases hr
    rw [hall]
    decide

/-- **Soundness at the second layer**: a rule over TCP for a tier's CIDR, in a list of the finalised
VCN, comes from a relationship declared between the tiers. -/
theorem Tracks.declaresBetween_of_mem {cloud : Cloud} (h : Tracks family v₀ ops w)
    (hbuilt : VcnBase.Built cloud v₀.toVcnBase) (hopen : v₀.securityListsFinalized = false)
    (hrules : v₀.rules = seedRules v₀.toVcnBase) {s t : SubnetTier} {sl : SecurityList}
    (hsl : w.finalized.vcn.securityList s = some sl) {d : Direction}
    {r : SecurityListRule} (hr : r ∈ sl.rules d) (hproto : r.protocol = "6")
    (hpeer : r.peer = v₀.subnetCidrs.ofTier t) :
    ∃ p, r.erase = .tcp p (v₀.subnetCidrs.ofTier t) "" ∧
      (d = .egress ∧ DeclaresBetween ops w s t p ∨ d = .ingress ∧ DeclaresBetween ops w t s p) := by
  obtain ⟨sl', hsl', hlist⟩ := h.securityList_finalized hopen s
  obtain rfl := Option.some.inj (hsl.symm.trans hsl')
  rw [hlist d, hrules, List.mem_append, List.mem_append] at hr
  rcases hr with (hr | hr) | hr
  · exact absurd hproto (not_tcp_of_mem_fixed (Or.inl hr))
  · obtain ⟨c, hc, hr⟩ := List.mem_flatMap.mp hr
    obtain ⟨op, hop, hc⟩ := List.mem_flatMap.mp (Ledger.mem_of_mem_written hc).1
    obtain ⟨src, tgt, port, withSsh, srcRole, tgtRole, p, rfl, hsrc, htgt, hopens, herase, hdir⟩ :=
      tiers_of_mem_calls hbuilt hc hr hproto hpeer
    obtain ⟨self, target, hself, htarget⟩ := h.exists_group hop
    have hsrcRole := h.roleOf_eq hself hsrc
    have htgtRole := h.roleOf_eq htarget htgt
    have hdeclares : Declares ops w src tgt p := ⟨port, withSsh, _, hop, htgtRole, hopens⟩
    refine ⟨p, herase, hdir.imp ?_ ?_⟩
    · rintro ⟨rfl, hs, ht⟩
      exact ⟨rfl, src, tgt, _, _, hsrcRole, htgtRole, hs, ht, hdeclares⟩
    · rintro ⟨rfl, hs, ht⟩
      exact ⟨rfl, src, tgt, _, _, hsrcRole, htgtRole, hs, ht, hdeclares⟩
  · exact absurd hproto (not_tcp_of_mem_fixed (Or.inr hr))

/-- **Completeness**: groups are linked on every port the program declares between them. -/
theorem Tracks.linked_of_declares (h : Tracks family v₀ ops w)
    (hfamily : ∀ args, .build args ∈ ops → family args.name = args)
    (hroles : ∀ args, .build args ∈ ops → args.role.isSome)
    (hopen : v₀.securityListsFinalized = false) (hempty : v₀.appliedAmbientRuleFingerprints = ∅)
    (hdeclares : Declares ops w src tgt p) : w.finalized.Linked src tgt p := by
  obtain ⟨port, withSsh, role, hop, hrole, hopens⟩ := hdeclares
  obtain ⟨self, target, hself, htarget⟩ := h.exists_group hop
  obtain ⟨srcRole, hsrc⟩ := h.exists_role hfamily hroles hself
  obtain ⟨tgtRole, htgt⟩ := h.exists_role hfamily hroles htarget
  have htgtRole := h.roleOf_eq htarget htgt
  obtain rfl := Option.some.inj (htgtRole.symm.trans hrole)
  have hdecls : Opens port (withSsh && (family tgt).empty.acceptsSsh) p := by
    rwa [acceptsSsh_empty htgt]
  obtain ⟨⟨out, hout, hto⟩, into, hinto, hfrom⟩ :=
    exists_mem_relationDecls src tgt (family src).empty (family tgt).empty hdecls
  refine ⟨self, target, srcRole.role, tgtRole.role, hself, htarget, h.roleOf_eq hself hsrc,
    htgtRole, ?_, ?_, fun htiers => h.crossTier hopen hempty hop hsrc htgt htiers hopens⟩
  · refine (h.exists_rule_iff (Q := fun args => args.TcpTo target.nsg p) hself fun _ _ =>
      Iff.rfl).mpr ⟨out, List.mem_flatMap.mpr ⟨_, hop, hout⟩, ?_⟩
    rwa [(h.group tgt target htarget).same.resource]
  · refine (h.exists_rule_iff (Q := fun args => args.TcpFrom self.nsg p) htarget fun _ _ =>
      Iff.rfl).mpr ⟨into, List.mem_flatMap.mpr ⟨_, hop, hinto⟩, ?_⟩
    rwa [(h.group src self hself).same.resource]

end Tracks

/-! ## Programs -/

/-- **Relationships are sound and complete at both layers.**  After a program of groups that carry
roles and of relationships between them, finalised: every relationship is in force; two groups are
linked on the ports declared between them, SSH included, and on no others; neither has a rule for
the other on any other port; and a TCP rule for a tier's CIDR is in a security list only where the
program declares that port between the two tiers. -/
theorem linked_iff_of_program {cloud : Cloud} {args : VcnArgs} {v₀ : Vcn}
    (h : Vcn.init cloud args = .ok v₀) (ops : List NsgOp) (hnames : NamesDistinct ops)
    (hroles : ∀ args, .build args ∈ ops → args.role.isSome) {w : World}
    (hrun : (each NsgOp.exec ops).run (World.ofVcn v₀) = (.ok ⟨⟩, w)) :
    (∀ src tgt port withSsh, .serves src tgt port withSsh ∈ ops → w.finalized.Linked src tgt port) ∧
      (∀ src tgt p, w.finalized.Linked src tgt p ↔ Declares ops w src tgt p) ∧
      (∀ src tgt self target p, w.nsgs src = some self → w.nsgs tgt = some target →
        ((∃ r ∈ self.rules, r.args.TcpTo target.nsg p) ↔ Declares ops w src tgt p) ∧
        ((∃ r ∈ target.rules, r.args.TcpFrom self.nsg p) ↔ Declares ops w src tgt p)) ∧
      ∀ s sl, w.finalized.vcn.securityList s = some sl → ∀ t,
        (∀ r ∈ sl.egressSecurityRules, r.protocol = "6" →
          r.peer = v₀.subnetCidrs.ofTier t →
            ∃ p, r.erase = .tcp p (v₀.subnetCidrs.ofTier t) "" ∧ DeclaresBetween ops w s t p) ∧
        ∀ r ∈ sl.ingressSecurityRules, r.protocol = "6" →
          r.peer = v₀.subnetCidrs.ofTier t →
            ∃ p, r.erase = .tcp p (v₀.subnetCidrs.ofTier t) "" ∧ DeclaresBetween ops w t s p := by
  have hbuilt := (built_of_init h).1
  have hopen := open_of_init h
  have hrules := (rules_of_init h).1
  obtain ⟨family, hfamily⟩ := exists_family hnames
  have htracks := tracks_of_run hopen hnames hfamily hrun
  have hcomplete : ∀ src tgt p, Declares ops w src tgt p → w.finalized.Linked src tgt p :=
    fun src tgt p => htracks.linked_of_declares hfamily hroles hopen (fingerprints_of_init h)
  have hrule : ∀ {src tgt self target p}, w.nsgs src = some self → w.nsgs tgt = some target →
      Declares ops w src tgt p → (∃ r ∈ self.rules, r.args.TcpTo target.nsg p) ∧
        ∃ r ∈ target.rules, r.args.TcpFrom self.nsg p := by
    intro src tgt self target p hself htarget hdecl
    obtain ⟨self', target', -, -, hself', htarget', -, -, hto, hfrom, -⟩ :=
      hcomplete src tgt p hdecl
    obtain rfl := Option.some.inj (hself.symm.trans hself')
    obtain rfl := Option.some.inj (htarget.symm.trans htarget')
    exact ⟨hto, hfrom⟩
  refine ⟨fun src tgt port withSsh hop => ?_, fun src tgt p => ⟨fun hlinked => ?_, fun hdecl => ?_⟩,
    fun src tgt self target p hself htarget =>
      ⟨⟨fun hto => ?_, fun hdecl => (hrule hself htarget hdecl).1⟩,
        ⟨fun hfrom => ?_, fun hdecl => (hrule hself htarget hdecl).2⟩⟩,
    fun s sl hsl t => ⟨fun r hr hproto hpeer => ?_, fun r hr hproto hpeer => ?_⟩⟩
  · obtain ⟨self, target, hself, htarget⟩ := htracks.exists_group hop
    obtain ⟨role, hrole⟩ := htracks.exists_role hfamily hroles htarget
    exact hcomplete src tgt port
      ⟨port, withSsh, _, hop, htracks.roleOf_eq htarget hrole, Or.inl rfl⟩
  · obtain ⟨self, target, -, -, hself, htarget, -, -, hto, -⟩ := hlinked
    exact htracks.declares_of_tcpTo hfamily hroles hself htarget hto
  · exact hcomplete src tgt p hdecl
  · exact htracks.declares_of_tcpTo hfamily hroles hself htarget hto
  · exact htracks.declares_of_tcpFrom hfamily hroles hself htarget hfrom
  · obtain ⟨p, herase, ⟨-, hdecl⟩ | ⟨hdir, -⟩⟩ := htracks.declaresBetween_of_mem hbuilt hopen hrules
      hsl (d := .egress) hr hproto hpeer
    · exact ⟨p, herase, hdecl⟩
    · cases hdir
  · obtain ⟨p, herase, ⟨hdir, -⟩ | ⟨-, hdecl⟩⟩ := htracks.declaresBetween_of_mem hbuilt hopen hrules
      hsl (d := .ingress) hr hproto hpeer
    · cases hdir
    · exact ⟨p, herase, hdecl⟩

/-- The second group is also reached over SSH; nothing is reached from it. -/
theorem linked_iff_of_program_default :
    ∃ w, (each NsgOp.exec webApi).run (World.ofVcn defaultBase.fresh) = (.ok ⟨⟩, w) ∧
      w.finalized.Linked "web" "api" 8080 ∧ w.finalized.Linked "web" "api" 22 ∧
      ¬ w.finalized.Linked "api" "web" 8080 := by
  obtain ⟨w, hrun, hrole⟩ : ∃ w,
      (each NsgOp.exec webApi).run (World.ofVcn defaultBase.fresh) = (.ok ⟨⟩, w) ∧
      w.roleOf "api" = some APP_SERVER := ⟨_, rfl, rfl⟩
  have hnames : NamesDistinct webApi := by
    unfold NamesDistinct
    decide
  have hroles : ∀ args, .build args ∈ webApi → args.role.isSome := by
    intro args hargs
    simp only [webApi, List.mem_cons, NsgOp.build.injEq, reduceCtorEq, List.not_mem_nil, or_false]
      at hargs
    rcases hargs with rfl | rfl
    · rfl
    · rfl
  obtain ⟨hserves, hiff, -⟩ := linked_iff_of_program init_default webApi hnames hroles hrun
  refine ⟨w, hrun, hserves "web" "api" 8080 true (by decide), (hiff _ _ _).mpr ?_,
    fun hlinked => ?_⟩
  · exact ⟨8080, true, APP_SERVER, by decide, hrole, Or.inr ⟨rfl, rfl⟩⟩
  · obtain ⟨port, withSsh, role, hop, -⟩ := (hiff _ _ _).mp hlinked
    simp [webApi] at hop

end CloudSpells
