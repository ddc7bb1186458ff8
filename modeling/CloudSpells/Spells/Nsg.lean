import CloudSpells.Spells.Construct

/-!
# Spells/Nsg — network security groups and the relationships between them

An `Nsg` has rules of its own, each under a label unique within the group, and a role.  The role
makes it open ambient rules in the security lists of the VCN; `serves` declares a relationship
between two groups, in the rules of both and, where their tiers differ, in the security lists of
both tiers.

What a constructor and a relationship add is given as data: the rules of a group (`ambientDecls`,
`relationDecls`) and the calls on the VCN (`ambientCalls`, `servesCalls`).  A `World` is a VCN
with the groups built on it, by name.
-/

namespace CloudSpells

open Machinery Machinery.Exec

/-- `SSH`. -/
def SSH : ℤ := 22

/-! ## Rules of a group -/

/-- The arguments of `add_rule` besides the label. -/
structure NsgRuleArgs where
  direction : Direction
  protocol : String
  source : Option Input := none
  sourceType : Option PeerType := none
  destination : Option Input := none
  destinationType : Option PeerType := none
  tcpOptions : Option PortRange := none
  udpOptions : Option PortRange := none
  icmpOptions : Option IcmpOptions := none
  description : String := ""
  deriving DecidableEq, Repr

/-- `oci.core.NetworkSecurityGroupSecurityRule`. -/
structure NsgRule where
  resource : Resource
  networkSecurityGroupId : Resource
  args : NsgRuleArgs
  deriving DecidableEq, Repr

/-- The rule without the ordinal in its name. -/
def NsgRule.erase (r : NsgRule) : NsgRule := { r with resource := { r.resource with suffix := "" } }

/-- A rule to be added, under a label. -/
abbrev RuleDecl := String × NsgRuleArgs

/-- `allow_from_cidr`. -/
def allowFromCidr (label : String) (port : ℤ) (cidr : String) : RuleDecl :=
  (label, {
    direction := .ingress
    protocol := "6"
    source := some (.str cidr)
    sourceType := some .cidrBlock
    tcpOptions := some { min := port, max := port }
    description := s!"TCP {port} from {cidr}" })

/-- `allow_from_nsg`. -/
def allowFromNsg (label : String) (source : Resource) (port : ℤ) : RuleDecl :=
  (label, {
    direction := .ingress
    protocol := "6"
    source := some (.id source)
    sourceType := some .networkSecurityGroup
    tcpOptions := some { min := port, max := port }
    description := s!"TCP {port} from NSG" })

/-- `allow_to_nsg`. -/
def allowToNsg (label : String) (destination : Resource) (port : ℤ) : RuleDecl :=
  (label, {
    direction := .egress
    protocol := "6"
    destination := some (.id destination)
    destinationType := some .networkSecurityGroup
    tcpOptions := some { min := port, max := port }
    description := s!"TCP {port} to NSG" })

/-- `allow_to_services`. -/
def allowToServices (label svcCidrBlock : String) : RuleDecl :=
  (label, {
    direction := .egress
    protocol := "all"
    destination := some (.str svcCidrBlock)
    destinationType := some .serviceCidrBlock
    description := "All traffic to Oracle Services" })

/-- `allow_to_cidr`. -/
def allowToCidr (label cidr : String) : RuleDecl :=
  (label, {
    direction := .egress
    protocol := "all"
    destination := some (.str cidr)
    destinationType := some .cidrBlock
    description := s!"All traffic to {cidr}" })

/-! ## Groups -/

/-- The arguments of `Nsg(…)` besides the VCN; no ports is `None` or `[]`. -/
structure NsgArgs where
  name : String
  stackName : String
  role : Option RoleArg := none
  ports : List ℤ := []
  deriving DecidableEq, Repr

/-- An internet-facing group. -/
def webArgs : NsgArgs where
  name := "web"
  stackName := "dev"
  role := some (.predefined .internetEdge)
  ports := [80]

/-- `Nsg`. -/
structure Nsg where
  namer : ResourceNamer
  nsg : Resource
  role : Option RoleArg
  ruleLabels : Finset String
  nextRuleIndex : ℕ
  rules : List NsgRule

namespace NsgArgs

/-- The namer of the group. -/
def namer (args : NsgArgs) : ResourceNamer :=
  { stackName := args.stackName, resourceName := args.name }

/-- The `NetworkSecurityGroup` resource of the group. -/
def nsg (args : NsgArgs) : Resource where
  spell := "custom:network:Nsg"
  namer := args.namer
  type := .networkSecurityGroup
  suffix := "nsg"

/-- The group before any rule. -/
def empty (args : NsgArgs) : Nsg where
  namer := args.namer
  nsg := args.nsg
  role := args.role
  ruleLabels := ∅
  nextRuleIndex := 0
  rules := []

end NsgArgs

namespace Nsg

/-- `name`. -/
def name (nsg : Nsg) : String := nsg.namer.resourceName

/-- The rule `add_rule` registers as its `index`th. -/
def ruleOf (nsg : Nsg) (index : ℕ) (decl : RuleDecl) : NsgRule where
  resource := {
    spell := "custom:network:Nsg"
    namer := nsg.namer
    type := .networkSecurityGroupSecurityRule
    suffix := ordinalSuffix "nsg-rule" index
    aliases := [s!"{nsg.namer.stackName}-{nsg.name}-nsg-rule-{decl.1}"] }
  networkSecurityGroupId := nsg.nsg
  args := { decl.2 with
    description := if decl.2.description = "" then decl.1 else decl.2.description }

/-- `add_rule`. -/
def addRule (decl : RuleDecl) (nsg : Nsg) : Except PyError Nsg :=
  if decl.1 ∈ nsg.ruleLabels then
    .error (.valueError
      s!"Nsg rule label must be unique within this NSG; duplicate label: {pyRepr decl.1}")
  else .ok { nsg with
    ruleLabels := insert decl.1 nsg.ruleLabels
    nextRuleIndex := nsg.nextRuleIndex + 1
    rules := nsg.rules ++ [nsg.ruleOf nsg.nextRuleIndex decl] }

/-- `add_rule`, again and again. -/
def addRules : List RuleDecl → Nsg → Except PyError Nsg
  | [], nsg => .ok nsg
  | decl :: decls, nsg => do addRules decls (← nsg.addRule decl)

/-- The same group, with rules of its own. -/
structure SameGroup (nsg nsg' : Nsg) : Prop where
  namer : nsg'.namer = nsg.namer
  resource : nsg'.nsg = nsg.nsg
  role : nsg'.role = nsg.role

theorem SameGroup.refl (nsg : Nsg) : nsg.SameGroup nsg := ⟨rfl, rfl, rfl⟩

theorem SameGroup.trans {nsg nsg' nsg'' : Nsg} (h : nsg.SameGroup nsg')
    (h' : nsg'.SameGroup nsg'') : nsg.SameGroup nsg'' :=
  ⟨h'.namer.trans h.namer, h'.resource.trans h.resource, h'.role.trans h.role⟩

theorem SameGroup.ruleOf_eq {nsg nsg' : Nsg} (h : nsg.SameGroup nsg') (index : ℕ)
    (decl : RuleDecl) : nsg'.ruleOf index decl = nsg.ruleOf index decl := by
  unfold ruleOf name
  rw [h.namer, h.resource]

/-- A rule is added where its label is new. -/
theorem addRule_eq_ok {decl : RuleDecl} {nsg nsg' : Nsg} : nsg.addRule decl = .ok nsg' ↔
    decl.1 ∉ nsg.ruleLabels ∧ nsg' = { nsg with
      ruleLabels := insert decl.1 nsg.ruleLabels
      nextRuleIndex := nsg.nextRuleIndex + 1
      rules := nsg.rules ++ [nsg.ruleOf nsg.nextRuleIndex decl] } := by
  unfold addRule
  split
  · rename_i hused
    exact iff_of_false (fun h => by cases h) fun h => h.1 hused
  · rename_i hnew
    exact ⟨fun h => ⟨hnew, (Except.ok.inj h).symm⟩, fun h => congrArg _ h.2.symm⟩

/-- **The run lemma of `add_rule`**: the rules are added in order, numbered, and their labels are
distinct and new. -/
theorem rules_of_addRules {decls : List RuleDecl} {nsg nsg' : Nsg}
    (h : addRules decls nsg = .ok nsg') :
    nsg.SameGroup nsg' ∧
      nsg'.rules = nsg.rules ++ decls.mapIdx (fun i => nsg.ruleOf (nsg.nextRuleIndex + i)) ∧
      (decls.map Prod.fst).Nodup ∧ ∀ decl ∈ decls, decl.1 ∉ nsg.ruleLabels := by
  induction decls generalizing nsg with
  | nil =>
    obtain rfl := Except.ok.inj h
    exact ⟨SameGroup.refl nsg, by simp, List.nodup_nil, fun decl hdecl => by cases hdecl⟩
  | cons decl decls ih =>
    obtain ⟨nsg₁, hadd, hrest⟩ := bind_eq_ok.mp h
    obtain ⟨hnew, rfl⟩ := addRule_eq_ok.mp hadd
    obtain ⟨hsame, hrules, hnodup, hlabels⟩ := ih hrest
    have hgroup : nsg.SameGroup nsg' := ⟨hsame.namer, hsame.resource, hsame.role⟩
    refine ⟨hgroup, ?_, ?_, fun d hd => ?_⟩
    · rw [hrules, List.mapIdx_cons, List.append_assoc, List.singleton_append, Nat.add_zero]
      refine congrArg (fun rules => nsg.rules ++ nsg.ruleOf nsg.nextRuleIndex decl :: rules) ?_
      refine congrArg (fun f => decls.mapIdx f) (funext fun i => ?_)
      rw [show nsg.nextRuleIndex + 1 + i = nsg.nextRuleIndex + (i + 1) by omega]
      rfl
    · rw [List.map_cons, List.nodup_cons]
      refine ⟨fun hmem => ?_, hnodup⟩
      obtain ⟨d, hd, hlabel⟩ := List.mem_map.mp hmem
      exact hlabels d hd (hlabel ▸ Finset.mem_insert_self _ _)
    · rcases List.mem_cons.mp hd with rfl | hd
      · exact hnew
      · exact fun hmem => hlabels d hd (Finset.mem_insert_of_mem hmem)

/-- The rules of the group itself in `_apply_role_ambient_rules`. -/
def ambientDecls (svcCidrBlock : String) (role : Role) (ports : List ℤ) : List RuleDecl :=
  (if role.subnetTier = .pub then
      ports.map fun port => allowFromCidr s!"internet-in-{port}" port INTERNET
    else []) ++
  (if role.egressServices then [allowToServices "svc-out" svcCidrBlock] else []) ++
  (if role.egressInternet then [allowToCidr "inet-out" INTERNET] else [])

/-- `_sl_for_tier`. -/
def slForTier (fingerprint : String) (tier : SubnetTier) (dir : Direction)
    (rule : SecurityListRule) : RuleCall :=
  .unique fingerprint (.single tier dir [rule])

/-- `_sl_egress_all_services`. -/
def slEgressAllServices (svcCidrBlock : String) : SecurityListRule :=
  .all svcCidrBlock .serviceCidrBlock "All traffic to Oracle Services"

/-- `_sl_egress_all_internet`. -/
def slEgressAllInternet : SecurityListRule :=
  .all "0.0.0.0/0" .cidrBlock "All outbound traffic via NAT Gateway"

/-- The calls on the VCN in `_apply_role_ambient_rules`. -/
def ambientCalls (base : VcnBase) (role : Role) (ports : List ℤ) : List RuleCall :=
  let tier := role.subnetTier
  (if tier = .pub then
      ports.map fun port => .unique s!"public-ingress-tcp-{port}"
        (.single .pub .ingress [.tcp port "0.0.0.0/0" s!"TCP {port} from internet"])
    else []) ++
  (if role.egressServices then
      [slForTier s!"{tier.str}-egress-all-services" tier .egress
        (slEgressAllServices base.svcCidrBlock)]
    else []) ++
  (if role.egressInternet then
      [slForTier s!"{tier.str}-egress-all-internet" tier .egress slEgressAllInternet]
    else [])

/-- The check that an internet-facing group has a port. -/
def check (args : NsgArgs) : Except PyError Unit :=
  if args.role = some (.predefined .internetEdge) ∧ args.ports = [] then
    .error (.valueError (s!"Nsg '{args.name}': role=INTERNET_EDGE requires at least one port in " ++
      "`ports=` (e.g. ports=[HTTP, HTTPS]).  An empty or missing ports list would create " ++
      "an internet-facing NSG that accepts no inbound traffic."))
  else .ok ⟨⟩

/-- `Nsg(…)`. -/
def init (args : NsgArgs) : Py Vcn Nsg := do
  attempt (check args)
  match args.role with
  | none => pure args.empty
  | some role => do
    let v ← get
    let nsg ← attempt (args.empty.addRules (ambientDecls v.svcCidrBlock role.role args.ports))
    register (ambientCalls v.toVcnBase role.role args.ports)
    pure nsg

/-- `target.role is None or target.role.accept_management_ssh`. -/
def acceptsSsh (target : Nsg) : Bool :=
  match target.role with
  | none => true
  | some role => role.role.acceptManagementSsh

/-- The calls of `serves` on the VCN, for two tiers. -/
def servesCalls (base : VcnBase) (srcTier tgtTier : SubnetTier) (port : ℤ) (needsSsh : Bool) :
    List RuleCall :=
  if srcTier = tgtTier then []
  else
    let srcCidr := base.subnetCidrs.ofTier srcTier
    let tgtCidr := base.subnetCidrs.ofTier tgtTier
    [slForTier s!"{srcTier.str}-egress-tcp-{port}-to-{tgtTier.str}" srcTier .egress
        (.tcp port tgtCidr s!"TCP {port} to {tgtTier.str} tier"),
      slForTier s!"{tgtTier.str}-ingress-tcp-{port}-from-{srcTier.str}" tgtTier .ingress
        (.tcp port srcCidr s!"TCP {port} from {srcTier.str} tier")] ++
    if needsSsh then
      [slForTier s!"{srcTier.str}-egress-tcp-22-to-{tgtTier.str}" srcTier .egress
          (.tcp SSH tgtCidr s!"SSH to {tgtTier.str} tier"),
        slForTier s!"{tgtTier.str}-ingress-tcp-22-from-{srcTier.str}" tgtTier .ingress
          (.tcp SSH srcCidr s!"SSH from {srcTier.str} tier")]
    else []

end Nsg

/-! ## A VCN with its groups -/

/-- A VCN and the groups built on it, by name. -/
structure World where
  vcn : Vcn
  nsgs : String → Option Nsg

namespace World

/-- A VCN without groups. -/
def ofVcn (v : Vcn) : World where
  vcn := v
  nsgs := fun _ => none

/-- A method of the VCN. -/
def onVcn {α : Type} (m : Py Vcn α) : Py World α :=
  Exec.on World.vcn (fun v w => { w with vcn := v }) m

/-- The group a program calls by this name. -/
def lookup (name : String) : Py World Nsg := do
  let w ← get
  match w.nsgs name with
  | none => throw (.nameError name)
  | some nsg => pure nsg

/-- Add a rule to the group of this name. -/
def addRuleTo (name : String) (decl : RuleDecl) : Py World Unit := do
  let nsg ← lookup name
  let nsg ← attempt (nsg.addRule decl)
  modify fun w => { w with nsgs := Function.update w.nsgs name (some nsg) }

/-- `name = Nsg(…)`. -/
def buildNsg (args : NsgArgs) : Py World Unit := do
  let nsg ← onVcn (Nsg.init args)
  modify fun w => { w with nsgs := Function.update w.nsgs args.name (some nsg) }

/-- The body of `serves`, for the groups `self` and `target` that the program calls `src` and `tgt`.
-/
def relate (src tgt : String) (self target : Nsg) (port : ℤ) (withSsh : Bool) : Py World Unit := do
  let needsSsh := withSsh && target.acceptsSsh
  addRuleTo src (allowToNsg s!"out-{target.name}-{port}" target.nsg port)
  addRuleTo tgt (allowFromNsg s!"in-{self.name}-{port}" self.nsg port)
  if needsSsh then do
    addRuleTo src (allowToNsg s!"out-{target.name}-ssh" target.nsg SSH)
    addRuleTo tgt (allowFromNsg s!"in-{self.name}-ssh" self.nsg SSH)
  else pure ⟨⟩
  match self.role, target.role with
  | some srcRole, some tgtRole => do
    let w ← get
    onVcn (register (Nsg.servesCalls w.vcn.toVcnBase srcRole.role.subnetTier
      tgtRole.role.subnetTier port needsSsh))
  | _, _ => pure ⟨⟩

/-- `src.serves(tgt, port, with_ssh=…)`. -/
def serves (src tgt : String) (port : ℤ) (withSsh : Bool) : Py World Unit := do
  let self ← lookup src
  let target ← lookup tgt
  relate src tgt self target port withSsh

end World

/-! ## What a group and a relationship pass to the VCN -/

/-- The calls of `_apply_role_ambient_rules` for a new group. -/
def NsgArgs.ruleCalls (base : VcnBase) (args : NsgArgs) : List RuleCall :=
  match args.role with
  | none => []
  | some role => Nsg.ambientCalls base role.role args.ports

/-- The calls of `serves` on the VCN, for two groups. -/
def Nsg.relationCalls (base : VcnBase) (self target : Nsg) (port : ℤ) (withSsh : Bool) :
    List RuleCall :=
  match self.role, target.role with
  | some srcRole, some tgtRole =>
    servesCalls base srcRole.role.subnetTier tgtRole.role.subnetTier port
      (withSsh && target.acceptsSsh)
  | _, _ => []

/-- The rules `serves` adds to the groups, in order, each with the name of its group. -/
def Nsg.relationDecls (src tgt : String) (self target : Nsg) (port : ℤ) (withSsh : Bool) :
    List (String × RuleDecl) :=
  [(src, allowToNsg s!"out-{target.name}-{port}" target.nsg port),
   (tgt, allowFromNsg s!"in-{self.name}-{port}" self.nsg port)] ++
  if withSsh && target.acceptsSsh then
    [(src, allowToNsg s!"out-{target.name}-ssh" target.nsg SSH),
     (tgt, allowFromNsg s!"in-{self.name}-ssh" self.nsg SSH)]
  else []

namespace World

/-- **`serves` adds rules to the groups, then registers its calls.** -/
theorem relate_eq (src tgt : String) (self target : Nsg) (port : ℤ) (withSsh : Bool) :
    relate src tgt self target port withSsh = (do
      each (fun a => addRuleTo a.1 a.2) (Nsg.relationDecls src tgt self target port withSsh)
      let w ← get
      onVcn (register (Nsg.relationCalls w.vcn.toVcnBase self target port withSsh))) := by
  have hregister : (match self.role, target.role with
      | some srcRole, some tgtRole => do
        let w ← get
        onVcn (register (Nsg.servesCalls w.vcn.toVcnBase srcRole.role.subnetTier
          tgtRole.role.subnetTier port (withSsh && target.acceptsSsh)))
      | _, _ => (pure ⟨⟩ : Py World Unit)) = (do
      let w ← get
      onVcn (register (Nsg.relationCalls w.vcn.toVcnBase self target port withSsh))) := by
    unfold Nsg.relationCalls
    cases self.role <;> cases target.role <;> rfl
  unfold relate Nsg.relationDecls
  dsimp only
  rw [hregister]
  cases withSsh && target.acceptsSsh <;>
    simp [each_cons, bind_assoc]

theorem run_lookup_of_some {w : World} {name : String} {nsg : Nsg}
    (h : w.nsgs name = some nsg) : (lookup name).run w = (.ok nsg, w) := by
  rw [lookup, run_get_bind, h]
  rfl

theorem run_lookup_of_none {w : World} {name : String} (h : w.nsgs name = none) :
    (lookup name).run w = (.error (.nameError name), w) := by
  rw [lookup, run_get_bind, h]
  rfl

/-- **What returned after a look-up** has found the group. -/
theorem run_lookup_bind_eq_ok {w w' : World} {name : String} {α : Type} {f : Nsg → Py World α}
    {a : α} : (lookup name >>= f).run w = (.ok a, w') ↔
      ∃ nsg, w.nsgs name = some nsg ∧ (f nsg).run w = (.ok a, w') := by
  cases h : w.nsgs name with
  | none =>
    rw [run_bind_error (run_lookup_of_none h)]
    refine iff_of_false (fun heq => by cases heq) ?_
    rintro ⟨_, hsome, -⟩
    cases hsome
  | some nsg =>
    rw [run_bind_ok (run_lookup_of_some h)]
    refine ⟨fun hrun => ⟨nsg, rfl, hrun⟩, ?_⟩
    rintro ⟨_, hsome, hrun⟩
    rwa [← Option.some.inj hsome] at hrun

/-- A call of `serves` between two groups that are there. -/
theorem run_serves {w : World} {src tgt : String} {self target : Nsg} {port : ℤ} {withSsh : Bool}
    (hself : w.nsgs src = some self) (htarget : w.nsgs tgt = some target) :
    (serves src tgt port withSsh).run w = (relate src tgt self target port withSsh).run w := by
  rw [serves, run_bind_ok (run_lookup_of_some hself), run_bind_ok (run_lookup_of_some htarget)]

/-- Where one of them is not, it raises and does nothing. -/
theorem run_serves_of_not {w : World} {src tgt : String}
    (h : ¬ ∃ self target, w.nsgs src = some self ∧ w.nsgs tgt = some target) (port : ℤ)
    (withSsh : Bool) :
    ∃ name, (serves src tgt port withSsh).run w = (.error (.nameError name), w) := by
  cases hself : w.nsgs src with
  | none => exact ⟨src, by rw [serves, run_bind_error (run_lookup_of_none hself)]⟩
  | some self =>
    cases htarget : w.nsgs tgt with
    | none =>
      refine ⟨tgt, ?_⟩
      rw [serves, run_bind_ok (run_lookup_of_some hself),
        run_bind_error (run_lookup_of_none htarget)]
    | some target => exact absurd ⟨self, target, hself, htarget⟩ h

/-- **A call of `serves` that returned** was between two groups that are there. -/
theorem run_serves_eq_ok {w w' : World} {src tgt : String} {port : ℤ} {withSsh : Bool} :
    (serves src tgt port withSsh).run w = (.ok ⟨⟩, w') ↔ ∃ self target,
      w.nsgs src = some self ∧ w.nsgs tgt = some target ∧
        (relate src tgt self target port withSsh).run w = (.ok ⟨⟩, w') := by
  rw [serves, run_lookup_bind_eq_ok]
  simp only [run_lookup_bind_eq_ok, exists_and_left]

end World

end CloudSpells
