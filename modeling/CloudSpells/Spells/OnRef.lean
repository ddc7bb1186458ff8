import CloudSpells.Network.VcnRef
import CloudSpells.Spells.Program

/-!
# Spells/OnRef — spells on the VCN of another stack

A spell takes a `Vcn` or a `VcnRef`.  On a reference it checks its arguments and creates its
children as on a VCN, in the subnets the reference reads, but it registers nothing: the security
lists are the other stack's.  Only an `OkeCluster` passes its rules to the reference all the same,
and `add_security_list_rules` of a reference refuses what is not empty.

Nothing changes a reference, so the state of a program on it is the groups it has built.  A `RefOp`
is a step of such a program; `onRef` takes it on a reference and `onLive` on a live VCN.
-/

namespace CloudSpells

open Machinery Machinery.Exec

/-! ## Methods of a reference -/

/-- The name of a list of rules among the arguments of `add_security_list_rules`. -/
def ruleSetName (tier : SubnetTier) : Direction → String
  | .ingress => s!"{tier.str}_ingress"
  | .egress => s!"{tier.str}_egress"

/-- `repr` of a list of strings. -/
def pyReprList (names : List String) : String := "[" ++ ", ".intercalate (names.map pyRepr) ++ "]"

namespace VcnRef

/-- The arguments of `add_security_list_rules`, in order. -/
def ruleSets : List (SubnetTier × Direction) :=
  [.pub, .priv, .sec, .mgmt].flatMap fun tier => [(tier, .ingress), (tier, .egress)]

/-- The text of the refusal of rules. -/
def refusal (nonEmpty : List String) : String :=
  "VcnRef: the following security rule sets were requested but cannot be " ++
    s!"applied to an imported CloudSpells VCN: {pyReprList nonEmpty}. " ++
    "Add these rules to the source CloudSpells stack first, then re-deploy here."

/-- `add_security_list_rules`; of the rules it looks only at whether there are any. -/
def addSecurityListRules {ρ : Type} (rules : SubnetTier → Direction → List ρ) :
    Except PyError Unit :=
  let nonEmpty := (ruleSets.filter fun s => !(rules s.1 s.2).isEmpty).map fun s =>
    ruleSetName s.1 s.2
  if nonEmpty ≠ [] then .error (.runtimeError (refusal nonEmpty)) else .ok ⟨⟩

/-- `get_{tier}_subnet_id`. -/
def getSubnetId (ref : VcnRef) : SubnetTier → Except PyError Output
  | .pub => .ok ref.publicSubnet.id
  | .priv => .ok ref.privateSubnet.id
  | .sec => match ref.secureSubnet with
    | some subnet => .ok subnet.id
    | none => .error (.runtimeError "VcnRef was constructed without a secure_subnet_id.")
  | .mgmt => match ref.managementSubnet with
    | some subnet => .ok subnet.id
    | none => .error (.runtimeError "VcnRef was constructed without a management_subnet_id.")

end VcnRef

/-! ## Spells -/

/-- `Nsg(…)` on a reference: its own rules, and none in the security lists. -/
def Nsg.initOnRef (cloud : Cloud) (args : NsgArgs) : Except PyError Nsg := do
  check args
  match args.role with
  | none => return args.empty
  | some role => args.empty.addRules (ambientDecls (getSvcCidr cloud) role.role args.ports)

/-- A `ComputeInstance` in a subnet that a reference reads. -/
structure ComputeInstance.OnRef where
  namer : ResourceNamer
  subnet : SubnetTier
  subnetId : Output
  nsgIds : List Resource
  instanceResource : Resource
  volumesSpec : List VolumeSpec
  blockVolumes : List Resource
  volumeAttachments : List Resource

namespace ComputeInstance

/-- `_assert_subnets_ready`, of a reference. -/
def assertSubnetsReadyOnRef (ref : VcnRef) : Except PyError Unit :=
  match [SubnetTier.priv, .pub, .sec, .mgmt].find? fun tier => (ref.subnet tier).isNone with
  | some tier => .error (.runtimeError
      s!"VCN {tier.str} subnet must exist after finalize_network().")
  | none => .ok ⟨⟩

/-- The instance and its volumes. -/
def createOnRef (nsg : Option Nsg) (args : ComputeArgs) (specs : List VolumeSpec) (ref : VcnRef) :
    Except PyError OnRef := do
  let namer : ResourceNamer := { stackName := args.stackName, resourceName := args.name }
  let subnet := resolveSubnet nsg args.subnet
  assertSubnetsReadyOnRef ref
  let subnetId ← ref.getSubnetId subnet
  return {
    namer := namer
    subnet := subnet
    subnetId := subnetId
    nsgIds := (nsg.map Nsg.nsg).toList
    instanceResource := child namer .computeInstance "instance" []
    volumesSpec := specs
    blockVolumes := specs.mapIdx (volume namer)
    volumeAttachments := specs.mapIdx (attachment namer) }

/-- `ComputeInstance(…)` on a reference. -/
def initOnRef (nsg : Option Nsg) (args : ComputeArgs) (ref : VcnRef) : Except PyError OnRef := do
  let specs ← check args
  createOnRef nsg args specs ref

end ComputeInstance

/-- A `Bastion` in a subnet that a reference reads. -/
structure Bastion.OnRef where
  namer : ResourceNamer
  bastion : Resource
  targetSubnetId : Output
  clientCidrBlockAllowLists : List String

namespace Bastion

/-- `Bastion(…)` on a reference. -/
def initOnRef (args : BastionArgs) (ref : VcnRef) : Except PyError OnRef := do
  let cidrs ← check args
  let namer : ResourceNamer := { stackName := args.stackName, resourceName := args.name }
  let subnetId ← ref.getSubnetId .priv
  return {
    namer := namer
    bastion :=
      { spell := "custom:bastion:Bastion", namer := namer, type := .bastion, suffix := "bastion" }
    targetSubnetId := subnetId
    clientCidrBlockAllowLists := cidrs }

end Bastion

/-- A balancer in a subnet that a reference reads. -/
structure Balancer.OnRef where
  loadBalancer : Resource
  subnetId : Output
  isPrivate : Bool
  backendSet : Resource
  healthCheckPort : ℤ
  redirectRuleSet : Option Resource
  listeners : List Listener

/-- `LoadBalancer(…)` on a reference. -/
def LoadBalancer.initOnRef (args : LoadBalancerArgs) (ref : VcnRef) :
    Except PyError Balancer.OnRef := do
  let backendPort ← args.check
  let subnetId ← ref.getSubnetId .pub
  return {
    loadBalancer := child args.namer .loadBalancer "lb"
    subnetId := subnetId
    isPrivate := false
    backendSet := child args.namer .backendSet "bs"
    healthCheckPort := backendPort
    redirectRuleSet := some (child args.namer .ruleSet "rs-redirect")
    listeners :=
      [{ resource := child args.namer .listener "listener-https", port := 443,
         protocol := "HTTPS" },
       { resource := child args.namer .listener "listener-http", port := 80, protocol := "HTTP" }] }

/-- `InternalLoadBalancer(…)` on a reference. -/
def InternalLoadBalancer.initOnRef (args : LoadBalancerArgs) (ref : VcnRef) :
    Except PyError Balancer.OnRef := do
  let backendPort ← args.check
  let subnetId ← ref.getSubnetId .priv
  return {
    loadBalancer := child args.namer .loadBalancer "lb"
    subnetId := subnetId
    isPrivate := true
    backendSet := child args.namer .backendSet "bs"
    healthCheckPort := backendPort
    redirectRuleSet := none
    listeners :=
      [{ resource := child args.namer .listener "listener-http", port := 80, protocol := "HTTP" }] }

/-- A `ScalableWorkload` in subnets that a reference reads. -/
structure ScalableWorkload.OnRef where
  namer : ResourceNamer
  balancer : Balancer.OnRef
  instanceConfiguration : Resource
  instancePool : Resource
  poolSubnetId : Output
  poolPort : ℤ

namespace ScalableWorkload

/-- `_create_load_balancer`, on a reference. -/
def createLoadBalancerOnRef (namer : ResourceNamer) (config : LoadBalancerConfig) (ref : VcnRef) :
    Except PyError Balancer.OnRef := do
  let subnetId ← ref.getSubnetId (if config.isPublic then .pub else .priv)
  let https : List Listener := match config.sslCertificateName with
    | none => []
    | some certificate =>
      if certificate = "" then []
      else
        [{ resource := child namer .listener "listener-https", port := 443, protocol := "HTTPS" }]
  return {
    loadBalancer := child namer .loadBalancer "lb"
    subnetId := subnetId
    isPrivate := !config.isPublic
    backendSet := child namer .backendSet "bs"
    healthCheckPort := config.backendPort
    redirectRuleSet := none
    listeners :=
      { resource := child namer .listener "listener-http", port := 80, protocol := "HTTP" } ::
        https }

/-- `ScalableWorkload(…)` on a reference. -/
def initOnRef (args : ScalableWorkloadArgs) (ref : VcnRef) : Except PyError OnRef := do
  check args
  let namer : ResourceNamer := { stackName := args.stackName, resourceName := args.name }
  let _ ← ref.getSubnetId .pub
  let poolSubnetId ← ref.getSubnetId .priv
  let balancer ← createLoadBalancerOnRef namer args.loadBalancerConfig ref
  return {
    namer := namer
    balancer := balancer
    instanceConfiguration := child namer .instanceConfiguration "ic"
    instancePool := child namer .instancePool "pool"
    poolSubnetId := poolSubnetId
    poolPort := args.loadBalancerConfig.backendPort }

end ScalableWorkload

/-- An `OkeCluster` in subnets that a reference reads. -/
structure OkeCluster.OnRef where
  namer : ResourceNamer
  cluster : Resource
  apiNsg : Resource
  nsgRules : List Resource
  nodePools : List Resource
  publicSubnetId : Output
  privateSubnetId : Output

namespace OkeCluster

/-- The rules of `_add_oke_security_lists_rules` on a reference, each by its peer. -/
def rulePeers (cloud : Cloud) (publicCidr privateCidr : RefInput) (kubectlCidrs : List String) :
    SubnetTier → Direction → List RefInput
  | .pub, .ingress => [privateCidr, privateCidr, .str "0.0.0.0/0", .str "0.0.0.0/0"] ++
      kubectlCidrs.map RefInput.str
  | .pub, .egress =>
    [.str (getSvcCidr cloud), privateCidr, privateCidr, privateCidr, privateCidr]
  | .priv, .ingress => [publicCidr, publicCidr, publicCidr, publicCidr]
  | .priv, .egress =>
    [.str (getSvcCidr cloud), publicCidr, publicCidr, .str "0.0.0.0/0", .str "0.0.0.0/0"]
  | _, _ => []

/-- `_add_oke_security_lists_rules`, on a reference. -/
def addOkeSecurityListsRules (cloud : Cloud) (kubectlCidrs : List String) (ref : VcnRef) :
    Except PyError Unit := do
  let privateCidr ← ref.getSubnetCidr .priv
  let publicCidr ← ref.getSubnetCidr .pub
  VcnRef.addSecurityListRules (rulePeers cloud publicCidr privateCidr kubectlCidrs)

/-- `OkeCluster(…)` on a reference. -/
def initOnRef (cloud : Cloud) (args : OkeArgs) (ref : VcnRef) : Except PyError OnRef := do
  let kubectlCidrs := args.kubectlAllowedCidrs.getD []
  let namer : ResourceNamer := { stackName := args.stackName, resourceName := args.name }
  addOkeSecurityListsRules cloud kubectlCidrs ref
  return {
    namer := namer
    cluster := child namer .cluster "cluster" []
    apiNsg := child namer .networkSecurityGroup "api-nsg" []
    nsgRules := createNsgRules namer kubectlCidrs
    nodePools := args.nodePools.mapIdx (nodePool namer)
    publicSubnetId := ref.publicSubnet.id
    privateSubnetId := ref.privateSubnet.id }

end OkeCluster

/-- `oci.logging.Log`, of a subnet that a reference reads. -/
structure Log.OnRef where
  resource : Resource
  logGroupId : Resource
  subnetId : Output
  retentionDuration : ℤ

/-- The `VcnFlowLogs` of a reference. -/
structure VcnFlowLogs.OnRef where
  namer : ResourceNamer
  compartmentId : Option String
  retentionDuration : ℤ
  logGroup : Resource
  flowLog : SubnetTier → Option Log.OnRef

namespace VcnFlowLogs

/-- `_flow_log`, for a subnet that a reference reads. -/
def flowLogOnRef (namer : ResourceNamer) (retentionDuration : ℤ) (tier : SubnetTier)
    (subnet : SubnetRef) : Log.OnRef where
  resource := child namer .log s!"flow-log-{tier.str}"
  logGroupId := child namer .logGroup "network-audit"
  subnetId := subnet.id
  retentionDuration := retentionDuration

/-- `VcnFlowLogs(…)` on a reference, which has no compartment to offer. -/
def initOnRef (args : FlowLogsArgs) (ref : VcnRef) : Except PyError OnRef :=
  if args.compartmentId.isNone then
    .error (.valueError ("compartment_id must be supplied explicitly when vcn is a VcnRef — " ++
      "VcnRef does not carry a compartment ID."))
  else if args.retentionDuration ∉ VALID_RETENTION then
    .error (.valueError ("retention_duration must be one of [30, 60, 90, 120, 150, 180], " ++
      s!"got {args.retentionDuration}"))
  else
    let namer : ResourceNamer := { stackName := args.stackName, resourceName := args.name }
    .ok {
      namer := namer
      compartmentId := args.compartmentId
      retentionDuration := args.retentionDuration
      logGroup := child namer .logGroup "network-audit"
      flowLog := fun tier =>
        (ref.subnet tier).map (flowLogOnRef namer args.retentionDuration tier) }

end VcnFlowLogs

/-! ## The groups of a program -/

/-- The groups a program has built, by name. -/
abbrev Groups := String → Option Nsg

namespace Groups

/-- The group a program calls by this name. -/
def lookup (name : String) : Py Groups Nsg := do
  let groups ← get
  match groups name with
  | none => throw (.nameError name)
  | some nsg => pure nsg

/-- Add a rule to the group of this name. -/
def addRuleTo (name : String) (decl : RuleDecl) : Py Groups Unit := do
  let nsg ← lookup name
  let nsg ← attempt (nsg.addRule decl)
  modify fun groups => Function.update groups name (some nsg)

/-- `name = Nsg(…)`, on a reference. -/
def buildNsg (cloud : Cloud) (args : NsgArgs) : Py Groups Unit := do
  let nsg ← attempt (Nsg.initOnRef cloud args)
  modify fun groups => Function.update groups args.name (some nsg)

/-- The body of `serves` where the groups are on a reference: their rules, and no others. -/
def relate (src tgt : String) (self target : Nsg) (port : ℤ) (withSsh : Bool) :
    Py Groups Unit := do
  let needsSsh := withSsh && target.acceptsSsh
  addRuleTo src (allowToNsg s!"out-{target.name}-{port}" target.nsg port)
  addRuleTo tgt (allowFromNsg s!"in-{self.name}-{port}" self.nsg port)
  if needsSsh then do
    addRuleTo src (allowToNsg s!"out-{target.name}-ssh" target.nsg SSH)
    addRuleTo tgt (allowFromNsg s!"in-{self.name}-ssh" self.nsg SSH)
  else pure ⟨⟩

/-- `src.serves(tgt, port, with_ssh=…)`, on a reference. -/
def serves (src tgt : String) (port : ℤ) (withSsh : Bool) : Py Groups Unit := do
  let self ← lookup src
  let target ← lookup tgt
  relate src tgt self target port withSsh

/-- The group given to a spell, where one is. -/
def resolve : Option String → Py Groups (Option Nsg)
  | none => pure none
  | some name => do
    let nsg ← lookup name
    pure (some nsg)

end Groups

/-- The group given to a spell, where one is. -/
def World.resolve : Option String → Py World (Option Nsg)
  | none => pure none
  | some name => do
    let nsg ← lookup name
    pure (some nsg)

/-! ## Programs -/

/-- A step that a program takes on a live VCN or on a reference. -/
inductive RefOp
  | nsg (args : NsgArgs)
  | serves (src tgt : String) (port : ℤ) (withSsh : Bool)
  | computeInstance (nsg : Option String) (args : ComputeArgs)
  | bastion (args : BastionArgs)
  | loadBalancer (args : LoadBalancerArgs)
  | internalLoadBalancer (args : LoadBalancerArgs)
  | scalableWorkload (args : ScalableWorkloadArgs)
  | okeCluster (args : OkeArgs)
  | flowLogs (args : FlowLogsArgs)
  | finalizeNetwork

/-- What a step made, apart from the groups. -/
inductive Made
  | done
  | computeInstance (made : ComputeInstance)
  | bastion (made : Bastion)
  | balancer (made : Balancer)
  | scalableWorkload (made : ScalableWorkload)
  | okeCluster (made : OkeCluster)
  | flowLogs (made : VcnFlowLogs)

/-- What a step on a reference made, apart from the groups. -/
inductive Made.OnRef
  | done
  | computeInstance (made : ComputeInstance.OnRef)
  | bastion (made : Bastion.OnRef)
  | balancer (made : Balancer.OnRef)
  | scalableWorkload (made : ScalableWorkload.OnRef)
  | okeCluster (made : OkeCluster.OnRef)
  | flowLogs (made : VcnFlowLogs.OnRef)

namespace RefOp

/-- Take the step on a live VCN. -/
def onLive : RefOp → Py World Made
  | nsg args => do
    World.buildNsg args
    pure .done
  | serves src tgt port withSsh => do
    World.serves src tgt port withSsh
    pure .done
  | computeInstance name args => do
    let nsg ← World.resolve name
    let made ← World.onVcn (ComputeInstance.init nsg args)
    pure (.computeInstance made)
  | bastion args => do
    let made ← World.onVcn (Bastion.init args)
    pure (.bastion made)
  | loadBalancer args => do
    let made ← World.onVcn (LoadBalancer.init args)
    pure (.balancer made)
  | internalLoadBalancer args => do
    let made ← World.onVcn (InternalLoadBalancer.init args)
    pure (.balancer made)
  | scalableWorkload args => do
    let made ← World.onVcn (ScalableWorkload.init args)
    pure (.scalableWorkload made)
  | okeCluster args => do
    let made ← World.onVcn (OkeCluster.init args)
    pure (.okeCluster made)
  | flowLogs args => do
    let made ← World.onVcn (VcnFlowLogs.init Vcn.finalizeNetwork args)
    pure (.flowLogs made)
  | finalizeNetwork => do
    World.onVcn Vcn.finalizeNetwork
    pure .done

/-- Take the step on a reference. -/
def onRef (cloud : Cloud) (ref : VcnRef) : RefOp → Py Groups Made.OnRef
  | nsg args => do
    Groups.buildNsg cloud args
    pure .done
  | serves src tgt port withSsh => do
    Groups.serves src tgt port withSsh
    pure .done
  | computeInstance name args => do
    let nsg ← Groups.resolve name
    let made ← attempt (ComputeInstance.initOnRef nsg args ref)
    pure (.computeInstance made)
  | bastion args => do
    let made ← attempt (Bastion.initOnRef args ref)
    pure (.bastion made)
  | loadBalancer args => do
    let made ← attempt (LoadBalancer.initOnRef args ref)
    pure (.balancer made)
  | internalLoadBalancer args => do
    let made ← attempt (InternalLoadBalancer.initOnRef args ref)
    pure (.balancer made)
  | scalableWorkload args => do
    let made ← attempt (ScalableWorkload.initOnRef args ref)
    pure (.scalableWorkload made)
  | okeCluster args => do
    let made ← attempt (OkeCluster.initOnRef cloud args ref)
    pure (.okeCluster made)
  | flowLogs args => do
    let made ← attempt (VcnFlowLogs.initOnRef args ref)
    pure (.flowLogs made)
  | finalizeNetwork => pure .done

/-- The step as one of a program on a live VCN, where it is one. -/
def toSpellOp : RefOp → Option SpellOp
  | nsg args => some (.nsg args)
  | serves src tgt port withSsh => some (.serves src tgt port withSsh)
  | computeInstance name args => some (.computeInstance name args)
  | bastion args => some (.bastion args)
  | loadBalancer args => some (.loadBalancer args)
  | internalLoadBalancer args => some (.internalLoadBalancer args)
  | scalableWorkload args => some (.scalableWorkload args)
  | okeCluster args => some (.okeCluster args)
  | flowLogs _ => none
  | finalizeNetwork => some .finalizeNetwork

/-- **A step of a program, and what it made**: on a live VCN the two models of a step do the
same. -/
theorem exec_eq {op : RefOp} {op' : SpellOp} (h : op.toSpellOp = some op') :
    op'.exec = op.onLive >>= fun _ => pure ⟨⟩ := by
  cases op with
  | computeInstance name args =>
    obtain rfl := Option.some.inj h
    cases name <;> simp [onLive, SpellOp.exec, World.resolve, World.build]
  | flowLogs args => cases h
  | _ =>
    obtain rfl := Option.some.inj h
    simp [onLive, SpellOp.exec, World.build]

end RefOp

/-! ## What a reference refuses -/

/-- A computation that raises no `RuntimeError`. -/
def NoRuntimeError {α : Type} (x : Except PyError α) : Prop :=
  ∀ message, x ≠ .error (.runtimeError message)

section NoRuntimeError

variable {α β : Type} {x y : Except PyError α}

theorem noRuntimeError_ok (a : α) : NoRuntimeError (.ok a) := fun _ h => by cases h

theorem noRuntimeError_valueError (message : String) :
    NoRuntimeError (.error (.valueError message) : Except PyError α) := fun _ h => by cases h

theorem noRuntimeError_ite {c : Prop} [Decidable c] (hx : NoRuntimeError x)
    (hy : NoRuntimeError y) : NoRuntimeError (if c then x else y) := by
  split
  · exact hx
  · exact hy

theorem NoRuntimeError.bind {k : α → Except PyError β} (hx : NoRuntimeError x)
    (hk : ∀ a, NoRuntimeError (k a)) : NoRuntimeError (x >>= k) := by
  cases x with
  | error e => exact fun message h => hx message (congrArg _ (Except.error.inj h))
  | ok a => exact hk a

/-- Inside a method it raises none either. -/
theorem NoRuntimeError.avoids {σ : Type} (hx : NoRuntimeError x) (message : String) :
    Avoids (.runtimeError message) (attempt x : Py σ α) := avoids_attempt (hx message)

theorem Nsg.noRuntimeError_addRules (decls : List RuleDecl) (nsg : Nsg) :
    NoRuntimeError (nsg.addRules decls) := by
  induction decls generalizing nsg with
  | nil => exact noRuntimeError_ok _
  | cons decl decls ih =>
    exact NoRuntimeError.bind
      (noRuntimeError_ite (noRuntimeError_valueError _) (noRuntimeError_ok _)) ih

theorem Nsg.noRuntimeError_initOnRef (cloud : Cloud) (args : NsgArgs) :
    NoRuntimeError (initOnRef cloud args) := by
  refine NoRuntimeError.bind
    (noRuntimeError_ite (noRuntimeError_valueError _) (noRuntimeError_ok _)) fun _ => ?_
  cases args.role with
  | none => exact noRuntimeError_ok _
  | some role => exact noRuntimeError_addRules _ _

theorem ComputeInstance.noRuntimeError_check (args : ComputeArgs) :
    NoRuntimeError (check args) :=
  noRuntimeError_ite (noRuntimeError_valueError _)
    (noRuntimeError_ite (noRuntimeError_valueError _) (noRuntimeError_ok _))

theorem Bastion.noRuntimeError_initOnRef (args : BastionArgs) (ref : VcnRef) :
    NoRuntimeError (initOnRef args ref) := by
  refine NoRuntimeError.bind ?_ fun _ => noRuntimeError_ok _
  rw [check]
  cases args.allowedClientCidrs with
  | none => exact noRuntimeError_valueError _
  | some cidrs => exact noRuntimeError_ok _

theorem LoadBalancerArgs.noRuntimeError_check (args : LoadBalancerArgs) :
    NoRuntimeError args.check :=
  noRuntimeError_ite (noRuntimeError_ok _) (noRuntimeError_valueError _)

theorem ScalableWorkload.noRuntimeError_initOnRef (args : ScalableWorkloadArgs) (ref : VcnRef) :
    NoRuntimeError (initOnRef args ref) := by
  refine NoRuntimeError.bind ?_ fun _ => ?_
  · rw [check]
    cases args.cloudInitScript with
    | none => exact noRuntimeError_ok _
    | some script =>
      cases script with
      | text s => exact noRuntimeError_ite (noRuntimeError_valueError _) (noRuntimeError_ok _)
      | bytes => exact noRuntimeError_ok _
  · have hsubnet : ∃ id,
        ref.getSubnetId (if args.loadBalancerConfig.isPublic then .pub else .priv) = .ok id := by
      split <;> exact ⟨_, rfl⟩
    obtain ⟨id, hid⟩ := hsubnet
    simp only [createLoadBalancerOnRef, hid]
    exact noRuntimeError_ok _

theorem VcnFlowLogs.noRuntimeError_initOnRef (args : FlowLogsArgs) (ref : VcnRef) :
    NoRuntimeError (initOnRef args ref) :=
  noRuntimeError_ite (noRuntimeError_valueError _)
    (noRuntimeError_ite (noRuntimeError_valueError _) (noRuntimeError_ok _))

end NoRuntimeError

theorem Groups.avoids_lookup (name message : String) :
    Avoids (.runtimeError message) (lookup name) := by
  refine avoids_get_bind fun groups => ?_
  cases groups name with
  | none => exact avoids_throw (by simp)
  | some nsg => exact avoids_pure nsg

theorem Groups.avoids_addRuleTo (name : String) (decl : RuleDecl) (message : String) :
    Avoids (.runtimeError message) (addRuleTo name decl) := by
  refine (avoids_lookup name message).bind fun nsg => ?_
  refine Avoids.bind (NoRuntimeError.avoids ?_ message) fun _ => avoids_modify _
  exact noRuntimeError_ite (noRuntimeError_valueError _) (noRuntimeError_ok _)

/-- On a reference a relationship adds rules to the groups and does nothing else. -/
theorem Groups.relate_eq (src tgt : String) (self target : Nsg) (port : ℤ) (withSsh : Bool) :
    relate src tgt self target port withSsh =
      each (fun a => addRuleTo a.1 a.2) (Nsg.relationDecls src tgt self target port withSsh) := by
  unfold relate Nsg.relationDecls
  cases withSsh && target.acceptsSsh <;> simp [each_cons]

theorem Groups.avoids_serves (src tgt : String) (port : ℤ) (withSsh : Bool) (message : String) :
    Avoids (.runtimeError message) (serves src tgt port withSsh) := by
  refine (avoids_lookup src message).bind fun self =>
    (avoids_lookup tgt message).bind fun target => ?_
  rw [relate_eq]
  exact avoids_each fun a _ => avoids_addRuleTo a.1 a.2 message

/-- The rules of a cluster are refused by name, all four lists of them. -/
theorem OkeCluster.initOnRef_eq (cloud : Cloud) (args : OkeArgs) (ref : VcnRef) :
    initOnRef cloud args ref = .error (.runtimeError (VcnRef.refusal
      ["public_ingress", "public_egress", "private_ingress", "private_egress"])) := rfl

/-- An instance is refused for a subnet that is not there, be it its own or not. -/
theorem ComputeInstance.initOnRef_eq_runtimeError (nsg : Option Nsg) {args : ComputeArgs}
    {ref : VcnRef} {message : String} :
    initOnRef nsg args ref = .error (.runtimeError message) ↔
      (∃ specs, check args = .ok specs) ∧
      ((ref.secureSubnet = none ∧
          message = s!"VCN {SubnetTier.sec.str} subnet must exist after finalize_network().") ∨
        (ref.secureSubnet.isSome ∧ ref.managementSubnet = none ∧
          message = s!"VCN {SubnetTier.mgmt.str} subnet must exist after finalize_network().")) :=
  by
  rw [initOnRef]
  cases hcheck : check args with
  | error e =>
    refine iff_of_false (fun h => ?_) fun h => by cases h.1.choose_spec
    rw [Except.error.inj h] at hcheck
    exact noRuntimeError_check args message hcheck
  | ok specs =>
    rw [ok_bind, createOnRef, assertSubnetsReadyOnRef]
    cases hsec : ref.secureSubnet with
    | none => simp [VcnRef.subnet, hsec, eq_comm]
    | some sec =>
      cases hmgmt : ref.managementSubnet with
      | none => simp [VcnRef.subnet, hsec, hmgmt, eq_comm]
      | some mgmt =>
        have hready : [SubnetTier.priv, .pub, .sec, .mgmt].find?
            (fun tier => (ref.subnet tier).isNone) = none := by
          simp [VcnRef.subnet, hsec, hmgmt]
        have hid : ∀ tier, ∃ id, ref.getSubnetId tier = .ok id := fun tier => by
          cases tier <;> simp [VcnRef.getSubnetId, hsec, hmgmt]
        obtain ⟨id, hid⟩ := hid (resolveSubnet nsg args.subnet)
        simp [hready, hid, pure, Except.pure]

/-- The group given to a spell is found where it was built. -/
theorem Groups.run_resolve_of_some {name : Option String} {groups : Groups}
    (h : ∀ g, name = some g → (groups g).isSome) :
    ∃ nsg, (resolve name).run groups = (.ok nsg, groups) := by
  cases name with
  | none => exact ⟨none, rfl⟩
  | some name =>
    obtain ⟨nsg, hnsg⟩ := Option.isSome_iff_exists.mp (h name rfl)
    refine ⟨some nsg, ?_⟩
    rw [resolve, lookup, bind_assoc, run_get_bind, hnsg]
    rfl

theorem Groups.run_resolve_of_none {name : Option String} {groups : Groups}
    (h : ¬ ∀ g, name = some g → (groups g).isSome) :
    ∃ g, (resolve name).run groups = (.error (.nameError g), groups) := by
  cases name with
  | none => exact absurd (fun g hg => by cases hg) h
  | some name =>
    refine ⟨name, ?_⟩
    have hnsg : groups name = none := by
      cases hnsg : groups name with
      | none => rfl
      | some nsg => exact absurd (fun g hg => by rw [← Option.some.inj hg, hnsg]; rfl) h
    rw [resolve, lookup, bind_assoc, run_get_bind, hnsg]
    rfl

/-- The steps a reference refuses, with the text of the refusal: a cluster always; an instance whose
arguments are accepted, where the reference has not all four subnets, whichever it is for. -/
def VcnRef.RefusesStep (ref : VcnRef) (groups : Groups) (message : String) : RefOp → Prop
  | .okeCluster _ => message =
      refusal ["public_ingress", "public_egress", "private_ingress", "private_egress"]
  | .computeInstance name args => (∀ g, name = some g → (groups g).isSome) ∧
      (∃ specs, ComputeInstance.check args = .ok specs) ∧
      ((ref.secureSubnet = none ∧
          message = s!"VCN {SubnetTier.sec.str} subnet must exist after finalize_network().") ∨
        (ref.secureSubnet.isSome ∧ ref.managementSubnet = none ∧
          message = s!"VCN {SubnetTier.mgmt.str} subnet must exist after finalize_network()."))
  | _ => False

/-- **What a reference refuses.**  A step on any reference raises a `RuntimeError` iff it is one of
these, with the text they name, and then it has built no group and changed none. -/
theorem RefOp.run_onRef_eq_runtimeError {cloud : Cloud} {ref : VcnRef} {op : RefOp}
    {groups groups' : Groups} {message : String} :
    (op.onRef cloud ref).run groups = (.error (.runtimeError message), groups') ↔
      groups' = groups ∧ ref.RefusesStep groups message op := by
  have hnever : ∀ {m : Py Groups Made.OnRef}, Avoids (.runtimeError message) m →
      (m.run groups = (.error (.runtimeError message), groups') ↔ groups' = groups ∧ False) :=
    fun hm => iff_of_false (fun h => hm groups (congrArg Prod.fst h)) fun h => h.2
  cases op with
  | nsg args =>
    refine hnever (Avoids.bind ?_ fun _ => avoids_pure _)
    exact (NoRuntimeError.avoids (Nsg.noRuntimeError_initOnRef cloud args) message).bind
      fun _ => avoids_modify _
  | serves src tgt port withSsh =>
    exact hnever ((Groups.avoids_serves src tgt port withSsh message).bind fun _ => avoids_pure _)
  | computeInstance name args =>
    by_cases hfound : ∀ g, name = some g → (groups g).isSome
    · obtain ⟨nsg, hnsg⟩ := Groups.run_resolve_of_some hfound
      have hrun : ∀ x : Except PyError ComputeInstance.OnRef,
          (attempt x >>= fun made => pure (Made.OnRef.computeInstance made)).run groups =
            (x.map .computeInstance, groups) := fun x => by
        cases x <;> rfl
      rw [onRef, run_bind_ok hnsg, hrun, Prod.mk.injEq, VcnRef.RefusesStep,
        ← ComputeInstance.initOnRef_eq_runtimeError nsg]
      cases ComputeInstance.initOnRef nsg args ref with
      | error e => exact ⟨fun h => ⟨h.2.symm, hfound, congrArg _ (Except.error.inj h.1)⟩,
          fun h => ⟨congrArg _ (Except.error.inj h.2.2), h.1.symm⟩⟩
      | ok made => exact iff_of_false (fun h => by cases h.1) fun h => by cases h.2.2
    · obtain ⟨g, hg⟩ := Groups.run_resolve_of_none hfound
      rw [onRef, run_bind_error hg]
      exact iff_of_false (by simp) fun h => hfound h.2.1
  | bastion args =>
    exact hnever (((Bastion.noRuntimeError_initOnRef args ref).avoids message).bind
      fun _ => avoids_pure _)
  | loadBalancer args =>
    refine hnever ((NoRuntimeError.avoids ?_ message).bind fun _ => avoids_pure _)
    exact args.noRuntimeError_check.bind fun _ => noRuntimeError_ok _
  | internalLoadBalancer args =>
    refine hnever ((NoRuntimeError.avoids ?_ message).bind fun _ => avoids_pure _)
    exact args.noRuntimeError_check.bind fun _ => noRuntimeError_ok _
  | scalableWorkload args =>
    exact hnever (((ScalableWorkload.noRuntimeError_initOnRef args ref).avoids message).bind
      fun _ => avoids_pure _)
  | okeCluster args =>
    rw [onRef, OkeCluster.initOnRef_eq, run_bind_error (run_attempt _ groups)]
    simp [VcnRef.RefusesStep, eq_comm, and_comm]
  | flowLogs args =>
    exact hnever (((VcnFlowLogs.noRuntimeError_initOnRef args ref).avoids message).bind
      fun _ => avoids_pure _)
  | finalizeNetwork => exact hnever (avoids_pure _)

end CloudSpells
