import CloudSpells.Network.Builder

/-!
# Network/Finalize — creating the security lists and the subnets

`finalizeNetwork` adds the baseline rules, creates the four security lists from the rules
accumulated so far and the four subnets, sets the flag and, where flow logs are enabled, builds a
`VcnFlowLogs`, whose constructor calls `finalizeNetwork` again.

The recursion is by call depth; since the nested call finds the flag set, any depth of two or more
does the same (`finalizeNetworkAt_eq`).
-/

namespace CloudSpells

open Machinery Machinery.Exec

/-- The tiers in the order their resources are created. -/
def tiersInOrder : List SubnetTier := [.pub, .priv, .sec, .mgmt]

/-- An attribute a method set, or `AttributeError` where it has not been set yet. -/
def getAttr {α : Type} (name : String) : Option α → Except PyError α
  | some a => .ok a
  | none => .error (.attributeError s!"'Vcn' object has no attribute '{name}'")

namespace Vcn

/-! ## Security lists and subnets -/

/-- The baseline rules of `_inject_baseline_rules`. -/
def baselineRules (base : VcnBase) : RuleLists
  | .priv, .egress =>
    [.all "0.0.0.0/0" .cidrBlock "Egress to internet via NAT Gateway",
     .all base.svcCidrBlock .serviceCidrBlock "Egress to OCI services via Service Gateway"]
  | .sec, .egress | .mgmt, .egress =>
    [.all base.svcCidrBlock .serviceCidrBlock "Egress to OCI services via Service Gateway"]
  | _, _ => []

/-- `_inject_baseline_rules`. -/
def injectBaselineRules : Py Vcn Unit := do
  let v ← get
  addSecurityListRules (baselineRules v.toVcnBase)

/-- The security list of a tier, made of the rules accumulated. -/
def newSecurityList (base : VcnBase) (rules : RuleLists) (tier : SubnetTier) : SecurityList where
  resource := vcnChild base.namer .securityList s!"sl-{tier.str}"
  ingressSecurityRules := rules tier .ingress
  egressSecurityRules := rules tier .egress

/-- `_create_security_lists`, one tier of it. -/
def createSecurityList (tier : SubnetTier) : Py Vcn Unit :=
  modify fun v =>
    let sl := newSecurityList v.toVcnBase v.rules tier
    { v with
      securityList := Function.update v.securityList tier (some sl)
      registered := v.registered ++ [sl.resource] }

/-- `_create_security_lists`. -/
def createSecurityLists : Py Vcn Unit := each createSecurityList tiersInOrder

/-- `_create_subnet`. -/
def newSubnet (base : VcnBase) (securityList : SecurityList) (tier : SubnetTier) : Subnet where
  resource := vcnChild base.namer .subnet s!"sn-{tier.str}"
  cidrBlock := base.subnetCidrs.ofTier tier
  securityListIds := [securityList.resource]
  routeTableId := (base.routeTable tier).resource
  prohibitPublicIpOnVnic := tier ≠ .pub
  prohibitInternetIngress := tier ≠ .pub

/-- `_create_subnets`, one tier of it. -/
def createSubnet (tier : SubnetTier) : Py Vcn Unit := do
  let v ← get
  let sl ← attempt (getAttr s!"{tier.str}_security_list" (v.securityList tier))
  modify fun v =>
    let subnet := newSubnet v.toVcnBase sl tier
    { v with
      subnet := Function.update v.subnet tier (some subnet)
      registered := v.registered ++ [subnet.resource] }

/-- `_create_subnets`. -/
def createSubnets : Py Vcn Unit := each createSubnet tiersInOrder

/-- The four assertions that close `finalize_network`. -/
def assertSubnets : Py Vcn Unit := do
  let v ← get
  if ∀ t, (v.subnet t).isSome then pure ⟨⟩ else throw .assertionError

end Vcn

/-! ## Flow logs -/

/-- `_VALID_RETENTION`. -/
def VALID_RETENTION : List ℤ := [30, 60, 90, 120, 150, 180]

/-- The arguments of `VcnFlowLogs(…)` besides the VCN. -/
structure FlowLogsArgs where
  name : String
  stackName : String
  compartmentId : Option String := none
  retentionDuration : ℤ := 90
  deriving DecidableEq, Repr

namespace VcnFlowLogs

/-- A child resource of a `VcnFlowLogs`. -/
def child (namer : ResourceNamer) (type : ResourceType) (suffix : String) : Resource where
  spell := "custom:network:VcnFlowLogs"
  namer := namer
  type := type
  suffix := suffix

/-- `_flow_log`, for the subnet of a tier. -/
def flowLogOf (namer : ResourceNamer) (retentionDuration : ℤ) (tier : SubnetTier)
    (subnet : Subnet) : Log where
  resource := child namer .log s!"flow-log-{tier.str}"
  logGroupId := child namer .logGroup "network-audit"
  subnetId := subnet.resource
  retentionDuration := retentionDuration

/-- `_create_flow_logs`, after the network is finalised: the public and the private subnet must
exist, the other two get a log where they do. -/
def createFlowLogs (namer : ResourceNamer) (retentionDuration : ℤ) :
    Py Vcn (SubnetTier → Option Log) := do
  let v ← get
  let log := fun tier => (v.subnet tier).map (flowLogOf namer retentionDuration tier)
  if (v.subnet .pub).isNone then
    throw (.runtimeError "public_subnet must exist after finalize_network()")
  else if (v.subnet .priv).isNone then
    throw (.runtimeError "private_subnet must exist after finalize_network()")
  else do
    modify fun v =>
      { v with registered := v.registered ++ (tiersInOrder.filterMap log).map (·.resource) }
    pure log

/-- `VcnFlowLogs(…)` on a live VCN; `finalize` is the VCN's `finalize_network`. -/
def init (finalize : Py Vcn Unit) (args : FlowLogsArgs) : Py Vcn VcnFlowLogs := do
  let v ← get
  if args.retentionDuration ∉ VALID_RETENTION then
    throw (.valueError
      ("retention_duration must be one of [30, 60, 90, 120, 150, 180], " ++
        s!"got {args.retentionDuration}"))
  else do
    let namer : ResourceNamer := { stackName := args.stackName, resourceName := args.name }
    let logGroup := child namer .logGroup "network-audit"
    modify fun v => { v with registered := v.registered ++ [logGroup] }
    finalize
    let flowLog ← createFlowLogs namer args.retentionDuration
    pure {
      namer := namer
      compartmentId := args.compartmentId.or v.compartmentId
      retentionDuration := args.retentionDuration
      logGroup := logGroup
      flowLog := flowLog }

end VcnFlowLogs

/-! ## Finalisation -/

namespace Vcn

/-- The arguments `finalize_network` builds its own `VcnFlowLogs` with. -/
def ownFlowLogsArgs (base : VcnBase) (compartmentId : String) : FlowLogsArgs where
  name := base.namer.resourceName
  stackName := base.namer.stackName
  compartmentId := some compartmentId
  retentionDuration := base.flowLogsRetention

/-- The flow logs of `finalize_network`, where they are enabled. -/
def createOwnFlowLogs (nested : Py Vcn Unit) : Py Vcn Unit := do
  let v ← get
  if v.flowLogsEnabled then
    match v.compartmentId with
    | none => throw (.runtimeError "Vcn requires a compartment_id")
    | some compartmentId => do
      let flowLogs ← VcnFlowLogs.init nested (ownFlowLogsArgs v.toVcnBase compartmentId)
      modify fun v => { v with flowLogs := some flowLogs }
  else
    pure ⟨⟩

/-- The body of `finalize_network`; `nested` is the call its flow logs make. -/
def finalizeBody (nested : Py Vcn Unit) : Py Vcn Unit := do
  let v ← get
  if v.securityListsFinalized then
    pure ⟨⟩
  else do
    injectBaselineRules
    createSecurityLists
    createSubnets
    modify fun v => { v with securityListsFinalized := true }
    createOwnFlowLogs nested
    assertSubnets

/-- `finalize_network`, with room for `depth` nested calls. -/
def finalizeNetworkAt : ℕ → Py Vcn Unit
  | 0 => throw .recursionError
  | depth + 1 => finalizeBody (finalizeNetworkAt depth)

/-- The interpreter's limit on nested calls. -/
def recursionLimit : ℕ := 1000

/-- `finalize_network`. -/
def finalizeNetwork : Py Vcn Unit := finalizeNetworkAt recursionLimit

/-- `pulumi.export`. -/
def pulumiExport (key : String) (value : Input) : Py Vcn Unit :=
  modify fun v => { v with outputs := Function.update v.outputs key (some value) }

/-- One of the checks of `export`. -/
def requireSubnet (tier : SubnetTier) : Py Vcn Subnet := do
  let v ← get
  match v.subnet tier with
  | none =>
    throw (.runtimeError s!"finalize_network() failed to create the {tier.str} subnet")
  | some subnet => pure subnet

/-- `{tier}_security_list`. -/
def getSecurityList (tier : SubnetTier) : Py Vcn SecurityList := do
  let v ← get
  attempt (getAttr s!"{tier.str}_security_list" (v.securityList tier))

/-- The outputs of the Dynamic Routing Gateway, where there is one. -/
def exportDrg : Py Vcn Unit := do
  let v ← get
  match v.drg, v.drgAttachment with
  | some drg, some attachment => do
    pulumiExport "drg_id" (.id drg)
    pulumiExport "drg_attachment_id" (.id attachment)
  | _, _ => pure ⟨⟩

/-- The output of the flow logs, where they were built. -/
def exportFlowLogs : Py Vcn Unit := do
  let v ← get
  match v.flowLogs with
  | some flowLogs => pulumiExport "network_audit_log_group_id" (.id flowLogs.logGroup)
  | none => pure ⟨⟩

/-- `export`. -/
def exportOutputs : Py Vcn Unit := do
  finalizeNetwork
  let pub ← requireSubnet .pub
  let priv ← requireSubnet .priv
  let sec ← requireSubnet .sec
  let mgmt ← requireSubnet .mgmt
  let v ← get
  pulumiExport "vcn_id" (.id v.id)
  pulumiExport "cidr_block" (.str v.cidrBlock)
  pulumiExport "public_subnet_id" (.id pub.resource)
  pulumiExport "private_subnet_id" (.id priv.resource)
  pulumiExport "secure_subnet_id" (.id sec.resource)
  pulumiExport "public_subnet_cidr" (.str v.subnetCidrs.pub)
  pulumiExport "private_subnet_cidr" (.str v.subnetCidrs.priv)
  pulumiExport "secure_subnet_cidr" (.str v.subnetCidrs.sec)
  pulumiExport "public_security_list_id" (.id (← getSecurityList .pub).resource)
  pulumiExport "private_security_list_id" (.id (← getSecurityList .priv).resource)
  pulumiExport "secure_security_list_id" (.id (← getSecurityList .sec).resource)
  pulumiExport "management_subnet_id" (.id mgmt.resource)
  pulumiExport "management_subnet_cidr" (.str v.subnetCidrs.mgmt)
  pulumiExport "management_security_list_id" (.id (← getSecurityList .mgmt).resource)
  exportDrg
  exportFlowLogs

end Vcn

end CloudSpells
