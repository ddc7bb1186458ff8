import CloudSpells.Network.Translate
import Mathlib.Data.Finset.Insert
import Mathlib.Logic.Function.Basic

/-!
# Network/Vcn — the VCN and its construction

`VcnBase` holds the attributes `Vcn.__init__` sets once: the CIDRs, the gateways, the four route
tables.  `Vcn` adds what later calls change — the eight rule lists, the finalised flag, the
fingerprints, the security lists and subnets once they exist — and the two logs by which the engine
sees the object: the resources it registered and the outputs it exported.
-/

namespace CloudSpells

open Machinery

/-! ## The resources a VCN owns -/

/-- `RouteTableRouteRuleArgs`; without a type the destination is a CIDR. -/
structure RouteRule where
  destination : String
  destinationType : Option PeerType := none
  networkEntityId : Resource
  deriving DecidableEq, Repr

/-- `oci.core.RouteTable`. -/
structure RouteTable where
  resource : Resource
  routeRules : List RouteRule
  deriving DecidableEq, Repr

/-- `oci.core.SecurityList`. -/
structure SecurityList where
  resource : Resource
  ingressSecurityRules : List SecurityListRule
  egressSecurityRules : List SecurityListRule
  deriving DecidableEq, Repr

/-- The rules of one direction. -/
def SecurityList.rules (sl : SecurityList) : Direction → List SecurityListRule
  | .ingress => sl.ingressSecurityRules
  | .egress => sl.egressSecurityRules

/-- `oci.core.Subnet`. -/
structure Subnet where
  resource : Resource
  cidrBlock : String
  securityListIds : List Resource
  routeTableId : Resource
  prohibitPublicIpOnVnic : Bool
  prohibitInternetIngress : Bool
  deriving DecidableEq, Repr

/-- `oci.logging.Log`, the flow log of one subnet. -/
structure Log where
  resource : Resource
  logGroupId : Resource
  subnetId : Resource
  retentionDuration : ℤ
  deriving DecidableEq, Repr

/-- `VcnFlowLogs`. -/
structure VcnFlowLogs where
  namer : ResourceNamer
  compartmentId : Option String
  retentionDuration : ℤ
  logGroup : Resource
  flowLog : SubnetTier → Option Log

/-! ## Attributes -/

/-- The arguments of `Vcn(…)`; the stack name is the resolved one. -/
structure VcnArgs where
  name : String
  stackName : String
  compartmentId : String
  cidrBlock : Option String := none
  flowLogs : Bool := false
  flowLogsRetention : ℤ := 90
  drg : Bool := false
  onPremiseCidrs : List String := []
  deriving DecidableEq, Repr

/-- The attributes set by `__init__` and never again. -/
structure VcnBase where
  namer : ResourceNamer
  compartmentId : Option String
  cidrBlock : String
  flowLogsEnabled : Bool
  flowLogsRetention : ℤ
  drgEnabled : Bool
  onPremiseCidrs : List String
  subnetCidrs : SubnetCidrs
  svcCidrBlock : String
  id : Resource
  drg : Option Resource
  drgAttachment : Option Resource
  routeTable : SubnetTier → RouteTable

/-- A child resource of a VCN. -/
def vcnChild (namer : ResourceNamer) (type : ResourceType) (suffix : String) : Resource where
  spell := "custom:network:Vcn"
  namer := namer
  type := type
  suffix := suffix

/-- A live `Vcn`. -/
structure Vcn extends VcnBase where
  /-- The eight lists `_public_ingress_rules`, …, `_management_egress_rules`. -/
  rules : RuleLists
  securityListsFinalized : Bool
  appliedAmbientRuleFingerprints : Finset String
  securityList : SubnetTier → Option SecurityList
  subnet : SubnetTier → Option Subnet
  flowLogs : Option VcnFlowLogs
  /-- The resources the object, or a component it built, asked the engine to register. -/
  registered : List Resource
  /-- The stack outputs exported. -/
  outputs : String → Option Input

/-! ## Construction -/

/-- The Service Gateway route of the three internal tiers. -/
def serviceRoute (namer : ResourceNamer) (svcCidrBlock : String) : RouteRule where
  destination := svcCidrBlock
  destinationType := some .serviceCidrBlock
  networkEntityId := vcnChild namer .serviceGateway "svcgw"

/-- One route to the Dynamic Routing Gateway for each on-premise CIDR, where there is a gateway. -/
def drgRoutes (drg : Option Resource) (onPremiseCidrs : List String) : List RouteRule :=
  match drg with
  | none => []
  | some drg => onPremiseCidrs.map fun cidr => { destination := cidr, networkEntityId := drg }

/-- `_create_route_tables`. -/
def createRouteTables (namer : ResourceNamer) (svcCidrBlock : String) (drg : Option Resource)
    (onPremiseCidrs : List String) : SubnetTier → RouteTable
  | .pub =>
    { resource := vcnChild namer .routeTable "rt-public"
      routeRules := [{ destination := "0.0.0.0/0",
                       networkEntityId := vcnChild namer .internetGateway "igw" }] }
  | .priv =>
    { resource := vcnChild namer .routeTable "rt-private"
      routeRules := [{ destination := "0.0.0.0/0",
                       networkEntityId := vcnChild namer .natGateway "natgw" },
                     serviceRoute namer svcCidrBlock] ++ drgRoutes drg onPremiseCidrs }
  | .sec =>
    { resource := vcnChild namer .routeTable "rt-secure"
      routeRules := serviceRoute namer svcCidrBlock :: drgRoutes drg onPremiseCidrs }
  | .mgmt =>
    { resource := vcnChild namer .routeTable "rt-management"
      routeRules := serviceRoute namer svcCidrBlock :: drgRoutes drg onPremiseCidrs }

/-- The attributes of `Vcn.__init__`; splitting the CIDR is the one step of it that may raise. -/
def VcnBase.init (cloud : Cloud) (args : VcnArgs) : Except PyError VcnBase := do
  let namer : ResourceNamer := { stackName := args.stackName, resourceName := args.name }
  let cidrBlock := strOr args.cidrBlock "10.0.0.0/18"
  let subnetCidrs ← splitTiers cidrBlock
  let drg := if args.drg then some (vcnChild namer .drg "drg") else none
  return {
    namer := namer
    compartmentId := some args.compartmentId
    cidrBlock := cidrBlock
    flowLogsEnabled := args.flowLogs
    flowLogsRetention := args.flowLogsRetention
    drgEnabled := args.drg
    onPremiseCidrs := args.onPremiseCidrs
    subnetCidrs := subnetCidrs
    svcCidrBlock := getSvcCidr cloud
    id := vcnChild namer .vcn "vcn"
    drg := drg
    drgAttachment := if args.drg then some (vcnChild namer .drgAttachment "drg-attach") else none
    routeTable := createRouteTables namer (getSvcCidr cloud) drg args.onPremiseCidrs }

/-- The ICMP rules `__init__` seeds the public ingress list with. -/
def seedRules (base : VcnBase) : RuleLists :=
  .single .pub .ingress
    [{ protocol := "1", peer := "0.0.0.0/0", peerType := .cidrBlock,
       description := "ICMP 3,4: Destination Unreachable / Fragmentation Needed",
       icmpOptions := some { type := 3, code := some 4 } },
     { protocol := "1", peer := base.cidrBlock, peerType := .cidrBlock,
       description := "ICMP traffic for: 3 Destination Unreachable",
       icmpOptions := some { type := 3 } }]

/-- The resources of `_create_vcn`, `_create_gateways` and `_create_route_tables`, in order. -/
def baseResources (base : VcnBase) : List Resource :=
  [vcnChild base.namer .vcn "vcn", vcnChild base.namer .defaultSecurityList "sl-default",
   vcnChild base.namer .internetGateway "igw", vcnChild base.namer .natGateway "natgw",
   vcnChild base.namer .serviceGateway "svcgw"] ++ base.drg.toList ++ base.drgAttachment.toList ++
  [.pub, .priv, .sec, .mgmt].map fun tier => (base.routeTable tier).resource

/-- The VCN as its constructor leaves it. -/
def VcnBase.fresh (base : VcnBase) : Vcn where
  toVcnBase := base
  rules := seedRules base
  securityListsFinalized := false
  appliedAmbientRuleFingerprints := ∅
  securityList := fun _ => none
  subnet := fun _ => none
  flowLogs := none
  registered := baseResources base
  outputs := fun _ => none

/-- `Vcn(…)`. -/
def Vcn.init (cloud : Cloud) (args : VcnArgs) : Except PyError Vcn := do
  let base ← VcnBase.init cloud args
  return base.fresh

/-! ## What construction guarantees -/

/-- The facts about a VCN's attributes that the rest of the development uses: they hold of every
VCN that was constructed, and no method changes them. -/
structure VcnBase.Built (cloud : Cloud) (base : VcnBase) : Prop where
  splitTiers_eq : splitTiers base.cidrBlock = .ok base.subnetCidrs
  svcCidrBlock_eq : base.svcCidrBlock = getSvcCidr cloud
  drg_eq : base.drg = if base.drgEnabled then some (vcnChild base.namer .drg "drg") else none
  drgAttachment_eq : base.drgAttachment =
    if base.drgEnabled then some (vcnChild base.namer .drgAttachment "drg-attach") else none
  routeTable_eq :
    base.routeTable = createRouteTables base.namer base.svcCidrBlock base.drg base.onPremiseCidrs

/-- **Every constructed VCN is built**, and starts as `VcnBase.fresh` says. -/
theorem built_of_init {cloud : Cloud} {args : VcnArgs} {vcn : Vcn}
    (h : Vcn.init cloud args = .ok vcn) :
    VcnBase.Built cloud vcn.toVcnBase ∧ vcn = vcn.toVcnBase.fresh := by
  cases hsplit : splitTiers (strOr args.cidrBlock "10.0.0.0/18") with
  | error e =>
    simp only [Vcn.init, VcnBase.init, hsplit, error_bind] at h
    cases h
  | ok cidrs =>
    simp only [Vcn.init, VcnBase.init, hsplit, ok_bind] at h
    obtain rfl := Except.ok.inj h
    exact ⟨⟨hsplit, rfl, rfl, rfl, rfl⟩, rfl⟩

/-- A new VCN is open… -/
theorem open_of_init {cloud : Cloud} {args : VcnArgs} {vcn : Vcn}
    (h : Vcn.init cloud args = .ok vcn) : vcn.securityListsFinalized = false := by
  rw [(built_of_init h).2]
  rfl

/-- …has used no fingerprint… -/
theorem fingerprints_of_init {cloud : Cloud} {args : VcnArgs} {vcn : Vcn}
    (h : Vcn.init cloud args = .ok vcn) : vcn.appliedAmbientRuleFingerprints = ∅ := by
  rw [(built_of_init h).2]
  rfl

/-- …and has the rules of its constructor, in no security list yet. -/
theorem rules_of_init {cloud : Cloud} {args : VcnArgs} {vcn : Vcn}
    (h : Vcn.init cloud args = .ok vcn) :
    vcn.rules = seedRules vcn.toVcnBase ∧ ∀ t, vcn.securityList t = none := by
  have hfresh := (built_of_init h).2
  exact ⟨congrArg Vcn.rules hfresh, congrFun (congrArg Vcn.securityList hfresh)⟩

namespace VcnBase.Built

variable {cloud : Cloud} {base : VcnBase}

/-- `get_*_subnet_cidr` is never the internet. -/
theorem ofTier_ne (h : base.Built cloud) (t : SubnetTier) :
    base.subnetCidrs.ofTier t ≠ "0.0.0.0/0" := ofTier_ne_internet h.splitTiers_eq t

theorem ofTier_injective (h : base.Built cloud) : Function.Injective base.subnetCidrs.ofTier :=
  CloudSpells.ofTier_injective h.splitTiers_eq

/-- The service label is never the internet, nor a symbolic peer. -/
theorem svcCidrBlock_ne (h : base.Built cloud) : base.svcCidrBlock ≠ "0.0.0.0/0" := by
  rw [h.svcCidrBlock_eq]
  exact getSvcCidr_ne cloud (by decide)

end VcnBase.Built

/-! ## A VCN with the default arguments -/

/-- A region that offers the "All Services" bundle and nothing else. -/
def bundleCloud : Cloud where
  services :=
    [{ id := "ocid1.service.all", cidrBlock := "all-iad-services-in-oracle-services-network" }]
  hasAllServices := by decide
  serviceNetwork := fun _ _ => true
  inhabited := fun _ _ => ⟨0, rfl⟩

/-- The arguments `Vcn(name=…, compartment_id=…)` leaves at their defaults. -/
def defaultArgs : VcnArgs where
  name := "net"
  stackName := "dev"
  compartmentId := "ocid1.compartment"

/-- The attributes of the VCN these arguments make. -/
def defaultBase : VcnBase where
  namer := { stackName := "dev", resourceName := "net" }
  compartmentId := some "ocid1.compartment"
  cidrBlock := "10.0.0.0/18"
  flowLogsEnabled := false
  flowLogsRetention := 90
  drgEnabled := false
  onPremiseCidrs := []
  subnetCidrs :=
    { pub := "10.0.48.0/21", priv := "10.0.0.0/19", sec := "10.0.32.0/20", mgmt := "10.0.56.0/21" }
  svcCidrBlock := getSvcCidr bundleCloud
  id := vcnChild { stackName := "dev", resourceName := "net" } .vcn "vcn"
  drg := none
  drgAttachment := none
  routeTable := createRouteTables { stackName := "dev", resourceName := "net" }
    (getSvcCidr bundleCloud) none []

theorem splitTiers_default : splitTiers "10.0.0.0/18" = .ok defaultBase.subnetCidrs := by
  decide

theorem init_default : Vcn.init bundleCloud defaultArgs = .ok defaultBase.fresh := by
  have hcidr : strOr defaultArgs.cidrBlock "10.0.0.0/18" = "10.0.0.0/18" := rfl
  rw [Vcn.init, VcnBase.init, hcidr, splitTiers_default]
  rfl

end CloudSpells
