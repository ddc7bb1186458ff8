import CloudSpells.Spells.LoadBalancer

/-!
# Spells/Autoscale — a pool of instances behind a balancer

A `ScalableWorkload` puts its pool in the private tier and a balancer in front of it, public or
internal by its configuration.  The public variant opens the internet ports under the fingerprints
an internet-facing `Nsg` uses; the internal one opens its ports to the VCN without a fingerprint.
-/

namespace CloudSpells

open Machinery Machinery.Exec

/-- `OciLoadBalancerConfig`, what the workload reads of it. -/
structure LoadBalancerConfig where
  backendPort : ℤ := 80
  isPublic : Bool := true
  sslCertificateName : Option String := none
  deriving DecidableEq, Repr

/-- A cloud-init script: text, or bytes, which are not looked at. -/
inductive CloudInitScript
  | text (s : String)
  | bytes
  deriving DecidableEq, Repr

/-- The arguments of `ScalableWorkload(…)` besides the VCN. -/
structure ScalableWorkloadArgs where
  name : String
  stackName : String
  cloudInitScript : Option CloudInitScript := none
  loadBalancerConfig : LoadBalancerConfig := {}
  deriving DecidableEq, Repr

/-- `ScalableWorkload`. -/
structure ScalableWorkload where
  namer : ResourceNamer
  balancer : Balancer
  instanceConfiguration : Resource
  instancePool : Resource
  poolSubnetId : Resource
  poolPort : ℤ
  deriving DecidableEq, Repr

namespace ScalableWorkload

/-- A child resource of a `ScalableWorkload`. -/
def child (namer : ResourceNamer) (type : ResourceType) (suffix : String) : Resource where
  spell := "custom:compute:ScalableWorkload"
  namer := namer
  type := type
  suffix := suffix

/-- The check that a script starts with a shebang. -/
def check (args : ScalableWorkloadArgs) : Except PyError Unit :=
  match args.cloudInitScript with
  | some (.text s) =>
    if s ≠ "" ∧ startsWith "#!" s = false then
      .error (.valueError "cloud_init_script must start with a shebang line (e.g. '#!/bin/bash')")
    else .ok ⟨⟩
  | some .bytes | none => .ok ⟨⟩

/-- The calls of `_add_scalable_workload_security_rules`. -/
def ruleCalls (base : VcnBase) (config : LoadBalancerConfig) : List RuleCall :=
  let backendPort := config.backendPort
  if config.isPublic then
    [.unique "public-ingress-tcp-80"
        (.tcp .pub .ingress 80 "0.0.0.0/0" "HTTP traffic from internet to load balancer"),
     .unique "public-ingress-tcp-443"
        (.tcp .pub .ingress 443 "0.0.0.0/0" "HTTPS traffic from internet to load balancer"),
     .plain (RuleLists.extend
        (.tcp .pub .egress backendPort (base.subnetCidrs.ofTier .priv)
          s!"Load balancer forwards traffic to backend instances on port {backendPort}")
        (.tcp .priv .ingress backendPort (base.subnetCidrs.ofTier .pub)
          s!"Traffic from load balancer to application on port {backendPort}"))]
  else
    [.plain (.single .priv .ingress
      [.tcp 80 base.cidrBlock "HTTP traffic from VCN to internal load balancer",
       .tcp 443 base.cidrBlock "HTTPS traffic from VCN to internal load balancer",
       .tcp backendPort base.cidrBlock s!"Traffic from VCN to application on port {backendPort}"])]

/-- `_create_load_balancer`. -/
def createLoadBalancer (namer : ResourceNamer) (config : LoadBalancerConfig) (v : Vcn) :
    Except PyError Balancer := do
  let subnetId ← v.getSubnetId (if config.isPublic then .pub else .priv)
  let https : List Listener := match config.sslCertificateName with
    | none => []
    | some certificate =>
      if certificate = "" then []
      else
        [{ resource := child namer .listener "listener-https", port := 443, protocol := "HTTPS" }]
  return {
    loadBalancer := child namer .loadBalancer "lb"
    subnetId := subnetId
    isPrivate := !config.isPublic
    backendSet := child namer .backendSet "bs"
    healthCheckPort := config.backendPort
    redirectRuleSet := none
    listeners :=
      { resource := child namer .listener "listener-http", port := 80, protocol := "HTTP" } ::
        https }

/-- The balancer, and the pool behind it. -/
def create (args : ScalableWorkloadArgs) (v : Vcn) : Except PyError ScalableWorkload := do
  let namer : ResourceNamer := { stackName := args.stackName, resourceName := args.name }
  let _ ← v.getSubnetId .pub
  let poolSubnetId ← v.getSubnetId .priv
  let balancer ← createLoadBalancer namer args.loadBalancerConfig v
  return {
    namer := namer
    balancer := balancer
    instanceConfiguration := child namer .instanceConfiguration "ic"
    instancePool := child namer .instancePool "pool"
    poolSubnetId := poolSubnetId
    poolPort := args.loadBalancerConfig.backendPort }

/-- `ScalableWorkload(…)`. -/
def init (args : ScalableWorkloadArgs) : Py Vcn ScalableWorkload :=
  construct (check args)
    (fun _ => do
      let v ← get
      register (ruleCalls v.toVcnBase args.loadBalancerConfig))
    (fun _ => create args)

end ScalableWorkload

end CloudSpells
