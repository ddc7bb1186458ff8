import CloudSpells.Spells.Construct

/-!
# Spells/LoadBalancer — public and internal load balancers

Both check their backend port, open the ports of their listeners to their clients and let the
balancer reach the backends, which are in the private tier.  The public one also lets the backends
accept what it sends; the internal one does not.
-/

namespace CloudSpells

open Machinery Machinery.Exec

/-- `oci.loadbalancer.Listener`. -/
structure Listener where
  resource : Resource
  port : ℤ
  protocol : String
  deriving DecidableEq, Repr

/-- A balancer with its backend set, its rule set and its listeners. -/
structure Balancer where
  loadBalancer : Resource
  subnetId : Resource
  isPrivate : Bool
  backendSet : Resource
  healthCheckPort : ℤ
  redirectRuleSet : Option Resource
  listeners : List Listener
  deriving DecidableEq, Repr

/-- The arguments of `LoadBalancer(…)` and `InternalLoadBalancer(…)` besides the VCN. -/
structure LoadBalancerArgs where
  name : String
  stackName : String
  backendPort : ℤ := 80
  deriving DecidableEq, Repr

namespace LoadBalancerArgs

/-- The namer of the balancer. -/
def namer (args : LoadBalancerArgs) : ResourceNamer :=
  { stackName := args.stackName, resourceName := args.name }

/-- The check of `backend_port`. -/
def check (args : LoadBalancerArgs) : Except PyError ℤ :=
  if 1 ≤ args.backendPort ∧ args.backendPort ≤ 65535 then .ok args.backendPort
  else .error (.valueError s!"backend_port ({args.backendPort}) must be in the range 1-65535")

end LoadBalancerArgs

/-- A rule to or from a CIDR on one port, in one list. -/
def RuleLists.tcp (tier : SubnetTier) (dir : Direction) (port : ℤ) (peer description : String) :
    RuleLists := .single tier dir [.tcp port peer description]

namespace LoadBalancer

/-- A child resource of a `LoadBalancer`. -/
def child (namer : ResourceNamer) (type : ResourceType) (suffix : String) : Resource where
  spell := "custom:loadbalancer:LoadBalancer"
  namer := namer
  type := type
  suffix := suffix

/-- The calls of `_add_security_rules`. -/
def ruleCalls (base : VcnBase) (backendPort : ℤ) : List RuleCall :=
  [.unique "lb-public-ingress-tcp-80"
      (.tcp .pub .ingress 80 "0.0.0.0/0" "HTTP traffic from internet to load balancer"),
   .unique "lb-public-ingress-tcp-443"
      (.tcp .pub .ingress 443 "0.0.0.0/0" "HTTPS traffic from internet to load balancer"),
   .plain (RuleLists.extend
      (.tcp .pub .egress backendPort (base.subnetCidrs.ofTier .priv)
        s!"Load balancer forwards traffic to backend instances on port {backendPort}")
      (.tcp .priv .ingress backendPort (base.subnetCidrs.ofTier .pub)
        s!"Traffic from load balancer to backend instances on port {backendPort}"))]

/-- The balancer in the public subnet, and its two listeners. -/
def create (args : LoadBalancerArgs) (backendPort : ℤ) (v : Vcn) : Except PyError Balancer := do
  let subnetId ← v.getSubnetId .pub
  return {
    loadBalancer := child args.namer .loadBalancer "lb"
    subnetId := subnetId
    isPrivate := false
    backendSet := child args.namer .backendSet "bs"
    healthCheckPort := backendPort
    redirectRuleSet := some (child args.namer .ruleSet "rs-redirect")
    listeners :=
      [{ resource := child args.namer .listener "listener-https", port := 443,
         protocol := "HTTPS" },
       { resource := child args.namer .listener "listener-http", port := 80, protocol := "HTTP" }] }

/-- `LoadBalancer(…)`. -/
def init (args : LoadBalancerArgs) : Py Vcn Balancer :=
  construct args.check
    (fun backendPort => do
      let v ← get
      register (ruleCalls v.toVcnBase backendPort))
    (create args)

end LoadBalancer

namespace InternalLoadBalancer

/-- A child resource of an `InternalLoadBalancer`. -/
def child (namer : ResourceNamer) (type : ResourceType) (suffix : String) : Resource where
  spell := "custom:loadbalancer:InternalLoadBalancer"
  namer := namer
  type := type
  suffix := suffix

/-- The calls of `_add_security_rules`. -/
def ruleCalls (base : VcnBase) (backendPort : ℤ) : List RuleCall :=
  [.unique "lb-private-ingress-tcp-80"
      (.tcp .priv .ingress 80 base.cidrBlock
        "HTTP traffic to internal load balancer from VCN-internal sources only"),
   .plain (.tcp .priv .egress backendPort (base.subnetCidrs.ofTier .priv)
      s!"Internal load balancer forwards traffic to backend instances on port {backendPort}")]

/-- The balancer in the private subnet, and its listener. -/
def create (args : LoadBalancerArgs) (backendPort : ℤ) (v : Vcn) : Except PyError Balancer := do
  let subnetId ← v.getSubnetId .priv
  return {
    loadBalancer := child args.namer .loadBalancer "lb"
    subnetId := subnetId
    isPrivate := true
    backendSet := child args.namer .backendSet "bs"
    healthCheckPort := backendPort
    redirectRuleSet := none
    listeners :=
      [{ resource := child args.namer .listener "listener-http", port := 80, protocol := "HTTP" }] }

/-- `InternalLoadBalancer(…)`. -/
def init (args : LoadBalancerArgs) : Py Vcn Balancer :=
  construct args.check
    (fun backendPort => do
      let v ← get
      register (ruleCalls v.toVcnBase backendPort))
    (create args)

end InternalLoadBalancer

end CloudSpells
