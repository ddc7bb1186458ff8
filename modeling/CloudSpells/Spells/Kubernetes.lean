import CloudSpells.Spells.Construct

/-!
# Spells/Kubernetes — an OKE cluster

An `OkeCluster` puts its API endpoint and its balancers in the public tier and its workers and pods
in the private one; all its security-list rules go into one call.  Its node pools and the rules that
admit `kubectl` clients are numbered from one, and are aliases of the names they had before: the
pools under their own names, the rules under a number counted from zero.
-/

namespace CloudSpells

open Machinery Machinery.Exec

/-- The arguments of `OkeCluster(…)` besides the VCN; of a `NodePoolConfig`, its name. -/
structure OkeArgs where
  name : String
  stackName : String
  nodePools : List String
  kubectlAllowedCidrs : Option (List String) := none
  deriving DecidableEq, Repr

/-- `OkeCluster`; of the rules of its four groups, their names. -/
structure OkeCluster where
  namer : ResourceNamer
  cluster : Resource
  apiNsg : Resource
  nsgRules : List Resource
  nodePools : List Resource
  publicSubnetId : Resource
  privateSubnetId : Resource
  deriving DecidableEq, Repr

namespace OkeCluster

/-- A child resource of a cluster. -/
def child (namer : ResourceNamer) (type : ResourceType) (suffix : String)
    (aliases : List String) : Resource where
  spell := "custom:oke:Cluster"
  namer := namer
  type := type
  suffix := suffix
  aliases := aliases

/-- A TCP rule on a range of ports. -/
def tcpRange (min max : ℤ) (peer description : String) : SecurityListRule where
  protocol := "6"
  peer := peer
  peerType := .cidrBlock
  tcpOptions := some { min := min, max := max }
  description := description

/-- A TCP rule to the services, on any port. -/
def tcpServices (svcCidrBlock description : String) : SecurityListRule where
  protocol := "6"
  peer := svcCidrBlock
  peerType := .serviceCidrBlock
  description := description

/-- `public_ingress_rules`. -/
def publicIngress (base : VcnBase) (kubectlCidrs : List String) : List SecurityListRule :=
  let privateCidr := base.subnetCidrs.ofTier .priv
  [.tcp 6443 privateCidr ("Workers and pods communicate with Kubernetes API server for cluster " ++
      "operations and service discovery"),
   .tcp 12250 privateCidr ("Workers and pods communicate with Kubernetes control plane for " ++
      "internal cluster operations"),
   .tcp 443 "0.0.0.0/0" ("Load Balancer receives HTTPS traffic from internet for public web " ++
      "applications and APIs"),
   .tcp 80 "0.0.0.0/0" ("Load Balancer receives HTTP traffic from internet for public " ++
      "applications (consider HTTPS redirect)")] ++
  kubectlCidrs.map fun cidr => .tcp 6443 cidr s!"Allow kubectl access to Kubernetes API from {cidr}"

/-- `public_egress_rules`. -/
def publicEgress (base : VcnBase) : List SecurityListRule :=
  let privateCidr := base.subnetCidrs.ofTier .priv
  [tcpServices base.svcCidrBlock ("Control plane communicates with OCI services for cluster " ++
      "management and telemetry"),
   .tcp 10250 privateCidr ("Control plane manages worker nodes via kubelet for pod operations " ++
      "and health monitoring"),
   tcpRange 30000 32767 privateCidr ("Load Balancer forwards traffic to worker nodes via " ++
      "NodePort for Kubernetes service routing"),
   .tcp 10256 privateCidr ("Load Balancer checks worker node health via kube-proxy to ensure " ++
      "traffic routing availability"),
   .all privateCidr .cidrBlock ("Control plane reaches pods on arbitrary ports for webhooks, " ++
      "admission controllers, and metrics")]

/-- `private_ingress_rules`. -/
def privateIngress (base : VcnBase) : List SecurityListRule :=
  let publicCidr := base.subnetCidrs.ofTier .pub
  [.tcp 10250 publicCidr ("Control plane manages pods on worker nodes via kubelet for commands, " ++
      "logs, and health monitoring"),
   tcpRange 30000 32767 publicCidr ("Load Balancer forwards traffic to worker nodes via " ++
      "NodePort to reach Kubernetes services"),
   .tcp 10256 publicCidr ("Load Balancer verifies worker node health via kube-proxy endpoint " ++
      "before routing traffic"),
   .all publicCidr .cidrBlock ("Control plane reaches pods on arbitrary ports for webhooks and " ++
      "admission controllers")]

/-- `private_egress_rules`. -/
def privateEgress (base : VcnBase) : List SecurityListRule :=
  let publicCidr := base.subnetCidrs.ofTier .pub
  [tcpServices base.svcCidrBlock ("Workers and pods communicate with OCI services for container " ++
      "images, logging, and monitoring"),
   .tcp 6443 publicCidr ("Workers and pods communicate with Kubernetes API to register, report " ++
      "status, and access resources"),
   .tcp 12250 publicCidr ("Workers and pods communicate with control plane for internal cluster " ++
      "operations"),
   .tcp 443 "0.0.0.0/0" "Workers pull container images and pods call external APIs via HTTPS",
   .tcp 80 "0.0.0.0/0" ("Workers pull container images from HTTP registries and access OCI " ++
      "pre-authenticated URLs")]

/-- The call of `_add_oke_security_lists_rules`. -/
def ruleCalls (base : VcnBase) (kubectlCidrs : List String) : List RuleCall :=
  [.plain fun
    | .pub, .ingress => publicIngress base kubectlCidrs
    | .pub, .egress => publicEgress base
    | .priv, .ingress => privateIngress base
    | .priv, .egress => privateEgress base
    | _, _ => []]

/-- The rule of `_add_api_nsg_rules` for the `index`th `kubectl` CIDR. -/
def kubectlRule (namer : ResourceNamer) (index : ℕ) : Resource :=
  child namer .networkSecurityGroupSecurityRule (ordinalSuffix "api-nsg-ingress-kubectl" index)
    [s!"{namer.stackName}-{namer.resourceName}-api-nsg-ingress-kubectl-{index}"]

/-- The other ingress rules of the API group, by suffix. -/
def apiIngressRules : List String :=
  ["api-nsg-ingress-worker-6443", "api-nsg-ingress-worker-12250", "api-nsg-ingress-pod-6443",
   "api-nsg-ingress-pod-12250"]

/-- The egress rules of the API group and the rules of the other three groups, by suffix. -/
def otherNsgRules : List String :=
  ["api-nsg-egress-services", "api-nsg-egress-worker-kubelet", "api-nsg-egress-pod-all",
   "lb-nsg-ingress-https", "lb-nsg-ingress-http", "lb-nsg-egress-nodeport",
   "lb-nsg-egress-kubeproxy", "worker-nsg-ingress-api-kubelet", "worker-nsg-ingress-lb-nodeport",
   "worker-nsg-ingress-lb-kubeproxy", "worker-nsg-ingress-pod-all",
   "worker-nsg-ingress-worker-all", "worker-nsg-egress-api-6443", "worker-nsg-egress-api-12250",
   "worker-nsg-egress-services", "worker-nsg-egress-pod-all", "worker-nsg-egress-worker-all",
   "worker-nsg-egress-inet-443", "worker-nsg-egress-inet-80", "pod-nsg-ingress-api-all",
   "pod-nsg-ingress-worker-all", "pod-nsg-ingress-pod-all", "pod-nsg-egress-pod-all",
   "pod-nsg-egress-worker-all", "pod-nsg-egress-api-6443", "pod-nsg-egress-api-12250",
   "pod-nsg-egress-services", "pod-nsg-egress-inet-443", "pod-nsg-egress-inet-80"]

/-- A rule without a legacy name. -/
def fixedRule (namer : ResourceNamer) (suffix : String) : Resource :=
  child namer .networkSecurityGroupSecurityRule suffix []

/-- The rules of `_create_oke_nsgs`, in order. -/
def createNsgRules (namer : ResourceNamer) (kubectlCidrs : List String) : List Resource :=
  apiIngressRules.map (fixedRule namer) ++
    kubectlCidrs.mapIdx (fun index _ => kubectlRule namer index) ++
    otherNsgRules.map (fixedRule namer)

/-- The `index`th node pool. -/
def nodePool (namer : ResourceNamer) (index : ℕ) (name : String) : Resource :=
  child namer .nodePool (ordinalSuffix "pool" index)
    [s!"{namer.stackName}-{namer.resourceName}-pool-{name}"]

/-- The groups, the cluster and its pools. -/
def create (args : OkeArgs) (kubectlCidrs : List String) (v : Vcn) : Except PyError OkeCluster := do
  let namer : ResourceNamer := { stackName := args.stackName, resourceName := args.name }
  match v.subnet .pub, v.subnet .priv with
  | none, _ =>
    throw (.runtimeError "VCN public subnet must exist after finalize_network().")
  | some _, none =>
    throw (.runtimeError "VCN private subnet must exist after finalize_network().")
  | some publicSubnet, some privateSubnet =>
    return {
      namer := namer
      cluster := child namer .cluster "cluster" []
      apiNsg := child namer .networkSecurityGroup "api-nsg" []
      nsgRules := createNsgRules namer kubectlCidrs
      nodePools := args.nodePools.mapIdx (nodePool namer)
      publicSubnetId := publicSubnet.resource
      privateSubnetId := privateSubnet.resource }

/-- `OkeCluster(…)`; without a list no CIDR is allowed. -/
def init (args : OkeArgs) : Py Vcn OkeCluster :=
  construct (.ok (args.kubectlAllowedCidrs.getD []))
    (fun kubectlCidrs => do
      let v ← get
      register (ruleCalls v.toVcnBase kubectlCidrs))
    (create args)

end OkeCluster

end CloudSpells
