import CloudSpells.Network.Packet
import CloudSpells.Spells.Kubernetes
import CloudSpells.Spells.Nsg

/-!
# Spells/ClusterRules — the rules of a cluster's groups

A cluster has four groups: that of its API endpoint and that of its balancers, in the public tier,
and those of its workers and its pods, in the private one.  A rule of a group is about another
group, about a CIDR or about the services of the provider; `OkeCluster.groupRules` is what
`_add_api_nsg_rules` and its three siblings write, in their order.
-/

namespace CloudSpells

/-! ## Groups and peers -/

/-- The groups of `_create_oke_nsgs`. -/
inductive ClusterGroup
  | api
  | lb
  | worker
  | pod
  deriving DecidableEq, Repr

namespace ClusterGroup

/-- The suffix of the group's name. -/
def suffix : ClusterGroup → String
  | api => "api-nsg"
  | lb => "lb-nsg"
  | worker => "worker-nsg"
  | pod => "pod-nsg"

/-- The `NetworkSecurityGroup` of a group. -/
def nsg (namer : ResourceNamer) (g : ClusterGroup) : Resource :=
  OkeCluster.child namer .networkSecurityGroup g.suffix []

/-- The tier of the subnet its members are in. -/
def tier : ClusterGroup → SubnetTier
  | api | lb => .pub
  | worker | pod => .priv

end ClusterGroup

/-- `source` with `source_type`, or `destination` with `destination_type`. -/
inductive RulePeer
  | group (g : ClusterGroup)
  | cidr (s : String)
  | services (label : String)
  deriving DecidableEq, Repr

namespace RulePeer

/-- `source` or `destination`. -/
def input (namer : ResourceNamer) : RulePeer → Input
  | group g => .id (g.nsg namer)
  | cidr s | services s => .str s

/-- `source_type` or `destination_type`. -/
def type : RulePeer → PeerType
  | group _ => .networkSecurityGroup
  | cidr _ => .cidrBlock
  | services _ => .serviceCidrBlock

end RulePeer

/-- `tcp_port_range`. -/
def tcpPortRange (min max : ℤ) : PortRange := { min := min, max := max }

/-- `tcp_port`. -/
def tcpPort (port : ℤ) : PortRange := tcpPortRange port port

/-! ## Rules -/

/-- A call of `_r`: the arguments the rules of a cluster pass. -/
structure ClusterRule where
  resource : Resource
  direction : Direction
  protocol : String
  peer : RulePeer
  tcpOptions : Option PortRange := none
  description : String
  deriving DecidableEq, Repr

namespace ClusterRule

/-- An ingress rule with `protocol=TCP`. -/
def tcpFrom (resource : Resource) (peer : RulePeer) (ports : PortRange) (description : String) :
    ClusterRule where
  resource := resource
  direction := .ingress
  protocol := "6"
  peer := peer
  tcpOptions := some ports
  description := description

/-- An egress rule with `protocol=TCP`. -/
def tcpTo (resource : Resource) (peer : RulePeer) (ports : PortRange) (description : String) :
    ClusterRule where
  resource := resource
  direction := .egress
  protocol := "6"
  peer := peer
  tcpOptions := some ports
  description := description

/-- An ingress rule with `protocol=ALL`. -/
def allFrom (resource : Resource) (peer : RulePeer) (description : String) : ClusterRule where
  resource := resource
  direction := .ingress
  protocol := "all"
  peer := peer
  description := description

/-- An egress rule with `protocol=ALL`. -/
def allTo (resource : Resource) (peer : RulePeer) (description : String) : ClusterRule where
  resource := resource
  direction := .egress
  protocol := "all"
  peer := peer
  description := description

/-- The rule `_r` creates in a group. -/
def nsgRule (namer : ResourceNamer) (g : ClusterGroup) (r : ClusterRule) : NsgRule where
  resource := r.resource
  networkSecurityGroupId := g.nsg namer
  args := {
    direction := r.direction
    protocol := r.protocol
    source := if r.direction = .ingress then some (r.peer.input namer) else none
    sourceType := if r.direction = .ingress then some r.peer.type else none
    destination := if r.direction = .egress then some (r.peer.input namer) else none
    destinationType := if r.direction = .egress then some r.peer.type else none
    tcpOptions := r.tcpOptions
    description := r.description }

/-- The transports of a rule: those of a security-list rule with its protocol and options. -/
def PermitsTransport (r : ClusterRule) (t : Transport) : Prop :=
  SecurityListRule.PermitsTransport
    { protocol := r.protocol, peer := "", peerType := .cidrBlock, tcpOptions := r.tcpOptions } t

instance (r : ClusterRule) (t : Transport) : Decidable (r.PermitsTransport t) :=
  inferInstanceAs (Decidable (SecurityListRule.PermitsTransport _ t))

end ClusterRule

/-! ## The rules of each group -/

namespace OkeCluster

open ClusterRule

section Rules

variable (namer : ResourceNamer) (kubectlCidrs : List String) (svcCidr : String)

/-- The rules for the `kubectl` CIDRs. -/
def kubectlRules : List ClusterRule :=
  kubectlCidrs.mapIdx fun index cidr => tcpFrom (kubectlRule namer index) (.cidr cidr)
    (tcpPort 6443) s!"External kubectl and CI tooling reach the Kubernetes API from {cidr}"

/-- `_add_api_nsg_rules`. -/
def apiNsgRules : List ClusterRule :=
  [tcpFrom (fixedRule namer "api-nsg-ingress-worker-6443") (.group .worker) (tcpPort 6443)
      "Worker nodes reach Kubernetes API server",
   tcpFrom (fixedRule namer "api-nsg-ingress-worker-12250") (.group .worker) (tcpPort 12250)
      "Worker nodes reach Kubernetes control-plane internal port",
   tcpFrom (fixedRule namer "api-nsg-ingress-pod-6443") (.group .pod) (tcpPort 6443)
      "Pods reach Kubernetes API server for service discovery and RBAC",
   tcpFrom (fixedRule namer "api-nsg-ingress-pod-12250") (.group .pod) (tcpPort 12250)
      "Pods reach Kubernetes control-plane internal port"] ++
  kubectlRules namer kubectlCidrs ++
  [allTo (fixedRule namer "api-nsg-egress-services") (.services svcCidr)
      "Control plane sends telemetry and management traffic to OCI services",
   tcpTo (fixedRule namer "api-nsg-egress-worker-kubelet") (.group .worker) (tcpPort 10250)
      "Control plane calls kubelet on worker nodes for pod lifecycle operations",
   allTo (fixedRule namer "api-nsg-egress-pod-all") (.group .pod)
      "Control plane reaches pods on arbitrary ports for webhooks, exec, and metrics"]

/-- `_add_lb_nsg_rules`. -/
def lbNsgRules : List ClusterRule :=
  [tcpFrom (fixedRule namer "lb-nsg-ingress-https") (.cidr INTERNET) (tcpPort 443)
      "Internet reaches the load balancer on HTTPS",
   tcpFrom (fixedRule namer "lb-nsg-ingress-http") (.cidr INTERNET) (tcpPort 80)
      "Internet reaches the load balancer on HTTP",
   tcpTo (fixedRule namer "lb-nsg-egress-nodeport") (.group .worker) (tcpPortRange 30000 32767)
      "Load balancer forwards requests to worker nodes via NodePort",
   tcpTo (fixedRule namer "lb-nsg-egress-kubeproxy") (.group .worker) (tcpPort 10256)
      "Load balancer queries kube-proxy health check before routing"]

/-- `_add_worker_nsg_rules`. -/
def workerNsgRules : List ClusterRule :=
  [tcpFrom (fixedRule namer "worker-nsg-ingress-api-kubelet") (.group .api) (tcpPort 10250)
      "Control plane calls kubelet for pod lifecycle, logs, and exec",
   tcpFrom (fixedRule namer "worker-nsg-ingress-lb-nodeport") (.group .lb)
      (tcpPortRange 30000 32767) "Load balancer forwards requests to workers via NodePort",
   tcpFrom (fixedRule namer "worker-nsg-ingress-lb-kubeproxy") (.group .lb) (tcpPort 10256)
      "Load balancer health-checks worker via kube-proxy",
   allFrom (fixedRule namer "worker-nsg-ingress-pod-all") (.group .pod)
      "Pods communicate with worker VNIC for OCI CNI VNIC-native networking",
   allFrom (fixedRule namer "worker-nsg-ingress-worker-all") (.group .worker)
      "Node-to-node traffic for OCI CNI pod communication across availability domains",
   tcpTo (fixedRule namer "worker-nsg-egress-api-6443") (.group .api) (tcpPort 6443)
      "Workers register with and query the Kubernetes API server",
   tcpTo (fixedRule namer "worker-nsg-egress-api-12250") (.group .api) (tcpPort 12250)
      "Workers communicate with control plane on internal port",
   allTo (fixedRule namer "worker-nsg-egress-services") (.services svcCidr)
      "Workers pull images from OCIR and send metrics and logs to OCI services",
   allTo (fixedRule namer "worker-nsg-egress-pod-all") (.group .pod)
      "Workers reach pod VNICs for OCI CNI VNIC-native networking",
   allTo (fixedRule namer "worker-nsg-egress-worker-all") (.group .worker)
      "Node-to-node traffic for OCI CNI pod communication across availability domains",
   tcpTo (fixedRule namer "worker-nsg-egress-inet-443") (.cidr INTERNET) (tcpPort 443)
      "Workers pull container images and call external APIs via HTTPS",
   tcpTo (fixedRule namer "worker-nsg-egress-inet-80") (.cidr INTERNET) (tcpPort 80)
      "Workers pull images from HTTP registries and access OCI pre-authenticated URLs"]

/-- `_add_pod_nsg_rules`. -/
def podNsgRules : List ClusterRule :=
  [allFrom (fixedRule namer "pod-nsg-ingress-api-all") (.group .api)
      ("Control plane reaches pods on arbitrary ports for webhooks, exec, and metrics " ++
        "scraping"),
   allFrom (fixedRule namer "pod-nsg-ingress-worker-all") (.group .worker)
      "Worker nodes reach pod VNICs for OCI CNI VNIC-native networking",
   allFrom (fixedRule namer "pod-nsg-ingress-pod-all") (.group .pod)
      "Pod-to-pod communication (east-west traffic between workloads)",
   allTo (fixedRule namer "pod-nsg-egress-pod-all") (.group .pod)
      "Pod-to-pod communication (east-west traffic between workloads)",
   allTo (fixedRule namer "pod-nsg-egress-worker-all") (.group .worker)
      "Pods reach worker VNICs for OCI CNI VNIC-native networking",
   tcpTo (fixedRule namer "pod-nsg-egress-api-6443") (.group .api) (tcpPort 6443)
      "Pods reach Kubernetes API server for service discovery and RBAC",
   tcpTo (fixedRule namer "pod-nsg-egress-api-12250") (.group .api) (tcpPort 12250)
      "Pods reach control-plane internal port",
   allTo (fixedRule namer "pod-nsg-egress-services") (.services svcCidr)
      "Pods reach OCI services for object storage, monitoring, and logging",
   tcpTo (fixedRule namer "pod-nsg-egress-inet-443") (.cidr INTERNET) (tcpPort 443)
      "Pods call external APIs and download dependencies via HTTPS",
   tcpTo (fixedRule namer "pod-nsg-egress-inet-80") (.cidr INTERNET) (tcpPort 80)
      "Pods access HTTP endpoints and OCI pre-authenticated URLs"]

/-- The rules of a group. -/
def groupRules : ClusterGroup → List ClusterRule
  | .api => apiNsgRules namer kubectlCidrs svcCidr
  | .lb => lbNsgRules namer
  | .worker => workerNsgRules namer svcCidr
  | .pod => podNsgRules namer svcCidr

theorem resources_kubectlRules : (kubectlRules namer kubectlCidrs).map (·.resource) =
    kubectlCidrs.mapIdx fun index _ => kubectlRule namer index := by
  simp only [kubectlRules, List.mapIdx_eq_zipIdx_map, List.map_map]
  rfl

/-- **The rules of the four groups, in order, are the rules the cluster registers.** -/
theorem createNsgRules_eq : createNsgRules namer kubectlCidrs =
    ([ClusterGroup.api, .lb, .worker, .pod].flatMap fun g =>
      (groupRules namer kubectlCidrs svcCidr g).map (ClusterRule.nsgRule namer g)).map
        (·.resource) := by
  have hresources (g : ClusterGroup) (rules : List ClusterRule) :
      (rules.map (ClusterRule.nsgRule namer g)).map (·.resource) = rules.map (·.resource) := by
    rw [List.map_map]
    rfl
  simp only [List.flatMap_cons, List.flatMap_nil, List.map_append, hresources, groupRules,
    apiNsgRules, resources_kubectlRules, createNsgRules]
  rw [List.append_assoc, List.append_assoc, List.append_assoc]
  rfl

end Rules

end OkeCluster

end CloudSpells
