import CloudSpells.Spells.Urns

/-!
# Spells/Components — what each spell registers

A `Spell` is an object of one of the library's classes, and what it registers is its components: one
of its own, and for a VCN with flow logs that of the flow logs it has built.  A spell that its
constructor returned, whatever was called on it since (`Spell.Built`), has components whose children
are named as `Component.Named` says.  So a stack in which no two components of one class have one
name has no URN twice.
-/

namespace CloudSpells

open Machinery Machinery.Exec

open SpellClass (ordinals labels_ordinals map_label_mapIdx)

/-! ## The components -/

namespace Vcn

/-- The component of a VCN. -/
def component (v : Vcn) : Component where
  cls := .vcn
  namer := v.namer
  children := v.ownResources

end Vcn

namespace VcnFlowLogs

/-- The component of flow logs. -/
def component (f : VcnFlowLogs) : Component where
  cls := .vcnFlowLogs
  namer := f.namer
  children := f.resources

end VcnFlowLogs

namespace Nsg

/-- The component of a group. -/
def component (nsg : Nsg) : Component where
  cls := .nsg
  namer := nsg.namer
  children := nsg.nsg :: nsg.rules.map (·.resource)

end Nsg

namespace ComputeInstance

/-- The component of an instance. -/
def component (a : ComputeInstance) : Component where
  cls := .computeInstance
  namer := a.namer
  children := a.instanceResource :: (a.blockVolumes ++ a.volumeAttachments)

end ComputeInstance

namespace Balancer

/-- The resources of a balancer. -/
def resources (b : Balancer) : List Resource :=
  b.loadBalancer :: b.backendSet :: (b.redirectRuleSet.toList ++ b.listeners.map (·.resource))

/-- The component of a balancer of a class. -/
def component (cls : SpellClass) (b : Balancer) : Component where
  cls := cls
  namer := b.loadBalancer.namer
  children := b.resources

end Balancer

namespace ScalableWorkload

/-- The component of a workload; it has an autoscaling configuration where it is given a scaling
policy. -/
def component (a : ScalableWorkload) (scaled : Bool) : Component where
  cls := .scalableWorkload
  namer := a.namer
  children := a.balancer.resources ++ a.instanceConfiguration :: a.instancePool ::
    if scaled then [child a.namer .autoScalingConfiguration "asc"] else []

end ScalableWorkload

namespace Bastion

/-- The component of a bastion. -/
def component (b : Bastion) : Component where
  cls := .bastion
  namer := b.namer
  children := [b.bastion]

end Bastion

namespace OkeCluster

/-- The component of a cluster: its four groups, their rules, the cluster and its pools. -/
def component (a : OkeCluster) : Component where
  cls := .okeCluster
  namer := a.namer
  children := [ClusterGroup.api, .lb, .worker, .pod].map (ClusterGroup.nsg a.namer) ++
    (a.nsgRules ++ a.cluster :: a.nodePools)

end OkeCluster

/-- The class of a storage spell. -/
def BucketSpell.cls : BucketSpell → SpellClass
  | objectStorageBucket => .objectStorageBucket
  | backupBucket _ => .backupBucket
  | dataLakeBucket _ _ => .dataLakeBucket
  | archiveBucket _ => .archiveBucket
  | staticWebsiteBucket => .staticWebsiteBucket

/-- The component of a bucket. -/
def Bucket.component (b : Bucket) : Component where
  cls := b.spell.cls
  namer := b.namer
  children := b.bucket :: b.lifecyclePolicy.toList

/-- The class of an IAM spell. -/
def IamSpell.cls : IamSpell → SpellClass
  | computeInstancePrincipal _ => .computeInstancePrincipal
  | okeNodePrincipal => .okeNodePrincipal
  | compartmentAdminGroup => .compartmentAdminGroup

/-- The component of a principal. -/
def Principal.component (p : Principal) : Component where
  cls := p.spell.cls
  namer := p.namer
  children := [p.group, p.policy]

/-! ## Each is named -/

section Named

variable {stackName : String} {v v' : Vcn}

/-- The labels of a VCN. -/
def vcnLabels (drgEnabled finalized : Bool) : List Label :=
  [(.vcn, "vcn"), (.defaultSecurityList, "sl-default"), (.internetGateway, "igw"),
   (.natGateway, "natgw"), (.serviceGateway, "svcgw")] ++
  (if drgEnabled then [(.drg, "drg"), (.drgAttachment, "drg-attach")] else []) ++
  [(.routeTable, "rt-public"), (.routeTable, "rt-private"), (.routeTable, "rt-secure"),
   (.routeTable, "rt-management")] ++
  if finalized then
    [(.securityList, "sl-public"), (.securityList, "sl-private"), (.securityList, "sl-secure"),
     (.securityList, "sl-management"), (.subnet, "sn-public"), (.subnet, "sn-private"),
     (.subnet, "sn-secure"), (.subnet, "sn-management")]
  else []

theorem labels_vcnLabels : ∀ drgEnabled finalized,
    SpellClass.vcn.Labels (vcnLabels drgEnabled finalized) := by decide

/-- **A VCN is named**, whatever was called on it. -/
theorem Vcn.named {cloud : Cloud} {base : VcnBase} (hbuilt : base.Built cloud)
    (h : v.Owned base) : v.component.Named base.namer.stackName := by
  obtain ⟨hbase, hown, -⟩ := h
  have hnamer : v.namer = base.namer := congrArg VcnBase.namer hbase
  rw [childrenOf, baseResources, hbuilt.drg_eq, hbuilt.drgAttachment_eq, hbuilt.routeTable_eq]
    at hown
  refine ⟨congrArg ResourceNamer.stackName hnamer, ?_, ?_⟩
  · change ∀ r ∈ v.ownResources, r.spell = "custom:network:Vcn" ∧ r.namer = v.namer
    rw [hown, hnamer]
    cases base.drgEnabled <;> cases v.securityListsFinalized <;>
      simp [vcnChild, createRouteTables, networkResources, tiersInOrder]
  · have hlabels : v.ownResources.map Resource.label =
        vcnLabels base.drgEnabled v.securityListsFinalized := by
      rw [hown]
      cases base.drgEnabled <;> cases v.securityListsFinalized <;> rfl
    change SpellClass.vcn.Labels (v.ownResources.map Resource.label)
    rw [hlabels]
    exact labels_vcnLabels _ _

/-- A list of what some elements have is part of the list of what all may have. -/
private theorem sublist_map_filterMap {α β γ : Type} {g : α → Option β} {k : β → γ} {k' : α → γ}
    (h : ∀ x b, g x = some b → k b = k' x) :
    ∀ xs : List α, ((xs.filterMap g).map k).Sublist (xs.map k')
  | [] => .slnil
  | x :: xs => by
    cases hx : g x with
    | none =>
      rw [List.filterMap_cons_none hx]
      exact (sublist_map_filterMap h xs).cons _
    | some b =>
      rw [List.filterMap_cons_some hx, List.map_cons, List.map_cons, h x b hx]
      exact (sublist_map_filterMap h xs).cons_cons _

/-- The labels of flow logs for the four tiers. -/
def flowLogLabels : List Label :=
  (.logGroup, "network-audit") :: tiersInOrder.map fun tier => (.log, s!"flow-log-{tier.str}")

theorem labels_flowLogLabels : SpellClass.vcnFlowLogs.Labels flowLogLabels := by decide

/-- **Flow logs are named.** -/
theorem VcnFlowLogs.NamedBy.named {namer : ResourceNamer} {f : VcnFlowLogs} (h : f.NamedBy namer) :
    f.component.Named namer.stackName := by
  obtain ⟨rfl, hgroup, hlog⟩ := h
  refine ⟨rfl, fun r hr => ?_, labels_flowLogLabels.sublist ?_⟩
  · rcases List.mem_cons.mp hr with rfl | hr
    · rw [hgroup]
      exact ⟨rfl, rfl⟩
    · obtain ⟨log, hmem, rfl⟩ := List.mem_map.mp hr
      obtain ⟨tier, -, heq⟩ := List.mem_filterMap.mp hmem
      rw [hlog tier log heq]
      exact ⟨rfl, rfl⟩
  · change ((f.logGroup :: (tiersInOrder.filterMap f.flowLog).map (·.resource)).map
      Resource.label).Sublist flowLogLabels
    rw [List.map_cons, List.map_map, hgroup]
    refine List.Sublist.cons_cons _ (sublist_map_filterMap (fun tier log heq => ?_) tiersInOrder)
    exact congrArg Resource.label (hlog tier log heq)

/-- What is true of a group after any rules: its rules are numbered by the counter. -/
structure Nsg.Counted (nsg : Nsg) : Prop where
  group : nsg.nsg.spell = "custom:network:Nsg" ∧ nsg.nsg.namer = nsg.namer ∧
    nsg.nsg.label = (.networkSecurityGroup, "nsg")
  child : ∀ r ∈ nsg.rules, r.resource.spell = "custom:network:Nsg" ∧ r.resource.namer = nsg.namer
  labels : nsg.rules.map (·.resource.label) =
    ordinals .networkSecurityGroupSecurityRule "nsg-rule" nsg.nextRuleIndex

theorem NsgArgs.counted_empty (args : NsgArgs) : args.empty.Counted :=
  ⟨⟨rfl, rfl, rfl⟩, fun _ hr => absurd hr List.not_mem_nil, rfl⟩

/-- A rule takes the next number… -/
theorem Nsg.Counted.addRule {decl : RuleDecl} {nsg nsg' : Nsg} (h : nsg.Counted)
    (hadd : nsg.addRule decl = .ok nsg') : nsg'.Counted := by
  obtain ⟨-, rfl⟩ := addRule_eq_ok.mp hadd
  refine ⟨h.group, fun r hr => ?_, ?_⟩
  · rcases List.mem_append.mp hr with hr | hr
    · exact h.child r hr
    · rw [List.mem_singleton.mp hr]
      exact ⟨rfl, rfl⟩
  · have hnext : ordinals .networkSecurityGroupSecurityRule "nsg-rule" (nsg.nextRuleIndex + 1) =
        ordinals .networkSecurityGroupSecurityRule "nsg-rule" nsg.nextRuleIndex ++
          [(nsg.ruleOf nsg.nextRuleIndex decl).resource.label] := by
      rw [ordinals, List.range_succ, List.map_append]
      rfl
    rw [hnext, ← h.labels, List.map_append]
    rfl

/-- …and so do any number of rules, one after another. -/
theorem Nsg.Counted.addRules {decls : List RuleDecl} {nsg nsg' : Nsg} (h : nsg.Counted)
    (hadd : nsg.addRules decls = .ok nsg') : nsg'.Counted := by
  induction decls generalizing nsg with
  | nil =>
    obtain rfl := Except.ok.inj hadd
    exact h
  | cons decl decls ih =>
    obtain ⟨nsg₁, hdecl, hrest⟩ := bind_eq_ok.mp hadd
    exact ih (h.addRule hdecl) hrest

/-- A group as constructed. -/
theorem Nsg.counted_of_init {args : NsgArgs} {nsg : Nsg}
    (h : (Nsg.init args).run v = (.ok nsg, v')) : nsg.Counted ∧ nsg.namer = args.namer := by
  rw [Nsg.init, run_bind_eq_ok] at h
  obtain ⟨_, v₁, -, h⟩ := h
  cases hrole : args.role with
  | none =>
    rw [hrole] at h
    obtain rfl := Except.ok.inj (Prod.mk.inj h).1
    exact ⟨args.counted_empty, rfl⟩
  | some role =>
    rw [hrole] at h
    dsimp only at h
    rw [run_get_bind, run_bind_eq_ok] at h
    obtain ⟨nsg₁, v₂, hrules, h⟩ := h
    obtain ⟨_, v₃, -, h⟩ := run_bind_eq_ok.mp h
    obtain rfl := Except.ok.inj (Prod.mk.inj h).1
    have hadd := (Prod.mk.inj hrules).1
    exact ⟨args.counted_empty.addRules hadd, (rules_of_addRules hadd).1.namer⟩

/-- **A group is named**, however many rules it has. -/
theorem Nsg.Counted.named {nsg : Nsg} (h : nsg.Counted) :
    nsg.component.Named nsg.namer.stackName := by
  refine ⟨rfl, fun r hr => ?_, ?_⟩
  · rcases List.mem_cons.mp hr with rfl | hr
    · exact ⟨h.group.1, h.group.2.1⟩
    · obtain ⟨rule, hrule, rfl⟩ := List.mem_map.mp hr
      exact h.child rule hrule
  · change SpellClass.nsg.Labels ((nsg.nsg :: nsg.rules.map (·.resource)).map Resource.label)
    have hrules : (nsg.rules.map (·.resource)).map Resource.label =
        ordinals .networkSecurityGroupSecurityRule "nsg-rule" nsg.nextRuleIndex := by
      rw [List.map_map]
      exact h.labels
    rw [List.map_cons, h.group.2.2, hrules]
    have hgroup : SpellClass.nsg.Labels [(.networkSecurityGroup, "nsg")] := by decide
    exact hgroup.append_ordinals _ _ (by decide) (by decide) _

/-- **An instance that was built is named**, whatever its volumes. -/
theorem ComputeInstance.named_of_init {nsg : Option Nsg} {args : ComputeArgs} {a : ComputeInstance}
    (h : (ComputeInstance.init nsg args).run v = (.ok a, v')) :
    a.component.Named args.stackName := by
  obtain ⟨specs, _, -, -, -, hcreate⟩ := run_construct_eq_ok.mp h
  simp only [create, bind_eq_ok] at hcreate
  obtain ⟨_, -, _, -, ha⟩ := hcreate
  obtain rfl := Except.ok.inj ha
  refine ⟨rfl, fun r hr => ?_, ?_⟩
  · rcases List.mem_cons.mp hr with rfl | hr
    · exact ⟨rfl, rfl⟩
    · rcases List.mem_append.mp hr with hr | hr
      · obtain ⟨i, _, rfl⟩ := List.mem_mapIdx.mp hr
        exact ⟨rfl, rfl⟩
      · obtain ⟨i, _, rfl⟩ := List.mem_mapIdx.mp hr
        exact ⟨rfl, rfl⟩
  · simp only [component, List.map_cons, List.map_append]
    rw [map_label_mapIdx .volume "vol" fun _ _ => rfl,
      map_label_mapIdx .volumeAttachment "vol-attach" fun _ _ => rfl]
    have hinstance : SpellClass.computeInstance.Labels [(.computeInstance, "instance")] := by
      decide
    have hvolumes := hinstance.append_ordinals .volume "vol" (by decide) (by decide)
      specs.length
    refine hvolumes.append_ordinals _ _ (fun l hl => ?_) (by decide) _
    rcases List.mem_append.mp hl with hl | hl
    · rw [List.mem_singleton.mp hl]
      exact ResourceType.noConfusion
    · obtain ⟨i, -, rfl⟩ := List.mem_map.mp hl
      exact ResourceType.noConfusion

/-- **A bastion that was built is named.** -/
theorem Bastion.named_of_init {args : BastionArgs} {a : Bastion}
    (h : (Bastion.init args).run v = (.ok a, v')) : a.component.Named args.stackName := by
  have hlabels : SpellClass.bastion.Labels [(.bastion, "bastion")] := by decide
  obtain ⟨_, _, -, -, -, hcreate⟩ := run_construct_eq_ok.mp h
  simp only [create, bind_eq_ok] at hcreate
  obtain ⟨_, -, ha⟩ := hcreate
  obtain rfl := Except.ok.inj ha
  exact ⟨rfl, by simp [component, SpellClass.token], hlabels⟩

/-- **A public balancer that was built is named**… -/
theorem LoadBalancer.named_of_init {args : LoadBalancerArgs} {b : Balancer}
    (h : (LoadBalancer.init args).run v = (.ok b, v')) :
    (b.component .loadBalancer).Named args.stackName := by
  have hlabels : SpellClass.loadBalancer.Labels [(.loadBalancer, "lb"), (.backendSet, "bs"),
      (.ruleSet, "rs-redirect"), (.listener, "listener-https"), (.listener, "listener-http")] := by
    decide
  obtain ⟨_, _, -, -, -, hcreate⟩ := run_construct_eq_ok.mp h
  simp only [create, bind_eq_ok] at hcreate
  obtain ⟨_, -, hb⟩ := hcreate
  obtain rfl := Except.ok.inj hb
  exact ⟨rfl, by simp [Balancer.component, Balancer.resources, child, SpellClass.token], hlabels⟩

/-- …and so is an internal one. -/
theorem InternalLoadBalancer.named_of_init {args : LoadBalancerArgs} {b : Balancer}
    (h : (InternalLoadBalancer.init args).run v = (.ok b, v')) :
    (b.component .internalLoadBalancer).Named args.stackName := by
  have hlabels : SpellClass.internalLoadBalancer.Labels [(.loadBalancer, "lb"),
      (.backendSet, "bs"), (.listener, "listener-http")] := by decide
  obtain ⟨_, _, -, -, -, hcreate⟩ := run_construct_eq_ok.mp h
  simp only [create, bind_eq_ok] at hcreate
  obtain ⟨_, -, hb⟩ := hcreate
  obtain rfl := Except.ok.inj hb
  exact ⟨rfl, by simp [Balancer.component, Balancer.resources, child, SpellClass.token], hlabels⟩

/-- The balancer of a workload has the second listener where it has a certificate. -/
theorem ScalableWorkload.resources_of_createLoadBalancer {namer : ResourceNamer}
    {config : LoadBalancerConfig} {b : Balancer}
    (h : createLoadBalancer namer config v = .ok b) : ∃ https : Bool, b.resources =
      [child namer .loadBalancer "lb", child namer .backendSet "bs",
        child namer .listener "listener-http"] ++
      if https then [child namer .listener "listener-https"] else [] := by
  simp only [createLoadBalancer, bind_eq_ok] at h
  obtain ⟨_, -, hb⟩ := h
  obtain rfl := Except.ok.inj hb
  cases config.sslCertificateName with
  | none => exact ⟨false, rfl⟩
  | some certificate =>
    by_cases hempty : certificate = ""
    · exact ⟨false, by simp [Balancer.resources, hempty]⟩
    · exact ⟨true, by simp [Balancer.resources, hempty]⟩

/-- The labels of a workload. -/
def workloadLabels (https scaled : Bool) : List Label :=
  [(.loadBalancer, "lb"), (.backendSet, "bs"), (.listener, "listener-http")] ++
  (if https then [(.listener, "listener-https")] else []) ++
  [(.instanceConfiguration, "ic"), (.instancePool, "pool")] ++
  if scaled then [(.autoScalingConfiguration, "asc")] else []

theorem labels_workloadLabels : ∀ https scaled,
    SpellClass.scalableWorkload.Labels (workloadLabels https scaled) := by decide

/-- **A workload that was built is named.** -/
theorem ScalableWorkload.named_of_init {args : ScalableWorkloadArgs} {a : ScalableWorkload}
    (h : (ScalableWorkload.init args).run v = (.ok a, v')) (scaled : Bool) :
    (a.component scaled).Named args.stackName := by
  obtain ⟨_, _, -, -, -, hcreate⟩ := run_construct_eq_ok.mp h
  simp only [create, bind_eq_ok] at hcreate
  obtain ⟨_, -, _, -, b, hb, ha⟩ := hcreate
  obtain rfl := Except.ok.inj ha
  obtain ⟨https, hresources⟩ := resources_of_createLoadBalancer hb
  refine ⟨rfl, ?_, ?_⟩
  · simp only [component, hresources]
    cases https <;> cases scaled <;> simp [child, SpellClass.token]
  · have hlabels := labels_workloadLabels https scaled
    simp only [component, hresources]
    cases https <;> cases scaled <;> exact hlabels

/-- The labels of a cluster without its numbered children. -/
def clusterLabels : List Label :=
  [ClusterGroup.api, .lb, .worker, .pod].map (fun g => (.networkSecurityGroup, g.suffix)) ++
    OkeCluster.apiIngressRules.map (fun suffix => (.networkSecurityGroupSecurityRule, suffix)) ++
    OkeCluster.otherNsgRules.map (fun suffix => (.networkSecurityGroupSecurityRule, suffix)) ++
    [(.cluster, "cluster")]

theorem labels_clusterLabels : SpellClass.okeCluster.Labels clusterLabels := by decide

/-- The labels of a cluster with `n` rules for `kubectl` and `m` pools. -/
theorem labels_okeCluster (n m : ℕ) : SpellClass.okeCluster.Labels (clusterLabels ++
    ordinals .networkSecurityGroupSecurityRule "api-nsg-ingress-kubectl" n ++
    ordinals .nodePool "pool" m) := by
  have hkubectl : SpellClass.okeCluster.Labels
      (ordinals .networkSecurityGroupSecurityRule "api-nsg-ingress-kubectl" n) :=
    labels_ordinals _ _ (by decide) n
  have hfixed : ∀ l ∈ clusterLabels, startsWith "api-nsg-ingress-kubectl-" l.2 = false := by
    decide
  have hrules := labels_clusterLabels.append hkubectl fun x hx y hy hxy => by
    obtain ⟨i, -, rfl⟩ := List.mem_map.mp hy
    refine ne_append_of_startsWith (hfixed x hx) (toString (i + 1)) ?_
    rw [hxy, ordinalSuffix_eq]
    rfl
  refine hrules.append_ordinals _ _ (fun l hl => ?_) (by decide) m
  have htypes : ∀ l ∈ clusterLabels, l.1 ≠ .nodePool := by decide
  rcases List.mem_append.mp hl with hl | hl
  · exact htypes l hl
  · obtain ⟨i, -, rfl⟩ := List.mem_map.mp hl
    exact ResourceType.noConfusion

/-- The numbered children, moved behind the others. -/
private theorem perm_numbered_last {α : Type} (groups api other rules pools : List α)
    (cluster : α) : (groups ++ api ++ other ++ [cluster] ++ rules ++ pools).Perm
      (groups ++ (api ++ rules ++ other ++ cluster :: pools)) := by
  classical
  refine List.perm_iff_count.mpr fun a => ?_
  simp only [List.count_append, List.count_cons, List.count_nil]
  omega

/-- **A cluster that was built is named**, whatever its pools and the CIDRs it allows. -/
theorem OkeCluster.named_of_init {args : OkeArgs} {a : OkeCluster}
    (h : (OkeCluster.init args).run v = (.ok a, v')) : a.component.Named args.stackName := by
  obtain ⟨cidrs, _, -, -, -, hcreate⟩ := run_construct_eq_ok.mp h
  unfold create at hcreate
  dsimp only at hcreate
  split at hcreate
  · cases hcreate
  · cases hcreate
  · obtain rfl := Except.ok.inj hcreate
    refine ⟨rfl, fun r hr => ?_, ?_⟩
    · simp only [component, createNsgRules, List.mem_append, List.mem_cons, List.mem_map,
        List.mem_mapIdx] at hr
      rcases hr with ⟨g, -, rfl⟩ | (((⟨_, -, rfl⟩ | ⟨_, _, rfl⟩) | ⟨_, -, rfl⟩) | rfl | ⟨_, _, rfl⟩)
      all_goals exact ⟨rfl, rfl⟩
    · refine (labels_okeCluster cidrs.length args.nodePools.length).perm ?_
      simp only [component, createNsgRules, List.map_append, List.map_cons, List.map_map]
      rw [map_label_mapIdx .networkSecurityGroupSecurityRule "api-nsg-ingress-kubectl"
          fun _ _ => rfl, map_label_mapIdx .nodePool "pool" fun _ _ => rfl]
      exact perm_numbered_last _ _ _ _ _ _

/-- The labels of a bucket, with and without a lifecycle policy. -/
theorem Bucket.named_of_init {args : BucketArgs} {b : Bucket} (h : Bucket.init args = .ok b) :
    b.component.Named args.stackName := by
  obtain ⟨hnamer, -, hbucket, -, hlifecycle⟩ := eq_of_init h
  have htoken : b.spell.token = b.spell.cls.token := by cases b.spell <;> rfl
  have hlabels : b.spell.cls.Labels [(.bucket, "bucket")] ∧
      b.spell.cls.Labels [(.bucket, "bucket"), (.objectLifecyclePolicy, "lifecycle")] := by
    cases b.spell <;> (dsimp only [BucketSpell.cls]; decide)
  refine ⟨congrArg ResourceNamer.stackName hnamer, ?_, ?_⟩
  · rw [component, hbucket, hlifecycle, ← htoken]
    cases b.spell.hasLifecycle <;> simp [child]
  · rw [component, hbucket, hlifecycle]
    cases b.spell.hasLifecycle with
    | false => exact hlabels.1
    | true => exact hlabels.2

/-- **A principal that was built is named.** -/
theorem Principal.named_of_init {args : IamArgs} {p : Principal} (h : Principal.init args = .ok p) :
    p.component.Named args.stackName := by
  obtain ⟨hnamer, -, hgroup, hpolicy⟩ := eq_of_init h
  have htoken : p.spell.token = p.spell.cls.token := by cases p.spell <;> rfl
  have hinstance : SpellClass.computeInstancePrincipal.Labels
      [(.dynamicGroup, "dg"), (.policy, "policy")] := by decide
  have hnode : SpellClass.okeNodePrincipal.Labels [(.dynamicGroup, "dg"), (.policy, "policy")] := by
    decide
  have hadmin : SpellClass.compartmentAdminGroup.Labels
      [(.group, "group"), (.policy, "policy")] := by decide
  refine ⟨congrArg ResourceNamer.stackName hnamer, ?_, ?_⟩
  · rw [component, hgroup, hpolicy, ← htoken]
    cases p.spell <;> simp [groupOf, child]
  · rw [component, hgroup, hpolicy]
    cases p.spell with
    | computeInstancePrincipal grants => exact hinstance
    | okeNodePrincipal => exact hnode
    | compartmentAdminGroup => exact hadmin

end Named

/-! ## The spells of a stack -/

/-- A spell; a workload with whether it is given a scaling policy. -/
inductive Spell
  | vcn (v : Vcn)
  | vcnFlowLogs (f : VcnFlowLogs)
  | nsg (g : Nsg)
  | computeInstance (a : ComputeInstance)
  | scalableWorkload (a : ScalableWorkload) (scaled : Bool)
  | bastion (b : Bastion)
  | loadBalancer (b : Balancer)
  | internalLoadBalancer (b : Balancer)
  | okeCluster (a : OkeCluster)
  | bucket (b : Bucket)
  | principal (p : Principal)

namespace Spell

/-- The components of a spell: its own, and that of the flow logs a VCN has built. -/
def components : Spell → List Component
  | vcn v => v.component :: (v.flowLogs.map VcnFlowLogs.component).toList
  | vcnFlowLogs f => [f.component]
  | nsg g => [g.component]
  | computeInstance a => [a.component]
  | scalableWorkload a scaled => [a.component scaled]
  | bastion b => [b.component]
  | loadBalancer b => [b.component .loadBalancer]
  | internalLoadBalancer b => [b.component .internalLoadBalancer]
  | okeCluster a => [a.component]
  | bucket b => [b.component]
  | principal p => [p.component]

/-- The spell was built in the stack, on any VCN in any state: a VCN by its constructor and any
calls, a group by its constructor and any rules, every other spell by its constructor. -/
inductive Built (stackName : String) : Spell → Prop
  | vcn {cloud : Cloud} {args : VcnArgs} {v : Vcn} (h : Vcn.init cloud args = .ok v)
    (hstack : args.stackName = stackName) (calls : List VcnCall) :
    Built stackName (.vcn (replay VcnCall.exec calls v))
  | vcnFlowLogs {args : FlowLogsArgs} {v v' : Vcn} {f : VcnFlowLogs}
    (h : (VcnFlowLogs.init Vcn.finalizeNetwork args).run v = (.ok f, v'))
    (hstack : args.stackName = stackName) : Built stackName (.vcnFlowLogs f)
  | nsg {args : NsgArgs} {v v' : Vcn} {nsg nsg' : Nsg} {decls : List RuleDecl}
    (h : (Nsg.init args).run v = (.ok nsg, v')) (hrules : nsg.addRules decls = .ok nsg')
    (hstack : args.stackName = stackName) : Built stackName (.nsg nsg')
  | computeInstance {nsg : Option Nsg} {args : ComputeArgs} {v v' : Vcn} {a : ComputeInstance}
    (h : (ComputeInstance.init nsg args).run v = (.ok a, v'))
    (hstack : args.stackName = stackName) : Built stackName (.computeInstance a)
  | scalableWorkload {args : ScalableWorkloadArgs} {v v' : Vcn} {a : ScalableWorkload}
    (h : (ScalableWorkload.init args).run v = (.ok a, v')) (scaled : Bool)
    (hstack : args.stackName = stackName) : Built stackName (.scalableWorkload a scaled)
  | bastion {args : BastionArgs} {v v' : Vcn} {b : Bastion}
    (h : (Bastion.init args).run v = (.ok b, v'))
    (hstack : args.stackName = stackName) : Built stackName (.bastion b)
  | loadBalancer {args : LoadBalancerArgs} {v v' : Vcn} {b : Balancer}
    (h : (LoadBalancer.init args).run v = (.ok b, v'))
    (hstack : args.stackName = stackName) : Built stackName (.loadBalancer b)
  | internalLoadBalancer {args : LoadBalancerArgs} {v v' : Vcn} {b : Balancer}
    (h : (InternalLoadBalancer.init args).run v = (.ok b, v'))
    (hstack : args.stackName = stackName) : Built stackName (.internalLoadBalancer b)
  | okeCluster {args : OkeArgs} {v v' : Vcn} {a : OkeCluster}
    (h : (OkeCluster.init args).run v = (.ok a, v'))
    (hstack : args.stackName = stackName) : Built stackName (.okeCluster a)
  | bucket {args : BucketArgs} {b : Bucket} (h : Bucket.init args = .ok b)
    (hstack : args.stackName = stackName) : Built stackName (.bucket b)
  | principal {args : IamArgs} {p : Principal} (h : Principal.init args = .ok p)
    (hstack : args.stackName = stackName) : Built stackName (.principal p)

variable {stackName : String} {spell : Spell}

/-- **The components of every spell are named.** -/
theorem Built.named (h : spell.Built stackName) :
    ∀ c ∈ spell.components, c.Named stackName := by
  cases h with
  | @vcn cloud args v h hstack calls =>
    have howned := Vcn.owned_replay h calls
    have hnamer : v.namer = { stackName := args.stackName, resourceName := args.name } := by
      obtain ⟨base, hbase, hv⟩ := bind_eq_ok.mp h
      obtain rfl := Except.ok.inj hv
      obtain ⟨cidrs, -, hbase⟩ := bind_eq_ok.mp hbase
      obtain rfl := Except.ok.inj hbase
      rfl
    have hname : v.namer.stackName = stackName := by rw [hnamer, hstack]
    subst hname
    intro c hc
    rcases List.mem_cons.mp hc with rfl | hc
    · exact Vcn.named (built_of_init h).1 howned
    · obtain ⟨f, hf, rfl⟩ := Option.map_eq_some_iff.mp (Option.mem_toList.mp hc)
      exact (howned.flowLogs_eq f hf).named
  | vcnFlowLogs h hstack =>
    subst hstack
    exact List.forall_mem_singleton.mpr (VcnFlowLogs.namedBy_of_init h).named
  | nsg h hrules hstack =>
    subst hstack
    obtain ⟨hcounted, hnamer⟩ := Nsg.counted_of_init h
    have hnamed := (hcounted.addRules hrules).named
    rw [(Nsg.rules_of_addRules hrules).1.namer, hnamer] at hnamed
    exact List.forall_mem_singleton.mpr hnamed
  | computeInstance h hstack =>
    subst hstack
    exact List.forall_mem_singleton.mpr (ComputeInstance.named_of_init h)
  | scalableWorkload h scaled hstack =>
    subst hstack
    exact List.forall_mem_singleton.mpr (ScalableWorkload.named_of_init h scaled)
  | bastion h hstack =>
    subst hstack
    exact List.forall_mem_singleton.mpr (Bastion.named_of_init h)
  | loadBalancer h hstack =>
    subst hstack
    exact List.forall_mem_singleton.mpr (LoadBalancer.named_of_init h)
  | internalLoadBalancer h hstack =>
    subst hstack
    exact List.forall_mem_singleton.mpr (InternalLoadBalancer.named_of_init h)
  | okeCluster h hstack =>
    subst hstack
    exact List.forall_mem_singleton.mpr (OkeCluster.named_of_init h)
  | bucket h hstack =>
    subst hstack
    exact List.forall_mem_singleton.mpr (Bucket.named_of_init h)
  | principal h hstack =>
    subst hstack
    exact List.forall_mem_singleton.mpr (Principal.named_of_init h)

/-- **No URN is taken twice in a stack**, whatever the logical names, as long as no two components
of one class share one. -/
theorem nodup_urns_of_built (stackName : String) {spells : List Spell}
    (h : ∀ spell ∈ spells, spell.Built stackName)
    (hkeys : ((spells.flatMap components).map Component.key).Nodup) :
    ((spells.flatMap components).flatMap Component.urns).Nodup := by
  have hnamed : ∀ c ∈ spells.flatMap components, c.Named stackName := fun c hc => by
    obtain ⟨spell, hspell, hc⟩ := List.mem_flatMap.mp hc
    exact (h spell hspell).named c hc
  exact Component.nodup_flatMap_urns hnamed hkeys

/-- The attributes of a VCN with flow logs. -/
def loggedBase : VcnBase := { defaultBase with flowLogsEnabled := true }

/-- A cluster named as the VCN. -/
def netCluster : OkeArgs where
  name := "net"
  stackName := "dev"
  nodePools := ["app"]
  kubectlAllowedCidrs := some ["203.0.113.0/24"]

/-- A group named as the VCN, with the start of a cluster's suffix. -/
def netApi : NsgArgs where
  name := "net-api"
  stackName := "dev"

/-- A VCN with flow logs and a cluster of its name, and a group whose resource has the name of one
of the cluster's. -/
theorem nodup_urns_of_built_hyphens : ∃ v' a nsg,
    (OkeCluster.init netCluster).run loggedBase.fresh = (.ok a, v') ∧
      (Nsg.init netApi).run loggedBase.fresh = (.ok nsg, loggedBase.fresh) ∧
      a.apiNsg.name = nsg.nsg.name ∧
      (([.vcn (replay VcnCall.exec [.finalizeNetwork] loggedBase.fresh), .okeCluster a,
        .nsg nsg].flatMap components).flatMap Component.urns).Nodup := by
  have hinit : Vcn.init bundleCloud { defaultArgs with flowLogs := true } =
      .ok loggedBase.fresh := by
    have hcidr : strOr defaultArgs.cidrBlock "10.0.0.0/18" = "10.0.0.0/18" := rfl
    rw [Vcn.init, VcnBase.init, hcidr, splitTiers_default]
    rfl
  refine ⟨_, _, _, rfl, rfl, by decide, ?_⟩
  refine nodup_urns_of_built "dev" (fun spell hspell => ?_) ?_
  · simp only [List.mem_cons, List.not_mem_nil, or_false] at hspell
    rcases hspell with rfl | rfl | rfl
    · exact .vcn hinit rfl _
    · have hcluster : (OkeCluster.init netCluster).run loggedBase.fresh = (.ok _, _) := rfl
      exact .okeCluster hcluster rfl
    · have hnsg : (Nsg.init netApi).run loggedBase.fresh = (.ok netApi.empty, _) := rfl
      have hrules : netApi.empty.addRules [] = .ok netApi.empty := rfl
      exact .nsg hnsg hrules rfl
  · change [(SpellClass.vcn, "net"), (.vcnFlowLogs, "net"), (.okeCluster, "net"),
      (.nsg, "net-api")].Nodup
    decide

end Spell

end CloudSpells
