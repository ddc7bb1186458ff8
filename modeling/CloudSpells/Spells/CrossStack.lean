import CloudSpells.Machinery.Lockstep
import CloudSpells.Network.Audit
import CloudSpells.Spells.OnRef
import CloudSpells.Spells.Protocol

/-!
# Spells/CrossStack — one program, on a VCN and on a reference to it

    live VCN ──program──▸ exported outputs ──from_stack_reference──▸ reference ──program──▸

The children a spell creates depend on the VCN only through the names of its subnets, which are
fixed when the VCN is constructed.  So a program does on a reference what it does on the VCN the
reference reads, step by step (`follows_onRef`), as long as the live VCN itself does not refuse a
step (`Vcn.Refuses`): what it makes there is what it makes here, with the OCIDs of the subnets seen
from outside.
-/

namespace CloudSpells

open Machinery Machinery.Exec

/-! ## Seen from outside -/

/-- A resource of another stack, by its OCID. -/
def Resource.seen (r : Resource) : Output := ⟨some (.id r)⟩

def ComputeInstance.seen (made : ComputeInstance) : OnRef where
  namer := made.namer
  subnet := made.subnet
  subnetId := made.subnetId.seen
  nsgIds := made.nsgIds
  instanceResource := made.instanceResource
  volumesSpec := made.volumesSpec
  blockVolumes := made.blockVolumes
  volumeAttachments := made.volumeAttachments

def Bastion.seen (made : Bastion) : OnRef where
  namer := made.namer
  bastion := made.bastion
  targetSubnetId := made.targetSubnetId.seen
  clientCidrBlockAllowLists := made.clientCidrBlockAllowLists

def Balancer.seen (made : Balancer) : OnRef where
  loadBalancer := made.loadBalancer
  subnetId := made.subnetId.seen
  isPrivate := made.isPrivate
  backendSet := made.backendSet
  healthCheckPort := made.healthCheckPort
  redirectRuleSet := made.redirectRuleSet
  listeners := made.listeners

def ScalableWorkload.seen (made : ScalableWorkload) : OnRef where
  namer := made.namer
  balancer := made.balancer.seen
  instanceConfiguration := made.instanceConfiguration
  instancePool := made.instancePool
  poolSubnetId := made.poolSubnetId.seen
  poolPort := made.poolPort

def OkeCluster.seen (made : OkeCluster) : OnRef where
  namer := made.namer
  cluster := made.cluster
  apiNsg := made.apiNsg
  nsgRules := made.nsgRules
  nodePools := made.nodePools
  publicSubnetId := made.publicSubnetId.seen
  privateSubnetId := made.privateSubnetId.seen

def Log.seen (log : Log) : OnRef where
  resource := log.resource
  logGroupId := log.logGroupId
  subnetId := log.subnetId.seen
  retentionDuration := log.retentionDuration

def VcnFlowLogs.seen (made : VcnFlowLogs) : OnRef where
  namer := made.namer
  compartmentId := made.compartmentId
  retentionDuration := made.retentionDuration
  logGroup := made.logGroup
  flowLog := fun tier => (made.flowLog tier).map Log.seen

/-- What a step made, with the subnets seen from outside. -/
def Made.seen : Made → OnRef
  | done => .done
  | computeInstance made => .computeInstance made.seen
  | bastion made => .bastion made.seen
  | balancer made => .balancer made.seen
  | scalableWorkload made => .scalableWorkload made.seen
  | okeCluster made => .okeCluster made.seen
  | flowLogs made => .flowLogs made.seen

/-- The steps that a reference has all it takes for: not those of a cluster, whose rules it refuses,
and flow logs only where they are given a compartment. -/
def RefOp.Portable : RefOp → Prop
  | okeCluster _ => False
  | flowLogs args => args.compartmentId.isSome
  | _ => True

/-! ## The network of a VCN -/

/-- The subnet of a tier. -/
def VcnBase.subnetResource (base : VcnBase) (tier : SubnetTier) : Resource :=
  vcnChild base.namer .subnet s!"sn-{tier.str}"

/-- The subnets of a network are those its VCN names, and once it is finalised it has them all. -/
def NetworkState.Subnetted (n : NetworkState) : Prop :=
  n.finalized = true → ∀ tier, ∃ subnet, n.subnet tier = some subnet ∧
    subnet.resource = n.base.subnetResource tier

theorem NetworkState.Evolves.subnetted {allowed : NetworkState → RuleCall → Prop}
    {n m : NetworkState} (h : Evolves allowed n m) (hn : n.Subnetted) : m.Subnetted := by
  refine h.invariant (fun k c _ hk => ?_) (fun k hk => ?_) hn
  · cases hfinal : k.finalized with
    | false =>
      intro hfinal'
      rw [finalized_call, hfinal] at hfinal'
      cases hfinal'
    | true =>
      obtain ⟨_, -, hcall⟩ := call_of_finalized hfinal c
      rw [hcall]
      exact hk
  · cases hfinal : k.finalized with
    | false =>
      rw [finalize_of_open hfinal]
      exact fun _ tier => ⟨_, rfl, rfl⟩
    | true =>
      rw [finalize_of_finalized hfinal]
      exact hk

/-- The exceptions by which a live VCN, and not the spell, refuses a step: those of its builder and
of a `Bastion` that comes too late, and those of the flow logs it builds for itself. -/
def Vcn.Refuses (base : VcnBase) (e : PyError) : Prop :=
  e.IsOrdering ∨ e = .runtimeError "Vcn requires a compartment_id" ∨
    e = .valueError ("retention_duration must be one of [30, 60, 90, 120, 150, 180], " ++
      s!"got {base.flowLogsRetention}")

namespace Vcn

theorem isFinalized_after_finalizeNetwork (v : Vcn) :
    (finalizeNetwork.after v).isFinalized = true :=
  (congrArg NetworkState.finalized v.network_finalizeNetwork).trans
    (NetworkState.finalized_finalize _)

/-- Where there are four subnets, the flow logs of a finalisation raise no other exception. -/
theorem refuses_of_createOwnFlowLogs {v : Vcn} {e : PyError} {subnet : SubnetTier → Subnet}
    (hsubnet : ∀ tier, v.subnet tier = some (subnet tier))
    (h : (createOwnFlowLogs (pure ⟨⟩)).outcome v = .error e) : Refuses v.toVcnBase e := by
  rw [createOwnFlowLogs, outcome, run_get_bind] at h
  split at h
  · cases hid : v.compartmentId with
    | none =>
      rw [hid] at h
      exact .inr (.inl (Except.error.inj h).symm)
    | some compartmentId =>
      rw [hid] at h
      by_cases hvalid : v.flowLogsRetention ∈ VALID_RETENTION
      · have hinit := VcnFlowLogs.run_init_of_valid (ownFlowLogsArgs v.toVcnBase compartmentId)
          hsubnet hvalid
        rw [run_bind_ok hinit] at h
        cases h
      · have hinit : (VcnFlowLogs.init (pure ⟨⟩) (ownFlowLogsArgs v.toVcnBase compartmentId)).run v
            = _ := run_init_of_invalid hvalid
        rw [run_bind_error hinit] at h
        exact .inr (.inr (Except.error.inj h).symm)
  · cases h

/-- **What `finalize_network` raises**: nothing but what its flow logs raise. -/
theorem refuses_of_finalizeNetwork {v : Vcn} {e : PyError}
    (h : finalizeNetwork.outcome v = .error e) : Refuses v.toVcnBase e := by
  cases hfinal : v.securityListsFinalized with
  | true =>
    rw [outcome, run_finalizeNetwork_of_finalized hfinal] at h
    cases h
  | false =>
    rw [outcome, finalizeNetwork_eq, run_finalizeBody_of_open hfinal] at h
    rcases outcome_bind_eq_error h with h | ⟨_, v', hrun, h⟩
    · exact refuses_of_createOwnFlowLogs (v := v.materialized) (fun _ => rfl) h
    · have hlogs : v'.network = v.materialized.network := by
        rw [← network_createOwnFlowLogs v.materialized, after, hrun]
      have hall : ∀ tier, (v'.subnet tier).isSome := fun tier => by
        rw [show v'.subnet = v.materialized.subnet from congrArg NetworkState.subnet hlogs]
        rfl
      rw [assertSubnets, outcome, run_get_bind, if_pos hall] at h
      cases h

end Vcn

/-! ## Methods of the live VCN -/

/-- A reference reads the network of a VCN: its subnets, in the region of the program. -/
structure VcnRef.Reads (cloud : Cloud) (ref : VcnRef) (n₀ : NetworkState) : Prop where
  subnetted : n₀.Subnetted
  svcCidrBlock : n₀.base.svcCidrBlock = getSvcCidr cloud
  subnet : ∀ tier, ref.subnet tier = some ⟨(n₀.base.subnetResource tier).seen⟩

/-- A VCN that evolved from `n₀`, and the groups of a program on a reference, which stay `groups`
while the VCN does its part. -/
def MirrorsVcn (n₀ : NetworkState) (groups : Groups) (v : Vcn) (groups' : Groups) : Prop :=
  v.EvolvedFrom (fun _ _ => True) n₀ ∧ groups' = groups

/-- The world of a program on a VCN that evolved from `n₀`, and the groups of the same program on a
reference. -/
def Mirrors (n₀ : NetworkState) (w : World) (groups : Groups) : Prop :=
  MirrorsVcn n₀ w.nsgs w.vcn groups

section Methods

variable {n₀ : NetworkState} {groups : Groups}

/-- A registration raises the builder's refusal alone. -/
theorem refuses_of_register {base : VcnBase} {calls : List RuleCall} {v : Vcn} {e : PyError}
    (h : (register calls).outcome v = .error e) : Vcn.Refuses base e := by
  obtain ⟨pre, c, post, v₁, -, -, hc⟩ := run_each_eq_error (run_of_outcome h)
  cases hfinal : v₁.securityListsFinalized with
  | false =>
    rw [run_exec_of_open hfinal] at hc
    cases (Prod.mk.inj hc).1
  | true =>
    rw [run_exec_of_finalized hfinal] at hc
    split at hc
    · cases (Prod.mk.inj hc).1
    · exact .inl (.inl (Except.error.inj (Prod.mk.inj hc).1).symm)

/-- **Nobody follows a registration**: it raises nothing but refusals of the live VCN. -/
theorem safe_register (calls : List RuleCall) :
    Safe (fun e => ¬ Vcn.Refuses n₀.base e) (Vcn.EvolvedFrom (fun _ _ => True) n₀)
      (Vcn.EvolvedFrom (fun _ _ => True) n₀) (register calls) :=
  (preserves_evolves_register fun _ _ _ => trivial).safe fun _ _ _ he =>
    not_not.mpr (refuses_of_register he)

/-- …nor a finalisation. -/
theorem safe_finalizeNetwork :
    Safe (fun e => ¬ Vcn.Refuses n₀.base e) (Vcn.EvolvedFrom (fun _ _ => True) n₀)
      (fun v => v.EvolvedFrom (fun _ _ => True) n₀ ∧ v.isFinalized = true)
      Vcn.finalizeNetwork := by
  intro v hv
  have hbase : v.toVcnBase = n₀.base := hv.base_eq
  refine ⟨fun e he => not_not.mpr (hbase ▸ Vcn.refuses_of_finalizeNetwork he), fun _ v' hrun => ?_⟩
  have hafter : Vcn.finalizeNetwork.after v = v' := by rw [after, hrun]
  rw [← hafter]
  exact ⟨preserves_evolves_finalize v hv, Vcn.isFinalized_after_finalizeNetwork v⟩

/-- **A constructor is followed where its children are**: its arguments are checked alike, and the
live VCN does the rest unobserved. -/
theorem follows_construct {α β γ : Type} {check : Except PyError β}
    {registration : β → Py Vcn Unit} {create : β → Vcn → Except PyError α} {f : α → γ}
    {create' : β → Except PyError γ}
    (hreg : ∀ checked, Safe (fun e => ¬ Vcn.Refuses n₀.base e)
      (Vcn.EvolvedFrom (fun _ _ => True) n₀) (Vcn.EvolvedFrom (fun _ _ => True) n₀)
      (registration checked))
    (hcreate : ∀ checked v, v.EvolvedFrom (fun _ _ => True) n₀ → v.isFinalized = true →
      create' checked = (create checked v).map f) :
    Follows (Vcn.Refuses n₀.base) (MirrorsVcn n₀ groups) f
      (construct check registration create) (attempt (check >>= create')) := by
  rw [attempt_bind]
  refine Follows.bind (f := id) (follows_attempt_id _) fun checked => ?_
  refine Follows.of_safe_bind (fun t => (hreg checked).frame (t = groups)) (fun _ _ h => h)
    fun _ => ?_
  refine Follows.of_safe_bind (fun t => safe_finalizeNetwork.frame (t = groups))
    (fun _ _ h => ⟨h.1.1, h.2⟩) fun _ => ?_
  exact follows_get_bind_left fun v _ hv =>
    follows_attempt (hcreate checked v hv.1.1 hv.1.2)

/-- A spell that leaves it to the builder to refuse its calls. -/
theorem follows_construct_register {α β γ : Type} {check : Except PyError β}
    (calls : β → VcnBase → List RuleCall) {create : β → Vcn → Except PyError α} {f : α → γ}
    {create' : β → Except PyError γ}
    (hcreate : ∀ checked v, v.EvolvedFrom (fun _ _ => True) n₀ → v.isFinalized = true →
      create' checked = (create checked v).map f) :
    Follows (Vcn.Refuses n₀.base) (MirrorsVcn n₀ groups) f
      (construct check (fun checked => get >>= fun v => register (calls checked v.toVcnBase))
        create)
      (attempt (check >>= create')) :=
  follows_construct (fun _ => safe_get_bind fun _ _ => safe_register _) hcreate

end Methods

/-! ## The spells -/

section Spells

variable {cloud : Cloud} {ref : VcnRef} {n₀ : NetworkState} {groups : Groups} {v : Vcn}

/-- A subnet of the live VCN, once it is finalised… -/
theorem VcnRef.Reads.getSubnetId (h : ref.Reads cloud n₀)
    (hv : v.EvolvedFrom (fun _ _ => True) n₀) (hfinal : v.isFinalized = true) (tier : SubnetTier) :
    v.getSubnetId tier = .ok (n₀.base.subnetResource tier) := by
  obtain ⟨subnet, hsubnet, hresource⟩ := NetworkState.Evolves.subnetted hv h.subnetted hfinal tier
  have hbase : v.network.base = n₀.base := hv.base_eq
  rw [hbase] at hresource
  exact Vcn.getSubnetId_eq_ok.mpr ⟨subnet, hsubnet, hresource.symm⟩

/-- …and the same subnet of the reference. -/
theorem VcnRef.Reads.getSubnetId_ref (h : ref.Reads cloud n₀) (tier : SubnetTier) :
    ref.getSubnetId tier = .ok (n₀.base.subnetResource tier).seen := by
  have hsubnet := h.subnet tier
  cases tier with
  | pub => exact congrArg (fun s => Except.ok s.id) (Option.some.inj hsubnet)
  | priv => exact congrArg (fun s => Except.ok s.id) (Option.some.inj hsubnet)
  | sec => rw [VcnRef.getSubnetId, show ref.secureSubnet = _ from hsubnet]
  | mgmt => rw [VcnRef.getSubnetId, show ref.managementSubnet = _ from hsubnet]

theorem Nsg.follows_init (h : ref.Reads cloud n₀) (args : NsgArgs) :
    Follows (Vcn.Refuses n₀.base) (MirrorsVcn n₀ groups) id
      (init args) (attempt (initOnRef cloud args)) := by
  unfold init initOnRef
  rw [attempt_bind]
  refine Follows.bind (f := id) (follows_attempt_id _) fun _ => ?_
  cases args.role with
  | none => exact follows_pure args.empty
  | some role =>
    refine follows_get_bind_left fun v _ hv => ?_
    have hsvc : v.svcCidrBlock = getSvcCidr cloud :=
      (congrArg VcnBase.svcCidrBlock hv.1.base_eq).trans h.svcCidrBlock
    have hpure : ∀ x : Except PyError Nsg, (attempt x : Py Groups Nsg) = attempt x >>= pure :=
      fun _ => (bind_pure _).symm
    dsimp only
    rw [hsvc, hpure]
    refine Follows.bind (f := id) (follows_attempt_id _) fun nsg => ?_
    exact Follows.of_safe_bind (fun t => (safe_register _).frame (t = groups)) (fun _ _ h => h)
      fun _ => follows_pure nsg

theorem ComputeInstance.follows_init (h : ref.Reads cloud n₀) (nsg : Option Nsg)
    (args : ComputeArgs) : Follows (Vcn.Refuses n₀.base) (MirrorsVcn n₀ groups) seen
      (init nsg args) (attempt (initOnRef nsg args ref)) := by
  have hready : assertSubnetsReadyOnRef ref = .ok ⟨⟩ := by
    rw [assertSubnetsReadyOnRef, List.find?_eq_none.mpr fun tier _ => by rw [h.subnet tier]; simp]
  refine follows_construct (fun _ => safe_get_bind fun v _ => ?_) fun specs v hv hfinal => ?_
  · split
    · exact safe_pure _ fun _ hv => hv
    · exact safe_register _
  · have hready' : assertSubnetsReady v = .ok ⟨⟩ := by
      rw [assertSubnetsReady, List.find?_eq_none.mpr fun tier _ => ?_]
      obtain ⟨subnet, hsubnet, -⟩ := Vcn.getSubnetId_eq_ok.mp (h.getSubnetId hv hfinal tier)
      rw [hsubnet]
      simp
    rw [createOnRef, create, hready, hready']
    simp only [ok_bind, h.getSubnetId_ref, h.getSubnetId hv hfinal]
    rfl

theorem Bastion.follows_init (h : ref.Reads cloud n₀) (args : BastionArgs) :
    Follows (Vcn.Refuses n₀.base) (MirrorsVcn n₀ groups) seen
      (init args) (attempt (initOnRef args ref)) := by
  refine follows_construct (fun _ => safe_get_bind fun v _ => ?_) fun cidrs v hv hfinal => ?_
  · split
    · split
      · exact safe_pure _ fun _ hv => hv
      · exact safe_throw (not_not.mpr (.inl (.inr rfl)))
    · exact safe_register _
  · rw [create]
    simp only [ok_bind, h.getSubnetId_ref, h.getSubnetId hv hfinal]
    rfl

theorem LoadBalancer.follows_init (h : ref.Reads cloud n₀) (args : LoadBalancerArgs) :
    Follows (Vcn.Refuses n₀.base) (MirrorsVcn n₀ groups) Balancer.seen
      (init args) (attempt (initOnRef args ref)) := by
  refine follows_construct_register (fun port base => ruleCalls base port)
    fun port v hv hfinal => ?_
  rw [create]
  simp only [ok_bind, h.getSubnetId_ref, h.getSubnetId hv hfinal]
  rfl

theorem InternalLoadBalancer.follows_init (h : ref.Reads cloud n₀) (args : LoadBalancerArgs) :
    Follows (Vcn.Refuses n₀.base) (MirrorsVcn n₀ groups) Balancer.seen
      (init args) (attempt (initOnRef args ref)) := by
  refine follows_construct_register (fun port base => ruleCalls base port)
    fun port v hv hfinal => ?_
  rw [create]
  simp only [ok_bind, h.getSubnetId_ref, h.getSubnetId hv hfinal]
  rfl

theorem ScalableWorkload.follows_init (h : ref.Reads cloud n₀) (args : ScalableWorkloadArgs) :
    Follows (Vcn.Refuses n₀.base) (MirrorsVcn n₀ groups) seen
      (init args) (attempt (initOnRef args ref)) := by
  refine follows_construct_register (fun _ base => ruleCalls base args.loadBalancerConfig)
    fun _ v hv hfinal => ?_
  rw [create, createLoadBalancer]
  simp only [ok_bind, createLoadBalancerOnRef, h.getSubnetId_ref, h.getSubnetId hv hfinal]
  rfl

/-- The logs of the four subnets, on a finalised VCN and on its reference. -/
theorem VcnFlowLogs.exists_run_createFlowLogs (h : ref.Reads cloud n₀) (args : FlowLogsArgs)
    (hv : v.EvolvedFrom (fun _ _ => True) n₀) (hfinal : v.isFinalized = true) :
    ∃ flowLog v', (createFlowLogs (namerOf args) args.retentionDuration).run v = (.ok flowLog, v') ∧
      v'.EvolvedFrom (fun _ _ => True) n₀ ∧ v'.isFinalized = true ∧
      (fun tier => (flowLog tier).map Log.seen) = fun tier =>
        (ref.subnet tier).map (flowLogOnRef (namerOf args) args.retentionDuration tier) := by
  have hbase : v.network.base = n₀.base := hv.base_eq
  have hsubnets := NetworkState.Evolves.subnetted hv h.subnetted hfinal
  choose subnet hsubnet hresource using hsubnets
  refine ⟨_, _, run_createFlowLogs args hsubnet, ?_, hfinal, funext fun tier => ?_⟩
  · have hkeeps : Preserves (Vcn.EvolvedFrom (fun _ _ => True) n₀)
        (createFlowLogs (namerOf args) args.retentionDuration) := by
      refine preserves_createFlowLogs _ _ fun w rs hrs hw => ?_
      rw [Vcn.EvolvedFrom, network_register fun r hr => ?_]
      · exact hw
      · obtain ⟨_, rfl⟩ := hrs r hr
        rfl
    have hafter := hkeeps v hv
    rwa [after, run_createFlowLogs args hsubnet] at hafter
  · rw [h.subnet tier, ← hbase, ← hresource tier]
    rfl

theorem VcnFlowLogs.follows_init (h : ref.Reads cloud n₀) {args : FlowLogsArgs}
    (hcompartment : args.compartmentId.isSome) :
    Follows (Vcn.Refuses n₀.base) (MirrorsVcn n₀ groups) seen
      (init Vcn.finalizeNetwork args) (attempt (initOnRef args ref)) := by
  obtain ⟨compartmentId, hid⟩ := Option.isSome_iff_exists.mp hcompartment
  rw [initOnRef, hid, if_neg (by simp)]
  refine follows_get_bind_left fun v _ _ => ?_
  by_cases hinvalid : args.retentionDuration ∉ VALID_RETENTION
  · rw [if_pos hinvalid, if_pos hinvalid]
    exact follows_throw _
  · rw [if_neg hinvalid]
    have hlogGroup : Safe (fun e => ¬ Vcn.Refuses n₀.base e) (Vcn.EvolvedFrom (fun _ _ => True) n₀)
        (Vcn.EvolvedFrom (fun _ _ => True) n₀) (modify (withLogGroup args)) :=
      safe_modify fun w hw => by rwa [Vcn.EvolvedFrom, network_withLogGroup]
    refine Follows.of_safe_bind (fun t => hlogGroup.frame (t = groups)) (fun _ _ h => h) fun _ => ?_
    · refine Follows.of_safe_bind (fun t => safe_finalizeNetwork.frame (t = groups))
        (fun _ _ h => ⟨h.1.1, h.2⟩) fun _ => ?_
      refine follows_of_run fun w groups' hw => ?_
      obtain ⟨flowLog, w', hrun, hevolved, hfinal, hlogs⟩ :=
        exists_run_createFlowLogs h args hw.1.1 hw.1.2
      refine ⟨_, w', groups', (run_bind_ok hrun).trans rfl, ?_, ⟨hevolved, hfinal⟩, hw.2⟩
      rw [if_neg hinvalid, run_attempt, hid]
      exact congrArg (fun logs => (Except.ok (VcnFlowLogs.OnRef.mk _ _ _ _ logs), groups'))
        hlogs.symm

end Spells

/-! ## The steps -/

section Steps

variable {cloud : Cloud} {ref : VcnRef} {n₀ : NetworkState}

/-- A method of the VCN is followed from any world it is in. -/
theorem follows_onVcn {α β : Type} {m : Py Vcn α} {m' : Py Groups β} {f : α → β}
    (h : ∀ groups, Follows (Vcn.Refuses n₀.base) (MirrorsVcn n₀ groups) f m m') :
    Follows (Vcn.Refuses n₀.base) (Mirrors n₀) f (World.onVcn m) m' :=
  Follows.on (fun _ => rfl) fun w => h w.nsgs

theorem follows_lookup (name : String) : Follows (Vcn.Refuses n₀.base) (Mirrors n₀) id
    (World.lookup name) (Groups.lookup name) := by
  refine follows_get_bind fun w groups hw => ?_
  rw [hw.2]
  cases w.nsgs name with
  | none => exact follows_throw _
  | some nsg => exact follows_pure nsg

theorem follows_resolve (name : Option String) : Follows (Vcn.Refuses n₀.base) (Mirrors n₀) id
    (World.resolve name) (Groups.resolve name) := by
  cases name with
  | none => exact follows_pure none
  | some name => exact (follows_lookup name).bind fun nsg => follows_pure (some nsg)

/-- A group under a name. -/
theorem follows_setNsg (name : String) (nsg : Nsg) :
    Follows (Vcn.Refuses n₀.base) (Mirrors n₀) id
      (modify fun w : World => { w with nsgs := Function.update w.nsgs name (some nsg) })
      (modify fun groups : Groups => Function.update groups name (some nsg)) :=
  follows_modify fun _ _ hw => ⟨hw.1, by rw [hw.2]⟩

theorem follows_addRuleTo (name : String) (decl : RuleDecl) :
    Follows (Vcn.Refuses n₀.base) (Mirrors n₀) id
      (World.addRuleTo name decl) (Groups.addRuleTo name decl) := by
  refine (follows_lookup name).bind fun nsg => ?_
  exact Follows.bind (f := id) (follows_attempt_id _) fun nsg' => follows_setNsg name nsg'

/-- **A relationship is followed**: the live VCN registers its calls unobserved. -/
theorem follows_serves (src tgt : String) (port : ℤ) (withSsh : Bool) :
    Follows (Vcn.Refuses n₀.base) (Mirrors n₀) id
      (World.serves src tgt port withSsh) (Groups.serves src tgt port withSsh) := by
  refine (follows_lookup src).bind fun self => (follows_lookup tgt).bind fun target => ?_
  have hpure := bind_pure (Groups.relate src tgt self target port withSsh)
  rw [World.relate_eq, id, id, ← hpure, Groups.relate_eq]
  refine Follows.bind (follows_each fun a _ => follows_addRuleTo a.1 a.2) fun _ => ?_
  refine follows_get_bind_left fun w _ _ => follows_onVcn fun groups => ?_
  exact follows_of_safe fun t => (safe_register _).frame (t = groups)

/-- **A step is followed.** -/
theorem RefOp.follows_onRef (h : ref.Reads cloud n₀) {op : RefOp} (hop : op.Portable) :
    Follows (Vcn.Refuses n₀.base) (Mirrors n₀) Made.seen op.onLive (op.onRef cloud ref) := by
  cases op with
  | nsg args =>
    refine Follows.bind (f := id) ?_ fun _ => follows_pure _
    exact Follows.bind (f := id) (follows_onVcn fun _ => Nsg.follows_init h args)
      fun nsg => follows_setNsg args.name nsg
  | serves src tgt port withSsh =>
    exact (follows_serves src tgt port withSsh).bind fun _ => follows_pure _
  | computeInstance name args =>
    refine (follows_resolve name).bind fun nsg => ?_
    exact (follows_onVcn fun _ => ComputeInstance.follows_init h nsg args).bind
      fun made => follows_pure (Made.computeInstance made)
  | bastion args =>
    exact (follows_onVcn fun _ => Bastion.follows_init h args).bind
      fun made => follows_pure (Made.bastion made)
  | loadBalancer args =>
    exact (follows_onVcn fun _ => LoadBalancer.follows_init h args).bind
      fun made => follows_pure (Made.balancer made)
  | internalLoadBalancer args =>
    exact (follows_onVcn fun _ => InternalLoadBalancer.follows_init h args).bind
      fun made => follows_pure (Made.balancer made)
  | scalableWorkload args =>
    exact (follows_onVcn fun _ => ScalableWorkload.follows_init h args).bind
      fun made => follows_pure (Made.scalableWorkload made)
  | okeCluster args => exact hop.elim
  | flowLogs args =>
    exact (follows_onVcn fun _ => VcnFlowLogs.follows_init h hop).bind
      fun made => follows_pure (Made.flowLogs made)
  | finalizeNetwork =>
    have hpure : onRef cloud ref finalizeNetwork =
      (pure ⟨⟩ : Py Groups Unit) >>= fun _ => pure Made.OnRef.done := rfl
    rw [hpure]
    refine Follows.bind (f := id) (follows_onVcn fun groups => ?_) fun _ => follows_pure Made.done
    exact follows_of_safe fun t =>
      (safe_finalizeNetwork.weaken (fun _ hv => hv) fun _ hv => hv.1).frame (t = groups)

end Steps

/-! ## From one stack to another -/

section Stacks

variable {cloud : Cloud} {args : VcnArgs} {v₀ v' : Vcn} {ops : List SpellOp}

/-- The VCN of a program, which evolved from the one it was given. -/
theorem evolvedFrom_replay (v₀ : Vcn) (ops : List SpellOp) :
    (replay SpellOp.exec ops (World.ofVcn v₀)).vcn.EvolvedFrom (fun _ _ => True) v₀.network := by
  have hevolves : NetworkState.Evolves (fun _ _ => True) (World.ofVcn v₀).vcn.network _ :=
    SpellOp.evolves_replay_of (Q := fun _ => True) ops fun _ _ _ _ _ _ => trivial
  exact hevolves

/-- **What a stack exported, another reads**: the outputs of an export that returned make a
reference to the VCN, whatever was done with it before. -/
theorem exists_reads_of_export (h : Vcn.init cloud args = .ok v₀)
    (hexport : Vcn.exportOutputs.run (replay SpellOp.exec ops (World.ofVcn v₀)).vcn =
      (.ok ⟨⟩, v')) :
    ∃ ref, VcnRef.fromStackReference v'.outputs = .ok ref ∧ ref.Describes v' ∧
      ref.Reads cloud v₀.network := by
  have hbuilt := (built_of_init h).1
  have hafter : Vcn.exportOutputs.after (replay SpellOp.exec ops (World.ofVcn v₀)).vcn = v' := by
    rw [after, hexport]
  have hevolved : v'.EvolvedFrom (fun _ _ => True) v₀.network := by
    rw [← hafter]
    exact preserves_evolves_export _ (evolvedFrom_replay v₀ ops)
  have hbase : v'.toVcnBase = v₀.toVcnBase := hevolved.base_eq
  have hfinal : v'.isFinalized = true := by
    rw [← hafter]
    exact (congrArg NetworkState.finalized (Vcn.network_exportOutputs _)).trans
      (NetworkState.finalized_finalize _)
  have hopen : v₀.network.Subnetted := fun hv => by
    rw [show v₀.network.finalized = false from open_of_init h] at hv
    cases hv
  obtain ⟨ref, href, hdescribes⟩ := VcnRef.describes_of_exported (Vcn.exported_of_run hexport)
    fun drg hdrg => by
      rw [hbase] at hdrg ⊢
      exact hbuilt.drgAttachment hdrg
  refine ⟨ref, href, hdescribes, hopen, hbuilt.svcCidrBlock_eq, fun tier => ?_⟩
  obtain ⟨subnet, hsubnet, hid⟩ := hdescribes.subnetId tier
  obtain ⟨subnet', hsubnet', hresource⟩ := NetworkState.Evolves.subnetted hevolved hopen hfinal tier
  obtain rfl := Option.some.inj (hsubnet.symm.trans hsubnet')
  rw [hid, hresource]
  exact congrArg (fun base => some (SubnetRef.mk (VcnBase.subnetResource base tier).seen)) hbase

/-- **One program, on a VCN and on a reference to it.**  Take any VCN, whatever programs did with it
before and after it was exported.  A program does on the reference read from the exported outputs
what it does on the live VCN: step for step it makes the same children, with the subnets seen from
outside, or raises the same exception, and it ends with the same groups — unless the live VCN
itself refuses one of the steps. -/
theorem history_onRef (h : Vcn.init cloud args = .ok v₀)
    (hexport : Vcn.exportOutputs.run (replay SpellOp.exec ops (World.ofVcn v₀)).vcn = (.ok ⟨⟩, v'))
    (before : List SpellOp) {program : List RefOp} (hportable : ∀ op ∈ program, op.Portable)
    (hraise : ∀ e, .error e ∈ (history RefOp.onLive program
        (World.ofVcn (replay SpellOp.exec before (World.ofVcn v₀)).vcn)).1 →
      ¬ Vcn.Refuses v₀.toVcnBase e) :
    ∃ ref, VcnRef.fromStackReference v'.outputs = .ok ref ∧
      history (RefOp.onRef cloud ref) program (fun _ => none) =
        ((history RefOp.onLive program
            (World.ofVcn (replay SpellOp.exec before (World.ofVcn v₀)).vcn)).1.map
          (Except.map Made.seen),
        (history RefOp.onLive program
          (World.ofVcn (replay SpellOp.exec before (World.ofVcn v₀)).vcn)).2.nsgs) := by
  obtain ⟨ref, href, -, hreads⟩ := exists_reads_of_export h hexport
  have hstart : Mirrors v₀.network (World.ofVcn (replay SpellOp.exec before (World.ofVcn v₀)).vcn)
      fun _ => none := ⟨evolvedFrom_replay v₀ before, rfl⟩
  obtain ⟨hsame, hend⟩ := Follows.history
    (fun op hop => RefOp.follows_onRef hreads (hportable op hop)) hstart hraise
  exact ⟨ref, href, Prod.ext hsame hend.2⟩

/-- A group, a balancer and two instances, one of them in the group. -/
def webProgram : List RefOp :=
  [.nsg { name := "app", stackName := "dev", role := some (.predefined .appServer) },
   .loadBalancer { name := "lb", stackName := "dev", backendPort := 8080 },
   .computeInstance (some "app") { name := "srv", stackName := "dev" },
   .computeInstance none { name := "db", stackName := "dev", subnet := .sec }]

theorem history_onRef_default :
    ∃ ref, VcnRef.fromStackReference (Vcn.exportOutputs.after defaultBase.fresh).outputs = .ok ref ∧
      history (RefOp.onRef bundleCloud ref) webProgram (fun _ => none) =
        ((history RefOp.onLive webProgram (World.ofVcn defaultBase.fresh)).1.map
          (Except.map Made.seen),
        (history RefOp.onLive webProgram (World.ofVcn defaultBase.fresh)).2.nsgs) := by
  have hrun : Vcn.exportOutputs.outcome defaultBase.fresh = .ok ⟨⟩ := by
    rw [Vcn.exportOutputs, Vcn.finalizeNetwork_eq]
    rfl
  have hlive : (history RefOp.onLive webProgram (World.ofVcn defaultBase.fresh)).1.all
      Except.isOk = true := by decide +kernel
  have hexport : Vcn.exportOutputs.run
      (replay SpellOp.exec [] (World.ofVcn defaultBase.fresh)).vcn =
    (.ok ⟨⟩, Vcn.exportOutputs.after defaultBase.fresh) := run_of_outcome hrun
  refine history_onRef init_default hexport [] (fun op hop => ?_) fun e he => ?_
  · simp only [webProgram, List.mem_cons, List.not_mem_nil, or_false] at hop
    rcases hop with rfl | rfl | rfl | rfl <;> trivial
  · exact absurd (List.all_eq_true.mp hlive _ he) (by simp [Except.isOk, Except.toBool])

end Stacks

end CloudSpells
