import CloudSpells.Network.Finalize

/-!
# Network/State — the network as its clients see it

`NetworkState` is the purpose of a `Vcn`, without the order in which its methods do things: eight
lists that grow while the network is open, the fingerprints in use, and, once it is finalised, the
security lists and subnets made of them.  Four transitions act on it: a call is recorded, or its
fingerprint marked, or the network is materialised, or nothing happens.

`Vcn.network` is the state a VCN is in, and the theorems of this module say that every method of the
source moves it by one of these transitions, whether the method returns or raises.
-/

namespace CloudSpells

open Machinery Machinery.Exec

/-- A resource of the network itself: a security list or a subnet. -/
def Resource.isNetwork (r : Resource) : Bool := r.type = .securityList ∨ r.type = .subnet

/-- The state of a network. -/
@[ext]
structure NetworkState where
  base : VcnBase
  rules : RuleLists
  finalized : Bool
  fingerprints : Finset String
  securityList : SubnetTier → Option SecurityList
  subnet : SubnetTier → Option Subnet
  /-- The security lists and subnets registered, in order. -/
  resources : List Resource

/-- The state a VCN is in. -/
def Vcn.network (v : Vcn) : NetworkState where
  base := v.toVcnBase
  rules := v.rules
  finalized := v.securityListsFinalized
  fingerprints := v.appliedAmbientRuleFingerprints
  securityList := v.securityList
  subnet := v.subnet
  resources := v.registered.filter Resource.isNetwork

namespace NetworkState

/-! ## Transitions -/

/-- A run of calls, recorded. -/
def record (n : NetworkState) (calls : List RuleCall) : NetworkState :=
  { n with
    rules := n.rules.extend (writtenRules n.fingerprints calls)
    fingerprints := usedFingerprints n.fingerprints calls }

/-- The fingerprint of a refused call, marked. -/
def mark (n : NetworkState) : Option String → NetworkState
  | none => n
  | some fingerprint => { n with fingerprints := insert fingerprint n.fingerprints }

/-- The rules a network is materialised with. -/
def finalRules (n : NetworkState) : RuleLists := n.rules.extend (Vcn.baselineRules n.base)

/-- The four security lists and the four subnets, created. -/
def materialize (n : NetworkState) : NetworkState :=
  let securityList := Vcn.newSecurityList n.base n.finalRules
  let subnet := fun tier => Vcn.newSubnet n.base (securityList tier) tier
  { n with
    rules := n.finalRules
    finalized := true
    securityList := fun tier => some (securityList tier)
    subnet := fun tier => some (subnet tier)
    resources := n.resources ++ tiersInOrder.map (fun tier => (securityList tier).resource) ++
      tiersInOrder.map fun tier => (subnet tier).resource }

/-- Finalisation: the first materialises the network, the others do nothing. -/
def finalize (n : NetworkState) : NetworkState := if n.finalized then n else n.materialize

/-- One call that adds rules. -/
def call (n : NetworkState) (c : RuleCall) : NetworkState :=
  if n.finalized then
    if ∃ fp, c.fingerprint = some fp ∧ fp ∈ n.fingerprints then n else n.mark c.fingerprint
  else n.record [c]

@[simp] theorem record_nil (n : NetworkState) : n.record [] = n := by
  ext <;> simp [record, writtenRules, usedFingerprints, RuleLists.extend]

theorem record_append (n : NetworkState) (calls calls' : List RuleCall) :
    n.record (calls ++ calls') = (n.record calls).record calls' := by
  have hrules : n.rules.extend (writtenRules n.fingerprints (calls ++ calls')) =
      (n.record calls).rules.extend (writtenRules (n.record calls).fingerprints calls') := by
    funext t d
    simp [record, writtenRules, usedFingerprints, Ledger.written_append]
  rw [record, hrules, usedFingerprints, Ledger.keys_append]
  rfl

@[simp] theorem finalized_finalize (n : NetworkState) : n.finalize.finalized = true := by
  unfold finalize
  split
  · assumption
  · rfl

@[simp] theorem finalize_of_finalized {n : NetworkState} (h : n.finalized = true) :
    n.finalize = n := if_pos h

theorem finalize_of_open {n : NetworkState} (h : n.finalized = false) :
    n.finalize = n.materialize := if_neg (by simp [h])

@[simp] theorem base_finalize (n : NetworkState) : n.finalize.base = n.base := by
  unfold finalize
  split
  · rfl
  · rfl

theorem call_of_open {n : NetworkState} (h : n.finalized = false) (c : RuleCall) :
    n.call c = n.record [c] := if_neg (by simp [h])

end NetworkState

namespace Vcn

/-! ## Adding rules -/

/-- **A call moves the network by one transition.** -/
theorem network_exec (v : Vcn) (c : RuleCall) :
    (c.exec.after v).network = v.network.call c := by
  cases h : v.securityListsFinalized with
  | false =>
    rw [after, run_exec_of_open h, NetworkState.call_of_open h]
    rfl
  | true =>
    have hcall : v.network.call c =
        if ∃ fp, c.fingerprint = some fp ∧ fp ∈ v.appliedAmbientRuleFingerprints then v.network
        else v.network.mark c.fingerprint := if_pos h
    rw [after, run_exec_of_finalized h, hcall]
    split
    · rfl
    · cases c.fingerprint <;> rfl

/-! ## Creating the network -/

/-- The VCN with its network materialised, before its flow logs. -/
def materialized (v : Vcn) : Vcn :=
  let n := v.network.materialize
  { v with
    rules := n.rules
    securityListsFinalized := true
    securityList := n.securityList
    subnet := n.subnet
    registered := v.registered ++ tiersInOrder.map
        (fun tier => (newSecurityList v.toVcnBase n.rules tier).resource) ++
      tiersInOrder.map fun tier =>
        (newSubnet v.toVcnBase (newSecurityList v.toVcnBase n.rules tier) tier).resource }

theorem network_materialized (v : Vcn) : v.materialized.network = v.network.materialize := by
  ext <;> first
    | rfl
    | simp [materialized, network, NetworkState.materialize, NetworkState.finalRules, tiersInOrder,
        newSecurityList, newSubnet, vcnChild, Resource.isNetwork]

/-- The VCN with other resources. -/
private def setNetwork (v : Vcn) (securityList : SubnetTier → Option SecurityList)
    (subnet : SubnetTier → Option Subnet) (registered : List Resource) : Vcn :=
  { v with securityList := securityList, subnet := subnet, registered := registered }

private theorem update_tiers {α : Type} (f g : SubnetTier → α) :
    Function.update (Function.update (Function.update (Function.update f .pub (g .pub))
      .priv (g .priv)) .sec (g .sec)) .mgmt (g .mgmt) = g := by
  funext t
  cases t <;> rfl

private theorem run_createSecurityLists (v : Vcn) :
    createSecurityLists.run v = (.ok ⟨⟩, v.setNetwork
      (fun tier => some (newSecurityList v.toVcnBase v.rules tier)) v.subnet
      (v.registered ++ tiersInOrder.map fun tier =>
        (newSecurityList v.toVcnBase v.rules tier).resource)) := by
  have hlists := update_tiers v.securityList
    fun tier => some (newSecurityList v.toVcnBase v.rules tier)
  rw [← hlists]
  simp only [createSecurityLists, tiersInOrder, each_cons, each_nil, createSecurityList,
    run_modify_bind, run_pure, setNetwork, List.map_cons, List.map_nil, List.append_assoc,
    List.cons_append, List.nil_append]

private theorem run_createSubnet {v : Vcn} {tier : SubnetTier} {sl : SecurityList}
    (h : v.securityList tier = some sl) (subnet : SubnetTier → Option Subnet)
    (registered : List Resource) :
    (createSubnet tier).run (v.setNetwork v.securityList subnet registered) =
      (.ok ⟨⟩, v.setNetwork v.securityList
        (Function.update subnet tier (some (newSubnet v.toVcnBase sl tier)))
        (registered ++ [(newSubnet v.toVcnBase sl tier).resource])) := by
  rw [createSubnet, run_get_bind, setNetwork, h]
  rfl

private theorem run_createSubnets {v : Vcn} {securityList : SubnetTier → SecurityList}
    (h : v.securityList = fun tier => some (securityList tier)) :
    createSubnets.run v = (.ok ⟨⟩, v.setNetwork v.securityList
      (fun tier => some (newSubnet v.toVcnBase (securityList tier) tier))
      (v.registered ++ tiersInOrder.map fun tier =>
        (newSubnet v.toVcnBase (securityList tier) tier).resource)) := by
  have hsubnets := update_tiers v.subnet
    fun tier => some (newSubnet v.toVcnBase (securityList tier) tier)
  have hlist : ∀ tier, v.securityList tier = some (securityList tier) := fun tier => by rw [h]
  rw [← hsubnets, createSubnets, tiersInOrder]
  simp only [each_cons, each_nil]
  change _ = (Except.ok (), v.setNetwork _ _ (v.registered ++ ([_] ++ ([_] ++ ([_] ++ [_])))))
  simp only [← List.append_assoc]
  change (createSubnet .pub >>= _).run (v.setNetwork v.securityList v.subnet v.registered) = _
  rw [run_bind_ok (run_createSubnet (hlist .pub) _ _),
    run_bind_ok (run_createSubnet (hlist .priv) _ _),
    run_bind_ok (run_createSubnet (hlist .sec) _ _),
    run_bind_ok (run_createSubnet (hlist .mgmt) _ _)]
  rfl

/-- **An open network is materialised, then its flow logs are built.** -/
theorem run_finalizeBody_of_open {v : Vcn} (h : v.securityListsFinalized = false)
    (nested : Py Vcn Unit) :
    (finalizeBody nested).run v =
      (createOwnFlowLogs nested >>= fun _ => assertSubnets).run v.materialized := by
  have hbase : injectBaselineRules.run v =
      (.ok ⟨⟩, v.setRules v.network.finalRules v.appliedAmbientRuleFingerprints) :=
    run_addSecurityListRules_of_open h _
  rw [finalizeBody, run_get_bind, if_neg (by simp [h]), run_bind_ok hbase,
    run_bind_ok (run_createSecurityLists _), run_bind_ok (run_createSubnets rfl), run_modify_bind]
  rfl

/-- A finalised network is left as it is. -/
theorem run_finalizeBody_of_finalized {v : Vcn} (h : v.securityListsFinalized = true)
    (nested : Py Vcn Unit) : (finalizeBody nested).run v = (.ok ⟨⟩, v) := by
  rw [finalizeBody, run_get_bind, if_pos h, run_pure]

end Vcn

/-! ## Flow logs -/

section FlowLogs

variable {v : Vcn} {n : NetworkState} {args : FlowLogsArgs} {finalize : Py Vcn Unit}

/-- Registering other resources leaves the network as it is. -/
theorem network_register {rs : List Resource} (h : ∀ r ∈ rs, r.isNetwork = false) :
    Vcn.network { v with registered := v.registered ++ rs } = v.network := by
  ext <;> first
    | rfl
    | simp [Vcn.network, List.filter_append, List.filter_eq_nil_iff.mpr (by simpa using h)]

theorem preserves_createFlowLogs {P : Vcn → Prop} (namer : ResourceNamer) (retentionDuration : ℤ)
    (hP : ∀ (v : Vcn) rs, (∀ r ∈ rs, ∃ suffix, r = VcnFlowLogs.child namer .log suffix) → P v →
      P { v with registered := v.registered ++ rs }) :
    Preserves P (VcnFlowLogs.createFlowLogs namer retentionDuration) := by
  refine preserves_get_bind fun v hv => ?_
  refine preserves_ite (P := P) (fun _ => preserves_throw _) (fun _ => ?_) v hv
  refine preserves_ite (fun _ => preserves_throw _) fun _ => ?_
  refine Preserves.bind (preserves_modify fun w hw => hP w _ (fun r hr => ?_) hw) fun _ =>
    preserves_pure _
  obtain ⟨log, hlog, rfl⟩ := List.mem_map.mp hr
  obtain ⟨tier, -, htier⟩ := List.mem_filterMap.mp hlog
  obtain ⟨subnet, -, rfl⟩ := Option.map_eq_some_iff.mp htier
  exact ⟨_, rfl⟩

/-- The log group `VcnFlowLogs` registers before it finalises the network. -/
def VcnFlowLogs.withLogGroup (args : FlowLogsArgs) (v : Vcn) : Vcn :=
  { v with registered := v.registered ++ [VcnFlowLogs.child
    { stackName := args.stackName, resourceName := args.name } .logGroup "network-audit"] }

@[simp] theorem network_withLogGroup (args : FlowLogsArgs) (v : Vcn) :
    (VcnFlowLogs.withLogGroup args v).network = v.network :=
  network_register (by simp [VcnFlowLogs.child, Resource.isNetwork])

/-- **Flow logs leave the network their finalisation leaves.** -/
theorem network_init (hvalid : args.retentionDuration ∈ VALID_RETENTION)
    (hfinalize : (finalize.after (VcnFlowLogs.withLogGroup args v)).network = n) :
    ((VcnFlowLogs.init finalize args).after v).network = n := by
  rw [VcnFlowLogs.init, after, run_get_bind, if_neg (by simpa using hvalid), run_modify_bind]
  refine after_bind (P := fun w : Vcn => w.network = n) hfinalize fun _ => ?_
  refine Preserves.bind (preserves_createFlowLogs _ _ fun w rs hrs hw => ?_) fun _ =>
    preserves_pure _
  rw [network_register (fun r hr => ?_), hw]
  obtain ⟨_, rfl⟩ := hrs r hr
  rfl

/-- …and a refused retention leaves the VCN alone. -/
theorem run_init_of_invalid (hinvalid : args.retentionDuration ∉ VALID_RETENTION) :
    (VcnFlowLogs.init finalize args).run v = (.error (.valueError
      ("retention_duration must be one of [30, 60, 90, 120, 150, 180], " ++
        s!"got {args.retentionDuration}")),
      v) := by
  rw [VcnFlowLogs.init, run_get_bind, if_pos hinvalid, run_throw]

/-- Flow logs depend on the finalisation they call only through the one call they make. -/
theorem run_init_congr {finalize' : Py Vcn Unit}
    (h : finalize.run (VcnFlowLogs.withLogGroup args v) =
      finalize'.run (VcnFlowLogs.withLogGroup args v)) :
    (VcnFlowLogs.init finalize args).run v = (VcnFlowLogs.init finalize' args).run v := by
  unfold VcnFlowLogs.init
  simp only [run_get_bind, run_ite]
  split
  · rfl
  · rw [run_modify_bind, run_modify_bind]
    change (finalize >>= _).run (VcnFlowLogs.withLogGroup args v) =
      (finalize' >>= _).run (VcnFlowLogs.withLogGroup args v)
    rw [run_bind, run_bind, h]

end FlowLogs

/-! ## Finalisation -/

namespace Vcn

variable {v : Vcn}

/-- The flow logs of a finalisation depend on the nested call only on finalised networks. -/
private theorem run_createOwnFlowLogs_congr {nested nested' : Py Vcn Unit}
    (hv : v.securityListsFinalized = true)
    (h : ∀ w : Vcn, w.securityListsFinalized = true → nested.run w = nested'.run w) :
    (createOwnFlowLogs nested).run v = (createOwnFlowLogs nested').run v := by
  rw [createOwnFlowLogs, createOwnFlowLogs, run_get_bind, run_get_bind]
  split
  · cases v.compartmentId with
    | none => rfl
    | some compartmentId =>
      have hinit : (VcnFlowLogs.init nested (ownFlowLogsArgs v.toVcnBase compartmentId)).run v =
          (VcnFlowLogs.init nested' (ownFlowLogsArgs v.toVcnBase compartmentId)).run v :=
        run_init_congr (h (VcnFlowLogs.withLogGroup _ v) hv)
      dsimp only
      rw [run_bind, run_bind, hinit]
  · rfl

/-- **The nested call of a finalisation might as well do nothing**: it finds the network
finalised. -/
theorem finalizeBody_eq {nested : Py Vcn Unit}
    (h : ∀ w : Vcn, w.securityListsFinalized = true → nested.run w = (.ok ⟨⟩, w)) :
    finalizeBody nested = finalizeBody (pure ⟨⟩) := by
  funext v
  change (finalizeBody nested).run v = (finalizeBody (pure ⟨⟩)).run v
  cases hv : v.securityListsFinalized with
  | true => rw [run_finalizeBody_of_finalized hv, run_finalizeBody_of_finalized hv]
  | false =>
    have hown : (createOwnFlowLogs nested).run v.materialized =
        (createOwnFlowLogs (pure ⟨⟩)).run v.materialized :=
      run_createOwnFlowLogs_congr rfl fun w hw => h w hw
    rw [run_finalizeBody_of_open hv, run_finalizeBody_of_open hv, run_bind, run_bind, hown]

/-- **The recursion ends**: with room for two calls or more, how much room there is does not
matter. -/
theorem finalizeNetworkAt_eq (depth : ℕ) :
    finalizeNetworkAt (depth + 2) = finalizeBody (pure ⟨⟩) :=
  finalizeBody_eq fun _ hw => run_finalizeBody_of_finalized hw _

theorem finalizeNetwork_eq : finalizeNetwork = finalizeBody (pure ⟨⟩) := finalizeNetworkAt_eq _

/-- A finalised network is finalised again for nothing. -/
theorem run_finalizeNetwork_of_finalized (h : v.securityListsFinalized = true) :
    finalizeNetwork.run v = (.ok ⟨⟩, v) := by
  rw [finalizeNetwork_eq, run_finalizeBody_of_finalized h]

theorem preserves_assertSubnets {P : Vcn → Prop} : Preserves P assertSubnets :=
  preserves_get_bind fun v hv =>
    preserves_ite (fun _ => preserves_pure _) (fun _ => preserves_throw _) v hv

/-- The flow logs of a finalisation leave the network as it is. -/
theorem network_createOwnFlowLogs (v : Vcn) :
    ((createOwnFlowLogs (pure ⟨⟩)).after v).network = v.network := by
  rw [createOwnFlowLogs, after, run_get_bind]
  split
  · cases v.compartmentId with
    | none => rfl
    | some compartmentId =>
      refine after_bind (P := fun w : Vcn => w.network = v.network) ?_
        fun _ => preserves_modify fun _ hw => hw
      by_cases hvalid : v.flowLogsRetention ∈ VALID_RETENTION
      · exact network_init hvalid (network_withLogGroup _ _)
      · rw [after, run_init_of_invalid hvalid]
  · rfl

/-- **Finalisation moves the network by one transition.** -/
theorem network_finalizeNetwork (v : Vcn) :
    (finalizeNetwork.after v).network = v.network.finalize := by
  rw [finalizeNetwork_eq, after]
  cases h : v.securityListsFinalized with
  | true => rw [run_finalizeBody_of_finalized h, NetworkState.finalize_of_finalized h]
  | false =>
    rw [run_finalizeBody_of_open h, NetworkState.finalize_of_open h, ← network_materialized]
    exact after_bind (P := fun w : Vcn => w.network = v.materialized.network)
      (network_createOwnFlowLogs _) fun _ => preserves_assertSubnets

/-! ## Exports -/

theorem preserves_requireSubnet {P : Vcn → Prop} (tier : SubnetTier) :
    Preserves P (requireSubnet tier) := by
  refine preserves_get_bind fun v hv => ?_
  cases v.subnet tier <;> exact hv

theorem preserves_getSecurityList {P : Vcn → Prop} (tier : SubnetTier) :
    Preserves P (getSecurityList tier) :=
  preserves_get_bind fun v hv => preserves_attempt _ v hv

section Outputs

variable {P : Vcn → Prop}

theorem preserves_pulumiExport (hP : ∀ (v : Vcn) outputs, P v → P { v with outputs := outputs })
    (key : String) (value : Input) : Preserves P (pulumiExport key value) :=
  preserves_modify fun v hv => hP v _ hv

theorem preserves_exportDrg (hP : ∀ (v : Vcn) outputs, P v → P { v with outputs := outputs }) :
    Preserves P exportDrg := by
  refine preserves_get_bind fun v hv => ?_
  cases v.drg with
  | none => exact hv
  | some _ =>
    cases v.drgAttachment with
    | none => exact hv
    | some _ => exact hP _ _ (hP _ _ hv)

theorem preserves_exportFlowLogs (hP : ∀ (v : Vcn) outputs, P v → P { v with outputs := outputs }) :
    Preserves P exportFlowLogs := by
  refine preserves_get_bind fun v hv => ?_
  cases v.flowLogs with
  | none => exact hv
  | some _ => exact hP _ _ hv

/-- **Exporting finalises and writes outputs**, and does nothing else. -/
theorem after_exportOutputs (hP : ∀ (v : Vcn) outputs, P v → P { v with outputs := outputs })
    (h : P (finalizeNetwork.after v)) : P (exportOutputs.after v) := by
  refine after_bind h fun _ => ?_
  repeat' first
    | exact preserves_exportFlowLogs hP
    | exact preserves_exportDrg hP
    | exact preserves_pulumiExport hP _ _
    | exact preserves_requireSubnet _
    | exact preserves_getSecurityList _
    | exact preserves_get
    | refine Preserves.bind ?_ fun _ => ?_

end Outputs

/-- **Exporting finalises**, and changes the network no further. -/
theorem network_exportOutputs (v : Vcn) :
    (exportOutputs.after v).network = v.network.finalize :=
  after_exportOutputs (P := fun w : Vcn => w.network = v.network.finalize) (fun _ _ hw => hw)
    v.network_finalizeNetwork

end Vcn

end CloudSpells
