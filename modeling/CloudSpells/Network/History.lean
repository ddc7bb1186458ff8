import CloudSpells.Network.State

/-!
# Network/History — every sequence of calls on a VCN

A `VcnCall` is a call a program may make on a live VCN: the three that add rules,
`finalize_network`, `export`, and the construction of a `VcnFlowLogs`.  A history is a sequence of
them, with every raise caught.

Each call is one transition of the network (`network_exec_vcnCall`), so a history is a run of the
transitions (`network_replay`).  From this follows what a history leaves: nothing is created before
the first call that finalises, and that call creates everything, once, from the rules recorded until
then (`history_of_init`).
-/

namespace CloudSpells

open Machinery Machinery.Exec

/-- A call on a live VCN. -/
inductive VcnCall
  | addSecurityListRules (rules : RuleLists)
  | addUniqueSecurityListRules (fingerprint : String) (rules : RuleLists)
  | addSecurityRules (rules : SecurityRules)
  | finalizeNetwork
  | exportOutputs
  | vcnFlowLogs (args : FlowLogsArgs)

namespace VcnCall

/-- Make the call. -/
def exec : VcnCall → Py Vcn Unit
  | addSecurityListRules rules => Vcn.addSecurityListRules rules
  | addUniqueSecurityListRules fingerprint rules => Vcn.addUniqueSecurityListRules fingerprint rules
  | addSecurityRules rules => Vcn.addSecurityRules rules
  | finalizeNetwork => Vcn.finalizeNetwork
  | exportOutputs => Vcn.exportOutputs
  | vcnFlowLogs args => VcnFlowLogs.init Vcn.finalizeNetwork args >>= fun _ => pure ⟨⟩

/-- The rules a call adds, where the label of the service network is `svcCidrBlock`. -/
def ruleCall (svcCidrBlock : String) : VcnCall → Option RuleCall
  | addSecurityListRules rules => some (.plain rules)
  | addUniqueSecurityListRules fingerprint rules => some (.unique fingerprint rules)
  | addSecurityRules rules => some (.plain (Vcn.translateRules svcCidrBlock rules))
  | _ => none

/-- The calls that finalise the network: a `VcnFlowLogs` does unless its retention is refused. -/
def finalizes : VcnCall → Bool
  | finalizeNetwork | exportOutputs => true
  | vcnFlowLogs args => args.retentionDuration ∈ VALID_RETENTION
  | _ => false

end VcnCall

/-! ## The run of a history -/

namespace NetworkState

/-- One call. -/
def step (n : NetworkState) (c : VcnCall) : NetworkState :=
  match c.ruleCall n.base.svcCidrBlock with
  | some r => n.call r
  | none => if c.finalizes then n.finalize else n

/-- The rules the calls add. -/
def ruleCalls (n : NetworkState) (calls : List VcnCall) : List RuleCall :=
  calls.filterMap fun c => c.ruleCall n.base.svcCidrBlock

theorem step_of_open {n : NetworkState} (h : n.finalized = false) {c : VcnCall}
    (hc : c.finalizes = false) : n.step c = n.record (n.ruleCalls [c]) := by
  unfold step ruleCalls
  cases hr : c.ruleCall n.base.svcCidrBlock with
  | none => simp [hr, hc]
  | some r => simp [hr, call_of_open h]

/-- **An open network records**: a history without a finalising call is the run of the rules it
adds. -/
theorem foldl_step_of_open {n : NetworkState} (h : n.finalized = false) {calls : List VcnCall}
    (hcalls : ∀ c ∈ calls, c.finalizes = false) :
    calls.foldl step n = n.record (n.ruleCalls calls) := by
  induction calls generalizing n with
  | nil => simp [ruleCalls]
  | cons c calls ih =>
    have hc : (n.record (n.ruleCalls [c])).finalized = false := h
    rw [List.foldl_cons, step_of_open h (hcalls c (by simp)),
      ih hc fun b hb => hcalls b (List.mem_cons_of_mem _ hb)]
    have happ : n.ruleCalls (c :: calls) = n.ruleCalls [c] ++ n.ruleCalls calls := by
      rw [ruleCalls, ← List.singleton_append, List.filterMap_append]
      rfl
    rw [happ, record_append]
    rfl

theorem step_of_finalizes {c : VcnCall} (hc : c.finalizes = true) {n : NetworkState} :
    n.step c = n.finalize := by
  have hrules : c.ruleCall n.base.svcCidrBlock = none := by
    cases c <;> first | rfl | exact absurd hc (by simp [VcnCall.finalizes])
  rw [step, hrules]
  exact if_pos hc

/-- **A finalised network is frozen**: a call changes nothing but the fingerprints. -/
theorem step_of_finalized {n : NetworkState} (h : n.finalized = true) (c : VcnCall) :
    ∃ fingerprints, n.step c = { n with fingerprints := fingerprints } := by
  unfold step
  cases c.ruleCall n.base.svcCidrBlock with
  | none =>
    refine ⟨n.fingerprints, ?_⟩
    dsimp only
    rw [finalize_of_finalized h, ite_self]
  | some r =>
    dsimp only
    rw [call, if_pos h]
    split
    · exact ⟨n.fingerprints, rfl⟩
    · cases r.fingerprint with
      | none => exact ⟨n.fingerprints, rfl⟩
      | some fp => exact ⟨insert fp n.fingerprints, rfl⟩

theorem foldl_step_of_finalized {n : NetworkState} (h : n.finalized = true) (calls : List VcnCall) :
    ∃ fingerprints, calls.foldl step n = { n with fingerprints := fingerprints } := by
  induction calls generalizing n with
  | nil => exact ⟨n.fingerprints, rfl⟩
  | cons c calls ih =>
    obtain ⟨fps, hfps⟩ := step_of_finalized h c
    obtain ⟨fps', hfps'⟩ := ih (n := { n with fingerprints := fps }) h
    exact ⟨fps', by rw [List.foldl_cons, hfps, hfps']⟩

end NetworkState

/-- **A call is one transition of the network.** -/
theorem network_exec_vcnCall (v : Vcn) (c : VcnCall) :
    (c.exec.after v).network = v.network.step c := by
  cases c with
  | addSecurityListRules rules => exact v.network_exec (.plain rules)
  | addUniqueSecurityListRules fingerprint rules => exact v.network_exec (.unique fingerprint rules)
  | addSecurityRules rules =>
    exact v.network_exec (.plain (Vcn.translateRules v.svcCidrBlock rules))
  | finalizeNetwork => exact v.network_finalizeNetwork
  | exportOutputs => exact v.network_exportOutputs
  | vcnFlowLogs args =>
    refine after_bind (P := fun w : Vcn => w.network = v.network.step (.vcnFlowLogs args)) ?_
      fun _ => preserves_pure _
    by_cases hvalid : args.retentionDuration ∈ VALID_RETENTION
    · have hfin := (VcnFlowLogs.withLogGroup args v).network_finalizeNetwork
      rw [network_withLogGroup] at hfin
      simpa [NetworkState.step, VcnCall.ruleCall, VcnCall.finalizes, hvalid] using
        network_init hvalid hfin
    · rw [after, run_init_of_invalid hvalid]
      simp [NetworkState.step, VcnCall.ruleCall, VcnCall.finalizes, hvalid]

/-- **A history is a run of the transitions.** -/
theorem network_replay (v : Vcn) (calls : List VcnCall) :
    (replay VcnCall.exec calls v).network = calls.foldl NetworkState.step v.network := by
  induction calls generalizing v with
  | nil => rfl
  | cons c calls ih => rw [replay_cons, ih, network_exec_vcnCall, List.foldl_cons]

/-! ## What calls raise -/

/-- The rules of an open network are never refused. -/
theorem outcome_exec_of_open {v : Vcn} (h : v.securityListsFinalized = false) {c : VcnCall}
    {r : RuleCall} (hr : c.ruleCall v.svcCidrBlock = some r) : c.exec.outcome v = .ok ⟨⟩ := by
  have hexec : c.exec.run v = r.exec.run v := by
    cases c with
    | addSecurityListRules rules => obtain rfl := Option.some.inj hr; rfl
    | addUniqueSecurityListRules fingerprint rules => obtain rfl := Option.some.inj hr; rfl
    | addSecurityRules rules => obtain rfl := Option.some.inj hr; rfl
    | finalizeNetwork => cases hr
    | exportOutputs => cases hr
    | vcnFlowLogs args => cases hr
  rw [outcome, hexec, run_exec_of_open h]

section Recursion

private theorem avoids_addSecurityListRules (rules : RuleLists) :
    Avoids .recursionError (Vcn.addSecurityListRules rules) :=
  avoids_get_bind fun _ => avoids_ite (fun _ => avoids_throw (by simp)) fun _ => avoids_modify _

private theorem avoids_init {finalize : Py Vcn Unit} (h : Avoids .recursionError finalize)
    (args : FlowLogsArgs) : Avoids .recursionError (VcnFlowLogs.init finalize args) := by
  refine avoids_get_bind fun v => avoids_ite (fun _ => avoids_throw (by simp)) fun _ => ?_
  refine Avoids.bind (avoids_modify _) fun _ => Avoids.bind h fun _ => Avoids.bind ?_ fun _ =>
    avoids_pure _
  refine avoids_get_bind fun w => avoids_ite (fun _ => avoids_throw (by simp)) fun _ => ?_
  refine avoids_ite (fun _ => avoids_throw (by simp)) fun _ => ?_
  exact Avoids.bind (avoids_modify _) fun _ => avoids_pure _

private theorem getAttr_ne {α : Type} (name : String) (a : Option α) :
    getAttr name a ≠ .error .recursionError := by
  cases a <;> simp [getAttr]

private theorem avoids_finalizeNetwork : Avoids .recursionError Vcn.finalizeNetwork := by
  rw [Vcn.finalizeNetwork_eq]
  refine avoids_get_bind fun v => avoids_ite (fun _ => avoids_pure _) fun _ => ?_
  refine Avoids.bind (avoids_get_bind fun _ => avoids_addSecurityListRules _) fun _ => ?_
  refine Avoids.bind (avoids_each fun _ _ => avoids_modify _) fun _ => ?_
  refine Avoids.bind (avoids_each fun _ _ => avoids_get_bind fun _ =>
    Avoids.bind (avoids_attempt (getAttr_ne _ _)) fun _ => avoids_modify _) fun _ => ?_
  refine Avoids.bind (avoids_modify _) fun _ => Avoids.bind ?_ fun _ => ?_
  · refine avoids_get_bind fun w => avoids_ite (fun _ => ?_) fun _ => avoids_pure _
    cases w.compartmentId with
    | none => exact avoids_throw (by simp)
    | some _ => exact Avoids.bind (avoids_init (avoids_pure _) _) fun _ => avoids_modify _
  · exact avoids_get_bind fun _ => avoids_ite (fun _ => avoids_pure _)
      fun _ => avoids_throw (by simp)

private theorem avoids_exportOutputs : Avoids .recursionError Vcn.exportOutputs := by
  have hsubnet : ∀ tier, Avoids .recursionError (Vcn.requireSubnet tier) := fun tier => by
    refine avoids_get_bind fun v => ?_
    cases v.subnet tier with
    | none => exact avoids_throw (by simp)
    | some _ => exact avoids_pure _
  have hlist : ∀ tier, Avoids .recursionError (Vcn.getSecurityList tier) := fun tier =>
    avoids_get_bind fun _ => avoids_attempt (getAttr_ne _ _)
  have hdrg : Avoids .recursionError Vcn.exportDrg := avoids_get_bind fun v => by
    cases v.drg <;> cases v.drgAttachment <;> exact avoids_pure _
  have hlogs : Avoids .recursionError Vcn.exportFlowLogs := avoids_get_bind fun v => by
    cases v.flowLogs <;> exact avoids_pure _
  refine Avoids.bind avoids_finalizeNetwork fun _ => ?_
  repeat' first
    | exact hlogs
    | exact hdrg
    | exact avoids_modify _
    | exact hsubnet _
    | exact hlist _
    | refine avoids_get_bind fun _ => ?_
    | refine Avoids.bind ?_ fun _ => ?_

/-- **No call on a VCN recurses without end.** -/
theorem avoids_recursionError (c : VcnCall) : Avoids .recursionError c.exec := by
  cases c with
  | addSecurityListRules rules => exact avoids_addSecurityListRules rules
  | addUniqueSecurityListRules fingerprint rules =>
    exact avoids_get_bind fun _ => avoids_ite (fun _ => avoids_pure _) fun _ =>
      Avoids.bind (avoids_modify _) fun _ => avoids_addSecurityListRules rules
  | addSecurityRules rules => exact avoids_get_bind fun _ => avoids_addSecurityListRules _
  | finalizeNetwork => exact avoids_finalizeNetwork
  | exportOutputs => exact avoids_exportOutputs
  | vcnFlowLogs args =>
    exact Avoids.bind (avoids_init avoids_finalizeNetwork args) fun _ => avoids_pure _

end Recursion

/-! ## What a history leaves -/

/-- The security lists and subnets of a VCN: four and four. -/
def networkResources (namer : ResourceNamer) : List Resource :=
  tiersInOrder.map (fun tier => vcnChild namer .securityList s!"sl-{tier.str}") ++
    tiersInOrder.map fun tier => vcnChild namer .subnet s!"sn-{tier.str}"

/-- A VCN as constructed has no security lists or subnets. -/
theorem resources_fresh {cloud : Cloud} {base : VcnBase} (h : base.Built cloud) :
    base.fresh.network.resources = [] := by
  have hregistered : ∀ r ∈ baseResources base, r.isNetwork = false := by
    rw [baseResources, h.drg_eq, h.drgAttachment_eq, h.routeTable_eq]
    cases base.drgEnabled <;> simp [Resource.isNetwork, vcnChild, createRouteTables]
  exact List.filter_eq_nil_iff.mpr fun r hr => by rw [hregistered r hr]; exact Bool.false_ne_true

/-- A history up to and past the first call that finalises leaves the network that call
materialises. -/
theorem network_replay_finalizing {v : Vcn} (hv : v.securityListsFinalized = false)
    {pre : List VcnCall} {c : VcnCall} (post : List VcnCall)
    (hpre : ∀ b ∈ pre, b.finalizes = false) (hc : c.finalizes = true) :
    ∃ fingerprints, (replay VcnCall.exec (pre ++ c :: post) v).network =
      { (v.network.record (v.network.ruleCalls pre)).materialize with
        fingerprints := fingerprints } := by
  have hopen : (v.network.record (v.network.ruleCalls pre)).finalized = false := hv
  rw [network_replay, List.foldl_append, NetworkState.foldl_step_of_open hv hpre, List.foldl_cons,
    NetworkState.step_of_finalizes hc, NetworkState.finalize_of_open hopen]
  exact NetworkState.foldl_step_of_finalized rfl post

/-- **No rule is lost, doubled or misplaced.**  Before the first call that finalises, nothing is
created and no rule is refused.  That call creates the four security lists and the four subnets, and
no later call creates another; each list holds its seed, what was passed for it in the order of the
calls — under a fingerprint, what was passed first — and its baseline.  The finalisation inside a
finalisation ends. -/
theorem history_of_init {cloud : Cloud} {args : VcnArgs} {v₀ : Vcn}
    (h : Vcn.init cloud args = .ok v₀) :
    (∀ pre : List VcnCall, (∀ b ∈ pre, b.finalizes = false) →
      (∀ tier, (replay VcnCall.exec pre v₀).subnet tier = none) ∧
      (replay VcnCall.exec pre v₀).registered.filter Resource.isNetwork = [] ∧
      ∀ c r, VcnCall.ruleCall v₀.svcCidrBlock c = some r →
        c.exec.outcome (replay VcnCall.exec pre v₀) = .ok ⟨⟩) ∧
    (∀ (pre : List VcnCall) (c : VcnCall) (post : List VcnCall),
      (∀ b ∈ pre, b.finalizes = false) → c.finalizes = true →
      (replay VcnCall.exec (pre ++ c :: post) v₀).registered.filter Resource.isNetwork =
        networkResources v₀.namer ∧
      ∀ tier, ∃ sl subnet,
        (replay VcnCall.exec (pre ++ c :: post) v₀).securityList tier = some sl ∧
        (replay VcnCall.exec (pre ++ c :: post) v₀).subnet tier = some subnet ∧
        subnet.securityListIds = [sl.resource] ∧
        ∀ d, sl.rules d = seedRules v₀.toVcnBase tier d ++
          writtenRules ∅ (v₀.network.ruleCalls pre) tier d ++
          Vcn.baselineRules v₀.toVcnBase tier d) ∧
    (∀ c : VcnCall, Avoids .recursionError c.exec) ∧
    ∀ depth, Vcn.finalizeNetworkAt (depth + 2) = Vcn.finalizeNetwork := by
  obtain ⟨hbuilt, hv⟩ := built_of_init h
  have hopen := open_of_init h
  have hresources : v₀.network.resources = [] := by rw [hv]; exact resources_fresh hbuilt
  refine ⟨fun pre hpre => ?_, fun pre c post hpre hc => ?_, avoids_recursionError, fun depth => ?_⟩
  · have hnet : (replay VcnCall.exec pre v₀).network =
        v₀.network.record (v₀.network.ruleCalls pre) := by
      rw [network_replay, NetworkState.foldl_step_of_open hopen hpre]
    refine ⟨fun tier => ?_, ?_, fun c r hr => ?_⟩
    · have hsubnet := congrFun (congrArg NetworkState.subnet hnet) tier
      rw [hv] at hsubnet ⊢
      exact hsubnet
    · exact (congrArg NetworkState.resources hnet).trans hresources
    · have hbase : (replay VcnCall.exec pre v₀).toVcnBase = v₀.toVcnBase :=
        congrArg NetworkState.base hnet
      have hfinalized := (congrArg NetworkState.finalized hnet).trans hopen
      exact outcome_exec_of_open hfinalized (by rw [hbase]; exact hr)
  · obtain ⟨fps, hnet⟩ := network_replay_finalizing hopen post hpre hc
    refine ⟨?_, fun tier => ⟨_, _, congrFun (congrArg NetworkState.securityList hnet) tier,
      congrFun (congrArg NetworkState.subnet hnet) tier, rfl, fun d => ?_⟩⟩
    · have hmade := congrArg NetworkState.resources hnet
      have hmap : (v₀.network.record (v₀.network.ruleCalls pre)).materialize.resources =
          v₀.network.resources ++ networkResources v₀.namer := List.append_assoc _ _ _
      rw [hresources, List.nil_append] at hmap
      exact hmade.trans hmap
    · rw [hv]
      cases d <;> rfl
  · rw [Vcn.finalizeNetworkAt_eq, Vcn.finalizeNetwork_eq]

/-- An ingress rule of the private tier, passed twice under one fingerprint, is there once. -/
theorem history_of_init_default :
    ∃ sl, (replay VcnCall.exec
      [.addUniqueSecurityListRules "app" (.single .priv .ingress [.tcp 8080 "10.0.0.0/18" "App"]),
       .addUniqueSecurityListRules "app" (.single .priv .ingress [.tcp 8080 "10.0.0.0/18" "App"]),
       .vcnFlowLogs { name := "audit", stackName := "dev" }, .exportOutputs]
      defaultBase.fresh).securityList .priv = some sl ∧
      sl.rules .ingress = [.tcp 8080 "10.0.0.0/18" "App"] := by
  have hmade := (history_of_init init_default).2.1
    [.addUniqueSecurityListRules "app" (.single .priv .ingress [.tcp 8080 "10.0.0.0/18" "App"]),
     .addUniqueSecurityListRules "app" (.single .priv .ingress [.tcp 8080 "10.0.0.0/18" "App"])]
    (.vcnFlowLogs { name := "audit", stackName := "dev" }) [.exportOutputs]
    (by simp [VcnCall.finalizes]) rfl
  obtain ⟨sl, -, hsl, -, -, hrules⟩ := hmade.2 .priv
  exact ⟨sl, hsl, hrules .ingress⟩

/-- Flow logs whose retention is refused create nothing, though they are the first to finalise. -/
theorem refused_flowLogs_default :
    Vcn.init bundleCloud defaultArgs = .ok defaultBase.fresh ∧
      let v := replay VcnCall.exec
        [.vcnFlowLogs { name := "audit", stackName := "dev", retentionDuration := 45 }]
        defaultBase.fresh
      v.registered.filter Resource.isNetwork = [] ∧ ∀ tier, v.subnet tier = none :=
  ⟨init_default, by decide, fun _ => rfl⟩

end CloudSpells
