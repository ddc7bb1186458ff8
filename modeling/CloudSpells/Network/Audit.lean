import CloudSpells.Network.Ownership

/-!
# Network/Audit — the flow logs a VCN builds for itself

`finalize_network` sets its flag before it builds the flow logs, since their constructor calls it
again.  Where that constructor is refused, the flag stays: the next call finds a finalised network
and returns, and no flow logs are ever built.

`concluded_iff` says which VCNs are out of that danger: those with a retention the log service
accepts.
-/

namespace CloudSpells

open Machinery Machinery.Exec

/-- A log group, and a log in it for each of the four subnets of the VCN, all of them registered. -/
structure VcnFlowLogs.Covers (f : VcnFlowLogs) (v : Vcn) : Prop where
  namedBy : f.NamedBy v.namer
  log_eq : ∀ tier, ∃ subnet log, v.subnet tier = some subnet ∧ f.flowLog tier = some log ∧
    log.logGroupId = f.logGroup ∧ log.subnetId = subnet.resource
  registered : ∀ r ∈ f.resources, r ∈ v.registered

/-- The two calls by which a program concludes a VCN. -/
def VcnCall.concludes : VcnCall → Bool
  | finalizeNetwork | exportOutputs => true
  | _ => false

namespace Vcn

/-- The VCN has its flow logs. -/
def Audited (v : Vcn) : Prop := ∃ f, v.flowLogs = some f ∧ f.Covers v

/-- The log group of the flow logs is among the outputs. -/
def AuditExported (v : Vcn) : Prop :=
  ∃ f, v.flowLogs = some f ∧ v.outputs "network_audit_log_group_id" = some (.id f.logGroup)

/-- What a concluding call that returned leaves, as `finalize_network` and `export` document it. -/
def Concluded (c : VcnCall) (v : Vcn) : Prop :=
  v.Audited ∧ (c = .exportOutputs → v.AuditExported)

end Vcn

/-! ## Building them -/

namespace VcnFlowLogs

/-- The flow logs these arguments make where there are four subnets. -/
def ofSubnets (args : FlowLogsArgs) (compartmentId : Option String) (subnet : SubnetTier → Subnet) :
    VcnFlowLogs where
  namer := namerOf args
  compartmentId := args.compartmentId.or compartmentId
  retentionDuration := args.retentionDuration
  logGroup := child (namerOf args) .logGroup "network-audit"
  flowLog := fun tier => some (flowLogOf (namerOf args) args.retentionDuration tier (subnet tier))

variable {v : Vcn} {args : FlowLogsArgs} {subnet : SubnetTier → Subnet}

/-- Where there are four subnets, there are four logs. -/
theorem run_createFlowLogs (args : FlowLogsArgs)
    (hsubnet : ∀ tier, v.subnet tier = some (subnet tier)) :
    (createFlowLogs (namerOf args) args.retentionDuration).run v =
      (.ok (ofSubnets args v.compartmentId subnet).flowLog,
        { v with registered := v.registered ++ (tiersInOrder.filterMap
          (ofSubnets args v.compartmentId subnet).flowLog).map (·.resource) }) := by
  rw [createFlowLogs, run_get_bind]
  simp only [hsubnet]
  rfl

/-- **Flow logs of an accepted retention are built.** -/
theorem run_init_of_valid (args : FlowLogsArgs)
    (hsubnet : ∀ tier, v.subnet tier = some (subnet tier))
    (hvalid : args.retentionDuration ∈ VALID_RETENTION) :
    (init (pure ⟨⟩) args).run v = (.ok (ofSubnets args v.compartmentId subnet),
      { v with
        registered := v.registered ++ (ofSubnets args v.compartmentId subnet).resources }) := by
  have hsubnet' : ∀ tier, (withLogGroup args v).subnet tier = some (subnet tier) := hsubnet
  have hlogs := run_createFlowLogs args hsubnet'
  rw [init, run_get_bind, if_neg (by simpa using hvalid), run_modify_bind]
  refine (run_bind_ok hlogs).trans (Prod.ext rfl ?_)
  simp only [run_pure, withLogGroup, resources, List.append_assoc]
  rfl

end VcnFlowLogs

namespace Vcn

/-- The VCN with flow logs of its own. -/
def withFlowLogs (f : VcnFlowLogs) (v : Vcn) : Vcn :=
  { v with registered := v.registered ++ f.resources, flowLogs := some f }

/-- Nothing stands in the way of the flow logs of a VCN. -/
structure Auditable (base : VcnBase) : Prop where
  enabled : base.flowLogsEnabled = true
  retention : base.flowLogsRetention ∈ VALID_RETENTION
  compartment : base.compartmentId.isSome

variable {v : Vcn}

/-- **The first finalisation builds them**, where nothing stands in the way. -/
theorem exists_run_finalizeNetwork (hopen : v.securityListsFinalized = false)
    (haudit : Auditable v.toVcnBase) :
    ∃ v', finalizeNetwork.run v = (.ok ⟨⟩, v') ∧ v'.toVcnBase = v.toVcnBase ∧ v'.Audited := by
  obtain ⟨compartmentId, hid⟩ := Option.isSome_iff_exists.mp haudit.compartment
  have hsubnet : ∀ tier, ∃ subnet, v.materialized.subnet tier = some subnet := fun _ => ⟨_, rfl⟩
  choose subnet hsubnet using hsubnet
  have hinit := VcnFlowLogs.run_init_of_valid (ownFlowLogsArgs v.toVcnBase compartmentId) hsubnet
    haudit.retention
  set f := VcnFlowLogs.ofSubnets (ownFlowLogsArgs v.toVcnBase compartmentId)
    v.materialized.compartmentId subnet
  have hown : (createOwnFlowLogs (pure ⟨⟩)).run v.materialized =
      (.ok ⟨⟩, v.materialized.withFlowLogs f) := by
    have hbase : v.materialized.toVcnBase = v.toVcnBase := rfl
    rw [createOwnFlowLogs, run_get_bind, hbase, if_pos haudit.enabled, hid]
    exact run_bind_ok hinit
  refine ⟨v.materialized.withFlowLogs f, ?_, rfl, f, rfl, ?_⟩
  · have hall : ∀ tier, ((v.materialized.withFlowLogs f).subnet tier).isSome := fun _ => rfl
    rw [finalizeNetwork_eq, run_finalizeBody_of_open hopen, run_bind_ok hown, assertSubnets,
      run_get_bind, if_pos hall, run_pure]
  · refine ⟨VcnFlowLogs.namedBy_of_init hinit, fun tier => ?_, fun r hr => ?_⟩
    · exact ⟨_, _, hsubnet tier, rfl, rfl, rfl⟩
    · exact List.mem_append_right _ hr

/-- **…and where something does, it leaves the network finalised without them.** -/
theorem flowLogs_after_finalizeNetwork (hopen : v.securityListsFinalized = false)
    (hlogs : v.flowLogsEnabled = true) (haudit : ¬ Auditable v.toVcnBase) :
    (finalizeNetwork.after v).securityListsFinalized = true ∧
      (finalizeNetwork.after v).flowLogs = v.flowLogs := by
  have hbase : v.materialized.toVcnBase = v.toVcnBase := rfl
  have hraise : ∃ e, (createOwnFlowLogs (pure ⟨⟩)).run v.materialized =
      (.error e, v.materialized) := by
    rw [createOwnFlowLogs, run_get_bind, hbase, if_pos hlogs]
    cases hid : v.compartmentId with
    | none => exact ⟨_, rfl⟩
    | some compartmentId =>
      have hinvalid :
          (ownFlowLogsArgs v.toVcnBase compartmentId).retentionDuration ∉ VALID_RETENTION :=
        fun hvalid => haudit ⟨hlogs, hvalid, by rw [hid]; rfl⟩
      exact ⟨_, run_bind_error (run_init_of_invalid hinvalid)⟩
  obtain ⟨e, hraise⟩ := hraise
  have hafter : finalizeNetwork.after v = v.materialized := by
    rw [after, finalizeNetwork_eq, run_finalizeBody_of_open hopen, run_bind_error hraise]
  rw [hafter]
  exact ⟨rfl, rfl⟩

/-! ## Exporting them -/

/-- Exporting the flow logs publishes those there are. -/
theorem returns_exportFlowLogs :
    Returns (fun v' : Vcn => v'.Audited → v'.AuditExported) exportFlowLogs := by
  intro v _ v' h haudited
  obtain ⟨f, hf, -⟩ := haudited
  rw [exportFlowLogs, run_get_bind] at h
  cases hlogs : v.flowLogs with
  | none =>
    rw [hlogs] at h
    obtain ⟨-, rfl⟩ := Prod.mk.inj h
    cases hlogs.symm.trans hf
  | some g =>
    simp only [hlogs, pulumiExport, run_modify] at h
    obtain ⟨-, rfl⟩ := Prod.mk.inj h
    exact ⟨g, rfl, by simp only [Function.update_self]⟩

/-- **An export that returned published what flow logs there are**: that is the last thing it
does. -/
theorem returns_exportOutputs :
    Returns (fun v' : Vcn => v'.Audited → v'.AuditExported) exportOutputs := by
  repeat' first
    | exact returns_exportFlowLogs
    | refine Returns.bind fun _ => ?_

/-! ## Every run of the two calls -/

/-- The outputs are no part of it. -/
theorem Audited.setOutputs (h : v.Audited) (outputs : String → Option Input) :
    Audited { v with outputs := outputs } := by
  obtain ⟨f, hf, hcovers⟩ := h
  exact ⟨f, hf, hcovers.namedBy, hcovers.log_eq, hcovers.registered⟩

/-- An open network, or one with its flow logs. -/
structure Auditing (base : VcnBase) (v : Vcn) : Prop where
  base_eq : v.toVcnBase = base
  audited : v.securityListsFinalized = true → v.Audited

/-- **Finalising either leaves one with its flow logs**… -/
theorem Auditing.after_finalizeNetwork {base : VcnBase} (haudit : Auditable base)
    (h : v.Auditing base) :
    (finalizeNetwork.after v).toVcnBase = base ∧ (finalizeNetwork.after v).Audited := by
  obtain ⟨rfl, haudited⟩ := h
  cases hfinal : v.securityListsFinalized with
  | false =>
    obtain ⟨v', hrun, hbase, hv'⟩ := exists_run_finalizeNetwork hfinal haudit
    rw [after, hrun]
    exact ⟨hbase, hv'⟩
  | true =>
    rw [after, run_finalizeNetwork_of_finalized hfinal]
    exact ⟨rfl, haudited hfinal⟩

/-- …and so does exporting. -/
theorem Auditing.after_concludes {base : VcnBase} (haudit : Auditable base) (h : v.Auditing base)
    {c : VcnCall} (hc : c.concludes = true) :
    (c.exec.after v).toVcnBase = base ∧ (c.exec.after v).Audited := by
  have hfinalize := h.after_finalizeNetwork haudit
  cases c with
  | finalizeNetwork => exact hfinalize
  | exportOutputs =>
    exact after_exportOutputs (P := fun w : Vcn => w.toVcnBase = base ∧ w.Audited)
      (fun _ outputs hw => ⟨hw.1, hw.2.setOutputs outputs⟩) hfinalize
  | addSecurityListRules _ => cases hc
  | addUniqueSecurityListRules _ _ => cases hc
  | addSecurityRules _ => cases hc
  | vcnFlowLogs _ => cases hc

theorem Auditing.replay {base : VcnBase} (haudit : Auditable base) {calls : List VcnCall}
    (hcalls : ∀ c ∈ calls, c.concludes = true) (h : v.Auditing base) :
    (replay VcnCall.exec calls v).Auditing base := by
  refine preserves_replay (fun c hc w hw => ?_) h
  have hafter := hw.after_concludes haudit (hcalls c hc)
  exact ⟨hafter.1, fun _ => hafter.2⟩

/-- A new VCN keeps what its arguments say of flow logs. -/
theorem flowLogs_of_init {cloud : Cloud} {args : VcnArgs} {v₀ : Vcn}
    (h : Vcn.init cloud args = .ok v₀) : v₀.flowLogsEnabled = args.flowLogs ∧
      v₀.flowLogsRetention = args.flowLogsRetention ∧
        v₀.compartmentId = some args.compartmentId := by
  cases hsplit : splitTiers (strOr args.cidrBlock "10.0.0.0/18") with
  | error e =>
    simp only [Vcn.init, VcnBase.init, hsplit, error_bind] at h
    cases h
  | ok cidrs =>
    simp only [Vcn.init, VcnBase.init, hsplit, ok_bind] at h
    obtain rfl := Except.ok.inj h
    exact ⟨rfl, rfl, rfl⟩

end Vcn

/-- **Finalisation with flow logs is all or nothing exactly where nothing stands in the way.**
For a VCN built with `flow_logs=True`: in every run of `finalize_network` and `export`, raises
caught, a call that returns leaves the VCN with its log group and its four logs, and the log group
exported if the call is `export`, if and only if the log service accepts the retention. -/
theorem concluded_iff {cloud : Cloud} {args : VcnArgs} {v₀ : Vcn}
    (h : Vcn.init cloud args = .ok v₀) (hlogs : args.flowLogs = true) :
    (∀ (calls : List VcnCall) (c : VcnCall), (∀ b ∈ calls, b.concludes = true) →
      c.concludes = true → c.exec.outcome (replay VcnCall.exec calls v₀) = .ok ⟨⟩ →
      Vcn.Concluded c (c.exec.after (replay VcnCall.exec calls v₀))) ↔
    args.flowLogsRetention ∈ VALID_RETENTION := by
  have hopen := open_of_init h
  obtain ⟨henabled, hretention, hcompartment⟩ := Vcn.flowLogs_of_init h
  rw [hlogs] at henabled
  rw [← hretention]
  constructor
  · intro hall
    by_contra hrefused
    have hnot : ¬ Vcn.Auditable v₀.toVcnBase := fun hv => hrefused hv.retention
    obtain ⟨hfinal, hnone⟩ := Vcn.flowLogs_after_finalizeNetwork hopen henabled hnot
    -- The second call finds the network the first one left half made.
    have hsecond : VcnCall.finalizeNetwork.exec.run
        (replay VcnCall.exec [.finalizeNetwork] v₀) = (.ok ⟨⟩, Vcn.finalizeNetwork.after v₀) :=
      Vcn.run_finalizeNetwork_of_finalized hfinal
    obtain ⟨⟨f, hf, -⟩, -⟩ := hall [.finalizeNetwork] .finalizeNetwork (by simp [VcnCall.concludes])
      rfl (congrArg Prod.fst hsecond)
    rw [after, hsecond, hnone, (built_of_init h).2] at hf
    cases hf
  · intro hvalid calls c hcalls hc hok
    have haudit : Vcn.Auditable v₀.toVcnBase := ⟨henabled, hvalid, by rw [hcompartment]; rfl⟩
    have hv₀ : v₀.Auditing v₀.toVcnBase :=
      ⟨rfl, fun hfinal => by rw [hopen] at hfinal; cases hfinal⟩
    have haudited := ((hv₀.replay haudit hcalls).after_concludes haudit hc).2
    refine ⟨haudited, ?_⟩
    rintro rfl
    exact Vcn.returns_exportOutputs _ _ _ (run_of_outcome hok) haudited

/-- A VCN whose flow logs are kept for `retention` days. -/
def auditedArgs (retention : ℤ) : VcnArgs :=
  { defaultArgs with flowLogs := true, flowLogsRetention := retention }

/-- Its attributes. -/
def auditedBase (retention : ℤ) : VcnBase :=
  { defaultBase with flowLogsEnabled := true, flowLogsRetention := retention }

theorem init_audited (retention : ℤ) :
    Vcn.init bundleCloud (auditedArgs retention) = .ok (auditedBase retention).fresh := by
  have hcidr : strOr (auditedArgs retention).cidrBlock "10.0.0.0/18" = "10.0.0.0/18" := rfl
  rw [Vcn.init, VcnBase.init, hcidr, splitTiers_default]
  rfl

/-- For ninety days, the export after a finalisation has its flow logs. -/
theorem concluded_iff_audited : Vcn.Concluded .exportOutputs (VcnCall.exportOutputs.exec.after
    (replay VcnCall.exec [.finalizeNetwork] (auditedBase 90).fresh)) :=
  (concluded_iff (init_audited 90) rfl).mpr (by decide) [.finalizeNetwork] .exportOutputs
    (by decide) rfl rfl

/-- For forty-five days the first finalisation is refused, and the export after it returns without
flow logs. -/
theorem not_concluded_audited :
    Vcn.init bundleCloud (auditedArgs 45) = .ok (auditedBase 45).fresh ∧
    VcnCall.finalizeNetwork.exec.outcome (auditedBase 45).fresh = .error (.valueError
      "retention_duration must be one of [30, 60, 90, 120, 150, 180], got 45") ∧
    VcnCall.exportOutputs.exec.outcome
      (replay VcnCall.exec [.finalizeNetwork] (auditedBase 45).fresh) = .ok ⟨⟩ ∧
    ¬ Vcn.Concluded .exportOutputs (VcnCall.exportOutputs.exec.after
      (replay VcnCall.exec [.finalizeNetwork] (auditedBase 45).fresh)) := by
  refine ⟨init_audited 45, by decide, by decide, fun h => ?_⟩
  obtain ⟨⟨f, hf, -⟩, -⟩ := h
  have hnone : (VcnCall.exportOutputs.exec.after
      (replay VcnCall.exec [.finalizeNetwork] (auditedBase 45).fresh)).flowLogs = none := rfl
  rw [hnone] at hf
  cases hf

end CloudSpells
