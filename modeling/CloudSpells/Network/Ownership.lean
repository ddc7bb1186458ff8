import CloudSpells.Network.History

/-!
# Network/Ownership — what a VCN registers itself

A VCN keeps one list of what was registered through it, its own children and those of the flow logs
built on it.  Whatever is called on it, its own children are those of its constructor and, once it
is finalised, the four security lists and the four subnets (`Vcn.Owned`); and the flow logs it has
built for itself have its own name.
-/

namespace CloudSpells

open Machinery Machinery.Exec

/-! ## Flow logs -/

namespace VcnFlowLogs

/-- What a `VcnFlowLogs` registers: the log group, and a log for each subnet there is. -/
def resources (f : VcnFlowLogs) : List Resource :=
  f.logGroup :: (tiersInOrder.filterMap f.flowLog).map (·.resource)

/-- The flow logs are children of the component of this name. -/
structure NamedBy (namer : ResourceNamer) (f : VcnFlowLogs) : Prop where
  namer_eq : f.namer = namer
  logGroup_eq : f.logGroup = child namer .logGroup "network-audit"
  log_eq : ∀ tier log, f.flowLog tier = some log →
    log.resource = child namer .log s!"flow-log-{tier.str}"

variable {finalize : Py Vcn Unit} {args : FlowLogsArgs} {v v' : Vcn} {f : VcnFlowLogs}

/-- The name of the component these arguments make. -/
def namerOf (args : FlowLogsArgs) : ResourceNamer :=
  { stackName := args.stackName, resourceName := args.name }

/-- **Flow logs that were built** have their own children. -/
theorem namedBy_of_init (h : (init finalize args).run v = (.ok f, v')) :
    f.NamedBy (namerOf args) := by
  rw [init, run_get_bind] at h
  split at h
  · cases (Prod.mk.inj h).1
  · rw [run_modify_bind, run_bind_eq_ok] at h
    obtain ⟨_, v₁, -, h⟩ := h
    rw [run_bind_eq_ok] at h
    obtain ⟨flowLog, v₂, hlogs, h⟩ := h
    obtain ⟨hf, -⟩ := Prod.mk.inj h
    obtain rfl := Except.ok.inj hf
    refine ⟨rfl, rfl, fun tier log hlog => ?_⟩
    rw [createFlowLogs, run_get_bind] at hlogs
    split at hlogs
    · cases (Prod.mk.inj hlogs).1
    · split at hlogs
      · cases (Prod.mk.inj hlogs).1
      · rw [run_modify_bind] at hlogs
        obtain rfl := Except.ok.inj (Prod.mk.inj hlogs).1
        obtain ⟨subnet, -, rfl⟩ := Option.map_eq_some_iff.mp hlog
        rfl

/-- Children of flow logs. -/
def Children (rs : List Resource) : Prop :=
  ∀ r ∈ rs, ∃ namer type suffix, r = child namer type suffix

/-- Building flow logs keeps what registering their children and their finalisation keep. -/
theorem preserves_init {P : Vcn → Prop} (hregister : ∀ (v : Vcn) rs, Children rs → P v →
      P { v with registered := v.registered ++ rs })
    (hfinalize : Preserves P finalize) (args : FlowLogsArgs) :
    Preserves P (init finalize args) := by
  have hlogs : ∀ namer retention, Preserves P (createFlowLogs namer retention) :=
    fun namer retention => preserves_createFlowLogs namer retention fun w rs hrs hw =>
      hregister w rs (fun r hr => ⟨namer, .log, hrs r hr⟩) hw
  refine preserves_get_bind fun v hv => ?_
  refine preserves_ite (P := P) (fun _ => preserves_throw _) (fun _ => ?_) v hv
  refine Preserves.bind (preserves_modify fun w hw => hregister w _ (fun r hr => ?_) hw) fun _ =>
    Preserves.bind hfinalize fun _ => Preserves.bind (hlogs _ _) fun _ => preserves_pure _
  exact ⟨_, _, _, List.mem_singleton.mp hr⟩

end VcnFlowLogs

/-- **The rule of finalisation**: it keeps what creating the network keeps, what building flow logs
keeps, and what keeping them in the VCN keeps. -/
theorem Vcn.preserves_finalizeNetwork {P : Vcn → Prop}
    (hregister : ∀ (v : Vcn) rs, VcnFlowLogs.Children rs → P v →
      P { v with registered := v.registered ++ rs })
    (hmaterialized : ∀ v : Vcn, v.securityListsFinalized = false → P v → P v.materialized)
    (hlogs : ∀ (v v' : Vcn) compartmentId f, P v →
      (VcnFlowLogs.init (pure ⟨⟩) (ownFlowLogsArgs v.toVcnBase compartmentId)).run v =
        (.ok f, v') → P v' → P { v' with flowLogs := some f }) :
    Preserves P finalizeNetwork := by
  have hown : Preserves P (createOwnFlowLogs (pure ⟨⟩)) := by
    refine preserves_get_bind fun v hv => ?_
    split
    · cases v.compartmentId with
      | none => exact hv
      | some compartmentId =>
        have hinit := VcnFlowLogs.preserves_init hregister (preserves_pure ⟨⟩)
          (ownFlowLogsArgs v.toVcnBase compartmentId) v hv
        dsimp only
        rcases hrun : (VcnFlowLogs.init (pure ⟨⟩) (ownFlowLogsArgs v.toVcnBase compartmentId)).run v
          with ⟨_ | f, v'⟩
        · rw [after, hrun] at hinit
          rwa [after, run_bind_error hrun]
        · rw [after, hrun] at hinit
          rw [after, run_bind_ok hrun]
          exact hlogs v v' compartmentId f hv hrun hinit
    · exact hv
  intro v hv
  rw [finalizeNetwork_eq, after]
  cases h : v.securityListsFinalized with
  | true => rwa [run_finalizeBody_of_finalized h]
  | false =>
    rw [run_finalizeBody_of_open h]
    exact after_bind (hown _ (hmaterialized v h hv)) fun _ => preserves_assertSubnets

/-! ## The children of the VCN -/

/-- A child of a VCN, as opposed to a child of flow logs. -/
def Resource.ofVcn (r : Resource) : Bool := r.spell = "custom:network:Vcn"

namespace Vcn

/-- What a VCN registers itself. -/
def ownResources (v : Vcn) : List Resource := v.registered.filter Resource.ofVcn

/-- The children of a VCN, before and after finalisation. -/
def childrenOf (base : VcnBase) (finalized : Bool) : List Resource :=
  baseResources base ++ if finalized then networkResources base.namer else []

/-- The VCN has the children its attributes and its flag say, and flow logs of its own name. -/
structure Owned (base : VcnBase) (v : Vcn) : Prop where
  base_eq : v.toVcnBase = base
  own_eq : v.ownResources = childrenOf base v.securityListsFinalized
  flowLogs_eq : ∀ f, v.flowLogs = some f → f.NamedBy base.namer

variable {base : VcnBase} {v : Vcn}

/-- A VCN as constructed. -/
theorem owned_fresh {cloud : Cloud} (h : base.Built cloud) : base.fresh.Owned base := by
  have hown : ∀ r ∈ baseResources base, r.ofVcn = true := by
    rw [baseResources, h.drg_eq, h.drgAttachment_eq, h.routeTable_eq]
    cases base.drgEnabled <;> simp [Resource.ofVcn, vcnChild, createRouteTables]
  refine ⟨rfl, ?_, fun f hf => by cases hf⟩
  rw [childrenOf, if_neg (by simp [VcnBase.fresh]), List.append_nil]
  exact List.filter_eq_self.mpr hown

/-- Registering children of flow logs adds none to the VCN. -/
theorem Owned.register (h : v.Owned base) {rs : List Resource} (hrs : ∀ r ∈ rs, r.ofVcn = false) :
    Owned base { v with registered := v.registered ++ rs } := by
  refine ⟨h.base_eq, ?_, h.flowLogs_eq⟩
  have hnone : rs.filter Resource.ofVcn = [] := List.filter_eq_nil_iff.mpr (by simpa using hrs)
  rw [ownResources, List.filter_append, hnone, List.append_nil]
  exact h.own_eq

/-- Creating the network adds the security lists and the subnets. -/
theorem Owned.materialized (h : v.Owned base) (hopen : v.securityListsFinalized = false) :
    v.materialized.Owned base := by
  obtain ⟨hbase, hown, hlogs⟩ := h
  subst hbase
  refine ⟨rfl, ?_, hlogs⟩
  have hnew : v.materialized.ownResources = v.ownResources ++ networkResources v.namer := by
    rw [ownResources, Vcn.materialized, List.append_assoc, List.filter_append]
    exact congrArg _ (List.filter_eq_self.mpr (by
      simp [tiersInOrder, Resource.ofVcn, newSecurityList, newSubnet, vcnChild]))
  rw [hnew, hown, hopen]
  simp [childrenOf, Vcn.materialized]

/-! ## Every call keeps it -/

theorem preserves_owned_exec (c : RuleCall) : Preserves (Owned base) c.exec := by
  intro v hv
  cases h : v.securityListsFinalized with
  | false =>
    rw [after, run_exec_of_open h]
    exact ⟨hv.base_eq, hv.own_eq, hv.flowLogs_eq⟩
  | true =>
    rw [after, run_exec_of_finalized h]
    split
    · exact hv
    · cases c.fingerprint with
      | none => exact hv
      | some _ => exact ⟨hv.base_eq, hv.own_eq, hv.flowLogs_eq⟩

theorem preserves_owned_finalizeNetwork : Preserves (Owned base) finalizeNetwork := by
  refine preserves_finalizeNetwork (fun v rs hrs hv => hv.register fun r hr => ?_)
    (fun v hopen hv => hv.materialized hopen) fun v v' w f hv hinit hw => ?_
  · obtain ⟨namer, type, suffix, rfl⟩ := hrs r hr
    rfl
  · refine ⟨hw.base_eq, hw.own_eq, fun g hg => ?_⟩
    obtain rfl := Option.some.inj hg
    have hnamed := VcnFlowLogs.namedBy_of_init hinit
    rwa [← hv.base_eq]

theorem preserves_owned_init (args : FlowLogsArgs) :
    Preserves (Owned base) (VcnFlowLogs.init finalizeNetwork args) := by
  refine VcnFlowLogs.preserves_init (fun v rs hrs hv => hv.register fun r hr => ?_)
    preserves_owned_finalizeNetwork args
  obtain ⟨namer, type, suffix, rfl⟩ := hrs r hr
  rfl

/-- **Every call keeps it**, whether it returns or raises. -/
theorem preserves_owned (c : VcnCall) : Preserves (Owned base) c.exec := by
  cases c with
  | addSecurityListRules rules => exact preserves_owned_exec (.plain rules)
  | addUniqueSecurityListRules fingerprint rules =>
    exact preserves_owned_exec (.unique fingerprint rules)
  | addSecurityRules rules =>
    exact fun v hv => preserves_owned_exec (.plain (translateRules v.svcCidrBlock rules)) v hv
  | finalizeNetwork => exact preserves_owned_finalizeNetwork
  | exportOutputs =>
    exact fun v hv => after_exportOutputs (fun w _ hw => ⟨hw.base_eq, hw.own_eq, hw.flowLogs_eq⟩)
      (preserves_owned_finalizeNetwork v hv)
  | vcnFlowLogs args =>
    exact Preserves.bind (preserves_owned_init args) fun _ => preserves_pure _

/-- **…and so does every history.** -/
theorem owned_replay {cloud : Cloud} {args : VcnArgs} {v₀ : Vcn} (h : Vcn.init cloud args = .ok v₀)
    (calls : List VcnCall) : (replay VcnCall.exec calls v₀).Owned v₀.toVcnBase := by
  obtain ⟨hbuilt, hv⟩ := built_of_init h
  refine preserves_replay (fun c _ => preserves_owned c) ?_
  have hfresh := owned_fresh hbuilt
  rwa [← hv] at hfresh

end Vcn

end CloudSpells
