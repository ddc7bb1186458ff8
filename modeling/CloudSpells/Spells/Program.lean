import CloudSpells.Spells.Groups
import CloudSpells.Spells.Kept

/-!
# Spells/Program — every sequence of spells on one VCN

A `SpellOp` is what a program does with a VCN and the groups on it: build a spell, declare a
relationship, finalise, export.  A program is a sequence of them, with every raise caught.

What an operation passes to the builder is data (`ruleCalls`).  Two facts are proved once for all
the operations: whatever happens, the network moves by the operation's calls (`evolves_exec`), and
by accepted ones unless the operation ends with the builder's refusal; and an operation that returns
has registered them all (`registered_of_run`).
-/

namespace CloudSpells

open Machinery Machinery.Exec

namespace World

/-- Construct a spell on the VCN; the object is not looked at again. -/
def build {α : Type} (m : Py Vcn α) : Py World Unit := do
  let _ ← onVcn m
  pure ⟨⟩

end World

/-- A step of a program. -/
inductive SpellOp
  | nsg (args : NsgArgs)
  | serves (src tgt : String) (port : ℤ) (withSsh : Bool)
  | computeInstance (nsg : Option String) (args : ComputeArgs)
  | bastion (args : BastionArgs)
  | loadBalancer (args : LoadBalancerArgs)
  | internalLoadBalancer (args : LoadBalancerArgs)
  | scalableWorkload (args : ScalableWorkloadArgs)
  | okeCluster (args : OkeArgs)
  | finalizeNetwork
  | exportOutputs

namespace SpellOp

/-- Take the step. -/
def exec : SpellOp → Py World Unit
  | nsg args => World.buildNsg args
  | serves src tgt port withSsh => World.serves src tgt port withSsh
  | computeInstance none args => World.build (ComputeInstance.init none args)
  | computeInstance (some name) args => do
    let nsg ← World.lookup name
    World.build (ComputeInstance.init (some nsg) args)
  | bastion args => World.build (Bastion.init args)
  | loadBalancer args => World.build (LoadBalancer.init args)
  | internalLoadBalancer args => World.build (InternalLoadBalancer.init args)
  | scalableWorkload args => World.build (ScalableWorkload.init args)
  | okeCluster args => World.build (OkeCluster.init args)
  | finalizeNetwork => World.onVcn Vcn.finalizeNetwork
  | exportOutputs => World.onVcn Vcn.exportOutputs

/-- The calls the step's registration method makes. -/
def ruleCalls (w : World) : SpellOp → List RuleCall
  | nsg args => args.ruleCalls w.vcn.toVcnBase
  | serves src tgt port withSsh =>
    match w.nsgs src, w.nsgs tgt with
    | some self, some target => Nsg.relationCalls w.vcn.toVcnBase self target port withSsh
    | _, _ => []
  | computeInstance name args => ComputeInstance.ruleCalls w.vcn.toVcnBase
    (ComputeInstance.resolveSubnet (name.bind w.nsgs) args.subnet)
  | bastion _ => Bastion.ruleCalls
  | loadBalancer args => LoadBalancer.ruleCalls w.vcn.toVcnBase args.backendPort
  | internalLoadBalancer args => InternalLoadBalancer.ruleCalls w.vcn.toVcnBase args.backendPort
  | scalableWorkload args => ScalableWorkload.ruleCalls w.vcn.toVcnBase args.loadBalancerConfig
  | okeCluster args => OkeCluster.ruleCalls w.vcn.toVcnBase (args.kubectlAllowedCidrs.getD [])
  | finalizeNetwork | exportOutputs => []

/-- A compute instance does not call its registration method on a finalised VCN. -/
def skips (w : World) : SpellOp → Bool
  | computeInstance _ _ => w.vcn.isFinalized
  | _ => false

/-- The roles of the groups a step builds satisfy `roles`. -/
def RolesIn (roles : Role → Prop) : SpellOp → Prop
  | nsg args => ∀ role, args.role = some role → roles role.role
  | _ => True

/-- **What a step passes to the builder, its spell issues.** -/
theorem issued_of_mem_ruleCalls {op : SpellOp} {w : World} {roles : Role → Prop}
    (hroles : op.RolesIn roles) {c : RuleCall} (h : c ∈ op.ruleCalls w) :
    Issued roles w.vcn.toVcnBase c := by
  cases op with
  | nsg args =>
    simp only [ruleCalls, NsgArgs.ruleCalls] at h
    cases hrole : args.role with
    | none =>
      rw [hrole] at h
      cases h
    | some role =>
      rw [hrole] at h
      exact .nsg (hroles role hrole) h
  | serves src tgt port withSsh =>
    simp only [ruleCalls] at h
    split at h
    · rename_i self target _ _
      simp only [Nsg.relationCalls] at h
      split at h
      · exact .serves h
      · cases h
    · cases h
  | computeInstance name args => exact .computeInstance h
  | bastion args => exact .bastion h
  | loadBalancer args => exact .loadBalancer h
  | internalLoadBalancer args => exact .internalLoadBalancer h
  | scalableWorkload args => exact .scalableWorkload h
  | okeCluster args => exact .okeCluster h
  | finalizeNetwork => cases h
  | exportOutputs => cases h

end SpellOp

/-! ## What a step does to the network -/

section Step

variable {allowed : NetworkState → RuleCall → Prop} {n : NetworkState} {E : PyError → Prop}

/-- A world whose network evolved from `n`. -/
def World.EvolvedFrom (allowed : NetworkState → RuleCall → Prop) (n : NetworkState) (w : World) :
    Prop := w.vcn.EvolvedFrom allowed n

theorem World.preservesUnless_onVcn {α : Type} {m : Py Vcn α}
    (h : PreservesUnless E (Vcn.EvolvedFrom allowed n) m) :
    PreservesUnless E (World.EvolvedFrom allowed n) (World.onVcn m) :=
  PreservesUnless.on (fun _ _ => rfl) h

theorem World.preservesUnless_build {α : Type} {m : Py Vcn α}
    (h : PreservesUnless E (Vcn.EvolvedFrom allowed n) m) :
    PreservesUnless E (World.EvolvedFrom allowed n) (World.build m) :=
  PreservesUnless.bind (preservesUnless_onVcn h) fun _ => (preserves_pure _).unless

/-- The groups are not part of the network. -/
theorem World.preserves_addRuleTo (name : String) (decl : RuleDecl) :
    Preserves (World.EvolvedFrom allowed n) (World.addRuleTo name decl) := by
  refine Preserves.bind (preserves_get_bind fun w hw => ?_) fun _ =>
    Preserves.bind (preserves_attempt _) fun _ => preserves_modify fun _ hw => hw
  cases w.nsgs name <;> exact hw

/-- The calls a step may move the network by: the accepted ones among `calls`, and all of them where
it is free to end with the builder's refusal. -/
def Covers (allowed : NetworkState → RuleCall → Prop) (E : PyError → Prop) (calls : List RuleCall) :
    Prop :=
  ∀ c ∈ calls, ∀ k : NetworkState, k.Accepts c ∨ ¬ E (.runtimeError finalizedMessage) → allowed k c

theorem Nsg.preservesUnless_init {args : NsgArgs} (h : Covers allowed E (args.ruleCalls n.base)) :
    PreservesUnless E (Vcn.EvolvedFrom allowed n) (Nsg.init args) := by
  unfold Nsg.init
  refine PreservesUnless.bind (preserves_attempt _).unless fun _ => ?_
  cases hrole : args.role with
  | none => exact (preserves_pure _).unless
  | some role =>
    refine preservesUnless_get_bind fun v hv => ?_
    have hbase : v.toVcnBase = n.base := hv.base_eq
    rw [hbase]
    refine PreservesUnless.bind (preserves_attempt _).unless fun _ =>
      PreservesUnless.bind (preservesUnless_evolves_register ?_) fun _ => (preserves_pure _).unless
    simpa only [NsgArgs.ruleCalls, hrole, Covers] using h

theorem World.preservesUnless_relate {src tgt : String} {self target : Nsg} {port : ℤ}
    {withSsh : Bool} (h : Covers allowed E (Nsg.relationCalls n.base self target port withSsh)) :
    PreservesUnless E (World.EvolvedFrom allowed n)
      (World.relate src tgt self target port withSsh) := by
  rw [relate_eq]
  refine PreservesUnless.bind (preserves_each fun _ _ => preserves_addRuleTo _ _).unless fun _ =>
    preservesUnless_get_bind fun w hw => ?_
  have hbase : w.vcn.toVcnBase = n.base := hw.base_eq
  rw [hbase]
  exact preservesUnless_onVcn (preservesUnless_evolves_register h)

theorem ComputeInstance.preservesUnless_init {nsg : Option Nsg} {args : ComputeArgs}
    (h : Covers allowed E (ruleCalls n.base (resolveSubnet nsg args.subnet))) :
    PreservesUnless E (Vcn.EvolvedFrom allowed n) (ComputeInstance.init nsg args) := by
  refine preservesUnless_evolves_construct fun _ _ => preservesUnless_get_bind fun v hv => ?_
  have hbase : v.toVcnBase = n.base := hv.base_eq
  rw [hbase]
  split
  · exact (preserves_pure _).unless
  · exact preservesUnless_evolves_register h

theorem Bastion.preservesUnless_init {args : BastionArgs} (h : Covers allowed E ruleCalls) :
    PreservesUnless E (Vcn.EvolvedFrom allowed n) (Bastion.init args) := by
  refine preservesUnless_evolves_construct fun _ _ => preservesUnless_get_bind fun v _ => ?_
  split
  · split
    · exact (preserves_pure _).unless
    · exact (preserves_throw _).unless
  · exact preservesUnless_evolves_register h

/-- The spells that leave it to the builder to refuse their calls. -/
theorem preservesUnless_construct_get_register {α β : Type} {check : Except PyError β}
    (calls : β → VcnBase → List RuleCall) {create : β → Vcn → Except PyError α}
    (h : ∀ checked, check = .ok checked → Covers allowed E (calls checked n.base)) :
    PreservesUnless E (Vcn.EvolvedFrom allowed n) (construct check
      (fun checked => get >>= fun v => register (calls checked v.toVcnBase)) create) :=
  preservesUnless_evolves_construct fun checked hchecked =>
    preservesUnless_evolves_get_register (h checked hchecked)

/-- The backend port a balancer accepts is the one it was given. -/
theorem LoadBalancerArgs.eq_of_check {args : LoadBalancerArgs} {port : ℤ}
    (h : args.check = .ok port) : port = args.backendPort := by
  unfold check at h
  split at h
  · exact (Except.ok.inj h).symm
  · cases h

theorem LoadBalancer.preservesUnless_init {args : LoadBalancerArgs}
    (h : Covers allowed E (ruleCalls n.base args.backendPort)) :
    PreservesUnless E (Vcn.EvolvedFrom allowed n) (LoadBalancer.init args) := by
  refine preservesUnless_construct_get_register (fun port base => ruleCalls base port) ?_
  intro port hport
  rwa [LoadBalancerArgs.eq_of_check hport]

theorem InternalLoadBalancer.preservesUnless_init {args : LoadBalancerArgs}
    (h : Covers allowed E (ruleCalls n.base args.backendPort)) :
    PreservesUnless E (Vcn.EvolvedFrom allowed n) (InternalLoadBalancer.init args) := by
  refine preservesUnless_construct_get_register (fun port base => ruleCalls base port) ?_
  intro port hport
  rwa [LoadBalancerArgs.eq_of_check hport]

theorem ScalableWorkload.preservesUnless_init {args : ScalableWorkloadArgs}
    (h : Covers allowed E (ruleCalls n.base args.loadBalancerConfig)) :
    PreservesUnless E (Vcn.EvolvedFrom allowed n) (ScalableWorkload.init args) :=
  preservesUnless_construct_get_register
    (fun _ base => ruleCalls base args.loadBalancerConfig) fun _ _ => h

theorem OkeCluster.preservesUnless_init {args : OkeArgs}
    (h : Covers allowed E (ruleCalls n.base (args.kubectlAllowedCidrs.getD []))) :
    PreservesUnless E (Vcn.EvolvedFrom allowed n) (OkeCluster.init args) := by
  refine preservesUnless_construct_get_register (fun cidrs base => ruleCalls base cidrs) ?_
  intro cidrs hcidrs
  rwa [← Except.ok.inj hcidrs]

/-- A step runs as a method that moves the network by its calls. -/
private theorem SpellOp.exists_preservesUnless (op : SpellOp) (w : World)
    (h : Covers allowed E (op.ruleCalls w)) : ∃ m : Py World Unit, op.exec.run w = m.run w ∧
      PreservesUnless E (World.EvolvedFrom allowed w.vcn.network) m := by
  cases op with
  | nsg args =>
    refine ⟨_, rfl, PreservesUnless.bind ?_ fun _ => (preserves_modify fun _ hw => hw).unless⟩
    exact World.preservesUnless_onVcn (Nsg.preservesUnless_init h)
  | serves src tgt port withSsh =>
    by_cases hfound : ∃ self target, w.nsgs src = some self ∧ w.nsgs tgt = some target
    · obtain ⟨self, target, hsrc, htgt⟩ := hfound
      simp only [ruleCalls, hsrc, htgt] at h
      exact ⟨_, World.run_serves hsrc htgt, World.preservesUnless_relate h⟩
    · obtain ⟨name, hname⟩ := World.run_serves_of_not hfound port withSsh
      exact ⟨throw _, hname, (preserves_throw _).unless⟩
  | computeInstance name args =>
    cases name with
    | none => exact ⟨_, rfl, World.preservesUnless_build (ComputeInstance.preservesUnless_init h)⟩
    | some name =>
      rw [exec]
      cases hnsg : w.nsgs name with
      | none =>
        exact ⟨throw _, run_bind_error (World.run_lookup_of_none hnsg), (preserves_throw _).unless⟩
      | some nsg =>
        rw [run_bind_ok (World.run_lookup_of_some hnsg)]
        simp only [ruleCalls, Option.bind_some, hnsg] at h
        exact ⟨_, rfl, World.preservesUnless_build (ComputeInstance.preservesUnless_init h)⟩
  | bastion args => exact ⟨_, rfl, World.preservesUnless_build (Bastion.preservesUnless_init h)⟩
  | loadBalancer args =>
    exact ⟨_, rfl, World.preservesUnless_build (LoadBalancer.preservesUnless_init h)⟩
  | internalLoadBalancer args =>
    exact ⟨_, rfl, World.preservesUnless_build (InternalLoadBalancer.preservesUnless_init h)⟩
  | scalableWorkload args =>
    exact ⟨_, rfl, World.preservesUnless_build (ScalableWorkload.preservesUnless_init h)⟩
  | okeCluster args =>
    exact ⟨_, rfl, World.preservesUnless_build (OkeCluster.preservesUnless_init h)⟩
  | finalizeNetwork =>
    exact ⟨_, rfl, World.preservesUnless_onVcn preserves_evolves_finalize.unless⟩
  | exportOutputs => exact ⟨_, rfl, World.preservesUnless_onVcn preserves_evolves_export.unless⟩

/-- **Every step moves the network by its calls**, and unless it ends with the builder's refusal, by
accepted ones. -/
theorem SpellOp.evolves_exec (op : SpellOp) (w : World)
    (h : ∀ c ∈ op.ruleCalls w, ∀ k : NetworkState,
      k.Accepts c ∨ op.exec.outcome w = .error (.runtimeError finalizedMessage) → allowed k c) :
    NetworkState.Evolves allowed w.vcn.network (op.exec.after w).vcn.network := by
  obtain ⟨m, hrun, hm⟩ := op.exists_preservesUnless w
    (E := fun e => e = .runtimeError finalizedMessage ∧ op.exec.outcome w ≠ .error e)
    fun c hc k hk => h c hc k (hk.imp_right fun hE => by_contra fun hne => hE ⟨rfl, hne⟩)
  rw [after, hrun]
  refine hm w NetworkState.Evolves.refl fun e he hE => hE.2 ?_
  rw [outcome, hrun]
  exact he

end Step

/-! ## What a step that returned has registered -/

/-- A registration that returned, and the network it was left with or that was then finalised. -/
def RegisteredBy (calls : List RuleCall) (v v' : Vcn) : Prop :=
  ∃ v₁, (register calls).run v = (.ok ⟨⟩, v₁) ∧
    (v'.network = v₁.network ∨ v'.network = v₁.network.finalize)

section Registered

variable {v v' : Vcn} {w w' : World}

theorem network_of_run_finalizeNetwork (h : Vcn.finalizeNetwork.run v = (.ok ⟨⟩, v')) :
    v'.network = v.network.finalize := by
  rw [← v.network_finalizeNetwork, after, h]

theorem World.run_onVcn_eq_ok {α : Type} {m : Py Vcn α} {a : α} :
    (onVcn m).run w = (.ok a, w') ↔ m.run w.vcn = (.ok a, w'.vcn) ∧ w'.nsgs = w.nsgs := by
  rw [onVcn, run_on, Prod.mk.injEq]
  constructor
  · rintro ⟨hok, rfl⟩
    exact ⟨Prod.ext hok rfl, rfl⟩
  · rintro ⟨hok, hnsgs⟩
    rw [hok]
    exact ⟨rfl, by rw [← hnsgs]⟩

theorem World.run_build_eq_ok {α : Type} {m : Py Vcn α} :
    (build m).run w = (.ok ⟨⟩, w') ↔ ∃ a, m.run w.vcn = (.ok a, w'.vcn) ∧ w'.nsgs = w.nsgs := by
  rw [build, run_bind_eq_ok]
  constructor
  · rintro ⟨a, w₁, hm, hpure⟩
    obtain ⟨-, rfl⟩ := Prod.mk.inj hpure
    exact ⟨a, run_onVcn_eq_ok.mp hm⟩
  · rintro ⟨a, hm⟩
    exact ⟨a, w', run_onVcn_eq_ok.mpr hm, rfl⟩

/-- A spell that leaves it to the builder to refuse its calls has made them all. -/
theorem registered_of_construct {α β : Type} {check : Except PyError β}
    (calls : β → VcnBase → List RuleCall) {create : β → Vcn → Except PyError α} {a : α}
    (h : (construct check (fun checked => get >>= fun v => register (calls checked v.toVcnBase))
      create).run v = (.ok a, v')) :
    ∃ checked, check = .ok checked ∧ RegisteredBy (calls checked v.toVcnBase) v v' := by
  obtain ⟨checked, v₁, hcheck, hreg, hfin, -⟩ := run_construct_eq_ok.mp h
  exact ⟨checked, hcheck, v₁, hreg, Or.inr (network_of_run_finalizeNetwork hfin)⟩

/-- A Bastion's fingerprint in use is as good as its registration. -/
theorem Bastion.registered_of_init {args : BastionArgs} {a : Bastion}
    (h : (Bastion.init args).run v = (.ok a, v')) : RegisteredBy ruleCalls v v' := by
  obtain ⟨_, v₁, -, hreg, hfin, -⟩ := run_construct_eq_ok.mp h
  refine ⟨v₁, ?_, Or.inr (network_of_run_finalizeNetwork hfin)⟩
  cases hopen : v.securityListsFinalized with
  | false =>
    rw [run_registration_of_open hopen] at hreg
    rw [run_register_of_open hopen]
    exact hreg
  | true =>
    obtain ⟨hambient, rfl⟩ := registered_of_run hopen hreg
    exact run_bind_ok (run_addUnique_of_registered hambient)

theorem ComputeInstance.registered_of_init {nsg : Option Nsg} {args : ComputeArgs}
    {a : ComputeInstance} (hopen : v.isFinalized = false)
    (h : (ComputeInstance.init nsg args).run v = (.ok a, v')) :
    RegisteredBy (ruleCalls v.toVcnBase (resolveSubnet nsg args.subnet)) v v' := by
  obtain ⟨_, v₁, -, hreg, hfin, -⟩ := run_construct_eq_ok.mp h
  rw [registration, run_get_bind, hopen] at hreg
  exact ⟨v₁, hreg, Or.inr (network_of_run_finalizeNetwork hfin)⟩

/-- A group that was built has its own rules, and its role's calls were made. -/
theorem Nsg.run_init_eq_ok {args : NsgArgs} {a : Nsg} (h : (Nsg.init args).run v = (.ok a, v')) :
    args.empty.addRules (args.decls v.svcCidrBlock) = .ok a ∧
      (register (args.ruleCalls v.toVcnBase)).run v = (.ok ⟨⟩, v') := by
  rw [Nsg.init, run_bind_eq_ok] at h
  obtain ⟨_, _, hcheck, hrest⟩ := h
  obtain ⟨-, rfl⟩ := Prod.mk.inj hcheck
  rw [NsgArgs.ruleCalls, NsgArgs.decls]
  cases hrole : args.role with
  | none =>
    rw [hrole, run_pure] at hrest
    obtain ⟨ha, rfl⟩ := Prod.mk.inj hrest
    exact ⟨ha, rfl⟩
  | some role =>
    rw [hrole] at hrest
    simp only [run_get_bind, run_bind_eq_ok, run_attempt, run_pure, Prod.mk.injEq] at hrest
    obtain ⟨nsg, _, ⟨hadd, rfl⟩, _, v₁, hreg, ha, rfl⟩ := hrest
    exact ⟨hadd.trans ha, hreg⟩

/-- A relationship that was declared has its rules in the groups, and its calls were made. -/
theorem World.run_relate_eq_ok {src tgt : String} {self target : Nsg} {port : ℤ} {withSsh : Bool}
    (h : (relate src tgt self target port withSsh).run w = (.ok ⟨⟩, w')) :
    GrownBy (Nsg.relationDecls src tgt self target port withSsh) w w' ∧
      (register (Nsg.relationCalls w.vcn.toVcnBase self target port withSsh)).run w.vcn =
        (.ok ⟨⟩, w'.vcn) := by
  rw [relate_eq, run_bind_eq_ok] at h
  obtain ⟨_, w₁, hdecls, hreg⟩ := h
  obtain ⟨hvcn, hgrown⟩ := grownBy_of_each hdecls
  rw [run_get_bind, run_onVcn_eq_ok, hvcn] at hreg
  exact ⟨hgrown.congr hreg.2, hreg.1⟩

/-- **A step that returned has registered its calls**, a compute instance on a finalised VCN apart.
-/
theorem SpellOp.registered_of_run {op : SpellOp} (hskips : op.skips w = false)
    (h : op.exec.run w = (.ok ⟨⟩, w')) : RegisteredBy (op.ruleCalls w) w.vcn w'.vcn := by
  cases op with
  | nsg args =>
    rw [exec, World.buildNsg, run_bind_eq_ok] at h
    obtain ⟨a, w₁, hinit, hmodify⟩ := h
    obtain ⟨-, rfl⟩ := Prod.mk.inj hmodify
    have hreg := (Nsg.run_init_eq_ok (World.run_onVcn_eq_ok.mp hinit).1).2
    exact ⟨_, hreg, Or.inl rfl⟩
  | serves src tgt port withSsh =>
    obtain ⟨self, target, hsrc, htgt, hrelate⟩ := World.run_serves_eq_ok.mp h
    simp only [ruleCalls, hsrc, htgt]
    exact ⟨_, (World.run_relate_eq_ok hrelate).2, Or.inl rfl⟩
  | computeInstance name args =>
    cases name with
    | none =>
      obtain ⟨a, hinit, -⟩ := World.run_build_eq_ok.mp h
      exact ComputeInstance.registered_of_init hskips hinit
    | some name =>
      obtain ⟨nsg, hnsg, hbuild⟩ := World.run_lookup_bind_eq_ok.mp h
      obtain ⟨a, hinit, -⟩ := World.run_build_eq_ok.mp hbuild
      simp only [ruleCalls, Option.bind_some, hnsg]
      exact ComputeInstance.registered_of_init hskips hinit
  | bastion args =>
    obtain ⟨a, hinit, -⟩ := World.run_build_eq_ok.mp h
    exact Bastion.registered_of_init hinit
  | loadBalancer args =>
    obtain ⟨a, hinit, -⟩ := World.run_build_eq_ok.mp h
    obtain ⟨port, hport, hreg⟩ :=
      registered_of_construct (fun port base => LoadBalancer.ruleCalls base port) hinit
    rwa [LoadBalancerArgs.eq_of_check hport] at hreg
  | internalLoadBalancer args =>
    obtain ⟨a, hinit, -⟩ := World.run_build_eq_ok.mp h
    obtain ⟨port, hport, hreg⟩ :=
      registered_of_construct (fun port base => InternalLoadBalancer.ruleCalls base port) hinit
    rwa [LoadBalancerArgs.eq_of_check hport] at hreg
  | scalableWorkload args =>
    obtain ⟨a, hinit, -⟩ := World.run_build_eq_ok.mp h
    obtain ⟨_, -, hreg⟩ := registered_of_construct
      (fun _ base => ScalableWorkload.ruleCalls base args.loadBalancerConfig) hinit
    exact hreg
  | okeCluster args =>
    obtain ⟨a, hinit, -⟩ := World.run_build_eq_ok.mp h
    obtain ⟨cidrs, hcidrs, hreg⟩ :=
      registered_of_construct (fun cidrs base => OkeCluster.ruleCalls base cidrs) hinit
    rwa [← Except.ok.inj hcidrs] at hreg
  | finalizeNetwork =>
    have hfin := (World.run_onVcn_eq_ok.mp h).1
    exact ⟨w.vcn, rfl, Or.inr (network_of_run_finalizeNetwork hfin)⟩
  | exportOutputs =>
    have hexport := (World.run_onVcn_eq_ok.mp h).1
    refine ⟨w.vcn, rfl, Or.inr ?_⟩
    rw [← w.vcn.network_exportOutputs, after, hexport]

end Registered

end CloudSpells
