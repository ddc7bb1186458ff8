import CloudSpells.Spells.Made

/-!
# Spells/Protocol — the order in which a program may build its spells

Rules are registered with an open VCN, and the first spell that has children finalises it; from then
on the builder refuses rules it does not know and a `Bastion` refuses to be built.  So a program
that declares its groups and relationships first, builds one spell, and goes on with compute
instances and exports alone raises neither refusal (`SpellOp.safe_of_inOrder`).
-/

namespace CloudSpells

open Machinery Machinery.Exec

/-- The refusals of a finalised VCN: rules it does not know, and a `Bastion` without its rule. -/
def PyError.IsOrdering (e : PyError) : Prop :=
  e = .runtimeError finalizedMessage ∨ e = .runtimeError Bastion.tooLateMessage

instance (e : PyError) : Decidable e.IsOrdering :=
  inferInstanceAs (Decidable (_ ∨ _))

/-- An open VCN. -/
def Vcn.Open (v : Vcn) : Prop := v.securityListsFinalized = false

/-- A world whose VCN is open. -/
def World.Open (w : World) : Prop := w.vcn.Open

/-- Any state. -/
abbrev Anything {σ : Type} : σ → Prop := fun _ => True

theorem not_isOrdering_valueError (message : String) :
    ¬ (PyError.valueError message).IsOrdering := by
  rintro (h | h) <;> cases h

theorem not_isOrdering_nameError (name : String) : ¬ (PyError.nameError name).IsOrdering := by
  rintro (h | h) <;> cases h

/-! ## Computations that raise no refusal -/

/-- A pure computation that raises no refusal. -/
def Orderly {α : Type} (x : Except PyError α) : Prop := ∀ e, x = .error e → ¬ e.IsOrdering

section Orderly

variable {α β : Type} {x y : Except PyError α}

theorem orderly_ok (a : α) : Orderly (.ok a) := fun _ h => by cases h

theorem orderly_error {e : PyError} (he : ¬ e.IsOrdering) : Orderly (.error e : Except PyError α) :=
  fun e' h => by rwa [← Except.error.inj h]

theorem orderly_valueError (message : String) :
    Orderly (.error (.valueError message) : Except PyError α) :=
  orderly_error (not_isOrdering_valueError message)

theorem orderly_ite {c : Prop} [Decidable c] (hx : Orderly x) (hy : Orderly y) :
    Orderly (if c then x else y) := by
  split
  · exact hx
  · exact hy

/-- What raises in a sequence, one of its parts raises. -/
theorem Orderly.bind {f : α → Except PyError β} (hx : Orderly x) (hf : ∀ a, Orderly (f a)) :
    Orderly (x >>= f) := by
  intro e h
  cases x with
  | error e' =>
    rw [error_bind] at h
    exact hx e (congrArg Except.error (Except.error.inj h))
  | ok a => exact hf a e h

end Orderly

/-! ## Methods of the VCN -/

namespace Vcn

theorem safe_register (calls : List RuleCall) :
    Safe PyError.IsOrdering Open Open (register calls) := by
  intro v hv
  have hrun := run_register_of_open hv calls
  refine ⟨fun e he => ?_, fun _ v' hrun' => ?_⟩
  · rw [outcome, hrun] at he
    cases he
  · obtain ⟨-, rfl⟩ := Prod.mk.inj (hrun.symm.trans hrun')
    exact hv

theorem orderly_getSubnetId (v : Vcn) (tier : SubnetTier) : Orderly (v.getSubnetId tier) := by
  have htext : ∀ tier : SubnetTier, ¬ (PyError.runtimeError
      s!"VCN {tier.str} subnet is not yet created. Call finalize_network() first.").IsOrdering := by
    decide
  unfold getSubnetId
  cases v.subnet tier with
  | none => exact orderly_error (htext tier)
  | some _ => exact orderly_ok _

private theorem safe_createFlowLogs (namer : ResourceNamer) (retentionDuration : ℤ) :
    Safe PyError.IsOrdering Anything Anything
      (VcnFlowLogs.createFlowLogs namer retentionDuration) := by
  refine safe_get_bind fun v _ => safe_ite (fun _ => safe_throw (by decide)) fun _ => ?_
  refine safe_ite (fun _ => safe_throw (by decide)) fun _ => ?_
  exact Safe.bind (Q := Anything) (safe_modify fun _ _ => trivial) fun _ =>
    safe_pure _ fun _ _ => trivial

private theorem safe_createOwnFlowLogs :
    Safe PyError.IsOrdering Anything Anything (createOwnFlowLogs (pure ⟨⟩)) := by
  refine safe_get_bind fun v _ => safe_ite (fun _ => ?_) fun _ => safe_pure _ fun _ _ => trivial
  cases v.compartmentId with
  | none => exact safe_throw (by decide)
  | some compartmentId =>
    refine Safe.bind (Q := Anything) ?_ fun _ => safe_modify fun _ _ => trivial
    refine safe_get_bind fun w _ =>
      safe_ite (fun _ => safe_throw (not_isOrdering_valueError _)) fun _ => ?_
    exact Safe.bind (Q := Anything) (safe_modify fun _ _ => trivial) fun _ =>
      Safe.bind (Q := Anything) (safe_pure _ fun _ _ => trivial) fun _ =>
        Safe.bind (safe_createFlowLogs _ _) fun _ => safe_pure _ fun _ _ => trivial

/-- **Finalisation is always in order.** -/
theorem safe_finalizeNetwork :
    Safe PyError.IsOrdering Anything Anything finalizeNetwork := by
  intro v _
  refine ⟨fun e he => ?_, fun _ _ _ => trivial⟩
  rw [outcome, finalizeNetwork_eq] at he
  cases h : v.securityListsFinalized with
  | true =>
    rw [run_finalizeBody_of_finalized h] at he
    cases he
  | false =>
    rw [run_finalizeBody_of_open h] at he
    have hassert : Safe PyError.IsOrdering Anything Anything assertSubnets :=
      safe_get_bind fun _ _ => safe_ite (fun _ => safe_pure _ fun _ _ => trivial) fun _ =>
        safe_throw (by decide)
    exact (Safe.bind safe_createOwnFlowLogs (fun _ => hassert) v.materialized trivial).1 e he

theorem safe_exportOutputs :
    Safe PyError.IsOrdering Anything Anything exportOutputs := by
  have hsubnet : ∀ tier, Safe PyError.IsOrdering Anything Anything (requireSubnet tier) := by
    have htext : ∀ tier : SubnetTier, ¬ (PyError.runtimeError
        s!"finalize_network() failed to create the {tier.str} subnet").IsOrdering := by decide
    refine fun tier => safe_get_bind fun v _ => ?_
    cases v.subnet tier with
    | none => exact safe_throw (htext tier)
    | some _ => exact safe_pure _ fun _ _ => trivial
  have hlist : ∀ tier, Safe PyError.IsOrdering Anything Anything (getSecurityList tier) := by
    refine fun tier => safe_get_bind fun v _ => safe_attempt ?_ fun _ _ => trivial
    cases v.securityList tier with
    | none => exact orderly_error (by rintro (h | h) <;> cases h)
    | some _ => exact orderly_ok _
  have hexport : ∀ key value, Safe PyError.IsOrdering Anything Anything
      (pulumiExport key value) := fun _ _ => safe_modify fun _ _ => trivial
  have hdrg : Safe PyError.IsOrdering Anything Anything exportDrg :=
    safe_get_bind fun v _ => by
      cases v.drg <;> cases v.drgAttachment <;>
        first
        | exact safe_pure _ fun _ _ => trivial
        | exact Safe.bind (hexport _ _) fun _ => hexport _ _
  have hlogs : Safe PyError.IsOrdering Anything Anything exportFlowLogs :=
    safe_get_bind fun v _ => by
      cases v.flowLogs <;>
        first
        | exact safe_pure _ fun _ _ => trivial
        | exact hexport _ _
  refine Safe.bind safe_finalizeNetwork fun _ => ?_
  repeat' first
    | exact hlogs
    | exact hdrg
    | exact hexport _ _
    | exact hsubnet _
    | exact hlist _
    | refine safe_get_bind fun _ _ => ?_
    | refine Safe.bind (Q := Anything) ?_ fun _ => ?_

end Vcn

/-! ## Constructors -/

/-- **A constructor is in order where its registration is**, provided that neither its checks nor
the creation of its children raise a refusal. -/
theorem safe_construct {α β : Type} {check : Except PyError β} {registration : β → Py Vcn Unit}
    {create : β → Vcn → Except PyError α} {P : Vcn → Prop}
    (hcheck : Orderly check)
    (hreg : ∀ checked, Safe PyError.IsOrdering P Anything (registration checked))
    (hcreate : ∀ checked v, Orderly (create checked v)) :
    Safe PyError.IsOrdering P Anything (construct check registration create) := by
  refine Safe.bind (safe_attempt hcheck fun _ hv => hv) fun checked => ?_
  refine Safe.bind (hreg checked) fun _ => Safe.bind Vcn.safe_finalizeNetwork fun _ => ?_
  exact safe_get_bind fun v _ => safe_attempt (hcreate checked v) fun _ _ => trivial

/-- A constructor that leaves it to the builder to refuse its calls is in order on an open VCN. -/
theorem safe_construct_register {α β : Type} {check : Except PyError β}
    (calls : β → VcnBase → List RuleCall) {create : β → Vcn → Except PyError α}
    (hcheck : Orderly check) (hcreate : ∀ checked v, Orderly (create checked v)) :
    Safe PyError.IsOrdering Vcn.Open Anything (construct check
      (fun checked => get >>= fun v => register (calls checked v.toVcnBase)) create) :=
  safe_construct hcheck (fun checked => safe_get_bind fun v _ =>
    (Vcn.safe_register (calls checked v.toVcnBase)).weaken (fun _ hv => hv) fun _ _ => trivial)
    hcreate

/-- What is created once a subnet is there. -/
theorem orderly_subnet {α : Type} (v : Vcn) (tier : SubnetTier) (a : Resource → α) :
    Orderly (v.getSubnetId tier >>= fun id => .ok (a id)) :=
  (v.orderly_getSubnetId tier).bind fun _ => orderly_ok _

namespace ComputeInstance

theorem safe_init (nsg : Option Nsg) (args : ComputeArgs) :
    Safe PyError.IsOrdering Anything Anything (init nsg args) := by
  have htext : ∀ tier : SubnetTier, ¬ (PyError.runtimeError
      s!"VCN {tier.str} subnet must exist after finalize_network().").IsOrdering := by decide
  refine safe_construct ?_ (fun _ => ?_) fun specs v => Orderly.bind ?_ fun _ => ?_
  · exact orderly_ite (orderly_valueError _) (orderly_ite (orderly_valueError _) (orderly_ok _))
  · intro v _
    refine ⟨fun e he => ?_, fun _ _ _ => trivial⟩
    rw [outcome, registration, run_get_bind] at he
    split at he
    · cases he
    · rename_i hopen
      exact (Vcn.safe_register _ v (Bool.eq_false_of_not_eq_true hopen)).1 e he
  · unfold assertSubnetsReady
    split
    · exact orderly_error (htext _)
    · exact orderly_ok _
  · exact orderly_subnet v _ _

end ComputeInstance

namespace Bastion

theorem safe_init (args : BastionArgs) :
    Safe PyError.IsOrdering Vcn.Open Anything (init args) := by
  refine safe_construct ?_ (fun _ => ?_) fun cidrs v => orderly_subnet v _ _
  · unfold check
    cases args.allowedClientCidrs with
    | none => exact orderly_valueError _
    | some _ => exact orderly_ok _
  · intro v hv
    refine ⟨fun e he => ?_, fun _ _ _ => trivial⟩
    rw [outcome, run_registration_of_open hv] at he
    cases he

end Bastion

theorem LoadBalancerArgs.orderly_check (args : LoadBalancerArgs) : Orderly args.check :=
  orderly_ite (orderly_ok _) (orderly_valueError _)

theorem LoadBalancer.safe_init (args : LoadBalancerArgs) :
    Safe PyError.IsOrdering Vcn.Open Anything (init args) :=
  safe_construct_register (fun port base => ruleCalls base port) args.orderly_check
    fun _ v => orderly_subnet v _ _

theorem InternalLoadBalancer.safe_init (args : LoadBalancerArgs) :
    Safe PyError.IsOrdering Vcn.Open Anything (init args) :=
  safe_construct_register (fun port base => ruleCalls base port) args.orderly_check
    fun _ v => orderly_subnet v _ _

theorem ScalableWorkload.safe_init (args : ScalableWorkloadArgs) :
    Safe PyError.IsOrdering Vcn.Open Anything (init args) := by
  refine safe_construct_register (fun _ base => ruleCalls base args.loadBalancerConfig)
    ?_ fun _ v => ?_
  · unfold check
    split
    · exact orderly_ite (orderly_valueError _) (orderly_ok _)
    · exact orderly_ok _
    · exact orderly_ok _
  · refine (v.orderly_getSubnetId .pub).bind fun _ => ?_
    refine (v.orderly_getSubnetId .priv).bind fun _ => ?_
    exact Orderly.bind (orderly_subnet v _ _) fun _ => orderly_ok _

theorem OkeCluster.safe_init (args : OkeArgs) :
    Safe PyError.IsOrdering Vcn.Open Anything (init args) := by
  refine safe_construct_register (fun cidrs base => ruleCalls base cidrs) (orderly_ok _)
    fun cidrs v => ?_
  unfold create
  cases v.subnet .pub with
  | none => exact orderly_error (by decide)
  | some _ =>
    cases v.subnet .priv with
    | none => exact orderly_error (by decide)
    | some _ => exact orderly_ok _

theorem Nsg.orderly_addRule (nsg : Nsg) (decl : RuleDecl) : Orderly (nsg.addRule decl) :=
  orderly_ite (orderly_valueError _) (orderly_ok _)

theorem Nsg.orderly_addRules (decls : List RuleDecl) (nsg : Nsg) :
    Orderly (nsg.addRules decls) := by
  induction decls generalizing nsg with
  | nil => exact orderly_ok _
  | cons decl decls ih => exact (nsg.orderly_addRule decl).bind ih

theorem Nsg.safe_init (args : NsgArgs) :
    Safe PyError.IsOrdering Vcn.Open Vcn.Open (init args) := by
  unfold init
  refine Safe.bind (Q := Vcn.Open) (safe_attempt ?_ fun _ hv => hv) fun _ => ?_
  · exact orderly_ite (orderly_valueError _) (orderly_ok _)
  · cases args.role with
    | none => exact safe_pure _ fun _ hv => hv
    | some role =>
      refine safe_get_bind fun v _ => Safe.bind (Q := Vcn.Open)
        (safe_attempt (orderly_addRules _ _) fun _ hv => hv) fun _ => ?_
      exact Safe.bind (Vcn.safe_register _) fun _ => safe_pure _ fun _ hv => hv

/-! ## Programs -/

namespace World

theorem safe_onVcn {α : Type} {P Q : Vcn → Prop} {m : Py Vcn α}
    (h : Safe PyError.IsOrdering P Q m) :
    Safe PyError.IsOrdering (fun w => P w.vcn) (fun w => Q w.vcn) (onVcn m) :=
  Safe.on (fun _ _ => rfl) h

theorem safe_build {α : Type} {P : Vcn → Prop} {m : Py Vcn α}
    (h : Safe PyError.IsOrdering P Anything m) :
    Safe PyError.IsOrdering (fun w => P w.vcn) Anything (build m) :=
  Safe.bind (safe_onVcn h) fun _ => safe_pure _ fun _ _ => trivial

theorem safe_lookup (P : World → Prop) (name : String) :
    Safe PyError.IsOrdering P P (lookup name) := by
  refine safe_get_bind fun w _ => ?_
  cases w.nsgs name with
  | none => exact safe_throw (not_isOrdering_nameError _)
  | some nsg => exact safe_pure _ fun _ hw => hw

theorem safe_addRuleTo (name : String) (decl : RuleDecl) :
    Safe PyError.IsOrdering Open Open (addRuleTo name decl) := by
  refine Safe.bind (safe_lookup Open name) fun nsg => ?_
  exact Safe.bind (Q := Open) (safe_attempt (nsg.orderly_addRule decl) fun _ hw => hw)
    fun _ => safe_modify fun _ hw => hw

theorem safe_serves (src tgt : String) (port : ℤ) (withSsh : Bool) :
    Safe PyError.IsOrdering Open Open (serves src tgt port withSsh) := by
  refine Safe.bind (safe_lookup Open src) fun self => ?_
  refine Safe.bind (safe_lookup Open tgt) fun target => ?_
  rw [relate_eq]
  refine Safe.bind (safe_each fun _ _ => safe_addRuleTo _ _) fun _ => ?_
  exact safe_get_bind fun w _ => safe_onVcn (Vcn.safe_register _)

end World

namespace SpellOp

/-- A step that leaves an open VCN open. -/
def declares : SpellOp → Bool
  | nsg _ | serves _ _ _ _ => true
  | _ => false

/-- A step that takes the network as it finds it. -/
def settles : SpellOp → Bool
  | computeInstance _ _ | finalizeNetwork | exportOutputs => true
  | _ => false

/-- A program whose groups and relationships come first, then one spell, then what takes the network
as it finds it. -/
def inOrder : List SpellOp → Bool
  | [] => true
  | op :: ops => if op.declares then inOrder ops else ops.all settles

theorem safe_declares (op : SpellOp) (h : op.declares = true) :
    Safe PyError.IsOrdering World.Open World.Open op.exec := by
  cases op with
  | nsg args =>
    exact Safe.bind (World.safe_onVcn (Nsg.safe_init args)) fun _ => safe_modify fun _ hw => hw
  | serves src tgt port withSsh => exact World.safe_serves src tgt port withSsh
  | _ => cases h

theorem safe_settles (op : SpellOp) (h : op.settles = true) :
    Safe PyError.IsOrdering Anything Anything op.exec := by
  cases op with
  | computeInstance name args =>
    cases name with
    | none => exact World.safe_build (ComputeInstance.safe_init none args)
    | some name =>
      exact Safe.bind (World.safe_lookup Anything name) fun nsg =>
        World.safe_build (ComputeInstance.safe_init (some nsg) args)
  | finalizeNetwork => exact World.safe_onVcn Vcn.safe_finalizeNetwork
  | exportOutputs => exact World.safe_onVcn Vcn.safe_exportOutputs
  | _ => cases h

/-- **On an open VCN every step is in order.** -/
theorem safe_open (op : SpellOp) : Safe PyError.IsOrdering World.Open Anything op.exec := by
  have hany : ∀ w : World, w.Open → Anything w := fun _ _ => trivial
  cases op with
  | nsg args => exact (safe_declares (.nsg args) rfl).weaken (fun _ hw => hw) hany
  | serves src tgt port withSsh =>
    exact (World.safe_serves src tgt port withSsh).weaken (fun _ hw => hw) hany
  | computeInstance name args =>
    exact (safe_settles (.computeInstance name args) rfl).weaken hany fun _ hw => hw
  | bastion args => exact World.safe_build (Bastion.safe_init args)
  | loadBalancer args => exact World.safe_build (LoadBalancer.safe_init args)
  | internalLoadBalancer args => exact World.safe_build (InternalLoadBalancer.safe_init args)
  | scalableWorkload args => exact World.safe_build (ScalableWorkload.safe_init args)
  | okeCluster args => exact World.safe_build (OkeCluster.safe_init args)
  | finalizeNetwork =>
    exact (safe_settles .finalizeNetwork rfl).weaken hany fun _ hw => hw
  | exportOutputs => exact (safe_settles .exportOutputs rfl).weaken hany fun _ hw => hw

/-- **A program in order raises no refusal.** -/
theorem safe_of_inOrder {ops : List SpellOp} (h : inOrder ops = true) :
    Safe PyError.IsOrdering World.Open Anything (each exec ops) := by
  induction ops with
  | nil => exact safe_pure _ fun _ _ => trivial
  | cons op ops ih =>
    rw [each_cons]
    unfold inOrder at h
    split at h
    · rename_i hdecl
      exact Safe.bind (safe_declares op hdecl) fun _ => ih h
    · refine Safe.bind (safe_open op) fun _ => safe_each fun o ho => ?_
      exact safe_settles o (List.all_eq_true.mp h o ho)

end SpellOp

end CloudSpells
