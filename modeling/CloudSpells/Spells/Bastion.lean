import CloudSpells.Network.Registry
import CloudSpells.Spells.Construct

/-!
# Spells/Bastion — the Bastion endpoint

A `Bastion` needs SSH from anywhere on the private tier.  On an open VCN it registers the rule; on a
finalised one it trusts the registry: where its fingerprint is in use it goes on, elsewhere it
raises.

The trust is justified over the histories in which the registry is sound
(`registry_of_history`), and only over those (`bastion_without_rule`).
-/

namespace CloudSpells

open Machinery Machinery.Exec

/-- `_BASTION_SSH_RULE_FINGERPRINT`. -/
def BASTION_SSH_RULE_FINGERPRINT : String := "bastion-private-ingress-tcp-22"

/-- The arguments of `Bastion(…)` besides the VCN. -/
structure BastionArgs where
  name : String
  stackName : String
  allowedClientCidrs : Option (List String) := none
  deriving DecidableEq, Repr

/-- `Bastion`. -/
structure Bastion where
  namer : ResourceNamer
  bastion : Resource
  targetSubnetId : Resource
  clientCidrBlockAllowLists : List String
  deriving DecidableEq, Repr

namespace Bastion

/-- The rule a Bastion needs. -/
def sshRule : SecurityListRule :=
  .tcp 22 "0.0.0.0/0" "SSH access from OCI Bastion service to private subnet instances"

/-- The calls of `_add_bastion_security_rules`. -/
def ruleCalls : List RuleCall :=
  [.unique BASTION_SSH_RULE_FINGERPRINT (.single .priv .ingress [sshRule])]

/-- The text of the refusal by a finalised VCN. -/
def tooLateMessage : String :=
  "Bastion must be constructed before any spell that finalizes " ++
    "the VCN network (ComputeInstance, ScalableWorkload, OkeCluster). " ++
    "Bastion requires SSH from 0.0.0.0/0 on the private security list " ++
    "for OCI Bastion sessions, and that rule can only be registered " ++
    "before Vcn.finalize_network() is called."

/-- Register the rule, or see that an earlier Bastion did. -/
def registration : Py Vcn Unit := do
  let v ← get
  if v.isFinalized then
    if v.hasAmbientRule BASTION_SSH_RULE_FINGERPRINT then pure ⟨⟩
    else throw (.runtimeError tooLateMessage)
  else register ruleCalls

/-- The check of `allowed_client_cidrs`. -/
def check (args : BastionArgs) : Except PyError (List String) :=
  match args.allowedClientCidrs with
  | none => .error (.valueError
      (s!"Bastion '{args.name}': allowed_client_cidrs must be provided explicitly. " ++
        "To permit all source IPs (not recommended for production), pass " ++
        "allowed_client_cidrs=['0.0.0.0/0']."))
  | some cidrs => .ok cidrs

/-- The endpoint in the private subnet. -/
def create (args : BastionArgs) (cidrs : List String) (v : Vcn) : Except PyError Bastion := do
  let namer : ResourceNamer := { stackName := args.stackName, resourceName := args.name }
  let subnetId ← v.getSubnetId .priv
  return {
    namer := namer
    bastion :=
      { spell := "custom:bastion:Bastion", namer := namer, type := .bastion, suffix := "bastion" }
    targetSubnetId := subnetId
    clientCidrBlockAllowLists := cidrs }

/-- `Bastion(…)`. -/
def init (args : BastionArgs) : Py Vcn Bastion :=
  construct (check args) (fun _ => registration) (create args)

/-- On an open VCN the registration records the rule. -/
theorem run_registration_of_open {v : Vcn} (h : v.securityListsFinalized = false) :
    registration.run v = (.ok ⟨⟩, v.record ruleCalls) := by
  have hopen : ¬ v.isFinalized = true := by
    rw [Vcn.isFinalized, h]
    exact Bool.false_ne_true
  rw [registration, run_get_bind, if_neg hopen, run_register_of_open h]

/-- On a finalised one it returns only where the fingerprint is in use. -/
theorem registered_of_run {v v' : Vcn} (h : v.securityListsFinalized = true)
    (hrun : registration.run v = (.ok ⟨⟩, v')) :
    v.hasAmbientRule BASTION_SSH_RULE_FINGERPRINT = true ∧ v' = v := by
  have hfinal : v.isFinalized = true := h
  rw [registration, run_get_bind, if_pos hfinal] at hrun
  cases hreg : v.hasAmbientRule BASTION_SSH_RULE_FINGERPRINT with
  | true =>
    rw [if_pos hreg, run_pure] at hrun
    exact ⟨rfl, (Prod.mk.inj hrun).2.symm⟩
  | false =>
    rw [if_neg (by simp [hreg]), run_throw] at hrun
    cases (Prod.mk.inj hrun).1

end Bastion

/-! ## What the registry guards -/

/-- **The registry over a history.**  It is sound iff every call is in time; and where every call is
in time and the first use of the Bastion's fingerprint was for its rule, a Bastion that a finalised
VCN accepts finds that rule in the private security list. -/
theorem registry_of_history {cloud : Cloud} {args : VcnArgs} {v₀ : Vcn}
    (h : Vcn.init cloud args = .ok v₀) (calls : List VcnCall) :
    (RegistrySound v₀ calls ↔ AllInTime v₀ calls) ∧
    (AllInTime v₀ calls →
      (∀ rules, FirstUse calls BASTION_SSH_RULE_FINGERPRINT rules →
        ∃ r ∈ rules .priv .ingress, r.erase = Bastion.sshRule.erase) →
      ∀ bastionArgs bastion v', (replay VcnCall.exec calls v₀).isFinalized = true →
        (Bastion.init bastionArgs).run (replay VcnCall.exec calls v₀) = (.ok bastion, v') →
        ∃ sl, v'.securityList .priv = some sl ∧
          ∃ r ∈ sl.rules .ingress, r.erase = Bastion.sshRule.erase) := by
  have hempty := fingerprints_of_init h
  refine ⟨registrySound_iff hempty calls,
    fun hintime hused bastionArgs bastion v' hfinal hrun => ?_⟩
  obtain ⟨_, v₁, -, hreg, hfin, -⟩ := run_construct_eq_ok.mp hrun
  obtain ⟨hambient, rfl⟩ := Bastion.registered_of_run hfinal hreg
  rw [Vcn.run_finalizeNetwork_of_finalized hfinal] at hfin
  obtain rfl := (Prod.mk.inj hfin).2
  -- The fingerprint in use stands for rules in the lists, and the lists are frozen.
  have haccumulated := (hasAmbientRule_replay hempty calls hintime _).mp hambient
  obtain ⟨rules, hfirst, hrules⟩ := rules_of_accumulated haccumulated
  obtain ⟨r, hr, herase⟩ := hused rules hfirst
  have hevolves := NetworkState.evolves_foldl_step v₀.network calls
  rw [← network_replay] at hevolves
  have hfrozen : v₀.network.Frozen := NetworkState.frozen_of_open (open_of_init h)
  obtain ⟨sl, hsl, hlist⟩ := hevolves.frozen hfrozen hfinal .priv
  refine ⟨sl, hsl, r, ?_, herase⟩
  rw [hlist]
  exact hrules .priv .ingress r hr

/-- The Bastion's rule, registered before or after finalisation. -/
def registerThenFinalize : List VcnCall :=
  [.addUniqueSecurityListRules BASTION_SSH_RULE_FINGERPRINT
     (.single .priv .ingress [Bastion.sshRule]),
   .finalizeNetwork]

def finalizeThenRegister : List VcnCall :=
  [.finalizeNetwork,
   .addUniqueSecurityListRules BASTION_SSH_RULE_FINGERPRINT
     (.single .priv .ingress [Bastion.sshRule])]

theorem registry_of_history_default :
    ∃ bastion v' sl,
      (Bastion.init { name := "ops", stackName := "dev", allowedClientCidrs := some [] }).run
        (replay VcnCall.exec registerThenFinalize defaultBase.fresh) = (.ok bastion, v') ∧
      v'.securityList .priv = some sl ∧
      ∃ r ∈ sl.rules .ingress, r.erase = Bastion.sshRule.erase := by
  have hintime : AllInTime defaultBase.fresh registerThenFinalize := by
    intro pre c post heq f rules hc hfinal
    subst hc
    match pre, heq with
    | [], _ => cases hfinal
    | [_], heq => simp [registerThenFinalize] at heq
    | [_, _], heq => simp [registerThenFinalize] at heq
    | _ :: _ :: _ :: _, heq => simp [registerThenFinalize] at heq
  have hused : ∀ rules, FirstUse registerThenFinalize BASTION_SSH_RULE_FINGERPRINT rules →
      ∃ r ∈ rules .priv .ingress, r.erase = Bastion.sshRule.erase := by
    rintro rules ⟨pre, post, heq, -⟩
    have hrules : .addUniqueSecurityListRules BASTION_SSH_RULE_FINGERPRINT rules ∈
        registerThenFinalize := by
      rw [heq]
      exact List.mem_append_right pre List.mem_cons_self
    simp only [registerThenFinalize, List.mem_cons, VcnCall.addUniqueSecurityListRules.injEq,
      true_and, reduceCtorEq, List.not_mem_nil, or_false] at hrules
    exact ⟨Bastion.sshRule, by simp [hrules], rfl⟩
  obtain ⟨sl, hsl, hrule⟩ := (registry_of_history init_default registerThenFinalize).2 hintime hused
    { name := "ops", stackName := "dev", allowedClientCidrs := some [] } _ _ rfl rfl
  exact ⟨_, _, sl, rfl, hsl, hrule⟩

/-- The rule, registered too late, is refused — and from then on its fingerprint is in use, the same
call returns, and a Bastion is built on a VCN whose private security list is empty. -/
theorem bastion_without_rule :
    ¬ RegistrySound defaultBase.fresh finalizeThenRegister ∧
      ∃ bastion sl,
        (Bastion.init { name := "ops", stackName := "dev", allowedClientCidrs := some [] }).outcome
          (replay VcnCall.exec finalizeThenRegister defaultBase.fresh) = .ok bastion ∧
        (replay VcnCall.exec finalizeThenRegister defaultBase.fresh).securityList .priv = some sl ∧
        sl.rules .ingress = [] := by
  refine ⟨fun h => ?_, _, _, rfl, rfl, rfl⟩
  have hintime := (registrySound_iff rfl finalizeThenRegister).mp h [.finalizeNetwork] _ [] rfl _ _
    rfl rfl
  exact absurd hintime (by decide)

end CloudSpells
