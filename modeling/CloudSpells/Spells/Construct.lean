import CloudSpells.Network.Evolution

/-!
# Spells/Construct — the constructor every spell on a VCN has

A spell checks its arguments, registers its security-list rules with the VCN, calls
`finalize_network` and creates its children.  `construct` is that sequence; a spell is what it
checks, how it registers and what it creates.
-/

namespace CloudSpells

open Machinery Machinery.Exec

/-- `get_{tier}_subnet_id`. -/
def Vcn.getSubnetId (v : Vcn) (tier : SubnetTier) : Except PyError Resource :=
  match v.subnet tier with
  | none => .error (.runtimeError
      s!"VCN {tier.str} subnet is not yet created. Call finalize_network() first.")
  | some subnet => .ok subnet.resource

theorem Vcn.getSubnetId_eq_ok {v : Vcn} {tier : SubnetTier} {id : Resource} :
    v.getSubnetId tier = .ok id ↔ ∃ subnet, v.subnet tier = some subnet ∧ id = subnet.resource := by
  unfold getSubnetId
  cases v.subnet tier with
  | none => simp
  | some subnet => simp [eq_comm]

/-- The constructor of a spell: what the arguments are checked to, the registration of its rules,
and the spell made of the finalised VCN. -/
def construct {α β : Type} (check : Except PyError β) (registration : β → Py Vcn Unit)
    (create : β → Vcn → Except PyError α) : Py Vcn α := do
  let checked ← attempt check
  registration checked
  Vcn.finalizeNetwork
  let v ← get
  attempt (create checked v)

section Construct

variable {α β : Type} {check : Except PyError β} {registration : β → Py Vcn Unit}
  {create : β → Vcn → Except PyError α} {v v' : Vcn} {a : α}

/-- **A constructor that returned, taken apart**: its arguments were accepted, its rules were
registered, the network was finalised, and its children were created. -/
theorem run_construct_eq_ok : (construct check registration create).run v = (.ok a, v') ↔
    ∃ checked v₁, check = .ok checked ∧ (registration checked).run v = (.ok ⟨⟩, v₁) ∧
      Vcn.finalizeNetwork.run v₁ = (.ok ⟨⟩, v') ∧ create checked v' = .ok a := by
  simp only [construct, run_bind_eq_ok, run_attempt, run_get, Prod.mk.injEq]
  constructor
  · rintro ⟨checked, _, ⟨hcheck, rfl⟩, _, v₁, hreg, _, v₂, hfin, _, _, ⟨hv, rfl⟩, hcreate, rfl⟩
    obtain rfl := Except.ok.inj hv
    exact ⟨checked, v₁, hcheck, hreg, hfin, hcreate⟩
  · rintro ⟨checked, v₁, hcheck, hreg, hfin, hcreate⟩
    exact ⟨checked, v, ⟨hcheck, rfl⟩, ⟨⟩, v₁, hreg, ⟨⟩, v', hfin, v', v', ⟨rfl, rfl⟩, hcreate, rfl⟩

/-- A constructor moves the network as its registration does, and may finalise it. -/
theorem preservesUnless_evolves_construct {allowed : NetworkState → RuleCall → Prop}
    {n : NetworkState} {E : PyError → Prop}
    (h : ∀ checked, check = .ok checked →
      PreservesUnless E (Vcn.EvolvedFrom allowed n) (registration checked)) :
    PreservesUnless E (Vcn.EvolvedFrom allowed n) (construct check registration create) := by
  unfold construct
  cases hcheck : check with
  | error e => exact fun v hv _ => hv
  | ok checked =>
    have hcreate : Preserves (Vcn.EvolvedFrom allowed n)
        (get >>= fun v => attempt (create checked v)) :=
      preserves_get_bind fun w hw => preserves_attempt (create checked w) w hw
    change PreservesUnless E _ (registration checked >>= fun _ => Vcn.finalizeNetwork >>= fun _ =>
      get >>= fun v => attempt (create checked v))
    exact PreservesUnless.bind (h checked hcheck) fun _ =>
      PreservesUnless.bind preserves_evolves_finalize.unless fun _ => hcreate.unless

end Construct

end CloudSpells
