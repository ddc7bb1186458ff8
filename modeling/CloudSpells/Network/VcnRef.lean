import CloudSpells.Network.State

/-!
# Network/VcnRef — a VCN seen from another stack

`Vcn.export` publishes a VCN under fixed keys and `VcnRef.from_stack_reference` reads them in
another stack.  An output of a stack is read as an `Output`, whether or not the key was exported:
where it was not, the `Output` resolves to nothing.

What is exported is what is read (`Vcn.exported_of_run`, `VcnRef.describes_of_exported`).  What was
not exported is not read as absent, though: a `VcnRef` takes an optional attribute for missing only
if it is given no `Output` at all, and `from_stack_reference` gives it one for every key.
-/

namespace CloudSpells

open Machinery Machinery.Exec

/-- `pulumi.Output[str]`, by the value it resolves to. -/
structure Output where
  value : Option Input
  deriving DecidableEq, Repr

/-- An argument of `VcnRef(…)`: a plain string, or an `Output`. -/
inductive RefInput
  | str (s : String)
  | output (o : Output)
  deriving DecidableEq, Repr

/-- `pulumi.Output.from_input`. -/
def RefInput.toOutput : RefInput → Output
  | str s => { value := some (.str s) }
  | output o => o

/-- `bool(…)`: a string is true unless it is empty, and an `Output` is true. -/
def RefInput.isTruthy : RefInput → Bool
  | str s => s ≠ ""
  | output _ => true

/-- `_SubnetRef`. -/
structure SubnetRef where
  id : Output
  deriving DecidableEq, Repr

/-- `_SecurityListRef`. -/
structure SecurityListRef where
  id : Output
  deriving DecidableEq, Repr

/-- The arguments of `VcnRef(…)`. -/
structure VcnRefArgs where
  vcnId : RefInput
  publicSubnetId : RefInput
  privateSubnetId : RefInput
  publicSubnetCidr : RefInput
  privateSubnetCidr : RefInput
  cidrBlock : Option RefInput := none
  publicSecurityListId : Option RefInput := none
  privateSecurityListId : Option RefInput := none
  secureSubnetId : Option RefInput := none
  secureSubnetCidr : Option RefInput := none
  secureSecurityListId : Option RefInput := none
  managementSubnetId : Option RefInput := none
  managementSubnetCidr : Option RefInput := none
  managementSecurityListId : Option RefInput := none
  drgId : Option RefInput := none
  deriving DecidableEq, Repr

/-- `VcnRef`. -/
structure VcnRef where
  id : Output
  cidrBlock : Output
  publicSubnet : SubnetRef
  privateSubnet : SubnetRef
  secureSubnet : Option SubnetRef
  managementSubnet : Option SubnetRef
  publicSubnetCidr : RefInput
  privateSubnetCidr : RefInput
  secureSubnetCidr : Option RefInput
  managementSubnetCidr : Option RefInput
  publicSecurityList : Option SecurityListRef
  privateSecurityList : Option SecurityListRef
  secureSecurityList : Option SecurityListRef
  managementSecurityList : Option SecurityListRef
  drgId : Option Output
  deriving DecidableEq, Repr

namespace VcnRef

/-- The check that a subnet's OCID and its CIDR come together. -/
def requireTogether (tier : String) (id cidr : Option RefInput) : Except PyError Unit :=
  let idKey := s!"{tier}_subnet_id"
  let cidrKey := s!"{tier}_subnet_cidr"
  if id.isNone ≠ cidr.isNone then
    let missing := if id.isSome then cidrKey else idKey
    let provided := if id.isSome then idKey else cidrKey
    .error (.valueError (s!"VcnRef: '{provided}' was provided but '{missing}' was not. " ++
      s!"Both {idKey} and {cidrKey} must be supplied together."))
  else .ok ⟨⟩

/-- `make(arg) if arg else None`. -/
def ofTruthy {α : Type} (make : Output → α) (arg : Option RefInput) : Option α :=
  arg.bind fun a => if a.isTruthy then some (make a.toOutput) else none

/-- `VcnRef(…)`. -/
def init (args : VcnRefArgs) : Except PyError VcnRef :=
  match args.cidrBlock with
  | none => .error (.valueError ("cidr_block is required for VcnRef. " ++
      "Pass the VCN's IPv4 CIDR (e.g. '10.0.0.0/18'). " ++
      "It is exported as 'cidr_block' by every CloudSpells VCN stack."))
  | some cidrBlock => do
    requireTogether "secure" args.secureSubnetId args.secureSubnetCidr
    requireTogether "management" args.managementSubnetId args.managementSubnetCidr
    return {
      id := args.vcnId.toOutput
      cidrBlock := cidrBlock.toOutput
      publicSubnet := { id := args.publicSubnetId.toOutput }
      privateSubnet := { id := args.privateSubnetId.toOutput }
      secureSubnet := ofTruthy SubnetRef.mk args.secureSubnetId
      managementSubnet := ofTruthy SubnetRef.mk args.managementSubnetId
      publicSubnetCidr := args.publicSubnetCidr
      privateSubnetCidr := args.privateSubnetCidr
      secureSubnetCidr := args.secureSubnetCidr
      managementSubnetCidr := args.managementSubnetCidr
      publicSecurityList := ofTruthy SecurityListRef.mk args.publicSecurityListId
      privateSecurityList := ofTruthy SecurityListRef.mk args.privateSecurityListId
      secureSecurityList := ofTruthy SecurityListRef.mk args.secureSecurityListId
      managementSecurityList := ofTruthy SecurityListRef.mk args.managementSecurityListId
      drgId := ofTruthy (fun o => o) args.drgId }

/-- `pulumi.StackReference.get_output`, where `outputs` are the outputs of the stack referred to. -/
def getOutput (outputs : String → Option Input) (key : String) : RefInput :=
  .output { value := outputs key }

/-- `from_stack_reference`. -/
def fromStackReference (outputs : String → Option Input) : Except PyError VcnRef :=
  init {
    vcnId := getOutput outputs "vcn_id"
    publicSubnetId := getOutput outputs "public_subnet_id"
    privateSubnetId := getOutput outputs "private_subnet_id"
    secureSubnetId := getOutput outputs "secure_subnet_id"
    publicSubnetCidr := getOutput outputs "public_subnet_cidr"
    privateSubnetCidr := getOutput outputs "private_subnet_cidr"
    secureSubnetCidr := getOutput outputs "secure_subnet_cidr"
    cidrBlock := getOutput outputs "cidr_block"
    publicSecurityListId := getOutput outputs "public_security_list_id"
    privateSecurityListId := getOutput outputs "private_security_list_id"
    secureSecurityListId := getOutput outputs "secure_security_list_id"
    managementSubnetId := getOutput outputs "management_subnet_id"
    managementSubnetCidr := getOutput outputs "management_subnet_cidr"
    managementSecurityListId := getOutput outputs "management_security_list_id"
    drgId := getOutput outputs "drg_id" }

/-- `{tier}_subnet`. -/
def subnet (ref : VcnRef) : SubnetTier → Option SubnetRef
  | .pub => some ref.publicSubnet
  | .priv => some ref.privateSubnet
  | .sec => ref.secureSubnet
  | .mgmt => ref.managementSubnet

/-- `{tier}_security_list`. -/
def securityList (ref : VcnRef) : SubnetTier → Option SecurityListRef
  | .pub => ref.publicSecurityList
  | .priv => ref.privateSecurityList
  | .sec => ref.secureSecurityList
  | .mgmt => ref.managementSecurityList

/-- `get_{tier}_subnet_cidr`. -/
def getSubnetCidr (ref : VcnRef) : SubnetTier → Except PyError RefInput
  | .pub => .ok ref.publicSubnetCidr
  | .priv => .ok ref.privateSubnetCidr
  | .sec => match ref.secureSubnetCidr with
    | some cidr => .ok cidr
    | none => .error (.valueError ("VcnRef was constructed without a secure_subnet_cidr. " ++
        "Pass the secure subnet CIDR when constructing VcnRef."))
  | .mgmt => match ref.managementSubnetCidr with
    | some cidr => .ok cidr
    | none => .error (.valueError ("VcnRef was constructed without a management_subnet_cidr. " ++
        "Pass the management subnet CIDR when constructing VcnRef."))

/-- **A stack reference is never refused**, and every optional attribute of it is set. -/
theorem fromStackReference_eq (outputs : String → Option Input) :
    fromStackReference outputs = .ok {
      id := ⟨outputs "vcn_id"⟩
      cidrBlock := ⟨outputs "cidr_block"⟩
      publicSubnet := ⟨⟨outputs "public_subnet_id"⟩⟩
      privateSubnet := ⟨⟨outputs "private_subnet_id"⟩⟩
      secureSubnet := some ⟨⟨outputs "secure_subnet_id"⟩⟩
      managementSubnet := some ⟨⟨outputs "management_subnet_id"⟩⟩
      publicSubnetCidr := .output ⟨outputs "public_subnet_cidr"⟩
      privateSubnetCidr := .output ⟨outputs "private_subnet_cidr"⟩
      secureSubnetCidr := some (.output ⟨outputs "secure_subnet_cidr"⟩)
      managementSubnetCidr := some (.output ⟨outputs "management_subnet_cidr"⟩)
      publicSecurityList := some ⟨⟨outputs "public_security_list_id"⟩⟩
      privateSecurityList := some ⟨⟨outputs "private_security_list_id"⟩⟩
      secureSecurityList := some ⟨⟨outputs "secure_security_list_id"⟩⟩
      managementSecurityList := some ⟨⟨outputs "management_security_list_id"⟩⟩
      drgId := some ⟨outputs "drg_id"⟩ } := rfl

end VcnRef

/-! ## What is exported -/

/-- The keys of a subnet's OCID, of its CIDR and of its security list. -/
def subnetIdKey : SubnetTier → String
  | .pub => "public_subnet_id"
  | .priv => "private_subnet_id"
  | .sec => "secure_subnet_id"
  | .mgmt => "management_subnet_id"

def subnetCidrKey : SubnetTier → String
  | .pub => "public_subnet_cidr"
  | .priv => "private_subnet_cidr"
  | .sec => "secure_subnet_cidr"
  | .mgmt => "management_subnet_cidr"

def securityListIdKey : SubnetTier → String
  | .pub => "public_security_list_id"
  | .priv => "private_security_list_id"
  | .sec => "secure_security_list_id"
  | .mgmt => "management_security_list_id"

/-- The outputs of the stack name the VCN's network. -/
structure Exported (v : Vcn) : Prop where
  vcnId : v.outputs "vcn_id" = some (.id v.id)
  cidrBlock : v.outputs "cidr_block" = some (.str v.cidrBlock)
  subnetId : ∀ t, ∃ s, v.subnet t = some s ∧ v.outputs (subnetIdKey t) = some (.id s.resource)
  subnetCidr : ∀ t, v.outputs (subnetCidrKey t) = some (.str (v.subnetCidrs.ofTier t))
  securityListId : ∀ t, ∃ sl, v.securityList t = some sl ∧
    v.outputs (securityListIdKey t) = some (.id sl.resource)
  drgId : ∀ drg attachment, v.drg = some drg → v.drgAttachment = some attachment →
    v.outputs "drg_id" = some (.id drg)

namespace Vcn

/-- The VCN with other outputs. -/
def setOutputs (v : Vcn) (outputs : String → Option Input) : Vcn := { v with outputs := outputs }

section SetOutputs

variable (v : Vcn) (o o' : String → Option Input)

@[simp] theorem toVcnBase_setOutputs : (v.setOutputs o).toVcnBase = v.toVcnBase := rfl

@[simp] theorem subnet_setOutputs : (v.setOutputs o).subnet = v.subnet := rfl

@[simp] theorem securityList_setOutputs : (v.setOutputs o).securityList = v.securityList := rfl

@[simp] theorem outputs_setOutputs : (v.setOutputs o).outputs = o := rfl

@[simp] theorem setOutputs_setOutputs : (v.setOutputs o).setOutputs o' = v.setOutputs o' := rfl

@[simp] theorem run_pulumiExport_bind {α : Type} (key : String) (value : Input)
    (f : Unit → Py Vcn α) : (pulumiExport key value >>= f).run v =
      (f ⟨⟩).run (v.setOutputs (Function.update v.outputs key (some value))) := rfl

end SetOutputs

/-- What follows a check of `export` runs where the subnet is there. -/
theorem run_requireSubnet_bind {α : Type} {v v' : Vcn} {tier : SubnetTier}
    {f : Subnet → Py Vcn α} {a : α} (h : (requireSubnet tier >>= f).run v = (.ok a, v')) :
    ∃ s, v.subnet tier = some s ∧ (f s).run v = (.ok a, v') := by
  rw [requireSubnet, run_bind, run_get_bind] at h
  cases hs : v.subnet tier with
  | none => simp [hs] at h
  | some s => exact ⟨s, rfl, by simpa [hs] using h⟩

/-- …and what follows a look at a security list, where the list is there. -/
theorem run_getSecurityList_bind {α : Type} {v v' : Vcn} {tier : SubnetTier}
    {f : SecurityList → Py Vcn α} {a : α} (h : (getSecurityList tier >>= f).run v = (.ok a, v')) :
    ∃ sl, v.securityList tier = some sl ∧ (f sl).run v = (.ok a, v') := by
  rw [getSecurityList, run_bind, run_get_bind] at h
  cases hsl : v.securityList tier with
  | none => simp [hsl, getAttr] at h
  | some sl => exact ⟨sl, rfl, by simpa [hsl, getAttr] using h⟩

/-- The output of the flow logs has a key of its own. -/
private theorem run_exportFlowLogs (v : Vcn) : ∃ outputs,
    exportFlowLogs.run v = (.ok ⟨⟩, v.setOutputs outputs) ∧
      ∀ key ≠ "network_audit_log_group_id", outputs key = v.outputs key := by
  rw [exportFlowLogs, run_get_bind]
  cases v.flowLogs with
  | none => exact ⟨v.outputs, rfl, fun _ _ => rfl⟩
  | some flowLogs =>
    refine ⟨Function.update v.outputs "network_audit_log_group_id" (some (.id flowLogs.logGroup)),
      rfl, fun key hkey => Function.update_of_ne hkey _ _⟩

/-- …and so have those of the gateway, where there is one. -/
private theorem run_exportDrg (v : Vcn) : ∃ outputs,
    exportDrg.run v = (.ok ⟨⟩, v.setOutputs outputs) ∧
      (∀ key ∉ ["drg_id", "drg_attachment_id"], outputs key = v.outputs key) ∧
      ∀ drg attachment, v.drg = some drg → v.drgAttachment = some attachment →
        outputs "drg_id" = some (.id drg) := by
  rw [exportDrg, run_get_bind]
  cases v.drg with
  | none => exact ⟨v.outputs, rfl, fun _ _ => rfl, fun _ _ h => nomatch h⟩
  | some drg =>
    cases v.drgAttachment with
    | none => exact ⟨v.outputs, rfl, fun _ _ => rfl, fun _ _ _ h => nomatch h⟩
    | some attachment =>
      refine ⟨Function.update (Function.update v.outputs "drg_id" (some (.id drg)))
        "drg_attachment_id" (some (.id attachment)), rfl, fun key hkey => ?_, fun drg' _ h _ => ?_⟩
      · simp only [List.mem_cons, List.not_mem_nil, or_false, not_or] at hkey
        rw [Function.update_of_ne hkey.2, Function.update_of_ne hkey.1]
      · obtain rfl := Option.some.inj h
        simp

/-- The two together. -/
private theorem run_exportDrg_exportFlowLogs (v : Vcn) : ∃ outputs,
    (exportDrg >>= fun _ => exportFlowLogs).run v = (.ok ⟨⟩, v.setOutputs outputs) ∧
      (∀ key ∉ ["drg_id", "drg_attachment_id", "network_audit_log_group_id"],
        outputs key = v.outputs key) ∧
      ∀ drg attachment, v.drg = some drg → v.drgAttachment = some attachment →
        outputs "drg_id" = some (.id drg) := by
  obtain ⟨o₁, hrun₁, hkept₁, hdrg⟩ := run_exportDrg v
  obtain ⟨o₂, hrun₂, hkept₂⟩ := run_exportFlowLogs (v.setOutputs o₁)
  refine ⟨o₂, (run_bind_ok hrun₁).trans hrun₂, fun key hkey => ?_, fun drg attachment h h' => ?_⟩
  · simp only [List.mem_cons, List.not_mem_nil, or_false, not_or] at hkey
    rw [hkept₂ key hkey.2.2]
    exact hkept₁ key (by simp [hkey])
  · rw [hkept₂ _ (by simp)]
    exact hdrg drg attachment h h'

/-- **An export that returns has named the network.** -/
theorem exported_of_run {v v' : Vcn} (h : exportOutputs.run v = (.ok ⟨⟩, v')) : Exported v' := by
  obtain ⟨-, w, -, h⟩ := run_bind_eq_ok.mp h
  obtain ⟨pub, hpub, h⟩ := run_requireSubnet_bind h
  obtain ⟨priv, hpriv, h⟩ := run_requireSubnet_bind h
  obtain ⟨sec, hsec, h⟩ := run_requireSubnet_bind h
  obtain ⟨mgmt, hmgmt, h⟩ := run_requireSubnet_bind h
  simp only [run_get_bind, run_pulumiExport_bind, setOutputs_setOutputs, outputs_setOutputs] at h
  obtain ⟨slPub, hslPub, h⟩ := run_getSecurityList_bind h
  rw [run_pulumiExport_bind, setOutputs_setOutputs] at h
  obtain ⟨slPriv, hslPriv, h⟩ := run_getSecurityList_bind h
  rw [run_pulumiExport_bind, setOutputs_setOutputs] at h
  obtain ⟨slSec, hslSec, h⟩ := run_getSecurityList_bind h
  simp only [run_pulumiExport_bind, setOutputs_setOutputs, outputs_setOutputs] at h
  obtain ⟨slMgmt, hslMgmt, h⟩ := run_getSecurityList_bind h
  rw [run_pulumiExport_bind, setOutputs_setOutputs] at h
  obtain ⟨outputs, hrun, hkept, hdrg⟩ := run_exportDrg_exportFlowLogs _
  obtain rfl := (Prod.mk.inj (hrun.symm.trans h)).2
  refine ⟨?_, ?_, fun t => ?_, fun t => ?_, fun t => ?_, hdrg⟩
  · exact (hkept _ (by simp)).trans (by simp)
  · exact (hkept _ (by simp)).trans (by simp)
  · have hkey := hkept (subnetIdKey t) (by cases t <;> simp [subnetIdKey])
    cases t with
    | pub => exact ⟨pub, hpub, hkey.trans (by simp [subnetIdKey])⟩
    | priv => exact ⟨priv, hpriv, hkey.trans (by simp [subnetIdKey])⟩
    | sec => exact ⟨sec, hsec, hkey.trans (by simp [subnetIdKey])⟩
    | mgmt => exact ⟨mgmt, hmgmt, hkey.trans (by simp [subnetIdKey])⟩
  · have hkey := hkept (subnetCidrKey t) (by cases t <;> simp [subnetCidrKey])
    exact hkey.trans (by cases t <;> simp [subnetCidrKey, SubnetCidrs.ofTier])
  · have hkey := hkept (securityListIdKey t) (by cases t <;> simp [securityListIdKey])
    cases t with
    | pub => exact ⟨slPub, hslPub, hkey.trans (by simp [securityListIdKey])⟩
    | priv => exact ⟨slPriv, hslPriv, hkey.trans (by simp [securityListIdKey])⟩
    | sec => exact ⟨slSec, hslSec, hkey.trans (by simp [securityListIdKey])⟩
    | mgmt => exact ⟨slMgmt, hslMgmt, hkey.trans (by simp [securityListIdKey])⟩

end Vcn

/-! ## What is read -/

namespace VcnRef

/-- A reference reads as the VCN: its OCIDs and its CIDRs, and its gateway where it has one. -/
structure Describes (ref : VcnRef) (v : Vcn) : Prop where
  id : ref.id = ⟨some (.id v.id)⟩
  cidrBlock : ref.cidrBlock = ⟨some (.str v.cidrBlock)⟩
  subnetId : ∀ t, ∃ s, v.subnet t = some s ∧ ref.subnet t = some ⟨⟨some (.id s.resource)⟩⟩
  subnetCidr : ∀ t, ref.getSubnetCidr t = .ok (.output ⟨some (.str (v.subnetCidrs.ofTier t))⟩)
  securityListId : ∀ t, ∃ sl, v.securityList t = some sl ∧
    ref.securityList t = some ⟨⟨some (.id sl.resource)⟩⟩
  drgId : ∀ drg, v.drg = some drg → ref.drgId = some ⟨some (.id drg)⟩

/-- **What a VCN exported, a reference reads.** -/
theorem describes_of_exported {v : Vcn} (h : Exported v)
    (hdrg : ∀ drg, v.drg = some drg → ∃ attachment, v.drgAttachment = some attachment) :
    ∃ ref, fromStackReference v.outputs = .ok ref ∧ ref.Describes v := by
  refine ⟨_, fromStackReference_eq v.outputs, ?_, ?_, fun t => ?_, fun t => ?_, fun t => ?_,
    fun drg hv => ?_⟩
  · rw [h.vcnId]
  · rw [h.cidrBlock]
  · obtain ⟨s, hs, hid⟩ := h.subnetId t
    refine ⟨s, hs, ?_⟩
    cases t <;> exact congrArg (fun value => some (SubnetRef.mk ⟨value⟩)) hid
  · have hcidr := h.subnetCidr t
    cases t <;> exact congrArg (fun value => Except.ok (RefInput.output ⟨value⟩)) hcidr
  · obtain ⟨sl, hsl, hid⟩ := h.securityListId t
    refine ⟨sl, hsl, ?_⟩
    cases t <;> exact congrArg (fun value => some (SecurityListRef.mk ⟨value⟩)) hid
  · obtain ⟨attachment, hattachment⟩ := hdrg drg hv
    rw [h.drgId drg attachment hv hattachment]

/-- The keys of the attributes that may be absent. -/
def optionalKeys : List String :=
  ["drg_id", "secure_subnet_id", "management_subnet_id", "public_security_list_id",
   "private_security_list_id", "secure_security_list_id", "management_security_list_id"]

/-- Each optional attribute is `None` exactly where its key was not exported. -/
structure AbsenceKept (outputs : String → Option Input) (ref : VcnRef) : Prop where
  drgId : ref.drgId = none ↔ outputs "drg_id" = none
  secureSubnet : ref.secureSubnet = none ↔ outputs "secure_subnet_id" = none
  managementSubnet : ref.managementSubnet = none ↔ outputs "management_subnet_id" = none
  securityList : ∀ t, ref.securityList t = none ↔ outputs (securityListIdKey t) = none

/-- **A reference tells what is absent iff nothing is.** -/
theorem absenceKept_iff (outputs : String → Option Input) :
    ∃ ref, fromStackReference outputs = .ok ref ∧
      (ref.AbsenceKept outputs ↔ ∀ key ∈ optionalKeys, outputs key ≠ none) := by
  refine ⟨_, fromStackReference_eq outputs, fun h => ?_, fun h => ?_⟩
  · have hpub := h.securityList .pub
    have hpriv := h.securityList .priv
    have hsec := h.securityList .sec
    have hmgmt := h.securityList .mgmt
    simp only [securityList, securityListIdKey, reduceCtorEq, false_iff] at hpub hpriv hsec hmgmt
    have hdrg := h.drgId
    have hsecure := h.secureSubnet
    have hmanagement := h.managementSubnet
    simp only [reduceCtorEq, false_iff] at hdrg hsecure hmanagement
    simp [optionalKeys, *]
  · simp only [optionalKeys, List.forall_mem_cons] at h
    obtain ⟨hdrg, hsecure, hmanagement, hpub, hpriv, hsec, hmgmt, -⟩ := h
    refine ⟨iff_of_false (by simp) hdrg, iff_of_false (by simp) hsecure,
      iff_of_false (by simp) hmanagement, fun t => ?_⟩
    cases t with
    | pub => exact iff_of_false (by simp [securityList]) hpub
    | priv => exact iff_of_false (by simp [securityList]) hpriv
    | sec => exact iff_of_false (by simp [securityList]) hsec
    | mgmt => exact iff_of_false (by simp [securityList]) hmgmt

end VcnRef

/-- A VCN with a gateway has an attachment. -/
theorem VcnBase.Built.drgAttachment {cloud : Cloud} {base : VcnBase} (h : base.Built cloud)
    {drg : Resource} (hdrg : base.drg = some drg) : ∃ a, base.drgAttachment = some a := by
  rw [h.drg_eq] at hdrg
  rw [h.drgAttachment_eq]
  split at hdrg
  · exact ⟨_, if_pos ‹_›⟩
  · cases hdrg

/-- **Export and reference.**  After an export that returns, a reference to the stack reads as the
VCN; and it tells which optional outputs are absent iff none is. -/
theorem vcnRef_of_exportOutputs {cloud : Cloud} {v v' : Vcn} (hbuilt : v.Built cloud)
    (hrun : Vcn.exportOutputs.run v = (.ok ⟨⟩, v')) :
    (∃ ref, VcnRef.fromStackReference v'.outputs = .ok ref ∧ ref.Describes v') ∧
      ∀ outputs, ∃ ref, VcnRef.fromStackReference outputs = .ok ref ∧
        (ref.AbsenceKept outputs ↔ ∀ key ∈ VcnRef.optionalKeys, outputs key ≠ none) := by
  refine ⟨?_, VcnRef.absenceKept_iff⟩
  refine VcnRef.describes_of_exported (Vcn.exported_of_run hrun) fun drg hdrg => ?_
  have hnet : v'.network = v.network.finalize := by
    rw [← v.network_exportOutputs, after, hrun]
  have hbase : v'.toVcnBase = v.toVcnBase :=
    (congrArg NetworkState.base hnet).trans v.network.base_finalize
  rw [hbase] at hdrg ⊢
  exact hbuilt.drgAttachment hdrg

/-- The arguments of a VCN with a gateway to an office. -/
def gatewayArgs : VcnArgs :=
  { defaultArgs with drg := true, onPremiseCidrs := ["192.168.0.0/16"] }

/-- The attributes of the VCN these arguments make. -/
def gatewayBase : VcnBase :=
  { defaultBase with
    drgEnabled := true
    onPremiseCidrs := ["192.168.0.0/16"]
    drg := some (vcnChild defaultBase.namer .drg "drg")
    drgAttachment := some (vcnChild defaultBase.namer .drgAttachment "drg-attach")
    routeTable := createRouteTables defaultBase.namer (getSvcCidr bundleCloud)
      (some (vcnChild defaultBase.namer .drg "drg")) ["192.168.0.0/16"] }

theorem init_gateway : Vcn.init bundleCloud gatewayArgs = .ok gatewayBase.fresh := by
  have hcidr : strOr gatewayArgs.cidrBlock "10.0.0.0/18" = "10.0.0.0/18" := rfl
  rw [Vcn.init, VcnBase.init, hcidr, splitTiers_default]
  rfl

/-- Such a VCN exports, and is read back with its gateway. -/
theorem vcnRef_of_exportOutputs_gateway : ∃ v' ref drg,
    Vcn.exportOutputs.run gatewayBase.fresh = (.ok ⟨⟩, v') ∧
      VcnRef.fromStackReference v'.outputs = .ok ref ∧ ref.Describes v' ∧
      v'.drg = some drg ∧ ref.drgId = some ⟨some (.id drg)⟩ := by
  have hrun : Vcn.exportOutputs.outcome gatewayBase.fresh = .ok ⟨⟩ := by
    rw [Vcn.exportOutputs, Vcn.finalizeNetwork_eq]
    rfl
  have hexport : Vcn.exportOutputs.run gatewayBase.fresh =
      (.ok ⟨⟩, Vcn.exportOutputs.after gatewayBase.fresh) := Prod.ext hrun rfl
  obtain ⟨ref, href, hdescribes⟩ :=
    (vcnRef_of_exportOutputs (built_of_init init_gateway).1 hexport).1
  have hdrg : (Vcn.exportOutputs.after gatewayBase.fresh).drg = gatewayBase.drg := by
    rw [Vcn.exportOutputs, Vcn.finalizeNetwork_eq]
    rfl
  exact ⟨_, ref, _, hexport, href, hdescribes, hdrg, hdescribes.drgId _ hdrg⟩

/-- The VCN with the default arguments has no gateway, but its reference has the OCID of one. -/
theorem drgId_of_default :
    ∃ ref, VcnRef.fromStackReference (Vcn.exportOutputs.after defaultBase.fresh).outputs = .ok ref ∧
      (Vcn.exportOutputs.after defaultBase.fresh).outputs "drg_id" = none ∧ ref.drgId ≠ none := by
  refine ⟨_, VcnRef.fromStackReference_eq _, ?_, by simp⟩
  rw [Vcn.exportOutputs, Vcn.finalizeNetwork_eq]
  decide

end CloudSpells
