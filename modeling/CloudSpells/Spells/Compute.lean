import CloudSpells.Spells.Nsg

/-!
# Spells/Compute — a compute instance with its volumes

A `ComputeInstance` opens SSH on the tier it is placed in, unless the VCN is finalised already: then
it adds nothing and takes the network as it finds it.  Its volumes and their attachments are
numbered from one, and are aliases of the names they had under their labels.
-/

namespace CloudSpells

open Machinery Machinery.Exec

/-! ## Volumes -/

/-- The fields of a `VolumeSpec`. -/
structure VolumeFields where
  sizeInGbs : ℤ
  label : String := "data"
  vpusPerGb : ℤ := 10
  isReadOnly : Bool := false
  device : Option String := none
  deriving DecidableEq, Repr

namespace VolumeFields

/-- `[a-z0-9]`. -/
def isLabelChar (c : Char) : Bool := c.isLower || c.isDigit

/-- `_LABEL_RE`; its `$` also matches before a newline that ends the label. -/
def isLabel (label : String) : Bool :=
  let chars := label.toList
  let chars := if chars.getLast? = some '\n' then chars.dropLast else chars
  let parts := chars.splitOn '-'
  (chars.head?.any Char.isLower) && parts.all fun part => !part.isEmpty && part.all isLabelChar

/-- `__post_init__`. -/
def postInit (spec : VolumeFields) : Except PyError Unit :=
  if spec.sizeInGbs < 50 then
    .error (.valueError s!"size_in_gbs must be >= 50; got {spec.sizeInGbs}")
  else if spec.sizeInGbs > 32768 then
    .error (.valueError
      s!"size_in_gbs must be <= 32768 (OCI block volume limit); got {spec.sizeInGbs}")
  else if spec.vpusPerGb ∉ [0, 10, 20, 120] then
    .error (.valueError ("vpus_per_gb must be one of [0, 10, 20, 120] " ++
      "(PERF_LOW=0, PERF_BALANCED=10, PERF_HIGH=20, PERF_ULTRA=120); " ++
      s!"got {spec.vpusPerGb}"))
  else if !isLabel spec.label then
    .error (.valueError ("label must start with a lowercase letter, end with a lowercase " ++
      "letter or digit, and contain only lowercase letters, digits, or " ++
      s!"single hyphens (no trailing or consecutive hyphens); got {pyRepr spec.label}"))
  else .ok ⟨⟩

end VolumeFields

/-- `VolumeSpec`: fields that `__post_init__` accepts. -/
structure VolumeSpec extends VolumeFields where
  valid : toVolumeFields.postInit = .ok ⟨⟩
  deriving DecidableEq, Repr

/-- `VolumeSpec(size_in_gbs=100)`. -/
def VolumeSpec.default : VolumeSpec where
  sizeInGbs := 100
  valid := by decide

/-! ## Instances -/

/-- The arguments of `ComputeInstance(…)` besides the VCN and the group. -/
structure ComputeArgs where
  name : String
  stackName : String
  subnet : SubnetTier := .priv
  volumes : Option (List VolumeSpec) := none
  deriving DecidableEq, Repr

/-- `ComputeInstance`. -/
structure ComputeInstance where
  namer : ResourceNamer
  subnet : SubnetTier
  subnetId : Resource
  nsgIds : List Resource
  instanceResource : Resource
  volumesSpec : List VolumeSpec
  blockVolumes : List Resource
  volumeAttachments : List Resource

namespace ComputeInstance

/-- A child resource of an instance. -/
def child (namer : ResourceNamer) (type : ResourceType) (suffix : String)
    (aliases : List String) : Resource where
  spell := "custom:compute:Instance"
  namer := namer
  type := type
  suffix := suffix
  aliases := aliases

/-- The tier of the instance: that of its group's role, where there is one. -/
def resolveSubnet (nsg : Option Nsg) (subnet : SubnetTier) : SubnetTier :=
  match nsg.bind Nsg.role with
  | some role => role.role.subnetTier
  | none => subnet

/-- The labels that occur more than once, sorted. -/
def duplicates (labels : List String) : List String :=
  (labels.filter fun label => 1 < labels.count label).dedup.mergeSort (fun a b => a ≤ b)

/-- The resolution of `volumes`, and the check of their labels. -/
def check (args : ComputeArgs) : Except PyError (List VolumeSpec) :=
  let specs := args.volumes.getD [VolumeSpec.default]
  let twice := duplicates (specs.map fun spec => spec.label)
  let found := ", ".intercalate (twice.map pyRepr)
  if specs = [] then
    .error (.valueError ("volumes must not be empty; pass volumes=None to use the default " ++
      "100 GiB data volume, or provide at least one VolumeSpec."))
  else if twice ≠ [] then
    .error (.valueError
      s!"VolumeSpec labels must be unique within the list; duplicates found: [{found}]")
  else .ok specs

theorem duplicates_eq_nil {labels : List String} : duplicates labels = [] ↔ labels.Nodup := by
  have hsort : ∀ l : List String, l.mergeSort (fun a b => a ≤ b) = [] ↔ l = [] := fun l => by
    rw [← List.length_eq_zero_iff, List.length_mergeSort, List.length_eq_zero_iff]
  rw [duplicates, hsort, List.dedup_eq_nil, List.filter_eq_nil_iff, List.nodup_iff_count_le_one]
  constructor
  · intro h label
    by_cases hmem : label ∈ labels
    · simpa using h label hmem
    · rw [List.count_eq_zero_of_not_mem hmem]
      exact Nat.zero_le _
  · intro h label _
    simpa using h label

/-- **The volumes an instance accepts**: at least one, under distinct labels. -/
theorem check_eq_ok {args : ComputeArgs} {specs : List VolumeSpec} :
    check args = .ok specs ↔ args.volumes.getD [VolumeSpec.default] = specs ∧ specs ≠ [] ∧
      (specs.map fun spec => spec.label).Nodup := by
  have hdup :
      duplicates ((args.volumes.getD [VolumeSpec.default]).map fun spec => spec.label) = [] ↔
      ((args.volumes.getD [VolumeSpec.default]).map fun spec => spec.label).Nodup :=
    duplicates_eq_nil
  unfold check
  dsimp only
  split
  · rename_i hnil
    refine iff_of_false (fun h => by cases h) ?_
    rintro ⟨rfl, hne, -⟩
    exact hne hnil
  · rename_i hne
    split
    · rename_i htwice
      refine iff_of_false (fun h => by cases h) ?_
      rintro ⟨rfl, -, hnodup⟩
      exact htwice (hdup.mpr hnodup)
    · rename_i hnone
      constructor
      · intro h
        obtain rfl := Except.ok.inj h
        exact ⟨rfl, hne, hdup.mp (not_not.mp hnone)⟩
      · rintro ⟨rfl, -, -⟩
        rfl

/-- The call of `_add_compute_security_rules`. -/
def ruleCalls (base : VcnBase) : SubnetTier → List RuleCall
  | .priv => [.unique "compute-private-ingress-tcp-22" (.single .priv .ingress
      [.tcp 22 (base.subnetCidrs.ofTier .pub) "SSH access from public subnet (bastion host)"])]
  | .sec => [.unique "compute-secure-ingress-tcp-22" (.single .sec .ingress
      [.tcp 22 (base.subnetCidrs.ofTier .priv) "SSH access from private subnet"])]
  | .mgmt => [.unique "compute-management-ingress-tcp-22" (.single .mgmt .ingress
      [.tcp 22 (base.subnetCidrs.ofTier .priv) "SSH access from private subnet"])]
  | .pub => [.unique "public-ingress-tcp-22" (.single .pub .ingress
      [.tcp 22 "0.0.0.0/0" "SSH access from the internet"])]

/-- Register the rules, unless the VCN is finalised. -/
def registration (subnet : SubnetTier) : Py Vcn Unit := do
  let v ← get
  if v.isFinalized then pure ⟨⟩ else register (ruleCalls v.toVcnBase subnet)

/-- `_assert_subnets_ready`. -/
def assertSubnetsReady (v : Vcn) : Except PyError Unit :=
  match [SubnetTier.priv, .pub, .sec, .mgmt].find? fun tier => (v.subnet tier).isNone with
  | some tier => .error (.runtimeError
      s!"VCN {tier.str} subnet must exist after finalize_network().")
  | none => .ok ⟨⟩

/-- The `index`th volume. -/
def volume (namer : ResourceNamer) (index : ℕ) (spec : VolumeSpec) : Resource :=
  child namer .volume (ordinalSuffix "vol" index)
    [s!"{namer.stackName}-{namer.resourceName}-{spec.label}-vol"]

/-- The attachment of the `index`th volume. -/
def attachment (namer : ResourceNamer) (index : ℕ) (spec : VolumeSpec) : Resource :=
  child namer .volumeAttachment (ordinalSuffix "vol-attach" index)
    [s!"{namer.stackName}-{namer.resourceName}-{spec.label}-vol-attach"]

/-- The instance and its volumes. -/
def create (nsg : Option Nsg) (args : ComputeArgs) (specs : List VolumeSpec) (v : Vcn) :
    Except PyError ComputeInstance := do
  let namer : ResourceNamer := { stackName := args.stackName, resourceName := args.name }
  let subnet := resolveSubnet nsg args.subnet
  assertSubnetsReady v
  let subnetId ← v.getSubnetId subnet
  return {
    namer := namer
    subnet := subnet
    subnetId := subnetId
    nsgIds := (nsg.map Nsg.nsg).toList
    instanceResource := child namer .computeInstance "instance" []
    volumesSpec := specs
    blockVolumes := specs.mapIdx (volume namer)
    volumeAttachments := specs.mapIdx (attachment namer) }

/-- `ComputeInstance(…)`. -/
def init (nsg : Option Nsg) (args : ComputeArgs) : Py Vcn ComputeInstance :=
  construct (check args) (fun _ => registration (resolveSubnet nsg args.subnet)) (create nsg args)

end ComputeInstance

end CloudSpells
