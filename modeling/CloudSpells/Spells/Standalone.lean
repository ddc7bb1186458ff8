import CloudSpells.Core.Naming
import CloudSpells.Core.Python

/-!
# Spells/Standalone — the spells without a VCN

The storage spells make a bucket each, two of them with a lifecycle policy; the IAM spells make a
group, dynamic or not, and a policy for it.  None is given a VCN, and what they check is their own.
-/

namespace CloudSpells

/-! ## Storage -/

/-- The five storage spells, with the arguments they check. -/
inductive BucketSpell
  | objectStorageBucket
  | backupBucket (retentionDays : ℤ)
  | dataLakeBucket (hotDays deleteDays : ℤ)
  | archiveBucket (retentionDays : ℤ)
  | staticWebsiteBucket
  deriving DecidableEq, Repr

namespace BucketSpell

/-- The type token of a spell. -/
def token : BucketSpell → String
  | objectStorageBucket => "custom:storage:ObjectStorageBucket"
  | backupBucket _ => "custom:storage:BackupBucket"
  | dataLakeBucket _ _ => "custom:storage:DataLakeBucket"
  | archiveBucket _ => "custom:storage:ArchiveBucket"
  | staticWebsiteBucket => "custom:storage:StaticWebsiteBucket"

/-- The checks of its constructor. -/
def check : BucketSpell → Except PyError Unit
  | backupBucket retentionDays | archiveBucket retentionDays =>
    if retentionDays ≤ 0 then
      .error (.valueError s!"retention_days ({retentionDays}) must be greater than 0")
    else .ok ⟨⟩
  | dataLakeBucket hotDays deleteDays =>
    if deleteDays ≤ hotDays then
      .error (.valueError
        s!"delete_days ({deleteDays}) must be greater than hot_days ({hotDays})")
    else .ok ⟨⟩
  | objectStorageBucket | staticWebsiteBucket => .ok ⟨⟩

/-- Whether it makes a lifecycle policy. -/
def hasLifecycle : BucketSpell → Bool
  | backupBucket _ | dataLakeBucket _ _ => true
  | _ => false

end BucketSpell

/-- The arguments of a storage spell besides the compartment and the namespace. -/
structure BucketArgs where
  name : String
  stackName : String
  spell : BucketSpell
  deriving DecidableEq, Repr

/-- A bucket with its policy; it has the same name for the engine and for the cloud. -/
structure Bucket where
  namer : ResourceNamer
  spell : BucketSpell
  bucket : Resource
  bucketName : String
  lifecyclePolicy : Option Resource
  deriving DecidableEq, Repr

namespace Bucket

/-- A child resource of a storage spell. -/
def child (namer : ResourceNamer) (spell : BucketSpell) (type : ResourceType) (suffix : String) :
    Resource where
  spell := spell.token
  namer := namer
  type := type
  suffix := suffix

/-- `ObjectStorageBucket(…)`, …, `StaticWebsiteBucket(…)`. -/
def init (args : BucketArgs) : Except PyError Bucket := do
  args.spell.check
  let namer : ResourceNamer := { stackName := args.stackName, resourceName := args.name }
  let bucketName := namer.createResourceName "bucket"
  let lifecycle := child namer args.spell .objectLifecyclePolicy "lifecycle"
  return {
    namer := namer
    spell := args.spell
    bucket := child namer args.spell .bucket "bucket"
    bucketName := bucketName
    lifecyclePolicy := if args.spell.hasLifecycle then some lifecycle else none }

/-- A bucket that was built. -/
theorem eq_of_init {args : BucketArgs} {a : Bucket} (h : init args = .ok a) :
    a.namer = { stackName := args.stackName, resourceName := args.name } ∧ a.spell = args.spell ∧
      a.bucket = child a.namer a.spell .bucket "bucket" ∧ a.bucketName = a.bucket.name ∧
      a.lifecyclePolicy = if a.spell.hasLifecycle then
        some (child a.namer a.spell .objectLifecyclePolicy "lifecycle") else none := by
  obtain ⟨_, -, h⟩ := bind_eq_ok.mp h
  obtain rfl := Except.ok.inj h
  exact ⟨rfl, rfl, rfl, rfl, rfl⟩

end Bucket

/-! ## IAM -/

/-- The three IAM spells, with the arguments they check. -/
inductive IamSpell
  | computeInstancePrincipal (grants : Option (List String))
  | okeNodePrincipal
  | compartmentAdminGroup
  deriving DecidableEq, Repr

namespace IamSpell

/-- The type token of a spell. -/
def token : IamSpell → String
  | computeInstancePrincipal _ => "custom:iam:ComputeInstancePrincipal"
  | okeNodePrincipal => "custom:iam:OkeNodePrincipal"
  | compartmentAdminGroup => "custom:iam:CompartmentAdminGroup"

/-- The check of its constructor. -/
def check : IamSpell → Except PyError Unit
  | computeInstancePrincipal (some []) =>
    .error (.valueError "grants must contain at least one policy fragment")
  | _ => .ok ⟨⟩

end IamSpell

/-- The arguments of an IAM spell besides the compartment and the tenancy. -/
structure IamArgs where
  name : String
  stackName : String
  spell : IamSpell
  deriving DecidableEq, Repr

/-- A group, dynamic or not, and the policy for it. -/
structure Principal where
  namer : ResourceNamer
  spell : IamSpell
  group : Resource
  policy : Resource
  deriving DecidableEq, Repr

namespace Principal

/-- A child resource of an IAM spell. -/
def child (namer : ResourceNamer) (spell : IamSpell) (type : ResourceType) (suffix : String) :
    Resource where
  spell := spell.token
  namer := namer
  type := type
  suffix := suffix

/-- The group of an IAM spell. -/
def groupOf (namer : ResourceNamer) (spell : IamSpell) : Resource :=
  match spell with
  | .computeInstancePrincipal _ | .okeNodePrincipal => child namer spell .dynamicGroup "dg"
  | .compartmentAdminGroup => child namer spell .group "group"

/-- `ComputeInstancePrincipal(…)`, `OkeNodePrincipal(…)`, `CompartmentAdminGroup(…)`. -/
def init (args : IamArgs) : Except PyError Principal := do
  args.spell.check
  let namer : ResourceNamer := { stackName := args.stackName, resourceName := args.name }
  return {
    namer := namer
    spell := args.spell
    group := groupOf namer args.spell
    policy := child namer args.spell .policy "policy" }

/-- A principal that was built. -/
theorem eq_of_init {args : IamArgs} {a : Principal} (h : init args = .ok a) :
    a.namer = { stackName := args.stackName, resourceName := args.name } ∧ a.spell = args.spell ∧
      a.group = groupOf a.namer a.spell ∧ a.policy = child a.namer a.spell .policy "policy" := by
  obtain ⟨_, -, h⟩ := bind_eq_ok.mp h
  obtain rfl := Except.ok.inj h
  exact ⟨rfl, rfl, rfl, rfl⟩

end Principal

end CloudSpells
