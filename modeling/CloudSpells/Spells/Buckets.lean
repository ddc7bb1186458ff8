import CloudSpells.Spells.Standalone

/-!
# Spells/Buckets — the names of the buckets of a tenancy

Buckets share one namespace across the stacks of a tenancy, and each is named
`{stack}-{name}-bucket`, whichever storage spell makes it.  Two of these names are the same exactly
where the stack and the name are, or where the one stack goes on with what the other name begins
with (`bucketName_eq_iff`); so they are told apart where no stack has a dash in it
(`bucketName_ne_of_noDash`), and not in general.
-/

namespace CloudSpells

open Machinery.Segments

namespace BucketArgs

/-- The stack of the one goes on with what the name of the other begins with. -/
def Overlaps (args args' : BucketArgs) : Prop :=
  ∃ w, args.stackName = args'.stackName ++ "-" ++ w ∧ args'.name = w ++ "-" ++ args.name

/-- The stack and the name of the two are the same. -/
def SameName (args args' : BucketArgs) : Prop :=
  args.stackName = args'.stackName ∧ args.name = args'.name

instance (args args' : BucketArgs) : Decidable (SameName args args') :=
  inferInstanceAs (Decidable (_ ∧ _))

/-- The two are to have buckets of their own: their stacks or names differ, or they are spells of
different classes in one stack. -/
def Apart (args args' : BucketArgs) : Prop :=
  ¬ SameName args args' ∨
    args.spell.token ≠ args'.spell.token ∧ args.stackName = args'.stackName

/-- The name of the bucket, as it is joined. -/
theorem joined_eq_iff_sameName {args args' : BucketArgs} :
    args.stackName ++ "-" ++ args.name = args'.stackName ++ "-" ++ args'.name ↔
      SameName args args' ∨ Overlaps args args' ∨ Overlaps args' args :=
  joined_eq_iff rfl

/-- A stack that goes on has a dash in it. -/
theorem dash_mem_of_overlaps {args args' : BucketArgs} (h : Overlaps args args') :
    '-' ∈ args.stackName.toList := by
  obtain ⟨w, heq, -⟩ := h
  rw [heq, String.toList_append, String.toList_append]
  exact List.mem_append_left _ (List.mem_append_right _ (List.mem_singleton.mpr rfl))

/-- A stack that goes on is another one. -/
theorem stackName_ne_of_overlaps {args args' : BucketArgs} (h : Overlaps args args') :
    args.stackName ≠ args'.stackName := by
  obtain ⟨w, heq, -⟩ := h
  intro hsame
  have hlength := congrArg (fun s => s.toList.length) (hsame.symm.trans heq)
  simp only [String.toList_append, List.length_append] at hlength
  have hdash : "-".toList.length = 1 := rfl
  omega

end BucketArgs

namespace Bucket

open BucketArgs

variable {args args' : BucketArgs} {a a' : Bucket}

/-- A bucket is named after the stack and the spell. -/
theorem bucketName_of_init (h : init args = .ok a) :
    a.bucketName = args.stackName ++ "-" ++ args.name ++ "-bucket" := by
  obtain ⟨hnamer, -, hbucket, hname, -⟩ := eq_of_init h
  rw [hname, hbucket, Resource.name]
  change a.namer.createResourceName "bucket" = _
  rw [hnamer, ResourceNamer.createResourceName]
  simp only [String.append_assoc]
  rfl

/-- **When two buckets have one name.** -/
theorem bucketName_eq_iff (h : init args = .ok a) (h' : init args' = .ok a') :
    a.bucketName = a'.bucketName ↔
      SameName args args' ∨ Overlaps args args' ∨ Overlaps args' args := by
  rw [bucketName_of_init h, bucketName_of_init h', ← joined_eq_iff_sameName]
  exact ⟨append_right_cancel, fun heq => by rw [heq]⟩

/-- **Stacks without a dash keep their buckets apart**, as far as their names go. -/
theorem bucketName_ne_of_noDash (h : init args = .ok a) (h' : init args' = .ok a')
    (hstack : '-' ∉ args.stackName.toList) (hstack' : '-' ∉ args'.stackName.toList)
    (hne : ¬ SameName args args') : a.bucketName ≠ a'.bucketName := by
  rw [Ne, bucketName_eq_iff h h']
  rintro (hsame | hover | hover)
  · exact hne hsame
  · exact hstack (dash_mem_of_overlaps hover)
  · exact hstack' (dash_mem_of_overlaps hover)

/-- **Buckets that are to be apart have names of their own** exactly where spells of one name in a
stack are of one class, and neither stack goes on with what the name in the other begins with. -/
theorem apart_bucketName_ne_iff (h : init args = .ok a) (h' : init args' = .ok a') :
    (Apart args args' → a.bucketName ≠ a'.bucketName) ↔
      (SameName args args' → args.spell.token = args'.spell.token) ∧
        ¬ Overlaps args args' ∧ ¬ Overlaps args' args := by
  rw [Ne, bucketName_eq_iff h h']
  constructor
  · intro hapart
    refine ⟨fun hsame => ?_, fun hover => ?_, fun hover => ?_⟩
    · by_contra hclass
      exact hapart (.inr ⟨hclass, hsame.1⟩) (.inl hsame)
    · exact hapart (.inl fun hsame => stackName_ne_of_overlaps hover hsame.1) (.inr (.inl hover))
    · exact hapart (.inl fun hsame => stackName_ne_of_overlaps hover hsame.1.symm)
        (.inr (.inr hover))
  · rintro ⟨hclass, hover, hover'⟩ hapart (hsame | h | h)
    · rcases hapart with hne | ⟨hne, -⟩
      · exact hne hsame
      · exact hne (hclass hsame)
    · exact hover h
    · exact hover' h

/-- Two stacks without a dash, with spells of one name. -/
theorem apart_bucketName_ne_iff_stacks : ∃ a a',
    init ⟨"logs", "dev", .objectStorageBucket⟩ = .ok a ∧
      init ⟨"logs", "prod", .backupBucket 30⟩ = .ok a' ∧ a.bucketName ≠ a'.bucketName := by
  obtain ⟨a, h⟩ : ∃ a, init ⟨"logs", "dev", .objectStorageBucket⟩ = .ok a := ⟨_, rfl⟩
  obtain ⟨a', h'⟩ : ∃ a', init ⟨"logs", "prod", .backupBucket 30⟩ = .ok a' := ⟨_, rfl⟩
  refine ⟨a, a', h, h', (apart_bucketName_ne_iff h h').mpr ⟨fun hsame => ?_, fun hover => ?_,
    fun hover => ?_⟩ (.inl (by decide))⟩
  · exact absurd hsame (by decide)
  · exact absurd (dash_mem_of_overlaps hover) (by decide)
  · exact absurd (dash_mem_of_overlaps hover) (by decide)

/-- A stack may go on with what the name begins with, and a spell of another class may have the name
in one stack. -/
theorem not_bucketName_ne : (∃ a a',
    init ⟨"logs", "prod-eu", .objectStorageBucket⟩ = .ok a ∧
      init ⟨"eu-logs", "prod", .objectStorageBucket⟩ = .ok a' ∧
      Apart ⟨"logs", "prod-eu", .objectStorageBucket⟩ ⟨"eu-logs", "prod", .objectStorageBucket⟩ ∧
      a.bucketName = a'.bucketName) ∧
    ∃ a a', init ⟨"logs", "prod", .objectStorageBucket⟩ = .ok a ∧
      init ⟨"logs", "prod", .backupBucket 30⟩ = .ok a' ∧
      Apart ⟨"logs", "prod", .objectStorageBucket⟩ ⟨"logs", "prod", .backupBucket 30⟩ ∧
      a.bucketName = a'.bucketName := by
  refine ⟨⟨_, _, rfl, rfl, .inl (by decide), by decide⟩,
    ⟨_, _, rfl, rfl, .inr ⟨by decide, rfl⟩, rfl⟩⟩

end Bucket

end CloudSpells
