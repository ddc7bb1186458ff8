import CloudSpells.Machinery.Segments

/-!
# Core/Naming — resource names, resources and the values that refer to them

Every spell owns a `ResourceNamer` and names its children `{stack}-{name}-{suffix}`; repeated
children carry a one-based `ordinalSuffix`.  A `Resource` is what a spell asks the engine to
register: its name follows from its fields.  Its OCID is an output of the engine, so the model
identifies it with the resource itself: an `Input` is a plain string or the `.id` of a resource.
-/

namespace CloudSpells

open Machinery.Segments

/-- `ResourceNamer`: the names of one spell's children. -/
structure ResourceNamer where
  stackName : String
  resourceName : String
  deriving DecidableEq, Repr

/-- `create_resource_name`. -/
def ResourceNamer.createResourceName (namer : ResourceNamer) (suffix : String) : String :=
  s!"{namer.stackName}-{namer.resourceName}-{suffix}"

/-- **A suffix is read back from the name it makes.** -/
theorem ResourceNamer.createResourceName_injective (namer : ResourceNamer) :
    Function.Injective namer.createResourceName := fun _ _ h => append_left_cancel h

theorem ResourceNamer.createResourceName_append (namer : ResourceNamer) (a b : String) :
    namer.createResourceName a ++ b = namer.createResourceName (a ++ b) := String.append_assoc

/-- A name joined by hand is that of its suffix. -/
theorem ResourceNamer.joined_eq_createResourceName (namer : ResourceNamer) (stem joint : String)
    (h : joint = "-" ++ (stem ++ "-")) (label : String) :
    namer.stackName ++ "-" ++ namer.resourceName ++ joint ++ label =
      namer.createResourceName (stem ++ "-" ++ label) := by
  rw [h, ← namer.createResourceName_append]
  change _ = namer.stackName ++ "-" ++ namer.resourceName ++ "-" ++ (stem ++ "-") ++ label
  simp only [String.append_assoc]

/-- `ordinal_suffix`: the indices are counted from zero, the ordinals from one.  The source refuses
a negative index; its callers pass positions in a list and a counter that starts at zero. -/
def ordinalSuffix (stem : String) (index : ℕ) : String :=
  "-".intercalate [stem, toString (index + 1)]

theorem ordinalSuffix_eq (stem : String) (index : ℕ) :
    ordinalSuffix stem index = stem ++ "-" ++ toString (index + 1) := by
  rw [← String.toList_inj]
  simp [ordinalSuffix, String.toList_append]

/-- The ordinals of one stem are distinct. -/
theorem ordinalSuffix_injective (stem : String) : Function.Injective (ordinalSuffix stem) := by
  intro i j h
  rw [ordinalSuffix_eq, ordinalSuffix_eq] at h
  have hrepr : toString (i + 1) = toString (j + 1) := append_left_cancel h
  exact Nat.succ_injective (Nat.repr_injective hrepr)

/-- An ordinal ends in a digit. -/
theorem ne_ordinalSuffix_of_getLast {s stem : String} {c : Char}
    (hlast : s.toList.getLast? = some c) (hc : c.isDigit = false) (i : ℕ) :
    s ≠ ordinalSuffix stem i := by
  refine ne_of_getLast_ne fun heq => ?_
  have hne : (toString (i + 1)).toList ≠ [] := by
    rw [Nat.toString_eq_repr, Nat.toList_repr]
    exact Nat.toDigits_ne_nil
  rw [hlast, ordinalSuffix_eq, String.toList_append, List.getLast?_append_of_ne_nil _ hne] at heq
  rw [isDigit_of_mem_nat (List.mem_of_getLast? heq.symm)] at hc
  cases hc

/-! ## Resources -/

/-- The engine's resource types that the modelled spells register. -/
inductive ResourceType
  | vcn | defaultSecurityList | internetGateway | natGateway | serviceGateway | drg
  | drgAttachment | routeTable | securityList | subnet | logGroup | log
  | networkSecurityGroup | networkSecurityGroupSecurityRule
  | computeInstance | volume | volumeAttachment | bastion
  | loadBalancer | backendSet | ruleSet | listener
  | instanceConfiguration | instancePool | autoScalingConfiguration | cluster | nodePool
  | bucket | objectLifecyclePolicy | dynamicGroup | group | policy
  deriving DecidableEq, Repr

/-- A child resource of a spell: the spell's own type token and namer, the child's type and suffix,
and the legacy names it is an alias of. -/
structure Resource where
  spell : String
  namer : ResourceNamer
  type : ResourceType
  suffix : String
  aliases : List String := []
  deriving DecidableEq, Repr

/-- The name the resource is registered under. -/
def Resource.name (r : Resource) : String := r.namer.createResourceName r.suffix

/-- `pulumi.Input[str]`: a string, or the OCID of a resource. -/
inductive Input
  | str (s : String)
  | id (r : Resource)
  deriving DecidableEq, Repr

end CloudSpells
