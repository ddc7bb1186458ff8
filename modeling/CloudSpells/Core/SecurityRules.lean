import CloudSpells.Core.Role

/-!
# Core/SecurityRules — cloud-neutral security rules

The rule descriptors spells hand to a network before any provider translates them.  A peer is a
CIDR, `"internet"` or `"cloud-services"`.
-/

namespace CloudSpells

/-- `IngressRule`. -/
structure IngressRule where
  protocol : String
  source : String
  portMin : Option ℤ := none
  portMax : Option ℤ := none
  description : String := ""
  deriving DecidableEq, Repr

/-- `EgressRule`. -/
structure EgressRule where
  protocol : String
  destination : String
  portMin : Option ℤ := none
  portMax : Option ℤ := none
  description : String := ""
  deriving DecidableEq, Repr

/-- `SecurityRules`: the eight lists, by tier. -/
structure SecurityRules where
  ingress : SubnetTier → List IngressRule := fun _ => []
  egress : SubnetTier → List EgressRule := fun _ => []

/-- `INTERNET`. -/
def INTERNET : String := "0.0.0.0/0"

end CloudSpells
