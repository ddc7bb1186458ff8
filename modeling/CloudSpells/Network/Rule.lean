import CloudSpells.Core.Role

/-!
# Network/Rule — security-list rules and the eight lists of a VCN

The provider's ingress and egress rule arguments have the same fields, `source` and `source_type` of
the one being `destination` and `destination_type` of the other: `SecurityListRule` is both.  A rule
belongs to one of eight lists, by tier and `Direction`; `RuleLists` is one list for each.
-/

namespace CloudSpells

/-- `source_type` and `destination_type`. -/
inductive PeerType
  | cidrBlock
  | serviceCidrBlock
  | networkSecurityGroup
  deriving DecidableEq, Repr

/-- A destination port range: `min` and `max`, inclusive. -/
structure PortRange where
  min : ℤ
  max : ℤ
  deriving DecidableEq, Repr

/-- ICMP options: a type and, optionally, a code. -/
structure IcmpOptions where
  type : ℤ
  code : Option ℤ := none
  deriving DecidableEq, Repr

/-- `SecurityListIngressSecurityRuleArgs` and `SecurityListEgressSecurityRuleArgs`. -/
structure SecurityListRule where
  protocol : String
  peer : String
  peerType : PeerType
  tcpOptions : Option PortRange := none
  udpOptions : Option PortRange := none
  icmpOptions : Option IcmpOptions := none
  description : String := ""
  deriving DecidableEq, Repr

namespace SecurityListRule

/-- The rule without its description. -/
def erase (r : SecurityListRule) : SecurityListRule := { r with description := "" }

/-- `protocol="6"` to or from a CIDR on one port. -/
def tcp (port : ℤ) (peer : String) (description : String) : SecurityListRule where
  protocol := "6"
  peer := peer
  peerType := .cidrBlock
  tcpOptions := some { min := port, max := port }
  description := description

/-- `protocol="all"`, to or from a peer. -/
def all (peer : String) (peerType : PeerType) (description : String) : SecurityListRule where
  protocol := "all"
  peer := peer
  peerType := peerType
  description := description

@[simp] theorem peer_erase (r : SecurityListRule) : r.erase.peer = r.peer := rfl

end SecurityListRule

/-! ## The eight lists -/

/-- The direction of a rule. -/
inductive Direction
  | ingress
  | egress
  deriving DecidableEq, Repr

instance : Fintype Direction where
  elems := {.ingress, .egress}
  complete d := by cases d <;> decide

/-- The eight lists `_public_ingress_rules`, …, `_management_egress_rules`, and the eight arguments
of the methods that extend them. -/
abbrev RuleLists := SubnetTier → Direction → List SecurityListRule

namespace RuleLists

/-- No rule in any list. -/
def empty : RuleLists := fun _ _ => []

/-- Rules of one list only. -/
def single (tier : SubnetTier) (dir : Direction) (rules : List SecurityListRule) : RuleLists :=
  fun t d => if t = tier ∧ d = dir then rules else []

/-- Each list extended by its counterpart. -/
def extend (a b : RuleLists) : RuleLists := fun t d => a t d ++ b t d

@[simp] theorem extend_apply (a b : RuleLists) (t : SubnetTier) (d : Direction) :
    extend a b t d = a t d ++ b t d := rfl

@[simp] theorem single_self (tier : SubnetTier) (dir : Direction) (rules : List SecurityListRule) :
    single tier dir rules tier dir = rules := if_pos ⟨rfl, rfl⟩

theorem mem_single {tier t : SubnetTier} {dir d : Direction} {rules : List SecurityListRule}
    {r : SecurityListRule} : r ∈ single tier dir rules t d ↔ t = tier ∧ d = dir ∧ r ∈ rules := by
  unfold single
  split
  · simp_all
  · simp_all

end RuleLists

end CloudSpells
