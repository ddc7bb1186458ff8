import Mathlib.Data.Finset.Insert
import Mathlib.Data.Fintype.Defs

/-!
# Core/Role — the four subnet tiers and the roles placed in them

`SubnetTier` is the tier of a subnet, and `Role` the security posture of a class of resources.
`Nsg` tests one predefined role by identity (`role is INTERNET_EDGE`), so a `RoleArg` says which
object a caller passed: a predefined one, or one it built itself.
-/

namespace CloudSpells

/-- `SubnetTier`, under the subnets' DNS labels. -/
inductive SubnetTier
  | pub
  | priv
  | sec
  | mgmt
  deriving DecidableEq, Repr

instance : Fintype SubnetTier where
  elems := {.pub, .priv, .sec, .mgmt}
  complete t := by cases t <;> decide

/-- The tier constants `SUBNET_PUBLIC`, …, `SUBNET_MANAGEMENT`. -/
def SubnetTier.str : SubnetTier → String
  | pub => "public"
  | priv => "private"
  | sec => "secure"
  | mgmt => "management"

theorem SubnetTier.str_injective : Function.Injective SubnetTier.str := by
  intro a b h
  cases a <;> cases b <;> first | rfl | exact absurd h (by decide)

/-- The tier's name has no separator in it, and is not a number. -/
theorem SubnetTier.hyphen_notMem_str (t : SubnetTier) : '-' ∉ t.str.toList := by
  cases t <;> decide

/-- `Role`. -/
structure Role where
  name : String
  subnetTier : SubnetTier
  egressInternet : Bool := false
  egressServices : Bool := false
  acceptManagementSsh : Bool := true
  deriving DecidableEq, Repr

/-- The five predefined roles. -/
inductive PredefinedRole
  | internetEdge
  | appServer
  | database
  | cache
  | management
  deriving DecidableEq, Repr

/-- `INTERNET_EDGE`. -/
def INTERNET_EDGE : Role where
  name := "INTERNET_EDGE"
  subnetTier := .pub
  egressInternet := false
  egressServices := false
  acceptManagementSsh := false

/-- `APP_SERVER`. -/
def APP_SERVER : Role where
  name := "APP_SERVER"
  subnetTier := .priv
  egressInternet := true
  egressServices := true
  acceptManagementSsh := true

/-- `DATABASE`. -/
def DATABASE : Role where
  name := "DATABASE"
  subnetTier := .sec
  egressInternet := false
  egressServices := true
  acceptManagementSsh := true

/-- `CACHE`. -/
def CACHE : Role where
  name := "CACHE"
  subnetTier := .priv
  egressInternet := true
  egressServices := true
  acceptManagementSsh := true

/-- `MANAGEMENT`. -/
def MANAGEMENT : Role where
  name := "MANAGEMENT"
  subnetTier := .mgmt
  egressInternet := false
  egressServices := true
  acceptManagementSsh := true

/-- The role object passed to `Nsg`. -/
inductive RoleArg
  | predefined (p : PredefinedRole)
  | custom (r : Role)
  deriving DecidableEq, Repr

/-- The role an argument denotes. -/
def RoleArg.role : RoleArg → Role
  | predefined .internetEdge => INTERNET_EDGE
  | predefined .appServer => APP_SERVER
  | predefined .database => DATABASE
  | predefined .cache => CACHE
  | predefined .management => MANAGEMENT
  | custom r => r

/-- **The internet reaches no predefined role outside the public and private tiers**, in either
direction. -/
theorem egressInternet_of_predefined (p : PredefinedRole)
    (h : (RoleArg.predefined p).role.egressInternet = true) :
    (RoleArg.predefined p).role.subnetTier = .priv := by
  cases p <;> first | rfl | exact absurd h (by decide)

end CloudSpells
