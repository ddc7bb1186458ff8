import CloudSpells.Spells.Made

/-!
# Spells/DataPath — the way through a balancer

A balancer has no security group, so the security lists alone decide what reaches its listeners,
what it may send to the backends and what these accept from it (`DataPath`).

The rules a balancer needs come from three places: its own calls, the baseline rules of the private
tier, and other spells, whose fingerprints it shares.  `dataPath_iff` says that the path is open for
every balancer but one kind: an `InternalLoadBalancer` opens its backend port outwards only, and its
backends accept what it sends only if the port is the one its clients use, or an earlier spell
opened it.
-/

namespace CloudSpells

open Machinery Machinery.Exec

/-! ## Open ports -/

/-- The rules let TCP on a port through, from or to every address of a CIDR. -/
def TcpOpen (cloud : Cloud) (rules : List SecurityListRule) (port : Port) (cidr : String) : Prop :=
  ∀ a : Fin (2 ^ 32), CidrContains cidr a →
    ListPermits cloud rules { transport := .tcp port, peer := a }

section TcpOpen

variable {cloud : Cloud} {rules : List SecurityListRule} {port : Port} {cidr peer : String}

theorem TcpOpen.mono {rules' : List SecurityListRule} (h : TcpOpen cloud rules port cidr)
    (hsub : rules ⊆ rules') : TcpOpen cloud rules' port cidr := fun a ha => by
  obtain ⟨r, hr, hpermits⟩ := h a ha
  exact ⟨r, hsub hr, hpermits⟩

/-- A TCP rule on the port opens it for its peer, and so for every part of it. -/
theorem tcpOpen_of_tcp (hsub : ∀ a : Fin (2 ^ 32), CidrContains cidr a → CidrContains peer a)
    (h : ∃ r ∈ rules, r.erase = .tcp port.val peer "") : TcpOpen cloud rules port cidr := by
  intro a ha
  obtain ⟨r, hr, herase⟩ := h
  have htcp : (SecurityListRule.tcp port.val peer "").Permits cloud
      { transport := .tcp port, peer := a } := ⟨Or.inr ⟨rfl, le_refl _, le_refl _⟩, hsub a ha⟩
  have hsame : (SecurityListRule.tcp port.val peer "").erase = r.erase := herase.symm
  exact ⟨r, hr, SecurityListRule.permits_of_erase_eq hsame htcp⟩

/-- So does a rule for everything. -/
theorem tcpOpen_of_all {description : String}
    (h : SecurityListRule.all "0.0.0.0/0" .cidrBlock description ∈ rules) :
    TcpOpen cloud rules port cidr :=
  fun a _ => ⟨_, h, Or.inl rfl, cidrContains_internet a⟩

/-- A TCP rule on another port lets no packet through. -/
theorem not_permits_tcp {p : ℤ} {description : String} {a : Fin (2 ^ 32)}
    (hne : (port.val : ℤ) ≠ p) : ¬ (SecurityListRule.tcp p peer description).Permits cloud
      { transport := .tcp port, peer := a } := by
  rintro ⟨hall | ⟨-, hmin, hmax⟩, -⟩
  · change "6" = "all" at hall
    exact absurd hall (by decide)
  · exact hne (le_antisymm hmax hmin)

end TcpOpen

/-! ## The path -/

namespace Balancer

/-- The tier a balancer is placed in. -/
def tier (b : Balancer) : SubnetTier := if b.isPrivate then .priv else .pub

/-- The clients it is for: the VCN, or the internet. -/
def clients (b : Balancer) (base : VcnBase) : String :=
  if b.isPrivate then base.cidrBlock else INTERNET

end Balancer

/-- The lists of the finalised VCN open the way from the clients to the backends. -/
structure DataPath (cloud : Cloud) (v : Vcn) (b : Balancer) (backendPort : Port) : Prop where
  finalized : v.isFinalized = true
  placed : ∃ subnet, v.subnet b.tier = some subnet ∧ b.subnetId = subnet.resource
  listens : ∀ l ∈ b.listeners, ∃ port : Port, (port.val : ℤ) = l.port ∧
    TcpOpen cloud (v.currentRules b.tier .ingress) port (b.clients v.toVcnBase)
  forwards : TcpOpen cloud (v.currentRules b.tier .egress) backendPort (v.subnetCidrs.ofTier .priv)
  accepts : TcpOpen cloud (v.currentRules .priv .ingress) backendPort (v.subnetCidrs.ofTier b.tier)

/-- The construction of a balancer. -/
inductive BalancerOp
  | loadBalancer (args : LoadBalancerArgs)
  | internalLoadBalancer (args : LoadBalancerArgs)
  | scalableWorkload (args : ScalableWorkloadArgs)

namespace BalancerOp

/-- Construct it; a `ScalableWorkload` has a balancer of its own. -/
def init : BalancerOp → Py Vcn Balancer
  | loadBalancer args => LoadBalancer.init args
  | internalLoadBalancer args => InternalLoadBalancer.init args
  | scalableWorkload args => do
    let workload ← ScalableWorkload.init args
    pure workload.balancer

/-- `backend_port`. -/
def backendPort : BalancerOp → ℤ
  | loadBalancer args | internalLoadBalancer args => args.backendPort
  | scalableWorkload args => args.loadBalancerConfig.backendPort

/-- The calls it makes. -/
def ruleCalls (base : VcnBase) : BalancerOp → List RuleCall
  | loadBalancer args => LoadBalancer.ruleCalls base args.backendPort
  | internalLoadBalancer args => InternalLoadBalancer.ruleCalls base args.backendPort
  | scalableWorkload args => ScalableWorkload.ruleCalls base args.loadBalancerConfig

/-- It is an `InternalLoadBalancer`. -/
def isInternalLoadBalancer : BalancerOp → Bool
  | internalLoadBalancer _ => true
  | _ => false

/-- It has a private balancer. -/
def isPrivate : BalancerOp → Bool
  | loadBalancer _ => false
  | internalLoadBalancer _ => true
  | scalableWorkload args => !args.loadBalancerConfig.isPublic

/-- The ports its listeners may have. -/
def listenerPorts : BalancerOp → List ℤ
  | internalLoadBalancer _ => [80]
  | loadBalancer _ | scalableWorkload _ => [80, 443]

theorem issued_of_mem_ruleCalls {op : BalancerOp} {base : VcnBase} {c : RuleCall}
    (h : c ∈ op.ruleCalls base) : Issued (fun _ => True) base c := by
  cases op with
  | loadBalancer args => exact .loadBalancer h
  | internalLoadBalancer args => exact .internalLoadBalancer h
  | scalableWorkload args => exact .scalableWorkload h

end BalancerOp

/-- What constructing a balancer on an open VCN leaves. -/
structure BalancerOp.Leaves (op : BalancerOp) (v v' : Vcn) (b : Balancer) : Prop where
  network : v'.network = (v.record (op.ruleCalls v.toVcnBase)).network.materialize
  isPrivate : b.isPrivate = op.isPrivate
  placed : ∃ subnet, v'.subnet b.tier = some subnet ∧ b.subnetId = subnet.resource
  listeners : ∀ l ∈ b.listeners, l.port ∈ op.listenerPorts

section Leaves

variable {v v' : Vcn} {b : Balancer}

theorem BalancerOp.leaves_of_run {op : BalancerOp} (hopen : v.securityListsFinalized = false)
    (h : op.init.run v = (.ok b, v')) : op.Leaves v v' b := by
  cases op with
  | loadBalancer args =>
    obtain ⟨port, hport, hcreate, hnet⟩ :=
      network_of_construct (fun port base => LoadBalancer.ruleCalls base port) hopen h
    obtain rfl := LoadBalancerArgs.eq_of_check hport
    obtain ⟨id, hsubnet, hb⟩ := bind_eq_ok.mp hcreate
    obtain rfl := Except.ok.inj hb
    refine ⟨hnet, rfl, Vcn.getSubnetId_eq_ok.mp hsubnet, fun l hl => ?_⟩
    simp only [List.mem_cons, List.not_mem_nil, or_false] at hl
    rcases hl with rfl | rfl
    · exact List.mem_cons_of_mem _ List.mem_cons_self
    · exact List.mem_cons_self
  | internalLoadBalancer args =>
    obtain ⟨port, hport, hcreate, hnet⟩ :=
      network_of_construct (fun port base => InternalLoadBalancer.ruleCalls base port) hopen h
    obtain rfl := LoadBalancerArgs.eq_of_check hport
    obtain ⟨id, hsubnet, hb⟩ := bind_eq_ok.mp hcreate
    obtain rfl := Except.ok.inj hb
    refine ⟨hnet, rfl, Vcn.getSubnetId_eq_ok.mp hsubnet, fun l hl => ?_⟩
    obtain rfl := List.mem_singleton.mp hl
    exact List.mem_cons_self
  | scalableWorkload args =>
    rw [init, run_bind_eq_ok] at h
    obtain ⟨workload, v₁, hinit, hpure⟩ := h
    rw [run_pure, Prod.mk.injEq] at hpure
    obtain ⟨hb, rfl⟩ := hpure
    obtain rfl := Except.ok.inj hb
    obtain ⟨-, -, hcreate, hnet⟩ := network_of_construct
      (fun _ base => ScalableWorkload.ruleCalls base args.loadBalancerConfig) hopen hinit
    simp only [ScalableWorkload.create, bind_eq_ok] at hcreate
    obtain ⟨_, -, poolSubnetId, -, balancer, hbalancer, hworkload⟩ := hcreate
    obtain rfl := Except.ok.inj hworkload
    obtain ⟨id, hsubnet, hb⟩ := bind_eq_ok.mp hbalancer
    obtain rfl := Except.ok.inj hb
    refine ⟨hnet, rfl, ?_, fun l hl => ?_⟩
    · obtain ⟨subnet, hsubnet, hid⟩ := Vcn.getSubnetId_eq_ok.mp hsubnet
      refine ⟨subnet, ?_, hid⟩
      rw [← hsubnet, Balancer.tier]
      cases args.loadBalancerConfig.isPublic <;> rfl
    · rcases List.mem_cons.mp hl with rfl | hl
      · exact List.mem_cons_self
      · -- An HTTPS listener, where there is a certificate.
        have hport : l.port = 443 := by
          split at hl
          · cases hl
          · split at hl
            · cases hl
            · obtain rfl := List.mem_singleton.mp hl
              rfl
        rw [hport]
        exact List.mem_cons_of_mem _ List.mem_cons_self

end Leaves

/-! ## The lists a balancer leaves -/

namespace BalancerOp

/-- The tier of its balancer. -/
def tier (op : BalancerOp) : SubnetTier := if op.isPrivate then .priv else .pub

/-- The peer of the rules for its listeners. -/
def clients (op : BalancerOp) (base : VcnBase) : String :=
  if op.isPrivate then base.cidrBlock else INTERNET

/-- **A rule for every listener** is among the calls. -/
theorem exists_listens (op : BalancerOp) (base : VcnBase) {p : ℤ} (hp : p ∈ op.listenerPorts) :
    ∃ c ∈ op.ruleCalls base, ∃ r ∈ c.rules op.tier .ingress,
      r.erase = .tcp p (op.clients base) "" := by
  cases op with
  | loadBalancer args =>
    simp only [listenerPorts, List.mem_cons, List.not_mem_nil, or_false] at hp
    rcases hp with rfl | rfl
    · exact ⟨_, List.mem_cons_self, _, List.mem_cons_self, rfl⟩
    · exact ⟨_, List.mem_cons_of_mem _ List.mem_cons_self, _, List.mem_cons_self, rfl⟩
  | internalLoadBalancer args =>
    obtain rfl := List.mem_singleton.mp hp
    exact ⟨_, List.mem_cons_self, _, List.mem_cons_self, rfl⟩
  | scalableWorkload args =>
    simp only [listenerPorts, List.mem_cons, List.not_mem_nil, or_false] at hp
    cases hpublic : args.loadBalancerConfig.isPublic with
    | true =>
      simp only [ruleCalls, ScalableWorkload.ruleCalls, tier, clients, isPrivate, hpublic]
      rcases hp with rfl | rfl
      · exact ⟨_, List.mem_cons_self, _, List.mem_cons_self, rfl⟩
      · exact ⟨_, List.mem_cons_of_mem _ List.mem_cons_self, _, List.mem_cons_self, rfl⟩
    | false =>
      simp only [ruleCalls, ScalableWorkload.ruleCalls, tier, clients, isPrivate, hpublic]
      rcases hp with rfl | rfl
      · exact ⟨_, List.mem_cons_self, _, List.mem_cons_self, rfl⟩
      · exact ⟨_, List.mem_cons_self, _, List.mem_cons_of_mem _ List.mem_cons_self, rfl⟩

/-- The way out to the backends is among the calls, or in the baseline of the private tier. -/
theorem exists_forwards (op : BalancerOp) (base : VcnBase) :
    (∃ c ∈ op.ruleCalls base, ∃ r ∈ c.rules op.tier .egress,
      r.erase = .tcp op.backendPort (base.subnetCidrs.ofTier .priv) "") ∨ op.tier = .priv := by
  cases op with
  | loadBalancer args =>
    refine Or.inl ⟨_, List.mem_cons_of_mem _ (List.mem_cons_of_mem _ List.mem_cons_self), ?_⟩
    exact ⟨_, List.mem_cons_self, rfl⟩
  | internalLoadBalancer args => exact Or.inr rfl
  | scalableWorkload args =>
    cases hpublic : args.loadBalancerConfig.isPublic with
    | true =>
      simp only [ruleCalls, ScalableWorkload.ruleCalls, tier, isPrivate, hpublic]
      refine Or.inl ⟨_, List.mem_cons_of_mem _ (List.mem_cons_of_mem _ List.mem_cons_self), ?_⟩
      exact ⟨_, List.mem_cons_self, rfl⟩
    | false => exact Or.inr (by rw [tier, isPrivate, hpublic]; rfl)

/-- The way into the backends is among the calls of every balancer but an `InternalLoadBalancer`. -/
theorem exists_accepts {op : BalancerOp} (h : op.isInternalLoadBalancer = false) (base : VcnBase) :
    ∃ c ∈ op.ruleCalls base, ∃ r ∈ c.rules .priv .ingress, r.erase = .tcp op.backendPort
      (if op.isPrivate then base.cidrBlock else base.subnetCidrs.ofTier .pub) "" := by
  cases op with
  | loadBalancer args =>
    refine ⟨_, List.mem_cons_of_mem _ (List.mem_cons_of_mem _ List.mem_cons_self), ?_⟩
    exact ⟨_, List.mem_cons_self, rfl⟩
  | internalLoadBalancer args => cases h
  | scalableWorkload args =>
    cases hpublic : args.loadBalancerConfig.isPublic with
    | true =>
      simp only [ruleCalls, ScalableWorkload.ruleCalls, isPrivate, hpublic]
      refine ⟨_, List.mem_cons_of_mem _ (List.mem_cons_of_mem _ List.mem_cons_self), ?_⟩
      exact ⟨_, List.mem_cons_self, rfl⟩
    | false =>
      simp only [ruleCalls, ScalableWorkload.ruleCalls, isPrivate, hpublic]
      exact ⟨_, List.mem_cons_self, _,
        List.mem_cons_of_mem _ (List.mem_cons_of_mem _ List.mem_cons_self), rfl⟩

end BalancerOp

section Lists

variable {cloud : Cloud} {op : BalancerOp} {v v' : Vcn} {b : Balancer} {t : SubnetTier}
  {d : Direction}

theorem BalancerOp.Leaves.base_eq (h : op.Leaves v v' b) : v'.toVcnBase = v.toVcnBase :=
  congrArg NetworkState.base h.network

/-- The list of the finalised VCN: what was there, what the calls wrote, and the baseline. -/
theorem BalancerOp.Leaves.currentRules_eq (h : op.Leaves v v' b) :
    v'.currentRules t d = v.rules t d ++
      writtenRules v.appliedAmbientRuleFingerprints (op.ruleCalls v.toVcnBase) t d ++
      Vcn.baselineRules v.toVcnBase t d := by
  have hfrozen : v'.network.Frozen := by
    rw [h.network]
    exact NetworkState.frozen_materialize _
  have hrules : v'.rules = (v.record (op.ruleCalls v.toVcnBase)).network.materialize.rules :=
    congrArg NetworkState.rules h.network
  rw [Vcn.currentRules_eq hfrozen, hrules]
  rfl

/-- On a kept network, the list has every rule of the calls. -/
theorem BalancerOp.Leaves.holds (h : op.Leaves v v' b) (hopen : v.securityListsFinalized = false)
    (hkept : v.network.Kept ∅) {e : SecurityListRule}
    (hcall : ∃ c ∈ op.ruleCalls v.toVcnBase, ∃ r ∈ c.rules t d, r.erase = e) :
    ∃ r ∈ v'.currentRules t d, r.erase = e := by
  obtain ⟨c, hc, r, hr, rfl⟩ := hcall
  obtain ⟨r', hr', herase⟩ := holds_of_register hkept
    (fun c hc => (BalancerOp.issued_of_mem_ruleCalls hc).keyed) (fun _ _ _ _ => Set.notMem_empty _)
    (run_register_of_open hopen _) hc hr
  refine ⟨r', ?_, herase⟩
  rw [h.currentRules_eq]
  exact List.mem_append_left _ hr'

end Lists

/-! ## The path is open -/

section Path

variable {cloud : Cloud} {op : BalancerOp} {v v' : Vcn} {b : Balancer} {port : Port}

/-- An `InternalLoadBalancer` lets its backends accept nothing new, but on the port of its clients.
-/
theorem accepts_internal_iff {args : LoadBalancerArgs} (hbuilt : v.Built cloud)
    (hopen : v.securityListsFinalized = false) (hkept : v.network.Kept ∅)
    (h : (BalancerOp.internalLoadBalancer args).Leaves v v' b) :
    TcpOpen cloud (v'.currentRules .priv .ingress) port (v.subnetCidrs.ofTier .priv) ↔
      (port.val : ℤ) = 80 ∨
        TcpOpen cloud (v.rules .priv .ingress) port (v.subnetCidrs.ofTier .priv) := by
  constructor
  · refine fun hpath => or_iff_not_imp_left.mpr fun hne a ha => ?_
    obtain ⟨r, hr, hpermits⟩ := hpath a ha
    rw [h.currentRules_eq] at hr
    rcases List.mem_append.mp hr with hr | hr
    · rcases List.mem_append.mp hr with hr | hr
      · exact ⟨r, hr, hpermits⟩
      · -- The one rule the calls write to this list is about port 80.
        obtain ⟨c, hc, hmem⟩ := List.mem_flatMap.mp hr
        have hcall := (Ledger.mem_of_mem_written hc).1
        simp only [BalancerOp.ruleCalls, InternalLoadBalancer.ruleCalls, List.mem_cons,
          List.not_mem_nil, or_false] at hcall
        rcases hcall with rfl | rfl
        · obtain rfl := List.mem_singleton.mp hmem
          exact absurd hpermits (not_permits_tcp hne)
        · cases hmem
    · cases hr
  · rintro (hport | hpath)
    · have hrule := h.holds hopen hkept
        ((BalancerOp.internalLoadBalancer args).exists_listens v.toVcnBase List.mem_cons_self)
      rw [← hport] at hrule
      exact tcpOpen_of_tcp (fun a ha => cidrContains_of_tier hbuilt.splitTiers_eq ha) hrule
    · refine hpath.mono fun r hr => ?_
      rw [h.currentRules_eq]
      exact List.mem_append_left _ (List.mem_append_left _ hr)

theorem BalancerOp.Leaves.tier_eq (h : op.Leaves v v' b) : b.tier = op.tier := by
  rw [Balancer.tier, h.isPrivate, BalancerOp.tier]

theorem BalancerOp.Leaves.clients_eq (h : op.Leaves v v' b) :
    b.clients v'.toVcnBase = op.clients v.toVcnBase := by
  rw [Balancer.clients, h.isPrivate, h.base_eq, BalancerOp.clients]

theorem BalancerOp.Leaves.subnetCidrs_eq (h : op.Leaves v v' b) : v'.subnetCidrs = v.subnetCidrs :=
  congrArg VcnBase.subnetCidrs h.base_eq

theorem BalancerOp.eq_of_mem_listenerPorts {p : ℤ} (hp : p ∈ op.listenerPorts) :
    p = 80 ∨ p = 443 := by
  cases op with
  | loadBalancer args => simpa [BalancerOp.listenerPorts] using hp
  | internalLoadBalancer args => exact Or.inl (List.mem_singleton.mp hp)
  | scalableWorkload args => simpa [BalancerOp.listenerPorts] using hp

/-- **The clients reach every listener.** -/
theorem BalancerOp.Leaves.listens (h : op.Leaves v v' b)
    (hopen : v.securityListsFinalized = false) (hkept : v.network.Kept ∅) (cloud : Cloud)
    {l : Listener} (hl : l ∈ b.listeners) : ∃ p : Port, (p.val : ℤ) = l.port ∧
      TcpOpen cloud (v'.currentRules b.tier .ingress) p (b.clients v'.toVcnBase) := by
  have hmem := h.listeners l hl
  have hrule := h.holds hopen hkept (op.exists_listens v.toVcnBase hmem)
  rw [h.tier_eq, h.clients_eq]
  rcases op.eq_of_mem_listenerPorts hmem with hl | hl
  · rw [hl] at hrule ⊢
    exact ⟨⟨80, by decide⟩, rfl, tcpOpen_of_tcp (fun _ ha => ha) hrule⟩
  · rw [hl] at hrule ⊢
    exact ⟨⟨443, by decide⟩, rfl, tcpOpen_of_tcp (fun _ ha => ha) hrule⟩

/-- **The balancer reaches its backends**, as far as its own tier goes. -/
theorem BalancerOp.Leaves.forwards (h : op.Leaves v v' b)
    (hopen : v.securityListsFinalized = false) (hkept : v.network.Kept ∅) (cloud : Cloud)
    (hport : op.backendPort = port.val) :
    TcpOpen cloud (v'.currentRules b.tier .egress) port (v'.subnetCidrs.ofTier .priv) := by
  rw [h.tier_eq, h.subnetCidrs_eq]
  rcases op.exists_forwards v.toVcnBase with hcall | hpriv
  · rw [hport] at hcall
    exact tcpOpen_of_tcp (fun _ ha => ha) (h.holds hopen hkept hcall)
  · -- The baseline lets the private tier send everything everywhere.
    rw [hpriv, h.currentRules_eq]
    exact tcpOpen_of_all (List.mem_append_right _ List.mem_cons_self)

/-- **The backends accept it**, where it is no `InternalLoadBalancer`. -/
theorem BalancerOp.Leaves.accepts (h : op.Leaves v v' b) (hbuilt : v.Built cloud)
    (hopen : v.securityListsFinalized = false) (hkept : v.network.Kept ∅)
    (hport : op.backendPort = port.val) (hinternal : op.isInternalLoadBalancer = false) :
    TcpOpen cloud (v'.currentRules .priv .ingress) port (v'.subnetCidrs.ofTier b.tier) := by
  have hrule := h.holds hopen hkept (BalancerOp.exists_accepts hinternal v.toVcnBase)
  rw [hport] at hrule
  rw [h.tier_eq, h.subnetCidrs_eq, BalancerOp.tier]
  cases hprivate : op.isPrivate with
  | false =>
    rw [hprivate] at hrule
    exact tcpOpen_of_tcp (fun _ ha => ha) hrule
  | true =>
    rw [hprivate] at hrule
    exact tcpOpen_of_tcp (fun a ha => cidrContains_of_tier hbuilt.splitTiers_eq ha) hrule

/-- **The path through a balancer** built on a kept, open VCN. -/
theorem dataPath_of_leaves (hbuilt : v.Built cloud) (hopen : v.securityListsFinalized = false)
    (hkept : v.network.Kept ∅) (hport : op.backendPort = port.val) (h : op.Leaves v v' b) :
    DataPath cloud v' b port ↔ (op.isInternalLoadBalancer = true → (port.val : ℤ) = 80 ∨
      TcpOpen cloud (v.rules .priv .ingress) port (v.subnetCidrs.ofTier .priv)) := by
  have hfinal : v'.isFinalized = true := congrArg NetworkState.finalized h.network
  have hforwards := h.forwards hopen hkept cloud hport
  cases hinternal : op.isInternalLoadBalancer with
  | false =>
    have haccepts := h.accepts hbuilt hopen hkept hport hinternal
    exact iff_of_true ⟨hfinal, h.placed, fun l hl => h.listens hopen hkept cloud hl, hforwards,
      haccepts⟩ fun h => by cases h
  | true =>
    cases op with
    | loadBalancer args => cases hinternal
    | scalableWorkload args => cases hinternal
    | internalLoadBalancer args =>
      have hcondition : TcpOpen cloud (v'.currentRules .priv .ingress) port
          (v.subnetCidrs.ofTier .priv) ↔ _ := accepts_internal_iff hbuilt hopen hkept h
      constructor
      · intro hpath _
        have haccepts := hpath.accepts
        rw [h.tier_eq, h.subnetCidrs_eq] at haccepts
        exact hcondition.mp haccepts
      · refine fun hopened => ⟨hfinal, h.placed, fun l hl => h.listens hopen hkept cloud hl,
          hforwards, ?_⟩
        rw [h.tier_eq, h.subnetCidrs_eq]
        exact hcondition.mpr (hopened rfl)

end Path

/-- **The data path**: a balancer built on a fresh VCN after any program that left it open has its
path open iff it is no `InternalLoadBalancer`, or its backend port is 80, or the private tier
accepted the port from itself before. -/
theorem dataPath_of_program {cloud : Cloud} {args : VcnArgs} {v₀ : Vcn}
    (h : Vcn.init cloud args = .ok v₀) (ops : List SpellOp) (op : BalancerOp) (port : Port)
    (hport : op.backendPort = port.val) :
    let v := (replay SpellOp.exec ops (World.ofVcn v₀)).vcn
    v.isFinalized = false → ∀ b v', op.init.run v = (.ok b, v') →
      (DataPath cloud v' b port ↔ (op.isInternalLoadBalancer = true → (port.val : ℤ) = 80 ∨
        TcpOpen cloud (v.rules .priv .ingress) port (v.subnetCidrs.ofTier .priv))) := by
  intro v hopen b v' hrun
  have hbuilt := (built_of_init h).1
  have hbase : v.toVcnBase = v₀.toVcnBase :=
    (SpellOp.evolves_replay (World.ofVcn v₀) ops).base_eq
  have hkept : v.network.Kept ∅ := SpellOp.kept_of_open (fingerprints_of_init h) ops hopen
  exact dataPath_of_leaves (hbase.symm ▸ hbuilt) hopen hkept hport
    (BalancerOp.leaves_of_run hopen hrun)

/-- A balancer whose backends listen on port 8080. -/
def balancerArgs : LoadBalancerArgs where
  name := "lb"
  stackName := "dev"
  backendPort := 8080

/-- A public one, after an internet-facing group. -/
theorem dataPath_of_program_default :
    ∃ b v', (BalancerOp.loadBalancer balancerArgs).init.run
        (replay SpellOp.exec [.nsg webArgs] (World.ofVcn defaultBase.fresh)).vcn = (.ok b, v') ∧
      DataPath bundleCloud v' b ⟨8080, by decide⟩ := by
  refine ⟨_, _, rfl, ?_⟩
  have hpath := dataPath_of_program init_default [.nsg webArgs] (.loadBalancer balancerArgs)
    ⟨8080, by decide⟩ rfl rfl _ _ rfl
  exact hpath.mpr fun hinternal => by cases hinternal

/-- An internal one, on a fresh VCN: its backends accept nothing from it. -/
theorem backends_unreachable :
    ∃ b v',
      (BalancerOp.internalLoadBalancer balancerArgs).init.run defaultBase.fresh = (.ok b, v') ∧
      ¬ DataPath bundleCloud v' b ⟨8080, by decide⟩ := by
  refine ⟨_, _, rfl, fun hpath => ?_⟩
  have hbuilt : defaultBase.Built bundleCloud := (built_of_init init_default).1
  have hleaves : (BalancerOp.internalLoadBalancer balancerArgs).Leaves defaultBase.fresh _ _ :=
    BalancerOp.leaves_of_run rfl rfl
  rcases (accepts_internal_iff hbuilt rfl (NetworkState.kept_of_empty rfl) hleaves).mp hpath.accepts
    with hport | hopened
  · cases hport
  · -- The private tier of a fresh VCN accepts nothing.
    have haddress : CidrContains "10.0.0.0/19" (167772161 : Fin (2 ^ 32)) := by decide
    obtain ⟨r, hr, -⟩ := hopened 167772161 haddress
    cases hr

end CloudSpells
