import CloudSpells.Spells.Presence

/-!
# Spells/Isolation — the internal tiers stay internal

The secure and the management tier have no path to or from the internet: no rule of their security
lists names it and none of their routes goes through a gateway to it; nor do the routes of the
private tier go through the Internet Gateway, nor those of the public tier to the Dynamic Routing
Gateway.

The routes are fixed by the constructor of the VCN.  The rules are what programs add, and a program
whose groups have predefined roles adds none that names the internet to an internal tier
(`Issued.spares`); a role of its own would.
-/

namespace CloudSpells

open Machinery Machinery.Exec

/-- The tiers that neither the internet reaches nor reach it. -/
def SubnetTier.Internal (t : SubnetTier) : Prop := t = .sec ∨ t = .mgmt

/-- The role is one of the predefined ones. -/
def Role.IsPredefined (r : Role) : Prop := ∃ p, r = (RoleArg.predefined p).role

/-- No rule of an internal tier names the internet. -/
def RuleLists.Spares (rules : RuleLists) : Prop :=
  ∀ t : SubnetTier, t.Internal → ∀ d, ∀ r ∈ rules t d, r.peer ≠ INTERNET

/-! ## Routes -/

/-- The routes that isolate the tiers. -/
structure VcnBase.RoutesIsolated (base : VcnBase) : Prop where
  internal : ∀ t : SubnetTier, t.Internal → ∀ route ∈ (base.routeTable t).routeRules,
    route.networkEntityId.type ≠ .internetGateway ∧ route.networkEntityId.type ≠ .natGateway
  priv : ∀ route ∈ (base.routeTable .priv).routeRules,
    route.networkEntityId.type ≠ .internetGateway
  pub : ∀ route ∈ (base.routeTable .pub).routeRules, route.networkEntityId.type ≠ .drg

/-- **The constructor isolates the tiers**, whatever is on premise. -/
theorem VcnBase.Built.routesIsolated {cloud : Cloud} {base : VcnBase} (h : base.Built cloud) :
    base.RoutesIsolated := by
  -- A route to a CIDR on premise goes through the Dynamic Routing Gateway.
  have hdrg : ∀ route ∈ drgRoutes base.drg base.onPremiseCidrs,
      route.networkEntityId.type = .drg := by
    intro route hroute
    rw [h.drg_eq] at hroute
    split at hroute
    · obtain ⟨cidr, -, rfl⟩ := List.mem_map.mp hroute
      rfl
    · cases hroute
  refine ⟨fun t ht route hroute => ?_, fun route hroute => ?_, fun route hroute => ?_⟩
  · have hmem : route ∈ serviceRoute base.namer base.svcCidrBlock ::
        drgRoutes base.drg base.onPremiseCidrs := by
      rw [h.routeTable_eq] at hroute
      rcases ht with rfl | rfl
      · exact hroute
      · exact hroute
    rcases List.mem_cons.mp hmem with rfl | hmem
    · simp [serviceRoute, vcnChild]
    · simp [hdrg route hmem]
  · rw [h.routeTable_eq] at hroute
    rcases List.mem_append.mp hroute with hroute | hroute
    · simp only [List.mem_cons, List.not_mem_nil, or_false] at hroute
      rcases hroute with rfl | rfl
      · simp [vcnChild]
      · simp [serviceRoute, vcnChild]
    · simp [hdrg route hroute]
  · rw [h.routeTable_eq] at hroute
    obtain rfl := List.mem_singleton.mp hroute
    simp [vcnChild]

/-! ## Rules -/

section Rules

variable {cloud : Cloud} {base : VcnBase} {c : RuleCall}

/-- A call that carries a fingerprint spares the internal tiers where the fingerprint's rule does.
-/
theorem RuleCall.Carries.spares {f : Fingerprint} (h : c.Carries base f)
    (hf : f.tier.Internal → (f.rule base).peer ≠ INTERNET) : c.rules.Spares := by
  intro t ht d r hr
  obtain ⟨rfl, -, herase⟩ := h.mem_rules.mp ⟨r, hr, rfl⟩
  rw [← r.peer_erase, herase]
  exact hf ht

/-- Rules of the two outer tiers concern no internal one. -/
theorem RuleLists.spares_of_outer {rules : RuleLists}
    (h : ∀ t : SubnetTier, t.Internal → ∀ d, rules t d = []) : rules.Spares := fun t ht d r hr => by
  rw [h t ht d] at hr
  cases hr

/-- **The calls of the spells spare the internal tiers**, where the roles are predefined. -/
theorem Issued.spares (hbuilt : base.Built cloud) (h : Issued Role.IsPredefined base c) :
    c.rules.Spares := by
  have htier : ∀ t, base.subnetCidrs.ofTier t ≠ INTERNET := hbuilt.ofTier_ne
  cases h with
  | nsg hrole h =>
    obtain ⟨p, rfl⟩ := hrole
    rcases carries_of_mem_ambientCalls h with ⟨-, port, -, hc⟩ | ⟨-, hc⟩ | ⟨hinternet, hc⟩
    · exact hc.spares fun ht => by rcases ht with ht | ht <;> cases ht
    · exact hc.spares fun _ => hbuilt.svcCidrBlock_ne
    · refine hc.spares fun ht => ?_
      -- Only roles of the private tier may reach the internet.
      have hpriv := egressInternet_of_predefined p hinternet
      rcases ht with ht | ht
      · cases hpriv.symm.trans ht
      · cases hpriv.symm.trans ht
  | serves h =>
    obtain ⟨-, p, -, hc | hc⟩ := carries_of_mem_servesCalls h
    · exact hc.spares fun _ => htier _
    · exact hc.spares fun _ => htier _
  | computeInstance h =>
    rename_i tier
    have hc := carries_of_mem_computeCalls h
    split at hc
    · exact hc.spares fun ht => by rcases ht with ht | ht <;> cases ht
    · exact hc.spares fun _ => htier _
  | bastion h =>
    have hc : c.Carries base .bastionSsh := carries_of_mem_bastionCalls h
    exact hc.spares fun ht => by rcases ht with ht | ht <;> cases ht
  | loadBalancer h =>
    refine RuleLists.spares_of_outer ?_
    simp only [LoadBalancer.ruleCalls, List.mem_cons, List.not_mem_nil, or_false] at h
    rintro t (rfl | rfl) d <;> rcases h with rfl | rfl | rfl <;> rfl
  | internalLoadBalancer h =>
    refine RuleLists.spares_of_outer ?_
    simp only [InternalLoadBalancer.ruleCalls, List.mem_cons, List.not_mem_nil, or_false] at h
    rintro t (rfl | rfl) d <;> rcases h with rfl | rfl <;> rfl
  | scalableWorkload h =>
    refine RuleLists.spares_of_outer ?_
    unfold ScalableWorkload.ruleCalls at h
    split at h
    · simp only [List.mem_cons, List.not_mem_nil, or_false] at h
      rintro t (rfl | rfl) d <;> rcases h with rfl | rfl | rfl <;> rfl
    · obtain rfl := List.mem_singleton.mp h
      rintro t (rfl | rfl) d <;> rfl
  | okeCluster h =>
    obtain rfl := List.mem_singleton.mp h
    refine RuleLists.spares_of_outer ?_
    rintro t (rfl | rfl) d <;> rfl

/-- The baseline rules spare the internal tiers: they name the service network. -/
theorem spares_baselineRules (hbuilt : base.Built cloud) : (Vcn.baselineRules base).Spares := by
  intro t ht d r hr
  have hmem : r = .all base.svcCidrBlock .serviceCidrBlock
      "Egress to OCI services via Service Gateway" := by
    rcases ht with rfl | rfl
    · cases d with
      | ingress => cases hr
      | egress => exact List.mem_singleton.mp hr
    · cases d with
      | ingress => cases hr
      | egress => exact List.mem_singleton.mp hr
  rw [hmem]
  exact hbuilt.svcCidrBlock_ne

/-- The rules of the constructor are rules of the public tier. -/
theorem spares_seedRules (base : VcnBase) : (seedRules base).Spares := by
  refine RuleLists.spares_of_outer ?_
  rintro t (rfl | rfl) d <;> rfl

theorem RuleLists.Spares.extend {a b : RuleLists} (ha : a.Spares) (hb : b.Spares) :
    (a.extend b).Spares := fun t ht d r hr => by
  rcases List.mem_append.mp hr with hr | hr
  · exact ha t ht d r hr
  · exact hb t ht d r hr

theorem spares_writtenRules {seen : Finset String} (hc : c.rules.Spares) :
    (writtenRules seen [c]).Spares := by
  intro t ht d r hr
  obtain ⟨b, hb, hmem⟩ := List.mem_flatMap.mp hr
  obtain rfl := List.mem_singleton.mp (Ledger.mem_of_mem_written hb).1
  exact hc t ht d r hmem

end Rules

/-! ## Programs -/

/-- **The step lemma**: sparing calls keep the internal tiers away from the internet. -/
theorem NetworkState.spares_call {n : NetworkState} {c : RuleCall} (hn : n.rules.Spares)
    (hc : c.rules.Spares) : (n.call c).rules.Spares := by
  cases hfinal : n.finalized with
  | false =>
    rw [call_of_open hfinal]
    exact hn.extend (spares_writtenRules hc)
  | true =>
    obtain ⟨_, -, hcall⟩ := call_of_finalized hfinal c
    rw [hcall]
    exact hn

theorem NetworkState.spares_finalize {cloud : Cloud} {n : NetworkState}
    (hbuilt : n.base.Built cloud) (hn : n.rules.Spares) : n.finalize.rules.Spares := by
  cases hfinal : n.finalized with
  | false =>
    rw [finalize_of_open hfinal]
    exact hn.extend (spares_baselineRules hbuilt)
  | true => rwa [finalize_of_finalized hfinal]

/-- **The run lemma**: so does every evolution by such calls. -/
theorem NetworkState.Evolves.spares {cloud : Cloud} {n m : NetworkState}
    (hbuilt : n.base.Built cloud) (h : Evolves (fun _ c => c.rules.Spares) n m)
    (hn : n.rules.Spares) : m.rules.Spares := by
  have hinv : m.base = n.base ∧ m.rules.Spares := by
    refine h.invariant (P := fun k => k.base = n.base ∧ k.rules.Spares) ?_ ?_ ⟨rfl, hn⟩
    · rintro k c hc ⟨hbase, hk⟩
      rw [base_call]
      exact ⟨hbase, spares_call hk hc⟩
    · rintro k ⟨hbase, hk⟩
      rw [base_finalize]
      exact ⟨hbase, spares_finalize (hbase.symm ▸ hbuilt) hk⟩
  exact hinv.2

/-- The tiers of a VCN are isolated: its rules, those of its security lists, and its routes. -/
structure Vcn.Isolated (v : Vcn) : Prop where
  rules : v.rules.Spares
  lists : ∀ t : SubnetTier, t.Internal → ∀ sl, v.securityList t = some sl →
    ∀ d, ∀ r ∈ sl.rules d, r.peer ≠ INTERNET
  routes : v.RoutesIsolated

/-- A program whose groups have predefined roles moves the network by sparing calls. -/
theorem SpellOp.evolves_replay_spares {cloud : Cloud} {w₀ : World} (hbuilt : w₀.vcn.Built cloud)
    (ops : List SpellOp) (hroles : ∀ op ∈ ops, op.RolesIn Role.IsPredefined) :
    NetworkState.Evolves (fun _ c => c.rules.Spares) w₀.vcn.network
      (replay exec ops w₀).vcn.network :=
  evolves_replay_of ops fun op hop _ hw _ hc =>
    (issued_of_mem_ruleCalls (hroles op hop) hc).spares (hw.symm ▸ hbuilt)

/-- **Tier isolation is never broken**: after any program on a fresh VCN whose groups have
predefined roles, wherever its steps raised. -/
theorem isolated_of_program {cloud : Cloud} {args : VcnArgs} {v₀ : Vcn}
    (h : Vcn.init cloud args = .ok v₀) (ops : List SpellOp)
    (hroles : ∀ op ∈ ops, op.RolesIn Role.IsPredefined) :
    (replay SpellOp.exec ops (World.ofVcn v₀)).vcn.Isolated := by
  have hbuilt := (built_of_init h).1
  obtain ⟨hseeded, hnolist⟩ := rules_of_init h
  have hevolves : NetworkState.Evolves (fun _ c => c.rules.Spares) (World.ofVcn v₀).vcn.network
      (replay SpellOp.exec ops (World.ofVcn v₀)).vcn.network :=
    SpellOp.evolves_replay_spares hbuilt ops hroles
  have hseed : v₀.rules.Spares := by
    rw [hseeded]
    exact spares_seedRules _
  have hrules := hevolves.spares hbuilt hseed
  refine ⟨hrules, fun t ht sl hsl d r hr => ?_, ?_⟩
  · cases hfinal : (replay SpellOp.exec ops (World.ofVcn v₀)).vcn.network.finalized with
    | true =>
      have hfrozen := hevolves.frozen (NetworkState.frozen_of_open (open_of_init h))
      obtain ⟨sl', hsl', hsame⟩ := hfrozen hfinal t
      obtain rfl := Option.some.inj (hsl.symm.trans hsl')
      rw [hsame] at hr
      exact hrules t ht d r hr
    | false =>
      -- Without finalisation there are no security lists.
      have hsame := congrFun (hevolves.securityList_of_open hfinal) t
      cases hsl.symm.trans (hsame.trans (hnolist t))
  · have hbase : (replay SpellOp.exec ops (World.ofVcn v₀)).vcn.toVcnBase = v₀.toVcnBase :=
      hevolves.base_eq
    rw [hbase]
    exact hbuilt.routesIsolated

/-- An internet-facing group and a pool, on the VCN with the default arguments. -/
theorem isolated_of_program_default :
    (replay SpellOp.exec [.nsg webArgs, .scalableWorkload { name := "app", stackName := "dev" }]
      (World.ofVcn defaultBase.fresh)).vcn.Isolated := by
  refine isolated_of_program init_default _ fun op hop => ?_
  simp only [List.mem_cons, List.not_mem_nil, or_false] at hop
  rcases hop with rfl | rfl
  · intro role hrole
    obtain rfl := Option.some.inj hrole
    exact ⟨.internetEdge, rfl⟩
  · trivial

end CloudSpells
