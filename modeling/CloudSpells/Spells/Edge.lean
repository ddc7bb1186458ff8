import CloudSpells.Spells.Made

/-!
# Spells/Edge — what the public list opens to the internet

Four spells open ports of the public tier to the internet.  An internet-facing group, a compute
instance and a `ScalableWorkload` do it under the fingerprint `public-ingress-tcp-{port}`; a
`LoadBalancer` has its own, `lb-public-ingress-tcp-{port}`.  So the public list has as many rules
for a port as there are fingerprints in use for it (`Tallied`), and a port opened twice is one that
a group and a `LoadBalancer` both open.
-/

namespace CloudSpells

open Machinery Machinery.Exec

/-- The rule lets the internet in over TCP, on one port. -/
def SecurityListRule.FromInternet (port : ℤ) (r : SecurityListRule) : Prop :=
  r.protocol = "6" ∧ r.peer = "0.0.0.0/0" ∧ r.tcpOptions = some { min := port, max := port }

instance (port : ℤ) (r : SecurityListRule) : Decidable (r.FromInternet port) :=
  inferInstanceAs (Decidable (_ ∧ _))

/-- The public list of the VCN has at most one rule from the internet for each port. -/
def Vcn.OncePerPort (v : Vcn) : Prop :=
  ∃ sl, v.securityList .pub = some sl ∧
    ∀ port, sl.ingressSecurityRules.countP (fun r => decide (r.FromInternet port)) ≤ 1

/-! ## Rules and fingerprints -/

/-- A call that opens a port of the public tier to the internet, under one of the two fingerprints
there are for it, or that adds no rule to its ingress list. -/
inductive RuleCall.AtEdge (base : VcnBase) (c : RuleCall) : Prop
  | publicIngress {port : ℤ} (h : c.Carries base (.publicIngress port))
  | lbPublicIngress {port : ℤ} (h : c.Carries base (.lbPublicIngress port))
  | apart (hplain : c.fingerprint = none) (h : c.rules .pub .ingress = [])

/-- A rule carried is found under its own fingerprint only. -/
theorem RuleCall.Carries.eq_of_fingerprint {base : VcnBase} {c : RuleCall} {f g : Fingerprint}
    (h : c.Carries base f) (hg : c.fingerprint = some g.render) : f = g :=
  Fingerprint.render_injective (Option.some.inj (h.1.symm.trans hg))

namespace NetworkState

variable {n : NetworkState} {c : RuleCall}

/-- The rules of the public list from the internet, for a port. -/
def openings (n : NetworkState) (port : ℤ) : ℕ :=
  (n.rules .pub .ingress).countP fun r => decide (r.FromInternet port)

/-- One where a fingerprint is in use. -/
def uses (n : NetworkState) (f : Fingerprint) : ℕ := if f.render ∈ n.fingerprints then 1 else 0

theorem uses_of_mem {f : Fingerprint} (h : f.render ∈ n.fingerprints) : n.uses f = 1 := if_pos h

theorem uses_of_notMem {f : Fingerprint} (h : f.render ∉ n.fingerprints) : n.uses f = 0 := if_neg h

/-- **The public list has a rule for a port for every fingerprint in use for it.** -/
def Tallied (n : NetworkState) : Prop :=
  ∀ port, n.openings port = n.uses (.publicIngress port) + n.uses (.lbPublicIngress port)

/-- The uses of a fingerprint after a call that was not shut out. -/
theorem uses_call (haccepts : n.Accepts c)
    (hfresh : Ledger.Fresh RuleCall.fingerprint n.fingerprints c) (f : Fingerprint) :
    (n.call c).uses f = n.uses f + if c.fingerprint = some f.render then 1 else 0 := by
  by_cases hc : c.fingerprint = some f.render
  · rw [if_pos hc, uses_of_notMem (hfresh _ hc),
      uses_of_mem ((mem_fingerprints_call haccepts).mpr (.inr hc))]
  · have hiff : f.render ∈ (n.call c).fingerprints ↔ f.render ∈ n.fingerprints := by
      rw [mem_fingerprints_call haccepts, or_iff_left hc]
    unfold uses
    simp only [hiff, if_neg hc, Nat.add_zero]

end NetworkState

/-- What a rule for a port counts for another. -/
private theorem countP_fromInternet {base : VcnBase} {c : RuleCall} {f : Fingerprint} {port : ℤ}
    (h : c.Carries base f) (htier : f.tier = .pub) (hdir : f.dir = .ingress)
    (hrule : f.rule base = .tcp port "0.0.0.0/0" "") (q : ℤ) :
    (c.rules .pub .ingress).countP (fun r => decide (r.FromInternet q)) =
      if port = q then 1 else 0 := by
  obtain ⟨-, r, hrules, herase⟩ := h
  have hiff : r.FromInternet q ↔ port = q := by
    change r.erase.FromInternet q ↔ _
    rw [herase, hrule]
    simp [SecurityListRule.FromInternet, SecurityListRule.tcp]
  rw [hrules, htier, hdir, RuleLists.single_self, List.countP_singleton]
  simp only [hiff, decide_eq_true_eq]

/-- **The step lemma**: an accepted call keeps the tally. -/
theorem NetworkState.Tallied.call {n : NetworkState} {c : RuleCall} (h : n.Tallied)
    (hedge : c.AtEdge n.base) (haccepts : n.Accepts c) : (n.call c).Tallied := by
  by_cases hused : ∃ s, c.fingerprint = some s ∧ s ∈ n.fingerprints
  · obtain ⟨s, hs, hmem⟩ := hused
    rwa [call_of_used hs hmem]
  · have hopen : n.finalized = false := haccepts.resolve_right hused
    have hfresh : Ledger.Fresh RuleCall.fingerprint n.fingerprints c :=
      fun s hs hmem => hused ⟨s, hs, hmem⟩
    intro port
    rw [openings, rules_call_of_fresh hopen hfresh, List.countP_append, uses_call haccepts hfresh,
      uses_call haccepts hfresh]
    have hn := h port
    rw [openings] at hn
    rw [hn]
    -- The rule and its fingerprint count for the same port.
    cases hedge with
    | @publicIngress p hc =>
      have hpublic : c.fingerprint = some (Fingerprint.publicIngress port).render ↔ p = port :=
        ⟨fun hs => Fingerprint.publicIngress.inj (hc.eq_of_fingerprint hs), fun hp => hp ▸ hc.1⟩
      have hlb : c.fingerprint ≠ some (Fingerprint.lbPublicIngress port).render :=
        fun hs => by cases hc.eq_of_fingerprint hs
      rw [countP_fromInternet hc rfl rfl rfl, if_neg hlb]
      simp only [hpublic]
      omega
    | @lbPublicIngress p hc =>
      have hpublic : c.fingerprint ≠ some (Fingerprint.publicIngress port).render :=
        fun hs => by cases hc.eq_of_fingerprint hs
      have hlb : c.fingerprint = some (Fingerprint.lbPublicIngress port).render ↔ p = port :=
        ⟨fun hs => Fingerprint.lbPublicIngress.inj (hc.eq_of_fingerprint hs), fun hp => hp ▸ hc.1⟩
      rw [countP_fromInternet hc rfl rfl rfl, if_neg hpublic]
      simp only [hlb]
      omega
    | apart hplain hrules =>
      rw [hplain, hrules, List.countP_nil]
      simp

/-- The baseline opens nothing to the internet. -/
theorem NetworkState.openings_finalize (n : NetworkState) (port : ℤ) :
    n.finalize.openings port = n.openings port := by
  unfold finalize
  split
  · rfl
  · change ((n.rules .pub .ingress) ++ []).countP _ = _
    rw [List.append_nil]
    rfl

theorem NetworkState.Tallied.finalize {n : NetworkState} (h : n.Tallied) : n.finalize.Tallied := by
  intro port
  rw [openings_finalize, h port, uses, uses, uses, uses, fingerprints_finalize]

/-- A new VCN opens nothing to the internet, and has used no fingerprint. -/
theorem VcnBase.tallied_fresh (base : VcnBase) : base.fresh.network.Tallied := by
  intro port
  rw [NetworkState.uses_of_notMem (Finset.notMem_empty _),
    NetworkState.uses_of_notMem (Finset.notMem_empty _)]
  refine List.countP_eq_zero.mpr fun r hr => ?_
  rw [decide_eq_true_eq]
  rintro ⟨hprotocol, -⟩
  have hseed : r ∈ seedRules base .pub .ingress := hr
  simp only [seedRules, RuleLists.single_self, List.mem_cons, List.not_mem_nil, or_false] at hseed
  have hicmp : ("1" : String) ≠ "6" := by decide
  rcases hseed with rfl | rfl
  · exact hicmp hprotocol
  · exact hicmp hprotocol

/-- A constructor that returned has finalised the network. -/
theorem isFinalized_of_run_construct {α β : Type} {check : Except PyError β}
    {registration : β → Py Vcn Unit} {create : β → Vcn → Except PyError α} {a : α} {v v' : Vcn}
    (h : (construct check registration create).run v = (.ok a, v')) : v'.isFinalized = true := by
  obtain ⟨_, v₁, -, -, hfin, -⟩ := run_construct_eq_ok.mp h
  exact (congrArg NetworkState.finalized (network_of_run_finalizeNetwork hfin)).trans
    v₁.network.finalized_finalize

/-! ## The steps of an edge -/

/-- Every group of the world is internet-facing. -/
def World.OnEdge (w : World) : Prop :=
  ∀ g nsg, w.nsgs g = some nsg → nsg.role = some (.predefined .internetEdge)

namespace SpellOp

/-- A step that builds an internet-facing group, a compute instance in the public tier, a balancer
or a pool behind a public one. -/
def OnEdge : SpellOp → Prop
  | nsg args => args.role = some (.predefined .internetEdge)
  | computeInstance name args => name.isSome = true ∨ args.subnet = .pub
  | loadBalancer _ => True
  | scalableWorkload args => args.loadBalancerConfig.isPublic = true
  | _ => False

/-- The ports a step opens as an internet-facing group does. -/
def Publishes (port : ℤ) : SpellOp → Prop
  | nsg args => port ∈ args.ports
  | computeInstance _ _ => port = 22
  | scalableWorkload _ => port = 80 ∨ port = 443
  | _ => False

/-- The ports a step opens as a `LoadBalancer` does. -/
def Balances (port : ℤ) : SpellOp → Prop
  | loadBalancer _ => port = 80 ∨ port = 443
  | _ => False

/-- A step that registers a rule without a fingerprint, and then finalises. -/
def OpensBackend : SpellOp → Prop
  | loadBalancer _ | scalableWorkload _ => True
  | _ => False

variable {op : SpellOp} {w w' : World}

/-- An instance on the edge is in the public tier. -/
theorem resolveSubnet_of_onEdge {name : Option String} {args : ComputeArgs} (hw : w.OnEdge)
    (hop : (computeInstance name args).OnEdge) (hname : ∀ g, name = some g → (w.nsgs g).isSome) :
    ComputeInstance.resolveSubnet (name.bind w.nsgs) args.subnet = .pub := by
  cases name with
  | none => exact hop.resolve_left (by simp)
  | some g =>
    obtain ⟨nsg, hnsg⟩ := Option.isSome_iff_exists.mp (hname g rfl)
    rw [Option.bind_some, hnsg, ComputeInstance.resolveSubnet, Option.bind_some, hw g nsg hnsg]
    rfl

/-- **The calls of a step on the edge**: each opens a port the step opens, or is apart. -/
theorem carries_of_mem_ruleCalls (hw : w.OnEdge) (hop : op.OnEdge)
    (hrun : op.exec.run w = (.ok ⟨⟩, w')) {c : RuleCall} (hc : c ∈ op.ruleCalls w) :
    (∃ port, op.Publishes port ∧ c.Carries w.vcn.toVcnBase (.publicIngress port)) ∨
      (∃ port, op.Balances port ∧ c.Carries w.vcn.toVcnBase (.lbPublicIngress port)) ∨
      (c.fingerprint = none ∧ c.rules .pub .ingress = []) := by
  cases op with
  | nsg args =>
    have hrole : args.role = some (.predefined .internetEdge) := hop
    rw [ruleCalls, NsgArgs.ruleCalls, hrole] at hc
    rcases carries_of_mem_ambientCalls hc with ⟨-, port, hport, hcarries⟩ | ⟨h, -⟩ | ⟨h, -⟩
    · exact .inl ⟨port, hport, hcarries⟩
    · cases h
    · cases h
  | computeInstance name args =>
    rw [ruleCalls, resolveSubnet_of_onEdge hw hop (isSome_of_run hrun)] at hc
    exact .inl ⟨22, rfl, carries_of_mem_computeCalls hc⟩
  | loadBalancer args =>
    simp only [ruleCalls, LoadBalancer.ruleCalls, List.mem_cons, List.not_mem_nil, or_false] at hc
    rcases hc with rfl | rfl | rfl
    · exact .inr (.inl ⟨80, .inl rfl, rfl, _, rfl, rfl⟩)
    · exact .inr (.inl ⟨443, .inr rfl, rfl, _, rfl, rfl⟩)
    · exact .inr (.inr ⟨rfl, rfl⟩)
  | scalableWorkload args =>
    have hpublic : args.loadBalancerConfig.isPublic = true := hop
    rw [ruleCalls, ScalableWorkload.ruleCalls, if_pos hpublic] at hc
    simp only [List.mem_cons, List.not_mem_nil, or_false] at hc
    rcases hc with rfl | rfl | rfl
    · exact .inl ⟨80, .inl rfl, rfl, _, rfl, rfl⟩
    · exact .inl ⟨443, .inr rfl, rfl, _, rfl, rfl⟩
    · exact .inr (.inr ⟨rfl, rfl⟩)
  | _ => cases hop

/-- Every port a step opens as a group does has its call. -/
theorem exists_mem_of_publishes (hw : w.OnEdge) (hop : op.OnEdge)
    (hrun : op.exec.run w = (.ok ⟨⟩, w')) {port : ℤ} (h : op.Publishes port) :
    ∃ c ∈ op.ruleCalls w, c.fingerprint = some (Fingerprint.publicIngress port).render := by
  cases op with
  | nsg args =>
    have hrole : args.role = some (.predefined .internetEdge) := hop
    rw [ruleCalls, NsgArgs.ruleCalls, hrole]
    exact ⟨_, List.mem_append_left _ (List.mem_append_left _ (List.mem_map.mpr ⟨port, h, rfl⟩)),
      rfl⟩
  | computeInstance name args =>
    obtain rfl : port = 22 := h
    rw [ruleCalls, resolveSubnet_of_onEdge hw hop (isSome_of_run hrun)]
    exact ⟨_, List.mem_singleton_self _, rfl⟩
  | scalableWorkload args =>
    have hpublic : args.loadBalancerConfig.isPublic = true := hop
    rw [ruleCalls, ScalableWorkload.ruleCalls, if_pos hpublic]
    rcases h with rfl | rfl
    · exact ⟨_, List.mem_cons_self, rfl⟩
    · exact ⟨_, List.mem_cons_of_mem _ List.mem_cons_self, rfl⟩
  | _ => cases h

/-- …and so has every port a step opens as a `LoadBalancer` does. -/
theorem exists_mem_of_balances {port : ℤ} (h : op.Balances port) :
    ∃ c ∈ op.ruleCalls w, c.fingerprint = some (Fingerprint.lbPublicIngress port).render := by
  cases op with
  | loadBalancer args =>
    rcases h with rfl | rfl
    · exact ⟨_, List.mem_cons_self, rfl⟩
    · exact ⟨_, List.mem_cons_of_mem _ List.mem_cons_self, rfl⟩
  | _ => cases h

/-- The groups stay on the edge. -/
theorem onEdge_of_run (hw : w.OnEdge) (hop : op.OnEdge) (hrun : op.exec.run w = (.ok ⟨⟩, w')) :
    w'.OnEdge := by
  have hsame : w'.nsgs = w.nsgs → w'.OnEdge := fun hnsgs g nsg hnsg => hw g nsg (hnsgs ▸ hnsg)
  cases op with
  | nsg args =>
    rw [exec, World.buildNsg, run_bind_eq_ok] at hrun
    obtain ⟨a, w₁, hinit, hmodify⟩ := hrun
    obtain ⟨-, rfl⟩ := Prod.mk.inj hmodify
    obtain ⟨hinit, hnsgs⟩ := World.run_onVcn_eq_ok.mp hinit
    have hrole : a.role = args.role :=
      (Nsg.grownBy_of_addRules (Nsg.run_init_eq_ok hinit).1).1.role
    intro g nsg hnsg
    have hnsg : Function.update w₁.nsgs args.name (some a) g = some nsg := hnsg
    by_cases hg : g = args.name
    · rw [hg, Function.update_self] at hnsg
      rw [← Option.some.inj hnsg, hrole]
      exact hop
    · rw [Function.update_of_ne hg, hnsgs] at hnsg
      exact hw g nsg hnsg
  | computeInstance name args =>
    cases name with
    | none =>
      obtain ⟨_, -, hnsgs⟩ := World.run_build_eq_ok.mp hrun
      exact hsame hnsgs
    | some name =>
      obtain ⟨nsg, -, hbuild⟩ := World.run_lookup_bind_eq_ok.mp hrun
      obtain ⟨_, -, hnsgs⟩ := World.run_build_eq_ok.mp hbuild
      exact hsame hnsgs
  | loadBalancer args =>
    obtain ⟨_, -, hnsgs⟩ := World.run_build_eq_ok.mp hrun
    exact hsame hnsgs
  | scalableWorkload args =>
    obtain ⟨_, -, hnsgs⟩ := World.run_build_eq_ok.mp hrun
    exact hsame hnsgs
  | _ => cases hop

/-- A balancer is built on an open network, which it finalises. -/
theorem finalized_of_opensBackend (h : op.OpensBackend) (hrun : op.exec.run w = (.ok ⟨⟩, w')) :
    w.vcn.isFinalized = false ∧ w'.vcn.isFinalized = true := by
  have hreg := registeredBy_made hrun
  cases op with
  | loadBalancer args =>
    obtain ⟨_, hinit, -⟩ := World.run_build_eq_ok.mp hrun
    exact ⟨hreg.open_of_plain (List.mem_cons_of_mem _ (List.mem_cons_of_mem _ List.mem_cons_self))
      rfl, isFinalized_of_run_construct hinit⟩
  | scalableWorkload args =>
    obtain ⟨_, hinit, -⟩ := World.run_build_eq_ok.mp hrun
    refine ⟨?_, isFinalized_of_run_construct hinit⟩
    have hcalls : ∃ c ∈ (scalableWorkload args).made w, c.fingerprint = none := by
      change ∃ c ∈ ScalableWorkload.ruleCalls w.vcn.toVcnBase args.loadBalancerConfig, _
      unfold ScalableWorkload.ruleCalls
      split
      · exact ⟨_, List.mem_cons_of_mem _ (List.mem_cons_of_mem _ List.mem_cons_self), rfl⟩
      · exact ⟨_, List.mem_cons_self, rfl⟩
    obtain ⟨c, hc, hplain⟩ := hcalls
    exact hreg.open_of_plain hc hplain
  | _ => cases h

/-! ## Runs on the edge -/

variable {ops : List SpellOp}

/-- On a finalised network no balancer is built. -/
theorem not_opensBackend_of_finalized (hrun : (each exec ops).run w = (.ok ⟨⟩, w'))
    (h : w.vcn.isFinalized = true) : ∀ op ∈ ops, ¬ op.OpensBackend := by
  induction ops generalizing w with
  | nil => simp
  | cons op ops ih =>
    rw [each_cons, run_bind_eq_ok] at hrun
    obtain ⟨_, w₁, hop, hrest⟩ := hrun
    intro o ho
    rcases List.mem_cons.mp ho with rfl | ho
    · intro hbackend
      rw [(finalized_of_opensBackend hbackend hop).1] at h
      cases h
    · exact ih hrest (isFinalized_of_run hop h) o ho

/-- **A run builds one balancer at most.** -/
theorem eq_of_opensBackend (hrun : (each exec ops).run w = (.ok ⟨⟩, w')) {a b : SpellOp}
    (ha : a ∈ ops) (hb : b ∈ ops) (hbacka : a.OpensBackend) (hbackb : b.OpensBackend) : a = b := by
  induction ops generalizing w with
  | nil => cases ha
  | cons op ops ih =>
    rw [each_cons, run_bind_eq_ok] at hrun
    obtain ⟨_, w₁, hop, hrest⟩ := hrun
    have hlast : op.OpensBackend → ∀ o ∈ ops, ¬ o.OpensBackend := fun h =>
      not_opensBackend_of_finalized hrest (finalized_of_opensBackend h hop).2
    rcases List.mem_cons.mp ha with rfl | ha'
    · rcases List.mem_cons.mp hb with rfl | hb'
      · rfl
      · exact absurd hbackb (hlast hbacka b hb')
    · rcases List.mem_cons.mp hb with rfl | hb'
      · exact absurd hbacka (hlast hbackb a ha')
      · exact ih hrest ha' hb'

/-- **The run lemma**: a run on the edge keeps the tally. -/
theorem tallied_of_run (hops : ∀ op ∈ ops, op.OnEdge) (hw : w.OnEdge) (h : w.vcn.network.Tallied)
    (hrun : (each exec ops).run w = (.ok ⟨⟩, w')) : w'.vcn.network.Tallied := by
  induction ops generalizing w with
  | nil =>
    obtain ⟨-, rfl⟩ := Prod.mk.inj hrun
    exact h
  | cons op ops ih =>
    rw [each_cons, run_bind_eq_ok] at hrun
    obtain ⟨_, w₁, hop, hrest⟩ := hrun
    have hedge := hops op List.mem_cons_self
    refine ih (fun o ho => hops o (List.mem_cons_of_mem _ ho)) (onEdge_of_run hw hedge hop) ?_ hrest
    refine (registeredBy_made hop).invariant (P := NetworkState.Tallied) ?_
      (fun _ hk => hk.finalize) h
    intro k hbase c hc haccepts hk
    refine hk.call ?_ haccepts
    rw [hbase]
    have hmem : c ∈ op.ruleCalls w := by
      unfold made at hc
      split at hc
      · cases hc
      · exact hc
    rcases carries_of_mem_ruleCalls hw hedge hop hmem with ⟨_, -, hc⟩ | ⟨_, -, hc⟩ | ⟨hc, hc'⟩
    · exact .publicIngress hc
    · exact .lbPublicIngress hc
    · exact .apart hc hc'

/-- A port other than SSH is published by the steps that publish it. -/
theorem exists_made_iff_publishes (hw : w.OnEdge) (hop : op.OnEdge)
    (hrun : op.exec.run w = (.ok ⟨⟩, w')) {port : ℤ} (hport : port ≠ 22) :
    (∃ c ∈ op.made w, c.fingerprint = some (Fingerprint.publicIngress port).render) ↔
      op.Publishes port := by
  cases hskips : op.skips w with
  | true =>
    refine iff_of_false (by simp [made, hskips]) ?_
    cases op with
    | computeInstance => exact hport
    | _ => cases hskips
  | false =>
    rw [made_eq hskips]
    refine ⟨?_, exists_mem_of_publishes hw hop hrun⟩
    rintro ⟨c, hc, hfp⟩
    rcases carries_of_mem_ruleCalls hw hop hrun hc with ⟨_, h, hc⟩ | ⟨_, -, hc⟩ | ⟨hc, -⟩
    · rwa [← Fingerprint.publicIngress.inj (hc.eq_of_fingerprint hfp)]
    · cases hc.eq_of_fingerprint hfp
    · cases hc.symm.trans hfp

/-- …and a port is balanced by those that balance it. -/
theorem exists_made_iff_balances (hw : w.OnEdge) (hop : op.OnEdge)
    (hrun : op.exec.run w = (.ok ⟨⟩, w')) (port : ℤ) :
    (∃ c ∈ op.made w, c.fingerprint = some (Fingerprint.lbPublicIngress port).render) ↔
      op.Balances port := by
  cases hskips : op.skips w with
  | true =>
    refine iff_of_false (by simp [made, hskips]) ?_
    cases op with
    | computeInstance => exact id
    | _ => cases hskips
  | false =>
    rw [made_eq hskips]
    refine ⟨?_, exists_mem_of_balances⟩
    rintro ⟨c, hc, hfp⟩
    rcases carries_of_mem_ruleCalls hw hop hrun hc with ⟨_, -, hc⟩ | ⟨_, h, hc⟩ | ⟨hc, -⟩
    · cases hc.eq_of_fingerprint hfp
    · rwa [← Fingerprint.lbPublicIngress.inj (hc.eq_of_fingerprint hfp)]
    · cases hc.symm.trans hfp

/-- **The fingerprints of a run on the edge** are those of its steps. -/
theorem mem_fingerprints_of_run {s : String} {opens : SpellOp → Prop}
    (hmade : ∀ {op w w'}, World.OnEdge w → op.OnEdge → op.exec.run w = (.ok ⟨⟩, w') →
      ((∃ c ∈ op.made w, c.fingerprint = some s) ↔ opens op))
    (hops : ∀ op ∈ ops, op.OnEdge) (hw : w.OnEdge)
    (hrun : (each exec ops).run w = (.ok ⟨⟩, w')) :
    s ∈ w'.vcn.appliedAmbientRuleFingerprints ↔
      s ∈ w.vcn.appliedAmbientRuleFingerprints ∨ ∃ op ∈ ops, opens op := by
  induction ops generalizing w with
  | nil =>
    obtain ⟨-, rfl⟩ := Prod.mk.inj hrun
    simp
  | cons op ops ih =>
    rw [each_cons, run_bind_eq_ok] at hrun
    obtain ⟨_, w₁, hop, hrest⟩ := hrun
    have hedge := hops op List.mem_cons_self
    rw [ih (fun o ho => hops o (List.mem_cons_of_mem _ ho)) (onEdge_of_run hw hedge hop) hrest,
      (registeredBy_made hop).mem_fingerprints, hmade hw hedge hop, List.exists_mem_cons_iff,
      or_assoc]

end SpellOp

/-! ## One rule for each port -/

/-- **A finalised network with a tally** has one rule for each port unless two fingerprints are in
use for one. -/
theorem oncePerPort_iff_of_tallied {v : Vcn} (hfrozen : v.network.Frozen)
    (htallied : v.network.Tallied) (hfinal : v.network.finalized = true) :
    v.OncePerPort ↔ ¬ ∃ port,
      (Fingerprint.publicIngress port).render ∈ v.appliedAmbientRuleFingerprints ∧
      (Fingerprint.lbPublicIngress port).render ∈ v.appliedAmbientRuleFingerprints := by
  obtain ⟨sl, hsl, hrules⟩ := hfrozen hfinal .pub
  have hcount : ∀ port, sl.ingressSecurityRules.countP (fun r => decide (r.FromInternet port)) =
      v.network.uses (.publicIngress port) + v.network.uses (.lbPublicIngress port) :=
    fun port => (congrArg _ (hrules .ingress)).trans (htallied port)
  have hone : ∀ port,
      v.network.uses (.publicIngress port) + v.network.uses (.lbPublicIngress port) ≤ 1 ↔
        ¬ ((Fingerprint.publicIngress port).render ∈ v.network.fingerprints ∧
          (Fingerprint.lbPublicIngress port).render ∈ v.network.fingerprints) := by
    intro port
    unfold NetworkState.uses
    split_ifs with hpub hlb hlb <;> simp [hpub, hlb]
  rw [not_exists]
  constructor
  · rintro ⟨sl', hsl', hle⟩ port
    obtain rfl := Option.some.inj (hsl.symm.trans hsl')
    exact (hone port).mp ((hcount port).symm.trans_le (hle port))
  · exact fun hnone => ⟨sl, hsl, fun port => (hcount port).trans_le ((hone port).mpr (hnone port))⟩

/-- A `LoadBalancer` was built beside a group that opens one of its ports. -/
def Clash (ops : List SpellOp) : Prop :=
  (∃ args, .loadBalancer args ∈ ops) ∧
    ∃ args, .nsg args ∈ ops ∧ ((80 : ℤ) ∈ args.ports ∨ (443 : ℤ) ∈ args.ports)

/-- **The ports a run opens twice**: a pool behind a public balancer and a `LoadBalancer` are never
in one run, so it takes a group. -/
theorem exists_both_iff_clash {ops : List SpellOp} {w w' : World}
    (hrun : (each SpellOp.exec ops).run w = (.ok ⟨⟩, w')) :
    (∃ port, (∃ op ∈ ops, op.Publishes port) ∧ ∃ op ∈ ops, op.Balances port) ↔ Clash ops := by
  constructor
  · rintro ⟨port, ⟨op, hop, hpub⟩, lb, hlb, hbal⟩
    obtain ⟨balancer, rfl⟩ : ∃ args, lb = .loadBalancer args := by
      cases lb with
      | loadBalancer args => exact ⟨args, rfl⟩
      | _ => cases hbal
    have hport : port = 80 ∨ port = 443 := hbal
    refine ⟨⟨balancer, hlb⟩, ?_⟩
    cases op with
    | nsg args =>
      have hmem : port ∈ args.ports := hpub
      refine ⟨args, hop, ?_⟩
      rcases hport with rfl | rfl
      · exact .inl hmem
      · exact .inr hmem
    | computeInstance name args =>
      have hssh : port = 22 := hpub
      omega
    | scalableWorkload args => cases SpellOp.eq_of_opensBackend hrun hop hlb trivial trivial
    | _ => cases hpub
  · rintro ⟨⟨balancer, hlb⟩, args, hnsg, hport | hport⟩
    · exact ⟨80, ⟨_, hnsg, hport⟩, _, hlb, .inl rfl⟩
    · exact ⟨443, ⟨_, hnsg, hport⟩, _, hlb, .inr rfl⟩

/-- **After every run on the edge, the public list has at most one rule from the internet for each
port, exactly if no `LoadBalancer` was built beside a group that opens one of its ports.** -/
theorem oncePerPort_iff {cloud : Cloud} {args : VcnArgs} {v₀ : Vcn} {ops : List SpellOp} {w : World}
    (h : Vcn.init cloud args = .ok v₀) (hops : ∀ op ∈ ops, op.OnEdge)
    (hrun : (each SpellOp.exec ops).run (World.ofVcn v₀) = (.ok ⟨⟩, w)) :
    (Vcn.finalizeNetwork.after w.vcn).OncePerPort ↔ ¬ Clash ops := by
  have hw : (World.ofVcn v₀).OnEdge := fun _ _ hnsg => by cases hnsg
  have hnone : ∀ s, s ∉ (World.ofVcn v₀).vcn.appliedAmbientRuleFingerprints := fun s => by
    change s ∉ v₀.appliedAmbientRuleFingerprints
    rw [fingerprints_of_init h]
    exact Finset.notMem_empty s
  have htallied : w.vcn.network.Tallied := by
    refine SpellOp.tallied_of_run hops hw ?_ hrun
    change v₀.network.Tallied
    rw [(built_of_init h).2]
    exact v₀.toVcnBase.tallied_fresh
  have hfrozen : w.vcn.network.Frozen :=
    (SpellOp.evolves_of_run hrun).frozen (NetworkState.frozen_of_open (open_of_init h))
  have hfinalize : NetworkState.Evolves (fun _ _ => False) w.vcn.network w.vcn.network.finalize :=
    NetworkState.Evolves.refl.of_finalize
  have hnet := w.vcn.network_finalizeNetwork
  have hfps : (Vcn.finalizeNetwork.after w.vcn).appliedAmbientRuleFingerprints =
      w.vcn.appliedAmbientRuleFingerprints :=
    (congrArg NetworkState.fingerprints hnet).trans w.vcn.network.fingerprints_finalize
  rw [oncePerPort_iff_of_tallied (hnet ▸ hfinalize.frozen hfrozen) (hnet ▸ htallied.finalize)
    (by rw [hnet, NetworkState.finalized_finalize]), hfps, ← exists_both_iff_clash hrun]
  refine not_congr (exists_congr fun port => ?_)
  have hlb := SpellOp.mem_fingerprints_of_run
    (fun hw hop hrun => SpellOp.exists_made_iff_balances hw hop hrun port) hops hw hrun
  rw [or_iff_right (hnone _)] at hlb
  rw [hlb]
  refine and_congr_left fun hbalances => ?_
  -- A balancer's port is not SSH, so the runs that skip a compute instance do not matter.
  have hport : port ≠ 22 := by
    obtain ⟨op, -, hbalances⟩ := hbalances
    cases op with
    | loadBalancer args =>
      have hport : port = 80 ∨ port = 443 := hbalances
      omega
    | _ => cases hbalances
  have hpub := SpellOp.mem_fingerprints_of_run
    (fun hw hop hrun => SpellOp.exists_made_iff_publishes hw hop hrun hport) hops hw hrun
  rwa [or_iff_right (hnone _)] at hpub

/-! ## A group and a balancer for HTTP -/

/-- `Nsg("web", role=INTERNET_EDGE, ports=[80])`, then `LoadBalancer("lb", …)`. -/
def webAndBalancer : List SpellOp :=
  [.nsg webArgs, .loadBalancer { name := "lb", stackName := "dev" }]

/-- The group, then a pool behind a public balancer. -/
def webAndPool : List SpellOp :=
  [.nsg webArgs, .scalableWorkload { name := "app", stackName := "dev" }]

/-- These share their fingerprints. -/
theorem oncePerPort_iff_webAndPool :
    ∃ w, (each SpellOp.exec webAndPool).run (World.ofVcn defaultBase.fresh) = (.ok ⟨⟩, w) ∧
      ((Vcn.finalizeNetwork.after w.vcn).OncePerPort ↔ ¬ Clash webAndPool) := by
  refine ⟨_, rfl, oncePerPort_iff init_default ?_ rfl⟩
  intro op hop
  simp only [webAndPool, List.mem_cons, List.not_mem_nil, or_false] at hop
  rcases hop with rfl | rfl
  · rfl
  · rfl

/-- Port 80 is opened twice: a `LoadBalancer` does not find the group's rule. -/
theorem webAndBalancer_twice : ¬ ∀ (cloud : Cloud) (args : VcnArgs) (v₀ : Vcn) (ops : List SpellOp)
    (w : World), Vcn.init cloud args = .ok v₀ → (∀ op ∈ ops, op.OnEdge) →
    (each SpellOp.exec ops).run (World.ofVcn v₀) = (.ok ⟨⟩, w) →
    (Vcn.finalizeNetwork.after w.vcn).OncePerPort := by
  intro hall
  have hedge : ∀ op ∈ webAndBalancer, op.OnEdge := by
    intro op hop
    simp only [webAndBalancer, List.mem_cons, List.not_mem_nil, or_false] at hop
    rcases hop with rfl | rfl
    · rfl
    · trivial
  obtain ⟨sl, hsl, hle⟩ := hall bundleCloud defaultArgs defaultBase.fresh webAndBalancer _
    init_default hedge rfl
  cases hsl
  exact absurd (hle 80) (by decide)

end CloudSpells
