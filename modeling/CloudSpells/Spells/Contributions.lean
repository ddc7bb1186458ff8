import CloudSpells.Spells.Made
import CloudSpells.Spells.Relations

/-!
# Spells/Contributions — a program's lists are the sum of its steps

The builder writes a call once: what comes under a fingerprint in use is passed over.  Beside it
stands the plain builder, which writes whatever the steps pass, again and again (`contributed`).

A network *accounts for* a list of calls when its lists hold what these pass, up to descriptions,
and nothing but that, the seed and the baseline (`Accounts`).  Every step that returns adds its
calls to what the network accounts for, so the finalised lists of any program of spells let through
exactly what the plain lists do (`policy_of_program`).
-/

namespace CloudSpells

open Machinery Machinery.Exec

/-- The calls of a program, one step after another: none of them passed over. -/
def contributed : World → List SpellOp → List RuleCall
  | _, [] => []
  | w, op :: ops => op.made w ++ contributed (op.exec.after w) ops

/-- What a list would be if the builder wrote every call. -/
def plainRules (base : VcnBase) (calls : List RuleCall) : RuleLists := fun t d =>
  seedRules base t d ++ (calls.flatMap fun c => c.rules t d) ++ Vcn.baselineRules base t d

namespace NetworkState

variable {k : NetworkState} {v v' : Vcn} {base : VcnBase} {past calls : List RuleCall}
  {c : RuleCall} {t : SubnetTier} {d : Direction} {r : SecurityListRule}

/-- **The account of a network**: its lists hold what the calls pass and, once finalised, the
baseline, and every rule in them is from there or from the seed. -/
structure Accounts (base : VcnBase) (past : List RuleCall) (k : NetworkState) : Prop where
  base_eq : k.base = base
  kept : k.Kept ∅
  seeded : ∀ t d, ∀ r ∈ seedRules base t d, k.Holds t d r.erase
  called : ∀ c ∈ past, ∀ t d, ∀ r ∈ c.rules t d, k.Holds t d r.erase
  based : k.finalized = true → ∀ t d, ∀ r ∈ Vcn.baselineRules base t d, k.Holds t d r.erase
  sound : ∀ t d, ∀ r ∈ k.rules t d, r ∈ plainRules base past t d

theorem mem_plainRules : r ∈ plainRules base past t d ↔
    r ∈ seedRules base t d ∨ (∃ c ∈ past, r ∈ c.rules t d) ∨ r ∈ Vcn.baselineRules base t d := by
  rw [plainRules, List.mem_append, List.mem_append, List.mem_flatMap, or_assoc]

theorem accounts_fresh (base : VcnBase) : Accounts base [] base.fresh.network where
  base_eq := rfl
  kept := kept_of_empty rfl
  seeded := fun _ _ r hr => ⟨r, hr, rfl⟩
  called := fun _ hc => by cases hc
  based := fun h => by cases h
  sound := fun _ _ _ hr => mem_plainRules.mpr (Or.inl hr)

/-- A call adds rules of its own at most. -/
theorem mem_rules_call (h : r ∈ (k.call c).rules t d) : r ∈ k.rules t d ∨ r ∈ c.rules t d := by
  cases hfinal : k.finalized with
  | true =>
    obtain ⟨_, -, hsame⟩ := call_of_finalized hfinal c
    rw [hsame] at h
    exact Or.inl h
  | false =>
    rw [call_of_open hfinal] at h
    refine (List.mem_append.mp h).imp_right fun h => ?_
    obtain ⟨c', hc', hr⟩ := List.mem_flatMap.mp h
    rwa [List.mem_singleton.mp (Ledger.mem_of_mem_written hc').1] at hr

/-- **The step lemma**: a call that is accepted is added to the account. -/
theorem Accounts.call (h : Accounts base past k) (hkeyed : c.Keyed base) (haccepts : k.Accepts c) :
    Accounts base (past ++ [c]) (k.call c) := by
  have hevolves : Evolves (fun _ _ => True) k (k.call c) := Evolves.refl.of_call trivial
  have hkeyed' : c.Keyed k.base := h.base_eq.symm ▸ hkeyed
  refine ⟨(k.base_call c).trans h.base_eq, h.kept.call hkeyed' haccepts,
    fun t d r hr => hevolves.holds (h.seeded t d r hr), fun b hb t d r hr => ?_,
    fun hfinal t d r hr => ?_, fun t d r hr => mem_plainRules.mpr ?_⟩
  · rcases List.mem_append.mp hb with hb | hb
    · exact hevolves.holds (h.called b hb t d r hr)
    · obtain rfl := List.mem_singleton.mp hb
      exact h.kept.holds_call hkeyed' haccepts (fun _ _ => Set.notMem_empty _) hr
  · rw [finalized_call] at hfinal
    exact hevolves.holds (h.based hfinal t d r hr)
  · rcases mem_rules_call hr with hr | hr
    · refine (mem_plainRules.mp (h.sound t d r hr)).imp_right (Or.imp_left ?_)
      rintro ⟨b, hb, hr⟩
      exact ⟨b, List.mem_append_left _ hb, hr⟩
    · exact Or.inr (Or.inl ⟨c, by simp, hr⟩)

/-- Finalisation adds the baseline, which every account allows. -/
theorem Accounts.finalize (h : Accounts base past k) : Accounts base past k.finalize := by
  have hevolves : Evolves (fun _ _ => True) k k.finalize := Evolves.refl.of_finalize
  refine ⟨(base_finalize k).trans h.base_eq, h.kept.finalize,
    fun t d r hr => hevolves.holds (h.seeded t d r hr),
    fun c hc t d r hr => hevolves.holds (h.called c hc t d r hr), fun _ t d r hr => ?_,
    fun t d r hr => ?_⟩
  · cases hfinal : k.finalized with
    | true => exact hevolves.holds (h.based hfinal t d r hr)
    | false =>
      rw [finalize_of_open hfinal]
      exact ⟨r, List.mem_append_right _ (h.base_eq.symm ▸ hr), rfl⟩
  · cases hfinal : k.finalized with
    | true =>
      rw [finalize_of_finalized hfinal] at hr
      exact h.sound t d r hr
    | false =>
      rw [finalize_of_open hfinal] at hr
      rcases List.mem_append.mp hr with hr | hr
      · exact h.sound t d r hr
      · exact mem_plainRules.mpr (Or.inr (Or.inr (h.base_eq ▸ hr)))

/-- **A registration that returned is added to the account.** -/
theorem Accounts.registered (h : Accounts base past v.network) (hkeyed : ∀ c ∈ calls, c.Keyed base)
    (hreg : RegisteredBy calls v v') : Accounts base (past ++ calls) v'.network := by
  obtain ⟨v₁, hreg, hnet⟩ := hreg
  have hcalls : Accounts base (past ++ calls) v₁.network := by
    clear hnet
    induction calls generalizing v past with
    | nil =>
      obtain ⟨-, rfl⟩ := Prod.mk.inj hreg
      rwa [List.append_nil]
    | cons c calls ih =>
      rw [register, each_cons, run_bind_eq_ok] at hreg
      obtain ⟨_, v₂, hc, hrest⟩ := hreg
      obtain ⟨haccepts, hcnet⟩ := Vcn.accepts_of_run hc
      rw [List.append_cons]
      refine ih ?_ (fun b hb => hkeyed b (List.mem_cons_of_mem _ hb)) hrest
      rw [hcnet]
      exact h.call (hkeyed c List.mem_cons_self) haccepts
  rcases hnet with hnet | hnet
  · rwa [hnet]
  · rw [hnet]
    exact hcalls.finalize

/-- **The account gives the policy**: a finalised network lets through what the plain lists do. -/
theorem Accounts.listPermits_iff {cloud : Cloud} {pkt : Packet} (h : Accounts base past k)
    (hfinal : k.finalized = true) :
    ListPermits cloud (k.rules t d) pkt ↔ ListPermits cloud (plainRules base past t d) pkt := by
  constructor
  · rintro ⟨r, hr, hpermits⟩
    exact ⟨r, h.sound t d r hr, hpermits⟩
  · rintro ⟨r, hr, hpermits⟩
    have hholds : k.Holds t d r.erase := by
      rcases mem_plainRules.mp hr with hr | ⟨c, hc, hr⟩ | hr
      · exact h.seeded t d r hr
      · exact h.called c hc t d r hr
      · exact h.based hfinal t d r hr
    obtain ⟨r', hr', herase⟩ := hholds
    exact ⟨r', hr', SecurityListRule.permits_of_erase_eq herase.symm hpermits⟩

end NetworkState

/-- **The run lemma**: a run that returned accounts for the calls of its steps. -/
theorem SpellOp.accounts_of_run {base : VcnBase} {past : List RuleCall} {ops : List SpellOp}
    {w w' : World} (h : NetworkState.Accounts base past w.vcn.network)
    (hrun : (each SpellOp.exec ops).run w = (.ok ⟨⟩, w')) :
    NetworkState.Accounts base (past ++ contributed w ops) w'.vcn.network := by
  induction ops generalizing w past with
  | nil =>
    obtain ⟨-, rfl⟩ := Prod.mk.inj hrun
    rwa [contributed, List.append_nil]
  | cons op ops ih =>
    rw [each_cons, run_bind_eq_ok] at hrun
    obtain ⟨_, w₁, hop, hrest⟩ := hrun
    have hkeyed : ∀ c ∈ op.made w, c.Keyed base := fun c hc => by
      have hmem : c ∈ op.ruleCalls w := by
        unfold made at hc
        split at hc
        · cases hc
        · exact hc
      have hbase : w.vcn.toVcnBase = base := h.base_eq
      exact hbase ▸ (issued_of_mem_ruleCalls op.rolesIn_true hmem).keyed
    have hafter : op.exec.after w = w₁ := by rw [after, hop]
    rw [contributed, hafter, ← List.append_assoc]
    exact ih (h.registered hkeyed (registeredBy_made hop)) hrest

/-- **The registry changes nothing that matters.**  After any program of spells that runs to its
end on a fresh VCN, with finalisation and exports anywhere in between, the finalised list of every
tier and direction lets a packet through iff the plain list does: the seed, every rule that every
step passed, and the baseline. -/
theorem policy_of_program {cloud : Cloud} {args : VcnArgs} {v₀ : Vcn}
    (h : Vcn.init cloud args = .ok v₀) (ops : List SpellOp) {w : World}
    (hrun : (each SpellOp.exec ops).run (World.ofVcn v₀) = (.ok ⟨⟩, w)) (t : SubnetTier)
    (d : Direction) (pkt : Packet) :
    ListPermits cloud (w.finalized.vcn.currentRules t d) pkt ↔
      ListPermits cloud (plainRules v₀.toVcnBase (contributed (World.ofVcn v₀) ops) t d) pkt := by
  have hfresh := (built_of_init h).2
  have hstart : NetworkState.Accounts v₀.toVcnBase [] v₀.network := by
    rw [hfresh]
    exact NetworkState.accounts_fresh _
  have haccounts := (SpellOp.accounts_of_run hstart hrun).finalize
  rw [← w.network_finalized, List.nil_append] at haccounts
  have hfinal : w.finalized.vcn.network.finalized = true := by
    rw [w.network_finalized]
    exact NetworkState.finalized_finalize _
  have hfrozen : w.finalized.vcn.network.Frozen := by
    rw [w.network_finalized]
    exact (SpellOp.evolves_of_run hrun).of_finalize.frozen
      (NetworkState.frozen_of_open (open_of_init h))
  rw [Vcn.currentRules_eq hfrozen]
  exact haccounts.listPermits_iff hfinal

/-- A group and a pool open one port under one fingerprint; to the list it is as if both had. -/
theorem policy_of_program_default :
    ∃ w, (each SpellOp.exec
        [.nsg webArgs, .scalableWorkload { name := "app", stackName := "dev" }]).run
        (World.ofVcn defaultBase.fresh) = (.ok ⟨⟩, w) ∧
      ∀ a, ListPermits bundleCloud (w.finalized.vcn.currentRules .pub .ingress)
        ⟨.tcp ⟨80, by decide⟩, a⟩ := by
  obtain ⟨w, hrun⟩ : ∃ w, (each SpellOp.exec
      [.nsg webArgs, .scalableWorkload { name := "app", stackName := "dev" }]).run
        (World.ofVcn defaultBase.fresh) = (.ok ⟨⟩, w) := ⟨_, rfl⟩
  refine ⟨w, hrun, fun a => (policy_of_program init_default _ hrun .pub .ingress _).mpr ?_⟩
  refine ⟨.tcp 80 "0.0.0.0/0" "TCP 80 from internet", NetworkState.mem_plainRules.mpr
    (Or.inr (Or.inl ⟨_, List.mem_append_left _ List.mem_cons_self, List.mem_singleton_self _⟩)), ?_⟩
  exact ⟨Or.inr ⟨rfl, le_rfl, le_rfl⟩, cidrContains_internet a⟩

end CloudSpells
