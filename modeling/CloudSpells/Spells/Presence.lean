import CloudSpells.Spells.Program

/-!
# Spells/Presence — no rule of a spell is missing

A spell that was constructed has its security-list rules in the lists of the VCN, or it would have
raised.  Two exceptions are part of the design of the source or of its builder:

* a `ComputeInstance` on a finalised VCN takes the network as it finds it
  (`compute_without_ssh`);
* a fingerprint that a refused call left behind stands for rules that are not there.  A program with
  a raise caught goes on with it, so the fingerprints refused steps put in use are kept apart
  (`lost`).

`present_of_program` is the statement for every program.
-/

namespace CloudSpells

open Machinery Machinery.Exec

/-- The rules of a list: those of the security list, or those accumulated where there is none yet.
-/
def Vcn.currentRules (v : Vcn) (t : SubnetTier) (d : Direction) : List SecurityListRule :=
  if v.isFinalized then (v.securityList t).elim [] fun sl => sl.rules d else v.rules t d

theorem Vcn.currentRules_eq {v : Vcn} (h : v.network.Frozen) (t : SubnetTier) (d : Direction) :
    v.currentRules t d = v.rules t d := by
  unfold currentRules
  split
  · rename_i hfinal
    obtain ⟨sl, hsl, hrules⟩ := h hfinal t
    have hsl : v.securityList t = some sl := hsl
    rw [hsl]
    exact hrules d
  · rfl

namespace SpellOp

theorem rolesIn_true (op : SpellOp) : op.RolesIn fun _ => True := by
  cases op <;> first | exact trivial | exact fun _ _ => trivial

/-- The fingerprints that were put in use by steps that ended with the builder's refusal. -/
def lost (w₀ : World) (ops : List SpellOp) : Set String :=
  {s | ∃ pre op post, ops = pre ++ op :: post ∧
    op.exec.outcome (replay exec pre w₀) = .error (.runtimeError finalizedMessage) ∧
    s ∉ (replay exec pre w₀).vcn.appliedAmbientRuleFingerprints ∧
    s ∈ (op.exec.after (replay exec pre w₀)).vcn.appliedAmbientRuleFingerprints}

theorem lost_subset_append (w₀ : World) (ops ops' : List SpellOp) :
    lost w₀ ops ⊆ lost w₀ (ops ++ ops') := by
  rintro s ⟨pre, op, post, rfl, hrefused, hnew⟩
  exact ⟨pre, op, post ++ ops', by simp, hrefused, hnew⟩

/-- A step only lets the network evolve. -/
theorem evolves_step (op : SpellOp) (w : World) : NetworkState.Evolves (fun _ _ => True)
    w.vcn.network (op.exec.after w).vcn.network := op.evolves_exec w fun _ _ _ _ => trivial

/-- **A program moves the network by the calls of its steps.** -/
theorem evolves_replay_of {Q : RuleCall → Prop} {w₀ : World} (ops : List SpellOp)
    (hQ : ∀ op ∈ ops, ∀ w : World, w.vcn.toVcnBase = w₀.vcn.toVcnBase → ∀ c ∈ op.ruleCalls w, Q c) :
    NetworkState.Evolves (fun _ c => Q c) w₀.vcn.network (replay exec ops w₀).vcn.network := by
  induction ops generalizing w₀ with
  | nil => exact NetworkState.Evolves.refl
  | cons op ops ih =>
    have hbase : (op.exec.after w₀).vcn.toVcnBase = w₀.vcn.toVcnBase := (op.evolves_step w₀).base_eq
    refine NetworkState.Evolves.trans ?_ (ih fun o ho w hw =>
      hQ o (List.mem_cons_of_mem _ ho) w (hw.trans hbase))
    exact op.evolves_exec w₀ fun c hc _ _ => hQ op (by simp) w₀ rfl c hc

theorem evolves_replay (w₀ : World) (ops : List SpellOp) :
    NetworkState.Evolves (fun _ _ => True) w₀.vcn.network (replay exec ops w₀).vcn.network :=
  evolves_replay_of ops fun _ _ _ _ _ _ => trivial

/-- **The run lemma**: after a program the fingerprints in use have their rules in the lists, those
of the refused steps apart. -/
theorem kept_replay {w₀ : World} (h₀ : w₀.vcn.appliedAmbientRuleFingerprints = ∅)
    (ops : List SpellOp) : (replay exec ops w₀).vcn.network.Kept (lost w₀ ops) := by
  induction ops using List.reverseRecOn with
  | nil => exact NetworkState.kept_of_empty h₀
  | append_singleton ops op ih =>
    rw [replay_append, replay_cons, replay_nil]
    let w := replay exec ops w₀
    have hkept : w.vcn.network.Kept (lost w₀ (ops ++ [op])) :=
      ih.mono (lost_subset_append w₀ ops [op])
    by_cases hrefused : op.exec.outcome w = .error (.runtimeError finalizedMessage)
    · -- What a refused step put in use is lost; the rest was there before.
      intro f hf hlost
      have hbefore : f.render ∈ w.vcn.appliedAmbientRuleFingerprints := by
        by_contra hnew
        exact hlost ⟨ops, op, [], rfl, hrefused, hnew, hf⟩
      have hevolves := op.evolves_step w
      rw [hevolves.base_eq]
      exact hevolves.holds (hkept f hbefore hlost)
    · have hevolves : NetworkState.Evolves (fun k c => c.Keyed w.vcn.toVcnBase ∧ k.Accepts c)
          w.vcn.network (op.exec.after w).vcn.network :=
        op.evolves_exec w fun c hc k hk => ⟨(issued_of_mem_ruleCalls op.rolesIn_true hc).keyed,
          hk.resolve_right hrefused⟩
      exact hkept.of_evolves hevolves (fun _ _ hc => hc.1) fun _ _ hc => hc.2

/-- On a VCN that is still open no step was refused, and nothing is lost. -/
theorem kept_of_open {w₀ : World} (h₀ : w₀.vcn.appliedAmbientRuleFingerprints = ∅)
    (ops : List SpellOp) (hopen : (replay exec ops w₀).vcn.isFinalized = false) :
    (replay exec ops w₀).vcn.network.Kept ∅ := by
  have hevolves : NetworkState.Evolves (fun _ c => c.Keyed w₀.vcn.toVcnBase) w₀.vcn.network
      (replay exec ops w₀).vcn.network :=
    evolves_replay_of ops fun op _ w hw c hc =>
      hw ▸ (issued_of_mem_ruleCalls op.rolesIn_true hc).keyed
  exact (NetworkState.kept_of_empty h₀).of_evolves_open hevolves (fun _ _ hc => hc) hopen

end SpellOp

/-- Every rule the step's registration defines is in its list, up to its description. -/
def SpellOp.Present (op : SpellOp) (w w' : World) : Prop :=
  ∀ c ∈ op.ruleCalls w, ∀ t d, ∀ r ∈ c.rules t d, ∃ r' ∈ w'.vcn.currentRules t d, r'.erase = r.erase

/-- **No rule is missing.**  In every program on a fresh VCN, a step that returns has every rule of
its registration in the lists, unless it is a compute instance on a finalised VCN or has a
fingerprint that a refused step put in use; and one whose rules a finalised VCN does not have
raises. -/
theorem present_of_program {cloud : Cloud} {args : VcnArgs} {v₀ : Vcn}
    (h : Vcn.init cloud args = .ok v₀) (ops : List SpellOp) (op : SpellOp) :
    let w := replay SpellOp.exec ops (World.ofVcn v₀)
    op.skips w = false →
    (∀ c ∈ op.ruleCalls w, ∀ s, c.fingerprint = some s →
      s ∉ SpellOp.lost (World.ofVcn v₀) ops) →
    (∀ w', op.exec.run w = (.ok ⟨⟩, w') → op.Present w w') ∧
    (w.vcn.isFinalized = true → ¬ op.Present w w → ∃ e, op.exec.outcome w = .error e) := by
  intro w hskips hlost
  have hkept : w.vcn.network.Kept (SpellOp.lost (World.ofVcn v₀) ops) :=
    SpellOp.kept_replay (fingerprints_of_init h) ops
  have hfrozen : w.vcn.network.Frozen :=
    (SpellOp.evolves_replay (World.ofVcn v₀) ops).frozen
      (NetworkState.frozen_of_open (open_of_init h))
  -- A step that returned has its rules in the lists, frozen or not.
  have hpresent : ∀ w', op.exec.run w = (.ok ⟨⟩, w') → op.Present w w' := by
    intro w' hrun c hc t d r hr
    have hevolves := op.evolves_step w
    rw [after, hrun] at hevolves
    rw [Vcn.currentRules_eq (hevolves.frozen hfrozen)]
    obtain ⟨v₁, hreg, hnet⟩ := SpellOp.registered_of_run hskips hrun
    have hholds := holds_of_register hkept
      (fun c hc => (SpellOp.issued_of_mem_ruleCalls op.rolesIn_true hc).keyed) hlost hreg hc hr
    change w'.vcn.network.Holds t d r.erase
    rcases hnet with hnet | hnet
    · rwa [hnet]
    · have hfinalize : NetworkState.Evolves (fun _ _ => False) v₁.network v₁.network.finalize :=
        NetworkState.Evolves.refl.of_finalize
      rw [hnet]
      exact hfinalize.holds hholds
  refine ⟨hpresent, fun hfinal hmissing => ?_⟩
  rcases hrun : op.exec.run w with ⟨r, w'⟩
  cases r with
  | error e => exact ⟨e, by rw [outcome, hrun]⟩
  | ok _ =>
    -- The lists of a finalised VCN are the same after the step.
    refine absurd (fun c hc t d r hr => ?_) hmissing
    have hevolves := op.evolves_step w
    obtain ⟨_, hsame⟩ := hevolves.of_finalized hfinal
    have hrules : (op.exec.after w).vcn.rules = w.vcn.rules := congrArg NetworkState.rules hsame
    have hthere := hpresent w' hrun c hc t d r hr
    rw [Vcn.currentRules_eq hfrozen, ← hrules, ← Vcn.currentRules_eq (hevolves.frozen hfrozen)]
    rwa [after, hrun]

/-- A pool behind a public balancer, one of whose rules the group has brought. -/
theorem present_of_program_default :
    ∃ w', (SpellOp.scalableWorkload { name := "app", stackName := "dev" }).exec.run
        (replay SpellOp.exec [.nsg webArgs] (World.ofVcn defaultBase.fresh)) = (.ok ⟨⟩, w') ∧
      (SpellOp.scalableWorkload { name := "app", stackName := "dev" }).Present
        (replay SpellOp.exec [.nsg webArgs] (World.ofVcn defaultBase.fresh)) w' := by
  have hlost : ∀ s, s ∉ SpellOp.lost (World.ofVcn defaultBase.fresh) [.nsg webArgs] := by
    rintro s ⟨pre, op, post, heq, hrefused, -⟩
    match pre, heq with
    | [], heq =>
      obtain ⟨rfl, -⟩ := List.cons.inj heq
      cases hrefused
    | _ :: pre, heq => simp at heq
  have hpresent := (present_of_program init_default [.nsg webArgs]
    (.scalableWorkload { name := "app", stackName := "dev" }) rfl fun _ _ s _ => hlost s).1
  exact ⟨_, rfl, hpresent _ rfl⟩

/-- On a finalised VCN, an instance is built without the rule its registration method defines. -/
theorem compute_without_ssh :
    ∃ w', (SpellOp.computeInstance none { name := "vm", stackName := "dev" }).exec.run
        (replay SpellOp.exec [.finalizeNetwork] (World.ofVcn defaultBase.fresh)) = (.ok ⟨⟩, w') ∧
      ¬ (SpellOp.computeInstance none { name := "vm", stackName := "dev" }).Present
        (replay SpellOp.exec [.finalizeNetwork] (World.ofVcn defaultBase.fresh)) w' := by
  have hcheck : ComputeInstance.check { name := "vm", stackName := "dev" } =
      .ok [VolumeSpec.default] := ComputeInstance.check_eq_ok.mpr ⟨rfl, by decide, by decide⟩
  rw [SpellOp.exec, World.build, ComputeInstance.init, hcheck]
  refine ⟨_, rfl, fun h => ?_⟩
  obtain ⟨r, hr, -⟩ := h _ List.mem_cons_self .priv .ingress _ List.mem_cons_self
  cases hr

end CloudSpells
