import CloudSpells.Spells.Labels
import CloudSpells.Spells.Presence

/-!
# Spells/Made — what a step that returned has done

A step that returned has made its calls, and has moved the network by nothing else
(`registeredBy_made`): so what accepted calls and finalisation keep, it keeps
(`RegisteredBy.invariant`), and the fingerprints in use afterwards are those that were and those of
its calls (`RegisteredBy.mem_fingerprints`).
-/

namespace CloudSpells

open Machinery Machinery.Exec

variable {v v' : Vcn} {w w' : World} {calls : List RuleCall}

/-- **The rule of registrations**: what accepted calls and finalisation keep, a registration that
returned keeps. -/
theorem RegisteredBy.invariant {P : NetworkState → Prop} (h : RegisteredBy calls v v')
    (hcall : ∀ k : NetworkState, k.base = v.toVcnBase → ∀ c ∈ calls, k.Accepts c → P k →
      P (k.call c))
    (hfinalize : ∀ k : NetworkState, P k → P k.finalize) (hv : P v.network) : P v'.network := by
  obtain ⟨v₁, hreg, hnet⟩ := h
  have hreg : P v₁.network := by
    clear hnet
    induction calls generalizing v with
    | nil =>
      obtain ⟨-, rfl⟩ := Prod.mk.inj hreg
      exact hv
    | cons c calls ih =>
      rw [register, each_cons, run_bind_eq_ok] at hreg
      obtain ⟨_, v₂, hc, hrest⟩ := hreg
      obtain ⟨haccepts, hcnet⟩ := Vcn.accepts_of_run hc
      have hbase : v₂.toVcnBase = v.toVcnBase :=
        (congrArg NetworkState.base hcnet).trans (v.network.base_call c)
      refine ih (fun k hk d hd => hcall k (hk.trans hbase) d (List.mem_cons_of_mem _ hd)) ?_ hrest
      rw [hcnet]
      exact hcall _ rfl c List.mem_cons_self haccepts hv
  rcases hnet with hnet | hnet
  · rwa [hnet]
  · rw [hnet]
    exact hfinalize _ hreg

/-- The fingerprints in use after a registration: those that were, and those of its calls. -/
theorem RegisteredBy.mem_fingerprints (h : RegisteredBy calls v v') {s : String} :
    s ∈ v'.appliedAmbientRuleFingerprints ↔
      s ∈ v.appliedAmbientRuleFingerprints ∨ ∃ c ∈ calls, c.fingerprint = some s := by
  obtain ⟨v₁, hreg, hnet⟩ := h
  have hsame : v'.appliedAmbientRuleFingerprints = v₁.appliedAmbientRuleFingerprints := by
    rcases hnet with hnet | hnet
    · exact congrArg NetworkState.fingerprints hnet
    · exact (congrArg NetworkState.fingerprints hnet).trans v₁.network.fingerprints_finalize
  rw [hsame]
  cases hfinal : v.securityListsFinalized with
  | false =>
    rw [run_register_of_open hfinal] at hreg
    obtain ⟨-, rfl⟩ := Prod.mk.inj hreg
    exact Ledger.mem_keys
  | true =>
    have hknown := exists_run_register_iff.mp ⟨v₁, hreg⟩ hfinal
    rw [run_register_of_finalized hfinal hknown] at hreg
    obtain ⟨-, rfl⟩ := Prod.mk.inj hreg
    refine ⟨.inl, fun hs => hs.elim id fun hcall => ?_⟩
    obtain ⟨c, hc, hfp⟩ := hcall
    obtain ⟨fp, hfp', hmem⟩ := hknown c hc
    rwa [Option.some.inj (hfp.symm.trans hfp')]

/-- A call without a fingerprint was made on an open network. -/
theorem RegisteredBy.open_of_plain (h : RegisteredBy calls v v') {c : RuleCall} (hc : c ∈ calls)
    (hplain : c.fingerprint = none) : v.isFinalized = false := by
  obtain ⟨v₁, hreg, -⟩ := h
  cases hfinal : v.securityListsFinalized with
  | false => exact hfinal
  | true =>
    obtain ⟨fp, hfp, -⟩ := exists_run_register_iff.mp ⟨v₁, hreg⟩ hfinal c hc
    cases hplain.symm.trans hfp

/-- A spell that leaves it to the builder to refuse its calls, on an open VCN. -/
theorem network_of_construct {α β : Type} {check : Except PyError β}
    (calls : β → VcnBase → List RuleCall) {create : β → Vcn → Except PyError α} {a : α}
    (hopen : v.securityListsFinalized = false)
    (h : (construct check (fun checked => get >>= fun v => register (calls checked v.toVcnBase))
      create).run v = (.ok a, v')) :
    ∃ checked, check = .ok checked ∧ create checked v' = .ok a ∧
      v'.network = (v.record (calls checked v.toVcnBase)).network.materialize := by
  obtain ⟨checked, v₁, hcheck, hreg, hfin, hcreate⟩ := run_construct_eq_ok.mp h
  refine ⟨checked, hcheck, hcreate, ?_⟩
  rw [run_get_bind, run_register_of_open hopen] at hreg
  obtain ⟨-, rfl⟩ := Prod.mk.inj hreg
  rw [network_of_run_finalizeNetwork hfin]
  exact NetworkState.finalize_of_open hopen

/-- A compute instance on a finalised VCN leaves it alone. -/
theorem ComputeInstance.eq_of_run_init {nsg : Option Nsg} {args : ComputeArgs} {a : ComputeInstance}
    (hfinal : v.isFinalized = true) (h : (ComputeInstance.init nsg args).run v = (.ok a, v')) :
    v' = v := by
  obtain ⟨_, v₁, -, hreg, hfin, -⟩ := run_construct_eq_ok.mp h
  rw [registration, run_get_bind, hfinal] at hreg
  obtain ⟨-, rfl⟩ := Prod.mk.inj hreg
  rw [Vcn.run_finalizeNetwork_of_finalized hfinal] at hfin
  exact (Prod.mk.inj hfin).2.symm

/-- The calls that a step which returns has made. -/
def SpellOp.made (w : World) (op : SpellOp) : List RuleCall :=
  if op.skips w then [] else op.ruleCalls w

/-- **A step that returned has made its calls**, and moved the network by nothing else. -/
theorem SpellOp.registeredBy_made {op : SpellOp} (h : op.exec.run w = (.ok ⟨⟩, w')) :
    RegisteredBy (op.made w) w.vcn w'.vcn := by
  cases hskips : op.skips w with
  | false =>
    rw [made, hskips]
    exact registered_of_run hskips h
  | true =>
    rw [made, hskips]
    refine ⟨w.vcn, rfl, Or.inl ?_⟩
    cases op with
    | computeInstance name args =>
      cases name with
      | none =>
        obtain ⟨a, hinit, -⟩ := World.run_build_eq_ok.mp h
        rw [ComputeInstance.eq_of_run_init hskips hinit]
      | some name =>
        obtain ⟨nsg, -, hbuild⟩ := World.run_lookup_bind_eq_ok.mp h
        obtain ⟨a, hinit, -⟩ := World.run_build_eq_ok.mp hbuild
        rw [ComputeInstance.eq_of_run_init hskips hinit]
    | _ => cases hskips


namespace SpellOp

variable {op : SpellOp} {ops : List SpellOp}

/-- A step other than a compute instance makes the calls it registers. -/
theorem made_eq (h : op.skips w = false) : op.made w = op.ruleCalls w := if_neg (by simp [h])

/-- A step that returned found the group it names. -/
theorem isSome_of_run {name : Option String} {args : ComputeArgs}
    (h : (computeInstance name args).exec.run w = (.ok ⟨⟩, w')) (g : String) (hg : name = some g) :
    (w.nsgs g).isSome := by
  subst hg
  obtain ⟨nsg, hnsg, -⟩ := World.run_lookup_bind_eq_ok.mp h
  exact Option.isSome_iff_exists.mpr ⟨nsg, hnsg⟩

/-- A finalised network stays finalised. -/
theorem isFinalized_of_run (hrun : op.exec.run w = (.ok ⟨⟩, w')) (h : w.vcn.isFinalized = true) :
    w'.vcn.isFinalized = true := by
  have hevolves := op.evolves_step w
  rw [after, hrun] at hevolves
  obtain ⟨_, hsame⟩ := hevolves.of_finalized h
  exact (congrArg NetworkState.finalized hsame).trans h

/-- A run only lets the network evolve. -/
theorem evolves_of_run (hrun : (each exec ops).run w = (.ok ⟨⟩, w')) :
    NetworkState.Evolves (fun _ _ => True) w.vcn.network w'.vcn.network := by
  have hpres : Preserves (World.EvolvedFrom (fun _ _ => True) w.vcn.network) (each exec ops) :=
    preserves_each fun op _ u hu => NetworkState.Evolves.trans hu (op.evolves_step u)
  have hafter := hpres w NetworkState.Evolves.refl
  rwa [after, hrun] at hafter

end SpellOp

end CloudSpells
