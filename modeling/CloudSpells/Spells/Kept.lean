import CloudSpells.Spells.Fingerprint

/-!
# Spells/Kept — the rules behind the fingerprints in use

A list *holds* a rule when it has one that differs in its description at most.  A network is `Kept`
when every fingerprint in use has its rule in its list, those in `lost` apart: the fingerprints that
a refused call left behind.

Keyed calls keep a network kept as long as they are accepted (`Kept.of_evolves`), and what a run of
accepted calls on a kept network passes, the lists hold (`holds_of_register`) — also where the
builder passed a call over because its fingerprint was in use.
-/

namespace CloudSpells

open Machinery Machinery.Exec

namespace NetworkState

variable {allowed : NetworkState → RuleCall → Prop} {n m : NetworkState} {c : RuleCall}
  {lost : Set String}

/-- The list has the rule `e`, up to its description. -/
def Holds (n : NetworkState) (t : SubnetTier) (d : Direction) (e : SecurityListRule) : Prop :=
  ∃ r ∈ n.rules t d, r.erase = e

/-- What a list holds, it goes on holding. -/
theorem Evolves.holds (h : Evolves allowed n m) {t : SubnetTier} {d : Direction}
    {e : SecurityListRule} (hn : n.Holds t d e) : m.Holds t d e := by
  obtain ⟨r, hr, he⟩ := hn
  exact ⟨r, (h.rules_prefix t d).subset hr, he⟩

/-- The fingerprints in use have their rules in the lists, those in `lost` apart. -/
def Kept (lost : Set String) (n : NetworkState) : Prop :=
  ∀ f : Fingerprint, f.render ∈ n.fingerprints → f.render ∉ lost →
    n.Holds f.tier f.dir (f.rule n.base)

theorem kept_of_empty (h : n.fingerprints = ∅) : n.Kept lost := fun f hf => by simp [h] at hf

theorem Kept.mono {lost' : Set String} (h : n.Kept lost) (hsub : lost ⊆ lost') : n.Kept lost' :=
  fun f hf hlost => h f hf fun hmem => hlost (hsub hmem)

/-- **An accepted call puts its rules into the lists**, or finds them there. -/
theorem Kept.holds_call (h : n.Kept lost) (hkeyed : c.Keyed n.base) (haccepts : n.Accepts c)
    (hlost : ∀ s, c.fingerprint = some s → s ∉ lost) {t : SubnetTier} {d : Direction}
    {r : SecurityListRule} (hr : r ∈ c.rules t d) : (n.call c).Holds t d r.erase := by
  by_cases hused : ∃ s, c.fingerprint = some s ∧ s ∈ n.fingerprints
  · obtain ⟨s, hs, hmem⟩ := hused
    obtain ⟨f, hf⟩ := hkeyed s hs
    have hrender : f.render = s := Option.some.inj (hf.1.symm.trans hs)
    obtain ⟨rfl, rfl, herase⟩ := hf.mem_rules.mp ⟨r, hr, rfl⟩
    have hholds := h f (hrender ▸ hmem) (hrender ▸ hlost s hs)
    have hevolves : Evolves (fun _ _ => True) n (n.call c) := Evolves.refl.of_call trivial
    rw [herase]
    exact hevolves.holds hholds
  · have hopen : n.finalized = false := haccepts.resolve_right hused
    have hwritten : Ledger.written RuleCall.fingerprint n.fingerprints [c] = [c] := by
      cases hs : c.fingerprint with
      | none => rw [Ledger.written_cons_none hs, Ledger.written_nil]
      | some s =>
        rw [Ledger.written_cons_fresh hs fun hmem => hused ⟨s, hs, hmem⟩, Ledger.written_nil]
    rw [call_of_open hopen]
    refine ⟨r, List.mem_append_right _ ?_, rfl⟩
    rw [writtenRules, hwritten, List.flatMap_cons, List.flatMap_nil, List.append_nil]
    exact hr

/-- **The step lemma**: a keyed call keeps a network kept where it is accepted. -/
theorem Kept.call (h : n.Kept lost) (hkeyed : c.Keyed n.base) (haccepts : n.Accepts c) :
    (n.call c).Kept lost := by
  intro f hf hlost
  have hevolves : Evolves (fun _ _ => True) n (n.call c) := Evolves.refl.of_call trivial
  rw [base_call]
  by_cases hmem : f.render ∈ n.fingerprints
  · exact hevolves.holds (h f hmem hlost)
  · -- The fingerprint is new, so it is the call's.
    have hs : c.fingerprint = some f.render := fingerprint_of_mem_call hf hmem
    obtain ⟨g, hg⟩ := hkeyed _ hs
    obtain rfl := Fingerprint.render_injective (Option.some.inj (hg.1.symm.trans hs))
    obtain ⟨r, hr, herase⟩ := hg.mem_rules.mpr ⟨rfl, rfl, rfl⟩
    rw [← herase]
    refine h.holds_call hkeyed haccepts (fun s hs' => ?_) hr
    rwa [Option.some.inj (hs'.symm.trans hs)]

theorem Kept.finalize (h : n.Kept lost) : n.finalize.Kept lost := by
  intro f hf hlost
  have hevolves : Evolves (fun _ _ => True) n n.finalize := Evolves.refl.of_finalize
  rw [base_finalize]
  rw [fingerprints_finalize] at hf
  exact hevolves.holds (h f hf hlost)

/-- **The run lemma**: a kept network evolves into a kept one, by keyed calls that are accepted. -/
theorem Kept.of_evolves (hn : n.Kept lost) (h : Evolves allowed n m)
    (hkeyed : ∀ k c, allowed k c → c.Keyed n.base)
    (haccepts : ∀ k c, allowed k c → k.Accepts c) : m.Kept lost := by
  have hinv : m.base = n.base ∧ m.Kept lost := by
    refine h.invariant (P := fun k => k.base = n.base ∧ k.Kept lost) ?_ ?_ ⟨rfl, hn⟩
    · rintro k c hc ⟨hbase, hk⟩
      rw [base_call]
      exact ⟨hbase, hk.call (hbase.symm ▸ hkeyed k c hc) (haccepts k c hc)⟩
    · rintro k ⟨hbase, hk⟩
      rw [base_finalize]
      exact ⟨hbase, hk.finalize⟩
  exact hinv.2

/-- An open network evolved from an open one through accepted calls only. -/
theorem Kept.of_evolves_open (hn : n.Kept lost) (h : Evolves allowed n m)
    (hkeyed : ∀ k c, allowed k c → c.Keyed n.base) (hopen : m.finalized = false) : m.Kept lost := by
  have hinv : m.base = n.base ∧ (m.finalized = false → m.Kept lost) := by
    refine h.invariant (P := fun k => k.base = n.base ∧ (k.finalized = false → k.Kept lost))
      ?_ ?_ ⟨rfl, fun _ => hn⟩
    · rintro k c hc ⟨hbase, hk⟩
      rw [base_call, finalized_call]
      exact ⟨hbase, fun hopen =>
        (hk hopen).call (hbase.symm ▸ hkeyed k c hc) (Or.inl hopen)⟩
    · rintro k ⟨hbase, -⟩
      rw [base_finalize, finalized_finalize]
      exact ⟨hbase, fun hopen => by cases hopen⟩
  exact hinv.2 hopen

end NetworkState

/-- **What a registration that returned passed, the lists hold.** -/
theorem holds_of_register {lost : Set String} {calls : List RuleCall} {v v' : Vcn}
    (hkept : v.network.Kept lost) (hkeyed : ∀ c ∈ calls, c.Keyed v.toVcnBase)
    (hlost : ∀ c ∈ calls, ∀ s, c.fingerprint = some s → s ∉ lost)
    (hrun : (register calls).run v = (.ok ⟨⟩, v')) {c : RuleCall} (hc : c ∈ calls) {t : SubnetTier}
    {d : Direction} {r : SecurityListRule} (hr : r ∈ c.rules t d) :
    v'.network.Holds t d r.erase := by
  induction calls generalizing v with
  | nil => cases hc
  | cons b calls ih =>
    rw [register, each_cons, run_bind_eq_ok] at hrun
    obtain ⟨_, v₁, hb, hrest⟩ := hrun
    obtain ⟨haccepts, hnet⟩ := Vcn.accepts_of_run hb
    have hbase : v₁.toVcnBase = v.toVcnBase :=
      (congrArg NetworkState.base hnet).trans (v.network.base_call b)
    rcases List.mem_cons.mp hc with rfl | hc
    · have hholds := hkept.holds_call (hkeyed c (by simp)) haccepts (hlost c (by simp)) hr
      have hevolves : Preserves (Vcn.EvolvedFrom (fun _ _ => True) v₁.network) (register calls) :=
        preserves_evolves_register fun _ _ _ => trivial
      have hafter := hevolves v₁ NetworkState.Evolves.refl
      rw [after, register, hrest] at hafter
      exact hafter.holds (hnet ▸ hholds)
    · refine ih (hnet ▸ hkept.call (hkeyed b (by simp)) haccepts) (fun a ha => ?_)
        (fun a ha => hlost a (List.mem_cons_of_mem _ ha)) hrest hc
      rw [hbase]
      exact hkeyed a (List.mem_cons_of_mem _ ha)

end CloudSpells
