import CloudSpells.Network.Evolution
import CloudSpells.Network.History

/-!
# Network/Registry — what a fingerprint in use says

`has_ambient_rule` is meant to say that the rules of a fingerprint are in the lists.  Over a history
it does exactly when no call under a new fingerprint came after finalisation (`registrySound_iff`):
such a call raises, and leaves its fingerprint in the registry without its rules.
-/

namespace CloudSpells

open Machinery Machinery.Exec

/-! ## Fingerprints and transitions -/

namespace NetworkState

@[simp] theorem fingerprints_finalize (n : NetworkState) :
    n.finalize.fingerprints = n.fingerprints := by
  unfold finalize
  split_ifs
  · rfl
  · rfl

/-- A call without a fingerprint uses none. -/
theorem fingerprints_call_plain (n : NetworkState) (rules : RuleLists) :
    (n.call (.plain rules)).fingerprints = n.fingerprints := by
  unfold call
  split_ifs
  · rfl
  · rfl
  · rfl

/-- Calls other than `add_unique_security_list_rules` use no fingerprint. -/
theorem fingerprints_step {c : VcnCall}
    (hc : ∀ f rules, c ≠ .addUniqueSecurityListRules f rules) (n : NetworkState) :
    (n.step c).fingerprints = n.fingerprints := by
  cases c with
  | addSecurityListRules rules => exact n.fingerprints_call_plain rules
  | addUniqueSecurityListRules f rules => exact absurd rfl (hc f rules)
  | addSecurityRules rules => exact n.fingerprints_call_plain _
  | finalizeNetwork => exact n.fingerprints_finalize
  | exportOutputs => exact n.fingerprints_finalize
  | vcnFlowLogs args =>
    rw [step]
    change (if _ then n.finalize else n).fingerprints = _
    split_ifs
    · exact n.fingerprints_finalize
    · rfl

/-- A history only lets the network evolve. -/
theorem evolves_foldl_step (n : NetworkState) (calls : List VcnCall) :
    Evolves (fun _ _ => True) n (calls.foldl step n) := by
  induction calls generalizing n with
  | nil => exact Evolves.refl
  | cons c calls ih =>
    refine Evolves.trans ?_ (ih (n.step c))
    unfold step
    cases c.ruleCall n.base.svcCidrBlock with
    | some r => exact Evolves.refl.of_call trivial
    | none =>
      dsimp only
      split_ifs
      · exact Evolves.refl.of_finalize
      · exact Evolves.refl

end NetworkState

/-! ## The registry over a history -/

/-- The call put its rules into the lists, under the fingerprint. -/
def Accumulates (v : Vcn) (c : VcnCall) (f : String) : Prop :=
  ∃ rules, c = .addUniqueSecurityListRules f rules ∧ v.hasAmbientRule f = false ∧
    c.exec.outcome v = .ok ⟨⟩ ∧ (c.exec.after v).rules = v.rules.extend rules

/-- Some call of the history put its rules into the lists, under the fingerprint. -/
def Accumulated (v₀ : Vcn) (calls : List VcnCall) (f : String) : Prop :=
  ∃ pre c post, calls = pre ++ c :: post ∧ Accumulates (replay VcnCall.exec pre v₀) c f

/-- The registry says in every state of the history what was accumulated, and a call under a
fingerprint that raises changes neither the registry nor the lists, so that it raises again. -/
structure RegistrySound (v₀ : Vcn) (calls : List VcnCall) : Prop where
  registered : ∀ pre, pre <+: calls → ∀ f,
    (replay VcnCall.exec pre v₀).hasAmbientRule f = true ↔ Accumulated v₀ pre f
  refused : ∀ pre f rules post e, calls = pre ++ .addUniqueSecurityListRules f rules :: post →
    let v := replay VcnCall.exec pre v₀
    let c := VcnCall.addUniqueSecurityListRules f rules
    c.exec.outcome v = .error e →
      (c.exec.after v).appliedAmbientRuleFingerprints = v.appliedAmbientRuleFingerprints ∧
      (c.exec.after v).rules = v.rules ∧ c.exec.outcome (c.exec.after v) = .error e

/-- A call that is not one under a new fingerprint on a finalised network. -/
def InTime (v : Vcn) (c : VcnCall) : Prop :=
  ∀ f rules, c = .addUniqueSecurityListRules f rules → v.isFinalized = true →
    v.hasAmbientRule f = true

/-- A history whose every call is in time. -/
def AllInTime (v₀ : Vcn) (calls : List VcnCall) : Prop :=
  ∀ pre c post, calls = pre ++ c :: post → InTime (replay VcnCall.exec pre v₀) c

section Step

variable {v : Vcn} {f : String} {rules : RuleLists}

/-- A call under a fingerprint in use does nothing. -/
theorem run_addUnique_of_registered (h : v.hasAmbientRule f = true) :
    (Vcn.addUniqueSecurityListRules f rules).run v = (.ok ⟨⟩, v) := by
  rw [Vcn.addUniqueSecurityListRules, run_get_bind, if_pos (of_decide_eq_true h), run_pure]

/-- A call under a new one, on an open network, adds the fingerprint and the rules. -/
theorem run_addUnique_of_open (hopen : v.securityListsFinalized = false)
    (h : v.hasAmbientRule f = false) : (Vcn.addUniqueSecurityListRules f rules).run v =
      (.ok ⟨⟩, v.setRules (v.rules.extend rules) (insert f v.appliedAmbientRuleFingerprints)) := by
  rw [Vcn.addUniqueSecurityListRules, run_get_bind, if_neg (of_decide_eq_false h), run_modify_bind,
    Vcn.addSecurityListRules, run_get_bind, if_neg (by rw [hopen]; decide), run_modify]
  rfl

/-- …and on a finalised network, the fingerprint alone. -/
theorem run_addUnique_of_finalized (hfinal : v.securityListsFinalized = true)
    (h : v.hasAmbientRule f = false) : (Vcn.addUniqueSecurityListRules f rules).run v =
      (.error (.runtimeError finalizedMessage),
        v.setRules v.rules (insert f v.appliedAmbientRuleFingerprints)) := by
  rw [Vcn.addUniqueSecurityListRules, run_get_bind, if_neg (of_decide_eq_false h), run_modify_bind,
    Vcn.addSecurityListRules, run_get_bind, if_pos hfinal, run_throw]
  rfl

/-- In each of the three, the fingerprint is in use afterwards, and no other is new. -/
theorem fingerprints_after_addUnique (v : Vcn) (f : String) (rules : RuleLists) :
    ((VcnCall.addUniqueSecurityListRules f rules).exec.after v).appliedAmbientRuleFingerprints =
      insert f v.appliedAmbientRuleFingerprints := by
  rw [VcnCall.exec, after]
  cases hreg : v.hasAmbientRule f with
  | true =>
    rw [run_addUnique_of_registered hreg, Finset.insert_eq_of_mem (of_decide_eq_true hreg)]
  | false =>
    cases hopen : v.securityListsFinalized with
    | false =>
      rw [run_addUnique_of_open hopen hreg]
      rfl
    | true =>
      rw [run_addUnique_of_finalized hopen hreg]
      rfl

/-- The other calls leave the registry as it is. -/
theorem fingerprints_after_of_ne {c : VcnCall}
    (hc : ∀ f rules, c ≠ .addUniqueSecurityListRules f rules) (v : Vcn) :
    (c.exec.after v).appliedAmbientRuleFingerprints = v.appliedAmbientRuleFingerprints := by
  have hstep := NetworkState.fingerprints_step hc v.network
  rwa [← network_exec_vcnCall] at hstep

/-- A fingerprint in use stays in use. -/
theorem fingerprints_subset_after (v : Vcn) (c : VcnCall) :
    v.appliedAmbientRuleFingerprints ⊆ (c.exec.after v).appliedAmbientRuleFingerprints := by
  by_cases hunique : ∃ f rules, c = .addUniqueSecurityListRules f rules
  · obtain ⟨f, rules, rfl⟩ := hunique
    rw [fingerprints_after_addUnique]
    exact Finset.subset_insert f _
  · rw [fingerprints_after_of_ne (fun f rules h => hunique ⟨f, rules, h⟩)]

/-- **The step lemma of the registry**: a call in time registers what it accumulates. -/
theorem hasAmbientRule_after {c : VcnCall} (hc : InTime v c) (g : String) :
    (c.exec.after v).hasAmbientRule g = true ↔ v.hasAmbientRule g = true ∨ Accumulates v c g := by
  by_cases hunique : ∃ f rules, c = .addUniqueSecurityListRules f rules
  · obtain ⟨f, rules, rfl⟩ := hunique
    cases hreg : v.hasAmbientRule f with
    | true =>
      rw [VcnCall.exec, after, run_addUnique_of_registered hreg]
      refine (or_iff_left ?_).symm
      rintro ⟨_, heq, hnew, -⟩
      obtain ⟨rfl, -⟩ := VcnCall.addUniqueSecurityListRules.inj heq
      rw [hreg] at hnew
      cases hnew
    | false =>
      have hopen : v.securityListsFinalized = false := by
        cases h : v.securityListsFinalized with
        | false => rfl
        | true => exact absurd (hc f rules rfl h) (by simp [hreg])
      have hrun : (Vcn.addUniqueSecurityListRules f rules).run v = _ :=
        run_addUnique_of_open hopen hreg
      rw [VcnCall.exec, after, hrun]
      constructor
      · intro hg
        rcases Finset.mem_insert.mp (of_decide_eq_true hg) with rfl | hg
        · refine Or.inr ⟨rules, rfl, hreg, ?_, ?_⟩
          · rw [VcnCall.exec, outcome, hrun]
          · rw [VcnCall.exec, after, hrun]
            rfl
        · exact Or.inl (decide_eq_true hg)
      · rintro (hg | ⟨_, heq, -⟩)
        · exact decide_eq_true (Finset.mem_insert_of_mem (of_decide_eq_true hg))
        · obtain ⟨rfl, -⟩ := VcnCall.addUniqueSecurityListRules.inj heq
          exact decide_eq_true (Finset.mem_insert_self _ _)
  · have hsame : (c.exec.after v).hasAmbientRule g = v.hasAmbientRule g := by
      unfold Vcn.hasAmbientRule
      rw [fingerprints_after_of_ne (fun f rules h => hunique ⟨f, rules, h⟩)]
    rw [hsame]
    refine (or_iff_left ?_).symm
    rintro ⟨rules, h, -⟩
    exact hunique ⟨g, rules, h⟩

end Step

/-- What one more call accumulates. -/
theorem accumulated_append {v₀ : Vcn} {calls : List VcnCall} {c : VcnCall} {f : String} :
    Accumulated v₀ (calls ++ [c]) f ↔
      Accumulated v₀ calls f ∨ Accumulates (replay VcnCall.exec calls v₀) c f := by
  constructor
  · rintro ⟨pre, b, post, heq, hb⟩
    rcases List.eq_nil_or_concat post with rfl | ⟨post', d, rfl⟩
    · obtain ⟨rfl, hcb⟩ := List.append_inj' heq rfl
      obtain rfl := List.singleton_inj.mp hcb
      exact Or.inr hb
    · have hsplit : calls ++ [c] = (pre ++ b :: post') ++ [d] := by simpa using heq
      obtain ⟨rfl, -⟩ := List.append_inj' hsplit rfl
      exact Or.inl ⟨pre, b, post', rfl, hb⟩
  · rintro (⟨pre, b, post, rfl, hb⟩ | hc)
    · exact ⟨pre, b, post ++ [c], by simp, hb⟩
    · exact ⟨calls, c, [], rfl, hc⟩

/-- **The run lemma of the registry.** -/
theorem hasAmbientRule_replay {v₀ : Vcn} (h₀ : v₀.appliedAmbientRuleFingerprints = ∅)
    (calls : List VcnCall) (h : AllInTime v₀ calls) (f : String) :
    (replay VcnCall.exec calls v₀).hasAmbientRule f = true ↔ Accumulated v₀ calls f := by
  induction calls using List.reverseRecOn with
  | nil =>
    refine iff_of_false (by simp [Vcn.hasAmbientRule, h₀]) ?_
    rintro ⟨pre, c, post, heq, -⟩
    simp at heq
  | append_singleton calls c ih =>
    have hinit : AllInTime v₀ calls := fun pre b post heq =>
      h pre b (post ++ [c]) (by rw [heq]; simp)
    have hlast := h calls c [] rfl
    rw [replay_append, replay_cons, replay_nil, hasAmbientRule_after hlast, ih hinit,
      accumulated_append]

/-- **The registry is sound over a history iff** every call of the history is in time. -/
theorem registrySound_iff {v₀ : Vcn} (h₀ : v₀.appliedAmbientRuleFingerprints = ∅)
    (calls : List VcnCall) : RegistrySound v₀ calls ↔ AllInTime v₀ calls := by
  constructor
  · intro h pre c post heq f rules hc hfinal
    subst hc
    cases hreg : (replay VcnCall.exec pre v₀).hasAmbientRule f with
    | true => rfl
    | false =>
      -- The call is refused, and the registry it leaves is not the one it found.
      have hrun : (Vcn.addUniqueSecurityListRules f rules).run (replay VcnCall.exec pre v₀) = _ :=
        run_addUnique_of_finalized hfinal hreg
      have hrefused := h.refused pre f rules post _ heq (congrArg Prod.fst hrun)
      have hafter := congrArg (fun p => p.2.appliedAmbientRuleFingerprints) hrun
      have hmem := Finset.insert_eq_self.mp (hafter.symm.trans hrefused.1)
      exact absurd (decide_eq_true hmem) (by simpa [Vcn.hasAmbientRule] using hreg)
  · intro h
    refine ⟨fun pre hpre f => ?_, fun pre f rules post e heq herror => ?_⟩
    · obtain ⟨post, rfl⟩ := hpre
      refine hasAmbientRule_replay h₀ pre (fun p c q heq => ?_) f
      exact h p c (q ++ post) (by rw [heq, List.append_assoc, List.cons_append])
    · -- A call in time is never refused.
      have hintime := h pre _ post heq f rules rfl
      cases hreg : (replay VcnCall.exec pre v₀).hasAmbientRule f with
      | true =>
        rw [VcnCall.exec, outcome, run_addUnique_of_registered hreg] at herror
        cases herror
      | false =>
        cases hopen : (replay VcnCall.exec pre v₀).securityListsFinalized with
        | false =>
          rw [VcnCall.exec, outcome, run_addUnique_of_open hopen hreg] at herror
          cases herror
        | true =>
          rw [hintime hopen] at hreg
          cases hreg

/-- A fingerprint that a call of the history named is in use after it. -/
theorem hasAmbientRule_of_mem {v₀ : Vcn} {calls : List VcnCall} {f : String} {rules : RuleLists}
    (h : .addUniqueSecurityListRules f rules ∈ calls) :
    (replay VcnCall.exec calls v₀).hasAmbientRule f = true := by
  induction calls using List.reverseRecOn with
  | nil => cases h
  | append_singleton calls c ih =>
    rw [replay_append, replay_cons, replay_nil]
    rcases List.mem_append.mp h with h | h
    · exact decide_eq_true (fingerprints_subset_after _ c (of_decide_eq_true (ih h)))
    · obtain rfl := List.mem_singleton.mp h
      refine decide_eq_true ?_
      rw [fingerprints_after_addUnique]
      exact Finset.mem_insert_self f _

/-- The call is the first of the history under the fingerprint. -/
def FirstUse (calls : List VcnCall) (f : String) (rules : RuleLists) : Prop :=
  ∃ pre post, calls = pre ++ .addUniqueSecurityListRules f rules :: post ∧
    ∀ earlier, .addUniqueSecurityListRules f earlier ∉ pre

/-- What a history accumulated under a fingerprint are the rules of the first call that used it, and
they are in the lists it leaves. -/
theorem rules_of_accumulated {v₀ : Vcn} {calls : List VcnCall} {f : String}
    (h : Accumulated v₀ calls f) :
    ∃ rules, FirstUse calls f rules ∧
      ∀ t d, ∀ r ∈ rules t d, r ∈ (replay VcnCall.exec calls v₀).rules t d := by
  obtain ⟨pre, c, post, rfl, rules, rfl, hnew, -, hrules⟩ := h
  have hfirst : ∀ earlier, .addUniqueSecurityListRules f earlier ∉ pre := by
    intro earlier hmem
    rw [hasAmbientRule_of_mem hmem] at hnew
    cases hnew
  refine ⟨rules, ⟨pre, post, rfl, hfirst⟩, fun t d r hr => ?_⟩
  rw [replay_append, replay_cons]
  have hevolves := NetworkState.evolves_foldl_step
    ((VcnCall.addUniqueSecurityListRules f rules).exec.after
      (replay VcnCall.exec pre v₀)).network post
  rw [← network_replay] at hevolves
  refine (hevolves.rules_prefix t d).subset ?_
  have hadded : r ∈ (replay VcnCall.exec pre v₀).rules.extend rules t d :=
    List.mem_append_right _ hr
  rwa [← hrules] at hadded

end CloudSpells
