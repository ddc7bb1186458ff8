import CloudSpells.Network.State
import Mathlib.Logic.Relation

/-!
# Network/Evolution — what a network can become

A spell acts on a VCN through the builder and through `finalize_network`, so it moves the network by
the transitions `call` and `finalize`.  `Evolves allowed` is the closure of these two, the calls
being among the `allowed` ones: whatever order spells come in and wherever they raise, the network
only evolves (`preservesUnless_evolves_register`, `preserves_evolves_finalize`).

What evolution keeps: the attributes of the VCN, the rules recorded, the fingerprints in use, and,
once there are security lists, that they hold the rules recorded (`Frozen`).
-/

namespace CloudSpells

open Machinery Machinery.Exec

namespace NetworkState

/-- One transition, by a call allowed in this state or by finalisation. -/
inductive Step (allowed : NetworkState → RuleCall → Prop) (n : NetworkState) : NetworkState → Prop
  | call {c : RuleCall} (h : allowed n c) : Step allowed n (n.call c)
  | finalize : Step allowed n n.finalize

/-- A network reached from another by allowed transitions. -/
def Evolves (allowed : NetworkState → RuleCall → Prop) : NetworkState → NetworkState → Prop :=
  Relation.ReflTransGen (Step allowed)

variable {allowed : NetworkState → RuleCall → Prop} {n m : NetworkState}

/-! ## One transition -/

@[simp] theorem base_call (n : NetworkState) (c : RuleCall) : (n.call c).base = n.base := by
  unfold call
  split_ifs
  · rfl
  · cases c.fingerprint <;> rfl
  · rfl

@[simp] theorem finalized_call (n : NetworkState) (c : RuleCall) :
    (n.call c).finalized = n.finalized := by
  unfold call
  split_ifs
  · rfl
  · cases c.fingerprint <;> rfl
  · rfl

@[simp] theorem securityList_call (n : NetworkState) (c : RuleCall) :
    (n.call c).securityList = n.securityList := by
  unfold call
  split_ifs
  · rfl
  · cases c.fingerprint <;> rfl
  · rfl

/-- A call on a finalised network changes the fingerprints at most. -/
theorem call_of_finalized (h : n.finalized = true) (c : RuleCall) :
    ∃ fingerprints, n.fingerprints ⊆ fingerprints ∧
      n.call c = { n with fingerprints := fingerprints } := by
  rw [call, if_pos h]
  split_ifs
  · exact ⟨n.fingerprints, subset_rfl, rfl⟩
  · cases c.fingerprint with
    | none => exact ⟨n.fingerprints, subset_rfl, rfl⟩
    | some fp => exact ⟨insert fp n.fingerprints, Finset.subset_insert _ _, rfl⟩

/-- A transition of a finalised network changes the fingerprints at most. -/
theorem Step.of_finalized (hstep : Step allowed n m) (h : n.finalized = true) :
    ∃ fingerprints, n.fingerprints ⊆ fingerprints ∧
      m = { n with fingerprints := fingerprints } := by
  cases hstep with
  | call _ => exact call_of_finalized h _
  | finalize => exact ⟨n.fingerprints, subset_rfl, finalize_of_finalized h⟩

theorem Step.base_eq (h : Step allowed n m) : m.base = n.base := by
  cases h with
  | call _ => exact n.base_call _
  | finalize => exact n.base_finalize

/-- Rules are added at the end of a list and never taken away. -/
theorem Step.rules_prefix (h : Step allowed n m) (t : SubnetTier) (d : Direction) :
    n.rules t d <+: m.rules t d := by
  cases hn : n.finalized with
  | true =>
    obtain ⟨_, -, rfl⟩ := h.of_finalized hn
    exact List.prefix_rfl
  | false =>
    cases h with
    | call _ =>
      rw [call_of_open hn]
      exact List.prefix_append _ _
    | finalize =>
      rw [finalize_of_open hn]
      exact List.prefix_append _ _

/-! ## Every run -/

theorem Evolves.refl : Evolves allowed n n := Relation.ReflTransGen.refl

theorem Evolves.trans {k : NetworkState} (h : Evolves allowed n m) (h' : Evolves allowed m k) :
    Evolves allowed n k := Relation.ReflTransGen.trans h h'

theorem Evolves.of_call {c : RuleCall} (h : Evolves allowed n m) (hc : allowed m c) :
    Evolves allowed n (m.call c) := Relation.ReflTransGen.tail h (.call hc)

theorem Evolves.of_finalize (h : Evolves allowed n m) : Evolves allowed n m.finalize :=
  Relation.ReflTransGen.tail h .finalize

/-- **The rule of invariants**: what each transition keeps, every run keeps. -/
theorem Evolves.invariant {P : NetworkState → Prop} (h : Evolves allowed n m)
    (hcall : ∀ k c, allowed k c → P k → P (k.call c)) (hfinalize : ∀ k, P k → P k.finalize)
    (hn : P n) : P m := by
  induction h with
  | refl => exact hn
  | tail _ hstep ih =>
    cases hstep with
    | call hc => exact hcall _ _ hc ih
    | finalize => exact hfinalize _ ih

theorem Evolves.base_eq (h : Evolves allowed n m) : m.base = n.base := by
  induction h with
  | refl => rfl
  | tail _ hstep ih => exact hstep.base_eq.trans ih

theorem Evolves.rules_prefix (h : Evolves allowed n m) (t : SubnetTier) (d : Direction) :
    n.rules t d <+: m.rules t d := by
  induction h with
  | refl => exact List.prefix_rfl
  | tail _ hstep ih => exact ih.trans (hstep.rules_prefix t d)

/-- An open network has the security lists it started with. -/
theorem Evolves.securityList_of_open (h : Evolves allowed n m) (hopen : m.finalized = false) :
    m.securityList = n.securityList := by
  refine h.invariant (P := fun k => k.finalized = false → k.securityList = n.securityList)
    (fun k c _ hk hopen => ?_) (fun k _ hopen => ?_) (fun _ => rfl) hopen
  · rw [securityList_call]
    exact hk (by rwa [finalized_call] at hopen)
  · rw [finalized_finalize] at hopen
    cases hopen

/-- **A finalised network stays as it is**, its fingerprints apart. -/
theorem Evolves.of_finalized (h : Evolves allowed n m) (hn : n.finalized = true) :
    ∃ fingerprints, m = { n with fingerprints := fingerprints } := by
  induction h with
  | refl => exact ⟨n.fingerprints, rfl⟩
  | tail _ hstep ih =>
    obtain ⟨_, rfl⟩ := ih
    obtain ⟨fps, -, rfl⟩ := hstep.of_finalized hn
    exact ⟨fps, rfl⟩

/-! ## Calls a network accepts -/

/-- The builder takes the call: the network is open, or the call's fingerprint is in use. -/
def Accepts (n : NetworkState) (c : RuleCall) : Prop :=
  n.finalized = false ∨ ∃ fp, c.fingerprint = some fp ∧ fp ∈ n.fingerprints

/-- The fingerprint a call brought into use is its own. -/
theorem fingerprint_of_mem_call {c : RuleCall} {fp : String} (h : fp ∈ (n.call c).fingerprints)
    (hfp : fp ∉ n.fingerprints) : c.fingerprint = some fp := by
  cases hn : n.finalized with
  | false =>
    rw [call_of_open hn] at h
    obtain ⟨b, hb, hs⟩ := (Ledger.mem_keys.mp h).resolve_left hfp
    rwa [List.mem_singleton.mp hb] at hs
  | true =>
    rw [call, if_pos hn] at h
    split_ifs at h
    · exact absurd h hfp
    · cases hs : c.fingerprint with
      | none =>
        rw [hs] at h
        exact absurd h hfp
      | some s =>
        rw [hs] at h
        rw [(Finset.mem_insert.mp h).resolve_right hfp]

/-- A call under a used fingerprint changes nothing. -/
theorem call_of_used {c : RuleCall} {s : String} (hs : c.fingerprint = some s)
    (h : s ∈ n.fingerprints) : n.call c = n := by
  cases hn : n.finalized with
  | true => rw [call, if_pos hn, if_pos ⟨s, hs, h⟩]
  | false =>
    rw [call_of_open hn]
    ext
    · rfl
    · simp [record, writtenRules, Ledger.written_cons_seen hs h]
    · rfl
    · simp [record, usedFingerprints, Ledger.keys_cons_some hs, Finset.insert_eq_of_mem h]
    all_goals rfl

/-- A call on an open network that no fingerprint shuts out adds its rules. -/
theorem rules_call_of_fresh {c : RuleCall} (hopen : n.finalized = false)
    (hfresh : Ledger.Fresh RuleCall.fingerprint n.fingerprints c) (t : SubnetTier) (d : Direction) :
    (n.call c).rules t d = n.rules t d ++ c.rules t d := by
  have hwritten : Ledger.written RuleCall.fingerprint n.fingerprints [c] = [c] := by
    cases hs : c.fingerprint with
    | none => rw [Ledger.written_cons_none hs, Ledger.written_nil]
    | some s => rw [Ledger.written_cons_fresh hs (hfresh s hs), Ledger.written_nil]
  rw [call_of_open hopen]
  change n.rules t d ++ writtenRules n.fingerprints [c] t d = _
  rw [writtenRules, hwritten, List.flatMap_cons, List.flatMap_nil, List.append_nil]

/-- An accepted call leaves its fingerprint in use. -/
theorem mem_fingerprints_call {c : RuleCall} (haccepts : n.Accepts c) {s : String} :
    s ∈ (n.call c).fingerprints ↔ s ∈ n.fingerprints ∨ c.fingerprint = some s := by
  rcases haccepts with hopen | ⟨fp, hfp, hmem⟩
  · rw [call_of_open hopen, record, usedFingerprints, Ledger.mem_keys]
    simp
  · rw [call_of_used hfp hmem, hfp]
    refine ⟨.inl, fun h => h.elim id fun heq => ?_⟩
    rwa [← Option.some.inj heq]

/-! ## The security lists hold the rules -/

/-- The rules of a finalised network are in its security lists. -/
def Frozen (n : NetworkState) : Prop :=
  n.finalized = true → ∀ t, ∃ sl, n.securityList t = some sl ∧ ∀ d, sl.rules d = n.rules t d

theorem frozen_of_open (h : n.finalized = false) : n.Frozen := fun h' => by simp [h] at h'

theorem frozen_materialize (n : NetworkState) : n.materialize.Frozen :=
  fun _ t => ⟨_, rfl, fun d => by cases d <;> rfl⟩

/-- **Finalisation freezes the rules**, and they stay frozen. -/
theorem Evolves.frozen (h : Evolves allowed n m) (hn : n.Frozen) : m.Frozen := by
  refine h.invariant (fun k c _ hk => ?_) (fun k hk => ?_) hn
  · cases hopen : k.finalized with
    | false => exact frozen_of_open (by rw [finalized_call, hopen])
    | true =>
      obtain ⟨_, -, hcall⟩ := call_of_finalized hopen c
      rw [hcall]
      exact hk
  · cases hopen : k.finalized with
    | false =>
      rw [finalize_of_open hopen]
      exact k.frozen_materialize
    | true =>
      rw [finalize_of_finalized hopen]
      exact hk

end NetworkState

/-- A call the network does not accept is refused. -/
theorem Vcn.run_exec_of_not_accepts {v : Vcn} {c : RuleCall} (h : ¬ v.network.Accepts c) :
    c.exec.run v = (.error (.runtimeError finalizedMessage), v.mark c.fingerprint) := by
  have hfinal : v.securityListsFinalized = true := by
    cases hv : v.securityListsFinalized with
    | true => rfl
    | false => exact absurd (Or.inl hv) h
  have hused : ¬ ∃ fp, c.fingerprint = some fp ∧ fp ∈ v.appliedAmbientRuleFingerprints :=
    fun hused => h (Or.inr hused)
  rw [run_exec_of_finalized hfinal, if_neg hused]

/-- A call that returned was accepted. -/
theorem Vcn.accepts_of_run {v v' : Vcn} {c : RuleCall} (h : c.exec.run v = (.ok ⟨⟩, v')) :
    v.network.Accepts c ∧ v'.network = v.network.call c := by
  refine ⟨by_contra fun hnot => ?_, ?_⟩
  · rw [run_exec_of_not_accepts hnot] at h
    cases (Prod.mk.inj h).1
  · rw [← v.network_exec, after, h]

/-! ## Methods that only let a network evolve -/

/-- A VCN whose network evolved from `n`. -/
def Vcn.EvolvedFrom (allowed : NetworkState → RuleCall → Prop) (n : NetworkState) (v : Vcn) :
    Prop :=
  NetworkState.Evolves allowed n v.network

section Evolve

variable {allowed : NetworkState → RuleCall → Prop} {n : NetworkState}

variable {E : PyError → Prop}

/-- A call moves the network where it is accepted; elsewhere the builder refuses it. -/
theorem preservesUnless_evolves_exec {c : RuleCall}
    (h : ∀ k : NetworkState, k.Accepts c ∨ ¬ E (.runtimeError finalizedMessage) → allowed k c) :
    PreservesUnless E (Vcn.EvolvedFrom allowed n) c.exec := fun v hv hraise => by
  rw [Vcn.EvolvedFrom, v.network_exec]
  refine hv.of_call (h _ ?_)
  by_cases haccepts : v.network.Accepts c
  · exact Or.inl haccepts
  · exact Or.inr (hraise _ (congrArg Prod.fst (Vcn.run_exec_of_not_accepts haccepts)))

/-- **Registering calls lets a network evolve by them**, also where one of them raises. -/
theorem preservesUnless_evolves_register {calls : List RuleCall}
    (h : ∀ c ∈ calls, ∀ k : NetworkState,
      k.Accepts c ∨ ¬ E (.runtimeError finalizedMessage) → allowed k c) :
    PreservesUnless E (Vcn.EvolvedFrom allowed n) (register calls) :=
  preservesUnless_each fun c hc => preservesUnless_evolves_exec (h c hc)

/-- …and so does registering calls that depend on the attributes of the VCN. -/
theorem preservesUnless_evolves_get_register {calls : VcnBase → List RuleCall}
    (h : ∀ c ∈ calls n.base, ∀ k : NetworkState,
      k.Accepts c ∨ ¬ E (.runtimeError finalizedMessage) → allowed k c) :
    PreservesUnless E (Vcn.EvolvedFrom allowed n)
      (get >>= fun v => register (calls v.toVcnBase)) := by
  refine preservesUnless_get_bind fun v hv => ?_
  have hbase : v.toVcnBase = n.base := hv.base_eq
  rw [hbase]
  exact preservesUnless_evolves_register h

/-- Registering only lets a network evolve. -/
theorem preserves_evolves_register {calls : List RuleCall} (h : ∀ c ∈ calls, ∀ k, allowed k c) :
    Preserves (Vcn.EvolvedFrom allowed n) (register calls) := fun v hv =>
  preservesUnless_evolves_register (E := fun _ => False) (fun c hc k _ => h c hc k) v hv
    fun _ _ he => he

theorem preserves_evolves_finalize :
    Preserves (Vcn.EvolvedFrom allowed n) Vcn.finalizeNetwork := fun v hv => by
  rw [Vcn.EvolvedFrom, v.network_finalizeNetwork]
  exact hv.of_finalize

theorem preserves_evolves_export :
    Preserves (Vcn.EvolvedFrom allowed n) Vcn.exportOutputs := fun v hv => by
  rw [Vcn.EvolvedFrom, v.network_exportOutputs]
  exact hv.of_finalize

end Evolve

end CloudSpells
