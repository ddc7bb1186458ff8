import CloudSpells.Machinery.Ledger
import CloudSpells.Network.Vcn

/-!
# Network/Builder — accumulating security-list rules

The builder half of `Vcn`: rules arrive through `addSecurityListRules`, `addSecurityRules` and,
under a fingerprint, `addUniqueSecurityListRules`, and are refused once the network is finalised.  A
`RuleCall` is one such call as data.

On an open network a run of calls is a ledger: what it leaves is `Vcn.record`
(`run_register_of_open`).  On a finalised one a call returns only if its fingerprint was used
before, and a call that raises leaves the fingerprint behind (`run_exec_of_finalized`): the source
adds the fingerprint before it looks at the flag.
-/

namespace CloudSpells

open Machinery Machinery.Exec

/-- The text of the builder's refusal. -/
def finalizedMessage : String :=
  "Cannot add security list rules after network has been finalized. " ++
    "Call add_security_list_rules() before finalize_network()."

namespace Vcn

/-- `is_finalized`. -/
def isFinalized (v : Vcn) : Bool := v.securityListsFinalized

/-- `has_ambient_rule`. -/
def hasAmbientRule (v : Vcn) (fingerprint : String) : Bool :=
  decide (fingerprint ∈ v.appliedAmbientRuleFingerprints)

/-- `add_security_list_rules`: the eight lists are extended by the eight arguments. -/
def addSecurityListRules (rules : RuleLists) : Py Vcn Unit := do
  let v ← get
  if v.securityListsFinalized then
    throw (.runtimeError finalizedMessage)
  else
    modify fun v => { v with rules := v.rules.extend rules }

/-- `add_unique_security_list_rules`. -/
def addUniqueSecurityListRules (fingerprint : String) (rules : RuleLists) : Py Vcn Unit := do
  let v ← get
  if fingerprint ∈ v.appliedAmbientRuleFingerprints then
    pure ⟨⟩
  else do
    -- The fingerprint is in the set before `addSecurityListRules` may refuse the rules.
    modify fun v =>
      { v with
        appliedAmbientRuleFingerprints := insert fingerprint v.appliedAmbientRuleFingerprints }
    addSecurityListRules rules

/-- The eight lists `add_security_rules` passes on. -/
def translateRules (svcCidrBlock : String) (rules : SecurityRules) : RuleLists
  | t, .ingress => (rules.ingress t).map translateIngressRule
  | t, .egress => (rules.egress t).map (translateEgressRule svcCidrBlock)

/-- `add_security_rules`. -/
def addSecurityRules (rules : SecurityRules) : Py Vcn Unit := do
  let v ← get
  addSecurityListRules (translateRules v.svcCidrBlock rules)

end Vcn

/-! ## Calls as data -/

/-- A call of `add_security_list_rules` or, with a fingerprint, of
`add_unique_security_list_rules`. -/
structure RuleCall where
  fingerprint : Option String := none
  rules : RuleLists

namespace RuleCall

/-- Make the call. -/
def exec (c : RuleCall) : Py Vcn Unit :=
  match c.fingerprint with
  | none => Vcn.addSecurityListRules c.rules
  | some fingerprint => Vcn.addUniqueSecurityListRules fingerprint c.rules

/-- A call with a fingerprint. -/
def unique (fingerprint : String) (rules : RuleLists) : RuleCall where
  fingerprint := some fingerprint
  rules := rules

/-- A call without one. -/
def plain (rules : RuleLists) : RuleCall where
  rules := rules

@[simp] theorem fingerprint_unique (fingerprint : String) (rules : RuleLists) :
    (unique fingerprint rules).fingerprint = some fingerprint := rfl

@[simp] theorem rules_unique (fingerprint : String) (rules : RuleLists) :
    (unique fingerprint rules).rules = rules := rfl

@[simp] theorem fingerprint_plain (rules : RuleLists) : (plain rules).fingerprint = none := rfl

@[simp] theorem rules_plain (rules : RuleLists) : (plain rules).rules = rules := rfl

end RuleCall

/-- The calls in order, stopping at the first that raises. -/
def register (calls : List RuleCall) : Py Vcn Unit := each RuleCall.exec calls

/-- The rules the calls write to a list where `seen` are the fingerprints in use. -/
def writtenRules (seen : Finset String) (calls : List RuleCall) : RuleLists := fun t d =>
  (Ledger.written RuleCall.fingerprint seen calls).flatMap fun c => c.rules t d

/-- The fingerprints in use after the calls. -/
def usedFingerprints (seen : Finset String) (calls : List RuleCall) : Finset String :=
  Ledger.keys RuleCall.fingerprint seen calls

/-- The VCN with other rules and fingerprints. -/
def Vcn.setRules (v : Vcn) (rules : RuleLists) (fingerprints : Finset String) : Vcn :=
  { v with rules := rules, appliedAmbientRuleFingerprints := fingerprints }

/-- An open VCN after a run of calls. -/
def Vcn.record (v : Vcn) (calls : List RuleCall) : Vcn :=
  v.setRules (v.rules.extend (writtenRules v.appliedAmbientRuleFingerprints calls))
    (usedFingerprints v.appliedAmbientRuleFingerprints calls)

/-- A VCN with the fingerprint of a refused call. -/
def Vcn.mark (v : Vcn) (fingerprint : Option String) : Vcn :=
  { v with
    appliedAmbientRuleFingerprints := match fingerprint with
      | none => v.appliedAmbientRuleFingerprints
      | some fingerprint => insert fingerprint v.appliedAmbientRuleFingerprints }

section Record

variable (v : Vcn) (calls : List RuleCall)

@[simp] theorem toVcnBase_record : (v.record calls).toVcnBase = v.toVcnBase := rfl

@[simp] theorem securityListsFinalized_record :
    (v.record calls).securityListsFinalized = v.securityListsFinalized := rfl

@[simp] theorem securityList_record : (v.record calls).securityList = v.securityList := rfl

@[simp] theorem subnet_record : (v.record calls).subnet = v.subnet := rfl

@[simp] theorem registered_record : (v.record calls).registered = v.registered := rfl

@[simp] theorem outputs_record : (v.record calls).outputs = v.outputs := rfl

@[simp] theorem rules_record (t : SubnetTier) (d : Direction) :
    (v.record calls).rules t d =
      v.rules t d ++ writtenRules v.appliedAmbientRuleFingerprints calls t d := rfl

@[simp] theorem fingerprints_record :
    (v.record calls).appliedAmbientRuleFingerprints =
      usedFingerprints v.appliedAmbientRuleFingerprints calls := rfl

@[simp] theorem record_nil : v.record [] = v := by
  have hrules : v.rules.extend (writtenRules v.appliedAmbientRuleFingerprints []) = v.rules := by
    funext t d
    simp [writtenRules]
  rw [Vcn.record, hrules]
  rfl

end Record

/-- **Recording is done call by call.** -/
theorem record_append (v : Vcn) (calls calls' : List RuleCall) :
    v.record (calls ++ calls') = (v.record calls).record calls' := by
  have hrules : v.rules.extend (writtenRules v.appliedAmbientRuleFingerprints (calls ++ calls')) =
      (v.record calls).rules.extend
        (writtenRules (v.record calls).appliedAmbientRuleFingerprints calls') := by
    funext t d
    simp [writtenRules, usedFingerprints, Ledger.written_append]
  rw [Vcn.record, hrules, usedFingerprints, Ledger.keys_append]
  rfl

/-! ## What a call does -/

/-- Rules are added to an open network. -/
theorem run_addSecurityListRules_of_open {v : Vcn} (h : v.securityListsFinalized = false)
    (rules : RuleLists) : (Vcn.addSecurityListRules rules).run v =
      (.ok ⟨⟩, v.setRules (v.rules.extend rules) v.appliedAmbientRuleFingerprints) := by
  rw [Vcn.addSecurityListRules, run_get_bind, if_neg (by rw [h]; decide)]
  rfl

/-- …and refused by a finalised one. -/
theorem run_addSecurityListRules_of_finalized {v : Vcn}
    (h : v.securityListsFinalized = true) (rules : RuleLists) :
    (Vcn.addSecurityListRules rules).run v = (.error (.runtimeError finalizedMessage), v) := by
  rw [Vcn.addSecurityListRules, run_get_bind, if_pos h, run_throw]

/-- **A call on an open network is recorded.** -/
theorem run_exec_of_open {v : Vcn} (h : v.securityListsFinalized = false) (c : RuleCall) :
    c.exec.run v = (.ok ⟨⟩, v.record [c]) := by
  obtain ⟨fingerprint, rules⟩ := c
  cases fingerprint with
  | none =>
    have hrules : writtenRules v.appliedAmbientRuleFingerprints [RuleCall.plain rules] = rules := by
      funext t d
      simp [writtenRules, Ledger.written]
    rw [RuleCall.exec, run_addSecurityListRules_of_open h, Vcn.record, ← RuleCall.plain, hrules]
    rfl
  | some fingerprint =>
    simp only [RuleCall.exec, Vcn.addUniqueSecurityListRules, run_get_bind, run_ite]
    by_cases hseen : fingerprint ∈ v.appliedAmbientRuleFingerprints
    · have hrules : v.rules.extend (writtenRules v.appliedAmbientRuleFingerprints
          [RuleCall.unique fingerprint rules]) = v.rules := by
        funext t d
        simp [writtenRules, Ledger.written, hseen]
      have hused : usedFingerprints v.appliedAmbientRuleFingerprints
          [RuleCall.unique fingerprint rules] = v.appliedAmbientRuleFingerprints := by
        simp [usedFingerprints, Ledger.keys, hseen]
      rw [if_pos hseen, run_pure, Vcn.record, ← RuleCall.unique, hrules, hused]
      rfl
    · have hrules : writtenRules v.appliedAmbientRuleFingerprints
          [RuleCall.unique fingerprint rules] = rules := by
        funext t d
        simp [writtenRules, Ledger.written, hseen]
      have hopen : (v.setRules v.rules
          (insert fingerprint v.appliedAmbientRuleFingerprints)).securityListsFinalized = false := h
      rw [if_neg hseen, run_modify_bind, Vcn.record, ← RuleCall.unique, hrules]
      exact run_addSecurityListRules_of_open hopen rules

/-- **A call on a finalised network** returns only if its fingerprint is in use; if it raises, its
fingerprint is in use from then on. -/
theorem run_exec_of_finalized {v : Vcn} (h : v.securityListsFinalized = true) (c : RuleCall) :
    c.exec.run v = if ∃ fp, c.fingerprint = some fp ∧ fp ∈ v.appliedAmbientRuleFingerprints then
        (.ok ⟨⟩, v)
      else (.error (.runtimeError finalizedMessage), v.mark c.fingerprint) := by
  obtain ⟨fingerprint, rules⟩ := c
  cases fingerprint with
  | none =>
    rw [if_neg (by simp), RuleCall.exec, run_addSecurityListRules_of_finalized h]
    rfl
  | some fingerprint =>
    simp only [RuleCall.exec, Vcn.addUniqueSecurityListRules, run_get_bind, run_ite,
      Option.some.injEq, exists_eq_left']
    split
    · rfl
    · have hfinal : (v.mark (some fingerprint)).securityListsFinalized = true := h
      exact run_addSecurityListRules_of_finalized hfinal rules

/-- **The run lemma of the builder**: on an open network every call of a run returns, and the run is
recorded. -/
theorem run_register_of_open {v : Vcn} (h : v.securityListsFinalized = false)
    (calls : List RuleCall) : (register calls).run v = (.ok ⟨⟩, v.record calls) := by
  induction calls generalizing v with
  | nil => simp [register]
  | cons c calls ih =>
    have hc : (v.record [c]).securityListsFinalized = false := h
    rw [register, each_cons, run_bind_ok (run_exec_of_open h c), ← register, ih hc,
      ← record_append, List.singleton_append]

/-! ## What `add_security_rules` means -/

/-- `add_security_rules` is a call with the translated rules. -/
theorem run_addSecurityRules (v : Vcn) (rules : SecurityRules) :
    (Vcn.addSecurityRules rules).run v =
      (RuleCall.plain (Vcn.translateRules v.svcCidrBlock rules)).exec.run v := rfl

/-- Each list grew by one rule for every neutral rule of its tier and direction, which says the
same. -/
def MeaningKept (cloud : Cloud) (v v' : Vcn) (rules : SecurityRules) : Prop :=
  ∀ t,
    (∃ added, v'.rules t .ingress = v.rules t .ingress ++ added ∧
      List.Forall₂ (fun rule => SameMeaning cloud (rule.Permits cloud) rule.source)
        (rules.ingress t) added) ∧
    ∃ added, v'.rules t .egress = v.rules t .egress ++ added ∧
      List.Forall₂ (fun rule => SameMeaning cloud (rule.Permits cloud) rule.destination)
        (rules.egress t) added

/-- A list that grew by the translations grew by rules that say the same iff each translation
does. -/
private theorem grew_iff {α : Type} {same : α → SecurityListRule → Prop}
    {translate : α → SecurityListRule} {neutral : List α} {old new : List SecurityListRule}
    (hnew : new = old ++ neutral.map translate) :
    (∃ added, new = old ++ added ∧ List.Forall₂ same neutral added) ↔
      ∀ rule ∈ neutral, same rule (translate rule) := by
  have hforall : List.Forall₂ same neutral (neutral.map translate) ↔
      ∀ rule ∈ neutral, same rule (translate rule) := by
    rw [List.forall₂_map_right_iff, List.forall₂_same]
  rw [hnew, ← hforall]
  constructor
  · rintro ⟨added, hadded, hsame⟩
    rwa [List.append_cancel_left hadded]
  · exact fun hsame => ⟨_, rfl, hsame⟩

/-- The rules of an open network after `add_security_rules`. -/
theorem rules_addSecurityRules {v : Vcn} (h : v.securityListsFinalized = false)
    (rules : SecurityRules) (t : SubnetTier) (d : Direction) :
    ((Vcn.addSecurityRules rules).after v).rules t d =
      v.rules t d ++ Vcn.translateRules v.svcCidrBlock rules t d := by
  rw [after, Vcn.addSecurityRules, run_get_bind, run_addSecurityListRules_of_open h]
  rfl

/-- **`add_security_rules` keeps the meaning of its rules iff** no rule loses a bound and no ingress
rule names the service network. -/
theorem addSecurityRules_iff {cloud : Cloud} {v : Vcn} (hbuilt : v.Built cloud)
    (hopen : v.securityListsFinalized = false) {rules : SecurityRules}
    (hingress : ∀ t, ∀ rule ∈ rules.ingress t, IsProtocol rule.protocol ∧ IsPeer rule.source)
    (hegress : ∀ t, ∀ rule ∈ rules.egress t, IsProtocol rule.protocol ∧ IsPeer rule.destination) :
    (Vcn.addSecurityRules rules).outcome v = .ok ⟨⟩ ∧
      (MeaningKept cloud v ((Vcn.addSecurityRules rules).after v) rules ↔ ∀ t,
        (∀ rule ∈ rules.ingress t,
          BoundsKept rule.protocol rule.portMin rule.portMax ∧ rule.source ≠ "cloud-services") ∧
        ∀ rule ∈ rules.egress t, BoundsKept rule.protocol rule.portMin rule.portMax) := by
  constructor
  · rw [outcome, run_addSecurityRules, run_exec_of_open hopen]
  · refine forall_congr' fun t => and_congr ?_ ?_
    · rw [grew_iff (rules_addSecurityRules hopen rules t .ingress)]
      refine forall₂_congr fun rule hrule => ?_
      exact translateIngressRule_iff (hingress t rule hrule).1 (hingress t rule hrule).2
    · rw [grew_iff (rules_addSecurityRules hopen rules t .egress)]
      refine forall₂_congr fun rule hrule => ?_
      rw [hbuilt.svcCidrBlock_eq]
      exact translateEgressRule_iff (hegress t rule hrule).1 (hegress t rule hrule).2

/-- A neutral rule for TCP port 443 from anywhere, and one for UDP port 53. -/
def httpsIngress : IngressRule where
  protocol := "tcp"
  source := "internet"
  portMin := some 443
  portMax := some 443

def dnsIngress : IngressRule where
  protocol := "udp"
  source := "internet"
  portMin := some 53
  portMax := some 53

/-- Neutral rules for the private tier's ingress list only. -/
def privateIngress (rules : List IngressRule) : SecurityRules where
  ingress t := if t = .priv then rules else []

theorem addSecurityRules_iff_https :
    MeaningKept bundleCloud defaultBase.fresh
      ((Vcn.addSecurityRules (privateIngress [httpsIngress])).after defaultBase.fresh)
      (privateIngress [httpsIngress]) := by
  have hpeer : IsPeer httpsIngress.source := Or.inl rfl
  have hproto : IsProtocol httpsIngress.protocol := by decide
  refine ((addSecurityRules_iff (built_of_init init_default).1 rfl ?_ ?_).2).mpr ?_
  · intro t rule hrule
    cases t <;> simp [privateIngress] at hrule
    exact hrule ▸ ⟨hproto, hpeer⟩
  · intro t rule hrule
    cases hrule
  · intro t
    refine ⟨fun rule hrule => ?_, fun rule hrule => nomatch hrule⟩
    cases t <;> simp [privateIngress] at hrule
    subst hrule
    exact ⟨Or.inl rfl, by simp [httpsIngress]⟩

/-- The rule for UDP port 53 becomes one for every UDP port. -/
theorem dns_bounds_dropped :
    ¬ MeaningKept bundleCloud defaultBase.fresh
      ((Vcn.addSecurityRules (privateIngress [dnsIngress])).after defaultBase.fresh)
      (privateIngress [dnsIngress]) := by
  intro h
  have hsame := (grew_iff (rules_addSecurityRules rfl (privateIngress [dnsIngress]) .priv
    .ingress)).mp (h .priv).1 dnsIngress (by simp [privateIngress])
  have hpacket := (hsame.1 ⟨.udp ⟨54, by decide⟩, 0⟩).mp (by decide)
  exact absurd (hpacket.1.2.2 53 rfl) (by decide)

end CloudSpells
