import CloudSpells.Spells.Autoscale
import CloudSpells.Spells.Bastion
import CloudSpells.Spells.Compute
import CloudSpells.Spells.Kubernetes

/-!
# Spells/Fingerprint — what the fingerprints of the spells stand for

The spells put their fingerprints together from words, tiers and ports.  `Fingerprint` is what such
a string means and `render` the string; `render` is injective (`Fingerprint.render_injective`).

A fingerprint stands for one rule of one list, up to description.  A call `Carries` a fingerprint
when it passes that rule under that string, and is `Keyed` when the string it passes, if any, is
that of a fingerprint it carries.  `Issued` is the calls the spells make; all of them are keyed
(`Issued.keyed`), and so two of them under one string pass the same rules
(`RuleCall.Keyed.mem_rules_iff`).
-/

namespace CloudSpells

open Machinery Machinery.Segments

/-- The fingerprints of the spells. -/
inductive Fingerprint
  | publicIngress (port : ℤ)
  | egressAllServices (tier : SubnetTier)
  | egressAllInternet (tier : SubnetTier)
  | egressTo (src : SubnetTier) (port : ℤ) (tgt : SubnetTier)
  | ingressFrom (tgt : SubnetTier) (port : ℤ) (src : SubnetTier)
  | computeSsh (tier : SubnetTier)
  | bastionSsh
  | lbPublicIngress (port : ℤ)
  | lbPrivateIngress (port : ℤ)
  deriving DecidableEq, Repr

namespace Fingerprint

/-- The string of a fingerprint. -/
def render : Fingerprint → String
  | publicIngress port => s!"public-ingress-tcp-{port}"
  | egressAllServices tier => s!"{tier.str}-egress-all-services"
  | egressAllInternet tier => s!"{tier.str}-egress-all-internet"
  | egressTo src port tgt => s!"{src.str}-egress-tcp-{port}-to-{tgt.str}"
  | ingressFrom tgt port src => s!"{tgt.str}-ingress-tcp-{port}-from-{src.str}"
  | computeSsh tier => s!"compute-{tier.str}-ingress-tcp-22"
  | bastionSsh => BASTION_SSH_RULE_FINGERPRINT
  | lbPublicIngress port => s!"lb-public-ingress-tcp-{port}"
  | lbPrivateIngress port => s!"lb-private-ingress-tcp-{port}"

/-! ## Reading a fingerprint back -/

/-- The parts a fingerprint is joined from. -/
def parts : Fingerprint → List String
  | publicIngress port => ["public", "ingress", "tcp", toString port]
  | egressAllServices tier => [tier.str, "egress", "all", "services"]
  | egressAllInternet tier => [tier.str, "egress", "all", "internet"]
  | egressTo src port tgt => [src.str, "egress", "tcp", toString port, "to", tgt.str]
  | ingressFrom tgt port src => [tgt.str, "ingress", "tcp", toString port, "from", src.str]
  | computeSsh tier => ["compute", tier.str, "ingress", "tcp", "22"]
  | bastionSsh => ["bastion", "private", "ingress", "tcp", "22"]
  | lbPublicIngress port => ["lb", "public", "ingress", "tcp", toString port]
  | lbPrivateIngress port => ["lb", "private", "ingress", "tcp", toString port]

theorem render_eq (f : Fingerprint) : f.render = "-".intercalate f.parts := by
  have htcp : "-egress-tcp-" = "-" ++ "egress" ++ "-" ++ "tcp" ++ "-" := rfl
  have hto : "-to-" = "-" ++ "to" ++ "-" := rfl
  have htcp' : "-ingress-tcp-" = "-" ++ "ingress" ++ "-" ++ "tcp" ++ "-" := rfl
  have hfrom : "-from-" = "-" ++ "from" ++ "-" := rfl
  cases f with
  | publicIngress port => rfl
  | egressAllServices tier => cases tier <;> rfl
  | egressAllInternet tier => cases tier <;> rfl
  | egressTo src port tgt =>
    change src.str ++ "-egress-tcp-" ++ toString port ++ "-to-" ++ tgt.str =
      src.str ++ "-" ++ "egress" ++ "-" ++ "tcp" ++ "-" ++ toString port ++ "-" ++ "to" ++ "-" ++
        tgt.str
    rw [htcp, hto]
    simp only [String.append_assoc]
  | ingressFrom tgt port src =>
    change tgt.str ++ "-ingress-tcp-" ++ toString port ++ "-from-" ++ src.str =
      tgt.str ++ "-" ++ "ingress" ++ "-" ++ "tcp" ++ "-" ++ toString port ++ "-" ++ "from" ++ "-" ++
        src.str
    rw [htcp', hfrom]
    simp only [String.append_assoc]
  | computeSsh tier => cases tier <;> rfl
  | bastionSsh => rfl
  | lbPublicIngress port => rfl
  | lbPrivateIngress port => rfl

/-- The segments of a fingerprint: its words, its tiers and the segments of its port. -/
def words : Fingerprint → List (List Char)
  | publicIngress port =>
    ["public".toList, "ingress".toList, "tcp".toList] ++ segments '-' (toString port)
  | egressAllServices tier =>
    [tier.str.toList, "egress".toList, "all".toList, "services".toList]
  | egressAllInternet tier =>
    [tier.str.toList, "egress".toList, "all".toList, "internet".toList]
  | egressTo src port tgt =>
    [src.str.toList, "egress".toList, "tcp".toList] ++
      (segments '-' (toString port) ++ ["to".toList, tgt.str.toList])
  | ingressFrom tgt port src =>
    [tgt.str.toList, "ingress".toList, "tcp".toList] ++
      (segments '-' (toString port) ++ ["from".toList, src.str.toList])
  | computeSsh tier =>
    ["compute".toList, tier.str.toList, "ingress".toList, "tcp".toList, "22".toList]
  | bastionSsh =>
    ["bastion".toList, "private".toList, "ingress".toList, "tcp".toList, "22".toList]
  | lbPublicIngress port =>
    ["lb".toList, "public".toList, "ingress".toList, "tcp".toList] ++ segments '-' (toString port)
  | lbPrivateIngress port =>
    ["lb".toList, "private".toList, "ingress".toList, "tcp".toList] ++ segments '-' (toString port)

theorem segments_tier (t : SubnetTier) : segments '-' t.str = [t.str.toList] :=
  segments_of_notMem t.hyphen_notMem_str

theorem segments_render (f : Fingerprint) : segments '-' f.render = f.words := by
  have hparts : f.parts ≠ [] := by cases f <;> exact List.cons_ne_nil _ _
  rw [render_eq, segments_intercalate (by decide) hparts]
  cases f <;> simp (disch := decide) only [parts, words, List.flatMap_cons, List.flatMap_nil,
    segments_tier, segments_of_notMem, List.cons_append, List.nil_append, List.append_nil]

/-- The constructor of a fingerprint, by number. -/
def kind : Fingerprint → ℕ
  | publicIngress _ => 0
  | egressAllServices _ => 1
  | egressAllInternet _ => 2
  | egressTo _ _ _ => 3
  | ingressFrom _ _ _ => 4
  | computeSsh _ => 5
  | bastionSsh => 6
  | lbPublicIngress _ => 7
  | lbPrivateIngress _ => 8

/-- The number of the constructor, read off the segments. -/
def kindOf (w : List (List Char)) : ℕ :=
  if w[0]? = some "compute".toList then 5
  else if w[0]? = some "bastion".toList then 6
  else if w[0]? = some "lb".toList then if w[1]? = some "public".toList then 7 else 8
  else if w[1]? = some "egress".toList then
    if w[2]? = some "tcp".toList then 3 else if w[3]? = some "services".toList then 1 else 2
  else if "from".toList ∈ w then 4 else 0

theorem kindOf_words (f : Fingerprint) : kindOf f.words = f.kind := by
  cases f with
  | publicIngress port =>
    have hfrom := notMem_segments_int port (w := "from".toList) ⟨'f', by decide, by decide⟩
    have hmem : "from".toList ∉ (publicIngress port).words := by
      rw [words, List.mem_append, not_or]
      exact ⟨by decide, hfrom⟩
    rw [kindOf, if_neg hmem]
    rfl
  | egressAllServices tier => cases tier <;> rfl
  | egressAllInternet tier => cases tier <;> rfl
  | egressTo src port tgt => cases src <;> rfl
  | ingressFrom tgt port src =>
    have hmem : "from".toList ∈ (ingressFrom tgt port src).words := by simp [words]
    rw [kindOf, if_pos hmem]
    cases tgt <;> rfl
  | computeSsh tier => rfl
  | bastionSsh => rfl
  | lbPublicIngress port => rfl
  | lbPrivateIngress port => rfl

/-- The tier at the head of a list of segments is read back. -/
private theorem tier_of_head {t t' : SubnetTier} {w w' : List (List Char)}
    (h : t.str.toList :: w = t'.str.toList :: w') : t = t' ∧ w = w' :=
  ⟨SubnetTier.str_injective (String.toList_inj.mp (List.cons.inj h).1), (List.cons.inj h).2⟩

/-- …and so are a port and the tier that ends it. -/
private theorem port_of_tail {p p' : ℤ} {sep : List Char} {t t' : SubnetTier}
    (h : segments '-' (toString p) ++ [sep, t.str.toList] =
      segments '-' (toString p') ++ [sep, t'.str.toList]) : p = p' ∧ t = t' := by
  obtain ⟨hport, htail⟩ := List.append_inj' h rfl
  exact ⟨segments_int_injective hport, (tier_of_head (List.cons.inj htail).2).1⟩

/-- **A fingerprint is read back from its string.** -/
theorem render_injective : Function.Injective render := by
  intro f g h
  have hwords : f.words = g.words := by rw [← segments_render, ← segments_render, h]
  have hkind : f.kind = g.kind := by rw [← kindOf_words, ← kindOf_words, hwords]
  cases f <;> cases g <;> try (simp [kind] at hkind; done)
  case publicIngress.publicIngress p q =>
    rw [segments_int_injective (List.append_cancel_left hwords)]
  case egressAllServices.egressAllServices t t' => rw [(tier_of_head hwords).1]
  case egressAllInternet.egressAllInternet t t' => rw [(tier_of_head hwords).1]
  case egressTo.egressTo s p t s' p' t' =>
    obtain ⟨rfl, hrest⟩ := tier_of_head hwords
    obtain ⟨rfl, rfl⟩ := port_of_tail (List.cons.inj (List.cons.inj hrest).2).2
    rfl
  case ingressFrom.ingressFrom t p s t' p' s' =>
    obtain ⟨rfl, hrest⟩ := tier_of_head hwords
    obtain ⟨rfl, rfl⟩ := port_of_tail (List.cons.inj (List.cons.inj hrest).2).2
    rfl
  case computeSsh.computeSsh t t' => rw [(tier_of_head (List.cons.inj hwords).2).1]
  case bastionSsh.bastionSsh => rfl
  case lbPublicIngress.lbPublicIngress p q =>
    rw [segments_int_injective (List.append_cancel_left hwords)]
  case lbPrivateIngress.lbPrivateIngress p q =>
    rw [segments_int_injective (List.append_cancel_left hwords)]

/-! ## The rule of a fingerprint -/

/-- The list of the rule: its tier. -/
def tier : Fingerprint → SubnetTier
  | publicIngress _ | lbPublicIngress _ => .pub
  | bastionSsh | lbPrivateIngress _ => .priv
  | egressAllServices tier | egressAllInternet tier | computeSsh tier => tier
  | egressTo src _ _ => src
  | ingressFrom tgt _ _ => tgt

/-- The list of the rule: its direction. -/
def dir : Fingerprint → Direction
  | egressAllServices _ | egressAllInternet _ | egressTo _ _ _ => .egress
  | _ => .ingress

/-- The tier whose hosts may open an SSH session on a compute instance. -/
def computeSshSource : SubnetTier → SubnetTier
  | .priv => .pub
  | _ => .priv

/-- The rule, without its description. -/
def rule (base : VcnBase) : Fingerprint → SecurityListRule
  | publicIngress port | lbPublicIngress port => .tcp port "0.0.0.0/0" ""
  | egressAllServices _ => .all base.svcCidrBlock .serviceCidrBlock ""
  | egressAllInternet _ => .all "0.0.0.0/0" .cidrBlock ""
  | egressTo _ port tgt => .tcp port (base.subnetCidrs.ofTier tgt) ""
  | ingressFrom _ port src => .tcp port (base.subnetCidrs.ofTier src) ""
  | computeSsh tier => .tcp 22 (base.subnetCidrs.ofTier (computeSshSource tier)) ""
  | bastionSsh => .tcp 22 "0.0.0.0/0" ""
  | lbPrivateIngress port => .tcp port base.cidrBlock ""

end Fingerprint

/-! ## Calls that carry a fingerprint -/

namespace RuleCall

/-- The call passes the rule of a fingerprint, under its string. -/
def Carries (base : VcnBase) (c : RuleCall) (f : Fingerprint) : Prop :=
  c.fingerprint = some f.render ∧ ∃ r, c.rules = .single f.tier f.dir [r] ∧ r.erase = f.rule base

/-- The string a call passes, if any, is that of a fingerprint it carries. -/
def Keyed (base : VcnBase) (c : RuleCall) : Prop :=
  ∀ s, c.fingerprint = some s → ∃ f, c.Carries base f

variable {base : VcnBase} {c c' : RuleCall} {f : Fingerprint}

theorem keyed_plain (base : VcnBase) (rules : RuleLists) : (plain rules).Keyed base :=
  fun _ h => by cases h

theorem Carries.keyed (h : c.Carries base f) : c.Keyed base := fun _ _ => ⟨f, h⟩

/-- What a carrying call adds to a list, up to description. -/
theorem Carries.mem_rules (h : c.Carries base f) {t : SubnetTier} {d : Direction}
    {e : SecurityListRule} : (∃ r ∈ c.rules t d, r.erase = e) ↔
      t = f.tier ∧ d = f.dir ∧ e = f.rule base := by
  obtain ⟨-, r, hrules, herase⟩ := h
  simp only [hrules, RuleLists.mem_single, List.mem_singleton]
  constructor
  · rintro ⟨_, ⟨rfl, rfl, rfl⟩, rfl⟩
    exact ⟨rfl, rfl, herase⟩
  · rintro ⟨rfl, rfl, rfl⟩
    exact ⟨r, ⟨rfl, rfl, rfl⟩, herase⟩

/-- **A fingerprint determines its rules**: keyed calls under one string pass the same rules, up to
description. -/
theorem Keyed.mem_rules_iff (h : c.Keyed base) (h' : c'.Keyed base) {s : String}
    (hs : c.fingerprint = some s) (hs' : c'.fingerprint = some s) (t : SubnetTier) (d : Direction)
    (e : SecurityListRule) :
    (∃ r ∈ c.rules t d, r.erase = e) ↔ ∃ r ∈ c'.rules t d, r.erase = e := by
  obtain ⟨f, hf⟩ := h s hs
  obtain ⟨f', hf'⟩ := h' s hs'
  have hrender : f.render = f'.render :=
    Option.some.inj ((hf.1.symm.trans hs).trans (hs'.symm.trans hf'.1))
  obtain rfl := Fingerprint.render_injective hrender
  rw [hf.mem_rules, hf'.mem_rules]

end RuleCall

/-! ## The calls of the spells -/

/-- A call that a spell makes, where the roles of the groups satisfy `roles`. -/
inductive Issued (roles : Role → Prop) (base : VcnBase) (c : RuleCall) : Prop
  | nsg {role : Role} {ports : List ℤ} (hrole : roles role)
      (h : c ∈ Nsg.ambientCalls base role ports)
  | serves {srcTier tgtTier : SubnetTier} {port : ℤ} {needsSsh : Bool}
      (h : c ∈ Nsg.servesCalls base srcTier tgtTier port needsSsh)
  | computeInstance {tier : SubnetTier} (h : c ∈ ComputeInstance.ruleCalls base tier)
  | bastion (h : c ∈ Bastion.ruleCalls)
  | loadBalancer {port : ℤ} (h : c ∈ LoadBalancer.ruleCalls base port)
  | internalLoadBalancer {port : ℤ} (h : c ∈ InternalLoadBalancer.ruleCalls base port)
  | scalableWorkload {config : LoadBalancerConfig} (h : c ∈ ScalableWorkload.ruleCalls base config)
  | okeCluster {cidrs : List String} (h : c ∈ OkeCluster.ruleCalls base cidrs)

section Calls

variable {base : VcnBase} {c : RuleCall}

/-- **The calls of a group's role**, by fingerprint. -/
theorem carries_of_mem_ambientCalls {role : Role} {ports : List ℤ}
    (h : c ∈ Nsg.ambientCalls base role ports) :
    (role.subnetTier = .pub ∧ ∃ port ∈ ports, c.Carries base (.publicIngress port)) ∨
      (role.egressServices = true ∧ c.Carries base (.egressAllServices role.subnetTier)) ∨
      (role.egressInternet = true ∧ c.Carries base (.egressAllInternet role.subnetTier)) := by
  simp only [Nsg.ambientCalls, List.mem_append, List.mem_ite_nil_right, List.mem_map,
    List.mem_singleton] at h
  rcases h with (⟨hpub, port, hport, rfl⟩ | ⟨hservices, rfl⟩) | ⟨hinternet, rfl⟩
  · exact Or.inl ⟨hpub, port, hport, rfl, _, rfl, rfl⟩
  · exact Or.inr (Or.inl ⟨hservices, rfl, _, rfl, rfl⟩)
  · exact Or.inr (Or.inr ⟨hinternet, rfl, _, rfl, rfl⟩)

private theorem slForTier_carries {f : Fingerprint} {s : String} {r : SecurityListRule}
    (hs : s = f.render) (hr : r.erase = f.rule base) :
    (Nsg.slForTier s f.tier f.dir r).Carries base f := ⟨congrArg some hs, r, rfl, hr⟩

/-- The port of an SSH fingerprint is written out in the source. -/
private theorem egress_ssh (src tgt : SubnetTier) :
    s!"{src.str}-egress-tcp-22-to-{tgt.str}" = (Fingerprint.egressTo src SSH tgt).render := by
  have hlit : "-egress-tcp-22-to-" = "-egress-tcp-" ++ toString SSH ++ "-to-" := rfl
  change src.str ++ "-egress-tcp-22-to-" ++ tgt.str =
    src.str ++ "-egress-tcp-" ++ toString SSH ++ "-to-" ++ tgt.str
  rw [hlit]
  simp only [String.append_assoc]

private theorem ingress_ssh (tgt src : SubnetTier) :
    s!"{tgt.str}-ingress-tcp-22-from-{src.str}" = (Fingerprint.ingressFrom tgt SSH src).render := by
  have hlit : "-ingress-tcp-22-from-" = "-ingress-tcp-" ++ toString SSH ++ "-from-" := rfl
  change tgt.str ++ "-ingress-tcp-22-from-" ++ src.str =
    tgt.str ++ "-ingress-tcp-" ++ toString SSH ++ "-from-" ++ src.str
  rw [hlit]
  simp only [String.append_assoc]

/-- The ports a relationship opens. -/
def Opens (port : ℤ) (needsSsh : Bool) (p : ℤ) : Prop := p = port ∨ needsSsh = true ∧ p = SSH

/-- **The calls of a relationship**, by fingerprint: for every port it opens, one call for either
end, and no others. -/
theorem carries_of_mem_servesCalls {src tgt : SubnetTier} {port : ℤ} {needsSsh : Bool}
    (h : c ∈ Nsg.servesCalls base src tgt port needsSsh) :
    src ≠ tgt ∧ ∃ p, Opens port needsSsh p ∧
      (c.Carries base (.egressTo src p tgt) ∨ c.Carries base (.ingressFrom tgt p src)) := by
  unfold Nsg.servesCalls at h
  split at h
  · cases h
  · rename_i hne
    refine ⟨hne, ?_⟩
    simp only [List.mem_append, List.mem_cons, List.not_mem_nil, or_false,
      List.mem_ite_nil_right] at h
    rcases h with (rfl | rfl) | ⟨hssh, rfl | rfl⟩
    · exact ⟨port, Or.inl rfl, Or.inl (slForTier_carries rfl rfl)⟩
    · exact ⟨port, Or.inl rfl, Or.inr (slForTier_carries rfl rfl)⟩
    · exact ⟨SSH, Or.inr ⟨hssh, rfl⟩, Or.inl (slForTier_carries (egress_ssh src tgt) rfl)⟩
    · exact ⟨SSH, Or.inr ⟨hssh, rfl⟩, Or.inr (slForTier_carries (ingress_ssh tgt src) rfl)⟩

theorem exists_mem_servesCalls {src tgt : SubnetTier} {port p : ℤ} {needsSsh : Bool}
    (hne : src ≠ tgt) (hp : Opens port needsSsh p) :
    (∃ c ∈ Nsg.servesCalls base src tgt port needsSsh, c.Carries base (.egressTo src p tgt)) ∧
      ∃ c ∈ Nsg.servesCalls base src tgt port needsSsh,
        c.Carries base (.ingressFrom tgt p src) := by
  rw [Nsg.servesCalls, if_neg hne]
  rcases hp with rfl | ⟨rfl, rfl⟩
  · refine ⟨⟨_, List.mem_append_left _ List.mem_cons_self, slForTier_carries rfl rfl⟩,
      ⟨_, List.mem_append_left _ (List.mem_cons_of_mem _ List.mem_cons_self),
        slForTier_carries rfl rfl⟩⟩
  · refine ⟨⟨_, List.mem_append_right _ List.mem_cons_self,
        slForTier_carries (egress_ssh src tgt) rfl⟩,
      ⟨_, List.mem_append_right _ (List.mem_cons_of_mem _ List.mem_cons_self),
        slForTier_carries (ingress_ssh tgt src) rfl⟩⟩

/-- The call of a compute instance: on the public tier, that of an internet-facing group. -/
theorem carries_of_mem_computeCalls {tier : SubnetTier}
    (h : c ∈ ComputeInstance.ruleCalls base tier) :
    c.Carries base (if tier = .pub then .publicIngress 22 else .computeSsh tier) := by
  cases tier <;>
    (obtain rfl := List.mem_singleton.mp h; exact ⟨rfl, _, rfl, rfl⟩)

theorem carries_of_mem_bastionCalls (h : c ∈ Bastion.ruleCalls) : c.Carries base .bastionSsh := by
  obtain rfl := List.mem_singleton.mp h
  exact ⟨rfl, _, rfl, rfl⟩

theorem keyed_of_mem_loadBalancerCalls {port : ℤ} (h : c ∈ LoadBalancer.ruleCalls base port) :
    c.Keyed base := by
  simp only [LoadBalancer.ruleCalls, List.mem_cons, List.not_mem_nil, or_false] at h
  rcases h with rfl | rfl | rfl
  · exact RuleCall.Carries.keyed (f := .lbPublicIngress 80) ⟨rfl, _, rfl, rfl⟩
  · exact RuleCall.Carries.keyed (f := .lbPublicIngress 443) ⟨rfl, _, rfl, rfl⟩
  · exact RuleCall.keyed_plain base _

theorem keyed_of_mem_internalCalls {port : ℤ} (h : c ∈ InternalLoadBalancer.ruleCalls base port) :
    c.Keyed base := by
  simp only [InternalLoadBalancer.ruleCalls, List.mem_cons, List.not_mem_nil, or_false] at h
  rcases h with rfl | rfl
  · exact RuleCall.Carries.keyed (f := .lbPrivateIngress 80) ⟨rfl, _, rfl, rfl⟩
  · exact RuleCall.keyed_plain base _

/-- The public workload shares the fingerprints of an internet-facing group. -/
theorem keyed_of_mem_workloadCalls {config : LoadBalancerConfig}
    (h : c ∈ ScalableWorkload.ruleCalls base config) : c.Keyed base := by
  unfold ScalableWorkload.ruleCalls at h
  split at h
  · simp only [List.mem_cons, List.not_mem_nil, or_false] at h
    rcases h with rfl | rfl | rfl
    · exact RuleCall.Carries.keyed (f := .publicIngress 80) ⟨rfl, _, rfl, rfl⟩
    · exact RuleCall.Carries.keyed (f := .publicIngress 443) ⟨rfl, _, rfl, rfl⟩
    · exact RuleCall.keyed_plain base _
  · obtain rfl := List.mem_singleton.mp h
    exact RuleCall.keyed_plain base _

/-- **Every call of every spell is keyed.** -/
theorem Issued.keyed {roles : Role → Prop} (h : Issued roles base c) : c.Keyed base := by
  cases h with
  | nsg _ h =>
    rcases carries_of_mem_ambientCalls h with ⟨-, _, -, hc⟩ | ⟨-, hc⟩ | ⟨-, hc⟩
    · exact hc.keyed
    · exact hc.keyed
    · exact hc.keyed
  | serves h =>
    obtain ⟨-, _, -, hc | hc⟩ := carries_of_mem_servesCalls h
    · exact hc.keyed
    · exact hc.keyed
  | computeInstance h => exact (carries_of_mem_computeCalls h).keyed
  | bastion h => exact (carries_of_mem_bastionCalls h).keyed
  | loadBalancer h => exact keyed_of_mem_loadBalancerCalls h
  | internalLoadBalancer h => exact keyed_of_mem_internalCalls h
  | scalableWorkload h => exact keyed_of_mem_workloadCalls h
  | okeCluster h =>
    obtain rfl := List.mem_singleton.mp h
    exact RuleCall.keyed_plain base _

end Calls

end CloudSpells
