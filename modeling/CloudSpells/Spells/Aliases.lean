import CloudSpells.Spells.Compute
import CloudSpells.Spells.Kubernetes

/-!
# Spells/Aliases — the legacy names of numbered children

The children a spell makes one of for each element of a list are named by their ordinal, and each is
an alias of the name it had before, by its label, its name or its index.  Aliases are safe
(`AliasesSafe`) when no two children of a type have one in common and none is the present name of
another.

For a numbered family this is a matter of the suffixes (`aliasesSafe_numbered`).  Volumes are safe
whatever their labels.  A node pool whose name is the ordinal of another, a rule of a group whose
label is, and any two `kubectl` rules are not (`aliasesSafe_of_spells`).
-/

namespace CloudSpells

open Machinery Machinery.Segments

/-- No alias of `r` is an alias or the name of `s`. -/
def Resource.Apart (r s : Resource) : Prop := ∀ a ∈ r.aliases, a ∉ s.aliases ∧ a ≠ s.name

theorem Resource.apart_of_nil {r : Resource} (h : r.aliases = []) (s : Resource) : r.Apart s :=
  fun a ha => by
    rw [h] at ha
    cases ha

/-- The aliases of children of one type are distinct, and none is the name of another child. -/
def AliasesSafe (children : List Resource) : Prop :=
  children.Pairwise fun r s => r.type = s.type → r.Apart s ∧ s.Apart r

section Lists

variable {xs ys : List Resource}

theorem aliasesSafe_append : AliasesSafe (xs ++ ys) ↔ AliasesSafe xs ∧ AliasesSafe ys ∧
    ∀ r ∈ xs, ∀ s ∈ ys, r.type = s.type → r.Apart s ∧ s.Apart r := List.pairwise_append

/-- Children of two types do not meet. -/
theorem aliasesSafe_append_of_types {t t' : ResourceType} (htypes : t ≠ t')
    (hxs : ∀ r ∈ xs, r.type = t) (hys : ∀ s ∈ ys, s.type = t') :
    AliasesSafe (xs ++ ys) ↔ AliasesSafe xs ∧ AliasesSafe ys := by
  rw [aliasesSafe_append]
  refine ⟨fun h => ⟨h.1, h.2.1⟩, fun h => ⟨h.1, h.2, fun r hr s hs heq => ?_⟩⟩
  exact absurd ((hxs r hr).symm.trans (heq.trans (hys s hs))) htypes

/-- Children without aliases are safe. -/
theorem aliasesSafe_of_nil (h : ∀ r ∈ xs, r.aliases = []) : AliasesSafe xs :=
  List.pairwise_of_forall_mem_list fun r hr s hs _ =>
    ⟨Resource.apart_of_nil (h r hr) s, Resource.apart_of_nil (h s hs) r⟩

end Lists

/-! ## Numbered families -/

section Numbered

variable {α : Type} {namer : ResourceNamer} {stem : String} {legacy : ℕ → α → String}
  {child : ℕ → α → Resource} {xs : List α}

/-- The child for the `i`th element is named by its ordinal and has its legacy name for an alias. -/
structure Numbered (namer : ResourceNamer) (stem : String) (legacy : ℕ → α → String)
    (child : ℕ → α → Resource) : Prop where
  name : ∀ i x, (child i x).name = namer.createResourceName (ordinalSuffix stem i)
  aliases : ∀ i x, (child i x).aliases = [namer.createResourceName (legacy i x)]
  type : ∀ i x j y, (child i x).type = (child j y).type

theorem Numbered.apart_iff (h : Numbered namer stem legacy child) {i j : ℕ} {x y : α} :
    (child i x).Apart (child j y) ↔
      legacy i x ≠ legacy j y ∧ legacy i x ≠ ordinalSuffix stem j := by
  unfold Resource.Apart
  simp only [h.aliases, h.name, List.mem_singleton, forall_eq,
    namer.createResourceName_injective.eq_iff, ne_eq]

/-- **A numbered family is safe iff** its legacy suffixes differ from each other and from the
ordinals of other children. -/
theorem aliasesSafe_numbered (h : Numbered namer stem legacy child) :
    AliasesSafe (xs.mapIdx child) ↔ ∀ i j x y, i ≠ j → xs[i]? = some x → xs[j]? = some y →
      legacy i x ≠ legacy j y ∧ legacy i x ≠ ordinalSuffix stem j := by
  unfold AliasesSafe
  rw [List.pairwise_iff_getElem]
  simp only [List.length_mapIdx, List.getElem_mapIdx, h.apart_iff]
  constructor
  · intro hsafe i j x y hij hx hy
    obtain ⟨hi, rfl⟩ := List.getElem?_eq_some_iff.mp hx
    obtain ⟨hj, rfl⟩ := List.getElem?_eq_some_iff.mp hy
    rcases Nat.lt_or_gt_of_ne hij with hlt | hgt
    · exact (hsafe i j hi hj hlt (h.type _ _ _ _)).1
    · exact (hsafe j i hj hi hgt (h.type _ _ _ _)).2
  · intro hsuffix i j hi hj hij _
    exact ⟨hsuffix i j _ _ hij.ne (List.getElem?_eq_getElem hi) (List.getElem?_eq_getElem hj),
      hsuffix j i _ _ hij.ne' (List.getElem?_eq_getElem hj) (List.getElem?_eq_getElem hi)⟩

/-- The elements whose label is not the ordinal of another. -/
def NotOrdinals (labels : List String) : Prop :=
  ∀ i j label, i ≠ j → labels[i]? = some label → j < labels.length → label ≠ toString (j + 1)

/-- **A family with labels for legacy names**: where the labels are distinct, only an ordinal can be
mistaken. -/
theorem aliasesSafe_labelled {label : α → String}
    (h : Numbered namer stem (fun _ x => stem ++ "-" ++ label x) child)
    (hnodup : (xs.map label).Nodup) :
    AliasesSafe (xs.mapIdx child) ↔ NotOrdinals (xs.map label) := by
  rw [aliasesSafe_numbered h]
  have hordinal : ∀ j y, stem ++ "-" ++ label y = ordinalSuffix stem j ↔
      label y = toString (j + 1) := fun j y => by
    rw [ordinalSuffix_eq]
    exact ⟨append_left_cancel, fun heq => by rw [heq]⟩
  constructor
  · intro hsafe i j l hij hl hj
    rw [List.getElem?_map, Option.map_eq_some_iff] at hl
    obtain ⟨x, hx, rfl⟩ := hl
    rw [List.length_map] at hj
    have hne := (hsafe i j x xs[j] hij hx (List.getElem?_eq_getElem hj)).2
    rwa [ne_eq, hordinal] at hne
  · intro hlabels i j x y hij hx hy
    obtain ⟨hj, -⟩ := List.getElem?_eq_some_iff.mp hy
    have hxl : (xs.map label)[i]? = some (label x) := by rw [List.getElem?_map, hx]; rfl
    have hyl : (xs.map label)[j]? = some (label y) := by rw [List.getElem?_map, hy]; rfl
    refine ⟨fun heq => hij ?_, ?_⟩
    · have hsame : label x = label y := append_left_cancel heq
      obtain ⟨hi, -⟩ := List.getElem?_eq_some_iff.mp hxl
      exact (List.getElem?_inj hi hnodup).mp (by rw [hxl, hyl, hsame])
    · rw [ne_eq, hordinal]
      exact hlabels i j (label x) hij hxl (by rwa [List.length_map])

end Numbered

/-! ## Volumes -/

namespace ComputeInstance

variable {namer : ResourceNamer} {specs : List VolumeSpec}

theorem numbered_volume (namer : ResourceNamer) :
    Numbered namer "vol" (fun _ spec => spec.label ++ "-vol") (volume namer) := by
  refine ⟨fun _ _ => rfl, fun _ spec => ?_, fun _ _ _ _ => rfl⟩
  rw [← namer.createResourceName_append]
  rfl

theorem numbered_attachment (namer : ResourceNamer) :
    Numbered namer "vol-attach" (fun _ spec => spec.label ++ "-vol-attach") (attachment namer) := by
  refine ⟨fun _ _ => rfl, fun _ spec => ?_, fun _ _ _ _ => rfl⟩
  rw [← namer.createResourceName_append]
  rfl

/-- A family whose legacy names are distinct labels before a word that ends in a letter. -/
private theorem aliasesSafe_suffixed {stem word : String} {c : Char}
    {child : ℕ → VolumeSpec → Resource} (hlast : word.toList.getLast? = some c)
    (hc : c.isDigit = false) (h : Numbered namer stem (fun _ spec => spec.label ++ word) child)
    (hnodup : (specs.map fun spec => spec.label).Nodup) : AliasesSafe (specs.mapIdx child) := by
  refine (aliasesSafe_numbered h).mpr fun i j x y hij hx hy => ⟨fun heq => hij ?_, ?_⟩
  · have hsame : x.label = y.label := append_right_cancel heq
    obtain ⟨hi, -⟩ := List.getElem?_eq_some_iff.mp hx
    refine (List.getElem?_inj (by rwa [List.length_map]) hnodup).mp ?_
    rw [List.getElem?_map, List.getElem?_map, hx, hy]
    exact congrArg some hsame
  · refine ne_ordinalSuffix_of_getLast ?_ hc j
    rw [String.toList_append, List.getLast?_append, hlast]
    rfl

/-- **Volumes and attachments are safe**, whatever their labels. -/
theorem aliasesSafe (hnodup : (specs.map fun spec => spec.label).Nodup) :
    AliasesSafe (specs.mapIdx (volume namer) ++ specs.mapIdx (attachment namer)) := by
  have htype : ResourceType.volume ≠ .volumeAttachment := by decide
  refine (aliasesSafe_append_of_types htype (fun r hr => ?_) fun s hs => ?_).mpr ⟨?_, ?_⟩
  · obtain ⟨i, hi, rfl⟩ := List.mem_mapIdx.mp hr
    rfl
  · obtain ⟨i, hi, rfl⟩ := List.mem_mapIdx.mp hs
    rfl
  · exact aliasesSafe_suffixed rfl (by decide) (numbered_volume namer) hnodup
  · exact aliasesSafe_suffixed rfl (by decide) (numbered_attachment namer) hnodup

/-- The repeated children of an instance that was built. -/
theorem children_of_init {nsg : Option Nsg} {args : ComputeArgs} {v v' : Vcn} {a : ComputeInstance}
    (h : (init nsg args).run v = (.ok a, v')) : ∃ specs : List VolumeSpec,
      (specs.map fun spec => spec.label).Nodup ∧ a.blockVolumes = specs.mapIdx (volume a.namer) ∧
      a.volumeAttachments = specs.mapIdx (attachment a.namer) := by
  obtain ⟨specs, _, hcheck, -, -, hcreate⟩ := run_construct_eq_ok.mp h
  obtain ⟨-, -, hnodup⟩ := check_eq_ok.mp hcheck
  simp only [create, bind_eq_ok] at hcreate
  obtain ⟨_, -, _, -, ha⟩ := hcreate
  obtain rfl := Except.ok.inj ha
  exact ⟨specs, hnodup, rfl, rfl⟩

end ComputeInstance

/-! ## Node pools and `kubectl` rules -/

namespace OkeCluster

theorem numbered_nodePool (namer : ResourceNamer) :
    Numbered namer "pool" (fun _ name => "pool" ++ "-" ++ name) (nodePool namer) := by
  refine ⟨fun _ _ => rfl, fun _ name => ?_, fun _ _ _ _ => rfl⟩
  exact congrArg (fun legacy => [legacy])
    (namer.joined_eq_createResourceName "pool" "-pool-" rfl name)

theorem numbered_kubectlRule (namer : ResourceNamer) :
    Numbered namer "api-nsg-ingress-kubectl"
      (fun i (_ : String) => "api-nsg-ingress-kubectl" ++ "-" ++ toString i)
      (fun i _ => kubectlRule namer i) := by
  refine ⟨fun _ _ => rfl, fun i _ => ?_, fun _ _ _ _ => rfl⟩
  exact congrArg (fun legacy => [legacy]) (namer.joined_eq_createResourceName
    "api-nsg-ingress-kubectl" "-api-nsg-ingress-kubectl-" rfl (toString i))

/-- Two `kubectl` rules are one too many: the second is an alias of the first. -/
theorem aliasesSafe_kubectlRules {namer : ResourceNamer} {cidrs : List String} :
    AliasesSafe (cidrs.mapIdx fun i _ => kubectlRule namer i) ↔ cidrs.length ≤ 1 := by
  rw [aliasesSafe_numbered (numbered_kubectlRule namer)]
  constructor
  · intro hsafe
    by_contra hlen
    have h0 : 0 < cidrs.length := by omega
    have h1 : 1 < cidrs.length := by omega
    have hne := (hsafe 1 0 cidrs[1] cidrs[0] (by decide) (List.getElem?_eq_getElem h1)
      (List.getElem?_eq_getElem h0)).2
    exact hne (ordinalSuffix_eq _ 0).symm
  · intro hlen i j x y hij hx hy
    obtain ⟨hi, -⟩ := List.getElem?_eq_some_iff.mp hx
    obtain ⟨hj, -⟩ := List.getElem?_eq_some_iff.mp hy
    omega

/-- The fixed rules are no aliases, and none has a `kubectl` rule's name. -/
private theorem apart_fixedRule {namer : ResourceNamer} {suffix : String}
    (hsuffix : startsWith "api-nsg-ingress-kubectl-" suffix = false) (i : ℕ) :
    (kubectlRule namer i).Apart (fixedRule namer suffix) ∧
      (fixedRule namer suffix).Apart (kubectlRule namer i) := by
  refine ⟨fun a ha => ⟨List.not_mem_nil, fun heq => ?_⟩, Resource.apart_of_nil rfl _⟩
  rw [(numbered_kubectlRule namer).aliases i ""] at ha
  have hname := (List.mem_singleton.mp ha).symm.trans heq
  exact ne_append_of_startsWith hsuffix _ (namer.createResourceName_injective hname).symm

/-- **The rules of a cluster's groups are safe iff** at most one CIDR is allowed. -/
theorem aliasesSafe_createNsgRules {namer : ResourceNamer} {cidrs : List String} :
    AliasesSafe (createNsgRules namer cidrs) ↔ cidrs.length ≤ 1 := by
  have hfixed : ∀ suffixes : List String, AliasesSafe (suffixes.map (fixedRule namer)) :=
    fun suffixes => aliasesSafe_of_nil fun r hr => by
      obtain ⟨suffix, -, rfl⟩ := List.mem_map.mp hr
      rfl
  have hapi : ∀ suffix ∈ apiIngressRules,
      startsWith "api-nsg-ingress-kubectl-" suffix = false := by decide
  have hother : ∀ suffix ∈ otherNsgRules,
      startsWith "api-nsg-ingress-kubectl-" suffix = false := by decide
  rw [createNsgRules, aliasesSafe_append, aliasesSafe_append, aliasesSafe_kubectlRules]
  refine ⟨fun h => h.1.2.1, fun h => ⟨⟨hfixed _, h, ?_⟩, hfixed _, ?_⟩⟩
  · intro r hr s hs _
    obtain ⟨suffix, hsuffix, rfl⟩ := List.mem_map.mp hr
    obtain ⟨i, hi, rfl⟩ := List.mem_mapIdx.mp hs
    exact (apart_fixedRule (hapi suffix hsuffix) i).symm
  · intro r hr s hs _
    obtain ⟨suffix, hsuffix, rfl⟩ := List.mem_map.mp hs
    rcases List.mem_append.mp hr with hr | hr
    · obtain ⟨suffix', -, rfl⟩ := List.mem_map.mp hr
      exact ⟨Resource.apart_of_nil rfl _, Resource.apart_of_nil rfl _⟩
    · obtain ⟨i, hi, rfl⟩ := List.mem_mapIdx.mp hr
      exact apart_fixedRule (hother suffix hsuffix) i

/-- **A cluster's repeated children are safe iff** it allows at most one CIDR and no pool is named
by another's ordinal. -/
theorem aliasesSafe_iff {namer : ResourceNamer} {pools cidrs : List String} (hnodup : pools.Nodup) :
    AliasesSafe (pools.mapIdx (nodePool namer) ++ createNsgRules namer cidrs) ↔
      NotOrdinals pools ∧ cidrs.length ≤ 1 := by
  have htype : ResourceType.nodePool ≠ .networkSecurityGroupSecurityRule := by decide
  have hpools : AliasesSafe (pools.mapIdx (nodePool namer)) ↔ NotOrdinals (pools.map id) :=
    aliasesSafe_labelled (numbered_nodePool namer) (by rwa [List.map_id])
  rw [List.map_id] at hpools
  rw [aliasesSafe_append_of_types htype (fun r hr => ?_) fun s hs => ?_, hpools,
    aliasesSafe_createNsgRules]
  · obtain ⟨i, hi, rfl⟩ := List.mem_mapIdx.mp hr
    rfl
  · rw [createNsgRules, List.mem_append, List.mem_append] at hs
    rcases hs with (hs | hs) | hs
    · obtain ⟨suffix, -, rfl⟩ := List.mem_map.mp hs
      rfl
    · obtain ⟨i, hi, rfl⟩ := List.mem_mapIdx.mp hs
      rfl
    · obtain ⟨suffix, -, rfl⟩ := List.mem_map.mp hs
      rfl

/-- The repeated children of a cluster that was built. -/
theorem children_of_init {args : OkeArgs} {v v' : Vcn} {a : OkeCluster}
    (h : (init args).run v = (.ok a, v')) : a.nodePools = args.nodePools.mapIdx (nodePool a.namer) ∧
      a.nsgRules = createNsgRules a.namer (args.kubectlAllowedCidrs.getD []) := by
  obtain ⟨cidrs, _, hcidrs, -, -, hcreate⟩ := run_construct_eq_ok.mp h
  obtain rfl := Except.ok.inj hcidrs
  unfold create at hcreate
  dsimp only at hcreate
  split at hcreate
  · cases hcreate
  · cases hcreate
  · obtain rfl := Except.ok.inj hcreate
    exact ⟨rfl, rfl⟩

end OkeCluster

/-! ## Rules of a group -/

namespace Nsg

theorem numbered_rule (nsg : Nsg) : Numbered nsg.namer "nsg-rule"
    (fun _ (decl : RuleDecl) => "nsg-rule" ++ "-" ++ decl.1)
    (fun i decl => (nsg.ruleOf i decl).resource) := by
  refine ⟨fun _ _ => rfl, fun _ decl => ?_, fun _ _ _ _ => rfl⟩
  exact congrArg (fun legacy => [legacy]) (nsg.namer.joined_eq_createResourceName
    "nsg-rule" "-nsg-rule-" rfl decl.1)

/-- **A group's rules are safe iff** none is labelled by another's ordinal. -/
theorem aliasesSafe_iff {args : NsgArgs} {decls : List RuleDecl} {nsg : Nsg}
    (h : addRules decls args.empty = .ok nsg) :
    AliasesSafe (nsg.rules.map NsgRule.resource) ↔ NotOrdinals (decls.map Prod.fst) := by
  obtain ⟨-, hrules, hnodup, -⟩ := rules_of_addRules h
  have hresources : nsg.rules.map NsgRule.resource =
      decls.mapIdx fun i decl => (args.empty.ruleOf i decl).resource := by
    rw [hrules]
    refine List.ext_getElem (by simp [NsgArgs.empty]) fun i _ _ => ?_
    simp [NsgArgs.empty]
  rw [hresources]
  exact aliasesSafe_labelled args.empty.numbered_rule hnodup

end Nsg

/-! ## All the spells with repeated children -/

/-- **Which aliases are safe**: those of every instance; those of a cluster with distinctly named
pools iff it allows at most one CIDR and no pool is named by another's ordinal; those of a group iff
none of its rules is labelled by another's ordinal. -/
theorem aliasesSafe_of_spells (v v' : Vcn) :
    (∀ nsg args inst, (ComputeInstance.init nsg args).run v = (.ok inst, v') →
      AliasesSafe (inst.blockVolumes ++ inst.volumeAttachments)) ∧
    (∀ args cluster, (OkeCluster.init args).run v = (.ok cluster, v') → args.nodePools.Nodup →
      (AliasesSafe (cluster.nodePools ++ cluster.nsgRules) ↔
        NotOrdinals args.nodePools ∧ (args.kubectlAllowedCidrs.getD []).length ≤ 1)) ∧
    ∀ (args : NsgArgs) decls nsg, Nsg.addRules decls args.empty = .ok nsg →
      (AliasesSafe (nsg.rules.map NsgRule.resource) ↔ NotOrdinals (decls.map Prod.fst)) := by
  refine ⟨fun nsg args a h => ?_, fun args a h hnodup => ?_, fun args decls nsg h => ?_⟩
  · obtain ⟨specs, hnodup, hvolumes, hattachments⟩ := ComputeInstance.children_of_init h
    rw [hvolumes, hattachments]
    exact ComputeInstance.aliasesSafe hnodup
  · obtain ⟨hpools, hrules⟩ := OkeCluster.children_of_init h
    rw [hpools, hrules]
    exact OkeCluster.aliasesSafe_iff hnodup
  · exact Nsg.aliasesSafe_iff h

/-- A cluster with two pools. -/
def clusterArgs (cidrs : List String) : OkeArgs where
  name := "k8s"
  stackName := "dev"
  nodePools := ["system", "app"]
  kubectlAllowedCidrs := some cidrs

/-- With one CIDR its children are safe. -/
theorem aliasesSafe_of_spells_one :
    ∃ cluster v', (OkeCluster.init (clusterArgs ["203.0.113.0/24"])).run defaultBase.fresh =
        (.ok cluster, v') ∧
      AliasesSafe (cluster.nodePools ++ cluster.nsgRules) := by
  have hpools : NotOrdinals ["system", "app"] := by
    intro i j label _ hlabel hj
    have hnone : ∀ label ∈ ["system", "app"], ∀ j < 2, label ≠ toString (j + 1) := by decide
    exact hnone label (List.mem_of_getElem? hlabel) j hj
  refine ⟨_, _, rfl, ?_⟩
  exact ((aliasesSafe_of_spells defaultBase.fresh _).2.1 (clusterArgs ["203.0.113.0/24"]) _ rfl
    (by decide)).mpr ⟨hpools, by decide⟩

/-- With two, the second rule is an alias of the first. -/
theorem kubectl_alias_of_sibling :
    ∃ cluster v', (OkeCluster.init (clusterArgs ["203.0.113.0/24", "198.51.100.0/24"])).run
        defaultBase.fresh = (.ok cluster, v') ∧
      ¬ AliasesSafe (cluster.nodePools ++ cluster.nsgRules) := by
  refine ⟨_, _, rfl, fun hsafe => ?_⟩
  have hlength := ((OkeCluster.aliasesSafe_iff (by decide)).mp hsafe).2
  exact absurd hlength (by decide)

end CloudSpells
