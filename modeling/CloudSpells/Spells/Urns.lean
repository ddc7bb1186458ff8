import CloudSpells.Core.SpellType
import CloudSpells.Network.Ownership
import CloudSpells.Spells.Aliases
import CloudSpells.Spells.Autoscale
import CloudSpells.Spells.Bastion
import CloudSpells.Spells.ClusterRules
import CloudSpells.Spells.Standalone

/-!
# Spells/Urns — the names the engine knows resources by

The engine tells resources apart by their URN: the type of the component they belong to, their own
type and their name.  A name is `{stack}-{name}-{suffix}`, and neither the logical name nor the
suffix is free of hyphens, so it does not say where the one ends.  What tells them apart is a mark:
all the suffixes a class of spells uses for a type have one word in common, at one place and nowhere
after it (`SpellClass.mark`).

A `Component` is what a spell registers.  Where its children have its own name and marked suffixes
that are distinct for each type (`Component.Named`), no two resources of a stack share a URN, as
long as no two components of one class share a name (`nodup_flatMap_urns`).  Every spell that was
built registers such components (`Spell.Built.named`).
-/

namespace CloudSpells

open Machinery Machinery.Exec Machinery.Segments

/-! ## Classes and marks -/

/-- The classes of components. -/
inductive SpellClass
  | vcn | vcnFlowLogs | nsg | computeInstance | scalableWorkload | bastion
  | loadBalancer | internalLoadBalancer | okeCluster
  | objectStorageBucket | backupBucket | dataLakeBucket | archiveBucket | staticWebsiteBucket
  | computeInstancePrincipal | okeNodePrincipal | compartmentAdminGroup
  deriving DecidableEq, Repr

instance : Fintype SpellClass where
  elems := {.vcn, .vcnFlowLogs, .nsg, .computeInstance, .scalableWorkload, .bastion, .loadBalancer,
    .internalLoadBalancer, .okeCluster, .objectStorageBucket, .backupBucket, .dataLakeBucket,
    .archiveBucket, .staticWebsiteBucket, .computeInstancePrincipal, .okeNodePrincipal,
    .compartmentAdminGroup}
  complete c := by cases c <;> decide

namespace SpellClass

/-- The type token of a class. -/
def token : SpellClass → String
  | vcn => "custom:network:Vcn"
  | vcnFlowLogs => "custom:network:VcnFlowLogs"
  | nsg => "custom:network:Nsg"
  | computeInstance => "custom:compute:Instance"
  | scalableWorkload => "custom:compute:ScalableWorkload"
  | bastion => "custom:bastion:Bastion"
  | loadBalancer => "custom:loadbalancer:LoadBalancer"
  | internalLoadBalancer => "custom:loadbalancer:InternalLoadBalancer"
  | okeCluster => "custom:oke:Cluster"
  | objectStorageBucket => "custom:storage:ObjectStorageBucket"
  | backupBucket => "custom:storage:BackupBucket"
  | dataLakeBucket => "custom:storage:DataLakeBucket"
  | archiveBucket => "custom:storage:ArchiveBucket"
  | staticWebsiteBucket => "custom:storage:StaticWebsiteBucket"
  | computeInstancePrincipal => "custom:iam:ComputeInstancePrincipal"
  | okeNodePrincipal => "custom:iam:OkeNodePrincipal"
  | compartmentAdminGroup => "custom:iam:CompartmentAdminGroup"

theorem token_injective : Function.Injective token := by
  have h : ∀ a b : SpellClass, a.token = b.token → a = b := by decide
  exact fun a b => h a b

/-- The spell types that resources are tagged with tell the classes apart, as the tokens do. -/
theorem spellTypeFromUrn_token_injective :
    Function.Injective fun c : SpellClass => spellTypeFromUrn c.token := by
  have h : ∀ a b : SpellClass, spellTypeFromUrn a.token = spellTypeFromUrn b.token → a = b := by
    decide
  exact fun a b => h a b

end SpellClass

/-- The word that marks the suffixes of a type. -/
def ResourceType.word : ResourceType → String
  | vcn => "vcn"
  | defaultSecurityList | securityList => "sl"
  | internetGateway => "igw"
  | natGateway => "natgw"
  | serviceGateway => "svcgw"
  | drg | drgAttachment => "drg"
  | routeTable => "rt"
  | subnet => "sn"
  | logGroup => "network"
  | log => "flow"
  | networkSecurityGroup | networkSecurityGroupSecurityRule => "nsg"
  | computeInstance => "instance"
  | volume | volumeAttachment => "vol"
  | bastion => "bastion"
  | loadBalancer => "lb"
  | backendSet => "bs"
  | ruleSet => "rs"
  | listener => "listener"
  | instanceConfiguration => "ic"
  | instancePool | nodePool => "pool"
  | autoScalingConfiguration => "asc"
  | cluster => "cluster"
  | bucket => "bucket"
  | objectLifecyclePolicy => "lifecycle"
  | dynamicGroup => "dg"
  | group => "group"
  | policy => "policy"

/-- A word is no numeral. -/
theorem ResourceType.exists_isDigit_eq_false (type : ResourceType) :
    ∃ c ∈ type.word.toList, c.isDigit = false := by
  have hany : (type.word.toList.any fun c => !c.isDigit) = true := by cases type <;> rfl
  obtain ⟨c, hc, hdigit⟩ := List.any_eq_true.mp hany
  exact ⟨c, hc, by simpa using hdigit⟩

/-- Where the word stands: first, but for the groups of a cluster, whose names it ends. -/
def SpellClass.place : SpellClass → ResourceType → ℕ
  | okeCluster, .networkSecurityGroup | okeCluster, .networkSecurityGroupSecurityRule => 1
  | _, _ => 0

/-- What tells the children of one component apart: the type and the suffix. -/
abbrev Label := ResourceType × String

/-- The label of a resource. -/
def Resource.label (r : Resource) : Label := (r.type, r.suffix)

/-- The suffix has the mark of its type. -/
def SpellClass.Marked (cls : SpellClass) (l : Label) : Prop :=
  LastAt (cls.place l.1) l.1.word.toList (segments '-' l.2)

instance (cls : SpellClass) (l : Label) : Decidable (cls.Marked l) :=
  inferInstanceAs (Decidable (LastAt _ _ _))

/-- The labels are distinct and marked. -/
def SpellClass.Labels (cls : SpellClass) (ls : List Label) : Prop :=
  ls.Nodup ∧ ∀ l ∈ ls, cls.Marked l

instance (cls : SpellClass) (ls : List Label) : Decidable (cls.Labels ls) :=
  inferInstanceAs (Decidable (_ ∧ _))

namespace SpellClass

variable {cls : SpellClass} {xs ys : List Label}

theorem Labels.append (hxs : cls.Labels xs) (hys : cls.Labels ys)
    (h : ∀ x ∈ xs, ∀ y ∈ ys, x ≠ y) : cls.Labels (xs ++ ys) := by
  refine ⟨List.nodup_append.mpr ⟨hxs.1, hys.1, h⟩, fun l hl => ?_⟩
  exact (List.mem_append.mp hl).elim (hxs.2 l) (hys.2 l)

/-- Fewer labels are distinct and marked as well. -/
theorem Labels.sublist (hys : cls.Labels ys) (h : xs.Sublist ys) : cls.Labels xs :=
  ⟨hys.1.sublist h, fun l hl => hys.2 l (h.subset hl)⟩

/-- The order of the labels does not matter. -/
theorem Labels.perm (hxs : cls.Labels xs) (h : xs.Perm ys) : cls.Labels ys :=
  ⟨h.nodup_iff.mp hxs.1, fun l hl => hxs.2 l (h.mem_iff.mpr hl)⟩

/-- The labels of `n` numbered children. -/
def ordinals (type : ResourceType) (stem : String) (n : ℕ) : List Label :=
  (List.range n).map fun i => (type, ordinalSuffix stem i)

/-- **Numbered children are distinct**, and marked where their stem is. -/
theorem labels_ordinals (type : ResourceType) (stem : String) (h : cls.Marked (type, stem))
    (n : ℕ) : cls.Labels (ordinals type stem n) := by
  constructor
  · refine List.Nodup.map (fun i j hij => ?_) List.nodup_range
    exact ordinalSuffix_injective stem (Prod.mk.inj hij).2
  · intro l hl
    obtain ⟨i, -, rfl⟩ := List.mem_map.mp hl
    rw [Marked, ordinalSuffix_eq, segments_append rfl, segments_nat (by decide)]
    exact h.append_nat type.exists_isDigit_eq_false (i + 1)

/-- Numbered children join others of other types. -/
theorem Labels.append_ordinals (hxs : cls.Labels xs) (type : ResourceType) (stem : String)
    (htype : ∀ l ∈ xs, l.1 ≠ type) (h : cls.Marked (type, stem)) (n : ℕ) :
    cls.Labels (xs ++ ordinals type stem n) := by
  refine hxs.append (labels_ordinals type stem h n) fun x hx y hy hxy => htype x hx ?_
  obtain ⟨i, -, rfl⟩ := List.mem_map.mp hy
  rw [hxy]

/-- The labels of the children made one for each element. -/
theorem map_label_mapIdx {α : Type} {child : ℕ → α → Resource} (type : ResourceType)
    (stem : String) (h : ∀ i x, (child i x).label = (type, ordinalSuffix stem i)) (xs : List α) :
    (xs.mapIdx child).map Resource.label = ordinals type stem xs.length := by
  refine List.ext_getElem (by simp [ordinals]) fun i _ _ => ?_
  simp [ordinals, h]

end SpellClass

/-! ## Components -/

/-- The URN of a component, or of a child of one; stack and project are the same for all. -/
inductive Urn
  | component (token name : String)
  | child (token : String) (type : ResourceType) (name : String)
  deriving DecidableEq, Repr

/-- The URN of a child. -/
def Resource.urn (r : Resource) : Urn := .child r.spell r.type r.name

/-- What a spell registers: itself, and its children. -/
structure Component where
  cls : SpellClass
  namer : ResourceNamer
  children : List Resource

namespace Component

/-- The URN of the component itself: `BaseResource` names it `{stack}-{name}`. -/
def urn (c : Component) : Urn :=
  .component c.cls.token s!"{c.namer.stackName}-{c.namer.resourceName}"

/-- The URNs a component takes. -/
def urns (c : Component) : List Urn := c.urn :: c.children.map Resource.urn

/-- The class and the logical name. -/
def key (c : Component) : SpellClass × String := (c.cls, c.namer.resourceName)

/-- The children have the name of the component, and labels that are distinct and marked. -/
structure Named (stackName : String) (c : Component) : Prop where
  stackName_eq : c.namer.stackName = stackName
  child : ∀ r ∈ c.children, r.spell = c.cls.token ∧ r.namer = c.namer
  labels : c.cls.Labels (c.children.map Resource.label)

variable {stackName : String} {c c' : Component} {u : Urn}

/-- **A component takes no URN twice.** -/
theorem Named.nodup_urns (h : c.Named stackName) : c.urns.Nodup := by
  refine List.nodup_cons.mpr ⟨fun hmem => ?_, List.Nodup.map_on (fun r hr s hs hrs => ?_) ?_⟩
  · obtain ⟨r, -, hr⟩ := List.mem_map.mp hmem
    cases hr
  · obtain ⟨hspell, htype, hname⟩ := Urn.child.inj hrs
    obtain ⟨hr₁, hr₂⟩ := h.child r hr
    obtain ⟨hs₁, hs₂⟩ := h.child s hs
    rw [Resource.name, Resource.name, hr₂, hs₂] at hname
    have hsuffix := c.namer.createResourceName_injective hname
    have hlabel : r.label = s.label := Prod.ext htype hsuffix
    exact List.inj_on_of_nodup_map h.labels.1 hr hs hlabel
  · exact h.labels.1.of_map _

/-- Children of one class and type have one name only where their components have. -/
theorem Named.namer_eq_of_urn (h : c.Named stackName) (h' : c'.Named stackName) {r r' : Resource}
    (hr : r ∈ c.children) (hr' : r' ∈ c'.children) (hurn : r.urn = r'.urn) : c.key = c'.key := by
  obtain ⟨hspell, htype, hname⟩ := Urn.child.inj hurn
  obtain ⟨hr₁, hr₂⟩ := h.child r hr
  obtain ⟨hr₁', hr₂'⟩ := h'.child r' hr'
  have hcls : c.cls = c'.cls := SpellClass.token_injective (by rw [← hr₁, hspell, hr₁'])
  have hmark := h.labels.2 _ (List.mem_map_of_mem hr)
  have hmark' := h'.labels.2 _ (List.mem_map_of_mem hr')
  rw [SpellClass.Marked, ← hcls] at hmark'
  have htype' : r'.label.1 = r.label.1 := htype.symm
  rw [htype'] at hmark'
  rw [Resource.name, Resource.name, hr₂, hr₂'] at hname
  have hprefix := (eq_of_lastAt rfl hmark hmark' hname).1
  rw [h.stackName_eq, h'.stackName_eq] at hprefix
  exact Prod.ext hcls (append_left_cancel hprefix)

/-- **A URN names the class and the logical name** of the component that takes it. -/
theorem Named.key_eq_of_urn (h : c.Named stackName) (h' : c'.Named stackName) (hu : u ∈ c.urns)
    (hu' : u ∈ c'.urns) : c.key = c'.key := by
  rcases List.mem_cons.mp hu with rfl | hu
  · rcases List.mem_cons.mp hu' with heq | hu'
    · obtain ⟨htoken, hname⟩ := Urn.component.inj heq
      rw [h.stackName_eq, h'.stackName_eq] at hname
      exact Prod.ext (SpellClass.token_injective htoken) (append_left_cancel hname)
    · obtain ⟨r, -, hr⟩ := List.mem_map.mp hu'
      cases hr
  · obtain ⟨r, hr, rfl⟩ := List.mem_map.mp hu
    rcases List.mem_cons.mp hu' with heq | hu'
    · cases heq
    · obtain ⟨r', hr', hurn⟩ := List.mem_map.mp hu'
      exact h.namer_eq_of_urn h' hr hr' hurn.symm

/-- **No URN is taken twice** in a stack whose components of one class have distinct names. -/
theorem nodup_flatMap_urns {cs : List Component} (h : ∀ c ∈ cs, c.Named stackName)
    (hkeys : (cs.map key).Nodup) : (cs.flatMap urns).Nodup := by
  rw [List.nodup_flatMap]
  refine ⟨fun c hc => (h c hc).nodup_urns, ?_⟩
  have hpairwise : cs.Pairwise fun c c' => c.key ≠ c'.key := List.pairwise_map.mp hkeys
  refine hpairwise.imp_of_mem fun {c c'} hc hc' hne => ?_
  exact fun u hu hu' => hne ((h c hc).key_eq_of_urn (h c' hc') hu hu')

end Component

end CloudSpells
