import CloudSpells.Spells.Program

/-!
# Spells/Relations — groups and the relationships between them, as one program

An `NsgOp` builds a group or declares a relationship.  A program of these that returns from every
step leaves a world that its text describes (`Tracks`): the VCN has recorded the calls of all the
steps, and every group has the rules of all the steps that concern it, up to their ordinals.

The text of a relationship names its groups; `family` says what was built under each name.
-/

namespace CloudSpells

open Machinery Machinery.Exec

/-! ## Programs of groups and relationships -/

/-- A step of such a program. -/
inductive NsgOp
  | build (args : NsgArgs)
  | serves (src tgt : String) (port : ℤ) (withSsh : Bool)
  deriving DecidableEq, Repr

namespace NsgOp

/-- The step, as a step of any program. -/
def spell : NsgOp → SpellOp
  | build args => .nsg args
  | serves src tgt port withSsh => .serves src tgt port withSsh

/-- Take the step. -/
def exec (op : NsgOp) : Py World Unit := op.spell.exec

/-- The group a step builds. -/
def built : NsgOp → Option NsgArgs
  | build args => some args
  | serves _ _ _ _ => none

variable (base : VcnBase) (family : String → NsgArgs)

/-- What a step passes to the builder. -/
def calls : NsgOp → List RuleCall
  | build args => args.ruleCalls base
  | serves src tgt port withSsh =>
    Nsg.relationCalls base (family src).empty (family tgt).empty port withSsh

/-- What a step adds to the groups. -/
def decls : NsgOp → List (String × RuleDecl)
  | build args => (args.decls base.svcCidrBlock).map fun decl => (args.name, decl)
  | serves src tgt port withSsh =>
    Nsg.relationDecls src tgt (family src).empty (family tgt).empty port withSsh

variable {base family}

theorem issued_of_mem_calls {op : NsgOp} {c : RuleCall} (h : c ∈ op.calls base family) :
    Issued (fun _ => True) base c := by
  cases op with
  | build args =>
    simp only [calls, NsgArgs.ruleCalls] at h
    split at h
    · cases h
    · exact .nsg trivial h
  | serves src tgt port withSsh =>
    simp only [calls, Nsg.relationCalls] at h
    split at h
    · exact .serves h
    · cases h

end NsgOp

/-- Relationships look at the names, the resources and the roles of their groups only. -/
theorem Nsg.relation_congr {self self' target target' : Nsg} (hself : self.SameGroup self')
    (htarget : target.SameGroup target') (base : VcnBase) (src tgt : String) (port : ℤ)
    (withSsh : Bool) :
    relationCalls base self' target' port withSsh = relationCalls base self target port withSsh ∧
      relationDecls src tgt self' target' port withSsh =
        relationDecls src tgt self target port withSsh := by
  have haccepts : target'.acceptsSsh = target.acceptsSsh := by
    unfold acceptsSsh
    rw [htarget.role]
  have hname : target'.name = target.name := congrArg ResourceNamer.resourceName htarget.namer
  have hname' : self'.name = self.name := congrArg ResourceNamer.resourceName hself.namer
  constructor
  · unfold relationCalls
    rw [hself.role, htarget.role, haccepts]
  · unfold relationDecls
    rw [hname, hname', hself.resource, htarget.resource, haccepts]

/-- What a program adds to the groups. -/
def declsOf (family : String → NsgArgs) (v₀ : Vcn) (ops : List NsgOp) : List (String × RuleDecl) :=
  ops.flatMap (NsgOp.decls v₀.toVcnBase family)

/-- What a program passes to the builder. -/
def callsOf (family : String → NsgArgs) (v₀ : Vcn) (ops : List NsgOp) : List RuleCall :=
  ops.flatMap (NsgOp.calls v₀.toVcnBase family)

theorem declsOf_append (family : String → NsgArgs) (v₀ : Vcn) (ops : List NsgOp) (op : NsgOp) :
    declsOf family v₀ (ops ++ [op]) = declsOf family v₀ ops ++ op.decls v₀.toVcnBase family := by
  rw [declsOf, List.flatMap_append, List.flatMap_singleton]
  rfl

theorem callsOf_append (family : String → NsgArgs) (v₀ : Vcn) (ops : List NsgOp) (op : NsgOp) :
    callsOf family v₀ (ops ++ [op]) = callsOf family v₀ ops ++ op.calls v₀.toVcnBase family := by
  rw [callsOf, List.flatMap_append, List.flatMap_singleton]
  rfl

/-- **The world a program leaves**, read off its text. -/
structure Tracks (family : String → NsgArgs) (v₀ : Vcn) (ops : List NsgOp) (w : World) : Prop where
  vcn : w.vcn = v₀.record (callsOf family v₀ ops)
  group : ∀ g nsg, w.nsgs g = some nsg →
    (family g).empty.GrownBy (declsFor g (declsOf family v₀ ops)) nsg
  absent : ∀ g, w.nsgs g = none → declsFor g (declsOf family v₀ ops) = []
  isSome_iff : ∀ g, (w.nsgs g).isSome ↔ ∃ args, NsgOp.build args ∈ ops ∧ args.name = g

section Tracks

variable {family : String → NsgArgs} {v₀ : Vcn} {ops : List NsgOp} {w w' : World}

theorem tracks_nil : Tracks family v₀ [] (World.ofVcn v₀) where
  vcn := (record_nil v₀).symm
  group := fun _ _ h => by cases h
  absent := fun _ _ => rfl
  isSome_iff := fun g => by simp [World.ofVcn]

theorem Tracks.base_eq (h : Tracks family v₀ ops w) : w.vcn.toVcnBase = v₀.toVcnBase := by
  rw [h.vcn]
  rfl

theorem Tracks.open (h : Tracks family v₀ ops w) (hopen : v₀.securityListsFinalized = false) :
    w.vcn.securityListsFinalized = false := by
  rw [h.vcn]
  exact hopen

/-- **A group has the rules declared for it**, and no others. -/
theorem Tracks.exists_erase_iff (h : Tracks family v₀ ops w) {g : String} {nsg : Nsg}
    (hg : w.nsgs g = some nsg) {e : NsgRule} : (∃ r ∈ nsg.rules, r.erase = e) ↔
      ∃ decl, (g, decl) ∈ declsOf family v₀ ops ∧ (family g).ruleFor decl = e := by
  rw [← List.mem_map, (h.group g nsg hg).rules]
  simp only [NsgArgs.empty, List.map_nil, List.nil_append, List.mem_map, mem_declsFor]
  rfl

/-- A group that is built: its own rules, and nothing of the others. -/
private theorem Tracks.step_build {args : NsgArgs} (h : Tracks family v₀ ops w)
    (hopen : v₀.securityListsFinalized = false) (hfamily : family args.name = args)
    (hnew : w.nsgs args.name = none) (hrun : (NsgOp.build args).exec.run w = (.ok ⟨⟩, w')) :
    Tracks family v₀ (ops ++ [.build args]) w' := by
  change (World.buildNsg args).run w = (.ok ⟨⟩, w') at hrun
  rw [World.buildNsg, run_bind_eq_ok] at hrun
  obtain ⟨a, w₁, hinit, hmodify⟩ := hrun
  obtain ⟨-, rfl⟩ := Prod.mk.inj hmodify
  obtain ⟨hinit, hnsgs⟩ := World.run_onVcn_eq_ok.mp hinit
  obtain ⟨hadd, hreg⟩ := Nsg.run_init_eq_ok hinit
  rw [run_register_of_open (h.open hopen)] at hreg
  have hsvc : w.vcn.svcCidrBlock = v₀.svcCidrBlock := congrArg VcnBase.svcCidrBlock h.base_eq
  have hself : declsFor args.name ((NsgOp.build args).decls v₀.toVcnBase family) =
      args.decls v₀.svcCidrBlock := declsFor_map_self _ _
  have hother : ∀ g, g ≠ args.name →
      declsFor g ((NsgOp.build args).decls v₀.toVcnBase family) = [] :=
    fun g hg => declsFor_map_of_ne (Ne.symm hg) _
  refine ⟨?_, fun g nsg hnsg => ?_, fun g hnone => ?_, fun g => ?_⟩
  · change w₁.vcn = _
    rw [← (Prod.mk.inj hreg).2, h.base_eq, callsOf_append, record_append, ← h.vcn]
    rfl
  · rw [declsOf_append, declsFor_append]
    by_cases hg : g = args.name
    · subst hg
      change Function.update w₁.nsgs args.name (some a) args.name = some nsg at hnsg
      rw [Function.update_self] at hnsg
      obtain rfl := Option.some.inj hnsg
      rw [h.absent _ hnew, hself, hfamily, List.nil_append, ← hsvc]
      exact Nsg.grownBy_of_addRules hadd
    · change Function.update w₁.nsgs args.name (some a) g = some nsg at hnsg
      rw [Function.update_of_ne hg, hnsgs] at hnsg
      rw [hother g hg, List.append_nil]
      exact h.group g nsg hnsg
  · have hg : g ≠ args.name := by
      rintro rfl
      change Function.update w₁.nsgs args.name (some a) args.name = none at hnone
      rw [Function.update_self] at hnone
      cases hnone
    change Function.update w₁.nsgs args.name (some a) g = none at hnone
    rw [Function.update_of_ne hg, hnsgs] at hnone
    rw [declsOf_append, declsFor_append, hother g hg, h.absent g hnone]
    rfl
  · change (Function.update w₁.nsgs args.name (some a) g).isSome ↔ _
    by_cases hg : g = args.name
    · subst hg
      rw [Function.update_self]
      exact iff_of_true rfl ⟨args, by simp, rfl⟩
    · rw [Function.update_of_ne hg, hnsgs, h.isSome_iff]
      constructor
      · rintro ⟨b, hb, rfl⟩
        exact ⟨b, List.mem_append_left _ hb, rfl⟩
      · rintro ⟨b, hb, rfl⟩
        rcases List.mem_append.mp hb with hb | hb
        · exact ⟨b, hb, rfl⟩
        · obtain rfl := NsgOp.build.inj (List.mem_singleton.mp hb)
          exact absurd rfl hg

/-- A relationship that is declared: rules for both its groups, and its calls. -/
private theorem Tracks.step_serves {src tgt : String} {port : ℤ} {withSsh : Bool}
    (h : Tracks family v₀ ops w) (hopen : v₀.securityListsFinalized = false)
    (hrun : (NsgOp.serves src tgt port withSsh).exec.run w = (.ok ⟨⟩, w')) :
    Tracks family v₀ (ops ++ [.serves src tgt port withSsh]) w' := by
  change (World.serves src tgt port withSsh).run w = (.ok ⟨⟩, w') at hrun
  obtain ⟨self, target, hsrc, htgt, hrelate⟩ := World.run_serves_eq_ok.mp hrun
  obtain ⟨hgrown, hreg⟩ := World.run_relate_eq_ok hrelate
  obtain ⟨hcalls, hdecls⟩ := Nsg.relation_congr (h.group src self hsrc).same
    (h.group tgt target htgt).same v₀.toVcnBase src tgt port withSsh
  rw [h.base_eq, hcalls, run_register_of_open (h.open hopen)] at hreg
  rw [hdecls] at hgrown
  refine ⟨?_, fun g nsg hnsg => ?_, fun g hnone => ?_, fun g => ?_⟩
  · rw [← (Prod.mk.inj hreg).2, callsOf_append, record_append, ← h.vcn]
    rfl
  · rw [declsOf_append, declsFor_append]
    cases hold : w.nsgs g with
    | none => cases ((hgrown.none g hold).1.symm.trans hnsg)
    | some old =>
      obtain ⟨new, hnew, hgrow⟩ := hgrown.some g old hold
      obtain rfl := Option.some.inj (hnew.symm.trans hnsg)
      exact (h.group g old hold).trans hgrow
  · rw [declsOf_append, declsFor_append]
    cases hold : w.nsgs g with
    | none => rw [h.absent g hold, NsgOp.decls, (hgrown.none g hold).2, List.append_nil]
    | some old =>
      obtain ⟨new, hnew, -⟩ := hgrown.some g old hold
      cases hnew.symm.trans hnone
  · rw [hgrown.isSome_iff, h.isSome_iff]
    simp

/-- **The step lemma.** -/
theorem Tracks.step {op : NsgOp} (h : Tracks family v₀ ops w)
    (hopen : v₀.securityListsFinalized = false)
    (hbuild : ∀ args, op = .build args → family args.name = args ∧ w.nsgs args.name = none)
    (hrun : op.exec.run w = (.ok ⟨⟩, w')) : Tracks family v₀ (ops ++ [op]) w' := by
  cases op with
  | build args =>
    obtain ⟨hfamily, hnew⟩ := hbuild args rfl
    exact h.step_build hopen hfamily hnew hrun
  | serves src tgt port withSsh => exact h.step_serves hopen hrun

/-- The groups a program builds have distinct names. -/
def NamesDistinct (ops : List NsgOp) : Prop := ((ops.filterMap NsgOp.built).map NsgArgs.name).Nodup

/-- Then there is a family they are the members of. -/
theorem exists_family (hnames : NamesDistinct ops) :
    ∃ family : String → NsgArgs, ∀ args, .build args ∈ ops → family args.name = args := by
  let groups := ops.filterMap NsgOp.built
  refine ⟨fun g => (groups.find? fun args => args.name = g).getD { name := g, stackName := "" },
    fun args hargs => ?_⟩
  have hmem : args ∈ groups := List.mem_filterMap.mpr ⟨_, hargs, rfl⟩
  change (groups.find? fun b => b.name = args.name).getD _ = args
  cases hfind : groups.find? fun b => b.name = args.name with
  | none => exact absurd (List.find?_eq_none.mp hfind args hmem) (by simp)
  | some b =>
    have hname : b.name = args.name := by simpa using List.find?_some hfind
    exact List.inj_on_of_nodup_map hnames (List.mem_of_find?_eq_some hfind) hmem hname

/-- **The run lemma**: a program that returned from every step leaves the world its text describes.
-/
theorem tracks_of_run (hopen : v₀.securityListsFinalized = false) (hnames : NamesDistinct ops)
    (hfamily : ∀ args, .build args ∈ ops → family args.name = args)
    (hrun : (each NsgOp.exec ops).run (World.ofVcn v₀) = (.ok ⟨⟩, w)) : Tracks family v₀ ops w := by
  induction ops using List.reverseRecOn generalizing w with
  | nil =>
    obtain ⟨-, rfl⟩ := Prod.mk.inj hrun
    exact tracks_nil
  | append_singleton ops op ih =>
    obtain ⟨w₁, hpre, hlast⟩ := run_each_append.mp hrun
    have hlast : op.exec.run w₁ = (.ok ⟨⟩, w) := by
      rw [each_cons, run_bind_eq_ok] at hlast
      obtain ⟨_, w₂, hop, hnil⟩ := hlast
      obtain ⟨-, rfl⟩ := Prod.mk.inj hnil
      exact hop
    have hsplit : NamesDistinct ops ∧ ∀ args, op = .build args →
        ∀ b, .build b ∈ ops → b.name ≠ args.name := by
      unfold NamesDistinct at hnames
      rw [List.filterMap_append, List.map_append, List.nodup_append] at hnames
      refine ⟨hnames.1, fun args hop b hb => ?_⟩
      subst hop
      have hmem : b ∈ ops.filterMap NsgOp.built := List.mem_filterMap.mpr ⟨_, hb, rfl⟩
      exact hnames.2.2 _ (List.mem_map_of_mem hmem) _ (by simp [NsgOp.built])
    have htracks := ih hsplit.1 (fun args hargs => hfamily args (List.mem_append_left _ hargs)) hpre
    refine htracks.step hopen (fun args hop => ⟨hfamily args (by simp [hop]), ?_⟩) hlast
    -- A group of this name would have been built by an earlier step.
    rw [← Option.not_isSome_iff_eq_none, htracks.isSome_iff]
    rintro ⟨b, hb, hname⟩
    exact hsplit.2 args hop b hb hname

/-- The world once its VCN has been finalised — by a call that need not return. -/
def World.finalized (w : World) : World := (World.onVcn Vcn.finalizeNetwork).after w

theorem World.network_finalized (w : World) :
    w.finalized.vcn.network = w.vcn.network.finalize := w.vcn.network_finalizeNetwork

/-- Finalisation leaves the VCN's attributes alone. -/
theorem Tracks.base_finalized (h : Tracks family v₀ ops w) :
    w.finalized.vcn.toVcnBase = v₀.toVcnBase := by
  have hbase := congrArg NetworkState.base w.network_finalized
  rw [NetworkState.base_finalize] at hbase
  exact hbase.trans h.base_eq

/-- **The lists of the finalised VCN**: what was there, what the program's calls wrote, and the
baseline. -/
theorem Tracks.securityList_finalized (h : Tracks family v₀ ops w)
    (hopen : v₀.securityListsFinalized = false) (t : SubnetTier) :
    ∃ sl, w.finalized.vcn.securityList t = some sl ∧ ∀ d, sl.rules d = v₀.rules t d ++
      writtenRules v₀.appliedAmbientRuleFingerprints (callsOf family v₀ ops) t d ++
      Vcn.baselineRules v₀.toVcnBase t d := by
  have hnet := w.network_finalized
  have hopen' : w.vcn.network.finalized = false := h.open hopen
  rw [NetworkState.finalize_of_open hopen', h.vcn] at hnet
  have hlist := congrFun (congrArg NetworkState.securityList hnet) t
  exact ⟨_, hlist, fun d => by cases d <;> rfl⟩

end Tracks

/-- A group of application servers. -/
def apiArgs : NsgArgs where
  name := "api"
  stackName := "dev"
  role := some (.predefined .appServer)

/-- An internet-facing group in front of the application servers. -/
def webApi : List NsgOp := [.build webArgs, .build apiArgs, .serves "web" "api" 8080 true]

end CloudSpells
