import CloudSpells.Spells.Protocol

/-!
# Cli/Scaffold — the programs the templates render

A template renders a program that reads its configuration, builds a VCN, and builds and exports
spells on it.  A `Scaffold` is such a program past its configuration: the VCN and the steps taken
with it.  What does not reach the VCN — the exports of the other spells, the whole of the storage
and IAM programs — is no step.

Every program declares before it finalises, but for the Bastion's: that one builds the instance
first, and the Bastion is refused (`scaffold_inOrder_iff`).
-/

namespace CloudSpells

open Machinery Machinery.Exec

/-! ## Configuration -/

/-- What reading a configuration key raises. -/
inductive ConfigError
  | missing (key : String)
  | type (key : String)
  deriving DecidableEq, Repr

/-- `Config`: the stack's values by key, and the integers the engine reads from them. -/
structure Config where
  get : String → Option String
  getInt : String → Except ConfigError (Option ℤ)

namespace Config

/-- `require`. -/
def require (config : Config) (key : String) : Except ConfigError String :=
  match config.get key with
  | none => .error (.missing key)
  | some value => .ok value

/-- `config.get("cidr_block") or "10.0.0.0/18"`. -/
def cidrBlock (config : Config) : String := strOr (config.get "cidr_block") "10.0.0.0/18"

/-- `config.get_int(key) or default`: zero is falsy too. -/
def getIntOr (config : Config) (key : String) (default : ℤ) : Except ConfigError ℤ := do
  match ← config.getInt key with
  | none => return default
  | some n => return if n = 0 then default else n

end Config

/-! ## Programs -/

/-- A rendered program past its configuration: the VCN, and the steps taken with it. -/
structure Scaffold where
  vcn : VcnArgs
  steps : List SpellOp

/-- Run the program: the VCN is built, then the steps are taken until one raises. -/
def Scaffold.run (cloud : Cloud) (s : Scaffold) : Except PyError Unit := do
  let v ← Vcn.init cloud s.vcn
  (each SpellOp.exec s.steps).outcome (World.ofVcn v)

/-- The modules of `templates/spells`. -/
inductive Template
  | vcn | compute | oke | autoscale | loadbalancer | bastion | storage | iam | webDb
  deriving DecidableEq, Repr

/-- `SPELL_REGISTRY`. -/
def SPELL_REGISTRY : List (String × Template) :=
  [("vcn", .vcn), ("compute", .compute), ("oke", .oke), ("autoscale", .autoscale),
   ("lb", .loadbalancer), ("loadbalancer", .loadbalancer), ("bastion", .bastion),
   ("storage", .storage), ("iam", .iam), ("web-db", .webDb)]

namespace Template

/-- `Vcn(name=…, compartment_id=…, cidr_block=…)`, on the stack the program is run for. -/
def vcnArgs (name stackName compartmentId : String) (cidrBlock : Option String) : VcnArgs where
  name := name
  stackName := stackName
  compartmentId := compartmentId
  cidrBlock := cidrBlock

/-- `Vcn`, exported. -/
def renderVcn (config : Config) (name stackName : String) : Except ConfigError Scaffold := do
  let compartmentId ← config.require "compartment_ocid"
  return {
    vcn := vcnArgs name stackName compartmentId (some config.cidrBlock)
    steps := [.exportOutputs] }

/-- `Vcn`, `ComputeInstance`. -/
def renderCompute (config : Config) (name stackName : String) : Except ConfigError Scaffold := do
  let compartmentId ← config.require "compartment_ocid"
  let _ ← config.require "image_ocid"
  return {
    vcn := vcnArgs name stackName compartmentId (some config.cidrBlock)
    steps :=
      [.computeInstance none { name := name, stackName := stackName },
       .exportOutputs] }

/-- `Vcn`, `OkeCluster`; the VCN takes its default CIDR. -/
def renderOke (config : Config) (name stackName : String) : Except ConfigError Scaffold := do
  let compartmentId ← config.require "compartment_ocid"
  let _ ← config.require "kubernetes_version"
  let _ ← config.require "node_image_id"
  let _ ← config.getIntOr "node_count" 2
  let _ ← config.getIntOr "ocpus" 2
  let _ ← config.getIntOr "memory_in_gbs" 12
  return {
    vcn := vcnArgs name stackName compartmentId none
    steps :=
      [.okeCluster { name := name, stackName := stackName, nodePools := ["workers"] },
       .exportOutputs] }

/-- `Vcn`, `ScalableWorkload`. -/
def renderAutoscale (config : Config) (name stackName : String) :
    Except ConfigError Scaffold := do
  let compartmentId ← config.require "compartment_ocid"
  let _ ← config.require "image_ocid"
  let _ ← config.getIntOr "max_instances" 5
  return {
    vcn := vcnArgs name stackName compartmentId (some config.cidrBlock)
    steps := [.scalableWorkload { name := name, stackName := stackName }, .exportOutputs] }

/-- `Vcn`, `LoadBalancer`. -/
def renderLoadbalancer (config : Config) (name stackName : String) :
    Except ConfigError Scaffold := do
  let compartmentId ← config.require "compartment_ocid"
  let _ ← config.require "certificate_name"
  return {
    vcn := vcnArgs name stackName compartmentId (some config.cidrBlock)
    steps := [.loadBalancer { name := name, stackName := stackName }, .exportOutputs] }

/-- `Vcn`, `ComputeInstance`, `Bastion`. -/
def renderBastion (config : Config) (name stackName : String) : Except ConfigError Scaffold := do
  let compartmentId ← config.require "compartment_ocid"
  let _ ← config.require "image_ocid"
  return {
    vcn := vcnArgs name stackName compartmentId (some config.cidrBlock)
    steps :=
      [.computeInstance none { name := name, stackName := stackName },
       .bastion
        { name := name, stackName := stackName, allowedClientCidrs := some ["0.0.0.0/0"] },
       .exportOutputs] }

/-- `Vcn`, three groups and their relationships, two instances of `ComputeInstance`. -/
def renderWebDb (config : Config) (name stackName : String) : Except ConfigError Scaffold := do
  let compartmentId ← config.require "compartment_ocid"
  let _ ← config.require "image_ocid"
  let appPort ← config.getIntOr "app_port" 8080
  let dbPort ← config.getIntOr "db_port" 5432
  let lb := s!"{name}-lb"
  let web := s!"{name}-web"
  let db := s!"{name}-db"
  return {
    vcn := vcnArgs name stackName compartmentId (some config.cidrBlock)
    steps :=
      [.nsg { name := lb, stackName := stackName, role := some (.predefined .internetEdge),
              ports := [80, 443, 22] },
       .nsg { name := web, stackName := stackName, role := some (.predefined .appServer) },
       .nsg { name := db, stackName := stackName, role := some (.predefined .database) },
       .serves lb web appPort true,
       .serves web db dbPort true,
       .computeInstance (some web) { name := web, stackName := stackName },
       .computeInstance (some db) { name := db, stackName := stackName },
       .exportOutputs] }

/-- `BackupBucket`, `DataLakeBucket`: no VCN. -/
def renderStorage (config : Config) : Except ConfigError (Option Scaffold) := do
  let _ ← config.require "compartment_ocid"
  let _ ← config.require "namespace"
  return none

/-- `ComputeInstancePrincipal`, `CompartmentAdminGroup`: no VCN. -/
def renderIam (config : Config) : Except ConfigError (Option Scaffold) := do
  let _ ← config.require "compartment_ocid"
  let _ ← config.require "tenancy_ocid"
  return none

/-- The `__main__.py` that `render` returns, past its configuration.  `name` is what the literal in
it denotes. -/
def render (config : Config) (name stackName : String) :
    Template → Except ConfigError (Option Scaffold)
  | vcn => some <$> renderVcn config name stackName
  | compute => some <$> renderCompute config name stackName
  | oke => some <$> renderOke config name stackName
  | autoscale => some <$> renderAutoscale config name stackName
  | loadbalancer => some <$> renderLoadbalancer config name stackName
  | bastion => some <$> renderBastion config name stackName
  | storage => renderStorage config
  | iam => renderIam config
  | webDb => some <$> renderWebDb config name stackName

/-- The run of the program raises no refusal of a finalised VCN. -/
def RespectsOrder (cloud : Cloud) (config : Config) (name stackName : String) (t : Template) :
    Prop :=
  ∀ s, t.render config name stackName = .ok (some s) → ∀ e, s.run cloud = .error e →
    ¬ e.IsOrdering

end Template

/-- A CIDR that cannot be cut is refused by its text, not by an order of steps. -/
theorem orderly_splitTiers (cidr : String) : Orderly (splitTiers cidr) := by
  have hparse : Orderly (ipNetwork cidr) := by
    unfold ipNetwork
    split
    · exact orderly_valueError _
    · split
      · exact orderly_ok _
      · exact orderly_valueError _
  cases hnet : ipNetwork cidr with
  | error e =>
    rw [splitTiers, hnet, error_bind]
    exact orderly_error (hparse e hnet)
  | ok net =>
    by_cases hlen : net.len + 3 ≤ 32
    · rw [splitTiers_of_le hnet hlen]
      exact orderly_ok _
    · rw [splitTiers_of_lt hnet hlen]
      exact orderly_error (by decide)

/-- A VCN is not built on a CIDR that cannot be cut. -/
theorem Vcn.init_of_error (cloud : Cloud) (args : VcnArgs) {e : PyError}
    (h : splitTiers (strOr args.cidrBlock "10.0.0.0/18") = .error e) :
    Vcn.init cloud args = .error e := by
  simp only [Vcn.init, VcnBase.init, h, error_bind]

/-- It is built on any other, with flow logs where they were asked for. -/
theorem Vcn.exists_init (cloud : Cloud) (args : VcnArgs) {cidrs : SubnetCidrs}
    (h : splitTiers (strOr args.cidrBlock "10.0.0.0/18") = .ok cidrs) :
    ∃ v, Vcn.init cloud args = .ok v ∧ v.flowLogsEnabled = args.flowLogs := by
  cases hinit : Vcn.init cloud args with
  | error e =>
    simp only [Vcn.init, VcnBase.init, h, ok_bind] at hinit
    cases hinit
  | ok v =>
    refine ⟨v, rfl, ?_⟩
    simp only [Vcn.init, VcnBase.init, h, ok_bind] at hinit
    obtain rfl := Except.ok.inj hinit
    rfl

/-- **A program in order is not refused.** -/
theorem Scaffold.not_isOrdering_of_inOrder {cloud : Cloud} {s : Scaffold}
    (h : SpellOp.inOrder s.steps = true) {e : PyError} (he : s.run cloud = .error e) :
    ¬ e.IsOrdering := by
  cases hinit : Vcn.init cloud s.vcn with
  | error e' =>
    rw [run, hinit, error_bind] at he
    obtain rfl := Except.error.inj he
    cases hsplit : splitTiers (strOr s.vcn.cidrBlock "10.0.0.0/18") with
    | error e =>
      rw [Vcn.init_of_error _ _ hsplit] at hinit
      rw [← Except.error.inj hinit]
      exact orderly_splitTiers _ _ hsplit
    | ok cidrs =>
      obtain ⟨v, hok, -⟩ := Vcn.exists_init cloud _ hsplit
      cases hok.symm.trans hinit
  | ok v =>
    rw [run, hinit, ok_bind] at he
    exact (SpellOp.safe_of_inOrder h (World.ofVcn v) (open_of_init hinit)).1 e he

namespace Template

variable {config : Config} {name stackName : String} {t : Template} {s : Scaffold}

private theorem of_map_some {x : Except ConfigError Scaffold} (h : some <$> x = .ok (some s)) :
    x = .ok s := by
  cases x with
  | error e => cases h
  | ok s' => exact congrArg Except.ok (Option.some.inj (Except.ok.inj h))

/-- **The steps of every program but the Bastion's are in order.** -/
theorem inOrder_of_render (hne : t ≠ .bastion)
    (h : t.render config name stackName = .ok (some s)) : SpellOp.inOrder s.steps = true := by
  cases t with
  | vcn =>
    obtain ⟨_, -, h⟩ := bind_eq_ok.mp (of_map_some h)
    rw [← Except.ok.inj h]
    rfl
  | compute =>
    obtain ⟨_, -, h⟩ := bind_eq_ok.mp (of_map_some h)
    obtain ⟨_, -, h⟩ := bind_eq_ok.mp h
    rw [← Except.ok.inj h]
    rfl
  | oke =>
    obtain ⟨_, -, h⟩ := bind_eq_ok.mp (of_map_some h)
    obtain ⟨_, -, h⟩ := bind_eq_ok.mp h
    obtain ⟨_, -, h⟩ := bind_eq_ok.mp h
    obtain ⟨_, -, h⟩ := bind_eq_ok.mp h
    obtain ⟨_, -, h⟩ := bind_eq_ok.mp h
    obtain ⟨_, -, h⟩ := bind_eq_ok.mp h
    rw [← Except.ok.inj h]
    rfl
  | autoscale =>
    obtain ⟨_, -, h⟩ := bind_eq_ok.mp (of_map_some h)
    obtain ⟨_, -, h⟩ := bind_eq_ok.mp h
    obtain ⟨_, -, h⟩ := bind_eq_ok.mp h
    rw [← Except.ok.inj h]
    rfl
  | loadbalancer =>
    obtain ⟨_, -, h⟩ := bind_eq_ok.mp (of_map_some h)
    obtain ⟨_, -, h⟩ := bind_eq_ok.mp h
    rw [← Except.ok.inj h]
    rfl
  | bastion => exact absurd rfl hne
  | storage =>
    obtain ⟨_, -, h⟩ := bind_eq_ok.mp h
    obtain ⟨_, -, h⟩ := bind_eq_ok.mp h
    cases h
  | iam =>
    obtain ⟨_, -, h⟩ := bind_eq_ok.mp h
    obtain ⟨_, -, h⟩ := bind_eq_ok.mp h
    cases h
  | webDb =>
    obtain ⟨_, -, h⟩ := bind_eq_ok.mp (of_map_some h)
    obtain ⟨_, -, h⟩ := bind_eq_ok.mp h
    obtain ⟨_, -, h⟩ := bind_eq_ok.mp h
    obtain ⟨_, -, h⟩ := bind_eq_ok.mp h
    rw [← Except.ok.inj h]
    rfl

/-- The Bastion's program reads two keys and may fail on them alone. -/
theorem render_bastion_eq_ok : Template.bastion.render config name stackName = .ok (some s) ↔
    ∃ compartmentId imageId, config.get "compartment_ocid" = some compartmentId ∧
      config.get "image_ocid" = some imageId ∧ s = {
        vcn := vcnArgs name stackName compartmentId (some config.cidrBlock)
        steps :=
          [.computeInstance none { name := name, stackName := stackName },
           .bastion
            { name := name, stackName := stackName, allowedClientCidrs := some ["0.0.0.0/0"] },
           .exportOutputs] } := by
  unfold render renderBastion Config.require
  cases config.get "compartment_ocid" with
  | none => exact iff_of_false (fun h => by cases h) (by rintro ⟨_, _, h, -⟩; cases h)
  | some compartmentId =>
    cases config.get "image_ocid" with
    | none => exact iff_of_false (fun h => by cases h) (by rintro ⟨_, _, -, h, -⟩; cases h)
    | some imageId =>
      constructor
      · intro h
        exact ⟨compartmentId, imageId, rfl, rfl, (Option.some.inj (Except.ok.inj h)).symm⟩
      · rintro ⟨_, _, hcompartment, -, rfl⟩
        obtain rfl := Option.some.inj hcompartment
        rfl

end Template

/-! ## The Bastion's program -/

/-- A finalised VCN refuses a Bastion whose rule it does not have. -/
theorem Bastion.run_init_of_unregistered {v : Vcn} {args : BastionArgs} {cidrs : List String}
    (hargs : args.allowedClientCidrs = some cidrs) (hfinal : v.isFinalized = true)
    (hfree : v.hasAmbientRule BASTION_SSH_RULE_FINGERPRINT = false) :
    (Bastion.init args).run v = (.error (.runtimeError tooLateMessage), v) := by
  have hcheck : check args = .ok cidrs := by rw [check, hargs]
  have hreg : registration.run v = (.error (.runtimeError tooLateMessage), v) := by
    rw [registration, run_get_bind, if_pos hfinal, if_neg (by simp [hfree]), run_throw]
  rw [init, construct, hcheck]
  exact (run_bind_ok (run_attempt _ _)).trans (run_bind_error hreg)

/-- Without flow logs, finalising an open network is materialising it. -/
theorem Vcn.run_finalizeNetwork_of_quiet {v : Vcn} (hopen : v.securityListsFinalized = false)
    (hlogs : v.flowLogsEnabled = false) : finalizeNetwork.run v = (.ok ⟨⟩, v.materialized) := by
  have hnone : (createOwnFlowLogs (pure ⟨⟩)).run v.materialized = (.ok ⟨⟩, v.materialized) := by
    have hmaterialized : v.materialized.flowLogsEnabled = false := hlogs
    rw [createOwnFlowLogs, run_get_bind, hmaterialized]
    rfl
  have hsubnets : ∀ t, (v.materialized.subnet t).isSome = true := fun _ => rfl
  rw [finalizeNetwork_eq, run_finalizeBody_of_open hopen, run_bind_ok hnone, assertSubnets,
    run_get_bind, if_pos hsubnets, run_pure]

/-- An instance without a group is built on an open VCN without flow logs. -/
theorem ComputeInstance.run_init_of_open {v : Vcn} (name stackName : String)
    (hopen : v.securityListsFinalized = false) (hlogs : v.flowLogsEnabled = false) :
    ∃ a, (ComputeInstance.init none { name := name, stackName := stackName }).run v =
      (.ok a, (v.record (ruleCalls v.toVcnBase .priv)).materialized) := by
  have hcheck : check { name := name, stackName := stackName } = .ok [VolumeSpec.default] :=
    check_eq_ok.mpr ⟨rfl, by decide, by decide⟩
  have hreg : (registration .priv).run v = (.ok ⟨⟩, v.record (ruleCalls v.toVcnBase .priv)) := by
    rw [registration, run_get_bind, if_neg (by simp [Vcn.isFinalized, hopen]),
      run_register_of_open hopen]
  have hfin := Vcn.run_finalizeNetwork_of_quiet (v := v.record (ruleCalls v.toVcnBase .priv))
    hopen hlogs
  exact ⟨_, run_construct_eq_ok.mpr ⟨_, _, hcheck, hreg, hfin, rfl⟩⟩

/-- **The Bastion comes too late**: its program is refused on every VCN that is built at all. -/
theorem Scaffold.run_bastion {cloud : Cloud} {v : Vcn} {vcnArgs : VcnArgs} {cidrs : List String}
    {bastionArgs : BastionArgs} {rest : List SpellOp} (name stackName : String)
    (hinit : Vcn.init cloud vcnArgs = .ok v) (hlogs : v.flowLogsEnabled = false)
    (hargs : bastionArgs.allowedClientCidrs = some cidrs) :
    Scaffold.run cloud {
      vcn := vcnArgs
      steps := .computeInstance none { name := name, stackName := stackName } ::
        .bastion bastionArgs :: rest } = .error (.runtimeError Bastion.tooLateMessage) := by
  let w := (v.record (ComputeInstance.ruleCalls v.toVcnBase .priv)).materialized
  have hempty := fingerprints_of_init hinit
  have hfree : w.hasAmbientRule BASTION_SSH_RULE_FINGERPRINT = false := by
    change decide (_ ∈ (v.record _).appliedAmbientRuleFingerprints) = false
    rw [fingerprints_record, hempty]
    refine decide_eq_false fun hmem => ?_
    rcases Ledger.mem_keys.mp hmem with hmem | ⟨c, hc, hfp⟩
    · exact Finset.notMem_empty _ hmem
    · obtain rfl := List.mem_singleton.mp hc
      exact absurd (Option.some.inj hfp) (by decide)
  obtain ⟨a, hcompute⟩ :=
    ComputeInstance.run_init_of_open name stackName (open_of_init hinit) hlogs
  have hfirst : (SpellOp.computeInstance none { name := name, stackName := stackName }).exec.run
      (World.ofVcn v) = (.ok ⟨⟩, World.ofVcn w) :=
    World.run_build_eq_ok.mpr ⟨a, hcompute, rfl⟩
  have hsecond : (SpellOp.bastion bastionArgs).exec.run (World.ofVcn w) =
      (.error (.runtimeError Bastion.tooLateMessage), World.ofVcn w) := by
    have hbastion := Bastion.run_init_of_unregistered (v := w) hargs rfl hfree
    have honVcn : (World.onVcn (Bastion.init bastionArgs)).run (World.ofVcn w) =
        (.error (.runtimeError Bastion.tooLateMessage), World.ofVcn w) :=
      congrArg (fun r => (r.1, World.ofVcn r.2)) hbastion
    exact run_bind_error honVcn
  rw [Scaffold.run, hinit, ok_bind, outcome, each_cons, run_bind_ok hfirst, each_cons,
    run_bind_error hsecond]

/-! ## Every program -/

/-- **A program respects the protocol, unless it is the Bastion's and gets as far as the Bastion**:
its two keys are set and its CIDR can be cut. -/
theorem scaffold_inOrder_iff {cloud : Cloud} {config : Config} {spell name stackName : String}
    {t : Template} (hspell : (spell, t) ∈ SPELL_REGISTRY) :
    t.RespectsOrder cloud config name stackName ↔
      spell ≠ "bastion" ∨ config.get "compartment_ocid" = none ∨ config.get "image_ocid" = none ∨
        ∃ e, splitTiers config.cidrBlock = .error e := by
  have hregistry : ∀ entry ∈ SPELL_REGISTRY, entry.1 = "bastion" ↔ entry.2 = .bastion := by decide
  have hbastion : spell = "bastion" ↔ t = .bastion := hregistry _ hspell
  have hcidr : strOr (some config.cidrBlock) "10.0.0.0/18" = config.cidrBlock := strOr_strOr _ _
  constructor
  · intro h
    by_contra hall
    simp only [not_or, not_not, not_exists] at hall
    obtain ⟨hspell, hcompartment, himage, hsplit⟩ := hall
    obtain rfl := hbastion.mp hspell
    obtain ⟨compartmentId, hcompartment⟩ := Option.ne_none_iff_exists'.mp hcompartment
    obtain ⟨imageId, himage⟩ := Option.ne_none_iff_exists'.mp himage
    cases hok : splitTiers config.cidrBlock with
    | error e => exact hsplit e hok
    | ok cidrs =>
      rw [← hcidr] at hok
      obtain ⟨v, hinit, hlogs⟩ := Vcn.exists_init cloud
        (Template.vcnArgs name stackName compartmentId (some config.cidrBlock)) hok
      exact h _ (Template.render_bastion_eq_ok.mpr ⟨_, _, hcompartment, himage, rfl⟩) _
        (Scaffold.run_bastion name stackName hinit hlogs rfl) (Or.inr rfl)
  · intro h s hs e he
    by_cases hne : t = .bastion
    · subst hne
      obtain ⟨compartmentId, imageId, hcompartment, himage, rfl⟩ :=
        Template.render_bastion_eq_ok.mp hs
      rcases h with h | h | h | ⟨e', hsplit⟩
      · exact absurd (hbastion.mpr rfl) h
      · cases hcompartment.symm.trans h
      · cases himage.symm.trans h
      · rw [← hcidr] at hsplit
        have hinit := Vcn.init_of_error cloud
          (Template.vcnArgs name stackName compartmentId (some config.cidrBlock)) hsplit
        rw [Scaffold.run, hinit, error_bind] at he
        rw [← Except.error.inj he]
        exact orderly_splitTiers _ _ hsplit
    · exact Scaffold.not_isOrdering_of_inOrder (Template.inOrder_of_render hne hs) he

/-- `pulumi config set compartment_ocid …; pulumi config set image_ocid …`. -/
def opsConfig : Config where
  get
    | "compartment_ocid" => some "ocid1.compartment"
    | "image_ocid" => some "ocid1.image"
    | _ => none
  getInt := fun _ => .ok none

theorem scaffold_inOrder_iff_ops :
    Template.bastion.RespectsOrder bundleCloud opsConfig "ops" "dev" ↔
      "bastion" ≠ "bastion" ∨ opsConfig.get "compartment_ocid" = none ∨
        opsConfig.get "image_ocid" = none ∨
        ∃ e, splitTiers opsConfig.cidrBlock = .error e :=
  scaffold_inOrder_iff (by decide)

/-- `cs new bastion ops` renders a program that no configuration with its two keys can run. -/
theorem bastion_scaffold_refused : ¬ ∀ (cloud : Cloud) (config : Config)
    (spell name stackName : String) (t : Template), (spell, t) ∈ SPELL_REGISTRY →
      t.RespectsOrder cloud config name stackName := by
  intro hall
  obtain ⟨v, hinit, hlogs⟩ := Vcn.exists_init bundleCloud
    (Template.vcnArgs "ops" "dev" "ocid1.compartment" (some "10.0.0.0/18")) splitTiers_default
  exact hall bundleCloud opsConfig "bastion" "ops" "dev" .bastion (by decide) _ rfl _
    (Scaffold.run_bastion "ops" "dev" hinit hlogs rfl) (Or.inr rfl)

end CloudSpells
