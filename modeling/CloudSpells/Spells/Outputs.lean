import CloudSpells.Network.VcnRef
import CloudSpells.Spells.Components

/-!
# Spells/Outputs — the keys of the stack outputs

Every spell publishes its outputs under keys made of its logical name, hyphens read as underscores,
and a suffix of its class; a VCN publishes its own under bare keys.  An underscore joins the two,
and is in both, so a key does not say where the name ends: two keys are the same where the suffixes
are and the names read the same, or where one name goes on with words that one suffix has before the
other (`joined_eq_iff`).

What words these are is a finite matter, the labels of volumes apart: `OutputKind.gaps` is the table
of them, and `Outputs.Clash` says by it which two names cannot stand in one stack.  No key of a
stack is published twice iff no two of its names clash and none is a word of the VCN's keys
(`nodup_exportKeys_iff`).
-/

namespace CloudSpells

open Machinery Machinery.Exec Machinery.Segments

/-! ## The keys of a VCN -/

namespace Vcn

/-- The keys `exportDrg` publishes… -/
def drgKeys (v : Vcn) : List String :=
  if v.drg.isSome && v.drgAttachment.isSome then ["drg_id", "drg_attachment_id"] else []

/-- …and those `exportFlowLogs` does. -/
def flowLogsKeys (v : Vcn) : List String :=
  if v.flowLogs.isSome then ["network_audit_log_group_id"] else []

/-- The keys of a VCN, with or without a gateway to the premises and flow logs. -/
def keysOf (drg flowLogs : Bool) : List String :=
  ["vcn_id", "cidr_block", "public_subnet_id", "private_subnet_id", "secure_subnet_id",
   "public_subnet_cidr", "private_subnet_cidr", "secure_subnet_cidr", "public_security_list_id",
   "private_security_list_id", "secure_security_list_id", "management_subnet_id",
   "management_subnet_cidr", "management_security_list_id"] ++
  ((if drg then ["drg_id", "drg_attachment_id"] else []) ++
    if flowLogs then ["network_audit_log_group_id"] else [])

/-- The keys `export` publishes, in order. -/
def exportKeys (v : Vcn) : List String :=
  keysOf (v.drg.isSome && v.drgAttachment.isSome) v.flowLogs.isSome

/-- The outputs with a key are those that had one and these. -/
def Adds (keys : List String) (o o' : String → Option Input) : Prop :=
  ∀ key, (o' key).isSome = true ↔ (o key).isSome = true ∨ key ∈ keys

theorem Adds.cons {key : String} {value : Input} {keys : List String}
    {o o' : String → Option Input} (h : Adds keys (Function.update o key (some value)) o') :
    Adds (key :: keys) o o' := fun k => by
  rw [h k, List.mem_cons]
  by_cases hk : k = key
  · subst hk
    simp
  · simp [hk]

/-- Where it returns, `m` has added outputs with these keys, and has done nothing else. -/
def Exports {α : Type} (keys : Vcn → List String) (m : Py Vcn α) : Prop :=
  ∀ v v' a, m.run v = (.ok a, v') →
    v' = v.setOutputs v'.outputs ∧ Adds (keys v) v.outputs v'.outputs

section Exports

variable {α β : Type} {keys : Vcn → List String}

/-- A call of `pulumi.export` publishes its key… -/
theorem Exports.cons {m : Py Vcn α} (hm : Exports keys m)
    (hkeys : ∀ (v : Vcn) o, keys (v.setOutputs o) = keys v) (key : String) (value : Input) :
    Exports (fun v => key :: keys v) (pulumiExport key value >>= fun _ => m) := by
  intro v v' a h
  rw [run_pulumiExport_bind] at h
  obtain ⟨hv', hadds⟩ := hm _ v' a h
  rw [hkeys] at hadds
  exact ⟨hv', hadds.cons⟩

/-- …and a check publishes nothing. -/
theorem Exports.check {m : Py Vcn α} {f : α → Py Vcn β} (hf : ∀ a, Exports keys (f a))
    (hm : ∀ v v' a, m.run v = (.ok a, v') → v' = v) : Exports keys (m >>= f) := by
  intro v v' b h
  obtain ⟨a, w, hrun, hrest⟩ := run_bind_eq_ok.mp h
  obtain rfl := hm v w a hrun
  exact hf a _ v' b hrest

theorem eq_of_run_requireSubnet {tier : SubnetTier} (v v' : Vcn) (s : Subnet)
    (h : (requireSubnet tier).run v = (.ok s, v')) : v' = v := by
  rw [requireSubnet, run_get_bind] at h
  cases hs : v.subnet tier with
  | none =>
    rw [hs] at h
    cases (Prod.mk.inj h).1
  | some _ =>
    rw [hs] at h
    exact (Prod.mk.inj h).2.symm

theorem eq_of_run_getSecurityList {tier : SubnetTier} (v v' : Vcn) (sl : SecurityList)
    (h : (getSecurityList tier).run v = (.ok sl, v')) : v' = v := by
  rw [getSecurityList, run_get_bind, run_attempt] at h
  exact (Prod.mk.inj h).2.symm

theorem exports_pure : Exports (fun _ => []) (pure () : Py Vcn Unit) := by
  intro v v' a h
  obtain ⟨-, rfl⟩ := Prod.mk.inj h
  exact ⟨rfl, fun key => by simp⟩

theorem exports_exportFlowLogs : Exports flowLogsKeys exportFlowLogs := by
  intro v v' a h
  rw [exportFlowLogs, run_get_bind] at h
  cases hlogs : v.flowLogs with
  | none =>
    have hkeys : v.flowLogsKeys = [] := by rw [flowLogsKeys, hlogs]; rfl
    rw [hlogs] at h
    rw [hkeys]
    exact exports_pure v v' a h
  | some flowLogs =>
    have hkeys : v.flowLogsKeys = ["network_audit_log_group_id"] := by
      rw [flowLogsKeys, hlogs]
      rfl
    rw [hlogs] at h
    rw [hkeys]
    exact exports_pure.cons (fun _ _ => rfl) _ (.id flowLogs.logGroup) v v' a h

theorem exports_exportDrg_exportFlowLogs :
    Exports (fun v => drgKeys v ++ flowLogsKeys v) (exportDrg >>= fun _ => exportFlowLogs) := by
  intro v v' a h
  obtain ⟨_, w, hdrg, hlogs⟩ := run_bind_eq_ok.mp h
  rw [exportDrg, run_get_bind] at hdrg
  dsimp only
  cases hd : v.drg with
  | none =>
    have hkeys : v.drgKeys = [] := by rw [drgKeys, hd]; rfl
    rw [hd] at hdrg
    obtain ⟨-, rfl⟩ := Prod.mk.inj hdrg
    rw [hkeys]
    exact exports_exportFlowLogs v v' a hlogs
  | some drg =>
    cases ha : v.drgAttachment with
    | none =>
      have hkeys : v.drgKeys = [] := by rw [drgKeys, hd, ha]; rfl
      rw [hd, ha] at hdrg
      obtain ⟨-, rfl⟩ := Prod.mk.inj hdrg
      rw [hkeys]
      exact exports_exportFlowLogs v v' a hlogs
    | some attachment =>
      have hkeys : v.drgKeys = ["drg_id", "drg_attachment_id"] := by rw [drgKeys, hd, ha]; rfl
      rw [hd, ha] at hdrg
      obtain ⟨-, rfl⟩ := Prod.mk.inj hdrg
      have hboth := (exports_exportFlowLogs.cons (fun _ _ => rfl) "drg_attachment_id"
        (.id attachment)).cons (fun _ _ => rfl) "drg_id" (.id drg)
      rw [hkeys]
      exact hboth v v' a hlogs

end Exports

/-- **`exportKeys` is what `export` publishes**: an export that returns adds these keys. -/
theorem adds_of_run {v v' : Vcn} (h : exportOutputs.run v = (.ok ⟨⟩, v')) :
    Adds v'.exportKeys v.outputs v'.outputs := by
  obtain ⟨_, w, hfin, hrest⟩ := run_bind_eq_ok.mp h
  have hkept : w.outputs = v.outputs := by
    have hfinalize : Preserves (fun u : Vcn => u.outputs = v.outputs) finalizeNetwork :=
      preserves_finalizeNetwork (fun _ _ _ hu => hu) (fun _ _ hu => hu) fun _ _ _ _ _ _ hu => hu
    have hafter := hfinalize v rfl
    rwa [after, hfin] at hafter
  suffices hexports : Exports exportKeys _ by
    obtain ⟨hv', hadds⟩ := hexports w v' _ hrest
    rw [hkept] at hadds
    have hkeys : v'.exportKeys = w.exportKeys := by
      rw [hv']
      rfl
    rwa [hkeys]
  refine Exports.check (fun pub => ?_) eq_of_run_requireSubnet
  refine Exports.check (fun priv => ?_) eq_of_run_requireSubnet
  refine Exports.check (fun sec => ?_) eq_of_run_requireSubnet
  refine Exports.check (fun mgmt => ?_) eq_of_run_requireSubnet
  refine Exports.check (fun u => ?_) fun _ _ _ hget => (Prod.mk.inj hget).2.symm
  unfold exportKeys keysOf
  repeat' first
    | exact exports_exportDrg_exportFlowLogs
    | exact fun _ _ => rfl
    | exact eq_of_run_getSecurityList
    | refine Exports.cons ?_ ?_ _ _
    | refine Exports.check (fun sl => ?_) ?_

end Vcn

/-! ## The keys of the other spells -/

/-- `self.name.replace("-", "_")`. -/
def outputPrefix (name : String) : String :=
  String.ofList (name.toList.map fun c => if c = '-' then '_' else c)

/-- The key of an output: the name and a suffix. -/
def outputKey (name suffix : String) : String := outputPrefix name ++ "_" ++ suffix

theorem outputKey_injective (name : String) : Function.Injective (outputKey name) :=
  fun _ _ h => append_left_cancel h

/-- The attributes `_setup_ssh_keys` sets. -/
structure SshKeys where
  sshPublicKey : String
  sshPrivateKey : Option String
  autoGeneratedKeys : Bool
  deriving DecidableEq, Repr

/-- `self.auto_generated_keys and self.ssh_private_key`. -/
def SshKeys.exportsPrivateKey (keys : SshKeys) : Bool :=
  keys.autoGeneratedKeys && keys.sshPrivateKey.any (· ≠ "")

/-- A spell with an `export` of its own, other than a VCN; with its SSH keys, where it has some. -/
inductive Exporter
  | computeInstance (a : ComputeInstance) (ssh : SshKeys)
  | loadBalancer (b : Balancer)
  | internalLoadBalancer (b : Balancer)
  | scalableWorkload (a : ScalableWorkload) (ssh : SshKeys)
  | bastion (b : Bastion)
  | okeCluster (a : OkeCluster)
  | bucket (b : Bucket)
  | principal (p : Principal)
  | vcnFlowLogs (f : VcnFlowLogs)

namespace Exporter

/-- The logical name. -/
def name : Exporter → String
  | computeInstance a _ => a.namer.resourceName
  | loadBalancer b | internalLoadBalancer b => b.loadBalancer.namer.resourceName
  | scalableWorkload a _ => a.namer.resourceName
  | bastion b => b.namer.resourceName
  | okeCluster a => a.namer.resourceName
  | bucket b => b.namer.resourceName
  | principal p => p.namer.resourceName
  | vcnFlowLogs f => f.namer.resourceName

/-- The suffixes of the keys `export` publishes, in order; `dryRun` is
`pulumi.runtime.is_dry_run()`. -/
def suffixes (dryRun : Bool) : Exporter → List String
  | computeInstance a ssh =>
    ["id", "private_ip"] ++ (if a.subnet = .pub then ["public_ip"] else []) ++
    ["availability_domain", "shape", "fault_domain"] ++
    List.zipWith (fun spec _ => s!"{spec.label}_volume_id") a.volumesSpec a.blockVolumes ++
    ["ssh_public_key"] ++ if ssh.exportsPrivateKey then ["ssh_private_key"] else []
  | loadBalancer _ | internalLoadBalancer _ => ["lb_id", "lb_ip"]
  | scalableWorkload _ ssh =>
    ["lb_ip", "lb_id", "pool_id"] ++ if ssh.exportsPrivateKey then ["ssh_private_key"] else []
  | bastion _ => ["bastion_id", "bastion_endpoint"]
  | okeCluster _ =>
    ["cluster_id", "cluster_endpoint", "kubernetes_version", "lb_nsg_id"] ++
    if dryRun then [] else ["kubeconfig"]
  | bucket _ => ["bucket_name"]
  | principal p =>
    match p.spell with
    | .computeInstancePrincipal _ | .okeNodePrincipal => ["dynamic_group_id", "policy_id"]
    | .compartmentAdminGroup => ["group_id", "policy_id"]
  | vcnFlowLogs _ => ["log_group_id"]

/-- The keys `export` publishes. -/
def exportKeys (dryRun : Bool) (s : Exporter) : List String :=
  (s.suffixes dryRun).map (outputKey s.name)

end Exporter

/-! ## Kinds of outputs -/

/-- What the suffixes of a spell depend on, the labels of its volumes apart. -/
inductive OutputKind
  | computeInstance (isPublic generated : Bool)
  | loadBalancer
  | scalableWorkload (generated : Bool)
  | bastion
  | okeCluster (dryRun : Bool)
  | bucket
  | principal
  | adminGroup
  | vcnFlowLogs
  deriving DecidableEq, Repr

instance : Fintype OutputKind where
  elems := {.computeInstance false false, .computeInstance false true, .computeInstance true false,
    .computeInstance true true, .loadBalancer, .scalableWorkload false, .scalableWorkload true,
    .bastion, .okeCluster false, .okeCluster true, .bucket, .principal, .adminGroup, .vcnFlowLogs}
  complete k := by
    cases k with
    | computeInstance isPublic generated => cases isPublic <;> cases generated <;> decide
    | scalableWorkload generated => cases generated <;> decide
    | okeCluster dryRun => cases dryRun <;> decide
    | _ => decide

namespace OutputKind

/-- The suffixes of a kind. -/
def suffixes : OutputKind → List String
  | computeInstance isPublic generated =>
    ["id", "private_ip"] ++ (if isPublic then ["public_ip"] else []) ++
    ["availability_domain", "shape", "fault_domain", "ssh_public_key"] ++
    if generated then ["ssh_private_key"] else []
  | loadBalancer => ["lb_id", "lb_ip"]
  | scalableWorkload generated =>
    ["lb_ip", "lb_id", "pool_id"] ++ if generated then ["ssh_private_key"] else []
  | bastion => ["bastion_id", "bastion_endpoint"]
  | okeCluster dryRun =>
    ["cluster_id", "cluster_endpoint", "kubernetes_version", "lb_nsg_id"] ++
    if dryRun then [] else ["kubeconfig"]
  | bucket => ["bucket_name"]
  | principal => ["dynamic_group_id", "policy_id"]
  | adminGroup => ["group_id", "policy_id"]
  | vcnFlowLogs => ["log_group_id"]

/-- Kinds that publish under the same suffixes, or some of them. -/
def Shares : OutputKind → OutputKind → Bool
  | computeInstance _ _, computeInstance _ _ => true
  | computeInstance _ generated, scalableWorkload generated' => generated && generated'
  | scalableWorkload generated, computeInstance _ generated' => generated && generated'
  | loadBalancer, loadBalancer | loadBalancer, scalableWorkload _ => true
  | scalableWorkload _, loadBalancer | scalableWorkload _, scalableWorkload _ => true
  | bastion, bastion | bucket, bucket | vcnFlowLogs, vcnFlowLogs => true
  | okeCluster _, okeCluster _ => true
  | principal, principal | principal, adminGroup => true
  | adminGroup, principal | adminGroup, adminGroup => true
  | _, _ => false

/-- What precedes `_id` in the suffixes of a kind. -/
def idWords : OutputKind → List String
  | loadBalancer => ["lb"]
  | scalableWorkload _ => ["lb", "pool"]
  | bastion => ["bastion"]
  | okeCluster _ => ["cluster", "lb_nsg"]
  | principal => ["dynamic_group", "policy"]
  | adminGroup => ["group", "policy"]
  | vcnFlowLogs => ["log_group"]
  | _ => []

/-- What precedes `_group_id`. -/
def groupWords : OutputKind → List String
  | principal => ["dynamic"]
  | vcnFlowLogs => ["log"]
  | _ => []

/-- What a suffix of a kind has before a suffix of `long`: an instance publishes `id`, an
administrators' group publishes `group_id`. -/
def gaps (long : OutputKind) (k : OutputKind) : List String :=
  match long with
  | computeInstance _ _ => k.idWords
  | adminGroup => k.groupWords
  | _ => []

/-- What the keys of a VCN, with or without a gateway to the premises and flow logs, have before a
suffix of a kind. -/
def vcnWords (drg flowLogs : Bool) : OutputKind → List String
  | computeInstance _ _ =>
    ["vcn", "public_subnet", "private_subnet", "secure_subnet", "public_security_list",
     "private_security_list", "secure_security_list", "management_subnet",
     "management_security_list"] ++ (if drg then ["drg", "drg_attachment"] else []) ++
    if flowLogs then ["network_audit_log_group"] else []
  | adminGroup => if flowLogs then ["network_audit_log"] else []
  | vcnFlowLogs => if flowLogs then ["network_audit"] else []
  | _ => []

/-- What the strings of one list have before a string of the other. -/
def wordsBefore (suffixes keys : List String) : List String :=
  keys.flatMap fun key => suffixes.filterMap fun suffix => before? "_" suffix key

theorem mem_wordsBefore {suffixes keys : List String} {w : String} :
    w ∈ wordsBefore suffixes keys ↔ ∃ suffix ∈ suffixes, w ++ "_" ++ suffix ∈ keys := by
  simp only [wordsBefore, List.mem_flatMap, List.mem_filterMap, before?_eq_some]
  constructor
  · rintro ⟨key, hkey, suffix, hsuffix, rfl⟩
    exact ⟨suffix, hsuffix, hkey⟩
  · rintro ⟨suffix, hsuffix, hkey⟩
    exact ⟨_, hkey, suffix, hsuffix, rfl⟩

/-- **The tables are right**: which kinds share a suffix… -/
theorem shares_iff : ∀ k k' : OutputKind,
    (∃ suffix ∈ k.suffixes, suffix ∈ k'.suffixes) ↔ k.Shares k' = true := by decide

/-- …and what one kind has before a suffix of another. -/
theorem gaps_iff (long k : OutputKind) (w : String) :
    (∃ suffix ∈ long.suffixes, w ++ "_" ++ suffix ∈ k.suffixes) ↔ w ∈ long.gaps k := by
  have htable : ∀ long k : OutputKind,
      (∀ w ∈ wordsBefore long.suffixes k.suffixes, w ∈ long.gaps k) ∧
        ∀ w ∈ long.gaps k, w ∈ wordsBefore long.suffixes k.suffixes := by decide
  rw [← mem_wordsBefore]
  exact ⟨(htable long k).1 w, (htable long k).2 w⟩

/-- No suffix of a kind ends as that of a volume. -/
theorem not_volume_suffix : ∀ k : OutputKind, ∀ suffix ∈ k.suffixes,
    before? "" "volume_id" suffix = none := by decide

theorem nodup_suffixes : ∀ k : OutputKind, k.suffixes.Nodup := by decide

theorem isInstance_of_id_mem : ∀ k : OutputKind, "id" ∈ k.suffixes →
    ∃ isPublic generated, k = computeInstance isPublic generated := by decide

end OutputKind

namespace Vcn

theorem nodup_keysOf : ∀ drg flowLogs, (keysOf drg flowLogs).Nodup := by decide

/-- **…and what the keys of a VCN have before a suffix of a kind.** -/
theorem vcnWords_iff (drg flowLogs : Bool) (k : OutputKind) (w : String) :
    (∃ suffix ∈ k.suffixes, w ++ "_" ++ suffix ∈ keysOf drg flowLogs) ↔
      w ∈ k.vcnWords drg flowLogs := by
  have htable : ∀ drg flowLogs, ∀ k : OutputKind,
      (∀ w ∈ OutputKind.wordsBefore k.suffixes (keysOf drg flowLogs), w ∈ k.vcnWords drg flowLogs) ∧
        ∀ w ∈ k.vcnWords drg flowLogs,
          w ∈ OutputKind.wordsBefore k.suffixes (keysOf drg flowLogs) := by decide
  rw [← OutputKind.mem_wordsBefore]
  exact ⟨(htable drg flowLogs k).1 w, (htable drg flowLogs k).2 w⟩

theorem not_volume_key : ∀ drg flowLogs, ∀ key ∈ keysOf drg flowLogs,
    before? "" "volume_id" key = none := by decide

end Vcn

/-! ## Clashes -/

/-- What the keys of a spell depend on. -/
structure Outputs where
  name : String
  kind : OutputKind
  labels : List String
  deriving DecidableEq, Repr

namespace Outputs

/-- The suffixes: those of the kind, and one for each volume. -/
def suffixes (o : Outputs) : List String := o.kind.suffixes ++ o.labels.map (· ++ "_volume_id")

/-- The keys. -/
def keys (o : Outputs) : List String := o.suffixes.map (outputKey o.name)

/-- The labels are distinct and without underscores, and only an instance has any. -/
structure Valid (o : Outputs) : Prop where
  nodup : o.labels.Nodup
  label : ∀ l ∈ o.labels, '_' ∉ l.toList
  instance_of_label : ∀ l ∈ o.labels, ∃ isPublic generated,
    o.kind = .computeInstance isPublic generated

/-- What a suffix has before a suffix of `long`. -/
def gaps (long : OutputKind) (o : Outputs) : List String :=
  match long with
  | .computeInstance _ _ => long.gaps o.kind ++ o.labels.map (· ++ "_volume")
  | _ => long.gaps o.kind

/-- The name of `o` reads as that of `o'`, and goes on with what a suffix of `o'` has before a
suffix of `o`. -/
def Extends (o o' : Outputs) : Prop :=
  ∃ w ∈ o'.gaps o.kind, outputPrefix o.name = outputKey o'.name w

/-- The names of the two read the same, and their kinds share a suffix; or one extends the other. -/
def Clash (o o' : Outputs) : Prop :=
  (outputPrefix o.name = outputPrefix o'.name ∧ o.kind.Shares o'.kind = true) ∨
    o.Extends o' ∨ o'.Extends o

/-- The name reads as what a key of the VCN has before a suffix. -/
def InVcn (o : Outputs) (v : Vcn) : Prop :=
  outputPrefix o.name ∈
    o.kind.vcnWords (v.drg.isSome && v.drgAttachment.isSome) v.flowLogs.isSome

instance (o o' : Outputs) : Decidable (o.Extends o') :=
  inferInstanceAs (Decidable (∃ w ∈ _, _ = _))

instance (o o' : Outputs) : Decidable (o.Clash o') := inferInstanceAs (Decidable (_ ∨ _))

instance (o : Outputs) (v : Vcn) : Decidable (o.InVcn v) := inferInstanceAs (Decidable (_ ∈ _))

variable {o o' : Outputs} {w : String}

theorem mem_suffixes {suffix : String} :
    suffix ∈ o.suffixes ↔
      suffix ∈ o.kind.suffixes ∨ ∃ l ∈ o.labels, suffix = l ++ "_volume_id" := by
  simp only [suffixes, List.mem_append, List.mem_map, eq_comm]

theorem mem_gaps {long : OutputKind} : w ∈ o.gaps long ↔ w ∈ long.gaps o.kind ∨
    ∃ isPublic generated, long = .computeInstance isPublic generated ∧
      ∃ l ∈ o.labels, w = l ++ "_volume" := by
  cases long with
  | computeInstance isPublic generated =>
    rw [gaps, List.mem_append, List.mem_map]
    refine or_congr_right ⟨?_, ?_⟩
    · rintro ⟨l, hl, rfl⟩
      exact ⟨isPublic, generated, rfl, l, hl, rfl⟩
    · rintro ⟨_, _, -, l, hl, rfl⟩
      exact ⟨l, hl, rfl⟩
  | _ => simp [gaps]

/-- The suffix of a volume, with what it ends in. -/
theorem volume_suffix_eq (l : String) : l ++ "_volume_id" = l ++ "_" ++ "volume_id" := by
  rw [String.append_assoc]
  rfl

/-- The suffix of a kind is not that of a volume. -/
theorem ne_volume_suffix {k : OutputKind} {suffix : String} (h : suffix ∈ k.suffixes) (x : String) :
    suffix ≠ x ++ "volume_id" := by
  rintro rfl
  have hnone := k.not_volume_suffix _ h
  rw [before?_eq_some.mpr (by rw [String.append_empty])] at hnone
  cases hnone

/-- What is joined with an underscore has one. -/
theorem underscore_mem (x y : String) : '_' ∈ (x ++ "_" ++ y).toList := by
  simp [String.toList_append]

/-- Two spells have a suffix in common where their kinds have. -/
theorem exists_common_suffix_iff (h : o.Valid) (h' : o'.Valid) :
    (∃ suffix ∈ o.suffixes, suffix ∈ o'.suffixes) ↔ o.kind.Shares o'.kind = true := by
  constructor
  · rintro ⟨suffix, hsuffix, hsuffix'⟩
    rcases mem_suffixes.mp hsuffix with hk | ⟨l, hl, rfl⟩
    · rcases mem_suffixes.mp hsuffix' with hk' | ⟨l', -, rfl⟩
      · exact (OutputKind.shares_iff _ _).mp ⟨suffix, hk, hk'⟩
      · exact absurd (volume_suffix_eq l') (ne_volume_suffix hk _)
    · rcases mem_suffixes.mp hsuffix' with hk' | ⟨l', hl', -⟩
      · exact absurd (volume_suffix_eq l) (ne_volume_suffix hk' _)
      · obtain ⟨_, _, hkind⟩ := h.instance_of_label l hl
        obtain ⟨_, _, hkind'⟩ := h'.instance_of_label l' hl'
        rw [hkind, hkind']
        rfl
  · intro hshares
    obtain ⟨suffix, hk, hk'⟩ := (OutputKind.shares_iff _ _).mpr hshares
    exact ⟨suffix, mem_suffixes.mpr (.inl hk), mem_suffixes.mpr (.inl hk')⟩

/-- What is before the suffix of a kind in that of a volume: the label, where the suffix is `id`. -/
theorem eq_of_volume_eq {k : OutputKind} {suffix l : String} (hk : suffix ∈ k.suffixes)
    (hl : '_' ∉ l.toList) (h : w ++ "_" ++ suffix = l ++ "_volume_id") :
    w = l ++ "_volume" ∧ suffix = "id" := by
  have hid : l ++ "_volume_id" = l ++ "_volume" ++ "_" ++ "id" := by
    simp only [String.append_assoc]
    rfl
  rw [hid, joined_eq_iff rfl] at h
  rcases h with ⟨hw, hsuffix⟩ | ⟨x, -, hx⟩ | ⟨x, hx, hsuffix⟩
  · exact ⟨hw, hsuffix⟩
  · have hmem := underscore_mem x suffix
    rw [← hx] at hmem
    exact absurd hmem (by decide)
  · have hvolume : l ++ "_volume" = l ++ "_" ++ "volume" := by
      rw [String.append_assoc]
      rfl
    rw [hvolume, joined_eq_iff rfl] at hx
    rcases hx with ⟨-, rfl⟩ | ⟨y, hy, -⟩ | ⟨y, -, hy⟩
    · exact absurd hsuffix (ne_volume_suffix hk "")
    · rw [hy] at hl
      exact absurd (underscore_mem w y) hl
    · have hmem := underscore_mem y x
      rw [← hy] at hmem
      exact absurd hmem (by decide)

/-- **What a suffix of one spell has before a suffix of another** is in the table. -/
theorem gaps_iff (h' : o'.Valid) :
    (∃ suffix ∈ o.suffixes, w ++ "_" ++ suffix ∈ o'.suffixes) ↔ w ∈ o'.gaps o.kind := by
  constructor
  · rintro ⟨suffix, hsuffix, hsuffix'⟩
    rcases mem_suffixes.mp hsuffix with hk | ⟨l, -, rfl⟩
    · rcases mem_suffixes.mp hsuffix' with hk' | ⟨l', hl', heq⟩
      · exact mem_gaps.mpr (.inl ((OutputKind.gaps_iff _ _ w).mp ⟨suffix, hk, hk'⟩))
      · obtain ⟨rfl, rfl⟩ := eq_of_volume_eq hk (h'.label l' hl') heq
        obtain ⟨_, _, hkind⟩ := OutputKind.isInstance_of_id_mem _ hk
        rw [hkind]
        exact List.mem_append_right _ (List.mem_map_of_mem hl')
    · have hvolume : w ++ "_" ++ (l ++ "_volume_id") = w ++ "_" ++ l ++ "_" ++ "volume_id" := by
        rw [← String.append_assoc, volume_suffix_eq]
      rcases mem_suffixes.mp hsuffix' with hk' | ⟨l', hl', heq⟩
      · exact absurd hvolume (ne_volume_suffix hk' _)
      · rw [← String.append_assoc] at heq
        have hlabel : w ++ "_" ++ l = l' := append_right_cancel heq
        exact absurd (hlabel ▸ underscore_mem w l) (h'.label l' hl')
  · intro hw
    rcases mem_gaps.mp hw with hk | ⟨_, _, hkind, l, hl, rfl⟩
    · obtain ⟨suffix, hsuffix, hsuffix'⟩ := (OutputKind.gaps_iff _ _ w).mpr hk
      exact ⟨suffix, mem_suffixes.mpr (.inl hsuffix), mem_suffixes.mpr (.inl hsuffix')⟩
    · refine ⟨"id", mem_suffixes.mpr (.inl ?_), mem_suffixes.mpr (.inr ⟨l, hl, ?_⟩)⟩
      · rw [hkind]
        exact List.mem_cons_self
      · simp only [String.append_assoc]
        rfl

/-- **Two spells publish a key in common iff they clash.** -/
theorem exists_common_key_iff (h : o.Valid) (h' : o'.Valid) :
    (∃ key ∈ o.keys, key ∈ o'.keys) ↔ o.Clash o' := by
  have hkeys : (∃ key ∈ o.keys, key ∈ o'.keys) ↔ ∃ suffix ∈ o.suffixes, ∃ suffix' ∈ o'.suffixes,
      outputKey o.name suffix = outputKey o'.name suffix' := by
    simp only [keys, List.mem_map]
    constructor
    · rintro ⟨_, ⟨suffix, hsuffix, rfl⟩, suffix', hsuffix', heq⟩
      exact ⟨suffix, hsuffix, suffix', hsuffix', heq.symm⟩
    · rintro ⟨suffix, hsuffix, suffix', hsuffix', heq⟩
      exact ⟨_, ⟨suffix, hsuffix, rfl⟩, suffix', hsuffix', heq.symm⟩
  rw [hkeys, Clash, Extends, Extends]
  simp only [← exists_common_suffix_iff h h', ← gaps_iff h, ← gaps_iff h', outputKey,
    joined_eq_iff (show "_".toList = ['_'] from rfl)]
  constructor
  · rintro ⟨suffix, hs, suffix', hs', ⟨hname, rfl⟩ | ⟨w, hname, rfl⟩ | ⟨w, hname, rfl⟩⟩
    · exact .inl ⟨hname, suffix, hs, hs'⟩
    · exact .inr (.inl ⟨w, ⟨suffix, hs, hs'⟩, hname⟩)
    · exact .inr (.inr ⟨w, ⟨suffix', hs', hs⟩, hname⟩)
  · rintro (⟨hname, suffix, hs, hs'⟩ | ⟨w, ⟨suffix, hs, hs'⟩, hname⟩ |
      ⟨w, ⟨suffix, hs, hs'⟩, hname⟩)
    · exact ⟨suffix, hs, suffix, hs', .inl ⟨hname, rfl⟩⟩
    · exact ⟨suffix, hs, _, hs', .inr (.inl ⟨w, hname, rfl⟩)⟩
    · exact ⟨_, hs', suffix, hs, .inr (.inr ⟨w, hname, rfl⟩)⟩

/-- **A spell publishes a key of the VCN iff it is named as one of its words.** -/
theorem exists_vcn_key_iff (o : Outputs) (v : Vcn) :
    (∃ key ∈ v.exportKeys, key ∈ o.keys) ↔ o.InVcn v := by
  rw [InVcn, ← Vcn.vcnWords_iff]
  constructor
  · rintro ⟨key, hkey, hmem⟩
    obtain ⟨suffix, hsuffix, rfl⟩ := List.mem_map.mp hmem
    rcases mem_suffixes.mp hsuffix with hk | ⟨l, -, rfl⟩
    · exact ⟨suffix, hk, hkey⟩
    · have hnone := Vcn.not_volume_key _ _ _ hkey
      have hvolume : outputKey o.name (l ++ "_volume_id") =
          outputKey o.name (l ++ "_") ++ "" ++ "volume_id" := by
        rw [volume_suffix_eq, String.append_empty, outputKey, outputKey]
        simp only [String.append_assoc]
      rw [before?_eq_some.mpr hvolume] at hnone
      cases hnone
  · rintro ⟨suffix, hk, hkey⟩
    exact ⟨_, hkey, List.mem_map_of_mem (mem_suffixes.mpr (.inl hk))⟩

/-- **A spell publishes no key twice.** -/
theorem nodup_keys (h : o.Valid) : o.keys.Nodup := by
  refine List.Nodup.map (outputKey_injective o.name) (List.nodup_append.mpr ⟨?_, ?_, ?_⟩)
  · exact o.kind.nodup_suffixes
  · exact h.nodup.map fun _ _ heq => append_right_cancel heq
  · rintro suffix hk _ hl rfl
    obtain ⟨l, -, heq⟩ := List.mem_map.mp hl
    exact ne_volume_suffix hk (l ++ "_") (heq.symm.trans (volume_suffix_eq l))

/-- **No key of a stack is published twice iff** no two of its spells clash, and none is named as a
word of the VCN's keys. -/
theorem nodup_keys_iff {os : List Outputs} (h : ∀ o ∈ os, o.Valid) (vcn : Option Vcn) :
    ((vcn.map Vcn.exportKeys).getD [] ++ os.flatMap keys).Nodup ↔
      (∀ v, vcn = some v → ∀ o ∈ os, ¬ o.InVcn v) ∧ os.Pairwise fun o o' => ¬ o.Clash o' := by
  have hvcn : ((vcn.map Vcn.exportKeys).getD []).Nodup := by
    cases vcn with
    | none => exact List.nodup_nil
    | some v => exact Vcn.nodup_keysOf _ _
  have hdisjoint : (∀ a ∈ (vcn.map Vcn.exportKeys).getD [], ∀ b ∈ os.flatMap keys, a ≠ b) ↔
      ∀ v, vcn = some v → ∀ o ∈ os, ¬ o.InVcn v := by
    cases vcn with
    | none => simp
    | some v =>
      simp only [Option.map_some, Option.getD_some, List.mem_flatMap, Option.some.injEq,
        forall_eq']
      constructor
      · intro hne o ho hin
        obtain ⟨key, hkey, hmem⟩ := (exists_vcn_key_iff o v).mpr hin
        exact hne key hkey key ⟨o, ho, hmem⟩ rfl
      · rintro hnot key hkey _ ⟨o, ho, hmem⟩ rfl
        exact hnot o ho ((exists_vcn_key_iff o v).mp ⟨key, hkey, hmem⟩)
  have hpairs : os.Pairwise (fun o o' => List.Disjoint o.keys o'.keys) ↔
      os.Pairwise fun o o' => ¬ o.Clash o' := by
    refine List.Pairwise.iff_of_mem fun {o o'} ho ho' => ?_
    rw [← exists_common_key_iff (h o ho) (h o' ho')]
    simp only [List.disjoint_left, not_exists, not_and]
  rw [List.nodup_append, hdisjoint, List.nodup_flatMap, hpairs]
  refine ⟨fun hall => ⟨hall.2.2, hall.2.1.2⟩, fun hall => ⟨hvcn, ⟨?_, hall.2⟩, hall.1⟩⟩
  exact fun o ho => nodup_keys (h o ho)

end Outputs

/-! ## The outputs of a stack -/

/-- A label that is accepted. -/
theorem VolumeFields.isLabel_of_postInit {spec : VolumeFields} (h : spec.postInit = .ok ⟨⟩) :
    isLabel spec.label = true := by
  unfold postInit at h
  split_ifs at h with _ _ _ hlabel
  simpa using hlabel

/-- **No label has an underscore.** -/
theorem VolumeSpec.underscore_notMem_label (spec : VolumeSpec) : '_' ∉ spec.label.toList := by
  intro hmem
  have hlabel := VolumeFields.isLabel_of_postInit spec.valid
  simp only [VolumeFields.isLabel, Bool.and_eq_true, List.all_eq_true] at hlabel
  have hchars : '_' ∈ if spec.label.toList.getLast? = some '\n' then spec.label.toList.dropLast
      else spec.label.toList := by
    split
    · rename_i hlast
      rw [← List.dropLast_append_getLast? _ hlast, List.mem_append, List.mem_singleton] at hmem
      exact hmem.resolve_right (by decide)
    · exact hmem
  obtain ⟨part, hpart, hc⟩ := exists_mem_splitOn hchars (show '_' ≠ '-' by decide)
  have hchar := (hlabel.2 part hpart).2 '_' hc
  exact absurd hchar (by decide)

namespace Exporter

/-- The kind of a spell. -/
def kind (dryRun : Bool) : Exporter → OutputKind
  | computeInstance a ssh => .computeInstance (a.subnet = .pub) ssh.exportsPrivateKey
  | loadBalancer _ | internalLoadBalancer _ => .loadBalancer
  | scalableWorkload _ ssh => .scalableWorkload ssh.exportsPrivateKey
  | bastion _ => .bastion
  | okeCluster _ => .okeCluster dryRun
  | bucket _ => .bucket
  | principal p =>
    match p.spell with
    | .computeInstancePrincipal _ | .okeNodePrincipal => .principal
    | .compartmentAdminGroup => .adminGroup
  | vcnFlowLogs _ => .vcnFlowLogs

/-- The labels of the volumes of an instance. -/
def labels : Exporter → List String
  | computeInstance a _ => a.volumesSpec.map fun spec => spec.label
  | _ => []

/-- What the keys of a spell depend on. -/
def outputs (dryRun : Bool) (s : Exporter) : Outputs where
  name := s.name
  kind := s.kind dryRun
  labels := s.labels

/-- The spell was built, on any VCN in any state. -/
def Built : Exporter → Prop
  | computeInstance a _ => ∃ nsg args v v', (ComputeInstance.init nsg args).run v = (.ok a, v')
  | loadBalancer b => ∃ args v v', (LoadBalancer.init args).run v = (.ok b, v')
  | internalLoadBalancer b => ∃ args v v', (InternalLoadBalancer.init args).run v = (.ok b, v')
  | scalableWorkload a _ => ∃ args v v', (ScalableWorkload.init args).run v = (.ok a, v')
  | bastion b => ∃ args v v', (Bastion.init args).run v = (.ok b, v')
  | okeCluster a => ∃ args v v', (OkeCluster.init args).run v = (.ok a, v')
  | bucket b => ∃ args, Bucket.init args = .ok b
  | principal p => ∃ args, Principal.init args = .ok p
  | vcnFlowLogs f => ∃ args v v', (VcnFlowLogs.init Vcn.finalizeNetwork args).run v = (.ok f, v')

variable {s : Exporter} {dryRun : Bool}

/-- The volumes of an instance that was built are those of its specifications. -/
theorem volumes_of_built {a : ComputeInstance} {ssh : SshKeys}
    (h : (computeInstance a ssh).Built) :
    (a.volumesSpec.map fun spec => spec.label).Nodup ∧
      a.blockVolumes.length = a.volumesSpec.length := by
  obtain ⟨nsg, args, v, v', hrun⟩ := h
  obtain ⟨specs, _, hcheck, -, -, hcreate⟩ := run_construct_eq_ok.mp hrun
  obtain ⟨-, -, hnodup⟩ := ComputeInstance.check_eq_ok.mp hcheck
  simp only [ComputeInstance.create, bind_eq_ok] at hcreate
  obtain ⟨_, -, _, -, ha⟩ := hcreate
  obtain rfl := Except.ok.inj ha
  exact ⟨hnodup, List.length_mapIdx⟩

theorem valid_of_built (h : s.Built) : (s.outputs dryRun).Valid := by
  cases s with
  | computeInstance a ssh =>
    refine ⟨(volumes_of_built h).1, fun l hl => ?_, fun l _ => ⟨_, _, rfl⟩⟩
    obtain ⟨spec, -, rfl⟩ := List.mem_map.mp hl
    exact spec.underscore_notMem_label
  | _ => exact ⟨List.nodup_nil, fun l hl => absurd hl List.not_mem_nil, fun l hl =>
      absurd hl List.not_mem_nil⟩

/-- **The keys are those of the kind and the labels**, in the order of the source. -/
theorem perm_exportKeys (h : s.Built) : (s.exportKeys dryRun).Perm (s.outputs dryRun).keys := by
  refine List.Perm.map _ ?_
  cases s with
  | computeInstance a ssh =>
    have hvolumes : List.zipWith (fun (spec : VolumeSpec) _ => s!"{spec.label}_volume_id")
        a.volumesSpec a.blockVolumes =
        (a.volumesSpec.map fun spec => spec.label).map (· ++ "_volume_id") := by
      refine List.ext_getElem (by simp [(volumes_of_built h).2]) fun i _ _ => ?_
      rw [List.getElem_zipWith, List.getElem_map, List.getElem_map]
      rfl
    simp only [suffixes, Outputs.suffixes, outputs, kind, labels, hvolumes, OutputKind.suffixes,
      decide_eq_true_eq]
    refine List.perm_iff_count.mpr fun key => ?_
    simp only [List.count_append, List.count_cons, List.count_nil]
    omega
  | principal p =>
    obtain ⟨_, spell, _, _⟩ := p
    cases spell <;> simp [suffixes, Outputs.suffixes, outputs, kind, labels, OutputKind.suffixes]
  | _ => simp [suffixes, Outputs.suffixes, outputs, kind, labels, OutputKind.suffixes]

/-- **No output of a stack is overwritten iff** no two of its spells clash, and none is named as a
word of the VCN's keys. -/
theorem nodup_exportKeys_iff (dryRun : Bool) (vcn : Option Vcn) {spells : List Exporter}
    (h : ∀ s ∈ spells, s.Built) :
    ((vcn.map Vcn.exportKeys).getD [] ++ spells.flatMap (exportKeys dryRun)).Nodup ↔
      (∀ v, vcn = some v → ∀ s ∈ spells, ¬ (s.outputs dryRun).InVcn v) ∧
        spells.Pairwise fun s t => ¬ (s.outputs dryRun).Clash (t.outputs dryRun) := by
  have hvalid : ∀ o ∈ spells.map (outputs dryRun), o.Valid := by
    intro o ho
    obtain ⟨s, hs, rfl⟩ := List.mem_map.mp ho
    exact valid_of_built (h s hs)
  have hkeys : (spells.flatMap (exportKeys dryRun)).Perm
      ((spells.map (outputs dryRun)).flatMap Outputs.keys) := by
    rw [List.flatMap_map]
    exact List.Perm.flatMap_left _ fun s hs => perm_exportKeys (h s hs)
  rw [(hkeys.append_left _).nodup_iff, Outputs.nodup_keys_iff hvalid vcn, List.pairwise_map]
  simp only [List.forall_mem_map]

/-- The arguments of flow logs of this name. -/
def auditArgs (name : String) : FlowLogsArgs where
  name := name
  stackName := "dev"

/-- The arguments of a balancer. -/
def appArgs : LoadBalancerArgs where
  name := "app"
  stackName := "dev"

/-- The arguments of an instance. -/
def appLbArgs : ComputeArgs where
  name := "app-lb"
  stackName := "dev"

theorem exists_flowLogs : ∀ name, ∃ f v,
    (VcnFlowLogs.init Vcn.finalizeNetwork (auditArgs name)).run defaultBase.fresh = (.ok f, v) ∧
      f.namer.resourceName = name := fun _ => ⟨_, _, rfl, rfl⟩

theorem exists_balancer : ∃ b v, (LoadBalancer.init appArgs).run defaultBase.fresh = (.ok b, v) ∧
    b.loadBalancer.namer.resourceName = "app" := ⟨_, _, rfl, rfl⟩

theorem exists_instance : ∃ a v,
    (ComputeInstance.init none appLbArgs).run defaultBase.fresh = (.ok a, v) ∧
      a.namer.resourceName = "app-lb" := by
  have hcheck : ComputeInstance.check appLbArgs = .ok [VolumeSpec.default] :=
    ComputeInstance.check_eq_ok.mpr ⟨rfl, by simp, by simp⟩
  exact ⟨_, _, run_construct_eq_ok.mpr ⟨_, _, hcheck, rfl, rfl, rfl⟩, rfl⟩

/-- Flow logs and a balancer, beside a VCN. -/
theorem nodup_exportKeys_iff_audit : ∃ f b, (vcnFlowLogs f).name = "lab-a" ∧
    (loadBalancer b).name = "app" ∧ (defaultBase.fresh.materialized.exportKeys ++
      [vcnFlowLogs f, loadBalancer b].flatMap (exportKeys false)).Nodup := by
  obtain ⟨f, v, hf, hfname⟩ := exists_flowLogs "lab-a"
  obtain ⟨b, v', hb, hbname⟩ := exists_balancer
  have hlogs : (vcnFlowLogs f).outputs false = ⟨"lab-a", .vcnFlowLogs, []⟩ :=
    congrArg (fun name => Outputs.mk name .vcnFlowLogs []) hfname
  have hbalancer : (loadBalancer b).outputs false = ⟨"app", .loadBalancer, []⟩ :=
    congrArg (fun name => Outputs.mk name .loadBalancer []) hbname
  have hbuilt : ∀ s ∈ [vcnFlowLogs f, loadBalancer b], s.Built := by
    intro s hs
    simp only [List.mem_cons, List.not_mem_nil, or_false] at hs
    rcases hs with rfl | rfl
    · exact ⟨_, _, _, hf⟩
    · exact ⟨_, _, _, hb⟩
  refine ⟨f, b, hfname, hbname,
    (nodup_exportKeys_iff false (some defaultBase.fresh.materialized) hbuilt).mpr ⟨?_, ?_⟩⟩
  · intro u hu s hs
    obtain rfl := Option.some.inj hu
    simp only [List.mem_cons, List.not_mem_nil, or_false] at hs
    rcases hs with rfl | rfl
    · rw [hlogs]
      decide
    · rw [hbalancer]
      decide
  · rw [List.pairwise_pair, hlogs, hbalancer]
    decide

/-- Flow logs named with a hyphen and with an underscore publish one key; an instance named as a
balancer and `-lb` publishes one of the balancer's. -/
theorem output_overwritten :
    (∃ f f', (vcnFlowLogs f).Built ∧ (vcnFlowLogs f').Built ∧
      (vcnFlowLogs f).name = "lab-a" ∧ (vcnFlowLogs f').name = "lab_a" ∧
      "lab_a_log_group_id" ∈ (vcnFlowLogs f).exportKeys false ∧
      "lab_a_log_group_id" ∈ (vcnFlowLogs f').exportKeys false) ∧
    ∃ b a, ∀ ssh, (loadBalancer b).Built ∧ (computeInstance a ssh).Built ∧
      (loadBalancer b).name = "app" ∧ (computeInstance a ssh).name = "app-lb" ∧
      "app_lb_id" ∈ (loadBalancer b).exportKeys false ∧
      "app_lb_id" ∈ (computeInstance a ssh).exportKeys false := by
  obtain ⟨f, _, hf, hfname⟩ := exists_flowLogs "lab-a"
  obtain ⟨f', _, hf', hfname'⟩ := exists_flowLogs "lab_a"
  obtain ⟨b, _, hb, hbname⟩ := exists_balancer
  obtain ⟨a, _, ha, haname⟩ := exists_instance
  refine ⟨⟨f, f', ⟨_, _, _, hf⟩, ⟨_, _, _, hf'⟩, hfname, hfname', ?_, ?_⟩, b, a, fun ssh =>
    ⟨⟨_, _, _, hb⟩, ⟨_, _, _, _, ha⟩, hbname, haname, ?_, ?_⟩⟩
  · have hkey : "lab_a_log_group_id" = outputKey "lab-a" "log_group_id" := by decide
    rw [hkey, ← hfname]
    exact List.mem_singleton.mpr rfl
  · have hkey : "lab_a_log_group_id" = outputKey "lab_a" "log_group_id" := by decide
    rw [hkey, ← hfname']
    exact List.mem_singleton.mpr rfl
  · have hkey : "app_lb_id" = outputKey "app" "lb_id" := by decide
    rw [hkey, ← hbname]
    exact List.mem_cons_self
  · have hkey : "app_lb_id" = outputKey "app-lb" "id" := by decide
    rw [hkey, ← haname]
    exact List.mem_cons_self

end Exporter

end CloudSpells
