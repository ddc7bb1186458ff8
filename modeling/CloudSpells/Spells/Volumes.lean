import CloudSpells.Spells.Compute

/-!
# Spells/Volumes — the volumes of an instance, and how they are looked up

`_attach_block_volumes` goes through the specs of an instance and appends a volume and its
attachment to two lists.  Four lookups go through the specs and one of these lists side by side, and
stop at the first spec of the label asked for; where the lists were of different lengths, the longer
one would be cut short.

They are not: the two lists are parallel to the specs (`attachBlockVolumes_eq`), so that a label
finds what was made for its own spec (`volumes_of_init`).
-/

namespace CloudSpells

open Machinery Machinery.Exec

/-- `KeyError`. -/
structure KeyError where
  message : String
  deriving DecidableEq, Repr

/-- `oci.core.Volume`. -/
structure Volume where
  resource : Resource
  sizeInGbs : ℤ
  vpusPerGb : ℤ
  /-- The tags `Label` and `AttachedTo`. -/
  label : String
  attachedTo : String
  deriving DecidableEq, Repr

/-- `oci.core.VolumeAttachment`. -/
structure VolumeAttachment where
  resource : Resource
  instanceId : Resource
  volumeId : Resource
  isReadOnly : Bool
  device : Option String
  deriving DecidableEq, Repr

/-- A `ComputeInstance`, with what its volumes and attachments refer to. -/
structure MountedInstance extends ComputeInstance where
  volumes : List Volume
  attachments : List VolumeAttachment

namespace MountedInstance

/-! ## Attaching -/

/-- The volume of a spec. -/
def newVolume (a : ComputeInstance) (index : ℕ) (spec : VolumeSpec) : Volume where
  resource := ComputeInstance.volume a.namer index spec
  sizeInGbs := spec.sizeInGbs
  vpusPerGb := spec.vpusPerGb
  label := spec.label
  attachedTo := a.instanceResource.name

/-- The attachment of that volume. -/
def newAttachment (a : ComputeInstance) (index : ℕ) (spec : VolumeSpec) (volume : Volume) :
    VolumeAttachment where
  resource := ComputeInstance.attachment a.namer index spec
  instanceId := a.instanceResource
  volumeId := volume.resource
  isReadOnly := spec.isReadOnly
  device := spec.device

/-- One round of `_attach_block_volumes`. -/
def attachBlockVolume (a : ComputeInstance) (made : List Volume × List VolumeAttachment)
    (entry : VolumeSpec × ℕ) : List Volume × List VolumeAttachment :=
  let volume := newVolume a entry.2 entry.1
  (made.1 ++ [volume], made.2 ++ [newAttachment a entry.2 entry.1 volume])

/-- `_attach_block_volumes`. -/
def attachBlockVolumes (a : ComputeInstance) : List Volume × List VolumeAttachment :=
  a.volumesSpec.zipIdx.foldl (attachBlockVolume a) ([], [])

/-- `ComputeInstance(…)`, its volumes and attachments included. -/
def init (nsg : Option Nsg) (args : ComputeArgs) : Py Vcn MountedInstance := do
  let a ← ComputeInstance.init nsg args
  let made := attachBlockVolumes a
  pure { toComputeInstance := a, volumes := made.1, attachments := made.2 }

/-! ## Looking up -/

/-- `for spec, x in zip(specs, xs): if spec.label == label: return x`. -/
def lookup {α : Type} (specs : List VolumeSpec) (xs : List α) (label : String) : Option α :=
  ((specs.zip xs).find? fun pair => pair.1.label = label).map Prod.snd

/-- The `repr` of the list of labels. -/
def availableLabels (a : MountedInstance) : String :=
  "[" ++ ", ".intercalate (a.volumesSpec.map fun spec => pyRepr spec.label) ++ "]"

/-- A lookup that raises `KeyError` where nothing is found; `what` is looked for. -/
def getByLabel {α : Type} (a : MountedInstance) (what : String) (xs : List α) (label : String) :
    Except KeyError α :=
  match lookup a.volumesSpec xs label with
  | some x => .ok x
  | none => .error
    ⟨s!"No {what} with label {pyRepr label}. Available labels: {a.availableLabels}"⟩

/-- `get_volume`. -/
def getVolume (a : MountedInstance) (label : String) : Except KeyError Volume :=
  a.getByLabel "volume" a.volumes label

/-- `get_volume_id`. -/
def getVolumeId (a : MountedInstance) (label : String) : Except KeyError Input :=
  a.getByLabel "volume" (a.volumes.map fun volume => .id volume.resource) label

/-- `get_disk_id`. -/
def getDiskId (a : MountedInstance) (label : String) : Except KeyError Input := a.getVolumeId label

/-- `get_volume_attachment`. -/
def getVolumeAttachment (a : MountedInstance) (label : String) : Except KeyError VolumeAttachment :=
  a.getByLabel "volume attachment" a.attachments label

/-! ## The two lists -/

theorem foldl_attachBlockVolume (a : ComputeInstance) (entries : List (VolumeSpec × ℕ))
    (made : List Volume × List VolumeAttachment) :
    entries.foldl (attachBlockVolume a) made =
      (made.1 ++ entries.map (fun e => newVolume a e.2 e.1),
        made.2 ++ entries.map fun e => newAttachment a e.2 e.1 (newVolume a e.2 e.1)) := by
  induction entries generalizing made with
  | nil => simp
  | cons e entries ih =>
    rw [List.foldl_cons, ih]
    simp only [attachBlockVolume, List.map_cons, List.append_assoc, List.singleton_append]

/-- **The loop makes one volume and one attachment for each spec**, in order. -/
theorem attachBlockVolumes_eq (a : ComputeInstance) : attachBlockVolumes a =
    (a.volumesSpec.mapIdx (newVolume a),
      a.volumesSpec.mapIdx fun i spec => newAttachment a i spec (newVolume a i spec)) := by
  rw [attachBlockVolumes, foldl_attachBlockVolume, List.mapIdx_eq_zipIdx_map,
    List.mapIdx_eq_zipIdx_map]
  rfl

theorem map_mapIdx {α β γ : Type} (f : β → γ) (g : ℕ → α → β) (l : List α) :
    (l.mapIdx g).map f = l.mapIdx fun i x => f (g i x) := by
  rw [List.mapIdx_eq_zipIdx_map, List.map_map, List.mapIdx_eq_zipIdx_map]
  rfl

/-- Names by position are distinct where the suffixes are. -/
theorem nodup_names {α : Type} {namer : ResourceNamer} {stem : String} {specs : List VolumeSpec}
    {make : ℕ → VolumeSpec → α} {name : α → String}
    (h : ∀ i spec, name (make i spec) = namer.createResourceName (ordinalSuffix stem i)) :
    ((specs.mapIdx make).map name).Nodup := by
  rw [List.nodup_iff_injective_getElem]
  intro i j hij
  simp only [List.getElem_map, List.getElem_mapIdx, h] at hij
  exact Fin.ext (ordinalSuffix_injective stem (namer.createResourceName_injective hij))

/-! ## Finding -/

section Lookup

variable {α : Type} {specs : List VolumeSpec} {xs : List α} {label : String}

/-- **A label finds what stands beside its spec**, where labels are distinct. -/
theorem lookup_eq_some (hnodup : (specs.map fun spec => spec.label).Nodup) {i : ℕ}
    {spec : VolumeSpec} {x : α} (hspec : specs[i]? = some spec) (hx : xs[i]? = some x) :
    lookup specs xs spec.label = some x := by
  induction specs generalizing xs i with
  | nil => cases hspec
  | cons s specs ih =>
    obtain ⟨hfresh, hnodup⟩ := List.nodup_cons.mp hnodup
    cases xs with
    | nil => cases hx
    | cons y xs =>
      cases i with
      | zero =>
        obtain rfl := Option.some.inj hspec
        obtain rfl := Option.some.inj hx
        simp [lookup]
      | succ i =>
        have hne : s.label ≠ spec.label := fun heq =>
          hfresh (List.mem_map.mpr ⟨spec, List.mem_of_getElem? hspec, heq.symm⟩)
        rw [lookup, List.zip_cons_cons, List.find?_cons_of_neg (by simpa using hne)]
        exact ih hnodup hspec hx

/-- …and a label of no spec finds nothing. -/
theorem lookup_eq_none (h : ∀ spec ∈ specs, spec.label ≠ label) : lookup specs xs label = none := by
  rw [lookup, Option.map_eq_none_iff, List.find?_eq_none]
  intro pair hpair
  simpa using h pair.1 (List.of_mem_zip hpair).1

end Lookup

/-- The four lookups find what was made for one spec. -/
structure Finds (a : MountedInstance) (label : String) (volume : Volume)
    (attachment : VolumeAttachment) : Prop where
  getVolume_eq : a.getVolume label = .ok volume
  getVolumeId_eq : a.getVolumeId label = .ok (.id volume.resource)
  getDiskId_eq : a.getDiskId label = .ok (.id volume.resource)
  getVolumeAttachment_eq : a.getVolumeAttachment label = .ok attachment

/-- The four lookups raise `KeyError`. -/
structure FindsNothing (a : MountedInstance) (label : String) : Prop where
  getVolume_eq : ∃ e, a.getVolume label = .error e
  getVolumeId_eq : ∃ e, a.getVolumeId label = .error e
  getDiskId_eq : ∃ e, a.getDiskId label = .error e
  getVolumeAttachment_eq : ∃ e, a.getVolumeAttachment label = .error e

theorem getByLabel_eq_ok {α : Type} {a : MountedInstance} {what label : String} {xs : List α}
    {x : α}
    (h : lookup a.volumesSpec xs label = some x) : a.getByLabel what xs label = .ok x := by
  rw [getByLabel, h]

theorem exists_keyError {α : Type} {a : MountedInstance} {what label : String} {xs : List α}
    (h : ∀ spec ∈ a.volumesSpec, spec.label ≠ label) :
    ∃ e, a.getByLabel what xs label = .error e := by
  rw [getByLabel, lookup_eq_none h]
  exact ⟨_, rfl⟩

theorem findsNothing {a : MountedInstance} {label : String}
    (h : ∀ spec ∈ a.volumesSpec, spec.label ≠ label) : a.FindsNothing label :=
  ⟨exists_keyError h, exists_keyError h, exists_keyError h, exists_keyError h⟩

/-! ## Constructing -/

/-- The volumes that are refused: none, or two of one label. -/
def Refused (args : ComputeArgs) : Prop :=
  ∃ specs, args.volumes = some specs ∧
    (specs = [] ∨ ¬ (specs.map fun spec => spec.label).Nodup)

/-- **What is refused is refused first**: the VCN, and all that was registered, is as it was. -/
theorem run_init_of_refused {args : ComputeArgs} (h : Refused args) (nsg : Option Nsg) (v : Vcn) :
    ∃ message, (init nsg args).run v = (.error (.valueError message), v) := by
  have hcheck : ∃ message, ComputeInstance.check args = .error (.valueError message) := by
    obtain ⟨specs, hspecs, hrefused⟩ := h
    rw [ComputeInstance.check, hspecs]
    dsimp only [Option.getD_some]
    split_ifs with hnil htwice
    · exact ⟨_, rfl⟩
    · exact ⟨_, rfl⟩
    · have hnodup := ComputeInstance.duplicates_eq_nil.mp (not_not.mp htwice)
      exact absurd hnodup (hrefused.resolve_left hnil)
  obtain ⟨message, hcheck⟩ := hcheck
  refine ⟨message, run_bind_error (run_bind_error ?_)⟩
  rw [hcheck, run_attempt]

/-- The other lists pass the check. -/
theorem check_eq_ok_iff {args : ComputeArgs} :
    ComputeInstance.check args = .ok (args.volumes.getD [VolumeSpec.default]) ↔ ¬ Refused args := by
  rw [ComputeInstance.check_eq_ok, Refused]
  cases args.volumes with
  | none => simp
  | some specs => simp

/-- **An instance that was constructed**: its specs have distinct labels, and its lists are those
the loop made. -/
theorem lists_of_init {nsg : Option Nsg} {args : ComputeArgs} {v v' : Vcn} {a : MountedInstance}
    (h : (init nsg args).run v = (.ok a, v')) :
    a.volumesSpec = args.volumes.getD [VolumeSpec.default] ∧
      (a.volumesSpec.map fun spec => spec.label).Nodup ∧
      a.volumes = a.volumesSpec.mapIdx (newVolume a.toComputeInstance) ∧
      a.attachments = a.volumesSpec.mapIdx (fun i spec =>
        newAttachment a.toComputeInstance i spec (newVolume a.toComputeInstance i spec)) ∧
      a.volumes.map (fun volume => volume.resource) = a.blockVolumes ∧
      a.attachments.map (fun attachment => attachment.resource) = a.volumeAttachments := by
  obtain ⟨b, v₁, hinit, hpure⟩ := run_bind_eq_ok.mp h
  obtain ⟨ha, -⟩ := Prod.mk.inj hpure
  obtain rfl := Except.ok.inj ha
  obtain ⟨specs, v₂, hcheck, -, -, hcreate⟩ := run_construct_eq_ok.mp hinit
  obtain ⟨hspecs, -, hnodup⟩ := ComputeInstance.check_eq_ok.mp hcheck
  obtain ⟨_, -, hcreate⟩ := bind_eq_ok.mp hcreate
  obtain ⟨_, -, hcreate⟩ := bind_eq_ok.mp hcreate
  obtain rfl := Except.ok.inj hcreate
  rw [attachBlockVolumes_eq]
  refine ⟨hspecs.symm, hnodup, rfl, rfl, ?_, ?_⟩
  · exact map_mapIdx _ _ _
  · exact map_mapIdx _ _ _

end MountedInstance

open MountedInstance in
/-- **Volume lookup is exact.**  A list of volumes that is empty, or has a label twice, is refused
with a `ValueError` before anything is done, and any other passes the check.  An instance that is
constructed has one volume and one attachment for each spec, in order; their names are distinct,
each attachment is of the volume at its own place, and the four lookups find by a label what stands
at the place of its spec, and raise `KeyError` for a label of no spec. -/
theorem volumes_of_init (nsg : Option Nsg) (args : ComputeArgs) (v : Vcn) :
    (Refused args → ∃ message,
      (MountedInstance.init nsg args).run v = (.error (.valueError message), v)) ∧
    (ComputeInstance.check args = .ok (args.volumes.getD [VolumeSpec.default]) ↔
      ¬ Refused args) ∧
    ∀ (a : MountedInstance) (v' : Vcn), (MountedInstance.init nsg args).run v = (.ok a, v') →
      a.volumesSpec = args.volumes.getD [VolumeSpec.default] ∧
      a.volumes.length = a.volumesSpec.length ∧ a.attachments.length = a.volumesSpec.length ∧
      (a.volumes.map fun volume => volume.resource.name).Nodup ∧
      (a.attachments.map fun attachment => attachment.resource.name).Nodup ∧
      (∀ (i : ℕ) (spec : VolumeSpec), a.volumesSpec[i]? = some spec → ∃ volume attachment,
        a.volumes[i]? = some volume ∧ a.attachments[i]? = some attachment ∧
        attachment.volumeId = volume.resource ∧ a.Finds spec.label volume attachment) ∧
      ∀ label, (∀ spec ∈ a.volumesSpec, spec.label ≠ label) → a.FindsNothing label := by
  refine ⟨fun h => run_init_of_refused h nsg v, check_eq_ok_iff, fun a v' h => ?_⟩
  obtain ⟨hspecs, hnodup, hvolumes, hattachments, -, -⟩ := lists_of_init h
  refine ⟨hspecs, by rw [hvolumes, List.length_mapIdx], by rw [hattachments, List.length_mapIdx],
    ?_, ?_, fun i spec hspec => ?_, fun label hlabel => findsNothing hlabel⟩
  · rw [hvolumes]
    exact nodup_names fun _ _ => rfl
  · rw [hattachments]
    exact nodup_names fun _ _ => rfl
  · have hvolume : a.volumes[i]? = some (newVolume a.toComputeInstance i spec) := by
      rw [hvolumes, List.getElem?_mapIdx, hspec]
      rfl
    have hattachment : a.attachments[i]? = some (newAttachment a.toComputeInstance i spec
        (newVolume a.toComputeInstance i spec)) := by
      rw [hattachments, List.getElem?_mapIdx, hspec]
      rfl
    refine ⟨_, _, hvolume, hattachment, rfl, ?_⟩
    have hid : (a.volumes.map fun volume => Input.id volume.resource)[i]? =
        some (.id (newVolume a.toComputeInstance i spec).resource) := by
      rw [List.getElem?_map, hvolume]
      rfl
    exact ⟨getByLabel_eq_ok (lookup_eq_some hnodup hspec hvolume),
      getByLabel_eq_ok (lookup_eq_some hnodup hspec hid),
      getByLabel_eq_ok (lookup_eq_some hnodup hspec hid),
      getByLabel_eq_ok (lookup_eq_some hnodup hspec hattachment)⟩

/-- A database with a volume for its data and one for its log. -/
def databaseArgs : ComputeArgs where
  name := "db"
  stackName := "dev"
  volumes := some [.default, { sizeInGbs := 50, label := "log", valid := by decide }]

/-- The log is on the second volume. -/
theorem volumes_of_init_database : ∃ a v' volume attachment,
    (MountedInstance.init none databaseArgs).run defaultBase.fresh = (.ok a, v') ∧
      a.volumes[1]? = some volume ∧ a.attachments[1]? = some attachment ∧
      attachment.volumeId = volume.resource ∧ a.Finds "log" volume attachment ∧
      a.FindsNothing "tmp" := by
  have hcheck : ComputeInstance.check databaseArgs = .ok _ :=
    ComputeInstance.check_eq_ok.mpr ⟨rfl, by decide, by decide⟩
  obtain ⟨a, v', hrun⟩ : ∃ a v',
      (MountedInstance.init none databaseArgs).run defaultBase.fresh = (.ok a, v') := by
    rw [MountedInstance.init, ComputeInstance.init, hcheck]
    exact ⟨_, _, rfl⟩
  obtain ⟨hspecs, -, -, -, -, hfinds, hnothing⟩ :=
    (volumes_of_init none databaseArgs defaultBase.fresh).2.2 a v' hrun
  obtain ⟨volume, attachment, hvolume, hattachment, hid, hlog⟩ :=
    hfinds 1 { sizeInGbs := 50, label := "log", valid := by decide } (by rw [hspecs]; rfl)
  exact ⟨a, v', volume, attachment, hrun, hvolume, hattachment, hid, hlog,
    hnothing "tmp" (by rw [hspecs]; decide)⟩

end CloudSpells
