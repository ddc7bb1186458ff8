import CloudSpells.Cli.Project

/-!
# Cli/NewProject — the directories of a new project

`cs project new` names a spell of a project after its type, `{project}-{type}`, and writes what its
template renders to the directory of that name; the runner knows a spell by the directory.  The
names of different types are different directories (`spellDir_injective`), those of one type are one
directory: a project has a directory and a stack for each spell exactly where no type is repeated
(`scaffolded_iff_of_run`).
-/

namespace CloudSpells

open Machinery Machinery.Exec

/-! ## The file system -/

/-- `project.yaml`. -/
structure ProjectManifest extends ProjectConfig where
  name : String
  description : String
  deriving DecidableEq, Repr

/-- What a file holds: a file as `render` returns it, or a manifest. -/
inductive FileContent
  | rendered (template : Template) (name stackName fname : String)
  | manifest (project : ProjectManifest)
  deriving DecidableEq, Repr

/-- The directories there are, and what the files hold. -/
structure Disk where
  dirs : PosixPath → Bool
  files : PosixPath → Option FileContent

/-- `path.exists()`. -/
def Disk.exists (disk : Disk) (path : PosixPath) : Bool :=
  disk.dirs path || (disk.files path).isSome

/-- What `cs project new` raises: `typer.Exit` after these lines were printed, or an `OSError`. -/
inductive NewError
  | exit (code : ℕ) (printed : List String)
  | osError (path : PosixPath)
  deriving DecidableEq, Repr

/-- A command over the file system. -/
abbrev Shell (α : Type) := Exec NewError Disk α

/-- `path.mkdir(parents=True, exist_ok=True)`: refused where a file is in the way. -/
def mkdir (dir : PosixPath) : Shell Unit := do
  let disk ← get
  if dir.parts.inits.any fun parts => (disk.files { dir with parts := parts }).isSome then
    throw (.osError dir)
  else
    modify fun disk =>
      { disk with dirs := fun path => disk.dirs path || (Operation.mkdir dir).creates path }

/-- `path.write_text(content)`: refused where a directory is in the way, or none is there. -/
def writeText (path : PosixPath) (content : FileContent) : Shell Unit := do
  let disk ← get
  if disk.dirs path || !disk.dirs { path with parts := path.parts.dropLast } then
    throw (.osError path)
  else
    modify fun disk => { disk with files := Function.update disk.files path (some content) }

/-! ## Creating a project -/

/-- The name of the spell of a type. -/
def spellName (name spell : String) : String := s!"{name}-{spell}"

/-- `render`, file by file: an unknown type is a `KeyError`, which the command never gets to. -/
def render (spell name stackName : String) : List (String × FileContent) :=
  match SPELL_REGISTRY.lookup spell with
  | none => []
  | some template => renderedFiles.map fun fname =>
      (fname, .rendered template name stackName fname)

/-- The body of the loop of `project_new`. -/
def scaffoldSpell (outDir : PosixPath) (name stackName spell : String) : Shell Unit := do
  let spellDir := outDir.join (spellName name spell)
  mkdir spellDir
  each (fun file => writeText (spellDir.join file.1) file.2)
    (render spell (spellName name spell) stackName)

/-- `_YAML`. -/
def PROJECT_YAML : String := "project.yaml"

/-- The manifest `project_new` saves. -/
def newManifest (name description : String) (spells : List String) : ProjectManifest where
  name := name
  description := description
  spells := spells.map fun spell => { spell := spell, name := spellName name spell }

/-- `_CANONICAL`. -/
def CANONICAL : List String :=
  ["vcn", "compute", "oke", "autoscale", "lb", "bastion", "storage", "iam", "web-db"]

/-- `list_spells`. -/
def listSpells : List String := CANONICAL.mergeSort fun s t => decide (s ≤ t)

/-- An error as it is printed. -/
def errorLine (message : String) : String := "[red]Error:[/red] " ++ message

/-- The types there are, as they are printed. -/
def availableLine : String := "  Available: " ++ ", ".intercalate listSpells

/-- `project_new`, in the directory `cwd`. -/
def projectNew (cwd : PosixPath) (name : String) (spells : List String)
    (description stackName : String) (force : Bool) : Shell Unit := do
  let unknown := spells.filter fun spell => (SPELL_REGISTRY.lookup spell).isNone
  let outDir := cwd.join name
  if spells = [] then
    throw (.exit 1 [errorLine "At least one spell type is required.", availableLine])
  else if unknown ≠ [] then
    throw (.exit 1 [errorLine ("Unknown spell(s): " ++ ", ".intercalate unknown), availableLine])
  else do
    let disk ← get
    if disk.exists outDir && !force then
      throw (.exit 1
        [errorLine s!"Directory '{name}' already exists. Use --force to overwrite."])
    else do
      mkdir outDir
      each (scaffoldSpell outDir name stackName) spells
      writeText (outDir.join PROJECT_YAML) (.manifest (newManifest name description spells))

/-! ## Directories of spells -/

section Paths

/-- Letters put at the end of a text are put at the end of its last segment. -/
theorem exists_splitOn_append (sep : Char) (l : List Char) :
    ∃ init last, ∀ m, sep ∉ m → (l ++ m).splitOn sep = init ++ [last ++ m] := by
  induction l with
  | nil => exact ⟨[], [], fun m hm => List.splitOn_eq_singleton hm⟩
  | cons c l ih =>
    obtain ⟨init, last, hl⟩ := ih
    by_cases hc : c = sep
    · refine ⟨[] :: init, last, fun m hm => ?_⟩
      rw [List.cons_append, List.splitOn_cons_eq_if_modifyHead, if_pos (by simpa using hc), hl m hm]
      rfl
    · cases init with
      | nil =>
        refine ⟨[], c :: last, fun m hm => ?_⟩
        rw [List.cons_append, List.splitOn_cons_eq_if_modifyHead, if_neg (by simpa using hc),
          hl m hm]
        rfl
      | cons first init =>
        refine ⟨(c :: first) :: init, last, fun m hm => ?_⟩
        rw [List.cons_append, List.splitOn_cons_eq_if_modifyHead, if_neg (by simpa using hc),
          hl m hm]
        rfl

/-- The path of the name of a spell ends in the spell's type. -/
theorem exists_getLast_parse (name : String) : ∃ last : List Char, ∀ spell : String,
    '/' ∉ spell.toList → (PosixPath.parse (spellName name spell)).parts.getLast? =
      some (String.ofList (last ++ '-' :: spell.toList)) := by
  obtain ⟨init, last, hsplit⟩ := exists_splitOn_append '/' name.toList
  refine ⟨last, fun spell hspell => ?_⟩
  have htext : (spellName name spell).toList = name.toList ++ '-' :: spell.toList := by
    simp [spellName, String.toList_append, toString]
  have hm : '/' ∉ '-' :: spell.toList := by simp [hspell]
  have hpart : String.ofList (last ++ '-' :: spell.toList) ≠ "" ∧
      String.ofList (last ++ '-' :: spell.toList) ≠ "." := by
    have hmem : '-' ∈ (String.ofList (last ++ '-' :: spell.toList)).toList := by simp
    constructor
    · intro h
      rw [h] at hmem
      exact absurd hmem (by decide)
    · intro h
      rw [h] at hmem
      exact absurd hmem (by decide)
  rw [PosixPath.parse, htext, hsplit _ hm, List.map_append, List.filter_append,
    List.map_singleton, List.filter_cons_of_pos (by simpa using hpart), List.filter_nil,
    List.getLast?_concat]

variable {path : PosixPath} {name spell spell' : String}

/-- What a joined path ends in. -/
theorem PosixPath.getLast_join (path : PosixPath) {text last : String}
    (h : (parse text).parts.getLast? = some last) :
    (path.join text).parts.getLast? = some last := by
  unfold join
  dsimp only
  split
  · rw [List.getLast?_append, h]
    rfl
  · exact h

/-- The types are single parts of a path. -/
theorem slash_notMem_of_registered (h : (SPELL_REGISTRY.lookup spell).isSome) :
    '/' ∉ spell.toList := by
  have hall : ∀ e ∈ SPELL_REGISTRY, '/' ∉ e.1.toList := by decide
  obtain ⟨e, he, heq⟩ := List.lookup_isSome_iff.mp h
  rw [eq_of_beq heq]
  exact hall e he

/-- **Spells of different types have different directories.** -/
theorem spellDir_injective (hspell : (SPELL_REGISTRY.lookup spell).isSome)
    (hspell' : (SPELL_REGISTRY.lookup spell').isSome)
    (h : path.join (spellName name spell) = path.join (spellName name spell')) :
    spell = spell' := by
  obtain ⟨last, hlast⟩ := exists_getLast_parse name
  have hends := path.getLast_join (hlast spell (slash_notMem_of_registered hspell))
  rw [h, path.getLast_join (hlast spell' (slash_notMem_of_registered hspell'))] at hends
  have hlists := List.append_cancel_left
    (String.ofList_injective (Option.some.inj hends))
  exact (String.toList_inj.mp (List.cons.inj hlists).2).symm

end Paths

/-! ## What a run writes -/

section Writes

/-- The file holds this. -/
def Holds (path : PosixPath) (content : FileContent) (disk : Disk) : Prop :=
  disk.files path = some content

variable {path path' : PosixPath} {content content' : FileContent} {disk disk' : Disk}

theorem files_of_writeText (h : (writeText path content).run disk = (.ok ⟨⟩, disk')) :
    disk'.files = Function.update disk.files path (some content) := by
  rw [writeText, run_get_bind] at h
  split at h
  · cases (Prod.mk.inj h).1
  · obtain ⟨-, rfl⟩ := Prod.mk.inj h
    rfl

theorem preserves_mkdir (dir : PosixPath) : Preserves (Holds path content) (mkdir dir) := by
  refine preserves_get_bind fun d hd => ?_
  split
  · exact hd
  · exact hd

/-- A write keeps what it does not overwrite with something else. -/
theorem preserves_writeText (h : path' = path → content' = content) :
    Preserves (Holds path content) (writeText path' content') := by
  refine preserves_get_bind fun d hd => ?_
  split
  · exact hd
  · change Function.update d.files path' (some content') path = some content
    by_cases hpath : path' = path
    · subst hpath
      rw [Function.update_self, h rfl]
    · rw [Function.update_of_ne (Ne.symm hpath)]
      exact hd

end Writes

/-! ## What `project_new` leaves -/

section Run

variable {cwd outDir : PosixPath} {name description stackName spell : String} {spells : List String}
  {force : Bool} {disk disk' : Disk} {template : Template} {fname : String}

/-- A file of a spell directory. -/
def spellFile (outDir : PosixPath) (name spell fname : String) : PosixPath :=
  (outDir.join (spellName name spell)).join fname

/-- **A file of a spell directory tells which spell and which file it is.** -/
theorem spellFile_injective {spell' fname' : String} (hspell : (SPELL_REGISTRY.lookup spell).isSome)
    (hspell' : (SPELL_REGISTRY.lookup spell').isSome) (hfname : fname ∈ renderedFiles)
    (hfname' : fname' ∈ renderedFiles)
    (h : spellFile outDir name spell fname = spellFile outDir name spell' fname') :
    spell = spell' ∧ fname = fname' := by
  rw [spellFile, spellFile, PosixPath.join_fname (renderedFiles_plain hfname),
    PosixPath.join_fname (renderedFiles_plain hfname')] at h
  obtain ⟨hroot, hparts⟩ := PosixPath.mk.inj h
  obtain ⟨hdir, hlast⟩ := List.append_inj' hparts rfl
  have hjoin : outDir.join (spellName name spell) = outDir.join (spellName name spell') := by
    rcases hp : outDir.join (spellName name spell) with ⟨root, parts⟩
    rcases hp' : outDir.join (spellName name spell') with ⟨root', parts'⟩
    rw [hp, hp'] at hroot hdir
    rw [PosixPath.mk.injEq]
    exact ⟨hroot, hdir⟩
  exact ⟨spellDir_injective hspell hspell' hjoin, List.singleton_inj.mp hlast⟩

/-- What is written to a file of a spell directory, whatever spell is scaffolded. -/
theorem content_of_mem_render {spell' : String} {file : String × FileContent}
    (hlookup : SPELL_REGISTRY.lookup spell = some template)
    (hspell' : (SPELL_REGISTRY.lookup spell').isSome) (hfname : fname ∈ renderedFiles)
    (hfile : file ∈ render spell' (spellName name spell') stackName)
    (h : spellFile outDir name spell' file.1 = spellFile outDir name spell fname) :
    file.2 = .rendered template (spellName name spell) stackName fname := by
  obtain ⟨template', hlookup'⟩ := Option.isSome_iff_exists.mp hspell'
  rw [render, hlookup'] at hfile
  obtain ⟨fname', hfname', rfl⟩ := List.mem_map.mp hfile
  obtain ⟨rfl, rfl⟩ := spellFile_injective hspell' (by rw [hlookup]; rfl) hfname' hfname h
  rw [Option.some.inj (hlookup'.symm.trans hlookup)]

/-- Scaffolding a spell keeps the files of every spell… -/
theorem preserves_scaffoldSpell {spell' : String}
    (hlookup : SPELL_REGISTRY.lookup spell = some template)
    (hspell' : (SPELL_REGISTRY.lookup spell').isSome) (hfname : fname ∈ renderedFiles) :
    Preserves (Holds (spellFile outDir name spell fname)
        (.rendered template (spellName name spell) stackName fname))
      (scaffoldSpell outDir name stackName spell') :=
  Preserves.bind (preserves_mkdir _) fun _ => preserves_each fun _ hfile =>
    preserves_writeText (content_of_mem_render hlookup hspell' hfname hfile)

/-- …and writes its own. -/
theorem holds_of_scaffoldSpell (hlookup : SPELL_REGISTRY.lookup spell = some template)
    (hfname : fname ∈ renderedFiles)
    (h : (scaffoldSpell outDir name stackName spell).run disk = (.ok ⟨⟩, disk')) :
    Holds (spellFile outDir name spell fname)
      (.rendered template (spellName name spell) stackName fname) disk' := by
  obtain ⟨_, disk₁, -, hfiles⟩ := run_bind_eq_ok.mp h
  have hmem : (fname, FileContent.rendered template (spellName name spell) stackName fname) ∈
      render spell (spellName name spell) stackName := by
    rw [render, hlookup]
    exact List.mem_map_of_mem hfname
  refine of_run_each hmem (fun d d' hwrite => ?_) (fun file hfile => ?_) hfiles
  · rw [Holds, files_of_writeText hwrite]
    exact Function.update_self _ _ _
  · exact preserves_writeText
      (content_of_mem_render hlookup (by rw [hlookup]; rfl) hfname hfile)

/-- **A run that returned**: what it was given is registered, the spells were scaffolded, and the
manifest was saved after them. -/
theorem run_projectNew_eq_ok
    (h : (projectNew cwd name spells description stackName force).run disk = (.ok ⟨⟩, disk')) :
    (∀ spell ∈ spells, (SPELL_REGISTRY.lookup spell).isSome) ∧
      ∃ disk₁ disk₂, (each (scaffoldSpell (cwd.join name) name stackName) spells).run disk₁ =
          (.ok ⟨⟩, disk₂) ∧
        (writeText ((cwd.join name).join PROJECT_YAML)
          (.manifest (newManifest name description spells))).run disk₂ = (.ok ⟨⟩, disk') := by
  unfold projectNew at h
  dsimp only at h
  split at h
  · cases (Prod.mk.inj h).1
  · split at h
    · cases (Prod.mk.inj h).1
    · rename_i hunknown
      rw [run_get_bind] at h
      split at h
      · cases (Prod.mk.inj h).1
      · obtain ⟨_, disk₁, -, h⟩ := run_bind_eq_ok.mp h
        obtain ⟨_, disk₂, hspells, hsave⟩ := run_bind_eq_ok.mp h
        refine ⟨fun spell hspell => ?_, disk₁, disk₂, hspells, hsave⟩
        have hnone := List.filter_eq_nil_iff.mp (not_not.mp hunknown) spell hspell
        rwa [Option.isNone_iff_eq_none, ← ne_eq, ← Option.isSome_iff_ne_none] at hnone

end Run

/-! ## Runs of a new project -/

section Deploys

variable {workDir : PosixPath} {name stackName : String} {spells : List String} {ref : SpellRef}

/-- How often the directory of a spell occurs among the attempts, failed or not. -/
def timesAt (workDir : PosixPath) (ref : SpellRef) (attempts : List (SpellRef × Bool)) : ℕ :=
  attempts.countP fun e => workDir.join e.1.name = workDir.join ref.name

theorem timesAt_succeeded (refs : List SpellRef) : timesAt workDir ref (succeeded refs) =
    (refs.map fun ref => workDir.join ref.name).count (workDir.join ref.name) := by
  rw [timesAt, succeeded, List.countP_map, List.count, List.countP_map]
  exact List.countP_congr fun e _ => by simp

theorem timesAt_reverse (refs : List SpellRef) :
    timesAt workDir ref (succeeded refs.reverse) = timesAt workDir ref (succeeded refs) := by
  rw [succeeded, List.map_reverse, timesAt, List.countP_reverse]
  rfl

/-- Where the directories are different, each occurs once. -/
theorem timesAt_eq_one {refs : List SpellRef}
    (hnodup : (refs.map fun ref => workDir.join ref.name).Nodup) (href : ref ∈ refs) :
    timesAt workDir ref (succeeded refs) = 1 := by
  rw [timesAt_succeeded]
  exact List.count_eq_one_of_mem hnodup (List.mem_map_of_mem href)

/-- The directories of the spells of a new project. -/
theorem spellDirs_nodup (workDir : PosixPath) (name : String)
    (hknown : ∀ spell ∈ spells, (SPELL_REGISTRY.lookup spell).isSome)
    (hnodup : spells.Nodup) (description : String) :
    ((newManifest name description spells).spells.map fun ref => workDir.join ref.name).Nodup := by
  rw [newManifest, List.map_map]
  exact hnodup.map_on fun spell hspell spell' hspell' =>
    spellDir_injective (hknown spell hspell) (hknown spell' hspell')

theorem spellName_injective : Function.Injective (spellName name) := by
  intro spell spell' h
  have htext (s : String) : (spellName name s).toList = name.toList ++ '-' :: s.toList := by
    simp [spellName, String.toList_append, toString]
  have hlists := congrArg String.toList h
  rw [htext, htext] at hlists
  exact String.toList_inj.mp (List.cons.inj (List.append_cancel_left hlists)).2

/-- What a new project is to be: its manifest is saved, its spells have different names, the
directory of each holds the files its own template renders, and whatever run of `deploy_project` or
`destroy_project` returns has upped or destroyed the stack of each exactly once. -/
structure Scaffolded (workDir : PosixPath) (stackName : String) (project : ProjectManifest)
    (disk : Disk) : Prop where
  saved : disk.files (workDir.join PROJECT_YAML) = some (.manifest project)
  distinct : (project.spells.map SpellRef.name).Nodup
  rendered : ∀ ref ∈ project.spells, ∃ template, SPELL_REGISTRY.lookup ref.spell = some template ∧
    ∀ fname ∈ renderedFiles, disk.files ((workDir.join ref.name).join fname) =
      some (.rendered template ref.name stackName fname)
  upped : ∀ (fate : ℕ → Fate (PosixPath → Bool)) (stack : String) (host host' : Host),
    disk.exists ≤ host.state →
    (deployProject fate project.toProjectConfig stack workDir false).run host = (.ok ⟨⟩, host') →
    ∀ ref ∈ project.spells, timesAt workDir ref
      (upsOf (deployProject fate project.toProjectConfig stack workDir false) host) = 1
  destroyed : ∀ (fate : ℕ → Fate (PosixPath → Bool)) (stack : String) (host host' : Host),
    disk.exists ≤ host.state →
    (destroyProject fate project.toProjectConfig stack workDir).run host = (.ok ⟨⟩, host') →
    ∀ ref ∈ project.spells, timesAt workDir ref
      (destroysOf (destroyProject fate project.toProjectConfig stack workDir) host) = 1

end Deploys

section Scaffolding

variable {cwd : PosixPath} {name description stackName spell : String} {spells : List String}
  {force : Bool} {disk disk' : Disk} {template : Template} {fname : String}

/-- **The directories of a run that returned** hold what is rendered for their spells. -/
theorem files_of_projectNew
    (h : (projectNew cwd name spells description stackName force).run disk = (.ok ⟨⟩, disk'))
    (hspell : spell ∈ spells) (hlookup : SPELL_REGISTRY.lookup spell = some template)
    (hfname : fname ∈ renderedFiles) : Holds (spellFile (cwd.join name) name spell fname)
      (.rendered template (spellName name spell) stackName fname) disk' := by
  obtain ⟨hknown, disk₁, disk₂, hspells, hsave⟩ := run_projectNew_eq_ok h
  have hheld := of_run_each hspell (fun _ _ => holds_of_scaffoldSpell hlookup hfname)
    (fun spell' hspell' => preserves_scaffoldSpell hlookup (hknown spell' hspell') hfname) hspells
  -- The manifest is under a name of its own.
  have hother : (cwd.join name).join PROJECT_YAML ≠ spellFile (cwd.join name) name spell fname := by
    rw [spellFile, PosixPath.join_fname (renderedFiles_plain hfname),
      PosixPath.join_fname (show PosixPath.parse PROJECT_YAML = ⟨"", [PROJECT_YAML]⟩ by
        decide)]
    intro heq
    have hlast := (List.append_inj' (PosixPath.mk.inj heq).2 rfl).2
    have hnot : PROJECT_YAML ∉ renderedFiles := by decide
    exact hnot (List.singleton_inj.mp hlast ▸ hfname)
  have hkeep : Preserves (Holds (spellFile (cwd.join name) name spell fname)
      (.rendered template (spellName name spell) stackName fname))
      (writeText ((cwd.join name).join PROJECT_YAML)
        (.manifest (newManifest name description spells))) :=
    preserves_writeText fun heq => absurd heq hother
  have hafter := hkeep disk₂ hheld
  rwa [after, hsave] at hafter

/-- The manifest of a run that returned. -/
theorem manifest_of_projectNew
    (h : (projectNew cwd name spells description stackName force).run disk = (.ok ⟨⟩, disk')) :
    Holds ((cwd.join name).join PROJECT_YAML) (.manifest (newManifest name description spells))
      disk' := by
  obtain ⟨-, _, _, -, hsave⟩ := run_projectNew_eq_ok h
  rw [Holds, files_of_writeText hsave]
  exact Function.update_self _ _ _

/-- **A project has a directory and a stack for each of its spells exactly where no type is
repeated**, whatever its name, and two names of one template may both be given. -/
theorem scaffolded_iff_of_run
    (h : (projectNew cwd name spells description stackName force).run disk = (.ok ⟨⟩, disk')) :
    Scaffolded (cwd.join name) stackName (newManifest name description spells) disk' ↔
      spells.Nodup := by
  constructor
  · intro hscaffolded
    have hnames := hscaffolded.distinct
    rw [newManifest, List.map_map] at hnames
    exact (List.nodup_map_iff spellName_injective).mp hnames
  · intro hnodup
    have hknown := (run_projectNew_eq_ok h).1
    have hrendered : ∀ ref ∈ (newManifest name description spells).spells, ∃ template,
        SPELL_REGISTRY.lookup ref.spell = some template ∧ ∀ fname ∈ renderedFiles,
          disk'.files (((cwd.join name).join ref.name).join fname) =
            some (.rendered template ref.name stackName fname) := by
      intro ref href
      obtain ⟨spell, hspell, rfl⟩ := List.mem_map.mp href
      obtain ⟨template, hlookup⟩ := Option.isSome_iff_exists.mp (hknown spell hspell)
      exact ⟨template, hlookup, fun fname hfname => files_of_projectNew h hspell hlookup hfname⟩
    have hdirs := spellDirs_nodup (cwd.join name) name hknown hnodup description
    refine ⟨manifest_of_projectNew h, ?_, hrendered, ?_, ?_⟩
    · rw [newManifest, List.map_map]
      exact hnodup.map spellName_injective
    · intro fate stack host host' _ hrun ref href
      rw [upsOf_of_run hrun]
      exact timesAt_eq_one hdirs href
    · intro fate stack host host' hdisk hrun ref href
      have hpresent : ∀ ref ∈ (newManifest name description spells).spells,
          Present (manifestOf (cwd.join name) ref) host := by
        intro ref href
        obtain ⟨template, -, hfiles⟩ := hrendered ref href
        have hfile : disk'.files (manifestOf (cwd.join name) ref) =
            some (.rendered template ref.name stackName "Pulumi.yaml") :=
          hfiles "Pulumi.yaml" (by decide)
        refine present_mono hdisk ?_
        rw [Disk.exists, hfile]
        exact Bool.or_true _
      rw [destroysOf_of_run hpresent hrun, timesAt_reverse]
      exact timesAt_eq_one hdirs href

/-- A directory, and nothing in it. -/
def emptyDisk (dir : PosixPath) : Disk where
  dirs := (Operation.mkdir dir).creates
  files := fun _ => none

/-- `cs project new shop lb loadbalancer`: one template, and two directories. -/
theorem scaffolded_iff_of_run_shop :
    let cwd := PosixPath.parse "/srv"
    Scaffolded (cwd.join "shop") "dev" (newManifest "shop" "" ["lb", "loadbalancer"])
      ((projectNew cwd "shop" ["lb", "loadbalancer"] "" "dev" false).after (emptyDisk cwd)) := by
  intro cwd
  have hreturns : (projectNew cwd "shop" ["lb", "loadbalancer"] "" "dev" false).outcome
      (emptyDisk cwd) = .ok ⟨⟩ := by decide
  exact (scaffolded_iff_of_run (run_of_outcome hreturns)).mpr (by decide)

/-- `cs project new shop vcn vcn` returns: both spells are `shop-vcn`, whose stack a run of
`deploy_project` ups twice. -/
theorem not_scaffolded_shop :
    let cwd := PosixPath.parse "/srv"
    let project := newManifest "shop" "" ["vcn", "vcn"]
    let new := projectNew cwd "shop" ["vcn", "vcn"] "" "dev" false
    let deploy := deployProject (fun _ => ⟨false, fun _ => false⟩) project.toProjectConfig "dev"
      (cwd.join "shop") false
    let host : Host := ⟨(new.after (emptyDisk cwd)).exists, []⟩
    new.outcome (emptyDisk cwd) = .ok ⟨⟩ ∧ deploy.outcome host = .ok ⟨⟩ ∧
      timesAt (cwd.join "shop") { spell := "vcn", name := "shop-vcn" } (upsOf deploy host) = 2 ∧
      ¬ Scaffolded (cwd.join "shop") "dev" project (new.after (emptyDisk cwd)) := by
  intro cwd project new deploy host
  refine ⟨by decide, by decide, by decide, fun hscaffolded => ?_⟩
  have hnames : ¬ (project.spells.map SpellRef.name).Nodup := by decide
  exact hnames hscaffolded.distinct

end Scaffolding

end CloudSpells
