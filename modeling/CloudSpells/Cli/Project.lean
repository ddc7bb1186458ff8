import CloudSpells.Cli.Scaffold
import CloudSpells.Machinery.Journal

/-!
# Cli/Project — deploying and destroying the spells of a project

The two loops of the runner go over one manifest in opposite directions.  Deploying scaffolds a
spell's directory, where it has no `Pulumi.yaml`, and ups its stack; destroying skips a spell whose
directory has none.  Every operation may fail, and a failure ends the run; what earlier operations
and the failed one left in the file system stays there, and later runs find it.

A directory is scaffolded before its stack is upped and nothing takes a file away, so a deployed
spell is never skipped (`project_order`).
-/

namespace CloudSpells

open Machinery Machinery.Exec Machinery.Journal

/-! ## Paths -/

/-- A `Path`: its root and the parts after it. -/
structure PosixPath where
  root : String
  parts : List String
  deriving DecidableEq, Repr

namespace PosixPath

/-- `Path(text)`: empty parts and dots are dropped, and two slashes in front are a root of their
own. -/
def parse (text : String) : PosixPath where
  root :=
    match (text.toList.takeWhile (· = '/')).length with
    | 0 => ""
    | 2 => "//"
    | _ => "/"
  parts := ((text.toList.splitOn '/').map String.ofList).filter fun part =>
    part ≠ "" ∧ part ≠ "."

/-- `path / name`: an absolute name replaces the path. -/
def join (path : PosixPath) (name : String) : PosixPath :=
  let tail := parse name
  if tail.root = "" then { path with parts := path.parts ++ tail.parts } else tail

/-- A file is the last part of its path. -/
theorem join_fname {path : PosixPath} {fname : String} (h : parse fname = ⟨"", [fname]⟩) :
    path.join fname = { path with parts := path.parts ++ [fname] } := by
  rw [join, h]
  exact if_pos rfl

end PosixPath

/-! ## Manifests and operations -/

/-- `SpellRef`. -/
structure SpellRef where
  spell : String
  name : String
  deriving DecidableEq, Repr

/-- `ProjectConfig`, what the runner reads of it. -/
structure ProjectConfig where
  spells : List SpellRef
  deriving DecidableEq, Repr

/-- The operations of the runner; those on a stack with the spell the stack is of. -/
inductive Operation
  | pathExists (path : PosixPath)
  | mkdir (dir : PosixPath)
  | writeText (path : PosixPath)
  | getStack (stackName : String) (dir : PosixPath)
  | preview (ref : SpellRef)
  | up (ref : SpellRef)
  | destroy (ref : SpellRef)
  deriving DecidableEq, Repr

namespace Operation

/-- What an operation creates: a directory with its parents, a file. -/
def creates : Operation → PosixPath → Bool
  | mkdir dir, path => path.root = dir.root && path.parts.isPrefixOf dir.parts
  | writeText file, path => path = file
  | _, _ => false

/-- The spell an operation ups. -/
def upped : Operation → Option SpellRef
  | up ref => some ref
  | _ => none

/-- The spell an operation destroys. -/
def destroyed : Operation → Option SpellRef
  | destroy ref => some ref
  | _ => none

end Operation

/-- The exceptions of the runner: its own, and those of the operations. -/
inductive RunnerError
  | valueError (message : String)
  | failed (op : Operation)
  deriving DecidableEq, Repr

/-- What exists grows path by path. -/
instance : SemilatticeSup (PosixPath → Bool) :=
  @Pi.instSemilatticeSup PosixPath (fun _ => Bool) fun _ =>
    Bool.instDistribLattice.toLattice.toSemilatticeSup

/-- The paths that exist, and the operations tried so far. -/
abbrev Host := Journal (PosixPath → Bool) Operation

/-- A procedure of the runner. -/
abbrev Runner (α : Type) := Exec RunnerError Host α

/-- `{work_dir}/{name}/Pulumi.yaml`. -/
def manifestOf (workDir : PosixPath) (ref : SpellRef) : PosixPath :=
  (workDir.join ref.name).join "Pulumi.yaml"

section Runner

variable (fate : ℕ → Fate (PosixPath → Bool))

/-- Try an operation. -/
def Operation.run (op : Operation) : Runner Unit :=
  perform fate Operation.creates RunnerError.failed op

/-- `path.exists()`. -/
def pathExists (path : PosixPath) : Runner Bool := do
  (Operation.pathExists path).run fate
  let host ← get
  pure (host.state path)

/-- The files `render` returns, in order. -/
def renderedFiles : List String := ["Pulumi.yaml", "__main__.py"]

/-- `_ensure_spell_dir`. -/
def ensureSpellDir (ref : SpellRef) (workDir : PosixPath) : Runner PosixPath := do
  if (SPELL_REGISTRY.lookup ref.spell).isNone then
    throw (.valueError s!"Unknown spell '{ref.spell}'")
  else do
    let spellDir := workDir.join ref.name
    if ← pathExists fate (spellDir.join "Pulumi.yaml") then pure spellDir
    else do
      (Operation.mkdir spellDir).run fate
      each (fun fname => (Operation.writeText (spellDir.join fname)).run fate) renderedFiles
      pure spellDir

/-- The body of the loop of `deploy_project`. -/
def deploySpell (stackName : String) (workDir : PosixPath) (preview : Bool) (ref : SpellRef) :
    Runner Unit := do
  let spellDir ← ensureSpellDir fate ref workDir
  (Operation.getStack stackName spellDir).run fate
  if preview then (Operation.preview ref).run fate
  else (Operation.up ref).run fate

/-- `deploy_project`. -/
def deployProject (project : ProjectConfig) (stackName : String) (workDir : PosixPath)
    (preview : Bool) : Runner Unit :=
  each (deploySpell fate stackName workDir preview) project.spells

/-- The body of the loop of `destroy_project`. -/
def destroySpell (stackName : String) (workDir : PosixPath) (ref : SpellRef) : Runner Unit := do
  let spellDir := workDir.join ref.name
  if ← pathExists fate (spellDir.join "Pulumi.yaml") then do
    (Operation.getStack stackName spellDir).run fate
    (Operation.destroy ref).run fate
  else pure ⟨⟩

/-- `destroy_project`. -/
def destroyProject (project : ProjectConfig) (stackName : String) (workDir : PosixPath) :
    Runner Unit :=
  each (destroySpell fate stackName workDir) project.spells.reverse

end Runner

/-- A run of the runner. -/
inductive ProjectCommand
  | deploy (project : ProjectConfig) (stackName : String) (workDir : PosixPath) (preview : Bool)
  | destroy (project : ProjectConfig) (stackName : String) (workDir : PosixPath)
  deriving DecidableEq, Repr

/-- Make the run. -/
def ProjectCommand.exec (fate : ℕ → Fate (PosixPath → Bool)) : ProjectCommand → Runner Unit
  | deploy project stackName workDir preview =>
    deployProject fate project stackName workDir preview
  | destroy project stackName workDir => destroyProject fate project stackName workDir

/-! ## What the runner keeps -/

/-- The files of a spell directory are single parts of a path. -/
theorem renderedFiles_plain {fname : String} (h : fname ∈ renderedFiles) :
    PosixPath.parse fname = ⟨"", [fname]⟩ := by
  have hall : ∀ f ∈ renderedFiles, PosixPath.parse f = ⟨"", [f]⟩ := by decide +kernel
  exact hall fname h

section Keeps

variable {fate : ℕ → Fate (PosixPath → Bool)} {stackName : String} {workDir path : PosixPath}
  {preview : Bool} {ref : SpellRef}

/-- The path exists. -/
def Present (path : PosixPath) (host : Host) : Prop := host.state path = true

theorem present_mono {s s' : PosixPath → Bool} (h : s ≤ s') (hs : s path = true) :
    s' path = true := Bool.le_iff_imp.mp (h path) hs

theorem preserves_run (op : Operation) : Preserves (Present path) (op.run fate) :=
  preserves_perform (P := fun s : PosixPath → Bool => s path = true) fun _ _ => present_mono

theorem preserves_pathExists (p : PosixPath) : Preserves (Present path) (pathExists fate p) :=
  Preserves.bind (preserves_run _) fun _ => preserves_get_bind fun _ h => h

theorem preserves_ensureSpellDir :
    Preserves (Present path) (ensureSpellDir fate ref workDir) := by
  refine preserves_ite (fun _ => preserves_throw _) fun _ => ?_
  refine Preserves.bind (preserves_pathExists _) fun found => ?_
  refine preserves_ite (fun _ => preserves_pure _) fun _ => ?_
  exact Preserves.bind (preserves_run _) fun _ =>
    Preserves.bind (preserves_each fun _ _ => preserves_run _) fun _ => preserves_pure _

theorem preserves_deploySpell :
    Preserves (Present path) (deploySpell fate stackName workDir preview ref) :=
  Preserves.bind preserves_ensureSpellDir fun _ => Preserves.bind (preserves_run _) fun _ =>
    preserves_ite (fun _ => preserves_run _) fun _ => preserves_run _

theorem quiet_run {of : Operation → Option SpellRef} {op : Operation} (h : of op = none) :
    Quiet of (op.run fate) := quiet_perform h

theorem tries_run {of : Operation → Option SpellRef} {op : Operation} (h : of op = some ref)
    (skips : SpellRef → (PosixPath → Bool) → Bool) : Tries of skips ref (op.run fate) :=
  tries_perform h skips

theorem present_of_writeText {host host' : Host}
    (h : ((Operation.writeText path).run fate).run host = (.ok ⟨⟩, host')) :
    Present path host' := by
  rcases run_perform fate Operation.creates RunnerError.failed (.writeText path) host with
    ⟨j, hrun, -, hcreates⟩ | ⟨j, hrun, -⟩
  · obtain ⟨-, rfl⟩ := Prod.mk.inj (hrun.symm.trans h)
    exact present_mono hcreates (decide_eq_true rfl)
  · cases hrun.symm.trans h

/-- A directory that was ensured has its `Pulumi.yaml`. -/
theorem present_of_ensureSpellDir {host host' : Host} {dir : PosixPath}
    (h : (ensureSpellDir fate ref workDir).run host = (.ok dir, host')) :
    Present (manifestOf workDir ref) host' := by
  unfold ensureSpellDir at h
  split at h
  · cases (Prod.mk.inj h).1
  · obtain ⟨found, host₁, hfound, h⟩ := run_bind_eq_ok.mp h
    cases found with
    | true =>
      obtain ⟨_, host₂, -, hget⟩ := run_bind_eq_ok.mp hfound
      obtain ⟨hstate, rfl⟩ := Prod.mk.inj hget
      obtain ⟨-, rfl⟩ := Prod.mk.inj h
      exact Except.ok.inj hstate
    | false =>
      obtain ⟨_, host₂, -, h⟩ := run_bind_eq_ok.mp h
      obtain ⟨_, host₃, hfiles, h⟩ := run_bind_eq_ok.mp h
      obtain ⟨-, rfl⟩ := Prod.mk.inj h
      -- The first file written is the one looked for.
      obtain ⟨_, host₄, hfirst, hrest⟩ := run_bind_eq_ok.mp hfiles
      have hwritten : Present (manifestOf workDir ref) host₄ := present_of_writeText hfirst
      have hkept : Preserves (Present (manifestOf workDir ref)) (each (fun fname =>
          (Operation.writeText ((workDir.join ref.name).join fname)).run fate) ["__main__.py"]) :=
        preserves_each fun _ _ => preserves_run _
      have hafter := hkept host₄ hwritten
      rwa [after, hrest] at hafter

/-- A spell that was deployed has its `Pulumi.yaml`. -/
theorem present_of_deploySpell {host host' : Host}
    (h : (deploySpell fate stackName workDir preview ref).run host = (.ok ⟨⟩, host')) :
    Present (manifestOf workDir ref) host' := by
  obtain ⟨dir, host₁, hensure, hrest⟩ := run_bind_eq_ok.mp h
  have hkept : Preserves (Present (manifestOf workDir ref))
      ((Operation.getStack stackName dir).run fate >>= fun _ =>
        if preview then (Operation.preview ref).run fate else (Operation.up ref).run fate) :=
    Preserves.bind (preserves_run _) fun _ =>
      preserves_ite (fun _ => preserves_run _) fun _ => preserves_run _
  have hafter := hkept host₁ (present_of_ensureSpellDir hensure)
  rwa [after, hrest] at hafter

theorem present_of_each {refs : List SpellRef} {host host' : Host}
    (h : (each (deploySpell fate stackName workDir preview) refs).run host = (.ok ⟨⟩, host')) :
    ∀ ref ∈ refs, Present (manifestOf workDir ref) host' := fun _ href =>
  of_run_each href (fun _ _ => present_of_deploySpell) (fun _ _ => preserves_deploySpell) h

theorem quiet_ensureSpellDir : Quiet Operation.upped (ensureSpellDir fate ref workDir) := by
  unfold ensureSpellDir
  split
  · exact quiet_throw _
  · refine Quiet.bind (Quiet.bind (quiet_run rfl) fun _ => quiet_get_bind fun _ => quiet_pure _)
      fun found => ?_
    split
    · exact quiet_pure _
    · exact Quiet.bind (quiet_run rfl) fun _ =>
        Quiet.bind (quiet_each fun _ _ => quiet_run rfl) fun _ => quiet_pure _

/-- **Deploying a spell ups it last.** -/
theorem tries_deploySpell : Tries Operation.upped (fun _ _ => false) ref
    (deploySpell fate stackName workDir false ref) :=
  Quiet.bind_tries quiet_ensureSpellDir (fun _ _ _ h => h) fun _ =>
    Quiet.bind_tries (quiet_run rfl) (fun _ _ _ h => h) fun _ => tries_run rfl _

/-! ## Destroying -/

/-- A spell without a `Pulumi.yaml`. -/
def unscaffolded (workDir : PosixPath) (ref : SpellRef) (files : PosixPath → Bool) : Bool :=
  !files (manifestOf workDir ref)

theorem unscaffolded_anti {s s' : PosixPath → Bool} (h : s ≤ s')
    (hs : unscaffolded workDir ref s' = true) : unscaffolded workDir ref s = true := by
  unfold unscaffolded at hs ⊢
  cases hfile : s (manifestOf workDir ref) with
  | false => rfl
  | true => rwa [present_mono h hfile] at hs

/-- **Destroying a spell skips it only where it is not scaffolded.** -/
theorem tries_destroySpell : Tries Operation.destroyed (unscaffolded workDir) ref
    (destroySpell fate stackName workDir ref) := by
  have hdestroy : Tries Operation.destroyed (unscaffolded workDir) ref
      ((Operation.getStack stackName (workDir.join ref.name)).run fate >>= fun _ =>
        (Operation.destroy ref).run fate) :=
    Quiet.bind_tries (quiet_run rfl) (fun _ _ => unscaffolded_anti) fun _ => tries_run rfl _
  have hfound : Tries Operation.destroyed (unscaffolded workDir) ref
      (get >>= fun host : Host => if host.state (manifestOf workDir ref) then
        (Operation.getStack stackName (workDir.join ref.name)).run fate >>= fun _ =>
          (Operation.destroy ref).run fate
        else pure ⟨⟩) := by
    refine tries_get_bind fun host => ?_
    split
    · exact hdestroy host
    · rename_i habsent
      refine triesFrom_pure ?_
      rw [unscaffolded, Bool.eq_false_of_not_eq_true habsent]
      rfl
  rw [destroySpell, pathExists]
  simp only [bind_assoc, pure_bind]
  exact Quiet.bind_tries (quiet_run rfl) (fun _ _ => unscaffolded_anti) fun _ => hfound

end Keeps

/-! ## Runs over a manifest -/

/-- The `up`s a run attempts, in order, and whether they succeeded. -/
def upsOf (m : Runner Unit) (host : Host) : List (SpellRef × Bool) :=
  attempts Operation.upped (logged m host)

/-- The `destroy`s a run attempts, in order, and whether they succeeded. -/
def destroysOf (m : Runner Unit) (host : Host) : List (SpellRef × Bool) :=
  attempts Operation.destroyed (logged m host)

/-- All of them attempted, and with success. -/
def succeeded (refs : List SpellRef) : List (SpellRef × Bool) := refs.map fun ref => (ref, true)

section Runs

variable {fate : ℕ → Fate (PosixPath → Bool)} {project : ProjectConfig} {stackName : String}
  {workDir : PosixPath} {preview : Bool} {host host' : Host}

/-- **A run that returns ups all the spells**, in order. -/
theorem upsOf_of_run (h : (deployProject fate project stackName workDir false).run host =
    (.ok ⟨⟩, host')) :
    upsOf (deployProject fate project stackName workDir false) host = succeeded project.spells := by
  have htries : ∀ ref, Tries Operation.upped (fun _ _ => false) ref
      (deploySpell fate stackName workDir false ref) := fun _ => tries_deploySpell
  have hrun : (each (deploySpell fate stackName workDir false) project.spells).run host =
      (.ok ⟨⟩, host') := h
  obtain ⟨events, done, hext, hattempts, hdone, hall⟩ :=
    attempts_each_of_ok htries (fun _ _ _ _ h => h) hrun
  have hkeep : (project.spells.filter fun _ => !false) = project.spells :=
    List.filter_eq_self.mpr fun _ _ => rfl
  have hafter : host.Extends
      ((deployProject fate project stackName workDir false).after host) events := by
    rwa [after, h]
  rw [hkeep] at hall
  rw [upsOf, hafter.logged_eq, hattempts, hdone.antisymm hall]
  rfl

/-- **Where every spell is scaffolded, a run that returns destroys them all**, the last first. -/
theorem destroysOf_of_run (hpresent : ∀ ref ∈ project.spells, Present (manifestOf workDir ref) host)
    (h : (destroyProject fate project stackName workDir).run host = (.ok ⟨⟩, host')) :
    destroysOf (destroyProject fate project stackName workDir) host =
      succeeded project.spells.reverse := by
  have htries : ∀ ref, Tries Operation.destroyed (unscaffolded workDir) ref
      (destroySpell fate stackName workDir ref) := fun _ => tries_destroySpell
  have hrun : (each (destroySpell fate stackName workDir) project.spells.reverse).run host =
      (.ok ⟨⟩, host') := h
  obtain ⟨events, done, hext, hattempts, hdone, hall⟩ :=
    attempts_each_of_ok htries (fun _ _ _ => unscaffolded_anti) hrun
  have hfilter : (project.spells.reverse.filter fun ref => !unscaffolded workDir ref host.state) =
      project.spells.reverse := by
    refine List.filter_eq_self.mpr fun ref href => ?_
    rw [unscaffolded, hpresent ref (List.mem_reverse.mp href)]
    rfl
  have hafter :
      host.Extends ((destroyProject fate project stackName workDir).after host) events := by
    rwa [after, h]
  rw [hfilter] at hall
  rw [destroysOf, hafter.logged_eq, hattempts, hdone.antisymm hall]
  rfl

end Runs

/-- A network and a cluster. -/
def officeProject : ProjectConfig where
  spells := [{ spell := "vcn", name := "net" }, { spell := "oke", name := "cluster" }]

end CloudSpells
