import CloudSpells.Cli.Machine

/-!
# Cli/Commands — the commands of `cs`

A command looks for its `Pulumi.yaml` or `project.yaml` first, asks where it is to ask, and works on
its stack through the engine.  An engine error ends it, but for the wizard's, which prints the error
and goes on; the project commands leave it to the caller.

`cs project up` and `cs project destroy` go over the spells as the runner does
(`followsRunner_deployProject`, `followsRunner_destroyProject`).
-/

namespace CloudSpells

open Machinery Machinery.Exec Machinery.Journal

/-! ## What is printed -/

/-- `r.get("type") != "pulumi:pulumi:Stack"`, of the resources of a deployment. -/
def stackResources (data : List StackResource) : List StackResource :=
  data.filter fun r => r.type ≠ "pulumi:pulumi:Stack"

/-- `_urn_label`. -/
def urnLabel (urn : String) : String :=
  match urn.splitOn "::" with
  | _ :: _ :: type :: name :: _ => s!"[magenta]{type}[/magenta] [dim]::[/dim] [bold]{name}[/bold]"
  | _ => urn

/-- A node of the tree `cs status` prints. -/
def resourceRow (r : StackResource) : List String :=
  [if r.urn = "" then s!"[magenta]{r.type}[/magenta]" else urnLabel r.urn, r.id]

/-- What is printed of a value. -/
def StackValue.masked (v : StackValue) : String := if v.secret then "[secret]" else v.value

/-- `sorted(entries.items())`. -/
def sortedItems (entries : List (String × StackValue)) : List (String × StackValue) :=
  entries.mergeSort fun a b => a.1 ≤ b.1

/-- A dictionary as it is dumped. -/
def maskedItems (entries : List (String × StackValue)) : List (String × String) :=
  entries.map fun entry => (entry.1, entry.2.masked)

/-- The rows of `cs output`. -/
def outputRows (entries : List (String × StackValue)) : List (List String) :=
  (sortedItems entries).map fun entry => [entry.1, entry.2.masked]

/-- The rows of `cs config list`. -/
def configRows (entries : List (String × StackValue)) : List (List String) :=
  (sortedItems entries).map fun entry =>
    [entry.1, if entry.2.secret then "[dim][secret][/dim]" else entry.2.value,
      if entry.2.secret then "●" else ""]

/-! ## Commands -/

section Commands

variable {κ : Type} (env : Setting κ)

/-- `(path or Path(".")).resolve()`. -/
def Setting.workDir (path : Option String) : PosixPath :=
  env.resolve (PosixPath.parse (path.getD "."))

/-- The stack a command is for. -/
def Setting.stack (path : Option String) (stackName : String) : StackId where
  dir := env.workDir path
  name := stackName

/-- `_require_pulumi_yaml`. -/
def requirePulumiYaml (workDir : PosixPath) : Cli κ Unit := do
  if ← fileExists env (workDir.join "Pulumi.yaml") then pure ⟨⟩ else throw (.exit 1)

/-- `up`. -/
def up (path : Option String) (preview : Bool) (stackName : String) (yes : Bool) : Cli κ Unit := do
  let id := env.stack path stackName
  requirePulumiYaml env id.dir
  resolvePassphrase env
  orExit (getStack env id)
  if preview then orExit (previewStack env id)
  else do
    confirmUnless env yes (.deploy id)
    orExit (operate env .up id)

/-- `destroy`. -/
def destroy (path : Option String) (stackName : String) (yes remove : Bool) : Cli κ Unit := do
  let id := env.stack path stackName
  requirePulumiYaml env id.dir
  confirmUnless env yes (.destroy id)
  resolvePassphrase env
  orExit (getStack env id)
  orExit (operate env .destroy id)
  if remove then caught (removeStack env id false) else pure ⟨⟩

/-- `refresh`. -/
def refresh (path : Option String) (stackName : String) (yes : Bool) : Cli κ Unit := do
  let id := env.stack path stackName
  requirePulumiYaml env id.dir
  confirmUnless env yes (.refresh id)
  resolvePassphrase env
  orExit (getStack env id)
  orExit (operate env .refresh id)

/-- The tree of a deployment, where there is one and something in it. -/
def showResources (deployment : Option (List StackResource)) : Cli κ Unit :=
  match deployment with
  | none => record (.shown (.line "Stack has no state yet."))
  | some data =>
    if stackResources data = [] then record (.shown (.line "No resources in stack state."))
    else record (.shown (.table ((stackResources data).map resourceRow)))

/-- `status`. -/
def status (path : Option String) (stackName : String) : Cli κ Unit := do
  let id := env.stack path stackName
  requirePulumiYaml env id.dir
  resolvePassphrase env
  let kept ← orExit (do
    getStack env id
    readStack env id)
  showResources kept.deployment

/-- `output`. -/
def output (path key : Option String) (stackName : String) (asJson : Bool) : Cli κ Unit := do
  let id := env.stack path stackName
  requirePulumiYaml env id.dir
  resolvePassphrase env
  let kept ← orExit (do
    getStack env id
    readStack env id)
  match key with
  | some key =>
    match kept.outputs.lookup key with
    | none => do
      let available := (kept.outputs.map Prod.fst).mergeSort (fun a b => a ≤ b)
      record (.shown (.line ("  Available: " ++ ", ".intercalate available)))
      throw (.exit 1)
    | some value => record (.shown (.line value.value))
  | none =>
    if kept.outputs = [] then record (.shown (.line "No outputs."))
    else if asJson then record (.shown (.json (maskedItems kept.outputs)))
    else record (.shown (.table (outputRows kept.outputs)))

/-- `config_set`. -/
def configSet (key value : String) (secret : Bool) (path : Option String) (stackName : String) :
    Cli κ Unit := do
  let id := env.stack path stackName
  requirePulumiYaml env id.dir
  resolvePassphrase env
  orExit (do
    getStack env id
    setConfig env id key { value := value, secret := secret })
  record (.shown (.line (key ++ if secret then " (secret)" else "")))

/-- `config_get`. -/
def configGet (key : String) (path : Option String) (stackName : String) : Cli κ Unit := do
  let id := env.stack path stackName
  requirePulumiYaml env id.dir
  resolvePassphrase env
  let value ← orExit (do
    getStack env id
    getConfig env id key)
  record (.shown (.line value.masked))

/-- `config_list`. -/
def configList (path : Option String) (stackName : String) (asJson : Bool) : Cli κ Unit := do
  let id := env.stack path stackName
  requirePulumiYaml env id.dir
  resolvePassphrase env
  let kept ← orExit (do
    getStack env id
    readStack env id)
  if kept.config = [] then record (.shown (.line "No configuration keys set."))
  else if asJson then record (.shown (.json (maskedItems kept.config)))
  else record (.shown (.table (configRows kept.config)))

/-- `stack_list`: the engine lists the stacks. -/
def stackList (path : Option String) : Cli κ Unit := do
  let workDir := env.workDir path
  requirePulumiYaml env workDir
  orExit (do
    record (.listed workDir)
    mayFail env)

/-- `stack_rm`. -/
def stackRm (name : String) (path : Option String) (yes force : Bool) : Cli κ Unit := do
  let id := env.stack path name
  requirePulumiYaml env id.dir
  confirmUnless env yes (.remove id)
  resolvePassphrase env
  orExit (do
    getStack env id
    removeStack env id force)

/-! ### Projects -/

/-- `_load_project`. -/
def loadProject (workDir : PosixPath) : Cli κ ProjectManifest := do
  let yamlPath := workDir.join PROJECT_YAML
  if ← fileExists env yamlPath then do
    let m ← get
    match m.manifests yamlPath with
    | some project => pure project
    | none => throw .load
  else throw (.exit 1)

/-- An operation of the project runner. -/
def runnerCall (op : Operation) : Cli κ Unit := runner (op.run env.engine.fate)

/-- The body of the loop of `deploy_project`, with what it does to the stacks. -/
def deploySpellOn (stackName : String) (workDir : PosixPath) (preview : Bool) (ref : SpellRef) :
    Cli κ Unit := do
  let spellDir ← runner (ensureSpellDir env.engine.fate ref workDir)
  selecting env (ref.stack workDir stackName) (runnerCall env (.getStack stackName spellDir))
  if preview then runnerCall env (.preview ref)
  else acting env .up (ref.stack workDir stackName) (runnerCall env (.up ref))

/-- The body of the loop of `destroy_project`, with what it does to the stacks. -/
def destroySpellOn (stackName : String) (workDir : PosixPath) (ref : SpellRef) : Cli κ Unit := do
  let spellDir := workDir.join ref.name
  if ← fileExists env (spellDir.join "Pulumi.yaml") then do
    selecting env (ref.stack workDir stackName) (runnerCall env (.getStack stackName spellDir))
    acting env .destroy (ref.stack workDir stackName) (runnerCall env (.destroy ref))
  else pure ⟨⟩

/-- `except ValueError as exc: … raise typer.Exit(1) from exc`. -/
def valueErrorExits (m : Cli κ Unit) : Cli κ Unit :=
  tryCatch m fun
    | .runner (.valueError _) => throw (.exit 1)
    | e => throw e

/-- `if not yes and not preview: typer.confirm(…, abort=True)`. -/
def confirmUnlessPreview (preview yes : Bool) (q : Question) : Cli κ Unit :=
  if preview then pure ⟨⟩ else confirmUnless env yes q

/-- `project_up`. -/
def projectUp (path : Option String) (stackName : String) (preview yes : Bool) : Cli κ Unit := do
  let workDir := env.workDir path
  let project ← loadProject env workDir
  confirmUnlessPreview env preview yes (.deployProject project workDir stackName)
  resolvePassphrase env
  valueErrorExits (each (deploySpellOn env stackName workDir preview) project.spells)

/-- `project_destroy`. -/
def projectDestroy (path : Option String) (stackName : String) (yes : Bool) : Cli κ Unit := do
  let workDir := env.workDir path
  let project ← loadProject env workDir
  confirmUnless env yes (.destroyProject project workDir stackName)
  resolvePassphrase env
  each (destroySpellOn env stackName workDir) project.spells.reverse

/-- A row of `project_status`, of a spell whose `Pulumi.yaml` is there. -/
def statusRow (id : StackId) : Cli κ (String × ℕ) :=
  tryCatch (do
    getStack env id
    let kept ← readStack env id
    match kept.deployment with
    | some data => pure ("deployed", (stackResources data).length)
    | none => pure ("empty", 0)) fun _ => pure ("not deployed", 0)

/-- The body of the loop of `project_status`: the status and the number of resources. -/
def spellStatus (stackName : String) (workDir : PosixPath) (ref : SpellRef) :
    Cli κ (String × ℕ) := do
  if ← fileExists env (manifestOf workDir ref) then statusRow env (ref.stack workDir stackName)
  else pure ("not scaffolded", 0)

/-- `project_status`, with how its rows are printed. -/
def statusRows (stackName : String) (workDir : PosixPath) :
    List SpellRef → Cli κ (List (List String))
  | [] => pure []
  | ref :: refs => do
    let row ← spellStatus env stackName workDir ref
    let rows ← statusRows stackName workDir refs
    pure ([ref.name, ref.spell, row.1, if row.2 = 0 then "-" else toString row.2] :: rows)

/-- `project_status_cmd`. -/
def projectStatus (path : Option String) (stackName : String) : Cli κ Unit := do
  let workDir := env.workDir path
  let project ← loadProject env workDir
  resolvePassphrase env
  let rows ← statusRows env stackName workDir project.spells
  record (.shown (.table rows))

/-! ### The wizard -/

/-- The stack a wizard is asked for: where it has a `Pulumi.yaml`, go on with it. -/
def withStack (k : StackId → Cli κ Unit) : Cli κ Unit := do
  let pathStr ← prompt env "[bold]Stack directory[/bold]" (some ".")
  let stackName ← prompt env "[bold]Stack name[/bold]" (some "dev")
  let workDir := env.resolve (PosixPath.parse pathStr)
  if ← fileExists env (workDir.join "Pulumi.yaml") then k { dir := workDir, name := stackName }
  else pure ⟨⟩

/-- `if path is None: …`. -/
def stackDirectory (path : Option PosixPath) : Cli κ PosixPath :=
  match path with
  | some path => pure path
  | none => do
    let pathStr ← prompt env "[bold]Stack directory[/bold]" (some ".")
    pure (PosixPath.parse pathStr)

/-- `_wizard_deploy`. -/
def wizardDeploy (path : Option PosixPath) : Cli κ Unit := do
  let path ← stackDirectory env path
  let workDir := env.resolve path
  if ← fileExists env (workDir.join "Pulumi.yaml") then do
    let stackName ← prompt env "[bold]Stack name[/bold]" (some "dev")
    let id : StackId := { dir := workDir, name := stackName }
    if ← ask env .previewOnly then do
      resolvePassphrase env
      caught (do
        getStack env id
        previewStack env id)
    else do
      if ← ask env (.wizardDeploy id) then do
        resolvePassphrase env
        caught (do
          getStack env id
          operate env .up id)
      else pure ⟨⟩
  else pure ⟨⟩

/-- The templates of the wizard: the keys of `SPELL_LORE`. -/
def wizardTemplates : List String :=
  ["vcn", "compute", "oke", "autoscale", "lb", "bastion", "storage", "iam", "web-db"]

/-- `if out_dir.exists(): …`. -/
def mayOverwrite (name : String) (outDir : PosixPath) : Cli κ Bool := do
  if ← fileExists env outDir then ask env (.overwrite name) else pure true

/-- `_wizard_new`. -/
def wizardNew : Cli κ Unit := do
  let _ ← choose env "[bold]Template[/bold]" wizardTemplates.length
  let name ← prompt env "[bold]Stack name[/bold]" none
  let outDir := env.resolve (PosixPath.parse name)
  if ← mayOverwrite env name outDir then do
    runnerCall env (.mkdir outDir)
    each (fun fname => runnerCall env (.writeText (outDir.join fname))) renderedFiles
    if ← ask env .deployNow then wizardDeploy env (some (PosixPath.parse name)) else pure ⟨⟩
  else pure ⟨⟩

/-- `_wizard_status`: no error is caught. -/
def wizardStatus : Cli κ Unit := withStack env fun id => do
  resolvePassphrase env
  getStack env id
  let kept ← readStack env id
  showResources kept.deployment

/-- `_wizard_refresh`: nothing is asked before. -/
def wizardRefresh : Cli κ Unit := withStack env fun id => do
  resolvePassphrase env
  caught (do
    getStack env id
    operate env .refresh id)

/-- `_wizard_destroy`. -/
def wizardDestroy : Cli κ Unit := withStack env fun id => do
  if ← ask env (.wizardDestroy id) then do
    resolvePassphrase env
    caught (do
      getStack env id
      operate env .destroy id)
  else pure ⟨⟩

/-- `wizard`: the actions of the menu; managing projects prints a reference. -/
def wizard : Cli κ Unit := do
  match ← choose env "[bold cyan]Select[/bold cyan]" 6 with
  | 0 => wizardNew env
  | 1 => wizardDeploy env none
  | 2 => wizardStatus env
  | 3 => wizardRefresh env
  | 4 => wizardDestroy env
  | 5 => pure ⟨⟩

end Commands

/-! ## Sessions -/

/-- A command with its arguments, as they are parsed. -/
inductive Command
  | up (path : Option String) (preview : Bool) (stackName : String) (yes : Bool)
  | destroy (path : Option String) (stackName : String) (yes remove : Bool)
  | refresh (path : Option String) (stackName : String) (yes : Bool)
  | status (path : Option String) (stackName : String)
  | output (path key : Option String) (stackName : String) (asJson : Bool)
  | configSet (key value : String) (secret : Bool) (path : Option String) (stackName : String)
  | configGet (key : String) (path : Option String) (stackName : String)
  | configList (path : Option String) (stackName : String) (asJson : Bool)
  | stackList (path : Option String)
  | stackRm (name : String) (path : Option String) (yes force : Bool)
  | projectUp (path : Option String) (stackName : String) (preview yes : Bool)
  | projectDestroy (path : Option String) (stackName : String) (yes : Bool)
  | projectStatus (path : Option String) (stackName : String)
  | wizard
  deriving DecidableEq, Repr

/-- `--yes` was given. -/
def Command.yes : Command → Bool
  | up _ _ _ yes | destroy _ _ yes _ | refresh _ _ yes | stackRm _ _ yes _ | projectUp _ _ _ yes
  | projectDestroy _ _ yes => yes
  | _ => false

/-- Run a command. -/
def Command.exec {κ : Type} (env : Setting κ) : Command → Cli κ Unit
  | up path preview stackName yes => CloudSpells.up env path preview stackName yes
  | destroy path stackName yes remove => CloudSpells.destroy env path stackName yes remove
  | refresh path stackName yes => CloudSpells.refresh env path stackName yes
  | status path stackName => CloudSpells.status env path stackName
  | output path key stackName asJson => CloudSpells.output env path key stackName asJson
  | configSet key value secret path stackName =>
    CloudSpells.configSet env key value secret path stackName
  | configGet key path stackName => CloudSpells.configGet env key path stackName
  | configList path stackName asJson => CloudSpells.configList env path stackName asJson
  | stackList path => CloudSpells.stackList env path
  | stackRm name path yes force => CloudSpells.stackRm env name path yes force
  | projectUp path stackName preview yes => CloudSpells.projectUp env path stackName preview yes
  | projectDestroy path stackName yes => CloudSpells.projectDestroy env path stackName yes
  | projectStatus path stackName => CloudSpells.projectStatus env path stackName
  | wizard => CloudSpells.wizard env

/-- A step of a session: a command; or the files become others, by `cs new`, by `cs project new`, by
an editor. -/
inductive SessionStep
  | command (c : Command)
  | files (paths : PosixPath → Bool) (manifests : PosixPath → Option ProjectManifest)

/-- Take a step. -/
def SessionStep.exec {κ : Type} (env : Setting κ) : SessionStep → Cli κ Unit
  | command c => c.exec env
  | files paths manifests => modify fun m =>
      { m with host := { m.host with state := paths }, manifests := manifests }

/-! ## Projects, as the runner goes over them -/

/-- On the files a command does what a procedure of the runner does; it raises and returns the
same. -/
def FollowsRunner {κ α : Type} (x : Cli κ α) (y : Runner α) : Prop :=
  ∀ m, (x.run m).1 = (y.run m.host).1.mapError .runner ∧ (x.run m).2.host = (y.run m.host).2

section FollowsRunner

variable {κ α β : Type} {env : Setting κ} {stackName : String} {workDir : PosixPath}

theorem followsRunner_runner (y : Runner α) : FollowsRunner (runner y : Cli κ α) y :=
  fun _ => ⟨rfl, rfl⟩

theorem followsRunner_pure (a : α) : FollowsRunner (pure a : Cli κ α) (pure a) :=
  fun _ => ⟨rfl, rfl⟩

theorem FollowsRunner.bind {x : Cli κ α} {y : Runner α} {f : α → Cli κ β} {g : α → Runner β}
    (hx : FollowsRunner x y) (hf : ∀ a, FollowsRunner (f a) (g a)) :
    FollowsRunner (x >>= f) (y >>= g) := by
  intro m
  obtain ⟨hresult, hhost⟩ := hx m
  rcases hrun : y.run m.host with ⟨e | a, host⟩
  · rw [hrun] at hresult hhost
    have hleft : x.run m = (.error (.runner e), (x.run m).2) := Prod.ext hresult rfl
    rw [run_bind_error hleft, run_bind_error hrun]
    exact ⟨rfl, hhost⟩
  · rw [hrun] at hresult hhost
    have hleft : x.run m = (.ok a, (x.run m).2) := Prod.ext hresult rfl
    have hhost : (x.run m).2.host = host := hhost
    rw [run_bind_ok hleft, run_bind_ok hrun, ← hhost]
    exact hf a _

/-- What is done to the stacks before… -/
theorem FollowsRunner.modify_bind {x : Cli κ α} {y : Runner α} {f : Machine κ → Machine κ}
    (hf : ∀ m, (f m).host = m.host) (hx : FollowsRunner x y) :
    FollowsRunner (modify f >>= fun _ => x) y := by
  intro m
  rw [run_modify_bind, ← hf m]
  exact hx (f m)

/-- …and after is nothing to the files. -/
theorem FollowsRunner.bind_modify {x : Cli κ Unit} {y : Runner Unit} {f : Machine κ → Machine κ}
    (hf : ∀ m, (f m).host = m.host) (hx : FollowsRunner x y) :
    FollowsRunner (x >>= fun _ => modify f) y := by
  have hend : FollowsRunner (modify f : Cli κ Unit) (pure ⟨⟩) := fun m => ⟨rfl, hf m⟩
  have hbind := hx.bind fun _ => hend
  rwa [bind_pure_unit] at hbind

theorem followsRunner_each {exec : SpellRef → Cli κ Unit} {exec' : SpellRef → Runner Unit} :
    ∀ {refs : List SpellRef}, (∀ ref ∈ refs, FollowsRunner (exec ref) (exec' ref)) →
      FollowsRunner (each exec refs) (each exec' refs)
  | [], _ => followsRunner_pure _
  | _ :: _, h => (h _ List.mem_cons_self).bind
      fun _ => followsRunner_each fun ref href => h ref (List.mem_cons_of_mem _ href)

theorem Machine.host_create (m : Machine κ) (id : StackId) : (m.create id).host = m.host := by
  unfold create
  split
  · rfl
  · rfl

theorem Machine.host_work (m : Machine κ) (engine : Engine κ) (action : Action) (id : StackId) :
    (m.work engine action id).host = m.host := by
  unfold work
  split
  · rfl
  · cases action
    · rfl
    · rfl
    · rfl
    · rfl

theorem followsRunner_selecting {id : StackId} {call : Cli κ Unit} {y : Runner Unit}
    (h : FollowsRunner call y) : FollowsRunner (selecting env id call) y := by
  refine .modify_bind (fun _ => rfl) (.modify_bind (fun m => ?_)
    (.bind_modify (fun m => m.host_create id) h))
  split
  · exact m.host_create id
  · rfl

theorem followsRunner_acting {action : Action} {id : StackId} {call : Cli κ Unit}
    {y : Runner Unit} (h : FollowsRunner call y) : FollowsRunner (acting env action id call) y :=
  .modify_bind (fun m => Machine.host_work (m.tell _) env.engine action id) h

/-- **A project is deployed as the runner deploys it**… -/
theorem followsRunner_deployProject (project : ProjectManifest) (preview : Bool) :
    FollowsRunner (each (deploySpellOn env stackName workDir preview) project.spells)
      (deployProject env.engine.fate project.toProjectConfig stackName workDir preview) := by
  refine followsRunner_each fun ref _ => (followsRunner_runner _).bind fun dir =>
    (followsRunner_selecting (followsRunner_runner _)).bind fun _ => ?_
  cases preview with
  | true => exact followsRunner_runner _
  | false => exact followsRunner_acting (followsRunner_runner _)

/-- …and destroyed as the runner destroys it. -/
theorem followsRunner_destroyProject (project : ProjectManifest) :
    FollowsRunner (each (destroySpellOn env stackName workDir) project.spells.reverse)
      (destroyProject env.engine.fate project.toProjectConfig stackName workDir) := by
  refine followsRunner_each fun ref _ => (followsRunner_runner _).bind fun found => ?_
  cases found with
  | true =>
    exact (followsRunner_selecting (followsRunner_runner _)).bind fun _ =>
      followsRunner_acting (followsRunner_runner _)
  | false => exact followsRunner_pure _

end FollowsRunner

end CloudSpells
