import CloudSpells.Cli.NewProject
import CloudSpells.Machinery.Trace

/-!
# Cli/Machine — what the commands of `cs` work on

A command works on the files, and through the engine on stacks: what the engine keeps of a stack,
and what is live of it in the cloud.  Nothing is known of the user's answers (`Terminal`), nor of
what an engine operation makes of the stack it is for and of whether it fails (`Engine`); the files
are those of the project runner.

Every question and every operation is an event, and the events are the clock.
-/

namespace CloudSpells

open Machinery Machinery.Exec Machinery.Journal

/-! ## Stacks -/

/-- A stack: the directory of its program, and its name. -/
structure StackId where
  dir : PosixPath
  name : String
  deriving DecidableEq, Repr

/-- A resource of a deployment; a key that is missing is `""`. -/
structure StackResource where
  urn : String
  type : String
  id : String
  deriving DecidableEq, Repr

/-- `ConfigValue`, `OutputValue`: a value, as text. -/
structure StackValue where
  value : String
  secret : Bool
  deriving DecidableEq, Repr

/-- What the engine keeps of a stack; a deployment that is falsy is none. -/
structure StackRecord where
  deployment : Option (List StackResource) := none
  outputs : List (String × StackValue) := []
  config : List (String × StackValue) := []
  deriving DecidableEq, Repr

/-! ## Questions -/

/-- What an operation does with a stack. -/
inductive Action
  | up
  | destroy
  | refresh
  | remove
  deriving DecidableEq, Repr

/-- `str(path)`. -/
def PosixPath.str (path : PosixPath) : String :=
  if path.root = "" ∧ path.parts = [] then "." else path.root ++ "/".intercalate path.parts

/-- The stack of a spell of a project. -/
def SpellRef.stack (ref : SpellRef) (workDir : PosixPath) (stackName : String) : StackId where
  dir := workDir.join ref.name
  name := stackName

/-- The questions that are answered with yes or no. -/
inductive Question
  | deploy (id : StackId)
  | destroy (id : StackId)
  | refresh (id : StackId)
  | remove (id : StackId)
  | deployProject (project : ProjectManifest) (workDir : PosixPath) (stackName : String)
  | destroyProject (project : ProjectManifest) (workDir : PosixPath) (stackName : String)
  | overwrite (name : String)
  | deployNow
  | previewOnly
  | wizardDeploy (id : StackId)
  | wizardDestroy (id : StackId)
  deriving DecidableEq, Repr

namespace Question

/-- The text of a question. -/
def text : Question → String
  | deploy id => s!"Deploy stack '{id.name}' in {id.dir.str}?"
  | destroy id => s!"Destroy all resources in stack '{id.name}'?"
  | refresh id => s!"Refresh stack '{id.name}' in {id.dir.str}?"
  | remove id => s!"Remove stack '{id.name}' from {id.dir.str}?"
  | deployProject project _ _ =>
    s!"Deploy {project.spells.length} spell(s) in project '{project.name}'?"
  | destroyProject project _ _ => s!"Destroy all resources in project '{project.name}'?"
  | overwrite name => s!"[yellow]'{name}' already exists. Overwrite?[/yellow]"
  | deployNow => "[bold]Deploy now?[/bold]"
  | previewOnly => "[bold]Preview only — no changes applied?[/bold]"
  | wizardDeploy id => s!"[bold]Deploy stack '[cyan]{id.name}[/cyan]'?[/bold]"
  | wizardDestroy id =>
    s!"[bold yellow]Destroy all resources in '[cyan]{id.name}[/cyan]'?[/bold yellow]"

/-- The answer an empty line is. -/
def default : Question → Bool
  | wizardDeploy _ => true
  | _ => false

/-- What a yes agrees to: an action on a stack, or on the stacks of a project. -/
def Covers : Question → Action → StackId → Prop
  | deploy id, action, k => action = .up ∧ k = id
  | destroy id, action, k => (action = .destroy ∨ action = .remove) ∧ k = id
  | refresh id, action, k => action = .refresh ∧ k = id
  | remove id, action, k => action = .remove ∧ k = id
  | deployProject project workDir stackName, action, k =>
    action = .up ∧ ∃ ref ∈ project.spells, k = ref.stack workDir stackName
  | destroyProject project workDir stackName, action, k =>
    action = .destroy ∧ ∃ ref ∈ project.spells, k = ref.stack workDir stackName
  | wizardDeploy id, action, k => action = .up ∧ k = id
  | wizardDestroy id, action, k => action = .destroy ∧ k = id
  | overwrite _, _, _ | deployNow, _, _ | previewOnly, _, _ => False

end Question

/-! ## Events -/

/-- What is printed of a stack: a line, a JSON object, the rows of a table or of a tree. -/
inductive Shown
  | line (text : String)
  | json (entries : List (String × String))
  | table (rows : List (List String))
  deriving DecidableEq, Repr

/-- What happens in a session. -/
inductive Event
  /-- A question was answered, or the user left. -/
  | answered (question : Question) (answer : Option Bool)
  /-- `--yes` was given. -/
  | waived (question : Question)
  /-- A text was asked for. -/
  | prompted (text : String)
  /-- A stack was selected. -/
  | selected (id : StackId)
  /-- A stack was worked on. -/
  | acted (action : Action) (id : StackId)
  /-- A stack was read. -/
  | looked (id : StackId)
  /-- The stacks of a directory were listed. -/
  | listed (dir : PosixPath)
  /-- A configuration key of a stack was set. -/
  | configured (id : StackId) (key : String)
  | shown (what : Shown)
  deriving DecidableEq, Repr

/-! ## The machine -/

/-- The user: what a question is answered with, given its text and its default, and what is entered
where a text is asked for.  None is a user who leaves. -/
structure Terminal where
  confirm : ℕ → String → Bool → Option Bool
  ask : ℕ → String → Option String → Option String
  choose : ℕ → String → (n : ℕ) → Option (Fin n)

/-- The engine: what becomes of the operations of the project runner, which of the others fail,
which stacks are made where a selection fails, and what the operations make of what is kept of their
stack and of what is live of it.  A refresh changes nothing that is live. -/
structure Engine (κ : Type) where
  fate : ℕ → Fate (PosixPath → Bool)
  fails : ℕ → Bool
  creates : ℕ → Bool
  up : ℕ → StackRecord → κ → StackRecord × κ
  destroy : ℕ → StackRecord → κ → StackRecord × κ
  refresh : ℕ → StackRecord → κ → StackRecord

/-- What a session runs in: the user, the engine, `path.resolve()`, and whether a passphrase is
set. -/
structure Setting (κ : Type) where
  terminal : Terminal
  engine : Engine κ
  resolve : PosixPath → PosixPath
  passphrase : Bool

/-- The files, with what `ProjectConfig.load` makes of a `project.yaml`; the stacks, with what is
live of them; and the events so far. -/
structure Machine (κ : Type) where
  host : Host
  manifests : PosixPath → Option ProjectManifest
  records : StackId → Option StackRecord
  live : StackId → κ
  events : List Event

/-- What a command raises. -/
inductive CliError
  /-- `typer.Exit`. -/
  | exit (code : ℕ)
  /-- `typer.Abort`, or the end of the input. -/
  | abort
  /-- A `CommandError`. -/
  | command
  /-- What an operation of the runner raised. -/
  | runner (error : RunnerError)
  /-- What `ProjectConfig.load` raised. -/
  | load
  deriving DecidableEq, Repr

/-- A command of `cs`. -/
abbrev Cli (κ α : Type) := Exec CliError (Machine κ) α

section Primitives

variable {κ α : Type} (env : Setting κ)

/-- The machine with an event more. -/
def Machine.tell (m : Machine κ) (e : Event) : Machine κ := { m with events := m.events ++ [e] }

/-- Add an event. -/
def record (e : Event) : Cli κ Unit := modify fun m => m.tell e

/-- Do what the project runner does. -/
def runner (x : Runner α) : Cli κ α := fun m =>
  ((x.run m.host).1.mapError .runner, { m with host := (x.run m.host).2 })

/-- `path.exists()`. -/
def fileExists (path : PosixPath) : Cli κ Bool := runner (pathExists env.engine.fate path)

/-- `except CommandError as exc: … raise typer.Exit(1) from exc`. -/
def orExit (m : Cli κ α) : Cli κ α :=
  tryCatch m fun e => throw (if e = .command then .exit 1 else e)

/-- `except CommandError as exc:`, where an error is printed and nothing else is done. -/
def caught (m : Cli κ Unit) : Cli κ Unit :=
  tryCatch m fun e => if e = .command then pure ⟨⟩ else throw e

/-! ### The user -/

/-- The answer to a question. -/
def answer (q : Question) : Cli κ (Option Bool) := do
  let m ← get
  let reply := env.terminal.confirm m.events.length q.text q.default
  record (.answered q reply)
  pure reply

/-- `if not yes: typer.confirm(…, abort=True)`. -/
def confirmUnless (yes : Bool) (q : Question) : Cli κ Unit :=
  if yes then record (.waived q)
  else do
    let reply ← answer env q
    if reply = some true then pure ⟨⟩ else throw .abort

/-- `Confirm.ask(…)`. -/
def ask (q : Question) : Cli κ Bool := do
  match ← answer env q with
  | some reply => pure reply
  | none => throw .abort

/-- `Prompt.ask(…)`, `typer.prompt(…)`. -/
def prompt (text : String) (default : Option String) : Cli κ String := do
  let m ← get
  record (.prompted text)
  match env.terminal.ask m.events.length text default with
  | some reply => pure reply
  | none => throw .abort

/-- `Prompt.ask(…, choices=…)`: one of the choices, by its position. -/
def choose (text : String) (n : ℕ) : Cli κ (Fin n) := do
  let m ← get
  record (.prompted text)
  match env.terminal.choose m.events.length text n with
  | some reply => pure reply
  | none => throw .abort

/-- `resolve_passphrase`. -/
def resolvePassphrase : Cli κ Unit :=
  if env.passphrase then pure ⟨⟩
  else do
    let _ ← prompt env "Pulumi config passphrase (set PULUMI_CONFIG_PASSPHRASE to skip)" none
    pure ⟨⟩

/-! ### The engine -/

/-- An operation of the engine that fails or not. -/
def mayFail : Cli κ Unit := do
  let m ← get
  if env.engine.fails m.events.length then throw .command else pure ⟨⟩

/-- A stack there is after it was selected. -/
def Machine.create (m : Machine κ) (id : StackId) : Machine κ :=
  match m.records id with
  | some _ => m
  | none => { m with records := Function.update m.records id (some {}) }

/-- `get_stack`: a stack is made where there is none, and may be also where the call fails. -/
def selecting (id : StackId) (call : Cli κ Unit) : Cli κ Unit := do
  record (.selected id)
  modify fun m => if env.engine.creates m.events.length then m.create id else m
  call
  modify fun m => m.create id

/-- `get_stack`, outside the project runner. -/
def getStack (id : StackId) : Cli κ Unit := selecting env id (mayFail env)

/-- What an operation makes of the stack it is for. -/
def Machine.work (m : Machine κ) (engine : Engine κ) (action : Action) (id : StackId) :
    Machine κ :=
  match m.records id with
  | none => m
  | some kept =>
    match action with
    | .up =>
      let made := engine.up m.events.length kept (m.live id)
      { m with
        records := Function.update m.records id (some made.1)
        live := Function.update m.live id made.2 }
    | .destroy =>
      let made := engine.destroy m.events.length kept (m.live id)
      { m with
        records := Function.update m.records id (some made.1)
        live := Function.update m.live id made.2 }
    | .refresh =>
      let made := engine.refresh m.events.length kept (m.live id)
      { m with records := Function.update m.records id (some made) }
    | .remove => { m with records := Function.update m.records id none }

/-- An operation works on its stack, also where the call fails. -/
def acting (action : Action) (id : StackId) (call : Cli κ Unit) : Cli κ Unit := do
  modify fun m => (m.tell (.acted action id)).work env.engine action id
  call

/-- `stack.up`, `stack.destroy`, `stack.refresh`, outside the project runner. -/
def operate (action : Action) (id : StackId) : Cli κ Unit := acting env action id (mayFail env)

/-- `stack.preview`. -/
def previewStack (id : StackId) : Cli κ Unit := do
  record (.looked id)
  mayFail env

/-- There is something in a deployment. -/
def StackRecord.hasResources (kept : StackRecord) : Bool :=
  match kept.deployment with
  | none => false
  | some data => !data.isEmpty

/-- `workspace.remove_stack`: refused where the stack has resources, unless by force. -/
def removeStack (id : StackId) (force : Bool) : Cli κ Unit := do
  record (.looked id)
  mayFail env
  let m ← get
  match m.records id with
  | none => throw .command
  | some kept =>
    if kept.hasResources && !force then throw .command else acting env .remove id (pure ⟨⟩)

/-- What is kept of a stack that was selected. -/
def readStack (id : StackId) : Cli κ StackRecord := do
  record (.looked id)
  mayFail env
  let m ← get
  match m.records id with
  | none => throw .command
  | some kept => pure kept

/-- `stack.get_config`: an unknown key is a `CommandError`. -/
def getConfig (id : StackId) (key : String) : Cli κ StackValue := do
  let kept ← readStack env id
  match kept.config.lookup key with
  | none => throw .command
  | some value => pure value

/-- The entries of a dictionary with a key set. -/
def setKey (entries : List (String × StackValue)) (key : String) (value : StackValue) :
    List (String × StackValue) :=
  if (entries.lookup key).isSome then
    entries.map fun entry => if entry.1 = key then (key, value) else entry
  else entries ++ [(key, value)]

/-- The machine with a configuration key of a stack set. -/
def Machine.configure (m : Machine κ) (id : StackId) (key : String) (value : StackValue) :
    Machine κ :=
  { m with records := Function.update m.records id ((m.records id).map fun kept =>
      { kept with config := setKey kept.config key value }) }

/-- `stack.set_config`. -/
def setConfig (id : StackId) (key : String) (value : StackValue) : Cli κ Unit := do
  record (.looked id)
  mayFail env
  modify fun m => (m.tell (.configured id key)).configure id key value

end Primitives

end CloudSpells
