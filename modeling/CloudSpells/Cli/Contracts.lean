import CloudSpells.Cli.Commands

/-!
# Cli/Contracts — what a command may do to the machine

A command adds events, changes files, makes stacks, sets configuration keys, and works on stacks.  A
contract that tolerates each of these, the work on a stack where it is allowed (`Tolerates`), is met
by the parts of commands; and where all work is allowed, by every command (`meets_exec`).
-/

namespace CloudSpells

open Machinery Machinery.Exec

/-! ## What a command may do -/

/-- An event of the user's, of a stack that is selected or read, of what is printed; a waiver only
where `--yes` was given. -/
def Event.Plain {κ : Type} (env : Setting κ) (yes : Bool) : Event → Prop
  | answered q reply => ∃ n, reply = env.terminal.confirm n q.text q.default
  | waived _ => yes = true
  | acted _ _ | configured _ _ => False
  | prompted _ | selected _ | looked _ | listed _ | shown _ => True

/-- A contract that tolerates what a command does, the actions on stacks where they are allowed. -/
structure Tolerates {κ : Type} (env : Setting κ) (yes : Bool)
    (allowed : Action → StackId → Prop) (Q : Machine κ → List Event → Machine κ → Prop) :
    Prop where
  composes : Composes Q
  host : ∀ m host, Q m [] { m with host := host }
  create : ∀ m id, Q m [] (m.create id)
  event : ∀ m e, e.Plain env yes → Q m [e] (m.tell e)
  work : ∀ m action id, allowed action id →
    Q m [.acted action id] ((m.tell (.acted action id)).work env.engine action id)
  configure : ∀ m id key value,
    Q m [.configured id key] ((m.tell (.configured id key)).configure id key value)

section Tolerates

variable {κ α : Type} {env : Setting κ} {yes : Bool} {allowed : Action → StackId → Prop}
  {Q : Machine κ → List Event → Machine κ → Prop}

theorem Machine.events_create (m : Machine κ) (id : StackId) :
    (m.create id).events = m.events := by
  unfold create
  split
  · rfl
  · rfl

theorem Machine.events_work (m : Machine κ) (engine : Engine κ) (action : Action) (id : StackId) :
    (m.work engine action id).events = m.events := by
  unfold work
  split
  · rfl
  · cases action
    · rfl
    · rfl
    · rfl
    · rfl

namespace Tolerates

variable (h : Tolerates env yes allowed Q)

include h

theorem meets_record (e : Event) (he : e.Plain env yes) :
    Meets Machine.events Q (record e : Cli κ Unit) :=
  meets_modify (fun _ => rfl) fun m => h.event m e he

theorem meets_runner (x : Runner α) : Meets Machine.events Q (runner x : Cli κ α) :=
  fun m => ⟨[], (List.append_nil _).symm, h.host m _⟩

theorem meets_fileExists (path : PosixPath) : Meets Machine.events Q (fileExists env path) :=
  h.meets_runner _

theorem meets_orExit {m : Cli κ α} (hm : Meets Machine.events Q m) :
    Meets Machine.events Q (orExit m) :=
  meets_tryCatch h.composes hm fun _ => meets_throw h.composes _

theorem meets_caught {m : Cli κ Unit} (hm : Meets Machine.events Q m) :
    Meets Machine.events Q (caught m) :=
  meets_tryCatch h.composes hm fun _ =>
    meets_ite (fun _ => meets_pure h.composes _) fun _ => meets_throw h.composes _

/-! ### The user -/

theorem meets_answer (q : Question) : Meets Machine.events Q (answer env q) := by
  refine meets_get_bind fun m =>
    Meets.bind h.composes (h.meets_record (.answered q _) ?_) (fun _ => meets_pure h.composes _) m
  exact ⟨m.events.length, rfl⟩

theorem meets_confirmUnless {given : Bool} (hyes : given = true → yes = true) (q : Question) :
    Meets Machine.events Q (confirmUnless env given q) :=
  meets_ite (fun hgiven => h.meets_record _ (hyes hgiven)) fun _ =>
    Meets.bind h.composes (h.meets_answer q) fun _ =>
      meets_ite (fun _ => meets_pure h.composes _) fun _ => meets_throw h.composes _

theorem meets_confirmUnlessPreview {preview given : Bool} (hyes : given = true → yes = true)
    (q : Question) : Meets Machine.events Q (confirmUnlessPreview env preview given q) :=
  meets_ite (fun _ => meets_pure h.composes _) fun _ => h.meets_confirmUnless hyes q

theorem meets_ask (q : Question) : Meets Machine.events Q (ask env q) := by
  refine Meets.bind h.composes (h.meets_answer q) fun reply => ?_
  cases reply with
  | none => exact meets_throw h.composes _
  | some reply => exact meets_pure h.composes _

theorem meets_prompt (text : String) (default : Option String) :
    Meets Machine.events Q (prompt env text default) := by
  refine meets_get_bind fun m =>
    Meets.bind h.composes (h.meets_record (.prompted text) trivial) (fun _ => ?_) m
  split
  · exact meets_pure h.composes _
  · exact meets_throw h.composes _

theorem meets_choose (text : String) (n : ℕ) : Meets Machine.events Q (choose env text n) := by
  refine meets_get_bind fun m =>
    Meets.bind h.composes (h.meets_record (.prompted text) trivial) (fun _ => ?_) m
  split
  · exact meets_pure h.composes _
  · exact meets_throw h.composes _

theorem meets_resolvePassphrase : Meets Machine.events Q (resolvePassphrase env) :=
  meets_ite (fun _ => meets_pure h.composes _) fun _ =>
    Meets.bind h.composes (h.meets_prompt _ _) fun _ => meets_pure h.composes _

/-! ### The engine -/

theorem meets_mayFail : Meets Machine.events Q (mayFail env) :=
  meets_get_bind fun m => meetsFrom_ite (fun _ => meets_throw h.composes _ m)
    fun _ => meets_pure h.composes _ m

theorem meets_create (id : StackId) :
    Meets Machine.events Q (modify fun m => m.create id : Cli κ Unit) :=
  meets_modify (fun m => (m.events_create id).trans (List.append_nil _).symm)
    fun m => h.create m id

theorem meets_selecting {id : StackId} {call : Cli κ Unit} (hcall : Meets Machine.events Q call) :
    Meets Machine.events Q (selecting env id call) := by
  refine Meets.bind h.composes (h.meets_record _ trivial) fun _ => ?_
  refine Meets.bind h.composes (meets_modify (l := []) (fun m => ?_) fun m => ?_) fun _ =>
    Meets.bind h.composes hcall fun _ => h.meets_create id
  · split
    · exact (m.events_create id).trans (List.append_nil _).symm
    · exact (List.append_nil _).symm
  · split
    · exact h.create m id
    · exact h.composes.refl m

theorem meets_getStack (id : StackId) : Meets Machine.events Q (getStack env id) :=
  h.meets_selecting h.meets_mayFail

/-- **An action is added where it is allowed.** -/
theorem meets_acting {action : Action} {id : StackId} {call : Cli κ Unit}
    (hallowed : allowed action id) (hcall : Meets Machine.events Q call) :
    Meets Machine.events Q (acting env action id call) := by
  refine Meets.bind h.composes (meets_modify (fun m => ?_) fun m => h.work m action id hallowed)
    fun _ => hcall
  exact Machine.events_work ..

theorem meets_operate {action : Action} {id : StackId} (hallowed : allowed action id) :
    Meets Machine.events Q (operate env action id) :=
  h.meets_acting hallowed h.meets_mayFail

theorem meets_previewStack (id : StackId) : Meets Machine.events Q (previewStack env id) :=
  Meets.bind h.composes (h.meets_record _ trivial) fun _ => h.meets_mayFail

theorem meets_removeStack {id : StackId} (hallowed : allowed .remove id) (force : Bool) :
    Meets Machine.events Q (removeStack env id force) := by
  refine Meets.bind h.composes (h.meets_record _ trivial) fun _ =>
    Meets.bind h.composes h.meets_mayFail fun _ => meets_get_bind fun m => ?_
  split
  · exact meets_throw h.composes _ m
  · exact meetsFrom_ite (fun _ => meets_throw h.composes _ m)
      fun _ => h.meets_acting hallowed (meets_pure h.composes _) m

theorem meets_readStack (id : StackId) : Meets Machine.events Q (readStack env id) := by
  refine Meets.bind h.composes (h.meets_record _ trivial) fun _ =>
    Meets.bind h.composes h.meets_mayFail fun _ => meets_get_bind fun m => ?_
  split
  · exact meets_throw h.composes _ m
  · exact meets_pure h.composes _ m

theorem meets_setConfig (id : StackId) (key : String) (value : StackValue) :
    Meets Machine.events Q (setConfig env id key value) :=
  Meets.bind h.composes (h.meets_record _ trivial) fun _ =>
    Meets.bind h.composes h.meets_mayFail fun _ =>
      meets_modify (fun _ => rfl) fun m => h.configure m id key value

theorem meets_getConfig (id : StackId) (key : String) :
    Meets Machine.events Q (getConfig env id key) := by
  refine Meets.bind h.composes (h.meets_readStack id) fun kept => ?_
  split
  · exact meets_throw h.composes _
  · exact meets_pure h.composes _

/-! ### Parts of commands -/

theorem meets_requirePulumiYaml (workDir : PosixPath) :
    Meets Machine.events Q (requirePulumiYaml env workDir) :=
  Meets.bind h.composes (h.meets_fileExists _) fun _ =>
    meets_ite (fun _ => meets_pure h.composes _) fun _ => meets_throw h.composes _

/-- What many commands start with. -/
theorem meets_selectAndRead (id : StackId) : Meets Machine.events Q (orExit (do
    getStack env id
    readStack env id)) :=
  h.meets_orExit (Meets.bind h.composes (h.meets_getStack id) fun _ => h.meets_readStack id)

theorem meets_showResources (deployment : Option (List StackResource)) :
    Meets Machine.events Q (showResources deployment : Cli κ Unit) := by
  cases deployment with
  | none => exact h.meets_record _ trivial
  | some data =>
    exact meets_ite (fun _ => h.meets_record _ trivial) fun _ => h.meets_record _ trivial

theorem meets_loadProject (workDir : PosixPath) :
    Meets Machine.events Q (loadProject env workDir) := by
  refine Meets.bind h.composes (h.meets_fileExists _) fun _ =>
    meets_ite (fun _ => meets_get_bind fun m => ?_) fun _ => meets_throw h.composes _
  split
  · exact meets_pure h.composes _ m
  · exact meets_throw h.composes _ m

theorem meets_deploySpellOn {stackName : String} {workDir : PosixPath} {preview : Bool}
    {ref : SpellRef} (hallowed : preview = false → allowed .up (ref.stack workDir stackName)) :
    Meets Machine.events Q (deploySpellOn env stackName workDir preview ref) := by
  refine Meets.bind h.composes (h.meets_runner _) fun dir =>
    Meets.bind h.composes (h.meets_selecting (h.meets_runner _)) fun _ =>
      meets_ite (fun _ => h.meets_runner _) fun hpreview => ?_
  exact h.meets_acting (hallowed (Bool.eq_false_of_not_eq_true hpreview)) (h.meets_runner _)

theorem meets_destroySpellOn {stackName : String} {workDir : PosixPath} {ref : SpellRef}
    (hallowed : allowed .destroy (ref.stack workDir stackName)) :
    Meets Machine.events Q (destroySpellOn env stackName workDir ref) :=
  Meets.bind h.composes (h.meets_fileExists _) fun _ =>
    meets_ite (fun _ => Meets.bind h.composes (h.meets_selecting (h.meets_runner _)) fun _ =>
      h.meets_acting hallowed (h.meets_runner _)) fun _ => meets_pure h.composes _

theorem meets_valueErrorExits {m : Cli κ Unit} (hm : Meets Machine.events Q m) :
    Meets Machine.events Q (valueErrorExits m) := by
  refine meets_tryCatch h.composes hm fun e => ?_
  split
  · exact meets_throw h.composes _
  · exact meets_throw h.composes _

theorem meets_statusRow (id : StackId) : Meets Machine.events Q (statusRow env id) := by
  refine meets_tryCatch h.composes (Meets.bind h.composes (h.meets_getStack id) fun _ =>
    Meets.bind h.composes (h.meets_readStack id) fun kept => ?_) fun _ => meets_pure h.composes _
  split
  · exact meets_pure h.composes _
  · exact meets_pure h.composes _

theorem meets_spellStatus (stackName : String) (workDir : PosixPath) (ref : SpellRef) :
    Meets Machine.events Q (spellStatus env stackName workDir ref) :=
  Meets.bind h.composes (h.meets_fileExists _) fun _ =>
    meets_ite (fun _ => h.meets_statusRow _) fun _ => meets_pure h.composes _

theorem meets_statusRows (stackName : String) (workDir : PosixPath) (refs : List SpellRef) :
    Meets Machine.events Q (statusRows env stackName workDir refs) := by
  induction refs with
  | nil => exact meets_pure h.composes _
  | cons ref refs ih =>
    exact Meets.bind h.composes (h.meets_spellStatus _ _ _) fun _ =>
      Meets.bind h.composes ih fun _ => meets_pure h.composes _

theorem meets_withStack {k : StackId → Cli κ Unit} (hk : ∀ id, Meets Machine.events Q (k id)) :
    Meets Machine.events Q (withStack env k) :=
  Meets.bind h.composes (h.meets_prompt _ _) fun _ =>
    Meets.bind h.composes (h.meets_prompt _ _) fun _ =>
      Meets.bind h.composes (h.meets_fileExists _) fun _ =>
        meets_ite (fun _ => hk _) fun _ => meets_pure h.composes _

theorem meets_stackDirectory (path : Option PosixPath) :
    Meets Machine.events Q (stackDirectory env path) := by
  cases path with
  | none => exact Meets.bind h.composes (h.meets_prompt _ _) fun _ => meets_pure h.composes _
  | some path => exact meets_pure h.composes _

theorem meets_mayOverwrite (name : String) (outDir : PosixPath) :
    Meets Machine.events Q (mayOverwrite env name outDir) :=
  Meets.bind h.composes (h.meets_fileExists _) fun _ =>
    meets_ite (fun _ => h.meets_ask _) fun _ => meets_pure h.composes _

/-- Selecting a stack and working on it, for the wizard. -/
theorem meets_wizardCall {id : StackId} {m : Cli κ Unit} (hm : Meets Machine.events Q m) :
    Meets Machine.events Q (do
      resolvePassphrase env
      caught (do
        getStack env id
        m)) :=
  Meets.bind h.composes h.meets_resolvePassphrase fun _ =>
    h.meets_caught (Meets.bind h.composes (h.meets_getStack id) fun _ => hm)

/-! ### Commands -/

theorem meets_status (path : Option String) (stackName : String) :
    Meets Machine.events Q (status env path stackName) :=
  Meets.bind h.composes (h.meets_requirePulumiYaml _) fun _ =>
    Meets.bind h.composes h.meets_resolvePassphrase fun _ =>
      Meets.bind h.composes (h.meets_selectAndRead _) fun _ => h.meets_showResources _

theorem meets_output (path key : Option String) (stackName : String) (asJson : Bool) :
    Meets Machine.events Q (output env path key stackName asJson) := by
  refine Meets.bind h.composes (h.meets_requirePulumiYaml _) fun _ =>
    Meets.bind h.composes h.meets_resolvePassphrase fun _ =>
      Meets.bind h.composes (h.meets_selectAndRead _) fun kept => ?_
  cases key with
  | none =>
    exact meets_ite (fun _ => h.meets_record _ trivial) fun _ =>
      meets_ite (fun _ => h.meets_record _ trivial) fun _ => h.meets_record _ trivial
  | some key =>
    dsimp only
    split
    · exact Meets.bind h.composes (h.meets_record _ trivial) fun _ => meets_throw h.composes _
    · exact h.meets_record _ trivial

theorem meets_configSet (key value : String) (secret : Bool) (path : Option String)
    (stackName : String) :
    Meets Machine.events Q (configSet env key value secret path stackName) :=
  Meets.bind h.composes (h.meets_requirePulumiYaml _) fun _ =>
    Meets.bind h.composes h.meets_resolvePassphrase fun _ =>
      Meets.bind h.composes (h.meets_orExit (Meets.bind h.composes (h.meets_getStack _) fun _ =>
        h.meets_setConfig _ _ _)) fun _ => h.meets_record _ trivial

theorem meets_configGet (key : String) (path : Option String) (stackName : String) :
    Meets Machine.events Q (configGet env key path stackName) :=
  Meets.bind h.composes (h.meets_requirePulumiYaml _) fun _ =>
    Meets.bind h.composes h.meets_resolvePassphrase fun _ =>
      Meets.bind h.composes (h.meets_orExit (Meets.bind h.composes (h.meets_getStack _) fun _ =>
        h.meets_getConfig _ _)) fun _ => h.meets_record _ trivial

theorem meets_configList (path : Option String) (stackName : String) (asJson : Bool) :
    Meets Machine.events Q (configList env path stackName asJson) :=
  Meets.bind h.composes (h.meets_requirePulumiYaml _) fun _ =>
    Meets.bind h.composes h.meets_resolvePassphrase fun _ =>
      Meets.bind h.composes (h.meets_selectAndRead _) fun _ =>
        meets_ite (fun _ => h.meets_record _ trivial) fun _ =>
          meets_ite (fun _ => h.meets_record _ trivial) fun _ => h.meets_record _ trivial

theorem meets_stackList (path : Option String) : Meets Machine.events Q (stackList env path) :=
  Meets.bind h.composes (h.meets_requirePulumiYaml _) fun _ =>
    h.meets_orExit (Meets.bind h.composes (h.meets_record _ trivial) fun _ => h.meets_mayFail)

theorem meets_projectStatus (path : Option String) (stackName : String) :
    Meets Machine.events Q (projectStatus env path stackName) :=
  Meets.bind h.composes (h.meets_loadProject _) fun _ =>
    Meets.bind h.composes h.meets_resolvePassphrase fun _ =>
      Meets.bind h.composes (h.meets_statusRows _ _ _) fun _ => h.meets_record _ trivial

theorem meets_wizardStatus : Meets Machine.events Q (wizardStatus env) :=
  h.meets_withStack fun _ => Meets.bind h.composes h.meets_resolvePassphrase fun _ =>
    Meets.bind h.composes (h.meets_getStack _) fun _ =>
      Meets.bind h.composes (h.meets_readStack _) fun _ => h.meets_showResources _

end Tolerates

/-- A contract that tolerates every action. -/
abbrev ToleratesAll (env : Setting κ) (yes : Bool)
    (Q : Machine κ → List Event → Machine κ → Prop) : Prop :=
  Tolerates env yes (fun _ _ => True) Q

namespace ToleratesAll

variable (h : ToleratesAll env yes Q)

include h

theorem meets_wizardDeploy (path : Option PosixPath) :
    Meets Machine.events Q (wizardDeploy env path) := by
  exact Meets.bind h.composes (h.meets_stackDirectory path) fun _ =>
    Meets.bind h.composes (h.meets_fileExists _) fun _ =>
      meets_ite (fun _ => Meets.bind h.composes (h.meets_prompt _ _) fun _ =>
        Meets.bind h.composes (h.meets_ask _) fun _ =>
          meets_ite (fun _ => h.meets_wizardCall (h.meets_previewStack _)) fun _ =>
            Meets.bind h.composes (h.meets_ask _) fun _ =>
              meets_ite (fun _ => h.meets_wizardCall (h.meets_operate trivial)) fun _ =>
                meets_pure h.composes _) fun _ => meets_pure h.composes _

theorem meets_wizardNew : Meets Machine.events Q (wizardNew env) :=
  Meets.bind h.composes (h.meets_choose _ _) fun _ =>
    Meets.bind h.composes (h.meets_prompt _ _) fun _ =>
      Meets.bind h.composes (h.meets_mayOverwrite _ _) fun _ =>
        meets_ite (fun _ => Meets.bind h.composes (h.meets_runner _) fun _ =>
          Meets.bind h.composes (meets_each h.composes fun _ _ => h.meets_runner _) fun _ =>
            Meets.bind h.composes (h.meets_ask _) fun _ =>
              meets_ite (fun _ => h.meets_wizardDeploy _) fun _ => meets_pure h.composes _)
          fun _ => meets_pure h.composes _

theorem meets_wizard : Meets Machine.events Q (wizard env) := by
  refine Meets.bind h.composes (h.meets_choose _ _) fun action => ?_
  split
  · exact h.meets_wizardNew
  · exact h.meets_wizardDeploy none
  · exact h.meets_wizardStatus
  · exact h.meets_withStack fun _ => h.meets_wizardCall (h.meets_operate trivial)
  · exact h.meets_withStack fun _ => Meets.bind h.composes (h.meets_ask _) fun _ =>
      meets_ite (fun _ => h.meets_wizardCall (h.meets_operate trivial)) fun _ =>
        meets_pure h.composes _
  · exact meets_pure h.composes _

end ToleratesAll

/-- **What is tolerated of every part is met by every command.** -/
theorem meets_exec {c : Command} (h : ToleratesAll env c.yes Q) :
    Meets Machine.events Q (c.exec env) := by
  cases c with
  | up path preview stackName yes =>
    exact Meets.bind h.composes (h.meets_requirePulumiYaml _) fun _ =>
      Meets.bind h.composes h.meets_resolvePassphrase fun _ =>
        Meets.bind h.composes (h.meets_orExit (h.meets_getStack _)) fun _ =>
          meets_ite (fun _ => h.meets_orExit (h.meets_previewStack _)) fun _ =>
            Meets.bind h.composes (h.meets_confirmUnless id _) fun _ =>
              h.meets_orExit (h.meets_operate trivial)
  | destroy path stackName yes remove =>
    exact Meets.bind h.composes (h.meets_requirePulumiYaml _) fun _ =>
      Meets.bind h.composes (h.meets_confirmUnless id _) fun _ =>
        Meets.bind h.composes h.meets_resolvePassphrase fun _ =>
          Meets.bind h.composes (h.meets_orExit (h.meets_getStack _)) fun _ =>
            Meets.bind h.composes (h.meets_orExit (h.meets_operate trivial)) fun _ =>
              meets_ite (fun _ => h.meets_caught (h.meets_removeStack trivial _)) fun _ =>
                meets_pure h.composes _
  | refresh path stackName yes =>
    exact Meets.bind h.composes (h.meets_requirePulumiYaml _) fun _ =>
      Meets.bind h.composes (h.meets_confirmUnless id _) fun _ =>
        Meets.bind h.composes h.meets_resolvePassphrase fun _ =>
          Meets.bind h.composes (h.meets_orExit (h.meets_getStack _)) fun _ =>
            h.meets_orExit (h.meets_operate trivial)
  | status path stackName => exact h.meets_status path stackName
  | output path key stackName asJson => exact h.meets_output path key stackName asJson
  | configSet key value secret path stackName =>
    exact h.meets_configSet key value secret path stackName
  | configGet key path stackName => exact h.meets_configGet key path stackName
  | configList path stackName asJson => exact h.meets_configList path stackName asJson
  | stackList path => exact h.meets_stackList path
  | stackRm name path yes force =>
    exact Meets.bind h.composes (h.meets_requirePulumiYaml _) fun _ =>
      Meets.bind h.composes (h.meets_confirmUnless id _) fun _ =>
        Meets.bind h.composes h.meets_resolvePassphrase fun _ =>
          h.meets_orExit (Meets.bind h.composes (h.meets_getStack _) fun _ =>
            h.meets_removeStack trivial force)
  | projectUp path stackName preview yes =>
    exact Meets.bind h.composes (h.meets_loadProject _) fun _ =>
      Meets.bind h.composes (h.meets_confirmUnlessPreview id _) fun _ =>
        Meets.bind h.composes h.meets_resolvePassphrase fun _ =>
          h.meets_valueErrorExits (meets_each h.composes fun _ _ =>
            h.meets_deploySpellOn fun _ => trivial)
  | projectDestroy path stackName yes =>
    exact Meets.bind h.composes (h.meets_loadProject _) fun _ =>
      Meets.bind h.composes (h.meets_confirmUnless id _) fun _ =>
        Meets.bind h.composes h.meets_resolvePassphrase fun _ =>
          meets_each h.composes fun _ _ => h.meets_destroySpellOn trivial
  | projectStatus path stackName => exact h.meets_projectStatus path stackName
  | wizard => exact ToleratesAll.meets_wizard h

end Tolerates

end CloudSpells
