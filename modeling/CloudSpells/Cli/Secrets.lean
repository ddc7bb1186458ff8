import CloudSpells.Cli.Commands
import CloudSpells.Machinery.Pairs

/-!
# Cli/Secrets — what a secret has a bearing on

A *shadow* of a dictionary has its secret values blanked.  Everything the commands print of one is
printed of its shadow likewise, but for `cs output --key`, which prints the value itself.  So two
sessions that differ in nothing but secret values, those kept and those set meanwhile, ask and print
and do the same (`secrecy_of_session`) — as long as the engine treats secrets as such (`Discreet`).
-/

namespace CloudSpells

open Machinery Machinery.Exec

/-! ## Shadows -/

/-- A value, blank where it is secret. -/
def StackValue.shadow (v : StackValue) : StackValue where
  value := if v.secret then "" else v.value
  secret := v.secret

/-- A dictionary with its secret values blank. -/
def shadows (entries : List (String × StackValue)) : List (String × StackValue) :=
  entries.map fun entry => (entry.1, entry.2.shadow)

/-- What is kept of a stack, with the secret values blank. -/
def StackRecord.shadow (kept : StackRecord) : StackRecord where
  deployment := kept.deployment
  outputs := shadows kept.outputs
  config := shadows kept.config

/-- The command prints no single output. -/
def Command.keyless : Command → Bool
  | output _ (some _) _ _ => false
  | _ => true

/-- Two commands that differ in a secret they set, if at all, and print no single output. -/
inductive Command.Differ : Command → Command → Prop
  | same {c : Command} (h : c.keyless = true) : Differ c c
  | secret (key value value' : String) (path : Option String) (stackName : String) :
    Differ (configSet key value true path stackName) (configSet key value' true path stackName)

/-- Two steps that do. -/
inductive SessionStep.Differ : SessionStep → SessionStep → Prop
  | command {c c' : Command} (h : c.Differ c') : Differ (command c) (command c')
  | files (paths : PosixPath → Bool) (manifests : PosixPath → Option ProjectManifest) :
    Differ (files paths manifests) (files paths manifests)

section Shadows

variable {entries entries' : List (String × StackValue)} {key : String} {v v' : StackValue}

@[simp] theorem StackValue.masked_shadow (v : StackValue) : v.shadow.masked = v.masked := by
  unfold masked shadow
  split
  · rfl
  · rfl

theorem shadows_eq_nil : shadows entries = [] ↔ entries = [] := List.map_eq_nil_iff

theorem lookup_shadows (entries : List (String × StackValue)) (key : String) :
    (shadows entries).lookup key = (entries.lookup key).map StackValue.shadow := by
  induction entries with
  | nil => rfl
  | cons entry entries ih =>
    rw [shadows, List.map_cons, List.lookup_cons, List.lookup_cons]
    cases key == entry.1 with
    | true => rfl
    | false => exact ih

/-- **What is printed of a dictionary is printed of its shadow.** -/
theorem maskedItems_shadows (entries : List (String × StackValue)) :
    maskedItems (shadows entries) = maskedItems entries := by
  simp [maskedItems, shadows, List.map_map, Function.comp_def]

theorem sortedItems_shadows (entries : List (String × StackValue)) :
    sortedItems (shadows entries) = shadows (sortedItems entries) := by
  rw [sortedItems, sortedItems, shadows, shadows]
  exact (List.map_mergeSort (f := fun entry : String × StackValue => (entry.1, entry.2.shadow))
    fun _ _ _ _ => rfl).symm

theorem outputRows_shadows (entries : List (String × StackValue)) :
    outputRows (shadows entries) = outputRows entries := by
  rw [outputRows, sortedItems_shadows]
  simp [outputRows, shadows, List.map_map, Function.comp_def]

theorem configRows_shadows (entries : List (String × StackValue)) :
    configRows (shadows entries) = configRows entries := by
  rw [configRows, sortedItems_shadows, configRows, shadows, List.map_map]
  refine List.map_congr_left fun entry _ => ?_
  simp only [Function.comp_apply, StackValue.shadow]
  split
  · rfl
  · rfl

theorem setKey_shadows (entries : List (String × StackValue)) (key : String) (v : StackValue) :
    shadows (setKey entries key v) = setKey (shadows entries) key v.shadow := by
  rw [setKey, setKey, lookup_shadows, Option.isSome_map]
  split
  · rw [shadows, shadows, List.map_map, List.map_map]
    refine List.map_congr_left fun entry _ => ?_
    simp only [Function.comp_apply]
    split
    · rfl
    · rfl
  · simp [shadows]

end Shadows

/-! ## Machines that differ in secrets -/

section Alike

variable {κ : Type}

/-- Two machines that differ in secret values alone; what is live may differ as `D` says. -/
structure Alike (D : κ → κ → Prop) (m m' : Machine κ) : Prop where
  host : m.host = m'.host
  manifests : m.manifests = m'.manifests
  events : m.events = m'.events
  records : ∀ k, (m.records k).map StackRecord.shadow = (m'.records k).map StackRecord.shadow
  live : ∀ k, D (m.live k) (m'.live k)

/-- The engine treats secrets as such: of stacks that differ in secret values alone it makes such
stacks again. -/
structure Discreet (D : κ → κ → Prop) (engine : Engine κ) : Prop where
  up : ∀ n kept kept' live live', kept.shadow = kept'.shadow → D live live' →
    (engine.up n kept live).1.shadow = (engine.up n kept' live').1.shadow ∧
      D (engine.up n kept live).2 (engine.up n kept' live').2
  destroy : ∀ n kept kept' live live', kept.shadow = kept'.shadow → D live live' →
    (engine.destroy n kept live).1.shadow = (engine.destroy n kept' live').1.shadow ∧
      D (engine.destroy n kept live).2 (engine.destroy n kept' live').2
  refresh : ∀ n kept kept' live live', kept.shadow = kept'.shadow → D live live' →
    (engine.refresh n kept live).shadow = (engine.refresh n kept' live').shadow

variable {α β : Type} {D : κ → κ → Prop} {env : Setting κ} {m m' : Machine κ}

/-- Programs that do the same on machines that differ in secrets. -/
abbrev Blind (D : κ → κ → Prop) (S : α → β → Prop) (x : Cli κ α) (y : Cli κ β) : Prop :=
  Paired (Alike D) S x y

theorem blind_record (e : Event) :
    Blind D (fun _ _ => True) (record e : Cli κ Unit) (record e) :=
  paired_modify fun _ _ h =>
    ⟨h.host, h.manifests, congrArg (· ++ [e]) h.events, h.records, h.live⟩

theorem blind_runner (x : Runner α) : Blind D Eq (runner x : Cli κ α) (runner x) := by
  intro m m' h
  refine ⟨?_, ⟨congrArg (fun host => (x.run host).2) h.host, h.manifests, h.events, h.records,
    h.live⟩⟩
  change Likewise Eq ((x.run m.host).1.mapError CliError.runner)
    ((x.run m'.host).1.mapError CliError.runner)
  rw [h.host]
  cases (x.run m'.host).1 with
  | error e => exact .error _
  | ok a => exact .ok rfl

theorem blind_orExit {S : α → β → Prop} {x : Cli κ α} {y : Cli κ β} (h : Blind D S x y) :
    Blind D S (orExit x) (orExit y) := paired_tryCatch h fun _ => paired_throw _

theorem blind_caught {x y : Cli κ Unit} (h : Blind D (fun _ _ => True) x y) :
    Blind D (fun _ _ => True) (caught x) (caught y) :=
  paired_tryCatch h fun _ => paired_ite (fun _ => paired_pure trivial) fun _ => paired_throw _

/-! ### The user -/

theorem blind_answer (q : Question) : Blind D Eq (answer env q) (answer env q) := by
  refine paired_get_bind fun m m' h => ?_
  rw [h.events]
  exact (blind_record _).bind (fun _ _ _ => paired_pure rfl) m m' h

theorem blind_confirmUnless (yes : Bool) (q : Question) :
    Blind D (fun _ _ => True) (confirmUnless env yes q) (confirmUnless env yes q) :=
  paired_ite (fun _ => blind_record _) fun _ => (blind_answer q).bind fun reply _ h => by
    subst h
    exact paired_ite (fun _ => paired_pure trivial) fun _ => paired_throw _

theorem blind_ask (q : Question) : Blind D Eq (ask env q) (ask env q) :=
  (blind_answer q).bind fun reply _ h => by
    subst h
    cases reply with
    | none => exact paired_throw _
    | some reply => exact paired_pure rfl

theorem blind_prompt (text : String) (default : Option String) :
    Blind D Eq (prompt env text default) (prompt env text default) := by
  refine paired_get_bind fun m m' h => ?_
  rw [h.events]
  refine (blind_record _).bind (fun _ _ _ => ?_) m m' h
  split
  · exact paired_pure rfl
  · exact paired_throw _

theorem blind_choose (text : String) (n : ℕ) :
    Blind D Eq (choose env text n) (choose env text n) := by
  refine paired_get_bind fun m m' h => ?_
  rw [h.events]
  refine (blind_record _).bind (fun _ _ _ => ?_) m m' h
  split
  · exact paired_pure rfl
  · exact paired_throw _

theorem blind_resolvePassphrase :
    Blind D (fun _ _ => True) (resolvePassphrase env) (resolvePassphrase env) :=
  paired_ite (fun _ => paired_pure trivial) fun _ =>
    (blind_prompt _ _).bind fun _ _ _ => paired_pure trivial

/-! ### The engine -/

theorem blind_mayFail : Blind D (fun _ _ => True) (mayFail env) (mayFail env) := by
  refine paired_get_bind fun m m' h => ?_
  rw [h.events]
  exact paired_ite (fun _ => paired_throw _) (fun _ => paired_pure trivial) m m' h

/-- Changing one stack in two machines. -/
theorem Alike.update (h : Alike D m m') (id : StackId) {kept kept' : Option StackRecord}
    {live live' : κ} (hkept : kept.map StackRecord.shadow = kept'.map StackRecord.shadow)
    (hlive : D live live') :
    Alike D { m with
      records := Function.update m.records id kept
      live := Function.update m.live id live }
    { m' with
      records := Function.update m'.records id kept'
      live := Function.update m'.live id live' } where
  host := h.host
  manifests := h.manifests
  events := h.events
  records k := by
    by_cases hk : k = id
    · subst hk
      simpa using hkept
    · simpa [Function.update_of_ne hk] using h.records k
  live k := by
    by_cases hk : k = id
    · subst hk
      simpa using hlive
    · simpa [Function.update_of_ne hk] using h.live k

theorem Alike.update_records (h : Alike D m m') (id : StackId) {kept kept' : Option StackRecord}
    (hkept : kept.map StackRecord.shadow = kept'.map StackRecord.shadow) :
    Alike D { m with records := Function.update m.records id kept }
      { m' with records := Function.update m'.records id kept' } := by
  have hupdate := h.update id hkept (h.live id)
  rwa [Function.update_eq_self, Function.update_eq_self] at hupdate

theorem Alike.tell (h : Alike D m m') (e : Event) : Alike D (m.tell e) (m'.tell e) :=
  ⟨h.host, h.manifests, congrArg (· ++ [e]) h.events, h.records, h.live⟩

/-- A stack is there in both machines, or in none. -/
theorem Alike.cases (h : Alike D m m') (id : StackId) :
    m.records id = none ∧ m'.records id = none ∨
      ∃ kept kept', m.records id = some kept ∧ m'.records id = some kept' ∧
        kept.shadow = kept'.shadow := by
  have hrecords := h.records id
  cases hkept : m.records id with
  | none =>
    rw [hkept] at hrecords
    exact .inl ⟨rfl, Option.map_eq_none_iff.mp hrecords.symm⟩
  | some kept =>
    rw [hkept] at hrecords
    obtain ⟨kept', hkept', hshadow⟩ := Option.map_eq_some_iff.mp hrecords.symm
    exact .inr ⟨kept, kept', rfl, hkept', hshadow.symm⟩

theorem Alike.create (h : Alike D m m') (id : StackId) : Alike D (m.create id) (m'.create id) := by
  unfold Machine.create
  rcases h.cases id with ⟨hnone, hnone'⟩ | ⟨kept, kept', hkept, hkept', -⟩
  · rw [hnone, hnone']
    exact h.update_records id rfl
  · rw [hkept, hkept']
    exact h

/-- **What the engine makes of them is alike.** -/
theorem Alike.work (h : Alike D m m') (hengine : Discreet D env.engine) (action : Action)
    (id : StackId) : Alike D (m.work env.engine action id) (m'.work env.engine action id) := by
  unfold Machine.work
  rcases h.cases id with ⟨hnone, hnone'⟩ | ⟨kept, kept', hkept, hkept', hshadow⟩
  · rw [hnone, hnone']
    exact h
  · rw [hkept, hkept', ← congrArg List.length h.events]
    have hsome {a b : StackRecord} (hab : a.shadow = b.shadow) :
        (some a).map StackRecord.shadow = (some b).map StackRecord.shadow := congrArg some hab
    cases action with
    | up =>
      obtain ⟨hmade, hlive⟩ := hengine.up m.events.length _ _ _ _ hshadow (h.live id)
      exact h.update id (hsome hmade) hlive
    | destroy =>
      obtain ⟨hmade, hlive⟩ := hengine.destroy m.events.length _ _ _ _ hshadow (h.live id)
      exact h.update id (hsome hmade) hlive
    | refresh =>
      have hmade := hengine.refresh m.events.length _ _ _ _ hshadow (h.live id)
      exact h.update_records id (hsome hmade)
    | remove => exact h.update_records id (Eq.refl (Option.map StackRecord.shadow none))

theorem blind_selecting {id : StackId} {call : Cli κ Unit}
    (hcall : Blind D (fun _ _ => True) call call) :
    Blind D (fun _ _ => True) (selecting env id call) (selecting env id call) := by
  refine (blind_record _).bind fun _ _ _ => Paired.bind (paired_modify fun m m' h => ?_)
    fun _ _ _ => hcall.bind fun _ _ _ => paired_modify fun _ _ h => h.create id
  rw [h.events]
  split
  · exact h.create id
  · exact h

theorem blind_getStack (id : StackId) :
    Blind D (fun _ _ => True) (getStack env id) (getStack env id) := blind_selecting blind_mayFail

theorem blind_acting (hengine : Discreet D env.engine) {action : Action} {id : StackId}
    {call : Cli κ Unit} (hcall : Blind D (fun _ _ => True) call call) :
    Blind D (fun _ _ => True) (acting env action id call) (acting env action id call) :=
  Paired.bind (paired_modify fun _ _ h => (h.tell _).work hengine action id) fun _ _ _ => hcall

theorem blind_operate (hengine : Discreet D env.engine) (action : Action) (id : StackId) :
    Blind D (fun _ _ => True) (operate env action id) (operate env action id) :=
  blind_acting hengine blind_mayFail

theorem blind_previewStack (id : StackId) :
    Blind D (fun _ _ => True) (previewStack env id) (previewStack env id) :=
  (blind_record _).bind fun _ _ _ => blind_mayFail

theorem blind_removeStack (hengine : Discreet D env.engine) (id : StackId) (force : Bool) :
    Blind D (fun _ _ => True) (removeStack env id force) (removeStack env id force) := by
  refine (blind_record _).bind fun _ _ _ => blind_mayFail.bind fun _ _ _ =>
    paired_get_bind fun m m' h => ?_
  rcases h.cases id with ⟨hnone, hnone'⟩ | ⟨kept, kept', hkept, hkept', hshadow⟩
  · rw [hnone, hnone']
    exact paired_throw _ m m' h
  · have hresources : kept.hasResources = kept'.hasResources := by
      rw [StackRecord.hasResources, StackRecord.hasResources, (StackRecord.mk.inj hshadow).1]
    rw [hkept, hkept']
    dsimp only
    rw [hresources]
    exact paired_ite (fun _ => paired_throw _)
      (fun _ => blind_acting hengine (paired_pure trivial)) m m' h

theorem blind_readStack (id : StackId) :
    Blind D (fun kept kept' => kept.shadow = kept'.shadow) (readStack env id)
      (readStack env id) := by
  refine (blind_record _).bind fun _ _ _ => blind_mayFail.bind fun _ _ _ =>
    paired_get_bind fun m m' h => ?_
  rcases h.cases id with ⟨hnone, hnone'⟩ | ⟨kept, kept', hkept, hkept', hshadow⟩
  · rw [hnone, hnone']
    exact paired_throw _ m m' h
  · rw [hkept, hkept']
    exact paired_pure (S := fun a b : StackRecord => a.shadow = b.shadow) hshadow m m' h

theorem blind_getConfig (id : StackId) (key : String) :
    Blind D (fun v v' => v.masked = v'.masked) (getConfig env id key) (getConfig env id key) := by
  refine (blind_readStack id).bind fun kept kept' hshadow => ?_
  have hconfig : shadows kept.config = shadows kept'.config := congrArg StackRecord.config hshadow
  have hlookup := congrArg (List.lookup key) hconfig
  rw [lookup_shadows, lookup_shadows] at hlookup
  cases hv : kept.config.lookup key with
  | none =>
    rw [hv] at hlookup
    rw [Option.map_eq_none_iff.mp hlookup.symm]
    exact paired_throw _
  | some v =>
    rw [hv] at hlookup
    obtain ⟨v', hv', hvalues⟩ := Option.map_eq_some_iff.mp hlookup.symm
    rw [hv']
    refine paired_pure ?_
    rw [← v.masked_shadow, ← hvalues, v'.masked_shadow]

/-- **Setting a key to values of one shadow.** -/
theorem blind_setConfig (id : StackId) (key : String) {v v' : StackValue}
    (hv : v.shadow = v'.shadow) :
    Blind D (fun _ _ => True) (setConfig env id key v) (setConfig env id key v') := by
  refine (blind_record _).bind fun _ _ _ => blind_mayFail.bind fun _ _ _ =>
    paired_modify fun m m' h => (h.tell _).update_records id ?_
  change ((m.records id).map _).map _ = ((m'.records id).map _).map _
  rcases h.cases id with ⟨hnone, hnone'⟩ | ⟨kept, kept', hkept, hkept', hshadow⟩
  · rw [hnone, hnone']
    rfl
  · rw [hkept, hkept', Option.map_some, Option.map_some, Option.map_some, Option.map_some]
    obtain ⟨hdeployment, houtputs, hconfig⟩ := StackRecord.mk.inj hshadow
    simp only [StackRecord.shadow, setKey_shadows, hdeployment, houtputs, hconfig, hv]

/-! ### Commands -/

theorem blind_requirePulumiYaml (workDir : PosixPath) :
    Blind D (fun _ _ => True) (requirePulumiYaml env workDir) (requirePulumiYaml env workDir) :=
  (blind_runner _).bind fun found _ h => by
    subst h
    exact paired_ite (fun _ => paired_pure trivial) fun _ => paired_throw _

/-- What every command on one stack starts with. -/
theorem blind_start {α : Type} {S : α → α → Prop} {workDir : PosixPath} {x y : Cli κ α}
    (h : Blind D S x y) : Blind D S (do
      requirePulumiYaml env workDir
      resolvePassphrase env
      x) (do
      requirePulumiYaml env workDir
      resolvePassphrase env
      y) :=
  (blind_requirePulumiYaml _).bind fun _ _ _ => blind_resolvePassphrase.bind fun _ _ _ => h

theorem blind_selectAndRead (id : StackId) :
    Blind D (fun kept kept' => kept.shadow = kept'.shadow) (orExit (do
      getStack env id
      readStack env id)) (orExit (do
      getStack env id
      readStack env id)) :=
  blind_orExit ((blind_getStack id).bind fun _ _ _ => blind_readStack id)

theorem blind_showResources {kept kept' : StackRecord} (h : kept.shadow = kept'.shadow) :
    Blind D (fun _ _ => True) (showResources kept.deployment : Cli κ Unit)
      (showResources kept'.deployment) := by
  rw [(StackRecord.mk.inj h).1]
  cases kept'.deployment with
  | none => exact blind_record _
  | some data => exact paired_ite (fun _ => blind_record _) fun _ => blind_record _

theorem blind_status (path : Option String) (stackName : String) :
    Blind D (fun _ _ => True) (status env path stackName) (status env path stackName) :=
  blind_start ((blind_selectAndRead _).bind fun _ _ h => blind_showResources h)

/-- **Of all outputs no secret is printed.** -/
theorem blind_output (path : Option String) (stackName : String) (asJson : Bool) :
    Blind D (fun _ _ => True) (output env path none stackName asJson)
      (output env path none stackName asJson) := by
  refine blind_start ((blind_selectAndRead _).bind fun kept kept' h => ?_)
  have houtputs : shadows kept.outputs = shadows kept'.outputs := congrArg StackRecord.outputs h
  have hnil : kept.outputs = [] ↔ kept'.outputs = [] := by
    rw [← shadows_eq_nil, houtputs, shadows_eq_nil]
  dsimp only
  rw [← maskedItems_shadows, ← outputRows_shadows, houtputs, maskedItems_shadows,
    outputRows_shadows, if_congr hnil rfl rfl]
  exact paired_ite (fun _ => blind_record _) fun _ =>
    paired_ite (fun _ => blind_record _) fun _ => blind_record _

theorem blind_configSet (key : String) (secret : Bool) (path : Option String) (stackName : String)
    {value value' : String} (h : secret = true ∨ value = value') :
    Blind D (fun _ _ => True) (configSet env key value secret path stackName)
      (configSet env key value' secret path stackName) := by
  refine blind_start ((blind_orExit ((blind_getStack _).bind fun _ _ _ =>
    blind_setConfig _ key ?_)).bind fun _ _ _ => blind_record _)
  rcases h with rfl | rfl
  · rfl
  · rfl

theorem blind_configGet (key : String) (path : Option String) (stackName : String) :
    Blind D (fun _ _ => True) (configGet env key path stackName)
      (configGet env key path stackName) :=
  blind_start ((blind_orExit ((blind_getStack _).bind fun _ _ _ => blind_getConfig _ key)).bind
    fun v v' h => by
      rw [h]
      exact blind_record _)

/-- **Of a configuration no secret is printed.** -/
theorem blind_configList (path : Option String) (stackName : String) (asJson : Bool) :
    Blind D (fun _ _ => True) (configList env path stackName asJson)
      (configList env path stackName asJson) := by
  refine blind_start ((blind_selectAndRead _).bind fun kept kept' h => ?_)
  have hconfig : shadows kept.config = shadows kept'.config := congrArg StackRecord.config h
  have hnil : kept.config = [] ↔ kept'.config = [] := by
    rw [← shadows_eq_nil, hconfig, shadows_eq_nil]
  rw [← maskedItems_shadows, ← configRows_shadows, hconfig, maskedItems_shadows,
    configRows_shadows, if_congr hnil rfl rfl]
  exact paired_ite (fun _ => blind_record _) fun _ =>
    paired_ite (fun _ => blind_record _) fun _ => blind_record _

theorem blind_stackList (path : Option String) :
    Blind D (fun _ _ => True) (stackList env path) (stackList env path) :=
  (blind_requirePulumiYaml _).bind fun _ _ _ =>
    blind_orExit ((blind_record _).bind fun _ _ _ => blind_mayFail)

/-! ### Projects -/

theorem blind_loadProject (workDir : PosixPath) :
    Blind D Eq (loadProject env workDir) (loadProject env workDir) := by
  refine (blind_runner _).bind fun found _ h => ?_
  subst h
  refine paired_ite (fun _ => paired_get_bind fun m m' h => ?_) fun _ => paired_throw _
  rw [h.manifests]
  split
  · exact paired_pure rfl m m' h
  · exact paired_throw _ m m' h

theorem blind_runnerCall (op : Operation) :
    Blind D (fun _ _ => True) (runnerCall env op) (runnerCall env op) :=
  (blind_runner _).weaken fun _ _ _ => trivial

theorem blind_deploySpellOn (hengine : Discreet D env.engine) (stackName : String)
    (workDir : PosixPath) (preview : Bool) (ref : SpellRef) :
    Blind D (fun _ _ => True) (deploySpellOn env stackName workDir preview ref)
      (deploySpellOn env stackName workDir preview ref) :=
  (blind_runner _).bind fun dir _ h => by
    subst h
    exact (blind_selecting (blind_runnerCall _)).bind fun _ _ _ =>
      paired_ite (fun _ => blind_runnerCall _) fun _ => blind_acting hengine (blind_runnerCall _)

theorem blind_destroySpellOn (hengine : Discreet D env.engine) (stackName : String)
    (workDir : PosixPath) (ref : SpellRef) :
    Blind D (fun _ _ => True) (destroySpellOn env stackName workDir ref)
      (destroySpellOn env stackName workDir ref) :=
  (blind_runner _).bind fun found _ h => by
    subst h
    exact paired_ite (fun _ => (blind_selecting (blind_runnerCall _)).bind fun _ _ _ =>
      blind_acting hengine (blind_runnerCall _)) fun _ => paired_pure trivial

theorem blind_valueErrorExits {x : Cli κ Unit} (h : Blind D (fun _ _ => True) x x) :
    Blind D (fun _ _ => True) (valueErrorExits x) (valueErrorExits x) := by
  refine paired_tryCatch h fun e => ?_
  split
  · exact paired_throw _
  · exact paired_throw _

theorem blind_statusRow (id : StackId) : Blind D Eq (statusRow env id) (statusRow env id) := by
  refine paired_tryCatch ((blind_getStack id).bind fun _ _ _ => (blind_readStack id).bind
    fun kept kept' h => ?_) fun _ => paired_pure rfl
  rw [(StackRecord.mk.inj h).1]
  split
  · exact paired_pure rfl
  · exact paired_pure rfl

theorem blind_spellStatus (stackName : String) (workDir : PosixPath) (ref : SpellRef) :
    Blind D Eq (spellStatus env stackName workDir ref) (spellStatus env stackName workDir ref) :=
  (blind_runner _).bind fun found _ h => by
    subst h
    exact paired_ite (fun _ => blind_statusRow _) fun _ => paired_pure rfl

theorem blind_statusRows (stackName : String) (workDir : PosixPath) (refs : List SpellRef) :
    Blind D Eq (statusRows env stackName workDir refs) (statusRows env stackName workDir refs) := by
  induction refs with
  | nil => exact paired_pure rfl
  | cons ref refs ih =>
    refine (blind_spellStatus _ _ ref).bind fun row _ h => ?_
    subst h
    refine ih.bind fun rows _ h => ?_
    subst h
    exact paired_pure rfl

/-! ### The wizard -/

theorem blind_withStack {k : StackId → Cli κ Unit}
    (hk : ∀ id, Blind D (fun _ _ => True) (k id) (k id)) :
    Blind D (fun _ _ => True) (withStack env k) (withStack env k) := by
  refine (blind_prompt _ _).bind fun pathStr _ h => ?_
  subst h
  refine (blind_prompt _ _).bind fun stackName _ h => ?_
  subst h
  refine (blind_runner _).bind fun found _ h => ?_
  subst h
  exact paired_ite (fun _ => hk _) fun _ => paired_pure trivial

theorem blind_wizardCall {id : StackId} {x : Cli κ Unit} (h : Blind D (fun _ _ => True) x x) :
    Blind D (fun _ _ => True) (do
      resolvePassphrase env
      caught (do
        getStack env id
        x)) (do
      resolvePassphrase env
      caught (do
        getStack env id
        x)) :=
  blind_resolvePassphrase.bind fun _ _ _ =>
    blind_caught ((blind_getStack id).bind fun _ _ _ => h)

theorem blind_stackDirectory (path : Option PosixPath) :
    Blind D Eq (stackDirectory env path) (stackDirectory env path) := by
  cases path with
  | none =>
    refine (blind_prompt _ _).bind fun pathStr _ h => ?_
    subst h
    exact paired_pure rfl
  | some path => exact paired_pure rfl

theorem blind_wizardDeploy (hengine : Discreet D env.engine) (path : Option PosixPath) :
    Blind D (fun _ _ => True) (wizardDeploy env path) (wizardDeploy env path) := by
  refine (blind_stackDirectory path).bind fun dir _ h => ?_
  subst h
  refine (blind_runner _).bind fun found _ h => ?_
  subst h
  refine paired_ite (fun _ => (blind_prompt _ _).bind fun stackName _ h => ?_)
    fun _ => paired_pure trivial
  subst h
  refine (blind_ask _).bind fun preview _ h => ?_
  subst h
  refine paired_ite (fun _ => blind_wizardCall (blind_previewStack _)) fun _ =>
    (blind_ask _).bind fun confirmed _ h => ?_
  subst h
  exact paired_ite (fun _ => blind_wizardCall (blind_operate hengine _ _))
    fun _ => paired_pure trivial

theorem blind_wizardNew (hengine : Discreet D env.engine) :
    Blind D (fun _ _ => True) (wizardNew env) (wizardNew env) := by
  refine (blind_choose _ _).bind fun _ _ _ => (blind_prompt _ _).bind fun name _ h => ?_
  subst h
  have hoverwrite (outDir : PosixPath) :
      Blind D Eq (mayOverwrite env name outDir) (mayOverwrite env name outDir) :=
    (blind_runner _).bind fun found _ h => by
      subst h
      exact paired_ite (fun _ => blind_ask _) fun _ => paired_pure rfl
  refine (hoverwrite _).bind fun write _ h => ?_
  subst h
  refine paired_ite (fun _ => (blind_runnerCall _).bind fun _ _ _ =>
    (paired_each fun _ _ => blind_runnerCall _).bind fun _ _ _ =>
      (blind_ask _).bind fun deployNow _ h => ?_) fun _ => paired_pure trivial
  subst h
  exact paired_ite (fun _ => blind_wizardDeploy hengine _) fun _ => paired_pure trivial

theorem blind_wizardDestroy (hengine : Discreet D env.engine) :
    Blind D (fun _ _ => True) (wizardDestroy env) (wizardDestroy env) :=
  blind_withStack fun _ => (blind_ask _).bind fun confirmed _ h => by
    subst h
    exact paired_ite (fun _ => blind_wizardCall (blind_operate hengine _ _))
      fun _ => paired_pure trivial

theorem blind_wizardStatus :
    Blind D (fun _ _ => True) (wizardStatus env) (wizardStatus env) :=
  blind_withStack fun _ => blind_resolvePassphrase.bind fun _ _ _ =>
    (blind_getStack _).bind fun _ _ _ => (blind_readStack _).bind fun _ _ h =>
      blind_showResources h

theorem blind_wizard (hengine : Discreet D env.engine) :
    Blind D (fun _ _ => True) (wizard env) (wizard env) := by
  refine (blind_choose _ _).bind fun action _ h => ?_
  subst h
  split
  · exact blind_wizardNew hengine
  · exact blind_wizardDeploy hengine none
  · exact blind_wizardStatus
  · exact blind_withStack fun _ => blind_wizardCall (blind_operate hengine _ _)
  · exact blind_wizardDestroy hengine
  · exact paired_pure trivial

/-! ## Sessions -/

/-- **A command does the same whatever the secrets.** -/
theorem blind_exec (hengine : Discreet D env.engine) {c c' : Command} (h : c.Differ c') :
    Blind D (fun _ _ => True) (c.exec env) (c'.exec env) := by
  cases h with
  | secret key value value' path stackName =>
    exact blind_configSet key true path stackName (.inl rfl)
  | same h =>
    cases c with
    | up path preview stackName yes =>
      exact blind_start ((blind_orExit (blind_getStack _)).bind fun _ _ _ =>
        paired_ite (fun _ => blind_orExit (blind_previewStack _)) fun _ =>
          (blind_confirmUnless _ _).bind fun _ _ _ => blind_orExit (blind_operate hengine _ _))
    | destroy path stackName yes remove =>
      exact (blind_requirePulumiYaml _).bind fun _ _ _ => (blind_confirmUnless _ _).bind
        fun _ _ _ => blind_resolvePassphrase.bind fun _ _ _ =>
          (blind_orExit (blind_getStack _)).bind fun _ _ _ =>
            (blind_orExit (blind_operate hengine _ _)).bind fun _ _ _ =>
              paired_ite (fun _ => blind_caught (blind_removeStack hengine _ _))
                fun _ => paired_pure trivial
    | refresh path stackName yes =>
      exact (blind_requirePulumiYaml _).bind fun _ _ _ => (blind_confirmUnless _ _).bind
        fun _ _ _ => blind_resolvePassphrase.bind fun _ _ _ =>
          (blind_orExit (blind_getStack _)).bind fun _ _ _ =>
            blind_orExit (blind_operate hengine _ _)
    | status path stackName => exact blind_status path stackName
    | output path key stackName asJson =>
      cases key with
      | none => exact blind_output path stackName asJson
      | some key => cases h
    | configSet key value secret path stackName =>
      exact blind_configSet key secret path stackName (.inr rfl)
    | configGet key path stackName => exact blind_configGet key path stackName
    | configList path stackName asJson => exact blind_configList path stackName asJson
    | stackList path => exact blind_stackList path
    | stackRm name path yes force =>
      exact (blind_requirePulumiYaml _).bind fun _ _ _ => (blind_confirmUnless _ _).bind
        fun _ _ _ => blind_resolvePassphrase.bind fun _ _ _ =>
          blind_orExit ((blind_getStack _).bind fun _ _ _ => blind_removeStack hengine _ _)
    | projectUp path stackName preview yes =>
      refine (blind_loadProject _).bind fun project _ hproject => ?_
      subst hproject
      exact (paired_ite (fun _ => paired_pure trivial) fun _ => blind_confirmUnless _ _).bind
        fun _ _ _ => blind_resolvePassphrase.bind fun _ _ _ =>
          blind_valueErrorExits (paired_each fun _ _ => blind_deploySpellOn hengine _ _ _ _)
    | projectDestroy path stackName yes =>
      refine (blind_loadProject _).bind fun project _ hproject => ?_
      subst hproject
      exact (blind_confirmUnless _ _).bind fun _ _ _ => blind_resolvePassphrase.bind fun _ _ _ =>
        paired_each fun _ _ => blind_destroySpellOn hengine _ _ _
    | projectStatus path stackName =>
      refine (blind_loadProject _).bind fun project _ hproject => ?_
      subst hproject
      refine blind_resolvePassphrase.bind fun _ _ _ =>
        (blind_statusRows _ _ _).bind fun rows _ hrows => ?_
      subst hrows
      exact blind_record _
    | wizard => exact blind_wizard hengine

theorem blind_step (hengine : Discreet D env.engine) {step step' : SessionStep}
    (h : step.Differ step') :
    Blind D (fun _ _ => True) (step.exec env) (step'.exec env) := by
  cases h with
  | command h => exact blind_exec hengine h
  | files paths manifests =>
    exact paired_modify fun m m' h =>
      ⟨by rw [h.host], rfl, h.events, h.records, h.live⟩

/-- **A secret has no bearing on a session.**  Two sessions that differ in the secrets that are set,
on machines that differ in the secrets that are kept, ask, print and do the same — but for
`cs output --key`, which is there to print one. -/
theorem secrecy_of_session (env : Setting κ) (hengine : Discreet D env.engine)
    {steps steps' : List SessionStep} (hsteps : List.Forall₂ SessionStep.Differ steps steps')
    {m m' : Machine κ} (hm : Alike D m m') :
    (replay (SessionStep.exec env) steps m).events =
      (replay (SessionStep.exec env) steps' m').events :=
  (rel_replay hm (hsteps.imp fun _ _ h => blind_step hengine h)).events

/-- Setting a password and listing the configuration. -/
theorem secrecy_of_session_default : ∃ (env : Setting Unit) (m : Machine Unit),
    (replay (SessionStep.exec env) [.command (.configSet "db_password" "a" true none "dev"),
      .command (.configList none "dev" false)] m).events =
    (replay (SessionStep.exec env) [.command (.configSet "db_password" "b" true none "dev"),
      .command (.configList none "dev" false)] m).events := by
  let env : Setting Unit := {
    terminal := {
      confirm := fun _ _ default => some default
      ask := fun _ _ default => default
      choose := fun _ _ _ => none }
    engine := {
      fate := fun _ => { fails := false, appears := fun _ => false }
      fails := fun _ => false
      creates := fun _ => false
      up := fun _ kept live => (kept, live)
      destroy := fun _ kept live => ({ kept with deployment := some [] }, live)
      refresh := fun _ kept _ => kept }
    resolve := id
    passphrase := true }
  let m : Machine Unit := {
    host := { state := fun _ => true, log := [] }
    manifests := fun _ => none
    records := fun _ => none
    live := fun _ => ⟨⟩
    events := [] }
  have hengine : Discreet (fun _ _ => True) env.engine := {
    up := fun _ _ _ _ _ h _ => ⟨h, trivial⟩
    destroy := fun _ _ _ _ _ h _ =>
      ⟨congrArg (fun kept => { kept with deployment := some [] }) h, trivial⟩
    refresh := fun _ _ _ _ _ h _ => h }
  exact ⟨env, m, secrecy_of_session env hengine (.cons (.command (.secret ..))
    (.cons (.command (.same rfl)) .nil)) ⟨rfl, rfl, rfl, fun _ => rfl, fun _ => trivial⟩⟩

end Alike

end CloudSpells
