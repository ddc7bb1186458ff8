import CloudSpells.Cli.Contracts

/-!
# Cli/Consent — nothing live changes without a yes

An action on a stack comes after a yes that covers it, or `--yes` in its place, in the same command
(`guarded_exec`); the one exception is the wizard's refresh.  And stacks change by actions alone, or
by a key being set.  So whatever becomes other of a stack in a session, the user agreed to
(`consent_of_session`).

A yes is the default of one question only, the wizard's deploy: a user who leaves every question to
its default destroys and removes nothing (`silence_of_session`).
-/

namespace CloudSpells

open Machinery Machinery.Exec

/-! ## Yes -/

namespace Event

/-- An event that needs a yes. -/
def Needs (needed : Action → Prop) : Event → Prop
  | acted action _ => needed action
  | _ => False

/-- A yes to a question that covers the action, or `--yes`. -/
def Agrees : Event → Event → Prop
  | answered q (some true), acted action id => q.Covers action id
  | waived q, acted action id => q.Covers action id
  | _, _ => False

/-- An action where it is allowed, or any other event. -/
def Within (allowed : Action → StackId → Prop) : Event → Prop
  | acted action id => allowed action id
  | _ => True

end Event

/-- All the actions are allowed ones. -/
abbrev AllWithin (κ : Type) (allowed : Action → StackId → Prop) :
    Machine κ → List Event → Machine κ → Prop :=
  fun _ l _ => ∀ e ∈ l, e.Within allowed

/-- The actions that need a yes come after one. -/
abbrev AllGuarded (κ : Type) (needed : Action → Prop) :
    Machine κ → List Event → Machine κ → Prop :=
  fun _ l _ => Guarded (Event.Needs needed) Event.Agrees l

section Guards

variable {κ α : Type} {env : Setting κ} {needed : Action → Prop}
  {allowed : Action → StackId → Prop} {q : Question}

theorem tolerates_within (yes : Bool) : Tolerates env yes allowed (AllWithin κ allowed) where
  composes := composes_all _
  host _ _ _ he := by cases he
  create _ _ _ he := by cases he
  event m e he e' he' := by
    obtain rfl := List.mem_singleton.mp he'
    cases e' with
    | acted action id => exact he.elim
    | _ => trivial
  work _ _ _ hallowed _ he := by
    obtain rfl := List.mem_singleton.mp he
    exact hallowed
  configure _ _ _ _ _ he := by
    obtain rfl := List.mem_singleton.mp he
    trivial

theorem tolerates_covered (env : Setting κ) (q : Question) :
    Tolerates env true q.Covers (AllWithin κ q.Covers) := tolerates_within true

/-- Where no action needs a yes, all is guarded. -/
theorem guarded_of_within {m : Cli κ α}
    (h : Meets Machine.events (AllWithin κ fun action _ => ¬ needed action) m) :
    Meets Machine.events (AllGuarded κ needed) m := by
  refine Meets.guarded (h.weaken fun _ l _ hl e he hneeds => ?_)
  have hwithin := hl e he
  cases e with
  | acted action id => exact hwithin hneeds
  | _ => exact hneeds

/-- What comes after a yes that covers it is guarded. -/
theorem guarded_bind_of_yes {m : Cli κ α} {f : α → Cli κ Unit} (hm : ∀ s, ∃ g : Event,
    m.after s = s.tell g ∧ (∀ action id, g ≠ .acted action id) ∧ ∀ a s', m.run s = (.ok a, s') →
      Meets Machine.events (AllWithin κ fun action _ => ¬ needed action) (f a) ∨
        (g = .answered q (some true) ∨ g = .waived q) ∧
          Meets Machine.events (AllWithin κ q.Covers) (f a)) :
    Meets Machine.events (AllGuarded κ needed) (m >>= f) := by
  refine meets_guarded_bind fun s => ?_
  obtain ⟨g, hafter, hplain, hreturns⟩ := hm s
  refine ⟨[g], by rw [hafter]; rfl, fun e he hneeds => ?_, fun a s' hrun => ?_⟩
  · obtain rfl := List.mem_singleton.mp he
    cases e with
    | acted action id => exact hplain action id rfl
    | _ => exact hneeds
  · rcases hreturns a s' hrun with hfree | ⟨hyes, hcovered⟩
    · refine hfree.weaken fun _ l _ hl e he hneeds => ?_
      have hwithin := hl e he
      cases e with
      | acted action id => exact absurd hneeds hwithin
      | _ => exact hneeds.elim
    · refine hcovered.weaken fun _ l _ hl e he hneeds => ?_
      have hwithin := hl e he
      refine ⟨g, List.mem_singleton_self g, ?_⟩
      cases e with
      | acted action id =>
        rcases hyes with rfl | rfl
        · exact hwithin
        · exact hwithin
      | _ => exact hneeds.elim

/-- The machine after a question, and the answer. -/
theorem run_answer (q : Question) (m : Machine κ) :
    (answer env q).run m = (.ok (env.terminal.confirm m.events.length q.text q.default),
      m.tell (.answered q (env.terminal.confirm m.events.length q.text q.default))) := rfl

/-- **After a confirmation.** -/
theorem guarded_confirmUnless_bind {given : Bool} {f : Unit → Cli κ Unit}
    (hf : ∀ a, Meets Machine.events (AllWithin κ q.Covers) (f a)) :
    Meets Machine.events (AllGuarded κ needed) (confirmUnless env given q >>= f) := by
  refine guarded_bind_of_yes (q := q) fun s => ?_
  cases given with
  | true => exact ⟨.waived q, rfl, by simp, fun a _ _ => .inr ⟨.inr rfl, hf a⟩⟩
  | false =>
    have hrun : (confirmUnless env false q).run s = _ := run_bind_ok (run_answer q s)
    refine ⟨.answered q (env.terminal.confirm s.events.length q.text q.default), ?_, by simp,
      fun a s' h => ?_⟩
    · rw [after, hrun]
      split
      · rfl
      · rfl
    · rw [hrun] at h
      split at h
      · rename_i hreply
        exact .inr ⟨.inl (by rw [hreply]), hf a⟩
      · cases (Prod.mk.inj h).1

/-- **After a question**: where the answer is no, nothing that needs a yes. -/
theorem guarded_ask_bind {f : Bool → Cli κ Unit}
    (hyes : Meets Machine.events (AllWithin κ q.Covers) (f true))
    (hno : Meets Machine.events (AllWithin κ fun action _ => ¬ needed action) (f false)) :
    Meets Machine.events (AllGuarded κ needed) (ask env q >>= f) := by
  refine guarded_bind_of_yes (q := q) fun s => ?_
  have hrun : (ask env q).run s = _ := run_bind_ok (run_answer q s)
  cases hreply : env.terminal.confirm s.events.length q.text q.default with
  | none =>
    rw [hreply] at hrun
    refine ⟨.answered q none, congrArg Prod.snd hrun, by simp, fun a s' h => ?_⟩
    cases (Prod.mk.inj (hrun.symm.trans h)).1
  | some reply =>
    rw [hreply] at hrun
    refine ⟨.answered q (some reply), congrArg Prod.snd hrun, by simp, fun a s' h => ?_⟩
    obtain rfl := Except.ok.inj (Prod.mk.inj (hrun.symm.trans h)).1
    cases reply with
    | true => exact .inr ⟨.inl rfl, hyes⟩
    | false => exact .inl hno

/-! ## Commands -/

/-- The actions a command needs a yes for: the wizard refreshes without. -/
def Command.Needed (c : Command) (action : Action) : Prop := ¬ (c = .wizard ∧ action = .refresh)

/-- What a command does before it asks. -/
theorem guarded_bind {m : Cli κ α} {f : α → Cli κ Unit}
    (hm : Meets Machine.events (AllWithin κ fun action _ => ¬ needed action) m)
    (hf : ∀ a, Meets Machine.events (AllGuarded κ needed) (f a)) :
    Meets Machine.events (AllGuarded κ needed) (m >>= f) :=
  Meets.bind composes_guarded (guarded_of_within hm) hf

theorem guarded_ite {c : Prop} [Decidable c] {m m' : Cli κ α}
    (hm : Meets Machine.events (AllGuarded κ needed) m)
    (hm' : Meets Machine.events (AllWithin κ fun action _ => ¬ needed action) m') :
    Meets Machine.events (AllGuarded κ needed) (if c then m else m') :=
  meets_ite (fun _ => hm) fun _ => guarded_of_within hm'

theorem guarded_wizardDeploy (path : Option PosixPath) :
    Meets Machine.events (AllGuarded κ needed) (wizardDeploy env path) := by
  have hfree : Tolerates env true _ (AllWithin κ fun action _ => ¬ needed action) :=
    tolerates_within true
  have hend : Meets Machine.events (AllWithin κ fun action _ => ¬ needed action)
      (pure ⟨⟩ : Cli κ Unit) := meets_pure hfree.composes _
  refine guarded_bind (hfree.meets_stackDirectory path) fun dir =>
    guarded_bind (hfree.meets_fileExists _) fun _ =>
      guarded_ite (guarded_bind (hfree.meets_prompt _ _) fun stackName =>
        guarded_bind (hfree.meets_ask _) fun _ => ?_) hend
  refine meets_ite (fun _ =>
    guarded_of_within (hfree.meets_wizardCall (hfree.meets_previewStack _))) fun _ => ?_
  refine guarded_ask_bind ?_ hend
  exact (tolerates_covered env _).meets_wizardCall
    ((tolerates_covered env _).meets_operate ⟨rfl, rfl⟩)

theorem guarded_wizardNew : Meets Machine.events (AllGuarded κ needed) (wizardNew env) := by
  have hfree : Tolerates env true _ (AllWithin κ fun action _ => ¬ needed action) :=
    tolerates_within true
  have hend : Meets Machine.events (AllWithin κ fun action _ => ¬ needed action)
      (pure ⟨⟩ : Cli κ Unit) := meets_pure hfree.composes _
  exact guarded_bind (hfree.meets_choose _ _) fun _ =>
    guarded_bind (hfree.meets_prompt _ _) fun _ =>
      guarded_bind (hfree.meets_mayOverwrite _ _) fun _ =>
        guarded_ite (guarded_bind (hfree.meets_runner _) fun _ =>
          guarded_bind (meets_each hfree.composes fun _ _ => hfree.meets_runner _) fun _ =>
            guarded_bind (hfree.meets_ask _) fun _ =>
              guarded_ite (guarded_wizardDeploy _) hend) hend

theorem guarded_wizardDestroy :
    Meets Machine.events (AllGuarded κ needed) (wizardDestroy env) := by
  have hfree : Tolerates env true _ (AllWithin κ fun action _ => ¬ needed action) :=
    tolerates_within true
  have hend : Meets Machine.events (AllWithin κ fun action _ => ¬ needed action)
      (pure ⟨⟩ : Cli κ Unit) := meets_pure hfree.composes _
  refine guarded_bind (hfree.meets_prompt _ _) fun _ =>
    guarded_bind (hfree.meets_prompt _ _) fun _ =>
      guarded_bind (hfree.meets_fileExists _) fun _ => guarded_ite (guarded_ask_bind ?_ hend) hend
  exact (tolerates_covered env _).meets_wizardCall
    ((tolerates_covered env _).meets_operate ⟨rfl, rfl⟩)

/-- **An action comes after a yes that covers it.** -/
theorem guarded_exec (c : Command) :
    Meets Machine.events (AllGuarded κ c.Needed) (c.exec env) := by
  have hfree : Tolerates env true _ (AllWithin κ fun action _ => ¬ c.Needed action) :=
    tolerates_within true
  have hend : Meets Machine.events (AllWithin κ fun action _ => ¬ c.Needed action)
      (pure ⟨⟩ : Cli κ Unit) := meets_pure hfree.composes _
  cases c with
  | up path preview stackName yes =>
    have hcovered := tolerates_covered env (.deploy (env.stack path stackName))
    exact guarded_bind (hfree.meets_requirePulumiYaml _) fun _ =>
      guarded_bind hfree.meets_resolvePassphrase fun _ =>
        guarded_bind (hfree.meets_orExit (hfree.meets_getStack _)) fun _ =>
          meets_ite (fun _ => guarded_of_within (hfree.meets_orExit (hfree.meets_previewStack _)))
            fun _ => guarded_confirmUnless_bind fun _ =>
              hcovered.meets_orExit (hcovered.meets_operate ⟨rfl, rfl⟩)
  | destroy path stackName yes remove =>
    have hcovered := tolerates_covered env (.destroy (env.stack path stackName))
    exact guarded_bind (hfree.meets_requirePulumiYaml _) fun _ =>
      guarded_confirmUnless_bind fun _ =>
        Meets.bind hcovered.composes hcovered.meets_resolvePassphrase fun _ =>
          Meets.bind hcovered.composes (hcovered.meets_orExit (hcovered.meets_getStack _)) fun _ =>
            Meets.bind hcovered.composes
              (hcovered.meets_orExit (hcovered.meets_operate ⟨.inl rfl, rfl⟩)) fun _ =>
                meets_ite (fun _ => hcovered.meets_caught
                  (hcovered.meets_removeStack ⟨.inr rfl, rfl⟩ _)) fun _ =>
                    meets_pure hcovered.composes _
  | refresh path stackName yes =>
    have hcovered := tolerates_covered env (.refresh (env.stack path stackName))
    exact guarded_bind (hfree.meets_requirePulumiYaml _) fun _ =>
      guarded_confirmUnless_bind fun _ =>
        Meets.bind hcovered.composes hcovered.meets_resolvePassphrase fun _ =>
          Meets.bind hcovered.composes (hcovered.meets_orExit (hcovered.meets_getStack _)) fun _ =>
            hcovered.meets_orExit (hcovered.meets_operate ⟨rfl, rfl⟩)
  | status path stackName => exact guarded_of_within (hfree.meets_status _ _)
  | output path key stackName asJson => exact guarded_of_within (hfree.meets_output _ _ _ _)
  | configSet key value secret path stackName =>
    exact guarded_of_within (hfree.meets_configSet _ _ _ _ _)
  | configGet key path stackName => exact guarded_of_within (hfree.meets_configGet _ _ _)
  | configList path stackName asJson => exact guarded_of_within (hfree.meets_configList _ _ _)
  | stackList path => exact guarded_of_within (hfree.meets_stackList _)
  | stackRm name path yes force =>
    have hcovered := tolerates_covered env (.remove (env.stack path name))
    exact guarded_bind (hfree.meets_requirePulumiYaml _) fun _ =>
      guarded_confirmUnless_bind fun _ =>
        Meets.bind hcovered.composes hcovered.meets_resolvePassphrase fun _ =>
          hcovered.meets_orExit (Meets.bind hcovered.composes (hcovered.meets_getStack _) fun _ =>
            hcovered.meets_removeStack ⟨rfl, rfl⟩ force)
  | projectUp path stackName preview yes =>
    refine guarded_bind (hfree.meets_loadProject _) fun project => ?_
    have hcovered := tolerates_covered env (.deployProject project (env.workDir path) stackName)
    cases preview with
    | true =>
      exact guarded_bind hend fun _ => guarded_bind hfree.meets_resolvePassphrase fun _ =>
        guarded_of_within (hfree.meets_valueErrorExits (meets_each hfree.composes fun _ _ =>
          hfree.meets_deploySpellOn fun h => by cases h))
    | false =>
      exact guarded_confirmUnless_bind fun _ =>
        Meets.bind hcovered.composes hcovered.meets_resolvePassphrase fun _ =>
          hcovered.meets_valueErrorExits (meets_each hcovered.composes fun ref href =>
            hcovered.meets_deploySpellOn fun _ => ⟨rfl, ref, href, rfl⟩)
  | projectDestroy path stackName yes =>
    refine guarded_bind (hfree.meets_loadProject _) fun project => ?_
    have hcovered := tolerates_covered env (.destroyProject project (env.workDir path) stackName)
    exact guarded_confirmUnless_bind fun _ =>
      Meets.bind hcovered.composes hcovered.meets_resolvePassphrase fun _ =>
        meets_each hcovered.composes fun ref href =>
          hcovered.meets_destroySpellOn ⟨rfl, ref, List.mem_reverse.mp href, rfl⟩
  | projectStatus path stackName => exact guarded_of_within (hfree.meets_projectStatus _ _)
  | wizard =>
    refine guarded_bind (hfree.meets_choose _ _) fun action => ?_
    split
    · exact guarded_wizardNew
    · exact guarded_wizardDeploy none
    · exact guarded_of_within hfree.meets_wizardStatus
    · -- The one action without a yes.
      exact guarded_of_within (hfree.meets_withStack fun _ =>
        hfree.meets_wizardCall (hfree.meets_operate fun h => h ⟨rfl, rfl⟩))
    · exact guarded_wizardDestroy
    · exact guarded_of_within hend

end Guards

/-! ## Sessions -/

section Sessions

variable {κ : Type} {env : Setting κ} {steps : List SessionStep} {m : Machine κ} {k : StackId}

/-- The events of a command. -/
def emitted (env : Setting κ) (c : Command) (m : Machine κ) : List Event :=
  added Machine.events (c.exec env) m

/-- A command of a session, as it found the machine. -/
def Entered (env : Setting κ) (steps : List SessionStep) (m : Machine κ) (c : Command)
    (found : Machine κ) : Prop :=
  ∃ pre post, steps = pre ++ .command c :: post ∧ found = replay (SessionStep.exec env) pre m

/-- In a command of the session the user agreed to the action, before it was done. -/
def Agreed (env : Setting κ) (steps : List SessionStep) (m : Machine κ) (action : Action)
    (k : StackId) : Prop :=
  ∃ c found, Entered env steps m c found ∧ ∃ before later,
    emitted env c found = before ++ .acted action k :: later ∧
      ∃ e ∈ before, e.Agrees (.acted action k)

/-- An action of a command was agreed to, where it needs to be. -/
theorem agreed_of_entered {c : Command} {found : Machine κ} {action : Action}
    (hentered : Entered env steps m c found) (hneeded : c.Needed action)
    (h : .acted action k ∈ emitted env c found) : Agreed env steps m action k := by
  obtain ⟨before, later, hsplit⟩ := List.append_of_mem h
  obtain ⟨e, he, hagrees⟩ := (guarded_exec c found).added before _ later hsplit hneeded
  exact ⟨c, found, hentered, before, later, hsplit, e, he, hagrees⟩

/-- **What changed of the machine in a session, a command changed.** -/
theorem exists_entered_of_ne {γ : Type} (view : Machine κ → γ)
    (hfiles : ∀ paths manifests (found : Machine κ),
      view ((SessionStep.exec env (.files paths manifests)).after found) = view found)
    (h : view (replay (SessionStep.exec env) steps m) ≠ view m) :
    ∃ c found, Entered env steps m c found ∧ view found = view m ∧
      view ((c.exec env).after found) ≠ view found := by
  obtain ⟨pre, step, post, hsteps, hsame, hne⟩ := exists_call_of_replay_ne view h
  cases step with
  | command c => exact ⟨c, _, ⟨pre, post, hsteps, rfl⟩, hsame, hne⟩
  | files paths manifests => exact absurd (hfiles paths manifests _) hne

/-- What is live of a stack changes by its being upped or destroyed. -/
theorem tolerates_live (yes : Bool) (k : StackId) :
    ToleratesAll env yes fun m l m' => True → m'.live k ≠ m.live k →
      ∃ e ∈ l, e = .acted .up k ∨ e = .acted .destroy k where
  composes := composes_unless (fun m : Machine κ => m.live k) (fun _ => True) _
  host _ _ _ h := absurd rfl h
  create m id _ h := by
    unfold Machine.create at h
    split at h
    · exact absurd rfl h
    · exact absurd rfl h
  event _ _ _ _ h := absurd rfl h
  work m action id _ _ h := by
    refine ⟨.acted action id, List.mem_singleton_self _, ?_⟩
    by_cases hk : k = id
    · subst hk
      unfold Machine.work at h
      split at h
      · exact absurd rfl h
      · cases action with
        | up => exact .inl rfl
        | destroy => exact .inr rfl
        | refresh => exact absurd rfl h
        | remove => exact absurd rfl h
    · refine absurd ?_ h
      unfold Machine.work
      split
      · rfl
      · cases action with
        | up => exact Function.update_of_ne hk ..
        | destroy => exact Function.update_of_ne hk ..
        | refresh => rfl
        | remove => rfl
  configure _ _ _ _ _ h := absurd rfl h

/-- What is kept of a stack there is changes by an action on it, or by its being configured. -/
theorem tolerates_records (yes : Bool) (k : StackId) :
    ToleratesAll env yes fun m l m' => (m.records k).isSome → m'.records k ≠ m.records k →
      ∃ e ∈ l, (∃ action, e = .acted action k) ∨ ∃ key, e = .configured k key where
  composes := composes_unless (fun m : Machine κ => m.records k) (fun kept => kept.isSome) _
  host _ _ _ h := absurd rfl h
  create m id hkept h := by
    unfold Machine.create at h
    split at h
    · exact absurd rfl h
    · rename_i hnone
      by_cases hk : k = id
      · subst hk
        rw [hnone] at hkept
        cases hkept
      · exact absurd (Function.update_of_ne hk ..) h
  event _ _ _ _ h := absurd rfl h
  work m action id _ _ h := by
    refine ⟨.acted action id, List.mem_singleton_self _, .inl ⟨action, ?_⟩⟩
    by_cases hk : k = id
    · rw [hk]
    · refine absurd ?_ h
      unfold Machine.work
      split
      · rfl
      · cases action with
        | up => exact Function.update_of_ne hk ..
        | destroy => exact Function.update_of_ne hk ..
        | refresh => exact Function.update_of_ne hk ..
        | remove => exact Function.update_of_ne hk ..
  configure m id key value _ h := by
    refine ⟨.configured id key, List.mem_singleton_self _, .inr ⟨key, ?_⟩⟩
    by_cases hk : k = id
    · rw [hk]
    · exact absurd (Function.update_of_ne hk ..) h

theorem agreed_of_live_ne (h : (replay (SessionStep.exec env) steps m).live k ≠ m.live k) :
    Agreed env steps m .up k ∨ Agreed env steps m .destroy k := by
  obtain ⟨c, found, hentered, -, hne⟩ :=
    exists_entered_of_ne (fun m => m.live k) (fun _ _ _ => rfl) h
  obtain ⟨e, he, hacted⟩ := (meets_exec (tolerates_live c.yes k) found).added trivial hne
  rcases hacted with rfl | rfl
  · exact .inl (agreed_of_entered hentered (by simp [Command.Needed]) he)
  · exact .inr (agreed_of_entered hentered (by simp [Command.Needed]) he)

/-- **Nothing changes without a yes.**  Where something else is live of a stack after a session, the
user agreed to its being upped or destroyed; and where something else is kept of it, to an action on
it — or it was configured, or refreshed by the wizard. -/
theorem consent_of_session (env : Setting κ) (steps : List SessionStep) (m : Machine κ)
    (k : StackId) :
    ((replay (SessionStep.exec env) steps m).live k ≠ m.live k →
      Agreed env steps m .up k ∨ Agreed env steps m .destroy k) ∧
    ((m.records k).isSome → (replay (SessionStep.exec env) steps m).records k ≠ m.records k →
      (∃ action, Agreed env steps m action k) ∨ ∃ c found, Entered env steps m c found ∧
        ((∃ key, .configured k key ∈ emitted env c found) ∨
          c = .wizard ∧ .acted .refresh k ∈ emitted env c found)) := by
  refine ⟨agreed_of_live_ne, fun hkept h => ?_⟩
  obtain ⟨c, found, hentered, hsame, hne⟩ :=
    exists_entered_of_ne (fun m => m.records k) (fun _ _ _ => rfl) h
  obtain ⟨e, he, hcause⟩ :=
    (meets_exec (tolerates_records c.yes k) found).added (hsame ▸ hkept) hne
  rcases hcause with ⟨action, rfl⟩ | ⟨key, rfl⟩
  · by_cases hneeded : c.Needed action
    · exact .inl ⟨action, agreed_of_entered hentered hneeded he⟩
    · obtain ⟨rfl, rfl⟩ := not_not.mp hneeded
      exact .inr ⟨_, found, hentered, .inr ⟨rfl, he⟩⟩
  · exact .inr ⟨c, found, hentered, .inl ⟨key, he⟩⟩

/-! ### A user who leaves every question to its default -/

/-- A stack that is kept stays so, unless it is removed. -/
theorem tolerates_kept (yes : Bool) (k : StackId) :
    ToleratesAll env yes fun m l m' => (m.records k).isSome = true →
      (m'.records k).isSome ≠ (m.records k).isSome → ∃ e ∈ l, e = .acted .remove k where
  composes := composes_unless (fun m : Machine κ => (m.records k).isSome) (· = true) _
  host _ _ _ h := absurd rfl h
  create m id hkept h := by
    unfold Machine.create at h
    split at h
    · exact absurd rfl h
    · rename_i hnone
      by_cases hk : k = id
      · subst hk
        rw [hnone] at hkept
        cases hkept
      · exact absurd (congrArg Option.isSome (Function.update_of_ne hk ..)) h
  event _ _ _ _ h := absurd rfl h
  work m action id _ hkept h := by
    by_cases hk : k = id
    · subst hk
      unfold Machine.work at h
      split at h
      · exact absurd rfl h
      · cases action with
        | remove => exact ⟨_, List.mem_singleton_self _, rfl⟩
        | _ =>
          refine absurd ?_ h
          rw [hkept]
          simp
    · refine absurd ?_ h
      unfold Machine.work
      split
      · rfl
      · cases action with
        | up => exact congrArg Option.isSome (Function.update_of_ne hk ..)
        | destroy => exact congrArg Option.isSome (Function.update_of_ne hk ..)
        | refresh => exact congrArg Option.isSome (Function.update_of_ne hk ..)
        | remove => exact congrArg Option.isSome (Function.update_of_ne hk ..)
  configure m id key value _ h := by
    refine absurd ?_ h
    by_cases hk : k = id
    · subst hk
      simp [Machine.configure, Machine.tell]
    · exact congrArg Option.isSome (Function.update_of_ne hk ..)

/-- The answers are the user's, and `--yes` was given where it says so. -/
theorem tolerates_plain (yes : Bool) : ToleratesAll env yes fun (_ : Machine κ) l _ =>
    ∀ e ∈ l, e.Plain env yes ∨ (∃ action id, e = .acted action id) ∨
      ∃ id key, e = .configured id key where
  composes := composes_all _
  host _ _ _ he := by cases he
  create _ _ _ he := by cases he
  event _ e he _ he' := .inl (List.mem_singleton.mp he' ▸ he)
  work _ action id _ _ he := .inr (.inl ⟨action, id, List.mem_singleton.mp he⟩)
  configure _ id key _ _ he := .inr (.inr ⟨id, key, List.mem_singleton.mp he⟩)

/-- **What such a user agrees to** is a deploy of the wizard. -/
theorem up_of_agreed_of_silent {action : Action}
    (hsilent : ∀ n text default, env.terminal.confirm n text default = some default)
    (hyes : ∀ c, .command c ∈ steps → c.yes = false) (h : Agreed env steps m action k) :
    action = .up ∧ ∃ c found, Entered env steps m c found ∧
      .answered (.wizardDeploy k) (some true) ∈ emitted env c found := by
  obtain ⟨c, found, hentered, before, later, hsplit, e, he, hagrees⟩ := h
  have hmem : e ∈ emitted env c found := by rw [hsplit]; exact List.mem_append_left _ he
  have hnotYes : c.yes = false := by
    obtain ⟨pre, post, hsteps, -⟩ := hentered
    exact hyes c (hsteps ▸ by simp)
  have hplain := (meets_exec (tolerates_plain c.yes) found).added e hmem
  cases e with
  | answered q reply =>
    obtain rfl : reply = some true := by
      rcases reply with _ | _ | _
      · exact hagrees.elim
      · exact hagrees.elim
      · rfl
    have hdefault : q.default = true := by
      obtain ⟨n, hreply⟩ | ⟨_, _, hother⟩ | ⟨_, _, hother⟩ := hplain
      · exact Option.some.inj ((hsilent ..).symm.trans hreply.symm)
      · cases hother
      · cases hother
    cases q with
    | wizardDeploy id =>
      obtain ⟨rfl, rfl⟩ := hagrees
      exact ⟨rfl, c, found, hentered, hmem⟩
    | _ => cases hdefault
  | waived q =>
    obtain hgiven | ⟨_, _, hother⟩ | ⟨_, _, hother⟩ := hplain
    · exact absurd (hnotYes.symm.trans hgiven) (by decide)
    · cases hother
    · cases hother
  | _ => exact hagrees.elim

/-- **Silence is no consent**, but to the wizard's deploy.  A user who leaves every question to its
default and never gives `--yes` destroys and removes no stack; and what is live of a stack is other
after the session only where the wizard asked to deploy it. -/
theorem silence_of_session (env : Setting κ) (steps : List SessionStep) (m : Machine κ)
    (k : StackId)
    (hsilent : ∀ n text default, env.terminal.confirm n text default = some default)
    (hyes : ∀ c, .command c ∈ steps → c.yes = false) :
    (∀ c found, Entered env steps m c found →
      .acted .destroy k ∉ emitted env c found ∧ .acted .remove k ∉ emitted env c found) ∧
    ((m.records k).isSome → ((replay (SessionStep.exec env) steps m).records k).isSome) ∧
    ((replay (SessionStep.exec env) steps m).live k ≠ m.live k →
      ∃ c found, Entered env steps m c found ∧
        .answered (.wizardDeploy k) (some true) ∈ emitted env c found) := by
  have hnever : ∀ action, action = .destroy ∨ action = .remove → ∀ c found,
      Entered env steps m c found → .acted action k ∉ emitted env c found := by
    intro action haction c found hentered hmem
    have hneeded : c.Needed action := by
      rintro ⟨-, rfl⟩
      rcases haction with h | h
      · cases h
      · cases h
    obtain ⟨rfl, -⟩ :=
      up_of_agreed_of_silent hsilent hyes (agreed_of_entered hentered hneeded hmem)
    rcases haction with h | h
    · cases h
    · cases h
  refine ⟨fun c found hentered => ⟨hnever .destroy (.inl rfl) c found hentered,
    hnever .remove (.inr rfl) c found hentered⟩, fun hkept => ?_, fun h => ?_⟩
  · by_contra hlost
    obtain ⟨c, found, hentered, hsame, hne⟩ := exists_entered_of_ne
      (fun m => (m.records k).isSome) (fun _ _ _ => rfl) fun h => hlost (h.trans hkept)
    obtain ⟨e, he, rfl⟩ :=
      (meets_exec (tolerates_kept c.yes k) found).added (hsame.trans hkept) hne
    exact hnever .remove (.inr rfl) c found hentered he
  · rcases agreed_of_live_ne h with hup | hdestroy
    · exact (up_of_agreed_of_silent hsilent hyes hup).2
    · cases (up_of_agreed_of_silent hsilent hyes hdestroy).1

/-- Destroying, from the command line and by the wizard. -/
theorem silence_of_session_default : ∃ (env : Setting ℕ) (m : Machine ℕ) (k : StackId),
    (m.records k).isSome ∧ ((replay (SessionStep.exec env)
      [.command (.destroy none "dev" false true), .command .wizard] m).records k).isSome := by
  let env : Setting ℕ := {
    terminal := {
      confirm := fun _ _ default => some default
      ask := fun _ _ default => default
      choose := fun _ _ n => if h : 4 < n then some ⟨4, h⟩ else none }
    engine := {
      fate := fun _ => { fails := false, appears := fun _ => false }
      fails := fun _ => false
      creates := fun _ => false
      up := fun _ kept live => (kept, live + 1)
      destroy := fun _ kept _ => ({ kept with deployment := some [] }, 0)
      refresh := fun _ kept _ => kept }
    resolve := id
    passphrase := true }
  let m : Machine ℕ := {
    host := { state := fun _ => true, log := [] }
    manifests := fun _ => none
    records := fun _ => some {}
    live := fun _ => 1
    events := [] }
  have hyes : ∀ c, SessionStep.command c ∈
      [.command (.destroy none "dev" false true), .command .wizard] → c.yes = false := by
    simp only [List.mem_cons, List.not_mem_nil, or_false, SessionStep.command.injEq]
    rintro c (rfl | rfl)
    · rfl
    · rfl
  refine ⟨env, m, ⟨⟨"/", []⟩, "dev"⟩, rfl, ?_⟩
  exact (silence_of_session env _ m _ (fun _ _ _ => rfl) hyes).2.1 rfl

end Sessions

end CloudSpells
