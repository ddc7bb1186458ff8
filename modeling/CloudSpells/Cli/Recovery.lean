import CloudSpells.Cli.Project

/-!
# Cli/Recovery — deploying again after a failed scaffold

A run that fails between the files of a spell directory leaves some of them.  The next run takes the
directory for scaffolded where its `Pulumi.yaml` is there, which is the first file written; so it
deploys the spell without a `__main__.py` where the failure came after that, and completes the
directory where it came before (`crashSafe_iff_of_run`).
-/

namespace CloudSpells

open Machinery Machinery.Exec Machinery.Journal

/-! ## Failures -/

/-- The operation that is the `n`-th on the log fails and leaves something behind. -/
def crashAt (n : ℕ) (left : PosixPath → Bool) : ℕ → Fate (PosixPath → Bool) := fun k =>
  { fails := k = n, appears := if k = n then left else fun _ => false }

/-- Nothing fails. -/
def calm : ℕ → Fate (PosixPath → Bool) := fun _ => { fails := false, appears := fun _ => false }

/-- The operations that make a spell directory. -/
def Operation.scaffolds : Operation → Bool
  | mkdir _ => true
  | writeText _ => true
  | _ => false

section Runs

variable {n : ℕ} {left : PosixPath → Bool} {op : Operation} {e : RunnerError} {host host' : Host}

/-- An operation that got through created what it is to create… -/
theorem state_of_run_crashAt (h : (op.run (crashAt n left)).run host = (.ok ⟨⟩, host'))
    (path : PosixPath) : host'.state path = (host.state path || op.creates path) := by
  rw [Operation.run] at h
  by_cases hn : host.log.length = n
  · rw [run_perform_of_fails (by simpa [crashAt] using hn)] at h
    cases (Prod.mk.inj h).1
  · rw [run_perform_of_succeeds (by simpa [crashAt] using hn)] at h
    obtain ⟨-, rfl⟩ := Prod.mk.inj h
    change ((host.state path || (crashAt n left host.log.length).appears path) ||
      op.creates path) = _
    simp [crashAt, hn]

/-- …and one that did not, what it left behind. -/
theorem state_of_run_crashAt_error (h : (op.run (crashAt n left)).run host = (.error e, host')) :
    e = .failed op ∧ ∀ path, host'.state path = (host.state path || left path) := by
  rw [Operation.run] at h
  by_cases hn : host.log.length = n
  · rw [run_perform_of_fails (by simpa [crashAt] using hn)] at h
    obtain ⟨he, rfl⟩ := Prod.mk.inj h
    refine ⟨(Except.error.inj he).symm, fun path => ?_⟩
    change (host.state path || (crashAt n left host.log.length).appears path) = _
    simp [crashAt, hn]
  · rw [run_perform_of_succeeds (by simpa [crashAt] using hn)] at h
    cases (Prod.mk.inj h).1

/-- Where nothing fails, an operation gets through. -/
theorem run_calm (op : Operation) (host : Host) : ∃ host', (op.run calm).run host =
    (.ok ⟨⟩, host') ∧ ∀ path, host'.state path = (host.state path || op.creates path) := by
  refine ⟨_, run_perform_of_succeeds rfl, fun path => ?_⟩
  change ((host.state path || false) || op.creates path) = _
  rw [Bool.or_false]

theorem state_of_pathExists {path : PosixPath} {found : Bool}
    (h : (pathExists (crashAt n left) path).run host = (.ok found, host')) :
    host'.state = host.state ∧ found = host.state path := by
  obtain ⟨_, host₁, hop, hget⟩ := run_bind_eq_ok.mp h
  obtain ⟨hfound, rfl⟩ := Prod.mk.inj hget
  have hstate : host₁.state = host.state := funext fun p =>
    (state_of_run_crashAt hop p).trans (Bool.or_false _)
  exact ⟨hstate, (Except.ok.inj hfound).symm.trans (congrFun hstate path)⟩

end Runs

/-! ## What a failed scaffold leaves -/

/-- `{work_dir}/{name}/__main__.py`. -/
def programOf (workDir : PosixPath) (ref : SpellRef) : PosixPath :=
  (workDir.join ref.name).join "__main__.py"

/-- All the rendered files are in the spell directory. -/
def Complete (workDir : PosixPath) (ref : SpellRef) (host : Host) : Prop :=
  ∀ fname ∈ renderedFiles, Present ((workDir.join ref.name).join fname) host

section Scaffold

variable {fate : ℕ → Fate (PosixPath → Bool)} {n : ℕ} {left : PosixPath → Bool} {op : Operation}
  {workDir : PosixPath} {ref : SpellRef} {stackName : String} {preview : Bool}
  {host host' : Host} {fname : String}

theorem complete_iff :
    Complete workDir ref host ↔ Present (manifestOf workDir ref) host ∧
      Present (programOf workDir ref) host := by
  simp [Complete, renderedFiles, manifestOf, programOf]

theorem manifestOf_ne_programOf : manifestOf workDir ref ≠ programOf workDir ref := by
  have hmanifest : "Pulumi.yaml" ∈ renderedFiles := by decide
  have hprogram : "__main__.py" ∈ renderedFiles := by decide
  rw [manifestOf, programOf, PosixPath.join_fname (renderedFiles_plain hmanifest),
    PosixPath.join_fname (renderedFiles_plain hprogram)]
  intro h
  have hlast := (List.append_inj' (PosixPath.mk.inj h).2 rfl).2
  exact absurd (List.singleton_inj.mp hlast) (by decide)

/-- Making a directory makes none of its files. -/
theorem mkdir_creates_join (hfname : fname ∈ renderedFiles) (dir : PosixPath) :
    (Operation.mkdir dir).creates (dir.join fname) = false := by
  rw [PosixPath.join_fname (renderedFiles_plain hfname)]
  refine Bool.and_eq_false_imp.mpr fun _ => Bool.eq_false_of_not_eq_true fun h => ?_
  have hlength := (List.isPrefixOf_iff_prefix.mp h).length_le
  rw [List.length_append, List.length_singleton] at hlength
  exact absurd hlength (Nat.not_succ_le_self _)

/-- **Where a scaffold can fail**: after it found no `Pulumi.yaml`, at the directory, at the
`Pulumi.yaml` or at the `__main__.py`. -/
theorem failed_scaffold (hop : op.scaffolds = true)
    (h : (ensureSpellDir (crashAt n left) ref workDir).run host = (.error (.failed op), host')) :
    ∃ host₁, (pathExists (crashAt n left) (manifestOf workDir ref)).run host = (.ok false, host₁) ∧
      (((Operation.mkdir (workDir.join ref.name)).run (crashAt n left)).run host₁ =
        (.error (.failed op), host') ∨
      ∃ host₂, ((Operation.mkdir (workDir.join ref.name)).run (crashAt n left)).run host₁ =
          (.ok ⟨⟩, host₂) ∧
        (((Operation.writeText (manifestOf workDir ref)).run (crashAt n left)).run host₂ =
          (.error (.failed op), host') ∨
        ∃ host₃, ((Operation.writeText (manifestOf workDir ref)).run (crashAt n left)).run host₂ =
            (.ok ⟨⟩, host₃) ∧
          ((Operation.writeText (programOf workDir ref)).run (crashAt n left)).run host₃ =
            (.error (.failed op), host'))) := by
  unfold ensureSpellDir at h
  split at h
  · cases (Prod.mk.inj h).1
  · rcases run_bind_eq_error.mp h with hexists | ⟨found, host₁, hexists, h⟩
    · -- The failure is none of the check for the file.
      rcases run_bind_eq_error.mp hexists with hfail | ⟨_, _, _, hget⟩
      · cases RunnerError.failed.inj (state_of_run_crashAt_error hfail).1
        cases hop
      · cases (Prod.mk.inj hget).1
    · cases found with
      | true => cases (Prod.mk.inj h).1
      | false =>
        refine ⟨host₁, hexists, ?_⟩
        rcases run_bind_eq_error.mp h with hmkdir | ⟨_, host₂, hmkdir, h⟩
        · exact .inl hmkdir
        · refine .inr ⟨host₂, hmkdir, ?_⟩
          rcases run_bind_eq_error.mp h with hwrites | ⟨_, _, _, hreturn⟩
          · rcases run_bind_eq_error.mp hwrites with hfirst | ⟨_, host₃, hfirst, hwrites⟩
            · exact .inl hfirst
            · rcases run_bind_eq_error.mp hwrites with hsecond | ⟨_, _, _, hreturn⟩
              · exact .inr ⟨host₃, hfirst, hsecond⟩
              · cases (Prod.mk.inj hreturn).1
          · cases (Prod.mk.inj hreturn).1

/-- **What a scaffold that failed leaves**: the directory had no `Pulumi.yaml`; it has one now where
the failure came after that, or left one; and a `__main__.py` where it had one, or one was left. -/
theorem state_of_failed_scaffold (hop : op.scaffolds = true)
    (h : (ensureSpellDir (crashAt n left) ref workDir).run host = (.error (.failed op), host')) :
    host.state (manifestOf workDir ref) = false ∧
      host'.state (manifestOf workDir ref) =
        (decide (op = .writeText (programOf workDir ref)) || left (manifestOf workDir ref)) ∧
      host'.state (programOf workDir ref) =
        (host.state (programOf workDir ref) || left (programOf workDir ref)) := by
  have hmanifest : (Operation.mkdir (workDir.join ref.name)).creates (manifestOf workDir ref) =
      false := mkdir_creates_join (show "Pulumi.yaml" ∈ renderedFiles by decide) _
  have hprogram : (Operation.mkdir (workDir.join ref.name)).creates (programOf workDir ref) =
      false := mkdir_creates_join (show "__main__.py" ∈ renderedFiles by decide) _
  obtain ⟨host₁, hexists, hfailed⟩ := failed_scaffold hop h
  obtain ⟨hstate, habsent⟩ := state_of_pathExists hexists
  refine ⟨habsent.symm, ?_⟩
  rcases hfailed with hmkdir | ⟨host₂, hmkdir, hfirst | ⟨host₃, hfirst, hsecond⟩⟩
  · obtain ⟨hfailed, hleft⟩ := state_of_run_crashAt_error hmkdir
    cases RunnerError.failed.inj hfailed
    simp [hleft, hstate, ← habsent]
  · obtain ⟨hfailed, hleft⟩ := state_of_run_crashAt_error hfirst
    cases RunnerError.failed.inj hfailed
    simp [hleft, state_of_run_crashAt hmkdir, hstate, ← habsent, hmanifest, hprogram,
      manifestOf_ne_programOf]
  · obtain ⟨hfailed, hleft⟩ := state_of_run_crashAt_error hsecond
    cases RunnerError.failed.inj hfailed
    have hown : (Operation.writeText (manifestOf workDir ref)).creates (manifestOf workDir ref) =
        true := decide_eq_true rfl
    have hother : (Operation.writeText (manifestOf workDir ref)).creates (programOf workDir ref) =
        false := decide_eq_false manifestOf_ne_programOf.symm
    simp [hleft, state_of_run_crashAt hfirst, state_of_run_crashAt hmkdir, hstate, hown, hother,
      hprogram]

end Scaffold

/-! ## Deploying again -/

/-- What `deploy_project` does with a spell before it previews or ups it. -/
def prepareSpell (fate : ℕ → Fate (PosixPath → Bool)) (stackName : String) (workDir : PosixPath)
    (ref : SpellRef) : Runner Unit := do
  let spellDir ← ensureSpellDir fate ref workDir
  (Operation.getStack stackName spellDir).run fate

/-- A directory is safe where a run finds it: whatever run of `deploy_project` comes next, in which
nothing fails, wherever it comes to the spell, it does not take the directory for scaffolded while a
rendered file is missing, and it comes to preview or up the spell only with all of them there. -/
structure CrashSafe (project : ProjectConfig) (workDir : PosixPath) (ref : SpellRef) (host : Host) :
    Prop where
  treated : ∀ (stackName : String) (preview : Bool) (pre post : List SpellRef) (found : Host),
    project.spells = pre ++ ref :: post →
    (each (deploySpell calm stackName workDir preview) pre).run host = (.ok ⟨⟩, found) →
    Present (manifestOf workDir ref) found → Complete workDir ref found
  reached : ∀ (stackName : String) (preview : Bool) (pre post : List SpellRef)
    (found prepared : Host), project.spells = pre ++ ref :: post →
    (each (deploySpell calm stackName workDir preview) pre).run host = (.ok ⟨⟩, found) →
    (prepareSpell calm stackName workDir ref).run found = (.ok ⟨⟩, prepared) →
    Complete workDir ref prepared

/-- A failure that the next run makes good: it came before the `__main__.py` and left no
`Pulumi.yaml`, or there was a `__main__.py` before or is one after. -/
def Recoverable (workDir : PosixPath) (ref : SpellRef) (op : Operation)
    (left found : PosixPath → Bool) : Prop :=
  op ≠ .writeText (programOf workDir ref) ∧ left (manifestOf workDir ref) = false ∨
    found (programOf workDir ref) = true ∨ left (programOf workDir ref) = true

section Again

variable {fate : ℕ → Fate (PosixPath → Bool)} {n : ℕ} {left : PosixPath → Bool} {op : Operation}
  {project : ProjectConfig} {workDir : PosixPath} {ref : SpellRef} {refs : List SpellRef}
  {stackName : String} {preview : Bool} {host host' : Host}

theorem deploySpell_eq : deploySpell fate stackName workDir preview ref =
    (prepareSpell fate stackName workDir ref >>= fun _ =>
      if preview then (Operation.preview ref).run fate else (Operation.up ref).run fate) :=
  (bind_assoc _ _ _).symm

theorem preserves_complete {α : Type} {m : Runner α} (h : ∀ path, Preserves (Present path) m) :
    Preserves (Complete workDir ref) m :=
  fun host hhost fname hfname => h _ host (hhost fname hfname)

/-- A spell that was prepared is registered. -/
theorem registered_of_ensureSpellDir {dir : PosixPath}
    (h : (ensureSpellDir fate ref workDir).run host = (.ok dir, host')) :
    (SPELL_REGISTRY.lookup ref.spell).isNone = false := by
  unfold ensureSpellDir at h
  split at h
  · cases (Prod.mk.inj h).1
  · exact Bool.eq_false_of_not_eq_true ‹_›

/-- **A directory is complete once it is ensured**, unless it was half made before. -/
theorem complete_of_ensureSpellDir {dir : PosixPath}
    (hmade : Present (manifestOf workDir ref) host → Complete workDir ref host)
    (h : (ensureSpellDir calm ref workDir).run host = (.ok dir, host')) :
    Complete workDir ref host' := by
  unfold ensureSpellDir at h
  split at h
  · cases (Prod.mk.inj h).1
  · obtain ⟨found, host₁, hexists, h⟩ := run_bind_eq_ok.mp h
    change (pathExists calm (manifestOf workDir ref)).run host = _ at hexists
    have hkeep : Preserves (Complete workDir ref) (pathExists calm (manifestOf workDir ref)) :=
      preserves_complete fun _ => preserves_pathExists _
    obtain ⟨_, host₂, hop, hget⟩ := run_bind_eq_ok.mp hexists
    obtain ⟨host₃, hcalm, hstate⟩ := run_calm (.pathExists (manifestOf workDir ref)) host
    obtain ⟨-, rfl⟩ := Prod.mk.inj (hcalm.symm.trans hop)
    obtain ⟨hfound, rfl⟩ := Prod.mk.inj hget
    cases found with
    | true =>
      obtain ⟨-, rfl⟩ := Prod.mk.inj h
      have hpresent : host₃.state (manifestOf workDir ref) = true := Except.ok.inj hfound
      rw [hstate, show (Operation.pathExists (manifestOf workDir ref)).creates
        (manifestOf workDir ref) = false from rfl, Bool.or_false] at hpresent
      have hafter := hkeep host (hmade hpresent)
      rwa [after, hexists] at hafter
    | false =>
      obtain ⟨_, host₄, -, h⟩ := run_bind_eq_ok.mp h
      obtain ⟨_, host₅, hwrites, h⟩ := run_bind_eq_ok.mp h
      obtain ⟨-, rfl⟩ := Prod.mk.inj h
      intro fname hfname
      exact of_run_each hfname (fun _ _ => present_of_writeText) (fun _ _ => preserves_run _)
        hwrites

/-- Nothing more is missing when the spell is previewed or upped. -/
theorem complete_of_prepareSpell
    (hmade : Present (manifestOf workDir ref) host → Complete workDir ref host)
    (h : (prepareSpell calm stackName workDir ref).run host = (.ok ⟨⟩, host')) :
    Complete workDir ref host' := by
  obtain ⟨dir, host₁, hensure, hstack⟩ := run_bind_eq_ok.mp h
  have hkeep : Preserves (Complete workDir ref) ((Operation.getStack stackName dir).run calm) :=
    preserves_complete fun _ => preserves_run _
  have hafter := hkeep host₁ (complete_of_ensureSpellDir hmade hensure)
  rwa [after, hstack] at hafter

theorem complete_of_deploySpell
    (hmade : Present (manifestOf workDir ref) host → Complete workDir ref host)
    (h : (deploySpell calm stackName workDir preview ref).run host = (.ok ⟨⟩, host')) :
    Complete workDir ref host' := by
  rw [deploySpell_eq] at h
  obtain ⟨_, host₁, hprepare, hrest⟩ := run_bind_eq_ok.mp h
  have hkeep : Preserves (Complete workDir ref) (if preview then
      (Operation.preview ref).run calm else (Operation.up ref).run calm) :=
    preserves_complete fun _ => preserves_ite (fun _ => preserves_run _) fun _ => preserves_run _
  have hafter := hkeep host₁ (complete_of_prepareSpell hmade hprepare)
  rwa [after, hrest] at hafter

/-- An operation that creates nothing changes nothing. -/
theorem run_calm_of_creates (op : Operation) (hop : ∀ path, op.creates path = false) (host : Host) :
    ∃ host', (op.run calm).run host = (.ok ⟨⟩, host') ∧ host'.state = host.state := by
  obtain ⟨host', hrun, hstate⟩ := run_calm op host
  refine ⟨host', hrun, funext fun path => ?_⟩
  rw [hstate, hop, Bool.or_false]

/-- **A scaffolded spell is deployed as it is**, where nothing fails. -/
theorem run_deploySpell_of_present (stackName : String) (preview : Bool)
    (hknown : (SPELL_REGISTRY.lookup ref.spell).isNone = false)
    (hpresent : Present (manifestOf workDir ref) host) :
    ∃ host', (deploySpell calm stackName workDir preview ref).run host = (.ok ⟨⟩, host') ∧
      host'.state = host.state := by
  obtain ⟨host₁, hexists, hstate₁⟩ :=
    run_calm_of_creates (.pathExists (manifestOf workDir ref)) (fun _ => rfl) host
  obtain ⟨host₂, hstack, hstate₂⟩ := run_calm_of_creates
    (.getStack stackName (workDir.join ref.name)) (fun _ => rfl) host₁
  obtain ⟨host₃, hlast, hstate₃⟩ := run_calm_of_creates
    (if preview then .preview ref else .up ref) (fun _ => by split <;> rfl) host₂
  refine ⟨host₃, ?_, hstate₃.trans (hstate₂.trans hstate₁)⟩
  have hfound : (pathExists calm (manifestOf workDir ref)).run host = (.ok true, host₁) := by
    rw [pathExists, run_bind_ok hexists, run_get_bind]
    exact congrArg (fun found => (Except.ok found, host₁)) ((congrFun hstate₁ _).trans hpresent)
  have hensure : (ensureSpellDir calm ref workDir).run host =
      (.ok (workDir.join ref.name), host₁) := by
    rw [ensureSpellDir, if_neg (by simp [hknown])]
    exact run_bind_ok hfound
  rw [deploySpell, run_bind_ok hensure, run_bind_ok hstack]
  cases preview with
  | true => exact hlast
  | false => exact hlast

/-- **So are spells one after another.** -/
theorem run_each_of_present (stackName : String) (preview : Bool)
    (hknown : ∀ ref ∈ refs, (SPELL_REGISTRY.lookup ref.spell).isNone = false)
    (hpresent : ∀ ref ∈ refs, Present (manifestOf workDir ref) host) :
    ∃ host', (each (deploySpell calm stackName workDir preview) refs).run host =
      (.ok ⟨⟩, host') ∧ host'.state = host.state := by
  induction refs generalizing host with
  | nil => exact ⟨host, rfl, rfl⟩
  | cons ref refs ih =>
    obtain ⟨host₁, hone, hstate₁⟩ := run_deploySpell_of_present stackName preview
      (hknown ref (by simp)) (hpresent ref (by simp))
    obtain ⟨host₂, hrest, hstate₂⟩ := ih (fun ref' h => hknown ref' (List.mem_cons_of_mem _ h))
      fun ref' h => by
        rw [Present, hstate₁]
        exact hpresent ref' (List.mem_cons_of_mem _ h)
    exact ⟨host₂, run_bind_eq_ok.mpr ⟨_, host₁, hone, hrest⟩, hstate₂.trans hstate₁⟩

/-- The spells a run has deployed are registered. -/
theorem registered_of_each
    (h : (each (deploySpell fate stackName workDir preview) refs).run host = (.ok ⟨⟩, host')) :
    ∀ ref ∈ refs, (SPELL_REGISTRY.lookup ref.spell).isNone = false := by
  intro ref href
  obtain ⟨pre, post, rfl⟩ := List.append_of_mem href
  obtain ⟨host₁, -, hrest⟩ := run_each_append.mp h
  obtain ⟨_, host₂, hone, -⟩ := run_bind_eq_ok.mp hrest
  obtain ⟨dir, host₃, hensure, -⟩ := run_bind_eq_ok.mp hone
  exact registered_of_ensureSpellDir hensure

end Again

section Crash

/-- An item that is not in a list is first met after it, or again after that. -/
theorem eq_or_extends {α : Type} {a : α} {pre post pre' post' : List α} (ha : a ∉ pre)
    (h : pre ++ a :: post = pre' ++ a :: post') : pre' = pre ∨ ∃ mid, pre' = pre ++ a :: mid := by
  rcases List.append_eq_append_iff.mp h with ⟨mid, rfl, hmid⟩ | ⟨mid, rfl, hmid⟩
  · cases mid with
    | nil => exact .inl (List.append_nil pre)
    | cons b mid =>
      obtain ⟨rfl, -⟩ := List.cons.inj hmid
      exact .inr ⟨mid, rfl⟩
  · cases mid with
    | nil => exact .inl (List.append_nil pre').symm
    | cons b mid =>
      obtain ⟨rfl, -⟩ := List.cons.inj hmid
      exact absurd (by simp) ha

variable {n : ℕ} {left : PosixPath → Bool} {op : Operation} {project : ProjectConfig}
  {workDir : PosixPath} {ref : SpellRef} {pre post : List SpellRef} {stackName : String}
  {preview : Bool} {host found host' : Host}

/-- **A failed scaffold is made good exactly where it is recoverable.**  The next run comes to the
spell with what the failed one left: the spells before it are scaffolded, and are not again. -/
theorem crashSafe_iff (hspells : project.spells = pre ++ ref :: post) (hop : op.scaffolds = true)
    (hpre : (each (deploySpell (crashAt n left) stackName workDir preview) pre).run host =
      (.ok ⟨⟩, found))
    (h : (ensureSpellDir (crashAt n left) ref workDir).run found = (.error (.failed op), host')) :
    CrashSafe project workDir ref host' ↔ Recoverable workDir ref op left found.state := by
  obtain ⟨habsent, hmanifest, hprogram⟩ := state_of_failed_scaffold hop h
  have hpresent : ∀ ref' ∈ pre, Present (manifestOf workDir ref') host' := by
    intro ref' href'
    have hkeep : Preserves (Present (manifestOf workDir ref'))
      (ensureSpellDir (crashAt n left) ref workDir) := preserves_ensureSpellDir
    have hafter := hkeep found (present_of_each hpre ref' href')
    rwa [after, h] at hafter
  have hnew : ref ∉ pre := fun href => by
    have hthere : found.state (manifestOf workDir ref) = true := present_of_each hpre ref href
    rw [habsent] at hthere
    cases hthere
  constructor
  · intro hsafe
    obtain ⟨again, hrun, hstate⟩ := run_each_of_present stackName preview
      (registered_of_each hpre) hpresent
    by_contra hunsafe
    obtain ⟨hlate, hfile⟩ := not_or.mp hunsafe
    obtain ⟨hfound, hleft⟩ := not_or.mp hfile
    have hmade : Present (manifestOf workDir ref) again := by
      rw [Present, hstate, hmanifest, Bool.or_eq_true, decide_eq_true_eq]
      by_contra hnot
      obtain ⟨hne, hnone⟩ := not_or.mp hnot
      exact hlate ⟨hne, Bool.eq_false_of_not_eq_true hnone⟩
    have hcomplete := (complete_iff.mp
      (hsafe.treated stackName preview pre post again hspells hrun hmade)).2
    rw [Present, hstate, hprogram, Bool.or_eq_true] at hcomplete
    exact hcomplete.elim hfound hleft
  · intro hrecoverable
    -- The directory is not half made when a run first comes to it…
    have hwhole : ∀ again : Host, again.state = host'.state →
        Present (manifestOf workDir ref) again → Complete workDir ref again := by
      intro again hstate hmade
      refine complete_iff.mpr ⟨hmade, ?_⟩
      rw [Present, hstate, hmanifest] at hmade
      rw [Present, hstate, hprogram]
      rcases hrecoverable with ⟨hne, hnone⟩ | hfile
      · rw [hnone, decide_eq_false hne] at hmade
        cases hmade
      · rwa [Bool.or_eq_true]
    -- …and is complete whenever it comes to it again.
    have hmade : ∀ (stack : String) (preview' : Bool) (pre' post' : List SpellRef) (again : Host),
        project.spells = pre' ++ ref :: post' →
        (each (deploySpell calm stack workDir preview') pre').run host' = (.ok ⟨⟩, again) →
        Present (manifestOf workDir ref) again → Complete workDir ref again := by
      intro stack preview' pre' post' again hspells' hrun hmanifest'
      obtain ⟨host₁, hfirst, hstate⟩ := run_each_of_present stack preview'
        (registered_of_each hpre) hpresent
      rcases eq_or_extends hnew (hspells.symm.trans hspells') with rfl | ⟨mid, rfl⟩
      · obtain ⟨-, rfl⟩ := Prod.mk.inj (hfirst.symm.trans hrun)
        exact hwhole host₁ hstate hmanifest'
      · obtain ⟨host₂, hpre', hrest⟩ := run_each_append.mp hrun
        obtain ⟨-, rfl⟩ := Prod.mk.inj (hfirst.symm.trans hpre')
        obtain ⟨_, host₃, hdeploy, hmid⟩ := run_bind_eq_ok.mp hrest
        have hkeep : Preserves (Complete workDir ref)
            (each (deploySpell calm stack workDir preview') mid) :=
          preserves_complete fun _ => preserves_each fun _ _ => preserves_deploySpell
        have hafter := hkeep host₃ (complete_of_deploySpell (hwhole host₁ hstate) hdeploy)
        rwa [after, hmid] at hafter
    exact ⟨hmade, fun stack preview' pre' post' again prepared hspells' hrun hprepare =>
      complete_of_prepareSpell (hmade stack preview' pre' post' again hspells' hrun) hprepare⟩

/-- **Where a failed run leaves a spell that the next run deploys as it should.**  A run that fails
at a directory or a file fails at the scaffold of one spell, after the earlier ones were deployed;
and the next run comes to preview or up that spell with all its files, and never takes its directory
for scaffolded without them, exactly where the failure is recoverable. -/
theorem crashSafe_of_run (hop : op.scaffolds = true)
    (h : (deployProject (crashAt n left) project stackName workDir preview).run host =
      (.error (.failed op), host')) :
    ∃ pre ref post found, project.spells = pre ++ ref :: post ∧
      (each (deploySpell (crashAt n left) stackName workDir preview) pre).run host =
        (.ok ⟨⟩, found) ∧
      (ensureSpellDir (crashAt n left) ref workDir).run found = (.error (.failed op), host') ∧
      (CrashSafe project workDir ref host' ↔ Recoverable workDir ref op left found.state) := by
  obtain ⟨pre, ref, post, found, hspells, hpre, hdeploy⟩ := run_each_eq_error h
  rcases run_bind_eq_error.mp hdeploy with hensure | ⟨dir, found₁, -, hrest⟩
  · exact ⟨pre, ref, post, found, hspells, hpre, hensure, crashSafe_iff hspells hop hpre hensure⟩
  · -- What comes after the scaffold makes no directory and no file.
    exfalso
    rcases run_bind_eq_error.mp hrest with hstack | ⟨_, found₂, -, hlast⟩
    · cases RunnerError.failed.inj (state_of_run_crashAt_error hstack).1
      cases hop
    · cases preview with
      | true =>
        cases RunnerError.failed.inj (state_of_run_crashAt_error hlast).1
        cases hop
      | false =>
        cases RunnerError.failed.inj (state_of_run_crashAt_error hlast).1
        cases hop

/-- The host a project is first deployed on. -/
def newHost : Host := ⟨fun _ => false, []⟩

/-- The first `Pulumi.yaml` is not written, and nothing of it is left. -/
theorem crashSafe_of_run_office :
    let workDir := PosixPath.parse "/srv/office"
    let fate := crashAt 2 fun _ => false
    let failed := deployProject fate officeProject "dev" workDir false
    let op := Operation.writeText (workDir.join "net/Pulumi.yaml")
    ∃ pre ref post found, officeProject.spells = pre ++ ref :: post ∧
      (each (deploySpell fate "dev" workDir false) pre).run newHost = (.ok ⟨⟩, found) ∧
      (ensureSpellDir fate ref workDir).run found = (.error (.failed op), failed.after newHost) ∧
      (CrashSafe officeProject workDir ref (failed.after newHost) ↔
        Recoverable workDir ref op (fun _ => false) found.state) := by
  intro workDir fate failed op
  have hraises : failed.outcome newHost = .error (.failed op) := by decide
  exact crashSafe_of_run rfl (Prod.ext hraises rfl)

/-- The first `__main__.py` is not written, and nothing of it is left: the next run returns, and has
upped the network without it. -/
theorem not_crashSafe_office :
    let workDir := PosixPath.parse "/srv/office"
    let net : SpellRef := { spell := "vcn", name := "net" }
    let failed := deployProject (crashAt 3 fun _ => false) officeProject "dev" workDir false
    let again := deployProject calm officeProject "dev" workDir false
    let left := failed.after newHost
    failed.outcome newHost = .error (.failed (.writeText (programOf workDir net))) ∧
      again.outcome left = .ok ⟨⟩ ∧ upsOf again left = succeeded officeProject.spells ∧
      (again.after left).state (programOf workDir net) = false ∧
      ¬ CrashSafe officeProject workDir net left := by
  intro workDir net failed again left
  refine ⟨by decide, by decide, by decide, by decide,
    fun hsafe => ?_⟩
  have hmade : Present (manifestOf workDir net) left := by
    change left.state (manifestOf workDir net) = true
    decide
  have hcomplete := hsafe.treated "dev" false [] _ left rfl rfl hmade
  have hprogram : left.state (programOf workDir net) = true := (complete_iff.mp hcomplete).2
  have hmissing : left.state (programOf workDir net) = false := by decide
  rw [hmissing] at hprogram
  cases hprogram

end Crash

end CloudSpells
