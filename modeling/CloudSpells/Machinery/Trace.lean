import CloudSpells.Machinery.Exec

/-!
# Machinery/Trace — programs that keep a trace

A program whose state has a list of the events so far only adds to the list.  A *contract* says of a
run from where to where it goes and what it adds meanwhile; one that holds of doing nothing and of
one run after another (`Composes`) holds of a program where it holds of its parts (`Meets`).

* `composes_all` — all the events added are of one sort.
* `composes_guarded` — every event that needs a grant comes after one that grants it.
* `composes_unless` — what is seen of the state, being of a sort, changes only where an event of a
  sort is added.

A program that obtains a grant, and goes on only where it has, is guarded as a whole
(`meets_guarded_bind`).
-/

namespace Machinery.Exec

variable {ε σ α β ι ω γ : Type}

/-! ## Contracts -/

/-- A contract that holds of doing nothing, and of one run after another. -/
structure Composes (Q : σ → List ω → σ → Prop) : Prop where
  refl : ∀ s, Q s [] s
  trans : ∀ {s s' s'' l l'}, Q s l s' → Q s' l' s'' → Q s (l ++ l') s''

/-- From `s`, a program adds to the trace, and meets the contract. -/
def MeetsFrom (trace : σ → List ω) (Q : σ → List ω → σ → Prop) (m : Exec ε σ α) (s : σ) : Prop :=
  ∃ l, trace (m.after s) = trace s ++ l ∧ Q s l (m.after s)

/-- …from wherever it starts. -/
def Meets (trace : σ → List ω) (Q : σ → List ω → σ → Prop) (m : Exec ε σ α) : Prop :=
  ∀ s, MeetsFrom trace Q m s

/-- What a run adds to the trace. -/
def added (trace : σ → List ω) (m : Exec ε σ α) (s : σ) : List ω :=
  (trace (m.after s)).drop (trace s).length

section Meets

variable {trace : σ → List ω} {Q Q' : σ → List ω → σ → Prop}

theorem MeetsFrom.added {m : Exec ε σ α} {s : σ} (h : MeetsFrom trace Q m s) :
    Q s (added trace m s) (m.after s) := by
  obtain ⟨l, htrace, hQ⟩ := h
  rwa [Exec.added, htrace, List.drop_left]

theorem Meets.weaken {m : Exec ε σ α} (h : Meets trace Q m)
    (hQ : ∀ s l s', Q s l s' → Q' s l s') : Meets trace Q' m := fun s =>
  let ⟨l, htrace, hl⟩ := h s
  ⟨l, htrace, hQ _ _ _ hl⟩

/-- A program that leaves the state meets what doing nothing meets. -/
theorem meets_of_after (hQ : Composes Q) {m : Exec ε σ α} (h : ∀ s, m.after s = s) :
    Meets trace Q m := fun s =>
  ⟨[], by rw [h, List.append_nil], by rw [h]; exact hQ.refl s⟩

theorem meets_pure (hQ : Composes Q) (a : α) : Meets trace Q (pure a : Exec ε σ α) :=
  meets_of_after hQ fun _ => rfl

theorem meets_throw (hQ : Composes Q) (e : ε) : Meets trace Q (throw e : Exec ε σ α) :=
  meets_of_after hQ fun _ => rfl

theorem meets_modify {f : σ → σ} {l : List ω} (htrace : ∀ s, trace (f s) = trace s ++ l)
    (hf : ∀ s, Q s l (f s)) : Meets trace Q (modify f : Exec ε σ Unit) :=
  fun s => ⟨l, htrace s, hf s⟩

theorem meetsFrom_ite {c : Prop} [Decidable c] {m m' : Exec ε σ α} {s : σ}
    (hm : c → MeetsFrom trace Q m s) (hm' : ¬ c → MeetsFrom trace Q m' s) :
    MeetsFrom trace Q (if c then m else m') s := by
  split
  · exact hm ‹_›
  · exact hm' ‹_›

theorem meets_ite {c : Prop} [Decidable c] {m m' : Exec ε σ α} (hm : c → Meets trace Q m)
    (hm' : ¬ c → Meets trace Q m') : Meets trace Q (if c then m else m') := fun s =>
  meetsFrom_ite (fun h => hm h s) fun h => hm' h s

/-- A program that reads the state first need meet the contract only from the state it read. -/
theorem meets_get_bind {f : σ → Exec ε σ β} (hf : ∀ s, MeetsFrom trace Q (f s) s) :
    Meets trace Q (get >>= f) := hf

/-- **The rule of sequences.** -/
theorem Meets.bind (hQ : Composes Q) {m : Exec ε σ α} {f : α → Exec ε σ β}
    (hm : Meets trace Q m) (hf : ∀ a, Meets trace Q (f a)) : Meets trace Q (m >>= f) := by
  intro s
  obtain ⟨l, htrace, hl⟩ := hm s
  rcases hrun : m.run s with ⟨e | a, s'⟩
  · refine ⟨l, ?_, ?_⟩
    · rw [after, run_bind_error hrun]
      rwa [after, hrun] at htrace
    · rw [after, run_bind_error hrun]
      rwa [after, hrun] at hl
  · obtain ⟨l', htrace', hl'⟩ := hf a s'
    rw [after, hrun] at htrace hl
    refine ⟨l ++ l', ?_, ?_⟩
    · rw [after, run_bind_ok hrun]
      exact htrace'.trans (by rw [htrace, List.append_assoc])
    · rw [after, run_bind_ok hrun]
      exact hQ.trans hl hl'

/-- **The rule of handlers.** -/
theorem meets_tryCatch (hQ : Composes Q) {m : Exec ε σ α} {handler : ε → Exec ε σ α}
    (hm : Meets trace Q m) (hhandler : ∀ e, Meets trace Q (handler e)) :
    Meets trace Q (tryCatch m handler) := by
  intro s
  obtain ⟨l, htrace, hl⟩ := hm s
  rcases hrun : m.run s with ⟨e | a, s'⟩
  · obtain ⟨l', htrace', hl'⟩ := hhandler e s'
    rw [after, hrun] at htrace hl
    refine ⟨l ++ l', ?_, ?_⟩
    · rw [after, run_tryCatch_error hrun]
      exact htrace'.trans (by rw [htrace, List.append_assoc])
    · rw [after, run_tryCatch_error hrun]
      exact hQ.trans hl hl'
  · rw [after, hrun] at htrace hl
    exact ⟨l, by rw [after, run_tryCatch_ok hrun, htrace], by rwa [after, run_tryCatch_ok hrun]⟩

theorem meets_each (hQ : Composes Q) {exec : ι → Exec ε σ Unit} :
    ∀ {is : List ι}, (∀ i ∈ is, Meets trace Q (exec i)) → Meets trace Q (each exec is)
  | [], _ => meets_pure hQ _
  | _ :: _, h => Meets.bind hQ (h _ List.mem_cons_self)
      fun _ => meets_each hQ fun j hj => h j (List.mem_cons_of_mem _ hj)

end Meets

/-! ## The events that are added -/

section Contracts

variable {trace : σ → List ω} {A B : ω → Prop}

/-- All the events added are of one sort. -/
theorem composes_all (A : ω → Prop) : Composes fun (_ : σ) l (_ : σ) => ∀ e ∈ l, A e where
  refl _ _ he := by cases he
  trans h h' _ he := (List.mem_append.mp he).elim (h _) (h' _)

/-- What is seen of the state, being of a sort, changes only where an event of a sort is added. -/
theorem composes_unless (view : σ → γ) (P : γ → Prop) (A : ω → Prop) :
    Composes fun s l s' => P (view s) → view s' ≠ view s → ∃ e ∈ l, A e where
  refl _ _ h := absurd rfl h
  trans {s s' _ _ _} h h' hP hne := by
    by_cases hfirst : view s' = view s
    · obtain ⟨e, he, hA⟩ := h' (hfirst ▸ hP) fun hsame => hne (hsame.trans hfirst)
      exact ⟨e, List.mem_append_right _ he, hA⟩
    · obtain ⟨e, he, hA⟩ := h hP hfirst
      exact ⟨e, List.mem_append_left _ he, hA⟩

variable (needs : ω → Prop) (grants : ω → ω → Prop)

/-- Every event that needs a grant comes after one that grants it. -/
def Guarded (l : List ω) : Prop :=
  ∀ before e later, l = before ++ e :: later → needs e → ∃ g ∈ before, grants g e

variable {needs grants}

theorem Guarded.append {l l' : List ω} (h : Guarded needs grants l)
    (h' : ∀ before e later, l' = before ++ e :: later → needs e →
      ∃ g ∈ l ++ before, grants g e) : Guarded needs grants (l ++ l') := by
  intro before e later heq hneeds
  rcases List.append_eq_append_iff.mp heq with ⟨rest, rfl, hl'⟩ | ⟨rest, hl, hrest⟩
  · exact h' _ e later hl' hneeds
  · cases rest with
    | nil =>
      rw [List.append_nil] at hl
      subst hl
      simpa using h' [] e later hrest.symm hneeds
    | cons e' rest =>
      obtain ⟨rfl, rfl⟩ := List.cons.inj hrest
      exact h before e rest hl hneeds

theorem composes_guarded : Composes fun (_ : σ) l (_ : σ) => Guarded needs grants l where
  refl _ before _ _ heq _ := by simp at heq
  trans h h' := h.append fun before e later heq hneeds =>
    let ⟨g, hg, hgrants⟩ := h' before e later heq hneeds
    ⟨g, List.mem_append_right _ hg, hgrants⟩

/-- Where nothing needs a grant, everything is guarded. -/
theorem guarded_of_all {l : List ω} (h : ∀ e ∈ l, ¬ needs e) : Guarded needs grants l := by
  rintro before e later rfl hneeds
  exact absurd hneeds (h e (by simp))

theorem Meets.guarded {m : Exec ε σ α} (h : Meets trace (fun _ l _ => ∀ e ∈ l, ¬ needs e) m) :
    Meets trace (fun _ l _ => Guarded needs grants l) m :=
  h.weaken fun _ _ _ => guarded_of_all

/-- **What is done after a grant is guarded**: `m` needs none, and where it returns, something it
added grants all that the rest needs. -/
theorem meets_guarded_bind {m : Exec ε σ α} {f : α → Exec ε σ β}
    (hm : ∀ s, ∃ l, trace (m.after s) = trace s ++ l ∧ (∀ e ∈ l, ¬ needs e) ∧
      ∀ a s', m.run s = (.ok a, s') →
        Meets trace (fun _ l' _ => ∀ e ∈ l', needs e → ∃ g ∈ l, grants g e) (f a)) :
    Meets trace (fun _ l _ => Guarded needs grants l) (m >>= f) := by
  intro s
  obtain ⟨l, htrace, hfree, hgrant⟩ := hm s
  rcases hrun : m.run s with ⟨e | a, s'⟩
  · refine ⟨l, ?_, guarded_of_all hfree⟩
    rw [after, run_bind_error hrun]
    rwa [after, hrun] at htrace
  · obtain ⟨l', htrace', hl'⟩ := hgrant a s' hrun s'
    rw [after, hrun] at htrace
    refine ⟨l ++ l', ?_, (guarded_of_all hfree).append ?_⟩
    · rw [after, run_bind_ok hrun]
      exact htrace'.trans (by rw [htrace, List.append_assoc])
    · rintro before e later rfl hneeds
      obtain ⟨g, hg, hgrants⟩ := hl' e (by simp) hneeds
      exact ⟨g, List.mem_append_left _ hg, hgrants⟩

/-! ## Runs -/

/-- **What changed in a run, one of its calls changed first.** -/
theorem exists_call_of_replay_ne {exec : ι → Exec ε σ Unit} (view : σ → γ) {is : List ι} {s : σ}
    (h : view (replay exec is s) ≠ view s) :
    ∃ pre i post, is = pre ++ i :: post ∧ view (replay exec pre s) = view s ∧
      view ((exec i).after (replay exec pre s)) ≠ view (replay exec pre s) := by
  induction is generalizing s with
  | nil => exact absurd rfl h
  | cons i is ih =>
    by_cases hfirst : view ((exec i).after s) = view s
    · rw [replay_cons, ← hfirst] at h
      obtain ⟨pre, j, post, rfl, hsame, hj⟩ := ih h
      exact ⟨i :: pre, j, post, rfl, hsame.trans hfirst, hj⟩
    · exact ⟨[], i, is, rfl, rfl, hfirst⟩

end Contracts

end Machinery.Exec
