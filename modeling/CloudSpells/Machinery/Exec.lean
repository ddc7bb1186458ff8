import Mathlib.Data.List.Basic
import Mathlib.Tactic.Common

/-!
# Machinery/Exec — methods over a mutable object that may raise

A method of a mutable object is a function of the object's state that returns or raises, and a
raise *keeps the writes made before it*: the caller that catches the exception sees the state the
raise left behind.  `Exec ε σ` is the monad of such methods.

* `Preserves` — an invariant of the state that a method keeps whether it returns or raises.
* `PreservesUnless` — one that it keeps unless it raises certain exceptions.
* `Returns` — what holds where a method returned, by its last part.
* `Safe` — what it does not raise from a state, and what holds where it returns.
* `each` — one call after another, stopping at the first raise.
* `replay` — one call after another, every raise caught.
-/

namespace Machinery

/-- A computation over a state `σ` that returns an `α` or raises an `ε`.  The state after a raise
is the one the raise left behind. -/
def Exec (ε σ α : Type) : Type := σ → Except ε α × σ

namespace Exec

variable {ε σ τ α β ι : Type}

/-- Run a computation: what it returns or raises, and the state it leaves. -/
def run (m : Exec ε σ α) (s : σ) : Except ε α × σ := m s

/-- The state a computation leaves, however it ended. -/
def after (m : Exec ε σ α) (s : σ) : σ := (m.run s).2

/-- What a computation returns or raises. -/
def outcome (m : Exec ε σ α) (s : σ) : Except ε α := (m.run s).1

theorem run_of_outcome {m : Exec ε σ α} {s : σ} {r : Except ε α} (h : m.outcome s = r) :
    m.run s = (r, m.after s) := Prod.ext h rfl

instance : Monad (Exec ε σ) where
  pure a := fun s => (.ok a, s)
  bind m f := fun s => match m s with
    | (.ok a, s') => f a s'
    | (.error e, s') => (.error e, s')

private theorem id_map_eq (m : Exec ε σ α) : id <$> m = m := by
  funext s
  change (match m s with
    | (.ok a, s') => (.ok a, s')
    | (.error e, s') => (.error e, s')) = m s
  match m s with
  | (.ok _, _) => rfl
  | (.error _, _) => rfl

private theorem bind_bind {γ : Type} (m : Exec ε σ α) (f : α → Exec ε σ β) (g : β → Exec ε σ γ) :
    m >>= f >>= g = m >>= fun a => f a >>= g := by
  funext s
  change (match (match m s with
      | (.ok a, s') => f a s'
      | (.error e, s') => (.error e, s')) with
    | (.ok b, s') => g b s'
    | (.error e, s') => (.error e, s')) = match m s with
    | (.ok a, s') => (f a >>= g) s'
    | (.error e, s') => (.error e, s')
  match m s with
  | (.ok _, _) => rfl
  | (.error _, _) => rfl

instance : LawfulMonad (Exec ε σ) :=
  LawfulMonad.mk' (Exec ε σ) id_map_eq (fun _ _ => rfl) bind_bind

instance : MonadStateOf σ (Exec ε σ) where
  get := fun s => (.ok s, s)
  set s' := fun _ => (.ok ⟨⟩, s')
  modifyGet f := fun s => (.ok (f s).1, (f s).2)

instance : MonadExceptOf ε (Exec ε σ) where
  throw e := fun s => (.error e, s)
  tryCatch m h := fun s => match m s with
    | (.ok a, s') => (.ok a, s')
    | (.error e, s') => h e s'

/-! ## Running the primitives -/

@[simp] theorem run_pure (a : α) (s : σ) : (pure a : Exec ε σ α).run s = (.ok a, s) := rfl

@[simp] theorem run_get (s : σ) : (get : Exec ε σ σ).run s = (.ok s, s) := rfl

@[simp] theorem run_modify (f : σ → σ) (s : σ) :
    (modify f : Exec ε σ Unit).run s = (.ok ⟨⟩, f s) := rfl

@[simp] theorem run_throw (e : ε) (s : σ) : (throw e : Exec ε σ α).run s = (.error e, s) := rfl

theorem run_bind (m : Exec ε σ α) (f : α → Exec ε σ β) (s : σ) :
    (m >>= f).run s = match m.run s with
      | (.ok a, s') => (f a).run s'
      | (.error e, s') => (.error e, s') := rfl

/-- The continuation runs where a computation returned. -/
theorem run_bind_ok {m : Exec ε σ α} {f : α → Exec ε σ β} {s s' : σ} {a : α}
    (h : m.run s = (.ok a, s')) : (m >>= f).run s = (f a).run s' := by rw [run_bind, h]

/-- …and is skipped where it raised. -/
theorem run_bind_error {m : Exec ε σ α} {f : α → Exec ε σ β} {s s' : σ} {e : ε}
    (h : m.run s = (.error e, s')) : (m >>= f).run s = (.error e, s') := by rw [run_bind, h]

theorem run_tryCatch (m : Exec ε σ α) (handler : ε → Exec ε σ α) (s : σ) :
    (tryCatch m handler).run s = match m.run s with
      | (.ok a, s') => (.ok a, s')
      | (.error e, s') => (handler e).run s' := rfl

/-- A handler is skipped where the computation returned. -/
theorem run_tryCatch_ok {m : Exec ε σ α} {handler : ε → Exec ε σ α} {s s' : σ} {a : α}
    (h : m.run s = (.ok a, s')) : (tryCatch m handler).run s = (.ok a, s') := by
  rw [run_tryCatch, h]

/-- …and runs where it raised. -/
theorem run_tryCatch_error {m : Exec ε σ α} {handler : ε → Exec ε σ α} {s s' : σ} {e : ε}
    (h : m.run s = (.error e, s')) : (tryCatch m handler).run s = (handler e).run s' := by
  rw [run_tryCatch, h]

@[simp] theorem run_get_bind (f : σ → Exec ε σ β) (s : σ) :
    ((get : Exec ε σ σ) >>= f).run s = (f s).run s := rfl

@[simp] theorem run_modify_bind (g : σ → σ) (f : Unit → Exec ε σ β) (s : σ) :
    ((modify g : Exec ε σ Unit) >>= f).run s = (f ⟨⟩).run (g s) := rfl

@[simp] theorem run_ite (c : Prop) [Decidable c] (m m' : Exec ε σ α) (s : σ) :
    (if c then m else m').run s = if c then m.run s else m'.run s := by split <;> rfl

/-- **What a sequence returned, its first part returned.**  The rule by which a method that ended
normally is taken apart, call by call. -/
theorem run_bind_eq_ok {m : Exec ε σ α} {f : α → Exec ε σ β} {s s' : σ} {b : β} :
    (m >>= f).run s = (.ok b, s') ↔
      ∃ a s₁, m.run s = (.ok a, s₁) ∧ (f a).run s₁ = (.ok b, s') := by
  constructor
  · intro h
    rw [run_bind] at h
    match hm : m.run s with
    | (.ok a, s₁) => exact ⟨a, s₁, rfl, by rwa [hm] at h⟩
    | (.error e, s₁) => rw [hm] at h; simp at h
  · rintro ⟨a, s₁, hm, hf⟩
    rw [run_bind_ok hm, hf]

/-- What a sequence raised, its first part raised, or the rest from where that left off. -/
theorem run_bind_eq_error {m : Exec ε σ α} {f : α → Exec ε σ β} {s s' : σ} {e : ε} :
    (m >>= f).run s = (.error e, s') ↔ m.run s = (.error e, s') ∨
      ∃ a s₁, m.run s = (.ok a, s₁) ∧ (f a).run s₁ = (.error e, s') := by
  constructor
  · intro h
    rw [run_bind] at h
    match hm : m.run s with
    | (.ok a, s₁) => exact .inr ⟨a, s₁, rfl, by rwa [hm] at h⟩
    | (.error e', s₁) =>
      rw [hm] at h
      obtain ⟨he, rfl⟩ := Prod.mk.inj h
      exact .inl (by rw [Except.error.inj he])
  · rintro (hm | ⟨a, s₁, hm, hf⟩)
    · exact run_bind_error hm
    · rw [run_bind_ok hm, hf]

/-- A pure computation that may raise, inside a method. -/
def attempt (x : Except ε α) : Exec ε σ α := fun s => (x, s)

@[simp] theorem run_attempt (x : Except ε α) (s : σ) :
    (attempt x : Exec ε σ α).run s = (x, s) := rfl

/-! ## Invariants of the state -/

/-- `m` keeps `P`, whether it returns or raises. -/
def Preserves (P : σ → Prop) (m : Exec ε σ α) : Prop := ∀ s, P s → P (m.after s)

variable {P : σ → Prop}

theorem preserves_pure (a : α) : Preserves P (pure a : Exec ε σ α) := fun _ h => h

theorem preserves_get : Preserves P (get : Exec ε σ σ) := fun _ h => h

theorem preserves_throw (e : ε) : Preserves P (throw e : Exec ε σ α) := fun _ h => h

theorem preserves_attempt (x : Except ε α) : Preserves P (attempt x : Exec ε σ α) :=
  fun _ h => h

theorem preserves_modify {f : σ → σ} (hf : ∀ s, P s → P (f s)) :
    Preserves P (modify f : Exec ε σ Unit) := hf

/-- What a first part establishes and the rest keeps, holds after the sequence — also when the first
part raises. -/
theorem after_bind {m : Exec ε σ α} {f : α → Exec ε σ β} {s : σ} (hm : P (m.after s))
    (hf : ∀ a, Preserves P (f a)) : P ((m >>= f).after s) := by
  unfold after at hm ⊢
  rw [run_bind]
  match hr : m.run s with
  | (.ok a, s') => rw [hr] at hm; exact hf a s' hm
  | (.error e, s') => rw [hr] at hm; exact hm

/-- **A sequence keeps what its parts keep.** -/
theorem Preserves.bind {m : Exec ε σ α} {f : α → Exec ε σ β} (hm : Preserves P m)
    (hf : ∀ a, Preserves P (f a)) : Preserves P (m >>= f) := fun s hs => after_bind (hm s hs) hf

/-- What a sequence raised, one of its parts raised. -/
theorem outcome_bind_eq_error {m : Exec ε σ α} {f : α → Exec ε σ β} {s : σ} {e : ε}
    (h : (m >>= f).outcome s = .error e) :
    m.outcome s = .error e ∨ ∃ a s', m.run s = (.ok a, s') ∧ (f a).outcome s' = .error e := by
  unfold outcome at h ⊢
  rw [run_bind] at h
  match hr : m.run s with
  | (.ok a, s') => rw [hr] at h; exact Or.inr ⟨a, s', rfl, h⟩
  | (.error e', s') => rw [hr] at h; exact Or.inl (congrArg Except.error (Except.error.inj h))

theorem preserves_ite {c : Prop} [Decidable c] {m m' : Exec ε σ α} (hm : c → Preserves P m)
    (hm' : ¬ c → Preserves P m') : Preserves P (if c then m else m') := by
  split
  · exact hm ‹_›
  · exact hm' ‹_›

/-- A method that reads the state first need keep `P` only from the state it read. -/
theorem preserves_get_bind {f : σ → Exec ε σ β} (hf : ∀ s, P s → P ((f s).after s)) :
    Preserves P (get >>= f) := fun s hs => hf s hs

/-! ## Invariants kept unless a method raises -/

/-- `m` keeps `P` unless it raises an exception in `E`. -/
def PreservesUnless (E : ε → Prop) (P : σ → Prop) (m : Exec ε σ α) : Prop :=
  ∀ s, P s → (∀ e, m.outcome s = .error e → ¬ E e) → P (m.after s)

section Unless

variable {E : ε → Prop}

theorem Preserves.unless {m : Exec ε σ α} (h : Preserves P m) : PreservesUnless E P m :=
  fun s hs _ => h s hs

/-- **The rule of sequences**: the rest runs only where the first part returned, so only there need
it start from `P`. -/
theorem PreservesUnless.bind {m : Exec ε σ α} {f : α → Exec ε σ β} (hm : PreservesUnless E P m)
    (hf : ∀ a, PreservesUnless E P (f a)) : PreservesUnless E P (m >>= f) := by
  intro s hs hraise
  have hm := hm s hs
  unfold outcome at hm hraise
  unfold after at hm ⊢
  rw [run_bind] at hraise ⊢
  match hr : m.run s with
  | (.ok a, s') =>
    rw [hr] at hm hraise
    exact hf a s' (hm fun _ h => by cases h) hraise
  | (.error e, s') =>
    rw [hr] at hm hraise
    exact hm fun e' he => hraise e' (congrArg Except.error (Except.error.inj he))

/-- A method that reads the state first need keep `P` only from the state it read. -/
theorem preservesUnless_get_bind {f : σ → Exec ε σ β}
    (hf : ∀ s, P s → PreservesUnless E P (f s)) : PreservesUnless E P (get >>= f) :=
  fun s hs hraise => hf s hs s hs hraise

end Unless

/-! ## Exceptions a method does not raise -/

/-- `m` never raises `e`. -/
def Avoids (e : ε) (m : Exec ε σ α) : Prop := ∀ s, m.outcome s ≠ .error e

variable {e : ε}

theorem avoids_pure (a : α) : Avoids e (pure a : Exec ε σ α) := fun _ h => by cases h

theorem avoids_modify (f : σ → σ) : Avoids e (modify f : Exec ε σ Unit) := fun _ h => by cases h

theorem avoids_throw {e' : ε} (h : e' ≠ e) : Avoids e (throw e' : Exec ε σ α) :=
  fun _ h' => h (Except.error.inj h')

theorem avoids_attempt {x : Except ε α} (h : x ≠ .error e) : Avoids e (attempt x : Exec ε σ α) :=
  fun _ h' => h h'

theorem Avoids.bind {m : Exec ε σ α} {f : α → Exec ε σ β} (hm : Avoids e m)
    (hf : ∀ a, Avoids e (f a)) : Avoids e (m >>= f) := by
  intro s h
  rcases outcome_bind_eq_error h with h | ⟨a, s', -, h⟩
  · exact hm s h
  · exact hf a s' h

theorem avoids_get_bind {f : σ → Exec ε σ β} (hf : ∀ s, Avoids e (f s)) :
    Avoids e (get >>= f) := fun s h => hf s s h

theorem avoids_ite {c : Prop} [Decidable c] {m m' : Exec ε σ α} (hm : c → Avoids e m)
    (hm' : ¬ c → Avoids e m') : Avoids e (if c then m else m') := by
  split
  · exact hm ‹_›
  · exact hm' ‹_›

/-! ## What holds where a method returned -/

/-- Where `m` returns, `Q` holds of the state it leaves. -/
def Returns (Q : σ → Prop) (m : Exec ε σ α) : Prop := ∀ s a s', m.run s = (.ok a, s') → Q s'

/-- What the last part of a sequence establishes, the sequence does. -/
theorem Returns.bind {Q : σ → Prop} {m : Exec ε σ α} {f : α → Exec ε σ β}
    (hf : ∀ a, Returns Q (f a)) : Returns Q (m >>= f) := by
  intro s b s' h
  obtain ⟨a, s₁, -, hrest⟩ := run_bind_eq_ok.mp h
  exact hf a s₁ b s' hrest

/-! ## Exceptions a method does not raise from a state -/

/-- Started in `P`, `m` raises no exception in `E`, and where it returns, `Q` holds. -/
def Safe (E : ε → Prop) (P Q : σ → Prop) (m : Exec ε σ α) : Prop :=
  ∀ s, P s → (∀ e, m.outcome s = .error e → ¬ E e) ∧ ∀ a s', m.run s = (.ok a, s') → Q s'

section Safe

variable {E : ε → Prop} {Q R : σ → Prop}

theorem safe_pure (a : α) (h : ∀ s, P s → Q s) : Safe E P Q (pure a : Exec ε σ α) := by
  intro s hs
  refine ⟨fun e he => ?_, fun _ s' hrun => ?_⟩
  · cases he
  · obtain ⟨-, rfl⟩ := Prod.mk.inj hrun
    exact h s hs

theorem safe_throw {e : ε} (h : ¬ E e) : Safe E P Q (throw e : Exec ε σ α) := by
  intro s _
  refine ⟨fun e' he' => ?_, fun _ s' hrun => ?_⟩
  · rwa [← Except.error.inj he']
  · cases (Prod.mk.inj hrun).1

theorem safe_attempt {x : Except ε α} (hx : ∀ e, x = .error e → ¬ E e) (h : ∀ s, P s → Q s) :
    Safe E P Q (attempt x : Exec ε σ α) := by
  intro s hs
  refine ⟨hx, fun _ s' hrun => ?_⟩
  obtain ⟨-, rfl⟩ := Prod.mk.inj hrun
  exact h s hs

theorem safe_modify {f : σ → σ} (h : ∀ s, P s → Q (f s)) :
    Safe E P Q (modify f : Exec ε σ Unit) := by
  intro s hs
  refine ⟨fun e he => ?_, fun _ s' hrun => ?_⟩
  · cases he
  · obtain ⟨-, rfl⟩ := Prod.mk.inj hrun
    exact h s hs

/-- **The rule of sequences**: the rest starts where the first part returned. -/
theorem Safe.bind {m : Exec ε σ α} {f : α → Exec ε σ β} (hm : Safe E P Q m)
    (hf : ∀ a, Safe E Q R (f a)) : Safe E P R (m >>= f) := by
  intro s hs
  obtain ⟨hraise, hreturn⟩ := hm s hs
  refine ⟨fun e he => ?_, fun b s' hrun => ?_⟩
  · rcases outcome_bind_eq_error he with he | ⟨a, s₁, hrun, he⟩
    · exact hraise e he
    · exact (hf a s₁ (hreturn a s₁ hrun)).1 e he
  · obtain ⟨a, s₁, hrun, hrest⟩ := run_bind_eq_ok.mp hrun
    exact (hf a s₁ (hreturn a s₁ hrun)).2 b s' hrest

/-- A method that reads the state first is safe where its continuation is, from any state read. -/
theorem safe_get_bind {f : σ → Exec ε σ β} (hf : ∀ s, P s → Safe E P Q (f s)) :
    Safe E P Q (get >>= f) := fun s hs => hf s hs s hs

theorem safe_ite {c : Prop} [Decidable c] {m m' : Exec ε σ α} (hm : c → Safe E P Q m)
    (hm' : ¬ c → Safe E P Q m') : Safe E P Q (if c then m else m') := by
  split
  · exact hm ‹_›
  · exact hm' ‹_›

theorem Safe.weaken {P' Q' : σ → Prop} {m : Exec ε σ α} (h : Safe E P Q m)
    (hP : ∀ s, P' s → P s) (hQ : ∀ s, Q s → Q' s) : Safe E P' Q' m :=
  fun s hs => ⟨(h s (hP s hs)).1, fun a s' hrun => hQ s' ((h s (hP s hs)).2 a s' hrun)⟩

end Safe

/-! ## One call after another -/

/-- The calls in order, stopping at the first raise. -/
def each (exec : ι → Exec ε σ Unit) : List ι → Exec ε σ Unit
  | [] => pure ⟨⟩
  | i :: is => do exec i; each exec is

@[simp] theorem each_nil (exec : ι → Exec ε σ Unit) : each exec [] = pure ⟨⟩ := rfl

theorem each_cons (exec : ι → Exec ε σ Unit) (i : ι) (is : List ι) :
    each exec (i :: is) = (exec i >>= fun _ => each exec is) := rfl

theorem preserves_each {exec : ι → Exec ε σ Unit} :
    ∀ {is : List ι}, (∀ i ∈ is, Preserves P (exec i)) → Preserves P (each exec is)
  | [], _ => preserves_pure _
  | i :: is, h => Preserves.bind (h i (by simp))
      fun _ => preserves_each fun j hj => h j (List.mem_cons_of_mem _ hj)

theorem preservesUnless_each {E : ε → Prop} {exec : ι → Exec ε σ Unit} :
    ∀ {is : List ι}, (∀ i ∈ is, PreservesUnless E P (exec i)) → PreservesUnless E P (each exec is)
  | [], _ => (preserves_pure _).unless
  | i :: is, h => PreservesUnless.bind (h i (by simp))
      fun _ => preservesUnless_each fun j hj => h j (List.mem_cons_of_mem _ hj)

theorem avoids_each {e : ε} {exec : ι → Exec ε σ Unit} :
    ∀ {is : List ι}, (∀ i ∈ is, Avoids e (exec i)) → Avoids e (each exec is)
  | [], _ => avoids_pure _
  | i :: is, h => Avoids.bind (h i (by simp))
      fun _ => avoids_each fun j hj => h j (List.mem_cons_of_mem _ hj)

/-- **A run that returned, split**: the prefix returned, and the rest from where it left off. -/
theorem run_each_append {exec : ι → Exec ε σ Unit} {is js : List ι} {s s' : σ} :
    (each exec (is ++ js)).run s = (.ok ⟨⟩, s') ↔
      ∃ s₁, (each exec is).run s = (.ok ⟨⟩, s₁) ∧ (each exec js).run s₁ = (.ok ⟨⟩, s') := by
  induction is generalizing s with
  | nil => simp
  | cons i is ih =>
    simp only [List.cons_append, each_cons, run_bind_eq_ok, ih]
    constructor
    · rintro ⟨a, s₁, hi, s₂, his, hjs⟩
      exact ⟨s₂, ⟨a, s₁, hi, his⟩, hjs⟩
    · rintro ⟨s₂, ⟨a, s₁, hi, his⟩, hjs⟩
      exact ⟨a, s₁, hi, s₂, his, hjs⟩

/-- **A run that raised, split**: a prefix returned, and the call after it raised. -/
theorem run_each_eq_error {exec : ι → Exec ε σ Unit} {is : List ι} {s s' : σ} {e : ε}
    (h : (each exec is).run s = (.error e, s')) :
    ∃ pre i post s₁, is = pre ++ i :: post ∧ (each exec pre).run s = (.ok ⟨⟩, s₁) ∧
      (exec i).run s₁ = (.error e, s') := by
  induction is generalizing s with
  | nil => cases h
  | cons i is ih =>
    rcases run_bind_eq_error.mp h with hi | ⟨_, s₁, hi, hrest⟩
    · exact ⟨[], i, is, s, rfl, rfl, hi⟩
    · obtain ⟨pre, j, post, s₂, rfl, hpre, hj⟩ := ih hrest
      exact ⟨i :: pre, j, post, s₂, rfl, run_bind_eq_ok.mpr ⟨_, s₁, hi, hpre⟩, hj⟩

/-- **What one call establishes and every call keeps**, a run that returned has left. -/
theorem of_run_each {exec : ι → Exec ε σ Unit} {is : List ι} {i : ι} {s s' : σ} (hi : i ∈ is)
    (hmake : ∀ s s', (exec i).run s = (.ok ⟨⟩, s') → P s')
    (hkeep : ∀ j ∈ is, Preserves P (exec j)) (h : (each exec is).run s = (.ok ⟨⟩, s')) : P s' := by
  obtain ⟨pre, post, rfl⟩ := List.append_of_mem hi
  obtain ⟨s₁, -, hrest⟩ := run_each_append.mp h
  obtain ⟨_, s₂, hone, hpost⟩ := run_bind_eq_ok.mp hrest
  have hpostkeep : Preserves P (each exec post) := preserves_each fun j hj =>
    hkeep j (List.mem_append_right _ (List.mem_cons_of_mem _ hj))
  have hafter := hpostkeep s₂ (hmake s₁ s₂ hone)
  rwa [after, hpost] at hafter

theorem safe_each {E : ε → Prop} {exec : ι → Exec ε σ Unit} :
    ∀ {is : List ι}, (∀ i ∈ is, Safe E P P (exec i)) → Safe E P P (each exec is)
  | [], _ => safe_pure _ fun _ hs => hs
  | i :: is, h => Safe.bind (h i (by simp))
      fun _ => safe_each fun j hj => h j (List.mem_cons_of_mem _ hj)

/-- The calls in order, every raise caught: the state the last one leaves. -/
def replay (exec : ι → Exec ε σ Unit) (is : List ι) (s : σ) : σ :=
  is.foldl (fun s i => (exec i).after s) s

@[simp] theorem replay_nil (exec : ι → Exec ε σ Unit) (s : σ) : replay exec [] s = s := rfl

@[simp] theorem replay_cons (exec : ι → Exec ε σ Unit) (i : ι) (is : List ι) (s : σ) :
    replay exec (i :: is) s = replay exec is ((exec i).after s) := rfl

theorem replay_append (exec : ι → Exec ε σ Unit) (is js : List ι) (s : σ) :
    replay exec (is ++ js) s = replay exec js (replay exec is s) := List.foldl_append

theorem preserves_replay {exec : ι → Exec ε σ Unit} {is : List ι} {s : σ}
    (h : ∀ i ∈ is, Preserves P (exec i)) (hs : P s) : P (replay exec is s) := by
  induction is generalizing s with
  | nil => exact hs
  | cons i is ih =>
    exact ih (fun j hj => h j (List.mem_cons_of_mem _ hj)) (h i (by simp) s hs)

/-! ## A method of a part of the state -/

/-- Run a method of a component of the state on that component. -/
def on (get : σ → τ) (put : τ → σ → σ) (m : Exec ε τ α) : Exec ε σ α :=
  fun s => ((m.run (get s)).1, put (m.run (get s)).2 s)

@[simp] theorem run_on (get : σ → τ) (put : τ → σ → σ) (m : Exec ε τ α) (s : σ) :
    (on get put m).run s = ((m.run (get s)).1, put (m.run (get s)).2 s) := rfl

theorem PreservesUnless.on {get : σ → τ} {put : τ → σ → σ} {E : ε → Prop} {Q : τ → Prop}
    {m : Exec ε τ α} (hput : ∀ t s, get (put t s) = t) (hm : PreservesUnless E Q m) :
    PreservesUnless E (fun s => Q (get s)) (Exec.on get put m) := by
  intro s hs hraise
  change Q (get (put (m.run (get s)).2 s))
  rw [hput]
  exact hm _ hs hraise

theorem Safe.on {get : σ → τ} {put : τ → σ → σ} {E : ε → Prop} {P Q : τ → Prop} {m : Exec ε τ α}
    (hput : ∀ t s, get (put t s) = t) (hm : Safe E P Q m) :
    Safe E (fun s => P (get s)) (fun s => Q (get s)) (Exec.on get put m) := by
  intro s hs
  obtain ⟨hraise, hreturn⟩ := hm (get s) hs
  refine ⟨hraise, fun a s' hrun => ?_⟩
  rw [run_on, Prod.mk.injEq] at hrun
  obtain ⟨hok, rfl⟩ := hrun
  rw [hput]
  exact hreturn a _ (Prod.ext hok rfl)

end Exec

end Machinery
