import CloudSpells.Machinery.Exec
import Mathlib.Data.List.Forall2

/-!
# Machinery/Pairs — two programs side by side

Two programs are `Paired` where, started in related states, both raise the same or return what is
related, and leave related states.  A program may be paired with itself: what the relation does not
see of the state has no bearing on what it does, nor on what is seen of the state afterwards.

Two lists of calls that are paired one by one are paired as a whole (`rel_replay`).
-/

namespace Machinery.Exec

variable {ε σ τ α β γ δ ι κ : Type}

/-- Two outcomes of one kind: the same exception, or related results. -/
inductive Likewise (S : α → β → Prop) : Except ε α → Except ε β → Prop
  | error (e : ε) : Likewise S (.error e) (.error e)
  | ok {a : α} {b : β} (h : S a b) : Likewise S (.ok a) (.ok b)

theorem Likewise.weaken {S S' : α → β → Prop} {x : Except ε α} {y : Except ε β}
    (h : Likewise S x y) (hS : ∀ a b, S a b → S' a b) : Likewise S' x y := by
  cases h with
  | error e => exact .error e
  | ok hab => exact .ok (hS _ _ hab)

/-- From two states, the programs end in one way, and leave related states. -/
def PairedFrom (R : σ → τ → Prop) (S : α → β → Prop) (m : Exec ε σ α) (m' : Exec ε τ β) (s : σ)
    (t : τ) : Prop :=
  Likewise S (m.outcome s) (m'.outcome t) ∧ R (m.after s) (m'.after t)

/-- …from any two related states. -/
def Paired (R : σ → τ → Prop) (S : α → β → Prop) (m : Exec ε σ α) (m' : Exec ε τ β) : Prop :=
  ∀ s t, R s t → PairedFrom R S m m' s t

section Paired

variable {R : σ → τ → Prop} {S : α → β → Prop} {T : γ → δ → Prop}

theorem paired_pure {a : α} {b : β} (h : S a b) :
    Paired R S (pure a : Exec ε σ α) (pure b) := fun _ _ hR => ⟨.ok h, hR⟩

theorem paired_throw (e : ε) : Paired R S (throw e : Exec ε σ α) (throw e) :=
  fun _ _ hR => ⟨.error e, hR⟩

theorem paired_modify {f : σ → σ} {g : τ → τ} (h : ∀ s t, R s t → R (f s) (g t)) :
    Paired R (fun _ _ => True) (modify f : Exec ε σ Unit) (modify g) :=
  fun s t hR => ⟨.ok trivial, h s t hR⟩

theorem Paired.weaken {S' : α → β → Prop} {m : Exec ε σ α} {m' : Exec ε τ β}
    (h : Paired R S m m') (hS : ∀ a b, S a b → S' a b) : Paired R S' m m' :=
  fun s t hR => ⟨(h s t hR).1.weaken hS, (h s t hR).2⟩

/-- **The rule of sequences.** -/
theorem Paired.bind {m : Exec ε σ α} {m' : Exec ε τ β} {k : α → Exec ε σ γ} {k' : β → Exec ε τ δ}
    (hm : Paired R S m m') (hk : ∀ a b, S a b → Paired R T (k a) (k' b)) :
    Paired R T (m >>= k) (m' >>= k') := by
  intro s t hR
  obtain ⟨hout, hafter⟩ := hm s t hR
  unfold outcome at hout
  unfold after at hafter
  rcases hrun : m.run s with ⟨r, s'⟩
  rcases hrun' : m'.run t with ⟨r', t'⟩
  rw [hrun, hrun'] at hout hafter
  cases hout with
  | error e =>
    rw [PairedFrom, outcome, outcome, after, after, run_bind_error hrun, run_bind_error hrun']
    exact ⟨.error e, hafter⟩
  | ok hab =>
    rw [PairedFrom, outcome, outcome, after, after, run_bind_ok hrun, run_bind_ok hrun']
    exact hk _ _ hab s' t' hafter

/-- Two programs that read their states first need be paired only from the states they read. -/
theorem paired_get_bind {k : σ → Exec ε σ γ} {k' : τ → Exec ε τ δ}
    (h : ∀ s t, R s t → PairedFrom R T (k s) (k' t) s t) : Paired R T (get >>= k) (get >>= k') := h

/-- **The rule of handlers.** -/
theorem paired_tryCatch {m : Exec ε σ α} {m' : Exec ε τ β} {handler : ε → Exec ε σ α}
    {handler' : ε → Exec ε τ β} (hm : Paired R S m m')
    (hhandler : ∀ e, Paired R S (handler e) (handler' e)) :
    Paired R S (tryCatch m handler) (tryCatch m' handler') := by
  intro s t hR
  obtain ⟨hout, hafter⟩ := hm s t hR
  rcases hrun : m.run s with ⟨r, s'⟩
  rcases hrun' : m'.run t with ⟨r', t'⟩
  rw [outcome, outcome, hrun, hrun'] at hout
  rw [after, after, hrun, hrun'] at hafter
  cases hout with
  | error e =>
    have h := hhandler e s' t' hafter
    rwa [PairedFrom, outcome, outcome, after, after, run_tryCatch_error hrun,
      run_tryCatch_error hrun']
  | ok hab =>
    rw [PairedFrom, outcome, outcome, after, after, run_tryCatch_ok hrun, run_tryCatch_ok hrun']
    exact ⟨.ok hab, hafter⟩

theorem paired_ite {c : Prop} [Decidable c] {m n : Exec ε σ α} {m' n' : Exec ε τ β}
    (hm : c → Paired R S m m') (hn : ¬ c → Paired R S n n') :
    Paired R S (if c then m else n) (if c then m' else n') := by
  split
  · exact hm ‹_›
  · exact hn ‹_›

theorem paired_each {exec : ι → Exec ε σ Unit} {exec' : ι → Exec ε τ Unit} {is : List ι}
    (h : ∀ i ∈ is, Paired R (fun _ _ => True) (exec i) (exec' i)) :
    Paired R (fun _ _ => True) (each exec is) (each exec' is) := by
  induction is with
  | nil => exact paired_pure trivial
  | cons i is ih =>
    exact (h i List.mem_cons_self).bind fun _ _ _ => ih fun j hj => h j (List.mem_cons_of_mem _ hj)

/-- **The run lemma**: calls that are paired one by one leave related states. -/
theorem rel_replay {exec : ι → Exec ε σ Unit} {exec' : κ → Exec ε τ Unit} {is : List ι}
    {js : List κ} {s : σ} {t : τ} (hR : R s t)
    (h : List.Forall₂ (fun i j => Paired R (fun _ _ => True) (exec i) (exec' j)) is js) :
    R (replay exec is s) (replay exec' js t) := by
  induction h generalizing s t with
  | nil => exact hR
  | cons hpair _ ih => exact ih (hpair s t hR).2

end Paired

end Machinery.Exec
