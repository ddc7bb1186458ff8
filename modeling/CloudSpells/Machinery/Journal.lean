import CloudSpells.Machinery.Exec
import Mathlib.Order.Lattice

/-!
# Machinery/Journal — loops of operations that may fail

A `Journal` is a state that only grows, with the log of the operations tried on it.  Each operation
has its fate: it fails or not, and whatever else appears meanwhile.  A loop makes one attempt per
item and stops at the first failure; so when an item is attempted, the items before it were
attempted with success, the skipped ones apart (`attempts_each`), and a loop that returns has
attempted them all (`attempts_each_of_ok`).
-/

namespace Machinery

/-- A state, and the operations tried so far with whether they succeeded. -/
structure Journal (τ ω : Type) where
  state : τ
  log : List (ω × Bool)

/-- What becomes of an operation: whether it fails, and what else appears meanwhile. -/
structure Fate (τ : Type) where
  fails : Bool
  appears : τ

namespace Journal

open Exec

variable {ε τ ω ι α β : Type}

/-- The attempts in a log at the operations `of` reads an item from. -/
def attempts (of : ω → Option ι) (events : List (ω × Bool)) : List (ι × Bool) :=
  events.filterMap fun e => (of e.1).map fun i => (i, e.2)

@[simp] theorem attempts_nil (of : ω → Option ι) : attempts of [] = [] := rfl

@[simp] theorem attempts_append (of : ω → Option ι) (events events' : List (ω × Bool)) :
    attempts of (events ++ events') = attempts of events ++ attempts of events' :=
  List.filterMap_append

theorem attempts_singleton_of_none {of : ω → Option ι} {op : ω} (h : of op = none) (ok : Bool) :
    attempts of [(op, ok)] = [] := by simp [attempts, h]

theorem attempts_singleton_of_some {of : ω → Option ι} {op : ω} {i : ι} (h : of op = some i)
    (ok : Bool) : attempts of [(op, ok)] = [(i, ok)] := by simp [attempts, h]

/-- What a run adds to the log. -/
def logged (m : Exec ε (Journal τ ω) α) (j : Journal τ ω) : List (ω × Bool) :=
  (m.after j).log.drop j.log.length

section Preorder

variable [Preorder τ] {of : ω → Option ι} {j j' j'' : Journal τ ω}
  {events events' : List (ω × Bool)}

/-- The events are added to the log, and the state grows. -/
structure Extends (j j' : Journal τ ω) (events : List (ω × Bool)) : Prop where
  log : j'.log = j.log ++ events
  state : j.state ≤ j'.state

theorem Extends.refl (j : Journal τ ω) : j.Extends j [] := ⟨(List.append_nil _).symm, le_rfl⟩

theorem Extends.trans (h : j.Extends j' events) (h' : j'.Extends j'' events') :
    j.Extends j'' (events ++ events') where
  log := by rw [h'.log, h.log, List.append_assoc]
  state := h.state.trans h'.state

theorem Extends.logged_eq {m : Exec ε (Journal τ ω) α} (h : j.Extends (m.after j) events) :
    logged m j = events := by rw [logged, h.log, List.drop_left]

/-! ## Methods that attempt nothing -/

/-- `m` extends the journal by no attempt. -/
def Quiet (of : ω → Option ι) (m : Exec ε (Journal τ ω) α) : Prop :=
  ∀ j : Journal τ ω, ∃ events, j.Extends (m.after j) events ∧ attempts of events = []

theorem quiet_pure (a : α) : Quiet of (pure a : Exec ε (Journal τ ω) α) :=
  fun j => ⟨[], .refl j, rfl⟩

theorem quiet_throw (e : ε) : Quiet of (throw e : Exec ε (Journal τ ω) α) :=
  fun j => ⟨[], .refl j, rfl⟩

theorem quiet_get_bind {f : Journal τ ω → Exec ε (Journal τ ω) β} (hf : ∀ j, Quiet of (f j)) :
    Quiet of (get >>= f) := fun j => hf j j

theorem Quiet.bind {m : Exec ε (Journal τ ω) α} {f : α → Exec ε (Journal τ ω) β}
    (hm : Quiet of m) (hf : ∀ a, Quiet of (f a)) : Quiet of (m >>= f) := by
  intro j
  obtain ⟨events, hext, hquiet⟩ := hm j
  rcases hrun : m.run j with ⟨e | a, j'⟩
  · refine ⟨events, ?_, hquiet⟩
    rw [after, run_bind_error hrun]
    rwa [after, hrun] at hext
  · obtain ⟨events', hext', hquiet'⟩ := hf a j'
    refine ⟨events ++ events', ?_, by rw [attempts_append, hquiet, hquiet', List.append_nil]⟩
    rw [after, run_bind_ok hrun]
    rw [after, hrun] at hext
    exact hext.trans hext'

theorem quiet_each {κ : Type} {exec : κ → Exec ε (Journal τ ω) Unit} :
    ∀ {is : List κ}, (∀ i ∈ is, Quiet of (exec i)) → Quiet of (each exec is)
  | [], _ => quiet_pure _
  | i :: is, h => Quiet.bind (h i (by simp))
      fun _ => quiet_each fun j hj => h j (List.mem_cons_of_mem _ hj)

/-! ## Loops of attempts -/

/-- From `j`, `m` attempts the item last: it returns after a success, or raises before or at a
failure; or it skips the item, where it may. -/
def TriesFrom (of : ω → Option ι) (skips : ι → τ → Bool) (i : ι) (m : Exec ε (Journal τ ω) Unit)
    (j : Journal τ ω) : Prop :=
  ∃ events, j.Extends (m.after j) events ∧
    (m.outcome j = .ok ⟨⟩ →
      attempts of events = [(i, true)] ∨ attempts of events = [] ∧ skips i j.state = true) ∧
    ∀ e, m.outcome j = .error e → attempts of events = [] ∨ attempts of events = [(i, false)]

/-- …from wherever it starts. -/
def Tries (of : ω → Option ι) (skips : ι → τ → Bool) (i : ι) (m : Exec ε (Journal τ ω) Unit) :
    Prop := ∀ j, TriesFrom of skips i m j

/-- A method that reads the journal first tries what it goes on to try. -/
theorem tries_get_bind {skips : ι → τ → Bool} {i : ι}
    {f : Journal τ ω → Exec ε (Journal τ ω) Unit} (hf : ∀ j, TriesFrom of skips i (f j) j) :
    Tries of skips i (get >>= f) := hf

/-- Where the item may be skipped, there may be nothing to try. -/
theorem triesFrom_pure {skips : ι → τ → Bool} {i : ι} {j : Journal τ ω}
    (hskip : skips i j.state = true) :
    TriesFrom of skips i (pure ⟨⟩ : Exec ε (Journal τ ω) Unit) j :=
  ⟨[], .refl j, fun _ => .inr ⟨rfl, hskip⟩, fun _ he => by cases he⟩

/-- An attempt after a quiet start. -/
theorem Quiet.bind_tries {skips : ι → τ → Bool} {i : ι} {m : Exec ε (Journal τ ω) α}
    {f : α → Exec ε (Journal τ ω) Unit} (hm : Quiet of m)
    (hskips : ∀ s s' : τ, s ≤ s' → skips i s' = true → skips i s = true)
    (hf : ∀ a, Tries of skips i (f a)) : Tries of skips i (m >>= f) := by
  intro j
  obtain ⟨events, hext, hquiet⟩ := hm j
  rcases hrun : m.run j with ⟨e | a, j'⟩
  · refine ⟨events, ?_, fun hok => ?_, fun _ _ => .inl hquiet⟩
    · rw [after, run_bind_error hrun]
      rwa [after, hrun] at hext
    · rw [outcome, run_bind_error hrun] at hok
      cases hok
  · obtain ⟨events', hext', hok, hraise⟩ := hf a j'
    rw [after, hrun] at hext
    have hattempts : attempts of (events ++ events') = attempts of events' := by
      rw [attempts_append, hquiet, List.nil_append]
    refine ⟨events ++ events', ?_, ?_, ?_⟩
    · rw [after, run_bind_ok hrun]
      exact hext.trans hext'
    · rw [outcome, run_bind_ok hrun, hattempts]
      exact fun h => (hok h).imp_right fun h => ⟨h.1, hskips _ _ hext.state h.2⟩
    · rw [outcome, run_bind_ok hrun, hattempts]
      exact hraise

section Loop

variable {skips : ι → τ → Bool} {body : ι → Exec ε (Journal τ ω) Unit} {is : List ι}

/-- What may be skipped later on may be skipped now. -/
private theorem filter_sublist (hskips : ∀ i s s', s ≤ s' → skips i s' = true → skips i s = true)
    {s s' : τ} (h : s ≤ s') (l : List ι) :
    (l.filter fun i => !skips i s).Sublist (l.filter fun i => !skips i s') := by
  refine List.monotone_filter_right l fun i hi => ?_
  by_contra hskip
  rw [Bool.not_eq_true, Bool.not_eq_false'] at hskip
  simp [hskips i s s' h hskip] at hi

private theorem filter_cons_sublist {keep : ι → Bool} (i : ι) {l l' : List ι}
    (h : (l.filter keep).Sublist l') : ((i :: l).filter keep).Sublist (i :: l') := by
  rw [List.filter_cons]
  split
  · exact h.cons_cons i
  · exact h.cons i

/-- **A loop that returns has attempted every item**, but for those that could be skipped. -/
theorem attempts_each_of_ok (hbody : ∀ i, Tries of skips i (body i))
    (hskips : ∀ i s s', s ≤ s' → skips i s' = true → skips i s = true) {j j' : Journal τ ω}
    (h : (each body is).run j = (.ok ⟨⟩, j')) :
    ∃ events done, j.Extends j' events ∧ attempts of events = done.map (fun i => (i, true)) ∧
      done.Sublist is ∧ (is.filter fun i => !skips i j.state).Sublist done := by
  induction is generalizing j with
  | nil =>
    obtain ⟨-, rfl⟩ := Prod.mk.inj h
    exact ⟨[], [], .refl j, rfl, List.Sublist.refl _, List.Sublist.refl _⟩
  | cons i is ih =>
    obtain ⟨_, j₁, hrun, hrest⟩ := run_bind_eq_ok.mp h
    obtain ⟨events, hext, hok, -⟩ := hbody i j
    obtain ⟨events', done, hext', hattempts, hdone, hall⟩ := ih hrest
    rw [after, hrun] at hext
    have hfilter := (filter_sublist hskips hext.state is).trans hall
    rcases hok (congrArg Prod.fst hrun) with hone | ⟨hnone, hskip⟩
    · refine ⟨events ++ events', i :: done, hext.trans hext', ?_, hdone.cons_cons i,
        filter_cons_sublist i hfilter⟩
      rw [attempts_append, hone, hattempts]
      rfl
    · refine ⟨events ++ events', done, hext.trans hext', ?_, hdone.cons i, ?_⟩
      · rw [attempts_append, hnone, hattempts]
        rfl
      · rwa [List.filter_cons_of_neg (by simp [hskip])]

end Loop

end Preorder

/-! ## Operations -/

section Perform

variable [SemilatticeSup τ]

/-- Try an operation: it creates what it is to create, or raises. -/
def perform (fate : ℕ → Fate τ) (creates : ω → τ) (raises : ω → ε) (op : ω) :
    Exec ε (Journal τ ω) Unit := do
  let j ← get
  let f := fate j.log.length
  let state := j.state ⊔ f.appears
  if f.fails then do
    set ({ state := state, log := j.log ++ [(op, false)] } : Journal τ ω)
    throw (raises op)
  else
    set ({ state := state ⊔ creates op, log := j.log ++ [(op, true)] } : Journal τ ω)

variable {fate : ℕ → Fate τ} {creates : ω → τ} {raises : ω → ε} {op : ω}

/-- An operation that fails is logged and raises. -/
theorem run_perform_of_fails {j : Journal τ ω} (h : (fate j.log.length).fails = true) :
    (perform fate creates raises op).run j = (.error (raises op),
      ⟨j.state ⊔ (fate j.log.length).appears, j.log ++ [(op, false)]⟩) := by
  rw [perform, run_get_bind]
  dsimp only
  rw [if_pos h]
  rfl

/-- One that does not is logged and creates what it is to create. -/
theorem run_perform_of_succeeds {j : Journal τ ω} (h : (fate j.log.length).fails = false) :
    (perform fate creates raises op).run j = (.ok ⟨⟩,
      ⟨j.state ⊔ (fate j.log.length).appears ⊔ creates op, j.log ++ [(op, true)]⟩) := by
  rw [perform, run_get_bind]
  dsimp only
  rw [if_neg (by simp [h])]
  rfl

/-- **An operation is logged, with its success**, and creates what it is to create where it
succeeds. -/
theorem run_perform (fate : ℕ → Fate τ) (creates : ω → τ) (raises : ω → ε) (op : ω)
    (j : Journal τ ω) :
    (∃ j', (perform fate creates raises op).run j = (.ok ⟨⟩, j') ∧ j.Extends j' [(op, true)] ∧
      creates op ≤ j'.state) ∨
    ∃ j', (perform fate creates raises op).run j = (.error (raises op), j') ∧
      j.Extends j' [(op, false)] := by
  cases hfails : (fate j.log.length).fails with
  | true => exact .inr ⟨_, run_perform_of_fails hfails, rfl, le_sup_left⟩
  | false =>
    exact .inl ⟨_, run_perform_of_succeeds hfails, ⟨rfl, le_sup_left.trans le_sup_left⟩,
      le_sup_right⟩

/-- An operation `of` reads nothing from is no attempt. -/
theorem quiet_perform {of : ω → Option ι} (h : of op = none) :
    Quiet of (perform fate creates raises op) := by
  intro j
  rcases run_perform fate creates raises op j with
    ⟨j', hrun, hext, -⟩ | ⟨j', hrun, hext⟩
  · exact ⟨_, by rwa [after, hrun], attempts_singleton_of_none h true⟩
  · exact ⟨_, by rwa [after, hrun], attempts_singleton_of_none h false⟩

/-- One it reads an item from is an attempt at the item. -/
theorem tries_perform {of : ω → Option ι} {i : ι} (h : of op = some i) (skips : ι → τ → Bool) :
    Tries of skips i (perform fate creates raises op) := by
  intro j
  rcases run_perform fate creates raises op j with
    ⟨j', hrun, hext, -⟩ | ⟨j', hrun, hext⟩
  · refine ⟨_, by rwa [after, hrun], fun _ => .inl (attempts_singleton_of_some h true),
      fun e he => ?_⟩
    rw [outcome, hrun] at he
    cases he
  · refine ⟨_, by rwa [after, hrun], fun hok => ?_,
      fun _ _ => .inr (attempts_singleton_of_some h false)⟩
    rw [outcome, hrun] at hok
    cases hok

/-- **What growth keeps, an operation keeps.** -/
theorem preserves_perform {P : τ → Prop} (hmono : ∀ s s', s ≤ s' → P s → P s') :
    Preserves (fun j : Journal τ ω => P j.state) (perform fate creates raises op) := by
  intro j hj
  rcases run_perform fate creates raises op j with
    ⟨j', hrun, hext, -⟩ | ⟨j', hrun, hext⟩
  · rw [after, hrun]
    exact hmono _ _ hext.state hj
  · rw [after, hrun]
    exact hmono _ _ hext.state hj

end Perform

end Journal

end Machinery
