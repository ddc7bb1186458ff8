import CloudSpells.Machinery.Exec

/-!
# Machinery/Lockstep — a program followed by another, over another state

`m'` follows `m` where, started in related states, it ends as `m` does and leaves related states.
The two may have different states, and `m` may take steps `m'` knows nothing of, as long as all
these raise is what `m'` is excused from (`Follows.of_safe_bind`).

A list of calls that are followed one by one is followed as a whole (`Follows.history`).
-/

namespace Machinery.Exec

variable {ε σ τ α β γ δ ι : Type}

/-! ## Runs with their outcomes -/

/-- The calls in order, every raise caught: what each of them returned or raised, and the state the
last one leaves. -/
def history (exec : ι → Exec ε σ α) : List ι → σ → List (Except ε α) × σ
  | [], s => ([], s)
  | i :: is, s =>
    let rest := history exec is ((exec i).after s)
    ((exec i).outcome s :: rest.1, rest.2)

@[simp] theorem history_nil (exec : ι → Exec ε σ α) (s : σ) : history exec [] s = ([], s) := rfl

@[simp] theorem history_cons (exec : ι → Exec ε σ α) (i : ι) (is : List ι) (s : σ) :
    history exec (i :: is) s = ((exec i).outcome s :: (history exec is ((exec i).after s)).1,
      (history exec is ((exec i).after s)).2) := rfl

/-! ## Following -/

/-- Unless `m` raises an exception in `E`, `m'` does as `m` from related states: it raises what `m`
raises, returns `f` of what `m` returns, and leaves related states. -/
def Follows (E : ε → Prop) (R : σ → τ → Prop) (f : α → β) (m : Exec ε σ α) (m' : Exec ε τ β) :
    Prop :=
  ∀ s t, R s t → (∀ e, m.outcome s = .error e → ¬ E e) →
    m'.outcome t = (m.outcome s).map f ∧ R (m.after s) (m'.after t)

section Follows

variable {E : ε → Prop} {R R' : σ → τ → Prop} {f : α → β} {g : γ → δ}

theorem follows_pure (a : α) : Follows E R f (pure a) (pure (f a)) := fun _ _ h _ => ⟨rfl, h⟩

theorem follows_throw (e : ε) : Follows E R f (throw e) (throw e) := fun _ _ h _ => ⟨rfl, h⟩

theorem follows_attempt {x : Except ε α} {y : Except ε β} (h : y = x.map f) :
    Follows E R f (attempt x) (attempt y) := fun _ _ hR _ => ⟨h, hR⟩

theorem follows_attempt_id (x : Except ε α) :
    Follows E R id (attempt x : Exec ε σ α) (attempt x : Exec ε τ α) :=
  follows_attempt (congrFun Except.map_id x).symm

theorem follows_modify {put : σ → σ} {put' : τ → τ} (h : ∀ s t, R s t → R (put s) (put' t)) :
    Follows E R id (modify put : Exec ε σ Unit) (modify put' : Exec ε τ Unit) :=
  fun s t hR _ => ⟨rfl, h s t hR⟩

/-- Where the first part of a sequence raised, the sequence did. -/
private theorem bind_of_error {m : Exec ε σ α} {k : α → Exec ε σ γ} {s : σ} {e : ε}
    (h : m.outcome s = .error e) :
    (m >>= k).outcome s = .error e ∧ (m >>= k).after s = m.after s := by
  have hrun : (m >>= k).run s = (.error e, m.after s) := run_bind_error (run_of_outcome h)
  exact ⟨congrArg Prod.fst hrun, congrArg Prod.snd hrun⟩

/-- Where it returned, the rest did what the sequence did. -/
private theorem bind_of_ok {m : Exec ε σ α} {k : α → Exec ε σ γ} {s : σ} {a : α}
    (h : m.outcome s = .ok a) : (m >>= k).outcome s = (k a).outcome (m.after s) ∧
      (m >>= k).after s = (k a).after (m.after s) := by
  have hrun : (m >>= k).run s = (k a).run (m.after s) := run_bind_ok (run_of_outcome h)
  exact ⟨congrArg Prod.fst hrun, congrArg Prod.snd hrun⟩

/-- Where `m` returns without raising, it is followed by what returns the same. -/
theorem follows_of_run {m : Exec ε σ α} {m' : Exec ε τ β}
    (h : ∀ s t, R s t → ∃ a s' t', m.run s = (.ok a, s') ∧ m'.run t = (.ok (f a), t') ∧ R s' t') :
    Follows E R f m m' := by
  intro s t hR _
  obtain ⟨a, s', t', hm, hm', hR'⟩ := h s t hR
  unfold outcome after
  rw [hm, hm']
  exact ⟨rfl, hR'⟩

/-- **The rule of sequences**: the rests run only where the first parts returned. -/
theorem Follows.bind {m : Exec ε σ α} {m' : Exec ε τ β} {k : α → Exec ε σ γ} {k' : β → Exec ε τ δ}
    (hm : Follows E R f m m') (hk : ∀ a, Follows E R g (k a) (k' (f a))) :
    Follows E R g (m >>= k) (m' >>= k') := by
  intro s t hR hraise
  cases hrun : m.outcome s with
  | error e =>
    obtain ⟨hout, hleft⟩ := bind_of_error (k := k) hrun
    obtain ⟨hsame, hafter⟩ := hm s t hR fun e' he' =>
      Except.error.inj (hrun.symm.trans he') ▸ hraise e hout
    rw [hrun] at hsame
    obtain ⟨hout', hleft'⟩ := bind_of_error (k := k') hsame
    rw [hout, hout', hleft, hleft']
    exact ⟨rfl, hafter⟩
  | ok a =>
    obtain ⟨hout, hleft⟩ := bind_of_ok (k := k) hrun
    obtain ⟨hsame, hafter⟩ := hm s t hR fun e he => by cases hrun.symm.trans he
    rw [hrun] at hsame
    obtain ⟨hout', hleft'⟩ := bind_of_ok (k := k') hsame
    rw [hout, hout', hleft, hleft']
    rw [hout] at hraise
    exact hk a _ _ hafter hraise

/-- Two methods that read their states first need follow only from the states they read. -/
theorem follows_get_bind {k : σ → Exec ε σ γ} {k' : τ → Exec ε τ δ}
    (h : ∀ s t, R s t → Follows E R g (k s) (k' t)) : Follows E R g (get >>= k) (get >>= k') :=
  fun s t hR hraise => h s t hR s t hR hraise

/-- **A part that need not be followed**: all it raises is in `E`, and it leaves the states related,
perhaps more closely. -/
theorem Follows.of_safe_bind {m : Exec ε σ α} {k : α → Exec ε σ γ} {m' : Exec ε τ δ}
    (hm : ∀ t, Safe (fun e => ¬ E e) (R · t) (R' · t) m) (hweak : ∀ s t, R' s t → R s t)
    (hk : ∀ a, Follows E R' g (k a) m') : Follows E R g (m >>= k) m' := by
  intro s t hR hraise
  obtain ⟨hexcused, hreturn⟩ := hm t s hR
  cases hrun : m.outcome s with
  | error e => exact absurd (hraise e (bind_of_error hrun).1) (hexcused e hrun)
  | ok a =>
    obtain ⟨hout, hleft⟩ := bind_of_ok (k := k) hrun
    rw [hout, hleft]
    rw [hout] at hraise
    obtain ⟨hsame, hafter⟩ := hk a _ t (hreturn a _ (run_of_outcome hrun)) hraise
    exact ⟨hsame, hweak _ _ hafter⟩

/-- …and on its own it is followed by nothing at all. -/
theorem follows_of_safe {m : Exec ε σ Unit} (hm : ∀ t, Safe (fun e => ¬ E e) (R · t) (R · t) m) :
    Follows E R id m (pure ⟨⟩) := by
  rw [← bind_pure m]
  exact Follows.of_safe_bind hm (fun _ _ h => h) fun a => follows_pure a

/-- What is fixed throughout may stand beside a specification. -/
theorem Safe.frame {E : ε → Prop} {P Q : σ → Prop} {m : Exec ε σ α} (h : Safe E P Q m) (c : Prop) :
    Safe E (fun s => P s ∧ c) (fun s => Q s ∧ c) m :=
  fun s hs => ⟨(h s hs.1).1, fun a s' hrun => ⟨(h s hs.1).2 a s' hrun, hs.2⟩⟩

/-- What a method preserves and what it raises, together. -/
theorem Preserves.safe {E : ε → Prop} {P : σ → Prop} {m : Exec ε σ α} (h : Preserves P m)
    (hraise : ∀ s, P s → ∀ e, m.outcome s = .error e → ¬ E e) : Safe E P P m := by
  refine fun s hs => ⟨hraise s hs, fun a s' hrun => ?_⟩
  have hafter := h s hs
  rwa [after, hrun] at hafter

/-- A sequence of pure computations, inside a method. -/
theorem attempt_bind (x : Except ε α) (k : α → Except ε β) :
    (attempt (x >>= k) : Exec ε σ β) = attempt x >>= fun a => attempt (k a) := by
  cases x <;> rfl

/-- A method that only reads its state first is followed where its rest is, from the state read. -/
theorem follows_get_bind_left {k : σ → Exec ε σ γ} {m' : Exec ε τ δ}
    (h : ∀ s t, R s t → Follows E R g (k s) m') : Follows E R g (get >>= k) m' :=
  fun s t hR hraise => h s t hR s t hR hraise

theorem follows_each {exec : ι → Exec ε σ Unit} {exec' : ι → Exec ε τ Unit} :
    ∀ {is : List ι}, (∀ i ∈ is, Follows E R id (exec i) (exec' i)) →
      Follows E R id (each exec is) (each exec' is)
  | [], _ => follows_pure _
  | _ :: _, h => Follows.bind (h _ List.mem_cons_self)
      fun _ => follows_each fun j hj => h j (List.mem_cons_of_mem _ hj)

/-- **The run lemma**: calls that are followed one by one are followed as a whole, unless one of
them raises an exception in `E`. -/
theorem Follows.history {exec : ι → Exec ε σ α} {exec' : ι → Exec ε τ β} {is : List ι} {s : σ}
    {t : τ} (h : ∀ i ∈ is, Follows E R f (exec i) (exec' i)) (hR : R s t)
    (hraise : ∀ e, .error e ∈ (history exec is s).1 → ¬ E e) :
    (Exec.history exec' is t).1 = (Exec.history exec is s).1.map (Except.map f) ∧
      R (Exec.history exec is s).2 (Exec.history exec' is t).2 := by
  induction is generalizing s t with
  | nil => exact ⟨rfl, hR⟩
  | cons i is ih =>
    rw [history_cons] at hraise
    obtain ⟨hsame, hafter⟩ := h i List.mem_cons_self s t hR fun e he =>
      hraise e (he ▸ List.mem_cons_self)
    obtain ⟨hrest, hend⟩ := ih (fun j hj => h j (List.mem_cons_of_mem _ hj)) hafter
      fun e he => hraise e (List.mem_cons_of_mem _ he)
    rw [history_cons, history_cons, hsame, hrest]
    exact ⟨rfl, hend⟩

/-- A method of a part of the state is followed where the method itself is, from that part. -/
theorem Follows.on {ρ : Type} {get : σ → ρ} {put : ρ → σ → σ} {m : Exec ε ρ α} {m' : Exec ε τ β}
    (hget : ∀ s, put (get s) s = s)
    (h : ∀ s, Follows E (fun u t => R (put u s) t) f m m') :
    Follows E R f (Exec.on get put m) m' := by
  intro s t hR hraise
  have hpart : R (put (get s) s) t := (hget s).symm ▸ hR
  exact h s (get s) t hpart hraise

end Follows

end Machinery.Exec
