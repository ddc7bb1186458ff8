import Mathlib.Data.List.Basic

/-!
# Machinery/Substitution — replacing what a pattern matches

A `Pattern` is matched as a backtracking engine does: `ways` lists the ways it matches at the front
of a text, the one that is tried first at the head, and each has the texts of its groups.  `sub`
replaces, from left to right, the first way wherever there is one, and goes on behind what was
matched.  A function that agrees with `sub` on each of these two steps is `sub` (`sub_eq_of_step`),
so nothing has to be said about where the matches are.

`separate` puts a separator into a list wherever it has a boundary, in one pass.
-/

namespace Machinery

namespace Substitution

variable {α : Type}

/-! ## Patterns -/

/-- A pattern; every one takes at least one element. -/
inductive Pattern (α : Type)
  /-- `[…]`. -/
  | one (p : α → Bool)
  /-- `[…]+`, greedy. -/
  | many (p : α → Bool)
  | seq (P Q : Pattern α)
  /-- `(…)`. -/
  | group (P : Pattern α)

/-- A match at the front of a text: its groups, what was matched, and what comes after. -/
structure Match (α : Type) where
  groups : List (List α)
  text : List α
  rest : List α

namespace Pattern

/-- The ways a class matches again and again, the longest first. -/
def waysMany (p : α → Bool) : List α → List (Match α)
  | [] => []
  | a :: s =>
    if p a then
      (waysMany p s).map (fun m => { m with text := a :: m.text }) ++ [⟨[], [a], s⟩]
    else []

/-- The ways a pattern matches at the front of a text, in the order they are tried. -/
def ways : Pattern α → List α → List (Match α)
  | one _, [] => []
  | one p, a :: s => if p a then [⟨[], [a], s⟩] else []
  | many p, s => waysMany p s
  | seq P Q, s => (P.ways s).flatMap fun m => (Q.ways m.rest).map fun n =>
      ⟨m.groups ++ n.groups, m.text ++ n.text, n.rest⟩
  | group P, s => (P.ways s).map fun m => { m with groups := m.text :: m.groups }

section Ways

variable {p : α → Bool} {P Q : Pattern α} {s : List α} {m : Match α}

theorem mem_ways_one : m ∈ (one p).ways s ↔
    ∃ a t, p a = true ∧ s = a :: t ∧ m = ⟨[], [a], t⟩ := by
  cases s with
  | nil => simp [ways]
  | cons a s =>
    simp only [ways, List.mem_ite_nil_right, List.mem_singleton, List.cons.injEq]
    constructor
    · rintro ⟨ha, rfl⟩
      exact ⟨a, s, ha, ⟨rfl, rfl⟩, rfl⟩
    · rintro ⟨_, _, ha, ⟨rfl, rfl⟩, rfl⟩
      exact ⟨ha, rfl⟩

theorem mem_ways_many : m ∈ (many p).ways s ↔
    ∃ u t, u ≠ [] ∧ (∀ a ∈ u, p a = true) ∧ s = u ++ t ∧ m = ⟨[], u, t⟩ := by
  change m ∈ waysMany p s ↔ _
  induction s generalizing m with
  | nil =>
    refine iff_of_false (fun h => by cases h) ?_
    rintro ⟨u, t, hu, -, hs, -⟩
    exact hu (List.append_eq_nil_iff.mp hs.symm).1
  | cons a s ih =>
    simp only [waysMany, List.mem_ite_nil_right, List.mem_append, List.mem_map, List.mem_singleton,
      ih]
    constructor
    · rintro ⟨ha, ⟨_, ⟨u, t, hu, hall, rfl, rfl⟩, rfl⟩ | rfl⟩
      · exact ⟨a :: u, t, List.cons_ne_nil _ _, List.forall_mem_cons.mpr ⟨ha, hall⟩, rfl, rfl⟩
      · exact ⟨[a], s, List.cons_ne_nil _ _, List.forall_mem_singleton.mpr ha, rfl, rfl⟩
    · rintro ⟨u, t, hu, hall, hs, rfl⟩
      cases u with
      | nil => exact absurd rfl hu
      | cons b u =>
        obtain ⟨rfl, rfl⟩ := List.cons.inj hs
        obtain ⟨ha, hall⟩ := List.forall_mem_cons.mp hall
        refine ⟨ha, ?_⟩
        by_cases hu : u = []
        · subst hu
          exact Or.inr rfl
        · exact Or.inl ⟨_, ⟨u, t, hu, hall, rfl, rfl⟩, rfl⟩

theorem mem_ways_seq : m ∈ (seq P Q).ways s ↔ ∃ m₁ ∈ P.ways s, ∃ m₂ ∈ Q.ways m₁.rest,
    m = ⟨m₁.groups ++ m₂.groups, m₁.text ++ m₂.text, m₂.rest⟩ := by
  simp only [ways, List.mem_flatMap, List.mem_map, eq_comm]

theorem mem_ways_group : m ∈ (group P).ways s ↔
    ∃ m' ∈ P.ways s, m = ⟨m'.text :: m'.groups, m'.text, m'.rest⟩ := by
  simp only [ways, List.mem_map, eq_comm]

/-- **A match is at the front of the text**, and takes something. -/
theorem append_of_mem_ways (h : m ∈ P.ways s) : m.text ≠ [] ∧ s = m.text ++ m.rest := by
  induction P generalizing s m with
  | one p =>
    obtain ⟨a, t, -, rfl, rfl⟩ := mem_ways_one.mp h
    exact ⟨List.cons_ne_nil _ _, rfl⟩
  | many p =>
    obtain ⟨u, t, hu, -, rfl, rfl⟩ := mem_ways_many.mp h
    exact ⟨hu, rfl⟩
  | seq P Q ihP ihQ =>
    obtain ⟨m₁, h₁, m₂, h₂, rfl⟩ := mem_ways_seq.mp h
    obtain ⟨hne, hs⟩ := ihP h₁
    refine ⟨fun h => hne (List.append_eq_nil_iff.mp h).1, ?_⟩
    rw [List.append_assoc, ← (ihQ h₂).2, ← hs]
  | group P ih =>
    obtain ⟨m', h', rfl⟩ := mem_ways_group.mp h
    exact ih (m := m') h'

end Ways

end Pattern

/-! ## Substitution -/

/-- A piece of what is put for a match: an element, or a group by its number. -/
inductive Piece (α : Type)
  | lit (a : α)
  | ref (n : ℕ)

/-- What is put for a match. -/
def Match.expand (m : Match α) (template : List (Piece α)) : List α :=
  template.flatMap fun
    | .lit a => [a]
    | .ref n => (m.groups[n - 1]?).getD []

/-- The substitution, behind the elements of a match that was replaced. -/
def subFrom (P : Pattern α) (template : List (Piece α)) : ℕ → List α → List α
  | _, [] => []
  | skip + 1, _ :: s => subFrom P template skip s
  | 0, a :: s =>
    match (P.ways (a :: s)).head? with
    | none => a :: subFrom P template 0 s
    | some m => m.expand template ++ subFrom P template (m.text.length - 1) s

/-- Replace every match, from left to right. -/
def sub (P : Pattern α) (template : List (Piece α)) (s : List α) : List α := subFrom P template 0 s

section Sub

variable {P : Pattern α} {template : List (Piece α)} {s : List α} {a : α} {m : Match α}

theorem subFrom_eq_sub_drop : ∀ (skip : ℕ) (s : List α),
    subFrom P template skip s = sub P template (s.drop skip)
  | 0, _ => rfl
  | _ + 1, [] => rfl
  | skip + 1, _ :: s => subFrom_eq_sub_drop skip s

theorem sub_of_none (h : (P.ways (a :: s)).head? = none) :
    sub P template (a :: s) = a :: sub P template s := by
  rw [sub, subFrom, h]
  rfl

/-- **Where there is a match it is replaced**, and the rest comes after. -/
theorem sub_of_some (h : (P.ways s).head? = some m) :
    sub P template s = m.expand template ++ sub P template m.rest := by
  obtain ⟨hne, hs⟩ := Pattern.append_of_mem_ways (List.mem_of_mem_head? h)
  obtain ⟨a, u, hu⟩ := List.exists_cons_of_ne_nil hne
  rw [hu, List.cons_append] at hs
  subst hs
  rw [sub, subFrom, h]
  change _ ++ subFrom P template (m.text.length - 1) (u ++ m.rest) = _
  rw [subFrom_eq_sub_drop, hu, List.length_cons, Nat.add_sub_cancel, List.drop_left]

/-- **The induction rule of substitution**: what takes its two steps is the substitution. -/
theorem sub_eq_of_step {f : List α → List α} (hnil : f [] = [])
    (hmatch : ∀ s, ∀ m ∈ P.ways s, f s = m.expand template ++ f m.rest)
    (hnone : ∀ a s, P.ways (a :: s) = [] → f (a :: s) = a :: f s) :
    ∀ s, sub P template s = f s
  | [] => hnil.symm
  | a :: s => by
    cases h : (P.ways (a :: s)).head? with
    | none =>
      rw [sub_of_none h, hnone a s (List.head?_eq_none_iff.mp h),
        sub_eq_of_step hnil hmatch hnone s]
    | some m =>
      have hmem := List.mem_of_mem_head? h
      obtain ⟨hne, hs⟩ := Pattern.append_of_mem_ways hmem
      have hshort : m.rest.length < (a :: s).length := by
        rw [hs, List.length_append]
        exact Nat.lt_add_of_pos_left (List.length_pos_iff.mpr hne)
      rw [sub_of_some h, hmatch _ m hmem, sub_eq_of_step hnil hmatch hnone m.rest]
termination_by s => s.length
decreasing_by
  · exact Nat.lt_succ_self _
  · exact hshort

end Sub

/-! ## Separators -/

/-- Put a separator after each element at which there is a boundary, seeing what comes next. -/
def separate (sep : α) (boundary : α → List α → Bool) : List α → List α
  | [] => []
  | a :: s =>
    if boundary a s then a :: sep :: separate sep boundary s else a :: separate sep boundary s

section Separate

variable {sep : α} {boundary boundary' : α → List α → Bool} {a : α} {s : List α}

theorem separate_cons_of_boundary (h : boundary a s = true) :
    separate sep boundary (a :: s) = a :: sep :: separate sep boundary s := if_pos h

theorem separate_cons_of_not (h : boundary a s = false) :
    separate sep boundary (a :: s) = a :: separate sep boundary s :=
  if_neg (Bool.eq_false_iff.mp h)

theorem head?_separate (s : List α) : (separate sep boundary s).head? = s.head? := by
  cases s with
  | nil => rfl
  | cons a s =>
    rw [separate]
    split <;> rfl

theorem mem_separate {c : α} : c ∈ separate sep boundary s → c = sep ∨ c ∈ s := by
  induction s with
  | nil => exact fun h => by cases h
  | cons a s ih =>
    rw [separate]
    split
    · simp only [List.mem_cons]
      rintro (rfl | rfl | h)
      · exact Or.inr (Or.inl rfl)
      · exact Or.inl rfl
      · exact (ih h).imp_right Or.inr
    · simp only [List.mem_cons]
      rintro (rfl | h)
      · exact Or.inr (Or.inl rfl)
      · exact (ih h).imp_right Or.inr

/-- Where there is no boundary nothing is put. -/
theorem separate_eq_self (h : ∀ a t, a :: t <:+ s → boundary a t = false) :
    separate sep boundary s = s := by
  induction s with
  | nil => rfl
  | cons a s ih =>
    rw [separate_cons_of_not (h a s (List.suffix_refl _)),
      ih fun b t hsuffix => h b t (hsuffix.trans (List.suffix_cons a s))]

/-- **Without the separators the list is what it was.** -/
theorem filter_separate [DecidableEq α] (h : sep ∉ s) :
    (separate sep boundary s).filter (· ≠ sep) = s := by
  induction s with
  | nil => rfl
  | cons a s ih =>
    obtain ⟨ha, hs⟩ := not_or.mp (mt List.mem_cons.mpr h)
    rw [separate]
    split
    · rw [List.filter_cons_of_pos (by simpa using Ne.symm ha), List.filter_cons_of_neg (by simp),
        ih hs]
    · rw [List.filter_cons_of_pos (by simpa using Ne.symm ha), ih hs]

/-- **No separator is last**, where there is no boundary at the end. -/
theorem getLast?_separate (hend : ∀ a, boundary a [] = false) (s : List α) :
    (separate sep boundary s).getLast? = s.getLast? := by
  induction s with
  | nil => rfl
  | cons a s ih =>
    cases s with
    | nil => rw [separate_cons_of_not (hend a), separate]
    | cons b s =>
      have hne : separate sep boundary (b :: s) ≠ [] := by
        intro hnil
        have hhead : (separate sep boundary (b :: s)).head? = some b := head?_separate _
        rw [hnil] at hhead
        cases hhead
      obtain ⟨c, t, ht⟩ := List.exists_cons_of_ne_nil hne
      rw [separate]
      rw [ht] at ih ⊢
      split
      · rw [List.getLast?_cons_cons, List.getLast?_cons_cons, ih, List.getLast?_cons_cons]
      · rw [List.getLast?_cons_cons, ih, List.getLast?_cons_cons]

/-- **No separator follows another.** -/
theorem not_infix_separate (h : sep ∉ s) : ¬ [sep, sep] <:+: separate sep boundary s := by
  induction s with
  | nil => exact fun hin => List.cons_ne_nil _ _ (List.infix_nil.mp hin)
  | cons a s ih =>
    obtain ⟨ha, hs⟩ := not_or.mp (mt List.mem_cons.mpr h)
    have hcons (t : List α) (ht : ¬ [sep, sep] <:+: t) : ¬ [sep, sep] <:+: a :: t := by
      rw [List.infix_cons_iff, List.cons_prefix_cons]
      exact fun hin => hin.elim (fun hprefix => ha hprefix.1) ht
    rw [separate]
    split
    · refine hcons _ fun hin => ?_
      rcases List.infix_cons_iff.mp hin with hprefix | hin
      · -- the second separator would be the next element
        obtain ⟨t, ht⟩ := (List.cons_prefix_cons.mp hprefix).2
        have hhead : (separate sep boundary s).head? = s.head? := head?_separate s
        rw [← ht] at hhead
        exact hs (List.mem_of_head? hhead.symm)
      · exact ih hs hin
    · exact hcons _ (ih hs)

/-- **Two passes are one**, where the second sees only the next element, and finds no boundary at a
separator. -/
theorem separate_separate (hhead : ∀ a s t, s.head? = t.head? → boundary' a s = boundary' a t)
    (hbefore : ∀ a t, boundary' a (sep :: t) = false) (hafter : ∀ t, boundary' sep t = false)
    (s : List α) : separate sep boundary' (separate sep boundary s) =
      separate sep (fun a t => boundary a t || boundary' a t) s := by
  induction s with
  | nil => rfl
  | cons a s ih =>
    cases h : boundary a s with
    | true =>
      rw [separate_cons_of_boundary h, separate_cons_of_not (hbefore a _),
        separate_cons_of_not (hafter _), ih, separate_cons_of_boundary (by simp [h])]
    | false =>
      rw [separate_cons_of_not h]
      have hsee : boundary' a (separate sep boundary s) = boundary' a s :=
        hhead a _ _ (head?_separate s)
      cases h' : boundary' a s with
      | true =>
        rw [separate_cons_of_boundary (hsee.trans h'), ih,
          separate_cons_of_boundary (by simp [h'])]
      | false =>
        rw [separate_cons_of_not (hsee.trans h'), ih, separate_cons_of_not (by simp [h, h'])]

end Separate

end Substitution

end Machinery
