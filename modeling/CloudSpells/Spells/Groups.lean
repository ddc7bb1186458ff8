import CloudSpells.Spells.Nsg

/-!
# Spells/Groups — how the groups of a world grow

A group is given its rules one by one, by its constructor and by the relationships that name it.
What it gains is read up to the ordinals in the names of its rules (`GrownBy`): then what a run of
`add_rule` leaves does not depend on where the group stood before.
-/

namespace CloudSpells

open Machinery Machinery.Exec

/-- The rules a new group has of its own. -/
def NsgArgs.decls (svcCidrBlock : String) (args : NsgArgs) : List RuleDecl :=
  match args.role with
  | none => []
  | some role => Nsg.ambientDecls svcCidrBlock role.role args.ports

/-! ## Rules up to their ordinals -/

/-- The rule of a group for a declaration, without the ordinal in its name. -/
def NsgArgs.ruleFor (args : NsgArgs) (decl : RuleDecl) : NsgRule := (args.empty.ruleOf 0 decl).erase

/-- The declarations for the group of a name. -/
def declsFor (g : String) (decls : List (String × RuleDecl)) : List RuleDecl :=
  (decls.filter fun a => a.1 = g).map Prod.snd

@[simp] theorem declsFor_nil (g : String) : declsFor g [] = [] := rfl

theorem declsFor_append (g : String) (decls decls' : List (String × RuleDecl)) :
    declsFor g (decls ++ decls') = declsFor g decls ++ declsFor g decls' := by
  simp [declsFor]

theorem declsFor_cons_self (g : String) (decl : RuleDecl) (decls : List (String × RuleDecl)) :
    declsFor g ((g, decl) :: decls) = decl :: declsFor g decls := by
  simp [declsFor]

theorem declsFor_cons_of_ne {g name : String} (h : name ≠ g) (decl : RuleDecl)
    (decls : List (String × RuleDecl)) :
    declsFor g ((name, decl) :: decls) = declsFor g decls := by
  simp [declsFor, h]

theorem declsFor_map_self (g : String) (decls : List RuleDecl) :
    declsFor g (decls.map fun decl => (g, decl)) = decls := by
  induction decls with
  | nil => rfl
  | cons decl decls ih => rw [List.map_cons, declsFor_cons_self, ih]

theorem declsFor_map_of_ne {g name : String} (h : name ≠ g) (decls : List RuleDecl) :
    declsFor g (decls.map fun decl => (name, decl)) = [] := by
  induction decls with
  | nil => rfl
  | cons decl decls ih => rw [List.map_cons, declsFor_cons_of_ne h, ih]

theorem mem_declsFor {g : String} {decl : RuleDecl} {decls : List (String × RuleDecl)} :
    decl ∈ declsFor g decls ↔ (g, decl) ∈ decls := by
  simp [declsFor]

/-! ## Adding rules to the groups of a world -/

/-- A group has grown by declarations: it is the same group, and has their rules besides its own. -/
structure Nsg.GrownBy (decls : List RuleDecl) (nsg nsg' : Nsg) : Prop where
  same : nsg.SameGroup nsg'
  rules : nsg'.rules.map NsgRule.erase =
    nsg.rules.map NsgRule.erase ++ decls.map fun decl => (nsg.ruleOf 0 decl).erase

theorem Nsg.GrownBy.refl (nsg : Nsg) : nsg.GrownBy [] nsg := ⟨SameGroup.refl nsg, by simp⟩

theorem Nsg.GrownBy.trans {decls decls' : List RuleDecl} {nsg nsg' nsg'' : Nsg}
    (h : nsg.GrownBy decls nsg') (h' : nsg'.GrownBy decls' nsg'') :
    nsg.GrownBy (decls ++ decls') nsg'' := by
  refine ⟨h.same.trans h'.same, ?_⟩
  rw [h'.rules, h.rules, List.map_append, List.append_assoc]
  simp only [h.same.ruleOf_eq]

theorem Nsg.grownBy_of_addRule {decl : RuleDecl} {nsg nsg' : Nsg}
    (h : nsg.addRule decl = .ok nsg') : nsg.GrownBy [decl] nsg' := by
  obtain ⟨-, rfl⟩ := addRule_eq_ok.mp h
  exact ⟨⟨rfl, rfl, rfl⟩, by simp only [List.map_append, List.map_cons, List.map_nil]; rfl⟩

theorem Nsg.grownBy_of_addRules {decls : List RuleDecl} {nsg nsg' : Nsg}
    (h : addRules decls nsg = .ok nsg') : nsg.GrownBy decls nsg' := by
  induction decls generalizing nsg with
  | nil =>
    obtain rfl := Except.ok.inj h
    exact GrownBy.refl nsg
  | cons decl decls ih =>
    obtain ⟨nsg₁, hadd, hrest⟩ := bind_eq_ok.mp h
    exact (grownBy_of_addRule hadd).trans (ih hrest)

/-- The groups of a world have grown by declarations; what was not there is not named by any. -/
structure World.GrownBy (decls : List (String × RuleDecl)) (w w' : World) : Prop where
  some : ∀ g nsg, w.nsgs g = some nsg →
    ∃ nsg', w'.nsgs g = some nsg' ∧ nsg.GrownBy (declsFor g decls) nsg'
  none : ∀ g, w.nsgs g = none → w'.nsgs g = none ∧ declsFor g decls = []

/-- Growth makes no group and loses none. -/
theorem World.GrownBy.isSome_iff {decls : List (String × RuleDecl)} {w w' : World}
    (h : GrownBy decls w w') (g : String) : (w'.nsgs g).isSome ↔ (w.nsgs g).isSome := by
  cases hnsg : w.nsgs g with
  | none => rw [(h.none g hnsg).1]
  | some nsg =>
    obtain ⟨nsg', hnsg', -⟩ := h.some g nsg hnsg
    rw [hnsg']
    exact Iff.rfl

/-- Growth composes. -/
theorem World.GrownBy.trans {decls decls' : List (String × RuleDecl)} {w w' w'' : World}
    (h : GrownBy decls w w') (h' : GrownBy decls' w' w'') : GrownBy (decls ++ decls') w w'' := by
  refine ⟨fun g nsg hnsg => ?_, fun g hnone => ?_⟩
  · obtain ⟨nsg₁, hnsg₁, h₁⟩ := h.some g nsg hnsg
    obtain ⟨nsg₂, hnsg₂, h₂⟩ := h'.some g nsg₁ hnsg₁
    rw [declsFor_append]
    exact ⟨nsg₂, hnsg₂, h₁.trans h₂⟩
  · obtain ⟨hnone₁, h₁⟩ := h.none g hnone
    obtain ⟨hnone₂, h₂⟩ := h'.none g hnone₁
    rw [declsFor_append, h₁, h₂]
    exact ⟨hnone₂, rfl⟩

namespace World

variable {w w' : World}

/-- **The step lemma of `add_rule`**: one group grows by one rule. -/
theorem grownBy_of_addRuleTo {name : String} {decl : RuleDecl}
    (h : (addRuleTo name decl).run w = (.ok ⟨⟩, w')) :
    w'.vcn = w.vcn ∧ GrownBy [(name, decl)] w w' := by
  obtain ⟨nsg, hnsg, hrun⟩ := run_lookup_bind_eq_ok.mp h
  simp only [run_bind_eq_ok, run_attempt, run_modify, Prod.mk.injEq] at hrun
  obtain ⟨nsg', _, ⟨hadd, rfl⟩, -, rfl⟩ := hrun
  refine ⟨rfl, fun g old hold => ?_, fun g hnone => ?_⟩
  · by_cases hg : g = name
    · subst hg
      obtain rfl := Option.some.inj (hnsg.symm.trans hold)
      refine ⟨nsg', Function.update_self _ _ _, ?_⟩
      rw [declsFor_cons_self, declsFor_nil]
      exact Nsg.grownBy_of_addRule hadd
    · refine ⟨old, (Function.update_of_ne hg _ _).trans hold, ?_⟩
      rw [declsFor_cons_of_ne (Ne.symm hg), declsFor_nil]
      exact Nsg.GrownBy.refl old
  · have hg : g ≠ name := by
      rintro rfl
      cases hnsg.symm.trans hnone
    exact ⟨(Function.update_of_ne hg _ _).trans hnone, declsFor_cons_of_ne (Ne.symm hg) _ _⟩

/-- **The run lemma**: the groups grow by all the declarations. -/
theorem grownBy_of_each {decls : List (String × RuleDecl)}
    (h : (each (fun a => addRuleTo a.1 a.2) decls).run w = (.ok ⟨⟩, w')) :
    w'.vcn = w.vcn ∧ GrownBy decls w w' := by
  induction decls generalizing w with
  | nil =>
    obtain ⟨-, rfl⟩ := Prod.mk.inj h
    exact ⟨rfl, fun g nsg hnsg => ⟨nsg, hnsg, Nsg.GrownBy.refl nsg⟩, fun g hnone => ⟨hnone, rfl⟩⟩
  | cons a decls ih =>
    rw [each_cons, run_bind_eq_ok] at h
    obtain ⟨_, w₁, hadd, hrest⟩ := h
    obtain ⟨hvcn, hgrown⟩ := grownBy_of_addRuleTo hadd
    obtain ⟨hvcn', hgrown'⟩ := ih hrest
    exact ⟨hvcn'.trans hvcn, hgrown.trans hgrown'⟩

/-- Growth is about the groups alone. -/
theorem GrownBy.congr {decls : List (String × RuleDecl)} {w'' : World} (h : GrownBy decls w w')
    (heq : w''.nsgs = w'.nsgs) : GrownBy decls w w'' := by
  refine ⟨fun g nsg hnsg => ?_, fun g hnone => ?_⟩
  · rw [heq]
    exact h.some g nsg hnsg
  · rw [heq]
    exact h.none g hnone

end World

end CloudSpells
