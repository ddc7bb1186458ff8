import CloudSpells.Spells.Program

/-!
# Spells/Labels — when the groups of a world take their rules

`add_rule` refuses a label the group has used, so whether a run of rules is added depends on the
labels alone: each group must see its labels fresh and no label twice (`Accepts`).  A relationship
declared on an open network returns exactly where its rules are accepted, and on a finalised one if
besides the network knows its calls (`exists_run_relate_iff`).
-/

namespace CloudSpells

open Machinery Machinery.Exec

/-- The group with one more rule. -/
def Nsg.withRule (nsg : Nsg) (decl : RuleDecl) : Nsg :=
  { nsg with
    ruleLabels := insert decl.1 nsg.ruleLabels
    nextRuleIndex := nsg.nextRuleIndex + 1
    rules := nsg.rules ++ [nsg.ruleOf nsg.nextRuleIndex decl] }

namespace World

variable {w w' : World}

/-- The world in which a group has taken one more rule. -/
def take (w : World) (name : String) (nsg : Nsg) (decl : RuleDecl) : World :=
  { w with nsgs := Function.update w.nsgs name (some (nsg.withRule decl)) }

theorem take_self (w : World) (name : String) (nsg : Nsg) (decl : RuleDecl) :
    (w.take name nsg decl).nsgs name = some (nsg.withRule decl) := Function.update_self _ _ _

theorem take_of_ne {g name : String} (h : g ≠ name) (w : World) (nsg : Nsg) (decl : RuleDecl) :
    (w.take name nsg decl).nsgs g = w.nsgs g := Function.update_of_ne h _ _

/-- A rule is added under a fresh label. -/
theorem run_addRuleTo_of_fresh {name : String} {nsg : Nsg} {decl : RuleDecl}
    (hnsg : w.nsgs name = some nsg) (h : decl.1 ∉ nsg.ruleLabels) :
    (addRuleTo name decl).run w = (.ok ⟨⟩, w.take name nsg decl) := by
  rw [addRuleTo, run_bind_ok (run_lookup_of_some hnsg), Nsg.addRule_eq_ok.mpr ⟨h, rfl⟩]
  rfl

/-- …and refused under a used one, before anything is written. -/
theorem run_addRuleTo_of_used {name : String} {nsg : Nsg} {decl : RuleDecl}
    (hnsg : w.nsgs name = some nsg) (h : decl.1 ∈ nsg.ruleLabels) :
    ∃ e, (addRuleTo name decl).run w = (.error e, w) := by
  rw [addRuleTo, run_bind_ok (run_lookup_of_some hnsg), Nsg.addRule, if_pos h]
  exact ⟨_, rfl⟩

/-- Every group sees its labels fresh, and no label twice. -/
def Accepts (w : World) (decls : List (String × RuleDecl)) : Prop :=
  ∀ g nsg, w.nsgs g = some nsg → ((declsFor g decls).map Prod.fst).Nodup ∧
    ∀ decl ∈ declsFor g decls, decl.1 ∉ nsg.ruleLabels

theorem accepts_nil : w.Accepts [] := fun _ _ _ => ⟨List.nodup_nil, fun _ h => by cases h⟩

/-- **Acceptance is decided rule by rule.** -/
theorem accepts_cons {name : String} {nsg : Nsg} {decl : RuleDecl}
    {decls : List (String × RuleDecl)} (hnsg : w.nsgs name = some nsg) :
    w.Accepts ((name, decl) :: decls) ↔
      decl.1 ∉ nsg.ruleLabels ∧ (w.take name nsg decl).Accepts decls := by
  constructor
  · intro h
    have hself := h name nsg hnsg
    rw [declsFor_cons_self, List.map_cons, List.nodup_cons] at hself
    obtain ⟨⟨hnew, hnodup⟩, hfresh⟩ := hself
    refine ⟨hfresh decl List.mem_cons_self, fun g old hold => ?_⟩
    by_cases hg : g = name
    · subst hg
      obtain rfl := Option.some.inj ((take_self w g nsg decl).symm.trans hold)
      refine ⟨hnodup, fun d hd hmem => ?_⟩
      rcases Finset.mem_insert.mp hmem with heq | hmem
      · exact hnew (List.mem_map.mpr ⟨d, hd, heq⟩)
      · exact hfresh d (List.mem_cons_of_mem _ hd) hmem
    · have hold' := (take_of_ne hg w nsg decl).symm.trans hold
      have hother := h g old hold'
      rwa [declsFor_cons_of_ne (Ne.symm hg)] at hother
  · rintro ⟨hlabel, h⟩ g old hold
    by_cases hg : g = name
    · subst hg
      obtain rfl := Option.some.inj (hnsg.symm.trans hold)
      obtain ⟨hnodup, hfresh⟩ := h g _ (take_self w g nsg decl)
      rw [declsFor_cons_self, List.map_cons, List.nodup_cons]
      refine ⟨⟨fun hmem => ?_, hnodup⟩, fun d hd => ?_⟩
      · obtain ⟨d, hd, heq⟩ := List.mem_map.mp hmem
        exact hfresh d hd (Finset.mem_insert.mpr (.inl heq))
      · rcases List.mem_cons.mp hd with rfl | hd
        · exact hlabel
        · exact fun hmem => hfresh d hd (Finset.mem_insert_of_mem hmem)
    · rw [declsFor_cons_of_ne (Ne.symm hg)]
      exact h g old ((take_of_ne hg w nsg decl).trans hold)

/-- The groups that are to take rules are there. -/
def Has (w : World) (decls : List (String × RuleDecl)) : Prop :=
  ∀ a ∈ decls, (w.nsgs a.1).isSome

/-- A rule taken makes no group and loses none. -/
theorem isSome_take {name : String} {nsg : Nsg} {decl : RuleDecl} (hnsg : w.nsgs name = some nsg)
    (g : String) : ((w.take name nsg decl).nsgs g).isSome = (w.nsgs g).isSome := by
  by_cases hg : g = name
  · subst hg
    rw [take_self, hnsg]
    rfl
  · rw [take_of_ne hg]

/-- **A run of rules is added exactly where the groups accept it.** -/
theorem exists_run_each_iff {decls : List (String × RuleDecl)} (h : w.Has decls) :
    (∃ w', (each (fun a => addRuleTo a.1 a.2) decls).run w = (.ok ⟨⟩, w')) ↔ w.Accepts decls := by
  induction decls generalizing w with
  | nil => exact iff_of_true ⟨w, rfl⟩ accepts_nil
  | cons a decls ih =>
    obtain ⟨name, decl⟩ := a
    obtain ⟨nsg, hnsg⟩ := Option.isSome_iff_exists.mp (h (name, decl) List.mem_cons_self)
    rw [accepts_cons hnsg]
    by_cases hlabel : decl.1 ∈ nsg.ruleLabels
    · refine iff_of_false (fun hrun => ?_) fun hcons => hcons.1 hlabel
      obtain ⟨w', hrun⟩ := hrun
      obtain ⟨e, hused⟩ := run_addRuleTo_of_used hnsg hlabel
      rw [each_cons, run_bind_error hused] at hrun
      cases (Prod.mk.inj hrun).1
    · have hhas : (w.take name nsg decl).Has decls := fun b hb => by
        rw [isSome_take hnsg]
        exact h b (List.mem_cons_of_mem _ hb)
      rw [each_cons, run_bind_ok (run_addRuleTo_of_fresh hnsg hlabel), ih hhas]
      exact (and_iff_right hlabel).symm

/-- Rules accepted in one run are accepted in two. -/
theorem accepts_append {decls decls' : List (String × RuleDecl)} (h : w.Has decls)
    (hrun : (each (fun a => addRuleTo a.1 a.2) decls).run w = (.ok ⟨⟩, w')) :
    w.Accepts (decls ++ decls') ↔ w'.Accepts decls' := by
  induction decls generalizing w with
  | nil =>
    obtain ⟨-, rfl⟩ := Prod.mk.inj hrun
    exact Iff.rfl
  | cons a decls ih =>
    obtain ⟨name, decl⟩ := a
    obtain ⟨nsg, hnsg⟩ := Option.isSome_iff_exists.mp (h (name, decl) List.mem_cons_self)
    have hlabel : decl.1 ∉ nsg.ruleLabels := fun hused => by
      obtain ⟨e, hused⟩ := run_addRuleTo_of_used hnsg hused
      rw [each_cons, run_bind_error hused] at hrun
      cases (Prod.mk.inj hrun).1
    rw [each_cons, run_bind_ok (run_addRuleTo_of_fresh hnsg hlabel)] at hrun
    have hhas : (w.take name nsg decl).Has decls := fun b hb => by
      rw [isSome_take hnsg]
      exact h b (List.mem_cons_of_mem _ hb)
    rw [List.cons_append, accepts_cons hnsg, and_iff_right hlabel, ih hhas hrun]

/-- What is accepted is accepted in part. -/
theorem Accepts.left {decls decls' : List (String × RuleDecl)} (h : w.Accepts (decls ++ decls')) :
    w.Accepts decls := by
  intro g nsg hnsg
  have hg := h g nsg hnsg
  rw [declsFor_append, List.map_append] at hg
  exact ⟨hg.1.of_append_left, fun decl hdecl => hg.2 decl (List.mem_append_left _ hdecl)⟩

/-- Acceptance is about the groups alone. -/
theorem accepts_congr {decls : List (String × RuleDecl)} (h : w'.nsgs = w.nsgs) :
    w'.Accepts decls ↔ w.Accepts decls := by
  unfold Accepts
  rw [h]

/-! ## When a relationship is declared -/

/-- The calls would all return: the network is open, or knows every one of them. -/
def Knows (v : Vcn) (calls : List RuleCall) : Prop :=
  v.securityListsFinalized = true →
    ∀ c ∈ calls, ∃ fp, c.fingerprint = some fp ∧ fp ∈ v.appliedAmbientRuleFingerprints

end World

/-- On a finalised network a run of calls returns where it knows them all, and writes nothing. -/
theorem run_register_of_finalized {v : Vcn} (h : v.securityListsFinalized = true)
    {calls : List RuleCall} (hknown : ∀ c ∈ calls,
      ∃ fp, c.fingerprint = some fp ∧ fp ∈ v.appliedAmbientRuleFingerprints) :
    (register calls).run v = (.ok ⟨⟩, v) := by
  induction calls with
  | nil => rfl
  | cons c calls ih =>
    have hc : c.exec.run v = (.ok ⟨⟩, v) := by
      rw [run_exec_of_finalized h, if_pos (hknown c List.mem_cons_self)]
    rw [register, each_cons, run_bind_ok hc]
    exact ih fun d hd => hknown d (List.mem_cons_of_mem _ hd)

/-- **A run of calls returns** on an open network, and on a finalised one that knows them all. -/
theorem exists_run_register_iff {v : Vcn} {calls : List RuleCall} :
    (∃ v', (register calls).run v = (.ok ⟨⟩, v')) ↔ World.Knows v calls := by
  cases hfinal : v.securityListsFinalized with
  | false =>
    exact iff_of_true ⟨_, run_register_of_open hfinal calls⟩ fun h => by rw [hfinal] at h; cases h
  | true =>
    constructor
    · rintro ⟨v', hrun⟩ -
      induction calls with
      | nil => exact fun c hc => by cases hc
      | cons c calls ih =>
        rw [register, each_cons, run_bind_eq_ok] at hrun
        obtain ⟨_, v₁, hc, hrest⟩ := hrun
        rw [run_exec_of_finalized hfinal] at hc
        by_cases hknown : ∃ fp, c.fingerprint = some fp ∧ fp ∈ v.appliedAmbientRuleFingerprints
        · rw [if_pos hknown] at hc
          obtain ⟨-, rfl⟩ := Prod.mk.inj hc
          intro d hd
          rcases List.mem_cons.mp hd with rfl | hd
          · exact hknown
          · exact ih hrest d hd
        · rw [if_neg hknown] at hc
          cases (Prod.mk.inj hc).1
    · exact fun h => ⟨v, run_register_of_finalized hfinal (h hfinal)⟩

namespace World

variable {w w' : World} {src tgt : String} {self target : Nsg} {port : ℤ} {withSsh : Bool}

theorem has_relationDecls (hself : w.nsgs src = some self) (htarget : w.nsgs tgt = some target) :
    w.Has (Nsg.relationDecls src tgt self target port withSsh) := by
  intro a ha
  simp only [Nsg.relationDecls, List.mem_append, List.mem_cons, List.not_mem_nil, or_false,
    List.mem_ite_nil_right] at ha
  rcases ha with (rfl | rfl) | ⟨-, rfl | rfl⟩
  all_goals first
    | exact Option.isSome_iff_exists.mpr ⟨self, hself⟩
    | exact Option.isSome_iff_exists.mpr ⟨target, htarget⟩

/-- A relationship that was declared, taken apart: its rules were added, then its calls made. -/
theorem exists_each_of_serves (hself : w.nsgs src = some self) (htarget : w.nsgs tgt = some target)
    (h : (serves src tgt port withSsh).run w = (.ok ⟨⟩, w')) :
    ∃ w₁, (each (fun a => addRuleTo a.1 a.2)
        (Nsg.relationDecls src tgt self target port withSsh)).run w = (.ok ⟨⟩, w₁) ∧
      w'.nsgs = w₁.nsgs := by
  rw [run_serves hself htarget, relate_eq, run_bind_eq_ok] at h
  obtain ⟨_, w₁, hdecls, hreg⟩ := h
  rw [run_get_bind, run_onVcn_eq_ok] at hreg
  exact ⟨w₁, hdecls, hreg.2⟩

/-- **A relationship is declared** exactly where the groups accept its rules and the network its
calls. -/
theorem exists_run_serves_iff (hself : w.nsgs src = some self)
    (htarget : w.nsgs tgt = some target) :
    (∃ w', (serves src tgt port withSsh).run w = (.ok ⟨⟩, w')) ↔
      w.Accepts (Nsg.relationDecls src tgt self target port withSsh) ∧
        Knows w.vcn (Nsg.relationCalls w.vcn.toVcnBase self target port withSsh) := by
  rw [run_serves hself htarget, ← exists_run_each_iff (has_relationDecls hself htarget),
    ← exists_run_register_iff]
  constructor
  · rintro ⟨w', hrun⟩
    rw [← run_serves hself htarget] at hrun
    obtain ⟨w₁, hdecls, -⟩ := exists_each_of_serves hself htarget hrun
    rw [run_serves hself htarget] at hrun
    exact ⟨⟨w₁, hdecls⟩, w'.vcn, (run_relate_eq_ok hrun).2⟩
  · rintro ⟨⟨w₁, hdecls⟩, v', hreg⟩
    have hvcn := (grownBy_of_each hdecls).1
    refine ⟨{ w₁ with vcn := v' }, ?_⟩
    rw [relate_eq, run_bind_ok hdecls, run_get_bind, run_onVcn_eq_ok, hvcn]
    exact ⟨hreg, rfl⟩

end World

end CloudSpells
