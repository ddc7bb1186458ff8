import CloudSpells.Spells.Ports

/-!
# Spells/Refusal — what a refused relationship leaves behind

`serves` writes to two groups and to the network one after another, and undoes nothing: whichever
write is refused, the writes before it stay.  So a call that raises leaves everything as it was
exactly where its very first write was refused — the label for the port is in use on the source —
and otherwise only by not raising at all (`serves_atomic_iff`).
-/

namespace CloudSpells

open Machinery Machinery.Exec

/-- The rule labels, the rule counter and the rules of a group. -/
def Nsg.written (nsg : Nsg) : Finset String × ℕ × List NsgRule :=
  (nsg.ruleLabels, nsg.nextRuleIndex, nsg.rules)

/-- The label of the source's rule for the port. -/
def outLabel (target : Nsg) (port : ℤ) : String := s!"out-{target.name}-{port}"

namespace World

/-- Neither group and no list of the network has changed. -/
structure Untouched (src tgt : String) (w w' : World) : Prop where
  source : (w'.nsgs src).map Nsg.written = (w.nsgs src).map Nsg.written
  target : (w'.nsgs tgt).map Nsg.written = (w.nsgs tgt).map Nsg.written
  rules : w'.vcn.rules = w.vcn.rules
  fingerprints : w'.vcn.appliedAmbientRuleFingerprints = w.vcn.appliedAmbientRuleFingerprints

/-- Nothing is left of a call that raises. -/
def AtomicAt (w : World) (src tgt : String) (port : ℤ) (withSsh : Bool) : Prop :=
  ∀ e, (serves src tgt port withSsh).outcome w = .error e →
    Untouched src tgt w ((serves src tgt port withSsh).after w)

/-! ## A label in use stays in use -/

/-- The group of a name has used a label. -/
def HasLabel (g label : String) (w : World) : Prop :=
  ∃ nsg, w.nsgs g = some nsg ∧ label ∈ nsg.ruleLabels

variable {w : World} {g label src tgt : String} {self target : Nsg} {port : ℤ} {withSsh : Bool}

/-- **`add_rule` takes no label back.** -/
theorem preserves_hasLabel_addRuleTo (name : String) (decl : RuleDecl) :
    Preserves (HasLabel g label) (addRuleTo name decl) := by
  rintro w ⟨nsg, hnsg, hlabel⟩
  cases hname : w.nsgs name with
  | none =>
    have hrun : (addRuleTo name decl).run w = (.error (.nameError name), w) := by
      rw [addRuleTo, run_bind_error (run_lookup_of_none hname)]
    rw [after, hrun]
    exact ⟨nsg, hnsg, hlabel⟩
  | some old =>
    by_cases hused : decl.1 ∈ old.ruleLabels
    · obtain ⟨e, hrun⟩ := run_addRuleTo_of_used hname hused
      rw [after, hrun]
      exact ⟨nsg, hnsg, hlabel⟩
    · rw [after, run_addRuleTo_of_fresh hname hused]
      by_cases hg : g = name
      · subst hg
        obtain rfl := Option.some.inj (hname.symm.trans hnsg)
        exact ⟨_, take_self w g old decl, Finset.mem_insert_of_mem hlabel⟩
      · exact ⟨nsg, (take_of_ne hg w old decl).trans hnsg, hlabel⟩

/-- The rest of a call, after its first write. -/
private theorem preserves_hasLabel_rest (decls : List (String × RuleDecl))
    (calls : World → List RuleCall) :
    Preserves (HasLabel g label) (each (fun a => addRuleTo a.1 a.2) decls >>= fun _ =>
      get >>= fun w => onVcn (register (calls w))) :=
  Preserves.bind (preserves_each fun _ _ => preserves_hasLabel_addRuleTo _ _) fun _ =>
    preserves_get_bind fun _ h => h

/-! ## The first write decides -/

/-- A call whose first write is refused writes nothing. -/
theorem after_serves_of_used (hself : w.nsgs src = some self) (htarget : w.nsgs tgt = some target)
    (h : outLabel target port ∈ self.ruleLabels) : (serves src tgt port withSsh).after w = w := by
  obtain ⟨e, hused⟩ : ∃ e,
      (addRuleTo src (allowToNsg (outLabel target port) target.nsg port)).run w = (.error e, w) :=
    run_addRuleTo_of_used hself h
  have hdecls : (each (fun a => addRuleTo a.1 a.2)
      (Nsg.relationDecls src tgt self target port withSsh)).run w = (.error e, w) :=
    run_bind_error hused
  rw [after, run_serves hself htarget, relate_eq, run_bind_error hdecls]

/-- **After the first write the source has the label, however the call ends.** -/
theorem hasLabel_of_fresh (hself : w.nsgs src = some self) (htarget : w.nsgs tgt = some target)
    (h : outLabel target port ∉ self.ruleLabels) :
    HasLabel src (outLabel target port) ((serves src tgt port withSsh).after w) := by
  have hfirst : (addRuleTo src (allowToNsg (outLabel target port) target.nsg port)).run w =
      (.ok ⟨⟩, w.take src self (allowToNsg (outLabel target port) target.nsg port)) :=
    run_addRuleTo_of_fresh hself h
  have hsplit : relate src tgt self target port withSsh =
      (addRuleTo src (allowToNsg (outLabel target port) target.nsg port) >>= fun _ =>
        each (fun a => addRuleTo a.1 a.2) (Nsg.relationDecls src tgt self target port withSsh).tail
          >>= fun _ => get >>= fun w =>
            onVcn (register (Nsg.relationCalls w.vcn.toVcnBase self target port withSsh))) := by
    rw [relate_eq]
    exact bind_assoc _ (fun _ => each (fun a : String × RuleDecl => addRuleTo a.1 a.2)
      (Nsg.relationDecls src tgt self target port withSsh).tail) _
  rw [after, run_serves hself htarget, hsplit]
  refine after_bind ?_ fun _ => preserves_hasLabel_rest _ _
  rw [after, hfirst]
  exact ⟨_, take_self w src self _, Finset.mem_insert_self _ _⟩

/-- The rules of one call are those of one port. -/
theorem accepts_relationDecls_iff (hne : src ≠ tgt) (hself : w.nsgs src = some self)
    (htarget : w.nsgs tgt = some target) :
    w.Accepts (Nsg.relationDecls src tgt self target port withSsh) ↔
      LabelsFree self target (withSsh && target.acceptsSsh) [port] := by
  have hone : portDecls src tgt self target withSsh [port] =
      Nsg.relationDecls src tgt self target port withSsh := List.flatMap_singleton _ _
  rw [← hone, accepts_portDecls_iff hne hself htarget (List.nodup_singleton port)]
  exact and_iff_left fun _ => le_refl 1

/-- **A call is atomic** where its first write is refused, or none is. -/
theorem atomicAt_iff (hne : src ≠ tgt) (hself : w.nsgs src = some self)
    (htarget : w.nsgs tgt = some target) :
    w.AtomicAt src tgt port withSsh ↔ outLabel target port ∈ self.ruleLabels ∨
      LabelsFree self target (withSsh && target.acceptsSsh) [port] ∧
        Knows w.vcn (Nsg.relationCalls w.vcn.toVcnBase self target port withSsh) := by
  rw [← accepts_relationDecls_iff hne hself htarget, ← exists_run_serves_iff hself htarget]
  constructor
  · intro hatomic
    by_cases hused : outLabel target port ∈ self.ruleLabels
    · exact .inl hused
    · refine .inr ?_
      rcases hrun : (serves src tgt port withSsh).run w with ⟨_ | _, w'⟩
      · have hlabel : HasLabel src (outLabel target port)
            ((serves src tgt port withSsh).after w) := hasLabel_of_fresh hself htarget hused
        rw [after, hrun] at hlabel
        have hsame := (hatomic _ (congrArg Prod.fst hrun)).source
        obtain ⟨nsg, hnsg, hmem⟩ := hlabel
        rw [after, hrun, hnsg, hself] at hsame
        have hlabels : nsg.ruleLabels = self.ruleLabels :=
          congrArg Prod.fst (Option.some.inj hsame)
        exact absurd (hlabels ▸ hmem) hused
      · exact ⟨w', rfl⟩
  · rintro (hused | ⟨w', hrun⟩) e he
    · rw [after_serves_of_used hself htarget hused]
      exact ⟨rfl, rfl, rfl, rfl⟩
    · rw [outcome, hrun] at he
      cases he

/-- **In every run of a program, a call of `serves` is atomic exactly where its first write is
refused** — the label for the port is in use on the source — **or no write is**: the labels are free
and the network is open or knows the calls. -/
theorem serves_atomic_iff {w₀ : World} {ops : List SpellOp} (hne : src ≠ tgt)
    (hself : (replay SpellOp.exec ops w₀).nsgs src = some self)
    (htarget : (replay SpellOp.exec ops w₀).nsgs tgt = some target) :
    (replay SpellOp.exec ops w₀).AtomicAt src tgt port withSsh ↔
      outLabel target port ∈ self.ruleLabels ∨
        LabelsFree self target (withSsh && target.acceptsSsh) [port] ∧
          Knows (replay SpellOp.exec ops w₀).vcn (Nsg.relationCalls
            (replay SpellOp.exec ops w₀).vcn.toVcnBase self target port withSsh) :=
  atomicAt_iff hne hself htarget

end World

/-! ## A call refused at once, and a half-open path -/

/-- `web = Nsg("web", role=INTERNET_EDGE, …); api = Nsg("api", role=APP_SERVER, …);
web.serves(api, 8080)`. -/
def webServesApi : List SpellOp := [.nsg webArgs, .nsg apiArgs, .serves "web" "api" 8080 true]

/-- The same call again raises, and changes nothing. -/
theorem serves_atomic_iff_webApi :
    (World.serves "web" "api" 8080 true).outcome
        (replay SpellOp.exec webServesApi (World.ofVcn defaultBase.fresh)) =
      .error (.valueError
        "Nsg rule label must be unique within this NSG; duplicate label: 'out-api-8080'") ∧
    (replay SpellOp.exec webServesApi (World.ofVcn defaultBase.fresh)).AtomicAt "web" "api" 8080
      true := by
  obtain ⟨self, hself⟩ : ∃ self, (replay SpellOp.exec webServesApi
      (World.ofVcn defaultBase.fresh)).nsgs "web" = some self := ⟨_, rfl⟩
  obtain ⟨target, htarget⟩ : ∃ target, (replay SpellOp.exec webServesApi
      (World.ofVcn defaultBase.fresh)).nsgs "api" = some target := ⟨_, rfl⟩
  refine ⟨rfl, (World.serves_atomic_iff (by decide) hself htarget).mpr (.inl ?_)⟩
  obtain rfl := Option.some.inj hself
  obtain rfl := Option.some.inj htarget
  decide

/-- `lb = Nsg("lb", …); web = Nsg("web", …); lb.serves(web, 8080)`. -/
def lbServesWeb : List SpellOp :=
  [.nsg (bareArgs "lb"), .nsg (bareArgs "web"), .serves "lb" "web" 8080 true]

/-- The call for a second port raises once the path for the port is open at both ends. -/
theorem lbServesWeb_halfOpen : ¬ ∀ (v₀ : Vcn) (ops : List SpellOp) (src tgt : String)
    (self target : Nsg) (port : ℤ) (withSsh : Bool), src ≠ tgt →
    (replay SpellOp.exec ops (World.ofVcn v₀)).nsgs src = some self →
    (replay SpellOp.exec ops (World.ofVcn v₀)).nsgs tgt = some target →
    (replay SpellOp.exec ops (World.ofVcn v₀)).AtomicAt src tgt port withSsh := by
  intro hall
  obtain ⟨self, hself⟩ : ∃ self, (replay SpellOp.exec lbServesWeb
      (World.ofVcn defaultBase.fresh)).nsgs "lb" = some self := ⟨_, rfl⟩
  obtain ⟨target, htarget⟩ : ∃ target, (replay SpellOp.exec lbServesWeb
      (World.ofVcn defaultBase.fresh)).nsgs "web" = some target := ⟨_, rfl⟩
  have hatomic := hall defaultBase.fresh lbServesWeb "lb" "web" self target 443 true (by decide)
    hself htarget
  -- The egress rule of `lb` for port 443 is its third; the call found two.
  have hindex : some 3 = some 2 :=
    congrArg (Option.map fun written : Finset String × ℕ × List NsgRule => written.2.1)
      (hatomic _ rfl).source
  exact absurd hindex (by decide)

end CloudSpells
