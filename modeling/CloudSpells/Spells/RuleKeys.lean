import CloudSpells.Spells.Components
import CloudSpells.Spells.Ports
import Mathlib.Data.Finset.Card
import Mathlib.Data.Finset.Lattice.Lemmas

/-!
# Spells/RuleKeys — what the rules of a group are declared for

A role and a relationship give a group rules for a port from the internet, for a peer and a port,
for the SSH channel beside it, and the two of the ambient egress.  Each of these keys has a label of
its own (`label_injOn`), so a label is refused only where its key was declared before.

`declaredOf` follows a program and keeps, for the groups it has, the keys they were declared with;
whatever the program does, the rules of a group are among these, one for each label and each number
the counter has given out (`rulesKept_of_program`).
-/

namespace CloudSpells

open Machinery Machinery.Exec Machinery.Segments

/-! ## Keys and labels -/

/-- What a text begins with, it begins with whatever comes after. -/
private theorem take_toList_append {n : ℕ} {s : String} (t : String) (h : n ≤ s.toList.length) :
    (s ++ t).toList.take n = s.toList.take n := by
  rw [String.toList_append, List.take_append_of_le_length h]

/-- What a label ends in: the port of a relationship, or `ssh`. -/
inductive LabelTail
  | port (p : ℤ)
  | ssh
  deriving DecidableEq, Repr

namespace LabelTail

def text : LabelTail → String
  | port p => toString p
  | ssh => "ssh"

/-- The port is one. -/
def Nonneg : LabelTail → Prop
  | port p => 0 ≤ p
  | ssh => True

theorem dash_notMem_text {tail : LabelTail} (h : tail.Nonneg) : '-' ∉ tail.text.toList := by
  cases tail with
  | port p =>
    obtain ⟨n, rfl⟩ := Int.eq_ofNat_of_zero_le h
    intro hdash
    exact absurd (isDigit_of_mem_nat hdash) (by decide)
  | ssh => decide

theorem text_injective : Function.Injective text := by
  have hne : ∀ p : ℤ, toString p ≠ "ssh" := fun p h => by
    have hmem : "ssh".toList ∈ segments '-' (toString p) := by
      rw [h]
      decide
    exact notMem_segments_int p ⟨'s', by decide, by decide⟩ hmem
  intro tail tail' h
  cases tail with
  | port p =>
    cases tail' with
    | port p' => exact congrArg port (Int.repr_injective h)
    | ssh => exact absurd h (hne p)
  | ssh =>
    cases tail' with
    | port p' => exact absurd h.symm (hne p')
    | ssh => rfl

end LabelTail

/-- What a rule of a group is for. -/
inductive RuleKey
  | outTo (tgt : String) (tail : LabelTail)
  | inFrom (src : String) (tail : LabelTail)
  | internetIn (p : ℤ)
  | svcOut
  | inetOut
  deriving DecidableEq, Repr

namespace RuleKey

/-- The label of the rule. -/
def label : RuleKey → String
  | outTo tgt (.port p) => s!"out-{tgt}-{p}"
  | outTo tgt .ssh => s!"out-{tgt}-ssh"
  | inFrom src (.port p) => s!"in-{src}-{p}"
  | inFrom src .ssh => s!"in-{src}-ssh"
  | internetIn p => s!"internet-in-{p}"
  | svcOut => "svc-out"
  | inetOut => "inet-out"

/-- The port, if there is one, is not negative. -/
def Nonneg : RuleKey → Prop
  | outTo _ tail | inFrom _ tail => tail.Nonneg
  | internetIn p => 0 ≤ p
  | svcOut | inetOut => True

theorem label_outTo (tgt : String) (tail : LabelTail) :
    (outTo tgt tail).label = "out-" ++ (tgt ++ "-" ++ tail.text) := by
  cases tail with
  | port p =>
    change "out-" ++ tgt ++ "-" ++ toString p = "out-" ++ (tgt ++ "-" ++ toString p)
    simp only [String.append_assoc]
  | ssh =>
    change "out-" ++ tgt ++ "-ssh" = "out-" ++ (tgt ++ "-" ++ "ssh")
    simp only [String.append_assoc]
    rfl

theorem label_inFrom (src : String) (tail : LabelTail) :
    (inFrom src tail).label = "in-" ++ (src ++ "-" ++ tail.text) := by
  cases tail with
  | port p =>
    change "in-" ++ src ++ "-" ++ toString p = "in-" ++ (src ++ "-" ++ toString p)
    simp only [String.append_assoc]
  | ssh =>
    change "in-" ++ src ++ "-ssh" = "in-" ++ (src ++ "-" ++ "ssh")
    simp only [String.append_assoc]
    rfl

/-- What the label of a kind begins with. -/
def head : RuleKey → String
  | outTo _ _ => "out"
  | inFrom _ _ => "in-"
  | internetIn _ => "int"
  | svcOut => "svc"
  | inetOut => "ine"

theorem take_label (key : RuleKey) : key.label.toList.take 3 = key.head.toList := by
  have hheads : "out-".toList.take 3 = "out".toList ∧ "in-".toList.take 3 = "in-".toList ∧
      "internet-in-".toList.take 3 = "int".toList ∧ "svc-out".toList.take 3 = "svc".toList ∧
      "inet-out".toList.take 3 = "ine".toList := by decide
  cases key with
  | outTo tgt tail =>
    rw [label_outTo]
    exact (take_toList_append _ (by decide)).trans hheads.1
  | inFrom src tail =>
    rw [label_inFrom]
    exact (take_toList_append _ (by decide)).trans hheads.2.1
  | internetIn p =>
    exact (take_toList_append (toString p) (by decide)).trans hheads.2.2.1
  | svcOut => exact hheads.2.2.2.1
  | inetOut => exact hheads.2.2.2.2

/-- **A peer and a tail are read back** from what comes after the kind. -/
theorem joined_injective {peer peer' : String} {tail tail' : LabelTail}
    (htail : tail.Nonneg) (htail' : tail'.Nonneg)
    (h : peer ++ "-" ++ tail.text = peer' ++ "-" ++ tail'.text) :
    peer = peer' ∧ tail = tail' := by
  have hdash (w s : String) : '-' ∈ (w ++ "-" ++ s).toList := by
    rw [String.toList_append, String.toList_append]
    exact List.mem_append_left _ (List.mem_append_right _ (List.mem_singleton.mpr rfl))
  rcases (joined_eq_iff rfl).mp h with ⟨hpeer, htext⟩ | ⟨w, -, htext⟩ | ⟨w, -, htext⟩
  · exact ⟨hpeer, LabelTail.text_injective htext⟩
  · exact absurd (htext ▸ hdash w _) (LabelTail.dash_notMem_text htail')
  · exact absurd (htext ▸ hdash w _) (LabelTail.dash_notMem_text htail)

/-- **A label is that of one key.** -/
theorem label_injOn : Set.InjOn label {key | key.Nonneg} := by
  intro key hkey key' hkey' h
  have hhead : key.head = key'.head := by
    rw [← String.toList_inj, ← take_label, ← take_label, h]
  cases key with
  | outTo tgt tail =>
    cases key' with
    | outTo tgt' tail' =>
      rw [label_outTo, label_outTo] at h
      obtain ⟨rfl, rfl⟩ := joined_injective hkey hkey' (append_left_cancel h)
      rfl
    | _ => simp [head] at hhead
  | inFrom src tail =>
    cases key' with
    | inFrom src' tail' =>
      rw [label_inFrom, label_inFrom] at h
      obtain ⟨rfl, rfl⟩ := joined_injective hkey hkey' (append_left_cancel h)
      rfl
    | _ => simp [head] at hhead
  | internetIn p =>
    cases key' with
    | internetIn p' =>
      have htext : toString p = toString p' := append_left_cancel h
      exact congrArg internetIn (Int.repr_injective htext)
    | _ => simp [head] at hhead
  | svcOut =>
    cases key' with
    | svcOut => rfl
    | _ => simp [head] at hhead
  | inetOut =>
    cases key' with
    | inetOut => rfl
    | _ => simp [head] at hhead

end RuleKey

/-! ## The keys of a group -/

/-- The error of `add_rule`. -/
def duplicateLabel (label : String) : PyError :=
  .valueError s!"Nsg rule label must be unique within this NSG; duplicate label: {pyRepr label}"

/-- The rules of the group are those of the keys, in order. -/
structure Nsg.Keyed (nsg : Nsg) (keys : List RuleKey) : Prop where
  nonneg : ∀ key ∈ keys, key.Nonneg
  nodup : keys.Nodup
  labels : nsg.ruleLabels = (keys.map RuleKey.label).toFinset
  index : nsg.nextRuleIndex = keys.length
  rules : nsg.rules.length = keys.length

namespace Nsg

variable {nsg nsg' : Nsg} {keys keys' : List RuleKey} {key : RuleKey} {decl : RuleDecl}
  {decls : List RuleDecl} {e : PyError}

theorem keyed_empty (args : NsgArgs) : args.empty.Keyed [] :=
  ⟨fun _ h => (List.not_mem_nil h).elim, List.nodup_nil, rfl, rfl, rfl⟩

/-- **A label is used where its key is.** -/
theorem Keyed.label_mem_iff (h : nsg.Keyed keys) (hkey : key.Nonneg) :
    key.label ∈ nsg.ruleLabels ↔ key ∈ keys := by
  rw [h.labels, List.mem_toFinset, List.mem_map]
  constructor
  · rintro ⟨key', hmem, hlabel⟩
    exact RuleKey.label_injOn (h.nonneg key' hmem) hkey hlabel ▸ hmem
  · exact fun hmem => ⟨key, hmem, rfl⟩

/-- **There are as many labels as rules.** -/
theorem Keyed.card_ruleLabels (h : nsg.Keyed keys) : nsg.ruleLabels.card = keys.length := by
  have hlabels : (keys.map RuleKey.label).Nodup :=
    h.nodup.map_on fun key hkey key' hkey' => RuleKey.label_injOn (h.nonneg key hkey)
      (h.nonneg key' hkey')
  rw [h.labels, List.toFinset_card_of_nodup hlabels, List.length_map]

/-- **The step lemma of `add_rule`**: the key is new, and then it is the last. -/
theorem Keyed.addRule (h : nsg.Keyed keys) (hkey : key.Nonneg) (hlabel : decl.1 = key.label)
    (hadd : nsg.addRule decl = .ok nsg') : nsg'.Keyed (keys ++ [key]) := by
  obtain ⟨hnew, rfl⟩ := addRule_eq_ok.mp hadd
  rw [hlabel, h.label_mem_iff hkey] at hnew
  refine ⟨?_, ?_, ?_, ?_, ?_⟩
  · rw [List.forall_mem_append, List.forall_mem_singleton]
    exact ⟨h.nonneg, hkey⟩
  · rw [List.nodup_append]
    refine ⟨h.nodup, List.nodup_singleton key, fun a ha b hb => ?_⟩
    rw [List.mem_singleton.mp hb]
    exact fun heq => hnew (heq ▸ ha)
  · rw [List.map_append, List.toFinset_append, ← h.labels, hlabel, Finset.union_comm]
    rfl
  · rw [List.length_append, ← h.index]
    rfl
  · rw [List.length_append, List.length_append, ← h.rules]
    rfl

/-- …and if it is not, the label is refused. -/
theorem Keyed.addRule_eq_error (h : nsg.Keyed keys) (hkey : key.Nonneg)
    (hlabel : decl.1 = key.label) (hadd : nsg.addRule decl = .error e) :
    e = duplicateLabel key.label ∧ key ∈ keys := by
  rw [Nsg.addRule, hlabel] at hadd
  split at hadd
  · rename_i hused
    exact ⟨(Except.error.inj hadd).symm, (h.label_mem_iff hkey).mp hused⟩
  · cases hadd

/-- **The run lemma.** -/
theorem Keyed.addRules (h : nsg.Keyed keys) (hkeys : ∀ key ∈ keys', key.Nonneg)
    (hlabels : decls.map Prod.fst = keys'.map RuleKey.label) :
    (∀ nsg', nsg.addRules decls = .ok nsg' → nsg'.Keyed (keys ++ keys')) ∧
      ∀ e, nsg.addRules decls = .error e →
        ∃ key, e = duplicateLabel key.label ∧ 2 ≤ (keys ++ keys').count key := by
  induction decls generalizing nsg keys keys' with
  | nil =>
    obtain rfl := List.map_eq_nil_iff.mp hlabels.symm
    refine ⟨fun nsg' hadd => ?_, fun e hadd => by cases hadd⟩
    obtain rfl := Except.ok.inj hadd
    rwa [List.append_nil]
  | cons decl decls ih =>
    cases keys' with
    | nil => cases hlabels
    | cons key keys' =>
      obtain ⟨hlabel, hlabels⟩ := List.cons.inj hlabels
      obtain ⟨hkey, hkeys⟩ := List.forall_mem_cons.mp hkeys
      have hsplit : keys ++ key :: keys' = keys ++ [key] ++ keys' := by simp
      cases hadd : nsg.addRule decl with
      | error e =>
        obtain ⟨rfl, hmem⟩ := h.addRule_eq_error hkey hlabel hadd
        have hrun : nsg.addRules (decl :: decls) = .error (duplicateLabel key.label) := by
          rw [Nsg.addRules, hadd]
          rfl
        rw [hrun]
        refine ⟨fun _ h => (by cases h), fun e h => ⟨key, (Except.error.inj h).symm, ?_⟩⟩
        rw [List.count_append, List.count_cons_self]
        exact Nat.add_le_add (List.one_le_count_iff.mpr hmem) (Nat.le_add_left 1 _)
      | ok nsg₁ =>
        have hrun : nsg.addRules (decl :: decls) = nsg₁.addRules decls := by
          rw [Nsg.addRules, hadd]
          rfl
        rw [hrun, hsplit]
        exact ih (h.addRule hkey hlabel hadd) hkeys hlabels

end Nsg

/-! ## What a program declares -/

/-- The keys of a role's ambient rules. -/
def Nsg.ambientKeys (role : Role) (ports : List ℤ) : List RuleKey :=
  (if role.subnetTier = .pub then ports.map .internetIn else []) ++
  (if role.egressServices then [.svcOut] else []) ++
  (if role.egressInternet then [.inetOut] else [])

/-- The keys a new group is declared with. -/
def NsgArgs.keys (args : NsgArgs) : List RuleKey :=
  match args.role with
  | none => []
  | some role => Nsg.ambientKeys role.role args.ports

/-- The keys of a relationship, each with the name of its group. -/
def Nsg.relationKeys (src tgt : String) (self target : Nsg) (port : ℤ) (withSsh : Bool) :
    List (String × RuleKey) :=
  [(src, .outTo target.name (.port port)), (tgt, .inFrom self.name (.port port))] ++
  if withSsh && target.acceptsSsh then
    [(src, .outTo target.name .ssh), (tgt, .inFrom self.name .ssh)]
  else []

/-- The keys for the group of a name. -/
def keysFor (g : String) (keys : List (String × RuleKey)) : List RuleKey :=
  (keys.filter fun a => a.1 = g).map Prod.snd

namespace SpellOp

/-- The keys the groups are declared with, once the step declares its own; a new group has none but
those. -/
def declare (w : World) (op : SpellOp) (declared : String → List RuleKey) :
    String → List RuleKey :=
  match op with
  | nsg args => Function.update declared args.name args.keys
  | serves src tgt port withSsh =>
    match w.nsgs src, w.nsgs tgt with
    | some self, some target =>
      fun g => declared g ++ keysFor g (Nsg.relationKeys src tgt self target port withSsh)
    | _, _ => declared
  | _ => declared

/-- …and of these, the ones whose groups are there after it: a constructor that raises makes none.
-/
def record (w : World) (op : SpellOp) (declared : String → List RuleKey) :
    String → List RuleKey :=
  match op, op.exec.outcome w with
  | nsg _, .error _ => declared
  | _, _ => op.declare w declared

/-- A relationship of groups that are not there declares nothing. -/
theorem declare_serves_of_not {w : World} {src tgt : String} {port : ℤ} {withSsh : Bool}
    {declared : String → List RuleKey}
    (h : ¬ ∃ self target, w.nsgs src = some self ∧ w.nsgs tgt = some target) :
    (serves src tgt port withSsh).declare w declared = declared := by
  cases hself : w.nsgs src with
  | none => simp only [declare, hself]
  | some self =>
    cases htarget : w.nsgs tgt with
    | none => simp only [declare, hself, htarget]
    | some target => exact absurd ⟨self, target, hself, htarget⟩ h

/-- The ports of the step are not negative. -/
def PortsNonneg : SpellOp → Prop
  | nsg args => ∀ port ∈ args.ports, 0 ≤ port
  | serves _ _ port _ => 0 ≤ port
  | _ => True

end SpellOp

/-- The keys the groups have been declared with, after a program. -/
def declaredOf : List SpellOp → World → (String → List RuleKey) → String → List RuleKey
  | [], _, declared => declared
  | op :: ops, w, declared => declaredOf ops (op.exec.after w) (op.record w declared)

section Labels

variable {g src tgt : String} {self target : Nsg} {port : ℤ} {withSsh : Bool}

@[simp] theorem keysFor_nil (g : String) : keysFor g [] = [] := rfl

theorem keysFor_cons_self (g : String) (key : RuleKey) (keys : List (String × RuleKey)) :
    keysFor g ((g, key) :: keys) = key :: keysFor g keys := by
  simp [keysFor]

theorem keysFor_cons (g : String) (a : String × RuleKey) (keys : List (String × RuleKey)) :
    keysFor g (a :: keys) = keysFor g [a] ++ keysFor g keys := by
  by_cases h : a.1 = g <;> simp [keysFor, h]

/-- **A constructor declares its rules under the labels of its keys.** -/
theorem labels_decls (svcCidrBlock : String) (args : NsgArgs) :
    (args.decls svcCidrBlock).map Prod.fst = args.keys.map RuleKey.label := by
  unfold NsgArgs.decls NsgArgs.keys
  cases args.role with
  | none => rfl
  | some role =>
    have hports : (args.ports.map fun port =>
        allowFromCidr s!"internet-in-{port}" port INTERNET).map Prod.fst =
          (args.ports.map RuleKey.internetIn).map RuleKey.label := by
      rw [List.map_map, List.map_map]
      rfl
    simp only [Nsg.ambientDecls, Nsg.ambientKeys, List.map_append]
    congr 1
    · congr 1
      · split_ifs
        · exact hports
        · rfl
      · split_ifs <;> rfl
    · split_ifs <;> rfl

/-- **So does a relationship.** -/
theorem labels_relationDecls (src tgt : String) (self target : Nsg) (port : ℤ) (withSsh : Bool) :
    (Nsg.relationDecls src tgt self target port withSsh).map (fun a => (a.1, a.2.1)) =
      (Nsg.relationKeys src tgt self target port withSsh).map fun a => (a.1, a.2.label) := by
  unfold Nsg.relationDecls Nsg.relationKeys
  split_ifs <;> rfl

theorem NsgArgs.nonneg_of_mem_keys {args : NsgArgs} (h : ∀ port ∈ args.ports, 0 ≤ port) :
    ∀ key ∈ args.keys, key.Nonneg := by
  intro key hkey
  unfold NsgArgs.keys at hkey
  split at hkey
  · cases hkey
  · simp only [Nsg.ambientKeys, List.mem_append, List.mem_ite_nil_right, List.mem_map,
      List.mem_singleton] at hkey
    rcases hkey with (⟨-, port, hport, rfl⟩ | ⟨-, rfl⟩) | ⟨-, rfl⟩
    · exact h port hport
    · trivial
    · trivial

theorem nonneg_of_mem_relationKeys (h : 0 ≤ port) :
    ∀ a ∈ Nsg.relationKeys src tgt self target port withSsh, a.2.Nonneg := by
  intro a ha
  simp only [Nsg.relationKeys, List.mem_append, List.mem_cons, List.not_mem_nil, or_false,
    List.mem_ite_nil_right] at ha
  rcases ha with (rfl | rfl) | ⟨-, rfl | rfl⟩
  · exact h
  · exact h
  · trivial
  · trivial

end Labels

/-! ## What a program leaves -/

namespace World

/-- Every group has its rules for keys it has been declared with. -/
def Keyed (declared : String → List RuleKey) (w : World) : Prop :=
  ∀ g nsg, w.nsgs g = some nsg → nsg.Counted ∧ ∃ keys, nsg.Keyed keys ∧ keys ⊆ declared g

section Step

variable {w w' : World} {declared declared' : String → List RuleKey}

theorem Keyed.mono (h : w.Keyed declared) (hsub : ∀ g, declared g ⊆ declared' g) :
    w.Keyed declared' := by
  intro g nsg hnsg
  obtain ⟨hcounted, keys, hkeys, hmem⟩ := h g nsg hnsg
  exact ⟨hcounted, keys, hkeys, List.Subset.trans hmem (hsub g)⟩

theorem Keyed.congr (h : w.Keyed declared) (hnsgs : w'.nsgs = w.nsgs) : w'.Keyed declared :=
  fun g nsg hnsg => h g nsg (hnsgs ▸ hnsg)

/-- **The step lemma of `add_rule`**, in a world. -/
theorem Keyed.addRuleTo {name : String} {decl : RuleDecl} {key : RuleKey} {r : Except PyError Unit}
    (h : w.Keyed declared) (hkey : key.Nonneg) (hlabel : decl.1 = key.label)
    (hrun : (addRuleTo name decl).run w = (r, w')) :
    w'.Keyed (fun g => declared g ++ keysFor g [(name, key)]) ∧
      ∀ label, r = .error (duplicateLabel label) →
        duplicateLabel label = duplicateLabel key.label ∧ key ∈ declared name := by
  have hgrow : ∀ g, declared g ⊆ declared g ++ keysFor g [(name, key)] :=
    fun g => List.subset_append_left _ _
  cases hnsg : w.nsgs name with
  | none =>
    rw [World.addRuleTo, run_bind_error (run_lookup_of_none hnsg)] at hrun
    obtain ⟨rfl, rfl⟩ := Prod.mk.inj hrun
    exact ⟨h.mono hgrow, fun label herror => by cases herror⟩
  | some nsg =>
    obtain ⟨hcounted, keys, hkeys, hmem⟩ := h name nsg hnsg
    rw [World.addRuleTo, run_bind_ok (run_lookup_of_some hnsg)] at hrun
    cases hadd : nsg.addRule decl with
    | error e =>
      rw [hadd] at hrun
      obtain ⟨rfl, rfl⟩ := Prod.mk.inj hrun
      obtain ⟨rfl, hused⟩ := hkeys.addRule_eq_error hkey hlabel hadd
      exact ⟨h.mono hgrow, fun label herror => ⟨(Except.error.inj herror).symm, hmem hused⟩⟩
    | ok nsg' =>
      rw [hadd] at hrun
      obtain ⟨rfl, rfl⟩ := Prod.mk.inj hrun
      refine ⟨fun g old hold => ?_, fun label herror => by cases herror⟩
      change Function.update w.nsgs name (some nsg') g = some old at hold
      by_cases hg : g = name
      · subst hg
        rw [Function.update_self] at hold
        obtain rfl := Option.some.inj hold
        refine ⟨hcounted.addRule hadd, _, hkeys.addRule hkey hlabel hadd, ?_⟩
        change keys ++ [key] ⊆ declared g ++ keysFor g [(g, key)]
        rw [keysFor_cons_self, keysFor_nil]
        exact List.append_subset.mpr ⟨List.subset_append_of_subset_left _ hmem,
          List.subset_append_right _ _⟩
      · rw [Function.update_of_ne hg] at hold
        exact h.mono hgrow g old hold

/-- **The run lemma**: what is refused has been declared twice. -/
theorem Keyed.each {decls : List (String × RuleDecl)} {keys : List (String × RuleKey)}
    {r : Except PyError Unit} (h : w.Keyed declared) (hkeys : ∀ a ∈ keys, a.2.Nonneg)
    (hlabels : decls.map (fun a => (a.1, a.2.1)) = keys.map fun a => (a.1, a.2.label))
    (hrun : (each (fun a => World.addRuleTo a.1 a.2) decls).run w = (r, w')) :
    w'.Keyed (fun g => declared g ++ keysFor g keys) ∧
      ∀ label, r = .error (duplicateLabel label) → ∃ g key,
        duplicateLabel label = duplicateLabel key.label ∧
          2 ≤ (declared g ++ keysFor g keys).count key := by
  induction decls generalizing w declared keys with
  | nil =>
    obtain rfl := List.map_eq_nil_iff.mp hlabels.symm
    obtain ⟨rfl, rfl⟩ := Prod.mk.inj hrun
    exact ⟨h.mono fun g => List.subset_append_left _ _, fun label herror => by cases herror⟩
  | cons a decls ih =>
    cases keys with
    | nil => cases hlabels
    | cons b keys =>
      obtain ⟨name, decl⟩ := a
      obtain ⟨name', key⟩ := b
      obtain ⟨hfirst, hothers⟩ := List.cons.inj hlabels
      obtain ⟨rfl, hlabel⟩ := Prod.mk.inj hfirst
      obtain ⟨hkey, hkeys⟩ := List.forall_mem_cons.mp hkeys
      have hsplit : ∀ g, declared g ++ keysFor g ((name, key) :: keys) =
          declared g ++ keysFor g [(name, key)] ++ keysFor g keys := fun g => by
        rw [keysFor_cons, List.append_assoc]
      rw [each_cons] at hrun
      cases hadd : (World.addRuleTo name decl).run w with
      | mk r₁ w₁ =>
        obtain ⟨hkeyed, herror⟩ := h.addRuleTo hkey hlabel hadd
        cases r₁ with
        | error e =>
          rw [run_bind_error hadd] at hrun
          obtain ⟨rfl, rfl⟩ := Prod.mk.inj hrun
          refine ⟨hkeyed.mono fun g => ?_, fun label hlabel => ⟨name, key, ?_, ?_⟩⟩
          · rw [hsplit]
            exact List.subset_append_left _ _
          · exact (herror label (congrArg _ (Except.error.inj hlabel))).1
          · -- once before, and once among its own
            have hused : key ∈ declared name :=
              (herror label (congrArg _ (Except.error.inj hlabel))).2
            rw [keysFor_cons_self, List.count_append, List.count_cons_self]
            exact Nat.add_le_add (List.one_le_count_iff.mpr hused) (Nat.le_add_left 1 _)
        | ok _ =>
          rw [run_bind_ok hadd] at hrun
          have hrest := ih hkeyed hkeys hothers hrun
          simp only [← hsplit] at hrest
          exact hrest

end Step

end World

/-! ## The errors of a step -/

/-- A run of calls raises as a finalised network does. -/
theorem error_of_register {calls : List RuleCall} {v v' : Vcn} {e : PyError}
    (h : (register calls).run v = (.error e, v')) : e = .runtimeError finalizedMessage := by
  obtain ⟨-, c, -, v₁, -, -, hcall⟩ := run_each_eq_error h
  cases hfinal : v₁.securityListsFinalized with
  | false =>
    rw [run_exec_of_open hfinal] at hcall
    cases (Prod.mk.inj hcall).1
  | true =>
    rw [run_exec_of_finalized hfinal] at hcall
    split at hcall
    · cases (Prod.mk.inj hcall).1
    · exact (Except.error.inj (Prod.mk.inj hcall).1).symm

namespace Nsg

variable {args : NsgArgs} {v v' : Vcn} {e : PyError} {label : String}

theorem check_ne_duplicateLabel : check args ≠ .error (duplicateLabel label) := by
  unfold check
  split
  · intro h
    have hmessage := PyError.valueError.inj (Except.error.inj h)
    simp only [String.append_assoc] at hmessage
    have htake := congrArg (fun s => s.toList.take 5) hmessage
    have hheads : "Nsg '".toList.take 5 ≠
        "Nsg rule label must be unique within this NSG; duplicate label: ".toList.take 5 := by
      decide
    exact hheads ((take_toList_append _ (by decide)).symm.trans
      (htake.trans (take_toList_append _ (by decide))))
  · exact fun h => by cases h

/-- A constructor raises in its check, over a rule, or as the network does. -/
theorem addRules_of_init (h : (Nsg.init args).run v = (.error (duplicateLabel label), v')) :
    args.empty.addRules (args.decls v.svcCidrBlock) = .error (duplicateLabel label) := by
  rw [Nsg.init] at h
  rcases run_bind_eq_error.mp h with hcheck | ⟨_, v₁, hcheck, hrest⟩
  · exact absurd (Prod.mk.inj hcheck).1 check_ne_duplicateLabel
  · obtain ⟨-, rfl⟩ := Prod.mk.inj hcheck
    rw [NsgArgs.decls]
    cases hrole : args.role with
    | none =>
      rw [hrole] at hrest
      cases (Prod.mk.inj hrest).1
    | some role =>
      rw [hrole] at hrest
      dsimp only at hrest
      rw [run_get_bind] at hrest
      rcases run_bind_eq_error.mp hrest with hadd | ⟨nsg, v₂, hadd, hrest⟩
      · exact (Prod.mk.inj hadd).1
      · rcases run_bind_eq_error.mp hrest with hreg | ⟨_, v₃, -, hpure⟩
        · cases error_of_register hreg
        · cases (Prod.mk.inj hpure).1

end Nsg

namespace World

section Step

variable {w w' : World} {declared : String → List RuleKey}

/-- **The step lemma of a constructor.** -/
theorem Keyed.buildNsg {args : NsgArgs} {r : Except PyError Unit} (h : w.Keyed declared)
    (label : String) (hports : ∀ port ∈ args.ports, 0 ≤ port)
    (hrun : (World.buildNsg args).run w = (r, w')) :
    w'.Keyed ((SpellOp.nsg args).record w declared) ∧
      (r = .error (duplicateLabel label) → ∃ key,
        duplicateLabel label = duplicateLabel key.label ∧ 2 ≤ args.keys.count key) := by
  have hrules := (Nsg.keyed_empty args).addRules (NsgArgs.nonneg_of_mem_keys hports)
    (labels_decls w.vcn.svcCidrBlock args)
  rw [List.nil_append] at hrules
  have houtcome : (SpellOp.nsg args).exec.outcome w = r := congrArg Prod.fst hrun
  rw [World.buildNsg] at hrun
  cases r with
  | error e =>
    have hrecord : (SpellOp.nsg args).record w declared = declared := by
      simp only [SpellOp.record, houtcome]
    rw [hrecord]
    rcases run_bind_eq_error.mp hrun with hinit | ⟨_, w₁, -, hmodify⟩
    · refine ⟨h.congr ?_, fun herror => ?_⟩
      · rw [← (Prod.mk.inj hinit).2]
      · obtain rfl := Except.error.inj herror
        have hraised : (Nsg.init args).run w.vcn =
            (.error (duplicateLabel label), (Nsg.init args).after w.vcn) :=
          Prod.ext (Prod.mk.inj hinit).1 rfl
        exact hrules.2 _ (Nsg.addRules_of_init hraised)
    · cases (Prod.mk.inj hmodify).1
  | ok _ =>
    have hrecord : (SpellOp.nsg args).record w declared =
        Function.update declared args.name args.keys := by
      simp only [SpellOp.record, houtcome, SpellOp.declare]
    rw [hrecord]
    obtain ⟨nsg, w₁, hinit, hmodify⟩ := run_bind_eq_ok.mp hrun
    obtain ⟨-, rfl⟩ := Prod.mk.inj hmodify
    obtain ⟨hinit, hnsgs⟩ := run_onVcn_eq_ok.mp hinit
    obtain ⟨hadd, -⟩ := Nsg.run_init_eq_ok hinit
    refine ⟨fun g old hold => ?_, fun herror => by cases herror⟩
    change Function.update w₁.nsgs args.name (some nsg) g = some old at hold
    by_cases hg : g = args.name
    · rw [hg, Function.update_self] at hold
      obtain rfl := Option.some.inj hold
      rw [hg, Function.update_self]
      exact ⟨args.counted_empty.addRules hadd, _, hrules.1 _ hadd, List.Subset.refl _⟩
    · rw [Function.update_of_ne hg, hnsgs] at hold
      rw [Function.update_of_ne hg]
      exact h g old hold

/-- **The step lemma of `serves`.** -/
theorem Keyed.serves {src tgt : String} {port : ℤ} {withSsh : Bool} {r : Except PyError Unit}
    (h : w.Keyed declared) (label : String) (hport : 0 ≤ port)
    (hrun : (World.serves src tgt port withSsh).run w = (r, w')) :
    w'.Keyed ((SpellOp.serves src tgt port withSsh).declare w declared) ∧
      (r = .error (duplicateLabel label) → ∃ g key,
        duplicateLabel label = duplicateLabel key.label ∧
          2 ≤ ((SpellOp.serves src tgt port withSsh).declare w declared g).count key) := by
  by_cases hfound : ∃ self target, w.nsgs src = some self ∧ w.nsgs tgt = some target
  · obtain ⟨self, target, hself, htarget⟩ := hfound
    have hdeclare : (SpellOp.serves src tgt port withSsh).declare w declared = fun g =>
        declared g ++ keysFor g (Nsg.relationKeys src tgt self target port withSsh) := by
      simp only [SpellOp.declare, hself, htarget]
    rw [hdeclare]
    rw [run_serves hself htarget, relate_eq] at hrun
    cases hdecls : (Machinery.Exec.each (fun a => World.addRuleTo a.1 a.2)
        (Nsg.relationDecls src tgt self target port withSsh)).run w with
    | mk r₁ w₁ =>
      obtain ⟨hkeyed, herror⟩ := h.each (nonneg_of_mem_relationKeys hport)
        (labels_relationDecls src tgt self target port withSsh) hdecls
      cases r₁ with
      | error e =>
        rw [run_bind_error hdecls] at hrun
        obtain ⟨rfl, rfl⟩ := Prod.mk.inj hrun
        exact ⟨hkeyed, fun hraised => herror label (congrArg _ (Except.error.inj hraised))⟩
      | ok _ =>
        rw [run_bind_ok hdecls, run_get_bind] at hrun
        obtain ⟨hregister, hafter⟩ := Prod.mk.inj hrun
        refine ⟨hkeyed.congr (by rw [← hafter]), fun hraised => ?_⟩
        rw [← hregister] at hraised
        have hreg : (register (Nsg.relationCalls w₁.vcn.toVcnBase self target port
            withSsh)).run w₁.vcn = (.error (duplicateLabel label), _) := Prod.ext hraised rfl
        cases error_of_register hreg
  · obtain ⟨name, hname⟩ := run_serves_of_not hfound port withSsh
    obtain ⟨rfl, rfl⟩ := Prod.mk.inj (hname.symm.trans hrun)
    rw [SpellOp.declare_serves_of_not hfound]
    exact ⟨h, fun herror => by cases herror⟩

/-- The other steps leave the groups as they are. -/
theorem nsgs_after_build {α : Type} (m : Py Vcn α) : ((build m).after w).nsgs = w.nsgs := by
  have hkeep : Preserves (fun w' : World => w'.nsgs = w.nsgs) (build m) :=
    Preserves.bind (fun _ h => h) fun _ => preserves_pure _
  exact hkeep w rfl

/-- **The step lemma.** -/
theorem Keyed.step {op : SpellOp} (h : w.Keyed declared) (hports : op.PortsNonneg) :
    (op.exec.after w).Keyed (op.record w declared) := by
  cases op with
  | nsg args => exact (h.buildNsg "" hports rfl).1
  | serves src tgt port withSsh => exact (h.serves "" hports rfl).1
  | computeInstance name args =>
    cases name with
    | none => exact h.congr (nsgs_after_build _)
    | some name =>
      refine h.congr ?_
      cases hnsg : w.nsgs name with
      | none => rw [after, SpellOp.exec, run_bind_error (run_lookup_of_none hnsg)]
      | some nsg =>
        rw [after, SpellOp.exec, run_bind_ok (run_lookup_of_some hnsg)]
        exact nsgs_after_build _
  | finalizeNetwork => exact h.congr rfl
  | exportOutputs => exact h.congr rfl
  | _ => exact h.congr (nsgs_after_build _)

/-- **The run lemma.** -/
theorem Keyed.replay {ops : List SpellOp} (h : w.Keyed declared)
    (hports : ∀ op ∈ ops, op.PortsNonneg) :
    (Machinery.Exec.replay SpellOp.exec ops w).Keyed (declaredOf ops w declared) := by
  induction ops generalizing w declared with
  | nil => exact h
  | cons op ops ih =>
    obtain ⟨hop, hops⟩ := List.forall_mem_cons.mp hports
    exact ih (h.step hop) hops

end Step

theorem keyed_ofVcn (v : Vcn) (declared : String → List RuleKey) : (ofVcn v).Keyed declared :=
  fun _ _ h => by cases h

end World

/-- The names of a group's rules are distinct. -/
theorem Nsg.Counted.nodup_names {nsg : Nsg} (h : nsg.Counted) :
    (nsg.rules.map (·.resource.name)).Nodup := by
  have hnames : nsg.rules.map (·.resource.name) = (List.range nsg.nextRuleIndex).map fun i =>
      nsg.namer.createResourceName (ordinalSuffix "nsg-rule" i) :=
    calc nsg.rules.map (·.resource.name)
        = (nsg.rules.map (·.resource.label)).map fun l => nsg.namer.createResourceName l.2 := by
          rw [List.map_map]
          exact List.map_congr_left fun r hr => by rw [Resource.name, (h.child r hr).2]; rfl
      _ = (List.range nsg.nextRuleIndex).map fun i =>
            nsg.namer.createResourceName (ordinalSuffix "nsg-rule" i) := by
          rw [h.labels, SpellClass.ordinals, List.map_map]
          rfl
  rw [hnames]
  exact List.nodup_range.map fun i j hij =>
    ordinalSuffix_injective _ (nsg.namer.createResourceName_injective hij)

/-- **A label is refused where its key was declared before.**  Keys have labels of their own; and
after any program whose ports are not negative, every group has one rule for each label and each
number its counter has given out, under names that are distinct, and a constructor or a relationship
that is refused for a label declares the key of that label a second time. -/
theorem rulesKept_of_program (v₀ : Vcn) (ops : List SpellOp)
    (hports : ∀ op ∈ ops, op.PortsNonneg) :
    Set.InjOn RuleKey.label {key | key.Nonneg} ∧
      let w := replay SpellOp.exec ops (World.ofVcn v₀)
      let declared := declaredOf ops (World.ofVcn v₀) fun _ => []
      (∀ g nsg, w.nsgs g = some nsg →
        nsg.rules.length = nsg.ruleLabels.card ∧ nsg.nextRuleIndex = nsg.ruleLabels.card ∧
          (nsg.rules.map (·.resource.name)).Nodup) ∧
      ∀ op : NsgOp, op.spell.PortsNonneg → ∀ label,
        op.exec.outcome w = .error (duplicateLabel label) → ∃ g key,
          op.exec.outcome w = .error (duplicateLabel key.label) ∧
            2 ≤ (op.spell.declare w declared g).count key := by
  have hkeyed : (replay SpellOp.exec ops (World.ofVcn v₀)).Keyed
      (declaredOf ops (World.ofVcn v₀) fun _ => []) :=
    (World.keyed_ofVcn v₀ _).replay hports
  refine ⟨RuleKey.label_injOn, fun g nsg hnsg => ?_, fun op hop label herror => ?_⟩
  · obtain ⟨hcounted, keys, hkeys, -⟩ := hkeyed g nsg hnsg
    rw [hkeys.card_ruleLabels]
    exact ⟨hkeys.rules, hkeys.index, hcounted.nodup_names⟩
  · cases op with
    | build args =>
      obtain ⟨key, hlabel, hcount⟩ := (hkeyed.buildNsg label hop (run_of_outcome herror)).2 rfl
      refine ⟨args.name, key, herror.trans (congrArg _ hlabel), ?_⟩
      have hdeclare (w : World) (declared : String → List RuleKey) :
          (SpellOp.nsg args).declare w declared args.name = args.keys := Function.update_self _ _ _
      rwa [NsgOp.spell, hdeclare]
    | serves src tgt port withSsh =>
      obtain ⟨g, key, hlabel, hcount⟩ := (hkeyed.serves label hop (run_of_outcome herror)).2 rfl
      exact ⟨g, key, herror.trans (congrArg _ hlabel), hcount⟩

/-- Two groups, and a relationship between them. -/
def servedOnce : List SpellOp :=
  [.nsg (bareArgs "lb"), .nsg (bareArgs "web"), .serves "lb" "web" 8080 true]

/-- The same relationship again is refused. -/
theorem rulesKept_of_program_servedOnce : ∃ g key,
    (NsgOp.serves "lb" "web" 8080 true).exec.outcome
        (replay SpellOp.exec servedOnce (World.ofVcn defaultBase.fresh)) =
      .error (duplicateLabel key.label) ∧
    2 ≤ ((SpellOp.serves "lb" "web" 8080 true).declare
        (replay SpellOp.exec servedOnce (World.ofVcn defaultBase.fresh))
        (declaredOf servedOnce (World.ofVcn defaultBase.fresh) fun _ => []) g).count key := by
  have hport : (0 : ℤ) ≤ 8080 := by decide
  have hports : ∀ op ∈ servedOnce, op.PortsNonneg := by
    intro op hop
    simp only [servedOnce, List.mem_cons, List.not_mem_nil, or_false] at hop
    rcases hop with rfl | rfl | rfl
    · exact fun port hmem => by cases hmem
    · exact fun port hmem => by cases hmem
    · exact hport
  exact (rulesKept_of_program defaultBase.fresh servedOnce hports).2.2
    (.serves "lb" "web" 8080 true) hport "out-web-8080" rfl

end CloudSpells
