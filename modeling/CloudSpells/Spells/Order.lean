import CloudSpells.Spells.Relations

/-!
# Spells/Order — the order of declarations does not matter

Two programs of the same groups and relationships, in different orders, leave the same rules: in the
lists of the finalised VCN up to description, in the groups up to ordinal.  The builder lets the
first call under a fingerprint through and no other; that this depends on no order is because a
fingerprint determines the rules of the calls that use it.
-/

namespace CloudSpells

open Machinery Machinery.Exec

/-- The rules of a list of the VCN, up to description. -/
def Vcn.listed (v : Vcn) (t : SubnetTier) (d : Direction) : Option (Set SecurityListRule) :=
  (v.securityList t).map fun sl => {e | ∃ r ∈ sl.rules d, r.erase = e}

/-- The rules of the group of a name, up to ordinal. -/
def World.grouped (w : World) (g : String) : Option (Set NsgRule) :=
  (w.nsgs g).map fun nsg => {e | ∃ r ∈ nsg.rules, r.erase = e}

/-- What a call adds to the lists, up to description. -/
def RuleCall.reading (c : RuleCall) (t : SubnetTier) (d : Direction) : Set SecurityListRule :=
  {e | ∃ r ∈ c.rules t d, r.erase = e}

variable {family : String → NsgArgs} {v₀ : Vcn} {ops ops' : List NsgOp} {w w' : World}

/-- **A fingerprint determines what its calls add.** -/
theorem RuleCall.Keyed.reading_eq {base : VcnBase} {c c' : RuleCall} (h : c.Keyed base)
    (h' : c'.Keyed base) {s : String} (hs : c.fingerprint = some s)
    (hs' : c'.fingerprint = some s) : c.reading = c'.reading := by
  funext t d
  ext e
  exact h.mem_rules_iff h' hs hs' t d e

/-- **The builder's lists do not depend on the order of the calls**, up to description. -/
theorem writtenRules_perm {base : VcnBase} {seen : Finset String} {calls calls' : List RuleCall}
    (hkeyed : ∀ c ∈ calls, c.Keyed base) (hperm : calls.Perm calls') (t : SubnetTier)
    (d : Direction) (e : SecurityListRule) :
    (∃ r ∈ writtenRules seen calls t d, r.erase = e) ↔
      ∃ r ∈ writtenRules seen calls' t d, r.erase = e := by
  have hread : ∀ cs : List RuleCall, (∃ r ∈ writtenRules seen cs t d, r.erase = e) ↔
      ∃ reading, (∃ c ∈ Ledger.written RuleCall.fingerprint seen cs, c.reading = reading) ∧
        e ∈ reading t d := by
    intro cs
    constructor
    · rintro ⟨r, hr, he⟩
      obtain ⟨c, hc, hr⟩ := List.mem_flatMap.mp hr
      exact ⟨c.reading, ⟨c, hc, rfl⟩, r, hr, he⟩
    · rintro ⟨_, ⟨c, hc, rfl⟩, r, hr, he⟩
      exact ⟨r, List.mem_flatMap.mpr ⟨c, hc, hr⟩, he⟩
  have hdet : Ledger.Determines RuleCall.fingerprint RuleCall.reading calls :=
    fun c hc c' hc' s hs hs' => (hkeyed c hc).reading_eq (hkeyed c' hc') hs hs'
  rw [hread, hread]
  simp only [Ledger.mem_image_written_perm hdet hperm]

/-- The names of the groups do not depend on the order of the program. -/
theorem NamesDistinct.perm (h : NamesDistinct ops) (hperm : ops.Perm ops') : NamesDistinct ops' :=
  ((hperm.filterMap NsgOp.built).map NsgArgs.name).nodup_iff.mp h

/-- **The lists of two orders agree.** -/
theorem Tracks.listed_perm (h : Tracks family v₀ ops w) (h' : Tracks family v₀ ops' w')
    (hperm : ops.Perm ops') (hopen : v₀.securityListsFinalized = false) (t : SubnetTier)
    (d : Direction) : w.finalized.vcn.listed t d = w'.finalized.vcn.listed t d := by
  obtain ⟨sl, hsl, hrules⟩ := h.securityList_finalized hopen t
  obtain ⟨sl', hsl', hrules'⟩ := h'.securityList_finalized hopen t
  have hkeyed : ∀ c ∈ callsOf family v₀ ops, c.Keyed v₀.toVcnBase := fun c hc => by
    obtain ⟨op, -, hc⟩ := List.mem_flatMap.mp hc
    exact (NsgOp.issued_of_mem_calls hc).keyed
  have hcalls : (callsOf family v₀ ops).Perm (callsOf family v₀ ops') := hperm.flatMap_right _
  rw [Vcn.listed, Vcn.listed, hsl, hsl', Option.map_some, Option.map_some]
  congr 1
  ext e
  simp only [Set.mem_ofPred_eq, hrules, hrules', List.mem_append, or_and_right, exists_or,
    writtenRules_perm hkeyed hcalls t d e]

/-- **The groups of two orders agree.** -/
theorem Tracks.grouped_perm (h : Tracks family v₀ ops w) (h' : Tracks family v₀ ops' w')
    (hperm : ops.Perm ops') (g : String) : w.grouped g = w'.grouped g := by
  have hsome : (w.nsgs g).isSome ↔ (w'.nsgs g).isSome := by
    rw [h.isSome_iff, h'.isSome_iff]
    simp only [hperm.mem_iff]
  have hdecls : (declsOf family v₀ ops).Perm (declsOf family v₀ ops') := hperm.flatMap_right _
  unfold World.grouped
  cases hg : w.nsgs g with
  | none =>
    rw [hg] at hsome
    cases hg' : w'.nsgs g with
    | none => rfl
    | some nsg' => simp [hg'] at hsome
  | some nsg =>
    rw [hg] at hsome
    obtain ⟨nsg', hg'⟩ := Option.isSome_iff_exists.mp (hsome.mp rfl)
    rw [hg', Option.map_some, Option.map_some]
    congr 1
    ext e
    simp only [Set.mem_ofPred_eq, h.exists_erase_iff hg, h'.exists_erase_iff hg', hdecls.mem_iff]

/-- **The order of declarations does not matter.**  Two orders of one collection of groups and
relationships, each of which runs to its end on an open VCN, leave the same lists once finalised, up
to description, and the same groups, up to the ordinals of their rules.  In particular, calls that
use one fingerprint, of whatever spells they are, pass the same rules up to description. -/
theorem order_independent_of_program (hopen : v₀.securityListsFinalized = false)
    (hnames : NamesDistinct ops) (hperm : ops.Perm ops')
    (hrun : (each NsgOp.exec ops).run (World.ofVcn v₀) = (.ok ⟨⟩, w))
    (hrun' : (each NsgOp.exec ops').run (World.ofVcn v₀) = (.ok ⟨⟩, w')) :
    (∀ t d, w.finalized.vcn.listed t d = w'.finalized.vcn.listed t d) ∧
      (∀ g, w.grouped g = w'.grouped g) ∧
      ∀ (base : VcnBase) (c c' : RuleCall), Issued (fun _ => True) base c →
        Issued (fun _ => True) base c' → ∀ s, c.fingerprint = some s → c'.fingerprint = some s →
          c.reading = c'.reading := by
  obtain ⟨family, hfamily⟩ := exists_family hnames
  have hfamily' : ∀ args, .build args ∈ ops' → family args.name = args :=
    fun args hargs => hfamily args (hperm.mem_iff.mpr hargs)
  have htracks := tracks_of_run hopen hnames hfamily hrun
  have htracks' := tracks_of_run hopen (hnames.perm hperm) hfamily' hrun'
  exact ⟨htracks.listed_perm htracks' hperm hopen, htracks.grouped_perm htracks' hperm,
    fun base c c' hc hc' s hs hs' => hc.keyed.reading_eq hc'.keyed hs hs'⟩

/-- The group in front is built last. -/
theorem order_independent_of_program_default :
    ∃ w w', (each NsgOp.exec webApi).run (World.ofVcn defaultBase.fresh) = (.ok ⟨⟩, w) ∧
      (each NsgOp.exec [.build apiArgs, .build webArgs, .serves "web" "api" 8080 true]).run
        (World.ofVcn defaultBase.fresh) = (.ok ⟨⟩, w') ∧
      (∀ t d, w.finalized.vcn.listed t d = w'.finalized.vcn.listed t d) ∧
      ∀ g, w.grouped g = w'.grouped g := by
  obtain ⟨w, hrun⟩ : ∃ w, (each NsgOp.exec webApi).run (World.ofVcn defaultBase.fresh) =
      (.ok ⟨⟩, w) := ⟨_, rfl⟩
  obtain ⟨w', hrun'⟩ : ∃ w',
      (each NsgOp.exec [.build apiArgs, .build webArgs, .serves "web" "api" 8080 true]).run
        (World.ofVcn defaultBase.fresh) = (.ok ⟨⟩, w') := ⟨_, rfl⟩
  have hnames : NamesDistinct webApi := by
    unfold NamesDistinct
    decide
  obtain ⟨hlists, hgroups, -⟩ :=
    order_independent_of_program rfl hnames (List.Perm.swap _ _ _) hrun hrun'
  exact ⟨w, w', hrun, hrun', hlists, hgroups⟩

end CloudSpells
