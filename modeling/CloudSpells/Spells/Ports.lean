import CloudSpells.Spells.Labels
import CloudSpells.Spells.Serves

/-!
# Spells/Ports — a pair of groups related on several ports

`serves` is called once per port.  The rules for the port have labels of their own, the rules of the
SSH channel do not: their labels name the pair alone, and the second call with the default
`with_ssh=True` is refused.  So the calls succeed exactly where the labels are free and the target
either takes no management SSH or is related on at most one port (`relatedOnEach_iff`).
-/

namespace CloudSpells

open Machinery Machinery.Exec Machinery.Segments

namespace World

/-- `for port in ports: src.serves(tgt, port)`. -/
def servesEach (src tgt : String) (ports : List ℤ) : Py World Unit :=
  each (fun port => serves src tgt port true) ports

/-- The rules of one call per port. -/
def portDecls (src tgt : String) (self target : Nsg) (withSsh : Bool) (ports : List ℤ) :
    List (String × RuleDecl) :=
  ports.flatMap fun port => Nsg.relationDecls src tgt self target port withSsh

section Run

variable {w w' : World} {src tgt : String} {self target : Nsg} {ports : List ℤ}

theorem portDecls_congr {self' target' : Nsg} (hself : self.SameGroup self')
    (htarget : target.SameGroup target') (base : VcnBase) :
    portDecls src tgt self' target' true ports = portDecls src tgt self target true ports :=
  congrArg (ports.flatMap ·) (funext fun port =>
    (Nsg.relation_congr hself htarget base src tgt port true).2)

/-- What one call leaves: an open network, the same two groups, and their rules. -/
private theorem step_serves {port : ℤ} (hopen : w.vcn.securityListsFinalized = false)
    (hself : w.nsgs src = some self) (htarget : w.nsgs tgt = some target)
    (hrun : (serves src tgt port true).run w = (.ok ⟨⟩, w')) :
    w'.vcn.securityListsFinalized = false ∧
      GrownBy (Nsg.relationDecls src tgt self target port true) w w' := by
  rw [run_serves hself htarget] at hrun
  obtain ⟨hgrown, hreg⟩ := run_relate_eq_ok hrun
  rw [run_register_of_open hopen] at hreg
  rw [← (Prod.mk.inj hreg).2]
  exact ⟨hopen, hgrown⟩

/-- **The run lemma**: the calls succeed exactly where the groups accept all the rules, and then
the groups have grown by them. -/
theorem exists_run_servesEach_iff (ports : List ℤ) (hopen : w.vcn.securityListsFinalized = false)
    (hself : w.nsgs src = some self) (htarget : w.nsgs tgt = some target) :
    ((∃ w', (servesEach src tgt ports).run w = (.ok ⟨⟩, w')) ↔
      w.Accepts (portDecls src tgt self target true ports)) ∧
    ∀ w', (servesEach src tgt ports).run w = (.ok ⟨⟩, w') →
      GrownBy (portDecls src tgt self target true ports) w w' := by
  induction ports generalizing w self target with
  | nil =>
    refine ⟨iff_of_true ⟨w, rfl⟩ accepts_nil, fun w' hrun => ?_⟩
    obtain ⟨-, rfl⟩ := Prod.mk.inj hrun
    exact ⟨fun g nsg hnsg => ⟨nsg, hnsg, Nsg.GrownBy.refl nsg⟩, fun g hnone => ⟨hnone, rfl⟩⟩
  | cons port ports ih =>
    have hcons : ∀ w', (servesEach src tgt (port :: ports)).run w = (.ok ⟨⟩, w') ↔
        ∃ w₁, (serves src tgt port true).run w = (.ok ⟨⟩, w₁) ∧
          (servesEach src tgt ports).run w₁ = (.ok ⟨⟩, w') := fun w' => by
      rw [servesEach, each_cons, run_bind_eq_ok]
      exact ⟨fun ⟨_, w₁, h⟩ => ⟨w₁, h⟩, fun ⟨w₁, h⟩ => ⟨⟨⟩, w₁, h⟩⟩
    have hdecls : portDecls src tgt self target true (port :: ports) =
        Nsg.relationDecls src tgt self target port true ++
          portDecls src tgt self target true ports := rfl
    -- After the first call the pair is the same pair, and the rest is as in the induction.
    have hrest : ∀ w₁, (serves src tgt port true).run w = (.ok ⟨⟩, w₁) →
        ((∃ w', (servesEach src tgt ports).run w₁ = (.ok ⟨⟩, w')) ↔
          w.Accepts (portDecls src tgt self target true (port :: ports))) ∧
        ∀ w', (servesEach src tgt ports).run w₁ = (.ok ⟨⟩, w') →
          GrownBy (portDecls src tgt self target true (port :: ports)) w w' := by
      intro w₁ hserves
      obtain ⟨hopen₁, hgrown⟩ := step_serves hopen hself htarget hserves
      obtain ⟨self₁, hself₁, hsame⟩ := hgrown.some src self hself
      obtain ⟨target₁, htarget₁, hsame'⟩ := hgrown.some tgt target htarget
      obtain ⟨hiff, hgrows⟩ := ih hopen₁ hself₁ htarget₁
      rw [portDecls_congr hsame.same hsame'.same w.vcn.toVcnBase] at hiff hgrows
      obtain ⟨w₂, hadd, hnsgs⟩ := exists_each_of_serves hself htarget hserves
      rw [hdecls, accepts_append (has_relationDecls hself htarget) hadd, ← accepts_congr hnsgs]
      exact ⟨hiff, fun w' hrun => hgrown.trans (hgrows w' hrun)⟩
    constructor
    · constructor
      · rintro ⟨w', hrun⟩
        obtain ⟨w₁, hserves, hports⟩ := (hcons w').mp hrun
        exact (hrest w₁ hserves).1.mp ⟨w', hports⟩
      · intro hacc
        have hknows : Knows w.vcn (Nsg.relationCalls w.vcn.toVcnBase self target port true) :=
          fun hfinal => by rw [hopen] at hfinal; cases hfinal
        obtain ⟨w₁, hserves⟩ :=
          (exists_run_serves_iff hself htarget).mpr ⟨(hdecls ▸ hacc).left, hknows⟩
        obtain ⟨w', hports⟩ := (hrest w₁ hserves).1.mpr hacc
        exact ⟨w', (hcons w').mpr ⟨w₁, hserves, hports⟩⟩
    · intro w' hrun
      obtain ⟨w₁, hserves, hports⟩ := (hcons w').mp hrun
      exact (hrest w₁ hserves).2 w' hports

end Run

end World

/-! ## What either group takes -/

/-- The rules of one group: one for every port, and under each the one for the SSH channel. -/
def channelDecls (rule : ℤ → RuleDecl) (sshRule : RuleDecl) (ssh : Bool) (ports : List ℤ) :
    List RuleDecl :=
  ports.flatMap fun port => rule port :: if ssh then [sshRule] else []

section Channel

variable {rule : ℤ → RuleDecl} {sshRule : RuleDecl} {ports : List ℤ}

theorem mem_channelDecls {ssh : Bool} {decl : RuleDecl} :
    decl ∈ channelDecls rule sshRule ssh ports ↔
      (∃ port ∈ ports, rule port = decl) ∨ ssh = true ∧ ports ≠ [] ∧ sshRule = decl := by
  simp only [channelDecls, List.mem_flatMap, List.mem_cons, List.mem_ite_nil_right,
    List.not_mem_nil, or_false]
  constructor
  · rintro ⟨port, hport, rfl | ⟨hssh, rfl⟩⟩
    · exact .inl ⟨port, hport, rfl⟩
    · exact .inr ⟨hssh, List.ne_nil_of_mem hport, rfl⟩
  · rintro (⟨port, hport, rfl⟩ | ⟨hssh, hne, rfl⟩)
    · exact ⟨port, hport, .inl rfl⟩
    · obtain ⟨port, hport⟩ := List.exists_mem_of_ne_nil ports hne
      exact ⟨port, hport, .inr ⟨hssh, rfl⟩⟩

/-- **The labels are distinct** exactly where the SSH channel is opened once at most. -/
theorem nodup_channelDecls_iff (hrule : Function.Injective fun port => (rule port).1)
    (hssh : ∀ port, (rule port).1 ≠ sshRule.1) (ssh : Bool) (hports : ports.Nodup) :
    ((channelDecls rule sshRule ssh ports).map Prod.fst).Nodup ↔
      (ssh = true → ports.length ≤ 1) := by
  cases ssh with
  | false =>
    refine iff_of_true ?_ fun h => by cases h
    have hmap : (channelDecls rule sshRule false ports).map Prod.fst =
        ports.map fun port => (rule port).1 := by
      simp [channelDecls, ← List.map_eq_flatMap]
    rw [hmap]
    exact hports.map hrule
  | true =>
    rcases ports with _ | ⟨p, _ | ⟨q, ports⟩⟩
    · exact iff_of_true List.nodup_nil fun _ => Nat.zero_le 1
    · refine iff_of_true ?_ fun _ => le_refl 1
      simpa [channelDecls] using hssh p
    · -- the second port repeats the label of the channel
      refine iff_of_false (fun hnodup => ?_) fun h => by simpa using h rfl
      have htwice : (channelDecls rule sshRule true (p :: q :: ports)).map Prod.fst =
          (rule p).1 :: sshRule.1 :: (rule q).1 :: sshRule.1 ::
            (channelDecls rule sshRule true ports).map Prod.fst := rfl
      rw [htwice, List.nodup_cons, List.nodup_cons] at hnodup
      exact hnodup.2.1 (List.mem_cons_of_mem _ List.mem_cons_self)

/-- One rule for every port, and one for the SSH channel. -/
theorem length_channelDecls {ssh : Bool} (h : ssh = true → ports.length ≤ 1) :
    (channelDecls rule sshRule ssh ports).length =
      ports.length + if ssh = true ∧ ports ≠ [] then 1 else 0 := by
  cases ssh with
  | false => simp [channelDecls, ← List.map_eq_flatMap]
  | true =>
    rcases ports with _ | ⟨p, _ | ⟨q, ports⟩⟩
    · rfl
    · rfl
    · exact absurd (h rfl) (by simp)

end Channel

/-- A number is not the word `ssh`. -/
private theorem label_ne_ssh (s : String) (port : ℤ) : s ++ "-" ++ toString port ≠ s ++ "-ssh" := by
  intro h
  have hword : s ++ "-ssh" = s ++ "-" ++ "ssh" := by
    rw [String.append_assoc]
    rfl
  rw [hword] at h
  have hmem : "ssh".toList ∈ Segments.segments '-' (toString port) := by
    rw [append_left_cancel h]
    decide
  exact Segments.notMem_segments_int port ⟨'s', by decide, by decide⟩ hmem

private theorem label_injective (s : String) :
    Function.Injective fun port : ℤ => s ++ "-" ++ toString port :=
  fun _ _ h => Int.repr_injective (append_left_cancel h)

/-- The source's rules for the ports. -/
def outDecls (target : Nsg) (ssh : Bool) (ports : List ℤ) : List RuleDecl :=
  channelDecls (fun port => allowToNsg s!"out-{target.name}-{port}" target.nsg port)
    (allowToNsg s!"out-{target.name}-ssh" target.nsg SSH) ssh ports

/-- The target's rules for the ports. -/
def inDecls (self : Nsg) (ssh : Bool) (ports : List ℤ) : List RuleDecl :=
  channelDecls (fun port => allowFromNsg s!"in-{self.name}-{port}" self.nsg port)
    (allowFromNsg s!"in-{self.name}-ssh" self.nsg SSH) ssh ports

namespace World

section Related

variable {w : World} {src tgt : String} {self target : Nsg} {withSsh : Bool}
  {ports : List ℤ}

theorem declsFor_src (hne : src ≠ tgt) :
    declsFor src (portDecls src tgt self target withSsh ports) =
      outDecls target (withSsh && target.acceptsSsh) ports := by
  induction ports with
  | nil => rfl
  | cons port ports ih =>
    rw [portDecls, List.flatMap_cons, declsFor_append, ← portDecls, ih, Nsg.relationDecls]
    refine congrArg (· ++ outDecls target (withSsh && target.acceptsSsh) ports) ?_
    cases withSsh && target.acceptsSsh <;> simp [declsFor, Ne.symm hne]

theorem declsFor_tgt (hne : src ≠ tgt) :
    declsFor tgt (portDecls src tgt self target withSsh ports) =
      inDecls self (withSsh && target.acceptsSsh) ports := by
  induction ports with
  | nil => rfl
  | cons port ports ih =>
    rw [portDecls, List.flatMap_cons, declsFor_append, ← portDecls, ih, Nsg.relationDecls]
    refine congrArg (· ++ inDecls self (withSsh && target.acceptsSsh) ports) ?_
    cases withSsh && target.acceptsSsh <;> simp [declsFor, hne]

/-- No other group takes any. -/
theorem declsFor_other {g : String} (hsrc : g ≠ src) (htgt : g ≠ tgt) :
    declsFor g (portDecls src tgt self target withSsh ports) = [] := by
  induction ports with
  | nil => rfl
  | cons port ports ih =>
    rw [portDecls, List.flatMap_cons, declsFor_append, ← portDecls, ih, Nsg.relationDecls]
    cases withSsh && target.acceptsSsh <;> simp [declsFor, Ne.symm hsrc, Ne.symm htgt]

/-- The labels of the rules for the ports, and for the SSH channel if there is one, are free on both
groups. -/
def LabelsFree (self target : Nsg) (ssh : Bool) (ports : List ℤ) : Prop :=
  (∀ port ∈ ports, s!"out-{target.name}-{port}" ∉ self.ruleLabels ∧
    s!"in-{self.name}-{port}" ∉ target.ruleLabels) ∧
  (ssh = true → ports ≠ [] → s!"out-{target.name}-ssh" ∉ self.ruleLabels ∧
    s!"in-{self.name}-ssh" ∉ target.ruleLabels)

theorem labelsFree_iff {ssh : Bool} : LabelsFree self target ssh ports ↔
    (∀ decl ∈ outDecls target ssh ports, decl.1 ∉ self.ruleLabels) ∧
      ∀ decl ∈ inDecls self ssh ports, decl.1 ∉ target.ruleLabels := by
  simp only [outDecls, inDecls, mem_channelDecls]
  constructor
  · rintro ⟨hports, hssh⟩
    constructor
    · rintro _ (⟨port, hport, rfl⟩ | ⟨h, hne, rfl⟩)
      · exact (hports port hport).1
      · exact (hssh h hne).1
    · rintro _ (⟨port, hport, rfl⟩ | ⟨h, hne, rfl⟩)
      · exact (hports port hport).2
      · exact (hssh h hne).2
  · rintro ⟨hout, hin⟩
    exact ⟨fun port hport => ⟨hout _ (.inl ⟨port, hport, rfl⟩), hin _ (.inl ⟨port, hport, rfl⟩)⟩,
      fun h hne => ⟨hout _ (.inr ⟨h, hne, rfl⟩), hin _ (.inr ⟨h, hne, rfl⟩)⟩⟩

/-- **The groups accept the rules** where the labels are free and the SSH channel is opened once. -/
theorem accepts_portDecls_iff (hne : src ≠ tgt) (hself : w.nsgs src = some self)
    (htarget : w.nsgs tgt = some target) (hports : ports.Nodup) :
    w.Accepts (portDecls src tgt self target withSsh ports) ↔
      LabelsFree self target (withSsh && target.acceptsSsh) ports ∧
        ((withSsh && target.acceptsSsh) = true → ports.length ≤ 1) := by
  have hout : ((outDecls target (withSsh && target.acceptsSsh) ports).map Prod.fst).Nodup ↔ _ :=
    nodup_channelDecls_iff (label_injective _) (label_ne_ssh _) _ hports
  have hin : ((inDecls self (withSsh && target.acceptsSsh) ports).map Prod.fst).Nodup ↔ _ :=
    nodup_channelDecls_iff (label_injective _) (label_ne_ssh _) _ hports
  rw [labelsFree_iff]
  constructor
  · intro hacc
    have hsrc := hacc src self hself
    have htgt := hacc tgt target htarget
    rw [declsFor_src hne] at hsrc
    rw [declsFor_tgt hne] at htgt
    exact ⟨⟨hsrc.2, htgt.2⟩, hout.mp hsrc.1⟩
  · rintro ⟨⟨hfree, hfree'⟩, hlen⟩ g nsg hnsg
    by_cases hsrc : g = src
    · subst hsrc
      obtain rfl := Option.some.inj (hself.symm.trans hnsg)
      rw [declsFor_src hne]
      exact ⟨hout.mpr hlen, hfree⟩
    by_cases htgt : g = tgt
    · subst htgt
      obtain rfl := Option.some.inj (htarget.symm.trans hnsg)
      rw [declsFor_tgt hne]
      exact ⟨hin.mpr hlen, hfree'⟩
    · rw [declsFor_other hsrc htgt]
      exact ⟨List.nodup_nil, fun _ h => by cases h⟩

end Related

/-! ## One call per port -/

/-- The pair is related on every port: the calls succeed, either group has its rule for every port,
both have one rule for the SSH channel where the target takes management SSH, and no other rule was
added. -/
def RelatedOnEach (w : World) (src tgt : String) (self target : Nsg) (ports : List ℤ) : Prop :=
  ∃ w' self' target', (servesEach src tgt ports).run w = (.ok ⟨⟩, w') ∧
    w'.nsgs src = some self' ∧ w'.nsgs tgt = some target' ∧
    (∀ port ∈ ports, (∃ r ∈ self'.rules, r.args.TcpTo target.nsg port) ∧
      ∃ r ∈ target'.rules, r.args.TcpFrom self.nsg port) ∧
    (target.acceptsSsh = true → ports ≠ [] → (∃ r ∈ self'.rules, r.args.TcpTo target.nsg SSH) ∧
      ∃ r ∈ target'.rules, r.args.TcpFrom self.nsg SSH) ∧
    let channel := if target.acceptsSsh = true ∧ ports ≠ [] then 1 else 0
    self'.rules.length = self.rules.length + (ports.length + channel) ∧
      target'.rules.length = target.rules.length + (ports.length + channel)

end World

/-- A group that has grown by a declaration has its rule. -/
theorem Nsg.GrownBy.exists_args {decls : List RuleDecl} {nsg nsg' : Nsg} {decl : RuleDecl}
    (h : nsg.GrownBy decls nsg') (hdecl : decl ∈ decls) :
    ∃ r ∈ nsg'.rules, r.args = (nsg.ruleOf 0 decl).args := by
  have hmem : (nsg.ruleOf 0 decl).erase ∈ nsg'.rules.map NsgRule.erase := by
    rw [h.rules]
    exact List.mem_append_right _ (List.mem_map.mpr ⟨decl, hdecl, rfl⟩)
  obtain ⟨r, hr, herase⟩ := List.mem_map.mp hmem
  refine ⟨r, hr, ?_⟩
  change r.erase.args = _
  rw [herase]
  rfl

/-- …and as many new rules as there were declarations. -/
theorem Nsg.GrownBy.length_rules {decls : List RuleDecl} {nsg nsg' : Nsg}
    (h : nsg.GrownBy decls nsg') : nsg'.rules.length = nsg.rules.length + decls.length := by
  have hlen := congrArg List.length h.rules
  simpa only [List.length_map, List.length_append] using hlen

namespace World

/-- **A pair is related on every port exactly where the labels are free and the target takes no
management SSH or there is at most one port.** -/
theorem relatedOnEach_iff {w : World} {src tgt : String} {self target : Nsg} {ports : List ℤ}
    (hopen : w.vcn.securityListsFinalized = false) (hne : src ≠ tgt)
    (hself : w.nsgs src = some self) (htarget : w.nsgs tgt = some target) (hports : ports.Nodup) :
    w.RelatedOnEach src tgt self target ports ↔
      LabelsFree self target target.acceptsSsh ports ∧
        (target.acceptsSsh = true → ports.length ≤ 1) := by
  obtain ⟨hruns, hgrows⟩ := exists_run_servesEach_iff ports hopen hself htarget
  rw [accepts_portDecls_iff hne hself htarget hports, Bool.true_and] at hruns
  rw [← hruns]
  constructor
  · rintro ⟨w', -, -, hrun, -⟩
    exact ⟨w', hrun⟩
  · rintro ⟨w', hrun⟩
    have hssh := (hruns.mp ⟨w', hrun⟩).2
    have hgrown := hgrows w' hrun
    obtain ⟨self', hself', hsrc⟩ := hgrown.some src self hself
    obtain ⟨target', htarget', htgt⟩ := hgrown.some tgt target htarget
    rw [declsFor_src hne, Bool.true_and] at hsrc
    rw [declsFor_tgt hne, Bool.true_and] at htgt
    have hout : ∀ {port decl}, decl ∈ outDecls target target.acceptsSsh ports →
        decl.2.TcpTo target.nsg port →
        ∃ r ∈ self'.rules, r.args.TcpTo target.nsg port := fun hdecl hto => by
      obtain ⟨r, hr, hargs⟩ := hsrc.exists_args hdecl
      exact ⟨r, hr, by rw [hargs]; exact hto⟩
    have hin : ∀ {port decl}, decl ∈ inDecls self target.acceptsSsh ports →
        decl.2.TcpFrom self.nsg port →
        ∃ r ∈ target'.rules, r.args.TcpFrom self.nsg port := fun hdecl hfrom => by
      obtain ⟨r, hr, hargs⟩ := htgt.exists_args hdecl
      exact ⟨r, hr, by rw [hargs]; exact hfrom⟩
    refine ⟨w', self', target', hrun, hself', htarget', fun port hport => ⟨?_, ?_⟩,
      fun h hnil => ⟨?_, ?_⟩, ?_, ?_⟩
    · exact hout (mem_channelDecls.mpr (.inl ⟨port, hport, rfl⟩)) (tcpTo_allowToNsg.mpr ⟨rfl, rfl⟩)
    · exact hin (mem_channelDecls.mpr (.inl ⟨port, hport, rfl⟩))
        (tcpFrom_allowFromNsg.mpr ⟨rfl, rfl⟩)
    · exact hout (mem_channelDecls.mpr (.inr ⟨h, hnil, rfl⟩)) (tcpTo_allowToNsg.mpr ⟨rfl, rfl⟩)
    · exact hin (mem_channelDecls.mpr (.inr ⟨h, hnil, rfl⟩)) (tcpFrom_allowFromNsg.mpr ⟨rfl, rfl⟩)
    · rw [hsrc.length_rules, outDecls, length_channelDecls hssh]
    · rw [htgt.length_rules, inDecls, length_channelDecls hssh]

end World

/-! ## A target that takes no management SSH, and one that does -/

/-- The world that `api = Nsg("api", role=APP_SERVER, …); web = Nsg("web", role=INTERNET_EDGE, …)`
leaves. -/
def apiWebWorld : World :=
  replay NsgOp.exec [.build apiArgs, .build webArgs] (World.ofVcn defaultBase.fresh)

/-- An internet-facing target takes no management SSH, and is related on three ports. -/
theorem relatedOnEach_iff_apiWeb : ∃ self target,
    apiWebWorld.nsgs "api" = some self ∧ apiWebWorld.nsgs "web" = some target ∧
      apiWebWorld.RelatedOnEach "api" "web" self target [8080, 9090, 443] := by
  refine ⟨_, _, rfl, rfl,
    (World.relatedOnEach_iff rfl (by decide) rfl rfl (by decide)).mpr ⟨⟨?_, ?_⟩, ?_⟩⟩
  · decide
  · intro hssh
    cases hssh
  · intro hssh
    cases hssh

/-- A group without a role. -/
def bareArgs (name : String) : NsgArgs where
  name := name
  stackName := "dev"

/-- The world that `lb = Nsg("lb", …); web = Nsg("web", …)` leaves. -/
def lbWebWorld : World :=
  replay NsgOp.exec [.build (bareArgs "lb"), .build (bareArgs "web")]
    (World.ofVcn defaultBase.fresh)

/-- A second port is refused: the SSH channel has been opened with the first. -/
theorem lbWeb_secondPort_refused : ¬ ∀ (w : World) (src tgt : String) (self target : Nsg)
    (ports : List ℤ), w.vcn.securityListsFinalized = false → src ≠ tgt →
    w.nsgs src = some self → w.nsgs tgt = some target → ports.Nodup →
    w.RelatedOnEach src tgt self target ports := by
  intro hall
  obtain ⟨w', -, -, hrun, -⟩ := hall lbWebWorld "lb" "web" (bareArgs "lb").empty
    (bareArgs "web").empty [8080, 443] rfl (by decide) rfl rfl (by decide)
  have hacc :=
    (World.exists_run_servesEach_iff (w := lbWebWorld) [8080, 443] rfl rfl rfl).1.mp ⟨w', hrun⟩
  rw [World.accepts_portDecls_iff (by decide) rfl rfl (by decide)] at hacc
  exact absurd (hacc.2 rfl) (by decide)

end CloudSpells
