import CloudSpells.Spells.Standalone
import Mathlib.Data.List.Nodup

/-!
# Spells/Iam — what the IAM spells of a tenancy permit

An IAM spell makes a group and a policy for it, and what the policy permits is in the texts of its
statements, as who is in a dynamic group is in the text of its matching rule.  `readStatement` and
`readMatchingRule` read such texts back, so a set of spells has a meaning: which instances may do
what and where (`InstanceMay`), and likewise the members of a group (`MemberMay`).

Every policy is for the group of its own spell and for the spell's compartment, and no two groups of
a tenancy have one name; so what is permitted is what the arguments ask for
(`permissions_of_spells`) — of every principal of a compartment, to every instance in it.
-/

namespace CloudSpells

open Machinery.Segments

/-! ## Groups and policies -/

namespace IamSpell

/-- What the statements of a spell permit; no grants is `None` or `[]`. -/
def grants : IamSpell → List String
  | computeInstancePrincipal grants =>
    match grants with
    | none | some [] => ["read object-family", "read secret-family"]
    | some (grant :: rest) => grant :: rest
  | okeNodePrincipal =>
    ["manage instance-family", "use virtual-network-family", "manage load-balancers",
      "use volume-family", "read repos"]
  | compartmentAdminGroup => ["manage all-resources"]

/-- The spell makes a dynamic group. -/
def isDynamic : IamSpell → Bool
  | computeInstancePrincipal _ | okeNodePrincipal => true
  | compartmentAdminGroup => false

end IamSpell

/-- The arguments of an IAM spell. -/
structure IdentityArgs extends IamArgs where
  compartmentId : String
  tenancyId : String
  deriving DecidableEq, Repr

/-- `oci.identity.DynamicGroup` or `oci.identity.Group`, which has no matching rule. -/
structure IdentityGroup where
  resource : Resource
  compartmentId : String
  name : String
  description : String
  matchingRule : Option String
  deriving DecidableEq, Repr

/-- `oci.identity.Policy`. -/
structure IdentityPolicy where
  resource : Resource
  compartmentId : String
  name : String
  description : String
  statements : List String
  deriving DecidableEq, Repr

/-- The group and the policy of an IAM spell. -/
structure Identity where
  group : IdentityGroup
  policy : IdentityPolicy
  deriving DecidableEq, Repr

/-- The matching rule of a dynamic group. -/
def matchingRule (compartmentId : String) : String :=
  s!"instance.compartment.id = '{compartmentId}'"

namespace IdentityArgs

/-- `display_name`. -/
def displayName (args : IdentityArgs) : String := s!"{args.stackName}-{args.name}"

/-- The description of the group. -/
def groupDescription (args : IdentityArgs) : String :=
  match args.spell with
  | .computeInstancePrincipal _ => s!"Instance principal for {args.displayName}"
  | .okeNodePrincipal =>
    s!"OKE node principal for {args.displayName} — cluster operational permissions"
  | .compartmentAdminGroup => s!"Compartment administrators for {args.displayName}"

/-- The description of the policy. -/
def policyDescription (args : IdentityArgs) (groupName : String) : String :=
  match args.spell with
  | .computeInstancePrincipal _ => s!"Instance principal policy for {groupName}"
  | .okeNodePrincipal => s!"OKE node operational permissions for {groupName}"
  | .compartmentAdminGroup => s!"Compartment admin policy for {groupName}"

/-- A statement of the policy. -/
def statement (args : IdentityArgs) (groupName grant : String) : String :=
  if args.spell.isDynamic then
    s!"Allow dynamic-group {groupName} to {grant} in compartment id {args.compartmentId}"
  else s!"Allow group {groupName} to {grant} in compartment id {args.compartmentId}"

end IdentityArgs

/-- `ComputeInstancePrincipal(…)`, `OkeNodePrincipal(…)`, `CompartmentAdminGroup(…)`. -/
def Identity.init (args : IdentityArgs) : Except PyError Identity := do
  let principal ← Principal.init args.toIamArgs
  return {
    group := {
      resource := principal.group
      compartmentId := args.tenancyId
      name := principal.group.name
      description := args.groupDescription
      matchingRule :=
        if args.spell.isDynamic then some (matchingRule args.compartmentId) else none }
    policy := {
      resource := principal.policy
      compartmentId := args.compartmentId
      name := principal.policy.name
      description := args.policyDescription principal.group.name
      statements := args.spell.grants.map (args.statement principal.group.name) } }

/-! ## Reading statements -/

/-- The subjects of a statement. -/
inductive SubjectKind
  | group
  | dynamicGroup
  deriving DecidableEq, Repr

/-- The word for a kind of subject. -/
def SubjectKind.word : SubjectKind → String
  | group => "group"
  | dynamicGroup => "dynamic-group"

/-- What a statement says: who may do what in which compartment. -/
structure Statement where
  kind : SubjectKind
  subject : String
  grant : String
  compartment : String
  deriving DecidableEq, Repr

/-- The words of a text as a text. -/
def unwords (words : List (List Char)) : String := String.ofList ([' '].intercalate words)

/-- A kind of subject by its word. -/
def readKind (word : List Char) : Option SubjectKind :=
  if word = "group".toList then some .group
  else if word = "dynamic-group".toList then some .dynamicGroup
  else none

/-- A statement: the last four words are the compartment it is for, and what stands before them,
after the subject, is what it permits. -/
def readStatement (text : String) : Option Statement :=
  match segments ' ' text with
  | allow :: kind :: subject :: verb :: rest =>
    match rest.reverse with
    | compartment :: id :: scope :: within :: grant =>
      if allow = "Allow".toList ∧ verb = "to".toList ∧ id = "id".toList ∧
          scope = "compartment".toList ∧ within = "in".toList then do
        let kind ← readKind kind
        return {
          kind := kind
          subject := String.ofList subject
          grant := unwords grant.reverse
          compartment := String.ofList compartment }
      else none
    | _ => none
  | _ => none

/-- The statement of a spell, as words. -/
def statementWords (kind : SubjectKind) (subject grant compartment : String) : List String :=
  ["Allow", kind.word, subject, "to", grant, "in", "compartment", "id", compartment]

/-- **A statement is read back**, whatever it permits, where its subject and its compartment are
single words. -/
theorem readStatement_intercalate (kind : SubjectKind) {subject compartment : String}
    (hsubject : ' ' ∉ subject.toList) (hcompartment : ' ' ∉ compartment.toList) (grant : String) :
    readStatement (" ".intercalate (statementWords kind subject grant compartment)) =
      some { kind := kind, subject := subject, grant := grant, compartment := compartment } := by
  have hsegments : segments ' ' (" ".intercalate (statementWords kind subject grant compartment)) =
      "Allow".toList :: kind.word.toList :: subject.toList :: "to".toList ::
        (segments ' ' grant ++
          ["in".toList, "compartment".toList, "id".toList, compartment.toList]) := by
    have hkind : ' ' ∉ kind.word.toList := by
      cases kind
      · decide
      · decide
    rw [segments_intercalate rfl (by simp [statementWords])]
    simp only [statementWords, List.flatMap_cons, List.flatMap_nil, List.append_nil]
    rw [segments_of_notMem hkind, segments_of_notMem hsubject, segments_of_notMem hcompartment]
    rfl
  have hkind : readKind kind.word.toList = some kind := by
    cases kind
    · rfl
    · decide
  have hgrant : unwords (segments ' ' grant) = grant := by
    rw [unwords, segments, List.intercalate_splitOn, String.ofList_toList]
  rw [readStatement, hsegments]
  simp [hkind, hgrant]

theorem IdentityArgs.statement_eq (args : IdentityArgs) (groupName grant : String) :
    args.statement groupName grant = " ".intercalate (statementWords
      (if args.spell.isDynamic then .dynamicGroup else .group) groupName grant
        args.compartmentId) := by
  rw [← String.toList_inj]
  unfold statement
  split
  · change ("Allow dynamic-group " ++ groupName ++ " to " ++ grant ++ " in compartment id " ++
      args.compartmentId).toList = _
    simp [statementWords, SubjectKind.word, String.toList_append]
  · change ("Allow group " ++ groupName ++ " to " ++ grant ++ " in compartment id " ++
      args.compartmentId).toList = _
    simp [statementWords, SubjectKind.word, String.toList_append]

/-! ## Reading matching rules -/

/-- An instance, as a matching rule sees it. -/
structure MatchedInstance where
  id : String
  compartmentId : String
  deriving DecidableEq, Repr

/-- What a condition looks at. -/
inductive InstanceKey
  | id
  | compartmentId
  deriving DecidableEq, Repr

/-- What an instance has there. -/
def InstanceKey.of (key : InstanceKey) (machine : MatchedInstance) : String :=
  match key with
  | id => machine.id
  | compartmentId => machine.compartmentId

/-- A key by its word. -/
def readInstanceKey (word : List Char) : Option InstanceKey :=
  if word = "instance.id".toList then some .id
  else if word = "instance.compartment.id".toList then some .compartmentId
  else none

/-- A condition on instances. -/
structure Condition where
  key : InstanceKey
  equal : Bool
  value : String
  deriving DecidableEq, Repr

/-- The instance meets the condition. -/
def Condition.Holds (condition : Condition) (machine : MatchedInstance) : Prop :=
  if condition.equal then condition.key.of machine = condition.value
  else condition.key.of machine ≠ condition.value

instance (condition : Condition) (machine : MatchedInstance) :
    Decidable (condition.Holds machine) := by
  unfold Condition.Holds
  infer_instance

/-- Whether a condition is that the two are equal, by the word between them. -/
def readOperator (word : List Char) : Option Bool :=
  if word = "=".toList then some true else if word = "!=".toList then some false else none

/-- The quote of a matching rule. -/
def quote : Char := Char.ofNat 0x27

/-- What is between two quotes, if there is none in it. -/
def readQuote : List Char → Option String
  | [] => none
  | c :: cs =>
    if c = quote ∧ cs.getLast? = some quote ∧ quote ∉ cs.dropLast then
      some (String.ofList cs.dropLast)
    else none

/-- A matching rule that is one condition. -/
def readMatchingRule (text : String) : Option Condition :=
  match segments ' ' text with
  | [key, operator, value] => do
    let key ← readInstanceKey key
    let equal ← readOperator operator
    let value ← readQuote value
    return { key := key, equal := equal, value := value }
  | _ => none

theorem matchingRule_eq (compartmentId : String) : matchingRule compartmentId =
    " ".intercalate ["instance.compartment.id", "=",
      String.ofList (quote :: (compartmentId.toList ++ [quote]))] := by
  rw [← String.toList_inj]
  change ("instance.compartment.id = '" ++ compartmentId ++ "'").toList = _
  simp [quote, String.toList_append]

/-- **A matching rule is read back** as the condition that the instance is in the compartment. -/
theorem readMatchingRule_matchingRule {compartmentId : String} (hword : ' ' ∉ compartmentId.toList)
    (hquote : quote ∉ compartmentId.toList) : readMatchingRule (matchingRule compartmentId) =
      some { key := .compartmentId, equal := true, value := compartmentId } := by
  have hvalue : ' ' ∉ (String.ofList (quote :: (compartmentId.toList ++ [quote]))).toList := by
    have hspace : ' ' ≠ quote := by decide
    simp [hspace, hword]
  have hsegments : segments ' ' (matchingRule compartmentId) =
      ["instance.compartment.id".toList, "=".toList,
        quote :: (compartmentId.toList ++ [quote])] := by
    rw [matchingRule_eq, segments_intercalate rfl (by simp)]
    simp only [List.flatMap_cons, List.flatMap_nil, List.append_nil]
    rw [segments_of_notMem hvalue, String.toList_ofList]
    rfl
  have hread : readQuote (quote :: (compartmentId.toList ++ [quote])) = some compartmentId := by
    simp [readQuote, hquote]
  rw [readMatchingRule, hsegments]
  simp only [hread]
  rfl

/-! ## What the spells of a tenancy permit -/

/-- An IAM spell that was built. -/
structure BuiltIdentity where
  args : IdentityArgs
  identity : Identity
  built : Identity.init args = .ok identity

namespace BuiltIdentity

variable {a b : BuiltIdentity}

/-- The name of the group of a spell. -/
def groupName (a : BuiltIdentity) : String :=
  a.args.stackName ++ "-" ++ a.args.name ++ "-" ++ if a.args.spell.isDynamic then "dg" else "group"

/-- The group of an administrator spell. -/
theorem groupName_admin (h : a.args.spell = .compartmentAdminGroup) :
    a.groupName = a.args.stackName ++ "-" ++ a.args.name ++ "-group" := by
  have hsuffix : "-group" = "-" ++ "group" := rfl
  rw [groupName, h, hsuffix, ← String.append_assoc]
  rfl

/-- The kind of subject that the group of a spell is. -/
def kind (a : BuiltIdentity) : SubjectKind :=
  if a.args.spell.isDynamic then .dynamicGroup else .group

/-- A spell that was built, from its arguments. -/
theorem identity_eq (a : BuiltIdentity) : a.identity.group.name = a.groupName ∧
    a.identity.group.matchingRule =
      (if a.args.spell.isDynamic then some (matchingRule a.args.compartmentId) else none) ∧
    a.identity.policy.statements = a.args.spell.grants.map (a.args.statement a.groupName) := by
  obtain ⟨principal, hprincipal, hrest⟩ := bind_eq_ok.mp a.built
  obtain ⟨hnamer, hspell, hgroup, -⟩ := Principal.eq_of_init hprincipal
  have hname : principal.group.name = a.groupName := by
    rw [hgroup, hnamer, hspell]
    unfold groupName
    cases a.args.spell <;> rfl
  rw [← Except.ok.inj hrest]
  exact ⟨hname, rfl, by rw [← hname]⟩

/-- The arguments of a spell are single words, and there is no quote in its compartment. -/
structure SingleWords (a : BuiltIdentity) : Prop where
  stackName : ' ' ∉ a.args.stackName.toList
  name : ' ' ∉ a.args.name.toList
  compartmentId : ' ' ∉ a.args.compartmentId.toList
  unquoted : quote ∉ a.args.compartmentId.toList

theorem SingleWords.groupName (h : a.SingleWords) : ' ' ∉ a.groupName.toList := by
  have hdash : ' ' ∉ "-".toList := by decide
  have hsuffix : ' ' ∉ (if a.args.spell.isDynamic then "dg" else "group").toList := by
    split
    · decide
    · decide
  simp only [BuiltIdentity.groupName, String.toList_append, List.mem_append, not_or]
  exact ⟨⟨⟨⟨h.stackName, hdash⟩, h.name⟩, hdash⟩, hsuffix⟩

/-- **What a statement of a spell says.** -/
theorem exists_readStatement_iff (h : a.SingleWords) {s : Statement} :
    (∃ text ∈ a.identity.policy.statements, readStatement text = some s) ↔
      s.kind = a.kind ∧ s.subject = a.groupName ∧ s.grant ∈ a.args.spell.grants ∧
        s.compartment = a.args.compartmentId := by
  rw [a.identity_eq.2.2]
  simp only [List.mem_map, exists_exists_and_eq_and, IdentityArgs.statement_eq]
  constructor
  · rintro ⟨grant, hgrant, hread⟩
    rw [readStatement_intercalate _ h.groupName h.compartmentId] at hread
    obtain rfl := Option.some.inj hread
    exact ⟨rfl, rfl, hgrant, rfl⟩
  · rintro ⟨hkind, hsubject, hgrant, hcompartment⟩
    refine ⟨s.grant, hgrant, ?_⟩
    rw [readStatement_intercalate _ h.groupName h.compartmentId]
    obtain ⟨_, _, _, _⟩ := s
    subst hkind hsubject hcompartment
    rfl

end BuiltIdentity

/-- An instance may make use of a grant in a scope: a dynamic group whose matching rule it meets is
the subject of a statement that permits it. -/
def InstanceMay (spells : List BuiltIdentity) (machine : MatchedInstance)
    (grant scope : String) : Prop :=
  ∃ a ∈ spells, (∃ rule ∈ a.identity.group.matchingRule, ∃ condition ∈ readMatchingRule rule,
      condition.Holds machine) ∧
    ∃ b ∈ spells, ∃ text ∈ b.identity.policy.statements,
      readStatement text = some {
        kind := .dynamicGroup
        subject := a.identity.group.name
        grant := grant
        compartment := scope }

/-- A member of a group may make use of a grant in a scope. -/
def MemberMay (spells : List BuiltIdentity) (group grant scope : String) : Prop :=
  ∃ b ∈ spells, ∃ text ∈ b.identity.policy.statements,
    readStatement text =
      some { kind := .group, subject := group, grant := grant, compartment := scope }

/-- **Which instances meet the matching rule of a spell.** -/
theorem BuiltIdentity.exists_holds_iff {a : BuiltIdentity} (h : a.SingleWords)
    {machine : MatchedInstance} :
    (∃ rule ∈ a.identity.group.matchingRule, ∃ condition ∈ readMatchingRule rule,
      condition.Holds machine) ↔
      a.args.spell.isDynamic = true ∧ a.args.compartmentId = machine.compartmentId := by
  rw [a.identity_eq.2.1]
  split_ifs with hdynamic
  · simp only [Option.mem_some_iff, exists_eq_left',
      readMatchingRule_matchingRule h.compartmentId h.unquoted]
    exact eq_comm.trans (and_iff_right hdynamic).symm
  · simp [hdynamic]

/-- **What the IAM spells of a tenancy permit**, where no two groups have one name.  An instance may
make use of exactly the grants of the principals of its own compartment, in that compartment; and
the members of a group of exactly what its administrator spell grants, in the spell's
compartment. -/
theorem permissions_of_spells (spells : List BuiltIdentity) (hwords : ∀ a ∈ spells, a.SingleWords)
    (hgroups : (spells.map fun a => a.identity.group.name).Nodup) (grant scope : String) :
    (∀ machine, InstanceMay spells machine grant scope ↔ scope = machine.compartmentId ∧
      ∃ a ∈ spells, a.args.spell.isDynamic = true ∧
        a.args.compartmentId = machine.compartmentId ∧ grant ∈ a.args.spell.grants) ∧
    ∀ group, MemberMay spells group grant scope ↔ grant = "manage all-resources" ∧
      ∃ a ∈ spells, a.args.spell = .compartmentAdminGroup ∧ a.args.compartmentId = scope ∧
        group = a.args.stackName ++ "-" ++ a.args.name ++ "-group" := by
  refine ⟨fun machine => ⟨?_, ?_⟩, fun group => ⟨?_, ?_⟩⟩
  · rintro ⟨a, ha, hrule, b, hb, hread⟩
    obtain ⟨-, hsubject, hgrant, rfl⟩ :=
      (BuiltIdentity.exists_readStatement_iff (hwords b hb)).mp hread
    -- The group a statement is for is that of its own spell.
    obtain rfl := List.inj_on_of_nodup_map hgroups ha hb (hsubject.trans b.identity_eq.1.symm)
    obtain ⟨hdynamic, hhome⟩ := (BuiltIdentity.exists_holds_iff (hwords a ha)).mp hrule
    exact ⟨hhome, a, ha, hdynamic, hhome, hgrant⟩
  · rintro ⟨rfl, a, ha, hdynamic, hhome, hgrant⟩
    refine ⟨a, ha, (BuiltIdentity.exists_holds_iff (hwords a ha)).mpr ⟨hdynamic, hhome⟩, a, ha,
      (BuiltIdentity.exists_readStatement_iff (hwords a ha)).mpr
        ⟨?_, a.identity_eq.1, hgrant, hhome.symm⟩⟩
    rw [BuiltIdentity.kind, if_pos hdynamic]
  · rintro ⟨b, hb, hread⟩
    obtain ⟨hkind, hsubject, hgrant, rfl⟩ :=
      (BuiltIdentity.exists_readStatement_iff (hwords b hb)).mp hread
    cases hspell : b.args.spell with
    | compartmentAdminGroup =>
      rw [hspell] at hgrant
      refine ⟨List.mem_singleton.mp hgrant, b, hb, hspell, rfl, ?_⟩
      rw [← BuiltIdentity.groupName_admin hspell]
      exact hsubject
    | _ =>
      rw [BuiltIdentity.kind, hspell] at hkind
      cases hkind
  · rintro ⟨rfl, a, ha, hspell, rfl, rfl⟩
    refine ⟨a, ha, (BuiltIdentity.exists_readStatement_iff (hwords a ha)).mpr ⟨?_, ?_, ?_, rfl⟩⟩
    · rw [BuiltIdentity.kind, hspell]
      rfl
    · rw [BuiltIdentity.groupName_admin hspell]
    · rw [hspell]
      exact List.mem_singleton_self _

/-- An instance principal and an administrator group of one stack, in one compartment. -/
theorem permissions_of_spells_default : ∃ spells : List BuiltIdentity,
    InstanceMay spells ⟨"ocid1.instance.c", "ocid1.compartment.a"⟩ "read object-family"
        "ocid1.compartment.a" ∧
      MemberMay spells "dev-ops-group" "manage all-resources" "ocid1.compartment.a" := by
  let app : IdentityArgs := {
    name := "app", stackName := "dev", spell := .computeInstancePrincipal none
    compartmentId := "ocid1.compartment.a", tenancyId := "ocid1.tenancy.b" }
  let ops : IdentityArgs := {
    name := "ops", stackName := "dev", spell := .compartmentAdminGroup
    compartmentId := "ocid1.compartment.a", tenancyId := "ocid1.tenancy.b" }
  obtain ⟨a, ha⟩ : ∃ a, Identity.init app = .ok a := ⟨_, rfl⟩
  obtain ⟨b, hb⟩ : ∃ b, Identity.init ops = .ok b := ⟨_, rfl⟩
  let spells : List BuiltIdentity := [⟨app, a, ha⟩, ⟨ops, b, hb⟩]
  have hdev : ' ' ∉ "dev".toList := by decide
  have hcompartment : ' ' ∉ "ocid1.compartment.a".toList := by decide
  have hunquoted : quote ∉ "ocid1.compartment.a".toList := by decide
  have happ : ' ' ∉ "app".toList := by decide
  have hops : ' ' ∉ "ops".toList := by decide
  have hwords : ∀ c ∈ spells, c.SingleWords := by
    intro c hc
    obtain rfl | hc := List.mem_cons.mp hc
    · exact ⟨hdev, happ, hcompartment, hunquoted⟩
    · obtain rfl := List.mem_singleton.mp hc
      exact ⟨hdev, hops, hcompartment, hunquoted⟩
  have hgroups : (spells.map fun c => c.identity.group.name).Nodup := by
    simp only [spells, List.map_cons, List.map_nil, BuiltIdentity.identity_eq]
    change ["dev" ++ "-" ++ "app" ++ "-" ++ "dg", "dev" ++ "-" ++ "ops" ++ "-" ++ "group"].Nodup
    decide
  have hmay := permissions_of_spells spells hwords hgroups
  refine ⟨spells, ((hmay _ _).1 _).mpr ⟨rfl, _, .head _, rfl, rfl, .head _⟩,
    ((hmay _ _).2 _).mpr ⟨rfl, _, .tail _ (.head _), rfl, rfl, ?_⟩⟩
  change _ = "dev" ++ "-" ++ "ops" ++ "-group"
  decide

end CloudSpells
