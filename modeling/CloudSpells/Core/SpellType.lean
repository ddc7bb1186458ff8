import CloudSpells.Machinery.Segments
import CloudSpells.Machinery.Substitution
import Mathlib.Data.List.DropRight

/-!
# Core/SpellType — the spell type a resource is tagged with

`_spell_type_from_urn` takes the class name out of a resource type and writes it in kebab case, with
two substitutions and `lower()`.  Either substitution puts a hyphen at the boundaries of its own
(`sub_ACRONYM`, `sub_WORD`), the second finds none at the hyphens of the first, and so the two are
one pass over the name (`spellTypeFromUrn_eq`).
-/

namespace CloudSpells

open Machinery Segments Substitution Pattern

/-! ## The function -/

/-- `s.rsplit(sep, 1)`. -/
def rsplitOnce (sep : Char) (s : List Char) : List (List Char) :=
  if sep ∈ s then [(s.rdropWhile (· ≠ sep)).dropLast, s.rtakeWhile (· ≠ sep)] else [s]

/-- `([A-Z]+)([A-Z][a-z])`. -/
def ACRONYM : Pattern Char :=
  .seq (.group (.many Char.isUpper)) (.group (.seq (.one Char.isUpper) (.one Char.isLower)))

/-- `([a-z\d])([A-Z])`; the digits are those of ASCII text. -/
def WORD : Pattern Char :=
  .seq (.group (.one fun c => c.isLower || c.isDigit)) (.group (.one Char.isUpper))

/-- `\1-\2`. -/
def HYPHENATED : List (Piece Char) := [.ref 1, .lit '-', .ref 2]

/-- `_spell_type_from_urn`; `lower()` is that of ASCII text. -/
def spellTypeFromUrn (resourceType : String) : String :=
  let className := (rsplitOnce ':' resourceType.toList).getLastD []
  let s := sub ACRONYM HYPHENATED className
  let s := sub WORD HYPHENATED s
  String.ofList (s.map Char.toLower)

/-! ## Characters -/

section Characters

variable {c d : Char}

theorem isUpper_iff_toNat : c.isUpper = true ↔ 65 ≤ c.toNat ∧ c.toNat ≤ 90 := by
  change decide (c.val ≥ 'A'.val ∧ c.val ≤ 'Z'.val) = true ↔ _
  rw [decide_eq_true_eq]
  exact Iff.rfl

theorem isLower_iff_toNat : c.isLower = true ↔ 97 ≤ c.toNat ∧ c.toNat ≤ 122 := by
  change (decide (c.val ≥ 'a'.val) && decide (c.val ≤ 'z'.val)) = true ↔ _
  rw [Bool.and_eq_true, decide_eq_true_eq, decide_eq_true_eq]
  exact Iff.rfl

theorem isDigit_iff_toNat : c.isDigit = true ↔ 48 ≤ c.toNat ∧ c.toNat ≤ 57 := by
  change (decide (c.val ≥ '0'.val) && decide (c.val ≤ '9'.val)) = true ↔ _
  rw [Bool.and_eq_true, decide_eq_true_eq, decide_eq_true_eq]
  exact Iff.rfl

/-- A capital is no other letter, and no digit. -/
theorem not_lower_of_upper (h : c.isUpper = true) : (c.isLower || c.isDigit) = false := by
  rw [Bool.or_eq_false_iff, ← Bool.not_eq_true, ← Bool.not_eq_true, isLower_iff_toNat,
    isDigit_iff_toNat]
  have hupper := isUpper_iff_toNat.mp h
  omega

theorem not_upper_of_lower (h : c.isLower = true) : c.isUpper = false := by
  rw [← Bool.not_eq_true, isUpper_iff_toNat]
  have hlower := isLower_iff_toNat.mp h
  omega

theorem toLower_of_not_upper (h : c.isUpper = false) : c.toLower = c :=
  dif_neg fun hupper => Bool.eq_false_iff.mp h (decide_eq_true hupper)

/-- The lower case of a capital. -/
theorem toNat_toLower_of_upper (h : c.isUpper = true) : c.toLower.toNat = c.toNat + 32 := by
  have hval : c.toLower.val = c.val + 32 := congrArg Char.val (dif_pos (of_decide_eq_true h))
  have hle := (isUpper_iff_toNat.mp h).2
  change c.toLower.val.toNat = c.val.toNat + 32
  rw [hval, UInt32.toNat_add]
  change c.val.toNat ≤ 90 at hle
  change (c.val.toNat + 32) % 2 ^ 32 = c.val.toNat + 32
  exact Nat.mod_eq_of_lt (by omega)

theorem isUpper_toLower (c : Char) : c.toLower.isUpper = false := by
  cases h : c.isUpper with
  | false => rw [toLower_of_not_upper h, h]
  | true =>
    rw [← Bool.not_eq_true, isUpper_iff_toNat, toNat_toLower_of_upper h]
    have hupper := isUpper_iff_toNat.mp h
    omega

/-- A character before the letters is that of no other. -/
theorem toLower_eq_iff (hd : d.toNat < 65) : c.toLower = d ↔ c = d := by
  cases h : c.isUpper with
  | false => rw [toLower_of_not_upper h]
  | true =>
    have hupper := isUpper_iff_toNat.mp h
    refine iff_of_false (fun heq => ?_) fun heq => ?_
    · have hnat := toNat_toLower_of_upper h
      rw [heq] at hnat
      omega
    · rw [heq] at hupper
      omega

end Characters

/-! ## The boundaries -/

/-- The last of the segments between colons. -/
def className (resourceType : String) : List Char := (segments ':' resourceType).getLastD []

/-- A capital before a capital that a lower-case letter follows. -/
def acronymEnds (a : Char) : List Char → Bool
  | b :: c :: _ => a.isUpper && b.isUpper && c.isLower
  | _ => false

/-- A lower-case letter or a digit before a capital. -/
def wordStarts (a : Char) : List Char → Bool
  | b :: _ => (a.isLower || a.isDigit) && b.isUpper
  | [] => false

/-- A name with a hyphen at every boundary. -/
def hyphenate (name : List Char) : List Char :=
  separate '-' (fun a s => acronymEnds a s || wordStarts a s) name

section Boundaries

variable {sep a b c : Char} {s t u : List Char} {m : Match Char}

theorem getLastD_rsplitOnce (sep : Char) (s : List Char) :
    (rsplitOnce sep s).getLastD [] = (s.splitOn sep).getLastD [] := by
  unfold rsplitOnce
  split
  · rename_i hsep
    obtain ⟨b, a, hs, hb⟩ := List.eq_append_cons_of_mem (List.mem_reverse.mpr hsep)
    have hrev : s = a.reverse ++ sep :: b.reverse := by
      rw [← List.reverse_reverse s, hs]
      simp
    have hb' : sep ∉ b.reverse := by rwa [List.mem_reverse]
    have htake : s.rtakeWhile (· ≠ sep) = b.reverse := by
      rw [List.rtakeWhile, hs, List.takeWhile_append_of_pos, List.takeWhile_cons_of_neg (by simp),
        List.append_nil]
      exact fun c hc => by simpa using fun heq : c = sep => hb (heq ▸ hc)
    have hsplit : s.splitOn sep = a.reverse.splitOn sep ++ [b.reverse] := by
      rw [hrev, List.splitOn_append_cons_self, List.splitOn_eq_singleton hb']
    rw [hsplit, List.getLastD_concat, htake]
    rfl
  · rename_i hsep
    rw [List.splitOn_eq_singleton hsep]

/-! ### The end of an acronym -/

theorem acronymEnds_of_not_upper (h : a.isUpper = false) : acronymEnds a s = false := by
  unfold acronymEnds
  split
  · rw [h, Bool.false_and, Bool.false_and]
  · rfl

theorem acronymEnds_cons_of_not_upper (h : b.isUpper = false) :
    acronymEnds a (b :: s) = false := by
  unfold acronymEnds
  split
  · rename_i heq
    obtain ⟨rfl, -⟩ := List.cons.inj heq
    rw [h, Bool.and_false, Bool.false_and]
  · rfl

theorem acronymEnds_cons_of_upper (h : c.isUpper = true) :
    acronymEnds a (b :: c :: s) = false := by
  have hc := (Bool.or_eq_false_iff.mp (not_lower_of_upper h)).1
  rw [acronymEnds, hc, Bool.and_false]

/-- A boundary, taken apart. -/
theorem acronymEnds_eq_true : acronymEnds a s = true ↔ ∃ b c t, s = b :: c :: t ∧
    a.isUpper = true ∧ b.isUpper = true ∧ c.isLower = true := by
  unfold acronymEnds
  split
  · simp only [Bool.and_eq_true, List.cons.injEq, and_assoc]
    constructor
    · rintro ⟨ha, hb, hc⟩
      exact ⟨_, _, _, rfl, rfl, rfl, ha, hb, hc⟩
    · rintro ⟨_, _, _, rfl, rfl, rfl, ha, hb, hc⟩
      exact ⟨ha, hb, hc⟩
  · rename_i hshort
    refine iff_of_false Bool.false_ne_true ?_
    rintro ⟨b, c, t, rfl, -⟩
    exact hshort b c t rfl

theorem mem_ways_ACRONYM : m ∈ ACRONYM.ways s ↔ ∃ u b c t, u ≠ [] ∧
    (∀ a ∈ u, a.isUpper = true) ∧ b.isUpper = true ∧ c.isLower = true ∧
    s = u ++ b :: c :: t ∧ m = ⟨[u, [b, c]], u ++ [b, c], t⟩ := by
  constructor
  · intro h
    obtain ⟨m₁, h₁, m₂, h₂, rfl⟩ := mem_ways_seq.mp h
    obtain ⟨n₁, hrun, rfl⟩ := mem_ways_group.mp h₁
    obtain ⟨u, s', hu, hall, rfl, rfl⟩ := mem_ways_many.mp hrun
    obtain ⟨n₂, hword, rfl⟩ := mem_ways_group.mp h₂
    obtain ⟨n₃, h₃, n₄, h₄, rfl⟩ := mem_ways_seq.mp hword
    obtain ⟨b, t₁, hb, heq, rfl⟩ := mem_ways_one.mp h₃
    obtain ⟨c, t, hc, heq', rfl⟩ := mem_ways_one.mp h₄
    subst heq'
    subst heq
    exact ⟨u, b, c, t, hu, hall, hb, hc, rfl, rfl⟩
  · rintro ⟨u, b, c, t, hu, hall, hb, hc, rfl, rfl⟩
    refine mem_ways_seq.mpr ⟨_, mem_ways_group.mpr ⟨_, mem_ways_many.mpr
      ⟨u, b :: c :: t, hu, hall, rfl, rfl⟩, rfl⟩, _, mem_ways_group.mpr ⟨_, mem_ways_seq.mpr
      ⟨_, mem_ways_one.mpr ⟨b, c :: t, hb, rfl, rfl⟩, _,
        mem_ways_one.mpr ⟨c, t, hc, rfl, rfl⟩, rfl⟩, rfl⟩, rfl⟩

/-- **A run of capitals and a capitalised word** has one boundary, between the two. -/
theorem separate_run (hb : b.isUpper = true) (hc : c.isLower = true) (t : List Char) :
    ∀ {u : List Char}, u ≠ [] → (∀ a ∈ u, a.isUpper = true) →
      separate '-' acronymEnds (u ++ b :: c :: t) =
        u ++ '-' :: b :: c :: separate '-' acronymEnds t
  | [], h, _ => absurd rfl h
  | [a], _, hall => by
    have ha : acronymEnds a (b :: c :: t) = true :=
      acronymEnds_eq_true.mpr ⟨b, c, t, rfl, hall a List.mem_cons_self, hb, hc⟩
    have hclow : c.isUpper = false := not_upper_of_lower hc
    rw [List.singleton_append, List.singleton_append, separate_cons_of_boundary ha,
      separate_cons_of_not (acronymEnds_cons_of_not_upper hclow),
      separate_cons_of_not (acronymEnds_of_not_upper hclow)]
  | a :: a' :: u, _, hall => by
    obtain ⟨-, hall⟩ := List.forall_mem_cons.mp hall
    have ih := separate_run hb hc t (List.cons_ne_nil a' u) hall
    have ha : acronymEnds a (a' :: u ++ b :: c :: t) = false := by
      -- two capitals come next, of the run or the first of the word
      rw [List.cons_append]
      cases u with
      | nil => exact acronymEnds_cons_of_upper hb
      | cons a'' u => exact acronymEnds_cons_of_upper (hall a'' (by simp))
    rw [List.cons_append, separate_cons_of_not ha, ih]
    rfl

/-- **The first substitution is one pass.** -/
theorem sub_ACRONYM (s : List Char) : sub ACRONYM HYPHENATED s = separate '-' acronymEnds s := by
  refine sub_eq_of_step rfl (fun s m hm => ?_) (fun a s hnone => ?_) s
  · obtain ⟨u, b, c, t, hu, hall, hb, hc, rfl, rfl⟩ := mem_ways_ACRONYM.mp hm
    rw [separate_run hb hc t hu hall]
    simp [Match.expand, HYPHENATED]
  · refine separate_cons_of_not (Bool.eq_false_iff.mpr fun hend => ?_)
    obtain ⟨b, c, t, rfl, ha, hb, hc⟩ := acronymEnds_eq_true.mp hend
    have hmem : _ ∈ ACRONYM.ways (a :: b :: c :: t) := mem_ways_ACRONYM.mpr
      ⟨[a], b, c, t, List.cons_ne_nil _ _, List.forall_mem_singleton.mpr ha, hb, hc, rfl, rfl⟩
    rw [hnone] at hmem
    cases hmem

/-! ### The start of a word -/

/-- The start of a word is seen in the next character. -/
theorem wordStarts_eq_any (a : Char) (s : List Char) : wordStarts a s =
    s.head?.any fun b => (a.isLower || a.isDigit) && b.isUpper := by
  cases s <;> rfl

theorem wordStarts_cons_of_not_upper (h : b.isUpper = false) : wordStarts a (b :: s) = false := by
  rw [wordStarts, h, Bool.and_false]

theorem wordStarts_of_not_lower (h : (a.isLower || a.isDigit) = false) :
    wordStarts a s = false := by
  cases s with
  | nil => rfl
  | cons b s => rw [wordStarts, h, Bool.false_and]

theorem wordStarts_eq_true : wordStarts a s = true ↔ ∃ b t, s = b :: t ∧
    (a.isLower || a.isDigit) = true ∧ b.isUpper = true := by
  cases s with
  | nil => simp [wordStarts]
  | cons b s =>
    rw [wordStarts, Bool.and_eq_true]
    constructor
    · rintro ⟨ha, hb⟩
      exact ⟨b, s, rfl, ha, hb⟩
    · rintro ⟨_, _, heq, ha, hb⟩
      obtain ⟨rfl, rfl⟩ := List.cons.inj heq
      exact ⟨ha, hb⟩

theorem mem_ways_WORD : m ∈ WORD.ways s ↔ ∃ a b t, (a.isLower || a.isDigit) = true ∧
    b.isUpper = true ∧ s = a :: b :: t ∧ m = ⟨[[a], [b]], [a, b], t⟩ := by
  constructor
  · intro h
    obtain ⟨m₁, h₁, m₂, h₂, rfl⟩ := mem_ways_seq.mp h
    obtain ⟨n₁, hlow, rfl⟩ := mem_ways_group.mp h₁
    obtain ⟨a, s', ha, rfl, rfl⟩ := mem_ways_one.mp hlow
    obtain ⟨n₂, hup, rfl⟩ := mem_ways_group.mp h₂
    obtain ⟨b, t, hb, heq, rfl⟩ := mem_ways_one.mp hup
    subst heq
    exact ⟨a, b, t, ha, hb, rfl, rfl⟩
  · rintro ⟨a, b, t, ha, hb, rfl, rfl⟩
    exact mem_ways_seq.mpr ⟨_, mem_ways_group.mpr ⟨_, mem_ways_one.mpr ⟨a, b :: t, ha, rfl, rfl⟩,
      rfl⟩, _, mem_ways_group.mpr ⟨_, mem_ways_one.mpr ⟨b, t, hb, rfl, rfl⟩, rfl⟩, rfl⟩

/-- **The second substitution is one pass**: the capital it takes starts no match of its own. -/
theorem sub_WORD (s : List Char) : sub WORD HYPHENATED s = separate '-' wordStarts s := by
  refine sub_eq_of_step rfl (fun s m hm => ?_) (fun a s hnone => ?_) s
  · obtain ⟨a, b, t, ha, hb, rfl, rfl⟩ := mem_ways_WORD.mp hm
    rw [separate_cons_of_boundary (wordStarts_eq_true.mpr ⟨b, t, rfl, ha, hb⟩),
      separate_cons_of_not (wordStarts_of_not_lower (not_lower_of_upper hb))]
    rfl
  · refine separate_cons_of_not (Bool.eq_false_iff.mpr fun hstart => ?_)
    obtain ⟨b, t, rfl, ha, hb⟩ := wordStarts_eq_true.mp hstart
    have hmem : _ ∈ WORD.ways (a :: b :: t) := mem_ways_WORD.mpr ⟨a, b, t, ha, hb, rfl, rfl⟩
    rw [hnone] at hmem
    cases hmem

end Boundaries

/-! ## The spell type -/

section SpellType

variable {resourceType : String} {c : Char} {s : List Char}

/-- **The two substitutions are one pass**, over any name: the second sees a hyphen of the first as
neither letter nor digit. -/
theorem sub_sub (s : List Char) :
    sub WORD HYPHENATED (sub ACRONYM HYPHENATED s) = hyphenate s := by
  rw [sub_ACRONYM, sub_WORD]
  refine separate_separate (fun a s t hst => ?_) (fun a t => ?_) (fun t => ?_) s
  · rw [wordStarts_eq_any, hst, ← wordStarts_eq_any]
  · exact wordStarts_cons_of_not_upper rfl
  · exact wordStarts_of_not_lower rfl

/-- The spell type of any resource type. -/
theorem toList_spellTypeFromUrn (resourceType : String) :
    (spellTypeFromUrn resourceType).toList =
      (hyphenate (className resourceType)).map Char.toLower := by
  rw [spellTypeFromUrn, String.toList_ofList, sub_sub, getLastD_rsplitOnce]
  rfl

/-- A name without capitals has no boundary. -/
theorem hyphenate_of_not_upper (h : ∀ c ∈ s, c.isUpper = false) : hyphenate s = s := by
  refine separate_eq_self fun a t hsuffix => ?_
  have hat := fun b hb => h b (hsuffix.subset hb)
  rw [acronymEnds_of_not_upper (hat a List.mem_cons_self), Bool.false_or]
  cases t with
  | nil => rfl
  | cons b t => exact wordStarts_cons_of_not_upper (hat b (by simp))

/-- A class name has no hyphen of its own. -/
theorem hyphen_notMem_className (halnum : ∀ c ∈ className resourceType, c.isAlphanum = true) :
    '-' ∉ className resourceType := fun hmem => absurd (halnum _ hmem) (by decide)

/-- A spell type has no colon. -/
theorem colon_notMem_spellTypeFromUrn
    (halnum : ∀ c ∈ className resourceType, c.isAlphanum = true) :
    ':' ∉ (spellTypeFromUrn resourceType).toList := by
  rw [toList_spellTypeFromUrn]
  intro hmem
  obtain ⟨c, hc, hcolon⟩ := List.mem_map.mp hmem
  rw [toLower_eq_iff (by decide)] at hcolon
  subst hcolon
  rcases mem_separate hc with hhyphen | hmem
  · exact absurd hhyphen (by decide)
  · exact absurd (halnum _ hmem) (by decide)

/-- **A spell type is its own**: it has one segment, and no capital. -/
theorem spellTypeFromUrn_self (halnum : ∀ c ∈ className resourceType, c.isAlphanum = true) :
    spellTypeFromUrn (spellTypeFromUrn resourceType) = spellTypeFromUrn resourceType := by
  have hlower : ∀ c ∈ (spellTypeFromUrn resourceType).toList, c.isUpper = false := by
    rw [toList_spellTypeFromUrn]
    intro c hc
    obtain ⟨a, -, rfl⟩ := List.mem_map.mp hc
    exact isUpper_toLower a
  have hname :
      className (spellTypeFromUrn resourceType) = (spellTypeFromUrn resourceType).toList := by
    rw [className, segments_of_notMem (colon_notMem_spellTypeFromUrn halnum)]
    rfl
  refine String.toList_inj.mp ?_
  rw [toList_spellTypeFromUrn, hname, hyphenate_of_not_upper hlower]
  exact (List.map_congr_left fun c hc => toLower_of_not_upper (hlower c hc)).trans (List.map_id _)

/-- **The spell type of a resource type** whose class name is alphanumeric ASCII is the class name
with a hyphen at every boundary, in lower case.  Without the hyphens it is the class name in lower
case; no hyphen is first, last or next to another; and it is the spell type of itself. -/
theorem spellTypeFromUrn_eq (resourceType : String)
    (halnum : ∀ c ∈ className resourceType, c.isAlphanum = true) :
    (spellTypeFromUrn resourceType).toList =
        (hyphenate (className resourceType)).map Char.toLower ∧
      (spellTypeFromUrn resourceType).toList.filter (· ≠ '-') =
        (className resourceType).map Char.toLower ∧
      (spellTypeFromUrn resourceType).toList.head? ≠ some '-' ∧
      (spellTypeFromUrn resourceType).toList.getLast? ≠ some '-' ∧
      ¬ ['-', '-'] <:+: (spellTypeFromUrn resourceType).toList ∧
      spellTypeFromUrn (spellTypeFromUrn resourceType) = spellTypeFromUrn resourceType := by
  have hhyphen := hyphen_notMem_className halnum
  have hlower (c : Char) : c.toLower = '-' ↔ c = '-' := toLower_eq_iff (by decide)
  have htype := toList_spellTypeFromUrn resourceType
  refine ⟨htype, ?_, ?_, ?_, ?_, spellTypeFromUrn_self halnum⟩
  · have hkeep : ((fun c => decide (c ≠ '-')) ∘ Char.toLower) = fun c => decide (c ≠ '-') :=
      funext fun c => decide_eq_decide.mpr (not_congr (hlower c))
    rw [htype, List.filter_map, hkeep, hyphenate, filter_separate hhyphen]
  · rw [htype, List.head?_map, hyphenate, head?_separate]
    intro hhead
    obtain ⟨c, hc, hmap⟩ := Option.map_eq_some_iff.mp hhead
    exact hhyphen ((hlower c).mp hmap ▸ List.mem_of_head? hc)
  · rw [htype, List.getLast?_map, hyphenate, getLast?_separate fun _ => rfl]
    intro hlast
    obtain ⟨c, hc, hmap⟩ := Option.map_eq_some_iff.mp hlast
    exact hhyphen ((hlower c).mp hmap ▸ List.mem_of_getLast? hc)
  · rw [htype, List.infix_map_iff]
    rintro ⟨l, hl, hmap⟩
    obtain ⟨c, l', rfl, hc, htail⟩ := List.map_eq_cons_iff.mp hmap.symm
    obtain ⟨d, l'', rfl, hd, hnil⟩ := List.map_eq_cons_iff.mp htail
    obtain rfl := (hlower c).mp hc
    obtain rfl := (hlower d).mp hd
    obtain rfl := List.map_eq_nil_iff.mp hnil
    exact not_infix_separate hhyphen hl

/-- The flow logs. -/
theorem spellTypeFromUrn_eq_vcnFlowLogs :
    (className "custom:network:VcnFlowLogs").all Char.isAlphanum = true ∧
      (spellTypeFromUrn "custom:network:VcnFlowLogs").toList = "vcn-flow-logs".toList := by
  have hall : (className "custom:network:VcnFlowLogs").all Char.isAlphanum = true := by decide
  exact ⟨hall, (spellTypeFromUrn_eq "custom:network:VcnFlowLogs" (List.all_eq_true.mp hall)).1.trans
    (by decide)⟩

example : spellTypeFromUrn "custom:oke:OKENodeV2Pool" = "oke-node-v2-pool" := by decide

end SpellType

end CloudSpells
