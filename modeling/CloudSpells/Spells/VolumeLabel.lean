import CloudSpells.Machinery.Regex
import CloudSpells.Spells.Compute

/-!
# Spells/VolumeLabel — the labels a `VolumeSpec` accepts

`_LABEL_RE` is documented as the language of lowercase letters, digits and single hyphens that start
with a letter and do not end in a hyphen.  The pattern between its anchors is that language
(`mem_LABEL_RE_iff`); but the `$` that closes it also stands before a newline, so that a label with
one newline at its end is accepted too (`accepts_documented_iff`).
-/

namespace CloudSpells

open Machinery Machinery.Regex RegularExpression

namespace VolumeFields

/-! ## The pattern -/

/-- `[a-z]`. -/
def lowers : List Char := charRange 'a' 'z'

/-- `[a-z0-9]`. -/
def labelChars : List Char := charRange 'a' 'z' ++ charRange '0' '9'

/-- `_LABEL_RE` between its anchors: `[a-z][a-z0-9]*(-[a-z0-9]+)*`. -/
def LABEL_RE : RegularExpression Char :=
  oneOf lowers * (oneOf labelChars).star * (char '-' * many (oneOf labelChars)).star

private theorem isLower_eq (c : Char) :
    c.isLower = (decide (c.val ≥ 'a'.val) && decide (c.val ≤ 'z'.val)) := rfl

theorem mem_lowers {c : Char} : c ∈ lowers ↔ c.isLower := by
  rw [lowers, mem_charRange (by decide), isLower_eq, Bool.and_eq_true, decide_eq_true_eq,
    decide_eq_true_eq]
  exact Iff.rfl

theorem mem_labelChars {c : Char} : c ∈ labelChars ↔ isLabelChar c := by
  rw [labelChars, List.mem_append, mem_charRange (by decide), mem_charRange (by decide),
    isLabelChar, Bool.or_eq_true, isLower_eq, Char.isDigit, Bool.and_eq_true, Bool.and_eq_true,
    decide_eq_true_eq, decide_eq_true_eq, decide_eq_true_eq, decide_eq_true_eq]
  exact Iff.rfl

/-- What comes before the first hyphen. -/
theorem mem_firstSegment {w : List Char} : w ∈ (oneOf lowers * (oneOf labelChars).star).matches' ↔
    w.head?.any Char.isLower ∧ ∀ c ∈ w, isLabelChar c := by
  rw [matches'_mul, Language.mem_mul]
  constructor
  · rintro ⟨y, hy, z, hz, rfl⟩
    obtain ⟨c, hc, rfl⟩ := mem_oneOf.mp hy
    have hlower := mem_lowers.mp hc
    refine ⟨hlower, List.forall_mem_cons.mpr ⟨by simp [isLabelChar, hlower], fun d hd => ?_⟩⟩
    exact mem_labelChars.mp (mem_star_oneOf.mp hz d hd)
  · rintro ⟨hhead, hall⟩
    cases w with
    | nil => cases hhead
    | cons c w =>
      refine ⟨[c], mem_oneOf.mpr ⟨c, mem_lowers.mpr hhead, rfl⟩, w, mem_star_oneOf.mpr ?_, rfl⟩
      exact fun d hd => mem_labelChars.mpr (hall d (List.mem_cons_of_mem _ hd))

/-! ## The documented language -/

/-- A label as the documentation has it. -/
structure DocumentedLabel (label : List Char) : Prop where
  head : ∃ c, label.head? = some c ∧ c.isLower
  last : ∃ c, label.getLast? = some c ∧ isLabelChar c
  letters : ∀ c ∈ label, isLabelChar c ∨ c = '-'
  single : label.IsChain fun c d => ¬ (c = '-' ∧ d = '-')

theorem documentedLabel_iff {label : List Char} : DocumentedLabel label ↔
    label.head?.any Char.isLower ∧ Spaced '-' (isLabelChar ·) label := by
  constructor
  · rintro ⟨⟨c, hc, hlower⟩, ⟨d, hd, hchar⟩, hletters, hsingle⟩
    refine ⟨by rw [hc]; exact hlower, hletters, ?_, hsingle⟩
    rw [hd]
    rintro ⟨⟩
    exact absurd hchar (by decide)
  · rintro ⟨hhead, hletters, hlast, hsingle⟩
    obtain ⟨c, hc, hlower⟩ := (Option.any_eq_true _ _).mp hhead
    have hne : label ≠ [] := by
      rintro rfl
      cases hc
    refine ⟨⟨c, hc, hlower⟩, ⟨_, List.getLast?_eq_some_getLast hne, ?_⟩, hletters, hsingle⟩
    refine (hletters _ (List.getLast_mem hne)).resolve_right fun h => hlast ?_
    rw [List.getLast?_eq_some_getLast hne, h]

/-- The segments of a documented label. -/
theorem documentedLabel_iff_solid {label : List Char} : DocumentedLabel label ↔
    label.head?.any Char.isLower ∧ Solid (isLabelChar ·) (label.splitOn '-') := by
  rw [documentedLabel_iff, solid_splitOn_iff]
  refine and_congr_right fun hhead => ⟨fun h => ⟨h, ?_⟩, And.left⟩
  obtain ⟨c, hc, hlower⟩ := (Option.any_eq_true _ _).mp hhead
  rw [hc]
  refine ⟨by simp, ?_⟩
  rintro ⟨⟩
  exact absurd hlower (by decide)

/-- **The pattern between its anchors is the documented language.** -/
theorem mem_LABEL_RE_iff {label : List Char} :
    label ∈ LABEL_RE.matches' ↔ DocumentedLabel label := by
  rw [documentedLabel_iff_solid, LABEL_RE, mem_separated]
  constructor
  · rintro ⟨w, words, rfl, hw, hwords⟩
    obtain ⟨hhead, hall⟩ := mem_firstSegment.mp hw
    have hne : w ≠ [] := by
      rintro rfl
      cases hhead
    have hsolid : Solid (isLabelChar ·) (w :: words) := by
      refine List.forall_mem_cons.mpr ⟨⟨hne, hall⟩, fun w' hw' => ?_⟩
      obtain ⟨hne', hall'⟩ := mem_many_oneOf.mp (hwords w' hw')
      exact ⟨hne', fun c hc => mem_labelChars.mp (hall' c hc)⟩
    have hfree : ∀ w' ∈ w :: words, '-' ∉ w' := fun w' hw' hmem =>
      absurd ((hsolid w' hw').2 _ hmem) (by decide)
    rw [List.splitOn_intercalate '-' hfree (by simp)]
    refine ⟨?_, hsolid⟩
    obtain ⟨c, w, rfl⟩ := List.exists_cons_of_ne_nil hne
    cases words with
    | nil => simpa [List.intercalate] using hhead
    | cons w' words => simpa [List.intercalate] using hhead
  · rintro ⟨hhead, hsolid⟩
    obtain ⟨w, words, hsplit⟩ := List.exists_cons_of_ne_nil (List.splitOn_ne_nil '-' label)
    have hjoin : ['-'].intercalate (label.splitOn '-') = label := List.intercalate_splitOn '-'
    rw [hsplit] at hjoin hsolid
    obtain ⟨⟨hne, hall⟩, hwords⟩ := List.forall_mem_cons.mp hsolid
    refine ⟨w, words, hjoin.symm, mem_firstSegment.mpr ⟨?_, hall⟩, fun w' hw' => ?_⟩
    · obtain ⟨c, w, rfl⟩ := List.exists_cons_of_ne_nil hne
      rw [← hjoin] at hhead
      cases words with
      | nil => simpa [List.intercalate] using hhead
      | cons w' words => simpa [List.intercalate] using hhead
    · exact mem_many_oneOf.mpr ⟨(hwords w' hw').1, fun c hc =>
        mem_labelChars.mpr ((hwords w' hw').2 c hc)⟩

/-! ## What is accepted -/

theorem newline_notMem {label : List Char} (h : DocumentedLabel label) : '\n' ∉ label := fun hmem =>
  absurd (h.letters _ hmem) (by decide)

/-- **The check of a label** is a documented label, or one with a newline after it. -/
theorem isLabel_iff {label : String} : isLabel label = true ↔ DocumentedLabel label.toList ∨
    ∃ line, label.toList = line ++ ['\n'] ∧ DocumentedLabel line := by
  have hcore : ∀ chars : List Char, ((chars.head?.any Char.isLower &&
      (chars.splitOn '-').all fun part => !part.isEmpty && part.all isLabelChar) = true) ↔
      DocumentedLabel chars := fun chars => by
    rw [documentedLabel_iff_solid]
    simp [Solid]
  rw [isLabel, hcore]
  split
  · rename_i hlast
    have hs := List.dropLast_append_getLast? _ hlast
    constructor
    · exact fun h => .inr ⟨_, hs.symm, h⟩
    · rintro (h | ⟨line, hline, h⟩)
      · exact absurd (List.mem_of_getLast? hlast) (newline_notMem h)
      · rw [hline, List.dropLast_concat]
        exact h
  · rename_i hlast
    refine ⟨.inl, fun h => h.resolve_right ?_⟩
    rintro ⟨line, hline, -⟩
    exact hlast (by rw [hline]; simp)

/-- **…which is what a search for the pattern finds.** -/
theorem isLabel_eq_matchesLine (label : String) : isLabel label = matchesLine LABEL_RE label := by
  rw [Bool.eq_iff_iff, isLabel_iff, matchesLine_iff]
  simp only [mem_LABEL_RE_iff]

/-- The size and the performance tier are in range. -/
def InRange (spec : VolumeFields) : Prop :=
  50 ≤ spec.sizeInGbs ∧ spec.sizeInGbs ≤ 32768 ∧ spec.vpusPerGb ∈ [0, 10, 20, 120]

/-- A `VolumeSpec` as the documentation has it. -/
def Documented (spec : VolumeFields) : Prop := spec.InRange ∧ DocumentedLabel spec.label.toList

/-- `__post_init__` accepts what its four checks do, and raises `ValueError` on the rest. -/
theorem postInit_eq_ok_iff {spec : VolumeFields} :
    spec.postInit = .ok ⟨⟩ ↔ spec.InRange ∧ isLabel spec.label = true := by
  unfold postInit InRange
  split_ifs with hsmall hlarge hvpus hlabel
  · exact iff_of_false (fun h => by cases h) fun h => absurd h.1.1 (not_le.mpr hsmall)
  · exact iff_of_false (fun h => by cases h) fun h => absurd h.1.2.1 (not_le.mpr hlarge)
  · refine iff_of_false (fun h => by cases h) fun h => ?_
    rw [h.2] at hlabel
    cases hlabel
  · exact iff_of_true rfl ⟨⟨not_lt.mp hsmall, not_lt.mp hlarge, hvpus⟩, by simpa using hlabel⟩
  · exact iff_of_false (fun h => by cases h) fun h => hvpus h.1.2.2

theorem exists_valueError {spec : VolumeFields} (h : spec.postInit ≠ .ok ⟨⟩) :
    ∃ message, spec.postInit = .error (.valueError message) := by
  unfold postInit at h ⊢
  split_ifs at h ⊢
  all_goals first
    | exact ⟨_, rfl⟩
    | exact absurd rfl h

/-- **A `VolumeSpec` accepts what it documents**, and refuses the rest with a `ValueError`, unless
its size and tier are in range and its label is a documented one with a newline after it. -/
theorem accepts_documented_iff (spec : VolumeFields) :
    ((spec.postInit = .ok ⟨⟩ ↔ spec.Documented) ∧
      (¬ spec.Documented → ∃ message, spec.postInit = .error (.valueError message))) ↔
    ¬ (spec.InRange ∧ ∃ line, spec.label.toList = line ++ ['\n'] ∧ DocumentedLabel line) := by
  have hok : spec.postInit = .ok ⟨⟩ ↔ spec.InRange ∧ isLabel spec.label = true :=
    postInit_eq_ok_iff
  rw [isLabel_iff, and_or_left] at hok
  constructor
  · rintro ⟨hiff, -⟩ ⟨hrange, line, hline, hdoc⟩
    have hdocumented := (hiff.mp (hok.mpr (.inr ⟨hrange, line, hline, hdoc⟩))).2
    refine newline_notMem hdocumented ?_
    rw [hline]
    simp
  · intro hnewline
    have hiff : spec.postInit = .ok ⟨⟩ ↔ spec.Documented :=
      hok.trans ⟨fun h => h.resolve_right hnewline, .inl⟩
    exact ⟨hiff, fun h => exists_valueError fun hspec => h (hiff.mp hspec)⟩

/-- The default label, with a newline after it, is accepted. -/
theorem postInit_dataNewline :
    let spec : VolumeFields := { sizeInGbs := 100, label := "data\n" }
    spec.postInit = .ok ⟨⟩ ∧ ¬ spec.Documented :=
  ⟨by decide, fun h => newline_notMem h.2 (by decide)⟩

end VolumeFields

end CloudSpells
