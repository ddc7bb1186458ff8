import Mathlib.Data.List.Basic
import Mathlib.Data.Nat.Find
import Mathlib.Data.String.Basic
import Std.Data.String.ToInt
import Std.Data.String.ToNat

/-!
# Machinery/Segments — reading names that were put together with a separator

A name put together as `a-b-c` is read back by splitting it at the separator: `segments` is that
reading, it determines the name (`segments_injective`), and a name joined from parts reads as the
parts' own segments in order (`segments_intercalate`).  What an integer contributes to such a name
is a run of digits, with an empty segment before it when the number is negative
(`isDigit_of_mem_segments_int`).

A family of suffixes has a mark (`LastAt`) when one word stands at the same place in each and
nowhere after; then no suffix is the end of another, and a name that ends in one is read back
(`eq_of_lastAt`).

A word without the separator is in one of the segments, and where it first comes is read off the
first segment that has it (`dropInfix_append_cons`).
-/

namespace Machinery

namespace Segments

variable {sep : Char} {s t : String}

/-- The segments of a string between the separators. -/
def segments (sep : Char) (s : String) : List (List Char) := s.toList.splitOn sep

/-- **The segments determine the string.** -/
theorem segments_injective (h : segments sep s = segments sep t) : s = t := by
  have hjoin : [sep].intercalate (segments sep s) = [sep].intercalate (segments sep t) :=
    congrArg _ h
  rw [segments, segments, List.intercalate_splitOn, List.intercalate_splitOn] at hjoin
  exact String.toList_inj.mp hjoin

/-- A string without the separator is one segment. -/
theorem segments_of_notMem (h : sep ∉ s.toList) : segments sep s = [s.toList] :=
  List.splitOn_eq_singleton h

/-- Splitting a joined list splits its parts. -/
theorem splitOn_intercalate_eq_flatMap {α : Type} [BEq α] [LawfulBEq α] (x : α) :
    ∀ {ls : List (List α)}, ls ≠ [] → ([x].intercalate ls).splitOn x = ls.flatMap (·.splitOn x)
  | [], h => absurd rfl h
  | [l], _ => by simp [List.intercalate]
  | l :: l' :: ls, _ => by
    have ih : ([x].intercalate (l' :: ls)).splitOn x = (l' :: ls).flatMap (·.splitOn x) :=
      splitOn_intercalate_eq_flatMap x (by simp)
    have hcons : [x].intercalate (l :: l' :: ls) = l ++ x :: [x].intercalate (l' :: ls) := by
      simp [List.intercalate]
    rw [hcons, List.splitOn_append_cons_self, ih]
    rfl

/-- What is in a joined list is the separator or in a part. -/
theorem mem_intercalate {α : Type} {x c : α} :
    ∀ {ls : List (List α)}, c ∈ [x].intercalate ls → c = x ∨ ∃ l ∈ ls, c ∈ l
  | [], h => by simp [List.intercalate] at h
  | [l], h => .inr ⟨l, by simp, by simpa [List.intercalate] using h⟩
  | l :: l' :: ls, h => by
    have hcons : [x].intercalate (l :: l' :: ls) = l ++ x :: [x].intercalate (l' :: ls) := by
      simp [List.intercalate]
    rw [hcons, List.mem_append, List.mem_cons] at h
    rcases h with h | rfl | h
    · exact .inr ⟨l, by simp, h⟩
    · exact .inl rfl
    · rcases mem_intercalate h with rfl | ⟨l₁, hl₁, hc⟩
      · exact .inl rfl
      · exact .inr ⟨l₁, List.mem_cons_of_mem _ hl₁, hc⟩

/-- A character of a name other than the separator is in one of its segments. -/
theorem exists_mem_splitOn {l : List Char} {c : Char} (h : c ∈ l) (hc : c ≠ sep) :
    ∃ part ∈ l.splitOn sep, c ∈ part := by
  have hjoin : [sep].intercalate (l.splitOn sep) = l := List.intercalate_splitOn sep
  rw [← hjoin] at h
  exact (mem_intercalate h).resolve_left hc

/-- **A name joined with the separator reads as its parts' segments, in order.** -/
theorem segments_intercalate (ht : t.toList = [sep]) {parts : List String} (h : parts ≠ []) :
    segments sep (t.intercalate parts) = parts.flatMap (segments sep) := by
  rw [segments, String.toList_intercalate, ht,
    splitOn_intercalate_eq_flatMap sep (by simpa using h), List.flatMap_map]
  rfl

/-! ## Numbers -/

theorem isDigit_of_mem_nat {n : ℕ} {c : Char} (h : c ∈ (toString n).toList) : c.isDigit := by
  have h' : c ∈ Nat.toDigits 10 n := by rwa [← Nat.toList_repr]
  exact Nat.isDigit_of_mem_toDigits (by decide) (by decide) h'

/-- The decimal of a natural number is one segment, at any separator that is not a digit. -/
theorem segments_nat (h : sep.isDigit = false) (n : ℕ) :
    segments sep (toString n) = [(toString n).toList] :=
  segments_of_notMem fun hmem => by simp [isDigit_of_mem_nat hmem] at h

/-- **A number contributes digits only**: every segment of a decimal integer is a run of
digits. -/
theorem isDigit_of_mem_segments_int (p : ℤ) {seg : List Char}
    (h : seg ∈ segments '-' (toString p)) {c : Char} (hc : c ∈ seg) : c.isDigit := by
  match p with
  | .ofNat n =>
    have hrepr : toString (Int.ofNat n) = toString n := rfl
    rw [hrepr, segments_nat (by decide), List.mem_singleton] at h
    subst h
    exact isDigit_of_mem_nat hc
  | .negSucc n =>
    have hrepr : (toString (Int.negSucc n)).toList = [] ++ '-' :: (toString (n + 1)).toList := by
      simp [toString, Int.repr, String.toList_append]
    have hseg : (toString (n + 1)).toList.splitOn '-' = [(toString (n + 1)).toList] :=
      segments_nat (by decide) (n + 1)
    rw [segments, hrepr, List.splitOn_append_cons_self, hseg] at h
    simp only [List.splitOn_nil, List.cons_append, List.nil_append, List.mem_cons,
      List.not_mem_nil, or_false] at h
    rcases h with rfl | rfl
    · simp at hc
    · exact isDigit_of_mem_nat hc

/-- A word that is not a number is no segment of one. -/
theorem notMem_segments_int (p : ℤ) {w : List Char} (hw : ∃ c ∈ w, c.isDigit = false) :
    w ∉ segments '-' (toString p) := by
  intro h
  obtain ⟨c, hc, hd⟩ := hw
  simp [isDigit_of_mem_segments_int p h hc] at hd

/-- **The segments of a number determine it.** -/
theorem segments_int_injective {p q : ℤ}
    (h : segments '-' (toString p) = segments '-' (toString q)) : p = q :=
  Int.repr_injective (segments_injective h)

/-! ## Names with a mark -/

/-- Two names joined with the separator read as one and then the other. -/
theorem segments_append (ht : t.toList = [sep]) (a b : String) :
    segments sep (a ++ t ++ b) = segments sep a ++ segments sep b := by
  rw [segments, String.toList_append, String.toList_append, ht, List.append_assoc,
    List.singleton_append, List.splitOn_append_cons_self]
  rfl

/-- The segment `w` stands at `k` and nowhere after. -/
def LastAt (k : ℕ) (w : List Char) (segs : List (List Char)) : Prop :=
  segs[k]? = some w ∧ w ∉ segs.drop (k + 1)

instance (k : ℕ) (w : List Char) (segs : List (List Char)) : Decidable (LastAt k w segs) :=
  inferInstanceAs (Decidable (_ ∧ _))

/-- **A mark fixes where a name begins**: of two lists with the same mark, neither is a proper end
of the other. -/
theorem LastAt.eq_of_suffix {k : ℕ} {w : List Char} {l l' : List (List Char)} (h : LastAt k w l)
    (h' : LastAt k w l') (hsuffix : l <:+ l') : l = l' := by
  obtain ⟨u, rfl⟩ := hsuffix
  cases u with
  | nil => rfl
  | cons x u =>
    refine absurd ?_ h'.2
    have hdrop : (x :: u ++ l).drop (k + 1) = (u ++ l).drop k := rfl
    have hget : ((u ++ l).drop k)[u.length]? = some w := by
      rw [List.getElem?_drop, List.getElem?_append_right (by omega), Nat.add_sub_cancel]
      exact h.1
    rw [hdrop]
    exact List.mem_of_getElem? hget

/-- A number at the end moves no mark. -/
theorem LastAt.append_nat {k : ℕ} {w : List Char} {l : List (List Char)} (h : LastAt k w l)
    (hw : ∃ c ∈ w, c.isDigit = false) (n : ℕ) : LastAt k w (l ++ [(toString n).toList]) := by
  have hk : k < l.length := (List.getElem?_eq_some_iff.mp h.1).1
  refine ⟨by rw [List.getElem?_append_left hk, h.1], ?_⟩
  rw [List.drop_append_of_le_length hk, List.mem_append, List.mem_singleton]
  rintro (hmem | rfl)
  · exact h.2 hmem
  · obtain ⟨c, hc, hdigit⟩ := hw
    rw [isDigit_of_mem_nat hc] at hdigit
    cases hdigit

/-- **Names that end in marked parts** are equal only where what comes before is, and the parts. -/
theorem eq_of_lastAt {k : ℕ} {w : List Char} {a a' b b' : String} (ht : t.toList = [sep])
    (hb : LastAt k w (segments sep b)) (hb' : LastAt k w (segments sep b'))
    (h : a ++ t ++ b = a' ++ t ++ b') : a = a' ∧ b = b' := by
  have hsegs : segments sep a ++ segments sep b = segments sep a' ++ segments sep b' := by
    rw [← segments_append ht, ← segments_append ht, h]
  have hends : segments sep b = segments sep b' := by
    have hsuffix : segments sep b <:+ segments sep a' ++ segments sep b' := ⟨_, hsegs⟩
    rcases List.suffix_or_suffix_of_suffix hsuffix (List.suffix_append _ _) with hs | hs
    · exact hb.eq_of_suffix hb' hs
    · exact (hb'.eq_of_suffix hb hs).symm
  rw [hends] at hsegs
  exact ⟨segments_injective (List.append_cancel_right hsegs), segments_injective hends⟩

/-! ## Joined names with a part in common -/

/-- **Two joined names that are equal** are joined at one place, or the one begins with what the
other begins with, and goes on. -/
theorem joined_eq_iff {a a' b b' : String} (ht : t.toList = [sep]) :
    a ++ t ++ b = a' ++ t ++ b' ↔ (a = a' ∧ b = b') ∨
      (∃ w, a = a' ++ t ++ w ∧ b' = w ++ t ++ b) ∨ ∃ w, a' = a ++ t ++ w ∧ b = w ++ t ++ b' := by
  have hlists : a ++ t ++ b = a' ++ t ++ b' ↔
      a.toList ++ sep :: b.toList = a'.toList ++ sep :: b'.toList := by
    rw [← String.toList_inj]
    simp [String.toList_append, ht]
  have hstring : ∀ (x y : String) (l : List Char), x.toList = y.toList ++ sep :: l →
      x = y ++ t ++ String.ofList l := fun x y l h => by
    rw [← String.toList_inj]
    simp [String.toList_append, ht, h]
  have hrest : ∀ (x y : String) (l : List Char), x.toList = l ++ sep :: y.toList →
      x = String.ofList l ++ t ++ y := fun x y l h => by
    rw [← String.toList_inj]
    simp [String.toList_append, ht, h]
  constructor
  · rw [hlists, List.append_eq_append_iff]
    rintro (⟨c, ha', hb⟩ | ⟨c, ha, hb⟩)
    · cases c with
      | nil =>
        obtain ⟨-, hb⟩ := List.cons.inj hb
        exact .inl ⟨String.toList_inj.mp (by simpa using ha'.symm), String.toList_inj.mp hb⟩
      | cons x c =>
        obtain rfl := (List.cons.inj hb).1
        exact .inr (.inr ⟨String.ofList c, hstring _ _ c ha', hrest _ _ c (List.cons.inj hb).2⟩)
    · cases c with
      | nil =>
        obtain ⟨-, hb⟩ := List.cons.inj hb
        exact .inl ⟨String.toList_inj.mp (by simpa using ha), (String.toList_inj.mp hb).symm⟩
      | cons x c =>
        obtain rfl := (List.cons.inj hb).1
        exact .inr (.inl ⟨String.ofList c, hstring _ _ c ha, hrest _ _ c (List.cons.inj hb).2⟩)
  · rintro (⟨rfl, rfl⟩ | ⟨w, rfl, rfl⟩ | ⟨w, rfl, rfl⟩)
    · rfl
    · simp only [String.append_assoc]
    · simp only [String.append_assoc]

/-- What stands before `t ++ b` in `s`, where `s` ends in it. -/
def before? (t b s : String) : Option String :=
  if (t ++ b).toList <:+ s.toList then
    some (String.ofList (s.toList.take (s.toList.length - (t ++ b).toList.length)))
  else none

theorem before?_eq_some {t b s w : String} : before? t b s = some w ↔ s = w ++ t ++ b := by
  unfold before?
  constructor
  · intro h
    split at h
    · rename_i hsuffix
      obtain rfl := Option.some.inj h
      obtain ⟨l, hl⟩ := hsuffix
      rw [← String.toList_inj, String.append_assoc, String.toList_append, String.toList_ofList,
        ← hl, List.length_append, Nat.add_sub_cancel, List.take_left']
      rfl
    · cases h
  · rintro rfl
    have hlist : (w ++ t ++ b).toList = w.toList ++ (t ++ b).toList := by
      rw [String.append_assoc, String.toList_append]
    rw [hlist, if_pos (List.suffix_append _ _), List.length_append, Nat.add_sub_cancel,
      List.take_left' rfl, String.ofList_toList]

theorem append_left_cancel {a b c : String} (h : a ++ b = a ++ c) : b = c := by
  rw [← String.toList_inj, String.toList_append, String.toList_append] at h
  exact String.toList_inj.mp (List.append_cancel_left h)

theorem append_right_cancel {a b c : String} (h : a ++ c = b ++ c) : a = b := by
  rw [← String.toList_inj, String.toList_append, String.toList_append] at h
  exact String.toList_inj.mp (List.append_cancel_right h)

/-- Two strings whose last characters differ differ. -/
theorem ne_of_getLast_ne {a b : String} (h : a.toList.getLast? ≠ b.toList.getLast?) : a ≠ b :=
  fun hab => h (by rw [hab])

/-! ## Words in a text of several segments -/

section Infix

variable {α : Type} {sep : α} {p a l before after : List α}

/-- **A word without the separator** that is not in the first segment comes after it. -/
theorem exists_of_append_cons (hsep : sep ∉ p) (ha : ¬ p <:+: a)
    (h : a ++ sep :: l = before ++ (p ++ after)) :
    ∃ before', before = a ++ sep :: before' ∧ l = before' ++ (p ++ after) := by
  rcases List.append_eq_append_iff.mp h with ⟨mid, rfl, hmid⟩ | ⟨mid, rfl, hmid⟩
  · cases mid with
    | nil =>
      -- The word would begin with the separator.
      cases p with
      | nil => exact absurd (List.nil_infix) ha
      | cons c p =>
        obtain ⟨rfl, -⟩ := List.cons.inj hmid
        exact absurd (List.mem_cons_self ..) hsep
    | cons c mid =>
      obtain ⟨rfl, rfl⟩ := List.cons.inj hmid
      exact ⟨mid, rfl, rfl⟩
  · refine absurd ?_ ha
    rcases List.append_eq_append_iff.mp hmid with ⟨rest, rfl, -⟩ | ⟨rest, rfl, hrest⟩
    · exact ⟨before, rest, by rw [List.append_assoc]⟩
    · cases rest with
      | nil => exact ⟨before, [], by simp⟩
      | cons c rest =>
        obtain ⟨rfl, -⟩ := List.cons.inj hrest
        exact absurd (by simp) hsep

theorem infix_append_cons (hsep : sep ∉ p) : p <:+: a ++ sep :: l ↔ p <:+: a ∨ p <:+: l := by
  constructor
  · rintro ⟨before, after, h⟩
    by_cases ha : p <:+: a
    · exact .inl ha
    · rw [List.append_assoc] at h
      obtain ⟨before', -, rfl⟩ := exists_of_append_cons hsep ha h.symm
      exact .inr ⟨before', after, by rw [List.append_assoc]⟩
  · rintro (h | h)
    · exact h.trans List.infix_append_left
    · exact h.trans ((List.suffix_cons sep l).isInfix.trans List.infix_append_right)

variable [BEq α] [LawfulBEq α]

/-- **Where a word first comes.** -/
theorem dropInfix_eq_some : l.dropInfix? p = some (before, after) ↔
    l = before ++ (p ++ after) ∧
      ∀ before' after', l = before' ++ (p ++ after') → before.length ≤ before'.length := by
  rw [List.dropInfix?_eq_some_iff]
  constructor
  · rintro ⟨⟨p', rfl, hp⟩, hfirst⟩
    obtain rfl := eq_of_beq hp
    exact ⟨List.append_assoc .., fun before' after' h =>
      hfirst before' p' after' (by rw [h, List.append_assoc]) (BEq.refl _)⟩
  · rintro ⟨rfl, hfirst⟩
    refine ⟨⟨p, (List.append_assoc ..).symm, BEq.refl _⟩, fun before' p' after' h hp => ?_⟩
    obtain rfl := eq_of_beq hp
    exact hfirst before' after' (by rw [h, List.append_assoc])

theorem exists_dropInfix (h : p <:+: l) :
    ∃ before after, l.dropInfix? p = some (before, after) := by
  have hfirst : ∃ n before after, before.length = n ∧ l = before ++ (p ++ after) := by
    obtain ⟨before, after, rfl⟩ := h
    exact ⟨_, before, after, rfl, List.append_assoc ..⟩
  classical
  obtain ⟨before, after, hlength, heq⟩ := Nat.find_spec hfirst
  refine ⟨before, after, dropInfix_eq_some.mpr ⟨heq, fun before' after' h' => ?_⟩⟩
  rw [hlength]
  exact Nat.find_min' hfirst ⟨before', after', rfl, h'⟩

/-- **A word in what a text begins with** first comes there. -/
theorem exists_dropInfix_append (ha : p <:+: a) (l : List α) : ∃ before rest,
    a = before ++ (p ++ rest) ∧ (a ++ l).dropInfix? p = some (before, rest ++ l) := by
  obtain ⟨before, after, hdrop⟩ := exists_dropInfix (ha.trans (a.prefix_append l).isInfix)
  obtain ⟨heq, hfirst⟩ := dropInfix_eq_some.mp hdrop
  obtain ⟨u, v, rfl⟩ := ha
  have hshort : before.length ≤ u.length := hfirst u (v ++ l) (by simp only [List.append_assoc])
  have hprefix : before ++ p <+: u ++ p ++ v := by
    refine List.prefix_of_prefix_length_le ⟨after, ?_⟩ (List.prefix_append _ l) ?_
    · rw [heq, List.append_assoc]
    · simp only [List.length_append]
      omega
  obtain ⟨rest, hrest⟩ := hprefix
  rw [← hrest, List.append_assoc before] at heq
  obtain rfl : after = rest ++ l := by simpa using heq.symm
  exact ⟨before, rest, by rw [← hrest, List.append_assoc], hdrop⟩

/-- **A word that is not in the first segment first comes where it does in the others.** -/
theorem dropInfix_append_cons (hsep : sep ∉ p) (ha : ¬ p <:+: a) :
    (a ++ sep :: l).dropInfix? p = some (before, after) ↔
      ∃ before', before = a ++ sep :: before' ∧ l.dropInfix? p = some (before', after) := by
  simp only [dropInfix_eq_some]
  constructor
  · rintro ⟨h, hfirst⟩
    obtain ⟨before', rfl, rfl⟩ := exists_of_append_cons hsep ha h
    refine ⟨before', rfl, rfl, fun other after' h' => ?_⟩
    have hle := hfirst (a ++ sep :: other) after' (by rw [h', List.append_assoc, List.cons_append])
    simpa using hle
  · rintro ⟨before', rfl, rfl, hfirst⟩
    refine ⟨by simp, fun other after' h' => ?_⟩
    obtain ⟨other', rfl, h''⟩ := exists_of_append_cons hsep ha h'
    have hle := hfirst other' after' h''
    simpa using hle

end Infix

end Segments

end Machinery
