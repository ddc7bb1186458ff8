import Mathlib.Computability.RegularExpressions
import Mathlib.Data.List.Chain

/-!
# Machinery/Regex — patterns over characters, and what `$` accepts

Character classes, repetition at least once, and words joined by a separator, as regular
expressions; and their languages, stated of the characters of the word.

`matchesLine P` is a search for `^P$`: the `$` of a pattern stands at the end of the string, or
before a newline that ends it.
-/

namespace Machinery

namespace Regex

open RegularExpression

variable {α : Type}

/-! ## Classes and repetitions -/

/-- `[…]`: one of the letters. -/
def oneOf (letters : List α) : RegularExpression α := letters.foldr (fun a P => char a + P) 0

theorem mem_oneOf {letters x : List α} :
    x ∈ (oneOf letters).matches' ↔ ∃ a ∈ letters, x = [a] := by
  induction letters with
  | nil => exact iff_of_false (Language.notMem_zero x) (by simp)
  | cons a letters ih =>
    change x ∈ ({[a]} : Language α) + (oneOf letters).matches' ↔ _
    rw [Language.mem_add, ih, List.exists_mem_cons_iff]
    exact Iff.rfl

/-- `[…]*`. -/
theorem mem_star_oneOf {letters x : List α} :
    x ∈ (oneOf letters).star.matches' ↔ ∀ a ∈ x, a ∈ letters := by
  rw [matches'_star, Language.mem_kstar]
  constructor
  · rintro ⟨L, rfl, hL⟩ a ha
    obtain ⟨y, hy, ha⟩ := List.mem_flatten.mp ha
    obtain ⟨b, hb, rfl⟩ := mem_oneOf.mp (hL y hy)
    rwa [List.mem_singleton.mp ha]
  · intro h
    refine ⟨x.map fun a => [a], (List.flatMap_singleton' x).symm.trans List.flatMap_def,
      fun y hy => ?_⟩
    obtain ⟨a, ha, rfl⟩ := List.mem_map.mp hy
    exact mem_oneOf.mpr ⟨a, h a ha, rfl⟩

/-- `P+`. -/
def many (P : RegularExpression α) : RegularExpression α := P * P.star

/-- `[…]+`. -/
theorem mem_many_oneOf {letters x : List α} :
    x ∈ (many (oneOf letters)).matches' ↔ x ≠ [] ∧ ∀ a ∈ x, a ∈ letters := by
  rw [many, matches'_mul, Language.mem_mul]
  constructor
  · rintro ⟨y, hy, z, hz, rfl⟩
    obtain ⟨a, ha, rfl⟩ := mem_oneOf.mp hy
    exact ⟨by simp, by simpa [ha] using mem_star_oneOf.mp hz⟩
  · rintro ⟨hne, hall⟩
    obtain ⟨a, y, rfl⟩ := List.exists_cons_of_ne_nil hne
    exact ⟨[a], mem_oneOf.mpr ⟨a, hall a (by simp), rfl⟩, y,
      mem_star_oneOf.mpr fun b hb => hall b (List.mem_cons_of_mem _ hb), rfl⟩

/-! ## Letters a pattern needs -/

/-- Every word of the pattern has the letter. -/
def Needs (a : α) (P : RegularExpression α) : Prop := ∀ x ∈ P.matches', a ∈ x

section Needs

variable {a : α} {P Q : RegularExpression α}

theorem needs_char (a : α) : Needs a (char a) := by
  rintro x hx
  obtain rfl : x = [a] := hx
  exact List.mem_singleton_self a

theorem Needs.add (hP : Needs a P) (hQ : Needs a Q) : Needs a (P + Q) := by
  rintro x (hx | hx)
  · exact hP x hx
  · exact hQ x hx

theorem Needs.mul_left (hP : Needs a P) (Q : RegularExpression α) : Needs a (P * Q) := by
  rintro x hx
  rw [matches'_mul, Language.mem_mul] at hx
  obtain ⟨y, hy, z, -, rfl⟩ := hx
  exact List.mem_append_left _ (hP y hy)

theorem Needs.mul_right (P : RegularExpression α) (hQ : Needs a Q) : Needs a (P * Q) := by
  rintro x hx
  rw [matches'_mul, Language.mem_mul] at hx
  obtain ⟨y, -, z, hz, rfl⟩ := hx
  exact List.mem_append_right _ (hQ z hz)

end Needs

/-! ## Words joined by a separator -/

/-- What goes on after the first word: each further one after a separator. -/
theorem mem_star_sep {sep : α} {Q : RegularExpression α} {x : List α} :
    x ∈ (char sep * Q).star.matches' ↔
      ∃ words : List (List α), x = words.flatMap (sep :: ·) ∧ ∀ w ∈ words, w ∈ Q.matches' := by
  rw [matches'_star, Language.mem_kstar]
  constructor
  · rintro ⟨L, rfl, hL⟩
    induction L with
    | nil => exact ⟨[], rfl, by simp⟩
    | cons y L ih =>
      obtain ⟨words, hwords, hall⟩ := ih fun z hz => hL z (List.mem_cons_of_mem _ hz)
      have hy := hL y (by simp)
      rw [matches'_mul, Language.mem_mul] at hy
      obtain ⟨s, hs, w, hw, rfl⟩ := hy
      obtain rfl : s = [sep] := hs
      refine ⟨w :: words, ?_, List.forall_mem_cons.mpr ⟨hw, hall⟩⟩
      rw [List.flatten_cons, hwords]
      rfl
  · rintro ⟨words, rfl, hall⟩
    refine ⟨words.map (sep :: ·), List.flatMap_def, fun y hy => ?_⟩
    obtain ⟨w, hw, rfl⟩ := List.mem_map.mp hy
    rw [matches'_mul, Language.mem_mul]
    exact ⟨[sep], rfl, w, hall w hw, rfl⟩

/-- A word, and each further one after a separator, are the words joined. -/
theorem append_flatMap_eq_intercalate (sep : α) (w : List α) (words : List (List α)) :
    w ++ words.flatMap (sep :: ·) = [sep].intercalate (w :: words) := by
  induction words generalizing w with
  | nil => simp [List.intercalate]
  | cons w' words ih =>
    have hcons : [sep].intercalate (w :: w' :: words) =
        w ++ sep :: [sep].intercalate (w' :: words) := by
      simp [List.intercalate]
    rw [hcons, ← ih, List.flatMap_cons]
    rfl

/-- **`P(sep Q)*`** is the words of `P` and `Q` joined. -/
theorem mem_separated {sep : α} {P Q : RegularExpression α} {x : List α} :
    x ∈ (P * (char sep * Q).star).matches' ↔ ∃ w words, x = [sep].intercalate (w :: words) ∧
      w ∈ P.matches' ∧ ∀ w' ∈ words, w' ∈ Q.matches' := by
  rw [matches'_mul, Language.mem_mul]
  constructor
  · rintro ⟨w, hw, y, hy, rfl⟩
    obtain ⟨words, rfl, hall⟩ := mem_star_sep.mp hy
    exact ⟨w, words, append_flatMap_eq_intercalate sep w words, hw, hall⟩
  · rintro ⟨w, words, rfl, hw, hall⟩
    exact ⟨w, hw, _, mem_star_sep.mpr ⟨words, rfl, hall⟩, append_flatMap_eq_intercalate sep w words⟩

/-! ## Words in single separators -/

section Segments

variable {sep : α} {p : α → Prop}

/-- Letters of `p` and separators, no two of these in a row and none at the end. -/
structure Spaced (sep : α) (p : α → Prop) (x : List α) : Prop where
  letters : ∀ a ∈ x, p a ∨ a = sep
  last : x.getLast? ≠ some sep
  single : x.IsChain fun a b => ¬ (a = sep ∧ b = sep)

/-- Segments of letters of `p`, none of them empty. -/
def Solid (p : α → Prop) (words : List (List α)) : Prop :=
  ∀ w ∈ words, w ≠ [] ∧ ∀ a ∈ w, p a

/-- A separator may stand before such a word if the word neither ends nor goes on with one. -/
theorem spaced_cons_sep {x : List α} : Spaced sep p (sep :: x) ↔
    Spaced sep p x ∧ x.head? ≠ none ∧ x.head? ≠ some sep := by
  constructor
  · rintro ⟨hletters, hlast, hsingle⟩
    cases x with
    | nil => exact absurd rfl hlast
    | cons b x =>
      obtain ⟨hb, hsingle⟩ := List.isChain_cons_cons.mp hsingle
      refine ⟨⟨fun a ha => hletters a (List.mem_cons_of_mem _ ha), hlast, hsingle⟩, by simp, ?_⟩
      exact fun h => hb ⟨rfl, Option.some.inj h⟩
  · rintro ⟨⟨hletters, hlast, hsingle⟩, hne, hhead⟩
    cases x with
    | nil => exact absurd rfl hne
    | cons b x =>
      refine ⟨List.forall_mem_cons.mpr ⟨.inr rfl, hletters⟩, hlast, ?_⟩
      exact List.isChain_cons_cons.mpr ⟨fun h => hhead (congrArg some h.2), hsingle⟩

/-- A letter may stand before any such word. -/
theorem spaced_cons {a : α} {x : List α} (ha : a ≠ sep) :
    Spaced sep p (a :: x) ↔ p a ∧ Spaced sep p x := by
  have hlast : (a :: x).getLast? ≠ some sep ↔ x.getLast? ≠ some sep := by
    cases x with
    | nil => simp [ha]
    | cons b x => rfl
  have hsingle : (a :: x).IsChain (fun a b => ¬ (a = sep ∧ b = sep)) ↔
      x.IsChain fun a b => ¬ (a = sep ∧ b = sep) := by
    cases x with
    | nil => simp
    | cons b x => simp [List.isChain_cons_cons, ha]
  constructor
  · rintro ⟨h, h', h''⟩
    obtain ⟨hpa, h⟩ := List.forall_mem_cons.mp h
    exact ⟨hpa.resolve_right ha, h, hlast.mp h', hsingle.mp h''⟩
  · rintro ⟨hpa, h, h', h''⟩
    exact ⟨List.forall_mem_cons.mpr ⟨.inl hpa, h⟩, hlast.mpr h', hsingle.mpr h''⟩

/-- The segments of a word, and of one that goes on from them. -/
theorem exists_splitOn [DecidableEq α] (sep : α) (p : α → Prop) (x : List α) :
    ∃ w words, x.splitOn sep = w :: words ∧ (w = [] ↔ x.head? = none ∨ x.head? = some sep) ∧
    ((∀ a ∈ w, p a) ∧ Solid p words ↔ Spaced sep p x) := by
  induction x with
  | nil =>
    refine ⟨[], [], List.splitOn_nil _, by simp, iff_of_true ⟨by simp, by simp [Solid]⟩ ?_⟩
    exact ⟨by simp, by simp, by simp⟩
  | cons a x ih =>
    obtain ⟨w, words, hsplit, hhead, hiff⟩ := ih
    by_cases ha : a = sep
    · subst ha
      refine ⟨[], w :: words, ?_, by simp, ?_⟩
      · rw [List.splitOn_cons_eq_if_modifyHead, if_pos (beq_self_eq_true a), hsplit]
      · rw [spaced_cons_sep, ← hiff, ← not_or, ← hhead, Solid, List.forall_mem_cons]
        simp only [List.not_mem_nil, false_imp_iff, implies_true, true_and]
        exact ⟨fun h => ⟨⟨h.1.2, h.2⟩, h.1.1⟩, fun h => ⟨⟨h.2, h.1.1⟩, h.1.2⟩⟩
    · refine ⟨a :: w, words, ?_, by simp [ha], ?_⟩
      · rw [List.splitOn_cons_eq_if_modifyHead, if_neg (by simpa using ha), hsplit]
        rfl
      · rw [spaced_cons ha, ← hiff, List.forall_mem_cons, and_assoc]

/-- **A word splits into segments none of which is empty** where it is spaced and does not begin
with a separator. -/
theorem solid_splitOn_iff [DecidableEq α] (x : List α) :
    Solid p (x.splitOn sep) ↔ Spaced sep p x ∧ x.head? ≠ none ∧ x.head? ≠ some sep := by
  obtain ⟨w, words, hsplit, hhead, hiff⟩ := exists_splitOn sep p x
  rw [hsplit, Solid, List.forall_mem_cons, ← hiff, ← not_or, ← hhead]
  exact ⟨fun h => ⟨⟨h.1.2, h.2⟩, h.1.1⟩, fun h => ⟨⟨h.2, h.1.1⟩, h.1.2⟩⟩

end Segments

/-! ## Lines -/

/-- A search for `^P$`. -/
def matchesLine (P : RegularExpression Char) (s : String) : Bool :=
  P.rmatch s.toList || (s.toList.getLast? = some '\n' && P.rmatch s.toList.dropLast)

theorem matchesLine_iff {P : RegularExpression Char} {s : String} :
    matchesLine P s = true ↔ s.toList ∈ P.matches' ∨
      ∃ line, s.toList = line ++ ['\n'] ∧ line ∈ P.matches' := by
  simp only [matchesLine, Bool.or_eq_true, Bool.and_eq_true, decide_eq_true_eq, rmatch_iff_matches']
  refine or_congr_right ⟨?_, ?_⟩
  · rintro ⟨hlast, hline⟩
    exact ⟨_, (List.dropLast_append_getLast? _ hlast).symm, hline⟩
  · rintro ⟨line, hs, hline⟩
    rw [hs]
    exact ⟨by simp, by simpa using hline⟩

/-! ## Ranges of characters -/

/-- What each character of a list is, all are: evaluated along the list, never over all characters.
-/
theorem forall_mem_of_all {l : List Char} {P : Char → Prop} [DecidablePred P]
    (h : (l.all fun c => P c) = true) : ∀ c ∈ l, P c :=
  fun c hc => of_decide_eq_true (List.all_eq_true.mp h c hc)

/-- The characters of `lo-hi`. -/
def charRange (lo hi : Char) : List Char :=
  (List.range' lo.toNat (hi.toNat + 1 - lo.toNat)).map Char.ofNat

theorem mem_charRange {lo hi c : Char} (h : hi.toNat < 0xd800) :
    c ∈ charRange lo hi ↔ lo ≤ c ∧ c ≤ hi := by
  have hle : ∀ a b : Char, a ≤ b ↔ a.toNat ≤ b.toNat := fun _ _ => Iff.rfl
  rw [charRange, List.mem_map, hle, hle]
  constructor
  · rintro ⟨n, hn, rfl⟩
    obtain ⟨hlo, hhi⟩ := List.mem_range'_1.mp hn
    have hvalid : (Char.ofNat n).toNat = n := by
      rw [Char.ofNat, dif_pos (Or.inl (by omega))]
      rfl
    omega
  · rintro ⟨hlo, hhi⟩
    exact ⟨c.toNat, List.mem_range'_1.mpr (by omega), Char.ofNat_toNat c⟩

end Regex

end Machinery
