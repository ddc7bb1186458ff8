import CloudSpells.Machinery.Yaml
import Mathlib.Data.List.DropRight

/-!
# Machinery/YamlEdit — a document that lines are put into

Lines that are not indented part the outline of a document (`outline_append`), so a mapping that is
put before one of them, or at the end, is one entry more (`readAll_insert`).  Where a line is cut in
two instead, the keys are those the document had, and the ones next to the cut (`mem_keys_of_cut`).

No line of a document that is read is open (`closed_of_readAll`), so where its scalars are one line
each, its lines are those of either reader (`splitLines_quoted_of_closed`); and where the breaks are
newlines, they are anyway (`documentLines_of_newlines`).
-/

namespace Machinery

namespace Yaml

variable {s t w cs left text : List Char} {k : Scalar} {line : Line}
  {children trees : List Outline} {tree : Outline} {entry : Scalar × Node}
  {entries : List (Scalar × Node)}

/-! ## Outlines side by side -/

section Outlines

variable {lines lines' : List Line} {trees' : List Outline}

/-- A line keeps its own among the lines before one that is not indented. -/
theorem grow_append (h : ∀ tree ∈ trees'.head?, tree.indent ≤ 0) :
    grow line (trees ++ trees') = grow line trees ++ trees' := by
  obtain ⟨hnone, hall⟩ := split_at_head h (Nat.zero_le line.indent)
  rw [grow, List.takeWhile_append, List.dropWhile_append, hnone, hall, List.append_nil, grow,
    List.cons_append]
  split_ifs with hlength hempty hempty
  · rw [List.isEmpty_iff.mp hempty, List.nil_append,
      (List.takeWhile_prefix _).eq_of_length hlength]
  · rw [(List.takeWhile_prefix _).eq_of_length hlength]
  · rw [List.isEmpty_iff.mp hempty, List.nil_append]
  · rfl

/-- **A line that is not indented parts the outline.** -/
theorem outline_append (h : ∀ tree ∈ (outline lines').head?, tree.indent ≤ 0) :
    outline (lines ++ lines') = outline lines ++ outline lines' := by
  induction lines with
  | nil => rfl
  | cons line lines ih =>
    change grow line (outline (lines ++ lines')) = grow line (outline lines) ++ outline lines'
    rw [ih, grow_append h]

/-- The outline begins with the first line. -/
theorem head_outline : ∀ tree ∈ (outline lines).head?, ∃ line ∈ lines.head?,
    tree.indent = line.indent := by
  cases lines with
  | nil => exact fun _ h => by cases h
  | cons line lines =>
    rintro tree htree
    obtain rfl := Option.some.inj htree
    exact ⟨line, rfl, rfl⟩

theorem mem_of_mem_outline (h : .node line children ∈ outline lines) : line ∈ lines := by
  induction lines with
  | nil => cases h
  | cons line' lines ih =>
    rcases List.mem_cons.mp h with heq | h
    · obtain ⟨rfl, -⟩ := Outline.node.inj heq
      exact List.mem_cons_self ..
    · exact List.mem_cons_of_mem _ (ih ((List.dropWhile_suffix _).subset h))

/-- No line is above one that is not indented. -/
theorem exists_mem_outline (h : line ∈ lines) (hindent : line.indent = 0) :
    ∃ children, .node line children ∈ outline lines := by
  induction lines with
  | nil => cases h
  | cons line' lines ih =>
    rcases List.mem_cons.mp h with rfl | h
    · exact ⟨_, List.mem_cons_self ..⟩
    · obtain ⟨children, hmem⟩ := ih h
      refine ⟨children, List.mem_cons_of_mem _ ?_⟩
      rw [← List.takeWhile_append_dropWhile
        (p := fun tree : Outline => decide (line'.indent < tree.indent)) (l := outline lines)]
        at hmem
      refine (List.mem_append.mp hmem).resolve_left fun hown => ?_
      have hdeeper := List.mem_takeWhile_imp hown
      rw [Outline.indent, hindent] at hdeeper
      exact Nat.not_lt_zero _ (of_decide_eq_true hdeeper)

theorem readAll_append : readAll (trees ++ trees') = some entries ↔ ∃ before after,
    entries = before ++ after ∧ readAll trees = some before ∧ readAll trees' = some after := by
  induction trees generalizing entries with
  | nil =>
    constructor
    · exact fun h => ⟨[], entries, rfl, rfl, h⟩
    · rintro ⟨before, after, rfl, hbefore, hafter⟩
      obtain rfl := Option.some.inj hbefore
      exact hafter
  | cons tree trees ih =>
    cases entries with
    | nil =>
      rw [List.cons_append, readAll_eq_nil]
      refine iff_of_false (by simp) ?_
      rintro ⟨before, after, heq, hbefore, -⟩
      obtain ⟨rfl, -⟩ := List.append_eq_nil_iff.mp heq.symm
      cases readAll_eq_nil.mp hbefore
    | cons entry entries =>
      rw [List.cons_append, readAll_cons, ih]
      constructor
      · rintro ⟨hentry, before, after, rfl, hbefore, hafter⟩
        exact ⟨entry :: before, after, rfl, readAll_cons.mpr ⟨hentry, hbefore⟩, hafter⟩
      · rintro ⟨before, after, heq, hbefore, hafter⟩
        cases before with
        | nil => cases readAll_eq_nil.mp hbefore
        | cons entry' before =>
          obtain ⟨rfl, rfl⟩ := List.cons.inj heq
          obtain ⟨hentry, hbefore⟩ := readAll_cons.mp hbefore
          exact ⟨hentry, before, after, rfl, hbefore, hafter⟩

/-- Each tree is read as an entry. -/
theorem exists_entry_of_mem (h : readAll trees = some entries) (htree : tree ∈ trees) :
    ∃ entry ∈ entries, tree.read = some entry := by
  obtain ⟨trees₁, trees₂, rfl⟩ := List.append_of_mem htree
  obtain ⟨before, after, rfl, -, hafter⟩ := readAll_append.mp h
  cases after with
  | nil => cases readAll_eq_nil.mp hafter
  | cons entry after => exact ⟨entry, by simp, (readAll_cons.mp hafter).1⟩

/-- Each entry is that of a tree. -/
theorem exists_tree_of_mem (h : readAll trees = some entries) (hentry : entry ∈ entries) :
    ∃ tree ∈ trees, tree.read = some entry := by
  induction trees generalizing entries with
  | nil =>
    obtain rfl := Option.some.inj h
    cases hentry
  | cons tree trees ih =>
    cases entries with
    | nil => cases hentry
    | cons entry' entries =>
      obtain ⟨htree, htrees⟩ := readAll_cons.mp h
      rcases List.mem_cons.mp hentry with rfl | hentry
      · exact ⟨tree, List.mem_cons_self .., htree⟩
      · obtain ⟨tree', hmem, hread⟩ := ih htrees hentry
        exact ⟨tree', List.mem_cons_of_mem _ hmem, hread⟩

/-- **A line that is not indented has its key among those of the document.** -/
theorem exists_key_of_mem (h : readAll (outline lines) = some entries) (hline : line ∈ lines)
    (hindent : line.indent = 0) :
    ∃ k tail, line.key = some (k, tail) ∧ k ∈ entries.map Prod.fst := by
  obtain ⟨children, hmem⟩ := exists_mem_outline hline hindent
  obtain ⟨⟨k, node⟩, hentry, hread⟩ := exists_entry_of_mem h hmem
  obtain ⟨-, tail, -, -, hkey, -⟩ := read_eq_some.mp hread
  exact ⟨k, tail, hkey, List.mem_map_of_mem hentry⟩

/-- **An entry that is put in** before a line that is not indented, or at the end. -/
theorem readAll_insert {block : List Line} (hblock : outline block = [tree])
    (hindent : tree.indent = 0) (hentry : tree.read = some entry)
    (hhead : ∀ line ∈ lines'.head?, line.indent = 0)
    (h : readAll (outline (lines ++ lines')) = some entries) : ∃ before after,
      entries = before ++ after ∧
        readAll (outline (lines ++ (block ++ lines'))) = some (before ++ entry :: after) ∧
        ∀ tree' ∈ outline (lines ++ (block ++ lines')),
          tree' = tree ∨ tree' ∈ outline (lines ++ lines') := by
  have htop : ∀ tree ∈ (outline lines').head?, tree.indent ≤ 0 := by
    intro tree htree
    obtain ⟨line, hline, heq⟩ := head_outline tree htree
    exact (heq.trans (hhead line hline)).le
  have hafter : outline (block ++ lines') = tree :: outline lines' := by
    rw [outline_append htop, hblock]
    rfl
  have hwhole : outline (lines ++ (block ++ lines')) = outline lines ++ tree :: outline lines' := by
    rw [outline_append, hafter]
    rw [hafter]
    intro tree' htree'
    obtain rfl := Option.some.inj htree'
    exact hindent.le
  rw [outline_append htop] at h
  obtain ⟨before, after, rfl, hbefore, hrest⟩ := readAll_append.mp h
  refine ⟨before, after, rfl, ?_, fun tree' htree' => ?_⟩
  · rw [hwhole]
    exact readAll_append.mpr ⟨before, entry :: after, rfl, hbefore,
      readAll_cons.mpr ⟨hentry, hrest⟩⟩
  · rw [outline_append htop, List.mem_append]
    rw [hwhole, List.mem_append, List.mem_cons] at htree'
    tauto

end Outlines

/-! ## Texts side by side -/

section Texts

variable {raws : List (List Char)}

theorem contentLines_cons_congr {raws raws' : List (List Char)} (line : List Char)
    (h : contentLines raws = contentLines raws') :
    contentLines (line :: raws) = contentLines (line :: raws') := by
  rw [← List.singleton_append, contentLines_append, h, ← contentLines_append]
  rfl

theorem splitLines_none_cons (raw : List Char) (c : Char) (t : List Char) :
    splitLines .none raw (c :: t) =
      if isBreak c then raw :: splitLines .none [] t else splitLines .none (raw ++ [c]) t := by
  rw [splitLines, show Keep.none.keeps raw c t = false from rfl, Bool.not_false, Bool.and_true]

theorem splitLines_none_break {b : Char} (hb : isBreak b = true) (raw s t : List Char) :
    splitLines .none raw (s ++ b :: t) = splitLines .none raw s ++ splitLines .none [] t := by
  induction s generalizing raw with
  | nil =>
    rw [List.nil_append, splitLines_none_cons, if_pos hb]
    rfl
  | cons c s ih =>
    rw [List.cons_append, splitLines_none_cons, splitLines_none_cons]
    split_ifs
    · rw [ih, List.cons_append]
    · exact ih (raw ++ [c])

/-- **After a break, a text goes on in a line of its own.** -/
theorem exists_splitLines_append (h : ∀ c ∈ s.getLast?, isBreak c = true) :
    ∃ raws, ∀ t, splitLines .none [] (s ++ t) = raws ++ splitLines .none [] t := by
  rcases List.eq_nil_or_concat s with rfl | ⟨init, b, rfl⟩
  · exact ⟨[], fun t => rfl⟩
  · refine ⟨splitLines .none [] init, fun t => ?_⟩
    rw [List.concat_eq_append, List.append_assoc, List.singleton_append]
    exact splitLines_none_break (h b (by simp)) [] init t

/-- The only breaks are newlines. -/
def Newlines (s : List Char) : Prop := ∀ c ∈ s, isBreak c = true → c = '\n'

theorem unbroken_nil : Unbroken [] := fun _ hc => by cases hc

theorem Unbroken.newlines (hs : Unbroken s) : Newlines s := fun c hc hbreak => by
  rw [hs c hc] at hbreak
  cases hbreak

theorem newlines_append : Newlines (s ++ t) ↔ Newlines s ∧ Newlines t := List.forall_mem_append

theorem newlines_cons {c : Char} :
    Newlines (c :: s) ↔ (isBreak c = true → c = '\n') ∧ Newlines s := List.forall_mem_cons

/-- A newline that only newlines come before ends its line, as each of these does. -/
theorem splitLines_of_newlines {k : Keep} {line : List Char} (hline : Unbroken line)
    (hs : Newlines s) (t : List Char) :
    splitLines k line (s ++ '\n' :: t) = splitLines .none line s ++ splitLines k [] t := by
  induction s generalizing line with
  | nil =>
    rw [List.nil_append, splitLines_newline hline.getLast]
    rfl
  | cons c s ih =>
    obtain ⟨hc, hrest⟩ := newlines_cons.mp hs
    rw [List.cons_append, splitLines_none_cons]
    cases hbreak : isBreak c with
    | true =>
      obtain rfl := hc hbreak
      rw [splitLines_newline hline.getLast, if_pos rfl, ih unbroken_nil hrest, List.cons_append]
    | false =>
      rw [splitLines, hbreak, Bool.false_and, if_neg (by simp), if_neg (by simp)]
      exact ih (unbroken_append.mpr ⟨hline, unbroken_cons.mpr ⟨hbreak, unbroken_nil⟩⟩)
        hrest

/-- **After a newline that only newlines come before**, a text goes on in a line of its own. -/
theorem exists_splitLines_newlines (hs : Newlines s) (hlast : ∀ c ∈ s.getLast?, isBreak c = true) :
    ∃ raws, ∀ k t, splitLines k [] (s ++ t) = raws ++ splitLines k [] t := by
  rcases List.eq_nil_or_concat s with rfl | ⟨init, b, rfl⟩
  · exact ⟨[], fun k t => rfl⟩
  · rw [List.concat_eq_append] at hs hlast ⊢
    obtain ⟨hinit, hb⟩ := newlines_append.mp hs
    obtain rfl := hb b (by simp) (hlast b (by simp))
    refine ⟨splitLines .none [] init, fun k t => ?_⟩
    rw [List.append_assoc, List.singleton_append]
    exact splitLines_of_newlines unbroken_nil hinit t

/-- The last line of a text, and what is before it. -/
theorem exists_last_line (s : List Char) : ∃ init last, s = init ++ last ∧ Unbroken last ∧
    ∀ c ∈ init.getLast?, isBreak c = true := by
  refine ⟨s.rdropWhile fun c => !isBreak c, s.rtakeWhile fun c => !isBreak c,
    List.rdropWhile_append_rtakeWhile.symm, fun c hc => ?_, fun c hc => ?_⟩
  · have hlast := List.mem_rtakeWhile_imp hc
    rwa [Bool.not_eq_true'] at hlast
  · obtain ⟨hne, rfl⟩ := List.mem_getLast?_eq_getLast hc
    simpa using List.rdropWhile_last_not (p := fun c => !isBreak c) s hne

/-- A text without another break has the same lines for every reader. -/
theorem documentLines_of_newlines (k : Keep) (hs : Newlines s) :
    documentLines k s = documentLines .none s := by
  obtain ⟨init, last, rfl, hlast, hinit⟩ := exists_last_line s
  obtain ⟨raws, hraws⟩ := exists_splitLines_newlines (newlines_append.mp hs).1 hinit
  have hend (k : Keep) : splitLines k [] last = [last] := by
    rw [← List.append_nil last, splitLines_append hlast, List.append_nil]
    rfl
  rw [documentLines, documentLines, hraws, hraws, hend, hend]

/-- A break parts the lines before it from those after it. -/
theorem documentLines_append_break {b : Char} (hb : isBreak b = true) (s t : List Char) :
    documentLines .none (s ++ b :: t) = documentLines .none s ++ documentLines .none t := by
  rw [documentLines, splitLines_none_break hb, contentLines_append]
  rfl

/-- Newlines at the end of a text are lines with nothing on them. -/
theorem documentLines_append_newlines (ht : ∀ c ∈ t, c = '\n') :
    documentLines .none (s ++ t) = documentLines .none s := by
  induction t generalizing s with
  | nil => rw [List.append_nil]
  | cons c t ih =>
    obtain ⟨hc, hrest⟩ := List.forall_mem_cons.mp ht
    have hnone := ih (s := []) hrest
    rw [List.nil_append] at hnone
    rw [documentLines_append_break (by rw [hc]; decide), hnone]
    exact List.append_nil _

/-- A text that begins with something on its first line is not indented there. -/
theorem exists_documentLines_cons (k : Keep) {c : Char} (hbreak : isBreak c = false)
    (hspace : c ≠ ' ') (hhash : c ≠ '#') (t : List Char) :
    ∃ content lines, documentLines k (c :: t) = ⟨0, c :: content⟩ :: lines := by
  obtain ⟨raws, hraws⟩ := exists_splitLines k [] (c :: t)
  have hfirst : [] ++ lineRest k [] (c :: t) = pad 0 ++ c :: lineRest k [c] t := by
    rw [lineRest, if_neg (by simp [hbreak])]
    rfl
  refine ⟨lineRest k [c] t, contentLines raws, ?_⟩
  rw [documentLines, hraws, hfirst, contentLines_cons ⟨c, _, rfl, hspace, hhash⟩]

/-- **What a document that begins on its first line is read as.** -/
theorem loadWith_cons_eq_some {k : Keep} {text : String} {c : Char}
    (htext : text.toList.head? = some c) (hbreak : isBreak c = false) (hspace : c ≠ ' ')
    (hhash : c ≠ '#') (hmark : c ≠ byteOrderMark) :
    loadWith k text = some entries ↔ readAll (outlineOf k text.toList) = some entries ∧
      Printable text.toList ∧ (∀ tree ∈ outlineOf k text.toList, tree.indent = 0) ∧
      (entries.map Prod.fst).Nodup := by
  obtain ⟨t, ht⟩ : ∃ t, text.toList = c :: t := by
    cases heq : text.toList with
    | nil => simp [heq] at htext
    | cons d t =>
      rw [heq] at htext
      exact ⟨t, congrArg (· :: t) (Option.some.inj htext)⟩
  obtain ⟨content, lines, hlines⟩ := exists_documentLines_cons k hbreak hspace hhash t
  have houtline : outlineOf k text.toList = grow ⟨0, c :: content⟩ (outline lines) := by
    rw [ht, outlineOf, hlines]
    rfl
  have hchain : ((outlineOf k text.toList).map Outline.indent).IsChain (· = ·) ↔
      ∀ tree ∈ outlineOf k text.toList, tree.indent = 0 := by
    rw [List.isChain_iff_pairwise, List.pairwise_map, houtline, grow, List.pairwise_cons,
      List.forall_mem_cons]
    constructor
    · exact fun h => ⟨rfl, fun tree htree => (h.1 tree htree).symm⟩
    · exact fun h => ⟨fun tree htree => (h.2 tree htree).symm,
        List.pairwise_of_forall_mem_list fun a ha b hb => (h.2 a ha).trans (h.2 b hb).symm⟩
  have hfirst : text.toList.head? ≠ some byteOrderMark ∧ outlineOf k text.toList ≠ [] := by
    refine ⟨fun h => hmark (Option.some.inj (htext.symm.trans h)), ?_⟩
    rw [houtline]
    exact List.cons_ne_nil _ _
  rw [loadWith_eq_some, hchain]
  constructor
  · rintro ⟨hread, hprint, -, -, hindent, hnodup⟩
    exact ⟨hread, hprint, hindent, hnodup⟩
  · rintro ⟨hread, hprint, hindent, hnodup⟩
    exact ⟨hread, hprint, hfirst.1, hfirst.2, hindent, hnodup⟩

end Texts

/-! ## Lines of a document that is read -/

section Closed

variable {lines : List Line} {raws : List (List Char)} {raw : List Char}

/-- Each line of a document that is read has a key, and a value or none. -/
theorem exists_reading (h : readAll (outline lines) = some entries) (hline : line ∈ lines) :
    ∃ key tail value, line.key = some (key, tail) ∧ readInline tail = some value := by
  induction lines generalizing entries with
  | nil => cases hline
  | cons line' lines ih =>
    cases entries with
    | nil => cases readAll_eq_nil.mp h
    | cons entry entries =>
      obtain ⟨key, node⟩ := entry
      obtain ⟨hread, hrest⟩ := readAll_cons.mp h
      obtain ⟨own, tail, value, hown, hkey, hvalue, -⟩ := read_eq_some.mp hread
      rcases List.mem_cons.mp hline with rfl | hline
      · exact ⟨key, tail, value, hkey, hvalue⟩
      · have hlines : readAll (outline lines) = some (own ++ entries) := by
          rw [← List.takeWhile_append_dropWhile
            (p := fun tree : Outline => decide (line'.indent < tree.indent)) (l := outline lines)]
          exact readAll_append.mpr ⟨own, entries, rfl, hown, hrest⟩
        exact ih hlines hline

/-- A line whose value ends on it is not open. -/
theorem not_isOpen_of_readInline {key : Scalar} {tail : List Char} {value : Option Scalar}
    (hkey : readKey (raw.dropWhile (· = ' ')) = some (key, tail))
    (hvalue : readInline tail = some value) : isOpen raw = false := by
  rw [← Bool.not_eq_true, isOpen, hkey, Option.any_some, Bool.and_eq_true, decide_eq_true_eq]
  rintro ⟨hquote, hopen⟩
  obtain ⟨u, hu⟩ : ∃ u, tail.dropWhile (· = ' ') = doubleQuote :: u := by
    cases hdrop : tail.dropWhile (· = ' ') with
    | nil => simp [hdrop] at hquote
    | cons c u =>
      rw [hdrop] at hquote
      exact ⟨u, congrArg (· :: u) (Option.some.inj hquote)⟩
  have hends : lineEnds tail = false := by
    rw [lineEnds, hu]
    simp [show doubleQuote ≠ '#' by decide]
  cases value with
  | none =>
    rw [readInline, hends, if_neg (by simp)] at hvalue
    obtain ⟨⟨text, left⟩, -, hvalue⟩ := Option.bind_eq_some_iff.mp hvalue
    dsimp only at hvalue
    split_ifs at hvalue
    obtain ⟨v, -, heq⟩ := Option.map_eq_some_iff.mp hvalue
    cases heq
  | some v =>
    obtain ⟨-, text, left, hscan, -, -⟩ := readInline_eq_some.mp hvalue
    rw [hu, scanScalar_doubleQuote] at hscan
    obtain ⟨r, hr, -⟩ := Option.map_eq_some_iff.mp hscan
    -- The scalar is the same when a quote comes after it, and the quote is left.
    obtain ⟨left', -, hmore⟩ := scanDouble_append_word (w := []) (by simp)
      (show scanDouble .no (u ++ []) = some (r.1, r.2) by rw [List.append_nil, hr])
    rw [hu, List.cons_append, scanScalar_doubleQuote, hmore [doubleQuote]] at hopen
    simp at hopen

theorem closed_of_readAll (h : readAll (outline (contentLines raws)) = some entries)
    (hraw : raw ∈ raws) : isOpen raw = false := by
  cases hvisible : (lineOf raw).content.head?.all (· = '#') with
  | false =>
    obtain ⟨key, tail, value, hkey, hvalue⟩ :=
      exists_reading h (mem_contentLines.mpr ⟨raw, hraw, rfl, hvisible⟩)
    rw [Line.key] at hkey
    split_ifs at hkey
    exact not_isOpen_of_readInline hkey hvalue
  | true =>
    -- A line with nothing on it, or a comment, has no key.
    have hnone : readKey (raw.dropWhile (· = ' ')) = none := by
      change (raw.dropWhile (· = ' ')).head?.all (· = '#') = true at hvisible
      cases hdrop : raw.dropWhile (· = ' ') with
      | nil => rfl
      | cons c cs =>
        rw [hdrop] at hvisible
        obtain rfl : c = '#' := of_decide_eq_true hvisible
        rw [readKey, scanScalar, if_neg (by decide), if_neg (by decide), if_neg]
        · rfl
        · simp [startsPlain, show '#' ∈ indicators by decide]
    rw [isOpen, hnone]
    rfl

/-- **Where no line is open**, each ends with a break. -/
theorem splitLines_quoted_of_closed {t : List Char}
    (h : ∀ raw ∈ splitLines .none s t, isOpen raw = false) :
    splitLines .quoted s t = splitLines .none s t := by
  induction t generalizing s with
  | nil => rfl
  | cons c t ih =>
    rw [splitLines_none_cons] at h ⊢
    rw [splitLines]
    cases hc : isBreak c with
    | true =>
      rw [hc, if_pos rfl] at h
      have hkeeps : Keep.quoted.keeps s c t = false := by
        simp [Keep.quoted, h s (List.mem_cons_self ..)]
      rw [hkeeps, if_pos (by decide), if_pos rfl,
        ih fun raw hraw => h raw (List.mem_cons_of_mem _ hraw)]
    | false =>
      rw [hc, if_neg (by simp)] at h
      rw [Bool.false_and, if_neg (by simp), if_neg (by simp), ih h]

/-- What comes before a newline that ends a line, where none of the lines before it is open. -/
theorem splitLines_quoted_before {t : List Char}
    (hclosed : ∀ raw ∈ (splitLines .none s w).dropLast, isOpen raw = false)
    (hstop : ∀ c ∈ (s ++ w).getLast?, isBreak c = false) :
    splitLines .quoted s (w ++ '\n' :: t) = splitLines .none s w ++ splitLines .quoted [] t := by
  induction w generalizing s with
  | nil =>
    rw [List.append_nil] at hstop
    rw [List.nil_append, splitLines_newline hstop]
    rfl
  | cons c w ih =>
    rw [splitLines_none_cons] at hclosed ⊢
    rw [List.cons_append, splitLines]
    cases hc : isBreak c with
    | true =>
      obtain ⟨rest, hrest⟩ := exists_splitLines .none [] w
      rw [hc, if_pos rfl, hrest, List.dropLast_cons_of_ne_nil (by simp), ← hrest] at hclosed
      have hkeeps : Keep.quoted.keeps s c (w ++ '\n' :: t) = false := by
        simp [Keep.quoted, hclosed s (List.mem_cons_self ..)]
      rw [hkeeps, if_pos (by decide), if_pos rfl,
        ih fun raw hraw => hclosed raw (List.mem_cons_of_mem _ hraw)]
      · rfl
      · intro d hd
        refine hstop d ?_
        cases w with
        | nil => cases hd
        | cons e w => rwa [List.getLast?_append_cons, List.getLast?_cons_cons]
    | false =>
      rw [hc, if_neg (by simp)] at hclosed
      rw [Bool.false_and, if_neg (by simp), if_neg (by simp)]
      exact ih hclosed (by rwa [List.append_assoc])

/-- The lines after the first do not depend on what there is of it. -/
theorem tail_splitLines_none (s s' t : List Char) :
    (splitLines .none s t).tail = (splitLines .none s' t).tail := by
  induction t generalizing s s' with
  | nil => rfl
  | cons c t ih =>
    rw [splitLines_none_cons, splitLines_none_cons]
    split_ifs
    · rfl
    · exact ih _ _

/-- **Only the line that was begun may go on over breaks**, where none of the others is open. -/
theorem exists_splitLines_quoted {t : List Char}
    (hclosed : ∀ raw ∈ (splitLines .none s t).tail, isOpen raw = false) :
    ∃ x rest, rest ⊆ (splitLines .none s t).tail ∧ splitLines .quoted s t = (s ++ x) :: rest := by
  induction t generalizing s with
  | nil => exact ⟨[], [], by simp, by rw [List.append_nil]; rfl⟩
  | cons c t ih =>
    have hnext : (splitLines .none (s ++ [c]) t).tail ⊆ (splitLines .none s (c :: t)).tail := by
      rw [splitLines_none_cons]
      split_ifs
      · rw [tail_splitLines_none (s ++ [c]) []]
        exact List.tail_subset _
      · exact List.Subset.refl _
    by_cases hends : (isBreak c && !Keep.quoted.keeps s c t) = true
    · obtain ⟨hc, -⟩ := (Bool.and_eq_true _ _).mp hends
      rw [splitLines_none_cons, if_pos hc, List.tail_cons] at hclosed ⊢
      refine ⟨[], splitLines .none [] t, List.Subset.refl _, ?_⟩
      rw [splitLines, if_pos hends, splitLines_quoted_of_closed hclosed, List.append_nil]
    · -- The line goes on, and what comes after it is on lines that there are.
      obtain ⟨x, rest, hrest, hlines⟩ := ih fun raw hraw => hclosed raw (hnext hraw)
      refine ⟨c :: x, rest, List.Subset.trans hrest hnext, ?_⟩
      rw [splitLines, if_neg hends, hlines, List.append_assoc, List.singleton_append]

end Closed

/-! ## A line that is cut -/

section Cut

variable {raws : List (List Char)}

/-- **The keys of a document one of whose lines is cut in two**: some of those it had, the one of
the line after the cut, and the one that ends where the cut is. -/
theorem mem_keys_of_cut {rest rest' block : List (List Char)} {w' w'' tail : List Char}
    (hs : s ≠ []) (hcut : CutWords w w') (hblock : ∀ line ∈ contentLines block, line.indent ≠ 0)
    (hrest : rest' ⊆ rest)
    (h : readAll (outline (contentLines (raws ++ (s ++ w') :: rest))) = some entries)
    (hline : line ∈ contentLines (raws ++ (s ++ w) :: (block ++ w'' :: rest')))
    (hindent : line.indent = 0) (hkey : line.key = some (k, tail)) :
    k ∈ entries.map Prod.fst ∨ line = lineOf w'' ∨
      (resolve (s ++ (scanPlain w).1)).map Scalar.asKey = some k := by
  have hold (raw : List Char) (hraw : raw ∈ raws ++ (s ++ w') :: rest)
      (hvisible : (lineOf raw).content.head?.all (· = '#') = false)
      (hraw0 : (lineOf raw).indent = 0)
      (key : Scalar) (tail : List Char) (hread : readKey (lineOf raw).content = some (key, tail)) :
      key ∈ entries.map Prod.fst := by
    obtain ⟨k', tail', hkey', hmem⟩ := exists_key_of_mem h
      (mem_contentLines.mpr ⟨raw, hraw, rfl, hvisible⟩) hraw0
    rw [Line.key] at hkey'
    split_ifs at hkey'
    rw [hread] at hkey'
    obtain ⟨rfl, -⟩ := Prod.mk.inj (Option.some.inj hkey')
    exact hmem
  have hreadKey : readKey line.content = some (k, tail) := by
    rw [Line.key] at hkey
    split_ifs at hkey
    exact hkey
  obtain ⟨raw, hraw, rfl, hvisible⟩ := mem_contentLines.mp hline
  simp only [List.mem_append, List.mem_cons] at hraw
  rcases hraw with hraw | rfl | hraw | rfl | hraw
  · exact .inl (hold raw (by simp [hraw]) hvisible hindent k tail hreadKey)
  · -- The line itself: its key comes before the cut, or ends with it.
    obtain ⟨c, s', rfl⟩ := List.exists_cons_of_ne_nil hs
    have hc : c ≠ ' ' := by
      rintro rfl
      simp [lineOf] at hindent
    have hwhole (w : List Char) : lineOf (c :: s' ++ w) = ⟨0, c :: s' ++ w⟩ := by
      rw [lineOf, List.cons_append, List.takeWhile_cons_of_neg (by simpa using hc),
        List.dropWhile_cons_of_neg (by simpa using hc)]
      rfl
    rw [hwhole] at hvisible hreadKey
    rcases readKey_append_word hs hcut hreadKey with ⟨tail', hread⟩ | hresolve
    · refine .inl (hold (c :: s' ++ w') (by simp) ?_ ?_ k tail' ?_)
      · rw [hwhole]
        exact hvisible
      · rw [hwhole]
      · rw [hwhole]
        exact hread
    · exact .inr (.inr hresolve)
  · exact absurd hindent (hblock _ (mem_contentLines.mpr ⟨raw, hraw, rfl, hvisible⟩))
  · exact .inr (.inl rfl)
  · exact .inl (hold raw (by simp [hrest hraw]) hvisible hindent k tail hreadKey)

end Cut

end Yaml

end Machinery
