import CloudSpells.Machinery.YamlCut
import Mathlib.Data.List.TakeWhile

/-!
# Machinery/Yaml — documents of nested keys, as YAML reads them

A document is read line by line: a line is the key of the lines below it that are indented deeper,
up to the next one that is not.  A value in double quotes goes on over the breaks that stand for
themselves there: the separators of lines and paragraphs, and newlines after them.

`load` reads the documents that are mappings, and in these the mappings whose values are mappings
again or scalars without another break; other documents, well formed or not, it does not read.
`loadLines` reads those whose values are one line each.

A line that is written is read back where the text of its value is (`Writable.read_value_iff`), and
the lines after it are not its own.
-/

namespace Machinery

namespace Yaml

/-! ## Lines -/

/-- A line break. -/
def isBreak (c : Char) : Bool :=
  c ∈ ['\n', '\r', Char.ofNat 0x85, Char.ofNat 0x2028, Char.ofNat 0x2029]

/-- A text of one line. -/
def Unbroken (s : List Char) : Prop := ∀ c ∈ s, isBreak c = false

instance (s : List Char) : Decidable (Unbroken s) :=
  List.decidableBAll (fun c => isBreak c = false) s

/-- A character a document may have. -/
def isPrintable (c : Char) : Bool :=
  c = '\t' || c = '\n' || c = '\r' || c.toNat = 0x85 || (0x20 ≤ c.toNat && c.toNat ≤ 0x7e) ||
    (0xa0 ≤ c.toNat && c.toNat ≤ 0xd7ff) || (0xe000 ≤ c.toNat && c.toNat ≤ 0xfffd) ||
    0x10000 ≤ c.toNat

/-- A text a document may have. -/
def Printable (s : List Char) : Prop := ∀ c ∈ s, isPrintable c = true

instance (s : List Char) : Decidable (Printable s) :=
  List.decidableBAll (fun c => isPrintable c = true) s

/-- The breaks that a line goes on over, told by the line so far, the break and what comes after it.
A newline is one only after another break. -/
structure Keep where
  keeps : List Char → Char → List Char → Bool
  newline : ∀ line rest, (∀ c ∈ line.getLast?, isBreak c = false) → keeps line '\n' rest = false

/-- A line ends with any break. -/
def Keep.none : Keep where
  keeps _ _ _ := false
  newline _ _ _ := rfl

/-- A document begins or ends here. -/
def startsMarker (rest : List Char) : Bool :=
  (rest.take 3 = "---".toList || rest.take 3 = "...".toList) &&
    (rest.drop 3).head?.all fun c => isBlank c || isBreak c

/-- In double quotes, the break is one of the text: a separator of lines or paragraphs, or a newline
after one, without a blank before or after it.  Others are folded. -/
def standsForItself (line : List Char) (c : Char) (rest : List Char) : Bool :=
  (c = Char.ofNat 0x2028 || c = Char.ofNat 0x2029 || (c = '\n' && line.getLast?.any isBreak)) &&
    !line.getLast?.any isBlank && !blankNext rest && !startsMarker rest

/-- A value in double quotes was begun on the line, and not ended. -/
def isOpen (line : List Char) : Bool :=
  (readKey (line.dropWhile (· = ' '))).any fun key =>
    (key.2.dropWhile (· = ' ')).head? = some doubleQuote &&
      (scanScalar (key.2.dropWhile (· = ' ') ++ [doubleQuote])).any fun scalar => scalar.2.isEmpty

/-- A line goes on over the breaks that stand for themselves in its value. -/
def Keep.quoted : Keep where
  keeps line c rest := standsForItself line c rest && isOpen line
  newline line rest h := by
    have hlast : line.getLast?.any isBreak = false := by
      cases hc : line.getLast? with
      | none => rfl
      | some c => exact h c hc
    simp [standsForItself, hlast]

/-- The lines of a text, where `line` is what there is of the first. -/
def splitLines (k : Keep) (line : List Char) : List Char → List (List Char)
  | [] => [line]
  | c :: cs =>
    if isBreak c && !k.keeps line c cs then line :: splitLines k [] cs
    else splitLines k (line ++ [c]) cs

/-- A line: how far it is indented, and what comes after that. -/
structure Line where
  indent : ℕ
  content : List Char
  deriving DecidableEq, Repr

/-- Take the spaces off a line. -/
def lineOf (raw : List Char) : Line where
  indent := (raw.takeWhile (· = ' ')).length
  content := raw.dropWhile (· = ' ')

/-- The line begins or ends a document. -/
def Line.isMarker (line : Line) : Bool :=
  line.indent = 0 && (line.content.take 3 = "---".toList || line.content.take 3 = "...".toList) &&
    blankNext (line.content.drop 3)

/-- The lines that are not blank and no comments. -/
def contentLines (raws : List (List Char)) : List Line :=
  (raws.map lineOf).filter fun line => !line.content.head?.all (· = '#')

/-- The lines of a document. -/
def documentLines (k : Keep) (text : List Char) : List Line := contentLines (splitLines k [] text)

/-! ## Outlines -/

/-- A line, and the lines that are its own. -/
inductive Outline
  | node (line : Line) (children : List Outline)

/-- How far a line is indented. -/
def Outline.indent : Outline → ℕ
  | node line _ => line.indent

/-- Put a line before others: the ones that are indented deeper are its own. -/
def grow (line : Line) (trees : List Outline) : List Outline :=
  .node line (trees.takeWhile fun tree => line.indent < tree.indent) ::
    trees.dropWhile fun tree => line.indent < tree.indent

/-- The outline of a document. -/
def outline (lines : List Line) : List Outline := lines.foldr grow []

/-- The outline of a text. -/
def outlineOf (k : Keep) (text : List Char) : List Outline := outline (documentLines k text)

/-! ## Mappings -/

/-- What is read: a scalar, or a mapping. -/
inductive Node
  | scalar (v : Scalar)
  | mapping (entries : List (Scalar × Node))

/-- The scalar it is, if it is one. -/
def Node.scalar? : Node → Option Scalar
  | scalar v => some v
  | mapping _ => none

/-- The entries are a mapping: the lines are indented alike, and no key is given twice. -/
def block (trees : List Outline) (entries : List (Scalar × Node)) :
    Option (List (Scalar × Node)) :=
  if (trees.map Outline.indent).IsChain (· = ·) ∧ (entries.map Prod.fst).Nodup then some entries
  else none

/-- The key of a line, and what comes after its colon. -/
def Line.key (line : Line) : Option (Scalar × List Char) :=
  if line.isMarker then none else readKey line.content

/-- The value of a line that has a value on it or lines of its own. -/
def valueOf (children : List Outline) (entries : List (Scalar × Node)) : Option Scalar → Option Node
  | some v => if children.isEmpty then some (.scalar v) else none
  | none =>
    if children.isEmpty then some (.scalar .null) else (block children entries).map .mapping

mutual

/-- Read a line and its own. -/
def Outline.read : Outline → Option (Scalar × Node)
  | .node line children =>
    (readAll children).bind fun entries => line.key.bind fun key =>
      (readInline key.2).bind fun value =>
        (valueOf children entries value).map fun node => (key.1, node)

/-- Read lines and their own. -/
def readAll : List Outline → Option (List (Scalar × Node))
  | [] => some []
  | tree :: trees => tree.read.bind fun entry => (readAll trees).map fun entries => entry :: entries

end

/-- The mark that some documents begin with. -/
def byteOrderMark : Char := Char.ofNat 0xfeff

/-- Read a document. -/
def loadWith (k : Keep) (text : String) : Option (List (Scalar × Node)) :=
  let trees := outlineOf k text.toList
  if Printable text.toList ∧ text.toList.head? ≠ some byteOrderMark ∧ trees.isEmpty = false then
    (readAll trees).bind (block trees)
  else none

/-- Read a document: its values are mappings and scalars, and in double quotes the breaks that stand
for themselves are of the scalar. -/
def load (text : String) : Option (List (Scalar × Node)) := loadWith .quoted text

/-- Read a document whose scalars are one line each. -/
def loadLines (text : String) : Option (List (Scalar × Node)) := loadWith .none text

/-! ## Lines of a text -/

section Lines

variable {k : Keep} {line s t w key : List Char} {i : ℕ}

theorem unbroken_append : Unbroken (s ++ t) ↔ Unbroken s ∧ Unbroken t := List.forall_mem_append

theorem unbroken_cons {c : Char} : Unbroken (c :: s) ↔ isBreak c = false ∧ Unbroken s :=
  List.forall_mem_cons

theorem Unbroken.getLast (hs : Unbroken s) : ∀ c ∈ s.getLast?, isBreak c = false :=
  fun c hc => hs c (List.mem_of_mem_getLast? hc)

theorem printable_append : Printable (s ++ t) ↔ Printable s ∧ Printable t := List.forall_mem_append

theorem printable_cons {c : Char} : Printable (c :: s) ↔ isPrintable c = true ∧ Printable s :=
  List.forall_mem_cons

theorem splitLines_append (hs : Unbroken s) (line t : List Char) :
    splitLines k line (s ++ t) = splitLines k (line ++ s) t := by
  induction s generalizing line with
  | nil => rw [List.nil_append, List.append_nil]
  | cons c s ih =>
    obtain ⟨hc, hs⟩ := unbroken_cons.mp hs
    rw [List.cons_append, splitLines, if_neg (by simp [hc]), ih hs, List.append_assoc,
      List.singleton_append]

/-- A newline ends its line, but for one after another break. -/
theorem splitLines_newline (hline : ∀ c ∈ line.getLast?, isBreak c = false) (t : List Char) :
    splitLines k line ('\n' :: t) = line :: splitLines k [] t := by
  rw [splitLines, if_pos (by rw [k.newline line t hline]; decide)]

/-- **A line that is written** is the first line of the text, and the others are those of the rest.
-/
theorem splitLines_line (hs : Unbroken s) (t : List Char) :
    splitLines k [] (s ++ '\n' :: t) = s :: splitLines k [] t := by
  rw [splitLines_append hs, List.nil_append, splitLines_newline hs.getLast]

/-- What there is to come of a line. -/
def lineRest (k : Keep) (line : List Char) : List Char → List Char
  | [] => []
  | c :: cs =>
    if isBreak c && !k.keeps line c cs then [] else c :: lineRest k (line ++ [c]) cs

/-- A text begins with its first line. -/
theorem exists_splitLines (k : Keep) (line t : List Char) :
    ∃ rest, splitLines k line t = (line ++ lineRest k line t) :: rest := by
  induction t generalizing line with
  | nil => exact ⟨[], by rw [lineRest, List.append_nil]; rfl⟩
  | cons c t ih =>
    rw [splitLines, lineRest]
    split_ifs
    · exact ⟨_, by rw [List.append_nil]⟩
    · obtain ⟨rest, hrest⟩ := ih (line ++ [c])
      exact ⟨rest, by rw [hrest, List.append_assoc, List.singleton_append]⟩

/-- **A text before a newline is the rest of the line**, where the newline ends it; or a break of
the text does before. -/
theorem whole_or_cut (hstop : k.keeps (line ++ w) '\n' t = false) :
    lineRest k line (w ++ '\n' :: t) = w ∨
      ∃ b r, isBreak b = true ∧ w = lineRest k line (w ++ '\n' :: t) ++ b :: r := by
  induction w generalizing line with
  | nil =>
    rw [List.append_nil] at hstop
    left
    rw [List.nil_append, lineRest, if_pos (by rw [hstop]; decide)]
  | cons c w ih =>
    rw [List.cons_append, lineRest]
    split_ifs with hbreak
    · exact .inr ⟨c, w, ((Bool.and_eq_true _ _).mp hbreak).1, rfl⟩
    · rw [List.append_cons line c w] at hstop
      refine (ih hstop).imp (congrArg (c :: ·)) ?_
      rintro ⟨b, r, hb, heq⟩
      exact ⟨b, r, hb, by rw [List.cons_append, ← heq]⟩

/-- The lines after such a text are those after the newline. -/
theorem splitLines_of_lineRest (h : lineRest k line (w ++ '\n' :: t) = w) :
    splitLines k line (w ++ '\n' :: t) = (line ++ w) :: splitLines k [] t := by
  induction w generalizing line with
  | nil =>
    rw [List.nil_append, lineRest] at h
    rw [List.nil_append, splitLines, List.append_nil]
    split_ifs at h ⊢ with hbreak
    rfl
  | cons c w ih =>
    rw [List.cons_append, lineRest] at h
    rw [List.cons_append, splitLines]
    split_ifs at h ⊢ with hbreak
    rw [ih (List.cons.inj h).2, List.append_assoc, List.singleton_append]

/-- **Before a newline that ends a line** there are whole lines: the text is one, or each has less
of it. -/
theorem exists_splitLines_before (hstop : ∀ c ∈ (line ++ w).getLast?, isBreak c = false)
    (t : List Char) : ∃ raws, splitLines k line (w ++ '\n' :: t) = raws ++ splitLines k [] t ∧
      (raws = [line ++ w] ∨
        ∀ raw ∈ raws, ∃ y, y.length < w.length ∧ (raw = line ++ y ∨ raw = y)) := by
  induction w generalizing line with
  | nil =>
    rw [List.append_nil] at hstop
    exact ⟨[line], by rw [List.nil_append, splitLines_newline hstop]; rfl, .inl (by simp)⟩
  | cons c w ih =>
    rw [List.cons_append, splitLines]
    split_ifs with hbreak
    · have hrest : ∀ d ∈ ([] ++ w).getLast?, isBreak d = false := by
        intro d hd
        refine hstop d ?_
        cases w with
        | nil => cases hd
        | cons e w => rwa [List.getLast?_append_cons, List.getLast?_cons_cons]
      obtain ⟨raws, hraws, hlength⟩ := ih hrest
      refine ⟨line :: raws, by rw [hraws]; rfl, .inr (List.forall_mem_cons.mpr ⟨?_, ?_⟩)⟩
      · exact ⟨[], by simp, .inl (List.append_nil _).symm⟩
      · rcases hlength with rfl | hlength
        · intro raw hraw
          exact ⟨w, by simp, .inr (by simpa using hraw)⟩
        · intro raw hraw
          obtain ⟨y, hy, heq⟩ := hlength raw hraw
          exact ⟨y, hy.trans (by simp), .inr (by simpa using heq)⟩
    · rw [List.append_cons line c w] at hstop
      obtain ⟨raws, hraws, hlength⟩ := ih hstop
      refine ⟨raws, hraws, hlength.imp (fun h => by rw [h, List.append_cons line c w]) ?_⟩
      intro hlength raw hraw
      obtain ⟨y, hy, heq⟩ := hlength raw hraw
      rcases heq with rfl | rfl
      · exact ⟨c :: y, by simpa using hy, .inl (List.append_cons _ _ _).symm⟩
      · exact ⟨_, hy.trans (by simp), .inr rfl⟩

/-- Spaces. -/
def pad (i : ℕ) : List Char := List.replicate i ' '

theorem unbroken_pad (i : ℕ) : Unbroken (pad i) := fun c hc => by
  rw [List.eq_of_mem_replicate hc]
  decide

theorem printable_pad (i : ℕ) : Printable (pad i) := fun c hc => by
  rw [List.eq_of_mem_replicate hc]
  decide

theorem dropWhile_pad (i : ℕ) (s : List Char) :
    (pad i ++ s).dropWhile (· = ' ') = s.dropWhile (· = ' ') :=
  List.dropWhile_append_of_pos fun _ hc => decide_eq_true (List.eq_of_mem_replicate hc)

/-- What a line with a value begins with. -/
def lineStart (i : ℕ) (key : List Char) : List Char := pad i ++ (key ++ [':', ' '])

/-- A line with a value, and what comes after it. -/
def valueLine (i : ℕ) (key w t : List Char) : List Char :=
  pad i ++ (key ++ ':' :: ' ' :: w) ++ '\n' :: t

/-- A line with a key only. -/
def blockLine (i : ℕ) (key t : List Char) : List Char := pad i ++ (key ++ [':']) ++ '\n' :: t

theorem valueLine_eq (i : ℕ) (key w t : List Char) :
    valueLine i key w t = lineStart i key ++ (w ++ '\n' :: t) := by
  simp [valueLine, lineStart]

theorem lineStart_append (i : ℕ) (key w : List Char) :
    lineStart i key ++ w = pad i ++ (key ++ ':' :: ' ' :: w) := by
  simp [lineStart]

theorem printable_valueLine : Printable (valueLine i key w t) ↔
    Printable key ∧ Printable w ∧ Printable t := by
  rw [valueLine, printable_append, printable_append, printable_append, printable_cons,
    printable_cons, printable_cons]
  have hcolon : isPrintable ':' = true := by decide
  have hspace : isPrintable ' ' = true := by decide
  have hnewline : isPrintable '\n' = true := by decide
  simp only [hcolon, hspace, hnewline, printable_pad, true_and, and_assoc]

theorem printable_blockLine : Printable (blockLine i key t) ↔ Printable key ∧ Printable t := by
  rw [blockLine, printable_append, printable_append, printable_append, printable_cons,
    printable_cons]
  have hcolon : isPrintable ':' = true := by decide
  have hnewline : isPrintable '\n' = true := by decide
  have hnil : Printable [] := by decide
  simp only [hcolon, hnewline, hnil, printable_pad, true_and, and_true]

/-- A text that is on a line: it does not begin with a space, and is no comment. -/
def Visible (content : List Char) : Prop := ∃ c cs, content = c :: cs ∧ c ≠ ' ' ∧ c ≠ '#'

theorem lineOf_pad (i : ℕ) (h : Visible w) : lineOf (pad i ++ w) = ⟨i, w⟩ := by
  obtain ⟨c, cs, rfl, hc, -⟩ := h
  have hpad : ∀ d ∈ pad i, decide (d = ' ') = true := fun d hd =>
    decide_eq_true (List.eq_of_mem_replicate hd)
  rw [lineOf, List.takeWhile_append_of_pos hpad, List.dropWhile_append_of_pos hpad,
    List.takeWhile_cons_of_neg (by simpa using hc), List.dropWhile_cons_of_neg (by simpa using hc),
    List.append_nil, pad, List.length_replicate]

theorem contentLines_append (raws raws' : List (List Char)) :
    contentLines (raws ++ raws') = contentLines raws ++ contentLines raws' := by
  rw [contentLines, List.map_append, List.filter_append]
  rfl

theorem contentLines_cons (h : Visible w) (raws : List (List Char)) :
    contentLines ((pad i ++ w) :: raws) = ⟨i, w⟩ :: contentLines raws := by
  rw [contentLines, List.map_cons, lineOf_pad i h]
  obtain ⟨c, cs, rfl, -, hc⟩ := h
  rw [List.filter_cons_of_pos (by simpa using hc)]
  rfl

theorem mem_contentLines {raws : List (List Char)} {l : Line} : l ∈ contentLines raws ↔
    ∃ raw ∈ raws, l = lineOf raw ∧ l.content.head?.all (· = '#') = false := by
  simp only [contentLines, List.mem_filter, List.mem_map, Bool.not_eq_true']
  constructor
  · rintro ⟨⟨raw, hraw, rfl⟩, hvisible⟩
    exact ⟨raw, hraw, rfl, hvisible⟩
  · rintro ⟨raw, hraw, rfl, hvisible⟩
    exact ⟨⟨raw, hraw, rfl⟩, hvisible⟩

/-- **The lines of a document after one that is written.** -/
theorem documentLines_line (hw : Unbroken w) (h : Visible w) (t : List Char) :
    documentLines k (pad i ++ w ++ '\n' :: t) = ⟨i, w⟩ :: documentLines k t := by
  rw [documentLines, splitLines_line (unbroken_append.mpr ⟨unbroken_pad i, hw⟩),
    contentLines_cons h]
  rfl

end Lines

/-! ## Reading -/

section Read

variable {line : Line} {children trees : List Outline} {tree : Outline} {key : Scalar}
  {entry : Scalar × Node} {entries : List (Scalar × Node)}

theorem readAll_cons : readAll (tree :: trees) = some (entry :: entries) ↔
    tree.read = some entry ∧ readAll trees = some entries := by
  rw [readAll]
  constructor
  · intro h
    obtain ⟨entry', hentry, h⟩ := Option.bind_eq_some_iff.mp h
    obtain ⟨entries', hentries, h⟩ := Option.map_eq_some_iff.mp h
    obtain ⟨rfl, rfl⟩ := List.cons.inj h
    exact ⟨hentry, hentries⟩
  · rintro ⟨hentry, hentries⟩
    rw [hentry, hentries]
    rfl

theorem readAll_eq_nil : readAll trees = some [] ↔ trees = [] := by
  cases trees with
  | nil => simp [readAll]
  | cons tree trees =>
    refine iff_of_false (fun h => ?_) (by simp)
    rw [readAll] at h
    obtain ⟨entry, -, h⟩ := Option.bind_eq_some_iff.mp h
    obtain ⟨entries, -, h⟩ := Option.map_eq_some_iff.mp h
    cases h

/-- The entries of a block are the ones that were read. -/
theorem block_eq_some {entries' : List (Scalar × Node)} :
    block trees entries = some entries' ↔ entries' = entries ∧
      (trees.map Outline.indent).IsChain (· = ·) ∧ (entries.map Prod.fst).Nodup := by
  rw [block]
  split_ifs with h
  · rw [Option.some.injEq]
    exact ⟨fun heq => ⟨heq.symm, h⟩, fun heq => heq.1.symm⟩
  · exact iff_of_false (by simp) fun heq => h heq.2

/-- **What a line is read as**, its key and its value. -/
theorem read_eq_some {node : Node} : (Outline.node line children).read = some (key, node) ↔
    ∃ entries tail value, readAll children = some entries ∧ line.key = some (key, tail) ∧
      readInline tail = some value ∧ valueOf children entries value = some node := by
  rw [Outline.read]
  constructor
  · intro h
    obtain ⟨entries, hentries, h⟩ := Option.bind_eq_some_iff.mp h
    obtain ⟨⟨key', tail⟩, hkey, h⟩ := Option.bind_eq_some_iff.mp h
    obtain ⟨value, hvalue, h⟩ := Option.bind_eq_some_iff.mp h
    obtain ⟨node', hnode, h⟩ := Option.map_eq_some_iff.mp h
    obtain ⟨rfl, rfl⟩ := Prod.mk.inj h
    exact ⟨entries, tail, value, hentries, hkey, hvalue, hnode⟩
  · rintro ⟨entries, tail, value, hentries, hkey, hvalue, hnode⟩
    simp only [hentries, hkey, Option.bind_some, hvalue, hnode, Option.map_some]

/-- **A line with its value on it** has no lines of its own. -/
theorem read_scalar {v : Scalar} (hv : v ≠ .null) :
    (Outline.node line children).read = some (key, .scalar v) ↔ children = [] ∧
      ∃ tail, line.key = some (key, tail) ∧ readInline tail = some (some v) := by
  rw [read_eq_some]
  constructor
  · rintro ⟨entries, tail, value, -, hkey, hvalue, hnode⟩
    cases value with
    | some v' =>
      rw [valueOf] at hnode
      split_ifs at hnode with hempty
      obtain rfl : v' = v := Node.scalar.inj (Option.some.inj hnode)
      exact ⟨List.isEmpty_iff.mp hempty, tail, hkey, hvalue⟩
    | none =>
      rw [valueOf] at hnode
      split_ifs at hnode
      · exact absurd (Node.scalar.inj (Option.some.inj hnode)).symm hv
      · obtain ⟨_, -, hnode⟩ := Option.map_eq_some_iff.mp hnode
        cases hnode
  · rintro ⟨rfl, tail, hkey, hvalue⟩
    exact ⟨[], tail, some v, rfl, hkey, hvalue, rfl⟩

/-- **A line with a mapping below it** has no value on it. -/
theorem read_mapping : (Outline.node line children).read = some (key, .mapping entries) ↔
    children ≠ [] ∧ readAll children = some entries ∧ block children entries = some entries ∧
      ∃ tail, line.key = some (key, tail) ∧ readInline tail = some none := by
  rw [read_eq_some]
  constructor
  · rintro ⟨entries', tail, value, hentries, hkey, hvalue, hnode⟩
    cases value with
    | some v =>
      rw [valueOf] at hnode
      split_ifs at hnode
      cases Option.some.inj hnode
    | none =>
      rw [valueOf] at hnode
      split_ifs at hnode with hempty
      · cases Option.some.inj hnode
      · obtain ⟨entries'', hblock, hnode⟩ := Option.map_eq_some_iff.mp hnode
        obtain rfl : entries'' = entries := Node.mapping.inj hnode
        obtain ⟨rfl, hblock⟩ := block_eq_some.mp hblock
        exact ⟨fun h => hempty (List.isEmpty_iff.mpr h), hentries,
          block_eq_some.mpr ⟨rfl, hblock⟩, tail, hkey, hvalue⟩
  · rintro ⟨hne, hentries, hblock, tail, hkey, hvalue⟩
    refine ⟨entries, tail, none, hentries, hkey, hvalue, ?_⟩
    rw [valueOf, if_neg (by simpa using hne), hblock]
    rfl

/-- **What a document is read as.** -/
theorem loadWith_eq_some {k : Keep} {text : String} : loadWith k text = some entries ↔
    readAll (outlineOf k text.toList) = some entries ∧ Printable text.toList ∧
      text.toList.head? ≠ some byteOrderMark ∧ outlineOf k text.toList ≠ [] ∧
      ((outlineOf k text.toList).map Outline.indent).IsChain (· = ·) ∧
      (entries.map Prod.fst).Nodup := by
  rw [loadWith]
  constructor
  · intro h
    split_ifs at h with hc
    obtain ⟨hprint, hmark, hne⟩ := hc
    obtain ⟨entries', hread, hblock⟩ := Option.bind_eq_some_iff.mp h
    obtain ⟨rfl, hchain, hnodup⟩ := block_eq_some.mp hblock
    exact ⟨hread, hprint, hmark, fun h => by simp [h] at hne, hchain, hnodup⟩
  · rintro ⟨hread, hprint, hmark, hne, hchain, hnodup⟩
    rw [if_pos ⟨hprint, hmark, by simpa using hne⟩, hread]
    exact block_eq_some.mpr ⟨rfl, hchain, hnodup⟩

end Read

/-! ## Lines with a value -/

section Value

variable {k : Keep} {i : ℕ} {key w t : List Char} {key' v : Scalar} {s : List Char}
  {children : List Outline}

/-- Where nothing at the head of a list is taken, nothing is. -/
theorem split_at_head {trees : List Outline} (h : ∀ tree ∈ trees.head?, tree.indent ≤ i) {m : ℕ}
    (hm : i ≤ m) : trees.takeWhile (fun tree => m < tree.indent) = [] ∧
      trees.dropWhile (fun tree => m < tree.indent) = trees := by
  cases trees with
  | nil => exact ⟨rfl, rfl⟩
  | cons tree trees =>
    have hle : tree.indent ≤ m := (h tree rfl).trans hm
    exact ⟨List.takeWhile_cons_of_neg (by simpa using hle),
      List.dropWhile_cons_of_neg (by simpa using hle)⟩

theorem dropWhile_eq_self {α : Type} {p : α → Bool} {l : List α} (h : l.takeWhile p = []) :
    l.dropWhile p = l := by
  have hsplit := List.takeWhile_append_dropWhile (p := p) (l := l)
  rwa [h, List.nil_append] at hsplit

/-- What is on the line of a value, of it and of what comes after it. -/
def valueRest (k : Keep) (i : ℕ) (key w t : List Char) : List Char :=
  lineRest k (lineStart i key) (w ++ '\n' :: t)

/-- The value is what is on its line. -/
def Whole (k : Keep) (i : ℕ) (key w t : List Char) : Prop := valueRest k i key w t = w

/-- **A value is what is on its line**, or less of it is, where the newline after it ends the line.
-/
theorem whole_or_shorter (hstop : k.keeps (lineStart i key ++ w) '\n' t = false) :
    Whole k i key w t ∨ (valueRest k i key w t).length < w.length := by
  refine (whole_or_cut hstop).imp_right ?_
  rintro ⟨b, r, -, heq⟩
  have hlength := congrArg List.length heq
  rw [List.length_append, List.length_cons] at hlength
  rw [valueRest]
  omega

/-- A key that may be written `i` spaces into a line. -/
structure Writable (i : ℕ) (key : List Char) : Prop where
  text : KeyText key
  unbroken : Unbroken key
  marker : 0 < i ∨ key.head? ≠ some '-' ∧ key.head? ≠ some '.'

namespace Writable

theorem visible (h : Writable i key) (tail : List Char) : Visible (key ++ ':' :: tail) := by
  obtain ⟨c, cs, heq, hhead⟩ := head_of_startsPlain h.text.starts
  cases key with
  | nil =>
    obtain ⟨rfl, -⟩ := List.cons.inj heq
    exact ⟨':', tail, rfl, by decide, by decide⟩
  | cons d key =>
    obtain ⟨rfl, -⟩ := List.cons.inj heq
    exact ⟨d, _, rfl, hhead ' ' (by simp), hhead '#' (by simp)⟩

/-- The key of a line is the one that was written. -/
theorem key_line (h : Writable i key) {tail : List Char} (htail : blankNext tail = true) :
    (Line.mk i (key ++ ':' :: tail)).key = some (.str (String.ofList key), tail) := by
  have hmarker : (Line.mk i (key ++ ':' :: tail)).isMarker = false := by
    rw [← Bool.not_eq_true]
    intro hmarker
    simp only [Line.isMarker, Bool.and_eq_true, decide_eq_true_eq, Bool.or_eq_true] at hmarker
    obtain ⟨⟨rfl, hthree⟩, -⟩ := hmarker
    obtain ⟨hdash, hdot⟩ := h.marker.resolve_left (by simp)
    cases key with
    | nil => simp at hthree
    | cons c key =>
      rcases hthree with hthree | hthree
      · exact hdash (congrArg List.head? hthree)
      · exact hdot (congrArg List.head? hthree)
  rw [Line.key, hmarker, if_neg (by simp)]
  exact h.text.readKey htail

/-- **A line that is written with a value** is that value's, where it has no others below it. -/
theorem read_value_iff (h : Writable i key) (hv : v ≠ .null) :
    (Outline.node ⟨i, key ++ ':' :: ' ' :: w⟩ children).read = some (key', .scalar v) ↔
      children = [] ∧ key' = .str (String.ofList key) ∧ readInline (' ' :: w) = some (some v) := by
  rw [read_scalar hv, h.key_line (show blankNext (' ' :: w) = true from rfl)]
  refine and_congr_right fun _ => ⟨?_, ?_⟩
  · rintro ⟨tail, heq, hvalue⟩
    obtain ⟨rfl, rfl⟩ := Prod.mk.inj (Option.some.inj heq)
    exact ⟨rfl, hvalue⟩
  · rintro ⟨rfl, hvalue⟩
    exact ⟨_, rfl, hvalue⟩

/-- **A line that is written with nothing after its key** is that of the mapping below it. -/
theorem read_block_iff (h : Writable i key) {entries : List (Scalar × Node)} :
    (Outline.node ⟨i, key ++ [':']⟩ children).read = some (key', .mapping entries) ↔
      children ≠ [] ∧ readAll children = some entries ∧ block children entries = some entries ∧
        key' = .str (String.ofList key) := by
  rw [read_mapping, h.key_line (show blankNext [] = true from rfl)]
  refine and_congr_right fun _ => and_congr_right fun _ => and_congr_right fun _ => ⟨?_, ?_⟩
  · rintro ⟨tail, heq, -⟩
    exact (Prod.mk.inj (Option.some.inj heq)).1.symm
  · rintro rfl
    exact ⟨[], rfl, rfl⟩

theorem unbroken_start (h : Writable i key) : Unbroken (lineStart i key) :=
  unbroken_append.mpr ⟨unbroken_pad i, unbroken_append.mpr ⟨h.unbroken, by decide⟩⟩

theorem splitLines_value (h : Writable i key) (w t : List Char) :
    splitLines k [] (valueLine i key w t) = splitLines k (lineStart i key) (w ++ '\n' :: t) := by
  rw [valueLine_eq, splitLines_append h.unbroken_start, List.nil_append]

/-- A value of one line is what is on its line. -/
theorem whole_of_unbroken (h : Writable i key) (hw : Unbroken w) : Whole k i key w t := by
  refine (whole_or_cut (k.newline _ _ ?_)).resolve_right ?_
  · exact (unbroken_append.mpr ⟨h.unbroken_start, hw⟩).getLast
  · rintro ⟨b, r, hb, heq⟩
    rw [hw b (by rw [heq]; simp)] at hb
    cases hb

theorem documentLines_value (h : Writable i key) (hw : Whole k i key w t) :
    documentLines k (valueLine i key w t) = ⟨i, key ++ ':' :: ' ' :: w⟩ :: documentLines k t := by
  rw [documentLines, h.splitLines_value, splitLines_of_lineRest hw, lineStart_append,
    contentLines_cons (h.visible _)]
  rfl

theorem documentLines_block (h : Writable i key) (t : List Char) :
    documentLines k (blockLine i key t) = ⟨i, key ++ [':']⟩ :: documentLines k t :=
  documentLines_line (unbroken_append.mpr ⟨h.unbroken, by decide⟩) (h.visible _) t

/-- The outline of a text that begins with a written line. -/
theorem outlineOf_value (h : Writable i key) (hw : Whole k i key w t) :
    outlineOf k (valueLine i key w t) = grow ⟨i, key ++ ':' :: ' ' :: w⟩ (outlineOf k t) := by
  rw [outlineOf, h.documentLines_value hw]
  rfl

theorem outlineOf_block (h : Writable i key) (t : List Char) :
    outlineOf k (blockLine i key t) = grow ⟨i, key ++ [':']⟩ (outlineOf k t) := by
  rw [outlineOf, h.documentLines_block]
  rfl

/-- Whatever the value is, the document begins with what is on its line… -/
theorem exists_documentLines_value (h : Writable i key) (w t : List Char) : ∃ lines,
    documentLines k (valueLine i key w t) =
      ⟨i, key ++ ':' :: ' ' :: valueRest k i key w t⟩ :: lines := by
  obtain ⟨rest, hrest⟩ := exists_splitLines k (lineStart i key) (w ++ '\n' :: t)
  refine ⟨contentLines rest, ?_⟩
  rw [documentLines, h.splitLines_value, hrest, lineStart_append, contentLines_cons (h.visible _)]
  rfl

/-- …and so does its outline. -/
theorem exists_outlineOf (h : Writable i key) (w t : List Char) : ∃ lines,
    outlineOf k (valueLine i key w t) =
      grow ⟨i, key ++ ':' :: ' ' :: valueRest k i key w t⟩ (outline lines) := by
  obtain ⟨lines, hlines⟩ := h.exists_documentLines_value (k := k) w t
  exact ⟨lines, congrArg outline hlines⟩

/-- The outline begins that far in. -/
theorem head_outlineOf (h : Writable i key) (w t : List Char) :
    ∀ tree ∈ (outlineOf k (valueLine i key w t)).head?, tree.indent = i := by
  obtain ⟨lines, hlines⟩ := h.exists_outlineOf (k := k) w t
  intro tree htree
  rw [hlines] at htree
  obtain rfl := Option.some.inj htree
  rfl

theorem head_outlineOf_block (h : Writable i key) (t : List Char) :
    ∀ tree ∈ (outlineOf k (blockLine i key t)).head?, tree.indent = i := by
  intro tree htree
  rw [h.outlineOf_block] at htree
  obtain rfl := Option.some.inj htree
  rfl

/-- **A written line has no lines of its own** where the next one is not deeper. -/
theorem outlineOf_cons (h : Writable i key) (hw : Whole k i key w t)
    (hhead : ∀ tree ∈ (outlineOf k t).head?, tree.indent ≤ i) :
    outlineOf k (valueLine i key w t) =
      .node ⟨i, key ++ ':' :: ' ' :: w⟩ [] :: outlineOf k t := by
  obtain ⟨hnone, hall⟩ := split_at_head hhead le_rfl
  rw [h.outlineOf_value hw, grow, hnone, hall]

/-- **A line that was read with its value**: what is on the line was, and where that is the value,
the lines after it are read on. -/
theorem read_on (h : Writable i key) (hv : v ≠ .null) {p : Outline → Bool}
    (hp : ∀ tree : Outline, tree.indent = i → p tree = true) {entries : List (Scalar × Node)}
    (hread : readAll ((outlineOf k (valueLine i key w t)).takeWhile p) =
      some ((key', .scalar v) :: entries)) :
    readInline (' ' :: valueRest k i key w t) = some (some v) ∧ (Whole k i key w t →
      outlineOf k (valueLine i key w t) = .node ⟨i, key ++ ':' :: ' ' :: w⟩ [] :: outlineOf k t ∧
        readAll ((outlineOf k t).takeWhile p) = some entries) := by
  obtain ⟨lines, hlines⟩ := h.exists_outlineOf (k := k) w t
  have hfirst := hread
  rw [hlines, grow, List.takeWhile_cons_of_pos (hp _ rfl), readAll_cons, h.read_value_iff hv]
    at hfirst
  obtain ⟨⟨-, -, hvalue⟩, -⟩ := hfirst
  refine ⟨hvalue, fun hw => ?_⟩
  rw [h.outlineOf_value hw, grow, List.takeWhile_cons_of_pos (hp _ rfl), readAll_cons,
    h.read_value_iff hv] at hread
  obtain ⟨⟨hnone, -, -⟩, hrest⟩ := hread
  have hall := dropWhile_eq_self hnone
  rw [hall] at hrest
  rw [h.outlineOf_value hw, grow, hnone, hall]
  exact ⟨rfl, hrest⟩

end Writable

/-! ### Lines with a value, one after the other -/

/-- A line with a value: its key, what is written, and what is meant. -/
structure Entry where
  key : List Char
  written : List Char
  value : Scalar

/-- The entry of a mapping that is meant. -/
def Entry.pair (e : Entry) : Scalar × Node := (.str (String.ofList e.key), .scalar e.value)

/-- The outline of the line. -/
def Entry.tree (i : ℕ) (e : Entry) : Outline := .node ⟨i, e.key ++ ':' :: ' ' :: e.written⟩ []

/-- The lines of the entries, and what comes after them. -/
def writeEntries (i : ℕ) (es : List Entry) (t : List Char) : List Char :=
  es.foldr (fun e t => valueLine i e.key e.written t) t

theorem printable_writeEntries {es : List Entry} : Printable (writeEntries i es t) ↔
    (∀ e ∈ es, Printable e.key ∧ Printable e.written) ∧ Printable t := by
  induction es with
  | nil => simp [writeEntries]
  | cons e es ih =>
    change Printable (valueLine i e.key e.written (writeEntries i es t)) ↔ _
    rw [printable_valueLine, ih, List.forall_mem_cons, and_assoc, and_assoc]

theorem blankNext_writeEntries {es : List Entry} (hi : 0 < i) (ht : blankNext t = true) :
    blankNext (writeEntries i es t) = true := by
  cases es with
  | nil => exact ht
  | cons e es =>
    obtain ⟨j, rfl⟩ := Nat.exists_eq_succ_of_ne_zero hi.ne'
    rfl

theorem head_writeEntries {es : List Entry} (hes : ∀ e ∈ es, Writable i e.key)
    (hhead : ∀ tree ∈ (outlineOf k t).head?, tree.indent ≤ i) :
    ∀ tree ∈ (outlineOf k (writeEntries i es t)).head?, tree.indent ≤ i := by
  cases es with
  | nil => exact hhead
  | cons e es =>
    exact fun tree htree => ((hes e (by simp)).head_outlineOf e.written _ tree htree).le

/-- **The outline of entries that are what is on their lines.** -/
theorem outlineOf_writeEntries {es : List Entry} (hi : 0 < i) (ht : blankNext t = true)
    (hes : ∀ e ∈ es, Writable i e.key ∧ ∀ t, blankNext t = true → Whole k i e.key e.written t)
    (hhead : ∀ tree ∈ (outlineOf k t).head?, tree.indent ≤ i) :
    outlineOf k (writeEntries i es t) = es.map (Entry.tree i) ++ outlineOf k t := by
  induction es with
  | nil => rfl
  | cons e es ih =>
    obtain ⟨⟨hkey, hw⟩, hes⟩ := List.forall_mem_cons.mp hes
    change outlineOf k (valueLine i e.key e.written (writeEntries i es t)) = _
    rw [hkey.outlineOf_cons (hw _ (blankNext_writeEntries hi ht))
      (head_writeEntries (fun e he => (hes e he).1) hhead), ih hes]
    rfl

/-- **They are read as they are meant.** -/
theorem readAll_trees {es : List Entry} (hes : ∀ e ∈ es, Writable i e.key ∧ e.value ≠ .null ∧
    readInline (' ' :: e.written) = some (some e.value)) :
    readAll (es.map (Entry.tree i)) = some (es.map Entry.pair) := by
  induction es with
  | nil => rfl
  | cons e es ih =>
    obtain ⟨⟨hkey, hv, hread⟩, hes⟩ := List.forall_mem_cons.mp hes
    exact readAll_cons.mpr ⟨(hkey.read_value_iff hv).mpr ⟨rfl, rfl, hread⟩, ih hes⟩

/-- **Entries that were read as they are meant**: what is on the line of each was, and where it
tells that this is the value, the lines after it are read on. -/
theorem writeEntries_read_on {es : List Entry} (hi : 0 < i) (ht : blankNext t = true)
    (hes : ∀ e ∈ es, Writable i e.key ∧ e.value ≠ .null ∧ ∀ t, blankNext t = true →
      readInline (' ' :: valueRest k i e.key e.written t) = some (some e.value) →
        Whole k i e.key e.written t)
    {p : Outline → Bool} (hp : ∀ tree : Outline, tree.indent = i → p tree = true)
    {entries : List (Scalar × Node)}
    (hread : readAll ((outlineOf k (writeEntries i es t)).takeWhile p) =
      some (es.map Entry.pair ++ entries)) :
    (∀ e ∈ es, ∃ t, blankNext t = true ∧ Whole k i e.key e.written t ∧
        readInline (' ' :: valueRest k i e.key e.written t) = some (some e.value)) ∧
      readAll ((outlineOf k t).takeWhile p) = some entries ∧
      (outlineOf k (writeEntries i es t)).dropWhile p = (outlineOf k t).dropWhile p := by
  induction es with
  | nil => exact ⟨by simp, hread, rfl⟩
  | cons e es ih =>
    obtain ⟨⟨hkey, hv, hone⟩, hes⟩ := List.forall_mem_cons.mp hes
    obtain ⟨hvalue, hon⟩ := hkey.read_on hv hp (t := writeEntries i es t) hread
    have hblank : blankNext (writeEntries i es t) = true := blankNext_writeEntries hi ht
    have hwhole := hone _ hblank hvalue
    obtain ⟨houtline, hrest⟩ := hon hwhole
    obtain ⟨hvalues, hread', hdrop⟩ := ih hes hrest
    refine ⟨List.forall_mem_cons.mpr ⟨⟨_, hblank, hwhole, hvalue⟩, hvalues⟩, hread', ?_⟩
    change (outlineOf k (valueLine i e.key e.written (writeEntries i es t))).dropWhile p = _
    rw [houtline, List.dropWhile_cons_of_pos (hp _ rfl), hdrop]

/-! ## Values that go on over breaks -/

/-- A line that goes on over a break of a text. -/
theorem exists_kept {line : List Char} (hbroken : ¬ Unbroken w)
    (hlong : w.length ≤ (lineRest k line (w ++ t)).length) :
    ∃ a b r rest, w = a ++ b :: r ∧ k.keeps (line ++ a) b rest = true := by
  induction w generalizing line with
  | nil => exact absurd (by decide) hbroken
  | cons c w ih =>
    rw [List.cons_append, lineRest] at hlong
    split_ifs at hlong with hends
    · simp at hlong
    · cases hc : isBreak c with
      | true =>
        rw [hc, Bool.true_and, Bool.not_eq_true, Bool.not_eq_false'] at hends
        exact ⟨[], c, w, w ++ t, rfl, by rwa [List.append_nil]⟩
      | false =>
        obtain ⟨a, b, r, rest, rfl, hkept⟩ :=
          ih (fun hw => hbroken (unbroken_cons.mpr ⟨hc, hw⟩)) (by simpa using hlong)
        exact ⟨c :: a, b, r, rest, rfl, by rwa [List.append_cons line c a]⟩

theorem isOpen_of_keeps {line rest : List Char} {b : Char}
    (h : Keep.quoted.keeps line b rest = true) : isOpen line = true :=
  ((Bool.and_eq_true _ _).mp h).2

/-- **A line is open after its key** where a quote was, and would close what comes after it. -/
theorem Writable.isOpen_iff (h : Writable i key) : isOpen (lineStart i key ++ w) = true ↔
    ∃ u x, w.dropWhile (· = ' ') = doubleQuote :: u ∧
      scanDouble .no (u ++ [doubleQuote]) = some (x, []) := by
  obtain ⟨c, cs, hline, hspace, -⟩ := h.visible (' ' :: w)
  have hcontent : (lineStart i key ++ w).dropWhile (· = ' ') = key ++ ':' :: ' ' :: w := by
    rw [lineStart_append, dropWhile_pad, hline,
      List.dropWhile_cons_of_neg (by simpa using hspace)]
  rw [isOpen, hcontent, h.text.readKey (show blankNext (' ' :: w) = true from rfl),
    Option.any_some, List.dropWhile_cons_of_pos (by decide), Bool.and_eq_true, decide_eq_true_eq]
  cases hw : w.dropWhile (· = ' ') with
  | nil => simp
  | cons d u =>
    rw [List.head?_cons, Option.some.injEq, List.cons_append]
    constructor
    · rintro ⟨rfl, hclosed⟩
      rw [scanScalar_doubleQuote, Option.any_map, Option.any_eq_true] at hclosed
      obtain ⟨⟨x, left⟩, hscan, hleft⟩ := hclosed
      obtain rfl : left = [] := List.isEmpty_iff.mp hleft
      exact ⟨u, x, rfl, hscan⟩
    · rintro ⟨u', x, heq, hscan⟩
      obtain ⟨rfl, rfl⟩ := List.cons.inj heq
      rw [scanScalar_doubleQuote, hscan]
      exact ⟨rfl, rfl⟩

/-- A plain text does not open a line. -/
theorem Writable.unbroken_of_plain (h : Writable i key) (hs : startsPlain s = true)
    (hlong : s.length ≤ (valueRest .quoted i key s t).length) : Unbroken s := by
  by_contra hbroken
  obtain ⟨a, b, r, rest, heq, hkept⟩ := exists_kept hbroken hlong
  obtain ⟨u, x, hquote, -⟩ := h.isOpen_iff.mp (isOpen_of_keeps hkept)
  obtain ⟨c, cs, rfl, hhead⟩ := head_of_startsPlain hs
  cases a with
  | nil => cases hquote
  | cons d a =>
    obtain ⟨rfl, -⟩ := List.cons.inj heq
    rw [List.dropWhile_cons_of_neg (by simpa using hhead ' ' (by simp))] at hquote
    exact hhead doubleQuote (by simp) (List.cons.inj hquote).1

/-- A value is not what is read from it and a line more. -/
theorem not_readInline_newline {u : List Char} (hdouble : doubleQuote ∉ u)
    (hsingle : singleQuote ∉ u) :
    readInline (' ' :: (s ++ '\n' :: u)) ≠ some (some (.str (String.ofList s))) := by
  intro h
  obtain ⟨-, text, left, hscan, hends, hs⟩ := readInline_eq_some.mp h
  obtain rfl := eq_of_scalarOf hs rfl
  have hnewline : lineEnds ('\n' :: u) = false := by
    rw [lineEnds, List.dropWhile_cons_of_neg (by decide)]
    rfl
  have hopens : Opens ('\n' :: u) := ⟨'\n', u, rfl, by decide⟩
  have hcut : CutWords ('\n' :: u) ('\n' :: u) := by
    refine ⟨hopens, hopens, ?_, ?_⟩
    · rw [List.mem_cons, not_or]
      exact ⟨by decide, hdouble⟩
    · rw [List.mem_cons, not_or]
      exact ⟨by decide, hsingle⟩
  rw [List.dropWhile_cons_of_pos (by decide), List.dropWhile_append] at hscan
  cases hdrop : text.1.dropWhile (· = ' ') with
  | nil =>
    -- The text is spaces, and what is read begins with the newline.
    have hstart : startsPlain ('\n' :: u) = true := by
      simp [startsPlain, isBlank, show '\n' ∉ indicators by decide]
    rw [hdrop, List.isEmpty_nil, if_pos rfl, hopens.dropWhile, scanScalar, if_neg (by decide),
      if_neg (by decide), if_pos hstart] at hscan
    obtain ⟨rfl, -⟩ := Prod.mk.inj (Option.some.inj hscan)
    dsimp only at hdrop
    rw [scanPlain, hopens.plainStops, if_neg (by simp),
      List.dropWhile_cons_of_neg (by decide)] at hdrop
    cases hdrop
  | cons c s' =>
    have hspace : c ≠ ' ' := by
      rintro rfl
      exact absurd (List.head?_dropWhile_not (fun c => decide (c = ' ')) text.1)
        (by rw [hdrop]; simp)
    have hlength := length_dropWhile_le (· = ' ') text.1
    rw [hdrop] at hlength
    rw [hdrop, if_neg (by simp)] at hscan
    rcases scanScalar_append_word (by simp) hcut hscan with ⟨left', rfl, -⟩ | rfl
    · -- The text is as long as what was scanned of it: the newline is left.
      have hscanned := length_of_scanScalar hscan
      simp only [List.length_append] at hscanned
      obtain rfl : left' = [] := List.length_eq_zero_iff.mp (by omega)
      rw [List.nil_append, hnewline] at hends
      cases hends
    · -- The scalar is the text and more.
      dsimp only at hdrop
      rw [List.cons_append, List.dropWhile_cons_of_neg (by simpa using hspace)] at hdrop
      have hmore := congrArg List.length hdrop
      rw [scanPlain, hopens.plainStops, if_neg (by simp)] at hmore
      simp at hmore

/-- Nothing of a value is there any more: a blank comes, or a line that no quote is in. -/
def Apart (t : List Char) : Prop :=
  blankNext t = true ∨ ∃ u t', t = u ++ '\n' :: t' ∧ u ≠ [] ∧ Unbroken u ∧ doubleQuote ∉ u ∧
    singleQuote ∉ u

/-- **What is on the line of a value** is the value, or less of it, or a line more. -/
theorem valueRest_cases (ht : Apart t) : Whole .quoted i key w t ∨
    (valueRest .quoted i key w t).length < w.length ∨
      ∃ u, doubleQuote ∉ u ∧ singleQuote ∉ u ∧ valueRest .quoted i key w t = w ++ '\n' :: u := by
  rcases ht with hblank | ⟨u, t', rfl, hne, hu, hdouble, hsingle⟩
  · refine (whole_or_shorter ?_).imp_right .inl
    simp [Keep.quoted, standsForItself, hblank]
  · have hlast : ∀ c ∈ (lineStart i key ++ (w ++ '\n' :: u)).getLast?, isBreak c = false := by
      have hsplit : lineStart i key ++ (w ++ '\n' :: u) = lineStart i key ++ w ++ ['\n'] ++ u := by
        simp
      rw [hsplit, List.getLast?_append_of_ne_nil _ hne]
      exact hu.getLast
    have hline := whole_or_cut (w := w ++ '\n' :: u) (t := t')
      (Keep.quoted.newline (lineStart i key ++ (w ++ '\n' :: u)) t' hlast)
    rw [List.append_assoc, List.cons_append, ← valueRest] at hline
    rcases hline with hall | ⟨b, r, hb, heq⟩
    · exact .inr (.inr ⟨u, hdouble, hsingle, hall⟩)
    · -- The break is in the value, or is the newline after it.
      rcases List.append_eq_append_iff.mp heq with ⟨x, hx, hrest⟩ | ⟨x, hx, hrest⟩
      · cases x with
        | nil => exact .inl (by rw [Whole, hx, List.append_nil])
        | cons c x =>
          obtain ⟨-, hrest⟩ := List.cons.inj hrest
          rw [hu b (by rw [hrest]; simp)] at hb
          cases hb
      · cases x with
        | nil => exact .inl (by rw [Whole]; simpa using hx.symm)
        | cons c x =>
          have hlength := congrArg List.length hx
          rw [List.length_append, List.length_cons] at hlength
          exact .inr (.inl (by omega))

/-- **A plain value that was read as it stands** is one. -/
theorem Writable.plain_of_valueRest (h : Writable i key) (ht : Apart t)
    (hread : readInline (' ' :: valueRest .quoted i key s t) =
      some (some (.str (String.ofList s)))) :
    Whole .quoted i key s t ∧ Unbroken s ∧ PlainText s := by
  rcases valueRest_cases ht with hwhole | hshort | ⟨u, hdouble, hsingle, hmore⟩
  · have hplain := readInline_plain_iff.mp (by rwa [hwhole] at hread)
    exact ⟨hwhole, h.unbroken_of_plain hplain.starts (by rw [hwhole]), hplain⟩
  · have hlength := (length_of_readInline hread).trans_eq
      (congrArg List.length (List.dropWhile_cons_of_pos (by decide)))
    have hdrop := length_dropWhile_le (· = ' ') (valueRest .quoted i key s t)
    omega
  · rw [hmore] at hread
    exact absurd hread (not_readInline_newline hdouble hsingle)

/-! ### Values in double quotes -/

/-- Each break of a text stands for itself, where `line` comes before the text. -/
def breaksStand (line : List Char) : List Char → Bool
  | [] => true
  | c :: cs => (!isBreak c || standsForItself line c cs) && breaksStand (line ++ [c]) cs

/-- Whether a break stands for itself is told by the character before it, and by what comes after it
up to a quote. -/
theorem standsForItself_congr {line line' : List Char} {c : Char}
    (hline : line.getLast? = line'.getLast?) (s r : List Char) :
    standsForItself line c (s ++ doubleQuote :: r) =
      standsForItself line' c (s ++ [doubleQuote]) := by
  have hblank : blankNext (s ++ doubleQuote :: r) = blankNext (s ++ [doubleQuote]) := by
    cases s <;> rfl
  have hmarker : startsMarker (s ++ doubleQuote :: r) = startsMarker (s ++ [doubleQuote]) := by
    rcases s with _ | ⟨a, _ | ⟨b, _ | ⟨d, s⟩⟩⟩
    · simp [startsMarker, doubleQuote]
    · simp [startsMarker, doubleQuote]
    · simp [startsMarker, doubleQuote]
    · cases s <;> rfl
  rw [standsForItself, standsForItself, hline, hblank, hmarker]

/-- A text that no quote or escape is in opens a line after a quote. -/
theorem Writable.isOpen_quote (h : Writable i key) (hs : QuotedText s) :
    isOpen (lineStart i key ++ doubleQuote :: s) = true := by
  refine h.isOpen_iff.mpr ⟨s, s, List.dropWhile_cons_of_neg (by decide), ?_⟩
  exact scanDouble_append_quote.mpr ⟨hs.quote, hs.escape⟩

/-- **A quoted text is what is on its line** where each break in it stands for itself. -/
theorem Writable.whole_quoted_iff (h : Writable i key) (hs : QuotedText s) (t : List Char) :
    Whole .quoted i key (doubleQuote :: (s ++ [doubleQuote])) t ↔
      breaksStand [doubleQuote] (s ++ [doubleQuote]) = true := by
  have hquote : isBreak doubleQuote = false := by decide
  -- Where the text up to there is on the line, the rest of it is where its breaks stand.
  have hrest : ∀ b a, s = a ++ b →
      (lineRest .quoted (lineStart i key ++ doubleQuote :: a) (b ++ doubleQuote :: '\n' :: t) =
        b ++ [doubleQuote] ↔ breaksStand (doubleQuote :: a) (b ++ [doubleQuote]) = true) := by
    intro b
    induction b with
    | nil =>
      intro a _
      have hends : Keep.quoted.keeps (lineStart i key ++ doubleQuote :: a ++ [doubleQuote]) '\n' t =
          false := by
        refine Keep.quoted.newline _ _ fun c hc => ?_
        rw [List.getLast?_concat] at hc
        obtain rfl := Option.some.inj hc
        exact hquote
      refine iff_of_true ?_ ?_
      · rw [List.nil_append, lineRest, if_neg (by rw [hquote]; simp), lineRest,
          if_pos (by rw [hends]; decide), List.nil_append]
      · simp [breaksStand, hquote]
    | cons c b ih =>
      rintro a rfl
      have ha : QuotedText a := ⟨fun hc => hs.quote (List.mem_append_left _ hc),
        fun hc => hs.escape (List.mem_append_left _ hc)⟩
      have hkeeps : Keep.quoted.keeps (lineStart i key ++ doubleQuote :: a) c
          (b ++ doubleQuote :: '\n' :: t) =
            standsForItself (doubleQuote :: a) c (b ++ [doubleQuote]) := by
        refine Eq.trans (congrArg₂ (· && ·)
          (standsForItself_congr (List.getLast?_append_cons _ _ _) b ('\n' :: t))
          (h.isOpen_quote ha)) (Bool.and_true _)
      have hnext := ih (a ++ [c]) (by simp)
      have hline : lineStart i key ++ doubleQuote :: (a ++ [c]) =
          lineStart i key ++ doubleQuote :: a ++ [c] := by simp
      rw [hline] at hnext
      rw [List.cons_append, List.cons_append, lineRest, hkeeps, breaksStand]
      cases hbreak : isBreak c && !standsForItself (doubleQuote :: a) c (b ++ [doubleQuote]) with
      | true =>
        rw [Bool.and_eq_true, Bool.not_eq_true'] at hbreak
        refine iff_of_false (by simp) ?_
        simp [hbreak.1, hbreak.2]
      | false =>
        have hstands : (!isBreak c || standsForItself (doubleQuote :: a) c (b ++ [doubleQuote])) =
            true := by
          rw [← Bool.not_eq_false', Bool.not_or, Bool.not_not, hbreak]
        rw [if_neg (by simp), List.cons.injEq, and_iff_right rfl, hstands, Bool.true_and]
        exact hnext
  have hall := hrest s [] rfl
  rw [Whole, valueRest, List.cons_append, lineRest, if_neg (by rw [hquote]; simp),
    List.cons.injEq, and_iff_right rfl, List.append_assoc]
  exact hall

/-- **A quoted value that was read as it stands** is one. -/
theorem quoted_of_valueRest
    (hread : readInline (' ' :: valueRest .quoted i key (doubleQuote :: (s ++ [doubleQuote])) t) =
      some (some (.str (String.ofList s)))) :
    Whole .quoted i key (doubleQuote :: (s ++ [doubleQuote])) t ∧ QuotedText s := by
  have hquote : isBreak doubleQuote = false := by decide
  have hstop : Keep.quoted.keeps (lineStart i key ++ doubleQuote :: (s ++ [doubleQuote])) '\n' t =
      false := by
    refine Keep.quoted.newline _ _ fun c hc => ?_
    rw [← List.cons_append, ← List.append_assoc, List.getLast?_concat] at hc
    obtain rfl := Option.some.inj hc
    exact hquote
  rcases whole_or_shorter hstop with hwhole | hshort
  · exact ⟨hwhole, readInline_quoted_iff.mp (by rwa [hwhole] at hread)⟩
  · have hfirst : ∃ cs, valueRest .quoted i key (doubleQuote :: (s ++ [doubleQuote])) t =
        doubleQuote :: cs := by
      rw [valueRest, List.cons_append, lineRest, if_neg (by rw [hquote]; simp)]
      exact ⟨_, rfl⟩
    obtain ⟨cs, hcs⟩ := hfirst
    rw [hcs] at hread hshort
    have hlength := length_of_readInline_quoted hread
    simp only [List.length_cons, List.length_append, List.length_nil] at hshort
    omega

/-! ## Lines with a key that is not known -/

/-- Within a key, a line is not open: a blank comes after a colon where a value begins. -/
theorem KeyText.not_isOpen {a : List Char} (hs : KeyText s) (ha : a <+: s) (i : ℕ) :
    isOpen (pad i ++ a) = false := by
  rw [← Bool.not_eq_true, isOpen, dropWhile_pad, Option.any_eq_true]
  rintro ⟨⟨v, tail⟩, hkey, hvalue⟩
  obtain ⟨z, rfl⟩ := ha
  cases a with
  | nil => cases hkey
  | cons c a =>
    obtain ⟨d, ds, heq, hhead⟩ := head_of_startsPlain hs.starts
    obtain ⟨rfl, -⟩ := List.cons.inj heq
    rw [List.dropWhile_cons_of_neg (by simpa using hhead ' ' (by simp))] at hkey
    obtain ⟨text, left, hscan, hleft, hblank, -, -⟩ := readKey_eq_some.mp hkey
    rw [scanScalar, if_neg (hhead _ (by simp)), if_neg (hhead _ (by simp))] at hscan
    split_ifs at hscan
    obtain ⟨-, rfl⟩ := Prod.mk.inj (Option.some.inj hscan)
    rw [Bool.and_eq_true, decide_eq_true_eq] at hvalue
    obtain ⟨tail', rfl⟩ : ∃ tail', tail = ' ' :: tail' := by
      cases tail with
      | nil => cases hvalue.1
      | cons b tail =>
        refine ⟨tail, congrArg (· :: tail) ?_⟩
        by_contra hb
        have htab : b = '\t' := by simpa [blankNext, isBlank, hb] using hblank
        have hfirst := hvalue.1
        rw [htab, List.dropWhile_cons_of_neg (by decide)] at hfirst
        exact absurd (Option.some.inj hfirst) (by decide)
    have hsplit : c :: a ++ z = ((scanPlain (c :: a)).1 ++
        (scanPlain (c :: a)).2.takeWhile (· = ' ')) ++ ':' :: ' ' :: (tail' ++ z) := by
      rw [← List.cons_append, ← List.cons_append, ← hleft, List.append_assoc,
        ← List.append_assoc (List.takeWhile _ _), List.takeWhile_append_dropWhile,
        ← List.append_assoc, scanPlain_append]
    have hpairs := hs.settled.pairs
    rw [hsplit, List.isChain_append_cons_cons] at hpairs
    exact hpairs.2.1.1 ⟨rfl, rfl⟩

/-- **A key that was read as it stands** is one, where a line with another key comes next. -/
theorem keyText_of_readAll {j : ℕ} (h : Writable j key) {node : Node}
    {entries : List (Scalar × Node)}
    (hread : readAll (outlineOf .quoted (blockLine i s (valueLine j key w t))) =
      some ((.str (String.ofList s), node) :: entries)) : Unbroken s ∧ KeyText s := by
  obtain ⟨rest, hrest⟩ := h.exists_documentLines_value (k := .quoted) w t
  have hstop : ∀ c ∈ (pad i ++ (s ++ [':'])).getLast?, isBreak c = false := by
    intro c hc
    rw [← List.append_assoc, List.getLast?_concat] at hc
    obtain rfl := Option.some.inj hc
    decide
  obtain ⟨raws, hraws, hlengths⟩ :=
    exists_splitLines_before (k := .quoted) hstop (valueLine j key w t)
  have hlines : documentLines .quoted (blockLine i s (valueLine j key w t)) = contentLines raws ++
      ⟨j, key ++ ':' :: ' ' :: valueRest .quoted j key w t⟩ :: rest := by
    rw [documentLines, blockLine, List.append_assoc, splitLines_append (unbroken_pad i),
      List.nil_append, hraws, contentLines_append, ← hrest]
    rfl
  rw [outlineOf, hlines] at hread
  cases hown : contentLines raws with
  | nil =>
    -- There is nothing on the line: the key that was read is the next one.
    rw [hown, List.nil_append, outline, List.foldr_cons, grow, readAll_cons, read_eq_some] at hread
    obtain ⟨⟨_, tail, _, -, hkey, -, -⟩, -⟩ := hread
    rw [h.key_line (show blankNext (' ' :: valueRest .quoted j key w t) = true from rfl)] at hkey
    have hsame := String.ofList_injective
      (Scalar.str.inj (Prod.mk.inj (Option.some.inj hkey)).1)
    exact hsame ▸ ⟨h.unbroken, h.text⟩
  | cons line lines =>
    rw [hown, List.cons_append, outline, List.foldr_cons, grow, readAll_cons, read_eq_some] at hread
    obtain ⟨⟨_, tail, _, -, hkey, -, -⟩, -⟩ := hread
    have hreadKey : readKey line.content = some (.str (String.ofList s), tail) := by
      rw [Line.key] at hkey
      split_ifs at hkey
      exact hkey
    obtain ⟨raw, hraw, rfl, -⟩ := mem_contentLines.mp (hown ▸ List.mem_cons_self ..)
    change readKey (raw.dropWhile (· = ' ')) = _ at hreadKey
    have hlength := length_of_readKey hreadKey
    rcases hlengths with rfl | hshort
    · obtain rfl := List.mem_singleton.mp hraw
      rw [dropWhile_pad] at hreadKey hlength
      have hdrop := length_dropWhile_le (· = ' ') (s ++ [':'])
      rw [List.length_append, List.length_singleton] at hdrop
      have hwhole : (s ++ [':']).dropWhile (· = ' ') = s ++ [':'] :=
        (List.dropWhile_suffix _).eq_of_length_le (by
          rw [List.length_append, List.length_singleton]
          omega)
      obtain rfl : tail = [] := List.length_eq_zero_iff.mp (by omega)
      rw [hwhole] at hreadKey
      have hs := readKey_iff.mp hreadKey
      refine ⟨?_, hs⟩
      by_contra hbroken
      obtain ⟨after, hafter⟩ := exists_splitLines .quoted (pad i)
        (s ++ [':'] ++ '\n' :: valueLine j key w t)
      have hline := (List.cons.inj (hafter.symm.trans hraws)).1
      have hlong : s.length ≤ (lineRest .quoted (pad i)
          (s ++ ([':'] ++ '\n' :: valueLine j key w t))).length := by
        rw [← List.append_assoc, List.append_cancel_left hline, List.length_append]
        exact Nat.le_add_right _ _
      obtain ⟨a, b, r, _, rfl, hkept⟩ := exists_kept hbroken hlong
      have hopen := isOpen_of_keeps hkept
      rw [hs.not_isOpen (List.prefix_append _ _)] at hopen
      cases hopen
    · -- What is on the line is shorter than the key and its colon.
      obtain ⟨y, hy, heq⟩ := hshort raw hraw
      rw [List.length_append, List.length_singleton] at hy
      have hdrop := length_dropWhile_le (· = ' ') y
      rcases heq with rfl | rfl
      · rw [dropWhile_pad] at hlength
        omega
      · omega

end Value

end Yaml

end Machinery
