import CloudSpells.Machinery.Regex

/-!
# Machinery/YamlScalar — scalars of one line, as YAML reads them

A scalar is quoted, and then a string; or plain, and then what its text is resolved to: a null, a
boolean, a number, a time, or else a string.  A plain scalar ends before a colon that a blank
follows and before a comment, and loses the blanks after it.  An equals sign by itself is no string
as a value, and one as a key.

`PlainText` and `QuotedText` are the texts that are read back as they stand (`readInline_plain_iff`,
`readInline_quoted_iff`); a scalar is never longer than what it is read from
(`length_of_readInline`).
-/

namespace Machinery

namespace Yaml

open Regex RegularExpression

/-! ## Characters -/

/-- `"`. -/
def doubleQuote : Char := Char.ofNat 0x22

/-- The single quote. -/
def singleQuote : Char := Char.ofNat 0x27

/-- A space or a tab. -/
def isBlank (c : Char) : Bool := c = ' ' || c = '\t'

/-- A blank follows, or the end of the line. -/
def blankNext (cs : List Char) : Bool := cs.head?.all isBlank

/-- The characters a plain scalar does not start with, but for a dash, a question mark or a colon
that no blank follows. -/
def indicators : List Char := "-?:,[]\x7b\x7d#&*!|>\x27\x22%@\x60".toList

/-- A plain scalar starts here. -/
def startsPlain : List Char → Bool
  | [] => false
  | c :: cs => !isBlank c && (c ∉ indicators || ((c = '-' || c = '?' || c = ':') && !blankNext cs))

/-! ## What a plain scalar is resolved to -/

/-- The types of scalars that are no nulls, booleans, integers or strings. -/
inductive Tag
  | float
  | merge
  | timestamp
  | value
  deriving DecidableEq, Repr

/-- A scalar; where its type is another one, with the text it was written as. -/
inductive Scalar
  | null
  | bool (b : Bool)
  | int (z : ℤ)
  | str (s : String)
  | other (tag : Tag) (text : String)
  deriving DecidableEq, Repr

/-- A scalar as a key: the equals sign, which is no string as a value, is one there. -/
def Scalar.asKey : Scalar → Scalar
  | other .value text => str text
  | v => v

/-- A word. -/
def word (s : String) : RegularExpression Char := s.toList.foldr (fun c P => char c * P) 1

/-- One of the words. -/
def words (l : List String) : RegularExpression Char := l.foldr (fun s P => word s + P) 0

/-- `P?`. -/
def opt (P : RegularExpression Char) : RegularExpression Char := 1 + P

/-- `[-+]?`. -/
def sign : RegularExpression Char := opt (oneOf ['-', '+'])

/-- `[0-9]`. -/
def digit : RegularExpression Char := oneOf "0123456789".toList

/-- `[0-9_]*`. -/
def digits : RegularExpression Char := (oneOf "0123456789_".toList).star

/-- `(?::[0-5]?[0-9])+`. -/
def sixties : RegularExpression Char := many (char ':' * opt (oneOf "012345".toList) * digit)

/-- The booleans. -/
def BOOL : RegularExpression Char :=
  words ["yes", "Yes", "YES", "no", "No", "NO", "true", "True", "TRUE", "false", "False", "FALSE",
    "on", "On", "ON", "off", "Off", "OFF"]

/-- `(?:[eE][-+][0-9]+)?`. -/
def exponent : RegularExpression Char := opt (oneOf ['e', 'E'] * oneOf ['-', '+'] * many digit)

/-- The floats. -/
def FLOAT : RegularExpression Char :=
  sign * digit * digits * char '.' * digits * exponent + char '.' * digit * digits * exponent +
    sign * digit * digits * sixties * char '.' * (oneOf "0123456789_".toList).star +
    sign * char '.' * words ["inf", "Inf", "INF"] + char '.' * words ["nan", "NaN", "NAN"]

/-- The integers. -/
def INT : RegularExpression Char :=
  sign * (char '0' + oneOf "123456789".toList * digits) +
    sign * word "0b" * many (oneOf "01_".toList) +
    sign * char '0' * many (oneOf "01234567_".toList) +
    sign * word "0x" * many (oneOf "0123456789abcdefABCDEF_".toList) +
    sign * oneOf "123456789".toList * digits * sixties

/-- The nulls. -/
def NULL : RegularExpression Char := words ["~", "null", "Null", "NULL", ""]

/-- The times. -/
def TIMESTAMP : RegularExpression Char :=
  digit * digit * digit * digit * char '-' * digit * digit * char '-' * digit * digit +
    digit * digit * digit * digit * char '-' * digit * opt digit * char '-' * digit * opt digit *
      (oneOf ['T', 't'] + many (oneOf [' ', '\t'])) * digit * opt digit * char ':' * digit * digit *
      char ':' * digit * digit * opt (char '.' * digit.star) *
      opt ((oneOf [' ', '\t']).star *
        (char 'Z' + oneOf ['-', '+'] * digit * opt digit * opt (char ':' * digit * digit)))

/-- The value of a digit, also of a hexadecimal one. -/
def digitValue (c : Char) : ℕ :=
  if c.isDigit then c.toNat - '0'.toNat
  else if c.isLower then c.toNat - 'a'.toNat + 10 else c.toNat - 'A'.toNat + 10

/-- The number the digits are, to a base. -/
def ofDigits (base : ℕ) (ds : List Char) : ℕ :=
  ds.foldl (fun n c => base * n + digitValue c) 0

/-- The number after the sign of an integer; none where nothing but underscores came after the
prefix of a base. -/
def magnitude (ds : List Char) : Option ℕ :=
  if ds = ['0'] then some 0
  else if ds.take 2 = "0b".toList then if ds.length = 2 then none else ofDigits 2 (ds.drop 2)
  else if ds.take 2 = "0x".toList then if ds.length = 2 then none else ofDigits 16 (ds.drop 2)
  else if ds.head? = some '0' then some (ofDigits 8 ds)
  else some ((ds.splitOn ':').foldl (fun n part => 60 * n + ofDigits 10 part) 0)

/-- The integer a text of `INT` is, its underscores apart. -/
def constructInt (text : List Char) : Option ℤ :=
  let text := text.filter (· ≠ '_')
  if text.head? = some '-' then (magnitude text.tail).map fun n => -(n : ℤ)
  else if text.head? = some '+' then (magnitude text.tail).map fun n => (n : ℤ)
  else (magnitude text).map fun n => (n : ℤ)

/-- What the text of a plain scalar is resolved to. -/
def resolve (text : List Char) : Option Scalar :=
  if BOOL.rmatch text then
    some (.bool (["yes".toList, "true".toList, "on".toList].contains (text.map Char.toLower)))
  else if FLOAT.rmatch text then some (.other .float (String.ofList text))
  else if INT.rmatch text then (constructInt text).map .int
  else if text = "<<".toList then some (.other .merge "<<")
  else if NULL.rmatch text then some .null
  else if TIMESTAMP.rmatch text then some (.other .timestamp (String.ofList text))
  else if text = ['='] then some (.other .value "=")
  else some (.str (String.ofList text))

/-! ## Plain and quoted scalars -/

/-- A plain scalar stops here: at the end, at a tab, or at a colon a blank follows. -/
def plainStops : List Char → Bool
  | [] => true
  | c :: cs => c = '\t' || (c = ':' && blankNext cs)

/-- The text of a plain scalar, and what is left of the line.  Blanks belong to it where more of it
comes after them. -/
def scanPlain : List Char → List Char × List Char
  | [] => ([], [])
  | c :: cs =>
    let next := cs.dropWhile (· = ' ')
    if plainStops (c :: cs) || (c = ' ' && (plainStops next || next.head? = some '#')) then
      ([], c :: cs)
    else (c :: (scanPlain cs).1, (scanPlain cs).2)

/-- Within a double-quoted scalar: whether an escape was begun, and the digits of its code that are
still to come. -/
inductive Escape
  | no
  | begun
  | code (left value : ℕ)
  deriving DecidableEq, Repr

/-- How many digits the code of an escape has. -/
def codeLength (c : Char) : Option ℕ :=
  if c = 'x' then some 2 else if c = 'u' then some 4 else if c = 'U' then some 8 else none

/-- The escapes of one character. -/
def escapes : List (Char × Char) :=
  [('0', '\x00'), ('a', '\x07'), ('b', '\x08'), ('t', '\t'), ('\t', '\t'), ('n', '\n'),
    ('v', '\x0b'), ('f', '\x0c'), ('r', '\r'), ('e', '\x1b'), (' ', ' '),
    (doubleQuote, doubleQuote), ('\\', '\\'), ('/', '/'), ('N', Char.ofNat 0x85),
    ('_', Char.ofNat 0xa0), ('L', Char.ofNat 0x2028), ('P', Char.ofNat 0x2029)]

/-- `[0-9a-fA-F]`. -/
def isHexDigit (c : Char) : Bool := c ∈ "0123456789abcdefABCDEF".toList

/-- The text of a double-quoted scalar, and what comes after the quote that closes it. -/
def scanDouble : Escape → List Char → Option (List Char × List Char)
  | _, [] => none
  | .no, c :: cs =>
    if c = doubleQuote then some ([], cs)
    else if c = '\\' then scanDouble .begun cs
    else (scanDouble .no cs).map fun r => (c :: r.1, r.2)
  | .begun, c :: cs =>
    match codeLength c, escapes.lookup c with
    | some n, _ => scanDouble (.code n 0) cs
    | none, some d => (scanDouble .no cs).map fun r => (d :: r.1, r.2)
    | none, none => none
  | .code left value, c :: cs =>
    if !isHexDigit c then none
    else if left ≤ 1 then
      if (16 * value + digitValue c).isValidChar then
        (scanDouble .no cs).map fun r => (Char.ofNat (16 * value + digitValue c) :: r.1, r.2)
      else none
    else scanDouble (.code (left - 1) (16 * value + digitValue c)) cs

/-- The text of a single-quoted scalar, and what comes after it; with whether the last character was
a quote, which closes the scalar unless another one follows. -/
def scanSingle : Bool → List Char → Option (List Char × List Char)
  | false, [] => none
  | true, [] => some ([], [])
  | false, c :: cs =>
    if c = singleQuote then scanSingle true cs
    else (scanSingle false cs).map fun r => (c :: r.1, r.2)
  | true, c :: cs =>
    if c = singleQuote then (scanSingle false cs).map fun r => (c :: r.1, r.2)
    else some ([], c :: cs)

/-- The text of a scalar and whether it is plain, and what is left of the line. -/
def scanScalar : List Char → Option ((List Char × Bool) × List Char)
  | [] => none
  | c :: cs =>
    if c = doubleQuote then (scanDouble .no cs).map fun r => ((r.1, false), r.2)
    else if c = singleQuote then (scanSingle false cs).map fun r => ((r.1, false), r.2)
    else if startsPlain (c :: cs) then
      some (((scanPlain (c :: cs)).1, true), (scanPlain (c :: cs)).2)
    else none

/-- The scalar of a text. -/
def scalarOf (text : List Char × Bool) : Option Scalar :=
  if text.2 then resolve text.1 else some (.str (String.ofList text.1))

/-- Nothing more on the line but blanks and a comment. -/
def lineEnds (cs : List Char) : Bool := (cs.dropWhile (· = ' ')).head?.all (· = '#')

/-- The value on the line of its key, if there is one there. -/
def readInline (tail : List Char) : Option (Option Scalar) :=
  if lineEnds tail then some none
  else do
    let (text, left) ← scanScalar (tail.dropWhile (· = ' '))
    if lineEnds left then some <$> scalarOf text else none

/-- The key of a line, and what comes after its colon.  The colon is looked for in the first 1024
characters. -/
def readKey (content : List Char) : Option (Scalar × List Char) := do
  let (text, left) ← scanScalar content
  match left.dropWhile (· = ' ') with
  | [] => none
  | c :: tail =>
    if c = ':' && blankNext tail && content.length ≤ tail.length + 1025 then
      (scalarOf text).map fun key => (key.asKey, tail)
    else none

/-! ## Plain texts -/

section Plain

/-- Nothing in the text ends a plain scalar before the text does, where `r` follows. -/
structure Settled (r s : List Char) : Prop where
  tab : '\t' ∉ s
  pairs : s.IsChain fun a b => ¬ (a = ':' ∧ b = ' ') ∧ ¬ (a = ' ' ∧ b = '#')
  space : s.getLast? ≠ some ' '
  colon : blankNext r = true → s.getLast? ≠ some ':'

instance (r s : List Char) : Decidable (Settled r s) :=
  decidable_of_iff ('\t' ∉ s ∧
    (s.IsChain fun a b => ¬ (a = ':' ∧ b = ' ') ∧ ¬ (a = ' ' ∧ b = '#')) ∧
      s.getLast? ≠ some ' ' ∧ (blankNext r = true → s.getLast? ≠ some ':'))
    ⟨fun ⟨h₁, h₂, h₃, h₄⟩ => ⟨h₁, h₂, h₃, h₄⟩, fun ⟨h₁, h₂, h₃, h₄⟩ => ⟨h₁, h₂, h₃, h₄⟩⟩

variable {c : Char} {s r t : List Char}

theorem settled_nil : Settled r [] := ⟨by simp, by simp, by simp, by simp⟩

theorem settled_cons : Settled r (c :: s) ↔ c ≠ '\t' ∧ (c = ':' → blankNext (s ++ r) = false) ∧
    (c = ' ' → s ≠ [] ∧ s.head? ≠ some '#') ∧ Settled r s := by
  cases s with
  | nil =>
    constructor
    · rintro ⟨htab, -, hspace, hcolon⟩
      refine ⟨fun h => htab (by simp [h]), fun h => ?_, fun h => ?_, settled_nil⟩
      · exact Bool.eq_false_of_not_eq_true fun hr => hcolon hr (by simp [h])
      · exact absurd (by rw [h]; rfl) hspace
    · rintro ⟨htab, hcolon, hspace, -⟩
      refine ⟨by simpa using fun h => htab h.symm, by simp, fun h => ?_, fun hr h => ?_⟩
      · exact (hspace (by simpa using h)).1 rfl
      · rw [List.nil_append, hr] at hcolon
        exact absurd (hcolon (by simpa using h)) (by simp)
  | cons d s =>
    constructor
    · rintro ⟨htab, hpairs, hspace, hcolon⟩
      obtain ⟨⟨hcolonPair, hhash⟩, hpairs⟩ := List.isChain_cons_cons.mp hpairs
      refine ⟨fun h => htab (by simp [h]), fun h => ?_,
        fun h => ⟨by simp, fun hd => hhash ⟨h, by simpa using hd⟩⟩,
        fun h => htab (List.mem_cons_of_mem _ h), hpairs, hspace, hcolon⟩
      have hd : d ≠ '\t' := fun hd => htab (by simp [hd])
      have hblank : d ≠ ' ' := fun hd => hcolonPair ⟨h, hd⟩
      simp [blankNext, isBlank, hd, hblank]
    · rintro ⟨htab, hcolonPair, hhash, hrest, hpairs, hspace, hcolon⟩
      refine ⟨fun h => ?_, List.isChain_cons_cons.mpr ⟨⟨fun h => ?_, fun h => ?_⟩, hpairs⟩, hspace,
        hcolon⟩
      · exact (List.mem_cons.mp h).elim (fun h => htab h.symm) hrest
      · have hblank := hcolonPair h.1
        simp [blankNext, isBlank, h.2] at hblank
      · exact (hhash h.1).2 (by simp [h.2])

/-- What comes after blanks in a settled text ends no scalar, unless the text ends there or a
comment begins. -/
theorem stops_after_blanks (hr : plainStops r = true) (hs : Settled r s) :
    (plainStops ((s ++ r).dropWhile (· = ' ')) ||
      decide (((s ++ r).dropWhile (· = ' ')).head? = some '#')) = true ↔
    s = [] ∨ s.head? = some '#' := by
  induction s with
  | nil =>
    refine iff_of_true ?_ (.inl rfl)
    cases r with
    | nil => rfl
    | cons c r =>
      have hc : c ≠ ' ' := by
        rintro rfl
        simp [plainStops] at hr
      rw [List.nil_append, List.dropWhile_cons_of_neg (by simpa using hc), hr]
      rfl
  | cons c s ih =>
    obtain ⟨htab, hcolon, hspace, hs⟩ := settled_cons.mp hs
    by_cases hc : c = ' '
    · obtain ⟨hne, hhash⟩ := hspace hc
      rw [List.cons_append, List.dropWhile_cons_of_pos (by simpa using hc), ih hs]
      refine iff_of_false (fun h => h.elim hne hhash) ?_
      simp [hc]
    · rw [List.cons_append, List.dropWhile_cons_of_neg (by simpa using hc)]
      have hgoes : plainStops (c :: (s ++ r)) = false := by
        simpa [plainStops, htab] using hcolon
      rw [hgoes]
      simp

/-- **A text is a plain scalar, whole,** where it is settled. -/
theorem scanPlain_append_iff (hr : plainStops r = true) :
    scanPlain (s ++ r) = (s, r) ↔ Settled r s := by
  induction s with
  | nil =>
    refine iff_of_true ?_ settled_nil
    cases r with
    | nil => rfl
    | cons c r => rw [List.nil_append, scanPlain, hr, Bool.true_or, if_pos rfl]
  | cons c s ih =>
    rw [settled_cons, List.cons_append, scanPlain]
    split
    · rename_i hstop
      refine iff_of_false (by simp) ?_
      rintro ⟨htab, hcolon, hspace, hs⟩
      rcases (Bool.or_eq_true _ _).mp hstop with hplain | hblank
      · simp only [plainStops, Bool.or_eq_true, decide_eq_true_eq, Bool.and_eq_true] at hplain
        rcases hplain with h | ⟨h, hblank⟩
        · exact htab h
        · rw [hcolon h] at hblank
          cases hblank
      · obtain ⟨hc, hnext⟩ := (Bool.and_eq_true _ _).mp hblank
        have hspace := hspace (of_decide_eq_true hc)
        rcases (stops_after_blanks hr hs).mp hnext with h | h
        · exact hspace.1 h
        · exact hspace.2 h
    · rename_i hstop
      rw [Bool.not_eq_true, Bool.or_eq_false_iff] at hstop
      obtain ⟨hplain, hblank⟩ := hstop
      have hpair : ((c :: (scanPlain (s ++ r)).1, (scanPlain (s ++ r)).2) = (c :: s, r)) ↔
          scanPlain (s ++ r) = (s, r) := by
        rw [Prod.mk.injEq, List.cons.injEq, Prod.ext_iff]
        simp
      rw [hpair, ih]
      refine ⟨fun hs => ⟨?_, ?_, ?_, hs⟩, fun h => h.2.2.2⟩
      · rintro rfl
        simp [plainStops] at hplain
      · rintro rfl
        simpa [plainStops] using hplain
      · rintro rfl
        rw [decide_eq_true rfl, Bool.true_and, ← Bool.not_eq_true, stops_after_blanks hr hs]
          at hblank
        exact ⟨fun h => hblank (.inl h), fun h => hblank (.inr h)⟩

theorem scanPlain_append (l : List Char) : (scanPlain l).1 ++ (scanPlain l).2 = l := by
  induction l with
  | nil => rfl
  | cons c l ih =>
    rw [scanPlain]
    split
    · rfl
    · exact congrArg (c :: ·) ih

end Plain

/-! ## Lengths -/

section Length

variable {s cs left : List Char}

/-- The quote that closes a scalar is none of its text. -/
theorem length_of_scanDouble : ∀ {cs s left : List Char} {escape : Escape},
    scanDouble escape cs = some (s, left) → s.length + left.length + 1 ≤ cs.length := by
  intro cs
  induction cs with
  | nil => intro s left escape h; simp [scanDouble] at h
  | cons c cs ih =>
    intro s left escape h
    have hmore : ∀ {d : Char} {x : List Char × List Char},
        (scanDouble .no cs).map (fun r => (d :: r.1, r.2)) = some x →
          x.1.length + x.2.length + 1 ≤ (c :: cs).length := by
      intro d x hx
      obtain ⟨y, hy, rfl⟩ := Option.map_eq_some_iff.mp hx
      have := ih hy
      simp only [List.length_cons]
      omega
    cases escape with
    | no =>
      rw [scanDouble] at h
      split_ifs at h
      · obtain ⟨rfl, rfl⟩ := Prod.mk.inj (Option.some.inj h)
        simp
      · exact (ih h).trans (by simp)
      · exact hmore h
    | begun =>
      rw [scanDouble] at h
      split at h
      · exact (ih h).trans (by simp)
      · exact hmore h
      · cases h
    | code n value =>
      rw [scanDouble] at h
      split_ifs at h
      · exact hmore h
      · exact (ih h).trans (by simp)

theorem length_of_scanSingle : ∀ {cs s left : List Char} {pending : Bool},
    scanSingle pending cs = some (s, left) → s.length + left.length ≤ cs.length := by
  intro cs
  induction cs with
  | nil =>
    intro s left pending h
    cases pending with
    | false => simp [scanSingle] at h
    | true =>
      obtain ⟨rfl, rfl⟩ := Prod.mk.inj (Option.some.inj h)
      simp
  | cons c cs ih =>
    intro s left pending h
    have hmore : ∀ {d : Char} {x : List Char × List Char},
        (scanSingle false cs).map (fun r => (d :: r.1, r.2)) = some x →
          x.1.length + x.2.length ≤ (c :: cs).length := by
      intro d x hx
      obtain ⟨y, hy, rfl⟩ := Option.map_eq_some_iff.mp hx
      have := ih hy
      simp only [List.length_cons]
      omega
    cases pending with
    | false =>
      rw [scanSingle] at h
      split_ifs at h
      · exact (ih h).trans (by simp)
      · exact hmore h
    | true =>
      rw [scanSingle] at h
      split_ifs at h
      · exact hmore h
      · obtain ⟨rfl, rfl⟩ := Prod.mk.inj (Option.some.inj h)
        simp

/-- A plain text is resolved to no string but itself, as a value or as a key. -/
theorem eq_of_resolve {text : List Char} {v : Scalar} {x : String} (h : resolve text = some v)
    (hv : v.asKey = .str x) : x = String.ofList text := by
  unfold resolve at h
  split_ifs at h with hbool hfloat hint hmerge hnull htime hvalue
  · obtain rfl := Option.some.inj h
    cases hv
  · obtain rfl := Option.some.inj h
    cases hv
  · obtain ⟨z, -, rfl⟩ := Option.map_eq_some_iff.mp h
    cases hv
  · obtain rfl := Option.some.inj h
    cases hv
  · obtain rfl := Option.some.inj h
    cases hv
  · obtain rfl := Option.some.inj h
    cases hv
  · obtain rfl := Option.some.inj h
    rw [hvalue]
    exact (Scalar.str.inj hv).symm
  · obtain rfl := Option.some.inj h
    exact (Scalar.str.inj hv).symm

/-- So is any other. -/
theorem eq_of_scalarOf {text : List Char × Bool} {v : Scalar} (h : scalarOf text = some v)
    (hv : v.asKey = .str (String.ofList s)) : text.1 = s := by
  rw [scalarOf] at h
  split_ifs at h
  · exact (String.ofList_injective (eq_of_resolve h hv)).symm
  · obtain rfl := Option.some.inj h
    exact String.ofList_injective (Scalar.str.inj hv)

/-- **A scalar is plain, or shorter than its quotes.** -/
theorem scanScalar_cases {text : List Char × Bool} (h : scanScalar cs = some (text, left)) :
    (text.2 = true ∧ startsPlain cs = true ∧ scanPlain cs = (text.1, left)) ∨
      text.1.length + left.length + 1 ≤ cs.length := by
  cases cs with
  | nil => cases h
  | cons c cs =>
    rw [scanScalar] at h
    split_ifs at h with hdouble hsingle hstart
    · obtain ⟨r, hr, heq⟩ := Option.map_eq_some_iff.mp h
      obtain ⟨rfl, rfl⟩ := Prod.mk.inj heq
      exact .inr ((length_of_scanDouble hr).trans (Nat.le_succ _))
    · obtain ⟨r, hr, heq⟩ := Option.map_eq_some_iff.mp h
      obtain ⟨rfl, rfl⟩ := Prod.mk.inj heq
      exact .inr (Nat.succ_le_succ (length_of_scanSingle hr))
    · obtain ⟨rfl, rfl⟩ := Prod.mk.inj (Option.some.inj h)
      exact .inl ⟨rfl, hstart, rfl⟩

/-- A scalar is no longer than what it is read from. -/
theorem length_of_scanScalar {text : List Char × Bool} (h : scanScalar cs = some (text, left)) :
    text.1.length + left.length ≤ cs.length := by
  rcases scanScalar_cases h with ⟨-, -, hplain⟩ | hlength
  · have happend := scanPlain_append cs
    rw [hplain] at happend
    rw [← happend, List.length_append]
  · omega

end Length

/-! ## Texts that are read back -/

/-- A text that a plain value is read back from. -/
structure PlainText (s : List Char) : Prop where
  starts : startsPlain s = true
  settled : Settled [] s
  string : resolve s = some (.str (String.ofList s))

/-- A text that a plain key is read back from. -/
structure KeyText (s : List Char) : Prop where
  starts : startsPlain (s ++ [':']) = true
  settled : Settled [':'] s
  string : (resolve s).map Scalar.asKey = some (.str (String.ofList s))
  short : s.length ≤ 1024

/-- A text that a double-quoted value is read back from. -/
structure QuotedText (s : List Char) : Prop where
  quote : doubleQuote ∉ s
  escape : '\\' ∉ s

instance (s : List Char) : Decidable (PlainText s) :=
  decidable_of_iff (startsPlain s = true ∧ Settled [] s ∧
      resolve s = some (.str (String.ofList s)))
    ⟨fun ⟨h₁, h₂, h₃⟩ => ⟨h₁, h₂, h₃⟩, fun ⟨h₁, h₂, h₃⟩ => ⟨h₁, h₂, h₃⟩⟩

instance (s : List Char) : Decidable (KeyText s) :=
  decidable_of_iff (startsPlain (s ++ [':']) = true ∧ Settled [':'] s ∧
      (resolve s).map Scalar.asKey = some (.str (String.ofList s)) ∧ s.length ≤ 1024)
    ⟨fun ⟨h₁, h₂, h₃, h₄⟩ => ⟨h₁, h₂, h₃, h₄⟩, fun ⟨h₁, h₂, h₃, h₄⟩ => ⟨h₁, h₂, h₃, h₄⟩⟩

instance (s : List Char) : Decidable (QuotedText s) :=
  decidable_of_iff (doubleQuote ∉ s ∧ '\\' ∉ s)
    ⟨fun ⟨h₁, h₂⟩ => ⟨h₁, h₂⟩, fun ⟨h₁, h₂⟩ => ⟨h₁, h₂⟩⟩

section ReadBack

variable {s tail cs : List Char}

theorem lineEnds_cons_space : lineEnds (' ' :: cs) = lineEnds cs := by simp [lineEnds]

/-- A value on the line of its key is a scalar that ends with the line. -/
theorem readInline_eq_some {v : Scalar} : readInline tail = some (some v) ↔ lineEnds tail = false ∧
    ∃ text left, scanScalar (tail.dropWhile (· = ' ')) = some (text, left) ∧
      lineEnds left = true ∧ scalarOf text = some v := by
  rw [readInline]
  cases hends : lineEnds tail with
  | true => simp
  | false =>
    rw [if_neg (by simp)]
    constructor
    · intro h
      obtain ⟨⟨text, left⟩, hscan, h⟩ := Option.bind_eq_some_iff.mp h
      dsimp only at h
      split_ifs at h with hleft
      obtain ⟨v', hv', heq⟩ := Option.map_eq_some_iff.mp h
      exact ⟨rfl, text, left, hscan, hleft, by rw [hv', Option.some.inj heq]⟩
    · rintro ⟨-, text, left, hscan, hleft, hv⟩
      rw [hscan]
      change (if lineEnds left then some <$> scalarOf text else none) = _
      rw [if_pos hleft, hv]
      rfl

/-- **A value is no longer than what is written.** -/
theorem length_of_readInline (h : readInline tail = some (some (.str (String.ofList s)))) :
    s.length ≤ (tail.dropWhile (· = ' ')).length := by
  obtain ⟨-, text, left, hscan, -, hs⟩ := readInline_eq_some.mp h
  rw [← eq_of_scalarOf hs rfl]
  exact (Nat.le_add_right _ _).trans (length_of_scanScalar hscan)

theorem length_dropWhile_le (p : Char → Bool) (l : List Char) : (l.dropWhile p).length ≤ l.length :=
  (List.dropWhile_suffix p).length_le

/-- What a plain scalar does not start with. -/
theorem head_of_startsPlain (h : startsPlain s = true) : ∃ c cs, s = c :: cs ∧
    ∀ d ∈ [' ', '#', doubleQuote, singleQuote], c ≠ d := by
  cases s with
  | nil => cases h
  | cons c cs =>
    refine ⟨c, cs, rfl, fun d hd => ?_⟩
    rintro rfl
    have hnone : ∀ d ∈ [' ', '#', doubleQuote, singleQuote], isBlank d = true ∨
        d ∈ indicators ∧ d ≠ '-' ∧ d ≠ '?' ∧ d ≠ ':' := forall_mem_of_all (by decide)
    rcases hnone c hd with hblank | ⟨hmem, hdash, hquestion, hcolon⟩
    · simp [startsPlain, hblank] at h
    · simp [startsPlain, hmem, hdash, hquestion, hcolon] at h

/-- A plain scalar is scanned as one. -/
theorem scanScalar_of_startsPlain {r : List Char} (hstart : startsPlain (s ++ r) = true)
    (hr : plainStops r = true) (hs : Settled r s) :
    scanScalar (s ++ r) = some ((s, true), r) := by
  obtain ⟨c, cs, heq, hhead⟩ := head_of_startsPlain hstart
  have hscan := (scanPlain_append_iff hr).mpr hs
  rw [heq] at hstart hscan ⊢
  rw [scanScalar, if_neg (hhead _ (by simp)), if_neg (hhead _ (by simp)), if_pos hstart, hscan]

/-- **A settled text is read as what it is resolved to.** -/
theorem readInline_of_settled {v : Scalar} (hstart : startsPlain s = true) (hs : Settled [] s)
    (hresolve : resolve s = some v) : readInline (' ' :: s) = some (some v) := by
  obtain ⟨c, cs, rfl, hhead⟩ := head_of_startsPlain hstart
  have hdrop : (c :: cs).dropWhile (· = ' ') = c :: cs :=
    List.dropWhile_cons_of_neg (by simpa using hhead ' ' (by simp))
  have hscan := scanScalar_of_startsPlain (r := []) (by simpa using hstart) rfl hs
  rw [List.append_nil] at hscan
  refine readInline_eq_some.mpr ⟨?_, (c :: cs, true), [], ?_, rfl, ?_⟩
  · rw [lineEnds_cons_space, lineEnds, hdrop]
    simpa using hhead '#' (by simp)
  · rw [List.dropWhile_cons_of_pos (by decide), hdrop, hscan]
  · rw [scalarOf, if_pos rfl, hresolve]

/-- **The values that are read back as they stand.** -/
theorem readInline_plain_iff :
    readInline (' ' :: s) = some (some (.str (String.ofList s))) ↔ PlainText s := by
  constructor
  · intro h
    obtain ⟨-, text, left, hscan, -, hs⟩ := readInline_eq_some.mp h
    rw [List.dropWhile_cons_of_pos (by decide)] at hscan
    have hdrop := length_dropWhile_le (· = ' ') s
    obtain rfl := eq_of_scalarOf hs rfl
    rcases scanScalar_cases hscan with ⟨hkind, hstart, hplain⟩ | hlength
    · rw [scalarOf, if_pos hkind] at hs
      have happend := scanPlain_append (text.1.dropWhile (· = ' '))
      have hlength := congrArg List.length happend
      rw [hplain, List.length_append] at hlength
      -- Nothing is left of the line, and there was no space before the text.
      have hwhole : text.1.dropWhile (· = ' ') = text.1 :=
        (List.dropWhile_suffix _).eq_of_length (by dsimp only at hlength; omega)
      have hleft : left = [] := List.length_eq_zero_iff.mp (by dsimp only at hlength; omega)
      rw [hwhole] at hstart hplain
      refine ⟨hstart, ?_, hs⟩
      rw [← scanPlain_append_iff rfl, List.append_nil, hplain, hleft]
    · omega
  · rintro ⟨hstart, hsettled, hresolve⟩
    exact readInline_of_settled hstart hsettled hresolve

/-! ### Quoted values -/

theorem scanScalar_doubleQuote :
    scanScalar (doubleQuote :: cs) = (scanDouble .no cs).map fun r => ((r.1, false), r.2) := by
  rw [scanScalar, if_pos rfl]

/-- A quoted value is shorter than what is written. -/
theorem length_of_readInline_quoted
    (h : readInline (' ' :: doubleQuote :: cs) = some (some (.str (String.ofList s)))) :
    s.length + 1 ≤ cs.length := by
  obtain ⟨-, text, left, hscan, -, hs⟩ := readInline_eq_some.mp h
  rw [List.dropWhile_cons_of_pos (by decide), List.dropWhile_cons_of_neg (by decide),
    scanScalar_doubleQuote] at hscan
  obtain ⟨r, hr, heq⟩ := Option.map_eq_some_iff.mp hscan
  obtain ⟨rfl, rfl⟩ := Prod.mk.inj heq
  rw [scalarOf, if_neg (by simp)] at hs
  rw [← String.ofList_injective (Scalar.str.inj (Option.some.inj hs))]
  have hlength := length_of_scanDouble hr
  change r.1.length + 1 ≤ cs.length
  omega

/-- What is scanned before the last quote is the text where there is no other, and no escape. -/
theorem scanDouble_append_quote : scanDouble .no (s ++ [doubleQuote]) = some (s, []) ↔
    doubleQuote ∉ s ∧ '\\' ∉ s := by
  induction s with
  | nil => simp [scanDouble]
  | cons c s ih =>
    rw [List.cons_append, scanDouble]
    split_ifs with hquote hescape
    · exact iff_of_false (by simp) (by simp [hquote])
    · refine iff_of_false (fun h => ?_) (by simp [hescape])
      have hlength := length_of_scanDouble h
      simp only [List.length_cons, List.length_append, List.length_nil] at hlength
      omega
    · rw [List.mem_cons, List.mem_cons, not_or, not_or]
      constructor
      · intro h
        obtain ⟨r, hr, heq⟩ := Option.map_eq_some_iff.mp h
        obtain ⟨hr₁, hr₂⟩ := Prod.mk.inj heq
        obtain rfl : r = (s, []) := Prod.ext (List.cons.inj hr₁).2 hr₂
        obtain ⟨hq, he⟩ := ih.mp hr
        exact ⟨⟨fun h => hquote h.symm, hq⟩, fun h => hescape h.symm, he⟩
      · rintro ⟨⟨-, hq⟩, -, he⟩
        rw [ih.mpr ⟨hq, he⟩]
        rfl

/-- **The quoted values that are read back as they stand.** -/
theorem readInline_quoted_iff :
    readInline (' ' :: doubleQuote :: (s ++ [doubleQuote])) =
      some (some (.str (String.ofList s))) ↔ QuotedText s := by
  have hends : lineEnds (' ' :: doubleQuote :: (s ++ [doubleQuote])) = false := by
    rw [lineEnds_cons_space, lineEnds, List.dropWhile_cons_of_neg (by decide)]
    simp [show doubleQuote ≠ '#' by decide]
  rw [readInline_eq_some, List.dropWhile_cons_of_pos (by decide),
    List.dropWhile_cons_of_neg (by decide), scanScalar_doubleQuote]
  constructor
  · rintro ⟨-, text, left, hscan, -, hs⟩
    obtain ⟨⟨r, left'⟩, hr, heq⟩ := Option.map_eq_some_iff.mp hscan
    obtain ⟨rfl, rfl⟩ := Prod.mk.inj heq
    rw [scalarOf, if_neg (by simp)] at hs
    obtain rfl : r = s := String.ofList_injective (Scalar.str.inj (Option.some.inj hs))
    have hlength := length_of_scanDouble hr
    rw [List.length_append, List.length_singleton] at hlength
    obtain rfl : left' = [] := List.length_eq_zero_iff.mp (by omega)
    obtain ⟨hquote, hescape⟩ := scanDouble_append_quote.mp hr
    exact ⟨hquote, hescape⟩
  · rintro ⟨hquote, hescape⟩
    refine ⟨hends, (s, false), [], ?_, rfl, rfl⟩
    rw [scanDouble_append_quote.mpr ⟨hquote, hescape⟩]
    rfl

/-! ### Keys -/

theorem readKey_eq_some {key : Scalar} {content : List Char} :
    readKey content = some (key, tail) ↔ ∃ text left, scanScalar content = some (text, left) ∧
      left.dropWhile (· = ' ') = ':' :: tail ∧ blankNext tail = true ∧
      content.length ≤ tail.length + 1025 ∧ (scalarOf text).map Scalar.asKey = some key := by
  rw [readKey]
  constructor
  · intro h
    obtain ⟨⟨text, left⟩, hscan, h⟩ := Option.bind_eq_some_iff.mp h
    dsimp only at h
    split at h
    · cases h
    · rename_i c tail' hleft
      split_ifs at h with hc
      simp only [Bool.and_eq_true, decide_eq_true_eq] at hc
      obtain ⟨⟨rfl, hblank⟩, hshort⟩ := hc
      obtain ⟨key', hkey, heq⟩ := Option.map_eq_some_iff.mp h
      obtain ⟨rfl, rfl⟩ := Prod.mk.inj heq
      exact ⟨text, left, hscan, hleft, hblank, hshort, by rw [hkey]; rfl⟩
  · rintro ⟨text, left, hscan, hleft, hblank, hshort, hkey⟩
    obtain ⟨v, hv, rfl⟩ := Option.map_eq_some_iff.mp hkey
    rw [hscan]
    change (match left.dropWhile (· = ' ') with
      | [] => none
      | c :: tail =>
        if c = ':' && blankNext tail && content.length ≤ tail.length + 1025 then
          (scalarOf text).map fun key : Scalar => (key.asKey, tail)
        else none) = _
    rw [hleft, hv]
    simp [hblank, hshort]

/-- **A key is shorter than its line.** -/
theorem length_of_readKey {content : List Char}
    (h : readKey content = some (.str (String.ofList s), tail)) :
    s.length + tail.length + 1 ≤ content.length := by
  obtain ⟨text, left, hscan, hleft, -, -, hkey⟩ := readKey_eq_some.mp h
  obtain ⟨v, hv, hstring⟩ := Option.map_eq_some_iff.mp hkey
  obtain rfl := eq_of_scalarOf hv hstring
  have hlength := length_of_scanScalar hscan
  have hdrop := length_dropWhile_le (· = ' ') left
  rw [hleft, List.length_cons] at hdrop
  omega

/-- **A key is read from its line.** -/
theorem KeyText.readKey (hs : KeyText s) (htail : blankNext tail = true) :
    readKey (s ++ ':' :: tail) = some (.str (String.ofList s), tail) := by
  obtain ⟨hstart, ⟨htab, hpairs, hspace, -⟩, hstring, hshort⟩ := hs
  have hstart' : startsPlain (s ++ ':' :: tail) = true := by
    cases s with
    | nil => simp [startsPlain, blankNext, show ':' ∈ indicators by decide] at hstart
    | cons c s =>
      cases s with
      | nil => exact hstart
      | cons d s => exact hstart
  have hscan := scanScalar_of_startsPlain (r := ':' :: tail) hstart' (by simp [plainStops, htail])
    ⟨htab, hpairs, hspace, fun h => by simp [blankNext, isBlank] at h⟩
  refine readKey_eq_some.mpr ⟨_, _, hscan, List.dropWhile_cons_of_neg (by decide), htail, ?_, ?_⟩
  · rw [List.length_append, List.length_cons]
    omega
  · rw [scalarOf, if_pos rfl]
    exact hstring

/-- **The keys that are read back as they stand.** -/
theorem readKey_iff : readKey (s ++ [':']) = some (.str (String.ofList s), []) ↔ KeyText s := by
  refine ⟨fun h => ?_, fun hs => hs.readKey rfl⟩
  obtain ⟨text, left, hscan, hleft, -, hshort, hkey⟩ := readKey_eq_some.mp h
  have hdrop := length_dropWhile_le (· = ' ') left
  rw [hleft, List.length_singleton] at hdrop
  obtain ⟨v, hv, hstring⟩ := Option.map_eq_some_iff.mp hkey
  obtain rfl := eq_of_scalarOf hv hstring
  rcases scanScalar_cases hscan with ⟨hkind, hstart, hplain⟩ | hlength
  · rw [scalarOf, if_pos hkind] at hkey
    have happend := scanPlain_append (text.1 ++ [':'])
    rw [hplain] at happend
    obtain rfl : left = [':'] := List.append_cancel_left happend
    refine ⟨hstart, (scanPlain_append_iff rfl).mp hplain, hkey, ?_⟩
    rw [List.length_append, List.length_singleton, List.length_nil] at hshort
    omega
  · rw [List.length_append, List.length_singleton] at hlength
    omega

end ReadBack

/-! ## Integers -/

section Integers

variable {n : ℕ} {z : ℤ} {c : Char} {x : List Char}

theorem rmatch_word {w : String} : (word w).rmatch x = true ↔ x = w.toList := by
  rw [word, rmatch_iff_matches']
  induction w.toList generalizing x with
  | nil => exact Iff.rfl
  | cons c cs ih =>
    rw [List.foldr_cons, matches'_mul, Language.mem_mul]
    constructor
    · rintro ⟨y, hy, z, hz, rfl⟩
      obtain rfl : y = [c] := hy
      rw [ih.mp hz]
      rfl
    · rintro rfl
      exact ⟨[c], rfl, cs, ih.mpr rfl, rfl⟩

theorem rmatch_words {l : List String} :
    (words l).rmatch x = true ↔ ∃ w ∈ l, x = w.toList := by
  induction l with
  | nil => simp [words, zero_rmatch]
  | cons w l ih =>
    have hcons : words (w :: l) = word w + words l := rfl
    rw [hcons, add_rmatch_iff, rmatch_word, ih, List.exists_mem_cons_iff]

theorem isDigit_iff : c.isDigit = true ↔ c ∈ "0123456789".toList := by
  have hrange : charRange '0' '9' = "0123456789".toList := by decide
  rw [← hrange, mem_charRange (by decide), Char.isDigit, Bool.and_eq_true, decide_eq_true_eq,
    decide_eq_true_eq]
  exact Iff.rfl

theorem mem_digits_of_mem_toDigits (hc : c ∈ Nat.toDigits 10 n) : c ∈ "0123456789".toList :=
  isDigit_iff.mp (Nat.isDigit_of_mem_toDigits (by decide) (by decide) hc)

/-- **A decimal numeral does not begin with a zero**, but for that of zero. -/
theorem toDigits_cases (n : ℕ) :
    n = 0 ∨ ∃ d ds, Nat.toDigits 10 n = d :: ds ∧ d ∈ "123456789".toList := by
  induction n using Nat.strong_induction_on with
  | _ n ih =>
    rcases Nat.eq_zero_or_pos n with hn | hn
    · exact .inl hn
    · right
      rw [Nat.toDigits_eq_if (by decide)]
      split
      · rename_i hlt
        have hdigit : ∀ m < 10, 0 < m → m.digitChar ∈ "123456789".toList := by decide
        exact ⟨n.digitChar, [], rfl, hdigit n hlt hn⟩
      · rcases ih (n / 10) (by omega) with hzero | ⟨d, ds, hds, hd⟩
        · omega
        · exact ⟨d, ds ++ [(n % 10).digitChar], by rw [hds]; rfl, hd⟩

/-- The numeral of an integer: a sign, where it is negative, and digits. -/
theorem exists_numeral (z : ℤ) : ∃ sg, (toString z).toList = sg ++ Nat.toDigits 10 z.natAbs ∧
    (sg = [] ∧ z = z.natAbs ∨ sg = ['-'] ∧ z = -z.natAbs) := by
  cases z with
  | ofNat n => exact ⟨[], Nat.toList_repr, .inl ⟨rfl, rfl⟩⟩
  | negSucc n =>
    refine ⟨['-'], ?_, .inr ⟨rfl, rfl⟩⟩
    change ("-" ++ Nat.repr (n + 1)).toList = _
    rw [String.toList_append, Nat.toList_repr]
    rfl

/-- The characters of numerals. -/
theorem mem_numeral (h : c ∈ (toString z).toList) : c ∈ "-0123456789".toList := by
  obtain ⟨sg, hz, hsg⟩ := exists_numeral z
  rw [hz, List.mem_append] at h
  rcases h with h | h
  · rcases hsg with ⟨rfl, -⟩ | ⟨rfl, -⟩
    · cases h
    · rw [List.mem_singleton.mp h]
      decide
  · exact List.mem_cons_of_mem _ (mem_digits_of_mem_toDigits h)

/-- A numeral is none of the booleans… -/
theorem not_rmatch_BOOL : BOOL.rmatch (toString z).toList = false := by
  rw [← Bool.not_eq_true, BOOL, rmatch_words]
  rintro ⟨w, hw, heq⟩
  have hwords : ∀ w ∈ ["yes", "Yes", "YES", "no", "No", "NO", "true", "True", "TRUE", "false",
      "False", "FALSE", "on", "On", "ON", "off", "Off", "OFF"],
      w.toList.any fun c => c ∉ "-0123456789".toList := by decide
  obtain ⟨c, hc, hnot⟩ := List.any_eq_true.mp (hwords w hw)
  rw [← heq] at hc
  exact of_decide_eq_true hnot (mem_numeral hc)

/-- …and none of the floats, which have a point. -/
theorem not_rmatch_FLOAT : FLOAT.rmatch (toString z).toList = false := by
  have hpoint : Needs '.' FLOAT := by
    have hdot := needs_char '.'
    refine Needs.add (Needs.add (Needs.add (Needs.add ?_ ?_) ?_) ?_) ?_
    · exact ((hdot.mul_right _).mul_left _).mul_left _
    · exact ((hdot.mul_left _).mul_left _).mul_left _
    · exact (hdot.mul_right _).mul_left _
    · exact (hdot.mul_right _).mul_left _
    · exact hdot.mul_left _
  rw [← Bool.not_eq_true, rmatch_iff_matches']
  intro h
  exact absurd (mem_numeral (hpoint _ h)) (by decide)

theorem rmatch_INT : INT.rmatch (toString z).toList = true := by
  obtain ⟨sg, hz, hsg⟩ := exists_numeral z
  have hsign : sg ∈ sign.matches' := by
    rcases hsg with ⟨rfl, -⟩ | ⟨rfl, -⟩
    · exact .inl rfl
    · exact .inr (mem_oneOf.mpr ⟨'-', by simp, rfl⟩)
  have hdigits : Nat.toDigits 10 z.natAbs ∈
      (char '0' + oneOf "123456789".toList * digits).matches' := by
    rcases toDigits_cases z.natAbs with hzero | ⟨d, ds, hds, hd⟩
    · rw [hzero]
      exact .inl rfl
    · rw [hds]
      refine .inr ⟨[d], mem_oneOf.mpr ⟨d, hd, rfl⟩, ds, mem_star_oneOf.mpr fun c hc => ?_, rfl⟩
      have hmem : c ∈ "0123456789".toList :=
        mem_digits_of_mem_toDigits (n := z.natAbs) (by rw [hds]; exact List.mem_cons_of_mem _ hc)
      have hsub : ∀ c ∈ "0123456789".toList, c ∈ "0123456789_".toList :=
        forall_mem_of_all (by decide)
      exact hsub c hmem
  rw [rmatch_iff_matches', hz, INT]
  exact .inl (.inl (.inl (.inl ⟨sg, hsign, _, hdigits, rfl⟩)))

/-- The digits of a number are that number. -/
theorem ofDigits_toDigits (n : ℕ) : ofDigits 10 (Nat.toDigits 10 n) = n := by
  refine Eq.trans ?_ Nat.ofDigitChars_ten_toDigits
  rw [Nat.ofDigitChars_eq_foldl, ofDigits]
  refine List.foldl_ext _ _ _ fun m c hc => ?_
  rw [digitValue, if_pos (isDigit_iff.mpr (mem_digits_of_mem_toDigits hc))]

theorem magnitude_toDigits (n : ℕ) : magnitude (Nat.toDigits 10 n) = some n := by
  rcases toDigits_cases n with rfl | ⟨d, ds, hds, hd⟩
  · rfl
  · have hzero : d ≠ '0' := by
      rintro rfl
      exact absurd hd (by decide)
    have hcolon : ':' ∉ Nat.toDigits 10 n := fun h =>
      absurd (mem_digits_of_mem_toDigits h) (by decide)
    rw [magnitude, List.splitOn_eq_singleton hcolon, List.foldl_cons, List.foldl_nil,
      ofDigits_toDigits, hds]
    simp [hzero]

/-- **The numeral of an integer is the integer.** -/
theorem constructInt_numeral (z : ℤ) : constructInt (toString z).toList = some z := by
  obtain ⟨sg, hz, hsg⟩ := exists_numeral z
  have hfilter : (toString z).toList.filter (· ≠ '_') = (toString z).toList := by
    refine List.filter_eq_self.mpr fun c hc => decide_eq_true ?_
    rintro rfl
    exact absurd (mem_numeral hc) (by decide)
  rw [constructInt, hfilter, hz]
  rcases hsg with ⟨rfl, hvalue⟩ | ⟨rfl, hvalue⟩
  · have hhead : ∀ c, c ∉ "0123456789".toList → (Nat.toDigits 10 z.natAbs).head? ≠ some c :=
      fun c hc h => hc (mem_digits_of_mem_toDigits (List.mem_of_mem_head? h))
    rw [List.nil_append, if_neg (hhead _ (by decide)), if_neg (hhead _ (by decide)),
      magnitude_toDigits]
    exact congrArg some hvalue.symm
  · rw [List.singleton_append, List.head?_cons, if_pos rfl, List.tail_cons, magnitude_toDigits]
    exact congrArg some hvalue.symm

/-- **An integer is read back from its numeral.** -/
theorem readInline_numeral (z : ℤ) :
    readInline (' ' :: (toString z).toList) = some (some (.int z)) := by
  have hresolve : resolve (toString z).toList = some (.int z) := by
    rw [resolve, not_rmatch_BOOL, not_rmatch_FLOAT, rmatch_INT, constructInt_numeral]
    rfl
  have hnone : ∀ c ∈ [' ', '\t', ':', '#'], c ∉ (toString z).toList := by
    intro c hc h
    have hdisjoint : ∀ c ∈ [' ', '\t', ':', '#'], c ∉ "-0123456789".toList :=
      forall_mem_of_all (by decide)
    exact hdisjoint c hc (mem_numeral h)
  have hsettled : Settled [] (toString z).toList := by
    refine ⟨hnone _ (by simp), ?_, fun h => ?_, fun _ h => ?_⟩
    · refine List.Pairwise.isChain (List.pairwise_of_forall_mem_list fun a ha b _ => ?_)
      exact ⟨fun h => hnone ':' (by simp) (h.1 ▸ ha), fun h => hnone ' ' (by simp) (h.1 ▸ ha)⟩
    · exact hnone ' ' (by simp) (List.mem_of_getLast? h)
    · exact hnone ':' (by simp) (List.mem_of_getLast? h)
  have hstart : startsPlain (toString z).toList = true := by
    have hdigit : ∀ c ∈ "0123456789".toList, isBlank c = false ∧ c ∉ indicators :=
      forall_mem_of_all (by decide)
    obtain ⟨d, ds, hds⟩ := List.exists_cons_of_ne_nil
      (Nat.toDigits_ne_nil (n := z.natAbs) (b := 10))
    obtain ⟨hblank, hplain⟩ := hdigit d (mem_digits_of_mem_toDigits (n := z.natAbs) (by simp [hds]))
    obtain ⟨sg, hz, ⟨rfl, -⟩ | ⟨rfl, -⟩⟩ := exists_numeral z
    · rw [hz, hds, List.nil_append, startsPlain, hblank]
      simp [hplain]
    · rw [hz, hds, List.singleton_append, startsPlain]
      simp [blankNext, hblank, show isBlank '-' = false by decide]
  exact readInline_of_settled hstart hsettled hresolve

/-- **A boolean is read back from its name.** -/
theorem readInline_bool (b : Bool) :
    readInline (' ' :: (if b then "True" else "False").toList) = some (some (.bool b)) := by
  cases b <;> decide

end Integers

end Yaml

end Machinery
