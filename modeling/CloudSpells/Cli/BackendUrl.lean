import CloudSpells.Cli.PulumiYaml
import CloudSpells.Machinery.Segments
import CloudSpells.Machinery.YamlEdit

/-!
# Cli/BackendUrl — a backend put into a `Pulumi.yaml`

`_inject_backend_url` puts a `backend` block where `config:` first comes in the text of the file, or
at its end.  That is one entry more for the document where a line begins there
(`load_injectBackendUrl_iff`), and it does in a text of `pulumi_yaml` whose name and description are
one line each exactly when neither of them has `config:` in it (`beginsLine_pulumiYaml_iff`).

Either the block is put in before a line, and the lines of the document are parted (`PutBefore`), or
it is put into one, and there is no backend afterwards (`PutInto.backend_mem`).
-/

namespace CloudSpells

open Machinery Yaml Segments

/-! ## Editing the file -/

/-- The line breaks that are read of a file: a carriage return is a newline, alone or before one. -/
def universalNewlines : List Char → List Char
  | [] => []
  | c :: cs =>
    if c = '\r' then
      if cs.head? = some '\n' then universalNewlines cs else '\n' :: universalNewlines cs
    else c :: universalNewlines cs

/-- The block that is put in. -/
def backendBlock (url : String) : String := "backend:\n  url: " ++ url ++ "\n"

/-- The text with the block in it. -/
def insertBackend (url : String) (text : List Char) : List Char :=
  match text.dropInfix? "config:".toList with
  | some (before, after) => before ++ (backendBlock url ++ "config:").toList ++ after
  | none => text.rdropWhile (· = '\n') ++ ("\n" ++ backendBlock url).toList

/-- `_inject_backend_url`: the file afterwards. -/
def injectBackendUrl (file url : String) : String :=
  String.ofList (insertBackend url (universalNewlines file.toList))

/-! ## What is read of a file -/

section Newlines

variable {s t : List Char}

theorem mem_universalNewlines {c : Char} (h : c ∈ universalNewlines t) : c ∈ t ∨ c = '\n' := by
  fun_induction universalNewlines t with
  | case1 => cases h
  | case2 _ _ ih => exact (ih h).imp_left (List.mem_cons_of_mem _)
  | case3 _ _ ih =>
    rcases List.mem_cons.mp h with rfl | h
    · exact .inr rfl
    · exact (ih h).imp_left (List.mem_cons_of_mem _)
  | case4 _ _ _ ih =>
    rcases List.mem_cons.mp h with rfl | h
    · exact .inl (List.mem_cons_self ..)
    · exact (ih h).imp_left (List.mem_cons_of_mem _)

theorem printable_universalNewlines (h : Printable t) : Printable (universalNewlines t) := by
  intro c hc
  rcases mem_universalNewlines hc with hc | rfl
  · exact h c hc
  · decide

theorem universalNewlines_append (hs : '\r' ∉ s) (t : List Char) :
    universalNewlines (s ++ t) = s ++ universalNewlines t := by
  induction s with
  | nil => rfl
  | cons c s ih =>
    obtain ⟨hc, hs⟩ := not_or.mp (List.mem_cons.not.mp hs)
    rw [List.cons_append, universalNewlines, if_neg (Ne.symm hc), ih hs, List.cons_append]

/-- A text begins as it did, but for a carriage return. -/
theorem head_universalNewlines (t : List Char) :
    (universalNewlines t).head? = t.head?.map fun c => if c = '\r' then '\n' else c := by
  cases t with
  | nil => rfl
  | cons c t =>
    rw [universalNewlines]
    split_ifs with hc hnext
    · obtain ⟨t, rfl⟩ : ∃ u, t = '\n' :: u := by
        cases t with
        | nil => cases hnext
        | cons d u => exact ⟨u, congrArg (· :: u) (Option.some.inj hnext)⟩
      have hnewline := universalNewlines_append (s := ['\n']) (by decide) t
      rw [List.singleton_append] at hnewline
      rw [hnewline]
      simp [hc]
    · simp [hc]
    · simp [hc]

theorem all_head_universalNewlines {p : Char → Bool} (hp : p '\n' = p '\r') (t : List Char) :
    (universalNewlines t).head?.all p = t.head?.all p := by
  rw [head_universalNewlines, Option.all_map]
  cases t.head? with
  | none => rfl
  | some c =>
    change p (if c = '\r' then '\n' else c) = p c
    split_ifs with hc
    · rw [hp, hc]
    · rfl

theorem exists_of_universalNewlines_append {r : List Char} (hs : Unbroken s)
    (h : universalNewlines t = s ++ r) : ∃ r', t = s ++ r' ∧ universalNewlines r' = r := by
  induction s generalizing t with
  | nil => exact ⟨t, rfl, h⟩
  | cons d s ih =>
    obtain ⟨hd, hrest⟩ := unbroken_cons.mp hs
    have hhead := head_universalNewlines t
    cases t with
    | nil => cases h
    | cons c t =>
      rw [h] at hhead
      obtain rfl : d = if c = '\r' then '\n' else c := Option.some.inj hhead
      split_ifs at hd with hc
      · exact absurd hd (by decide)
      · rw [universalNewlines, if_neg hc, if_neg hc] at h
        obtain ⟨r', rfl, hr⟩ := ih hrest (List.cons.inj h).2
        exact ⟨r', by rw [if_neg hc]; rfl, hr⟩

theorem startsMarker_eq_true : startsMarker t = true ↔ ∃ m ∈ ["---".toList, "...".toList], ∃ r,
    t = m ++ r ∧ (r.head?.all fun c => isBlank c || isBreak c) = true := by
  rw [startsMarker, Bool.and_eq_true, Bool.or_eq_true, decide_eq_true_eq, decide_eq_true_eq]
  constructor
  · rintro ⟨hmark, hend⟩
    exact ⟨t.take 3, by simpa using hmark, t.drop 3, (List.take_append_drop 3 t).symm, hend⟩
  · rintro ⟨m, hm, r, rfl, hend⟩
    rcases List.mem_cons.mp hm with rfl | hm
    · exact ⟨.inl rfl, hend⟩
    · obtain rfl := List.mem_singleton.mp hm
      exact ⟨.inr rfl, hend⟩

theorem startsMarker_universalNewlines (t : List Char) :
    startsMarker (universalNewlines t) = startsMarker t := by
  have hmarks : ∀ m ∈ ["---".toList, "...".toList], Unbroken m := by decide
  rw [Bool.eq_iff_iff, startsMarker_eq_true, startsMarker_eq_true]
  refine exists_congr fun m => and_congr_right fun hm => ?_
  constructor
  · rintro ⟨r, heq, hend⟩
    obtain ⟨r', rfl, rfl⟩ := exists_of_universalNewlines_append (hmarks m hm) heq
    exact ⟨r', rfl, by rwa [all_head_universalNewlines (by decide)] at hend⟩
  · rintro ⟨r, rfl, hend⟩
    refine ⟨universalNewlines r, universalNewlines_append ?_ r, ?_⟩
    · exact fun hmem => absurd (hmarks m hm _ hmem) (by decide)
    · rwa [all_head_universalNewlines (by decide)]

/-- A carriage return ends every line, and a newline each that is not open; and it does not matter
which of them comes after. -/
structure EndsLines (k : Keep) : Prop where
  keeps : ∀ line c rest, k.keeps line c (universalNewlines rest) = k.keeps line c rest
  carriageReturn : ∀ line rest, k.keeps line '\r' rest = false
  closed : ∀ line rest, isOpen line = false → k.keeps line '\n' rest = false

theorem endsLines_none : EndsLines .none :=
  ⟨fun _ _ _ => rfl, fun _ _ => rfl, fun _ _ _ => rfl⟩

theorem endsLines_quoted : EndsLines .quoted where
  keeps line c rest := by
    change (standsForItself line c _ && _) = (standsForItself line c _ && _)
    rw [standsForItself, standsForItself, startsMarker_universalNewlines, blankNext, blankNext,
      all_head_universalNewlines (by decide)]
  carriageReturn line rest := rfl
  closed line rest h := by
    change (standsForItself line '\n' rest && isOpen line) = false
    rw [h, Bool.and_false]

/-- **The lines of the text are those of the file**, where none of them is open. -/
theorem contentLines_universalNewlines {k : Keep} (hk : EndsLines k) (line t : List Char)
    (hclosed : ∀ raw ∈ splitLines k line t, isOpen raw = false) :
    contentLines (splitLines k line (universalNewlines t)) =
      contentLines (splitLines k line t) := by
  fun_induction universalNewlines t generalizing line with
  | case1 => rfl
  | case2 cs hnext ih =>
    obtain ⟨t, rfl⟩ : ∃ t, cs = '\n' :: t := by
      cases cs with
      | nil => cases hnext
      | cons c t => exact ⟨t, congrArg (· :: t) (Option.some.inj hnext)⟩
    have hline : splitLines k line ('\r' :: '\n' :: t) = line :: [] :: splitLines k [] t := by
      rw [splitLines, hk.carriageReturn, if_pos (by decide),
        splitLines_newline unbroken_nil.getLast]
    rw [hline] at hclosed ⊢
    have hnewline : splitLines k line ('\n' :: t) = line :: splitLines k [] t := by
      rw [splitLines, hk.closed line _ (hclosed line (List.mem_cons_self ..)), if_pos (by decide)]
    -- The newline after the return ends a line with nothing on it.
    rw [ih line, hnewline]
    · rfl
    · intro raw hraw
      rw [hnewline] at hraw
      refine hclosed raw ?_
      rcases List.mem_cons.mp hraw with rfl | hraw <;> simp [*]
  | case3 cs hnext ih =>
    have hline : splitLines k line ('\r' :: cs) = line :: splitLines k [] cs := by
      rw [splitLines, hk.carriageReturn, if_pos (by decide)]
    rw [hline] at hclosed ⊢
    rw [splitLines, hk.closed line _ (hclosed line (List.mem_cons_self ..)), if_pos (by decide)]
    exact contentLines_cons_congr line (ih [] fun raw hraw => hclosed raw (by simp [hraw]))
  | case4 c cs hc ih =>
    rw [splitLines] at hclosed
    rw [splitLines, splitLines.eq_2 k line c cs, hk.keeps]
    split_ifs at hclosed ⊢
    · exact contentLines_cons_congr line (ih [] fun raw hraw => hclosed raw (by simp [hraw]))
    · exact ih _ hclosed

theorem documentLines_universalNewlines {k : Keep} (hk : EndsLines k)
    {entries : List (Scalar × Node)} (h : readAll (outlineOf k t) = some entries) :
    documentLines k (universalNewlines t) = documentLines k t :=
  contentLines_universalNewlines hk [] t fun _ hraw => closed_of_readAll h hraw

end Newlines

/-! ## The block among the lines -/

section Block

variable {url : String} {text : List Char}

/-- The first `config:` of the text, if there is one, begins a line. -/
def BeginsLine (text : List Char) : Prop := ∀ before after,
  text.dropInfix? "config:".toList = some (before, after) →
    ∀ c ∈ before.getLast?, isBreak c = true

/-- The entry that is put in. -/
def backendEntry (url : String) : Scalar × Node :=
  (.str "backend", .mapping [(.str "url", .scalar (.str url))])

/-- The lines that are put in. -/
def backendLines (url : String) : List Line :=
  [⟨0, "backend".toList ++ [':']⟩, ⟨2, "url".toList ++ ':' :: ' ' :: url.toList⟩]

theorem writable_backend : Writable 0 "backend".toList ∧ Writable 2 "url".toList := by
  refine ⟨⟨by decide, by decide, by decide⟩,
    by decide, by decide, .inl (by decide)⟩

/-- **The block is two lines**, one below the other. -/
theorem backendBlock_append (url : String) (t : List Char) : (backendBlock url).toList ++ t =
    blockLine 0 "backend".toList (valueLine 2 "url".toList url.toList t) := by
  have hlines (key key' w : List Char) : pad 0 ++ (key ++ [':']) ++
      '\n' :: (pad 2 ++ (key' ++ [':', ' '])) ++ w ++ ['\n'] ++ t =
        blockLine 0 key (valueLine 2 key' w t) := by
    simp only [blockLine, valueLine, List.append_assoc, List.cons_append, List.nil_append]
  have hstart : "backend:\n  url: ".toList = pad 0 ++ ("backend".toList ++ [':']) ++
      '\n' :: (pad 2 ++ ("url".toList ++ [':', ' '])) := by decide
  have hend : "\n".toList = ['\n'] := by decide
  calc (backendBlock url).toList ++ t
      = "backend:\n  url: ".toList ++ url.toList ++ "\n".toList ++ t :=
        congrArg (· ++ t) (String.toList_append.trans (congrArg (· ++ _) String.toList_append))
    _ = pad 0 ++ ("backend".toList ++ [':']) ++ '\n' :: (pad 2 ++ ("url".toList ++ [':', ' '])) ++
          url.toList ++ ['\n'] ++ t :=
        congrArg₂ (fun start last => start ++ url.toList ++ last ++ t) hstart hend
    _ = blockLine 0 "backend".toList (valueLine 2 "url".toList url.toList t) := hlines _ _ _

theorem toList_backendBlock (url : String) : (backendBlock url).toList =
    blockLine 0 "backend".toList (valueLine 2 "url".toList url.toList []) := by
  rw [← backendBlock_append, List.append_nil]

theorem unbroken_url (hurl : Unbroken url.toList) :
    Unbroken (pad 2 ++ ("url".toList ++ ':' :: ' ' :: url.toList)) := by
  rw [← lineStart_append]
  exact unbroken_append.mpr ⟨writable_backend.2.unbroken_start, hurl⟩

theorem splitLines_backendBlock (k : Keep) (hurl : Unbroken url.toList) (t : List Char) :
    splitLines k [] ((backendBlock url).toList ++ t) = (pad 0 ++ ("backend".toList ++ [':'])) ::
      (pad 2 ++ ("url".toList ++ ':' :: ' ' :: url.toList)) :: splitLines k [] t := by
  have hline : Unbroken (pad 0 ++ ("backend".toList ++ [':'])) := by decide
  rw [backendBlock_append, blockLine, splitLines_line hline, valueLine,
    splitLines_line (unbroken_url hurl)]

theorem documentLines_backendBlock (k : Keep) (hurl : Unbroken url.toList) (t : List Char) :
    documentLines k ((backendBlock url).toList ++ t) = backendLines url ++ documentLines k t := by
  obtain ⟨hbackend, hkey⟩ := writable_backend
  rw [documentLines, splitLines_backendBlock k hurl, contentLines_cons (hbackend.visible []),
    contentLines_cons (hkey.visible _)]
  rfl

/-- **The lines that are put in are read as the entry.** -/
theorem outline_backendLines (hurl : PlainValue url) : ∃ tree, outline (backendLines url) = [tree] ∧
    tree.indent = 0 ∧ tree.read = some (backendEntry url) := by
  obtain ⟨hbackend, hkey⟩ := writable_backend
  have hread : (Outline.node ⟨2, "url".toList ++ ':' :: ' ' :: url.toList⟩ []).read =
      some (.str "url", .scalar (.str url)) := by
    refine (hkey.read_value_iff (by simp)).mpr ⟨rfl, ?_, hurl.reads⟩
    rw [String.ofList_toList]
  refine ⟨.node ⟨0, "backend".toList ++ [':']⟩
    [.node ⟨2, "url".toList ++ ':' :: ' ' :: url.toList⟩ []], rfl, rfl, ?_⟩
  refine hbackend.read_block_iff.mpr ⟨List.cons_ne_nil _ _, readAll_cons.mpr ⟨hread, rfl⟩,
    block_eq_some.mpr ⟨rfl, List.isChain_singleton _, List.nodup_singleton _⟩, ?_⟩
  rw [String.ofList_toList]

/-- What is put at the end of a text comes after its lines. -/
theorem documentLines_rdropWhile (text t : List Char) :
    documentLines .none (text.rdropWhile (· = '\n') ++ '\n' :: t) =
      documentLines .none text ++ documentLines .none t := by
  have hsplit : text.rdropWhile (· = '\n') ++ text.rtakeWhile (· = '\n') = text :=
    List.rdropWhile_append_rtakeWhile
  have hlines := documentLines_append_newlines (s := text.rdropWhile (· = '\n'))
    (t := text.rtakeWhile (· = '\n')) fun c hc => by simpa using List.mem_rtakeWhile_imp hc
  rw [hsplit] at hlines
  rw [documentLines_append_break (by decide), hlines]

/-- Where there is no `config:`, the block comes after the text. -/
theorem insertBackend_of_none (hconfig : text.dropInfix? "config:".toList = none) :
    insertBackend url text = text.rdropWhile (· = '\n') ++ '\n' :: (backendBlock url).toList := by
  rw [insertBackend, hconfig]
  change _ ++ ("\n" ++ backendBlock url).toList = _
  rw [String.toList_append]
  rfl

/-- Where there is one, the block comes before the first. -/
theorem insertBackend_of_some {before after : List Char}
    (hconfig : text.dropInfix? "config:".toList = some (before, after)) :
    insertBackend url text =
      before ++ ((backendBlock url).toList ++ ("config:".toList ++ after)) := by
  rw [insertBackend, hconfig]
  change before ++ (backendBlock url ++ "config:").toList ++ after = _
  rw [String.toList_append, List.append_assoc, List.append_assoc]

theorem printable_insertBackend (hurl : Printable url.toList) (htext : Printable text) :
    Printable (insertBackend url text) := by
  have hblock : Printable (backendBlock url).toList := by
    rw [toList_backendBlock]
    exact printable_blockLine.mpr ⟨by decide,
      printable_valueLine.mpr ⟨by decide, hurl, by decide⟩⟩
  cases hconfig : text.dropInfix? "config:".toList with
  | none =>
    rw [insertBackend_of_none hconfig, printable_append, printable_cons]
    exact ⟨fun c hc => htext c ((List.rdropWhile_prefix _ _).subset hc), by decide, hblock⟩
  | some parts =>
    rw [(dropInfix_eq_some.mp hconfig).1, printable_append] at htext
    rw [insertBackend_of_some hconfig, printable_append, printable_append]
    exact ⟨htext.1, hblock, htext.2⟩

/-- The text begins as it did. -/
theorem head_insertBackend (url : String) (h : text.head? = some 'n') :
    (insertBackend url text).head? = some 'n' := by
  obtain ⟨t, rfl⟩ : ∃ t, text = 'n' :: t := by
    cases text with
    | nil => cases h
    | cons c t => exact ⟨t, congrArg (· :: t) (Option.some.inj h)⟩
  cases hconfig : ('n' :: t).dropInfix? "config:".toList with
  | none =>
    rw [insertBackend_of_none hconfig]
    have hprefix := List.rdropWhile_prefix (fun c => decide (c = '\n')) ('n' :: t)
    cases hkept : List.rdropWhile (fun c => decide (c = '\n')) ('n' :: t) with
    | nil => exact absurd (List.rdropWhile_eq_nil_iff.mp hkept 'n' (by simp)) (by decide)
    | cons c kept =>
      rw [hkept] at hprefix
      obtain ⟨rfl, -⟩ := List.cons_prefix_cons.mp hprefix
      rfl
  | some parts =>
    obtain ⟨before, after⟩ := parts
    have htext := (dropInfix_eq_some.mp hconfig).1
    rw [insertBackend_of_some hconfig]
    cases before with
    | nil => cases (List.cons.inj htext).1
    | cons c before =>
      obtain ⟨rfl, -⟩ := List.cons.inj htext
      rfl

/-! ### Where the block comes -/

/-- The block is put in before a line of the document. -/
def PutBefore (k : Keep) (url : String) (text : List Char) : Prop :=
  ∃ lines lines', documentLines k text = lines ++ lines' ∧
    documentLines .quoted (insertBackend url text) = lines ++ (backendLines url ++ lines') ∧
      ∀ line ∈ lines'.head?, line.indent = 0

/-- The block is put into a line: the line is cut in two at `config:`, and the backend is put at the
end of what comes before.  What comes after may go on over breaks, and then some of the lines after
it are not lines any more. -/
def PutInto (k : Keep) (url : String) (text : List Char) : Prop :=
  ∃ raws last first first' rest rest', last ≠ [] ∧ rest' ⊆ rest ∧
    documentLines k text =
      contentLines (raws ++ (last ++ ("config:".toList ++ first)) :: rest) ∧
    documentLines .quoted (insertBackend url text) =
      contentLines (raws ++ (last ++ "backend:".toList) ::
        ([pad 2 ++ ("url".toList ++ ':' :: ' ' :: url.toList)] ++
          ("config:".toList ++ first') :: rest'))

/-- After lines that do not go on, the lines of the document are parted. -/
theorem exists_documentLines_insert {k : Keep} {before after : List Char}
    (hurl : Unbroken url.toList)
    (hconfig : text.dropInfix? "config:".toList = some (before, after))
    (hbefore : ∃ raws, ∀ t, splitLines k [] (before ++ t) = raws ++ splitLines k [] t) :
    ∃ lines lines', documentLines k text = lines ++ lines' ∧
      documentLines k (insertBackend url text) = lines ++ (backendLines url ++ lines') ∧
        ∀ line ∈ lines'.head?, line.indent = 0 := by
  obtain ⟨raws, hraws⟩ := hbefore
  have hparted (t : List Char) :
      documentLines k (before ++ t) = contentLines raws ++ documentLines k t := by
    rw [documentLines, hraws t, contentLines_append]
    rfl
  refine ⟨contentLines raws, documentLines k ("config:".toList ++ after), ?_, ?_, ?_⟩
  · rw [(dropInfix_eq_some.mp hconfig).1, hparted]
  · rw [insertBackend_of_some hconfig, hparted, documentLines_backendBlock k hurl]
  · obtain ⟨content, lines, hlines⟩ := exists_documentLines_cons k (c := 'c') (by decide)
      (by decide) (by decide) ("onfig:".toList ++ after)
    intro line hline
    change line ∈ (documentLines k ('c' :: ("onfig:".toList ++ after))).head? at hline
    rw [hlines] at hline
    obtain rfl := Option.some.inj hline
    rfl

/-- **Where a line begins with the first `config:`**, the block is put in before it. -/
theorem putBefore_of_readAll {entries : List (Scalar × Node)} (hurl : PlainValue url)
    (hbegins : BeginsLine text) (h : readAll (outlineOf .none text) = some entries) :
    PutBefore .none url text := by
  have hinsert : ∃ lines lines', documentLines .none text = lines ++ lines' ∧
      documentLines .none (insertBackend url text) = lines ++ (backendLines url ++ lines') ∧
        ∀ line ∈ lines'.head?, line.indent = 0 := by
    cases hconfig : text.dropInfix? "config:".toList with
    | none =>
      refine ⟨documentLines .none text, [], (List.append_nil _).symm, ?_, fun _ h => by cases h⟩
      rw [insertBackend_of_none hconfig, documentLines_rdropWhile,
        ← List.append_nil (backendBlock url).toList, documentLines_backendBlock .none hurl.unbroken]
      rfl
    | some parts =>
      exact exists_documentLines_insert hurl.unbroken hconfig
        (exists_splitLines_append (hbegins _ _ hconfig))
  obtain ⟨lines, lines', hold, hnew, hparted⟩ := hinsert
  -- The new document is read as well, so none of its lines is open.
  obtain ⟨tree, hblock, htree, hentry⟩ := outline_backendLines hurl
  rw [outlineOf, hold] at h
  obtain ⟨before, after, -, hread, -⟩ := readAll_insert hblock htree hentry hparted h
  rw [← hnew] at hread
  refine ⟨lines, lines', hold, ?_, hparted⟩
  rw [← hnew, documentLines, documentLines,
    splitLines_quoted_of_closed fun raw hraw => closed_of_readAll hread hraw]

/-- Where none does, there is something on its line before it. -/
theorem exists_last_of_not_beginsLine (hbegins : ¬ BeginsLine text) : ∃ init last after,
    text.dropInfix? "config:".toList = some (init ++ last, after) ∧ last ≠ [] ∧ Unbroken last ∧
      ∀ c ∈ init.getLast?, isBreak c = true := by
  obtain ⟨before, after, hconfig, c, hc, hbreak⟩ : ∃ before after,
      text.dropInfix? "config:".toList = some (before, after) ∧
        ∃ c ∈ before.getLast?, isBreak c ≠ true := by
    rw [BeginsLine] at hbegins
    push Not at hbegins
    exact hbegins
  obtain ⟨init, last, rfl, hlast, hinit⟩ := exists_last_line before
  refine ⟨init, last, after, hconfig, ?_, hlast, hinit⟩
  rintro rfl
  rw [List.append_nil] at hc
  exact hbreak (hinit c hc)

/-- **Where none does**, it is put into the line that has it. -/
theorem putInto_of_readAll {entries : List (Scalar × Node)} (hurl : Unbroken url.toList)
    (hbegins : ¬ BeginsLine text) (h : readAll (outlineOf .none text) = some entries) :
    PutInto .none url text := by
  obtain ⟨init, last, after, hconfig, hne, hlast, hinit⟩ := exists_last_of_not_beginsLine hbegins
  obtain ⟨raws, hraws⟩ := exists_splitLines_append hinit
  obtain ⟨rest, hrest⟩ := exists_splitLines .none (last ++ "config:".toList) after
  have hlines : splitLines .none [] text =
      raws ++ splitLines .none (last ++ "config:".toList) after := by
    rw [(dropInfix_eq_some.mp hconfig).1, List.append_assoc, hraws, ← List.append_assoc last,
      splitLines_append (unbroken_append.mpr ⟨hlast, by decide⟩), List.nil_append]
  -- No line of the text is open, so only the one that is cut off goes on.
  have hclosed : ∀ raw ∈ splitLines .none [] text, isOpen raw = false :=
    fun raw hraw => closed_of_readAll h hraw
  rw [hlines] at hclosed
  have hbefore : splitLines .none [] (init ++ last ++ "backend:".toList) =
      raws ++ [last ++ "backend:".toList] := by
    rw [List.append_assoc, hraws, ← List.append_nil (last ++ "backend:".toList),
      splitLines_append (unbroken_append.mpr ⟨hlast, by decide⟩), List.append_nil]
    rfl
  obtain ⟨first', rest', hsub, hafter⟩ :=
    exists_splitLines_quoted (s := "config:".toList) (t := after) fun raw hraw => by
      rw [tail_splitLines_none _ (last ++ "config:".toList)] at hraw
      exact hclosed raw (List.mem_append_right _ (List.tail_subset _ hraw))
  rw [tail_splitLines_none _ (last ++ "config:".toList), hrest, List.tail_cons] at hsub
  refine ⟨raws, last, lineRest .none (last ++ "config:".toList) after, first', rest, rest', hne,
    hsub, ?_, ?_⟩
  · rw [documentLines, hlines, hrest, List.append_assoc]
  · rw [insertBackend_of_some hconfig, backendBlock_append, ← List.append_assoc]
    change documentLines .quoted (init ++ last ++ ("backend:".toList ++ '\n' :: valueLine 2
      "url".toList url.toList ("config:".toList ++ after))) = _
    rw [← List.append_assoc, documentLines, splitLines_quoted_before, hbefore, valueLine,
      splitLines_line (unbroken_url hurl), splitLines_append (by decide), List.nil_append, hafter,
      List.append_assoc]
    · rfl
    · rw [hbefore, List.dropLast_concat]
      exact fun raw hraw => hclosed raw (List.mem_append_left _ hraw)
    · have hcolon : Unbroken "backend:".toList := by decide
      rw [List.nil_append, List.getLast?_append_of_ne_nil _ (by decide)]
      exact hcolon.getLast

/-! ### Texts whose first lines end with newlines -/

/-- Up to the end of the line with the first `config:`, the breaks of the text are newlines. -/
structure Framed (text : List Char) : Prop where
  first : ∀ before after, text.dropInfix? "config:".toList = some (before, after) →
    Newlines before ∧ ∃ first rest, Unbroken first ∧ after = first ++ '\n' :: rest
  none : text.dropInfix? "config:".toList = Option.none → Newlines text

theorem framed_nil : Framed [] := by
  refine ⟨fun before after hconfig => ?_, fun _ c hc => by cases hc⟩
  have hnil := (dropInfix_eq_some.mp hconfig).1
  simp at hnil

theorem framed_config (t : List Char) : Framed ("config:".toList ++ '\n' :: t) := by
  obtain ⟨before, rest, heq, hconfig⟩ := exists_dropInfix_append
    (List.infix_refl "config:".toList) ('\n' :: t)
  have hlength := congrArg List.length heq
  simp only [List.length_append] at hlength
  obtain ⟨rfl, rfl⟩ : before = [] ∧ rest = [] :=
    ⟨List.length_eq_zero_iff.mp (by omega), List.length_eq_zero_iff.mp (by omega)⟩
  refine ⟨fun before after h => ?_, fun h => by rw [hconfig] at h; cases h⟩
  obtain ⟨rfl, rfl⟩ := Prod.mk.inj (Option.some.inj (hconfig.symm.trans h))
  exact ⟨unbroken_nil.newlines, [], t, unbroken_nil, rfl⟩

theorem framed_append_newline {a l : List Char} (ha : Unbroken a) (h : Framed l) :
    Framed (a ++ '\n' :: l) := by
  by_cases hin : "config:".toList <:+: a
  · obtain ⟨before, rest, rfl, hconfig⟩ := exists_dropInfix_append hin ('\n' :: l)
    refine ⟨fun before' after h => ?_, fun h => by rw [hconfig] at h; cases h⟩
    obtain ⟨rfl, rfl⟩ := Prod.mk.inj (Option.some.inj (hconfig.symm.trans h))
    obtain ⟨hbefore, hrest⟩ := unbroken_append.mp ha
    exact ⟨hbefore.newlines, rest, l, (unbroken_append.mp hrest).2, rfl⟩
  · have hsplit {before after : List Char} :
        (a ++ '\n' :: l).dropInfix? "config:".toList = some (before, after) ↔ ∃ before',
          before = a ++ '\n' :: before' ∧ l.dropInfix? "config:".toList = some (before', after) :=
      dropInfix_append_cons (by decide) hin
    refine ⟨fun before after hconfig => ?_, fun hconfig => ?_⟩
    · obtain ⟨before', rfl, hconfig'⟩ := hsplit.mp hconfig
      obtain ⟨hbefore, hafter⟩ := h.first before' after hconfig'
      exact ⟨newlines_append.mpr ⟨ha.newlines, newlines_cons.mpr ⟨fun _ => rfl, hbefore⟩⟩, hafter⟩
    · refine newlines_append.mpr ⟨ha.newlines, newlines_cons.mpr ⟨fun _ => rfl, h.none ?_⟩⟩
      cases hl : l.dropInfix? "config:".toList with
      | none => rfl
      | some parts => cases hconfig.symm.trans (hsplit.mpr ⟨parts.1, rfl, hl⟩)

theorem newlines_insertBackend (hurl : Unbroken url.toList)
    (hconfig : text.dropInfix? "config:".toList = none) (htext : Newlines text) :
    Newlines (insertBackend url text) := by
  have hkey : Unbroken (pad 0 ++ ("backend".toList ++ [':'])) := by decide
  have hline {s t : List Char} (hs : Newlines s) (ht : Newlines t) : Newlines (s ++ '\n' :: t) :=
    newlines_append.mpr ⟨hs, newlines_cons.mpr ⟨fun _ => rfl, ht⟩⟩
  rw [insertBackend_of_none hconfig, toList_backendBlock]
  exact hline (fun c hc => htext c ((List.rdropWhile_prefix _ _).subset hc))
    (hline hkey.newlines (hline (unbroken_url hurl).newlines unbroken_nil.newlines))

/-- The same where the breaks are newlines as far as the line with the first `config:`. -/
theorem putBefore_of_framed (hurl : Unbroken url.toList) (hbegins : BeginsLine text)
    (h : Framed text) : PutBefore .quoted url text := by
  cases hconfig : text.dropInfix? "config:".toList with
  | none =>
    refine ⟨documentLines .quoted text, [], (List.append_nil _).symm, ?_, fun _ h => by cases h⟩
    rw [documentLines_of_newlines _ (newlines_insertBackend hurl hconfig (h.none hconfig)),
      documentLines_of_newlines _ (h.none hconfig), insertBackend_of_none hconfig,
      documentLines_rdropWhile, ← List.append_nil (backendBlock url).toList,
      documentLines_backendBlock .none hurl]
    rfl
  | some parts =>
    obtain ⟨raws, hraws⟩ := exists_splitLines_newlines (h.first _ _ hconfig).1 (hbegins _ _ hconfig)
    exact exists_documentLines_insert hurl hconfig ⟨raws, hraws .quoted⟩

theorem putInto_of_framed (hurl : Unbroken url.toList) (hbegins : ¬ BeginsLine text)
    (h : Framed text) : PutInto .quoted url text := by
  obtain ⟨init, last, after, hconfig, hne, hlast, hinit⟩ := exists_last_of_not_beginsLine hbegins
  obtain ⟨hbefore, first, rest, hfirst, rfl⟩ := h.first _ _ hconfig
  obtain ⟨raws, hraws⟩ := exists_splitLines_newlines (newlines_append.mp hbefore).1 hinit
  refine ⟨raws, last, first, first, splitLines .quoted [] rest, splitLines .quoted [] rest, hne,
    List.Subset.refl _, ?_, ?_⟩
  · have htext : text = init ++ (last ++ ("config:".toList ++ first) ++ '\n' :: rest) := by
      rw [(dropInfix_eq_some.mp hconfig).1]
      simp only [List.append_assoc]
    rw [documentLines, htext, hraws, splitLines_line]
    exact unbroken_append.mpr ⟨hlast, unbroken_append.mpr ⟨by decide, hfirst⟩⟩
  · have htext : insertBackend url text = init ++ (last ++ "backend:".toList ++
        '\n' :: valueLine 2 "url".toList url.toList
          ("config:".toList ++ first ++ '\n' :: rest)) := by
      rw [insertBackend_of_some hconfig, backendBlock_append, ← List.append_assoc "config:".toList]
      change init ++ last ++ ("backend:".toList ++ '\n' :: _) = _
      simp only [List.append_assoc]
    rw [documentLines, htext, hraws, splitLines_line, valueLine,
      splitLines_line (unbroken_url hurl), splitLines_line]
    · rfl
    · exact unbroken_append.mpr ⟨by decide, hfirst⟩
    · exact unbroken_append.mpr ⟨hlast, by decide⟩

/-! ### What is put into a line -/

/-- **Into a line, no backend is put.** -/
theorem PutInto.backend_mem {k : Keep} {entries : List (Scalar × Node)} {line : Line}
    {tail : List Char} (hput : PutInto k url text) (h : readAll (outlineOf k text) = some entries)
    (hline : line ∈ documentLines .quoted (insertBackend url text)) (hindent : line.indent = 0)
    (hkey : line.key = some (.str "backend", tail)) : .str "backend" ∈ entries.map Prod.fst := by
  obtain ⟨raws, last, first, first', rest, rest', hne, hsub, hold, hnew⟩ := hput
  rw [outlineOf, hold] at h
  rw [hnew] at hline
  have hcut : CutWords "backend:".toList ("config:".toList ++ first) :=
    ⟨⟨'b', "ackend:".toList, by decide, by decide⟩,
      ⟨'c', "onfig:".toList ++ first, rfl, by decide⟩, by decide, by decide⟩
  have hblock : ∀ line ∈ contentLines [pad 2 ++ ("url".toList ++ ':' :: ' ' :: url.toList)],
      line.indent ≠ 0 := by
    intro line hline
    rw [contentLines_cons (writable_backend.2.visible _)] at hline
    obtain rfl := List.mem_singleton.mp hline
    simp
  rcases mem_keys_of_cut hne hcut hblock hsub h hline hindent hkey with hmem | rfl | hresolve
  · exact hmem
  · -- Its key begins as `config:` does.
    have hreadKey : readKey ('c' :: ("onfig:".toList ++ first')) = some (.str "backend", tail) := by
      rw [Line.key] at hkey
      split_ifs at hkey
      exact hkey
    have hprefix := prefix_of_readKey (by decide) hreadKey
    exact absurd (List.cons_prefix_cons.mp hprefix).1 (by decide)
  · have hscan : (scanPlain "backend:".toList).1 = "backend".toList := by decide
    rw [hscan] at hresolve
    obtain ⟨v, hv, hstring⟩ := Option.map_eq_some_iff.mp hresolve
    have hlength := congrArg (fun s => s.toList.length) (eq_of_resolve hv hstring)
    simp only [String.toList_ofList, List.length_append] at hlength
    exact absurd (List.length_eq_zero_iff.mp (by omega)) hne

/-! ### Where `config:` first comes -/

section First

variable {a l t : List Char} {projectName description : String}

theorem beginsLine_append_newline (ha : ¬ "config:".toList <:+: a) :
    BeginsLine (a ++ '\n' :: l) ↔ BeginsLine l := by
  have hsep : '\n' ∉ "config:".toList := by decide
  have hlast (before : List Char) : (∀ c ∈ (a ++ '\n' :: before).getLast?, isBreak c = true) ↔
      ∀ c ∈ before.getLast?, isBreak c = true := by
    cases before with
    | nil => simp [isBreak]
    | cons c before => rw [List.getLast?_append_cons, List.getLast?_cons_cons]
  constructor
  · intro h before after hconfig
    exact (hlast before).mp (h _ after ((dropInfix_append_cons hsep ha).mpr ⟨before, rfl, hconfig⟩))
  · intro h before after hconfig
    obtain ⟨before', rfl, hconfig'⟩ := (dropInfix_append_cons hsep ha).mp hconfig
    exact (hlast before').mpr (h before' after hconfig')

/-- **Within a line, `config:` begins none.** -/
theorem not_beginsLine_append (hline : Unbroken a) (hstart : ¬ "config:".toList <+: a)
    (ha : "config:".toList <:+: a) (t : List Char) : ¬ BeginsLine (a ++ t) := by
  obtain ⟨before, rest, rfl, hconfig⟩ := exists_dropInfix_append ha t
  intro hbegins
  cases hlast : before.getLast? with
  | none =>
    -- Then the line would begin with it.
    obtain rfl := List.getLast?_eq_none_iff.mp hlast
    exact hstart ⟨rest, rfl⟩
  | some c =>
    have hbreak := hbegins before _ hconfig c hlast
    rw [hline c (by simp [List.mem_of_mem_getLast? hlast])] at hbreak
    cases hbreak

theorem beginsLine_of_head (h : t = [] ∨ "config:".toList <+: t) : BeginsLine t := by
  intro before after hconfig
  obtain ⟨heq, hfirst⟩ := dropInfix_eq_some.mp hconfig
  rcases h with rfl | ⟨after', rfl⟩
  · rw [List.append_eq_nil_iff.mp heq.symm |>.1]
    simp
  · rw [List.length_eq_zero_iff.mp (Nat.le_zero.mp (hfirst [] after' rfl))]
    simp

theorem universalNewlines_valueLine {i : ℕ} {key w : List Char} (hkey : '\r' ∉ key)
    (hw : '\r' ∉ w) (t : List Char) :
    universalNewlines (valueLine i key w t) = valueLine i key w (universalNewlines t) := by
  have hline : '\r' ∉ pad i ++ (key ++ ':' :: ' ' :: w) ++ ['\n'] := by
    simp [pad, hkey, hw]
  have hsplit (t : List Char) :
      valueLine i key w t = pad i ++ (key ++ ':' :: ' ' :: w) ++ ['\n'] ++ t := by
    simp [valueLine]
  rw [hsplit, hsplit, universalNewlines_append hline]

theorem universalNewlines_blockLine {i : ℕ} {key : List Char} (hkey : '\r' ∉ key)
    (t : List Char) :
    universalNewlines (blockLine i key t) = blockLine i key (universalNewlines t) := by
  have hline : '\r' ∉ pad i ++ (key ++ [':']) ++ ['\n'] := by simp [pad, hkey]
  have hsplit (t : List Char) : blockLine i key t = pad i ++ (key ++ [':']) ++ ['\n'] ++ t := by
    simp [blockLine]
  rw [hsplit, hsplit, universalNewlines_append hline]

theorem return_notMem_of_unbroken (h : Unbroken a) : '\r' ∉ a := fun hmem =>
  absurd (h _ hmem) (by decide)

/-- What is read after the header begins with `config:`, if there is anything. -/
theorem beginsLine_writeConfig (configKeys : List ConfigKey) :
    BeginsLine (universalNewlines (writeConfig configKeys)) := by
  refine beginsLine_of_head ?_
  rw [writeConfig]
  split_ifs
  · exact .inl rfl
  · right
    rw [universalNewlines_blockLine (by decide)]
    exact ⟨'\n' :: universalNewlines (writeKeys configKeys), by simp [blockLine, pad]⟩

/-- **After a key, `config:` begins no line**, in the value of the key. -/
theorem beginsLine_valueLine_iff (c : Char) (key : List Char) {w : List Char} (hc : c ≠ 'c')
    (hkey : Unbroken (c :: key)) (hnone : ¬ "config:".toList <:+: c :: (key ++ [':']))
    (hw : Unbroken w) (t : List Char) :
    BeginsLine (valueLine 0 (c :: key) w t) ↔ ¬ "config:".toList <:+: w ∧ BeginsLine t := by
  have hsplit : valueLine 0 (c :: key) w t = (c :: (key ++ [':']) ++ ' ' :: w) ++ '\n' :: t := by
    simp [valueLine, pad]
  have hin : "config:".toList <:+: c :: (key ++ [':']) ++ ' ' :: w ↔ "config:".toList <:+: w := by
    rw [infix_append_cons (by decide)]
    exact or_iff_right hnone
  have hline : Unbroken (c :: (key ++ [':']) ++ ' ' :: w) := by
    obtain ⟨hc, hkey⟩ := unbroken_cons.mp hkey
    exact unbroken_append.mpr ⟨unbroken_cons.mpr ⟨hc, unbroken_append.mpr ⟨hkey, by decide⟩⟩,
      unbroken_cons.mpr ⟨by decide, hw⟩⟩
  rw [hsplit]
  by_cases h : "config:".toList <:+: w
  · refine iff_of_false (not_beginsLine_append hline (fun hstart => ?_) (hin.mpr h) _)
      fun hand => hand.1 h
    exact hc (List.cons_prefix_cons.mp hstart).1.symm
  · rw [beginsLine_append_newline fun hconfig => h (hin.mp hconfig)]
    exact (and_iff_right h).symm

/-- A file of `pulumi_yaml` whose name and description are one line each. -/
theorem universalNewlines_pulumiYaml (hname : Unbroken projectName.toList)
    (hdescription : Unbroken description.toList) (configKeys : List ConfigKey) :
    universalNewlines (pulumiYaml projectName description configKeys).toList =
      writeHeader projectName description (universalNewlines (writeConfig configKeys)) := by
  rw [toList_pulumiYaml, writeHeader,
    universalNewlines_valueLine (by decide) (return_notMem_of_unbroken hname),
    universalNewlines_blockLine (by decide),
    universalNewlines_valueLine (by decide) (by decide),
    universalNewlines_valueLine (by decide) (return_notMem_of_unbroken hdescription)]
  rfl

/-- Its only breaks are newlines, as far as the config keys. -/
theorem framed_pulumiYaml (hname : Unbroken projectName.toList)
    (hdescription : Unbroken description.toList) (configKeys : List ConfigKey) :
    Framed (universalNewlines (pulumiYaml projectName description configKeys).toList) := by
  have hvalue {i : ℕ} {key w : List Char} (hkey : Unbroken key) (hw : Unbroken w) {t : List Char}
      (ht : Framed t) : Framed (valueLine i key w t) :=
    framed_append_newline (unbroken_append.mpr ⟨unbroken_pad i, unbroken_append.mpr
      ⟨hkey, unbroken_cons.mpr ⟨by decide, unbroken_cons.mpr ⟨by decide, hw⟩⟩⟩⟩) ht
  have hconfig : Framed (universalNewlines (writeConfig configKeys)) := by
    rw [writeConfig]
    split_ifs
    · exact framed_nil
    · rw [universalNewlines_blockLine (by decide)]
      exact framed_config _
  rw [universalNewlines_pulumiYaml hname hdescription, writeHeader]
  exact hvalue (by decide) hname (framed_append_newline (by decide)
    (hvalue (by decide) (by decide) (hvalue (by decide) hdescription hconfig)))

/-- **In a text of `pulumi_yaml`, the first `config:` begins a line** where the name and the
description, one line each, have none in them. -/
theorem beginsLine_pulumiYaml_iff (hname : Unbroken projectName.toList)
    (hdescription : Unbroken description.toList) (configKeys : List ConfigKey) :
    BeginsLine (universalNewlines (pulumiYaml projectName description configKeys).toList) ↔
      ¬ "config:".toList <:+: projectName.toList ∧
        ¬ "config:".toList <:+: description.toList := by
  have hruntime (t : List Char) : BeginsLine (blockLine 0 "runtime".toList t) ↔ BeginsLine t :=
    beginsLine_append_newline (by decide)
  have hpython (t : List Char) :
      BeginsLine (valueLine 2 "name".toList "python".toList t) ↔ BeginsLine t :=
    beginsLine_append_newline (by decide)
  have hfirst := beginsLine_valueLine_iff 'n' "ame".toList (by decide)
    (by decide) (by decide) hname
  have hthird := beginsLine_valueLine_iff 'd' "escription".toList (by decide)
    (by decide) (by decide) hdescription
  rw [universalNewlines_pulumiYaml hname hdescription, writeHeader]
  refine (hfirst _).trans (and_congr_right fun _ => ?_)
  rw [hruntime, hpython]
  exact (hthird _).trans (and_iff_left (beginsLine_writeConfig configKeys))

end First

/-! ### The document afterwards -/

/-- What the rewritten file is read as. -/
theorem load_injectBackendUrl_eq_some {file : String} (url : String)
    (hfile : file.toList.head? = some 'n') {entries : List (Scalar × Node)} :
    load (injectBackendUrl file url) = some entries ↔
      readAll (outlineOf .quoted (insertBackend url (universalNewlines file.toList))) =
          some entries ∧
        Printable (insertBackend url (universalNewlines file.toList)) ∧
        (∀ tree ∈ outlineOf .quoted (insertBackend url (universalNewlines file.toList)),
          tree.indent = 0) ∧ (entries.map Prod.fst).Nodup := by
  have htext : (universalNewlines file.toList).head? = some 'n' := by
    rw [head_universalNewlines, hfile]
    rfl
  have hinjected : (injectBackendUrl file url).toList =
      insertBackend url (universalNewlines file.toList) := by
    rw [injectBackendUrl, String.toList_ofList]
  have hhead := head_insertBackend url htext
  rw [← hinjected] at hhead
  rw [load, loadWith_cons_eq_some hhead (by decide) (by decide) (by decide) (by decide),
    hinjected]

/-- **The backend is all that is added** exactly where the block is put in before a line, and there
was no backend. -/
theorem load_insert_iff {k : Keep} {file : String} {original : List (Scalar × Node)}
    (hk : EndsLines k) (hurl : PlainValue url) (hfile : file.toList.head? = some 'n')
    (horiginal : loadWith k file = some original)
    (hbefore : BeginsLine (universalNewlines file.toList) →
      PutBefore k url (universalNewlines file.toList))
    (hinto : ¬ BeginsLine (universalNewlines file.toList) →
      PutInto k url (universalNewlines file.toList)) :
    (∃ before after, original = before ++ after ∧
        load (injectBackendUrl file url) = some (before ++ backendEntry url :: after)) ↔
      BeginsLine (universalNewlines file.toList) ∧ .str "backend" ∉ original.map Prod.fst := by
  obtain ⟨hread, hprint, hindent, hnodup⟩ := (loadWith_cons_eq_some hfile (by decide)
    (by decide) (by decide) (by decide)).mp horiginal
  have hlines := documentLines_universalNewlines hk hread
  rw [outlineOf, ← hlines] at hread hindent
  constructor
  · rintro ⟨before, after, rfl, hnew⟩
    obtain ⟨hread', -, hindent', hnodup'⟩ := (load_injectBackendUrl_eq_some url hfile).mp hnew
    have hnone : .str "backend" ∉ (before ++ after).map Prod.fst := by
      rw [List.map_append, List.map_cons, List.nodup_middle, List.nodup_cons] at hnodup'
      rw [List.map_append]
      exact hnodup'.1
    refine ⟨?_, hnone⟩
    by_contra hbegins
    have hmem : backendEntry url ∈ before ++ backendEntry url :: after := by simp
    obtain ⟨⟨line, children⟩, htree, hentry⟩ := exists_tree_of_mem hread' hmem
    obtain ⟨-, tail, -, -, hkey, -⟩ := read_eq_some.mp hentry
    exact hnone ((hinto hbegins).backend_mem hread (mem_of_mem_outline htree) (hindent' _ htree)
      hkey)
  · rintro ⟨hbegins, hnone⟩
    obtain ⟨lines, lines', hold, hnew, hparted⟩ := hbefore hbegins
    obtain ⟨tree, hblock, htree, hentry⟩ := outline_backendLines hurl
    rw [hold] at hread hindent
    obtain ⟨before, after, rfl, hread', hmem⟩ := readAll_insert hblock htree hentry hparted hread
    rw [← hnew] at hread' hmem
    refine ⟨before, after, rfl, (load_injectBackendUrl_eq_some url hfile).mpr
      ⟨hread', ?_, fun tree' htree' => ?_, ?_⟩⟩
    · exact printable_insertBackend hurl.printable (printable_universalNewlines hprint)
    · rcases hmem tree' htree' with rfl | hold
      · exact htree
      · exact hindent tree' hold
    · rw [List.map_append] at hnodup hnone ⊢
      rw [List.map_cons, List.nodup_middle, List.nodup_cons]
      exact ⟨hnone, hnodup⟩

/-- **The backend is all that is added** exactly where a line begins with the first `config:`, and
there was none. -/
theorem load_injectBackendUrl_iff (projectName description : String) (configKeys : List ConfigKey)
    (url : String) (original : List (Scalar × Node)) (hurl : PlainValue url)
    (horiginal : load (pulumiYaml projectName description configKeys) = some original)
    (hlines : Unbroken projectName.toList ∧ Unbroken description.toList ∨
      loadLines (pulumiYaml projectName description configKeys) = some original) :
    (∃ before after, original = before ++ after ∧
        load (injectBackendUrl (pulumiYaml projectName description configKeys) url) =
          some (before ++ backendEntry url :: after)) ↔
      BeginsLine (universalNewlines (pulumiYaml projectName description configKeys).toList) ∧
        .str "backend" ∉ original.map Prod.fst := by
  have hfile : (pulumiYaml projectName description configKeys).toList.head? = some 'n' := by
    rw [toList_pulumiYaml, head_writeHeader]
  rcases hlines with ⟨hname, hdescription⟩ | hlines
  · have hframed := framed_pulumiYaml hname hdescription configKeys
    exact load_insert_iff endsLines_quoted hurl hfile horiginal
      (fun hbegins => putBefore_of_framed hurl.unbroken hbegins hframed)
      fun hbegins => putInto_of_framed hurl.unbroken hbegins hframed
  · have hread := (loadWith_eq_some.mp hlines).1
    rw [outlineOf, ← documentLines_universalNewlines endsLines_none hread] at hread
    exact load_insert_iff endsLines_none hurl hfile hlines
      (fun hbegins => putBefore_of_readAll hurl hbegins hread)
      fun hbegins => putInto_of_readAll hurl.unbroken hbegins hread

/-- A backend for the state of a small network. -/
theorem load_injectBackendUrl_iff_vcn : ∃ original,
    load (pulumiYaml "shop" "Network" [⟨"zones", "int", "Zones", some (.int 3)⟩]) = some original ∧
      ∃ before after, original = before ++ after ∧
        load (injectBackendUrl
          (pulumiYaml "shop" "Network" [⟨"zones", "int", "Zones", some (.int 3)⟩]) "s3://state") =
            some (before ++ backendEntry "s3://state" :: after) := by
  have hkeys :
      (load (pulumiYaml "shop" "Network" [⟨"zones", "int", "Zones", some (.int 3)⟩])).map
        (fun entries => entries.map Prod.fst) =
          some [.str "name", .str "runtime", .str "description", .str "config"] := by
    decide +kernel
  have hlines : Unbroken "shop".toList ∧ Unbroken "Network".toList := by decide +kernel
  obtain ⟨original, horiginal, heq⟩ := Option.map_eq_some_iff.mp hkeys
  refine ⟨original, horiginal, (load_injectBackendUrl_iff _ _ _ _ _ (by decide +kernel) horiginal
    (.inl hlines)).mpr ⟨?_, ?_⟩⟩
  · exact (beginsLine_pulumiYaml_iff hlines.1 hlines.2 _).mpr ⟨by decide +kernel, by decide +kernel⟩
  · rw [heq]
    decide

/-- A project may have `config:` in its name, and then the document is not read any more. -/
theorem not_load_injectBackendUrl_config : PlainValue "my-config:x" ∧
    ∃ original, load (pulumiYaml "my-config:x" "Network" []) = some original ∧
      ¬ ∃ before after, original = before ++ after ∧
        load (injectBackendUrl (pulumiYaml "my-config:x" "Network" [])
          "s3://state") = some (before ++ backendEntry "s3://state" :: after) := by
  have hsome : (load (pulumiYaml "my-config:x" "Network" [])).isSome = true := by
    decide +kernel
  have hnone : (load (injectBackendUrl (pulumiYaml "my-config:x" "Network" [])
      "s3://state")).isNone = true := by decide +kernel
  obtain ⟨original, horiginal⟩ := Option.isSome_iff_exists.mp hsome
  refine ⟨by decide +kernel, original, horiginal, ?_⟩
  rintro ⟨before, after, -, hload⟩
  rw [hload] at hnone
  cases hnone

end Block

end CloudSpells
