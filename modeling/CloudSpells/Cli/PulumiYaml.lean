import CloudSpells.Machinery.Yaml

/-!
# Cli/PulumiYaml — the `Pulumi.yaml` of a spell

`pulumi_yaml` writes its texts into the lines of a document as they are: a default that is a string
between quotes, the others plain.  YAML reads the document back as the manifest that was meant
exactly where each text stands for itself there (`load_pulumiYaml_iff`): a name that is all digits
is read as a number, and a default with a backslash in it as another text.
-/

namespace CloudSpells

open Machinery Yaml

/-! ## Writing a manifest -/

/-- The default of a config key. -/
inductive ConfigDefault
  | str (s : String)
  | int (z : ℤ)
  | bool (b : Bool)
  deriving DecidableEq, Repr

/-- `ConfigKey`. -/
structure ConfigKey where
  name : String
  type : String
  description : String
  default : Option ConfigDefault
  deriving DecidableEq, Repr

/-- What is written of a default: a string between quotes, another value as `str` has it. -/
def ConfigDefault.text : ConfigDefault → String
  | str s => "\"" ++ s ++ "\""
  | int z => toString z
  | bool b => if b then "True" else "False"

/-- The lines of a config key. -/
def ConfigKey.lines (key : ConfigKey) : List String :=
  ["  " ++ key.name ++ ":", "    type: " ++ key.type, "    description: " ++ key.description] ++
    (key.default.map fun default => "    default: " ++ default.text).toList

/-- `pulumi_yaml`. -/
def pulumiYaml (projectName description : String) (configKeys : List ConfigKey) : String :=
  let lines := ["name: " ++ projectName, "runtime:", "  name: python",
    "description: " ++ description]
  let lines :=
    if configKeys = [] then lines else lines ++ "config:" :: configKeys.flatMap ConfigKey.lines
  "\n".intercalate lines ++ "\n"

/-! ## The manifest that is meant -/

/-- The value of a default. -/
def ConfigDefault.value : ConfigDefault → Scalar
  | str s => .str s
  | int z => .int z
  | bool b => .bool b

/-- The entry of a config key. -/
def ConfigKey.entry (key : ConfigKey) : Scalar × Node :=
  (.str key.name, .mapping ([(.str "type", .scalar (.str key.type)),
    (.str "description", .scalar (.str key.description))] ++
      (key.default.map fun default => (.str "default", .scalar default.value)).toList))

/-- The entries of the config keys, where there are any. -/
def configEntries (configKeys : List ConfigKey) : List (Scalar × Node) :=
  if configKeys = [] then [] else [(.str "config", .mapping (configKeys.map ConfigKey.entry))]

/-- The entries of a manifest. -/
def manifestEntries (projectName description : String) (configKeys : List ConfigKey) :
    List (Scalar × Node) :=
  [(.str "name", .scalar (.str projectName)),
    (.str "runtime", .mapping [(.str "name", .scalar (.str "python"))]),
    (.str "description", .scalar (.str description))] ++ configEntries configKeys

/-- A text that stands for itself as a value: of one line, of characters YAML has, and plain. -/
structure PlainValue (s : String) : Prop where
  unbroken : Unbroken s.toList
  printable : Printable s.toList
  plain : PlainText s.toList

instance (s : String) : Decidable (PlainValue s) :=
  decidable_of_iff (Unbroken s.toList ∧ Printable s.toList ∧ PlainText s.toList)
    ⟨fun ⟨h₁, h₂, h₃⟩ => ⟨h₁, h₂, h₃⟩, fun ⟨h₁, h₂, h₃⟩ => ⟨h₁, h₂, h₃⟩⟩

/-- A text that stands for itself between quotes: of characters YAML has, without a quote or an
escape in it, and each break in it one that YAML keeps. -/
structure QuotedValue (s : String) : Prop where
  printable : Printable s.toList
  quoted : QuotedText s.toList
  breaks : breaksStand [doubleQuote] (s.toList ++ [doubleQuote]) = true

instance (s : String) : Decidable (QuotedValue s) :=
  decidable_of_iff (Printable s.toList ∧ QuotedText s.toList ∧
      breaksStand [doubleQuote] (s.toList ++ [doubleQuote]) = true)
    ⟨fun ⟨h₁, h₂, h₃⟩ => ⟨h₁, h₂, h₃⟩, fun ⟨h₁, h₂, h₃⟩ => ⟨h₁, h₂, h₃⟩⟩

/-- A config key whose texts stand for themselves. -/
structure Encodable (key : ConfigKey) : Prop where
  nameUnbroken : Unbroken key.name.toList
  namePrintable : Printable key.name.toList
  nameText : KeyText key.name.toList
  type : PlainValue key.type
  description : PlainValue key.description
  default : ∀ s, key.default = some (.str s) → QuotedValue s

/-- The string that a default is, if it is one. -/
def ConfigDefault.str? : ConfigDefault → Option String
  | str s => some s
  | int _ => none
  | bool _ => none

theorem ConfigDefault.str?_eq_some {default : ConfigDefault} {s : String} :
    default.str? = some s ↔ default = .str s := by
  cases default <;> simp [str?]

instance (key : ConfigKey) : Decidable (Encodable key) :=
  decidable_of_iff (Unbroken key.name.toList ∧ Printable key.name.toList ∧
      KeyText key.name.toList ∧ PlainValue key.type ∧ PlainValue key.description ∧
        ∀ s ∈ key.default.bind ConfigDefault.str?, QuotedValue s) <| by
    simp only [Option.mem_def, Option.bind_eq_some_iff, ConfigDefault.str?_eq_some,
      exists_eq_right]
    exact ⟨fun ⟨h₁, h₂, h₃, h₄, h₅, h₆⟩ => ⟨h₁, h₂, h₃, h₄, h₅, h₆⟩,
      fun ⟨h₁, h₂, h₃, h₄, h₅, h₆⟩ => ⟨h₁, h₂, h₃, h₄, h₅, h₆⟩⟩

/-! ## The text of a manifest -/

section Text

variable {i : ℕ} {t : List Char} {key : ConfigKey} {configKeys : List ConfigKey}

/-- A line whose value is the text that is written. -/
def plainEntry (key text : String) : Entry := ⟨key.toList, text.toList, .str text⟩

/-- The lines below the name of a config key. -/
def ConfigKey.entries (key : ConfigKey) : List Entry :=
  [plainEntry "type" key.type, plainEntry "description" key.description] ++
    (key.default.map fun default => ⟨"default".toList, default.text.toList, default.value⟩).toList

/-- The lines of a config key, and what comes after them. -/
def ConfigKey.write (key : ConfigKey) (t : List Char) : List Char :=
  blockLine 2 key.name.toList (writeEntries 4 key.entries t)

/-- The lines of the config keys. -/
def writeKeys (configKeys : List ConfigKey) : List Char := configKeys.foldr ConfigKey.write []

/-- The lines after the header. -/
def writeConfig (configKeys : List ConfigKey) : List Char :=
  if configKeys = [] then [] else blockLine 0 "config".toList (writeKeys configKeys)

/-- The header, and what comes after it. -/
def writeHeader (projectName description : String) (t : List Char) : List Char :=
  valueLine 0 "name".toList projectName.toList (blockLine 0 "runtime".toList
    (valueLine 2 "name".toList "python".toList
      (valueLine 0 "description".toList description.toList t)))

theorem toList_join {lines : List String} (h : lines ≠ []) :
    ("\n".intercalate lines ++ "\n").toList = lines.flatMap fun line => line.toList ++ ['\n'] := by
  induction lines with
  | nil => exact absurd rfl h
  | cons line lines ih =>
    cases lines with
    | nil =>
      rw [String.intercalate_singleton, String.toList_append, List.flatMap_cons, List.flatMap_nil,
        List.append_nil]
      rfl
    | cons line' lines =>
      rw [String.intercalate_cons_cons, String.append_assoc, String.toList_append,
        ih (by simp), List.flatMap_cons, String.toList_append]
      rfl

theorem flatMap_lines (configKeys : List ConfigKey) :
    (configKeys.flatMap ConfigKey.lines).flatMap (fun line => line.toList ++ ['\n']) =
      writeKeys configKeys := by
  induction configKeys with
  | nil => rfl
  | cons key configKeys ih =>
    rw [List.flatMap_cons, List.flatMap_append, ih]
    change _ = key.write (writeKeys configKeys)
    cases hdefault : key.default with
    | none =>
      simp [ConfigKey.lines, ConfigKey.write, ConfigKey.entries, plainEntry, writeEntries,
        blockLine, valueLine, hdefault, pad]
    | some default =>
      simp [ConfigKey.lines, ConfigKey.write, ConfigKey.entries, plainEntry, writeEntries,
        blockLine, valueLine, hdefault, pad]

/-- **What `pulumi_yaml` writes**, line by line. -/
theorem toList_pulumiYaml (projectName description : String) (configKeys : List ConfigKey) :
    (pulumiYaml projectName description configKeys).toList =
      writeHeader projectName description (writeConfig configKeys) := by
  rw [pulumiYaml, toList_join (by split <;> simp)]
  by_cases h : configKeys = []
  · simp [h, writeHeader, writeConfig, valueLine, blockLine, pad]
  · simp [h, writeHeader, writeConfig, valueLine, blockLine, pad, ← flatMap_lines]

end Text

/-! ## Reading it back -/

section Read

variable {i : ℕ} {t : List Char} {key : ConfigKey} {configKeys : List ConfigKey}
  {default : ConfigDefault} {entries : List (Scalar × Node)} {text : String}

/-- The keys of a manifest may be written. -/
theorem writable_of_mem {s : String} (h : s ∈ ["name", "runtime", "description", "config", "type",
    "default"]) (i : ℕ) : Writable i s.toList := by
  have hall : ∀ s ∈ ["name", "runtime", "description", "config", "type", "default"],
      KeyText s.toList ∧ Unbroken s.toList ∧ s.toList.head? ≠ some '-' ∧
        s.toList.head? ≠ some '.' := by decide
  obtain ⟨htext, hunbroken, hmarker⟩ := hall s h
  exact ⟨htext, hunbroken, .inr hmarker⟩

/-! ### Values -/

theorem PlainValue.reads (h : PlainValue text) :
    readInline (' ' :: text.toList) = some (some (.str text)) := by
  have hread := readInline_plain_iff.mpr h.plain
  rwa [String.ofList_toList] at hread

/-- **What was read of a plain text** is the text where it is plain. -/
theorem plain_of_reads {name : List Char} (hname : Writable i name) (ht : Apart t)
    (h : readInline (' ' :: valueRest .quoted i name text.toList t) = some (some (.str text))) :
    Whole .quoted i name text.toList t ∧ Unbroken text.toList ∧ PlainText text.toList := by
  refine hname.plain_of_valueRest ht ?_
  rwa [String.ofList_toList]

theorem toList_text_str (text : String) :
    (ConfigDefault.str text).text.toList = doubleQuote :: (text.toList ++ [doubleQuote]) := by
  rw [ConfigDefault.text, String.toList_append, String.toList_append]
  rfl

/-- A default that is no string is one line. -/
theorem unbroken_text (h : ∀ text, default ≠ .str text) : Unbroken default.text.toList := by
  cases default with
  | str text => exact absurd rfl (h text)
  | int z =>
    have hall : ∀ c ∈ "-0123456789".toList, isBreak c = false :=
      Regex.forall_mem_of_all (by decide)
    exact fun c hc => hall c (mem_numeral hc)
  | bool b =>
    cases b with
    | false =>
      change Unbroken "False".toList
      decide
    | true =>
      change Unbroken "True".toList
      decide

/-- **A default is written as it is read**, where a string may be quoted. -/
theorem default_reads {name : List Char} (hname : Writable i name)
    (h : ∀ text, default = .str text → QuotedValue text) :
    (∀ t, Whole .quoted i name default.text.toList t) ∧
      readInline (' ' :: default.text.toList) = some (some default.value) := by
  cases default with
  | str text =>
    have hquoted := h text rfl
    rw [toList_text_str]
    refine ⟨fun t => (hname.whole_quoted_iff hquoted.quoted t).mpr hquoted.breaks, ?_⟩
    have hread := readInline_quoted_iff.mpr hquoted.quoted
    rwa [String.ofList_toList] at hread
  | int z =>
    exact ⟨fun t => hname.whole_of_unbroken (unbroken_text (by simp)), readInline_numeral z⟩
  | bool b => exact ⟨fun t => hname.whole_of_unbroken (unbroken_text (by simp)), readInline_bool b⟩

/-- **What was read of a default** is the default, and where it is a string it may be quoted. -/
theorem quoted_of_reads {name : List Char} (hname : Writable i name)
    (h : readInline (' ' :: valueRest .quoted i name default.text.toList t) =
      some (some default.value)) :
    Whole .quoted i name default.text.toList t ∧ ∀ text, default = .str text →
      QuotedText text.toList ∧ breaksStand [doubleQuote] (text.toList ++ [doubleQuote]) = true := by
  cases default with
  | str text =>
    rw [toList_text_str] at h ⊢
    obtain ⟨hwhole, hquoted⟩ := quoted_of_valueRest (s := text.toList)
      (by rwa [String.ofList_toList])
    refine ⟨hwhole, fun text' heq => ?_⟩
    obtain rfl := ConfigDefault.str.inj heq
    exact ⟨hquoted, (hname.whole_quoted_iff hquoted t).mp hwhole⟩
  | int z => exact ⟨hname.whole_of_unbroken (unbroken_text (by simp)), fun _ heq => by cases heq⟩
  | bool b => exact ⟨hname.whole_of_unbroken (unbroken_text (by simp)), fun _ heq => by cases heq⟩

theorem value_ne_null : default.value ≠ .null := by
  cases default <;> simp [ConfigDefault.value]

theorem printable_text : Printable default.text.toList ↔
    ∀ text, default = .str text → Printable text.toList := by
  cases default with
  | str text =>
    have hquote : isPrintable doubleQuote = true := by decide
    have hlast : Printable [doubleQuote] := by decide
    rw [toList_text_str, printable_cons, printable_append]
    simp only [hquote, hlast, true_and, and_true]
    exact ⟨fun h s heq => ConfigDefault.str.inj heq ▸ h, fun h => h text rfl⟩
  | int z =>
    refine iff_of_true (fun c hc => ?_) (fun s h => by cases h)
    have hall : ∀ c ∈ "-0123456789".toList, isPrintable c = true :=
      Regex.forall_mem_of_all (by decide)
    exact hall c (mem_numeral hc)
  | bool b =>
    refine iff_of_true ?_ (fun s h => by cases h)
    cases b with
    | false =>
      change Printable "False".toList
      decide
    | true =>
      change Printable "True".toList
      decide

/-! ### Config keys -/

theorem forall_entries {P : Entry → Prop} : (∀ e ∈ key.entries, P e) ↔
    P (plainEntry "type" key.type) ∧ P (plainEntry "description" key.description) ∧
      ∀ default, key.default = some default →
        P ⟨"default".toList, default.text.toList, default.value⟩ := by
  cases hdefault : key.default with
  | none => simp [ConfigKey.entries, hdefault]
  | some default => simp [ConfigKey.entries, hdefault]

/-- The entry that is meant has the entries that are written below its name. -/
theorem entry_eq (key : ConfigKey) :
    key.entry = (.str (String.ofList key.name.toList), .mapping (key.entries.map Entry.pair)) := by
  cases hdefault : key.default with
  | none => simp [ConfigKey.entry, ConfigKey.entries, Entry.pair, plainEntry, hdefault]
  | some default => simp [ConfigKey.entry, ConfigKey.entries, Entry.pair, plainEntry, hdefault]

/-- Each line of a key has another name. -/
theorem entries_nodup (key : ConfigKey) :
    ((key.entries.map Entry.pair).map Prod.fst).Nodup := by
  cases hdefault : key.default with
  | none => simp [ConfigKey.entries, Entry.pair, plainEntry, hdefault]
  | some default => simp [ConfigKey.entries, Entry.pair, plainEntry, hdefault]

theorem writable_entries (key : ConfigKey) : ∀ e ∈ key.entries, Writable 4 e.key :=
  forall_entries.mpr ⟨writable_of_mem (by simp) 4, writable_of_mem (by simp) 4,
    fun _ _ => writable_of_mem (by simp) 4⟩

theorem printable_write : Printable (key.write t) ↔ Printable key.name.toList ∧
    Printable key.type.toList ∧ Printable key.description.toList ∧
      (∀ text, key.default = some (.str text) → Printable text.toList) ∧ Printable t := by
  have hall : ∀ s ∈ ["type", "description", "default"], Printable s.toList := by decide
  have hdefault : (∀ default, key.default = some default → Printable "default".toList ∧
      Printable default.text.toList) ↔
        ∀ text, key.default = some (.str text) → Printable text.toList := by
    refine ⟨fun h text heq => printable_text.mp (h _ heq).2 text rfl, fun h default heq =>
      ⟨hall _ (by simp), printable_text.mpr fun text htext => h text (by rw [heq, htext])⟩⟩
  rw [ConfigKey.write, printable_blockLine, printable_writeEntries, forall_entries, hdefault]
  simp only [plainEntry, hall "type" (by simp), hall "description" (by simp), true_and, and_assoc]

/-- The lines of a key's own. -/
def belongs (tree : Outline) : Bool := 2 < tree.indent

theorem belongs_of_indent {tree : Outline} (h : tree.indent = 4) : belongs tree = true := by
  rw [belongs, h]
  rfl

/-- The first line below the name of a key. -/
theorem write_eq (key : ConfigKey) (t : List Char) : key.write t =
    blockLine 2 key.name.toList (valueLine 4 "type".toList key.type.toList
      (writeEntries 4 key.entries.tail t)) := rfl

/-- **A key that was read as it is meant** stands for itself, and the keys after it are read on. -/
theorem encodable_of_readAll (ht : blankNext t = true) (hprint : Printable (key.write t))
    (hread : readAll (outlineOf .quoted (key.write t)) = some (key.entry :: entries)) :
    Encodable key ∧ readAll (outlineOf .quoted t) = some entries := by
  obtain ⟨hnameP, htypeP, hdescriptionP, hdefaultP, -⟩ := printable_write.mp hprint
  rw [entry_eq] at hread
  have hname : Unbroken key.name.toList ∧ KeyText key.name.toList := by
    rw [write_eq] at hread
    exact keyText_of_readAll (writable_of_mem (by simp) 4) hread
  have hnameW : Writable 2 key.name.toList := ⟨hname.2, hname.1, .inl (by decide)⟩
  rw [ConfigKey.write, hnameW.outlineOf_block, grow, readAll_cons, hnameW.read_block_iff] at hread
  obtain ⟨⟨-, hchildren, -, -⟩, hrest⟩ := hread
  have hlines : ∀ e ∈ key.entries, Writable 4 e.key ∧ e.value ≠ .null ∧ ∀ t, blankNext t = true →
      readInline (' ' :: valueRest .quoted 4 e.key e.written t) = some (some e.value) →
        Whole .quoted 4 e.key e.written t := by
    refine fun e he => ⟨writable_entries key e he, ?_⟩
    revert e
    exact forall_entries.mpr
      ⟨⟨by simp [plainEntry], fun t ht h =>
          (plain_of_reads (writable_of_mem (by simp) 4) (.inl ht) h).1⟩,
        ⟨by simp [plainEntry], fun t ht h =>
          (plain_of_reads (writable_of_mem (by simp) 4) (.inl ht) h).1⟩,
        fun default _ => ⟨value_ne_null, fun t _ h =>
          (quoted_of_reads (writable_of_mem (by simp) 4) h).1⟩⟩
  have hall : readAll ((outlineOf .quoted (writeEntries 4 key.entries t)).takeWhile belongs) =
      some (key.entries.map Entry.pair ++ []) := by
    rw [List.append_nil]
    exact hchildren
  obtain ⟨hvalues, hnone, hdrop⟩ :=
    writeEntries_read_on (by decide) ht hlines (fun _ => belongs_of_indent) hall
  change readAll (List.dropWhile belongs _) = _ at hrest
  rw [hdrop, dropWhile_eq_self (readAll_eq_nil.mp hnone)] at hrest
  obtain ⟨⟨t₁, ht₁, -, htype⟩, ⟨t₂, ht₂, -, hdescription⟩, hdefault⟩ := forall_entries.mp hvalues
  obtain ⟨-, htype, htypeText⟩ := plain_of_reads (writable_of_mem (by simp) 4) (.inl ht₁) htype
  obtain ⟨-, hdescription, hdescriptionText⟩ :=
    plain_of_reads (writable_of_mem (by simp) 4) (.inl ht₂) hdescription
  refine ⟨⟨hname.1, hnameP, hname.2, ⟨htype, htypeP, htypeText⟩,
    ⟨hdescription, hdescriptionP, hdescriptionText⟩, fun text heq => ?_⟩, hrest⟩
  obtain ⟨t₃, -, -, hread⟩ := hdefault _ heq
  obtain ⟨hquoted, hbreaks⟩ := (quoted_of_reads (writable_of_mem (by simp) 4) hread).2 text rfl
  exact ⟨hdefaultP text heq, hquoted, hbreaks⟩

/-- **A key that stands for itself is read as it is meant**, before keys or nothing. -/
theorem read_of_encodable (h : Encodable key) (ht : blankNext t = true)
    (hhead : ∀ tree ∈ (outlineOf .quoted t).head?, tree.indent ≤ 2) :
    ∃ tree, outlineOf .quoted (key.write t) = tree :: outlineOf .quoted t ∧ tree.indent = 2 ∧
      tree.read = some key.entry := by
  have hnameW : Writable 2 key.name.toList := ⟨h.nameText, h.nameUnbroken, .inl (by decide)⟩
  have hdefaultW : Writable 4 "default".toList := writable_of_mem (by simp) 4
  have hlines : ∀ e ∈ key.entries, (∀ t, Whole .quoted 4 e.key e.written t) ∧ e.value ≠ .null ∧
      readInline (' ' :: e.written) = some (some e.value) := by
    refine forall_entries.mpr
      ⟨⟨fun t => (writable_of_mem (by simp) 4).whole_of_unbroken h.type.unbroken,
          by simp [plainEntry], h.type.reads⟩,
        ⟨fun t => (writable_of_mem (by simp) 4).whole_of_unbroken h.description.unbroken,
          by simp [plainEntry], h.description.reads⟩, fun default heq => ?_⟩
    have hquoted : ∀ text, default = .str text → QuotedValue text :=
      fun text htext => h.default text (by rw [heq, htext])
    obtain ⟨hwhole, hread⟩ := default_reads hdefaultW hquoted
    exact ⟨hwhole, value_ne_null, hread⟩
  obtain ⟨hnone, hafter⟩ := split_at_head hhead (le_refl 2)
  have hown : ∀ tree ∈ key.entries.map (Entry.tree 4), decide (2 < tree.indent) = true := by
    intro tree htree
    obtain ⟨e, -, rfl⟩ := List.mem_map.mp htree
    rfl
  have houtline : outlineOf .quoted (key.write t) =
      .node ⟨2, key.name.toList ++ [':']⟩ (key.entries.map (Entry.tree 4)) ::
        outlineOf .quoted t := by
    rw [ConfigKey.write, hnameW.outlineOf_block,
      outlineOf_writeEntries (by decide) ht
        (fun e he => ⟨writable_entries key e he, fun t _ => (hlines e he).1 t⟩)
        fun tree htree => (hhead tree htree).trans (by decide),
      grow, List.takeWhile_append_of_pos hown, List.dropWhile_append_of_pos hown, hnone, hafter,
      List.append_nil]
  refine ⟨_, houtline, rfl, ?_⟩
  rw [entry_eq, hnameW.read_block_iff]
  refine ⟨by simp [ConfigKey.entries], ?_, block_eq_some.mpr ⟨rfl, ?_, entries_nodup key⟩, rfl⟩
  · exact readAll_trees fun e he => ⟨writable_entries key e he, (hlines e he).2⟩
  · rw [List.map_map]
    exact List.Pairwise.isChain (List.pairwise_map.mpr (List.pairwise_of_forall fun _ _ => rfl))

theorem blankNext_writeKeys (configKeys : List ConfigKey) :
    blankNext (writeKeys configKeys) = true := by
  cases configKeys <;> rfl

/-- **Keys that stand for themselves are read as they are meant.** -/
theorem readAll_of_encodable (h : ∀ key ∈ configKeys, Encodable key) :
    readAll (outlineOf .quoted (writeKeys configKeys)) = some (configKeys.map ConfigKey.entry) ∧
      ∀ tree ∈ outlineOf .quoted (writeKeys configKeys), tree.indent = 2 := by
  induction configKeys with
  | nil => exact ⟨rfl, fun _ htree => by cases htree⟩
  | cons key configKeys ih =>
    obtain ⟨hkey, hkeys⟩ := List.forall_mem_cons.mp h
    obtain ⟨hread, hindent⟩ := ih hkeys
    obtain ⟨tree, houtline, htree, hentry⟩ := read_of_encodable hkey
      (blankNext_writeKeys configKeys)
      fun tree htree => (hindent tree (List.mem_of_mem_head? htree)).le
    change readAll (outlineOf .quoted (key.write (writeKeys configKeys))) = _ ∧
      ∀ tree ∈ outlineOf .quoted (key.write (writeKeys configKeys)), _
    rw [houtline]
    exact ⟨readAll_cons.mpr ⟨hentry, hread⟩, List.forall_mem_cons.mpr ⟨htree, hindent⟩⟩

/-- **Keys that were read as they are meant** stand for themselves. -/
theorem forall_encodable_of_readAll (hprint : Printable (writeKeys configKeys))
    (h : readAll (outlineOf .quoted (writeKeys configKeys)) =
      some (configKeys.map ConfigKey.entry)) :
    ∀ key ∈ configKeys, Encodable key := by
  induction configKeys with
  | nil => simp
  | cons key configKeys ih =>
    obtain ⟨hkey, hrest⟩ := encodable_of_readAll (blankNext_writeKeys configKeys) hprint h
    exact List.forall_mem_cons.mpr ⟨hkey, ih (printable_write.mp hprint).2.2.2.2 hrest⟩

/-! ### The header -/

section Header

variable {projectName description : String}

/-- **What the first three lines are read as**, where the name of the project stands for itself. -/
theorem outlineOf_writeHeader (hname : PlainValue projectName) (description : String)
    (t : List Char) : ∃ first second, outlineOf .quoted (writeHeader projectName description t) =
      first :: second :: outlineOf .quoted (valueLine 0 "description".toList description.toList t) ∧
      first.indent = 0 ∧ second.indent = 0 ∧
      first.read = some (.str "name", .scalar (.str projectName)) ∧
      second.read = some (.str "runtime", .mapping [(.str "name", .scalar (.str "python"))]) := by
  have hnameW (i : ℕ) := writable_of_mem (s := "name") (by simp) i
  have hruntimeW := writable_of_mem (s := "runtime") (by simp) 0
  have hdescriptionW := writable_of_mem (s := "description") (by simp) 0
  have hpython : Unbroken "python".toList ∧
      readInline (' ' :: "python".toList) = some (some (.str "python")) := by decide
  have hhead := hdescriptionW.head_outlineOf (k := .quoted) description.toList t
  have hlanguage := (hnameW 2).outlineOf_cons ((hnameW 2).whole_of_unbroken hpython.1)
    fun tree htree => (hhead tree htree).le.trans (Nat.zero_le 2)
  have hruntime := hruntimeW.head_outlineOf_block (k := .quoted) (valueLine 2 "name".toList
    "python".toList (valueLine 0 "description".toList description.toList t))
  obtain ⟨hnone, hafter⟩ := split_at_head (fun tree htree => (hhead tree htree).le) (le_refl 0)
  have hread (i : ℕ) (w : String) (hw : readInline (' ' :: w.toList) = some (some (.str w))) :
      (Outline.node ⟨i, "name".toList ++ ':' :: ' ' :: w.toList⟩ []).read =
        some (.str "name", .scalar (.str w)) := by
    refine ((hnameW i).read_value_iff (by simp)).mpr ⟨rfl, ?_, hw⟩
    rw [String.ofList_toList]
  have hblock : (Outline.node ⟨0, "runtime".toList ++ [':']⟩
      [.node ⟨2, "name".toList ++ ':' :: ' ' :: "python".toList⟩ []]).read =
        some (.str "runtime", .mapping [(.str "name", .scalar (.str "python"))]) := by
    refine hruntimeW.read_block_iff.mpr ⟨List.cons_ne_nil _ _, ?_, ?_, ?_⟩
    · exact readAll_cons.mpr ⟨hread 2 "python" hpython.2, rfl⟩
    · exact block_eq_some.mpr ⟨rfl, List.isChain_singleton _, List.nodup_singleton _⟩
    · rw [String.ofList_toList]
  refine ⟨_, _, ?_, rfl, rfl, hread 0 projectName hname.reads, hblock⟩
  rw [writeHeader, (hnameW 0).outlineOf_cons ((hnameW 0).whole_of_unbroken hname.unbroken)
    fun tree htree => (hruntime tree htree).le, hruntimeW.outlineOf_block, hlanguage, grow,
    List.takeWhile_cons_of_pos (by rfl), List.dropWhile_cons_of_pos (by rfl), hnone, hafter]

theorem printable_writeHeader {t : List Char} : Printable (writeHeader projectName description t) ↔
    Printable projectName.toList ∧ Printable description.toList ∧ Printable t := by
  have hall : ∀ s ∈ ["name", "runtime", "python", "description"], Printable s.toList := by
    decide
  rw [writeHeader, printable_valueLine, printable_blockLine, printable_valueLine,
    printable_valueLine]
  simp only [hall "name" (by simp), hall "runtime" (by simp), hall "python" (by simp),
    hall "description" (by simp), true_and]

theorem head_writeHeader (t : List Char) :
    (writeHeader projectName description t).head? = some 'n' := rfl

/-- Nothing of the value before it is in a line with a key only. -/
theorem apart_blockLine {name : List Char} (hname : Unbroken name) (hdouble : doubleQuote ∉ name)
    (hsingle : singleQuote ∉ name) (t : List Char) : Apart (blockLine 0 name t) := by
  have hcolon : doubleQuote ≠ ':' ∧ singleQuote ≠ ':' := by decide
  refine .inr ⟨name ++ [':'], t, rfl, by simp, unbroken_append.mpr ⟨hname, by decide⟩, ?_, ?_⟩
  · simpa [hdouble] using hcolon.1
  · simpa [hsingle] using hcolon.2

theorem apart_writeConfig (configKeys : List ConfigKey) : Apart (writeConfig configKeys) := by
  rw [writeConfig]
  split_ifs
  · exact .inl rfl
  · exact apart_blockLine (by decide) (by decide) (by decide) _

/-- What comes after the header is not below it. -/
theorem head_writeConfig :
    ∀ tree ∈ (outlineOf .quoted (writeConfig configKeys)).head?, tree.indent ≤ 0 := by
  rw [writeConfig]
  split_ifs
  · exact fun _ h => by cases h
  · exact fun tree htree =>
      ((writable_of_mem (by simp) 0).head_outlineOf_block _ tree htree).le

/-- **What comes after the header is read as it is meant** where the keys stand for themselves. -/
theorem readAll_writeConfig_iff (hdistinct : (configKeys.map ConfigKey.name).Nodup)
    (hprint : Printable (writeConfig configKeys)) :
    readAll (outlineOf .quoted (writeConfig configKeys)) = some (configEntries configKeys) ↔
      ∀ key ∈ configKeys, Encodable key := by
  have hconfigW := writable_of_mem (s := "config") (by simp) 0
  by_cases hnone : configKeys = []
  · subst hnone
    exact iff_of_true rfl (by simp)
  · rw [writeConfig, if_neg hnone] at hprint ⊢
    rw [configEntries, if_neg hnone, hconfigW.outlineOf_block, grow, readAll_cons,
      hconfigW.read_block_iff, readAll_eq_nil]
    constructor
    · rintro ⟨⟨-, hread, -, -⟩, hrest⟩
      have hall := List.takeWhile_append_dropWhile
        (p := fun tree : Outline => decide (0 < tree.indent))
        (l := outlineOf .quoted (writeKeys configKeys))
      rw [hrest, List.append_nil] at hall
      rw [hall] at hread
      exact forall_encodable_of_readAll (printable_blockLine.mp hprint).2 hread
    · intro h
      obtain ⟨hread, hindent⟩ := readAll_of_encodable h
      have hbelow : ∀ tree ∈ outlineOf .quoted (writeKeys configKeys),
          decide (0 < tree.indent) = true := fun tree htree => by rw [hindent tree htree]; rfl
      rw [List.takeWhile_eq_self_iff.mpr hbelow, List.dropWhile_eq_nil_iff.mpr hbelow]
      refine ⟨⟨fun hempty => ?_, hread, block_eq_some.mpr ⟨rfl, ?_, ?_⟩, rfl⟩, rfl⟩
      · rw [hempty, readAll, Option.some.injEq, eq_comm, List.map_eq_nil_iff] at hread
        exact hnone hread
      · refine List.Pairwise.isChain (List.pairwise_map.mpr ?_)
        exact List.pairwise_of_forall_mem_list fun a ha b hb => by rw [hindent a ha, hindent b hb]
      · rw [List.map_map]
        have hinj : Function.Injective fun name : String => Scalar.str name :=
          fun _ _ => Scalar.str.inj
        have hnames := hdistinct.map hinj
        rwa [List.map_map] at hnames

theorem printable_writeKeys (h : ∀ key ∈ configKeys, Encodable key) :
    Printable (writeKeys configKeys) := by
  induction configKeys with
  | nil => exact fun _ hc => by cases hc
  | cons key configKeys ih =>
    obtain ⟨hkey, hkeys⟩ := List.forall_mem_cons.mp h
    exact printable_write.mpr ⟨hkey.namePrintable, hkey.type.printable, hkey.description.printable,
      fun text heq => (hkey.default text heq).printable, ih hkeys⟩

theorem printable_writeConfig (h : ∀ key ∈ configKeys, Encodable key) :
    Printable (writeConfig configKeys) := by
  rw [writeConfig]
  split_ifs
  · exact fun _ hc => by cases hc
  · exact printable_blockLine.mpr ⟨by decide, printable_writeKeys h⟩

/-- The config keys are one line of the document, and below it. -/
theorem indent_writeConfig (h : ∀ key ∈ configKeys, Encodable key) :
    ∀ tree ∈ outlineOf .quoted (writeConfig configKeys), tree.indent = 0 := by
  rw [writeConfig]
  split_ifs
  · exact fun _ htree => by cases htree
  · obtain ⟨-, hindent⟩ := readAll_of_encodable h
    have hnone : (outlineOf .quoted (writeKeys configKeys)).dropWhile
        (fun tree => decide (0 < tree.indent)) = [] :=
      List.dropWhile_eq_nil_iff.mpr fun tree htree => by rw [hindent tree htree]; rfl
    rw [(writable_of_mem (by simp) 0).outlineOf_block, grow, hnone]
    exact fun tree htree => by rw [List.mem_singleton.mp htree]; rfl

/-- **The document is read as the manifest that is meant** exactly where every text in it stands for
itself. -/
theorem load_pulumiYaml_iff (projectName description : String) (configKeys : List ConfigKey)
    (hdistinct : (configKeys.map ConfigKey.name).Nodup) :
    load (pulumiYaml projectName description configKeys) =
        some (manifestEntries projectName description configKeys) ↔
      PlainValue projectName ∧ PlainValue description ∧ ∀ key ∈ configKeys, Encodable key := by
  have hnameW := writable_of_mem (s := "name") (by simp) 0
  have hdescriptionW := writable_of_mem (s := "description") (by simp) 0
  have hentries : manifestEntries projectName description configKeys =
      (.str "name", .scalar (.str projectName)) ::
        (.str "runtime", .mapping [(.str "name", .scalar (.str "python"))]) ::
          (.str "description", .scalar (.str description)) :: configEntries configKeys := rfl
  have htrue (trees : List Outline) : trees.takeWhile (fun _ => true) = trees :=
    List.takeWhile_eq_self_iff.mpr fun _ _ => rfl
  rw [load, loadWith_eq_some, toList_pulumiYaml, hentries]
  constructor
  · rintro ⟨hread, hprint, -⟩
    obtain ⟨hnameP, hdescriptionP, hconfigP⟩ := printable_writeHeader.mp hprint
    have hread' := hread
    rw [← htrue (outlineOf _ _), writeHeader] at hread'
    obtain ⟨-, hname, hnameText⟩ := plain_of_reads hnameW
      (apart_blockLine (by decide) (by decide) (by decide) _)
      (hnameW.read_on (by simp) (fun _ _ => rfl) hread').1
    have hplain : PlainValue projectName := ⟨hname, hnameP, hnameText⟩
    obtain ⟨first, second, houtline, -, -, -, -⟩ :=
      outlineOf_writeHeader hplain description (writeConfig configKeys)
    rw [houtline, readAll_cons, readAll_cons] at hread
    obtain ⟨-, -, hread⟩ := hread
    rw [← htrue (outlineOf _ _)] at hread
    obtain ⟨hvalue, hon⟩ := hdescriptionW.read_on (by simp) (fun _ _ => rfl) hread
    obtain ⟨hwhole, hdescription, hdescriptionText⟩ :=
      plain_of_reads hdescriptionW (apart_writeConfig configKeys) hvalue
    have hconfig := (hon hwhole).2
    rw [htrue] at hconfig
    exact ⟨hplain, ⟨hdescription, hdescriptionP, hdescriptionText⟩,
      (readAll_writeConfig_iff hdistinct hconfigP).mp hconfig⟩
  · rintro ⟨hname, hdescription, hkeys⟩
    obtain ⟨first, second, houtline, hfirst, hsecond, hfirstRead, hsecondRead⟩ :=
      outlineOf_writeHeader hname description (writeConfig configKeys)
    have hprint := printable_writeConfig hkeys
    rw [hdescriptionW.outlineOf_cons (hdescriptionW.whole_of_unbroken hdescription.unbroken)
      head_writeConfig] at houtline
    have hthirdRead : (Outline.node ⟨0, "description".toList ++ ':' :: ' ' :: description.toList⟩
        []).read = some (.str "description", .scalar (.str description)) := by
      refine (hdescriptionW.read_value_iff (by simp)).mpr ⟨rfl, ?_, hdescription.reads⟩
      rw [String.ofList_toList]
    refine ⟨?_, printable_writeHeader.mpr ⟨hname.printable, hdescription.printable, hprint⟩, ?_, ?_,
      ?_, ?_⟩
    · rw [houtline, readAll_cons, readAll_cons, readAll_cons]
      exact ⟨hfirstRead, hsecondRead, hthirdRead,
        (readAll_writeConfig_iff hdistinct hprint).mpr hkeys⟩
    · rw [head_writeHeader]
      decide
    · rw [houtline]
      exact List.cons_ne_nil _ _
    · have hindent : ∀ tree ∈ outlineOf .quoted (writeHeader projectName description
          (writeConfig configKeys)), tree.indent = 0 := by
        rw [houtline]
        exact List.forall_mem_cons.mpr ⟨hfirst, List.forall_mem_cons.mpr ⟨hsecond,
          List.forall_mem_cons.mpr ⟨rfl, indent_writeConfig hkeys⟩⟩⟩
      refine List.Pairwise.isChain (List.pairwise_map.mpr ?_)
      exact List.pairwise_of_forall_mem_list fun a ha b hb => by rw [hindent a ha, hindent b hb]
    · rw [configEntries]
      split_ifs <;> simp

/-- The config keys of a small network: one has a separator of lines in its default, and one the
name `=`. -/
def vcnKeys : List ConfigKey :=
  [{ name := "compartment_ocid", type := "string", description := "OCI compartment OCID",
     default := none },
    { name := "cidr", type := "string", description := "Address space",
      default := some (.str "10.0.0.0/16") },
    { name := "zones", type := "string", description := "Zones",
      default := some (.str "a\u2028b") },
    { name := "=", type := "int", description := "Number of zones", default := some (.int 3) }]

/-- Its `Pulumi.yaml` is read back. -/
theorem load_pulumiYaml_iff_vcn : load (pulumiYaml "shop-vcn" "CloudSpells VCN stack" vcnKeys) =
    some (manifestEntries "shop-vcn" "CloudSpells VCN stack" vcnKeys) := by
  have hkeys : ∀ key ∈ vcnKeys, Encodable key := by decide +kernel
  exact (load_pulumiYaml_iff _ _ _ (by decide)).mpr ⟨by decide +kernel, by decide +kernel, hkeys⟩

/-- The name of a project that is all digits is read as a number. -/
theorem load_pulumiYaml_digits :
    ((load (pulumiYaml "123" "CloudSpells VCN stack" [])).bind fun entries =>
      entries.head?.bind fun entry => entry.2.scalar?) = some (.int 123) ∧
    load (pulumiYaml "123" "CloudSpells VCN stack" []) ≠
      some (manifestEntries "123" "CloudSpells VCN stack" []) := by
  have hread : ((load (pulumiYaml "123" "CloudSpells VCN stack" [])).bind fun entries =>
      entries.head?.bind fun entry => entry.2.scalar?) = some (.int 123) := by decide +kernel
  refine ⟨hread, fun h => ?_⟩
  rw [h] at hread
  cases Option.some.inj hread

end Header

end Read

end CloudSpells
