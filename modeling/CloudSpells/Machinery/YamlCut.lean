import CloudSpells.Machinery.YamlScalar

/-!
# Machinery/YamlCut — a line that is cut in two

Where a line is cut in two and a word put in between, a scalar and its key are the same as long as
they come before the cut (`scanScalar_append_word`, `readKey_append_word`): whether a scalar ends
does not depend on which word comes after it.
-/

namespace Machinery

namespace Yaml

variable {s w cs left text : List Char} {k : Scalar}

/-- A word begins here: no scalar ends, and none goes on as anything else. -/
def Opens (w : List Char) : Prop :=
  ∃ c cs, w = c :: cs ∧ c ∉ [' ', '\t', ':', '#', singleQuote]

theorem Opens.blankNext (h : Opens w) : blankNext w = false := by
  obtain ⟨c, cs, rfl, hc⟩ := h
  simp only [List.mem_cons, not_or] at hc
  simp [Yaml.blankNext, isBlank, hc.1, hc.2.1]

theorem Opens.plainStops (h : Opens w) : plainStops w = false := by
  obtain ⟨c, cs, rfl, hc⟩ := h
  simp only [List.mem_cons, not_or] at hc
  simp [Yaml.plainStops, hc.2.1, hc.2.2.1]

theorem Opens.dropWhile (h : Opens w) : w.dropWhile (· = ' ') = w := by
  obtain ⟨c, cs, rfl, hc⟩ := h
  simp only [List.mem_cons, not_or] at hc
  exact List.dropWhile_cons_of_neg (by simpa using hc.1)

theorem blankNext_append (h : Opens w) : blankNext (s ++ w) = (!s.isEmpty && blankNext s) := by
  cases s with
  | nil => exact h.blankNext
  | cons c s => rfl

/-- What a plain scalar is ended by does not depend on the word after it. -/
theorem exists_stops (s : List Char) : ∃ b, ∀ w, Opens w →
    (plainStops ((s ++ w).dropWhile (· = ' ')) ||
      decide (((s ++ w).dropWhile (· = ' ')).head? = some '#')) = b := by
  induction s with
  | nil =>
    refine ⟨false, fun w h => ?_⟩
    rw [List.nil_append, h.dropWhile, h.plainStops]
    obtain ⟨c, cs, rfl, hc⟩ := h
    simp only [List.mem_cons, not_or] at hc
    simpa using hc.2.2.2.1
  | cons c s ih =>
    by_cases hc : c = ' '
    · obtain ⟨b, hb⟩ := ih
      refine ⟨b, fun w h => ?_⟩
      rw [List.cons_append, List.dropWhile_cons_of_pos (by simpa using hc)]
      exact hb w h
    · refine ⟨decide (c = '\t') || (decide (c = ':') && (!s.isEmpty && blankNext s)) ||
        decide (some c = some '#'), fun w h => ?_⟩
      rw [List.cons_append, List.dropWhile_cons_of_neg (by simpa using hc), plainStops,
        blankNext_append h, List.head?_cons]

/-- **A plain scalar ends before the cut**, with whatever word comes after it, or goes on behind
it. -/
theorem scanPlain_append_word (s : List Char) :
    (∃ text left, ∀ w, Opens w → scanPlain (s ++ w) = (text, left ++ w)) ∨
      ∀ w, Opens w → scanPlain (s ++ w) = (s ++ (scanPlain w).1, (scanPlain w).2) := by
  induction s with
  | nil => exact .inr fun w _ => rfl
  | cons c s ih =>
    obtain ⟨b, hb⟩ := exists_stops s
    have hstop (w : List Char) (h : Opens w) :
        (plainStops (c :: (s ++ w)) || (decide (c = ' ') &&
          (plainStops ((s ++ w).dropWhile (· = ' ')) ||
            decide (((s ++ w).dropWhile (· = ' ')).head? = some '#')))) =
        (decide (c = '\t') || (decide (c = ':') && (!s.isEmpty && blankNext s)) ||
          (decide (c = ' ') && b)) := by
      rw [hb w h, plainStops, blankNext_append h]
    cases hends : decide (c = '\t') || (decide (c = ':') && (!s.isEmpty && blankNext s)) ||
        (decide (c = ' ') && b) with
    | true =>
      refine .inl ⟨[], c :: s, fun w h => ?_⟩
      rw [List.cons_append, scanPlain, if_pos ((hstop w h).trans hends)]
    | false =>
      have hgoes (w : List Char) (h : Opens w) : scanPlain (c :: s ++ w) =
          (c :: (scanPlain (s ++ w)).1, (scanPlain (s ++ w)).2) := by
        rw [List.cons_append, scanPlain, if_neg (by rw [hstop w h, hends]; simp)]
      rcases ih with ⟨text, left, hscan⟩ | hscan
      · exact .inl ⟨c :: text, left, fun w h => by rw [hgoes w h, hscan w h]⟩
      · exact .inr fun w h => by rw [hgoes w h, hscan w h, List.cons_append]

/-- A scalar in double quotes ends with one. -/
theorem mem_of_scanDouble {escape : Escape} (h : scanDouble escape cs = some (text, left)) :
    doubleQuote ∈ cs := by
  induction cs generalizing escape text with
  | nil => simp [scanDouble] at h
  | cons c cs ih =>
    have hmore {d : Char} (h : (scanDouble .no cs).map (fun r => (d :: r.1, r.2)) =
        some (text, left)) : doubleQuote ∈ c :: cs := by
      obtain ⟨r, hr, heq⟩ := Option.map_eq_some_iff.mp h
      obtain ⟨-, rfl⟩ := Prod.mk.inj heq
      exact List.mem_cons_of_mem _ (ih hr)
    cases escape with
    | no =>
      rw [scanDouble] at h
      split_ifs at h with hquote
      · exact hquote ▸ List.mem_cons_self ..
      · exact List.mem_cons_of_mem _ (ih h)
      · exact hmore h
    | begun =>
      rw [scanDouble] at h
      split at h
      · exact List.mem_cons_of_mem _ (ih h)
      · exact hmore h
      · cases h
    | code n value =>
      rw [scanDouble] at h
      split_ifs at h
      · exact hmore h
      · exact List.mem_cons_of_mem _ (ih h)

/-- **A scalar in double quotes ends before the cut**, where no quote comes after it. -/
theorem scanDouble_append_word {escape : Escape} (hw : doubleQuote ∉ w)
    (h : scanDouble escape (s ++ w) = some (text, left)) :
    ∃ left', left = left' ++ w ∧
      ∀ w', scanDouble escape (s ++ w') = some (text, left' ++ w') := by
  induction s generalizing escape text with
  | nil => exact absurd (mem_of_scanDouble h) hw
  | cons c s ih =>
    have hmore {d : Char} (h : (scanDouble .no (s ++ w)).map (fun r => (d :: r.1, r.2)) =
        some (text, left)) : ∃ left', left = left' ++ w ∧ ∀ w',
          (scanDouble .no (s ++ w')).map (fun r => (d :: r.1, r.2)) = some (text, left' ++ w') := by
      obtain ⟨r, hr, heq⟩ := Option.map_eq_some_iff.mp h
      obtain ⟨rfl, rfl⟩ := Prod.mk.inj heq
      obtain ⟨left', hleft, hscan⟩ := ih hr
      exact ⟨left', hleft, fun w' => by rw [hscan w']; rfl⟩
    simp only [List.cons_append] at h ⊢
    cases escape with
    | no =>
      simp only [scanDouble] at h ⊢
      split_ifs at h ⊢
      · obtain ⟨rfl, rfl⟩ := Prod.mk.inj (Option.some.inj h)
        exact ⟨s, rfl, fun w' => rfl⟩
      · exact ih h
      · exact hmore h
    | begun =>
      simp only [scanDouble] at h ⊢
      split at h
      · exact ih h
      · exact hmore h
      · cases h
    | code n value =>
      simp only [scanDouble] at h ⊢
      split_ifs at h ⊢
      · exact hmore h
      · exact ih h

/-- A scalar in single quotes ends with one. -/
theorem mem_of_scanSingle (h : scanSingle false cs = some (text, left)) : singleQuote ∈ cs := by
  induction cs generalizing text with
  | nil => simp [scanSingle] at h
  | cons c cs ih =>
    rw [scanSingle] at h
    split_ifs at h with hquote
    · exact hquote ▸ List.mem_cons_self ..
    · obtain ⟨r, hr, heq⟩ := Option.map_eq_some_iff.mp h
      obtain ⟨-, rfl⟩ := Prod.mk.inj heq
      exact List.mem_cons_of_mem _ (ih hr)

/-- **So does one in single quotes end before the cut.** -/
theorem scanSingle_append_word {pending : Bool} (hw : singleQuote ∉ w)
    (h : scanSingle pending (s ++ w) = some (text, left)) :
    ∃ left', left = left' ++ w ∧
      ∀ w', Opens w' → scanSingle pending (s ++ w') = some (text, left' ++ w') := by
  induction s generalizing pending text with
  | nil =>
    cases pending with
    | false => exact absurd (mem_of_scanSingle h) hw
    | true =>
      have hnone (w : List Char) (hw : singleQuote ∉ w) : scanSingle true w = some ([], w) := by
        cases w with
        | nil => rfl
        | cons c w => rw [scanSingle, if_neg (by rintro rfl; exact hw (List.mem_cons_self ..))]
      rw [List.nil_append, hnone w hw] at h
      obtain ⟨rfl, rfl⟩ := Prod.mk.inj (Option.some.inj h)
      refine ⟨[], rfl, ?_⟩
      rintro _ ⟨c, cs, rfl, hc⟩
      simp only [List.mem_cons, not_or] at hc
      rw [List.nil_append, scanSingle, if_neg hc.2.2.2.2.1]
  | cons c s ih =>
    have hmore {d : Char} (h : (scanSingle false (s ++ w)).map (fun r => (d :: r.1, r.2)) =
        some (text, left)) : ∃ left', left = left' ++ w ∧ ∀ w', Opens w' →
          (scanSingle false (s ++ w')).map (fun r => (d :: r.1, r.2)) =
            some (text, left' ++ w') := by
      obtain ⟨r, hr, heq⟩ := Option.map_eq_some_iff.mp h
      obtain ⟨rfl, rfl⟩ := Prod.mk.inj heq
      obtain ⟨left', hleft, hscan⟩ := ih hr
      exact ⟨left', hleft, fun w' hw' => by rw [hscan w' hw']; rfl⟩
    simp only [List.cons_append] at h ⊢
    cases pending with
    | false =>
      simp only [scanSingle] at h ⊢
      split_ifs at h ⊢
      · exact ih h
      · exact hmore h
    | true =>
      simp only [scanSingle] at h ⊢
      split_ifs at h ⊢
      · exact hmore h
      · obtain ⟨rfl, rfl⟩ := Prod.mk.inj (Option.some.inj h)
        exact ⟨c :: s, rfl, fun w' _ => rfl⟩

/-- The words of a cut: the one that is there now, and one that was. -/
structure CutWords (w w' : List Char) : Prop where
  opens : Opens w
  opens' : Opens w'
  double : doubleQuote ∉ w
  single : singleQuote ∉ w

/-- **A scalar before the cut** is the same whichever word comes after it, unless it goes on behind
the cut. -/
theorem scanScalar_append_word {w' : List Char} {value : List Char × Bool} (hs : s ≠ [])
    (hcut : CutWords w w') (h : scanScalar (s ++ w) = some (value, left)) :
    (∃ left', left = left' ++ w ∧ scanScalar (s ++ w') = some (value, left' ++ w')) ∨
      value = (s ++ (scanPlain w).1, true) := by
  obtain ⟨c, s, rfl⟩ := List.exists_cons_of_ne_nil hs
  simp only [List.cons_append, scanScalar] at h ⊢
  split_ifs at h with hdouble hsingle hstart
  · obtain ⟨r, hr, heq⟩ := Option.map_eq_some_iff.mp h
    obtain ⟨rfl, rfl⟩ := Prod.mk.inj heq
    obtain ⟨left', hleft, hscan⟩ := scanDouble_append_word hcut.double hr
    exact .inl ⟨left', hleft, by rw [if_pos hdouble, hscan w']; rfl⟩
  · obtain ⟨r, hr, heq⟩ := Option.map_eq_some_iff.mp h
    obtain ⟨rfl, rfl⟩ := Prod.mk.inj heq
    obtain ⟨left', hleft, hscan⟩ := scanSingle_append_word hcut.single hr
    exact .inl ⟨left', hleft, by
      rw [if_neg hdouble, if_pos hsingle, hscan w' hcut.opens']; rfl⟩
  · obtain ⟨rfl, rfl⟩ := Prod.mk.inj (Option.some.inj h)
    have hstart' : startsPlain (c :: (s ++ w')) = true := by
      rw [startsPlain, blankNext_append hcut.opens] at hstart
      rw [startsPlain, blankNext_append hcut.opens', hstart]
    rcases scanPlain_append_word (c :: s) with ⟨text, left', hscan⟩ | hscan
    · have hw := hscan w hcut.opens
      have hw' := hscan w' hcut.opens'
      rw [List.cons_append] at hw hw'
      exact .inl ⟨left', by rw [hw], by
        rw [if_neg hdouble, if_neg hsingle, if_pos hstart', hw, hw']⟩
    · have hw := hscan w hcut.opens
      rw [List.cons_append] at hw
      exact .inr (by rw [hw]; rfl)

/-- **A key before the cut** is the same whichever word comes after it; a key that is not is that of
the whole word. -/
theorem readKey_append_word {w' tail : List Char} (hs : s ≠ []) (hcut : CutWords w w')
    (h : readKey (s ++ w) = some (k, tail)) :
    (∃ tail', readKey (s ++ w') = some (k, tail')) ∨
      (resolve (s ++ (scanPlain w).1)).map Scalar.asKey = some k := by
  obtain ⟨value, left, hscan, hleft, hblank, hshort, hkey⟩ := readKey_eq_some.mp h
  rcases scanScalar_append_word hs hcut hscan with ⟨left', rfl, hscan'⟩ | rfl
  · left
    -- What is left before the cut has the colon, and a blank after it.
    have hsplit : ∃ tail', left'.dropWhile (· = ' ') = ':' :: tail' ∧ tail = tail' ++ w := by
      rw [List.dropWhile_append] at hleft
      cases hdrop : left'.dropWhile (· = ' ') with
      | nil =>
        rw [hdrop, List.isEmpty_nil, if_pos rfl, hcut.opens.dropWhile] at hleft
        obtain ⟨c, cs, heq, hc⟩ := hcut.opens
        rw [heq] at hleft
        simp only [List.mem_cons, not_or] at hc
        exact absurd (List.cons.inj hleft).1 hc.2.2.1
      | cons c tail' =>
        rw [hdrop, if_neg (by simp), List.cons_append] at hleft
        obtain ⟨rfl, rfl⟩ := List.cons.inj hleft
        exact ⟨tail', rfl, rfl⟩
    obtain ⟨tail', hdrop, rfl⟩ := hsplit
    rw [blankNext_append hcut.opens] at hblank
    refine ⟨tail' ++ w', readKey_eq_some.mpr ⟨value, left' ++ w', hscan', ?_, ?_, ?_, hkey⟩⟩
    · rw [List.dropWhile_append, hdrop, if_neg (by simp), List.cons_append]
    · rw [blankNext_append hcut.opens', hblank]
    · simp only [List.length_append] at hshort ⊢
      omega
  · right
    rwa [scalarOf, if_pos rfl] at hkey

/-- **A key that is not quoted** is what its line begins with. -/
theorem prefix_of_readKey {c : Char} {x : String} {tail : List Char}
    (hquote : c ≠ doubleQuote ∧ c ≠ singleQuote) (h : readKey (c :: cs) = some (.str x, tail)) :
    x.toList <+: c :: cs := by
  obtain ⟨value, left, hscan, -, -, -, hkey⟩ := readKey_eq_some.mp h
  rw [scanScalar, if_neg hquote.1, if_neg hquote.2] at hscan
  split_ifs at hscan
  obtain ⟨rfl, rfl⟩ := Prod.mk.inj (Option.some.inj hscan)
  obtain ⟨v, hv, hstring⟩ := Option.map_eq_some_iff.mp hkey
  rw [scalarOf, if_pos rfl] at hv
  rw [eq_of_resolve hv hstring, String.toList_ofList]
  exact ⟨_, scanPlain_append (c :: cs)⟩

end Yaml

end Machinery
