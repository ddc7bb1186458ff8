import CloudSpells.Network.Ipv6
import Mathlib.Data.List.Induction
import Mathlib.Data.List.TakeWhile

/-!
# Network/Ipv6Text — an IPv6 network written is read back

`str` of an IPv6 network leaves out its longest sequence of zero hextets, and `ip_network` puts back
as many as are missing.  **A written network reads back as itself** (`anyNetwork_str`), of either
family, unless it has a scope.

The loop of `_compress_hextets` finds a sequence of zeros (`Reads`); cutting it out leaves the
hextets before and after it around an empty part (`shorten`), which is what `partsHiLo` looks for.
-/

namespace CloudSpells

open Machinery Machinery.Segments

/-! ## One hextet -/

private theorem hexDigit_digitChar : ∀ n < 16, hexDigit n.digitChar = some n := by decide

/-- The digits of a number are read one by one, and are its digits. -/
private theorem mapM_hexDigit_toDigits (n : ℕ) : ∃ digits,
    (Nat.toDigits 16 n).mapM hexDigit = some digits ∧
    digits.length = (Nat.toDigits 16 n).length ∧
    digits.foldl (fun n digit => n * 16 + digit) 0 = n := by
  induction n using Nat.strongRecOn with
  | _ n ih =>
    by_cases h : n < 16
    · rw [Nat.toDigits_of_lt_base h]
      exact ⟨[n], by simp [hexDigit_digitChar n h], rfl, by simp⟩
    · obtain ⟨digits, hdigits, hlen, hvalue⟩ := ih (n / 16) (by omega)
      have hlast := hexDigit_digitChar (n % 16) (Nat.mod_lt n (by decide))
      rw [Nat.toDigits_of_base_le (by decide) (by omega)]
      refine ⟨digits ++ [n % 16], by simp [hdigits, hlast], by simp [hlen], ?_⟩
      rw [List.foldl_append, hvalue]
      exact Nat.div_add_mod' n 16

/-- **A hextet written is read back.** -/
theorem parseHextet_toDigits {n : ℕ} (h : n < 2 ^ 16) :
    parseHextet (Nat.toDigits 16 n) = some (BitVec.ofNat 128 n) := by
  obtain ⟨digits, hdigits, hlen, hvalue⟩ := mapM_hexDigit_toDigits n
  have hle : digits.length ≤ 4 :=
    hlen ▸ (Nat.length_toDigits_le_iff (by decide) (by decide)).mpr h
  have hne : digits ≠ [] := fun hnil => by
    rw [hnil] at hlen
    exact Nat.toDigits_ne_nil (List.length_eq_zero_iff.mp hlen.symm)
  rw [parseHextet, hdigits, Option.bind_eq_bind, Option.bind_some,
    if_neg (not_or.mpr ⟨hne, by omega⟩), hvalue]

theorem exists_digit_of_mem_toDigits {n : ℕ} {c : Char} (h : c ∈ Nat.toDigits 16 n) :
    ∃ m < 16, c = m.digitChar := by
  induction n using Nat.strongRecOn with
  | _ n ih =>
    by_cases hlt : n < 16
    · rw [Nat.toDigits_of_lt_base hlt, List.mem_singleton] at h
      exact ⟨n, hlt, h⟩
    · rw [Nat.toDigits_of_base_le (by decide) (by omega), List.mem_append, List.mem_singleton] at h
      rcases h with h | rfl
      · exact ih (n / 16) (by omega) h
      · exact ⟨n % 16, Nat.mod_lt n (by decide), rfl⟩

/-- A character that is no hexadecimal digit is in no hextet. -/
theorem notMem_toDigits {c : Char} (h : hexDigit c = none) (n : ℕ) : c ∉ Nat.toDigits 16 n := by
  intro hc
  obtain ⟨m, hm, rfl⟩ := exists_digit_of_mem_toDigits hc
  rw [hexDigit_digitChar m hm] at h
  cases h

private theorem eq_zero_of_toDigits {n : ℕ} (h : Nat.toDigits 16 n = ['0']) : n = 0 := by
  obtain ⟨digits, hdigits, -, hvalue⟩ := mapM_hexDigit_toDigits n
  rw [h] at hdigits
  obtain rfl : digits = [0] := (Option.some.inj hdigits).symm
  exact hvalue.symm

/-! ## The loop of `_compress_hextets` -/

/-- What the loop has found in the hextets read so far: a sequence of zeros, and the one it is in.
-/
structure DoubleColon.Reads (st : DoubleColon) (read : List String) : Prop where
  le : st.bestStart + st.bestLen ≤ read.length
  zeros : ∀ i, st.bestStart ≤ i → i < st.bestStart + st.bestLen → read[i]? = some "0"
  idle : st.start = none → st.len = 0
  current : ∀ start, st.start = some start → start + st.len = read.length ∧
    ∀ i, start ≤ i → i < read.length → read[i]? = some "0"

theorem DoubleColon.reads_nil : DoubleColon.Reads {} [] where
  le := Nat.le_refl 0
  zeros := fun i _ hi => absurd hi (Nat.not_lt_zero i)
  idle := fun _ => rfl
  current := fun _ h => nomatch h

/-- **One hextet more.** -/
theorem DoubleColon.Reads.step {st : DoubleColon} {read : List String} (h : st.Reads read)
    (hextet : String) : (st.step read.length hextet).Reads (read ++ [hextet]) := by
  have hkept : ∀ {i}, read[i]? = some "0" → (read ++ [hextet])[i]? = some "0" := fun {i} hi => by
    rw [List.getElem?_append_left (List.getElem?_eq_some_iff.mp hi).1, hi]
  have hlength : (read ++ [hextet]).length = read.length + 1 := by simp
  have hle := h.le
  by_cases hzero : hextet = "0"
  · -- The current sequence goes on to this hextet, where it ends for now.
    have hcurrent : st.start.getD read.length + st.len = read.length ∧
        ∀ i, st.start.getD read.length ≤ i → i < read.length + 1 →
          (read ++ [hextet])[i]? = some "0" := by
      have hlast : (read ++ [hextet])[read.length]? = some "0" := by simp [hzero]
      cases hstart : st.start with
      | none =>
        refine ⟨by simp [h.idle hstart], fun i hi hlt => ?_⟩
        obtain rfl : i = read.length := Nat.le_antisymm (by omega) hi
        exact hlast
      | some start =>
        obtain ⟨hlen, hall⟩ := h.current start hstart
        refine ⟨hlen, fun i hi hlt => ?_⟩
        rcases Nat.eq_or_lt_of_le (Nat.le_of_lt_succ hlt) with rfl | hlt
        · exact hlast
        · exact hkept (hall i hi hlt)
    rw [DoubleColon.step, if_pos hzero]
    by_cases hbest : st.bestLen < st.len + 1
    · simp only [if_pos hbest]
      exact ⟨by simp only [hlength]; omega, fun i hi hlt => hcurrent.2 i hi (by simp at hlt; omega),
        nofun, fun start hstart => by
          obtain rfl := Option.some.inj hstart
          exact ⟨by simp only [hlength]; omega, fun i hi hlt => hcurrent.2 i hi (hlength ▸ hlt)⟩⟩
    · simp only [if_neg hbest]
      exact ⟨by simp only [hlength]; omega, fun i hi hlt => hkept (h.zeros i hi hlt), nofun,
        fun start hstart => by
          obtain rfl := Option.some.inj hstart
          exact ⟨by simp only [hlength]; omega, fun i hi hlt => hcurrent.2 i hi (hlength ▸ hlt)⟩⟩
  · rw [DoubleColon.step, if_neg hzero]
    exact ⟨by simp only [hlength]; omega, fun i hi hlt => hkept (h.zeros i hi hlt), fun _ => rfl,
      nofun⟩

theorem DoubleColon.reads_foldl (hextets : List String) :
    (hextets.zipIdx.foldl (fun (st : DoubleColon) hextet => st.step hextet.2 hextet.1) {}).Reads
      hextets := by
  induction hextets using List.reverseRecOn with
  | nil => exact reads_nil
  | append_singleton read hextet ih =>
    rw [List.zipIdx_append, List.foldl_append]
    simpa using ih.step hextet

/-- The sequence found, cut out. -/
theorem DoubleColon.Reads.eq_append {st : DoubleColon} {read : List String} (h : st.Reads read) :
    read = read.take st.bestStart ++ List.replicate st.bestLen "0" ++
      read.drop (st.bestStart + st.bestLen) := by
  have hle := h.le
  have hzeros : (read.drop st.bestStart).take st.bestLen = List.replicate st.bestLen "0" := by
    refine List.ext_getElem? fun i => ?_
    by_cases hi : i < st.bestLen
    · rw [List.getElem?_take_of_lt hi, List.getElem?_drop, h.zeros _ (by omega) (by omega),
        List.getElem?_replicate_of_lt hi]
    · rw [List.getElem?_eq_none (by simp; omega), List.getElem?_eq_none (by simp; omega)]
  rw [← hzeros, List.append_assoc, ← List.drop_drop, List.take_append_drop, List.take_append_drop]

/-! ## The parts of a shortened address -/

/-- The parts on one side of `::`; a side without any is one empty part. -/
def side {α : Type} (parts : List (List α)) : List (List α) := if parts = [] then [[]] else parts

/-- The parts of a shortened address. -/
def shorten {α : Type} (pre post : List (List α)) : List (List α) := side pre ++ [] :: side post

theorem length_side {α : Type} (parts : List (List α)) :
    (side parts).length = max 1 parts.length := by
  cases parts with
  | nil => rfl
  | cons part parts =>
    rw [side, if_neg (List.cons_ne_nil _ _), List.length_cons]
    omega

theorem take_shorten {α : Type} (pre post : List (List α)) :
    (shorten pre post).take pre.length = pre := by
  cases pre with
  | nil => rfl
  | cons part pre =>
    rw [shorten, side, if_neg (List.cons_ne_nil _ _)]
    exact List.take_left' rfl

theorem drop_shorten {α : Type} (pre post : List (List α)) :
    (shorten pre post).drop ((shorten pre post).length - post.length) = post := by
  cases post with
  | nil => simp
  | cons part post =>
    have hlen : (shorten pre (part :: post)).length - (part :: post).length =
        (side pre ++ [[]]).length := by
      rw [shorten, side, side, if_neg (List.cons_ne_nil _ _)]
      simp
      omega
    have hsplit : shorten pre (part :: post) = side pre ++ [[]] ++ part :: post := by
      rw [shorten, side, side, if_neg (List.cons_ne_nil part post), List.append_assoc]
      rfl
    rw [hlen, hsplit, List.drop_left]

theorem length_shorten {α : Type} (pre post : List (List α)) :
    (shorten pre post).length = max 1 pre.length + 1 + max 1 post.length := by
  rw [shorten, List.length_append, List.length_cons, length_side, length_side]
  omega

theorem head?_shorten {α : Type} {pre post : List (List α)} (h : [] ∉ pre) :
    (shorten pre post).head? = some [] ↔ pre = [] := by
  cases pre with
  | nil => simp [shorten, side]
  | cons part pre =>
    have hne : part ≠ [] := fun hnil => h (by simp [hnil])
    simp [shorten, side, hne]

theorem getLast?_shorten {α : Type} {pre post : List (List α)} (h : [] ∉ post) :
    (shorten pre post).getLast? = some [] ↔ post = [] := by
  cases post with
  | nil => simp [shorten, side]
  | cons part post =>
    have hlast : (shorten pre (part :: post)).getLast? = (part :: post).getLast? := by
      rw [shorten, side, side, if_neg (List.cons_ne_nil _ _)]
      simp [Option.or_of_isSome]
    rw [hlast]
    exact ⟨fun hnil => absurd (List.mem_of_getLast? hnil) h, nofun⟩

/-- The only empty part inside is the one for the zeros. -/
theorem skipIndices_shorten {pre post : List (List Char)} (hpre : [] ∉ pre) (hpost : [] ∉ post) :
    skipIndices (shorten pre post) = [max 1 pre.length] := by
  have hlen := length_shorten pre post
  have hside : ∀ {parts : List (List Char)} {i : ℕ}, [] ∉ parts → (side parts)[i]? = some [] →
      parts = [] := by
    intro parts i hparts h
    by_contra hne
    rw [side, if_neg hne] at h
    exact hparts (List.mem_of_getElem? h)
  have hiff : ∀ i ∈ List.range (shorten pre post).length,
      decide (0 < i ∧ i + 1 < (shorten pre post).length ∧ (shorten pre post)[i]? = some []) =
        (i == max 1 pre.length) := by
    intro i hi
    rw [Bool.eq_iff_iff, decide_eq_true_iff, beq_iff_eq]
    constructor
    · rintro ⟨hpos, hlt, hnil⟩
      rcases lt_trichotomy i (max 1 pre.length) with hbefore | heq | hafter
      · rw [shorten, List.getElem?_append_left (by rwa [length_side])] at hnil
        obtain rfl := hside hpre hnil
        simp at hbefore
        omega
      · exact heq
      · rw [shorten, List.getElem?_append_right (by rw [length_side]; omega), length_side,
          List.getElem?_cons, if_neg (by omega)] at hnil
        obtain rfl := hside hpost hnil
        simp at hlen
        omega
    · rintro rfl
      refine ⟨by omega, by omega, ?_⟩
      rw [shorten, List.getElem?_append_right (by rw [length_side]), length_side, Nat.sub_self]
      rfl
  rw [skipIndices, List.filter_congr hiff, List.filter_beq, List.count_eq_one_of_mem
    List.nodup_range (by rw [List.mem_range]; omega)]
  rfl

/-- **The parts before and after the zeros are told apart.** -/
theorem partsHiLo_shorten {pre post : List (List Char)} (hpre : [] ∉ pre) (hpost : [] ∉ post)
    (hlen : pre.length + post.length ≤ 7) :
    partsHiLo (shorten pre post) = some (pre.length, post.length) := by
  have hhi : (if pre = [] then max 1 pre.length - 1 else max 1 pre.length) = pre.length := by
    cases pre with
    | nil => rfl
    | cons part pre => rw [if_neg (List.cons_ne_nil _ _), List.length_cons]; omega
  have hlo : (if post = [] then max 1 pre.length + 1 + max 1 post.length - max 1 pre.length - 2
      else max 1 pre.length + 1 + max 1 post.length - max 1 pre.length - 1) = post.length := by
    cases post with
    | nil => rw [if_pos rfl, List.length_nil]; omega
    | cons part post => rw [if_neg (List.cons_ne_nil _ _), List.length_cons]; omega
  have hnil : ∀ {parts : List (List Char)}, ¬ (parts = [] ∧ parts.length ≠ 0) :=
    fun h => h.2 (by rw [h.1]; rfl)
  rw [partsHiLo, skipIndices_shorten hpre hpost]
  simp only [head?_shorten hpre, getLast?_shorten hpost, length_shorten, hhi, hlo]
  rw [if_neg hnil, if_neg hnil, if_neg (by omega)]

/-! ## What `_compress_hextets` returns -/

/-- It leaves the hextets alone, or cuts zeros out of them. -/
theorem compressHextets_eq (hextets : List String) : compressHextets hextets = hextets ∨
    ∃ pre k post, hextets = pre ++ List.replicate k "0" ++ post ∧ 0 < k ∧
      (compressHextets hextets).map String.toList =
        shorten (pre.map String.toList) (post.map String.toList) := by
  have hreads := DoubleColon.reads_foldl hextets
  have heq := hreads.eq_append
  have hle := hreads.le
  rw [compressHextets]
  generalize hextets.zipIdx.foldl (fun (st : DoubleColon) hextet => st.step hextet.2 hextet.1) {} =
    st at hreads heq hle
  by_cases hbest : st.bestLen ≤ 1
  · exact Or.inl (if_pos hbest)
  · refine Or.inr ⟨_, _, _, heq, by omega, ?_⟩
    have hpre : ((if st.bestStart = 0 then [""] else []) ++ hextets.take st.bestStart).map
        String.toList = side ((hextets.take st.bestStart).map String.toList) := by
      by_cases hzero : st.bestStart = 0
      · simp [hzero, side]
      · have hne : hextets ≠ [] := fun hnil => by
          rw [hnil, List.length_nil] at hle
          omega
        simp [hzero, side, hne]
    have hpost : (hextets.drop (st.bestStart + st.bestLen) ++
        if st.bestStart + st.bestLen = hextets.length then [""] else []).map String.toList =
          side ((hextets.drop (st.bestStart + st.bestLen)).map String.toList) := by
      by_cases hend : st.bestStart + st.bestLen = hextets.length
      · simp [hend, side]
      · have hlt : ¬ hextets.length ≤ st.bestStart + st.bestLen := by omega
        simp [hend, side, hlt]
    simp only [if_neg hbest, List.append_assoc] at hpre hpost ⊢
    rw [shorten, ← hpre, ← hpost]
    simp

theorem mem_compressHextets {hextets : List String} {hextet : String}
    (h : hextet ∈ compressHextets hextets) : hextet = "" ∨ hextet ∈ hextets := by
  have hnil : ∀ {c : Prop} [Decidable c], hextet ∈ (if c then [""] else []) → hextet = "" :=
    fun hmem => by
      split at hmem
      · exact List.mem_singleton.mp hmem
      · exact absurd hmem List.not_mem_nil
  rw [compressHextets] at h
  split at h
  · exact Or.inr h
  · simp only [List.mem_append, List.mem_singleton] at h
    rcases h with (((h | h) | h) | h) | h
    · exact Or.inl (hnil h)
    · exact Or.inr (List.mem_of_mem_take h)
    · exact Or.inl h
    · exact Or.inr (List.mem_of_mem_drop h)
    · exact Or.inl (hnil h)

/-! ## The value of the hextets -/

/-- The number with the hextets at its end. -/
def joinHextets (ip : ℕ) (hextets : List ℕ) : ℕ := hextets.foldl (fun ip n => ip * 2 ^ 16 + n) ip

theorem joinHextets_append (ip : ℕ) (hextets hextets' : List ℕ) :
    joinHextets ip (hextets ++ hextets') = joinHextets (joinHextets ip hextets) hextets' :=
  List.foldl_append

theorem joinHextets_zeros (ip k : ℕ) :
    joinHextets ip (List.replicate k 0) = ip * 2 ^ (16 * k) := by
  induction k generalizing ip with
  | zero => simp [joinHextets]
  | succ k ih =>
    have hstep : joinHextets ip (List.replicate (k + 1) 0) =
        joinHextets (ip * 2 ^ 16 + 0) (List.replicate k 0) := rfl
    rw [hstep, ih, Nat.add_zero, Nat.mul_assoc, ← pow_add]
    congr 2
    omega

private theorem shiftLeft_or_ofNat {n : ℕ} (h : n < 2 ^ 16) (ip : ℕ) :
    BitVec.ofNat 128 ip <<< 16 ||| BitVec.ofNat 128 n = BitVec.ofNat 128 (ip * 2 ^ 16 + n) := by
  have hshift : BitVec.ofNat 128 ip <<< 16 = BitVec.ofNat 128 (ip <<< 16) :=
    BitVec.eq_of_toNat_eq (by simp [Nat.shiftLeft_eq, Nat.mod_mul_mod])
  rw [hshift, ← BitVec.ofNat_or, ← Nat.shiftLeft_add_eq_or_of_lt h, Nat.shiftLeft_eq]

/-- **Shifting the hextets in joins them.** -/
theorem shiftIn_ofNat {hextets : List ℕ} (h : ∀ n ∈ hextets, n < 2 ^ 16) (ip : ℕ) :
    shiftIn (BitVec.ofNat 128 ip) (hextets.map (BitVec.ofNat 128)) =
      BitVec.ofNat 128 (joinHextets ip hextets) := by
  induction hextets generalizing ip with
  | nil => rfl
  | cons n hextets ih =>
    have hstep : shiftIn (BitVec.ofNat 128 ip) ((n :: hextets).map (BitVec.ofNat 128)) =
        shiftIn (BitVec.ofNat 128 ip <<< 16 ||| BitVec.ofNat 128 n)
          (hextets.map (BitVec.ofNat 128)) := by
      rw [shiftIn, shiftIn, List.map_cons, List.foldl_cons]
    rw [hstep, shiftLeft_or_ofNat (h n List.mem_cons_self),
      ih fun m hm => h m (List.mem_cons_of_mem n hm), joinHextets, joinHextets, List.foldl_cons]

theorem mapM_parseHextet {hextets : List ℕ} (h : ∀ n ∈ hextets, n < 2 ^ 16) :
    (hextets.map (Nat.toDigits 16)).mapM parseHextet =
      some (hextets.map (BitVec.ofNat 128)) := by
  induction hextets with
  | nil => rfl
  | cons n hextets ih =>
    rw [List.map_cons, List.mapM_cons, parseHextet_toDigits (h n List.mem_cons_self),
      ih fun m hm => h m (List.mem_cons_of_mem n hm)]
    rfl

/-- The eight hextets of an address. -/
def hextetsOf (ip : ℕ) : List ℕ := (List.range 8).map fun i => ip / 2 ^ (16 * (7 - i)) % 2 ^ 16

theorem hextetsOf_lt (ip : ℕ) : ∀ n ∈ hextetsOf ip, n < 2 ^ 16 := by
  intro n hn
  obtain ⟨i, -, rfl⟩ := List.mem_map.mp hn
  exact Nat.mod_lt _ (by decide)

/-- **An address is its hextets, joined.** -/
theorem joinHextets_hextetsOf {ip : ℕ} (h : ip < 2 ^ 128) : joinHextets 0 (hextetsOf ip) = ip := by
  simp only [joinHextets, hextetsOf, List.range_succ, List.range_zero, List.nil_append,
    List.cons_append, List.map_cons, List.map_nil, List.foldl_cons, List.foldl_nil]
  omega

/-! ## An address -/

/-- The texts of the eight hextets. -/
def hextetStrs (ip : ℕ) : List String :=
  (hextetsOf ip).map fun n => String.ofList (Nat.toDigits 16 n)

theorem ipv6Str_eq (ip : ℕ) : ipv6Str ip = ":".intercalate (compressHextets (hextetStrs ip)) := by
  rw [ipv6Str, hextetStrs, hextetsOf, List.map_map]
  rfl

theorem toList_hextetStrs (ip : ℕ) :
    (hextetStrs ip).map String.toList = (hextetsOf ip).map (Nat.toDigits 16) := by
  simp [hextetStrs, Function.comp_def]

/-- Only hexadecimal digits are in the parts. -/
theorem notMem_of_mem_compressHextets {ip : ℕ} {part : String} {c : Char} (hc : hexDigit c = none)
    (h : part ∈ compressHextets (hextetStrs ip)) : c ∉ part.toList := by
  rcases mem_compressHextets h with rfl | hmem
  · exact List.not_mem_nil
  · obtain ⟨n, -, rfl⟩ := List.mem_map.mp hmem
    rw [String.toList_ofList]
    exact notMem_toDigits hc n

/-- Only hexadecimal digits and colons are in an address. -/
theorem notMem_ipv6Str {c : Char} (hc : hexDigit c = none) (hcolon : c ≠ ':') (ip : ℕ) :
    c ∉ (ipv6Str ip).toList := by
  intro h
  rw [ipv6Str_eq, String.toList_intercalate] at h
  rcases mem_intercalate h with heq | ⟨part, hpart, hmem⟩
  · exact hcolon heq
  · obtain ⟨text, htext, rfl⟩ := List.mem_map.mp hpart
    exact notMem_of_mem_compressHextets hc htext hmem

/-- The hextets of an address before and after the zeros left out, and the parts they make. -/
structure Parts (ip : ℕ) (parts : List (List Char)) (high low : List ℕ) : Prop where
  hextets : hextetsOf ip =
    high ++ List.replicate (8 - (high.length + low.length)) 0 ++ low
  three_le : 3 ≤ parts.length
  le_nine : parts.length ≤ 9
  hiLo : partsHiLo parts = some (high.length, low.length)
  take : parts.take high.length = high.map (Nat.toDigits 16)
  drop : parts.drop (parts.length - low.length) = low.map (Nat.toDigits 16)

private theorem nil_notMem_toDigits (hextets : List ℕ) :
    [] ∉ hextets.map (Nat.toDigits 16) := fun h => by
  obtain ⟨n, -, hn⟩ := List.mem_map.mp h
  exact Nat.toDigits_ne_nil hn

/-- Eight hextets written in full. -/
theorem parts_full (ip : ℕ) : Parts ip ((hextetStrs ip).map String.toList) (hextetsOf ip) [] := by
  have hlen : ((hextetsOf ip).map (Nat.toDigits 16)).length = 8 := by simp [hextetsOf]
  have hnil := nil_notMem_toDigits (hextetsOf ip)
  rw [toList_hextetStrs]
  generalize hparts : (hextetsOf ip).map (Nat.toDigits 16) = parts at hlen hnil
  have hskip : skipIndices parts = [] :=
    List.filter_eq_nil_iff.mpr fun i _ h =>
      hnil (List.mem_of_getElem? (of_decide_eq_true h).2.2)
  have hfirst : ¬ parts.head? = some [] := fun h => hnil (List.mem_of_head? h)
  have hlast : ¬ parts.getLast? = some [] := fun h => hnil (List.mem_of_getLast? h)
  refine ⟨by simp [hextetsOf], by omega, by omega, ?_, ?_, ?_⟩
  · rw [partsHiLo, hskip]
    simp only [hlen, hfirst, hlast, not_false_eq_true, and_self, if_true]
    simp [hextetsOf]
  · rw [← hparts]
    exact List.take_of_length_le (by simp)
  · simp

/-- An address with zeros left out. -/
theorem parts_shorten {ip : ℕ} {pre post : List String} {k : ℕ} (hk : 0 < k)
    (h : hextetStrs ip = pre ++ List.replicate k "0" ++ post) : ∃ high low,
    Parts ip (shorten (pre.map String.toList) (post.map String.toList)) high low := by
  obtain ⟨front, low, hfront, hpre, rfl⟩ := List.map_eq_append_iff.mp h
  obtain ⟨high, zeros, rfl, rfl, hzeros⟩ := List.map_eq_append_iff.mp hpre
  have hlen : high.length + zeros.length + low.length = 8 := by
    have hcount := congrArg List.length hfront
    simp only [List.length_append] at hcount
    rw [← hcount]
    simp [hextetsOf]
  have hk' : zeros.length = k := by simpa using congrArg List.length hzeros
  obtain rfl : zeros = List.replicate k 0 := by
    refine List.eq_replicate_iff.mpr ⟨hk', fun n hn => eq_zero_of_toDigits ?_⟩
    have hmem := hzeros ▸ List.mem_map_of_mem (f := fun n => String.ofList (Nat.toDigits 16 n)) hn
    exact String.ofList_injective (List.eq_of_mem_replicate hmem)
  have htexts : ∀ hextets : List ℕ, (hextets.map fun n =>
      String.ofList (Nat.toDigits 16 n)).map String.toList = hextets.map (Nat.toDigits 16) :=
    fun hextets => by simp [Function.comp_def]
  have hlenShorten := length_shorten (high.map (Nat.toDigits 16)) (low.map (Nat.toDigits 16))
  rw [List.length_replicate] at hlen hk'
  rw [List.length_map, List.length_map] at hlenShorten
  rw [htexts, htexts]
  refine ⟨high, low, ⟨?_, by omega, by omega, ?_, ?_, ?_⟩⟩
  · rw [hfront, show 8 - (high.length + low.length) = k by omega]
  · simpa using partsHiLo_shorten (nil_notMem_toDigits high) (nil_notMem_toDigits low)
      (by rw [List.length_map, List.length_map]; omega)
  · simpa using take_shorten (high.map (Nat.toDigits 16)) (low.map (Nat.toDigits 16))
  · simpa using drop_shorten (high.map (Nat.toDigits 16)) (low.map (Nat.toDigits 16))

theorem exists_parts (ip : ℕ) : ∃ high low,
    Parts ip ((compressHextets (hextetStrs ip)).map String.toList) high low := by
  rcases compressHextets_eq (hextetStrs ip) with heq | ⟨pre, k, post, hsplit, hk, heq⟩
  · rw [heq]
    exact ⟨_, _, parts_full ip⟩
  · rw [heq]
    exact parts_shorten hk hsplit

theorem splitOn_ipv6Str (ip : ℕ) : (ipv6Str ip).toList.splitOn ':' =
    (compressHextets (hextetStrs ip)).map String.toList := by
  have hne : compressHextets (hextetStrs ip) ≠ [] := fun hnil => by
    obtain ⟨high, low, hparts⟩ := exists_parts ip
    have := hparts.three_le
    rw [hnil] at this
    simp at this
  have hsegs : segments ':' (ipv6Str ip) =
      (compressHextets (hextetStrs ip)).flatMap (segments ':') := by
    rw [ipv6Str_eq, segments_intercalate rfl hne]
  rw [segments] at hsegs
  rw [hsegs, List.flatMap_congr fun part hpart =>
    segments_of_notMem (notMem_of_mem_compressHextets rfl hpart)]
  exact List.map_eq_flatMap.symm

/-- **An address written is read back.** -/
theorem ipv6IntFromString_ipv6Str {ip : ℕ} (h : ip < 2 ^ 128) :
    ipv6IntFromString (ipv6Str ip).toList = some (BitVec.ofNat 128 ip) := by
  obtain ⟨high, low, hparts⟩ := exists_parts ip
  have hlt := hextetsOf_lt ip
  rw [hparts.hextets] at hlt
  have hhigh : ∀ n ∈ high, n < 2 ^ 16 := fun n hn =>
    hlt n (List.mem_append_left _ (List.mem_append_left _ hn))
  have hlow : ∀ n ∈ low, n < 2 ^ 16 := fun n hn => hlt n (List.mem_append_right _ hn)
  have hsuffix : convertIpv4Suffix ((compressHextets (hextetStrs ip)).map String.toList) =
      some ((compressHextets (hextetStrs ip)).map String.toList) := by
    rw [convertIpv4Suffix]
    cases hlast : ((compressHextets (hextetStrs ip)).map String.toList).getLast? with
    | none => rfl
    | some last =>
      obtain ⟨part, hpart, rfl⟩ := List.mem_map.mp (List.mem_of_getLast? hlast)
      exact if_neg (notMem_of_mem_compressHextets rfl hpart)
  have hvalue : shiftIn (shiftIn 0 (high.map (BitVec.ofNat 128)) <<<
      (16 * (8 - (high.length + low.length)))) (low.map (BitVec.ofNat 128)) =
        BitVec.ofNat 128 ip := by
    have hshift : ∀ n k : ℕ, BitVec.ofNat 128 n <<< k = BitVec.ofNat 128 (n * 2 ^ k) := fun n k =>
      BitVec.eq_of_toNat_eq (by simp [Nat.shiftLeft_eq, Nat.mod_mul_mod])
    have hzero : (0 : BitVec 128) = BitVec.ofNat 128 0 := rfl
    rw [hzero, shiftIn_ofNat hhigh, hshift, shiftIn_ofNat hlow, ← joinHextets_zeros,
      ← joinHextets_append, ← joinHextets_append, ← List.append_assoc, ← hparts.hextets,
      joinHextets_hextetsOf h]
  have hthree := hparts.three_le
  have hnine := hparts.le_nine
  rw [ipv6IntFromString, splitOn_ipv6Str, if_neg (by omega), hsuffix]
  simp only [Option.bind_eq_bind, Option.bind_some]
  rw [if_neg (by omega), hparts.hiLo]
  simp only [Option.bind_some, hparts.take, hparts.drop, mapM_parseHextet hhigh,
    mapM_parseHextet hlow, hvalue]

/-! ## A network -/

theorem ipIntFromString_of_notMem {s : List Char} (h : '.' ∉ s) : ipIntFromString s = none := by
  rw [ipIntFromString, List.splitOn_eq_singleton h]

theorem splitScopeId_of_notMem {s : List Char} (h : '%' ∉ s) : splitScopeId s = some (s, none) := by
  have hall : ∀ c ∈ s, decide (c ≠ '%') = true := fun c hc =>
    decide_eq_true fun heq => h (heq ▸ hc)
  rw [splitScopeId, List.span_eq_takeWhile_dropWhile, List.takeWhile_eq_self_iff.mpr hall,
    List.dropWhile_eq_nil_iff.mpr hall]

private theorem prefixFromPrefixString6_str : ∀ n : Fin 129,
    prefixFromPrefixString6 (toString n.val).toList = some n := by decide +kernel

theorem splitOn_str_of_v6 (block : Block 128) :
    (IPNetwork.str ⟨.v6, none, block⟩).toList.splitOn '/' =
      [(ipv6Str block.base).toList, (toString block.len).toList] := by
  have hstr : IPNetwork.str ⟨.v6, none, block⟩ = ipv6Str block.base ++ "/" ++ toString block.len :=
    rfl
  have hsegs : segments '/' (ipv6Str block.base ++ "/" ++ toString block.len) =
      segments '/' (ipv6Str block.base) ++ segments '/' (toString block.len) :=
    segments_append rfl _ _
  rw [segments_of_notMem (notMem_ipv6Str rfl (by decide) _),
    segments_nat (show Char.isDigit '/' = false by decide)] at hsegs
  rw [hstr]
  exact hsegs

/-- **A written network reads back as itself**, of either family; a scope is read back with the
address it is of. -/
theorem anyNetwork_str {net : IPNetwork} (h : net.scopeId = none) :
    anyNetwork net.str = .ok net := by
  obtain ⟨version, scopeId, block⟩ := net
  obtain rfl : scopeId = none := h
  cases version with
  | v4 =>
    have hstr : IPNetwork.str ⟨.v4, none, block⟩ = IPv4Network.str block := by
      simp [IPNetwork.str, IPNetwork.addressStr, IPv4Network.str, cidrStr]
      rfl
    rw [hstr]
    exact anyNetwork_of_v4 (ipNetwork_str block)
  | v6 =>
    have hsplit := splitOn_str_of_v6 block
    have hv4 : splitAddrPrefix (IPNetwork.str ⟨.v6, none, block⟩).toList = none := by
      rw [splitAddrPrefix, hsplit]
      simp only [ipIntFromString_of_notMem (notMem_ipv6Str rfl (by decide) block.base)]
      rfl
    have hlen : block.len < 129 := Nat.lt_succ_of_le block.len_le
    have hbase : block.base < 2 ^ 128 := block.base_lt
    have hv6 : splitAddrPrefix6 (IPNetwork.str ⟨.v6, none, block⟩).toList =
        some (BitVec.ofNat 128 block.base, none, ⟨block.len, hlen⟩) := by
      rw [splitAddrPrefix6, hsplit]
      simp only [splitScopeId_of_notMem (notMem_ipv6Str rfl (by decide) block.base),
        Option.bind_eq_bind, Option.bind_some, ipv6IntFromString_ipv6Str hbase,
        prefixFromPrefixString6_str ⟨block.len, hlen⟩]
      rfl
    have hnat : (BitVec.ofNat 128 block.base).toNat = block.base := by
      rw [BitVec.toNat_ofNat, Nat.mod_eq_of_lt hbase]
    rw [anyNetwork, hv4, hv6]
    simp only [hnat]
    exact dif_pos block.aligned

end CloudSpells
