import Mathlib.Data.Finset.Insert
import Mathlib.Data.List.Basic

/-!
# Machinery/Ledger — a log in which the first writer of a key wins

Entries arrive in order.  An entry without a key is always written; an entry with a key is written
only if no earlier entry had that key.  `written` is the list of entries written and `keys` the keys
in use afterwards.

Two facts make the log independent of the order of arrival, up to a reading `f` of its entries:
what is written was offered (`mem_of_mem_written`) and every key offered is written by someone
(`exists_mem_written`); so, where a key determines `f`, the values written are exactly the values
offered (`mem_image_written`).
-/

namespace Machinery

namespace Ledger

variable {ι κ β : Type} [DecidableEq κ] (key : ι → Option κ)

/-- The entries written, in order, from a log in which the keys `seen` are in use. -/
def written : Finset κ → List ι → List ι
  | _, [] => []
  | seen, i :: is => match key i with
    | none => i :: written seen is
    | some k => if k ∈ seen then written seen is else i :: written (insert k seen) is

/-- The keys in use after the entries. -/
def keys : Finset κ → List ι → Finset κ
  | seen, [] => seen
  | seen, i :: is => match key i with
    | none => keys seen is
    | some k => keys (insert k seen) is

/-- An entry the keys in use do not shut out. -/
def Fresh (seen : Finset κ) (i : ι) : Prop := ∀ k, key i = some k → k ∉ seen

variable {key} {seen : Finset κ} {i : ι} {is js : List ι} {k : κ}

@[simp] theorem written_nil : written key seen [] = [] := rfl

@[simp] theorem keys_nil : keys key seen [] = seen := rfl

theorem written_cons_none (h : key i = none) :
    written key seen (i :: is) = i :: written key seen is := by simp only [written, h]

theorem written_cons_seen (h : key i = some k) (hk : k ∈ seen) :
    written key seen (i :: is) = written key seen is := by simp only [written, h, if_pos hk]

theorem written_cons_fresh (h : key i = some k) (hk : k ∉ seen) :
    written key seen (i :: is) = i :: written key (insert k seen) is := by
  simp only [written, h, if_neg hk]

theorem keys_cons_none (h : key i = none) : keys key seen (i :: is) = keys key seen is := by
  simp only [keys, h]

theorem keys_cons_some (h : key i = some k) :
    keys key seen (i :: is) = keys key (insert k seen) is := by simp only [keys, h]

theorem keys_append : keys key seen (is ++ js) = keys key (keys key seen is) js := by
  induction is generalizing seen with
  | nil => rfl
  | cons i is ih =>
    cases h : key i with
    | none => rw [List.cons_append, keys_cons_none h, keys_cons_none h, ih]
    | some k => rw [List.cons_append, keys_cons_some h, keys_cons_some h, ih]

/-- **A key is in use iff it was, or an entry brought it.** -/
theorem mem_keys : k ∈ keys key seen is ↔ k ∈ seen ∨ ∃ i ∈ is, key i = some k := by
  induction is generalizing seen with
  | nil => simp
  | cons i is ih =>
    cases h : key i with
    | none => simp [keys_cons_none h, ih, h]
    | some k' =>
      rw [keys_cons_some h, ih, Finset.mem_insert]
      simp only [List.mem_cons, exists_eq_or_imp, h, Option.some.injEq]
      rw [or_assoc, or_left_comm, eq_comm (a := k)]

theorem written_append :
    written key seen (is ++ js) = written key seen is ++ written key (keys key seen is) js := by
  induction is generalizing seen with
  | nil => rfl
  | cons i is ih =>
    rw [List.cons_append]
    cases h : key i with
    | none => rw [written_cons_none h, written_cons_none h, keys_cons_none h, ih, List.cons_append]
    | some k =>
      rw [keys_cons_some h]
      by_cases hk : k ∈ seen
      · rw [written_cons_seen h hk, written_cons_seen h hk, Finset.insert_eq_of_mem hk, ih]
      · rw [written_cons_fresh h hk, written_cons_fresh h hk, ih, List.cons_append]

/-- **What is written was offered**, and was not shut out. -/
theorem mem_of_mem_written (h : i ∈ written key seen is) : i ∈ is ∧ Fresh key seen i := by
  induction is generalizing seen with
  | nil => simp at h
  | cons j js ih =>
    cases hj : key j with
    | none =>
      rw [written_cons_none hj, List.mem_cons] at h
      rcases h with rfl | h
      · exact ⟨by simp, fun k hk => by simp [hj] at hk⟩
      · exact ⟨List.mem_cons_of_mem _ (ih h).1, (ih h).2⟩
    | some k' =>
      by_cases hk : k' ∈ seen
      · rw [written_cons_seen hj hk] at h
        exact ⟨List.mem_cons_of_mem _ (ih h).1, (ih h).2⟩
      · rw [written_cons_fresh hj hk, List.mem_cons] at h
        rcases h with rfl | h
        · refine ⟨by simp, fun k hk' => ?_⟩
          obtain rfl : k' = k := Option.some.inj (hj.symm.trans hk')
          exact hk
        · exact ⟨List.mem_cons_of_mem _ (ih h).1, fun k hk' hmem =>
            (ih h).2 k hk' (Finset.mem_insert_of_mem hmem)⟩

/-- An entry without a key is written. -/
theorem mem_written_of_none (hi : i ∈ is) (h : key i = none) : i ∈ written key seen is := by
  induction is generalizing seen with
  | nil => simp at hi
  | cons j js ih =>
    rw [List.mem_cons] at hi
    cases hj : key j with
    | none =>
      rw [written_cons_none hj, List.mem_cons]
      exact hi.imp_right fun hi => ih hi
    | some k' =>
      have hmem : i ∈ js := hi.resolve_left (by rintro rfl; simp [hj] at h)
      by_cases hk : k' ∈ seen
      · rw [written_cons_seen hj hk]
        exact ih hmem
      · rw [written_cons_fresh hj hk]
        exact List.mem_cons_of_mem _ (ih hmem)

/-- **Every key offered is written by someone**, unless it was in use before. -/
theorem exists_mem_written (hi : i ∈ is) (h : key i = some k) (hk : k ∉ seen) :
    ∃ j ∈ written key seen is, key j = some k := by
  induction is generalizing seen with
  | nil => simp at hi
  | cons j js ih =>
    cases hj : key j with
    | none =>
      have hmem : i ∈ js := (List.mem_cons.mp hi).resolve_left (by rintro rfl; simp [hj] at h)
      obtain ⟨w, hw, hkw⟩ := ih hmem hk
      exact ⟨w, by rw [written_cons_none hj]; exact List.mem_cons_of_mem _ hw, hkw⟩
    | some k' =>
      by_cases hkk : k' = k
      · subst hkk
        exact ⟨j, by rw [written_cons_fresh hj hk]; simp, hj⟩
      · have hmem : i ∈ js := (List.mem_cons.mp hi).resolve_left
          (by rintro rfl; exact hkk (Option.some.inj (hj.symm.trans h)))
        by_cases hs : k' ∈ seen
        · obtain ⟨w, hw, hkw⟩ := ih hmem hk
          exact ⟨w, by rw [written_cons_seen hj hs]; exact hw, hkw⟩
        · have hk' : k ∉ insert k' seen := by simp [hk, Ne.symm hkk]
          obtain ⟨w, hw, hkw⟩ := ih hmem hk'
          exact ⟨w, by rw [written_cons_fresh hj hs]; exact List.mem_cons_of_mem _ hw, hkw⟩

/-- A key determines the reading `f` of the entries that carry it. -/
def Determines (key : ι → Option κ) (f : ι → β) (is : List ι) : Prop :=
  ∀ i ∈ is, ∀ j ∈ is, ∀ k, key i = some k → key j = some k → f i = f j

/-- **Where a key determines a reading, the log reads as what was offered** — whoever came
first. -/
theorem mem_image_written {f : ι → β} (hdet : Determines key f is) {b : β} :
    (∃ i ∈ written key seen is, f i = b) ↔ ∃ i ∈ is, Fresh key seen i ∧ f i = b := by
  constructor
  · rintro ⟨i, hi, hb⟩
    exact ⟨i, (mem_of_mem_written hi).1, (mem_of_mem_written hi).2, hb⟩
  · rintro ⟨i, hi, hfresh, hb⟩
    cases h : key i with
    | none => exact ⟨i, mem_written_of_none hi h, hb⟩
    | some k =>
      obtain ⟨j, hj, hkj⟩ := exists_mem_written hi h (hfresh k h)
      exact ⟨j, hj, (hdet j (mem_of_mem_written hj).1 i hi k hkj h).trans hb⟩

/-- **The order of arrival does not matter** to a reading the keys determine. -/
theorem mem_image_written_perm {f : ι → β} (hdet : Determines key f is) (hp : is.Perm js) {b : β} :
    (∃ i ∈ written key seen is, f i = b) ↔ ∃ i ∈ written key seen js, f i = b := by
  have hdet' : Determines key f js := fun i hi j hj =>
    hdet i (hp.mem_iff.mpr hi) j (hp.mem_iff.mpr hj)
  rw [mem_image_written hdet, mem_image_written hdet']
  simp only [hp.mem_iff]

end Ledger

end Machinery
