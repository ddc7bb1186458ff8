import Mathlib.Algebra.Order.Ring.Nat
import Mathlib.Data.List.FinRange
import Mathlib.Data.Set.Lattice
import Mathlib.Order.CompletePartialOrder
import Mathlib.Order.Interval.Set.Disjoint
import Mathlib.Tactic.Ring

/-!
# Machinery/Block — aligned blocks of a binary address space

A `Block w` is the set of `w`-bit addresses that share their first `len` bits: it starts at a
multiple of its own size.  `split` cuts it into `2 ^ k` consecutive blocks of equal size, each
inside it: the pieces are disjoint (`disjoint_of_piece`) and together they are the block
(`iUnion_piece`).
-/

namespace Machinery

/-- The addresses of width `w` that share the first `len` bits of `base`. -/
structure Block (w : ℕ) where
  base : ℕ
  len : ℕ
  len_le : len ≤ w
  base_lt : base < 2 ^ w
  aligned : 2 ^ (w - len) ∣ base
  deriving DecidableEq

namespace Block

variable {w : ℕ}

/-- The number of addresses of a block. -/
def size (b : Block w) : ℕ := 2 ^ (w - b.len)

/-- An address of a block. -/
def Contains (b : Block w) (a : ℕ) : Prop := b.base ≤ a ∧ a < b.base + b.size

instance (b : Block w) (a : ℕ) : Decidable (b.Contains a) := inferInstanceAs (Decidable (_ ∧ _))

/-- **A block ends inside the address space.** -/
theorem base_add_size_le (b : Block w) : b.base + b.size ≤ 2 ^ w := by
  obtain ⟨q, hq⟩ := b.aligned
  have hw : 2 ^ w = 2 ^ (w - b.len) * 2 ^ b.len := by
    rw [← pow_add, Nat.sub_add_cancel b.len_le]
  have hlt : q < 2 ^ b.len := by
    have hb := b.base_lt
    rw [hq, hw] at hb
    exact Nat.lt_of_mul_lt_mul_left hb
  calc b.base + b.size = 2 ^ (w - b.len) * (q + 1) := by rw [hq, size]; ring
    _ ≤ 2 ^ (w - b.len) * 2 ^ b.len := Nat.mul_le_mul_left _ hlt
    _ = 2 ^ w := hw.symm

/-! ## Cutting a block -/

/-- The size of a block, as `2 ^ k` pieces. -/
theorem size_eq_mul (b : Block w) {k : ℕ} (hk : b.len + k ≤ w) :
    b.size = 2 ^ k * 2 ^ (w - (b.len + k)) := by
  rw [size, ← pow_add]
  congr 1
  omega

/-- A piece of a block ends inside it. -/
theorem piece_le (b : Block w) {k : ℕ} (hk : b.len + k ≤ w) (i : Fin (2 ^ k)) :
    i * 2 ^ (w - (b.len + k)) + 2 ^ (w - (b.len + k)) ≤ b.size := by
  rw [size_eq_mul b hk, ← Nat.succ_mul]
  exact Nat.mul_le_mul_right _ i.isLt

/-- The `i`-th of the `2 ^ k` blocks a block is cut into. -/
def piece (b : Block w) (k : ℕ) (hk : b.len + k ≤ w) (i : Fin (2 ^ k)) : Block w where
  base := b.base + i * 2 ^ (w - (b.len + k))
  len := b.len + k
  len_le := hk
  base_lt := by
    have hpos : 0 < 2 ^ (w - (b.len + k)) := Nat.two_pow_pos _
    have := piece_le b hk i
    have := base_add_size_le b
    omega
  aligned := by
    have hdvd : 2 ^ (w - (b.len + k)) ∣ 2 ^ (w - b.len) := pow_dvd_pow 2 (by omega)
    exact Nat.dvd_add (hdvd.trans b.aligned) (Nat.dvd_mul_left _ _)

/-- The `2 ^ k` blocks a block is cut into, in address order. -/
def split (b : Block w) (k : ℕ) (hk : b.len + k ≤ w) : List (Block w) :=
  (List.finRange (2 ^ k)).map (b.piece k hk)

/-- **The pieces lie inside the block.** -/
theorem contains_of_piece {b : Block w} {k : ℕ} {hk : b.len + k ≤ w} {i : Fin (2 ^ k)} {a : ℕ}
    (h : (b.piece k hk i).Contains a) : b.Contains a := by
  have hle := piece_le b hk i
  obtain ⟨hlo, hhi⟩ := h
  simp only [piece, size] at hlo hhi
  simp only [Contains]
  omega

@[simp] theorem length_split (b : Block w) {k : ℕ} (hk : b.len + k ≤ w) :
    (b.split k hk).length = 2 ^ k := by simp [split]

/-! ## The addresses of a block -/

/-- The addresses of a block, as a set. -/
def addresses (b : Block w) : Set ℕ := Set.Ico b.base (b.base + b.size)

theorem mem_addresses {b : Block w} {a : ℕ} : a ∈ b.addresses ↔ b.Contains a := Iff.rfl

/-- One block ends before another begins. -/
def Before (b c : Block w) : Prop := b.base + b.size ≤ c.base

theorem Before.trans {b c d : Block w} (h : b.Before c) (h' : c.Before d) : b.Before d :=
  le_trans (le_trans h (Nat.le_add_right _ _)) h'

/-- **A block that ends before another shares no address with it.** -/
theorem Before.disjoint {b c : Block w} (h : b.Before c) : Disjoint b.addresses c.addresses := by
  rw [Set.disjoint_left]
  intro a hb hc
  exact absurd (hc.1.trans_lt hb.2) (Nat.not_lt.mpr h)

/-- The pieces lie in address order. -/
theorem piece_before (b : Block w) {k : ℕ} (hk : b.len + k ≤ w) {i j : Fin (2 ^ k)} (h : i < j) :
    (b.piece k hk i).Before (b.piece k hk j) := by
  have hle : ((i : ℕ) + 1) * 2 ^ (w - (b.len + k)) ≤ j * 2 ^ (w - (b.len + k)) :=
    Nat.mul_le_mul_right _ h
  rw [Nat.succ_mul] at hle
  simp only [Before, piece, size]
  omega

/-- **No two pieces share an address.** -/
theorem disjoint_of_piece (b : Block w) {k : ℕ} (hk : b.len + k ≤ w) {i j : Fin (2 ^ k)}
    (h : i ≠ j) : Disjoint (b.piece k hk i).addresses (b.piece k hk j).addresses := by
  rcases lt_or_gt_of_ne h with hlt | hgt
  · exact (piece_before b hk hlt).disjoint
  · exact (piece_before b hk hgt).disjoint.symm

/-- **The pieces are the whole block.** -/
theorem iUnion_piece (b : Block w) {k : ℕ} (hk : b.len + k ≤ w) :
    ⋃ i, (b.piece k hk i).addresses = b.addresses := by
  ext a
  rw [Set.mem_iUnion]
  constructor
  · rintro ⟨i, ha⟩
    exact contains_of_piece ha
  · rintro ⟨hlo, hhi⟩
    -- the piece of `a` is the quotient of its offset by the size of a piece
    set s := 2 ^ (w - (b.len + k)) with hs
    have hpos : 0 < s := Nat.two_pow_pos _
    have hquot : (a - b.base) / s < 2 ^ k := by
      rw [Nat.div_lt_iff_lt_mul hpos, ← size_eq_mul b hk]
      omega
    refine ⟨⟨(a - b.base) / s, hquot⟩, ?_⟩
    have hdiv := Nat.div_add_mod (a - b.base) s
    have hmod := Nat.mod_lt (a - b.base) hpos
    rw [mul_comm] at hdiv
    simp only [mem_addresses, Contains, piece, size, ← hs]
    omega

end Block

end Machinery
