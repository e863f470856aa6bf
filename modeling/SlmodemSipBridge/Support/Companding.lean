import Mathlib.Algebra.Group.Nat.Defs
import Mathlib.Data.Nat.Log

/-!
# Logarithmic quantization

A number is put into the segment between two powers of two that holds it, every
segment is cut into `2 ^ k` cells of one width, and the number becomes the
middle of its cell.  The error is half a cell at most, so it grows with the
number; the order of numbers is kept, and a middle stays what it is.
-/

namespace Companding

/-- The width of the cells in the segment of `x`. -/
def width (k x : ℕ) : ℕ := 2 ^ (Nat.log2 x - k)

/-- The middle of the cell of `x`. -/
def quantize (k x : ℕ) : ℕ := x / width k x * width k x + width k x / 2

theorem width_pos (k x : ℕ) : 0 < width k x := Nat.two_pow_pos _

section Segment

variable {k x : ℕ} (hk : 2 ^ k ≤ x)
include hk

theorem ne_zero_of_two_pow_le : x ≠ 0 := by
  have hpos := Nat.two_pow_pos k
  omega

/-- A segment begins with a cell. -/
theorem two_pow_log2_eq : 2 ^ Nat.log2 x = 2 ^ k * width k x := by
  have hle : k ≤ Nat.log2 x := (Nat.le_log2 (ne_zero_of_two_pow_le hk)).mpr hk
  rw [width, ← Nat.pow_add, Nat.add_sub_cancel' hle]

/-- The cells of a segment are those from `2 ^ k` on. -/
theorem two_pow_le_div : 2 ^ k ≤ x / width k x := by
  rw [Nat.le_div_iff_mul_le (width_pos k x), ← two_pow_log2_eq hk]
  exact Nat.log2_self_le (ne_zero_of_two_pow_le hk)

/-- There are `2 ^ k` of them. -/
theorem div_lt_two_pow : x / width k x < 2 ^ (k + 1) := by
  rw [Nat.div_lt_iff_lt_mul (width_pos k x), Nat.pow_succ, Nat.mul_right_comm,
    ← two_pow_log2_eq hk, ← Nat.pow_succ]
  exact Nat.lt_log2_self

theorem two_pow_log2_le_quantize : 2 ^ Nat.log2 x ≤ quantize k x := by
  have hcell := Nat.mul_le_mul_right (width k x) (two_pow_le_div hk)
  rw [two_pow_log2_eq hk, quantize]
  omega

theorem quantize_lt : quantize k x < 2 ^ (Nat.log2 x + 1) := by
  have hcell := Nat.mul_le_mul_right (width k x) (Nat.succ_le_of_lt (div_lt_two_pow hk))
  rw [Nat.pow_succ 2 k, Nat.mul_right_comm, ← two_pow_log2_eq hk, Nat.succ_mul] at hcell
  have hpos := width_pos k x
  rw [quantize, Nat.pow_succ]
  omega

/-- The order is kept. -/
theorem quantize_le_quantize {y : ℕ} (hxy : x ≤ y) : quantize k x ≤ quantize k y := by
  have hlog : Nat.log2 x ≤ Nat.log2 y := by
    rw [Nat.log2_eq_log_two, Nat.log2_eq_log_two]
    exact Nat.log_mono_right hxy
  rcases Nat.eq_or_lt_of_le hlog with hsame | hless
  · -- In one segment the cells have one width.
    have hwidth : width k y = width k x := by rw [width, width, hsame]
    rw [quantize, quantize, hwidth]
    have hcell := Nat.mul_le_mul_right (width k x) (Nat.div_le_div_right (c := width k x) hxy)
    omega
  · -- A lower segment ends where a higher one begins, at the latest.
    calc quantize k x ≤ 2 ^ (Nat.log2 x + 1) := Nat.le_of_lt (quantize_lt hk)
      _ ≤ 2 ^ Nat.log2 y := Nat.pow_le_pow_right (by decide) hless
      _ ≤ quantize k y := two_pow_log2_le_quantize (Nat.le_trans hk hxy)

end Segment

/-- The error is half a cell at most. -/
theorem quantize_error (k x : ℕ) :
    x ≤ quantize k x + width k x / 2 ∧ quantize k x ≤ x + width k x / 2 := by
  have hsplit := Nat.div_add_mod' x (width k x)
  have hrest := Nat.mod_lt x (width_pos k x)
  rw [quantize]
  omega

/-- The middle of a cell, from the segment and the cell. -/
theorem quantize_middle {k m : ℕ} (hm : m < 2 ^ k) (j : ℕ) :
    quantize k ((2 ^ k + m) * 2 ^ (j + 1) + 2 ^ j) = (2 ^ k + m) * 2 ^ (j + 1) + 2 ^ j := by
  have hhalf : 2 ^ j * 2 = 2 ^ (j + 1) := (Nat.pow_succ 2 j).symm
  have hpos := Nat.two_pow_pos j
  have hlow : 2 ^ (k + (j + 1)) ≤ (2 ^ k + m) * 2 ^ (j + 1) + 2 ^ j := by
    rw [Nat.pow_add, Nat.add_mul]
    omega
  have hhigh : (2 ^ k + m) * 2 ^ (j + 1) + 2 ^ j < 2 ^ (k + (j + 1) + 1) := by
    have hcells : (2 ^ k + m + 1) * 2 ^ (j + 1) ≤ 2 ^ (k + 1) * 2 ^ (j + 1) := by
      apply Nat.mul_le_mul_right
      rw [Nat.pow_succ]
      omega
    rw [← Nat.pow_add, Nat.add_right_comm k 1, Nat.succ_mul] at hcells
    omega
  have hne : (2 ^ k + m) * 2 ^ (j + 1) + 2 ^ j ≠ 0 := by omega
  have hlog := (Nat.log2_eq_iff hne).mpr ⟨hlow, hhigh⟩
  have hwidth : width k ((2 ^ k + m) * 2 ^ (j + 1) + 2 ^ j) = 2 ^ (j + 1) := by
    rw [width, hlog, Nat.add_sub_cancel_left]
  have hcell : ((2 ^ k + m) * 2 ^ (j + 1) + 2 ^ j) / 2 ^ (j + 1) = 2 ^ k + m := by
    rw [Nat.mul_comm, Nat.mul_add_div (Nat.two_pow_pos (j + 1)),
      Nat.div_eq_of_lt (by omega), Nat.add_zero]
  rw [quantize, hwidth, hcell, ← hhalf, Nat.mul_div_cancel _ (by decide)]

end Companding
