import Mathlib.Data.BitVec

/-!
# Rounding up to whole pages

`(n + (page - 1)) & ~(page - 1)` for a page size that is a power of two, and regions that follow one
another, each rounded up to whole pages.
-/

namespace CloudflareBlog.Lib.Pages

/-- The least multiple of `page` that is not below `n`. -/
def roundUp (page n : Nat) : Nat := (n + (page - 1)) / page * page

theorem le_roundUp {page : Nat} (positive : 0 < page) (n : Nat) : n ≤ roundUp page n := by
  have whole := Nat.div_add_mod (n + (page - 1)) page
  have rest := Nat.mod_lt (n + (page - 1)) positive
  rw [roundUp, Nat.mul_comm]
  omega

/-- The sum to be rounded fits if its rounding does. -/
theorem lt_of_roundUp_lt {k width n : Nat} (narrow : k < width)
    (room : roundUp (2 ^ k) n < 2 ^ width) : n + (2 ^ k - 1) < 2 ^ width := by
  obtain ⟨rest, split⟩ := Nat.pow_dvd_pow 2 (Nat.le_of_lt narrow)
  have positive : 0 < 2 ^ k := Nat.two_pow_pos k
  rw [roundUp, split, Nat.mul_comm (2 ^ k) rest] at room
  have below := Nat.lt_of_mul_lt_mul_right room
  rw [split, Nat.mul_comm (2 ^ k) rest]
  exact (Nat.div_lt_iff_lt_mul positive).mp below

variable {width : Nat}

theorem toNat_sub_one {page : BitVec width} {k : Nat} (isPower : page.toNat = 2 ^ k) :
    (page - 1).toNat = 2 ^ k - 1 := by
  have small := page.isLt
  have positive : 0 < 2 ^ k := Nat.two_pow_pos k
  have wide : width ≠ 0 := by
    rintro rfl
    rw [BitVec.toNat_of_zero_length rfl] at isPower
    omega
  have one : (1 : BitVec width).toNat = 1 := by
    rw [BitVec.ofNat_eq_ofNat, BitVec.toNat_ofNat, Nat.mod_eq_of_lt (Nat.one_lt_two_pow wide)]
  rw [BitVec.toNat_sub_of_le (BitVec.le_def.mpr (by omega)), isPower, one]

/-- The mask clears the bits below the page size. -/
theorem toNat_and_not_mask {page : BitVec width} {k : Nat} (isPower : page.toNat = 2 ^ k)
    (x : BitVec width) : (x &&& ~~~(page - 1)).toNat = x.toNat / 2 ^ k * 2 ^ k := by
  have mask := toNat_sub_one isPower
  have shifted : x &&& ~~~(page - 1) = (x >>> k) <<< k := by
    apply BitVec.eq_of_getLsbD_eq
    intro bit inside
    rw [BitVec.getLsbD_and, BitVec.getLsbD_not, BitVec.getLsbD_shiftLeft, BitVec.getLsbD_ushiftRight,
      ← BitVec.testBit_toNat (page - 1), mask, Nat.testBit_two_pow_sub_one]
    obtain below | above := Nat.lt_or_ge bit k
    · simp [below]
    · simp [inside, Nat.not_lt.mpr above, Nat.add_sub_cancel' above]
  have reduced : x.toNat / 2 ^ k * 2 ^ k < 2 ^ width :=
    Nat.lt_of_le_of_lt (Nat.div_mul_le_self _ _) x.isLt
  rw [shifted, BitVec.toNat_shiftLeft, BitVec.toNat_ushiftRight, Nat.shiftRight_eq_div_pow,
    Nat.shiftLeft_eq, Nat.mod_eq_of_lt reduced]

theorem toNat_alignMask {page n : BitVec width} {k : Nat} (isPower : page.toNat = 2 ^ k)
    (room : roundUp (2 ^ k) n.toNat < 2 ^ width) :
    ((n + (page - 1)) &&& ~~~(page - 1)).toNat = roundUp (2 ^ k) n.toNat := by
  have narrow : k < width := (Nat.pow_lt_pow_iff_right (by decide)).mp (isPower ▸ page.isLt)
  have fits := lt_of_roundUp_lt narrow room
  rw [toNat_and_not_mask isPower, BitVec.toNat_add, toNat_sub_one isPower, Nat.mod_eq_of_lt fits,
    roundUp]

end CloudflareBlog.Lib.Pages
