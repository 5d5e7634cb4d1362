import Mathlib.Data.BitVec
import Mathlib.Tactic.Ring
import CloudflareBlog.Lib.Simd

/-!
# AVX2 arithmetic

The arithmetic of AVX2 on lanes of sixteen and thirty-two bits, and when it is exact.  Differences
of bytes fit into lanes of sixteen bits, so their squares and the sums of two of them are those of
the integers.
-/

namespace CloudflareBlog.Lib.Simd

open CloudflareBlog.Lib.Buffer

variable {count width : Nat}

/-- `_mm256_cvtepu8_epi16`. -/
def cvtepu8 (a : Lanes 16 8) : Lanes 16 16 := fun lane => (a lane).setWidth 16

def add (a b : Lanes count width) : Lanes count width := fun lane => a lane + b lane

def sub (a b : Lanes count width) : Lanes count width := fun lane => a lane - b lane

/-- The low halves of the products: `_mm256_mullo_epi16`. -/
def mullo (a b : Lanes count width) : Lanes count width := fun lane => a lane * b lane

/-- Unsigned sums that stop at the largest value: `_mm256_adds_epu16`. -/
def adds (a b : Lanes count width) : Lanes count width := fun lane =>
  if (a lane).toNat + (b lane).toNat < 2 ^ width then a lane + b lane else BitVec.allOnes width

/-- Unsigned differences that stop at zero: `_mm256_subs_epu16`. -/
def subs (a b : Lanes count width) : Lanes count width := fun lane =>
  if b lane ≤ a lane then a lane - b lane else 0

/-- Signed products, added in pairs: `_mm256_madd_epi16`. -/
def madd (a b : Lanes 16 16) : Lanes 8 32 := fun lane =>
  let product (k : Fin 16) : BitVec 32 := (a k).signExtend 32 * (b k).signExtend 32
  product ⟨2 * lane, by omega⟩ + product ⟨2 * lane + 1, by omega⟩

/-- Sums of neighbours, in each half the two from `a` before the two from `b`:
`_mm256_hadd_epi32`. -/
def hadd (a b : Lanes 8 32) : Lanes 8 32 := fun lane =>
  let source := if lane.val % 4 < 2 then a else b
  source ⟨4 * (lane / 4) + 2 * (lane % 2), by omega⟩ +
    source ⟨4 * (lane / 4) + 2 * (lane % 2) + 1, by omega⟩

def bytes (a : Lanes 16 16) : Lanes 32 8 := fun lane =>
  (a ⟨lane / 2, by omega⟩).extractLsb' (8 * (lane % 2)) 8

theorem toNat_adds (a b : Lanes count width) (lane : Fin count) :
    (adds a b lane).toNat = min (2 ^ width - 1) ((a lane).toNat + (b lane).toNat) := by
  rw [adds]
  split
  next fits =>
    rw [BitVec.toNat_add, Nat.mod_eq_of_lt fits]
    omega
  next full =>
    rw [BitVec.toNat_allOnes]
    omega

/-- Without a comparison of unsigned lanes: a saturated difference is zero. -/
theorem subs_eq_zero_iff (a b : Lanes count width) (lane : Fin count) :
    subs a b lane = 0 ↔ (a lane).toNat ≤ (b lane).toNat := by
  rw [subs]
  split
  next le =>
    rw [BitVec.le_def] at le
    rw [← BitVec.toNat_inj, BitVec.toNat_sub_of_le (BitVec.le_def.mpr le)]
    simp only [BitVec.ofNat_eq_ofNat, BitVec.toNat_zero]
    omega
  next above =>
    rw [BitVec.le_def] at above
    simp only [true_iff]
    omega

theorem getLsbD_movemask_bytes (a : Lanes 16 16) (lane : Fin 16) :
    (movemask (bytes a)).getLsbD (2 * lane) = (a lane).getLsbD 7 := by
  have here := getLsbD_movemask (bytes a) ⟨2 * lane, by omega⟩
  simp only at here
  rw [here, bytes, BitVec.msb_eq_getLsbD_last]
  simp

theorem getLsbD_cmpeq_setzero (a : Lanes 16 16) (lane : Fin 16) :
    (cmpeq setzero a lane).getLsbD 7 = decide (a lane = 0) := by
  rw [cmpeq]
  by_cases zero : a lane = 0
  · rw [if_pos (show setzero lane = a lane from zero.symm), decide_eq_true zero]
    rfl
  · rw [if_neg (show ¬setzero lane = a lane from fun same => zero same.symm),
      decide_eq_false zero]
    rfl

/-- The square of the difference of two bytes, over the integers. -/
def squaredDifference (x y : Byte) : Nat := ((x.toNat : Int) - y.toNat).natAbs ^ 2

theorem squaredDifference_comm (x y : Byte) : squaredDifference x y = squaredDifference y x := by
  rw [squaredDifference, squaredDifference, ← Int.natAbs_neg, neg_sub]

theorem squaredDifference_le (x y : Byte) : squaredDifference x y ≤ 65025 := by
  have := x.isLt
  have := y.isLt
  have bound : ((x.toNat : Int) - y.toNat).natAbs ≤ 255 := by omega
  calc squaredDifference x y ≤ 255 ^ 2 := Nat.pow_le_pow_left bound 2
    _ = 65025 := rfl

/-- The difference of two bytes does not overflow a lane of nine bits or more. -/
theorem toInt_sub_setWidth (wide : 9 ≤ width) (x y : Byte) :
    (x.setWidth width - y.setWidth width).toInt = (x.toNat : Int) - y.toNat := by
  have := x.isLt
  have := y.isLt
  have room : 2 ^ 9 ≤ 2 ^ width := Nat.pow_le_pow_right (by decide) wide
  have fits (n : Int) (low : -256 ≤ n) (high : n < 256) : n.bmod (2 ^ width) = n :=
    Int.bmod_eq_of_le_mul_two (by omega) (by omega)
  rw [BitVec.toInt_sub, BitVec.toInt_setWidth, BitVec.toInt_setWidth,
    fits x.toNat (by omega) (by omega), fits y.toNat (by omega) (by omega),
    fits _ (by omega) (by omega)]

theorem sub_mul_sub (x y : BitVec width) :
    (x - y) * (x - y) = BitVec.ofNat width (((x.toNat : Int) - y.toNat).natAbs ^ 2) := by
  have ordered (a b : BitVec width) (le : b.toNat ≤ a.toNat) :
      (a - b) * (a - b) = BitVec.ofNat width (((a.toNat : Int) - b.toNat).natAbs ^ 2) := by
    apply BitVec.eq_of_toNat_eq
    rw [BitVec.toNat_mul, BitVec.toNat_sub_of_le (BitVec.le_def.mpr le), BitVec.toNat_ofNat,
      ← Nat.cast_sub le, Int.natAbs_natCast, pow_two]
  obtain le | le := Nat.le_total y.toNat x.toNat
  · exact ordered x y le
  · rw [show (x - y) * (x - y) = (y - x) * (y - x) by ring, ordered y x le, ← neg_sub,
      Int.natAbs_neg]

/-- The square of a difference of bytes, in a lane that is wide enough. -/
theorem toNat_square (wide : 16 ≤ width) (x y : Byte) :
    ((x.setWidth width - y.setWidth width) * (x.setWidth width - y.setWidth width)).toNat =
      squaredDifference x y := by
  have room : 2 ^ 16 ≤ 2 ^ width := Nat.pow_le_pow_right (by decide) wide
  have small := squaredDifference_le x y
  have plain (z : Byte) : (z.setWidth width).toNat = z.toNat := by
    have := z.isLt
    rw [BitVec.toNat_setWidth, Nat.mod_eq_of_lt (by omega)]
  rw [sub_mul_sub, BitVec.toNat_ofNat, plain, plain, ← squaredDifference,
    Nat.mod_eq_of_lt (by omega)]

theorem toNat_madd_sub (a b : Lanes 16 8) (lane : Fin 8) :
    (madd (sub (cvtepu8 a) (cvtepu8 b)) (sub (cvtepu8 a) (cvtepu8 b)) lane).toNat =
      squaredDifference (a ⟨2 * lane, by omega⟩) (b ⟨2 * lane, by omega⟩) +
        squaredDifference (a ⟨2 * lane + 1, by omega⟩) (b ⟨2 * lane + 1, by omega⟩) := by
  have extended (k : Fin 16) : (sub (cvtepu8 a) (cvtepu8 b) k).signExtend 32 =
      (a k).setWidth 32 - (b k).setWidth 32 := by
    apply BitVec.eq_of_toInt_eq
    rw [BitVec.toInt_signExtend_of_le (by decide), toInt_sub_setWidth (by decide), sub, cvtepu8,
      cvtepu8, toInt_sub_setWidth (by decide)]
  have first := squaredDifference_le (a ⟨2 * lane, by omega⟩) (b ⟨2 * lane, by omega⟩)
  have second := squaredDifference_le (a ⟨2 * lane + 1, by omega⟩) (b ⟨2 * lane + 1, by omega⟩)
  simp only [madd, extended]
  rw [BitVec.toNat_add, toNat_square (by decide), toNat_square (by decide),
    Nat.mod_eq_of_lt (by omega)]

end CloudflareBlog.Lib.Simd
