import Mathlib.Data.Int.ModEq
import Mathlib.Tactic.Ring

/-!
# Numbers of two limbs

A number as a high limb in front of a low one.  Subtraction goes limb by limb: the low limbs take a
borrow from the high ones when the first is below the second, which is when their wrapped difference
is above the first (`lt_sub_iff`).
-/

namespace CloudflareBlog.Lib.Limbs

variable {high low : Nat}

/-- What the low limbs take from the high ones. -/
def borrow (width : Nat) (x y : BitVec low) : BitVec width := if x < y then 1 else 0

/-- The wrapped difference tells whether there was a borrow. -/
theorem lt_sub_iff (x y : BitVec low) : x < x - y ↔ x < y := by
  have x_lt := x.isLt
  have y_lt := y.isLt
  rw [BitVec.lt_def, BitVec.lt_def, BitVec.toNat_sub]
  by_cases below : x.toNat < y.toNat
  · rw [Nat.mod_eq_of_lt (by omega)]
    omega
  · rw [show 2 ^ low - y.toNat + x.toNat = x.toNat - y.toNat + 2 ^ low by omega,
      Nat.add_mod_right, Nat.mod_eq_of_lt (by omega)]
    omega

theorem toNat_limbs (x : BitVec high) (y : BitVec low) :
    (x ++ y).toNat = x.toNat * 2 ^ low + y.toNat := by
  rw [BitVec.toNat_append, Nat.shiftLeft_eq, Nat.mul_comm, Nat.two_pow_add_eq_or_of_lt y.isLt]

theorem toNat_sub_add_borrow (x y : BitVec low) :
    ((x - y).toNat : Int) = x.toNat - y.toNat + (if x < y then 2 ^ low else 0) := by
  have x_lt := x.isLt
  have y_lt := y.isLt
  have power : ((2 ^ low : Nat) : Int) = 2 ^ low := by push_cast; rfl
  by_cases below : x < y
  · rw [BitVec.toNat_sub_of_lt below, if_pos below]
    rw [BitVec.lt_def] at below
    omega
  · rw [BitVec.toNat_sub_of_le (BitVec.not_lt.mp below), if_neg below]
    rw [BitVec.lt_def] at below
    omega

theorem modEq_sub (x y : BitVec high) : ((x - y).toNat : Int) ≡ x.toNat - y.toNat [ZMOD 2 ^ high] := by
  rw [toNat_sub_add_borrow]
  split
  · exact Int.modEq_iff_dvd.mpr ⟨-1, by ring⟩
  · rw [add_zero]

theorem sub_append (xh yh : BitVec high) (xl yl : BitVec low) :
    (xh ++ xl) - (yh ++ yl) = (xh - yh - borrow high xl yl) ++ (xl - yl) := by
  have taken : ((borrow high xl yl).toNat : Int) ≡ if xl < yl then 1 else 0 [ZMOD 2 ^ high] := by
    unfold borrow
    split
    · rw [BitVec.ofNat_eq_ofNat, BitVec.toNat_ofNat]
      exact_mod_cast Nat.mod_modEq 1 (2 ^ high)
    · rfl
  have highLimb : ((xh - yh - borrow high xl yl).toNat : Int) ≡
      xh.toNat - yh.toNat - (if xl < yl then 1 else 0) [ZMOD 2 ^ high] :=
    (modEq_sub _ _).trans ((modEq_sub xh yh).sub taken)
  have shifted := highLimb.mul_right' (c := 2 ^ low)
  rw [← pow_add] at shifted
  have whole : (((xh ++ xl) - (yh ++ yl)).toNat : Int) ≡
      ((xh - yh - borrow high xl yl) ++ (xl - yl)).toNat [ZMOD 2 ^ (high + low)] := by
    calc (((xh ++ xl) - (yh ++ yl)).toNat : Int)
        ≡ (xh ++ xl).toNat - (yh ++ yl).toNat [ZMOD 2 ^ (high + low)] := modEq_sub _ _
      _ = (xh.toNat - yh.toNat - (if xl < yl then 1 else 0)) * 2 ^ low + (xl - yl).toNat := by
          rw [toNat_sub_add_borrow, toNat_limbs, toNat_limbs]
          push_cast
          split <;> ring
      _ ≡ (xh - yh - borrow high xl yl).toNat * 2 ^ low + (xl - yl).toNat
            [ZMOD 2 ^ (high + low)] := shifted.symm.add_right _
      _ = ((xh - yh - borrow high xl yl) ++ (xl - yl)).toNat := by
          rw [toNat_limbs]
          push_cast
          rfl
  have same : ((xh ++ xl) - (yh ++ yl)).toNat ≡
      ((xh - yh - borrow high xl yl) ++ (xl - yl)).toNat [MOD 2 ^ (high + low)] := by
    exact_mod_cast whole
  exact BitVec.eq_of_toNat_eq (Nat.ModEq.eq_of_lt_of_lt same (BitVec.isLt _) (BitVec.isLt _))

end CloudflareBlog.Lib.Limbs
