import Mathlib.Data.List.Pairwise
import CloudflareBlog.Lib.Memory

/-!
# Displacements

Instructions hold the difference of two addresses in a field narrower than an address, and the
processor extends its sign.  Nothing is lost if the difference fits, as it does within a region that
is short enough.
-/

namespace CloudflareBlog.Lib.Memory

variable {width narrow : Nat}

theorem signExtend_setWidth (le : narrow ≤ width) (d : BitVec width)
    (low : -(2 ^ narrow) ≤ d.toInt * 2) (high : d.toInt * 2 < 2 ^ narrow) :
    (d.setWidth narrow).signExtend width = d := by
  apply BitVec.eq_of_toInt_eq
  have same : (d.toNat : Int).bmod (2 ^ narrow) = d.toInt.bmod (2 ^ narrow) := by
    rw [BitVec.toInt_eq_toNat_bmod, Int.bmod_bmod_of_dvd (Nat.pow_dvd_pow 2 le)]
  rw [BitVec.toInt_signExtend_of_le le, BitVec.toInt_setWidth, same]
  exact Int.bmod_eq_of_le_mul_two (by push_cast; omega) (by push_cast; omega)

/-- A difference that does not fit comes out as another one. -/
theorem signExtend_setWidth_iff (le : narrow ≤ width) (d : BitVec width) :
    (d.setWidth narrow).signExtend width = d ↔
      -(2 ^ narrow) ≤ d.toInt * 2 ∧ d.toInt * 2 < 2 ^ narrow := by
  constructor
  · intro same
    have value := congrArg BitVec.toInt same
    rw [BitVec.toInt_signExtend_of_le le] at value
    have low := BitVec.le_two_mul_toInt (x := d.setWidth narrow)
    have high := BitVec.two_mul_toInt_lt (x := d.setWidth narrow)
    rw [value] at low high
    constructor <;> omega
  · rintro ⟨low, high⟩
    exact signExtend_setWidth le d low high

theorem toInt_sub_of_inside {base target start : Address} {length : Nat} (short : length ≤ 2 ^ 63)
    (targetInside : Inside base length target) (startInside : Inside base length start) :
    (target - start).toInt = ((target - base).toNat : Int) - (start - base).toNat := by
  have split : target - start = (target - base) - (start - base) := by
    rw [sub_sub_sub_cancel_right]
  rw [Inside] at targetInside startInside
  rw [split, BitVec.toInt_sub, BitVec.toInt_eq_toNat_of_lt (by omega),
    BitVec.toInt_eq_toNat_of_lt (by omega)]
  exact Int.bmod_eq_of_le_mul_two (by omega) (by omega)

theorem add_signExtend_setWidth (le : narrow ≤ 64) {start target : Address}
    (low : -(2 ^ narrow) ≤ (target - start).toInt * 2)
    (high : (target - start).toInt * 2 < 2 ^ narrow) :
    start + ((target - start).setWidth narrow).signExtend 64 = target := by
  rw [signExtend_setWidth le _ low high, BitVec.add_comm, BitVec.sub_add_cancel]

/-- Ranges of one size that do not overlap take up their size each. -/
theorem length_mul_le_of_disjoint (size total : Nat) (starts : List Nat)
    (inside : ∀ start ∈ starts, start + size ≤ total)
    (disjoint : starts.Pairwise fun a b => a + size ≤ b ∨ b + size ≤ a) :
    starts.length * size ≤ total := by
  have nodup : (starts.flatMap fun start => List.range' start size).Nodup := by
    refine List.nodup_flatMap.mpr ⟨fun start _ => List.nodup_range', ?_⟩
    refine disjoint.imp fun apart position first second => ?_
    rw [List.mem_range'_1] at first second
    omega
  have within : (starts.flatMap fun start => List.range' start size) ⊆ List.range total := by
    intro position among
    obtain ⟨start, isStart, covered⟩ := List.mem_flatMap.mp among
    have := inside start isStart
    rw [List.mem_range'_1] at covered
    exact List.mem_range.mpr (by omega)
  have counted := (nodup.subperm within).length_le
  simpa [List.length_flatMap, Function.comp_def] using counted

end CloudflareBlog.Lib.Memory
