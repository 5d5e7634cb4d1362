import Mathlib.Logic.Function.Basic

/-!
# Byte order

The bytes of a number in the other order, as a network wants them.
-/

namespace CloudflareBlog.Lib

def swap16 (value : BitVec 16) : BitVec 16 := value.extractLsb' 0 8 ++ value.extractLsb' 8 8

theorem swap16_swap16 (value : BitVec 16) : swap16 (swap16 value) = value := by
  apply BitVec.eq_of_getLsbD_eq
  intro index inside
  simp only [swap16, BitVec.getLsbD_append, BitVec.getLsbD_extractLsb']
  by_cases low : index < 8
  · simp [low, show index < 16 by omega, show ¬ 8 + index < 8 by omega]
  · simp [low, show index - 8 < 8 by omega, show 8 + (index - 8) = index by omega]

theorem swap16_injective : Function.Injective swap16 :=
  Function.LeftInverse.injective swap16_swap16

def swap32 (value : BitVec 32) : BitVec 32 :=
  swap16 (value.extractLsb' 0 16) ++ swap16 (value.extractLsb' 16 16)

/-- The parts of a number are determined by it. -/
theorem append_eq_append_iff {m n : Nat} {high otherHigh : BitVec m} {low otherLow : BitVec n} :
    high ++ low = otherHigh ++ otherLow ↔ high = otherHigh ∧ low = otherLow := by
  constructor
  · intro same
    have upper := congrArg (BitVec.extractLsb' n m) same
    have lower := congrArg (BitVec.extractLsb' 0 n) same
    rw [BitVec.extractLsb'_append_eq_left, BitVec.extractLsb'_append_eq_left] at upper
    rw [BitVec.extractLsb'_append_eq_right, BitVec.extractLsb'_append_eq_right] at lower
    exact ⟨upper, lower⟩
  · rintro ⟨rfl, rfl⟩
    rfl

theorem swap16_append (high low : BitVec 8) : swap16 (high ++ low) = low ++ high := by
  have lower : (high ++ low).extractLsb' 0 8 = low := BitVec.extractLsb'_append_eq_right
  have upper : (high ++ low).extractLsb' 8 8 = high := BitVec.extractLsb'_append_eq_left
  rw [swap16, lower, upper]

theorem swap32_append (high low : BitVec 16) : swap32 (high ++ low) = swap16 low ++ swap16 high := by
  have lower : (high ++ low).extractLsb' 0 16 = low := BitVec.extractLsb'_append_eq_right
  have upper : (high ++ low).extractLsb' 16 16 = high := BitVec.extractLsb'_append_eq_left
  rw [swap32, lower, upper]

end CloudflareBlog.Lib
