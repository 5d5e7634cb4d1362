import CloudflareBlog.Lib.Memory

/-!
# Addresses of aarch64 from pages

`adrp` puts the address of a page into a register, as a distance from its own page, and `add` with an
immediate adds the offset in the page.  Their words, field by field.
-/

namespace CloudflareBlog.Lib.Adrp

open Memory

def pageOf (a : Address) : Address := a &&& ~~~0xfff

def IsAdrp (word : BitVec 32) : Prop :=
  word.getLsbD 31 = true ∧ word.extractLsb' 24 5 = 0b10000

instance (word : BitVec 32) : Decidable (IsAdrp word) := inferInstanceAs (Decidable (_ ∧ _))

def adrpRd (word : BitVec 32) : BitVec 5 := word.extractLsb' 0 5

/-- The immediate of an `adrp`: immhi and immlo. -/
def adrpImm (word : BitVec 32) : BitVec 21 := word.extractLsb' 5 19 ++ word.extractLsb' 29 2

/-- What an `adrp` at `pc` puts into its register. -/
def adrpTarget (pc : Address) (word : BitVec 32) : Address :=
  pageOf pc + (adrpImm word ++ 0#12).signExtend 64

/-- The word is an `add` with an immediate, of 32 or 64 bits. -/
def IsAddImmediate (word : BitVec 32) : Prop := word.extractLsb' 23 8 = 0b00100010

instance (word : BitVec 32) : Decidable (IsAddImmediate word) := inferInstanceAs (Decidable (_ = _))

def addImm (word : BitVec 32) : BitVec 12 := word.extractLsb' 10 12

/-- What an `add` of 64 bits makes of the value of its register. -/
def addResult (word : BitVec 32) (value : BitVec 64) : BitVec 64 :=
  value + (addImm word).setWidth 64 <<< (if word.getLsbD 22 then 12 else 0)

/-! ## Pages -/

theorem getLsbD_pageOf (a : Address) {bit : Nat} (inside : bit < 64) :
    (pageOf a).getLsbD bit = (decide (12 ≤ bit) && a.getLsbD bit) := by
  have mask : ∀ bit < 64, (~~~0xfff : Address).getLsbD bit = decide (12 ≤ bit) := by decide
  rw [pageOf, BitVec.getLsbD_and, mask bit inside, Bool.and_comm]

theorem toNat_pageOf (a : Address) : (pageOf a).toNat = a.toNat / 4096 * 4096 := by
  have shifted : pageOf a = (a >>> 12) <<< 12 := by
    apply BitVec.eq_of_getLsbD_eq
    intro bit inside
    rw [getLsbD_pageOf a inside, BitVec.getLsbD_shiftLeft, BitVec.getLsbD_ushiftRight]
    by_cases low : bit < 12
    · simp [low]
    · simp [low, inside, show 12 ≤ bit by omega, show 12 + (bit - 12) = bit by omega]
  have bound := a.isLt
  rw [shifted, BitVec.toNat_shiftLeft, BitVec.toNat_ushiftRight, Nat.shiftRight_eq_div_pow,
    Nat.shiftLeft_eq]
  omega

theorem pageOf_sub_pageOf (p target : Address) : (pageOf target - pageOf p).toNat % 4096 = 0 := by
  rw [BitVec.toNat_sub, toNat_pageOf, toNat_pageOf]
  have := p.isLt
  omega

theorem pageOf_add_offset (a : Address) : pageOf a + (a.extractLsb' 0 12).setWidth 64 = a := by
  apply BitVec.eq_of_toNat_eq
  have bound := a.isLt
  rw [BitVec.toNat_add, toNat_pageOf, BitVec.toNat_setWidth, BitVec.extractLsb'_toNat,
    Nat.shiftRight_zero]
  omega

theorem getLsbD_pageOf_sub (p target : Address) {bit : Nat} (low : bit < 12) :
    (pageOf target - pageOf p).getLsbD bit = false := by
  have cut := Nat.testBit_mod_two_pow (pageOf target - pageOf p).toNat 12 bit
  rw [show 2 ^ 12 = 4096 from rfl, pageOf_sub_pageOf, Nat.zero_testBit, decide_eq_true low,
    Bool.true_and] at cut
  exact cut.symm

theorem getLsbD_adrpDistance (word : BitVec 32) {bit : Nat} (inside : bit < 64) (high : 12 ≤ bit) :
    ((adrpImm word ++ 0#12).signExtend 64).getLsbD bit =
      word.getLsbD (if bit < 14 then bit + 17 else min (bit - 9) 23) := by
  have sign : (adrpImm word ++ 0#12).msb = word.getLsbD 23 := by
    rw [BitVec.msb_eq_getLsbD_last, BitVec.getLsbD_append, if_neg (by decide), adrpImm,
      BitVec.getLsbD_append, if_neg (by decide), BitVec.getLsbD_extractLsb']
    rfl
  rw [BitVec.getLsbD_signExtend, decide_eq_true inside, Bool.true_and, sign]
  by_cases immediate : bit < 33
  · rw [if_pos immediate, BitVec.getLsbD_append, if_neg (by omega), adrpImm, BitVec.getLsbD_append]
    by_cases immlo : bit < 14
    · rw [if_pos (by omega), if_pos immlo, BitVec.getLsbD_extractLsb',
        decide_eq_true (show bit - 12 < 2 by omega), Bool.true_and,
        show 29 + (bit - 12) = bit + 17 by omega]
    · rw [if_neg (by omega), if_neg immlo, BitVec.getLsbD_extractLsb',
        decide_eq_true (show bit - 12 - 2 < 19 by omega), Bool.true_and,
        show 5 + (bit - 12 - 2) = min (bit - 9) 23 by omega]
  · rw [if_neg immediate, if_neg (by omega), show min (bit - 9) 23 = 23 by omega]

/-- Where an `adrp` leads is decided bit by bit. -/
theorem adrpTarget_eq_pageOf_iff (p target : Address) (word : BitVec 32) :
    adrpTarget p word = pageOf target ↔
      ∀ bit < 64, 12 ≤ bit → (pageOf target - pageOf p).getLsbD bit =
        word.getLsbD (if bit < 14 then bit + 17 else min (bit - 9) 23) := by
  rw [adrpTarget, ← eq_sub_iff_add_eq']
  constructor
  · intro same bit inside high
    rw [← same, getLsbD_adrpDistance word inside high]
  · intro same
    apply BitVec.eq_of_getLsbD_eq
    intro bit inside
    by_cases high : 12 ≤ bit
    · rw [same bit inside high, getLsbD_adrpDistance word inside high]
    · rw [getLsbD_pageOf_sub p target (by omega), BitVec.getLsbD_signExtend,
        if_pos (by omega), BitVec.getLsbD_append, if_pos (by omega), BitVec.getLsbD_zero,
        Bool.and_false]

/-! ## The pair -/

theorem IsAddImmediate.bits {word : BitVec 32} (isAdd : IsAddImmediate word) :
    word.getLsbD 24 = true ∧ word.getLsbD 28 = true ∧
      ∀ bit ∈ [25, 26, 27, 29, 30], word.getLsbD bit = false := by
  have bit (index : Nat) (inside : index < 8) :
      word.getLsbD (23 + index) = (0b00100010 : BitVec 8).getLsbD index := by
    have := congrArg (BitVec.getLsbD · index) isAdd
    simpa [inside] using this
  refine ⟨bit 1 (by decide), bit 5 (by decide), ?_⟩
  intro index among
  simp only [List.mem_cons, List.not_mem_nil, or_false] at among
  obtain rfl | rfl | rfl | rfl | rfl := among
  · exact bit 2 (by decide)
  · exact bit 3 (by decide)
  · exact bit 4 (by decide)
  · exact bit 6 (by decide)
  · exact bit 7 (by decide)

/-- `add` completes the page to an address if it adds the offset in the page. -/
theorem addResult_pageOf {word : BitVec 32} {a : Address} (unshifted : word.getLsbD 22 = false)
    (offset : addImm word = a.extractLsb' 0 12) : addResult word (pageOf a) = a := by
  rw [addResult, unshifted, offset]
  simp only [Bool.false_eq_true, if_false, BitVec.shiftLeft_zero]
  exact pageOf_add_offset a

end CloudflareBlog.Lib.Adrp
