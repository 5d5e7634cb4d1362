import CloudflareBlog.Lib.Adrp
import CloudflareBlog.ObjFile.Aarch64

/-!
# Page-relative relocations of the loader for aarch64

`R_AARCH64_ADR_PREL_PG_HI21` and `R_AARCH64_ADD_ABS_LO12_NC` are for a pair of an `adrp` and an `add`.
The loader puts the upper bits of the distance in pages nineteen places too far up, which is right
for distances from zero to three (`adrp_relocated_iff`).  For the `add` it reads memory at the address
instead of taking the address, and falls through to the code for the `adrp`, which is right for
addresses at the beginning of a page if the distance has none of some bits (`offset_relocated_iff`).
`PageFits` and `OffsetFits` are for words of any kind, with any immediate.
-/

namespace CloudflareBlog.ObjFile.Aarch64

open CloudflareBlog.Lib.Buffer CloudflareBlog.Lib.Memory CloudflareBlog.Lib.Adrp

/-- The distance from the page of `p` to that of the target, in pages. -/
def pageDifference (p target : Address) : Int := (pageOf target - pageOf p).toInt / 4096

/-- The word at `p` is still an `adrp` to the same register, and leads to the page of the target. -/
structure PageRelocated (p target : Address) (before after : BitVec 32) : Prop where
  adrp : IsAdrp after
  register : adrpRd after = adrpRd before
  leads : adrpTarget p after = pageOf target

/-- The word differs from what it was only in the immediate of an `adrp`, which leads from `p` to the
page of the target. -/
structure PageSet (p target : Address) (before after : BitVec 32) : Prop where
  others : ∀ bit < 32, ¬ (5 ≤ bit ∧ bit < 24 ∨ 29 ≤ bit ∧ bit < 31) →
    after.getLsbD bit = before.getLsbD bit
  leads : adrpTarget p after = pageOf target

/-- The word differs from what it was only in the immediate, which is the offset of the target in its
page, so that an `add` of 64 bits completes the page to the target. -/
structure OffsetRelocated (target : Address) (before after : BitVec 32) : Prop where
  others : ∀ bit < 32, ¬ (10 ≤ bit ∧ bit < 22) → after.getLsbD bit = before.getLsbD bit
  immediate : addImm after = target.extractLsb' 0 12
  completes : before.getLsbD 31 = true → before.getLsbD 22 = false →
    addResult after (pageOf target) = target

/-- The offset in the page is zero, and the distance in pages has no bit that the code for the `adrp`
would set in the word of an `add`. -/
def OffsetHarmless (p target : Address) (word : BitVec 32) : Prop :=
  target.extractLsb' 0 12 = 0 ∧
    (∀ bit ∈ [0, 1, 3, 4, 5, 7, 8], (pageOf target - pageOf p).getLsbD (12 + bit) = false) ∧
      ((pageOf target - pageOf p).getLsbD 21 = false ∨ word.getLsbD 31 = true)

/-! ## Words -/

/-- The word after `R_AARCH64_ADR_PREL_PG_HI21`. -/
def pageWord (word : BitVec 32) (d : BitVec 64) : BitVec 32 :=
  let val : BitVec 32 := d.setWidth 32 >>> 12
  word ||| (val &&& ((0xf : BitVec 32) >>> 2)) <<< 29 |||
    (val &&& (((0xffffff : BitVec 32) >>> 13) <<< 2)) <<< 22

theorem load_patchAdrPrelPgHi21 (p target : Address) (memory : Bytes) :
    load (patchAdrPrelPgHi21 p target memory) p 4 =
      pageWord (load memory p 4) (pageOf target - pageOf p) := by
  rw [patchAdrPrelPgHi21, load_orWord, load_orWord]
  rfl

/-- The bits that the code for the `adrp` sets.  Ten bits of the distance end up in the word: two of
them where they belong, eight of them from bit 24 on. -/
def pageBits (d : BitVec 64) (bit : Nat) : Bool :=
  (decide (29 ≤ bit ∧ bit < 31) && d.getLsbD (bit - 17)) ||
    (decide (24 ≤ bit) && d.getLsbD (bit - 10))

theorem getLsbD_pageWord (word : BitVec 32) (d : BitVec 64) {bit : Nat} (inside : bit < 32) :
    (pageWord word d).getLsbD bit = (word.getLsbD bit || pageBits d bit) := by
  have low : ∀ bit < 32, ((0xf : BitVec 32) >>> 2).getLsbD bit = decide (bit < 2) := by decide
  have high : ∀ bit < 32, (((0xffffff : BitVec 32) >>> 13) <<< 2).getLsbD bit =
      decide (2 ≤ bit ∧ bit < 13) := by decide
  rw [pageBits, ← Bool.or_assoc, pageWord, BitVec.getLsbD_or, BitVec.getLsbD_or,
    BitVec.getLsbD_shiftLeft, BitVec.getLsbD_shiftLeft, BitVec.getLsbD_and, BitVec.getLsbD_and,
    low _ (by omega), high _ (by omega), BitVec.getLsbD_ushiftRight, BitVec.getLsbD_ushiftRight,
    BitVec.getLsbD_setWidth, BitVec.getLsbD_setWidth]
  by_cases above : 24 ≤ bit
  · by_cases top : 29 ≤ bit
    · simp [inside, above, top, show ¬ bit < 29 by omega, show ¬ bit < 22 by omega,
        show 12 + (bit - 29) = bit - 17 by omega, show 12 + (bit - 22) = bit - 10 by omega,
        show bit - 29 < 2 ↔ bit < 31 by omega, show 2 ≤ bit - 22 by omega,
        show bit - 22 < 13 by omega, show bit - 17 < 32 by omega, show bit - 10 < 32 by omega,
        Bool.and_comm]
    · simp [inside, above, top, show bit < 29 by omega, show ¬ bit < 22 by omega,
        show 12 + (bit - 22) = bit - 10 by omega, show 2 ≤ bit - 22 by omega,
        show bit - 22 < 13 by omega, show bit - 10 < 32 by omega]
  · simp [inside, above, show bit < 29 by omega, show ¬ 29 ≤ bit by omega]
    omega

/-- The upper bits of the distance are those of the immediate that is in the word already, the bits
that the code sets make up the lower two, and it sets no other that the word does not have. -/
structure PageFits (p target : Address) (word : BitVec 32) : Prop where
  upper : ∀ bit < 64, 14 ≤ bit →
    (pageOf target - pageOf p).getLsbD bit = word.getLsbD (min (bit - 9) 23)
  lower : ∀ bit < 14, 12 ≤ bit → (pageOf target - pageOf p).getLsbD bit =
    (word.getLsbD (bit + 17) || pageBits (pageOf target - pageOf p) (bit + 17))
  others : ∀ bit < 32, ¬ (5 ≤ bit ∧ bit < 24 ∨ 29 ≤ bit ∧ bit < 31) →
    pageBits (pageOf target - pageOf p) bit = true → word.getLsbD bit = true

instance (p target : Address) (word : BitVec 32) : Decidable (PageFits p target word) :=
  decidable_of_iff (_ ∧ _ ∧ _)
    ⟨fun ⟨upper, lower, others⟩ => ⟨upper, lower, others⟩, fun ⟨upper, lower, others⟩ =>
      ⟨upper, lower, others⟩⟩

/-- The target is the beginning of a page, and outside the immediate of an `add` the code for the
`adrp` sets no bit that the word does not have. -/
structure OffsetFits (p target : Address) (word : BitVec 32) : Prop where
  offset : target.extractLsb' 0 12 = 0
  others : ∀ bit < 32, ¬ (10 ≤ bit ∧ bit < 22) →
    pageBits (pageOf target - pageOf p) bit = true → word.getLsbD bit = true

instance (p target : Address) (word : BitVec 32) : Decidable (OffsetFits p target word) :=
  decidable_of_iff (_ ∧ _) ⟨fun ⟨offset, others⟩ => ⟨offset, others⟩, fun ⟨offset, others⟩ =>
    ⟨offset, others⟩⟩

/-! ## `adrp` -/

section

variable {word : BitVec 32} {d : BitVec 64}

theorem pageBits_low {bit : Nat} (low : bit < 24) : pageBits d bit = false := by
  simp [pageBits, show ¬ 24 ≤ bit by omega, show ¬ 29 ≤ bit by omega]

theorem getLsbD_pageWord_low {bit : Nat} (low : bit < 24) :
    (pageWord word d).getLsbD bit = word.getLsbD bit := by
  rw [getLsbD_pageWord _ _ (by omega), pageBits_low low, Bool.or_false]

theorem or_eq_left_iff {has sets : Bool} : (has || sets) = has ↔ (sets = true → has = true) := by
  cases has <;> cases sets <;> decide

theorem leads_iff (p target : Address) (word : BitVec 32) :
    adrpTarget p (pageWord word (pageOf target - pageOf p)) = pageOf target ↔
      (∀ bit < 64, 14 ≤ bit →
        (pageOf target - pageOf p).getLsbD bit = word.getLsbD (min (bit - 9) 23)) ∧
      ∀ bit < 14, 12 ≤ bit → (pageOf target - pageOf p).getLsbD bit =
        (word.getLsbD (bit + 17) || pageBits (pageOf target - pageOf p) (bit + 17)) := by
  rw [adrpTarget_eq_pageOf_iff]
  constructor
  · intro same
    constructor
    · intro bit inside high
      have here := same bit inside (by omega)
      rwa [if_neg (by omega), getLsbD_pageWord_low (by omega)] at here
    · intro bit low high
      have here := same bit (by omega) high
      rwa [if_pos low, getLsbD_pageWord _ _ (by omega)] at here
  · rintro ⟨upper, lower⟩ bit inside high
    by_cases low : bit < 14
    · rw [if_pos low, getLsbD_pageWord _ _ (by omega)]
      exact lower bit low high
    · rw [if_neg low, getLsbD_pageWord_low (by omega)]
      exact upper bit inside (by omega)

/-- The code for the `adrp` relocates exactly the words that fit. -/
theorem pageSet_iff (p target : Address) (word : BitVec 32) :
    PageSet p target word (pageWord word (pageOf target - pageOf p)) ↔ PageFits p target word := by
  have kept {bit : Nat} (inside : bit < 32) :
      (pageWord word (pageOf target - pageOf p)).getLsbD bit = word.getLsbD bit ↔
        (pageBits (pageOf target - pageOf p) bit = true → word.getLsbD bit = true) := by
    rw [getLsbD_pageWord _ _ inside, or_eq_left_iff]
  constructor
  · rintro ⟨others, leads⟩
    obtain ⟨upper, lower⟩ := (leads_iff p target word).mp leads
    exact ⟨upper, lower, fun bit inside outside => (kept inside).mp (others bit inside outside)⟩
  · rintro ⟨upper, lower, others⟩
    exact ⟨fun bit inside outside => (kept inside).mpr (others bit inside outside),
      (leads_iff p target word).mpr ⟨upper, lower⟩⟩

/-- What an `adrp` has besides its immediate is what makes it an `adrp`, and its register. -/
theorem pageRelocated_iff {p target : Address} {after : BitVec 32} (isAdrp : IsAdrp word) :
    PageRelocated p target word after ↔ PageSet p target word after := by
  constructor
  · rintro ⟨stays, register, leads⟩
    refine ⟨fun bit inside outside => ?_, leads⟩
    obtain low | opcode | rfl : bit < 5 ∨ 24 ≤ bit ∧ bit < 29 ∨ bit = 31 := by omega
    · have same := congrArg (BitVec.getLsbD · bit) register
      simpa [adrpRd, low] using same
    · have same := congrArg (BitVec.getLsbD · (bit - 24)) (stays.2.trans isAdrp.2.symm)
      simpa [show bit - 24 < 5 by omega, show 24 + (bit - 24) = bit by omega] using same
    · rw [stays.1, isAdrp.1]
  · rintro ⟨others, leads⟩
    refine ⟨⟨?_, ?_⟩, ?_, leads⟩
    · rw [others 31 (by decide) (by decide), isAdrp.1]
    · rw [← isAdrp.2]
      apply BitVec.eq_of_getLsbD_eq
      intro bit inside
      rw [BitVec.getLsbD_extractLsb', BitVec.getLsbD_extractLsb', others _ (by omega) (by omega)]
    · apply BitVec.eq_of_getLsbD_eq
      intro bit inside
      rw [adrpRd, adrpRd, BitVec.getLsbD_extractLsb', BitVec.getLsbD_extractLsb',
        others _ (by omega) (by omega)]

end

theorem getLsbD_pages (pages : BitVec 2) (bit : Nat) :
    (pages.setWidth 64 <<< 12).getLsbD bit =
      (decide (12 ≤ bit ∧ bit < 14) && pages.getLsbD (bit - 12)) := by
  rw [BitVec.getLsbD_shiftLeft, BitVec.getLsbD_setWidth]
  by_cases within : 12 ≤ bit ∧ bit < 14
  · simp [within, show bit < 64 by omega, show ¬ bit < 12 by omega, show bit - 12 < 64 by omega]
  · by_cases low : bit < 12
    · simp [within, low]
    · have beyond : pages.getLsbD (bit - 12) = false := BitVec.getLsbD_of_ge _ _ (by omega)
      simp [within, beyond]

theorem exists_pages_iff (p target : Address) :
    (∃ pages : BitVec 2, pageOf target - pageOf p = pages.setWidth 64 <<< 12) ↔
      0 ≤ pageDifference p target ∧ pageDifference p target ≤ 3 := by
  constructor
  · rintro ⟨pages, same⟩
    have bounds : ∀ pages : BitVec 2, 0 ≤ (pages.setWidth 64 <<< 12 : BitVec 64).toInt / 4096 ∧
        (pages.setWidth 64 <<< 12 : BitVec 64).toInt / 4096 ≤ 3 := by decide
    rw [pageDifference, same]
    exact bounds pages
  · rintro ⟨low, high⟩
    have multiple := pageOf_sub_pageOf p target
    rw [pageDifference] at low high
    have value := BitVec.toInt_eq_toNat_cond (pageOf target - pageOf p)
    have bound := (pageOf target - pageOf p).isLt
    have small : (pageOf target - pageOf p).toNat / 4096 < 4 := by
      split at value <;> omega
    refine ⟨BitVec.ofNat 2 ((pageOf target - pageOf p).toNat / 4096), BitVec.eq_of_toNat_eq ?_⟩
    rw [BitVec.toNat_shiftLeft, BitVec.toNat_setWidth, BitVec.toNat_ofNat, Nat.shiftLeft_eq]
    omega

theorem clear_of_adrpImm {word : BitVec 32} (zero : adrpImm word = 0) {bit : Nat}
    (immediate : 5 ≤ bit ∧ bit < 24 ∨ 29 ≤ bit ∧ bit < 31) : word.getLsbD bit = false := by
  obtain immhi | immlo := immediate
  · have same := congrArg (BitVec.getLsbD · (bit - 5 + 2)) zero
    simp only [adrpImm, BitVec.getLsbD_append, BitVec.getLsbD_extractLsb'] at same
    simpa [show bit - 5 < 19 by omega, show 5 + (bit - 5) = bit by omega] using same
  · have same := congrArg (BitVec.getLsbD · (bit - 29)) zero
    simp only [adrpImm, BitVec.getLsbD_append, BitVec.getLsbD_extractLsb'] at same
    simpa [show bit - 29 < 2 by omega, show 29 + (bit - 29) = bit by omega] using same

/-- A word without an immediate fits up to three pages from its own. -/
theorem pageFits_iff {p target : Address} {word : BitVec 32} (zero : adrpImm word = 0) :
    PageFits p target word ↔ 0 ≤ pageDifference p target ∧ pageDifference p target ≤ 3 := by
  rw [← exists_pages_iff]
  constructor
  · rintro ⟨upper, -, -⟩
    refine ⟨(pageOf target - pageOf p).extractLsb' 12 2, ?_⟩
    apply BitVec.eq_of_getLsbD_eq
    intro bit inside
    rw [getLsbD_pages]
    by_cases low : bit < 12
    · rw [getLsbD_pageOf_sub p target low, decide_eq_false (by omega), Bool.false_and]
    · by_cases high : 14 ≤ bit
      · rw [upper bit inside high, clear_of_adrpImm zero (by omega), decide_eq_false (by omega),
          Bool.false_and]
      · rw [decide_eq_true (by omega), BitVec.getLsbD_extractLsb', decide_eq_true (by omega),
          Bool.true_and, Bool.true_and, show 12 + (bit - 12) = bit by omega]
  · rintro ⟨pages, distance⟩
    have above {bit : Nat} (high : 14 ≤ bit) : (pageOf target - pageOf p).getLsbD bit = false := by
      rw [distance, getLsbD_pages, decide_eq_false (by omega), Bool.false_and]
    constructor
    · intro bit inside high
      rw [above high, clear_of_adrpImm zero (by omega)]
    · intro bit low high
      rw [clear_of_adrpImm zero (by omega), Bool.false_or, pageBits, decide_eq_true (by omega),
        Bool.true_and, above (show 14 ≤ bit + 17 - 10 by omega), Bool.and_false, Bool.or_false,
        Nat.add_sub_cancel]
    · intro bit inside outside sets
      rw [pageBits, decide_eq_false (by omega), Bool.false_and, Bool.false_or] at sets
      by_cases top : 24 ≤ bit
      · rw [above (by omega), Bool.and_false] at sets
        cases sets
      · rw [decide_eq_false top, Bool.false_and] at sets
        cases sets

/-- For every place, symbol and addend, and every `adrp` without an immediate: the relocated word leads
to the page of S + A if and only if that is one of the four pages from that of the word on. -/
theorem adrp_relocated_iff (p symbolAddress addend : Address) (memory : Bytes)
    (isAdrp : IsAdrp (load memory p 4)) (zero : adrpImm (load memory p 4) = 0) :
    PageRelocated p (symbolAddress + addend) (load memory p 4)
        (load (patch adrPrelPgHi21 p (symbolAddress + addend) memory) p 4) ↔
      0 ≤ pageDifference p (symbolAddress + addend) ∧
        pageDifference p (symbolAddress + addend) ≤ 3 := by
  have isPatch : patch adrPrelPgHi21 p (symbolAddress + addend) memory =
      patchAdrPrelPgHi21 p (symbolAddress + addend) memory := rfl
  rw [isPatch, load_patchAdrPrelPgHi21, pageRelocated_iff isAdrp, pageSet_iff, pageFits_iff zero]

/-- Memory with an `adrp` to `x0` at `0x10000`. -/
def adrpMemory : Bytes := store (fun _ => 0) 0x10000 4 0x90000000

/-- Two pages further on. -/
theorem adrp_relocated_iff_two :
    PageRelocated 0x10000 0x12000 (load adrpMemory 0x10000 4)
      (load (patch adrPrelPgHi21 0x10000 (0x12000 + 0) adrpMemory) 0x10000 4) :=
  (adrp_relocated_iff 0x10000 0x12000 0 adrpMemory (by decide) (by decide)).mpr (by decide)

/-- Four pages further on: the word is an `add` afterwards. -/
theorem adrp_not_relocated :
    pageDifference 0x10000 0x14000 = 4 ∧
      load (patch adrPrelPgHi21 0x10000 (0x14000 + 0) adrpMemory) 0x10000 4 = 0x91000000 ∧
      ¬ PageRelocated 0x10000 0x14000 (load adrpMemory 0x10000 4)
        (load (patch adrPrelPgHi21 0x10000 (0x14000 + 0) adrpMemory) 0x10000 4) := by
  have after : load (patch adrPrelPgHi21 0x10000 (0x14000 + 0) adrpMemory) 0x10000 4 =
      0x91000000 := by
    decide
  refine ⟨by decide, after, fun relocated => ?_⟩
  have adrp := relocated.adrp
  rw [after] at adrp
  exact absurd adrp (by decide)

/-! ## `add` -/

/-- The word after `R_AARCH64_ADD_ABS_LO12_NC`. -/
def addWord (word : BitVec 32) (d : BitVec 64) : BitVec 32 :=
  pageWord (word &&& 0b11111111110000000000001111111111) d

/-- The byte that is read at the target has no bit in the place of the immediate. -/
theorem load_patchAddAbsLo12Nc (p target : Address) (memory : Bytes) :
    load (patchAddAbsLo12Nc p target memory) p 4 =
      addWord (load memory p 4) (pageOf target - pageOf p) := by
  have nothing : ∀ byte : Byte, byte.setWidth 32 &&&
      ~~~(0b11111111110000000000001111111111 : BitVec 32) = 0#32 := by
    decide +kernel
  rw [patchAddAbsLo12Nc, load_patchAdrPrelPgHi21, addWord]
  simp only [load_orWord, load_andWord, nothing, BitVec.or_zero]

theorem getLsbD_addWord (word : BitVec 32) (d : BitVec 64) {bit : Nat} (inside : bit < 32) :
    (addWord word d).getLsbD bit =
      (!decide (10 ≤ bit ∧ bit < 22) && (pageWord word d).getLsbD bit) := by
  have mask : ∀ bit < 32, (0b11111111110000000000001111111111 : BitVec 32).getLsbD bit =
      !decide (10 ≤ bit ∧ bit < 22) := by decide
  rw [addWord, getLsbD_pageWord _ _ inside, getLsbD_pageWord _ _ inside, BitVec.getLsbD_and,
    mask bit inside]
  by_cases immediate : 10 ≤ bit ∧ bit < 22
  · simp [immediate, pageBits_low (show bit < 24 by omega)]
  · simp [immediate]

theorem addImm_addWord (word : BitVec 32) (d : BitVec 64) : addImm (addWord word d) = 0 := by
  apply BitVec.eq_of_getLsbD_eq
  intro bit inside
  rw [addImm, BitVec.getLsbD_extractLsb', getLsbD_addWord _ _ (by omega)]
  simp [inside, show 10 + bit < 22 by omega]

theorem addWord_kept_iff {word : BitVec 32} {d : BitVec 64} {bit : Nat} (inside : bit < 32)
    (outside : ¬ (10 ≤ bit ∧ bit < 22)) : (addWord word d).getLsbD bit = word.getLsbD bit ↔
      (pageBits d bit = true → word.getLsbD bit = true) := by
  rw [getLsbD_addWord _ _ inside, decide_eq_false outside, Bool.not_false, Bool.true_and,
    getLsbD_pageWord _ _ inside, or_eq_left_iff]

/-- The code for the `add`, which goes on to that for the `adrp`, relocates exactly the words that
fit. -/
theorem offsetRelocated_addWord_iff (p target : Address) (word : BitVec 32) :
    OffsetRelocated target word (addWord word (pageOf target - pageOf p)) ↔
      OffsetFits p target word := by
  have immediate := addImm_addWord word (pageOf target - pageOf p)
  constructor
  · rintro ⟨others, offset, -⟩
    refine ⟨offset.symm.trans immediate, fun bit inside outside => ?_⟩
    exact (addWord_kept_iff inside outside).mp (others bit inside outside)
  · rintro ⟨offset, others⟩
    have kept (bit : Nat) (inside : bit < 32) (outside : ¬ (10 ≤ bit ∧ bit < 22)) :=
      (addWord_kept_iff inside outside).mpr (others bit inside outside)
    refine ⟨kept, immediate.trans offset.symm, fun _ unshifted => ?_⟩
    refine addResult_pageOf ?_ (immediate.trans offset.symm)
    rw [kept 22 (by decide) (by decide)]
    exact unshifted

/-- The code for the `adrp` leaves an `add` alone if and only if the distance has no bit where the word
of an `add` has none. -/
theorem others_iff {word : BitVec 32} (isAdd : IsAddImmediate word) (d : BitVec 64) :
    (∀ bit < 32, ¬ (10 ≤ bit ∧ bit < 22) → pageBits d bit = true → word.getLsbD bit = true) ↔
    (∀ bit ∈ [0, 1, 3, 4, 5, 7, 8], d.getLsbD (12 + bit) = false) ∧
      (d.getLsbD 21 = false ∨ word.getLsbD 31 = true) := by
  obtain ⟨bit24, bit28, clear⟩ := isAdd.bits
  simp only [List.mem_cons, List.not_mem_nil, or_false, forall_eq_or_imp, forall_eq] at clear ⊢
  constructor
  · intro others
    have unset {bit : Nat} (clear : word.getLsbD bit = false) (inside : bit < 32)
        (outside : ¬ (10 ≤ bit ∧ bit < 22)) : pageBits d bit = false := by
      have sets := others bit inside outside
      rw [clear] at sets
      exact Bool.eq_false_iff.mpr fun isSet => by cases sets isSet
    -- bits 29 and 30 get two of the distance, the others one
    have at25 : d.getLsbD 15 = false := unset clear.1 (by decide) (by decide)
    have at26 : d.getLsbD 16 = false := unset clear.2.1 (by decide) (by decide)
    have at27 : d.getLsbD 17 = false := unset clear.2.2.1 (by decide) (by decide)
    have at29 : (d.getLsbD 12 || d.getLsbD 19) = false :=
      unset clear.2.2.2.1 (by decide) (by decide)
    have at30 : (d.getLsbD 13 || d.getLsbD 20) = false :=
      unset clear.2.2.2.2 (by decide) (by decide)
    have at31 : d.getLsbD 21 = true → word.getLsbD 31 = true := others 31 (by decide) (by decide)
    rw [Bool.or_eq_false_iff] at at29 at30
    refine ⟨⟨at29.1, at30.1, at25, at26, at27, at29.2, at30.2⟩, ?_⟩
    cases top : d.getLsbD 21 with
    | true => exact .inr (at31 top)
    | false => exact .inl rfl
  · rintro ⟨⟨bit12, bit13, bit15, bit16, bit17, bit19, bit20⟩, top⟩ bit inside outside sets
    by_cases above : 24 ≤ bit
    · obtain rfl | rfl | rfl | rfl | rfl | rfl | rfl | rfl : bit = 24 ∨ bit = 25 ∨ bit = 26 ∨
        bit = 27 ∨ bit = 28 ∨ bit = 29 ∨ bit = 30 ∨ bit = 31 := by omega
      · exact bit24
      · cases bit15.symm.trans sets
      · cases bit16.symm.trans sets
      · cases bit17.symm.trans sets
      · exact bit28
      · cases (Bool.or_eq_false_iff.mpr ⟨bit12, bit19⟩).symm.trans sets
      · cases (Bool.or_eq_false_iff.mpr ⟨bit13, bit20⟩).symm.trans sets
      · exact top.resolve_left (Bool.eq_false_iff.not.mpr (not_not_intro sets))
    · rw [pageBits_low (by omega)] at sets
      cases sets

/-- An `add` fits the harmless distances to the beginning of a page. -/
theorem offsetFits_iff {p target : Address} {word : BitVec 32} (isAdd : IsAddImmediate word) :
    OffsetFits p target word ↔ OffsetHarmless p target word := by
  rw [OffsetHarmless, ← others_iff isAdd]
  exact ⟨fun fits => ⟨fits.offset, fits.others⟩, fun ⟨offset, others⟩ => ⟨offset, others⟩⟩

/-- For every memory, place, symbol and addend, and every `add` with an immediate: the relocated word
has the offset of S + A in its page, and is the same otherwise, if and only if the offset is zero and
the distance harmless. -/
theorem offset_relocated_iff (p symbolAddress addend : Address) (memory : Bytes)
    (isAdd : IsAddImmediate (load memory p 4)) :
    OffsetRelocated (symbolAddress + addend) (load memory p 4)
        (load (patch addAbsLo12Nc p (symbolAddress + addend) memory) p 4) ↔
      OffsetHarmless p (symbolAddress + addend) (load memory p 4) := by
  have isPatch : patch addAbsLo12Nc p (symbolAddress + addend) memory =
      patchAddAbsLo12Nc p (symbolAddress + addend) memory := rfl
  rw [isPatch, load_patchAddAbsLo12Nc, offsetRelocated_addWord_iff, offsetFits_iff isAdd]

/-- Memory with an `add` to `x0` at `0x10000`. -/
def addMemory : Bytes := store (fun _ => 0) 0x10000 4 0x91000000

/-- The beginning of the page four pages further on. -/
theorem offset_relocated_iff_four :
    OffsetRelocated 0x14000 (load addMemory 0x10000 4)
      (load (patch addAbsLo12Nc 0x10000 (0x14000 + 0) addMemory) 0x10000 4) :=
  (offset_relocated_iff 0x10000 0x14000 0 addMemory (by decide)).mpr
    ⟨by decide, by decide, by decide⟩

/-- Sixteen bytes behind the beginning of the own page: nothing is added. -/
theorem offset_not_relocated :
    load (patch addAbsLo12Nc 0x10000 (0x10010 + 0) addMemory) 0x10000 4 = 0x91000000 ∧
      ¬ OffsetRelocated 0x10010 (load addMemory 0x10000 4)
        (load (patch addAbsLo12Nc 0x10000 (0x10010 + 0) addMemory) 0x10000 4) := by
  have after : load (patch addAbsLo12Nc 0x10000 (0x10010 + 0) addMemory) 0x10000 4 =
      0x91000000 := by
    decide
  refine ⟨after, fun relocated => ?_⟩
  have immediate := relocated.immediate
  rw [after] at immediate
  exact absurd immediate (by decide)

/-- A pair of which both words are relocated computes the target. -/
theorem pair_computes {p target : Address} {adrp adrp' add add' : BitVec 32}
    (first : PageRelocated p target adrp adrp') (second : OffsetRelocated target add add')
    (wide : add.getLsbD 31 = true) (unshifted : add.getLsbD 22 = false) :
    addResult add' (adrpTarget p adrp') = target := by
  rw [first.leads]
  exact second.completes wide unshifted

end CloudflareBlog.ObjFile.Aarch64
