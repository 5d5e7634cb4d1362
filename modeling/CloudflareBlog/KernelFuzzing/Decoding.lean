import CloudflareBlog.Lib.Buffer
import CloudflareBlog.Lib.ByteOrder

/-!
# What a test input is taken for

`fuzznetlink` reads each input into the same buffer, of which it clears the first 32 bytes, and takes
the protocol, the groups and the payload out of it.  The groups are put together from plain chars,
which have a sign: a byte from 0x80 on sets all bits above its own.
-/

namespace CloudflareBlog.KernelFuzzing

open Lib Lib.Buffer

/-! ## The code -/

/-- `socket`, `bind` and `sendmsg` with what they get from the input. -/
structure Operation where
  protocol : BitVec 32
  nlGroups : BitVec 32
  payload : List Byte
  deriving DecidableEq, Repr

def bufferSize : Nat := 512 * 1024

/-- The buffer behind `memset` and `read`. -/
def filled (buf : Nat → Byte) (input : List Byte) : Nat → Byte :=
  store (store buf 0 (List.replicate 32 0)) 0 (input.take bufferSize)

/-- `int` out of `char`. -/
def promoted (char : Byte) : BitVec 32 := char.signExtend 32

def groupsOf (first second third fourth : Byte) : BitVec 32 :=
  promoted first <<< 24 ||| promoted second <<< 16 ||| promoted third <<< 8 ||| promoted fourth

/-- The operation that is attempted with the buffer as the runs before have left it. -/
def attempted (buf : Nat → Byte) (input : List Byte) : Operation :=
  let bufLen := (input.take bufferSize).length
  let bufLen := if bufLen < 5 then 5 else bufLen
  let buf := filled buf input
  { protocol := promoted (buf 0)
    nlGroups := groupsOf (buf 1) (buf 2) (buf 3) (buf 4)
    payload := slice buf 5 (bufLen - 5) }

/-! ## What an input means -/

/-- A leading byte, which is zero where the input has none. -/
def leading (input : List Byte) (index : Nat) : Byte := input.getD index 0

/-- The operation depends on the input alone, its payload is what is behind the first five bytes, and
its groups are the number in big-endian order before. -/
structure Decodes (input : List Byte) : Prop where
  alone : ∀ buf other, attempted buf input = attempted other input
  payload : ∀ buf, (attempted buf input).payload = input.drop 5
  groups : ∀ buf, (attempted buf input).nlGroups =
    leading input 1 ++ (leading input 2 ++ (leading input 3 ++ leading input 4))

/-- A byte from 0x80 on has 0xff before it. -/
def Harmless (before byte : Byte) : Prop := byte.msb = true → before = 0xff

/-! ## The groups -/

section

variable (first second third fourth : Byte)

/-- What the sign of a byte puts into each byte above. -/
def smear (byte : Byte) : Byte := if byte.msb then 0xff else 0

theorem getLsbD_smear (byte : Byte) (i : Nat) :
    (smear byte).getLsbD i = (decide (i < 8) && byte.msb) := by
  unfold smear
  cases byte.msb with
  | true =>
    rw [if_pos rfl, Bool.and_true]
    exact BitVec.getLsbD_allOnes
  | false => simp

/-- The bytes of the groups, the first one with what the signs of the others put into it. -/
theorem groupsOf_eq :
    groupsOf first second third fourth =
      (first ||| (smear second ||| (smear third ||| smear fourth))) ++
        ((second ||| (smear third ||| smear fourth)) ++ ((third ||| smear fourth) ++ fourth)) := by
  -- Bit by bit: the bits above a byte are its sign, and below it there are none.
  apply BitVec.eq_of_getLsbD_eq
  intro i inside
  simp only [groupsOf, promoted, BitVec.getLsbD_or, BitVec.getLsbD_shiftLeft,
    BitVec.getLsbD_signExtend, BitVec.getLsbD_append, getLsbD_smear]
  obtain low | ⟨from8, to16⟩ | ⟨from16, to24⟩ | from24 :
      i < 8 ∨ (8 ≤ i ∧ i < 16) ∨ (16 ≤ i ∧ i < 24) ∨ 24 ≤ i := by omega
  · simp [low, inside, show i < 16 by omega, show i < 24 by omega]
  · simp [inside, to16, show ¬ i < 8 by omega, show i < 24 by omega, show i - 8 < 8 by omega,
      show i - 8 < 32 by omega, Bool.or_comm]
  · simp [inside, to24, show ¬ i < 8 by omega, show ¬ i < 16 by omega, show ¬ i - 8 < 8 by omega,
      show i - 8 < 32 by omega, show i - 16 < 8 by omega, show i - 16 < 32 by omega,
      Bool.or_assoc]
  · simp [inside, show ¬ i < 8 by omega, show ¬ i < 16 by omega, show ¬ i < 24 by omega,
      show ¬ i - 8 < 8 by omega, show i - 8 < 32 by omega, show ¬ i - 16 < 8 by omega,
      show i - 16 < 32 by omega, show i - 24 < 8 by omega, show i - 24 < 32 by omega,
      Bool.or_assoc]

variable {first second third fourth}

theorem or_smear_eq_iff {before byte : Byte} : before ||| smear byte = before ↔ Harmless before byte := by
  unfold smear Harmless
  cases byte.msb with
  | true =>
    have all : before ||| (0xff : Byte) = 0xff := BitVec.or_allOnes
    rw [if_pos rfl, all]
    exact ⟨fun same _ => same.symm, fun same => (same rfl).symm⟩
  | false => simp

/-- Bits that are put in together change nothing if none of them does. -/
theorem or_or_eq_iff {x a b : Byte} : x ||| (a ||| b) = x ↔ x ||| a = x ∧ x ||| b = x := by
  constructor
  · intro same
    constructor
    · calc x ||| a = x ||| (a ||| b) ||| a := by rw [same]
        _ = x ||| (a ||| b) := by rw [BitVec.or_assoc, BitVec.or_comm a b, BitVec.or_assoc b a a,
          BitVec.or_self]
        _ = x := same
    · calc x ||| b = x ||| (a ||| b) ||| b := by rw [same]
        _ = x ||| (a ||| b) := by rw [BitVec.or_assoc, BitVec.or_assoc a b b, BitVec.or_self]
        _ = x := same
  · rintro ⟨first, second⟩
    rw [← BitVec.or_assoc, first, second]

/-- 0xff has a sign itself, so that harm is done to the byte before or to none. -/
theorem Harmless.trans (above : Harmless first second) (below : Harmless second third) :
    Harmless first third := by
  intro sign
  apply above
  rw [below sign]
  decide

/-- The groups are the four bytes when no sign does harm. -/
theorem groupsOf_eq_iff :
    groupsOf first second third fourth = first ++ (second ++ (third ++ fourth)) ↔
      Harmless first second ∧ Harmless second third ∧ Harmless third fourth := by
  rw [groupsOf_eq, append_eq_append_iff, append_eq_append_iff, append_eq_append_iff, or_or_eq_iff,
    or_or_eq_iff, or_or_eq_iff]
  simp only [or_smear_eq_iff, and_true]
  constructor
  · rintro ⟨⟨above, -⟩, ⟨middle, -⟩, below⟩
    exact ⟨above, middle, below⟩
  · rintro ⟨above, middle, below⟩
    have upper := above.trans middle
    exact ⟨⟨above, upper, upper.trans below⟩, ⟨middle, middle.trans below⟩, below⟩

theorem smear_cases (byte : Byte) : smear byte = 0 ∨ smear byte = 0xff := by
  unfold smear
  cases byte.msb with
  | true => exact .inr rfl
  | false => exact .inl rfl

/-- A sign puts 0xff into the byte above, whatever else is put into both. -/
theorem harmless_or {above byte sign : Byte} (solid : sign = 0 ∨ sign = 0xff) :
    Harmless (above ||| (smear byte ||| sign)) (byte ||| sign) := by
  intro negative
  have all (x : Byte) : x ||| (0xff : Byte) = 0xff := BitVec.or_allOnes
  obtain rfl | rfl := solid
  · have none (x : Byte) : x ||| (0 : Byte) = x := BitVec.or_zero
    rw [none] at negative
    rw [none, smear, if_pos negative, all]
  · rw [all, all]

/-- Whatever the bytes are, those of the groups do no harm. -/
theorem harmless_groupsOf :
    Harmless (first ||| (smear second ||| (smear third ||| smear fourth)))
        (second ||| (smear third ||| smear fourth)) ∧
      Harmless (second ||| (smear third ||| smear fourth)) (third ||| smear fourth) ∧
        Harmless (third ||| smear fourth) fourth := by
  refine ⟨harmless_or ?_, harmless_or (smear_cases fourth), ?_⟩
  · obtain none | all := smear_cases third
    · have below : (0 : Byte) ||| smear fourth = smear fourth := BitVec.zero_or
      rw [none, below]
      exact smear_cases fourth
    · rw [all]
      exact .inr BitVec.allOnes_or
  · intro negative
    rw [smear, if_pos negative]
    exact BitVec.or_allOnes

end

/-! ## The buffer -/

section

variable {input : List Byte} (fits : input.length ≤ bufferSize)
include fits

/-- What is left in the buffer does not matter. -/
theorem filled_leading (buf : Nat → Byte) {index : Nat} (within : index < 32) :
    filled buf input index = leading input index := by
  have cleared : (List.replicate 32 (0 : Byte)).getD index (buf index) = 0 := by
    rw [List.getD_eq_getElem?_getD, List.getElem?_replicate_of_lt within, Option.getD_some]
  have first : store buf 0 (List.replicate 32 0) index = 0 := cleared
  rw [filled, List.take_of_length_le fits]
  show input.getD index (store buf 0 (List.replicate 32 0) index) = _
  rw [first, leading]

theorem attempted_payload (buf : Nat → Byte) : (attempted buf input).payload = input.drop 5 := by
  unfold attempted filled
  rw [List.take_of_length_le fits]
  by_cases short : input.length < 5
  · simp only [if_pos short]
    exact (List.drop_eq_nil_of_le (Nat.le_of_lt short)).symm
  · simp only [if_neg short]
    have whole := slice_store (store buf 0 (List.replicate 32 0)) 0 input
    have long : input.length = 5 + (input.length - 5) := by omega
    conv at whole =>
      lhs
      rw [long, slice_add]
    have behind := congrArg (List.drop 5) whole
    rwa [List.drop_left' (length_slice _ _ _)] at behind

theorem attempted_eq (buf : Nat → Byte) :
    attempted buf input =
      { protocol := promoted (leading input 0)
        nlGroups := groupsOf (leading input 1) (leading input 2) (leading input 3) (leading input 4)
        payload := input.drop 5 } := by
  have payload := attempted_payload fits buf
  unfold attempted at payload ⊢
  dsimp only at payload ⊢
  rw [payload, filled_leading fits buf (by decide), filled_leading fits buf (by decide),
    filled_leading fits buf (by decide), filled_leading fits buf (by decide),
    filled_leading fits buf (by decide)]

/-- An input is taken for what it means if and only if each of the bytes 2, 3 and 4 from 0x80 on has
0xff before it. -/
theorem decodes_iff :
    Decodes input ↔
      Harmless (leading input 1) (leading input 2) ∧ Harmless (leading input 2) (leading input 3) ∧
        Harmless (leading input 3) (leading input 4) := by
  rw [← groupsOf_eq_iff]
  constructor
  · intro decodes
    have groups := decodes.groups fun _ => 0
    rwa [attempted_eq fits] at groups
  · intro same
    refine ⟨fun buf other => ?_, attempted_payload fits, fun buf => ?_⟩
    · rw [attempted_eq fits buf, attempted_eq fits other]
    · rw [attempted_eq fits buf]
      exact same

end

/-- An input with a sign in its third byte, and 0xff before it. -/
theorem decodes_0xffff8001 : Decodes [4, 0xff, 0xff, 0x80, 1, 7] :=
  (decodes_iff (show [4, 0xff, 0xff, 0x80, 1, 7].length ≤ bufferSize by decide)).mpr
    ⟨fun _ => by decide, fun _ => by decide, fun negative => absurd negative (by decide)⟩

/-- The masks that can be reached are those whose bytes do no harm. -/
theorem reachable_iff {first second third fourth : Byte} :
    (∃ input buf, input.length ≤ bufferSize ∧
      (attempted buf input).nlGroups = first ++ (second ++ (third ++ fourth))) ↔
      Harmless first second ∧ Harmless second third ∧ Harmless third fourth := by
  constructor
  · rintro ⟨input, buf, fits, groups⟩
    rw [attempted_eq fits, groupsOf_eq, append_eq_append_iff, append_eq_append_iff,
      append_eq_append_iff] at groups
    obtain ⟨rfl, rfl, rfl, rfl⟩ := groups
    exact harmless_groupsOf
  · intro harmless
    have fits : [0, first, second, third, fourth].length ≤ bufferSize :=
      show 5 ≤ bufferSize by decide
    refine ⟨[0, first, second, third, fourth], fun _ => 0, fits, ?_⟩
    rw [attempted_eq fits]
    exact groupsOf_eq_iff.mpr harmless

/-- The sign of the last byte is in all of the mask. -/
theorem not_decodes_0x80 : ¬ Decodes [0, 0, 0, 0, 0x80] := by
  intro decodes
  exact absurd (decodes.groups fun _ => 0) (by decide)

end CloudflareBlog.KernelFuzzing
