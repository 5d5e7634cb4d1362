import CloudflareBlog.Lib.Displacement

/-!
# A few instructions of aarch64

Decoding and execution of `bl`, of `movz` and `movk` on 64-bit registers, and of `br`.  Register 31
reads as zero and is not written.
-/

namespace CloudflareBlog.Lib.Aarch64

open Memory

structure Cpu where
  x : BitVec 5 → BitVec 64
  pc : Address

def Cpu.read (cpu : Cpu) (register : BitVec 5) : BitVec 64 :=
  if register = 31 then 0 else cpu.x register

def Cpu.write (cpu : Cpu) (register : BitVec 5) (value : BitVec 64) : Cpu :=
  if register = 31 then cpu else { cpu with x := Function.update cpu.x register value }

inductive Instruction where
  | bl (imm : BitVec 26)
  | movz (rd : BitVec 5) (hw : BitVec 2) (imm : BitVec 16)
  | movk (rd : BitVec 5) (hw : BitVec 2) (imm : BitVec 16)
  | br (rn : BitVec 5)
  deriving DecidableEq

/-- The six opcode bits of `bl`. -/
def blOpcode : BitVec 6 := 0b100101

def opcode (word : BitVec 32) : BitVec 6 := word.extractLsb' 26 6

def decode (word : BitVec 32) : Option Instruction :=
  let rd := word.extractLsb' 0 5
  let hw := word.extractLsb' 21 2
  let imm := word.extractLsb' 5 16
  if opcode word = blOpcode then some (.bl (word.extractLsb' 0 26))
  else if word.extractLsb' 23 9 = 0b110100101 then some (.movz rd hw imm)
  else if word.extractLsb' 23 9 = 0b111100101 then some (.movk rd hw imm)
  else if word.extractLsb' 10 22 = 0b1101011000011111000000 ∧ rd = 0 then
    some (.br (word.extractLsb' 5 5))
  else none

def insert16 (value : BitVec 64) (imm : BitVec 16) (shift : Nat) : BitVec 64 :=
  value &&& ~~~((0xffff : BitVec 64) <<< shift) ||| imm.setWidth 64 <<< shift

def execute (cpu : Cpu) : Instruction → Cpu
  | .bl imm => { cpu.write 30 (cpu.pc + 4) with pc := cpu.pc + (imm ++ 0#2).signExtend 64 }
  | .movz rd hw imm =>
    { cpu.write rd (imm.setWidth 64 <<< (16 * hw.toNat)) with pc := cpu.pc + 4 }
  | .movk rd hw imm =>
    { cpu.write rd (insert16 (cpu.read rd) imm (16 * hw.toNat)) with pc := cpu.pc + 4 }
  | .br rn => { cpu with pc := cpu.read rn }

/-- One instruction.  Instructions stand at multiples of 4. -/
def step (memory : Bytes) (cpu : Cpu) : Option Cpu :=
  if cpu.pc.toNat % 4 = 0 then (decode (load memory cpu.pc 4)).map (execute cpu) else none

def steps (memory : Bytes) : Nat → Cpu → Option Cpu
  | 0, cpu => some cpu
  | count + 1, cpu => (step memory cpu).bind (steps memory count)

theorem step_of_decode {memory : Bytes} {cpu : Cpu} {instruction : Instruction}
    (aligned : cpu.pc.toNat % 4 = 0)
    (decoded : decode (load memory cpu.pc 4) = some instruction) :
    step memory cpu = some (execute cpu instruction) := by
  rw [step, if_pos aligned, decoded, Option.map_some]

theorem read_write {register : BitVec 5} (isRegister : register ≠ 31) (cpu : Cpu)
    (value : BitVec 64) (pc : Address) :
    Cpu.read { cpu.write register value with pc := pc } register = value := by
  rw [Cpu.read, if_neg isRegister, Cpu.write, if_neg isRegister]
  exact Function.update_self _ _ _

/-! ## Calls -/

/-- A displacement in words, as `bl` holds it. -/
def wordDisplacement (d : BitVec 64) : BitVec 26 := (d.sshiftRight 2).setWidth 26

/-- The displacement survives if it is a multiple of 4 of less than 128 MiB. -/
theorem signExtend_wordDisplacement {d : BitVec 64} (aligned : d.toNat % 4 = 0)
    (low : -(2 ^ 27) ≤ d.toInt) (high : d.toInt < 2 ^ 27) :
    (wordDisplacement d ++ 0#2).signExtend 64 = d := by
  have cut : wordDisplacement d ++ 0#2 = d.setWidth 28 := by
    apply BitVec.eq_of_getLsbD_eq
    intro bit inside
    have bit0 : d.getLsbD 0 = false := by
      rw [← BitVec.testBit_toNat, Nat.testBit_zero]
      exact decide_eq_false (by omega)
    have bit1 : d.getLsbD 1 = false := by
      rw [← BitVec.testBit_toNat, Nat.testBit_succ, Nat.testBit_zero]
      exact decide_eq_false (by omega)
    rw [BitVec.getLsbD_append, BitVec.getLsbD_setWidth, decide_eq_true inside, Bool.true_and,
      BitVec.getLsbD_zero]
    match bit with
    | 0 => exact bit0.symm
    | 1 => exact bit1.symm
    | bit + 2 =>
      rw [if_neg (by omega), wordDisplacement, BitVec.getLsbD_setWidth, BitVec.getLsbD_sshiftRight]
      simp [show bit < 26 by omega, show bit + 2 < 64 by omega, show ¬64 ≤ bit by omega,
        Nat.add_comm 2 bit]
  rw [cut]
  exact signExtend_setWidth (by decide) d (by omega) (by omega)

/-- And only then. -/
theorem signExtend_wordDisplacement_iff (d : BitVec 64) :
    (wordDisplacement d ++ 0#2).signExtend 64 = d ↔
      d.toNat % 4 = 0 ∧ -(2 ^ 27) ≤ d.toInt ∧ d.toInt < 2 ^ 27 := by
  constructor
  · intro same
    have value := congrArg BitVec.toInt same
    rw [BitVec.toInt_signExtend_of_le (by decide), BitVec.toInt_append, if_neg (by decide)] at value
    have zero : ((0#2).toNat : Int) = 0 := rfl
    have low := BitVec.le_two_mul_toInt (x := wordDisplacement d)
    have high := BitVec.two_mul_toInt_lt (x := wordDisplacement d)
    have number := BitVec.toInt_eq_toNat_cond d
    have bound := d.isLt
    split at number <;> omega
  · rintro ⟨aligned, low, high⟩
    exact signExtend_wordDisplacement aligned low high

theorem step_bl {memory : Bytes} {cpu : Cpu} {target : Address}
    (aligned : cpu.pc.toNat % 4 = 0)
    (isCall : opcode (load memory cpu.pc 4) = blOpcode)
    (field : (load memory cpu.pc 4).extractLsb' 0 26 = wordDisplacement (target - cpu.pc))
    (whole : (target - cpu.pc).toNat % 4 = 0) (low : -(2 ^ 27) ≤ (target - cpu.pc).toInt)
    (high : (target - cpu.pc).toInt < 2 ^ 27) :
    step memory cpu = some { cpu.write 30 (cpu.pc + 4) with pc := target } := by
  have isBl : decode (load memory cpu.pc 4) =
      some (.bl (wordDisplacement (target - cpu.pc))) := by
    rw [decode, if_pos isCall, field]
  rw [step_of_decode aligned isBl, execute, signExtend_wordDisplacement whole low high,
    add_sub_cancel]

/-! ## Loading an address -/

/-- An instruction word with an immediate of 16 bits put in. -/
def withImmediate (base : BitVec 32) (imm : BitVec 16) : BitVec 32 := base ||| imm.setWidth 32 <<< 5

theorem getLsbD_withImmediate (base : BitVec 32) (imm : BitVec 16) (bit : Nat) :
    (withImmediate base imm).getLsbD bit =
      (base.getLsbD bit || (decide (5 ≤ bit ∧ bit < 21) && imm.getLsbD (bit - 5))) := by
  rw [withImmediate, BitVec.getLsbD_or, BitVec.getLsbD_shiftLeft, BitVec.getLsbD_setWidth]
  by_cases inside : 5 ≤ bit ∧ bit < 21
  · simp [inside, show bit < 32 by omega, show ¬bit < 5 by omega, show bit - 5 < 32 by omega]
  · by_cases below : bit < 5
    · simp [below]
    · rw [BitVec.getLsbD_of_ge imm _ (by omega)]
      simp

/-- Bits outside the immediate are those of the base. -/
theorem extractLsb'_withImmediate (base : BitVec 32) (imm : BitVec 16) {start length : Nat}
    (outside : start + length ≤ 5 ∨ 21 ≤ start) :
    (withImmediate base imm).extractLsb' start length = base.extractLsb' start length := by
  apply BitVec.eq_of_getLsbD_eq
  intro bit inside
  rw [BitVec.getLsbD_extractLsb', BitVec.getLsbD_extractLsb', getLsbD_withImmediate,
    decide_eq_false (show ¬(5 ≤ start + bit ∧ start + bit < 21) by omega), Bool.false_and,
    Bool.or_false]

theorem immediate_withImmediate {base : BitVec 32} (clear : base.extractLsb' 5 16 = 0)
    (imm : BitVec 16) : (withImmediate base imm).extractLsb' 5 16 = imm := by
  apply BitVec.eq_of_getLsbD_eq
  intro bit inside
  have none : base.getLsbD (5 + bit) = false := by
    have here := congrArg (BitVec.getLsbD · bit) clear
    simpa [BitVec.getLsbD_extractLsb', inside] using here
  rw [BitVec.getLsbD_extractLsb', getLsbD_withImmediate, none]
  simp [inside, show 5 + bit < 21 by omega]

theorem opcode_eq (word : BitVec 32) : opcode word = (word.extractLsb' 23 9).extractLsb' 3 6 := by
  apply BitVec.eq_of_getLsbD_eq
  intro bit inside
  rw [opcode, BitVec.getLsbD_extractLsb', BitVec.getLsbD_extractLsb', BitVec.getLsbD_extractLsb',
    decide_eq_true inside, decide_eq_true (show 3 + bit < 9 by omega), ← Nat.add_assoc]
  rfl

theorem decode_movz {base : BitVec 32} (clear : base.extractLsb' 5 16 = 0)
    (isMovz : base.extractLsb' 23 9 = 0b110100101) (imm : BitVec 16) :
    decode (withImmediate base imm) =
      some (.movz (base.extractLsb' 0 5) (base.extractLsb' 21 2) imm) := by
  have kind : (withImmediate base imm).extractLsb' 23 9 = 0b110100101 := by
    rw [extractLsb'_withImmediate base imm (by omega), isMovz]
  have other : opcode (withImmediate base imm) ≠ blOpcode := by
    rw [opcode_eq, kind]
    decide
  rw [decode, if_neg other, if_pos kind, immediate_withImmediate clear,
    extractLsb'_withImmediate base imm (by omega), extractLsb'_withImmediate base imm (by omega)]

theorem decode_movk {base : BitVec 32} (clear : base.extractLsb' 5 16 = 0)
    (isMovk : base.extractLsb' 23 9 = 0b111100101) (imm : BitVec 16) :
    decode (withImmediate base imm) =
      some (.movk (base.extractLsb' 0 5) (base.extractLsb' 21 2) imm) := by
  have kind : (withImmediate base imm).extractLsb' 23 9 = 0b111100101 := by
    rw [extractLsb'_withImmediate base imm (by omega), isMovk]
  have other : opcode (withImmediate base imm) ≠ blOpcode := by
    rw [opcode_eq, kind]
    decide
  have notMovz : (withImmediate base imm).extractLsb' 23 9 ≠ 0b110100101 := by
    rw [kind]
    decide
  rw [decode, if_neg other, if_neg notMovz, if_pos kind, immediate_withImmediate clear,
    extractLsb'_withImmediate base imm (by omega), extractLsb'_withImmediate base imm (by omega)]

theorem getLsbD_insert16 (value : BitVec 64) (imm : BitVec 16) (shift : Nat) {bit : Nat}
    (inside : bit < 64) :
    (insert16 value imm shift).getLsbD bit =
      if shift ≤ bit ∧ bit < shift + 16 then imm.getLsbD (bit - shift) else value.getLsbD bit := by
  have mask : (0xffff : BitVec 64) = (BitVec.allOnes 16).setWidth 64 := rfl
  rw [insert16, mask, BitVec.getLsbD_or, BitVec.getLsbD_and, BitVec.getLsbD_not,
    BitVec.getLsbD_shiftLeft, BitVec.getLsbD_shiftLeft, BitVec.getLsbD_setWidth,
    BitVec.getLsbD_setWidth, BitVec.getLsbD_allOnes]
  by_cases below : bit < shift
  · simp [inside, below, show ¬shift ≤ bit by omega]
  · by_cases above : bit - shift < 16
    · simp [inside, below, above, show shift ≤ bit ∧ bit < shift + 16 by omega,
        show bit - shift < 64 by omega]
    · have beyond : imm.getLsbD (bit - shift) = false := BitVec.getLsbD_of_ge imm _ (by omega)
      simp [inside, below, above, beyond, show ¬bit < shift + 16 by omega]

theorem insert16_parts {addr : BitVec 64} (small : addr.toNat < 2 ^ 48) :
    insert16 (insert16 ((addr.setWidth 16).setWidth 64 <<< 0) ((addr >>> 16).setWidth 16) 16)
      ((addr >>> 32).setWidth 16) 32 = addr := by
  apply BitVec.eq_of_getLsbD_eq
  intro bit inside
  rw [getLsbD_insert16 _ _ _ inside, getLsbD_insert16 _ _ _ inside, BitVec.shiftLeft_zero,
    BitVec.getLsbD_setWidth, BitVec.getLsbD_setWidth, BitVec.getLsbD_setWidth,
    BitVec.getLsbD_setWidth, BitVec.getLsbD_ushiftRight, BitVec.getLsbD_ushiftRight]
  obtain low | high := Nat.lt_or_ge bit 48
  · by_cases third : 32 ≤ bit
    · simp [third, low, show bit - 32 < 16 by omega, Nat.add_sub_cancel' third]
    · by_cases second : 16 ≤ bit
      · simp [third, second, show bit < 32 by omega, show bit - 16 < 16 by omega,
          Nat.add_sub_cancel' second]
      · simp [third, second, inside, show bit < 16 by omega]
  · have none : addr.getLsbD bit = false := by
      rw [← BitVec.testBit_toNat]
      exact Nat.testBit_lt_two_pow (Nat.lt_of_lt_of_le small (Nat.pow_le_pow_right (by decide) high))
    simp [none, show ¬bit < 48 by omega, show ¬bit < 32 by omega]

theorem step_movz {memory : Bytes} {cpu : Cpu} {rd : BitVec 5} {hw : BitVec 2} {imm : BitVec 16}
    (isRegister : rd ≠ 31) (aligned : cpu.pc.toNat % 4 = 0)
    (decoded : decode (load memory cpu.pc 4) = some (.movz rd hw imm)) :
    ∃ next, step memory cpu = some next ∧ next.pc = cpu.pc + 4 ∧
      next.read rd = imm.setWidth 64 <<< (16 * hw.toNat) :=
  ⟨_, step_of_decode aligned decoded, rfl, read_write isRegister _ _ _⟩

theorem step_movk {memory : Bytes} {cpu : Cpu} {rd : BitVec 5} {hw : BitVec 2} {imm : BitVec 16}
    (isRegister : rd ≠ 31) (aligned : cpu.pc.toNat % 4 = 0)
    (decoded : decode (load memory cpu.pc 4) = some (.movk rd hw imm)) :
    ∃ next, step memory cpu = some next ∧ next.pc = cpu.pc + 4 ∧
      next.read rd = insert16 (cpu.read rd) imm (16 * hw.toNat) :=
  ⟨_, step_of_decode aligned decoded, rfl, read_write isRegister _ _ _⟩

theorem aligned_add_four {pc : Address} (aligned : pc.toNat % 4 = 0) : (pc + 4).toNat % 4 = 0 := by
  have four : (4 : Address).toNat = 4 := rfl
  rw [BitVec.toNat_add]
  omega

/-- `movz`, two `movk` and `br` go to the address. -/
theorem steps_branch {memory : Bytes} {cpu : Cpu} (register : BitVec 5) {addr : Address}
    (isRegister : register ≠ 31) (small : addr.toNat < 2 ^ 48) (aligned : cpu.pc.toNat % 4 = 0)
    (first : decode (load memory cpu.pc 4) = some (.movz register 0 (addr.setWidth 16)))
    (second : decode (load memory (cpu.pc + 4) 4) =
      some (.movk register 1 ((addr >>> 16).setWidth 16)))
    (third : decode (load memory (cpu.pc + 8) 4) =
      some (.movk register 2 ((addr >>> 32).setWidth 16)))
    (last : decode (load memory (cpu.pc + 12) 4) = some (.br register)) :
    ∃ x, steps memory 4 cpu = some ⟨x, addr⟩ := by
  have eight : cpu.pc + 8 = cpu.pc + 4 + 4 := (BitVec.add_assoc cpu.pc 4 4).symm
  have twelve : cpu.pc + 12 = cpu.pc + 4 + 4 + 4 := by
    rw [← eight]
    exact (BitVec.add_assoc cpu.pc 8 4).symm
  rw [eight] at third
  rw [twelve] at last
  -- step by step, each at the program counter that the one before has left
  obtain ⟨cpu1, step1, pc1, read1⟩ := step_movz isRegister aligned first
  have aligned1 := aligned_add_four aligned
  rw [← pc1] at second third last aligned1
  obtain ⟨cpu2, step2, pc2, read2⟩ := step_movk isRegister aligned1 second
  have aligned2 := aligned_add_four aligned1
  rw [← pc2] at third last aligned2
  obtain ⟨cpu3, step3, pc3, read3⟩ := step_movk isRegister aligned2 third
  have aligned3 := aligned_add_four aligned2
  rw [← pc3] at last aligned3
  have value : cpu3.read register = addr := by
    rw [read3, read2, read1]
    exact insert16_parts small
  refine ⟨cpu3.x, ?_⟩
  rw [steps, step1, Option.bind_some, steps, step2, Option.bind_some, steps, step3,
    Option.bind_some, steps, step_of_decode aligned3 last, Option.bind_some, steps, execute, value]

end CloudflareBlog.Lib.Aarch64
