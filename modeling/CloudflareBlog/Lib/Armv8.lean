import CloudflareBlog.Lib.Code
import CloudflareBlog.Lib.Machine

/-!
# Control flow of aarch64

Branches, calls and returns, the instructions that put a pair of registers on the stack and take it
off again, and the few others that stand around them in generated code.  General registers, the stack
pointer, the vector registers and the zero flag are all the state there is.  The result of a
floating-point operation is a parameter: nothing here depends on it.
-/

namespace CloudflareBlog.Lib.Armv8

open Buffer Memory Machine

/-- Register 31 is not one of `x`: it reads as zero, or it is `sp`. -/
structure Cpu where
  pc : Address
  sp : Address
  x : BitVec 5 → BitVec 64
  v : BitVec 5 → BitVec 128
  zero : Bool
  memory : Bytes

def Cpu.read (cpu : Cpu) (register : BitVec 5) : BitVec 64 :=
  if register = 31 then 0 else cpu.x register

def Cpu.write (cpu : Cpu) (register : BitVec 5) (value : BitVec 64) : Cpu :=
  if register = 31 then cpu else { cpu with x := Function.update cpu.x register value }

/-- A scalar of 32 bits.  The rest of the vector register is cleared. -/
def Cpu.writeS (cpu : Cpu) (register : BitVec 5) (value : BitVec 32) : Cpu :=
  { cpu with v := Function.update cpu.v register (value.setWidth 128) }

inductive Instruction where
  | nop
  | b (imm : BitVec 26)
  | bl (imm : BitVec 26)
  | bCond (cond : BitVec 4) (imm : BitVec 19)
  | ret (rn : BitVec 5)
  /-- `stp rt, rt2, [sp, #imm]!` -/
  | stp (rt rt2 : BitVec 5) (imm : BitVec 7)
  /-- `ldp rt, rt2, [sp], #imm` -/
  | ldp (rt rt2 : BitVec 5) (imm : BitVec 7)
  | movzW (rd : BitVec 5) (imm : BitVec 16)
  | subsW (rd rn : BitVec 5) (imm : BitVec 12)
  | fnmaddS (rd rn rm ra : BitVec 5)
  deriving DecidableEq

def decode (word : BitVec 32) : Option Instruction :=
  let rd := word.extractLsb' 0 5
  let rn := word.extractLsb' 5 5
  let second := word.extractLsb' 10 5
  if word.extractLsb' 26 6 = 0b000101 then some (.b (word.extractLsb' 0 26))
  else if word.extractLsb' 26 6 = 0b100101 then some (.bl (word.extractLsb' 0 26))
  else if word.extractLsb' 24 8 = 0b01010100 ∧ word.extractLsb' 4 1 = 0 then
    some (.bCond (word.extractLsb' 0 4) (word.extractLsb' 5 19))
  else if word = 0xd503201f then some .nop
  else if word.extractLsb' 10 22 = 0b1101011001011111000000 ∧ rd = 0 then some (.ret rn)
  else if word.extractLsb' 22 10 = 0b1010100110 ∧ rn = 31 then
    some (.stp rd second (word.extractLsb' 15 7))
  else if word.extractLsb' 22 10 = 0b1010100011 ∧ rn = 31 then
    some (.ldp rd second (word.extractLsb' 15 7))
  else if word.extractLsb' 21 11 = 0b01010010100 then some (.movzW rd (word.extractLsb' 5 16))
  else if word.extractLsb' 22 10 = 0b0111000100 then
    some (.subsW rd rn (word.extractLsb' 10 12))
  else if word.extractLsb' 21 11 = 0b00011111001 ∧ word.extractLsb' 15 1 = 0 then
    some (.fnmaddS rd rn (word.extractLsb' 16 5) second)
  else none

/-- `source` is the address of the instruction.  Branches are reported if they are taken. -/
inductive Event where
  | branch (source target : Address)
  | call (source target : Address)
  | ret (source target : Address)
  deriving DecidableEq

/-- The conditions `eq` and `ne`, and no others. -/
def condition (cond : BitVec 4) (zero : Bool) : Option Bool :=
  if cond = 0 then some zero else if cond = 1 then some (!zero) else none

/-- A number of words as a displacement. -/
def wordOffset {width : Nat} (imm : BitVec width) : Address := (imm ++ 0#2).signExtend 64

section

variable (fnmadd : BitVec 32 → BitVec 32 → BitVec 32 → BitVec 32)

def execute (cpu : Cpu) : Instruction → Option (List Event × Cpu)
  | .nop => some ([], { cpu with pc := cpu.pc + 4 })
  | .b imm =>
    let target := cpu.pc + wordOffset imm
    some ([.branch cpu.pc target], { cpu with pc := target })
  | .bl imm =>
    let target := cpu.pc + wordOffset imm
    some ([.call cpu.pc target], { cpu.write 30 (cpu.pc + 4) with pc := target })
  | .bCond cond imm =>
    let target := cpu.pc + wordOffset imm
    (condition cond cpu.zero).map fun taken =>
      if taken then ([.branch cpu.pc target], { cpu with pc := target })
      else ([], { cpu with pc := cpu.pc + 4 })
  | .ret rn => some ([.ret cpu.pc (cpu.read rn)], { cpu with pc := cpu.read rn })
  | .stp rt rt2 imm =>
    let sp := cpu.sp + (imm ++ 0#3).signExtend 64
    some ([], { cpu with
      pc := cpu.pc + 4
      sp := sp
      memory := store (store cpu.memory sp 8 (cpu.read rt)) (sp + 8) 8 (cpu.read rt2) })
  | .ldp rt rt2 imm =>
    let loaded := (cpu.write rt (load cpu.memory cpu.sp 8)).write rt2 (load cpu.memory (cpu.sp + 8) 8)
    some ([], { loaded with pc := cpu.pc + 4, sp := cpu.sp + (imm ++ 0#3).signExtend 64 })
  | .movzW rd imm => some ([], { cpu.write rd (imm.setWidth 64) with pc := cpu.pc + 4 })
  | .subsW rd rn imm =>
    let difference := (cpu.read rn).setWidth 32 - imm.setWidth 32
    some ([], { cpu.write rd (difference.setWidth 64) with
      pc := cpu.pc + 4
      zero := difference == 0 })
  | .fnmaddS rd rn rm ra =>
    let result := fnmadd ((cpu.v rn).setWidth 32) ((cpu.v rm).setWidth 32) ((cpu.v ra).setWidth 32)
    some ([], { cpu.writeS rd result with pc := cpu.pc + 4 })

/-- One instruction.  Instructions stand at multiples of 4. -/
def step : Step Cpu Event := fun cpu =>
  if cpu.pc.toNat % 4 = 0 then (decode (load cpu.memory cpu.pc 4)).bind (execute fnmadd cpu)
  else none

end

/-- Where the branch or call at an address goes, if it is taken. -/
def branchTarget (memory : Bytes) (pc : Address) : Option Address :=
  match decode (load memory pc 4) with
  | some (.b imm) => some (pc + wordOffset imm)
  | some (.bl imm) => some (pc + wordOffset imm)
  | some (.bCond _ imm) => some (pc + wordOffset imm)
  | _ => none

/-! ## Decoding -/

theorem decode_b (imm : BitVec 26) : decode (0b000101#6 ++ imm) = some (.b imm) := by
  have opcode : (0b000101#6 ++ imm).extractLsb' 26 6 = 0b000101 := BitVec.extractLsb'_append_eq_left
  rw [decode, if_pos opcode, BitVec.extractLsb'_append_eq_right]

theorem decode_bl (imm : BitVec 26) : decode (0b100101#6 ++ imm) = some (.bl imm) := by
  have opcode : (0b100101#6 ++ imm).extractLsb' 26 6 = 0b100101 := BitVec.extractLsb'_append_eq_left
  have other : (0b100101#6 ++ imm).extractLsb' 26 6 ≠ 0b000101 := by
    rw [opcode]
    decide
  rw [decode, if_neg other, if_pos opcode, BitVec.extractLsb'_append_eq_right]

theorem decode_bCond (cond : BitVec 4) (imm : BitVec 19) :
    decode (0b01010100#8 ++ (imm ++ (0#1 ++ cond))) = some (.bCond cond imm) := by
  have high : (0b01010100#8 ++ (imm ++ (0#1 ++ cond))).extractLsb' 24 8 = 0b01010100 :=
    BitVec.extractLsb'_append_eq_left
  have opcode : (0b01010100#8 ++ (imm ++ (0#1 ++ cond))).extractLsb' 26 6 = 0b010101 :=
    (BitVec.extractLsb'_append_eq_of_le (by decide)).trans (by decide)
  have clear : (0b01010100#8 ++ (imm ++ (0#1 ++ cond))).extractLsb' 4 1 = 0 := by
    rw [BitVec.extractLsb'_append_eq_of_add_le (by decide),
      BitVec.extractLsb'_append_eq_of_add_le (by decide)]
    exact BitVec.extractLsb'_append_eq_left
  have condField : (0b01010100#8 ++ (imm ++ (0#1 ++ cond))).extractLsb' 0 4 = cond := by
    rw [BitVec.extractLsb'_append_eq_of_add_le (by decide),
      BitVec.extractLsb'_append_eq_of_add_le (by decide)]
    exact BitVec.extractLsb'_append_eq_right
  have immField : (0b01010100#8 ++ (imm ++ (0#1 ++ cond))).extractLsb' 5 19 = imm := by
    rw [BitVec.extractLsb'_append_eq_of_add_le (by decide)]
    exact BitVec.extractLsb'_append_eq_left
  have notB : (0b01010100#8 ++ (imm ++ (0#1 ++ cond))).extractLsb' 26 6 ≠ 0b000101 := by
    rw [opcode]
    decide
  have notBl : (0b01010100#8 ++ (imm ++ (0#1 ++ cond))).extractLsb' 26 6 ≠ 0b100101 := by
    rw [opcode]
    decide
  rw [decode, if_neg notB, if_neg notBl, if_pos ⟨high, clear⟩, condField, immField]

theorem wordOffset_ofInt {width : Nat} {d : Int} (narrow : width ≤ 62)
    (low : -(2 ^ width) ≤ d * 2) (high : d * 2 < 2 ^ width) :
    wordOffset (BitVec.ofInt width d) = BitVec.ofInt 64 (4 * d) := by
  have shifted : BitVec.ofInt width d ++ 0#2 = BitVec.ofInt (width + 2) (4 * d) := by
    apply BitVec.eq_of_toNat_eq
    have scaled : 4 * d % ((2 ^ (width + 2) : Nat) : Int) = 4 * (d % ((2 ^ width : Nat) : Int)) := by
      rw [Nat.pow_add, Nat.mul_comm, Nat.cast_mul]
      exact Int.mul_emod_mul_of_pos _ _ (by decide)
    have positive : 0 ≤ d % ((2 ^ width : Nat) : Int) :=
      Int.emod_nonneg _ (Int.natCast_ne_zero.mpr (Nat.pow_pos (by decide)).ne')
    rw [BitVec.toNat_append, BitVec.toNat_ofInt, BitVec.toNat_ofInt, scaled, Nat.shiftLeft_eq]
    simp
    omega
  rw [wordOffset, shifted]
  exact signExtend_ofInt (by omega) (by rw [pow_add]; omega) (by rw [pow_add]; omega)

/-- A field that holds the distance in words reaches the other position. -/
theorem position_wordOffset {width : Nat} (base : Address) {m n : Nat} {d : Int}
    (reaches : (m : Int) + 4 * d = n) (narrow : width ≤ 62) (low : -(2 ^ width) ≤ d * 2)
    (high : d * 2 < 2 ^ width) :
    position base m + wordOffset (BitVec.ofInt width d) = position base n := by
  rw [wordOffset_ofInt narrow low high]
  exact position_displacement base reaches

section

variable {memory : Bytes} {base : Address} {m n : Nat} {d : Int}
  (reaches : (m : Int) + 4 * d = n)
include reaches

theorem branchTarget_b
    (code : Holds memory (position base m) (littleEndian 4 (0b000101#6 ++ BitVec.ofInt 26 d)))
    (low : -(2 ^ 25) ≤ d) (high : d < 2 ^ 25) :
    branchTarget memory (position base m) = some (position base n) := by
  rw [branchTarget, load_of_holds code, decode_b]
  exact congrArg some (position_wordOffset base reaches (by decide) (by omega) (by omega))

theorem branchTarget_bl
    (code : Holds memory (position base m) (littleEndian 4 (0b100101#6 ++ BitVec.ofInt 26 d)))
    (low : -(2 ^ 25) ≤ d) (high : d < 2 ^ 25) :
    branchTarget memory (position base m) = some (position base n) := by
  rw [branchTarget, load_of_holds code, decode_bl]
  exact congrArg some (position_wordOffset base reaches (by decide) (by omega) (by omega))

theorem branchTarget_bCond {cond : BitVec 4}
    (code : Holds memory (position base m)
      (littleEndian 4 (0b01010100#8 ++ (BitVec.ofInt 19 d ++ (0#1 ++ cond)))))
    (low : -(2 ^ 18) ≤ d) (high : d < 2 ^ 18) :
    branchTarget memory (position base m) = some (position base n) := by
  rw [branchTarget, load_of_holds code, decode_bCond]
  exact congrArg some (position_wordOffset base reaches (by decide) (by omega) (by omega))

end

/-! ## Single instructions -/

section

variable {fnmadd : BitVec 32 → BitVec 32 → BitVec 32 → BitVec 32} {cpu : Cpu}
  (aligned : cpu.pc.toNat % 4 = 0)
include aligned

theorem step_of_word {word : BitVec 32} {instruction : Instruction}
    (code : Holds cpu.memory cpu.pc (littleEndian 4 word))
    (decoded : decode word = some instruction) :
    step fnmadd cpu = execute fnmadd cpu instruction := by
  rw [step, if_pos aligned, load_of_holds code, decoded, Option.bind_some]

theorem step_branch {target : Address} {word : BitVec 32}
    (code : Holds cpu.memory cpu.pc (littleEndian 4 word))
    (goes : branchTarget cpu.memory cpu.pc = some target)
    (taken : (∃ imm, decode word = some (.b imm)) ∨
      ∃ imm, decode word = some (.bCond 1 imm) ∧ cpu.zero = false) :
    step fnmadd cpu = some ([.branch cpu.pc target], { cpu with pc := target }) := by
  rw [branchTarget, load_of_holds code] at goes
  obtain ⟨imm, decoded⟩ | ⟨imm, decoded, notZero⟩ := taken
  · rw [decoded] at goes
    rw [step_of_word aligned code decoded, execute, Option.some.inj goes]
  · rw [decoded] at goes
    rw [step_of_word aligned code decoded, execute, Option.some.inj goes]
    simp [condition, notZero]

theorem step_bl {target : Address} {imm : BitVec 26}
    (code : Holds cpu.memory cpu.pc (littleEndian 4 (0b100101#6 ++ imm)))
    (goes : branchTarget cpu.memory cpu.pc = some target) :
    step fnmadd cpu = some ([.call cpu.pc target],
      { cpu with pc := target, x := Function.update cpu.x 30 (cpu.pc + 4) }) := by
  rw [branchTarget, load_of_holds code, decode_bl] at goes
  rw [step_of_word aligned code (decode_bl imm), execute, Option.some.inj goes]
  rfl

theorem step_ret {link : Address} (linked : cpu.x 30 = link)
    (code : Holds cpu.memory cpu.pc (littleEndian 4 0xd65f03c0)) :
    step fnmadd cpu = some ([.ret cpu.pc link], { cpu with pc := link }) := by
  subst linked
  exact step_of_word aligned code (show decode 0xd65f03c0 = some (.ret 30) by decide)

theorem runs_bl_ret {target : Address} {imm : BitVec 26}
    (code : Holds cpu.memory cpu.pc (littleEndian 4 (0b100101#6 ++ imm)))
    (goes : branchTarget cpu.memory cpu.pc = some target) (targetAligned : target.toNat % 4 = 0)
    (isRet : Holds cpu.memory target (littleEndian 4 0xd65f03c0)) :
    Runs (step fnmadd) cpu [.call cpu.pc target, .ret target (cpu.pc + 4)]
      { cpu with pc := cpu.pc + 4, x := Function.update cpu.x 30 (cpu.pc + 4) } := by
  have returned := @step_ret fnmadd
    { cpu with pc := target, x := Function.update cpu.x 30 (cpu.pc + 4) } targetAligned _
    (Function.update_self 30 (cpu.pc + 4) cpu.x) isRet
  exact Runs.head (step_bl aligned code goes) (Runs.of_step returned)

theorem step_fnmaddS {word : BitVec 32} {rd rn rm ra : BitVec 5}
    (code : Holds cpu.memory cpu.pc (littleEndian 4 word))
    (decoded : decode word = some (.fnmaddS rd rn rm ra)) :
    step fnmadd cpu = some ([], { cpu with
      pc := cpu.pc + 4
      v := Function.update cpu.v rd ((fnmadd ((cpu.v rn).setWidth 32) ((cpu.v rm).setWidth 32)
        ((cpu.v ra).setWidth 32)).setWidth 128) }) :=
  step_of_word aligned code decoded

/-- The registers put on the stack, as `stp` does before it goes on. -/
def pushed (memory : Bytes) (sp : Address) (first second : BitVec 64) : Bytes :=
  store (store memory sp 8 first) (sp + 8) 8 second

theorem step_stp (code : Holds cpu.memory cpu.pc (littleEndian 4 0xa9bf7bfd)) :
    step fnmadd cpu = some ([], { cpu with
      pc := cpu.pc + 4
      sp := cpu.sp - 16
      memory := pushed cpu.memory (cpu.sp - 16) (cpu.x 29) (cpu.x 30) }) := by
  have down : cpu.sp + ((-2 : BitVec 7) ++ 0#3).signExtend 64 = cpu.sp - 16 := by
    rw [show ((-2 : BitVec 7) ++ 0#3).signExtend 64 = (-16 : Address) by decide, sub_eq_add_neg]
  rw [step_of_word aligned code (show decode 0xa9bf7bfd = some (.stp 29 30 (-2)) by decide),
    execute, down]
  rfl

theorem step_ldp (code : Holds cpu.memory cpu.pc (littleEndian 4 0xa8c17bfd)) :
    step fnmadd cpu = some ([], { cpu with
      pc := cpu.pc + 4
      sp := cpu.sp + 16
      x := Function.update (Function.update cpu.x 29 (load cpu.memory cpu.sp 8)) 30
        (load cpu.memory (cpu.sp + 8) 8) }) :=
  step_of_word aligned code (show decode 0xa8c17bfd = some (.ldp 29 30 2) by decide)

end

theorem load_pushed_first (memory : Bytes) (sp : Address) (first second : BitVec 64) :
    load (pushed memory sp first second) sp 8 = first := by
  rw [pushed, load_store_of_disjoint (by decide) fun a inside other => ?_]
  · exact load_store memory sp 8 (by decide) first
  · have shift : a - (sp + 8) = a - sp - 8 := sub_add_eq_sub_sub _ _ _
    have eight : (8 : Address).toNat = 8 := rfl
    rw [Inside] at inside
    rw [Inside, shift, BitVec.toNat_sub] at other
    omega

theorem load_pushed_second (memory : Bytes) (sp : Address) (first second : BitVec 64) :
    load (pushed memory sp first second) (sp + 8) 8 = second :=
  load_store _ (sp + 8) 8 (by decide) second

theorem pushed_outside {memory : Bytes} {sp : Address} {first second : BitVec 64} {a : Address}
    (outside : ¬Inside sp 16 a) : pushed memory sp first second a = memory a := by
  have shift : a - (sp + 8) = a - sp - 8 := sub_add_eq_sub_sub _ _ _
  have eight : (8 : Address).toNat = 8 := rfl
  rw [Inside] at outside
  rw [pushed, store_outside, store_outside]
  · rw [Inside]
    omega
  · rw [Inside, shift, BitVec.toNat_sub]
    omega

end CloudflareBlog.Lib.Armv8
