import CloudflareBlog.Lib.Code
import CloudflareBlog.Lib.Machine

/-!
# A few instructions of x86-64

`nop`, `ret`, `call` and the jumps with a relative target, and the arithmetic on `rsp` and `ecx`
that stands around them.  A step reports the calls, the returns and the jumps that were taken.
-/

namespace CloudflareBlog.Lib.X86

open Buffer Memory Machine

structure Cpu where
  rip : Address
  rsp : Address
  ecx : BitVec 32
  zf : Bool
  memory : Bytes

/-- Instructions with a relative target hold the displacement from the end of the instruction. -/
inductive Instruction where
  | nop
  | ret
  | call (displacement : Address)
  | jmp (displacement : Address)
  | je (displacement : Address)
  | jne (displacement : Address)
  | addRsp (imm : BitVec 8)
  | movEcx (imm : BitVec 32)
  | decEcx
  deriving DecidableEq

/-- `source` is the address of the instruction and `slot` that of the return address. -/
inductive Event where
  | call (source target slot : Address)
  | ret (source slot target : Address)
  | jump (source target : Address)
  deriving DecidableEq

/-- The instruction at an address and its length. -/
def decode (memory : Bytes) (rip : Address) : Option (Instruction × Address) :=
  if memory rip = 0x90 then some (.nop, 1)
  else if memory rip = 0xc3 then some (.ret, 1)
  else if memory rip = 0xe8 then some (.call ((load memory (rip + 1) 4).signExtend 64), 5)
  else if memory rip = 0xe9 then some (.jmp ((load memory (rip + 1) 4).signExtend 64), 5)
  else if memory rip = 0xeb then some (.jmp ((memory (rip + 1)).signExtend 64), 2)
  else if memory rip = 0x74 then some (.je ((memory (rip + 1)).signExtend 64), 2)
  else if memory rip = 0x75 then some (.jne ((memory (rip + 1)).signExtend 64), 2)
  else if memory rip = 0xb9 then some (.movEcx (load memory (rip + 1) 4), 5)
  else if Holds memory rip [0xff, 0xc9] then some (.decEcx, 2)
  else if Holds memory rip [0x48, 0x83, 0xc4] then some (.addRsp (memory (rip + 3)), 4)
  else none

def jump (cpu : Cpu) (target : Address) : List Event × Cpu :=
  ([.jump cpu.rip target], { cpu with rip := target })

/-- `next` is the address behind the instruction. -/
def execute (cpu : Cpu) (next : Address) : Instruction → List Event × Cpu
  | .nop => ([], { cpu with rip := next })
  | .ret =>
    let target := load cpu.memory cpu.rsp 8
    ([.ret cpu.rip cpu.rsp target], { cpu with rip := target, rsp := cpu.rsp + 8 })
  | .call displacement =>
    let slot := cpu.rsp - 8
    let target := next + displacement
    ([.call cpu.rip target slot],
      { cpu with rip := target, rsp := slot, memory := store cpu.memory slot 8 next })
  | .jmp displacement => jump cpu (next + displacement)
  | .je displacement =>
    if cpu.zf then jump cpu (next + displacement) else ([], { cpu with rip := next })
  | .jne displacement =>
    if cpu.zf then ([], { cpu with rip := next }) else jump cpu (next + displacement)
  | .addRsp imm =>
    let sum := cpu.rsp + imm.signExtend 64
    ([], { cpu with rip := next, rsp := sum, zf := sum == 0 })
  | .movEcx imm => ([], { cpu with rip := next, ecx := imm })
  | .decEcx =>
    let difference := cpu.ecx - 1
    ([], { cpu with rip := next, ecx := difference, zf := difference == 0 })

def step : Step Cpu Event := fun cpu =>
  (decode cpu.memory cpu.rip).map fun found => execute cpu (cpu.rip + found.2) found.1

/-- Every return uses up the return address of the last call that has not returned, where that call
put it.  `pushed` are the places and return addresses of the calls before. -/
def OwnReturns (pushed : List (Address × Address)) : List Event → Prop
  | [] => True
  | .call source _ slot :: later => OwnReturns ((slot, source + 5) :: pushed) later
  | .ret _ slot target :: later => pushed.head? = some (slot, target) ∧ OwnReturns pushed.tail later
  | .jump .. :: later => OwnReturns pushed later

/-- The calls of a run with their targets. -/
def calls (events : List Event) : List (Address × Address) :=
  events.filterMap fun
    | .call source target _ => some (source, target)
    | _ => none

/-- The jumps of a run that were taken, with their targets. -/
def jumps (events : List Event) : List (Address × Address) :=
  events.filterMap fun
    | .jump source target => some (source, target)
    | _ => none

variable {cpu : Cpu} {d : Int}

/-! ## Single instructions -/

theorem step_of_decode {instruction : Instruction} {length : Address}
    (decoded : decode cpu.memory cpu.rip = some (instruction, length)) :
    step cpu = some (execute cpu (cpu.rip + length) instruction) := by
  rw [step, decoded, Option.map_some]

theorem step_nop (code : Holds cpu.memory cpu.rip [0x90]) :
    step cpu = some ([], { cpu with rip := cpu.rip + 1 }) := by
  have decoded : decode cpu.memory cpu.rip = some (.nop, 1) := by
    rw [decode, code.1]
    rfl
  rw [step_of_decode decoded, execute]

theorem step_ret (code : Holds cpu.memory cpu.rip [0xc3]) :
    step cpu = some ([.ret cpu.rip cpu.rsp (load cpu.memory cpu.rsp 8)],
      { cpu with rip := load cpu.memory cpu.rsp 8, rsp := cpu.rsp + 8 }) := by
  have decoded : decode cpu.memory cpu.rip = some (.ret, 1) := by
    rw [decode, code.1]
    rfl
  rw [step_of_decode decoded, execute]

theorem displacement32 {memory : Bytes} {address : Address} {opcode : Byte}
    (code : Holds memory address (opcode :: littleEndian 4 (BitVec.ofInt 32 d)))
    (low : -(2 ^ 31) ≤ d) (high : d < 2 ^ 31) :
    (load memory (address + 1) 4).signExtend 64 = BitVec.ofInt 64 d := by
  rw [load_of_holds code.2]
  exact signExtend_ofInt (by decide) (by omega) (by omega)

theorem displacement8 {memory : Bytes} {address : Address} {opcode : Byte}
    (code : Holds memory address [opcode, BitVec.ofInt 8 d])
    (low : -(2 ^ 7) ≤ d) (high : d < 2 ^ 7) :
    (memory (address + 1)).signExtend 64 = BitVec.ofInt 64 d := by
  rw [code.2.1]
  exact signExtend_ofInt (by decide) (by omega) (by omega)

theorem step_call
    (code : Holds cpu.memory cpu.rip (0xe8 :: littleEndian 4 (BitVec.ofInt 32 d)))
    (low : -(2 ^ 31) ≤ d) (high : d < 2 ^ 31) {target : Address}
    (reaches : cpu.rip + 5 + BitVec.ofInt 64 d = target) :
    step cpu = some ([.call cpu.rip target (cpu.rsp - 8)],
      { cpu with
        rip := target
        rsp := cpu.rsp - 8
        memory := store cpu.memory (cpu.rsp - 8) 8 (cpu.rip + 5) }) := by
  have decoded : decode cpu.memory cpu.rip = some (.call (BitVec.ofInt 64 d), 5) := by
    rw [decode, code.1, displacement32 code low high]
    rfl
  rw [step_of_decode decoded, execute, reaches]

theorem step_jmp32
    (code : Holds cpu.memory cpu.rip (0xe9 :: littleEndian 4 (BitVec.ofInt 32 d)))
    (low : -(2 ^ 31) ≤ d) (high : d < 2 ^ 31) {target : Address}
    (reaches : cpu.rip + 5 + BitVec.ofInt 64 d = target) :
    step cpu = some (jump cpu target) := by
  have decoded : decode cpu.memory cpu.rip = some (.jmp (BitVec.ofInt 64 d), 5) := by
    rw [decode, code.1, displacement32 code low high]
    rfl
  rw [step_of_decode decoded, execute, reaches]

theorem step_jmp8 (code : Holds cpu.memory cpu.rip [0xeb, BitVec.ofInt 8 d])
    (low : -(2 ^ 7) ≤ d) (high : d < 2 ^ 7) {target : Address}
    (reaches : cpu.rip + 2 + BitVec.ofInt 64 d = target) :
    step cpu = some (jump cpu target) := by
  have decoded : decode cpu.memory cpu.rip = some (.jmp (BitVec.ofInt 64 d), 2) := by
    rw [decode, code.1, displacement8 code low high]
    rfl
  rw [step_of_decode decoded, execute, reaches]

theorem step_je (zero : cpu.zf = true) (code : Holds cpu.memory cpu.rip [0x74, BitVec.ofInt 8 d])
    (low : -(2 ^ 7) ≤ d) (high : d < 2 ^ 7) {target : Address}
    (reaches : cpu.rip + 2 + BitVec.ofInt 64 d = target) :
    step cpu = some (jump cpu target) := by
  have decoded : decode cpu.memory cpu.rip = some (.je (BitVec.ofInt 64 d), 2) := by
    rw [decode, code.1, displacement8 code low high]
    rfl
  rw [step_of_decode decoded, execute, if_pos zero, reaches]

theorem step_addRsp {imm : Byte} (code : Holds cpu.memory cpu.rip [0x48, 0x83, 0xc4, imm]) :
    step cpu = some ([],
      { cpu with
        rip := cpu.rip + 4
        rsp := cpu.rsp + imm.signExtend 64
        zf := cpu.rsp + imm.signExtend 64 == 0 }) := by
  have split : Holds cpu.memory cpu.rip [0x48, 0x83, 0xc4] ∧ Holds cpu.memory (cpu.rip + 3) [imm] :=
    holds_append.mp code
  have last : cpu.memory (cpu.rip + 3) = imm := split.2.1
  have notDec : ¬Holds cpu.memory cpu.rip [0xff, 0xc9] := by
    rw [holds_cons, code.1]
    exact fun both => absurd both.1 (by decide)
  have decoded : decode cpu.memory cpu.rip = some (.addRsp imm, 4) := by
    rw [decode, if_neg notDec, if_pos split.1, code.1, last]
    rfl
  rw [step_of_decode decoded, execute]

theorem step_movEcx {imm : BitVec 32} (code : Holds cpu.memory cpu.rip (0xb9 :: littleEndian 4 imm)) :
    step cpu = some ([], { cpu with rip := cpu.rip + 5, ecx := imm }) := by
  have decoded : decode cpu.memory cpu.rip = some (.movEcx imm, 5) := by
    rw [decode, code.1, load_of_holds code.2]
    rfl
  rw [step_of_decode decoded, execute]

theorem step_decEcx (code : Holds cpu.memory cpu.rip [0xff, 0xc9]) :
    step cpu = some ([],
      { cpu with rip := cpu.rip + 2, ecx := cpu.ecx - 1, zf := cpu.ecx - 1 == 0 }) := by
  have decoded : decode cpu.memory cpu.rip = some (.decEcx, 2) := by
    rw [decode, if_pos code, code.1]
    rfl
  rw [step_of_decode decoded, execute]

/-! ## Sequences -/

theorem runs_nops (count : Nat) (code : Holds cpu.memory cpu.rip (List.replicate count 0x90)) :
    Runs step cpu [] { cpu with rip := position cpu.rip count } := by
  induction count generalizing cpu with
  | zero =>
    rw [position_zero]
    exact Runs.refl step cpu
  | succ count inductionHypothesis =>
    have rest := @inductionHypothesis { cpu with rip := cpu.rip + 1 } code.2
    rw [position_succ] at rest
    exact Runs.head (step_nop ⟨code.1, trivial⟩) rest

theorem runs_call_ret
    (code : Holds cpu.memory cpu.rip (0xe8 :: littleEndian 4 (BitVec.ofInt 32 d)))
    (low : -(2 ^ 31) ≤ d) (high : d < 2 ^ 31) {target : Address}
    (reaches : cpu.rip + 5 + BitVec.ofInt 64 d = target)
    (isRet : Holds cpu.memory target [0xc3]) (outside : ¬Inside (cpu.rsp - 8) 8 target) :
    Runs step cpu [.call cpu.rip target (cpu.rsp - 8), .ret target (cpu.rsp - 8) (cpu.rip + 5)]
      { cpu with
        rip := cpu.rip + 5
        memory := store cpu.memory (cpu.rsp - 8) 8 (cpu.rip + 5) } := by
  have stored : load (store cpu.memory (cpu.rsp - 8) 8 (cpu.rip + 5)) (cpu.rsp - 8) 8 = cpu.rip + 5 :=
    load_store cpu.memory _ 8 (by decide) _
  have kept : Holds (store cpu.memory (cpu.rsp - 8) 8 (cpu.rip + 5)) target [0xc3] :=
    ⟨(store_outside outside).trans isRet.1, trivial⟩
  have back := @step_ret
    { cpu with
      rip := target
      rsp := cpu.rsp - 8
      memory := store cpu.memory (cpu.rsp - 8) 8 (cpu.rip + 5) } kept
  rw [stored, BitVec.sub_add_cancel] at back
  exact Runs.head (step_call code low high reaches) (Runs.of_step back)

theorem runs_call_drop
    (code : Holds cpu.memory cpu.rip (0xe8 :: littleEndian 4 (BitVec.ofInt 32 d)))
    (low : -(2 ^ 31) ≤ d) (high : d < 2 ^ 31) {target : Address}
    (reaches : cpu.rip + 5 + BitVec.ofInt 64 d = target)
    (isDrop : Holds (store cpu.memory (cpu.rsp - 8) 8 (cpu.rip + 5)) target
      [0x48, 0x83, 0xc4, 0x08]) :
    Runs step cpu [.call cpu.rip target (cpu.rsp - 8)]
      { cpu with
        rip := target + 4
        zf := cpu.rsp == 0
        memory := store cpu.memory (cpu.rsp - 8) 8 (cpu.rip + 5) } := by
  have eight : BitVec.signExtend 64 (0x08 : Byte) = 8 := by decide
  have dropped := @step_addRsp
    { cpu with
      rip := target
      rsp := cpu.rsp - 8
      memory := store cpu.memory (cpu.rsp - 8) 8 (cpu.rip + 5) } _ isDrop
  rw [eight, BitVec.sub_add_cancel] at dropped
  exact Runs.head (step_call code low high reaches) (Runs.of_step dropped)

theorem runs_zero (code : Holds cpu.memory cpu.rip [0xb9, 0x01, 0x00, 0x00, 0x00, 0xff, 0xc9]) :
    Runs step cpu [] { cpu with rip := cpu.rip + 7, ecx := 0, zf := true } := by
  have split : Holds cpu.memory cpu.rip (0xb9 :: littleEndian 4 1) ∧
      Holds cpu.memory (cpu.rip + 5) [0xff, 0xc9] := holds_append.mp code
  have moved := step_movEcx split.1
  have counted := @step_decEcx { cpu with rip := cpu.rip + 5, ecx := 1 } split.2
  rw [show (1 : BitVec 32) - 1 = 0 by decide, BitVec.add_assoc] at counted
  exact Runs.head moved (Runs.of_step counted)

end CloudflareBlog.Lib.X86
