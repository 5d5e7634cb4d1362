import CloudflareBlog.Lib.KeyOrder
import CloudflareBlog.Lib.Memory

/-!
# An eBPF interpreter

Programs over eleven registers, a frame of 512 bytes and one hash map with counters of 64 bits.  A
pointer is kept apart from the numbers, as the verifier of the kernel does, and an instruction that
the verifier rejects has no result.  Jumps count slots: an instruction that loads a map takes two of
them (`slots`).
-/

namespace CloudflareBlog.Lib.Ebpf

open Buffer KeyOrder Memory

instance registersNeZero : NeZero 11 := ⟨Nat.succ_ne_zero 10⟩

abbrev Register := Fin 11

inductive OpCode where
  | ldXW | ldAbsB | stXW | stDW | xAddStSrc | movSrc | movImm | addImm | ja | jEqImm | ldMapFd | call
  | exit
  deriving DecidableEq, Repr

structure Instruction where
  op : OpCode
  dst : Register
  src : Register
  off : Int
  imm : BitVec 32
  deriving DecidableEq, Repr

/-- What is in a register, for a map with keys of `keySize` bytes. -/
inductive Value (keySize : Nat) where
  | number (bits : BitVec 64)
  | context
  /-- An address in the frame, by its distance from the end. -/
  | frame (offset : Address)
  | map
  /-- The address of the counter of a key. -/
  | counter (key : BitVec (8 * keySize))

/-- What the kernel gives a program. -/
structure Kernel where
  /-- The words of the context. -/
  field : Int → Option (BitVec 32)
  /-- The bytes of the packet, for absolute loads. -/
  packet : Int → Option Byte
  mapFd : BitVec 32
  maxEntries : Nat

abbrev Counters (keySize : Nat) := Map (BitVec (8 * keySize)) (BitVec 64)

structure Machine (keySize : Nat) where
  pc : Int
  registers : Register → Option (Value keySize)
  stack : Bytes
  entries : Counters keySize

variable {keySize : Nat}

/-- A step goes on, or it is the last one and gives the result of the program. -/
inductive Outcome (keySize : Nat) where
  | next (machine : Machine keySize)
  | exit (result : BitVec 32) (entries : Counters keySize)

namespace Machine

def set (machine : Machine keySize) (register : Register) (value : Value keySize) :
    Machine keySize :=
  { machine with registers := Function.update machine.registers register (some value) }

/-- A call leaves nothing in the registers of its arguments. -/
def clobber (machine : Machine keySize) : Machine keySize :=
  { machine with registers := fun register =>
      if 1 ≤ register ∧ register ≤ 5 then none else machine.registers register }

def goto (machine : Machine keySize) (pc : Int) : Machine keySize := { machine with pc := pc }

def forward (machine : Machine keySize) : Machine keySize := machine.goto (machine.pc + 1)

end Machine

/-- The bytes lie in the frame. -/
def InFrame (offset : Address) (size : Nat) : Prop :=
  -512 ≤ offset.toInt ∧ offset.toInt + size ≤ 0

instance decidableInFrame (offset : Address) (size : Nat) : Decidable (InFrame offset size) :=
  inferInstanceAs (Decidable (_ ∧ _))

/-- `bpf_map_update_elem` with `BPF_ANY`: a key that is not there yet needs room, without which the
result is `-E2BIG`. -/
def update (kernel : Kernel) (entries : Counters keySize) (key : BitVec (8 * keySize))
    (value : BitVec 64) : BitVec 64 × Counters keySize :=
  if key ∈ entries ∨ entries.keys.length < kernel.maxEntries then (0, entries.insert key value)
  else (-7, entries)

/-- The helpers, by their numbers. -/
def helper (kernel : Kernel) (machine : Machine keySize) :
    Nat → Option (Machine keySize)
  | 1 =>
    match machine.registers 1, machine.registers 2 with
    | some .map, some (.frame offset) =>
      if InFrame offset keySize then
        let key := load machine.stack offset keySize
        some (machine.clobber.set 0
          (if key ∈ machine.entries then .counter key else .number 0))
      else none
    | _, _ => none
  | 2 =>
    match machine.registers 1, machine.registers 2, machine.registers 3, machine.registers 4 with
    | some .map, some (.frame offset), some (.frame value), some (.number flags) =>
      if flags = 0 ∧ InFrame offset keySize ∧ InFrame value 8 then
        let updated := update kernel machine.entries (load machine.stack offset keySize)
          (load machine.stack value 8)
        some ({ machine.clobber with entries := updated.2 }.set 0 (.number updated.1))
      else none
    | _, _, _, _ => none
  | _ => none

/-- The instruction on the machine.  A byte that the packet does not have ends the program with zero. -/
def perform (kernel : Kernel) (i : Instruction) (machine : Machine keySize) :
    Option (Outcome keySize) :=
  match i.op with
  | .ldXW =>
    match machine.registers i.src with
    | some .context => (kernel.field i.off).map fun word =>
      .next (machine.set i.dst (.number (word.setWidth 64))).forward
    | _ => none
  | .ldAbsB =>
    match machine.registers 6 with
    | some .context =>
      match kernel.packet i.imm.toInt with
      | some byte => some (.next (machine.clobber.set 0 (.number (byte.setWidth 64))).forward)
      | none => some (.exit 0 machine.entries)
    | _ => none
  | .stXW =>
    match machine.registers i.dst, machine.registers i.src with
    | some (.frame offset), some (.number bits) =>
      let address := offset + BitVec.ofInt 64 i.off
      if InFrame address 4 then
        some (.next
          { machine with stack := store machine.stack address 4 (bits.setWidth 32) }.forward)
      else none
    | _, _ => none
  | .stDW =>
    match machine.registers i.dst with
    | some (.frame offset) =>
      let address := offset + BitVec.ofInt 64 i.off
      if InFrame address 8 then
        some (.next
          { machine with stack := store machine.stack address 8 (i.imm.signExtend 64) }.forward)
      else none
    | _ => none
  | .xAddStSrc =>
    match machine.registers i.dst, machine.registers i.src with
    | some (.counter key), some (.number bits) =>
      if i.off = 0 then
        (machine.entries.lookup key).map fun counter =>
          .next { machine with entries := machine.entries.insert key (counter + bits) }.forward
      else none
    | _, _ => none
  | .movSrc => (machine.registers i.src).map fun value => .next (machine.set i.dst value).forward
  | .movImm => some (.next (machine.set i.dst (.number (i.imm.signExtend 64))).forward)
  | .addImm =>
    match machine.registers i.dst with
    | some (.number bits) =>
      some (.next (machine.set i.dst (.number (bits + i.imm.signExtend 64))).forward)
    | some (.frame offset) =>
      some (.next (machine.set i.dst (.frame (offset + i.imm.signExtend 64))).forward)
    | _ => none
  | .ja => some (.next (machine.goto (machine.pc + 1 + i.off)))
  | .jEqImm =>
    match machine.registers i.dst with
    | some (.number bits) =>
      some (.next (machine.goto (machine.pc + 1 + if bits = i.imm.signExtend 64 then i.off else 0)))
    | some (.counter _) => if i.imm = 0 then some (.next machine.forward) else none
    | _ => none
  | .ldMapFd =>
    if i.imm = kernel.mapFd then some (.next ((machine.set i.dst .map).goto (machine.pc + 2)))
    else none
  | .call => (helper kernel machine i.imm.toNat).map fun called => .next called.forward
  | .exit =>
    match machine.registers 0 with
    | some (.number bits) => some (.exit (bits.setWidth 32) machine.entries)
    | _ => none

/-- The slots of a program, where `none` is the second one of an instruction. -/
def slots (program : List Instruction) : List (Option Instruction) :=
  program.flatMap fun i => if i.op = .ldMapFd then [some i, none] else [some i]

def fetch (code : List (Option Instruction)) (pc : Int) : Option Instruction :=
  if 0 ≤ pc then (code[pc.toNat]?).join else none

def step (kernel : Kernel) (code : List (Option Instruction)) (machine : Machine keySize) :
    Option (Outcome keySize) :=
  (fetch code machine.pc).bind fun i => perform kernel i machine

/-- The result of the program and the map behind it, if it ends in so many steps. -/
def execute (kernel : Kernel) (code : List (Option Instruction)) :
    Nat → Machine keySize → Option (BitVec 32 × Counters keySize)
  | 0, _ => none
  | fuel + 1, machine =>
    match step kernel code machine with
    | some (.next machine) => execute kernel code fuel machine
    | some (.exit result entries) => some (result, entries)
    | none => none

/-- The context is in the first register, the end of the frame in the last one. -/
def enter (stack : Bytes) (entries : Counters keySize) : Machine keySize where
  pc := 0
  registers := fun register =>
    if register = 1 then some .context else if register = 10 then some (.frame 0) else none
  stack := stack
  entries := entries

/-- A program reads each slot once at most, as no jump goes back. -/
def run (kernel : Kernel) (program : List Instruction) (stack : Bytes)
    (entries : Counters keySize) : Option (BitVec 32 × Counters keySize) :=
  execute kernel (slots program) (slots program).length (enter stack entries)

/-! ## The rules -/

variable {kernel : Kernel} {code : List (Option Instruction)} {machine middle last : Machine keySize}
  {dst src : Register} {off : Int} {imm : BitVec 32}

/-- So many steps lead from one machine to the other. -/
def Leads (kernel : Kernel) (code : List (Option Instruction)) (count : Nat)
    (machine last : Machine keySize) : Prop :=
  ∀ fuel, execute kernel code (count + fuel) machine = execute kernel code fuel last

theorem Leads.trans {first second : Nat} (before : Leads kernel code first machine middle)
    (after : Leads kernel code second middle last) :
    Leads kernel code (first + second) machine last := by
  intro fuel
  rw [Nat.add_assoc, before, after]

theorem leads_of_perform {i : Instruction} (fetched : fetch code machine.pc = some i)
    (performed : perform kernel i machine = some (.next last)) :
    Leads kernel code 1 machine last := by
  intro fuel
  rw [Nat.add_comm, execute, step, fetched, Option.bind_some, performed]

theorem execute_of_exit {i : Instruction} {result : BitVec 32} {entries : Counters keySize}
    (fetched : fetch code machine.pc = some i)
    (performed : perform kernel i machine = some (.exit result entries)) (fuel : Nat) :
    execute kernel code (fuel + 1) machine = some (result, entries) := by
  rw [execute, step, fetched, Option.bind_some, performed]

@[simp] theorem registers_set (machine : Machine keySize) (register other : Register)
    (value : Value keySize) :
    (machine.set register value).registers other =
      if other = register then some value else machine.registers other :=
  Function.update_apply _ _ _ _

@[simp] theorem registers_clobber (machine : Machine keySize) (register : Register) :
    machine.clobber.registers register =
      if 1 ≤ register ∧ register ≤ 5 then none else machine.registers register :=
  rfl

section

variable (machine : Machine keySize) (register : Register) (value : Value keySize) (pc : Int)

@[simp] theorem pc_set : (machine.set register value).pc = machine.pc := rfl
@[simp] theorem stack_set : (machine.set register value).stack = machine.stack := rfl
@[simp] theorem entries_set : (machine.set register value).entries = machine.entries := rfl
@[simp] theorem pc_clobber : machine.clobber.pc = machine.pc := rfl
@[simp] theorem stack_clobber : machine.clobber.stack = machine.stack := rfl
@[simp] theorem entries_clobber : machine.clobber.entries = machine.entries := rfl
@[simp] theorem pc_goto : (machine.goto pc).pc = pc := rfl
@[simp] theorem registers_goto : (machine.goto pc).registers = machine.registers := rfl
@[simp] theorem stack_goto : (machine.goto pc).stack = machine.stack := rfl
@[simp] theorem entries_goto : (machine.goto pc).entries = machine.entries := rfl
@[simp] theorem pc_forward : machine.forward.pc = machine.pc + 1 := rfl
@[simp] theorem registers_forward : machine.forward.registers = machine.registers := rfl
@[simp] theorem stack_forward : machine.forward.stack = machine.stack := rfl
@[simp] theorem entries_forward : machine.forward.entries = machine.entries := rfl

end

theorem update_of_not_mem {entries : Counters keySize} {key : BitVec (8 * keySize)} {value : BitVec 64}
    (absent : key ∉ entries) :
    (update kernel entries key value).2 =
      if entries.keys.length < kernel.maxEntries then entries.insert key value else entries := by
  simp only [update, absent, false_or]
  split <;> rfl

theorem leads_ldXW {word : BitVec 32} (fetched : fetch code machine.pc = some ⟨.ldXW, dst, src, off, imm⟩)
    (context : machine.registers src = some .context) (field : kernel.field off = some word) :
    Leads kernel code 1 machine (machine.set dst (.number (word.setWidth 64))).forward :=
  leads_of_perform fetched (by simp only [perform, context, field, Option.map_some])

theorem leads_ldAbsB {byte : Byte} (fetched : fetch code machine.pc = some ⟨.ldAbsB, dst, src, off, imm⟩)
    (context : machine.registers 6 = some .context) (read : kernel.packet imm.toInt = some byte) :
    Leads kernel code 1 machine (machine.clobber.set 0 (.number (byte.setWidth 64))).forward :=
  leads_of_perform fetched (by simp only [perform, context, read])

theorem leads_stXW {offset address : Address} {bits : BitVec 64}
    (fetched : fetch code machine.pc = some ⟨.stXW, dst, src, off, imm⟩)
    (frame : machine.registers dst = some (.frame offset))
    (source : machine.registers src = some (.number bits))
    (sum : offset + BitVec.ofInt 64 off = address) (inside : InFrame address 4) :
    Leads kernel code 1 machine
      { machine with stack := store machine.stack address 4 (bits.setWidth 32) }.forward :=
  leads_of_perform fetched (by simp only [perform, frame, source, sum, if_pos inside])

theorem leads_stDW {offset address : Address} {value : BitVec 64}
    (fetched : fetch code machine.pc = some ⟨.stDW, dst, src, off, imm⟩)
    (frame : machine.registers dst = some (.frame offset)) (extended : imm.signExtend 64 = value)
    (sum : offset + BitVec.ofInt 64 off = address) (inside : InFrame address 8) :
    Leads kernel code 1 machine
      { machine with stack := store machine.stack address 8 value }.forward :=
  leads_of_perform fetched (by simp only [perform, frame, extended, sum, if_pos inside])

theorem leads_xAddStSrc {key : BitVec (8 * keySize)} {bits counter : BitVec 64}
    (fetched : fetch code machine.pc = some ⟨.xAddStSrc, dst, src, 0, imm⟩)
    (pointer : machine.registers dst = some (.counter key))
    (source : machine.registers src = some (.number bits))
    (found : machine.entries.lookup key = some counter) :
    Leads kernel code 1 machine
      { machine with entries := machine.entries.insert key (counter + bits) }.forward :=
  leads_of_perform fetched (by simp only [perform, pointer, source, found, if_true, Option.map_some])

theorem leads_movSrc {value : Value keySize}
    (fetched : fetch code machine.pc = some ⟨.movSrc, dst, src, off, imm⟩)
    (source : machine.registers src = some value) :
    Leads kernel code 1 machine (machine.set dst value).forward :=
  leads_of_perform fetched (by simp only [perform, source, Option.map_some])

theorem leads_movImm {value : BitVec 64}
    (fetched : fetch code machine.pc = some ⟨.movImm, dst, src, off, imm⟩)
    (extended : imm.signExtend 64 = value) :
    Leads kernel code 1 machine (machine.set dst (.number value)).forward :=
  leads_of_perform fetched (by simp only [perform, extended])

theorem leads_addImm_frame {offset address : Address}
    (fetched : fetch code machine.pc = some ⟨.addImm, dst, src, off, imm⟩)
    (frame : machine.registers dst = some (.frame offset))
    (sum : offset + imm.signExtend 64 = address) :
    Leads kernel code 1 machine (machine.set dst (.frame address)).forward :=
  leads_of_perform fetched (by simp only [perform, frame, sum])

theorem leads_ja (fetched : fetch code machine.pc = some ⟨.ja, dst, src, off, imm⟩) :
    Leads kernel code 1 machine (machine.goto (machine.pc + 1 + off)) :=
  leads_of_perform fetched rfl

theorem leads_jEqImm_number {bits : BitVec 64}
    (fetched : fetch code machine.pc = some ⟨.jEqImm, dst, src, off, imm⟩)
    (compared : machine.registers dst = some (.number bits)) :
    Leads kernel code 1 machine
      (machine.goto (machine.pc + 1 + if bits = imm.signExtend 64 then off else 0)) :=
  leads_of_perform fetched (by simp only [perform, compared])

theorem leads_jEqImm_counter {key : BitVec (8 * keySize)}
    (fetched : fetch code machine.pc = some ⟨.jEqImm, dst, src, off, 0⟩)
    (compared : machine.registers dst = some (.counter key)) :
    Leads kernel code 1 machine machine.forward :=
  leads_of_perform fetched (by simp only [perform, compared, if_true])

theorem leads_ldMapFd
    (fetched : fetch code machine.pc = some ⟨.ldMapFd, dst, src, off, kernel.mapFd⟩) :
    Leads kernel code 1 machine ((machine.set dst .map).goto (machine.pc + 2)) :=
  leads_of_perform fetched (by simp only [perform, if_true])

theorem leads_lookup {offset : Address} {key : BitVec (8 * keySize)}
    (fetched : fetch code machine.pc = some ⟨.call, dst, src, off, 1⟩)
    (map : machine.registers 1 = some .map) (pointer : machine.registers 2 = some (.frame offset))
    (inside : InFrame offset keySize) (loaded : load machine.stack offset keySize = key)
    (value : Value keySize)
    (found : (if key ∈ machine.entries then .counter key else .number 0) = value) :
    Leads kernel code 1 machine (machine.clobber.set 0 value).forward :=
  leads_of_perform fetched (by
    show (helper kernel machine 1).map _ = _
    simp only [helper, map, pointer, if_pos inside, loaded, found, Option.map_some])

theorem leads_update {offset written : Address} {key : BitVec (8 * keySize)} {value : BitVec 64}
    (fetched : fetch code machine.pc = some ⟨.call, dst, src, off, 2⟩)
    (map : machine.registers 1 = some .map) (pointer : machine.registers 2 = some (.frame offset))
    (other : machine.registers 3 = some (.frame written))
    (flags : machine.registers 4 = some (.number 0))
    (inside : InFrame offset keySize ∧ InFrame written 8)
    (loaded : load machine.stack offset keySize = key) (stored : load machine.stack written 8 = value) :
    Leads kernel code 1 machine
      ({ machine.clobber with entries := (update kernel machine.entries key value).2 }.set 0
        (.number (update kernel machine.entries key value).1)).forward :=
  leads_of_perform fetched (by
    show (helper kernel machine 2).map _ = _
    simp only [helper, map, pointer, other, flags, inside, loaded, stored, and_self, if_true,
      Option.map_some])

theorem execute_exit {bits : BitVec 64}
    (fetched : fetch code machine.pc = some ⟨.exit, dst, src, off, imm⟩)
    (result : machine.registers 0 = some (.number bits)) (fuel : Nat) :
    execute kernel code (fuel + 1) machine = some (bits.setWidth 32, machine.entries) :=
  execute_of_exit fetched (by simp only [perform, result]) fuel

end CloudflareBlog.Lib.Ebpf
