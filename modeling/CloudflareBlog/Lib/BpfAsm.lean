import CloudflareBlog.Lib.Ebpf
import CloudflareBlog.Lib.Listing

/-!
# BPF programs in the words of a disassembler

The instructions that a compiler makes for a filter with an array map: arithmetic on 64 and on 32 bits,
the frame, the map and its helpers, and jumps ahead.  Pointers are kept apart from numbers.  What a
verifier would reject gives an unknown value, or leaves nothing that is known.
-/

namespace CloudflareBlog.Lib.BpfAsm

open Buffer Memory Listing

abbrev Register := Fin 11

inductive Value where
  | unknown
  | number (bits : BitVec 64)
  | context
  /-- An address in the frame, by its distance from the end. -/
  | frame (offset : Address)
  | map
  /-- The address of an element of the array. -/
  | element (index : Nat)

inductive Operation where
  | add | sub | or | shl | shr
  deriving DecidableEq, Repr

inductive Source where
  | register (r : Register)
  | immediate (value : BitVec 64)
  deriving DecidableEq, Repr

/-- An instruction on `w` registers is not `wide`. -/
inductive Instruction where
  | mov (wide : Bool) (destination : Register) (source : Source)
  | alu (operation : Operation) (wide : Bool) (destination : Register) (source : Source)
  /-- `*(u32 *)(r10 + offset) = source` and the like, with the number of bytes. -/
  | store (size : Nat) (base : Register) (offset : Address) (source : Register)
  | load (size : Nat) (destination base : Register) (offset : Address)
  /-- `destination = 0 ll`, relocated to the map. -/
  | loadMap (destination : Register)
  | call (helper : Nat)
  /-- `if r == 0 goto +skip`. -/
  | jeqz (r : Register) (skip : Address)
  /-- `if r > q goto +skip`. -/
  | jgt (r q : Register) (skip : Address)
  | exit
  deriving DecidableEq, Repr

structure Cpu (n : Nat) where
  pc : Address
  registers : Register → Value
  stack : Bytes
  array : Vector (BitVec 64) n

variable {n : Nat}

namespace Cpu

variable (s : Cpu n)

def set (r : Register) (value : Value) : Cpu n :=
  { s with registers := Function.update s.registers r value }

@[simp] def read : Source → Value
  | .register r => s.registers r
  | .immediate value => .number value

def goto (pc : Address) : Cpu n := { s with pc := pc }

def poisoned : Cpu n := { s with registers := fun _ => .unknown }

def write (offset : Address) (size : Nat) (value : BitVec (8 * size)) : Cpu n :=
  { s with stack := Memory.store s.stack offset size value }

/-- A call leaves nothing in the registers of its arguments. -/
def clobber : Cpu n :=
  { s with registers := fun r => if 1 ≤ r ∧ r ≤ 5 then .unknown else s.registers r }

end Cpu

/-- The lower half, with zeros above it. -/
def low (bits : BitVec 64) : BitVec 64 := (bits.setWidth 32).setWidth 64

@[simp] def Operation.apply : Operation → BitVec 64 → BitVec 64 → BitVec 64
  | .add, a, b => a + b
  | .sub, a, b => a - b
  | .or, a, b => a ||| b
  | .shl, a, b => a <<< b.toNat
  | .shr, a, b => a >>> b.toNat

/-- On `w` registers the operands are cut first; the shifts are by less than 32. -/
@[simp] def Operation.perform (operation : Operation) (wide : Bool) : Value → Value → Value
  | .number a, .number b =>
    .number (if wide then operation.apply a b else low (operation.apply (low a) (low b)))
  | .frame offset, .number b =>
    if operation = .add ∧ wide = true then .frame (offset + b) else .unknown
  | _, _ => .unknown

@[simp] def cut (wide : Bool) : Value → Value
  | .number bits => .number (if wide then bits else low bits)
  | value => if wide then value else .unknown

/-- The bytes lie in the frame. -/
def InFrame (offset : Address) (size : Nat) : Prop := -512 ≤ offset.toInt ∧ offset.toInt + size ≤ 0

instance decidableInFrame (offset : Address) (size : Nat) : Decidable (InFrame offset size) :=
  inferInstanceAs (Decidable (_ ∧ _))

/-- What a load of so many bytes gives. -/
def Cpu.loaded (s : Cpu n) (size : Nat) : Value → Address → Value
  | .frame base, offset =>
    if InFrame (base + offset) size then .number ((load s.stack (base + offset) size).setWidth 64)
    else .unknown
  | .element index, offset =>
    if size = 8 ∧ offset = 0 then (s.array[index]?).elim .unknown .number else .unknown
  | _, _ => .unknown

def Cpu.stored (s : Cpu n) (size : Nat) : Value → Address → Value → Cpu n
  | .frame base, offset, .number bits =>
    if InFrame (base + offset) size then s.write (base + offset) size (bits.setWidth (8 * size))
    else s.poisoned
  | _, _, _ => s.poisoned

/-- `bpf_map_lookup_elem` for an array with keys of four bytes. -/
def Cpu.lookup (s : Cpu n) : Value :=
  match s.registers 1, s.registers 2 with
  | .map, .frame offset =>
    if InFrame offset 4 then
      let key := (load s.stack offset 4).toNat
      if key < n then .element key else .number 0
    else .unknown
  | _, _ => .unknown

/-- `bpf_map_update_elem` for an array, with `-E2BIG` behind its end. -/
def Cpu.update (s : Cpu n) : Value × Vector (BitVec 64) n :=
  match s.registers 1, s.registers 2, s.registers 3, s.registers 4 with
  | .map, .frame offset, .frame value, .number flags =>
    if flags = 0 ∧ InFrame offset 4 ∧ InFrame value 8 then
      let key := (load s.stack offset 4).toNat
      (.number (if key < n then 0 else -7), s.array.setIfInBounds key (load s.stack value 8))
    else (.unknown, s.array)
  | _, _, _, _ => (.unknown, s.array)

/-- A comparison with zero: the address of an element is not zero. -/
def Value.isZero : Value → Option Bool
  | .number bits => some (bits = 0)
  | .element _ => some false
  | _ => none

def Value.above : Value → Value → Option Bool
  | .number a, .number b => some (b < a)
  | _, _ => none

def Cpu.condition (s : Cpu n) : Instruction → Option Bool
  | .jeqz r _ => (s.registers r).isZero
  | .jgt r q _ => (s.registers r).above (s.registers q)
  | _ => none

def skip : Instruction → Address
  | .jeqz _ skip | .jgt _ _ skip => skip
  | _ => 0

@[simp] def effect (_next : Address) (i : Instruction) (s : Cpu n) : Cpu n :=
  match i with
  | .mov wide destination source => s.set destination (cut wide (s.read source))
  | .alu operation wide destination source =>
    s.set destination (operation.perform wide (s.registers destination) (s.read source))
  | .store size base offset source => s.stored size (s.registers base) offset (s.registers source)
  | .load size destination base offset =>
    s.set destination (s.loaded size (s.registers base) offset)
  | .loadMap destination => s.set destination .map
  | .call helper =>
    match helper with
    | 1 => s.clobber.set 0 s.lookup
    | 2 => { s.clobber with array := s.update.2 }.set 0 s.update.1
    | _ => s.clobber.set 0 .unknown
  | .jeqz _ _ | .jgt _ _ _ => if (s.condition i).isSome then s else s.poisoned
  | .exit => s

def target (_base next : Address) (i : Instruction) (s : Cpu n) : Address :=
  if s.condition i = some true then next + skip i else next

def straight : Instruction → Bool
  | .jeqz _ _ | .jgt _ _ _ | .exit => false
  | _ => true

theorem target_straight {i : Instruction} (isStraight : straight i = true) (base next : Address)
    (s : Cpu n) : target base next i s = next := by
  cases i <;> first | rfl | exact absurd isStraight Bool.false_ne_true

theorem stored_goto (s : Cpu n) (address : Address) (size : Nat) (base value : Value)
    (offset : Address) :
    (s.goto address).stored size base offset value =
      (s.stored size base offset value).goto address := by
  cases base with
  | frame start =>
    cases value with
    | number bits =>
      simp only [Cpu.stored]
      split <;> rfl
    | _ => rfl
  | _ => rfl

theorem effect_straight {i : Instruction} (isStraight : straight i = true) (next address : Address)
    (s : Cpu n) : effect next i (s.goto address) = (effect 0 i s).goto address := by
  cases i with
  | store size base offset source => exact stored_goto ..
  | call helper =>
    simp only [effect]
    split <;> rfl
  | jeqz | jgt | exit => exact absurd isStraight Bool.false_ne_true
  | mov wide destination source => cases source <;> rfl
  | alu operation wide destination source => cases source <;> rfl
  | load size destination base offset => rfl
  | loadMap destination => rfl

def isa (n : Nat) : Isa Instruction (Cpu n) where
  pc := Cpu.pc
  goto address s := s.goto address
  effect := effect
  target := target
  straight := straight
  pc_goto _ _ := rfl
  goto_pc _ := rfl
  goto_goto _ _ _ := rfl
  target_straight := target_straight
  effect_straight := effect_straight

@[simp] theorem isa_pc : (isa n).pc = Cpu.pc := rfl

@[simp] theorem isa_goto (address : Address) (s : Cpu n) : (isa n).goto address s = s.goto address :=
  rfl

@[simp] theorem isa_effect : (isa n).effect = effect := rfl

@[simp] theorem registers_set (s : Cpu n) (r q : Register) (value : Value) :
    (s.set r value).registers q = if q = r then value else s.registers q :=
  Function.update_apply _ _ _ _

@[simp] theorem registers_clobber (s : Cpu n) (r : Register) :
    s.clobber.registers r = if 1 ≤ r ∧ r ≤ 5 then .unknown else s.registers r :=
  rfl

section

variable (s : Cpu n) (r : Register) (value : Value) (address : Address) (size : Nat)
  (bytes : BitVec (8 * size))

@[simp] theorem stack_set : (s.set r value).stack = s.stack := rfl
@[simp] theorem array_set : (s.set r value).array = s.array := rfl
@[simp] theorem stack_clobber : s.clobber.stack = s.stack := rfl
@[simp] theorem array_clobber : s.clobber.array = s.array := rfl
@[simp] theorem registers_goto : (s.goto address).registers = s.registers := rfl
@[simp] theorem stack_goto : (s.goto address).stack = s.stack := rfl
@[simp] theorem array_goto : (s.goto address).array = s.array := rfl
@[simp] theorem pc_goto : (s.goto address).pc = address := rfl
@[simp] theorem registers_write : (s.write address size bytes).registers = s.registers := rfl
@[simp] theorem array_write : (s.write address size bytes).array = s.array := rfl
@[simp] theorem stack_write :
    (s.write address size bytes).stack = Memory.store s.stack address size bytes :=
  rfl

end

@[simp] theorem load_store_apart (memory : Bytes) {here there : Address} {size otherSize : Nat}
    (apart : size ≤ (there - here).toNat ∧ otherSize ≤ (here - there).toNat)
    (value : BitVec (8 * otherSize)) :
    load (Memory.store memory there otherSize value) here size = load memory here size := by
  refine load_store_of_disjoint (by omega) fun a inside insideToo => ?_
  rw [Inside] at inside insideToo
  have one : there - here = (a - here) - (a - there) := by bv_omega
  have other : here - there = (a - there) - (a - here) := by bv_omega
  rw [one, other] at apart
  generalize a - here = p, a - there = q at inside insideToo apart
  rw [BitVec.toNat_sub, BitVec.toNat_sub] at apart
  omega

@[simp] theorem stored_frame (s : Cpu n) {size : Nat} {start offset : Address}
    (inside : InFrame (start + offset) size) (bits : BitVec 64) :
    s.stored size (.frame start) offset (.number bits) =
      s.write (start + offset) size (bits.setWidth (8 * size)) :=
  if_pos inside

@[simp] theorem loaded_frame (s : Cpu n) {size : Nat} {start offset : Address}
    (inside : InFrame (start + offset) size) :
    s.loaded size (.frame start) offset =
      .number ((load s.stack (start + offset) size).setWidth 64) :=
  if_pos inside

@[simp] theorem loaded_element (s : Cpu n) {index : Nat} (inside : index < n) :
    s.loaded 8 (.element index) 0#64 = .number s.array[index] := by
  simp [Cpu.loaded, inside]

theorem lookup_eq {s : Cpu n} (offset : Address) {index : Nat} (map : s.registers 1 = .map)
    (key : s.registers 2 = .frame offset) (inside : InFrame offset 4)
    (stored : load s.stack offset 4 = BitVec.ofNat 32 index) (small : index < n)
    (fits : n ≤ 2 ^ 32) : s.lookup = .element index := by
  have number : (load s.stack offset 4).toNat = index := by
    rw [stored]
    exact Nat.mod_eq_of_lt (small.trans_le fits)
  simp only [Cpu.lookup, map, key, if_pos inside, number, if_pos small]

theorem update_eq {s : Cpu n} {offset value : Address} {index : Nat} (map : s.registers 1 = .map)
    (key : s.registers 2 = .frame offset) (other : s.registers 3 = .frame value)
    (flags : s.registers 4 = .number 0) (inside : InFrame offset 4 ∧ InFrame value 8)
    (stored : load s.stack offset 4 = BitVec.ofNat 32 index) (small : index < n)
    (fits : n ≤ 2 ^ 32) :
    s.update = (.number 0, s.array.setIfInBounds index (load s.stack value 8)) := by
  have number : (load s.stack offset 4).toNat = index := by
    rw [stored]
    exact Nat.mod_eq_of_lt (small.trans_le fits)
  simp only [Cpu.update, map, key, other, flags, inside, and_self, if_true, number, if_pos small]

variable {s : Cpu n} {base here : Address} {listing : Program Instruction} {done : List Instruction}
  {post : Cpu n → Prop}

theorem reaches_branch (i : Instruction) (next : Address) (holds : Bool) {there : Address}
    (found : fetch listing here = some (i, next))
    (compared : ((isa n).effects done s).condition i = some holds)
    (goes : (if holds then next + skip i else next) = there)
    (rest : (isa n).Reaches listing base ((isa n).behind base done there s) post) :
    (isa n).Reaches listing base ((isa n).behind base done here s) post := by
  have condition : ((isa n).behind base done here s).condition i = some holds := by
    rw [← compared]
    cases i <;> rfl
  refine reaches_jump i next there found ?_ ?_ rest
  · cases i with
    | jeqz r skip => exact if_pos (by rw [condition]; rfl)
    | jgt r q skip => exact if_pos (by rw [condition]; rfl)
    | _ => cases condition
  · show target base (base + next) i _ = _
    rw [target, condition, ← goes]
    cases holds with
    | true => exact BitVec.add_assoc base next (skip i)
    | false => rfl

/-- The program ends with this result and this array. -/
def Exits (listing : Program Instruction) (base : Address) (s : Cpu n) (result : BitVec 64)
    (array : Vector (BitVec 64) n) : Prop :=
  (isa n).Reaches listing base s fun t =>
    (fetch listing (t.pc - base)).map Prod.fst = some .exit ∧ t.registers 0 = .number result ∧
      t.array = array

end CloudflareBlog.Lib.BpfAsm
