import CloudflareBlog.Lib.Listing

/-!
# Instructions of aarch64 in the words of a disassembler

Integer code on the general registers without memory: moves, sums, unsigned comparisons with the
branches on them, and the return.
-/

namespace CloudflareBlog.Lib.Arm64Asm

open Memory Listing

instance registersNeZero : NeZero 31 := ⟨Nat.succ_ne_zero 30⟩

/-- `x0` to `x30`. -/
abbrev Register := Fin 31

inductive Condition where
  /-- Not equal, and lower or the same. -/
  | ne | ls
  deriving DecidableEq, Repr

inductive Instruction where
  | mov (destination source : Register)
  | movi (destination : Register) (value : BitVec 64)
  | add (destination left right : Register)
  | subi (destination left : Register) (value : BitVec 64)
  | cmpi (left : Register) (value : BitVec 64)
  | nop
  | b (condition : Condition) (offset : Address)
  | ret
  deriving DecidableEq, Repr

structure Cpu where
  pc : Address
  x : Register → BitVec 64
  zero : Bool
  carry : Bool

namespace Cpu

def goto (address : Address) (s : Cpu) : Cpu := { s with pc := address }

def set (r : Register) (value : BitVec 64) (s : Cpu) : Cpu :=
  { s with x := Function.update s.x r value }

def holds (s : Cpu) : Condition → Bool
  | .ne => !s.zero
  | .ls => !s.carry || s.zero

end Cpu

def effect (_next : Address) (i : Instruction) (s : Cpu) : Cpu :=
  match i with
  | .mov destination source => s.set destination (s.x source)
  | .movi destination value => s.set destination value
  | .add destination left right => s.set destination (s.x left + s.x right)
  | .subi destination left value => s.set destination (s.x left - value)
  -- the carry says that nothing was borrowed
  | .cmpi left value => { s with zero := s.x left == value, carry := value ≤ s.x left }
  | .nop | .b _ _ | .ret => s

def target (base next : Address) (i : Instruction) (s : Cpu) : Address :=
  match i with
  | .b condition offset => if s.holds condition then base + offset else next
  | .ret => s.x 30
  | _ => next

def straight : Instruction → Bool
  | .b _ _ | .ret => false
  | _ => true

/-- The register that an instruction changes. -/
def writes : Instruction → Option Register
  | .mov r _ | .movi r _ | .add r _ _ | .subi r _ _ => some r
  | .cmpi _ _ | .nop | .b _ _ | .ret => none

def isa : Isa Instruction Cpu where
  pc := Cpu.pc
  goto := Cpu.goto
  effect := effect
  target := target
  straight := straight
  pc_goto _ _ := rfl
  goto_pc _ := rfl
  goto_goto _ _ _ := rfl
  target_straight {i} isStraight _ _ _ := by
    cases i <;> first | rfl | exact absurd isStraight Bool.false_ne_true
  effect_straight {i} isStraight _ _ _ := by
    cases i <;> rfl

section

variable {listing : Program Instruction} {base here : Address} {done : List Instruction} {s : Cpu}
  {post : Cpu → Prop}

theorem reaches_b (condition : Condition) (offset next there : Address)
    (found : fetch listing here = some (.b condition offset, next))
    (goes : (if (isa.effects done s).holds condition = true then offset else next) = there)
    (rest : isa.Reaches listing base (isa.behind base done there s) post) :
    isa.Reaches listing base (isa.behind base done here s) post := by
  refine reaches_jump (.b condition offset) next there found rfl ?_ rest
  rw [← goes, apply_ite (base + ·)]
  cases condition <;> rfl

theorem reaches_ret (next : Address) (found : fetch listing here = some (.ret, next))
    (rest : isa.Reaches listing base ((isa.effects done s).goto ((isa.effects done s).x 30)) post) :
    isa.Reaches listing base (isa.behind base done here s) post :=
  reaches_at .ret next rfl found rest

end

theorem x_effects {code : List Instruction} {r : Register} {s : Cpu}
    (unwritten : ∀ i ∈ code, writes i ≠ some r) : (isa.effects code s).x r = s.x r := by
  induction code generalizing s with
  | nil => rfl
  | cons i code inductionHypothesis =>
    rw [effects_cons, inductionHypothesis fun j listed => unwritten j (List.mem_cons_of_mem i listed)]
    have other := unwritten i List.mem_cons_self
    cases i with
    | cmpi | nop | b | ret => rfl
    | _ => exact Function.update_of_ne (fun same => other (congrArg some same.symm)) _ _

/-! ## Comparisons -/

theorem ls_iff (value number : BitVec 64) :
    (!decide (value ≤ number) || number == value) = decide (number ≤ value) := by
  rw [Bool.eq_iff_iff]
  simp only [Bool.or_eq_true, Bool.not_eq_true', decide_eq_false_iff_not, BitVec.not_le, beq_iff_eq,
    decide_eq_true_eq]
  rw [BitVec.lt_def, BitVec.le_def, BitVec.toNat_eq]
  omega

end CloudflareBlog.Lib.Arm64Asm
