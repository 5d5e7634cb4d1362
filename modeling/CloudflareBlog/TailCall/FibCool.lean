import CloudflareBlog.Lib.X86Calls
import CloudflareBlog.Lib.X86Terms
import CloudflareBlog.TailCall.Fib

/-!
# The compiled `fib_cool`

A call in tail position costs no stack: what gcc makes of the function for x86-64 is a loop on three
registers, which writes to no memory at all.
-/

namespace CloudflareBlog.TailCall.FibCool

open Lib.Memory Lib.Listing Lib.X86Asm
open Register

def reg (r : Register) : Place := .register r

def prologue : Program Instruction := [(0x0, .cmp (.immediate 1) (reg rdi))]

def start : Program Instruction := [
  (0x6, .movl 1 rax),
  (0xb, .movl 1 rdx)]

def turn : Program Instruction := [(0x18, .mov (.place (reg r8)) (reg rax))]

def body : Program Instruction := [
  (0x1b, .sub (.immediate 1) (reg rdi)),
  (0x1f, .lea 0 rdx (some rax) r8),
  (0x23, .mov (.place (reg rax)) (reg rdx)),
  (0x26, .cmp (.immediate 1) (reg rdi))]

def result : Program Instruction := [(0x2c, .mov (.place (reg r8)) (reg rax))]

def small : Program Instruction := [(0x30, .movl 1 r8)]

/-- `fib_cool.x86-64.disasm`. -/
def listing : Program Instruction :=
  prologue ++ (0x4, .j .be 0x30) :: start ++ (0x10, .jmp 0x1b) :: (0x12, .nop) :: turn ++ body ++
  (0x2a, .j .ne 0x18) :: result ++ (0x2f, .ret) :: small ++ [(0x36, .jmp 0x2c)]

abbrev Gets (base : Address) (s : Cpu) (post : Cpu → Prop) : Prop := isa.Reaches listing base s post

/-- The registers that the function uses. -/
def used : List Place := [reg rdi, reg rax, reg rdx, reg r8]

variable {base : Address} {s : Cpu}

/-- The end, with the value in `r8`. -/
theorem returns {t : Cpu} {value : U64} (keeps : Keeps 0 0 used s t) (at_ : t.rip = base + 0x2c)
    (found : t.get (reg r8) = value) : Gets base t (Returns 0 value s) := by
  have unchanged : t.memory = s.memory := funext fun a =>
    keeps.memory a fun onStack => absurd onStack (Nat.not_lt_zero _)
  refine reaches_from at_ ?_
  refine reaches_piece result 0x2f (by decide_cbv) rfl ?_
  have keeps : Keeps 0 0 used s (isa.behind base ([] ++ result.map Prod.snd) 0x2f t) :=
    keeps.trans ((Keeps.effects (by decide) (by decide_cbv) (.refl t)).goto _)
  have moved : (isa.behind base ([] ++ result.map Prod.snd) 0x2f t).get (reg rax) = value :=
    (get_behind 0 (.place (reg r8)) (by decide_cbv)).trans found
  have memory : (isa.behind base ([] ++ result.map Prod.snd) 0x2f t).memory = s.memory :=
    funext fun a => keeps.memory a fun onStack => absurd onStack (Nat.not_lt_zero _)
  have at_ : (isa.behind base ([] ++ result.map Prod.snd) 0x2f t).rip = base + 0x2f := rfl
  generalize isa.behind base ([] ++ result.map Prod.snd) 0x2f t = u at keeps moved memory at_ ⊢
  have other : ∀ r, r ≠ .rsp →
      Function.update u.registers .rsp (u.registers .rsp + 8) r = u.registers r :=
    fun r notRsp => Function.update_of_ne notRsp _ _
  refine reaches_ret 0x30 at_ (by decide_cbv) (.here ⟨?_, ?_, ?_, ?_, ?_⟩)
  · exact congrArg₂ (load · · 8) memory keeps.rsp
  · exact (Function.update_self Register.rsp _ u.registers).trans (congrArg (· + 8) keeps.rsp)
  · exact (other rax (by decide)).trans moved
  · intro r listed
    have kept : ∀ r ∈ preserved, r ≠ .rsp ∧ InFrame 0 (reg r) = true ∧ reg r ∉ used := by decide
    obtain ⟨notRsp, inside, unused⟩ := kept r listed
    exact (other r notRsp).trans (keeps.places (reg r) inside unused)
  · exact fun a _ => congrFun memory a

/-- The loop, from its middle on: the next two numbers of the sequence are in registers. -/
theorem loops {t : Cpu} {k : Nat} {a b : U64} (more : 2 ≤ k) (small : k < 2 ^ 64)
    (keeps : Keeps 0 0 used s t) (at_ : t.rip = base + 0x1b) (counter : Has (reg rdi) k t)
    (first : t.get (reg rdx) = a) (second : t.get (reg rax) = b) :
    Gets base t (Returns 0 (fibTail k a b) s) := by
  induction k using Nat.strong_induction_on generalizing t a b with
  | _ k inductionHypothesis =>
    have less := eval_minus (k := 1) counter (by omega)
    have tail : fibTail k a b = fibTail (k - 1) b (a + b) := by
      obtain ⟨m, rfl⟩ := Nat.exists_eq_add_of_le' more
      rfl
    have sum : ∀ there, (isa.behind base ([] ++ body.map Prod.snd) there t).get (reg r8) = a + b := by
      intro there
      refine (get_behind 0 (.add (.add (.place (reg rdx)) (.constant 0)) (.place (reg rax)))
        (by decide_cbv)).trans ?_
      rw [← first, ← second]
      exact congrArg (· + t.get (reg rax)) (add_zero _)
    have kept : ∀ there, Keeps 0 0 used s (isa.behind base ([] ++ body.map Prod.snd) there t) :=
      fun there => keeps.trans ((Keeps.effects (by decide) (by decide_cbv) (.refl t)).goto _)
    rw [tail]
    refine reaches_from at_ ?_
    refine reaches_piece body 0x2a (by decide_cbv) rfl ?_
    obtain last | again : k = 2 ∨ 3 ≤ k := by omega
    · refine reaches_compared 0 (minus (reg rdi) 1) (.constant 1) .ne 0x18 0x2c (by decide_cbv)
        (passed_of_eq less (by omega)) (returns (kept _) rfl ?_)
      rw [sum, last]
      rfl
    · refine reaches_compared 0 (minus (reg rdi) 1) (.constant 1) .ne 0x18 0x2c (by decide_cbv)
        (passed_of_ne less (by omega) (by omega)) ?_
      refine reaches_piece turn 0x1b (by decide_cbv) rfl ?_
      refine inductionHypothesis (k - 1) (by omega) (by omega) (by omega) ?_ rfl ?_ ?_ ?_
      · exact keeps.trans ((Keeps.effects (by decide) (by decide_cbv) (.refl t)).goto _)
      · exact (get_behind 0 (minus (reg rdi) 1) (by decide_cbv)).trans less
      · exact (get_behind 0 (.place (reg rax)) (by decide_cbv)).trans second
      · refine (get_behind 0 (.add (.add (.place (reg rdx)) (.constant 0)) (.place (reg rax)))
          (by decide_cbv)).trans ?_
        rw [← first, ← second]
        exact congrArg (· + t.get (reg rax)) (add_zero _)

/-- The compiled function returns the value of `fib` for every argument, and uses no stack. -/
theorem fibCool_returns {n : Nat} (small : n < 2 ^ 64) (at_ : s.rip = base + 0)
    (argument : s.registers rdi = BitVec.ofNat 64 n) : Gets base s (Returns 0 (fibCool n) s) := by
  have counter : Has (reg rdi) n s := argument
  refine reaches_from at_ ?_
  refine reaches_piece prologue 0x4 (by decide_cbv) rfl ?_
  have kept : ∀ there code, code.all (confined 0 used) = true →
      Keeps 0 0 used s (isa.behind base code there s) :=
    fun there code isConfined => (Keeps.effects (by decide) isConfined (.refl s)).goto _
  obtain last | more : n ≤ 1 ∨ 2 ≤ n := by omega
  · refine reaches_compared 0 (.place (reg rdi)) (.constant 1) .be 0x30 0x6 (by decide_cbv)
      (branch_of_le counter last) ?_
    refine reaches_piece FibCool.small 0x36 (by decide_cbv) rfl ?_
    refine reaches_jmp 0x2c 0x36 (by decide_cbv) (returns (kept _ _ (by decide_cbv)) rfl ?_)
    rw [fibCool_eq, fib_of_le_one last]
    exact get_behind 0 (.constant 1) (by decide_cbv)
  · refine reaches_compared 0 (.place (reg rdi)) (.constant 1) .be 0x30 0x6 (by decide_cbv)
      (branch_of_lt counter more small) ?_
    refine reaches_piece start 0x10 (by decide_cbv) rfl ?_
    refine reaches_jmp 0x1b 0x12 (by decide_cbv)
      (loops more small (kept _ _ (by decide_cbv)) rfl ?_ ?_ ?_)
    · exact (get_behind 0 (.place (reg rdi)) (by decide_cbv)).trans counter
    · exact get_behind 0 (.constant 1) (by decide_cbv)
    · exact get_behind 0 (.constant 1) (by decide_cbv)

/-- A state in which the function begins for the argument 20. -/
def called20 : Cpu where
  rip := 0x401000 + 0
  registers r := if r = rdi then BitVec.ofNat 64 20 else 0
  memory _ := 0
  cf := false
  zf := false

theorem fibCool_returns_20 : Gets 0x401000 called20 (Returns 0 (fibCool 20) called20) :=
  fibCool_returns (by decide) rfl rfl

end CloudflareBlog.TailCall.FibCool
