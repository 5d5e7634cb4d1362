import CloudflareBlog.Lib.Arm64Asm
import CloudflareBlog.TailCall.Fib

/-!
# The compiled `fib_cool` for aarch64

A loop again, now on `x1`, the argument left over, and the next two numbers of the sequence in `x3` and
`x2`.
-/

namespace CloudflareBlog.TailCall.FibCoolArm64

open Lib.Memory Lib.Listing Lib.Arm64Asm

def prologue : Program Instruction := [
  (0x0, .mov 1 0),
  (0x4, .cmpi 0 1)]

def start : Program Instruction := [
  (0xc, .movi 2 1),
  (0x10, .mov 3 2),
  (0x14, .nop)]

def body : Program Instruction := [
  (0x18, .add 0 3 2),
  (0x1c, .subi 1 1 1),
  (0x20, .mov 3 2),
  (0x24, .mov 2 0),
  (0x28, .cmpi 1 1)]

def small : Program Instruction := [(0x34, .movi 0 1)]

/-- `fib_cool.arm64.disasm`. -/
def listing : Program Instruction :=
  prologue ++ (0x8, .b .ls 0x34) :: start ++ body ++ (0x2c, .b .ne 0x18) :: (0x30, .ret) ::
  small ++ [(0x38, .ret)]

abbrev Gets (base : Address) (s : Cpu) (post : Cpu → Prop) : Prop := isa.Reaches listing base s post

/-- The function that began in `s` has returned to `t` with its result. -/
structure Returns (result : U64) (s t : Cpu) : Prop where
  pc : t.pc = s.x 30
  x0 : t.x 0 = result
  others : ∀ r, 4 ≤ r → t.x r = s.x r

variable {base : Address} {s : Cpu}

@[simp] theorem isa_effect : isa.effect = effect := rfl

theorem loops {t : Cpu} {k : Nat} (more : 2 ≤ k) (at_ : t.pc = base + 0x18)
    (counter : (t.x 1).toNat = k) (kept : ∀ r, 4 ≤ r → t.x r = s.x r) :
    Gets base t (Returns (fibTail k (t.x 3) (t.x 2)) s) := by
  induction k using Nat.strong_induction_on generalizing t with
  | _ k inductionHypothesis =>
    have tail : fibTail k (t.x 3) (t.x 2) = fibTail (k - 1) (t.x 2) (t.x 3 + t.x 2) := by
      obtain ⟨m, rfl⟩ := Nat.exists_eq_add_of_le' more
      rfl
    have less : (t.x 1 - 1).toNat = k - 1 := by bv_omega
    have rest : ∀ r, 4 ≤ r → (isa.effects (body.map Prod.snd) t).x r = s.x r := by
      have unwritten : ∀ r, 4 ≤ r → ∀ i ∈ body.map Prod.snd, writes i ≠ some r := by decide
      intro r high
      rw [x_effects (unwritten r high), kept r high]
    have compared : (isa.effects (body.map Prod.snd) t).holds .ne = !(t.x 1 - 1 == 1) := rfl
    rw [tail]
    refine reaches_from at_ ?_
    refine reaches_piece body 0x2c (by decide_cbv) rfl ?_
    rw [List.nil_append]
    obtain last | again : k = 2 ∨ 3 ≤ k := by omega
    · have isOne : t.x 1 - 1 = 1 := by bv_omega
      refine reaches_b .ne 0x18 0x30 0x30 (by decide_cbv) ?_ ?_
      · rw [compared, isOne]
        rfl
      refine reaches_ret 0x34 (by decide_cbv) (.here ⟨rest 30 (by decide), ?_, rest⟩)
      rw [last]
      rfl
    · have notOne : t.x 1 - 1 ≠ 1 := by bv_omega
      refine reaches_b .ne 0x18 0x30 0x18 (by decide_cbv) ?_ ?_
      · rw [compared, beq_eq_false_iff_ne.mpr notOne]
        rfl
      exact inductionHypothesis (k - 1) (by omega) (by omega) rfl less rest

/-- The compiled function returns the value of `fib` for every argument. -/
theorem fibCoolArm64_returns (at_ : s.pc = base + 0) :
    Gets base s (Returns (fibCool (s.x 0).toNat) s) := by
  have compared : (isa.effects (prologue.map Prod.snd) s).holds .ls = decide (s.x 0 ≤ 1) :=
    ls_iff 1 (s.x 0)
  refine reaches_from at_ ?_
  refine reaches_piece prologue 0x8 (by decide_cbv) rfl ?_
  rw [List.nil_append]
  obtain last | more : (s.x 0).toNat ≤ 1 ∨ 2 ≤ (s.x 0).toNat := by omega
  · have unwritten : ∀ r, 4 ≤ r →
        ∀ i ∈ prologue.map Prod.snd ++ small.map Prod.snd, writes i ≠ some r := by decide
    refine reaches_b .ls 0x34 0xc 0x34 (by decide_cbv) ?_ ?_
    · rw [compared, if_pos]
      exact decide_eq_true last
    refine reaches_piece small 0x38 (by decide_cbv) rfl ?_
    refine reaches_ret 0x38 (by decide_cbv)
      (.here ⟨x_effects (unwritten 30 (by decide)), ?_, fun r high => x_effects (unwritten r high)⟩)
    rw [fibCool_eq, fib_of_le_one last]
    rfl
  · have unwritten : ∀ r, 4 ≤ r →
        ∀ i ∈ prologue.map Prod.snd ++ start.map Prod.snd, writes i ≠ some r := by decide
    refine reaches_b .ls 0x34 0xc 0xc (by decide_cbv) ?_ ?_
    · rw [compared, if_neg]
      exact fun le => Nat.not_le.mpr more (of_decide_eq_true le)
    refine reaches_piece start 0x18 (by decide_cbv) rfl ?_
    exact loops more rfl rfl fun r high => x_effects (unwritten r high)

theorem fibCoolArm64_returns_20 :
    Gets 0x401000 ⟨0x401000 + 0, fun _ => 20, false, false⟩
      (Returns (fibCool 20) ⟨0x401000 + 0, fun _ => 20, false, false⟩) :=
  fibCoolArm64_returns (s := ⟨0x401000 + 0, fun _ => 20, false, false⟩) rfl

end CloudflareBlog.TailCall.FibCoolArm64
