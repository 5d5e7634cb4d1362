import CloudflareBlog.Lib.Limbs
import CloudflareBlog.Lib.Llvm

/-!
# Subtraction of 64 bits on 32-bit registers

Four ways to subtract two 64-bit arguments of a BPF program: as such, by their halves in C, the same
with volatile stores, and the same in LLVM code edited by hand.  The halves need the borrow of the low
ones, which all three take from the wrapped difference: it is above the minuend.  All four leave the
same result (`sub64_agree`).
-/

namespace CloudflareBlog.Ebpf

open Lib.Limbs Lib.Llvm

abbrev U32 := BitVec 32

abbrev U64 := BitVec 64

/-! ## The subtraction in C -/

/-- `(u32) x`. -/
def toU32 (x : U64) : U32 := x.setWidth 32

/-- `(u64) x`. -/
def toU64 (x : U32) : U64 := x.setWidth 64

/-- The body that `sub64_alu32` and `sub64_ir` share. -/
def sub64 (x y : U64) : U64 :=
  let xl := toU32 x
  let yl := toU32 y
  let lo := xl - yl
  let xh := toU32 (x >>> 32)
  let yh := toU32 (y >>> 32)
  let hi := xh - yh - (if lo > xl then 1 else 0)
  toU64 hi <<< 32 ||| toU64 lo

def sub64Alu32 (x y : U64) : U64 := sub64 x y

def sub64Ir (x y : U64) : U64 := sub64 x y

/-- The variables of `sub64_stv` that are stored to memory. -/
structure Stored where
  hi : U32
  lo : U32
  deriving DecidableEq

/-- `sub64_stv`, where the memory of `hi` and `lo` has any content before. -/
def sub64Stv (memory : Stored) (x y : U64) : U64 :=
  let xl := toU32 x
  let yl := toU32 y
  let memory := { memory with lo := xl - yl }
  let xh := toU32 (x >>> 32)
  let yh := toU32 (y >>> 32)
  let memory := { memory with hi := xh - yh - (if memory.lo > xl then 1 else 0) }
  toU64 memory.hi <<< 32 ||| toU64 memory.lo

/-! ## The subtraction in LLVM code -/

/-- `sub64_ir.ll`; the label of the block takes the number 2. -/
def sub64IrLl : Function where
  params := [64, 64]
  body := [
    (3, .trunc 64 (.reg 0) 32),
    (4, .trunc 64 (.reg 1) 32),
    (5, .sub 32 (.reg 3) (.reg 4)),
    (6, .zext 32 (.reg 5) 64),
    (7, .lshr 64 (.reg 0) (.const 32)),
    (8, .lshr 64 (.reg 1) (.const 32)),
    (9, .trunc 64 (.reg 7) 32),
    (10, .trunc 64 (.reg 8) 32),
    (11, .sub 32 (.reg 9) (.reg 10)),
    (12, .icmpUlt 32 (.reg 3) (.reg 5)),
    (13, .zext 1 (.reg 12) 32),
    (14, .sub 32 (.reg 11) (.reg 13)),
    (15, .zext 32 (.reg 14) 64),
    (16, .shl 64 (.reg 15) (.const 32)),
    (17, .or 64 (.reg 16) (.reg 6))]
  ret := (64, .reg 17)

/-! ## The programs -/

inductive ArgsKeys where
  | arg0 | arg1 | res0 | maxKey
  deriving DecidableEq, Repr

def ArgsKeys.value : ArgsKeys → U32
  | .arg0 => 0
  | .arg1 => 1
  | .res0 => 2
  | .maxKey => 3

/-- The map `args`, an array. -/
abbrev Args := Vector U64 3

/-- `v ? *v : 0` of the element, which is missing behind the end of the array. -/
def argsGet (args : Args) (key : U32) : U64 := args[key.toNat]?.getD 0

/-- An update behind the end of the array fails, and nobody looks. -/
def argsPut (args : Args) (key : U32) (v : U64) : Args := args.setIfInBounds key.toNat v

def skPass : Nat := 1

/-- What the four programs do with their subtraction. -/
def filter (sub : U64 → U64 → Option U64) (args : Args) : Option (Nat × Args) :=
  let a := argsGet args ArgsKeys.arg0.value
  let b := argsGet args ArgsKeys.arg1.value
  (sub a b).map fun r => (skPass, argsPut args ArgsKeys.res0.value r)

def filterAlu64 : Args → Option (Nat × Args) := filter fun a b => some (a - b)

def filterAlu32 : Args → Option (Nat × Args) := filter fun a b => some (sub64Alu32 a b)

/-- `filter_ir` with the function that is linked for `extern u64 sub64_ir`. -/
def filterIr (linked : U64 → U64 → Option U64) : Args → Option (Nat × Args) := filter linked

def filterStv (memory : Stored) : Args → Option (Nat × Args) :=
  filter fun a b => some (sub64Stv memory a b)

/-- The result of the LLVM code as a `u64`. -/
def callSub64IrLl (x y : U64) : Option U64 := (sub64IrLl.call [⟨64, x⟩, ⟨64, y⟩]).bind (·.as 64)

/-! ## The result -/

theorem append_toU32 (x : U64) : toU32 (x >>> 32) ++ toU32 x = x := by
  apply BitVec.eq_of_toNat_eq
  have x_lt := x.isLt
  rw [toNat_limbs, toU32, toU32, BitVec.toNat_setWidth, BitVec.toNat_setWidth,
    BitVec.toNat_ushiftRight, Nat.shiftRight_eq_div_pow]
  omega

theorem or_toU64 (hi lo : U32) : toU64 hi <<< 32 ||| toU64 lo = hi ++ lo := by
  apply BitVec.eq_of_getLsbD_eq
  intro i inside
  simp only [toU64, BitVec.getLsbD_or, BitVec.getLsbD_shiftLeft, BitVec.getLsbD_setWidth,
    BitVec.getLsbD_append, inside, decide_true, Bool.true_and]
  by_cases low : i < 32
  · simp [low]
  · have outside : lo.getLsbD i = false := BitVec.getLsbD_of_ge lo i (by omega)
    have within : i - 32 < 64 := by omega
    simp [low, outside, within]

theorem sub64_eq (x y : U64) : sub64 x y = x - y := by
  have limbs := sub_append (toU32 (x >>> 32)) (toU32 (y >>> 32)) (toU32 x) (toU32 y)
  rw [append_toU32, append_toU32] at limbs
  rw [limbs, sub64, or_toU64]
  simp only [gt_iff_lt, lt_sub_iff, borrow]

theorem sub64Stv_eq (memory : Stored) (x y : U64) : sub64Stv memory x y = x - y :=
  sub64_eq x y

/-- The values that the LLVM code gives its registers are those of the variables in C. -/
theorem call_sub64IrLl (x y : U64) :
    sub64IrLl.call [⟨64, x⟩, ⟨64, y⟩] = some ⟨64, sub64 x y⟩ := by
  let xl := toU32 x
  let yl := toU32 y
  let lo := xl - yl
  let xh := toU32 (x >>> 32)
  let yh := toU32 (y >>> 32)
  let flag := BitVec.ofBool (xl.ult lo)
  let hi := xh - yh - flag.setWidth 32
  have assigns : Assigns [(0, ⟨64, x⟩), (1, ⟨64, y⟩)] sub64IrLl.body
      [⟨32, xl⟩, ⟨32, yl⟩, ⟨32, lo⟩, ⟨64, toU64 lo⟩, ⟨64, x >>> 32⟩, ⟨64, y >>> 32⟩, ⟨32, xh⟩,
        ⟨32, yh⟩, ⟨32, xh - yh⟩, ⟨1, flag⟩, ⟨32, flag.setWidth 32⟩, ⟨32, hi⟩, ⟨64, toU64 hi⟩,
        ⟨64, toU64 hi <<< 32⟩, ⟨64, toU64 hi <<< 32 ||| toU64 lo⟩] :=
    ⟨rfl, rfl, rfl, rfl, rfl, rfl, rfl, rfl, rfl, rfl, rfl, rfl, rfl, rfl, rfl, trivial⟩
  have carried : flag.setWidth 32 = if lo > xl then 1 else 0 := by
    by_cases underflow : xl < lo
    · have ult : xl.ult lo = true := BitVec.ult_iff_lt.mpr underflow
      simp [flag, ult, underflow]
    · have ult : xl.ult lo = false :=
        Bool.eq_false_iff.mpr fun ult => underflow (BitVec.ult_iff_lt.mp ult)
      simp [flag, ult, underflow]
  have called : sub64IrLl.call [⟨64, x⟩, ⟨64, y⟩] = some ⟨64, toU64 hi <<< 32 ||| toU64 lo⟩ :=
    call_of_assigns rfl assigns rfl
  rw [called]
  simp only [hi, carried]
  rfl

theorem callSub64IrLl_eq : callSub64IrLl = fun x y => some (x - y) := by
  funext x y
  rw [callSub64IrLl, call_sub64IrLl, sub64_eq]
  rfl

theorem filterAlu64_eq (args : Args) :
    filterAlu64 args = some (skPass, args.set 2 (args[0] - args[1])) := by
  have first : argsGet args ArgsKeys.arg0.value = args[0] := rfl
  have second : argsGet args ArgsKeys.arg1.value = args[1] := rfl
  have result (r : U64) : argsPut args ArgsKeys.res0.value r = args.set 2 r := by
    apply Vector.ext
    intro i inside
    simp [argsPut, ArgsKeys.value, Vector.getElem_setIfInBounds, Vector.getElem_set]
  simp only [filterAlu64, filter, first, second, result, Option.map_some]

/-- For all arguments the four programs subtract modulo `2 ^ 64`, and the test for a borrow is right
for all low halves. -/
theorem sub64_agree :
    (∀ x y, sub64Alu32 x y = x - y) ∧ (∀ memory x y, sub64Stv memory x y = x - y) ∧
      (∀ x y, sub64Ir x y = x - y) ∧
      (∀ x y, sub64IrLl.call [⟨64, x⟩, ⟨64, y⟩] = some ⟨64, x - y⟩) ∧
      (∀ xl yl : U32, xl - yl > xl ↔ xl < yl) ∧
      ∀ args : Args,
        filterAlu64 args = some (skPass, args.set 2 (args[0] - args[1])) ∧
        filterAlu32 args = filterAlu64 args ∧ filterIr callSub64IrLl args = filterAlu64 args ∧
        filterIr (fun x y => some (sub64Ir x y)) args = filterAlu64 args ∧
        ∀ memory, filterStv memory args = filterAlu64 args := by
  have borrows : ∀ xl yl : U32, xl - yl > xl ↔ xl < yl := lt_sub_iff
  refine ⟨sub64_eq, sub64Stv_eq, sub64_eq, fun x y => ?_, borrows, fun args => ?_⟩
  · rw [call_sub64IrLl, sub64_eq]
  · refine ⟨filterAlu64_eq args, ?_, ?_, ?_, fun memory => ?_⟩
    · simp only [filterAlu32, filterAlu64, sub64Alu32, sub64_eq]
    · simp only [filterIr, filterAlu64, callSub64IrLl_eq]
    · simp only [filterIr, filterAlu64, sub64Ir, sub64_eq]
    · simp only [filterStv, filterAlu64, sub64Stv_eq]

end CloudflareBlog.Ebpf
