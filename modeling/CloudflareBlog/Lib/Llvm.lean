import Mathlib.Data.List.Basic

/-!
# Straight-line LLVM code on integers

The instructions of a basic block without memory, on values of the integer types `iN`.  An operand
stands behind its type, as in the text of a program, and code that reads a register as another type
has no result.  Nor has a shift by the width of its type or more, which gives poison.
-/

namespace CloudflareBlog.Lib.Llvm

/-- A value of the type `iN`. -/
structure Value where
  width : Nat
  bits : BitVec width
  deriving DecidableEq

inductive Operand where
  | reg (number : Nat)
  | const (value : Int)
  deriving DecidableEq, Repr

/-- The right side of an assignment. -/
inductive Instruction where
  | trunc (width : Nat) (x : Operand) (target : Nat)
  | zext (width : Nat) (x : Operand) (target : Nat)
  | sub (width : Nat) (x y : Operand)
  | or (width : Nat) (x y : Operand)
  | lshr (width : Nat) (x y : Operand)
  | shl (width : Nat) (x y : Operand)
  | icmpUlt (width : Nat) (x y : Operand)
  deriving DecidableEq, Repr

/-- The registers that have a value, the latest first. -/
abbrev Registers := List (Nat × Value)

def Value.as (value : Value) (width : Nat) : Option (BitVec width) :=
  if same : value.width = width then some (same ▸ value.bits) else none

def read (registers : Registers) (width : Nat) : Operand → Option (BitVec width)
  | .reg number => (registers.lookup number).bind (·.as width)
  | .const value => some (BitVec.ofInt width value)

def binary (registers : Registers) (width : Nat) (x y : Operand)
    (f : BitVec width → BitVec width → Option Value) : Option Value :=
  (read registers width x).bind fun a => (read registers width y).bind fun b => f a b

def eval (registers : Registers) : Instruction → Option Value
  | .trunc width x target =>
    if target < width then (read registers width x).map fun a => ⟨target, a.setWidth target⟩ else none
  | .zext width x target =>
    if width < target then (read registers width x).map fun a => ⟨target, a.setWidth target⟩ else none
  | .sub width x y => binary registers width x y fun a b => some ⟨width, a - b⟩
  | .or width x y => binary registers width x y fun a b => some ⟨width, a ||| b⟩
  | .lshr width x y => binary registers width x y fun a b =>
    if b.toNat < width then some ⟨width, a >>> b.toNat⟩ else none
  | .shl width x y => binary registers width x y fun a b =>
    if b.toNat < width then some ⟨width, a <<< b.toNat⟩ else none
  | .icmpUlt width x y => binary registers width x y fun a b => some ⟨1, BitVec.ofBool (a.ult b)⟩

def execute : Registers → List (Nat × Instruction) → Option Registers
  | registers, [] => some registers
  | registers, (number, instruction) :: rest =>
    (eval registers instruction).bind fun value => execute ((number, value) :: registers) rest

/-- A function of one block. -/
structure Function where
  /-- The widths of the parameters, which are in the first registers. -/
  params : List Nat
  body : List (Nat × Instruction)
  /-- The type and the operand of `ret`. -/
  ret : Nat × Operand

/-- The registers when the function is entered. -/
def passed (arguments : List Value) : Registers := arguments.zipIdx.map Prod.swap

def Function.call (function : Function) (arguments : List Value) : Option Value :=
  if arguments.map (·.width) = function.params then
    (execute (passed arguments) function.body).bind fun registers =>
      (read registers function.ret.1 function.ret.2).map fun result => ⟨function.ret.1, result⟩
  else none

/-! ## Execution -/

variable {registers : Registers}

/-- The code assigns these values, one after the other. -/
def Assigns : Registers → List (Nat × Instruction) → List Value → Prop
  | _, [], [] => True
  | registers, (number, instruction) :: rest, value :: values =>
    eval registers instruction = some value ∧ Assigns ((number, value) :: registers) rest values
  | _, _, _ => False

theorem execute_of_assigns {body : List (Nat × Instruction)} {values : List Value}
    (assigns : Assigns registers body values) :
    execute registers body = some (((body.map Prod.fst).zip values).reverse ++ registers) := by
  induction body generalizing registers values with
  | nil =>
    cases values with
    | nil => rfl
    | cons value values => exact assigns.elim
  | cons assignment rest inductionHypothesis =>
    cases values with
    | nil => exact assigns.elim
    | cons value values =>
      obtain ⟨result, others⟩ := assigns
      rw [execute, result, Option.bind_some, inductionHypothesis others]
      simp

/-- A call returns what the operand of `ret` is after the assignments. -/
theorem call_of_assigns {function : Function} {arguments values : List Value}
    {result : BitVec function.ret.1}
    (typed : arguments.map (·.width) = function.params)
    (assigns : Assigns (passed arguments) function.body values)
    (returned : read (((function.body.map Prod.fst).zip values).reverse ++ passed arguments)
      function.ret.1 function.ret.2 = some result) :
    function.call arguments = some ⟨function.ret.1, result⟩ := by
  rw [Function.call, if_pos typed, execute_of_assigns assigns, Option.bind_some, returned,
    Option.map_some]

end CloudflareBlog.Lib.Llvm
