import CloudflareBlog.Lib.X86Terms
import CloudflareBlog.TailCall.FibOkay

/-!
# The loops of the compiled `fib_okay`

Each loop adds up the values of `fib` for every other argument below its own, down to one, and then one
for the argument that is left.  A value is found by the loop inside, and that for the argument one at
once.  What all loops have in common is proved for any two of them that stand in one another
(`Nests.evaluates`).
-/

namespace CloudflareBlog.TailCall.FibOkay

open Lib.Memory Lib.Listing Lib.X86Asm
open Register

/-- The room that the prologue makes, together with the saved registers. -/
def frameSize : Nat := 0xc8

/-- The stack below the frame that the calls for an argument take up. -/
def depth (n : Nat) : Nat := 208 * (n / 9)

abbrev Gets (base : Address) (s : Cpu) (post : Cpu → Prop) : Prop := isa.Reaches listing base s post

abbrev Stays (n : Nat) (clobbered : List Place) (s t : Cpu) : Prop :=
  Keeps frameSize (depth n) clobbered s t

/-- Where the values of `fib` for the terms of one of the loops are found. -/
structure Level where
  /-- For the argument one, and for the others. -/
  one : Address
  many : Address
  argument : Nat → Cpu → Prop
  /-- Where the loop goes on with the value, in which place, and what it has kept of the argument. -/
  resume : Address
  result : Place
  after : Nat → Cpu → Prop
  sum : Place
  clobbered : List Place

def Level.choose (level : Level) (b : Nat) : Address := if b = 1 then level.one else level.many

/-- The code of the level finds `fib` of every argument up to a limit, in the frame for `n`. -/
def Level.Evaluates (level : Level) (base : Address) (n limit : Nat) : Prop :=
  ∀ b s, 1 ≤ b → b ≤ limit → s.rip = base + level.choose b → level.argument b s →
    Gets base s fun t => t.rip = base + level.resume ∧ t.get level.result = fib b ∧
      level.after b t ∧ Stays n level.clobbered s t

/-- A loop adds up the values of a level, and goes on elsewhere with the sum of them and one. -/
structure Loops (base : Address) (n limit : Nat) (inner : Level) (looped : List Place)
    (resume : Address) (result : Place) : Type where
  leave : ∀ b s, b = 1 ∨ b = 2 → s.rip = base + inner.resume → inner.after b s →
    Gets base s fun t => t.rip = base + resume ∧
      t.get result = s.get inner.sum + s.get inner.result + 1 ∧ Stays n looped s t
  again : ∀ b s, 3 ≤ b → b ≤ limit → s.rip = base + inner.resume → inner.after b s →
    Gets base s fun t => t.rip = base + inner.choose (b - 2) ∧ inner.argument (b - 2) t ∧
      t.get inner.sum = s.get inner.sum + s.get inner.result ∧ Stays n looped s t
  sum : InFrame frameSize inner.sum = true ∧ inner.sum ∉ inner.clobbered
  inner_looped : ∀ p ∈ inner.clobbered, p ∈ looped

/-- A loop over the values of the inner level finds the values of the outer one. -/
structure Nests (base : Address) (n limit : Nat) (outer inner : Level) (looped : List Place) : Type
    extends Loops base n limit inner looped outer.resume outer.result where
  one : ∀ s, s.rip = base + outer.one → outer.argument 1 s →
    Gets base s fun t => t.rip = base + outer.resume ∧ t.get outer.result = 1 ∧ outer.after 1 t ∧
      Stays n outer.clobbered s t
  enter : ∀ a s, 2 ≤ a → a ≤ limit + 1 → s.rip = base + outer.many → outer.argument a s →
    Gets base s fun t => t.rip = base + inner.choose (a - 1) ∧ inner.argument (a - 1) t ∧
      t.get inner.sum = 0 ∧ outer.after a t ∧ Stays n outer.clobbered s t
  looped_outer : ∀ p ∈ looped, p ∈ outer.clobbered
  after_kept : ∀ a s t, Stays n looped s t → outer.after a s → outer.after a t

variable {base : Address} {n limit : Nat} {outer inner : Level} {looped : List Place}

/-- The sum of a loop from the argument `b` on. -/
theorem Loops.sums {resume : Address} {result : Place}
    (loops : Loops base n limit inner looped resume result)
    (evaluates : inner.Evaluates base n limit) {b : Nat} {s : Cpu} (positive : 1 ≤ b)
    (bound : b ≤ limit) (at_ : s.rip = base + inner.choose b) (argument : inner.argument b s) :
    Gets base s fun t => t.rip = base + resume ∧
      t.get result = s.get inner.sum + fib (b + 1) ∧ Stays n looped s t := by
  induction b using Nat.strong_induction_on generalizing s with
  | _ b inductionHypothesis =>
    refine (evaluates b s positive bound at_ argument).trans ?_
    rintro t ⟨resumed, value, after, stays⟩
    have sum : t.get inner.sum = s.get inner.sum := stays.places _ loops.sum.1 loops.sum.2
    have kept : Stays n looped s t := stays.mono loops.inner_looped
    obtain last | more : (b = 1 ∨ b = 2) ∨ 3 ≤ b := by omega
    · refine (loops.leave b t last resumed after).mono ?_
      rintro u ⟨left, total, later⟩
      refine ⟨left, ?_, kept.trans later⟩
      rw [total, sum, value, fib_succ positive, fib_of_le_one (n := b - 1) (by omega),
        BitVec.add_assoc]
    · refine (loops.again b t more bound resumed after).trans ?_
      rintro u ⟨turned, argument, total, later⟩
      refine (inductionHypothesis (b - 2) (by omega) (by omega) (by omega) turned argument).mono ?_
      rintro v ⟨left, whole, last⟩
      refine ⟨left, ?_, (kept.trans later).trans last⟩
      rw [whole, total, sum, value, fib_succ positive, show b - 2 + 1 = b - 1 by omega,
        BitVec.add_assoc]

theorem Nests.evaluates (nests : Nests base n limit outer inner looped)
    (evaluates : inner.Evaluates base n limit) : outer.Evaluates base n (limit + 1) := by
  intro a s positive bound at_ argument
  obtain rfl | more : a = 1 ∨ 2 ≤ a := by omega
  · exact nests.one s at_ argument
  · have different : a ≠ 1 := by omega
    rw [Level.choose, if_neg different] at at_
    refine (nests.enter a s more bound at_ argument).trans ?_
    rintro t ⟨entered, argument, sum, after, stays⟩
    refine (nests.sums evaluates (by omega) (by omega) entered argument).mono ?_
    rintro u ⟨left, total, later⟩
    refine ⟨left, ?_, nests.after_kept a t u later after, stays.trans (later.mono nests.looped_outer)⟩
    rw [total, sum, show a - 1 + 1 = a by omega, zero_add]

/-! ## The eight levels -/

/-- What changes while a value of the innermost level is found: besides the sum, what a call changes
and what is saved around it. -/
def clobbered7 : List Place :=
  [reg rdi, reg rax, reg r10, reg r14, slot 0x58, slot 0x60, slot 0x68, slot 0x70, slot 0x78,
    slot 0x80, slot 0x88]

def looped6 : List Place := reg rbx :: reg r13 :: clobbered7

def looped5 : List Place := reg r9 :: reg r15 :: looped6

def clobbered5 : List Place := reg r8 :: looped5

def looped4 : List Place := reg rdx :: reg r12 :: clobbered5

def clobbered4 : List Place := reg rsi :: looped4

def looped3 : List Place := reg rbp :: reg rcx :: clobbered4

def clobbered3 : List Place := slot 0x50 :: looped3

def looped2 : List Place := reg r11 :: slot 0x30 :: clobbered3

def clobbered2 : List Place := slot 0x48 :: looped2

def looped1 : List Place := slot 0x10 :: slot 0x28 :: clobbered2

def clobbered1 : List Place := slot 0x40 :: looped1

def looped0 : List Place := slot 8 :: slot 0x20 :: clobbered1

def clobbered0 : List Place := slot 0x38 :: looped0

def level0 : Level where
  one := 0x2fb
  many := 0x3a
  argument := Has (slot 0)
  resume := 0x2d7
  result := reg rax
  after b s := Has (slot 0) b s ∧ Has (slot 0x38) (b - 1) s
  sum := slot 0x18
  clobbered := clobbered0

def level1 : Level where
  one := 0x2be
  many := 0x61
  argument := Has (slot 8)
  resume := 0x297
  result := reg rax
  after b s := Has (slot 8) b s ∧ Has (slot 0x40) (b - 1) s
  sum := slot 0x20
  clobbered := clobbered1

def level2 : Level where
  one := 0x224
  many := 0x89
  argument := Has (slot 0x10)
  resume := 0x1fd
  result := reg rax
  after b s := Has (slot 0x10) b s ∧ Has (slot 0x48) (b - 1) s
  sum := slot 0x28
  clobbered := clobbered2

def level3 : Level where
  one := 0x27b
  many := 0xad
  argument := Has (reg r11)
  resume := 0x1df
  result := reg rcx
  after b s := Has (reg r11) b s ∧ Has (slot 0x50) (b - 1) s
  sum := slot 0x30
  clobbered := clobbered3

def level4 : Level where
  one := 0x26e
  many := 0xc5
  argument := Has (reg rbp)
  resume := 0x1ca
  result := reg r12
  after b s := Has (reg rbp) b s ∧ Has (reg rsi) (b - 1) s
  sum := reg rcx
  clobbered := clobbered4

/-- The next argument is made ready before the value is found. -/
def level5 : Level where
  one := 0x1a4
  many := 0xd9
  argument := Has (reg rdx)
  resume := 0x1b1
  result := reg r15
  after b s := Has (reg rdx) b s ∧ (2 ≤ b → Has (reg r8) (b - 2) s)
  sum := reg r12
  clobbered := clobbered5

/-- Here the register holds one less than the argument. -/
def level6 : Level where
  one := 0x238
  many := 0xf2
  argument b s := Has (reg r9) (b - 1) s ∧ Has (reg rbx) (b - 1) s ∧ Has (reg r13) 0 s
  resume := 0x23e
  result := reg r13
  after b s := Has (reg r9) (b - 1) s
  sum := reg r15
  clobbered := looped6

def level7 : Level where
  one := 0x19c
  many := 0x108
  argument b s := Has (reg rbx) b s ∧ Has (reg r10) b s ∧ Has (reg r14) 0 s
  resume := 0x174
  result := reg r14
  after := Has (reg rbx)
  sum := reg r13
  clobbered := clobbered7

section

variable {b k : Nat} {x : U64} (level : Level)

/-- The jumps at the beginning of a level. -/
theorem choose_e (holds : x = BitVec.ofNat 64 k) (isOne : k = 1 ↔ b = 1) (small : k < 2 ^ 64) :
    (if Condition.of x 1 .e = true then level.one else level.many) = level.choose b := by
  rw [Level.choose, Condition.of, holds]
  exact if_congr (beq_iff_eq.trans ((ofNat_eq_iff small (by decide)).trans isOne)) rfl rfl

theorem choose_ne (holds : x = BitVec.ofNat 64 b) (small : b < 2 ^ 64) :
    (if Condition.of x 1 .ne = true then level.many else level.one) = level.choose b := by
  rw [← choose_e level holds Iff.rfl small, Condition.of, Condition.of]
  cases x == 1 <;> rfl

theorem choose_of_test (holds : x = BitVec.ofNat 64 k) (isOne : k = 0 ↔ b = 1) (small : k < 2 ^ 64) :
    (if Condition.of (x &&& x) 0 .e = true then level.one else level.many) = level.choose b := by
  rw [Level.choose, Condition.of, BitVec.and_self, holds]
  exact if_congr (beq_iff_eq.trans ((ofNat_eq_iff small (by decide)).trans isOne)) rfl rfl


end

section

variable (fits : depth n + frameSize ≤ 2 ^ 64) (small : limit + 1 < 2 ^ 64)
include fits small

def nests0 : Nests base n limit level0 level1 looped0 where
  one s at_ argument := by
    refine reaches_from at_ ?_
    refine reaches_piece one0 0x309 (by decide +kernel) rfl ?_
    refine reaches_jmp 0x2d7 0x30b (by decide +kernel) (.here ⟨rfl, ?_, ⟨?_, ?_⟩, ?_⟩)
    · exact get_behind frameSize (.constant 1) (by decide +kernel)
    · exact (get_behind frameSize (.place (slot 0)) (by decide +kernel)).trans argument
    · exact get_behind frameSize (.constant 0) (by decide +kernel)
    · exact (Keeps.effects fits (by decide +kernel) (.refl s)).goto _
  enter a s more bound at_ argument := by
    have less := eval_minus (k := 1) argument (by omega)
    refine reaches_from at_ ?_
    refine reaches_piece enter1 0x5b (by decide +kernel) rfl ?_
    refine reaches_compared frameSize (minus (slot 0) 1) (.constant 1) .e 0x2be 0x61
      (by decide +kernel) (choose_e level1 less Iff.rfl (by omega)) (.here ⟨rfl, ?_, ?_, ⟨?_, ?_⟩, ?_⟩)
    · exact (get_behind frameSize (minus (slot 0) 1) (by decide +kernel)).trans less
    · exact get_behind frameSize (.constant 0) (by decide +kernel)
    · exact (get_behind frameSize (.place (slot 0)) (by decide +kernel)).trans argument
    · exact (get_behind frameSize (minus (slot 0) 1) (by decide +kernel)).trans less
    · exact (Keeps.effects fits (by decide +kernel) (.refl s)).goto _
  leave b s last at_ after := by
    refine reaches_from at_ ?_
    refine reaches_piece add1 0x2ab (by decide +kernel) rfl ?_
    refine reaches_compared frameSize (.place (slot 0x40)) (.constant 1) .be 0x2ce 0x2ad
      (by decide +kernel) (branch_of_le after.2 (by omega)) ?_
    refine reaches_piece leave1 0x2d7 (by decide +kernel) rfl (.here ⟨rfl, ?_, ?_⟩)
    · exact get_behind frameSize (.add (.add (.place (slot 0x20)) (.place (reg rax))) (.constant 1))
        (by decide +kernel)
    · exact (Keeps.effects fits (by decide +kernel) (.refl s)).goto _
  again b s more bound at_ after := by
    have less := eval_minus (k := 2) after.1 (by omega)
    refine reaches_from at_ ?_
    refine reaches_piece add1 0x2ab (by decide +kernel) rfl ?_
    refine reaches_compared frameSize (.place (slot 0x40)) (.constant 1) .be 0x2ce 0x2ad
      (by decide +kernel) (branch_of_lt after.2 (by omega) (by omega)) ?_
    refine reaches_piece again1 0x2b8 (by decide +kernel) rfl ?_
    refine reaches_compared frameSize (minus (slot 8) 2) (.constant 1) .ne 0x61 0x2be
      (by decide +kernel) (choose_ne level1 less (by omega)) (.here ⟨rfl, ?_, ?_, ?_⟩)
    · exact (get_behind frameSize (minus (slot 8) 2) (by decide +kernel)).trans less
    · exact get_behind frameSize (.add (.place (slot 0x20)) (.place (reg rax))) (by decide +kernel)
    · exact (Keeps.effects fits (by decide +kernel) (.refl s)).goto _
  sum := by decide +kernel
  inner_looped := by decide +kernel
  looped_outer := by decide +kernel
  after_kept a s t stays after :=
    ⟨(stays.places _ (by decide +kernel) (by decide +kernel)).trans after.1,
      (stays.places _ (by decide +kernel) (by decide +kernel)).trans after.2⟩

def nests1 : Nests base n limit level1 level2 looped1 where
  one s at_ argument := by
    refine reaches_from at_ ?_
    refine reaches_piece one1 0x2cc (by decide +kernel) rfl ?_
    refine reaches_jmp 0x297 0x2ce (by decide +kernel) (.here ⟨rfl, ?_, ⟨?_, ?_⟩, ?_⟩)
    · exact get_behind frameSize (.constant 1) (by decide +kernel)
    · exact (get_behind frameSize (.place (slot 8)) (by decide +kernel)).trans argument
    · exact get_behind frameSize (.constant 0) (by decide +kernel)
    · exact (Keeps.effects fits (by decide +kernel) (.refl s)).goto _
  enter a s more bound at_ argument := by
    have less := eval_minus (k := 1) argument (by omega)
    refine reaches_from at_ ?_
    refine reaches_piece enter2 0x83 (by decide +kernel) rfl ?_
    refine reaches_compared frameSize (minus (slot 8) 1) (.constant 1) .e 0x224 0x89
      (by decide +kernel) (choose_e level2 less Iff.rfl (by omega)) (.here ⟨rfl, ?_, ?_, ⟨?_, ?_⟩, ?_⟩)
    · exact (get_behind frameSize (minus (slot 8) 1) (by decide +kernel)).trans less
    · exact get_behind frameSize (.constant 0) (by decide +kernel)
    · exact (get_behind frameSize (.place (slot 8)) (by decide +kernel)).trans argument
    · exact (get_behind frameSize (minus (slot 8) 1) (by decide +kernel)).trans less
    · exact (Keeps.effects fits (by decide +kernel) (.refl s)).goto _
  leave b s last at_ after := by
    refine reaches_from at_ ?_
    refine reaches_piece add2 0x211 (by decide +kernel) rfl ?_
    refine reaches_compared frameSize (.place (slot 0x48)) (.constant 1) .be 0x28e 0x213
      (by decide +kernel) (branch_of_le after.2 (by omega)) ?_
    refine reaches_piece leave2 0x297 (by decide +kernel) rfl (.here ⟨rfl, ?_, ?_⟩)
    · exact get_behind frameSize (.add (.add (.place (slot 0x28)) (.place (reg rax))) (.constant 1))
        (by decide +kernel)
    · exact (Keeps.effects fits (by decide +kernel) (.refl s)).goto _
  again b s more bound at_ after := by
    have less := eval_minus (k := 2) after.1 (by omega)
    refine reaches_from at_ ?_
    refine reaches_piece add2 0x211 (by decide +kernel) rfl ?_
    refine reaches_compared frameSize (.place (slot 0x48)) (.constant 1) .be 0x28e 0x213
      (by decide +kernel) (branch_of_lt after.2 (by omega) (by omega)) ?_
    refine reaches_piece again2 0x21e (by decide +kernel) rfl ?_
    refine reaches_compared frameSize (minus (slot 0x10) 2) (.constant 1) .ne 0x89 0x224
      (by decide +kernel) (choose_ne level2 less (by omega)) (.here ⟨rfl, ?_, ?_, ?_⟩)
    · exact (get_behind frameSize (minus (slot 0x10) 2) (by decide +kernel)).trans less
    · exact get_behind frameSize (.add (.place (slot 0x28)) (.place (reg rax))) (by decide +kernel)
    · exact (Keeps.effects fits (by decide +kernel) (.refl s)).goto _
  sum := by decide +kernel
  inner_looped := by decide +kernel
  looped_outer := by decide +kernel
  after_kept a s t stays after :=
    ⟨(stays.places _ (by decide +kernel) (by decide +kernel)).trans after.1,
      (stays.places _ (by decide +kernel) (by decide +kernel)).trans after.2⟩

def nests2 : Nests base n limit level2 level3 looped2 where
  one s at_ argument := by
    refine reaches_from at_ ?_
    refine reaches_piece one2 0x232 (by decide +kernel) rfl ?_
    refine reaches_jmp 0x1fd 0x234 (by decide +kernel) (.here ⟨rfl, ?_, ⟨?_, ?_⟩, ?_⟩)
    · exact get_behind frameSize (.constant 1) (by decide +kernel)
    · exact (get_behind frameSize (.place (slot 0x10)) (by decide +kernel)).trans argument
    · exact get_behind frameSize (.constant 0) (by decide +kernel)
    · exact (Keeps.effects fits (by decide +kernel) (.refl s)).goto _
  enter a s more bound at_ argument := by
    have less := eval_minus (k := 1) argument (by omega)
    refine reaches_from at_ ?_
    refine reaches_piece (enter3 ++ test3) 0xa7 (by decide +kernel) rfl ?_
    refine reaches_compared frameSize (minus (slot 0x10) 1) (.constant 1) .e 0x27b 0xad
      (by decide +kernel) (choose_e level3 less Iff.rfl (by omega)) (.here ⟨rfl, ?_, ?_, ⟨?_, ?_⟩, ?_⟩)
    · exact (get_behind frameSize (minus (slot 0x10) 1) (by decide +kernel)).trans less
    · exact get_behind frameSize (.constant 0) (by decide +kernel)
    · exact (get_behind frameSize (.place (slot 0x10)) (by decide +kernel)).trans argument
    · exact (get_behind frameSize (minus (slot 0x10) 1) (by decide +kernel)).trans less
    · exact (Keeps.effects fits (by decide +kernel) (.refl s)).goto _
  leave b s last at_ after := by
    refine reaches_from at_ ?_
    refine reaches_piece add3 0x1ee (by decide +kernel) rfl ?_
    refine reaches_compared frameSize (.place (slot 0x50)) (.constant 1) .a 0xa3 0x1f4
      (by decide +kernel) (passed_of_le after.2 (by omega)) ?_
    refine reaches_piece leave3 0x1fd (by decide +kernel) rfl (.here ⟨rfl, ?_, ?_⟩)
    · exact get_behind frameSize (.add (.add (.place (slot 0x30)) (.place (reg rcx))) (.constant 1))
        (by decide +kernel)
    · exact (Keeps.effects fits (by decide +kernel) (.refl s)).goto _
  again b s more bound at_ after := by
    have less := eval_minus (k := 2) after.1 (by omega)
    refine reaches_from at_ ?_
    refine reaches_piece add3 0x1ee (by decide +kernel) rfl ?_
    refine reaches_compared frameSize (.place (slot 0x50)) (.constant 1) .a 0xa3 0x1f4
      (by decide +kernel) (passed_of_lt after.2 (by omega) (by omega)) ?_
    refine reaches_piece test3 0xa7 (by decide +kernel) rfl ?_
    refine reaches_compared frameSize (minus (reg r11) 2) (.constant 1) .e 0x27b 0xad
      (by decide +kernel) (choose_e level3 less Iff.rfl (by omega)) (.here ⟨rfl, ?_, ?_, ?_⟩)
    · exact (get_behind frameSize (minus (reg r11) 2) (by decide +kernel)).trans less
    · exact get_behind frameSize (.add (.place (slot 0x30)) (.place (reg rcx))) (by decide +kernel)
    · exact (Keeps.effects fits (by decide +kernel) (.refl s)).goto _
  sum := by decide +kernel
  inner_looped := by decide +kernel
  looped_outer := by decide +kernel
  after_kept a s t stays after :=
    ⟨(stays.places _ (by decide +kernel) (by decide +kernel)).trans after.1,
      (stays.places _ (by decide +kernel) (by decide +kernel)).trans after.2⟩

def nests3 : Nests base n limit level3 level4 looped3 where
  one s at_ argument := by
    refine reaches_from at_ ?_
    refine reaches_piece one3 0x289 (by decide +kernel) rfl ?_
    refine reaches_jmp 0x1df 0x28e (by decide +kernel) (.here ⟨rfl, ?_, ⟨?_, ?_⟩, ?_⟩)
    · exact get_behind frameSize (.constant 1) (by decide +kernel)
    · exact (get_behind frameSize (.place (reg r11)) (by decide +kernel)).trans argument
    · exact get_behind frameSize (.constant 0) (by decide +kernel)
    · exact (Keeps.effects fits (by decide +kernel) (.refl s)).goto _
  enter a s more bound at_ argument := by
    have less := eval_minusByLea (k := 1) argument (by omega)
    refine reaches_from at_ ?_
    refine reaches_piece (enter4 ++ test4) 0xbf (by decide +kernel) rfl ?_
    refine reaches_compared frameSize (minusByLea (reg r11) 1) (.constant 1) .e 0x26e 0xc5
      (by decide +kernel) (choose_e level4 less Iff.rfl (by omega)) (.here ⟨rfl, ?_, ?_, ⟨?_, ?_⟩, ?_⟩)
    · exact (get_behind frameSize (minusByLea (reg r11) 1) (by decide +kernel)).trans less
    · exact (get_behind frameSize (.xor32 (.place (reg rcx)) (.place (reg rcx)))
        (by decide +kernel)).trans (eval_cleared _ s)
    · exact (get_behind frameSize (.place (reg r11)) (by decide +kernel)).trans argument
    · exact (get_behind frameSize (minusByLea (reg r11) 1) (by decide +kernel)).trans less
    · exact (Keeps.effects fits (by decide +kernel) (.refl s)).goto _
  leave b s last at_ after := by
    refine reaches_from at_ ?_
    refine reaches_piece add4 0x1d5 (by decide +kernel) rfl ?_
    refine reaches_compared frameSize (.place (reg rsi)) (.constant 1) .a 0xbb 0x1db
      (by decide +kernel) (passed_of_le after.2 (by omega)) ?_
    refine reaches_piece leave4 0x1df (by decide +kernel) rfl (.here ⟨rfl, ?_, ?_⟩)
    · exact get_behind frameSize (.add (.add (.place (reg rcx)) (.place (reg r12))) (.constant 1))
        (by decide +kernel)
    · exact (Keeps.effects fits (by decide +kernel) (.refl s)).goto _
  again b s more bound at_ after := by
    have less := eval_minus (k := 2) after.1 (by omega)
    refine reaches_from at_ ?_
    refine reaches_piece add4 0x1d5 (by decide +kernel) rfl ?_
    refine reaches_compared frameSize (.place (reg rsi)) (.constant 1) .a 0xbb 0x1db
      (by decide +kernel) (passed_of_lt after.2 (by omega) (by omega)) ?_
    refine reaches_piece test4 0xbf (by decide +kernel) rfl ?_
    refine reaches_compared frameSize (minus (reg rbp) 2) (.constant 1) .e 0x26e 0xc5
      (by decide +kernel) (choose_e level4 less Iff.rfl (by omega)) (.here ⟨rfl, ?_, ?_, ?_⟩)
    · exact (get_behind frameSize (minus (reg rbp) 2) (by decide +kernel)).trans less
    · exact get_behind frameSize (.add (.place (reg rcx)) (.place (reg r12))) (by decide +kernel)
    · exact (Keeps.effects fits (by decide +kernel) (.refl s)).goto _
  sum := by decide +kernel
  inner_looped := by decide +kernel
  looped_outer := by decide +kernel
  after_kept a s t stays after :=
    ⟨(stays.places _ (by decide +kernel) (by decide +kernel)).trans after.1,
      (stays.places _ (by decide +kernel) (by decide +kernel)).trans after.2⟩

def nests4 : Nests base n limit level4 level5 looped4 where
  one s at_ argument := by
    refine reaches_from at_ ?_
    refine reaches_piece one4 0x276 (by decide +kernel) rfl ?_
    refine reaches_jmp 0x1ca 0x27b (by decide +kernel) (.here ⟨rfl, ?_, ⟨?_, ?_⟩, ?_⟩)
    · exact get_behind frameSize (.constant 1) (by decide +kernel)
    · exact (get_behind frameSize (.place (reg rbp)) (by decide +kernel)).trans argument
    · exact (get_behind frameSize (.xor32 (.place (reg rsi)) (.place (reg rsi)))
        (by decide +kernel)).trans (eval_cleared _ s)
    · exact (Keeps.effects fits (by decide +kernel) (.refl s)).goto _
  enter a s more bound at_ argument := by
    have less := eval_minusByLea (k := 1) argument (by omega)
    refine reaches_from at_ ?_
    refine reaches_piece (enter5 ++ test5) 0xd3 (by decide +kernel) rfl ?_
    refine reaches_compared frameSize (minusByLea (reg rbp) 1) (.constant 1) .e 0x1a4 0xd9
      (by decide +kernel) (choose_e level5 less Iff.rfl (by omega)) (.here ⟨rfl, ?_, ?_, ⟨?_, ?_⟩, ?_⟩)
    · exact (get_behind frameSize (minusByLea (reg rbp) 1) (by decide +kernel)).trans less
    · exact (get_behind frameSize (.xor32 (.place (reg r12)) (.place (reg r12)))
        (by decide +kernel)).trans (eval_cleared _ s)
    · exact (get_behind frameSize (.place (reg rbp)) (by decide +kernel)).trans argument
    · exact (get_behind frameSize (minusByLea (reg rbp) 1) (by decide +kernel)).trans less
    · exact (Keeps.effects fits (by decide +kernel) (.refl s)).goto _
  leave b s last at_ after := by
    have less := eval_minus (k := 1) after.1 (by omega)
    refine reaches_from at_ ?_
    refine reaches_piece add5 0x1bc (by decide +kernel) rfl ?_
    refine reaches_compared frameSize (minus (reg rdx) 1) (.constant 1) .be 0x1c6 0x1be
      (by decide +kernel) (branch_of_le less (by omega)) ?_
    refine reaches_piece leave5 0x1ca (by decide +kernel) rfl (.here ⟨rfl, ?_, ?_⟩)
    · exact get_behind frameSize (.add (.add (.place (reg r12)) (.place (reg r15))) (.constant 1))
        (by decide +kernel)
    · exact (Keeps.effects fits (by decide +kernel) (.refl s)).goto _
  again b s more bound at_ after := by
    have less := eval_minus (k := 1) after.1 (by omega)
    have ready := after.2 (by omega)
    refine reaches_from at_ ?_
    refine reaches_piece add5 0x1bc (by decide +kernel) rfl ?_
    refine reaches_compared frameSize (minus (reg rdx) 1) (.constant 1) .be 0x1c6 0x1be
      (by decide +kernel) (branch_of_lt less (by omega) (by omega)) ?_
    refine reaches_piece again5 0x1c1 (by decide +kernel) rfl ?_
    refine reaches_jmp 0xcf 0x1c6 (by decide +kernel) ?_
    refine reaches_piece test5 0xd3 (by decide +kernel) rfl ?_
    refine reaches_compared frameSize (.place (reg r8)) (.constant 1) .e 0x1a4 0xd9
      (by decide +kernel) (choose_e level5 ready Iff.rfl (by omega)) (.here ⟨rfl, ?_, ?_, ?_⟩)
    · exact (get_behind frameSize (.place (reg r8)) (by decide +kernel)).trans ready
    · exact get_behind frameSize (.add (.place (reg r12)) (.place (reg r15))) (by decide +kernel)
    · exact (Keeps.effects fits (by decide +kernel) (.refl s)).goto _
  sum := by decide +kernel
  inner_looped := by decide +kernel
  looped_outer := by decide +kernel
  after_kept a s t stays after :=
    ⟨(stays.places _ (by decide +kernel) (by decide +kernel)).trans after.1,
      (stays.places _ (by decide +kernel) (by decide +kernel)).trans after.2⟩

def nests5 : Nests base n limit level5 level6 looped5 where
  one s at_ argument := by
    refine reaches_from at_ ?_
    refine reaches_piece one5 0x1b1 (by decide +kernel) rfl (.here ⟨rfl, ?_, ⟨?_, ?_⟩, ?_⟩)
    · exact get_behind frameSize (.constant 1) (by decide +kernel)
    · exact (get_behind frameSize (.place (reg rdx)) (by decide +kernel)).trans argument
    · exact fun more => absurd more (by decide)
    · exact (Keeps.effects fits (by decide +kernel) (.refl s)).goto _
  enter a s more bound at_ argument := by
    have less := eval_minusByLea (k := 2) argument more
    refine reaches_from at_ ?_
    refine reaches_piece (enter6 ++ test6) 0xec (by decide +kernel) rfl ?_
    refine reaches_compared frameSize (.and (minusByLea (reg rdx) 2) (minusByLea (reg rdx) 2))
      (.constant 0) .e 0x238 0xf2 (by decide +kernel)
      (choose_of_test level6 less (by omega) (by omega)) (.here ⟨rfl, ⟨?_, ?_, ?_⟩, ?_, ⟨?_, ?_⟩, ?_⟩)
    · exact (get_behind frameSize (minusByLea (reg rdx) 2) (by decide +kernel)).trans less
    · exact (get_behind frameSize (minusByLea (reg rdx) 2) (by decide +kernel)).trans less
    · exact (get_behind frameSize (.xor32 (.place (reg r13)) (.place (reg r13)))
        (by decide +kernel)).trans (eval_cleared _ s)
    · exact (get_behind frameSize (.xor32 (.place (reg r15)) (.place (reg r15)))
        (by decide +kernel)).trans (eval_cleared _ s)
    · exact (get_behind frameSize (.place (reg rdx)) (by decide +kernel)).trans argument
    · exact fun _ => (get_behind frameSize (minusByLea (reg rdx) 2) (by decide +kernel)).trans less
    · exact (Keeps.effects fits (by decide +kernel) (.refl s)).goto _
  leave b s last at_ after := by
    refine reaches_from at_ ?_
    refine reaches_piece add6 0x249 (by decide +kernel) rfl ?_
    refine reaches_compared frameSize (.place (reg r9)) (.constant 1) .be 0x258 0x24b
      (by decide +kernel) (branch_of_le after (by omega)) ?_
    refine reaches_piece leave6 0x25c (by decide +kernel) rfl ?_
    refine reaches_jmp 0x1b1 0x261 (by decide +kernel) (.here ⟨rfl, ?_, ?_⟩)
    · exact get_behind frameSize (.add (.add (.place (reg r15)) (.place (reg r13))) (.constant 1))
        (by decide +kernel)
    · exact (Keeps.effects fits (by decide +kernel) (.refl s)).goto _
  again b s more bound at_ after := by
    have less := eval_minusByLea (k := 2) after (by omega)
    rw [Nat.sub_right_comm] at less
    refine reaches_from at_ ?_
    refine reaches_piece add6 0x249 (by decide +kernel) rfl ?_
    refine reaches_compared frameSize (.place (reg r9)) (.constant 1) .be 0x258 0x24b
      (by decide +kernel) (branch_of_lt after (by omega) (by omega)) ?_
    refine reaches_piece again6 0x24e (by decide +kernel) rfl ?_
    refine reaches_jmp 0xe3 0x253 (by decide +kernel) ?_
    refine reaches_piece test6 0xec (by decide +kernel) rfl ?_
    refine reaches_compared frameSize (.and (minusByLea (reg r9) 2) (minusByLea (reg r9) 2))
      (.constant 0) .e 0x238 0xf2 (by decide +kernel)
      (choose_of_test level6 less (by omega) (by omega)) (.here ⟨rfl, ⟨?_, ?_, ?_⟩, ?_, ?_⟩)
    · exact (get_behind frameSize (minusByLea (reg r9) 2) (by decide +kernel)).trans less
    · exact (get_behind frameSize (minusByLea (reg r9) 2) (by decide +kernel)).trans less
    · exact (get_behind frameSize (.xor32 (.place (reg r13)) (.place (reg r13)))
        (by decide +kernel)).trans (eval_cleared _ s)
    · exact get_behind frameSize (.add (.place (reg r15)) (.place (reg r13))) (by decide +kernel)
    · exact (Keeps.effects fits (by decide +kernel) (.refl s)).goto _
  sum := by decide +kernel
  inner_looped := by decide +kernel
  looped_outer := by decide +kernel
  after_kept a s t stays after :=
    ⟨(stays.places _ (by decide +kernel) (by decide +kernel)).trans after.1, fun more =>
      (stays.places _ (by decide +kernel) (by decide +kernel)).trans (after.2 more)⟩

def nests6 : Nests base n limit level6 level7 looped6 where
  one s at_ argument := by
    refine reaches_from at_ ?_
    refine reaches_piece one6 0x23e (by decide +kernel) rfl (.here ⟨rfl, ?_, ?_, ?_⟩)
    · exact get_behind frameSize (.constant 1) (by decide +kernel)
    · exact (get_behind frameSize (.place (reg r9)) (by decide +kernel)).trans argument.1
    · exact (Keeps.effects fits (by decide +kernel) (.refl s)).goto _
  enter a s more bound at_ argument := by
    obtain ⟨kept, has, sum⟩ := argument
    refine reaches_from at_ ?_
    refine reaches_piece enter7 0xfc (by decide +kernel) rfl ?_
    obtain isOne | many : a - 1 = 1 ∨ a - 1 ≠ 1 := eq_or_ne _ _
    · refine reaches_compared frameSize (.place (reg rbx)) (.constant 1) .e 0x19c 0x102
        (by decide +kernel) (branch_of_eq has isOne) (.here ⟨?_, ⟨?_, ?_, ?_⟩, ?_, ?_, ?_⟩)
      · exact congrArg (base + ·) (if_pos isOne).symm
      · exact (get_behind frameSize (.place (reg rbx)) (by decide +kernel)).trans has
      · exact (get_behind frameSize (.place (reg rbx)) (by decide +kernel)).trans has
      · exact (get_behind frameSize (.xor32 (.place (reg r14)) (.place (reg r14)))
          (by decide +kernel)).trans (eval_cleared _ s)
      · exact (get_behind frameSize (.place (reg r13)) (by decide +kernel)).trans sum
      · exact (get_behind frameSize (.place (reg r9)) (by decide +kernel)).trans kept
      · exact (Keeps.effects fits (by decide +kernel) (.refl s)).goto _
    · refine reaches_compared frameSize (.place (reg rbx)) (.constant 1) .e 0x19c 0x102
        (by decide +kernel) (branch_of_ne has many (by omega)) ?_
      refine reaches_piece pad 0x108 (by decide +kernel) rfl (.here ⟨?_, ⟨?_, ?_, ?_⟩, ?_, ?_, ?_⟩)
      · exact congrArg (base + ·) (if_neg many).symm
      · exact (get_behind frameSize (.place (reg rbx)) (by decide +kernel)).trans has
      · exact (get_behind frameSize (.place (reg rbx)) (by decide +kernel)).trans has
      · exact (get_behind frameSize (.xor32 (.place (reg r14)) (.place (reg r14)))
          (by decide +kernel)).trans (eval_cleared _ s)
      · exact (get_behind frameSize (.place (reg r13)) (by decide +kernel)).trans sum
      · exact (get_behind frameSize (.place (reg r9)) (by decide +kernel)).trans kept
      · exact (Keeps.effects fits (by decide +kernel) (.refl s)).goto _
  leave b s last at_ after := by
    have less := eval_minus (k := 1) after (by omega)
    refine reaches_from at_ ?_
    refine reaches_piece add7 0x183 (by decide +kernel) rfl ?_
    refine reaches_compared frameSize (minus (reg rbx) 1) (.constant 1) .be 0x268 0x189
      (by decide +kernel) (branch_of_le less (by omega)) ?_
    refine reaches_piece leave7 0x26c (by decide +kernel) rfl ?_
    refine reaches_jmp 0x23e 0x26e (by decide +kernel) (.here ⟨rfl, ?_, ?_⟩)
    · exact get_behind frameSize (.add (.add (.place (reg r13)) (.place (reg r14))) (.constant 1))
        (by decide +kernel)
    · exact (Keeps.effects fits (by decide +kernel) (.refl s)).goto _
  again b s more bound at_ after := by
    have next := eval_minus (k := 1) after (by omega)
    have less := eval_minusByLea (k := 2) after (by omega)
    refine reaches_from at_ ?_
    refine reaches_piece add7 0x183 (by decide +kernel) rfl ?_
    refine reaches_compared frameSize (minus (reg rbx) 1) (.constant 1) .be 0x268 0x189
      (by decide +kernel) (branch_of_lt next (by omega) (by omega)) ?_
    refine reaches_piece again7 0x196 (by decide +kernel) rfl ?_
    refine reaches_compared frameSize (minusByLea (reg rbx) 2) (.constant 1) .ne 0x108 0x19c
      (by decide +kernel) (choose_ne level7 less (by omega)) (.here ⟨rfl, ⟨?_, ?_, ?_⟩, ?_, ?_⟩)
    · exact (get_behind frameSize (minusByLea (reg rbx) 2) (by decide +kernel)).trans less
    · exact (get_behind frameSize (minusByLea (reg rbx) 2) (by decide +kernel)).trans less
    · exact (get_behind frameSize (.xor32 (.place (reg r14)) (.place (reg r14)))
        (by decide +kernel)).trans (eval_cleared _ s)
    · exact get_behind frameSize (.add (.place (reg r13)) (.place (reg r14))) (by decide +kernel)
    · exact (Keeps.effects fits (by decide +kernel) (.refl s)).goto _
  sum := by decide +kernel
  inner_looped := by decide +kernel
  looped_outer := by decide +kernel
  after_kept a s t stays after := (stays.places _ (by decide +kernel) (by decide +kernel)).trans after

end

end CloudflareBlog.TailCall.FibOkay
