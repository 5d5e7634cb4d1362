import CloudflareBlog.Lib.Armv8
import CloudflareBlog.Gadget.Aarch64Layout

/-!
# Running the branches

The benchmarks for aarch64, executed from `ptr_fn`.  The padding is not the `nop` that it is meant
to be, but it goes on to the next word as a `nop` would, which is all that matters here.
-/

namespace CloudflareBlog.Gadget.Aarch64

open CloudflareBlog.Lib.Buffer CloudflareBlog.Lib.Memory CloudflareBlog.Lib.Machine
open CloudflareBlog.Lib.Armv8

/-- Just after the call of `entry` in the blob at `ptr`, on a stack elsewhere. -/
structure Ready (ptr : Address) (blob : Blob) (entry : Nat) (cpu : Cpu) : Prop where
  code : Holds cpu.memory ptr blob.code
  pc : cpu.pc = position ptr entry
  aligned : ptr.toNat % 4 = 0
  apart : ∀ a, Inside ptr blob.code.length a → ¬Inside (cpu.sp - 16) 16 a

/-- In the blob on the way from `base`, with nothing changed but the link register and what the
padding changes. -/
structure Reached (ptr : Address) (base : Cpu) (link : BitVec 64) (offset : Nat) (s : Cpu) :
    Prop where
  pc : s.pc = position ptr offset
  whole : offset % 4 = 0
  sp : s.sp = base.sp
  memory : s.memory = base.memory
  zero : s.zero = base.zero
  x : s.x = Function.update base.x 30 link

/-- Calls that their targets return from at once. -/
def callsThrough (ptr : Address) (source target : Nat → Nat) (count : Nat) : List Event :=
  (List.range count).flatMap fun i =>
    [.call (position ptr (source i)) (position ptr (target i)),
      .ret (position ptr (target i)) (position ptr (source i + 4))]

/-- The branches of a chain through `count` cells. -/
def branchesThrough (ptr : Address) (first size count : Nat) : List Event :=
  (List.range count).map fun i =>
    .branch (position ptr (first + i * size)) (position ptr (first + (i + 1) * size))

variable {fnmadd : BitVec 32 → BitVec 32 → BitVec 32 → BitVec 32}
  {ptr : Address} {blob : Blob} {cpu base s : Cpu} {link : BitVec 64}

/-- The run has these events, ends with the `ret` at `last`, which returns to the caller, and gives
back the stack pointer, the frame pointer and the link register. -/
def RunsAndReturns (fnmadd : BitVec 32 → BitVec 32 → BitVec 32 → BitVec 32) (ptr : Address)
    (cpu : Cpu) (events : List Event) (last : Nat) : Prop :=
  ∃ final,
    Runs (step fnmadd) cpu (events ++ [.ret (position ptr last) (cpu.x 30)]) final ∧
      final.pc = cpu.x 30 ∧ final.sp = cpu.sp ∧ final.x 29 = cpu.x 29 ∧ final.x 30 = cpu.x 30

/-- The state after `stp` at `ptr_fn`. -/
def entered (cpu : Cpu) : Cpu :=
  { cpu with
    pc := cpu.pc + 4
    sp := cpu.sp - 16
    memory := pushed cpu.memory (cpu.sp - 16) (cpu.x 29) (cpu.x 30) }

/-! ## In the blob -/

theorem reached_self {offset : Nat} (pc : base.pc = position ptr offset) (whole : offset % 4 = 0) :
    Reached ptr base (base.x 30) offset base :=
  ⟨pc, whole, rfl, rfl, rfl, (Function.update_eq_self 30 base.x).symm⟩

theorem Reached.next_pc {here : Nat} (reached : Reached ptr base link here s) :
    s.pc + 4 = position ptr (here + 4) := by
  rw [reached.pc]
  exact position_add ptr here 4

section

variable (fnmadd) (aligned : ptr.toNat % 4 = 0) {here target : Nat}
include aligned

theorem Reached.aligned_pc (reached : Reached ptr base link here s) : s.pc.toNat % 4 = 0 := by
  rw [reached.pc]
  exact position_aligned aligned reached.whole

theorem Reached.padding {count : Nat} (reached : Reached ptr base link here s)
    (code : Holds base.memory (position ptr here) (paddingWords count)) :
    ∃ t, Runs (step fnmadd) s [] t ∧ Reached ptr base link (here + 4 * count) t := by
  induction count generalizing here s with
  | zero => exact ⟨s, Runs.refl _ s, reached⟩
  | succ count inductionHypothesis =>
    rw [paddingWords, List.replicate_succ, List.flatten_cons, holds_append, position_position]
      at code
    have word : Holds s.memory s.pc (littleEndian 4 0x1f2003d5) := by
      rw [reached.memory, reached.pc]
      exact code.1
    have stepped := @step_fnmaddS fnmadd s (reached.aligned_pc aligned) _ 21 30 0 0 word (by decide)
    have next := reached.next_pc
    have whole : (here + 4) % 4 = 0 := by
      have := reached.whole
      omega
    -- a word of padding changes `v21` and nothing that `Reached` speaks of
    obtain ⟨t, ran, behind⟩ := inductionHypothesis (s := { s with
        pc := s.pc + 4
        v := Function.update s.v 21 ((fnmadd ((s.v 30).setWidth 32) ((s.v 0).setWidth 32)
          ((s.v 0).setWidth 32)).setWidth 128) })
      ⟨next, whole, reached.sp, reached.memory, reached.zero, reached.x⟩ code.2
    refine ⟨t, Runs.head stepped ran, ?_⟩
    rwa [Nat.mul_succ, Nat.add_comm (4 * count), ← Nat.add_assoc]

/-- A call of a `ret` comes back with only the link register changed. -/
theorem Reached.call_ret {imm : BitVec 26} (reached : Reached ptr base link here s)
    (code : Holds base.memory (position ptr here) (littleEndian 4 (0b100101#6 ++ imm)))
    (goes : branchTarget base.memory (position ptr here) = some (position ptr target))
    (isRet : Holds base.memory (position ptr target) retOp) (whole : target % 4 = 0) :
    ∃ t, Runs (step fnmadd) s
        [.call (position ptr here) (position ptr target),
          .ret (position ptr target) (position ptr (here + 4))] t ∧
      Reached ptr base (position ptr (here + 4)) (here + 4) t := by
  rw [← reached.memory] at isRet
  rw [← reached.memory, ← reached.pc] at code goes
  have called := @runs_bl_ret fnmadd s (reached.aligned_pc aligned) _ imm code goes
    (position_aligned aligned whole) isRet
  rw [reached.next_pc, reached.pc] at called
  have behind : (here + 4) % 4 = 0 := by
    have := reached.whole
    omega
  refine ⟨_, called, rfl, behind, reached.sp, reached.memory, reached.zero, ?_⟩
  rw [reached.x]
  exact Function.update_idem _ _ _

theorem Reached.calls {start size padding count : Nat} {target : Nat → Nat}
    {imm : Nat → BitVec 26} (reached : Reached ptr base link start s)
    (whole : size = 4 * (1 + padding))
    (code : Holds base.memory (position ptr start) ((List.range count).flatMap fun i =>
      littleEndian 4 (0b100101#6 ++ imm i) ++ paddingWords padding))
    (goes : ∀ i < count, branchTarget base.memory (position ptr (start + i * size)) =
      some (position ptr (target i)))
    (isRet : ∀ i < count, Holds base.memory (position ptr (target i)) retOp)
    (targetWhole : ∀ i < count, target i % 4 = 0) :
    ∃ t, Runs (step fnmadd) s (callsThrough ptr (fun i => start + i * size) target count) t ∧
      ∃ link, Reached ptr base link (start + count * size) t := by
  refine Runs.iterate (fun i t => ∃ link, Reached ptr base link (start + i * size) t) _ ?_
    ⟨link, by simpa using reached⟩
  -- each call leaves its own return address in `x30`, so the invariant only says that there is one
  rintro i before t ⟨link, here⟩
  have cell := code.cell (fun _ _ => show _ = size by simp [whole]; omega) before
  rw [position_position] at cell
  obtain ⟨call, padded⟩ := holds_append.mp cell
  rw [position_position, length_littleEndian] at padded
  obtain ⟨t1, called, behind⟩ := here.call_ret fnmadd aligned call (goes i before) (isRet i before)
    (targetWhole i before)
  obtain ⟨t2, passed, next⟩ := behind.padding fnmadd aligned padded
  have both := called.trans passed
  rw [List.append_nil] at both
  refine ⟨t2, both, position ptr (start + i * size + 4), ?_⟩
  rwa [Nat.succ_mul, show start + (i * size + size) = start + i * size + 4 + 4 * padding by omega]

/-- The cells of a chain of branches, each of which is taken. -/
theorem Reached.chain {first size count : Nat} {word : BitVec 32}
    (reached : Reached ptr base link first s) (whole : size % 4 = 0)
    (code : ∀ i < count, Holds base.memory (position ptr (first + i * size)) (littleEndian 4 word))
    (goes : ∀ i < count, branchTarget base.memory (position ptr (first + i * size)) =
      some (position ptr (first + (i + 1) * size)))
    (taken : (∃ imm, decode word = some (.b imm)) ∨
      ∃ imm, decode word = some (.bCond 1 imm) ∧ base.zero = false) :
    ∃ t, Runs (step fnmadd) s (branchesThrough ptr first size count) t ∧
      Reached ptr base link (first + count * size) t := by
  rw [branchesThrough, List.map_eq_flatMap]
  refine Runs.iterate (fun i t => Reached ptr base link (first + i * size) t) _ ?_
    (by simpa using reached)
  -- the padding of the cell is jumped over, so a turn is a single step
  intro i before t here
  have branch := code i before
  have reaches := goes i before
  rw [← here.memory, ← here.pc] at branch reaches
  rw [← here.zero] at taken
  have stepped := @step_branch fnmadd t (here.aligned_pc aligned) _ _ branch reaches taken
  rw [here.pc] at stepped
  have next : (first + (i + 1) * size) % 4 = 0 := by
    have := here.whole
    rw [Nat.succ_mul]
    omega
  exact ⟨_, Runs.of_step stepped, rfl, next, here.sp, here.memory, here.zero, here.x⟩

theorem Reached.leave (reached : Reached ptr (entered cpu) link here s)
    (code : Holds (entered cpu).memory (position ptr here) (ldpX30 ++ retOp)) {events : List Event}
    (ran : Runs (step fnmadd) cpu events s) :
    RunsAndReturns fnmadd ptr cpu events (here + 4) := by
  obtain ⟨pair, ret⟩ := holds_append.mp code
  rw [← reached.memory, ← reached.pc] at pair
  rw [position_position, ← reached.memory] at ret
  have first : load s.memory s.sp 8 = cpu.x 29 := by
    rw [reached.memory, reached.sp]
    exact load_pushed_first _ _ _ _
  have second : load s.memory (s.sp + 8) 8 = cpu.x 30 := by
    rw [reached.memory, reached.sp]
    exact load_pushed_second _ _ _ _
  have sp : s.sp + 16 = cpu.sp := by
    rw [reached.sp]
    exact BitVec.sub_add_cancel _ _
  -- nothing wrote to memory since `stp`, so the pair is the one it stored
  have popped := @step_ldp fnmadd s (reached.aligned_pc aligned) pair
  rw [reached.next_pc, first, second, sp] at popped
  have whole := reached.whole
  let x := Function.update (Function.update s.x 29 (cpu.x 29)) 30 (cpu.x 30)
  have link : x 30 = cpu.x 30 := by simp [x]
  have frame : x 29 = cpu.x 29 := by simp [x]
  have returned := @step_ret fnmadd { s with pc := position ptr (here + 4), sp := cpu.sp, x := x }
    (position_aligned aligned (by omega)) _ link ret
  exact ⟨_, ran.trans (Runs.head popped (Runs.of_step returned)), rfl, rfl, frame, link⟩

theorem Reached.back (reached : Reached ptr base (base.x 30) here s)
    (code : Holds base.memory (position ptr here) retOp) {events : List Event}
    (ran : Runs (step fnmadd) cpu events s) (sp : base.sp = cpu.sp) (frame : base.x 29 = cpu.x 29)
    (callerLink : base.x 30 = cpu.x 30) : RunsAndReturns fnmadd ptr cpu events here := by
  rw [← reached.memory, ← reached.pc] at code
  have x := reached.x
  rw [Function.update_eq_self] at x
  have link : s.x 30 = cpu.x 30 := by rw [x, callerLink]
  have returned := @step_ret fnmadd s (reached.aligned_pc aligned) _ link code
  rw [reached.pc] at returned
  refine ⟨_, ran.trans (Runs.of_step returned), rfl, reached.sp.trans sp, ?_, link⟩
  rw [← frame, ← x]

end

end CloudflareBlog.Gadget.Aarch64
