import CloudflareBlog.Gadget.Aarch64Calls

/-!
# The benchmarks of branches for aarch64

Each cell is a branch over its own padding, so that the padding never runs.  `jmp_weaved` has two of
these chains, one cell's branches behind each other.  With them all benchmarks that branch are
covered, which is the result at the end.
-/

namespace CloudflareBlog.Gadget.Aarch64

open CloudflareBlog.Lib.Buffer CloudflareBlog.Lib.Memory CloudflareBlog.Lib.Machine
open CloudflareBlog.Lib.Armv8

variable {fnmadd : BitVec 32 → BitVec 32 → BitVec 32 → BitVec 32}
  {ptr : Address} {blob : Blob} {cpu base s : Cpu} {link : BitVec 64}

/-- Each branch goes to the next cell, and a run takes each of them once and returns. -/
structure BranchesReturn (fnmadd : BitVec 32 → BitVec 32 → BitVec 32 → BitVec 32) (ptr : Address)
    (cpu : Cpu) (first size count last : Nat) : Prop where
  goes : ∀ i < count, branchTarget cpu.memory (position ptr (first + i * size)) =
    some (position ptr (first + (i + 1) * size))
  run : RunsAndReturns fnmadd ptr cpu (branchesThrough ptr first size count) last

/-- The state after `mov` and `cmp` at `ptr_fn`. -/
def compared (cpu : Cpu) : Cpu :=
  { cpu with
    pc := cpu.pc + 4 + 4
    x := Function.update cpu.x 0 2
    zero := false }

theorem Reached.branchesReturn {first size count last : Nat} {word : BitVec 32}
    (reached : Reached ptr base (base.x 30) first s) (entering : Runs (step fnmadd) cpu [] s)
    (memory : base.memory = cpu.memory) (sp : base.sp = cpu.sp) (frame : base.x 29 = cpu.x 29)
    (link : base.x 30 = cpu.x 30) (aligned : ptr.toNat % 4 = 0) (whole : size % 4 = 0)
    (code : ∀ i < count, Holds cpu.memory (position ptr (first + i * size)) (littleEndian 4 word))
    (goes : ∀ i < count, branchTarget cpu.memory (position ptr (first + i * size)) =
      some (position ptr (first + (i + 1) * size)))
    (taken : (∃ imm, decode word = some (.b imm)) ∨
      ∃ imm, decode word = some (.bCond 1 imm) ∧ base.zero = false)
    (ret : Holds cpu.memory (position ptr last) retOp) (ends : last = first + count * size) :
    BranchesReturn fnmadd ptr cpu first size count last := by
  refine ⟨goes, ?_⟩
  rw [← memory] at code goes ret
  obtain ⟨t, ran, atEnd⟩ := reached.chain fnmadd aligned whole code goes taken
  rw [← ends] at atEnd
  exact atEnd.back fnmadd aligned ret (entering.trans ran) sp frame link

/-- `mov` and `cmp` leave the flag such that `b.ne` is taken. -/
theorem runs_movCmp (fnmadd) {offset : Nat} (aligned : ptr.toNat % 4 = 0) (whole : offset % 4 = 0)
    (pc : cpu.pc = position ptr offset) (code : Holds cpu.memory (position ptr offset) movCmp) :
    Runs (step fnmadd) cpu [] (compared cpu) := by
  have next : cpu.pc + 4 = position ptr (offset + 4) := by
    rw [pc]
    exact position_add ptr offset 4
  have parts : movCmp = littleEndian 4 0x52800040 ++ littleEndian 4 0x71002c1f := by decide
  rw [parts, holds_append, position_position] at code
  obtain ⟨mov, cmp⟩ := code
  rw [← pc] at mov
  have moved := @step_of_word fnmadd cpu (by rw [pc]; exact position_aligned aligned whole) _ _ mov
    (show decode 0x52800040 = some (.movzW 0 2) by decide)
  have compares := @step_of_word fnmadd
    { cpu with pc := cpu.pc + 4, x := Function.update cpu.x 0 2 }
    (by rw [next]; exact position_aligned aligned (by omega)) _ _ (by rwa [next])
    (show decode 0x71002c1f = some (.subsW 31 0 11) by decide)
  -- 2 - 11 is not zero, and the result of `cmp` goes to no register
  have both := Runs.head moved (Runs.of_step compares)
  exact both

theorem Ready.chain {first last count size padding : Nat} (ready : Ready ptr blob first cpu)
    (firstWhole : first % 4 = 0) (sized : size = 4 * (1 + padding)) (short : padding < 255)
    (code : ∀ i < count, Holds cpu.memory (position ptr (first + i * size))
      (littleEndian 4 (0b000101#6 ++ BitVec.ofInt 26 ↑(1 + padding))))
    (ret : Holds cpu.memory (position ptr last) retOp) (ends : last = first + count * size) :
    BranchesReturn fnmadd ptr cpu first size count last :=
  (reached_self ready.pc firstWhole).branchesReturn (Runs.refl _ cpu) rfl rfl rfl rfl ready.aligned
    (by omega) code
    (fun i before => branchTarget_b (by rw [Nat.succ_mul]; omega) (code i before) (by omega)
      (by omega))
    (Or.inl ⟨_, decode_b _⟩) ret ends

section

variable {alignment : Int} {padding count size : Nat}
  (whole : alignment = 4 * (1 + padding)) (sized : size = 4 * (1 + padding))
include whole sized

theorem jeAlwaysTaken_run (short : alignment < 2 ^ 20)
    (filled : jeAlwaysTaken alignment count Blob.empty = blob)
    (ready : Ready ptr blob blob.ptrFn cpu) :
    BranchesReturn fnmadd ptr cpu (blob.ptrFn + 8) size count blob.ptrRet := by
  obtain ⟨words, layedOut⟩ := jeAlwaysTaken_eq whole short
  rw [layedOut] at filled
  have list := length_flatMap_range count fun _ _ =>
    show (littleEndian 4 (0b01010100#8 ++ (BitVec.ofInt 19 ↑(1 + padding) ++ (0#1 ++ 1#4))) ++
      paddingWords padding).length = size by simp; omega
  obtain ⟨⟨fn, last, total⟩, -, body, ret⟩ := layout_parts ready.code filled
  have start : (paddingWords 6 ++ retOp).length = 28 := rfl
  have prelude : movCmp.length = 8 := rfl
  rw [start] at fn
  rw [List.length_append, prelude, list] at last
  rw [holds_append, prelude, position_position] at body
  -- what follows `mov` and `cmp` is one cell for each branch
  obtain ⟨movCmp, cells⟩ := body
  have code (i : Nat) (before : i < count) :
      Holds cpu.memory (position ptr (blob.ptrFn + 8 + i * size))
        (littleEndian 4 (0b01010100#8 ++ (BitVec.ofInt 19 ↑(1 + padding) ++ (0#1 ++ 1#4)))) := by
    have cell := cells.cell (fun _ _ => show _ = size by simp; omega) before
    rw [position_position] at cell
    exact (holds_append.mp cell).1
  have entering := runs_movCmp fnmadd ready.aligned (by omega) ready.pc movCmp
  have reached : Reached ptr (compared cpu) ((compared cpu).x 30) (blob.ptrFn + 8)
      (compared cpu) := by
    refine reached_self ?_ (by omega)
    rw [compared, ready.pc]
    exact (congrArg (· + 4) (position_add ptr blob.ptrFn 4)).trans
      (position_add ptr (blob.ptrFn + 4) 4)
  exact reached.branchesReturn entering rfl rfl rfl rfl ready.aligned (by omega) code
    (fun i before => branchTarget_bCond (by rw [Nat.succ_mul]; omega) (code i before) (by omega)
      (by omega))
    (Or.inr ⟨_, decode_bCond _ _, rfl⟩) ret (by omega)

theorem jmp_run (short : alignment ≤ 1020) (filled : jmp alignment count Blob.empty = blob)
    (ready : Ready ptr blob blob.ptrFn cpu) :
    BranchesReturn fnmadd ptr cpu blob.ptrFn size count blob.ptrRet := by
  obtain ⟨words, layedOut⟩ := jmp_eq whole (by omega)
  rw [layedOut] at filled
  have list := length_flatMap_range count fun _ _ =>
    show (littleEndian 4 (0b000101#6 ++ BitVec.ofInt 26 ↑(1 + padding)) ++
      paddingWords padding).length = size by simp; omega
  obtain ⟨⟨fn, last, total⟩, -, cells, ret⟩ := layout_parts ready.code filled
  have start : (paddingWords 7 ++ retOp).length = 32 := rfl
  rw [list] at last
  rw [start] at fn
  refine ready.chain (by omega) sized (by omega) ?_ ret last
  intro i before
  have cell := cells.cell (fun _ _ => show _ = size by simp; omega) before
  rw [position_position] at cell
  exact (holds_append.mp cell).1

/-- The first chain starts at `ptr_fn`, the second one, if there is any, behind its first branch. -/
theorem jmpWeaved_run (short : alignment ≤ 1020)
    (filled : jmpWeaved alignment count Blob.empty = blob) {second : Nat}
    (chosen : second = 0 ∨ second = 4 ∧ 8 ≤ alignment)
    (ready : Ready ptr blob (blob.ptrFn + second) cpu) :
    BranchesReturn fnmadd ptr cpu (blob.ptrFn + second) size count (blob.ptrRet + second) := by
  obtain ⟨words, layedOut⟩ := jmpWeaved_eq whole (by omega)
  rw [layedOut] at filled
  let b : List Byte := littleEndian 4 (0b000101#6 ++ BitVec.ofInt 26 ↑(1 + padding))
  have sizes (i : Nat) (_ : i < count) :
      (b ++ if padding = 0 then [] else b ++ paddingWords (padding - 1)).length = size := by
    by_cases single : padding = 0
    · simp [b, single, sized]
    · simp [b, single, sized]
      omega
  have list := length_flatMap_range count sizes
  obtain ⟨⟨fn, last, total⟩, -, cells, rets⟩ := layout_parts ready.code filled
  have start : (paddingWords 7 ++ retOp).length = 32 := rfl
  rw [list] at last
  rw [holds_append, position_position] at rets
  rw [start] at fn
  have ret : Holds cpu.memory (position ptr (blob.ptrRet + second)) retOp := by
    obtain rfl | ⟨rfl, -⟩ := chosen
    · exact rets.1
    · exact rets.2
  refine ready.chain (by omega) sized (by omega) ?_ ret (by omega)
  intro i before
  have cell := cells.cell sizes before
  rw [position_position, holds_append] at cell
  obtain rfl | ⟨rfl, room⟩ := chosen
  · exact cell.1
  -- behind the first branch of the cell there is room for a second one
  · have other := cell.2
    rw [if_neg (by omega), holds_append, position_position] at other
    rw [Nat.add_right_comm]
    exact other.1

end

/-- The benchmarks of calls and branches go where they are meant to, `cycle_count` times, and
return.  `second` is where the second chain of `jmp_weaved` starts. -/
theorem branches_return {alignment cycleCount : Int} (counted : 0 ≤ cycleCount)
    (divides : 4 ∣ alignment) (atLeast : 4 ≤ alignment) (small : alignment * cycleCount < 2 ^ 24)
    {type : String} (short : type = "jmp" ∨ type = "jmp_weaved" → alignment ≤ 1020)
    (near : type = "je_always_taken" → alignment < 2 ^ 20) {blob : Blob}
    (filled : blobFillCode alignment cycleCount type = some blob) {second : Nat}
    (chosen : second = 0 ∨ second = 4 ∧ type = "jmp_weaved" ∧ 8 ≤ alignment) {ptr : Address}
    {cpu : Cpu} (ready : Ready ptr blob (blob.ptrFn + second) cpu)
    (fnmadd : BitVec 32 → BitVec 32 → BitVec 32 → BitVec 32) :
    let size := alignment.toNat
    let count := cycleCount.toNat
    let list := blob.ptrFn + 8 + count * size
    (type = "call_dedicated_ret" →
      branchTarget cpu.memory (position ptr (blob.ptrFn + 4)) = some (position ptr list) ∧
        CallsReturn fnmadd ptr cpu
          [.branch (position ptr (blob.ptrFn + 4)) (position ptr list)] (fun i => list + i * size)
          (fun i => blob.ptrFn + 8 + i * size) count blob.ptrRet) ∧
      (type = "call_shared_ret" →
        CallsReturn fnmadd ptr cpu [] (fun i => blob.ptrFn + 4 + i * size)
          (fun _ => blob.ptrFn - 4) count blob.ptrRet) ∧
      (type = "je_always_taken" →
        BranchesReturn fnmadd ptr cpu (blob.ptrFn + 8) size count blob.ptrRet) ∧
      (type = "jmp" → BranchesReturn fnmadd ptr cpu blob.ptrFn size count blob.ptrRet) ∧
      (type = "jmp_weaved" →
        BranchesReturn fnmadd ptr cpu (blob.ptrFn + second) size count (blob.ptrRet + second) ∧
          (second = 4 → blobWarmIcache ptr blob alignment type = some cpu.pc)) := by
  obtain ⟨count, rfl⟩ := Int.eq_ofNat_of_zero_le counted
  obtain ⟨words, rfl⟩ := divides
  obtain ⟨padding, whole⟩ : ∃ padding : Nat, 4 * words = 4 * (1 + padding) :=
    ⟨(words - 1).toNat, by omega⟩
  have sized : (4 * words).toNat = 4 * (1 + padding) := by omega
  rw [Int.toNat_natCast]
  -- the other types have one chain, which starts at `ptr_fn`
  have start (other : type ≠ "jmp_weaved") : second = 0 := by
    obtain none | ⟨-, isWeaved, -⟩ := chosen
    · exact none
    · exact absurd isWeaved other
  replace filled := fillType_of_filled filled
  refine ⟨?_, ?_, ?_, ?_, ?_⟩
  · rintro rfl
    rw [start (by decide)] at ready
    exact callDedicatedRet_run whole sized small filled ready
  · rintro rfl
    rw [start (by decide)] at ready
    exact callSharedRet_run whole sized small filled ready
  · rintro rfl
    rw [start (by decide)] at ready
    exact jeAlwaysTaken_run whole sized (near rfl) filled ready
  · rintro rfl
    rw [start (by decide)] at ready
    exact jmp_run whole sized (short (Or.inl rfl)) filled ready
  · rintro rfl
    have place : second = 0 ∨ second = 4 ∧ 8 ≤ 4 * words := by
      obtain first | ⟨other, -, room⟩ := chosen
      · exact Or.inl first
      · exact Or.inr ⟨other, room⟩
    refine ⟨jmpWeaved_run whole sized (short (Or.inr rfl)) filled place ready, ?_⟩
    rintro rfl
    have room : ¬4 * words < 8 := by omega
    rw [blobWarmIcache, if_pos rfl, if_neg room, ready.pc]
    exact congrArg some (position_add ptr blob.ptrFn 4)

/-- A state in which the blob has just been called at `entry`. -/
def loaded (blob : Blob) (entry : Nat) : Cpu where
  pc := position 0x600000000000 entry
  sp := 0x7ffffffff000
  x register := if register = 30 then 0x400000 else 0
  v _ := 1#128 <<< 64
  zero := false
  memory := storeBytes (fun _ => 0) 0x600000000000 blob.code

theorem ready_loaded {blob : Blob} (fits : blob.code.length ≤ assumedSz) (entry : Nat) :
    Ready 0x600000000000 blob entry (loaded blob entry) where
  code := holds_storeBytes _ _ (fits.trans (by decide))
  pc := rfl
  aligned := by decide
  apart a inside := by
    rw [assumedSz] at fits
    have base : (0x600000000000 : Address).toNat = 0x600000000000 := rfl
    have slot : (0x7ffffffff000 - 16 : Address).toNat = 0x7fffffffeff0 := rfl
    rw [Inside, BitVec.toNat_sub, base] at inside
    rw [loaded, Inside, BitVec.toNat_sub, slot]
    omega

theorem branches_return_second : ∃ blob, blobFillCode 16 2 "jmp_weaved" = some blob ∧
    BranchesReturn (fun a _ _ => a) 0x600000000000 (loaded blob (blob.ptrFn + 4)) (blob.ptrFn + 4)
      16 2 (blob.ptrRet + 4) := by
  have filled : blobFillCode 16 2 "jmp_weaved" = some (jmpWeaved 16 2 Blob.empty) := by
    decide +kernel
  have fits : (jmpWeaved 16 2 Blob.empty).code.length ≤ assumedSz := by decide +kernel
  obtain ⟨-, -, -, -, weaved⟩ := branches_return (by decide) (by decide) (by decide) (by decide)
    (fun _ => by decide) (by decide) filled (Or.inr ⟨rfl, rfl, by decide⟩) (ready_loaded fits _)
    fun a _ _ => a
  exact ⟨_, filled, (weaved rfl).1⟩

end CloudflareBlog.Gadget.Aarch64
