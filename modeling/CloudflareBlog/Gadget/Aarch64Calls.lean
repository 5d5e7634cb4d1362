import CloudflareBlog.Gadget.Aarch64Flow

/-!
# The benchmarks of calls for aarch64

`call_dedicated_ret` jumps over its table of `ret` to a list of calls, one to each of them.
`call_shared_ret` is a list of calls to the `ret` in front of `ptr_fn`.  Both keep the frame pointer
and the link register on the stack while they run.
-/

namespace CloudflareBlog.Gadget.Aarch64

open CloudflareBlog.Lib.Buffer CloudflareBlog.Lib.Memory CloudflareBlog.Lib.Machine
open CloudflareBlog.Lib.Armv8

variable {fnmadd : BitVec 32 → BitVec 32 → BitVec 32 → BitVec 32}
  {ptr : Address} {blob : Blob} {cpu base s : Cpu} {link : BitVec 64}

/-- The calls go to their targets, which return at once, and a run makes each of them once, after
the events before them, and returns. -/
structure CallsReturn (fnmadd : BitVec 32 → BitVec 32 → BitVec 32 → BitVec 32) (ptr : Address)
    (cpu : Cpu) (before : List Event) (source target : Nat → Nat) (count last : Nat) : Prop where
  goes : ∀ i < count,
    branchTarget cpu.memory (position ptr (source i)) = some (position ptr (target i))
  isRet : ∀ i < count, Holds cpu.memory (position ptr (target i)) retOp
  run : RunsAndReturns fnmadd ptr cpu (before ++ callsThrough ptr source target count) last

/-- The code of a benchmark of calls: a list of them with `stp` before it at `ptr_fn`, and behind it
the return. -/
structure CallCode (ptr : Address) (blob : Blob) (start size padding count : Nat)
    (imm : Nat → BitVec 26) (target : Nat → Nat) (memory : Bytes) : Prop where
  enter : Holds memory (position ptr blob.ptrFn) stpX30
  list : Holds memory (position ptr start) ((List.range count).flatMap fun i =>
    littleEndian 4 (0b100101#6 ++ imm i) ++ paddingWords padding)
  leave : Holds memory (position ptr (start + count * size)) (ldpX30 ++ retOp)
  goes : ∀ i < count,
    branchTarget memory (position ptr (start + i * size)) = some (position ptr (target i))
  isRet : ∀ i < count, Holds memory (position ptr (target i)) retOp

theorem CallCode.callsReturn {start size padding count : Nat} {imm : Nat → BitVec 26}
    {target : Nat → Nat} (code : CallCode ptr blob start size padding count imm target cpu.memory)
    (kept : CallCode ptr blob start size padding count imm target (entered cpu).memory)
    (aligned : ptr.toNat % 4 = 0) (whole : size = 4 * (1 + padding))
    (targetWhole : ∀ i < count, target i % 4 = 0) {before : List Event}
    (ran : Runs (step fnmadd) cpu before s) (reached : Reached ptr (entered cpu) link start s)
    (last : blob.ptrRet = start + count * size + 4) :
    CallsReturn fnmadd ptr cpu before (fun i => start + i * size) target count blob.ptrRet := by
  refine ⟨code.goes, code.isRet, ?_⟩
  -- the calls run on the memory that `stp` left, the targets are stated of the one before it
  obtain ⟨t, called, _, atEnd⟩ :=
    reached.calls fnmadd aligned whole kept.list kept.goes kept.isRet targetWhole
  rw [last]
  exact atEnd.leave fnmadd aligned kept.leave (ran.trans called)

/-- `stp` at `ptr_fn` leaves the code as it is. -/
theorem Ready.enter (fnmadd) (ready : Ready ptr blob blob.ptrFn cpu)
    (small : blob.code.length ≤ 2 ^ 64) (whole : blob.ptrFn % 4 = 0)
    (code : Holds cpu.memory (position ptr blob.ptrFn) stpX30) :
    Holds (entered cpu).memory ptr blob.code ∧ Runs (step fnmadd) cpu [] (entered cpu) ∧
      Reached ptr (entered cpu) (cpu.x 30) (blob.ptrFn + 4) (entered cpu) := by
  have kept : Holds (entered cpu).memory ptr blob.code :=
    ready.code.congr small fun a inside => pushed_outside (ready.apart a inside)
  have aligned : cpu.pc.toNat % 4 = 0 := by
    rw [ready.pc]
    exact position_aligned ready.aligned whole
  have behind : cpu.pc + 4 = position ptr (blob.ptrFn + 4) := by
    rw [ready.pc]
    exact position_add ptr blob.ptrFn 4
  rw [← ready.pc] at code
  exact ⟨kept, Runs.of_step (step_stp aligned code), reached_self behind (by omega)⟩

theorem cell_words {size padding : Nat} (sized : size = 4 * (1 + padding)) (i : Nat) :
    i * size = 4 * (i * (1 + padding)) := by
  rw [sized]
  ring

section

variable {memory : Bytes} {alignment : Int} {padding count size : Nat}
  (whole : alignment = 4 * (1 + padding)) (sized : size = 4 * (1 + padding))
  (small : alignment * count < 2 ^ 24)
include whole sized small

theorem cells_small : count * size = 4 * (count * (1 + padding)) ∧ count * size < 2 ^ 24 := by
  have words := cell_words sized count
  have product : alignment * count = ((4 * (count * (1 + padding)) : Nat) : Int) := by
    rw [whole]
    push_cast
    ring
  omega

theorem callDedicatedRet_code (filled : callDedicatedRet alignment count Blob.empty = blob)
    (holds : Holds memory ptr blob.code) :
    (blob.ptrFn = 24 ∧ blob.ptrRet = blob.ptrFn + 8 + count * size + count * size + 4 ∧
        blob.code.length = blob.ptrRet + 4) ∧
      Holds memory (position ptr (blob.ptrFn + 4))
        (littleEndian 4 (0b000101#6 ++ BitVec.ofInt 26 ↑(1 + count * (1 + padding)))) ∧
      CallCode ptr blob (blob.ptrFn + 8 + count * size) size padding count
        (fun _ => BitVec.ofInt 26 (-↑(count * (1 + padding)))) (fun i => blob.ptrFn + 8 + i * size)
        memory := by
  obtain ⟨words, layedOut⟩ := callDedicatedRet_eq whole small
  rw [layedOut] at filled
  have table := length_flatMap_range count fun _ _ =>
    show (retOp ++ paddingWords padding).length = size by simp [retOp]; omega
  have list := length_flatMap_range count fun _ _ =>
    show (littleEndian 4 (0b100101#6 ++ BitVec.ofInt 26 (-↑(count * (1 + padding)))) ++
      paddingWords padding).length = size by simp; omega
  have stp : stpX30.length = 4 := rfl
  have ldp : ldpX30.length = 4 := rfl
  have ret : retOp.length = 4 := rfl
  obtain ⟨⟨fn, last, total⟩, -, body, behind⟩ := layout_parts holds filled
  have start : (paddingWords 5 ++ retOp).length = 24 := rfl
  rw [start] at fn
  rw [List.length_append, List.length_append, List.length_append, List.length_append, stp, table,
    list, ldp, length_littleEndian] at last
  rw [holds_append, holds_append, holds_append, holds_append, stp,
    length_littleEndian, table, list, position_position, position_position, position_position,
    position_position, show blob.ptrFn + 4 + 4 = blob.ptrFn + 8 from rfl] at body
  -- in order: `stp`, the jump over the table, the table of returns, the calls, `ldp`
  obtain ⟨enter, jump, rets, calls, pop⟩ := body
  have returns : Holds memory (position ptr (blob.ptrFn + 8 + count * size + count * size))
      (ldpX30 ++ retOp) := by
    rw [holds_append, position_position, ldp]
    refine ⟨pop, ?_⟩
    rwa [show blob.ptrFn + 8 + count * size + count * size + 4 = blob.ptrRet by omega]
  refine ⟨⟨fn, by omega, by omega⟩, jump, enter, calls, returns, ?_, ?_⟩
  · intro i before
    have cell := calls.cell (fun _ _ => show _ = size by simp; omega) before
    rw [position_position] at cell
    have room := cells_small whole sized small
    exact branchTarget_bl (by omega) (holds_append.mp cell).1 (by omega) (by omega)
  · intro i before
    have cell := rets.cell (fun _ _ => show _ = size by simp [retOp]; omega) before
    rw [position_position] at cell
    exact (holds_append.mp cell).1

theorem callDedicatedRet_run (filled : callDedicatedRet alignment count Blob.empty = blob)
    (ready : Ready ptr blob blob.ptrFn cpu) :
    branchTarget cpu.memory (position ptr (blob.ptrFn + 4)) =
        some (position ptr (blob.ptrFn + 8 + count * size)) ∧
      CallsReturn fnmadd ptr cpu
        [.branch (position ptr (blob.ptrFn + 4)) (position ptr (blob.ptrFn + 8 + count * size))]
        (fun i => blob.ptrFn + 8 + count * size + i * size) (fun i => blob.ptrFn + 8 + i * size)
        count blob.ptrRet := by
  have room := cells_small whole sized small
  obtain ⟨⟨fn, last, total⟩, jump, code⟩ :=
    callDedicatedRet_code whole sized small filled ready.code
  obtain ⟨held, entering, atFn⟩ := ready.enter fnmadd (by omega) (by omega) code.enter
  obtain ⟨-, jumpKept, kept⟩ := callDedicatedRet_code whole sized small filled held
  have reaches : ((blob.ptrFn + 4 : Nat) : Int) + 4 * ↑(1 + count * (1 + padding)) =
      ((blob.ptrFn + 8 + count * size : Nat) : Int) := by omega
  refine ⟨branchTarget_b reaches jump (by omega) (by omega), ?_⟩
  have goes := branchTarget_b reaches jumpKept (by omega) (by omega)
  -- `stp` has run, and the next word jumps over the table of returns
  have jumped := @step_branch fnmadd (entered cpu) (atFn.aligned_pc ready.aligned)
    (position ptr (blob.ptrFn + 8 + count * size)) _ (by rwa [atFn.pc]) (by rwa [atFn.pc])
    (Or.inl ⟨_, decode_b _⟩)
  rw [atFn.pc] at jumped
  exact code.callsReturn kept ready.aligned sized (fun i _ => by
      have words := cell_words sized i
      omega)
    (entering.trans (Runs.of_step jumped))
    ⟨rfl, by omega, rfl, rfl, rfl, atFn.x⟩ last

theorem callSharedRet_code (filled : callSharedRet alignment count Blob.empty = blob)
    (holds : Holds memory ptr blob.code) :
    (blob.ptrFn = 28 ∧ blob.ptrRet = blob.ptrFn + 4 + count * size + 4 ∧
        blob.code.length = blob.ptrRet + 4) ∧
      CallCode ptr blob (blob.ptrFn + 4) size padding count
        (fun i => BitVec.ofInt 26 (-((2 + i * (1 + padding) : Nat) : Int)))
        (fun _ => blob.ptrFn - 4) memory := by
  obtain ⟨words, layedOut⟩ := callSharedRet_eq whole small
  rw [layedOut] at filled
  have list := length_flatMap_range count fun i _ =>
    show (littleEndian 4 (0b100101#6 ++ BitVec.ofInt 26 (-((2 + i * (1 + padding) : Nat) : Int))) ++
      paddingWords padding).length = size by simp; omega
  have stp : stpX30.length = 4 := rfl
  have ldp : ldpX30.length = 4 := rfl
  have ret : retOp.length = 4 := rfl
  obtain ⟨⟨fn, last, total⟩, first, body, behind⟩ := layout_parts holds filled
  have start : (paddingWords 6 ++ retOp).length = 28 := rfl
  rw [start] at fn
  rw [List.length_append, List.length_append, stp, list, ldp] at last
  rw [holds_append, holds_append, stp, list, position_position, position_position] at body
  obtain ⟨enter, calls, pop⟩ := body
  have returns : Holds memory (position ptr (blob.ptrFn + 4 + count * size))
      (ldpX30 ++ retOp) := by
    rw [holds_append, position_position, ldp]
    refine ⟨pop, ?_⟩
    rwa [show blob.ptrFn + 4 + count * size + 4 = blob.ptrRet by omega]
  have shared : Holds memory (position ptr (blob.ptrFn - 4)) retOp := by
    rw [fn]
    exact (holds_append.mp first).2
  refine ⟨⟨fn, by omega, by omega⟩, enter, calls, returns, ?_, fun _ _ => shared⟩
  intro i before
  have cell := calls.cell (fun _ _ => show _ = size by simp; omega) before
  rw [position_position] at cell
  have room := cells_small whole sized small
  -- the last call is the one that reaches back farthest
  have last : (i + 1) * (1 + padding) ≤ count * (1 + padding) := Nat.mul_le_mul_right _ before
  rw [Nat.succ_mul] at last
  have words := cell_words sized i
  exact branchTarget_bl (by omega) (holds_append.mp cell).1 (by omega) (by omega)

theorem callSharedRet_run (filled : callSharedRet alignment count Blob.empty = blob)
    (ready : Ready ptr blob blob.ptrFn cpu) :
    CallsReturn fnmadd ptr cpu [] (fun i => blob.ptrFn + 4 + i * size) (fun _ => blob.ptrFn - 4)
      count blob.ptrRet := by
  have room := cells_small whole sized small
  obtain ⟨⟨fn, last, total⟩, code⟩ := callSharedRet_code whole sized small filled ready.code
  obtain ⟨held, entering, atFn⟩ := ready.enter fnmadd (by omega) (by omega) code.enter
  obtain ⟨-, kept⟩ := callSharedRet_code whole sized small filled held
  exact code.callsReturn kept ready.aligned sized (fun _ _ => by omega) entering atFn last

end

end CloudflareBlog.Gadget.Aarch64
