import CloudflareBlog.Lib.X86
import CloudflareBlog.Gadget.X86

/-!
# Running the calls

The benchmarks of calls for x86-64, executed from `ptr_fn`.  The only memory they write are the eight
bytes below the return address of the caller, so a state on the way is described by where it is and
by what it left unchanged (`Reached`).
-/

namespace CloudflareBlog.Gadget.X86

open CloudflareBlog.Lib.Buffer CloudflareBlog.Lib.Memory CloudflareBlog.Lib.Machine
open CloudflareBlog.Lib.X86

/-- Just after the call of `ptr_fn` with the blob at `ptr`, on a stack elsewhere. -/
structure Ready (ptr : Address) (blob : Blob) (cpu : Cpu) : Prop where
  code : Holds cpu.memory ptr blob.code
  rip : cpu.rip = position ptr blob.ptrFn
  apart : ∀ a, Inside ptr blob.code.length a → ¬Inside (cpu.rsp - 8) 8 a

/-- The return address that the caller of `ptr_fn` pushed. -/
def returnAddress (cpu : Cpu) : Address := load cpu.memory cpu.rsp 8

/-- The run makes these calls, each a source and a target.  Every return but the last goes back to
one of them, and the last is the `ret` at `ptr_ret`, which returns to the caller. -/
def CallsAndReturns (ptr : Address) (blob : Blob) (cpu : Cpu) (made : List (Address × Address)) :
    Prop :=
  ∃ body final,
    Runs step cpu (body ++ [.ret (position ptr blob.ptrRet) cpu.rsp (returnAddress cpu)]) final ∧
      calls body = made ∧ OwnReturns [] body ∧
        final.rip = returnAddress cpu ∧ final.rsp = cpu.rsp + 8

/-- The `ret` of `call_dedicated_ret` with this number: the table begins behind the jump at `ptr_fn`. -/
def tableRet (ptr : Address) (blob : Blob) (alignment : Int) (i : Nat) : Address :=
  position ptr (blob.ptrFn + 5 + i * (max 5 alignment).toNat)

/-- The `ret` of `call_shared_ret`. -/
def sharedRet (ptr : Address) (blob : Blob) : Address := position ptr (blob.ptrFn - 2)

/-- On the way from `cpu`: at `offset` in the blob, nothing left on the stack. -/
structure Reached (ptr : Address) (cpu : Cpu) (offset : Nat) (s : Cpu) : Prop where
  rip : s.rip = position ptr offset
  rsp : s.rsp = cpu.rsp
  memory : ∀ a, ¬Inside (cpu.rsp - 8) 8 a → s.memory a = cpu.memory a

def fixedAddr : Address := 0x5ffffff00000

/-- A state in which the blob has just been called. -/
def loaded (blob : Blob) : Cpu where
  rip := position fixedAddr blob.ptrFn
  rsp := 0x7ffffffff000
  ecx := 0
  zf := false
  memory := storeBytes (fun _ => 0) fixedAddr blob.code

variable {ptr : Address} {blob : Blob} {cpu s : Cpu}

theorem ready_loaded (fits : blob.code.length ≤ assumedSz) : Ready fixedAddr blob (loaded blob) where
  code := holds_storeBytes _ _ (fits.trans (by decide))
  rip := rfl
  apart a inside := by
    rw [assumedSz] at fits
    have base : fixedAddr.toNat = 0x5ffffff00000 := rfl
    have slot : (0x7ffffffff000 - 8 : Address).toNat = 0x7fffffffeff8 := rfl
    rw [Inside, BitVec.toNat_sub, base] at inside
    rw [loaded, Inside, BitVec.toNat_sub, slot]
    omega

/-! ## What stays as it was -/

theorem Reached.code (ready : Ready ptr blob cpu) (fits : blob.code.length ≤ assumedSz)
    {offset start : Nat} (reached : Reached ptr cpu offset s) {bytes : List Byte}
    (holds : Holds cpu.memory (position ptr start) bytes)
    (inside : start + bytes.length ≤ blob.code.length) :
    Holds s.memory (position ptr start) bytes := by
  rw [assumedSz] at fits
  refine holds.congr (by omega) fun a within => reached.memory a (ready.apart a ?_)
  have offsetNat : (BitVec.ofNat 64 start).toNat = start := Nat.mod_eq_of_lt (by omega)
  have bounds := (inside_add_iff ptr (by omega) a).mp within
  rw [Inside]
  omega

theorem inside_above {rsp a : Address} (inside : Inside rsp 8 a) : ¬Inside (rsp - 8) 8 a := by
  have eight : (8 : Address).toNat = 8 := rfl
  have shift : a - (rsp - 8) = (a - rsp) + 8 := by rw [sub_sub_eq_add_sub, sub_add_eq_add_sub]
  rw [Inside] at inside
  rw [Inside, shift, BitVec.toNat_add]
  omega

theorem Reached.returnAddress {offset : Nat} (reached : Reached ptr cpu offset s) :
    load s.memory s.rsp 8 = returnAddress cpu := by
  rw [reached.rsp, X86.returnAddress]
  exact load_eq_of_inside (by decide) fun a inside => reached.memory a (inside_above inside)

theorem Reached.stored {offset next : Nat} (reached : Reached ptr cpu offset s) {t : Cpu}
    (rip : t.rip = position ptr next) (rsp : t.rsp = cpu.rsp) {value : Address}
    (memory : t.memory = store s.memory (cpu.rsp - 8) 8 value) : Reached ptr cpu next t where
  rip := rip
  rsp := rsp
  memory a outside := by rw [memory, store_outside outside, reached.memory a outside]

theorem Reached.ret {offset : Nat} (reached : Reached ptr cpu offset s)
    (code : Holds s.memory (position ptr offset) [0xc3]) :
    ∃ final, Runs step s [.ret (position ptr offset) cpu.rsp (X86.returnAddress cpu)] final ∧
      final.rip = X86.returnAddress cpu ∧ final.rsp = cpu.rsp + 8 := by
  rw [← reached.rip] at code
  have returned := step_ret code
  rw [reached.returnAddress, reached.rsp, reached.rip] at returned
  exact ⟨_, Runs.of_step returned, rfl, rfl⟩

/-! ## Cells -/

/-- A call that its target returns from at once. -/
def callAndReturn (ptr : Address) (cpu : Cpu) (source target : Nat) : List Event :=
  [.call (position ptr source) (position ptr target) (cpu.rsp - 8),
    .ret (position ptr target) (cpu.rsp - 8) (position ptr (source + 5))]

section

variable (ready : Ready ptr blob cpu) (fits : blob.code.length ≤ assumedSz) {here target : Nat}
include ready fits

omit ready fits in
/-- A displacement of 32 bits counts from behind the five bytes of the instruction. -/
theorem Reached.lands {d : Int} (reached : Reached ptr cpu here s)
    (reaches : (here : Int) + 5 + d = target) :
    s.rip + 5 = position ptr (here + 5) ∧
      s.rip + 5 + BitVec.ofInt 64 d = position ptr target := by
  have behind : s.rip + 5 = position ptr (here + 5) := by
    rw [reached.rip]
    exact position_add ptr here 5
  refine ⟨behind, ?_⟩
  rw [behind]
  exact position_displacement ptr (by push_cast; omega)

theorem Reached.nops {count : Nat} (reached : Reached ptr cpu here s)
    (code : Holds cpu.memory (position ptr here) (List.replicate count 0x90))
    (inside : here + count ≤ blob.code.length) :
    ∃ t, Runs step s [] t ∧ Reached ptr cpu (here + count) t := by
  have present := reached.code ready fits code (by rwa [List.length_replicate])
  rw [← reached.rip] at present
  refine ⟨_, runs_nops count present, ?_, reached.rsp, reached.memory⟩
  rw [reached.rip]
  exact position_position ptr here count

theorem Reached.jmp {d : Int} (reached : Reached ptr cpu here s)
    (code : Holds cpu.memory (position ptr here) (0xe9 :: littleEndian 4 (BitVec.ofInt 32 d)))
    (inside : here + 5 ≤ blob.code.length) (reaches : (here : Int) + 5 + d = target)
    (targetInside : target < blob.code.length) :
    ∃ t, Runs step s [.jump (position ptr here) (position ptr target)] t ∧
      Reached ptr cpu target t := by
  have small := fits
  rw [assumedSz] at small
  have present := reached.code ready fits code inside
  rw [← reached.rip] at present
  have jumped := step_jmp32 present (by omega) (by omega) (reached.lands reaches).2
  rw [jump, reached.rip] at jumped
  exact ⟨_, Runs.of_step jumped, rfl, reached.rsp, reached.memory⟩

/-- A call of a `ret` in the blob comes back with nothing but the slot changed. -/
theorem Reached.call_ret {d : Int} (reached : Reached ptr cpu here s)
    (code : Holds cpu.memory (position ptr here) (0xe8 :: littleEndian 4 (BitVec.ofInt 32 d)))
    (inside : here + 5 ≤ blob.code.length) (reaches : (here : Int) + 5 + d = target)
    (isRet : Holds cpu.memory (position ptr target) [0xc3])
    (targetInside : target < blob.code.length) :
    ∃ t, Runs step s (callAndReturn ptr cpu here target) t ∧ Reached ptr cpu (here + 5) t := by
  have small := fits
  rw [assumedSz] at small
  have callHere := reached.code ready fits code inside
  have retThere := reached.code ready fits isRet targetInside
  rw [← reached.rip] at callHere
  have outside : ¬Inside (s.rsp - 8) 8 (position ptr target) := by
    rw [reached.rsp]
    exact ready.apart _ (position_inside ptr (by omega) targetInside)
  obtain ⟨behind, lands⟩ := reached.lands reaches
  have called := runs_call_ret callHere (by omega) (by omega) lands retThere outside
  rw [behind, reached.rip, reached.rsp] at called
  exact ⟨_, called, reached.stored rfl rfl rfl⟩

/-- A call of an `add rsp, 8` in the blob goes on behind it, with the return address dropped. -/
theorem Reached.call_drop {d : Int} (reached : Reached ptr cpu here s)
    (code : Holds cpu.memory (position ptr here) (0xe8 :: littleEndian 4 (BitVec.ofInt 32 d)))
    (inside : here + 5 ≤ blob.code.length) (reaches : (here : Int) + 5 + d = target)
    (isDrop : Holds cpu.memory (position ptr target) [0x48, 0x83, 0xc4, 0x08])
    (targetInside : target + 4 ≤ blob.code.length) :
    ∃ t, Runs step s [.call (position ptr here) (position ptr target) (cpu.rsp - 8)] t ∧
      Reached ptr cpu (target + 4) t := by
  have small := fits
  rw [assumedSz] at small
  have callHere := reached.code ready fits code inside
  rw [← reached.rip] at callHere
  obtain ⟨behind, lands⟩ := reached.lands reaches
  have pushed : Reached ptr cpu (here + 5)
      { s with rip := s.rip + 5, memory := store s.memory (s.rsp - 8) 8 (s.rip + 5) } :=
    reached.stored behind reached.rsp (by rw [reached.rsp])
  have dropThere := pushed.code ready fits isDrop targetInside
  have called := runs_call_drop callHere (by omega) (by omega) lands dropThere
  rw [behind, reached.rip, reached.rsp] at called
  exact ⟨_, called, reached.stored (position_add ptr target 4) rfl rfl⟩

/-- The cells of a table of calls that are returned from. -/
theorem runs_calls {start size padding count : Nat} {target : Nat → Nat} {d : Nat → Int}
    (reached : Reached ptr cpu start s) (whole : size = 5 + padding)
    (code : Holds cpu.memory (position ptr start) ((List.range count).flatMap fun i =>
      0xe8 :: littleEndian 4 (BitVec.ofInt 32 (d i)) ++ List.replicate padding 0x90))
    (inside : start + count * size ≤ blob.code.length)
    (reaches : ∀ i < count, ((start + i * size : Nat) : Int) + 5 + d i = target i)
    (isRet : ∀ i < count, Holds cpu.memory (position ptr (target i)) [0xc3])
    (targetInside : ∀ i < count, target i < blob.code.length) :
    ∃ t, Runs step s
        ((List.range count).flatMap fun i => callAndReturn ptr cpu (start + i * size) (target i)) t ∧
      Reached ptr cpu (start + count * size) t := by
  refine Runs.iterate (fun i t => Reached ptr cpu (start + i * size) t) _ ?_ (by simpa using reached)
  -- a turn is a call, its return, and the `nop`s up to the next call
  intro i before t here
  have last : (i + 1) * size ≤ count * size := Nat.mul_le_mul_right size before
  rw [Nat.succ_mul] at last
  have cell := code.cell (fun _ _ => show _ = size by simp [whole]; omega) before
  rw [position_position] at cell
  obtain ⟨call, nops⟩ := holds_append.mp cell
  rw [position_position, List.length_cons, length_littleEndian] at nops
  obtain ⟨t1, called, behind⟩ := here.call_ret ready fits call (by omega) (reaches i before)
    (isRet i before) (targetInside i before)
  obtain ⟨t2, passed, next⟩ := behind.nops ready fits nops (by omega)
  have both := called.trans passed
  rw [List.append_nil] at both
  refine ⟨t2, both, ?_⟩
  rwa [Nat.succ_mul, ← Nat.add_assoc, whole, ← Nat.add_assoc, ← whole]

theorem runs_drops {start size padding count : Nat}
    (reached : Reached ptr cpu start s) (whole : size = 5 + padding + 4)
    (code : Holds cpu.memory (position ptr start) ((List.range count).flatMap fun _ =>
      0xe8 :: littleEndian 4 (BitVec.ofInt 32 padding) ++
        (List.replicate padding 0x90 ++ [0x48, 0x83, 0xc4, 0x08])))
    (inside : start + count * size ≤ blob.code.length) :
    ∃ t, Runs step s ((List.range count).flatMap fun i =>
        [.call (position ptr (start + i * size)) (position ptr (start + i * size + 5 + padding))
          (cpu.rsp - 8)]) t ∧
      Reached ptr cpu (start + count * size) t := by
  refine Runs.iterate (fun i t => Reached ptr cpu (start + i * size) t) _ ?_ (by simpa using reached)
  intro i before t here
  have last : (i + 1) * size ≤ count * size := Nat.mul_le_mul_right size before
  rw [Nat.succ_mul] at last
  have cell := code.cell (fun _ _ => show _ = size by simp [whole]; omega) before
  rw [position_position] at cell
  obtain ⟨call, rest⟩ := holds_append.mp cell
  obtain ⟨-, drop⟩ := holds_append.mp rest
  rw [position_position, position_position, List.length_cons, length_littleEndian,
    List.length_replicate,
    show start + i * size + (4 + 1 + padding) = start + i * size + 5 + padding by omega] at drop
  obtain ⟨t1, called, behind⟩ := here.call_drop ready fits call (by omega)
    (by push_cast; omega) drop (by omega)
  refine ⟨t1, called, ?_⟩
  rwa [Nat.succ_mul, ← Nat.add_assoc, whole, ← Nat.add_assoc, ← Nat.add_assoc, ← whole]

end

/-! ## The events of a run -/

section

variable (pushed : List (Address × Address)) (indices : List Nat)

theorem calls_callAndReturn (source target : Nat → Nat) :
    calls (indices.flatMap fun i => callAndReturn ptr cpu (source i) (target i)) =
      indices.map fun i => (position ptr (source i), position ptr (target i)) := by
  induction indices with
  | nil => rfl
  | cons i indices inductionHypothesis => exact congrArg (List.cons _) inductionHypothesis

theorem ownReturns_callAndReturn (source target : Nat → Nat) :
    OwnReturns pushed (indices.flatMap fun i => callAndReturn ptr cpu (source i) (target i)) := by
  induction indices with
  | nil => trivial
  | cons i indices inductionHypothesis =>
    refine ⟨?_, inductionHypothesis⟩
    exact congrArg (fun next => some (cpu.rsp - 8, next)) (position_add ptr (source i) 5)

theorem calls_drops (source target : Nat → Address) :
    calls (indices.flatMap fun i => [.call (source i) (target i) (cpu.rsp - 8)]) =
      indices.map fun i => (source i, target i) := by
  induction indices with
  | nil => rfl
  | cons i indices inductionHypothesis => exact congrArg (List.cons _) inductionHypothesis

theorem ownReturns_drops (source target : Nat → Address) :
    OwnReturns pushed (indices.flatMap fun i => [.call (source i) (target i) (cpu.rsp - 8)]) := by
  induction indices generalizing pushed with
  | nil => trivial
  | cons i indices inductionHypothesis => exact inductionHypothesis _

end

/-! ## What is filled in -/

/-- `call_dedicated_ret`: a jump over the table of returns to the list of calls. -/
theorem callDedicatedRet_eq (alignment : Int) (count : Nat) {size padding : Nat}
    (whole : size = 5 + padding) (clamped : max 5 alignment = size) :
    callDedicatedRet alignment count Blob.empty =
      layout (List.replicate 58 0x90 ++ [0xc3])
        ((0xe9 :: littleEndian 4 (BitVec.ofInt 32 ↑(count * size))) ++
          (((List.range count).flatMap fun _ => 0xc3 :: List.replicate (4 + padding) 0x90) ++
            (List.range count).flatMap fun _ =>
              0xe8 :: littleEndian 4 (BitVec.ofInt 32 (-((count * size : Nat) : Int) - 5)) ++
                List.replicate padding 0x90))
        [0xc3] [] := by
  have same : (if alignment < 5 then 5 else alignment) = size := by split <;> omega
  have table : ((size : Int) - 1).toNat = 4 + padding := by omega
  have rest : ((size : Int) - 5).toNat = padding := by omega
  have product : (size : Int) * count = ((count * size : Nat) : Int) := by
    push_cast
    ring
  simp only [callDedicatedRet, same, Int.neg_mul, product]
  simp [table, rest, -List.reduceReplicate, -Nat.cast_mul]

/-- `forward_call_without_ret`: calls over the padding in the cell to its last instruction. -/
theorem forwardCallWithoutRet_eq (alignment : Int) (count : Nat) :
    forwardCallWithoutRet alignment count Blob.empty =
      layout (List.replicate 63 0x90 ++ [0xc3])
        ((List.range count).flatMap fun _ =>
          0xe8 :: littleEndian 4 (BitVec.ofInt 32 ↑(alignment - 9).toNat) ++
            (List.replicate (alignment - 9).toNat 0x90 ++ [0x48, 0x83, 0xc4, 0x08]))
        [0xc3] [] := by
  have displacement : (if alignment < 9 then 0 else alignment - 9) = ((alignment - 9).toNat : Int) := by
    split <;> omega
  have rest : alignment - 4 - 5 = alignment - 9 := by omega
  simp [forwardCallWithoutRet, displacement, rest, -List.reduceReplicate]

/-- `call_shared_ret`: calls back to the `ret` before `ptr_fn`. -/
theorem callSharedRet_eq (alignment : Int) (count : Nat) :
    callSharedRet alignment count Blob.empty =
      layout (List.replicate 62 0x90 ++ [0xc3, 0x90])
        ((List.range count).flatMap fun i =>
          0xe8 :: littleEndian 4
              (BitVec.ofInt 32 (-((i * (5 + (alignment - 5).toNat) : Nat) : Int) - 7)) ++
            List.replicate (alignment - 5).toNat 0x90)
        [0xc3] [] := by
  have cell (i : Nat) (reached : Blob)
      (length : reached.code.length = 64 + i * (5 + (alignment - 5).toNat))
      (fn : reached.ptrFn = 64) :
      sharedCell alignment reached =
        reached.extend (0xe8 :: littleEndian 4
            (BitVec.ofInt 32 (-((i * (5 + (alignment - 5).toNat) : Nat) : Int) - 7)) ++
          List.replicate (alignment - 5).toNat 0x90) [] := by
    have displacement : (reached.ptrFn : Int) - (reached.code.length + 1 + 5) - 1 =
        -((i * (5 + (alignment - 5).toNat) : Nat) : Int) - 7 := by
      rw [length, fn]
      push_cast
      omega
    simp [sharedCell, displacement]
  rw [callSharedRet, cells_eq _ (fun i => ?_) cell]
  · simp [-List.reduceReplicate]
  · simp
    omega

/-! ## Whole runs -/

theorem Ready.reached (ready : Ready ptr blob cpu) : Reached ptr cpu blob.ptrFn cpu :=
  ⟨ready.rip, rfl, fun _ _ => rfl⟩

/-- A run that reaches `ptr_ret` returns. -/
theorem Reached.callsAndReturns (ready : Ready ptr blob cpu)
    (fits : blob.code.length ≤ assumedSz) {body : List Event} {t : Cpu}
    (run : Runs step cpu body t) (reached : Reached ptr cpu blob.ptrRet t)
    (isRet : Holds cpu.memory (position ptr blob.ptrRet) [0xc3])
    (inside : blob.ptrRet < blob.code.length) (own : OwnReturns [] body) :
    CallsAndReturns ptr blob cpu (calls body) := by
  obtain ⟨final, returned, rip, rsp⟩ := reached.ret (reached.code ready fits isRet inside)
  exact ⟨body, final, run.trans returned, rfl, own, rip, rsp⟩

section

variable (ready : Ready ptr blob cpu) (fits : blob.code.length ≤ assumedSz) {alignment : Int}
  {count : Nat}
include ready fits

theorem callDedicatedRet_run (filled : callDedicatedRet alignment count Blob.empty = blob)
    {size padding : Nat} (whole : size = 5 + padding) (clamped : max 5 alignment = size) :
    (∀ i < count, Holds cpu.memory (position ptr (blob.ptrFn + 5 + i * size)) [0xc3]) ∧
      CallsAndReturns ptr blob cpu ((List.range count).map fun i =>
        (position ptr (blob.ptrFn + 5 + count * size + i * size),
          position ptr (blob.ptrFn + 5 + i * size))) := by
  rw [callDedicatedRet_eq alignment count whole clamped] at filled
  have tableLength := length_flatMap_range count fun _ _ =>
    show (0xc3 :: List.replicate (4 + padding) (0x90 : Byte)).length = size by simp; omega
  have listLength := length_flatMap_range count fun _ _ =>
    show (0xe8 :: littleEndian 4 (BitVec.ofInt 32 (-((count * size : Nat) : Int) - 5)) ++
      List.replicate padding (0x90 : Byte)).length = size by simp; omega
  have entryLength : (0xe9 :: littleEndian 4 (BitVec.ofInt 32 ↑(count * size))).length = 5 := by simp
  obtain ⟨⟨fn, ret, total⟩, -, body, isRet⟩ := layout_parts ready.code filled
  rw [List.length_append, entryLength, List.length_append, tableLength, listLength] at ret
  rw [List.length_singleton] at total
  rw [holds_append, holds_append, entryLength, tableLength, position_position,
    position_position] at body
  obtain ⟨entry, table, list⟩ := body
  have isTableRet (i : Nat) (before : i < count) :
      Holds cpu.memory (position ptr (blob.ptrFn + 5 + i * size)) [0xc3] := by
    have cell := table.cell (fun _ _ => show _ = size by simp; omega) before
    rw [position_position] at cell
    exact ⟨cell.1, trivial⟩
  refine ⟨isTableRet, ?_⟩
  -- over the table to the calls, each of which comes back through its own entry of it
  obtain ⟨t1, jumped, atList⟩ := ready.reached.jmp ready fits entry (by omega)
    (show _ = ((blob.ptrFn + 5 + count * size : Nat) : Int) by push_cast; omega) (by omega)
  obtain ⟨t2, called, atRet⟩ := runs_calls ready fits atList whole list (by omega)
    (fun i _ => show _ = ((blob.ptrFn + 5 + i * size : Nat) : Int) by push_cast; omega) isTableRet
    (fun i before => by have := Nat.mul_le_mul_right size (Nat.le_of_lt before); omega)
  rw [show blob.ptrFn + 5 + count * size + count * size = blob.ptrRet by omega] at atRet
  have made := atRet.callsAndReturns ready fits (jumped.trans called) isRet (by omega)
    (ownReturns_callAndReturn _ _ _ _)
  have same := @calls_callAndReturn ptr cpu (List.range count)
    (fun i => blob.ptrFn + 5 + count * size + i * size) (fun i => blob.ptrFn + 5 + i * size)
  rwa [List.singleton_append, show calls (.jump _ _ :: _) = _ from same] at made

theorem callSharedRet_run (filled : callSharedRet alignment count Blob.empty = blob) :
    Holds cpu.memory (position ptr (blob.ptrFn - 2)) [0xc3] ∧
      CallsAndReturns ptr blob cpu ((List.range count).map fun i =>
        (position ptr (blob.ptrFn + i * (5 + (alignment - 5).toNat)),
          position ptr (blob.ptrFn - 2))) := by
  rw [callSharedRet_eq] at filled
  generalize (alignment - 5).toNat = padding at filled ⊢
  have length := length_flatMap_range count fun i _ =>
    show (0xe8 :: littleEndian 4 (BitVec.ofInt 32 (-((i * (5 + padding) : Nat) : Int) - 7)) ++
      List.replicate padding (0x90 : Byte)).length = 5 + padding by simp; omega
  obtain ⟨⟨fn, ret, total⟩, entry, cells, isRet⟩ := layout_parts ready.code filled
  have start : blob.ptrFn = 64 := fn
  rw [length] at ret
  rw [List.length_singleton] at total
  -- the shared `ret` is the last but one byte before `ptr_fn`
  have shared : Holds cpu.memory (position ptr (blob.ptrFn - 2)) [0xc3] := by
    rw [start]
    exact ⟨(holds_append.mp entry).2.1, trivial⟩
  refine ⟨shared, ?_⟩
  obtain ⟨t, ran, atRet⟩ := runs_calls ready fits ready.reached rfl cells (by omega)
    (fun i _ => show _ = ((blob.ptrFn - 2 : Nat) : Int) by rw [start]; push_cast; omega)
    (fun _ _ => shared) (fun _ _ => by omega)
  rw [← ret] at atRet
  have made := atRet.callsAndReturns ready fits ran isRet (by omega)
    (ownReturns_callAndReturn _ _ _ _)
  rwa [calls_callAndReturn] at made

theorem forwardCallWithoutRet_run (filled : forwardCallWithoutRet alignment count Blob.empty = blob) :
    CallsAndReturns ptr blob cpu ((List.range count).map fun i =>
      (position ptr (blob.ptrFn + i * (5 + (alignment - 9).toNat + 4)),
        position ptr (blob.ptrFn + i * (5 + (alignment - 9).toNat + 4) + 5 +
          (alignment - 9).toNat))) := by
  rw [forwardCallWithoutRet_eq] at filled
  generalize (alignment - 9).toNat = padding at filled ⊢
  have length := length_flatMap_range count fun _ _ =>
    show (0xe8 :: littleEndian 4 (BitVec.ofInt 32 padding) ++
      (List.replicate padding (0x90 : Byte) ++ [0x48, 0x83, 0xc4, 0x08])).length =
        5 + padding + 4 by simp; omega
  obtain ⟨⟨fn, ret, total⟩, -, cells, isRet⟩ := layout_parts ready.code filled
  rw [length] at ret
  rw [List.length_singleton] at total
  obtain ⟨t, ran, atRet⟩ := runs_drops ready fits ready.reached rfl cells (by omega)
  rw [← ret] at atRet
  have made := atRet.callsAndReturns ready fits ran isRet (by omega) (ownReturns_drops _ _ _ _)
  rwa [calls_drops] at made

end

/-- The benchmarks of calls make `cycle_count` calls and return. -/
theorem calls_return {alignment cycleCount : Int} (counted : 0 ≤ cycleCount) {type : String}
    {blob : Blob} (filled : blobFillCode alignment cycleCount type = some blob)
    (isCall : type = "call_dedicated_ret" ∨ type = "call_shared_ret" ∨
      type = "forward_call_without_ret")
    (fits : blob.code.length ≤ assumedSz) {ptr : Address} {cpu : Cpu} (ready : Ready ptr blob cpu) :
    ∃ made, CallsAndReturns ptr blob cpu made ∧ (made.length : Int) = cycleCount ∧
      (type = "call_dedicated_ret" → ∀ i (inside : i < made.length),
        made[i].2 = tableRet ptr blob alignment i ∧
          Holds cpu.memory (tableRet ptr blob alignment i) [0xc3]) ∧
      (type = "call_shared_ret" → Holds cpu.memory (sharedRet ptr blob) [0xc3] ∧
        ∀ call ∈ made, call.2 = sharedRet ptr blob) := by
  obtain ⟨count, rfl⟩ := Int.eq_ofNat_of_zero_le counted
  replace filled := fillType_of_filled filled
  obtain rfl | rfl | rfl := isCall
  · obtain ⟨padding, whole⟩ : ∃ padding, (max 5 alignment).toNat = 5 + padding :=
      Nat.exists_eq_add_of_le (by omega)
    obtain ⟨table, run⟩ := callDedicatedRet_run ready fits filled whole (by omega)
    refine ⟨_, run, by simp, fun _ i inside => ?_, fun other => absurd other (by decide)⟩
    have before : i < count := by simpa using inside
    exact ⟨by simp [tableRet], table i before⟩
  · obtain ⟨shared, run⟩ := callSharedRet_run ready fits filled
    refine ⟨_, run, by simp, fun other => absurd other (by decide), fun _ => ⟨shared, ?_⟩⟩
    simp [sharedRet]
  · have run := forwardCallWithoutRet_run ready fits filled
    exact ⟨_, run, by simp, fun other => absurd other (by decide),
      fun other => absurd other (by decide)⟩

theorem calls_return_two : ∃ blob made, blobFillCode 6 2 "call_dedicated_ret" = some blob ∧
    CallsAndReturns fixedAddr blob (loaded blob) made ∧ (made.length : Int) = 2 := by
  have filled : blobFillCode 6 2 "call_dedicated_ret" =
      some (callDedicatedRet 6 2 Blob.empty) := by decide +kernel
  have fits : (callDedicatedRet 6 2 Blob.empty).code.length ≤ assumedSz := by decide +kernel
  obtain ⟨made, run, length, -⟩ :=
    calls_return (by decide) filled (Or.inl rfl) fits (ready_loaded fits)
  exact ⟨_, made, filled, run, length⟩

end CloudflareBlog.Gadget.X86
