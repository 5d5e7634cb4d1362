import CloudflareBlog.Gadget.X86Calls

/-!
# Running the jumps

The benchmarks of jumps for x86-64.  They write no memory: a state on the way differs from the one
at the start in the address of the next instruction, and for `je` in `ecx` and the zero flag.
-/

namespace CloudflareBlog.Gadget.X86

open CloudflareBlog.Lib.Buffer CloudflareBlog.Lib.Memory CloudflareBlog.Lib.Machine
open CloudflareBlog.Lib.X86

/-- The jumps of a chain through `count` cells. -/
def chain (ptr : Address) (first size count : Nat) : List Event :=
  (List.range count).map fun i =>
    .jump (position ptr (first + i * size)) (position ptr (first + (i + 1) * size))

/-- The run takes the jumps of the chain and no others, and ends with the `ret` at `last`, which
returns to the caller.  No memory is written. -/
def JumpsAndReturns (ptr : Address) (cpu : Cpu) (first size count last : Nat) : Prop :=
  ∃ final,
    Runs step cpu
        (chain ptr first size count ++ [.ret (position ptr last) cpu.rsp (returnAddress cpu)]) final ∧
      final.rip = returnAddress cpu ∧ final.rsp = cpu.rsp + 8 ∧ final.memory = cpu.memory

def firstJump (type : String) (blob : Blob) : Nat :=
  if type = "je_always_taken" then blob.ptrFn + 7 else blob.ptrFn

variable {ptr : Address} {blob : Blob} {cpu : Cpu} {size count : Nat}

/-! ## Chains -/

/-- Jumps with the displacement from each cell to the next. -/
theorem runs_chain {first displacement : Nat} {opcode : Byte} (rip : cpu.rip = position ptr first)
    (isJump : opcode = 0xeb ∨ opcode = 0x74 ∧ cpu.zf = true)
    (code : ∀ i < count, Holds cpu.memory (position ptr (first + i * size))
      [opcode, BitVec.ofInt 8 displacement])
    (whole : size = 2 + displacement) (short : displacement < 2 ^ 7) :
    Runs step cpu (chain ptr first size count)
      { cpu with rip := position ptr (first + count * size) } := by
  have turn (i : Nat) (before : i < count) (t : Cpu)
      (same : t = { cpu with rip := position ptr (first + i * size) }) :
      ∃ u, Runs step t
          [.jump (position ptr (first + i * size)) (position ptr (first + (i + 1) * size))] u ∧
        u = { cpu with rip := position ptr (first + (i + 1) * size) } := by
    subst same
    have lands : position ptr (first + i * size) + 2 + BitVec.ofInt 64 displacement =
        position ptr (first + (i + 1) * size) := by
      rw [show position ptr (first + i * size) + 2 = position ptr (first + i * size + 2) from
        position_add ptr _ 2, Nat.succ_mul]
      exact position_displacement ptr (by push_cast; omega)
    have jumped : step { cpu with rip := position ptr (first + i * size) } =
        some (jump { cpu with rip := position ptr (first + i * size) }
          (position ptr (first + (i + 1) * size))) := by
      -- `jmp` always jumps, `je` because the instructions before the chain have set the flag
      obtain rfl | ⟨rfl, zero⟩ := isJump
      · exact step_jmp8 (code i before) (by omega) (by omega) lands
      · exact @step_je { cpu with rip := position ptr (first + i * size) } _ zero (code i before)
          (by omega) (by omega) _ lands
    exact ⟨_, Runs.of_step jumped, rfl⟩
  obtain ⟨t, ran, rfl⟩ := Runs.iterate _ _ turn (by rw [Nat.zero_mul, Nat.add_zero, ← rip])
  rwa [← List.map_eq_flatMap] at ran

theorem returns_of_chain {first last : Nat} {s : Cpu} {events : List Event}
    (arrives : Runs step cpu events s) (rip : s.rip = position ptr last) (rsp : s.rsp = cpu.rsp)
    (memory : s.memory = cpu.memory) (isRet : Holds cpu.memory (position ptr last) [0xc3])
    (chained : events = chain ptr first size count) :
    JumpsAndReturns ptr cpu first size count last := by
  rw [← memory, ← rip] at isRet
  have returned := step_ret isRet
  rw [memory, rsp, rip] at returned
  have whole := arrives.trans (Runs.of_step returned)
  rw [chained] at whole
  exact ⟨_, whole, rfl, rfl, rfl⟩

/-! ## What is filled in -/

/-- `jmp`: jumps over the padding of each cell. -/
theorem jmp_eq {alignment : Int} {padding : Nat} (whole : alignment = 2 + padding) (count : Nat) :
    jmp alignment count Blob.empty =
      layout (List.replicate 63 0x90 ++ [0xc3])
        ((List.range count).flatMap fun _ =>
          [0xeb, BitVec.ofInt 8 padding] ++ List.replicate padding 0x90)
        [0xc3] [] := by
  have same : (if alignment < 2 then 2 else alignment) = alignment := if_neg (by omega)
  have rest : alignment - 2 = padding := by omega
  simp only [jmp, same, plainCells, rest]
  simp [rest, -List.reduceReplicate]

/-- `je_always_taken`: the same with conditional jumps.  The displacement is cut to a byte. -/
theorem jeAlwaysTaken_eq {alignment : Int} {padding : Nat} (whole : alignment = 2 + padding)
    (count : Nat) :
    jeAlwaysTaken alignment count Blob.empty =
      layout (List.replicate 56 0x90 ++ [0xc3])
        (movMovOp ++ (List.range count).flatMap fun _ =>
          [0x74, BitVec.ofInt 8 padding] ++ List.replicate padding 0x90)
        [0xc3] [] := by
  have rest : alignment - 2 = padding := by omega
  have cut : BitVec.ofInt 8 (0xfe + alignment) = BitVec.ofInt 8 padding := by
    rw [show 0xfe + alignment = padding + 256 by omega, BitVec.ofInt_add]
    simp
  simp [jeAlwaysTaken, conditionalJumps, cut, rest, -List.reduceReplicate]

/-- `jmp_weaved`: two jumps a cell, each to its own place in the next cell. -/
theorem jmpWeaved_eq {alignment : Int} {padding : Nat} (whole : alignment = 4 + padding)
    (count : Nat) :
    jmpWeaved alignment count Blob.empty =
      layout (List.replicate 63 0x90 ++ [0xc3])
        ((List.range count).flatMap fun _ =>
          [0xeb, BitVec.ofInt 8 ↑(2 + padding)] ++
            ([0xeb, BitVec.ofInt 8 ↑(2 + padding)] ++ List.replicate padding 0x90))
        [0xc3, 0x90, 0xc3, 0x90] [] := by
  have enough : alignment ≥ 4 := by omega
  have rest : alignment - 4 = padding := by omega
  have displacement : alignment - 2 = ↑(2 + padding) := by omega
  simp only [jmpWeaved, if_pos enough, displacement]
  simp [rest, -List.reduceReplicate]

/-! ## Whole runs -/

section

variable {alignment : Int} {padding : Nat} (holds : Holds cpu.memory ptr blob.code)
include holds

theorem jmp_run (filled : jmp alignment count Blob.empty = blob) (whole : alignment = 2 + padding)
    (short : padding < 2 ^ 7) (rip : cpu.rip = position ptr blob.ptrFn) :
    JumpsAndReturns ptr cpu blob.ptrFn (2 + padding) count blob.ptrRet := by
  rw [jmp_eq whole] at filled
  have size (i : Nat) (_ : i < count) :
      ([0xeb, BitVec.ofInt 8 padding] ++ List.replicate padding (0x90 : Byte)).length =
        2 + padding := by simp; omega
  obtain ⟨⟨fn, ret, -⟩, -, cells, isRet⟩ := layout_parts holds filled
  rw [length_flatMap_range count size] at ret
  have code (i : Nat) (before : i < count) :
      Holds cpu.memory (position ptr (blob.ptrFn + i * (2 + padding)))
        [0xeb, BitVec.ofInt 8 padding] := by
    have cell := cells.cell size before
    rw [position_position] at cell
    exact (holds_append.mp cell).1
  have chained := runs_chain rip (Or.inl rfl) code rfl short
  exact returns_of_chain chained (by rw [ret]) rfl rfl isRet rfl

theorem jeAlwaysTaken_run (filled : jeAlwaysTaken alignment count Blob.empty = blob)
    (whole : alignment = 2 + padding) (short : padding < 2 ^ 7)
    (rip : cpu.rip = position ptr blob.ptrFn) :
    JumpsAndReturns ptr cpu (blob.ptrFn + 7) (2 + padding) count blob.ptrRet := by
  rw [jeAlwaysTaken_eq whole] at filled
  have size (i : Nat) (_ : i < count) :
      ([0x74, BitVec.ofInt 8 padding] ++ List.replicate padding (0x90 : Byte)).length =
        2 + padding := by simp; omega
  obtain ⟨⟨fn, ret, -⟩, -, body, isRet⟩ := layout_parts holds filled
  have entryLength : movMovOp.length = 7 := rfl
  rw [List.length_append, entryLength, length_flatMap_range count size, ← Nat.add_assoc] at ret
  rw [holds_append, entryLength, position_position] at body
  obtain ⟨entry, cells⟩ := body
  have code (i : Nat) (before : i < count) :
      Holds cpu.memory (position ptr (blob.ptrFn + 7 + i * (2 + padding)))
        [0x74, BitVec.ofInt 8 padding] := by
    have cell := cells.cell size before
    rw [position_position] at cell
    exact (holds_append.mp cell).1
  rw [← rip] at entry
  -- `dec` counts 1 down to 0 and sets the zero flag, so every `je` of the chain is taken
  have zeroed := runs_zero entry
  have behind : cpu.rip + 7 = position ptr (blob.ptrFn + 7) := by
    rw [rip]
    exact position_add ptr blob.ptrFn 7
  have chained := @runs_chain ptr { cpu with rip := cpu.rip + 7, ecx := 0, zf := true } _ count _ _ _
    behind (Or.inr ⟨rfl, rfl⟩) code rfl short
  exact returns_of_chain (zeroed.trans chained) (by rw [ret]) rfl rfl isRet rfl

/-- Both chains of `jmp_weaved`: the second one begins two bytes further on. -/
theorem jmpWeaved_run (filled : jmpWeaved alignment count Blob.empty = blob)
    (whole : alignment = 4 + padding) (short : 2 + padding < 2 ^ 7) {entry : Nat}
    (isEntry : entry = 0 ∨ entry = 2) (rip : cpu.rip = position ptr (blob.ptrFn + entry)) :
    JumpsAndReturns ptr cpu (blob.ptrFn + entry) (4 + padding) count (blob.ptrRet + entry) := by
  rw [jmpWeaved_eq whole] at filled
  have size (i : Nat) (_ : i < count) :
      ([0xeb, BitVec.ofInt 8 ↑(2 + padding)] ++
        ([0xeb, BitVec.ofInt 8 ↑(2 + padding)] ++ List.replicate padding (0x90 : Byte))).length =
          4 + padding := by simp; omega
  obtain ⟨⟨fn, ret, -⟩, -, cells, rets⟩ := layout_parts holds filled
  rw [length_flatMap_range count size] at ret
  have code (i : Nat) (before : i < count) :
      Holds cpu.memory (position ptr (blob.ptrFn + entry + i * (4 + padding)))
        [0xeb, BitVec.ofInt 8 ↑(2 + padding)] := by
    have cell := cells.cell size before
    rw [position_position, holds_append, holds_append, position_position] at cell
    obtain ⟨first, second, -⟩ := cell
    obtain rfl | rfl := isEntry
    · exact first
    · rwa [Nat.add_right_comm]
  -- two returns behind the cells, one for each chain
  have isRet : Holds cpu.memory (position ptr (blob.ptrRet + entry)) [0xc3] := by
    obtain ⟨first, second⟩ : Holds cpu.memory (position ptr blob.ptrRet) [0xc3, 0x90] ∧
        Holds cpu.memory (position (position ptr blob.ptrRet) 2) [0xc3, 0x90] :=
      holds_append.mp rets
    rw [position_position] at second
    obtain rfl | rfl := isEntry
    · exact ⟨first.1, trivial⟩
    · exact ⟨second.1, trivial⟩
  have chained := runs_chain rip (Or.inl rfl) code (by omega) short
  exact returns_of_chain chained (by rw [ret, Nat.add_right_comm]) rfl rfl isRet rfl

end

theorem length_jmpWeaved {alignment : Int} {padding : Nat} (whole : alignment = 4 + padding)
    (filled : jmpWeaved alignment count Blob.empty = blob) :
    blob.code.length = blob.ptrFn + (count * (4 + padding) + 4) := by
  rw [← filled, jmpWeaved_eq whole, length_layout, ptrFn_layout,
    length_flatMap_range count fun i _ => show _ = 4 + padding by simp; omega]
  rfl

/-- The two chains of `jmp_weaved` have no jump in common. -/
theorem chains_apart {ptr : Address} {first size count : Nat} (wide : 4 ≤ size)
    (room : first + count * size < 2 ^ 63) :
    ∀ jump ∈ jumps (chain ptr first size count),
      ∀ warmUp ∈ jumps (chain ptr (first + 2) size count), jump.1 ≠ warmUp.1 := by
  intro jump isJump warmUp isWarmUp same
  simp only [jumps, chain, List.filterMap_map, List.mem_filterMap, List.mem_range,
    Function.comp_apply, Option.some.injEq] at isJump isWarmUp
  obtain ⟨i, before, rfl⟩ := isJump
  obtain ⟨j, behind, rfl⟩ := isWarmUp
  have inside := Nat.mul_le_mul_right size (Nat.le_of_lt before)
  have other := Nat.mul_le_mul_right size (Nat.le_of_lt behind)
  have equal := position_inj ptr (by omega) (by omega) same
  -- the distance of two cells is a multiple of their size, which is never two
  obtain lower | upper := Nat.lt_or_ge j i
  · have := Nat.mul_le_mul_right size (Nat.succ_le_of_lt lower)
    rw [Nat.succ_mul] at this
    omega
  · have := Nat.mul_le_mul_right size upper
    omega

/-- The benchmarks of jumps take `cycle_count` jumps and return.  For `jmp_weaved` so does the
warm-up, and it takes none of the jumps that the benchmark takes. -/
theorem jumps_return {alignment cycleCount : Int} (counted : 0 ≤ cycleCount) {type : String}
    {blob : Blob} (filled : blobFillCode alignment cycleCount type = some blob)
    (isJump : (type = "jmp" ∨ type = "je_always_taken") ∧ 2 ≤ alignment ∨
      type = "jmp_weaved" ∧ 4 ≤ alignment)
    (short : alignment ≤ 129) (fits : blob.code.length ≤ assumedSz) (ptr ptrShadow : Address) :
    (∀ cpu : Cpu, Holds cpu.memory ptr blob.code → cpu.rip = position ptr blob.ptrFn →
      JumpsAndReturns ptr cpu (firstJump type blob) alignment.toNat cycleCount.toNat blob.ptrRet) ∧
    (type = "jmp_weaved" →
      blobWarmIcache ptr ptrShadow blob alignment type = some (position ptr (blob.ptrFn + 2)) ∧
      (∀ cpu : Cpu, Holds cpu.memory ptr blob.code → cpu.rip = position ptr (blob.ptrFn + 2) →
        JumpsAndReturns ptr cpu (blob.ptrFn + 2) alignment.toNat cycleCount.toNat
          (blob.ptrRet + 2)) ∧
      ∀ jump ∈ jumps (chain ptr (firstJump type blob) alignment.toNat cycleCount.toNat),
        ∀ warmUp ∈ jumps (chain ptr (blob.ptrFn + 2) alignment.toNat cycleCount.toNat),
          jump.1 ≠ warmUp.1) := by
  obtain ⟨count, rfl⟩ := Int.eq_ofNat_of_zero_le counted
  replace filled := fillType_of_filled filled
  rw [Int.toNat_natCast]
  obtain ⟨rfl | rfl, low⟩ | ⟨rfl, low⟩ := isJump
  · obtain ⟨padding, whole⟩ := Int.eq_ofNat_of_zero_le (show 0 ≤ alignment - 2 by omega)
    rw [show alignment.toNat = 2 + padding by omega,
      show firstJump "jmp" blob = blob.ptrFn from if_neg (by decide)]
    refine ⟨fun cpu holds rip => ?_, fun other => absurd other (by decide)⟩
    exact jmp_run holds filled (by omega) (by omega) rip
  · obtain ⟨padding, whole⟩ := Int.eq_ofNat_of_zero_le (show 0 ≤ alignment - 2 by omega)
    rw [show alignment.toNat = 2 + padding by omega,
      show firstJump "je_always_taken" blob = blob.ptrFn + 7 from if_pos rfl]
    refine ⟨fun cpu holds rip => ?_, fun other => absurd other (by decide)⟩
    exact jeAlwaysTaken_run holds filled (by omega) (by omega) rip
  · obtain ⟨padding, whole⟩ := Int.eq_ofNat_of_zero_le (show 0 ≤ alignment - 4 by omega)
    rw [show alignment.toNat = 4 + padding by omega,
      show firstJump "jmp_weaved" blob = blob.ptrFn from if_neg (by decide)]
    have length := length_jmpWeaved (show alignment = 4 + padding by omega) filled
    rw [assumedSz] at fits
    refine ⟨fun cpu holds rip => ?_, fun _ => ⟨?_, fun cpu holds rip => ?_, ?_⟩⟩
    · show JumpsAndReturns ptr cpu (blob.ptrFn + 0) (4 + padding) count (blob.ptrRet + 0)
      exact jmpWeaved_run holds filled (by omega) (by omega) (Or.inl rfl) rip
    · rw [blobWarmIcache, if_pos rfl, if_neg (by omega)]
      exact congrArg some (position_add ptr blob.ptrFn 2)
    · exact jmpWeaved_run holds filled (by omega) (by omega) (Or.inr rfl) rip
    · exact chains_apart (by omega) (by omega)

theorem jumps_return_two : ∃ blob, blobFillCode 6 2 "jmp_weaved" = some blob ∧
    JumpsAndReturns fixedAddr (loaded blob) blob.ptrFn 6 2 blob.ptrRet := by
  have chosen : fillType 6 2 "jmp_weaved" = jmpWeaved 6 2 := by simp [fillType]
  have length := @length_jmpWeaved _ 2 6 2 rfl rfl
  have fits : (jmpWeaved 6 2 Blob.empty).code.length ≤ assumedSz := by decide +kernel
  have filled : blobFillCode 6 2 "jmp_weaved" = some (jmpWeaved 6 2 Blob.empty) := by
    rw [blobFillCode, chosen, if_neg]
    rw [List.isEmpty_iff_length_eq_zero, show (2 : Int) = ((2 : Nat) : Int) from rfl, length]
    omega
  have runs := jumps_return (by decide) filled (Or.inr ⟨rfl, by decide⟩) (by decide) fits fixedAddr 0
  exact ⟨_, filled, runs.1 _ (ready_loaded fits).code rfl⟩

end CloudflareBlog.Gadget.X86
