import CloudflareBlog.Gadget.Aarch64Branches

/-!
# What the padding does

The words that `nop_op` stands for are not `nop`.  The bytes of `nop` stand the other way round
there, and read as a word they are `fnmadd s21, s30, s0, s0`.  Every benchmark starts with some of
them, so that `blob_warm_itlb`, which calls the benchmark from its start, changes a vector register.
-/

namespace CloudflareBlog.Gadget.Aarch64

open CloudflareBlog.Lib.Buffer CloudflareBlog.Lib.Memory CloudflareBlog.Lib.Machine
open CloudflareBlog.Lib.Armv8

/-- The types that are known. -/
def types : List String :=
  ["call_dedicated_ret", "call_shared_ret", "jne_never_taken", "je_always_taken", "jmp_weaved",
    "jmp"]

/-- Executing the blob up to the return to `link`. -/
inductive Executes (fnmadd : BitVec 32 → BitVec 32 → BitVec 32 → BitVec 32) (ptr : Address)
    (blob : Blob) (link : Address) : Cpu → Cpu → Prop where
  | done {s : Cpu} (returned : s.pc = link) : Executes fnmadd ptr blob link s s
  | next {s t final : Cpu} {events : List Event} (inside : Inside ptr blob.code.length s.pc)
      (stepped : step fnmadd s = some (events, t)) (rest : Executes fnmadd ptr blob link t final) :
      Executes fnmadd ptr blob link s final

/-- No register is changed but `pc` and `w0`. -/
structure Kept (cpu final : Cpu) : Prop where
  sp : final.sp = cpu.sp
  x : ∀ register, register ≠ 0 → register ≠ 31 → final.x register = cpu.x register
  v : ∀ register, final.v register = cpu.v register

/-- The padding is `nop`, and executing the benchmark, from its start or from `ptr_fn`, changes no
other register than it is meant to. -/
structure RegisterFrame (fnmadd : BitVec 32 → BitVec 32 → BitVec 32 → BitVec 32)
    (alignment cycleCount : Int) (type : String) : Prop where
  padding : ∀ blob, blobFillCode alignment cycleCount type = some blob →
    ∀ word ∈ blob.padding, word = littleEndian 4 0xd503201f
  kept : ∀ blob, blobFillCode alignment cycleCount type = some blob →
    ∀ ptr entry cpu final, entry = 0 ∨ entry = blob.ptrFn → Ready ptr blob entry cpu →
      Executes fnmadd ptr blob (cpu.x 30) cpu final → Kept cpu final

/-! ## The start of the benchmarks -/

section

variable {first blob : Blob}

theorem grows_putNop (grows : first.Grows blob) : first.Grows (putNop blob) := by
  rw [putNop_eq]
  exact grows.extend _ _

theorem grows_pad (grows : first.Grows blob) (alignment j : Int) :
    first.Grows (pad alignment j blob) :=
  grows.forLoop (by decide) fun _ _ => grows_putNop

theorem grows_putQ3 (grows : first.Grows blob) (y : Int) : first.Grows (putQ3 y blob) := by
  rw [putQ3_eq]
  exact grows.extend _ _

theorem grows_putB (grows : first.Grows blob) (alignment : Int) :
    first.Grows (putB alignment blob) :=
  (((grows.put _).put _).put _).put _

theorem grows_cells {cell : Int → Blob → Blob} (grows : first.Grows blob) (cycleCount : Int)
    (turn : ∀ i reached, first.Grows reached → first.Grows (cell i reached)) :
    first.Grows (cells cycleCount cell blob) :=
  grows.forLoop (by decide) turn

end

/-- The words of padding that stand before `ptr_fn`, and the `ret` behind them. -/
def prologue (count : Nat) : Blob := Blob.empty |> nops count |> putSeq retOp

theorem prologue_eq (count : Nat) :
    prologue count = ⟨paddingWords count ++ retOp, 0, 0, List.replicate count nopOp⟩ := by
  rw [prologue, nops_eq, putSeq_eq, extend_extend, List.append_nil]
  rfl

section

variable (alignment cycleCount : Int)

theorem grows_callDedicatedRet :
    (prologue 5).Grows (callDedicatedRet alignment cycleCount Blob.empty) := by
  have start := ((Blob.Grows.refl (prologue 5)).setFn).putSeq stpX30
  have jump := (grows_putQ3 start (Int.tdiv (4 + clamp alignment * cycleCount) 4)).put 0x14
  have table := grows_cells jump cycleCount fun _ _ grows =>
    grows_pad (grows.putSeq retOp) (clamp alignment) 4
  have list := grows_cells table cycleCount fun _ _ grows =>
    grows_pad ((grows_putQ3 grows (Int.tdiv (-clamp alignment * cycleCount) 4)).put 0x97)
      (clamp alignment) 4
  exact ((list.putSeq ldpX30).setRet).putSeq retOp

theorem grows_callSharedRet :
    (prologue 6).Grows (callSharedRet alignment cycleCount Blob.empty) := by
  have start := ((Blob.Grows.refl (prologue 6)).setFn).putSeq stpX30
  have list := grows_cells start cycleCount fun i _ grows =>
    grows_pad ((grows_putQ3 grows (Int.tdiv (-(8 + i * clamp alignment)) 4)).put 0x97)
      (clamp alignment) 4
  exact ((list.putSeq ldpX30).setRet).putSeq retOp

theorem grows_conditionalBranches (x cond : BitVec 32) :
    (prologue 6).Grows (conditionalBranches x cond alignment cycleCount Blob.empty) := by
  have start := ((Blob.Grows.refl (prologue 6)).setFn).putSeq movCmp
  have list := grows_cells start cycleCount fun _ _ grows =>
    grows_pad ((((grows.put ((x &&& 0x7) <<< 5 ||| cond).toNat).put (x >>> 3).toNat).put
      (x >>> 11).toNat).put 0x54) alignment 4
  exact list.setRet.putSeq retOp

theorem grows_jmpWeaved :
    (prologue 7).Grows (jmpWeaved alignment cycleCount Blob.empty) := by
  have start := (Blob.Grows.refl (prologue 7)).setFn
  refine Blob.Grows.forLoop (grows_cells start cycleCount ?_).setRet (by decide)
    fun _ _ grows => grows.putSeq retOp
  intro _ _ grows
  exact grows_pad (grows.forLoop (by decide) fun _ _ inner => grows_putB inner alignment) _ _

theorem grows_jmp : (prologue 7).Grows (jmp alignment cycleCount Blob.empty) := by
  have start := (Blob.Grows.refl (prologue 7)).setFn
  have list := grows_cells start cycleCount fun _ _ grows =>
    grows_pad (grows_putB grows (clamp alignment)) (clamp alignment) 4
  exact list.setRet.putSeq retOp

theorem grows_fillType {type : String} (known : type ∈ types) :
    ∃ count, 0 < count ∧ count < 8 ∧
      (prologue count).Grows (fillType alignment cycleCount type Blob.empty) := by
  simp only [types, List.mem_cons, List.not_mem_nil, or_false] at known
  obtain rfl | rfl | rfl | rfl | rfl | rfl := known
  · exact ⟨5, by decide, by decide, grows_callDedicatedRet alignment cycleCount⟩
  · exact ⟨6, by decide, by decide, grows_callSharedRet alignment cycleCount⟩
  · exact ⟨6, by decide, by decide, grows_conditionalBranches _ cycleCount _ _⟩
  · exact ⟨6, by decide, by decide, grows_conditionalBranches _ cycleCount _ _⟩
  · exact ⟨7, by decide, by decide, grows_jmpWeaved alignment cycleCount⟩
  · exact ⟨7, by decide, by decide, grows_jmp alignment cycleCount⟩

end

theorem fillType_unknown {alignment cycleCount : Int} {type : String} (unknown : type ∉ types) :
    fillType alignment cycleCount type Blob.empty = Blob.empty := by
  simp only [types, List.mem_cons, List.not_mem_nil, or_false, not_or] at unknown
  obtain ⟨dedicated, shared, jne, je, weaved, jmp⟩ := unknown
  rw [fillType, if_neg dedicated, if_neg shared, if_neg jne, if_neg je, if_neg weaved, if_neg jmp]
  rfl

/-! ## Executing the start -/

/-- The vector register holds a scalar of 32 bits and nothing above it. -/
def Narrow (cpu : Cpu) (register : BitVec 5) : Prop :=
  ∃ result : BitVec 32, cpu.v register = result.setWidth 128

theorem inside_blob {ptr : Address} {blob : Blob} {offset : Nat} {s : Cpu}
    (pc : s.pc = position ptr offset) (before : offset < blob.code.length)
    (small : offset < 2 ^ 64) : Inside ptr blob.code.length s.pc := by
  rw [pc]
  exact (inside_add_ofNat ptr small).mpr before

theorem executes_prologue (fnmadd) {ptr : Address} {blob : Blob} {count offset : Nat} {s : Cpu}
    (aligned : ptr.toNat % 4 = 0) (whole : offset % 4 = 0) (pc : s.pc = position ptr offset)
    (code : Holds s.memory s.pc (paddingWords count ++ retOp))
    (inside : offset + 4 * count < blob.code.length) (small : offset + 4 * count < 2 ^ 64) :
    ∃ final, Executes fnmadd ptr blob (s.x 30) s final ∧
      (0 < count ∨ Narrow s 21 → Narrow final 21) := by
  -- the first word clears the upper bits of `v21`, and the later ones keep them clear
  induction count generalizing offset s with
  | zero =>
    have here := @inside_blob ptr blob offset s pc (by omega) (by omega)
    have returned := @step_ret fnmadd s (by rw [pc]; exact position_aligned aligned whole) _ rfl code
    refine ⟨_, .next here returned (.done rfl), ?_⟩
    rintro (none | narrow)
    · exact absurd none (Nat.lt_irrefl 0)
    · exact narrow
  | succ count inductionHypothesis =>
    have here := @inside_blob ptr blob offset s pc (by omega) (by omega)
    rw [paddingWords, List.replicate_succ, List.flatten_cons, List.append_assoc, holds_append] at code
    have stepped := @step_fnmaddS fnmadd s (by rw [pc]; exact position_aligned aligned whole)
      0x1f2003d5 21 30 0 0 code.1 (by decide)
    have next : s.pc + 4 = position ptr (offset + 4) := by
      rw [pc]
      exact position_add ptr offset 4
    let result := fnmadd ((s.v 30).setWidth 32) ((s.v 0).setWidth 32) ((s.v 0).setWidth 32)
    have cleared := Function.update_self 21 (result.setWidth 128) s.v
    obtain ⟨final, rest, narrow⟩ := inductionHypothesis (s := { s with
        pc := s.pc + 4
        v := Function.update s.v 21 (result.setWidth 128) })
      (by omega) next code.2 (by omega) (by omega)
    exact ⟨final, .next here stepped rest, fun _ => narrow (Or.inr ⟨result, cleared⟩)⟩

/-- A known benchmark, called at its start, comes back with the upper bits of a vector register
cleared. -/
theorem executes_start (fnmadd) {alignment cycleCount : Int} {type : String} (known : type ∈ types)
    {blob : Blob} (filled : blobFillCode alignment cycleCount type = some blob) {ptr : Address}
    {cpu : Cpu} (ready : Ready ptr blob 0 cpu) :
    ∃ final, Executes fnmadd ptr blob (cpu.x 30) cpu final ∧ Narrow final 21 := by
  obtain ⟨count, positive, few, grows⟩ := grows_fillType alignment cycleCount known
  rw [fillType_of_filled filled, prologue_eq] at grows
  obtain ⟨behind, code⟩ := grows.code
  have held := ready.code
  -- the blob may be longer than memory, but its first words are not
  have length := congrArg List.length code
  have ret : retOp.length = 4 := rfl
  rw [List.length_append, List.length_append, length_paddingWords, ret] at length
  rw [← code, holds_append] at held
  have pc := ready.pc
  rw [position_zero] at pc
  rw [← pc] at held
  obtain ⟨final, executes, narrow⟩ := @executes_prologue fnmadd ptr blob count 0 cpu ready.aligned
    (Nat.zero_mod 4) ready.pc held.1 (by omega) (by omega)
  exact ⟨final, executes, narrow (Or.inl positive)⟩

theorem padding_not_nop {alignment cycleCount : Int} {type : String} (known : type ∈ types)
    {blob : Blob} (filled : blobFillCode alignment cycleCount type = some blob) :
    ∃ word ∈ blob.padding, word ≠ littleEndian 4 0xd503201f := by
  obtain ⟨count, positive, -, grows⟩ := grows_fillType alignment cycleCount known
  rw [fillType_of_filled filled, prologue_eq] at grows
  exact ⟨nopOp, grows.padding.subset (List.mem_replicate.mpr ⟨by omega, rfl⟩), by decide⟩

theorem filled_of_known {alignment cycleCount : Int} {type : String} (known : type ∈ types) :
    ∃ blob, blobFillCode alignment cycleCount type = some blob := by
  obtain ⟨count, -, -, grows⟩ := grows_fillType alignment cycleCount known
  refine ⟨_, Option.ite_none_left_eq_some.mpr ⟨?_, rfl⟩⟩
  rw [prologue_eq] at grows
  have length := grows.code.length_le
  rw [List.length_append, show retOp.length = 4 from rfl] at length
  rw [List.isEmpty_iff_length_eq_zero]
  omega

/-- The padding is `nop` only where there is none.  In a known benchmark it never is, and a call of
its start, whenever there is anything in the upper bits of `v21`, changes it. -/
theorem registerFrame_iff (fnmadd : BitVec 32 → BitVec 32 → BitVec 32 → BitVec 32)
    (alignment cycleCount : Int) (type : String) :
    (RegisterFrame fnmadd alignment cycleCount type ↔ type ∉ types) ∧
      (type ∈ types → ∃ blob, blobFillCode alignment cycleCount type = some blob ∧
        (∃ word ∈ blob.padding, word ≠ littleEndian 4 0xd503201f) ∧
        ∀ ptr cpu, Ready ptr blob 0 cpu → ¬Narrow cpu 21 →
          ∃ final, Executes fnmadd ptr blob (cpu.x 30) cpu final ∧ final.v 21 ≠ cpu.v 21) := by
  refine ⟨⟨fun frame known => ?_, fun unknown => ?_⟩, fun known => ?_⟩
  · obtain ⟨blob, filled⟩ := @filled_of_known alignment cycleCount type known
    obtain ⟨word, among, other⟩ := padding_not_nop known filled
    exact other (frame.padding blob filled word among)
  · have none : blobFillCode alignment cycleCount type = none := by
      rw [blobFillCode, fillType_unknown unknown]
      rfl
    constructor
    · intro blob filled
      rw [none] at filled
      cases filled
    · intro blob filled
      rw [none] at filled
      cases filled
  · obtain ⟨blob, filled⟩ := @filled_of_known alignment cycleCount type known
    refine ⟨blob, filled, padding_not_nop known filled, fun ptr cpu ready wide => ?_⟩
    obtain ⟨final, executes, result, narrow⟩ := executes_start fnmadd known filled ready
    exact ⟨final, executes, fun same => wide ⟨result, same.symm.trans narrow⟩⟩

/-- The warm-up of the smallest benchmark. -/
theorem registerFrame_lost : ¬RegisterFrame (fun a _ _ => a) 4 1 "jmp" := by
  intro frame
  have filled : blobFillCode 4 1 "jmp" = some (jmp 4 1 Blob.empty) := by decide +kernel
  have ready := @ready_loaded (jmp 4 1 Blob.empty) (by decide +kernel) 0
  obtain ⟨final, executes, result, narrow⟩ :=
    executes_start (fun a _ _ => a) (by decide) filled ready
  have kept := (frame.kept _ filled _ _ _ _ (Or.inl rfl) ready executes).v 21
  have bit := congrArg (BitVec.getLsbD · 64) (narrow.symm.trans kept)
  simp [loaded] at bit

end CloudflareBlog.Gadget.Aarch64
