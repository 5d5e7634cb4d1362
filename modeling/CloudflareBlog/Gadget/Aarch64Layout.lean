import CloudflareBlog.Gadget.Aarch64

/-!
# The words of the benchmarks for aarch64

The bytes of a branch are put one by one.  Together they are the opcode and the displacement in
words, as long as the displacement fits into what the bytes leave room for.
-/

namespace CloudflareBlog.Gadget.Aarch64

open CloudflareBlog.Lib.Buffer CloudflareBlog.Lib.Memory

/-! ## Branch words -/

theorem littleEndian_four (value : BitVec 32) :
    littleEndian 4 value = [value.extractLsb' 0 8, value.extractLsb' 8 8, value.extractLsb' 16 8,
      value.extractLsb' 24 8] := rfl

theorem toNat_append_eq {high low : Nat} (a : BitVec high) (b : BitVec low) :
    (a ++ b).toNat = a.toNat * 2 ^ low + b.toNat := by
  rw [BitVec.toNat_append, ← Nat.shiftLeft_add_eq_or_of_lt b.isLt, Nat.shiftLeft_eq]

theorem toNat_byte (value : BitVec 32) (shift : Nat) :
    (value.extractLsb' shift 8).toNat = value.toNat / 2 ^ shift % 2 ^ 8 := by
  rw [BitVec.extractLsb'_toNat, Nat.shiftRight_eq_div_pow]

theorem bytes_eq_word {bytes : List Byte} {word : BitVec 32}
    (same : bytes.map BitVec.toNat =
      [word.toNat % 2 ^ 8, word.toNat / 2 ^ 8 % 2 ^ 8, word.toNat / 2 ^ 16 % 2 ^ 8,
        word.toNat / 2 ^ 24 % 2 ^ 8]) : bytes = littleEndian 4 word := by
  refine List.map_injective_iff.mpr (fun _ _ => BitVec.eq_of_toNat_eq) (same.trans ?_)
  rw [littleEndian_four]
  simp only [List.map_cons, List.map_nil, toNat_byte]
  norm_num

theorem putQ3_word {y : Int} {opcode : BitVec 6} {last : Byte}
    (low : -(2 ^ 24) ≤ y) (high : y < 2 ^ 24)
    (top : last.toNat = opcode.toNat * 4 + if 0 ≤ y then 0 else 3) :
    (littleEndian 4 (BitVec.ofInt 32 y)).take 3 ++ [last] =
      littleEndian 4 (opcode ++ BitVec.ofInt 26 y) := by
  have opcodeSmall := opcode.isLt
  apply bytes_eq_word
  rw [toNat_append_eq, littleEndian_four]
  -- the sign shows in the last byte alone, in the two bits below the opcode
  simp only [List.take_succ_cons, List.take_zero, List.cons_append, List.nil_append, List.map_cons,
    List.map_nil, toNat_byte, BitVec.toNat_ofInt, top]
  norm_num
  refine ⟨?_, ?_, ?_, ?_⟩
  · omega
  · omega
  · omega
  · split <;> omega

theorem putB_word {y : Int} (low : 0 ≤ y) (high : y < 2 ^ 8) :
    [BitVec.ofInt 8 y, 0x00, 0x00, 0x14] = littleEndian 4 (0b000101#6 ++ BitVec.ofInt 26 y) := by
  have zero : (0x00 : Byte).toNat = 0 := rfl
  have last : (0x14 : Byte).toNat = 0x14 := rfl
  apply bytes_eq_word
  rw [toNat_append_eq]
  simp only [List.map_cons, List.map_nil, BitVec.toNat_ofInt, zero, last]
  norm_num
  omega

theorem putCond_word {y : Nat} (small : y < 2 ^ 18) :
    [BitVec.ofInt 8 ((BitVec.ofInt 32 y &&& 0x7) <<< 5 ||| 0x1).toNat,
        BitVec.ofInt 8 (BitVec.ofInt 32 y >>> 3).toNat,
        BitVec.ofInt 8 (BitVec.ofInt 32 y >>> 11).toNat, 0x54] =
      littleEndian 4 (0b01010100#8 ++ (BitVec.ofInt 19 y ++ (0#1 ++ 1#4))) := by
  have first : ((BitVec.ofInt 32 y &&& 0x7) <<< 5 ||| 0x1).toNat = y % 8 * 32 + 1 := by
    have number : (BitVec.ofInt 32 y).toNat = y := by
      rw [BitVec.ofInt_natCast, BitVec.toNat_ofNat, Nat.mod_eq_of_lt (by omega)]
    have cut : (BitVec.ofInt 32 y &&& 0x7).toNat = y % 8 := by
      rw [BitVec.toNat_and, number]
      exact Nat.and_two_pow_sub_one_eq_mod y 3
    have shifted : ((BitVec.ofInt 32 y &&& 0x7) <<< 5).toNat = (y % 8) <<< 5 := by
      rw [BitVec.toNat_shiftLeft, cut, Nat.shiftLeft_eq]
      omega
    rw [BitVec.toNat_or, shifted]
    exact (Nat.shiftLeft_add_eq_or_of_lt (by decide : 1 < 2 ^ 5) (y % 8)).symm.trans
      (congrArg (· + 1) (Nat.shiftLeft_eq _ _))
  have last : (0x54 : Byte).toNat = 0x54 := rfl
  apply bytes_eq_word
  rw [toNat_append_eq, toNat_append_eq]
  simp only [List.map_cons, List.map_nil, BitVec.toNat_ofInt, first, last,
    BitVec.toNat_ushiftRight, Nat.shiftRight_eq_div_pow]
  norm_num
  omega

theorem put_b {y : Int} (low : 0 ≤ y) (high : y < 2 ^ 24) (blob : Blob) :
    put 0x14 (putQ3 y blob) = blob.extend (littleEndian 4 (0b000101#6 ++ BitVec.ofInt 26 y)) [] := by
  rw [put_eq, putQ3_eq, extend_extend,
    putQ3_word (by omega) high (show _ = (0b000101#6).toNat * 4 + _ by rw [if_pos low]; rfl)]
  rfl

theorem put_bl {y : Int} (low : -(2 ^ 24) ≤ y) (high : y < 0) (blob : Blob) :
    put 0x97 (putQ3 y blob) = blob.extend (littleEndian 4 (0b100101#6 ++ BitVec.ofInt 26 y)) [] := by
  rw [put_eq, putQ3_eq, extend_extend,
    putQ3_word low (by omega) (show _ = (0b100101#6).toNat * 4 + _ by
      rw [if_neg (by omega)]; rfl)]
  rfl

theorem put_bCond {y : Nat} (small : y < 2 ^ 18) (blob : Blob) :
    (blob |> put ((BitVec.ofInt 32 y &&& 0x7) <<< 5 ||| 0x1).toNat
      |> put (BitVec.ofInt 32 y >>> 3).toNat |> put (BitVec.ofInt 32 y >>> 11).toNat |> put 0x54) =
      blob.extend (littleEndian 4 (0b01010100#8 ++ (BitVec.ofInt 19 y ++ (0#1 ++ 1#4)))) [] := by
  rw [← putCond_word small]
  simp only [put_eq, extend_extend]
  rfl

theorem tdiv_four {a b : Int} (whole : a = 4 * b) : Int.tdiv a 4 = b := by
  rw [whole, Int.mul_tdiv_cancel_left b (by decide)]

theorem putB_eq {alignment : Int} {words : Nat} (whole : alignment = 4 * (1 + words))
    (short : words < 255) (blob : Blob) :
    putB alignment blob =
      blob.extend (littleEndian 4 (0b000101#6 ++ BitVec.ofInt 26 ↑(1 + words))) [] := by
  have quotient : Int.tdiv alignment 4 = ↑(1 + words) := tdiv_four (by omega)
  rw [← putB_word (by omega) (by omega), putB, quotient]
  simp

/-! ## What is filled in -/

section

variable {alignment : Int} {padding count : Nat} (whole : alignment = 4 * (1 + padding))
include whole

theorem clamp_eq : clamp alignment = alignment := if_neg (by omega)

theorem pad_cell (blob : Blob) :
    pad alignment 4 blob = blob.extend (paddingWords padding) (List.replicate padding nopOp) :=
  pad_eq (by omega) blob

/-- `call_dedicated_ret`: a branch over the table of returns to the list of calls. -/
theorem callDedicatedRet_eq (small : alignment * count < 2 ^ 24) :
    ∃ words, callDedicatedRet alignment count Blob.empty =
      layout (paddingWords 5 ++ retOp)
        (stpX30 ++ (littleEndian 4 (0b000101#6 ++ BitVec.ofInt 26 ↑(1 + count * (1 + padding))) ++
          (((List.range count).flatMap fun _ => retOp ++ paddingWords padding) ++
            (((List.range count).flatMap fun _ =>
              littleEndian 4 (0b100101#6 ++ BitVec.ofInt 26 (-↑(count * (1 + padding)))) ++
                paddingWords padding) ++ ldpX30))))
        retOp words := by
  have product : alignment * count = 4 * ((count * (1 + padding) : Nat) : Int) := by
    rw [whole]
    push_cast
    ring
  have table (blob : Blob) := @cells_eq (fun _ blob => blob |> putSeq retOp |> pad alignment 4)
    _ _ count (fun _ _ reached => by rw [putSeq_eq, pad_cell whole, extend_extend]) blob
  have list (blob : Blob) := @cells_eq (fun _ blob =>
      blob |> putQ3 (Int.tdiv (-alignment * count) 4) |> put 0x97 |> pad alignment 4)
    _ _ count (fun i before reached => by
      have positive : 0 < count * (1 + padding) := Nat.mul_pos (by omega) (by omega)
      have quotient : Int.tdiv (-alignment * count) 4 = -↑(count * (1 + padding)) :=
        tdiv_four (by rw [Int.neg_mul, product]; omega)
      rw [quotient, put_bl (by omega) (by omega), pad_cell whole, extend_extend]) blob
  have jump (blob : Blob) : put 0x14 (putQ3 (Int.tdiv (4 + alignment * count) 4) blob) =
      blob.extend (littleEndian 4 (0b000101#6 ++ BitVec.ofInt 26 ↑(1 + count * (1 + padding))))
        [] := by
    have quotient : Int.tdiv (4 + alignment * count) 4 = ↑(1 + count * (1 + padding)) :=
      tdiv_four (by rw [product]; omega)
    rw [quotient, put_b (by omega) (by omega)]
  have entry (blob : Blob) : nops 5 blob = _ := nops_eq 5 blob
  simp only [callDedicatedRet, clamp_eq whole, entry, table, list, jump]
  simp only [putSeq_eq, extend_extend, layout_eq, List.append_assoc]
  exact ⟨_, rfl⟩

/-- `call_shared_ret`: calls back to the `ret` before `ptr_fn`. -/
theorem callSharedRet_eq (small : alignment * count < 2 ^ 24) :
    ∃ words, callSharedRet alignment count Blob.empty =
      layout (paddingWords 6 ++ retOp)
        (stpX30 ++ (((List.range count).flatMap fun i =>
          littleEndian 4 (0b100101#6 ++ BitVec.ofInt 26 (-((2 + i * (1 + padding) : Nat) : Int))) ++
            paddingWords padding) ++ ldpX30))
        retOp words := by
  have product : alignment * count = 4 * ((count * (1 + padding) : Nat) : Int) := by
    rw [whole]
    push_cast
    ring
  have list (blob : Blob) := @cells_eq (fun i blob =>
      blob |> putQ3 (Int.tdiv (-(8 + i * alignment)) 4) |> put 0x97 |> pad alignment 4)
    _ _ count (fun i before reached => by
      have last : (i + 1) * (1 + padding) ≤ count * (1 + padding) := Nat.mul_le_mul_right _ before
      rw [Nat.succ_mul] at last
      have quotient : Int.tdiv (-(8 + (i : Int) * alignment)) 4 =
          -((2 + i * (1 + padding) : Nat) : Int) :=
        tdiv_four (by rw [whole]; push_cast; ring)
      rw [quotient, put_bl (by omega) (by omega), pad_cell whole, extend_extend]) blob
  have entry (blob : Blob) : nops 6 blob = _ := nops_eq 6 blob
  simp only [callSharedRet, clamp_eq whole, entry, list]
  simp only [putSeq_eq, extend_extend, layout_eq, List.append_assoc]
  exact ⟨_, rfl⟩

/-- `je_always_taken`: conditional branches over the padding of each cell. -/
theorem jeAlwaysTaken_eq (short : alignment < 2 ^ 20) :
    ∃ words, jeAlwaysTaken alignment count Blob.empty =
      layout (paddingWords 6 ++ retOp)
        (movCmp ++ (List.range count).flatMap fun _ =>
          littleEndian 4 (0b01010100#8 ++ (BitVec.ofInt 19 ↑(1 + padding) ++ (0#1 ++ 1#4))) ++
            paddingWords padding)
        retOp words := by
  have quotient : Int.tdiv alignment 4 = ↑(1 + padding) := tdiv_four (by omega)
  have list (blob : Blob) := @cells_eq (fun _ blob =>
      blob |> put ((BitVec.ofInt 32 ↑(1 + padding) &&& 0x7) <<< 5 ||| 0x1).toNat
        |> put (BitVec.ofInt 32 ↑(1 + padding) >>> 3).toNat
        |> put (BitVec.ofInt 32 ↑(1 + padding) >>> 11).toNat |> put 0x54 |> pad alignment 4)
    _ _ count (fun _ _ reached => by
      rw [put_bCond (by omega), pad_cell whole, extend_extend]) blob
  have entry (blob : Blob) : nops 6 blob = _ := nops_eq 6 blob
  simp only [jeAlwaysTaken, conditionalBranches, clamp_eq whole, quotient, entry, list]
  simp only [putSeq_eq, extend_extend, layout_eq, List.append_assoc]
  exact ⟨_, rfl⟩

/-- `jmp`: branches over the padding of each cell. -/
theorem jmp_eq (short : padding < 255) :
    ∃ words, jmp alignment count Blob.empty =
      layout (paddingWords 7 ++ retOp)
        ((List.range count).flatMap fun _ =>
          littleEndian 4 (0b000101#6 ++ BitVec.ofInt 26 ↑(1 + padding)) ++ paddingWords padding)
        retOp words := by
  have list (blob : Blob) := @cells_eq (fun _ blob => blob |> putB alignment |> pad alignment 4)
    _ _ count (fun _ _ reached => by
      rw [putB_eq whole short, pad_cell whole, extend_extend]) blob
  have entry (blob : Blob) : nops 7 blob = _ := nops_eq 7 blob
  simp only [jmp, clamp_eq whole, entry, list]
  simp only [putSeq_eq, extend_extend, layout_eq, List.append_assoc]
  exact ⟨_, rfl⟩

/-- The body of the loop of `jmp_weaved`. -/
def weavedCell (alignment : Int) (blob : Blob) : Blob :=
  let (j, blob) := forLoop 0 (if alignment ≥ 8 then 8 else 4) 4 (fun _ => putB alignment) blob
  pad alignment j blob

/-- Two branches a cell, or one where there is room for one only. -/
theorem weavedCell_eq (short : padding < 255) (reached : Blob) :
    weavedCell alignment reached = reached.extend
      (littleEndian 4 (0b000101#6 ++ BitVec.ofInt 26 ↑(1 + padding)) ++
        if padding = 0 then []
        else littleEndian 4 (0b000101#6 ++ BitVec.ofInt 26 ↑(1 + padding)) ++
          paddingWords (padding - 1))
      (List.replicate (padding - 1) nopOp) := by
  unfold weavedCell
  by_cases single : padding = 0
  · rw [if_neg (by omega), if_pos single, forLoop_word]
    simp only [putB_eq whole short]
    rw [pad_cell whole, extend_extend, single]
    simp [paddingWords]
  · rw [if_pos (by omega), if_neg single, forLoop_words]
    simp only [putB_eq whole short]
    rw [extend_extend, @pad_eq _ _ (padding - 1) (by omega), extend_extend, List.append_assoc]
    rfl

theorem jmpWeaved_eq (short : padding < 255) :
    ∃ words, jmpWeaved alignment count Blob.empty =
      layout (paddingWords 7 ++ retOp)
        ((List.range count).flatMap fun _ =>
          littleEndian 4 (0b000101#6 ++ BitVec.ofInt 26 ↑(1 + padding)) ++
            if padding = 0 then []
            else littleEndian 4 (0b000101#6 ++ BitVec.ofInt 26 ↑(1 + padding)) ++
              paddingWords (padding - 1))
        (retOp ++ retOp) words := by
  have unfolded : jmpWeaved alignment count Blob.empty =
      (forLoop 0 2 1 (fun _ => putSeq retOp)
        (Blob.empty |> nops 7 |> putSeq retOp |> setFn |>
          cells count (fun _ => weavedCell alignment) |> setRet)).2 := rfl
  have list (blob : Blob) :=
    @cells_eq (fun _ => weavedCell alignment) _ _ count
      (fun _ _ => weavedCell_eq whole short) blob
  have entry (blob : Blob) : nops 7 blob = _ := nops_eq 7 blob
  have rets (blob : Blob) : (forLoop 0 2 1 (fun _ => putSeq retOp) blob).2 =
      blob.extend (retOp ++ retOp) [] := by
    rw [forLoop_extend (by decide) fun _ blob => putSeq_eq blob retOp]
    rfl
  rw [unfolded]
  simp only [entry, list, rets]
  simp only [putSeq_eq, extend_extend, layout_eq]
  exact ⟨_, rfl⟩

end

end CloudflareBlog.Gadget.Aarch64
