import CloudflareBlog.Mmuniq.Program

/-!
# The length round

`find_nl_and_hash` ends with an AES round whose key is the length of the line, once in each half, and
answers with the exclusive or of the two halves.  A round adds its key last, so the key is in both
halves of the result and cancels: the hash is that of the zero-padded blocks of the line and nothing
else (`finish_keyedLast`).  Lines that differ only in zero bytes at the end have one hash, and the
second of them is taken for a duplicate of the first.
-/

namespace CloudflareBlog.Mmuniq

open CloudflareBlog.Lib.Buffer CloudflareBlog.Lib.Simd CloudflareBlog.Lib.LinearProbing

/-- A round that adds its key at the end. -/
def keyedLast (f : Register → Register) (state roundKey : Register) : Register :=
  xor (f state) roundKey

theorem aesenc_eq_keyedLast : Lib.Aes.aesenc = keyedLast fun state =>
    Lib.Aes.mixColumns fun lane => Lib.Aes.subByte (Lib.Aes.shiftRows state lane) := rfl

/-- The same blocks, padded with zeros, and as many. -/
def SamePadded (line other : List Byte) : Prop :=
  (line.length + 15) / 16 = (other.length + 15) / 16 ∧
    ∀ index, Sse.blockOf line index = Sse.blockOf other index

theorem samePadded_append_zero {line : List Byte} (room : line.length % 16 ≠ 0) :
    SamePadded line (line ++ [0]) := by
  constructor
  · rw [List.length_append, List.length_singleton]
    omega
  · intro index
    funext lane
    simp only [Sse.blockOf, List.getD_eq_getElem?_getD]
    obtain inside | last | beyond := Nat.lt_trichotomy (16 * index + lane) line.length
    · rw [List.getElem?_append_left inside]
    · simp [last]
    · rw [List.getElem?_eq_none (Nat.le_of_lt beyond), List.getElem?_eq_none]
      rw [List.length_append, List.length_singleton]
      omega

section

variable (f : Register → Register)

/-- The length is in both halves, and cancels. -/
theorem finish_keyedLast (hash : Register) (retSz : BitVec 32) :
    Sse.finish (keyedLast f) hash retSz = half (f hash) 0 ^^^ half (f hash) 1 := by
  simp only [Sse.finish, keyedLast, half_xor, half_setEpi64x, if_true,
    if_neg (show ¬ (1 : Fin 2) = 0 by decide)]
  -- the length stands twice in the exclusive or
  calc (half (f hash) 0 ^^^ retSz.signExtend 64) ^^^ (half (f hash) 1 ^^^ retSz.signExtend 64)
      = (half (f hash) 0 ^^^ half (f hash) 1) ^^^ (retSz.signExtend 64 ^^^ retSz.signExtend 64) := by
        ac_rfl
    _ = half (f hash) 0 ^^^ half (f hash) 1 := by
        rw [BitVec.xor_self, BitVec.xor_zero]

theorem lineHash_of_samePadded {line other : List Byte} (same : SamePadded line other) :
    Sse.lineHash (keyedLast f) line = Sse.lineHash (keyedLast f) other := by
  obtain ⟨count, blocks⟩ := same
  simp only [Sse.lineHash, finish_keyedLast, Sse.absorbed, blocks, count]

theorem hashInsert_twice {h : BitVec 64} {bm : Slots} {sizeMask : SizeMask} (nonzero : h ≠ 0)
    (new : (hashInsert h bm sizeMask.mask).1 = 1) :
    (hashInsert h (hashInsert h bm sizeMask.mask).2 sizeMask.mask).1 = 0 := by
  obtain ⟨slot, free⟩ := hashInsert_eq_one.mp new
  rw [snd_hashInsert, hashInsert_eq_zero]
  exact Scheme.holds_insert nonzero (by rw [free]; nofun)

/-- Two lines with the same padded blocks have the same hash, wherever they are found; and when the
first is new, the second one is a duplicate and is not printed. -/
theorem length_cancels {memory other : Nat → Byte} {b sz otherB otherSz : Nat}
    (same : SamePadded (lineAt memory b sz) (lineAt other otherB otherSz)) :
    (Sse.findNlAndHash (keyedLast f) memory b sz).2 =
        (Sse.findNlAndHash (keyedLast f) other otherB otherSz).2 ∧
      ∀ (env : Env) (g : Globals),
        let h := (Sse.findNlAndHash (keyedLast f) memory b sz).2
        let otherH := (Sse.findNlAndHash (keyedLast f) other otherB otherSz).2
        let after := flush env (lineAt memory b sz) h g
        env.globalRepeated = false → h ≠ 0 →
        (hashInsert h g.globalBm g.globalSizeMask.mask).1 = 1 →
          (flush env (lineAt other otherB otherSz) otherH after).outBuf = after.outBuf := by
  have hashes : (Sse.findNlAndHash (keyedLast f) memory b sz).2 =
      (Sse.findNlAndHash (keyedLast f) other otherB otherSz).2 := by
    rw [Sse.findNlAndHash_eq, Sse.findNlAndHash_eq]
    exact lineHash_of_samePadded f same
  refine ⟨hashes, ?_⟩
  intro env g h otherH after unrepeated nonzero new
  have known : (hashInsert otherH after.globalBm after.globalSizeMask.mask).1 = 0 := by
    rw [show otherH = h from hashes.symm]
    exact hashInsert_twice nonzero new
  simp [flush, known, prints, unrepeated]

end

/-- `a` and `a` with a zero byte, under the round of the processor. -/
theorem length_cancels_zero_byte :
    (Sse.findNlAndHash Lib.Aes.aesenc (store (fun _ => 0) 0 [97, 10]) 0 2).2 =
      (Sse.findNlAndHash Lib.Aes.aesenc (store (fun _ => 0) 0 [97, 0, 10]) 0 3).2 := by
  have line : lineAt (store (fun _ => 0) 0 [97, 10]) 0 2 = [97] := by decide
  have longer : lineAt (store (fun _ => 0) 0 [97, 0, 10]) 0 3 = [97, 0] := by decide
  have same : SamePadded (lineAt (store (fun _ => 0) 0 [97, 10]) 0 2)
      (lineAt (store (fun _ => 0) 0 [97, 0, 10]) 0 3) := by
    rw [line, longer]
    exact samePadded_append_zero (by decide)
  rw [aesenc_eq_keyedLast]
  exact (length_cancels _ same).1

/-- The two lines have one hash; after the first is printed, the second is dropped. -/
theorem zero_byte_dropped :
    let h := (Sse.findNlAndHash Lib.Aes.aesenc (store (fun _ => 0) 0 [97, 10]) 0 2).2
    let otherH := (Sse.findNlAndHash Lib.Aes.aesenc (store (fun _ => 0) 0 [97, 0, 10]) 0 3).2
    let after := flush (filled 6) [97] h (start (filled 6) ⟨3, 2, rfl⟩).globals
    h = otherH ∧ after.outBuf = [97, 10] ∧
      (flush (filled 6) [97, 0] otherH after).outBuf = [97, 10] := by
  have first : (Sse.findNlAndHash Lib.Aes.aesenc (store (fun _ => 0) 0 [97, 10]) 0 2).2 =
      6352432969020054021 := by decide +kernel
  have second : (Sse.findNlAndHash Lib.Aes.aesenc (store (fun _ => 0) 0 [97, 0, 10]) 0 3).2 =
      6352432969020054021 := by decide +kernel
  simp only [first, second, true_and]
  decide +kernel

end CloudflareBlog.Mmuniq
