import CloudflareBlog.Lib.Memory
import CloudflareBlog.Lib.SipHash
import Mathlib.Tactic.IntervalCases

/-!
# `csiphash.c`

The hash function of the programs that look for unique lines, as it reads a message of any length and
alignment out of memory: eight bytes at a time, and what is left over by a switch that falls through.
-/

namespace CloudflareBlog.Mmuniq.Csiphash

open Lib.Buffer (Byte)
open Lib.Memory Lib.SipHash

/-! ## The code -/

/-- `DOUBLE_ROUND`. -/
def doubleRound (v : State) : State :=
  let (v0, v1, v2, v3) := half 13 16 v.v0 v.v1 v.v2 v.v3
  let (v2, v1, v0, v3) := half 17 21 v2 v1 v0 v3
  let (v0, v1, v2, v3) := half 13 16 v0 v1 v2 v3
  let (v2, v1, v0, v3) := half 17 21 v2 v1 v0 v3
  ⟨v0, v1, v2, v3⟩

/-- The loop over the whole words, with what is left of `src_sz`, of `in` and of the state. -/
def absorb (rounds : State → State) (memory : Bytes) :
    Nat → Address → State → Nat × Address × State
  | srcSz + 8, input, v =>
    let mi : Word := load memory input 8
    absorb rounds memory srcSz (input + 8) ((rounds (v.xor3 mi)).xor0 mi)
  | srcSz, input, v => (srcSz, input, v)

/-- The variable `t` behind the switch. -/
def tail (memory : Bytes) (m : Address) (srcSz : Nat) : Bytes :=
  let t : Bytes := fun _ => 0
  let put (i : Address) (t : Bytes) : Bytes := Function.update t i (memory (m + i))
  let four (t : Bytes) : Bytes := store t 0 4 (load memory m 4)
  match srcSz with
  | 7 => four (put 4 (put 5 (put 6 t)))
  | 6 => four (put 4 (put 5 t))
  | 5 => four (put 4 t)
  | 4 => four t
  | 3 => put 0 (put 1 (put 2 t))
  | 2 => put 0 (put 1 t)
  | 1 => put 0 t
  | _ => t

/-- The four words at the end, for the macro that the function mixes with. -/
def final (rounds : State → State) (memory : Bytes) (src : Address) (srcSz : Nat) (k0 k1 : Word) :
    State :=
  let b := BitVec.ofNat 64 srcSz <<< 56
  let (rest, input, v) := absorb rounds memory srcSz src (start k0 k1)
  let b := b ||| (load (tail memory input rest) 0 8 : Word)
  let v := (rounds (v.xor3 b)).xor0 b
  let v := v.xor2 0xff
  rounds (rounds v)

/-- `siphash24`, with what it writes to `res` if that is not `NULL`. -/
def siphash24 (memory : Bytes) (src : Address) (srcSz : Nat) (k0 k1 : Word) (res : Bool) :
    Word × Option State :=
  let v := final doubleRound memory src srcSz k0 k1
  if res then (-1, some v) else ((v.v0 ^^^ v.v1) ^^^ (v.v2 ^^^ v.v3), none)

/-! ## The hash -/

variable {c : Nat} {rounds : State → State}

/-- The loop mixes the whole words in, and leaves less than one. -/
theorem foldl_words (memory : Bytes) (same : rounds = sipRound^[c]) (length srcSz : Nat)
    (input : Address) (v : State) :
    (absorb rounds memory srcSz input v).1 < 8 ∧
      (words length (bytesAt memory input srcSz)).foldl (mix c) v =
        mix c (absorb rounds memory srcSz input v).2.2
          (lastWord length (bytesAt memory (absorb rounds memory srcSz input v).2.1
            (absorb rounds memory srcSz input v).1)) := by
  induction srcSz, input, v using absorb.induct rounds memory with
  | case1 srcSz input v mi inductionHypothesis =>
    have cut : bytesAt memory input (srcSz + 8) =
        bytesAt memory input 8 ++ bytesAt memory (input + 8) srcSz := by
      rw [Nat.add_comm, bytesAt_add]
      rfl
    have mixed : mix c v (word (bytesAt memory input 8)) = (rounds (v.xor3 mi)).xor0 mi := by
      rw [← load_eq_word, same]
      rfl
    rw [absorb, words, if_pos (by rw [length_bytesAt]; omega), cut, List.take_left' (length_bytesAt _ _),
      List.drop_left' (length_bytesAt _ _), List.foldl_cons, mixed]
    exact inductionHypothesis
  | case2 srcSz input v small =>
    have less : srcSz < 8 := by
      by_contra more
      exact small (srcSz - 8) (by omega)
    have stopped : absorb rounds memory srcSz input v = (srcSz, input, v) := by
      rw [absorb]
      exact small
    rw [stopped, words, if_neg (by rw [length_bytesAt]; omega)]
    exact ⟨less, rfl⟩

/-- Four bytes at once. -/
theorem store_load (t : Bytes) (m : Address) :
    store t 0#64 4 (load memory m 4) = fun a => if a.toNat < 4 then memory (m + a) else t a := by
  funext a
  simp only [store, Inside, BitVec.sub_zero]
  split
  · apply BitVec.eq_of_getLsbD_eq
    intro bit inside
    have byte : (8 * a.toNat + bit) / 8 = a.toNat := by omega
    rw [BitVec.getLsbD_extractLsb', getLsbD_load, decide_eq_true inside, Bool.true_and,
      decide_eq_true (by omega), Bool.true_and, byte, show (8 * a.toNat + bit) % 8 = bit by omega,
      BitVec.ofNat_toNat, BitVec.setWidth_eq]
  · rfl

/-- What the switch leaves in `t`. -/
theorem bytesAt_tail (m : Address) {rest : Nat} (small : rest < 8) :
    bytesAt (tail memory m rest) 0 8 = bytesAt memory m rest ++ List.replicate (8 - rest) 0 := by
  interval_cases rest
  all_goals simp [bytesAt, tail, store_load, Function.update_apply, BitVec.add_assoc]

theorem word_or {bytes : List Byte} (length : Nat) (seven : bytes.length = 7) :
    BitVec.ofNat 64 length <<< 56 ||| word (bytes ++ [0]) =
      word (bytes ++ [BitVec.ofNat 8 length]) := by
  have lower : Nat.ofDigits 256 (bytes.map BitVec.toNat) < 2 ^ 56 := by
    have less := Nat.ofDigits_lt_base_pow_length (b := 256) (l := bytes.map BitVec.toNat) (by decide)
      fun x listed => by
        obtain ⟨byte, -, rfl⟩ := List.mem_map.mp listed
        exact byte.isLt
    rwa [List.length_map, seven] at less
  apply BitVec.eq_of_toNat_eq
  simp only [word, List.map_append, List.map_cons, List.map_nil, Nat.ofDigits_append,
    Nat.ofDigits_singleton, List.length_map, seven, BitVec.toNat_or, BitVec.toNat_shiftLeft,
    BitVec.toNat_ofNat]
  have top : (length % 2 ^ 64) <<< 56 % 2 ^ 64 = (length % 2 ^ 8) <<< 56 := by
    rw [Nat.shiftLeft_eq, Nat.shiftLeft_eq]
    omega
  have small : Nat.ofDigits 256 (bytes.map BitVec.toNat) % 2 ^ 64 =
      Nat.ofDigits 256 (bytes.map BitVec.toNat) := Nat.mod_eq_of_lt (by omega)
  rw [top, show 256 ^ 7 * (0 : Byte).toNat = 0 from rfl, Nat.add_zero, small,
    ← Nat.shiftLeft_add_eq_or_of_lt lower, Nat.shiftLeft_eq]
  omega

theorem last_eq (input : Address) (length : Nat) {rest : Nat} (small : rest < 8) :
    BitVec.ofNat 64 length <<< 56 ||| (load (tail memory input rest) 0 8 : Word) =
      lastWord length (bytesAt memory input rest) := by
  have seven : (bytesAt memory input rest ++ List.replicate (7 - rest) 0).length = 7 := by
    rw [List.length_append, length_bytesAt, List.length_replicate]
    omega
  have zeros : List.replicate (8 - rest) (0 : Byte) = List.replicate (7 - rest) 0 ++ [0] := by
    rw [← List.replicate_succ', show 7 - rest + 1 = 8 - rest by omega]
  rw [lastWord, length_bytesAt, load_eq_word, bytesAt_tail input small, zeros, ← List.append_assoc,
    word_or length seven]

/-- The words that the code leaves are those of the hash of the bytes of the message. -/
theorem final_eq (memory : Bytes) (same : rounds = sipRound^[c]) (src : Address) (srcSz : Nat)
    (k0 k1 : Word) :
    final rounds memory src srcSz k0 k1 = state c (c + c) k0 k1 (bytesAt memory src srcSz) := by
  obtain ⟨small, mixed⟩ := foldl_words memory same srcSz srcSz src (start k0 k1)
  rw [final, state, length_bytesAt, mixed, ← last_eq _ srcSz small, mix, finish,
    Function.iterate_add_apply, ← same]

theorem doubleRound_eq : doubleRound = sipRound^[2] := rfl

/-- For a message anywhere in memory, the function computes SipHash with two and four rounds of its
bytes; the words in `res` are those that the returned one is folded from. -/
theorem siphash24_eq (memory : Bytes) (src : Address) (srcSz : Nat) (k0 k1 : Word) :
    siphash24 memory src srcSz k0 k1 false = (hash 2 4 k0 k1 (bytesAt memory src srcSz), none) ∧
      siphash24 memory src srcSz k0 k1 true =
        (-1, some (state 2 4 k0 k1 (bytesAt memory src srcSz))) := by
  have words := final_eq memory doubleRound_eq src srcSz k0 k1
  simp only [siphash24, words]
  exact ⟨rfl, rfl⟩

/-- The fifteen bytes from zero on, with the sixteen bytes from zero on for a key. -/
example : (siphash24 (fun a => a.setWidth 8) 0 15 0x0706050403020100 0x0f0e0d0c0b0a0908 false).1 =
    0xa129ca6149be45e5 := by
  decide +kernel

end CloudflareBlog.Mmuniq.Csiphash
