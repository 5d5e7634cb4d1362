import CloudflareBlog.Lib.Memory
import Mathlib.Data.Nat.Digits.Defs

/-!
# SipHash

A keyed hash on four words of 64 bits.  The message is cut into words, of which the last one ends with
the length; each word is mixed in by some rounds, and some more rounds finish the state.  A round can be
undone, so the state behind a message determines the state before it, and with it the key.
-/

namespace CloudflareBlog.Lib.SipHash

open Memory
open Buffer (Byte)

abbrev Word := BitVec 64

@[ext] structure State where
  v0 : Word
  v1 : Word
  v2 : Word
  v3 : Word
  deriving DecidableEq, Repr

/-- The words one after the other. -/
def State.words (v : State) : Fin 4 → Word
  | 0 => v.v0
  | 1 => v.v1
  | 2 => v.v2
  | 3 => v.v3

theorem State.words_injective : Function.Injective State.words := fun _ _ same =>
  State.ext (congrFun same 0) (congrFun same 1) (congrFun same 2) (congrFun same 3)

/-! ## Rounds -/

def rotate (x : Word) (b : Nat) : Word := x <<< b ||| x >>> (64 - b)

/-- The four words `a`, `b`, `c` and `d` behind half a round. -/
def half (s t : Nat) (a b c d : Word) : Word × Word × Word × Word :=
  let a := a + b
  let c := c + d
  let b := rotate b s ^^^ a
  let d := rotate d t ^^^ c
  (rotate a 32, b, c, d)

def unhalf (s t : Nat) (a b c d : Word) : Word × Word × Word × Word :=
  let a := rotate a 32
  let b := rotate (b ^^^ a) (64 - s)
  let d := rotate (d ^^^ c) (64 - t)
  (a - b, b, c - d, d)

/-- A round: the second half has the words in another order. -/
def sipRound (v : State) : State :=
  let (v0, v1, v2, v3) := half 13 16 v.v0 v.v1 v.v2 v.v3
  let (v2, v1, v0, v3) := half 17 21 v2 v1 v0 v3
  ⟨v0, v1, v2, v3⟩

def unround (v : State) : State :=
  let (v2, v1, v0, v3) := unhalf 17 21 v.v2 v.v1 v.v0 v.v3
  let (v0, v1, v2, v3) := unhalf 13 16 v0 v1 v2 v3
  ⟨v0, v1, v2, v3⟩

theorem rotate_rotate (x : Word) {b : Nat} (positive : 0 < b) (less : b < 64) :
    rotate (rotate x b) (64 - b) = x := by
  apply BitVec.eq_of_getLsbD_eq
  intro i inside
  simp only [rotate, BitVec.getLsbD_or, BitVec.getLsbD_shiftLeft, BitVec.getLsbD_ushiftRight,
    show 64 - (64 - b) = b by omega]
  have beyond : x.getLsbD (64 - b + (b + i)) = false := BitVec.getLsbD_of_ge x _ (by omega)
  obtain low | high := Nat.lt_or_ge i (64 - b)
  · simp [low, inside, beyond, show b + i < 64 by omega, show ¬b + i < b by omega]
  · simp [show ¬i < 64 - b by omega, inside, beyond, show i - (64 - b) < 64 by omega,
      show i - (64 - b) < b by omega, show 64 - b + (i - (64 - b)) = i by omega,
      show ¬b + i < 64 by omega]

theorem unhalf_half {s t : Nat} (ps : 0 < s) (ls : s < 64) (pt : 0 < t) (lt : t < 64)
    (a b c d : Word) :
    unhalf s t (half s t a b c d).1 (half s t a b c d).2.1 (half s t a b c d).2.2.1
      (half s t a b c d).2.2.2 = (a, b, c, d) := by
  have back : rotate (rotate (a + b) 32) 32 = a + b := rotate_rotate _ (by decide) (by decide)
  simp only [half, unhalf, back, BitVec.xor_assoc, BitVec.xor_self, BitVec.xor_zero,
    rotate_rotate _ ps ls, rotate_rotate _ pt lt, BitVec.add_sub_cancel]

theorem unround_round (v : State) : unround (sipRound v) = v := by
  have second := unhalf_half (s := 17) (t := 21) (by decide) (by decide) (by decide) (by decide)
  have first := unhalf_half (s := 13) (t := 16) (by decide) (by decide) (by decide) (by decide)
  simp only [unround, sipRound, second, first]

theorem round_injective : Function.Injective sipRound := Function.LeftInverse.injective unround_round

/-! ## Messages -/

/-- The number of bytes with the lowest first. -/
def word (bytes : List Byte) : Word := BitVec.ofNat 64 (Nat.ofDigits 256 (bytes.map BitVec.toNat))

/-- The bytes that are left over for the last word have zeros and the length behind them. -/
def lastWord (length : Nat) (bytes : List Byte) : Word :=
  word (bytes ++ List.replicate (7 - bytes.length) 0 ++ [BitVec.ofNat 8 length])

/-- The words of a message of so many bytes, from some byte of it on. -/
def words (length : Nat) (bytes : List Byte) : List Word :=
  if 8 ≤ bytes.length then word (bytes.take 8) :: words length (bytes.drop 8)
  else [lastWord length bytes]
termination_by bytes.length
decreasing_by
  rw [List.length_drop]
  omega

def start (k0 k1 : Word) : State where
  v0 := k0 ^^^ 0x736f6d6570736575
  v1 := k1 ^^^ 0x646f72616e646f6d
  v2 := k0 ^^^ 0x6c7967656e657261
  v3 := k1 ^^^ 0x7465646279746573

namespace State

def xor0 (m : Word) (v : State) : State := { v with v0 := v.v0 ^^^ m }

def xor2 (m : Word) (v : State) : State := { v with v2 := v.v2 ^^^ m }

def xor3 (m : Word) (v : State) : State := { v with v3 := v.v3 ^^^ m }

end State

/-- A word is mixed in by so many rounds. -/
def mix (c : Nat) (v : State) (m : Word) : State := (sipRound^[c] (v.xor3 m)).xor0 m

def finish (d : Nat) (v : State) : State := sipRound^[d] (v.xor2 0xff)

/-- The state behind a message. -/
def state (c d : Nat) (k0 k1 : Word) (message : List Byte) : State :=
  finish d ((words message.length message).foldl (mix c) (start k0 k1))

def fold (v : State) : Word := (v.v0 ^^^ v.v1) ^^^ (v.v2 ^^^ v.v3)

def hash (c d : Nat) (k0 k1 : Word) (message : List Byte) : Word := fold (state c d k0 k1 message)

/-! ## Keys -/

theorem xor0_injective (m : Word) : Function.Injective (State.xor0 m) :=
  Function.LeftInverse.injective (g := State.xor0 m) fun v => by
    simp only [State.xor0, BitVec.xor_assoc, BitVec.xor_self, BitVec.xor_zero]

theorem xor2_injective (m : Word) : Function.Injective (State.xor2 m) :=
  Function.LeftInverse.injective (g := State.xor2 m) fun v => by
    simp only [State.xor2, BitVec.xor_assoc, BitVec.xor_self, BitVec.xor_zero]

theorem xor3_injective (m : Word) : Function.Injective (State.xor3 m) :=
  Function.LeftInverse.injective (g := State.xor3 m) fun v => by
    simp only [State.xor3, BitVec.xor_assoc, BitVec.xor_self, BitVec.xor_zero]

theorem mix_injective (c : Nat) (m : Word) : Function.Injective (mix c · m) :=
  (xor0_injective m).comp ((round_injective.iterate c).comp (xor3_injective m))

theorem foldl_mix_injective (c : Nat) (ms : List Word) :
    Function.Injective fun v => ms.foldl (mix c) v := by
  induction ms with
  | nil => exact Function.injective_id
  | cons m ms inductionHypothesis => exact inductionHypothesis.comp (mix_injective c m)

theorem finish_injective (d : Nat) : Function.Injective (finish d) :=
  (round_injective.iterate d).comp (xor2_injective 0xff)

/-- Different keys never leave the same state behind a message. -/
theorem state_injective {c d : Nat} {message : List Byte} {k0 k1 l0 l1 : Word}
    (same : state c d k0 k1 message = state c d l0 l1 message) : k0 = l0 ∧ k1 = l1 := by
  have started : start k0 k1 = start l0 l1 := foldl_mix_injective c _ (finish_injective d same)
  exact ⟨(BitVec.xor_left_inj _).mp (congrArg State.v0 started),
    (BitVec.xor_left_inj _).mp (congrArg State.v1 started)⟩

/-! ## Messages in memory -/

/-- So many bytes from an address on. -/
def bytesAt (memory : Bytes) : Address → Nat → List Byte
  | _, 0 => []
  | address, count + 1 => memory address :: bytesAt memory (address + 1) count

variable {memory : Bytes}

@[simp] theorem length_bytesAt (address : Address) (count : Nat) :
    (bytesAt memory address count).length = count := by
  induction count generalizing address with
  | zero => rfl
  | succ count inductionHypothesis => rw [bytesAt, List.length_cons, inductionHypothesis]

theorem bytesAt_add (address : Address) (first second : Nat) :
    bytesAt memory address (first + second) =
      bytesAt memory address first ++ bytesAt memory (address + BitVec.ofNat 64 first) second := by
  induction first generalizing address with
  | zero =>
    rw [Nat.zero_add, bytesAt, List.nil_append]
    congr 1
    exact (add_zero address).symm
  | succ first inductionHypothesis =>
    have address_eq : address + 1 + BitVec.ofNat 64 first = address + BitVec.ofNat 64 (first + 1) := by
      bv_omega
    rw [Nat.succ_add, bytesAt, bytesAt, inductionHypothesis, List.cons_append, address_eq]

theorem toNat_load (address : Address) (size : Nat) :
    (load memory address size).toNat =
      Nat.ofDigits 256 ((bytesAt memory address size).map BitVec.toNat) := by
  induction size with
  | zero => rfl
  | succ size inductionHypothesis =>
    have power : 2 ^ (8 * size) = 256 ^ size := by rw [Nat.pow_mul]
    rw [load, BitVec.toNat_cast, BitVec.toNat_append, inductionHypothesis,
      ← Nat.shiftLeft_add_eq_or_of_lt (inductionHypothesis ▸ (load memory address size).isLt),
      bytesAt_add, List.map_append, Nat.ofDigits_append, Nat.shiftLeft_eq, power, List.length_map,
      length_bytesAt, Nat.add_comm, Nat.mul_comm]
    rfl

theorem load_eq_word (address : Address) : load memory address 8 = word (bytesAt memory address 8) := by
  apply BitVec.eq_of_toNat_eq
  have small := (load memory address 8).isLt
  rw [toNat_load] at small
  rw [toNat_load, word, BitVec.toNat_ofNat]
  exact (Nat.mod_eq_of_lt small).symm

end CloudflareBlog.Lib.SipHash
