import CloudflareBlog.Mmuniq.Csiphash

/-!
# `siphash.c`

The same code as in `csiphash.c`, with the key in memory, once with the double rounds of SipHash and once
with single ones, of which 32 bits are taken.
-/

namespace CloudflareBlog.KernelFuzzing

open Lib.Buffer (Byte)
open Lib.Memory Lib.SipHash
open Mmuniq.Csiphash (final final_eq doubleRound doubleRound_eq)

/-! ## The code -/

/-- `ROUND`. -/
def singleRound (v : State) : State :=
  let (v0, v1, v2, v3) := half 13 16 v.v0 v.v1 v.v2 v.v3
  let (v2, v1, v0, v3) := half 17 21 v2 v1 v0 v3
  ⟨v0, v1, v2, v3⟩

/-- The code of both functions; `key` is what the pointer to the key points to. -/
def keyed (rounds : State → State) (memory : Bytes) (src : Address) (srcSz : Nat) (key : Bytes) :
    Word :=
  let k0 : Word := load key 0 8
  let k1 : Word := load key 8 8
  let v := final rounds memory src srcSz k0 k1
  (v.v0 ^^^ v.v1) ^^^ (v.v2 ^^^ v.v3)

def siphash24 (memory : Bytes) (src : Address) (srcSz : Nat) (key : Bytes) : Word :=
  keyed doubleRound memory src srcSz key

def hsiphash (memory : Bytes) (src : Address) (srcSz : Nat) (key : Bytes) : BitVec 32 :=
  (keyed singleRound memory src srcSz key).setWidth 32

/-- `siphash_key`. -/
def siphashKey : Bytes := fun a => if a.toNat < 16 then a.setWidth 8 else 0

def hsiphashStatic (memory : Bytes) (src : Address) (srcSz : Nat) : BitVec 32 :=
  hsiphash memory src srcSz siphashKey

/-! ## The hashes -/

theorem keyed_eq {c : Nat} {rounds : State → State} (same : rounds = sipRound^[c]) (memory : Bytes)
    (src : Address) (srcSz : Nat) (key : Bytes) :
    keyed rounds memory src srcSz key =
      hash c (c + c) (load key 0 8) (load key 8 8) (bytesAt memory src srcSz) := by
  rw [keyed, final_eq _ same]
  rfl

/-- For a message anywhere in memory, the functions compute SipHash of its bytes with the two words of
the key, with two and four rounds and with one and two. -/
theorem siphash24_hsiphash_eq (memory : Bytes) (src : Address) (srcSz : Nat) (key : Bytes) :
    siphash24 memory src srcSz key =
        hash 2 4 (load key 0 8) (load key 8 8) (bytesAt memory src srcSz) ∧
      hsiphash memory src srcSz key =
        (hash 1 2 (load key 0 8) (load key 8 8) (bytesAt memory src srcSz)).setWidth 32 :=
  ⟨keyed_eq doubleRound_eq memory src srcSz key,
    congrArg (BitVec.setWidth 32) (keyed_eq (c := 1) rfl memory src srcSz key)⟩

/-- The hash of a position of the trace, which is in memory as a number of 64 bits. -/
def locHash (currentLoc : BitVec 64) : BitVec 64 :=
  (hsiphashStatic (store (fun _ => 0) 0 8 currentLoc) 0 8).setWidth 64

end CloudflareBlog.KernelFuzzing
