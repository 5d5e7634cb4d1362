import CloudflareBlog.Lib.Simd

/-!
# The AES round instruction

`aesenc` is one round of AES encryption as the instruction of that name computes it: shift the rows
of the state, substitute its bytes, mix its columns and add the round key.  Byte `r + 4 * c` of the
register is row `r` of column `c`.
-/

namespace CloudflareBlog.Lib.Aes

open CloudflareBlog.Lib.Buffer CloudflareBlog.Lib.Simd

/-- The substitution box, one 128-bit number for each row of sixteen entries, the first entry in the
lowest byte. -/
def sboxRows : List (BitVec 128) := [
  0x76abd7fe2b670130c56f6bf27b777c63, 0xc072a49cafa2d4adf04759fa7dc982ca,
  0x1531d871f1e5a534ccf73f362693fdb7, 0x75b227ebe28012079a059618c323c704,
  0x842fe329b3d63b52a05a6e1b1a2c8309, 0xcf584c4a39becb6a5bb1fc20ed00d153,
  0xa89f3c507f02f94585334d43fbaaefd0, 0xd2f3ff1021dab6bcf5389d928f40a351,
  0x73195d643d7ea7c41744975fec130ccd, 0xdb0b5ede14b8ee4688902a22dc4f8160,
  0x79e4959162acd3c25c2406490a3a32e0, 0x08ae7a65eaf4566ca94ed58d6d37c8e7,
  0x8a8bbd4b1f74dde8c6b4a61c2e2578ba, 0x9e1dc186b95735610ef6034866b53e70,
  0xdf2855cee9871e9b948ed9691198f8e1, 0x16bb54b00f2d99416842e6bf0d89a18c]

/-- `SubBytes` on one byte. -/
def subByte (byte : Byte) : Byte :=
  (sboxRows.getD (byte.toNat / 16) 0).extractLsb' (8 * (byte.toNat % 16)) 8

def shiftRows (state : Lanes 16 8) : Lanes 16 8 := fun lane =>
  state ⟨lane % 4 + 4 * ((lane / 4 + lane % 4) % 4), by omega⟩

/-- Multiplication by `x` in the field of AES. -/
def xtime (byte : Byte) : Byte := (byte <<< 1) ^^^ if byte.msb then 0x1b else 0

def mixColumns (state : Lanes 16 8) : Lanes 16 8 := fun lane =>
  let entry (offset : Nat) : Byte := state ⟨4 * (lane / 4) + (lane + offset) % 4, by omega⟩
  xtime (entry 0) ^^^ xtime (entry 1) ^^^ entry 1 ^^^ entry 2 ^^^ entry 3

/-- `_mm_aesenc_si128`. -/
def aesenc (state roundKey : Lanes 16 8) : Lanes 16 8 :=
  xor (mixColumns fun lane => subByte (shiftRows state lane)) roundKey

end CloudflareBlog.Lib.Aes
