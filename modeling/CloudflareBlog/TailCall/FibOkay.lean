import CloudflareBlog.Lib.X86Asm
import CloudflareBlog.TailCall.Fib

/-!
# The compiled `fib_okay`

What gcc makes of the function that calls itself twice.  The second call is in tail position once its
result is added to a sum, so it becomes a loop; the first call is replaced by the body of the function,
which has such a loop again, and so on: eight loops stand in one another before there is a call.
-/

namespace CloudflareBlog.TailCall.FibOkay

open Lib.Memory Lib.Listing Lib.X86Asm
open Register

/-! ## The listing -/

def slot (displacement : Nat) : Place := .memory .rsp (BitVec.ofNat 64 displacement)

def reg (r : Register) : Place := .register r

def imm (value : BitVec 64) : Source := .immediate value

def from_ (p : Place) : Source := .place p

/-- Saving registers and making room. -/
def prologue : Program Instruction := [
  (0x0, .push r15),
  (0x2, .mov (from_ (reg rdi)) (reg rax)),
  (0x5, .sub (imm 1) (reg rdi)),
  (0x9, .push r14),
  (0xb, .push r13),
  (0xd, .push r12),
  (0xf, .push rbp),
  (0x10, .push rbx),
  (0x11, .sub (imm 0x98) (reg rsp)),
  (0x18, .mov (from_ (reg rdi)) (slot 0)),
  (0x1c, .mov (imm 0) (slot 0x18)),
  (0x25, .cmp (imm 1) (reg rax))]

def test0 : Program Instruction := [(0x2f, .cmp (imm 1) (slot 0))]

/-- The beginnings of the loops in one another, for an argument above one. -/
def enter1 : Program Instruction := [
  (0x3a, .mov (imm 0) (slot 0x20)),
  (0x43, .mov (from_ (slot 0)) (reg rax)),
  (0x47, .sub (imm 1) (reg rax)),
  (0x4b, .mov (from_ (reg rax)) (slot 8)),
  (0x50, .cmp (imm 1) (slot 8)),
  (0x56, .mov (from_ (reg rax)) (slot 0x38))]

def enter2 : Program Instruction := [
  (0x61, .mov (imm 0) (slot 0x28)),
  (0x6a, .mov (from_ (slot 8)) (reg rax)),
  (0x6f, .sub (imm 1) (reg rax)),
  (0x73, .mov (from_ (reg rax)) (slot 0x10)),
  (0x78, .cmp (imm 1) (slot 0x10)),
  (0x7e, .mov (from_ (reg rax)) (slot 0x40))]

def enter3 : Program Instruction := [
  (0x89, .mov (imm 0) (slot 0x30)),
  (0x92, .mov (from_ (slot 0x10)) (reg rax)),
  (0x97, .sub (imm 1) (reg rax)),
  (0x9b, .mov (from_ (reg rax)) (slot 0x48)),
  (0xa0, .mov (from_ (reg rax)) (reg r11))]

def test3 : Program Instruction := [(0xa3, .cmp (imm 1) (reg r11))]

def enter4 : Program Instruction := [
  (0xad, .lea (-1) r11 none rax),
  (0xb1, .xorl rcx rcx),
  (0xb3, .mov (from_ (reg rax)) (slot 0x50)),
  (0xb8, .mov (from_ (reg rax)) (reg rbp))]

def test4 : Program Instruction := [(0xbb, .cmp (imm 1) (reg rbp))]

def enter5 : Program Instruction := [
  (0xc5, .lea (-1) rbp none rsi),
  (0xc9, .xorl r12 r12),
  (0xcc, .mov (from_ (reg rsi)) (reg rdx))]

def test5 : Program Instruction := [(0xcf, .cmp (imm 1) (reg rdx))]

def enter6 : Program Instruction := [
  (0xd9, .lea (-2) rdx none r8),
  (0xdd, .xorl r15 r15),
  (0xe0, .mov (from_ (reg r8)) (reg r9))]

def test6 : Program Instruction := [
  (0xe3, .mov (from_ (reg r9)) (reg rbx)),
  (0xe6, .xorl r13 r13),
  (0xe9, .test r9 r9)]

def enter7 : Program Instruction := [
  (0xf2, .mov (from_ (reg rbx)) (reg r10)),
  (0xf5, .xorl r14 r14),
  (0xf8, .cmp (imm 1) (reg rbx))]

def pad : Program Instruction := [(0x102, .nop)]

/-- The innermost loop: the call, with the registers around it saved. -/
def beforeCall : Program Instruction := [
  (0x108, .lea (-1) r10 none rdi),
  (0x10c, .mov (from_ (reg r8)) (slot 0x88)),
  (0x114, .mov (from_ (reg rsi)) (slot 0x80)),
  (0x11c, .mov (from_ (reg r9)) (slot 0x78)),
  (0x121, .mov (from_ (reg rdx)) (slot 0x70)),
  (0x126, .mov (from_ (reg r11)) (slot 0x68)),
  (0x12b, .mov (from_ (reg rcx)) (slot 0x60)),
  (0x130, .mov (from_ (reg r10)) (slot 0x58))]

def afterCall : Program Instruction := [
  (0x13a, .mov (from_ (slot 0x58)) (reg r10)),
  (0x13f, .mov (from_ (slot 0x60)) (reg rcx)),
  (0x144, .add (from_ (reg rax)) (reg r14)),
  (0x147, .mov (from_ (slot 0x68)) (reg r11)),
  (0x14c, .mov (from_ (slot 0x70)) (reg rdx)),
  (0x151, .sub (imm 2) (reg r10)),
  (0x155, .mov (from_ (slot 0x78)) (reg r9)),
  (0x15a, .mov (from_ (slot 0x80)) (reg rsi)),
  (0x162, .cmp (imm 1) (reg r10)),
  (0x166, .mov (from_ (slot 0x88)) (reg r8))]

def leave8 : Program Instruction := [(0x170, .add (imm 1) (reg r14))]

/-- A value is added to the sum of its loop; then the loop goes on or is left. -/
def add7 : Program Instruction := [
  (0x174, .lea (-2) rbx none rax),
  (0x178, .sub (imm 1) (reg rbx)),
  (0x17c, .add (from_ (reg r14)) (reg r13)),
  (0x17f, .cmp (imm 1) (reg rbx))]

def again7 : Program Instruction := [
  (0x189, .mov (from_ (reg rax)) (reg rbx)),
  (0x18c, .xorl r14 r14),
  (0x18f, .mov (from_ (reg rbx)) (reg r10)),
  (0x192, .cmp (imm 1) (reg rbx))]

def one7 : Program Instruction := [(0x19c, .movl 1 r14)]

def one5 : Program Instruction := [
  (0x1a4, .movl 1 r15),
  (0x1aa, .mov (imm 0xffffffffffffffff) (reg r8))]

def add5 : Program Instruction := [
  (0x1b1, .sub (imm 1) (reg rdx)),
  (0x1b5, .add (from_ (reg r15)) (reg r12)),
  (0x1b8, .cmp (imm 1) (reg rdx))]

def again5 : Program Instruction := [(0x1be, .mov (from_ (reg r8)) (reg rdx))]

def leave5 : Program Instruction := [(0x1c6, .add (imm 1) (reg r12))]

def add4 : Program Instruction := [
  (0x1ca, .add (from_ (reg r12)) (reg rcx)),
  (0x1cd, .sub (imm 2) (reg rbp)),
  (0x1d1, .cmp (imm 1) (reg rsi))]

def leave4 : Program Instruction := [(0x1db, .add (imm 1) (reg rcx))]

def add3 : Program Instruction := [
  (0x1df, .add (from_ (reg rcx)) (slot 0x30)),
  (0x1e4, .sub (imm 2) (reg r11)),
  (0x1e8, .cmp (imm 1) (slot 0x50))]

def leave3 : Program Instruction := [
  (0x1f4, .mov (from_ (slot 0x30)) (reg rax)),
  (0x1f9, .add (imm 1) (reg rax))]

def add2 : Program Instruction := [
  (0x1fd, .add (from_ (reg rax)) (slot 0x28)),
  (0x202, .mov (from_ (slot 0x10)) (reg rax)),
  (0x207, .sub (imm 2) (reg rax)),
  (0x20b, .cmp (imm 1) (slot 0x48))]

def again2 : Program Instruction := [
  (0x213, .mov (from_ (reg rax)) (slot 0x10)),
  (0x218, .cmp (imm 1) (slot 0x10))]

def one2 : Program Instruction := [
  (0x224, .mov (imm 0) (slot 0x48)),
  (0x22d, .movl 1 rax)]

def one6 : Program Instruction := [(0x238, .movl 1 r13)]

def add6 : Program Instruction := [
  (0x23e, .add (from_ (reg r13)) (reg r15)),
  (0x241, .lea (-2) r9 none rax),
  (0x245, .cmp (imm 1) (reg r9))]

def again6 : Program Instruction := [(0x24b, .mov (from_ (reg rax)) (reg r9))]

def leave6 : Program Instruction := [(0x258, .add (imm 1) (reg r15))]

def leave7 : Program Instruction := [(0x268, .add (imm 1) (reg r13))]

def one4 : Program Instruction := [
  (0x26e, .movl 1 r12),
  (0x274, .xorl rsi rsi)]

def one3 : Program Instruction := [
  (0x27b, .mov (imm 0) (slot 0x50)),
  (0x284, .movl 1 rcx)]

def leave2 : Program Instruction := [
  (0x28e, .mov (from_ (slot 0x28)) (reg rax)),
  (0x293, .add (imm 1) (reg rax))]

def add1 : Program Instruction := [
  (0x297, .add (from_ (reg rax)) (slot 0x20)),
  (0x29c, .mov (from_ (slot 8)) (reg rax)),
  (0x2a1, .sub (imm 2) (reg rax)),
  (0x2a5, .cmp (imm 1) (slot 0x40))]

def again1 : Program Instruction := [
  (0x2ad, .mov (from_ (reg rax)) (slot 8)),
  (0x2b2, .cmp (imm 1) (slot 8))]

def one1 : Program Instruction := [
  (0x2be, .mov (imm 0) (slot 0x40)),
  (0x2c7, .movl 1 rax)]

def leave1 : Program Instruction := [
  (0x2ce, .mov (from_ (slot 0x20)) (reg rax)),
  (0x2d3, .add (imm 1) (reg rax))]

def add0 : Program Instruction := [
  (0x2d7, .add (from_ (reg rax)) (slot 0x18)),
  (0x2dc, .mov (from_ (slot 0)) (reg rax)),
  (0x2e0, .sub (imm 2) (reg rax)),
  (0x2e4, .cmp (imm 1) (slot 0x38))]

def again0 : Program Instruction := [
  (0x2ec, .mov (from_ (reg rax)) (slot 0)),
  (0x2f0, .cmp (imm 1) (slot 0))]

def one0 : Program Instruction := [
  (0x2fb, .mov (imm 0) (slot 0x38)),
  (0x304, .movl 1 rax)]

def leave0 : Program Instruction := [
  (0x30b, .mov (from_ (slot 0x18)) (reg rax)),
  (0x310, .add (imm 1) (reg rax))]

/-- Giving the room back and the registers their contents. -/
def epilogue : Program Instruction := [
  (0x314, .add (imm 0x98) (reg rsp)),
  (0x31b, .pop rbx),
  (0x31c, .pop rbp),
  (0x31d, .pop r12),
  (0x31f, .pop r13),
  (0x321, .pop r14),
  (0x323, .pop r15)]

def small : Program Instruction := [(0x326, .movl 1 rax)]

/-- `fib_okay.x86-64.disasm`.  The call still has its own end for a target; the linker puts `fib`. -/
def listing : Program Instruction :=
  prologue ++ (0x29, .j .be 0x326) :: test0 ++ (0x34, .j .e 0x2fb) :: enter1 ++
  (0x5b, .j .e 0x2be) :: enter2 ++ (0x83, .j .e 0x224) :: enter3 ++ test3 ++
  (0xa7, .j .e 0x27b) :: enter4 ++ test4 ++ (0xbf, .j .e 0x26e) :: enter5 ++ test5 ++
  (0xd3, .j .e 0x1a4) :: enter6 ++ test6 ++ (0xec, .j .e 0x238) :: enter7 ++
  (0xfc, .j .e 0x19c) :: pad ++ beforeCall ++ (0x135, .call 0x0) :: afterCall ++
  (0x16e, .j .a 0x108) :: leave8 ++ add7 ++ (0x183, .j .be 0x268) :: again7 ++
  (0x196, .j .ne 0x108) :: one7 ++ (0x1a2, .jmp 0x174) :: one5 ++ add5 ++
  (0x1bc, .j .be 0x1c6) :: again5 ++ (0x1c1, .jmp 0xcf) :: leave5 ++ add4 ++
  (0x1d5, .j .a 0xbb) :: leave4 ++ add3 ++ (0x1ee, .j .a 0xa3) :: leave3 ++ add2 ++
  (0x211, .j .be 0x28e) :: again2 ++ (0x21e, .j .ne 0x89) :: one2 ++
  (0x232, .jmp 0x1fd) :: (0x234, .nop) :: one6 ++ add6 ++ (0x249, .j .be 0x258) :: again6 ++
  (0x24e, .jmp 0xe3) :: (0x253, .nop) :: leave6 ++ (0x25c, .jmp 0x1b1) :: (0x261, .nop) ::
  leave7 ++ (0x26c, .jmp 0x23e) :: one4 ++ (0x276, .jmp 0x1ca) :: one3 ++
  (0x289, .jmp 0x1df) :: leave2 ++ add1 ++ (0x2ab, .j .be 0x2ce) :: again1 ++
  (0x2b8, .j .ne 0x61) :: one1 ++ (0x2cc, .jmp 0x297) :: leave1 ++ add0 ++
  (0x2ea, .j .be 0x30b) :: again0 ++ (0x2f5, .j .ne 0x3a) :: one0 ++
  (0x309, .jmp 0x2d7) :: leave0 ++ epilogue ++ (0x325, .ret) :: small ++ [(0x32b, .jmp 0x314)]

end CloudflareBlog.TailCall.FibOkay
