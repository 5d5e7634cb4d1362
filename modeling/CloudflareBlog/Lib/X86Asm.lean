import CloudflareBlog.Lib.Listing

/-!
# Instructions of x86-64 in the words of a disassembler

The instructions that a compiler makes of integer code: moves, arithmetic with the flags for unsigned
comparisons, jumps, calls and the stack.  Displacements of jumps are offsets in the listing.
-/

namespace CloudflareBlog.Lib.X86Asm

open Memory Listing

inductive Register where
  | rax | rbx | rcx | rdx | rsi | rdi | rbp | rsp | r8 | r9 | r10 | r11 | r12 | r13 | r14 | r15
  deriving DecidableEq, Repr

/-- What an instruction reads or writes, always 64 bits. -/
inductive Place where
  | register (r : Register)
  /-- `displacement(base)`. -/
  | memory (base : Register) (displacement : Address)
  deriving DecidableEq, Repr

inductive Source where
  | immediate (value : BitVec 64)
  | place (p : Place)
  deriving DecidableEq, Repr

inductive Condition where
  /-- Equal, not equal, above and not above, for unsigned numbers. -/
  | e | ne | a | be
  deriving DecidableEq, Repr

inductive Instruction where
  | push (r : Register)
  | pop (r : Register)
  | mov (source : Source) (destination : Place)
  /-- A move of 32 bits into a register, which clears the upper half. -/
  | movl (value : BitVec 32) (r : Register)
  /-- `xor` of 32 bits. -/
  | xorl (source destination : Register)
  | add (source : Source) (destination : Place)
  | sub (source : Source) (destination : Place)
  | cmp (source : Source) (destination : Place)
  | test (source destination : Register)
  /-- `displacement(base)` and `displacement(base,index,1)`. -/
  | lea (displacement : Address) (base : Register) (index : Option Register) (destination : Register)
  | nop
  | jmp (offset : Address)
  | j (condition : Condition) (offset : Address)
  | call (offset : Address)
  | ret
  deriving DecidableEq, Repr

@[ext] structure Cpu where
  rip : Address
  registers : Register → BitVec 64
  memory : Bytes
  cf : Bool
  zf : Bool

namespace Cpu

variable (s : Cpu)

def address (base : Register) (displacement : Address) : Address := s.registers base + displacement

def get : Place → BitVec 64
  | .register r => s.registers r
  | .memory base displacement => load s.memory (s.address base displacement) 8

def set : Place → BitVec 64 → Cpu
  | .register r, value => { s with registers := Function.update s.registers r value }
  | .memory base displacement, value =>
    { s with memory := store s.memory (s.address base displacement) 8 value }

def read : Source → BitVec 64
  | .immediate value => value
  | .place p => s.get p

def goto (address : Address) : Cpu := { s with rip := address }

/-- The flags of a result and of the carry or borrow behind it. -/
def flags (cf : Bool) (result : BitVec 64) : Cpu := { s with cf := cf, zf := result == 0 }

def holds : Condition → Bool
  | .e => s.zf
  | .ne => !s.zf
  | .a => !(s.cf || s.zf)
  | .be => s.cf || s.zf

def push (value : BitVec 64) : Cpu :=
  let top := s.registers .rsp - 8
  (s.set (.register .rsp) top).set (.memory .rsp 0) value

def pop (r : Register) : Cpu :=
  let top := s.registers .rsp
  (s.set (.register .rsp) (top + 8)).set (.register r) (s.get (.memory .rsp 0))

end Cpu

def effect (next : Address) (i : Instruction) (s : Cpu) : Cpu :=
  match i with
  | .push r => s.push (s.get (.register r))
  | .pop r => s.pop r
  | .mov source destination => s.set destination (s.read source)
  | .movl value r => s.set (.register r) (value.setWidth 64)
  | .xorl source destination =>
    let result := ((s.get (.register destination)).setWidth 32 ^^^
      (s.get (.register source)).setWidth 32).setWidth 64
    (s.set (.register destination) result).flags false result
  | .add source destination =>
    let result := s.get destination + s.read source
    (s.set destination result).flags (result < s.get destination) result
  | .sub source destination =>
    let result := s.get destination - s.read source
    (s.set destination result).flags (s.get destination < s.read source) result
  | .cmp source destination =>
    s.flags (s.get destination < s.read source) (s.get destination - s.read source)
  | .test source destination =>
    s.flags false (s.get (.register destination) &&& s.get (.register source))
  | .lea displacement base index destination =>
    s.set (.register destination) (match index with
      | none => s.address base displacement
      | some r => s.address base displacement + s.get (.register r))
  | .call _ => s.push next
  | .ret => s.set (.register .rsp) (s.registers .rsp + 8)
  | .nop | .jmp _ | .j _ _ => s

def target (base next : Address) (i : Instruction) (s : Cpu) : Address :=
  match i with
  | .jmp offset | .call offset => base + offset
  | .j condition offset => if s.holds condition then base + offset else next
  | .ret => s.get (.memory .rsp 0)
  | _ => next

def straight : Instruction → Bool
  | .jmp _ | .j _ _ | .call _ | .ret => false
  | _ => true

theorem target_straight {i : Instruction} (isStraight : straight i = true) (base next : Address)
    (s : Cpu) : target base next i s = next := by
  cases i <;> first | rfl | exact absurd isStraight Bool.false_ne_true

theorem set_goto (s : Cpu) (address : Address) (p : Place) (value : BitVec 64) :
    (s.goto address).set p value = (s.set p value).goto address := by
  cases p <;> rfl

theorem get_goto (s : Cpu) (address : Address) (p : Place) : (s.goto address).get p = s.get p := by
  cases p <;> rfl

theorem read_goto (s : Cpu) (address : Address) (source : Source) :
    (s.goto address).read source = s.read source := by
  cases source with
  | immediate => rfl
  | place p => exact get_goto s address p

theorem effect_straight {i : Instruction} (isStraight : straight i = true) (next address : Address)
    (s : Cpu) : effect next i (s.goto address) = (effect 0 i s).goto address := by
  cases i with
  | mov => simp only [effect, set_goto, read_goto]
  | add | sub | cmp | xorl | test =>
    simp only [effect, set_goto, read_goto, get_goto]
    rfl
  | call | ret => exact absurd isStraight Bool.false_ne_true
  | _ => rfl

def isa : Isa Instruction Cpu where
  pc := Cpu.rip
  goto address s := s.goto address
  effect := effect
  target := target
  straight := straight
  pc_goto _ _ := rfl
  goto_pc _ := rfl
  goto_goto _ _ _ := rfl
  target_straight := target_straight
  effect_straight := effect_straight

@[simp] theorem isa_pc : isa.pc = Cpu.rip := rfl

@[simp] theorem isa_goto (address : Address) (s : Cpu) : isa.goto address s = s.goto address := rfl

@[simp] theorem isa_effect : isa.effect = effect := rfl

@[simp] theorem isa_target : isa.target = target := rfl

section

variable (next base : Address) (source : Source) (destination : Place) (r : Register) (s : Cpu)

@[simp] theorem effect_mov :
    effect next (.mov source destination) s = s.set destination (s.read source) :=
  rfl

@[simp] theorem effect_movl (value : BitVec 32) :
    effect next (.movl value r) s = s.set (.register r) (value.setWidth 64) :=
  rfl

@[simp] theorem effect_xorl (q : Register) :
    effect next (.xorl q r) s =
      (s.set (.register r) (((s.get (.register r)).setWidth 32 ^^^
        (s.get (.register q)).setWidth 32).setWidth 64)).flags false
        (((s.get (.register r)).setWidth 32 ^^^ (s.get (.register q)).setWidth 32).setWidth 64) :=
  rfl

@[simp] theorem effect_add :
    effect next (.add source destination) s =
      (s.set destination (s.get destination + s.read source)).flags
        (s.get destination + s.read source < s.get destination) (s.get destination + s.read source) :=
  rfl

@[simp] theorem effect_sub :
    effect next (.sub source destination) s =
      (s.set destination (s.get destination - s.read source)).flags
        (s.get destination < s.read source) (s.get destination - s.read source) :=
  rfl

@[simp] theorem effect_cmp :
    effect next (.cmp source destination) s =
      s.flags (s.get destination < s.read source) (s.get destination - s.read source) :=
  rfl

@[simp] theorem effect_test (q : Register) :
    effect next (.test q r) s = s.flags false (s.get (.register r) &&& s.get (.register q)) :=
  rfl

@[simp] theorem effect_lea (displacement : Address) (b : Register) :
    effect next (.lea displacement b none r) s =
      s.set (.register r) (s.get (.register b) + displacement) :=
  rfl

@[simp] theorem effect_lea_index (displacement : Address) (b index : Register) :
    effect next (.lea displacement b (some index) r) s =
      s.set (.register r) (s.get (.register b) + displacement + s.get (.register index)) :=
  rfl

@[simp] theorem effect_nop : effect next .nop s = s := rfl

@[simp] theorem effect_jmp (offset : Address) : effect next (.jmp offset) s = s := rfl

@[simp] theorem effect_j (condition : Condition) (offset : Address) :
    effect next (.j condition offset) s = s :=
  rfl

@[simp] theorem target_jmp (offset : Address) : target base next (.jmp offset) s = base + offset :=
  rfl

@[simp] theorem target_j (condition : Condition) (offset : Address) :
    target base next (.j condition offset) s =
      if s.holds condition = true then base + offset else next :=
  rfl

@[simp] theorem holds_e : s.holds .e = s.zf := rfl

@[simp] theorem holds_ne : s.holds .ne = !s.zf := rfl

@[simp] theorem holds_a : s.holds .a = !(s.cf || s.zf) := rfl

@[simp] theorem holds_be : s.holds .be = (s.cf || s.zf) := rfl

end

section

variable {listing : Program Instruction} {base here : Address} {done : List Instruction} {s : Cpu}
  {post : Cpu → Prop}

theorem reaches_jmp (there next : Address)
    (found : fetch listing here = some (.jmp there, next))
    (rest : isa.Reaches listing base (isa.behind base done there s) post) :
    isa.Reaches listing base (isa.behind base done here s) post :=
  reaches_jump (.jmp there) next there found rfl rfl rest

theorem reaches_j (condition : Condition) (offset next : Address) {there : Address}
    (found : fetch listing here = some (.j condition offset, next))
    (goes : (if (isa.effects done s).holds condition = true then offset else next) = there)
    (rest : isa.Reaches listing base (isa.behind base done there s) post) :
    isa.Reaches listing base (isa.behind base done here s) post := by
  refine reaches_jump (.j condition offset) next there found rfl ?_ rest
  rw [← goes, apply_ite (base + ·)]
  cases condition <;> rfl

end

/-! ## The frame of a function -/

/-- The registers but `rsp`, and the words of a frame of `size` bytes from `rsp` on. -/
def InFrame (size : Nat) : Place → Bool
  | .register r => r ≠ .rsp
  | .memory base displacement =>
    base = .rsp ∧ displacement.toNat % 8 = 0 ∧ displacement.toNat + 8 ≤ size

/-- The frame and `depth` bytes below it. -/
def OnStack (size depth : Nat) (rsp : Address) (a : Address) : Prop :=
  Inside (rsp - BitVec.ofNat 64 depth) (depth + size) a

/-- `t` has what `s` has, but for some places of the frame and the stack below it. -/
structure Keeps (size depth : Nat) (clobbered : List Place) (s t : Cpu) : Prop where
  rsp : t.registers .rsp = s.registers .rsp
  places : ∀ p, InFrame size p = true → p ∉ clobbered → t.get p = s.get p
  memory : ∀ a, ¬OnStack size depth (s.registers .rsp) a → t.memory a = s.memory a

/-- Instructions that write to these places of the frame only, if at all. -/
def confined (size : Nat) (clobbered : List Place) (i : Instruction) : Bool :=
  match i with
  | .mov _ destination | .add _ destination | .sub _ destination =>
    destination ∈ clobbered ∧ InFrame size destination
  | .movl _ r | .xorl _ r | .lea _ _ _ r => .register r ∈ clobbered ∧ InFrame size (.register r)
  | .cmp _ _ | .test _ _ | .nop | .jmp _ | .j _ _ => true
  | .push _ | .pop _ | .call _ | .ret => false

variable {size depth : Nat} {clobbered more : List Place} {s t u : Cpu} {p q : Place}

@[simp] theorem get_flags (s : Cpu) (cf : Bool) (result : BitVec 64) (p : Place) :
    (s.flags cf result).get p = s.get p := by
  cases p <;> rfl

@[simp] theorem cf_flags (s : Cpu) (cf : Bool) (result : BitVec 64) :
    (s.flags cf result).cf = cf :=
  rfl

@[simp] theorem zf_flags (s : Cpu) (cf : Bool) (result : BitVec 64) :
    (s.flags cf result).zf = (result == 0) :=
  rfl

@[simp] theorem cf_set (s : Cpu) (p : Place) (value : BitVec 64) : (s.set p value).cf = s.cf := by
  cases p <;> rfl

@[simp] theorem zf_set (s : Cpu) (p : Place) (value : BitVec 64) : (s.set p value).zf = s.zf := by
  cases p <;> rfl

attribute [simp] get_goto read_goto

@[simp] theorem cf_goto (s : Cpu) (address : Address) : (s.goto address).cf = s.cf := rfl

@[simp] theorem zf_goto (s : Cpu) (address : Address) : (s.goto address).zf = s.zf := rfl

@[simp] theorem registers_goto (s : Cpu) (address : Address) :
    (s.goto address).registers = s.registers :=
  rfl

@[simp] theorem memory_goto (s : Cpu) (address : Address) : (s.goto address).memory = s.memory := rfl

@[simp] theorem rip_goto (s : Cpu) (address : Address) : (s.goto address).rip = address := rfl

@[simp] theorem read_immediate (s : Cpu) (value : BitVec 64) : s.read (.immediate value) = value :=
  rfl

@[simp] theorem read_place (s : Cpu) (p : Place) : s.read (.place p) = s.get p := rfl

theorem words_disjoint (start : Address) {d e : Address} (aligned : d.toNat % 8 = 0)
    (alignedToo : e.toNat % 8 = 0) (bound : d.toNat + 8 ≤ 2 ^ 64) (boundToo : e.toNat + 8 ≤ 2 ^ 64)
    (apart : e ≠ d) (a : Address) (inside : Inside (start + e) 8 a) : ¬Inside (start + d) 8 a := by
  have differ : e.toNat ≠ d.toNat := fun same => apart (BitVec.eq_of_toNat_eq same)
  rw [inside_add_iff start boundToo] at inside
  rw [inside_add_iff start bound]
  omega

/-- Of the places of a frame, a write changes the one that it is about. -/
theorem get_set (fits : size ≤ 2 ^ 64) (value : BitVec 64) (written : InFrame size p = true)
    (asked : InFrame size q = true) : (s.set p value).get q = if q = p then value else s.get q := by
  cases p with
  | register r =>
    have notRsp : r ≠ .rsp := by simpa [InFrame] using written
    cases q with
    | register r' => simp [Cpu.get, Cpu.set, Function.update_apply]
    | memory base displacement =>
      obtain ⟨rfl, -⟩ : base = .rsp ∧ _ := by simpa [InFrame] using asked
      simp [Cpu.get, Cpu.set, Cpu.address, Function.update_of_ne notRsp.symm]
  | memory base displacement =>
    obtain ⟨rfl, aligned, bound⟩ : base = .rsp ∧ _ := by simpa [InFrame] using written
    cases q with
    | register r' => rfl
    | memory base' displacement' =>
      obtain ⟨rfl, aligned', bound'⟩ : base' = .rsp ∧ _ := by simpa [InFrame] using asked
      by_cases same : displacement' = displacement
      · subst same
        rw [if_pos rfl]
        exact load_store s.memory _ 8 (by decide) value
      · have differ : Place.memory .rsp displacement' ≠ .memory .rsp displacement := by
          simpa using same
        rw [if_neg differ]
        exact load_store_of_disjoint (by decide)
          (words_disjoint _ aligned aligned' (bound.trans fits) (bound'.trans fits) same)

theorem onStack_of_word (fits : depth + size ≤ 2 ^ 64) {rsp displacement a : Address}
    (bound : displacement.toNat + 8 ≤ size) (inside : Inside (rsp + displacement) 8 a) :
    OnStack size depth rsp a := by
  have shift : rsp + displacement =
      rsp - BitVec.ofNat 64 depth + (BitVec.ofNat 64 depth + displacement) := by
    rw [← BitVec.add_assoc, BitVec.sub_add_cancel]
  have sum : (BitVec.ofNat 64 depth + displacement).toNat = depth + displacement.toNat := by
    rw [BitVec.toNat_add, BitVec.toNat_ofNat]
    omega
  rw [shift, inside_add_iff _ (by omega), sum] at inside
  rw [OnStack, Inside]
  omega

namespace Keeps

theorem refl (s : Cpu) : Keeps size depth clobbered s s :=
  ⟨rfl, fun _ _ _ => rfl, fun _ _ => rfl⟩

theorem trans (first : Keeps size depth clobbered s t) (second : Keeps size depth clobbered t u) :
    Keeps size depth clobbered s u where
  rsp := second.rsp.trans first.rsp
  places p inside kept := (second.places p inside kept).trans (first.places p inside kept)
  memory a outside := by
    rw [second.memory a (first.rsp ▸ outside), first.memory a outside]

theorem mono (keeps : Keeps size depth clobbered s t) (wider : ∀ p ∈ clobbered, p ∈ more) :
    Keeps size depth more s t where
  rsp := keeps.rsp
  places p inside kept := keeps.places p inside fun listed => kept (wider p listed)
  memory := keeps.memory

theorem goto (keeps : Keeps size depth clobbered s t) (address : Address) :
    Keeps size depth clobbered s (t.goto address) where
  rsp := keeps.rsp
  places p inside kept := (get_goto t address p).trans (keeps.places p inside kept)
  memory := keeps.memory

theorem flags (keeps : Keeps size depth clobbered s t) (cf : Bool) (result : BitVec 64) :
    Keeps size depth clobbered s (t.flags cf result) where
  rsp := keeps.rsp
  places p inside kept := (get_flags t cf result p).trans (keeps.places p inside kept)
  memory := keeps.memory

theorem set (fits : depth + size ≤ 2 ^ 64) (keeps : Keeps size depth clobbered s t)
    (listed : p ∈ clobbered) (written : InFrame size p = true) (value : BitVec 64) :
    Keeps size depth clobbered s (t.set p value) where
  rsp := by
    rw [← keeps.rsp]
    cases p with
    | register r =>
      have notRsp : r ≠ .rsp := by simpa [InFrame] using written
      exact Function.update_of_ne notRsp.symm value t.registers
    | memory => rfl
  places q inside kept := by
    have other : q ≠ p := fun same => kept (same ▸ listed)
    rw [get_set (by omega) value written inside, if_neg other, keeps.places q inside kept]
  memory a outside := by
    rw [← keeps.memory a outside]
    cases p with
    | register => rfl
    | memory base displacement =>
      obtain ⟨rfl, -, bound⟩ : base = .rsp ∧ _ := by simpa [InFrame] using written
      refine store_outside fun inside => outside ?_
      rw [← keeps.rsp]
      exact onStack_of_word fits bound inside

theorem effect (fits : depth + size ≤ 2 ^ 64) (keeps : Keeps size depth clobbered s t)
    {i : Instruction} (isConfined : confined size clobbered i = true) (next : Address) :
    Keeps size depth clobbered s (X86Asm.effect next i t) := by
  cases i with
  | mov source destination =>
    obtain ⟨listed, written⟩ := of_decide_eq_true isConfined
    exact keeps.set fits listed written _
  | movl value r | lea displacement base index r =>
    obtain ⟨listed, written⟩ := of_decide_eq_true isConfined
    exact keeps.set fits listed written _
  | xorl source destination | add source destination | sub source destination =>
    obtain ⟨listed, written⟩ := of_decide_eq_true isConfined
    exact (keeps.set fits listed written _).flags _ _
  | cmp | test => exact keeps.flags _ _
  | nop | jmp | j => exact keeps
  | push | pop | call | ret => exact absurd isConfined Bool.false_ne_true

theorem effects (fits : depth + size ≤ 2 ^ 64) {code : List Instruction}
    (isConfined : code.all (confined size clobbered) = true)
    (keeps : Keeps size depth clobbered s t) :
    Keeps size depth clobbered s (isa.effects code t) := by
  induction code generalizing t with
  | nil => exact keeps
  | cons i code inductionHypothesis =>
    rw [List.all_cons, Bool.and_eq_true] at isConfined
    exact inductionHypothesis isConfined.2 (keeps.effect fits isConfined.1 0)

end Keeps

end CloudflareBlog.Lib.X86Asm
