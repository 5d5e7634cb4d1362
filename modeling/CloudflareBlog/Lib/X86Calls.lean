import CloudflareBlog.Lib.X86Asm

/-!
# Calls

What a function may rely on and has to leave as it was: the registers that belong to its caller, which
it saves on the stack and restores, and all memory but the part of the stack that it uses.
-/

namespace CloudflareBlog.Lib.X86Asm

open Memory Listing

/-- The address is one of the `used` addresses below `top`. -/
def Below (top : Address) (used : Nat) (a : Address) : Prop := (top - 1 - a).toNat < used

/-- The registers that belong to the caller, besides the stack pointer. -/
def preserved : List Register := [.rbx, .rbp, .r12, .r13, .r14, .r15]

def volatile : List Place :=
  [.register .rax, .register .rcx, .register .rdx, .register .rsi, .register .rdi, .register .r8,
    .register .r9, .register .r10, .register .r11]

/-- `t` is where a function that began in `s` has returned to with its result. -/
structure Returns (used : Nat) (result : BitVec 64) (s t : Cpu) : Prop where
  rip : t.rip = load s.memory (s.registers .rsp) 8
  rsp : t.registers .rsp = s.registers .rsp + 8
  rax : t.registers .rax = result
  preserved : ∀ r ∈ preserved, t.registers r = s.registers r
  memory : ∀ a, ¬Below (s.registers .rsp) used a → t.memory a = s.memory a

section

variable {top a rsp displacement : Address} {used more start length k size depth : Nat}

theorem Below.mono (below : Below top used a) (wider : used ≤ more) : Below top more a :=
  Nat.lt_of_lt_of_le below wider

theorem below_of_inside (within : length ≤ start)
    (inside : Inside (top - BitVec.ofNat 64 start) length a) : Below top start a := by
  rw [Inside] at inside
  rw [Below]
  bv_omega

theorem Below.lower (below : Below (top - BitVec.ofNat 64 k) used a) : Below top (k + used) a := by
  rw [Below] at *
  bv_omega

theorem onStack_of_below (below : Below rsp used a) (deep : used ≤ depth) :
    OnStack size depth rsp a := by
  rw [Below] at below
  rw [OnStack, Inside]
  bv_omega

theorem below_of_onStack (same : rsp = top - BitVec.ofNat 64 size)
    (onStack : OnStack size depth rsp a) : Below top (size + depth) a := by
  rw [OnStack, Inside] at onStack
  rw [Below]
  bv_omega

/-- A word of the frame is not below it. -/
theorem not_below_of_word (displacement : Address) (fits : used + size ≤ 2 ^ 64)
    (bound : displacement.toNat + 8 ≤ size)
    (inside : Inside (rsp + displacement) 8 a) : ¬Below rsp used a := by
  rw [Inside] at inside
  rw [Below]
  bv_omega

end

/-! ## The stack -/

section

variable {s : Cpu} {r : Register} {rs : List Register}

theorem registers_push (s : Cpu) (value : BitVec 64) (other : r ≠ .rsp) :
    (s.push value).registers r = s.registers r :=
  Function.update_of_ne other _ _

theorem rsp_push (s : Cpu) (value : BitVec 64) :
    (s.push value).registers .rsp = s.registers .rsp - BitVec.ofNat 64 8 :=
  Function.update_self Register.rsp _ s.registers

theorem memory_push (s : Cpu) (value : BitVec 64) :
    (s.push value).memory = store s.memory (s.registers .rsp - BitVec.ofNat 64 8) 8 value := by
  have address : s.registers .rsp - 8 + 0 = s.registers .rsp - BitVec.ofNat 64 8 := add_zero _
  rw [← address]
  rfl

theorem memory_push_of_not_below (value : BitVec 64) {a : Address}
    (outside : ¬Below (s.registers .rsp) 8 a) : (s.push value).memory a = s.memory a := by
  rw [memory_push]
  exact store_outside fun inside => outside (below_of_inside (le_refl 8) inside)

theorem load_push (s : Cpu) (value : BitVec 64) :
    load (s.push value).memory (s.registers .rsp - BitVec.ofNat 64 8) 8 = value := by
  rw [memory_push]
  exact load_store s.memory _ 8 (by decide) value

/-- What registers leave on the stack that are pushed one after the other. -/
structure Pushed (rs : List Register) (s t : Cpu) : Prop where
  rsp : t.registers .rsp = s.registers .rsp - BitVec.ofNat 64 (8 * rs.length)
  registers : ∀ r, r ≠ .rsp → t.registers r = s.registers r
  words : ∀ i (h : i < rs.length),
    load t.memory (s.registers .rsp - BitVec.ofNat 64 (8 * (i + 1))) 8 = s.registers rs[i]
  memory : ∀ a, ¬Below (s.registers .rsp) (8 * rs.length) a → t.memory a = s.memory a

theorem effects_push (notRsp : .rsp ∉ rs) (room : 8 * rs.length ≤ 2 ^ 32) :
    Pushed rs s (isa.effects (rs.map .push) s) := by
  induction rs generalizing s with
  | nil => exact ⟨(BitVec.sub_zero _).symm, fun _ _ => rfl, fun _ h => absurd h (Nat.not_lt_zero _),
      fun _ _ => rfl⟩
  | cons r rs inductionHypothesis =>
    have others : .rsp ∉ rs := fun listed => notRsp (List.mem_cons_of_mem r listed)
    rw [List.length_cons] at room
    have step : effect 0 (.push r) s = s.push (s.registers r) := rfl
    rw [List.map_cons, effects_cons, isa_effect, step]
    have rest := inductionHypothesis others (s := s.push (s.registers r)) (by omega)
    have top := rsp_push s (s.registers r)
    refine ⟨?_, ?_, ?_, ?_⟩
    · rw [rest.rsp, top, List.length_cons]
      bv_omega
    · intro q other
      rw [rest.registers q other, registers_push s _ other]
    · intro i h
      cases i with
      | zero =>
        refine .trans ?_ (load_push s (s.registers r))
        refine load_eq_of_inside (by decide) fun a inside => rest.memory a ?_
        rw [top]
        rw [Inside] at inside
        rw [Below]
        bv_omega
      | succ i =>
        rw [List.length_cons] at h
        have isOther : rs[i] ≠ .rsp := fun same => others (same ▸ List.getElem_mem _)
        have word := rest.words i (by omega)
        rw [top, registers_push s _ isOther] at word
        rw [List.getElem_cons_succ, ← word]
        congr 1
        bv_omega
    · intro a outside
      rw [List.length_cons] at outside
      rw [rest.memory a fun below => outside ?_, memory_push_of_not_below _ fun below => outside ?_]
      · exact below.mono (by omega)
      · rw [top] at below
        exact below.lower.mono (by omega)

/-- What registers hold that are popped one after the other. -/
structure Popped (rs : List Register) (s t : Cpu) : Prop where
  rsp : t.registers .rsp = s.registers .rsp + BitVec.ofNat 64 (8 * rs.length)
  others : ∀ r, r ≠ .rsp → r ∉ rs → t.registers r = s.registers r
  words : ∀ i (h : i < rs.length),
    t.registers rs[i] = load s.memory (s.registers .rsp + BitVec.ofNat 64 (8 * i)) 8
  memory : t.memory = s.memory

theorem effects_pop (notRsp : .rsp ∉ rs) (distinct : rs.Nodup) :
    Popped rs s (isa.effects (rs.map .pop) s) := by
  induction rs generalizing s with
  | nil => exact ⟨(BitVec.add_zero _).symm, fun _ _ _ => rfl,
      fun _ h => absurd h (Nat.not_lt_zero _), rfl⟩
  | cons r rs inductionHypothesis =>
    have isOther : r ≠ .rsp := fun same => notRsp (same ▸ List.mem_cons_self)
    have others : .rsp ∉ rs := fun listed => notRsp (List.mem_cons_of_mem r listed)
    obtain ⟨once, distinct⟩ := List.nodup_cons.mp distinct
    have step : effect 0 (.pop r) s = s.pop r := rfl
    have rest := inductionHypothesis others distinct (s := s.pop r)
    have top : (s.pop r).registers .rsp = s.registers .rsp + 8 :=
      (Function.update_of_ne isOther.symm _ _).trans (Function.update_self Register.rsp _ s.registers)
    have same : (s.pop r).memory = s.memory := rfl
    rw [List.map_cons, effects_cons, isa_effect, step]
    refine ⟨?_, ?_, ?_, ?_⟩
    · rw [rest.rsp, top, List.length_cons]
      bv_omega
    · intro q notTop unlisted
      rw [List.mem_cons, not_or] at unlisted
      rw [rest.others q notTop unlisted.2]
      exact (Function.update_of_ne unlisted.1 _ _).trans (Function.update_of_ne notTop _ _)
    · intro i h
      cases i with
      | zero =>
        rw [List.getElem_cons_zero, rest.others r isOther once]
        exact Function.update_self r _ _
      | succ i =>
        rw [List.length_cons] at h
        rw [List.getElem_cons_succ, rest.words i (by omega), top, same]
        congr 1
        bv_omega
    · rw [rest.memory, same]

end

/-! ## The call -/

theorem mem_volatile_or_preserved {r : Register} (notRsp : r ≠ .rsp) :
    .register r ∈ volatile ∨ r ∈ preserved := by
  cases r <;> first | exact absurd rfl notRsp | decide

/-- The rule for a call: what the function leaves behind lies below the frame. -/
theorem reaches_call {listing : Program Instruction} {base here : Address} {s : Cpu}
    {post : Cpu → Prop} (size : Nat) {used depth : Nat} (result : BitVec 64) (offset next : Address)
    (at_ : s.rip = base + here) (found : fetch listing here = some (.call offset, next))
    (fits : depth + size ≤ 2 ^ 64) (deep : 8 + used ≤ depth)
    (callee : ∀ c, c.rip = base + offset → (∀ r, r ≠ .rsp → c.registers r = s.registers r) →
      isa.Reaches listing base c (Returns used result c))
    (rest : ∀ t, t.rip = base + next → t.registers .rax = result →
      Keeps size depth volatile s t → isa.Reaches listing base t post) :
    isa.Reaches listing base s post := by
  refine reaches_at (.call offset) next at_ found ?_
  refine (callee ((s.push (base + next)).goto (base + offset)) rfl fun r other =>
    registers_push s (base + next) other).trans ?_
  intro t returns
  have top := rsp_push s (base + next)
  have rsp : t.registers .rsp = s.registers .rsp := by
    rw [returns.rsp]
    exact (congrArg (· + 8) top).trans (BitVec.sub_add_cancel _ _)
  have memory : ∀ a, ¬Below (s.registers .rsp) (8 + used) a → t.memory a = s.memory a := by
    intro a outside
    rw [returns.memory a fun below => outside (Below.lower (top ▸ below))]
    exact memory_push_of_not_below _ fun below => outside (below.mono (by omega))
  have rip : t.rip = base + next := by
    rw [returns.rip]
    exact (congrArg (load _ · 8) top).trans (load_push s _)
  refine rest t rip returns.rax ⟨rsp, ?_, fun a outside =>
    memory a fun below => outside (onStack_of_below below deep)⟩
  intro p inside kept
  cases p with
  | register r =>
    have notRsp : r ≠ .rsp := by simpa [InFrame] using inside
    have isPreserved := (mem_volatile_or_preserved notRsp).resolve_left kept
    exact (returns.preserved r isPreserved).trans (registers_push s (base + next) notRsp)
  | memory b displacement =>
    obtain ⟨rfl, -, bound⟩ : b = .rsp ∧ _ := by simpa [InFrame] using inside
    rw [Cpu.get, Cpu.get, Cpu.address, Cpu.address, rsp]
    exact load_eq_of_inside (by decide) fun a within =>
      memory a (not_below_of_word _ (by omega) bound within)

theorem reaches_ret {listing : Program Instruction} {base here : Address} {s : Cpu}
    {post : Cpu → Prop} (next : Address) (at_ : s.rip = base + here) (found : fetch listing here = some (.ret, next))
    (rest : isa.Reaches listing base
      { s with
        rip := load s.memory (s.registers .rsp) 8
        registers := Function.update s.registers .rsp (s.registers .rsp + 8) } post) :
    isa.Reaches listing base s post := by
  refine reaches_at .ret next at_ found ?_
  have address : s.get (.memory .rsp 0) = load s.memory (s.registers .rsp) 8 :=
    congrArg (load s.memory · 8) (add_zero _)
  rw [← address] at rest
  exact rest

end CloudflareBlog.Lib.X86Asm
