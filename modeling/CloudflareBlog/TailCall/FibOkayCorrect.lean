import CloudflareBlog.Lib.X86Calls
import CloudflareBlog.TailCall.FibOkayLoops

/-!
# The compiled `fib_okay` computes `fib`

The innermost loop calls the function again, for an argument less by nine at least; so the induction is
on the argument, and the stack that is taken up grows by one frame for nine arguments.
-/

namespace CloudflareBlog.TailCall.FibOkay

open Lib.Memory Lib.Listing Lib.X86Asm
open Register

/-- The stack that a call takes up. -/
def need (n : Nat) : Nat := frameSize + depth n

/-- What is called for an argument returns the value of `fib`. -/
def Correct (base : Address) (n : Nat) : Prop :=
  ∀ s, s.rip = base + 0 → s.registers rdi = BitVec.ofNat 64 n →
    Gets base s (Returns (need n) (fib n) s)

variable {base : Address} {n : Nat} {s : Cpu}

/-! ## The innermost loop -/

def restored : List Place := [reg rcx, reg r11, reg rdx, reg r9, reg rsi, reg r8]

theorem depth_of_lower {m : Nat} (lower : m + 9 ≤ n) : 8 + need m ≤ depth n := by
  have : (m + 9) / 9 ≤ n / 9 := Nat.div_le_div_right lower
  rw [need, depth, depth, frameSize]
  omega

section

variable (fits : depth n + frameSize ≤ 2 ^ 64) (callee : ∀ m, m + 9 ≤ n → Correct base m)
include fits callee

/-- A round of the loop. -/
theorem calls {c : Nat} (more : 2 ≤ c) (bound : c + 8 ≤ n) (small : n < 2 ^ 64)
    (at_ : s.rip = base + 0x108) (argument : Has (reg r10) c s) :
    Gets base s fun t => t.rip = base + (if 1 < c - 2 then 0x108 else 0x170) ∧
      Has (reg r10) (c - 2) t ∧ t.get (reg r14) = s.get (reg r14) + fib (c - 1) ∧
      Stays n clobbered7 s t := by
  have less : s.get (reg r10) + -1 = BitVec.ofNat 64 (c - 1) :=
    eval_minusByLea (k := 1) argument (by omega)
  refine reaches_from at_ ?_
  refine reaches_piece beforeCall 0x135 (by decide_cbv) rfl ?_
  refine reaches_call frameSize (fib (c - 1)) 0 0x13a rfl
    (by decide_cbv) fits (depth_of_lower (m := c - 1) (by omega)) ?_ ?_
  · intro d called same
    refine callee (c - 1) (by omega) d called ?_
    rw [same rdi (by decide)]
    change Cpu.get _ (reg rdi) = _
    exact (get_behind frameSize (minusByLea (reg r10) 1) (by decide_cbv)).trans less
  intro t returned result keeps
  have before : ∀ p, InFrame frameSize p = true → p ∉ volatile →
      t.get p = (isa.behind base ([] ++ beforeCall.map Prod.snd) 0x135 s).get p := keeps.places
  have counter : Has (slot 0x58) c t :=
    (before _ (by decide) (by decide)).trans
      ((get_behind frameSize (.place (reg r10)) (by decide_cbv)).trans argument)
  have next := eval_minus (k := 2) counter more
  have turns : (if Condition.of ((minus (slot 0x58) 2).eval t) 1 .a = true then (0x108 : Address)
      else 0x170) = if 1 < c - 2 then 0x108 else 0x170 := by
    by_cases again : 1 < c - 2
    · rw [if_pos again, passed_of_lt next again (by omega)]
    · rw [if_neg again, passed_of_le next (Nat.not_lt.mp again)]
  refine reaches_from returned ?_
  refine reaches_piece afterCall 0x16e (by decide_cbv) rfl ?_
  refine reaches_compared frameSize (minus (slot 0x58) 2) (.constant 1) .a 0x108 0x170
    (by decide_cbv) turns (.here ⟨rfl, ?_, ?_, ?_⟩)
  · exact (get_behind frameSize (minus (slot 0x58) 2) (by decide_cbv)).trans next
  · refine (get_behind frameSize (.add (.place (reg r14)) (.place (reg rax)))
      (by decide_cbv)).trans (congrArg₂ (· + ·) ?_ result)
    exact (before _ (by decide) (by decide)).trans
      (get_behind frameSize (.place (reg r14)) (by decide_cbv))
  -- what the call may change is restored, but for what the loop changes itself
  have first : Stays n (clobbered7 ++ volatile) s
      (isa.behind base ([] ++ beforeCall.map Prod.snd) 0x135 s) :=
    (Keeps.effects fits (by decide_cbv) (.refl s)).goto _
  have second : Stays n (clobbered7 ++ volatile) s t :=
    first.trans (keeps.mono fun _ => List.mem_append_right _)
  have last : Stays n (clobbered7 ++ volatile) t (isa.effects (afterCall.map Prod.snd) t) :=
    .effects fits (by decide_cbv) (.refl t)
  have whole := second.trans (last.goto (base + if 1 < c - 2 then 0x108 else 0x170))
  refine ⟨whole.rsp, fun p inside kept => ?_, whole.memory⟩
  by_cases isRestored : p ∈ restored
  · simp only [restored, List.mem_cons, List.not_mem_nil, or_false] at isRestored
    obtain rfl | rfl | rfl | rfl | rfl | rfl := isRestored
    · exact (get_behind frameSize (.place (slot 0x60)) (by decide_cbv)).trans
        ((before _ (by decide) (by decide)).trans
          (get_behind frameSize (.place (reg rcx)) (by decide_cbv)))
    · exact (get_behind frameSize (.place (slot 0x68)) (by decide_cbv)).trans
        ((before _ (by decide) (by decide)).trans
          (get_behind frameSize (.place (reg r11)) (by decide_cbv)))
    · exact (get_behind frameSize (.place (slot 0x70)) (by decide_cbv)).trans
        ((before _ (by decide) (by decide)).trans
          (get_behind frameSize (.place (reg rdx)) (by decide_cbv)))
    · exact (get_behind frameSize (.place (slot 0x78)) (by decide_cbv)).trans
        ((before _ (by decide) (by decide)).trans
          (get_behind frameSize (.place (reg r9)) (by decide_cbv)))
    · exact (get_behind frameSize (.place (slot 0x80)) (by decide_cbv)).trans
        ((before _ (by decide) (by decide)).trans
          (get_behind frameSize (.place (reg rsi)) (by decide_cbv)))
    · exact (get_behind frameSize (.place (slot 0x88)) (by decide_cbv)).trans
        ((before _ (by decide) (by decide)).trans
          (get_behind frameSize (.place (reg r8)) (by decide_cbv)))
  · refine whole.places p inside fun listed => ?_
    have covered : ∀ q ∈ clobbered7 ++ volatile, q ∈ clobbered7 ++ restored := by decide_cbv
    exact (List.mem_append.mp (covered p listed)).elim kept isRestored

theorem level7_sums {c : Nat} (more : 2 ≤ c) (bound : c + 8 ≤ n) (small : n < 2 ^ 64)
    (at_ : s.rip = base + 0x108) (argument : Has (reg r10) c s) :
    Gets base s fun t => t.rip = base + 0x174 ∧ t.get (reg r14) = s.get (reg r14) + fib c ∧
      Stays n clobbered7 s t := by
  induction c using Nat.strong_induction_on generalizing s with
  | _ c inductionHypothesis =>
    have sum : fib c = fib (c - 1) + fib (c - 2) := by
      obtain ⟨m, rfl⟩ := Nat.exists_eq_add_of_le' more
      rfl
    refine (calls fits callee more bound small at_ argument).trans ?_
    rintro t ⟨turned, counter, total, stays⟩
    by_cases again : 1 < c - 2
    · rw [if_pos again] at turned
      refine (inductionHypothesis (c - 2) (by omega) again (by omega) turned counter).mono ?_
      rintro u ⟨left, whole, later⟩
      refine ⟨left, ?_, stays.trans later⟩
      rw [whole, total, sum, BitVec.add_assoc]
    · rw [if_neg again] at turned
      refine reaches_from turned ?_
      refine reaches_piece leave8 0x174 (by decide_cbv) rfl (.here ⟨rfl, ?_, ?_⟩)
      · refine (get_behind frameSize (.add (.place (reg r14)) (.constant 1))
          (by decide_cbv)).trans ?_
        rw [sum, fib_of_le_one (n := c - 2) (by omega), ← BitVec.add_assoc, ← total]
        rfl
      · exact stays.trans ((Keeps.effects fits (by decide_cbv) (.refl t)).goto _)

theorem level7_evaluates (small : n < 2 ^ 64) : level7.Evaluates base n (n - 8) := by
  intro b s positive bound at_ argument
  obtain ⟨has, counter, zero⟩ := argument
  obtain rfl | more : b = 1 ∨ 2 ≤ b := by omega
  · refine reaches_from at_ ?_
    refine reaches_piece one7 0x1a2 (by decide_cbv) rfl ?_
    refine reaches_jmp 0x174 0x1a4 (by decide_cbv) (.here ⟨rfl, ?_, ?_, ?_⟩)
    · exact get_behind frameSize (.constant 1) (by decide_cbv)
    · exact (get_behind frameSize (.place (reg rbx)) (by decide_cbv)).trans has
    · exact (Keeps.effects fits (by decide_cbv) (.refl s)).goto _
  · have many : b ≠ 1 := by omega
    rw [Level.choose, if_neg many] at at_
    refine (level7_sums fits callee more (by omega) small at_ counter).mono ?_
    rintro t ⟨left, total, stays⟩
    refine ⟨left, ?_, (stays.places _ (by decide) (by decide)).trans has, stays⟩
    have whole : t.get (reg r14) = 0 + fib b := total.trans (congrArg (· + fib b) zero)
    exact whole.trans (BitVec.zero_add _)

end

/-! ## The function -/

def loopedFunction : List Place := slot 0 :: slot 0x18 :: clobbered0

def loopsFunction (limit : Nat) (fits : depth n + frameSize ≤ 2 ^ 64)
    (small : limit + 1 < 2 ^ 64) :
    Loops base n limit level0 loopedFunction 0x314 (reg rax) where
  leave b s last at_ after := by
    refine reaches_from at_ ?_
    refine reaches_piece add0 0x2ea (by decide_cbv) rfl ?_
    refine reaches_compared frameSize (.place (slot 0x38)) (.constant 1) .be 0x30b 0x2ec
      (by decide_cbv) (branch_of_le after.2 (by omega)) ?_
    refine reaches_piece leave0 0x314 (by decide_cbv) rfl (.here ⟨rfl, ?_, ?_⟩)
    · exact get_behind frameSize (.add (.add (.place (slot 0x18)) (.place (reg rax))) (.constant 1))
        (by decide_cbv)
    · exact (Keeps.effects fits (by decide_cbv) (.refl s)).goto _
  again b s more bound at_ after := by
    have less := eval_minus (k := 2) after.1 (by omega)
    refine reaches_from at_ ?_
    refine reaches_piece add0 0x2ea (by decide_cbv) rfl ?_
    refine reaches_compared frameSize (.place (slot 0x38)) (.constant 1) .be 0x30b 0x2ec
      (by decide_cbv) (branch_of_lt after.2 (by omega) (by omega)) ?_
    refine reaches_piece again0 0x2f5 (by decide_cbv) rfl ?_
    refine reaches_compared frameSize (minus (slot 0) 2) (.constant 1) .ne 0x3a 0x2fb
      (by decide_cbv) (choose_ne level0 less (by omega)) (.here ⟨rfl, ?_, ?_, ?_⟩)
    · exact (get_behind frameSize (minus (slot 0) 2) (by decide_cbv)).trans less
    · exact get_behind frameSize (.add (.place (slot 0x18)) (.place (reg rax))) (by decide_cbv)
    · exact (Keeps.effects fits (by decide_cbv) (.refl s)).goto _
  sum := by decide_cbv
  inner_looped := by decide_cbv

theorem level0_evaluates (fits : depth n + frameSize ≤ 2 ^ 64) (small : n < 2 ^ 64)
    (callee : ∀ m, m + 9 ≤ n → Correct base m) : level0.Evaluates base n (n - 8 + 7) := by
  have evaluates7 := level7_evaluates fits callee (by omega)
  have evaluates6 := (nests6 fits (by omega)).evaluates evaluates7
  have evaluates5 := (nests5 fits (by omega)).evaluates evaluates6
  have evaluates4 := (nests4 fits (by omega)).evaluates evaluates5
  have evaluates3 := (nests3 fits (by omega)).evaluates evaluates4
  have evaluates2 := (nests2 fits (by omega)).evaluates evaluates3
  have evaluates1 := (nests1 fits (by omega)).evaluates evaluates2
  exact (nests0 fits (by omega)).evaluates evaluates1

/-- The registers that the prologue saves, and the epilogue restores in the opposite order. -/
def saved : List Register := [r15, r14, r13, r12, rbp, rbx]

/-- The state behind the prologue. -/
structure Entered (n : Nat) (s t : Cpu) : Prop where
  rsp : t.registers .rsp = s.registers .rsp - BitVec.ofNat 64 frameSize
  argument : 1 ≤ n → Has (slot 0) (n - 1) t
  sum : t.get (slot 0x18) = 0
  registers : ∀ r ∈ preserved, t.registers r = s.registers r
  words : ∀ i (h : i < saved.length), t.get (slot (frameSize - 8 * (i + 1))) = s.registers saved[i]
  memory : ∀ a, ¬Below (s.registers .rsp) frameSize a → t.memory a = s.memory a

/-- What the prologue does besides saving registers: before, and with the frame. -/
def ready : List Instruction := [.mov (from_ (reg rdi)) (reg rax), .sub (imm 1) (reg rdi)]

def framed : List Instruction :=
  [.mov (from_ (reg rdi)) (slot 0), .mov (imm 0) (slot 0x18), .cmp (imm 1) (reg rax)]

theorem effects_prologue (s : Cpu) :
    isa.effects (prologue.map Prod.snd) s =
      isa.effects framed
        (isa.effects [.sub (imm 0x98) (reg rsp)]
          (isa.effects (saved.map .push) (isa.effects ready s))) := by
  have commute : isa.effects ([.push r15] ++ ready) s = isa.effects (ready ++ [.push r15]) s := by
    refine Cpu.ext rfl (funext fun r => ?_) rfl rfl rfl
    cases r <;> rfl
  have first : prologue.map Prod.snd =
      ([.push r15] ++ ready) ++ (prologue.map Prod.snd).drop 3 := by decide_cbv
  have whole : (ready ++ [.push r15]) ++ (prologue.map Prod.snd).drop 3 =
      ready ++ (saved.map .push ++ ([.sub (imm 0x98) (reg rsp)] ++ framed)) := by decide_cbv
  rw [first, effects_append, commute, ← effects_append, whole]
  simp only [effects_append]

theorem entered (s : Cpu) (argument : s.registers rdi = BitVec.ofNat 64 n) :
    Entered n s (isa.effects (prologue.map Prod.snd) s) ∧ ∀ condition,
      (isa.effects (prologue.map Prod.snd) s).holds condition =
        condition.of (BitVec.ofNat 64 n) 1 := by
  rw [effects_prologue]
  have others : ∀ q, q ≠ rax → q ≠ rdi → (isa.effects ready s).registers q = s.registers q :=
    fun q notRax notRdi =>
      (Function.update_of_ne notRdi _ _).trans (Function.update_of_ne notRax _ _)
  have pushed : Pushed saved (isa.effects ready s)
      (isa.effects (saved.map .push) (isa.effects ready s)) :=
    effects_push (by decide) (by decide)
  generalize isa.effects (saved.map .push) (isa.effects ready s) = stacked at pushed ⊢
  have rest : ∀ q, q ≠ rsp →
      (isa.effects [.sub (imm 0x98) (reg rsp)] stacked).registers q =
        (isa.effects ready s).registers q :=
    fun q notRsp => (Function.update_of_ne notRsp _ _).trans (pushed.registers q notRsp)
  have top : (isa.effects [.sub (imm 0x98) (reg rsp)] stacked).registers .rsp =
      s.registers .rsp - BitVec.ofNat 64 frameSize := by
    have moved : (isa.effects [.sub (imm 0x98) (reg rsp)] stacked).registers .rsp =
        stacked.registers .rsp - 0x98 := rfl
    have kept : (isa.effects ready s).registers .rsp = s.registers .rsp := rfl
    rw [moved, pushed.rsp, kept, show 8 * saved.length = 48 from rfl, frameSize]
    bv_omega
  have memory : (isa.effects [.sub (imm 0x98) (reg rsp)] stacked).memory = stacked.memory := rfl
  generalize isa.effects [.sub (imm 0x98) (reg rsp)] stacked = f at rest top memory ⊢
  have keeps : Keeps frameSize 0 [slot 0, slot 0x18] f (isa.effects framed f) :=
    Keeps.effects (by decide) (by decide_cbv) (.refl f)
  refine ⟨⟨keeps.rsp.trans top, ?_, ?_, ?_, ?_, ?_⟩, ?_⟩
  · intro positive
    have less : s.registers rdi - 1 = BitVec.ofNat 64 (n - 1) := argument ▸ ofNat_sub positive
    exact (get_effects frameSize (.place (reg rdi)) (by decide_cbv)).trans
      ((rest rdi (by decide)).trans less)
  · exact get_effects frameSize (.constant 0) (by decide_cbv)
  · intro r listed
    have notRsp : ∀ r ∈ preserved, r ≠ .rsp ∧ r ≠ rax ∧ r ≠ rdi ∧ InFrame frameSize (reg r) = true ∧
        reg r ∉ [slot 0, slot 0x18] := by decide
    obtain ⟨notRsp, notRax, notRdi, inside, kept⟩ := notRsp r listed
    exact (keeps.places (reg r) inside kept).trans ((rest r notRsp).trans (others r notRax notRdi))
  · intro i h
    have apart : ∀ i < saved.length, InFrame frameSize (slot (frameSize - 8 * (i + 1))) = true ∧
        slot (frameSize - 8 * (i + 1)) ∉ [slot 0, slot 0x18] := by decide_cbv
    have kept : ∀ r ∈ saved, r ≠ .rsp ∧ r ≠ rax ∧ r ≠ rdi := by decide
    obtain ⟨notRsp, notRax, notRdi⟩ := kept _ (List.getElem_mem h)
    rw [keeps.places _ (apart i h).1 (apart i h).2, ← others _ notRax notRdi, ← pushed.words i h]
    have same : f.registers .rsp + BitVec.ofNat 64 (frameSize - 8 * (i + 1)) =
        (isa.effects ready s).registers .rsp - BitVec.ofNat 64 (8 * (i + 1)) := by
      have stackPointer : (isa.effects ready s).registers .rsp = s.registers .rsp := rfl
      have short : saved.length = 6 := rfl
      rw [top, stackPointer, frameSize]
      bv_omega
    rw [← same, ← memory]
    rfl
  · intro a outside
    have notStack : ¬OnStack frameSize 0 (f.registers .rsp) a :=
      fun onStack => outside (below_of_onStack top onStack)
    rw [keeps.memory a notStack, memory, pushed.memory a fun below => outside (below.mono (by decide))]
    rfl
  · intro condition
    refine (comparison_spec frameSize (.place (reg rax)) (.constant 1)
      (by decide) (by decide_cbv) (by decide_cbv)).2.2.trans ?_
    exact congrArg (condition.of · 1) ((rest rax (by decide)).trans argument)

theorem Entered.goto {t : Cpu} (entered : Entered n s t) (address : Address) :
    Entered n s (t.goto address) :=
  ⟨entered.rsp, fun positive => (get_goto _ _ _).trans (entered.argument positive),
    (get_goto _ _ _).trans entered.sum, entered.registers,
    fun i h => (get_goto _ _ _).trans (entered.words i h), entered.memory⟩

theorem notBelow_of_return {used : Nat} (room : used + 8 ≤ 2 ^ 64) {rsp a : Address}
    (inside : Inside rsp 8 a) : ¬Below rsp used a := by
  refine not_below_of_word 0 room (le_refl 8) ?_
  rwa [add_zero]

theorem leaves {t u : Cpu} {result : U64} (room : need n + 8 ≤ 2 ^ 64) (entered : Entered n s t)
    (stays : Stays n loopedFunction t u) (at_ : u.rip = base + 0x314)
    (value : u.registers rax = result) : Gets base u (Returns (need n) result s) := by
  refine reaches_from at_ ?_
  refine reaches_piece epilogue 0x325 (by decide_cbv) rfl ?_
  have apart : [] ++ epilogue.map Prod.snd =
      [.add (imm 0x98) (reg rsp)] ++ saved.reverse.map .pop := by decide_cbv
  refine reaches_ret 0x326 rfl (by decide_cbv) (.here ?_)
  rw [Isa.behind, apart, effects_append]
  have memory : ∀ a, ¬Below (s.registers .rsp) (need n) a → u.memory a = s.memory a := by
    intro a outside
    have notStack : ¬OnStack frameSize (depth n) (t.registers .rsp) a :=
      fun onStack => outside (below_of_onStack entered.rsp onStack)
    rw [stays.memory a notStack,
      entered.memory a fun below => outside (below.mono (Nat.le_add_right _ _))]
  have popped : Popped saved.reverse (isa.effects [.add (imm 0x98) (reg rsp)] u)
      (isa.effects (saved.reverse.map .pop) (isa.effects [.add (imm 0x98) (reg rsp)] u)) :=
    effects_pop (by decide) (by decide)
  have middle : (isa.effects [.add (imm 0x98) (reg rsp)] u).registers .rsp =
      s.registers .rsp - BitVec.ofNat 64 48 := by
    have moved : (isa.effects [.add (imm 0x98) (reg rsp)] u).registers .rsp =
        u.registers .rsp + 0x98 := rfl
    rw [moved, stays.rsp, entered.rsp, frameSize]
    bv_omega
  have same : (isa.effects [.add (imm 0x98) (reg rsp)] u).memory = u.memory := rfl
  have others : (isa.effects [.add (imm 0x98) (reg rsp)] u).registers rax = u.registers rax := rfl
  generalize isa.effects [.add (imm 0x98) (reg rsp)] u = m at popped middle same others ⊢
  generalize isa.effects (saved.reverse.map .pop) m = e at popped ⊢
  have top : e.registers .rsp = s.registers .rsp := by
    rw [popped.rsp, middle]
    exact BitVec.sub_add_cancel _ _
  have unchanged : e.memory = u.memory := popped.memory.trans same
  have returned : load e.memory (e.registers .rsp) 8 = load s.memory (s.registers .rsp) 8 := by
    rw [unchanged, top]
    exact load_eq_of_inside (by decide) fun a inside => memory a (notBelow_of_return room inside)
  have computed : e.registers rax = result := by
    rw [popped.others rax (by decide) (by decide), others, value]
  have other : ∀ r, r ≠ .rsp →
      Function.update e.registers .rsp (e.registers .rsp + 8) r = e.registers r :=
    fun r notRsp => Function.update_of_ne notRsp _ _
  simp only [isa_goto, registers_goto, memory_goto]
  refine ⟨returned, ?_, (other rax (by decide)).trans computed, ?_, ?_⟩
  · exact (Function.update_self Register.rsp _ e.registers).trans (congrArg (· + 8) top)
  · intro r listed
    have isSaved : ∀ r ∈ preserved, r ≠ .rsp ∧ r ∈ saved := by decide
    obtain ⟨i, inside, rfl⟩ := List.getElem_of_mem (isSaved r listed).2
    have short : saved.length = 6 := rfl
    have kept : ∀ i < saved.length, InFrame frameSize (slot (frameSize - 8 * (i + 1))) = true ∧
        slot (frameSize - 8 * (i + 1)) ∉ loopedFunction := by decide_cbv
    have word := popped.words (saved.length - 1 - i) (by rw [List.length_reverse]; omega)
    have address : m.registers .rsp + BitVec.ofNat 64 (8 * (saved.length - 1 - i)) =
        u.registers .rsp + BitVec.ofNat 64 (frameSize - 8 * (i + 1)) := by
      rw [middle, stays.rsp, entered.rsp, frameSize]
      bv_omega
    have position : saved.length - 1 - (saved.length - 1 - i) = i := by omega
    simp only [List.getElem_reverse, position] at word
    refine (other _ (isSaved _ listed).1).trans ?_
    rw [word, address, same, ← entered.words i inside,
      ← stays.places _ (kept i inside).1 (kept i inside).2]
    rfl
  · intro a outside
    exact (congrFun unchanged a).trans (memory a outside)

theorem returns_of_small {t : Cpu} (room : need n + 8 ≤ 2 ^ 64) (last : n ≤ 1)
    (entered : Entered n s t) (at_ : t.rip = base + 0x326) :
    Gets base t (Returns (need n) (fib n) s) := by
  have fits : depth n + frameSize ≤ 2 ^ 64 := by
    rw [need] at room
    omega
  refine reaches_from at_ ?_
  refine reaches_piece small 0x32b (by decide_cbv) rfl ?_
  refine reaches_jmp 0x314 0x32b (by decide_cbv) ?_
  refine leaves room entered ((Keeps.effects fits (by decide_cbv) (.refl t)).goto _) rfl ?_
  rw [fib_of_le_one last]
  exact get_behind (p := reg rax) frameSize (.constant 1) (by decide_cbv)

theorem returns_of_large {t : Cpu} (room : need n + 8 ≤ 2 ^ 64) (more : 2 ≤ n)
    (callee : ∀ m, m + 9 ≤ n → Correct base m) (entered : Entered n s t)
    (at_ : t.rip = base + 0x2f) : Gets base t (Returns (need n) (fib n) s) := by
  have fits : depth n + frameSize ≤ 2 ^ 64 := by
    rw [need] at room
    omega
  have small : n < 2 ^ 64 := by
    rw [need, frameSize, depth] at room
    omega
  have argument := entered.argument (by omega)
  refine reaches_from at_ ?_
  refine reaches_piece test0 0x34 (by decide_cbv) rfl ?_
  refine reaches_compared frameSize (.place (slot 0)) (.constant 1) .e 0x2fb 0x3a
    (by decide_cbv) (choose_e level0 argument Iff.rfl (by omega)) ?_
  refine ((loopsFunction (n - 8 + 7) fits (by omega)).sums
    (level0_evaluates fits small callee) (b := n - 1) (by omega) (by omega) rfl ?_).trans ?_
  · exact (get_behind frameSize (.place (slot 0)) (by decide_cbv)).trans argument
  rintro u ⟨left, total, stays⟩
  refine leaves room entered
    (((Keeps.effects fits (by decide_cbv) (.refl t)).goto _).trans stays) left ?_
  refine total.trans ?_
  have zero : (isa.behind base ([] ++ test0.map Prod.snd) (level0.choose (n - 1)) t).get level0.sum =
      0 :=
    (get_behind (p := slot 0x18) frameSize (.place (slot 0x18)) (by decide_cbv)).trans entered.sum
  rw [zero, Nat.sub_add_cancel (by omega), zero_add]

/-- The compiled function returns the value of `fib`. -/
theorem fibOkay_returns (room : need n + 8 ≤ 2 ^ 64) : Correct base n := by
  induction n using Nat.strong_induction_on with
  | _ n inductionHypothesis =>
    have callee : ∀ m, m + 9 ≤ n → Correct base m := by
      intro m lower
      have lessRoom := depth_of_lower lower
      rw [need] at room
      exact inductionHypothesis m (by omega) (by omega)
    intro s at_ argument
    obtain ⟨entered, compared⟩ := entered s argument
    have small : n < 2 ^ 64 := by
      rw [need, frameSize, depth] at room
      omega
    refine reaches_from at_ ?_
    refine reaches_piece prologue 0x29 (by decide_cbv) rfl ?_
    rw [List.nil_append]
    obtain last | more : n ≤ 1 ∨ 2 ≤ n := by omega
    · refine reaches_j .be 0x326 0x2f (by decide_cbv) ?_
        (returns_of_small room last (entered.goto _) rfl)
      rw [compared, branch_of_le rfl last]
    · refine reaches_j .be 0x326 0x2f (by decide_cbv) ?_
        (returns_of_large room more callee (entered.goto _) rfl)
      rw [compared, branch_of_lt rfl more small]

/-- A state in which the function begins for the argument 20, with an empty memory. -/
def called20 : Cpu where
  rip := 0x401000 + 0
  registers r := if r = rdi then BitVec.ofNat 64 20 else if r = .rsp then 0x7fffffffe000 else 0
  memory _ := 0
  cf := false
  zf := false

theorem fibOkay_returns_20 : Gets 0x401000 called20 (Returns (need 20) (fib 20) called20) :=
  fibOkay_returns (by decide) called20 rfl rfl

end CloudflareBlog.TailCall.FibOkay
