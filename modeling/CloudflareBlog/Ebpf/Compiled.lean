import CloudflareBlog.Ebpf.Sub64
import CloudflareBlog.Lib.BpfAsm

/-!
# The compiled filters

The disassembled code that the compiler has made of the four filters and of the subtractions.  It does
what the functions do in C.
-/

namespace CloudflareBlog.Ebpf.Compiled

open Lib.Limbs Lib.Memory Lib.Listing Lib.BpfAsm

/-! ## The listings -/

/-- The beginning that the four filters share: the two `args_get`. -/
def argsGets : Program Instruction := [
  (0, .mov false 1 (.immediate 0)),
  (1, .store 4 10 (-16) 1),
  (2, .mov true 2 (.register 10)),
  (3, .alu .add true 2 (.immediate (-16))),
  (4, .loadMap 1),
  (6, .call 1),
  (7, .mov true 7 (.immediate 0)),
  (8, .mov true 6 (.immediate 0)),
  (9, .jeqz 0 1),
  (10, .load 8 6 0 0),
  (11, .mov false 1 (.immediate 1)),
  (12, .store 4 10 (-16) 1),
  (13, .mov true 2 (.register 10)),
  (14, .alu .add true 2 (.immediate (-16))),
  (15, .loadMap 1),
  (17, .call 1),
  (18, .jeqz 0 1),
  (19, .load 8 7 0 0)]

def filterAlu64 : Program Instruction := argsGets ++ ([
  (20, .alu .sub true 6 (.register 7)),
  (21, .store 8 10 (-16) 6),
  (22, .mov false 1 (.immediate 2)),
  (23, .store 4 10 (-4) 1),
  (24, .mov true 2 (.register 10)),
  (25, .alu .add true 2 (.immediate (-4))),
  (26, .mov true 3 (.register 10)),
  (27, .alu .add true 3 (.immediate (-16))),
  (28, .loadMap 1),
  (30, .mov true 4 (.immediate 0)),
  (31, .call 2),
  (32, .mov false 0 (.immediate 1)),
  (33, .exit)] : Program Instruction)

def filterAlu32 : Program Instruction := argsGets ++ ([
  (20, .mov false 2 (.register 7)),
  (21, .alu .shl true 2 (.immediate 32)),
  (22, .alu .shr true 2 (.immediate 32)),
  (23, .mov false 3 (.register 6)),
  (24, .alu .shl true 3 (.immediate 32)),
  (25, .alu .shr true 3 (.immediate 32)),
  (26, .mov false 1 (.immediate 1)),
  (27, .jgt 2 3 1),
  (28, .mov false 1 (.immediate 0)),
  (29, .mov true 2 (.register 7)),
  (30, .alu .shr true 2 (.immediate 32)),
  (31, .mov true 3 (.register 6)),
  (32, .alu .shr true 3 (.immediate 32)),
  (33, .alu .sub true 3 (.register 2)),
  (34, .mov false 2 (.immediate 2)),
  (35, .store 4 10 (-4) 2),
  (36, .alu .sub true 3 (.register 1)),
  (37, .alu .sub true 6 (.register 7)),
  (38, .alu .shl true 3 (.immediate 32)),
  (39, .alu .shl true 6 (.immediate 32)),
  (40, .alu .shr true 6 (.immediate 32)),
  (41, .alu .or true 3 (.register 6)),
  (42, .store 8 10 (-16) 3),
  (43, .mov true 2 (.register 10)),
  (44, .alu .add true 2 (.immediate (-4))),
  (45, .mov true 3 (.register 10)),
  (46, .alu .add true 3 (.immediate (-16))),
  (47, .loadMap 1),
  (49, .mov true 4 (.immediate 0)),
  (50, .call 2),
  (51, .mov false 0 (.immediate 1)),
  (52, .exit)] : Program Instruction)

def filterIr : Program Instruction := argsGets ++ ([
  (20, .mov false 1 (.register 6)),
  (21, .alu .sub false 1 (.register 7)),
  (22, .mov false 3 (.register 6)),
  (23, .alu .shl true 3 (.immediate 32)),
  (24, .alu .shr true 3 (.immediate 32)),
  (25, .mov false 2 (.immediate 1)),
  (26, .jgt 1 3 1),
  (27, .mov false 2 (.immediate 0)),
  (28, .alu .shr true 7 (.immediate 32)),
  (29, .alu .shr true 6 (.immediate 32)),
  (30, .alu .sub false 6 (.register 7)),
  (31, .alu .sub false 6 (.register 2)),
  (32, .mov false 2 (.immediate 2)),
  (33, .store 4 10 (-4) 2),
  (34, .alu .shl true 6 (.immediate 32)),
  (35, .alu .or true 6 (.register 1)),
  (36, .store 8 10 (-16) 6),
  (37, .mov true 2 (.register 10)),
  (38, .alu .add true 2 (.immediate (-4))),
  (39, .mov true 3 (.register 10)),
  (40, .alu .add true 3 (.immediate (-16))),
  (41, .loadMap 1),
  (43, .mov true 4 (.immediate 0)),
  (44, .call 2),
  (45, .mov false 0 (.immediate 1)),
  (46, .exit)] : Program Instruction)

def filterStv : Program Instruction := argsGets ++ ([
  (20, .mov true 2 (.register 7)),
  (21, .alu .shr true 2 (.immediate 32)),
  (22, .mov true 1 (.register 6)),
  (23, .alu .shr true 1 (.immediate 32)),
  (24, .alu .sub false 1 (.register 2)),
  (25, .mov false 3 (.register 7)),
  (26, .alu .shl true 3 (.immediate 32)),
  (27, .alu .shr true 3 (.immediate 32)),
  (28, .mov false 4 (.register 6)),
  (29, .alu .shl true 4 (.immediate 32)),
  (30, .alu .shr true 4 (.immediate 32)),
  (31, .mov false 2 (.immediate 1)),
  (32, .jgt 3 4 1),
  (33, .mov false 2 (.immediate 0)),
  (34, .alu .sub false 1 (.register 2)),
  (35, .alu .sub false 6 (.register 7)),
  (36, .store 4 10 (-4) 6),
  (37, .store 4 10 (-16) 1),
  (38, .alu .shl true 1 (.immediate 32)),
  (39, .alu .or true 1 (.register 6)),
  (40, .store 8 10 (-16) 1),
  (41, .mov false 1 (.immediate 2)),
  (42, .store 4 10 (-4) 1),
  (43, .mov true 2 (.register 10)),
  (44, .alu .add true 2 (.immediate (-4))),
  (45, .mov true 3 (.register 10)),
  (46, .alu .add true 3 (.immediate (-16))),
  (47, .loadMap 1),
  (49, .mov true 4 (.immediate 0)),
  (50, .call 2),
  (51, .mov false 0 (.immediate 1)),
  (52, .exit)] : Program Instruction)

/-- The body is the same in `filter.s` and in `sub64_ir.s`. -/
def sub64Ir : Program Instruction := [
  (0, .mov true 0 (.register 1)),
  (1, .alu .sub false 1 (.register 2)),
  (2, .mov false 3 (.immediate 1)),
  (3, .mov false 4 (.register 0)),
  (4, .alu .shl true 4 (.immediate 32)),
  (5, .alu .shr true 4 (.immediate 32)),
  (6, .jgt 1 4 1),
  (7, .mov false 3 (.immediate 0)),
  (8, .alu .shr true 2 (.immediate 32)),
  (9, .alu .shr true 0 (.immediate 32)),
  (10, .alu .sub false 0 (.register 2)),
  (11, .alu .sub false 0 (.register 3)),
  (12, .alu .shl true 0 (.immediate 32)),
  (13, .alu .or true 0 (.register 1)),
  (14, .exit)]

def sub32V1 : Program Instruction := [
  (0, .mov true 0 (.register 1)),
  (1, .alu .sub true 0 (.register 2)),
  (2, .alu .shl true 0 (.immediate 32)),
  (3, .alu .shr true 0 (.immediate 32)),
  (4, .exit)]

def sub32V2 : Program Instruction := [
  (0, .alu .sub false 1 (.register 2)),
  (1, .store 4 10 (-4) 1),
  (2, .load 4 0 10 (-4)),
  (3, .exit)]

def sub32V3 : Program Instruction := [
  (0, .mov true 0 (.register 1)),
  (1, .alu .sub false 0 (.register 2)),
  (2, .store 4 10 (-4) 0),
  (3, .exit)]

def programs : List (Program Instruction) := [filterAlu64, filterAlu32, filterIr, filterStv]

/-! ## Halves -/

theorem toNat_low (x : U64) : (low x).toNat = x.toNat % 2 ^ 32 := by
  simp only [low, BitVec.toNat_setWidth]
  omega

theorem toU32_low (x : U64) : toU32 (low x) = toU32 x := by
  apply BitVec.eq_of_toNat_eq
  rw [toU32, toU32, BitVec.toNat_setWidth, BitVec.toNat_setWidth, toNat_low, Nat.mod_mod]

theorem low_two : low 2#64 = 2#64 := by decide

theorem low_low (x : U64) : low (low x) = low x := by
  apply BitVec.eq_of_toNat_eq
  rw [toNat_low, toNat_low, Nat.mod_mod]

theorem toU32_sub (x y : U64) : toU32 (x - y) = toU32 x - toU32 y := by
  apply BitVec.eq_of_toNat_eq
  simp only [toU32, BitVec.toNat_setWidth, BitVec.toNat_sub]
  omega

theorem low_sub_low (x y : U64) : low (low x - low y) = low (x - y) := by
  have halves : toU32 (low x - low y) = toU32 (x - y) := by
    rw [toU32_sub, toU32_sub, toU32_low, toU32_low]
  exact congrArg toU64 halves

theorem shl_shr (x : U64) : x <<< 32 >>> 32 = low x := by
  apply BitVec.eq_of_toNat_eq
  rw [toNat_low, BitVec.toNat_ushiftRight, BitVec.toNat_shiftLeft, Nat.shiftLeft_eq,
    Nat.shiftRight_eq_div_pow]
  omega

theorem toU64_toU32_shl (x : U64) : toU64 (toU32 x) <<< 32 = x <<< 32 := by
  apply BitVec.eq_of_toNat_eq
  simp only [toU64, toU32, BitVec.toNat_shiftLeft, BitVec.toNat_setWidth, Nat.shiftLeft_eq]
  omega

theorem low_lt_low {x y : U64} : low x < low y ↔ toU32 x < toU32 y := by
  rw [BitVec.lt_def, BitVec.lt_def, toNat_low, toNat_low, toU32, toU32, BitVec.toNat_setWidth,
    BitVec.toNat_setWidth]

/-- What the upper half has to be, up to a multiple of `2 ^ 32`. -/
theorem halves_eq {x y high : U64}
    (upper : toU32 high = toU32 (x >>> 32) - toU32 (y >>> 32) - if toU32 x < toU32 y then 1 else 0) :
    high <<< 32 ||| low (x - y) = x - y := by
  have halves := sub64_eq x y
  simp only [sub64, gt_iff_lt, lt_sub_iff] at halves
  rw [← upper, toU64_toU32_shl, ← toU32_sub] at halves
  exact halves

theorem toU32_if (c : Prop) [Decidable c] :
    toU32 (if c then 1#64 else 0#64) = if c then 1 else 0 := by
  split <;> rfl

/-! ## The arguments -/

variable {base offset next here : Address} {args : Args} {s t : Cpu 3} {listing : Program Instruction}
  {post : Cpu 3 → Prop}

/-- The instructions that look up a key. -/
def lookup (key : BitVec 64) : List Instruction := [
  .mov false 1 (.immediate key), .store 4 10 (-16) 1, .mov true 2 (.register 10),
  .alu .add true 2 (.immediate (-16)), .loadMap 1]

theorem fetches_argsGets : ∀ listing ∈ programs,
    fetches listing 6 0 = some (lookup 0 ++ [.call 1], 7) ∧
      fetches listing 2 7 =
        some ([.mov true 7 (.immediate 0), .mov true 6 (.immediate 0)], 9) ∧
      fetch listing 9 = some (.jeqz 0 1, 10) ∧ fetches listing 1 10 = some ([.load 8 6 0 0], 11) ∧
      fetches listing 6 11 = some (lookup 1 ++ [.call 1], 18) ∧
      fetch listing 18 = some (.jeqz 0 1, 19) ∧ fetches listing 1 19 = some ([.load 8 7 0 0], 20) := by
  decide_cbv

/-- `t` has the address of an element, and what `s` has of the rest. -/
structure Looked (index : Nat) (s t : Cpu 3) : Prop where
  result : t.registers 0 = .element index
  first : t.registers 6 = s.registers 6
  second : t.registers 7 = s.registers 7
  frame : t.registers 10 = s.registers 10
  array : t.array = s.array

theorem effects_lookup {index : Nat} (small : index < 3) (frame : s.registers 10 = .frame 0) :
    Looked index s ((isa 3).effects (lookup (BitVec.ofNat 64 index) ++ [.call 1]) s) := by
  have looked : ((isa 3).effects (lookup (BitVec.ofNat 64 index)) s).lookup = .element index := by
    refine lookup_eq (-16) ?_ ?_ (by decide) ?_ small (by decide) <;>
      simp (disch := decide) [lookup, frame, load_store, low]
  rw [effects_append, effects_cons, effects_nil, isa_effect, effect]
  refine ⟨looked, ?_, ?_, ?_, ?_⟩ <;>
    simp (disch := decide) [lookup, frame]

theorem reaches_lookup (index : Nat) (offset : Address) (small : index < 3) (at_ : s.pc = base + offset)
    (frame : s.registers 10 = .frame 0)
    (found : fetches listing 6 offset = some (lookup (BitVec.ofNat 64 index) ++ [.call 1], next))
    (rest : ∀ t, t.pc = base + next → Looked index s t → (isa 3).Reaches listing base t post) :
    (isa 3).Reaches listing base s post := by
  have looked := effects_lookup small frame
  exact reaches_from at_ (reaches_code found rfl (rest _ rfl
    ⟨looked.result, looked.first, looked.second, looked.frame, looked.array⟩))

structure Entered (base : Address) (args : Args) (s : Cpu 3) : Prop where
  pc : s.pc = base + 0
  frame : s.registers 10 = .frame 0
  array : s.array = args

structure Fetched (base : Address) (args : Args) (s : Cpu 3) : Prop where
  pc : s.pc = base + 20
  first : s.registers 6 = .number (getElem args 0 (by decide))
  second : s.registers 7 = .number (getElem args 1 (by decide))
  frame : s.registers 10 = .frame 0
  array : s.array = args

theorem reaches_argsGets (member : listing ∈ programs) (entered : Entered base args s)
    (rest : ∀ t, Fetched base args t → (isa 3).Reaches listing base t post) :
    (isa 3).Reaches listing base s post := by
  obtain ⟨lookups, moves, jumps, loads, lookups', jumps', loads'⟩ := fetches_argsGets listing member
  refine reaches_lookup 0 _ (by decide) entered.pc entered.frame lookups ?_
  intro t at_ looked
  refine reaches_from at_ (reaches_code moves rfl ?_)
  refine reaches_branch (.jeqz 0 1) 10 false jumps ?_ rfl (reaches_code loads rfl ?_)
  · simp [Cpu.condition, looked.result, Value.isZero]
  · refine reaches_lookup 1 11 (by decide) rfl ?_ lookups' ?_
    · simp [Isa.behind, looked.frame, entered.frame]
    · intro u at_' looked'
      refine reaches_from at_' ?_
      refine reaches_branch (.jeqz 0 1) 19 false jumps' ?_ rfl (reaches_code loads' rfl ?_)
      · simp [Cpu.condition, looked'.result, Value.isZero]
      · refine rest _ ⟨rfl, ?_, ?_, ?_, ?_⟩
        · simp (disch := decide) [Isa.behind, looked'.first, looked.result, looked.array,
            entered.array]
        · simp (disch := decide) [Isa.behind, looked'.result, looked'.array, looked.array,
            entered.array]
        · simp [Isa.behind, looked'.frame, looked.frame, entered.frame]
        · simp [Isa.behind, looked'.array, looked.array, entered.array]

/-! ## The result -/

/-- The instructions that point to the key and to the value of an update. -/
def pointers : List Instruction := [
  .mov true 2 (.register 10), .alu .add true 2 (.immediate (-4)), .mov true 3 (.register 10),
  .alu .add true 3 (.immediate (-16)), .loadMap 1, .mov true 4 (.immediate 0)]

/-- The frame has the key and the value of the update. -/
structure Prepared (args : Args) (r : U64) (t : Cpu 3) : Prop where
  frame : t.registers 10 = .frame 0
  key : load t.stack (-4) 4 = 2
  value : load t.stack (-16) 8 = r
  array : t.array = args

theorem update_pointers {r : U64} (prepared : Prepared args r t) :
    ((isa 3).effects pointers t).update = (.number 0, argsPut args ArgsKeys.res0.value r) := by
  have stack : ((isa 3).effects pointers t).stack = t.stack := rfl
  have key : ((isa 3).effects pointers t).registers 2 = .frame (-4) := by
    simp [pointers, prepared.frame]
  have value : ((isa 3).effects pointers t).registers 3 = .frame (-16) := by
    simp [pointers, prepared.frame]
  have number : ArgsKeys.res0.value.toNat = 2 := by decide
  rw [update_eq rfl key value rfl (by decide) (by rw [stack, prepared.key]; rfl) (by decide : 2 < 3)
    (by decide), stack, prepared.value, argsPut, number, ← prepared.array]
  rfl

theorem exits_update (next : Address) {r : U64} (at_ : t.pc = base + offset) (prepared : Prepared args r t)
    (found : fetches listing 8 offset =
      some (pointers ++ [.call 2, .mov false 0 (.immediate 1)], next))
    (ends : (fetch listing next).map Prod.fst = some .exit) :
    Exits listing base t 1 (argsPut args ArgsKeys.res0.value r) := by
  have updated := update_pointers prepared
  refine reaches_from at_ (reaches_code found rfl (.here ⟨?_, ?_, ?_⟩))
  · rw [Isa.behind, isa_goto, pc_goto, add_sub_self, ends]
  · simp [Isa.behind, effects_append, low]
  · simp [Isa.behind, effects_append, updated]

/-- `if r > q goto +1` over an instruction that clears what is one before. -/
theorem reaches_borrow (r q d : Register) (next : Address) (a b : U64)
    (jumps : fetch listing here = some (.jgt r q 1, next))
    (clears : fetches listing 1 next = some ([.mov false d (.immediate 0)], next + 1))
    (at_ : t.pc = base + here) (left : t.registers r = .number a) (right : t.registers q = .number b)
    (one : t.registers d = .number 1)
    (rest : (isa 3).Reaches listing base
      ((t.set d (.number (if b < a then 1 else 0))).goto (base + (next + 1))) post) :
    (isa 3).Reaches listing base t post := by
  have compared : ((isa 3).effects [] t).condition (.jgt r q 1) = some (decide (b < a)) := by
    simp only [effects_nil, Cpu.condition, left, right, Value.above]
  refine reaches_from at_ ?_
  by_cases below : b < a
  · rw [decide_eq_true below] at compared
    rw [if_pos below, ← one] at rest
    refine reaches_branch (.jgt r q 1) next _ jumps compared rfl ?_
    have still : t.set d (t.registers d) = t := by
      rw [Cpu.set, Function.update_eq_self]
    rwa [still] at rest
  · rw [decide_eq_false below] at compared
    rw [if_neg below] at rest
    exact reaches_branch (.jgt r q 1) next _ jumps compared rfl (reaches_code clears rfl rest)

/-! ## The filters -/

theorem filterAlu64_exits (entered : Entered base args s) :
    Exits filterAlu64 base s 1 (argsPut args ArgsKeys.res0.value
      (getElem args 0 (by decide) - getElem args 1 (by decide))) := by
  refine reaches_argsGets (by decide) entered fun t fetched => ?_
  have body : fetches filterAlu64 4 20 = some ([.alu .sub true 6 (.register 7),
      .store 8 10 (-16) 6, .mov false 1 (.immediate 2), .store 4 10 (-4) 1], 24) := by decide_cbv
  refine reaches_from fetched.pc (reaches_code body rfl ?_)
  refine exits_update 33 rfl ⟨?_, ?_, ?_, ?_⟩ (by decide_cbv) (by decide_cbv)
  · simp (disch := decide) [Isa.behind, fetched.frame, fetched.first, fetched.second]
  · simp (disch := decide) [Isa.behind, fetched.frame, fetched.first, fetched.second, low_two]
  · simp (disch := decide) [Isa.behind, fetched.frame, fetched.first, fetched.second]
  · simp (disch := decide) [Isa.behind, fetched.frame, fetched.first, fetched.second, fetched.array]

theorem filterAlu32_exits (entered : Entered base args s) :
    Exits filterAlu32 base s 1 (argsPut args ArgsKeys.res0.value
      (getElem args 0 (by decide) - getElem args 1 (by decide))) := by
  refine reaches_argsGets (by decide) entered fun t fetched => ?_
  have first : fetches filterAlu32 7 20 = some ([.mov false 2 (.register 7),
      .alu .shl true 2 (.immediate 32), .alu .shr true 2 (.immediate 32), .mov false 3 (.register 6),
      .alu .shl true 3 (.immediate 32), .alu .shr true 3 (.immediate 32),
      .mov false 1 (.immediate 1)], 27) := by decide_cbv
  have second : fetches filterAlu32 14 29 = some ([.mov true 2 (.register 7),
      .alu .shr true 2 (.immediate 32), .mov true 3 (.register 6), .alu .shr true 3 (.immediate 32),
      .alu .sub true 3 (.register 2), .mov false 2 (.immediate 2), .store 4 10 (-4) 2,
      .alu .sub true 3 (.register 1), .alu .sub true 6 (.register 7), .alu .shl true 3 (.immediate 32),
      .alu .shl true 6 (.immediate 32), .alu .shr true 6 (.immediate 32), .alu .or true 3 (.register 6),
      .store 8 10 (-16) 3], 43) := by decide_cbv
  refine reaches_from fetched.pc (reaches_code first rfl ?_)
  refine reaches_borrow 2 3 1 28 (low args[1] <<< 32 >>> 32) (low args[0] <<< 32 >>> 32)
    (by decide_cbv) (by decide_cbv) rfl ?_ ?_ ?_ ?_
  · simp [Isa.behind, fetched.second]
  · simp [Isa.behind, fetched.first]
  · simp [Isa.behind, low]
  · refine reaches_from rfl (reaches_code second rfl ?_)
    refine exits_update 52 rfl ⟨?_, ?_, ?_, ?_⟩ (by decide_cbv) (by decide_cbv)
    · simp (disch := decide) [Isa.behind, fetched.frame, fetched.first, fetched.second]
    · simp (disch := decide) [Isa.behind, fetched.frame, fetched.first, fetched.second, low_two]
    · simp (disch := decide) [Isa.behind, fetched.frame, fetched.first, fetched.second]
      simp only [shl_shr, low_low]
      rw [halves_eq]
      simp only [toU32_sub, toU32_if, low_lt_low]
    · simp (disch := decide) [Isa.behind, fetched.frame, fetched.first, fetched.second,
        fetched.array]

theorem filterIr_exits (entered : Entered base args s) :
    Exits filterIr base s 1 (argsPut args ArgsKeys.res0.value
      (getElem args 0 (by decide) - getElem args 1 (by decide))) := by
  refine reaches_argsGets (by decide) entered fun t fetched => ?_
  have first : fetches filterIr 6 20 = some ([.mov false 1 (.register 6),
      .alu .sub false 1 (.register 7), .mov false 3 (.register 6), .alu .shl true 3 (.immediate 32),
      .alu .shr true 3 (.immediate 32), .mov false 2 (.immediate 1)], 26) := by decide_cbv
  have second : fetches filterIr 9 28 = some ([.alu .shr true 7 (.immediate 32),
      .alu .shr true 6 (.immediate 32), .alu .sub false 6 (.register 7),
      .alu .sub false 6 (.register 2), .mov false 2 (.immediate 2), .store 4 10 (-4) 2,
      .alu .shl true 6 (.immediate 32), .alu .or true 6 (.register 1), .store 8 10 (-16) 6],
      37) := by decide_cbv
  refine reaches_from fetched.pc (reaches_code first rfl ?_)
  refine reaches_borrow 1 3 2 27
    (low (low (low args[0]) - low args[1])) (low args[0] <<< 32 >>> 32)
    (by decide_cbv) (by decide_cbv) rfl ?_ ?_ ?_ ?_
  · simp [Isa.behind, fetched.first, fetched.second]
  · simp [Isa.behind, fetched.first]
  · simp [Isa.behind, low]
  · refine reaches_from rfl (reaches_code second rfl ?_)
    refine exits_update 46 rfl ⟨?_, ?_, ?_, ?_⟩ (by decide_cbv) (by decide_cbv)
    · simp (disch := decide) [Isa.behind, fetched.frame, fetched.first, fetched.second]
    · simp (disch := decide) [Isa.behind, fetched.frame, fetched.first, fetched.second, low_two]
    · simp (disch := decide) [Isa.behind, fetched.frame, fetched.first, fetched.second]
      simp only [shl_shr, low_low, low_sub_low]
      rw [halves_eq]
      simp only [toU32_low, toU32_sub, toU32_if, low_lt_low, lt_sub_iff]
    · simp (disch := decide) [Isa.behind, fetched.frame, fetched.first, fetched.second,
        fetched.array]

theorem filterStv_exits (entered : Entered base args s) :
    Exits filterStv base s 1 (argsPut args ArgsKeys.res0.value
      (getElem args 0 (by decide) - getElem args 1 (by decide))) := by
  refine reaches_argsGets (by decide) entered fun t fetched => ?_
  have first : fetches filterStv 12 20 = some ([.mov true 2 (.register 7),
      .alu .shr true 2 (.immediate 32), .mov true 1 (.register 6), .alu .shr true 1 (.immediate 32),
      .alu .sub false 1 (.register 2), .mov false 3 (.register 7), .alu .shl true 3 (.immediate 32),
      .alu .shr true 3 (.immediate 32), .mov false 4 (.register 6), .alu .shl true 4 (.immediate 32),
      .alu .shr true 4 (.immediate 32), .mov false 2 (.immediate 1)], 32) := by decide_cbv
  have second : fetches filterStv 9 34 = some ([.alu .sub false 1 (.register 2),
      .alu .sub false 6 (.register 7), .store 4 10 (-4) 6, .store 4 10 (-16) 1,
      .alu .shl true 1 (.immediate 32), .alu .or true 1 (.register 6), .store 8 10 (-16) 1,
      .mov false 1 (.immediate 2), .store 4 10 (-4) 1], 43) := by decide_cbv
  refine reaches_from fetched.pc (reaches_code first rfl ?_)
  refine reaches_borrow 3 4 2 33 (low args[1] <<< 32 >>> 32) (low args[0] <<< 32 >>> 32)
    (by decide_cbv) (by decide_cbv) rfl ?_ ?_ ?_ ?_
  · simp [Isa.behind, fetched.second]
  · simp [Isa.behind, fetched.first]
  · simp [Isa.behind, low]
  · refine reaches_from rfl (reaches_code second rfl ?_)
    refine exits_update 52 rfl ⟨?_, ?_, ?_, ?_⟩ (by decide_cbv) (by decide_cbv)
    · simp (disch := decide) [Isa.behind, fetched.frame, fetched.first, fetched.second]
    · simp (disch := decide) [Isa.behind, fetched.frame, fetched.first, fetched.second, low_two]
    · simp (disch := decide) [Isa.behind, fetched.frame, fetched.first, fetched.second]
      simp only [shl_shr, low_low, low_sub_low]
      rw [halves_eq]
      simp only [toU32_low, toU32_sub, toU32_if, low_lt_low]
    · simp (disch := decide) [Isa.behind, fetched.frame, fetched.first, fetched.second,
        fetched.array]

/-- A program is entered with the context in `r1` and the end of its frame in `r10`. -/
def enter (base : Address) (stack : Bytes) (args : Args) : Cpu 3 where
  pc := base
  registers r := if r = 1 then .context else if r = 10 then .frame 0 else .unknown
  stack := stack
  array := args

theorem entered_enter (base : Address) (stack : Bytes) (args : Args) :
    Entered base args (enter base stack args) :=
  ⟨(BitVec.add_zero base).symm, rfl, rfl⟩

/-- The program does what the function does in C. -/
def Refines (listing : Program Instruction) (function : Args → Option (Nat × Args)) : Prop :=
  ∀ base stack args, ∃ result left, function args = some (result, left) ∧
    Exits listing base (enter base stack args) (BitVec.ofNat 64 result) left

theorem refines_filter {listing : Program Instruction} {sub : U64 → U64 → Option U64}
    (subtracts : ∀ x y, sub x y = some (x - y))
    (exits : ∀ {base args s}, Entered base args s →
      Exits listing base s 1 (argsPut args ArgsKeys.res0.value
        (getElem args 0 (by decide) - getElem args 1 (by decide)))) :
    Refines listing (filter sub) := by
  intro base stack args
  refine ⟨skPass, argsPut args ArgsKeys.res0.value (args[0] - args[1]), ?_,
    exits (entered_enter base stack args)⟩
  show (sub args[0] args[1]).map _ = _
  rw [subtracts]
  rfl

/-- The four compiled filters, for any arguments and any content of the stack. -/
theorem filters_refine (memory : Stored) :
    Refines filterAlu64 Ebpf.filterAlu64 ∧ Refines filterAlu32 Ebpf.filterAlu32 ∧
      Refines filterIr (Ebpf.filterIr fun x y => some (Ebpf.sub64Ir x y)) ∧
      Refines filterStv (Ebpf.filterStv memory) := by
  refine ⟨refines_filter ?_ filterAlu64_exits, refines_filter ?_ filterAlu32_exits,
    refines_filter ?_ filterIr_exits, refines_filter ?_ filterStv_exits⟩
  · exact fun x y => rfl
  · exact fun x y => congrArg some (sub64_eq x y)
  · exact fun x y => congrArg some (sub64_eq x y)
  · exact fun x y => congrArg some (sub64Stv_eq memory x y)

/-! ## The subtractions -/

/-- `sub32_v1`, `sub32_v2` and `sub32_v3`; what is stored to memory in between comes back unchanged. -/
def sub32 (x y : U64) : U64 := toU64 (toU32 x - toU32 y)

theorem sub32_eq (x y : U64) : sub32 x y = low (x - y) := by
  rw [sub32, ← toU32_sub]
  rfl

/-- A function is called with its arguments in `r1` and `r2`. -/
def call (base : Address) (stack : Bytes) (args : Args) (x y : U64) : Cpu 3 :=
  ((enter base stack args).set 1 (.number x)).set 2 (.number y)

theorem sub64Ir_exits (base : Address) (stack : Bytes) (args : Args) (x y : U64) :
    Exits sub64Ir base (call base stack args x y) (Ebpf.sub64Ir x y) args := by
  have at_ : (call base stack args x y).pc = base + 0 := (BitVec.add_zero base).symm
  have first : (call base stack args x y).registers 1 = .number x := rfl
  have second : (call base stack args x y).registers 2 = .number y := rfl
  have before : fetches sub64Ir 6 0 = some ([.mov true 0 (.register 1), .alu .sub false 1 (.register 2),
      .mov false 3 (.immediate 1), .mov false 4 (.register 0), .alu .shl true 4 (.immediate 32),
      .alu .shr true 4 (.immediate 32)], 6) := by decide_cbv
  have behind : fetches sub64Ir 6 8 = some ([.alu .shr true 2 (.immediate 32),
      .alu .shr true 0 (.immediate 32), .alu .sub false 0 (.register 2),
      .alu .sub false 0 (.register 3), .alu .shl true 0 (.immediate 32),
      .alu .or true 0 (.register 1)], 14) := by decide_cbv
  refine reaches_from at_ (reaches_code before rfl ?_)
  refine reaches_borrow 1 4 3 7 (low (low x - low y)) (low x <<< 32 >>> 32)
    (by decide_cbv) (by decide_cbv) rfl ?_ ?_ ?_ ?_
  · simp [Isa.behind, first, second]
  · simp [Isa.behind, first]
  · simp [Isa.behind, low]
  · refine reaches_from rfl (reaches_code behind rfl (.here ⟨?_, ?_, ?_⟩))
    · rw [Isa.behind, isa_goto, pc_goto, add_sub_self]
      decide_cbv
    · simp (disch := decide) [Isa.behind, first, second]
      simp only [shl_shr, low_low, low_sub_low]
      rw [Ebpf.sub64Ir, sub64_eq, halves_eq]
      simp only [toU32_low, toU32_sub, toU32_if, low_lt_low, lt_sub_iff]
    · rfl

theorem sub32V1_exits (base : Address) (stack : Bytes) (args : Args) (x y : U64) :
    Exits sub32V1 base (call base stack args x y) (sub32 x y) args := by
  have at_ : (call base stack args x y).pc = base + 0 := (BitVec.add_zero base).symm
  have first : (call base stack args x y).registers 1 = .number x := rfl
  have second : (call base stack args x y).registers 2 = .number y := rfl
  have body : fetches sub32V1 4 0 = some ([.mov true 0 (.register 1), .alu .sub true 0 (.register 2),
      .alu .shl true 0 (.immediate 32), .alu .shr true 0 (.immediate 32)], 4) := by decide_cbv
  refine reaches_from at_ (reaches_code body rfl (.here ⟨?_, ?_, rfl⟩))
  · rw [Isa.behind, isa_goto, pc_goto, add_sub_self]
    decide_cbv
  · simp [Isa.behind, first, second]
    rw [shl_shr, sub32_eq]

theorem sub32V2_exits (base : Address) (stack : Bytes) (args : Args) (x y : U64) :
    Exits sub32V2 base (call base stack args x y) (sub32 x y) args := by
  have at_ : (call base stack args x y).pc = base + 0 := (BitVec.add_zero base).symm
  have first : (call base stack args x y).registers 1 = .number x := rfl
  have second : (call base stack args x y).registers 2 = .number y := rfl
  have frame : (call base stack args x y).registers 10 = .frame 0 := rfl
  have body : fetches sub32V2 3 0 = some ([.alu .sub false 1 (.register 2), .store 4 10 (-4) 1,
      .load 4 0 10 (-4)], 3) := by decide_cbv
  refine reaches_from at_ (reaches_code body rfl (.here ⟨?_, ?_, rfl⟩))
  · rw [Isa.behind, isa_goto, pc_goto, add_sub_self]
    decide_cbv
  · simp (disch := decide) [Isa.behind, first, second, frame]
    show low (low (low x - low y)) = _
    rw [low_low, low_sub_low, sub32_eq]

theorem sub32V3_exits (base : Address) (stack : Bytes) (args : Args) (x y : U64) :
    Exits sub32V3 base (call base stack args x y) (sub32 x y) args := by
  have at_ : (call base stack args x y).pc = base + 0 := (BitVec.add_zero base).symm
  have first : (call base stack args x y).registers 1 = .number x := rfl
  have second : (call base stack args x y).registers 2 = .number y := rfl
  have frame : (call base stack args x y).registers 10 = .frame 0 := rfl
  have body : fetches sub32V3 3 0 = some ([.mov true 0 (.register 1),
      .alu .sub false 0 (.register 2), .store 4 10 (-4) 0], 3) := by decide_cbv
  refine reaches_from at_ (reaches_code body rfl (.here ⟨?_, ?_, ?_⟩))
  · rw [Isa.behind, isa_goto, pc_goto, add_sub_self]
    decide_cbv
  · simp (disch := decide) [Isa.behind, first, second, frame]
    rw [low_sub_low, sub32_eq]
  · simp (disch := decide) [Isa.behind, first, second, frame]
    rfl

/-- The four compiled functions, for any arguments and any content of the stack. -/
theorem functions_exit (base : Address) (stack : Bytes) (args : Args) (x y : U64) :
    Exits sub64Ir base (call base stack args x y) (Ebpf.sub64Ir x y) args ∧
      ∀ listing ∈ [sub32V1, sub32V2, sub32V3],
        Exits listing base (call base stack args x y) (sub32 x y) args := by
  refine ⟨sub64Ir_exits base stack args x y, fun listing member => ?_⟩
  simp only [List.mem_cons, List.not_mem_nil, or_false] at member
  obtain rfl | rfl | rfl := member
  · exact sub32V1_exits base stack args x y
  · exact sub32V2_exits base stack args x y
  · exact sub32V3_exits base stack args x y

end CloudflareBlog.Ebpf.Compiled
