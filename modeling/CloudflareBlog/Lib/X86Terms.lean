import CloudflareBlog.Lib.X86Asm

/-!
# What straight code computes

For code without jumps, what a place holds behind it is a term over the places before it, found by going
through the code backwards.  The flags are those of a comparison of two such terms.
-/

namespace CloudflareBlog.Lib.X86Asm

open Memory Listing

inductive Term where
  | constant (value : BitVec 64)
  | place (p : Place)
  | add (left right : Term)
  | sub (left right : Term)
  | and (left right : Term)
  /-- Of the lower halves. -/
  | xor32 (left right : Term)
  deriving DecidableEq, Repr

namespace Term

def eval (s : Cpu) : Term → BitVec 64
  | constant value => value
  | place p => s.get p
  | add left right => left.eval s + right.eval s
  | sub left right => left.eval s - right.eval s
  | and left right => left.eval s &&& right.eval s
  | xor32 left right => ((left.eval s).setWidth 32 ^^^ (right.eval s).setWidth 32).setWidth 64

/-- A term over the frame. -/
def local_ (size : Nat) : Term → Bool
  | constant _ => true
  | place p => InFrame size p
  | add left right | sub left right | and left right | xor32 left right =>
    left.local_ size && right.local_ size

def ofRegister (r : Register) : Term := place (.register r)

def ofSource : Source → Term
  | .immediate value => constant value
  | .place p => place p

end Term

/-- What an instruction computes, and where it goes. -/
def computes (i : Instruction) : Option (Place × Term) :=
  match i with
  | .mov source destination => some (destination, .ofSource source)
  | .movl value r => some (.register r, .constant (value.setWidth 64))
  | .xorl source r => some (.register r, .xor32 (.ofRegister r) (.ofRegister source))
  | .add source destination => some (destination, .add (.place destination) (.ofSource source))
  | .sub source destination => some (destination, .sub (.place destination) (.ofSource source))
  | .lea displacement base none r =>
    some (.register r, .add (.ofRegister base) (.constant displacement))
  | .lea displacement base (some index) r =>
    some (.register r, .add (.add (.ofRegister base) (.constant displacement)) (.ofRegister index))
  | _ => none

/-- What the flags of an instruction compare.  Those of an addition are left out. -/
def compares (i : Instruction) : Option (Term × Term) :=
  match i with
  | .cmp source destination | .sub source destination =>
    some (.place destination, .ofSource source)
  | .test source r => some (.and (.ofRegister r) (.ofRegister source), .constant 0)
  | .xorl source r => some (.xor32 (.ofRegister r) (.ofRegister source), .constant 0)
  | _ => none

def keepsFlags : Instruction → Bool
  | .mov _ _ | .movl _ _ | .lea _ _ _ _ | .nop | .jmp _ | .j _ _ => true
  | _ => false

/-- Instructions over the frame that leave the stack pointer alone. -/
def plain (size : Nat) : Instruction → Bool
  | .mov source destination | .add source destination | .sub source destination
  | .cmp source destination => (Term.ofSource source).local_ size && InFrame size destination
  | .movl _ r => InFrame size (.register r)
  | .xorl q r | .test q r => InFrame size (.register q) && InFrame size (.register r)
  | .lea _ base index r =>
    InFrame size (.register base) && (index.all fun r => InFrame size (.register r)) &&
      InFrame size (.register r)
  | .nop | .jmp _ | .j _ _ => true
  | .push _ | .pop _ | .call _ | .ret => false

namespace Term

/-- The term that has the value before an instruction which this one has behind it. -/
def before (i : Instruction) : Term → Term
  | constant value => constant value
  | place p =>
    match computes i with
    | some (destination, term) => if p = destination then term else place p
    | none => place p
  | add left right => add (left.before i) (right.before i)
  | sub left right => sub (left.before i) (right.before i)
  | and left right => and (left.before i) (right.before i)
  | xor32 left right => xor32 (left.before i) (right.before i)

def through (code : List Instruction) (term : Term) : Term := code.foldr before term

end Term

/-- The comparison that the flags are left from, in terms over the state before the code. -/
def comparison : List Instruction → Option (Term × Term)
  | [] => none
  | i :: code =>
    match comparison code with
    | some (left, right) => some (left.before i, right.before i)
    | none => if code.all keepsFlags then compares i else none

def Condition.of (left right : BitVec 64) : Condition → Bool
  | .e => left == right
  | .ne => !(left == right)
  | .a => right < left
  | .be => left ≤ right

variable {size : Nat} {i : Instruction} {code : List Instruction} {s : Cpu} {p destination : Place}
  {term left right : Term} {condition : Condition}

theorem read_eq (s : Cpu) (source : Source) : s.read source = (Term.ofSource source).eval s := by
  cases source with
  | immediate => rfl
  | place => rfl

theorem get_effect_of_computes (next : Address) (fits : size ≤ 2 ^ 64) (isPlain : plain size i = true)
    (computed : computes i = some (destination, term)) (asked : InFrame size p = true) :
    (effect next i s).get p = if p = destination then term.eval s else s.get p := by
  cases i with
  | mov source d | add source d | sub source d =>
    obtain ⟨rfl, rfl⟩ : d = destination ∧ _ = term := by simpa [computes] using computed
    obtain ⟨-, written⟩ := Bool.and_eq_true_iff.mp isPlain
    simp [get_set fits _ written asked, read_eq, Term.eval]
  | movl value r =>
    obtain ⟨rfl, rfl⟩ : _ = destination ∧ _ = term := by simpa [computes] using computed
    rw [plain] at isPlain
    exact get_set fits _ isPlain asked
  | xorl q r =>
    obtain ⟨rfl, rfl⟩ : _ = destination ∧ _ = term := by simpa [computes] using computed
    obtain ⟨-, written⟩ := Bool.and_eq_true_iff.mp isPlain
    simp [get_set fits _ written asked, Term.eval, Term.ofRegister]
  | lea displacement base index r =>
    obtain ⟨-, written⟩ := Bool.and_eq_true_iff.mp isPlain
    cases index with
    | none =>
      obtain ⟨rfl, rfl⟩ : _ = destination ∧ _ = term := by simpa [computes] using computed
      exact get_set fits _ written asked
    | some r' =>
      obtain ⟨rfl, rfl⟩ : _ = destination ∧ _ = term := by simpa [computes] using computed
      exact get_set fits _ written asked
  | _ => cases computed

theorem get_effect_of_none (next : Address) (isPlain : plain size i = true)
    (nothing : computes i = none) : (effect next i s).get p = s.get p := by
  cases i with
  | cmp | test => exact get_flags s _ _ p
  | nop | jmp | j => rfl
  | mov | movl | xorl | add | sub => cases nothing
  | lea _ _ index _ => cases index <;> cases nothing
  | push | pop | call | ret => cases isPlain

theorem eval_before (next : Address) (fits : size ≤ 2 ^ 64) (isPlain : plain size i = true)
    (isLocal : term.local_ size = true) :
    (term.before i).eval s = term.eval (effect next i s) := by
  induction term with
  | constant => rfl
  | place p =>
    rw [Term.eval, Term.before]
    cases computed : computes i with
    | none => exact (get_effect_of_none next isPlain computed).symm
    | some found =>
      rw [get_effect_of_computes next fits isPlain computed isLocal]
      dsimp only
      split
      · rfl
      · rfl
  | add left right leftHypothesis rightHypothesis | sub left right leftHypothesis rightHypothesis
  | and left right leftHypothesis rightHypothesis | xor32 left right leftHypothesis rightHypothesis =>
    obtain ⟨isLeft, isRight⟩ := Bool.and_eq_true_iff.mp isLocal
    simp only [Term.eval, Term.before, leftHypothesis isLeft, rightHypothesis isRight]

theorem local_of_computes (isPlain : plain size i = true)
    (computed : computes i = some (destination, term)) : term.local_ size = true := by
  cases i with
  | mov source d | add source d | sub source d =>
    obtain ⟨rfl, rfl⟩ : d = destination ∧ _ = term := by simpa [computes] using computed
    simp_all [plain, Term.local_]
  | movl value r | xorl q r =>
    obtain ⟨rfl, rfl⟩ : _ = destination ∧ _ = term := by simpa [computes] using computed
    simp_all [plain, Term.local_, Term.ofRegister]
  | lea displacement base index r =>
    cases index with
    | none =>
      obtain ⟨rfl, rfl⟩ : _ = destination ∧ _ = term := by simpa [computes] using computed
      simp_all [plain, Term.local_, Term.ofRegister]
    | some r' =>
      obtain ⟨rfl, rfl⟩ : _ = destination ∧ _ = term := by simpa [computes] using computed
      simp_all [plain, Term.local_, Term.ofRegister]
  | _ => cases computed

theorem local_before (isPlain : plain size i = true) (isLocal : term.local_ size = true) :
    (term.before i).local_ size = true := by
  induction term with
  | constant => rfl
  | place p =>
    rw [Term.before]
    cases computed : computes i with
    | none => exact isLocal
    | some found =>
      dsimp only
      split
      · exact local_of_computes isPlain computed
      · exact isLocal
  | add left right leftHypothesis rightHypothesis | sub left right leftHypothesis rightHypothesis
  | and left right leftHypothesis rightHypothesis | xor32 left right leftHypothesis rightHypothesis =>
    obtain ⟨isLeft, isRight⟩ := Bool.and_eq_true_iff.mp isLocal
    exact Bool.and_eq_true_iff.mpr ⟨leftHypothesis isLeft, rightHypothesis isRight⟩

theorem through_spec (term : Term) (fits : size ≤ 2 ^ 64) (isPlain : code.all (plain size) = true)
    (isLocal : term.local_ size = true) :
    (term.through code).local_ size = true ∧
      (term.through code).eval s = term.eval (isa.effects code s) := by
  induction code generalizing s with
  | nil => exact ⟨isLocal, rfl⟩
  | cons i code inductionHypothesis =>
    rw [List.all_cons, Bool.and_eq_true] at isPlain
    obtain ⟨stillLocal, same⟩ := inductionHypothesis isPlain.2 (s := effect 0 i s)
    exact ⟨local_before isPlain.1 stillLocal,
      (eval_before 0 fits isPlain.1 stillLocal).trans same⟩

/-- What is in a place behind the code, as a term which is checked by computation. -/
theorem get_effects (size : Nat) (term : Term)
    (found : size ≤ 2 ^ 64 ∧ code.all (plain size) = true ∧ InFrame size p = true ∧
      (Term.place p).through code = term) :
    (isa.effects code s).get p = term.eval s := by
  obtain ⟨fits, isPlain, asked, rfl⟩ := found
  exact (through_spec (.place p) fits isPlain asked).2.symm

theorem get_behind (size : Nat) (term : Term) {base offset : Address}
    (found : size ≤ 2 ^ 64 ∧ code.all (plain size) = true ∧ InFrame size p = true ∧
      (Term.place p).through code = term) :
    (isa.behind base code offset s).get p = term.eval s :=
  (get_goto _ _ _).trans (get_effects size term found)

theorem holds_of_flags {cf : Bool} {a b : BitVec 64} (carry : s.cf = cf) (less : cf = decide (a < b))
    (zero : s.zf = (a - b == 0)) : s.holds condition = condition.of a b := by
  have equal : (a - b == 0) = (a == b) := by
    rw [Bool.eq_iff_iff, beq_iff_eq, beq_iff_eq]
    exact sub_eq_zero
  have order : (decide (a < b) || a == b) = decide (a ≤ b) := by
    rw [Bool.eq_iff_iff, Bool.or_eq_true, beq_iff_eq, decide_eq_true_iff, decide_eq_true_iff,
      BitVec.lt_def, BitVec.le_def, BitVec.toNat_eq]
    omega
  cases condition with
  | e => rw [holds_e, zero, equal, Condition.of]
  | ne => rw [holds_ne, zero, equal, Condition.of]
  | a =>
    rw [holds_a, carry, less, zero, equal, order, Condition.of, ← decide_not]
    exact decide_eq_decide.mpr BitVec.not_le
  | be => rw [holds_be, carry, less, zero, equal, order, Condition.of]

theorem holds_of_compares (next : Address) (compared : compares i = some (left, right)) :
    (effect next i s).holds condition = condition.of (left.eval s) (right.eval s) := by
  cases i with
  | cmp source destination | sub source destination =>
    obtain ⟨rfl, rfl⟩ : _ = left ∧ _ = right := by simpa [compares] using compared
    refine holds_of_flags rfl ?_ ?_
    · rw [← read_eq]
      rfl
    · rw [← read_eq]
      rfl
  | test q r | xorl q r =>
    obtain ⟨rfl, rfl⟩ : _ = left ∧ _ = right := by simpa [compares] using compared
    refine holds_of_flags rfl ?_ ?_
    · exact (decide_eq_false (BitVec.not_lt_zero)).symm
    · exact congrArg (· == 0) (BitVec.sub_zero _).symm
  | _ => cases compared

theorem flags_kept (kept : code.all keepsFlags = true) :
    (isa.effects code s).cf = s.cf ∧ (isa.effects code s).zf = s.zf := by
  induction code generalizing s with
  | nil => exact ⟨rfl, rfl⟩
  | cons i code inductionHypothesis =>
    rw [List.all_cons, Bool.and_eq_true] at kept
    obtain ⟨cf, zf⟩ := inductionHypothesis kept.2 (s := effect 0 i s)
    rw [effects_cons, isa_effect, cf, zf]
    cases i with
    | mov | movl => exact ⟨cf_set s _ _, zf_set s _ _⟩
    | lea => exact ⟨cf_set s _ _, zf_set s _ _⟩
    | nop | jmp | j => exact ⟨rfl, rfl⟩
    | _ => cases kept.1

theorem local_of_compares (isPlain : plain size i = true)
    (compared : compares i = some (left, right)) :
    left.local_ size = true ∧ right.local_ size = true := by
  cases i with
  | cmp source destination | sub source destination | test q r | xorl q r =>
    obtain ⟨rfl, rfl⟩ : _ = left ∧ _ = right := by simpa [compares] using compared
    simp_all [plain, Term.local_, Term.ofRegister]
  | _ => cases compared

theorem comparison_spec (size : Nat) (left right : Term) (fits : size ≤ 2 ^ 64)
    (isPlain : code.all (plain size) = true)
    (found : comparison code = some (left, right)) :
    left.local_ size = true ∧ right.local_ size = true ∧
      (isa.effects code s).holds condition = condition.of (left.eval s) (right.eval s) := by
  induction code generalizing s left right with
  | nil => cases found
  | cons i code inductionHypothesis =>
    rw [List.all_cons, Bool.and_eq_true] at isPlain
    rw [comparison] at found
    split at found
    · next a b later =>
      obtain ⟨rfl, rfl⟩ : a.before i = left ∧ b.before i = right := by simpa using found
      obtain ⟨isLeft, isRight, holds⟩ := inductionHypothesis _ _ isPlain.2 later (s := effect 0 i s)
      refine ⟨local_before isPlain.1 isLeft, local_before isPlain.1 isRight, ?_⟩
      rw [eval_before 0 fits isPlain.1 isLeft, eval_before 0 fits isPlain.1 isRight]
      exact holds
    · next =>
      split at found
      · next kept =>
        obtain ⟨isLeft, isRight⟩ := local_of_compares isPlain.1 found
        obtain ⟨cf, zf⟩ := flags_kept kept (s := effect 0 i s)
        refine ⟨isLeft, isRight, .trans ?_ (holds_of_compares 0 found)⟩
        rw [effects_cons, isa_effect]
        cases condition with
        | e | ne => rw [Cpu.holds, Cpu.holds, zf]
        | a | be => rw [Cpu.holds, Cpu.holds, cf, zf]
      · cases found

/-- The rule for a jump on what the code before it has compared. -/
theorem reaches_compared (size : Nat) (left right : Term) (condition : Condition)
    (offset next : Address) {listing : Program Instruction} {base here there : Address}
    {post : Cpu → Prop}
    (found : fetch listing here = some (.j condition offset, next) ∧
      size ≤ 2 ^ 64 ∧ code.all (plain size) = true ∧ comparison code = some (left, right))
    (goes : (if condition.of (left.eval s) (right.eval s) = true then offset else next) = there)
    (rest : isa.Reaches listing base (isa.behind base code there s) post) :
    isa.Reaches listing base (isa.behind base code here s) post := by
  refine reaches_j condition offset next found.1 ?_ rest
  rw [(comparison_spec _ _ _ found.2.1 found.2.2.1 found.2.2.2).2.2, goes]

/-! ## Numbers in registers -/

/-- A place holds a number. -/
abbrev Has (p : Place) (b : Nat) (s : Cpu) : Prop := s.get p = BitVec.ofNat 64 b

/-- Less by so much than what a place holds, also as `lea` computes it. -/
def minus (p : Place) (k : Nat) : Term := .sub (.place p) (.constant (BitVec.ofNat 64 k))

def minusByLea (p : Place) (k : Nat) : Term := .add (.place p) (.constant (-BitVec.ofNat 64 k))

theorem ofNat_sub {a k : Nat} (large : k ≤ a) :
    BitVec.ofNat 64 a - BitVec.ofNat 64 k = BitVec.ofNat 64 (a - k) := by
  obtain ⟨rest, rfl⟩ := Nat.exists_eq_add_of_le large
  rw [BitVec.ofNat_add, Nat.add_sub_cancel_left, BitVec.add_comm, BitVec.add_sub_cancel]

theorem toNat_ofNat {a : Nat} (small : a < 2 ^ 64) : (BitVec.ofNat 64 a).toNat = a :=
  (BitVec.toNat_ofNat a 64).trans (Nat.mod_eq_of_lt small)

theorem ofNat_eq_iff {a k : Nat} (small : a < 2 ^ 64) (smallToo : k < 2 ^ 64) :
    BitVec.ofNat 64 a = BitVec.ofNat 64 k ↔ a = k := by
  rw [BitVec.toNat_eq, toNat_ofNat small, toNat_ofNat smallToo]

theorem ofNat_le_iff {a k : Nat} (small : a < 2 ^ 64) (smallToo : k < 2 ^ 64) :
    BitVec.ofNat 64 a ≤ BitVec.ofNat 64 k ↔ a ≤ k := by
  rw [BitVec.le_def, toNat_ofNat small, toNat_ofNat smallToo]

theorem eval_minus {a k : Nat} (has : Has p a s) (large : k ≤ a) :
    (minus p k).eval s = BitVec.ofNat 64 (a - k) :=
  (congrArg (· - BitVec.ofNat 64 k) has).trans (ofNat_sub large)

theorem eval_minusByLea {a k : Nat} (has : Has p a s) (large : k ≤ a) :
    (minusByLea p k).eval s = BitVec.ofNat 64 (a - k) :=
  (BitVec.sub_eq_add_neg _ _).symm.trans (eval_minus has large)

/-- A register is cleared by its own contents. -/
theorem eval_cleared (p : Place) (s : Cpu) : (Term.xor32 (.place p) (.place p)).eval s = 0 := by
  rw [Term.eval, BitVec.xor_self]
  rfl

section

variable {k : Nat} {x : BitVec 64} {there other : Address}

theorem branch_of_le (holds : x = BitVec.ofNat 64 k) (last : k ≤ 1) :
    (if Condition.of x 1 .be = true then there else other) = there := by
  rw [Condition.of, holds, if_pos]
  exact decide_eq_true ((ofNat_le_iff (by omega) (by decide)).mpr last)

theorem branch_of_lt (holds : x = BitVec.ofNat 64 k) (more : 1 < k)
    (small : k < 2 ^ 64) : (if Condition.of x 1 .be = true then there else other) = other := by
  rw [Condition.of, holds, if_neg]
  exact fun le => Nat.not_le.mpr more ((ofNat_le_iff small (by decide)).mp (of_decide_eq_true le))

theorem passed_of_le (holds : x = BitVec.ofNat 64 k) (last : k ≤ 1) :
    (if Condition.of x 1 .a = true then there else other) = other := by
  rw [Condition.of, holds, if_neg]
  exact fun less => BitVec.not_lt.mpr ((ofNat_le_iff (by omega) (by decide)).mpr last)
    (of_decide_eq_true less)

theorem passed_of_lt (holds : x = BitVec.ofNat 64 k) (more : 1 < k)
    (small : k < 2 ^ 64) : (if Condition.of x 1 .a = true then there else other) = there := by
  rw [Condition.of, holds, if_pos]
  exact decide_eq_true (BitVec.not_le.mp fun le =>
    Nat.not_le.mpr more ((ofNat_le_iff small (by decide)).mp le))

theorem branch_of_eq (holds : x = BitVec.ofNat 64 k) (isOne : k = 1) :
    (if Condition.of x 1 .e = true then there else other) = there := by
  rw [Condition.of, holds, isOne]
  rfl

theorem passed_of_eq (holds : x = BitVec.ofNat 64 k) (isOne : k = 1) :
    (if Condition.of x 1 .ne = true then there else other) = other := by
  rw [Condition.of, holds, isOne]
  rfl

theorem passed_of_ne (holds : x = BitVec.ofNat 64 k) (many : k ≠ 1) (small : k < 2 ^ 64) :
    (if Condition.of x 1 .ne = true then there else other) = there := by
  have differ : ¬(x == 1) = true := fun same =>
    many ((ofNat_eq_iff small (by decide)).mp (holds.symm.trans (beq_iff_eq.mp same)))
  rw [Condition.of, if_pos]
  simpa using differ

theorem branch_of_ne (holds : x = BitVec.ofNat 64 k) (many : k ≠ 1)
    (small : k < 2 ^ 64) : (if Condition.of x 1 .e = true then there else other) = other := by
  rw [Condition.of, holds, if_neg]
  exact fun same => many ((ofNat_eq_iff small (by decide)).mp (beq_iff_eq.mp same))

end

end CloudflareBlog.Lib.X86Asm
