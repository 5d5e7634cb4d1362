import Mathlib.Tactic.Linarith
import Mathlib.Tactic.Ring
import CloudflareBlog.Lib.Code

/-!
# Filling a blob with code

The stores of `gadget.c`: the macros that put bytes at `p` and move it on, and the loops around
them.  Positions in the blob are distances from `ptr`, and `p` is always behind the last byte put.
What a piece of the filling comes to is in every case that it extends the blob (`Blob.extend`), which
is what the lemmas here say.
-/

namespace CloudflareBlog.Gadget

open CloudflareBlog.Lib.Buffer CloudflareBlog.Lib.Memory

/-- `struct blob` as far as it is filled in.  `padding` are the words that came from `nop_op`; no
step depends on them. -/
structure Blob where
  code : List Byte
  ptrFn : Nat
  ptrRet : Nat
  padding : List (List Byte)
  deriving DecidableEq

def Blob.empty : Blob := ⟨[], 0, 0, []⟩

def put (x : Int) (blob : Blob) : Blob :=
  { blob with code := blob.code ++ [BitVec.ofInt 8 x] }

def putQ (y : Int) (blob : Blob) : Blob :=
  let x := BitVec.ofInt 32 y
  blob |> put (x &&& 0xff).toNat |> put (x >>> 8 &&& 0xff).toNat |> put (x >>> 16 &&& 0xff).toNat
    |> put (x >>> 24 &&& 0xff).toNat

def putQ3 (y : Int) (blob : Blob) : Blob :=
  let x := BitVec.ofInt 32 y
  blob |> put (x &&& 0xff).toNat |> put (x >>> 8 &&& 0xff).toNat |> put (x >>> 16 &&& 0xff).toNat

def putSeq (x : List Byte) (blob : Blob) : Blob := { blob with code := blob.code ++ x }

/-- `blob->ptr_fn = p`. -/
def setFn (blob : Blob) : Blob := { blob with ptrFn := blob.code.length }

/-- `blob->ptr_ret = p`. -/
def setRet (blob : Blob) : Blob := { blob with ptrRet := blob.code.length }

/-- `for (; j < stop; j += step)`, for as many turns as there is fuel: `j` and the blob afterwards. -/
def loopFrom (stop step : Int) (body : Int → Blob → Blob) : Nat → Int → Blob → Int × Blob
  | 0, j, blob => (j, blob)
  | fuel + 1, j, blob =>
    if j < stop then loopFrom stop step body fuel (j + step) (body j blob) else (j, blob)

/-- `for (j = start; j < stop; j += step)`.  With a positive step the loop ends before its fuel
does. -/
def forLoop (start stop step : Int) (body : Int → Blob → Blob) (blob : Blob) : Int × Blob :=
  loopFrom stop step body (stop - start).toNat start blob

def putN (x n : Int) (blob : Blob) : Blob := (forLoop 0 n 1 (fun _ => put x) blob).2

/-! ## Loops -/

/-! The loops that go round once or twice, because of the step they take. -/

@[simp] theorem forLoop_call (body : Int → Blob → Blob) (blob : Blob) :
    forLoop 0 1 5 body blob = (5, body 0 blob) := rfl

@[simp] theorem forLoop_two (body : Int → Blob → Blob) (blob : Blob) :
    forLoop 0 2 2 body blob = (2, body 0 blob) := rfl

@[simp] theorem forLoop_four (body : Int → Blob → Blob) (blob : Blob) :
    forLoop 0 4 2 body blob = (4, body 2 (body 0 blob)) := rfl

@[simp] theorem forLoop_word (body : Int → Blob → Blob) (blob : Blob) :
    forLoop 0 4 4 body blob = (4, body 0 blob) := rfl

@[simp] theorem forLoop_words (body : Int → Blob → Blob) (blob : Blob) :
    forLoop 0 8 4 body blob = (8, body 4 (body 0 blob)) := rfl

/-- How many turns a loop takes. -/
def turns (start stop step : Int) : Nat := ((stop - start + step - 1) / step).toNat

section

variable {start stop step : Int} {body : Int → Blob → Blob} {blob : Blob}

theorem turns_of_lt (positive : 0 < step) (before : start < stop) :
    turns start stop step = turns (start + step) stop step + 1 := by
  have shift : (stop - start + step - 1) / step = (stop - (start + step) + step - 1) / step + 1 := by
    rw [← Int.add_mul_ediv_right _ 1 positive.ne']
    congr 1
    ring
  have notNegative : 0 ≤ (stop - (start + step) + step - 1) / step :=
    Int.ediv_nonneg (by omega) positive.le
  rw [turns, turns, shift]
  omega

theorem turns_of_le (positive : 0 < step) (done : stop ≤ start) : turns start stop step = 0 := by
  have small : (stop - start + step - 1) / step < 1 := Int.ediv_lt_of_lt_mul positive (by omega)
  rw [turns]
  omega

theorem turns_le (positive : 0 < step) : turns start stop step ≤ (stop - start).toNat := by
  by_cases done : stop ≤ start
  · rw [turns_of_le positive done]
    exact Nat.zero_le _
  · have bound : (stop - start + step - 1) / step ≤ stop - start := by
      refine Int.ediv_le_of_le_mul positive ?_
      nlinarith
    rw [turns]
    omega

theorem loopFrom_rule (positive : 0 < step) (invariant : Nat → Blob → Prop) {fuel k : Nat}
    (enough : turns (start + step * k) stop step ≤ fuel)
    (turn : ∀ (k : Nat) blob, start + step * k < stop → invariant k blob →
      invariant (k + 1) (body (start + step * k) blob))
    (holds : invariant k blob) :
    invariant (k + turns (start + step * k) stop step)
        (loopFrom stop step body fuel (start + step * k) blob).2 ∧
      (loopFrom stop step body fuel (start + step * k) blob).1 =
        start + step * ↑(k + turns (start + step * k) stop step) := by
  induction fuel generalizing k blob with
  | zero =>
    rw [Nat.le_zero.mp enough, Nat.add_zero]
    exact ⟨holds, rfl⟩
  | succ fuel inductionHypothesis =>
    rw [loopFrom]
    by_cases before : start + step * k < stop
    · have next : start + step * (k : Int) + step = start + step * ↑(k + 1) := by push_cast; ring
      have more := turns_of_lt positive before
      rw [if_pos before, next]
      rw [next] at more
      have rest := inductionHypothesis (k := k + 1) (by omega) (turn k blob before holds)
      rwa [more, ← Nat.add_assoc, Nat.add_right_comm]
    · rw [if_neg before, turns_of_le positive (by omega), Nat.add_zero]
      exact ⟨holds, rfl⟩

theorem forLoop_rule (positive : 0 < step) (invariant : Nat → Blob → Prop)
    (turn : ∀ (k : Nat) blob, start + step * k < stop → invariant k blob →
      invariant (k + 1) (body (start + step * k) blob))
    (holds : invariant 0 blob) :
    invariant (turns start stop step) (forLoop start stop step body blob).2 ∧
      (forLoop start stop step body blob).1 = start + step * turns start stop step := by
  have enough : turns (start + step * ↑(0 : Nat)) stop step ≤ (stop - start).toNat := by
    simpa using turns_le positive
  simpa [forLoop] using loopFrom_rule positive invariant enough turn holds

end

/-! ## What is put -/

/-- The blob with more bytes behind, among them these words of padding. -/
def Blob.extend (blob : Blob) (bytes : List Byte) (words : List (List Byte)) : Blob :=
  { blob with code := blob.code ++ bytes, padding := blob.padding ++ words }

section

variable (blob : Blob) (bytes more : List Byte) (words others : List (List Byte))

@[simp] theorem extend_extend :
    (blob.extend bytes words).extend more others = blob.extend (bytes ++ more) (words ++ others) := by
  simp [Blob.extend]

@[simp] theorem code_extend : (blob.extend bytes words).code = blob.code ++ bytes := rfl

@[simp] theorem ptrFn_extend : (blob.extend bytes words).ptrFn = blob.ptrFn := rfl

@[simp] theorem extend_nil : blob.extend [] [] = blob := by
  simp [Blob.extend]

@[simp] theorem put_eq (x : Int) : put x blob = blob.extend [BitVec.ofInt 8 x] [] := by
  simp [put, Blob.extend]

@[simp] theorem putSeq_eq : putSeq bytes blob = blob.extend bytes [] := by
  simp [putSeq, Blob.extend]

end

theorem ofInt_byte (x : BitVec 32) (shift : Nat) :
    BitVec.ofInt 8 ((x >>> shift &&& 0xff).toNat : Int) = x.extractLsb' shift 8 := by
  apply BitVec.eq_of_toNat_eq
  rw [BitVec.ofInt_natCast, BitVec.toNat_ofNat, BitVec.toNat_and, BitVec.toNat_ushiftRight,
    BitVec.extractLsb'_toNat]
  exact (congrArg (· % 2 ^ 8) (Nat.and_two_pow_sub_one_eq_mod _ 8)).trans (Nat.mod_mod _ _)

@[simp] theorem putQ_eq (y : Int) (blob : Blob) :
    putQ y blob = blob.extend (littleEndian 4 (BitVec.ofInt 32 y)) [] := by
  have first := ofInt_byte (BitVec.ofInt 32 y) 0
  rw [BitVec.ushiftRight_zero] at first
  simp only [putQ, put_eq, extend_extend, first, ofInt_byte]
  rfl

@[simp] theorem putQ3_eq (y : Int) (blob : Blob) :
    putQ3 y blob = blob.extend ((littleEndian 4 (BitVec.ofInt 32 y)).take 3) [] := by
  have first := ofInt_byte (BitVec.ofInt 32 y) 0
  rw [BitVec.ushiftRight_zero] at first
  simp only [putQ3, put_eq, extend_extend, first, ofInt_byte]
  rfl

theorem forLoop_extend {start stop step : Int} (positive : 0 < step) {body : Int → Blob → Blob}
    {bytes : Int → List Byte} {words : Int → List (List Byte)}
    (turn : ∀ j blob, body j blob = blob.extend (bytes j) (words j)) (blob : Blob) :
    forLoop start stop step body blob =
      (start + step * turns start stop step,
        blob.extend
          ((List.range (turns start stop step)).flatMap fun k : Nat => bytes (start + step * k))
          ((List.range (turns start stop step)).flatMap fun k : Nat => words (start + step * k))) := by
  have looped := @forLoop_rule start stop step body blob positive
    (fun k reached => reached =
      blob.extend ((List.range k).flatMap fun k : Nat => bytes (start + step * k))
        ((List.range k).flatMap fun k : Nat => words (start + step * k)))
    (fun k reached _ same => by
      rw [turn, same, extend_extend, List.range_succ, List.flatMap_append, List.flatMap_append,
        List.flatMap_singleton, List.flatMap_singleton])
    (extend_nil blob).symm
  exact Prod.ext looped.2 looped.1

@[simp] theorem turns_one (start stop : Int) : turns start stop 1 = (stop - start).toNat := by
  simp [turns]

theorem flatMap_range_const {α : Type} (count : Nat) (piece : List α) :
    ((List.range count).flatMap fun _ => piece) = (List.replicate count piece).flatten := by
  simp [List.flatMap]

/-- The blob with `ptr_fn` and `ptr_ret` set between these three parts. -/
def layout (before body after : List Byte) (words : List (List Byte)) : Blob where
  code := before ++ (body ++ after)
  ptrFn := before.length
  ptrRet := before.length + body.length
  padding := words

@[simp] theorem layout_eq (before body after : List Byte) (words more others : List (List Byte)) :
    (setRet ((setFn (Blob.empty.extend before words)).extend body more)).extend after others =
      layout before body after (words ++ (more ++ others)) := by
  simp [layout, setRet, setFn, Blob.extend, Blob.empty]

section

variable (before body after : List Byte) (words : List (List Byte))

@[simp] theorem extend_layout (bytes : List Byte) (more : List (List Byte)) :
    (layout before body after words).extend bytes more =
      layout before body (after ++ bytes) (words ++ more) := by
  simp [layout, Blob.extend]

@[simp] theorem length_layout :
    (layout before body after words).code.length = before.length + (body.length + after.length) := by
  rw [layout, List.length_append, List.length_append]

@[simp] theorem ptrFn_layout : (layout before body after words).ptrFn = before.length := rfl

end

/-- Where the parts of a blob are, by the labels that it comes with. -/
theorem layout_parts {memory : Bytes} {ptr : Address} {blob : Blob} {before body after : List Byte}
    {words : List (List Byte)} (holds : Holds memory ptr blob.code)
    (filled : layout before body after words = blob) :
    (blob.ptrFn = before.length ∧ blob.ptrRet = blob.ptrFn + body.length ∧
        blob.code.length = blob.ptrRet + after.length) ∧
      Holds memory ptr before ∧ Holds memory (position ptr blob.ptrFn) body ∧
        Holds memory (position ptr blob.ptrRet) after := by
  subst filled
  refine ⟨⟨rfl, rfl, (length_layout before body after words).trans (Nat.add_assoc ..).symm⟩, ?_⟩
  obtain ⟨first, rest⟩ := holds_append.mp holds
  rw [holds_append, position_position] at rest
  exact ⟨first, rest⟩

@[simp] theorem putN_eq (x n : Int) (blob : Blob) :
    putN x n blob = blob.extend (List.replicate n.toNat (BitVec.ofInt 8 x)) [] := by
  rw [putN, forLoop_extend (by decide) fun _ blob => put_eq blob x]
  simp [flatMap_range_const]

/-! ## Growth -/

/-- More was put, and nothing was taken back. -/
structure Blob.Grows (before after : Blob) : Prop where
  code : before.code <+: after.code
  padding : before.padding <+: after.padding

section

variable {first blob : Blob}

theorem Blob.Grows.refl (blob : Blob) : blob.Grows blob :=
  ⟨List.prefix_refl _, List.prefix_refl _⟩

theorem Blob.Grows.extend (grows : first.Grows blob) (bytes : List Byte)
    (words : List (List Byte)) : first.Grows (blob.extend bytes words) :=
  ⟨grows.code.trans (List.prefix_append _ _), grows.padding.trans (List.prefix_append _ _)⟩

theorem Blob.Grows.put (grows : first.Grows blob) (x : Int) : first.Grows (put x blob) := by
  rw [put_eq]
  exact grows.extend _ _

theorem Blob.Grows.putSeq (grows : first.Grows blob) (x : List Byte) :
    first.Grows (putSeq x blob) := by
  rw [putSeq_eq]
  exact grows.extend _ _

theorem Blob.Grows.setFn (grows : first.Grows blob) : first.Grows (setFn blob) :=
  ⟨grows.code, grows.padding⟩

theorem Blob.Grows.setRet (grows : first.Grows blob) : first.Grows (setRet blob) :=
  ⟨grows.code, grows.padding⟩

theorem Blob.Grows.forLoop {start stop step : Int} {body : Int → Blob → Blob}
    (grows : first.Grows blob) (positive : 0 < step)
    (turn : ∀ j reached, first.Grows reached → first.Grows (body j reached)) :
    first.Grows (forLoop start stop step body blob).2 :=
  (forLoop_rule positive (fun _ reached => first.Grows reached)
    (fun _ reached _ => turn _ reached) grows).1

end

end CloudflareBlog.Gadget
