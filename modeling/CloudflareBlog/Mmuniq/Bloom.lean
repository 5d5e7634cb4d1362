import Mathlib.Data.BitVec
import CloudflareBlog.Lib.BitFilter
import CloudflareBlog.Mmuniq.ReadLoop

/-!
# The filter of `mmuniq-bloom.c`

`process_line` derives `global_bloom_k` positions from a line, sets them in the bitmap and prints
the line if one of them was clear, or with `-D` if none was.  It takes the positions eight at a time
from the four words of one hash; the second four are byte-swapped copies that are made only when
they are needed, so whether every entry of `res` that is read was assigned depends on the two bounds
agreeing.  An entry that was not assigned in the same round is `none` here, and reading it, like
reaching outside of the bitmap, makes the whole call `none`.

`process_line` never is `none` and records the positions of the line in the sense of `BitFilter`
(`processLine_eq`).
-/

namespace CloudflareBlog.Mmuniq.Bloom

open CloudflareBlog.Lib.Buffer CloudflareBlog.Lib.Records CloudflareBlog.Lib.BitFilter

/-- `k0` and `k1` of the source. -/
def k0 : BitVec 64 := 0xdeadbeeffadebabe#64

def k1 : BitVec 64 := 0xdeadbeeffadebabe#64

/-- A size of the bitmap, a number of hash functions, and the four words that `siphash24` leaves in
`res`. -/
structure Filter where
  /-- The bitmap has `2 ^ bits` bits. -/
  bits : Nat
  large : 6 ≤ bits
  globalBloomK : Nat
  positive : 1 ≤ globalBloomK
  siphash24 : (s : List Byte) → (k0 k1 : BitVec 64) → Fin 4 → BitVec 64

/-- The options that choose what is printed: `-D` and `--dummy`. -/
structure Mode where
  globalRepeated : Bool
  dummyRun : Bool

def defaultMode : Mode := ⟨false, false⟩

/-- `-D`. -/
def repeatedMode : Mode := ⟨true, false⟩

/-- The `bm_sz` bytes of the bitmap as words. -/
abbrev Bitmap (bits : Nat) := Vector (BitVec 64) (2 ^ bits / 64)

def bswap64 (x : BitVec 64) : BitVec 64 :=
  x.extractLsb' 0 8 ++ x.extractLsb' 8 8 ++ x.extractLsb' 16 8 ++ x.extractLsb' 24 8 ++
    x.extractLsb' 32 8 ++ x.extractLsb' 40 8 ++ x.extractLsb' 48 8 ++ x.extractLsb' 56 8

/-- `bitmap_getset`: the answer and the bitmap; `none` is an access outside of the bitmap. -/
def bitmapGetset {words : Nat} (bm : Vector (BitVec 64) words) (n : BitVec 64) :
    Option (Nat × Vector (BitVec 64) words) :=
  let mask := 1#64 <<< (n.toNat % 64)
  let p := n.toNat / 64
  if inside : p < words then
    let v := bm[p]
    let r := v &&& mask
    if r = 0 then some (0, bm.set p (v ||| mask)) else some (1, bm)
  else none

section

variable (filter : Filter)

def globalBloomMMask : BitVec 64 := (1#64 <<< filter.bits) - 1

/-- The words `siphash24` computes in the round that starts at `i`. -/
def roundWords (s : List Byte) (i : Nat) : Fin 4 → BitVec 64 :=
  let off := BitVec.ofNat 64 i * 0x1000100010001000#64
  filter.siphash24 s (k0 + off) (k1 + off)

/-- `res` before the inner loop of the round that starts at `i`.  The array is a fresh one in every
round. -/
def res (s : List Byte) (i : Nat) : Nat → Option (BitVec 64) :=
  let words := roundWords filter s i
  let res : Nat → Option (BitVec 64) := fun index =>
    if inside : index < 4 then some (words ⟨index, inside⟩) else none
  -- res[4 + n] = bswap_64(res[n]) & global_bloom_m_mask, for n from 0 to 3
  let res : Nat → Option (BitVec 64) :=
    if i + 4 < filter.globalBloomK then fun index =>
      if 4 ≤ index ∧ index < 8 then
        (res (index - 4)).map fun word => bswap64 word &&& globalBloomMMask filter
      else res index
    else res
  -- res[n] &= global_bloom_m_mask, for n from 0 to 3
  fun index => if index < 4 then (res index).map (· &&& globalBloomMMask filter) else res index

/-- The body of the inner loop, on `miss` and the bitmap. -/
def visit (mode : Mode) (res : Nat → Option (BitVec 64)) (state : Bool × Bitmap filter.bits)
    (j : Nat) : Option (Bool × Bitmap filter.bits) := do
  let hash ← res (j % 8)
  if mode.dummyRun then return state
  let (r, bm) ← bitmapGetset state.2 hash
  return (state.1 || r == 0, bm)

/-- `process_line`: the bitmap after it and the bytes it prints. -/
def processLine (mode : Mode) (s : List Byte) (bm : Bitmap filter.bits) :
    Option (Bitmap filter.bits × List Byte) := do
  let (miss, bm) ← (List.range ((filter.globalBloomK + 7) / 8)).foldlM (fun state round =>
    let i := 8 * round
    (List.range' i (min 8 (filter.globalBloomK - i))).foldlM
      (visit filter mode (res filter s i)) state) (false, bm)
  let print := (!mode.globalRepeated && miss) || (mode.globalRepeated && !miss)
  return (bm, if print then s ++ [newline] else [])

/-- The lines one after another: the bitmap and the output. -/
def processLines (mode : Mode) (bm : Bitmap filter.bits) (lines : List (List Byte)) :
    Option (Bitmap filter.bits × List Byte) :=
  lines.foldlM (fun state line => do
    let (bm, printed) ← processLine filter mode line state.1
    return (bm, state.2 ++ printed)) (bm, [])

/-- The call of `process_line` in `main`, on the bitmap and the output so far. -/
def callLine (mode : Mode) (sink : Option (Bitmap filter.bits × List Byte)) (s : List Byte)
    (_l : Nat) : Option (Bitmap filter.bits × List Byte) := do
  let (bm, out) ← sink
  let (bm, printed) ← processLine filter mode s bm
  return (bm, out ++ printed)

/-- The bitmap as `mmap` returns it. -/
def emptyBitmap (bits : Nat) : Bitmap bits := Vector.replicate _ 0

/-- `main` after the options: the bitmap and the output when `read` has returned 0. -/
def filterInput (mode : Mode) (buf : Nat → Byte) (reads : List (List Byte)) :
    Option (Bitmap filter.bits × List Byte) :=
  (ReadLoop.readLoop bufSz (callLine filter mode)
    (ReadLoop.start buf (some (emptyBitmap filter.bits, []))) reads).sink

end

/-! ## The bitmap as a store of bits -/

theorem words_mul {bits : Nat} (large : 6 ≤ bits) : 64 * (2 ^ bits / 64) = 2 ^ bits := by
  refine Nat.mul_div_cancel' ?_
  exact Nat.pow_dvd_pow 2 large

theorem word_inside {bits : Nat} (large : 6 ≤ bits) (n : Fin (2 ^ bits)) :
    n.val / 64 < 2 ^ bits / 64 := by
  have whole := words_mul large
  omega

def bitStore {bits : Nat} (large : 6 ≤ bits) : Store (Bitmap bits) (Fin (2 ^ bits)) where
  test bm n := (getElem bm (n.val / 64) (word_inside large n)).getLsbD (n % 64)
  set bm n := bm.set (n / 64)
    (getElem bm (n.val / 64) (word_inside large n) ||| 1#64 <<< (n.val % 64)) (word_inside large n)
  test_set bm n other := by
    have below : other.val % 64 < 64 := Nat.mod_lt _ (by decide)
    rw [Vector.getElem_set]
    by_cases sameWord : n.val / 64 = other.val / 64
    · simp only [sameWord, if_true, BitVec.getLsbD_or, BitVec.getLsbD_shiftLeft, below,
        BitVec.getLsbD_one, decide_true, Bool.true_and]
      rw [Bool.or_comm]
      congr 1
      rw [Bool.eq_iff_iff]
      simp only [Bool.and_eq_true, Bool.not_eq_true', decide_eq_false_iff_not, decide_eq_true_eq]
      constructor
      · intro sameBit
        exact Fin.ext (by omega)
      · rintro rfl
        omega
    · have different : n ≠ other := by
        rintro rfl
        exact sameWord rfl
      simp [sameWord, different]

theorem and_bit_eq_zero (v : BitVec 64) {index : Nat} (below : index < 64) :
    v &&& 1#64 <<< index = 0 ↔ v.getLsbD index = false := by
  constructor
  · intro clear
    have here := congrArg (fun word : BitVec 64 => word.getLsbD index) clear
    simpa [below] using here
  · intro clear
    apply BitVec.eq_of_getLsbD_eq
    intro other inside
    by_cases same : other = index
    · subst same
      simp [clear]
    · have away : other < index ∨ other - index ≠ 0 := by omega
      simp only [BitVec.getLsbD_and, BitVec.getLsbD_shiftLeft, BitVec.getLsbD_one, inside]
      obtain before | behind := away
      · simp [before]
      · simp [behind]

/-- `bitmap_getset` inside of the bitmap tests a bit and sets it. -/
theorem bitmapGetset_eq {bits : Nat} (large : 6 ≤ bits) (bm : Bitmap bits) {n : BitVec 64}
    (position : Fin (2 ^ bits)) (same : n.toNat = position.val) :
    bitmapGetset bm n = if (bitStore large).test bm position then some (1, bm)
      else some (0, (bitStore large).set bm position) := by
  have clear := and_bit_eq_zero (getElem bm (position.val / 64) (word_inside large position))
    (Nat.mod_lt position.val (by decide : 0 < 64))
  rw [bitmapGetset]
  simp only [same, word_inside large position, dif_pos]
  by_cases present : (bitStore large).test bm position = true
  · rw [if_pos present, if_neg]
    rw [clear, Bool.not_eq_false]
    exact present
  · rw [if_neg present, if_pos (clear.mpr (Bool.eq_false_of_not_eq_true present))]
    rfl

/-! ## The positions of a line -/

section

variable (filter : Filter)

theorem and_globalBloomMMask_lt (x : BitVec 64) :
    (x &&& globalBloomMMask filter).toNat < 2 ^ filter.bits := by
  have positive := Nat.two_pow_pos filter.bits
  have below : (globalBloomMMask filter).toNat < 2 ^ filter.bits := by
    obtain small | full := Nat.lt_or_ge filter.bits 64
    · have fits := Nat.pow_lt_pow_right (by decide : 1 < 2) small
      simp only [globalBloomMMask, BitVec.ofNat_eq_ofNat, BitVec.toNat_sub,
        BitVec.toNat_shiftLeft, BitVec.toNat_ofNat, Nat.shiftLeft_eq]
      omega
    · exact Nat.lt_of_lt_of_le (globalBloomMMask filter).isLt
        (Nat.pow_le_pow_right (by decide) full)
  rw [BitVec.toNat_and]
  exact Nat.lt_of_le_of_lt Nat.and_le_right below

/-- The `j`-th hash of a line: a word of the round that `j` falls into, swapped in the second
half. -/
def hashAt (s : List Byte) (j : Nat) : BitVec 64 :=
  let words := roundWords filter s (8 * (j / 8))
  if first : j % 8 < 4 then words ⟨j % 8, first⟩ else bswap64 (words ⟨j % 8 - 4, by omega⟩)

def position (s : List Byte) (j : Nat) : Fin (2 ^ filter.bits) :=
  ⟨(hashAt filter s j &&& globalBloomMMask filter).toNat, and_globalBloomMMask_lt filter _⟩

/-- The `global_bloom_k` positions of a line. -/
def positions (s : List Byte) : List (Fin (2 ^ filter.bits)) :=
  (List.range filter.globalBloomK).map (position filter s)

/-- Every entry of `res` that the inner loop reads was assigned in the same round. -/
theorem res_read (s : List Byte) {round j : Nat} (start : 8 * round ≤ j) (stop : j < 8 * round + 8)
    (needed : j < filter.globalBloomK) :
    res filter s (8 * round) (j % 8) =
      some (hashAt filter s j &&& globalBloomMMask filter) := by
  obtain rfl : round = j / 8 := by omega
  rw [res, hashAt]
  by_cases first : j % 8 < 4
  · have low : ¬ (4 ≤ j % 8 ∧ j % 8 < 8) := by omega
    by_cases more : 8 * (j / 8) + 4 < filter.globalBloomK
    · simp [first, low, more]
    · simp [first, more]
  · have high : 4 ≤ j % 8 ∧ j % 8 < 8 := by omega
    have more : 8 * (j / 8) + 4 < filter.globalBloomK := by omega
    have source : j % 8 - 4 < 4 := by omega
    simp [first, high, more, source]

theorem visit_eq {mode : Mode} (marks : mode.dummyRun = false) (s : List Byte)
    (state : Bool × Bitmap filter.bits) {round j : Nat} (start : 8 * round ≤ j)
    (stop : j < 8 * round + 8) (needed : j < filter.globalBloomK) :
    visit filter mode (res filter s (8 * round)) state j =
      some ((bitStore filter.large).touch state (position filter s j)) := by
  have getset := bitmapGetset_eq filter.large state.2 (position filter s j)
    (show (hashAt filter s j &&& globalBloomMMask filter).toNat = _ from rfl)
  rw [visit, res_read filter s start stop needed, Store.touch]
  simp only [Option.bind_eq_bind, Option.bind_some, marks, Bool.false_eq_true, if_false, getset]
  cases (bitStore filter.large).test state.2 (position filter s j) <;> simp

theorem round_eq {mode : Mode} (marks : mode.dummyRun = false) (s : List Byte)
    (state : Bool × Bitmap filter.bits) (round count : Nat)
    (needed : 8 * round + count ≤ filter.globalBloomK) (short : count ≤ 8) :
    (List.range' (8 * round) count).foldlM (visit filter mode (res filter s (8 * round))) state =
      some ((bitStore filter.large).record state
        ((List.range' (8 * round) count).map (position filter s))) := by
  induction count with
  | zero => rfl
  | succ count inductionHypothesis =>
    rw [List.range'_concat, List.foldlM_append, inductionHypothesis (by omega) (by omega)]
    simp only [Nat.one_mul, Option.bind_eq_bind, Option.bind_some, List.foldlM_cons,
      List.foldlM_nil]
    rw [visit_eq filter marks s _ (by omega) (by omega) (by omega)]
    simp [Store.record]

/-- The first `rounds` rounds record the positions they get to. -/
theorem rounds_eq {mode : Mode} (marks : mode.dummyRun = false) (s : List Byte)
    (state : Bool × Bitmap filter.bits) (rounds : Nat) :
    (List.range rounds).foldlM (fun state round =>
        (List.range' (8 * round) (min 8 (filter.globalBloomK - 8 * round))).foldlM
          (visit filter mode (res filter s (8 * round))) state) state =
      some ((bitStore filter.large).record state
        ((List.range (min (8 * rounds) filter.globalBloomK)).map (position filter s))) := by
  induction rounds with
  | zero => simp
  | succ rounds inductionHypothesis =>
    rw [List.range_succ, List.foldlM_append, inductionHypothesis]
    simp only [Option.bind_eq_bind, Option.bind_some, List.foldlM_cons, List.foldlM_nil]
    obtain more | done := Nat.lt_or_ge (8 * rounds) filter.globalBloomK
    · rw [round_eq filter marks s _ rounds _ (by omega) (Nat.min_le_left _ _)]
      have reached : min (8 * (rounds + 1)) filter.globalBloomK =
          8 * rounds + min 8 (filter.globalBloomK - 8 * rounds) := by omega
      rw [reached, Nat.min_eq_left (Nat.le_of_lt more), List.range_eq_range',
        List.range_eq_range', ← List.range'_append_1, Nat.zero_add]
      simp [Store.record]
    · have nothing : filter.globalBloomK - 8 * rounds = 0 := by omega
      have same : min (8 * (rounds + 1)) filter.globalBloomK =
          min (8 * rounds) filter.globalBloomK := by omega
      simp [nothing, same]

/-- What `process_line` prints, by whether a position was clear. -/
def printed (mode : Mode) (miss : Bool) (s : List Byte) : List Byte :=
  if (!mode.globalRepeated && miss) || (mode.globalRepeated && !miss) then s ++ [newline] else []

/-- `process_line` reads nothing unassigned, stays inside of the bitmap and records the positions of
the line. -/
theorem processLine_eq {mode : Mode} (marks : mode.dummyRun = false) (s : List Byte)
    (bm : Bitmap filter.bits) :
    processLine filter mode s bm =
      let recorded := (bitStore filter.large).record (false, bm) (positions filter s)
      some (recorded.2, printed mode recorded.1 s) := by
  have all : min (8 * ((filter.globalBloomK + 7) / 8)) filter.globalBloomK =
      filter.globalBloomK := by omega
  rw [processLine, rounds_eq filter marks, all]
  rfl

/-! ## Sequences of lines -/

/-- The bitmap after lines. -/
def remember (bm : Bitmap filter.bits) (lines : List (List Byte)) : Bitmap filter.bits :=
  lines.foldl (fun bm line => ((bitStore filter.large).record (false, bm) (positions filter line)).2)
    bm

theorem processLines_eq (mode : Mode) (marks : mode.dummyRun = false) (bm : Bitmap filter.bits)
    (lines : List (List Byte)) :
    ∃ out, processLines filter mode bm lines = some (remember filter bm lines, out) := by
  induction lines using List.reverseRecOn with
  | nil => exact ⟨[], rfl⟩
  | append_singleton lines line inductionHypothesis =>
    obtain ⟨out, runs⟩ := inductionHypothesis
    rw [processLines] at runs ⊢
    rw [List.foldlM_append, runs]
    simp only [Option.bind_eq_bind, Option.bind_some, List.foldlM_cons, List.foldlM_nil,
      processLine_eq filter marks]
    simp [remember]

theorem known_remember (bm : Bitmap filter.bits) {lines : List (List Byte)} {line : List Byte}
    (among : line ∈ lines) :
    (bitStore filter.large).Known (remember filter bm lines) (positions filter line) := by
  induction lines using List.reverseRecOn with
  | nil => cases among
  | append_singleton lines last inductionHypothesis =>
    rw [remember, List.foldl_append]
    simp only [List.foldl_cons, List.foldl_nil]
    rw [List.mem_append, List.mem_singleton] at among
    obtain earlier | rfl := among
    · exact (inductionHypothesis earlier).record false _
    · exact Store.known_record _ _ _

/-- However `read` cuts its input, the program filters the lines of the stream. -/
theorem filterInput_eq {mode : Mode} {buf : Nat → Byte} {reads : List (List Byte)}
    (delivers : ReadLoop.Delivers bufSz (callLine filter mode)
      (ReadLoop.start buf (some (emptyBitmap filter.bits, []))) reads) :
    filterInput filter mode buf reads =
      processLines filter mode (emptyBitmap filter.bits)
        ((split bufSz bufSz_pos newline reads.flatten).1.map Record.bytes) := by
  rw [filterInput, ReadLoop.readLoop_eq_split bufSz_pos delivers, ReadLoop.handOver, processLines]
  induction (split bufSz bufSz_pos newline reads.flatten).1.map Record.bytes
    using List.reverseRecOn with
  | nil => rfl
  | append_singleton lines line inductionHypothesis =>
    rw [List.foldl_append, inductionHypothesis, List.foldlM_append]
    simp [callLine]

end

/-- The two modes run through the same bitmaps and share out the lines: a line is printed without
`-D` exactly if one of its positions is clear, which for a line that has come before none is. -/
theorem modes_share_lines (filter : Filter) (bm : Bitmap filter.bits) (before : List (List Byte))
    (line : List Byte) :
    ∃ reached outDefault outRepeated,
      processLines filter defaultMode bm before = some (reached, outDefault) ∧
      processLines filter repeatedMode bm before = some (reached, outRepeated) ∧
      ∃ next printedDefault printedRepeated,
        processLine filter defaultMode line reached = some (next, printedDefault) ∧
        processLine filter repeatedMode line reached = some (next, printedRepeated) ∧
        (printedDefault = line ++ [newline] ∧ printedRepeated = [] ∨
          printedDefault = [] ∧ printedRepeated = line ++ [newline]) ∧
        (printedDefault = line ++ [newline] ↔
          ∃ position ∈ positions filter line,
            (bitStore filter.large).test reached position = false) ∧
        (line ∈ before →
          next = reached ∧ printedDefault = [] ∧ printedRepeated = line ++ [newline]) := by
  obtain ⟨outDefault, runsDefault⟩ := processLines_eq filter defaultMode rfl bm before
  obtain ⟨outRepeated, runsRepeated⟩ := processLines_eq filter repeatedMode rfl bm before
  -- both modes go through the same bitmaps, so what one prints the other leaves out
  have missed := (bitStore filter.large).record_missed (false, remember filter bm before)
    (positions filter line)
  refine ⟨remember filter bm before, outDefault, outRepeated, runsDefault, runsRepeated, _, _, _,
    processLine_eq filter rfl line _, processLine_eq filter rfl line _, ?_, ?_, ?_⟩
  · cases ((bitStore filter.large).record (false, remember filter bm before)
      (positions filter line)).1 <;> simp [printed, defaultMode, repeatedMode]
  · simp only [Bool.false_eq_true, false_or] at missed
    rw [← missed]
    cases ((bitStore filter.large).record (false, remember filter bm before)
      (positions filter line)).1 <;> simp [printed, defaultMode]
  · intro among
    rw [(known_remember filter bm among).record_self false]
    simp [printed, defaultMode, repeatedMode]

/-- A bitmap of one word, five hash functions, and a hash that sees the length of a line alone. -/
def smallFilter : Filter where
  bits := 6
  large := by decide
  globalBloomK := 5
  positive := by decide
  siphash24 s k0 _ index := k0 + BitVec.ofNat 64 (s.length * 7 + index.val)

example : (processLines smallFilter defaultMode (emptyBitmap 6) [[97], [], [97]]).map Prod.snd =
    some [97, 10, 10] := by
  decide +kernel

end CloudflareBlog.Mmuniq.Bloom
