import CloudflareBlog.Lib.Simd

/-!
# `find_nl_and_hash` of `mmuniq.c`

The SSE version walks the buffer in blocks of sixteen bytes, looks for a newline in each block and
mixes the block into a hash with two AES rounds, all in one pass.  The AES round `_mm_aesenc_si128`
is a parameter.  The version for builds without SSE is `memchr` followed by `siphash24`.

Both find the first newline, and the hash they return depends on nothing but the bytes before it:
`findNlAndHash_eq` says this of the SSE version.  `LineFinder` is what the rest of the program
needs to know.
-/

namespace CloudflareBlog.Mmuniq

open CloudflareBlog.Lib.Buffer CloudflareBlog.Lib.Simd

abbrev Register := Lanes 16 8

namespace Sse

def m2Mask : Register := setEpi64x 0x0f0e0d0c0b0a0908 0x0706050403020100

def rk0 : Register := setEpi64x 0x646f72616e646f6d 0x736f6d6570736575

def rk1 : Register := setEpi64x 0xfd5c07200540ada5 0xb549200b5168588f

section

variable (aesenc : Register → Register → Register)

/-- The `for` loop over the blocks from `i` on: the newline found, and the hash state.  `blocks`
bounds the number of rounds. -/
def findLoop (memory : Nat → Byte) (e : Nat) : Nat → Nat → Register → Option Nat × Register
  | 0, _, hash => (none, hash)
  | blocks + 1, i, hash =>
    if i < e then
      let x := loadu memory i
      -- the load may run past the end of the buffer: mask those bytes out
      let x := if e - i < 16 then and x (cmpgt (set1 (BitVec.ofNat 8 (e - i))) m2Mask) else x
      let z := movemask (cmpeq x (set1 newline))
      let piece :=
        if z ≠ 0 then and x (cmpgt (set1 (BitVec.ofNat 8 (ffs z - 1))) m2Mask) else x
      let hash := if z &&& 1 = 0 then aesenc (aesenc (xor hash piece) rk0) rk1 else hash
      if z ≠ 0 then (some (i + ffs z - 1), hash) else findLoop memory e blocks (i + 16) hash
    else (none, hash)

def finish (hash : Register) (retSz : BitVec 32) : BitVec 64 :=
  let hash := aesenc hash (setEpi64x (retSz.signExtend 64) (retSz.signExtend 64))
  half hash 0 ^^^ half hash 1

/-- `find_nl_and_hash(&memory[b], sz, &h)`: the returned position, if any, and `h`. -/
def findNlAndHash (memory : Nat → Byte) (b sz : Nat) : Option Nat × BitVec 64 :=
  let found := findLoop aesenc memory (b + sz) (sz / 16 + 1) b rk0
  let retSz := match found.1 with
    | none => BitVec.ofNat 32 sz
    | some ret => BitVec.ofNat 32 (ret - b)
  (found.1, finish aesenc found.2 retSz)

/-! ## The hash of a line -/

def absorb (hash block : Register) : Register := aesenc (aesenc (xor hash block) rk0) rk1

/-- The block `index` of a line, padded with zeros. -/
def blockOf (line : List Byte) (index : Nat) : Register := fun lane =>
  line.getD (16 * index + lane) 0

/-- The state after the first `count` blocks of a line. -/
def absorbed (line : List Byte) (count : Nat) : Register :=
  (List.range count).foldl (fun hash index => absorb aesenc hash (blockOf line index)) rk0

def lineHash (line : List Byte) : BitVec 64 :=
  finish aesenc (absorbed aesenc line ((line.length + 15) / 16)) (BitVec.ofNat 32 line.length)

end

/-! ## The pass computes the hash of the line -/

theorem cmpgt_m2Mask {count : Nat} (bound : count ≤ 16) (lane : Fin 16) :
    cmpgt (set1 (BitVec.ofNat 8 count)) m2Mask lane =
      if lane.val < count then BitVec.allOnes 8 else 0 := by
  have all : ∀ count : Fin 17, ∀ lane : Fin 16,
      cmpgt (set1 (BitVec.ofNat 8 count)) m2Mask lane =
        if lane.val < count.val then BitVec.allOnes 8 else 0 := by decide +kernel
  exact all ⟨count, by omega⟩ lane

theorem and_cmpgt_m2Mask (x : Register) {count : Nat} (bound : count ≤ 16) (lane : Fin 16) :
    and x (cmpgt (set1 (BitVec.ofNat 8 count)) m2Mask) lane =
      if lane.val < count then x lane else 0 := by
  by_cases kept : lane.val < count
  · rw [and_allOnes _ _ _ (by rw [cmpgt_m2Mask bound, if_pos kept]), if_pos kept]
  · rw [and_zero _ _ _ (by rw [cmpgt_m2Mask bound, if_neg kept]), if_neg kept]

theorem getLsbD_newlines (x : Register) (lane : Fin 16) :
    (movemask (cmpeq x (set1 newline))).getLsbD lane = decide (x lane = newline) := by
  rw [getLsbD_movemask, cmpeq, set1]
  by_cases equal : x lane = newline
  · rw [if_pos equal, decide_eq_true equal]
    rfl
  · rw [if_neg equal, decide_eq_false equal]
    rfl

/-- `stop` bytes before the first newline, or all `sz` bytes when there is none. -/
structure Stops (memory : Nat → Byte) (b sz stop : Nat) : Prop where
  bound : stop ≤ sz
  before : ∀ index < stop, memory (b + index) ≠ newline
  here : stop < sz → memory (b + stop) = newline

theorem blockOf_slice (memory : Nat → Byte) (b stop index : Nat) (lane : Fin 16) :
    blockOf (slice memory b stop) index lane =
      if 16 * index + lane < stop then memory (b + (16 * index + lane)) else 0 := by
  rw [blockOf, List.getD_eq_getElem?_getD]
  by_cases inside : 16 * index + lane < stop
  · rw [if_pos inside, List.getElem?_eq_getElem (by simpa using inside), getElem_slice]
    rfl
  · rw [if_neg inside, List.getElem?_eq_none (by simpa using inside)]
    rfl

variable (aesenc : Register → Register → Register)

theorem absorbed_succ (line : List Byte) (count : Nat) :
    absorbed aesenc line (count + 1) =
      absorb aesenc (absorbed aesenc line count) (blockOf line count) := by
  simp [absorbed, List.range_succ]

/-- The bytes of a block that lie inside the buffer. -/
def loaded (memory : Nat → Byte) (b sz index : Nat) : Register := fun lane =>
  if 16 * index + lane < sz then memory (b + (16 * index + lane)) else 0

/-- One round of the loop, on the block as `loaded` and its newlines as `z`. -/
theorem findLoop_round {memory : Nat → Byte} {b sz index : Nat} {z : BitVec 16}
    (inside : 16 * index < sz)
    (mask : movemask (cmpeq (loaded memory b sz index) (set1 newline)) = z) (blocks : Nat)
    (hash : Register) :
    findLoop aesenc memory (b + sz) (blocks + 1) (b + 16 * index) hash =
      if z ≠ 0 then
        (some (b + 16 * index + ffs z - 1),
          if z &&& 1 = 0 then
            absorb aesenc hash (and (loaded memory b sz index)
              (cmpgt (set1 (BitVec.ofNat 8 (ffs z - 1))) m2Mask))
          else hash)
      else
        findLoop aesenc memory (b + sz) blocks (b + 16 * (index + 1))
          (absorb aesenc hash (loaded memory b sz index)) := by
  -- the mask of the last block is what `loaded` says of lanes behind the end
  have masked : (if b + sz - (b + 16 * index) < 16 then
      and (loadu memory (b + 16 * index))
        (cmpgt (set1 (BitVec.ofNat 8 (b + sz - (b + 16 * index)))) m2Mask)
      else loadu memory (b + 16 * index)) = loaded memory b sz index := by
    funext lane
    by_cases short : b + sz - (b + 16 * index) < 16
    · rw [if_pos short, and_cmpgt_m2Mask _ (by omega), loaded, loadu, Nat.add_assoc]
      by_cases kept : lane.val < b + sz - (b + 16 * index)
      · rw [if_pos kept, if_pos (by omega)]
      · rw [if_neg kept, if_neg (by omega)]
    · rw [if_neg short, loaded, loadu, if_pos (by omega), Nat.add_assoc]
  rw [findLoop, if_pos (by omega)]
  simp only [masked, mask]
  by_cases clear : z = 0
  · subst clear
    simp only [ne_eq, not_true_eq_false, if_false]
    rfl
  · simp only [ne_eq, clear, not_false_eq_true, if_true]
    rfl

theorem getLsbD_loaded (memory : Nat → Byte) (b sz index : Nat) (lane : Fin 16) :
    (movemask (cmpeq (loaded memory b sz index) (set1 newline))).getLsbD lane =
      decide (16 * index + lane < sz ∧ memory (b + (16 * index + lane)) = newline) := by
  rw [getLsbD_newlines, loaded]
  by_cases within : 16 * index + lane < sz
  · simp [within]
  · rw [if_neg within, decide_eq_false (by decide), decide_eq_false (by tauto)]

theorem and_one_eq_zero (z : BitVec 16) : z &&& 1 = 0 ↔ z.getLsbD 0 = false := by
  constructor
  · intro zero
    have bit := congrArg (·.getLsbD 0) zero
    simpa using bit
  · intro clear
    apply BitVec.eq_of_getLsbD_eq
    intro bit bound
    cases bit with
    | zero => simpa using clear
    | succ bit => simp [BitVec.getLsbD_one]

/-- A round on a block without newline absorbs the block and goes on. -/
theorem findLoop_absent {memory : Nat → Byte} {b sz stop index : Nat}
    (stops : Stops memory b sz stop) (inside : 16 * index < sz)
    (absent : stop = sz ∨ 16 * (index + 1) ≤ stop) (blocks : Nat) :
    findLoop aesenc memory (b + sz) (blocks + 1) (b + 16 * index)
        (absorbed aesenc (slice memory b stop) index) =
      findLoop aesenc memory (b + sz) blocks (b + 16 * (index + 1))
        (absorbed aesenc (slice memory b stop) (index + 1)) := by
  have clear : movemask (cmpeq (loaded memory b sz index) (set1 newline)) = 0 := by
    apply BitVec.eq_of_getLsbD_eq
    intro bit bound
    rw [getLsbD_loaded memory b sz index ⟨bit, bound⟩, decide_eq_false]
    · simp
    · rintro ⟨within, found⟩
      exact stops.before _ (by simp only at within ⊢; have := stops.bound; omega) found
  have block : loaded memory b sz index = blockOf (slice memory b stop) index := by
    funext lane
    rw [blockOf_slice, loaded]
    have := stops.bound
    congr 1
    exact propext ⟨by omega, by omega⟩
  rw [findLoop_round aesenc inside clear, if_neg (by simp), block, absorbed_succ]

/-- A round on the block in which the line ends absorbs what the block has of the line, and
returns. -/
theorem findLoop_present {memory : Nat → Byte} {b sz stop index : Nat}
    (stops : Stops memory b sz stop) (opened : 16 * index ≤ stop) (closed : stop < sz)
    (present : stop < 16 * (index + 1)) (blocks : Nat) :
    findLoop aesenc memory (b + sz) (blocks + 1) (b + 16 * index)
        (absorbed aesenc (slice memory b stop) index) =
      (some (b + stop), absorbed aesenc (slice memory b stop) ((stop + 15) / 16)) := by
  obtain ⟨last, rfl⟩ := Nat.exists_eq_add_of_le opened
  have mask := getLsbD_loaded memory b sz index
  obtain ⟨z, isMask⟩ : ∃ z, movemask (cmpeq (loaded memory b sz index) (set1 newline)) = z :=
    ⟨_, rfl⟩
  rw [isMask] at mask
  have lastBit : z.getLsbD last = true := by
    rw [mask ⟨last, by omega⟩, decide_eq_true ⟨closed, stops.here closed⟩]
  have lowerBits (lower : Nat) (below : lower < last) : z.getLsbD lower = false := by
    rw [mask ⟨lower, by omega⟩, decide_eq_false]
    exact fun found => stops.before _ (by simp only; omega) found.2
  have nonzero : z ≠ 0 := by
    rintro rfl
    simp at lastBit
  have scanned : ffs z = last + 1 := by
    obtain ⟨-, clear⟩ | ⟨bit, -, scanned, set, lower⟩ := ffs_cases z
    · simp [clear] at lastBit
    · obtain below | rfl | above := Nat.lt_trichotomy bit last
      · simp [lowerBits bit below] at set
      · exact scanned
      · simp [lower last above] at lastBit
  have piece : and (loaded memory b sz index)
      (cmpgt (set1 (BitVec.ofNat 8 (ffs z - 1))) m2Mask) =
      blockOf (slice memory b (16 * index + last)) index := by
    funext lane
    rw [scanned, Nat.add_sub_cancel, and_cmpgt_m2Mask _ (by omega), blockOf_slice, loaded]
    by_cases kept : lane.val < last
    · rw [if_pos kept, if_pos (by omega), if_pos (by omega)]
    · rw [if_neg kept, if_neg (by omega)]
  rw [findLoop_round aesenc (by omega) isMask, if_pos nonzero, piece]
  simp only [and_one_eq_zero]
  -- a newline in the first lane leaves the hash alone: the line has no byte in this block
  cases last with
  | zero =>
    rw [lastBit, if_neg (by simp), scanned]
    simp only [Prod.mk.injEq, Option.some.injEq]
    exact ⟨by omega, congrArg _ (by omega)⟩
  | succ last =>
    rw [lowerBits 0 (by omega), if_pos rfl, scanned, ← absorbed_succ]
    simp only [Prod.mk.injEq, Option.some.injEq]
    exact ⟨by omega, congrArg _ (by omega)⟩

/-- The loop from block `index` on, with the first `index` blocks of the line in the hash. -/
theorem findLoop_eq {memory : Nat → Byte} {b sz stop : Nat} (stops : Stops memory b sz stop)
    (blocks index : Nat) (enough : sz < 16 * (index + blocks))
    (reached : 16 * index ≤ stop ∨ stop = sz ∧ sz ≤ 16 * index ∧ index = (stop + 15) / 16) :
    findLoop aesenc memory (b + sz) blocks (b + 16 * index)
        (absorbed aesenc (slice memory b stop) index) =
      (if stop < sz then some (b + stop) else none,
        absorbed aesenc (slice memory b stop) ((stop + 15) / 16)) := by
  have bound := stops.bound
  induction blocks generalizing index with
  | zero =>
    have ended : stop = sz ∧ index = (stop + 15) / 16 := by omega
    rw [findLoop, if_neg (by omega), ← ended.2]
  | succ blocks inductionHypothesis =>
    by_cases inside : 16 * index < sz
    · by_cases present : stop < sz ∧ stop < 16 * (index + 1)
      · rw [findLoop_present aesenc stops (by omega) present.1 present.2, if_pos present.1]
      · rw [findLoop_absent aesenc stops inside (by omega)]
        exact inductionHypothesis (index + 1) (by omega) (by omega)
    · have ended : stop = sz ∧ index = (stop + 15) / 16 := by omega
      rw [findLoop, if_neg (by omega), if_neg (by omega), ← ended.2]

end Sse

/-- The bytes that `find_nl_and_hash` hashes: those before the first newline, or all. -/
def lineAt (memory : Nat → Byte) (b sz : Nat) : List Byte :=
  match memchr memory newline b sz with
  | none => slice memory b sz
  | some nl => slice memory b (nl - b)

/-- The pass, in terms of where the line stops. -/
theorem Sse.findNlAndHash_of_stops (aesenc : Register → Register → Register) {memory : Nat → Byte}
    {b sz stop : Nat} (stops : Stops memory b sz stop) :
    findNlAndHash aesenc memory b sz =
      (if stop < sz then some (b + stop) else none, lineHash aesenc (slice memory b stop)) := by
  have scanned := findLoop_eq aesenc stops (sz / 16 + 1) 0 (by omega) (by omega)
  rw [show absorbed aesenc (slice memory b stop) 0 = rk0 from rfl] at scanned
  simp only [Nat.mul_zero, Nat.add_zero] at scanned
  simp only [findNlAndHash, scanned, lineHash, length_slice]
  by_cases ended : stop < sz
  · simp only [if_pos ended, Nat.add_sub_cancel_left]
  · have whole : stop = sz := Nat.le_antisymm stops.bound (Nat.not_lt.mp ended)
    simp only [whole, if_neg (Nat.lt_irrefl sz)]

theorem exists_stops (memory : Nat → Byte) (b sz : Nat) :
    ∃ stop, Sse.Stops memory b sz stop ∧
      memchr memory newline b sz = (if stop < sz then some (b + stop) else none) ∧
      lineAt memory b sz = slice memory b stop := by
  -- a newline before the end of a slice is in the slice
  have member {stop index : Nat} (below : index < stop) (equal : memory (b + index) = newline) :
      newline ∈ slice memory b stop :=
    List.mem_iff_getElem.mpr ⟨index, by simpa using below, by rw [getElem_slice, equal]⟩
  obtain ⟨missing, absent⟩ | ⟨stop, bound, found, here, absent⟩ := memchr_cases memory newline b sz
  · refine ⟨sz, ⟨Nat.le_refl _, fun index below equal => absent (member below equal), ?_⟩, ?_, ?_⟩
    · exact fun inside => absurd inside (Nat.lt_irrefl sz)
    · rw [missing, if_neg (Nat.lt_irrefl sz)]
    · rw [lineAt, missing]
  · refine ⟨stop, ⟨Nat.le_of_lt bound, fun index below equal => absent (member below equal),
      fun _ => here⟩, ?_, ?_⟩
    · rw [found, if_pos bound]
    · simp only [lineAt, found, Nat.add_sub_cancel_left]

/-- The position is that of the first newline, and the hash is a function of the line alone. -/
theorem Sse.findNlAndHash_eq (aesenc : Register → Register → Register) (memory : Nat → Byte)
    (b sz : Nat) :
    findNlAndHash aesenc memory b sz =
      (memchr memory newline b sz, lineHash aesenc (lineAt memory b sz)) := by
  obtain ⟨stop, stops, found, line⟩ := exists_stops memory b sz
  rw [findNlAndHash_of_stops aesenc stops, found, line]

/-- For every buffer and every AES round: the pass returns the first newline, or nothing, and the hash
that its line has by definition; so a line has one hash, wherever it stands and however it ends. -/
theorem Sse.findNlAndHash_first_line (aesenc : Register → Register → Register)
    (memory : Nat → Byte) (b sz : Nat) :
    ∃ stop, Stops memory b sz stop ∧
      findNlAndHash aesenc memory b sz =
        (if stop < sz then some (b + stop) else none, lineHash aesenc (slice memory b stop)) ∧
      ∀ (other : Nat → Byte) (otherB otherSz otherStop : Nat),
        Stops other otherB otherSz otherStop →
        slice other otherB otherStop = slice memory b stop →
        (findNlAndHash aesenc other otherB otherSz).2 = (findNlAndHash aesenc memory b sz).2 := by
  obtain ⟨stop, stops, -, -⟩ := exists_stops memory b sz
  refine ⟨stop, stops, findNlAndHash_of_stops aesenc stops, fun other b' sz' stop' stops' same => ?_⟩
  rw [findNlAndHash_of_stops aesenc stops', findNlAndHash_of_stops aesenc stops, same]

/-! ## What the rest of the program uses -/

/-- A `find_nl_and_hash`, with what is promised of it. -/
structure LineFinder where
  findNlAndHash : (Nat → Byte) → Nat → Nat → Option Nat × BitVec 64
  lineHash : List Byte → BitVec 64
  finds : ∀ memory b sz,
    findNlAndHash memory b sz = (memchr memory newline b sz, lineHash (lineAt memory b sz))

/-- The SSE build. -/
def sse (aesenc : Register → Register → Register) : LineFinder where
  findNlAndHash := Sse.findNlAndHash aesenc
  lineHash := Sse.lineHash aesenc
  finds := Sse.findNlAndHash_eq aesenc

namespace NoSse

/-- `find_nl_and_hash` of the build without SSE. -/
def findNlAndHash (siphash24 : List Byte → BitVec 64) (memory : Nat → Byte) (s n : Nat) :
    Option Nat × BitVec 64 :=
  match memchr memory newline s n with
  | none => (none, siphash24 (slice memory s n))
  | some c =>
    let sz := c - s
    (some c, siphash24 (slice memory s sz))

end NoSse

/-- The build without SSE. -/
def noSse (siphash24 : List Byte → BitVec 64) : LineFinder where
  findNlAndHash := NoSse.findNlAndHash siphash24
  lineHash := siphash24
  finds memory b sz := by
    rw [NoSse.findNlAndHash, lineAt]
    cases memchr memory newline b sz <;> rfl

end CloudflareBlog.Mmuniq
