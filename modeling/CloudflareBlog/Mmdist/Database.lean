import CloudflareBlog.Mmdist.Queries

/-!
# The database of mmdist

`generate.c` prints vectors as lines of hexadecimal digits, and `mmdist_load` takes a file of such
lines back in.  The two agree on the digits, on which half of a byte comes first, and on the 289
bytes from one line to the next (`database_round_trip`).

What the file system and the allocator answer is the environment of `mmdist_load`.
-/

namespace CloudflareBlog.Mmdist

open CloudflareBlog.Lib.Buffer

/-! ## `to_hex` -/

/-- `HEX`. -/
def hexTable : List Byte := [48, 49, 50, 51, 52, 53, 54, 55, 56, 57, 97, 98, 99, 100, 101, 102]

/-- `HEX[nibble]`. -/
def hex (nibble : Byte) : Byte := hexTable.getD nibble.toNat 0

/-- The two digits of a byte. -/
def hexPair (b : Byte) : List Byte := [hex ((b >>> 4) &&& 0xf), hex (b &&& 0xf)]

/-- `to_hex`: what it writes to `dst`. -/
def toHex (src : List Byte) : List Byte := src.flatMap hexPair ++ [0]

/-- The characters of a string, up to the zero byte. -/
def cString (s : List Byte) : List Byte := s.takeWhile (· ≠ 0)

/-- The file that `generate.c` prints for these vectors: `printf("%s\n", to_hex(..))` for each. -/
def databaseFile (vectors : List (List Byte)) : List Byte :=
  vectors.flatMap fun vector => cString (toHex vector) ++ [newline]

/-! ## `mmdist_load` -/

def einval : Nat := 22

def emsgsize : Nat := 90

def enomem : Nat := 12

/-- What the calls of `mmdist_load` answer. -/
structure Host where
  /-- `open` and `fstat`: the bytes of the file, or `errno`. -/
  openFile : (fname : String) → Except Nat (List Byte)
  /-- `mmap` of so many bytes, with `errno` if it fails. -/
  mmap : (size : Nat) → Except Nat Unit
  /-- Whether `calloc` finds so many bytes. -/
  calloc : (size : Nat) → Bool

/-- `mmdist_load` returns an error, sets `*state_ptr`, or computes an `int` that overflows. -/
inductive Load where
  | failed (error : Nat)
  | loaded (state : Database)
  | overflow

/-- `errno ? errno : EINVAL`. -/
def errnoOr (errno : Nat) : Nat := if errno ≠ 0 then errno else einval

/-- The bytes of an item in the file, with the newline. -/
def lineSize : Nat := 144 * 2 + 1

/-- `int items = size / (144 * 2 + 1)`.  A quotient that is no `int` is narrowed. -/
def itemCount (size : Nat) : BitVec 32 := BitVec.ofNat 32 (size / lineSize)

/-- `sizeof(struct mmdist) + 144 * items`, with an `int` product. -/
def allocSize (items : BitVec 32) : BitVec 64 := 4 + (144 * items).signExtend 64

/-- The `int` product `item * (144 * 2 + 1)`. -/
def itemOffset (item : BitVec 32) : BitVec 32 := item * BitVec.ofNat 32 lineSize

def InInt (x : Int) : Prop := -2 ^ 31 ≤ x ∧ x < 2 ^ 31

instance (x : Int) : Decidable (InInt x) := inferInstanceAs (Decidable (_ ∧ _))

/-- The loop over the items.  The memory is zero where `parse_hex` does not write. -/
def readItems (fileMem : List Byte) (items : Nat) : Database where
  items := items
  hashes item k :=
    if item < items then (parseHex (fileMem.drop (item * lineSize)) 144).2.getD k 0 else 0

def mmdistLoad (host : Host) (fname : String) : Load :=
  match host.openFile fname with
  | .error errno => .failed (errnoOr errno)
  | .ok fileMem =>
    let size := fileMem.length
    if size % lineSize ≠ 0 then .failed emsgsize
    else
      match host.mmap size with
      | .error errno => .failed (errnoOr errno)
      | .ok () =>
        let items := itemCount size
        if ¬ InInt (144 * items.toInt) then .overflow
        else if host.calloc (allocSize items).toNat then
          let count := items.toInt.toNat
          -- the product item * lineSize grows with the item
          if ¬ InInt ((count - 1 : Nat) * lineSize) then .overflow
          else .loaded (readItems fileMem count)
        else .failed enomem

theorem itemCount_toInt {size : Nat} (fewer : size / lineSize < 2 ^ 31) :
    (itemCount size).toInt = (size / lineSize : Nat) := by
  rw [itemCount, BitVec.toInt_eq_toNat_cond, BitVec.toNat_ofNat]
  have narrowed : size / lineSize % 2 ^ 32 = size / lineSize := Nat.mod_eq_of_lt (by omega)
  rw [narrowed, if_pos (by omega)]

/-! ## Digits -/

/-- A digit is neither a blank nor the end of the string, and has the value it was written for. -/
theorem hex_nibble : ∀ nibble : Byte, nibble < 16 →
    hex nibble ≠ 0 ∧ hex nibble ≠ 32 ∧ digit (hex nibble ||| 0x20) = nibble.setWidth 32 := by
  decide +kernel

theorem nibbles (b : Byte) : (b >>> 4) &&& 0xf < 16 ∧ b &&& 0xf < 16 ∧
    ((((b >>> 4) &&& 0xf).setWidth 32 <<< 4) ||| (b &&& 0xf).setWidth 32).setWidth 8 = b := by
  revert b
  decide +kernel

/-! ## Round trips -/

theorem hexPair_cons {b : Byte} : ∃ high low, hexPair b = [high, low] ∧
    high ≠ 0 ∧ high ≠ 32 ∧ low ≠ 0 ∧ low ≠ 32 ∧ digit (high ||| 0x20) ≠ 0x100 ∧
    digit (low ||| 0x20) ≠ 0x100 ∧
    ((digit (high ||| 0x20) <<< 4) ||| digit (low ||| 0x20)).setWidth 8 = b := by
  obtain ⟨highSmall, lowSmall, joined⟩ := nibbles b
  obtain ⟨highEnd, highBlank, highValue⟩ := hex_nibble _ highSmall
  obtain ⟨lowEnd, lowBlank, lowValue⟩ := hex_nibble _ lowSmall
  have valid (nibble : Byte) : nibble.setWidth 32 ≠ 0x100 := by
    revert nibble
    decide +kernel
  refine ⟨_, _, rfl, highEnd, highBlank, lowEnd, lowBlank, ?_, ?_, ?_⟩
  · rw [highValue]
    exact valid _
  · rw [lowValue]
    exact valid _
  · rw [highValue, lowValue]
    exact joined

/-- `parse_hex` reads as many digits as it wants bytes, and nothing behind them. -/
theorem parseHexLoop_digits (src rest dst : List Byte) :
    parseHexLoop src.length (src.flatMap hexPair ++ rest) dst =
      (((dst.length + src.length : Nat) : Int), dst ++ src) := by
  induction src generalizing dst with
  | nil => simp [parseHexLoop]
  | cons b src inductionHypothesis =>
    obtain ⟨high, low, pair, highEnd, highBlank, lowEnd, lowBlank, highValid, lowValid, value⟩ :=
      hexPair_cons (b := b)
    rw [List.flatMap_cons, pair, List.length_cons, parseHexLoop]
    simp only [List.cons_append, List.nil_append, nextChar, highBlank, lowBlank, highEnd, lowEnd,
      highValid, lowValid, if_false, or_self, value]
    rw [inductionHypothesis, List.append_assoc]
    refine Prod.ext ?_ rfl
    simp only [List.length_append, List.length_singleton]
    omega

theorem parseHex_digits (src rest : List Byte) :
    parseHex (src.flatMap hexPair ++ rest) src.length = ((src.length : Int), src) := by
  rw [parseHex, parseHexLoop_digits]
  simp

theorem cString_toHex (src : List Byte) : cString (toHex src) = src.flatMap hexPair := by
  have nonzero : ∀ a ∈ src.flatMap hexPair, (decide (a ≠ 0)) = true := by
    intro a among
    obtain ⟨b, -, inPair⟩ := List.mem_flatMap.mp among
    obtain ⟨high, low, pair, highEnd, -, lowEnd, -⟩ := hexPair_cons (b := b)
    rw [pair] at inPair
    simp only [List.mem_cons, List.not_mem_nil, or_false] at inPair
    obtain rfl | rfl := inPair
    · exact decide_eq_true highEnd
    · exact decide_eq_true lowEnd
  rw [cString, toHex, List.takeWhile_append_of_pos nonzero]
  simp

theorem length_digits (src : List Byte) : (src.flatMap hexPair).length = 2 * src.length := by
  induction src with
  | nil => rfl
  | cons b src inductionHypothesis =>
    rw [List.flatMap_cons, List.length_append, inductionHypothesis, List.length_cons]
    simp only [hexPair, List.length_cons, List.length_nil]
    omega

theorem slice_getD {block : List Byte} {size : Nat} (length : block.length = size) :
    slice (fun k => block.getD k 0) 0 size = block := by
  apply List.ext_getElem (by simp [length])
  intro index inside bound
  simp [getElem_slice, bound]

theorem length_line {vector : List Byte} (size : vector.length = 144) :
    (cString (toHex vector) ++ [newline]).length = lineSize := by
  rw [cString_toHex, List.length_append, length_digits, size]
  rfl

theorem length_databaseFile {vectors : List (List Byte)}
    (sizes : ∀ vector ∈ vectors, vector.length = 144) :
    (databaseFile vectors).length = vectors.length * lineSize := by
  induction vectors with
  | nil => rfl
  | cons vector vectors inductionHypothesis =>
    have later := inductionHypothesis fun other among => sizes other (List.mem_cons_of_mem _ among)
    rw [databaseFile] at later ⊢
    rw [List.flatMap_cons, List.length_append, length_line (sizes vector List.mem_cons_self), later,
      List.length_cons]
    ring

/-- An item begins `lineSize` bytes behind the one before it. -/
theorem drop_databaseFile {vectors : List (List Byte)}
    (sizes : ∀ vector ∈ vectors, vector.length = 144) {item : Nat}
    (inside : item < vectors.length) :
    ∃ rest, (databaseFile vectors).drop (item * lineSize) =
      vectors[item].flatMap hexPair ++ newline :: rest := by
  induction vectors generalizing item with
  | nil => exact absurd inside (Nat.not_lt_zero _)
  | cons vector vectors inductionHypothesis =>
    have line := length_line (sizes vector List.mem_cons_self)
    rw [databaseFile, List.flatMap_cons]
    cases item with
    | zero =>
      rw [cString_toHex]
      exact ⟨vectors.flatMap fun vector => cString (toHex vector) ++ [newline], by simp⟩
    | succ item =>
      obtain ⟨rest, found⟩ := inductionHypothesis
        (fun other among => sizes other (List.mem_cons_of_mem _ among)) (Nat.lt_of_succ_lt_succ inside)
      refine ⟨rest, ?_⟩
      rw [Nat.succ_mul, Nat.add_comm]
      nth_rewrite 1 [← line]
      rw [List.drop_length_add_append]
      exact found

/-- The file is there, and there is memory. -/
structure Host.Serves (host : Host) (fname : String) (file : List Byte) : Prop where
  opens : host.openFile fname = .ok file
  maps : 0 < file.length → host.mmap file.length = .ok ()
  allocates : ∀ size, host.calloc size = true

/-- `parse_hex` takes back what `to_hex` wrote, up to a zero byte or a newline, and `mmdist_load` the
file that `generate.c` printed. -/
theorem database_round_trip (host : Host) (fname : String) (vectors : List (List Byte))
    (sizes : ∀ vector ∈ vectors, vector.length = 144) (nonempty : 0 < vectors.length)
    (small : 289 * vectors.length < 2 ^ 31) (serves : host.Serves fname (databaseFile vectors)) :
    (∃ state, mmdistLoad host fname = .loaded state ∧ state.items = vectors.length ∧
      ∀ i (inside : i < vectors.length), slice (state.hashes i) 0 144 = vectors[i]) ∧
    ∀ b rest, parseHex (toHex b ++ rest) b.length = ((b.length : Int), b) ∧
      parseHex (cString (toHex b) ++ newline :: rest) b.length = ((b.length : Int), b) := by
  have fileSize := length_databaseFile sizes
  constructor
  · have positive : 0 < (databaseFile vectors).length := by
      rw [fileSize]
      exact Nat.mul_pos nonempty (by decide)
    have count : (databaseFile vectors).length / lineSize = vectors.length := by
      rw [fileSize]
      exact Nat.mul_div_cancel _ (by decide)
    have whole : ¬ (databaseFile vectors).length % lineSize ≠ 0 := by
      rw [fileSize, Nat.mul_mod_left]
      decide
    have items : (itemCount (databaseFile vectors).length).toInt = (vectors.length : Nat) := by
      rw [itemCount_toInt (by rw [count]; omega), count]
    have sizeInRange : ¬ ¬ InInt (144 * (vectors.length : Int)) := by
      rw [InInt]
      omega
    have offsetsInRange : ¬ ¬ InInt ((vectors.length - 1 : Nat) * (lineSize : Nat)) := by
      rw [InInt, lineSize]
      omega
    refine ⟨readItems (databaseFile vectors) vectors.length, ?_, rfl, ?_⟩
    · rw [mmdistLoad, serves.opens]
      simp only
      rw [if_neg whole, serves.maps positive]
      simp only [items, Int.toNat_natCast]
      rw [if_neg sizeInRange, serves.allocates, if_pos rfl, if_neg offsetsInRange]
    -- each line is parsed where it starts, with all later lines still behind it
    · intro i inside
      obtain ⟨rest, found⟩ := drop_databaseFile sizes inside
      have size := sizes _ (List.getElem_mem inside)
      have parsed := parseHex_digits vectors[i] (newline :: rest)
      rw [size] at parsed
      simp only [readItems, inside, if_true, found, parsed]
      exact slice_getD size
  · intro b rest
    rw [cString_toHex, toHex, List.append_assoc]
    exact ⟨parseHex_digits b _, parseHex_digits b _⟩

/-- A host on which every file has the same contents. -/
def hostOf (file : List Byte) : Host where
  openFile _ := .ok file
  mmap size := if size = 0 then .error einval else .ok ()
  calloc _ := true

theorem hostOf_serves (file : List Byte) (fname : String) : (hostOf file).Serves fname file where
  opens := rfl
  maps positive := if_neg (Nat.ne_of_gt positive)
  allocates _ := rfl

/-- Two vectors. -/
def twoVectors : List (List Byte) :=
  [(List.range 144).map (BitVec.ofNat 8), List.replicate 144 0xff]

theorem twoVectors_sizes : ∀ vector ∈ twoVectors, vector.length = 144 := by simp [twoVectors]

theorem database_round_trip_two :
    ∃ state, mmdistLoad (hostOf (databaseFile twoVectors)) "database.txt" = .loaded state ∧
      state.items = 2 ∧ slice (state.hashes 0) 0 144 = (List.range 144).map (BitVec.ofNat 8) ∧
      slice (state.hashes 1) 0 144 = List.replicate 144 0xff := by
  obtain ⟨⟨state, loads, items, hashes⟩, -⟩ := database_round_trip _ "database.txt" twoVectors
    twoVectors_sizes (by decide) (by decide) (hostOf_serves _ _)
  exact ⟨state, loads, items, hashes 0 (by decide), hashes 1 (by decide)⟩

end CloudflareBlog.Mmdist
