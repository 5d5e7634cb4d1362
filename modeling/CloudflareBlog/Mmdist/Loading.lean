import CloudflareBlog.Mmdist.Database
import CloudflareBlog.Mmdist.Hex

/-!
# What `mmdist_load` makes of a file

`mmdist_load` checks the size of a file and nothing else of it: the results of `parse_hex` are
dropped, and `parse_hex` goes on behind a record that has too few digits.  So a file is taken over
faithfully if its records are well-formed, and only then (`rejectsMalformed_iff`).

The size is a 64-bit number, the number of records and the offsets of the records are `int`s, which
limits the files that can be loaded at all (`exactArithmetic_iff`).
-/

namespace CloudflareBlog.Mmdist

open CloudflareBlog.Lib.Buffer

/-- The `i`-th record of a file. -/
def record (file : List Byte) (i : Nat) : List Byte := (file.drop (i * lineSize)).take lineSize

/-- 288 hexadecimal digits and a newline. -/
def WellFormed (r : List Byte) : Prop :=
  (∀ a ∈ r.take (144 * 2), HexDigit a) ∧ r.drop (144 * 2) = [newline]

instance (r : List Byte) : Decidable (WellFormed r) := inferInstanceAs (Decidable (_ ∧ _))

/-- Every record of the file is well-formed, and is decoded from its own characters. -/
structure Faithful (file : List Byte) (state : Database) : Prop where
  items : state.items = file.length / lineSize
  wellFormed : ∀ i < file.length / lineSize, WellFormed (record file i)
  decoded : ∀ i < file.length / lineSize,
    slice (state.hashes i) 0 144 = pairValues ((record file i).take (144 * 2))
  alone : ∀ i < file.length / lineSize, (parseHexWithin 144 (record file i) []).isSome

/-- `mmdist_load` returns an error or a faithful copy of the file. -/
def RejectsMalformed (host : Host) (fname : String) (file : List Byte) : Prop :=
  (∃ error, mmdistLoad host fname = .failed error ∧ error ≠ 0) ∨
    ∃ state, mmdistLoad host fname = .loaded state ∧ Faithful file state

/-- `mmap` or `calloc` fails. -/
def Host.Refuses (host : Host) (file : List Byte) : Prop :=
  host.mmap file.length ≠ .ok () ∨
    InInt (144 * (itemCount file.length).toInt) ∧
      host.calloc (allocSize (itemCount file.length)).toNat = false

/-- The sizes and offsets that `mmdist_load` computes for a file of this size are the mathematical
ones, and so no record or hash is outside of the file or the allocation. -/
structure ExactArithmetic (size : Nat) : Prop where
  allocation : (allocSize (itemCount size)).toNat = 4 + 144 * (size / lineSize)
  offsets : ∀ item < size / lineSize,
    (itemOffset (BitVec.ofNat 32 item)).toInt = (item * lineSize : Nat)
  insideMapping : ∀ item < size / lineSize, 0 ≤ (itemOffset (BitVec.ofNat 32 item)).toInt ∧
    (itemOffset (BitVec.ofNat 32 item)).toInt + lineSize ≤ size
  insideAllocation : ∀ item < size / lineSize,
    4 + 144 * item + 144 ≤ (allocSize (itemCount size)).toNat

/-! ## Arithmetic -/

theorem itemOffset_toInt {item : Nat} (small : item * lineSize < 2 ^ 31) :
    (itemOffset (BitVec.ofNat 32 item)).toInt = (item * lineSize : Nat) := by
  rw [lineSize] at small ⊢
  have exact : (itemOffset (BitVec.ofNat 32 item)).toNat = item * (144 * 2 + 1) := by
    rw [itemOffset, lineSize, BitVec.toNat_mul, BitVec.toNat_ofNat, BitVec.toNat_ofNat]
    omega
  rw [BitVec.toInt_eq_toNat_cond, exact, if_pos (by omega)]

theorem allocSize_toNat {items : BitVec 32} {count : Nat} (exact : items.toInt = count)
    (small : 144 * count < 2 ^ 31) : (allocSize items).toNat = 4 + 144 * count := by
  have product : (144 * items).toInt = (144 * count : Nat) := by
    rw [BitVec.toInt_mul, exact, Int.bmod_eq_emod]
    have factor : (144 : BitVec 32).toInt = 144 := by decide
    rw [factor]
    split <;> omega
  have extended : ((144 * items).signExtend 64).toInt = (144 * count : Nat) := by
    rw [BitVec.toInt_signExtend_of_le (by decide), product]
  have nonnegative : ((144 * items).signExtend 64).toNat = 144 * count := by
    have := BitVec.toInt_eq_toNat_cond ((144 * items).signExtend 64)
    have bound := ((144 * items).signExtend 64).isLt
    split at this <;> omega
  rw [allocSize, BitVec.toNat_add, nonnegative]
  have four : (4 : BitVec 64).toNat = 4 := by decide
  rw [four]
  omega

/-- For a file of whole records, the `int` arithmetic of `mmdist_load` is exact if and only if there
are at most 7430740 of them: the next one would begin behind the first 2 ^ 31 bytes. -/
theorem exactArithmetic_iff (size : Nat) (positive : 0 < size) (whole : size % lineSize = 0)
    (fewer : size / lineSize < 2 ^ 31) : ExactArithmetic size ↔ size / lineSize ≤ 7430740 := by
  have records : 0 < size / lineSize := by
    rw [lineSize] at whole ⊢
    omega
  constructor
  · intro exact
    have last := exact.offsets (size / lineSize - 1) (by omega)
    have bounded := BitVec.toInt_lt (x := itemOffset (BitVec.ofNat 32 (size / lineSize - 1)))
    rw [last, lineSize] at bounded
    rw [lineSize]
    omega
  · intro few
    have offsets (item : Nat) (inside : item < size / lineSize) :
        (itemOffset (BitVec.ofNat 32 item)).toInt = (item * lineSize : Nat) :=
      itemOffset_toInt (by rw [lineSize] at few inside ⊢; omega)
    have allocation := allocSize_toNat (itemCount_toInt fewer) (by omega)
    refine ⟨allocation, offsets, fun item inside => ?_, fun item inside => ?_⟩
    · rw [offsets item inside]
      rw [lineSize] at whole inside ⊢
      omega
    · rw [allocation]
      omega

/-- A file of a thousand records. -/
theorem exactArithmetic_iff_thousand : ExactArithmetic 289000 :=
  (exactArithmetic_iff 289000 (by decide) (by decide) (by decide)).mpr (by decide)

/-- The record behind 7430740 others is read from before the file. -/
theorem not_exactArithmetic :
    (itemOffset (BitVec.ofNat 32 7430740)).toInt = -2147483436 ∧
      ¬ ExactArithmetic (289 * 7430741) := by
  have negative : (itemOffset (BitVec.ofNat 32 7430740)).toInt = -2147483436 := by decide
  refine ⟨negative, fun exact => ?_⟩
  have inside := (exact.insideMapping 7430740 (by decide)).1
  rw [negative] at inside
  omega

/-! ## Records -/

theorem HexDigit.ne : ∀ a : Byte, HexDigit a → a ≠ 0 ∧ a ≠ 32 := by
  decide +kernel

theorem parseHexLoop_enough {rounds : Nat} {digits : List Byte} (enough : digits.length = 2 * rounds)
    (valid : ∀ a ∈ digits, HexDigit a) (rest dst : List Byte) :
    parseHexLoop rounds (digits ++ rest) dst =
        (((dst.length + rounds : Nat) : Int), dst ++ pairValues digits) ∧
      (parseHexWithin rounds (digits ++ rest) dst).isSome := by
  induction rounds generalizing digits dst with
  | zero =>
    obtain rfl : digits = [] := List.length_eq_zero_iff.mp enough
    exact ⟨by simp [parseHexLoop, pairValues], rfl⟩
  | succ rounds inductionHypothesis =>
    cases digits with
    | nil => simp at enough
    | cons a digits =>
      cases digits with
      | nil => simp at enough; omega
      | cons b digits =>
        have digitA : HexDigit a := valid a List.mem_cons_self
        have digitB : HexDigit b := valid b (by simp)
        -- a digit neither ends the string nor is skipped
        obtain ⟨nonzeroA, solidA⟩ := digitA.ne
        obtain ⟨nonzeroB, solidB⟩ := digitB.ne
        have invalid : ¬ (digit (a ||| 0x20) = 0x100 ∨ digit (b ||| 0x20) = 0x100) := by
          rw [digit_invalid_iff, digit_invalid_iff]
          exact fun invalid => invalid.elim (· digitA.passes) (· digitB.passes)
        rw [List.length_cons, List.length_cons] at enough
        have later := @inductionHypothesis digits (by omega)
          (fun c among => valid c (List.mem_cons_of_mem _ (List.mem_cons_of_mem _ among)))
          (dst ++ [hexValue a ++ hexValue b])
        rw [List.cons_append, List.cons_append, parseHexLoop, parseHexWithin]
        simp only [nextChar, nextCharWithin, if_neg solidA, if_neg solidB, if_neg nonzeroA,
          if_neg nonzeroB, if_neg invalid]
        rw [digit_hexDigit a digitA, digit_hexDigit b digitB, join_nibbles]
        refine ⟨?_, later.2⟩
        rw [later.1, pairValues, List.append_assoc, List.length_append, List.length_singleton,
          Nat.add_assoc, Nat.add_comm 1 rounds]
        rfl

theorem length_pairValues {digits : List Byte} {count : Nat} (length : digits.length = 2 * count) :
    (pairValues digits).length = count := by
  induction count generalizing digits with
  | zero =>
    obtain rfl : digits = [] := List.length_eq_zero_iff.mp length
    rfl
  | succ count inductionHypothesis =>
    match digits with
    | [] => simp at length
    | [a] => simp at length; omega
    | a :: b :: digits =>
      rw [List.length_cons, List.length_cons] at length
      rw [pairValues, List.length_cons, inductionHypothesis (by omega)]

theorem readItems_wellFormed {file : List Byte} {items i : Nat} (inside : i < items)
    (wellFormed : WellFormed (record file i)) :
    slice ((readItems file items).hashes i) 0 144 = pairValues ((record file i).take (144 * 2)) ∧
      (parseHexWithin 144 (record file i) []).isSome := by
  obtain ⟨valid, ended⟩ := wellFormed
  have behind : 0 < ((record file i).drop (144 * 2)).length := by
    rw [ended]
    exact Nat.one_pos
  have enough : ((record file i).take (144 * 2)).length = 2 * 144 := by
    rw [List.length_drop] at behind
    rw [List.length_take]
    omega
  -- what `parse_hex` is given is the digits of the record and all that follows them in the file
  have given : file.drop (i * lineSize) = (record file i).take (144 * 2) ++
      ((record file i).drop (144 * 2) ++ (file.drop (i * lineSize)).drop lineSize) := by
    rw [← List.append_assoc, List.take_append_drop, record, List.take_append_drop]
  constructor
  · have parsed := (parseHexLoop_enough enough valid
      ((record file i).drop (144 * 2) ++ (file.drop (i * lineSize)).drop lineSize) []).1
    simp only [readItems, if_pos inside, parseHex]
    rw [given, parsed, List.nil_append]
    exact slice_getD (length_pairValues enough)
  · have within := (parseHexLoop_enough enough valid ((record file i).drop (144 * 2)) []).2
    rwa [List.take_append_drop] at within

/-! ## Loading -/

section

variable {host : Host} {fname : String} {file : List Byte}

theorem errnoOr_ne_zero (errno : Nat) : errnoOr errno ≠ 0 := by
  rw [errnoOr]
  split
  next nonzero => exact nonzero
  next => decide

theorem mmdistLoad_refused (opens : host.openFile fname = .ok file)
    (whole : file.length % lineSize = 0) (refuses : host.Refuses file) :
    ∃ error, mmdistLoad host fname = .failed error ∧ error ≠ 0 := by
  rw [mmdistLoad, opens]
  simp only [whole, ne_eq, not_true_eq_false, if_false]
  cases mapped : host.mmap file.length with
  | error errno => exact ⟨errnoOr errno, rfl, errnoOr_ne_zero errno⟩
  | ok done =>
    obtain unmapped | ⟨inRange, exhausted⟩ := refuses
    · exact absurd mapped unmapped
    · simp only [inRange, exhausted, not_true_eq_false, if_false, Bool.false_eq_true]
      exact ⟨enomem, rfl, by decide⟩

/-- What `mmdist_load` does when neither `mmap` nor `calloc` fails. -/
theorem mmdistLoad_served (opens : host.openFile fname = .ok file)
    (whole : file.length % lineSize = 0) (serves : ¬ host.Refuses file) :
    mmdistLoad host fname =
      if ¬ InInt (144 * (itemCount file.length).toInt) then .overflow
      else if ¬ InInt (((itemCount file.length).toInt.toNat - 1 : Nat) * lineSize) then .overflow
      else .loaded (readItems file (itemCount file.length).toInt.toNat) := by
  rw [Host.Refuses, not_or, not_and] at serves
  obtain ⟨maps, allocates⟩ := serves
  rw [mmdistLoad, opens]
  simp only [whole, ne_eq, not_true_eq_false, if_false]
  rw [not_not.mp maps]
  simp only
  by_cases inRange : InInt (144 * (itemCount file.length).toInt)
  · rw [if_neg (not_not_intro inRange), if_neg (not_not_intro inRange),
      if_pos (Bool.eq_true_of_not_eq_false (allocates inRange))]
  · rw [if_pos inRange, if_pos inRange]

/-- A file of whole records is rejected or loaded faithfully if and only if `mmap` or `calloc` fails,
or the offsets of the records are `int`s and every record is well-formed. -/
theorem rejectsMalformed_iff (opens : host.openFile fname = .ok file) (positive : 0 < file.length)
    (whole : file.length % lineSize = 0) :
    RejectsMalformed host fname file ↔ host.Refuses file ∨
      file.length / lineSize ≤ 7430740 ∧
        ∀ i < file.length / lineSize, WellFormed (record file i) := by
  have records : 0 < file.length / lineSize := by
    rw [lineSize] at whole ⊢
    omega
  by_cases refuses : host.Refuses file
  · exact iff_of_true (.inl (mmdistLoad_refused opens whole refuses)) (.inl refuses)
  have served := mmdistLoad_served opens whole refuses
  constructor
  · rintro (⟨error, failed, -⟩ | ⟨state, loaded, faithful⟩)
    · rw [served] at failed
      split at failed
      · cases failed
      · split at failed <;> cases failed
    · refine .inr ⟨?_, faithful.wellFormed⟩
      rw [served] at loaded
      split at loaded
      · cases loaded
      · split at loaded
        · cases loaded
        next inRange =>
          -- all records are there, so the number of items is the number of records
          cases loaded
          have items : (itemCount file.length).toInt.toNat = file.length / lineSize :=
            faithful.items
          rw [items, not_not, InInt] at inRange
          have last := inRange.2
          rw [lineSize] at last ⊢
          omega
  · rintro (refused | ⟨few, wellFormed⟩)
    · exact absurd refused refuses
    · have count : (itemCount file.length).toInt = (file.length / lineSize : Nat) :=
        itemCount_toInt (by omega)
      have sizeInRange : InInt (144 * ((file.length / lineSize : Nat) : Int)) := by
        rw [InInt]
        omega
      have offsetsInRange : InInt ((file.length / lineSize - 1 : Nat) * lineSize) := by
        rw [InInt]
        rw [lineSize] at few ⊢
        omega
      rw [count, Int.toNat_natCast, if_neg (not_not_intro sizeInRange),
        if_neg (not_not_intro offsetsInRange)] at served
      refine .inr ⟨_, served, rfl, wellFormed, fun i inside => ?_, fun i inside => ?_⟩
      · exact (readItems_wellFormed inside (wellFormed i inside)).1
      · exact (readItems_wellFormed inside (wellFormed i inside)).2

end

theorem hostOf_serves_all {file : List Byte} (positive : 0 < file.length) :
    ¬ (hostOf file).Refuses file := by
  rintro (unmapped | ⟨-, exhausted⟩)
  · exact unmapped (if_neg (Nat.ne_of_gt positive))
  · cases exhausted

theorem hexDigit_hex : ∀ nibble : Byte, nibble < 16 → HexDigit (hex nibble) := by
  decide +kernel

/-- A file that `generate.c` printed has well-formed records only. -/
theorem wellFormed_databaseFile {vectors : List (List Byte)}
    (sizes : ∀ vector ∈ vectors, vector.length = 144) {i : Nat} (inside : i < vectors.length) :
    WellFormed (record (databaseFile vectors) i) := by
  obtain ⟨rest, found⟩ := drop_databaseFile sizes inside
  have digits : (vectors[i].flatMap hexPair).length = 144 * 2 := by
    rw [length_digits, sizes _ (List.getElem_mem inside), Nat.mul_comm]
  have whole : record (databaseFile vectors) i = vectors[i].flatMap hexPair ++ [newline] := by
    rw [record, found, lineSize, ← digits, List.take_length_add_append]
    rfl
  rw [whole, WellFormed, List.take_left' digits, List.drop_left' digits]
  refine ⟨fun a among => ?_, rfl⟩
  obtain ⟨b, -, inPair⟩ := List.mem_flatMap.mp among
  obtain ⟨high, low, -⟩ := nibbles b
  simp only [hexPair, List.mem_cons, List.not_mem_nil, or_false] at inPair
  obtain rfl | rfl := inPair
  · exact hexDigit_hex _ high
  · exact hexDigit_hex _ low

/-- The file of two vectors. -/
theorem rejectsMalformed_iff_two :
    RejectsMalformed (hostOf (databaseFile twoVectors)) "database.txt" (databaseFile twoVectors) := by
  have length : (databaseFile twoVectors).length = 578 := length_databaseFile twoVectors_sizes
  have records : (databaseFile twoVectors).length / lineSize = 2 := by rw [length]; decide
  refine (rejectsMalformed_iff rfl (by rw [length]; decide) (by rw [length]; decide)).mpr (.inr ?_)
  rw [records]
  exact ⟨by decide, fun i inside => wellFormed_databaseFile twoVectors_sizes inside⟩

theorem mmdistLoad_one {file : List Byte} (length : file.length = lineSize) :
    mmdistLoad (hostOf file) fname = .loaded (readItems file 1) := by
  have positive : 0 < file.length := by rw [length]; decide
  rw [mmdistLoad_served rfl (by rw [length]; decide) (hostOf_serves_all positive), length,
    if_neg (by decide), if_neg (by decide)]
  rfl

/-- A record of 289 times `z` is loaded as a hash of zeros. -/
theorem malformed_loaded :
    (∃ state, mmdistLoad (hostOf (List.replicate 289 122)) "database.txt" = .loaded state ∧
      state.items = 1 ∧ slice (state.hashes 0) 0 144 = List.replicate 144 0) ∧
    ¬ RejectsMalformed (hostOf (List.replicate 289 122)) "database.txt" (List.replicate 289 122) := by
  have length : (List.replicate 289 (122 : Byte)).length = lineSize := List.length_replicate
  have loaded : mmdistLoad (hostOf (List.replicate 289 122)) "database.txt" =
      .loaded (readItems (List.replicate 289 122) 1) := mmdistLoad_one length
  have nothing : (parseHex (List.replicate 289 122) 144).2 = [] := by decide +kernel
  have zeros : slice ((readItems (List.replicate 289 122) 1).hashes 0) 0 144 =
      slice (fun _ => 0) 0 144 := by
    apply slice_congr
    intro k _
    rw [readItems]
    simp only [Nat.zero_mul, List.drop_zero, nothing, List.getD_nil, ite_self]
  refine ⟨⟨_, loaded, rfl, zeros.trans (by decide +kernel)⟩, ?_⟩
  rintro (⟨error, failed, -⟩ | ⟨state, same, faithful⟩)
  · rw [loaded] at failed
    cases failed
  · have wellFormed := faithful.wellFormed 0 (by rw [length]; decide)
    have first : (122 : Byte) ∈ (record (List.replicate 289 122) 0).take (144 * 2) := by
      rw [record, Nat.zero_mul, List.drop_zero, ← length, List.take_length, List.take_replicate]
      exact List.mem_replicate.mpr ⟨by decide, rfl⟩
    exact absurd (wellFormed.1 122 first) (by decide)

end CloudflareBlog.Mmdist
