import Mathlib.Data.BitVec
import CloudflareBlog.Lib.LinearProbing

/-!
# The hash table of `mmuniq.c`

`hash_insert` probes at most `OVERFLOW_AFTER` slots from the hash on, modulo the size of the table,
with 0 as the free slot.  Its loop runs from `h` to `h + OVERFLOW_AFTER` in 64 bits, so it does not
run at all when that sum wraps around (`tries`).  Within these tries it is the insertion of
`LinearProbing` (`hashInsert_eq`).

`rehash` is the copying loop of a resize.  It takes the slots below `global_size_mask`, which leaves
out the last one; what it has passed is found in the new table if no insertion overflowed
(`rehash_holds`).
-/

namespace CloudflareBlog.Mmuniq

open CloudflareBlog.Lib.LinearProbing

def overflowAfter : BitVec 64 := 4096#64

abbrev Slots := Nat → BitVec 64

/-- A mask as `main` makes it: one less than a power of two. -/
structure SizeMask where
  mask : BitVec 64
  power : ∃ bits, mask.toNat + 1 = 2 ^ bits

/-- `((global_size_mask + 1) * 2) - 1`. -/
def SizeMask.double (sizeMask : SizeMask) : SizeMask where
  mask := (sizeMask.mask + 1) * 2 - 1
  power := by
    obtain ⟨bits, power⟩ := sizeMask.power
    have bound := sizeMask.mask.isLt
    obtain small | full := Nat.lt_or_ge bits 64
    · refine ⟨bits + 1, ?_⟩
      have divides : (2 : Nat) ^ (bits + 1) ∣ 2 ^ 64 := Nat.pow_dvd_pow 2 (by omega)
      have step : (2 : Nat) ^ (bits + 1) = 2 * 2 ^ bits := by rw [Nat.pow_succ]; omega
      have positive : 0 < (2 : Nat) ^ bits := Nat.two_pow_pos bits
      have small' := Nat.le_of_dvd (by decide) divides
      simp only [BitVec.ofNat_eq_ofNat, BitVec.toNat_sub, BitVec.toNat_mul, BitVec.toNat_add,
        BitVec.toNat_ofNat]
      omega
    · refine ⟨64, ?_⟩
      have large : (2 : Nat) ^ 64 ≤ 2 ^ bits := Nat.pow_le_pow_right (by decide) full
      simp only [BitVec.ofNat_eq_ofNat, BitVec.toNat_sub, BitVec.toNat_mul, BitVec.toNat_add,
        BitVec.toNat_ofNat]
      omega

/-- The `for` loop of `hash_insert` from `i` on: `miss` and the table.  `rounds` bounds the number
of rounds. -/
def insertLoop (h : BitVec 64) (bm : Slots) (sizeMask : BitVec 64) :
    Nat → BitVec 64 → Int × Slots
  | 0, _ => (-1, bm)
  | rounds + 1, i =>
    if i < h + overflowAfter then
      let v := (i &&& sizeMask).toNat
      if bm v = 0 then (1, Function.update bm v h)
      else if bm v = h then (0, bm)
      else insertLoop h bm sizeMask rounds (i + 1)
    else (-1, bm)

/-- `hash_insert`: `miss` and the table.  The callers count `overflow_count`. -/
@[irreducible] def hashInsert (h : BitVec 64) (bm : Slots) (sizeMask : BitVec 64) : Int × Slots :=
  insertLoop h bm sizeMask overflowAfter.toNat h

/-! ## `hash_insert` is an insertion with linear probing -/

/-- The number of slots `hash_insert` looks at before it gives up. -/
def tries (h : BitVec 64) : Nat := if h < h + overflowAfter then overflowAfter.toNat else 0

theorem lt_add_overflowAfter (h : BitVec 64) :
    h < h + overflowAfter ↔ h.toNat + 4096 < 2 ^ 64 := by
  have := h.isLt
  rw [BitVec.lt_def, overflowAfter, BitVec.toNat_add, BitVec.toNat_ofNat]
  omega

def scheme (sizeMask : SizeMask) : Scheme (BitVec 64) where
  empty := 0
  size := sizeMask.mask.toNat + 1
  home := BitVec.toNat
  tries := tries

theorem and_mask (sizeMask : SizeMask) (i : BitVec 64) :
    (i &&& sizeMask.mask).toNat = i.toNat % (sizeMask.mask.toNat + 1) := by
  obtain ⟨bits, power⟩ := sizeMask.power
  rw [BitVec.toNat_and, power, ← Nat.and_two_pow_sub_one_eq_mod]
  congr 1
  omega

/-- What `hash_insert` makes of the end of a search. -/
def conclude (h : BitVec 64) (bm : Slots) : Answer → Int × Slots
  | .free slot => (1, Function.update bm slot h)
  | .held _ => (0, bm)
  | .exhausted => (-1, bm)

theorem insertLoop_eq (h : BitVec 64) (bm : Slots) (sizeMask : SizeMask) (rounds passed : Nat)
    (total : rounds + passed = 4096) (fits : h.toNat + 4096 < 2 ^ 64) :
    insertLoop h bm sizeMask.mask rounds (h + BitVec.ofNat 64 passed) =
      conclude h bm (probe bm (sizeMask.mask.toNat + 1) 0 h (h.toNat + passed) rounds) := by
  induction rounds generalizing passed with
  | zero => rfl
  | succ rounds inductionHypothesis =>
    have position : (h + BitVec.ofNat 64 passed).toNat = h.toNat + passed := by
      rw [BitVec.toNat_add, BitVec.toNat_ofNat]
      omega
    have below : h + BitVec.ofNat 64 passed < h + overflowAfter := by
      rw [BitVec.lt_def, position, overflowAfter, BitVec.toNat_add, BitVec.toNat_ofNat]
      omega
    have next := inductionHypothesis (passed + 1) (by omega)
    rw [BitVec.ofNat_add, ← BitVec.add_assoc] at next
    rw [insertLoop, if_pos below, probe]
    simp only [and_mask, position]
    by_cases free : bm ((h.toNat + passed) % (sizeMask.mask.toNat + 1)) = 0
    · simp only [free, if_true, conclude]
    · by_cases here : bm ((h.toNat + passed) % (sizeMask.mask.toNat + 1)) = h
      · rw [if_neg free, if_pos here, if_neg free, if_pos here, conclude]
      · rw [if_neg free, if_neg here, if_neg free, if_neg here]
        exact next

theorem hashInsert_eq (h : BitVec 64) (bm : Slots) (sizeMask : SizeMask) :
    hashInsert h bm sizeMask.mask = conclude h bm ((scheme sizeMask).find bm h) := by
  have search : (scheme sizeMask).find bm h =
      probe bm (sizeMask.mask.toNat + 1) 0 h h.toNat (tries h) := by
    simp only [Scheme.find, scheme]
  unfold hashInsert
  rw [search, tries]
  by_cases runs : h < h + overflowAfter
  · have loop := insertLoop_eq h bm sizeMask overflowAfter.toNat 0 (by simp [overflowAfter])
      ((lt_add_overflowAfter h).mp runs)
    rw [BitVec.add_zero] at loop
    rw [if_pos runs, loop, Nat.add_zero h.toNat]
  · rw [if_neg runs, show overflowAfter.toNat = 4095 + 1 from rfl, insertLoop, if_neg runs, probe,
      conclude]

theorem snd_hashInsert (h : BitVec 64) (bm : Slots) (sizeMask : SizeMask) :
    (hashInsert h bm sizeMask.mask).2 = (scheme sizeMask).insert bm h := by
  rw [hashInsert_eq, Scheme.insert]
  cases (scheme sizeMask).find bm h <;> rfl

/-- The three answers of `hash_insert`, in terms of the search. -/
theorem hashInsert_eq_zero {h : BitVec 64} {bm : Slots} {sizeMask : SizeMask} :
    (hashInsert h bm sizeMask.mask).1 = 0 ↔ (scheme sizeMask).Holds bm h := by
  rw [hashInsert_eq, Scheme.Holds]
  cases (scheme sizeMask).find bm h <;> simp [conclude]

theorem hashInsert_eq_neg_one {h : BitVec 64} {bm : Slots} {sizeMask : SizeMask} :
    (hashInsert h bm sizeMask.mask).1 = -1 ↔ (scheme sizeMask).find bm h = .exhausted := by
  rw [hashInsert_eq]
  cases (scheme sizeMask).find bm h <;> simp [conclude]

theorem hashInsert_eq_one {h : BitVec 64} {bm : Slots} {sizeMask : SizeMask} :
    (hashInsert h bm sizeMask.mask).1 = 1 ↔ ∃ slot, (scheme sizeMask).find bm h = .free slot := by
  rw [hashInsert_eq]
  cases (scheme sizeMask).find bm h <;> simp [conclude]

/-! ## Copying into a larger table -/

/-- The first `count` rounds of the copying loop: the new table, and how often `hash_insert`
returned -1. -/
def rehash (bm : Slots) (sizeMaskNew : BitVec 64) : Nat → Slots × Nat
  | 0 => (fun _ => 0, 0)
  | j + 1 =>
    let copied := rehash bm sizeMaskNew j
    let h := bm j
    if h = 0 then copied
    else
      let inserted := hashInsert h copied.1 sizeMaskNew
      (inserted.2, if inserted.1 = -1 then copied.2 + 1 else copied.2)

theorem rehash_overflow_mono (bm : Slots) (sizeMaskNew : BitVec 64) (j : Nat) :
    (rehash bm sizeMaskNew j).2 ≤ (rehash bm sizeMaskNew (j + 1)).2 := by
  rw [rehash]
  split
  · exact Nat.le_refl _
  · dsimp only
    split <;> omega

/-- Without an overflow, every hash the loop has passed is found in the new table. -/
theorem rehash_holds (bm : Slots) (sizeMaskNew : SizeMask) (count : Nat)
    (quiet : (rehash bm sizeMaskNew.mask count).2 = 0) (slot : Nat) (below : slot < count)
    (occupied : bm slot ≠ 0) :
    (scheme sizeMaskNew).Holds (rehash bm sizeMaskNew.mask count).1 (bm slot) := by
  induction count with
  | zero => omega
  | succ count inductionHypothesis =>
    have quietBefore : (rehash bm sizeMaskNew.mask count).2 = 0 := by
      have := rehash_overflow_mono bm sizeMaskNew.mask count
      omega
    by_cases empty : bm count = 0
    · rw [rehash, if_pos empty]
      have other : slot ≠ count := by rintro rfl; exact occupied empty
      exact inductionHypothesis quietBefore (by omega)
    · rw [rehash, if_neg empty] at quiet ⊢
      simp only [snd_hashInsert] at quiet ⊢
      obtain rfl | earlier := Nat.eq_or_lt_of_le (Nat.le_of_lt_succ below)
      · refine Scheme.holds_insert empty fun exhausted => ?_
        rw [if_pos (hashInsert_eq_neg_one.mpr exhausted)] at quiet
        omega
      · exact (inductionHypothesis quietBefore earlier).insert _

/-- The new table holds nothing but hashes of the old one. -/
theorem rehash_slot (bm : Slots) (sizeMaskNew : SizeMask) (count slot : Nat) :
    (rehash bm sizeMaskNew.mask count).1 slot = 0 ∨
      ∃ old < count, (rehash bm sizeMaskNew.mask count).1 slot = bm old := by
  induction count with
  | zero => exact .inl rfl
  | succ count inductionHypothesis =>
    have before : (rehash bm sizeMaskNew.mask count).1 slot = 0 ∨
        ∃ old < count + 1, (rehash bm sizeMaskNew.mask count).1 slot = bm old :=
      inductionHypothesis.imp_right fun ⟨old, below, same⟩ => ⟨old, by omega, same⟩
    rw [rehash]
    split
    · exact before
    · simp only [snd_hashInsert]
      obtain kept | ⟨written, -⟩ := Scheme.insert_slot (scheme sizeMaskNew)
        (rehash bm sizeMaskNew.mask count).1 (bm count) slot
      · rw [kept]
        exact before
      · exact .inr ⟨count, by omega, written⟩

end CloudflareBlog.Mmuniq
