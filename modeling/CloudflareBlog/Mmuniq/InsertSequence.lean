import CloudflareBlog.Mmuniq.HashTable

/-!
# `hash_insert` as a set

A sequence of calls of `hash_insert` from a table of zeros on.  The table is the one that
`LinearProbing` builds by insertions (`tableAfter_eq`), hence consistent, and the answers of
`hash_insert` are those of a set: 1 for a hash that is put in, 0 for one that was put in before.  Nothing
is asked of the size of the table, so a window of probes may wrap around it any number of times.
-/

namespace CloudflareBlog.Mmuniq

open CloudflareBlog.Lib.LinearProbing

/-- The table after calls of `hash_insert` on these hashes. -/
def tableAfter (sizeMask : SizeMask) (hashes : List (BitVec 64)) : Slots :=
  hashes.foldl (fun bm h => (hashInsert h bm sizeMask.mask).2) fun _ => 0

/-- What `hash_insert` returns for `h` after calls on these hashes. -/
def missAfter (sizeMask : SizeMask) (hashes : List (BitVec 64)) (h : BitVec 64) : Int :=
  (hashInsert h (tableAfter sizeMask hashes) sizeMask.mask).1

section

variable {sizeMask : SizeMask}

theorem tableAfter_eq (hashes : List (BitVec 64)) :
    tableAfter sizeMask hashes = (scheme sizeMask).insertAll hashes := by
  simp only [tableAfter, snd_hashInsert]
  rfl

theorem missAfter_eq_one {hashes : List (BitVec 64)} {h : BitVec 64} :
    missAfter sizeMask hashes h = 1 ↔
      ∃ slot, (scheme sizeMask).find ((scheme sizeMask).insertAll hashes) h = .free slot := by
  rw [missAfter, tableAfter_eq, hashInsert_eq_one]

theorem scheme_size_pos : 0 < (scheme sizeMask).size := Nat.succ_pos _

theorem missAfter_eq_zero {hashes : List (BitVec 64)} {h : BitVec 64} (nonzero : h ≠ 0) :
    missAfter sizeMask hashes h = 0 ↔
      ∃ before after, hashes = before ++ h :: after ∧ missAfter sizeMask before h = 1 := by
  rw [missAfter, tableAfter_eq, hashInsert_eq_zero,
    Scheme.holds_insertAll_iff scheme_size_pos nonzero]
  simp only [missAfter_eq_one]

/-- The answer 1 is for a hash that is nowhere in the table, and fills one free slot with it. -/
theorem hashInsert_fills {bm : Slots} {h : BitVec 64} (consistent : (scheme sizeMask).Consistent bm)
    (nonzero : h ≠ 0) (new : (hashInsert h bm sizeMask.mask).1 = 1) :
    (∃ slot < sizeMask.mask.toNat + 1, bm slot = 0 ∧
        (hashInsert h bm sizeMask.mask).2 = Function.update bm slot h) ∧
      ∀ slot < sizeMask.mask.toNat + 1, bm slot ≠ h := by
  obtain ⟨slot, found⟩ := hashInsert_eq_one.mp new
  constructor
  · refine ⟨slot, probe_free_lt scheme_size_pos found, slot_of_probe_free found, ?_⟩
    rw [hashInsert_eq, found, conclude]
  · intro other inside there
    have held := consistent other inside (by rw [there]; exact nonzero)
    rw [there, found] at held
    cases held

theorem hashInsert_keeps {bm : Slots} {h : BitVec 64}
    (old : (hashInsert h bm sizeMask.mask).1 = 0 ∨ (hashInsert h bm sizeMask.mask).1 = -1) :
    (hashInsert h bm sizeMask.mask).2 = bm := by
  rw [hashInsert_eq] at old ⊢
  cases search : (scheme sizeMask).find bm h with
  | free slot => simp [search, conclude] at old
  | held _ | exhausted => rfl

end

/-- Every call of a sequence answers as a set would, and no hash is ever in two slots. -/
theorem hashInsert_set (sizeMask : SizeMask) (hashes : List (BitVec 64))
    (nonzero : ∀ h ∈ hashes, h ≠ 0) :
    (∀ before h after, hashes = before ++ h :: after →
      let bm := tableAfter sizeMask before
      let call := hashInsert h bm sizeMask.mask
      (call.1 = 0 ↔ ∃ earlier between, before = earlier ++ h :: between ∧
        missAfter sizeMask earlier h = 1) ∧
      (call.1 = 1 →
        (∃ slot < sizeMask.mask.toNat + 1, bm slot = 0 ∧ call.2 = Function.update bm slot h) ∧
          ∀ slot < sizeMask.mask.toNat + 1, bm slot ≠ h) ∧
      (call.1 = 0 ∨ call.1 = -1 → call.2 = bm)) ∧
    ∀ before, before <+: hashes → ∀ slot other, slot < sizeMask.mask.toNat + 1 →
      other < sizeMask.mask.toNat + 1 → tableAfter sizeMask before slot ≠ 0 →
      tableAfter sizeMask before slot = tableAfter sizeMask before other → slot = other := by
  constructor
  · intro before h after split bm call
    have nonzeroHash : h ≠ 0 := nonzero h (by rw [split]; simp)
    have consistent : (scheme sizeMask).Consistent bm := by
      simp only [bm, tableAfter_eq]
      exact (scheme sizeMask).consistent_insertAll before
    exact ⟨missAfter_eq_zero nonzeroHash, hashInsert_fills consistent nonzeroHash, hashInsert_keeps⟩
  · intro before _ slot other inside insideOther occupied same
    simp only [tableAfter_eq] at occupied same
    exact ((scheme sizeMask).consistent_insertAll before).injective inside insideOther same occupied

/-- A table of one slot, around which every window wraps: 5 is put in, and found. -/
theorem hashInsert_set_one_slot :
    missAfter ⟨0, 0, rfl⟩ [5] 5 = 0 ∧
      tableAfter ⟨0, 0, rfl⟩ [5, 5] = tableAfter ⟨0, 0, rfl⟩ [5] := by
  have first : missAfter ⟨0, 0, rfl⟩ [] 5 = 1 := by decide +kernel
  obtain ⟨known, -, keeps⟩ := (hashInsert_set ⟨0, 0, rfl⟩ [5, 5] (by simp)).1 [5] 5 [] rfl
  have second : missAfter ⟨0, 0, rfl⟩ [5] 5 = 0 := known.mpr ⟨[], [], rfl, first⟩
  exact ⟨second, keeps (.inl second)⟩

end CloudflareBlog.Mmuniq
