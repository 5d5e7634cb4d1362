import CloudflareBlog.Mmdist.Exact

/-!
# Prefixes of the hashes

Before they search, `mmdist-short-avx2` copies the first bytes of every hash into an array of their
own, and the programs with `inv` in their name shuffle them: blocks of sixteen hashes are transposed,
so that the bytes at one position of all sixteen stand side by side.
-/

namespace CloudflareBlog.Mmdist

open CloudflareBlog.Lib.Buffer

/-! ## Copying -/

/-- `shorth` of `mmdist-short-avx2.c` after some rounds, with rows of `MIXER_SIZE` bytes. -/
def copyPrefixes (state : Database) (mixerSize : Nat) : Nat → Nat → Byte
  | 0 => fun _ => 0
  | i + 1 => store (copyPrefixes state mixerSize i) (i * mixerSize) (slice (state.hashes i) 0 mixerSize)

theorem copyPrefixes_row (state : Database) (mixerSize : Nat) {i k count : Nat} (copied : i < count)
    (inside : k < mixerSize) :
    copyPrefixes state mixerSize count (i * mixerSize + k) = state.hashes i k := by
  induction count with
  | zero => omega
  | succ count inductionHypothesis =>
    rw [copyPrefixes, store]
    obtain earlier | rfl := Nat.lt_succ_iff_lt_or_eq.mp copied
    · have before : i * mixerSize + k < count * mixerSize := by
        have row : (i + 1) * mixerSize ≤ count * mixerSize := Nat.mul_le_mul_right _ earlier
        rw [Nat.succ_mul] at row
        omega
      rw [if_neg (Nat.not_le.mpr before)]
      exact inductionHypothesis earlier
    · rw [if_pos (Nat.le_add_right _ _), Nat.add_sub_cancel_left, List.getD_eq_getElem?_getD,
        List.getElem?_eq_getElem (by simpa using inside), getElem_slice, Nat.zero_add]
      rfl

/-! ## Shuffling -/

/-- `MIXER_SIZE` of the programs that shuffle. -/
def mixerSize : Nat := 24

def laneSize : Nat := 16

/-- The loop over `k`: one hash becomes a column. -/
def shuffleHash (sv : Nat → Byte) (b j : Nat) (c : Nat → Byte) : Nat → Nat → Byte
  | 0 => sv
  | k + 1 => Function.update (shuffleHash sv b j c k) (b + (k * laneSize + j)) (c k)

/-- The loop over `j`: the hashes of a block. -/
def shuffleBlock (state : Database) (sv : Nat → Byte) (i : Nat) : Nat → Nat → Byte
  | 0 => sv
  | j + 1 =>
    shuffleHash (shuffleBlock state sv i j) (i * mixerSize) j (state.hashes (i + j)) mixerSize

/-- `sv` after some blocks. -/
def shuffle (state : Database) : Nat → Nat → Byte
  | 0 => fun _ => 0
  | block + 1 => shuffleBlock state (shuffle state block) (block * laneSize) laneSize

theorem shuffleHash_column (sv : Nat → Byte) (b j : Nat) (c : Nat → Byte) {k count : Nat}
    (written : k < count) : shuffleHash sv b j c count (b + (k * laneSize + j)) = c k := by
  induction count with
  | zero => omega
  | succ count inductionHypothesis =>
    rw [shuffleHash]
    obtain earlier | rfl := Nat.lt_succ_iff_lt_or_eq.mp written
    · rw [Function.update_of_ne (by simp only [laneSize]; omega)]
      exact inductionHypothesis earlier
    · rw [Function.update_self]

theorem shuffleHash_other (sv : Nat → Byte) (b j : Nat) (c : Nat → Byte) {address count : Nat}
    (other : ∀ k < count, address ≠ b + (k * laneSize + j)) :
    shuffleHash sv b j c count address = sv address := by
  induction count with
  | zero => rfl
  | succ count inductionHypothesis =>
    rw [shuffleHash, Function.update_of_ne (other count (Nat.lt_succ_self _))]
    exact inductionHypothesis fun k before => other k (Nat.lt_succ_of_lt before)

theorem shuffleBlock_entry (state : Database) (sv : Nat → Byte) (i : Nat) {j k count : Nat}
    (written : j < count) (narrow : count ≤ laneSize) (inside : k < mixerSize) :
    shuffleBlock state sv i count (i * mixerSize + (k * laneSize + j)) = state.hashes (i + j) k := by
  induction count with
  | zero => omega
  | succ count inductionHypothesis =>
    rw [shuffleBlock]
    obtain earlier | rfl := Nat.lt_succ_iff_lt_or_eq.mp written
    · rw [shuffleHash_other]
      · exact inductionHypothesis earlier (by omega)
      · intro k' _
        simp only [laneSize] at narrow ⊢
        omega
    · exact shuffleHash_column _ _ _ _ inside

theorem shuffleBlock_before (state : Database) (sv : Nat → Byte) (i : Nat) {address count : Nat}
    (before : address < i * mixerSize) : shuffleBlock state sv i count address = sv address := by
  induction count with
  | zero => rfl
  | succ count inductionHypothesis =>
    rw [shuffleBlock, shuffleHash_other _ _ _ _ fun k _ => by omega]
    exact inductionHypothesis

theorem shuffle_entry (state : Database) {block j k blocks : Nat} (written : block < blocks)
    (lane : j < laneSize) (inside : k < mixerSize) :
    shuffle state blocks (block * laneSize * mixerSize + (k * laneSize + j)) =
      state.hashes (block * laneSize + j) k := by
  induction blocks with
  | zero => omega
  | succ blocks inductionHypothesis =>
    rw [shuffle]
    obtain earlier | rfl := Nat.lt_succ_iff_lt_or_eq.mp written
    · rw [shuffleBlock_before]
      · exact inductionHypothesis earlier
      · simp only [laneSize, mixerSize] at lane inside ⊢
        omega
    · exact shuffleBlock_entry state _ _ lane (Nat.le_refl _) inside

end CloudflareBlog.Mmdist
