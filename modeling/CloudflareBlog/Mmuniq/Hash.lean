import CloudflareBlog.Mmuniq.Program
import CloudflareBlog.Mmuniq.ReadLoop

/-!
# The table of `mmuniq-hash.c`

`process_line` has the loop of `hash_insert` in it, with a count of the occupied slots it passes
(`probeLoop_eq`), and takes a refused line for a duplicate.

In both programs the loop runs from `h` to `h + 4096` in 64 bits.  For the hashes from `2^64 - 4096`
on the bound wraps around and the loop does not run at all: the line is refused without a look at the
table.  Everywhere else a refusal means that every slot of the window holds another hash
(`overflow_genuine_iff`).
-/

namespace CloudflareBlog.Mmuniq

open CloudflareBlog.Lib.Buffer CloudflareBlog.Lib.LinearProbing

namespace Hash

/-- `k0` and `k1` of the source. -/
def k0 : BitVec 64 := 0xdeadbeeffadebabe#64

def k1 : BitVec 64 := 0xdeadbeeffadebabe#64

/-- The options and tables of a run, and the hash function. -/
structure Env where
  siphash24 : (s : List Byte) → (k0 k1 : BitVec 64) → BitVec 64
  globalSizeMask : SizeMask
  /-- `-D`: print the repeated lines. -/
  globalRepeated : Bool

/-- What `process_line` changes; `stdout` is what was printed so far. -/
structure Globals where
  bm : Slots
  overflowCount : Nat
  hashConflicts : Nat
  lineCount : Nat
  stdout : List Byte

/-- The `for` loop from `i` on: `miss`, the table and `hash_conflicts`.  `rounds` bounds the number of
rounds. -/
def probeLoop (h : BitVec 64) (bm : Slots) (globalSizeMask : BitVec 64) :
    Nat → BitVec 64 → Nat → Int × Slots × Nat
  | 0, _, hashConflicts => (-1, bm, hashConflicts)
  | rounds + 1, i, hashConflicts =>
    if i < h + 4096#64 then
      let v := (i &&& globalSizeMask).toNat
      if bm v = 0 then (1, Function.update bm v h, hashConflicts)
      else if bm v = h then (0, bm, hashConflicts)
      else probeLoop h bm globalSizeMask rounds (i + 1) (hashConflicts + 1)
    else (-1, bm, hashConflicts)

def processLine (env : Env) (s : List Byte) (g : Globals) : Globals :=
  let h := env.siphash24 s k0 k1
  let probed := probeLoop h g.bm env.globalSizeMask.mask 4096 h g.hashConflicts
  let miss := if probed.1 = -1 then 0 else probed.1
  { bm := probed.2.1
    overflowCount := if probed.1 = -1 then g.overflowCount + 1 else g.overflowCount
    hashConflicts := probed.2.2
    lineCount := g.lineCount + 1
    stdout := if prints env.globalRepeated miss then g.stdout ++ s ++ [newline] else g.stdout }

theorem probeLoop_eq (h : BitVec 64) (bm : Slots) (globalSizeMask : BitVec 64) (rounds : Nat)
    (i : BitVec 64) (hashConflicts : Nat) :
    ((probeLoop h bm globalSizeMask rounds i hashConflicts).1,
      (probeLoop h bm globalSizeMask rounds i hashConflicts).2.1) =
      insertLoop h bm globalSizeMask rounds i := by
  induction rounds generalizing i hashConflicts with
  | zero => rfl
  | succ rounds inductionHypothesis =>
    rw [probeLoop, insertLoop, overflowAfter]
    by_cases runs : i < h + 4096#64
    · rw [if_pos runs, if_pos runs]
      dsimp only
      by_cases free : bm (i &&& globalSizeMask).toNat = 0
      · rw [if_pos free, if_pos free]
      · rw [if_neg free, if_neg free]
        by_cases here : bm (i &&& globalSizeMask).toNat = h
        · rw [if_pos here, if_pos here]
        · rw [if_neg here, if_neg here]
          exact inductionHypothesis (i + 1) (hashConflicts + 1)
    · rw [if_neg runs, if_neg runs]

theorem probeLoop_eq_hashInsert (h : BitVec 64) (bm : Slots) (globalSizeMask : BitVec 64)
    (hashConflicts : Nat) :
    ((probeLoop h bm globalSizeMask 4096 h hashConflicts).1,
      (probeLoop h bm globalSizeMask 4096 h hashConflicts).2.1) =
      hashInsert h bm globalSizeMask := by
  rw [probeLoop_eq]
  unfold hashInsert
  rw [show overflowAfter.toNat = 4096 from rfl]

theorem overflowCount_processLine (env : Env) (s : List Byte) (g : Globals) :
    (processLine env s g).overflowCount =
      if (hashInsert (env.siphash24 s k0 k1) g.bm env.globalSizeMask.mask).1 = -1 then
        g.overflowCount + 1
      else g.overflowCount := by
  simp only [processLine, ← probeLoop_eq_hashInsert _ _ _ g.hashConflicts]

end Hash

/-! ## When a refusal means a full window -/

/-- Every slot of the window of `h` holds a nonzero value different from `h`. -/
def WindowFull (sizeMask : SizeMask) (bm : Slots) (h : BitVec 64) : Prop :=
  ∀ d < 4096, bm ((h.toNat + d) % (sizeMask.mask.toNat + 1)) ≠ 0 ∧
    bm ((h.toNat + d) % (sizeMask.mask.toNat + 1)) ≠ h

/-- A hash is refused when its window is full, and when the end of its window wraps around. -/
theorem hashInsert_eq_neg_one_iff (h : BitVec 64) (bm : Slots) (sizeMask : SizeMask) :
    (hashInsert h bm sizeMask.mask).1 = -1 ↔
      ¬h.toNat + 4096 < 2 ^ 64 ∨ WindowFull sizeMask bm h := by
  rw [hashInsert_eq_neg_one, Scheme.find, probe_exhausted_iff]
  simp only [scheme, tries, lt_add_overflowAfter]
  by_cases fits : h.toNat + 4096 < 2 ^ 64
  · simp only [fits, if_true, not_true, false_or]
    rfl
  · simp only [fits, if_false, not_false_iff, true_or, iff_true]
    intro d impossible
    exact absurd impossible (Nat.not_lt_zero d)

theorem hashInsert_genuine_iff (h : BitVec 64) (bm : Slots) (sizeMask : SizeMask) :
    ((hashInsert h bm sizeMask.mask).1 = -1 → WindowFull sizeMask bm h) ↔
      h.toNat + 4096 < 2 ^ 64 ∨ WindowFull sizeMask bm h := by
  rw [hashInsert_eq_neg_one_iff, or_imp]
  constructor
  · rintro ⟨wraps, -⟩
    exact Decidable.or_iff_not_imp_left.mpr wraps
  · rintro (fits | full)
    · exact ⟨fun wraps => absurd fits wraps, id⟩
    · exact ⟨fun _ => full, id⟩

/-- In both programs, for every hash and every table: a refusal means a full window exactly if the end
of the window does not wrap around in 64 bits, or the window is full. -/
theorem overflow_genuine_iff (h : BitVec 64) (bm : Slots) (sizeMask : SizeMask) (env : Hash.Env)
    (s : List Byte) (g : Hash.Globals) :
    (((hashInsert h bm sizeMask.mask).1 = -1 → WindowFull sizeMask bm h) ↔
      h.toNat + 4096 < 2 ^ 64 ∨ WindowFull sizeMask bm h) ∧
    let lineHash := env.siphash24 s Hash.k0 Hash.k1
    ((Hash.processLine env s g).overflowCount ≠ g.overflowCount →
        WindowFull env.globalSizeMask g.bm lineHash) ↔
      lineHash.toNat + 4096 < 2 ^ 64 ∨ WindowFull env.globalSizeMask g.bm lineHash := by
  refine ⟨hashInsert_genuine_iff h bm sizeMask, ?_⟩
  intro lineHash
  have counted : (Hash.processLine env s g).overflowCount ≠ g.overflowCount ↔
      (hashInsert lineHash g.bm env.globalSizeMask.mask).1 = -1 := by
    rw [Hash.overflowCount_processLine]
    split
    next refused => simp [lineHash, refused]
    next taken => simp [lineHash, taken]
  rw [counted]
  exact hashInsert_genuine_iff lineHash g.bm env.globalSizeMask

/-- The largest hash is refused by an empty table, in both programs. -/
theorem empty_table_overflows :
    let h : BitVec 64 := BitVec.allOnes 64
    let env : Hash.Env := ⟨fun _ _ _ => h, ⟨3, 2, rfl⟩, false⟩
    let g : Hash.Globals := ⟨fun _ => 0, 0, 0, 0, []⟩
    (hashInsert h (fun _ => 0) 3).1 = -1 ∧ (Hash.processLine env [97] g).overflowCount = 1 ∧
      (Hash.processLine env [97] g).stdout = [] ∧ ¬WindowFull ⟨3, 2, rfl⟩ (fun _ => 0) h := by
  refine ⟨by decide +kernel, by decide +kernel, by decide +kernel, fun full => ?_⟩
  exact (full 0 (by decide)).1 rfl

end CloudflareBlog.Mmuniq
