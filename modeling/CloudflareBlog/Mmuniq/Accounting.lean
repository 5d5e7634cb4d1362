import CloudflareBlog.Mmuniq.Program

/-!
# The item count of `mmuniq.c`

`global_items` is counted up by `process_flush` from the answers of `hash_insert`, and compared with
the fill threshold of a table it never looks at.  It is the number of nonzero slots of that table as
long as no hash is 0 and no resize finds the last slot occupied (`items_count_iff`): inserting 0
makes no slot nonzero and is answered with 1 all the same, and the copying loop of a resize stops
before the last slot.

That the copying loop loses nothing else rests on the table being `Consistent`: no hash stands in
two slots, so every insertion into the new table ends at a free slot.
-/

namespace CloudflareBlog.Mmuniq

open CloudflareBlog.Lib.Buffer CloudflareBlog.Lib.LinearProbing

/-! ## Runs -/

/-- What happens to the table: `process_flush` on a line with a hash, or a resize. -/
inductive Action where
  | flush (line : List Byte) (h : BitVec 64)
  | resize

section

variable (env : Env)

/-- The resize, at whatever moment. -/
def resizeTable (g : Globals) : Globals :=
  let sizeMaskNew := g.globalSizeMask.double
  let copied := rehash g.globalBm sizeMaskNew.mask g.globalSizeMask.mask.toNat
  { g with
    globalBm := copied.1
    globalSizeMask := sizeMaskNew
    overflowCount := g.overflowCount + copied.2
    fillThreshold := env.fillThreshold sizeMaskNew
    resizes := g.resizes ++ [(g.globalBm, g.globalSizeMask)] }

def act (g : Globals) : Action → Globals
  | .flush line h => flush env line h g
  | .resize => resizeTable env g

def runActions (g : Globals) (actions : List Action) : Globals := actions.foldl (act env) g

end

def nonzeroSlots (g : Globals) : Nat :=
  (List.range (g.globalSizeMask.mask.toNat + 1)).countP fun slot => g.globalBm slot ≠ 0

/-- The count keeps up with an action: the hash is not 0, or the last slot of the table that is
copied is free. -/
def Accountable (g : Globals) : Action → Prop
  | .flush _ h => h ≠ 0
  | .resize => g.globalBm g.globalSizeMask.mask.toNat = 0

/-- It keeps up with every action of a run. -/
def AllAccountable (env : Env) : Globals → List Action → Prop
  | _, [] => True
  | g, action :: rest => Accountable g action ∧ AllAccountable env (act env g action) rest

/-! ## The table -/

theorem nonzeroSlots_eq (g : Globals) :
    nonzeroSlots g = (scheme g.globalSizeMask).occupied g.globalBm (scheme g.globalSizeMask).size :=
  rfl

theorem rehash_consistent (bm : Slots) (sizeMaskNew : SizeMask) (count : Nat) :
    (scheme sizeMaskNew).Consistent (rehash bm sizeMaskNew.mask count).1 := by
  induction count with
  | zero => exact fun slot _ occupied => absurd rfl occupied
  | succ count inductionHypothesis =>
    rw [rehash]
    split
    · exact inductionHypothesis
    · simp only [snd_hashInsert]
      exact inductionHypothesis.insert _

/-- The copying loop makes one slot occupied for each occupied slot it passes. -/
theorem rehash_occupied {bm : Slots} {sizeMask : SizeMask} (sizeMaskNew : SizeMask) {count : Nat}
    (consistent : (scheme sizeMask).Consistent bm) (inside : count ≤ (scheme sizeMask).size)
    (quiet : (rehash bm sizeMaskNew.mask count).2 = 0) :
    (scheme sizeMaskNew).occupied (rehash bm sizeMaskNew.mask count).1 (scheme sizeMaskNew).size =
      (scheme sizeMask).occupied bm count := by
  induction count with
  | zero => simp [Scheme.occupied, rehash, scheme]
  | succ count inductionHypothesis =>
    have quietBefore : (rehash bm sizeMaskNew.mask count).2 = 0 := by
      have := rehash_overflow_mono bm sizeMaskNew.mask count
      omega
    have before := inductionHypothesis (by omega) quietBefore
    rw [Scheme.occupied_succ]
    by_cases empty : bm count = 0
    · rw [rehash, if_pos empty, before, if_pos (by exact empty), Nat.add_zero]
    · rw [rehash, if_neg empty] at quiet ⊢
      simp only [snd_hashInsert] at quiet ⊢
      rw [if_neg (by exact empty)]
      cases search : (scheme sizeMaskNew).find (rehash bm sizeMaskNew.mask count).1 (bm count) with
      | free slot =>
        rw [Scheme.occupied_insert (Nat.zero_lt_succ _) empty search, before]
      | exhausted =>
        rw [if_pos (hashInsert_eq_neg_one.mpr search)] at quiet
        omega
      | held slot =>
        -- the hash would stand in an earlier slot of the old table as well
        obtain ⟨here, -⟩ := slot_of_probe_held search
        obtain free | ⟨old, earlier, same⟩ := rehash_slot bm sizeMaskNew count slot
        · exact absurd (here.symm.trans free) empty
        · have twice : bm old = bm count := same.symm.trans here
          have := consistent.injective (by omega) (by omega) twice (twice ▸ empty)
          omega

/-! ## One action -/

section

variable {env : Env} {g : Globals}

variable (env g) in
theorem overflowCount_le_act (action : Action) :
    g.overflowCount ≤ (act env g action).overflowCount := by
  cases action with
  | flush line h =>
    simp only [act, flush]
    split <;> omega
  | resize => exact Nat.le_add_right _ _

variable (env) in
theorem act_consistent (action : Action)
    (consistent : (scheme g.globalSizeMask).Consistent g.globalBm) :
    (scheme (act env g action).globalSizeMask).Consistent (act env g action).globalBm := by
  cases action with
  | flush line h =>
    simp only [act, flush, snd_hashInsert]
    exact consistent.insert h
  | resize => exact rehash_consistent _ _ _

/-- A flush counts an item for a slot it makes nonzero, and for the hash 0. -/
theorem flush_accounts_iff {line : List Byte} {h : BitVec 64}
    (quiet : (flush env line h g).overflowCount = g.overflowCount)
    (accounts : g.globalItems = nonzeroSlots g) :
    (flush env line h g).globalItems = nonzeroSlots (flush env line h g) ↔ h ≠ 0 := by
  have room : (hashInsert h g.globalBm g.globalSizeMask.mask).1 ≠ -1 := by
    intro failed
    simp only [flush, failed, if_true] at quiet
    omega
  rw [nonzeroSlots_eq] at accounts ⊢
  simp only [flush, snd_hashInsert]
  cases search : (scheme g.globalSizeMask).find g.globalBm h with
  | free slot =>
    rw [if_pos (hashInsert_eq_one.mpr ⟨slot, search⟩), accounts]
    -- the hash 0 takes a free slot and leaves it free, but it is counted
    by_cases zero : h = 0
    · subst zero
      have unchanged := (scheme g.globalSizeMask).insert_empty g.globalBm
      simp only [show (scheme g.globalSizeMask).empty = 0 from rfl] at unchanged
      rw [unchanged]
      exact iff_of_false (by omega) (not_not_intro rfl)
    · rw [Scheme.occupied_insert (Nat.zero_lt_succ _) zero search]
      exact iff_of_true rfl zero
  | held slot =>
    have held : (hashInsert h g.globalBm g.globalSizeMask.mask).1 = 0 :=
      hashInsert_eq_zero.mpr ⟨slot, search⟩
    have nonzero : h ≠ 0 := (slot_of_probe_held search).2
    rw [held, if_neg (by decide), accounts, Scheme.insert, search]
    exact iff_of_true rfl nonzero
  | exhausted => exact absurd (hashInsert_eq_neg_one.mpr search) room

/-- A resize keeps all slots but the last. -/
theorem resize_accounts_iff (consistent : (scheme g.globalSizeMask).Consistent g.globalBm)
    (quiet : (resizeTable env g).overflowCount = g.overflowCount)
    (accounts : g.globalItems = nonzeroSlots g) :
    (resizeTable env g).globalItems = nonzeroSlots (resizeTable env g) ↔
      g.globalBm g.globalSizeMask.mask.toNat = 0 := by
  have silent : (rehash g.globalBm g.globalSizeMask.double.mask
      g.globalSizeMask.mask.toNat).2 = 0 := by
    simp only [resizeTable] at quiet
    omega
  have copied := rehash_occupied g.globalSizeMask.double consistent (Nat.le_succ _) silent
  have whole := (scheme g.globalSizeMask).occupied_succ g.globalBm g.globalSizeMask.mask.toNat
  rw [nonzeroSlots_eq] at accounts ⊢
  simp only [resizeTable]
  rw [copied, accounts]
  -- the loop copies the slots below `size_mask`, one less than there are
  rw [show (scheme g.globalSizeMask).size = g.globalSizeMask.mask.toNat + 1 from rfl, whole]
  by_cases free : g.globalBm g.globalSizeMask.mask.toNat = 0
  · rw [if_pos (by exact free)]
    exact iff_of_true rfl free
  · rw [if_neg (by exact free)]
    exact iff_of_false (by omega) free

theorem act_accounts_iff (action : Action)
    (consistent : (scheme g.globalSizeMask).Consistent g.globalBm)
    (quiet : (act env g action).overflowCount = g.overflowCount)
    (accounts : g.globalItems = nonzeroSlots g) :
    (act env g action).globalItems = nonzeroSlots (act env g action) ↔ Accountable g action := by
  cases action with
  | flush line h => exact flush_accounts_iff quiet accounts
  | resize => exact resize_accounts_iff consistent quiet accounts

end

/-! ## Whole runs -/

theorem overflowCount_le_runActions (env : Env) (g : Globals) (actions : List Action) :
    g.overflowCount ≤ (runActions env g actions).overflowCount := by
  induction actions generalizing g with
  | nil => exact Nat.le_refl _
  | cons action actions inductionHypothesis =>
    exact Nat.le_trans (overflowCount_le_act env g action) (inductionHypothesis _)

theorem runActions_accounts_iff {env : Env} {g : Globals} {actions : List Action}
    (consistent : (scheme g.globalSizeMask).Consistent g.globalBm)
    (quiet : (runActions env g actions).overflowCount = g.overflowCount)
    (accounts : g.globalItems = nonzeroSlots g) :
    (∀ before rest, actions = before ++ rest →
      (runActions env g before).globalItems = nonzeroSlots (runActions env g before)) ↔
    AllAccountable env g actions := by
  induction actions generalizing g with
  | nil =>
    refine iff_of_true ?_ trivial
    intro before rest whole
    obtain ⟨rfl, -⟩ := List.append_eq_nil_iff.mp whole.symm
    exact accounts
  | cons action actions inductionHypothesis =>
    have first := overflowCount_le_act env g action
    have later := overflowCount_le_runActions env (act env g action) actions
    rw [runActions, List.foldl_cons] at quiet
    rw [runActions] at later
    have quietStep : (act env g action).overflowCount = g.overflowCount := by omega
    have step := act_accounts_iff action consistent quietStep accounts
    -- `overflow_count` never falls, so a quiet run is quiet at every action
    have run := inductionHypothesis (act_consistent env action consistent)
      (by rw [runActions]; omega)
    rw [AllAccountable]
    constructor
    · intro throughout
      have next := throughout [action] actions rfl
      refine ⟨step.mp next, (run next).mp ?_⟩
      rintro before rest rfl
      exact throughout (action :: before) rest rfl
    · rintro ⟨accountable, allAccountable⟩ before rest whole
      cases before with
      | nil => exact accounts
      | cons other before =>
        obtain ⟨rfl, remaining⟩ := List.cons.inj whole
        exact (run (step.mpr accountable)).mpr allAccountable before rest remaining

/-- In a run without overflow, `global_items` is the number of nonzero slots throughout if and only
if no hash is 0 and the last slot is free at every resize. -/
theorem items_count_iff (env : Env) (sizeMask : SizeMask) (actions : List Action)
    (quiet : (runActions env (start env sizeMask).globals actions).overflowCount = 0) :
    (∀ before rest, actions = before ++ rest →
      (runActions env (start env sizeMask).globals before).globalItems =
        nonzeroSlots (runActions env (start env sizeMask).globals before)) ↔
    AllAccountable env (start env sizeMask).globals actions :=
  runActions_accounts_iff (fun _ _ occupied => absurd rfl occupied) quiet
    (by simp [nonzeroSlots, start])

/-- Two lines with one hash, and a resize behind them. -/
theorem items_count_iff_three :
    (runActions (filled 6) (start (filled 6) ⟨3, 2, rfl⟩).globals
        [.flush [97] 5, .flush [97] 5, .resize]).globalItems =
      nonzeroSlots (runActions (filled 6) (start (filled 6) ⟨3, 2, rfl⟩).globals
        [.flush [97] 5, .flush [97] 5, .resize]) :=
  (items_count_iff (filled 6) ⟨3, 2, rfl⟩ [.flush [97] 5, .flush [97] 5, .resize]
    (by decide +kernel)).mpr
    ⟨by unfold Accountable; decide, by unfold Accountable; decide,
      by unfold Accountable; decide +kernel, trivial⟩ _ [] rfl

/-- A hash in the last slot of a table of four, and a resize. -/
def lastSlotRun : Globals :=
  runActions (filled 6) (start (filled 6) ⟨3, 2, rfl⟩).globals [.flush [97] 3, .resize]

/-- The hash 0. -/
def zeroHashRun : Globals :=
  runActions (filled 6) (start (filled 6) ⟨3, 2, rfl⟩).globals [.flush [97] 0]

/-- An item is counted for a hash that the resize loses, and for the hash 0, which has no slot. -/
theorem items_miscounted :
    (lastSlotRun.overflowCount = 0 ∧ lastSlotRun.globalItems = 1 ∧ nonzeroSlots lastSlotRun = 0) ∧
      zeroHashRun.overflowCount = 0 ∧ zeroHashRun.globalItems = 1 ∧
        nonzeroSlots zeroHashRun = 0 := by
  decide +kernel

end CloudflareBlog.Mmuniq
