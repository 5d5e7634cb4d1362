import Mathlib.Logic.Function.Basic
import Mathlib.Data.List.Induction

/-!
# Linear probing

A table of keys with open addressing: a key is looked for in the slots from its home on, modulo the
size of the table, until a slot is free, holds the key, or the key's number of tries is used up.  A
distinguished key marks free slots.  Keys are never removed, so the slots a lookup passes stay
occupied, and a key that is found once is found in every later table (`Holds.insert`).  A table built
by insertions alone is `Consistent`: every key is found in the slot where it stands, so no key stands
in two slots, and an insertion that ends at a free slot makes one more slot occupied
(`occupied_insert`).

Seen from outside, such a table is the set of the keys it `Holds`, and an insertion that ends at a free
slot adds one (`Consistent.holds_insert_iff`); a key is in the table that a list of insertions builds
if one of them put it there (`holds_insertAll_iff`).  A search gives up only on a window of slots that
are all occupied by other keys (`probe_exhausted_iff`).
-/

namespace CloudflareBlog.Lib.LinearProbing

variable {κ : Type*} [DecidableEq κ]

/-- How keys are laid out: which key marks a free slot, how many slots there are, and where and for
how many slots a key is looked for. -/
structure Scheme (κ : Type*) where
  empty : κ
  size : Nat
  home : κ → Nat
  tries : κ → Nat

/-- Where a search ends. -/
inductive Answer where
  | free (slot : Nat)
  | held (slot : Nat)
  | exhausted
  deriving DecidableEq

/-- Search the next `tries` slots from `position` on. -/
def probe (slots : Nat → κ) (size : Nat) (empty key : κ) : Nat → Nat → Answer
  | _, 0 => .exhausted
  | position, tries + 1 =>
    if slots (position % size) = empty then .free (position % size)
    else if slots (position % size) = key then .held (position % size)
    else probe slots size empty key (position + 1) tries

section Probe

variable {slots : Nat → κ} {size : Nat} {empty key : κ} {position tries slot : Nat}

/-- The slots of a search: `slot` is one of the `tries` slots from `position` on. -/
def InWindow (size position tries slot : Nat) : Prop := ∃ d < tries, slot = (position + d) % size

theorem InWindow.next (inside : InWindow size (position + 1) tries slot) :
    InWindow size position (tries + 1) slot := by
  obtain ⟨d, before, rfl⟩ := inside
  exact ⟨d + 1, by omega, by rw [Nat.add_assoc, Nat.add_comm 1]⟩

theorem InWindow.lt (positive : 0 < size) (inside : InWindow size position tries slot) :
    slot < size := by
  obtain ⟨d, -, rfl⟩ := inside
  exact Nat.mod_lt _ positive

/-- What each end of a search says of the slots it looked at. -/
theorem probe_spec (slots : Nat → κ) (size : Nat) (empty key : κ) (position tries : Nat) :
    match probe slots size empty key position tries with
    | .free slot => InWindow size position tries slot ∧ slots slot = empty
    | .held slot => InWindow size position tries slot ∧ slots slot = key ∧ key ≠ empty
    | .exhausted => ∀ slot, InWindow size position tries slot →
        slots slot ≠ empty ∧ slots slot ≠ key := by
  induction tries generalizing position with
  | zero => exact fun slot ⟨d, impossible, _⟩ => absurd impossible (Nat.not_lt_zero d)
  | succ tries inductionHypothesis =>
    have here : InWindow size position (tries + 1) (position % size) := ⟨0, by omega, rfl⟩
    rw [probe]
    by_cases free : slots (position % size) = empty
    · rw [if_pos free]
      exact ⟨here, free⟩
    by_cases same : slots (position % size) = key
    · rw [if_neg free, if_pos same]
      exact ⟨here, same, same ▸ free⟩
    rw [if_neg free, if_neg same]
    have later := inductionHypothesis (position + 1)
    -- the search goes on, and what it says of the later slots is enough
    cases search : probe slots size empty key (position + 1) tries with
    | free slot =>
      rw [search] at later
      exact ⟨later.1.next, later.2⟩
    | held slot =>
      rw [search] at later
      exact ⟨later.1.next, later.2⟩
    | exhausted =>
      rw [search] at later
      rintro slot ⟨d, before, rfl⟩
      cases d with
      | zero => exact ⟨free, same⟩
      | succ d => exact later _ ⟨d, by omega, by rw [Nat.add_assoc, Nat.add_comm 1]⟩

theorem slot_of_probe_free (found : probe slots size empty key position tries = .free slot) :
    slots slot = empty := by
  have spec := probe_spec slots size empty key position tries
  rw [found] at spec
  exact spec.2

theorem slot_of_probe_held (found : probe slots size empty key position tries = .held slot) :
    slots slot = key ∧ key ≠ empty := by
  have spec := probe_spec slots size empty key position tries
  rw [found] at spec
  exact spec.2

theorem probe_free_lt (positive : 0 < size)
    (found : probe slots size empty key position tries = .free slot) : slot < size := by
  have spec := probe_spec slots size empty key position tries
  rw [found] at spec
  exact spec.1.lt positive

theorem probe_held_lt (positive : 0 < size)
    (found : probe slots size empty key position tries = .held slot) : slot < size := by
  have spec := probe_spec slots size empty key position tries
  rw [found] at spec
  exact spec.1.lt positive

/-- A search gives up when every slot of its window is occupied by another key. -/
theorem probe_exhausted_iff :
    probe slots size empty key position tries = .exhausted ↔
      ∀ d < tries, slots ((position + d) % size) ≠ empty ∧ slots ((position + d) % size) ≠ key := by
  have spec := probe_spec slots size empty key position tries
  constructor
  · intro search d before
    rw [search] at spec
    exact spec _ ⟨d, before, rfl⟩
  · intro full
    cases search : probe slots size empty key position tries with
    | free slot =>
      rw [search] at spec
      obtain ⟨⟨d, before, rfl⟩, free⟩ := spec
      exact absurd free (full d before).1
    | held slot =>
      rw [search] at spec
      obtain ⟨⟨d, before, rfl⟩, here, -⟩ := spec
      exact absurd here (full d before).2
    | exhausted => rfl

theorem probe_update_held {freeSlot : Nat} (free : slots freeSlot = empty) (filler : κ)
    (found : probe slots size empty key position tries = .held slot) :
    probe (Function.update slots freeSlot filler) size empty key position tries = .held slot := by
  -- every slot on the way to the key is occupied, so it is not the one that is filled
  induction tries generalizing position with
  | zero => cases found
  | succ tries inductionHypothesis =>
    rw [probe] at found ⊢
    split at found
    next => cases found
    next occupied =>
      have other : position % size ≠ freeSlot := by
        rintro rfl
        exact occupied free
      rw [Function.update_of_ne other, if_neg occupied]
      split at found
      next here => rw [if_pos here, found]
      next away => rw [if_neg away]; exact inductionHypothesis found

theorem probe_update_free (nonempty : key ≠ empty)
    (found : probe slots size empty key position tries = .free slot) :
    probe (Function.update slots slot key) size empty key position tries = .held slot := by
  have free := slot_of_probe_free found
  induction tries generalizing position with
  | zero => cases found
  | succ tries inductionHypothesis =>
    rw [probe] at found ⊢
    split at found
    next =>
      cases found
      rw [Function.update_self, if_neg nonempty, if_pos rfl]
    next occupied =>
      have other : position % size ≠ slot := by
        rintro rfl
        exact occupied free
      rw [Function.update_of_ne other, if_neg occupied]
      split at found
      next => cases found
      next away => rw [if_neg away]; exact inductionHypothesis found

end Probe

namespace Scheme

variable (scheme : Scheme κ)

def find (slots : Nat → κ) (key : κ) : Answer :=
  probe slots scheme.size scheme.empty key (scheme.home key) (scheme.tries key)

/-- Put the key into the free slot where the search for it ends, if it ends there. -/
def insert (slots : Nat → κ) (key : κ) : Nat → κ :=
  match scheme.find slots key with
  | .free slot => Function.update slots slot key
  | .held _ => slots
  | .exhausted => slots

/-- The search for the key finds it. -/
def Holds (slots : Nat → κ) (key : κ) : Prop := ∃ slot, scheme.find slots key = .held slot

variable {scheme} {slots : Nat → κ} {key : κ}

theorem Holds.ne_empty (holds : scheme.Holds slots key) : key ≠ scheme.empty := by
  obtain ⟨slot, found⟩ := holds
  exact (slot_of_probe_held found).2

theorem Holds.exists_slot (positive : 0 < scheme.size) (holds : scheme.Holds slots key) :
    ∃ slot < scheme.size, slots slot = key := by
  obtain ⟨slot, found⟩ := holds
  exact ⟨slot, probe_held_lt positive found, (slot_of_probe_held found).1⟩

theorem Holds.insert (holds : scheme.Holds slots key) (other : κ) :
    scheme.Holds (scheme.insert slots other) key := by
  obtain ⟨slot, found⟩ := holds
  rw [Scheme.insert]
  cases search : scheme.find slots other with
  | free freeSlot => exact ⟨slot, probe_update_held (slot_of_probe_free search) other found⟩
  | held _ | exhausted => exact ⟨slot, found⟩

/-- A key that is not the marker is found after its insertion unless its tries ran out. -/
theorem holds_insert (nonempty : key ≠ scheme.empty)
    (room : scheme.find slots key ≠ .exhausted) :
    scheme.Holds (scheme.insert slots key) key := by
  rw [Scheme.insert]
  cases search : scheme.find slots key with
  | free slot => exact ⟨slot, probe_update_free nonempty search⟩
  | held slot => exact ⟨slot, search⟩
  | exhausted => exact absurd search room

theorem insert_slot (scheme : Scheme κ) (slots : Nat → κ) (key : κ) (slot : Nat) :
    scheme.insert slots key slot = slots slot ∨
      scheme.insert slots key slot = key ∧ scheme.find slots key = .free slot := by
  rw [Scheme.insert]
  cases search : scheme.find slots key with
  | held _ | exhausted => exact .inl rfl
  | free freeSlot =>
    by_cases here : slot = freeSlot
    · subst here
      exact .inr ⟨Function.update_self .., rfl⟩
    · exact .inl (Function.update_of_ne here ..)

/-! ## Counting occupied slots -/

/-- How many of the first `count` slots are occupied. -/
def occupied (scheme : Scheme κ) (slots : Nat → κ) (count : Nat) : Nat :=
  (List.range count).countP fun slot => slots slot ≠ scheme.empty

theorem occupied_succ (scheme : Scheme κ) (slots : Nat → κ) (count : Nat) :
    scheme.occupied slots (count + 1) =
      scheme.occupied slots count + if slots count = scheme.empty then 0 else 1 := by
  simp [occupied, List.range_succ, List.countP_append, List.countP_singleton]

theorem occupied_congr {scheme : Scheme κ} {slots other : Nat → κ} {count : Nat}
    (agree : ∀ slot < count, slots slot = other slot) :
    scheme.occupied slots count = scheme.occupied other count := by
  refine List.countP_congr fun slot among => ?_
  rw [agree slot (List.mem_range.mp among)]

theorem occupied_update {scheme : Scheme κ} {slots : Nat → κ} {key : κ} {slot count : Nat}
    (below : slot < count) (free : slots slot = scheme.empty) (nonempty : key ≠ scheme.empty) :
    scheme.occupied (Function.update slots slot key) count = scheme.occupied slots count + 1 := by
  induction count with
  | zero => omega
  | succ count inductionHypothesis =>
    rw [occupied_succ, occupied_succ]
    obtain rfl | earlier := Nat.eq_or_lt_of_le (Nat.le_of_lt_succ below)
    · have before : scheme.occupied (Function.update slots slot key) slot =
          scheme.occupied slots slot :=
        occupied_congr fun other inside => Function.update_of_ne (Nat.ne_of_lt inside) ..
      rw [before, Function.update_self, if_neg nonempty, if_pos free]
    · rw [inductionHypothesis earlier, Function.update_of_ne (Nat.ne_of_gt earlier)]
      omega

/-- Every key is found in the slot where it stands. -/
def Consistent (scheme : Scheme κ) (slots : Nat → κ) : Prop :=
  ∀ slot < scheme.size, slots slot ≠ scheme.empty → scheme.find slots (slots slot) = .held slot

theorem Consistent.injective {scheme : Scheme κ} {slots : Nat → κ}
    (consistent : scheme.Consistent slots) {first second : Nat} (firstInside : first < scheme.size)
    (secondInside : second < scheme.size) (same : slots first = slots second)
    (nonempty : slots first ≠ scheme.empty) : first = second := by
  have foundFirst := consistent first firstInside nonempty
  have foundSecond := consistent second secondInside (same ▸ nonempty)
  rw [same, foundSecond] at foundFirst
  exact (Answer.held.inj foundFirst).symm

theorem Consistent.insert {scheme : Scheme κ} {slots : Nat → κ}
    (consistent : scheme.Consistent slots) (key : κ) :
    scheme.Consistent (scheme.insert slots key) := by
  intro slot inside nonempty
  rw [Scheme.insert] at nonempty ⊢
  cases search : scheme.find slots key with
  | held _ | exhausted =>
    simp only [search] at nonempty ⊢
    exact consistent slot inside nonempty
  | free freeSlot =>
    simp only [search] at nonempty ⊢
    by_cases here : slot = freeSlot
    · subst here
      rw [Function.update_self] at nonempty ⊢
      exact probe_update_free nonempty search
    · rw [Function.update_of_ne here] at nonempty ⊢
      exact probe_update_held (slot_of_probe_free search) key (consistent slot inside nonempty)

/-- In a consistent table the keys found are the keys that stand somewhere. -/
theorem Consistent.holds_iff {scheme : Scheme κ} {slots : Nat → κ} {key : κ}
    (consistent : scheme.Consistent slots) (positive : 0 < scheme.size)
    (nonempty : key ≠ scheme.empty) :
    scheme.Holds slots key ↔ ∃ slot < scheme.size, slots slot = key := by
  constructor
  · exact Holds.exists_slot positive
  · rintro ⟨slot, inside, rfl⟩
    exact ⟨slot, consistent slot inside nonempty⟩

/-- An insertion that ends at a free slot adds its key; any other adds nothing. -/
theorem Consistent.holds_insert_iff {scheme : Scheme κ} {slots : Nat → κ} {key other : κ}
    (consistent : scheme.Consistent slots) (positive : 0 < scheme.size)
    (nonempty : other ≠ scheme.empty) :
    scheme.Holds (scheme.insert slots key) other ↔
      scheme.Holds slots other ∨ key = other ∧ ∃ slot, scheme.find slots key = .free slot := by
  constructor
  · intro holds
    obtain ⟨slot, inside, there⟩ := holds.exists_slot positive
    obtain kept | ⟨written, found⟩ := insert_slot scheme slots key slot
    · left
      rw [consistent.holds_iff positive nonempty]
      exact ⟨slot, inside, kept.symm.trans there⟩
    · exact .inr ⟨written.symm.trans there, slot, found⟩
  · rintro (holds | ⟨rfl, slot, found⟩)
    · exact holds.insert key
    · exact holds_insert nonempty (by rw [found]; nofun)

theorem consistent_empty (scheme : Scheme κ) : scheme.Consistent fun _ => scheme.empty :=
  fun _ _ nonempty => absurd rfl nonempty

/-- The table after inserting keys one after another. -/
def insertAll (scheme : Scheme κ) (keys : List κ) : Nat → κ :=
  keys.foldl scheme.insert fun _ => scheme.empty

theorem insertAll_append_singleton (scheme : Scheme κ) (keys : List κ) (key : κ) :
    scheme.insertAll (keys ++ [key]) = scheme.insert (scheme.insertAll keys) key := by
  simp [insertAll]

theorem consistent_insertAll (scheme : Scheme κ) (keys : List κ) :
    scheme.Consistent (scheme.insertAll keys) := by
  induction keys using List.reverseRecOn with
  | nil => exact scheme.consistent_empty
  | append_singleton keys key inductionHypothesis =>
    rw [insertAll_append_singleton]
    exact inductionHypothesis.insert key

/-- A key is found after a list of insertions if one of them ended at a free slot for it. -/
theorem holds_insertAll_iff {scheme : Scheme κ} (positive : 0 < scheme.size) {keys : List κ} {key : κ}
    (nonempty : key ≠ scheme.empty) :
    scheme.Holds (scheme.insertAll keys) key ↔
      ∃ before after, keys = before ++ key :: after ∧
        ∃ slot, scheme.find (scheme.insertAll before) key = .free slot := by
  induction keys using List.reverseRecOn with
  | nil =>
    rw [(scheme.consistent_insertAll []).holds_iff positive nonempty]
    constructor
    · rintro ⟨slot, -, there⟩
      exact absurd there.symm nonempty
    · rintro ⟨before, after, split, -⟩
      simp at split
  | append_singleton keys last inductionHypothesis =>
    rw [insertAll_append_singleton,
      (scheme.consistent_insertAll keys).holds_insert_iff positive nonempty, inductionHypothesis]
    constructor
    · rintro (⟨before, after, rfl, free⟩ | ⟨rfl, free⟩)
      · exact ⟨before, after ++ [last], by simp, free⟩
      · exact ⟨keys, [], rfl, free⟩
    · rintro ⟨before, after, split, free⟩
      -- the key stands before the last insertion, or is the last one
      cases after using List.reverseRecOn with
      | nil =>
        obtain ⟨rfl, same⟩ := List.append_inj' split rfl
        exact .inr ⟨List.singleton_inj.mp same, (List.singleton_inj.mp same) ▸ free⟩
      | append_singleton after end' =>
        rw [← List.cons_append, ← List.append_assoc] at split
        exact .inl ⟨before, after, (List.append_inj' split rfl).1, free⟩

theorem occupied_insert {scheme : Scheme κ} {slots : Nat → κ} {key : κ} {slot : Nat}
    (positive : 0 < scheme.size) (nonempty : key ≠ scheme.empty)
    (found : scheme.find slots key = .free slot) :
    scheme.occupied (scheme.insert slots key) scheme.size =
      scheme.occupied slots scheme.size + 1 := by
  rw [Scheme.insert, found]
  exact occupied_update (probe_free_lt positive found) (slot_of_probe_free found) nonempty

theorem insert_empty (scheme : Scheme κ) (slots : Nat → κ) :
    scheme.insert slots scheme.empty = slots := by
  rw [Scheme.insert]
  cases search : scheme.find slots scheme.empty with
  | held _ | exhausted => rfl
  | free freeSlot => exact Function.update_eq_self_iff.mpr (slot_of_probe_free search).symm

end Scheme

end CloudflareBlog.Lib.LinearProbing
